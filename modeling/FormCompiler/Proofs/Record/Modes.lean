import FormCompiler.Proofs.Record.Loading
import Mathlib.Order.Bounds.Basic

/-!
# Strict and lenient loading

The principal results are about whole lists of records.  The first says which lists are loaded in
lenient mode, and which record refuses any other list, with which violation and after which
diagnostics.  The second says that strict loading is lenient loading that stops at the first
diagnostic.
-/

namespace FormCompiler

/-- The record comes with an identifier of its own. -/
def FieldRecord.HasId (record : FieldRecord) : Prop := ∃ id, id ≠ "" ∧ record.id = some id

namespace FormSchema

open Load FieldRecord

variable {σ : Type} [IdSource σ] {mode : StrictMode} {index : Nat} {seen : List String}
  {record : FieldRecord} {rest : List FieldRecord} {state reached : LoadState σ}

/-! ## Which lists are loaded -/

/-- Every name says something and belongs to one record only, and no record has a condition on
itself. -/
structure WellFormed (records : List FieldRecord) : Prop where
  named : ∀ record ∈ records, ¬record.HasBlankName
  unconditioned : ∀ record ∈ records, ¬record.IsSelfConditioned
  distinct : (records.map (·.name)).Nodup

/-- The record at an index is refused after those before it. -/
def OffendsAt (records : List FieldRecord) (index : Nat) : Prop :=
  ∃ record, records[index]? = some record ∧
    record.Offends ((records.take index).map (·.name))

theorem wellFormed_cons :
    WellFormed (record :: rest) ↔
      ¬record.HasBlankName ∧ ¬record.IsSelfConditioned ∧ WellFormed rest ∧
        ∀ other ∈ rest, other.name ≠ record.name := by
  constructor
  · rintro ⟨hnamed, hunconditioned, hdistinct⟩
    obtain ⟨hname, hrest⟩ := List.nodup_cons.mp hdistinct
    refine ⟨hnamed record List.mem_cons_self, hunconditioned record List.mem_cons_self,
      ⟨?_, ?_, hrest⟩, ?_⟩
    · exact fun other hother => hnamed other (List.mem_cons_of_mem record hother)
    · exact fun other hother => hunconditioned other (List.mem_cons_of_mem record hother)
    · exact fun other hother heq => hname (List.mem_map.mpr ⟨other, hother, heq⟩)
  · rintro ⟨hname, hself, ⟨hnamed, hunconditioned, hdistinct⟩, hother⟩
    refine ⟨?_, ?_, ?_⟩
    · exact List.forall_mem_cons.mpr ⟨hname, hnamed⟩
    · exact List.forall_mem_cons.mpr ⟨hself, hunconditioned⟩
    · refine List.nodup_cons.mpr ⟨?_, hdistinct⟩
      intro hmem
      obtain ⟨other, hrest, heq⟩ := List.mem_map.mp hmem
      exact hother other hrest heq

theorem acceptable_iff {records : List FieldRecord} :
    Acceptable seen records ↔ WellFormed records ∧ ∀ record ∈ records, record.name ∉ seen := by
  induction records generalizing seen with
  | nil => exact ⟨fun _ => ⟨⟨by simp, by simp, by simp⟩, by simp⟩, fun _ => trivial⟩
  | cons record rest ih =>
      simp only [Acceptable, ih, wellFormed_cons, Offends, not_or, List.mem_cons, ne_eq,
        forall_eq_or_imp]
      constructor
      · rintro ⟨⟨hname, hself, hseen⟩, hrest, hothers⟩
        exact ⟨⟨hname, hself, hrest, fun other hother => (hothers other hother).1⟩, hseen,
          fun other hother => (hothers other hother).2⟩
      · rintro ⟨⟨hname, hself, hrest, hdistinct⟩, hseen, hothers⟩
        exact ⟨⟨hname, hself, hseen⟩, hrest,
          fun other hother => ⟨hdistinct other hother, hothers other hother⟩⟩

theorem acceptable_nil_iff {records : List FieldRecord} :
    Acceptable [] records ↔ WellFormed records := by
  simp [acceptable_iff]

theorem not_offends_of_acceptable {records : List FieldRecord} (h : Acceptable seen records)
    {i : Nat} (hi : records[i]? = some record) :
    ¬record.Offends ((records.take i).map (·.name) ++ seen) := by
  induction records generalizing seen i with
  | nil => cases hi
  | cons first rest ih =>
      cases i with
      | zero =>
          cases hi
          exact h.1
      | succ i =>
          intro hoffends
          exact ih h.2 hi ((offends_congr (by simp [or_left_comm])).mp hoffends)

theorem isLeast_offendsAt {before : List FieldRecord} (rest : List FieldRecord)
    (hbefore : Acceptable [] before)
    (hrecord : record.Offends (before.map (·.name))) :
    IsLeast {i | OffendsAt (before ++ record :: rest) i} before.length := by
  constructor
  · exact ⟨record, by simp, by simpa using hrecord⟩
  · rintro i ⟨other, hother, hoffends⟩
    by_contra hlt
    rw [not_le] at hlt
    rw [List.getElem?_append_left hlt] at hother
    rw [List.take_append_of_le_length hlt.le] at hoffends
    exact not_offends_of_acceptable hbefore hother (by simpa using hoffends)

/-! ## Lenient loading -/

theorem outcome_ofRecords (records : List FieldRecord) :
    (ofRecords records mode).outcome state =
      (((loadFrom mode 0 [] records).outcome state).1.map FormSchema.mk,
        ((loadFrom mode 0 [] records).outcome state).2) := by
  rw [ofRecords, outcome_bind]
  rcases (loadFrom mode 0 [] records).outcome state with ⟨_ | _, _⟩ <;> rfl

/-- Lenient loading takes the lists in which every name says something and belongs to one record
only and no record has a condition on itself.  Of any other list, the first record that breaks one
of these rules is the one that refuses; what was tolerated up to there stays recorded. -/
theorem ofRecords_warn (records : List FieldRecord) (state : LoadState σ) :
    ((∃ form, ((ofRecords records .warn).outcome state).1 = .ok form) ↔ WellFormed records) ∧
      (∀ form, ((ofRecords records .warn).outcome state).1 = .ok form →
        List.Forall₂ Yields records form.fields ∧
          ((ofRecords records .warn).outcome state).2.diagnostics =
            state.diagnostics ++ problemsFrom 0 records) ∧
      ∀ violation, ((ofRecords records .warn).outcome state).1 = .error violation →
        ∃ index record, IsLeast {i | OffendsAt records i} index ∧
          records[index]? = some record ∧ Violates (itemPath "$" index) record violation ∧
          ((ofRecords records .warn).outcome state).2.diagnostics =
            state.diagnostics ++ problemsFrom 0 (records.take index) ++
              record.metProblems (itemPath "$" index) := by
  rcases acceptable_or_exists_offends [] records with
    hrecords | ⟨before, record, rest, rfl, hbefore, hrecord⟩
  · obtain ⟨fields, reached, hfields⟩ := exists_of_acceptable hrecords (Or.inl rfl) state
    obtain ⟨-, -, hmade, hreached⟩ := of_loadFrom_eq_ok hfields
    rw [outcome_ofRecords, hfields]
    refine ⟨⟨fun _ => acceptable_nil_iff.mp hrecords, fun _ => ⟨_, rfl⟩⟩, ?_, ?_⟩
    · rintro form ⟨⟩
      exact ⟨hmade.imp fun _ _ => MadeOf.yields, hreached⟩
    · rintro violation ⟨⟩
  · obtain ⟨violation, ids, hviolation, houtcome⟩ :=
      outcome_loadFrom_of_offends rest hbefore hrecord (Or.inl rfl) (Or.inl rfl) state
    rw [outcome_ofRecords, houtcome]
    rw [List.append_nil] at hrecord
    have hleast := isLeast_offendsAt rest hbefore hrecord
    refine ⟨⟨?_, ?_⟩, ?_, ?_⟩
    · rintro ⟨form, ⟨⟩⟩
    · intro hrecords
      obtain ⟨other, hother, hoffends⟩ := hleast.1
      exact absurd (by simpa using hoffends)
        (not_offends_of_acceptable (acceptable_nil_iff.mpr hrecords) hother)
    · rintro form ⟨⟩
    · rintro _ ⟨⟩
      rw [Nat.zero_add] at hviolation
      exact ⟨before.length, record, hleast, by simp, hviolation, by simp⟩

/-! ## Strict loading -/

/-- The problems of a record whose name says something are recorded, whatever comes later. -/
theorem exists_diagnostics_of_not_blank (hname : ¬record.HasBlankName) (index : Nat)
    (seen : List String) (rest : List FieldRecord) (state : LoadState σ) :
    ∃ later, ((loadFrom .warn index seen (record :: rest)).outcome state).2.diagnostics =
      state.diagnostics ++ record.problems (itemPath "$" index) ++ later := by
  rcases acceptable_or_exists_offends seen (record :: rest) with
    hrecords | ⟨before, other, after, hsplit, hbefore, hother⟩
  · obtain ⟨fields, reached, hfields⟩ :=
      exists_of_acceptable hrecords (Or.inl rfl) state
    obtain ⟨-, -, -, hreached⟩ := of_loadFrom_eq_ok hfields
    rw [hfields]
    exact ⟨_, by rw [hreached, problemsFrom, List.append_assoc]⟩
  · obtain ⟨violation, ids, -, houtcome⟩ :=
      outcome_loadFrom_of_offends after hbefore hother (Or.inl rfl) (Or.inl rfl) state
    rw [hsplit, houtcome]
    cases before with
    | nil =>
        cases hsplit
        exact ⟨[], by simp [problemsFrom, metProblems, hname]⟩
    | cons first before =>
        cases hsplit
        exact ⟨_, by simp only [problemsFrom, List.append_assoc]; rfl⟩

theorem exists_takeId (h : record.HasId) (σ τ : Type) [IdSource σ] [IdSource τ] :
    ∃ id, (∀ ids : σ, record.takeId ids = (id, ids)) ∧
      ∀ ids : τ, record.takeId ids = (id, ids) := by
  obtain ⟨id, hid, hrecord⟩ := h
  have hnonEmpty : nonEmpty? record.id = some id := by simp [nonEmpty?, hrecord, hid]
  exact ⟨id, fun ids => by simp [takeId, hnonEmpty], fun ids => by simp [takeId, hnonEmpty]⟩

variable {τ : Type} [IdSource τ]

/-- The two modes side by side, from any two states.  The induction is on the records; a record
with a problem ends the strict run and no other. -/
theorem loadFrom_strict (records : List FieldRecord) (hgiven : ∀ record ∈ records, HasId record)
    (index : Nat) (seen : List String) (state : LoadState σ) (state' : LoadState τ) :
    ((loadFrom .strict index seen records).outcome state).2.diagnostics = state.diagnostics ∧
      ∃ gained, ((loadFrom .warn index seen records).outcome state').2.diagnostics =
          state'.diagnostics ++ gained ∧
        ((loadFrom .strict index seen records).outcome state).1 =
          match gained with
          | [] => ((loadFrom .warn index seen records).outcome state').1
          | first :: _ => .error (.intolerable first.path first.message) := by
  induction records generalizing index seen state state' with
  | nil => exact ⟨rfl, [], by simp [loadFrom], rfl⟩
  | cons record rest ih =>
      obtain ⟨hid, hrest⟩ := List.forall_mem_cons.mp hgiven
      by_cases hname : record.HasBlankName
      · rw [outcome_loadFrom_cons_of_error (outcome_toField_of_blank hname _ .strict state),
          outcome_loadFrom_cons_of_error (outcome_toField_of_blank hname _ .warn state')]
        exact ⟨rfl, [], by simp, rfl⟩
      cases hproblems : record.problems (itemPath "$" index) with
      | cons first others =>
          -- the strict run ends at the first problem, whatever else is wrong with the record
          have hstrict : (record.toField (itemPath "$" index) .strict).outcome state =
              (.error (.intolerable first.path first.message), state) := by
            rw [toField_eq_of_not_blank hname, hproblems,
              outcome_bind_of_error (outcome_report_strict first others state)]
          obtain ⟨later, hlater⟩ :=
            exists_diagnostics_of_not_blank hname index seen rest state'
          rw [outcome_loadFrom_cons_of_error hstrict]
          refine ⟨rfl, first :: others ++ later, ?_, rfl⟩
          rw [hlater, hproblems, List.append_assoc]
      | nil =>
          have hstrict : (record.toField (itemPath "$" index) .strict).outcome state = _ :=
            outcome_toField hname (Or.inr hproblems) state
          have hwarn : (record.toField (itemPath "$" index) .warn).outcome state' = _ :=
            outcome_toField hname (Or.inr hproblems) state'
          -- no problem is met, so from here on both runs do the same
          rw [hproblems, after_nil] at hstrict hwarn
          by_cases hself : record.IsSelfConditioned
          · obtain ⟨k, hk, hsettle⟩ :=
              outcome_settle_of_selfConditioned hself (itemPath "$" index) state
            obtain ⟨k', hk', hsettle'⟩ :=
              outcome_settle_of_selfConditioned hself (itemPath "$" index) state'
            rw [hsettle] at hstrict
            rw [hsettle', ← hk.unique hk'] at hwarn
            rw [outcome_loadFrom_cons_of_error hstrict, outcome_loadFrom_cons_of_error hwarn]
            exact ⟨rfl, [], by simp, rfl⟩
          · rw [outcome_settle hname hself] at hstrict hwarn
            by_cases hseen : record.name ∈ seen
            · rw [outcome_loadFrom_cons_of_mem hstrict rfl hseen,
                outcome_loadFrom_cons_of_mem hwarn rfl hseen]
              exact ⟨rfl, [], by simp, rfl⟩
            · rw [outcome_loadFrom_cons hstrict rfl hseen, outcome_loadFrom_cons hwarn rfl hseen]
              obtain ⟨id, hstrictId, hwarnId⟩ := exists_takeId hid σ τ
              rw [hstrictId, hwarnId]
              obtain ⟨hdiagnostics, gained, hgained, hresult⟩ :=
                ih hrest (index + 1) (record.name :: seen) state state'
              refine ⟨hdiagnostics, gained, hgained, ?_⟩
              cases gained with
              | nil => exact congrArg (Except.map _) hresult
              | cons first others => exact congrArg (Except.map _) hresult

/-- Strict loading records nothing.  It gives a form when lenient loading gives the same form and
records nothing either; it fails where lenient loading first records a diagnostic or fails. -/
theorem ofRecords_strict (records : List FieldRecord) (hgiven : ∀ record ∈ records, HasId record)
    (state : LoadState σ) (state' : LoadState τ) :
    ((ofRecords records .strict).outcome state).2.diagnostics = state.diagnostics ∧
      ∃ gained, ((ofRecords records .warn).outcome state').2.diagnostics =
          state'.diagnostics ++ gained ∧
        (∀ form, ((ofRecords records .strict).outcome state).1 = .ok form ↔
          ((ofRecords records .warn).outcome state').1 = .ok form ∧ gained = []) ∧
        ∀ violation, ((ofRecords records .strict).outcome state).1 = .error violation →
          match gained with
          | [] => ((ofRecords records .warn).outcome state').1 = .error violation
          | first :: _ => violation.place = first.path ∧ violation.message = first.message := by
  obtain ⟨hdiagnostics, gained, hgained, hresult⟩ :=
    loadFrom_strict records hgiven 0 [] state state'
  simp only [outcome_ofRecords]
  refine ⟨hdiagnostics, gained, hgained, ?_⟩
  cases gained with
  | nil =>
      rw [hresult]
      exact ⟨fun form => ⟨fun h => ⟨h, rfl⟩, And.left⟩, fun violation h => h⟩
  | cons first others =>
      rw [hresult]
      constructor
      · intro form
        constructor
        · rintro ⟨⟩
        · rintro ⟨-, ⟨⟩⟩
      · rintro violation ⟨⟩
        exact ⟨rfl, rfl⟩

/-- A name with a blank and a select field without options, before a condition on itself. -/
def troubledRecords : List FieldRecord :=
  [{ FieldRecord.defaults with id := some "1", name := "first name", type := .select },
    { FieldRecord.defaults with
      id := some "2", name := "age", columns := some 7,
      conditions := [{ ConditionRecord.defaults with field := "age" }] }]

def unused (stem : String) : LoadState SequentialIds := ⟨[], .ofStem stem⟩

theorem ofRecords_strict_troubledRecords :
    (∀ record ∈ troubledRecords, HasId record) ∧
      ((ofRecords troubledRecords .strict).outcome (unused "a")).2.diagnostics = [] ∧
      ∃ gained, ((ofRecords troubledRecords .warn).outcome (unused "b")).2.diagnostics =
          [] ++ gained ∧
        (∀ form, ((ofRecords troubledRecords .strict).outcome (unused "a")).1 = .ok form ↔
          ((ofRecords troubledRecords .warn).outcome (unused "b")).1 = .ok form ∧
            gained = []) ∧
        ∀ violation,
          ((ofRecords troubledRecords .strict).outcome (unused "a")).1 = .error violation →
            match gained with
            | [] =>
                ((ofRecords troubledRecords .warn).outcome (unused "b")).1 = .error violation
            | first :: _ =>
                violation.place = first.path ∧ violation.message = first.message := by
  have hgiven : ∀ record ∈ troubledRecords, HasId record := by
    intro record hrecord
    simp only [troubledRecords, List.mem_cons, List.not_mem_nil, or_false] at hrecord
    rcases hrecord with rfl | rfl
    · exact ⟨"1", by decide, rfl⟩
    · exact ⟨"2", by decide, rfl⟩
  exact ⟨hgiven, ofRecords_strict _ hgiven (unused "a") (unused "b")⟩

end FormSchema

end FormCompiler
