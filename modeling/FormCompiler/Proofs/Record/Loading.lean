import FormCompiler.Proofs.Schema.Drafts
import FormCompiler.Record.Load
import Mathlib.Data.List.Forall2
import Mathlib.Order.Bounds.Defs

/-!
# What loading does with the records

A record has tolerable problems, which become diagnostics, and it may be refused: for a blank name,
for a condition on itself, for the name of an earlier record.  The outcome of loading is described
for one record first and then, by induction, for a list: either no record is refused and every one
becomes a field, or the first one that is refused ends the loading.
-/

namespace FormCompiler

namespace FieldRecord

/-! ## The problems of a record -/

def nameProblems (path : String) (record : FieldRecord) : List Diagnostic :=
  if isIdentifierName record.name then []
  else
    [⟨.nonIdentifierName, path ++ ".name",
      "Field name '" ++ record.name ++ "' is not a plain identifier"⟩]

def optionsProblems (path : String) (record : FieldRecord) : List Diagnostic :=
  if record.type = .select ∧ record.options = [] then
    [⟨.emptyOptions, path ++ ".options",
      "Select field '" ++ record.name ++ "' has no options"⟩]
  else []

def columnsProblems (path : String) (record : FieldRecord) : List Diagnostic :=
  match record.columns with
  | none => []
  | some span =>
      if 1 ≤ span ∧ span ≤ 3 then []
      else
        [⟨.columnsClamped, path ++ ".columns",
          "Column span " ++ Text.signedDecimal span ++ " moved to " ++
            Text.decimal (Columns.clamp span).span⟩]

/-- The tolerable problems of a record at a path, in the order in which they are met. -/
def problems (path : String) (record : FieldRecord) : List Diagnostic :=
  record.nameProblems path ++ record.optionsProblems path ++ record.columnsProblems path

/-- The tolerable problems of records from an index on. -/
def problemsFrom : Nat → List FieldRecord → List Diagnostic
  | _, [] => []
  | index, record :: rest => record.problems (itemPath "$" index) ++ problemsFrom (index + 1) rest

/-! ## The field of a record -/

def settledColumns (record : FieldRecord) : Columns :=
  (record.columns.map Columns.clamp).getD .one

def fieldWith (record : FieldRecord) (id : String) : FieldSchema :=
  (record.draft record.settledColumns).withId id

/-- The field comes from the record: all is taken over, and an identifier that is given stays. -/
def Yields (record : FieldRecord) (field : FieldSchema) : Prop :=
  ∃ id, field = record.fieldWith id ∧ ∀ given, nonEmpty? record.id = some given → id = given

/-- The identifier of a record, from a source if none is given, and the source that remains. -/
def takeId {σ : Type} [IdSource σ] (record : FieldRecord) (ids : σ) : String × σ :=
  match nonEmpty? record.id with
  | some id => (id, ids)
  | none => IdSource.next ids

theorem yields_takeId {σ : Type} [IdSource σ] (record : FieldRecord) (ids : σ) :
    record.Yields (record.fieldWith (record.takeId ids).1) := by
  refine ⟨_, rfl, ?_⟩
  intro given hgiven
  simp [takeId, hgiven]

/-! ## Why a record is refused -/

/-- Nothing is left of the name when the blanks at its ends are dropped. -/
def HasBlankName (record : FieldRecord) : Prop := Text.trimmed record.name = ""

/-- One of the conditions is on the record itself. -/
def IsSelfConditioned (record : FieldRecord) : Prop :=
  ∃ c ∈ record.conditions, c.field = record.name

/-- The record is refused after records of the given names. -/
def Offends (seen : List String) (record : FieldRecord) : Prop :=
  record.HasBlankName ∨ record.IsSelfConditioned ∨ record.name ∈ seen

/-- The condition at an index is on the record itself. -/
def ConditionedAt (record : FieldRecord) (index : Nat) : Prop :=
  ∃ c, record.conditions[index]? = some c ∧ c.field = record.name

instance (record : FieldRecord) : Decidable record.HasBlankName :=
  inferInstanceAs (Decidable (_ = _))

/-- The problems that are met before a record is refused; a blank name is refused at once. -/
def metProblems (path : String) (record : FieldRecord) : List Diagnostic :=
  if record.HasBlankName then [] else record.problems path

/-- The violation of a record that is refused: a blank name goes before a condition on itself, and
both go before a name that another record has. -/
inductive Violates (path : String) (record : FieldRecord) : Violation → Prop where
  | blankName (hname : record.HasBlankName) : Violates path record (.blankName (path ++ ".name"))
  | selfCondition {index : Nat} (hname : ¬record.HasBlankName)
      (hindex : IsLeast {k | record.ConditionedAt k} index) :
      Violates path record
        (.selfCondition (itemPath (path ++ ".conditions") index ++ ".field") record.name)
  | duplicateName (hname : ¬record.HasBlankName) (hself : ¬record.IsSelfConditioned) :
      Violates path record (.duplicateName (path ++ ".name") record.name)

theorem offends_congr {seen seen' : List String} {record : FieldRecord}
    (h : record.name ∈ seen ↔ record.name ∈ seen') :
    record.Offends seen ↔ record.Offends seen' := by
  unfold Offends
  rw [h]

theorem hasBlankName_iff (record : FieldRecord) :
    record.HasBlankName ↔ Text.allBlank record.name = true := Text.trimmed_eq_empty_iff record.name

theorem findIdx?_eq_none_iff_not_selfConditioned (record : FieldRecord) :
    (record.conditions.findIdx? fun c => c.field == record.name) = none ↔
      ¬record.IsSelfConditioned := by
  simp [IsSelfConditioned, List.findIdx?_eq_none_iff]

theorem isLeast_of_findIdx? {record : FieldRecord} {index : Nat}
    (h : (record.conditions.findIdx? fun c => c.field == record.name) = some index) :
    IsLeast {k | record.ConditionedAt k} index := by
  obtain ⟨hlt, hat, hbefore⟩ := List.findIdx?_eq_some_iff_getElem.mp h
  constructor
  · exact ⟨_, List.getElem?_eq_getElem hlt, by simpa using hat⟩
  · rintro k ⟨c, hc, hself⟩
    by_contra hnot
    obtain ⟨hk, rfl⟩ := List.getElem?_eq_some_iff.mp hc
    exact hbefore k (by omega) (by simpa using hself)

end FieldRecord

/-! ## Runs of steps -/

namespace Load

variable {σ α β : Type}

/-- What a step gives from a state, and the state that it leaves. -/
def outcome (step : Load σ α) (state : LoadState σ) : Except Violation α × LoadState σ :=
  step.run.run state

def after (state : LoadState σ) (diagnostics : List Diagnostic) : LoadState σ :=
  { state with diagnostics := state.diagnostics ++ diagnostics }

@[simp] theorem after_nil (state : LoadState σ) : after state [] = state := by
  simp [after]

@[simp] theorem after_after (state : LoadState σ) (first second : List Diagnostic) :
    after (after state first) second = after state (first ++ second) := by
  simp [after]

@[simp] theorem outcome_pure (a : α) (state : LoadState σ) :
    (pure a : Load σ α).outcome state = (.ok a, state) := rfl

@[simp] theorem outcome_refuse (violation : Violation) (state : LoadState σ) :
    (refuse violation : Load σ α).outcome state = (.error violation, state) := rfl

theorem outcome_bind (step : Load σ α) (next : α → Load σ β) (state : LoadState σ) :
    (step >>= next).outcome state =
      match step.outcome state with
      | (.ok a, reached) => (next a).outcome reached
      | (.error violation, reached) => (.error violation, reached) := by
  change (match step.run.run state with | (a, reached) => ExceptT.bindCont next a reached) = _
  unfold outcome
  cases step.run.run state with
  | mk result reached => cases result <;> rfl

theorem outcome_bind_of_ok {step : Load σ α} {state reached : LoadState σ} {a : α}
    (h : step.outcome state = (.ok a, reached)) (next : α → Load σ β) :
    (step >>= next).outcome state = (next a).outcome reached := by
  rw [outcome_bind, h]

theorem outcome_bind_of_error {step : Load σ α} {state reached : LoadState σ}
    {violation : Violation} (h : step.outcome state = (.error violation, reached))
    (next : α → Load σ β) :
    (step >>= next).outcome state = (.error violation, reached) := by
  rw [outcome_bind, h]

/-! ## Reports -/

def report (mode : StrictMode) : List Diagnostic → Load σ Unit
  | [] => pure ()
  | d :: rest => do
      tolerate mode d.code d.path d.message
      report mode rest

theorem report_append (mode : StrictMode) (first second : List Diagnostic) :
    (report mode (first ++ second) : Load σ Unit) =
      (report mode first >>= fun _ => report mode second) := by
  induction first with
  | nil => simp [report]
  | cons d rest ih => simp [report, ih]

theorem report_singleton (mode : StrictMode) (d : Diagnostic) :
    (report mode [d] : Load σ Unit) = tolerate mode d.code d.path d.message := by
  simp [report]

/-- The mode lets a list of problems pass. -/
def Tolerates (mode : StrictMode) (problems : List Diagnostic) : Prop :=
  mode = .warn ∨ problems = []

theorem tolerates_append {mode : StrictMode} {first second : List Diagnostic} :
    Tolerates mode (first ++ second) ↔ Tolerates mode first ∧ Tolerates mode second := by
  simp only [Tolerates, List.append_eq_nil_iff, or_and_left]

theorem eq_strict_of_not_tolerates {mode : StrictMode} {problems : List Diagnostic}
    (h : ¬Tolerates mode problems) :
    mode = .strict ∧ ∃ d rest, problems = d :: rest := by
  obtain ⟨hmode, hproblems⟩ := not_or.mp h
  constructor
  · cases mode with
    | strict => rfl
    | warn => exact absurd rfl hmode
  · exact List.exists_cons_of_ne_nil hproblems

theorem outcome_report_of_tolerates {mode : StrictMode} {problems : List Diagnostic}
    (h : Tolerates mode problems) (state : LoadState σ) :
    (report mode problems : Load σ Unit).outcome state = (.ok (), after state problems) := by
  induction problems generalizing state with
  | nil => simp [report]
  | cons d rest ih =>
      rcases h with rfl | hnil
      · have hfirst : (tolerate .warn d.code d.path d.message : Load σ Unit).outcome state =
            (.ok (), after state [d]) := rfl
        rw [report, outcome_bind_of_ok hfirst, ih (Or.inl rfl), after_after]
        rfl
      · cases hnil

/-- In strict mode the first problem refuses. -/
theorem outcome_report_strict (d : Diagnostic) (rest : List Diagnostic) (state : LoadState σ) :
    (report .strict (d :: rest) : Load σ Unit).outcome state =
      (.error (.intolerable d.path d.message), state) :=
  outcome_bind_of_error rfl _

end Load

/-! ## The step of one record -/

namespace FieldRecord

open Load

variable {σ : Type}

theorem ofSpan?_eq_some_clamp {span : Int} (h : 1 ≤ span ∧ span ≤ 3) :
    Columns.ofSpan? span = some (Columns.clamp span) := by
  obtain rfl | rfl | rfl : span = 1 ∨ span = 2 ∨ span = 3 := by omega
  all_goals rfl

theorem ofSpan?_eq_none {span : Int} (h : ¬(1 ≤ span ∧ span ≤ 3)) :
    Columns.ofSpan? span = none := by
  unfold Columns.ofSpan?
  rw [if_neg (by omega), if_neg (by omega), if_neg (by omega)]

/-- The check of the name reports its problem or does nothing. -/
theorem report_nameProblems_bind (record : FieldRecord) (path : String) (mode : StrictMode)
    (next : Load σ FieldSchema) :
    (report mode (record.nameProblems path) >>= fun _ => next) =
      if (!isIdentifierName record.name) = true then do
        tolerate mode .nonIdentifierName (path ++ ".name")
          ("Field name '" ++ record.name ++ "' is not a plain identifier")
        next
      else next := by
  unfold nameProblems
  cases isIdentifierName record.name with
  | true => exact pure_bind () _
  | false =>
      rw [if_neg Bool.false_ne_true, report_singleton]
      rfl

/-- The check of the options reports its problem or does nothing. -/
theorem report_optionsProblems_bind (record : FieldRecord) (path : String) (mode : StrictMode)
    (next : Load σ FieldSchema) :
    (report mode (record.optionsProblems path) >>= fun _ => next) =
      if (decide (record.type = .select) && record.options.isEmpty) = true then do
        tolerate mode .emptyOptions (path ++ ".options")
          ("Select field '" ++ record.name ++ "' has no options")
        next
      else next := by
  unfold optionsProblems
  by_cases hempty : record.type = .select ∧ record.options = []
  · rw [if_pos hempty, report_singleton, if_pos (by simp [hempty])]
  · rw [if_neg hempty, if_neg (by simpa using hempty)]
    exact pure_bind () _

theorem loadColumns_eq (record : FieldRecord) (path : String) (mode : StrictMode) :
    (record.loadColumns path mode : Load σ Columns) =
      (report mode (record.columnsProblems path) >>= fun _ => pure record.settledColumns) := by
  unfold loadColumns columnsProblems settledColumns
  cases record.columns with
  | none => simp [report]
  | some span =>
      by_cases hspan : 1 ≤ span ∧ span ≤ 3
      · simp [ofSpan?_eq_some_clamp hspan, hspan, report]
      · simp [ofSpan?_eq_none hspan, hspan, report]

variable [IdSource σ]

/-- What is done with a record whose problems are reported. -/
def settle (record : FieldRecord) (path : String) : Load σ FieldSchema :=
  match record.conditions.findIdx? fun c => c.field == record.name with
  | some index =>
      refuse (.selfCondition (itemPath (path ++ ".conditions") index ++ ".field") record.name)
  | none => finish (record.draft record.settledColumns)

theorem outcome_toField_of_blank {record : FieldRecord} (h : record.HasBlankName) (path : String)
    (mode : StrictMode) (state : LoadState σ) :
    (record.toField path mode).outcome state = (.error (.blankName (path ++ ".name")), state) := by
  unfold toField
  rw [if_pos (record.hasBlankName_iff.mp h)]
  exact outcome_bind_of_error (outcome_refuse _ state) _

theorem toField_eq_of_not_blank {record : FieldRecord} (h : ¬record.HasBlankName) (path : String)
    (mode : StrictMode) :
    (record.toField path mode : Load σ FieldSchema) =
      (report mode (record.problems path) >>= fun _ => record.settle path) := by
  unfold toField problems
  rw [if_neg (fun hblank => h (record.hasBlankName_iff.mpr hblank))]
  simp only [loadColumns_eq, report_append, bind_assoc, pure_bind, report_nameProblems_bind,
    report_optionsProblems_bind]
  rfl

theorem outcome_settle_of_selfConditioned {record : FieldRecord} (h : record.IsSelfConditioned)
    (path : String) (state : LoadState σ) :
    ∃ index, IsLeast {k | record.ConditionedAt k} index ∧
      (record.settle path).outcome state =
        (.error (.selfCondition (itemPath (path ++ ".conditions") index ++ ".field") record.name),
          state) := by
  cases hfind : record.conditions.findIdx? fun c => c.field == record.name with
  | none => exact absurd h (record.findIdx?_eq_none_iff_not_selfConditioned.mp hfind)
  | some index =>
      refine ⟨index, isLeast_of_findIdx? hfind, ?_⟩
      simp only [settle, hfind, outcome_refuse]

theorem violation?_draft {record : FieldRecord} (hname : ¬record.HasBlankName)
    (hself : ¬record.IsSelfConditioned) (columns : Columns) :
    (record.draft columns).violation? = none := by
  have hblank : Text.allBlank (record.draft columns).name = false :=
    Bool.eq_false_iff.mpr fun hblank => hname (record.hasBlankName_iff.mpr hblank)
  have hfind : ((record.draft columns).conditions.findIdx? fun c =>
      c.field == (record.draft columns).name) = none := by
    refine Eq.trans List.findIdx?_map ?_
    exact record.findIdx?_eq_none_iff_not_selfConditioned.mpr hself
  unfold FieldDraft.violation?
  rw [hblank, hfind]
  rfl

theorem outcome_finish {draft : FieldDraft} {field : FieldSchema} {state : LoadState σ} {ids : σ}
    (h : draft.build state.ids = (.ok field, ids)) :
    (finish draft : Load σ FieldSchema).outcome state = (.ok field, { state with ids }) := by
  have hget : (get : Load σ (LoadState σ)).outcome state = (.ok state, state) := rfl
  have hset : (set { state with ids } : Load σ PUnit).outcome state =
      (.ok ⟨⟩, { state with ids }) := rfl
  rw [finish, outcome_bind_of_ok hget, h]
  exact outcome_bind_of_ok hset _

/-- A record that is not refused gives its field. -/
theorem outcome_settle {record : FieldRecord} (hname : ¬record.HasBlankName)
    (hself : ¬record.IsSelfConditioned) (path : String) (state : LoadState σ) :
    (record.settle path).outcome state =
      (.ok (record.fieldWith (record.takeId state.ids).1),
        { state with ids := (record.takeId state.ids).2 }) := by
  have hbuild : (record.draft record.settledColumns).build state.ids =
      (.ok (record.fieldWith (record.takeId state.ids).1), (record.takeId state.ids).2) := by
    have hid : (record.draft record.settledColumns).id = nonEmpty? record.id := rfl
    unfold FieldDraft.build takeId
    rw [violation?_draft hname hself, hid]
    cases nonEmpty? record.id <;> rfl
  unfold settle
  rw [record.findIdx?_eq_none_iff_not_selfConditioned.mpr hself]
  exact outcome_finish hbuild

/-- What loading a record in a mode that tolerates its problems does. -/
theorem outcome_toField {record : FieldRecord} (hname : ¬record.HasBlankName) {path : String}
    {mode : StrictMode} (hmode : Tolerates mode (record.problems path)) (state : LoadState σ) :
    (record.toField path mode).outcome state =
      (record.settle path).outcome (after state (record.problems path)) := by
  rw [toField_eq_of_not_blank hname, outcome_bind_of_ok (outcome_report_of_tolerates hmode state)]

end FieldRecord

/-! ## The step of a list -/

namespace FormSchema

open Load FieldRecord

variable {σ : Type} [IdSource σ] {mode : StrictMode} {index : Nat} {seen : List String}
  {record : FieldRecord} {rest : List FieldRecord} {state reached : LoadState σ}

theorem outcome_loadFrom_cons_of_error {violation : Violation}
    (h : (record.toField (itemPath "$" index) mode).outcome state = (.error violation, reached)) :
    (loadFrom mode index seen (record :: rest)).outcome state = (.error violation, reached) := by
  unfold loadFrom
  exact outcome_bind_of_error h _

theorem outcome_loadFrom_cons_of_mem {field : FieldSchema}
    (h : (record.toField (itemPath "$" index) mode).outcome state = (.ok field, reached))
    (hname : field.name = record.name) (hseen : record.name ∈ seen) :
    (loadFrom mode index seen (record :: rest)).outcome state =
      (.error (.duplicateName (itemPath "$" index ++ ".name") record.name), reached) := by
  rw [loadFrom, outcome_bind_of_ok h, hname]
  simp only [List.contains_iff_mem.mpr hseen, if_true]
  exact outcome_bind_of_error (outcome_refuse _ reached) _

theorem outcome_loadFrom_cons {field : FieldSchema}
    (h : (record.toField (itemPath "$" index) mode).outcome state = (.ok field, reached))
    (hname : field.name = record.name) (hseen : record.name ∉ seen) :
    (loadFrom mode index seen (record :: rest)).outcome state =
      (((loadFrom mode (index + 1) (record.name :: seen) rest).outcome reached).1.map (field :: ·),
        ((loadFrom mode (index + 1) (record.name :: seen) rest).outcome reached).2) := by
  have hcontains : seen.contains record.name = false := by simpa using hseen
  rw [loadFrom, outcome_bind_of_ok h, hname]
  simp only [hcontains, Bool.false_eq_true, if_false]
  rw [outcome_bind]
  rcases (loadFrom mode (index + 1) (record.name :: seen) rest).outcome reached with ⟨_ | _, _⟩ <;>
    rfl

/-! ## Runs over a list -/

/-- None of the records is refused after records of the given names. -/
def Acceptable : List String → List FieldRecord → Prop
  | _, [] => True
  | seen, record :: rest => ¬record.Offends seen ∧ Acceptable (record.name :: seen) rest

/-- The field was made of the record, with some state of the source. -/
def MadeOf (σ : Type) [IdSource σ] (record : FieldRecord) (field : FieldSchema) : Prop :=
  ∃ ids : σ, field = record.fieldWith (record.takeId ids).1

theorem MadeOf.name_eq {field : FieldSchema} (h : MadeOf σ record field) :
    field.name = record.name := by
  obtain ⟨ids, rfl⟩ := h
  rfl

theorem MadeOf.yields {field : FieldSchema} (h : MadeOf σ record field) : record.Yields field := by
  obtain ⟨ids, rfl⟩ := h
  exact record.yields_takeId ids

/-- What a record was like, told from its outcome. -/
theorem of_toField_eq_ok {path : String} {field : FieldSchema}
    (h : (record.toField path mode).outcome state = (.ok field, reached)) :
    ¬record.HasBlankName ∧ ¬record.IsSelfConditioned ∧ Tolerates mode (record.problems path) ∧
      MadeOf σ record field ∧
      reached.diagnostics = state.diagnostics ++ record.problems path := by
  by_cases hname : record.HasBlankName
  · rw [outcome_toField_of_blank hname] at h
    cases h
  by_cases hmode : Tolerates mode (record.problems path)
  · rw [outcome_toField hname hmode] at h
    by_cases hself : record.IsSelfConditioned
    · obtain ⟨k, -, hk⟩ := outcome_settle_of_selfConditioned hself path
        (after state (record.problems path))
      rw [hk] at h
      cases h
    · rw [outcome_settle hname hself] at h
      cases h
      exact ⟨hname, hself, hmode, ⟨_, rfl⟩, rfl⟩
  · exfalso
    obtain ⟨hstrict, d, others, hproblems⟩ := eq_strict_of_not_tolerates hmode
    rw [toField_eq_of_not_blank hname, hstrict, hproblems,
      outcome_bind_of_error (outcome_report_strict d others state)] at h
    cases h

/-- A record that is not refused, in a mode that tolerates its problems, becomes a field. -/
theorem outcome_toField_eq_ok {path : String} (hrecord : ¬record.Offends seen)
    (hmode : Tolerates mode (record.problems path)) (state : LoadState σ) :
    (record.toField path mode).outcome state =
      (.ok (record.fieldWith (record.takeId state.ids).1),
        ⟨state.diagnostics ++ record.problems path, (record.takeId state.ids).2⟩) := by
  obtain ⟨hname, hself, -⟩ :
      ¬record.HasBlankName ∧ ¬record.IsSelfConditioned ∧ record.name ∉ seen := by
    simpa [Offends] using hrecord
  rw [outcome_toField hname hmode, outcome_settle hname hself]
  rfl

/-- What a list of records that is loaded was like. -/
theorem of_loadFrom_eq_ok {records : List FieldRecord} {fields : List FieldSchema}
    (h : (loadFrom mode index seen records).outcome state = (.ok fields, reached)) :
    Acceptable seen records ∧ Tolerates mode (problemsFrom index records) ∧
      List.Forall₂ (MadeOf σ) records fields ∧
      reached.diagnostics = state.diagnostics ++ problemsFrom index records := by
  induction records generalizing index seen state fields with
  | nil =>
      cases h
      exact ⟨trivial, Or.inr rfl, .nil, by simp [problemsFrom]⟩
  | cons record rest ih =>
      rcases hfield : (record.toField (itemPath "$" index) mode).outcome state with
        ⟨violation | field, between⟩
      · rw [outcome_loadFrom_cons_of_error hfield] at h
        cases h
      obtain ⟨hname, hself, hmode, hmade, hbetween⟩ := of_toField_eq_ok hfield
      by_cases hseen : record.name ∈ seen
      · rw [outcome_loadFrom_cons_of_mem hfield hmade.name_eq hseen] at h
        cases h
      rw [outcome_loadFrom_cons hfield hmade.name_eq hseen] at h
      rcases hothers : (loadFrom mode (index + 1) (record.name :: seen) rest).outcome between with
        ⟨violation | others, last⟩
      · rw [hothers] at h
        cases h
      rw [hothers] at h
      cases h
      obtain ⟨hrest, hmodeRest, hmadeRest, hlast⟩ := ih hothers
      refine ⟨⟨by simp [Offends, hname, hself, hseen], hrest⟩, ?_, .cons hmade hmadeRest, ?_⟩
      · exact tolerates_append.mpr ⟨hmode, hmodeRest⟩
      · rw [problemsFrom, ← List.append_assoc, ← hbetween]
        exact hlast

/-- Records that are not refused are loaded in lenient mode. -/
theorem exists_of_acceptable {records : List FieldRecord} (h : Acceptable seen records)
    {index : Nat} (hmode : Tolerates mode (problemsFrom index records)) (state : LoadState σ) :
    ∃ fields reached, (loadFrom mode index seen records).outcome state = (.ok fields, reached) := by
  induction records generalizing index seen state with
  | nil => exact ⟨[], state, rfl⟩
  | cons record rest ih =>
      obtain ⟨hrecord, hrest⟩ := h
      obtain ⟨hmode, hmodeRest⟩ := tolerates_append.mp hmode
      have hfield := outcome_toField_eq_ok hrecord hmode state
      obtain ⟨fields, reached, hothers⟩ := ih hrest hmodeRest
        ⟨state.diagnostics ++ record.problems (itemPath "$" index), (record.takeId state.ids).2⟩
      have hseen : record.name ∉ seen := fun hmem => hrecord (Or.inr (Or.inr hmem))
      refine ⟨record.fieldWith (record.takeId state.ids).1 :: fields, reached, ?_⟩
      rw [outcome_loadFrom_cons hfield rfl hseen, hothers]
      rfl

/-- A record that is refused ends the loading. -/
theorem outcome_loadFrom_cons_of_offends (rest : List FieldRecord) (hrecord : record.Offends seen)
    (hmode : Tolerates mode (record.metProblems (itemPath "$" index))) (state : LoadState σ) :
    ∃ violation ids, Violates (itemPath "$" index) record violation ∧
      (loadFrom mode index seen (record :: rest)).outcome state =
        (.error violation,
          ⟨state.diagnostics ++ record.metProblems (itemPath "$" index), ids⟩) := by
  by_cases hname : record.HasBlankName
  · refine ⟨_, state.ids, .blankName hname, ?_⟩
    rw [outcome_loadFrom_cons_of_error (outcome_toField_of_blank hname _ mode state), metProblems,
      if_pos hname, List.append_nil]
  rw [metProblems, if_neg hname] at hmode ⊢
  have hfield := outcome_toField hname hmode state
  by_cases hself : record.IsSelfConditioned
  · obtain ⟨k, hk, hsettle⟩ := outcome_settle_of_selfConditioned hself (itemPath "$" index)
      (after state (record.problems (itemPath "$" index)))
    rw [hsettle] at hfield
    exact ⟨_, state.ids, .selfCondition hname hk, outcome_loadFrom_cons_of_error hfield⟩
  · rw [outcome_settle hname hself] at hfield
    have hseen : record.name ∈ seen := by
      rcases hrecord with hblank | hcondition | hmem
      · exact absurd hblank hname
      · exact absurd hcondition hself
      · exact hmem
    exact ⟨_, _, .duplicateName hname hself, outcome_loadFrom_cons_of_mem hfield rfl hseen⟩

/-- The first record that is refused ends the loading, after the problems of the records before it.
The induction is on these records. -/
theorem outcome_loadFrom_of_offends {before : List FieldRecord} (rest : List FieldRecord)
    (hbefore : Acceptable seen before)
    (hrecord : record.Offends (before.map (·.name) ++ seen))
    (hmode : Tolerates mode (problemsFrom index before))
    (hmet : Tolerates mode (record.metProblems (itemPath "$" (index + before.length))))
    (state : LoadState σ) :
    ∃ violation ids, Violates (itemPath "$" (index + before.length)) record violation ∧
      (loadFrom mode index seen (before ++ record :: rest)).outcome state =
        (.error violation,
          ⟨state.diagnostics ++ problemsFrom index before ++
            record.metProblems (itemPath "$" (index + before.length)), ids⟩) := by
  induction before generalizing index seen state with
  | nil =>
      obtain ⟨violation, ids, hviolation, houtcome⟩ :=
        outcome_loadFrom_cons_of_offends rest hrecord hmet state
      exact ⟨violation, ids, hviolation, by simpa [problemsFrom] using houtcome⟩
  | cons first before ih =>
      obtain ⟨hfirst, hbefore⟩ := hbefore
      obtain ⟨hmode, hmodeRest⟩ := tolerates_append.mp hmode
      have hindex : index + (first :: before).length = index + 1 + before.length := by
        simp only [List.length_cons]
        omega
      have hoffends : record.Offends (before.map (·.name) ++ first.name :: seen) :=
        (offends_congr (by simp [or_left_comm])).mp hrecord
      rw [hindex] at hmet ⊢
      obtain ⟨violation, ids, hviolation, houtcome⟩ := ih hbefore hoffends hmodeRest hmet
        ⟨state.diagnostics ++ first.problems (itemPath "$" index), (first.takeId state.ids).2⟩
      have hseen : first.name ∉ seen := fun hmem => hfirst (Or.inr (Or.inr hmem))
      refine ⟨violation, ids, hviolation, ?_⟩
      rw [List.cons_append,
        outcome_loadFrom_cons (outcome_toField_eq_ok hfirst hmode state) rfl hseen, houtcome]
      simp [problemsFrom, Except.map]

/-- Either all records are taken, or one of them is the first to be refused. -/
theorem acceptable_or_exists_offends (seen : List String) (records : List FieldRecord) :
    Acceptable seen records ∨
      ∃ before record rest, records = before ++ record :: rest ∧ Acceptable seen before ∧
        record.Offends (before.map (·.name) ++ seen) := by
  induction records generalizing seen with
  | nil => exact Or.inl trivial
  | cons record rest ih =>
      by_cases hrecord : record.Offends seen
      · exact Or.inr ⟨[], record, rest, rfl, trivial, hrecord⟩
      rcases ih (record.name :: seen) with hrest | ⟨before, other, after, rfl, hbefore, hother⟩
      · exact Or.inl ⟨hrecord, hrest⟩
      · refine Or.inr ⟨record :: before, other, after, rfl, ⟨hrecord, hbefore⟩, ?_⟩
        exact (offends_congr (by simp [or_left_comm])).mp hother

end FormSchema

end FormCompiler
