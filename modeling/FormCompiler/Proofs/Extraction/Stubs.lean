import FormCompiler.Proofs.Extraction.Occurrences
import FormCompiler.Proofs.Extraction.RoundTrip

/-!
# Stubs and their identifiers

A scanned name is never blank, so no stub is refused, and every stub takes one identifier.  The
principal result is about texts that are extracted one after another with one source: a text
without names takes nothing from the source, any other gives a stub for each of its names, and over
all texts the stubs are numbered from one on.
-/

namespace FormCompiler

/-! ## Taking identifiers -/

namespace IdSource

variable {σ : Type} [IdSource σ]

theorem length_take (count : Nat) (ids : σ) : (take count ids).1.length = count := by
  induction count generalizing ids with
  | zero => rfl
  | succ count ih => simp [take, ih]

/-- What is taken in two portions is taken in one. -/
theorem take_add (first second : Nat) (ids : σ) :
    take (first + second) ids =
      ((take first ids).1 ++ (take second (take first ids).2).1,
        (take second (take first ids).2).2) := by
  induction first generalizing ids with
  | zero => simp [take]
  | succ first ih =>
      rw [Nat.succ_add]
      simp only [take, ih, List.cons_append]

end IdSource

namespace SequentialIds

def numbered (stem : String) (number : Nat) : String := stem ++ "-" ++ Text.decimal number

theorem numbered_injective (stem : String) : Function.Injective (numbered stem) := by
  intro first second h
  refine Text.decimal_injective ?_
  simpa [numbered] using h

/-- As long as the word does not overflow, the identifiers are those of the next numbers. -/
theorem take_eq_numbered (stem : String) (count : Nat) {upcoming : UInt64}
    (h : upcoming.toNat + count ≤ 2 ^ 64) :
    (IdSource.take count (⟨stem, upcoming⟩ : SequentialIds)).1 =
      (List.range' upcoming.toNat count).map (numbered stem) := by
  induction count generalizing upcoming with
  | zero => rfl
  | succ count ih =>
      rw [List.range'_succ, List.map_cons]
      cases count with
      | zero => rfl
      | succ count =>
          have hnext : (upcoming + 1).toNat = upcoming.toNat + 1 := by
            rw [UInt64.toNat_add]
            exact Nat.mod_eq_of_lt (by simp; omega)
          have hrest := @ih (upcoming + 1) (by omega)
          rw [hnext] at hrest
          rw [← hrest]
          rfl

end SequentialIds

namespace Extraction

variable {σ : Type} [IdSource σ]

/-! ## The stubs of one text -/

theorem isIdentifierName_of_mem_names {text name : String} (h : name ∈ names text) :
    isIdentifierName name = true := by
  obtain ⟨_, _, _, _, _, _, hassignment⟩ := mem_names.mp h
  have hname := hassignment.isIdentifier
  simpa [isIdentifierName, hname.ne_nil] using hname.holds

def stub (kind : FieldKind) (name id : String) : FieldSchema := (FieldDraft.new name kind).withId id

/-- The kind of the stubs of a text: numbers, where the text in lower case names the widget. -/
def kindIn (text : String) : FieldKind :=
  if Text.occurs "inputnumber".toList (Text.lower text.toList) then .number else .input

theorem contains_widgetsIn (text : String) :
    (widgetsIn text).contains .inputNumber =
      Text.occurs "inputnumber".toList (Text.lower text.toList) := by
  have htag : Text.lower WidgetTag.inputNumber.name.toList = "inputnumber".toList := by decide
  rw [Bool.eq_iff_iff, List.contains_iff_mem]
  simp [widgetsIn, WidgetTag.all, WidgetTag.mentioned, htag]

/-- No identifier name is refused: each gives a stub, with the next identifier. -/
theorem stubs_eq_zipWith (kind : FieldKind) {items : List String}
    (h : ∀ name ∈ items, isIdentifierName name = true) (ids : σ) :
    stubs kind items ids =
      (List.zipWith (stub kind) items (IdSource.take items.length ids).1,
        (IdSource.take items.length ids).2) := by
  induction items generalizing ids with
  | nil => rfl
  | cons name rest ih =>
      have hname := violation?_new (h name List.mem_cons_self) kind (IdSource.next ids).1
      have hrest := ih (fun other hmem => h other (List.mem_cons_of_mem _ hmem))
        (IdSource.next ids).2
      have hbuild : ({ FieldDraft.new name kind with
          id := some (IdSource.next ids).1 } : FieldDraft).build (IdSource.next ids).2 =
            (.ok (stub kind name (IdSource.next ids).1), (IdSource.next ids).2) := by
        unfold FieldDraft.build
        rw [hname]
        rfl
      simp only [stubs, hbuild, hrest]
      rfl

/-- What is extracted from a text, name by name. -/
theorem extract_eq (text : String) (ids : σ) :
    extract text ids =
      (if names text = [] then none
        else some ⟨⟨List.zipWith (stub (kindIn text)) (names text)
          (IdSource.take (names text).length ids).1⟩, widgetsIn text,
            (widgetsIn text).contains .inputNumber⟩,
        (IdSource.take (names text).length ids).2) := by
  have hkind : (if (widgetsIn text).contains .inputNumber then FieldKind.number else .input) =
      kindIn text := by
    rw [contains_widgetsIn]
    rfl
  have hnames : ∀ name ∈ names text, isIdentifierName name = true := fun name =>
    isIdentifierName_of_mem_names
  unfold extract
  cases hitems : names text with
  | nil => rfl
  | cons name rest =>
      rw [hitems] at hnames
      simp only [hkind, stubs_eq_zipWith (kindIn text) hnames ids, List.cons_ne_nil, if_false]

/-! ## Texts one after another -/

/-- A text that is extracted, with the source before it, what is found, and the source that is
left. -/
structure Call (σ : Type) where
  text : String
  before : σ
  found : Option Extraction
  after : σ

/-- Extraction from texts one after another, each with the source that the one before it left. -/
def calls : List String → σ → List (Call σ)
  | [], _ => []
  | text :: rest, ids =>
      let (found, left) := extract text ids
      ⟨text, ids, found, left⟩ :: calls rest left

namespace Call

def ids (call : Call σ) : List String :=
  (call.found.map fun extraction => extraction.form.fields.map (·.id)).getD []

/-- Nothing is found, and nothing taken from the source, exactly if the text has no names; else
there is one stub for each name, in order, and all are of one kind. -/
structure IsFaithful (call : Call σ) : Prop where
  nothing_iff : call.found = none ↔ names call.text = []
  untouched : call.found = none → call.after = call.before
  names_eq : ∀ extraction ∈ call.found, extraction.form.names = names call.text
  kind_eq : ∀ extraction ∈ call.found, ∀ field ∈ extraction.form.fields,
    field.kind = kindIn call.text

end Call

theorem map_zipWith_stub (kind : FieldKind) {items drawn : List String}
    (h : drawn.length = items.length) :
    (List.zipWith (stub kind) items drawn).map (·.name) = items ∧
      (List.zipWith (stub kind) items drawn).map (·.id) = drawn ∧
      ∀ field ∈ List.zipWith (stub kind) items drawn, field.kind = kind := by
  induction items generalizing drawn with
  | nil => simp_all
  | cons name rest ih =>
      cases drawn with
      | nil => simp at h
      | cons id others =>
          obtain ⟨hnames, hids, hkinds⟩ := ih (Nat.succ.inj h)
          simp only [List.zipWith_cons_cons, List.map_cons, hnames, hids, List.mem_cons,
            forall_eq_or_imp]
          exact ⟨rfl, rfl, rfl, hkinds⟩

theorem isFaithful_extract (text : String) (ids : σ) :
    Call.IsFaithful ⟨text, ids, (extract text ids).1, (extract text ids).2⟩ := by
  obtain ⟨hnames, -, hkinds⟩ := map_zipWith_stub (kindIn text)
    (IdSource.length_take (names text).length ids)
  rw [extract_eq]
  constructor
  · simp
  · intro hnone
    have hempty : names text = [] := by simpa using hnone
    simp only [hempty]
    rfl
  · intro extraction hfound
    obtain ⟨-, heq⟩ := Option.ite_none_left_eq_some.mp hfound
    cases heq
    exact hnames
  · intro extraction hfound
    obtain ⟨-, heq⟩ := Option.ite_none_left_eq_some.mp hfound
    cases heq
    exact hkinds

theorem ids_extract (text : String) (ids : σ) :
    Call.ids ⟨text, ids, (extract text ids).1, (extract text ids).2⟩ =
      (IdSource.take (names text).length ids).1 := by
  obtain ⟨-, hids, -⟩ := map_zipWith_stub (kindIn text)
    (IdSource.length_take (names text).length ids)
  rw [extract_eq]
  by_cases hempty : names text = []
  · simp [Call.ids, hempty, IdSource.take]
  · simpa [Call.ids, hempty] using hids

theorem isFaithful_of_mem_calls (texts : List String) (ids : σ) :
    ∀ call ∈ calls texts ids, call.IsFaithful := by
  induction texts generalizing ids with
  | nil => simp [calls]
  | cons text rest ih =>
      exact List.forall_mem_cons.mpr ⟨isFaithful_extract text ids, ih _⟩

/-- Over all texts the stubs take the next identifiers of the source, one after the other. -/
theorem ids_calls (texts : List String) (ids : σ) :
    (calls texts ids).flatMap Call.ids =
      (IdSource.take (texts.flatMap names).length ids).1 := by
  induction texts generalizing ids with
  | nil => rfl
  | cons text rest ih =>
      have hleft : (extract text ids).2 = (IdSource.take (names text).length ids).2 := by
        rw [extract_eq]
      rw [List.flatMap_cons, List.length_append, IdSource.take_add, ← hleft, ← ih, calls,
        List.flatMap_cons, ids_extract]

/-- No scanned name is lost and no identifier is used twice: each text gives a stub for each of its
names or, without names, leaves the source as it is, and over all texts the stubs are numbered from
one on. -/
theorem calls_ofStem (stem : String) (texts : List String)
    (h : (texts.flatMap names).length < 2 ^ 64) :
    (∀ call ∈ calls texts (SequentialIds.ofStem stem), call.IsFaithful) ∧
      (calls texts (SequentialIds.ofStem stem)).flatMap Call.ids =
        (List.range' 1 (texts.flatMap names).length).map (SequentialIds.numbered stem) ∧
      ((calls texts (SequentialIds.ofStem stem)).flatMap Call.ids).Nodup := by
  have hids : (calls texts (SequentialIds.ofStem stem)).flatMap Call.ids =
      (List.range' 1 (texts.flatMap names).length).map (SequentialIds.numbered stem) := by
    have hbound : (1 : UInt64).toNat + (texts.flatMap names).length ≤ 2 ^ 64 := by
      rw [UInt64.toNat_one]
      omega
    rw [ids_calls]
    exact SequentialIds.take_eq_numbered stem _ hbound
  refine ⟨isFaithful_of_mem_calls texts _, hids, ?_⟩
  rw [hids]
  exact List.Nodup.map (SequentialIds.numbered_injective stem) List.nodup_range'

/-- Texts of which the first one mentions the numeric widget and assigns a name twice, and the
second one assigns nothing. -/
def pastedTexts : List String :=
  ["<InputNumber name=\"age\" /> name = \x7b \"zip-code\" \x7d name='age'",
    "name=\"\" name='bad name'", "<Input username='login'>"]

/-- The second text takes no identifier, so the third one gets the third. -/
theorem calls_ofStem_pastedTexts :
    (pastedTexts.flatMap names).length < 2 ^ 64 ∧
      (∀ call ∈ calls pastedTexts (SequentialIds.ofStem "stub"), call.IsFaithful) ∧
      (calls pastedTexts (SequentialIds.ofStem "stub")).flatMap Call.ids =
        ["stub-1", "stub-2", "stub-3"] := by
  have hnames : pastedTexts.flatMap names = ["age", "zip-code", "login"] := by decide
  have hbound : (pastedTexts.flatMap names).length < 2 ^ 64 := by
    rw [hnames]
    decide
  obtain ⟨hfaithful, hids, -⟩ := calls_ofStem "stub" pastedTexts hbound
  rw [hnames] at hids
  exact ⟨hbound, hfaithful, hids.trans (by decide)⟩

end Extraction

end FormCompiler
