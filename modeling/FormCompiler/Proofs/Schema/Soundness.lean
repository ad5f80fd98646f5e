import FormCompiler.Design.Basic
import FormCompiler.Extraction.Basic
import FormCompiler.Proofs.Compiled.References
import FormCompiler.Proofs.Record.Storage
import Mathlib.Data.List.Nodup

/-!
# Sound forms

A form is sound when its names differ and say something, no field has a condition on itself, and
every span is in bounds.  There is one check for this, in `FormSchema.ofFields`, and forms also come
into being without it: from records, from designs, from extraction.  The principal result is that
all of them are sound, so that a name leads to its field, before and after compilation.
-/

namespace FormCompiler

/-- What is expected of a form. -/
structure FormSchema.IsSound (form : FormSchema) : Prop where
  distinct : form.names.Nodup
  named : ∀ field ∈ form.fields, Text.trimmed field.name ≠ ""
  unconditioned : ∀ field ∈ form.fields, ∀ c ∈ field.conditions, c.field ≠ field.name
  bounded : ∀ field ∈ form.fields, 1 ≤ field.columns.span ∧ field.columns.span ≤ 3

/-- The ways in which a form comes into being. -/
inductive FormSchema.Obtained : FormSchema → Prop where
  /-- From fields that were built. -/
  | built {fields : List FieldSchema} {form : FormSchema}
      (hfields : ∀ field ∈ fields, field.Built) (h : ofFields fields = .ok form) : Obtained form
  /-- From records, in either mode. -/
  | loaded {σ : Type} [IdSource σ] {records : List FieldRecord} {mode : StrictMode}
      {state reached : LoadState σ} {form : FormSchema}
      (h : (ofRecords records mode).outcome state = (.ok form, reached)) : Obtained form
  /-- From a stored text, in either mode. -/
  | read {σ : Type} [IdSource σ] {stored : String} {records : List FieldRecord}
      {mode : StrictMode} {state reached : LoadState σ} {form : FormSchema}
      (htext : FieldRecord.listOfText stored = .ok records)
      (h : (ofRecords records mode).outcome state = (.ok form, reached)) : Obtained form
  /-- From a design, in either mode. -/
  | restored {σ : Type} [IdSource σ] {design : Design} {mode : StrictMode}
      {state reached : LoadState σ} {form : FormSchema}
      (h : (design.restore mode).outcome state = (.ok form, reached)) : Obtained form
  /-- From a text that assigns names. -/
  | extracted {σ : Type} [IdSource σ] {text : String} {ids : σ} {extraction : Extraction}
      (h : (extract text ids).1 = some extraction) : Obtained extraction.form

/-! ## Fields -/

/-- What is expected of a field by itself. -/
structure FieldSchema.IsSound (field : FieldSchema) : Prop where
  named : Text.trimmed field.name ≠ ""
  unconditioned : ∀ c ∈ field.conditions, c.field ≠ field.name

theorem Columns.span_mem_bounds (columns : Columns) : 1 ≤ columns.span ∧ columns.span ≤ 3 := by
  cases columns <;> decide

theorem FormSchema.isSound_of_fields {form : FormSchema} (hnames : form.names.Nodup)
    (hfields : ∀ field ∈ form.fields, field.IsSound) : form.IsSound where
  distinct := hnames
  named := fun field hfield => (hfields field hfield).named
  unconditioned := fun field hfield => (hfields field hfield).unconditioned
  bounded := fun field _ => field.columns.span_mem_bounds

/-- A draft that passes the check becomes a sound field. -/
theorem FieldDraft.isSound_withId {draft : FieldDraft} (h : draft.violation? = none) (id : String) :
    (draft.withId id).IsSound := by
  obtain ⟨hname, hconditions⟩ := draft.violation?_eq_none_iff.mp h
  refine ⟨fun hempty => ?_, hconditions⟩
  rw [Text.trimmed_eq_empty_iff] at hempty
  exact Bool.false_ne_true (hname.symm.trans hempty)

/-! ## Records -/

namespace FormSchema

open FieldRecord

variable {σ : Type} [IdSource σ]

/-- A record that is not refused becomes a sound field. -/
theorem MadeOf.isSound {record : FieldRecord} {field : FieldSchema} {seen : List String}
    (hmade : MadeOf σ record field) (h : ¬record.Offends seen) : field.IsSound := by
  obtain ⟨ids, rfl⟩ := hmade
  obtain ⟨hname, hself, -⟩ :
      ¬record.HasBlankName ∧ ¬record.IsSelfConditioned ∧ record.name ∉ seen := by
    simpa [Offends] using h
  exact FieldDraft.isSound_withId (violation?_draft hname hself _) _

/-- The records of a list that is loaded were checked one after the other, each against the names
before it. -/
theorem isSound_of_acceptable {records : List FieldRecord} {fields : List FieldSchema}
    {seen : List String} (hmade : List.Forall₂ (MadeOf σ) records fields)
    (h : Acceptable seen records) :
    (fields.map (·.name)).Nodup ∧ (∀ field ∈ fields, field.name ∉ seen) ∧
      ∀ field ∈ fields, field.IsSound := by
  induction hmade generalizing seen with
  | nil => exact ⟨List.nodup_nil, by simp, by simp⟩
  | @cons record field records fields hfield _ ih =>
      obtain ⟨hrecord, hrest⟩ := h
      obtain ⟨hnodup, hnew, hsound⟩ := ih hrest
      have hname : field.name ∉ fields.map (·.name) := by
        intro hmem
        obtain ⟨other, hother, heq⟩ := List.mem_map.mp hmem
        exact hnew other hother (by rw [heq, hfield.name_eq]; exact List.mem_cons_self)
      have hseen : field.name ∉ seen := by
        rw [hfield.name_eq]
        exact fun hmem => hrecord (Or.inr (Or.inr hmem))
      refine ⟨List.nodup_cons.mpr ⟨hname, hnodup⟩, List.forall_mem_cons.mpr ⟨hseen, ?_⟩,
        List.forall_mem_cons.mpr ⟨hfield.isSound hrecord, hsound⟩⟩
      exact fun other hother hmem => hnew other hother (List.mem_cons_of_mem _ hmem)

theorem isSound_of_ofRecords {records : List FieldRecord} {mode : StrictMode}
    {state reached : LoadState σ} {form : FormSchema}
    (h : (ofRecords records mode).outcome state = (.ok form, reached)) : form.IsSound := by
  obtain ⟨hacceptable, -, hmade, -⟩ := of_ofRecords_eq_ok h
  obtain ⟨hnodup, -, hsound⟩ := isSound_of_acceptable hmade hacceptable
  exact isSound_of_fields hnodup hsound

end FormSchema

/-! ## Extraction -/

namespace Extraction

theorem nodup_distinctFrom (seen items : List String) :
    (distinctFrom seen items).Nodup ∧ ∀ item ∈ distinctFrom seen items, item ∉ seen := by
  induction items generalizing seen with
  | nil => exact ⟨List.nodup_nil, by simp [distinctFrom]⟩
  | cons item rest ih =>
      unfold distinctFrom
      split
      · exact ih seen
      · next hitem =>
        obtain ⟨hnodup, hnew⟩ := ih (item :: seen)
        have hseen : item ∉ seen := by simpa using hitem
        refine ⟨List.nodup_cons.mpr ⟨fun hmem => hnew item hmem List.mem_cons_self, hnodup⟩,
          List.forall_mem_cons.mpr ⟨hseen, ?_⟩⟩
        exact fun other hother hmem => hnew other hother (List.mem_cons_of_mem _ hmem)

variable {σ : Type} [IdSource σ]

/-- Stubs are built, so they are sound; some names may give none. -/
theorem isSound_stubs (kind : FieldKind) (items : List String) (ids : σ) :
    (∀ field ∈ (stubs kind items ids).1, field.IsSound) ∧
      ((stubs kind items ids).1.map (·.name)).Sublist items := by
  induction items generalizing ids with
  | nil => exact ⟨by simp [stubs], .slnil⟩
  | cons name rest ih =>
      unfold stubs
      rcases hbuilt : ({ FieldDraft.new name kind with
          id := some (IdSource.next ids).1 } : FieldDraft).build (IdSource.next ids).2 with
        ⟨violation | field, left⟩
      · obtain ⟨hsound, hsublist⟩ := ih left
        simp only [hbuilt]
        exact ⟨hsound, hsublist.cons name⟩
      · obtain ⟨hsound, hsublist⟩ := ih left
        obtain ⟨id, hviolation, rfl⟩ :=
          FieldDraft.exists_withId_of_build (congrArg Prod.fst hbuilt)
        simp only [hbuilt]
        exact ⟨List.forall_mem_cons.mpr ⟨FieldDraft.isSound_withId hviolation id, hsound⟩,
          hsublist.cons_cons name⟩

theorem isSound_of_extract {text : String} {ids : σ} {extraction : Extraction}
    (h : (extract text ids).1 = some extraction) : extraction.form.IsSound := by
  have hnodup : (names text).Nodup := (nodup_distinctFrom _ _).1
  unfold extract at h
  split at h
  · cases h
  · cases h
    obtain ⟨hsound, hsublist⟩ :=
      isSound_stubs (if (widgetsIn text).contains .inputNumber then .number else .input)
        (names text) ids
    exact FormSchema.isSound_of_fields (hsublist.nodup hnodup) hsound

end Extraction

/-! ## All forms -/

namespace FormSchema

theorem Obtained.isSound {form : FormSchema} (h : form.Obtained) : form.IsSound := by
  cases h with
  | built hfields h =>
      obtain ⟨rfl, hnone⟩ := eq_of_ofFields h
      refine isSound_of_fields (nodup_of_duplicate? hnone).1 fun field hfield => ?_
      obtain ⟨draft, id, hviolation, rfl⟩ := (hfields field hfield).exists_draft
      exact FieldDraft.isSound_withId hviolation id
  | loaded h => exact isSound_of_ofRecords h
  | read _ h => exact isSound_of_ofRecords h
  | restored h => exact isSound_of_ofRecords h
  | extracted h => exact Extraction.isSound_of_extract h

/-- Where names differ, the name of a field leads to the field. -/
theorem IsSound.get?_name {form : FormSchema} (h : form.IsSound) {field : FieldSchema}
    (hfield : field ∈ form.fields) : form.get? field.name = some field := by
  obtain ⟨found, hfound⟩ : ∃ found, form.get? field.name = some found :=
    Option.isSome_iff_exists.mp
      (List.find?_isSome.mpr ⟨field, hfield, beq_self_eq_true field.name⟩)
  have hname : found.name = field.name := by simpa using List.find?_some hfound
  rw [hfound, List.inj_on_of_nodup_map h.distinct (List.mem_of_find?_eq_some hfound) hfield hname]

/-- Compilation keeps the places of the fields. -/
theorem get?_compile (form : FormSchema) (name : String) :
    form.compile.get? name = (form.get? name).map FieldSchema.compile :=
  List.find?_map ..

/-- Every form is sound, however it came into being, and the name of a field leads to this field
and, once the form is compiled, to its compilation. -/
theorem Obtained.isSound_and_get? {form : FormSchema} (h : form.Obtained) :
    form.IsSound ∧ ∀ field ∈ form.fields,
      form.get? field.name = some field ∧
        form.compile.get? field.name = some field.compile := by
  refine ⟨h.isSound, fun field hfield => ?_⟩
  have hget := h.isSound.get?_name hfield
  exact ⟨hget, by rw [get?_compile, hget]; rfl⟩

/-- A text that assigns a name twice, in different ways, and another one between. -/
def repeatedNames : String := "name=\"zip-code\" name='city' name = \x7b \"zip-code\" \x7d"

theorem isSound_and_get?_repeatedNames :
    ∃ extraction : Extraction,
      (extract repeatedNames (SequentialIds.ofStem "stub")).1 = some extraction ∧
        extraction.form.names = ["zip-code", "city"] ∧
        extraction.form.Obtained ∧
        extraction.form.IsSound ∧ ∀ field ∈ extraction.form.fields,
          extraction.form.get? field.name = some field ∧
            extraction.form.compile.get? field.name = some field.compile := by
  have hform : (extract repeatedNames (SequentialIds.ofStem "stub")).1.map (·.form) =
      some ⟨[(FieldDraft.new "zip-code" .input).withId "stub-1",
        (FieldDraft.new "city" .input).withId "stub-2"]⟩ := by
    decide +kernel
  obtain ⟨extraction, hextract, hfields⟩ := Option.map_eq_some_iff.mp hform
  have hobtained : extraction.form.Obtained := .extracted hextract
  exact ⟨extraction, hextract, by rw [hfields]; rfl, hobtained, hobtained.isSound_and_get?⟩

end FormSchema

end FormCompiler
