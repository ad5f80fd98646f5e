import FormCompiler.Design.Basic
import FormCompiler.Proofs.Compiled.References
import FormCompiler.Proofs.Record.Storage
import FormCompiler.Proofs.Source.Injectivity

/-!
# Restoring a design

The form that a design restores need not be the form it was taken of: empty texts become absent,
an empty identifier is replaced, and a field that is no select field loses what was stored as its
options.  The principal result is that none of this shows in the source: lenient restoring takes
the snapshot of every form that could be built, and what is generated for the restored form is, to
the character, what is generated for the form itself.
-/

namespace FormCompiler

/-! ## Rules that are compiled alike -/

namespace ValidationChain

/-- A text that counts as absent when it is loaded says nothing when it is compiled either. -/
theorem given_nonEmpty? (text : Option String) : given (nonEmpty? text) = given text := by
  simp [given, nonEmpty?, Option.filter_filter]

/-- The empty text that is stored for an absent one says as little. -/
theorem given_getD (text : Option String) : given (some (text.getD "")) = given text := by
  cases text with
  | none => rfl
  | some t => rfl

/-- Compilation looks at the bounds of a rule and at those of its texts that say something. -/
theorem clausesOf_congr {rule rule' : ValidationRule} (hrequired : rule.required = rule'.required)
    (hmin : rule.min = rule'.min) (hmax : rule.max = rule'.max)
    (hpattern : given rule.pattern = given rule'.pattern)
    (hmessage : given rule.customMessage = given rule'.customMessage)
    (hcross : given rule.crossField = given rule'.crossField) :
    clausesOf rule = clausesOf rule' := by
  unfold clausesOf
  rw [hrequired, hmin, hmax, hpattern, hmessage, hcross]

/-- A rule that went through a record is compiled as before. -/
theorem clausesOf_toRecord (field : FieldSchema) :
    clausesOf field.toRecord.validation.rule = clausesOf field.validation := by
  have hcross : (field.validation.crossField.map CrossFieldRecord.reference).map
      CrossFieldRecord.field = field.validation.crossField := by
    rw [Option.map_map]
    exact Option.map_id'
  refine clausesOf_congr rfl rfl rfl ?_ ?_ ?_
  · exact (given_nonEmpty? _).trans (given_getD _)
  · exact (given_nonEmpty? _).trans (given_getD _)
  · exact (given_nonEmpty? _).trans (congrArg given hcross)

end ValidationChain

/-! ## Forms that can be built are loaded again -/

namespace FieldSchema

variable {field : FieldSchema}

/-- The record of a field that was built is refused only for the name of an earlier one. -/
theorem Built.not_offends_toRecord (h : field.Built) {seen : List String}
    (hseen : field.name ∉ seen) : ¬field.toRecord.Offends seen := by
  obtain ⟨draft, id, hviolation, rfl⟩ := h.exists_draft
  obtain ⟨hname, hconditions⟩ := draft.violation?_eq_none_iff.mp hviolation
  rintro (hblank | hself | hmem)
  · rw [FieldRecord.hasBlankName_iff] at hblank
    exact Bool.false_ne_true (hname.symm.trans hblank)
  · obtain ⟨stored, hstored, heq⟩ := hself
    obtain ⟨c, hc, rfl⟩ := List.mem_map.mp hstored
    exact hconditions c hc heq
  · exact hseen hmem

end FieldSchema

namespace FormSchema

open Load FieldSchema

/-- The induction is on the fields, with the names of those before. -/
theorem acceptable_of_duplicate? {fields : List FieldSchema}
    (hfields : ∀ field ∈ fields, field.Built) {index : Nat} {seen : List String}
    (h : duplicate? index seen fields = none) : Acceptable seen (fields.map toRecord) := by
  induction fields generalizing index seen with
  | nil => trivial
  | cons field rest ih =>
      obtain ⟨hfield, hrest⟩ := List.forall_mem_cons.mp hfields
      unfold duplicate? at h
      split at h
      · cases h
      · next hseen =>
        have hname : field.name ∉ seen := by simpa using hseen
        exact ⟨hfield.not_offends_toRecord hname, ih hrest h⟩

theorem Built.acceptable {form : FormSchema} (h : form.Built) : Acceptable [] form.toRecords := by
  have hform := h.form
  unfold ofFields at hform
  split at hform
  · cases hform
  · next hnone => exact acceptable_of_duplicate? h.fields hnone

end FormSchema

/-! ## The restored form -/

namespace FieldSchema

open FormSchema

/-- What a record keeps of a field is all that is compiled and written. -/
theorem alike_fieldWith_toRecord (field : FieldSchema) (id : String) :
    (field.toRecord.fieldWith id).compile.Alike field.compile := by
  have hkind : (field.toRecord.fieldWith id).kind = field.kind := ofType_toRecord field
  have hvalidation : (field.toRecord.fieldWith id).compile.validation =
      field.compile.validation := by
    change ValidationChain.compile (field.toRecord.fieldWith id).kind.type
      field.toRecord.validation.rule = _
    rw [hkind, ValidationChain.compile, ValidationChain.clausesOf_toRecord]
    rfl
  have hvisibility : (field.toRecord.fieldWith id).compile.visibility =
      field.compile.visibility :=
    congrArg Visibility.compile (conditions_toRecord field)
  refine ⟨rfl, rfl, hkind, ?_, ?_⟩
  · rw [hvalidation]
    exact .refl _
  · rw [hvisibility]
    exact .refl _

variable {σ : Type} [IdSource σ]

theorem alike_of_madeOf {fields restored : List FieldSchema}
    (h : List.Forall₂ (MadeOf σ) (fields.map toRecord) restored) :
    List.Forall₂ CompiledField.Alike (restored.map compile) (fields.map compile) := by
  rw [List.forall₂_map_left_iff] at h
  rw [List.forall₂_map_left_iff, List.forall₂_map_right_iff]
  refine h.flip.imp ?_
  rintro again field ⟨ids, rfl⟩
  exact alike_fieldWith_toRecord field _

end FieldSchema

namespace Design

open Load FormSchema

variable {σ τ : Type} [IdSource σ] [IdSource τ]

/-- Lenient restoring takes every snapshot of a form that could be built, and the restored form
generates the same source as the form. -/
theorem generate_restore_snapshot {form : FormSchema} (hform : form.Built) (name : Option String)
    (createdAt : Instant) (ids : σ) (state : LoadState τ) {config : EmitterConfig}
    (hconfig : config.problem? = none) :
    ∃ restored reached,
      ((snapshot name form createdAt ids).1.restore .warn).outcome state =
        (.ok restored, reached) ∧
      ∃ source found found', form.generate config = .ok (source, found) ∧
        restored.generate config = .ok (source, found') := by
  have hmode : Tolerates .warn (FieldRecord.problemsFrom 0 form.toRecords) := Or.inl rfl
  obtain ⟨fields, reached, hfields⟩ := exists_of_acceptable hform.acceptable hmode state
  obtain ⟨-, -, hmade, -⟩ := of_loadFrom_eq_ok hfields
  have hrestored : ((snapshot name form createdAt ids).1.restore .warn).outcome state =
      (.ok ⟨fields⟩, reached) := by
    change (ofRecords form.toRecords .warn).outcome state = _
    rw [outcome_ofRecords, hfields]
    rfl
  have hsource : (FormSchema.mk fields).compile.source config = form.compile.source config :=
    Source.source_eq_of_alike (FieldSchema.alike_of_madeOf hmade) config
  refine ⟨⟨fields⟩, reached, hrestored, form.compile.source config, form.compile.diagnostics,
    (FormSchema.mk fields).compile.diagnostics, generate_eq_ok form hconfig, ?_⟩
  rw [generate_eq_ok _ hconfig, hsource]

/-- The draft of a field in which every text that can be empty is, with a bound that is no
number. -/
def hollowDraft : FieldDraft :=
  { FieldDraft.new "a b" .number with
    id := some "", label := some "", group := some "",
    validation := ⟨true, some .undefined, some (.infinity true), some "", some "", some ""⟩,
    conditions := [⟨.or, "", .greater, ""⟩] }

def hollowForm : FormSchema := ⟨[hollowDraft.withId ""]⟩

theorem generate_restore_snapshot_hollowForm :
    hollowForm.Built ∧ EmitterConfig.defaults.problem? = none ∧
      ∃ restored reached,
        ((snapshot (some " ") hollowForm ⟨0, 0⟩ (SequentialIds.ofStem "design")).1.restore
            .warn).outcome ⟨[], SequentialIds.ofStem "field"⟩ = (.ok restored, reached) ∧
        ∃ source found found', hollowForm.generate .defaults = .ok (source, found) ∧
          restored.generate .defaults = .ok (source, found') := by
  have hbuilt : hollowForm.Built := by
    refine ⟨?_, rfl⟩
    intro field hfield
    rw [List.mem_singleton.mp hfield]
    exact ⟨hollowDraft, ⟨fun _ => "", 0⟩, rfl⟩
  have hconfig : EmitterConfig.defaults.problem? = none := by decide
  exact ⟨hbuilt, hconfig, generate_restore_snapshot hbuilt (some " ") ⟨0, 0⟩
    (SequentialIds.ofStem "design") ⟨[], SequentialIds.ofStem "field"⟩ hconfig⟩

end Design

end FormCompiler
