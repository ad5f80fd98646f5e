import FormCompiler.Compiled.Form
import FormCompiler.Proofs.Schema.Drafts
import Mathlib.Algebra.Order.BigOperators.Group.List
import Mathlib.Algebra.Order.Ring.Nat

/-!
# References to fields that do not exist

A compiled form refers to fields in its visibility expressions and in its chains.  Compilation is
to report the references to fields that the form does not have.  The principal result says when it
does: the reports are those references, in order, exactly when no rule compares with the empty
name, for such a rule is reported and yet compiled to no clause.
-/

namespace FormCompiler

/-! ## What compiled expressions refer to -/

theorem predicates_extend (expr : BoolExpr) (rest : List Condition) :
    (expr.extend rest).predicates = expr.predicates ++ rest.map Condition.predicate := by
  induction rest generalizing expr with
  | nil => simp [BoolExpr.extend]
  | cons c rest ih =>
      change ((BoolExpr.combine expr c.logic (.predicate c.predicate)).extend rest).predicates = _
      rw [ih]
      simp [BoolExpr.predicates]

/-- The compiled visibility reads the fields of the conditions, in order. -/
theorem referencedFields_compile (conditions : List Condition) :
    (Visibility.compile conditions).referencedFields = conditions.map (·.field) := by
  cases conditions with
  | nil => rfl
  | cons first rest =>
      change ((BoolExpr.predicate first.predicate).extend rest).predicates.map (·.field) = _
      rw [predicates_extend]
      simp [BoolExpr.predicates, Function.comp_def, Condition.predicate]

/-- The compiled chain compares with the field of the rule, unless its name is empty. -/
theorem crossField?_compile (type : FieldType) (rule : ValidationRule) :
    (ValidationChain.compile type rule).crossField? = ValidationChain.given rule.crossField := by
  change (ValidationChain.clausesOf rule).findSome? (·.other?) = _
  unfold ValidationChain.clausesOf
  simp only [List.findSome?_append]
  have hother : ((ValidationChain.given rule.crossField).toList.map fun other =>
      RuleClause.crossField other ValidationChain.crossFieldMessage).findSome? (·.other?) =
        ValidationChain.given rule.crossField := by
    cases ValidationChain.given rule.crossField <;> rfl
  rw [hother]
  cases rule.required <;> cases rule.min <;> cases rule.max <;>
    cases ValidationChain.given rule.pattern <;> simp [RuleClause.other?]

/-! ## Broken references of a compiled form -/

namespace CompiledField

def readReport (place : String) (c : CompiledField) (read : String × Nat) : Diagnostic :=
  ⟨.danglingReference, itemPath (place ++ ".conditions") read.2 ++ ".field",
    "Condition on '" ++ c.field.name ++ "' references unknown field '" ++ read.1 ++ "'"⟩

def crossReport (place : String) (c : CompiledField) (other : String) : Diagnostic :=
  ⟨.danglingReference, place ++ ".validation.crossField",
    "Cross-field rule on '" ++ c.field.name ++ "' references unknown field '" ++ other ++ "'"⟩

/-- One report for each field that the visibility reads and that has none of the names. -/
def brokenReads (names : List String) (place : String) (c : CompiledField) : List Diagnostic :=
  (c.visibility.referencedFields.zipIdx.filter fun read => read.1 ∉ names).map (c.readReport place)

/-- A report if the chain compares with a field that has none of the names. -/
def brokenCross (names : List String) (place : String) (c : CompiledField) : List Diagnostic :=
  (c.validation.crossField?.toList.filter (· ∉ names)).map (c.crossReport place)

/-- The broken references of a field, those of its visibility first. -/
def brokenReferences (names : List String) (place : String) (c : CompiledField) :
    List Diagnostic :=
  c.brokenReads names place ++ c.brokenCross names place

end CompiledField

namespace CompiledForm

def names (form : CompiledForm) : List String := form.fields.map (·.field.name)

def brokenReferences (form : CompiledForm) : List Diagnostic :=
  form.fields.zipIdx.flatMap fun (c, index) => c.brokenReferences form.names (itemPath "$" index)

/-- The references that are reported as dangling. -/
def reportedReferences (form : CompiledForm) : List Diagnostic :=
  form.diagnostics.filter fun d => d.code = .danglingReference

end CompiledForm

/-! ## What is reported -/

namespace FormSchema

theorem contains_iff (form : FormSchema) (name : String) :
    form.contains name = true ↔ name ∈ form.names := by
  unfold contains get? names
  rw [List.find?_isSome, List.mem_map]
  simp

theorem names_compile (form : FormSchema) : form.compile.names = form.names := by
  simp [CompiledForm.names, compile, names, Function.comp_def, FieldSchema.compile]

/-- The induction is on the conditions from an index on. -/
theorem danglingConditions_eq (form : FormSchema) (place : String) (c : CompiledField)
    (index : Nat) (conditions : List Condition) :
    danglingConditions form place c.field.name index conditions =
      (((conditions.map (·.field)).zipIdx index).filter fun read => read.1 ∉ form.names).map
        (c.readReport place) := by
  induction conditions generalizing index with
  | nil => rfl
  | cons condition rest ih =>
      unfold danglingConditions
      rw [ih, List.map_cons, List.zipIdx_cons]
      by_cases hname : condition.field ∈ form.names
      · simp [hname, (form.contains_iff condition.field).mpr hname]
      · have hcontains : form.contains condition.field = false := by
          simpa using fun h => hname ((form.contains_iff _).mp h)
        simp [hname, hcontains, CompiledField.readReport]

theorem code_of_mem_danglingConditions {form : FormSchema} {place name : String} {index : Nat}
    {conditions : List Condition} {d : Diagnostic}
    (h : d ∈ danglingConditions form place name index conditions) :
    d.code = .danglingReference := by
  induction conditions generalizing index with
  | nil => cases h
  | cons c rest ih =>
      rcases List.mem_append.mp h with hfirst | hrest
      · split at hfirst
        · cases hfirst
        · rw [List.mem_singleton.mp hfirst]
      · exact ih hrest

theorem code_of_mem_danglingCrossField {form : FormSchema} {place name : String}
    {other : Option String} {d : Diagnostic}
    (h : d ∈ danglingCrossField form place name other) : d.code = .danglingReference := by
  unfold danglingCrossField at h
  split at h
  · cases h
  · split at h
    · cases h
    · rw [List.mem_singleton.mp h]

theorem code_of_mem_contradictoryBounds {place name : String} {rule : ValidationRule}
    {d : Diagnostic} (h : d ∈ contradictoryBounds place name rule) :
    d.code = .contradictoryBounds := by
  unfold contradictoryBounds at h
  split at h
  · split at h
    · rw [List.mem_singleton.mp h]
    · cases h
  · cases h

theorem code_of_mem_missingOptions {place name : String} {kind : FieldKind} {d : Diagnostic}
    (h : d ∈ missingOptions place name kind) : d.code = .emptyOptions := by
  unfold missingOptions at h
  split at h
  · rw [List.mem_singleton.mp h]
  · cases h

/-- Of the problems of a field, those of its conditions and of its rule are dangling references. -/
theorem filter_check (form : FormSchema) (index : Nat) (field : FieldSchema) :
    (form.check index field).filter (fun d => d.code = .danglingReference) =
      field.compile.brokenReads form.names (itemPath "$" index) ++
        danglingCrossField form (itemPath "$" index) field.name field.validation.crossField := by
  have hconditions := danglingConditions_eq form (itemPath "$" index) field.compile 0
    field.conditions
  unfold check CompiledField.brokenReads
  rw [FieldSchema.compile, referencedFields_compile]
  simp only [List.filter_append]
  rw [List.filter_eq_self.mpr fun d hd => by simp [code_of_mem_danglingConditions hd],
    List.filter_eq_self.mpr fun d hd => by simp [code_of_mem_danglingCrossField hd],
    List.filter_eq_nil_iff.mpr fun d hd => by simp [code_of_mem_contradictoryBounds hd],
    List.filter_eq_nil_iff.mpr fun d hd => by simp [code_of_mem_missingOptions hd],
    List.append_nil, List.append_nil]
  exact congrArg (· ++ _) hconditions

theorem danglingCrossField_eq {form : FormSchema} {field : FieldSchema}
    (h : field.validation.crossField ≠ some "") (place : String) :
    danglingCrossField form place field.name field.validation.crossField =
      field.compile.brokenCross form.names place := by
  unfold CompiledField.brokenCross
  rw [FieldSchema.compile, crossField?_compile]
  cases hother : field.validation.crossField with
  | none => rfl
  | some other =>
      have hgiven : ValidationChain.given (some other) = some other := by
        simpa [ValidationChain.given, hother] using h
      rw [hgiven]
      by_cases hname : other ∈ form.names
      · simp [danglingCrossField, hname, (form.contains_iff other).mpr hname]
      · have hcontains : form.contains other = false := by
          simpa using fun h => hname ((form.contains_iff _).mp h)
        simp [danglingCrossField, hname, hcontains, CompiledField.crossReport]

/-- A rule that compares with the empty name is reported although it compiles to no clause. -/
theorem length_brokenCross_lt {form : FormSchema} {field : FieldSchema}
    (h : field.validation.crossField = some "") (hempty : "" ∉ form.names) (place : String) :
    (field.compile.brokenCross form.names place).length <
      (danglingCrossField form place field.name field.validation.crossField).length := by
  have hcontains : form.contains "" = false := by
    simpa using fun h => hempty ((form.contains_iff _).mp h)
  have hcross : field.compile.brokenCross form.names place = [] := by
    unfold CompiledField.brokenCross
    rw [FieldSchema.compile, crossField?_compile, h]
    rfl
  rw [hcross, h]
  simp [danglingCrossField, hcontains]

/-- The induction is on the fields from an index on. -/
theorem filter_checkFrom (form : FormSchema) (index : Nat) (fields : List FieldSchema) :
    (form.checkFrom index fields).filter (fun d => d.code = .danglingReference) =
      (fields.zipIdx index).flatMap fun (field, index) =>
        field.compile.brokenReads form.names (itemPath "$" index) ++
          danglingCrossField form (itemPath "$" index) field.name field.validation.crossField := by
  induction fields generalizing index with
  | nil => rfl
  | cons field rest ih =>
      rw [checkFrom, List.filter_append, filter_check, ih, List.zipIdx_cons, List.flatMap_cons]

theorem reportedReferences_compile (form : FormSchema) :
    form.compile.reportedReferences =
      form.fields.zipIdx.flatMap fun (field, index) =>
        field.compile.brokenReads form.names (itemPath "$" index) ++
          danglingCrossField form (itemPath "$" index) field.name field.validation.crossField :=
  filter_checkFrom form 0 form.fields

theorem brokenReferences_compile (form : FormSchema) :
    form.compile.brokenReferences =
      form.fields.zipIdx.flatMap fun (field, index) =>
        field.compile.brokenReads form.names (itemPath "$" index) ++
          field.compile.brokenCross form.names (itemPath "$" index) := by
  unfold CompiledForm.brokenReferences
  rw [names_compile]
  change ((form.fields.map FieldSchema.compile).zipIdx.flatMap _) = _
  rw [List.zipIdx_map, List.flatMap_map]
  rfl

end FormSchema

/-! ## Forms that can be built -/

/-- The field was made from a draft. -/
def FieldSchema.Built (field : FieldSchema) : Prop :=
  ∃ (draft : FieldDraft) (ids : DrawnIds), (draft.build ids).1 = .ok field

/-- The form was made of fields that were made from drafts. -/
structure FormSchema.Built (form : FormSchema) : Prop where
  fields : ∀ field ∈ form.fields, field.Built
  form : FormSchema.ofFields form.fields = .ok form

/-- A field that was built is a draft without a violation, under some identifier. -/
theorem FieldSchema.Built.exists_draft {field : FieldSchema} (h : field.Built) :
    ∃ (draft : FieldDraft) (id : String), draft.violation? = none ∧ field = draft.withId id := by
  obtain ⟨draft, ids, hbuild⟩ := h
  obtain ⟨id, hviolation, rfl⟩ := FieldDraft.exists_withId_of_build hbuild
  exact ⟨draft, id, hviolation, rfl⟩

theorem FieldSchema.Built.name_ne_empty {field : FieldSchema} (h : field.Built) :
    field.name ≠ "" := by
  obtain ⟨draft, id, hviolation, rfl⟩ := h.exists_draft
  intro hempty
  have hname : draft.name = "" := hempty
  simp [FieldDraft.violation?, hname, Text.allBlank] at hviolation

theorem FormSchema.Built.empty_not_mem_names {form : FormSchema} (h : form.Built) :
    "" ∉ form.names := by
  intro hmem
  obtain ⟨field, hfield, hname⟩ := List.mem_map.mp hmem
  exact (h.fields field hfield).name_ne_empty hname

/-- The reported references of a form that was built are its broken references, in order, exactly
when no rule compares with the empty name. -/
theorem reportedReferences_eq_iff {form : FormSchema} (hform : form.Built) :
    form.compile.reportedReferences = form.compile.brokenReferences ↔
      ∀ field ∈ form.fields, field.validation.crossField ≠ some "" := by
  rw [form.reportedReferences_compile, form.brokenReferences_compile]
  constructor
  · intro heq field hfield hempty
    obtain ⟨index, hindex⟩ : ∃ index, (field, index) ∈ form.fields.zipIdx := by
      obtain ⟨index, hlt, hget⟩ := List.mem_iff_getElem.mp hfield
      exact ⟨index, List.mem_zipIdx_iff_getElem?.mpr (List.getElem?_eq_some_iff.mpr ⟨hlt, hget⟩)⟩
    -- the report of this field has no counterpart, and no other field has fewer reports
    have hlength := congrArg List.length heq
    simp only [List.length_flatMap, List.length_append] at hlength
    refine absurd hlength (ne_of_gt (List.sum_lt_sum _ _ ?_ ⟨_, hindex, ?_⟩))
    · rintro ⟨other, k⟩ -
      by_cases hother : other.validation.crossField = some ""
      · have hlt := FormSchema.length_brokenCross_lt hother hform.empty_not_mem_names
          (itemPath "$" k)
        dsimp only
        omega
      · rw [FormSchema.danglingCrossField_eq hother]
    · have hlt := FormSchema.length_brokenCross_lt hempty hform.empty_not_mem_names
        (itemPath "$" index)
      dsimp only
      omega
  · intro hfields
    refine List.flatMap_congr ?_
    rintro ⟨field, index⟩ hfield
    have hmem : field ∈ form.fields :=
      List.mem_of_getElem? (List.mem_zipIdx_iff_getElem?.mp hfield)
    dsimp only
    rw [FormSchema.danglingCrossField_eq (hfields field hmem)]

/-- A condition and a rule that refer to fields that do not exist, beside a condition that refers to
one that does. -/
def lostReferences : FormSchema :=
  ⟨[(FieldDraft.new "age" .number).withId "1",
    { (FieldDraft.new "license" .input) with
      validation := { ValidationRule.none with crossField := some "gone" }
      conditions := [⟨.and, "age", .greater, "18"⟩, ⟨.or, "country", .equal, "US"⟩] }.withId "2"]⟩

theorem reportedReferences_eq_iff_lostReferences :
    lostReferences.Built ∧
      (lostReferences.compile.reportedReferences = lostReferences.compile.brokenReferences ↔
        ∀ field ∈ lostReferences.fields, field.validation.crossField ≠ some "") := by
  have hbuilt : lostReferences.Built := by
    constructor
    · intro field hfield
      simp only [lostReferences, List.mem_cons, List.not_mem_nil, or_false] at hfield
      rcases hfield with rfl | rfl
      · exact ⟨{ FieldDraft.new "age" .number with id := some "1" }, ⟨fun _ => "", 0⟩, rfl⟩
      · exact ⟨{ FieldDraft.new "license" .input with
            id := some "2"
            validation := { ValidationRule.none with crossField := some "gone" }
            conditions := [⟨.and, "age", .greater, "18"⟩, ⟨.or, "country", .equal, "US"⟩] },
          ⟨fun _ => "", 0⟩, rfl⟩
    · rfl
  exact ⟨hbuilt, reportedReferences_eq_iff hbuilt⟩

/-- A field whose rule compares with the empty name. -/
def emptyReference : FormSchema :=
  ⟨[{ FieldDraft.new "a" .input with
      validation := { ValidationRule.none with crossField := some "" } }.withId "1"]⟩

/-- The compiled form refers to no field, and yet a dangling reference is reported. -/
theorem reportedReferences_emptyReference :
    emptyReference.Built ∧ emptyReference.compile.brokenReferences = [] ∧
      emptyReference.compile.reportedReferences =
        [⟨.danglingReference, "$[0].validation.crossField",
          "Cross-field rule on 'a' references unknown field ''"⟩] := by
  refine ⟨⟨?_, rfl⟩, by decide +kernel, by decide +kernel⟩
  intro field hfield
  rw [List.mem_singleton.mp hfield]
  exact ⟨{ FieldDraft.new "a" .input with
      id := some "1"
      validation := { ValidationRule.none with crossField := some "" } }, ⟨fun _ => "", 0⟩, rfl⟩

end FormCompiler
