import FormCompiler.Compiled.Chain
import FormCompiler.Compiled.Visibility
import FormCompiler.Schema.Form

/-!
# Compiled forms

Each field is compiled to its chain and its visibility. Compilation never fails; what will not work
as meant is reported: references to fields that the form does not have, bounds that no value meets,
and select fields without options.
-/

namespace FormCompiler

structure CompiledField where
  field : FieldSchema
  validation : ValidationChain
  visibility : Visibility

def FieldSchema.compile (field : FieldSchema) : CompiledField :=
  ⟨field, .compile field.type field.validation, .compile field.conditions⟩

/-- The compiled fields of a form and the problems found in it. -/
structure CompiledForm where
  fields : List CompiledField
  diagnostics : List Diagnostic

namespace FormSchema

/-- Conditions, from the given index on, on fields that the form does not have. -/
def danglingConditions (form : FormSchema) (place name : String) :
    Nat → List Condition → List Diagnostic
  | _, [] => []
  | index, c :: rest =>
      (if form.contains c.field then []
        else
          [⟨.danglingReference, itemPath (place ++ ".conditions") index ++ ".field",
            "Condition on '" ++ name ++ "' references unknown field '" ++ c.field ++ "'"⟩]) ++
        danglingConditions form place name (index + 1) rest

/-- A rule that compares with a field that the form does not have. -/
def danglingCrossField (form : FormSchema) (place name : String) : Option String → List Diagnostic
  | none => []
  | some other =>
      if form.contains other then []
      else
        [⟨.danglingReference, place ++ ".validation.crossField",
          "Cross-field rule on '" ++ name ++ "' references unknown field '" ++ other ++ "'"⟩]

def contradictoryBounds (place name : String) (rule : ValidationRule) : List Diagnostic :=
  match rule.min, rule.max with
  | some min, some max =>
      if max.less min then
        [⟨.contradictoryBounds, place ++ ".validation",
          "min " ++ min.plainText ++ " is greater than max " ++ max.plainText ++ " on '" ++ name ++
            "'"⟩]
      else []
  | _, _ => []

def missingOptions (place name : String) : FieldKind → List Diagnostic
  | .select [] =>
      [⟨.emptyOptions, place ++ ".options", "Select field '" ++ name ++ "' has no options"⟩]
  | _ => []

def check (form : FormSchema) (index : Nat) (field : FieldSchema) : List Diagnostic :=
  let place := itemPath "$" index
  danglingConditions form place field.name 0 field.conditions ++
    danglingCrossField form place field.name field.validation.crossField ++
    contradictoryBounds place field.name field.validation ++
    missingOptions place field.name field.kind

def checkFrom (form : FormSchema) : Nat → List FieldSchema → List Diagnostic
  | _, [] => []
  | index, field :: rest => form.check index field ++ checkFrom form (index + 1) rest

def compile (form : FormSchema) : CompiledForm :=
  ⟨form.fields.map FieldSchema.compile, form.checkFrom 0 form.fields⟩

end FormSchema

namespace CompiledForm

def get? (form : CompiledForm) (name : String) : Option CompiledField :=
  form.fields.find? fun c => c.field.name == name

/-- The names of the fields that are shown, in order. -/
def visibleFields (form : CompiledForm) (values : FormValues) : List String :=
  (form.fields.filter fun c => c.visibility.isVisible values).map (·.field.name)

end CompiledForm

end FormCompiler
