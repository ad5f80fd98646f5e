import FormCompiler.Schema.Field
import FormCompiler.Schema.Name
import FormCompiler.Schema.IdSource
import FormCompiler.Schema.Violation
import FormCompiler.Text.Blank

/-!
# Drafts and forms

A draft becomes a field when its name is not blank and none of its conditions is on itself. A form
is a list of fields; `FormSchema.ofFields` refuses a list in which a name occurs twice.
-/

namespace FormCompiler

/-- A field before it is checked. A missing label is made from the name, and a missing identifier
is taken from a source. -/
structure FieldDraft where
  id : Option String
  name : String
  label : Option String
  kind : FieldKind
  columns : Columns
  validation : ValidationRule
  conditions : List Condition
  group : Option String

namespace FieldDraft

def new (name : String) (kind : FieldKind) : FieldDraft :=
  ⟨none, name, none, kind, .one, .none, [], none⟩

/-- Why a draft is refused, if it is. -/
def violation? (draft : FieldDraft) : Option Violation :=
  if Text.allBlank draft.name then some (.blankName "name")
  else
    match draft.conditions.findIdx? fun c => c.field == draft.name with
    | some index => some (.selfCondition (itemPath "conditions" index ++ ".field") draft.name)
    | none => none

/-- The field of a draft with an identifier. -/
def withId (draft : FieldDraft) (id : String) : FieldSchema :=
  { id
    name := draft.name
    label := draft.label.getD (humanize draft.name)
    kind := draft.kind
    columns := draft.columns
    validation := draft.validation
    conditions := draft.conditions
    group := draft.group }

variable {σ : Type} [IdSource σ]

/-- Checks a draft and makes it a field. Only a draft without an identifier that passes the checks
takes one from the source. -/
def build (draft : FieldDraft) (ids : σ) : Except Violation FieldSchema × σ :=
  match draft.violation? with
  | some violation => (.error violation, ids)
  | none =>
      match draft.id with
      | some id => (.ok (draft.withId id), ids)
      | none =>
          let (id, ids) := IdSource.next ids
          (.ok (draft.withId id), ids)

end FieldDraft

/-- A form: its fields in the order of declaration. -/
structure FormSchema where
  fields : List FieldSchema
  deriving DecidableEq

namespace FormSchema

def empty : FormSchema := ⟨[]⟩

def names (form : FormSchema) : List String := form.fields.map (·.name)

def get? (form : FormSchema) (name : String) : Option FieldSchema :=
  form.fields.find? fun field => field.name == name

def contains (form : FormSchema) (name : String) : Bool := (form.get? name).isSome

/-- The violation of the first field whose name an earlier field has. -/
def duplicate? (index : Nat) (seen : List String) : List FieldSchema → Option Violation
  | [] => none
  | field :: rest =>
      if seen.contains field.name then
        some (.duplicateName (itemPath "$" index ++ ".name") field.name)
      else duplicate? (index + 1) (field.name :: seen) rest

/-- The form of some fields; the names must differ. -/
def ofFields (fields : List FieldSchema) : Except Violation FormSchema :=
  match duplicate? 0 [] fields with
  | some violation => .error violation
  | none => .ok ⟨fields⟩

end FormSchema

end FormCompiler
