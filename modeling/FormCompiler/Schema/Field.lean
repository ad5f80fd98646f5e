import FormCompiler.Binary64.Basic

/-!
# Fields of a form

The kinds of fields, the column span, the validation rule of a field, and the conditions on which
a field is shown. Only select fields have options.
-/

namespace FormCompiler

inductive FieldType where
  | input
  | number
  | select
  | checkbox
  | textarea
  | date
  deriving DecidableEq

namespace FieldType

def all : List FieldType := [input, number, select, checkbox, textarea, date]

def name : FieldType → String
  | input => "input"
  | number => "number"
  | select => "select"
  | checkbox => "checkbox"
  | textarea => "textarea"
  | date => "date"

def table : List (String × FieldType) := all.map fun t => (t.name, t)

end FieldType

/-- The kind of a field: its type with the data of that type. -/
inductive FieldKind where
  | input
  | number
  | select (options : List String)
  | checkbox
  | textarea
  | date
  deriving DecidableEq

namespace FieldKind

/-- The kind of a type; the options go with a select field only. -/
def ofType (type : FieldType) (options : List String) : FieldKind :=
  match type with
  | .input => input
  | .number => number
  | .select => select options
  | .checkbox => checkbox
  | .textarea => textarea
  | .date => date

def type : FieldKind → FieldType
  | input => .input
  | number => .number
  | select _ => .select
  | checkbox => .checkbox
  | textarea => .textarea
  | date => .date

/-- The options of a select field; every other kind has none. -/
def options : FieldKind → List String
  | select options => options
  | _ => []

@[simp] theorem type_ofType (type : FieldType) (options : List String) :
    (ofType type options).type = type := by
  cases type <;> rfl

end FieldKind

/-- The number of grid columns that a field spans. -/
inductive Columns where
  | one
  | two
  | three
  deriving DecidableEq

namespace Columns

def span : Columns → Nat
  | one => 1
  | two => 2
  | three => 3

/-- The columns of a span from one to three. -/
def ofSpan? (span : Int) : Option Columns :=
  if span = 1 then some one
  else if span = 2 then some two
  else if span = 3 then some three
  else none

/-- The columns nearest to a span. -/
def clamp (span : Int) : Columns :=
  if span ≤ 1 then one else if span = 2 then two else three

end Columns

/-- What a value must satisfy. The bounds are on the magnitude of a number and on the length of a
text; the message of its own replaces the one for a missing value. -/
structure ValidationRule where
  required : Bool
  min : Option Binary64
  max : Option Binary64
  pattern : Option String
  customMessage : Option String
  crossField : Option String
  deriving DecidableEq

/-- The rule that every value satisfies. -/
def ValidationRule.none : ValidationRule :=
  ⟨false, .none, .none, .none, .none, .none⟩

/-- How a condition is joined to those before it. -/
inductive LogicOp where
  | and
  | or
  deriving DecidableEq

namespace LogicOp

def name : LogicOp → String
  | and => "AND"
  | or => "OR"

def table : List (String × LogicOp) := [("AND", and), ("OR", or)]

/-- The truth of the two joined. -/
def apply : LogicOp → Bool → Bool → Bool
  | and, a, b => a && b
  | or, a, b => a || b

end LogicOp

/-- How the value of a field is compared with the text of a condition. -/
inductive ComparisonOp where
  | equal
  | notEqual
  | greater
  | less
  | contains
  deriving DecidableEq

namespace ComparisonOp

def all : List ComparisonOp := [equal, notEqual, greater, less, contains]

def name : ComparisonOp → String
  | equal => "=="
  | notEqual => "!="
  | greater => ">"
  | less => "<"
  | contains => "contains"

def table : List (String × ComparisonOp) := all.map fun op => (op.name, op)

end ComparisonOp

/-- A condition on the value of another field. In a list of conditions the first one is joined to
nothing. -/
structure Condition where
  logic : LogicOp
  field : String
  operator : ComparisonOp
  value : String
  deriving DecidableEq

structure FieldSchema where
  id : String
  name : String
  label : String
  kind : FieldKind
  columns : Columns
  validation : ValidationRule
  conditions : List Condition
  group : Option String
  deriving DecidableEq

def FieldSchema.type (field : FieldSchema) : FieldType := field.kind.type

end FormCompiler
