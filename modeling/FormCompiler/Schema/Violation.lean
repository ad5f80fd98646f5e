import FormCompiler.Schema.Diagnostic
import FormCompiler.Text.Search

/-!
# Violations

Why records, fields or values are refused. Each cause knows the place it speaks of, its message,
and what was expected there instead.
-/

namespace FormCompiler

/-- The path of an item of a list. -/
def itemPath (list : String) (index : Nat) : String := list ++ "[" ++ Text.decimal index ++ "]"

/-- A reason to refuse a field, a form or the values of a form. -/
inductive Violation where
  | blankName (place : String)
  /-- The condition at this place is on the field that has it. -/
  | selfCondition (place name : String)
  /-- The name at this place belongs to an earlier field. -/
  | duplicateName (place name : String)
  /-- A problem that only lenient reading tolerates. -/
  | intolerable (place message : String)
  /-- The values of a form are no object. -/
  | valuesNotObject
  /-- The value of this name is a list or an object. -/
  | valueNotScalar (name : String)
  deriving DecidableEq

namespace Violation

def place : Violation → String
  | blankName place => place
  | selfCondition place _ => place
  | duplicateName place _ => place
  | intolerable place _ => place
  | valuesNotObject => "$"
  | valueNotScalar name => "$." ++ name

def message : Violation → String
  | blankName _ => "Field name cannot be empty"
  | selfCondition _ name => "Field '" ++ name ++ "' has a condition on itself"
  | duplicateName _ name => "Duplicate field name '" ++ name ++ "'"
  | intolerable _ message => message
  | valuesNotObject => "Form values must be a JSON object"
  | valueNotScalar _ => "Form values must be scalars"

/-- What was expected there. -/
def expected? : Violation → Option String
  | blankName _ => some "non-empty identifier"
  | selfCondition _ _ => some "a different field of the same form"
  | duplicateName _ _ => some "unique field names"
  | intolerable _ _ => none
  | valuesNotObject => some "object"
  | valueNotScalar _ => some "string, number, boolean or null"

def display (v : Violation) : String := "Validation error: " ++ v.place ++ " - " ++ v.message

end Violation

end FormCompiler
