import FormCompiler.Json.Value
import FormCompiler.Schema.Violation
import FormCompiler.Values.Coercion

/-!
# Values of a form

The values that a form holds while it is filled in, by the names of its fields. A name without a
value is undefined, which is not the same as null.
-/

namespace FormCompiler

inductive FormValue where
  | text (value : String)
  | number (value : Binary64)
  | boolean (value : Bool)
  | null
  deriving DecidableEq

namespace FormValue

def toNumber : FormValue → Binary64
  | text value => Coercion.textToNumber value
  | number value => value
  | boolean true => .one
  | boolean false => .zero
  | null => .zero

def toText : FormValue → String
  | text value => value
  | number value => Coercion.numberToText value
  | boolean true => "true"
  | boolean false => "false"
  | null => "null"

/-- Equality without coercion: numbers are compared as numbers, and values of different kinds
differ. -/
def strictlyEquals : FormValue → FormValue → Bool
  | number a, number b => a.equals b
  | a, b => a = b

end FormValue

/-- The values of a form. An entry hides the entries of the same name after it. -/
structure FormValues where
  entries : List (String × FormValue)

namespace FormValues

def empty : FormValues := ⟨[]⟩

def get? (values : FormValues) (name : String) : Option FormValue := values.entries.lookup name

/-- The values with one more, which replaces an earlier value of the name. -/
def insert (values : FormValues) (name : String) (value : FormValue) : FormValues :=
  ⟨(name, value) :: values.entries⟩

def scalar? : Json → Option FormValue
  | .text value => some (.text value)
  | .number value => some (.number value.toBinary64)
  | .boolean value => some (.boolean value)
  | .null => some .null
  | .array _ => none
  | .object _ => none

/-- The values of members, added to those of the members before. -/
def ofMembers (before : FormValues) : List (String × Json) → Except Violation FormValues
  | [] => .ok before
  | (name, value) :: rest =>
      match scalar? value with
      | some value => ofMembers (before.insert name value) rest
      | none => .error (.valueNotScalar name)

/-- The values of a JSON object of scalars. -/
def ofJson : Json → Except Violation FormValues
  | .object members => ofMembers empty members
  | _ => .error .valuesNotObject

end FormValues

end FormCompiler
