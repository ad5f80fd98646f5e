import FormCompiler.Binary64.Rounding

/-!
# JSON values

A value keeps whole numbers apart from all others, and the members of an object in the order in
which they are to be written.
-/

namespace FormCompiler

/-- A JSON number: a whole number, or one with a fraction or an exponent. -/
inductive JsonNumber where
  | whole (value : Int)
  | real (value : Binary64)
  deriving DecidableEq

def JsonNumber.toBinary64 : JsonNumber → Binary64
  | .whole value => Binary64.ofInt value
  | .real value => value

inductive Json where
  | null
  | boolean (value : Bool)
  | number (value : JsonNumber)
  | text (value : String)
  | array (items : List Json)
  | object (members : List (String × Json))

namespace Json

def whole (n : Int) : Json := .number (.whole n)

def natural (n : Nat) : Json := .number (.whole n)

/-- A number as a value; what is not finite is written as null. -/
def real (x : Binary64) : Json := if x.isFinite then .number (.real x) else .null

def optional {α : Type} (write : α → Json) : Option α → Json
  | none => .null
  | some a => write a

def texts (items : List String) : Json := .array (items.map .text)

def member? (name : String) : Json → Option Json
  | .object members => members.lookup name
  | _ => none

/-- Puts a member at its place in an object whose names are in increasing order; a member of the
same name is replaced. -/
def insertMember (name : String) (value : Json) : List (String × Json) → List (String × Json)
  | [] => [(name, value)]
  | (other, old) :: rest =>
      if name < other then (name, value) :: (other, old) :: rest
      else if name = other then (name, value) :: rest
      else (other, old) :: insertMember name value rest

end Json

end FormCompiler
