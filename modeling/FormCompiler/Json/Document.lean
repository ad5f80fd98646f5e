import FormCompiler.Json.Value

/-!
# JSON documents

A document is what a reader sees of a JSON text from left to right: its values as far as the text
is well formed, and at the place where it is not, the fault. A typed reader walks the document in
the same order, so of two faults the one that stands first in the text decides. Members keep their
order and their duplicates.

A text value that is kept must hold no half of a surrogate pair and a number that is kept must not
be too large; what is passed over need only be well formed. A break therefore names two faults.
-/

namespace FormCompiler

/-- Why a JSON text gives no value of the wanted kind. -/
inductive Fault where
  | endsEarly
  /-- The text breaks the rules of JSON. -/
  | malformed
  /-- The text is well formed and holds something else. -/
  | mismatch
  deriving DecidableEq

/-- What a broken value begins with. -/
inductive Start where
  | quote
  | letterN
  | other
  | nothing
  deriving DecidableEq

/-- What follows the last item of an array or the last member of an object. -/
inductive Ending where
  | closed
  /-- The text breaks where a comma or the end is due. -/
  | broken (fault : Fault)
  /-- The text breaks after a comma. -/
  | dangling (fault : Fault)
  deriving DecidableEq

mutual

/-- A value of a document. -/
inductive Node where
  | null
  | boolean (value : Bool)
  /-- A number, or none when it is too large. -/
  | number (value : Option JsonNumber)
  /-- A text, or the fault that keeping it shows. -/
  | text (content : Except Fault String)
  | array (items : Items)
  | object (members : Members)
  /-- The text breaks in this value. -/
  | broken (start : Start) (kept passed : Fault)

/-- The items of an array. -/
inductive Items where
  | done (ending : Ending)
  | more (head : Node) (rest : Items)

/-- The members of an object. -/
inductive Members where
  | done (ending : Ending)
  | more (name : Except Fault String) (value : Node) (rest : Members)
  /-- The first thing in the object is a value and no name. -/
  | stray (value : Node)

end

/-- The fault at the end of a container, if it is not closed. -/
def Ending.check : Ending → Except Fault Unit
  | .closed => .ok ()
  | .broken fault => .error fault
  | .dangling fault => .error fault

namespace Node

/-- The fault of a value that is not of the wanted kind. A scalar is read to its end first. -/
def mismatch : Node → Fault
  | .number none => .malformed
  | .text (.error fault) => fault
  | .broken _ kept _ => kept
  | _ => .mismatch

end Node

mutual

/-- Passes over a value. -/
def Node.pass : Node → Except Fault Unit
  | .array items => items.pass
  | .object members => members.pass
  | .broken _ _ passed => .error passed
  | _ => .ok ()

def Items.pass : Items → Except Fault Unit
  | .done ending => ending.check
  | .more head rest => do head.pass; rest.pass

def Members.pass : Members → Except Fault Unit
  | .done ending => ending.check
  | .more _ value rest => do value.pass; rest.pass
  | .stray _ => .error .malformed

end

mutual

/-- Keeps a value as it is, through at most `depth` nested containers if a depth is given. Members
are put in the order of their names; of two members of one name the last one stays. -/
def Node.keep (depth : Option Nat) : Node → Except Fault Json
  | .null => .ok .null
  | .boolean value => .ok (.boolean value)
  | .number (some value) => .ok (.number value)
  | .number none => .error .malformed
  | .text content => content.map .text
  | .array items =>
      if depth = some 0 then .error .malformed
      else (items.keep (depth.map (· - 1))).map .array
  | .object members =>
      if depth = some 0 then .error .malformed
      else (members.keep (depth.map (· - 1)) []).map .object
  | .broken _ kept _ => .error kept

def Items.keep (depth : Option Nat) : Items → Except Fault (List Json)
  | .done ending => ending.check.map fun _ => []
  | .more head rest => do
      let first ← head.keep depth
      let others ← rest.keep depth
      pure (first :: others)

def Members.keep (depth : Option Nat) :
    Members → List (String × Json) → Except Fault (List (String × Json))
  | .done ending, before => ending.check.map fun _ => before
  | .more name value rest, before => do
      let name ← name
      let value ← value.keep depth
      rest.keep depth (Json.insertMember name value before)
  | .stray _, _ => .error .malformed

end

mutual

def Json.toNode : Json → Node
  | .null => .null
  | .boolean value => .boolean value
  | .number value => .number (some value)
  | .text value => .text (.ok value)
  | .array items => .array (Json.toItems items)
  | .object members => .object (Json.toMembers members)

def Json.toItems : List Json → Items
  | [] => .done .closed
  | item :: rest => .more item.toNode (Json.toItems rest)

def Json.toMembers : List (String × Json) → Members
  | [] => .done .closed
  | (name, value) :: rest => .more (.ok name) value.toNode (Json.toMembers rest)

end

end FormCompiler
