import FormCompiler.Json.Document

/-!
# Tables of a TOML document

A document is a table of named items. Headers and dotted keys open tables on the way to what they
name, and how a table was opened decides what may be added to it later.
-/

namespace FormCompiler

namespace Toml

/-- How a table came to be. -/
inductive Origin where
  /-- A header names it. -/
  | header
  /-- A header names a table inside it. -/
  | implied
  /-- A dotted key passes through it. -/
  | dotted
  /-- It is written between braces, and nothing is added to it. -/
  | inline
  deriving DecidableEq

/-- What a name stands for. -/
inductive Item where
  | text (value : String)
  | whole (value : Int)
  | real (value : Binary64)
  | boolean (value : Bool)
  /-- A date, a time of day or both. -/
  | moment (written : String)
  | array (items : List Item)
  | table (origin : Origin) (members : List (String × Item))
  /-- A list of tables, each opened by a header of its own; the last one stands first. -/
  | tables (elements : List (List (String × Item)))

/-- The named items of a table. -/
abbrev Members := List (String × Item)

/-- Changes or adds what a name stands for, if the change is allowed. -/
def updateMember (name : String) (change : Option Item → Option Item) : Members → Option Members
  | [] => (change none).map fun item => [(name, item)]
  | (other, item) :: rest =>
      if other = name then (change (some item)).map fun item => (other, item) :: rest
      else (updateMember name change rest).map fun rest => (other, item) :: rest

/-- Whether a header or a dotted key may pass through a table. -/
def Origin.allows (origin : Origin) (byDottedKey : Bool) : Bool :=
  match origin with
  | header => !byDottedKey
  | implied => true
  | dotted => true
  | inline => false

/-- Changes the table at the end of a path; tables that are missing on the way are opened. -/
def atPath (byDottedKey : Bool) (change : Members → Option Members) :
    List String → Members → Option Members
  | [], members => change members
  | name :: path, members =>
      updateMember name
        (fun
          | none =>
              (atPath byDottedKey change path []).map
                (.table (if byDottedKey then .dotted else .implied))
          | some (.table origin inner) =>
              if origin.allows byDottedKey then
                (atPath byDottedKey change path inner).map (.table origin)
              else none
          | some (.tables (last :: before)) =>
              if byDottedKey then none
              else (atPath byDottedKey change path last).map fun last => .tables (last :: before)
          | some _ => none)
        members

/-- Splits a key into the names before the last one and the last one. -/
def splitLast : List String → Option (List String × String)
  | [] => none
  | [name] => some ([], name)
  | name :: rest => (splitLast rest).map fun (path, last) => (name :: path, last)

/-- Opens the table that a header names. -/
def openTable (key : List String) (root : Members) : Option Members := do
  let (path, name) ← splitLast key
  atPath false
    (updateMember name fun
      | none => some (.table .header [])
      | some (.table .implied members) => some (.table .header members)
      | some _ => none)
    path root

/-- Opens a further table of the list that a header names. -/
def openElement (key : List String) (root : Members) : Option Members := do
  let (path, name) ← splitLast key
  atPath false
    (updateMember name fun
      | none => some (.tables [[]])
      | some (.tables elements) => some (.tables ([] :: elements))
      | some _ => none)
    path root

/-- Gives a value to a key of a table. -/
def assign (key : List String) (value : Item) (members : Members) : Option Members := do
  let (path, name) ← splitLast key
  atPath true
    (updateMember name fun
      | none => some value
      | some _ => none)
    path members

mutual

def Item.toJson : Item → Json
  | .text value => .text value
  | .whole value => Json.whole value
  | .real value => .number (.real value)
  | .boolean value => .boolean value
  | .moment written => .object [("", .text written)]
  | .array items => .array (itemsToJson items)
  | .table _ members => .object (membersToJson members)
  | .tables elements => .array (elementsToJson elements).reverse

def itemsToJson : List Item → List Json
  | [] => []
  | item :: rest => item.toJson :: itemsToJson rest

def membersToJson : List (String × Item) → List (String × Json)
  | [] => []
  | (name, item) :: rest => (name, item.toJson) :: membersToJson rest

def elementsToJson : List (List (String × Item)) → List Json
  | [] => []
  | members :: rest => .object (membersToJson members) :: elementsToJson rest

end

end Toml

end FormCompiler
