import FormCompiler.Json.Document

/-!
# Typed reading of documents

Readers for texts, numbers, lists, choices and records. A record is given as an object or as an
array of its fields in their order. Names that are no field are passed over; a field that is named
twice is a mismatch; a field without a default must be there.
-/

namespace FormCompiler

namespace Node

def readText : Node → Except Fault String
  | .text content => content
  | other => .error other.mismatch

def readBoolean : Node → Except Fault Bool
  | .boolean value => .ok value
  | other => .error other.mismatch

/-- A whole number within bounds, which are included. -/
def readWhole (low high : Int) : Node → Except Fault Int
  | .number (some (.whole value)) =>
      if low ≤ value && value ≤ high then .ok value else .error .mismatch
  | other => .error other.mismatch

def readReal : Node → Except Fault Binary64
  | .number (some value) => .ok value.toBinary64
  | other => .error other.mismatch

def readOptional {α : Type} (reader : Node → Except Fault α) : Node → Except Fault (Option α)
  | .null => .ok none
  | .broken .letterN kept _ => .error kept
  | other => (reader other).map some

/-- The value that a table gives to a name. -/
def choose {α : Type} (table : List (String × α)) (name : String) : Except Fault α :=
  match table.lookup name with
  | some value => .ok value
  | none => .error .mismatch

/-- One of the values of a table, by its name. The name may also stand as the only member of an
object, with a null. -/
def readChoice {α : Type} (table : List (String × α)) : Node → Except Fault α
  | .text content => do choose table (← content)
  | .object (.done .closed) => .error .malformed
  | .object (.done ending) => do ending.check; .error .malformed
  | .object (.stray value) => .error value.mismatch
  | .object (.more name value rest) => do
      let chosen ← choose table (← name)
      match value with
      | .null =>
          match rest with
          | .done .closed => .ok chosen
          | .done (.broken fault) => .error fault
          | _ => .error .malformed
      | other => .error other.mismatch
  | .broken .quote kept _ => .error kept
  | .broken .nothing kept _ => .error kept
  | _ => .error .malformed

end Node

def Items.readAll {α : Type} (reader : Node → Except Fault α) : Items → Except Fault (List α)
  | .done ending => ending.check.map fun _ => []
  | .more head rest => do
      let first ← reader head
      let others ← rest.readAll reader
      pure (first :: others)

def Node.readList {α : Type} (reader : Node → Except Fault α) : Node → Except Fault (List α)
  | .array items => items.readAll reader
  | other => .error other.mismatch

/-- A field of a record: its name, whether it must be given, and how its value changes the record
read so far. -/
structure RecordField (ρ : Type) where
  name : String
  required : Bool
  read : Node → ρ → Except Fault ρ

namespace RecordField

variable {ρ α : Type}

def withDefault (name : String) (reader : Node → Except Fault α) (store : α → ρ → ρ) :
    RecordField ρ :=
  ⟨name, false, fun node record => (reader node).map fun value => store value record⟩

def mandatory (name : String) (reader : Node → Except Fault α) (store : α → ρ → ρ) :
    RecordField ρ :=
  ⟨name, true, fun node record => (reader node).map fun value => store value record⟩

end RecordField

variable {ρ : Type}

/-- A record from the members of an object; `seen` holds the names of the fields read so far. -/
def Members.readRecord (fields : List (RecordField ρ)) :
    Members → List String → ρ → Except Fault ρ
  | .done ending, seen, record => do
      if ending = .closed && fields.any fun f => f.required && !seen.contains f.name then
        .error .mismatch
      ending.check
      pure record
  | .stray _, _, _ => .error .malformed
  | .more name value rest, seen, record => do
      let name ← name
      match fields.find? fun f => f.name == name with
      | some field =>
          if seen.contains name then .error .mismatch
          else
            let record ← field.read value record
            rest.readRecord fields (name :: seen) record
      | none =>
          value.pass
          rest.readRecord fields seen record

def Items.readRecord : List (RecordField ρ) → Items → ρ → Except Fault ρ
  | [], .done .closed, record => .ok record
  | [], .done (.broken fault), _ => .error fault
  | [], _, _ => .error .malformed
  | field :: fields, .done ending, record => do
      ending.check
      if (field :: fields).any (·.required) then .error .mismatch
      pure record
  | field :: fields, .more head rest, record => do
      let record ← field.read head record
      rest.readRecord fields record

/-- A record that starts from the defaults of its fields. -/
def Node.readRecord (fields : List (RecordField ρ)) (defaults : ρ) : Node → Except Fault ρ
  | .object members => members.readRecord fields [] defaults
  | .array items => items.readRecord fields defaults
  | other => .error other.mismatch

end FormCompiler
