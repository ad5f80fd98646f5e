import FormCompiler.Schema.Field
import FormCompiler.Json.Decoder
import FormCompiler.Json.Printer

/-!
# Stored records

The JSON shape in which a designer keeps fields: every field has options whatever its type, and
empty texts stand for absent patterns, messages and references.
-/

namespace FormCompiler

/-- A reference to another field, stored as an object or as a plain name. -/
inductive CrossFieldRecord where
  | reference (field : String)
  | name (field : String)
  deriving DecidableEq

def CrossFieldRecord.field : CrossFieldRecord → String
  | reference field => field
  | name field => field

structure ValidationRecord where
  required : Bool
  min : Option Binary64
  max : Option Binary64
  pattern : Option String
  customMessage : Option String
  crossField : Option CrossFieldRecord
  deriving DecidableEq

def ValidationRecord.defaults : ValidationRecord := ⟨false, none, none, none, none, none⟩

/-- A stored condition. Without a logic operator it is joined by AND. -/
structure ConditionRecord where
  logic : Option LogicOp
  field : String
  operator : ComparisonOp
  value : String
  deriving DecidableEq

def ConditionRecord.defaults : ConditionRecord := ⟨none, "", .equal, ""⟩

structure FieldRecord where
  id : Option String
  name : String
  label : Option String
  type : FieldType
  options : List String
  columns : Option Int
  validation : ValidationRecord
  conditions : List ConditionRecord
  group : Option String
  deriving DecidableEq

/-- The field of which nothing is stored. -/
def FieldRecord.defaults : FieldRecord :=
  ⟨none, "", none, .input, [], none, .defaults, [], none⟩

/-! ## Reading -/

open Node RecordField

/-- The whole numbers of 64 bits with a sign. -/
def readInt64 : Node → Except Fault Int :=
  readWhole Int64.minValue.toInt Int64.maxValue.toInt

namespace CrossFieldRecord

/-- The object form of a reference. -/
def readReference (members : Members) : Except Fault CrossFieldRecord :=
  (members.readRecord [mandatory "field" readText fun field _ => reference field] []
    (reference "")).mapError fun _ => .mismatch

/-- A reference in either form. The value is kept whole before its form is looked at, through at
most `depth` containers. -/
def read (depth : Option Nat) (node : Node) : Except Fault CrossFieldRecord := do
  let _ ← node.keep depth
  match node with
  | .text content => content.map name
  | .object members => readReference members
  | _ => .error .mismatch

end CrossFieldRecord

/-- Validation settings that stand inside containers; `depth` more may follow. -/
def ValidationRecord.read (depth : Option Nat) : Node → Except Fault ValidationRecord :=
  readRecord
    [withDefault "required" readBoolean fun value record => { record with required := value },
     withDefault "min" (readOptional readReal) fun value record => { record with min := value },
     withDefault "max" (readOptional readReal) fun value record => { record with max := value },
     withDefault "pattern" (readOptional readText) fun value record =>
       { record with pattern := value },
     withDefault "customMessage" (readOptional readText) fun value record =>
       { record with customMessage := value },
     withDefault "crossField" (readOptional (CrossFieldRecord.read depth)) fun value record =>
       { record with crossField := value }]
    .defaults

def ConditionRecord.read : Node → Except Fault ConditionRecord :=
  readRecord
    [withDefault "logic" (readOptional (readChoice LogicOp.table)) fun value record =>
       { record with logic := value },
     withDefault "field" readText fun value record => { record with field := value },
     withDefault "operator" (readChoice ComparisonOp.table) fun value record =>
       { record with operator := value },
     withDefault "value" readText fun value record => { record with value := value }]
    .defaults

/-- A field; `depth` more containers may stand inside it. -/
def FieldRecord.read (depth : Option Nat) : Node → Except Fault FieldRecord :=
  readRecord
    [withDefault "id" (readOptional readText) fun value record => { record with id := value },
     withDefault "name" readText fun value record => { record with name := value },
     withDefault "label" (readOptional readText) fun value record => { record with label := value },
     withDefault "type" (readChoice FieldType.table) fun value record =>
       { record with type := value },
     withDefault "options" (readList readText) fun value record => { record with options := value },
     withDefault "columns" (readOptional readInt64) fun value record =>
       { record with columns := value },
     withDefault "validation" (ValidationRecord.read (depth.map (· - 1))) fun value record =>
       { record with validation := value },
     withDefault "conditions" (readList ConditionRecord.read) fun value record =>
       { record with conditions := value },
     withDefault "group" (readOptional readText) fun value record => { record with group := value }]
    .defaults

/-- A list of fields; `depth` more containers may stand inside the list. -/
def FieldRecord.readList (depth : Option Nat) : Node → Except Fault (List FieldRecord) :=
  Node.readList (FieldRecord.read (depth.map (· - 1)))

/-! ## Writing -/

def CrossFieldRecord.toJson : CrossFieldRecord → Json
  | reference field => .object [("field", .text field)]
  | name field => .text field

def ValidationRecord.toJson (record : ValidationRecord) : Json :=
  .object
    [("required", .boolean record.required),
     ("min", Json.optional Json.real record.min),
     ("max", Json.optional Json.real record.max),
     ("pattern", Json.optional Json.text record.pattern),
     ("customMessage", Json.optional Json.text record.customMessage),
     ("crossField", Json.optional CrossFieldRecord.toJson record.crossField)]

def ConditionRecord.toJson (record : ConditionRecord) : Json :=
  .object
    [("logic", Json.optional (fun op => Json.text op.name) record.logic),
     ("field", .text record.field),
     ("operator", .text record.operator.name),
     ("value", .text record.value)]

/-- A field with all its parts; an absent identifier or label is left out. -/
def FieldRecord.toJson (record : FieldRecord) : Json :=
  .object
    ((record.id.toList.map fun id => ("id", .text id)) ++
      [("name", .text record.name)] ++
      (record.label.toList.map fun label => ("label", .text label)) ++
      [("type", .text record.type.name),
       ("options", Json.texts record.options),
       ("columns", Json.optional Json.whole record.columns),
       ("validation", record.validation.toJson),
       ("conditions", .array (record.conditions.map ConditionRecord.toJson)),
       ("group", Json.optional Json.text record.group)])

end FormCompiler
