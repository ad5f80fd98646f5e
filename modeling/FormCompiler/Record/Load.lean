import FormCompiler.Record.Basic
import FormCompiler.Json.Codec
import FormCompiler.Schema.Form
import FormCompiler.Schema.StrictMode

/-!
# Loading and storing forms

Records become fields one after the other. Some problems refuse the whole list in either mode:
a blank name, a condition on the field itself, a name that an earlier record has. The others
refuse it in strict mode only; in lenient mode they are recorded as diagnostics, which stay also
when a later problem refuses the list.
-/

namespace FormCompiler

/-- What loading threads through the records: the diagnostics so far and the identifiers left. -/
structure LoadState (σ : Type) where
  diagnostics : List Diagnostic
  ids : σ

/-- A step of loading. A violation keeps the state that was reached. -/
abbrev Load (σ : Type) := ExceptT Violation (StateM (LoadState σ))

namespace Load

variable {σ : Type}

/-- Stops with a violation. -/
def refuse {α : Type} (violation : Violation) : Load σ α := throw violation

/-- Records a problem in lenient mode, and stops with it in strict mode. -/
def tolerate (mode : StrictMode) (code : DiagnosticCode) (path message : String) : Load σ Unit :=
  match mode with
  | .strict => refuse (.intolerable path message)
  | .warn =>
      modify fun state =>
        { state with diagnostics := state.diagnostics ++ [⟨code, path, message⟩] }

/-- Runs a step from no diagnostics. -/
def start {α : Type} (step : Load σ α) (ids : σ) : Except Violation α × LoadState σ :=
  step.run.run ⟨[], ids⟩

end Load

def nonEmpty? (text : Option String) : Option String := text.filter fun t => t ≠ ""

/-- The rule of stored settings: empty texts mean that nothing is set. -/
def ValidationRecord.rule (record : ValidationRecord) : ValidationRule :=
  { required := record.required
    min := record.min
    max := record.max
    pattern := nonEmpty? record.pattern
    customMessage := nonEmpty? record.customMessage
    crossField := nonEmpty? (record.crossField.map CrossFieldRecord.field) }

def ConditionRecord.condition (record : ConditionRecord) : Condition :=
  ⟨record.logic.getD .and, record.field, record.operator, record.value⟩

namespace FieldRecord

/-- The draft of a record with the given columns. An empty identifier is none. -/
def draft (record : FieldRecord) (columns : Columns) : FieldDraft :=
  { id := nonEmpty? record.id
    name := record.name
    label := record.label
    kind := .ofType record.type record.options
    columns
    validation := record.validation.rule
    conditions := record.conditions.map ConditionRecord.condition
    group := record.group }

variable {σ : Type}

/-- The columns of a record; a span out of bounds is moved into them. -/
def loadColumns (record : FieldRecord) (path : String) (mode : StrictMode) : Load σ Columns :=
  match record.columns with
  | none => pure .one
  | some span =>
      match Columns.ofSpan? span with
      | some columns => pure columns
      | none => do
          let columns := Columns.clamp span
          Load.tolerate mode .columnsClamped (path ++ ".columns")
            ("Column span " ++ Text.signedDecimal span ++ " moved to " ++
              Text.decimal columns.span)
          pure columns

variable [IdSource σ]

/-- The field of a draft that has been checked. -/
def finish (draft : FieldDraft) : Load σ FieldSchema := do
  let state ← get
  let (built, ids) := draft.build state.ids
  set { state with ids }
  match built with
  | .ok field => pure field
  | .error violation => Load.refuse violation

/-- The field of a record; `path` is the place of the record. -/
def toField (record : FieldRecord) (path : String) (mode : StrictMode) : Load σ FieldSchema := do
  -- the first problem ends strict loading, so the order of the checks shows in its outcome
  if Text.allBlank record.name then
    Load.refuse (.blankName (path ++ ".name"))
  if !isIdentifierName record.name then
    Load.tolerate mode .nonIdentifierName (path ++ ".name")
      ("Field name '" ++ record.name ++ "' is not a plain identifier")
  if record.type = .select && record.options.isEmpty then
    Load.tolerate mode .emptyOptions (path ++ ".options")
      ("Select field '" ++ record.name ++ "' has no options")
  let columns ← record.loadColumns path mode
  match record.conditions.findIdx? fun c => c.field == record.name with
  | some index =>
      Load.refuse
        (.selfCondition (itemPath (path ++ ".conditions") index ++ ".field") record.name)
  | none => finish (record.draft columns)

end FieldRecord

namespace FormSchema

variable {σ : Type} [IdSource σ]

/-- The fields of records from the given index on; `seen` holds the names of those before. -/
def loadFrom (mode : StrictMode) (index : Nat) (seen : List String) :
    List FieldRecord → Load σ (List FieldSchema)
  | [] => pure []
  | record :: rest => do
      let path := itemPath "$" index
      let field ← record.toField path mode
      if seen.contains field.name then
        Load.refuse (.duplicateName (path ++ ".name") field.name)
      let others ← loadFrom mode (index + 1) (field.name :: seen) rest
      pure (field :: others)

def ofRecords (records : List FieldRecord) (mode : StrictMode) : Load σ FormSchema := do
  let fields ← loadFrom mode 0 [] records
  pure ⟨fields⟩

end FormSchema

/-- The options that are stored for a field without options of its own. -/
def defaultOptions : List String := ["Option 1"]

/-- The record of a field. Absent patterns and messages are stored as empty texts. -/
def FieldSchema.toRecord (field : FieldSchema) : FieldRecord :=
  { id := some field.id
    name := field.name
    label := some field.label
    type := field.type
    options :=
      match field.kind with
      | .select options => options
      | _ => defaultOptions
    columns := some (field.columns.span : Int)
    validation :=
      { required := field.validation.required
        min := field.validation.min
        max := field.validation.max
        pattern := some (field.validation.pattern.getD "")
        customMessage := some (field.validation.customMessage.getD "")
        crossField := field.validation.crossField.map .reference }
    conditions := field.conditions.map fun c => ⟨some c.logic, c.field, c.operator, c.value⟩
    group := field.group }

namespace FormSchema

def toRecords (form : FormSchema) : List FieldRecord := form.fields.map FieldSchema.toRecord

def toJson (form : FormSchema) : Json := .array (form.toRecords.map FieldRecord.toJson)

def textWith (form : FormSchema) (json : JsonCodec) : String := json.pretty form.toJson

def toJsonText (form : FormSchema) : String := form.textWith .standard

end FormSchema

namespace FieldRecord

def listWith (json : JsonCodec) (stored : String) : Except Fault (List FieldRecord) :=
  json.readWith (readList (some 126)) stored

def listOfText (stored : String) : Except Fault (List FieldRecord) := listWith .standard stored

def listOfJson (value : Json) : Except Fault (List FieldRecord) :=
  Json.decodeWith (readList none) value

end FieldRecord

end FormCompiler
