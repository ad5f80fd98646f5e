import FormCompiler.Config.Basic

/-!
# Test cases

A test case gives records, a mode and settings, and says what is expected of them. Cases are stored
as JSON.
-/

namespace FormCompiler

/-- What a case is about. -/
structure TestInput where
  /-- Field records, or the name of a file beside the case that holds them. -/
  fields : Json
  mode : StrictMode
  emitter : Option EmitterConfig

structure Expectations where
  succeeds : Bool
  errorPattern : Option String
  diagnostics : List String
  /-- Whether extraction gives back every name. -/
  roundTrip : Bool
  deriving DecidableEq

structure CaseNotes where
  description : String
  tags : List String
  enabled : Bool
  /-- Cases of a lower number come first. -/
  priority : Nat
  deriving DecidableEq

structure TestCase where
  name : String
  category : String
  input : TestInput
  expectations : Expectations
  notes : CaseNotes

open Node RecordField

/-- The input of a case; `depth` more containers may stand inside it. -/
def TestInput.read (depth : Option Nat) : Node → Except Fault TestInput :=
  readRecord
    [mandatory "fields" (Node.keep depth) fun value input => { input with fields := value },
     withDefault "mode" (readChoice StrictMode.table) fun value input =>
       { input with mode := value },
     withDefault "emitter" (readOptional EmitterConfig.read) fun value input =>
       { input with emitter := value }]
    ⟨.null, .default, none⟩

def TestInput.toJson (input : TestInput) : Json :=
  .object
    [("fields", input.fields),
     ("mode", .text input.mode.name),
     ("emitter", Json.optional EmitterConfig.toJson input.emitter)]

def Expectations.read : Node → Except Fault Expectations :=
  readRecord
    [mandatory "should_succeed" readBoolean fun value e => { e with succeeds := value },
     withDefault "error_pattern" (readOptional readText) fun value e =>
       { e with errorPattern := value },
     withDefault "expected_diagnostics" (readList readText) fun value e =>
       { e with diagnostics := value },
     withDefault "round_trip" readBoolean fun value e => { e with roundTrip := value }]
    ⟨false, none, [], true⟩

def Expectations.toJson (e : Expectations) : Json :=
  .object
    [("should_succeed", .boolean e.succeeds),
     ("error_pattern", Json.optional Json.text e.errorPattern),
     ("expected_diagnostics", Json.texts e.diagnostics),
     ("round_trip", .boolean e.roundTrip)]

/-- The whole numbers of 32 bits without a sign. -/
def readPriority (node : Node) : Except Fault Nat :=
  (readWhole 0 (UInt32.size - 1) node).map Int.toNat

def CaseNotes.read : Node → Except Fault CaseNotes :=
  readRecord
    [mandatory "description" readText fun value notes => { notes with description := value },
     withDefault "tags" (readList readText) fun value notes => { notes with tags := value },
     withDefault "enabled" readBoolean fun value notes => { notes with enabled := value },
     withDefault "priority" readPriority fun value notes => { notes with priority := value }]
    ⟨"", [], true, 100⟩

def CaseNotes.toJson (notes : CaseNotes) : Json :=
  .object
    [("description", .text notes.description),
     ("tags", Json.texts notes.tags),
     ("enabled", .boolean notes.enabled),
     ("priority", Json.natural notes.priority)]

namespace TestCase

/-- A case; `depth` more containers may stand inside it. -/
def read (depth : Option Nat) : Node → Except Fault TestCase :=
  readRecord
    [mandatory "name" readText fun value case => { case with name := value },
     mandatory "category" readText fun value case => { case with category := value },
     mandatory "input" (TestInput.read (depth.map (· - 1))) fun value case =>
       { case with input := value },
     mandatory "expectations" Expectations.read fun value case =>
       { case with expectations := value },
     mandatory "metadata" CaseNotes.read fun value case => { case with notes := value }]
    ⟨"", "", ⟨.null, .default, none⟩, ⟨false, none, [], true⟩, ⟨"", [], true, 100⟩⟩

def toJson (case : TestCase) : Json :=
  .object
    [("name", .text case.name),
     ("category", .text case.category),
     ("input", case.input.toJson),
     ("expectations", case.expectations.toJson),
     ("metadata", case.notes.toJson)]

def ofText (stored : String) : Except Fault TestCase := Json.readWith (read (some 126)) stored

def ofJson (value : Json) : Except Fault TestCase := Json.decodeWith (read none) value

def fullName (case : TestCase) : String := case.category ++ "/" ++ case.name

end TestCase

/-! ## Choosing cases -/

/-- The cases of a category; a star stands for every category. -/
def casesOfCategory (category : String) (cases : List TestCase) : List TestCase :=
  cases.filter fun case => case.category = category || category = "*"

/-- The cases with one of some tags; no tags choose every case. -/
def casesWithTags (tags : List String) (cases : List TestCase) : List TestCase :=
  if tags.isEmpty then cases else cases.filter fun case => tags.any case.notes.tags.contains

def enabledCases (cases : List TestCase) : List TestCase := cases.filter (·.notes.enabled)

end FormCompiler
