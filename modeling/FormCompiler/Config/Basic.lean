import FormCompiler.Json.Codec
import FormCompiler.Logging.Basic
import FormCompiler.Schema.StrictMode
import FormCompiler.Source.Settings
import FormCompiler.Toml.Printer
import FormCompiler.Toml.Reader

/-!
# Configuration

The settings of the generated source, of the reading of records and of log output, in one record
with three sections. Files hold it in TOML or in JSON.
-/

namespace FormCompiler

def version : String := "0.1.0"

def StrictMode.default : StrictMode := .warn

structure Config where
  emitter : EmitterConfig
  mode : StrictMode
  logging : LoggingConfig
  deriving DecidableEq

/-! ## Stored records -/

open Node RecordField

namespace EmitterConfig

/-- The whole numbers of 64 bits without a sign. -/
def readWidth (node : Node) : Except Fault Nat :=
  (readWhole 0 (UInt64.size - 1) node).map Int.toNat

def read : Node → Except Fault EmitterConfig :=
  readRecord
    [withDefault "component_name" readText fun value config =>
       { config with componentName := value },
     withDefault "indent_width" readWidth fun value config => { config with indentWidth := value },
     withDefault "submit_label" readText fun value config => { config with submitLabel := value }]
    defaults

def toJson (config : EmitterConfig) : Json :=
  .object
    [("component_name", .text config.componentName),
     ("indent_width", Json.natural config.indentWidth),
     ("submit_label", .text config.submitLabel)]

end EmitterConfig

namespace Config

def defaults : Config := ⟨.defaults, .default, .defaults⟩

def readMode : Node → Except Fault StrictMode :=
  readRecord [withDefault "mode" (readChoice StrictMode.table) fun value _ => value] .default

def read : Node → Except Fault Config :=
  readRecord
    [withDefault "emitter" EmitterConfig.read fun value config => { config with emitter := value },
     withDefault "schema" readMode fun value config => { config with mode := value },
     withDefault "logging" LoggingConfig.read fun value config => { config with logging := value }]
    defaults

def toJson (config : Config) : Json :=
  .object
    [("emitter", config.emitter.toJson),
     ("schema", .object [("mode", .text config.mode.name)]),
     ("logging", config.logging.toJson)]

/-- The settings as a TOML document, which has no whole numbers beyond 63 bits. -/
def toToml? (config : Config) : Option String :=
  if config.emitter.indentWidth ≤ Int64.maxValue.toInt then
    some <| Toml.documentText
      [("emitter",
        [("component_name", Toml.textValue config.emitter.componentName),
         ("indent_width", Text.decimal config.emitter.indentWidth),
         ("submit_label", Toml.textValue config.emitter.submitLabel)]),
       ("schema", [("mode", Toml.textValue config.mode.name)]),
       ("logging",
        [("level", Toml.textValue config.logging.level),
         ("format", Toml.textValue config.logging.format.name),
         ("thread_ids", Toml.booleanValue config.logging.threadIds),
         ("source_location", Toml.booleanValue config.logging.sourceLocation)])]
  else none

def problem? (config : Config) : Option ConfigProblem := config.emitter.problem?

/-! ## Overrides -/

/-- A change of the settings. What was changed before a problem stays changed. -/
abbrev Change := ExceptT ConfigProblem (StateM Config)

/-- Changes the settings where the environment has a setting of a name. -/
def overrideBy (environment : Environment) (name : String)
    (apply : String → Except ConfigProblem (Config → Config)) : Change Unit :=
  match environment name with
  | none => pure ()
  | some setting =>
      match apply setting with
      | .ok change => modify change
      | .error problem => throw problem

/-- The width of a setting: a word of 64 bits between blanks. -/
def widthOf (setting : String) : Except ConfigProblem Nat :=
  match Coercion.word? 10 (Text.trim setting.toList) with
  | some width => .ok width
  | none => .error (.widthSetting setting)

/-- Applies the overrides of the environment, one after the other, and checks the result. -/
def applyOverrides (environment : Environment) : Change Unit := do
  overrideBy environment "FORMWRIGHT_COMPONENT_NAME" fun setting =>
    .ok fun config => { config with emitter := { config.emitter with componentName := setting } }
  overrideBy environment "FORMWRIGHT_INDENT_WIDTH" fun setting => do
    let width ← widthOf setting
    pure fun config => { config with emitter := { config.emitter with indentWidth := width } }
  overrideBy environment "FORMWRIGHT_SUBMIT_LABEL" fun setting =>
    .ok fun config => { config with emitter := { config.emitter with submitLabel := setting } }
  overrideBy environment "FORMWRIGHT_STRICT_MODE" fun setting => do
    let mode ← (StrictMode.parse setting).mapError .strictMode
    pure fun config => { config with mode }
  match (← get).problem? with
  | none => pure ()
  | some problem => throw problem

/-- Applies all overrides of the environment, those of log output last. -/
def mergeEnvironment (environment : Environment) : Change Unit := do
  applyOverrides environment
  modify fun config => { config with logging := config.logging.override environment }

/-! ## Files -/

def isToml (path : String) : Bool := Path.extension? path = some "toml"

def ofToml? (content : String) : Option Config :=
  (Toml.parse? content).bind fun value => (Json.decodeWith read value).toOption

def ofFile (files : FileTree) (path : String) : Except Error Config := do
  let content ← (files.read path).mapError .file
  let config ←
    if isToml path then
      match ofToml? content with
      | some config => .ok config
      | none => .error (.config (.tomlFile path))
    else (Json.readWith read content).mapError .json
  match config.problem? with
  | none => pure config
  | some problem => .error (.config problem)

/-- The settings of a file, or the default ones, with the overrides of the environment. -/
def load (files : FileTree) (path : Option String) (environment : Environment) :
    Except Error Config := do
  let config ←
    match path with
    | some path => ofFile files path
    | none => .ok defaults
  match (mergeEnvironment environment).run config with
  | (.ok (), config) => pure config
  | (.error problem, _) => .error (.config problem)

def fileText (config : Config) (path : String) : Except Error String :=
  if isToml path then
    match config.toToml? with
    | some content => .ok content
    | none => .error (.config .notStorable)
  else .ok config.toJson.pretty

/-- Stores the settings at a path; folders that are missing are made. -/
def save (config : Config) (path : String) (files : FileTree) : Except Error Unit × FileTree :=
  match config.fileText path with
  | .error error => (.error error, files)
  | .ok content =>
      match files.makeParents path with
      | .error error => (.error (.file error), files)
      | .ok files =>
          match files.write path content with
          | .error error => (.error (.file error), files)
          | .ok files => (.ok (), files)

end Config

end FormCompiler
