import FormCompiler.Error
import FormCompiler.Json.Decoder
import FormCompiler.Logging.Directive
import FormCompiler.Text.Lower

/-!
# Log settings

The level and the format of log output, where they come from, and the check of the level before log
output is set up.
-/

namespace FormCompiler

/-- The shape of log output. -/
inductive LogFormat where
  | compact
  | full
  | json
  deriving DecidableEq

namespace LogFormat

def all : List LogFormat := [compact, full, json]

def name : LogFormat → String
  | compact => "compact"
  | full => "full"
  | json => "json"

def table : List (String × LogFormat) := all.map fun format => (format.name, format)

/-- The format that a setting names, in whatever case. -/
def parse (setting : String) : Except ConfigProblem LogFormat :=
  let lowered := String.ofList (Text.lower setting.toList)
  match table.lookup lowered with
  | some format => .ok format
  | none => .error (.logFormat lowered)

end LogFormat

/-- The settings of log output. -/
structure LoggingConfig where
  level : String
  format : LogFormat
  threadIds : Bool
  sourceLocation : Bool
  deriving DecidableEq

/-- The settings that the environment may override, by their names. -/
abbrev Environment := String → Option String

namespace LoggingConfig

def defaults : LoggingConfig := ⟨"info", .compact, false, false⟩

/-- The settings for a number of requests to say more. -/
def ofVerbosity : Nat → LoggingConfig
  | 0 => { defaults with level := "warn" }
  | 1 => { defaults with level := "info" }
  | 2 => { defaults with level := "debug", sourceLocation := true }
  | _ => ⟨"trace", .full, true, true⟩

open Node RecordField in
def read : Node → Except Fault LoggingConfig :=
  readRecord
    [withDefault "level" readText fun value config => { config with level := value },
     withDefault "format" (readChoice LogFormat.table) fun value config =>
       { config with format := value },
     withDefault "thread_ids" readBoolean fun value config => { config with threadIds := value },
     withDefault "source_location" readBoolean fun value config =>
       { config with sourceLocation := value }]
    defaults

def toJson (config : LoggingConfig) : Json :=
  .object
    [("level", .text config.level),
     ("format", .text config.format.name),
     ("thread_ids", .boolean config.threadIds),
     ("source_location", .boolean config.sourceLocation)]

/-- The settings with the overrides of the environment. A format that is none is passed over. -/
def override (environment : Environment) (config : LoggingConfig) : LoggingConfig :=
  { config with
    level := (environment "RUST_LOG").getD config.level
    format :=
      ((environment "FORMWRIGHT_LOG_FORMAT").bind fun setting =>
        (LogFormat.parse setting).toOption).getD config.format }

/-- Sets up log output, which can be done once. The level is checked first. -/
def install (config : LoggingConfig) (installed : Bool) : Except Error Unit :=
  if !Logging.isDirectiveList config.level then .error (.config (.logLevel config.level))
  else if installed then .error .loggingInstalled
  else .ok ()

end LoggingConfig

end FormCompiler
