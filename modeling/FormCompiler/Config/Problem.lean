import FormCompiler.Text.Search

/-!
# Problems of the configuration

Why a configuration, a setting of the environment or a log setting is refused.
-/

namespace FormCompiler

def maxIndentWidth : Nat := 8

/-- A reason to refuse a configuration. -/
inductive ConfigProblem where
  | componentName (name : String)
  | indentWidth (width : Nat)
  /-- The file at the path holds no configuration in TOML. -/
  | tomlFile (path : String)
  /-- The configuration has no form in TOML. -/
  | notStorable
  /-- The environment gives a width that is no number. -/
  | widthSetting (setting : String)
  | strictMode (name : String)
  | logFormat (name : String)
  /-- The level is no list of log directives. -/
  | logLevel (level : String)
  deriving DecidableEq

namespace ConfigProblem

def message : ConfigProblem → String
  | componentName name =>
      "Component name '" ++ name ++ "' must be an identifier starting with an uppercase letter"
  | indentWidth width =>
      "Indent width " ++ Text.decimal width ++ " is outside 1..=" ++ Text.decimal maxIndentWidth
  | tomlFile path => "Invalid TOML in " ++ path
  | notStorable => "Failed to serialize configuration"
  | widthSetting setting => "Invalid FORMWRIGHT_INDENT_WIDTH '" ++ setting ++ "'"
  | strictMode name => "Unknown strict mode '" ++ name ++ "', expected 'strict' or 'warn'"
  | logFormat name => "Invalid log format '" ++ name ++ "', expected compact, full or json"
  | logLevel level => "Invalid log level '" ++ level ++ "'"

def display (problem : ConfigProblem) : String := "Configuration error: " ++ problem.message

/-- Whether the problem comes from another one, which a reader of the text met. -/
def hasCause : ConfigProblem → Bool
  | tomlFile _ => true
  | notStorable => true
  | widthSetting _ => true
  | logLevel _ => true
  | componentName _ => false
  | indentWidth _ => false
  | strictMode _ => false
  | logFormat _ => false

end ConfigProblem

end FormCompiler
