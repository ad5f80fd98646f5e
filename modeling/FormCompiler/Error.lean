import FormCompiler.Config.Problem
import FormCompiler.Files.Tree
import FormCompiler.Json.Document
import FormCompiler.Schema.Violation

/-!
# Errors

Why an operation on forms, designs or the configuration gives no result.
-/

namespace FormCompiler

def Fault.message : Fault → String
  | endsEarly => "the text ends early"
  | malformed => "the text is malformed"
  | mismatch => "the text holds something else"

/-- Why there is no result. -/
inductive Error where
  | violation (violation : Violation)
  | config (problem : ConfigProblem)
  | json (fault : Fault)
  | file (error : FileError)
  /-- Log output has been set up before. -/
  | loggingInstalled
  deriving DecidableEq

def Error.display : Error → String
  | violation v => v.display
  | config problem => problem.display
  | json fault => "JSON error: " ++ fault.message
  | file error => "IO error: " ++ error.message
  | loggingInstalled => "Internal error: Failed to initialize logging"

end FormCompiler
