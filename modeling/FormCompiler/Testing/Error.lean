import FormCompiler.Error
import FormCompiler.Source.Balance
import FormCompiler.Text.Shown

/-!
# Errors of golden tests

Why a test case, a snapshot or a test run gives no result, and why a test fails.
-/

namespace FormCompiler

/-- Why a golden test has no result or fails. -/
inductive TestError where
  | file (error : FileError)
  | json (fault : Fault)
  /-- The form of a test case does not compile. -/
  | compile (error : Error)
  | missingSnapshot (name : String)
  | noSeparator (snapshot : String)
  | malformedHeader (snapshot line : String)
  | snapshotNotFound (name path : String)
  | noTests (pattern : String)
  | badPattern (pattern : String)
  | badErrorPattern (pattern : String)
  | notRejected
  | errorDiffers (message pattern : String)
  | unbalanced (imbalance : Source.Imbalance)
  | diagnosticsDiffer (expected actual : List String)
  | namesDiffer (recovered expected : List String)
  | testFailed (name error : String) (difference : Option String)
  | testsFailed (count : Nat)
  deriving DecidableEq

namespace TestError

/-- The kinds of errors that messages tell apart. -/
inductive Kind where
  | io
  | json
  | compiler
  | mismatch
  | corpus
  | failure
  deriving DecidableEq

def kind : TestError → Kind
  | file _ => .io
  | json _ => .json
  | compile _ => .compiler
  | missingSnapshot _ => .mismatch
  | noSeparator _ => .corpus
  | malformedHeader _ _ => .corpus
  | snapshotNotFound _ _ => .corpus
  | noTests _ => .corpus
  | badPattern _ => .corpus
  | badErrorPattern _ => .corpus
  | notRejected => .failure
  | errorDiffers _ _ => .failure
  | unbalanced _ => .failure
  | diagnosticsDiffer _ _ => .failure
  | namesDiffer _ _ => .failure
  | testFailed _ _ _ => .failure
  | testsFailed _ => .failure

/-- What a message of the kind begins with. -/
def Kind.label : Kind → String
  | io => "IO error: "
  | json => "JSON error: "
  | compiler => "Formwright error: "
  | mismatch => "Snapshot mismatch: "
  | corpus => "Corpus error: "
  | failure => "Test failed: "

def detail : TestError → String
  | file error => error.message
  | json fault => fault.message
  | compile error => error.display
  | missingSnapshot name =>
      "Snapshot '" ++ name ++ "' does not exist. Run with UPDATE_GOLDEN=1 to create it."
  | noSeparator snapshot => "Snapshot '" ++ snapshot ++ "' has no '---' separator"
  | malformedHeader snapshot line =>
      "Snapshot '" ++ snapshot ++ "' has a malformed header line: " ++ Text.shown line
  | snapshotNotFound name path =>
      "Snapshot '" ++ name ++ "' not found at " ++ Text.shownPath path
  | noTests pattern => "No tests found matching pattern '" ++ pattern ++ "'"
  | badPattern pattern => "Invalid regex pattern: " ++ pattern
  | badErrorPattern pattern => "Invalid error pattern: " ++ pattern
  | notRejected => "Expected the field records to be rejected"
  | errorDiffers message pattern =>
      "Error '" ++ message ++ "' does not match pattern '" ++ pattern ++ "'"
  | unbalanced imbalance => "Emitted source is unbalanced: " ++ imbalance.message
  | diagnosticsDiffer expected actual =>
      "Expected diagnostics " ++ Text.shownList expected ++ ", got " ++ Text.shownList actual
  | namesDiffer recovered expected =>
      "Extraction recovered " ++ Text.shownList recovered ++ ", expected " ++
        Text.shownList expected
  | testFailed name error difference =>
      "Test '" ++ name ++ "' failed: " ++ error ++
        match difference with
        | some difference => "\n" ++ difference
        | none => ""
  | testsFailed count => Text.decimal count ++ " test(s) failed"

def display (error : TestError) : String := error.kind.label ++ error.detail

end TestError

/-! ## Actions on files -/

/-- An action on a file tree that may fail; what was changed before stays changed. -/
abbrev FileAction := ExceptT TestError (StateM FileTree)

namespace FileAction

def change (operation : FileTree → Except FileError FileTree) : FileAction Unit := do
  match operation (← get) with
  | .ok files => set files
  | .error error => throw (.file error)

def ofExcept {α : Type} : Except TestError α → FileAction α
  | .ok value => pure value
  | .error error => throw error

end FileAction

end FormCompiler
