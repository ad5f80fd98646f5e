import FormCompiler.Diff.Report
import FormCompiler.Extraction.Basic
import FormCompiler.Record.Load
import FormCompiler.Source.Component
import FormCompiler.Testing.Corpus
import FormCompiler.Testing.SnapshotStore

/-!
# Running golden tests

A case is compiled, its source is checked for balance and for the names that extraction gives back,
and compared with its snapshot. Depending on the settings a missing snapshot is created and a
different one replaced, after a copy of it is made.
-/

namespace FormCompiler

/-- The patterns of the parts that may vary; a text that is no pattern is an error. -/
def PatternLanguage.readMasks (language : PatternLanguage) (sources : List String) :
    Except TestError (List Matcher) :=
  sources.mapM fun source =>
    match language.matcher? source with
    | some pattern => .ok pattern
    | none => .error (.badPattern source)

def readMasks (sources : List String) : Except TestError (List Matcher) :=
  PatternLanguage.plain.readMasks sources

/-- The settings of test runs. -/
structure TestSettings where
  corpus : Corpus
  snapshots : SnapshotStore
  update : Bool
  createMissing : Bool
  diff : Diff.Options
  verbose : Bool
  /-- The language of the patterns of expected errors. -/
  patterns : PatternLanguage := .plain

namespace TestSettings

/-- Whether a setting of the environment means yes. -/
def isYes (setting : Option String) : Bool :=
  match setting with
  | some value => value = "1" || Text.asciiLower value = "true"
  | none => false

/-- The settings that an environment gives, with a corpus for the case that it names none. -/
def ofEnvironment (defaultCorpus : String) (environment : Environment) : TestSettings :=
  let update := isYes (environment "UPDATE_GOLDEN")
  { corpus := ⟨(environment "GOLDEN_CORPUS_DIR").getD defaultCorpus⟩
    snapshots :=
      ⟨(environment "GOLDEN_SNAPSHOT_DIR").getD (Path.join defaultCorpus "snapshots")⟩
    update
    createMissing := update
    diff := .defaults
    verbose := isYes (environment "GOLDEN_VERBOSE") }

end TestSettings

structure TestResult where
  name : String
  passed : Bool
  error : Option String
  difference : Option String
  elapsed : Nat
  updated : Bool
  deriving DecidableEq

namespace TestResult

/-- The printed result. The difference is shown for a failed test, and for every one if asked. -/
def display (result : TestResult) (colored verbose : Bool) : String :=
  let paint := Terminal.paint colored
  (if result.passed then paint .boldGreen "PASS" else paint .boldRed "FAIL") ++ " " ++
    result.name ++ " (" ++ Text.decimal result.elapsed ++ "ms)\n" ++
    (match result.error with
      | some error => "  " ++ paint .red "Error" ++ ": " ++ error ++ "\n"
      | none => "") ++
    (match result.difference with
      | some difference => if verbose || !result.passed then difference ++ "\n" else ""
      | none => "") ++
    (if result.updated then "  " ++ paint .yellow "Snapshot updated" ++ "\n" else "")

end TestResult

/-- What came of a case that ran to its end. -/
structure Execution where
  passed : Bool
  difference : Option String
  updated : Bool
  deriving DecidableEq

namespace TestCase

/-- A test that passes with nothing to show. -/
def success : Execution := ⟨true, none, false⟩

/-- Whether the message of an error is as expected. -/
def checkError (case : TestCase) (patterns : PatternLanguage) (message : String) :
    Except TestError Unit :=
  match case.expectations.errorPattern with
  | none => .ok ()
  | some source =>
      match patterns.matcher? source with
      | none => .error (.badErrorPattern source)
      | some pattern =>
          if pattern.occursIn message then .ok () else .error (.errorDiffers message source)

/-- Whether extraction from the source gives back every name of the form. -/
def checkNames (case : TestCase) (form : FormSchema) (source : String) : Except TestError Unit :=
  if case.expectations.roundTrip then
    let recovered :=
      match (extract source (SequentialIds.ofStem "golden")).1 with
      | some extraction => extraction.form.names
      | none => []
    if recovered = form.names then .ok () else .error (.namesDiffer recovered form.names)
  else .ok ()

/-- The source of a case after all checks, or nothing if the case is rejected as expected. -/
def checkedSource (case : TestCase) (patterns : PatternLanguage) :
    Except TestError (Option String) := do
  let records ← (FieldRecord.listOfJson case.input.fields).mapError .json
  let (built, state) :=
    Load.start (FormSchema.ofRecords records case.input.mode) (SequentialIds.ofStem "case")
  match built with
  | .error violation =>
      if case.expectations.succeeds then .error (.compile (.violation violation))
      else do
        case.checkError patterns violation.display
        pure none
  | .ok form =>
      if !case.expectations.succeeds then .error .notRejected
      else
        let config := case.input.emitter.getD .defaults
        let (source, found) ←
          (form.generate config).mapError fun problem => .compile (.config problem)
        match Source.imbalance? source with
        | some imbalance => .error (.unbalanced imbalance)
        | none => do
            -- the codes of loading come first, then those of compilation
            let codes := (state.diagnostics ++ found).map (·.code.name)
            if codes ≠ case.expectations.diagnostics then
              .error (.diagnosticsDiffer case.expectations.diagnostics codes)
            case.checkNames form source
            pure (some source)

end TestCase

namespace TestSettings

def compareSnapshot (settings : TestSettings) (case : TestCase) (source : String)
    (now : ClockReading) : FileAction Execution := do
  let store := settings.snapshots
  let name := case.fullName
  if !store.holds name (← get) then
    if settings.createMissing || settings.update then
      let _ ← store.create name source (some case.notes.description) now
      pure ⟨true, none, true⟩
    else throw (.missingSnapshot name)
  else
    let snapshot ← FileAction.ofExcept (store.load name (← get))
    let comparison := Diff.compare settings.diff [] snapshot.content source
    if comparison.isMatch then pure TestCase.success
    else if settings.update then
      -- the copy is made first, so an update that fails loses nothing
      let _ ← store.backup name now
      store.update name source now
      pure ⟨true, some comparison.output, true⟩
    else pure ⟨false, some comparison.output, false⟩

/-- Runs a case. One that is not enabled passes. -/
def execute (settings : TestSettings) (case : TestCase) (now : ClockReading) :
    FileAction Execution := do
  if !case.notes.enabled then pure TestCase.success
  else
    match ← FileAction.ofExcept (case.checkedSource settings.patterns) with
    | none => pure TestCase.success
    | some source => settings.compareSnapshot case source now

def casePath (settings : TestSettings) (name : String) : String :=
  Path.join (Path.join settings.corpus.folder name) Corpus.caseFile

def resultOf (name : String) (elapsed : Nat) : Except TestError Execution → TestResult
  | .ok execution =>
      { name
        passed := execution.passed
        error := if execution.passed then none else some "Snapshot mismatch"
        difference := execution.difference
        elapsed
        updated := execution.updated }
  | .error error => ⟨name, false, some error.display, none, elapsed, false⟩

/-- Runs the case that is stored under a name. -/
def runNamed (settings : TestSettings) (name : String) (now : ClockReading) (files : FileTree) :
    TestResult × FileTree :=
  let action : FileAction Execution := do
    let case ← FileAction.ofExcept (Corpus.loadCase (← get) (settings.casePath name))
    settings.execute case now
  let (outcome, files) := action.run.run files
  (resultOf name now.elapsed outcome, files)

/-- What a run gives, prints and leaves. -/
structure Run (α : Type) where
  result : Except TestError α
  printed : String
  files : FileTree

/-- Runs one test. A failed one is an error that names what failed. -/
def runTest (settings : TestSettings) (name : String) (now : ClockReading) (files : FileTree) :
    Run TestResult :=
  let (result, files) := settings.runNamed name now files
  { result :=
      if result.passed then .ok result
      else .error (.testFailed name (result.error.getD "Unknown error") result.difference)
    printed := if settings.verbose then result.display settings.diff.colored true else ""
    files }

/-- The cases whose name or category holds a text; a star stands for all cases. -/
def matchingCases (pattern : String) (cases : List TestCase) : List TestCase :=
  if pattern = "*" then cases
  else
    cases.filter fun case =>
      Text.occurs pattern.toList case.name.toList ||
        Text.occurs pattern.toList case.category.toList

/-- Runs tests one after the other, each with a reading of the clock of its own. -/
def runAll (settings : TestSettings) (clock : Clock) :
    List TestCase → FileTree → List TestResult × FileTree
  | [], files => ([], files)
  | case :: rest, files =>
      let (result, files) := settings.runNamed case.fullName clock.now files
      let (results, files) := runAll settings clock.later rest files
      (result :: results, files)

/-- The lines after the results of a batch. -/
def summaryText (colored : Bool) (passed failed : Nat) : String :=
  let paint := Terminal.paint colored
  "\n" ++ paint .bold "=== Test Summary ===" ++ "\n" ++ paint .bold "Results" ++ ": " ++
    paint .green (Text.decimal passed) ++ " passed, " ++ paint .red (Text.decimal failed) ++
    " failed\n"

/-- The run of a batch with some results. Failed tests make it an error. -/
def batchRun (settings : TestSettings) (results : List TestResult) (files : FileTree) :
    Run (List TestResult) :=
  let failed := (results.filter fun result => !result.passed).length
  let colored := settings.diff.colored
  { result := if failed = 0 then .ok results else .error (.testsFailed failed)
    printed :=
      "Running " ++ Text.decimal results.length ++ " tests...\n\n" ++
        String.join (results.map fun result => result.display colored settings.verbose) ++
        summaryText colored (results.length - failed) failed
    files }

/-- Runs the tests that match a text. -/
def runBatch (settings : TestSettings) (pattern : String) (clock : Clock) (files : FileTree) :
    Run (List TestResult) :=
  let chosen := matchingCases pattern (settings.corpus.discover files)
  if chosen.isEmpty then ⟨.error (.noTests pattern), "", files⟩
  else
    let (results, files) := settings.runAll clock chosen files
    settings.batchRun results files

def listTests (settings : TestSettings) (files : FileTree) : List String :=
  (settings.corpus.discover files).map TestCase.fullName

end TestSettings

end FormCompiler
