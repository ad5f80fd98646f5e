import FormCompiler.Testing.Case
import FormCompiler.Testing.Error

/-!
# The corpus

A corpus is a folder with a file `test.json` for each case. Cases are found in the order of their
paths and sorted by priority; a file that holds no case is passed over.
-/

namespace FormCompiler

/-- The cases below a folder. -/
structure Corpus where
  folder : String
  deriving DecidableEq

namespace Corpus

def caseFile : String := "test.json"

def loadValue (files : FileTree) (path : String) : Except TestError Json := do
  let stored ← (files.read path).mapError .file
  (Json.parse stored).mapError .json

/-- The case in the file at a path; the records may stand in a file beside it. -/
def loadCase (files : FileTree) (path : String) : Except TestError TestCase := do
  let stored ← (files.read path).mapError .file
  let case ← (TestCase.ofText stored).mapError .json
  match case.input.fields with
  | .text file =>
      if Text.endsWith ".json".toList file.toList then
        let fields ← loadValue files (Path.join (Path.parentPath path) file)
        pure { case with input := { case.input with fields } }
      else pure case
  | _ => pure case

/-- The path of a file below the corpus. -/
def pathOf (corpus : Corpus) (key : FileKey) : String :=
  if key.isEmpty then corpus.folder else Path.join corpus.folder ("/".intercalate key)

/-- The files of cases below the corpus, in order. -/
def caseFiles (corpus : Corpus) (files : FileTree) : List String :=
  match files.locate corpus.folder with
  | .error _ => []
  | .ok folder =>
      ((files.filesBelow folder).filter fun key => (folder ++ key).getLast? = some caseFile).map
        corpus.pathOf

/-- All cases of the corpus, sorted by priority. -/
def discover (corpus : Corpus) (files : FileTree) : List TestCase :=
  ((corpus.caseFiles files).filterMap fun path => (loadCase files path).toOption).mergeSort
    fun a b => a.notes.priority ≤ b.notes.priority

/-- The names of the folders in the corpus, in order, but for the one with the snapshots. -/
def categories (corpus : Corpus) (files : FileTree) : Except TestError (List String) :=
  match files.look corpus.folder with
  | .error _ => .ok []
  | .ok (.file _) => .error (.file .notFolder)
  | .ok .folder =>
      match files.locate corpus.folder with
      | .error _ => .ok []
      | .ok folder => .ok ((files.foldersIn folder).filter fun name => name ≠ "snapshots")

/-! ## A new corpus -/

def folders : List String := ["basic", "conditions", "validation", "invalid", "regression"]

def sampleCase : TestCase :=
  { name := "single-input"
    category := "basic"
    input :=
      { fields :=
          .array
            [.object
              [("label", .text "Email"), ("name", .text "email"), ("type", .text "input"),
               ("validation", .object [("required", .boolean true)])]]
        mode := .warn
        emitter := none }
    expectations := ⟨true, none, [], true⟩
    notes := ⟨"One required text input", ["basic", "smoke"], true, 1⟩ }

/-- Makes the folders of a new corpus and stores the sample case. -/
def init (corpus : Corpus) : FileAction Unit := do
  for folder in folders do
    FileAction.change (·.makeFolders (Path.join corpus.folder folder))
  let folder := Path.join corpus.folder "basic/single-input"
  FileAction.change (·.makeFolders folder)
  FileAction.change (·.write (Path.join folder caseFile) sampleCase.toJson.pretty)

end Corpus

/-! ## Statistics -/

/-- Numbers of cases, by category and by tag in the order of their names. -/
structure Statistics where
  total : Nat
  enabled : Nat
  disabled : Nat
  categories : List (String × Nat)
  tags : List (String × Nat)
  deriving DecidableEq

namespace Statistics

/-- Counts one more of a name. -/
def count (name : String) : List (String × Nat) → List (String × Nat)
  | [] => [(name, 1)]
  | (other, number) :: rest =>
      if name < other then (name, 1) :: (other, number) :: rest
      else if name = other then (other, number + 1) :: rest
      else (other, number) :: count name rest

/-- How often each name occurs. -/
def counts (names : List String) : List (String × Nat) := names.foldl (fun all n => count n all) []

def ofCases (cases : List TestCase) : Statistics :=
  let enabled := (enabledCases cases).length
  { total := cases.length
    enabled
    disabled := cases.length - enabled
    categories := counts (cases.map (·.category))
    tags := counts (cases.flatMap (·.notes.tags)) }

/-- A heading and a line for each name, unless there is none. -/
def countLines (heading : String) (numbers : List (String × Nat)) : String :=
  if numbers.isEmpty then ""
  else
    "\n" ++ heading ++ "\n" ++
      String.join (numbers.map fun (name, number) =>
        "  " ++ name ++ ": " ++ Text.decimal number ++ "\n")

def display (s : Statistics) : String :=
  "=== Corpus Statistics ===\n" ++ "Total tests: " ++ Text.decimal s.total ++ "\n" ++
    "Enabled: " ++ Text.decimal s.enabled ++ "\n" ++
    "Disabled: " ++ Text.decimal s.disabled ++ "\n" ++
    countLines "Tests by category:" s.categories ++ countLines "Tests by tag:" s.tags

end Statistics

end FormCompiler
