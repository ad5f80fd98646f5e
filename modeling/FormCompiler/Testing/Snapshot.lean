import FormCompiler.Testing.Error
import FormCompiler.Text.Search

/-!
# Snapshots

A snapshot is the source that a test expects. Its file has header lines, a separator line, and the
source as it is; line ends are read alike in both conventions.
-/

namespace FormCompiler

/-- An expected source. -/
structure Snapshot where
  name : String
  description : Option String
  created : String
  updated : String
  content : String
  deriving DecidableEq

namespace Snapshot

/-- The line between the header and the source. -/
def separator : String := "---"

/-- Every line end in one convention. -/
def normalize (source : String) : String := String.ofList (Text.unifyNewlines source.toList)

def headerLine (key value : String) : String := "# " ++ key ++ ": " ++ value ++ "\n"

def toText (snapshot : Snapshot) : String :=
  headerLine "name" snapshot.name ++
    (match snapshot.description with
      | some description => headerLine "description" description
      | none => "") ++
    headerLine "created" snapshot.created ++ headerLine "updated" snapshot.updated ++ separator ++
    "\n" ++ snapshot.content

/-- A line without the carriage returns at its end. -/
def dropReturns (line : List Char) : List Char :=
  (line.reverse.dropWhile (· == '\r')).reverse

/-- The snapshot with the value of a header key; other keys are passed over. -/
def setHeader (snapshot : Snapshot) (key value : String) : Snapshot :=
  if key = "name" then { snapshot with name := value }
  else if key = "description" then { snapshot with description := some value }
  else if key = "created" then { snapshot with created := value }
  else if key = "updated" then { snapshot with updated := value }
  else snapshot

/-- The snapshot with what a header says; without a colon and a space it says nothing. -/
def addHeader (snapshot : Snapshot) (header : List Char) : Snapshot :=
  match Text.cut? [':', ' '] header with
  | some (key, value) => snapshot.setHeader (String.ofList key) (String.ofList value)
  | none => snapshot

/-- Reads lines after the header lines that `snapshot` holds. The last one is not ended. -/
def parseLines (fallback : String) (snapshot : Snapshot) :
    List (List Char) → Except TestError Snapshot
  | [] => .error (.noSeparator fallback)
  | [_] => .error (.noSeparator fallback)
  | line :: rest =>
      let line := dropReturns line
      if line = separator.toList then
        .ok { snapshot with content := normalize (String.ofList (['\n'].intercalate rest)) }
      else
        match Text.after? ['#', ' '] line with
        | some header => parseLines fallback (snapshot.addHeader header) rest
        | none => .error (.malformedHeader fallback (String.ofList line))

/-- The snapshot of a file text; the fallback is its name when the header gives none. -/
def parse (fallback : String) (text : String) : Except TestError Snapshot :=
  parseLines fallback ⟨fallback, none, "", "", ""⟩ (Text.pieces '\n' text.toList)

end Snapshot

end FormCompiler
