import FormCompiler.Schema.Name
import FormCompiler.Text.Blank
import FormCompiler.Text.Search

/-!
# Scanning a text for names

An assignment of a name is the word `name`, an equals sign, and an identifier between quotes of
either kind or as a quoted literal between braces; blanks may stand around the sign and inside the
braces. The scan goes from left to right and continues after each assignment that it finds.
-/

namespace FormCompiler.Extraction

def skipBlanks (text : List Char) : List Char := text.dropWhile Text.isBlank

/-- The identifier between a quote at the beginning of a text and the next one of its kind, and
what follows that. -/
def quotedName? (quote : Char) : List Char → Option (List Char × List Char)
  | [] => none
  | c :: rest =>
      if c = quote then
        let name := rest.takeWhile isNameChar
        if name.isEmpty then none
        else (Text.after? [quote] (rest.dropWhile isNameChar)).map fun tail => (name, tail)
      else none

/-- The identifier of a literal between braces, and what follows the closing brace. -/
def bracedName? (text : List Char) : Option (List Char × List Char) := do
  let inside ← Text.after? ['\x7b'] text
  let (name, rest) ← quotedName? '"' (skipBlanks inside)
  let tail ← Text.after? ['\x7d'] (skipBlanks rest)
  pure (name, tail)

/-- The identifier that an assignment at the beginning of a text assigns, and what follows it. -/
def assignment? (text : List Char) : Option (List Char × List Char) := do
  let afterWord ← Text.after? ['n', 'a', 'm', 'e'] text
  let afterSign ← Text.after? ['='] (skipBlanks afterWord)
  let value := skipBlanks afterSign
  match quotedName? '"' value with
  | some found => pure found
  | none =>
      match quotedName? '\'' value with
      | some found => pure found
      | none => bracedName? value

/-- The assigned identifiers of a text, in order. The first `skip` characters belong to an
assignment that was found before. -/
def assignedFrom : (skip : Nat) → List Char → List (List Char)
  | _, [] => []
  | skip + 1, _ :: rest => assignedFrom skip rest
  | 0, c :: rest =>
      match assignment? (c :: rest) with
      | some (name, tail) => name :: assignedFrom (rest.length - tail.length) rest
      | none => assignedFrom 0 rest

/-- The items of a list without those that occurred before. -/
def distinctFrom (seen : List String) : List String → List String
  | [] => []
  | name :: rest =>
      if seen.contains name then distinctFrom seen rest
      else name :: distinctFrom (name :: seen) rest

/-- The names that a text assigns, each once, in the order of their first assignments. -/
def names (text : String) : List String :=
  distinctFrom [] ((assignedFrom 0 text.toList).map String.ofList)

end FormCompiler.Extraction
