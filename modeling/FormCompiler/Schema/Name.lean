import FormCompiler.Text.Alphanumeric

/-!
# Names of fields

Plain identifier names, which extraction recognises, and the label that a name suggests.
-/

namespace FormCompiler

/-- A character of a plain identifier name. -/
def isNameChar (c : Char) : Bool := Text.isAsciiAlphanumeric c || c = '_' || c = '-'

/-- A name of ASCII letters, digits, underscores and hyphens, at least one. -/
def isIdentifierName (name : String) : Bool :=
  !name.toList.isEmpty && name.toList.all isNameChar

/-- The label of a name: underscores and hyphens become spaces, and each word begins with a
capital. `inWord` says whether the character before belongs to a word. -/
def humanizeFrom (inWord : Bool) : List Char → List Char
  | [] => []
  | c :: rest =>
      let c := if c = '_' || c = '-' then ' ' else c
      if Text.isAsciiAlphanumeric c then
        (if inWord then c else c.toUpper) :: humanizeFrom true rest
      else c :: humanizeFrom false rest

def humanize (name : String) : String := String.ofList (humanizeFrom false name.toList)

end FormCompiler
