import FormCompiler.Text.Alphanumeric
import FormCompiler.Text.Blank
import FormCompiler.Text.Search

/-!
# Texts in generated source

Every text of a user reaches the source as a quoted literal, or bare where the grammar takes it as
it is. A literal escapes quotes of both kinds, backslashes, line ends and control characters, so
it never ends early and never spans two lines.
-/

namespace FormCompiler.Source

/-- The escape with four hexadecimal digits. -/
def codeEscape (c : Char) : List Char := '\\' :: 'u' :: Text.paddedHex 4 c.toNat

def literalChar (c : Char) : List Char :=
  if c = '\\' || c = '"' || c = '\'' then ['\\', c]
  else if c = '\n' then ['\\', 'n']
  else if c = '\r' then ['\\', 'r']
  else if c = '\t' then ['\\', 't']
  else if c.toNat = 0x2028 || c.toNat = 0x2029 || Text.isControl c then codeEscape c
  else [c]

def literal (text : String) : String :=
  "\"" ++ String.ofList (text.toList.flatMap literalChar) ++ "\""

/-- A character that can begin an identifier. -/
def beginsIdentifier (c : Char) : Bool := Text.isAsciiLetter c || c = '_' || c = '$'

def isIdentifierChar (c : Char) : Bool := Text.isAsciiAlphanumeric c || c = '_' || c = '$'

/-- Whether a text is an identifier: a letter, underscore or dollar sign, then any of those and
digits. -/
def isIdentifier (text : String) : Bool :=
  match text.toList with
  | [] => false
  | first :: rest => beginsIdentifier first && rest.all isIdentifierChar

def objectKey (name : String) : String := if isIdentifier name then name else literal name

def memberAccess (object name : String) : String :=
  if isIdentifier name then object ++ "." ++ name else object ++ "[" ++ literal name ++ "]"

theorem toList_literal (text : String) :
    (literal text).toList = '"' :: (text.toList.flatMap literalChar ++ ['"']) := by
  simp [literal]

end FormCompiler.Source
