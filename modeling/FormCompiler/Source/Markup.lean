import FormCompiler.Source.Literal
import FormCompiler.Text.Alphanumeric

/-!
# Texts in markup

Attributes and the text between tags. A plain text stands as it is; any other stands as a literal
between braces.
-/

namespace FormCompiler.Source

def braced (text : String) : String := "\x7b" ++ literal text ++ "\x7d"

/-- A character that a quoted attribute takes as it is. -/
def isPlainInAttribute (c : Char) : Bool :=
  !(c = '"' || c = '\'' || c = '\x7b' || c = '\x7d' || c = '<' || c = '>' || c = '&' || c = '\\' ||
    Text.isControl c)

/-- Whether an attribute can hold the text between its quotes. -/
def isPlainAttribute (text : String) : Bool :=
  !text.toList.isEmpty && text.toList.all isPlainInAttribute

/-- The attribute of a name with a text as its value. -/
def attributeText (name text : String) : String :=
  if isPlainAttribute text then name ++ "=\"" ++ text ++ "\"" else name ++ "=" ++ braced text

def plainMarks : List Char := " _-.,:;!?/+*#%@$=~^|".toList

/-- A character that stands between tags as it is. -/
def isPlainBetweenTags (c : Char) : Bool := Text.isAlphanumeric c || plainMarks.contains c

/-- Whether the text can stand between tags as it is. Blanks at its ends would be lost there. -/
def isPlainText (text : String) : Bool :=
  !text.toList.isEmpty && Text.trim text.toList = text.toList &&
    text.toList.all isPlainBetweenTags

def childText (text : String) : String := if isPlainText text then text else braced text

end FormCompiler.Source
