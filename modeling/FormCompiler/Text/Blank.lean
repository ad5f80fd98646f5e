import FormCompiler.Text.RangeTable

/-!
# Blank characters and trimming

A character is blank when it has the White_Space property. Trimming removes the blanks at both
ends and nothing else.
-/

namespace FormCompiler.Text

/-- The White_Space code points, in order. -/
def blankRanges : RangeTable := [
  (9, 13), (32, 32), (133, 133), (160, 160), (5760, 5760), (8192, 8202), (8232, 8233),
  (8239, 8239), (8287, 8287), (12288, 12288)]

def isBlank (c : Char) : Bool := blankRanges.holds c.toNat

/-- A control character: U+0000 to U+001F and U+007F to U+009F. -/
def isControl (c : Char) : Bool := c.toNat < 32 || (127 ≤ c.toNat && c.toNat ≤ 159)

/-- The text without the blanks at its end. -/
def dropBlankEnd (text : List Char) : List Char := (text.reverse.dropWhile isBlank).reverse

def trim (text : List Char) : List Char := dropBlankEnd (text.dropWhile isBlank)

/-- The text without the blanks at its two ends. -/
def trimmed (text : String) : String := String.ofList (trim text.toList)

def allBlank (text : String) : Bool := text.toList.all isBlank

@[simp] theorem toList_trimmed (text : String) : (trimmed text).toList = trim text.toList := by
  simp [trimmed]

end FormCompiler.Text
