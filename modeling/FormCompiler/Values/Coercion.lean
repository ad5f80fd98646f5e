import FormCompiler.Binary64.Shortest
import FormCompiler.Numeral.Reader
import FormCompiler.Text.Blank
import FormCompiler.Text.Search

/-!
# Numbers and texts in a browser

How the text of a form value becomes a number, and how a number becomes text, when a condition
compares the two.
-/

namespace FormCompiler.Coercion

/-- Whether a character is an ASCII letter other than the mark of an exponent. -/
def isStrayLetter (c : Char) : Bool := c.isAlpha && c ≠ 'e' && c ≠ 'E'

/-- The finite number that a text between blanks denotes as a decimal numeral. -/
def decimalNumber? (value : String) : Option Binary64 :=
  let trimmed := Text.trim value.toList
  if trimmed.isEmpty || trimmed.any isStrayLetter then none
  else ((Numeral.read? trimmed).map Binary64.ofDecimal).filter Binary64.isFinite

def digit? (radix : Nat) (c : Char) : Option Nat :=
  let value? :=
    if c.isDigit then some (c.toNat - 48)
    else if 'a' ≤ c && c ≤ 'z' then some (c.toNat - 87)
    else if 'A' ≤ c && c ≤ 'Z' then some (c.toNat - 55)
    else none
  value?.filter (· < radix)

def digitsValue? (radix : Nat) : Nat → List Char → Option Nat
  | value, [] => some value
  | value, c :: rest =>
      match digit? radix c with
      | some digit => digitsValue? radix (value * radix + digit) rest
      | none => none

/-- A word of 64 bits in a radix, after an optional plus sign. -/
def word? (radix : Nat) (text : List Char) : Option Nat :=
  let digits := if text.head? = some '+' then text.drop 1 else text
  if digits.isEmpty then none else (digitsValue? radix 0 digits).filter (· < UInt64.size)

/-- The radix that a mark such as `0x` announces, and the digits after it. -/
def radix? : List Char → Option (Nat × List Char)
  | '0' :: mark :: digits =>
      if mark = 'x' || mark = 'X' then some (16, digits)
      else if mark = 'o' || mark = 'O' then some (8, digits)
      else if mark = 'b' || mark = 'B' then some (2, digits)
      else none
  | _ => none

/-- The number of a text: a blank text is zero, and a text that is no numeral is undefined. -/
def textToNumber (value : String) : Binary64 :=
  let trimmed := Text.trimmed value
  if trimmed = "" then .zero
  else if trimmed = "Infinity" || trimmed = "+Infinity" then .infinity false
  else if trimmed = "-Infinity" then .infinity true
  else
    match radix? trimmed.toList with
    | some (radix, digits) => ((word? radix digits).map Binary64.ofNat).getD .undefined
    | none => (decimalNumber? trimmed).getD .undefined

/-- Numbers with an exponent from -6 to 20 are written positionally. -/
def numberStyle : NumeralStyle :=
  ⟨fun exponent => -7 < exponent && exponent < 21, false, true⟩

/-- The text of a number. Both zeros are written alike. -/
def numberToText (x : Binary64) : String :=
  if x.isUndefined then "NaN"
  else if x.isInfinite then if x.isNegative then "-Infinity" else "Infinity"
  else if x.isZero then "0"
  else String.ofList (x.finiteText numberStyle)

end FormCompiler.Coercion
