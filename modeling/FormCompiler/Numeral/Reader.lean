import FormCompiler.Binary64.Rounding

/-!
# Reading decimal numerals

A numeral is an optional sign, digits with an optional point among or beside them, and an optional
exponent after the letter `e`. At least one digit stands beside the point, and at least one in an
exponent.
-/

namespace FormCompiler.Numeral

def valueOf (digits : List Char) : Nat :=
  digits.foldl (fun value c => value * 10 + (c.toNat - 48)) 0

/-- The digits at the beginning of a text, and what follows them. -/
def takeDigits (text : List Char) : List Char × List Char :=
  (text.takeWhile Char.isDigit, text.dropWhile Char.isDigit)

/-- Whether a text begins with a minus sign, and what follows an optional sign. -/
def takeSign : List Char → Bool × List Char
  | '-' :: rest => (true, rest)
  | '+' :: rest => (false, rest)
  | text => (false, text)

/-- The digits after a point, if the text begins with one, and what follows them. -/
def takeFraction : List Char → List Char × List Char
  | '.' :: rest => takeDigits rest
  | text => ([], text)

/-- The exponent that fills the rest of a text; no text means zero. -/
def exponent? : List Char → Option Int
  | [] => some 0
  | c :: rest =>
      if c = 'e' || c = 'E' then
        let (negative, digits) := takeSign rest
        if digits.isEmpty || !digits.all Char.isDigit then none
        else some (if negative then -(valueOf digits : Int) else valueOf digits)
      else none

def read? (text : List Char) : Option Decimal :=
  let (negative, unsigned) := takeSign text
  let (whole, afterWhole) := takeDigits unsigned
  let (fraction, afterFraction) := takeFraction afterWhole
  if whole.isEmpty && fraction.isEmpty then none
  else
    (exponent? afterFraction).map fun exponent =>
      ⟨negative, valueOf (whole ++ fraction), exponent - fraction.length⟩

end FormCompiler.Numeral
