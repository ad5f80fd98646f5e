/-!
# Layout of decimal numerals

The digits of a number and the exponent of its first digit determine the number; a style says how
the two are written. Positional numerals pad with zeros up to the point, all others put the point
after the first digit and name the exponent with its sign.
-/

namespace FormCompiler

/-- The number `d.ddd * 10 ^ exponent`, where the digits are `dddd`. -/
structure Scientific where
  digits : List Char
  exponent : Int
  deriving DecidableEq

/-- How a numeral is written. -/
structure NumeralStyle where
  /-- Whether numbers with this exponent are written positionally. -/
  positional : Int → Bool
  /-- Whether a whole number in positional form ends in `.0`. -/
  pointZero : Bool
  /-- Whether a number halfway between two shortest numerals takes the greater one, not the even
  one. -/
  tieUp : Bool

namespace Scientific

/-- The digits with the point at its place. -/
def positionalText (s : Scientific) (pointZero : Bool) : List Char :=
  let count : Int := s.digits.length
  let whole := s.exponent + 1
  if count ≤ whole then
    s.digits ++ List.replicate (whole - count).toNat '0' ++ (if pointZero then ['.', '0'] else [])
  else if 0 < whole then
    s.digits.take whole.toNat ++ '.' :: s.digits.drop whole.toNat
  else
    '0' :: '.' :: (List.replicate (-whole).toNat '0' ++ s.digits)

/-- The digits with the point after the first one, and the exponent. -/
def exponentText (s : Scientific) : List Char :=
  s.digits.take 1 ++ (if 1 < s.digits.length then '.' :: s.digits.drop 1 else []) ++
    'e' :: (if s.exponent < 0 then '-' else '+') :: Nat.toDigits 10 s.exponent.natAbs

def render (s : Scientific) (style : NumeralStyle) : List Char :=
  if style.positional s.exponent then s.positionalText style.pointZero else s.exponentText

end Scientific

end FormCompiler
