import FormCompiler.Binary64.Basic

/-!
# Rounding to double precision

A ratio of natural numbers is rounded to the nearest number of the format, a tie to the even
significand. A decimal numeral `digits * 10 ^ exponent` is a ratio, so it is rounded once.
-/

namespace FormCompiler

/-- The exact value of a decimal numeral: a sign, its digits and a power of ten. -/
structure Decimal where
  negative : Bool
  digits : Nat
  exponent : Int
  deriving DecidableEq

namespace Binary64

/-- The natural number nearest to a ratio; of two nearest ones the even one. -/
def nearestEven (num den : Nat) : Nat :=
  let whole := num / den
  let rest := num % den
  if 2 * rest < den then whole
  else if den < 2 * rest then whole + 1
  else whole + whole % 2

def scaledDown (num den : Nat) (scale : Int) : Nat × Nat :=
  if 0 ≤ scale then (num, den * Nat.pow 2 scale.toNat)
  else (num * Nat.pow 2 (-scale).toNat, den)

/-- A positive ratio rounded to the nearest number; too large a ratio gives an infinity. -/
def ofRatio (negative : Bool) (num den : Nat) : Binary64 :=
  let guess : Int := max ((Nat.log2 num : Int) - Nat.log2 den - 53) (-1074)
  let (n, d) := scaledDown num den guess
  -- each logarithm is off by less than one, so the guess is the scale or one below it
  let scale := if n / d < 2 * binade then guess else guess + 1
  let (n, d) := scaledDown num den scale
  ofMagnitude negative
    (min infiniteMagnitude ((scale + 1074).toNat * binade + nearestEven n d))

/-- The number nearest to a decimal numeral. Beyond 310 digits before the point every numeral is
too large, and with 330 zeros after it every numeral is nearest to zero. -/
def ofDecimal (d : Decimal) : Binary64 :=
  let size : Int := (Nat.toDigits 10 d.digits).length + d.exponent
  if d.digits = 0 || size < -330 then ofMagnitude d.negative 0
  else if 310 < size then infinity d.negative
  else if 0 ≤ d.exponent then ofRatio d.negative (d.digits * Nat.pow 10 d.exponent.toNat) 1
  else ofRatio d.negative d.digits (Nat.pow 10 (-d.exponent).toNat)

def ofNat (n : Nat) : Binary64 := ofDecimal ⟨false, n, 0⟩

def ofInt (n : Int) : Binary64 := ofDecimal ⟨n < 0, n.natAbs, 0⟩

end Binary64

end FormCompiler
