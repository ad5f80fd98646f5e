import FormCompiler.Binary64.Rounding

/-!
# Products and quotients

The product and the quotient of two numbers without a sign are exact ratios that are rounded once.
A number that is scaled by a power of ten in this way is rounded more than once: the power is
rounded, and so is what comes of it.
-/

namespace FormCompiler.Binary64

/-- A finite number without its sign, as a ratio. -/
def ratio (x : Binary64) : Nat × Nat :=
  (x.significand * Nat.pow 2 x.scale.toNat, Nat.pow 2 (-x.scale).toNat)

def times (x y : Binary64) : Binary64 :=
  if x.isZero || y.isZero then zero
  else ofRatio false (x.ratio.1 * y.ratio.1) (x.ratio.2 * y.ratio.2)

def dividedBy (x y : Binary64) : Binary64 :=
  if x.isZero then zero else ofRatio false (x.ratio.1 * y.ratio.2) (x.ratio.2 * y.ratio.1)

/-- The number nearest to a power of ten. -/
def powerOfTen (exponent : Nat) : Binary64 := ofDecimal ⟨false, 1, exponent⟩

/-- Divides by a power of ten. No number is as great as `10 ^ 309`, so the quotient is taken in
steps until nothing is left of the number. -/
def dividedByPower : (steps : Nat) → Binary64 → (exponent : Nat) → Binary64
  | 0, x, _ => x
  | steps + 1, x, exponent =>
      if exponent ≤ 308 then x.dividedBy (powerOfTen exponent)
      else if x.isZero then x
      else dividedByPower steps (x.dividedBy (powerOfTen 308)) (exponent - 308)

/-- A number without a sign times a power of ten. -/
def scaled (x : Binary64) (exponent : Int) : Binary64 :=
  if exponent < 0 then
    let power := (-exponent).toNat
    dividedByPower (power / 308 + 1) x power
  else if x.isZero then x
  else if 308 < exponent then infinity false
  else x.times (powerOfTen exponent.toNat)

end FormCompiler.Binary64
