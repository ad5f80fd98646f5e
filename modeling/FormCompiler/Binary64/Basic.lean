/-!
# Double precision numbers

A number of the IEEE 754 binary64 format is kept as its 64 bits. A finite number is a natural
significand times a power of two, a sign apart; the two zeros are equal as numbers and an
undefined number equals nothing. All operations are exact computations on natural numbers.
-/

namespace FormCompiler

/-- A number of the binary64 format. Equality of values of this type is equality of bits; the
comparison of numbers is `Binary64.equals`. -/
structure Binary64 where
  bits : UInt64
  deriving DecidableEq

namespace Binary64

/-- How many numbers lie from one power of two to the next, two to the power 52. -/
def binade : Nat := 0x10000000000000

def signWeight : Nat := 0x8000000000000000

/-- The least magnitude that is not finite. -/
def infiniteMagnitude : Nat := 2047 * binade

/-- The bits without the sign. Magnitudes grow with the absolute value. -/
def magnitude (x : Binary64) : Nat := x.bits.toNat % signWeight

def isNegative (x : Binary64) : Bool := signWeight ≤ x.bits.toNat

/-- The number with a sign and a magnitude below the weight of the sign. -/
def ofMagnitude (negative : Bool) (magnitude : Nat) : Binary64 :=
  ⟨UInt64.ofNat (if negative then signWeight + magnitude else magnitude)⟩

def undefined : Binary64 := ofMagnitude false (infiniteMagnitude + binade / 2)

def infinity (negative : Bool) : Binary64 := ofMagnitude negative infiniteMagnitude

def zero : Binary64 := ofMagnitude false 0

def one : Binary64 := ofMagnitude false (1023 * binade)

def isUndefined (x : Binary64) : Bool := infiniteMagnitude < x.magnitude

def isInfinite (x : Binary64) : Bool := x.magnitude == infiniteMagnitude

def isFinite (x : Binary64) : Bool := x.magnitude < infiniteMagnitude

def isZero (x : Binary64) : Bool := x.magnitude == 0

/-- The position of a number in the order of the numbers; both zeros have position zero. -/
def position (x : Binary64) : Int := if x.isNegative then -(x.magnitude : Int) else x.magnitude

def equals (x y : Binary64) : Bool :=
  !x.isUndefined && !y.isUndefined && x.position == y.position

/-- The strict order of numbers. -/
def less (x y : Binary64) : Bool :=
  !x.isUndefined && !y.isUndefined && decide (x.position < y.position)

/-- The natural factor of a finite number. -/
def significand (x : Binary64) : Nat :=
  if x.magnitude < binade then x.magnitude else binade + x.magnitude % binade

/-- The exponent of two of a finite number. -/
def scale (x : Binary64) : Int :=
  if x.magnitude < binade then -1074 else (x.magnitude / binade : Nat) - 1075

end Binary64

end FormCompiler
