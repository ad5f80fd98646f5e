import FormCompiler.Binary64.Basic
import FormCompiler.Numeral.Layout

/-!
# Shortest digits

The shortest decimal numeral that is read back as a given finite number. The reals that round to
`m * 2 ^ q` form an interval whose ends belong to it when `m` is even. For each number of digits
the two neighbours of the number on that decimal grid are tested; the first grid with a neighbour
in the interval wins, and of two such neighbours the nearer one; which of two equally near ones is
for the caller to say.
-/

namespace FormCompiler

namespace Binary64

/-- The interval that rounds to a number, in units of one common denominator: its lower end, the
number, its upper end, the unit `1`, and whether the ends belong to it. -/
structure Basin where
  low : Nat
  value : Nat
  high : Nat
  unit : Nat
  closed : Bool

/-- The basin of a finite number. Below a power of two the next number is half as far away. -/
def basin (x : Binary64) : Basin :=
  let m := x.significand
  let narrow := m = binade && -1074 < x.scale
  let up := Nat.pow 2 (x.scale - 2).toNat
  { low := (4 * m - if narrow then 1 else 2) * up
    value := 4 * m * up
    high := (4 * m + 2) * up
    unit := Nat.pow 2 (2 - x.scale).toNat
    closed := m % 2 == 0 }

def Basin.holds (b : Basin) (point : Nat) : Bool :=
  if b.closed then b.low ≤ point && point ≤ b.high else b.low < point && point < b.high

/-- The basin in units that are `10 ^ power` times as fine. -/
def Basin.finer (b : Basin) (power : Nat) : Basin :=
  let factor := Nat.pow 10 power
  { b with low := b.low * factor, value := b.value * factor, high := b.high * factor }

/-- The exponent of the first decimal digit of the positive ratio `value / unit`. -/
def leadingExponent (value unit : Nat) : Int :=
  if unit ≤ value then (Nat.toDigits 10 (value / unit)).length - 1
  else
    let places := (Nat.toDigits 10 (unit / value)).length
    if unit ≤ value * Nat.pow 10 (places - 1) then 1 - (places : Int) else -(places : Int)

/-- The multiple of `10 ^ grid` in the basin that is nearest to the number, if one of the two
neighbours lies in it; the answer counts the grid steps. A tie goes up or to the even one. -/
def Basin.nearest? (b : Basin) (tieUp : Bool) (grid : Int) : Option Nat :=
  let fine := b.finer (-grid).toNat
  let step := b.unit * Nat.pow 10 grid.toNat
  let below := fine.value / step
  let above := below + 1
  match fine.holds (below * step), fine.holds (above * step) with
  | true, true =>
      let shortfall := fine.value - below * step
      let excess := above * step - fine.value
      if shortfall < excess || (shortfall == excess && !tieUp && below % 2 == 0) then some below
      else some above
  | true, false => some below
  | false, true => some above
  | false, false => none

/-- The digits without the zeros at their end; one digit always stays. -/
def stripZeros (digits : List Char) : List Char :=
  match (digits.reverse.dropWhile (· == '0')).reverse with
  | [] => ['0']
  | kept => kept

/-- The shortest digits of a finite number that is not zero, and the exponent of the first one.
Seventeen digits are always enough. -/
def shortest (x : Binary64) (tieUp : Bool) : Scientific :=
  let b := x.basin
  let lead := leadingExponent b.value b.unit
  let found := (List.range 17).findSome? fun more : Nat =>
    (b.nearest? tieUp (lead - more)).map fun steps => (steps, lead - (more : Int))
  match found with
  | some (steps, grid) =>
      let digits := Nat.toDigits 10 steps
      ⟨stripZeros digits, grid + digits.length - 1⟩
  | none => ⟨['0'], 0⟩

/-- The digits of a number in a style, with a minus sign for a negative number. Zero has the one
digit zero. -/
def finiteText (x : Binary64) (style : NumeralStyle) : List Char :=
  let s : Scientific := if x.isZero then ⟨['0'], 0⟩ else x.shortest style.tieUp
  (if x.isNegative then ['-'] else []) ++ s.render style

end Binary64

/-- Every number is written positionally, a whole one without a point. -/
def NumeralStyle.plain : NumeralStyle := ⟨fun _ => true, false, true⟩

/-- The plain text of a number: its shortest digits in positional form. -/
def Binary64.plainText (x : Binary64) : String :=
  if x.isUndefined then "NaN"
  else if x.isInfinite then if x.isNegative then "-inf" else "inf"
  else String.ofList (x.finiteText NumeralStyle.plain)

def Binary64.sourceText (x : Binary64) : String :=
  if x.isUndefined then "NaN"
  else if x.isInfinite then if x.isNegative then "-Infinity" else "Infinity"
  else String.ofList (x.finiteText NumeralStyle.plain)

end FormCompiler
