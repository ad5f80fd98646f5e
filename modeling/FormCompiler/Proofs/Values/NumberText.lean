import FormCompiler.Proofs.Numeral.Grammar
import FormCompiler.Values.Coercion

/-!
# The text of a number

The digits of a number and its exponent decide between four layouts, each with its own slices and
its own zeros.  The principal result is that no slice and no count of zeros is out of range, and
that the text denotes the digits exactly: positionally for exponents from -6 to 20, and otherwise
with one digit before the point and a signed exponent.
-/

namespace FormCompiler

/-- The rational number that is meant, with its sign. -/
def Decimal.signedValue (d : Decimal) : ℚ := if d.negative then -d.value else d.value

namespace Scientific

/-! ## A layout that can be out of range -/

/-- A number of zeros, if it is not negative. -/
def zeros? (count : Int) : Option (List Char) :=
  if 0 ≤ count then some (List.replicate count.toNat '0') else none

/-- The digits with a point at an index, if the index lies among them or at one of their ends. -/
def pointedAt? (digits : List Char) (index : Int) : Option (List Char) :=
  if 0 ≤ index ∧ index ≤ digits.length then
    some (digits.take index.toNat ++ '.' :: digits.drop index.toNat)
  else none

/-- The digits with a point behind the first one, if there are more. -/
def mantissa? (digits : List Char) : Option (List Char) :=
  if 1 < digits.length then pointedAt? digits 1 else some digits

/-- The text that is chosen by the number of digits and the place of the point, one case after the
other, or nothing where a case takes a slice or a count out of range. -/
def layout? (s : Scientific) : Option (List Char) :=
  let count : Int := s.digits.length
  let point := s.exponent + 1
  if count ≤ point ∧ point ≤ 21 then
    (zeros? (point - count)).map fun zeros => s.digits ++ zeros
  else if 0 < point ∧ point ≤ 21 then
    pointedAt? s.digits point
  else if -6 < point ∧ point ≤ 0 then
    (zeros? (-point)).map fun zeros => '0' :: '.' :: (zeros ++ s.digits)
  else
    (mantissa? s.digits).map fun mantissa =>
      mantissa ++ 'e' :: (if point - 1 < 0 then '-' else '+') ::
        Nat.toDigits 10 (point - 1).natAbs

theorem zeros?_of_nonneg {count : Int} (h : 0 ≤ count) :
    zeros? count = some (List.replicate count.toNat '0') := if_pos h

theorem pointedAt?_of_le {digits : List Char} {index : Int} (hlow : 0 ≤ index)
    (hhigh : index ≤ digits.length) :
    pointedAt? digits index = some (digits.take index.toNat ++ '.' :: digits.drop index.toNat) :=
  if_pos ⟨hlow, hhigh⟩

theorem mantissa?_eq (digits : List Char) :
    mantissa? digits =
      some (digits.take 1 ++ if 1 < digits.length then '.' :: digits.drop 1 else []) := by
  unfold mantissa?
  split
  · next hmore =>
    exact pointedAt?_of_le (by decide) (by omega)
  · next hsingle =>
    rw [List.append_nil, List.take_of_length_le (not_lt.mp hsingle)]

theorem positional_numberStyle {exponent : Int} :
    Coercion.numberStyle.positional exponent = true ↔ -7 < exponent ∧ exponent < 21 := by
  simp only [Coercion.numberStyle, Bool.and_eq_true, decide_eq_true_eq]

/-- Each case is chosen only where it is in range, for all digits and all exponents, and the cases
together are the style of numbers. -/
theorem layout?_eq_render (s : Scientific) :
    s.layout? = some (s.render Coercion.numberStyle) := by
  unfold layout? render positionalText
  simp only [positional_numberStyle]
  by_cases hpadded : (s.digits.length : Int) ≤ s.exponent + 1 ∧ s.exponent + 1 ≤ 21
  · rw [if_pos hpadded, if_pos (by omega), if_pos hpadded.1, zeros?_of_nonneg (by omega),
      Option.map_some, Coercion.numberStyle, if_neg Bool.false_ne_true, List.append_nil]
  rw [if_neg hpadded]
  by_cases hsplit : 0 < s.exponent + 1 ∧ s.exponent + 1 ≤ 21
  · rw [if_pos hsplit, if_pos (by omega), if_neg (by omega), if_pos hsplit.1,
      pointedAt?_of_le (by omega) (by omega)]
  rw [if_neg hsplit]
  by_cases hbehind : -6 < s.exponent + 1 ∧ s.exponent + 1 ≤ 0
  · rw [if_pos hbehind, if_pos (by omega), if_neg (by omega), if_neg (by omega),
      zeros?_of_nonneg (by omega), Option.map_some]
  · have hscaled : ¬(-7 < s.exponent ∧ s.exponent < 21) := by omega
    rw [if_neg hbehind, if_neg hscaled, mantissa?_eq, Option.map_some, add_sub_cancel_right]
    rfl

end Scientific

namespace Coercion

open Numeral

variable {x : Binary64} {s : Scientific}

theorem toList_numberToText (hfinite : x.isFinite = true) (hzero : x.isZero = false) :
    (numberToText x).toList =
      (if x.isNegative then ['-'] else []) ++
        (x.shortest numberStyle.tieUp).render numberStyle := by
  simp only [numberToText, Binary64.isUndefined_of_isFinite hfinite,
    Binary64.isInfinite_of_isFinite hfinite, hzero, Bool.false_eq_true, if_false,
    String.toList_ofList, Binary64.finiteText]

/-- The text of a finite number that is not zero is made of its shortest digits without a slice or
a count out of range.  It is read as a numeral of exactly these digits at their exponent.  As a
written numeral it has no superfluous zero at the front and no point without digits behind it. -/
theorem numberToText_exact (hfinite : x.isFinite = true) (hzero : x.isZero = false)
    (hdigits : x.shortest numberStyle.tieUp = s) :
    (s.IsLeading ∧ s.digits.length ≤ 17 ∧ -330 ≤ s.exponent ∧ s.exponent < 310) ∧
      ∃ body, s.layout? = some body ∧
        (numberToText x).toList = (if x.isNegative then ['-'] else []) ++ body ∧
        ∃ n : WrittenNumeral, n.text = (numberToText x).toList ∧
          read? (numberToText x).toList = some n.decimal ∧
          n.decimal.signedValue = (if x.isNegative then -1 else 1) *
            (valueOf s.digits * 10 ^ (s.exponent - s.digits.length + 1)) ∧
          if -7 < s.exponent ∧ s.exponent < 21 then n.exponent = none
          else n.IsScaled s.exponent := by
  subst hdigits
  have hleading := (Binary64.shortest_spec hzero numberStyle.tieUp).1
  have htext := toList_numberToText hfinite hzero
  obtain ⟨n, hn, hfollows, hsign, hvalue⟩ :=
    Scientific.laidOut_render hleading.wellFormed numberStyle x.isNegative
  rw [← htext] at hn
  refine ⟨⟨hleading, Binary64.shortest_bounds hfinite hzero _⟩, _, Scientific.layout?_eq_render _,
    htext, n, hn, ?_, ?_, ?_⟩
  · rw [← hn]
    exact read?_text n
  · have hnegative : n.decimal.negative = x.isNegative := hsign
    rw [Decimal.signedValue, hnegative, hvalue, Scientific.value, add_sub_right_comm]
    split <;> ring
  · rw [WrittenNumeral.Follows] at hfollows
    simp only [Scientific.positional_numberStyle] at hfollows
    split at hfollows
    · next hpositional =>
      rw [if_pos hpositional]
      exact hfollows.1
    · next hscaled =>
      rwa [if_neg hscaled]

/-- An eighth of a millionth below zero. -/
def smallLoss : Binary64 := ⟨0xbe80c6f7a0b5ed8d⟩

/-- It has three digits and is just too small for positional notation. -/
theorem numberToText_exact_smallLoss :
    smallLoss.isFinite = true ∧ smallLoss.isZero = false ∧
      smallLoss.shortest numberStyle.tieUp = ⟨"125".toList, -7⟩ ∧
      numberToText smallLoss = "-1.25e-7" ∧
      ∃ n : WrittenNumeral, n.text = "-1.25e-7".toList ∧
        n.decimal.signedValue = -125 * 10 ^ (-9 : Int) ∧ n.IsScaled (-7) := by
  have hfinite : smallLoss.isFinite = true := by decide
  have hzero : smallLoss.isZero = false := by decide
  have hshortest : smallLoss.shortest numberStyle.tieUp = ⟨"125".toList, -7⟩ := by
    decide +kernel
  have htext : numberToText smallLoss = "-1.25e-7" := by decide +kernel
  obtain ⟨-, body, -, -, n, hn, -, hvalue, hscaled⟩ :=
    numberToText_exact hfinite hzero hshortest
  refine ⟨hfinite, hzero, hshortest, htext, n, by rw [hn, htext], ?_, hscaled⟩
  have hnegative : smallLoss.isNegative = true := by decide
  have hdigits : valueOf "125".toList = 125 := by decide
  have hcount : "125".toList.length = 3 := by decide
  rw [hvalue, hnegative, hdigits, hcount]
  norm_num

/-- Positional notation ends between these two numbers. -/
example : numberToText ⟨0x444b1ae4d6e2ef4f⟩ = "999999999999999900000" ∧
    numberToText ⟨0x444b1ae4d6e2ef50⟩ = "1e+21" := by decide +kernel

end Coercion

end FormCompiler
