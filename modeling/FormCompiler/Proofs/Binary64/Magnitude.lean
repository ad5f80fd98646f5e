import FormCompiler.Binary64.Basic
import Mathlib.Algebra.Order.Field.Power
import Mathlib.Algebra.Order.Field.Rat
import Mathlib.Tactic.Linarith

/-!
# Sign, magnitude and value

A number is its sign and its magnitude, and the magnitude of a finite number is laid out as its
significand and its scale.  The absolute value is the rational number that the two denote.
-/

namespace FormCompiler.Binary64

/-! ## Sign and magnitude -/

theorem magnitude_lt (x : Binary64) : x.magnitude < signWeight := Nat.mod_lt _ (by decide)

theorem toNat_bits_ofMagnitude {negative : Bool} {magnitude : Nat} (h : magnitude < signWeight) :
    (ofMagnitude negative magnitude).bits.toNat =
      (if negative then signWeight + magnitude else magnitude) := by
  unfold signWeight at h
  unfold ofMagnitude signWeight
  cases negative <;> simp [UInt64.toNat_ofNat'] <;> omega

theorem magnitude_ofMagnitude {negative : Bool} {magnitude : Nat} (h : magnitude < signWeight) :
    (ofMagnitude negative magnitude).magnitude = magnitude := by
  rw [Binary64.magnitude, toNat_bits_ofMagnitude h]
  cases negative with
  | false => exact Nat.mod_eq_of_lt h
  | true => rw [if_pos rfl, Nat.add_mod_left, Nat.mod_eq_of_lt h]

theorem isNegative_ofMagnitude {negative : Bool} {magnitude : Nat} (h : magnitude < signWeight) :
    (ofMagnitude negative magnitude).isNegative = negative := by
  rw [isNegative, toNat_bits_ofMagnitude h]
  cases negative <;> simp [h]

/-- A number is its sign and its magnitude. -/
theorem ext_sign {x y : Binary64} (hsign : x.isNegative = y.isNegative)
    (hmagnitude : x.magnitude = y.magnitude) : x = y := by
  obtain ⟨a⟩ := x
  obtain ⟨b⟩ := y
  have ha := a.toNat_lt
  have hb := b.toNat_lt
  unfold isNegative signWeight at hsign
  unfold magnitude signWeight at hmagnitude
  have hside := decide_eq_decide.mp hsign
  have hbits : a.toNat = b.toNat := by
    simp only at hside hmagnitude
    omega
  rw [UInt64.toNat_inj.mp hbits]

/-! ## Significand and scale -/

theorem magnitude_lt_of_isFinite {x : Binary64} (h : x.isFinite = true) :
    x.magnitude < infiniteMagnitude := by
  simpa [isFinite] using h

theorem isUndefined_of_isFinite {x : Binary64} (h : x.isFinite = true) : x.isUndefined = false := by
  have hlt := magnitude_lt_of_isFinite h
  rw [isUndefined, decide_eq_false_iff_not]
  omega

theorem isInfinite_of_isFinite {x : Binary64} (h : x.isFinite = true) : x.isInfinite = false :=
  beq_eq_false_iff_ne.mpr (magnitude_lt_of_isFinite h).ne

theorem significand_lt (x : Binary64) : x.significand < 2 * binade := by
  unfold significand
  have hmod : x.magnitude % binade < binade := Nat.mod_lt _ (by decide)
  split <;> omega

theorem scale_ge (x : Binary64) : -1074 ≤ x.scale := by
  unfold scale
  split
  · exact le_refl _
  · next h =>
    have hdiv : 1 ≤ x.magnitude / binade := (Nat.one_le_div_iff (by decide)).mpr (not_lt.mp h)
    omega

/-- A number of the least scale may have any significand, all others have a leading bit. -/
theorem scale_eq_or_le_significand (x : Binary64) :
    x.scale = -1074 ∨ binade ≤ x.significand := by
  unfold scale significand
  split
  · exact Or.inl rfl
  · exact Or.inr (Nat.le_add_right _ _)

theorem magnitude_eq (x : Binary64) :
    x.magnitude = (x.scale + 1074).toNat * binade + x.significand := by
  unfold scale significand
  split
  · simp
  · next h =>
    have hdiv : 1 ≤ x.magnitude / binade := (Nat.one_le_div_iff (by decide)).mpr (not_lt.mp h)
    have hscale : ((x.magnitude / binade : Nat) - 1075 + 1074 : Int).toNat =
        x.magnitude / binade - 1 := by omega
    have hsplit := Nat.div_add_mod x.magnitude binade
    rw [hscale, Nat.sub_mul, Nat.one_mul, Nat.mul_comm]
    have hle : binade ≤ binade * (x.magnitude / binade) := Nat.le_mul_of_pos_right _ hdiv
    omega

theorem scale_le_of_isFinite {x : Binary64} (h : x.isFinite = true) : x.scale ≤ 971 := by
  have hlt := magnitude_lt_of_isFinite h
  unfold scale
  split
  · decide
  · have hdiv : x.magnitude / binade < 2047 := (Nat.div_lt_iff_lt_mul (by decide)).mpr hlt
    omega

theorem significand_eq_zero_iff (x : Binary64) : x.significand = 0 ↔ x.isZero = true := by
  unfold significand isZero
  rw [beq_iff_eq]
  split
  · rfl
  · next h =>
    have hpos : 0 < binade := by decide
    omega

theorem one_le_significand {x : Binary64} (h : x.isZero = false) : 1 ≤ x.significand := by
  refine Nat.one_le_iff_ne_zero.mpr fun heq => ?_
  rw [(significand_eq_zero_iff x).mp heq] at h
  cases h

/-- The absolute value of a finite number. -/
def value (x : Binary64) : ℚ := x.significand * 2 ^ x.scale

end FormCompiler.Binary64
