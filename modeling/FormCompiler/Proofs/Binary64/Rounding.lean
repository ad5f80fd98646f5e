import FormCompiler.Binary64.Rounding
import FormCompiler.Proofs.Binary64.Magnitude
import Mathlib.Tactic.FieldSimp
import Mathlib.Tactic.NormNum
import Mathlib.Tactic.Ring

/-!
# Rounding

Around each finite number lie the ratios that are nearer to it than to any other number.  The
principal result is that rounding takes every ratio of this basin to the number, whether it is
given by numerator and denominator or by a decimal numeral.  Beyond the largest number lie the
ratios that are rounded to an infinity.
-/

namespace FormCompiler

namespace Binary64

/-! ## The nearest natural number -/

/-- The ratio is at most half a unit from the number, and half a unit only if that is even. -/
structure Near (t : ℚ) (m : Nat) : Prop where
  low : (m : ℚ) - 1 / 2 ≤ t
  high : t ≤ m + 1 / 2
  even : t = m - 1 / 2 ∨ t = m + 1 / 2 → m % 2 = 0

/-- Nearness to a ratio, in natural numbers. -/
theorem Near.of_div {num den m : Nat} (hden : 0 < den) (h : Near ((num : ℚ) / den) m) :
    2 * (m * den) ≤ 2 * num + den ∧ 2 * num ≤ 2 * (m * den) + den ∧
      (2 * (m * den) = 2 * num + den ∨ 2 * num = 2 * (m * den) + den → m % 2 = 0) := by
  have hpos : (0 : ℚ) < den := by exact_mod_cast hden
  obtain ⟨hlow, hhigh, heven⟩ := h
  rw [le_div_iff₀ hpos] at hlow
  rw [div_le_iff₀ hpos] at hhigh
  rw [div_eq_iff hpos.ne', div_eq_iff hpos.ne'] at heven
  refine ⟨?_, ?_, ?_⟩
  · have hcast : ((2 * (m * den) : Nat) : ℚ) ≤ ((2 * num + den : Nat) : ℚ) := by
      push_cast
      linarith
    exact_mod_cast hcast
  · have hcast : ((2 * num : Nat) : ℚ) ≤ ((2 * (m * den) + den : Nat) : ℚ) := by
      push_cast
      linarith
    exact_mod_cast hcast
  · rintro (hend | hend)
    · have hcast : ((2 * (m * den) : Nat) : ℚ) = ((2 * num + den : Nat) : ℚ) := by rw [hend]
      push_cast at hcast
      exact heven (Or.inl (by linarith))
    · have hcast : ((2 * num : Nat) : ℚ) = ((2 * (m * den) + den : Nat) : ℚ) := by rw [hend]
      push_cast at hcast
      exact heven (Or.inr (by linarith))

theorem nearestEven_eq {num den m : Nat} (hden : 0 < den) (h : Near ((num : ℚ) / den) m) :
    nearestEven num den = m := by
  obtain ⟨hlow, hhigh, heven⟩ := h.of_div hden
  have hsplit : num = num / den * den + num % den := (Nat.div_add_mod' num den).symm
  have hrest : num % den < den := Nat.mod_lt _ hden
  have hfloor : m = num / den ∨ m = num / den + 1 := by
    have hle : num / den ≤ m := by
      by_contra hlt
      have hmul := Nat.mul_le_mul_right den (not_le.mp hlt)
      rw [Nat.succ_mul] at hmul
      omega
    have hge : m ≤ num / den + 1 := by
      by_contra hlt
      have hmul := Nat.mul_le_mul_right den (not_le.mp hlt)
      rw [Nat.succ_mul, Nat.succ_mul] at hmul
      omega
    omega
  unfold nearestEven
  dsimp only
  rcases hfloor with hm | hm
  · rw [hm] at hlow hhigh heven ⊢
    split
    · rfl
    · split
      · omega
      · rw [heven (Or.inr (by omega)), Nat.add_zero]
  · have hnext : m * den = num / den * den + den := by rw [hm, Nat.succ_mul]
    rw [hnext] at hlow hhigh heven
    split
    · omega
    · split
      · exact hm.symm
      · have hlast := heven (Or.inl (by omega))
        omega

/-! ## Scaling by a power of two -/

theorem scaledDown_spec (num : Nat) {den : Nat} (hden : 0 < den) (scale : Int) :
    0 < (scaledDown num den scale).2 ∧
      ((scaledDown num den scale).1 : ℚ) / (scaledDown num den scale).2 =
        num / den / 2 ^ scale := by
  unfold scaledDown
  have hpos : (0 : ℚ) < den := by exact_mod_cast hden
  split
  · next h =>
    obtain ⟨k, rfl⟩ := Int.eq_ofNat_of_zero_le h
    refine ⟨Nat.mul_pos hden (Nat.pow_pos (by decide)), ?_⟩
    simp only [Int.toNat_natCast, zpow_natCast, Nat.pow_eq]
    push_cast
    rw [div_div]
  · next h =>
    obtain ⟨k, hk⟩ := Int.eq_ofNat_of_zero_le (show 0 ≤ -scale by omega)
    refine ⟨hden, ?_⟩
    rw [show scale = -(k : Int) by omega]
    simp only [neg_neg, Int.toNat_natCast, zpow_neg, zpow_natCast, Nat.pow_eq]
    push_cast
    rw [div_inv_eq_mul, div_mul_eq_mul_div]

theorem log2_bounds {n : Nat} (h : n ≠ 0) :
    (2 : ℚ) ^ (Nat.log2 n : Int) ≤ n ∧ (n : ℚ) < 2 ^ ((Nat.log2 n : Int) + 1) := by
  constructor
  · rw [zpow_natCast]
    exact_mod_cast Nat.log2_self_le h
  · have hlt : n < 2 ^ (Nat.log2 n + 1) := Nat.lt_log2_self
    rw [show ((Nat.log2 n : Int) + 1) = ((Nat.log2 n + 1 : Nat) : Int) by push_cast; rfl,
      zpow_natCast]
    exact_mod_cast hlt

/-- A ratio lies within one power of two of what the lengths of its two numbers say. -/
theorem ratio_bounds {num den : Nat} (hnum : num ≠ 0) (hden : den ≠ 0) :
    (2 : ℚ) ^ ((Nat.log2 num : Int) - Nat.log2 den - 1) < num / den ∧
      (num : ℚ) / den < 2 ^ ((Nat.log2 num : Int) - Nat.log2 den + 1) := by
  have hpos : (0 : ℚ) < den := by exact_mod_cast Nat.pos_of_ne_zero hden
  obtain ⟨hnumLow, hnumHigh⟩ := log2_bounds hnum
  obtain ⟨hdenLow, hdenHigh⟩ := log2_bounds hden
  constructor
  · rw [lt_div_iff₀ hpos]
    calc (2 : ℚ) ^ ((Nat.log2 num : Int) - Nat.log2 den - 1) * den
        < 2 ^ ((Nat.log2 num : Int) - Nat.log2 den - 1) * 2 ^ ((Nat.log2 den : Int) + 1) :=
          mul_lt_mul_of_pos_left hdenHigh (by positivity)
      _ = 2 ^ (Nat.log2 num : Int) := by
          rw [← zpow_add₀ (by norm_num)]
          congr 1
          ring
      _ ≤ num := hnumLow
  · rw [div_lt_iff₀ hpos]
    calc (num : ℚ) < 2 ^ ((Nat.log2 num : Int) + 1) := hnumHigh
      _ = 2 ^ ((Nat.log2 num : Int) - Nat.log2 den + 1) * 2 ^ (Nat.log2 den : Int) := by
          rw [← zpow_add₀ (by norm_num)]
          congr 1
          ring
      _ ≤ 2 ^ ((Nat.log2 num : Int) - Nat.log2 den + 1) * den :=
          mul_le_mul_of_nonneg_left hdenLow (by positivity)

/-! ## Rounding a ratio -/

theorem two_zpow_lt_iff {a b : Int} : (2 : ℚ) ^ a < 2 ^ b ↔ a < b :=
  zpow_lt_zpow_iff_right₀ (by norm_num)

/-- The quotient of the naturals says on which side of a power of two the ratio lies. -/
theorem scaledDown_lt_two_pow_iff (num : Nat) {den : Nat} (hden : 0 < den) (scale : Int) (k : Nat) :
    (scaledDown num den scale).1 / (scaledDown num den scale).2 < 2 ^ k ↔
      (num : ℚ) / den < 2 ^ (scale + k) := by
  obtain ⟨hpos, heq⟩ := scaledDown_spec num hden scale
  have hcast : (0 : ℚ) < (scaledDown num den scale).2 := by exact_mod_cast hpos
  have hunit : (0 : ℚ) < 2 ^ scale := by positivity
  rw [Nat.div_lt_iff_lt_mul hpos, zpow_add₀ (by norm_num), mul_comm ((2 : ℚ) ^ scale),
    ← div_lt_iff₀ hunit, ← heq, div_lt_iff₀ hcast, zpow_natCast]
  exact_mod_cast Iff.rfl

theorem scaledDown_lt_iff (num : Nat) {den : Nat} (hden : 0 < den) (scale : Int) :
    (scaledDown num den scale).1 / (scaledDown num den scale).2 < 2 * binade ↔
      (num : ℚ) / den < 2 ^ (scale + 53) :=
  scaledDown_lt_two_pow_iff num hden scale 53

/-- The scale leaves a significand of 53 bits, or is the least one and leaves at most so many. -/
structure Fits (r : ℚ) (scale : Int) : Prop where
  least : -1074 ≤ scale
  low : scale = -1074 ∨ (2 : ℚ) ^ (scale + 52) ≤ r
  high : r < 2 ^ (scale + 53)

theorem Fits.unique {r : ℚ} {scale scale' : Int} (h : Fits r scale) (h' : Fits r scale') :
    scale = scale' := by
  have hle : ∀ {a b : Int}, Fits r a → Fits r b → a ≤ b := by
    intro a b ha hb
    rcases ha.low with hleast | hlow
    · exact hleast.trans_le hb.least
    · have hlt := two_zpow_lt_iff.mp (hlow.trans_lt hb.high)
      omega
  exact le_antisymm (hle h h') (hle h' h)

/-- Rounding finds the scale that fits. -/
theorem exists_fits (negative : Bool) {num den : Nat} (hnum : num ≠ 0) (hden : 0 < den) :
    ∃ scale, Fits ((num : ℚ) / den) scale ∧ ofRatio negative num den =
      ofMagnitude negative (min infiniteMagnitude ((scale + 1074).toNat * binade +
        nearestEven (scaledDown num den scale).1 (scaledDown num den scale).2)) := by
  obtain ⟨hfloor, hceil⟩ := ratio_bounds hnum hden.ne'
  unfold ofRatio
  dsimp only
  generalize hguess : max ((Nat.log2 num : Int) - Nat.log2 den - 53) (-1074) = guess
  refine ⟨_, ?_, rfl⟩
  split
  · next h =>
    refine ⟨by omega, ?_, (scaledDown_lt_iff num hden guess).mp h⟩
    rcases max_cases ((Nat.log2 num : Int) - Nat.log2 den - 53) (-1074) with ⟨hmax, -⟩ | ⟨hmax, -⟩
    · right
      rw [← hguess, hmax, show (Nat.log2 num : Int) - Nat.log2 den - 53 + 52 =
        Nat.log2 num - Nat.log2 den - 1 by ring]
      exact hfloor.le
    · exact Or.inl (hguess.symm.trans hmax)
  · next h =>
    have hlarge := not_lt.mp fun hlt => h ((scaledDown_lt_iff num hden guess).mpr hlt)
    refine ⟨by omega, Or.inr ?_, hceil.trans_le ?_⟩
    · rwa [show guess + 1 + 52 = guess + 53 by ring]
    · exact zpow_le_zpow_right₀ (by norm_num) (by omega)

theorem ofRatio_eq {negative : Bool} {num den m : Nat} {scale : Int} (hnum : num ≠ 0)
    (hden : 0 < den) (hscale : Fits ((num : ℚ) / den) scale)
    (hnear : Near ((num : ℚ) / den / 2 ^ scale) m) :
    ofRatio negative num den =
      ofMagnitude negative (min infiniteMagnitude ((scale + 1074).toNat * binade + m)) := by
  obtain ⟨found, hfound, heq⟩ := exists_fits negative hnum hden
  obtain ⟨hpos, hratio⟩ := scaledDown_spec num hden scale
  rw [← hratio] at hnear
  rw [heq, hfound.unique hscale, nearestEven_eq hpos hnear]

/-! ## Overflow -/

theorem isFinite_ofMagnitude_iff {negative : Bool} {magnitude : Nat}
    (h : magnitude ≤ infiniteMagnitude) :
    (ofMagnitude negative magnitude).isFinite = true ↔ magnitude < infiniteMagnitude := by
  have hlt : magnitude < signWeight := h.trans_lt (by decide)
  rw [isFinite, magnitude_ofMagnitude hlt, decide_eq_true_iff]

theorem isUndefined_ofMagnitude {negative : Bool} {magnitude : Nat}
    (h : magnitude ≤ infiniteMagnitude) : (ofMagnitude negative magnitude).isUndefined = false := by
  have hlt : magnitude < signWeight := h.trans_lt (by decide)
  rw [isUndefined, magnitude_ofMagnitude hlt, decide_eq_false (not_lt.mpr h)]

theorem le_nearestEven (num den : Nat) : num / den ≤ nearestEven num den := by
  unfold nearestEven
  dsimp only
  split
  · exact le_refl _
  · split
    · exact Nat.le_succ _
    · exact Nat.le_add_right _ _

theorem nearestEven_le (num den : Nat) : nearestEven num den ≤ num / den + 1 := by
  unfold nearestEven
  dsimp only
  split
  · exact Nat.le_succ _
  · split
    · exact le_refl _
    · exact Nat.add_le_add_left (Nat.lt_succ_iff.mp (Nat.mod_lt _ (by decide))) _

/-- A ratio half a unit below an even number is rounded up to it. -/
theorem nearestEven_lt_iff {num den bound : Nat} (hden : 0 < den) (heven : bound % 2 = 0) :
    nearestEven num den < bound ↔ (num : ℚ) / den < bound - 1 / 2 := by
  have hpos : (0 : ℚ) < den := by exact_mod_cast hden
  have hcast : (num : ℚ) / den < bound - 1 / 2 ↔ 2 * num + den < 2 * (bound * den) := by
    rw [div_lt_iff₀ hpos, ← Nat.cast_lt (α := ℚ)]
    push_cast
    constructor <;> intro h <;> linarith
  rw [hcast]
  have hsplit : num = num / den * den + num % den := (Nat.div_add_mod' num den).symm
  have hrest : num % den < den := Nat.mod_lt _ hden
  -- with these products named, each way of rounding is a linear question
  have hbelow : num / den + 1 ≤ bound → num / den * den + den ≤ bound * den := fun h => by
    simpa [Nat.succ_mul] using Nat.mul_le_mul_right den h
  have hbelow' : num / den + 2 ≤ bound → num / den * den + 2 * den ≤ bound * den := fun h => by
    simpa [Nat.add_mul] using Nat.mul_le_mul_right den h
  have habove : bound ≤ num / den → bound * den ≤ num / den * den := Nat.mul_le_mul_right den
  have habove' : bound ≤ num / den + 1 → bound * den ≤ num / den * den + den := fun h => by
    simpa [Nat.succ_mul] using Nat.mul_le_mul_right den h
  unfold nearestEven
  dsimp only
  split
  · constructor <;> intro h <;> by_contra hnot <;> omega
  · split
    · constructor <;> intro h <;> by_contra hnot <;> omega
    · constructor <;> intro h <;> by_contra hnot <;> omega

/-- The least ratio that is rounded to an infinity, `2 ^ 1024 - 2 ^ 970`: halfway from the largest
finite number to the next power of two. -/
def overflow : ℚ := (2 ^ 54 - 1) * 2 ^ (970 : Int)

/-- Powers of two around the overflow, in its own unit. -/
theorem two_zpow_eq_mul (k : Nat) : (2 : ℚ) ^ ((970 : Int) + k) = 2 ^ k * 2 ^ (970 : Int) := by
  rw [zpow_add₀ (by norm_num), zpow_natCast, mul_comm]

theorem two_zpow_lt_overflow : (2 : ℚ) ^ (1023 : Int) < overflow := by
  rw [overflow, show (1023 : Int) = 970 + (53 : Nat) by norm_num, two_zpow_eq_mul]
  exact mul_lt_mul_of_pos_right (by norm_num) (by positivity)

theorem overflow_lt_two_zpow : overflow < (2 : ℚ) ^ (1024 : Int) := by
  rw [overflow, show (1024 : Int) = 970 + (54 : Nat) by norm_num, two_zpow_eq_mul]
  exact mul_lt_mul_of_pos_right (by norm_num) (by positivity)

/-- A ratio is rounded to a finite number exactly if it is below the overflow.  Only at the largest
scale it matters how the significand is rounded. -/
theorem isFinite_ofRatio_iff (negative : Bool) {num den : Nat} (hnum : num ≠ 0) (hden : 0 < den) :
    (ofRatio negative num den).isFinite = true ↔ (num : ℚ) / den < overflow := by
  obtain ⟨scale, hfits, heq⟩ := exists_fits negative hnum hden
  obtain ⟨hpos, hratio⟩ := scaledDown_spec num hden scale
  have hquotient := (scaledDown_lt_iff num hden scale).mpr hfits.high
  have hlow := le_nearestEven (scaledDown num den scale).1 (scaledDown num den scale).2
  have hhigh := nearestEven_le (scaledDown num den scale).1 (scaledDown num den scale).2
  rw [heq, isFinite_ofMagnitude_iff (min_le_left _ _), min_lt_iff, or_iff_right (lt_irrefl _)]
  rcases lt_trichotomy scale 971 with hscale | rfl | hscale
  · have hsmall : (num : ℚ) / den < overflow :=
      hfits.high.trans_le ((zpow_le_zpow_right₀ (by norm_num) (by omega)).trans
        two_zpow_lt_overflow.le)
    have hplace : (scale + 1074).toNat ≤ 2044 := by omega
    refine iff_of_true ?_ hsmall
    calc (scale + 1074).toNat * binade +
          nearestEven (scaledDown num den scale).1 (scaledDown num den scale).2
        ≤ 2044 * binade + 2 * binade :=
          Nat.add_le_add (Nat.mul_le_mul_right _ hplace) (hhigh.trans hquotient)
      _ < infiniteMagnitude := by decide
  -- the largest scale: the significand may not be rounded up to the next power of two
  · have hsum : ((971 : Int) + 1074).toNat * binade +
          nearestEven (scaledDown num den 971).1 (scaledDown num den 971).2 < infiniteMagnitude ↔
        nearestEven (scaledDown num den 971).1 (scaledDown num den 971).2 < 2 * binade := by
      rw [show infiniteMagnitude = ((971 : Int) + 1074).toNat * binade + 2 * binade by decide]
      exact Nat.add_lt_add_iff_left
    rw [hsum, nearestEven_lt_iff hpos (by decide), hratio, div_lt_iff₀ (by positivity)]
    have hbound : (((2 * binade : Nat) : ℚ) - 1 / 2) * 2 ^ (971 : Int) = overflow := by
      rw [overflow, show (971 : Int) = 970 + (1 : Nat) by norm_num, two_zpow_eq_mul, ← mul_assoc]
      norm_num [binade]
    rw [hbound]
  · have hpower : (2 : ℚ) ^ (scale + 52) ≤ num / den := hfits.low.resolve_left (by omega)
    have hlarge : overflow < (num : ℚ) / den :=
      overflow_lt_two_zpow.trans_le
        ((zpow_le_zpow_right₀ (by norm_num) (by omega)).trans hpower)
    have hsignificand : binade ≤ (scaledDown num den scale).1 / (scaledDown num den scale).2 :=
      not_lt.mp fun h => not_lt.mpr hpower ((scaledDown_lt_two_pow_iff num hden scale 52).mp h)
    have hplace : 2046 ≤ (scale + 1074).toNat := by omega
    refine iff_of_false (not_lt.mpr ?_) (not_lt.mpr hlarge.le)
    calc infiniteMagnitude = 2046 * binade + binade := by decide
      _ ≤ (scale + 1074).toNat * binade +
            nearestEven (scaledDown num den scale).1 (scaledDown num den scale).2 :=
          Nat.add_le_add (Nat.mul_le_mul_right _ hplace) (hsignificand.trans hlow)

/-! ## The ratios around a number -/

/-- How far the basin of a number reaches below its significand: half as far under a power of two,
for there the next number is half as far away. -/
def reach (x : Binary64) : ℚ :=
  if x.significand = binade ∧ -1074 < x.scale then 1 / 4 else 1 / 2

theorem reach_pos (x : Binary64) : 0 < x.reach := by
  unfold reach
  split <;> norm_num

theorem reach_le (x : Binary64) : x.reach ≤ 1 / 2 := by
  unfold reach
  split <;> norm_num

/-- The ratios nearest to a number; those at the ends are so only if the significand is even. -/
structure InBasin (x : Binary64) (r : ℚ) : Prop where
  low : (x.significand - x.reach) * 2 ^ x.scale ≤ r
  high : r ≤ (x.significand + 1 / 2) * 2 ^ x.scale
  even : r = (x.significand - x.reach) * 2 ^ x.scale ∨ r = (x.significand + 1 / 2) * 2 ^ x.scale →
    x.significand % 2 = 0

namespace InBasin

variable {x : Binary64} {r : ℚ}

/-- The basin of a number that is not zero lies above half the least number. -/
theorem low_bound (h : InBasin x r) (hzero : x.isZero = false) : (2 : ℚ) ^ (-1075 : Int) ≤ r := by
  have hone : (1 : ℚ) ≤ x.significand := by exact_mod_cast one_le_significand hzero
  have hscale : (2 : ℚ) ^ (-1074 : Int) ≤ 2 ^ x.scale :=
    zpow_le_zpow_right₀ (by norm_num) (scale_ge x)
  have hreach := reach_le x
  calc (2 : ℚ) ^ (-1075 : Int) = 1 / 2 * 2 ^ (-1074 : Int) := by
        rw [show (-1074 : Int) = -1075 + 1 by norm_num, zpow_add₀ (by norm_num)]
        ring
    _ ≤ (x.significand - x.reach) * 2 ^ x.scale :=
        mul_le_mul (by linarith) hscale (by positivity) (by linarith)
    _ ≤ r := h.low

theorem lt_two_zpow (h : InBasin x r) : r < 2 ^ (x.scale + 53) := by
  have hlt : (x.significand : ℚ) + 1 ≤ 2 ^ (53 : Int) := by
    have hle : x.significand + 1 ≤ 2 * binade := significand_lt x
    have hcast : ((x.significand + 1 : Nat) : ℚ) ≤ ((2 * binade : Nat) : ℚ) := by exact_mod_cast hle
    have hweight : ((2 * binade : Nat) : ℚ) = 2 ^ (53 : Int) := by norm_num [binade]
    rw [hweight] at hcast
    exact_mod_cast hcast
  calc r ≤ (x.significand + 1 / 2) * 2 ^ x.scale := h.high
    _ < 2 ^ (53 : Int) * 2 ^ x.scale := mul_lt_mul_of_pos_right (by linarith) (by positivity)
    _ = 2 ^ (x.scale + 53) := by rw [zpow_add₀ (by norm_num), mul_comm]

/-- Just below a power of two a ratio of the basin rounds at the scale below. -/
theorem near_under (h : InBasin x r) (hnarrow : x.significand = binade ∧ -1074 < x.scale)
    (hunder : r < 2 ^ (x.scale + 52)) :
    (2 : ℚ) ^ (x.scale - 1 + 52) ≤ r ∧ r < 2 ^ (x.scale - 1 + 53) ∧
      Near (r / 2 ^ (x.scale - 1)) (2 * binade) := by
  have hbinade : (binade : ℚ) = 2 ^ (52 : Int) := by norm_num [binade]
  have hhalf : (2 : ℚ) ^ x.scale = 2 * 2 ^ (x.scale - 1) := by
    rw [zpow_sub₀ (by norm_num), zpow_one]
    ring
  have hsmall : (0 : ℚ) < 2 ^ (x.scale - 1) := by positivity
  have hlow := h.low
  rw [reach, if_pos hnarrow, hnarrow.1, hhalf] at hlow
  rw [zpow_add₀ (by norm_num), ← hbinade, hhalf] at hunder
  refine ⟨?_, ?_, ?_, ?_, fun _ => Nat.mul_mod_right 2 binade⟩
  · rw [zpow_add₀ (by norm_num), ← hbinade]
    have hlarge : (1 : ℚ) ≤ binade := by norm_num [binade]
    nlinarith only [hsmall, hlarge, hlow]
  · rw [zpow_add₀ (by norm_num), show (53 : Int) = 52 + 1 by norm_num,
      zpow_add₀ (by norm_num), ← hbinade]
    linarith
  · rw [le_div_iff₀ hsmall]
    push_cast
    linarith
  · rw [div_le_iff₀ hsmall]
    push_cast
    linarith

/-- Everywhere else it rounds at the scale of the number. -/
theorem near_self (h : InBasin x r)
    (hunder : ¬((x.significand = binade ∧ -1074 < x.scale) ∧ r < 2 ^ (x.scale + 52))) :
    (x.scale = -1074 ∨ (2 : ℚ) ^ (x.scale + 52) ≤ r) ∧ Near (r / 2 ^ x.scale) x.significand := by
  have hunit : (0 : ℚ) < 2 ^ x.scale := by positivity
  have hbinade : (binade : ℚ) = 2 ^ (52 : Int) := by norm_num [binade]
  have hlow := h.low
  have hhigh := h.high
  have hreach := reach_le x
  refine ⟨?_, ?_, ?_, ?_⟩
  · rcases (scale_ge x).eq_or_lt with hleast | hscale
    · exact Or.inl hleast.symm
    · right
      rcases (scale_eq_or_le_significand x).resolve_left hscale.ne' |>.eq_or_lt with heq | hlt
      · exact not_lt.mp fun hr => hunder ⟨⟨heq.symm, hscale⟩, hr⟩
      · have hnext : (binade : ℚ) + 1 ≤ x.significand := by exact_mod_cast hlt
        rw [zpow_add₀ (by norm_num), ← hbinade, mul_comm]
        exact le_trans (mul_le_mul_of_nonneg_right (by linarith) hunit.le) hlow
  · rw [le_div_iff₀ hunit]
    exact le_trans (mul_le_mul_of_nonneg_right (by linarith) hunit.le) hlow
  · rwa [div_le_iff₀ hunit]
  · rw [div_eq_iff hunit.ne', div_eq_iff hunit.ne']
    rintro (hend | hend)
    · by_cases hnarrow : x.significand = binade ∧ -1074 < x.scale
      · rw [hnarrow.1]
        decide
      · exact h.even (Or.inl (by rw [hend, reach, if_neg hnarrow]))
    · exact h.even (Or.inr hend)

/-- A ratio of the basin rounds to the magnitude of the number, at one of the two scales. -/
theorem exists_near (h : InBasin x r) :
    ∃ (scale : Int) (m : Nat), Fits r scale ∧
      (scale + 1074).toNat * binade + m = x.magnitude ∧ Near (r / 2 ^ scale) m := by
  by_cases hunder : (x.significand = binade ∧ -1074 < x.scale) ∧ r < 2 ^ (x.scale + 52)
  · obtain ⟨hnarrow, hlt⟩ := hunder
    obtain ⟨hlow, hhigh, hnear⟩ := h.near_under hnarrow hlt
    have hmagnitude : (x.scale - 1 + 1074).toNat * binade + 2 * binade = x.magnitude := by
      have hstep : (x.scale + 1074).toNat = (x.scale - 1 + 1074).toNat + 1 := by omega
      rw [magnitude_eq, hnarrow.1, hstep]
      ring
    exact ⟨x.scale - 1, 2 * binade, ⟨by omega, Or.inr hlow, hhigh⟩, hmagnitude, hnear⟩
  · obtain ⟨hlow, hnear⟩ := h.near_self hunder
    exact ⟨x.scale, x.significand, ⟨scale_ge x, hlow, h.lt_two_zpow⟩, (magnitude_eq x).symm, hnear⟩

end InBasin

/-- Rounding takes every positive ratio of the basin to the number. -/
theorem ofRatio_of_inBasin {x : Binary64} (hfinite : x.isFinite = true) {negative : Bool}
    {num den : Nat} (hnum : num ≠ 0) (hden : 0 < den) (h : InBasin x ((num : ℚ) / den)) :
    ofRatio negative num den = ofMagnitude negative x.magnitude := by
  obtain ⟨scale, m, hfits, hmagnitude, hnear⟩ := h.exists_near
  rw [ofRatio_eq hnum hden hfits hnear, hmagnitude,
    min_eq_right (magnitude_lt_of_isFinite hfinite).le]

/-! ## Rounding a decimal numeral -/

/-- A positive number has as many digits as its size says. -/
theorem toDigits_bounds {n : Nat} (h : n ≠ 0) :
    (10 : ℚ) ^ (((Nat.toDigits 10 n).length : Int) - 1) ≤ n ∧
      (n : ℚ) < 10 ^ ((Nat.toDigits 10 n).length : Int) := by
  have hpos : 0 < (Nat.toDigits 10 n).length := Nat.length_toDigits_pos
  generalize hlength : (Nat.toDigits 10 n).length = length at hpos
  obtain ⟨more, rfl⟩ := Nat.exists_eq_add_one_of_ne_zero hpos.ne'
  constructor
  · rw [Nat.cast_succ, add_sub_cancel_right, zpow_natCast]
    rcases Nat.eq_zero_or_pos more with rfl | hmore
    · exact_mod_cast Nat.one_le_iff_ne_zero.mpr h
    · have hle : ¬n < 10 ^ more := by
        rw [← Nat.length_toDigits_le_iff (by decide) hmore, hlength]
        omega
      exact_mod_cast not_lt.mp hle
  · rw [zpow_natCast]
    exact_mod_cast (Nat.length_toDigits_le_iff (by decide) hpos).mp hlength.le

end Binary64

def Decimal.value (d : Decimal) : ℚ := d.digits * 10 ^ d.exponent

namespace Binary64

/-- The size of a numeral says between which powers of ten it lies. -/
theorem value_bounds {d : Decimal} (h : d.digits ≠ 0) :
    (10 : ℚ) ^ (((Nat.toDigits 10 d.digits).length : Int) + d.exponent - 1) ≤ d.value ∧
      d.value < 10 ^ (((Nat.toDigits 10 d.digits).length : Int) + d.exponent) := by
  obtain ⟨hlow, hhigh⟩ := toDigits_bounds h
  constructor
  · rw [show ((Nat.toDigits 10 d.digits).length : Int) + d.exponent - 1 =
      ((Nat.toDigits 10 d.digits).length - 1) + d.exponent by ring, zpow_add₀ (by norm_num)]
    exact mul_le_mul_of_nonneg_right hlow (by positivity)
  · rw [zpow_add₀ (by norm_num)]
    exact mul_lt_mul_of_pos_right hhigh (by positivity)

/-- With 330 zeros after the point a numeral is below half the least number. -/
theorem ten_zpow_lt_least : (10 : ℚ) ^ (-330 : Int) < 2 ^ (-1075 : Int) :=
  calc (10 : ℚ) ^ (-330 : Int) = (10 ^ (-66 : Int)) ^ (5 : Int) := by rw [← zpow_mul]; rfl
    _ < (2 ^ (-215 : Int)) ^ (5 : Int) :=
        zpow_lt_zpow_left₀ (by norm_num) (by positivity) (by norm_num)
    _ = 2 ^ (-1075 : Int) := by rw [← zpow_mul]; rfl

/-- With 310 digits before the point a numeral is above all finite numbers. -/
theorem lt_ten_zpow_infinite : (2 : ℚ) ^ (1025 : Int) < 10 ^ (310 : Int) :=
  calc (2 : ℚ) ^ (1025 : Int) = (2 ^ (205 : Int)) ^ (5 : Int) := by rw [← zpow_mul]; rfl
    _ < (10 ^ (62 : Int)) ^ (5 : Int) :=
        zpow_lt_zpow_left₀ (by positivity) (by norm_num) (by norm_num)
    _ = 10 ^ (310 : Int) := by rw [← zpow_mul]; rfl

/-- A numeral is rounded as a ratio, unless its size alone says that it is too small or too
large. -/
theorem ofDecimal_cases {d : Decimal} (h : d.digits ≠ 0) :
    (d.value < 2 ^ (-1075 : Int) ∧ ofDecimal d = ofMagnitude d.negative 0) ∨
      ((2 : ℚ) ^ (1025 : Int) < d.value ∧ ofDecimal d = infinity d.negative) ∨
      ∃ num den : Nat, num ≠ 0 ∧ 0 < den ∧ (num : ℚ) / den = d.value ∧
        ofDecimal d = ofRatio d.negative num den := by
  obtain ⟨hlow, hhigh⟩ := value_bounds h
  unfold ofDecimal
  dsimp only
  generalize ((Nat.toDigits 10 d.digits).length : Int) + d.exponent = size at hlow hhigh ⊢
  by_cases hsmall : size < -330
  · have hle : (10 : ℚ) ^ size ≤ 10 ^ (-330 : Int) :=
      zpow_le_zpow_right₀ (by norm_num) (by omega)
    exact Or.inl ⟨hhigh.trans (hle.trans_lt ten_zpow_lt_least), if_pos (by simp [hsmall])⟩
  rw [if_neg (by simp [h, hsmall])]
  by_cases hlarge : 310 < size
  · have hle : (10 : ℚ) ^ (310 : Int) ≤ 10 ^ (size - 1) :=
      zpow_le_zpow_right₀ (by norm_num) (by omega)
    exact Or.inr (Or.inl ⟨lt_ten_zpow_infinite.trans_le (hle.trans hlow), if_pos hlarge⟩)
  rw [if_neg hlarge]
  refine Or.inr (Or.inr ?_)
  split
  · next hexponent =>
    obtain ⟨k, hk⟩ := Int.eq_ofNat_of_zero_le hexponent
    have hpower : Nat.pow 10 d.exponent.toNat ≠ 0 := (Nat.pow_pos (by decide)).ne'
    refine ⟨_, _, Nat.mul_ne_zero h hpower, Nat.one_pos, ?_, rfl⟩
    simp [Decimal.value, hk]
  · next hexponent =>
    obtain ⟨k, hk⟩ := Int.eq_ofNat_of_zero_le (show 0 ≤ -d.exponent by omega)
    have hsign : d.exponent = -(k : Int) := by omega
    refine ⟨_, _, h, Nat.pow_pos (by decide), ?_, rfl⟩
    simp [Decimal.value, hsign, div_eq_mul_inv]

/-- Rounding takes every numeral of the basin of a number to the number with the numeral's sign. -/
theorem ofDecimal_of_inBasin {x : Binary64} (hfinite : x.isFinite = true)
    (hzero : x.isZero = false) {d : Decimal} (hdigits : d.digits ≠ 0) (h : InBasin x d.value) :
    ofDecimal d = ofMagnitude d.negative x.magnitude := by
  rcases ofDecimal_cases hdigits with
    ⟨hsmall, -⟩ | ⟨hlarge, -⟩ | ⟨num, den, hnum, hden, hvalue, heq⟩
  · exact absurd (h.low_bound hzero) (not_le.mpr hsmall)
  · have hscale : (2 : ℚ) ^ (x.scale + 53) ≤ 2 ^ (1025 : Int) :=
      zpow_le_zpow_right₀ (by norm_num) (by linarith [scale_le_of_isFinite hfinite])
    exact absurd (hlarge.trans (h.lt_two_zpow.trans_le hscale)) (lt_irrefl _)
  · rw [heq]
    exact ofRatio_of_inBasin hfinite hnum hden (hvalue ▸ h)

/-- A numeral whose digits are all zero is a zero. -/
theorem ofDecimal_of_digits_eq_zero {d : Decimal} (h : d.digits = 0) :
    ofDecimal d = ofMagnitude d.negative 0 := by
  simp [ofDecimal, h]

/-- A numeral is rounded to a finite number exactly if it is below the overflow. -/
theorem isFinite_ofDecimal_iff (d : Decimal) :
    (ofDecimal d).isFinite = true ↔ d.value < overflow := by
  have hleast : (2 : ℚ) ^ (-1075 : Int) < overflow :=
    (two_zpow_lt_iff.mpr (by norm_num)).trans two_zpow_lt_overflow
  have hzero : (ofMagnitude d.negative 0).isFinite = true :=
    (isFinite_ofMagnitude_iff (by decide)).mpr (by decide)
  by_cases hdigits : d.digits = 0
  · rw [ofDecimal_of_digits_eq_zero hdigits]
    have hvalue : d.value < overflow := by
      rw [Decimal.value, hdigits, Nat.cast_zero, zero_mul]
      exact (by positivity : (0 : ℚ) < 2 ^ (-1075 : Int)).trans hleast
    exact iff_of_true hzero hvalue
  · rcases ofDecimal_cases hdigits with
      ⟨hsmall, heq⟩ | ⟨hlarge, heq⟩ | ⟨num, den, hnum, hden, hvalue, heq⟩
    · rw [heq]
      exact iff_of_true hzero (hsmall.trans hleast)
    · have hinfinite : overflow < d.value :=
        overflow_lt_two_zpow.trans ((two_zpow_lt_iff.mpr (by norm_num)).trans hlarge)
      rw [heq, infinity, isFinite_ofMagnitude_iff (le_refl _)]
      exact iff_of_false (lt_irrefl _) (not_lt.mpr hinfinite.le)
    · rw [heq, isFinite_ofRatio_iff _ hnum hden, hvalue]

/-- Rounding gives a number, if only an infinity. -/
theorem isUndefined_ofDecimal (d : Decimal) : (ofDecimal d).isUndefined = false := by
  by_cases hdigits : d.digits = 0
  · rw [ofDecimal_of_digits_eq_zero hdigits]
    exact isUndefined_ofMagnitude (by decide)
  · rcases ofDecimal_cases hdigits with ⟨-, heq⟩ | ⟨-, heq⟩ | ⟨num, den, hnum, hden, -, heq⟩
    · rw [heq]
      exact isUndefined_ofMagnitude (by decide)
    · rw [heq]
      exact isUndefined_ofMagnitude (le_refl _)
    · obtain ⟨_, _, hratio⟩ := exists_fits d.negative hnum hden
      rw [heq, hratio]
      exact isUndefined_ofMagnitude (min_le_left _ _)

/-- A whole number of 64 bits is near to a finite one. -/
theorem isFinite_ofInt {n : Int} (h : n.natAbs < 2 ^ 64) : (ofInt n).isFinite = true := by
  have hcast : (n.natAbs : ℚ) < 2 ^ (64 : Int) := by exact_mod_cast h
  refine (isFinite_ofDecimal_iff _).mpr ?_
  rw [Decimal.value, zpow_zero, mul_one]
  exact hcast.trans ((two_zpow_lt_iff.mpr (by norm_num)).trans two_zpow_lt_overflow)

end Binary64

end FormCompiler
