import FormCompiler.Binary64.Shortest
import FormCompiler.Proofs.Binary64.Rounding
import Mathlib.Data.Nat.Cast.Order.Field

/-!
# Shortest digits

The search for the shortest digits succeeds for every number that is not zero, at the seventeenth
digit at the latest, and what it finds lies in the basin of the number.
-/

namespace FormCompiler.Binary64

variable {x : Binary64}

/-! ## The basin in units -/

theorem basin_unit_pos (x : Binary64) : 0 < x.basin.unit := Nat.pow_pos (by decide)

/-- A quarter of the distance to the next number, in units. -/
theorem quarter_eq (x : Binary64) :
    ((Nat.pow 2 (x.scale - 2).toNat : Nat) : ℚ) = 2 ^ x.scale / 4 * x.basin.unit := by
  have hsplit : (2 : ℚ) ^ x.scale / 4 = 2 ^ (x.scale - 2) := by
    rw [zpow_sub₀ (by norm_num)]
    norm_num
  rw [hsplit]
  unfold basin
  simp only [Nat.pow_eq]
  push_cast
  rcases le_total 2 x.scale with hle | hle
  · obtain ⟨k, hk⟩ := Int.eq_ofNat_of_zero_le (show 0 ≤ x.scale - 2 by omega)
    have hzero : (2 - x.scale).toNat = 0 := by omega
    simp [hk, hzero]
  · obtain ⟨k, hk⟩ := Int.eq_ofNat_of_zero_le (show 0 ≤ 2 - x.scale by omega)
    have hzero : (x.scale - 2).toNat = 0 := by omega
    have hneg : x.scale - 2 = -(k : Int) := by omega
    rw [hzero, hk, hneg, Int.toNat_natCast, zpow_neg, zpow_natCast, pow_zero,
      inv_mul_cancel₀ (by positivity)]

theorem basin_value (x : Binary64) : (x.basin.value : ℚ) = x.value * x.basin.unit := by
  have hvalue : (x.basin.value : ℚ) =
      4 * x.significand * (Nat.pow 2 (x.scale - 2).toNat : Nat) := by
    simp [basin]
  rw [hvalue, quarter_eq, value]
  ring

theorem basin_high (x : Binary64) :
    (x.basin.high : ℚ) = (x.significand + 1 / 2) * 2 ^ x.scale * x.basin.unit := by
  have hhigh : (x.basin.high : ℚ) =
      (4 * x.significand + 2) * (Nat.pow 2 (x.scale - 2).toNat : Nat) := by
    simp [basin]
  rw [hhigh, quarter_eq]
  ring

theorem basin_low (h : x.isZero = false) :
    (x.basin.low : ℚ) = (x.significand - x.reach) * 2 ^ x.scale * x.basin.unit := by
  have hone := one_le_significand h
  have hlow : (x.basin.low : ℚ) =
      (4 * x.significand - 4 * x.reach) * (Nat.pow 2 (x.scale - 2).toNat : Nat) := by
    by_cases hnarrow : x.significand = binade ∧ -1074 < x.scale
    · have hchosen : (decide (x.significand = binade) && decide (-1074 < x.scale)) = true := by
        simp [hnarrow]
      simp only [basin, reach, hchosen, if_pos hnarrow, ↓reduceIte]
      push_cast [Nat.cast_sub (show 1 ≤ 4 * x.significand by omega)]
      ring
    · have hchosen : (decide (x.significand = binade) && decide (-1074 < x.scale)) = false := by
        rwa [← Bool.decide_and, decide_eq_false_iff_not]
      simp only [basin, reach, hchosen, if_neg hnarrow, Bool.false_eq_true, ↓reduceIte]
      push_cast [Nat.cast_sub (show 2 ≤ 4 * x.significand by omega)]
      ring
  rw [hlow, quarter_eq]
  ring

/-! ## Points of a decimal grid -/

/-- How many of the units of `fine` one is worth, on the grid of a power of ten. -/
def weight (x : Binary64) (grid : Int) : ℚ := x.basin.unit * 10 ^ (-grid).toNat

theorem weight_pos (x : Binary64) (grid : Int) : 0 < x.weight grid :=
  mul_pos (by exact_mod_cast basin_unit_pos x) (by positivity)

theorem step_eq (x : Binary64) (grid : Int) :
    ((x.basin.unit * Nat.pow 10 grid.toNat : Nat) : ℚ) = 10 ^ grid * x.weight grid := by
  unfold weight
  simp only [Nat.pow_eq]
  push_cast
  rcases le_total 0 grid with hle | hle
  · obtain ⟨k, rfl⟩ := Int.eq_ofNat_of_zero_le hle
    simp [mul_comm]
  · obtain ⟨k, hk⟩ := Int.eq_ofNat_of_zero_le (show 0 ≤ -grid by omega)
    obtain rfl : grid = -(k : Int) := by omega
    have hpow : (10 : ℚ) ^ (-(k : Int)) * 10 ^ k = 1 := by
      rw [zpow_neg, zpow_natCast, inv_mul_cancel₀ (by positivity)]
    have hzero : (-(k : Int)).toNat = 0 := by omega
    rw [hzero, neg_neg, Int.toNat_natCast, mul_left_comm, hpow, pow_zero]

theorem finer_value (x : Binary64) (grid : Int) :
    ((x.basin.finer (-grid).toNat).value : ℚ) = x.value * x.weight grid := by
  simp only [Basin.finer, Nat.pow_eq]
  push_cast
  rw [basin_value, weight, mul_assoc]

/-- What the search tests on the grid is whether the ratio lies in the basin. -/
theorem holds_finer_iff (hzero : x.isZero = false) (grid : Int) (steps : Nat) :
    (x.basin.finer (-grid).toNat).holds (steps * (x.basin.unit * Nat.pow 10 grid.toNat)) = true ↔
      InBasin x (steps * 10 ^ grid) := by
  have hweight := weight_pos x grid
  have hpoint : ((steps * (x.basin.unit * Nat.pow 10 grid.toNat) : Nat) : ℚ) =
      steps * 10 ^ grid * x.weight grid := by
    rw [Nat.cast_mul, step_eq, mul_assoc]
  have hlow : ((x.basin.finer (-grid).toNat).low : ℚ) =
      (x.significand - x.reach) * 2 ^ x.scale * x.weight grid := by
    simp only [Basin.finer, Nat.pow_eq]
    push_cast
    rw [basin_low hzero, weight, mul_assoc]
  have hhigh : ((x.basin.finer (-grid).toNat).high : ℚ) =
      (x.significand + 1 / 2) * 2 ^ x.scale * x.weight grid := by
    simp only [Basin.finer, Nat.pow_eq]
    push_cast
    rw [basin_high, weight, mul_assoc]
  have hclosed : (x.basin.finer (-grid).toNat).closed = (x.significand % 2 == 0) := rfl
  unfold Basin.holds
  rw [hclosed]
  generalize steps * (x.basin.unit * Nat.pow 10 grid.toNat) = point at hpoint
  generalize (x.basin.finer (-grid).toNat).low = low at hlow
  generalize (x.basin.finer (-grid).toNat).high = high at hhigh
  have hlowLe : low ≤ point ↔ (x.significand - x.reach) * 2 ^ x.scale ≤ steps * 10 ^ grid := by
    rw [← mul_le_mul_iff_of_pos_right hweight, ← hlow, ← hpoint, Nat.cast_le]
  have hlowLt : low < point ↔ (x.significand - x.reach) * 2 ^ x.scale < steps * 10 ^ grid := by
    rw [← mul_lt_mul_iff_of_pos_right hweight, ← hlow, ← hpoint, Nat.cast_lt]
  have hhighLe : point ≤ high ↔
      (steps * 10 ^ grid : ℚ) ≤ (x.significand + 1 / 2) * 2 ^ x.scale := by
    rw [← mul_le_mul_iff_of_pos_right hweight, ← hhigh, ← hpoint, Nat.cast_le]
  have hhighLt : point < high ↔
      (steps * 10 ^ grid : ℚ) < (x.significand + 1 / 2) * 2 ^ x.scale := by
    rw [← mul_lt_mul_iff_of_pos_right hweight, ← hhigh, ← hpoint, Nat.cast_lt]
  -- the ends belong to the basin exactly if the significand is even
  cases heven : x.significand % 2 == 0 with
  | true =>
    simp only [↓reduceIte, Bool.and_eq_true, decide_eq_true_eq, hlowLe, hhighLe]
    constructor
    · rintro ⟨hle, hge⟩
      exact ⟨hle, hge, fun _ => beq_iff_eq.mp heven⟩
    · intro h
      exact ⟨h.low, h.high⟩
  | false =>
    simp only [Bool.false_eq_true, ↓reduceIte, Bool.and_eq_true, decide_eq_true_eq, hlowLt, hhighLt]
    have hodd : ¬x.significand % 2 = 0 := beq_eq_false_iff_ne.mp heven
    constructor
    · rintro ⟨hlt, hgt⟩
      exact ⟨hlt.le, hgt.le, fun hend => (hend.elim hlt.ne' hgt.ne).elim⟩
    · intro h
      refine ⟨h.low.lt_of_ne fun heq => hodd (h.even (Or.inl heq.symm)), ?_⟩
      exact h.high.lt_of_ne fun heq => hodd (h.even (Or.inr heq))

/-! ## The search on one grid -/

theorem inBasin_of_nearest?_eq_some (hzero : x.isZero = false) {tieUp : Bool} {grid : Int}
    {steps : Nat} (h : x.basin.nearest? tieUp grid = some steps) :
    InBasin x (steps * 10 ^ grid) := by
  rw [← holds_finer_iff hzero]
  unfold Basin.nearest? at h
  dsimp only at h
  split at h
  · next hbelow habove =>
    split at h
    · obtain rfl := Option.some.inj h
      exact hbelow
    · obtain rfl := Option.some.inj h
      exact habove
  · next hbelow _ =>
    obtain rfl := Option.some.inj h
    exact hbelow
  · next _ habove =>
    obtain rfl := Option.some.inj h
    exact habove
  · cases h

/-- A grid of seventeen digits is so fine that one of two neighbours lies in the basin. -/
theorem exists_neighbour {grid : Int} (hgrid : (10 : ℚ) ^ (grid + 16) ≤ x.value)
    {below : Nat} (hbelow : (below * 10 ^ grid : ℚ) ≤ x.value)
    (habove : x.value < (below + 1 : Nat) * 10 ^ grid) :
    InBasin x (below * 10 ^ grid) ∨ InBasin x ((below + 1 : Nat) * 10 ^ grid) := by
  have hunit : (0 : ℚ) < 2 ^ x.scale := by positivity
  have hinside : ∀ r : ℚ, x.value - x.reach * 2 ^ x.scale < r → r < x.value + 2 ^ x.scale / 2 →
      InBasin x r := by
    intro r hlow hhigh
    have hlt : (x.significand - x.reach) * 2 ^ x.scale < r := by
      rw [sub_mul]
      exact hlow
    have hgt : r < (x.significand + 1 / 2) * 2 ^ x.scale := by
      rw [add_mul, one_div_mul_eq_div]
      exact hhigh
    exact ⟨hlt.le, hgt.le, fun hend => (hend.elim hlt.ne' hgt.ne).elim⟩
  have hreach := reach_pos x
  rw [zpow_add₀ (by norm_num)] at hgrid
  push_cast at habove ⊢
  generalize (10 : ℚ) ^ grid = step at *
  -- Under a power of two the basin reaches less far down, so only the neighbour above is sure to
  -- lie in it.
  by_cases hnarrow : x.significand = binade ∧ -1074 < x.scale
  · right
    have hbinade : (binade : ℚ) = 4503599627370496 := by norm_num [binade]
    have hvalue : x.value = 4503599627370496 * 2 ^ x.scale := by rw [value, hnarrow.1, hbinade]
    have hstep : step < 2 ^ x.scale / 2 := by
      rw [hvalue] at hgrid
      norm_num at hgrid
      linarith
    refine hinside _ ?_ (by linarith)
    nlinarith
  · have hhalf : x.reach = 1 / 2 := if_neg hnarrow
    have hstep : step < 2 ^ x.scale := by
      have hlt : (x.significand : ℚ) < 9007199254740992 := by
        have hlt := significand_lt x
        exact_mod_cast hlt
      have hvalue : x.value < 9007199254740992 * 2 ^ x.scale := mul_lt_mul_of_pos_right hlt hunit
      norm_num at hgrid
      linarith
    rw [hhalf] at hinside
    by_cases hnear : x.value - 2 ^ x.scale / 2 < below * step
    · left
      exact hinside _ (by linarith) (by linarith)
    · right
      exact hinside _ (by linarith) (by linarith)

/-- The number lies between the two neighbours that are tested. -/
theorem neighbour_bounds {grid : Int} {below : Nat}
    (h : (x.basin.finer (-grid).toNat).value / (x.basin.unit * Nat.pow 10 grid.toNat) = below) :
    (below * 10 ^ grid : ℚ) ≤ x.value ∧ x.value < (below + 1 : Nat) * 10 ^ grid := by
  have hweight := weight_pos x grid
  have hstepPos : 0 < x.basin.unit * Nat.pow 10 grid.toNat :=
    Nat.mul_pos (basin_unit_pos x) (Nat.pow_pos (by decide))
  constructor
  · rw [← mul_le_mul_iff_of_pos_right hweight, mul_assoc, ← step_eq, ← finer_value, ← h]
    exact_mod_cast Nat.div_mul_le_self _ _
  · rw [← mul_lt_mul_iff_of_pos_right hweight, mul_assoc, ← step_eq, ← finer_value, ← h]
    exact_mod_cast Nat.lt_mul_of_div_lt (Nat.lt_succ_self _) hstepPos

/-- A number below a power of ten has neighbours that are not above it. -/
theorem le_of_nearest?_eq_some {tieUp : Bool} {grid : Int} {count steps : Nat}
    (hvalue : x.value < 10 ^ (grid + count)) (h : x.basin.nearest? tieUp grid = some steps) :
    steps ≤ 10 ^ count := by
  unfold Basin.nearest? at h
  dsimp only at h
  generalize hbelow :
    (x.basin.finer (-grid).toNat).value / (x.basin.unit * Nat.pow 10 grid.toNat) = below at h
  have hlt : (below : ℚ) * 10 ^ grid < 10 ^ count * 10 ^ grid := by
    refine (neighbour_bounds hbelow).1.trans_lt ?_
    rwa [zpow_add₀ (by norm_num), zpow_natCast, mul_comm] at hvalue
  have hcount : below < 10 ^ count := by
    exact_mod_cast lt_of_mul_lt_mul_right hlt (by positivity)
  have hsteps : steps = below ∨ steps = below + 1 := by
    split at h
    · split at h
      · exact Or.inl (Option.some.inj h).symm
      · exact Or.inr (Option.some.inj h).symm
    · exact Or.inl (Option.some.inj h).symm
    · exact Or.inr (Option.some.inj h).symm
    · cases h
  omega

theorem nearest?_ne_none (hzero : x.isZero = false) (tieUp : Bool) {grid : Int}
    (hgrid : (10 : ℚ) ^ (grid + 16) ≤ x.value) : x.basin.nearest? tieUp grid ≠ none := by
  intro h
  unfold Basin.nearest? at h
  dsimp only at h
  generalize hbelow :
    (x.basin.finer (-grid).toNat).value / (x.basin.unit * Nat.pow 10 grid.toNat) = below at h
  obtain ⟨hle, hlt⟩ := neighbour_bounds hbelow
  have hfound := exists_neighbour hgrid hle hlt
  rw [← holds_finer_iff hzero, ← holds_finer_iff hzero] at hfound
  split at h
  · split at h <;> cases h
  · cases h
  · cases h
  · next hfirst hsecond =>
    rw [hfirst, hsecond] at hfound
    rcases hfound with hfalse | hfalse <;> cases hfalse

/-! ## The search over all grids -/

/-- The first digit of a ratio stands no higher than its exponent says. -/
theorem ten_zpow_leadingExponent_le {value unit : Nat} (hvalue : 0 < value) (hunit : 0 < unit) :
    (10 : ℚ) ^ leadingExponent value unit ≤ value / unit := by
  have hvalueCast : (0 : ℚ) < value := by exact_mod_cast hvalue
  have hunitCast : (0 : ℚ) < unit := by exact_mod_cast hunit
  unfold leadingExponent
  split
  · next hle =>
    have hne : value / unit ≠ 0 := (Nat.div_pos hle hunit).ne'
    exact le_trans (toDigits_bounds hne).1 Nat.cast_div_le
  · next hlt =>
    have hne : unit / value ≠ 0 := (Nat.div_pos (not_le.mp hlt).le hvalue).ne'
    have hplaces : 0 < (Nat.toDigits 10 (unit / value)).length := Nat.length_toDigits_pos
    have hupper : unit < value * 10 ^ (Nat.toDigits 10 (unit / value)).length := by
      rw [mul_comm, ← Nat.div_lt_iff_lt_mul hvalue]
      exact (Nat.length_toDigits_le_iff (by decide) hplaces).mp le_rfl
    dsimp only
    generalize (Nat.toDigits 10 (unit / value)).length = places at hplaces hupper
    split
    · next hreached =>
      have hexponent : (1 : Int) - places = -((places - 1 : Nat) : Int) := by omega
      rw [hexponent, zpow_neg, zpow_natCast, inv_le_iff_one_le_mul₀ (by positivity),
        div_mul_eq_mul_div, one_le_div₀ hunitCast]
      exact_mod_cast hreached
    · rw [zpow_neg, zpow_natCast, inv_le_iff_one_le_mul₀ (by positivity), div_mul_eq_mul_div,
        one_le_div₀ hunitCast]
      exact_mod_cast hupper.le

/-- And it stands no lower, so that one digit more is too much. -/
theorem lt_ten_zpow_leadingExponent {value unit : Nat} (hvalue : 0 < value) (hunit : 0 < unit) :
    (value / unit : ℚ) < 10 ^ (leadingExponent value unit + 1) := by
  have hunitCast : (0 : ℚ) < unit := by exact_mod_cast hunit
  unfold leadingExponent
  split
  · next hle =>
    have hupper := (toDigits_bounds (Nat.div_pos hle hunit).ne').2
    rw [zpow_natCast] at hupper
    rw [sub_add_cancel, zpow_natCast, div_lt_iff₀ hunitCast]
    exact_mod_cast (Nat.div_lt_iff_lt_mul hunit).mp (by exact_mod_cast hupper)
  · next hlt =>
    have hlower := (toDigits_bounds (Nat.div_pos (not_le.mp hlt).le hvalue).ne').1
    have hpositive : 0 < (Nat.toDigits 10 (unit / value)).length := Nat.length_toDigits_pos
    dsimp only
    generalize (Nat.toDigits 10 (unit / value)).length = places at hpositive hlower
    obtain ⟨more, rfl⟩ := Nat.exists_eq_add_one_of_ne_zero hpositive.ne'
    rw [Nat.cast_succ, add_sub_cancel_right, zpow_natCast] at hlower
    rw [Nat.add_sub_cancel]
    split
    · have hproduct : value * 10 ^ more ≤ unit := by
        rw [mul_comm]
        exact (Nat.le_div_iff_mul_le hvalue).mp (by exact_mod_cast hlower)
      have hle : (value / unit : ℚ) ≤ 10 ^ (-(more : Int)) := by
        rw [div_le_iff₀ hunitCast, zpow_neg, zpow_natCast, inv_mul_eq_div,
          le_div_iff₀ (by positivity)]
        exact_mod_cast hproduct
      exact hle.trans_lt (zpow_lt_zpow_right₀ (by norm_num) (by omega))
    · next hunreached =>
      rw [Nat.cast_succ, neg_add, neg_add_cancel_right, div_lt_iff₀ hunitCast, zpow_neg,
        zpow_natCast, inv_mul_eq_div, lt_div_iff₀ (by positivity)]
      exact_mod_cast not_le.mp hunreached

/-- The shortest digits are those of a multiple of a power of ten in the basin. -/
theorem exists_shortest (hzero : x.isZero = false) (tieUp : Bool) :
    ∃ (steps : Nat) (grid : Int), steps ≠ 0 ∧ steps ≤ 10 ^ 17 ∧ InBasin x (steps * 10 ^ grid) ∧
      x.shortest tieUp = ⟨stripZeros (Nat.toDigits 10 steps),
        grid + (Nat.toDigits 10 steps).length - 1⟩ := by
  have hunit := basin_unit_pos x
  have hunitCast : (0 : ℚ) < x.basin.unit := by exact_mod_cast hunit
  have hvalue : 0 < x.basin.value :=
    Nat.mul_pos (Nat.mul_pos (by decide) (one_le_significand hzero)) (Nat.pow_pos (by decide))
  have hlead := ten_zpow_leadingExponent_le hvalue hunit
  have hupper := lt_ten_zpow_leadingExponent hvalue hunit
  rw [basin_value, mul_div_cancel_right₀ _ hunitCast.ne'] at hlead hupper
  unfold shortest
  dsimp only
  generalize leadingExponent x.basin.value x.basin.unit = lead at hlead hupper
  split
  · next steps grid hfound =>
    obtain ⟨more, hrange, hmore⟩ := List.exists_of_findSome?_eq_some hfound
    obtain ⟨steps', hnearest, hpair⟩ := Option.map_eq_some_iff.mp hmore
    obtain ⟨rfl, rfl⟩ := Prod.mk.inj hpair
    have hbasin := inBasin_of_nearest?_eq_some hzero hnearest
    have hcount : x.value < 10 ^ (lead - more + (more + 1 : Nat)) := by
      rwa [Nat.cast_succ, ← add_assoc, sub_add_cancel]
    have hpower : 10 ^ (more + 1) ≤ 10 ^ 17 :=
      Nat.pow_le_pow_right (by decide) (List.mem_range.mp hrange)
    refine ⟨steps', lead - more, ?_, (le_of_nearest?_eq_some hcount hnearest).trans hpower, hbasin,
      rfl⟩
    rintro rfl
    have hpositive := hbasin.low_bound hzero
    rw [Nat.cast_zero, zero_mul] at hpositive
    exact absurd hpositive (not_le.mpr (by positivity))
  · next hnone =>
    -- seventeen digits would have been enough
    have hlast := List.findSome?_eq_none_iff.mp hnone 16 (by decide)
    rw [Option.map_eq_none_iff] at hlast
    refine absurd hlast (nearest?_ne_none hzero tieUp ?_)
    rwa [Nat.cast_ofNat, sub_add_cancel]

end FormCompiler.Binary64
