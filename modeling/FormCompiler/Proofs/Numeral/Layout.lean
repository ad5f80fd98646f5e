import FormCompiler.Numeral.Reader
import FormCompiler.Proofs.Binary64.Shortest
import FormCompiler.Text.Search
import Mathlib.Data.List.TakeWhile

/-!
# Written numerals

A numeral is laid out as a sign, digits, perhaps a fraction and perhaps an exponent.  Each style
lays a number out so, and what the digits are worth is kept: a finite number is the number nearest
to its own text.
-/

namespace FormCompiler

/-! ## The value of digits -/

namespace Numeral

theorem valueOf_eq (digits : List Char) : valueOf digits = Nat.ofDigitChars 10 digits 0 := by
  unfold valueOf
  rw [Nat.ofDigitChars_eq_foldl]
  congr 1
  funext value c
  rw [Nat.mul_comm]
  rfl

theorem valueOf_append (first second : List Char) :
    valueOf (first ++ second) = 10 ^ second.length * valueOf first + valueOf second := by
  rw [valueOf_eq, Nat.ofDigitChars_append, Nat.ofDigitChars_eq_ofDigitChars_zero, valueOf_eq,
    valueOf_eq]

theorem valueOf_replicate_zero (count : Nat) : valueOf (List.replicate count '0') = 0 := by
  rw [valueOf_eq, Nat.ofDigitChars_replicate_zero, Nat.mul_zero]

theorem valueOf_toDigits (n : Nat) : valueOf (Nat.toDigits 10 n) = n := by
  rw [valueOf_eq, Nat.ofDigitChars_ten_toDigits]

/-- Digits of a number, at least one. -/
structure IsDigits (text : List Char) : Prop where
  ne_nil : text ≠ []
  isDigit : ∀ c ∈ text, c.isDigit = true

namespace IsDigits

theorem replicate_zero {count : Nat} (h : count ≠ 0) : IsDigits (List.replicate count '0') := by
  refine ⟨fun hnil => h (List.replicate_eq_nil_iff _ |>.mp hnil), fun c hmem => ?_⟩
  rw [List.eq_of_mem_replicate hmem]
  rfl

theorem toDigits (n : Nat) : IsDigits (Nat.toDigits 10 n) :=
  ⟨Nat.toDigits_ne_nil, fun _ hmem => Nat.isDigit_of_mem_toDigits (by decide) (by decide) hmem⟩

/-- More digits may follow, or none. -/
theorem append {first second : List Char} (hfirst : IsDigits first)
    (hsecond : ∀ c ∈ second, c.isDigit = true) : IsDigits (first ++ second) := by
  refine ⟨List.append_ne_nil_of_left_ne_nil hfirst.ne_nil second, fun c hmem => ?_⟩
  rcases List.mem_append.mp hmem with hmem | hmem
  · exact hfirst.isDigit c hmem
  · exact hsecond c hmem

end IsDigits

/-- The digits of a number that is not zero begin with another digit than zero. -/
theorem head?_toDigits_ne {n : Nat} (h : n ≠ 0) : (Nat.toDigits 10 n).head? ≠ some '0' := by
  induction n using Nat.strongRecOn with
  | ind n ih =>
    rcases Nat.lt_or_ge n 10 with hlt | hge
    · rw [Nat.toDigits_of_lt_base hlt, List.head?_cons]
      intro heq
      exact h (Nat.digitChar_eq_zero.mp (Option.some.inj heq))
    · rw [Nat.toDigits_of_base_le (by decide) hge,
        List.head?_append_of_ne_nil _ Nat.toDigits_ne_nil]
      exact ih (n / 10) (by omega) (by omega)

end Numeral

open Numeral

theorem Text.decimal_injective {m n : Nat} (h : decimal m = decimal n) : m = n := by
  have hvalues := congrArg (fun text => valueOf text.toList) h
  simpa [decimal, valueOf_toDigits] using hvalues

theorem Binary64.stripZeros_ne_nil (digits : List Char) : stripZeros digits ≠ [] := by
  unfold stripZeros
  cases (digits.reverse.dropWhile (· == '0')).reverse with
  | nil => simp
  | cons first rest => simp

/-- Only zeros are taken from the end of digits. -/
theorem Binary64.exists_stripZeros {digits : List Char} (h : digits ≠ []) :
    ∃ count, digits = stripZeros digits ++ List.replicate count '0' := by
  have hsplit := List.takeWhile_append_dropWhile (p := (· == '0')) (l := digits.reverse)
  have hzeros : digits.reverse.takeWhile (· == '0') =
      List.replicate (digits.reverse.takeWhile (· == '0')).length '0' :=
    List.eq_replicate_iff.mpr ⟨rfl, fun c hmem => by
      simpa using List.mem_takeWhile_imp (p := fun c => c == '0') hmem⟩
  rw [hzeros] at hsplit
  unfold stripZeros
  generalize (digits.reverse.takeWhile (· == '0')).length = count at hsplit
  generalize digits.reverse.dropWhile (· == '0') = kept at hsplit
  have heq : digits = kept.reverse ++ List.replicate count '0' := by
    rw [← List.reverse_replicate, ← List.reverse_append, hsplit, List.reverse_reverse]
  cases hkept : kept.reverse with
  | nil =>
    rw [hkept, List.nil_append] at heq
    rw [heq] at h
    obtain ⟨more, rfl⟩ := Nat.exists_eq_add_one_of_ne_zero fun hzero =>
      h (List.replicate_eq_nil_iff _ |>.mpr hzero)
    exact ⟨more, by rw [heq, List.replicate_succ, List.singleton_append]⟩
  | cons first rest =>
    rw [hkept] at heq
    exact ⟨count, heq⟩

/-! ## Numerals as they are written -/

/-- The parts of a numeral: its sign, the digits before the point, those after it, and the sign and
the digits of its exponent. -/
structure WrittenNumeral where
  negative : Bool
  whole : List Char
  fraction : Option (List Char)
  exponent : Option (Bool × List Char)
  whole_digits : IsDigits whole
  /-- Only a single digit may be a zero at the front. -/
  whole_head : whole.head? = some '0' → whole.length = 1
  fraction_digits : ∀ digits ∈ fraction, IsDigits digits
  exponent_digits : ∀ part ∈ exponent, IsDigits part.2

namespace WrittenNumeral

def fractionText : Option (List Char) → List Char
  | none => []
  | some digits => '.' :: digits

def exponentText : Option (Bool × List Char) → List Char
  | none => []
  | some (negative, digits) => 'e' :: (if negative then '-' else '+') :: digits

def text (n : WrittenNumeral) : List Char :=
  (if n.negative then ['-'] else []) ++
    (n.whole ++ (fractionText n.fraction ++ exponentText n.exponent))

/-- The value of an exponent, zero if there is none. -/
def shift : Option (Bool × List Char) → Int
  | none => 0
  | some (negative, digits) => if negative then -(valueOf digits : Int) else valueOf digits

def decimal (n : WrittenNumeral) : Decimal :=
  ⟨n.negative, valueOf (n.whole ++ n.fraction.getD []),
    shift n.exponent - (n.fraction.getD []).length⟩

def isWhole (n : WrittenNumeral) : Bool := n.fraction.isNone && n.exponent.isNone

/-- Positional notation with a point. -/
def IsPointed (n : WrittenNumeral) : Prop := n.exponent = none ∧ n.fraction.isSome = true

/-- One digit before the point, and an exponent with a sign and no superfluous zero. -/
def IsScaled (exponent : Int) (n : WrittenNumeral) : Prop :=
  n.whole.length = 1 ∧
    n.exponent = some (decide (exponent < 0), Nat.toDigits 10 exponent.natAbs)

/-- The notation that a style has for a number with an exponent. -/
def Follows (style : NumeralStyle) (exponent : Int) (n : WrittenNumeral) : Prop :=
  if style.positional exponent = true then
    n.exponent = none ∧ (style.pointZero = true → n.IsPointed)
  else n.IsScaled exponent

/-- With a point behind whole numbers no numeral is without a point and without an exponent. -/
theorem Follows.isWhole_eq_false {style : NumeralStyle} {exponent : Int} {n : WrittenNumeral}
    (h : n.Follows style exponent) (hstyle : style.pointZero = true) : n.isWhole = false := by
  unfold Follows at h
  split at h
  · obtain ⟨digits, hdigits⟩ := Option.isSome_iff_exists.mp (h.2 hstyle).2
    rw [isWhole, hdigits]
    rfl
  · rw [isWhole, h.2, Option.isNone_some, Bool.and_false]

def ofNat (negative : Bool) (n : Nat) : WrittenNumeral where
  negative := negative
  whole := Nat.toDigits 10 n
  fraction := none
  exponent := none
  whole_digits := IsDigits.toDigits n
  whole_head h := by
    by_cases hzero : n = 0
    · rw [hzero]
      rfl
    · exact absurd h (head?_toDigits_ne hzero)
  fraction_digits _ h := absurd h (Option.not_mem_none _)
  exponent_digits _ h := absurd h (Option.not_mem_none _)

theorem text_ofNat (negative : Bool) (n : Nat) :
    (ofNat negative n).text = (if negative then ['-'] else []) ++ Nat.toDigits 10 n := by
  simp only [text, ofNat, fractionText, exponentText, List.append_nil]
  rfl

end WrittenNumeral

/-! ## Digits with an exponent -/

namespace Scientific

/-- The digits stand for a number: there is at least one, and zero is written as one digit. -/
structure WellFormed (s : Scientific) : Prop where
  digits : IsDigits s.digits
  head : s.digits.head? = some '0' → s = ⟨['0'], 0⟩

/-- The digits stand for a number that is not zero, and the first one counts. -/
structure IsLeading (s : Scientific) : Prop where
  digits : IsDigits s.digits
  head : s.digits.head? ≠ some '0'

theorem IsLeading.wellFormed {s : Scientific} (h : s.IsLeading) : s.WellFormed :=
  ⟨h.digits, fun hhead => absurd hhead h.head⟩

def value (s : Scientific) : ℚ := valueOf s.digits * 10 ^ (s.exponent + 1 - s.digits.length)

variable {s : Scientific}

/-- Behind a sign the text is a numeral of the number, and it has some shape. -/
def LaidOut (s : Scientific) (shape : WrittenNumeral → Prop) (text : List Char) : Prop :=
  ∀ negative : Bool, ∃ n : WrittenNumeral,
    n.text = (if negative then ['-'] else []) ++ text ∧ shape n ∧
      n.negative = negative ∧ n.decimal.value = s.value

theorem LaidOut.mono {shape shape' : WrittenNumeral → Prop} {text : List Char}
    (h : s.LaidOut shape text) (hshape : ∀ n, shape n → shape' n) : s.LaidOut shape' text := by
  intro negative
  obtain ⟨n, htext, hn, hrest⟩ := h negative
  exact ⟨n, htext, hshape n hn, hrest⟩

/-- A numeral may have more zeros at its end, if its exponent is lower by as many. -/
theorem value_eq_of_digits (count : Nat) {d : Decimal}
    (hdigits : d.digits = 10 ^ count * valueOf s.digits)
    (hexponent : d.exponent + count = s.exponent + 1 - s.digits.length) : d.value = s.value := by
  rw [Decimal.value, value, hdigits, ← hexponent, zpow_add₀ (by norm_num), zpow_natCast]
  push_cast
  ring

/-- Digits around a point. -/
theorem laidOut_of_point {whole fraction : List Char} (hwhole : IsDigits whole)
    (hhead : whole.head? = some '0' → whole.length = 1) (hfraction : IsDigits fraction)
    (count : Nat) (hdigits : valueOf (whole ++ fraction) = 10 ^ count * valueOf s.digits)
    (hexponent : (count : Int) - fraction.length = s.exponent + 1 - s.digits.length) :
    s.LaidOut WrittenNumeral.IsPointed (whole ++ '.' :: fraction) := by
  intro negative
  refine ⟨⟨negative, whole, some fraction, none, hwhole, hhead, ?_, ?_⟩, ?_, ⟨rfl, rfl⟩, rfl, ?_⟩
  · rintro digits ⟨⟩
    exact hfraction
  · exact fun part hpart => absurd hpart (Option.not_mem_none part)
  · simp only [WrittenNumeral.text, WrittenNumeral.fractionText, WrittenNumeral.exponentText,
      List.append_nil]
  · refine value_eq_of_digits count hdigits ?_
    simp only [WrittenNumeral.decimal, WrittenNumeral.shift, Option.getD_some]
    omega

/-- Zeros at the end make no superfluous zero at the front. -/
theorem WellFormed.padded (h : s.WellFormed) {count : Nat}
    (hcount : s.exponent + 1 = s.digits.length + count) :
    IsDigits (s.digits ++ List.replicate count '0') ∧
      ((s.digits ++ List.replicate count '0').head? = some '0' →
        (s.digits ++ List.replicate count '0').length = 1) := by
  refine ⟨h.digits.append fun c hmem => ?_, fun hhead => ?_⟩
  · rw [List.eq_of_mem_replicate hmem]
    rfl
  · rw [List.head?_append_of_ne_nil _ h.digits.ne_nil] at hhead
    obtain rfl := h.head hhead
    obtain rfl : count = 0 := by simpa using hcount.symm
    rfl

/-- With zeros up to where a point would stand. -/
theorem laidOut_whole (h : s.WellFormed) {count : Nat}
    (hcount : s.exponent + 1 = s.digits.length + count) :
    s.LaidOut (·.exponent = none) (s.digits ++ List.replicate count '0') := by
  intro negative
  obtain ⟨hdigits, hhead⟩ := h.padded hcount
  refine ⟨⟨negative, _, none, none, hdigits, hhead, ?_, ?_⟩, ?_, rfl, rfl, ?_⟩
  · exact fun digits hfraction => absurd hfraction (Option.not_mem_none digits)
  · exact fun part hpart => absurd hpart (Option.not_mem_none part)
  · simp only [WrittenNumeral.text, WrittenNumeral.fractionText, WrittenNumeral.exponentText,
      List.append_nil]
  · refine value_eq_of_digits count ?_ ?_
    · simp only [WrittenNumeral.decimal, Option.getD_none, List.append_nil]
      rw [valueOf_append, valueOf_replicate_zero, List.length_replicate, Nat.add_zero]
    · simp only [WrittenNumeral.decimal, WrittenNumeral.shift, Option.getD_none, List.length_nil]
      omega

/-- With zeros up to the point. -/
theorem laidOut_padded (h : s.WellFormed) {count : Nat}
    (hcount : s.exponent + 1 = s.digits.length + count) :
    s.LaidOut WrittenNumeral.IsPointed
      (s.digits ++ List.replicate count '0' ++ ['.', '0']) := by
  obtain ⟨hdigits, hhead⟩ := h.padded hcount
  refine laidOut_of_point hdigits hhead (IsDigits.replicate_zero one_ne_zero) (count + 1) ?_ ?_
  · rw [List.append_assoc, ← List.replicate_succ', valueOf_append, valueOf_replicate_zero,
      List.length_replicate, Nat.add_zero]
  · rw [List.length_singleton]
    omega

/-- With the point among the digits. -/
theorem laidOut_split (h : s.WellFormed) {count : Nat} (hcount : s.exponent + 1 = count)
    (hpos : 0 < count) (hlt : count < s.digits.length) :
    s.LaidOut WrittenNumeral.IsPointed (s.digits.take count ++ '.' :: s.digits.drop count) := by
  refine laidOut_of_point
    ⟨fun hnil => ?_, fun c hmem => h.digits.isDigit c (List.mem_of_mem_take hmem)⟩
    (fun hhead => ?_)
    ⟨fun hnil => ?_, fun c hmem => h.digits.isDigit c (List.mem_of_mem_drop hmem)⟩ 0 ?_ ?_
  · rcases List.take_eq_nil_iff.mp hnil with hzero | hempty
    · omega
    · exact h.digits.ne_nil hempty
  · rw [List.head?_take, if_neg (by omega)] at hhead
    obtain rfl := h.head hhead
    simp only [List.length_singleton] at hlt
    omega
  · have hlength := List.drop_eq_nil_iff.mp hnil
    omega
  · rw [List.take_append_drop, pow_zero, one_mul]
  · rw [List.length_drop]
    omega

/-- With zeros behind the point. -/
theorem laidOut_behind (h : s.WellFormed) {count : Nat} (hcount : s.exponent + 1 = -count) :
    s.LaidOut WrittenNumeral.IsPointed
      ('0' :: '.' :: (List.replicate count '0' ++ s.digits)) := by
  have hfraction : IsDigits (List.replicate count '0' ++ s.digits) := by
    refine ⟨List.append_ne_nil_of_right_ne_nil _ h.digits.ne_nil, fun c hmem => ?_⟩
    rcases List.mem_append.mp hmem with hmem | hmem
    · rw [List.eq_of_mem_replicate hmem]
      rfl
    · exact h.digits.isDigit c hmem
  refine laidOut_of_point (IsDigits.replicate_zero one_ne_zero) (fun _ => rfl) hfraction 0 ?_ ?_
  · rw [← List.append_assoc, ← List.replicate_add, valueOf_append, valueOf_replicate_zero,
      Nat.mul_zero, Nat.zero_add, pow_zero, one_mul]
  · rw [List.length_append, List.length_replicate]
    omega

theorem shift_toDigits (exponent : Int) :
    WrittenNumeral.shift (some (decide (exponent < 0), Nat.toDigits 10 exponent.natAbs)) =
      exponent := by
  simp only [WrittenNumeral.shift, valueOf_toDigits, decide_eq_true_eq]
  split <;> omega

/-- With the point behind the first digit, and the exponent. -/
theorem laidOut_exponent (h : s.WellFormed) :
    s.LaidOut (WrittenNumeral.IsScaled s.exponent) s.exponentText := by
  intro negative
  obtain ⟨first, rest, hdigits⟩ := List.exists_cons_of_ne_nil h.digits.ne_nil
  have hall := h.digits.isDigit
  rw [hdigits] at hall
  have hexponent : ∀ part ∈ some (decide (s.exponent < 0), Nat.toDigits 10 s.exponent.natAbs),
      IsDigits part.2 := by
    rintro part ⟨⟩
    exact IsDigits.toDigits _
  have hfirst : IsDigits [first] := ⟨List.cons_ne_nil _ _, fun c hmem =>
    hall c (List.mem_cons.mpr (Or.inl (List.mem_singleton.mp hmem)))⟩
  unfold exponentText
  cases rest with
  | nil =>
    refine ⟨⟨negative, [first], none, some (decide (s.exponent < 0), Nat.toDigits 10 _),
      hfirst, fun _ => rfl, fun part hpart => absurd hpart (Option.not_mem_none part), hexponent⟩,
      ?_, ⟨rfl, rfl⟩, rfl, ?_⟩
    · simp [WrittenNumeral.text, WrittenNumeral.fractionText, WrittenNumeral.exponentText, hdigits]
    · refine value_eq_of_digits 0 ?_ ?_
      · simp [WrittenNumeral.decimal, hdigits]
      · simp [WrittenNumeral.decimal, shift_toDigits, hdigits]
  | cons second rest =>
    refine ⟨⟨negative, [first], some (second :: rest),
      some (decide (s.exponent < 0), Nat.toDigits 10 _), hfirst, fun _ => rfl, ?_, hexponent⟩,
      ?_, ⟨rfl, rfl⟩, rfl, ?_⟩
    · rintro digits ⟨⟩
      exact ⟨List.cons_ne_nil _ _, fun c hmem => hall c (List.mem_cons_of_mem _ hmem)⟩
    · simp [WrittenNumeral.text, WrittenNumeral.fractionText, WrittenNumeral.exponentText, hdigits]
    · refine value_eq_of_digits 0 ?_ ?_
      · simp [WrittenNumeral.decimal, hdigits]
      · simp only [WrittenNumeral.decimal, shift_toDigits, hdigits, Option.getD_some,
          List.length_cons]
        omega

/-- A layout in any style keeps the value and has the notation of the style. -/
theorem laidOut_render (h : s.WellFormed) (style : NumeralStyle) :
    s.LaidOut (WrittenNumeral.Follows style s.exponent) (s.render style) := by
  unfold render
  by_cases hpositional : style.positional s.exponent = true
  · have hpointed : ∀ n : WrittenNumeral, n.IsPointed → n.Follows style s.exponent := by
      intro n hn
      rw [WrittenNumeral.Follows, if_pos hpositional]
      exact ⟨hn.1, fun _ => hn⟩
    rw [if_pos hpositional]
    unfold positionalText
    dsimp only
    by_cases hpadded : (s.digits.length : Int) ≤ s.exponent + 1
    · obtain ⟨count, hcount⟩ := Int.eq_ofNat_of_zero_le (sub_nonneg.mpr hpadded)
      rw [if_pos hpadded, hcount, Int.toNat_natCast]
      cases hpoint : style.pointZero with
      | true => exact (laidOut_padded h (by omega)).mono hpointed
      | false =>
          rw [if_neg Bool.false_ne_true, List.append_nil]
          refine (laidOut_whole h (by omega)).mono fun n hn => ?_
          rw [WrittenNumeral.Follows, if_pos hpositional, hpoint]
          exact ⟨hn, fun hfalse => absurd hfalse Bool.false_ne_true⟩
    · rw [if_neg hpadded]
      by_cases hsplit : 0 < s.exponent + 1
      · obtain ⟨count, hcount⟩ := Int.eq_ofNat_of_zero_le hsplit.le
        rw [if_pos hsplit, hcount, Int.toNat_natCast]
        exact (laidOut_split h hcount (by omega) (by omega)).mono hpointed
      · obtain ⟨count, hcount⟩ := Int.eq_ofNat_of_zero_le (show 0 ≤ -(s.exponent + 1) by omega)
        rw [if_neg hsplit, hcount, Int.toNat_natCast]
        exact (laidOut_behind h (by omega)).mono hpointed
  · rw [if_neg hpositional]
    refine (laidOut_exponent h).mono fun n hn => ?_
    rwa [WrittenNumeral.Follows, if_neg hpositional]

end Scientific

/-! ## Finite numbers -/

namespace Binary64

variable {x : Binary64}

/-- The shortest digits of a number that is not zero stand for a ratio of its basin. -/
theorem shortest_spec (hzero : x.isZero = false) (tieUp : Bool) :
    (x.shortest tieUp).IsLeading ∧ InBasin x (x.shortest tieUp).value := by
  obtain ⟨steps, grid, hsteps, -, hbasin, heq⟩ := exists_shortest hzero tieUp
  obtain ⟨count, hcount⟩ := exists_stripZeros (Nat.toDigits_ne_nil (n := steps) (b := 10))
  have hdigits := IsDigits.toDigits steps
  have hhead := head?_toDigits_ne hsteps
  have hvalue := valueOf_toDigits steps
  have hne := stripZeros_ne_nil (Nat.toDigits 10 steps)
  rw [heq]
  generalize hkept : stripZeros (Nat.toDigits 10 steps) = kept at hcount hne
  rw [hcount] at hdigits hhead hvalue ⊢
  refine ⟨⟨⟨hne, fun c hmem => hdigits.isDigit c (List.mem_append_left _ hmem)⟩, ?_⟩, ?_⟩
  · rwa [List.head?_append_of_ne_nil _ hne] at hhead
  · rw [valueOf_append, valueOf_replicate_zero, List.length_replicate, Nat.add_zero] at hvalue
    have hsum : grid + ((kept ++ List.replicate count '0').length : Int) - 1 + 1 - kept.length =
        count + grid := by
      rw [List.length_append, List.length_replicate]
      omega
    rw [← hvalue] at hbasin
    rw [Scientific.value, hsum, zpow_add₀ (by norm_num), zpow_natCast]
    convert hbasin using 1
    push_cast
    ring

/-- Seventeen digits are enough without the zeros at the end. -/
theorem length_stripZeros_toDigits_le {steps : Nat} (hsteps : steps ≤ 10 ^ 17) :
    (stripZeros (Nat.toDigits 10 steps)).length ≤ 17 := by
  rcases hsteps.lt_or_eq with hlt | rfl
  · obtain ⟨count, hcount⟩ := exists_stripZeros (Nat.toDigits_ne_nil (n := steps) (b := 10))
    have hlength := (Nat.length_toDigits_le_iff (by decide) (by decide)).mpr hlt
    rw [hcount, List.length_append] at hlength
    omega
  · decide +kernel

/-- The shortest digits of a finite number are few, and so are the places of their exponent. -/
theorem shortest_bounds (hfinite : x.isFinite = true) (hzero : x.isZero = false) (tieUp : Bool) :
    (x.shortest tieUp).digits.length ≤ 17 ∧
      -330 ≤ (x.shortest tieUp).exponent ∧ (x.shortest tieUp).exponent < 310 := by
  obtain ⟨steps, grid, hsteps, hle, hbasin, heq⟩ := exists_shortest hzero tieUp
  obtain ⟨hlow, hhigh⟩ := value_bounds (d := ⟨false, steps, grid⟩) hsteps
  have hleast := hbasin.low_bound hzero
  have hscale := scale_le_of_isFinite hfinite
  have hgreatest : (steps * 10 ^ grid : ℚ) < 2 ^ (1025 : Int) :=
    hbasin.lt_two_zpow.trans_le (zpow_le_zpow_right₀ (by norm_num) (by omega))
  rw [heq]
  refine ⟨length_stripZeros_toDigits_le hle, ?_, ?_⟩
  · have hpower := ten_zpow_lt_least.trans_le (hleast.trans hhigh.le)
    have hexponent := (zpow_lt_zpow_iff_right₀ (by norm_num)).mp hpower
    dsimp only at hexponent ⊢
    omega
  · have hpower := hlow.trans_lt (hgreatest.trans lt_ten_zpow_infinite)
    have hexponent := (zpow_lt_zpow_iff_right₀ (by norm_num)).mp hpower
    dsimp only at hexponent ⊢
    omega

theorem ofMagnitude_self (x : Binary64) : ofMagnitude x.isNegative x.magnitude = x :=
  ext_sign (isNegative_ofMagnitude (magnitude_lt x)) (magnitude_ofMagnitude (magnitude_lt x))

/-- The number nearest to the text of a finite number is the number itself. -/
theorem exists_finiteText (hfinite : x.isFinite = true) (style : NumeralStyle)
    (hstyle : style.pointZero = true) :
    ∃ n : WrittenNumeral, n.text = x.finiteText style ∧ n.isWhole = false ∧
      n.negative = x.isNegative ∧ ofDecimal n.decimal = x := by
  unfold finiteText
  dsimp only
  cases hzero : x.isZero with
  | true =>
    have hwell : Scientific.WellFormed ⟨['0'], 0⟩ :=
      ⟨IsDigits.replicate_zero one_ne_zero, fun _ => rfl⟩
    obtain ⟨n, htext, hshape, hsign, hvalue⟩ :=
      Scientific.laidOut_render hwell style x.isNegative
    refine ⟨n, htext, hshape.isWhole_eq_false hstyle, hsign, ?_⟩
    have hdigits : n.decimal.digits = 0 := by
      have hzeroValue : Scientific.value ⟨['0'], 0⟩ = 0 := by simp [Scientific.value, valueOf]
      rw [hzeroValue, Decimal.value, mul_eq_zero] at hvalue
      exact_mod_cast hvalue.resolve_right (by positivity)
    have hmagnitude : x.magnitude = 0 := beq_iff_eq.mp hzero
    rw [ofDecimal_of_digits_eq_zero hdigits, ← hmagnitude]
    exact (congrArg (ofMagnitude · x.magnitude) hsign).trans (ofMagnitude_self x)
  | false =>
    obtain ⟨hleading, hbasin⟩ := shortest_spec hzero style.tieUp
    obtain ⟨n, htext, hshape, hsign, hvalue⟩ :=
      Scientific.laidOut_render hleading.wellFormed style x.isNegative
    refine ⟨n, htext, hshape.isWhole_eq_false hstyle, hsign, ?_⟩
    rw [← hvalue] at hbasin
    have hdigits : n.decimal.digits ≠ 0 := by
      intro heq
      have hpositive := hbasin.low_bound hzero
      rw [Decimal.value, heq, Nat.cast_zero, zero_mul] at hpositive
      exact absurd hpositive (not_le.mpr (by positivity))
    rw [ofDecimal_of_inBasin hfinite hzero hdigits hbasin]
    exact (congrArg (ofMagnitude · x.magnitude) hsign).trans (ofMagnitude_self x)

end Binary64

end FormCompiler
