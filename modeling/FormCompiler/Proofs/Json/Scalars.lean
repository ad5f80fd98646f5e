import FormCompiler.Json.Printer
import FormCompiler.Json.Reader
import FormCompiler.Proofs.Numeral.Grammar

/-!
# Reading written texts and numbers

Each way in which a character is written is undone by one step of the reader, and the parts of a
numeral are taken one after the other.
-/

namespace FormCompiler

open Source (Apart apart_cons fourDigits paddedHex_four)

namespace Json

/-! ## Texts -/

theorem hexDigit?_digitChar : ∀ d < 16, hexDigit? (Nat.digitChar d) = some d := by
  decide

theorem codeUnit_fourDigits {n : Nat} (h : n < 65536) (rest : List Char) :
    codeUnit (fourDigits n ++ rest) = .ok (n, rest) := by
  have hvalue :
      ((n / 4096 * 16 + n / 256 % 16) * 16 + n / 16 % 16) * 16 + n % 16 = n := by
    omega
  simp only [fourDigits, List.cons_append, List.nil_append, codeUnit,
    hexDigit?_digitChar _ (show n / 4096 < 16 by omega),
    hexDigit?_digitChar _ (show n / 256 % 16 < 16 by omega),
    hexDigit?_digitChar _ (show n / 16 % 16 < 16 by omega),
    hexDigit?_digitChar _ (show n % 16 < 16 by omega), hvalue]

/-- The three ways in which a text writes a character. -/
inductive EscapedAs (c : Char) : List Char → Prop where
  | bare (hquote : c ≠ '"') (hback : c ≠ '\\') (hcode : 32 ≤ c.toNat) : EscapedAs c [c]
  | marked {mark : Char} (hmark : mark ≠ 'u') (h : escape? mark = some c) :
      EscapedAs c ['\\', mark]
  | coded (h : c.toNat < 32) : EscapedAs c ('\\' :: 'u' :: fourDigits c.toNat)

theorem escapedAs_escapedChar (c : Char) : EscapedAs c (escapedChar c) := by
  unfold escapedChar
  iterate 7
    refine iteInduction (fun h => ?_) (fun _ => ?_)
    · rw [h]
      exact .marked (by decide) rfl
  refine iteInduction (fun hcode => ?_) (fun hcode => ?_)
  · rw [paddedHex_four (by omega)]
    exact .coded hcode
  · exact .bare ‹_› ‹_› (not_lt.mp hcode)

/-- One step takes one written character. -/
theorem keptText_escapedChar (c : Char) (steps : Nat) (rest : List Char) :
    keptText (steps + 1) (escapedChar c ++ rest) =
      (keptText steps rest).map fun (content, rest) => (c :: content, rest) := by
  have hwritten := escapedAs_escapedChar c
  generalize escapedChar c = written at hwritten ⊢
  cases hwritten with
  | bare hquote hback hcode =>
      rw [List.singleton_append, keptText.eq_7 _ _ _ hquote (fun h => absurd h hback)
        (fun _ h => absurd h hback) (fun _ _ h => absurd h hback), if_neg (not_lt.mpr hcode)]
      rfl
  | marked hmark h =>
      rw [List.cons_append, List.singleton_append, keptText.eq_6 _ _ _ hmark, h]
      rfl
  | coded h =>
      rw [List.cons_append, List.cons_append, keptText.eq_5, codeUnit_fourDigits (by omega)]
      have hscalar : scalar c.toNat rest = .ok (c, rest) := by
        unfold scalar
        rw [if_neg (by simp; omega), if_neg (by simp; omega), Char.ofNat_toNat]
      simp only [bind, Except.bind, hscalar]
      rfl

/-- The content of a written text is read up to its closing quote. -/
theorem keptText_quoted (text rest : List Char) {steps : Nat} (h : text.length < steps) :
    keptText steps (text.flatMap escapedChar ++ '"' :: rest) = .ok (text, rest) := by
  induction text generalizing steps with
  | nil =>
      obtain ⟨more, rfl⟩ := Nat.exists_eq_add_one_of_ne_zero (Nat.ne_of_gt h)
      rfl
  | cons c others ih =>
      obtain ⟨more, rfl⟩ := Nat.exists_eq_add_one_of_ne_zero (Nat.ne_of_gt (Nat.zero_lt_of_lt h))
      rw [List.flatMap_cons, List.append_assoc, keptText_escapedChar,
        ih (Nat.lt_of_succ_lt_succ h)]
      rfl

theorem toList_quoted (text : String) :
    (quoted text).toList = '"' :: (text.toList.flatMap escapedChar ++ ['"']) := by
  simp [quoted]

theorem length_le_flatMap_escapedChar (text : List Char) :
    text.length ≤ (text.flatMap escapedChar).length := by
  induction text with
  | nil => exact le_refl _
  | cons c others ih =>
      have hpos : 1 ≤ (escapedChar c).length := by
        have hwritten := escapedAs_escapedChar c
        generalize escapedChar c = written at hwritten ⊢
        cases hwritten <;> simp
      rw [List.flatMap_cons, List.length_append, List.length_cons]
      omega

/-- A written text is read back, whatever follows it. -/
theorem readText_quoted (text : String) (rest : List Char) {steps : Nat}
    (h : text.toList.length < steps) :
    readText steps (text.toList.flatMap escapedChar ++ '"' :: rest) = .ok (.ok text, rest) := by
  unfold readText
  rw [keptText_quoted _ _ h]
  simp only [String.ofList_toList]

/-! ## Numbers -/

open Numeral (IsDigits takeDigits_append)

/-- What would be taken as one more part of a numeral. -/
def continuesNumeral (c : Char) : Bool := c.isDigit || c == '.' || c == 'e' || c == 'E'

theorem apart_of_continuesNumeral {holds : Char → Bool} {rest : List Char}
    (hrest : Apart continuesNumeral rest) (h : ∀ c, holds c = true → continuesNumeral c = true) :
    Apart holds rest := by
  intro c hmem
  have hc := hrest c hmem
  cases hholds : holds c with
  | false => rfl
  | true =>
      rw [h c hholds] at hc
      cases hc

theorem takeOne_of_apart {accept : Char → Bool} {text : List Char} (h : Apart accept text) :
    takeOne accept text = (false, text) := by
  cases text with
  | nil => rfl
  | cons c rest =>
      have hc : accept c = false := h c rfl
      simp [takeOne, hc]

theorem readExponent_text (negative : Bool) {digits rest : List Char} (hdigits : IsDigits digits)
    (hrest : Apart Char.isDigit rest) :
    readExponent ((if negative then '-' else '+') :: (digits ++ rest)) =
      .ok (WrittenNumeral.shift (some (negative, digits)), rest) := by
  have hne : digits.isEmpty = false := List.isEmpty_eq_false_iff.mpr hdigits.ne_nil
  cases negative <;>
    simp [readExponent, Numeral.takeSign, takeDigits_append hdigits.isDigit hrest, hne,
      WrittenNumeral.shift]

theorem takeOne_sign (negative : Bool) {whole : List Char} (hwhole : IsDigits whole)
    (rest : List Char) :
    takeOne (· == '-') ((if negative then ['-'] else []) ++ (whole ++ rest)) =
      (negative, whole ++ rest) := by
  cases negative with
  | true => rfl
  | false =>
      refine takeOne_of_apart fun c hmem => ?_
      simp only [Bool.false_eq_true, if_false, List.nil_append,
        List.head?_append_of_ne_nil _ hwhole.ne_nil] at hmem
      have hdigit := hwhole.isDigit c (List.mem_of_mem_head? hmem)
      refine beq_eq_false_iff_ne.mpr ?_
      rintro rfl
      exact absurd hdigit (by decide)

/-- A fraction is taken where one is written. -/
theorem exists_takeFraction {fraction : Option (List Char)} {after : List Char}
    (hfraction : ∀ digits ∈ fraction, IsDigits digits) (hdigit : Apart Char.isDigit after)
    (hpoint : Apart (· == '.') after) :
    ∃ afterPoint,
      takeOne (· == '.') (WrittenNumeral.fractionText fraction ++ after) =
        (fraction.isSome, afterPoint) ∧
      (if fraction.isSome then Numeral.takeDigits afterPoint
        else ([], WrittenNumeral.fractionText fraction ++ after)) = (fraction.getD [], after) ∧
      (fraction.isSome && (fraction.getD []).isEmpty) = false := by
  cases fraction with
  | none => exact ⟨after, takeOne_of_apart hpoint, rfl, rfl⟩
  | some digits =>
      have hdigits := hfraction digits rfl
      exact ⟨digits ++ after, rfl, takeDigits_append hdigits.isDigit hdigit,
        List.isEmpty_eq_false_iff.mpr hdigits.ne_nil⟩

/-- An exponent is taken where one is written. -/
theorem exists_takeExponent {exponent : Option (Bool × List Char)} {after : List Char}
    (hexponent : ∀ part ∈ exponent, IsDigits part.2) (hdigit : Apart Char.isDigit after)
    (hmark : Apart (fun c => c == 'e' || c == 'E') after) :
    ∃ afterMark,
      takeOne (fun c => c == 'e' || c == 'E') (WrittenNumeral.exponentText exponent ++ after) =
        (exponent.isSome, afterMark) ∧
      (if exponent.isSome then readExponent afterMark
        else .ok (0, WrittenNumeral.exponentText exponent ++ after)) =
          .ok (WrittenNumeral.shift exponent, after) := by
  cases exponent with
  | none => exact ⟨after, takeOne_of_apart hmark, rfl⟩
  | some part =>
      obtain ⟨negative, digits⟩ := part
      exact ⟨_, rfl, readExponent_text negative (hexponent _ rfl) hdigit⟩

/-- The parts of a written numeral are read, if what follows is not one more of them. -/
theorem readNumber_text (n : WrittenNumeral) {rest : List Char}
    (hrest : Apart continuesNumeral rest) :
    readNumber (n.text ++ rest) =
      .ok (numberOf n.negative n.isWhole n.whole (n.fraction.getD [])
        (WrittenNumeral.shift n.exponent), rest) := by
  have hmark : Apart (fun c => c == 'e' || c == 'E') rest :=
    apart_of_continuesNumeral hrest fun c h => by
      rcases Bool.or_eq_true_iff.mp h with h | h <;> simp [continuesNumeral, beq_iff_eq.mp h]
  -- Digits and points have to end before the exponent: what stands there is its letter or, where
  -- there is none, what follows the numeral.
  have hafter : ∀ holds : Char → Bool, (∀ c, holds c = true → continuesNumeral c = true) →
      holds 'e' = false → Apart holds (WrittenNumeral.exponentText n.exponent ++ rest) := by
    intro holds hclass he
    cases n.exponent with
    | none => exact apart_of_continuesNumeral hrest hclass
    | some part => exact apart_cons he _
  have hdigitClass : ∀ c : Char, c.isDigit = true → continuesNumeral c = true := fun c h => by
    simp [continuesNumeral, h]
  have hpointClass : ∀ c : Char, (c == '.') = true → continuesNumeral c = true := fun c h => by
    simp [continuesNumeral, beq_iff_eq.mp h]
  have hdigit := hafter Char.isDigit hdigitClass rfl
  have hwhole : Apart Char.isDigit (WrittenNumeral.fractionText n.fraction ++
      (WrittenNumeral.exponentText n.exponent ++ rest)) := by
    cases n.fraction with
    | none => exact hdigit
    | some digits => exact apart_cons rfl _
  obtain ⟨afterPoint, hpoint, hfraction, hfull⟩ :=
    exists_takeFraction n.fraction_digits hdigit (hafter _ hpointClass rfl)
  obtain ⟨afterMark, hexponentMark, hexponent⟩ :=
    exists_takeExponent n.exponent_digits (apart_of_continuesNumeral hrest hdigitClass) hmark
  have hne : n.whole.isEmpty = false := List.isEmpty_eq_false_iff.mpr n.whole_digits.ne_nil
  have hlead : (decide (n.whole.length ≠ 1) && decide (n.whole.head? = some '0')) = false := by
    simpa using fun hlength h => hlength (n.whole_head h)
  unfold readNumber WrittenNumeral.text
  simp only [List.append_assoc, takeOne_sign n.negative n.whole_digits,
    takeDigits_append n.whole_digits.isDigit hwhole, hne, hlead, hpoint, hfraction, hfull,
    hexponentMark]
  simp only [Bool.false_eq_true, if_false, bind, Except.bind, Option.not_isSome]
  cases hsome : n.exponent.isSome with
  | true =>
      rw [hsome, if_pos rfl] at hexponent
      rw [if_pos rfl, hexponent]
      rfl
  | false =>
      rw [hsome] at hexponent
      obtain ⟨hshift, hrest⟩ := Prod.mk.inj (Except.ok.inj hexponent)
      rw [hshift, hrest]
      rfl

/-! ## Significands -/

theorem le_valueFrom (start : Nat) (digits : List Char) :
    start ≤ digits.foldl (fun value c => value * 10 + (c.toNat - 48)) start := by
  induction digits generalizing start with
  | nil => exact le_refl _
  | cons c rest ih => exact le_trans (by omega) (ih (start * 10 + (c.toNat - 48)))

/-- Digits whose value has 64 bits are all taken. -/
theorem takeSignificand_of_lt {start : Nat} {digits : List Char}
    (h : digits.foldl (fun value c => value * 10 + (c.toNat - 48)) start < UInt64.size) :
    takeSignificand start digits =
      (digits.foldl (fun value c => value * 10 + (c.toNat - 48)) start, []) := by
  induction digits generalizing start with
  | nil => rfl
  | cons c rest ih =>
      have hnext : start * 10 + (c.toNat - 48) < UInt64.size :=
        lt_of_le_of_lt (le_valueFrom _ rest) h
      rw [takeSignificand, if_pos hnext]
      exact ih h

theorem takeSignificand_lt {start : Nat} (h : start < UInt64.size) (digits : List Char) :
    (takeSignificand start digits).1 < UInt64.size := by
  induction digits generalizing start with
  | nil => exact h
  | cons c rest ih =>
      unfold takeSignificand
      dsimp only
      split
      · next hnext => exact ih hnext
      · exact h

end Json

/-! ## Numbers of a value -/

/-- Whether a number can stand in a text: a whole one has 64 bits, any other one is finite. -/
def JsonNumber.IsWritable : JsonNumber → Prop
  | .whole n => Int64.minValue.toInt ≤ n ∧ n < UInt64.size
  | .real x => x.isFinite = true

/-- Whether a number can stand in a text from which the reader gives it back. -/
def JsonNumber.IsStable : JsonNumber → Prop
  | .whole n => JsonNumber.IsWritable (.whole n)
  | .real x => x.isFinite = true ∧
      Json.readNumber (Json.numberText (.real x)).toList = .ok (some (.real x), [])

namespace Json

-- 51.248178375505404: the significand of seventeen digits is rounded before it is divided
example : readNumber (numberText (.real ⟨0x40499fc44f1b2f60⟩)).toList =
    .ok (some (.real ⟨0x40499fc44f1b2f61⟩), []) := by
  decide +kernel

theorem toList_signedDecimal (n : Int) :
    (Text.signedDecimal n).toList = (WrittenNumeral.ofNat (decide (n < 0)) n.natAbs).text := by
  rw [WrittenNumeral.text_ofNat]
  cases n with
  | ofNat n => simp [Text.signedDecimal, Text.decimal]
  | negSucc n => simp [Text.signedDecimal, Text.decimal, Int.negSucc_lt_zero]

/-- A whole number of 64 bits is taken as it is. -/
theorem numberOf_toDigits {value : Int} (h : JsonNumber.IsWritable (.whole value)) :
    numberOf (decide (value < 0)) true (Nat.toDigits 10 value.natAbs) [] 0 =
      some (.whole value) := by
  obtain ⟨hlow, hhigh⟩ := h
  have hlt : value.natAbs < UInt64.size := by
    have hmin : Int64.minValue.toInt = -9223372036854775808 := rfl
    have hsize : UInt64.size = 18446744073709551616 := rfl
    omega
  have htake : takeSignificand 0 (Nat.toDigits 10 value.natAbs) = (value.natAbs, []) := by
    have hvalue := Numeral.valueOf_toDigits value.natAbs
    unfold Numeral.valueOf at hvalue
    rw [takeSignificand_of_lt (hvalue.symm ▸ hlt), hvalue]
  have hsigned : (if decide (value < 0) = true then -(value.natAbs : Int) else value.natAbs) =
      value := by
    simp only [decide_eq_true_eq]
    split <;> omega
  have hzero : (decide (value < 0) && decide (value.natAbs = 0)) = false := by
    simp only [Bool.and_eq_false_iff, decide_eq_false_iff_not]
    omega
  unfold numberOf
  simp only [htake, hsigned, hzero, List.isEmpty_nil]
  rw [decide_eq_true hlow]
  rfl

/-- The text of a number is a numeral that is taken for this number. -/
theorem exists_numberText {number : JsonNumber} (h : number.IsStable) :
    ∃ n : WrittenNumeral, (numberText number).toList = n.text ∧
      numberOf n.negative n.isWhole n.whole (n.fraction.getD [])
        (WrittenNumeral.shift n.exponent) = some number := by
  cases number with
  | whole value => exact ⟨_, toList_signedDecimal value, numberOf_toDigits h⟩
  | real x =>
      obtain ⟨hfinite, hread⟩ := h
      obtain ⟨n, htext, -⟩ := Binary64.exists_finiteText hfinite NumeralStyle.json rfl
      have hnumeral : (numberText (.real x)).toList = n.text := by
        rw [htext]
        exact String.toList_ofList
      rw [hnumeral, ← List.append_nil n.text, readNumber_text n (Source.apart_nil _)] at hread
      exact ⟨n, hnumeral, (Prod.mk.inj (Except.ok.inj hread)).1⟩

/-- A written number is read back, if what follows is not one more part of a numeral. -/
theorem readNumber_numberText {number : JsonNumber} (h : number.IsStable) {rest : List Char}
    (hrest : Apart continuesNumeral rest) :
    readNumber ((numberText number).toList ++ rest) = .ok (some number, rest) := by
  obtain ⟨n, htext, hvalue⟩ := exists_numberText h
  rw [htext, readNumber_text n hrest, hvalue]

/-- What a number begins with. -/
def startsNumber (c : Char) : Bool := c = '-' || c.isDigit

theorem exists_cons_numberText {number : JsonNumber} (h : number.IsStable) :
    ∃ c rest, (numberText number).toList = c :: rest ∧ startsNumber c = true := by
  obtain ⟨n, htext, -⟩ := exists_numberText h
  obtain ⟨first, others, hwhole⟩ := List.exists_cons_of_ne_nil n.whole_digits.ne_nil
  rw [htext, WrittenNumeral.text, hwhole]
  cases n.negative with
  | true => exact ⟨'-', _, rfl, rfl⟩
  | false =>
      have hdigit : first.isDigit = true := by
        refine n.whole_digits.isDigit first ?_
        rw [hwhole]
        exact List.mem_cons_self
      exact ⟨first, _, rfl, by simp [startsNumber, hdigit]⟩

end Json

end FormCompiler
