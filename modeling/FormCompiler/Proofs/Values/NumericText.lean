import FormCompiler.Proofs.Binary64.Rounding
import FormCompiler.Proofs.Numeral.Grammar
import FormCompiler.Values.Coercion
import Mathlib.Data.List.DropRight

/-!
# Numeric texts

A script takes a text for a number if, the blanks at its ends aside, it is empty or a numeric
literal.  Here a text is taken for a number in nearly the same cases.  The principal result names
those in which the two differ: a blank that only one of them knows stands in the text, a plus sign
stands behind the mark of a radix, the digits behind such a mark exceed 64 bits, or a decimal
literal overflows.
-/

namespace FormCompiler

/-! ## Trimming -/

namespace Text

/-- The text without the characters of a class at its two ends. -/
def trimBy (blank : Char → Bool) (text : List Char) : List Char :=
  (text.dropWhile blank).rdropWhile blank

theorem trim_eq_trimBy (text : List Char) : trim text = trimBy isBlank text := rfl

variable {blank : Char → Bool}

theorem dropWhile_congr {blank' : Char → Bool} {text : List Char}
    (h : ∀ c ∈ text, blank c = blank' c) : text.dropWhile blank = text.dropWhile blank' := by
  induction text with
  | nil => rfl
  | cons c text ih =>
      obtain ⟨hc, htext⟩ := List.forall_mem_cons.mp h
      rw [List.dropWhile_cons, List.dropWhile_cons, hc, ih htext]

theorem trimBy_congr {blank' : Char → Bool} {text : List Char}
    (h : ∀ c ∈ text, blank c = blank' c) : trimBy blank text = trimBy blank' text := by
  unfold trimBy List.rdropWhile
  rw [dropWhile_congr h]
  refine congrArg List.reverse (dropWhile_congr fun c hmem => h c ?_)
  exact (List.dropWhile_sublist _).mem (List.mem_reverse.mp hmem)

theorem mem_dropWhile {text : List Char} {c : Char} (hmem : c ∈ text) (hc : blank c = false) :
    c ∈ text.dropWhile blank := by
  rw [← List.takeWhile_append_dropWhile (p := blank) (l := text)] at hmem
  refine (List.mem_append.mp hmem).resolve_left fun htaken => ?_
  rw [List.mem_takeWhile_imp htaken] at hc
  cases hc

/-- A character that is no blank is kept wherever it stands. -/
theorem mem_trimBy {text : List Char} {c : Char} (hmem : c ∈ text) (hc : blank c = false) :
    c ∈ trimBy blank text :=
  List.mem_reverse.mpr (mem_dropWhile (List.mem_reverse.mpr (mem_dropWhile hmem hc)) hc)

/-- A trimmed text is not trimmed any further: it begins like the text without the blanks before
it. -/
theorem trimBy_trimBy (text : List Char) :
    trimBy blank (trimBy blank text) = trimBy blank text := by
  have hfront : (trimBy blank text).dropWhile blank = trimBy blank text := by
    cases htrimmed : trimBy blank text with
    | nil => rfl
    | cons c rest =>
        obtain ⟨after, hafter⟩ := List.rdropWhile_prefix blank (text.dropWhile blank)
        have hfirst := List.head?_dropWhile_not blank text
        rw [← hafter, ← trimBy, htrimmed] at hfirst
        exact List.dropWhile_cons_of_neg (Bool.eq_false_iff.mp hfirst)
  have hback : (trimBy blank text).rdropWhile blank = trimBy blank text :=
    List.rdropWhile_idempotent blank _
  rw [trimBy, hfront, hback]

end Text

namespace Coercion

open Numeral (Sign DecimalLiteral isLiteralChar)

/-! ## The texts that a script takes for numbers -/

/-- The white space and the line ends of scripts. -/
def scriptBlankRanges : Text.RangeTable := [
  (9, 13), (32, 32), (160, 160), (5760, 5760), (8192, 8202), (8232, 8233), (8239, 8239),
  (8287, 8287), (12288, 12288), (65279, 65279)]

def isScriptBlank (c : Char) : Bool := scriptBlankRanges.holds c.toNat

def radixMarks : List (Char × Nat) :=
  [('x', 16), ('X', 16), ('o', 8), ('O', 8), ('b', 2), ('B', 2)]

/-- A digit of a radix and its value.  A letter may be of either case. -/
def IsDigitOf (radix value : Nat) (c : Char) : Prop :=
  value < radix ∧ (c = value.digitChar ∨ c = value.digitChar.toUpper)

/-- Digits of a radix, at least one, and the number that they make. -/
inductive RadixDigits (radix : Nat) : Nat → List Char → Prop where
  | single {value : Nat} {c : Char} (hc : IsDigitOf radix value c) : RadixDigits radix value [c]
  | append {value digit : Nat} {digits : List Char} {c : Char}
      (hdigits : RadixDigits radix value digits) (hc : IsDigitOf radix digit c) :
      RadixDigits radix (value * radix + digit) (digits ++ [c])

/-- The numeric literals of scripts. -/
inductive NumericLiteral : List Char → Prop where
  | infinity {negative : Bool} {sign : List Char} (hsign : Sign negative sign) :
      NumericLiteral (sign ++ "Infinity".toList)
  | decimal {d : Decimal} {text : List Char} (hd : DecimalLiteral d text) : NumericLiteral text
  | radix {mark : Char} {radix value : Nat} {digits : List Char}
      (hmark : (mark, radix) ∈ radixMarks) (hdigits : RadixDigits radix value digits) :
      NumericLiteral ('0' :: mark :: digits)

/-- Nothing but blanks, or a numeric literal between blanks. -/
def IsNumericText (text : List Char) : Prop :=
  Text.trimBy isScriptBlank text = [] ∨ NumericLiteral (Text.trimBy isScriptBlank text)

/-- The literals that are taken for numbers here: a plus sign may stand behind the mark of a radix,
the digits have to fit in 64 bits, and a decimal literal must not overflow. -/
inductive TakenLiteral : List Char → Prop where
  | infinity {negative : Bool} {sign : List Char} (hsign : Sign negative sign) :
      TakenLiteral (sign ++ "Infinity".toList)
  | decimal {d : Decimal} {text : List Char} (hd : DecimalLiteral d text)
      (hsize : d.value < Binary64.overflow) : TakenLiteral text
  | radix {mark : Char} {radix value : Nat} {plus digits : List Char}
      (hmark : (mark, radix) ∈ radixMarks) (hplus : plus = [] ∨ plus = ['+'])
      (hdigits : RadixDigits radix value digits) (hsize : value < 2 ^ 64) :
      TakenLiteral ('0' :: mark :: (plus ++ digits))

/-- Nothing but blanks, or a literal between blanks that is taken for a number. -/
def IsTakenText (text : List Char) : Prop :=
  Text.trim text = [] ∨ TakenLiteral (Text.trim text)

/-! ## Digits of a radix -/

theorem exists_digitChar_of_isDigit {c : Char} (h : c.isDigit = true) :
    c.toNat - 48 < 10 ∧ c = (c.toNat - 48).digitChar := by
  obtain ⟨hlow, hhigh⟩ : 48 ≤ c.toNat ∧ c.toNat ≤ 57 := Char.isDigit_iff_toNat.mp h
  have hcode : ∀ value < 10, value.digitChar.toNat = value + 48 := by decide
  have hvalue := hcode (c.toNat - 48) (by omega)
  exact ⟨by omega, Char.toNat_inj.mp (by omega)⟩

theorem toNat_letter : ∀ value < 16, 10 ≤ value →
    value.digitChar.toNat = value + 87 ∧ value.digitChar.toUpper.toNat = value + 55 := by decide

theorem digit?_sixteen : ∀ value < 16, digit? 16 value.digitChar = some value ∧
    digit? 16 value.digitChar.toUpper = some value := by decide +kernel

theorem digit?_eq_some_iff {radix : Nat} (hradix : radix ≤ 16) {value : Nat} {c : Char} :
    digit? radix c = some value ↔ IsDigitOf radix value c := by
  constructor
  · intro h
    unfold digit? at h
    obtain ⟨hvalue, hsize⟩ := Option.filter_eq_some_iff.mp h
    have hlt : value < radix := by simpa using hsize
    refine ⟨hlt, ?_⟩
    split at hvalue
    · next hc =>
      cases hvalue
      exact Or.inl (exists_digitChar_of_isDigit hc).2
    · split at hvalue
      · next hc =>
        have hlow : 97 ≤ c.toNat := (show 'a' ≤ c ∧ c ≤ 'z' by simpa using hc).1
        cases hvalue
        have hchar := toNat_letter (c.toNat - 87) (by omega) (by omega)
        exact Or.inl (Char.toNat_inj.mp (by omega))
      · split at hvalue
        · next hc =>
          have hlow : 65 ≤ c.toNat := (show 'A' ≤ c ∧ c ≤ 'Z' by simpa using hc).1
          cases hvalue
          have hchar := toNat_letter (c.toNat - 55) (by omega) (by omega)
          exact Or.inr (Char.toNat_inj.mp (by omega))
        · cases hvalue
  · rintro ⟨hlt, hc⟩
    have hwide : digit? 16 c = some value := by
      obtain ⟨hlower, hupper⟩ := digit?_sixteen value (by omega)
      rcases hc with rfl | rfl
      · exact hlower
      · exact hupper
    unfold digit? at hwide ⊢
    obtain ⟨hvalue, -⟩ := Option.filter_eq_some_iff.mp hwide
    exact Option.filter_eq_some_iff.mpr ⟨hvalue, by simpa using hlt⟩

theorem radix_le_of_mem {mark : Char} {radix : Nat} (h : (mark, radix) ∈ radixMarks) :
    radix ≤ 16 := by
  have hall : ∀ pair ∈ radixMarks, pair.2 ≤ 16 := by decide
  exact hall _ h

theorem digitsValue?_append {radix : Nat} (digits : List Char) (c : Char) (value : Nat) :
    digitsValue? radix value (digits ++ [c]) =
      (digitsValue? radix value digits).bind fun reached =>
        (digit? radix c).map fun digit => reached * radix + digit := by
  induction digits generalizing value with
  | nil =>
      simp only [List.nil_append, digitsValue?, Option.bind_some]
      cases digit? radix c <;> rfl
  | cons d digits ih =>
      simp only [List.cons_append, digitsValue?]
      cases digit? radix d with
      | none => rfl
      | some digit => exact ih _

theorem radixDigits_iff {radix : Nat} (hradix : radix ≤ 16) {value : Nat} {digits : List Char} :
    RadixDigits radix value digits ↔ digits ≠ [] ∧ digitsValue? radix 0 digits = some value := by
  constructor
  · intro h
    induction h with
    | single hc =>
        simp [digitsValue?, (digit?_eq_some_iff hradix).mpr hc]
    | append _ hc ih =>
        refine ⟨by simp, ?_⟩
        rw [digitsValue?_append, ih.2, (digit?_eq_some_iff hradix).mpr hc]
        rfl
  · rintro ⟨hne, hvalue⟩
    induction digits using List.reverseRecOn generalizing value with
    | nil => exact absurd rfl hne
    | append_singleton digits c ih =>
        rw [digitsValue?_append] at hvalue
        obtain ⟨reached, hreached, hlast⟩ := Option.bind_eq_some_iff.mp hvalue
        obtain ⟨digit, hdigit, rfl⟩ := Option.map_eq_some_iff.mp hlast
        have hc := (digit?_eq_some_iff hradix).mp hdigit
        rcases eq_or_ne digits [] with rfl | hdigits
        · cases hreached
          rw [Nat.zero_mul, Nat.zero_add]
          exact .single hc
        · exact .append (ih hdigits hreached) hc

theorem RadixDigits.not_plus {radix value : Nat} {digits : List Char} (hradix : radix ≤ 16) :
    ¬RadixDigits radix value ('+' :: digits) := by
  intro h
  have hvalue := ((radixDigits_iff hradix).mp h).2
  cases hdigit : digit? radix '+' with
  | none =>
      rw [digitsValue?, hdigit] at hvalue
      cases hvalue
  | some digit =>
      obtain ⟨hlt, hc⟩ := (digit?_eq_some_iff hradix).mp hdigit
      have hplus : ∀ v < 16, '+' ≠ v.digitChar ∧ '+' ≠ v.digitChar.toUpper := by decide +kernel
      obtain ⟨hlower, hupper⟩ := hplus digit (by omega)
      exact hc.elim hlower hupper

theorem word?_eq_some_iff {radix : Nat} (hradix : radix ≤ 16) {value : Nat} {text : List Char} :
    word? radix text = some value ↔ ∃ plus digits, (plus = [] ∨ plus = ['+']) ∧
      text = plus ++ digits ∧ RadixDigits radix value digits ∧ value < 2 ^ 64 := by
  have hdigits : ∀ {digits : List Char},
      (if digits.isEmpty then none
        else (digitsValue? radix 0 digits).filter (· < UInt64.size)) = some value ↔
      RadixDigits radix value digits ∧ value < 2 ^ 64 := by
    intro digits
    rw [radixDigits_iff hradix]
    split
    · next h => simp [List.isEmpty_iff.mp h]
    · next h =>
      rw [Option.filter_eq_some_iff, decide_eq_true_iff]
      exact and_congr_left fun _ => (and_iff_right (by simpa using h)).symm
  unfold word?
  dsimp only
  rw [hdigits]
  constructor
  · rintro ⟨h, hsize⟩
    split at h
    · next hplus =>
      cases text with
      | nil => cases hplus
      | cons c rest =>
          cases hplus
          exact ⟨['+'], rest, Or.inr rfl, rfl, h, hsize⟩
    · exact ⟨[], text, Or.inl rfl, rfl, h, hsize⟩
  · rintro ⟨plus, digits, hplus | hplus, rfl, h, hsize⟩
    · subst hplus
      rw [List.nil_append]
      split
      · next hhead =>
        cases digits with
        | nil => cases hhead
        | cons c digits =>
            cases hhead
            exact absurd h (RadixDigits.not_plus hradix)
      · exact ⟨h, hsize⟩
    · subst hplus
      exact ⟨h, hsize⟩

theorem radix?_eq_some_iff {text digits : List Char} {radix : Nat} :
    radix? text = some (radix, digits) ↔
      ∃ mark, (mark, radix) ∈ radixMarks ∧ text = '0' :: mark :: digits := by
  constructor
  · intro h
    unfold radix? at h
    split at h
    · next mark rest =>
      split at h
      · next hmark =>
        cases h
        exact ⟨mark, by simpa [radixMarks] using hmark, rfl⟩
      · split at h
        · next hmark =>
          cases h
          exact ⟨mark, by simpa [radixMarks] using hmark, rfl⟩
        · split at h
          · next hmark =>
            cases h
            exact ⟨mark, by simpa [radixMarks] using hmark, rfl⟩
          · cases h
    · cases h
  · rintro ⟨mark, hmark, rfl⟩
    simp only [radixMarks, List.mem_cons, Prod.mk.injEq, List.not_mem_nil, or_false] at hmark
    rcases hmark with ⟨rfl, rfl⟩ | ⟨rfl, rfl⟩ | ⟨rfl, rfl⟩ | ⟨rfl, rfl⟩ | ⟨rfl, rfl⟩ | ⟨rfl, rfl⟩
    all_goals rfl

/-! ## What is taken for a number -/

/-- The characters of decimal literals are those of ASCII that a decimal number may contain. -/
theorem isLiteralChar_spec {c : Char} (h : isLiteralChar c = true) :
    isStrayLetter c = false ∧ c.toNat < 128 := by
  rcases Bool.or_eq_true_iff.mp h with hdigit | hmark
  · have hall : ∀ value < 10,
        isStrayLetter value.digitChar = false ∧ value.digitChar.toNat < 128 := by decide
    obtain ⟨hlt, heq⟩ := exists_digitChar_of_isDigit hdigit
    rw [heq]
    exact hall _ hlt
  · simp only [List.contains_iff_mem, List.mem_cons, List.not_mem_nil, or_false] at hmark
    rcases hmark with rfl | rfl | rfl | rfl | rfl
    all_goals exact ⟨rfl, by decide⟩

theorem decimalNumber?_eq_some_iff {value : String} {x : Binary64} :
    decimalNumber? value = some x ↔ ∃ d, DecimalLiteral d (Text.trim value.toList) ∧
      d.value < Binary64.overflow ∧ Binary64.ofDecimal d = x := by
  have hread : ((Numeral.read? (Text.trim value.toList)).map Binary64.ofDecimal).filter
      Binary64.isFinite = some x ↔ ∃ d, DecimalLiteral d (Text.trim value.toList) ∧
      d.value < Binary64.overflow ∧ Binary64.ofDecimal d = x := by
    rw [Option.filter_eq_some_iff, Option.map_eq_some_iff]
    constructor
    · rintro ⟨⟨d, hd, rfl⟩, hfinite⟩
      exact ⟨d, Numeral.read?_eq_some_iff.mp hd, (Binary64.isFinite_ofDecimal_iff d).mp hfinite,
        rfl⟩
    · rintro ⟨d, hd, hsize, rfl⟩
      exact ⟨⟨d, Numeral.read?_eq_some_iff.mpr hd, rfl⟩,
        (Binary64.isFinite_ofDecimal_iff d).mpr hsize⟩
  unfold decimalNumber?
  dsimp only
  split
  · next hrefused =>
    refine iff_of_false (by simp) ?_
    rintro ⟨d, hd, -, -⟩
    rcases Bool.or_eq_true_iff.mp hrefused with hempty | hstray
    · rw [List.isEmpty_iff.mp hempty] at hd
      cases Numeral.read?_eq_some_iff.mpr hd
    · obtain ⟨c, hmem, hc⟩ := List.any_eq_true.mp hstray
      rw [(isLiteralChar_spec (hd.chars c hmem)).1] at hc
      cases hc
  · exact hread

/-- The mark of a radix stands in no decimal literal. -/
theorem radix?_of_decimalLiteral {d : Decimal} {text : List Char} (h : DecimalLiteral d text) :
    radix? text = none := by
  refine Option.eq_none_iff_forall_ne_some.mpr fun ⟨radix, digits⟩ hradix => ?_
  obtain ⟨mark, hmark, rfl⟩ := radix?_eq_some_iff.mp hradix
  have hall : ∀ pair ∈ radixMarks, isLiteralChar pair.1 = false := by decide
  have hchar := h.chars mark (by simp)
  rw [hall _ hmark] at hchar
  cases hchar

/-- A literal of a radix is neither an infinity nor a decimal literal. -/
theorem TakenLiteral.exists_word {text rest : List Char} {radix : Nat} (h : TakenLiteral text)
    (hradix : radix? text = some (radix, rest)) : ∃ value, word? radix rest = some value := by
  cases h with
  | infinity hsign => cases hsign <;> cases hradix
  | decimal hd =>
      rw [radix?_of_decimalLiteral hd] at hradix
      cases hradix
  | @radix mark _ value plus digits hmark hplus hdigits hsize =>
      rw [radix?_eq_some_iff.mpr ⟨mark, hmark, rfl⟩] at hradix
      cases hradix
      exact ⟨value, (word?_eq_some_iff (radix_le_of_mem hmark)).mpr
        ⟨plus, digits, hplus, rfl, hdigits, hsize⟩⟩

theorem NumericLiteral.exists_digits {text rest : List Char} {radix : Nat} (h : NumericLiteral text)
    (hradix : radix? text = some (radix, rest)) : ∃ value, RadixDigits radix value rest := by
  cases h with
  | infinity hsign => cases hsign <;> cases hradix
  | decimal hd =>
      rw [radix?_of_decimalLiteral hd] at hradix
      cases hradix
  | @radix mark _ value digits hmark hdigits =>
      rw [radix?_eq_some_iff.mpr ⟨mark, hmark, rfl⟩] at hradix
      cases hradix
      exact ⟨value, hdigits⟩

theorem TakenLiteral.exists_decimal {text : List Char} (h : TakenLiteral text)
    (hfinite : ∀ negative sign, Sign negative sign → text ≠ sign ++ "Infinity".toList)
    (hradix : radix? text = none) : ∃ d, DecimalLiteral d text ∧ d.value < Binary64.overflow := by
  cases h with
  | infinity hsign => exact absurd rfl (hfinite _ _ hsign)
  | decimal hd hsize => exact ⟨_, hd, hsize⟩
  | @radix mark _ _ _ _ hmark =>
      rw [radix?_eq_some_iff.mpr ⟨mark, hmark, rfl⟩] at hradix
      cases hradix

theorem isUndefined_getD {x? : Option Binary64} (h : ∀ x ∈ x?, x.isUndefined = false) :
    (x?.getD .undefined).isUndefined = false ↔ ∃ x, x? = some x := by
  cases x? with
  | none => simp [show Binary64.undefined.isUndefined = true by decide]
  | some x => simpa using h x rfl

/-- An infinity is written with or without a sign. -/
theorem sign_infinity_iff (trimmed : String) :
    (∃ negative sign, Sign negative sign ∧ trimmed.toList = sign ++ "Infinity".toList) ↔
      (trimmed = "Infinity" || trimmed = "+Infinity") = true ∨ trimmed = "-Infinity" := by
  simp only [Bool.or_eq_true, decide_eq_true_iff, ← String.toList_inj]
  constructor
  · rintro ⟨_, _, hsign | hsign | hsign, h⟩
    · exact Or.inl (Or.inl h)
    · exact Or.inl (Or.inr h)
    · exact Or.inr h
  · rintro ((h | h) | h)
    · exact ⟨_, _, .absent, h⟩
    · exact ⟨_, _, .plus, h⟩
    · exact ⟨_, _, .minus, h⟩

/-- A text is taken for a number exactly if it is blank or one of the literals between blanks. -/
theorem isUndefined_textToNumber_iff (text : String) :
    (textToNumber text).isUndefined = false ↔ IsTakenText text.toList := by
  have hagain : Text.trim (Text.trimmed text).toList = (Text.trimmed text).toList := by
    rw [Text.toList_trimmed]
    exact Text.trimBy_trimBy text.toList
  have hempty : (Text.trimmed text).toList = [] ↔ Text.trimmed text = "" := by
    rw [← String.toList_inj]
    rfl
  -- blanks are taken away twice, the second time from a text that has none
  unfold IsTakenText textToNumber
  rw [← Text.toList_trimmed]
  dsimp only
  generalize Text.trimmed text = trimmed at hagain hempty ⊢
  split
  · next h => exact iff_of_true rfl (Or.inl (hempty.mpr h))
  next hne =>
  rw [or_iff_right (hempty.not.mpr hne)]
  split
  · next h =>
    obtain ⟨_, _, hsign, heq⟩ := (sign_infinity_iff trimmed).mpr (Or.inl h)
    exact iff_of_true rfl (heq ▸ .infinity hsign)
  next hplain =>
  split
  · next h =>
    obtain ⟨_, _, hsign, heq⟩ := (sign_infinity_iff trimmed).mpr (Or.inr h)
    exact iff_of_true rfl (heq ▸ .infinity hsign)
  next hminus =>
  -- what is left names no infinity, so a literal of it is one with digits
  have hfinite : ∀ negative sign, Sign negative sign →
      trimmed.toList ≠ sign ++ "Infinity".toList := fun _ _ hsign heq =>
    ((sign_infinity_iff trimmed).mp ⟨_, _, hsign, heq⟩).elim hplain hminus
  split
  · next radix rest hradix =>
    rw [isUndefined_getD fun x hx => by
      obtain ⟨value, -, rfl⟩ := Option.map_eq_some_iff.mp hx
      exact Binary64.isUndefined_ofDecimal _]
    constructor
    · rintro ⟨x, hx⟩
      obtain ⟨value, hvalue, -⟩ := Option.map_eq_some_iff.mp hx
      obtain ⟨mark, hmark, heq⟩ := radix?_eq_some_iff.mp hradix
      obtain ⟨plus, digits, hplus, rfl, hdigits, hsize⟩ :=
        (word?_eq_some_iff (radix_le_of_mem hmark)).mp hvalue
      exact heq ▸ .radix hmark hplus hdigits hsize
    · intro h
      obtain ⟨value, hvalue⟩ := h.exists_word hradix
      exact ⟨_, congrArg (Option.map Binary64.ofNat) hvalue⟩
  · next hradix =>
    rw [isUndefined_getD fun x hx => by
      obtain ⟨d, -, -, rfl⟩ := decimalNumber?_eq_some_iff.mp hx
      exact Binary64.isUndefined_ofDecimal d]
    simp only [decimalNumber?_eq_some_iff, hagain]
    constructor
    · rintro ⟨x, d, hd, hsize, -⟩
      exact .decimal hd hsize
    · intro h
      obtain ⟨d, hd, hsize⟩ := h.exists_decimal hfinite hradix
      exact ⟨_, d, hd, hsize, rfl⟩

/-! ## Where a script reads otherwise -/

/-- The texts that are taken for numbers either here or in a script, but not in both. -/
inductive ReadOtherwise (text : List Char) : Prop where
  | byteOrderMark (hmem : '\ufeff' ∈ text) (h : IsNumericText text) : ReadOtherwise text
  | nextLine (hmem : '\x85' ∈ text) (h : IsTakenText text) : ReadOtherwise text
  | plus {mark : Char} {radix value : Nat} {digits : List Char} (hmark : (mark, radix) ∈ radixMarks)
      (hdigits : RadixDigits radix value digits) (hsize : value < 2 ^ 64)
      (h : Text.trim text = '0' :: mark :: '+' :: digits) : ReadOtherwise text
  | wide {mark : Char} {radix value : Nat} {digits : List Char} (hmark : (mark, radix) ∈ radixMarks)
      (hdigits : RadixDigits radix value digits) (hsize : 2 ^ 64 ≤ value)
      (h : Text.trimBy isScriptBlank text = '0' :: mark :: digits) : ReadOtherwise text
  | overflow {d : Decimal} (hd : DecimalLiteral d (Text.trimBy isScriptBlank text))
      (hsize : Binary64.overflow ≤ d.value) : ReadOtherwise text

theorem isBlank_eq_isScriptBlank {c : Char} (hmark : c ≠ '\ufeff') (hline : c ≠ '\x85') :
    Text.isBlank c = isScriptBlank c := by
  have hmark' : c.toNat ≠ 65279 := fun h => hmark (Char.toNat_inj.mp h)
  have hline' : c.toNat ≠ 133 := fun h => hline (Char.toNat_inj.mp h)
  rw [Bool.eq_iff_iff]
  unfold Text.isBlank isScriptBlank
  simp [Text.RangeTable.holds, Text.blankRanges, scriptBlankRanges]
  omega

/-- Only two characters are trimmed in one way and not in the other. -/
theorem trim_eq {text : List Char} (hmark : '\ufeff' ∉ text) (hline : '\x85' ∉ text) :
    Text.trim text = Text.trimBy isScriptBlank text := by
  refine Text.trimBy_congr fun c hmem => isBlank_eq_isScriptBlank ?_ ?_
  · exact fun heq => hmark (heq ▸ hmem)
  · exact fun heq => hline (heq ▸ hmem)

/-! ### Literals are written in ASCII -/

theorem RadixDigits.ascii {radix value : Nat} {digits : List Char} (hradix : radix ≤ 16)
    (h : RadixDigits radix value digits) : ∀ c ∈ digits, c.toNat < 128 := by
  have hdigit : ∀ {value : Nat} {c : Char}, IsDigitOf radix value c → c.toNat < 128 := by
    rintro value c ⟨hlt, hc⟩
    have hall : ∀ value < 16,
        value.digitChar.toNat < 128 ∧ value.digitChar.toUpper.toNat < 128 := by decide
    obtain ⟨hlower, hupper⟩ := hall value (by omega)
    rcases hc with rfl | rfl
    · exact hlower
    · exact hupper
  induction h with
  | single hc => exact List.forall_mem_singleton.mpr (hdigit hc)
  | append _ hc ih =>
      exact List.forall_mem_append.mpr ⟨ih, List.forall_mem_singleton.mpr (hdigit hc)⟩

theorem ascii_radix {mark : Char} {radix value : Nat} {digits : List Char}
    (hmark : (mark, radix) ∈ radixMarks) (hdigits : RadixDigits radix value digits) :
    mark.toNat < 128 ∧ ∀ c ∈ digits, c.toNat < 128 := by
  have hall : ∀ pair ∈ radixMarks, pair.1.toNat < 128 := by decide
  exact ⟨hall _ hmark, hdigits.ascii (radix_le_of_mem hmark)⟩

theorem ascii_infinity {negative : Bool} {sign : List Char} (h : Sign negative sign) :
    ∀ c ∈ sign ++ "Infinity".toList, c.toNat < 128 := by
  have hall : (sign ++ "Infinity".toList).all (fun c => c.toNat < 128) = true := by
    cases h <;> rfl
  exact fun c hmem => of_decide_eq_true (List.all_eq_true.mp hall c hmem)

theorem NumericLiteral.ascii {text : List Char} (h : NumericLiteral text) :
    ∀ c ∈ text, c.toNat < 128 := by
  cases h with
  | infinity hsign => exact ascii_infinity hsign
  | decimal hd => exact fun c hmem => (isLiteralChar_spec (hd.chars c hmem)).2
  | radix hmark hdigits =>
      exact List.forall_mem_cons.mpr ⟨by decide,
        List.forall_mem_cons.mpr (ascii_radix hmark hdigits)⟩

theorem TakenLiteral.ascii {text : List Char} (h : TakenLiteral text) :
    ∀ c ∈ text, c.toNat < 128 := by
  cases h with
  | infinity hsign => exact ascii_infinity hsign
  | decimal hd => exact fun c hmem => (isLiteralChar_spec (hd.chars c hmem)).2
  | radix hmark hplus hdigits =>
      obtain ⟨hmarkAscii, hdigitsAscii⟩ := ascii_radix hmark hdigits
      refine List.forall_mem_cons.mpr ⟨by decide, List.forall_mem_cons.mpr ⟨hmarkAscii,
        List.forall_mem_append.mpr ⟨?_, hdigitsAscii⟩⟩⟩
      rcases hplus with rfl | rfl
      · exact List.forall_mem_nil _
      · exact List.forall_mem_singleton.mpr (by decide)

/-- What is not trimmed away would have to stand in a literal. -/
theorem not_mem_of_ascii (blank : Char → Bool) {text : List Char} {c : Char}
    (hc : blank c = false) (hcode : 128 ≤ c.toNat)
    (h : Text.trimBy blank text = [] ∨ ∀ d ∈ Text.trimBy blank text, d.toNat < 128) : c ∉ text := by
  intro hmem
  have hkept := Text.mem_trimBy hmem hc
  rcases h with hnil | hascii
  · rw [hnil] at hkept
    cases hkept
  · exact absurd (hascii c hkept) (by omega)

theorem IsTakenText.not_mem {text : List Char} (h : IsTakenText text) : '\ufeff' ∉ text :=
  not_mem_of_ascii Text.isBlank (by decide) (by decide) (h.imp_right TakenLiteral.ascii)

theorem IsNumericText.not_mem {text : List Char} (h : IsNumericText text) : '\x85' ∉ text :=
  not_mem_of_ascii isScriptBlank (by decide) (by decide) (h.imp_right NumericLiteral.ascii)

/-! ### The comparison -/

theorem RadixDigits.unique {radix value value' : Nat} {digits : List Char} (hradix : radix ≤ 16)
    (h : RadixDigits radix value digits) (h' : RadixDigits radix value' digits) :
    value = value' :=
  Option.some.inj (((radixDigits_iff hradix).mp h).2.symm.trans ((radixDigits_iff hradix).mp h').2)

section

variable {mark : Char} {radix value : Nat} {digits : List Char}

/-- A script knows no sign behind the mark of a radix. -/
theorem not_numericLiteral_plus (hmark : (mark, radix) ∈ radixMarks) :
    ¬NumericLiteral ('0' :: mark :: '+' :: digits) := by
  intro h
  obtain ⟨value, hvalue⟩ := h.exists_digits (radix?_eq_some_iff.mpr ⟨mark, hmark, rfl⟩)
  exact RadixDigits.not_plus (radix_le_of_mem hmark) hvalue

theorem not_takenLiteral_wide (hmark : (mark, radix) ∈ radixMarks)
    (hdigits : RadixDigits radix value digits) (hsize : 2 ^ 64 ≤ value) :
    ¬TakenLiteral ('0' :: mark :: digits) := by
  intro h
  have hradix := radix_le_of_mem hmark
  obtain ⟨found, hfound⟩ := h.exists_word (radix?_eq_some_iff.mpr ⟨mark, hmark, rfl⟩)
  obtain ⟨plus, rest, hplus, rfl, hrest, hlt⟩ := (word?_eq_some_iff hradix).mp hfound
  rcases hplus with rfl | rfl
  · rw [hdigits.unique hradix hrest] at hsize
    exact absurd hlt (not_lt.mpr hsize)
  · exact RadixDigits.not_plus hradix hdigits

end

theorem not_takenLiteral_overflow {d : Decimal} {text : List Char} (hd : DecimalLiteral d text)
    (hsize : Binary64.overflow ≤ d.value) : ¬TakenLiteral text := by
  intro h
  have hfinite : ∀ negative sign, Sign negative sign → text ≠ sign ++ "Infinity".toList := by
    rintro negative sign - rfl
    cases hd.chars 'I' (List.mem_append_right _ (by decide))
  obtain ⟨found, hfound, hlt⟩ := h.exists_decimal hfinite (radix?_of_decimalLiteral hd)
  have heq : d = found := Option.some.inj
    ((Numeral.read?_eq_some_iff.mpr hd).symm.trans (Numeral.read?_eq_some_iff.mpr hfound))
  rw [heq] at hsize
  exact absurd hlt (not_lt.mpr hsize)

section

variable {text : List Char}

/-- The other readings differ in fact.  Had both sides accepted the text, they would have trimmed it
alike, and what is left would be a literal of both. -/
theorem ReadOtherwise.not_agree (h : ReadOtherwise text) :
    ¬(IsTakenText text ↔ IsNumericText text) := by
  intro hagree
  have hboth : ∀ {trimmed}, IsTakenText text → Text.trim text = trimmed ∨
      Text.trimBy isScriptBlank text = trimmed → trimmed ≠ [] →
      TakenLiteral trimmed ∧ NumericLiteral trimmed := by
    intro trimmed htaken htrimmed hne
    have hnumeric := hagree.mp htaken
    have hsame := trim_eq htaken.not_mem hnumeric.not_mem
    rw [hsame, or_self] at htrimmed
    rw [IsTakenText, hsame, htrimmed] at htaken
    rw [IsNumericText, htrimmed] at hnumeric
    exact ⟨htaken.resolve_left hne, hnumeric.resolve_left hne⟩
  cases h with
  | byteOrderMark hmem hnumeric => exact (hagree.mpr hnumeric).not_mem hmem
  | nextLine hmem htaken => exact (hagree.mp htaken).not_mem hmem
  | plus hmark hdigits hsize htrimmed =>
      have htaken : IsTakenText text :=
        Or.inr (htrimmed ▸ .radix hmark (Or.inr rfl) hdigits hsize)
      exact not_numericLiteral_plus hmark (hboth htaken (Or.inl htrimmed) (by simp)).2
  | wide hmark hdigits hsize htrimmed =>
      have htaken := hagree.mpr (Or.inr (htrimmed ▸ .radix hmark hdigits))
      exact not_takenLiteral_wide hmark hdigits hsize (hboth htaken (Or.inr htrimmed) (by simp)).1
  | overflow hd hsize =>
      have htaken := hagree.mpr (Or.inr (.decimal hd))
      have hne : Text.trimBy isScriptBlank text ≠ [] := by
        intro hnil
        rw [hnil] at hd
        cases Numeral.read?_eq_some_iff.mpr hd
      exact not_takenLiteral_overflow hd hsize (hboth htaken (Or.inr rfl) hne).1

theorem IsTakenText.isNumeric (h : IsTakenText text) (hnone : ¬ReadOtherwise text) :
    IsNumericText text := by
  have hline : '\x85' ∉ text := fun hmem => hnone (.nextLine hmem h)
  rw [IsNumericText, ← trim_eq h.not_mem hline]
  refine h.imp_right fun hliteral => ?_
  generalize htrimmed : Text.trim text = trimmed at hliteral
  cases hliteral with
  | infinity hsign => exact .infinity hsign
  | decimal hd => exact .decimal hd
  | radix hmark hplus hdigits hsize =>
      rcases hplus with rfl | rfl
      · exact .radix hmark hdigits
      · exact absurd (.plus hmark hdigits hsize htrimmed) hnone

theorem IsNumericText.isTaken (h : IsNumericText text) (hnone : ¬ReadOtherwise text) :
    IsTakenText text := by
  have hmark : '\ufeff' ∉ text := fun hmem => hnone (.byteOrderMark hmem h)
  rw [IsTakenText, trim_eq hmark h.not_mem]
  refine h.imp_right fun hliteral => ?_
  generalize htrimmed : Text.trimBy isScriptBlank text = trimmed at hliteral
  cases hliteral with
  | infinity hsign => exact .infinity hsign
  | decimal hd =>
      exact .decimal hd (not_le.mp fun hsize => hnone (.overflow (htrimmed ▸ hd) hsize))
  | radix hmark hdigits =>
      have hsize := not_le.mp fun hsize => hnone (.wide hmark hdigits hsize htrimmed)
      simpa using TakenLiteral.radix hmark (Or.inl rfl) hdigits hsize

end

/-- A number is found here exactly if a script finds one, unless the text is one of those that are
read otherwise. -/
theorem textToNumber_agrees_iff (text : String) :
    ((textToNumber text).isUndefined = false ↔ IsNumericText text.toList) ↔
      ¬ReadOtherwise text.toList := by
  rw [isUndefined_textToNumber_iff]
  constructor
  · exact fun hagree hother => hother.not_agree hagree
  · exact fun hnone =>
      ⟨fun htaken => htaken.isNumeric hnone, fun hnumeric => hnumeric.isTaken hnone⟩

/-- The least number of a radix that does not fit in 64 bits is none here. -/
theorem textToNumber_wideLiteral :
    ¬((textToNumber "0x10000000000000000").isUndefined = false ↔
      IsNumericText "0x10000000000000000".toList) := by
  intro h
  have hdigits : RadixDigits 16 (2 ^ 64) "10000000000000000".toList :=
    (radixDigits_iff (le_refl 16)).mpr ⟨by decide, by decide⟩
  have hliteral : NumericLiteral "0x10000000000000000".toList :=
    .radix (by decide : ('x', 16) ∈ radixMarks) hdigits
  exact absurd (h.mpr (Or.inr hliteral)) (by decide)

end Coercion

end FormCompiler
