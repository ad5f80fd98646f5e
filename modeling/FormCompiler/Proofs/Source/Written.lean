import FormCompiler.Proofs.Numeral.Layout
import FormCompiler.Source.Expression
import FormCompiler.Source.Markup
import FormCompiler.Source.Settings

/-!
# The characters of written texts

What a reader can meet where a text of a user or a number was written.  Literals are described by
the three ways in which they write a character, numbers by the shape of a numeral, and the bare
texts by their character classes.
-/

namespace FormCompiler.Source

/-- A character of a class is none of those outside of it. -/
theorem ne_of_holds {holds : Char → Bool} {c d : Char} (hc : holds c = true)
    (hd : holds d = false) : c ≠ d := by
  intro heq
  rw [heq, hd] at hc
  cases hc

/-! ## Where a text ends -/

/-- No character of the class begins the text. -/
def Apart (holds : Char → Bool) (text : List Char) : Prop := ∀ c ∈ text.head?, holds c = false

theorem apart_nil (holds : Char → Bool) : Apart holds [] := by simp [Apart]

theorem apart_cons {holds : Char → Bool} {c : Char} (h : holds c = false) (rest : List Char) :
    Apart holds (c :: rest) := by simpa [Apart] using h

theorem apart_ofList {holds : Char → Bool} {c : Char} {chars : List Char} (h : holds c = false)
    (rest : List Char) : Apart holds ((String.ofList (c :: chars)).toList ++ rest) := by
  rw [String.toList_ofList]
  exact apart_cons h _

theorem takeWhile_append_of_apart {holds : Char → Bool} {text rest : List Char}
    (htext : ∀ c ∈ text, holds c = true) (hrest : Apart holds rest) :
    (text ++ rest).takeWhile holds = text := by
  rw [List.takeWhile_append_of_pos htext]
  cases rest with
  | nil => simp
  | cons c rest =>
      have hc : holds c = false := hrest c rfl
      simp [hc]

theorem dropWhile_append_of_apart {holds : Char → Bool} {text rest : List Char}
    (htext : ∀ c ∈ text, holds c = true) (hrest : Apart holds rest) :
    (text ++ rest).dropWhile holds = rest := by
  rw [List.dropWhile_append_of_pos htext]
  cases rest with
  | nil => rfl
  | cons c rest =>
      have hc : holds c = false := hrest c rfl
      simp [hc]

/-- What may stand behind an expression: nothing, or the parenthesis that closes it. -/
def Closes (text : List Char) : Prop := text = [] ∨ ∃ rest, text = ')' :: rest

theorem closes_ofList {chars : List Char} (rest : List Char) :
    Closes ((String.ofList (')' :: chars)).toList ++ rest) := by
  rw [String.toList_ofList]
  exact Or.inr ⟨_, rfl⟩

theorem Closes.apart {text : List Char} (h : Closes text) {holds : Char → Bool}
    (hclass : holds ')' = false) : Apart holds text := by
  rcases h with rfl | ⟨rest, rfl⟩
  · exact apart_nil holds
  · exact apart_cons hclass rest

/-! ## Literals -/

/-- The characters that a literal marks by a backslash, each with its mark. -/
def marks : List (Char × Char) :=
  [('\\', '\\'), ('"', '"'), ('\'', '\''), ('\n', 'n'), ('\r', 'r'), ('\t', 't')]

/-- A character that a literal holds as it is. -/
def standsBare (c : Char) : Bool :=
  !(c = '\\' || c = '"' || c = '\'' || c.toNat = 0x2028 || c.toNat = 0x2029 || Text.isControl c)

def fourDigits (n : Nat) : List Char :=
  [Nat.digitChar (n / 4096), Nat.digitChar (n / 256 % 16), Nat.digitChar (n / 16 % 16),
    Nat.digitChar (n % 16)]

theorem paddedHex_four {n : Nat} (h : n < 65536) : Text.paddedHex 4 n = fourDigits n := by
  unfold Text.paddedHex fourDigits
  have hshort : n / 16 / 16 / 16 < 16 := by omega
  by_cases h1 : n < 16
  · rw [Nat.toDigits_of_lt_base h1]
    simp [show n / 4096 = 0 by omega, show n / 256 = 0 by omega, show n / 16 = 0 by omega,
      Nat.mod_eq_of_lt h1, List.replicate]
  · rw [Nat.toDigits_of_base_le (by decide) (by omega)]
    by_cases h2 : n / 16 < 16
    · rw [Nat.toDigits_of_lt_base h2]
      simp [show n / 4096 = 0 by omega, show n / 256 = 0 by omega, Nat.mod_eq_of_lt h2,
        List.replicate]
    · rw [Nat.toDigits_of_base_le (by decide) (by omega)]
      by_cases h3 : n / 16 / 16 < 16
      · rw [Nat.toDigits_of_lt_base h3]
        simp [show n / 4096 = 0 by omega, show n / 256 % 16 = n / 16 / 16 by omega]
      · rw [Nat.toDigits_of_base_le (by decide) (by omega), Nat.toDigits_of_lt_base hshort]
        simp [show n / 4096 = n / 16 / 16 / 16 by omega,
          show n / 256 % 16 = n / 16 / 16 % 16 by omega]

theorem digitChar_isAlphanum : ∀ d < 16, (Nat.digitChar d).isAlphanum = true := by
  decide

theorem isAlphanum_of_mem_fourDigits {n : Nat} (h : n < 65536) {c : Char}
    (hmem : c ∈ fourDigits n) : c.isAlphanum = true := by
  simp only [fourDigits, List.mem_cons, List.not_mem_nil, or_false] at hmem
  rcases hmem with rfl | rfl | rfl | rfl <;> exact digitChar_isAlphanum _ (by omega)

/-- The three ways in which a literal writes a character. -/
inductive WrittenAs (c : Char) : List Char → Prop where
  | bare (h : standsBare c = true) : WrittenAs c [c]
  | marked {mark : Char} (h : (c, mark) ∈ marks) : WrittenAs c ['\\', mark]
  | coded (h : c.toNat < 65536) : WrittenAs c ('\\' :: 'u' :: fourDigits c.toNat)

/-- A literal writes every character in one of the three ways. -/
theorem writtenAs_literalChar (c : Char) : WrittenAs c (literalChar c) := by
  unfold literalChar
  split
  · next hquote =>
    simp only [Bool.or_eq_true, decide_eq_true_eq] at hquote
    rcases hquote with (rfl | rfl) | rfl <;> exact .marked (by decide)
  · next hquote =>
    split
    · next hfeed => subst hfeed; exact .marked (by decide)
    · split
      · next hreturn => subst hreturn; exact .marked (by decide)
      · split
        · next htab => subst htab; exact .marked (by decide)
        · split
          · next hcode =>
            have hsmall : c.toNat < 65536 := by
              simp only [Text.isControl, Bool.or_eq_true, Bool.and_eq_true,
                decide_eq_true_eq] at hcode
              omega
            unfold codeEscape
            rw [paddedHex_four hsmall]
            exact .coded hsmall
          · next hcode =>
            refine .bare ?_
            simp only [Bool.or_eq_true, not_or] at hquote hcode
            simp [standsBare, hquote, hcode]

def literalBody (text : String) : List Char := text.toList.flatMap literalChar

theorem toList_literal_eq_body (text : String) :
    (literal text).toList = '"' :: (literalBody text ++ ['"']) :=
  toList_literal text

/-! ## Bare texts -/

theorem isIdentifierChar_of_mem {name : String} (h : isIdentifier name = true) {c : Char}
    (hmem : c ∈ name.toList) : isIdentifierChar c = true := by
  unfold isIdentifier at h
  cases hname : name.toList with
  | nil => simp [hname] at hmem
  | cons first rest =>
      simp only [hname, Bool.and_eq_true, List.all_eq_true] at h
      rw [hname] at hmem
      rcases List.mem_cons.mp hmem with rfl | hrest
      · have hfirst := h.1
        simp only [beginsIdentifier, Text.isAsciiLetter, Bool.or_eq_true] at hfirst
        simp only [isIdentifierChar, Text.isAsciiAlphanumeric, Char.isAlphanum, Bool.or_eq_true]
        rcases hfirst with (hletter | hmark) | hmark
        · exact Or.inl (Or.inl (Or.inl hletter))
        · exact Or.inl (Or.inr hmark)
        · exact Or.inr hmark
      · exact h.2 c hrest

/-- An identifier has a first character, and it begins an identifier. -/
theorem exists_cons_of_isIdentifier {name : String} (h : isIdentifier name = true) :
    ∃ first rest, name.toList = first :: rest ∧ beginsIdentifier first = true := by
  unfold isIdentifier at h
  cases hname : name.toList with
  | nil => simp [hname] at h
  | cons first rest =>
      simp only [hname, Bool.and_eq_true] at h
      exact ⟨first, rest, rfl, h.1⟩

/-- Settings without a problem name the component by an identifier. -/
theorem isIdentifier_componentName {config : EmitterConfig} (h : config.problem? = none) :
    isIdentifier config.componentName = true := by
  unfold EmitterConfig.problem? at h
  split at h
  · cases h
  · next hname =>
    simp only [EmitterConfig.isComponentName, Bool.not_eq_true, Bool.not_eq_false',
      Bool.and_eq_true] at hname
    exact hname.1

theorem isPlainInAttribute_of_mem {text : String} (h : isPlainAttribute text = true) {c : Char}
    (hmem : c ∈ text.toList) : isPlainInAttribute c = true := by
  simp only [isPlainAttribute, Bool.and_eq_true, List.all_eq_true] at h
  exact h.2 c hmem

theorem isPlainBetweenTags_of_mem {text : String} (h : isPlainText text = true) {c : Char}
    (hmem : c ∈ text.toList) : isPlainBetweenTags c = true := by
  simp only [isPlainText, Bool.and_eq_true, List.all_eq_true] at h
  exact h.2 c hmem

/-! ## Numbers -/

/-- An unsigned numeral: digits, then nothing or a point and more digits. -/
structure IsNumeral (text : List Char) : Prop where
  shape : ∃ whole fraction, text = whole ++ fraction ∧ whole ≠ [] ∧
    (∀ c ∈ whole, c.isDigit = true) ∧
    (fraction = [] ∨ ∃ digits, fraction = '.' :: digits ∧ digits ≠ [] ∧
      ∀ c ∈ digits, c.isDigit = true)

/-- The shortest digits of a number are digits, and there is at least one. -/
theorem shortest_digits (x : Binary64) (tieUp : Bool) :
    (x.shortest tieUp).digits ≠ [] ∧ ∀ c ∈ (x.shortest tieUp).digits, c.isDigit = true := by
  unfold Binary64.shortest
  dsimp only
  split
  · next steps grid _ =>
    refine ⟨Binary64.stripZeros_ne_nil _, fun c hmem => ?_⟩
    obtain ⟨count, hcount⟩ :=
      Binary64.exists_stripZeros (Nat.toDigits_ne_nil (n := steps) (b := 10))
    refine (Numeral.IsDigits.toDigits steps).isDigit c ?_
    rw [hcount]
    exact List.mem_append_left _ hmem
  · exact ⟨by simp, by simp⟩

theorem isNumeral_positionalText (s : Scientific) (hne : s.digits ≠ [])
    (hdigits : ∀ c ∈ s.digits, c.isDigit = true) : IsNumeral (s.positionalText false) := by
  have hzeros : ∀ (count : Nat), ∀ c ∈ List.replicate count '0', c.isDigit = true := by
    intro count c hmem
    rw [List.eq_of_mem_replicate hmem]
    rfl
  unfold Scientific.positionalText
  dsimp only
  split
  · refine ⟨_, [], rfl, ?_, ?_, Or.inl rfl⟩
    · simp [hne]
    · intro c hmem
      rcases List.mem_append.mp hmem with hmem | hmem
      · exact hdigits c hmem
      · exact hzeros _ c hmem
  · next hlong =>
    split
    · next hwhole =>
      refine ⟨_, _, rfl, ?_, ?_, Or.inr ⟨_, rfl, ?_, ?_⟩⟩
      · intro hnil
        rcases List.take_eq_nil_iff.mp hnil with hcount | hempty
        · omega
        · exact hne hempty
      · exact fun c hmem => hdigits c (List.mem_of_mem_take hmem)
      · intro hnil
        have hlength := List.drop_eq_nil_iff.mp hnil
        omega
      · exact fun c hmem => hdigits c (List.mem_of_mem_drop hmem)
    · refine ⟨['0'], _, rfl, by simp, by simp, Or.inr ⟨_, rfl, by simp [hne], ?_⟩⟩
      intro c hmem
      rcases List.mem_append.mp hmem with hmem | hmem
      · exact hzeros _ c hmem
      · exact hdigits c hmem

def unsignedText (x : Binary64) : List Char :=
  (if x.isZero then ⟨['0'], 0⟩ else x.shortest true : Scientific).positionalText false

theorem finiteText_plain (x : Binary64) :
    x.finiteText NumeralStyle.plain =
      (if x.isNegative then ['-'] else []) ++ unsignedText x := rfl

theorem isNumeral_unsignedText (x : Binary64) : IsNumeral (unsignedText x) := by
  unfold unsignedText
  split
  · exact isNumeral_positionalText _ (by simp) (by simp)
  · exact isNumeral_positionalText _ (shortest_digits x true).1 (shortest_digits x true).2

theorem toList_sourceText_of_isFinite {x : Binary64} (h : x.isFinite = true) :
    x.sourceText.toList = (if x.isNegative then ['-'] else []) ++ unsignedText x := by
  simp only [Binary64.sourceText, Binary64.isUndefined_of_isFinite h,
    Binary64.isInfinite_of_isFinite h, Bool.false_eq_true, if_false, String.toList_ofList,
    finiteText_plain]

/-- The digits depend on the magnitude only. -/
theorem unsignedText_congr {x y : Binary64} (h : x.magnitude = y.magnitude) :
    unsignedText x = unsignedText y := by
  have hsignificand : x.significand = y.significand := by
    unfold Binary64.significand
    rw [h]
  have hscale : x.scale = y.scale := by
    unfold Binary64.scale
    rw [h]
  have hbasin : x.basin = y.basin := by
    unfold Binary64.basin
    rw [hsignificand, hscale]
  unfold unsignedText Binary64.isZero Binary64.shortest
  rw [h, hbasin]

/-- A character of a numeral or of the name of a number that is not finite. -/
def isNumberChar (c : Char) : Bool := c.isAlphanum || c = '.' || c = '-'

theorem isNumberChar_of_isDigit {c : Char} (h : c.isDigit = true) : isNumberChar c = true := by
  simp [isNumberChar, Char.isAlphanum, h]

/-- A numeral is written with digits and points. -/
theorem IsNumeral.isDigit_or_point {text : List Char} (h : IsNumeral text) {c : Char}
    (hmem : c ∈ text) : c.isDigit = true ∨ c = '.' := by
  obtain ⟨whole, fraction, rfl, -, hwhole, hfraction⟩ := h.shape
  rcases List.mem_append.mp hmem with hmem | hmem
  · exact Or.inl (hwhole c hmem)
  · rcases hfraction with rfl | ⟨digits, rfl, -, hdigits⟩
    · cases hmem
    · rcases List.mem_cons.mp hmem with rfl | hmem
      · exact Or.inr rfl
      · exact Or.inl (hdigits c hmem)

/-- A number is written by its name or as a numeral behind a sign. -/
theorem sourceText_cases (x : Binary64) :
    (∃ name ∈ [['N', 'a', 'N'], ['-', 'I', 'n', 'f', 'i', 'n', 'i', 't', 'y'],
      ['I', 'n', 'f', 'i', 'n', 'i', 't', 'y']], x.sourceText.toList = name) ∨
    x.sourceText.toList = (if x.isNegative then ['-'] else []) ++ unsignedText x := by
  unfold Binary64.sourceText
  split
  · exact Or.inl ⟨_, by simp, String.toList_ofList⟩
  · split
    · split
      · exact Or.inl ⟨_, by simp, String.toList_ofList⟩
      · exact Or.inl ⟨_, by simp, String.toList_ofList⟩
    · rw [String.toList_ofList, finiteText_plain]
      exact Or.inr rfl

theorem isNumberChar_of_mem_sourceText (x : Binary64) {c : Char}
    (hmem : c ∈ x.sourceText.toList) : isNumberChar c = true := by
  rcases sourceText_cases x with ⟨name, hname, htext⟩ | htext
  · have hall : [['N', 'a', 'N'], ['-', 'I', 'n', 'f', 'i', 'n', 'i', 't', 'y'],
        ['I', 'n', 'f', 'i', 'n', 'i', 't', 'y']].all (·.all isNumberChar) = true := rfl
    rw [htext] at hmem
    exact List.all_eq_true.mp (List.all_eq_true.mp hall name hname) c hmem
  · rw [htext] at hmem
    rcases List.mem_append.mp hmem with hsign | hbody
    · split at hsign
      · have hminus : c = '-' := by simpa using hsign
        subst hminus
        rfl
      · simp at hsign
    · rcases (isNumeral_unsignedText x).isDigit_or_point hbody with hdigit | rfl
      · exact isNumberChar_of_isDigit hdigit
      · rfl

theorem exists_cons_unsignedText (x : Binary64) :
    ∃ c rest, unsignedText x = c :: rest ∧ c.isDigit = true := by
  obtain ⟨whole, fraction, htext, hne, hwhole, -⟩ := (isNumeral_unsignedText x).shape
  cases whole with
  | nil => exact absurd rfl hne
  | cons c whole => exact ⟨c, whole ++ fraction, htext, hwhole c (by simp)⟩

/-- The first two characters of a number are not those of a name that begins with `Nu`. -/
theorem exists_cons_sourceText (x : Binary64) :
    ∃ c rest, x.sourceText.toList = c :: rest ∧ (c = 'N' → rest = ['a', 'N']) := by
  rcases sourceText_cases x with ⟨name, hname, htext⟩ | htext
  · simp only [List.mem_cons, List.not_mem_nil, or_false] at hname
    rcases hname with rfl | rfl | rfl
    · exact ⟨_, _, htext, fun _ => rfl⟩
    · exact ⟨_, _, htext, fun h => absurd h (by decide)⟩
    · exact ⟨_, _, htext, fun h => absurd h (by decide)⟩
  · obtain ⟨c, rest, hunsigned, hc⟩ := exists_cons_unsignedText x
    rw [hunsigned] at htext
    split at htext
    · exact ⟨_, _, htext, fun h => absurd h (by decide)⟩
    · exact ⟨_, _, htext, fun h => absurd h (ne_of_holds hc rfl)⟩

end FormCompiler.Source
