import FormCompiler.Proofs.Source.Written

/-!
# The grammar of decimal literals

A decimal literal is an optional sign, digits with an optional point among or beside them, and an
optional exponent.  The relations carry the numbers that are meant along with the texts.  The
principal result is that the reader knows the grammar: it reads a text as a decimal numeral exactly
if the text is a literal of that numeral.
-/

namespace FormCompiler.Numeral

open Source (Apart apart_nil apart_cons takeWhile_append_of_apart dropWhile_append_of_apart)

/-! ## Literals and their parts -/

def isSign (c : Char) : Bool := c == '+' || c == '-'

/-- What would be taken as one more character of a mantissa. -/
def continuesMantissa (c : Char) : Bool := c.isDigit || c == '.'

/-- A sign, which may be left out, and whether it is a minus. -/
inductive Sign : Bool → List Char → Prop where
  | absent : Sign false []
  | plus : Sign false ['+']
  | minus : Sign true ['-']

/-- Digits with an optional point: the number that they make without it, and how many of them stand
behind it. -/
inductive Mantissa : Nat → Nat → List Char → Prop where
  | whole {digits : List Char} (hdigits : IsDigits digits) : Mantissa (valueOf digits) 0 digits
  | pointed {whole fraction : List Char} (hdigits : IsDigits (whole ++ fraction)) :
      Mantissa (valueOf (whole ++ fraction)) fraction.length (whole ++ '.' :: fraction)

/-- The power of ten at the end, which may be left out. -/
inductive Exponent : Int → List Char → Prop where
  | absent : Exponent 0 []
  | given {mark : Char} {negative : Bool} {sign digits : List Char}
      (hmark : mark = 'e' ∨ mark = 'E') (hsign : Sign negative sign) (hdigits : IsDigits digits) :
      Exponent (if negative then -(valueOf digits : Int) else valueOf digits)
        (mark :: (sign ++ digits))

/-- The literals of a decimal numeral. -/
inductive DecimalLiteral : Decimal → List Char → Prop where
  | mk {negative : Bool} {value places : Nat} {exponent : Int} {sign mantissa power : List Char}
      (hsign : Sign negative sign) (hmantissa : Mantissa value places mantissa)
      (hpower : Exponent exponent power) :
      DecimalLiteral ⟨negative, value, exponent - places⟩ (sign ++ (mantissa ++ power))

/-! ## Digits -/

theorem takeDigits_append {digits rest : List Char} (hdigits : ∀ c ∈ digits, c.isDigit = true)
    (hrest : Apart Char.isDigit rest) : takeDigits (digits ++ rest) = (digits, rest) := by
  unfold takeDigits
  rw [takeWhile_append_of_apart hdigits hrest, dropWhile_append_of_apart hdigits hrest]

theorem of_takeDigits_eq {text digits rest : List Char} (h : takeDigits text = (digits, rest)) :
    text = digits ++ rest ∧ ∀ c ∈ digits, c.isDigit = true := by
  obtain ⟨rfl, rfl⟩ := Prod.mk.inj h
  exact ⟨List.takeWhile_append_dropWhile.symm, fun _ => List.mem_takeWhile_imp⟩

/-- Digits do not begin with a sign. -/
theorem IsDigits.apart_sign {digits : List Char} (h : IsDigits digits) (rest : List Char) :
    Apart isSign (digits ++ rest) := by
  intro c hmem
  rw [List.head?_append_of_ne_nil _ h.ne_nil] at hmem
  have hdigit := h.isDigit c (List.mem_of_mem_head? hmem)
  refine Bool.or_eq_false_iff.mpr ⟨beq_eq_false_iff_ne.mpr ?_, beq_eq_false_iff_ne.mpr ?_⟩
  all_goals
    rintro rfl
    exact absurd hdigit (by decide)

/-! ## Signs and exponents -/

theorem Sign.takeSign_append {negative : Bool} {sign rest : List Char} (h : Sign negative sign)
    (hrest : Apart isSign rest) :
    takeSign (sign ++ rest) = (negative, rest) := by
  cases h with
  | plus => rfl
  | minus => rfl
  | absent =>
      rw [List.nil_append]
      cases rest with
      | nil => rfl
      | cons c rest =>
          obtain ⟨hplus, hminus⟩ := Bool.or_eq_false_iff.mp (hrest c rfl)
          unfold takeSign
          split
          · next heq =>
            cases heq
            cases hminus
          · next heq =>
            cases heq
            cases hplus
          · rfl

theorem exists_sign_of_takeSign_eq {text rest : List Char} {negative : Bool}
    (h : takeSign text = (negative, rest)) : ∃ sign, Sign negative sign ∧ text = sign ++ rest := by
  unfold takeSign at h
  split at h
  · cases h
    exact ⟨['-'], .minus, rfl⟩
  · cases h
    exact ⟨['+'], .plus, rfl⟩
  · cases h
    exact ⟨[], .absent, rfl⟩

theorem exponent?_eq_some_iff {text : List Char} {exponent : Int} :
    exponent? text = some exponent ↔ Exponent exponent text := by
  constructor
  · intro h
    cases text with
    | nil =>
        cases h
        exact .absent
    | cons mark rest =>
        rcases hsplit : takeSign rest with ⟨negative, digits⟩
        obtain ⟨sign, hsign, rfl⟩ := exists_sign_of_takeSign_eq hsplit
        simp only [exponent?, hsplit] at h
        split at h
        · next hmark =>
          split at h
          · cases h
          · next hdigits =>
            cases h
            have hboth : digits ≠ [] ∧ ∀ c ∈ digits, c.isDigit = true := by simpa using hdigits
            exact .given (by simpa using hmark) hsign ⟨hboth.1, hboth.2⟩
        · cases h
  · intro h
    cases h with
    | absent => rfl
    | @given mark negative sign digits hmark hsign hdigits =>
        have hsplit : takeSign (sign ++ digits) = (negative, digits) :=
          hsign.takeSign_append (by simpa using hdigits.apart_sign [])
        have hall : (digits.isEmpty || !digits.all Char.isDigit) = false := by
          simpa using ⟨hdigits.ne_nil, hdigits.isDigit⟩
        have hletter : (decide (mark = 'e') || decide (mark = 'E')) = true := by simpa using hmark
        simp only [exponent?, hsplit, hletter, hall, if_true, Bool.false_eq_true, if_false]

/-- An exponent is no part of the digits before it. -/
theorem Exponent.apart {exponent : Int} {text : List Char} (h : Exponent exponent text) :
    Apart continuesMantissa text := by
  cases h with
  | absent => exact apart_nil _
  | given hmark => rcases hmark with rfl | rfl <;> exact apart_cons rfl _

/-! ## The digits and the point -/

theorem exists_mantissa {text whole afterWhole fraction rest : List Char}
    (hwhole : takeDigits text = (whole, afterWhole))
    (hfraction : takeFraction afterWhole = (fraction, rest)) (hne : whole ++ fraction ≠ []) :
    ∃ mantissa, text = mantissa ++ rest ∧
      Mantissa (valueOf (whole ++ fraction)) fraction.length mantissa := by
  obtain ⟨rfl, hdigits⟩ := of_takeDigits_eq hwhole
  unfold takeFraction at hfraction
  split at hfraction
  · obtain ⟨rfl, hmore⟩ := of_takeDigits_eq hfraction
    refine ⟨whole ++ '.' :: fraction, by simp, .pointed ⟨hne, fun c hmem => ?_⟩⟩
    exact (List.mem_append.mp hmem).elim (hdigits c) (hmore c)
  · cases hfraction
    rw [List.append_nil] at hne ⊢
    exact ⟨whole, rfl, .whole ⟨hne, hdigits⟩⟩

theorem Mantissa.exists_take {value places : Nat} {mantissa rest : List Char}
    (h : Mantissa value places mantissa) (hrest : Apart continuesMantissa rest) :
    ∃ whole afterWhole fraction, takeDigits (mantissa ++ rest) = (whole, afterWhole) ∧
      takeFraction afterWhole = (fraction, rest) ∧ whole ++ fraction ≠ [] ∧
      value = valueOf (whole ++ fraction) ∧ places = fraction.length := by
  have hdigit : Apart Char.isDigit rest := fun c hmem => (Bool.or_eq_false_iff.mp (hrest c hmem)).1
  cases h with
  | whole hdigits =>
      refine ⟨mantissa, rest, [], takeDigits_append hdigits.isDigit hdigit, ?_, ?_, ?_, rfl⟩
      · cases rest with
        | nil => rfl
        | cons c rest =>
            have hpoint := (Bool.or_eq_false_iff.mp (hrest c rfl)).2
            unfold takeFraction
            split
            · next heq =>
              cases heq
              cases hpoint
            · rfl
      · simpa using hdigits.ne_nil
      · rw [List.append_nil]
  | @pointed whole fraction hdigits =>
      have hwhole : ∀ c ∈ whole, c.isDigit = true := fun c hmem =>
        hdigits.isDigit c (List.mem_append_left _ hmem)
      have hfraction : ∀ c ∈ fraction, c.isDigit = true := fun c hmem =>
        hdigits.isDigit c (List.mem_append_right _ hmem)
      refine ⟨whole, '.' :: (fraction ++ rest), fraction, ?_, takeDigits_append hfraction hdigit,
        hdigits.ne_nil, rfl, rfl⟩
      rw [List.append_assoc, List.cons_append]
      exact takeDigits_append hwhole (apart_cons rfl _)

/-- Neither form of a mantissa begins with a sign. -/
theorem Mantissa.apart_sign {value places : Nat} {mantissa : List Char}
    (h : Mantissa value places mantissa) (rest : List Char) :
    Apart isSign (mantissa ++ rest) := by
  cases h with
  | whole hdigits => exact hdigits.apart_sign rest
  | @pointed whole fraction hdigits =>
      cases whole with
      | nil => exact apart_cons rfl _
      | cons c whole =>
          have hfirst := hdigits.apart_sign []
          exact fun d hmem => hfirst d hmem

/-! ## Reading -/

/-- A text is read as a decimal numeral exactly if it is a literal of that numeral. -/
theorem read?_eq_some_iff {text : List Char} {d : Decimal} :
    read? text = some d ↔ DecimalLiteral d text := by
  constructor
  · intro h
    unfold read? at h
    rcases hsplit : takeSign text with ⟨negative, unsigned⟩
    rcases hwhole : takeDigits unsigned with ⟨whole, afterWhole⟩
    rcases hfraction : takeFraction afterWhole with ⟨fraction, rest⟩
    simp only [hsplit, hwhole, hfraction] at h
    split at h
    · cases h
    · next hempty =>
      obtain ⟨exponent, hexponent, rfl⟩ := Option.map_eq_some_iff.mp h
      have hne : whole ++ fraction ≠ [] := by simpa using hempty
      obtain ⟨sign, hsign, rfl⟩ := exists_sign_of_takeSign_eq hsplit
      obtain ⟨mantissa, rfl, hmantissa⟩ := exists_mantissa hwhole hfraction hne
      exact .mk hsign hmantissa (exponent?_eq_some_iff.mp hexponent)
  · rintro ⟨hsign, hmantissa, hpower⟩
    obtain ⟨whole, afterWhole, fraction, hwhole, hfraction, hne, rfl, rfl⟩ :=
      hmantissa.exists_take hpower.apart
    have hempty : (whole.isEmpty && fraction.isEmpty) = false := by simpa using hne
    unfold read?
    rw [hsign.takeSign_append (hmantissa.apart_sign _)]
    simp only [hwhole, hfraction, hempty, exponent?_eq_some_iff.mpr hpower]
    rfl

/-- What is laid out as a numeral is a literal of the decimal numeral that is meant. -/
theorem decimalLiteral_text (n : WrittenNumeral) : DecimalLiteral n.decimal n.text := by
  obtain ⟨negative, whole, fraction, exponent, hwhole, -, hfraction, hexponent⟩ := n
  have hsign : Sign negative (if negative then ['-'] else []) := by
    cases negative with
    | true => exact .minus
    | false => exact .absent
  have hmantissa : Mantissa (valueOf (whole ++ fraction.getD [])) (fraction.getD []).length
      (whole ++ WrittenNumeral.fractionText fraction) := by
    cases fraction with
    | none => simpa [WrittenNumeral.fractionText] using Mantissa.whole hwhole
    | some digits => exact .pointed (hwhole.append (hfraction digits rfl).isDigit)
  have hpower :
      Exponent (WrittenNumeral.shift exponent) (WrittenNumeral.exponentText exponent) := by
    cases exponent with
    | none => exact .absent
    | some part =>
        obtain ⟨below, digits⟩ := part
        have hmark : Sign below [if below then '-' else '+'] := by
          cases below with
          | true => exact .minus
          | false => exact .plus
        exact .given (Or.inl rfl) hmark (hexponent _ rfl)
  simpa only [WrittenNumeral.text, WrittenNumeral.decimal, List.append_assoc] using
    DecimalLiteral.mk hsign hmantissa hpower

theorem read?_text (n : WrittenNumeral) : read? n.text = some n.decimal :=
  read?_eq_some_iff.mpr (decimalLiteral_text n)

/-! ## The characters of a literal -/

/-- A character that can stand in a decimal literal. -/
def isLiteralChar (c : Char) : Bool := c.isDigit || ['.', '+', '-', 'e', 'E'].contains c

theorem isLiteralChar_of_isDigit {c : Char} (h : c.isDigit = true) : isLiteralChar c = true := by
  simp [isLiteralChar, h]

theorem Sign.chars {negative : Bool} {sign : List Char} (h : Sign negative sign) :
    ∀ c ∈ sign, isLiteralChar c = true := by
  cases h <;> simp [isLiteralChar]

theorem DecimalLiteral.chars {d : Decimal} {text : List Char} (h : DecimalLiteral d text) :
    ∀ c ∈ text, isLiteralChar c = true := by
  obtain ⟨hsign, hmantissa, hpower⟩ := h
  have hdigit : ∀ {digits : List Char}, IsDigits digits → ∀ c ∈ digits, isLiteralChar c = true :=
    fun hdigits c hmem => isLiteralChar_of_isDigit (hdigits.isDigit c hmem)
  rw [List.forall_mem_append, List.forall_mem_append]
  refine ⟨hsign.chars, ?_, ?_⟩
  · cases hmantissa with
    | whole hdigits => exact hdigit hdigits
    | pointed hdigits =>
        obtain ⟨hwhole, hfraction⟩ := List.forall_mem_append.mp (hdigit hdigits)
        exact List.forall_mem_append.mpr ⟨hwhole, List.forall_mem_cons.mpr ⟨rfl, hfraction⟩⟩
  · cases hpower with
    | absent => simp
    | given hmark hpowerSign hdigits =>
        refine List.forall_mem_cons.mpr ⟨?_, List.forall_mem_append.mpr
          ⟨hpowerSign.chars, hdigit hdigits⟩⟩
        rcases hmark with rfl | rfl <;> rfl

end FormCompiler.Numeral
