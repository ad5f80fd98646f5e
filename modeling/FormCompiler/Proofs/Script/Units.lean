import FormCompiler.Text.Search
import Mathlib.Data.List.Infix

/-!
# Code units

A script sees a text as code units of 16 bits: one for each character of the basic plane, and a
pair of surrogates for any other.  No unit of one kind can be taken for one of another, so texts are
equal when their units are, and one text occurs in another exactly when its units do.
-/

namespace FormCompiler.Script

def units (c : Char) : List Nat :=
  if c.toNat < 0x10000 then [c.toNat]
  else [0xD800 + (c.toNat - 0x10000) / 0x400, 0xDC00 + (c.toNat - 0x10000) % 0x400]

def unitsOf (text : String) : List Nat := text.toList.flatMap units

/-- The second unit of a pair. -/
def isTrail (unit : Nat) : Prop := 0xDC00 ≤ unit ∧ unit < 0xE000

/-- A character has one unit outside of the surrogates, or a pair of them. -/
theorem units_cases (c : Char) :
    (units c = [c.toNat] ∧ c.toNat < 0x10000 ∧ (c.toNat < 0xD800 ∨ 0xE000 ≤ c.toNat)) ∨
    ∃ lead trail, units c = [lead, trail] ∧ 0xD800 ≤ lead ∧ lead < 0xDC00 ∧ isTrail trail ∧
      c.toNat = 0x10000 + (lead - 0xD800) * 0x400 + (trail - 0xDC00) := by
  have hvalid : c.toNat < 0xD800 ∨ 0xDFFF < c.toNat ∧ c.toNat < 0x110000 := c.valid
  unfold units isTrail
  split
  · next hsmall => exact Or.inl ⟨rfl, hsmall, by omega⟩
  · next hlarge => exact Or.inr ⟨_, _, rfl, by omega, by omega, by omega, by omega⟩

theorem units_ne_nil (c : Char) : units c ≠ [] := by
  unfold units
  split <;> simp

/-- No character begins with the second unit of a pair. -/
theorem not_isTrail_of_units {c : Char} {unit : Nat} {rest : List Nat}
    (h : units c = unit :: rest) : ¬isTrail unit := by
  unfold isTrail
  rcases units_cases c with ⟨hunits, hsmall, hplane⟩ | ⟨lead, trail, hunits, hlow, hhigh, -, -⟩
  · rw [hunits] at h
    cases h
    omega
  · rw [hunits] at h
    cases h
    omega

/-- The first character can be told from the units, whatever follows it. -/
theorem units_append_inj {c d : Char} {x y : List Nat} (h : units c ++ x = units d ++ y) :
    c = d ∧ x = y := by
  rcases units_cases c with ⟨hc, hsmall, hplane⟩ | ⟨lead, trail, hc, hlow, hhigh, htrail, hcode⟩
  · rcases units_cases d with ⟨hd, -, -⟩ | ⟨lead', trail', hd, hlow', hhigh', -, -⟩
    · rw [hc, hd] at h
      simp only [List.cons_append, List.nil_append, List.cons.injEq] at h
      exact ⟨Char.toNat_inj.mp h.1, h.2⟩
    · rw [hc, hd] at h
      simp only [List.cons_append, List.nil_append, List.cons.injEq] at h
      omega
  · rcases units_cases d with ⟨hd, hsmall, hplane⟩ | ⟨lead', trail', hd, -, -, -, hcode'⟩
    · rw [hc, hd] at h
      simp only [List.cons_append, List.nil_append, List.cons.injEq] at h
      omega
    · rw [hc, hd] at h
      simp only [List.cons_append, List.nil_append, List.cons.injEq] at h
      obtain ⟨rfl, rfl, hrest⟩ := h
      exact ⟨Char.toNat_inj.mp (hcode.trans hcode'.symm), hrest⟩

/-- The units of a text that begin those of another are the units of its beginning. -/
theorem exists_append_of_units {part text : List Char} {rest : List Nat}
    (h : text.flatMap units = part.flatMap units ++ rest) :
    ∃ others, text = part ++ others ∧ rest = others.flatMap units := by
  induction part generalizing text with
  | nil => exact ⟨text, rfl, by simpa using h.symm⟩
  | cons c part ih =>
      cases text with
      | nil =>
          have hnil := List.append_eq_nil_iff.mp (List.append_eq_nil_iff.mp h.symm).1
          exact absurd hnil.1 (units_ne_nil c)
      | cons d text =>
          rw [List.flatMap_cons, List.flatMap_cons, List.append_assoc] at h
          obtain ⟨rfl, hrest⟩ := units_append_inj h
          obtain ⟨others, rfl, hothers⟩ := ih hrest
          exact ⟨others, rfl, hothers⟩

/-! ## Texts of units -/

def charsOf : List Nat → List Char
  | [] => []
  | [unit] => [Char.ofNat unit]
  | lead :: trail :: rest =>
      if 0xD800 ≤ lead ∧ lead < 0xDC00 then
        Char.ofNat (0x10000 + (lead - 0xD800) * 0x400 + (trail - 0xDC00)) :: charsOf rest
      else Char.ofNat lead :: charsOf (trail :: rest)

theorem charsOf_cons {unit : Nat} (h : unit < 0xD800 ∨ 0xDC00 ≤ unit) (rest : List Nat) :
    charsOf (unit :: rest) = Char.ofNat unit :: charsOf rest := by
  cases rest with
  | nil => rfl
  | cons trail rest =>
      have hsingle : ¬(0xD800 ≤ unit ∧ unit < 0xDC00) := by omega
      rw [charsOf, if_neg hsingle]

/-- The units of a text are those of no other text. -/
theorem charsOf_flatMap_units (text : List Char) : charsOf (text.flatMap units) = text := by
  induction text with
  | nil => rfl
  | cons c text ih =>
      rw [List.flatMap_cons]
      rcases units_cases c with ⟨hc, -, hplane⟩ | ⟨lead, trail, hc, hlow, hhigh, -, hcode⟩
      · rw [hc, List.singleton_append, charsOf_cons (by omega), ih, Char.ofNat_toNat]
      · rw [hc, List.cons_append, List.singleton_append, charsOf, if_pos ⟨hlow, hhigh⟩, ← hcode,
          ih, Char.ofNat_toNat]

theorem flatMap_units_inj {first second : List Char}
    (h : first.flatMap units = second.flatMap units) : first = second := by
  have hchars := congrArg charsOf h
  rwa [charsOf_flatMap_units, charsOf_flatMap_units] at hchars

theorem unitsOf_inj {first second : String} : unitsOf first = unitsOf second ↔ first = second := by
  constructor
  · exact fun h => String.toList_inj.mp (flatMap_units_inj h)
  · exact fun h => congrArg unitsOf h

/-! ## Search -/

/-- The units of a text that is not empty are found at the beginning of a character only. -/
theorem exists_of_units_eq {part text : List Char} (hne : part ≠ []) {before rest : List Nat}
    (h : text.flatMap units = before ++ part.flatMap units ++ rest) :
    ∃ first others, text = first ++ part ++ others := by
  induction text generalizing before with
  | nil =>
      have hnil := (List.append_eq_nil_iff.mp (List.append_eq_nil_iff.mp h.symm).1).2
      cases part with
      | nil => exact absurd rfl hne
      | cons c part => exact absurd (List.append_eq_nil_iff.mp hnil).1 (units_ne_nil c)
  | cons c text ih =>
      have hstep : ∀ {more : List Nat}, text.flatMap units = more ++ part.flatMap units ++ rest →
          ∃ first others, c :: text = first ++ part ++ others := by
        intro more hmore
        obtain ⟨first, others, rfl⟩ := ih hmore
        exact ⟨c :: first, others, rfl⟩
      cases before with
      | nil =>
          obtain ⟨others, htext, -⟩ := exists_append_of_units h
          exact ⟨[], others, htext⟩
      | cons unit before =>
          rw [List.flatMap_cons] at h
          rcases units_cases c with ⟨hc, -, -⟩ | ⟨lead, trail, hc, -, -, htrail, -⟩
          · rw [hc] at h
            simp only [List.cons_append, List.nil_append, List.cons.injEq] at h
            exact hstep h.2
          · rw [hc] at h
            simp only [List.cons_append, List.nil_append, List.cons.injEq] at h
            cases before with
            | cons second before =>
                simp only [List.cons_append, List.cons.injEq] at h
                exact hstep h.2.2
            | nil =>
                -- the second unit of the pair would begin a character of the part
                cases part with
                | nil => exact absurd rfl hne
                | cons d part =>
                    cases hd : units d with
                    | nil => exact absurd hd (units_ne_nil d)
                    | cons first others =>
                        simp only [List.nil_append, List.flatMap_cons, hd, List.cons_append,
                          List.cons.injEq] at h
                        rw [← h.2.1] at hd
                        exact absurd htrail (not_isTrail_of_units hd)

/-- A text occurs in another exactly when its units occur in those of the other. -/
theorem occurs_eq_decide (part text : List Char) :
    Text.occurs part text = decide (part.flatMap units <:+: text.flatMap units) := by
  rw [Bool.eq_iff_iff, decide_eq_true_iff, Text.occurs_iff]
  constructor
  · rintro ⟨before, rest, rfl⟩
    exact ⟨before.flatMap units, rest.flatMap units, by simp⟩
  · rintro ⟨before, rest, h⟩
    cases part with
    | nil => exact ⟨[], text, rfl⟩
    | cons c part => exact exists_of_units_eq (by simp) h.symm

end FormCompiler.Script
