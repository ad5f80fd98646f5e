import FormCompiler.Proofs.Extraction.Silence
import FormCompiler.Proofs.Schema.Soundness

/-!
# The assignments of a text

The principal notion is `AssignedAt`: an assignment of an identifier begins at a position of a
text.  It is said without the scan, and an assignment may begin anywhere, also within a word.  No
assignment begins within another one, because only its identifier has the first letter of the
word, and behind a word at the end of the identifier stands a quote.  Hence a scan that goes on
behind each assignment finds all of them, and text that is added at the end changes none.
-/

namespace FormCompiler.Extraction

open Source

/-! ## Written assignments -/

/-- What an assignment may assign: one character of a name or more. -/
structure IsIdentifier (name : List Char) : Prop where
  ne_nil : name ≠ []
  holds : ∀ c ∈ name, isNameChar c = true

/-- The ways to quote an identifier. -/
inductive Quotes (name : List Char) : List Char → Prop
  | double : Quotes name ('"' :: (name ++ ['"']))
  | single : Quotes name ('\'' :: (name ++ ['\'']))
  | braced {before after : List Char} (hbefore : ∀ c ∈ before, Text.isBlank c = true)
      (hafter : ∀ c ∈ after, Text.isBlank c = true) :
      Quotes name ('\x7b' :: (before ++ '"' :: (name ++ '"' :: (after ++ ['\x7d']))))

/-- The texts that assign an identifier: the word, the sign and the quoted identifier, with blanks
on both sides of the sign. -/
inductive IsAssignment (name : List Char) : List Char → Prop
  | intro {before after value : List Char} (hname : IsIdentifier name)
      (hbefore : ∀ c ∈ before, Text.isBlank c = true)
      (hafter : ∀ c ∈ after, Text.isBlank c = true) (hvalue : Quotes name value) :
      IsAssignment name (nameWord ++ (before ++ '=' :: (after ++ value)))

/-- An assignment of the identifier begins at the position. -/
def AssignedAt (text : List Char) (position : Nat) (name : List Char) : Prop :=
  ∃ before assignment rest, text = before ++ (assignment ++ rest) ∧ before.length = position ∧
    IsAssignment name assignment

/-! ## Reading an assignment -/

theorem exists_blanks (text : List Char) :
    ∃ blanks, (∀ c ∈ blanks, Text.isBlank c = true) ∧ text = blanks ++ skipBlanks text :=
  ⟨text.takeWhile Text.isBlank, fun c hmem => List.all_eq_true.mp List.all_takeWhile c hmem,
    List.takeWhile_append_dropWhile.symm⟩

theorem skipBlanks_append {blanks : List Char} (hblanks : ∀ d ∈ blanks, Text.isBlank d = true)
    (c : Char) (hc : Text.isBlank c = false) (rest : List Char) :
    skipBlanks (blanks ++ c :: rest) = c :: rest :=
  dropWhile_append_of_apart hblanks (apart_cons hc rest)

theorem quotedName?_eq_some_iff {quote : Char} (hquote : isNameChar quote = false)
    {text name rest : List Char} :
    quotedName? quote text = some (name, rest) ↔
      IsIdentifier name ∧ text = quote :: (name ++ quote :: rest) := by
  constructor
  · intro h
    cases text with
    | nil => cases h
    | cons c text =>
        rw [quotedName?] at h
        split at h
        · next hc =>
          dsimp only at h
          split at h
          · cases h
          · next hne =>
            obtain ⟨tail, htail, hfound⟩ := Option.map_eq_some_iff.mp h
            cases hfound
            have hdrop := Text.after?_eq_some_iff.mp htail
            refine ⟨⟨by simpa using hne, List.all_eq_true.mp List.all_takeWhile⟩, ?_⟩
            change text.dropWhile isNameChar = quote :: rest at hdrop
            rw [hc, ← hdrop, List.takeWhile_append_dropWhile]
        · cases h
  · rintro ⟨hname, rfl⟩
    have htake := takeWhile_append_of_apart hname.holds (apart_cons hquote rest)
    have hdrop := dropWhile_append_of_apart hname.holds (apart_cons hquote rest)
    simp [quotedName?, htake, hdrop, hname.ne_nil, Text.after?]

theorem bracedName?_eq_some_iff {text name rest : List Char} :
    bracedName? text = some (name, rest) ↔
      IsIdentifier name ∧
        ∃ before after, (∀ c ∈ before, Text.isBlank c = true) ∧
          (∀ c ∈ after, Text.isBlank c = true) ∧
          text = '\x7b' :: (before ++ '"' :: (name ++ '"' :: (after ++ '\x7d' :: rest))) := by
  constructor
  · intro h
    simp only [bracedName?, Option.bind_eq_bind, Option.bind_eq_some_iff] at h
    obtain ⟨inside, hopen, ⟨found, behind⟩, hquoted, tail, hclose, hfound⟩ := h
    cases hfound
    obtain ⟨hname, hinside⟩ := (quotedName?_eq_some_iff rfl).mp hquoted
    obtain ⟨before, hbefore, hsplit⟩ := exists_blanks inside
    obtain ⟨after, hafter, hrest⟩ := exists_blanks behind
    rw [hinside] at hsplit
    rw [Text.after?_eq_some_iff.mp hclose] at hrest
    refine ⟨hname, before, after, hbefore, hafter, ?_⟩
    rw [Text.after?_eq_some_iff.mp hopen, hsplit, hrest]
    rfl
  · rintro ⟨hname, before, after, hbefore, hafter, rfl⟩
    have hquoted : quotedName? '"' ('"' :: (name ++ '"' :: (after ++ '\x7d' :: rest))) =
        some (name, after ++ '\x7d' :: rest) :=
      (quotedName?_eq_some_iff rfl).mpr ⟨hname, rfl⟩
    simp [bracedName?, Text.after?, skipBlanks_append hbefore '"' rfl, hquoted,
      skipBlanks_append hafter '\x7d' rfl]

/-- A value is read exactly if it is a quoted identifier behind blanks. -/
theorem assignedValue?_eq_some_iff {text name rest : List Char} :
    assignedValue? text = some (name, rest) ↔
      IsIdentifier name ∧
        ∃ blanks value, (∀ c ∈ blanks, Text.isBlank c = true) ∧ Quotes name value ∧
          text = blanks ++ (value ++ rest) := by
  constructor
  · intro h
    obtain ⟨blanks, hblanks, hsplit⟩ := exists_blanks text
    unfold assignedValue? at h
    split at h
    · next found hquoted =>
      cases h
      obtain ⟨hname, htext⟩ := (quotedName?_eq_some_iff rfl).mp hquoted
      exact ⟨hname, blanks, _, hblanks, .double, by rw [hsplit, htext]; simp⟩
    · split at h
      · next found hquoted =>
        cases h
        obtain ⟨hname, htext⟩ := (quotedName?_eq_some_iff rfl).mp hquoted
        exact ⟨hname, blanks, _, hblanks, .single, by rw [hsplit, htext]; simp⟩
      · obtain ⟨hname, before, after, hbefore, hafter, htext⟩ :=
          bracedName?_eq_some_iff.mp h
        exact ⟨hname, blanks, _, hblanks, .braced hbefore hafter,
          by rw [hsplit, htext]; simp⟩
  · rintro ⟨hname, blanks, value, hblanks, hvalue, rfl⟩
    unfold assignedValue?
    cases hvalue with
    | double =>
        have hquoted : quotedName? '"' ('"' :: (name ++ '"' :: rest)) = some (name, rest) :=
          (quotedName?_eq_some_iff rfl).mpr ⟨hname, rfl⟩
        simp [skipBlanks_append hblanks '"' rfl, hquoted]
    | single =>
        have hquoted : quotedName? '\'' ('\'' :: (name ++ '\'' :: rest)) = some (name, rest) :=
          (quotedName?_eq_some_iff rfl).mpr ⟨hname, rfl⟩
        have hdouble : quotedName? '"' ('\'' :: (name ++ '\'' :: rest)) = none := rfl
        simp [skipBlanks_append hblanks '\'' rfl, hquoted, hdouble]
    | @braced before after hbefore hafter =>
        have hbraced := bracedName?_eq_some_iff.mpr ⟨hname, before, after, hbefore, hafter,
          (rfl : _ = '\x7b' :: (before ++ '"' :: (name ++ '"' :: (after ++ '\x7d' :: rest))))⟩
        have hquoted (quote : Char) (hquote : '\x7b' ≠ quote) (others : List Char) :
            quotedName? quote ('\x7b' :: others) = none := by simp [quotedName?, hquote]
        simp [skipBlanks_append hblanks '\x7b' rfl, hquoted '"' (by decide),
          hquoted '\'' (by decide), hbraced]

theorem assignment?_append {blanks : List Char} (h : ∀ c ∈ blanks, Text.isBlank c = true)
    (value : List Char) : assignment? (nameWord ++ (blanks ++ '=' :: value)) =
      assignedValue? value := by
  have hword : assignment? (nameWord ++ (blanks ++ '=' :: value)) =
      (Text.after? ['='] (skipBlanks (blanks ++ '=' :: value))).bind assignedValue? := rfl
  rw [hword, skipBlanks_append h '=' rfl]
  rfl

/-- An assignment is read at the beginning of a text exactly if one stands there. -/
theorem assignment?_eq_some_iff {text name rest : List Char} :
    assignment? text = some (name, rest) ↔
      ∃ assignment, IsAssignment name assignment ∧ text = assignment ++ rest := by
  constructor
  · intro h
    obtain ⟨before, tail, rfl, hbefore, hvalue⟩ := exists_of_assignment? h
    obtain ⟨hname, after, value, hafter, hquotes, rfl⟩ := assignedValue?_eq_some_iff.mp hvalue
    exact ⟨_, .intro hname hbefore hafter hquotes, by simp⟩
  · rintro ⟨_, ⟨hname, hbefore, hafter, hquotes⟩, rfl⟩
    next before after value =>
    have hvalue : assignedValue? (after ++ (value ++ rest)) = some (name, rest) :=
      assignedValue?_eq_some_iff.mpr ⟨hname, after, value, hafter, hquotes, rfl⟩
    rw [List.append_assoc, List.append_assoc, List.cons_append, List.append_assoc,
      assignment?_append hbefore]
    exact hvalue

/-! ## No assignment begins within another one -/

/-- Where a character does not occur, no text that begins with it begins. -/
theorem exists_of_append_eq {first second before rest : List Char} {c : Char} (hc : c ∉ first)
    (h : first ++ second = before ++ c :: rest) :
    ∃ part, before = first ++ part ∧ second = part ++ c :: rest := by
  rcases List.append_eq_append_iff.mp h with ⟨part, hbefore, hsecond⟩ | ⟨part, hfirst, hrest⟩
  · exact ⟨part, hbefore, hsecond⟩
  · cases part with
    | nil => exact ⟨[], by simpa using hfirst.symm, by simpa using hrest.symm⟩
    | cons d part =>
        simp only [List.cons_append, List.cons.injEq] at hrest
        exact absurd (by simp [hfirst, hrest.1]) hc

theorem first_not_mem_of_blank {blanks : List Char}
    (h : ∀ c ∈ blanks, Text.isBlank c = true) : 'n' ∉ blanks := fun hmem =>
  absurd (h 'n' hmem) (by decide)

/-- Behind its first letter an assignment has that letter in the identifier only, and a quote
stands behind the identifier. -/
theorem IsAssignment.exists_shape {name assignment : List Char}
    (h : IsAssignment name assignment) :
    ∃ lead quote closing, assignment = 'n' :: (lead ++ (name ++ quote :: closing)) ∧
      'n' ∉ lead ∧ quotesValue quote = true ∧ 'n' ∉ closing := by
  obtain ⟨hname, hbefore, hafter, hvalue⟩ := h
  next before after value =>
  have hsign : 'n' ∉ ['a', 'm', 'e'] ++ (before ++ '=' :: after) := by
    simp [first_not_mem_of_blank hbefore, first_not_mem_of_blank hafter]
  cases hvalue with
  | double =>
      refine ⟨['a', 'm', 'e'] ++ (before ++ '=' :: after) ++ ['"'], '"', [], ?_, ?_, rfl, by simp⟩
      · simp [nameWord]
      · simpa using hsign
  | single =>
      refine ⟨['a', 'm', 'e'] ++ (before ++ '=' :: after) ++ ['\''], '\'', [], ?_, ?_, rfl,
        by simp⟩
      · simp [nameWord]
      · simpa using hsign
  | @braced inner outer hinner houter =>
      refine ⟨['a', 'm', 'e'] ++ (before ++ '=' :: after) ++ ('\x7b' :: (inner ++ ['"'])), '"',
        outer ++ ['\x7d'], ?_, ?_, rfl, ?_⟩
      · simp [nameWord]
      · simpa [first_not_mem_of_blank hinner] using hsign
      · simp [first_not_mem_of_blank houter]

theorem IsAssignment.isIdentifier {name assignment : List Char}
    (h : IsAssignment name assignment) : IsIdentifier name := by
  obtain ⟨hname, -, -, -⟩ := h
  exact hname

/-- An identifier that a quote follows is not the word of an assignment. -/
theorem assignment?_of_quote {part : List Char} (hpart : ∀ c ∈ part, isNameChar c = true)
    {quote : Char} (hquote : quotesValue quote = true) (rest : List Char) :
    assignment? (part ++ quote :: rest) = none := by
  rw [Option.eq_none_iff_forall_ne_some]
  intro found hfound
  obtain ⟨blanks, value, htext, hblanks, -⟩ := exists_of_assignment? hfound
  have hother : isNameChar quote = false := by
    rcases Bool.or_eq_true_iff.mp hquote with h | h <;> rw [of_decide_eq_true h] <;> rfl
  have hsigned : Apart isNameChar (blanks ++ '=' :: value) := by
    cases blanks with
    | nil => exact apart_cons rfl value
    | cons c blanks =>
        exact apart_cons (Bool.eq_false_iff.mpr fun hc =>
          absurd (hblanks c (by simp)) (by simp [isBlank_of_isNameChar hc])) _
  have hword : ∀ c ∈ nameWord, isNameChar c = true := List.all_eq_true.mp rfl
  -- Both sides begin with a run of identifier characters, so the runs and their rests agree.
  have hrests := congrArg (List.dropWhile isNameChar) htext
  rw [dropWhile_append_of_apart hpart (apart_cons hother rest),
    dropWhile_append_of_apart hword hsigned] at hrests
  cases blanks with
  | nil =>
      obtain ⟨rfl, -⟩ := List.cons.inj hrests
      cases hquote
  | cons c blanks =>
      obtain ⟨rfl, -⟩ := List.cons.inj hrests
      have hblank := hblanks quote (by simp)
      rcases Bool.or_eq_true_iff.mp hquote with h | h <;> rw [of_decide_eq_true h] at hblank <;>
        cases hblank

/-- No assignment begins behind the first letter of an assignment and before its end. -/
theorem IsAssignment.assignment?_eq_none {name assignment : List Char}
    (h : IsAssignment name assignment) (before : List Char) {part : List Char}
    (hassignment : assignment = before ++ part) (hbefore : before ≠ []) (hpart : part ≠ [])
    (rest : List Char) : assignment? (part ++ rest) = none := by
  obtain ⟨lead, quote, closing, hshape, hlead, hquote, hclosing⟩ := h.exists_shape
  rw [Option.eq_none_iff_forall_ne_some]
  intro found hfound
  obtain ⟨blanks, value, htext, -, -⟩ := exists_of_assignment? hfound
  obtain ⟨first, before, rfl⟩ := List.exists_cons_of_ne_nil hbefore
  obtain ⟨second, part, rfl⟩ := List.exists_cons_of_ne_nil hpart
  obtain rfl : second = 'n' := (List.cons.inj htext).1
  rw [hassignment] at hshape
  obtain ⟨passed, -, hpassed⟩ := exists_of_append_eq hlead (List.cons.inj hshape).2.symm
  -- The part begins within the identifier, for the letter stands neither at nor behind the quote.
  rcases List.append_eq_append_iff.mp hpassed with ⟨more, -, hmore⟩ | ⟨more, hname, hmore⟩
  · have hmem : 'n' ∈ quote :: closing := by simp [hmore]
    rcases List.mem_cons.mp hmem with rfl | hmem
    · cases hquote
    · exact hclosing hmem
  · have hmore' : ∀ c ∈ more, isNameChar c = true := fun c hmem =>
      h.isIdentifier.holds c (by simp [hname, hmem])
    rw [hmore, List.append_assoc, List.cons_append,
      assignment?_of_quote hmore' hquote (closing ++ rest)] at hfound
    cases hfound

/-! ## All assignments of a text -/

/-- The assignments that begin anywhere in a text, each with its position, where positions are
counted from the first one. -/
def assignmentsFrom : (first : Nat) → List Char → List (Nat × List Char)
  | _, [] => []
  | first, c :: rest =>
      match assignment? (c :: rest) with
      | some (name, _) => (first, name) :: assignmentsFrom (first + 1) rest
      | none => assignmentsFrom (first + 1) rest

theorem assignmentsFrom_of_some {c : Char} {rest name tail : List Char}
    (h : assignment? (c :: rest) = some (name, tail)) (first : Nat) :
    assignmentsFrom first (c :: rest) = (first, name) :: assignmentsFrom (first + 1) rest := by
  rw [assignmentsFrom, h]

theorem assignmentsFrom_of_none {c : Char} {rest : List Char}
    (h : assignment? (c :: rest) = none) (first : Nat) :
    assignmentsFrom first (c :: rest) = assignmentsFrom (first + 1) rest := by
  rw [assignmentsFrom, h]

theorem assignedAt_zero {text name : List Char} :
    AssignedAt text 0 name ↔ ∃ rest, assignment? text = some (name, rest) := by
  constructor
  · rintro ⟨before, assignment, rest, rfl, hlength, hassignment⟩
    rw [List.length_eq_zero_iff.mp hlength]
    exact ⟨rest, assignment?_eq_some_iff.mpr ⟨assignment, hassignment, rfl⟩⟩
  · rintro ⟨rest, hfound⟩
    obtain ⟨assignment, hassignment, rfl⟩ := assignment?_eq_some_iff.mp hfound
    exact ⟨[], assignment, rest, rfl, rfl, hassignment⟩

theorem assignedAt_succ {c : Char} {text name : List Char} {position : Nat} :
    AssignedAt (c :: text) (position + 1) name ↔ AssignedAt text position name := by
  constructor
  · rintro ⟨before, assignment, rest, htext, hlength, hassignment⟩
    cases before with
    | nil => cases hlength
    | cons d before =>
        exact ⟨before, assignment, rest, (List.cons.inj htext).2, Nat.succ.inj hlength,
          hassignment⟩
  · rintro ⟨before, assignment, rest, rfl, rfl, hassignment⟩
    exact ⟨c :: before, assignment, rest, rfl, rfl, hassignment⟩

theorem not_assignedAt_nil {name : List Char} {position : Nat} :
    ¬ AssignedAt [] position name := by
  rintro ⟨before, assignment, rest, htext, -, ⟨-, -, -, -⟩⟩
  simp [nameWord] at htext

theorem le_of_mem_assignmentsFrom {first : Nat} {text : List Char} {found : Nat × List Char}
    (h : found ∈ assignmentsFrom first text) : first ≤ found.1 := by
  induction text generalizing first with
  | nil => cases h
  | cons c rest ih =>
      rw [assignmentsFrom] at h
      split at h
      · rcases List.mem_cons.mp h with rfl | hlater
        · exact Nat.le_refl first
        · exact Nat.le_of_succ_le (ih hlater)
      · exact Nat.le_of_succ_le (ih h)

theorem first_mem_assignmentsFrom {first : Nat} {text name : List Char} :
    (first, name) ∈ assignmentsFrom first text ↔ ∃ rest, assignment? text = some (name, rest) := by
  have hlater (rest : List Char) : (first, name) ∉ assignmentsFrom (first + 1) rest := fun hmem =>
    absurd (le_of_mem_assignmentsFrom hmem) (Nat.not_succ_le_self first)
  cases text with
  | nil => simp [assignmentsFrom, assignment?, Text.after?]
  | cons c rest =>
      cases hfound : assignment? (c :: rest) with
      | none => simp [assignmentsFrom_of_none hfound, hlater]
      | some found =>
          obtain ⟨other, tail⟩ := found
          simp [assignmentsFrom_of_some hfound, hlater, eq_comm]

theorem mem_assignmentsFrom (first : Nat) {position : Nat} {text name : List Char} :
    (first + position, name) ∈ assignmentsFrom first text ↔ AssignedAt text position name := by
  induction text generalizing first position with
  | nil => simp [assignmentsFrom, not_assignedAt_nil]
  | cons c rest ih =>
      cases position with
      | zero => rw [assignedAt_zero, Nat.add_zero, first_mem_assignmentsFrom]
      | succ position =>
          have hlater : (first + (position + 1), name) ∈ assignmentsFrom (first + 1) rest ↔
              AssignedAt rest position name := by
            rw [← ih (first + 1), Nat.add_assoc, Nat.add_comm 1]
          rw [assignedAt_succ, ← hlater]
          cases hfound : assignment? (c :: rest) with
          | none => rw [assignmentsFrom_of_none hfound]
          | some found =>
              obtain ⟨other, tail⟩ := found
              simp [assignmentsFrom_of_some hfound]

theorem ascending_assignmentsFrom (first : Nat) (text : List Char) :
    (assignmentsFrom first text).Pairwise fun earlier later => earlier.1 < later.1 := by
  induction text generalizing first with
  | nil => exact .nil
  | cons c rest ih =>
      rw [assignmentsFrom]
      split
      · exact .cons (fun later hmem => le_of_mem_assignmentsFrom hmem) (ih (first + 1))
      · exact ih (first + 1)

/-- Where no assignment begins in a text, all begin behind it. -/
theorem assignmentsFrom_append_of_none (first : Nat) {text rest : List Char}
    (h : ∀ before part, text = before ++ part → part ≠ [] → assignment? (part ++ rest) = none) :
    assignmentsFrom first (text ++ rest) = assignmentsFrom (first + text.length) rest := by
  induction text generalizing first with
  | nil => rfl
  | cons c text ih =>
      have hhere := h [] (c :: text) rfl (by simp)
      rw [List.cons_append] at hhere ⊢
      rw [assignmentsFrom_of_none hhere, List.length_cons, Nat.add_comm text.length,
        ← Nat.add_assoc]
      exact ih (first + 1) fun before part htext hne =>
        h (c :: before) part (by simp [htext]) hne

theorem IsAssignment.assignmentsFrom_append {name tail : List Char} {c : Char}
    (h : IsAssignment name (c :: tail)) (rest : List Char) (first : Nat) :
    assignmentsFrom first (tail ++ rest) = assignmentsFrom (first + tail.length) rest :=
  assignmentsFrom_append_of_none first fun before _ htail hne =>
    h.assignment?_eq_none (c :: before) (by simp [htail]) (by simp) hne rest

/-! ## The scan -/

theorem IsAssignment.exists_cons {name assignment : List Char}
    (h : IsAssignment name assignment) : ∃ tail, assignment = 'n' :: tail := by
  obtain ⟨lead, quote, closing, hshape, -⟩ := h.exists_shape
  exact ⟨_, hshape⟩

theorem assignedFrom_of_some {c : Char} {tail name rest : List Char}
    (h : assignment? (c :: (tail ++ rest)) = some (name, rest)) :
    assignedFrom 0 (c :: (tail ++ rest)) = name :: assignedFrom 0 rest := by
  have hlength : (tail ++ rest).length - rest.length = tail.length := by simp
  rw [assignedFrom, h]
  change name :: assignedFrom ((tail ++ rest).length - rest.length) (tail ++ rest) = _
  rw [hlength, assignedFrom_append]

/-- The scan that goes on behind each assignment finds all assignments of the text. -/
theorem assignedFrom_eq_map (text : List Char) (first : Nat) :
    assignedFrom 0 text = (assignmentsFrom first text).map Prod.snd := by
  induction hsize : text.length using Nat.strong_induction_on generalizing text first with
  | _ size ih =>
      cases text with
      | nil => rfl
      | cons c rest =>
          cases hfound : assignment? (c :: rest) with
          | none =>
              rw [assignmentsFrom_of_none hfound, assignedFrom, hfound]
              exact ih rest.length (by simp [← hsize]) rest (first + 1) rfl
          | some found =>
              obtain ⟨name, behind⟩ := found
              obtain ⟨assignment, hassignment, htext⟩ := assignment?_eq_some_iff.mp hfound
              obtain ⟨tail, rfl⟩ := hassignment.exists_cons
              rw [List.cons_append] at htext
              obtain ⟨rfl, rfl⟩ := List.cons.inj htext
              have hbehind : behind.length < size := by
                rw [← hsize, List.length_cons, List.length_append]
                omega
              rw [assignedFrom_of_some hfound, assignmentsFrom_of_some hfound, List.map_cons,
                hassignment.assignmentsFrom_append]
              exact congrArg (name :: ·) (ih behind.length hbehind behind _ rfl)

/-- The assignments of a text in the order of their positions: each one stands in the list. -/
structure ListsAssignments (text : List Char) (found : List (Nat × List Char)) : Prop where
  ascending : found.Pairwise fun earlier later => earlier.1 < later.1
  mem_iff (position : Nat) (name : List Char) :
    (position, name) ∈ found ↔ AssignedAt text position name

theorem listsAssignments (text : List Char) : ListsAssignments text (assignmentsFrom 0 text) where
  ascending := ascending_assignmentsFrom 0 text
  mem_iff position name := by
    rw [← mem_assignmentsFrom 0, Nat.zero_add]

/-! ## Text at the end -/

theorem assignment?_append_of_some {text name rest : List Char}
    (h : assignment? text = some (name, rest)) (more : List Char) :
    assignment? (text ++ more) = some (name, rest ++ more) := by
  obtain ⟨assignment, hassignment, rfl⟩ := assignment?_eq_some_iff.mp h
  exact assignment?_eq_some_iff.mpr ⟨assignment, hassignment, List.append_assoc _ _ _⟩

/-- An assignment that goes on behind the end of a text leaves no room for one in the text. -/
theorem assignmentsFrom_of_crossing {c : Char} {text more name rest : List Char}
    (hnone : assignment? (c :: text) = none)
    (hsome : assignment? (c :: text ++ more) = some (name, rest)) (first : Nat) :
    assignmentsFrom first text = [] := by
  obtain ⟨assignment, hassignment, htext⟩ := assignment?_eq_some_iff.mp hsome
  rcases List.append_eq_append_iff.mp htext with ⟨missing, hcross, -⟩ | ⟨after, hwithin, -⟩
  · have hnowhere (before part : List Char) (hpart : text = before ++ part) (hne : part ≠ []) :
        assignment? (part ++ []) = none := by
      rw [List.append_nil, Option.eq_none_iff_forall_ne_some]
      rintro ⟨other, behind⟩ hfound
      have hlonger := assignment?_append_of_some hfound (missing ++ rest)
      rw [← List.append_assoc, hassignment.assignment?_eq_none (c :: before)
        (by simp [hcross, hpart]) (by simp) (by simp [hne])] at hlonger
      cases hlonger
    have hpassed := assignmentsFrom_append_of_none first hnowhere
    rwa [List.append_nil] at hpassed
  · rw [assignment?_eq_some_iff.mpr ⟨assignment, hassignment, hwithin⟩] at hnone
    cases hnone

theorem assignmentsFrom_isPrefix (text more : List Char) (first : Nat) :
    assignmentsFrom first text <+: assignmentsFrom first (text ++ more) := by
  induction text generalizing first with
  | nil => exact List.nil_prefix
  | cons c text ih =>
      cases hfound : assignment? (c :: text) with
      | some found =>
          obtain ⟨name, rest⟩ := found
          have hmore := assignment?_append_of_some hfound more
          rw [List.cons_append] at hmore ⊢
          rw [assignmentsFrom_of_some hfound, assignmentsFrom_of_some hmore]
          exact (List.prefix_cons_inj _).mpr (ih (first + 1))
      | none =>
          rw [assignmentsFrom_of_none hfound, List.cons_append]
          cases hmore : assignment? (c :: (text ++ more)) with
          | none =>
              rw [assignmentsFrom_of_none hmore]
              exact ih (first + 1)
          | some found =>
              rw [assignmentsFrom_of_crossing hfound hmore]
              exact List.nil_prefix

/-! ## Each name once -/

theorem mem_distinctFrom {seen items : List String} {name : String} :
    name ∈ distinctFrom seen items ↔ name ∈ items ∧ name ∉ seen := by
  induction items generalizing seen with
  | nil => simp [distinctFrom]
  | cons item rest ih =>
      unfold distinctFrom
      split
      · next hseen =>
        have hitem : item ∈ seen := by simpa using hseen
        rw [ih]
        constructor
        · exact fun h => ⟨List.mem_cons_of_mem _ h.1, h.2⟩
        · rintro ⟨hmem, hnew⟩
          rcases List.mem_cons.mp hmem with rfl | hmem
          · exact absurd hitem hnew
          · exact ⟨hmem, hnew⟩
      · next hseen =>
        have hitem : item ∉ seen := by simpa using hseen
        rw [List.mem_cons, ih, List.mem_cons, List.mem_cons]
        constructor
        · rintro (rfl | ⟨hmem, hnew⟩)
          · exact ⟨.inl rfl, hitem⟩
          · exact ⟨.inr hmem, fun h => hnew (.inr h)⟩
        · rintro ⟨hmem, hnew⟩
          by_cases heq : name = item
          · exact .inl heq
          · exact .inr ⟨hmem.resolve_left heq, fun h => h.elim heq hnew⟩

theorem distinctFrom_isPrefix (seen items more : List String) :
    distinctFrom seen items <+: distinctFrom seen (items ++ more) := by
  induction items generalizing seen with
  | nil => exact List.nil_prefix
  | cons item rest ih =>
      rw [List.cons_append]
      unfold distinctFrom
      split
      · exact ih seen
      · exact (List.prefix_cons_inj _).mpr (ih (item :: seen))

/-- Of two names the later one has no occurrence up to some occurrence of the earlier one. -/
theorem pairwise_distinctFrom (seen items : List String) :
    (distinctFrom seen items).Pairwise fun earlier later =>
      ∃ before after, items = before ++ earlier :: after ∧ later ∉ before ∧ later ≠ earlier := by
  induction items generalizing seen with
  | nil => exact .nil
  | cons item rest ih =>
      have hextend {kept : List String} (hpairs : (distinctFrom kept rest).Pairwise
          fun earlier later => ∃ before after, rest = before ++ earlier :: after ∧
            later ∉ before ∧ later ≠ earlier) (hitem : item ∈ kept) :
          (distinctFrom kept rest).Pairwise fun earlier later => ∃ before after,
            item :: rest = before ++ earlier :: after ∧ later ∉ before ∧ later ≠ earlier := by
        refine hpairs.imp_of_mem fun {earlier later} _ hlater => ?_
        rintro ⟨before, after, rfl, hbefore, hne⟩
        have hother : later ≠ item := fun heq => (mem_distinctFrom.mp hlater).2 (heq ▸ hitem)
        exact ⟨item :: before, after, rfl, by simp [hother, hbefore], hne⟩
      unfold distinctFrom
      split
      · next hseen => exact hextend (ih seen) (by simpa using hseen)
      · refine .cons (fun later hlater => ⟨[], rest, rfl, by simp, ?_⟩)
          (hextend (ih (item :: seen)) (by simp))
        exact fun heq => (mem_distinctFrom.mp hlater).2 (by simp [heq])

theorem names_eq (text : String) : names text =
    distinctFrom [] ((assignmentsFrom 0 text.toList).map fun found => String.ofList found.2) := by
  rw [names, assignedFrom_eq_map text.toList 0, List.map_map]
  rfl

theorem mem_names {text name : String} :
    name ∈ names text ↔ ∃ position, AssignedAt text.toList position name.toList := by
  rw [names_eq, mem_distinctFrom]
  constructor
  · rintro ⟨hmem, -⟩
    obtain ⟨⟨position, found⟩, hfound, rfl⟩ := List.mem_map.mp hmem
    rw [String.toList_ofList]
    exact ⟨position, ((listsAssignments text.toList).mem_iff position found).mp hfound⟩
  · rintro ⟨position, hassigned⟩
    have hfound := ((listsAssignments text.toList).mem_iff position name.toList).mpr hassigned
    exact ⟨List.mem_map.mpr ⟨_, hfound, String.ofList_toList⟩, by simp⟩

/-- Names stand in the order of their first assignments. -/
theorem pairwise_names (text : String) :
    (names text).Pairwise fun earlier later =>
      ∃ position, AssignedAt text.toList position earlier.toList ∧
        ∀ other, AssignedAt text.toList other later.toList → position < other := by
  have hlists := listsAssignments text.toList
  rw [names_eq]
  refine (pairwise_distinctFrom _ _).imp fun {earlier later} => ?_
  rintro ⟨before, after, hsplit, hbefore, hne⟩
  obtain ⟨passed, left, hfound, rfl, hleft⟩ := List.map_eq_append_iff.mp hsplit
  obtain ⟨⟨position, name⟩, behind, rfl, rfl, rfl⟩ := List.map_eq_cons_iff.mp hleft
  have hascending := hlists.ascending
  rw [hfound] at hascending
  refine ⟨position, ?_, fun other hother => ?_⟩
  · rw [String.toList_ofList, ← hlists.mem_iff, hfound]
    simp
  · have hmem := (hlists.mem_iff other later.toList).mpr hother
    rw [hfound] at hmem
    have hlater : String.ofList later.toList = later := String.ofList_toList
    rcases List.mem_append.mp hmem with hpassed | hmem
    · exact absurd (List.mem_map.mpr ⟨_, hpassed, hlater⟩) hbefore
    · rcases List.mem_cons.mp hmem with heq | hbehind
      · cases heq
        exact absurd hlater.symm hne
      · exact (List.pairwise_cons.mp (List.pairwise_append.mp hascending).2.1).1 _ hbehind

/-- The names of a text are exactly the assigned ones, each once and in the order of their first
assignments; the scan passes over no assignment, and text at the end takes no name away. -/
theorem names_exact (text : String) :
    (∀ name, name ∈ names text ↔ ∃ position, AssignedAt text.toList position name.toList) ∧
      (names text).Nodup ∧
      ((names text).Pairwise fun earlier later =>
        ∃ position, AssignedAt text.toList position earlier.toList ∧
          ∀ other, AssignedAt text.toList other later.toList → position < other) ∧
      (∃ found, ListsAssignments text.toList found ∧
        assignedFrom 0 text.toList = found.map Prod.snd) ∧
      ∀ more, names text <+: names (text ++ more) := by
  refine ⟨fun name => mem_names, (nodup_distinctFrom _ _).1, pairwise_names text,
    ⟨_, listsAssignments text.toList, assignedFrom_eq_map text.toList 0⟩, fun more => ?_⟩
  obtain ⟨others, hothers⟩ := assignmentsFrom_isPrefix text.toList more.toList 0
  rw [names_eq, names_eq, String.toList_append, ← hothers, List.map_append]
  exact distinctFrom_isPrefix [] _ _

example : names "surname='name'name = \x7b \"a\" \x7d name=\"name\"" = ["name", "a"] := by decide

end FormCompiler.Extraction
