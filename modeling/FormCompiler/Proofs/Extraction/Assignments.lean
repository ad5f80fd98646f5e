import FormCompiler.Extraction.NameScan
import FormCompiler.Proofs.Source.Written

/-!
# What a piece of source assigns

The principal notion is `Assigns names text`: whatever follows the text, a scan finds the names in
it and then goes on behind it.  A text assigns nothing when it is quiet, that is, each of its equals
signs follows no word `name` or precedes no identifier, and when it is shut, so that no word `name`
at its end waits for a sign.
-/

namespace FormCompiler.Extraction

open Source

/-! ## Assignments -/

def nameWord : List Char := ['n', 'a', 'm', 'e']

/-- The identifier after the sign of an assignment, and what follows it. -/
def assignedValue? (text : List Char) : Option (List Char × List Char) :=
  match quotedName? '"' (skipBlanks text) with
  | some found => some found
  | none =>
      match quotedName? '\'' (skipBlanks text) with
      | some found => some found
      | none => bracedName? (skipBlanks text)

/-- An assignment is the word, blanks, the sign and a value. -/
theorem exists_of_assignment? {text : List Char} {found : List Char × List Char}
    (h : assignment? text = some found) :
    ∃ blanks value, text = nameWord ++ (blanks ++ '=' :: value) ∧
      (∀ c ∈ blanks, Text.isBlank c = true) ∧ assignedValue? value = some found := by
  unfold assignment? at h
  simp only [Option.bind_eq_bind, Option.bind_eq_some_iff] at h
  obtain ⟨afterWord, hword, value, hsign, hvalue⟩ := h
  have htext := Text.after?_eq_some_iff.mp hword
  have hafter := Text.after?_eq_some_iff.mp hsign
  refine ⟨afterWord.takeWhile Text.isBlank, value, ?_, ?_, hvalue⟩
  · have hsplit : afterWord = afterWord.takeWhile Text.isBlank ++ '=' :: value := by
      rw [← List.singleton_append, ← hafter]
      exact List.takeWhile_append_dropWhile.symm
    rw [htext, ← hsplit]
    rfl
  · exact fun c hmem => List.all_eq_true.mp List.all_takeWhile c hmem

/-- Behind the word and the sign an assignment is its value. -/
theorem assignment?_nameWord_append (value : List Char) :
    assignment? (nameWord ++ '=' :: value) = assignedValue? value := rfl

/-! ## Shut texts -/

/-- A character that neither belongs to the word of an assignment nor is a blank behind it. -/
def stops (c : Char) : Bool := !(Text.isBlank c || nameWord.contains c)

/-- No word of an assignment reaches the end of the text. -/
def Shut (text : List Char) : Prop :=
  ∃ before mark rest, text = before ++ mark :: rest ∧ stops mark = true ∧ 'n' ∉ rest

theorem Shut.prepend {text : List Char} (h : Shut text) (before : List Char) :
    Shut (before ++ text) := by
  obtain ⟨first, mark, rest, rfl, hmark, hrest⟩ := h
  exact ⟨before ++ first, mark, rest, by simp, hmark, hrest⟩

theorem Shut.append {text : List Char} (h : Shut text) {rest : List Char} (hrest : 'n' ∉ rest) :
    Shut (text ++ rest) := by
  obtain ⟨before, mark, first, rfl, hmark, hfirst⟩ := h
  exact ⟨before, mark, first ++ rest, by simp, hmark, by simp [hfirst, hrest]⟩

theorem shut_of_stops {c : Char} (h : stops c = true) (before : List Char) :
    Shut (before ++ [c]) := ⟨before, c, [], rfl, h, by simp⟩

/-- No part of a word and its blanks ends a shut text. -/
theorem Shut.not_word {before word more blanks : List Char} (h : Shut (before ++ word))
    (hne : word ≠ []) (hword : nameWord ++ blanks = word ++ more)
    (hblanks : ∀ c ∈ blanks, Text.isBlank c = true) : False := by
  obtain ⟨first, mark, rest, htext, hmark, hrest⟩ := h
  have hnotin : mark ∉ word := by
    intro hmem
    have hwhere : mark ∈ nameWord ++ blanks := by
      rw [hword]
      exact List.mem_append_left _ hmem
    rcases List.mem_append.mp hwhere with hname | hblank
    · simp [stops, hname] at hmark
    · simp [stops, hblanks mark hblank] at hmark
  rcases List.append_eq_append_iff.mp htext with ⟨part, -, hpart⟩ | ⟨part, hbefore, hpart⟩
  · exact hnotin (by simp [hpart])
  · cases part with
    | nil =>
        have hword : word = mark :: rest := hpart.symm
        exact hnotin (by simp [hword])
    | cons d part =>
        simp only [List.cons_append, List.cons.injEq] at hpart
        cases word with
        | nil => exact absurd rfl hne
        | cons c word =>
            simp only [nameWord, List.cons_append, List.cons.injEq] at hword
            rw [← hword.1] at hpart
            exact hrest (by simp [hpart.2])

/-! ## Quiet texts -/

/-- No identifier follows a sign, whatever comes after the text. -/
def Refuses (text : List Char) : Prop := ∀ rest, assignedValue? (text ++ rest) = none

/-- No sign in the text belongs to an assignment. -/
def Quiet (text : List Char) : Prop :=
  ∀ before value, text = before ++ '=' :: value → Shut before ∨ Refuses value

theorem Refuses.append {text : List Char} (h : Refuses text) (rest : List Char) :
    Refuses (text ++ rest) := by
  intro more
  rw [List.append_assoc]
  exact h (rest ++ more)

theorem Quiet.append {first second : List Char} (hfirst : Quiet first) (hsecond : Quiet second) :
    Quiet (first ++ second) := by
  intro before value htext
  rcases List.append_eq_append_iff.mp htext with ⟨part, hbefore, hpart⟩ | ⟨part, hpart, hvalue⟩
  · rcases hsecond part value hpart with hshut | hrefuses
    · rw [hbefore]
      exact Or.inl (hshut.prepend first)
    · exact Or.inr hrefuses
  · cases part with
    | nil =>
        rcases hsecond [] value (by simpa using hvalue.symm) with hshut | hrefuses
        · obtain ⟨_, _, _, hnil, _⟩ := hshut
          simp at hnil
        · exact Or.inr hrefuses
    | cons c part =>
        simp only [List.cons_append, List.cons.injEq] at hvalue
        obtain ⟨rfl, rfl⟩ := hvalue
        exact (hfirst before part hpart).imp_right fun hrefuses => hrefuses.append second

theorem quiet_of_not_mem {text : List Char} (h : '=' ∉ text) : Quiet text := by
  intro before value htext
  exact absurd (by simp [htext]) h

/-- A sign before a refused value is quiet. -/
theorem quiet_sign {value : List Char} (hrefuses : Refuses value) (hquiet : Quiet value) :
    Quiet ('=' :: value) := by
  intro before rest htext
  cases before with
  | nil =>
      simp only [List.nil_append, List.cons.injEq, true_and] at htext
      rw [← htext]
      exact Or.inr hrefuses
  | cons c before =>
      simp only [List.cons_append, List.cons.injEq] at htext
      exact (hquiet before rest htext.2).imp_left fun hshut => hshut.prepend [c]

/-! ## Scans -/

/-- Whatever follows the text, a scan finds the names in it and goes on behind it. -/
def Assigns (names : List (List Char)) (text : List Char) : Prop :=
  ∀ rest, assignedFrom 0 (text ++ rest) = names ++ assignedFrom 0 rest

theorem Assigns.append {names others : List (List Char)} {first second : List Char}
    (hfirst : Assigns names first) (hsecond : Assigns others second) :
    Assigns (names ++ others) (first ++ second) := by
  intro rest
  rw [List.append_assoc, hfirst, hsecond, List.append_assoc]

/-- A scan passes over a text in which no assignment begins. -/
theorem assignedFrom_append_of_none {text rest : List Char}
    (h : ∀ before part, text = before ++ part → part ≠ [] → assignment? (part ++ rest) = none) :
    assignedFrom 0 (text ++ rest) = assignedFrom 0 rest := by
  induction text with
  | nil => rfl
  | cons c text ih =>
      have hhere := h [] (c :: text) rfl (by simp)
      rw [List.cons_append] at hhere ⊢
      rw [assignedFrom, hhere]
      exact ih fun before part htext hne => h (c :: before) part (by simp [htext]) hne

/-- A text in which no word begins assigns nothing. -/
theorem assigns_nil_of_not_mem {text : List Char} (h : 'n' ∉ text) : Assigns [] text := by
  intro rest
  refine assignedFrom_append_of_none fun before part htext hne => ?_
  rw [Option.eq_none_iff_forall_ne_some]
  intro found hfound
  obtain ⟨blanks, value, hshape, -, -⟩ := exists_of_assignment? hfound
  cases part with
  | nil => exact hne rfl
  | cons c part =>
      simp only [nameWord, List.cons_append, List.cons.injEq] at hshape
      exact h (by simp [htext, hshape.1])

/-- A quiet text that is shut assigns nothing. -/
theorem assigns_nil_of_quiet {text : List Char} (hquiet : Quiet text) (hshut : Shut text) :
    Assigns [] text := by
  intro rest
  refine assignedFrom_append_of_none fun before part htext hne => ?_
  rw [Option.eq_none_iff_forall_ne_some]
  intro found hfound
  obtain ⟨blanks, value, hshape, hblanks, hvalue⟩ := exists_of_assignment? hfound
  rw [htext] at hshut
  rw [← List.append_assoc] at hshape
  rcases List.append_eq_append_iff.mp hshape with ⟨more, hword, -⟩ | ⟨more, hpart, hmore⟩
  · exact hshut.not_word hne hword hblanks
  · cases more with
    | nil =>
        have hword : nameWord ++ blanks = part ++ [] := by simpa using hpart.symm
        exact hshut.not_word hne hword hblanks
    | cons c more =>
        simp only [List.cons_append, List.cons.injEq] at hmore
        obtain ⟨rfl, rfl⟩ := hmore
        have hsplit : text = (before ++ (nameWord ++ blanks)) ++ '=' :: more := by
          rw [htext, hpart, ← List.append_assoc]
        rcases hquiet _ more hsplit with hbefore | hrefuses
        · exact hbefore.not_word (by simp [nameWord]) (List.append_nil _).symm hblanks
        · rw [hrefuses rest] at hvalue
          cases hvalue

/-! ## Fixed texts -/

/-- A character with which no value of an assignment begins. -/
def beginsNoValue (c : Char) : Bool :=
  !(Text.isBlank c || c = '"' || c = '\'' || c = '\x7b')

theorem refuses_of_begins {c : Char} (h : beginsNoValue c = true) (text : List Char) :
    Refuses (c :: text) := by
  intro rest
  simp only [beginsNoValue, Bool.not_eq_true', Bool.or_eq_false_iff, decide_eq_false_iff_not] at h
  obtain ⟨⟨⟨hblank, hdouble⟩, hsingle⟩, hbrace⟩ := h
  simp [assignedValue?, skipBlanks, quotedName?, bracedName?, Text.after?, hblank, hdouble,
    hsingle, Ne.symm hbrace]

/-- Whether a text is shut after one more character. -/
def shutAfter (shut : Bool) (c : Char) : Bool := stops c || (shut && c ≠ 'n')

theorem shut_of_shutAfter {shut : Bool} {c : Char} {before : List Char}
    (hbefore : shut = true → Shut before) (h : shutAfter shut c = true) :
    Shut (before ++ [c]) := by
  simp only [shutAfter, Bool.or_eq_true, Bool.and_eq_true, decide_eq_true_eq] at h
  rcases h with hstops | ⟨hshut, hne⟩
  · exact shut_of_stops hstops before
  · exact (hbefore hshut).append (by simpa using Ne.symm hne)

theorem shut_of_foldl {text : List Char} {shut : Bool} (before : List Char)
    (hbefore : shut = true → Shut before) (h : text.foldl shutAfter shut = true) :
    Shut (before ++ text) := by
  induction text generalizing before shut with
  | nil => simpa using hbefore h
  | cons c text ih =>
      have hrest := ih (before ++ [c]) (fun hshut => shut_of_shutAfter hbefore hshut) h
      simpa using hrest

/-- Whether no sign of a text can belong to an assignment, where `shut` says whether the text
before it is shut. -/
def isQuietFrom : (shut : Bool) → List Char → Bool
  | _, [] => true
  | shut, c :: rest =>
      (c ≠ '=' || shut || (rest.head?.map beginsNoValue).getD false) &&
        isQuietFrom (shutAfter shut c) rest

theorem quiet_of_isQuietFrom {text : List Char} (h : isQuietFrom false text = true) :
    Quiet text := by
  suffices hfrom : ∀ {shut : Bool} {first : List Char}, (shut = true → Shut first) →
      isQuietFrom shut text = true → ∀ before value, text = before ++ '=' :: value →
        Shut (first ++ before) ∨ Refuses value by
    exact @hfrom false [] (by simp) h
  clear h
  induction text with
  | nil => simp
  | cons c text ih =>
      intro shut first hfirst h before value htext
      simp only [isQuietFrom, Bool.and_eq_true] at h
      cases before with
      | nil =>
          simp only [List.nil_append, List.cons.injEq] at htext
          obtain ⟨rfl, rfl⟩ := htext
          cases shut with
          | true => exact Or.inl (by simpa using hfirst rfl)
          | false =>
              cases text with
              | nil => simp at h
              | cons d text => exact Or.inr (refuses_of_begins (by simpa using h.1) text)
      | cons d before =>
          simp only [List.cons_append, List.cons.injEq] at htext
          obtain ⟨rfl, rfl⟩ := htext
          have hrest := ih (fun hshut => shut_of_shutAfter hfirst hshut) h.2 before value rfl
          simpa using hrest

end FormCompiler.Extraction
