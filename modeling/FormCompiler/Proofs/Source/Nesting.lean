import FormCompiler.Proofs.Source.Balance

/-!
# The language of balanced texts

A balanced text is a sequence of plain characters, of complete literals, and of groups between
matching delimiters around such a sequence.  The principal result is that the walk finds no
imbalance in exactly these texts.  A walk that ends well leaves behind what its stack demands of
the text: one balanced stretch before each closer that is awaited, and one at the end.
-/

namespace FormCompiler.Source

open Balance

def brackets : List (Char × Char) := [('(', ')'), ('[', ']'), ('\x7b', '\x7d')]

def quotes : List Char := ['"', '\'', '\x60']

/-- What can stand between two quotes: a backslash hides the character behind it, and a line ends
between backticks only. -/
inductive Quoted (quote : Char) : List Char → Prop where
  | nil : Quoted quote []
  | hidden (c : Char) {rest : List Char} (hrest : Quoted quote rest) :
      Quoted quote ('\\' :: c :: rest)
  | plain {c : Char} {rest : List Char} (hback : c ≠ '\\') (hquote : c ≠ quote)
      (hline : c = '\n' → quote = '\x60') (hrest : Quoted quote rest) : Quoted quote (c :: rest)

/-- The balanced texts. -/
inductive Nested : List Char → Prop where
  | nil : Nested []
  | plain {c : Char} {rest : List Char} (hc : c ∉ delimiters) (hrest : Nested rest) :
      Nested (c :: rest)
  | literal {quote : Char} {body rest : List Char} (hquote : quote ∈ quotes)
      (hbody : Quoted quote body) (hrest : Nested rest) : Nested (quote :: (body ++ quote :: rest))
  | group {opener closer : Char} {inner rest : List Char} (hpair : (opener, closer) ∈ brackets)
      (hinner : Nested inner) (hrest : Nested rest) : Nested (opener :: (inner ++ closer :: rest))

theorem mem_quotes_iff (c : Char) : c ∈ quotes ↔ isQuote c = true := by
  simp [quotes, isQuote, or_assoc]

theorem mem_brackets_iff (opener closer : Char) :
    (opener, closer) ∈ brackets ↔ closerOf? opener = some closer := by
  constructor
  · intro h
    simp only [brackets, List.mem_cons, Prod.mk.injEq, List.not_mem_nil, or_false] at h
    rcases h with ⟨rfl, rfl⟩ | ⟨rfl, rfl⟩ | ⟨rfl, rfl⟩ <;> rfl
  · intro h
    unfold closerOf? at h
    split at h
    · cases h; decide
    · cases h; decide
    · cases h; decide
    · cases h

/-! ## Balanced texts are walked through -/

/-- A walk in a literal does not leave it between the quotes. -/
theorem Quoted.run_eq {quote : Char} {body : List Char} (h : Quoted quote body)
    (awaited : List Char) :
    run ⟨.literal quote, awaited⟩ body = some ⟨.literal quote, awaited⟩ := by
  induction h with
  | nil => rfl
  | hidden c _ ih => exact ih
  | @plain c rest hback hquote hline _ ih =>
      have hfeed : ¬(decide (c = '\n') && decide (quote ≠ '\x60')) = true := by
        simpa using hline
      have hstep : step ⟨.literal quote, awaited⟩ c = some ⟨.literal quote, awaited⟩ := by
        simp only [step, literalStep, if_neg hback, if_neg hquote, if_neg hfeed]
      rw [run, hstep]
      exact ih

theorem Quoted.neutral {quote : Char} (hquote : quote ∈ quotes) {body : List Char}
    (h : Quoted quote body) : Neutral (quote :: (body ++ [quote])) := by
  intro awaited
  have hopens : step ⟨.code, awaited⟩ quote = some ⟨.literal quote, awaited⟩ :=
    if_pos ((mem_quotes_iff quote).mp hquote)
  have hcloses : step ⟨.literal quote, awaited⟩ quote = some ⟨.code, awaited⟩ := by
    simp only [quotes, List.mem_cons, List.not_mem_nil, or_false] at hquote
    rcases hquote with rfl | rfl | rfl <;> rfl
  unfold Moves
  rw [run, hopens, Option.bind_some, run_append, h.run_eq, Option.bind_some, run, hcloses]
  rfl

theorem moves_brackets {opener closer : Char} (h : (opener, closer) ∈ brackets)
    (awaited : List Char) :
    Moves awaited (closer :: awaited) [opener] ∧ Moves (closer :: awaited) awaited [closer] := by
  simp only [brackets, List.mem_cons, Prod.mk.injEq, List.not_mem_nil, or_false] at h
  rcases h with ⟨rfl, rfl⟩ | ⟨rfl, rfl⟩ | ⟨rfl, rfl⟩ <;> exact ⟨rfl, rfl⟩

/-- A balanced text closes all that it opens. -/
theorem Nested.neutral {text : List Char} (h : Nested text) : Neutral text := by
  induction h with
  | nil => exact fun _ => rfl
  | @plain c rest hc _ ih =>
      have hfirst : Neutral [c] := neutral_of_not_mem (List.forall_mem_singleton.mpr hc)
      exact hfirst.append ih
  | literal hquote hbody _ ih =>
      have hliteral := (hbody.neutral hquote).append ih
      simpa using hliteral
  | group hpair _ _ hinner hrest =>
      intro awaited
      obtain ⟨hopens, hcloses⟩ := moves_brackets hpair awaited
      have hgroup := ((hopens.append (hinner _)).append hcloses).append (hrest awaited)
      simpa using hgroup

/-! ## A walk leaves balanced texts behind -/

/-- What the awaited closers demand of a text: a balanced stretch before each of them, and one
behind the last. -/
inductive Unwinds : List Char → List Char → Prop where
  | last {text : List Char} (htext : Nested text) : Unwinds [] text
  | close {closer : Char} {outer inner rest : List Char} (hinner : Nested inner)
      (hrest : Unwinds outer rest) : Unwinds (closer :: outer) (inner ++ closer :: rest)

namespace Unwinds

variable {awaited text : List Char}

/-- A piece that can stand before every balanced text can stand before a demanded one. -/
theorem prepend (piece : List Char)
    (hpiece : ∀ {rest}, Nested rest → Nested (piece ++ rest)) (h : Unwinds awaited text) :
    Unwinds awaited (piece ++ text) := by
  cases h with
  | last htext => exact .last (hpiece htext)
  | close hinner hrest =>
      rw [← List.append_assoc]
      exact .close (hpiece hinner) hrest

/-- An opener before the stretch that its closer ends begins a group. -/
theorem opened {opener closer : Char} (hpair : (opener, closer) ∈ brackets)
    (h : Unwinds (closer :: awaited) text) : Unwinds awaited (opener :: text) := by
  cases h with
  | @close _ _ inner rest hinner hrest =>
      have hgroup : Unwinds awaited ((opener :: (inner ++ [closer])) ++ rest) :=
        hrest.prepend _ fun hnested => by simpa using Nested.group hpair hinner hnested
      simpa using hgroup

end Unwinds

/-- A walk that leaves a literal again has met the quote that ends it. -/
theorem exists_quoted_of_run {quote : Char} {awaited last : List Char} (text : List Char) :
    (run ⟨.literal quote, awaited⟩ text = some ⟨.code, last⟩ →
      ∃ body rest, text = body ++ quote :: rest ∧ Quoted quote body ∧
        run ⟨.code, awaited⟩ rest = some ⟨.code, last⟩) ∧
    (run ⟨.escaped quote, awaited⟩ text = some ⟨.code, last⟩ →
      ∃ c body rest, text = c :: (body ++ quote :: rest) ∧ Quoted quote body ∧
        run ⟨.code, awaited⟩ rest = some ⟨.code, last⟩) := by
  induction text with
  | nil => simp [run]
  | cons c text ih =>
      obtain ⟨hliteral, hescaped⟩ := ih
      constructor
      · intro h
        simp only [run, step, literalStep] at h
        split at h
        · next hback =>
          obtain ⟨d, body, rest, rfl, hbody, hrest⟩ := hescaped h
          exact ⟨'\\' :: d :: body, rest, by rw [hback]; rfl, .hidden d hbody, hrest⟩
        · next hback =>
          split at h
          · next hquote => exact ⟨[], text, by rw [hquote]; rfl, .nil, h⟩
          · next hquote =>
            split at h
            · cases h
            · next hfeed =>
              obtain ⟨body, rest, rfl, hbody, hrest⟩ := hliteral h
              have hline : c = '\n' → quote = '\x60' := by simpa using hfeed
              exact ⟨c :: body, rest, rfl, .plain hback hquote hline hbody, hrest⟩
      · intro h
        obtain ⟨body, rest, rfl, hbody, hrest⟩ := hliteral h
        exact ⟨c, body, rest, rfl, hbody, hrest⟩

/-- What a walk in code can make of a character. -/
theorem codeStep_cases {awaited : List Char} {c : Char} {next : State}
    (h : codeStep awaited c = some next) :
    (c ∈ quotes ∧ next = ⟨.literal c, awaited⟩) ∨
      (∃ closer, (c, closer) ∈ brackets ∧ next = ⟨.code, closer :: awaited⟩) ∨
      (∃ outer, awaited = c :: outer ∧ next = ⟨.code, outer⟩) ∨
      (c ∉ delimiters ∧ next = ⟨.code, awaited⟩) := by
  unfold codeStep at h
  split at h
  · next hquote => exact Or.inl ⟨(mem_quotes_iff c).mpr hquote, (Option.some.inj h).symm⟩
  · next hquote =>
    split at h
    · next closer hcloser =>
      exact Or.inr (Or.inl ⟨closer, (mem_brackets_iff c closer).mpr hcloser,
        (Option.some.inj h).symm⟩)
    · next hopens =>
      split at h
      · split at h
        · cases h
        · next closer outer =>
          split at h
          · next hcloser =>
            exact Or.inr (Or.inr (Or.inl ⟨outer, by rw [hcloser], (Option.some.inj h).symm⟩))
          · cases h
      · next hcloser =>
        have hc : c ∉ delimiters := by
          intro hmem
          simp only [delimiters, List.mem_cons, List.not_mem_nil, or_false] at hmem
          rcases hmem with rfl | rfl | rfl | rfl | rfl | rfl | rfl | rfl | rfl
          all_goals simp_all [isQuote, closerOf?, isCloser]
        exact Or.inr (Or.inr (Or.inr ⟨hc, (Option.some.inj h).symm⟩))

/-- A walk that ends well leaves what its stack demanded.  The induction is on the length of the
text, since a literal is passed as a whole. -/
theorem unwinds_of_run {text awaited : List Char}
    (h : run ⟨.code, awaited⟩ text = some ⟨.code, []⟩) : Unwinds awaited text := by
  induction hlength : text.length using Nat.strong_induction_on generalizing text awaited with
  | _ n ih =>
    cases text with
    | nil =>
        cases h
        exact .last .nil
    | cons c text =>
        subst hlength
        have htext : ∀ {awaited : List Char}, run ⟨.code, awaited⟩ text = some ⟨.code, []⟩ →
            Unwinds awaited text := fun hrun => ih _ (Nat.lt_succ_self _) hrun rfl
        obtain ⟨next, hstep, hrun⟩ := Option.bind_eq_some_iff.mp h
        rcases codeStep_cases hstep with
          ⟨hquote, rfl⟩ | ⟨closer, hpair, rfl⟩ | ⟨outer, rfl, rfl⟩ | ⟨hc, rfl⟩
        · obtain ⟨body, rest, rfl, hbody, hrest⟩ := (exists_quoted_of_run text).1 hrun
          have hshort : rest.length < (c :: (body ++ c :: rest)).length := by simp; omega
          have hpiece : Unwinds awaited ((c :: (body ++ [c])) ++ rest) :=
            (ih _ hshort hrest rfl).prepend _ fun hnested => by
              simpa using Nested.literal hquote hbody hnested
          simpa using hpiece
        · exact (htext hrun).opened hpair
        · exact .close .nil (htext hrun)
        · exact (htext hrun).prepend [c] (.plain hc)

/-! ## The language -/

/-- No imbalance is found exactly in the balanced texts. -/
theorem imbalance?_eq_none_iff (source : String) :
    imbalance? source = none ↔ Nested source.toList := by
  unfold imbalance?
  rw [walk_eq_none_iff]
  constructor
  · intro h
    cases unwinds_of_run h with
    | last htext => exact htext
  · exact fun h => h.neutral []

end FormCompiler.Source
