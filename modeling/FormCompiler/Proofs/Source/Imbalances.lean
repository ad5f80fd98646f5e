import FormCompiler.Proofs.Source.Nesting
import FormCompiler.Proofs.Text.Lines

/-!
# Where an imbalance is found

An imbalance names a place by its line and its column.  The principal result is that the character
that shows the imbalance stands there, and that the text before it, or behind it, is as the
imbalance says.  The invariant of a walk is how the text that it passed led to its stack: every
open delimiter stands at its place, and all that was opened behind it is closed.
-/

namespace FormCompiler.Source

open Balance

/-! ## Places -/

/-- The character in a column of a line; lines and columns count from one. -/
def charAt? (text : List Char) : Position → Option Char
  | ⟨line + 1, column + 1⟩ => (Text.pieces '\n' text)[line]?.bind fun piece => piece[column]?
  | _ => none

def placeBehind (before : List Char) : Position :=
  ⟨before.count '\n' + 1, (before.rtakeWhile (· ≠ '\n')).length + 1⟩

/-- The place of a walk that passed a text. -/
def placeAfter (passed : List Char) : Position :=
  passed.foldl (fun place c => place.after c) .start

theorem placeAfter_concat (passed : List Char) (c : Char) :
    placeAfter (passed ++ [c]) = (placeAfter passed).after c := by
  simp [placeAfter, List.foldl_append]

theorem placeAfter_eq (passed : List Char) : placeAfter passed =
    ⟨passed.count '\n' + 1, (passed.rtakeWhile (· ≠ '\n')).length⟩ := by
  induction passed using List.reverseRecOn with
  | nil => rfl
  | append_singleton passed c ih =>
      rw [placeAfter_concat, ih]
      by_cases hc : c = '\n'
      · subst hc
        rw [List.rtakeWhile_concat_neg _ _ _ (by simp)]
        simp [Position.after]
      · rw [List.rtakeWhile_concat_pos _ _ _ (by simpa using hc)]
        simp [Position.after, hc]

theorem after_placeAfter (passed : List Char) {c : Char} (hc : c ≠ '\n') :
    (placeAfter passed).after c = placeBehind passed := by
  rw [placeAfter_eq, Position.after, if_neg hc]
  rfl

theorem length_pieces (mark : Char) (text : List Char) :
    (Text.pieces mark text).length = text.count mark + 1 := by
  induction text with
  | nil => rfl
  | cons c rest ih =>
      unfold Text.pieces
      split
      · next hc => simp [hc, ih]
      · next hc =>
        cases hpieces : Text.pieces mark rest with
        | nil => exact absurd hpieces (Text.pieces_ne_nil mark rest)
        | cons first others =>
            rw [hpieces] at ih
            simpa [hc] using ih

/-- From its column on, the line behind a text is the first line of what follows. -/
theorem drop_pieces_append (before rest : List Char) :
    ((Text.pieces '\n' (before ++ rest))[before.count '\n']?).map
        (·.drop (before.rtakeWhile (· ≠ '\n')).length) = (Text.pieces '\n' rest).head? := by
  induction before using List.reverseRecOn generalizing rest with
  | nil => simp [List.head?_eq_getElem?]
  | append_singleton before c ih =>
      rw [List.append_assoc, List.singleton_append]
      by_cases hc : c = '\n'
      · subst hc
        rw [List.rtakeWhile_concat_neg _ _ _ (by simp), Text.pieces_append, List.count_append,
          List.getElem?_append_right (by simp [length_pieces])]
        simp [length_pieces, List.head?_eq_getElem?]
      · have hrest := ih (c :: rest)
        rw [List.rtakeWhile_concat_pos _ _ _ (by simpa using hc), List.count_append]
        cases hpieces : Text.pieces '\n' rest with
        | nil => exact absurd hpieces (Text.pieces_ne_nil _ _)
        | cons first others =>
            have hfirst : (Text.pieces '\n' (c :: rest)).head? = some (c :: first) := by
              simp [Text.pieces, hc, hpieces]
            rw [hfirst] at hrest
            obtain ⟨line, hline, hdrop⟩ := Option.map_eq_some_iff.mp hrest
            have hcount : [c].count '\n' = 0 := List.count_eq_zero.mpr (by simpa using Ne.symm hc)
            rw [hcount, Nat.add_zero, hline, Option.map_some, List.length_append,
              List.length_singleton, ← List.drop_drop, hdrop]
            rfl

/-- The character behind a text stands at the place behind it. -/
theorem charAt?_placeBehind (before rest : List Char) {c : Char} (hc : c ≠ '\n') :
    charAt? (before ++ c :: rest) (placeBehind before) = some c := by
  have hdrop := drop_pieces_append before (c :: rest)
  obtain ⟨first, hfirst⟩ : ∃ first, (Text.pieces '\n' (c :: rest)).head? = some (c :: first) := by
    cases hpieces : Text.pieces '\n' rest with
    | nil => exact absurd hpieces (Text.pieces_ne_nil _ _)
    | cons first others => exact ⟨first, by simp [Text.pieces, hc, hpieces]⟩
  rw [hfirst] at hdrop
  obtain ⟨found, hline, hdrop⟩ := Option.map_eq_some_iff.mp hdrop
  have hchar : found[(before.rtakeWhile (· ≠ '\n')).length]? = some c := by
    rw [← List.head?_drop, hdrop]
    rfl
  simp only [charAt?, placeBehind, hline, Option.bind_some, hchar]

/-! ## Literals that do not end -/

namespace Quoted

variable {quote : Char} {first second : List Char}

theorem append (hfirst : Quoted quote first) (hsecond : Quoted quote second) :
    Quoted quote (first ++ second) := by
  induction hfirst with
  | nil => exact hsecond
  | hidden c _ ih => exact .hidden c ih
  | plain hback hquote hline _ ih => exact .plain hback hquote hline ih

theorem of_hidden {c : Char} (h : Quoted quote ('\\' :: c :: second)) : Quoted quote second := by
  cases h with
  | hidden _ hrest => exact hrest
  | plain hback => exact absurd rfl hback

theorem of_cons {c : Char} (hback : c ≠ '\\') (h : Quoted quote (c :: second)) :
    c ≠ quote ∧ (c = '\n' → quote = '\x60') ∧ Quoted quote second := by
  cases h with
  | hidden => exact absurd rfl hback
  | plain _ hquote hline hrest => exact ⟨hquote, hline, hrest⟩

theorem of_append (hfirst : Quoted quote first) (h : Quoted quote (first ++ second)) :
    Quoted quote second := by
  induction hfirst with
  | nil => exact h
  | hidden c _ ih => exact ih (of_hidden h)
  | plain hback _ _ _ ih => exact ih (of_cons hback h).2.2

theorem not_cons_quote (hquote : quote ∈ quotes) : ¬Quoted quote (quote :: second) :=
  fun h => (of_cons (ne_of_mem_of_not_mem hquote (by decide)) h).1 rfl

end Quoted

/-- The ways in which a text runs on behind the opening quote of a literal that it does not end: to
its end, to a backslash at its end, or to a line feed. -/
inductive RunsOn (quote : Char) : List Char → Prop where
  | toEnd {body : List Char} (hbody : Quoted quote body) : RunsOn quote body
  | toBackslash {body : List Char} (hbody : Quoted quote body) : RunsOn quote (body ++ ['\\'])
  | toLineFeed {body : List Char} (hbody : Quoted quote body) (hquote : quote ≠ '\x60')
      (rest : List Char) : RunsOn quote (body ++ '\n' :: rest)

/-- No quote of such a text ends the literal. -/
theorem RunsOn.not_quoted {quote : Char} {text : List Char} (h : RunsOn quote text)
    (hquote : quote ∈ quotes) {body rest : List Char} (htext : text = body ++ quote :: rest) :
    ¬Quoted quote body := by
  intro hbody
  have hquotes : quote ≠ '\\' ∧ quote ≠ '\n' :=
    ⟨ne_of_mem_of_not_mem hquote (by decide), ne_of_mem_of_not_mem hquote (by decide)⟩
  cases h with
  | toEnd h =>
      rw [htext] at h
      exact Quoted.not_cons_quote hquote (hbody.of_append h)
  | @toBackslash before h =>
      -- one more character behind the backslash makes the text a body
      have hwhole : Quoted quote (before ++ ['\\'] ++ ['\\']) := by
        rw [List.append_assoc]
        exact h.append (.hidden '\\' .nil)
      rw [htext, List.append_assoc] at hwhole
      exact Quoted.not_cons_quote hquote (hbody.of_append hwhole)
  | @toLineFeed before h hback rest' =>
      rcases List.append_eq_append_iff.mp htext with ⟨more, rfl, hmore⟩ | ⟨more, rfl, hmore⟩
      · cases more with
        | nil => exact hquotes.2 (List.cons.inj hmore).1.symm
        | cons c more =>
            obtain ⟨rfl, -⟩ := List.cons.inj hmore
            exact hback ((Quoted.of_cons (by decide) (h.of_append hbody)).2.1 rfl)
      · cases more with
        | nil => exact hquotes.2 (List.cons.inj hmore).1
        | cons c more =>
            obtain ⟨rfl, -⟩ := List.cons.inj hmore
            exact Quoted.not_cons_quote hquote (hbody.of_append h)

/-! ## How a text leads to a stack -/

/-- Each open delimiter stands at its place, and between two of them, before the first and behind
the last one all is closed. -/
inductive Leads : List Char → List Opener → Prop where
  | closed {passed : List Char} (h : Neutral passed) : Leads passed []
  | opened {before inner : List Char} {outer : List Opener} {mark closer : Char}
      (hbefore : Leads before outer) (hpair : (mark, closer) ∈ brackets) (hinner : Neutral inner) :
      Leads (before ++ mark :: inner) (⟨mark, closer, placeBehind before⟩ :: outer)

namespace Leads

variable {passed : List Char} {stack outer : List Opener}

theorem append (h : Leads passed stack) {piece : List Char} (hpiece : Neutral piece) :
    Leads (passed ++ piece) stack := by
  cases h with
  | closed h => exact .closed (h.append hpiece)
  | opened hbefore hpair hinner =>
      rw [List.append_assoc]
      exact .opened hbefore hpair (hinner.append hpiece)

theorem close {opener : Opener} (h : Leads passed (opener :: outer)) :
    Leads (passed ++ [opener.closer]) outer := by
  cases h with
  | @opened before inner _ mark closer hbefore hpair hinner =>
      have hgroup : Neutral (mark :: (inner ++ [closer])) := by
        intro awaited
        obtain ⟨hopens, hcloses⟩ := moves_brackets hpair awaited
        simpa using (hopens.append (hinner _)).append hcloses
      simpa using hbefore.append hgroup

end Leads

/-! ## Walks and what they pass -/

/-- A walk from the beginning passes the text and goes on behind it in this mode with this stack. -/
def Passes (passed : List Char) (mode : WalkMode) (stack : List Opener) : Prop :=
  ∀ rest, walk .start .code [] (passed ++ rest) = walk (placeAfter passed) mode stack rest

theorem Passes.concat {passed : List Char} {mode mode' : WalkMode} {stack stack' : List Opener}
    (h : Passes passed mode stack) {c : Char}
    (hstep : ∀ rest, walk (placeAfter passed) mode stack (c :: rest) =
      walk ((placeAfter passed).after c) mode' stack' rest) :
    Passes (passed ++ [c]) mode' stack' := by
  intro rest
  rw [List.append_assoc, List.singleton_append, h, hstep, placeAfter_concat]

/-- A walk between literals: what it passed led to its stack. -/
structure InCode (passed : List Char) (stack : List Opener) : Prop where
  passes : Passes passed .code stack
  leads : Leads passed stack

/-- The text that a walk in code has passed is balanced but for what is open. -/
theorem InCode.imbalance?_eq {passed : List Char} {stack : List Opener} (h : InCode passed stack) :
    imbalance? (String.ofList passed) = atEnd .code stack := by
  have hwalk := h.passes []
  rw [List.append_nil] at hwalk
  rw [imbalance?, String.toList_ofList, hwalk]
  rfl

/-- What a walk passed, by its mode: in a literal, some code, the quote and a part of the body. -/
inductive Standing : List Char → WalkMode → List Opener → Prop where
  | code {passed : List Char} {stack : List Opener} (h : InCode passed stack) :
      Standing passed .code stack
  | literal {before body : List Char} {quote : Char} {stack : List Opener}
      (hbefore : InCode before stack) (hquote : quote ∈ quotes) (hbody : Quoted quote body)
      (hpasses : Passes (before ++ quote :: body) (.literal quote (placeBehind before)) stack) :
      Standing (before ++ quote :: body) (.literal quote (placeBehind before)) stack
  | escaped {before body : List Char} {quote : Char} {stack : List Opener}
      (hbefore : InCode before stack) (hquote : quote ∈ quotes) (hbody : Quoted quote body)
      (hpasses : Passes (before ++ quote :: (body ++ ['\\'])) (.escaped quote (placeBehind before))
        stack) :
      Standing (before ++ quote :: (body ++ ['\\'])) (.escaped quote (placeBehind before)) stack

/-! ## What shows an imbalance -/

def Imbalance.place : Imbalance → Position
  | unexpectedCloser _ place => place
  | mismatched _ _ place => place
  | unclosed _ place => place
  | unterminated place => place

/-- How a character between two parts of a text shows an imbalance. -/
inductive Shows (before : List Char) (c : Char) (rest : List Char) : Imbalance → Prop where
  /-- All before the closer is closed. -/
  | unexpectedCloser {place : Position} (hcloser : isCloser c = true)
      (hbefore : imbalance? (String.ofList before) = none) :
      Shows before c rest (.unexpectedCloser c place)
  /-- Before the closer the delimiter is open that awaits another one. -/
  | mismatched {opener expected : Char} {opened place : Position} (hcloser : isCloser c = true)
      (hne : expected ≠ c) (hopener : closerOf? opener = some expected)
      (hbefore : imbalance? (String.ofList before) = some (.unclosed opener opened)) :
      Shows before c rest (.mismatched expected c place)
  /-- All behind the opener is closed. -/
  | unclosed {closer : Char} {place : Position} (hopener : closerOf? c = some closer)
      (hrest : imbalance? (String.ofList rest) = none) : Shows before c rest (.unclosed c place)
  /-- The quote begins a literal, and no quote behind it ends the literal. -/
  | unterminated {place : Position} (hquote : c ∈ quotes)
      (hbefore : imbalance? (String.ofList before) = none ∨
        ∃ opener opened, imbalance? (String.ofList before) = some (.unclosed opener opened))
      (hrest : ∀ body tail, rest = body ++ c :: tail → ¬Quoted c body) :
      Shows before c rest (.unterminated place)

/-- A character of the text shows the imbalance and stands at its place. -/
def IsShown (text : List Char) (found : Imbalance) : Prop :=
  ∃ before c rest, text = before ++ c :: rest ∧ found.place = placeBehind before ∧ c ≠ '\n' ∧
    Shows before c rest found

theorem ne_lineFeed_of_isCloser {c : Char} (h : isCloser c = true) : c ≠ '\n' := by
  rintro rfl
  cases h

/-- A literal that runs on is shown by its quote. -/
theorem InCode.isShown_unterminated {before : List Char} {stack : List Opener}
    (h : InCode before stack) {quote : Char} (hquote : quote ∈ quotes) {rest : List Char}
    (hrest : RunsOn quote rest) :
    IsShown (before ++ quote :: rest) (.unterminated (placeBehind before)) := by
  refine ⟨before, quote, rest, rfl, rfl, ne_of_mem_of_not_mem hquote (by decide),
    .unterminated hquote ?_ fun body tail => hrest.not_quoted hquote⟩
  rw [h.imbalance?_eq]
  cases stack with
  | nil => exact Or.inl rfl
  | cons opener outer => exact Or.inr ⟨_, _, rfl⟩

/-- What is open at the end is shown by the innermost opener. -/
theorem InCode.isShown_atEnd {passed : List Char} {stack : List Opener} (h : InCode passed stack)
    {found : Imbalance} (hfound : atEnd .code stack = some found) : IsShown passed found := by
  cases h.leads with
  | closed => cases hfound
  | @opened before inner outer mark closer _ hpair hinner =>
      cases hfound
      have hopener := (mem_brackets_iff mark closer).mp hpair
      refine ⟨before, mark, inner, rfl, rfl, ?_, .unclosed hopener ?_⟩
      · rintro rfl
        cases hopener
      · refine (walk_eq_none_iff .start .code [] _).mpr ?_
        rw [String.toList_ofList]
        exact hinner []

/-! ## Steps of a walk -/

/-- A character without meaning for balance. -/
theorem neutral_singleton {c : Char} (hquote : isQuote c = false) (hopens : closerOf? c = none)
    (hcloser : isCloser c = false) : Neutral [c] := by
  intro awaited
  simp [Moves, run, step, codeStep, hquote, hopens, hcloser]

/-- Behind one more character a walk in code stands somewhere, or the character shows what it
finds. -/
theorem InCode.step {passed : List Char} {stack : List Opener} (h : InCode passed stack) (c : Char)
    (rest : List Char) {found : Imbalance}
    (hfound : walk .start .code [] (passed ++ c :: rest) = some found) :
    (∃ mode stack, Standing (passed ++ [c]) mode stack) ∨ IsShown (passed ++ c :: rest) found := by
  rw [h.passes] at hfound
  by_cases hquote : isQuote c = true
  · have hmem := (mem_quotes_iff c).mpr hquote
    have hplace := after_placeAfter passed (ne_of_mem_of_not_mem hmem (by decide))
    have hpasses : Passes (passed ++ [c]) (.literal c (placeBehind passed)) stack :=
      h.passes.concat fun rest => by simp [walk, hquote, hplace]
    exact Or.inl ⟨_, _, .literal h hmem .nil hpasses⟩
  have hplain : isQuote c = false := by simpa using hquote
  cases hopens : closerOf? c with
  | some closer =>
      have hpair := (mem_brackets_iff c closer).mpr hopens
      have hne : c ≠ '\n' := by
        rintro rfl
        cases hopens
      have hpasses : Passes (passed ++ [c]) .code (⟨c, closer, placeBehind passed⟩ :: stack) :=
        h.passes.concat fun rest => by simp [walk, hplain, hopens, after_placeAfter passed hne]
      exact Or.inl ⟨_, _, .code ⟨hpasses, .opened h.leads hpair fun _ => rfl⟩⟩
  | none =>
      by_cases hcloser : isCloser c = true
      · have hne := ne_lineFeed_of_isCloser hcloser
        have hplace := after_placeAfter passed hne
        cases stack with
        | nil =>
            simp only [walk, hplain, hopens, hcloser, hplace, if_true, Bool.false_eq_true,
              if_false, Option.some.injEq] at hfound
            subst hfound
            -- nothing is open, so the closer shows itself
            exact Or.inr ⟨passed, c, rest, rfl, rfl, hne,
              .unexpectedCloser hcloser h.imbalance?_eq⟩
        | cons opener outer =>
            by_cases hawaited : opener.closer = c
            · have hpasses : Passes (passed ++ [c]) .code outer :=
                h.passes.concat fun rest => by simp [walk, hplain, hopens, hcloser, hawaited]
              have hleads := h.leads.close
              rw [hawaited] at hleads
              exact Or.inl ⟨_, _, .code ⟨hpasses, hleads⟩⟩
            · simp only [walk, hplain, hopens, hcloser, hplace, hawaited, if_true,
                Bool.false_eq_true, if_false, Option.some.injEq] at hfound
              subst hfound
              refine Or.inr ⟨passed, c, rest, rfl, rfl, hne, ?_⟩
              have hbefore := h.imbalance?_eq
              -- the place of the opener is known because all behind it is closed
              cases h.leads with
              | opened _ hpair _ =>
                  exact .mismatched hcloser hawaited ((mem_brackets_iff _ _).mp hpair) hbefore
      · have hpasses : Passes (passed ++ [c]) .code stack :=
          h.passes.concat fun rest => by simp [walk, hplain, hopens, hcloser]
        have hneutral := neutral_singleton hplain hopens (by simpa using hcloser)
        exact Or.inl ⟨_, _, .code ⟨hpasses, h.leads.append hneutral⟩⟩

/-- The step of any walk. -/
theorem Standing.step {passed : List Char} {mode : WalkMode} {stack : List Opener}
    (h : Standing passed mode stack) (c : Char) (rest : List Char) {found : Imbalance}
    (hfound : walk .start .code [] (passed ++ c :: rest) = some found) :
    (∃ mode stack, Standing (passed ++ [c]) mode stack) ∨ IsShown (passed ++ c :: rest) found := by
  cases h with
  | code h => exact h.step c rest hfound
  | @literal before body quote _ hbefore hquote hbody hpasses =>
      by_cases hback : c = '\\'
      · subst hback
        have hnext : Passes (before ++ quote :: body ++ ['\\'])
            (.escaped quote (placeBehind before)) stack :=
          hpasses.concat fun rest => by simp [walk]
        rw [List.append_assoc] at hnext ⊢
        exact Or.inl ⟨_, _, .escaped hbefore hquote hbody hnext⟩
      by_cases hends : c = quote
      · subst hends
        have hnext : Passes (before ++ c :: body ++ [c]) .code stack :=
          hpasses.concat fun rest => by simp [walk, hback]
        refine Or.inl ⟨_, _, .code ⟨hnext, ?_⟩⟩
        rw [List.append_assoc]
        -- a literal that ends is one more closed stretch of code
        exact hbefore.leads.append (hbody.neutral hquote)
      by_cases hfeed : (c = '\n' && quote ≠ '\x60') = true
      · rw [hpasses] at hfound
        simp only [walk, hback, hends, hfeed, if_true, if_false, Option.some.injEq] at hfound
        subst hfound
        simp only [Bool.and_eq_true, decide_eq_true_eq] at hfeed
        obtain ⟨rfl, hquote'⟩ := hfeed
        refine Or.inr ?_
        rw [List.append_assoc]
        -- no quote behind the line feed can end the literal any more
        exact hbefore.isShown_unterminated hquote (.toLineFeed hbody hquote' rest)
      · have hnext : Passes (before ++ quote :: body ++ [c])
            (.literal quote (placeBehind before)) stack :=
          hpasses.concat fun rest => by
            simp only [walk, hback, hends, hfeed, if_false, Bool.false_eq_true]
        have hline : c = '\n' → quote = '\x60' := by simpa using hfeed
        rw [List.append_assoc] at hnext ⊢
        exact Or.inl ⟨_, _, .literal hbefore hquote
          (hbody.append (.plain hback hends hline .nil)) hnext⟩
  | @escaped before body quote _ hbefore hquote hbody hpasses =>
      have hnext : Passes (before ++ quote :: (body ++ ['\\']) ++ [c])
          (.literal quote (placeBehind before)) stack :=
        hpasses.concat fun rest => rfl
      have hpassed : before ++ quote :: (body ++ ['\\']) ++ [c] =
          before ++ quote :: (body ++ ['\\', c]) := by simp
      rw [hpassed] at hnext ⊢
      exact Or.inl ⟨_, _, .literal hbefore hquote (hbody.append (.hidden c .nil)) hnext⟩

/-- At the end of the text. -/
theorem Standing.isShown_atEnd {passed : List Char} {mode : WalkMode} {stack : List Opener}
    (h : Standing passed mode stack) {found : Imbalance}
    (hfound : walk .start .code [] passed = some found) : IsShown passed found := by
  rw [← List.append_nil passed] at hfound
  cases h with
  | code h =>
      rw [h.passes] at hfound
      exact h.isShown_atEnd hfound
  | literal hbefore hquote hbody hpasses =>
      rw [hpasses] at hfound
      cases hfound
      exact hbefore.isShown_unterminated hquote (.toEnd hbody)
  | escaped hbefore hquote hbody hpasses =>
      rw [hpasses] at hfound
      cases hfound
      exact hbefore.isShown_unterminated hquote (.toBackslash hbody)

/-- What a walk finds is shown.  The induction is on the text that is left. -/
theorem Standing.isShown {rest passed : List Char} {mode : WalkMode} {stack : List Opener}
    (h : Standing passed mode stack) {found : Imbalance}
    (hfound : walk .start .code [] (passed ++ rest) = some found) :
    IsShown (passed ++ rest) found := by
  induction rest generalizing passed mode stack with
  | nil =>
      rw [List.append_nil] at hfound ⊢
      exact h.isShown_atEnd hfound
  | cons c rest ih =>
      rcases h.step c rest hfound with ⟨mode', stack', hnext⟩ | hshown
      · rw [List.append_cons] at hfound ⊢
        exact ih hnext hfound
      · exact hshown

theorem standing_nil : Standing [] .code [] :=
  .code ⟨fun _ => rfl, .closed fun _ => rfl⟩

/-! ## Imbalances -/

/-- An imbalance is shown by the character at its place: a closer before which nothing is open, or
something that awaits another closer; an opener behind which all is closed; or a quote that begins a
literal which does not end. -/
theorem imbalance?_place {source : String} {found : Imbalance}
    (h : imbalance? source = some found) :
    ∃ before c rest, source.toList = before ++ c :: rest ∧ found.place = placeBehind before ∧
      charAt? source.toList found.place = some c ∧ Shows before c rest found := by
  have hshown : IsShown source.toList found := standing_nil.isShown h
  obtain ⟨before, c, rest, htext, hplace, hc, hshows⟩ := hshown
  refine ⟨before, c, rest, htext, hplace, ?_, hshows⟩
  rw [htext, hplace]
  exact charAt?_placeBehind before rest hc

/-- Two literals, one of them over three lines with a line feed behind a backslash, and a closer for
the wrong delimiter. -/
def crossedLines : String := "f(\x60one\n\\\ntwo\x60,\n  \x7b'it\\'s' )"

/-- The lines of the literals count, and so do the characters behind backslashes. -/
theorem imbalance?_place_crossedLines :
    imbalance? crossedLines = some (.mismatched '\x7d' ')' ⟨4, 12⟩) ∧
      ∃ before c rest, crossedLines.toList = before ++ c :: rest ∧
        (⟨4, 12⟩ : Position) = placeBehind before ∧
        charAt? crossedLines.toList ⟨4, 12⟩ = some c ∧
        Shows before c rest (.mismatched '\x7d' ')' ⟨4, 12⟩) := by
  have hfound : imbalance? crossedLines = some (.mismatched '\x7d' ')' ⟨4, 12⟩) := by decide
  exact ⟨hfound, imbalance?_place hfound⟩

end FormCompiler.Source
