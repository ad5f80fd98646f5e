import FormCompiler.Diff.Script

/-!
# What an edit script does

An edit script takes the lines of the old text and gives those of the new one.  It does so when it
is found, however its steps are moved afterwards, and when they are joined to blocks.  So no line of
a difference comes from elsewhere.
-/

namespace FormCompiler.Diff

/-- The steps take the old lines and give the new ones, each in their order. -/
structure Turns (edits : List Edit) (old new : List String) : Prop where
  taken : edits.flatMap Edit.taken = old
  given : edits.flatMap Edit.given = new

namespace Turns

theorem append {first rest : List Edit} {old old' new new' : List String}
    (h : Turns first old new) (h' : Turns rest old' new') :
    Turns (first ++ rest) (old ++ old') (new ++ new') := by
  constructor
  · rw [List.flatMap_append, h.taken, h'.taken]
  · rw [List.flatMap_append, h.given, h'.given]

theorem keep (lines : List String) : Turns (stepOver .keep lines) lines lines := by
  cases lines with
  | nil => exact ⟨rfl, rfl⟩
  | cons line rest => exact ⟨List.flatMap_singleton .., List.flatMap_singleton ..⟩

theorem remove (lines : List String) : Turns (stepOver .remove lines) lines [] := by
  cases lines with
  | nil => exact ⟨rfl, rfl⟩
  | cons line rest => exact ⟨List.flatMap_singleton .., rfl⟩

theorem add (lines : List String) : Turns (stepOver .add lines) [] lines := by
  cases lines with
  | nil => exact ⟨rfl, rfl⟩
  | cons line rest => exact ⟨rfl, List.flatMap_singleton ..⟩

/-- All old lines are removed and all new ones added. -/
theorem replace (old new : List String) :
    Turns (stepOver .remove old ++ stepOver .add new) old new := by
  simpa using (remove old).append (add new)

end Turns

/-! ## Finding a script -/

/-- The common beginning stands at the beginning of both lists. -/
theorem commonStart_append (old new : List String) :
    (commonStart old new).1 ++ (commonStart old new).2.1 = old ∧
      (commonStart old new).1 ++ (commonStart old new).2.2 = new := by
  fun_induction commonStart old new with
  | case1 a old new same rest rest' heq ih => simp_all
  | case2 a old b new hne => exact ⟨rfl, rfl⟩
  | case3 old new h => exact ⟨rfl, rfl⟩

/-- The common end stands at the end of both lists. -/
theorem commonEnd_append (old new : List String) :
    (commonEnd old new).2.1 ++ (commonEnd old new).1 = old ∧
      (commonEnd old new).2.2 ++ (commonEnd old new).1 = new := by
  obtain ⟨hold, hnew⟩ := commonStart_append old.reverse new.reverse
  constructor
  · rw [commonEnd, ← List.reverse_append, hold, List.reverse_reverse]
  · rw [commonEnd, ← List.reverse_append, hnew, List.reverse_reverse]

/-- The induction is on the depth.  What lies between the common beginning and the common end is
cut in two, wherever the cut is. -/
theorem turns_scriptWithin (fuel : Nat) (old new : List String) :
    Turns (scriptWithin fuel old new) old new := by
  induction fuel generalizing old new with
  | zero => exact .replace old new
  | succ fuel ih =>
      obtain ⟨hold, hnew⟩ := commonStart_append old new
      rw [scriptWithin]
      generalize commonStart old new = start at hold hnew
      obtain ⟨before, oldRest, newRest⟩ := start
      obtain ⟨holdRest, hnewRest⟩ := commonEnd_append oldRest newRest
      dsimp only at hold hnew ⊢
      generalize commonEnd oldRest newRest = stop at holdRest hnewRest
      obtain ⟨after, oldPart, newPart⟩ := stop
      dsimp only at holdRest hnewRest ⊢
      rw [← hold, ← hnew, ← holdRest, ← hnewRest, ← List.append_assoc, ← List.append_assoc]
      apply Turns.append _ (.keep after)
      apply Turns.append (.keep before)
      split
      · exact .replace oldPart newPart
      · split
        · next x y hmiddle =>
          have hcut := (ih (oldPart.take x) (newPart.take y)).append
            (ih (oldPart.drop x) (newPart.drop y))
          rwa [List.take_append_drop, List.take_append_drop] at hcut
        · exact ⟨by simp [Edit.taken], by simp [Edit.given]⟩

/-! ## Moving steps -/

namespace Focus

theorem reverse_stepOver (step : List String → Edit) (lines : List String) :
    (stepOver step lines).reverse = stepOver step lines := by
  cases lines with
  | nil => rfl
  | cons line rest => rfl

/-- The script that is looked at. -/
def edits (focus : Focus) : List Edit := focus.before.reverse ++ focus.step :: focus.after

variable {focus moved : Focus} {old new : List String}

/-- A run put in front of the steps after is kept there. -/
theorem keepAfter_eq (lines : List String) (after : List Edit) :
    (keepAfter lines after).flatMap Edit.taken = lines ++ after.flatMap Edit.taken ∧
      (keepAfter lines after).flatMap Edit.given = lines ++ after.flatMap Edit.given := by
  unfold keepAfter
  split
  · simp [Edit.taken, Edit.given]
  · simp [Edit.taken, Edit.given]

/-- A run put behind the steps before is kept there. -/
theorem keepBefore_eq (lines : List String) (before : List Edit) :
    (keepBefore lines before).reverse.flatMap Edit.taken =
        before.reverse.flatMap Edit.taken ++ lines ∧
      (keepBefore lines before).reverse.flatMap Edit.given =
        before.reverse.flatMap Edit.given ++ lines := by
  unfold keepBefore
  split
  · simp [Edit.taken, Edit.given]
  · simp [Edit.taken, Edit.given]

/-- A step that moves up leaves what the script does: added lines trade places with equal lines that
are kept, and a removal and an addition do not touch the same text. -/
theorem turns_up? (h : focus.up? = some moved) (hturns : Turns focus.edits old new) :
    Turns moved.edits old new := by
  obtain ⟨before, step, after⟩ := focus
  obtain ⟨rfl, rfl⟩ := hturns
  unfold up? at h
  dsimp only at h
  split at h
  · next lines kept before =>
    obtain ⟨hkept, hlines⟩ := commonEnd_append kept lines
    generalize commonEnd kept lines = stop at h hkept hlines
    obtain ⟨same, rest, others⟩ := stop
    dsimp only at h hkept hlines
    split at h
    · cases h
    · cases h
      rw [← hkept, ← hlines]
      constructor
      · simp [edits, Edit.taken, reverse_stepOver, (keepAfter_eq same after).1,
          (Turns.keep rest).taken]
      · simp [edits, Edit.given, reverse_stepOver, (keepAfter_eq same after).2,
          (Turns.keep rest).given]
  all_goals cases h
  all_goals exact ⟨by simp [edits, Edit.taken], by simp [edits, Edit.given]⟩

/-- A step that moves down leaves what the script does. -/
theorem turns_down? (h : focus.down? = some moved) (hturns : Turns focus.edits old new) :
    Turns moved.edits old new := by
  obtain ⟨before, step, after⟩ := focus
  obtain ⟨rfl, rfl⟩ := hturns
  unfold down? at h
  dsimp only at h
  split at h
  · next lines kept after =>
    obtain ⟨hkept, hlines⟩ := commonStart_append kept lines
    generalize commonStart kept lines = start at h hkept hlines
    obtain ⟨same, rest, others⟩ := start
    dsimp only at h hkept hlines
    split at h
    · cases h
    · cases h
      rw [← hkept, ← hlines]
      constructor
      · simp [edits, Edit.taken, (keepBefore_eq same before).1, (Turns.keep rest).taken]
      · simp [edits, Edit.given, (keepBefore_eq same before).2, (Turns.keep rest).given]
  all_goals cases h
  all_goals exact ⟨by simp [edits, Edit.taken], by simp [edits, Edit.given]⟩

theorem turns_repeatMove {move : Focus → Option Focus}
    (hmove : ∀ {focus moved : Focus}, move focus = some moved → Turns focus.edits old new →
      Turns moved.edits old new)
    (fuel : Nat) (h : Turns focus.edits old new) :
    Turns (repeatMove move fuel focus).edits old new := by
  induction fuel generalizing focus with
  | zero => exact h
  | succ fuel ih =>
      unfold repeatMove
      split
      · next moved heq => exact ih (hmove heq h)
      · exact h

theorem turns_settle (h : Turns focus.edits old new) : Turns (settle focus).edits old new := by
  unfold settle
  apply turns_repeatMove turns_down?
  apply turns_repeatMove turns_up?
  exact h

theorem turns_settleAll (moves : Edit → Bool) (fuel : Nat) {before after : List Edit}
    (h : Turns (before.reverse ++ after) old new) :
    Turns (settleAll moves fuel before after) old new := by
  induction fuel generalizing before after with
  | zero => exact h
  | succ fuel ih =>
      cases after with
      | nil => simpa [settleAll] using h
      | cons step after =>
          unfold settleAll
          split
          · have hsettled : Turns (settle ⟨before, step, after⟩).edits old new := turns_settle h
            apply ih
            simpa [edits] using hsettled
          · apply ih
            simpa using h

end Focus

theorem turns_settleEdits {edits : List Edit} {old new : List String} (h : Turns edits old new) :
    Turns (settleEdits edits) old new :=
  Focus.turns_settleAll _ _ (Focus.turns_settleAll _ _ h)

/-! ## Blocks -/

namespace Block

def taken : Block → List String
  | same lines => lines
  | changed removed _ => removed

def given : Block → List String
  | same lines => lines
  | changed _ added => added

end Block

/-- A step put in front of blocks does there what it does alone. -/
theorem joinBlock_eq (edit : Edit) (blocks : List Block) :
    (joinBlock edit blocks).flatMap Block.taken = edit.taken ++ blocks.flatMap Block.taken ∧
      (joinBlock edit blocks).flatMap Block.given = edit.given ++ blocks.flatMap Block.given := by
  unfold joinBlock
  split <;> simp [Edit.taken, Edit.given, Block.taken, Block.given]

theorem blocksOf_eq (edits : List Edit) :
    (blocksOf edits).flatMap Block.taken = edits.flatMap Edit.taken ∧
      (blocksOf edits).flatMap Block.given = edits.flatMap Edit.given := by
  induction edits with
  | nil => exact ⟨rfl, rfl⟩
  | cons edit rest ih =>
      obtain ⟨htaken, hgiven⟩ := joinBlock_eq edit (blocksOf rest)
      constructor
      · rw [List.flatMap_cons, ← ih.1, ← htaken]
        rfl
      · rw [List.flatMap_cons, ← ih.2, ← hgiven]
        rfl

/-- The blocks of two texts take the lines of the old one and give those of the new one. -/
theorem blocks_eq (old new : List String) :
    (blocks old new).flatMap Block.taken = old ∧ (blocks old new).flatMap Block.given = new := by
  obtain ⟨htaken, hgiven⟩ := turns_settleEdits
    (turns_scriptWithin (old.length + new.length + 1) old new)
  obtain ⟨hblocks, hblocks'⟩ := blocksOf_eq
    (settleEdits (scriptWithin (old.length + new.length + 1) old new))
  exact ⟨hblocks.trans htaken, hblocks'.trans hgiven⟩

end FormCompiler.Diff
