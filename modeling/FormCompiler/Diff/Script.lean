import FormCompiler.Diff.Snake

/-!
# Edit scripts

A script turns one list of lines into another: it keeps, removes and adds runs of lines. The script
of two lists is found by cutting a shortest edit path in two again and again; then each removal and
each addition is moved up and down over equal lines and joined with its like.
-/

namespace FormCompiler.Diff

/-- One step of a script, over some lines. -/
inductive Edit where
  | keep (lines : List String)
  | remove (lines : List String)
  | add (lines : List String)
  deriving DecidableEq

namespace Edit

def lines : Edit → List String
  | keep lines => lines
  | remove lines => lines
  | add lines => lines

/-- The lines of the old text that the step takes. -/
def taken : Edit → List String
  | keep lines => lines
  | remove lines => lines
  | add _ => []

/-- The lines of the new text that the step gives. -/
def given : Edit → List String
  | keep lines => lines
  | remove _ => []
  | add lines => lines

end Edit

/-- The longest common beginning of two lists, and what follows it in each. -/
def commonStart : (old new : List String) → List String × List String × List String
  | a :: old, b :: new =>
      if a = b then
        let (same, old, new) := commonStart old new
        (a :: same, old, new)
      else ([], a :: old, b :: new)
  | old, new => ([], old, new)

/-- The longest common end of two lists, and what stands before it in each. -/
def commonEnd (old new : List String) : List String × List String × List String :=
  let (same, old, new) := commonStart old.reverse new.reverse
  (same.reverse, old.reverse, new.reverse)

/-- A step over lines, if there are any. -/
def stepOver (step : List String → Edit) (lines : List String) : List Edit :=
  if lines.isEmpty then [] else [step lines]

/-- A script of two lists. Each cut makes the lists shorter, so their length bounds the depth. -/
def scriptWithin : (fuel : Nat) → (old new : List String) → List Edit
  | 0, old, new => stepOver .remove old ++ stepOver .add new
  | fuel + 1, old, new =>
      let (before, old, new) := commonStart old new
      let (after, old, new) := commonEnd old new
      let changes :=
        if old.isEmpty || new.isEmpty then stepOver .remove old ++ stepOver .add new
        else
          match middle? old new with
          | some (x, y) =>
              scriptWithin fuel (old.take x) (new.take y) ++
                scriptWithin fuel (old.drop x) (new.drop y)
          | none => [.remove old, .add new]
      stepOver .keep before ++ changes ++ stepOver .keep after

/-! ## Moving steps

A script is looked at from one of its steps: the steps before it, the nearest one first, the step,
and the steps after it. -/

/-- A script seen from one of its steps. -/
structure Focus where
  before : List Edit
  step : Edit
  after : List Edit

namespace Focus

/-- A run of kept lines put in front of the steps after. -/
def keepAfter (lines : List String) : List Edit → List Edit
  | .keep others :: rest => .keep (lines ++ others) :: rest
  | rest => .keep lines :: rest

/-- A run of kept lines put behind the steps before. -/
def keepBefore (lines : List String) : List Edit → List Edit
  | .keep others :: rest => .keep (others ++ lines) :: rest
  | rest => .keep lines :: rest

/-- Moves the step up once: over kept lines that end like the added ones, or past a step of the
other kind, or into a step of its own kind. -/
def up? (focus : Focus) : Option Focus :=
  match focus.step, focus.before with
  | .add lines, .keep kept :: before =>
      -- the kept lines end like the added ones, so either copy of that end may be the added one
      let (same, rest, moved) := commonEnd kept lines
      if same.isEmpty then none
      else
        some
          ⟨stepOver .keep rest ++ before, .add (same ++ moved), keepAfter same focus.after⟩
  | .add lines, .remove others :: before => some ⟨before, .add lines, .remove others :: focus.after⟩
  | .remove lines, .add others :: before => some ⟨before, .remove lines, .add others :: focus.after⟩
  | .add lines, .add others :: before => some ⟨before, .add (others ++ lines), focus.after⟩
  | .remove lines, .remove others :: before => some ⟨before, .remove (others ++ lines), focus.after⟩
  | _, _ => none

/-- Moves the step down once. -/
def down? (focus : Focus) : Option Focus :=
  match focus.step, focus.after with
  | .add lines, .keep kept :: after =>
      let (same, rest, moved) := commonStart kept lines
      if same.isEmpty then none
      else
        some
          ⟨keepBefore same focus.before, .add (moved ++ same), stepOver .keep rest ++ after⟩
  | .add lines, .remove others :: after => some ⟨.remove others :: focus.before, .add lines, after⟩
  | .remove lines, .add others :: after => some ⟨.add others :: focus.before, .remove lines, after⟩
  | .add lines, .add others :: after => some ⟨focus.before, .add (lines ++ others), after⟩
  | .remove lines, .remove others :: after => some ⟨focus.before, .remove (lines ++ others), after⟩
  | _, _ => none

def repeatMove (move : Focus → Option Focus) : Nat → Focus → Focus
  | 0, focus => focus
  | fuel + 1, focus =>
      match move focus with
      | some moved => repeatMove move fuel moved
      | none => focus

/-- The number of steps and lines, which bounds the moves of one step in one direction. -/
def size (edits : List Edit) : Nat :=
  edits.foldl (fun total edit => total + edit.lines.length + 1) 0

/-- Moves the step up as far as it goes, and then down. -/
def settle (focus : Focus) : Focus :=
  let up := repeatMove up? (size focus.before + 1) focus
  repeatMove down? (size up.after + 1) up

/-- Settles the steps of one kind from a place of the script on. -/
def settleAll (moves : Edit → Bool) : (fuel : Nat) → (before after : List Edit) → List Edit
  | 0, before, after => before.reverse ++ after
  | _, before, [] => before.reverse
  | fuel + 1, before, step :: after =>
      if moves step then
        let settled := settle ⟨before, step, after⟩
        settleAll moves fuel (settled.step :: settled.before) settled.after
      else settleAll moves fuel (step :: before) after

end Focus

def Edit.removes : Edit → Bool
  | .remove _ => true
  | _ => false

def Edit.adds : Edit → Bool
  | .add _ => true
  | _ => false

/-- The script with its removals settled, and after that its additions. -/
def settleEdits (edits : List Edit) : List Edit :=
  let fuel := (Focus.size edits + 1) * (Focus.size edits + 1)
  Focus.settleAll Edit.adds fuel [] (Focus.settleAll Edit.removes fuel [] edits)

/-! ## Blocks -/

/-- A part of a script: lines that stay, or removed lines and the added ones in their place. -/
inductive Block where
  | same (lines : List String)
  | changed (removed added : List String)
  deriving DecidableEq

/-- A step put in front of blocks; neighbours of one sort are one block. -/
def joinBlock : Edit → List Block → List Block
  | .keep lines, .same others :: rest => .same (lines ++ others) :: rest
  | .keep lines, rest => .same lines :: rest
  | .remove lines, .changed removed added :: rest => .changed (lines ++ removed) added :: rest
  | .remove lines, rest => .changed lines [] :: rest
  | .add lines, .changed removed added :: rest => .changed removed (lines ++ added) :: rest
  | .add lines, rest => .changed [] lines :: rest

def blocksOf (edits : List Edit) : List Block := edits.foldr joinBlock []

/-- The blocks that turn the lines of one text into those of another. -/
def blocks (old new : List String) : List Block :=
  blocksOf (settleEdits (scriptWithin (old.length + new.length + 1) old new))

end FormCompiler.Diff
