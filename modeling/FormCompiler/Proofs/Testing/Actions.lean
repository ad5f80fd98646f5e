import FormCompiler.Proofs.Files.Tree
import FormCompiler.Testing.Error

/-!
# What comes of actions on files

An action gives a value or an error, and it leaves a tree in either case.  `outcome` is the pair of
both, and its laws take an action apart step by step.  `Leaves` says what an action keeps on every
tree and `Maintains` what stays true of it; both pass from the steps of an action to the action.
-/

namespace FormCompiler.FileAction

variable {α β : Type}

/-! ## Outcomes -/

/-- What comes of an action on a tree, and the tree that it leaves. -/
def outcome (action : FileAction α) (files : FileTree) : Except TestError α × FileTree :=
  action.run.run files

section Outcome

variable {files middle after : FileTree} {action : FileAction α} {next : α → FileAction β}

@[simp] theorem outcome_pure (value : α) (files : FileTree) :
    (pure value : FileAction α).outcome files = (.ok value, files) := rfl

@[simp] theorem outcome_get (files : FileTree) :
    (get : FileAction FileTree).outcome files = (.ok files, files) := rfl

@[simp] theorem outcome_ofExcept (result : Except TestError α) (files : FileTree) :
    (ofExcept result).outcome files = (result, files) := by
  cases result <;> rfl

theorem outcome_bind (action : FileAction α) (next : α → FileAction β) (files : FileTree) :
    (action >>= next).outcome files =
      match action.outcome files with
      | (.ok value, middle) => (next value).outcome middle
      | (.error error, middle) => (.error error, middle) := by
  change (ExceptT.bindCont next (action.outcome files).1 : StateM FileTree _)
    (action.outcome files).2 = _
  rcases action.outcome files with ⟨_ | _, _⟩ <;> rfl

theorem outcome_bind_of_ok {value : α} (h : action.outcome files = (.ok value, middle)) :
    (action >>= next).outcome files = (next value).outcome middle := by
  rw [outcome_bind, h]

theorem outcome_bind_of_error {error : TestError}
    (h : action.outcome files = (.error error, middle)) :
    (action >>= next).outcome files = (.error error, middle) := by
  rw [outcome_bind, h]

@[simp] theorem outcome_get_bind (next : FileTree → FileAction β) (files : FileTree) :
    (get >>= next).outcome files = (next files).outcome files :=
  outcome_bind_of_ok (outcome_get files)

theorem outcome_ofExcept_bind {result : Except TestError α} {value : α} (h : result = .ok value) :
    (ofExcept result >>= next).outcome files = (next value).outcome files :=
  outcome_bind_of_ok (by rw [outcome_ofExcept, h])

/-- An action gives a value when all its steps do. -/
theorem of_outcome_bind_eq_ok {result : β}
    (h : (action >>= next).outcome files = (.ok result, after)) :
    ∃ value middle, action.outcome files = (.ok value, middle) ∧
      (next value).outcome middle = (.ok result, after) := by
  rw [outcome_bind] at h
  split at h
  · next value middle hfirst => exact ⟨value, middle, hfirst, h⟩
  · cases h

theorem of_outcome_ofExcept_bind_eq_ok {given : Except TestError α} {result : β}
    (h : (ofExcept given >>= next).outcome files = (.ok result, after)) :
    ∃ value, given = .ok value ∧ (next value).outcome files = (.ok result, after) := by
  obtain ⟨value, middle, hgiven, hnext⟩ := of_outcome_bind_eq_ok h
  rw [outcome_ofExcept, Prod.mk.injEq] at hgiven
  obtain ⟨hvalue, rfl⟩ := hgiven
  exact ⟨value, hvalue, hnext⟩

theorem outcome_change (operation : FileTree → Except FileError FileTree) (files : FileTree) :
    (change operation).outcome files =
      match operation files with
      | .ok after => (.ok (), after)
      | .error error => (.error (.file error), files) := by
  unfold change
  rw [outcome_get_bind]
  cases operation files <;> rfl

theorem outcome_change_eq_ok_iff {operation : FileTree → Except FileError FileTree} :
    (change operation).outcome files = (.ok (), after) ↔ operation files = .ok after := by
  rw [outcome_change]
  cases operation files <;> simp

end Outcome

/-! ## What is left as it was -/

variable {kept : FileKey → Prop}

/-- Whatever comes of the action, all folders and the kept files stay. -/
def Leaves (kept : FileKey → Prop) (action : FileAction α) : Prop :=
  ∀ files, FileTree.Keeps kept files (action.outcome files).2

namespace Leaves

theorem of_pure (value : α) : Leaves kept (pure value : FileAction α) := fun files => .refl _ files

theorem of_throw (error : TestError) : Leaves kept (throw error : FileAction α) :=
  fun files => .refl _ files

theorem of_get : Leaves kept (get : FileAction FileTree) := fun files => .refl _ files

theorem of_ofExcept (result : Except TestError α) : Leaves kept (ofExcept result) := by
  intro files
  rw [outcome_ofExcept]
  exact .refl _ files

theorem bind {action : FileAction α} {next : α → FileAction β} (h : Leaves kept action)
    (hnext : ∀ value, Leaves kept (next value)) : Leaves kept (action >>= next) := by
  intro files
  have hfirst := h files
  rw [outcome_bind]
  split
  · next value middle heq =>
    rw [heq] at hfirst
    exact hfirst.trans (hnext value middle)
  · next error middle heq =>
    rwa [heq] at hfirst

theorem of_change {operation : FileTree → Except FileError FileTree}
    (h : ∀ {files after}, operation files = .ok after → FileTree.Keeps kept files after) :
    Leaves kept (change operation) := by
  intro files
  rw [outcome_change]
  split
  · next after hafter => exact h hafter
  · exact .refl _ files

theorem of_makeParents (path : String) : Leaves kept (change (·.makeParents path)) :=
  of_change fun h => (FileTree.keeps_makeParents h).mono fun _ _ => trivial

theorem of_write {path : String} {c : Char} (hpath : FileTree.EndsOther c path)
    (content : String) : Leaves (FileTree.EndsIn c) (change (·.write path content)) :=
  of_change fun h => FileTree.keeps_write hpath h

theorem of_copy {target : String} {c : Char} (htarget : FileTree.EndsOther c target)
    (source : String) : Leaves (FileTree.EndsIn c) (change (·.copy source target)) := by
  refine of_change fun h => ?_
  obtain ⟨content, -, hwrite⟩ := FileTree.of_copy_eq_ok h
  exact FileTree.keeps_write htarget hwrite

end Leaves

/-! ## What holds of the tree that is left -/

variable {P : FileTree → Prop}

/-- Whatever comes of the action, what holds of a tree holds of the one that is left. -/
def Maintains (P : FileTree → Prop) (action : FileAction α) : Prop :=
  ∀ files, P files → P (action.outcome files).2

namespace Maintains

theorem of_pure (value : α) : Maintains P (pure value : FileAction α) := fun _ h => h

theorem of_get : Maintains P (get : FileAction FileTree) := fun _ h => h

theorem of_ofExcept (result : Except TestError α) : Maintains P (ofExcept result) := by
  intro files h
  rwa [outcome_ofExcept]

theorem bind {action : FileAction α} {next : α → FileAction β} (h : Maintains P action)
    (hnext : ∀ value, Maintains P (next value)) : Maintains P (action >>= next) := by
  intro files hfiles
  have hfirst := h files hfiles
  rw [outcome_bind]
  split
  · next value middle heq =>
    rw [heq] at hfirst
    exact hnext value middle hfirst
  · next error middle heq =>
    rwa [heq] at hfirst

theorem of_change {operation : FileTree → Except FileError FileTree}
    (h : ∀ {files after}, operation files = .ok after → P files → P after) :
    Maintains P (change operation) := by
  intro files hfiles
  rw [outcome_change]
  split
  · next after hafter => exact h hafter hfiles
  · exact hfiles

end Maintains

end FormCompiler.FileAction
