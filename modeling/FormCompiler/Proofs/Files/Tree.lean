import FormCompiler.Files.Tree
import FormCompiler.Proofs.Text.Lines

/-!
# What operations on files keep

A path leads to the same key as long as the folders on its way stay.  Every operation that succeeds
keeps all folders and all files but the one that it writes or removes, so what can be read
elsewhere can be read afterwards.  `FileTree.Keeps` says this, and `FileTree.Adds` says which files
may be new; both pass from one operation to the next.
-/

namespace FormCompiler

/-! ## Ends of paths -/

theorem Text.getLast?_of_endsWith {tail text : List Char} {c : Char}
    (hlast : tail.getLast? = some c) (h : endsWith tail text = true) :
    text.getLast? = some c := by
  obtain ⟨rest, hrest⟩ := List.isPrefixOf_iff_prefix.mp h
  rw [List.getLast?_eq_head?_reverse, ← hrest, List.head?_append, ← List.getLast?_eq_head?_reverse,
    hlast]
  rfl

theorem Path.getLast?_join {path : String} {c : Char} (h : path.toList.getLast? = some c)
    (folder : String) : (join folder path).toList.getLast? = some c := by
  unfold join
  split_ifs
  · exact h
  · rw [String.toList_append, List.getLast?_append, h]
    rfl
  · rw [String.toList_append, List.getLast?_append, h]
    rfl

namespace FileTree

/-! ## Following paths -/

section Folders

variable {before after : FileTree}

/-- Every folder of the first tree is one of the second. -/
def FoldersStay (before after : FileTree) : Prop :=
  ∀ key, before.get? key = some .folder → after.get? key = some .folder

theorem descend_of_foldersStay (h : FoldersStay before after) {key target : FileKey}
    {segments : List String} (hpath : before.descend key segments = .ok target) :
    after.descend key segments = .ok target := by
  induction segments generalizing key with
  | nil => exact hpath
  | cons segment rest ih =>
      unfold descend at hpath ⊢
      split at hpath
      · cases hpath
      · cases hpath
      · next hfolder =>
        rw [h key hfolder]
        dsimp only
        split at hpath
        · next hup => rw [if_pos hup]; exact ih hpath
        · next hup =>
          rw [if_neg hup]
          split at hpath
          · next hname => rw [if_pos hname]; exact ih hpath
          · next hname => rw [if_neg hname]; exact ih hpath

/-- A path that leads somewhere leads there as long as the folders stay. -/
theorem locate_of_foldersStay (h : FoldersStay before after) {path : String} {key : FileKey}
    (hpath : before.locate path = .ok key) : after.locate path = .ok key := by
  unfold locate at hpath ⊢
  split at hpath
  · cases hpath
  · next hempty =>
    rw [if_neg hempty]
    exact descend_of_foldersStay h hpath

/-- A path that leads somewhere after nothing but a file was changed led there before. -/
theorem locate_of_get?_eq {changed : FileKey} {content : String}
    (hfile : after.get? changed = some (.file content))
    (hsame : ∀ other, other ≠ changed → after.get? other = before.get? other) {path : String}
    {key : FileKey} (h : after.locate path = .ok key) : before.locate path = .ok key := by
  refine locate_of_foldersStay (fun other hother => ?_) h
  rwa [← hsame other]
  rintro rfl
  rw [hfile] at hother
  cases hother

end Folders

/-- The last part of a path, if it is a name, is the last name of the key. -/
theorem descend_concat {tree : FileTree} {segment : String} (hup : segment ≠ "..")
    (hname : Path.isName segment = true) {key target : FileKey} {segments : List String}
    (h : tree.descend key (segments ++ [segment]) = .ok target) :
    ∃ folder, target = folder ++ [segment] := by
  induction segments generalizing key with
  | nil =>
      simp only [List.nil_append, descend, if_neg hup, if_pos hname] at h
      split at h
      · cases h
      · cases h
      · exact ⟨key, (Except.ok.inj h).symm⟩
  | cons first rest ih =>
      rw [List.cons_append, descend] at h
      split at h
      · cases h
      · cases h
      · split at h
        · exact ih h
        · split at h
          · exact ih h
          · exact ih h

/-- The last name of the key ends in the character. -/
def EndsIn (c : Char) (key : FileKey) : Prop :=
  ∃ name, key.getLast? = some name ∧ name.toList.getLast? = some c

theorem EndsIn.inj {c d : Char} {key : FileKey} (hc : EndsIn c key) (hd : EndsIn d key) :
    c = d := by
  obtain ⟨name, hname, hlast⟩ := hc
  obtain ⟨other, hother, hlast'⟩ := hd
  rw [hname] at hother
  cases hother
  exact Option.some.inj (hlast.symm.trans hlast')

/-- A path ends as the key to which it leads does, unless a slash or a point stands at its end. -/
theorem endsIn_of_locate {tree : FileTree} {path : String} {key : FileKey} {c : Char}
    (h : tree.locate path = .ok key) (hlast : path.toList.getLast? = some c) (hslash : c ≠ '/')
    (hpoint : c ≠ '.') : EndsIn c key := by
  obtain ⟨text, htext⟩ := List.getLast?_eq_some_iff.mp hlast
  obtain ⟨before, last, hpieces⟩ := Text.pieces_concat hslash text
  have hsegments : Path.segments path =
      before.map String.ofList ++ [String.ofList (last ++ [c])] := by
    rw [Path.segments, htext, hpieces, List.map_append]
    rfl
  have hdiffers : ∀ name : String, name.toList.getLast? ≠ some c →
      String.ofList (last ++ [c]) ≠ name := by
    rintro _ hname rfl
    exact hname (by simp)
  have hname : Path.isName (String.ofList (last ++ [c])) = true := by
    simp only [Path.isName, Bool.and_eq_true, decide_eq_true_eq]
    exact ⟨hdiffers "" (by simp), hdiffers "." (by simpa using Ne.symm hpoint)⟩
  unfold locate at h
  split at h
  · cases h
  · rw [hsegments] at h
    obtain ⟨folder, rfl⟩ :=
      descend_concat (hdiffers ".." (by simpa using Ne.symm hpoint)) hname h
    exact ⟨String.ofList (last ++ [c]), List.getLast?_concat, by simp⟩

/-! ## What is kept -/

/-- All folders stay, and the files at the kept keys stay as they are. -/
structure Keeps (kept : FileKey → Prop) (before after : FileTree) : Prop where
  folders : FoldersStay before after
  files : ∀ key content, kept key → before.get? key = some (.file content) →
    after.get? key = some (.file content)

namespace Keeps

variable {kept kept' : FileKey → Prop} {first second third : FileTree}

theorem refl (kept : FileKey → Prop) (tree : FileTree) : Keeps kept tree tree :=
  ⟨fun _ => id, fun _ _ _ => id⟩

theorem trans (h : Keeps kept first second) (h' : Keeps kept second third) :
    Keeps kept first third :=
  ⟨fun key hkey => h'.folders key (h.folders key hkey),
    fun key content hkept hkey => h'.files key content hkept (h.files key content hkept hkey)⟩

theorem mono (h : Keeps kept first second) (himp : ∀ key, kept' key → kept key) :
    Keeps kept' first second :=
  ⟨h.folders, fun key content hkept => h.files key content (himp key hkept)⟩

end Keeps

theorem read_eq_ok_iff {tree : FileTree} {path content : String} :
    tree.read path = .ok content ↔
      ∃ key, tree.locate path = .ok key ∧ tree.get? key = some (.file content) := by
  unfold read look
  cases hkey : tree.locate path with
  | error error => simp [bind, Except.bind]
  | ok key =>
      rcases hentry : tree.get? key with _ | content' | _ <;>
        simp [bind, Except.bind, pure, Except.pure, hentry]

/-- A file that is kept is read as before. -/
theorem Keeps.read {kept : FileKey → Prop} {before after : FileTree} (h : Keeps kept before after)
    {path content : String} (hkept : ∀ key, before.locate path = .ok key → kept key)
    (hread : before.read path = .ok content) : after.read path = .ok content := by
  obtain ⟨key, hkey, hentry⟩ := read_eq_ok_iff.mp hread
  exact read_eq_ok_iff.mpr ⟨key, locate_of_foldersStay h.folders hkey,
    h.files key content (hkept key hkey) hentry⟩

/-! ## Operations -/

variable {tree after : FileTree} {path content : String}

/-- What is no folder is not where paths start. -/
theorem ne_start_of_ne_folder {key : FileKey} (h : tree.get? key ≠ some .folder) :
    key ≠ [] ∧ key ≠ ["/"] := by
  constructor
  · rintro rfl
    exact h rfl
  · rintro rfl
    exact h rfl

theorem get?_insert_of_ne_folder {key : FileKey} (h : tree.get? key ≠ some .folder)
    (entry : FileEntry) (other : FileKey) :
    (tree.insert key entry).get? other = if other = key then some entry else tree.get? other :=
  get?_insert tree key other entry (ne_start_of_ne_folder h)

/-- An entry that replaces no folder leaves all else as it is. -/
theorem keeps_insert {key : FileKey} (h : tree.get? key ≠ some .folder) (entry : FileEntry) :
    Keeps (· ≠ key) tree (tree.insert key entry) := by
  refine ⟨fun other hfolder => ?_, fun other content hother hfile => ?_⟩
  · have hother : other ≠ key := by
      rintro rfl
      exact h hfolder
    rw [get?_insert_of_ne_folder h, if_neg hother, hfolder]
  · rw [get?_insert_of_ne_folder h, if_neg hother, hfile]

/-- What it means that a file was written. -/
theorem write_eq_ok (h : tree.write path content = .ok after) :
    ∃ key, tree.locate path = .ok key ∧ tree.get? key ≠ some .folder ∧
      after = tree.insert key (.file content) := by
  unfold write at h
  cases hkey : tree.locate path with
  | error error =>
      rw [hkey] at h
      cases h
  | ok key =>
      rw [hkey] at h
      dsimp only [bind, Except.bind] at h
      split at h
      · cases h
      · next _ hfolder => exact ⟨key, rfl, hfolder, (Except.ok.inj h).symm⟩
      · cases h
      · cases h

/-- A file that was written is there, and every other one is as it was. -/
theorem of_write_eq_ok (h : tree.write path content = .ok after) :
    ∃ key, after.locate path = .ok key ∧ after.get? key = some (.file content) ∧
      Keeps (· ≠ key) tree after := by
  obtain ⟨key, hkey, hfolder, rfl⟩ := write_eq_ok h
  have hkeeps := keeps_insert hfolder (.file content)
  refine ⟨key, locate_of_foldersStay hkeeps.folders hkey, ?_, hkeeps⟩
  rw [get?_insert_of_ne_folder hfolder, if_pos rfl]

/-- The path ends in a character of a name, and in another one than the given. -/
def EndsOther (c : Char) (path : String) : Prop :=
  ∃ last, path.toList.getLast? = some last ∧ last ≠ '/' ∧ last ≠ '.' ∧ c ≠ last

/-- Files whose names end in another character than the path are not written over. -/
theorem keeps_write {c : Char} (hpath : EndsOther c path)
    (h : tree.write path content = .ok after) : Keeps (EndsIn c) tree after := by
  obtain ⟨last, hlast, hslash, hpoint, hne⟩ := hpath
  obtain ⟨key, hkey, hfolder, rfl⟩ := write_eq_ok h
  refine (keeps_insert hfolder (.file content)).mono ?_
  rintro other hother rfl
  exact hne (hother.inj (endsIn_of_locate hkey hlast hslash hpoint))

/-- Making folders keeps every file. -/
theorem keeps_makeFoldersFrom {key : FileKey} {segments : List String}
    (h : tree.makeFoldersFrom key segments = .ok after) : Keeps (fun _ => True) tree after := by
  induction segments generalizing tree key with
  | nil =>
      cases h
      exact .refl _ after
  | cons segment rest ih =>
      unfold makeFoldersFrom at h
      split at h
      · exact ih h
      · split at h
        · exact ih h
        · dsimp only at h
          split at h
          · exact ih h
          · cases h
          · next hnone =>
            have hfolder : tree.get? (key ++ [segment]) ≠ some .folder := by
              simp [hnone]
            refine Keeps.trans ⟨(keeps_insert hfolder .folder).folders, ?_⟩ (ih h)
            intro other content _ hfile
            refine (keeps_insert hfolder .folder).files other content ?_ hfile
            rintro rfl
            rw [hnone] at hfile
            cases hfile

/-- A file that is copied is read before; only the target is written. -/
theorem of_copy_eq_ok {source target : String} (h : tree.copy source target = .ok after) :
    ∃ content, tree.read source = .ok content ∧ tree.write target content = .ok after := by
  unfold copy at h
  unfold read
  cases hentry : tree.look source with
  | error error =>
      rw [hentry] at h
      cases h
  | ok entry =>
      rw [hentry] at h
      cases entry with
      | file content => exact ⟨content, rfl, h⟩
      | folder => cases h

/-! ## Folders that are there -/

theorem get?_of_descend {key target : FileKey} {segments : List String}
    (h : tree.descend key segments = .ok target) (hsegments : segments ≠ []) :
    tree.get? key = some .folder := by
  cases segments with
  | nil => exact absurd rfl hsegments
  | cons segment rest =>
      unfold descend at h
      split at h
      · cases h
      · cases h
      · next hfolder => exact hfolder

/-- Where the parts of a path lead somewhere, the folders on the way to its last name need not be
made. -/
theorem makeFoldersFrom_of_descend {key target : FileKey} {segments : List String}
    (h : tree.descend key segments = .ok target) :
    tree.makeFoldersFrom key (segments.filter Path.isName).dropLast = .ok tree := by
  induction segments generalizing key with
  | nil => rfl
  | cons segment rest ih =>
      have hfolder := get?_of_descend h (List.cons_ne_nil segment rest)
      rw [descend, hfolder] at h
      dsimp only at h
      by_cases hname : Path.isName segment = true
      · rw [List.filter_cons_of_pos hname]
        -- without another name there is nothing to be made
        cases hnames : rest.filter Path.isName with
        | nil => rfl
        | cons next others =>
            rw [List.dropLast_cons_of_ne_nil (List.cons_ne_nil next others), ← hnames]
            unfold makeFoldersFrom
            split at h
            · next hup => rw [if_pos hup]; exact ih h
            · next hup =>
              have hrest : rest ≠ [] := by
                rintro rfl
                cases hnames
              simp only [if_neg hup, hname, get?_of_descend h hrest]
              exact ih h
      · rw [List.filter_cons_of_neg hname]
        have hup : segment ≠ ".." := by
          rintro rfl
          exact hname (by decide)
        rw [if_neg hup, if_neg hname] at h
        exact ih h

theorem makeParents_of_locate {key : FileKey} (h : tree.locate path = .ok key) :
    tree.makeParents path = .ok tree := by
  unfold locate at h
  split at h
  · cases h
  · have hmade := makeFoldersFrom_of_descend h
    unfold makeParents Path.parent
    cases hroot : Path.isAbsolute path with
    | false => simpa [hroot] using hmade
    | true => simpa [hroot, makeFoldersFrom, Path.isName] using hmade

/-- Making the folders above a file keeps every file. -/
theorem keeps_makeParents (h : tree.makeParents path = .ok after) :
    Keeps (fun _ => True) tree after := keeps_makeFoldersFrom h

/-! ## Files that are removed -/

theorem get?_erase_of_file {key : FileKey} (h : tree.get? key = some (.file content))
    (other : FileKey) :
    (tree.erase key).get? other = if other = key then none else tree.get? other := by
  have hfile : tree.get? key ≠ some .folder := by simp [h]
  have hstart : key ≠ [] ∧ key ≠ ["/"] := ne_start_of_ne_folder hfile
  have hlookup : ∀ entries : List (FileKey × FileEntry),
      (erase ⟨entries⟩ key).entries.lookup other =
        if other = key then none else entries.lookup other := by
    intro entries
    induction entries with
    | nil => simp [erase]
    | cons head rest ih =>
        obtain ⟨first, old⟩ := head
        unfold erase at ih ⊢
        dsimp only at ih ⊢
        by_cases hfirst : first = key
        · rw [List.filter_cons_of_neg (by simp [hfirst]), ih, List.lookup_cons, hfirst]
          split
          · rfl
          · next hne => rw [beq_false_of_ne hne]
        · rw [List.filter_cons_of_pos (by simp [hfirst]), List.lookup_cons, List.lookup_cons, ih]
          split
          · next heq =>
            rw [if_neg]
            rintro rfl
            exact hfirst (eq_of_beq heq).symm
          · rfl
  unfold get?
  rw [hlookup]
  by_cases heq : other = key
  · subst heq
    simp [hstart]
  · simp [heq]

theorem remove_eq_ok (h : tree.remove path = .ok after) :
    ∃ key content, tree.get? key = some (.file content) ∧ after = tree.erase key := by
  unfold remove at h
  cases hkey : tree.locate path with
  | error error =>
      rw [hkey] at h
      cases h
  | ok key =>
      rw [hkey] at h
      dsimp only [bind, Except.bind] at h
      split at h
      · next content hfile => exact ⟨key, content, hfile, (Except.ok.inj h).symm⟩
      · cases h
      · cases h

/-! ## What is added -/

section Adds

variable {before middle : FileTree} {key : FileKey} {Added : FileKey → String → Prop}

/-- All folders stay, and each file was there before or is one of the added ones. -/
structure Adds (Added : FileKey → String → Prop) (before after : FileTree) : Prop where
  folders : FoldersStay before after
  files : ∀ key content, after.get? key = some (.file content) →
    before.get? key = some (.file content) ∨ Added key content

theorem Adds.trans (h : Adds Added before middle) (h' : Adds Added middle after) :
    Adds Added before after := by
  refine ⟨fun key hkey => h'.folders key (h.folders key hkey), fun key content hfile => ?_⟩
  exact (h'.files key content hfile).elim (h.files key content) .inr

theorem adds_insert_folder (hkey : tree.get? key ≠ some .folder) :
    Adds Added tree (tree.insert key .folder) := by
  refine ⟨(keeps_insert hkey .folder).folders, fun other content hfile => .inl ?_⟩
  rw [get?_insert_of_ne_folder hkey] at hfile
  split at hfile
  · cases hfile
  · exact hfile

/-- Making folders adds no file. -/
theorem adds_makeFoldersFrom {segments : List String}
    (h : tree.makeFoldersFrom key segments = .ok after) : Adds Added tree after := by
  induction segments generalizing tree key with
  | nil =>
      cases h
      exact ⟨fun _ => id, fun _ _ => .inl⟩
  | cons segment rest ih =>
      unfold makeFoldersFrom at h
      split at h
      · exact ih h
      · split at h
        · exact ih h
        · dsimp only at h
          split at h
          · exact ih h
          · cases h
          · next hnone => exact (adds_insert_folder (by simp [hnone])).trans (ih h)

theorem adds_makeParents (h : tree.makeParents path = .ok after) : Adds Added tree after :=
  adds_makeFoldersFrom h

/-- Writing adds the file that is written. -/
theorem adds_write (h : tree.write path content = .ok after)
    (hadded : ∀ key, tree.locate path = .ok key → Added key content) : Adds Added tree after := by
  obtain ⟨key, hkey, hfolder, rfl⟩ := write_eq_ok h
  refine ⟨(keeps_insert hfolder _).folders, fun other text hfile => ?_⟩
  rw [get?_insert_of_ne_folder hfolder] at hfile
  split at hfile
  · next heq =>
    subst heq
    cases hfile
    exact .inr (hadded other hkey)
  · exact .inl hfile

/-- Removing a file adds none. -/
theorem adds_remove (h : tree.remove path = .ok after) : Adds Added tree after := by
  obtain ⟨key, content, hkey, rfl⟩ := remove_eq_ok h
  refine ⟨fun other hother => ?_, fun other text hfile => .inl ?_⟩
  · have hne : other ≠ key := by
      rintro rfl
      rw [hkey] at hother
      cases hother
    rw [get?_erase_of_file hkey, if_neg hne, hother]
  · rw [get?_erase_of_file hkey] at hfile
    split at hfile
    · cases hfile
    · exact hfile

end Adds

end FileTree

end FormCompiler
