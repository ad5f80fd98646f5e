import FormCompiler.Proofs.Files.Names
import Mathlib.Data.List.Lex
import Mathlib.Data.String.Basic

/-!
# Well-formed file trees

In a well-formed tree each key stands once, is made of names, and has a folder above it.  The empty
tree is well-formed, and every operation that succeeds gives a well-formed tree again.  In such a
tree every folder is reached over the names of its key.
-/

namespace FormCompiler

namespace Path

/-- The name of a file or folder: neither a step to another folder nor several names. -/
structure IsEntryName (name : String) : Prop where
  isName : Path.isName name = true
  ne_up : name ≠ ".."
  no_slash : '/' ∉ name.toList

/-- No slash is left in the parts of a path. -/
theorem no_slash_of_mem_segments {path segment : String} (h : segment ∈ segments path) :
    '/' ∉ segment.toList := by
  obtain ⟨piece, hpiece, rfl⟩ := List.mem_map.mp h
  rw [String.toList_ofList]
  exact Text.not_mem_of_mem_pieces hpiece

/-- Names between slashes are the parts of a path. -/
theorem segments_intercalate {names : List String} (hne : names ≠ [])
    (hnames : ∀ name ∈ names, '/' ∉ name.toList) : segments ("/".intercalate names) = names := by
  have hsplit : (['/'].intercalate (names.map String.toList)).splitOn '/' =
      names.map String.toList :=
    List.splitOn_intercalate '/' (by simpa using hnames) (by simpa using hne)
  unfold segments
  rw [String.toList_intercalate, Text.pieces_eq_splitOn]
  change ((['/'].intercalate (names.map String.toList)).splitOn '/').map String.ofList = names
  rw [hsplit, List.map_map]
  simp

theorem no_slash_of_mem_parent {path segment : String} (h : segment ∈ parent path) :
    '/' ∉ segment.toList := by
  rcases List.mem_append.mp h with hroot | hname
  · split at hroot
    · rw [List.mem_singleton.mp hroot]
      decide
    · cases hroot
  · exact no_slash_of_mem_segments (List.mem_of_mem_filter (List.dropLast_subset _ hname))

end Path

namespace FileTree

open FormCompiler.Path (IsEntryName)

/-! ## Places -/

/-- The key is made of names, below the working folder or below the root. -/
def IsPlace (key : FileKey) : Prop :=
  ∃ root names, (root = [] ∨ root = ["/"]) ∧ key = root ++ names ∧
    ∀ name ∈ names, IsEntryName name

theorem isPlace_start (path : String) :
    IsPlace (if Path.isAbsolute path then ["/"] else []) := by
  refine ⟨_, [], ?_, (List.append_nil _).symm, fun _ hmem => by cases hmem⟩
  split
  · exact .inr rfl
  · exact .inl rfl

theorem IsPlace.dropLast {key : FileKey} (h : IsPlace key) : IsPlace key.dropLast := by
  obtain ⟨root, names, hroot, rfl, hnames⟩ := h
  rcases List.eq_nil_or_concat' names with rfl | ⟨others, last, rfl⟩
  · refine ⟨[], [], .inl rfl, ?_, hnames⟩
    rcases hroot with rfl | rfl
    · rfl
    · rfl
  · refine ⟨root, others, hroot, ?_, fun name hname => hnames name (List.mem_append_left _ hname)⟩
    rw [← List.append_assoc, List.dropLast_concat]

theorem IsPlace.concat {key : FileKey} {name : String} (h : IsPlace key)
    (hname : IsEntryName name) : IsPlace (key ++ [name]) := by
  obtain ⟨root, names, hroot, rfl, hnames⟩ := h
  refine ⟨root, names ++ [name], hroot, List.append_assoc root names [name], ?_⟩
  intro other hother
  rcases List.mem_append.mp hother with hmem | hmem
  · exact hnames other hmem
  · rw [List.mem_singleton.mp hmem]
    exact hname

/-- The names behind a place, where a key is not below the root. -/
theorem IsPlace.isEntryName {folder rest : FileKey} (h : IsPlace (folder ++ rest))
    (hroot : folder ≠ [] ∨ rest.head? ≠ some "/") : ∀ name ∈ rest, IsEntryName name := by
  obtain ⟨root, names, hstart, heq, hnames⟩ := h
  intro name hname
  rcases hstart with rfl | rfl
  · rw [List.nil_append] at heq
    subst heq
    exact hnames name (List.mem_append_right folder hname)
  · cases folder with
    | nil =>
        rw [List.nil_append] at heq
        rcases hroot with hne | hhead
        · exact absurd rfl hne
        · rw [heq] at hhead
          exact absurd rfl hhead
    | cons first others =>
        obtain ⟨rfl, rfl⟩ := List.cons.inj heq
        exact hnames name (List.mem_append_right others hname)

theorem isPlace_of_descend {tree : FileTree} {key target : FileKey} {segments : List String}
    (hplace : IsPlace key) (hsegments : ∀ segment ∈ segments, '/' ∉ segment.toList)
    (h : tree.descend key segments = .ok target) : IsPlace target := by
  induction segments generalizing key with
  | nil =>
      cases h
      exact hplace
  | cons segment rest ih =>
      have hrest : ∀ segment ∈ rest, '/' ∉ segment.toList :=
        fun other hother => hsegments other (List.mem_cons_of_mem segment hother)
      unfold descend at h
      split at h
      · cases h
      · cases h
      · split at h
        · exact ih hplace.dropLast hrest h
        · next hup =>
          split at h
          · next hname =>
            exact ih (hplace.concat ⟨hname, hup, hsegments segment List.mem_cons_self⟩) hrest h
          · exact ih hplace hrest h

/-- Every path that leads somewhere leads to a place. -/
theorem isPlace_of_locate {tree : FileTree} {path : String} {key : FileKey}
    (h : tree.locate path = .ok key) : IsPlace key := by
  unfold locate at h
  split at h
  · cases h
  · apply isPlace_of_descend (isPlace_start path) _ h
    intro segment hsegment
    exact Path.no_slash_of_mem_segments hsegment

/-! ## Paths below a folder -/

theorem descend_append_eq_bind (tree : FileTree) (key : FileKey) (segments rest : List String) :
    tree.descend key (segments ++ rest) =
      (tree.descend key segments).bind (tree.descend · rest) := by
  induction segments generalizing key with
  | nil => rfl
  | cons segment segments ih =>
      rw [List.cons_append, descend, descend]
      split
      · rfl
      · rfl
      · split
        · exact ih _
        · split
          · exact ih _
          · exact ih _

/-- An empty part at the end leads nowhere else. -/
theorem descend_append_empty {tree : FileTree} {key target : FileKey} {segments : List String} :
    tree.descend key (segments ++ [""]) = .ok target ↔
      tree.descend key segments = .ok target ∧ tree.get? target = some .folder := by
  rw [descend_append_eq_bind]
  cases tree.descend key segments with
  | error error => simp [Except.bind]
  | ok last =>
      have hstay : tree.descend last [""] = .ok target ↔
          last = target ∧ tree.get? last = some .folder := by
        unfold descend
        cases hlast : tree.get? last with
        | none => simp
        | some entry =>
            cases entry with
            | file content => simp
            | folder => simp [Path.isName, descend]
      refine hstay.trans ?_
      rw [Except.ok.injEq]
      constructor
      · rintro ⟨rfl, hfolder⟩
        exact ⟨rfl, hfolder⟩
      · rintro ⟨rfl, hfolder⟩
        exact ⟨rfl, hfolder⟩

/-- The path of something below a folder begins with what leads to the folder. -/
theorem exists_toList_join (tree : FileTree) {folder path : String} (hne : folder ≠ "")
    (hrelative : Path.isAbsolute path = false) :
    ∃ lead, (Path.join folder path).toList = lead ++ '/' :: path.toList ∧
      ∀ key, (tree.locate folder = .ok key →
          tree.descend (if Path.isAbsolute folder then ["/"] else [])
            ((Text.pieces '/' lead).map String.ofList) = .ok key) ∧
        (tree.descend (if Path.isAbsolute folder then ["/"] else [])
            ((Text.pieces '/' lead).map String.ofList) = .ok key →
          tree.get? key = some .folder → tree.locate folder = .ok key) := by
  unfold Path.join locate
  rw [if_neg (by simp [hrelative]), if_neg hne]
  by_cases hslash : folder.toList.getLast? = some '/'
  · obtain ⟨lead, hlead⟩ := List.getLast?_eq_some_iff.mp hslash
    have hsegments : Path.segments folder =
        (Text.pieces '/' lead).map String.ofList ++ [""] := by
      unfold Path.segments
      rw [hlead, Text.pieces_append, List.map_append]
      rfl
    refine ⟨lead, by simp [hlead], fun key => ?_⟩
    rw [hsegments, descend_append_empty]
    exact ⟨And.left, And.intro⟩
  · exact ⟨folder.toList, by simp [hslash, hne], fun key => ⟨id, fun h _ => h⟩⟩

theorem isAbsolute_join {folder path : String} (hne : folder ≠ "")
    (hrelative : Path.isAbsolute path = false) :
    Path.isAbsolute (Path.join folder path) = Path.isAbsolute folder := by
  obtain ⟨c, rest, hfirst⟩ := List.exists_cons_of_ne_nil (mt String.toList_eq_nil_iff.mp hne)
  unfold Path.join
  rw [if_neg (by simp [hrelative])]
  unfold Path.isAbsolute
  split_ifs
  · simp [hfirst]
  · simp [hfirst]

/-- What leads to a folder is followed first, and the path below it from there. -/
theorem exists_locate_join (tree : FileTree) {folder path : String} (hne : folder ≠ "")
    (hrelative : Path.isAbsolute path = false) :
    ∃ start : Except FileError FileKey,
      tree.locate (Path.join folder path) =
          start.bind (tree.descend · (Path.segments path)) ∧
        ∀ key, (tree.locate folder = .ok key → start = .ok key) ∧
          (start = .ok key → tree.get? key = some .folder → tree.locate folder = .ok key) := by
  obtain ⟨lead, hjoin, hlead⟩ := exists_toList_join tree hne hrelative
  refine ⟨_, ?_, hlead⟩
  have hnonempty : Path.join folder path ≠ "" := by
    intro hnil
    simp [hnil] at hjoin
  have hsegments : Path.segments (Path.join folder path) =
      (Text.pieces '/' lead).map String.ofList ++ Path.segments path := by
    unfold Path.segments
    rw [hjoin, Text.pieces_append, List.map_append]
  unfold locate
  rw [if_neg hnonempty, isAbsolute_join hne hrelative, hsegments, descend_append_eq_bind]

/-- A path below a folder is followed from there. -/
theorem locate_join {tree : FileTree} {folder path : String} {key : FileKey}
    (hlocate : tree.locate folder = .ok key) (hrelative : Path.isAbsolute path = false) :
    tree.locate (Path.join folder path) = tree.descend key (Path.segments path) := by
  have hne : folder ≠ "" := by
    rintro rfl
    cases hlocate
  obtain ⟨start, hjoin, hstart⟩ := exists_locate_join tree hne hrelative
  rw [hjoin, (hstart key).1 hlocate]
  rfl

/-- Where a path below a folder leads somewhere, the folder is there. -/
theorem exists_folder_of_locate_join {tree : FileTree} {folder path : String} {key : FileKey}
    (hne : folder ≠ "") (hrelative : Path.isAbsolute path = false)
    (hlocate : tree.locate (Path.join folder path) = .ok key) :
    ∃ target, tree.locate folder = .ok target ∧ tree.get? target = some .folder := by
  obtain ⟨start, hjoin, hstart⟩ := exists_locate_join tree hne hrelative
  rw [hjoin] at hlocate
  cases start with
  | error error => cases hlocate
  | ok target =>
      have hsegments : Path.segments path ≠ [] := by
        simpa [Path.segments] using Text.pieces_ne_nil '/' path.toList
      have hfolder := get?_of_descend hlocate hsegments
      exact ⟨target, (hstart target).2 rfl hfolder, hfolder⟩

/-! ## Entries -/

section Entries

variable {key : FileKey} {entry : FileEntry} {entries : List (FileKey × FileEntry)}

/-- Each key stands before all greater ones. -/
def InOrder (entries : List (FileKey × FileEntry)) : Prop :=
  entries.Pairwise fun first second => first.1 < second.1

theorem mem_insertEntry {other : FileKey × FileEntry}
    (h : other ∈ insertEntry key entry entries) : other = (key, entry) ∨ other ∈ entries := by
  induction entries with
  | nil => exact .inl (List.mem_singleton.mp h)
  | cons head rest ih =>
      unfold insertEntry at h
      split at h
      · rcases List.mem_cons.mp h with rfl | hrest
        · exact .inl rfl
        · exact .inr (List.mem_cons_of_mem head hrest)
      · split at h
        · exact List.mem_cons.mp h
        · rcases List.mem_cons.mp h with rfl | hrest
          · exact .inr List.mem_cons_self
          · exact (ih hrest).imp_right (List.mem_cons_of_mem head)

theorem InOrder.insertEntry (h : InOrder entries) : InOrder (insertEntry key entry entries) := by
  induction entries with
  | nil => exact List.pairwise_singleton _ _
  | cons head rest ih =>
      obtain ⟨hhead, hrest⟩ := List.pairwise_cons.mp h
      unfold FileTree.insertEntry
      split
      · next heq =>
        rw [heq]
        exact List.pairwise_cons.mpr ⟨hhead, hrest⟩
      · next hne =>
        split
        · next hlt =>
          refine List.pairwise_cons.mpr ⟨fun other hother => ?_, h⟩
          rcases List.mem_cons.mp hother with rfl | hmem
          · exact hlt
          · exact hlt.trans (hhead other hmem)
        · next hle =>
          refine List.pairwise_cons.mpr ⟨fun other hother => ?_, ih hrest⟩
          rcases mem_insertEntry hother with rfl | hmem
          · exact lt_of_le_of_ne (not_lt.mp hle) (Ne.symm hne)
          · exact hhead other hmem

theorem InOrder.lookup_eq_some_iff (h : InOrder entries) :
    entries.lookup key = some entry ↔ (key, entry) ∈ entries := by
  induction entries with
  | nil => simp
  | cons head rest ih =>
      obtain ⟨hhead, hrest⟩ := List.pairwise_cons.mp h
      obtain ⟨first, old⟩ := head
      rw [List.lookup_cons, List.mem_cons]
      by_cases heq : key = first
      · subst heq
        have hnot : (key, entry) ∉ rest := fun hmem => lt_irrefl key (hhead _ hmem)
        simp [hnot, eq_comm]
      · have hapart : (key == first) = false := by simp [heq]
        simp [hapart, heq, ih hrest]

end Entries

/-! ## Well-formed trees -/

/-- The keys are in order, they are places, and every one has a folder above it. -/
structure IsWellFormed (tree : FileTree) : Prop where
  inOrder : InOrder tree.entries
  isPlace : ∀ entry ∈ tree.entries, IsPlace entry.1
  below_start : ∀ entry ∈ tree.entries, entry.1 ≠ [] ∧ entry.1 ≠ ["/"]
  has_parent : ∀ entry ∈ tree.entries, tree.get? entry.1.dropLast = some .folder

variable {tree after : FileTree} {key : FileKey} {entry : FileEntry} {path content : String}

theorem isWellFormed_empty : IsWellFormed .empty := by
  refine ⟨List.Pairwise.nil, ?_, ?_, ?_⟩
  all_goals
    intro entry hmem
    cases hmem

namespace IsWellFormed

theorem get?_eq_some_iff (h : tree.IsWellFormed) (hkey : key ≠ [] ∧ key ≠ ["/"]) :
    tree.get? key = some entry ↔ (key, entry) ∈ tree.entries := by
  unfold get?
  rw [if_neg (by simp [hkey]), h.inOrder.lookup_eq_some_iff]

theorem mem_iff_file (h : tree.IsWellFormed) :
    (key, .file content) ∈ tree.entries ↔ tree.get? key = some (.file content) := by
  constructor
  · intro hmem
    exact (h.get?_eq_some_iff (h.below_start _ hmem)).mpr hmem
  · intro hfile
    have hfolder : tree.get? key ≠ some .folder := by simp [hfile]
    exact (h.get?_eq_some_iff (ne_start_of_ne_folder hfolder)).mp hfile

/-- Above whatever is there stands a folder. -/
theorem get?_dropLast (h : tree.IsWellFormed) (hentry : tree.get? key = some entry) :
    tree.get? key.dropLast = some .folder := by
  by_cases hstart : key ≠ [] ∧ key ≠ ["/"]
  · exact h.has_parent _ ((h.get?_eq_some_iff hstart).mp hentry)
  · rw [Classical.not_and_iff_not_or_not, not_not, not_not] at hstart
    rcases hstart with rfl | rfl
    · rfl
    · rfl

/-- A folder is reached over the names of its key. -/
theorem descend_names (h : tree.IsWellFormed) {folder names : FileKey}
    (hnames : ∀ name ∈ names, IsEntryName name)
    (hfolder : tree.get? (folder ++ names) = some .folder) :
    tree.descend folder names = .ok (folder ++ names) := by
  induction names using List.reverseRecOn with
  | nil =>
      rw [List.append_nil]
      rfl
  | append_singleton names last ih =>
      have hlast := hnames last (List.mem_append_right names List.mem_cons_self)
      have habove : tree.get? (folder ++ names) = some .folder := by
        have hparent := h.get?_dropLast hfolder
        rwa [← List.append_assoc, List.dropLast_concat] at hparent
      have hothers := ih (fun name hname => hnames name (List.mem_append_left [last] hname)) habove
      refine (descend_append hlast.isName hlast.ne_up).mpr ⟨folder ++ names, hothers, habove, ?_⟩
      rw [List.append_assoc]

/-! ## Files below a folder -/

theorem below?_eq_some_iff {folder rest : FileKey} :
    below? folder (key, entry) = some rest ↔
      (∃ content, entry = .file content) ∧ key = folder ++ rest ∧
        (folder ≠ [] ∨ rest.head? ≠ some "/") := by
  have hroot : ∀ rest : FileKey, folder ≠ [] ∨ (folder ++ rest).head? ≠ some "/" ↔
      folder ≠ [] ∨ rest.head? ≠ some "/" := by
    intro rest
    cases folder with
    | nil => rfl
    | cons first others => simp
  cases entry with
  | folder => simp [below?]
  | file content =>
      rw [below?]
      constructor
      · intro h
        split at h
        · next hbelow =>
          simp only [Bool.and_eq_true, Bool.or_eq_true, decide_eq_true_eq,
            List.isPrefixOf_iff_prefix] at hbelow
          obtain ⟨⟨tail, rfl⟩, hstart⟩ := hbelow
          rw [List.drop_left, Option.some.injEq] at h
          subst h
          exact ⟨⟨content, rfl⟩, rfl, (hroot tail).mp hstart⟩
        · cases h
      · rintro ⟨-, rfl, hstart⟩
        rw [List.drop_left, if_pos]
        simp only [Bool.and_eq_true, Bool.or_eq_true, decide_eq_true_eq,
          List.isPrefixOf_iff_prefix]
        exact ⟨List.prefix_append folder rest, (hroot rest).mpr hstart⟩

theorem mem_filesBelow_iff (h : tree.IsWellFormed) {folder rest : FileKey} :
    rest ∈ tree.filesBelow folder ↔
      (∃ content, tree.get? (folder ++ rest) = some (.file content)) ∧
        (folder ≠ [] ∨ rest.head? ≠ some "/") := by
  unfold filesBelow
  rw [List.mem_filterMap]
  constructor
  · rintro ⟨⟨key, entry⟩, hmem, hbelow⟩
    obtain ⟨⟨content, rfl⟩, rfl, hroot⟩ := below?_eq_some_iff.mp hbelow
    exact ⟨⟨content, h.mem_iff_file.mp hmem⟩, hroot⟩
  · rintro ⟨⟨content, hfile⟩, hroot⟩
    exact ⟨_, h.mem_iff_file.mpr hfile, below?_eq_some_iff.mpr ⟨⟨content, rfl⟩, rfl, hroot⟩⟩

/-- No file is found twice. -/
theorem nodup_filesBelow (h : tree.IsWellFormed) (folder : FileKey) :
    (tree.filesBelow folder).Nodup := by
  unfold filesBelow
  refine List.pairwise_filterMap.mpr (h.inOrder.imp ?_)
  rintro ⟨first, entry⟩ ⟨second, entry'⟩ hlt rest hrest rest' hrest' rfl
  obtain ⟨-, rfl, -⟩ := below?_eq_some_iff.mp hrest
  obtain ⟨-, rfl, -⟩ := below?_eq_some_iff.mp hrest'
  exact lt_irrefl _ hlt

/-! ## What operations do to well-formed trees -/

/-- Where a folder is above and none is replaced, an entry may be put. -/
theorem insert (h : tree.IsWellFormed) (hplace : IsPlace key)
    (hfolder : tree.get? key ≠ some .folder) (habove : tree.get? key.dropLast = some .folder)
    (entry : FileEntry) : (tree.insert key entry).IsWellFormed := by
  have hstay : FoldersStay tree (tree.insert key entry) := (keeps_insert hfolder entry).folders
  refine ⟨h.inOrder.insertEntry, ?_, ?_, ?_⟩
  · intro other hother
    rcases mem_insertEntry hother with rfl | hmem
    · exact hplace
    · exact h.isPlace other hmem
  · intro other hother
    rcases mem_insertEntry hother with rfl | hmem
    · exact ne_start_of_ne_folder hfolder
    · exact h.below_start other hmem
  · intro other hother
    rcases mem_insertEntry hother with rfl | hmem
    · exact hstay _ habove
    · exact hstay _ (h.has_parent other hmem)

/-- A file may be taken away. -/
theorem erase (h : tree.IsWellFormed) (hfile : tree.get? key = some (.file content)) :
    (tree.erase key).IsWellFormed := by
  have hold : ∀ {other}, other ∈ (tree.erase key).entries → other ∈ tree.entries :=
    fun hother => List.mem_of_mem_filter hother
  refine ⟨h.inOrder.filter _, fun other hother => h.isPlace other (hold hother),
    fun other hother => h.below_start other (hold hother), fun other hother => ?_⟩
  have habove := h.has_parent other (hold hother)
  rw [get?_erase_of_file hfile, if_neg, habove]
  intro heq
  rw [heq, hfile] at habove
  cases habove

theorem write (h : tree.IsWellFormed) (hwrite : tree.write path content = .ok after) :
    after.IsWellFormed := by
  unfold FileTree.write at hwrite
  cases hkey : tree.locate path with
  | error error =>
      rw [hkey] at hwrite
      cases hwrite
  | ok key =>
      rw [hkey] at hwrite
      dsimp only [bind, Except.bind] at hwrite
      split at hwrite
      · cases hwrite
      · next habove hfolder =>
        cases hwrite
        exact h.insert (isPlace_of_locate hkey) hfolder habove _
      · cases hwrite
      · cases hwrite

theorem makeFoldersFrom (h : tree.IsWellFormed) {segments : List String} (hplace : IsPlace key)
    (hfolder : tree.get? key = some .folder)
    (hsegments : ∀ segment ∈ segments, '/' ∉ segment.toList)
    (hmade : tree.makeFoldersFrom key segments = .ok after) : after.IsWellFormed := by
  induction segments generalizing tree key with
  | nil =>
      cases hmade
      exact h
  | cons segment rest ih =>
      have hrest : ∀ segment ∈ rest, '/' ∉ segment.toList :=
        fun other hother => hsegments other (List.mem_cons_of_mem segment hother)
      unfold FileTree.makeFoldersFrom at hmade
      split at hmade
      · exact ih h hplace.dropLast (h.get?_dropLast hfolder) hrest hmade
      · next hup =>
        split at hmade
        · exact ih h hplace hfolder hrest hmade
        · next hname =>
          have hconcat := hplace.concat
            ⟨by simpa using hname, hup, hsegments segment List.mem_cons_self⟩
          dsimp only at hmade
          split at hmade
          · next hthere => exact ih h hconcat hthere hrest hmade
          · cases hmade
          · next hnone =>
            have hfree : tree.get? (key ++ [segment]) ≠ some .folder := by simp [hnone]
            have hinsert := h.insert hconcat hfree (by rwa [List.dropLast_concat]) .folder
            refine ih hinsert hconcat ?_ hrest hmade
            rw [get?_insert_of_ne_folder hfree, if_pos rfl]

theorem makeParents (h : tree.IsWellFormed) (hmade : tree.makeParents path = .ok after) :
    after.IsWellFormed := by
  apply h.makeFoldersFrom (isPlace_start path) _ _ hmade
  · split
    · rfl
    · rfl
  · intro segment hsegment
    exact Path.no_slash_of_mem_parent hsegment

theorem copy (h : tree.IsWellFormed) {target : String} (hcopy : tree.copy path target = .ok after) :
    after.IsWellFormed := by
  obtain ⟨content, -, hwrite⟩ := of_copy_eq_ok hcopy
  exact h.write hwrite

theorem remove (h : tree.IsWellFormed) (hremove : tree.remove path = .ok after) :
    after.IsWellFormed := by
  obtain ⟨key, content, hfile, rfl⟩ := remove_eq_ok hremove
  exact h.erase hfile

end IsWellFormed

end FileTree

end FormCompiler
