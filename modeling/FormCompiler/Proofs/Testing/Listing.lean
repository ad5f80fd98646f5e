import FormCompiler.Proofs.Files.WellFormed
import FormCompiler.Proofs.Testing.Copies

/-!
# Names of snapshots and their files

A snapshot is stored in the file of its name, and the snapshots are listed by the names of their
files.  The way from names to files keeps an extension that is there already, and the way back takes
it away in any case, so the two undo each other unless a name has the extension twice.  The
principal result says when every listed name leads back to the file it is listed for.
-/

namespace FormCompiler

/-! ## Last parts -/

theorem Text.endsWith_append_cons {tail : List Char} {mark : Char} (h : mark ∉ tail)
    (lead text : List Char) : endsWith tail (lead ++ mark :: text) = endsWith tail text := by
  have hprefix : ∀ start before : List Char, mark ∉ start →
      start.isPrefixOf (before ++ mark :: lead.reverse) = start.isPrefixOf before := by
    intro start
    induction start with
    | nil => intro before _; simp
    | cons c start ih =>
        intro before hmark
        cases before with
        | nil =>
            have hc : (c == mark) = false := by
              simpa using fun heq : c = mark => hmark (heq ▸ List.mem_cons_self)
            simp [List.isPrefixOf, hc]
        | cons d before =>
            have hstart : mark ∉ start := fun hmem => hmark (List.mem_cons_of_mem c hmem)
            simp only [List.cons_append, List.isPrefixOf, ih before hstart]
  unfold endsWith
  simpa using hprefix tail.reverse text.reverse (by simpa using h)

theorem Text.endsWith_iff {tail text : List Char} : endsWith tail text = true ↔ tail <:+ text := by
  rw [endsWith, List.isPrefixOf_iff_prefix, List.reverse_prefix]

namespace Path

/-- What stands behind the last slash of a path. -/
def lastPart (path : String) : String := String.ofList (path.toList.rtakeWhile (· ≠ '/'))

theorem slash_not_mem_lastPart (path : String) : '/' ∉ (lastPart path).toList := by
  rw [lastPart, String.toList_ofList]
  intro hmem
  simpa using List.mem_rtakeWhile_imp hmem

theorem lastPart_cases (path : String) :
    lastPart path = path ∨ ∃ lead, path = lead ++ "/" ++ lastPart path := by
  have hsplit : path.toList.rdropWhile (· ≠ '/') ++ path.toList.rtakeWhile (· ≠ '/') =
      path.toList := List.rdropWhile_append_rtakeWhile
  by_cases hnil : path.toList.rdropWhile (· ≠ '/') = []
  · left
    rw [hnil, List.nil_append] at hsplit
    rw [lastPart, hsplit, String.ofList_toList]
  · right
    have hslash := List.rdropWhile_last_not (· ≠ '/') path.toList hnil
    obtain ⟨lead, hlead⟩ : ∃ lead, path.toList.rdropWhile (· ≠ '/') = lead ++ ['/'] := by
      refine List.getLast?_eq_some_iff.mp ?_
      rw [List.getLast?_eq_some_getLast hnil]
      simpa using hslash
    refine ⟨String.ofList lead, ?_⟩
    rw [← String.toList_inj, ← hsplit, hlead]
    simp [lastPart]

theorem getLast?_lastPart {path : String} {c : Char} (hlast : path.toList.getLast? = some c)
    (hslash : c ≠ '/') : (lastPart path).toList.getLast? = some c := by
  obtain ⟨text, htext⟩ := List.getLast?_eq_some_iff.mp hlast
  rw [lastPart, String.toList_ofList, htext,
    List.rtakeWhile_concat_pos _ _ _ (by simpa using hslash)]
  exact List.getLast?_concat

/-- A path whose first part is a name is not absolute. -/
theorem isAbsolute_eq_false {path first : String} {rest : List String}
    (h : segments path = first :: rest) (hfirst : first ≠ "") : isAbsolute path = false := by
  unfold isAbsolute
  cases hpath : path.toList with
  | nil => rfl
  | cons c tail =>
      have hc : c ≠ '/' := by
        rintro rfl
        unfold segments at h
        rw [hpath, Text.pieces, if_pos rfl] at h
        exact hfirst (List.cons.inj h).1.symm
      simpa using hc

end Path

/-- A name that is cut consists of the stem, which is not empty, and of the extension. -/
theorem Path.of_cutName?_eq_some {name stem extension : String}
    (h : cutName? name = some (stem, extension)) :
    stem ≠ "" ∧ name = stem ++ ("." ++ extension) := by
  unfold cutName? at h
  split at h
  · next after before hcut =>
    split at h
    · cases h
    · next hcond =>
      cases h
      have hbefore : before ≠ [] := by
        rintro rfl
        exact hcond rfl
      refine ⟨?_, ?_⟩
      · simpa [← String.toList_inj] using hbefore
      · rw [← String.toList_inj, ← List.reverse_reverse name.toList, eq_of_cutAt? hcut]
        simp
  · cases h

namespace SnapshotStore

open FileTree (EndsIn)

/-! ## File names -/

theorem isAbsolute_fileName {name : String} (h : Path.isAbsolute name = false) :
    Path.isAbsolute (fileName name) = false := by
  unfold fileName
  dsimp only
  split_ifs
  · exact h
  · unfold Path.isAbsolute at h ⊢
    rw [String.toList_append]
    cases hname : name.toList with
    | nil => decide
    | cons c rest => simpa [hname] using h

/-- Only the last part of a name decides on the extension. -/
theorem fileName_append (lead last : String) :
    fileName (lead ++ "/" ++ last) = lead ++ "/" ++ fileName last := by
  have hends : Text.endsWith ("." ++ extension).toList (lead ++ "/" ++ last).toList =
      Text.endsWith ("." ++ extension).toList last.toList := by
    have hmark : '/' ∉ ("." ++ extension).toList := by decide
    simpa using Text.endsWith_append_cons hmark lead.toList last.toList
  unfold fileName
  dsimp only
  rw [hends]
  split
  · rfl
  · exact String.append_assoc

theorem fileName_intercalate (names : List String) (last : String) :
    fileName ("/".intercalate (names ++ [last])) = "/".intercalate (names ++ [fileName last]) := by
  induction names with
  | nil => rw [List.nil_append, List.nil_append, String.intercalate_singleton,
      String.intercalate_singleton]
  | cons name names ih =>
      rw [List.cons_append, List.cons_append, String.intercalate_cons_of_ne_nil (by simp),
        String.intercalate_cons_of_ne_nil (by simp), fileName_append, ih]

theorem isEntryName_fileName {last : String} (hslash : '/' ∉ last.toList) :
    Path.IsEntryName (fileName last) := by
  have hdiffers (fixed : String) (hfixed : fixed.toList.getLast? ≠ some 'p') :
      fileName last ≠ fixed := by
    intro heq
    rw [← heq, getLast?_fileName] at hfixed
    exact hfixed rfl
  refine ⟨?_, hdiffers ".." (by decide), ?_⟩
  · simp only [Path.isName, Bool.and_eq_true, decide_eq_true_eq]
    exact ⟨hdiffers "" (by decide), hdiffers "." (by decide)⟩
  · unfold fileName
    dsimp only
    split_ifs
    · exact hslash
    · have hsuffix : '/' ∉ ("." ++ extension).toList := by decide
      rw [String.toList_append]
      exact fun hmem => (List.mem_append.mp hmem).elim hslash hsuffix

/-- The path of a snapshot ends in the file name of the last part of its name. -/
theorem exists_endsInName_path (store : SnapshotStore) (name : String) :
    ∃ lead, Path.EndsInName (store.path name) lead (fileName (Path.lastPart name)) := by
  obtain ⟨hname, hup, hslash⟩ := isEntryName_fileName (Path.slash_not_mem_lastPart name)
  have hfile : ∃ lead : List Char, (fileName name).toList =
      lead ++ (fileName (Path.lastPart name)).toList ∧
        (lead = [] ∨ lead.getLast? = some '/') := by
    rcases Path.lastPart_cases name with hlast | ⟨lead, hlead⟩
    · exact ⟨[], by rw [hlast, List.nil_append], .inl rfl⟩
    · refine ⟨lead.toList ++ ['/'], ?_, .inr List.getLast?_concat⟩
      rw [(congrArg fileName hlead).trans (fileName_append lead (Path.lastPart name))]
      simp
  obtain ⟨lead, hlead, hend⟩ := hfile
  have hjoin : ∃ front : List Char, (store.path name).toList = front ++ (fileName name).toList ∧
      (front = [] ∨ front.getLast? = some '/') := by
    unfold path Path.join
    split_ifs with habsolute hfolder
    · exact ⟨[], rfl, .inl rfl⟩
    · refine ⟨store.folder.toList, String.toList_append, ?_⟩
      simpa using hfolder
    · exact ⟨store.folder.toList ++ ['/'], by simp, .inr List.getLast?_concat⟩
  obtain ⟨front, hfront, hstart⟩ := hjoin
  refine ⟨front ++ lead, ?_, ?_, hslash, hname, hup⟩
  · rw [hfront, hlead, List.append_assoc]
  · rcases hend with rfl | hend
    · simpa using hstart
    · exact .inr (by rw [List.getLast?_append, hend]; rfl)

/-! ## Misleading names -/

/-- The name has the extension twice; or before the extension, which may be missing, there is
nothing but a point. -/
def Misleads (name : String) : Prop :=
  ".snap.snap".toList <:+ name.toList ∨ name = "..snap" ∨ name = "."

instance (name : String) : Decidable (Misleads name) :=
  inferInstanceAs (Decidable (_ ∨ _ ∨ _))

theorem Misleads.getLast? {name : String} (h : Misleads name) :
    name.toList.getLast? = some 'p' ∨ name.toList.getLast? = some '.' := by
  rcases h with ⟨text, htext⟩ | rfl | rfl
  · left
    rw [← htext, List.getLast?_append]
    rfl
  · exact .inl (by decide)
  · exact .inr (by decide)

theorem append_extension_inj {first second : String}
    (h : first ++ ".snap" = second ++ ".snap") : first = second := by
  rw [← String.toList_inj, String.toList_append, String.toList_append] at h
  exact String.toList_inj.mp (List.append_cancel_right h)

theorem length_append_extension (name : String) : (name ++ ".snap").length = name.length + 5 := by
  rw [String.length_append]
  rfl

theorem fileName_of_endsWith {name : String} (h : ".snap".toList <:+ name.toList) :
    fileName name = name := if_pos (Text.endsWith_iff.mpr h)

theorem fileName_of_not_endsWith {name : String} (h : ¬".snap".toList <:+ name.toList) :
    fileName name = name ++ ".snap" := if_neg (fun hends => h (Text.endsWith_iff.mp hends))

theorem misleads_append_iff {name : String} :
    Misleads (name ++ ".snap") ↔ ".snap".toList <:+ name.toList ∨ name = "." := by
  have htwice : ".snap.snap".toList <:+ (name ++ ".snap").toList ↔
      ".snap".toList <:+ name.toList := by
    have htwice : ".snap.snap".toList = ".snap".toList ++ ".snap".toList := by decide
    rw [String.toList_append, htwice, List.suffix_append_inj_of_length_eq rfl, and_iff_left rfl]
  have hpoint : name ++ ".snap" ≠ "." := by
    intro heq
    have hlength := length_append_extension name
    rw [heq, show (".").length = 1 by decide] at hlength
    omega
  have hdotted : name ++ ".snap" = "..snap" ↔ name = "." :=
    ⟨fun heq => append_extension_inj (show name ++ ".snap" = "." ++ ".snap" from heq),
      fun heq => by rw [heq]; decide⟩
  unfold Misleads
  rw [htwice, hdotted, or_iff_left hpoint]

/-- A file name misleads as the name does. -/
theorem misleads_fileName_iff (name : String) : Misleads (fileName name) ↔ Misleads name := by
  by_cases h : ".snap".toList <:+ name.toList
  · rw [fileName_of_endsWith h]
  · have hsnap : ".snap".toList <:+ ".snap.snap".toList := by decide
    have hdotted : ".snap".toList <:+ "..snap".toList := by decide
    rw [fileName_of_not_endsWith h, misleads_append_iff, or_iff_right h]
    constructor
    · exact fun heq => .inr (.inr heq)
    · rintro (htwice | rfl | heq)
      · exact absurd (hsnap.trans htwice) h
      · exact absurd hdotted h
      · exact heq

/-! ## Listed stems -/

theorem exists_of_listedStem? {file stem : String} (h : listedStem? file = some stem) :
    ∃ name, name ≠ "" ∧ file = name ++ ".snap" ∧ stem = if name = "." then ".." else name := by
  unfold listedStem? at h
  split at h
  · next name ending hcut =>
    split at h
    · next hending =>
      subst hending
      obtain ⟨hne, hfile⟩ := Path.of_cutName?_eq_some hcut
      exact ⟨name, hne, hfile, (Option.some.inj h).symm⟩
    · cases h
  · cases h

/-- A file is stored under what its name is listed as, unless the name misleads. -/
theorem fileName_listedStem_iff {file stem : String} (h : listedStem? file = some stem) :
    fileName stem = file ↔ ¬Misleads file := by
  obtain ⟨name, -, rfl, rfl⟩ := exists_of_listedStem? h
  rw [misleads_append_iff]
  by_cases hpoint : name = "."
  · subst hpoint
    decide
  · rw [if_neg hpoint, or_iff_left hpoint]
    by_cases hends : ".snap".toList <:+ name.toList
    · rw [fileName_of_endsWith hends]
      refine iff_of_false (fun heq => ?_) (not_not.mpr hends)
      have hlength := length_append_extension name
      rw [← heq] at hlength
      omega
    · rw [fileName_of_not_endsWith hends]
      exact iff_of_true rfl hends

theorem listedStem_ne_empty {file stem : String} (h : listedStem? file = some stem) :
    stem ≠ "" := by
  obtain ⟨name, hname, -, rfl⟩ := exists_of_listedStem? h
  split
  · decide
  · exact hname

theorem slash_not_mem_listedStem {file stem : String} (h : listedStem? file = some stem)
    (hfile : '/' ∉ file.toList) : '/' ∉ stem.toList := by
  obtain ⟨name, -, rfl, rfl⟩ := exists_of_listedStem? h
  split
  · decide
  · intro hmem
    rw [String.toList_append] at hfile
    exact hfile (List.mem_append_left _ hmem)

/-! ## Listed files -/

variable {store : SnapshotStore} {files : FileTree} {key folder rest : FileKey} {name : String}

theorem of_listedName? (h : listedName? folder rest = some name) :
    ∃ file stem, (folder ++ rest).getLast? = some file ∧ listedStem? file = some stem ∧
      name = if rest.isEmpty then "" else "/".intercalate (rest.dropLast ++ [stem]) := by
  obtain ⟨file, hfile, hrest⟩ := Option.bind_eq_some_iff.mp h
  obtain ⟨stem, hstem, hname⟩ := Option.bind_eq_some_iff.mp hrest
  exact ⟨file, stem, hfile, hstem, (Option.some.inj hname).symm⟩

/-- The file at a key is listed under a name. -/
def Lists (store : SnapshotStore) (files : FileTree) (key : FileKey) (name : String) : Prop :=
  ∃ folder, files.locate store.folder = .ok folder ∧
    ∃ rest ∈ files.filesBelow folder, key = folder ++ rest ∧ listedName? folder rest = some name

theorem mem_list_iff : name ∈ store.list files ↔ ∃ key, store.Lists files key name := by
  unfold list Lists
  cases files.locate store.folder with
  | error error => simp
  | ok folder =>
      simp only [List.mem_mergeSort, List.mem_filterMap, Except.ok.injEq, exists_eq_left']
      constructor
      · rintro ⟨rest, hrest, hname⟩
        exact ⟨folder ++ rest, rest, hrest, rfl, hname⟩
      · rintro ⟨key, rest, hrest, -, hname⟩
        exact ⟨rest, hrest, hname⟩

/-- Names that are found in order are listed as they are found. -/
theorem list_eq_of_pairwise {names : List String}
    (hlocate : files.locate store.folder = .ok folder)
    (hnames : (files.filesBelow folder).filterMap (listedName? folder) = names)
    (hsorted : names.Pairwise fun a b => decide (a ≤ b) = true) : store.list files = names := by
  unfold list
  rw [hlocate]
  dsimp only
  rw [hnames, List.mergeSort_of_pairwise hsorted]

/-- What the listing promises: no name stands there twice, and each leads back to the file that it
is listed for. -/
structure ListsFaithfully (store : SnapshotStore) (files : FileTree) : Prop where
  nodup : (store.list files).Nodup
  leads_back : ∀ key name, store.Lists files key name →
    store.holds name files = true ∧ files.locate (store.path name) = .ok key

/-- A file is listed under the names on the way to it, the last one without the extension. -/
structure IsListed (store : SnapshotStore) (files : FileTree) (folder names : FileKey)
    (file stem : String) : Prop where
  located : files.locate store.folder = .ok folder
  is_file : ∃ content, files.get? (folder ++ (names ++ [file])) = some (.file content)
  entry_names : ∀ name ∈ names ++ [file], Path.IsEntryName name
  listed : listedStem? file = some stem

section IsListed

variable {names : FileKey} {file stem : String}

theorem intercalate_ne_empty (hslash : ∀ name ∈ names ++ [stem], '/' ∉ name.toList)
    (hstem : stem ≠ "") : "/".intercalate (names ++ [stem]) ≠ "" := by
  intro hempty
  have hsegments := Path.segments_intercalate (by simp) hslash
  rw [hempty, show Path.segments "" = [] ++ [""] from rfl] at hsegments
  exact hstem (List.append_inj_right' hsegments rfl |> List.cons.inj |>.1.symm)

namespace IsListed

theorem no_slash (h : store.IsListed files folder names file stem) {last : String}
    (hlast : '/' ∉ last.toList) : ∀ name ∈ names ++ [last], '/' ∉ name.toList := by
  intro name hmem
  rcases List.mem_append.mp hmem with hname | hname
  · exact (h.entry_names name (List.mem_append_left [file] hname)).no_slash
  · rw [List.mem_singleton.mp hname]
    exact hlast

theorem slash_not_mem_stem (h : store.IsListed files folder names file stem) :
    '/' ∉ stem.toList :=
  slash_not_mem_listedStem h.listed
    (h.entry_names file (List.mem_append_right names List.mem_cons_self)).no_slash

theorem name_ne_empty (h : store.IsListed files folder names file stem) :
    "/".intercalate (names ++ [stem]) ≠ "" :=
  intercalate_ne_empty (h.no_slash h.slash_not_mem_stem) (listedStem_ne_empty h.listed)

/-- The name leads to the folder of the file, and there to the file name of the stem. -/
theorem locate_path (h : store.IsListed files folder names file stem)
    (hfiles : files.IsWellFormed) :
    files.locate (store.path ("/".intercalate (names ++ [stem]))) =
      .ok (folder ++ (names ++ [fileName stem])) := by
  have hentry := isEntryName_fileName h.slash_not_mem_stem
  have hsegments : Path.segments (fileName ("/".intercalate (names ++ [stem]))) =
      names ++ [fileName stem] := by
    rw [fileName_intercalate, Path.segments_intercalate (by simp) (h.no_slash hentry.no_slash)]
  have hrelative : Path.isAbsolute (fileName ("/".intercalate (names ++ [stem]))) = false := by
    cases names with
    | nil =>
        apply Path.isAbsolute_eq_false hsegments
        rintro hempty
        have hname := hentry.isName
        rw [hempty] at hname
        cases hname
    | cons first others =>
        apply Path.isAbsolute_eq_false hsegments
        rintro rfl
        have hname := (h.entry_names "" List.mem_cons_self).isName
        cases hname
  obtain ⟨content, hfile⟩ := h.is_file
  have habove := hfiles.get?_dropLast hfile
  rw [← List.append_assoc, List.dropLast_concat] at habove
  have hdescend := hfiles.descend_names
    (fun name hname => h.entry_names name (List.mem_append_left [file] hname)) habove
  unfold path
  rw [FileTree.locate_join h.located hrelative, hsegments,
    FileTree.descend_append hentry.isName hentry.ne_up]
  exact ⟨folder ++ names, hdescend, habove, (List.append_assoc folder names _).symm⟩

end IsListed

end IsListed

/-- A listed file is the folder itself, without a name, or stands below it. -/
theorem Lists.cases (hfiles : files.IsWellFormed) (h : store.Lists files key name) :
    (name = "" ∧ files.locate store.folder = .ok key ∧
        ∃ content, files.get? key = some (.file content)) ∨
      ∃ folder names file stem, store.IsListed files folder names file stem ∧
        key = folder ++ (names ++ [file]) ∧ name = "/".intercalate (names ++ [stem]) := by
  obtain ⟨folder, hlocate, rest, hrest, rfl, hname⟩ := h
  obtain ⟨⟨content, hfile⟩, hroot⟩ := hfiles.mem_filesBelow_iff.mp hrest
  obtain ⟨last, stem, hlast, hstem, rfl⟩ := of_listedName? hname
  rcases List.eq_nil_or_concat' rest with rfl | ⟨names, file, rfl⟩
  · left
    rw [List.append_nil] at hfile ⊢
    exact ⟨rfl, hlocate, content, hfile⟩
  · right
    rw [← List.append_assoc, List.getLast?_concat] at hlast
    cases hlast
    have hplace := hfiles.isPlace _ (hfiles.mem_iff_file.mpr hfile)
    refine ⟨folder, names, last, stem, ⟨hlocate, ⟨content, hfile⟩, ?_, hstem⟩, rfl, ?_⟩
    · exact hplace.isEntryName hroot
    · simp

/-- A name leads back to the file it is listed for, unless it is the folder itself or its name
misleads. -/
theorem Lists.leads_back_iff (hfiles : files.IsWellFormed) (h : store.Lists files key name) :
    files.locate (store.path name) = .ok key ↔
      name ≠ "" ∧ ∀ file, key.getLast? = some file → ¬Misleads file := by
  rcases h.cases hfiles with ⟨rfl, hlocate, content, hfile⟩ |
    ⟨folder, names, file, stem, hlisted, rfl, rfl⟩
  · have hrelative : Path.isAbsolute (fileName "") = false := by decide
    have hpath : files.locate (store.path "") = files.descend key [".snap"] :=
      FileTree.locate_join hlocate hrelative
    rw [hpath, FileTree.descend, hfile]
    simp
  · rw [hlisted.locate_path hfiles, Except.ok.injEq, List.append_right_inj, List.append_right_inj,
      List.singleton_inj, fileName_listedStem_iff hlisted.listed, ← List.append_assoc,
      List.getLast?_concat]
    simp [hlisted.name_ne_empty]

theorem holds_of_locate {content : String} (hlocate : files.locate (store.path name) = .ok key)
    (hfile : files.get? key = some (.file content)) : store.holds name files = true :=
  holds_of_read (FileTree.read_eq_ok_iff.mpr ⟨key, hlocate, hfile⟩)

theorem Lists.exists_content (hfiles : files.IsWellFormed) (h : store.Lists files key name) :
    ∃ content, files.get? key = some (.file content) := by
  obtain ⟨folder, -, rest, hrest, rfl, -⟩ := h
  exact (hfiles.mem_filesBelow_iff.mp hrest).1

/-- A listing is faithful exactly when the folder is no snapshot file and no listed file has a
misleading name. -/
theorem listsFaithfully_iff (hfiles : files.IsWellFormed) :
    store.ListsFaithfully files ↔ ∀ key name, store.Lists files key name →
      name ≠ "" ∧ ∀ file, key.getLast? = some file → ¬Misleads file := by
  constructor
  · intro h key name hlists
    exact (hlists.leads_back_iff hfiles).mp (h.leads_back key name hlists).2
  · intro h
    have hback : ∀ key name, store.Lists files key name →
        files.locate (store.path name) = .ok key :=
      fun key name hlists => (hlists.leads_back_iff hfiles).mpr (h key name hlists)
    refine ⟨?_, fun key name hlists => ?_⟩
    · unfold list
      cases hlocate : files.locate store.folder with
      | error error => exact List.nodup_nil
      | ok folder =>
          refine (List.mergeSort_perm _ _).nodup_iff.mpr (List.pairwise_filterMap.mpr ?_)
          refine (hfiles.nodup_filesBelow folder).imp_of_mem ?_
          rintro rest rest' hrest hrest' hne name hname name' hname' rfl
          have hkey := hback _ _ ⟨folder, hlocate, rest, hrest, rfl, hname⟩
          rw [hback _ _ ⟨folder, hlocate, rest', hrest', rfl, hname'⟩, Except.ok.injEq,
            List.append_right_inj] at hkey
          exact hne hkey.symm
    · obtain ⟨content, hfile⟩ := hlists.exists_content hfiles
      exact ⟨holds_of_locate (hback key name hlists) hfile, hback key name hlists⟩

/-! ## Copies -/

/-- A copy ends in the digits of its second and is not listed. -/
theorem not_lists_backupPath {other : String} {now : ClockReading}
    (hlocate : files.locate (store.backupPath other now) = .ok key) :
    ¬store.Lists files key name := by
  rintro ⟨folder, -, rest, -, rfl, hname⟩
  obtain ⟨above, last, hkey⟩ := exists_eq_of_locate_backupPath hlocate
  obtain ⟨file, stem, hlast, hstem, -⟩ := of_listedName? hname
  rw [hkey, List.getLast?_concat] at hlast
  cases hlast
  obtain ⟨start, -, hcopy, -⟩ := exists_of_listedStem? hstem
  have hends : EndsIn 'p' (above ++ [copyName last now.seconds]) := by
    refine ⟨copyName last now.seconds, List.getLast?_concat, ?_⟩
    rw [hcopy, String.toList_append, List.getLast?_append]
    rfl
  exact ne_copy hends above last now.seconds rfl

end SnapshotStore

end FormCompiler
