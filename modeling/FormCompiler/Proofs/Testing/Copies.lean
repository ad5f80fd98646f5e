import FormCompiler.Proofs.Files.Names
import FormCompiler.Proofs.Testing.Runs

/-!
# Copies of replaced snapshots

A run that updates copies the file of a snapshot aside and then stores the new text.  The copy is
named for the second, so of several copies in one second only the last one stays; and what is
copied is the file of the requested name, while the new text goes to the file of the name in the
header.  The principal result says which replaced texts are lost when both are one file.
-/

namespace FormCompiler.SnapshotStore

open FileTree (EndsIn FoldersStay)

/-! ## Runs of updates -/

/-- An update of a snapshot, and what the clock shows when the old text is copied and when the new
one is stored. -/
structure Renewal where
  content : String
  copied : ClockReading
  stored : ClockReading
  one_line : '\n' ∉ stored.stamp.toList

def renew (store : SnapshotStore) (name : String) (renewal : Renewal) : FileAction Unit := do
  let _ ← store.backup name renewal.copied
  store.update name renewal.content renewal.stored

/-- A test run that updates does this with a snapshot that differs. -/
theorem outcome_compareSnapshot_of_update {settings : TestSettings} {case : TestCase}
    {source : String} {now : ClockReading} {files : FileTree} {snapshot : Snapshot}
    (hstamp : '\n' ∉ now.stamp.toList) (hupdate : settings.update = true)
    (hload : settings.snapshots.load case.fullName files = .ok snapshot)
    (hdiffers : snapshot.content ≠ source) :
    (settings.compareSnapshot case source now).outcome files =
      (settings.snapshots.renew case.fullName ⟨source, now, now, hstamp⟩ >>= fun _ =>
        pure ⟨true, some (Diff.compare settings.diff [] snapshot.content source).output,
          true⟩ : FileAction Execution).outcome files := by
  obtain ⟨text, hread, -⟩ := of_load_eq_ok hload
  have hholds : settings.snapshots.holds case.fullName files = true := holds_of_read hread
  unfold TestSettings.compareSnapshot
  dsimp only
  rw [FileAction.outcome_get_bind, hholds, if_neg (by simp), FileAction.outcome_get_bind,
    FileAction.outcome_ofExcept_bind hload, Diff.isMatch_compare, decide_eq_false hdiffers,
    if_neg (by simp), if_pos hupdate, renew, bind_assoc]

/-- The files after a run of updates.  One that fails leaves what it has done. -/
def renewAll (store : SnapshotStore) (name : String) : List Renewal → FileTree → FileTree
  | [], files => files
  | renewal :: rest, files =>
      renewAll store name rest ((store.renew name renewal).outcome files).2

/-- A snapshot file had the text, and it has it no more. -/
def Replaced (store : SnapshotStore) (before after : FileTree) (text : String) : Prop :=
  ∃ name, before.read (store.path name) = .ok text ∧ after.read (store.path name) ≠ .ok text

/-- Some update of the run replaces the text. -/
def Replaces (store : SnapshotStore) (name : String) : List Renewal → FileTree → String → Prop
  | [], _, _ => False
  | renewal :: rest, files, text =>
      store.Replaced files ((store.renew name renewal).outcome files).2 text ∨
        Replaces store name rest ((store.renew name renewal).outcome files).2 text

/-- Some copy of a snapshot has the text. -/
def HasCopy (store : SnapshotStore) (files : FileTree) (text : String) : Prop :=
  ∃ name now, files.read (store.backupPath name now) = .ok text

/-- A copy that is there before the run has the text, and the run does not write over it. -/
def HasOlderCopy (store : SnapshotStore) (name : String) (run : List Renewal) (files : FileTree)
    (text : String) : Prop :=
  ∃ other now, files.read (store.backupPath other now) = .ok text ∧
    ∀ renewal ∈ run, files.locate (store.backupPath other now) ≠
      files.locate (store.backupPath name renewal.copied)

/-- Each text that the run replaces has a copy at its end. -/
def KeepsTexts (store : SnapshotStore) (name : String) (run : List Renewal) (files : FileTree) :
    Prop :=
  ∀ text, store.Replaces name run files text →
    store.HasCopy (store.renewAll name run files) text

/-! ## The names of copies -/

def copyExtension (seconds : Int) : String :=
  extension ++ ".backup." ++ Text.signedDecimal seconds

def copyName (last : String) (seconds : Int) : String :=
  Path.stem last ++ "." ++ copyExtension seconds

theorem backupPath_eq (store : SnapshotStore) (name : String) (now : ClockReading) :
    store.backupPath name now =
      Path.withExtension (store.path name) (copyExtension now.seconds) := rfl

theorem head?_decimal_ne (n : Nat) : (Text.decimal n).toList.head? ≠ some '-' := by
  intro hhead
  rw [Text.decimal, String.toList_ofList] at hhead
  exact absurd (Nat.isDigit_of_mem_toDigits (by decide) (by decide)
    (List.mem_of_mem_head? hhead)) (by decide)

theorem signedDecimal_injective {m n : Int} (h : Text.signedDecimal m = Text.signedDecimal n) :
    m = n := by
  cases m with
  | ofNat m =>
      cases n with
      | ofNat n => exact congrArg Int.ofNat (Text.decimal_injective h)
      | negSucc n =>
          refine absurd ?_ (head?_decimal_ne m)
          change (Text.signedDecimal (.ofNat m)).toList.head? = some '-'
          rw [h]
          simp [Text.signedDecimal]
  | negSucc m =>
      cases n with
      | ofNat n =>
          refine absurd ?_ (head?_decimal_ne n)
          change (Text.signedDecimal (.ofNat n)).toList.head? = some '-'
          rw [← h]
          simp [Text.signedDecimal]
      | negSucc n =>
          have hdecimal : Text.decimal (m + 1) = Text.decimal (n + 1) := by
            simpa [Text.signedDecimal] using h
          rw [Nat.succ_injective (Text.decimal_injective hdecimal)]

theorem copyName_injective {last : String} {seconds other : Int}
    (h : copyName last seconds = copyName last other) : seconds = other := by
  refine signedDecimal_injective ?_
  simpa [copyName, copyExtension] using h

theorem exists_getLast?_copyExtension (seconds : Int) :
    ∃ c, (copyExtension seconds).toList.getLast? = some c ∧ c.isDigit = true := by
  obtain ⟨c, hlast, hdigit⟩ := exists_getLast?_signedDecimal seconds
  refine ⟨c, ?_, hdigit⟩
  rw [copyExtension, String.toList_append, List.getLast?_append, hlast]
  rfl

theorem slash_not_mem_copyExtension (seconds : Int) : '/' ∉ (copyExtension seconds).toList := by
  have hdecimal (n : Nat) : '/' ∉ (Text.decimal n).toList := by
    intro hmem
    rw [Text.decimal, String.toList_ofList] at hmem
    exact absurd (Nat.isDigit_of_mem_toDigits (by decide) (by decide) hmem) (by decide)
  have hseconds : '/' ∉ (Text.signedDecimal seconds).toList := by
    cases seconds with
    | ofNat n => exact hdecimal n
    | negSucc n => simpa [Text.signedDecimal] using hdecimal (n + 1)
  have hfixed : '/' ∉ (extension ++ ".backup.").toList := by decide
  rw [copyExtension, String.toList_append]
  exact fun hmem => (List.mem_append.mp hmem).elim hfixed hseconds

/-- The file of a snapshot and its copies stand in one folder. -/
theorem exists_endsInName_copies (store : SnapshotStore) (name : String) :
    ∃ lead last, Path.EndsInName (store.path name) lead last ∧
      ∀ now, Path.EndsInName (store.backupPath name now) lead (copyName last now.seconds) := by
  obtain ⟨lead, last, hlast⟩ :=
    Path.exists_endsInName (getLast?_path store name) (by decide) (by decide)
  refine ⟨lead, last, hlast, fun now => ?_⟩
  obtain ⟨c, hc, hdigit⟩ := exists_getLast?_copyExtension now.seconds
  have hpoint : c ≠ '.' := by
    rintro rfl
    cases hdigit
  rw [backupPath_eq]
  exact hlast.withExtension (slash_not_mem_copyExtension now.seconds) hc hpoint

/-- A file of snapshots is no copy. -/
theorem ne_copy {key : FileKey} (hkey : EndsIn 'p' key) (folder : FileKey) (last : String)
    (seconds : Int) : key ≠ folder ++ [copyName last seconds] := by
  rintro rfl
  obtain ⟨c, hc, hdigit⟩ := exists_getLast?_copyExtension seconds
  have hcopy : EndsIn c (folder ++ [copyName last seconds]) := by
    refine ⟨copyName last seconds, List.getLast?_concat, ?_⟩
    rw [copyName, String.toList_append, List.getLast?_append, hc]
    rfl
  rw [← hkey.inj hcopy] at hdigit
  cases hdigit

/-! ## Snapshots in the files of their names -/

/-- The snapshot of a name stands in a file of a folder, and the name in its header leads to the
same file.  The text is read as the snapshot, its content and the time of its last update aside. -/
structure IsFiled (store : SnapshotStore) (name : String) (snapshot : Snapshot) (folder : FileKey)
    (last text : String) (files : FileTree) : Prop where
  located : files.locate (store.path name) = .ok (folder ++ [last])
  own : files.locate (store.path snapshot.name) = .ok (folder ++ [last])
  copies (now : ClockReading) :
    files.locate (store.backupPath name now) = .ok (folder ++ [copyName last now.seconds])
  is_folder : files.get? folder = some .folder
  entry : files.get? (folder ++ [last]) = some (.file text)
  header : Snapshot.IsHeaderValue snapshot.name
  parsed : ∃ content updated,
    Snapshot.parse name text = .ok { snapshot with content := content, updated := updated }

variable {store : SnapshotStore} {name last text : String} {snapshot : Snapshot}
  {folder : FileKey} {files after : FileTree} {run : List Renewal} {renewal : Renewal}

theorem exists_isFiled (hread : files.read (store.path name) = .ok text)
    (hparse : Snapshot.parse name text = .ok snapshot)
    (hsame : files.locate (store.path snapshot.name) = files.locate (store.path name))
    (hheader : Snapshot.IsHeaderValue snapshot.name) :
    ∃ folder last, store.IsFiled name snapshot folder last text files := by
  obtain ⟨key, hkey, hentry⟩ := FileTree.read_eq_ok_iff.mp hread
  obtain ⟨lead, last, hlast, hcopies⟩ := exists_endsInName_copies store name
  obtain ⟨folder, hleads, rfl⟩ := (FileTree.locate_eq_ok_iff hlast).mp hkey
  exact ⟨folder, last, hkey, hsame.trans hkey,
    fun now => (FileTree.locate_eq_ok_iff (hcopies now)).mpr ⟨folder, hleads, rfl⟩,
    hleads.is_folder, hentry, hheader, snapshot.content, snapshot.updated, hparse⟩

theorem exists_eq_of_locate_backupPath {now : ClockReading} {key : FileKey}
    (h : files.locate (store.backupPath name now) = .ok key) :
    ∃ folder last, key = folder ++ [copyName last now.seconds] := by
  obtain ⟨lead, last, -, hcopies⟩ := exists_endsInName_copies store name
  obtain ⟨folder, -, rfl⟩ := (FileTree.locate_eq_ok_iff (hcopies now)).mp h
  exact ⟨folder, last, rfl⟩

namespace IsFiled

theorem endsIn (h : store.IsFiled name snapshot folder last text files) :
    EndsIn 'p' (folder ++ [last]) :=
  FileTree.endsIn_of_locate h.located (getLast?_path store name) (by decide) (by decide)

theorem hasHeaderValues (h : store.IsFiled name snapshot folder last text files) :
    Snapshot.HasHeaderValues snapshot := by
  obtain ⟨content, updated, hparse⟩ := h.parsed
  have hvalues := Snapshot.hasHeaderValues_of_parse hparse
  exact ⟨hvalues.description, hvalues.created⟩

/-- Where all folders stay, the snapshot is filed with what its file has now. -/
theorem of_foldersStay (h : store.IsFiled name snapshot folder last text files)
    (hstay : FoldersStay files after) {new : String}
    (hentry : after.get? (folder ++ [last]) = some (.file new))
    (hparsed : ∃ content updated,
      Snapshot.parse name new = .ok { snapshot with content := content, updated := updated }) :
    store.IsFiled name snapshot folder last new after where
  located := FileTree.locate_of_foldersStay hstay h.located
  own := FileTree.locate_of_foldersStay hstay h.own
  copies now := FileTree.locate_of_foldersStay hstay (h.copies now)
  is_folder := hstay folder h.is_folder
  entry := hentry
  header := h.header
  parsed := hparsed

end IsFiled

/-! ## One update -/

namespace IsFiled

variable {seconds : Int}

theorem read_eq (h : store.IsFiled name snapshot folder last text files) :
    files.read (store.path name) = .ok text :=
  FileTree.read_eq_ok_iff.mpr ⟨_, h.located, h.entry⟩

theorem outcome_backup (h : store.IsFiled name snapshot folder last text files)
    {now : ClockReading}
    (hfree : files.get? (folder ++ [copyName last now.seconds]) ≠ some .folder) :
    (store.backup name now).outcome files =
      (.ok (some (store.backupPath name now)),
        files.insert (folder ++ [copyName last now.seconds]) (.file text)) := by
  have hwrite := FileTree.write_eq_insert text (h.copies now) hfree
    (by rw [List.dropLast_concat]; exact h.is_folder)
  have hcopy : (FileAction.change (·.copy (store.path name) (store.backupPath name now))).outcome
      files = (.ok (), files.insert (folder ++ [copyName last now.seconds]) (.file text)) := by
    rw [FileAction.outcome_change_eq_ok_iff, FileTree.copy_eq_write h.read_eq, hwrite]
  unfold backup
  rw [FileAction.outcome_get_bind, if_pos (holds_of_read h.read_eq)]
  exact FileAction.outcome_bind_of_ok hcopy

theorem outcome_update (h : store.IsFiled name snapshot folder last text files) (content : String)
    (now : ClockReading) :
    (store.update name content now).outcome files =
      (.ok (), files.insert (folder ++ [last]) (.file (renewed snapshot content now).toText)) := by
  obtain ⟨old, updated, hparse⟩ := h.parsed
  have hload : store.load name files =
      .ok { snapshot with content := old, updated := updated } := by
    rw [load_of_read h.read_eq, hparse]
  have hparents : (FileAction.change (·.makeParents (store.path snapshot.name))).outcome files =
      (.ok (), files) :=
    FileAction.outcome_change_eq_ok_iff.mpr (FileTree.makeParents_of_locate h.own)
  have hwrite := FileTree.write_eq_insert (renewed snapshot content now).toText h.own
    (by rw [h.entry]; simp) (by rw [List.dropLast_concat]; exact h.is_folder)
  rw [SnapshotStore.outcome_update hload]
  exact (FileAction.outcome_bind_of_ok hparents).trans
    (FileAction.outcome_change_eq_ok_iff.mpr hwrite)

/-- An entry that replaces no folder leaves a snapshot filed, unless it stands in its file. -/
theorem insert (h : store.IsFiled name snapshot folder last text files) {key : FileKey}
    (hkey : key ≠ folder ++ [last]) (hfree : files.get? key ≠ some .folder) (entry : FileEntry) :
    store.IsFiled name snapshot folder last text (files.insert key entry) := by
  refine h.of_foldersStay (FileTree.keeps_insert hfree entry).folders ?_ h.parsed
  rw [FileTree.get?_insert_of_ne_folder hfree, if_neg hkey.symm, h.entry]

end IsFiled

def renewedText (snapshot : Snapshot) (renewal : Renewal) : String :=
  (renewed snapshot renewal.content renewal.stored).toText

def renewedFiles (snapshot : Snapshot) (folder : FileKey) (last text : String) (renewal : Renewal)
    (files : FileTree) : FileTree :=
  (files.insert (folder ++ [copyName last renewal.copied.seconds]) (.file text)).insert
    (folder ++ [last]) (.file (renewedText snapshot renewal))

/-- No folder stands in the way of a copy. -/
def IsFree (folder : FileKey) (last : String) (run : List Renewal) (files : FileTree) : Prop :=
  ∀ renewal ∈ run, files.get? (folder ++ [copyName last renewal.copied.seconds]) ≠ some .folder

namespace IsFiled

theorem outcome_renew (h : store.IsFiled name snapshot folder last text files)
    (hfree : files.get? (folder ++ [copyName last renewal.copied.seconds]) ≠ some .folder) :
    (store.renew name renewal).outcome files =
      (.ok (), renewedFiles snapshot folder last text renewal files) := by
  have hcopied := h.insert (ne_copy h.endsIn folder last renewal.copied.seconds).symm hfree
    (.file text)
  exact (FileAction.outcome_bind_of_ok (h.outcome_backup hfree)).trans
    (hcopied.outcome_update renewal.content renewal.stored)

/-- An update writes the snapshot and the copy of its second, and nothing else. -/
theorem get?_renewedFiles (h : store.IsFiled name snapshot folder last text files)
    (hfree : files.get? (folder ++ [copyName last renewal.copied.seconds]) ≠ some .folder)
    (key : FileKey) :
    (renewedFiles snapshot folder last text renewal files).get? key =
      if key = folder ++ [last] then some (.file (renewedText snapshot renewal))
      else if key = folder ++ [copyName last renewal.copied.seconds] then some (.file text)
      else files.get? key := by
  have hcopied := h.insert (ne_copy h.endsIn folder last renewal.copied.seconds).symm hfree
    (.file text)
  unfold renewedFiles
  rw [FileTree.get?_insert_of_ne_folder (by rw [hcopied.entry]; simp),
    FileTree.get?_insert_of_ne_folder hfree]

/-- An update makes no folder and removes none. -/
theorem get?_renewedFiles_folder (h : store.IsFiled name snapshot folder last text files)
    (hfree : files.get? (folder ++ [copyName last renewal.copied.seconds]) ≠ some .folder)
    (key : FileKey) :
    (renewedFiles snapshot folder last text renewal files).get? key = some .folder ↔
      files.get? key = some .folder := by
  rw [h.get?_renewedFiles hfree]
  split_ifs with hlast hcopy
  · simp [hlast, h.entry]
  · simp [hcopy, hfree]
  · rfl

theorem isFiled_renewedFiles (h : store.IsFiled name snapshot folder last text files)
    (hfree : files.get? (folder ++ [copyName last renewal.copied.seconds]) ≠ some .folder) :
    store.IsFiled name snapshot folder last (renewedText snapshot renewal)
      (renewedFiles snapshot folder last text renewal files) := by
  have hvalues : Snapshot.HasHeaderValues (renewed snapshot renewal.content renewal.stored) :=
    ⟨h.hasHeaderValues.description, h.hasHeaderValues.created⟩
  refine h.of_foldersStay (fun key => (h.get?_renewedFiles_folder hfree key).mpr) ?_
    ⟨_, _, Snapshot.parse_toText_of_hasHeaderValues hvalues h.header renewal.one_line name⟩
  rw [h.get?_renewedFiles hfree, if_pos rfl]

/-- An update replaces the text of the snapshot only, and this if the new text is another one. -/
theorem replaced_iff (h : store.IsFiled name snapshot folder last text files)
    (hfree : files.get? (folder ++ [copyName last renewal.copied.seconds]) ≠ some .folder)
    {replaced : String} :
    store.Replaced files (renewedFiles snapshot folder last text renewal files)
        replaced ↔
      replaced = text ∧ renewedText snapshot renewal ≠ text := by
  have hafter := h.isFiled_renewedFiles hfree
  constructor
  · rintro ⟨other, hbefore, hgone⟩
    obtain ⟨key, hkey, hentry⟩ := FileTree.read_eq_ok_iff.mp hbefore
    have hends : EndsIn 'p' key :=
      FileTree.endsIn_of_locate hkey (getLast?_path store other) (by decide) (by decide)
    have hstay := FileTree.locate_of_foldersStay
      (fun key => (h.get?_renewedFiles_folder hfree key).mpr) hkey
    have hentry' := h.get?_renewedFiles hfree key
    rcases eq_or_ne key (folder ++ [last]) with rfl | hne
    · rw [h.entry] at hentry
      cases hentry
      refine ⟨rfl, fun heq => hgone (FileTree.read_eq_ok_iff.mpr ⟨_, hstay, ?_⟩)⟩
      rw [hafter.entry, heq]
    · rw [if_neg hne, if_neg (ne_copy hends folder last _), hentry] at hentry'
      exact absurd (FileTree.read_eq_ok_iff.mpr ⟨key, hstay, hentry'⟩) hgone
  · rintro ⟨rfl, hnew⟩
    refine ⟨name, h.read_eq, ?_⟩
    rw [hafter.read_eq]
    simpa using hnew

end IsFiled

/-! ## Runs -/

/-- The copies that a run makes of a snapshot with the text, each with its second. -/
def copiesOf (snapshot : Snapshot) : (text : String) → List Renewal → List (Int × String)
  | _, [] => []
  | text, renewal :: rest =>
      (renewal.copied.seconds, text) :: copiesOf snapshot (renewedText snapshot renewal) rest

/-- The texts that a run replaces by others. -/
def replacedTexts (snapshot : Snapshot) : (text : String) → List Renewal → List String
  | _, [] => []
  | text, renewal :: rest =>
      if renewedText snapshot renewal = text then replacedTexts snapshot text rest
      else text :: replacedTexts snapshot (renewedText snapshot renewal) rest

/-- No later copy is of the same second. -/
def IsLastCopy (copies : List (Int × String)) (seconds : Int) (text : String) : Prop :=
  ∃ before after, copies = before ++ (seconds, text) :: after ∧ seconds ∉ after.map Prod.fst

theorem exists_isLastCopy {copies : List (Int × String)} {seconds : Int}
    (h : seconds ∈ copies.map Prod.fst) : ∃ text, IsLastCopy copies seconds text := by
  induction copies with
  | nil => cases h
  | cons copy rest ih =>
      by_cases hrest : seconds ∈ rest.map Prod.fst
      · obtain ⟨text, before, after, rfl, hlast⟩ := ih hrest
        exact ⟨text, copy :: before, after, rfl, hlast⟩
      · obtain ⟨first, text⟩ := copy
        obtain rfl : seconds = first := (List.mem_cons.mp h).resolve_right hrest
        exact ⟨text, [], rest, rfl, hrest⟩

theorem isLastCopy_of_nodup {copies : List (Int × String)} {seconds : Int}
    (hnodup : (copies.map Prod.fst).Nodup) (hmem : (seconds, text) ∈ copies) :
    IsLastCopy copies seconds text := by
  obtain ⟨before, after, rfl⟩ := List.append_of_mem hmem
  rw [List.map_append, List.map_cons] at hnodup
  exact ⟨before, after, rfl, (List.nodup_cons.mp (List.nodup_append.mp hnodup).2.1).1⟩

theorem map_fst_copiesOf (snapshot : Snapshot) (text : String) (run : List Renewal) :
    (copiesOf snapshot text run).map Prod.fst = run.map (·.copied.seconds) := by
  induction run generalizing text with
  | nil => rfl
  | cons renewal rest ih => simp [copiesOf, ih]

/-- What is replaced was copied before. -/
theorem exists_copy_of_mem_replacedTexts {replaced : String}
    (h : replaced ∈ replacedTexts snapshot text run) :
    ∃ seconds, (seconds, replaced) ∈ copiesOf snapshot text run := by
  induction run generalizing text with
  | nil => cases h
  | cons renewal rest ih =>
      rw [replacedTexts] at h
      rw [copiesOf]
      split at h
      · next heq =>
        obtain ⟨seconds, hmem⟩ := ih h
        exact ⟨seconds, List.mem_cons_of_mem _ (by rwa [heq])⟩
      · rcases List.mem_cons.mp h with rfl | h
        · exact ⟨renewal.copied.seconds, List.mem_cons_self⟩
        · obtain ⟨seconds, hmem⟩ := ih h
          exact ⟨seconds, List.mem_cons_of_mem _ hmem⟩

namespace IsFiled

/-- The first update of a run leaves a snapshot that is filed, for the rest of the run. -/
theorem renewAll_cons (h : store.IsFiled name snapshot folder last text files)
    (hfree : IsFree folder last (renewal :: run) files) :
    store.IsFiled name snapshot folder last (renewedText snapshot renewal)
        (renewedFiles snapshot folder last text renewal files) ∧
      IsFree folder last run (renewedFiles snapshot folder last text renewal files) ∧
      store.renewAll name (renewal :: run) files =
        store.renewAll name run (renewedFiles snapshot folder last text renewal files) := by
  obtain ⟨hhere, hrest⟩ := List.forall_mem_cons.mp hfree
  refine ⟨h.isFiled_renewedFiles hhere, fun other hmem => ?_, ?_⟩
  · exact (h.get?_renewedFiles_folder hhere _).not.mpr (hrest other hmem)
  · rw [renewAll, h.outcome_renew hhere]

theorem renewAll_folder (h : store.IsFiled name snapshot folder last text files)
    (hfree : IsFree folder last run files) (key : FileKey) :
    (store.renewAll name run files).get? key = some .folder ↔ files.get? key = some .folder := by
  induction run generalizing text files with
  | nil => rfl
  | cons renewal rest ih =>
      obtain ⟨hfiled, hrest, hrun⟩ := h.renewAll_cons hfree
      rw [hrun, ih hfiled hrest, h.get?_renewedFiles_folder (hfree renewal List.mem_cons_self)]

/-- A run writes the snapshot and the copies of its seconds, and nothing else. -/
theorem get?_renewAll_of_ne (h : store.IsFiled name snapshot folder last text files)
    (hfree : IsFree folder last run files) {key : FileKey} (hkey : key ≠ folder ++ [last])
    (hcopies : ∀ renewal ∈ run, key ≠ folder ++ [copyName last renewal.copied.seconds]) :
    (store.renewAll name run files).get? key = files.get? key := by
  induction run generalizing text files with
  | nil => rfl
  | cons renewal rest ih =>
      obtain ⟨hcopy, hothers⟩ := List.forall_mem_cons.mp hcopies
      obtain ⟨hfiled, hrest, hrun⟩ := h.renewAll_cons hfree
      rw [hrun, ih hfiled hrest hothers,
        h.get?_renewedFiles (hfree renewal List.mem_cons_self), if_neg hkey, if_neg hcopy]

/-- After a run the copy of a second has what was copied in it last. -/
theorem get?_renewAll_of_isLastCopy (h : store.IsFiled name snapshot folder last text files)
    (hfree : IsFree folder last run files) {seconds : Int} {copied : String}
    (hlast : IsLastCopy (copiesOf snapshot text run) seconds copied) :
    (store.renewAll name run files).get? (folder ++ [copyName last seconds]) =
      some (.file copied) := by
  induction run generalizing text files with
  | nil =>
      obtain ⟨before, after, hnil, -⟩ := hlast
      simp [copiesOf] at hnil
  | cons renewal rest ih =>
      obtain ⟨before, after, hcopies, hafter⟩ := hlast
      obtain ⟨hfiled, hrest, hrun⟩ := h.renewAll_cons hfree
      rw [hrun]
      rw [copiesOf] at hcopies
      cases before with
      | nil =>
          obtain ⟨hcopy, rfl⟩ := List.cons.inj hcopies
          cases hcopy
          rw [map_fst_copiesOf] at hafter
          have hne := (ne_copy h.endsIn folder last renewal.copied.seconds).symm
          have hothers : ∀ other ∈ rest, folder ++ [copyName last renewal.copied.seconds] ≠
              folder ++ [copyName last other.copied.seconds] := by
            intro other hmem heq
            refine hafter (List.mem_map.mpr ⟨other, hmem, ?_⟩)
            exact (copyName_injective (by simpa using heq)).symm
          rw [hfiled.get?_renewAll_of_ne hrest hne hothers,
            h.get?_renewedFiles (hfree renewal List.mem_cons_self), if_neg hne, if_pos rfl]
      | cons copy before =>
          exact ih hfiled hrest ⟨before, after, (List.cons.inj hcopies).2, hafter⟩

theorem replaces_iff (h : store.IsFiled name snapshot folder last text files)
    (hfree : IsFree folder last run files) {replaced : String} :
    store.Replaces name run files replaced ↔ replaced ∈ replacedTexts snapshot text run := by
  induction run generalizing text files with
  | nil => simp [Replaces, replacedTexts]
  | cons renewal rest ih =>
      have hhere := hfree renewal List.mem_cons_self
      obtain ⟨hfiled, hrest, -⟩ := h.renewAll_cons hfree
      rw [Replaces, h.outcome_renew hhere, h.replaced_iff hhere, ih hfiled hrest, replacedTexts]
      split
      · next heq => simp [heq]
      · next hne => simp [hne]

/-- After a run the file has the text of the last update. -/
theorem read_renewAll (h : store.IsFiled name snapshot folder last text files)
    (hfree : IsFree folder last run files) :
    (store.renewAll name run files).read (store.path name) =
      .ok ((run.getLast?.map (renewedText snapshot)).getD text) := by
  induction run generalizing text files with
  | nil => exact h.read_eq
  | cons renewal rest ih =>
      obtain ⟨hfiled, hrest, hrun⟩ := h.renewAll_cons hfree
      rw [hrun, ih hfiled hrest, List.getLast?_cons]
      cases rest.getLast? <;> rfl

/-- The copies after a run: the last one of each of its seconds, and the older ones of which it
writes over none. -/
theorem hasCopy_iff (h : store.IsFiled name snapshot folder last text files)
    (hfree : IsFree folder last run files) {copied : String} :
    store.HasCopy (store.renewAll name run files) copied ↔
      (∃ seconds, IsLastCopy (copiesOf snapshot text run) seconds copied) ∨
        store.HasOlderCopy name run files copied := by
  have hfolders := h.renewAll_folder hfree
  constructor
  · rintro ⟨other, now, hread⟩
    obtain ⟨key, hkey, hentry⟩ := FileTree.read_eq_ok_iff.mp hread
    by_cases hcopied : ∃ renewal ∈ run, key = folder ++ [copyName last renewal.copied.seconds]
    · obtain ⟨renewal, hmem, rfl⟩ := hcopied
      have hseconds : renewal.copied.seconds ∈ (copiesOf snapshot text run).map Prod.fst := by
        rw [map_fst_copiesOf]
        exact List.mem_map_of_mem hmem
      obtain ⟨kept, hlast⟩ := exists_isLastCopy hseconds
      rw [h.get?_renewAll_of_isLastCopy hfree hlast] at hentry
      cases hentry
      exact .inl ⟨_, hlast⟩
    · have hbefore := FileTree.locate_of_foldersStay (fun key => (hfolders key).mp) hkey
      obtain ⟨otherFolder, otherLast, rfl⟩ := exists_eq_of_locate_backupPath hkey
      -- a run writes to the file itself and to its copies, and this copy is neither
      have hne := (ne_copy h.endsIn otherFolder otherLast now.seconds).symm
      rw [h.get?_renewAll_of_ne hfree hne
        fun renewal hmem heq => hcopied ⟨renewal, hmem, heq⟩] at hentry
      refine .inr ⟨other, now, FileTree.read_eq_ok_iff.mpr ⟨_, hbefore, hentry⟩,
        fun renewal hmem heq => hcopied ⟨renewal, hmem, ?_⟩⟩
      rw [hbefore, h.copies] at heq
      exact Except.ok.inj heq
  · rintro (⟨seconds, hlast⟩ | ⟨other, now, hread, hapart⟩)
    · refine ⟨name, ⟨"", seconds, 0⟩, FileTree.read_eq_ok_iff.mpr ⟨_, ?_,
        h.get?_renewAll_of_isLastCopy hfree hlast⟩⟩
      exact FileTree.locate_of_foldersStay (fun key => (hfolders key).mpr) (h.copies _)
    · obtain ⟨key, hkey, hentry⟩ := FileTree.read_eq_ok_iff.mp hread
      refine ⟨other, now, FileTree.read_eq_ok_iff.mpr ⟨_,
        FileTree.locate_of_foldersStay (fun key => (hfolders key).mpr) hkey, ?_⟩⟩
      rw [h.get?_renewAll_of_ne hfree, hentry]
      · obtain ⟨otherFolder, otherLast, rfl⟩ := exists_eq_of_locate_backupPath hkey
        exact (ne_copy h.endsIn otherFolder otherLast now.seconds).symm
      · intro renewal hmem heq
        refine hapart renewal hmem ?_
        rw [hkey, h.copies, heq]

end IsFiled

/-- A run of updates of a snapshot in its own file stores the text of the last one.  It loses no
text exactly if each text that it replaces is what was copied last in some second, or stands in an
older copy that the run does not write over.  In particular it loses none if no two of its updates
fall into one second. -/
theorem keepsTexts_iff (hread : files.read (store.path name) = .ok text)
    (hparse : Snapshot.parse name text = .ok snapshot)
    (hsame : files.locate (store.path snapshot.name) = files.locate (store.path name))
    (hheader : Snapshot.IsHeaderValue snapshot.name)
    (hfree : ∀ renewal ∈ run, files.look (store.backupPath name renewal.copied) ≠ .ok .folder) :
    (store.renewAll name run files).read (store.path name) =
        .ok ((run.getLast?.map (renewedText snapshot)).getD text) ∧
      (store.KeepsTexts name run files ↔
        ∀ replaced ∈ replacedTexts snapshot text run,
          (∃ seconds, IsLastCopy (copiesOf snapshot text run) seconds replaced) ∨
            store.HasOlderCopy name run files replaced) ∧
      ((run.map (·.copied.seconds)).Nodup → store.KeepsTexts name run files) := by
  obtain ⟨folder, last, hfiled⟩ := exists_isFiled hread hparse hsame hheader
  have hfree' : IsFree folder last run files := by
    intro renewal hmem hfolder
    refine hfree renewal hmem ?_
    simp [FileTree.look, hfiled.copies, bind, Except.bind, hfolder, pure, Except.pure]
  have hkeeps : store.KeepsTexts name run files ↔
      ∀ replaced ∈ replacedTexts snapshot text run,
        store.HasCopy (store.renewAll name run files) replaced :=
    forall_congr' fun replaced => imp_congr_left (hfiled.replaces_iff hfree')
  refine ⟨hfiled.read_renewAll hfree', ?_, fun hnodup => hkeeps.mpr fun replaced hmem => ?_⟩
  · rw [hkeeps]
    exact forall₂_congr fun replaced _ => hfiled.hasCopy_iff hfree'
  · obtain ⟨seconds, hcopied⟩ := exists_copy_of_mem_replacedTexts hmem
    rw [← map_fst_copiesOf snapshot text] at hnodup
    exact (hfiled.hasCopy_iff hfree').mpr (.inl ⟨seconds, isLastCopy_of_nodup hnodup hcopied⟩)

/-- A snapshot of the name `a` that was not updated yet. -/
def textWith (content : String) : String :=
  "# name: a\n# description: one\n# created: then\n---\n" ++ content

def oneSnapshot : FileTree :=
  ⟨[(["snapshots"], .folder), (["snapshots", "a.snap"], .file (textWith "first\n"))]⟩

def renewalAt (content : String) (seconds : Int) : Renewal :=
  ⟨content, ⟨"now", seconds, 0⟩, ⟨"now", seconds, 0⟩, show '\n' ∉ "now".toList by decide⟩

/-- Two updates in two seconds lose nothing. -/
theorem keepsTexts_oneSnapshot :
    KeepsTexts ⟨"snapshots"⟩ "a" [renewalAt "second\n" 7, renewalAt "third\n" 8] oneSnapshot := by
  have hparse : Snapshot.parse "a" (textWith "first\n") =
      .ok ⟨"a", some "one", "then", "", "first\n"⟩ := by
    decide +kernel
  have hfree : ∀ renewal ∈ [renewalAt "second\n" 7, renewalAt "third\n" 8],
      oneSnapshot.look (backupPath ⟨"snapshots"⟩ "a" renewal.copied) ≠ .ok .folder := by
    decide +kernel
  exact (keepsTexts_iff (by decide +kernel) hparse rfl ⟨by decide, by decide⟩ hfree).2.2 (by decide)

/-- A snapshot, and another one under the name `b` whose header has the name of the first. -/
def misfiledSnapshots : FileTree :=
  ⟨[(["snapshots"], .folder), (["snapshots", "a.snap"], .file (textWith "first\n")),
    (["snapshots", "b.snap"], .file (textWith "second\n"))]⟩

theorem not_hasCopy {text : String} (h : ∀ entry ∈ files.entries, entry.2 ≠ .file text) :
    ¬ store.HasCopy files text := by
  rintro ⟨name, now, hread⟩
  obtain ⟨key, -, hentry⟩ := FileTree.read_eq_ok_iff.mp hread
  unfold FileTree.get? at hentry
  split at hentry
  · cases hentry
  · obtain ⟨before, after, hentries, -⟩ := List.lookup_eq_some_iff.mp hentry
    exact h (key, .file text) (by simp [hentries]) rfl

/-- The first text is lost if two updates fall into one second, and also if a snapshot is updated
whose header has the name of another one. -/
theorem not_keepsTexts :
    ¬ KeepsTexts ⟨"snapshots"⟩ "a" [renewalAt "second\n" 7, renewalAt "third\n" 7] oneSnapshot ∧
      ¬ KeepsTexts ⟨"snapshots"⟩ "b" [renewalAt "new\n" 7] misfiledSnapshots := by
  constructor
  · intro hkeeps
    refine not_hasCopy ?_ (hkeeps (textWith "first\n") (.inl ⟨"a", ?_, ?_⟩)) <;> decide +kernel
  · intro hkeeps
    refine not_hasCopy ?_ (hkeeps (textWith "first\n") (.inl ⟨"a", ?_, ?_⟩)) <;> decide +kernel

end FormCompiler.SnapshotStore
