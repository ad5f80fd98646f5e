import FormCompiler.Proofs.Testing.Actions
import FormCompiler.Proofs.Testing.SnapshotText
import FormCompiler.Testing.SnapshotStore

/-!
# Snapshots in their files

A snapshot is loaded from the file of a requested name and stored in the file of its own name.  The
principal result is what becomes of an update: the snapshot is found again with its new content, and
all else stays, exactly when both names lead to one file and the name fits the header, or when the
update writes what was already there.
-/

namespace FormCompiler.SnapshotStore

open FileTree (EndsIn EndsOther)

/-! ## Paths -/

theorem getLast?_fileName (name : String) : (fileName name).toList.getLast? = some 'p' := by
  unfold fileName
  dsimp only
  split_ifs with h
  · exact Text.getLast?_of_endsWith (by decide) h
  · rw [String.toList_append, List.getLast?_append,
      show ("." ++ extension).toList.getLast? = some 'p' by decide]
    rfl

/-- The path of a snapshot ends as the extension does. -/
theorem getLast?_path (store : SnapshotStore) (name : String) :
    (store.path name).toList.getLast? = some 'p' :=
  Path.getLast?_join (getLast?_fileName name) store.folder

variable {store : SnapshotStore} {name content : String} {files after : FileTree}
  {snapshot : Snapshot} {now : ClockReading} {key : FileKey}

/-- Snapshots are not stored where cases are. -/
theorem endsOther_path (store : SnapshotStore) (name : String) :
    EndsOther 'n' (store.path name) :=
  ⟨'p', getLast?_path store name, by decide, by decide, by decide⟩

theorem exists_getLast?_signedDecimal (n : Int) :
    ∃ c, (Text.signedDecimal n).toList.getLast? = some c ∧ c.isDigit = true := by
  have hdecimal (n : Nat) :
      ∃ c, (Text.decimal n).toList.getLast? = some c ∧ c.isDigit = true := by
    refine ⟨(Nat.toDigits 10 n).getLast Nat.toDigits_ne_nil, ?_,
      Nat.isDigit_of_mem_toDigits (by decide) (by decide) (List.getLast_mem _)⟩
    rw [Text.decimal, String.toList_ofList, List.getLast?_eq_some_getLast]
  cases n with
  | ofNat n => exact hdecimal n
  | negSucc n =>
      obtain ⟨c, hlast, hdigit⟩ := hdecimal (n + 1)
      refine ⟨c, ?_, hdigit⟩
      rw [Text.signedDecimal, String.toList_append, List.getLast?_append, hlast]
      rfl

/-- The copies of snapshots end in digits. -/
theorem endsOther_backupPath (store : SnapshotStore) (name : String) (now : ClockReading) :
    EndsOther 'n' (store.backupPath name now) := by
  unfold backupPath Path.withExtension
  split
  · exact endsOther_path store name
  · obtain ⟨c, hlast, hdigit⟩ := exists_getLast?_signedDecimal now.seconds
    refine ⟨c, ?_, ?_, ?_, ?_⟩
    · simp only [String.toList_append, List.getLast?_append, hlast, Option.some_or]
    all_goals
      rintro rfl
      exact absurd hdigit (by decide)

/-! ## Loading and storing -/

theorem holds_of_read {text : String} (h : files.read (store.path name) = .ok text) :
    store.holds name files = true := by
  obtain ⟨key, hkey, hentry⟩ := FileTree.read_eq_ok_iff.mp h
  simp [holds, FileTree.contains, FileTree.look, hkey, hentry, bind, Except.bind, pure, Except.pure,
    Except.toOption]

theorem load_of_read {text : String} (h : files.read (store.path name) = .ok text) :
    store.load name files = Snapshot.parse name text := by
  rw [load, if_pos (holds_of_read h), h]

theorem of_load_eq_ok (h : store.load name files = .ok snapshot) :
    ∃ text, files.read (store.path name) = .ok text ∧ Snapshot.parse name text = .ok snapshot := by
  unfold load at h
  split at h
  · split at h
    · next text htext => exact ⟨text, htext, h⟩
    · cases h
  · cases h

/-- A snapshot that was stored is in its file, and every other file is as it was. -/
theorem of_save_eq_ok (h : (store.save snapshot).outcome files = (.ok (), after)) :
    ∃ key, after.locate (store.path snapshot.name) = .ok key ∧
      after.get? key = some (.file snapshot.toText) ∧ FileTree.Keeps (· ≠ key) files after := by
  obtain ⟨_, middle, hparents, hwrite⟩ := FileAction.of_outcome_bind_eq_ok h
  rw [FileAction.outcome_change_eq_ok_iff] at hparents hwrite
  obtain ⟨key, hkey, hentry, hkeeps⟩ := FileTree.of_write_eq_ok hwrite
  exact ⟨key, hkey, hentry,
    ((FileTree.keeps_makeParents hparents).mono fun _ _ => trivial).trans hkeeps⟩

/-- Where a path leads somewhere, nothing but the entry of the file is changed. -/
theorem get?_of_save_eq_ok (hkey : files.locate (store.path snapshot.name) = .ok key)
    (h : (store.save snapshot).outcome files = (.ok (), after)) (other : FileKey) :
    after.get? other = if other = key then some (.file snapshot.toText) else files.get? other := by
  obtain ⟨_, middle, hparents, hwrite⟩ := FileAction.of_outcome_bind_eq_ok h
  rw [FileAction.outcome_change_eq_ok_iff] at hparents hwrite
  rw [FileTree.makeParents_of_locate hkey] at hparents
  cases hparents
  obtain ⟨target, htarget, hfolder, rfl⟩ := FileTree.write_eq_ok hwrite
  rw [hkey] at htarget
  cases htarget
  exact FileTree.get?_insert_of_ne_folder hfolder _ other

/-! ## What the store leaves as it was -/

theorem leaves_save (store : SnapshotStore) (snapshot : Snapshot) :
    FileAction.Leaves (EndsIn 'n') (store.save snapshot) :=
  .bind (.of_makeParents _) fun _ => .of_write (endsOther_path store snapshot.name) _

theorem leaves_create (store : SnapshotStore) (name content : String)
    (description : Option String) (now : ClockReading) :
    FileAction.Leaves (EndsIn 'n') (store.create name content description now) :=
  .bind (leaves_save store _) fun _ => .of_pure _

theorem leaves_update (store : SnapshotStore) (name content : String) (now : ClockReading) :
    FileAction.Leaves (EndsIn 'n') (store.update name content now) :=
  .bind .of_get fun _ => .bind (.of_ofExcept _) fun _ => leaves_save store _

theorem leaves_backup (store : SnapshotStore) (name : String) (now : ClockReading) :
    FileAction.Leaves (EndsIn 'n') (store.backup name now) := by
  refine .bind .of_get fun files => ?_
  split
  · exact .bind (.of_copy (endsOther_backupPath store name now) _) fun _ => .of_pure _
  · exact .of_pure _

/-! ## Updates -/

def renewed (snapshot : Snapshot) (content : String) (now : ClockReading) : Snapshot :=
  { snapshot with content := Snapshot.normalize content, updated := now.stamp }

theorem outcome_update (h : store.load name files = .ok snapshot) :
    (store.update name content now).outcome files =
      (store.save (renewed snapshot content now)).outcome files := by
  unfold update
  rw [FileAction.outcome_get_bind, FileAction.outcome_ofExcept_bind h]
  rfl

/-- The name is found again in a header: its further lines look like header lines, and none of them
is the description of a snapshot that has none. -/
structure IsRecoverable (snapshot : Snapshot) : Prop where
  fits : Snapshot.FitsHeader snapshot.name
  no_description : snapshot.description = none →
    ∀ line ∈ (Text.pieces '\n' snapshot.name.toList).tail, ¬Snapshot.descriptionMark <+: line

/-- A name of one line is found again. -/
theorem isRecoverable_of_not_mem (h : '\n' ∉ snapshot.name.toList) : IsRecoverable snapshot := by
  refine ⟨Snapshot.fitsHeader_of_not_mem h, fun _ => ?_⟩
  rw [Text.pieces_of_not_mem h]
  simp

/-- The text of a snapshot that was read and then renewed gives back content, description and time
of creation exactly when its name is found again. -/
theorem parse_renewed_iff (name : String) (h : Snapshot.HasHeaderValues snapshot)
    (hcontent : Text.occurs ['\r', '\n'] content.toList = false)
    (hstamp : '\n' ∉ now.stamp.toList) :
    (∃ loaded, Snapshot.parse name (renewed snapshot content now).toText = .ok loaded ∧
        loaded.content = content ∧ loaded.description = snapshot.description ∧
        loaded.created = snapshot.created) ↔
      IsRecoverable snapshot := by
  have hsame : Snapshot.normalize content = content := by
    rw [Snapshot.normalize, Text.unifyNewlines_eq_self hcontent, String.ofList_toList]
  have hvalues : Snapshot.HasHeaderValues (renewed snapshot content now) :=
    ⟨h.description, h.created⟩
  have hfits : (∀ line ∈ (renewed snapshot content now).headerLines,
      Snapshot.headerMark <+: line) ↔ Snapshot.FitsHeader snapshot.name := by
    rw [Snapshot.forall_headerLines_iff]
    refine ⟨fun hall => hall.1, fun hname => ⟨hname, fun description hdescription => ?_, ?_, ?_⟩⟩
    · exact Snapshot.fitsHeader_of_not_mem (h.description description hdescription).no_feed
    · exact Snapshot.fitsHeader_of_not_mem h.created.no_feed
    · exact Snapshot.fitsHeader_of_not_mem hstamp
  have hdescription := Snapshot.description_recovered_iff name hvalues hstamp
  constructor
  · rintro ⟨loaded, hloaded, hloadedContent, hloadedDescription, -⟩
    have hlines := Snapshot.exists_parse_toText_iff.mp
      ⟨loaded, hloaded, by simp only [renewed, hsame, hloadedContent]⟩
    rw [Snapshot.parse_toText hlines] at hloaded
    cases hloaded
    exact ⟨hfits.mp hlines, hdescription.mp hloadedDescription⟩
  · rintro ⟨hname, hnone⟩
    refine ⟨_, Snapshot.parse_toText (hfits.mpr hname), ?_, hdescription.mpr hnone,
      Snapshot.created_recovered hvalues hstamp⟩
    simp only [Snapshot.recovered, renewed, hsame]

/-- Where an update changes nothing but the file of the requested name, both names lead to it, or
the update wrote what was there already. -/
theorem of_update_frame {text : String} (hkey : files.locate (store.path name) = .ok key)
    (hentry : files.get? key = some (.file text))
    (hsave : (store.save snapshot).outcome files = (.ok (), after))
    (hframe : ∀ other, other ≠ key → after.get? other = files.get? other) :
    after.locate (store.path name) = .ok key ∧
      (files.locate (store.path snapshot.name) = .ok key ∧
          after.get? key = some (.file snapshot.toText) ∨
        after.get? key = some (.file text) ∧
          files.read (store.path snapshot.name) = .ok snapshot.toText) := by
  obtain ⟨written, hwritten, hnew, hkeeps⟩ := of_save_eq_ok hsave
  refine ⟨FileTree.locate_of_foldersStay hkeeps.folders hkey, ?_⟩
  rcases eq_or_ne key written with rfl | hne
  · exact .inl ⟨FileTree.locate_of_get?_eq hnew hframe hwritten, hnew⟩
  · have hold := hkeeps.files key text hne hentry
    rw [hframe written hne.symm] at hnew
    exact .inr ⟨hold, FileTree.read_eq_ok_iff.mpr
      ⟨written, FileTree.locate_of_get?_eq hold hframe hwritten, hnew⟩⟩

/-- A snapshot that is stored in the file of a name is read from there, and all else stays. -/
theorem of_save_same (hkey : files.locate (store.path name) = .ok key)
    (hsame : files.locate (store.path snapshot.name) = .ok key)
    (hsave : (store.save snapshot).outcome files = (.ok (), after)) :
    after.read (store.path name) = .ok snapshot.toText ∧
      ∀ other, other ≠ key → after.get? other = files.get? other := by
  have hget := get?_of_save_eq_ok hsame hsave
  obtain ⟨written, -, -, hkeeps⟩ := of_save_eq_ok hsave
  exact ⟨FileTree.read_eq_ok_iff.mpr
      ⟨key, FileTree.locate_of_foldersStay hkeeps.folders hkey, (hget key).trans (if_pos rfl)⟩,
    fun other hother => (hget other).trans (if_neg hother)⟩

/-- Storing a text that is there already changes nothing. -/
theorem get?_of_save_stored (hstored : files.read (store.path snapshot.name) = .ok snapshot.toText)
    (hsave : (store.save snapshot).outcome files = (.ok (), after)) (other : FileKey) :
    after.get? other = files.get? other := by
  obtain ⟨written, hwritten, hthere⟩ := FileTree.read_eq_ok_iff.mp hstored
  rw [get?_of_save_eq_ok hwritten hsave]
  split
  · next heq => rw [heq, hthere]
  · rfl

/-- An update gives the snapshot of a name its new content, and leaves its description, its time of
creation and every other file and folder as they are, in two cases only: the name in the header
leads to the same file and is found again in it; or the content is not new, and the file to which
the name in the header leads has the text of the update already. -/
theorem update_iff (hload : store.load name files = .ok snapshot)
    (hcontent : Text.occurs ['\r', '\n'] content.toList = false)
    (hstamp : '\n' ∉ now.stamp.toList)
    (hupdate : (store.update name content now).outcome files = (.ok (), after)) :
    ((∃ loaded, store.load name after = .ok loaded ∧ loaded.content = content ∧
          loaded.description = snapshot.description ∧ loaded.created = snapshot.created) ∧
        ∀ key, files.locate (store.path name) ≠ .ok key → after.get? key = files.get? key) ↔
      (files.locate (store.path snapshot.name) = files.locate (store.path name) ∧
          IsRecoverable snapshot) ∨
        (snapshot.content = content ∧
          files.read (store.path snapshot.name) =
            .ok (renewed snapshot content now).toText) := by
  obtain ⟨text, hread, hparse⟩ := of_load_eq_ok hload
  obtain ⟨key, hkey, hentry⟩ := FileTree.read_eq_ok_iff.mp hread
  have hrenewed := parse_renewed_iff name (Snapshot.hasHeaderValues_of_parse hparse)
    hcontent hstamp
  have hothers : (∀ other, files.locate (store.path name) ≠ .ok other →
      after.get? other = files.get? other) ↔
        ∀ other, other ≠ key → after.get? other = files.get? other := by
    simp only [hkey, ne_eq, Except.ok.injEq, eq_comm]
  rw [outcome_update hload] at hupdate
  rw [hothers]
  constructor
  · rintro ⟨⟨loaded, hloaded, hvalues⟩, hframe⟩
    -- the frame leaves two ways: the file itself was written, or nothing was changed at all
    obtain ⟨hthere, ⟨hsame, hnew⟩ | ⟨hold, hstored⟩⟩ := of_update_frame hkey hentry hupdate hframe
    · rw [load_of_read (FileTree.read_eq_ok_iff.mpr ⟨key, hthere, hnew⟩)] at hloaded
      exact .inl ⟨hsame.trans hkey.symm, hrenewed.mp ⟨loaded, hloaded, hvalues⟩⟩
    · rw [load_of_read (FileTree.read_eq_ok_iff.mpr ⟨key, hthere, hold⟩), hparse] at hloaded
      cases hloaded
      exact .inr ⟨hvalues.1, hstored⟩
  · rintro (⟨hsame, hrecoverable⟩ | ⟨hequal, hstored⟩)
    · obtain ⟨hnew, hframe⟩ := of_save_same hkey
        (show files.locate (store.path (renewed snapshot content now).name) = .ok key from
          hsame.trans hkey) hupdate
      rw [load_of_read hnew]
      exact ⟨hrenewed.mpr hrecoverable, hframe⟩
    · have hget := get?_of_save_stored
        (show files.read (store.path (renewed snapshot content now).name) = _ from hstored) hupdate
      have hthere := FileTree.locate_of_foldersStay
        (fun other hother => (hget other).trans hother) hkey
      refine ⟨⟨snapshot, ?_, hequal, rfl, rfl⟩, fun other _ => hget other⟩
      rw [load_of_read (FileTree.read_eq_ok_iff.mpr ⟨key, hthere, (hget key).trans hentry⟩),
        hparse]

/-- The text of a snapshot of the name `a`. -/
def copiedText : String := "# name: a\n# description: one\n# created: then\n---\nold\n"

/-- A snapshot, and a copy of its file under the name `b`. -/
def copiedSnapshots : FileTree :=
  ⟨[(["snapshots"], .folder), (["snapshots", "a.snap"], .file copiedText),
    (["snapshots", "b.snap"], .file copiedText)]⟩

/-- Under its own name the snapshot is updated, and its copy stays. -/
theorem update_iff_copiedSnapshots :
    (∃ loaded,
        load ⟨"snapshots"⟩ "a"
          ((update ⟨"snapshots"⟩ "a" "new\n" ⟨"now", 0, 0⟩).outcome copiedSnapshots).2 =
            .ok loaded ∧
          loaded.content = "new\n" ∧ loaded.description = some "one" ∧ loaded.created = "then") ∧
      ∀ key, copiedSnapshots.locate (path ⟨"snapshots"⟩ "a") ≠ .ok key →
        ((update ⟨"snapshots"⟩ "a" "new\n" ⟨"now", 0, 0⟩).outcome copiedSnapshots).2.get? key =
          copiedSnapshots.get? key := by
  have hload : load ⟨"snapshots"⟩ "a" copiedSnapshots =
      .ok ⟨"a", some "one", "then", "", "old\n"⟩ := by
    decide +kernel
  have hdone : ((update ⟨"snapshots"⟩ "a" "new\n" ⟨"now", 0, 0⟩).outcome copiedSnapshots).1 =
      .ok () := by
    decide +kernel
  exact (update_iff hload (by decide) (by decide) (Prod.ext hdone rfl)).mpr
    (.inl ⟨rfl, isRecoverable_of_not_mem (by decide)⟩)

/-- Under the name of the copy the update succeeds as well.  The copy stays what it was, and the
snapshot that was not asked for has the new content. -/
theorem update_copiedSnapshots :
    ((update ⟨"snapshots"⟩ "b" "new\n" ⟨"now", 0, 0⟩).outcome copiedSnapshots).1 = .ok () ∧
      (load ⟨"snapshots"⟩ "b"
          ((update ⟨"snapshots"⟩ "b" "new\n" ⟨"now", 0, 0⟩).outcome copiedSnapshots).2).map
        Snapshot.content = .ok "old\n" ∧
      (load ⟨"snapshots"⟩ "a"
          ((update ⟨"snapshots"⟩ "b" "new\n" ⟨"now", 0, 0⟩).outcome copiedSnapshots).2).map
        Snapshot.content = .ok "new\n" := by
  refine ⟨?_, ?_, ?_⟩ <;> decide +kernel

end FormCompiler.SnapshotStore
