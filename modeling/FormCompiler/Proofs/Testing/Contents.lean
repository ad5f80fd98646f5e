import FormCompiler.Proofs.Testing.SnapshotStore

/-!
# Contents that are read back

The line ends of a content are unified when it is stored, and again when it is loaded.  The second
time changes nothing unless two carriage returns stood before a line feed.  The principal result
says when a stored content is loaded as it was stored: after a snapshot is made, after it is
updated, and after it is updated with what was loaded.
-/

namespace FormCompiler

/-! ## Unified contents -/

namespace Snapshot

theorem normalize_eq_iff {text content : String} :
    normalize text = content ↔ Text.unifyNewlines text.toList = content.toList := by
  rw [← String.toList_inj, normalize, String.toList_ofList]

theorem normalize_normalize_iff {content : String} :
    normalize (normalize content) = normalize content ↔
      ¬['\r', '\r', '\n'] <:+: content.toList := by
  rw [normalize_eq_iff, normalize, String.toList_ofList, Text.unifyNewlines_idempotent_iff]

theorem normalize_normalize_eq_iff {content : String} :
    normalize (normalize content) = content ↔ ¬['\r', '\n'] <:+: content.toList := by
  rw [normalize_eq_iff, normalize, String.toList_ofList, Text.unifyNewlines_unifyNewlines_eq_iff]

/-- Every value of the header is of one line. -/
structure HasOneLineValues (snapshot : Snapshot) : Prop where
  name : '\n' ∉ snapshot.name.toList
  description : ∀ description, snapshot.description = some description → '\n' ∉ description.toList
  created : '\n' ∉ snapshot.created.toList
  updated : '\n' ∉ snapshot.updated.toList

namespace HasOneLineValues

variable {snapshot loaded : Snapshot} {fallback : String}

theorem forall_headerLines (h : HasOneLineValues snapshot) :
    ∀ line ∈ snapshot.headerLines, headerMark <+: line := by
  refine forall_headerLines_iff.mpr ⟨?_, ?_, ?_, ?_⟩
  · exact fitsHeader_of_not_mem h.name
  · exact fun description hdescription =>
      fitsHeader_of_not_mem (h.description description hdescription)
  · exact fitsHeader_of_not_mem h.created
  · exact fitsHeader_of_not_mem h.updated

/-- Behind such a header the content is found, its line ends unified. -/
theorem exists_parse (h : HasOneLineValues snapshot) (fallback : String) :
    ∃ loaded, parse fallback snapshot.toText = .ok loaded ∧
      loaded.content = normalize snapshot.content :=
  exists_parse_toText_iff.mpr h.forall_headerLines

/-- The name is found without the returns at its end. -/
theorem name_of_parse (h : HasOneLineValues snapshot)
    (hloaded : parse fallback snapshot.toText = .ok loaded) :
    loaded.name = String.ofList (dropReturns snapshot.name.toList) := by
  rw [parse_toText h.forall_headerLines] at hloaded
  cases hloaded
  unfold recovered headerLines
  cases hdescription : snapshot.description with
  | none =>
      rw [List.append_nil, List.foldl_append, List.foldl_append,
        foldl_entryLines (by decide) h.name, foldl_entryLines (by decide) h.created,
        foldl_entryLines (by decide) h.updated]
      rfl
  | some description =>
      rw [List.foldl_append, List.foldl_append, List.foldl_append,
        foldl_entryLines (by decide) h.name,
        foldl_entryLines (by decide) (h.description description hdescription),
        foldl_entryLines (by decide) h.created, foldl_entryLines (by decide) h.updated]
      rfl

end HasOneLineValues

/-- A name is read from one line, or it is the given one. -/
theorem feed_not_mem_name_of_parse {fallback text : String} {loaded : Snapshot}
    (hfallback : '\n' ∉ fallback.toList) (h : parse fallback text = .ok loaded) :
    '\n' ∉ loaded.name.toList := by
  refine parseLines_induction (P := fun snapshot => '\n' ∉ snapshot.name.toList) ?_
    (fun _ hname => hname) hfallback (fun _ => Text.not_mem_of_mem_pieces) h
  intro snapshot key value hname hvalue
  unfold setHeader
  split_ifs
  · exact hvalue.no_feed
  all_goals exact hname

end Snapshot

namespace SnapshotStore

variable {store : SnapshotStore} {name content : String} {files after : FileTree}
  {snapshot : Snapshot} {now : ClockReading}

/-- The content that the snapshot of a name is loaded with. -/
def loadedContent (store : SnapshotStore) (name : String) (files : FileTree) :
    Except TestError String :=
  (store.load name files).map Snapshot.content

theorem loadedContent_of_load (h : store.load name files = .ok snapshot) :
    store.loadedContent name files = .ok snapshot.content := by
  rw [loadedContent, h]
  rfl

/-- What was stored in the file of a name is loaded, its line ends unified. -/
theorem loadedContent_of_read (hread : files.read (store.path name) = .ok snapshot.toText)
    (hvalues : snapshot.HasOneLineValues) :
    store.loadedContent name files = .ok (Snapshot.normalize snapshot.content) := by
  obtain ⟨loaded, hloaded, hcontent⟩ := hvalues.exists_parse name
  rw [← hcontent]
  exact loadedContent_of_load ((load_of_read hread).trans hloaded)

/-! ## Snapshots that are made -/

theorem of_create_eq_ok {description : Option String}
    (h : (store.create name content description now).outcome files = (.ok snapshot, after)) :
    snapshot = ⟨name, description, now.stamp, now.stamp, Snapshot.normalize content⟩ ∧
      (store.save snapshot).outcome files = (.ok (), after) := by
  unfold create at h
  obtain ⟨_, middle, hsave, hpure⟩ := FileAction.of_outcome_bind_eq_ok h
  rw [FileAction.outcome_pure, Prod.mk.injEq, Except.ok.injEq] at hpure
  obtain ⟨rfl, rfl⟩ := hpure
  exact ⟨rfl, hsave⟩

theorem loadedContent_create {description : Option String} (hname : '\n' ∉ name.toList)
    (hdescription : ∀ text, description = some text → '\n' ∉ text.toList)
    (hstamp : '\n' ∉ now.stamp.toList)
    (h : (store.create name content description now).outcome files = (.ok snapshot, after)) :
    store.loadedContent name after =
      .ok (Snapshot.normalize (Snapshot.normalize content)) := by
  obtain ⟨rfl, hsave⟩ := of_create_eq_ok h
  obtain ⟨key, hkey, hentry, -⟩ := of_save_eq_ok hsave
  have hloaded := loadedContent_of_read (FileTree.read_eq_ok_iff.mpr ⟨key, hkey, hentry⟩)
    ⟨hname, hdescription, hstamp, hstamp⟩
  exact hloaded

/-! ## Snapshots that are updated -/

/-- What was loaded has values of one line, the name too if it was asked for in one line. -/
theorem hasOneLineValues_renewed (hname : '\n' ∉ name.toList) (hstamp : '\n' ∉ now.stamp.toList)
    (hload : store.load name files = .ok snapshot) :
    (renewed snapshot content now).HasOneLineValues := by
  obtain ⟨text, -, hparse⟩ := of_load_eq_ok hload
  have hvalues := Snapshot.hasHeaderValues_of_parse hparse
  have hloaded := Snapshot.feed_not_mem_name_of_parse hname hparse
  exact ⟨hloaded,
    fun description hdescription => (hvalues.description description hdescription).no_feed,
    hvalues.created.no_feed, hstamp⟩

/-- An update that went to the file of the requested name is loaded from there.  One that went to
another file left that one as it was. -/
theorem loadedContent_update (hname : '\n' ∉ name.toList) (hstamp : '\n' ∉ now.stamp.toList)
    (hload : store.load name files = .ok snapshot)
    (h : (store.update name content now).outcome files = (.ok (), after)) :
    store.loadedContent name after =
      if after.locate (store.path snapshot.name) = after.locate (store.path name) then
        .ok (Snapshot.normalize (Snapshot.normalize content))
      else .ok snapshot.content := by
  obtain ⟨text, hread, hparse⟩ := of_load_eq_ok hload
  obtain ⟨key, hkey, hentry⟩ := FileTree.read_eq_ok_iff.mp hread
  rw [outcome_update hload] at h
  obtain ⟨written, hwritten, hnew, hkeeps⟩ := of_save_eq_ok h
  have hthere := FileTree.locate_of_foldersStay hkeeps.folders hkey
  have hsame : after.locate (store.path snapshot.name) = after.locate (store.path name) ↔
      written = key := by
    rw [show after.locate (store.path snapshot.name) = .ok written from hwritten, hthere,
      Except.ok.injEq]
  split
  · next hlocate =>
    have hread := FileTree.read_eq_ok_iff.mpr ⟨key, hthere, hsame.mp hlocate ▸ hnew⟩
    have hloaded := loadedContent_of_read hread (hasOneLineValues_renewed hname hstamp hload)
    exact hloaded
  · next hlocate =>
    have hentry := hkeeps.files key text (fun heq => hlocate (hsame.mpr heq.symm)) hentry
    have hread := FileTree.read_eq_ok_iff.mpr ⟨key, hthere, hentry⟩
    exact loadedContent_of_load ((load_of_read hread).trans hparse)

/-- Contents of snapshots are loaded as they were stored, with these exceptions.  A content with two
carriage returns before a line feed has still one after it was stored, and that one is dropped when
it is loaded.  An update under a name that is not the one in the header goes to another file. -/
theorem loadedContent_iff {store : SnapshotStore} {name : String} {files : FileTree}
    {now : ClockReading} (hname : '\n' ∉ name.toList) (hstamp : '\n' ∉ now.stamp.toList)
    (content : String) :
    (∀ {description snapshot after}, (∀ text, description = some text → '\n' ∉ text.toList) →
        (store.create name content description now).outcome files = (.ok snapshot, after) →
        snapshot.content = Snapshot.normalize content ∧
          (store.loadedContent name after = .ok snapshot.content ↔
            ¬['\r', '\r', '\n'] <:+: content.toList)) ∧
      (∀ {snapshot after}, store.load name files = .ok snapshot →
        (store.update name content now).outcome files = (.ok (), after) →
        (store.loadedContent name after = .ok (Snapshot.normalize content) ↔
          if after.locate (store.path snapshot.name) = after.locate (store.path name) then
            ¬['\r', '\r', '\n'] <:+: content.toList
          else snapshot.content = Snapshot.normalize content)) ∧
      (∀ {snapshot after}, store.load name files = .ok snapshot →
        (store.update name snapshot.content now).outcome files = (.ok (), after) →
        (store.loadedContent name after = .ok snapshot.content ↔
          (after.locate (store.path snapshot.name) = after.locate (store.path name) →
            ¬['\r', '\n'] <:+: snapshot.content.toList))) := by
  refine ⟨?_, ?_, ?_⟩
  · intro description snapshot after hdescription hcreate
    obtain ⟨hsnapshot, -⟩ := of_create_eq_ok hcreate
    have hcontent : snapshot.content = Snapshot.normalize content := by rw [hsnapshot]
    refine ⟨hcontent, ?_⟩
    rw [loadedContent_create hname hdescription hstamp hcreate, hcontent, Except.ok.injEq,
      Snapshot.normalize_normalize_iff]
  · intro snapshot after hload hupdate
    rw [loadedContent_update hname hstamp hload hupdate]
    split
    · rw [Except.ok.injEq, Snapshot.normalize_normalize_iff]
    · rw [Except.ok.injEq]
  · intro snapshot after hload hupdate
    rw [loadedContent_update hname hstamp hload hupdate]
    split
    · next hsame =>
      rw [Except.ok.injEq, Snapshot.normalize_normalize_eq_iff, forall_prop_of_true hsame]
    · next hother => simp [hother]

/-- The files after a snapshot of the name `a` was made where nothing was. -/
def madeFiles (content : String) : FileTree :=
  ((create ⟨"snapshots"⟩ "a" content none ⟨"now", 0, 0⟩).outcome .empty).2

def updatedFiles (content : String) (files : FileTree) : FileTree :=
  ((update ⟨"snapshots"⟩ "a" content ⟨"now", 0, 0⟩).outcome files).2

/-- A single carriage return stays wherever it stands, and an update with the loaded content
changes nothing. -/
theorem loadedContent_iff_mixedLineEnds :
    loadedContent ⟨"snapshots"⟩ "a" (madeFiles "one\r\n\rtwo\r") = .ok "one\n\rtwo\r" ∧
      loadedContent ⟨"snapshots"⟩ "a" (updatedFiles "\r\n\r" copiedSnapshots) = .ok "\n\r" ∧
      loadedContent ⟨"snapshots"⟩ "a" (updatedFiles "old\n" copiedSnapshots) = .ok "old\n" := by
  have hmade : (create ⟨"snapshots"⟩ "a" "one\r\n\rtwo\r" none ⟨"now", 0, 0⟩).outcome .empty =
      (.ok ⟨"a", none, "now", "now", "one\n\rtwo\r"⟩, madeFiles "one\r\n\rtwo\r") := by
    refine Prod.ext (by decide +kernel) ?_
    simp only [madeFiles]
  have hload : load ⟨"snapshots"⟩ "a" copiedSnapshots =
      .ok ⟨"a", some "one", "then", "", "old\n"⟩ := by
    decide +kernel
  have hupdated : (update ⟨"snapshots"⟩ "a" "\r\n\r" ⟨"now", 0, 0⟩).outcome copiedSnapshots =
      (.ok (), updatedFiles "\r\n\r" copiedSnapshots) := by
    refine Prod.ext (by decide +kernel) ?_
    simp only [updatedFiles]
  have hagain : (update ⟨"snapshots"⟩ "a" "old\n" ⟨"now", 0, 0⟩).outcome copiedSnapshots =
      (.ok (), updatedFiles "old\n" copiedSnapshots) := by
    refine Prod.ext (by decide +kernel) ?_
    simp only [updatedFiles]
  have hname : '\n' ∉ "a".toList := by decide
  have hstamp : '\n' ∉ (ClockReading.mk "now" 0 0).stamp.toList := by decide
  have hreturns : ¬['\r', '\r', '\n'] <:+: "\r\n\r".toList := by decide +kernel
  refine ⟨?_, ?_, ?_⟩
  · obtain ⟨-, hloaded⟩ := (loadedContent_iff hname hstamp "one\r\n\rtwo\r").1 (by simp) hmade
    exact hloaded.mpr (by decide +kernel)
  · have hloaded := (loadedContent_iff hname hstamp "\r\n\r").2.1 hload hupdated
    exact hloaded.mpr (by simpa only [if_true] using hreturns)
  · have hloaded := (loadedContent_iff hname hstamp "old\n").2.2 hload hagain
    exact hloaded.mpr fun _ => by decide +kernel

/-- A snapshot whose content has two carriage returns before a line feed. -/
def returnedSnapshot : FileTree :=
  ⟨[(["snapshots"], .folder), (["snapshots", "a.snap"], .file "# name: a\n---\n\r\r\n")]⟩

/-- Of two carriage returns before a line feed one is stored, and none is loaded; an update with
what was loaded changes it once more. -/
theorem loadedContent_twoReturns :
    ((create ⟨"snapshots"⟩ "a" "\r\r\n" none ⟨"now", 0, 0⟩).outcome .empty).1 =
        .ok ⟨"a", none, "now", "now", "\r\n"⟩ ∧
      loadedContent ⟨"snapshots"⟩ "a" (madeFiles "\r\r\n") = .ok "\n" ∧
      Snapshot.normalize "\r\r\n" = "\r\n" ∧
      loadedContent ⟨"snapshots"⟩ "a" (updatedFiles "\r\r\n" copiedSnapshots) = .ok "\n" ∧
      loadedContent ⟨"snapshots"⟩ "a" returnedSnapshot = .ok "\r\n" ∧
      loadedContent ⟨"snapshots"⟩ "a" (updatedFiles "\r\n" returnedSnapshot) = .ok "\n" := by
  refine ⟨?_, ?_, ?_, ?_, ?_, ?_⟩ <;> decide +kernel

end SnapshotStore

end FormCompiler
