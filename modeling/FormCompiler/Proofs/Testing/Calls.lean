import FormCompiler.Proofs.Testing.Contents
import FormCompiler.Proofs.Testing.Listing
import FormCompiler.Proofs.Testing.SnapshotFormat

/-!
# Runs of calls on the store

A run makes, updates, removes and copies snapshots in any order, and goes on after a call that
fails.  The principal result is what is listed after a run: no copy; and each name once and leading
back to its file, exactly when no listed file has a misleading name.  None has if there was no file
before and no snapshot was made under such a name.
-/

namespace FormCompiler.SnapshotStore

open FileTree (Adds FoldersStay)

/-! ## Calls -/

/-- What can be asked of the store. -/
inductive Call where
  | create (name content : String) (description : Option String) (now : ClockReading)
  | update (name content : String) (now : ClockReading)
  | delete (name : String)
  | backup (name : String) (now : ClockReading)

def perform (store : SnapshotStore) : Call → FileAction Unit
  | .create name content description now => do
      let _ ← store.create name content description now
  | .update name content now => store.update name content now
  | .delete name => store.delete name
  | .backup name now => do
      let _ ← store.backup name now

/-- The files after a run of calls.  One that fails leaves what it has done. -/
def performAll (store : SnapshotStore) : List Call → FileTree → FileTree
  | [], files => files
  | call :: rest, files => performAll store rest ((store.perform call).outcome files).2

variable {store : SnapshotStore} {files after : FileTree} {name content : String}
  {snapshot : Snapshot} {now : ClockReading} {key : FileKey}

/-- What each call maintains holds after a run. -/
theorem performAll_induction {P : FileTree → Prop} {calls : List Call}
    (hstep : ∀ call ∈ calls, FileAction.Maintains P (store.perform call)) (h : P files) :
    P (store.performAll calls files) := by
  induction calls generalizing files with
  | nil => exact h
  | cons call rest ih =>
      apply ih
      · exact fun other hother => hstep other (List.mem_cons_of_mem call hother)
      · exact hstep call List.mem_cons_self files h

/-! Calls that store no new text maintain what their operation on the files maintains. -/

theorem maintains_delete {P : FileTree → Prop} (store : SnapshotStore) (name : String)
    (hremove : ∀ {files after}, files.remove (store.path name) = .ok after → P files → P after) :
    FileAction.Maintains P (store.delete name) := by
  refine .bind .of_get fun files => ?_
  split
  · exact .of_change hremove
  · exact .of_pure _

theorem maintains_backup {P : FileTree → Prop} (store : SnapshotStore) (name : String)
    (now : ClockReading) (hcopy : ∀ {files after},
      files.copy (store.path name) (store.backupPath name now) = .ok after → P files → P after) :
    FileAction.Maintains P (store.backup name now) := by
  refine .bind .of_get fun files => ?_
  split
  · exact .bind (.of_change hcopy) fun _ => .of_pure _
  · exact .of_pure _

/-! ## Well-formed files -/

theorem maintains_save (store : SnapshotStore) (snapshot : Snapshot) :
    FileAction.Maintains FileTree.IsWellFormed (store.save snapshot) :=
  .bind (.of_change fun hmade h => h.makeParents hmade) fun _ =>
    .of_change fun hwrite h => h.write hwrite

/-- Every call leaves well-formed files. -/
theorem maintains_perform (store : SnapshotStore) (call : Call) :
    FileAction.Maintains FileTree.IsWellFormed (store.perform call) := by
  cases call with
  | create name content description now =>
      exact .bind (.bind (maintains_save store _) fun _ => .of_pure _) fun _ => .of_pure _
  | update name content now =>
      exact .bind .of_get fun _ => .bind (.of_ofExcept _) fun _ => maintains_save store _
  | delete name => exact maintains_delete store name fun hremove h => h.remove hremove
  | backup name now =>
      exact .bind (maintains_backup store name now fun hcopy h => h.copy hcopy) fun _ => .of_pure _

theorem isWellFormed_performAll (hfiles : files.IsWellFormed) (calls : List Call) :
    (store.performAll calls files).IsWellFormed :=
  performAll_induction (fun call _ => maintains_perform store call) hfiles

/-! ## Names that do not mislead -/

def headerName (name : String) : String := String.ofList (Snapshot.dropReturns name.toList)

/-- The name is one line and no path from the root, and it does not mislead once it is read. -/
structure IsClearName (name : String) : Prop where
  one_line : '\n' ∉ name.toList
  relative : Path.isAbsolute name = false
  clear : ¬Misleads (Path.lastPart (headerName name))

theorem headerName_headerName (name : String) : headerName (headerName name) = headerName name := by
  unfold headerName
  rw [String.toList_ofList, Snapshot.dropReturns_eq_self (Snapshot.getLast?_dropReturns _)]

/-- What does not mislead once it is read does not mislead before, for a name with a return at its
end never does. -/
theorem not_misleads_of_headerName (h : ¬Misleads (Path.lastPart (headerName name))) :
    ¬Misleads (Path.lastPart name) := by
  by_cases hreturn : name.toList.getLast? = some '\r'
  · intro hmisleads
    have hlast := Path.getLast?_lastPart hreturn (by decide)
    rcases hmisleads.getLast? with hother | hother
    · rw [hlast] at hother
      cases hother
    · rw [hlast] at hother
      cases hother
  · have hsame : headerName name = name := by
      rw [headerName, Snapshot.dropReturns_eq_self hreturn, String.ofList_toList]
    rwa [hsame] at h

/-- What a call stores is of one line, and a new snapshot has a name that does not mislead. -/
def Call.IsClear : Call → Prop
  | .create name _ description now =>
      IsClearName name ∧ (∀ text, description = some text → '\n' ∉ text.toList) ∧
        '\n' ∉ now.stamp.toList
  | .update _ _ now => '\n' ∉ now.stamp.toList
  | .delete _ => True
  | .backup _ _ => True

/-- The file has a name that does not mislead, and the text of a snapshot whose name, once it is
read, does not mislead either. -/
structure IsClearFile (key : FileKey) (text : String) : Prop where
  file : ∀ file, key.getLast? = some file → ¬Misleads file
  header : ∃ snapshot : Snapshot, snapshot.HasOneLineValues ∧ text = snapshot.toText ∧
    ¬Misleads (Path.lastPart (headerName snapshot.name))

/-- There is a file somewhere. -/
def HasFiles (files : FileTree) : Prop := ∃ key text, files.get? key = some (.file text)

/-- The folder of the store is there, if it has a path at all. -/
def HasFolder (store : SnapshotStore) (files : FileTree) : Prop :=
  store.folder ≠ "" →
    ∃ folder, files.locate store.folder = .ok folder ∧ files.get? folder = some .folder

/-- No file of the tree misleads; and where a file is, the folder of the store is there. -/
structure IsClearTree (store : SnapshotStore) (files : FileTree) : Prop where
  clear : ∀ key text, files.get? key = some (.file text) → IsClearFile key text
  folder : HasFiles files → store.HasFolder files

theorem getLast?_of_locate_path (hlocate : files.locate (store.path name) = .ok key) :
    key.getLast? = some (fileName (Path.lastPart name)) := by
  obtain ⟨lead, hpath⟩ := exists_endsInName_path store name
  obtain ⟨folder, -, rfl⟩ := (FileTree.locate_eq_ok_iff hpath).mp hlocate
  exact List.getLast?_concat

/-- The file of a name that does not mislead does not mislead. -/
theorem isClearFile_path (hlocate : files.locate (store.path snapshot.name) = .ok key)
    (hvalues : snapshot.HasOneLineValues)
    (hclear : ¬Misleads (Path.lastPart (headerName snapshot.name))) :
    IsClearFile key snapshot.toText := by
  refine ⟨fun file hfile => ?_, snapshot, hvalues, rfl, hclear⟩
  rw [getLast?_of_locate_path hlocate, Option.some.injEq] at hfile
  rw [← hfile, misleads_fileName_iff]
  exact not_misleads_of_headerName hclear

/-- A copy does not mislead, for it ends in a digit. -/
theorem isClearFile_backupPath {source : FileKey} {text : String}
    (hlocate : files.locate (store.backupPath name now) = .ok key)
    (htext : IsClearFile source text) : IsClearFile key text := by
  refine ⟨fun file hfile => ?_, htext.header⟩
  obtain ⟨folder, last, rfl⟩ := exists_eq_of_locate_backupPath hlocate
  rw [List.getLast?_concat, Option.some.injEq] at hfile
  subst hfile
  intro hmisleads
  obtain ⟨c, hc, hdigit⟩ := exists_getLast?_copyExtension now.seconds
  have hlast : (copyName last now.seconds).toList.getLast? = some c := by
    rw [copyName, String.toList_append, List.getLast?_append, hc]
    rfl
  rcases hmisleads.getLast? with hother | hother
  all_goals
    rw [hlast] at hother
    cases hother
    exact absurd hdigit (by decide)

theorem HasFolder.mono (h : store.HasFolder files) (hstay : FoldersStay files after) :
    store.HasFolder after := by
  intro hne
  obtain ⟨folder, hlocate, hget⟩ := h hne
  exact ⟨folder, FileTree.locate_of_foldersStay hstay hlocate, hstay folder hget⟩

namespace IsClearTree

/-- Files that do not mislead may be added where the folder of the store is there. -/
theorem of_adds (h : store.IsClearTree files) (hadds : Adds IsClearFile files after)
    (hfolder : HasFiles after → HasFiles files ∨ store.HasFolder after) :
    store.IsClearTree after := by
  refine ⟨fun key text hfile => ?_, fun hsome => ?_⟩
  · exact (hadds.files key text hfile).elim (h.clear key text) id
  · exact (hfolder hsome).elim (fun hbefore => (h.folder hbefore).mono hadds.folders) id

theorem makeParents {path : String} (h : store.IsClearTree files)
    (hmade : files.makeParents path = .ok after) : store.IsClearTree after := by
  apply h.of_adds (FileTree.adds_makeParents hmade)
  rintro ⟨key, text, hfile⟩
  have hadds : Adds (fun _ _ => False) files after := FileTree.adds_makeParents hmade
  exact .inl ⟨key, text, (hadds.files key text hfile).resolve_right id⟩

theorem remove {path : String} (h : store.IsClearTree files)
    (hremove : files.remove path = .ok after) : store.IsClearTree after := by
  apply h.of_adds (FileTree.adds_remove hremove)
  obtain ⟨key, text, hfile, -⟩ := FileTree.remove_eq_ok hremove
  exact fun _ => .inl ⟨key, text, hfile⟩

/-- A snapshot with a name that does not mislead may be stored, below the folder of the store unless
there are files. -/
theorem save (h : store.IsClearTree files) (hvalues : snapshot.HasOneLineValues)
    (hclear : ¬Misleads (Path.lastPart (headerName snapshot.name)))
    (hfolder : HasFiles files ∨ Path.isAbsolute snapshot.name = false) :
    store.IsClearTree ((store.save snapshot).outcome files).2 := by
  unfold SnapshotStore.save
  dsimp only
  rw [FileAction.outcome_bind, FileAction.outcome_change]
  cases hmade : files.makeParents (store.path snapshot.name) with
  | error error => exact h
  | ok middle =>
      dsimp only
      rw [FileAction.outcome_change]
      cases hwrite : middle.write (store.path snapshot.name) snapshot.toText with
      | error error => exact h.makeParents hmade
      | ok after =>
          have hadds : Adds IsClearFile middle after := FileTree.adds_write hwrite
            fun key hlocate => isClearFile_path hlocate hvalues hclear
          apply (h.makeParents hmade).of_adds hadds
          intro _
          rcases hfolder with ⟨key, text, hfile⟩ | hrelative
          · exact .inl ⟨key, text, (FileTree.keeps_makeParents hmade).files key text trivial hfile⟩
          · obtain ⟨key, hlocate, -⟩ := FileTree.of_write_eq_ok hwrite
            exact .inr fun hne => FileTree.exists_folder_of_locate_join hne
              (isAbsolute_fileName hrelative) hlocate

/-- What is loaded has a name that does not mislead. -/
theorem of_load (h : store.IsClearTree files) (hload : store.load name files = .ok snapshot) :
    snapshot.HasReadHeader ∧ ¬Misleads (Path.lastPart (headerName snapshot.name)) ∧
      HasFiles files := by
  obtain ⟨text, hread, hparse⟩ := of_load_eq_ok hload
  obtain ⟨key, -, hfile⟩ := FileTree.read_eq_ok_iff.mp hread
  obtain ⟨stored, hvalues, rfl, hclear⟩ := (h.clear key text hfile).header
  refine ⟨Snapshot.hasReadHeader_of_parse_toText hparse, ?_, key, _, hfile⟩
  rw [hvalues.name_of_parse hparse]
  change ¬Misleads (Path.lastPart (headerName (headerName stored.name)))
  rwa [headerName_headerName]

theorem update (h : store.IsClearTree files) (hstamp : '\n' ∉ now.stamp.toList) :
    store.IsClearTree ((store.update name content now).outcome files).2 := by
  cases hload : store.load name files with
  | error error =>
      unfold SnapshotStore.update
      rw [FileAction.outcome_get_bind, hload, FileAction.outcome_bind_of_error
        (FileAction.outcome_ofExcept _ _)]
      exact h
  | ok snapshot =>
      obtain ⟨hheader, hclear, hsome⟩ := h.of_load hload
      have hvalues : (renewed snapshot content now).HasOneLineValues :=
        ⟨hheader.name.no_feed,
          fun description hdescription => (hheader.description description hdescription).no_feed,
          hheader.created.no_feed, hstamp⟩
      rw [outcome_update hload]
      exact h.save hvalues hclear (.inl hsome)

theorem copy {path : String} (h : store.IsClearTree files)
    (hcopy : files.copy path (store.backupPath name now) = .ok after) :
    store.IsClearTree after := by
  obtain ⟨text, hread, hwrite⟩ := FileTree.of_copy_eq_ok hcopy
  obtain ⟨source, -, hfile⟩ := FileTree.read_eq_ok_iff.mp hread
  have hadds : Adds IsClearFile files after := FileTree.adds_write hwrite
    fun key hlocate => isClearFile_backupPath hlocate (h.clear source text hfile)
  exact h.of_adds hadds fun _ => .inl ⟨source, text, hfile⟩

/-- A clear call leaves a tree in which no file misleads. -/
theorem maintains_perform {call : Call} (hcall : call.IsClear) :
    FileAction.Maintains (store.IsClearTree) (store.perform call) := by
  cases call with
  | create name content description now =>
      obtain ⟨hname, hdescription, hstamp⟩ := hcall
      refine .bind (.bind (fun files h => ?_) fun _ => .of_pure _) fun _ => .of_pure _
      exact h.save ⟨hname.one_line, hdescription, hstamp, hstamp⟩ hname.clear (.inr hname.relative)
  | update name content now => exact fun files h => h.update hcall
  | delete name => exact maintains_delete store name fun hremove h => h.remove hremove
  | backup name now =>
      exact .bind (maintains_backup store name now fun hcopy h => h.copy hcopy) fun _ => .of_pure _

/-- Where no file misleads, the listing is faithful. -/
theorem listsFaithfully (h : store.IsClearTree files) (hfiles : files.IsWellFormed) :
    store.ListsFaithfully files := by
  refine (listsFaithfully_iff hfiles).mpr fun key name hlists => ⟨?_, ?_⟩
  · intro hempty
    rcases hlists.cases hfiles with ⟨-, hlocate, content, hfile⟩ |
      ⟨folder, names, file, stem, hlisted, -, hname⟩
    · have hne : store.folder ≠ "" := by
        intro hnil
        rw [hnil] at hlocate
        cases hlocate
      obtain ⟨folder, hthere, hfolder⟩ := h.folder ⟨key, content, hfile⟩ hne
      rw [hlocate, Except.ok.injEq] at hthere
      rw [hthere, hfolder] at hfile
      cases hfile
    · exact hlisted.name_ne_empty (hname.symm.trans hempty)
  · obtain ⟨content, hfile⟩ := hlists.exists_content hfiles
    exact (h.clear key content hfile).file

end IsClearTree

/-! ## Listings after runs -/

/-- After any run no copy of a snapshot is listed.  The listing is faithful exactly when no listed
file is the folder itself or has a misleading name.  It is faithful after every run from a tree
without files in which no new snapshot has a misleading name. -/
theorem listsFaithfully_performAll_iff {files : FileTree} (hfiles : files.IsWellFormed)
    (store : SnapshotStore) (calls : List Call) :
    (∀ key name other now,
        (store.performAll calls files).locate (store.backupPath other now) = .ok key →
          ¬store.Lists (store.performAll calls files) key name) ∧
      (store.ListsFaithfully (store.performAll calls files) ↔
        ∀ key name, store.Lists (store.performAll calls files) key name →
          name ≠ "" ∧ ∀ file, key.getLast? = some file → ¬Misleads file) ∧
      ((∀ key text, files.get? key ≠ some (.file text)) → (∀ call ∈ calls, call.IsClear) →
        store.ListsFaithfully (store.performAll calls files)) := by
  have hafter : (store.performAll calls files).IsWellFormed := isWellFormed_performAll hfiles calls
  refine ⟨fun key name other now => not_lists_backupPath, listsFaithfully_iff hafter, ?_⟩
  intro hnone hcalls
  have hstart : store.IsClearTree files := by
    refine ⟨fun key text hfile => absurd hfile (hnone key text), ?_⟩
    rintro ⟨key, text, hfile⟩
    exact absurd hfile (hnone key text)
  have hclear := performAll_induction
    (fun call hcall => IsClearTree.maintains_perform (hcalls call hcall)) hstart
  exact hclear.listsFaithfully hafter

/-- Snapshots that are made with and without the extension, updated, copied and removed. -/
def mixedCalls : List Call :=
  [.create "forms/a.snap" "one\n" none ⟨"now", 0, 0⟩,
    .create "forms/b.c\r" "two\n" none ⟨"now", 0, 0⟩, .backup "forms/a" ⟨"now", 7, 0⟩,
    .update "forms/b.c\r" "three\n" ⟨"now", 8, 0⟩, .delete "forms/b.c\r"]

/-- The copy is not listed, and neither is what was removed; the update was stored under the name
without the return. -/
theorem listsFaithfully_mixedCalls :
    ListsFaithfully ⟨"snapshots"⟩ (performAll ⟨"snapshots"⟩ mixedCalls .empty) ∧
      list ⟨"snapshots"⟩ (performAll ⟨"snapshots"⟩ mixedCalls .empty) =
        ["forms/a", "forms/b.c"] := by
  have hlocate : (performAll ⟨"snapshots"⟩ mixedCalls .empty).locate "snapshots" =
      .ok ["snapshots"] := by
    decide +kernel
  refine ⟨?_, list_eq_of_pairwise hlocate (by decide +kernel) (by decide)⟩
  obtain ⟨-, -, hfaithful⟩ :=
    listsFaithfully_performAll_iff FileTree.isWellFormed_empty ⟨"snapshots"⟩ mixedCalls
  refine hfaithful ?_ ?_
  · intro key text hfile
    unfold FileTree.get? at hfile
    split at hfile
    · cases hfile
    · cases hfile
  · have hstamp : '\n' ∉ "now".toList := by decide
    have hfirst : IsClearName "forms/a.snap" :=
      ⟨by decide +kernel, by decide +kernel, by decide +kernel⟩
    have hsecond : IsClearName "forms/b.c\r" :=
      ⟨by decide +kernel, by decide +kernel, by decide +kernel⟩
    simp only [mixedCalls, List.forall_mem_cons]
    exact ⟨⟨hfirst, nofun, hstamp⟩, ⟨hsecond, nofun, hstamp⟩, trivial, hstamp, trivial, nofun⟩

/-- The files after snapshots of some names were made where nothing was. -/
def filesOf (names : List String) : FileTree :=
  performAll ⟨"snapshots"⟩ (names.map fun name => .create name "x\n" none ⟨"now", 0, 0⟩) .empty

/-- A snapshot whose name has the extension twice is listed under a name that no snapshot has.  And
two snapshots with nothing but points before the extension are listed under one name. -/
theorem not_listsFaithfully_filesOf :
    holds ⟨"snapshots"⟩ "a.snap.snap" (filesOf ["a.snap.snap"]) = true ∧
      list ⟨"snapshots"⟩ (filesOf ["a.snap.snap"]) = ["a.snap"] ∧
      holds ⟨"snapshots"⟩ "a.snap" (filesOf ["a.snap.snap"]) = false ∧
      list ⟨"snapshots"⟩ (filesOf ["..snap", "...snap"]) = ["..", ".."] ∧
      ¬ListsFaithfully ⟨"snapshots"⟩ (filesOf ["a.snap.snap"]) := by
  have hlist : list ⟨"snapshots"⟩ (filesOf ["a.snap.snap"]) = ["a.snap"] := by decide +kernel
  have hmissing : holds ⟨"snapshots"⟩ "a.snap" (filesOf ["a.snap.snap"]) = false := by
    decide +kernel
  have hlocate : (filesOf ["..snap", "...snap"]).locate "snapshots" = .ok ["snapshots"] := by
    decide +kernel
  refine ⟨by decide +kernel, hlist, hmissing,
    list_eq_of_pairwise hlocate (by decide +kernel) (by decide), fun hfaithful => ?_⟩
  obtain ⟨key, hlists⟩ := mem_list_iff.mp (hlist ▸ List.mem_cons_self)
  have hthere := (hfaithful.leads_back key "a.snap" hlists).1
  rw [hmissing] at hthere
  cases hthere

end FormCompiler.SnapshotStore
