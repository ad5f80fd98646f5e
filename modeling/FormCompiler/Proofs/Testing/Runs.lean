import FormCompiler.Proofs.Json.Codec
import FormCompiler.Proofs.Testing.SnapshotStore
import FormCompiler.Testing.Runner

/-!
# Runs of cases

A run writes snapshots and copies of snapshots only, so the files of cases stay and give the same
cases afterwards.  A run that writes nothing is told by the snapshot alone: it passes when the
snapshot has the source of the case.
-/

namespace FormCompiler

open FileTree (EndsIn)

/-! ## The files of cases -/

/-- What the first computation gives is given by the second as well. -/
def Persists {ε α : Type} (first second : Except ε α) : Prop :=
  ∀ value, first = .ok value → second = .ok value

namespace Persists

variable {ε ε' α β : Type} {first second : Except ε α}

theorem refl (result : Except ε α) : Persists result result := fun _ => id

theorem mapError (h : Persists first second) (convert : ε → ε') :
    Persists (first.mapError convert) (second.mapError convert) := by
  intro value hvalue
  cases first with
  | error error => cases hvalue
  | ok given =>
      rw [h given rfl]
      exact hvalue

theorem bind {next next' : α → Except ε β} (h : Persists first second)
    (hnext : ∀ value, Persists (next value) (next' value)) :
    Persists (first >>= next) (second >>= next') := by
  intro result hresult
  cases first with
  | error error => cases hresult
  | ok value =>
      rw [h value rfl]
      exact hnext value result hresult

end Persists

namespace Corpus

variable {files after : FileTree} {path : String}

theorem persists_read (h : FileTree.Keeps (EndsIn 'n') files after)
    (hlast : path.toList.getLast? = some 'n') : Persists (files.read path) (after.read path) :=
  fun _ hread => h.read
    (fun _ hkey => FileTree.endsIn_of_locate hkey hlast (by decide) (by decide)) hread

/-- A case is loaded as before while the files stay whose names end as those of cases do. -/
theorem persists_loadCase (h : FileTree.Keeps (EndsIn 'n') files after)
    (hlast : path.toList.getLast? = some 'n') :
    Persists (loadCase files path) (loadCase after path) := by
  refine .bind ((persists_read h hlast).mapError _) fun stored => .bind (.refl _) fun case => ?_
  split
  · next file hfields =>
    split
    · next hjson =>
      have hname := Text.getLast?_of_endsWith
        (show ".json".toList.getLast? = some 'n' by decide) hjson
      have hfile := Path.getLast?_join hname (Path.parentPath path)
      exact .bind (.bind ((persists_read h hfile).mapError _) fun _ => .refl _) fun _ => .refl _
    · exact .refl _
  · exact .refl _

end Corpus

/-! ## Comparisons -/

/-- Where nothing is masked a text matches no other one. -/
theorem Diff.isMatch_compare (options : Options) (expected actual : String) :
    (compare options [] expected actual).isMatch = decide (expected = actual) := by
  unfold compare maskAll
  simp only [List.foldl_nil]
  split_ifs with h <;> simp [h]

namespace TestSettings

variable {settings : TestSettings} {name source : String} {case : TestCase} {now : ClockReading}
  {files after : FileTree} {execution : Execution}

theorem getLast?_casePath (settings : TestSettings) (name : String) :
    (settings.casePath name).toList.getLast? = some 'n' :=
  Path.getLast?_join (by decide) _

theorem leaves_compareSnapshot (settings : TestSettings) (case : TestCase) (source : String)
    (now : ClockReading) :
    FileAction.Leaves (EndsIn 'n') (settings.compareSnapshot case source now) := by
  refine .bind .of_get fun files => ?_
  split
  · split
    · exact .bind (SnapshotStore.leaves_create _ _ _ _ _) fun _ => .of_pure _
    · exact .of_throw _
  · refine .bind .of_get fun files => .bind (.of_ofExcept _) fun snapshot => ?_
    dsimp only
    split
    · exact .of_pure _
    · split
      · exact .bind (SnapshotStore.leaves_backup _ _ _) fun _ =>
          .bind (SnapshotStore.leaves_update _ _ _ _) fun _ => .of_pure _
      · exact .of_pure _

/-- Running a case leaves the files of all cases as they are. -/
theorem leaves_execute (settings : TestSettings) (case : TestCase) (now : ClockReading) :
    FileAction.Leaves (EndsIn 'n') (settings.execute case now) := by
  unfold execute
  split
  · exact .of_pure _
  · refine .bind (.of_ofExcept _) fun checked => ?_
    split
    · exact .of_pure _
    · exact leaves_compareSnapshot settings case _ now

/-! ## One run -/

theorem outcome_execute (hsource : case.checkedSource settings.patterns = .ok (some source))
    (henabled : case.notes.enabled = true) :
    (settings.execute case now).outcome files =
      (settings.compareSnapshot case source now).outcome files := by
  unfold execute
  rw [if_neg (by simp [henabled]), FileAction.outcome_ofExcept_bind hsource]

/-- What a run that may not write makes of a snapshot. -/
def judge (settings : TestSettings) (source : String) (snapshot : Snapshot) : Execution :=
  if snapshot.content = source then TestCase.success
  else ⟨false, some (Diff.compare settings.diff [] snapshot.content source).output, false⟩

theorem passed_judge_iff (settings : TestSettings) (source : String) (snapshot : Snapshot) :
    (settings.judge source snapshot).passed = true ↔ snapshot.content = source := by
  unfold judge
  split <;> simp_all [TestCase.success]

theorem updated_judge (settings : TestSettings) (source : String) (snapshot : Snapshot) :
    (settings.judge source snapshot).updated = false := by
  unfold judge
  split <;> rfl

/-- Without leave to write, the run of a case is told by its snapshot. -/
theorem outcome_compareSnapshot_of_holds (hupdate : settings.update = false)
    (hholds : settings.snapshots.holds case.fullName files = true) :
    (settings.compareSnapshot case source now).outcome files =
      ((settings.snapshots.load case.fullName files).map (settings.judge source), files) := by
  unfold compareSnapshot
  rw [FileAction.outcome_get_bind]
  dsimp only
  rw [if_neg (by simp [hholds]), FileAction.outcome_get_bind, FileAction.outcome_bind,
    FileAction.outcome_ofExcept]
  cases settings.snapshots.load case.fullName files with
  | error error => rfl
  | ok snapshot =>
      simp only [Diff.isMatch_compare, decide_eq_true_eq, hupdate, Except.map, judge]
      split <;> rfl

/-- The snapshot that a run stores for a case. -/
def stored (case : TestCase) (source : String) (now : ClockReading) : Snapshot :=
  ⟨case.fullName, some case.notes.description, now.stamp, now.stamp, Snapshot.normalize source⟩

/-- A run writes where no snapshot is only to store the source of the case. -/
theorem of_outcome_execute_updated
    (hmissing : settings.snapshots.holds case.fullName files = false)
    (h : (settings.execute case now).outcome files = (.ok execution, after))
    (hupdated : execution.updated = true) :
    case.notes.enabled = true ∧ ∃ source,
      case.checkedSource settings.patterns = .ok (some source) ∧
      (settings.snapshots.save (stored case source now)).outcome files = (.ok (), after) := by
  unfold execute at h
  split at h
  · cases h
    cases hupdated
  · next henabled =>
    refine ⟨by simpa using henabled, ?_⟩
    obtain ⟨checked, hchecked, h⟩ := FileAction.of_outcome_ofExcept_bind_eq_ok h
    cases checked with
    | none =>
        cases h
        cases hupdated
    | some source =>
        refine ⟨source, hchecked, ?_⟩
        dsimp only at h
        unfold compareSnapshot at h
        rw [FileAction.outcome_get_bind] at h
        dsimp only at h
        rw [if_pos (by simp [hmissing])] at h
        split at h
        · obtain ⟨_, middle, hcreate, hpure⟩ := FileAction.of_outcome_bind_eq_ok h
          obtain ⟨_, middle', hsave, hpure'⟩ := FileAction.of_outcome_bind_eq_ok hcreate
          cases hpure
          cases hpure'
          exact hsave
        · cases h

/-! ## Results -/

section Results

variable (hcase : Corpus.loadCase files (settings.casePath name) = .ok case)

include hcase

/-- The case that is stored under the name is run. -/
theorem runNamed_eq :
    settings.runNamed name now files =
      (resultOf name now.elapsed ((settings.execute case now).outcome files).1,
        ((settings.execute case now).outcome files).2) := by
  have houtcome : FileAction.outcome (do
      let case ← FileAction.ofExcept (Corpus.loadCase (← get) (settings.casePath name))
      settings.execute case now) files = (settings.execute case now).outcome files := by
    rw [FileAction.outcome_get_bind, FileAction.outcome_ofExcept_bind hcase]
  rw [← houtcome]
  rfl

/-- A case that is not enabled passes, and nothing is changed. -/
theorem runNamed_of_disabled (hdisabled : case.notes.enabled = false) :
    settings.runNamed name now files = (⟨name, true, none, none, now.elapsed, false⟩, files) := by
  rw [runNamed_eq hcase, execute, if_pos (by simp [hdisabled])]
  rfl

theorem files_runTest :
    (settings.runTest name now files).files = ((settings.execute case now).outcome files).2 := by
  unfold runTest
  rw [runNamed_eq hcase]

/-- A test that passes gives its result. -/
theorem result_runTest_eq_ok_iff {result : TestResult} :
    (settings.runTest name now files).result = .ok result ↔
      ∃ execution, ((settings.execute case now).outcome files).1 = .ok execution ∧
        execution.passed = true ∧ result = resultOf name now.elapsed (.ok execution) := by
  unfold runTest
  rw [runNamed_eq hcase]
  dsimp only
  generalize ((settings.execute case now).outcome files).1 = outcome
  constructor
  · intro h
    split at h
    · next hpassed =>
      cases outcome with
      | error error => cases hpassed
      | ok execution => exact ⟨execution, rfl, hpassed, (Except.ok.inj h).symm⟩
    · cases h
  · rintro ⟨execution, rfl, hpassed, rfl⟩
    exact if_pos hpassed

end Results

end TestSettings

/-! ## Cases without fields -/

def emptyCase (name description : String) (enabled succeeds : Bool) : TestCase :=
  { name
    category := "basic"
    input := ⟨.array [], .default, none⟩
    expectations := ⟨succeeds, none, [], false⟩
    notes := ⟨description, [], enabled, 100⟩ }

section EmptyCase

variable {name description : String} {enabled succeeds : Bool}

theorem ofText_emptyCase :
    TestCase.ofText (emptyCase name description enabled succeeds).toJson.pretty =
      .ok (emptyCase name description enabled succeeds) := by
  have hstable : (emptyCase name description enabled succeeds).toJson.IsStable := by
    simp [emptyCase, TestCase.toJson, TestInput.toJson, Expectations.toJson, CaseNotes.toJson,
      Json.optional, Json.texts, Json.natural, Json.IsStable, Json.HaveStable, Json.AreStable,
      JsonNumber.IsStable, JsonNumber.IsWritable]
  have hread := (JsonCodec.readsBack_standard hstable).readWith (TestCase.read (some 126))
  unfold TestCase.ofText Json.readWith
  exact hread.trans (by rfl)

theorem Corpus.loadCase_emptyCase {files : FileTree} {path : String}
    (h : files.read path = .ok (emptyCase name description enabled succeeds).toJson.pretty) :
    loadCase files path = .ok (emptyCase name description enabled succeeds) := by
  unfold loadCase
  rw [h]
  dsimp only [Except.mapError, bind, Except.bind]
  rw [ofText_emptyCase]
  rfl

end EmptyCase

end FormCompiler
