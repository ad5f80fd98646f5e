import FormCompiler.Proofs.Testing.Runs

/-!
# Batches

A batch discovers cases by their files and runs each by its name.  The principal result is that
every discovered case is run, one after the other in the order of discovery, provided that each is
the case that is stored under its name.  Nothing else is needed: no run touches the files of the
cases that follow.
-/

namespace FormCompiler.TestSettings

variable {settings : TestSettings} {now : ClockReading} {clock : Clock} {files : FileTree}

/-! ## Running cases themselves -/

/-- Runs cases one after the other, as they are and not by their names. -/
def executeAll (settings : TestSettings) (clock : Clock) :
    List TestCase → FileTree → List TestResult × FileTree
  | [], files => ([], files)
  | case :: rest, files =>
      let (outcome, files) := (settings.execute case clock.now).outcome files
      let (results, files) := executeAll settings clock.later rest files
      (resultOf case.fullName clock.now.elapsed outcome :: results, files)

/-- The case is the one that is stored under its name. -/
def IsFiled (settings : TestSettings) (files : FileTree) (case : TestCase) : Prop :=
  Corpus.loadCase files (settings.casePath case.fullName) = .ok case

/-- A case that is stored under its name is still so after a run. -/
theorem IsFiled.execute {case : TestCase} (h : settings.IsFiled files case) (other : TestCase) :
    settings.IsFiled ((settings.execute other now).outcome files).2 case :=
  Corpus.persists_loadCase (leaves_execute settings other now files)
    (getLast?_casePath settings case.fullName) case h

/-- Running cases by their names is running them. -/
theorem runAll_eq_executeAll {cases : List TestCase}
    (h : ∀ case ∈ cases, settings.IsFiled files case) :
    settings.runAll clock cases files = settings.executeAll clock cases files := by
  induction cases generalizing clock files with
  | nil => rfl
  | cons case rest ih =>
      obtain ⟨hcase, hrest⟩ := List.forall_mem_cons.mp h
      simp only [runAll, executeAll, runNamed_eq hcase]
      rw [ih fun other hother => (hrest other hother).execute case]

/-- Cases of one name all pass if the one that is stored under it is not enabled. -/
theorem runAll_of_disabled {name : String} {stored : TestCase}
    (hcase : Corpus.loadCase files (settings.casePath name) = .ok stored)
    (hdisabled : stored.notes.enabled = false) {cases : List TestCase}
    (hcases : ∀ case ∈ cases, case.fullName = name) :
    settings.runAll clock cases files =
      ((List.range cases.length).map fun test =>
        ⟨name, true, none, none, (clock.reading test).elapsed, false⟩, files) := by
  induction cases generalizing clock with
  | nil => rfl
  | cons case rest ih =>
      obtain ⟨hname, hrest⟩ := List.forall_mem_cons.mp hcases
      simp only [runAll, hname, runNamed_of_disabled hcase hdisabled, ih hrest, List.length_cons,
        List.range_succ_eq_map, List.map_cons, List.map_map]
      rfl

/-- A batch of all tests runs all cases that it discovers by their names. -/
theorem runBatch_star (settings : TestSettings) (clock : Clock) (files : FileTree) :
    settings.runBatch "*" clock files =
      match settings.corpus.discover files with
      | [] => ⟨.error (.noTests "*"), "", files⟩
      | cases =>
          settings.batchRun (settings.runAll clock cases files).1
            (settings.runAll clock cases files).2 := by
  unfold runBatch
  rw [matchingCases, if_pos rfl]
  cases settings.corpus.discover files with
  | nil => rfl
  | cons case rest => rfl

/-- A batch of all tests runs every case that it discovers, in the order of discovery, if each is
the one that is stored under its name. -/
theorem runBatch_star_eq_executeAll
    (h : ∀ case ∈ settings.corpus.discover files, settings.IsFiled files case) :
    settings.runBatch "*" clock files =
      match settings.corpus.discover files with
      | [] => ⟨.error (.noTests "*"), "", files⟩
      | cases =>
          settings.batchRun (settings.executeAll clock cases files).1
            (settings.executeAll clock cases files).2 := by
  rw [runBatch_star]
  split
  · rfl
  · rw [runAll_eq_executeAll h]

/-! ### Two cases -/

/-- A corpus of two cases. -/
def pairFiles (first second : TestCase) : FileTree :=
  ⟨[(["corpus"], .folder), (["corpus", "basic"], .folder), (["corpus", "basic", "a"], .folder),
    (["corpus", "basic", "a", "test.json"], .file first.toJson.pretty),
    (["corpus", "basic", "b"], .folder),
    (["corpus", "basic", "b", "test.json"], .file second.toJson.pretty)]⟩

/-- Settings that create nothing. -/
def pairSettings : TestSettings :=
  ⟨⟨"corpus"⟩, ⟨"corpus/snapshots"⟩, false, false, .defaults, false, .plain⟩

/-- A clock by which each test takes a millisecond longer than the one before it. -/
def pairClock : Clock := ⟨fun test => ⟨"now", 0, test⟩⟩

section Pair

variable {name name' description description' : String} {enabled enabled' succeeds succeeds' : Bool}

theorem loadCase_pairFiles_first (second : TestCase) :
    Corpus.loadCase (pairFiles (emptyCase name description enabled succeeds) second)
        "corpus/basic/a/test.json" =
      .ok (emptyCase name description enabled succeeds) :=
  Corpus.loadCase_emptyCase (FileTree.read_eq_ok_iff.mpr
    ⟨["corpus", "basic", "a", "test.json"], by rfl, by rfl⟩)

theorem loadCase_pairFiles_second (first : TestCase) :
    Corpus.loadCase (pairFiles first (emptyCase name description enabled succeeds))
        "corpus/basic/b/test.json" =
      .ok (emptyCase name description enabled succeeds) :=
  Corpus.loadCase_emptyCase (FileTree.read_eq_ok_iff.mpr
    ⟨["corpus", "basic", "b", "test.json"], by rfl, by rfl⟩)

theorem discover_pairFiles :
    pairSettings.corpus.discover
        (pairFiles (emptyCase name description enabled succeeds)
          (emptyCase name' description' enabled' succeeds')) =
      [emptyCase name description enabled succeeds,
        emptyCase name' description' enabled' succeeds'] := by
  have hfiles : pairSettings.corpus.caseFiles
      (pairFiles (emptyCase name description enabled succeeds)
        (emptyCase name' description' enabled' succeeds')) =
      ["corpus/basic/a/test.json", "corpus/basic/b/test.json"] := by
    rfl
  unfold Corpus.discover
  rw [hfiles]
  simp only [List.filterMap_cons, List.filterMap_nil, loadCase_pairFiles_first,
    loadCase_pairFiles_second, Except.toOption]
  exact List.mergeSort_of_pairwise (by simp [emptyCase])

end Pair

/-- Two cases in the folders of their names. -/
def filedPair : FileTree :=
  pairFiles (emptyCase "a" "first" false true) (emptyCase "b" "second" true false)

/-- Two cases of one name, the first of which is not enabled. -/
def twinPair : FileTree :=
  pairFiles (emptyCase "a" "first" false true) (emptyCase "a" "second" true false)

/-- Cases in the folders of their names are both run. -/
theorem runBatch_star_eq_executeAll_filedPair :
    pairSettings.runBatch "*" pairClock filedPair =
      pairSettings.batchRun
        (pairSettings.executeAll pairClock
          [emptyCase "a" "first" false true, emptyCase "b" "second" true false] filedPair).1
        (pairSettings.executeAll pairClock
          [emptyCase "a" "first" false true, emptyCase "b" "second" true false] filedPair).2 := by
  have hdiscover : pairSettings.corpus.discover filedPair =
      [emptyCase "a" "first" false true, emptyCase "b" "second" true false] :=
    discover_pairFiles
  rw [runBatch_star_eq_executeAll, hdiscover]
  rw [hdiscover]
  intro case hcase
  rcases List.mem_pair.mp hcase with rfl | rfl
  · exact loadCase_pairFiles_first _
  · exact loadCase_pairFiles_second _

/-- Of two cases of one name the second fails when it is executed, but the batch passes: it runs the
first one twice. -/
theorem runBatch_star_twinPair :
    pairSettings.corpus.discover twinPair =
        [emptyCase "a" "first" false true, emptyCase "a" "second" true false] ∧
      ((pairSettings.execute (emptyCase "a" "second" true false) pairClock.now).outcome
        twinPair).1 = .error .notRejected ∧
      (pairSettings.runBatch "*" pairClock twinPair).result =
        .ok [⟨"basic/a", true, none, none, 0, false⟩,
          ⟨"basic/a", true, none, none, 1, false⟩] := by
  have hcase : Corpus.loadCase twinPair (pairSettings.casePath "basic/a") =
      .ok (emptyCase "a" "first" false true) :=
    loadCase_pairFiles_first _
  have hdiscover : pairSettings.corpus.discover twinPair =
      [emptyCase "a" "first" false true, emptyCase "a" "second" true false] :=
    discover_pairFiles
  refine ⟨hdiscover, rfl, ?_⟩
  rw [runBatch_star, hdiscover]
  dsimp only
  rw [runAll_of_disabled hcase rfl (by simp [TestCase.fullName, emptyCase])]
  rfl

end FormCompiler.TestSettings
