import FormCompiler.Proofs.Json.Decoding
import FormCompiler.Proofs.Source.Balance
import FormCompiler.Proofs.Source.Lines
import FormCompiler.Proofs.Testing.Runs

/-!
# Running a case again

A run that stores the source of a case writes what is said about the case into the header of the
snapshot.  The principal result is that the next run, which may write nothing, passes exactly when
the name and the description fit the header.  The source itself is always found again: its line ends
are line feeds.
-/

namespace FormCompiler

open Snapshot (FitsHeader)

/-! ## The source of a case -/

namespace TestCase

variable {case : TestCase} {patterns : PatternLanguage} {source : String}

/-- A case has a source when its records make a form that should be accepted, and what is generated
for the form passes all checks. -/
theorem checkedSource_eq_some_iff :
    case.checkedSource patterns = .ok (some source) ↔
      ∃ (records : List FieldRecord) (form : FormSchema) (state : LoadState SequentialIds)
        (found : List Diagnostic),
        FieldRecord.listOfJson case.input.fields = .ok records ∧
        Load.start (FormSchema.ofRecords records case.input.mode) (SequentialIds.ofStem "case") =
          (.ok form, state) ∧
        case.expectations.succeeds = true ∧
        form.generate (case.input.emitter.getD .defaults) = .ok (source, found) ∧
        Source.imbalance? source = none ∧
        (state.diagnostics ++ found).map (·.code.name) = case.expectations.diagnostics ∧
        case.checkNames form source = .ok () := by
  constructor
  · intro h
    unfold checkedSource at h
    obtain ⟨records, hrecords, h⟩ := exists_of_bind_eq_ok h
    dsimp only at h
    split at h
    · -- a rejected case has no source
      split at h
      · cases h
      · obtain ⟨_, -, h⟩ := exists_of_bind_eq_ok h
        cases h
    · next form hform =>
      split at h
      · cases h
      · next hsucceeds =>
        obtain ⟨⟨written, found⟩, hgenerate, h⟩ := exists_of_bind_eq_ok h
        dsimp only at h
        split at h
        · cases h
        · next hbalance =>
          split at h
          · obtain ⟨_, herror, -⟩ := exists_of_bind_eq_ok h
            cases herror
          · next hcodes =>
            obtain ⟨_, hnames, h⟩ := exists_of_bind_eq_ok h
            cases h
            exact ⟨records, form, _, found, mapError_eq_ok_iff.mp hrecords, Prod.ext hform rfl,
              by simpa using hsucceeds, mapError_eq_ok_iff.mp hgenerate, hbalance,
              not_not.mp hcodes, hnames⟩
  · rintro ⟨records, form, state, found, hrecords, hloaded, hsucceeds, hgenerate, hbalance, hcodes,
      hnames⟩
    unfold checkedSource
    simp only [hrecords, hloaded, hsucceeds, hgenerate, hbalance, hcodes, hnames, Except.mapError,
      bind, Except.bind, pure, Except.pure]
    simp

/-- The line ends of the source of a case are line feeds. -/
theorem return_not_mem_of_checkedSource (h : case.checkedSource patterns = .ok (some source)) :
    '\r' ∉ source.toList := by
  obtain ⟨records, form, state, found, -, -, -, hgenerate, -⟩ := checkedSource_eq_some_iff.mp h
  obtain ⟨hproblem, rfl⟩ := FormSchema.of_generate_eq_ok hgenerate
  exact Source.return_not_mem_source _ (Source.isIdentifier_componentName hproblem)

end TestCase

/-! ## The next run -/

namespace TestSettings

variable {settings : TestSettings} {name source : String} {case : TestCase}
  {now later : ClockReading} {files after : FileTree}

/-- The settings of a run that may write nothing. -/
def readOnly (settings : TestSettings) : TestSettings :=
  { settings with update := false, createMissing := false }

theorem forall_headerLines_stored_iff (hstamp : '\n' ∉ now.stamp.toList) :
    (∀ line ∈ (stored case source now).headerLines, Snapshot.headerMark <+: line) ↔
      FitsHeader case.fullName ∧ FitsHeader case.notes.description := by
  have hnow := Snapshot.fitsHeader_of_not_mem hstamp
  rw [Snapshot.forall_headerLines_iff]
  simp [stored, hnow]

/-- The run of a case whose snapshot was stored for the same source passes, and writes nothing,
exactly when name and description fit the header. -/
theorem execute_stored_iff (hstamp : '\n' ∉ now.stamp.toList)
    (henabled : case.notes.enabled = true)
    (hsource : case.checkedSource settings.patterns = .ok (some source))
    (hread : files.read (settings.snapshots.path case.fullName) =
      .ok (stored case source now).toText) :
    (∃ execution, ((settings.readOnly.execute case later).outcome files).1 = .ok execution ∧
        execution.passed = true ∧ execution.updated = false) ↔
      FitsHeader case.fullName ∧ FitsHeader case.notes.description := by
  have hnormal : Snapshot.normalize source = source := by
    rw [Snapshot.normalize, Text.unifyNewlines_eq_self_of_not_mem
      (TestCase.return_not_mem_of_checkedSource hsource), String.ofList_toList]
  have hcontent : Snapshot.normalize (stored case source now).content = source := by
    simp only [stored, hnormal]
  have hload := SnapshotStore.load_of_read hread
  have hsourceAgain : case.checkedSource settings.readOnly.patterns = .ok (some source) := hsource
  rw [outcome_execute hsourceAgain henabled,
    outcome_compareSnapshot_of_holds (show settings.readOnly.update = false from rfl)
      (SnapshotStore.holds_of_read hread),
    show settings.readOnly.snapshots = settings.snapshots from rfl, hload,
    ← forall_headerLines_stored_iff hstamp, ← Snapshot.exists_parse_toText_iff, hcontent]
  dsimp only
  constructor
  · rintro ⟨execution, hexecution, hpassed, -⟩
    obtain ⟨loaded, hloaded, rfl⟩ := exists_of_map_eq_ok hexecution
    exact ⟨loaded, hloaded, (passed_judge_iff _ source loaded).mp hpassed⟩
  · rintro ⟨loaded, hloaded, hsame⟩
    exact ⟨settings.readOnly.judge source loaded, by rw [hloaded]; rfl,
      (passed_judge_iff _ source loaded).mpr hsame, updated_judge _ source loaded⟩

/-- What a run that stores the source of a case leaves: the snapshot, and the case. -/
theorem of_result_runTest_updated {first : TestResult}
    (hcase : Corpus.loadCase files (settings.casePath name) = .ok case)
    (hmissing : settings.snapshots.holds case.fullName files = false)
    (hfirst : (settings.runTest name now files).result = .ok first)
    (hupdated : first.updated = true) :
    case.notes.enabled = true ∧ ∃ source,
      case.checkedSource settings.patterns = .ok (some source) ∧
      Corpus.loadCase (settings.runTest name now files).files (settings.casePath name) = .ok case ∧
      (settings.runTest name now files).files.read (settings.snapshots.path case.fullName) =
        .ok (stored case source now).toText := by
  obtain ⟨execution, hexecution, -, rfl⟩ := (result_runTest_eq_ok_iff hcase).mp hfirst
  have houtcome : (settings.execute case now).outcome files =
      (.ok execution, ((settings.execute case now).outcome files).2) :=
    Prod.ext hexecution rfl
  obtain ⟨henabled, source, hsource, hsave⟩ :=
    of_outcome_execute_updated hmissing houtcome hupdated
  obtain ⟨key, hkey, hentry, -⟩ := SnapshotStore.of_save_eq_ok hsave
  rw [files_runTest hcase]
  exact ⟨henabled, source, hsource,
    Corpus.persists_loadCase (leaves_execute settings case now files)
      (getLast?_casePath settings name) case hcase,
    FileTree.read_eq_ok_iff.mpr ⟨key, hkey, hentry⟩⟩

/-- The test of a case whose snapshot was stored for the same source passes, and writes nothing,
exactly when name and description fit the header. -/
theorem result_runTest_stored_iff
    (hcase : Corpus.loadCase files (settings.casePath name) = .ok case)
    (hstamp : '\n' ∉ now.stamp.toList) (henabled : case.notes.enabled = true)
    (hsource : case.checkedSource settings.patterns = .ok (some source))
    (hread : files.read (settings.snapshots.path case.fullName) =
      .ok (stored case source now).toText) :
    (∃ second, (settings.readOnly.runTest name later files).result = .ok second ∧
        second.passed = true ∧ second.updated = false) ↔
      FitsHeader case.fullName ∧ FitsHeader case.notes.description := by
  have hcaseAgain : Corpus.loadCase files (settings.readOnly.casePath name) = .ok case := hcase
  rw [← execute_stored_iff hstamp henabled hsource hread]
  constructor
  · rintro ⟨second, hsecond, -, hunchanged⟩
    obtain ⟨execution, hexecution, hpassed, rfl⟩ :=
      (result_runTest_eq_ok_iff hcaseAgain).mp hsecond
    exact ⟨execution, hexecution, hpassed, hunchanged⟩
  · rintro ⟨execution, hexecution, hpassed, hunchanged⟩
    exact ⟨_, (result_runTest_eq_ok_iff hcaseAgain).mpr ⟨execution, hexecution, hpassed, rfl⟩,
      hpassed, hunchanged⟩

/-- A run that stores the source of a case is followed by a run that may write nothing.  It passes,
and nothing is updated, exactly when every further line of the name and of the description begins as
a header line does. -/
theorem runTest_again_iff {first : TestResult}
    (hcase : Corpus.loadCase files (settings.casePath name) = .ok case)
    (hmissing : settings.snapshots.holds case.fullName files = false)
    (hstamp : '\n' ∉ now.stamp.toList)
    (hfirst : (settings.runTest name now files).result = .ok first)
    (hupdated : first.updated = true) :
    (∃ second, (settings.readOnly.runTest name later
          (settings.runTest name now files).files).result = .ok second ∧
        second.passed = true ∧ second.updated = false) ↔
      FitsHeader case.fullName ∧ FitsHeader case.notes.description := by
  obtain ⟨henabled, source, hsource, hcaseAfter, hread⟩ :=
    of_result_runTest_updated hcase hmissing hfirst hupdated
  exact result_runTest_stored_iff hcaseAfter hstamp henabled hsource hread

/-! ### Descriptions of two lines -/

/-- A corpus of one case. -/
def noteFiles (description : String) : FileTree :=
  ⟨[(["corpus"], .folder), (["corpus", "basic"], .folder), (["corpus", "basic", "a"], .folder),
    (["corpus", "basic", "a", "test.json"],
      .file (emptyCase "a" description true true).toJson.pretty)]⟩

/-- Settings to create snapshots in the corpus. -/
def noteSettings : TestSettings :=
  ⟨⟨"corpus"⟩, ⟨"corpus/snapshots"⟩, false, true, .defaults, false, .plain⟩

theorem loadCase_noteFiles (description : String) :
    Corpus.loadCase (noteFiles description) (noteSettings.casePath "basic/a") =
      .ok (emptyCase "a" description true true) := by
  have hread : (noteFiles description).read (noteSettings.casePath "basic/a") =
      .ok (emptyCase "a" description true true).toJson.pretty :=
    FileTree.read_eq_ok_iff.mpr ⟨["corpus", "basic", "a", "test.json"], by rfl, by rfl⟩
  exact Corpus.loadCase_emptyCase hread

theorem checkedSource_emptyCase (description : String) (patterns : PatternLanguage) :
    (emptyCase "a" description true true).checkedSource patterns =
      .ok (some ((FormSchema.mk []).compile.source .defaults)) := by
  have hproblem : EmitterConfig.defaults.problem? = none := by
    decide
  have hname := Source.isIdentifier_componentName hproblem
  have hbalance : Source.imbalance? ((FormSchema.mk []).compile.source .defaults) = none :=
    (Source.Balance.walk_eq_none_iff _ .code [] _).mpr (Source.Balance.moves_source _ hname)
  exact TestCase.checkedSource_eq_some_iff.mpr
    ⟨[], ⟨[]⟩, _, _, rfl, Prod.ext rfl rfl, rfl, FormSchema.generate_eq_ok ⟨[]⟩ hproblem, hbalance,
      rfl, rfl⟩

/-- The first run stores the source of the case. -/
theorem result_runTest_noteFiles (description : String)
    (hstored : ((noteSettings.compareSnapshot (emptyCase "a" description true true)
      ((FormSchema.mk []).compile.source .defaults) ⟨"now", 0, 0⟩).outcome
        (noteFiles description)).1 = .ok ⟨true, none, true⟩) :
    (noteSettings.runTest "basic/a" ⟨"now", 0, 0⟩ (noteFiles description)).result =
      .ok ⟨"basic/a", true, none, none, 0, true⟩ := by
  refine (result_runTest_eq_ok_iff (loadCase_noteFiles description)).mpr
    ⟨⟨true, none, true⟩, ?_, rfl, rfl⟩
  rw [outcome_execute (checkedSource_emptyCase description _) rfl, hstored]

/-- A description whose second line looks like a header line does no harm. -/
theorem runTest_again_iff_markedNote :
    ∃ second,
      (noteSettings.readOnly.runTest "basic/a" ⟨"later", 1, 0⟩
        (noteSettings.runTest "basic/a" ⟨"now", 0, 0⟩
          (noteFiles "one\n# two")).files).result = .ok second ∧
        second.passed = true ∧ second.updated = false := by
  have hfirst := result_runTest_noteFiles "one\n# two" (by decide +kernel)
  exact (runTest_again_iff (loadCase_noteFiles _) (by decide +kernel) (by decide) hfirst rfl).mpr
    (by decide)

/-- After a description of two lines the snapshot that the first run stored fails the next run. -/
theorem runTest_again_plainNote :
    (noteSettings.runTest "basic/a" ⟨"now", 0, 0⟩ (noteFiles "one\ntwo")).result =
        .ok ⟨"basic/a", true, none, none, 0, true⟩ ∧
      ¬∃ second,
        (noteSettings.readOnly.runTest "basic/a" ⟨"later", 1, 0⟩
          (noteSettings.runTest "basic/a" ⟨"now", 0, 0⟩
            (noteFiles "one\ntwo")).files).result = .ok second ∧
          second.passed = true ∧ second.updated = false := by
  have hfirst := result_runTest_noteFiles "one\ntwo" (by decide +kernel)
  refine ⟨hfirst, ?_⟩
  obtain ⟨henabled, source, hsource, hcase, hread⟩ :=
    of_result_runTest_updated (loadCase_noteFiles _) (by decide +kernel) hfirst rfl
  rw [result_runTest_stored_iff hcase (by decide) henabled hsource hread]
  decide

end TestSettings

end FormCompiler
