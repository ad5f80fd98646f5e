import FormCompiler.Config.Basic
import Mathlib.Data.List.Nodup

/-!
# Overrides of the configuration

The environment has a setting for each of four values, and these are changed one after the other;
then the result is checked.  What one override does is stated for all four of them alike, and an
induction over their order says how far they come.  The principal result: without an error every
value is the one of its override and passes the check; and an error leaves the overrides before the
one that failed, or all of them, in the configuration.
-/

namespace FormCompiler.Config

/-! ## Outcomes of changes -/

section Outcome

variable {change : Change Unit} {next : Unit → Change Unit} {before middle : Config}

/-- What comes of a change, and the configuration that it leaves. -/
def outcome (change : Change Unit) (before : Config) : Except ConfigProblem Unit × Config :=
  change.run before

theorem outcome_bind (change : Change Unit) (next : Unit → Change Unit) (before : Config) :
    outcome (change >>= next) before =
      match outcome change before with
      | (.ok (), middle) => outcome (next ()) middle
      | (.error problem, middle) => (.error problem, middle) := by
  change (ExceptT.bindCont next (outcome change before).1 : StateM Config _)
    (outcome change before).2 = _
  rcases outcome change before with ⟨_ | _, _⟩
  · rfl
  · rfl

theorem outcome_bind_of_ok (h : outcome change before = (.ok (), middle)) :
    outcome (change >>= next) before = outcome (next ()) middle := by
  rw [outcome_bind, h]

theorem outcome_bind_of_error {problem : ConfigProblem}
    (h : outcome change before = (.error problem, middle)) :
    outcome (change >>= next) before = (.error problem, middle) := by
  rw [outcome_bind, h]

end Outcome

/-! ## The overrides -/

/-- What the environment has a setting for. -/
inductive Override where
  | componentName
  | indentWidth
  | submitLabel
  | mode
  deriving DecidableEq

namespace Override

/-- What a setting stands for. -/
inductive Value where
  | text (text : String)
  | width (width : Nat)
  | mode (mode : StrictMode)
  deriving DecidableEq

def settingName : Override → String
  | componentName => "FORMWRIGHT_COMPONENT_NAME"
  | indentWidth => "FORMWRIGHT_INDENT_WIDTH"
  | submitLabel => "FORMWRIGHT_SUBMIT_LABEL"
  | mode => "FORMWRIGHT_STRICT_MODE"

def read (setting : String) : Override → Except ConfigProblem Value
  | componentName => .ok (.text setting)
  | indentWidth => (widthOf setting).map .width
  | submitLabel => .ok (.text setting)
  | mode => ((StrictMode.parse setting).mapError .strictMode).map .mode

def value (config : Config) : Override → Value
  | componentName => .text config.emitter.componentName
  | indentWidth => .width config.emitter.indentWidth
  | submitLabel => .text config.emitter.submitLabel
  | mode => .mode config.mode

/-- The override is made: its value is what its setting is read as, or what it was where the
environment has none. -/
def IsMade (environment : Environment) (before after : Config) (override : Override) : Prop :=
  match environment override.settingName with
  | none => override.value after = override.value before
  | some setting => override.read setting = .ok (override.value after)

/-- The setting of the override cannot be read. -/
def Fails (environment : Environment) (override : Override) (problem : ConfigProblem) : Prop :=
  ∃ setting, environment override.settingName = some setting ∧
    override.read setting = .error problem

def apply (setting : String) : Override → Except ConfigProblem (Config → Config)
  | componentName =>
      .ok fun config => { config with emitter := { config.emitter with componentName := setting } }
  | indentWidth => do
      let width ← widthOf setting
      pure fun config => { config with emitter := { config.emitter with indentWidth := width } }
  | submitLabel =>
      .ok fun config => { config with emitter := { config.emitter with submitLabel := setting } }
  | mode => do
      let mode ← (StrictMode.parse setting).mapError .strictMode
      pure fun config => { config with mode }

def change (environment : Environment) (override : Override) : Change Unit :=
  overrideBy environment override.settingName fun setting => override.apply setting

def all : List Override := [componentName, indentWidth, submitLabel, mode]

/-- The overrides that are done are made, and all else is as it was. -/
structure Reaches (environment : Environment) (before : Config) (done : List Override)
    (after : Config) : Prop where
  made : ∀ override ∈ done, override.IsMade environment before after
  kept : ∀ override, override ∉ done → override.value after = override.value before
  logging : after.logging = before.logging

variable {environment : Environment} {before middle after : Config} {override : Override}
  {done : List Override}

theorem Reaches.refl (environment : Environment) (config : Config) :
    Reaches environment config [] config :=
  ⟨nofun, fun _ _ => rfl, rfl⟩

theorem Reaches.cons (h : Reaches environment before [override] middle)
    (hrest : Reaches environment middle done after) (hnew : override ∉ done) :
    Reaches environment before (override :: done) after := by
  refine ⟨fun other hother => ?_, fun other hother => ?_, hrest.logging.trans h.logging⟩
  · rcases List.mem_cons.mp hother with rfl | hmem
    · have hmade := h.made other List.mem_cons_self
      unfold IsMade at hmade ⊢
      rwa [hrest.kept other hnew]
    · have hne : other ∉ [override] := by
        rw [List.mem_singleton]
        rintro rfl
        exact hnew hmem
      have hmade := hrest.made other hmem
      unfold IsMade at hmade ⊢
      rwa [h.kept other hne] at hmade
  · rw [List.mem_cons, not_or] at hother
    exact (hrest.kept other hother.2).trans (h.kept other (by simpa using hother.1))

/-! ## One override -/

theorem outcome_overrideBy (environment : Environment) (name : String)
    (apply : String → Except ConfigProblem (Config → Config)) (before : Config) :
    outcome (overrideBy environment name apply) before =
      match environment name with
      | none => (.ok (), before)
      | some setting =>
          match apply setting with
          | .ok change => (.ok (), change before)
          | .error problem => (.error problem, before) := by
  unfold overrideBy
  cases environment name with
  | none => rfl
  | some setting =>
      dsimp only
      cases apply setting with
      | ok change => rfl
      | error problem => rfl

/-- A setting that can be read puts its value in the place of the override, and nothing else. -/
structure Sets (override : Override) (setting : String) (change : Config → Config) : Prop where
  own (config : Config) : override.read setting = .ok (override.value (change config))
  others (other : Override) (hne : other ≠ override) (config : Config) :
    other.value (change config) = other.value config
  logging (config : Config) : (change config).logging = config.logging

theorem apply_cases (override : Override) (setting : String) :
    (∃ change, override.apply setting = .ok change ∧ override.Sets setting change) ∨
      ∃ problem, override.apply setting = .error problem ∧
        override.read setting = .error problem := by
  cases override with
  | componentName =>
      refine .inl ⟨_, rfl, fun _ => rfl, fun other hne _ => ?_, fun _ => rfl⟩
      cases other with
      | componentName => exact absurd rfl hne
      | _ => rfl
  | indentWidth =>
      unfold apply read
      cases hwidth : widthOf setting with
      | error problem => exact .inr ⟨problem, rfl, rfl⟩
      | ok width =>
          refine .inl ⟨_, rfl, fun _ => ?_, fun other hne _ => ?_, fun _ => rfl⟩
          · unfold read
            rw [hwidth]
            rfl
          · cases other with
            | indentWidth => exact absurd rfl hne
            | _ => rfl
  | submitLabel =>
      refine .inl ⟨_, rfl, fun _ => rfl, fun other hne _ => ?_, fun _ => rfl⟩
      cases other with
      | submitLabel => exact absurd rfl hne
      | _ => rfl
  | mode =>
      unfold apply read
      cases hmode : StrictMode.parse setting with
      | error name => exact .inr ⟨.strictMode name, rfl, rfl⟩
      | ok mode =>
          refine .inl ⟨_, rfl, fun _ => ?_, fun other hne _ => ?_, fun _ => rfl⟩
          · unfold read
            rw [hmode]
            rfl
          · cases other with
            | mode => exact absurd rfl hne
            | _ => rfl

/-- An override is made and changes nothing else, or it fails and changes nothing. -/
theorem outcome_change (environment : Environment) (before : Config) (override : Override) :
    (∃ after, outcome (override.change environment) before = (.ok (), after) ∧
        Reaches environment before [override] after) ∨
      ∃ problem, outcome (override.change environment) before = (.error problem, before) ∧
        override.Fails environment problem := by
  unfold change
  rw [outcome_overrideBy]
  cases hsetting : environment override.settingName with
  | none =>
      refine .inl ⟨before, rfl, ?_, fun _ _ => rfl, rfl⟩
      intro other hother
      rw [List.mem_singleton.mp hother]
      unfold IsMade
      rw [hsetting]
  | some setting =>
      dsimp only
      rcases override.apply_cases setting with ⟨change, happly, hsets⟩ | ⟨problem, happly, hread⟩
      · rw [happly]
        refine .inl ⟨change before, rfl, ?_, fun other hother => ?_, hsets.logging before⟩
        · intro other hother
          rw [List.mem_singleton.mp hother]
          unfold IsMade
          rw [hsetting]
          exact hsets.own before
        · exact hsets.others other (by simpa using hother) before
      · rw [happly]
        exact .inr ⟨problem, rfl, setting, hsetting, hread⟩

/-! ## All overrides -/

/-- Overrides are made in their order up to the first that fails. -/
theorem outcome_forM (environment : Environment) {overrides : List Override}
    (hnodup : overrides.Nodup) (before : Config) :
    ∃ done rest after, overrides = done ++ rest ∧ Reaches environment before done after ∧
      (rest = [] ∧ outcome (forM overrides (change environment)) before = (.ok (), after) ∨
        ∃ override others problem, rest = override :: others ∧
          override.Fails environment problem ∧
          outcome (forM overrides (change environment)) before = (.error problem, after)) := by
  induction overrides generalizing before with
  | nil => exact ⟨[], [], before, rfl, .refl environment before, .inl ⟨rfl, rfl⟩⟩
  | cons override overrides ih =>
      obtain ⟨hnew, hothers⟩ := List.nodup_cons.mp hnodup
      rw [List.forM_cons]
      rcases outcome_change environment before override with
        ⟨middle, hmade, hreaches⟩ | ⟨problem, hfailed, hfails⟩
      · obtain ⟨done, rest, after, rfl, hdone, hresult⟩ := ih hothers middle
        refine ⟨override :: done, rest, after, rfl, ?_, ?_⟩
        · exact hreaches.cons hdone fun hmem => hnew (List.mem_append_left rest hmem)
        · rwa [outcome_bind_of_ok hmade]
      · refine ⟨[], override :: overrides, before, rfl, .refl environment before, .inr ?_⟩
        exact ⟨override, overrides, problem, rfl, hfails, outcome_bind_of_error hfailed⟩

end Override

def checkNow : Change Unit := do
  match (← get).problem? with
  | none => pure ()
  | some problem => throw problem

theorem outcome_checkNow (config : Config) :
    outcome checkNow config =
      match config.problem? with
      | none => (.ok (), config)
      | some problem => (.error problem, config) := by
  change outcome (match config.problem? with
    | none => pure ()
    | some problem => throw problem) config = _
  cases config.problem? with
  | none => rfl
  | some problem => rfl

theorem applyOverrides_eq (environment : Environment) :
    applyOverrides environment =
      forM Override.all (Override.change environment) >>= fun _ => checkNow := by
  simp only [Override.all, List.forM_cons, List.forM_nil, bind_assoc]
  rfl

theorem mergeEnvironment_eq (environment : Environment) :
    mergeEnvironment environment = applyOverrides environment >>= fun _ =>
      modify fun config => { config with logging := config.logging.override environment } := rfl

/-! ## Errors -/

variable {environment : Environment} {before after : Config} {problem : ConfigProblem}
  {done : List Override}

/-- Where an error comes from, and which overrides are made before. -/
inductive FailsAfter (environment : Environment) (after : Config) (problem : ConfigProblem) :
    List Override → Prop where
  | indentWidth (h : Override.indentWidth.Fails environment problem) :
      FailsAfter environment after problem [.componentName]
  | mode (h : Override.mode.Fails environment problem) :
      FailsAfter environment after problem [.componentName, .indentWidth, .submitLabel]
  | check (h : after.problem? = some problem) : FailsAfter environment after problem Override.all

/-- Only the width and the mode are settings that may not be readable. -/
theorem failsAfter_of_fails {override : Override} {others : List Override}
    (h : override.Fails environment problem) (hall : Override.all = done ++ override :: others) :
    FailsAfter environment after problem done := by
  obtain ⟨setting, hsetting, hread⟩ := h
  have hdone : done = Override.all.takeWhile (· ≠ override) := by
    have hnot : override ∉ done := by
      have hnodup : (done ++ override :: others).Nodup := hall ▸ by decide
      exact fun hmem => List.disjoint_of_nodup_append hnodup hmem List.mem_cons_self
    rw [hall, List.takeWhile_append_of_pos]
    · simp
    · intro other hother
      simpa using fun heq : other = override => hnot (heq ▸ hother)
  subst hdone
  cases override with
  | componentName => cases hread
  | indentWidth => exact .indentWidth ⟨setting, hsetting, hread⟩
  | submitLabel => cases hread
  | mode => exact .mode ⟨setting, hsetting, hread⟩

theorem eq_of_values (hvalues : ∀ override : Override, override.value after = override.value before)
    (hlogging : after.logging = before.logging) : after = before := by
  obtain ⟨⟨name, width, label⟩, mode, logging⟩ := after
  obtain ⟨⟨name', width', label'⟩, mode', logging'⟩ := before
  cases hvalues .componentName
  cases hvalues .indentWidth
  cases hvalues .submitLabel
  cases hvalues .mode
  cases hlogging
  rfl

/-- Overrides leave the configuration as it was when each of them gives the value that was there. -/
theorem Override.Reaches.eq_iff (h : Override.Reaches environment before done after) :
    after = before ↔ ∀ override ∈ done, override.IsMade environment before before := by
  constructor
  · rintro rfl
    exact h.made
  · intro hsame
    refine eq_of_values (fun override => ?_) h.logging
    by_cases hdone : override ∈ done
    · have hafter := h.made override hdone
      have hbefore := hsame override hdone
      unfold Override.IsMade at hafter hbefore
      split at hafter
      · exact hafter
      · next setting hsetting =>
        rw [hsetting] at hbefore
        exact Except.ok.inj (hafter.symm.trans hbefore)
    · exact h.kept override hdone

/-! ## The principal result -/

/-- Without an error every value is the one of its override, or as it was, and passes the check.
With an error the overrides before the one that fails are made, all of them if the check fails, and
all else is as it was; so nothing is changed when these overrides give the values that were there.
The settings of log output are overridden last and only without an error. -/
theorem outcome_applyOverrides (environment : Environment) (before : Config) :
    (match outcome (applyOverrides environment) before with
      | (.ok (), after) =>
          after.problem? = none ∧
            (∀ override : Override, override.IsMade environment before after) ∧
            after.logging = before.logging
      | (.error problem, after) =>
          ∃ done, FailsAfter environment after problem done ∧
            Override.Reaches environment before done after ∧
            (after = before ↔ ∀ override ∈ done, override.IsMade environment before before)) ∧
      outcome (mergeEnvironment environment) before =
        match outcome (applyOverrides environment) before with
        | (.ok (), after) =>
            (.ok (), { after with logging := after.logging.override environment })
        | (.error problem, after) => (.error problem, after) := by
  constructor
  · have hnodup : Override.all.Nodup := by decide
    obtain ⟨done, rest, after, hall, hreaches, hresult⟩ :=
      Override.outcome_forM environment hnodup before
    rw [applyOverrides_eq]
    -- every override is made and the check decides, or one fails and there is no check
    rcases hresult with ⟨rfl, hmade⟩ | ⟨override, others, problem, rfl, hfails, hfailed⟩
    · rw [List.append_nil] at hall
      subst hall
      rw [outcome_bind_of_ok hmade, outcome_checkNow]
      cases hcheck : after.problem? with
      | none =>
          refine ⟨hcheck, fun override => hreaches.made override ?_, hreaches.logging⟩
          cases override <;> decide
      | some problem => exact ⟨Override.all, .check hcheck, hreaches, hreaches.eq_iff⟩
    · rw [outcome_bind_of_error hfailed]
      exact ⟨done, failsAfter_of_fails hfails hall, hreaches, hreaches.eq_iff⟩
  · rw [mergeEnvironment_eq, outcome_bind]
    rcases outcome (applyOverrides environment) before with ⟨_ | _, after⟩
    · rfl
    · rfl

/-- An environment with a name and a width. -/
def namedAndIndented (name width : String) : Environment := fun setting =>
  if setting = "FORMWRIGHT_COMPONENT_NAME" then some name
  else if setting = "FORMWRIGHT_INDENT_WIDTH" then some width
  else none

/-- A width that is no number is refused when the name is changed already; and a width that is out
of range stays, so that the configuration does not pass its check any more. -/
theorem applyOverrides_namedAndIndented :
    defaults.problem? = none ∧
      outcome (applyOverrides (namedAndIndented "ContactForm" "wide")) defaults =
        (.error (.widthSetting "wide"), ⟨⟨"ContactForm", 2, "Submit"⟩, .warn, .defaults⟩) ∧
      (outcome (mergeEnvironment (namedAndIndented "ContactForm" "wide")) defaults).2 ≠ defaults ∧
      outcome (applyOverrides (namedAndIndented "ContactForm" "12")) defaults =
        (.error (.indentWidth 12), ⟨⟨"ContactForm", 12, "Submit"⟩, .warn, .defaults⟩) := by
  refine ⟨?_, ?_, ?_, ?_⟩ <;> decide +kernel

end FormCompiler.Config
