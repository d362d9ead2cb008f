/-
# Warehouse.Mysql.Migration.Cooperative — the run that goes through

If the rows recorded for the versions of a manifest agree with it and the bootstrap list is in
order, a server that nothing happens to lets `run` succeed.  The walk chooses an answer at every
statement, so it goes through the runner forwards, and what it needs of the tables is exactly what
the runner checks in the rows of its own versions.
-/
import Warehouse.Mysql.Migration.Ledger

namespace Warehouse.Mysql.Migration

open Warehouse.Interaction Warehouse.Interaction.Program

variable {exact : Prop} {α : Type} {t t₀ t' : Tables} {version : ℕ} {step : MigrationStep}
  {definition : MigrationDefinition} {report : MigrationReport} {c : Tables × Session}

/-- The runner's server with nothing going wrong. -/
abbrev willing (exact : Prop) :
    Environment (ExecutorCall MigrationStatement) ExecutorCall.Answer (Tables × Session) :=
  (migrationServer exact).solo

/-! ## Statements that are served -/

theorem may_execute {Q : α → Tables × Session → Prop} {statement : MigrationStatement}
    {next : SqlResult → SqlProgram MigrationStatement α} (response : SqlResponse)
    (hrole : (migrationServer exact).role (.execute statement) = .work)
    (htruthful : Truthful exact (seen c) (.execute statement) response)
    (hnext : may (willing exact) Q (next (.ok response)) (performs 0 statement c)) :
    may (willing exact) Q (.call (.execute statement) next) c := by
  refine ⟨.ok response, _, ?_, hnext⟩
  simp only [willing, Server.solo, hrole]
  exact ⟨⟨0, rfl⟩, htruthful⟩

theorem may_control {Q : α → Tables × Session → Prop} {statement : TxControl}
    {next : SqlResult → SqlProgram MigrationStatement α}
    (hnext : may (willing exact) Q (next (.ok {})) (controls statement c)) :
    may (willing exact) Q (.call (.control statement) next) c :=
  ⟨.ok {}, _, ⟨⟨0, rfl⟩, trivial⟩, hnext⟩

/-- The response that confirms a check. -/
def one : SqlResponse := { rows := [[some (lit "1")]] }

theorem truthy_one : truthy one = true := by decide

/-! ## The work of a step -/

theorem applyTransactional_may (hdml : step.execution = .transactionalDml) :
    may (willing exact) (fun r c => r = .ok () ∧
      c = (t.change (.effect (version, step.id)), none))
      (applyTransactional version step) (t, none) := by
  have hperform : performs 0 (.apply version step) (t, some []) =
      (t, some [.effect (version, step.id)]) := by
    simp [performs, hdml, record]
  refine may_control (may_control (may_execute {} rfl trivial ?_))
  change may (willing exact) _ _ (performs 0 (.apply version step) (t, some []))
  rw [hperform]
  refine may_execute one rfl ?_ ?_
  · intro _ _
    simp [truthy_one, seen, Tables.change]
  · exact may_control ⟨rfl, rfl⟩

theorem applyStep_may :
    may (willing exact) (fun r c => r = .ok () ∧ ∃ t', c = (t', none) ∧ SameRows t t')
      (applyStep version step) (t, none) := by
  unfold applyStep
  cases hexec : step.execution with
  | transactionalDml =>
      refine may_post (applyTransactional_may hexec) ?_
      rintro r c ⟨rfl, rfl⟩
      exact ⟨rfl, _, rfl, sameRows_effect⟩
  | atomicDdl =>
      have hperform : performs 0 (.apply version step) (t, none) =
          (t.change (.effect (version, step.id)), none) := by
        simp [performs, hexec, seen]
      refine may_execute {} rfl trivial ?_
      rw [hperform]
      refine may_execute one rfl ?_ ⟨rfl, _, rfl, sameRows_effect⟩
      intro _ _
      simp [truthy_one, seen, Tables.change]
  | check =>
      refine may_execute one rfl ?_ ⟨rfl, t, rfl, sameRows_refl⟩
      exact fun _ hcheck => absurd hexec hcheck

/-- From the RUNNING record to the SUCCEEDED record. -/
theorem performStep_may (hpending : StepPending definition.version step t) :
    mayx (willing exact) (fun r c => r.status = report.status ∧
      ∃ t', c = (t', none) ∧ StepWritten definition.version step succeeded t t')
      (performStep definition report step) (t, none) := by
  let t₁ := t.change (.step 0 definition.version step running [])
  have hrunning : StepWritten definition.version step running t t₁ :=
    ⟨change_step_recorded hpending, rfl, change_step_onlyStep.steps⟩
  refine may_execute {} rfl trivial ?_
  refine mayx_bind (mayx_lift (may_post applyStep_may ?_))
  rintro r c ⟨rfl, t₂, rfl, hsame⟩
  refine may_execute {} rfl trivial ⟨_, rfl, ?_, _, rfl, ?_⟩
  · exact starting_status report step
  · exact hrunning.again running_ne_succeeded hsame

theorem recoverStep_may (hpending : StepPending definition.version step t) :
    mayx (willing exact) (fun r c => r.status = report.status ∧
      ∃ t', c = (t', none) ∧ StepWritten definition.version step succeeded t t')
      (recoverStep definition report step) (t, none) := by
  by_cases heffect : step.execution = .check ∨ t.effects (definition.version, step.id) ≠ 0
  · -- the effect is there: the step is only recorded
    refine may_execute one rfl ?_ ?_
    · intro _ hcheck
      simp only [truthy_one, true_iff]
      exact heffect.resolve_left hcheck
    · refine may_execute {} rfl trivial ⟨_, rfl, rfl, _, rfl, change_step_recorded hpending, rfl, ?_⟩
      exact change_step_onlyStep.steps
  · push Not at heffect
    refine may_execute {} rfl ?_ (performStep_may hpending)
    intro _ _
    simp [truthy, seen, heffect.2]

/-! ## One version -/

/-- The rows recorded for the definition's version agree with it: its name, every step row, and all
required steps SUCCEEDED if the version is. -/
structure Accepts (definition : MigrationDefinition) (t : Tables) : Prop where
  name : ∀ row, t.versions definition.version = some row → row.name = definition.name
  current : ∀ id row, t.steps (definition.version, id) = some row →
    ∃ step, currentStep definition id = some step ∧ row.Matches step
  complete : ∀ row, t.versions definition.version = some row → row.status = succeeded →
    ∀ step ∈ definition.steps, step.Required →
      ∃ stepRow, t.steps (definition.version, step.id) = some stepRow ∧
        stepRow.status = succeeded

/-- A truthful answer to the read of the version's row. -/
def versionRows (version : ℕ) (t : Tables) : SqlResponse where
  rows := ((t.versions version).map fun row => [some row.name, some row.status]).toList

/-- A truthful answer to the read of the step rows, if all of them are the definition's. -/
def stepRows (definition : MigrationDefinition) (t : Tables) : SqlResponse where
  rows := definition.steps.filterMap fun step =>
    (t.steps (definition.version, step.id)).map fun row => row.toRecordedStep.row step.id

theorem stepRows_truthful (haccepts : Accepts definition t) :
    Truthful exact t (.execute (.recordedSteps definition.version)) (stepRows definition t) := by
  intro r
  constructor
  · intro hr
    obtain ⟨step, _, hrow⟩ := List.mem_filterMap.mp hr
    obtain ⟨row, hstored, rfl⟩ := Option.map_eq_some_iff.mp hrow
    exact ⟨step.id, row, hstored, rfl⟩
  · rintro ⟨id, row, hstored, rfl⟩
    obtain ⟨step, hcurrent, _⟩ := haccepts.current id row hstored
    have hid : step.id = id := by simpa using List.find?_some hcurrent
    subst hid
    refine List.mem_filterMap.mpr ⟨step, List.mem_of_find?_eq_some hcurrent, ?_⟩
    rw [hstored]
    rfl

/-- The loop over rows that all agree with the definition does not fail. -/
theorem readRecordedSteps_ok (report : MigrationReport) (steps : RecordedSteps) {rows : List SqlRow}
    (h : ∀ r ∈ rows, ∃ (id : Bytes) (recorded : RecordedStep) (step : MigrationStep),
      r = recorded.row id ∧ currentStep definition id = some step ∧ recorded.Matches step) :
    ∃ result, readRecordedSteps definition report steps rows = .ok result := by
  induction rows generalizing steps with
  | nil => exact ⟨steps, rfl⟩
  | cons r rows ih =>
      obtain ⟨id, recorded, step, rfl, hcurrent, hmatches⟩ := h r List.mem_cons_self
      obtain ⟨result, hresult⟩ := ih _ fun r hr => h r (List.mem_cons_of_mem _ hr)
      refine ⟨result, ?_⟩
      rw [← hresult]
      simp only [RecordedStep.row, readRecordedSteps, hcurrent]
      exact if_pos hmatches

theorem readVersionState_ok (report : MigrationReport) (haccepts : Accepts definition t) :
    ∃ complete, readVersionState definition report (versionRows definition.version t).rows =
      .ok complete := by
  unfold versionRows
  cases hrow : t.versions definition.version with
  | none => exact ⟨false, rfl⟩
  | some row => simp [readVersionState, haccepts.name row hrow]

theorem runStep_may {recordedSteps : RecordedSteps} {versionWasComplete : Bool}
    {doneSteps restSteps : List MigrationStep}
    (hids : definition.steps.Pairwise fun s t => s.id < t.id)
    (hread : Reconciled definition recordedSteps t₀)
    (hcomplete : versionWasComplete = true → ∀ step ∈ definition.steps, step.Required →
      ∃ row, t₀.steps (definition.version, step.id) = some row ∧ row.status = succeeded)
    (hsteps : definition.steps = doneSteps ++ step :: restSteps)
    (hloop : StepLoop definition versionWasComplete t₀ doneSteps t) :
    mayx (willing exact) (fun r c => r.status = report.status ∧ ∃ t', c = (t', none) ∧
      t'.versions = t.versions ∧
      StepLoop definition versionWasComplete t₀ (doneSteps ++ [step]) t')
      (runStep definition versionWasComplete recordedSteps report step) (t, none) := by
  have hmem : step ∈ definition.steps := by
    rw [hsteps]
    exact List.mem_append_right _ List.mem_cons_self
  have hfresh := ids_fresh hids hsteps
  have hsame : t.steps (definition.version, step.id) = t₀.steps (definition.version, step.id) :=
    hloop.todo step.id fun s hs _ => hfresh s hs
  have hmatches := hread.row_matches hids hmem
  rw [← hsame] at hmatches
  unfold runStep
  by_cases hcleanup : step.phase = .cleanup
  · rw [if_pos hcleanup]
    exact mayx_pure ⟨rfl, t, rfl, rfl, hloop.skip fun hrequired => absurd hcleanup hrequired⟩
  rw [if_neg hcleanup, hread.lookup, ← hsame]
  have hwork : ∀ {work : Runner MigrationReport},
      mayx (willing exact) (fun r c => r.status = report.status ∧
        ∃ t', c = (t', none) ∧ StepWritten definition.version step succeeded t t') work (t, none) →
      mayx (willing exact) (fun r c => r.status = report.status ∧ ∃ t', c = (t', none) ∧
        t'.versions = t.versions ∧
        StepLoop definition versionWasComplete t₀ (doneSteps ++ [step]) t') work (t, none) := by
    intro work hdone
    refine mayx_post hdone ?_
    rintro r c ⟨hstatus, t', rfl, hwritten⟩
    exact ⟨hstatus, t', rfl, hwritten.versions, hloop.written hcleanup hfresh hwritten⟩
  cases hrow : t.steps (definition.version, step.id) with
  | some row =>
      simp only [Option.map_some]
      by_cases hstatus : row.status = succeeded
      · rw [if_neg (fun h => h.2 hstatus), if_pos hstatus]
        exact mayx_pure ⟨rfl, t, rfl, rfl,
          hloop.skip fun _ => ⟨row, hrow, hmatches row hrow, hstatus⟩⟩
      · rw [if_neg, if_neg hstatus]
        · refine hwork (recoverStep_may ?_)
          intro row' hrow'
          obtain rfl := Option.some.inj (hrow.symm.trans hrow')
          exact ⟨hmatches row hrow, hstatus⟩
        · rintro ⟨htrue, _⟩
          obtain ⟨row', hrow', hsucceeded⟩ := hcomplete htrue step hmem hcleanup
          obtain rfl := Option.some.inj ((hsame.symm.trans hrow).symm.trans hrow')
          exact hstatus hsucceeded
  | none =>
      simp only [Option.map_none]
      rw [if_neg]
      · refine hwork (performStep_may ?_)
        intro row hrow'
        rw [hrow] at hrow'
        cases hrow'
      · intro htrue
        obtain ⟨row', hrow', _⟩ := hcomplete htrue step hmem hcleanup
        rw [← hsame, hrow] at hrow'
        cases hrow'

/-- Nothing of the other versions has moved. -/
structure OnlyVersion (version : ℕ) (t t' : Tables) : Prop where
  versions : ∀ v ≠ version, t'.versions v = t.versions v
  steps : ∀ a, a.1 ≠ version → t'.steps a = t.steps a

theorem startVersion_may {versionWasComplete : Bool} :
    mayx (willing exact) (fun _ c => ∃ t', c = (t', none) ∧ t'.steps = t.steps ∧
      (versionWasComplete = false → VersionOpen definition.version t') ∧
      OnlyVersion definition.version t t')
      (startVersion definition versionWasComplete report) (t, none) := by
  unfold startVersion
  split
  · rename_i hcomplete
    exact mayx_pure ⟨t, rfl, rfl, fun h => by simp [hcomplete] at h, fun _ _ => rfl, fun _ _ => rfl⟩
  · refine may_execute {} rfl trivial ⟨_, rfl, _, rfl, rfl, fun _ => ?_, ?_, fun _ _ => rfl⟩
    · exact change_version_open running_ne_succeeded
    · intro v hv
      simp [Tables.change, hv]

theorem finishVersion_may {versionWasComplete : Bool} :
    mayx (willing exact) (fun r c => r.status = report.status ∧ ∃ t', c = (t', none) ∧
      OnlyVersion definition.version t t')
      (finishVersion definition versionWasComplete report) (t, none) := by
  unfold finishVersion
  split
  · exact mayx_pure ⟨rfl, t, rfl, fun _ _ => rfl, fun _ _ => rfl⟩
  · refine may_execute {} rfl trivial ⟨_, rfl, rfl, _, rfl, ?_, fun _ _ => rfl⟩
    intro v hv
    simp [Tables.change, hv]

theorem runDefinition_may (hids : definition.steps.Pairwise fun s t => s.id < t.id)
    (haccepts : Accepts definition t) :
    mayx (willing exact) (fun r c => r.status = report.status ∧ ∃ t', c = (t', none) ∧
      OnlyVersion definition.version t t')
      (runDefinition report definition) (t, none) := by
  obtain ⟨versionWasComplete, hversion⟩ := readVersionState_ok report haccepts
  have htruthful : Truthful exact t (.execute (.recordedSteps definition.version))
    (stepRows definition t) := stepRows_truthful haccepts
  have hrows : ∀ r ∈ (stepRows definition t).rows,
      ∃ (id : Bytes) (recorded : RecordedStep) (step : MigrationStep),
        r = recorded.row id ∧ currentStep definition id = some step ∧ recorded.Matches step := by
    intro r hr
    obtain ⟨id, row, hstored, rfl⟩ := (htruthful r).mp hr
    obtain ⟨step, hcurrent, hmatches⟩ := haccepts.current id row hstored
    exact ⟨id, row.toRecordedStep, step, rfl, hcurrent, hmatches⟩
  obtain ⟨recordedSteps, hrecorded⟩ := readRecordedSteps_ok report [] hrows
  have hread := readRecordedSteps_truthful htruthful hrecorded
  have hanswer : Truthful exact t (.execute (.versionState definition.version))
    (versionRows definition.version t) := rfl
  have hstate := readVersionState_truthful hanswer hversion
  have hcomplete : versionWasComplete = true → ∀ step ∈ definition.steps, step.Required →
      ∃ row, t.steps (definition.version, step.id) = some row ∧ row.status = succeeded := by
    intro htrue
    cases hrow : t.versions definition.version with
    | none => simp [hstate.2 hrow] at htrue
    | some row => exact haccepts.complete row hrow ((hstate.1 row hrow).2.mp htrue)
  refine may_execute (versionRows definition.version t) rfl rfl (mayx_bind ?_)
  rw [hversion]
  refine mayx_pure (may_execute (stepRows definition t) rfl htruthful (mayx_bind ?_))
  rw [hrecorded]
  refine mayx_pure (mayx_bind (mayx_post startVersion_may ?_))
  rintro - c ⟨t₁, rfl, hsteps₁, hopen₁, honly₁⟩
  let I (doneSteps : List MigrationStep) (r : MigrationReport) (c : Tables × Session) : Prop :=
    r.status = report.status ∧ ∃ t', c = (t', none) ∧ t'.versions = t₁.versions ∧
      StepLoop definition versionWasComplete t doneSteps t'
  have hstart : I [] report (t₁, none) := by
    refine ⟨rfl, t₁, rfl, rfl, hopen₁, ?_, ?_, ?_⟩
    · intro s hs
      cases hs
    · intro id _
      rw [hsteps₁]
    · intro a _
      rw [hsteps₁]
  refine mayx_bind (mayx_post (mayx_foldlM I ?_ hstart) ?_)
  · rintro doneSteps step restSteps r c hsteps ⟨hstatus, t₂, rfl, hversions₂, hloop⟩
    refine mayx_post (runStep_may hids hread hcomplete hsteps hloop) ?_
    rintro r' c' ⟨hstatus', t₃, rfl, hversions₃, hloop₃⟩
    exact ⟨hstatus'.trans hstatus, t₃, rfl, hversions₃.trans hversions₂, hloop₃⟩
  · rintro r c ⟨hstatus, t₂, rfl, hversions₂, hloop⟩
    refine mayx_post finishVersion_may ?_
    rintro r' c' ⟨hstatus', t₃, rfl, honly₃⟩
    refine ⟨hstatus'.trans hstatus, t₃, rfl, ?_, ?_⟩
    · intro v hv
      rw [honly₃.versions v hv, hversions₂, honly₁.versions v hv]
    · intro a ha
      rw [honly₃.steps a ha, hloop.others a ha]

/-! ## The whole run -/

/-- What `run` needs to get through: a bootstrap list in order, and rows that the manifest's own
versions agree with. -/
structure Acceptable (m : Manifest) (bootstrapSql : List MigrationBootstrapStep) (t : Tables) :
    Prop where
  bootstrap : bootstrapSql ≠ []
  single : ∀ b ∈ bootstrapSql,
    isSingleServerStatement b.applySql = true ∧ isSingleServerStatement b.verifySql = true
  rows : ∀ d ∈ m.definitions, Accepts d t

theorem Accepts.of_onlyVersion {v : ℕ} (h : Accepts definition t) (honly : OnlyVersion v t t')
    (hne : definition.version ≠ v) : Accepts definition t' := by
  refine ⟨fun row hrow => ?_, fun id row hrow => ?_, fun row hrow hstatus step hstep hreq => ?_⟩
  · rw [honly.versions _ hne] at hrow
    exact h.name row hrow
  · rw [honly.steps _ hne] at hrow
    exact h.current id row hrow
  · rw [honly.versions _ hne] at hrow
    rw [honly.steps _ hne]
    exact h.complete row hrow hstatus step hstep hreq

theorem runBootstrapStep_may {b : MigrationBootstrapStep}
    (hsingle : isSingleServerStatement b.applySql = true ∧
      isSingleServerStatement b.verifySql = true) :
    mayx (willing exact) (fun _ c => c = (t, none)) (runBootstrapStep report b) (t, none) := by
  unfold runBootstrapStep
  rw [if_neg (by simp [hsingle])]
  refine may_execute {} rfl trivial (may_execute one rfl trivial ?_)
  exact ⟨report, rfl, rfl⟩

theorem runLocked_may {m : Manifest} {bootstrapSql : List MigrationBootstrapStep}
    (h : Acceptable m bootstrapSql t) :
    mayx (willing exact) (fun r c => r.status = .succeeded ∧ c.2 = none)
      (runLocked m.definitions bootstrapSql report) (t, none) := by
  unfold runLocked
  rw [if_neg (by simp [h.bootstrap])]
  let Boot (_ : List MigrationBootstrapStep) (_ : MigrationReport) (c : Tables × Session) : Prop :=
    c = (t, none)
  let Defs (done : List MigrationDefinition) (r : MigrationReport) (c : Tables × Session) : Prop :=
    r.status = .succeeded ∧ ∃ t', c = (t', none) ∧
      ∀ d ∈ m.definitions, d ∉ done → Accepts d t'
  refine mayx_bind (mayx_post (mayx_foldlM Boot ?_ rfl) ?_)
  · rintro done b rest r c hb rfl
    exact runBootstrapStep_may (h.single b (by rw [hb]; simp))
  rintro r c rfl
  have hstart : Defs [] { r with status := .succeeded } (t, none) :=
    ⟨rfl, t, rfl, fun d hd _ => h.rows d hd⟩
  refine mayx_post (mayx_foldlM Defs ?_ hstart) ?_
  · rintro done definition rest r c hm ⟨hstatus, t', rfl, haccepts⟩
    have hdefinition : definition ∈ m.definitions := by
      rw [hm]
      exact List.mem_append_right _ List.mem_cons_self
    have hversions := m.versions_increasing
    rw [hm, List.pairwise_append] at hversions
    have hnew : definition ∉ done := fun hin =>
      Nat.lt_irrefl _ (hversions.2.2 definition hin definition List.mem_cons_self)
    refine mayx_post (runDefinition_may (m.ids_increasing definition hdefinition)
      (haccepts definition hdefinition hnew)) ?_
    rintro r' c' ⟨hstatus', t'', rfl, honly⟩
    refine ⟨hstatus'.trans hstatus, t'', rfl, fun d hd hnot => ?_⟩
    have hne : d ≠ definition := fun heq => hnot (by simp [heq])
    refine (haccepts d hd fun hin => hnot (List.mem_append_left _ hin)).of_onlyVersion honly ?_
    exact fun hversion => hne (m.version_unique hd hdefinition hversion)
  · rintro r' c' ⟨hstatus, t', rfl, _⟩
    exact ⟨hstatus, rfl⟩

/-- Against a server that nothing happens to, an acceptable database is migrated with success. -/
theorem run_may (exact : Prop) {m : Manifest} {bootstrapSql : List MigrationBootstrapStep}
    (lockTimeoutSeconds : ℕ) (h : Acceptable m bootstrapSql t) :
    may (willing exact) (fun report _ => report.status = .succeeded)
      (run m.definitions bootstrapSql lockTimeoutSeconds) (t, none) := by
  obtain ⟨acquired, htrue⟩ : ∃ response, truthy response = true := ⟨one, truthy_one⟩
  refine ⟨.ok acquired, _, ⟨htrue, rfl⟩, ?_⟩
  change may (willing exact) _ (if !truthy acquired then _ else _) _
  rw [if_neg (by simp [htrue])]
  refine (may_bind (runLocked m.definitions bootstrapSql _).run _ _).mpr
    (may_post (runLocked_may h) ?_)
  rintro r c ⟨report, rfl, hstatus, _⟩
  exact ⟨.ok one, c, rfl, hstatus⟩

end Warehouse.Mysql.Migration
