/-
# Warehouse.Mysql.Migration.Course — the course of a run, piece by piece

`run` leaves its two loops by some twenty `return`s.  This module says once what each piece of it
sends, how it is answered and what it returns, so that a property of whole runs is read off a finite
case distinction instead of the program: `Performed` is the work of a step behind its RUNNING
record, `StepCourse` one turn of the inner loop, `DefinitionCourse` one turn of the outer loop and
`RunCourse` everything around them.  An event of a run is then found in the turn that it belongs to.
-/
import Warehouse.Mysql.Migration.Bracketing
import Warehouse.Mysql.Migration.LockDiscipline

namespace Warehouse.Mysql.Migration

open Warehouse.Interaction Warehouse.Interaction.Program

/-! ## One step -/

/-- The ways through `performStep`. -/
inductive Performed (definition : MigrationDefinition) (report : MigrationReport)
    (step : MigrationStep) : RunHistory → Except MigrationReport MigrationReport → Prop
  /-- The RUNNING record is refused. -/
  | unrecorded {e : SqlError} :
      Performed definition report step [stmt (.stepStatus definition.version step running []) (.error e)]
        (.error (failed report step.id (lit "migration running state could not be recorded")))
  /-- The work fails. -/
  | broken {response : SqlResponse} {work records : RunHistory} {stepError : Bytes}
      {failure : MigrationReport} :
      Runs (applyStep definition.version step) work (.error stepError) →
      Runs (recordFailure definition (report.starting step) step stepError) records failure →
      Performed definition report step
        (stmt (.stepStatus definition.version step running []) (.ok response) :: (work ++ records))
        (.error failure)
  /-- The work is done, and its record is refused. -/
  | lost {response : SqlResponse} {work : RunHistory} {e : SqlError} :
      Runs (applyStep definition.version step) work (.ok ()) →
      Performed definition report step
        (stmt (.stepStatus definition.version step running []) (.ok response) ::
          (work ++ [stmt (.stepStatus definition.version step succeeded []) (.error e), ⟨.poison, ()⟩]))
        (.error (failed (report.starting step) step.id
          (lit "successful migration step could not be recorded")))
  /-- The work is done and recorded. -/
  | applied {response written : SqlResponse} {work : RunHistory} :
      Runs (applyStep definition.version step) work (.ok ()) →
      Performed definition report step
        (stmt (.stepStatus definition.version step running []) (.ok response) ::
          (work ++ [stmt (.stepStatus definition.version step succeeded []) (.ok written)]))
        (.ok ((report.starting step).applied step.id))

/-- The ways through `runStep`. -/
inductive StepCourse (definition : MigrationDefinition) (versionWasComplete : Bool)
    (recordedSteps : RecordedSteps) (report : MigrationReport) (step : MigrationStep) :
    RunHistory → Except MigrationReport MigrationReport → Prop
  | deferred : step.phase = .cleanup →
      StepCourse definition versionWasComplete recordedSteps report step [] (.ok report)
  /-- The version was complete, and the step is not. -/
  | contradicted {message : Bytes} : step.Required → versionWasComplete = true →
      (∀ existing, recordedSteps.lookup step.id = some existing → existing.status ≠ succeeded) →
      StepCourse definition versionWasComplete recordedSteps report step []
        (.error (failed report step.id message))
  | found {existing : RecordedStep} : step.Required →
      recordedSteps.lookup step.id = some existing → existing.status = succeeded →
      StepCourse definition versionWasComplete recordedSteps report step []
        (.ok (report.alreadyComplete step.id))
  /-- Recovery: the target state is there. -/
  | recovered {existing : RecordedStep} {answer : SqlResult} {written : SqlResponse} :
      step.Required → recordedSteps.lookup step.id = some existing → existing.status ≠ succeeded →
      confirmed answer = true →
      StepCourse definition versionWasComplete recordedSteps report step
        [stmt (.verify definition.version step) answer,
          stmt (.stepStatus definition.version step succeeded []) (.ok written)]
        (.ok (report.applied step.id))
  | unrecovered {existing : RecordedStep} {answer : SqlResult} {e : SqlError} :
      step.Required → recordedSteps.lookup step.id = some existing → existing.status ≠ succeeded →
      confirmed answer = true →
      StepCourse definition versionWasComplete recordedSteps report step
        [stmt (.verify definition.version step) answer,
          stmt (.stepStatus definition.version step succeeded []) (.error e)]
        (.error (failed report step.id (lit "recovered step could not be recorded")))
  /-- Recovery: the step is carried out again. -/
  | again {existing : RecordedStep} {answer : SqlResult} {events : RunHistory}
      {r : Except MigrationReport MigrationReport} :
      step.Required → recordedSteps.lookup step.id = some existing → existing.status ≠ succeeded →
      confirmed answer = false → Performed definition report step events r →
      StepCourse definition versionWasComplete recordedSteps report step
        (stmt (.verify definition.version step) answer :: events) r
  | first {events : RunHistory} {r : Except MigrationReport MigrationReport} :
      step.Required → recordedSteps.lookup step.id = none → Performed definition report step events r →
      StepCourse definition versionWasComplete recordedSteps report step events r

section Steps

variable {definition : MigrationDefinition} {report : MigrationReport} {step : MigrationStep}
  {versionWasComplete : Bool} {recordedSteps : RecordedSteps} {events : RunHistory}
  {r : Except MigrationReport MigrationReport}

theorem traces_performStep : (performStep definition report step).run.Traces
    fun events r => Performed definition report step events r := by
  intro answer
  rcases answer with e | response
  · exact .unrecorded
  refine traces_run_bind (traces_run_lift ?_) (traces_run_lift ?_)
  · refine (traces_runs _).mono fun work applied hwork e he => ?_
    cases he
  refine (traces_runs (applyStep definition.version step)).mono fun work applied hwork a ha => ?_
  cases ha
  rcases applied with stepError | ⟨⟩
  · refine traces_run_bind (traces_run_lift ?_) (traces_run_lift ?_)
    · refine (traces_runs _).mono fun records failure hrecords e he => ?_
      cases he
    · refine (traces_runs _).mono fun records failure hrecords a ha => ?_
      cases ha
      show Performed definition report step (_ :: (work ++ (records ++ []))) (.error failure)
      rw [List.append_nil]
      exact .broken hwork hrecords
  · intro answer
    rcases answer with e | written
    · exact fun _ => .lost hwork
    · exact .applied hwork

theorem traces_runStep : (runStep definition versionWasComplete recordedSteps report step).run.Traces
    fun events r => StepCourse definition versionWasComplete recordedSteps report step events r := by
  unfold runStep
  by_cases hcleanup : step.phase = .cleanup
  · rw [if_pos hcleanup]
    exact .deferred hcleanup
  rw [if_neg hcleanup]
  cases hlookup : recordedSteps.lookup step.id with
  | some existing =>
      by_cases hstale : versionWasComplete = true ∧ existing.status ≠ succeeded
      · simp only [if_pos hstale]
        refine .contradicted hcleanup hstale.1 fun existing' hsame => ?_
        cases hlookup.symm.trans hsame
        exact hstale.2
      simp only [if_neg hstale]
      by_cases hsucceeded : existing.status = succeeded
      · rw [if_pos hsucceeded]
        exact .found hcleanup hlookup hsucceeded
      rw [if_neg hsucceeded]
      refine traces_run_bind (traces_run_lift ?_) (traces_run_lift ?_)
      · intro answer e he
        cases he
      intro answer verified hverified
      cases hverified
      cases hverdict : verdict answer with
      | ok _ =>
          have hconfirmed := confirmed_of_verdict.mp hverdict
          intro answer'
          rcases answer' with e | written
          · exact .unrecovered hcleanup hlookup hsucceeded hconfirmed
          · exact .recovered hcleanup hlookup hsucceeded hconfirmed
      | error stepError =>
          have hunconfirmed : confirmed answer = false := by
            rw [← Bool.not_eq_true, ← confirmed_of_verdict, hverdict]
            simp
          refine traces_performStep.mono fun events r hperformed => ?_
          exact .again hcleanup hlookup hsucceeded hunconfirmed hperformed
  | none =>
      by_cases hcomplete : versionWasComplete = true
      · simp only [if_pos hcomplete]
        refine .contradicted hcleanup hcomplete fun existing hsome => ?_
        cases hlookup.symm.trans hsome
      · simp only [if_neg hcomplete]
        exact traces_performStep.mono fun events r hperformed => .first hcleanup hlookup hperformed

end Steps

/-! ## One version -/

/-- The reads of a version that is not gone on with. -/
inductive Refused (definition : MigrationDefinition) (report : MigrationReport) :
    RunHistory → MigrationReport → Prop
  | versionUnread {e : SqlError} {message : Bytes} :
      Refused definition report [stmt (.versionState definition.version) (.error e)]
        (failed report [] message)
  | version {versionState : SqlResponse} {failure : MigrationReport} :
      readVersionState definition report versionState.rows = .error failure →
      Refused definition report [stmt (.versionState definition.version) (.ok versionState)] failure
  | stepsUnread {versionState : SqlResponse} {e : SqlError} {message : Bytes} :
      Refused definition report [stmt (.versionState definition.version) (.ok versionState),
        stmt (.recordedSteps definition.version) (.error e)] (failed report [] message)
  | steps {versionState recorded : SqlResponse} {failure : MigrationReport} :
      readRecordedSteps definition report [] recorded.rows = .error failure →
      Refused definition report [stmt (.versionState definition.version) (.ok versionState),
        stmt (.recordedSteps definition.version) (.ok recorded)] failure

/-- The RUNNING record of a version, acknowledged where there is one. -/
inductive Opened (definition : MigrationDefinition) : Bool → RunHistory → Prop
  | complete : Opened definition true []
  | recorded {response : SqlResponse} : Opened definition false
      [stmt (.versionStatus definition.version definition.name running []) (.ok response)]

/-- The ways on from the reads of a version. -/
inductive WorkCourse (definition : MigrationDefinition) (report : MigrationReport)
    (versionWasComplete : Bool) (recordedSteps : RecordedSteps) :
    RunHistory → Except MigrationReport MigrationReport → Prop
  | unopened {e : SqlError} {message : Bytes} : versionWasComplete = false →
      WorkCourse definition report versionWasComplete recordedSteps
        [stmt (.versionStatus definition.version definition.name running []) (.error e)]
        (.error (failed report [] message))
  /-- A step ends the run. -/
  | stopped {opening steps : RunHistory} {failure : MigrationReport} :
      Opened definition versionWasComplete opening →
      Runs (definition.steps.foldlM (runStep definition versionWasComplete recordedSteps) report).run
        steps (.error failure) →
      WorkCourse definition report versionWasComplete recordedSteps (opening ++ steps)
        (.error failure)
  | unfinished {opening steps : RunHistory} {through : MigrationReport} {e : SqlError}
      {message : Bytes} :
      Opened definition versionWasComplete opening →
      Runs (definition.steps.foldlM (runStep definition versionWasComplete recordedSteps) report).run
        steps (.ok through) →
      WorkCourse definition report versionWasComplete recordedSteps
        (opening ++ (steps ++
          [stmt (.versionStatus definition.version definition.name succeeded []) (.error e),
            ⟨.poison, ()⟩]))
        (.error (failed through [] message))
  | kept {opening steps : RunHistory} {through : MigrationReport} :
      Opened definition versionWasComplete opening →
      Runs (definition.steps.foldlM (runStep definition versionWasComplete recordedSteps) report).run
        steps (.ok through) →
      WorkCourse definition report versionWasComplete recordedSteps (opening ++ steps)
        (.ok { through with versionsAlreadyComplete := through.versionsAlreadyComplete + 1 })
  | finished {opening steps : RunHistory} {through : MigrationReport} {response : SqlResponse} :
      Opened definition versionWasComplete opening →
      Runs (definition.steps.foldlM (runStep definition versionWasComplete recordedSteps) report).run
        steps (.ok through) →
      WorkCourse definition report versionWasComplete recordedSteps
        (opening ++ (steps ++
          [stmt (.versionStatus definition.version definition.name succeeded []) (.ok response)]))
        (.ok { through with versionsApplied := through.versionsApplied + 1 })

/-- The ways through `runDefinition`. -/
inductive DefinitionCourse (definition : MigrationDefinition) (report : MigrationReport) :
    RunHistory → Except MigrationReport MigrationReport → Prop
  | refused {reads : RunHistory} {failure : MigrationReport} :
      Refused definition report reads failure →
      DefinitionCourse definition report reads (.error failure)
  | worked {versionState recorded : SqlResponse} {versionWasComplete : Bool}
      {recordedSteps : RecordedSteps} {work : RunHistory}
      {r : Except MigrationReport MigrationReport} :
      readVersionState definition report versionState.rows = .ok versionWasComplete →
      readRecordedSteps definition report [] recorded.rows = .ok recordedSteps →
      WorkCourse definition report versionWasComplete recordedSteps work r →
      DefinitionCourse definition report
        (stmt (.versionState definition.version) (.ok versionState) ::
          stmt (.recordedSteps definition.version) (.ok recorded) :: work) r

section Versions

variable {definition : MigrationDefinition} {report : MigrationReport}
  {versionWasComplete : Bool} {recordedSteps : RecordedSteps}

theorem traces_startVersion : (startVersion definition versionWasComplete report).run.Traces
    fun opening r => (r = .ok () ∧ Opened definition versionWasComplete opening) ∨
      ∃ e message, r = .error (failed report [] message) ∧ versionWasComplete = false ∧
        opening = [stmt (.versionStatus definition.version definition.name running []) (.error e)] := by
  unfold startVersion
  cases versionWasComplete with
  | true =>
      rw [if_pos rfl]
      exact Or.inl ⟨rfl, .complete⟩
  | false =>
      rw [if_neg Bool.false_ne_true]
      intro answer
      rcases answer with e | response
      · exact Or.inr ⟨e, _, rfl, rfl, rfl⟩
      · exact Or.inl ⟨rfl, .recorded⟩

/-- From the reads on. -/
theorem traces_work : Traces (ExceptT.run (do
    startVersion definition versionWasComplete report
    let report ← definition.steps.foldlM (runStep definition versionWasComplete recordedSteps) report
    finishVersion definition versionWasComplete report))
    fun work r => WorkCourse definition report versionWasComplete recordedSteps work r := by
  refine traces_run_bind (traces_startVersion.mono ?_) (traces_startVersion.mono ?_)
  · rintro opening r (⟨rfl, -⟩ | ⟨e, message, rfl, hopen, rfl⟩) failure heq
    · cases heq
    · cases heq
      exact .unopened hopen
  rintro opening r (⟨-, hopened⟩ | ⟨e, message, rfl, -, -⟩) a heq
  · refine traces_run_bind ((traces_runs _).mono ?_) ((traces_runs _).mono ?_)
    · rintro steps r hsteps failure rfl
      exact .stopped hopened hsteps
    rintro steps r hsteps through rfl
    unfold finishVersion
    split
    · show WorkCourse definition report versionWasComplete recordedSteps (opening ++ (steps ++ [])) _
      rw [List.append_nil]
      exact .kept hopened hsteps
    · intro answer
      rcases answer with e | response
      · exact fun _ => .unfinished hopened hsteps
      · exact .finished hopened hsteps
  · cases heq

theorem traces_runDefinition : (runDefinition report definition).run.Traces
    fun events r => DefinitionCourse definition report events r := by
  intro answer
  rcases answer with e | versionState
  · exact .refused .versionUnread
  show Traces (ExceptT.run (ExceptT.mk _ >>= _)) _
  cases hversion : readVersionState definition report versionState.rows with
  | error failure => exact .refused (.version hversion)
  | ok versionWasComplete =>
      intro answer
      rcases answer with e | recorded
      · exact .refused .stepsUnread
      show Traces (ExceptT.run (ExceptT.mk _ >>= _)) _
      cases hrecorded : readRecordedSteps definition report [] recorded.rows with
      | error failure => exact .refused (.steps hrecorded)
      | ok recordedSteps =>
          exact traces_work.mono fun work r hwork => .worked hversion hrecorded hwork

end Versions

/-! ## The whole run -/

/-- What `run` makes of the end of the work under the lock. -/
inductive Ends : Except MigrationReport MigrationReport → MigrationReport → Prop
  | stopped {failure : MigrationReport} : Ends (.error failure) failure
  | released {report : MigrationReport} : Ends (.ok report)
      { report with message := lit "all required migration steps succeeded" }
  | unreleased {report : MigrationReport} {message : Bytes} :
      Ends (.ok report) (failed report [] message)

/-- The ways through `run`. -/
inductive RunCourse (definitions : List MigrationDefinition)
    (bootstrapSql : List MigrationBootstrapStep) (seconds : ℕ) :
    RunHistory → MigrationReport → Prop
  /-- The lock is not granted. -/
  | refused {answer : SqlResult} {message : Bytes} : confirmed answer = false →
      RunCourse definitions bootstrapSql seconds [stmt (.getLock seconds) answer]
        (failed (initialReport definitions) [] message)
  | locked {answer : SqlResult} {work release : RunHistory}
      {r : Except MigrationReport MigrationReport} {report : MigrationReport} :
      confirmed answer = true →
      Runs (runLocked definitions bootstrapSql (initialReport definitions)).run work r →
      Released release → Ends r report →
      RunCourse definitions bootstrapSql seconds (stmt (.getLock seconds) answer :: (work ++ release))
        report

/-- The ways through `runLocked`. -/
inductive LockedCourse (definitions : List MigrationDefinition)
    (bootstrapSql : List MigrationBootstrapStep) (report : MigrationReport) :
    RunHistory → Except MigrationReport MigrationReport → Prop
  /-- The bootstrap steps fail, or there are none. -/
  | unprepared {boots : RunHistory} {step message : Bytes} :
      (∀ event ∈ boots, ∃ b ∈ bootstrapSql, OfBootstrap b event.1) →
      LockedCourse definitions bootstrapSql report boots (.error (failed report step message))
  | prepared {boots work : RunHistory} {r : Except MigrationReport MigrationReport} :
      (∀ event ∈ boots, ∃ b ∈ bootstrapSql, OfBootstrap b event.1) →
      Runs (definitions.foldlM runDefinition { report with status := .succeeded }).run work r →
      LockedCourse definitions bootstrapSql report (boots ++ work) r

section Whole

variable {definitions : List MigrationDefinition} {bootstrapSql : List MigrationBootstrapStep}
  {report : MigrationReport} {seconds : ℕ} {events : RunHistory}

theorem traces_run_course (definitions : List MigrationDefinition)
    (bootstrapSql : List MigrationBootstrapStep) (seconds : ℕ) :
    (run definitions bootstrapSql seconds).Traces
      fun events report => RunCourse definitions bootstrapSql seconds events report := by
  intro answer
  rcases answer with e | acquired
  · exact .refused rfl
  show Traces (if !truthy acquired then _ else _) _
  by_cases htrue : truthy acquired = true
  · rw [if_neg (by simp [htrue])]
    refine (traces_bind _ _).mpr ((traces_runs _).mono ?_)
    rintro work (failure | report) hwork
    · refine (traces_bind (MigrationLock.destroy { held := true }) _).mpr (traces_destroy.mono ?_)
      intro release _ hrelease
      show RunCourse _ _ _ (_ :: (work ++ (release ++ []))) failure
      rw [List.append_nil]
      exact .locked htrue hwork hrelease .stopped
    · refine (traces_bind _ _).mpr ((traces_bind sendRelease _).mpr (traces_sendRelease.mono ?_))
      intro release released hrelease
      cases released with
      | true =>
          show RunCourse _ _ _ (_ :: (work ++ (release ++ [] ++ []))) _
          rw [List.append_nil, List.append_nil]
          exact .locked htrue hwork hrelease .released
      | false =>
          show RunCourse _ _ _ (_ :: (work ++ (release ++ [] ++ []))) _
          rw [List.append_nil, List.append_nil]
          exact .locked htrue hwork hrelease .unreleased
  · rw [if_pos (by simp [htrue])]
    rw [Bool.not_eq_true] at htrue
    exact .refused htrue

/-- A bootstrap step leaves the report alone unless it fails. -/
theorem returns_runBootstrapStep (bootstrap : MigrationBootstrapStep) :
    (runBootstrapStep report bootstrap).run.Returns
      fun r => r = .ok report ∨ ∃ step message, r = .error (failed report step message) := by
  unfold runBootstrapStep
  split
  · exact Or.inr ⟨_, _, rfl⟩
  intro answer
  rcases answer with e | response
  · exact Or.inr ⟨_, _, rfl⟩
  intro answer
  rcases answer with e | verified
  · exact Or.inr ⟨_, _, rfl⟩
  show Returns _ (if truthy verified = true then _ else _ : SqlProgram MigrationStatement _)
  split
  · exact Or.inl rfl
  · exact Or.inr ⟨_, _, rfl⟩

theorem traces_bootstrap : (bootstrapSql.foldlM runBootstrapStep report).run.Traces
    fun boots r => (∀ event ∈ boots, ∃ b ∈ bootstrapSql, OfBootstrap b event.1) ∧
      (r = .ok report ∨ ∃ step message, r = .error (failed report step message)) := by
  refine (traces_runs _).mono fun boots r hrun => ⟨?_, ?_⟩
  · have hemits : (bootstrapSql.foldlM runBootstrapStep report).run.Emits
        fun call => ∃ b ∈ bootstrapSql, OfBootstrap b call :=
      emits_run_foldlM (fun report b hb => (emits_runBootstrapStep b).mono
        fun call hcall => ⟨b, hb, hcall⟩) report
    exact (traces_of_emits hemits).of_runs hrun
  · have hsame : ∀ (bs : List MigrationBootstrapStep) (boots : RunHistory) (r : MigrationReport),
        Runs (bs.foldlM runBootstrapStep report).run boots (.ok r) → r = report := by
      intro bs boots r hrun
      refine runs_foldlM_ok (fun _ r _ => r = report) [] ?_ hrun rfl
      rintro done b rest r past events r' - rfl hturn
      rcases (returns_runBootstrapStep b).of_runs hturn with heq | ⟨step, message, heq⟩
      · exact Except.ok.inj heq
      · cases heq
    rcases r with failure | report'
    · obtain ⟨done, b, rest, between, first, second, -, -, hdone, hlast⟩ := runs_foldlM_error hrun
      rcases (returns_runBootstrapStep b).of_runs hlast with heq | ⟨step, message, heq⟩
      · cases heq
      · rw [heq, hsame done first between hdone]
        exact Or.inr ⟨step, message, rfl⟩
    · exact Or.inl (congrArg Except.ok (hsame bootstrapSql boots report' hrun))

theorem traces_runLocked : (runLocked definitions bootstrapSql report).run.Traces
    fun events r => LockedCourse definitions bootstrapSql report events r := by
  unfold runLocked
  split
  · exact .unprepared (by simp)
  refine traces_run_bind (traces_bootstrap.mono ?_) (traces_bootstrap.mono ?_)
  · rintro boots r ⟨hboots, rfl | ⟨step, message, rfl⟩⟩ failure heq
    · cases heq
    · cases heq
      exact .unprepared hboots
  · rintro boots r ⟨hboots, rfl | ⟨step, message, rfl⟩⟩ through heq
    · cases heq
      exact (traces_runs _).mono fun work r hwork => .prepared hboots hwork
    · cases heq

theorem runCourse (hrun : Runs (run definitions bootstrapSql seconds) events report) :
    RunCourse definitions bootstrapSql seconds events report :=
  (traces_run_course definitions bootstrapSql seconds).of_runs hrun

end Whole

/-! ## The turn that an event belongs to -/

/-- The call names the version: it reads or writes its rows, or is the SQL of one of its steps. -/
def NamesVersion (version : ℕ) : ExecutorCall MigrationStatement → Prop
  | .execute statement => OfVersion version (.execute statement)
  | .control _ | .poison => False

/-- The call names the step: it writes its row or is its SQL. -/
def NamesStep (version : ℕ) (step : MigrationStep) : ExecutorCall MigrationStatement → Prop
  | .execute (.stepStatus v s _ _) => v = version ∧ s = step
  | .execute (.apply v s) => v = version ∧ s = step
  | .execute (.verify v s) => v = version ∧ s = step
  | _ => False

/-- The turn of the outer loop over one definition, inside the work under the lock. -/
inductive VersionTurn (definitions : List MigrationDefinition)
    (bootstrapSql : List MigrationBootstrapStep) (definition : MigrationDefinition)
    (body : RunHistory) (turn : Except MigrationReport MigrationReport) :
    RunHistory → Except MigrationReport MigrationReport → Prop
  | mk {done rest : List MigrationDefinition} {report : MigrationReport}
      {boots before after : RunHistory} {r : Except MigrationReport MigrationReport} :
      definitions = done ++ definition :: rest →
      (∀ event ∈ boots, ∃ b ∈ bootstrapSql, OfBootstrap b event.1) →
      (∀ event ∈ before, ∃ d ∈ done, OfVersion d.version event.1) →
      DefinitionCourse definition report body turn →
      (∀ failure, turn = .error failure → after = [] ∧ r = .error failure) →
      (∀ through, turn = .ok through → Runs (rest.foldlM runDefinition through).run after r) →
      VersionTurn definitions bootstrapSql definition body turn (boots ++ (before ++ body ++ after)) r

/-- The turn of the inner loop over one step, inside the work on its version. -/
inductive StepTurn (definition : MigrationDefinition) (versionWasComplete : Bool)
    (recordedSteps : RecordedSteps) (step : MigrationStep) (body : RunHistory)
    (turn : Except MigrationReport MigrationReport) :
    RunHistory → Except MigrationReport MigrationReport → Prop
  | mk {done rest : List MigrationStep} {report : MigrationReport}
      {opening before after : RunHistory} {r : Except MigrationReport MigrationReport} :
      definition.steps = done ++ step :: rest → Opened definition versionWasComplete opening →
      (∀ event ∈ before, ∃ s ∈ done, OfStep definition.version s event.1) →
      (∀ event ∈ body, OfStep definition.version step event.1) →
      StepCourse definition versionWasComplete recordedSteps report step body turn →
      (∀ failure, turn = .error failure → after = [] ∧ r = .error failure) →
      (∀ through failure, turn = .ok through → r = .error failure →
        failure.failedStep = [] ∨ ∃ s ∈ rest, failure.failedStep = s.id) →
      StepTurn definition versionWasComplete recordedSteps step body turn
        (opening ++ (before ++ body ++ after)) r

section Turns

variable {definitions : List MigrationDefinition} {bootstrapSql : List MigrationBootstrapStep}
  {definition : MigrationDefinition} {report : MigrationReport} {seconds version : ℕ}
  {step : MigrationStep} {events work release : RunHistory} {event : RunEvent}
  {r : Except MigrationReport MigrationReport} {versionWasComplete : Bool}
  {recordedSteps : RecordedSteps} {call : ExecutorCall MigrationStatement}

theorem NamesStep.namesVersion (h : NamesStep version step call) : NamesVersion version call := by
  cases call with
  | control => exact h.elim
  | poison => exact h.elim
  | execute statement =>
      cases statement with
      | stepStatus => exact h.1
      | apply => exact h.1
      | verify => exact h.1
      | _ => exact h.elim

/-- A call names one version. -/
theorem NamesVersion.eq {v : ℕ} (h : NamesVersion version call) (h' : OfVersion v call) :
    v = version := by
  cases call with
  | control => exact h.elim
  | poison => exact h.elim
  | execute statement =>
      cases statement with
      | versionState => exact h'.symm.trans h
      | recordedSteps => exact h'.symm.trans h
      | versionStatus => exact h'.symm.trans h
      | stepStatus => exact h'.symm.trans h
      | apply => exact h'.symm.trans h
      | verify => exact h'.symm.trans h
      | _ => exact h.elim

/-- A call names one step. -/
theorem NamesStep.eq {v : ℕ} {s : MigrationStep} (h : NamesStep version step call)
    (h' : OfStep v s call) : s = step := by
  cases call with
  | control => exact h.elim
  | poison => exact h.elim
  | execute statement =>
      cases statement with
      | stepStatus => exact h'.2.symm.trans h.2
      | apply => exact h'.2.symm.trans h.2
      | verify => exact h'.2.symm.trans h.2
      | _ => exact h.elim

theorem NamesVersion.not_released (h : NamesVersion version event.1) (hrelease : Released release) :
    event ∉ release := by
  intro hmem
  cases hrelease with
  | confirmed =>
      rw [List.mem_singleton.mp hmem] at h
      exact h
  | poisoned =>
      rcases List.mem_pair.mp hmem with rfl | rfl
      · exact h
      · exact h

/-- An event that names a version belongs to the work under the lock. -/
theorem RunCourse.locked_of_names (hcourse : RunCourse definitions bootstrapSql seconds events report)
    (hnames : NamesVersion version event.1) (hevent : event ∈ events) :
    ∃ answer work release r, events = stmt (.getLock seconds) answer :: (work ++ release) ∧
      event ∈ work ∧ LockedCourse definitions bootstrapSql (initialReport definitions) work r ∧
      Released release ∧ Ends r report := by
  cases hcourse with
  | refused =>
      rw [List.mem_singleton.mp hevent] at hnames
      exact hnames.elim
  | @locked answer work release r report hgranted hwork hrelease hends =>
      refine ⟨answer, work, release, r, rfl, ?_, traces_runLocked.of_runs hwork, hrelease, hends⟩
      rcases List.mem_cons.mp hevent with rfl | hevent
      · exact hnames.elim
      rcases List.mem_append.mp hevent with hwork | hreleased
      · exact hwork
      · exact absurd hreleased (hnames.not_released hrelease)

theorem OfBootstrap.not_names {b : MigrationBootstrapStep} (h : OfBootstrap b call) :
    ¬ NamesVersion version call := by
  intro hnames
  cases call with
  | control => exact hnames
  | poison => exact hnames
  | execute statement =>
      cases statement with
      | bootstrapApply => exact hnames
      | bootstrapVerify => exact hnames
      | _ => exact h

/-- The turn of the outer loop that an event belongs to. -/
theorem LockedCourse.turn (hcourse : LockedCourse definitions bootstrapSql report work r)
    (hnames : NamesVersion version event.1) (hevent : event ∈ work) :
    ∃ definition ∈ definitions, definition.version = version ∧ ∃ body turn, event ∈ body ∧
      VersionTurn definitions bootstrapSql definition body turn work r := by
  cases hcourse with
  | unprepared hboots =>
      obtain ⟨b, -, hb⟩ := hboots event hevent
      exact absurd hnames hb.not_names
  | @prepared boots work r hboots hwork =>
      rcases List.mem_append.mp hevent with hboot | hevent
      · obtain ⟨b, -, hb⟩ := hboots event hboot
        exact absurd hnames hb.not_names
      obtain ⟨done, definition, rest, between, before, body, after, turn, rfl, rfl, hbody, hdone,
        hturn, hleft, hthrough⟩ := runs_foldlM_at hwork hevent
      have hversion : definition.version = version :=
        hnames.eq ((traces_of_emits emits_runDefinition).of_runs hturn event hbody)
      refine ⟨definition, by simp, hversion, body, turn, hbody, ?_⟩
      refine .mk rfl hboots ?_ (traces_runDefinition.of_runs hturn) hleft hthrough
      have hemits : (done.foldlM runDefinition
          { report with status := .succeeded }).run.Emits fun call =>
            ∃ d ∈ done, OfVersion d.version call :=
        emits_run_foldlM (fun r d hd => emits_runDefinition.mono fun call hcall => ⟨d, hd, hcall⟩) _
      exact (traces_of_emits hemits).of_runs hdone

/-- The report of a failure names the step. -/
theorem returns_recordFailure (stepError : Bytes) :
    (recordFailure definition report step stepError).Returns
      fun r => ∃ message, r = failed report step.id message := by
  refine returns_bind (returns_trivial _) fun recorded _ =>
    returns_bind (returns_trivial _) fun stepError _ => ?_
  exact returns_bind (returns_trivial _) fun recorded _ =>
    returns_bind (returns_trivial _) fun stepError _ => ⟨stepError, rfl⟩

/-- A step that does not go through is named by the report, which is otherwise as it was. -/
theorem Performed.failure {failure : MigrationReport}
    (h : Performed definition report step events (.error failure)) :
    ∃ message, failure = failed report step.id message ∨
      failure = failed (report.starting step) step.id message := by
  cases h with
  | unrecorded => exact ⟨_, Or.inl rfl⟩
  | broken hwork hrecords =>
      obtain ⟨message, rfl⟩ := (returns_recordFailure _).of_runs hrecords
      exact ⟨message, Or.inr rfl⟩
  | lost => exact ⟨_, Or.inr rfl⟩

theorem StepCourse.failedStep {failure : MigrationReport}
    (h : StepCourse definition versionWasComplete recordedSteps report step events (.error failure)) :
    failure.failedStep = step.id := by
  have hperformed : ∀ {events}, Performed definition report step events (.error failure) →
      failure.failedStep = step.id := by
    intro events h
    obtain ⟨message, rfl | rfl⟩ := h.failure <;> rfl
  cases h with
  | contradicted => rfl
  | unrecovered => rfl
  | again _ _ _ _ h => exact hperformed h
  | first _ _ h => exact hperformed h

theorem steps_failedStep {steps : List MigrationStep} {failure : MigrationReport}
    (hrun : Runs (steps.foldlM (runStep definition versionWasComplete recordedSteps) report).run
      events (.error failure)) : ∃ s ∈ steps, failure.failedStep = s.id := by
  obtain ⟨done, s, rest, between, first, second, rfl, -, -, hlast⟩ := runs_foldlM_error hrun
  exact ⟨s, by simp, (traces_runStep.of_runs hlast).failedStep⟩

/-- The turn of the inner loop that an event of a step belongs to. -/
theorem WorkCourse.turn
    (hcourse : WorkCourse definition report versionWasComplete recordedSteps work r)
    (hnames : NamesStep version step event.1) (hevent : event ∈ work) :
    ∃ body turn, event ∈ body ∧
      StepTurn definition versionWasComplete recordedSteps step body turn work r := by
  have hopening : ∀ {opening}, Opened definition versionWasComplete opening → event ∉ opening := by
    intro opening hopened hmem
    cases hopened with
    | complete => cases hmem
    | recorded =>
        rw [List.mem_singleton.mp hmem] at hnames
        exact hnames
  have hsteps : ∀ (closing : RunHistory) {opening steps : RunHistory} {through}, event ∈ steps →
      Opened definition versionWasComplete opening →
      Runs (definition.steps.foldlM (runStep definition versionWasComplete recordedSteps) report).run
        steps through →
      (∀ failure, through = .error failure → closing = [] ∧ r = .error failure) →
      (∀ r' failure, through = .ok r' → r = .error failure → failure.failedStep = []) →
      ∃ body turn, event ∈ body ∧ StepTurn definition versionWasComplete recordedSteps step body
        turn (opening ++ (steps ++ closing)) r := by
    intro closing opening steps through hmem hopened hrun hleft hclosed
    -- the event belongs to one turn of the loop, and that turn is about one step only
    obtain ⟨done, s, rest, between, before, body, after, turn, hsplit, rfl, hbody, hdone, hturn,
      hfailed, hthrough⟩ := runs_foldlM_at hrun hmem
    have hof := (traces_of_emits (emits_runStep _ _)).of_runs hturn
    obtain rfl : s = step := hnames.eq (hof event hbody)
    refine ⟨body, turn, hbody, ?_⟩
    rw [List.append_assoc]
    refine .mk hsplit hopened ?_ hof (traces_runStep.of_runs hturn) ?_ ?_
    · have hemits : (done.foldlM (runStep definition versionWasComplete recordedSteps)
          report).run.Emits fun call => ∃ t ∈ done, OfStep definition.version t call :=
        emits_run_foldlM (fun r t ht => (emits_runStep _ _).mono fun call hcall => ⟨t, ht, hcall⟩) _
      exact (traces_of_emits hemits).of_runs hdone
    · intro failure hturned
      obtain ⟨rfl, rfl⟩ := hfailed failure hturned
      obtain ⟨rfl, rfl⟩ := hleft failure rfl
      exact ⟨rfl, rfl⟩
    · intro r' failure hturned hend
      cases through with
      | error failure' =>
          obtain ⟨-, heq⟩ := hleft failure' rfl
          cases heq.symm.trans hend
          exact Or.inr (steps_failedStep (hthrough r' hturned))
      | ok through => exact Or.inl (hclosed through failure rfl hend)
  cases hcourse with
  | unopened =>
      rw [List.mem_singleton.mp hevent] at hnames
      exact hnames.elim
  | @stopped opening steps failure hopened hrun =>
      rcases List.mem_append.mp hevent with hmem | hmem
      · exact absurd hmem (hopening hopened)
      have hturn := hsteps [] hmem hopened hrun (fun failure heq => by
        cases heq
        exact ⟨rfl, rfl⟩) (fun r' failure heq => by cases heq)
      rwa [List.append_nil] at hturn
  | @unfinished opening steps through e message hopened hrun =>
      rcases List.mem_append.mp hevent with hmem | hmem
      · exact absurd hmem (hopening hopened)
      rcases List.mem_append.mp hmem with hmem | hmem
      · refine hsteps _ hmem hopened hrun (fun failure heq => by cases heq) ?_
        intro r' failure _ hend
        cases hend
        rfl
      · rcases List.mem_pair.mp hmem with rfl | rfl
        · exact hnames.elim
        · exact hnames.elim
  | @kept opening steps through hopened hrun =>
      rcases List.mem_append.mp hevent with hmem | hmem
      · exact absurd hmem (hopening hopened)
      have hturn := hsteps [] hmem hopened hrun (fun failure heq => by cases heq)
        (fun r' failure _ heq => by cases heq)
      rwa [List.append_nil] at hturn
  | @finished opening steps through response hopened hrun =>
      rcases List.mem_append.mp hevent with hmem | hmem
      · exact absurd hmem (hopening hopened)
      rcases List.mem_append.mp hmem with hmem | hmem
      · refine hsteps _ hmem hopened hrun (fun failure heq => by cases heq) ?_
        intro r' failure _ hend
        cases hend
      · rw [List.mem_singleton.mp hmem] at hnames
        exact hnames.elim

/-- Until it fails, a run keeps the status of its report. -/
theorem StepCourse.status {through : MigrationReport}
    (h : StepCourse definition versionWasComplete recordedSteps report step events (.ok through)) :
    through.status = report.status := by
  have hperformed : ∀ {events}, Performed definition report step events (.ok through) →
      through.status = report.status := by
    intro events h
    cases h with
    | applied => exact (applied_status _ _).trans (starting_status report step)
  cases h with
  | deferred => rfl
  | found => exact alreadyComplete_status report step.id
  | recovered => exact applied_status report step.id
  | again _ _ _ _ h => exact hperformed h
  | first _ _ h => exact hperformed h

theorem DefinitionCourse.status {through : MigrationReport}
    (h : DefinitionCourse definition report events (.ok through)) :
    through.status = report.status := by
  have hsteps : ∀ {complete recorded steps r},
      Runs (definition.steps.foldlM (runStep definition complete recorded) report).run steps (.ok r) →
        r.status = report.status := by
    intro complete recorded steps r hrun
    refine runs_foldlM_ok (fun _ r _ => r.status = report.status) [] ?_ hrun rfl
    intro done s rest r past events r' _ hold hturn
    exact (traces_runStep.of_runs hturn).status.trans hold
  cases h with
  | worked _ _ hwork =>
      cases hwork with
      | kept _ hrun =>
          have hthrough := hsteps hrun
          exact hthrough
      | finished _ hrun =>
          have hthrough := hsteps hrun
          exact hthrough

theorem LockedCourse.status {through : MigrationReport}
    (h : LockedCourse definitions bootstrapSql report work (.ok through)) :
    through.status = .succeeded := by
  cases h with
  | prepared _ hrun =>
      refine runs_foldlM_ok (fun _ r _ => r.status = .succeeded) [] ?_ hrun rfl
      intro done d rest r past events r' _ hold hturn
      exact (traces_runDefinition.of_runs hturn).status.trans hold

end Turns

end Warehouse.Mysql.Migration
