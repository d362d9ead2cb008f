/-
# Warehouse.Mysql.Migration.Gate — the start-up gate, against any executor

What one `run` may do when its executor answers anything to anything.  A required step is
*confirmed* by the history of the run if the row read for it said SUCCEEDED with the manifest's
checksum, phase and execution, or if its verify SQL was answered truthy and the write of its
SUCCEEDED row was acknowledged after that (with an acknowledged COMMIT between the two where the
step is transactional DML and was applied in this run).

The proof walks the program once.  Facts about the history only ever grow along its prefix order,
so each function is specified by the extension it makes: the history before is a prefix of the one
after, and what the function confirmed is confirmed there.
-/
import Warehouse.Mysql.Migration.Runner

namespace Warehouse.Mysql.Migration

open Warehouse.Interaction Warehouse.Interaction.Program

/-- The history of a run of the migration runner. -/
abbrev RunHistory : Type := SqlHistory MigrationStatement

/-- An event of such a run. -/
abbrev RunEvent : Type := Event (ExecutorCall MigrationStatement) ExecutorCall.Answer

/-- A statement of the runner with its answer. -/
abbrev stmt (statement : MigrationStatement) (answer : SqlResult) : RunEvent :=
  ⟨.execute statement, answer⟩

/-- A transaction-control statement with its answer. -/
abbrev ctrl (statement : TxControl) (answer : SqlResult) : RunEvent :=
  ⟨.control statement, answer⟩

/-! ## What the history says -/

section Facts

/-- The lock was granted: `GET_LOCK` was answered truthy. -/
def LockGranted (h : RunHistory) : Prop :=
  ∃ seconds response, stmt (.getLock seconds) (.ok response) ∈ h ∧ truthy response

/-- The verify SQL of every bootstrap step was answered truthy. -/
def BootstrapVerified (bootstrapSql : List MigrationBootstrapStep) (h : RunHistory) : Prop :=
  ∀ b ∈ bootstrapSql, ∃ response, stmt (.bootstrapVerify b) (.ok response) ∈ h ∧ truthy response

/-- The row read for the step said SUCCEEDED, with the manifest's checksum, phase and execution. -/
def ReadSucceeded (version : Nat) (step : MigrationStep) (h : RunHistory) : Prop :=
  ∃ response, stmt (.recordedSteps version) (.ok response) ∈ h ∧
    rowOf step.id response.rows = some [some step.id, some step.checksum,
      some (phaseName step.phase), some (executionName step.execution), some succeeded]

/-- The verify SQL was answered truthy, and where the step is transactional DML that was applied
before, a COMMIT was acknowledged after it. -/
def Verified (version : Nat) (step : MigrationStep) (h : RunHistory) : Prop :=
  ∃ before response after, h = before ++ stmt (.verify version step) (.ok response) :: after ∧
    truthy response ∧
    (step.execution = .transactionalDml →
      (∃ answer, stmt (.apply version step) answer ∈ before) →
      ∃ committed, ctrl .commit (.ok committed) ∈ after)

/-- The step was verified and the write of its SUCCEEDED row was acknowledged after that. -/
def Completed (version : Nat) (step : MigrationStep) (h : RunHistory) : Prop :=
  ∃ before response after, h = before ++ stmt (.stepStatus version step succeeded []) (.ok response)
    :: after ∧ Verified version step before

/-- The step is confirmed by this run. -/
def Confirmed (version : Nat) (step : MigrationStep) (h : RunHistory) : Prop :=
  ReadSucceeded version step h ∨ Completed version step h

/-- The version was found SUCCEEDED, or the write of its SUCCEEDED row was acknowledged. -/
def VersionClosed (definition : MigrationDefinition) (h : RunHistory) : Prop :=
  (∃ response rest, stmt (.versionState definition.version) (.ok response) ∈ h ∧
      response.rows = [some definition.name, some succeeded] :: rest) ∨
    ∃ response, stmt (.versionStatus definition.version definition.name succeeded [])
      (.ok response) ∈ h

variable {h h' : RunHistory} {version : Nat} {step : MigrationStep}
  {bootstrapSql : List MigrationBootstrapStep} {definition : MigrationDefinition}

theorem LockGranted.mono (hh : h <+: h') : LockGranted h → LockGranted h' := by
  rintro ⟨seconds, response, hmem, htrue⟩
  exact ⟨seconds, response, hh.subset hmem, htrue⟩

theorem BootstrapVerified.mono (hh : h <+: h') :
    BootstrapVerified bootstrapSql h → BootstrapVerified bootstrapSql h' := by
  intro hverified b hb
  obtain ⟨response, hmem, htrue⟩ := hverified b hb
  exact ⟨response, hh.subset hmem, htrue⟩

theorem ReadSucceeded.mono (hh : h <+: h') :
    ReadSucceeded version step h → ReadSucceeded version step h' := by
  rintro ⟨response, hmem, hrow⟩
  exact ⟨response, hh.subset hmem, hrow⟩

theorem Verified.mono (hh : h <+: h') : Verified version step h → Verified version step h' := by
  rintro ⟨before, response, after, rfl, htrue, hcommit⟩
  obtain ⟨more, rfl⟩ := hh
  refine ⟨before, response, after ++ more, by simp, htrue, ?_⟩
  intro hdml happly
  obtain ⟨committed, hmem⟩ := hcommit hdml happly
  exact ⟨committed, List.mem_append_left more hmem⟩

theorem Completed.mono (hh : h <+: h') : Completed version step h → Completed version step h' := by
  rintro ⟨before, response, after, rfl, hverified⟩
  obtain ⟨more, rfl⟩ := hh
  exact ⟨before, response, after ++ more, by simp, hverified⟩

theorem Confirmed.mono (hh : h <+: h') : Confirmed version step h → Confirmed version step h' := by
  rintro (hread | hcompleted)
  · exact Or.inl (hread.mono hh)
  · exact Or.inr (hcompleted.mono hh)

theorem VersionClosed.mono (hh : h <+: h') :
    VersionClosed definition h → VersionClosed definition h' := by
  rintro (⟨response, rest, hmem, hrow⟩ | ⟨response, hmem⟩)
  · exact Or.inl ⟨response, rest, hh.subset hmem, hrow⟩
  · exact Or.inr ⟨response, hh.subset hmem⟩

end Facts

/-! ## The gate in front of every step -/

/-- What has to hold before anything is sent for the step at `(version, id)`. -/
def StepReady (m : Manifest) (bootstrapSql : List MigrationBootstrapStep) (version : Nat)
    (id : Bytes) (h : RunHistory) : Prop :=
  LockGranted h ∧ BootstrapVerified bootstrapSql h ∧
    ∀ d step, m.Has d step → step.Required → addressLt (d.version, step.id) (version, id) →
      Confirmed d.version step h

/-- The RUNNING record, the apply SQL and the verify SQL of a step wait for `StepReady`. -/
def gateDemand (m : Manifest) (bootstrapSql : List MigrationBootstrapStep) (h : RunHistory) :
    RunEvent → Prop
  | ⟨.execute (.stepStatus version step status _), _⟩ =>
      status = running → StepReady m bootstrapSql version step.id h
  | ⟨.execute (.apply version step), _⟩ => StepReady m bootstrapSql version step.id h
  | ⟨.execute (.verify version step), _⟩ => StepReady m bootstrapSql version step.id h
  | _ => True

/-! ## What the work of a step may send -/

/-- The calls that the work of a step may make: they are about that step or its version's row. -/
def OfStep (version : Nat) (step : MigrationStep) : ExecutorCall MigrationStatement → Prop
  | .execute (.stepStatus v s _ _) => v = version ∧ s = step
  | .execute (.apply v s) => v = version ∧ s = step
  | .execute (.verify v s) => v = version ∧ s = step
  | .execute (.versionStatus v ..) => v = version
  | .execute _ => False
  | .control _ | .poison => True

/-- The calls by which a step is carried out and verified. -/
def OfWork (version : Nat) (step : MigrationStep) : ExecutorCall MigrationStatement → Prop
  | .execute (.apply v s) => v = version ∧ s = step
  | .execute (.verify v s) => v = version ∧ s = step
  | .execute _ => False
  | .control _ | .poison => True

/-- The calls by which the fate of a step is recorded. -/
def OfRecord (version : Nat) (step : MigrationStep) : ExecutorCall MigrationStatement → Prop
  | .execute (.stepStatus v s _ _) => v = version ∧ s = step
  | .execute (.versionStatus v ..) => v = version
  | .execute _ => False
  | .control _ => False
  | .poison => True

section Sends

variable {version : Nat} {step : MigrationStep} {definition : MigrationDefinition}
  {report : MigrationReport}

theorem OfWork.ofStep {call : ExecutorCall MigrationStatement} (h : OfWork version step call) :
    OfStep version step call := by
  cases call with
  | control => trivial
  | poison => trivial
  | execute statement =>
      cases statement with
      | apply => exact h
      | verify => exact h
      | _ => exact h.elim

theorem OfRecord.ofStep {call : ExecutorCall MigrationStatement} (h : OfRecord version step call) :
    OfStep version step call := by
  cases call with
  | control => trivial
  | poison => trivial
  | execute statement =>
      cases statement with
      | stepStatus => exact h
      | versionStatus => exact h
      | _ => exact h.elim

theorem emits_rollback (t : Transaction) : (t.rollback).Emits (OfWork version step) :=
  t.emits_rollback trivial trivial

theorem emits_destroy (t : Transaction) : (t.destroy).Emits (OfWork version step) :=
  t.emits_destroy trivial trivial

theorem emits_commit (t : Transaction) : (t.commit).Emits (OfWork version step) :=
  t.emits_commit trivial trivial

theorem emits_begin (mode : WorkUnitMode) :
    (Transaction.begin mode).Emits (OfWork version step) :=
  Transaction.emits_begin trivial trivial trivial

theorem emits_verifyStep : (verifyStep version step).Emits (OfWork version step) :=
  ⟨⟨rfl, rfl⟩, fun _ => trivial⟩

theorem emits_applyTransactional :
    (applyTransactional version step).Emits (OfWork version step) := by
  refine emits_bind (emits_begin _) ?_
  rintro (e | t)
  · trivial
  have habandon : ∀ error, (do
      let transaction ← t.rollback
      transaction.destroy
      return error : SqlProgram MigrationStatement (Except Bytes Unit)).Emits
        (OfWork version step) := fun error =>
    emits_bind (emits_rollback t) fun t' => emits_bind (emits_destroy t') fun _ => trivial
  refine ⟨⟨rfl, rfl⟩, ?_⟩
  rintro (e | response)
  · exact habandon _
  refine emits_bind (p := verifyStep version step) emits_verifyStep ?_
  rintro (stepError | ⟨⟩)
  · exact habandon _
  · refine emits_bind (emits_commit t) fun result => emits_bind (emits_destroy result.2) fun _ => ?_
    rcases result with ⟨e | _, t'⟩ <;> trivial

theorem emits_applyStep : (applyStep version step).Emits (OfWork version step) := by
  unfold applyStep
  cases step.execution with
  | transactionalDml => exact emits_applyTransactional
  | atomicDdl =>
      refine ⟨⟨rfl, rfl⟩, ?_⟩
      rintro (e | response)
      · trivial
      · exact emits_verifyStep
  | check => exact emits_verifyStep

theorem emits_recordFailure (stepError : Bytes) :
    (recordFailure definition report step stepError).Emits (OfRecord definition.version step) := by
  have hnote : ∀ recorded e note,
      (noteUnrecorded recorded e note).Emits (OfRecord definition.version step) := by
    intro recorded e note
    unfold noteUnrecorded
    split
    · trivial
    · exact ⟨trivial, fun _ => trivial⟩
  have hstatus : ∀ status e, (updateStepStatus definition.version step status e).Emits
      (OfRecord definition.version step) := fun status e => ⟨⟨rfl, rfl⟩, fun _ => trivial⟩
  have hversion : ∀ status e, (updateVersionStatus definition status e).Emits
      (OfRecord definition.version step) := fun status e => ⟨rfl, fun _ => trivial⟩
  refine emits_bind (hstatus _ _) fun _ => emits_bind (hnote _ _ _) fun e => ?_
  exact emits_bind (hversion _ _) fun _ => emits_bind (hnote _ _ _) fun _ => trivial

theorem emits_performStep :
    (performStep definition report step).run.Emits (OfStep definition.version step) := by
  refine ⟨⟨rfl, rfl⟩, ?_⟩
  rintro (e | response)
  · trivial
  refine emits_run_bind (emits_run_lift (emits_applyStep.mono fun _ hcall => hcall.ofStep)) ?_
  rintro (stepError | ⟨⟩)
  · refine emits_run_bind (emits_run_lift ?_) fun _ => trivial
    exact (emits_recordFailure stepError).mono fun _ hcall => hcall.ofStep
  · refine ⟨⟨rfl, rfl⟩, ?_⟩
    rintro (e | response)
    · exact ⟨trivial, fun _ => trivial⟩
    · trivial

theorem emits_recoverStep :
    (recoverStep definition report step).run.Emits (OfStep definition.version step) := by
  refine emits_run_bind (emits_run_lift (emits_verifyStep.mono fun _ hcall => hcall.ofStep)) ?_
  rintro (e | ⟨⟩)
  · exact emits_performStep
  · refine ⟨⟨rfl, rfl⟩, ?_⟩
    rintro (e | response) <;> trivial

/-- The work of a step is about that step. -/
theorem emits_runStep (versionWasComplete : Bool) (recordedSteps : RecordedSteps) :
    (runStep definition versionWasComplete recordedSteps report step).run.Emits
      (OfStep definition.version step) := by
  unfold runStep
  split
  · trivial
  split
  · split
    · trivial
    · split
      · trivial
      · exact emits_recoverStep
  · split
    · trivial
    · exact emits_performStep

/-- The calls that the work of a version may make: it reads and writes the rows of that version. -/
def OfVersion (version : Nat) : ExecutorCall MigrationStatement → Prop
  | .execute (.versionState v) => v = version
  | .execute (.recordedSteps v) => v = version
  | .execute (.versionStatus v ..) => v = version
  | .execute (.stepStatus v ..) => v = version
  | .execute (.apply v _) => v = version
  | .execute (.verify v _) => v = version
  | .execute _ => False
  | .control _ | .poison => True

theorem OfStep.ofVersion {call : ExecutorCall MigrationStatement} (h : OfStep version step call) :
    OfVersion version call := by
  cases call with
  | control => trivial
  | poison => trivial
  | execute statement =>
      cases statement with
      | versionStatus => exact h
      | stepStatus => exact h.1
      | apply => exact h.1
      | verify => exact h.1
      | _ => exact h.elim

/-- The work of a version is about that version. -/
theorem emits_runDefinition :
    (runDefinition report definition).run.Emits (OfVersion definition.version) := by
  refine ⟨rfl, ?_⟩
  rintro (e | versionState)
  · trivial
  refine emits_run_bind ?_ fun versionWasComplete => ⟨rfl, ?_⟩
  · exact (trivial : Emits (OfVersion definition.version) (.ret _))
  rintro (e | recorded)
  · trivial
  refine emits_run_bind ?_ fun recordedSteps => emits_run_bind ?_ fun _ =>
    emits_run_bind ?_ fun report => ?_
  · exact (trivial : Emits (OfVersion definition.version) (.ret _))
  · unfold startVersion
    split
    · trivial
    · refine ⟨rfl, ?_⟩
      rintro (e | response) <;> trivial
  · refine emits_run_foldlM (fun report step _ => ?_) report
    exact (emits_runStep _ _).mono fun call hcall => hcall.ofVersion
  · unfold finishVersion
    split
    · trivial
    · refine ⟨rfl, ?_⟩
      rintro (e | response)
      · exact ⟨trivial, fun _ => trivial⟩
      · trivial

/-- The calls that a bootstrap step may make. -/
def OfBootstrap (bootstrap : MigrationBootstrapStep) : ExecutorCall MigrationStatement → Prop
  | .execute (.bootstrapApply b) => b = bootstrap
  | .execute (.bootstrapVerify b) => b = bootstrap
  | _ => False

theorem emits_runBootstrapStep (bootstrap : MigrationBootstrapStep) :
    (runBootstrapStep report bootstrap).run.Emits (OfBootstrap bootstrap) := by
  unfold runBootstrapStep
  split
  · trivial
  · refine ⟨rfl, ?_⟩
    rintro (e | response)
    · trivial
    refine ⟨rfl, ?_⟩
    rintro (e | verified)
    · trivial
    change (if truthy verified = true then _ else _ : Program _ _ _).Emits _
    split <;> trivial

end Sends

/-! ## The walk through the work of one step -/

section Walk

variable {m : Manifest} {bootstrapSql : List MigrationBootstrapStep} {version : Nat}
  {step : MigrationStep} {h h' : RunHistory} {definition : MigrationDefinition}
  {report : MigrationReport}

theorem StepReady.mono (hh : h <+: h') :
    StepReady m bootstrapSql version step.id h → StepReady m bootstrapSql version step.id h' := by
  rintro ⟨hlock, hboot, hsteps⟩
  refine ⟨hlock.mono hh, hboot.mono hh, ?_⟩
  intro d s hs hreq hlt
  exact (hsteps d s hs hreq hlt).mono hh

/-- The rule for a recorded call: the demand at it, and the rest over the longer history. -/
theorem gate_call {α : Type} {call : ExecutorCall MigrationStatement}
    {next : ExecutorCall.Answer call → SqlProgram MigrationStatement α}
    {Q : α → RunHistory → Prop}
    (hcall : ∀ answer, gateDemand m bootstrapSql h ⟨call, answer⟩ ∧
      ∀ h', h <+: h' → h' = h ++ [⟨call, answer⟩] →
        wph (gateDemand m bootstrapSql) Q (next answer) h') :
    wph (gateDemand m bootstrapSql) Q (.call call next) h := by
  rw [wph_call]
  intro answer
  exact ⟨(hcall answer).1, (hcall answer).2 _ (List.prefix_append h _) rfl⟩

theorem gate_execute {α : Type} {statement : MigrationStatement}
    {next : SqlResult → SqlProgram MigrationStatement α} {Q : α → RunHistory → Prop}
    (hcall : ∀ answer, gateDemand m bootstrapSql h (stmt statement answer) ∧
      ∀ h', h <+: h' → h' = h ++ [stmt statement answer] →
        wph (gateDemand m bootstrapSql) Q (next answer) h') :
    wph (gateDemand m bootstrapSql) Q (execute statement >>= next) h :=
  gate_call hcall

theorem begin_gate (mode : WorkUnitMode) :
    wph (gateDemand m bootstrapSql) (fun r _ => ∀ t, r = .ok t → t = .opened)
      (Transaction.begin mode) h := by
  refine gate_call fun answer => ⟨trivial, fun h₁ _ _ => ?_⟩
  rcases answer with e | response
  · exact gate_call fun _ => ⟨trivial, fun h₂ _ _ t ht => by cases ht⟩
  · refine gate_call fun answer => ⟨trivial, fun h₂ _ _ => ?_⟩
    rcases answer with e | response
    · exact gate_call fun _ => ⟨trivial, fun h₃ _ _ t ht => by cases ht⟩
    · intro t ht
      cases ht
      rfl

/-- What follows a failed statement inside the transaction: it is rolled back and left. -/
theorem abandon_gate {α : Type} {Q : α → RunHistory → Prop} {a : α} (hQ : ∀ h, Q a h) :
    wph (gateDemand m bootstrapSql) Q
      (do
        let transaction ← Transaction.opened.rollback
        transaction.destroy
        return a) h := by
  refine gate_call fun answer => ⟨trivial, fun h₁ _ _ => ?_⟩
  rcases answer with e | response
  · exact gate_call fun _ => ⟨trivial, fun h₂ _ _ => hQ h₂⟩
  · exact hQ h₁

/-- The one answer to the verify SQL decides: truthy, or an error text. -/
theorem verifyStep_gate {Q : Except Bytes Unit → RunHistory → Prop}
    (hready : StepReady m bootstrapSql version step.id h)
    (hok : ∀ response, truthy response →
      Q (.ok ()) (h ++ [stmt (.verify version step) (.ok response)]))
    (herror : ∀ e h', h <+: h' → Q (.error e) h') :
    wph (gateDemand m bootstrapSql) Q (verifyStep version step) h := by
  refine gate_call fun answer => ⟨hready, fun h₁ hh₁ heq => ?_⟩
  change Q (verdict answer) h₁
  cases hverdict : verdict answer with
  | error e => exact herror e h₁ hh₁
  | ok =>
      obtain ⟨response, rfl, htrue⟩ := verdict_eq_ok hverdict
      rw [heq]
      exact hok response htrue

theorem applyTransactional_gate (hready : StepReady m bootstrapSql version step.id h) :
    wph (gateDemand m bootstrapSql) (fun r h' => r = .ok () → Verified version step h')
      (applyTransactional version step) h := by
  refine (wp_bind _ _ _).mpr (wp_post (wph_extends (begin_gate .command)) ?_)
  rintro (e | t) h₁ ⟨hh₁, hopened⟩
  · intro hok
    cases hok
  obtain rfl := hopened t rfl
  refine gate_execute fun answer => ⟨hready.mono hh₁, fun h₂ hh₂ _ => ?_⟩
  rcases answer with e | response
  · exact abandon_gate fun h hok => by cases hok
  refine (wp_bind _ _ _).mpr (verifyStep_gate (hready.mono (hh₁.trans hh₂)) ?_ ?_)
  · intro verified htrue
    refine gate_call fun answer => ⟨trivial, fun h₄ _ hh₄ => ?_⟩
    rcases answer with e | committed
    · exact gate_call fun _ => ⟨trivial, fun h₅ _ _ hok => by cases hok⟩
    · intro _
      refine ⟨h₂, verified, [ctrl .commit (.ok committed)], ?_, htrue, ?_⟩
      · rw [hh₄, List.append_assoc]
        rfl
      · intro _ _
        exact ⟨committed, List.mem_singleton.mpr rfl⟩
  · intro stepError h' _
    exact abandon_gate fun h hok => by cases hok

theorem applyStep_gate (hready : StepReady m bootstrapSql version step.id h) :
    wph (gateDemand m bootstrapSql) (fun r h' => r = .ok () → Verified version step h')
      (applyStep version step) h := by
  have hplain : step.execution ≠ .transactionalDml → ∀ h, StepReady m bootstrapSql version step.id h →
      wph (gateDemand m bootstrapSql) (fun r h' => r = .ok () → Verified version step h')
        (verifyStep version step) h := by
    intro hne h hready
    refine verifyStep_gate hready ?_ (fun e h' _ hok => by cases hok)
    intro response htrue _
    exact ⟨h, response, [], rfl, htrue, fun hdml => absurd hdml hne⟩
  unfold applyStep
  cases hexec : step.execution with
  | transactionalDml => exact applyTransactional_gate hready
  | atomicDdl =>
      refine gate_execute fun answer => ⟨hready, fun h₁ hh₁ _ => ?_⟩
      rcases answer with e | response
      · intro hok
        cases hok
      · exact hplain (by simp [hexec]) h₁ (hready.mono hh₁)
  | check => exact hplain (by simp [hexec]) h hready

/-- The failure records send nothing of the step's own and leave a failed report. -/
theorem recordFailure_gate (stepError : Bytes) :
    wph (gateDemand m bootstrapSql) (fun r _ => r.status = .failed)
      (recordFailure definition report step stepError) h := by
  refine gate_call fun answer => ⟨fun hrun => absurd hrun (by decide), fun h₁ _ _ => ?_⟩
  rcases answer with e | response
  · refine gate_call fun _ => ⟨trivial, fun h₂ _ _ => ?_⟩
    refine gate_call fun answer => ⟨trivial, fun h₃ _ _ => ?_⟩
    rcases answer with e | response
    · exact gate_call fun _ => ⟨trivial, fun h₄ _ _ => rfl⟩
    · rfl
  · refine gate_call fun answer => ⟨trivial, fun h₃ _ _ => ?_⟩
    rcases answer with e | response
    · exact gate_call fun _ => ⟨trivial, fun h₄ _ _ => rfl⟩
    · rfl

theorem performStep_gate
    (hready : StepReady m bootstrapSql definition.version step.id h) :
    wpx recording (demand (gateDemand m bootstrapSql))
      (fun _ h' => Completed definition.version step h')
      (fun r _ => r.status = .failed) (performStep definition report step) h := by
  refine gate_call fun answer => ⟨fun _ => hready, fun h₁ hh₁ _ => ?_⟩
  rcases answer with e | response
  · rfl
  refine (wpx_bind _ _ _).mpr ((wpx_lift _ _).mpr
    (wp_post (applyStep_gate (hready.mono hh₁)) ?_))
  rintro (stepError | ⟨⟩) h₂ hverified
  · refine (wpx_bind _ _ _).mpr ((wpx_lift _ _).mpr
      (wp_post (recordFailure_gate stepError) ?_))
    intro r h₃ hfailed
    exact hfailed
  · refine gate_call fun answer => ⟨fun hrun => absurd hrun (by decide), fun h₃ _ hh₃ => ?_⟩
    rcases answer with e | response
    · exact gate_call fun _ => ⟨trivial, fun h₄ _ _ => rfl⟩
    · exact ⟨h₂, response, [], hh₃, hverified rfl⟩

theorem recoverStep_gate
    (hready : StepReady m bootstrapSql definition.version step.id h)
    (happly : ∀ answer, stmt (.apply definition.version step) answer ∉ h) :
    wpx recording (demand (gateDemand m bootstrapSql))
      (fun _ h' => Completed definition.version step h')
      (fun r _ => r.status = .failed) (recoverStep definition report step) h := by
  refine (wpx_bind _ _ _).mpr ((wpx_lift _ _).mpr (verifyStep_gate hready ?_ ?_))
  · intro response htrue
    refine gate_call fun answer => ⟨fun hrun => absurd hrun (by decide), fun h₂ _ hh₂ => ?_⟩
    rcases answer with e | written
    · rfl
    · refine ⟨_, written, [], hh₂, h, response, [], rfl, htrue, ?_⟩
      rintro - ⟨answer, hmem⟩
      exact absurd hmem (happly answer)
  · intro e h' hh'
    exact performStep_gate (hready.mono hh')

end Walk

/-! ## How far a run has come -/

section Loops

variable {m : Manifest} {bootstrapSql : List MigrationBootstrapStep} {version : Nat}
  {step : MigrationStep} {h h' : RunHistory} {definition : MigrationDefinition}
  {report : MigrationReport} {done rest : List MigrationDefinition}
  {doneSteps restSteps : List MigrationStep} {P : Nat → MigrationStep → Prop}
  {gated : List MigrationBootstrapStep}

/-- The lock is held, the metadata tables are verified, the steps that `P` names are confirmed if
they are required, and no other step has been applied. -/
structure Passed (bootstrapSql : List MigrationBootstrapStep) (P : Nat → MigrationStep → Prop)
    (h : RunHistory) : Prop where
  lock : LockGranted h
  bootstrap : BootstrapVerified bootstrapSql h
  confirmed : ∀ version step, P version step → step.Required → Confirmed version step h
  applied : ∀ version step answer, stmt (.apply version step) answer ∈ h → P version step

/-- The steps of the definitions that are done. -/
def Handled (done : List MigrationDefinition) (version : Nat) (step : MigrationStep) : Prop :=
  ∃ d ∈ done, d.version = version ∧ step ∈ d.steps

/-- The same in the middle of a definition. -/
def Through (done : List MigrationDefinition) (definition : MigrationDefinition)
    (doneSteps : List MigrationStep) (version : Nat) (step : MigrationStep) : Prop :=
  Handled done version step ∨ (version = definition.version ∧ step ∈ doneSteps)

/-- Sending what is no apply statement keeps a run where it is. -/
theorem Passed.event (hp : Passed bootstrapSql P h) (event : RunEvent)
    (hevent : ∀ v s, event.1 ≠ .execute (.apply v s)) :
    Passed bootstrapSql P (h ++ [event]) where
  lock := hp.lock.mono (List.prefix_append h [event])
  bootstrap := hp.bootstrap.mono (List.prefix_append h [event])
  confirmed v s hP hreq := (hp.confirmed v s hP hreq).mono (List.prefix_append h [event])
  applied v s answer hmem := by
    rcases List.mem_append.mp hmem with hold | hadded
    · exact hp.applied v s answer hold
    · rw [← List.mem_singleton.mp hadded] at hevent
      exact absurd rfl (hevent v s)

/-- The work of the next step takes a run over that step. -/
theorem Passed.next {new : RunHistory} (hp : Passed bootstrapSql (Through done definition doneSteps) h)
    (hnew : ∀ event ∈ new, OfStep definition.version step event.1)
    (hconfirmed : step.Required → Confirmed definition.version step (h ++ new)) :
    Passed bootstrapSql (Through done definition (doneSteps ++ [step])) (h ++ new) where
  lock := hp.lock.mono (List.prefix_append h new)
  bootstrap := hp.bootstrap.mono (List.prefix_append h new)
  confirmed := by
    rintro v s (hdone | ⟨rfl, hs⟩) hreq
    · exact (hp.confirmed v s (Or.inl hdone) hreq).mono (List.prefix_append h new)
    rcases List.mem_append.mp hs with hold | hlast
    · exact (hp.confirmed _ s (Or.inr ⟨rfl, hold⟩) hreq).mono (List.prefix_append h new)
    · obtain rfl := List.mem_singleton.mp hlast
      exact hconfirmed hreq
  applied v s answer hmem := by
    rcases List.mem_append.mp hmem with hold | hadded
    · rcases hp.applied v s answer hold with hdone | ⟨hversion, hs⟩
      · exact Or.inl hdone
      · exact Or.inr ⟨hversion, List.mem_append_left _ hs⟩
    · obtain ⟨hversion, rfl⟩ := hnew _ hadded
      exact Or.inr ⟨hversion, by simp⟩

/-- What is smaller than the next step, in a manifest, is done. -/
theorem through_of_lt (hm : m.definitions = done ++ definition :: rest)
    (hsteps : definition.steps = doneSteps ++ step :: restSteps) {d : MigrationDefinition}
    {s : MigrationStep} (hs : m.Has d s)
    (hlt : addressLt (d.version, s.id) (definition.version, step.id)) :
    Through done definition doneSteps d.version s := by
  have hversions := m.versions_increasing
  rw [hm, List.pairwise_append, List.pairwise_cons] at hversions
  have hd : d ∈ done ++ definition :: rest := hm ▸ hs.1
  have hdefinition : definition ∈ m.definitions := by
    rw [hm]
    exact List.mem_append_right _ List.mem_cons_self
  rcases List.mem_append.mp hd with hdone | hlater
  · exact Or.inl ⟨d, hdone, rfl, hs.2⟩
  rcases hlt with hlt | ⟨hversion, hid⟩
  · exfalso
    rcases List.mem_cons.mp hlater with rfl | hrest
    · exact Nat.lt_irrefl _ hlt
    · have hgt : definition.version < d.version := hversions.2.1.1 d hrest
      exact Nat.lt_asymm hlt hgt
  · obtain rfl := m.version_unique hs.1 hdefinition hversion
    have hids := m.ids_increasing d hs.1
    have hmem : s ∈ doneSteps ++ step :: restSteps := hsteps ▸ hs.2
    rw [hsteps, List.pairwise_append, List.pairwise_cons] at hids
    rcases List.mem_append.mp hmem with hdone | hlater
    · exact Or.inr ⟨rfl, hdone⟩
    · exfalso
      rcases List.mem_cons.mp hlater with rfl | hrest
      · exact List.lt_irrefl s.id hid
      · have hgt : step.id < s.id := hids.2.1.1 s hrest
        exact List.lt_asymm hid hgt

/-- The next step is not among those that are done. -/
theorem not_through_self (hm : m.definitions = done ++ definition :: rest)
    (hsteps : definition.steps = doneSteps ++ step :: restSteps) :
    ¬ Through done definition doneSteps definition.version step := by
  have hversions := m.versions_increasing
  rw [hm, List.pairwise_append] at hversions
  rintro (⟨d, hd, hversion, _⟩ | ⟨_, hstep⟩)
  · have hlt : d.version < definition.version :=
      hversions.2.2 d hd definition List.mem_cons_self
    omega
  · have hdefinition : definition ∈ m.definitions := by
      rw [hm]
      exact List.mem_append_right _ List.mem_cons_self
    have hids := m.ids_increasing definition hdefinition
    rw [hsteps, List.pairwise_append] at hids
    exact List.lt_irrefl step.id (hids.2.2 step hstep step List.mem_cons_self)

/-- A run that is through with all smaller steps may start on the next one. -/
theorem Passed.ready (hm : m.definitions = done ++ definition :: rest)
    (hsteps : definition.steps = doneSteps ++ step :: restSteps)
    (hp : Passed bootstrapSql (Through done definition doneSteps) h) :
    StepReady m bootstrapSql definition.version step.id h := by
  refine ⟨hp.lock, hp.bootstrap, ?_⟩
  intro d s hs hreq hlt
  exact hp.confirmed d.version s (through_of_lt hm hsteps hs hlt) hreq

/-! ## The two loops -/

theorem runStep_gate {versionWasComplete : Bool} {recordedSteps : RecordedSteps}
    (hready : StepReady m bootstrapSql definition.version step.id h)
    (happly : ∀ answer, stmt (.apply definition.version step) answer ∉ h)
    (hread : ∀ recorded, recordedSteps.lookup step.id = some recorded →
      recorded.status = succeeded → ReadSucceeded definition.version step h) :
    wpx recording (demand (gateDemand m bootstrapSql))
      (fun _ h' => step.Required → Confirmed definition.version step h')
      (fun r _ => r.status = .failed)
      (runStep definition versionWasComplete recordedSteps report step) h := by
  unfold runStep
  by_cases hcleanup : step.phase = .cleanup
  · rw [if_pos hcleanup]
    exact fun hreq => absurd hcleanup hreq
  rw [if_neg hcleanup]
  cases hlookup : recordedSteps.lookup step.id with
  | some existing =>
      by_cases hstale : versionWasComplete ∧ existing.status ≠ succeeded
      · simp only [if_pos hstale]
        rfl
      simp only [if_neg hstale]
      by_cases hsucceeded : existing.status = succeeded
      · rw [if_pos hsucceeded]
        exact fun _ => Or.inl (hread existing hlookup hsucceeded)
      · rw [if_neg hsucceeded]
        exact wpx_post (recoverStep_gate hready happly)
          (fun r h' hcompleted _ => Or.inr hcompleted) (fun _ _ hX => hX)
  | none =>
      by_cases hcomplete : versionWasComplete = true
      · simp only [if_pos hcomplete]
        rfl
      · simp only [if_neg hcomplete]
        exact wpx_post (performStep_gate hready)
          (fun r h' hcompleted _ => Or.inr hcompleted) (fun _ _ hX => hX)

/-- A step found in the map as SUCCEEDED was read as such. -/
theorem readSucceeded_of_lookup {response : SqlResponse} {recordedSteps : RecordedSteps}
    {recorded : RecordedStep} (hids : definition.steps.Pairwise fun s t => s.id < t.id)
    (hmem : stmt (.recordedSteps definition.version) (.ok response) ∈ h)
    (hread : readRecordedSteps definition report [] response.rows = .ok recordedSteps)
    (hstep : step ∈ definition.steps) (hlookup : recordedSteps.lookup step.id = some recorded)
    (hstatus : recorded.status = succeeded) : ReadSucceeded definition.version step h := by
  rcases (readRecordedSteps_lookup hread).mp hlookup with hnil | ⟨_, hrow⟩
  · cases hnil
  obtain ⟨id, read, current, heq, hcurrent, hmatches⟩ :=
    readRecordedSteps_matches hread (List.mem_of_find?_eq_some hrow)
  obtain ⟨rfl, rfl⟩ := RecordedStep.row_inj heq
  have hid : current.id = step.id := by simpa using List.find?_some hcurrent
  obtain rfl := ids_unique hids (List.mem_of_find?_eq_some hcurrent) hstep hid
  obtain ⟨hchecksum, hphase, hexecution⟩ := hmatches
  refine ⟨response, hmem, ?_⟩
  rw [hrow, RecordedStep.row, hchecksum, hphase, hexecution, hstatus]

theorem runSteps_gate {versionWasComplete : Bool} {recordedSteps : RecordedSteps}
    (hm : m.definitions = done ++ definition :: rest)
    (hp : Passed bootstrapSql (Handled done) h)
    (hread : ∀ step ∈ definition.steps, ∀ recorded,
      recordedSteps.lookup step.id = some recorded → recorded.status = succeeded →
        ReadSucceeded definition.version step h) :
    wpx recording (demand (gateDemand m bootstrapSql))
      (fun _ h' => Passed bootstrapSql (Handled (done ++ [definition])) h')
      (fun r _ => r.status = .failed)
      (definition.steps.foldlM (runStep definition versionWasComplete recordedSteps) report) h := by
  let I (doneSteps : List MigrationStep) (_ : MigrationReport) (h' : RunHistory) : Prop :=
    h <+: h' ∧ Passed bootstrapSql (Through done definition doneSteps) h'
  have hstart : I [] report h := by
    refine ⟨List.prefix_refl h, hp.lock, hp.bootstrap, ?_, ?_⟩
    · rintro v s (hdone | ⟨_, hnil⟩) hreq
      · exact hp.confirmed v s hdone hreq
      · cases hnil
    · intro v s answer hmem
      exact Or.inl (hp.applied v s answer hmem)
  refine wpx_post (wpx_foldlM I ?_ hstart) ?_ (fun _ _ hX => hX)
  · rintro doneSteps step restSteps r h₁ hsteps ⟨hext, hpassed⟩
    have hready := hpassed.ready hm hsteps
    have happly : ∀ answer, stmt (.apply definition.version step) answer ∉ h₁ := fun answer hmem =>
      not_through_self hm hsteps (hpassed.applied _ _ _ hmem)
    have hstep : step ∈ definition.steps := by
      rw [hsteps]
      exact List.mem_append_right _ List.mem_cons_self
    refine wpx_post (wpx_emits (runStep_gate hready happly ?_) (emits_runStep _ _)) ?_
      (fun _ _ hX => hX)
    · intro recorded hlookup hsucceeded
      exact (hread step hstep recorded hlookup hsucceeded).mono hext
    · rintro r' h₂ ⟨new, rfl, hnew, hconfirmed⟩
      exact ⟨hext.trans (List.prefix_append h₁ new), hpassed.next hnew hconfirmed⟩
  · rintro r h' ⟨_, hpassed⟩
    refine ⟨hpassed.lock, hpassed.bootstrap, ?_, ?_⟩
    · rintro v s ⟨d, hd, hversion, hs⟩ hreq
      refine hpassed.confirmed v s ?_ hreq
      rcases List.mem_append.mp hd with hdone | hlast
      · exact Or.inl ⟨d, hdone, hversion, hs⟩
      · obtain rfl := List.mem_singleton.mp hlast
        exact Or.inr ⟨hversion.symm, hs⟩
    · intro v s answer hmem
      rcases hpassed.applied v s answer hmem with ⟨d, hd, hversion, hs⟩ | ⟨hversion, hs⟩
      · exact ⟨d, List.mem_append_left _ hd, hversion, hs⟩
      · exact ⟨definition, by simp, hversion.symm, hs⟩

theorem startVersion_gate {versionWasComplete : Bool} (hp : Passed bootstrapSql P h) :
    wpx recording (demand (gateDemand m bootstrapSql)) (fun _ h' => Passed bootstrapSql P h')
      (fun r _ => r.status = .failed) (startVersion definition versionWasComplete report) h := by
  unfold startVersion
  split
  · exact hp
  · refine gate_call fun answer => ⟨trivial, fun h₁ _ heq => ?_⟩
    rcases answer with e | response
    · rfl
    · rw [heq]
      exact hp.event _ (by simp)

theorem finishVersion_gate {versionWasComplete : Bool} (hp : Passed bootstrapSql P h)
    (hclosed : versionWasComplete = true → VersionClosed definition h) :
    wpx recording (demand (gateDemand m bootstrapSql))
      (fun _ h' => Passed bootstrapSql P h' ∧ VersionClosed definition h')
      (fun r _ => r.status = .failed) (finishVersion definition versionWasComplete report) h := by
  unfold finishVersion
  split
  · rename_i hcomplete
    exact ⟨hp, hclosed hcomplete⟩
  · refine gate_call fun answer => ⟨trivial, fun h₁ _ heq => ?_⟩
    rcases answer with e | response
    · exact gate_call fun _ => ⟨trivial, fun h₂ _ _ => rfl⟩
    · subst heq
      exact ⟨hp.event _ (by simp), Or.inr ⟨response, by simp⟩⟩

theorem runDefinition_gate (hm : m.definitions = done ++ definition :: rest)
    (hp : Passed bootstrapSql (Handled done) h) :
    wpx recording (demand (gateDemand m bootstrapSql))
      (fun _ h' => Passed bootstrapSql (Handled (done ++ [definition])) h' ∧ VersionClosed definition h')
      (fun r _ => r.status = .failed) (runDefinition report definition) h := by
  have hdefinition : definition ∈ m.definitions := by
    rw [hm]
    exact List.mem_append_right _ List.mem_cons_self
  refine gate_call fun answer => ⟨trivial, fun h₁ _ heq₁ => ?_⟩
  subst heq₁
  rcases answer with e | versionState
  · rfl
  refine (wpx_bind _ _ _).mpr ?_
  cases hversion : readVersionState definition report versionState.rows with
  | error r =>
      obtain ⟨failedStep, message, rfl⟩ := readVersionState_failed hversion
      rfl
  | ok versionWasComplete =>
  refine gate_call fun answer => ⟨trivial, fun h₂ _ heq₂ => ?_⟩
  subst heq₂
  rcases answer with e | recorded
  · rfl
  refine (wpx_bind _ _ _).mpr ?_
  cases hrecorded : readRecordedSteps definition report [] recorded.rows with
  | error r =>
      obtain ⟨failedStep, message, rfl⟩ := readRecordedSteps_failed hrecorded
      rfl
  | ok recordedSteps =>
  have hp₂ := (hp.event (stmt (.versionState definition.version) (.ok versionState)) (by simp)).event
    (stmt (.recordedSteps definition.version) (.ok recorded)) (by simp)
  refine (wpx_bind _ _ _).mpr (wpx_post (wpx_extends (startVersion_gate hp₂)) ?_
    (fun _ _ hX => hX.2))
  rintro - h₃ ⟨hext₃, hp₃⟩
  have hread : ∀ step ∈ definition.steps, ∀ recorded,
      recordedSteps.lookup step.id = some recorded → recorded.status = succeeded →
        ReadSucceeded definition.version step h₃ := by
    intro step hstep recorded hlookup hsucceeded
    refine ReadSucceeded.mono hext₃ ?_
    exact readSucceeded_of_lookup (m.ids_increasing definition hdefinition) (by simp) hrecorded
      hstep hlookup hsucceeded
  refine (wpx_bind _ _ _).mpr (wpx_post (wpx_extends (runSteps_gate hm hp₃ hread)) ?_
    (fun _ _ hX => hX.2))
  rintro r h₄ ⟨hext₄, hp₄⟩
  refine finishVersion_gate hp₄ ?_
  rintro rfl
  obtain ⟨rest, hrows⟩ := readVersionState_complete hversion
  exact VersionClosed.mono (hext₃.trans hext₄) (Or.inl ⟨versionState, rest, by simp, hrows⟩)

theorem runBootstrapStep_gate {bootstrap : MigrationBootstrapStep}
    (hp : Passed bootstrapSql P h) :
    wpx recording (demand (gateDemand m gated))
      (fun _ h' => Passed (bootstrapSql ++ [bootstrap]) P h')
      (fun r _ => r.status = .failed) (runBootstrapStep report bootstrap) h := by
  unfold runBootstrapStep
  split
  · rfl
  refine gate_call fun answer => ⟨trivial, fun h₁ _ heq₁ => ?_⟩
  subst heq₁
  rcases answer with e | response
  · rfl
  refine gate_call fun answer => ⟨trivial, fun h₂ _ heq₂ => ?_⟩
  subst heq₂
  rcases answer with e | verified
  · rfl
  change wpx recording _ _ _ (if truthy verified = true then pure report else throw _) _
  by_cases htrue : truthy verified = true
  · rw [if_pos htrue]
    have hp₂ := (hp.event (stmt (.bootstrapApply bootstrap) (.ok response)) (by simp)).event
      (stmt (.bootstrapVerify bootstrap) (.ok verified)) (by simp)
    refine ⟨hp₂.lock, ?_, hp₂.confirmed, hp₂.applied⟩
    intro b hb
    rcases List.mem_append.mp hb with hold | hlast
    · exact hp₂.bootstrap b hold
    · rw [List.mem_singleton.mp hlast]
      exact ⟨verified, by simp, htrue⟩
  · rw [if_neg htrue]
    rfl

/-- What holds when everything under the lock went through. -/
structure AllConfirmed (m : Manifest) (h : RunHistory) : Prop where
  steps : ∀ d step, m.Has d step → step.Required → Confirmed d.version step h
  versions : ∀ d ∈ m.definitions, VersionClosed d h

theorem AllConfirmed.mono (hh : h <+: h') (hall : AllConfirmed m h) : AllConfirmed m h' where
  steps d step hstep hreq := (hall.steps d step hstep hreq).mono hh
  versions d hd := (hall.versions d hd).mono hh

theorem runLocked_gate (hlock : LockGranted h)
    (hnone : ∀ version step answer, stmt (.apply version step) answer ∉ h) :
    wpx recording (demand (gateDemand m bootstrapSql))
      (fun _ h' => AllConfirmed m h') (fun r _ => r.status = .failed)
      (runLocked m.definitions bootstrapSql report) h := by
  unfold runLocked
  split
  · rfl
  let Boot (done : List MigrationBootstrapStep) (r : MigrationReport) (h' : RunHistory) : Prop :=
    Passed done (Handled []) h'
  let Defs (done : List MigrationDefinition) (r : MigrationReport) (h' : RunHistory) : Prop :=
    Passed bootstrapSql (Handled done) h' ∧ ∀ d ∈ done, VersionClosed d h'
  have hstart : Boot [] report h := by
    refine ⟨hlock, ?_, ?_, ?_⟩
    · intro b hb
      cases hb
    · rintro v s ⟨d, hd, _⟩
      cases hd
    · intro v s answer hmem
      exact absurd hmem (hnone v s answer)
  refine (wpx_bind _ _ _).mpr (wpx_post (wpx_foldlM Boot ?_ hstart) ?_ (fun _ _ hX => hX))
  · intro done bootstrap rest r h₁ _ hp
    exact wpx_post (runBootstrapStep_gate hp) (fun _ _ hQ => hQ) (fun _ _ hX => hX)
  intro r h₁ hboot
  refine wpx_post (wpx_foldlM Defs ?_ ⟨hboot, by simp⟩) ?_ (fun _ _ hX => hX)
  · rintro done definition rest r h₂ hm ⟨hp, hclosed⟩
    refine wpx_post (wpx_extends (runDefinition_gate hm hp)) ?_ (fun _ _ hX => hX.2)
    rintro r' h₃ ⟨hext, hp₃, hnew⟩
    refine ⟨hp₃, ?_⟩
    intro d hd
    rcases List.mem_append.mp hd with hold | hlast
    · exact (hclosed d hold).mono hext
    · rw [List.mem_singleton.mp hlast]
      exact hnew
  · rintro r' h₃ ⟨hp, hclosed⟩
    refine ⟨?_, hclosed⟩
    intro d step hstep hreq
    exact hp.confirmed d.version step ⟨d, hstep.1, rfl, hstep.2⟩ hreq

/-- Leaving `run` early always reports failure. -/
theorem runLocked_returns (m : Manifest) (bootstrapSql : List MigrationBootstrapStep) :
    (runLocked m.definitions bootstrapSql report).run.Returns
      fun r => ∀ e, r = .error e → e.status = .failed := by
  let granted : SqlResponse := { rows := [[some (lit "1")]] }
  have hlock : LockGranted [stmt (.getLock 0) (.ok granted)] := ⟨0, granted, by simp, by decide⟩
  refine returns_of_wph (runLocked_gate hlock (by simp)) ?_
  rintro (e | r) h hr e' heq
  · cases heq
    exact hr
  · cases heq

/-- The last thing sent was `RELEASE_LOCK`, and it was confirmed. -/
def ReleaseAcknowledged (h : RunHistory) : Prop :=
  ∃ past response, h = past ++ [stmt .releaseLock (.ok response)] ∧ truthy response

theorem sendRelease_gate :
    wph (gateDemand m bootstrapSql) (fun released h' => released = true → ReleaseAcknowledged h')
      sendRelease h := by
  refine gate_call fun answer => ⟨trivial, fun h₁ _ heq => ?_⟩
  change wph _ _ (if confirmed answer = true then .ret true else _) h₁
  by_cases hconfirmed : confirmed answer = true
  · rw [if_pos hconfirmed]
    intro _
    rcases answer with e | response
    · cases hconfirmed
    · exact ⟨h, response, heq, hconfirmed⟩
  · rw [if_neg hconfirmed]
    refine gate_call fun _ => ⟨trivial, fun h₂ _ _ htrue => ?_⟩
    cases htrue

theorem destroy_gate (lock : MigrationLock) :
    wph (gateDemand m bootstrapSql) (fun _ _ => True) lock.destroy h := by
  unfold MigrationLock.destroy
  split
  · trivial
  · exact (wp_bind _ _ _).mpr (wp_post sendRelease_gate fun _ _ _ => trivial)

/-- What a report of success means. -/
structure GatePassed (m : Manifest) (h : RunHistory) : Prop extends AllConfirmed m h where
  released : ReleaseAcknowledged h

theorem run_gate (m : Manifest) (bootstrapSql : List MigrationBootstrapStep)
    (lockTimeoutSeconds : Nat) :
    wph (gateDemand m bootstrapSql)
      (fun report h => report.status = .succeeded → GatePassed m h)
      (run m.definitions bootstrapSql lockTimeoutSeconds) [] := by
  refine gate_call fun answer => ⟨trivial, fun h₁ _ heq => ?_⟩
  rcases answer with e | acquired
  · intro hsucceeded
    cases hsucceeded
  change wph _ _ (if !truthy acquired then _ else _) h₁
  by_cases htrue : truthy acquired = true
  · rw [if_neg (by simp [htrue])]
    refine (wp_bind _ _ _).mpr (wp_post (runLocked_gate ?_ ?_) ?_)
    · exact ⟨lockTimeoutSeconds, acquired, by simp [heq], htrue⟩
    · intro version step answer
      simp [heq]
    rintro (r | r) h₂ hlocked
    · refine (wp_bind _ _ _).mpr (wp_post (destroy_gate _) ?_)
      intro _ h₃ _ hsucceeded
      exact absurd (hlocked.symm.trans hsucceeded) (by decide)
    · refine (wp_bind _ _ _).mpr ((wp_bind _ _ _).mpr (wp_post (wph_extends sendRelease_gate) ?_))
      rintro released h₃ ⟨hext, hreleased⟩
      -- the lock object that `release` leaves behind is no longer held, so it sends nothing more
      cases released with
      | false =>
          intro hsucceeded
          cases hsucceeded
      | true =>
          intro _
          exact ⟨hlocked.mono hext, hreleased rfl⟩
  · rw [if_pos (by simp [htrue])]
    intro hsucceeded
    cases hsucceeded

end Loops

/-! ## The gate -/

/-- Start-up gate soundness and ordering: nothing of a step is sent before the gate in front of it
is open, and success is reported only if everything required is confirmed. -/
theorem startUpGate_sound (m : Manifest) (bootstrapSql : List MigrationBootstrapStep)
    (lockTimeoutSeconds : Nat) (events : RunHistory) (report : MigrationReport)
    (hrun : Runs (run m.definitions bootstrapSql lockTimeoutSeconds) events report) :
    (∀ past event future, events = past ++ event :: future →
      gateDemand m bootstrapSql past event) ∧
    (report.status = .succeeded → GatePassed m events) := by
  obtain ⟨hreport, hdemand⟩ := runs_of_wp (run_gate m bootstrapSql lockTimeoutSeconds) hrun
  exact ⟨hdemand, hreport⟩

section Witness

/-- One version with one transactional step. -/
def seedStep : MigrationStep where
  id := lit "001_seed"
  phase := .backfill
  execution := .transactionalDml
  applySql := lit "INSERT INTO seed VALUES(1)"
  verifySql := lit "SELECT COUNT(*)=1 FROM seed"
  checksum := lit "c0"

def seedManifest : Manifest where
  definitions := [⟨1, lit "001_seed", [seedStep]⟩]
  versions_increasing := by simp
  steps_nonempty := by simp
  ids_increasing := by simp

def metadataTable : MigrationBootstrapStep :=
  ⟨lit "schema_migrations", lit "CREATE TABLE schema_migrations(version INT)", lit "SELECT 1"⟩

/-- A server that has nothing recorded, confirms every check and acknowledges the rest. -/
def acknowledging : (call : ExecutorCall MigrationStatement) → Unit → call.Answer × Unit
  | .execute (.versionState _), s => (.ok {}, s)
  | .execute (.recordedSteps _), s => (.ok {}, s)
  | .execute _, s => (.ok { rows := [[some (lit "1")]] }, s)
  | .control _, s => (.ok {}, s)
  | .poison, s => ((), s)

/-- A first start against that server: it succeeds, so the gate was passed. -/
def firstStart : RunHistory × MigrationReport :=
  (run seedManifest.definitions [metadataTable]).exec acknowledging ()

theorem startUpGate_sound_firstStart :
    firstStart.2.status = .succeeded ∧ GatePassed seedManifest firstStart.1 := by
  have hsucceeded : firstStart.2.status = .succeeded := by decide
  exact ⟨hsucceeded, (startUpGate_sound seedManifest [metadataTable] 10 firstStart.1 firstStart.2
    (runs_exec acknowledging _ ())).2 hsucceeded⟩

end Witness

end Warehouse.Mysql.Migration
