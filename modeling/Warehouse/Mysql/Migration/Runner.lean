/-
# Warehouse.Mysql.Migration.Runner — `MigrationRunner::run`

The runner of `migration.cpp` as a program over its executor.  The source is one function with two
nested loops and a `return` at every failure; here the loop bodies are functions of their own and
`Runner` is the monad with that early return, so `throw report` is `return failed(...)` and the
destructors that a `return` runs appear where the scope they belong to ends.

Statements carry the step they are sent for.  `verifyStep` and the apply statement take the version
beside the step for that reason alone: their text does not depend on it.
-/
import Warehouse.Mysql.Transaction
import Warehouse.Mysql.Migration.Manifest

namespace Warehouse.Mysql.Migration

open Warehouse.Interaction

/-! ## The statements of the runner -/

/-- The places where the runner sends a statement of its own. -/
inductive MigrationStatement
  | getLock (timeoutSeconds : Nat)
  | releaseLock
  | bootstrapApply (bootstrap : MigrationBootstrapStep)
  | bootstrapVerify (bootstrap : MigrationBootstrapStep)
  | versionState (version : Nat)
  | recordedSteps (version : Nat)
  | versionStatus (version : Nat) (name status errorMessage : Bytes)
  | stepStatus (version : Nat) (step : MigrationStep) (status errorMessage : Bytes)
  | apply (version : Nat) (step : MigrationStep)
  | verify (version : Nat) (step : MigrationStep)
  deriving DecidableEq

/-- `MigrationLock::lockName` -/
def lockName : Bytes := lit "warehouse_schema_migrations"

instance : SqlStatement MigrationStatement where
  sql
    | .getLock _ => lit "SELECT GET_LOCK(?,?)"
    | .releaseLock => lit "SELECT RELEASE_LOCK(?)"
    | .bootstrapApply bootstrap => bootstrap.applySql
    | .bootstrapVerify bootstrap => bootstrap.verifySql
    | .versionState _ => lit "SELECT name,status FROM schema_migrations WHERE version=?"
    | .recordedSteps _ => lit "SELECT step_id,checksum,phase,execution,status "
        ++ lit "FROM schema_migration_steps WHERE version=? ORDER BY step_id"
    | .versionStatus .. => lit "INSERT INTO schema_migrations"
        ++ lit "(version,name,status,started_at,finished_at,error_message) "
        ++ lit "VALUES(?,?,?,UTC_TIMESTAMP(),"
        ++ lit "CASE WHEN ?='SUCCEEDED' THEN UTC_TIMESTAMP() ELSE NULL END,?) "
        ++ lit "ON DUPLICATE KEY UPDATE name=VALUES(name),status=VALUES(status),"
        ++ lit "started_at=CASE WHEN VALUES(status)='RUNNING' THEN UTC_TIMESTAMP() ELSE started_at END,"
        ++ lit "finished_at=CASE WHEN VALUES(status)='SUCCEEDED' THEN UTC_TIMESTAMP() ELSE NULL END,"
        ++ lit "error_message=VALUES(error_message)"
    | .stepStatus .. => lit "INSERT INTO schema_migration_steps"
        ++ lit "(version,step_id,checksum,phase,execution,status,started_at,finished_at,error_message) "
        ++ lit "VALUES(?,?,?,?,?,?,UTC_TIMESTAMP(),"
        ++ lit "CASE WHEN ?='SUCCEEDED' THEN UTC_TIMESTAMP() ELSE NULL END,?) "
        ++ lit "ON DUPLICATE KEY UPDATE status=VALUES(status),"
        ++ lit "started_at=CASE WHEN VALUES(status)='RUNNING' THEN UTC_TIMESTAMP() ELSE started_at END,"
        ++ lit "finished_at=CASE WHEN VALUES(status)='SUCCEEDED' THEN UTC_TIMESTAMP() ELSE NULL END,"
        ++ lit "error_message=VALUES(error_message)"
    | .apply _ step => step.applySql
    | .verify _ step => step.verifySql
  parameters
    | .getLock timeoutSeconds => some [.text lockName, .uint64 timeoutSeconds]
    | .releaseLock => some [.text lockName]
    | .versionState version => some [.uint64 version]
    | .recordedSteps version => some [.uint64 version]
    | .versionStatus version name status errorMessage =>
        some [.uint64 version, .text name, .text status, .text status, .text errorMessage]
    | .stepStatus version step status errorMessage =>
        some [.uint64 version, .text step.id, .text step.checksum, .text (phaseName step.phase),
          .text (executionName step.execution), .text status, .text status, .text errorMessage]
    | .bootstrapApply _ | .bootstrapVerify _ | .apply .. | .verify .. => none

/-- Status values of both metadata tables. -/
def running : Bytes := lit "RUNNING"
def succeeded : Bytes := lit "SUCCEEDED"
def failedStatus : Bytes := lit "FAILED"

theorem running_ne_succeeded : running ≠ succeeded := by decide
theorem failedStatus_ne_succeeded : failedStatus ≠ succeeded := by decide

/-! ## Reports -/

/-- `MigrationRunStatus` -/
inductive MigrationRunStatus
  | succeeded | failed
  deriving DecidableEq, Repr

/-- `MigrationReport` -/
structure MigrationReport where
  status : MigrationRunStatus := .failed
  versionsApplied : Nat := 0
  versionsAlreadyComplete : Nat := 0
  stepsApplied : Nat := 0
  appliedSteps : List Bytes := []
  alreadyCompleteSteps : List Bytes := []
  pendingSteps : List Bytes := []
  deferredCleanupSteps : List Bytes := []
  nonRollbackableSteps : List Bytes := []
  failedStep : Bytes := []
  message : Bytes := []
  deriving DecidableEq, Repr

/-- `failed` -/
def failed (report : MigrationReport) (step message : Bytes) : MigrationReport :=
  { report with status := .failed, failedStep := step, message := message }

@[simp] theorem failed_status (report : MigrationReport) (step message : Bytes) :
    (failed report step message).status = .failed := rfl

/-- `removePending` -/
def removePending (report : MigrationReport) (stepId : Bytes) : MigrationReport :=
  { report with pendingSteps := report.pendingSteps.filter (· != stepId) }

/-- The report before the first statement. -/
def initialReport (definitions : List MigrationDefinition) : MigrationReport :=
  let steps := definitions.flatMap MigrationDefinition.steps
  { deferredCleanupSteps := (steps.filter fun s => s.phase = .cleanup).map MigrationStep.id
    pendingSteps := (steps.filter fun s => s.phase ≠ .cleanup).map MigrationStep.id }

/-- The bookkeeping of a step found recorded as SUCCEEDED. -/
def MigrationReport.alreadyComplete (report : MigrationReport) (stepId : Bytes) :
    MigrationReport :=
  removePending { report with alreadyCompleteSteps := report.alreadyCompleteSteps ++ [stepId] }
    stepId

/-- The bookkeeping of a step that this run completed. -/
def MigrationReport.applied (report : MigrationReport) (stepId : Bytes) : MigrationReport :=
  removePending
    { report with
      stepsApplied := report.stepsApplied + 1
      appliedSteps := report.appliedSteps ++ [stepId] }
    stepId

/-- The bookkeeping before the work of a step: DDL cannot be rolled back. -/
def MigrationReport.starting (report : MigrationReport) (step : MigrationStep) :
    MigrationReport :=
  if step.execution = .atomicDdl then
    { report with nonRollbackableSteps := report.nonRollbackableSteps ++ [step.id] }
  else report

@[simp] theorem alreadyComplete_status (report : MigrationReport) (stepId : Bytes) :
    (report.alreadyComplete stepId).status = report.status := rfl

@[simp] theorem applied_status (report : MigrationReport) (stepId : Bytes) :
    (report.applied stepId).status = report.status := rfl

@[simp] theorem starting_status (report : MigrationReport) (step : MigrationStep) :
    (report.starting step).status = report.status := by
  unfold MigrationReport.starting
  split <;> rfl

/-! ## Reading answers -/

/-- `truthy`: one row of one non-null cell that spells true. -/
def truthy (response : SqlResponse) : Bool :=
  match response.rows with
  | [[some value]] => value = lit "1" || value = lit "true" || value = lit "TRUE"
  | _ => false

/-- The checks on the row of `schema_migrations`; the result is `versionWasComplete`. -/
def readVersionState (definition : MigrationDefinition) (report : MigrationReport) :
    List SqlRow → Except MigrationReport Bool
  | [] => .ok false
  -- only the first row is looked at
  | [some name, some status] :: _ =>
      if name ≠ definition.name then
        .error (failed report [] (lit "migration version name changed"))
      else .ok (status = succeeded)
  | _ => .error (failed report [] (lit "migration version state row is invalid"))

/-- The columns of a step row that the runner keeps: `std::array<std::string, 4>`. -/
structure RecordedStep where
  checksum : Bytes
  phase : Bytes
  execution : Bytes
  status : Bytes
  deriving DecidableEq, Repr

/-- `std::map<std::string, RecordedStep>`. -/
abbrev RecordedSteps : Type := List (Bytes × RecordedStep)

/-- `std::map::emplace`: a key that is present keeps its value. -/
def RecordedSteps.emplace (steps : RecordedSteps) (id : Bytes) (step : RecordedStep) :
    RecordedSteps :=
  if (steps.lookup id).isSome then steps else steps ++ [(id, step)]

/-- `currentSteps.find`: the map was filled by `emplace`, so the first step with the id counts. -/
def currentStep (definition : MigrationDefinition) (id : Bytes) : Option MigrationStep :=
  definition.steps.find? fun step => step.id = id

/-- The recorded columns agree with the manifest's step. -/
def RecordedStep.Matches (recorded : RecordedStep) (step : MigrationStep) : Prop :=
  recorded.checksum = step.checksum ∧ recorded.phase = phaseName step.phase ∧
    recorded.execution = executionName step.execution

instance (recorded : RecordedStep) (step : MigrationStep) : Decidable (recorded.Matches step) :=
  inferInstanceAs (Decidable (_ ∧ _))

/-- The loop over the rows of `schema_migration_steps`. -/
def readRecordedSteps (definition : MigrationDefinition) (report : MigrationReport)
    (steps : RecordedSteps) : List SqlRow → Except MigrationReport RecordedSteps
  | [] => .ok steps
  | [some id, some checksum, some phase, some execution, some status] :: rows =>
      match currentStep definition id with
      | none => .error (failed report id
          (lit "recorded migration step is missing from the versioned manifest"))
      | some step =>
          if RecordedStep.Matches ⟨checksum, phase, execution, status⟩ step then
            readRecordedSteps definition report
              (steps.emplace id ⟨checksum, phase, execution, status⟩) rows
          else .error (failed report step.id (lit "recorded migration step metadata changed"))
  | _ => .error (failed report [] (lit "migration manifest row is invalid"))

/-! ## What the checks on the recorded rows establish -/

section Reads

variable {definition : MigrationDefinition} {report : MigrationReport} {id : Bytes}
  {steps result : RecordedSteps} {rows : List SqlRow} {recorded : RecordedStep}

theorem lookup_emplace (steps : RecordedSteps) (id key : Bytes) (recorded : RecordedStep) :
    (steps.emplace id recorded).lookup key =
      (steps.lookup key).or (if key = id then some recorded else none) := by
  unfold RecordedSteps.emplace
  split
  · rename_i hpresent
    by_cases hkey : key = id
    · subst hkey
      obtain ⟨existing, hexisting⟩ := Option.isSome_iff_exists.mp hpresent
      rw [hexisting]
      rfl
    · rw [if_neg hkey, Option.or_none]
  · rw [List.lookup_append]
    by_cases hkey : key = id
    · simp [hkey]
    · simp [List.lookup_cons, hkey, beq_false_of_ne hkey]

/-- The five cells of a step row. -/
def RecordedStep.row (recorded : RecordedStep) (id : Bytes) : SqlRow :=
  [some id, some recorded.checksum, some recorded.phase, some recorded.execution,
    some recorded.status]

theorem RecordedStep.row_inj {recorded recorded' : RecordedStep} {id id' : Bytes}
    (h : recorded.row id = recorded'.row id') : id = id' ∧ recorded = recorded' := by
  cases recorded
  cases recorded'
  simpa [RecordedStep.row] using h

/-- The row an answer holds for a step: the first one with its id. -/
def rowOf (id : Bytes) (rows : List SqlRow) : Option SqlRow :=
  rows.find? fun row => row.head? = some (some id)

/-- One turn of the loop over the rows that does not fail. -/
theorem readRecordedSteps_cons {row : SqlRow}
    (h : readRecordedSteps definition report steps (row :: rows) = .ok result) :
    ∃ (id : Bytes) (recorded : RecordedStep) (step : MigrationStep),
      row = recorded.row id ∧ currentStep definition id = some step ∧ recorded.Matches step ∧
      readRecordedSteps definition report (steps.emplace id recorded) rows = .ok result := by
  unfold readRecordedSteps at h
  split at h
  case h_1 hnil => cases hnil
  case h_3 => cases h
  case h_2 rowId checksum phase execution status rows' hrow =>
    obtain ⟨rfl, rfl⟩ := List.cons.inj hrow
    split at h
    · cases h
    · rename_i step hcurrent
      split at h
      · rename_i hmatches
        exact ⟨rowId, ⟨checksum, phase, execution, status⟩, step, rfl, hcurrent, hmatches, h⟩
      · cases h

/-- Every row is well formed and agrees with the manifest's step of its id. -/
theorem readRecordedSteps_matches {row : SqlRow}
    (h : readRecordedSteps definition report steps rows = .ok result) (hrow : row ∈ rows) :
    ∃ (id : Bytes) (recorded : RecordedStep) (step : MigrationStep),
      row = recorded.row id ∧ currentStep definition id = some step ∧ recorded.Matches step := by
  induction rows generalizing steps with
  | nil => cases hrow
  | cons first rows ih =>
      obtain ⟨id, recorded, step, rfl, hcurrent, hmatches, hrest⟩ := readRecordedSteps_cons h
      rcases List.mem_cons.mp hrow with rfl | hrow
      · exact ⟨id, recorded, step, rfl, hcurrent, hmatches⟩
      · exact ih hrest hrow

/-- The map that the loop fills holds for each id its first row. -/
theorem readRecordedSteps_lookup
    (h : readRecordedSteps definition report steps rows = .ok result) :
    result.lookup id = some recorded ↔
      steps.lookup id = some recorded ∨
        (steps.lookup id = none ∧ rowOf id rows = some (recorded.row id)) := by
  induction rows generalizing steps with
  | nil =>
      cases h
      simp [rowOf]
  | cons row rows ih =>
      obtain ⟨rowId, read, step, rfl, _, _, hrest⟩ := readRecordedSteps_cons h
      rw [ih hrest, lookup_emplace]
      by_cases hid : id = rowId
      · subst hid
        cases hold : steps.lookup id with
        | some existing => simp
        | none =>
          cases recorded
          cases read
          simp [rowOf, RecordedStep.row]
      · have hskip : rowOf id (read.row rowId :: rows) = rowOf id rows := by
          simp [rowOf, RecordedStep.row, Ne.symm hid]
        rw [hskip, if_neg hid, Option.or_none]

/-- No entry in the map: no row with that id was read. -/
theorem readRecordedSteps_lookup_none
    (h : readRecordedSteps definition report [] rows = .ok result)
    (hnone : result.lookup id = none) : rowOf id rows = none := by
  by_contra hsome
  obtain ⟨row, hrow⟩ := Option.ne_none_iff_exists'.mp hsome
  obtain ⟨rowId, recorded, step, rfl, _, _⟩ :=
    readRecordedSteps_matches h (List.mem_of_find?_eq_some hrow)
  have hid : rowId = id := by
    have hhead := List.find?_some hrow
    simpa [RecordedStep.row] using hhead
  subst hid
  have hlookup : result.lookup rowId = some recorded :=
    (readRecordedSteps_lookup h).mpr (Or.inr ⟨rfl, hrow⟩)
  rw [hnone] at hlookup
  cases hlookup

theorem readRecordedSteps_failed {failure : MigrationReport}
    (h : readRecordedSteps definition report steps rows = .error failure) :
    ∃ step message, failure = failed report step message := by
  induction rows generalizing steps with
  | nil => cases h
  | cons row rows ih =>
      unfold readRecordedSteps at h
      split at h
      · cases h
      · rename_i hrow
        obtain ⟨-, rfl⟩ := List.cons.inj hrow
        split at h
        · cases h
          exact ⟨_, _, rfl⟩
        · split at h
          · exact ih h
          · cases h
            exact ⟨_, _, rfl⟩
      · cases h
        exact ⟨_, _, rfl⟩

theorem readVersionState_failed {failure : MigrationReport}
    (h : readVersionState definition report rows = .error failure) :
    ∃ step message, failure = failed report step message := by
  unfold readVersionState at h
  split at h
  · cases h
  · split at h
    · cases h
      exact ⟨_, _, rfl⟩
    · cases h
  · cases h
    exact ⟨_, _, rfl⟩

/-- A version read as complete was recorded under the definition's name. -/
theorem readVersionState_complete
    (h : readVersionState definition report rows = .ok true) :
    ∃ rest, rows = [some definition.name, some succeeded] :: rest := by
  unfold readVersionState at h
  split at h
  · cases h
  · split at h
    · cases h
    · rename_i name status rest hname
      simp only [ne_eq, not_not] at hname
      simp only [Except.ok.injEq, decide_eq_true_eq] at h
      exact ⟨rest, by rw [hname, h]⟩
  · cases h

end Reads

/-! ## Statements with their error handling -/

/-- Code of the runner that may `return` from `run`. -/
abbrev Runner : Type → Type := ExceptT MigrationReport (SqlProgram MigrationStatement)

/-- `execute` and `poison` where a `return` is in reach. -/
def send (statement : MigrationStatement) : Runner SqlResult := liftM (execute statement)
def discard : Runner Unit := liftM (poison : SqlProgram MigrationStatement Unit)

/-- `MigrationLock`, with its only mutable member. -/
structure MigrationLock where
  held : Bool := false

/-- A result that is there and truthy. -/
def confirmed : SqlResult → Bool
  | .ok response => truthy response
  | .error _ => false

/-- `SELECT RELEASE_LOCK(?)`; the executor is poisoned unless the answer confirms it. -/
def sendRelease : SqlProgram MigrationStatement Bool := do
  let released ← execute .releaseLock
  if confirmed released then return true
  else do
    poison
    return false

/-- `MigrationLock::~MigrationLock` -/
def MigrationLock.destroy (lock : MigrationLock) : SqlProgram MigrationStatement Unit :=
  if !lock.held then return ()
  else do
    let _ ← sendRelease
    return ()

/-- `MigrationLock::release` -/
def MigrationLock.release (lock : MigrationLock) :
    SqlProgram MigrationStatement (Bool × MigrationLock) :=
  if !lock.held then return (true, lock)
  else do
    let released ← sendRelease
    -- `held_` is cleared whatever the answer was
    return (released, { lock with held := false })

/-- What `verifyStep` makes of the answer; the error is the text for its out parameter. -/
def verdict : SqlResult → Except Bytes Unit
  | .error e => .error (lit "verification query failed: " ++ e.message)
  | .ok verified =>
      if truthy verified then .ok ()
      else .error (lit "verification did not confirm the target state")

/-- `verifyStep` -/
def verifyStep (version : Nat) (step : MigrationStep) :
    SqlProgram MigrationStatement (Except Bytes Unit) := do
  let verified ← execute (.verify version step)
  return verdict verified

/-- `updateStepStatus` -/
def updateStepStatus (version : Nat) (step : MigrationStep) (status errorMessage : Bytes) :
    SqlProgram MigrationStatement Bool := do
  let result ← execute (.stepStatus version step status errorMessage)
  return result.isOk

/-- `updateVersionStatus` -/
def updateVersionStatus (definition : MigrationDefinition) (status errorMessage : Bytes) :
    SqlProgram MigrationStatement Bool := do
  let result ← execute
    (.versionStatus definition.version definition.name status errorMessage)
  return result.isOk

section Rules

open Program

variable {σ : Type} {E G : Environment (ExecutorCall MigrationStatement) ExecutorCall.Answer σ}
  {s : σ}

theorem wp_verifyStep {Q : Except Bytes Unit → σ → Prop} (version : Nat) (step : MigrationStep) :
    wp E G Q (verifyStep version step) s ↔
      ∀ answer s', E (.execute (.verify version step)) s answer s' →
        G (.execute (.verify version step)) s answer s' ∧ Q (verdict answer) s' := Iff.rfl

theorem verdict_eq_ok {answer : SqlResult} (h : verdict answer = .ok ()) :
    ∃ response, answer = .ok response ∧ truthy response = true := by
  cases answer with
  | error e => simp [verdict] at h
  | ok response =>
      refine ⟨response, rfl, ?_⟩
      by_contra hfalse
      simp [verdict, hfalse] at h

end Rules

/-! ## The work of one step -/

/-- The `TransactionalDml` branch; the error is `stepError`. -/
def applyTransactional (version : Nat) (step : MigrationStep) :
    SqlProgram MigrationStatement (Except Bytes Unit) := do
  match ← Transaction.begin .command with
  | .error e => return .error (lit "migration transaction could not start: " ++ e.message)
  | .ok transaction =>
      match ← execute (.apply version step) with
      | .error e => do
          let transaction ← transaction.rollback
          transaction.destroy
          return .error (lit "migration DML failed: " ++ e.message)
      | .ok _ =>
          -- the target state is verified before it is committed
          match ← verifyStep version step with
          | .error stepError => do
              let transaction ← transaction.rollback
              transaction.destroy
              return .error stepError
          | .ok () => do
              let (committed, transaction) ← transaction.commit
              transaction.destroy
              match committed with
              | .error e => return .error (lit "migration DML commit failed: " ++ e.message)
              | .ok () => return .ok ()

/-- The `AtomicDdl` branch. -/
def applyDdl (version : Nat) (step : MigrationStep) :
    SqlProgram MigrationStatement (Except Bytes Unit) := do
  match ← execute (.apply version step) with
  | .error e => return .error (lit "migration DDL failed: " ++ e.message)
  | .ok _ => verifyStep version step

/-- The three ways to carry out a step. -/
def applyStep (version : Nat) (step : MigrationStep) :
    SqlProgram MigrationStatement (Except Bytes Unit) :=
  match step.execution with
  | .transactionalDml => applyTransactional version step
  | .atomicDdl => applyDdl version step
  | .check => verifyStep version step

/-- `if (!recorded) { poison; stepError += note; }` -/
def noteUnrecorded (recorded : Bool) (stepError note : Bytes) :
    SqlProgram MigrationStatement Bytes :=
  if recorded then return stepError
  else do
    poison
    return stepError ++ note

/-- The `!applied` block: both records are attempted, and each one that fails poisons. -/
def recordFailure (definition : MigrationDefinition) (report : MigrationReport)
    (step : MigrationStep) (stepError : Bytes) :
    SqlProgram MigrationStatement MigrationReport := do
  let recorded ← updateStepStatus definition.version step failedStatus stepError
  let stepError ← noteUnrecorded recorded stepError
    (lit "; additionally failed to record the step failure state")
  let recorded ← updateVersionStatus definition failedStatus stepError
  let stepError ← noteUnrecorded recorded stepError
    (lit "; additionally failed to record the version failure state")
  return failed report step.id stepError

/-- From the RUNNING record of a step to its SUCCEEDED record. -/
def performStep (definition : MigrationDefinition) (report : MigrationReport)
    (step : MigrationStep) : Runner MigrationReport := do
  if ← updateStepStatus definition.version step running [] then
    match ← applyStep definition.version step with
    | .error stepError =>
        throw (← recordFailure definition (report.starting step) step stepError)
    | .ok () =>
        if ← updateStepStatus definition.version step succeeded [] then
          return (report.starting step).applied step.id
        else
          discard
          throw (failed (report.starting step) step.id
            (lit "successful migration step could not be recorded"))
  else
    throw (failed report step.id (lit "migration running state could not be recorded"))

/-- A step whose row says RUNNING or FAILED: verified first, carried out only if that fails. -/
def recoverStep (definition : MigrationDefinition) (report : MigrationReport)
    (step : MigrationStep) : Runner MigrationReport := do
  match ← verifyStep definition.version step with
  | .ok () =>
      if ← updateStepStatus definition.version step succeeded [] then
        return report.applied step.id
      else
        throw (failed report step.id (lit "recovered step could not be recorded"))
  -- `recoveredError` is dropped: a query that failed counts as "not there"
  | .error _ => performStep definition report step

/-- The body of the loop over the steps of a definition. -/
def runStep (definition : MigrationDefinition) (versionWasComplete : Bool)
    (recordedSteps : RecordedSteps) (report : MigrationReport) (step : MigrationStep) :
    Runner MigrationReport :=
  if step.phase = .cleanup then return report
  else
    match recordedSteps.lookup step.id with
    | some existing =>
        if versionWasComplete ∧ existing.status ≠ succeeded then
          throw (failed report step.id
            (lit "completed migration version has an incomplete step record"))
        -- nothing is verified again
        else if existing.status = succeeded then return report.alreadyComplete step.id
        else recoverStep definition report step
    | none =>
        if versionWasComplete then
          throw (failed report step.id
            (lit "completed migration version is missing a required step record"))
        else performStep definition report step

/-! ## One version, and the whole run -/

/-- The RUNNING record of a version that is not complete. -/
def startVersion (definition : MigrationDefinition) (versionWasComplete : Bool)
    (report : MigrationReport) : Runner Unit :=
  if versionWasComplete then return ()
  else do
    if ← updateVersionStatus definition running [] then return ()
    else throw (failed report [] (lit "migration version running state could not be recorded"))

/-- The SUCCEEDED record of a version that was not complete. -/
def finishVersion (definition : MigrationDefinition) (versionWasComplete : Bool)
    (report : MigrationReport) : Runner MigrationReport :=
  if versionWasComplete then
    return { report with versionsAlreadyComplete := report.versionsAlreadyComplete + 1 }
  else do
    if ← updateVersionStatus definition succeeded [] then
      return { report with versionsApplied := report.versionsApplied + 1 }
    else
      discard
      throw (failed report [] (lit "completed migration version could not be recorded"))

/-- The body of the loop over the definitions. -/
def runDefinition (report : MigrationReport) (definition : MigrationDefinition) :
    Runner MigrationReport := do
  match ← send (.versionState definition.version) with
  | .error e =>
      throw (failed report [] (lit "migration version state read failed: " ++ e.message))
  | .ok versionState =>
      let versionWasComplete ←
        ExceptT.mk (return readVersionState definition report versionState.rows)
      match ← send (.recordedSteps definition.version) with
      | .error e =>
          throw (failed report [] (lit "migration manifest state read failed: " ++ e.message))
      | .ok recorded =>
          let recordedSteps ←
            ExceptT.mk (return readRecordedSteps definition report [] recorded.rows)
          startVersion definition versionWasComplete report
          let report ← definition.steps.foldlM
            (runStep definition versionWasComplete recordedSteps) report
          finishVersion definition versionWasComplete report

/-- The body of the loop over the bootstrap steps. -/
def runBootstrapStep (report : MigrationReport) (bootstrap : MigrationBootstrapStep) :
    Runner MigrationReport :=
  if !isSingleServerStatement bootstrap.applySql || !isSingleServerStatement bootstrap.verifySql then
    throw (failed report [] (lit "migration bootstrap SQL contains multiple statements"))
  else do
    match ← send (.bootstrapApply bootstrap) with
    | .error e =>
        throw (failed report [] (lit "migration metadata table failed: " ++ e.message))
    | .ok _ =>
        match ← send (.bootstrapVerify bootstrap) with
        | .error e => throw (failed report bootstrap.id
            (lit "migration metadata verification failed: " ++ e.message))
        | .ok verified =>
            if truthy verified then return report
            else throw (failed report bootstrap.id
              (lit "migration metadata structure is incompatible"))

/-- Everything that `run` does while it holds the lock. -/
def runLocked (definitions : List MigrationDefinition)
    (bootstrapSql : List MigrationBootstrapStep) (report : MigrationReport) :
    Runner MigrationReport :=
  if bootstrapSql.isEmpty then
    throw (failed report [] (lit "migration bootstrap SQL is missing"))
  else do
    let report ← bootstrapSql.foldlM runBootstrapStep report
    -- from here on only a failure takes the status back
    definitions.foldlM runDefinition { report with status := .succeeded }

/-- `MigrationRunner::run` -/
def run (definitions : List MigrationDefinition) (bootstrapSql : List MigrationBootstrapStep)
    (lockTimeoutSeconds : Nat := 10) : SqlProgram MigrationStatement MigrationReport := do
  let report := initialReport definitions
  let lock : MigrationLock := {}
  match ← execute (.getLock lockTimeoutSeconds) with
  | .error e => do
      lock.destroy
      return failed report [] (lit "migration lock failed: " ++ e.message)
  | .ok acquired =>
      if !truthy acquired then do
        lock.destroy
        return failed report [] (lit "migration lock was not acquired")
      else do
        let lock := { lock with held := true }
        match ← (runLocked definitions bootstrapSql report).run with
        | .error report => do
            lock.destroy
            return report
        | .ok report => do
            let (released, lock) ← lock.release
            lock.destroy
            if released then
              return { report with message := lit "all required migration steps succeeded" }
            else
              return failed report []
                (lit "migration lock release failed; connection was discarded")

end Warehouse.Mysql.Migration
