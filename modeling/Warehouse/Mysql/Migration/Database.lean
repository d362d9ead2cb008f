/-
# Warehouse.Mysql.Migration.Database — the server that the runner talks to

The two metadata tables with the meaning of the two upserts, one counter for each step that says
how often its effect is there, and sessions whose transactions are lists of changes that nobody
else sees before the COMMIT.  Only the runner's own statements change anything: bootstrap SQL
creates tables, verify SQL reads, and the apply SQL of a step moves that step's counter.

A statement that the server answers with an error may have been executed all the same, or may have
cost the session its transaction.  Reads that are answered are truthful; whether the verify SQL
also tells the truth about the effect is the parameter `exact`.
-/
import Warehouse.Interaction.Exclusive
import Warehouse.Mysql.Migration.Runner

namespace Warehouse.Mysql.Migration

open Warehouse.Interaction

/-! ## Tables -/

/-- A row of `schema_migrations`, without its key. -/
structure VersionRow where
  name : Bytes
  status : Bytes
  startedAt : ℕ
  finishedAt : Option ℕ
  errorMessage : Bytes
  deriving DecidableEq, Repr

/-- A row of `schema_migration_steps`, without its key. -/
structure StepRow extends RecordedStep where
  startedAt : ℕ
  finishedAt : Option ℕ
  errorMessage : Bytes
  deriving DecidableEq, Repr

/-- The key of a step row, which also names the step's effect. -/
abbrev Address : Type := ℕ × Bytes

/-- What is durable. -/
structure Tables where
  versions : ℕ → Option VersionRow := fun _ => none
  steps : Address → Option StepRow := fun _ => none
  effects : Address → ℕ := fun _ => 0

/-- `CASE WHEN status='SUCCEEDED' THEN UTC_TIMESTAMP() ELSE NULL END` -/
def finishTime (now : ℕ) (status : Bytes) : Option ℕ := if status = succeeded then some now else none

/-- `CASE WHEN VALUES(status)='RUNNING' THEN UTC_TIMESTAMP() ELSE started_at END` -/
def startTime (now : ℕ) (status : Bytes) (startedAt : ℕ) : ℕ :=
  if status = running then now else startedAt

/-- The upsert of `updateVersionStatus`: a row that exists is overwritten. -/
def upsertVersion (now : ℕ) (name status errorMessage : Bytes) (row : Option VersionRow) :
    VersionRow where
  name := name
  status := status
  startedAt := (row.map fun r => startTime now status r.startedAt).getD now
  finishedAt := finishTime now status
  errorMessage := errorMessage

/-- The upsert of `updateStepStatus`: a row that exists keeps its checksum, phase and execution. -/
def upsertStep (now : ℕ) (step : MigrationStep) (status errorMessage : Bytes)
    (row : Option StepRow) : StepRow where
  checksum := (row.map fun r => r.checksum).getD step.checksum
  phase := (row.map fun r => r.phase).getD (phaseName step.phase)
  execution := (row.map fun r => r.execution).getD (executionName step.execution)
  status := status
  startedAt := (row.map fun r => startTime now status r.startedAt).getD now
  finishedAt := finishTime now status
  errorMessage := errorMessage

/-- What the runner's statements can change. -/
inductive Change
  | version (now version : ℕ) (name status errorMessage : Bytes)
  | step (now version : ℕ) (step : MigrationStep) (status errorMessage : Bytes)
  | effect (address : Address)

/-- The tables after a change. -/
def Tables.change (t : Tables) : Change → Tables
  | .version now version name status errorMessage =>
      let row := upsertVersion now name status errorMessage (t.versions version)
      { t with versions := Function.update t.versions version (some row) }
  | .step now version step status errorMessage =>
      let row := upsertStep now step status errorMessage (t.steps (version, step.id))
      { t with steps := Function.update t.steps (version, step.id) (some row) }
  | .effect address =>
      { t with effects := Function.update t.effects address (t.effects address + 1) }

/-! ## Sessions -/

/-- The open transaction of a session, with the changes made in it. -/
abbrev Session : Type := Option (List Change)

/-- What a session sees: the tables with its own changes, which is also what it would commit. -/
def seen (c : Tables × Session) : Tables := (c.2.getD []).foldl Tables.change c.1

/-- A change is part of the open transaction, or durable at once. -/
def record (x : Change) : Tables × Session → Tables × Session
  | (t, none) => (t.change x, none)
  | (t, some changes) => (t, some (changes ++ [x]))

/-- The transaction-control statements; opening a transaction commits the one before it. -/
def controls (statement : TxControl) (c : Tables × Session) : Tables × Session :=
  match statement with
  | .setIsolation _ => c
  | .start _ => (seen c, some [])
  | .commit => (seen c, none)
  | .rollback => (c.1, none)

/-- The runner's own statements; data definition commits whatever is open. -/
def performs (now : ℕ) (statement : MigrationStatement) (c : Tables × Session) :
    Tables × Session :=
  match statement with
  | .versionStatus version name status errorMessage =>
      record (.version now version name status errorMessage) c
  | .stepStatus version step status errorMessage =>
      record (.step now version step status errorMessage) c
  | .apply version step =>
      match step.execution with
      | .check => c
      | .transactionalDml => record (.effect (version, step.id)) c
      | .atomicDdl => ((seen c).change (.effect (version, step.id)), none)
  | .bootstrapApply _ => (seen c, none)
  | .getLock _ | .releaseLock | .bootstrapVerify _ | .versionState _ | .recordedSteps _
  | .verify .. => c

/-- Any call of the runner, executed. -/
def executes (now : ℕ) (call : ExecutorCall MigrationStatement) (c : Tables × Session) :
    Tables × Session :=
  match call with
  | .control statement => controls statement c
  | .execute statement => performs now statement c
  | .poison => c

/-! ## What a call can do -/

/-- The change that a call makes. -/
inductive Makes (now : ℕ) : ExecutorCall MigrationStatement → Change → Prop
  | version {version : ℕ} {name status errorMessage : Bytes} :
      Makes now (.execute (.versionStatus version name status errorMessage))
        (.version now version name status errorMessage)
  | step {version : ℕ} {step : MigrationStep} {status errorMessage : Bytes} :
      Makes now (.execute (.stepStatus version step status errorMessage))
        (.step now version step status errorMessage)
  | effect {version : ℕ} {step : MigrationStep} :
      Makes now (.execute (.apply version step)) (.effect (version, step.id))

/-- What becomes of the tables and the open transaction. -/
inductive Moves (now : ℕ) (call : ExecutorCall MigrationStatement) (c : Tables × Session) :
    Tables × Session → Prop
  | same : Moves now call c c
  | started : Moves now call c (seen c, some [])
  | closed : Moves now call c (seen c, none)
  | dropped : Moves now call c (c.1, none)
  | recorded {x : Change} : Makes now call x → Moves now call c (record x c)
  | durable {x : Change} : Makes now call x → Moves now call c ((seen c).change x, none)

/-- The tables satisfy `J`, and the changes of the open transaction `P`. -/
structure Guarded (J : Tables → Prop) (P : Change → Prop) (c : Tables × Session) : Prop where
  tables : J c.1
  pending : ∀ x ∈ c.2.getD [], P x

section Moves

variable {now : ℕ} {call : ExecutorCall MigrationStatement} {c : Tables × Session} {t : Tables}
  {x : Change} {J : Tables → Prop} {P : Change → Prop}

theorem moves_executes (now : ℕ) (call : ExecutorCall MigrationStatement) (c : Tables × Session) :
    Moves now call c (executes now call c) := by
  cases call with
  | poison => exact .same
  | control statement =>
      cases statement with
      | setIsolation => exact .same
      | start => exact .started
      | commit => exact .closed
      | rollback => exact .dropped
  | execute statement =>
      cases statement with
      | versionStatus => exact .recorded .version
      | stepStatus => exact .recorded .step
      | apply version step =>
          cases hexec : step.execution <;> simp only [executes, performs, hexec]
          · exact .same
          · exact .durable .effect
          · exact .recorded .effect
      | bootstrapApply => exact .closed
      | _ => exact .same

/-- A transaction that is dropped leaves the tables as they are. -/
theorem Guarded.dropped (h : Guarded J P c) : Guarded J P (c.1, none) :=
  ⟨h.tables, by simp⟩

variable (hchange : ∀ t x, P x → J t → J (t.change x))
include hchange

/-- What one change keeps, the changes of a transaction keep. -/
theorem changes_keep {changes : List Change} (hchanges : ∀ x ∈ changes, P x) (h : J t) :
    J (changes.foldl Tables.change t) := by
  induction changes generalizing t with
  | nil => exact h
  | cons x changes ih =>
      have hfirst : J (t.change x) := hchange t x (hchanges x List.mem_cons_self) h
      exact ih (fun y hy => hchanges y (List.mem_cons_of_mem x hy)) hfirst

theorem Guarded.seen (h : Guarded J P c) : J (Migration.seen c) :=
  changes_keep hchange h.pending h.tables

theorem Guarded.record (h : Guarded J P c) (hx : P x) : Guarded J P (record x c) := by
  obtain ⟨t, _ | changes⟩ := c
  · exact ⟨hchange t x hx h.tables, by simp [Migration.record]⟩
  · refine ⟨h.tables, ?_⟩
    intro y hy
    rcases List.mem_append.mp hy with hold | hnew
    · exact h.pending y hold
    · rw [List.mem_singleton.mp hnew]
      exact hx

/-- A call keeps `J`, if its change is one of those that do. -/
theorem Guarded.moves {c' : Tables × Session} (h : Guarded J P c)
    (hmakes : ∀ x, Makes now call x → P x) (hmoves : Moves now call c c') : Guarded J P c' := by
  cases hmoves with
  | same => exact h
  | started => exact ⟨h.seen hchange, by simp⟩
  | closed => exact ⟨h.seen hchange, by simp⟩
  | dropped => exact h.dropped
  | recorded hmade => exact h.record hchange (hmakes _ hmade)
  | durable hmade => exact ⟨hchange _ _ (hmakes _ hmade) (h.seen hchange), by simp⟩

theorem Guarded.executes (h : Guarded J P c) (hmakes : ∀ x, Makes now call x → P x) :
    Guarded J P (executes now call c) :=
  h.moves hchange hmakes (moves_executes now call c)

end Moves

/-! ## Answers -/

/-- The verify SQL of a step that has an effect. -/
def IsVerify (call : ExecutorCall MigrationStatement) : Prop :=
  ∃ version step, call = .execute (.verify version step) ∧ step.execution ≠ .check

/-- What an answer says about the tables that the session sees.  Keys are compared exactly. -/
def Truthful (exact : Prop) (t : Tables) (call : ExecutorCall MigrationStatement)
    (response : SqlResponse) : Prop :=
  match call with
  | .execute (.versionState version) =>
      response.rows = ((t.versions version).map fun row => [some row.name, some row.status]).toList
  | .execute (.recordedSteps version) =>
      ∀ r, r ∈ response.rows ↔ ∃ id row, t.steps (version, id) = some row ∧
        r = row.toRecordedStep.row id
  | .execute (.verify version step) =>
      exact → step.execution ≠ .check →
        (truthy response = true ↔ t.effects (version, step.id) ≠ 0)
  | _ => True

/-- A call that reaches the server, with the answer to it. -/
def Answered (exact : Prop) (call : ExecutorCall MigrationStatement) (c : Tables × Session)
    (answer : SqlResult) (c' : Tables × Session) : Prop :=
  match answer with
  | .ok response => (∃ now, c' = executes now call c) ∧ Truthful exact (seen c) call response
  | .error _ => ¬ (exact ∧ IsVerify call) ∧
      (c' = c ∨ (∃ now, c' = executes now call c) ∨ c' = (c.1, none))

/-- The server as the runner depends on it. -/
def migrationServer (exact : Prop) :
    Server (ExecutorCall MigrationStatement) ExecutorCall.Answer Tables Session where
  role
    | .execute (.getLock _) => .acquire
    | .execute .releaseLock => .release
    | .poison => .hangUp
    | _ => .work
  idle := none
  serve
    | .poison, _, _, _ => False
    | .control statement, c, answer, c' => Answered exact (.control statement) c answer c'
    | .execute statement, c, answer, c' => Answered exact (.execute statement) c answer c'
  execute call c c' := ∃ now, c' = executes now call c
  refused
    | .poison, _ => False
    | .control _, answer => ∃ e : SqlError, answer = .error e
    | .execute _, answer => ∃ e : SqlError, answer = .error e
  granted
    | .execute (.getLock _), answer => confirmed answer = true
    | _, _ => False
  refusable call hrole := by
    cases call with
    | control _ => exact ⟨.error {}, {}, rfl⟩
    | execute _ => exact ⟨.error {}, {}, rfl⟩
    | poison => exact absurd rfl hrole
  served call c c' := by
    rintro ⟨now, rfl⟩
    by_cases hverify : IsVerify call
    · obtain ⟨version, step, rfl, _⟩ := hverify
      exact Or.inl rfl
    cases call with
    | control _ => exact Or.inr ⟨.error {}, fun h => hverify h.2, Or.inr (Or.inl ⟨now, rfl⟩)⟩
    | execute _ => exact Or.inr ⟨.error {}, fun h => hverify h.2, Or.inr (Or.inl ⟨now, rfl⟩)⟩
    | poison => exact Or.inl rfl

end Warehouse.Mysql.Migration
