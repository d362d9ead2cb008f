/-
# Warehouse.Mysql.SessionDiscipline — how the clients of the pool use their sessions

Three kinds of code hold a connection of the pool: units of work, the startup check and the
migration runner.  All of them open and end server transactions only through `Transaction`, and all
of them keep to one protocol: a transaction that was started is ended by exactly one COMMIT or
ROLLBACK, before the next one is started and before the connection is given back, and the executor
is poisoned as soon as one of the four control statements fails.
-/
import Mathlib.Data.List.Induction
import Warehouse.Bootstrap.LegacyStartup
import Warehouse.Interaction.Monitor
import Warehouse.Mysql.Migration.Gate

namespace Warehouse.Mysql

open Warehouse.Interaction Warehouse.Interaction.Program

/-! ## The protocol -/

/-- Where a client is in the protocol: no transaction is started, one is, or a control statement
has failed and the executor has to be poisoned. -/
inductive SessionPhase
  | closed | started | owing
  deriving DecidableEq, Repr

/-- A control statement leads on if it succeeds. -/
def settle (next : SessionPhase) : SqlResult → SessionPhase
  | .ok _ => next
  | .error _ => .owing

section Protocol

variable {St : Type}

/-- The protocol. -/
def discipline : Monitor (ExecutorCall St) ExecutorCall.Answer SessionPhase
  | .owing, ⟨.poison, _⟩ => some .closed
  | .owing, _ => none
  | phase, ⟨.poison, _⟩ => some phase
  | phase, ⟨.execute _, _⟩ => some phase
  | .closed, ⟨.control (.setIsolation _), answer⟩ => some (settle .closed answer)
  | .closed, ⟨.control (.start _), answer⟩ => some (settle .started answer)
  | .started, ⟨.control .commit, answer⟩ => some (settle .closed answer)
  | .started, ⟨.control .rollback, answer⟩ => some (settle .closed answer)
  | _, ⟨.control _, _⟩ => none

/-- The events of a client that kept to the protocol from the lease to its return. -/
def Orderly (events : SqlHistory St) : Prop := discipline.after .closed events = some .closed

/-- The call is one of the control statements. -/
def ExecutorCall.isControl : ExecutorCall St → Bool
  | .control _ => true
  | .execute _ | .poison => false

/-- The call ends a transaction. -/
def ExecutorCall.ends : ExecutorCall St → Bool
  | .control .commit | .control .rollback => true
  | _ => false

/-- The event is a START TRANSACTION that succeeded. -/
def starts : Event (ExecutorCall St) ExecutorCall.Answer → Bool
  | ⟨.control (.start _), .ok _⟩ => true
  | _ => false

variable {events past future : SqlHistory St} {phase : SessionPhase}
  {event : Event (ExecutorCall St) ExecutorCall.Answer}

/-- What is started is ended, with no control statement in between. -/
theorem started_ends (h : discipline.after .started events = some .closed) :
    ∃ body ending rest, events = body ++ ending :: rest ∧
      (∀ event ∈ body, event.1.isControl = false) ∧ ending.1.ends = true := by
  induction events with
  | nil => cases h
  | cons event events ih =>
      obtain ⟨op, answer⟩ := event
      rw [Monitor.after_cons] at h
      obtain ⟨next, hnext, hrest⟩ := Option.bind_eq_some_iff.mp h
      cases op with
      | control statement =>
          refine ⟨[], _, events, rfl, by simp, ?_⟩
          cases statement <;> first | rfl | cases hnext
      | execute statement =>
          cases hnext
          obtain ⟨body, ending, rest, rfl, hbody, hending⟩ := ih hrest
          refine ⟨_ :: body, ending, rest, rfl, ?_, hending⟩
          rintro event (_ | ⟨_, hevent⟩)
          · rfl
          · exact hbody event hevent
      | poison =>
          cases hnext
          obtain ⟨body, ending, rest, rfl, hbody, hending⟩ := ih hrest
          refine ⟨_ :: body, ending, rest, rfl, ?_, hending⟩
          rintro event (_ | ⟨_, hevent⟩)
          · rfl
          · exact hbody event hevent

/-- A transaction is running only behind a START that no control statement has followed. -/
theorem started_behind (h : discipline.after .closed events = some .started) :
    ∃ before start body, events = before ++ start :: body ∧ starts start = true ∧
      ∀ event ∈ body, event.1.isControl = false := by
  induction events using List.reverseRecOn with
  | nil => cases h
  | append_singleton events event ih =>
      obtain ⟨op, answer⟩ := event
      obtain ⟨phase, behind, hbefore, hevent, hlast⟩ := Monitor.after_split h
      cases hlast
      have hstep : op.isControl = false → phase = .started → ∃ before start body,
          events ++ [⟨op, answer⟩] = before ++ start :: body ∧ starts start = true ∧
            ∀ event ∈ body, event.1.isControl = false := by
        rintro hop rfl
        obtain ⟨before, start, body, rfl, hstart, hbody⟩ := ih hbefore
        refine ⟨before, start, body ++ [⟨op, answer⟩], by simp, hstart, ?_⟩
        intro event hmem
        rcases List.mem_append.mp hmem with hmem | hmem
        · exact hbody event hmem
        · rw [List.mem_singleton.mp hmem]
          exact hop
      cases op with
      | execute statement =>
          refine hstep rfl ?_
          cases phase <;> cases hevent
          rfl
      | poison =>
          refine hstep rfl ?_
          cases phase <;> cases hevent
          rfl
      | control statement =>
          refine ⟨events, ⟨.control statement, answer⟩, [], rfl, ?_, by simp⟩
          cases phase <;> cases statement <;> cases answer <;> first | rfl | cases hevent

/-- A started transaction is ended exactly once: by the first control statement after its START. -/
theorem Orderly.ends (h : Orderly (past ++ event :: future)) (hstart : starts event = true) :
    ∃ body ending rest, future = body ++ ending :: rest ∧
      (∀ event ∈ body, event.1.isControl = false) ∧ ending.1.ends = true := by
  obtain ⟨phase, behind, _, hevent, hfuture⟩ := Monitor.after_split h
  have hbehind : behind = .started := by
    obtain ⟨op, answer⟩ := event
    cases op with
    | execute statement => cases hstart
    | poison => cases hstart
    | control statement =>
        cases phase <;> cases statement <;> cases answer <;> cases hevent <;>
          first | rfl | cases hstart
  exact started_ends (hbehind ▸ hfuture)

/-- Every COMMIT and every ROLLBACK is the end of a transaction: a START that succeeded comes before
it, with no control statement in between. -/
theorem Orderly.started (h : Orderly (past ++ event :: future)) (hends : event.1.ends = true) :
    ∃ before start body, past = before ++ start :: body ∧ starts start = true ∧
      ∀ event ∈ body, event.1.isControl = false := by
  obtain ⟨phase, behind, hpast, hevent, _⟩ := Monitor.after_split h
  have hphase : phase = .started := by
    obtain ⟨op, answer⟩ := event
    cases op with
    | execute statement => cases hends
    | poison => cases hends
    | control statement =>
        cases phase <;> cases statement <;>
          first | rfl | (cases hevent; done) | cases hends
  exact started_behind (hphase ▸ hpast)

/-- A control statement that fails is followed by the poisoning of the executor, at once. -/
theorem Orderly.poisons {statement : TxControl} {e : SqlError}
    (h : Orderly (past ++ ⟨.control statement, .error e⟩ :: future)) :
    ∃ rest, future = ⟨.poison, ()⟩ :: rest := by
  obtain ⟨phase, behind, _, hevent, hfuture⟩ := Monitor.after_split h
  have hbehind : behind = .owing := by
    cases phase <;> cases statement <;> cases hevent <;> rfl
  subst hbehind
  cases future with
  | nil => cases hfuture
  | cons next rest =>
      obtain ⟨op, answer⟩ := next
      obtain ⟨_, hnext, _⟩ := Option.bind_eq_some_iff.mp hfuture
      cases op with
      | poison => exact ⟨rest, rfl⟩
      | execute statement => cases hnext
      | control statement => cases hnext

end Protocol

/-! ## Transactions -/

section Transactions

variable {St α : Type}

/-- What a `Transaction` object stands for. -/
def Transaction.phase (t : Transaction) : SessionPhase :=
  if t.active && t.attached then .started else .closed

/-- Code that keeps to the protocol and ends in a phase that its result determines. -/
abbrev Keeps (p : SqlProgram St α) (phase : SessionPhase) (exit : α → SessionPhase) : Prop :=
  p.follows discipline (fun a s => s = exit a) phase

theorem discipline_execute {phase : SessionPhase} (hphase : phase ≠ .owing) (statement : St)
    (answer : SqlResult) :
    discipline phase (⟨.execute statement, answer⟩ : Event (ExecutorCall St) ExecutorCall.Answer) =
      some phase := by
  cases phase <;> first | rfl | exact absurd rfl hphase

theorem Transaction.phase_ne_owing (t : Transaction) : t.phase ≠ .owing := by
  unfold phase
  split <;> simp

theorem phase_of_active {t : Transaction} (h : ¬ (!t.active || !t.attached) = true) :
    t.phase = .started := by
  unfold Transaction.phase
  rw [if_pos]
  simpa using h

theorem keeps_rollback (t : Transaction) :
    Keeps (t.rollback : SqlProgram St Transaction) t.phase Transaction.phase := by
  unfold Transaction.rollback
  split
  · exact rfl
  · rename_i hactive
    rw [phase_of_active hactive]
    intro answer
    refine ⟨settle .closed answer, rfl, ?_⟩
    rcases answer with e | response
    · exact fun _ => ⟨.closed, rfl, rfl⟩
    · exact rfl

theorem rollback_inactive (t : Transaction) :
    (t.rollback : SqlProgram St Transaction).Returns fun t' => t'.phase = .closed := by
  unfold Transaction.rollback
  split
  · rename_i hinactive
    change t.phase = .closed
    unfold Transaction.phase
    rw [if_neg]
    intro hactive
    rw [Bool.and_eq_true] at hactive
    simp [hactive.1, hactive.2] at hinactive
  · intro answer
    rcases answer with e | response
    · exact fun _ => rfl
    · exact rfl

theorem keeps_destroy (t : Transaction) :
    Keeps (t.destroy : SqlProgram St Unit) t.phase fun _ => .closed := by
  unfold Transaction.destroy
  refine follows_bind (p := t.rollback) (follows_mono (follows_returns (rollback_inactive t)
    (keeps_rollback t)) ?_)
  rintro t' phase ⟨hclosed, rfl⟩
  exact hclosed

theorem keeps_commit (t : Transaction) :
    Keeps (t.commit : SqlProgram St (Except WorkUnitFailure Unit × Transaction)) t.phase
      fun r => r.2.phase := by
  unfold Transaction.commit
  split
  · exact rfl
  · rename_i hactive
    rw [phase_of_active hactive]
    intro answer
    refine ⟨settle .closed answer, rfl, ?_⟩
    rcases answer with e | response
    · exact fun _ => ⟨.closed, rfl, rfl⟩
    · exact rfl

/-- The phase after `Transaction::begin`. -/
def begunPhase : Except WorkUnitFailure Transaction → SessionPhase
  | .ok t => t.phase
  | .error _ => .closed

theorem keeps_begin (mode : WorkUnitMode) :
    Keeps (Transaction.begin mode : SqlProgram St (Except WorkUnitFailure Transaction)) .closed
      begunPhase := by
  intro answer
  refine ⟨settle .closed answer, rfl, ?_⟩
  rcases answer with e | response
  · exact fun _ => ⟨.closed, rfl, rfl⟩
  · intro answer
    refine ⟨settle .started answer, rfl, ?_⟩
    rcases answer with e | response
    · exact fun _ => ⟨.closed, rfl, rfl⟩
    · exact rfl

end Transactions

/-! ## Units of work -/

section Units

variable {α : Type} {t : Transaction}

/-- Code without control statements leaves the phase alone, unless a poisoning is due. -/
theorem keeps_of_emits {St : Type} {p : SqlProgram St α} {phase : SessionPhase}
    (hphase : phase ≠ .owing) (hemits : p.Emits fun op => op.isControl = false) :
    Keeps p phase fun _ => phase := by
  refine follows_of_emits hemits ?_ fun _ => rfl
  intro op answer hop
  cases op with
  | control statement => cases hop
  | execute statement => exact discipline_execute hphase statement answer
  | poison => cases phase <;> first | rfl | exact absurd rfl hphase

theorem keeps_performUnit (call : UnitCall) :
    Keeps (performUnit call t) t.phase fun answered => answered.2.phase := by
  cases call with
  | repository call =>
      refine follows_bind (p := performRepository call) (follows_mono
        (keeps_of_emits t.phase_ne_owing (emits_performRepository fun _ _ => rfl)) ?_)
      rintro answer phase rfl
      exact rfl
  | commit => exact keeps_commit t
  | rollback =>
      refine follows_bind (p := t.rollback) (follows_mono (keeps_rollback t) ?_)
      rintro t' phase rfl
      exact rfl

/-- Any use of a unit of work: by induction on the calls that are made on it. -/
theorem keeps_interpret (use : Program UnitCall UnitCall.Answer α) :
    Keeps (use.interpret performUnit t) t.phase fun answered => answered.2.phase := by
  induction use generalizing t with
  | ret a => exact rfl
  | call call next ih =>
      refine follows_bind (p := performUnit call t) (follows_mono (keeps_performUnit call) ?_)
      rintro ⟨answer, t'⟩ phase rfl
      exact ih answer

theorem keeps_unitClient (lease : Except SqlError Unit) (mode : WorkUnitMode)
    (use : Program UnitCall UnitCall.Answer α) :
    Keeps (unitClient lease mode use) .closed fun _ => .closed := by
  rcases lease with e | _
  · exact rfl
  · refine follows_bind (p := beginUnitOfWork (.ok ()) mode) (follows_bind
      (p := Transaction.begin mode) (follows_mono (keeps_begin mode) ?_))
    rintro (f | t) phase rfl
    · exact rfl
    · refine follows_bind (p := use.interpret performUnit t) (follows_mono (keeps_interpret use) ?_)
      rintro ⟨result, t'⟩ phase rfl
      refine follows_bind (p := t'.destroy) (follows_mono (keeps_destroy t') ?_)
      rintro _ phase rfl
      exact rfl

end Units

/-! ## The startup check -/

section Startup

open Warehouse.Bootstrap

variable {α : Type} {sodium : Sodium} {configuration : LegacyStartupConfiguration}
  {t : Transaction}

/-- Code of the check: the phase is that of the transaction, and if it leaves early, of the
transaction that it leaves. -/
abbrev KeepsCheck (t : Transaction) (check : Check α) : Prop :=
  followsx discipline (fun _ phase => phase = t.phase)
    (fun e phase => phase = Transaction.phase e.2) check t.phase

theorem keeps_refuse (code message : Bytes) : KeepsCheck t (refuse t code message : Check α) := by
  refine followsx_bind (p := liftM (t.rollback : SqlProgram StartupStatement Transaction))
    (followsx_lift (follows_mono (keeps_rollback t) ?_))
  rintro t' phase rfl
  exact rfl

/-- A statement of the check, whatever its answer. -/
theorem keeps_sendStatement {statement : StartupStatement} {next : SqlResult → Check α}
    (hnext : ∀ answer, KeepsCheck t (next answer)) :
    KeepsCheck t (sendStatement statement >>= next) := by
  refine followsx_bind (p := sendStatement statement) (followsx_lift ?_)
  intro answer
  exact ⟨t.phase, discipline_execute t.phase_ne_owing statement answer, hnext answer⟩

theorem keeps_migratePassword (calls userId : ℕ) (stored : Bytes) :
    KeepsCheck t (migratePassword sodium configuration t calls userId stored) := by
  unfold migratePassword
  split
  · exact keeps_refuse _ _
  · split
    · exact keeps_refuse _ _
    · refine keeps_sendStatement ?_
      rintro (e | updated)
      · exact keeps_refuse _ _
      · dsimp only
        split
        · exact keeps_refuse _ _
        · exact rfl

theorem keeps_checkRow (calls : ℕ) (row : SqlRow) :
    KeepsCheck t (checkRow sodium configuration t calls row) := by
  unfold checkRow
  split
  · split
    · exact keeps_refuse _ _
    · split
      · exact keeps_refuse _ _
      · exact keeps_migratePassword _ _ _
      · exact rfl
  · exact keeps_refuse _ _

theorem keeps_createInitialAdministrator (calls : ℕ) :
    KeepsCheck t (createInitialAdministrator sodium configuration t calls) := by
  unfold createInitialAdministrator
  split
  · dsimp only
    split
    · exact keeps_refuse _ _
    · split
      · exact keeps_refuse _ _
      · refine keeps_sendStatement ?_
        rintro (e | response)
        · exact keeps_refuse _ _
        · exact rfl
  · exact keeps_refuse _ _

theorem keeps_checkUsers : KeepsCheck t (checkUsers sodium configuration t) := by
  refine keeps_sendStatement ?_
  rintro (e | passwords)
  · exact keeps_refuse _ _
  refine followsx_bind (p := passwords.rows.foldlM (checkRow sodium configuration t) 0) ?_
  refine followsx_mono (followsx_foldlM (fun _ phase => phase = t.phase) ?_ rfl) ?_
  · rintro calls row phase rfl
    exact keeps_checkRow calls row
  rintro calls phase rfl
  refine keeps_sendStatement ?_
  rintro (e | adminCount)
  · exact keeps_refuse _ _
  · change KeepsCheck t (checkAdministrators sodium configuration t calls adminCount)
    unfold checkAdministrators
    split
    · exact keeps_refuse _ _
    · split
      · exact keeps_createInitialAdministrator calls
      · exact rfl

theorem keeps_runLegacyStartupChecks (lease : Except SqlError Unit) :
    Keeps (runLegacyStartupChecks sodium configuration lease) .closed fun _ => .closed := by
  rcases lease with e | _
  · exact rfl
  · refine follows_bind (p := Transaction.begin .command) (follows_mono (keeps_begin .command) ?_)
    rintro (f | t) phase rfl
    · exact rfl
    · refine follows_bind (p := (checkUsers sodium configuration t).run)
        (follows_mono keeps_checkUsers ?_)
      rintro (⟨f, t'⟩ | _) phase hphase
      · obtain rfl : phase = t'.phase := hphase
        refine follows_bind (p := t'.destroy) (follows_mono (keeps_destroy t') ?_)
        rintro _ phase rfl
        exact rfl
      · obtain rfl : phase = t.phase := hphase
        refine follows_bind (p := t.commit) (follows_mono (keeps_commit t) ?_)
        rintro ⟨committed, t'⟩ phase rfl
        refine follows_bind (p := t'.destroy) (follows_mono (keeps_destroy t') ?_)
        rintro _ phase rfl
        rcases committed with f | _ <;> exact rfl

end Startup

/-! ## The migration runner -/

section Runner

open Warehouse.Mysql.Migration

variable {α : Type} {version : ℕ} {step : MigrationStep} {definition : MigrationDefinition}
  {report : MigrationReport}

/-- Code that comes back to where no transaction is started. -/
abbrev KeepsClosed (p : SqlProgram MigrationStatement α) : Prop := Keeps p .closed fun _ => .closed

/-- The same for code of the runner that may `return` from `run`. -/
abbrev KeepsRun (p : Runner α) : Prop :=
  followsx discipline (fun _ phase => phase = .closed) (fun _ phase => phase = .closed) p .closed

theorem keepsClosed_bind {β : Type} {p : SqlProgram MigrationStatement α}
    {f : α → SqlProgram MigrationStatement β} (hp : KeepsClosed p) (hf : ∀ a, KeepsClosed (f a)) :
    KeepsClosed (p >>= f) := by
  refine follows_bind (follows_mono hp ?_)
  rintro a phase rfl
  exact hf a

theorem keepsRun_bind {β : Type} {p : Runner α} {f : α → Runner β} (hp : KeepsRun p)
    (hf : ∀ a, KeepsRun (f a)) : KeepsRun (p >>= f) := by
  refine followsx_bind (followsx_mono hp ?_)
  rintro a phase rfl
  exact hf a

theorem keepsRun_lift {p : SqlProgram MigrationStatement α} (hp : KeepsClosed p) :
    KeepsRun (liftM p : Runner α) := followsx_lift hp

theorem keepsRun_ret (a : α) : KeepsRun (pure a : Runner α) := rfl

theorem keepsRun_throw (report : MigrationReport) : KeepsRun (throw report : Runner α) := rfl

theorem keepsClosed_execute (statement : MigrationStatement) : KeepsClosed (execute statement) :=
  fun _ => ⟨.closed, rfl, rfl⟩

theorem keepsClosed_poison : KeepsClosed (poison : SqlProgram MigrationStatement Unit) :=
  fun _ => ⟨.closed, rfl, rfl⟩

theorem keeps_verifyStep : KeepsClosed (verifyStep version step) := fun _ => ⟨.closed, rfl, rfl⟩

theorem keeps_updateStepStatus (status errorMessage : Bytes) :
    KeepsClosed (updateStepStatus version step status errorMessage) :=
  fun _ => ⟨.closed, rfl, rfl⟩

theorem keeps_updateVersionStatus (status errorMessage : Bytes) :
    KeepsClosed (updateVersionStatus definition status errorMessage) :=
  fun _ => ⟨.closed, rfl, rfl⟩

/-- Inside a transaction, a verification leaves the phase as it is. -/
theorem follows_verifyStep (t : Transaction) {Q : Except Bytes Unit → SessionPhase → Prop}
    (hQ : ∀ answer, Q (verdict answer) t.phase) :
    follows discipline Q (verifyStep version step) t.phase :=
  fun answer => ⟨t.phase, discipline_execute t.phase_ne_owing _ answer, hQ answer⟩

/-- Giving up a transaction of a step. -/
theorem keeps_giveUp (t : Transaction) (result : α) :
    Keeps (do
      let transaction ← t.rollback
      transaction.destroy
      return result : SqlProgram MigrationStatement α) t.phase fun _ => .closed := by
  refine follows_bind (p := t.rollback) (follows_mono (keeps_rollback t) ?_)
  rintro t' phase rfl
  refine follows_bind (p := t'.destroy) (follows_mono (keeps_destroy t') ?_)
  rintro _ phase rfl
  exact rfl

theorem keeps_applyTransactional : KeepsClosed (applyTransactional version step) := by
  refine follows_bind (p := Transaction.begin .command) (follows_mono (keeps_begin .command) ?_)
  rintro (f | t) phase rfl
  · exact rfl
  intro answer
  refine ⟨t.phase, discipline_execute t.phase_ne_owing _ answer, ?_⟩
  rcases answer with e | response
  · exact keeps_giveUp t _
  refine follows_bind (p := verifyStep version step) (follows_verifyStep t fun answer => ?_)
  cases verdict answer with
  | error stepError => exact keeps_giveUp t _
  | ok _ =>
      refine follows_bind (p := t.commit) (follows_mono (keeps_commit t) ?_)
      rintro ⟨committed, t'⟩ phase rfl
      refine follows_bind (p := t'.destroy) (follows_mono (keeps_destroy t') ?_)
      rintro _ phase rfl
      rcases committed with f | _ <;> exact rfl

theorem keeps_applyStep : KeepsClosed (applyStep version step) := by
  unfold applyStep
  cases step.execution with
  | transactionalDml => exact keeps_applyTransactional
  | atomicDdl =>
      refine keepsClosed_bind (keepsClosed_execute _) ?_
      rintro (e | response)
      · exact rfl
      · exact keeps_verifyStep
  | check => exact keeps_verifyStep

theorem keeps_recordFailure (stepError : Bytes) :
    KeepsClosed (recordFailure definition report step stepError) := by
  have hnote : ∀ recorded e note, KeepsClosed (noteUnrecorded recorded e note) := by
    intro recorded e note
    unfold noteUnrecorded
    split
    · exact rfl
    · exact keepsClosed_bind keepsClosed_poison fun _ => rfl
  refine keepsClosed_bind (keeps_updateStepStatus _ _) fun recorded =>
    keepsClosed_bind (hnote _ _ _) fun e => ?_
  exact keepsClosed_bind (keeps_updateVersionStatus _ _) fun recorded =>
    keepsClosed_bind (hnote _ _ _) fun e => rfl

theorem keeps_performStep : KeepsRun (performStep definition report step) := by
  refine keepsRun_bind (keepsRun_lift (keeps_updateStepStatus _ _)) fun recorded => ?_
  split
  · refine keepsRun_bind (keepsRun_lift keeps_applyStep) ?_
    rintro (stepError | _)
    · exact keepsRun_bind (keepsRun_lift (keeps_recordFailure _)) fun e => keepsRun_throw _
    · refine keepsRun_bind (keepsRun_lift (keeps_updateStepStatus _ _)) fun recorded => ?_
      split
      · exact keepsRun_ret _
      · exact keepsRun_bind (keepsRun_lift keepsClosed_poison) fun _ => keepsRun_throw _
  · exact keepsRun_throw _

theorem keeps_recoverStep : KeepsRun (recoverStep definition report step) := by
  refine keepsRun_bind (keepsRun_lift keeps_verifyStep) ?_
  rintro (e | _)
  · exact keeps_performStep
  · refine keepsRun_bind (keepsRun_lift (keeps_updateStepStatus _ _)) fun recorded => ?_
    split
    · exact keepsRun_ret _
    · exact keepsRun_throw _

theorem keeps_runStep (versionWasComplete : Bool) (recordedSteps : RecordedSteps) :
    KeepsRun (runStep definition versionWasComplete recordedSteps report step) := by
  unfold runStep
  split
  · exact keepsRun_ret _
  · split
    · split
      · exact keepsRun_throw _
      · split
        · exact keepsRun_ret _
        · exact keeps_recoverStep
    · split
      · exact keepsRun_throw _
      · exact keeps_performStep

/-- A loop whose turns come back to where no transaction is started. -/
theorem keepsRun_foldlM {ι β : Type} {xs : List ι} {f : β → ι → Runner β}
    (hf : ∀ b x, KeepsRun (f b x)) (b : β) : KeepsRun (xs.foldlM f b) := by
  refine followsx_foldlM (fun _ phase => phase = SessionPhase.closed) ?_ rfl
  rintro b x phase rfl
  exact hf b x

theorem keeps_runDefinition : KeepsRun (runDefinition report definition) := by
  refine keepsRun_bind (keepsRun_lift (keepsClosed_execute _)) ?_
  rintro (e | versionState)
  · exact keepsRun_throw _
  refine keepsRun_bind
    (p := ExceptT.mk (pure (readVersionState definition report versionState.rows))) ?_ ?_
  · change follows discipline _ (.ret _) _
    cases readVersionState definition report versionState.rows <;> exact rfl
  intro versionWasComplete
  refine keepsRun_bind (keepsRun_lift (keepsClosed_execute _)) ?_
  rintro (e | recorded)
  · exact keepsRun_throw _
  refine keepsRun_bind
    (p := ExceptT.mk (pure (readRecordedSteps definition report [] recorded.rows))) ?_ ?_
  · change follows discipline _ (.ret _) _
    cases readRecordedSteps definition report [] recorded.rows <;> exact rfl
  intro recordedSteps
  have hstart : KeepsRun (startVersion definition versionWasComplete report) := by
    unfold startVersion
    split
    · exact keepsRun_ret _
    · refine keepsRun_bind (keepsRun_lift (keeps_updateVersionStatus _ _)) fun recorded => ?_
      split
      · exact keepsRun_ret _
      · exact keepsRun_throw _
  have hfinish : ∀ report, KeepsRun (finishVersion definition versionWasComplete report) := by
    intro report
    unfold finishVersion
    split
    · exact keepsRun_ret _
    · refine keepsRun_bind (keepsRun_lift (keeps_updateVersionStatus _ _)) fun recorded => ?_
      split
      · exact keepsRun_ret _
      · exact keepsRun_bind (keepsRun_lift keepsClosed_poison) fun _ => keepsRun_throw _
  refine keepsRun_bind hstart fun _ => keepsRun_bind ?_ hfinish
  exact keepsRun_foldlM (fun report step => keeps_runStep _ _) report

theorem keeps_runBootstrapStep (bootstrap : MigrationBootstrapStep) :
    KeepsRun (runBootstrapStep report bootstrap) := by
  unfold runBootstrapStep
  split
  · exact keepsRun_throw _
  · refine keepsRun_bind (keepsRun_lift (keepsClosed_execute _)) ?_
    rintro (e | response)
    · exact keepsRun_throw _
    · refine keepsRun_bind (keepsRun_lift (keepsClosed_execute _)) ?_
      rintro (e | verified)
      · exact keepsRun_throw _
      · dsimp only
        split
        · exact keepsRun_ret _
        · exact keepsRun_throw _

theorem keeps_runLocked (definitions : List MigrationDefinition)
    (bootstrapSql : List MigrationBootstrapStep) :
    KeepsRun (runLocked definitions bootstrapSql report) := by
  unfold runLocked
  split
  · exact keepsRun_throw _
  · refine keepsRun_bind (keepsRun_foldlM (fun report => keeps_runBootstrapStep) _) fun report => ?_
    exact keepsRun_foldlM (fun report definition => keeps_runDefinition) _

theorem keeps_sendRelease : KeepsClosed sendRelease := by
  refine keepsClosed_bind (keepsClosed_execute _) fun released => ?_
  split
  · exact rfl
  · exact keepsClosed_bind keepsClosed_poison fun _ => rfl

theorem keeps_lockDestroy (lock : MigrationLock) : KeepsClosed lock.destroy := by
  unfold MigrationLock.destroy
  split
  · exact rfl
  · exact keepsClosed_bind keeps_sendRelease fun _ => rfl

theorem keeps_lockRelease (lock : MigrationLock) : KeepsClosed lock.release := by
  unfold MigrationLock.release
  split
  · exact rfl
  · exact keepsClosed_bind keeps_sendRelease fun _ => rfl

theorem keeps_run (definitions : List MigrationDefinition)
    (bootstrapSql : List MigrationBootstrapStep) (lockTimeoutSeconds : ℕ) :
    KeepsClosed (run definitions bootstrapSql lockTimeoutSeconds) := by
  refine keepsClosed_bind (keepsClosed_execute _) ?_
  rintro (e | acquired)
  · exact keepsClosed_bind (keeps_lockDestroy _) fun _ => rfl
  dsimp only
  split
  · exact keepsClosed_bind (keeps_lockDestroy _) fun _ => rfl
  · refine follows_bind (p := (runLocked definitions bootstrapSql _).run)
      (follows_mono (keeps_runLocked definitions bootstrapSql) ?_)
    rintro (report | report) phase hphase
    · obtain rfl : phase = .closed := hphase
      exact keepsClosed_bind (keeps_lockDestroy _) fun _ => rfl
    · obtain rfl : phase = .closed := hphase
      refine keepsClosed_bind (keeps_lockRelease _) fun released => ?_
      refine keepsClosed_bind (keeps_lockDestroy _) fun _ => ?_
      split <;> exact rfl

end Runner

end Warehouse.Mysql
