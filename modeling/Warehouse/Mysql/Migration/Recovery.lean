/-
# Warehouse.Mysql.Migration.Recovery — carrying a step out again after a crash

A step whose row says RUNNING or FAILED may have had its effect before the crash, so the runner
sends its verify SQL first and carries the step out again only if that does not confirm the target
state.  `verifyStep` folds two things into its one boolean: an answer that the target state is not
there, and no answer at all.  The recovery branch drops the text that tells them apart, so a verify
query that fails lets the step be applied over an effect that is already there.

If the verify queries of the recovery are answered, what the documentation promises holds.
-/
import Warehouse.Mysql.Migration.Tampering

namespace Warehouse.Mysql.Migration

open Warehouse.Interaction Warehouse.Interaction.Program

/-! ## What is promised, and when it is kept -/

/-- A step that was found recorded is applied only over an answer to its verify SQL in this run that
did not confirm the target state. -/
def AppliedWhenRefuted (events : RunHistory) : Prop :=
  ∀ past version step answer future, events = past ++ stmt (.apply version step) answer :: future →
    StepFound version step.id events →
      ∃ response, stmt (.verify version step) (.ok response) ∈ past ∧ truthy response = false

/-- The verify SQL of a step that changes something fails only behind its apply SQL: every query of
the recovery was answered. -/
def RecoveryAnswered (events : RunHistory) : Prop :=
  ∀ past version step e future, events = past ++ stmt (.verify version step) (.error e) :: future →
    step.execution = .check ∨ Sent (.apply version step) past

/-- Verify SQL, if it is answered, tells the truth about the effect of its step. -/
def VerifyTruthful : (call : ExecutorCall MigrationStatement) → Tables × Session → call.Answer → Prop
  | .execute (.verify version step), c, .ok response =>
      step.execution ≠ .check →
        (truthy response = true ↔ (seen c).effects (version, step.id) ≠ 0)
  | _, _, _ => True

/-- An executor whose answers to reads and to verify SQL are truthful; any statement may fail, with
or without effect. -/
def verifying : Environment (ExecutorCall MigrationStatement) ExecutorCall.Answer (Tables × Session) :=
  fun call c answer c' => reading call c answer c' ∧ VerifyTruthful call c answer

/-! ## Rows and effects stay -/

section Lasting

variable {a : Address} {t : Tables} {c c' : Tables × Session} {x : Change}
  {call : ExecutorCall MigrationStatement}

/-- The step is recorded, and its effect is there. -/
structure Lasting (a : Address) (t : Tables) : Prop where
  row : t.steps a ≠ none
  effect : t.effects a ≠ 0

theorem Lasting.change (h : Lasting a t) (x : Change) : Lasting a (t.change x) := by
  cases x with
  | version => exact ⟨h.row, h.effect⟩
  | step now version step status errorMessage =>
      refine ⟨?_, h.effect⟩
      by_cases ha : a = (version, step.id)
      · simp [Tables.change, ha]
      · simpa [Tables.change, ha] using h.row
  | effect address =>
      refine ⟨h.row, ?_⟩
      by_cases ha : a = address
      · simp [Tables.change, ha]
      · simpa [Tables.change, ha] using h.effect

/-- No change undoes it, so it is there in what a session sees, and after every call. -/
theorem Lasting.guarded (h : Lasting a c.1) : Guarded (Lasting a) (fun _ => True) c :=
  ⟨h, fun _ _ => trivial⟩

theorem Lasting.seen (h : Lasting a c.1) : Lasting a (seen c) :=
  h.guarded.seen fun _ x _ h => h.change x

theorem Lasting.reading {answer : call.Answer} (h : Lasting a c.1)
    (hstep : reading call c answer c') : Lasting a c'.1 :=
  (h.guarded.reading (fun _ x _ h => h.change x) (fun _ _ _ => trivial) hstep).tables

end Lasting

/-! ## Effects that are not applied again -/

section Once

variable {a : Address} {n : ℕ} {t : Tables} {c c' : Tables × Session} {x : Change}
  {call : ExecutorCall MigrationStatement}

/-- The effect is there `n` times, and no change of it is pending. -/
structure Settled (a : Address) (n : ℕ) (c : Tables × Session) : Prop where
  effects : c.1.effects a = n
  pending : ∀ x ∈ c.2.getD [], x ≠ .effect a

/-- The call is the apply SQL of the step at the address. -/
def AppliesAt (a : Address) : ExecutorCall MigrationStatement → Prop
  | .execute (.apply version step) => (version, step.id) = a
  | _ => False

theorem settled_iff :
    Settled a n c ↔ Guarded (fun t => t.effects a = n) (fun x => x ≠ .effect a) c :=
  ⟨fun h => ⟨h.effects, h.pending⟩, fun h => ⟨h.tables, h.pending⟩⟩

theorem Settled.seen (h : Settled a n c) : (seen c).effects a = n :=
  (settled_iff.mp h).seen effects_change

theorem Settled.reading {answer : call.Answer} (h : Settled a n c) (hcall : ¬ AppliesAt a call)
    (hstep : reading call c answer c') : Settled a n c' := by
  have hmakes : ∀ now x, Makes now call x → x ≠ .effect a := by
    intro now x hmade heq
    subst heq
    cases hmade
    exact hcall rfl
  exact settled_iff.mpr ((settled_iff.mp h).reading effects_change hmakes hstep)

end Once

/-! ## The promise under its condition -/

section Promise

variable {events past future : RunHistory} {version : ℕ} {step : MigrationStep} {answer : SqlResult}
  {t : Tables} {c : Tables × Session}

/-- Before the apply SQL of a step is sent, its verify SQL was not left without an answer. -/
theorem RecoveryAnswered.answered (hrecovery : RecoveryAnswered events) (hdemand : Demanded events)
    (hsplit : events = past ++ stmt (.apply version step) answer :: future) {verified : SqlResult}
    (hverified : stmt (.verify version step) verified ∈ past) :
    ∃ response, verified = .ok response := by
  obtain ⟨-, hfirst, hplaced⟩ := hdemand past _ future hsplit
  rcases verified with e | response
  · exfalso
    obtain ⟨before, between, rfl⟩ := List.append_of_mem hverified
    have hearlier : events = before ++ stmt (.verify version step) (.error e) ::
        (between ++ stmt (.apply version step) answer :: future) := by
      rw [hsplit]
      simp
    rcases hrecovery before version step e _ hearlier with hcheck | ⟨applied, hsent⟩
    · unfold Placed at hplaced
      rw [hcheck] at hplaced
      exact hplaced
    · exact hfirst applied (List.mem_append_left _ hsent)
  · exact ⟨response, rfl⟩

theorem RecoveryAnswered.appliedWhenRefuted (hrecovery : RecoveryAnswered events)
    (hdemand : Demanded events) : AppliedWhenRefuted events := by
  intro past version step answer future hsplit hfound
  obtain ⟨hdue, -, -⟩ := hdemand past _ future hsplit
  have hpast : past <+: events := hsplit ▸ List.prefix_append past _
  obtain ⟨refuted, hmem, hunconfirmed⟩ := hdue.refuted.of_found hdemand hpast hfound
  obtain ⟨response, rfl⟩ := hrecovery.answered hdemand hsplit hmem
  exact ⟨response, hmem, hunconfirmed⟩

/-- A step that is recorded is found, on an executor that reads truthfully. -/
theorem stepFound_of_lasting {a : Address} {response : SqlResponse}
    (hanswers : Answers verifying (t, none) events c) (hlasting : Lasting a t)
    (hread : stmt (.recordedSteps a.1) (.ok response) ∈ events) : StepFound a.1 a.2 events := by
  obtain ⟨past, future, rfl⟩ := List.append_of_mem hread
  obtain ⟨before, behind, hpast, henv, -⟩ := hanswers.split
  have hbefore : Lasting a before.1 :=
    hpast.keeps (I := fun c => Lasting a c.1) (fun event _ _ _ h henv => h.reading henv.1) hlasting
  obtain ⟨row, hrow⟩ := Option.ne_none_iff_exists'.mp hbefore.seen.row
  have hserved : Answered False (.execute (.recordedSteps a.1)) before (.ok response) behind := henv.1
  have hmem : row.toRecordedStep.row a.2 ∈ response.rows := (hserved.2 _).mpr ⟨a.2, row, hrow, rfl⟩
  obtain ⟨found, hfound⟩ : ∃ found, rowOf a.2 response.rows = some found := by
    apply Option.isSome_iff_exists.mp
    rw [rowOf, List.find?_isSome]
    exact ⟨_, hmem, by simp [RecordedStep.row]⟩
  exact ⟨response, found, hread, hfound⟩

/-- While its effect is there, a truthful verification of a step confirms it. -/
theorem truthy_of_lasting {response : SqlResponse}
    (hanswers : Answers verifying (t, none) events c) (hlasting : Lasting (version, step.id) t)
    (hchange : step.execution ≠ .check)
    (hread : stmt (.verify version step) (.ok response) ∈ events) : truthy response = true := by
  obtain ⟨past, future, rfl⟩ := List.append_of_mem hread
  obtain ⟨before, behind, hpast, henv, -⟩ := hanswers.split
  have hbefore : Lasting (version, step.id) before.1 :=
    hpast.keeps (I := fun c => Lasting (version, step.id) c.1)
      (fun event _ _ _ h henv => h.reading henv.1) hlasting
  have htruthful : VerifyTruthful (.execute (.verify version step)) before (.ok response) := henv.2
  exact (htruthful hchange).mpr hbefore.seen.effect

/-- Over truthful verification a step whose effect is there is not applied again. -/
theorem not_applied_again {a : Address} (hrecovery : RecoveryAnswered events)
    (hdemand : Demanded events) (hanswers : Answers verifying (t, none) events c)
    (hlasting : Lasting a t) : ∀ event ∈ events, ¬ AppliesAt a event.1 := by
  rintro ⟨call, answer⟩ hevent happlies
  cases call with
  | control => exact happlies
  | poison => exact happlies
  | execute statement =>
      cases statement with
      | apply version step =>
          obtain rfl : (version, step.id) = a := happlies
          obtain ⟨past, future, hsplit⟩ := List.append_of_mem hevent
          obtain ⟨hdue, -, hplaced⟩ := hdemand past _ future hsplit
          have hpast : past <+: events := hsplit ▸ List.prefix_append past _
          obtain ⟨response, hread, -⟩ := hdue.stepRead
          have hfound : StepFound version step.id events :=
            stepFound_of_lasting hanswers hlasting (hpast.subset hread)
          obtain ⟨refuted, hmem, hfalse⟩ :=
            hrecovery.appliedWhenRefuted hdemand past version step answer future hsplit hfound
          have hchange : step.execution ≠ .check := by
            intro hcheck
            unfold Placed at hplaced
            rw [hcheck] at hplaced
            exact hplaced
          rw [truthy_of_lasting hanswers hlasting hchange (hpast.subset hmem)] at hfalse
          cases hfalse
      | _ => exact happlies

/-- If every verify query of the recovery is answered, a step that is found recorded is applied only
over an answer that did not confirm the target state; and over truthful answers a step that was
recorded and committed before the run is not committed again. -/
theorem recovery_definite (m : Manifest) (bootstrapSql : List MigrationBootstrapStep)
    (lockTimeoutSeconds : ℕ) (events : RunHistory) (report : MigrationReport)
    (hrun : Runs (run m.definitions bootstrapSql lockTimeoutSeconds) events report)
    (hrecovery : RecoveryAnswered events) :
    AppliedWhenRefuted events ∧
      ∀ (t : Tables) (c : Tables × Session), Answers verifying (t, none) events c →
        ∀ a : Address, t.steps a ≠ none → t.effects a ≠ 0 →
          (∀ event ∈ events, ¬ AppliesAt a event.1) ∧ c.1.effects a = t.effects a := by
  have hdemand : Demanded events :=
    (runs_of_wp (run_bracket m bootstrapSql lockTimeoutSeconds) hrun).2
  refine ⟨hrecovery.appliedWhenRefuted hdemand, fun t c hanswers a hrow heffect => ?_⟩
  have honce := not_applied_again hrecovery hdemand hanswers ⟨hrow, heffect⟩
  have hsettled : Settled a (t.effects a) c :=
    hanswers.keeps (fun event hevent _ _ h henv => h.reading (honce event hevent) henv.1)
      ⟨rfl, by simp⟩
  exact ⟨honce, hsettled.effects⟩

end Promise

/-! ## A deadlock during recovery -/

section Deadlock

/-- The row of the seed step after a crash between its COMMIT and its SUCCEEDED record. -/
def crashedRow : StepRow :=
  ⟨⟨seedStep.checksum, phaseName seedStep.phase, executionName seedStep.execution, running⟩, 0, none,
    []⟩

/-- The tables after that crash: the seed is inserted, and the step is recorded as RUNNING. -/
def crashedTables : Tables :=
  [Change.version 0 1 (lit "001_seed") running [], .step 0 1 seedStep running [],
    .effect (1, seedStep.id)].foldl Tables.change {}

/-- A server with these tables, on which the first verification runs into a deadlock. -/
def deadlocking : (call : ExecutorCall MigrationStatement) → Bool → call.Answer × Bool
  | .execute (.versionState _), verified =>
      (.ok { rows := [[some (lit "001_seed"), some running]] }, verified)
  | .execute (.recordedSteps _), verified =>
      (.ok { rows := [crashedRow.toRecordedStep.row seedStep.id] }, verified)
  | .execute (.verify ..), verified =>
      (if verified then .ok one else .error { code := .deadlock }, true)
  | .execute _, verified => (.ok one, verified)
  | .control _, verified => (.ok {}, verified)
  | .poison, verified => ((), verified)

/-- The start after the crash. -/
def deadlockedStart : RunHistory × MigrationReport :=
  (run seedManifest.definitions [metadataTable]).exec deadlocking false

variable {events : RunHistory} {c c' : Tables × Session} {statement : MigrationStatement}
  {response : SqlResponse}

theorem verifying_execute (hrole : (migrationServer False).role (.execute statement) = .work)
    (htruthful : Truthful False (seen c) (.execute statement) response)
    (hverify : VerifyTruthful (.execute statement) c (.ok response))
    (hrest : Answers verifying (performs 0 statement c) events c') :
    Answers verifying c (stmt statement (.ok response) :: events) c' := by
  refine .cons ⟨?_, hverify⟩ hrest
  unfold reading
  simp only [hrole]
  exact ⟨⟨0, rfl⟩, htruthful⟩

theorem verifying_control {statement : TxControl}
    (hrest : Answers verifying (controls statement c) events c') :
    Answers verifying c (ctrl statement (.ok response) :: events) c' :=
  .cons ⟨⟨⟨0, rfl⟩, trivial⟩, trivial⟩ hrest

/-- The only row that is stored. -/
theorem crashedTables_steps (id : Bytes) (row : StepRow) :
    crashedTables.steps (1, id) = some row ↔ id = seedStep.id ∧ row = crashedRow := by
  by_cases hid : id = seedStep.id
  · subst hid
    have hstored : crashedTables.steps (1, seedStep.id) = some crashedRow := rfl
    rw [hstored]
    simp [eq_comm]
  · have hnone : crashedTables.steps (1, id) = none := by
      simp [crashedTables, Tables.change, hid]
    simp [hnone, hid]

/-- The crashed tables once version 1 is recorded as running again. -/
def reopenedTables : Tables :=
  crashedTables.change (.version 0 1 (lit "001_seed") running [])

/-- Up to the verification, the answers of a second start are those of a server with the tables
of the crash. -/
theorem answers_reopened (hrest : Answers verifying (reopenedTables, none) events c') :
    Answers verifying (crashedTables, none) (deadlockedStart.1.take 6 ++ events) c' := by
  refine .cons ⟨rfl, trivial⟩ ?_
  refine verifying_execute rfl trivial trivial (verifying_execute rfl trivial trivial ?_)
  refine verifying_execute rfl rfl trivial (verifying_execute rfl ?_ trivial ?_)
  · intro r
    constructor
    · intro hr
      exact ⟨seedStep.id, crashedRow, (crashedTables_steps _ _).mpr ⟨rfl, rfl⟩,
        List.mem_singleton.mp hr⟩
    · rintro ⟨id, row, hrow, rfl⟩
      obtain ⟨rfl, rfl⟩ := (crashedTables_steps id row).mp hrow
      exact List.mem_singleton.mpr rfl
  exact verifying_execute rfl trivial trivial hrest

/-- The tables after the second start. -/
def recommittedTables : Tables :=
  [Change.step 0 1 seedStep running [], .effect (1, seedStep.id), .step 0 1 seedStep succeeded [],
    .version 0 1 (lit "001_seed") succeeded []].foldl Tables.change reopenedTables

theorem answers_deadlocked :
    Answers verifying (crashedTables, none) deadlockedStart.1 (recommittedTables, none) := by
  show Answers verifying _ (deadlockedStart.1.take 6 ++ deadlockedStart.1.drop 6) _
  refine answers_reopened ?_
  -- the deadlock: the session is as it was
  refine .cons ⟨⟨fun h => h.1, Or.inl rfl⟩, trivial⟩ ?_
  refine verifying_execute rfl trivial trivial (verifying_control (verifying_control ?_))
  refine verifying_execute rfl trivial trivial (verifying_execute rfl (fun h => h.elim) ?_ ?_)
  · intro _
    decide
  refine verifying_control (verifying_execute rfl trivial trivial ?_)
  exact verifying_execute rfl trivial trivial (.cons ⟨rfl, trivial⟩ (.nil _))

/-- A verify query that was answered. -/
def answeredVerify : RunEvent → Bool
  | ⟨.execute (.verify ..), .ok _⟩ => true
  | _ => false

/-- A verify query that failed. -/
def failedVerify : RunEvent → Bool
  | ⟨.execute (.verify ..), .error _⟩ => true
  | _ => false

/-- The same start without the deadlock: the step is only recorded. -/
def confirmedStart : RunHistory × MigrationReport :=
  (run seedManifest.definitions [metadataTable]).exec deadlocking true

/-- The tables after that start. -/
def confirmedTables : Tables :=
  [Change.step 0 1 seedStep succeeded [], .version 0 1 (lit "001_seed") succeeded []].foldl
    Tables.change reopenedTables

theorem answers_confirmed :
    Answers verifying (crashedTables, none) confirmedStart.1 (confirmedTables, none) := by
  show Answers verifying _ (deadlockedStart.1.take 6 ++ confirmedStart.1.drop 6) _
  refine answers_reopened ?_
  refine verifying_execute rfl (fun h => h.elim) (fun _ => by decide) ?_
  refine verifying_execute rfl trivial trivial (verifying_execute rfl trivial trivial ?_)
  exact .cons ⟨rfl, trivial⟩ (.nil _)

theorem recovery_definite_confirmed :
    AppliedWhenRefuted confirmedStart.1 ∧
      Answers verifying (crashedTables, none) confirmedStart.1 (confirmedTables, none) ∧
      (∀ event ∈ confirmedStart.1, ¬ AppliesAt (1, seedStep.id) event.1) ∧
      confirmedTables.effects (1, seedStep.id) = 1 := by
  have hnone : (confirmedStart.1.all fun event => !failedVerify event) = true := by decide
  have hrecovery : RecoveryAnswered confirmedStart.1 := by
    intro past version step e future hsplit
    have hmem : stmt (.verify version step) (.error e) ∈ confirmedStart.1 := by simp [hsplit]
    have hanswered := List.all_eq_true.mp hnone _ hmem
    cases hanswered
  obtain ⟨hrefuted, hsettled⟩ :=
    recovery_definite seedManifest [metadataTable] 10 _ _ (runs_exec deadlocking _ true) hrecovery
  obtain ⟨honce, heffect⟩ := hsettled crashedTables (confirmedTables, none) answers_confirmed
    (1, seedStep.id) (by decide) (by decide)
  exact ⟨hrefuted, answers_confirmed, honce, heffect⟩

/-- A deadlock in the verification of the recovery: the step is applied without an answer to its
verify SQL, and an effect that was committed before the crash is committed a second time. -/
theorem deadlock_appliesTwice :
    Runs (run seedManifest.definitions [metadataTable]) deadlockedStart.1 deadlockedStart.2 ∧
      ¬ AppliedWhenRefuted deadlockedStart.1 ∧
      ∃ c, Answers verifying (crashedTables, none) deadlockedStart.1 c ∧
        crashedTables.effects (1, seedStep.id) = 1 ∧ c.1.effects (1, seedStep.id) = 2 := by
  refine ⟨runs_exec deadlocking _ false, ?_, ?_⟩
  · intro h
    have hfound : StepFound 1 seedStep.id deadlockedStart.1 :=
      ⟨{ rows := [crashedRow.toRecordedStep.row seedStep.id] },
        crashedRow.toRecordedStep.row seedStep.id, List.mem_iff_getElem?.mpr ⟨4, rfl⟩, by decide⟩
    obtain ⟨response, hmem, -⟩ := h (deadlockedStart.1.take 10) 1 seedStep (.ok one)
      (deadlockedStart.1.drop 11) rfl hfound
    have hnone : ((deadlockedStart.1.take 10).all fun event => !answeredVerify event) = true := by
      decide
    have hanswered := List.all_eq_true.mp hnone _ hmem
    cases hanswered
  · exact ⟨(recommittedTables, none), answers_deadlocked, rfl, rfl⟩

end Deadlock

end Warehouse.Mysql.Migration
