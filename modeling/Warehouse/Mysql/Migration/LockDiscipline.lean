/-
# Warehouse.Mysql.Migration.LockDiscipline — the named lock of the migration runner

`run` holds the lock in an object whose destructor releases it, and leaves the scope of that object
by some twenty `return`s.  On each of them the same happens: `RELEASE_LOCK` is sent once, nothing is
sent after it, and an answer that does not confirm it poisons the executor, so that the pool does
not hand out a session that may still hold the lock.

The work under the lock is one program, so it is enough to know that it sends no lock statement.
-/
import Warehouse.Mysql.Migration.Gate

namespace Warehouse.Mysql.Migration

open Warehouse.Interaction Warehouse.Interaction.Program

/-! ## Lock statements -/

/-- The call is none of the two lock statements. -/
def OffLock : ExecutorCall MigrationStatement → Prop
  | .execute (.getLock _) => False
  | .execute .releaseLock => False
  | _ => True

/-- The call sends `RELEASE_LOCK` for the lock of the migrations, as the server sees it. -/
def Releases : ExecutorCall MigrationStatement → Prop
  | .execute statement => SqlStatement.sql statement = lit "SELECT RELEASE_LOCK(?)" ∧
      SqlStatement.parameters statement = some [.text lockName]
  | .control _ | .poison => False

instance : DecidablePred Releases
  | .execute statement => inferInstanceAs (Decidable (SqlStatement.sql statement = _ ∧ _ = _))
  | .control _ => inferInstanceAs (Decidable False)
  | .poison => inferInstanceAs (Decidable False)

/-- No other statement of the runner looks like it on the wire: no other binds the name alone. -/
theorem releases_iff (call : ExecutorCall MigrationStatement) :
    Releases call ↔ call = .execute .releaseLock := by
  constructor
  · intro h
    cases call with
    | control => exact h.elim
    | poison => exact h.elim
    | execute statement =>
        have hparameters : SqlStatement.parameters statement = some [.text lockName] := h.2
        cases statement with
        | releaseLock => rfl
        | _ => cases hparameters
  · rintro rfl
    exact ⟨rfl, rfl⟩

theorem OffLock.not_releases {call : ExecutorCall MigrationStatement} (h : OffLock call) :
    ¬ Releases call := by
  rw [releases_iff]
  rintro rfl
  exact h

section Work

variable {version : ℕ} {bootstrap : MigrationBootstrapStep} {report : MigrationReport}
  {call : ExecutorCall MigrationStatement}

theorem OfVersion.offLock (h : OfVersion version call) : OffLock call := by
  cases call with
  | control => trivial
  | poison => trivial
  | execute statement =>
      cases statement with
      | getLock => exact h
      | releaseLock => exact h
      | _ => trivial

theorem OfBootstrap.offLock (h : OfBootstrap bootstrap call) : OffLock call := by
  cases call with
  | control => trivial
  | poison => trivial
  | execute statement =>
      cases statement with
      | getLock => exact h
      | releaseLock => exact h
      | _ => trivial

/-- Whatever is done under the lock leaves the lock alone. -/
theorem emits_runLocked (definitions : List MigrationDefinition)
    (bootstrapSql : List MigrationBootstrapStep) :
    (runLocked definitions bootstrapSql report).run.Emits OffLock := by
  unfold runLocked
  split
  · trivial
  · refine emits_run_bind (emits_run_foldlM (fun report bootstrap _ => ?_) report) fun report =>
      emits_run_foldlM (fun report definition _ => ?_) _
    · exact (emits_runBootstrapStep bootstrap).mono fun call hcall => hcall.offLock
    · exact emits_runDefinition.mono fun call hcall => hcall.offLock

end Work

/-! ## The shape of a run -/

/-- What the release adds to the history: an answer that confirms it, or the poisoning. -/
inductive Released : RunHistory → Prop
  | confirmed {answer : SqlResult} : confirmed answer = true → Released [stmt .releaseLock answer]
  | poisoned {answer : SqlResult} : confirmed answer = false →
      Released [stmt .releaseLock answer, ⟨.poison, ()⟩]

/-- How a run goes about the lock. -/
inductive LockUse (seconds : ℕ) : RunHistory → Prop
  | refused {answer : SqlResult} : confirmed answer = false →
      LockUse seconds [stmt (.getLock seconds) answer]
  | held {answer : SqlResult} {work release : RunHistory} : confirmed answer = true →
      (∀ event ∈ work, OffLock event.1) → Released release →
      LockUse seconds (stmt (.getLock seconds) answer :: (work ++ release))

section Shape

variable {seconds : ℕ} {events : RunHistory}

theorem traces_sendRelease : sendRelease.Traces fun events _ => Released events := by
  intro answer
  change Traces (if confirmed answer = true then .ret true else _) _
  by_cases hconfirmed : confirmed answer = true
  · rw [if_pos hconfirmed]
    exact .confirmed hconfirmed
  · rw [if_neg hconfirmed]
    rw [Bool.not_eq_true] at hconfirmed
    exact fun _ => .poisoned hconfirmed

/-- The destructor of a lock that is held. -/
theorem traces_destroy :
    (MigrationLock.destroy { held := true }).Traces fun events _ => Released events := by
  refine (traces_bind sendRelease _).mpr (traces_sendRelease.mono ?_)
  intro release _ hrelease
  show Released (release ++ [])
  rw [List.append_nil]
  exact hrelease

/-- Every way through `run`. -/
theorem traces_run (definitions : List MigrationDefinition)
    (bootstrapSql : List MigrationBootstrapStep) (seconds : ℕ) :
    (run definitions bootstrapSql seconds).Traces fun events _ => LockUse seconds events := by
  intro answer
  rcases answer with e | acquired
  · exact .refused rfl
  change Traces (if !truthy acquired then _ else _) _
  by_cases htrue : truthy acquired = true
  · rw [if_neg (by simp [htrue])]
    refine (traces_bind _ _).mpr ((traces_of_emits (emits_runLocked definitions bootstrapSql)).mono ?_)
    rintro work (report | report) hwork
    · -- an early return: the destructor releases
      refine (traces_bind (MigrationLock.destroy { held := true }) _).mpr (traces_destroy.mono ?_)
      intro release _ hrelease
      show LockUse seconds (_ :: (work ++ (release ++ [])))
      rw [List.append_nil]
      exact .held htrue hwork hrelease
    · -- the end of the loops: `release` does, and leaves a lock that its destructor ignores
      refine (traces_bind _ _).mpr ((traces_bind sendRelease _).mpr (traces_sendRelease.mono ?_))
      intro release released hrelease
      have huse : LockUse seconds (stmt (.getLock seconds) (.ok acquired) :: (work ++ release)) :=
        .held htrue hwork hrelease
      cases released with
      | true =>
          show LockUse seconds (_ :: (work ++ (release ++ [] ++ [])))
          simpa using huse
      | false =>
          show LockUse seconds (_ :: (work ++ (release ++ [] ++ [])))
          simpa using huse
  · rw [if_pos (by simp [htrue])]
    rw [Bool.not_eq_true] at htrue
    exact .refused htrue

end Shape

/-! ## The discipline -/

section Discipline

variable {seconds : ℕ} {events work release : RunHistory}

theorem countP_releases_work (h : ∀ event ∈ work, OffLock event.1) :
    work.countP (fun event => Releases event.1) = 0 := by
  rw [List.countP_eq_zero]
  intro event hevent
  simpa using (h event hevent).not_releases

theorem Released.countP (h : Released release) :
    release.countP (fun event => Releases event.1) = 1 := by
  cases h <;> rfl

/-- A run that the lock was refused to has sent `GET_LOCK` and nothing else. -/
theorem LockUse.refused_of_not_granted (h : LockUse seconds events) (hgranted : ¬ LockGranted events) :
    ∃ answer, events = [stmt (.getLock seconds) answer] := by
  cases h with
  | @refused answer hrefused => exact ⟨answer, rfl⟩
  | @held answer work release hconfirmed hwork hrelease =>
      rcases answer with e | response
      · cases hconfirmed
      · exact absurd ⟨seconds, response, List.mem_cons_self, hconfirmed⟩ hgranted

/-- A run that the lock was granted to has held it. -/
theorem LockUse.held_of_granted (h : LockUse seconds events) (hgranted : LockGranted events) :
    ∃ answer work release, events = stmt (.getLock seconds) answer :: (work ++ release) ∧
      (∀ event ∈ work, OffLock event.1) ∧ Released release := by
  cases h with
  | @refused answer hrefused =>
      obtain ⟨asked, response, hmem, htrue⟩ := hgranted
      cases List.mem_singleton.mp hmem
      rw [show confirmed (.ok response) = truthy response from rfl, htrue] at hrefused
      cases hrefused
  | @held answer work release hconfirmed hwork hrelease =>
      exact ⟨answer, work, release, rfl, hwork, hrelease⟩

/-- Every exit of `run` keeps the discipline of the lock. -/
theorem namedLock_discipline (definitions : List MigrationDefinition)
    (bootstrapSql : List MigrationBootstrapStep) (lockTimeoutSeconds : ℕ) (events : RunHistory)
    (report : MigrationReport)
    (hrun : Runs (run definitions bootstrapSql lockTimeoutSeconds) events report) :
    (LockGranted events →
      events.countP (fun event => Releases event.1) = 1 ∧
        ∃ before answer after, events = before ++ stmt .releaseLock answer :: after ∧
          (∀ event ∈ after, event.1 = .poison) ∧
          (confirmed answer = true ∨ ⟨.poison, ()⟩ ∈ after)) ∧
    (¬ LockGranted events → ∃ answer, events = [stmt (.getLock lockTimeoutSeconds) answer]) := by
  have huse : LockUse lockTimeoutSeconds events :=
    (traces_run definitions bootstrapSql lockTimeoutSeconds).of_runs hrun
  refine ⟨fun hgranted => ?_, huse.refused_of_not_granted⟩
  obtain ⟨granted, work, release, rfl, hwork, hrelease⟩ := huse.held_of_granted hgranted
  constructor
  · have hgetLock : ¬ Releases (.execute (.getLock lockTimeoutSeconds)) := by
      rw [releases_iff]
      simp
    rw [List.countP_cons, List.countP_append, countP_releases_work hwork, hrelease.countP]
    simp [hgetLock]
  · cases hrelease with
    | @confirmed answer hconfirmed =>
        exact ⟨stmt (.getLock lockTimeoutSeconds) granted :: work, answer, [], by simp, by simp,
          Or.inl hconfirmed⟩
    | @poisoned answer hunconfirmed =>
        exact ⟨stmt (.getLock lockTimeoutSeconds) granted :: work, answer, [⟨.poison, ()⟩], by simp,
          by simp, Or.inr (by simp)⟩

/-- A first start that goes through, and its one release. -/
theorem namedLock_discipline_firstStart :
    LockGranted firstStart.1 ∧ firstStart.1.countP (fun event => Releases event.1) = 1 := by
  have hgranted : LockGranted firstStart.1 :=
    ⟨10, { rows := [[some (lit "1")]] }, List.mem_cons_self, by decide⟩
  exact ⟨hgranted, ((namedLock_discipline seedManifest.definitions [metadataTable] 10 firstStart.1
    firstStart.2 (runs_exec acknowledging _ ())).1 hgranted).1⟩

end Discipline

end Warehouse.Mysql.Migration
