/-
# Warehouse.Mysql.Migration.StepFailure — what a failed step leaves behind

A step whose RUNNING record was acknowledged can fail when its transaction is started, when it is
applied, verified or committed, and when its result is recorded; the two writes that record the
failure can fail as well.  However these come together, the tables say FAILED for the step and for
its version, or the connection is given up; and nothing else is sent any more.
-/
import Warehouse.Mysql.Migration.Tampering

namespace Warehouse.Mysql.Migration

open Warehouse.Interaction Warehouse.Interaction.Program

/-! ## A run that stopped at a step -/

/-- The run failed at the step.  Other versions may use the id again, so the version is the last one
that the run has come to. -/
structure StoppedAt (version : ℕ) (step : MigrationStep) (events : RunHistory)
    (report : MigrationReport) : Prop where
  failed : report.status = .failed
  named : report.failedStep = step.id
  set : report.failedStep ≠ []
  last : ∀ v answer, stmt (.versionState v) answer ∈ events → v ≤ version

/-- Both records of the failure were sent and acknowledged. -/
def FailureRecorded (definition : MigrationDefinition) (step : MigrationStep) (h : RunHistory) :
    Prop :=
  ∃ message recorded recorded',
    stmt (.stepStatus definition.version step failedStatus message) (.ok recorded) ∈ h ∧
      stmt (.versionStatus definition.version definition.name failedStatus message) (.ok recorded') ∈ h

/-- The executor was poisoned. -/
def Poisoned (h : RunHistory) : Prop := (⟨.poison, ()⟩ : RunEvent) ∈ h

/-- What follows the RUNNING record of a step at which a run stops: the work of the step, status
writes of the step and its version, and the release of the lock. -/
structure FailureTrace (definition : MigrationDefinition) (step : MigrationStep)
    (work records release : RunHistory) : Prop where
  carriedOut : ∃ outcome, Runs (applyStep definition.version step) work outcome
  ofWork : ∀ event ∈ work, OfWork definition.version step event.1
  ofRecord : ∀ event ∈ records, OfRecord definition.version step event.1
  released : Released release
  traced : FailureRecorded definition step records ∨ Poisoned (work ++ records)

/-- The call is a record or SQL of a later step, or of a later version. -/
def TouchesLater (version : ℕ) (step : MigrationStep) : ExecutorCall MigrationStatement → Prop
  | .execute (.stepStatus v s _ _) => version < v ∨ (v = version ∧ step.id < s.id)
  | .execute (.apply v s) => version < v ∨ (v = version ∧ step.id < s.id)
  | .execute (.verify v s) => version < v ∨ (v = version ∧ step.id < s.id)
  | .execute (.versionStatus v ..) => version < v
  | _ => False

/-! ## The records of a failure -/

section Records

variable {definition : MigrationDefinition} {report failure : MigrationReport}
  {step : MigrationStep} {events : RunHistory} {response : SqlResponse}

/-- Each of the two writes is acknowledged, or poisons. -/
theorem traces_recordFailure (stepError : Bytes) :
    (recordFailure definition report step stepError).Traces fun records _ =>
      FailureRecorded definition step records ∨ Poisoned records := by
  intro answer
  rcases answer with e | recorded
  · -- the first write fails: the poisoning is the second event
    intro _ answer
    rcases answer with e' | recorded'
    · exact fun _ => Or.inr (by simp [Poisoned])
    · exact Or.inr (by simp [Poisoned])
  · intro answer
    rcases answer with e' | recorded'
    · exact fun _ => Or.inr (by simp [Poisoned])
    · exact Or.inl ⟨stepError, recorded, recorded', by simp, by simp⟩

/-- The work of a step that was recorded as RUNNING and does not go through. -/
theorem Performed.failureTrace {release : RunHistory} (hrelease : Released release)
    (h : Performed definition report step events (.error failure))
    (hrunning : stmt (.stepStatus definition.version step running []) (.ok response) ∈ events) :
    ∃ response work records,
      events = stmt (.stepStatus definition.version step running []) (.ok response) ::
        (work ++ records) ∧ FailureTrace definition step work records release := by
  cases h with
  | unrecorded => cases List.mem_singleton.mp hrunning
  | @broken response' work records stepError failure hwork hrecords =>
      refine ⟨response', work, records, rfl, ⟨_, hwork⟩, ?_, ?_, hrelease, ?_⟩
      · exact (traces_of_emits emits_applyStep).of_runs hwork
      · exact (traces_of_emits (emits_recordFailure stepError)).of_runs hrecords
      · refine ((traces_recordFailure stepError).of_runs hrecords).imp_right fun hpoisoned => ?_
        exact List.mem_append_right work hpoisoned
  | @lost response' work e hwork =>
      refine ⟨response', work, _, rfl, ⟨_, hwork⟩, ?_, ?_, hrelease, Or.inr ?_⟩
      · exact (traces_of_emits emits_applyStep).of_runs hwork
      · intro event hevent
        rcases List.mem_pair.mp hevent with rfl | rfl
        · exact ⟨rfl, rfl⟩
        · trivial
      · simp [Poisoned]

end Records

/-! ## Nothing later is touched -/

section Later

variable {definition : MigrationDefinition} {step s : MigrationStep} {version : ℕ}
  {call : ExecutorCall MigrationStatement} {event : RunEvent} {release opening : RunHistory}

/-- What touches something later names it: a later version, or a later step of this version. -/
theorem TouchesLater.cases (h : TouchesLater version step call) :
    (∃ v, version < v ∧ NamesVersion v call) ∨
      ∃ s, step.id < s.id ∧ NamesStep version s call := by
  cases call with
  | control => exact h.elim
  | poison => exact h.elim
  | execute statement =>
      cases statement with
      | versionStatus => exact Or.inl ⟨_, h, rfl⟩
      | stepStatus =>
          rcases h with h | ⟨rfl, h⟩
          · exact Or.inl ⟨_, h, rfl⟩
          · exact Or.inr ⟨_, h, rfl, rfl⟩
      | apply =>
          rcases h with h | ⟨rfl, h⟩
          · exact Or.inl ⟨_, h, rfl⟩
          · exact Or.inr ⟨_, h, rfl, rfl⟩
      | verify =>
          rcases h with h | ⟨rfl, h⟩
          · exact Or.inl ⟨_, h, rfl⟩
          · exact Or.inr ⟨_, h, rfl, rfl⟩
      | _ => exact h.elim

theorem OfVersion.not_later {v : ℕ} (h : OfVersion v call) (hv : v < version) :
    ¬ TouchesLater version step call := by
  intro hlater
  rcases hlater.cases with ⟨w, hw, hnames⟩ | ⟨s, -, hnames⟩
  · have heq : v = w := hnames.eq h
    omega
  · have heq : v = version := hnames.namesVersion.eq h
    omega

theorem OfStep.not_later (h : OfStep version s call) (hs : ¬ step.id < s.id) :
    ¬ TouchesLater version step call := by
  intro hlater
  rcases hlater.cases with ⟨w, hw, hnames⟩ | ⟨t, ht, hnames⟩
  · have heq : version = w := hnames.eq h.ofVersion
    omega
  · rw [← hnames.eq h] at ht
    exact hs ht

theorem OfBootstrap.not_later {b : MigrationBootstrapStep} (h : OfBootstrap b call) :
    ¬ TouchesLater version step call := by
  intro hlater
  rcases hlater.cases with ⟨w, -, hnames⟩ | ⟨t, -, hnames⟩
  · exact h.not_names hnames
  · exact h.not_names hnames.namesVersion

theorem Released.not_later (h : Released release) (hevent : event ∈ release) :
    ¬ TouchesLater version step event.1 := by
  cases h with
  | confirmed =>
      rw [List.mem_singleton.mp hevent]
      exact id
  | poisoned => rcases List.mem_pair.mp hevent with rfl | rfl <;> exact id

theorem Opened.not_later {complete : Bool} (h : Opened definition complete opening)
    (hevent : event ∈ opening) : ¬ TouchesLater definition.version step event.1 := by
  cases h with
  | complete => cases hevent
  | recorded =>
      rw [List.mem_singleton.mp hevent]
      exact Nat.lt_irrefl definition.version

end Later

/-! ## The failure of a step -/

section Failure

variable {m : Manifest} {bootstrapSql : List MigrationBootstrapStep} {seconds : ℕ}
  {definition : MigrationDefinition} {step : MigrationStep} {events body work release : RunHistory}
  {report : MigrationReport} {turn r : Except MigrationReport MigrationReport}
  {response : SqlResponse} {answer : SqlResult} {complete : Bool} {recordedSteps : RecordedSteps}

/-- A run that stops at a step has gone through no turn of its version. -/
theorem StoppedAt.turn_failed (hstopped : StoppedAt definition.version step
      (stmt (.getLock seconds) answer :: (work ++ release)) report)
    (hlocked : LockedCourse m.definitions bootstrapSql (initialReport m.definitions) work r)
    (hturn : VersionTurn m.definitions bootstrapSql definition body turn work r)
    (hends : Ends r report) : turn = .error report := by
  have hset : report.failedStep ≠ [] := hstopped.set
  cases hturn with
  | @mk done rest r₀ boots before after r hm hboots hbefore hcourse hleft hthrough =>
  cases hturned : turn with
  | error failure =>
      obtain ⟨-, rfl⟩ := hleft failure hturned
      cases hends
      rfl
  | ok through =>
      exfalso
      have hrest := hthrough through hturned
      cases rest with
      | nil =>
          cases hrest
          cases hends with
          | released =>
              have hsucceeded := hlocked.status
              have hfailed := hstopped.failed
              rw [show through.status = .failed from hfailed] at hsucceeded
              cases hsucceeded
          | unreleased => exact hset rfl
      | cons d rest =>
          -- the next version was read
          rw [List.foldlM_cons] at hrest
          obtain ⟨read, hread⟩ : ∃ read, stmt (.versionState d.version) read ∈ after := by
            rcases runs_run_bind hrest with ⟨e, hturn, -⟩ | ⟨first, second, r', rfl, hturn, -⟩
            · cases hturn with
              | @call _ _ answer events _ _ => exact ⟨answer, List.mem_cons_self⟩
            · cases hturn with
              | @call _ _ answer events _ _ =>
                  exact ⟨answer, List.mem_append_left _ List.mem_cons_self⟩
          have hlast := hstopped.last d.version read (by simp [hread])
          have hversions := m.versions_increasing
          rw [hm, List.pairwise_append, List.pairwise_cons] at hversions
          have hlt := hversions.2.1.1 d List.mem_cons_self
          omega

/-- A turn of the inner loop that fails behind the RUNNING record of its step. -/
theorem StepCourse.failureTrace {report₀ : MigrationReport} (hrelease : Released release)
    (hcourse : StepCourse definition complete recordedSteps report₀ step body (.error report))
    (hrunning : stmt (.stepStatus definition.version step running []) (.ok response) ∈ body) :
    ∃ before response work records,
      body = before ++ stmt (.stepStatus definition.version step running []) (.ok response) ::
        (work ++ records) ∧ FailureTrace definition step work records release := by
  cases hcourse with
  | contradicted => cases hrunning
  | unrecovered => simp [running_ne_succeeded] at hrunning
  | @again existing answer events r _ _ _ _ hperformed =>
      rcases List.mem_cons.mp hrunning with heq | hrunning
      · cases heq
      obtain ⟨response, work, records, rfl, htrace⟩ := hperformed.failureTrace hrelease hrunning
      exact ⟨[stmt (.verify definition.version step) answer], response, work, records, rfl, htrace⟩
  | first _ _ hperformed =>
      obtain ⟨response, work, records, rfl, htrace⟩ := hperformed.failureTrace hrelease hrunning
      exact ⟨[], response, work, records, rfl, htrace⟩

/-- The report of a run that stops at a step does not come from a step behind it. -/
theorem StoppedAt.step_failed {rest : List MigrationStep} {doneSteps : List MigrationStep}
    (hstopped : StoppedAt definition.version step events report)
    (hids : definition.steps.Pairwise fun s t => s.id < t.id)
    (hsteps : definition.steps = doneSteps ++ step :: rest)
    (hpassed : report.failedStep = [] ∨ ∃ s ∈ rest, report.failedStep = s.id) : False := by
  rcases hpassed with hnone | ⟨s, hs, hid⟩
  · exact hstopped.set hnone
  · rw [hsteps, List.pairwise_append, List.pairwise_cons] at hids
    have hlt : step.id < s.id := hids.2.1.1 s hs
    rw [← hid, hstopped.named] at hlt
    exact List.lt_irrefl step.id hlt

/-- A step that fails behind its RUNNING record leaves a durable trace or a dead connection, and
nothing follows it: behind its work only the status writes of the step and its version are sent,
and the release of the lock; and no later step or version is touched in the whole run. -/
theorem failedStep_traced (m : Manifest) (bootstrapSql : List MigrationBootstrapStep)
    (lockTimeoutSeconds : ℕ) (events : RunHistory) (report : MigrationReport)
    (definition : MigrationDefinition) (step : MigrationStep) (response : SqlResponse)
    (hrun : Runs (run m.definitions bootstrapSql lockTimeoutSeconds) events report)
    (hdefinition : definition ∈ m.definitions)
    (hstopped : StoppedAt definition.version step events report)
    (hrunning : stmt (.stepStatus definition.version step running []) (.ok response) ∈ events) :
    (∃ before response work records release,
      events = before ++ stmt (.stepStatus definition.version step running []) (.ok response) ::
        (work ++ records ++ release) ∧ FailureTrace definition step work records release) ∧
    ∀ event ∈ events, ¬ TouchesLater definition.version step event.1 := by
  have hnames : NamesStep definition.version step (.execute (.stepStatus definition.version step
      running [])) := ⟨rfl, rfl⟩
  -- from the run to the turn of the version, and from there to the turn of the step
  obtain ⟨granted, work, release, r, rfl, hwork, hlocked, hrelease, hends⟩ :=
    (runCourse hrun).locked_of_names hnames.namesVersion hrunning
  obtain ⟨d, hd, hversion, body, turn, hbody, hturn⟩ := hlocked.turn hnames.namesVersion hwork
  obtain rfl := m.version_unique hd hdefinition hversion
  obtain rfl := hstopped.turn_failed hlocked hturn hends
  cases hturn with
  | @mk done rest r₀ boots before after r hm hboots hbefore hcourse hleft _ =>
  obtain ⟨rfl, rfl⟩ := hleft report rfl
  have hids := m.ids_increasing d hd
  have hversions := m.versions_increasing
  rw [hm, List.pairwise_append] at hversions
  cases hcourse with
  | refused hrefused => rcases hrefused.reads hbody with heq | heq <;> cases heq
  | @worked versionState recorded complete recordedSteps work r _ _ hwork =>
  have hmem : stmt (.stepStatus d.version step running []) (.ok response) ∈ work := by
    rcases List.mem_cons.mp hbody with heq | hbody
    · cases heq
    rcases List.mem_cons.mp hbody with heq | hbody
    · cases heq
    · exact hbody
  obtain ⟨stepBody, stepTurn, hstepBody, hstepTurn⟩ := hwork.turn hnames hmem
  cases hstepTurn with
  | @mk doneSteps restSteps report₁ opening past future r hsteps hopened hpast hof hstepCourse
      hfailed hpassed =>
  -- the step that the report names is the one of this turn
  cases stepTurn with
  | ok through => exact (hstopped.step_failed hids hsteps (hpassed through report rfl rfl)).elim
  | error failure =>
  obtain ⟨rfl, heq⟩ := hfailed failure rfl
  cases heq
  obtain ⟨verified, response', work, records, hsplit, htrace⟩ :=
    hstepCourse.failureTrace hrelease hstepBody
  constructor
  · refine ⟨stmt (.getLock lockTimeoutSeconds) granted :: (boots ++ (before ++
      stmt (.versionState d.version) (.ok versionState) ::
        stmt (.recordedSteps d.version) (.ok recorded) :: (opening ++ (past ++ verified)))),
      response', work, records, release, ?_, htrace⟩
    rw [hsplit]
    simp
  intro event hevent
  -- the parts of the run, in their order: versions and steps only grow
  simp only [List.mem_cons, List.mem_append, List.append_nil] at hevent
  rcases hevent with rfl | (hboot | hdone | rfl | rfl | hopening | hold | hlast) | hreleased
  · exact id
  · obtain ⟨b, -, hb⟩ := hboots event hboot
    exact hb.not_later
  · obtain ⟨d', hd', hof⟩ := hbefore event hdone
    exact hof.not_later (hversions.2.2 d' hd' d List.mem_cons_self)
  · exact id
  · exact id
  · exact hopened.not_later hopening
  · obtain ⟨s, hs, hof⟩ := hpast event hold
    rw [hsteps, List.pairwise_append] at hids
    exact hof.not_later (List.lt_asymm (hids.2.2 s hs step List.mem_cons_self))
  · exact (hof event hlast).not_later (List.lt_irrefl step.id)
  · exact hrelease.not_later hreleased

end Failure

section Witness

/-- A server on which the seed cannot be inserted. -/
def unseedable : (call : ExecutorCall MigrationStatement) → Unit → call.Answer × Unit
  | .execute (.versionState _), s => (.ok {}, s)
  | .execute (.recordedSteps _), s => (.ok {}, s)
  | .execute (.apply ..), s => (.error { code := .constraint }, s)
  | .execute _, s => (.ok { rows := [[some (lit "1")]] }, s)
  | .control _, s => (.ok {}, s)
  | .poison, s => ((), s)

def brokenStart : RunHistory × MigrationReport :=
  (run seedManifest.definitions [metadataTable]).exec unseedable ()

/-- The version that a call reads, if it does. -/
def versionRead : ExecutorCall MigrationStatement → ℕ
  | .execute (.versionState version) => version
  | _ => 0

theorem failedStep_traced_seed :
    StoppedAt 1 seedStep brokenStart.1 brokenStart.2 ∧
      ∀ event ∈ brokenStart.1, ¬ TouchesLater 1 seedStep event.1 := by
  have hreads : (brokenStart.1.all fun event => decide (versionRead event.1 ≤ 1)) = true := by decide
  have hstopped : StoppedAt 1 seedStep brokenStart.1 brokenStart.2 := by
    refine ⟨by decide, by decide, by decide, fun v answer hread => ?_⟩
    exact of_decide_eq_true (List.all_eq_true.mp hreads _ hread)
  have hrunning : stmt (.stepStatus 1 seedStep running []) (.ok { rows := [[some (lit "1")]] }) ∈
      brokenStart.1 := List.mem_iff_getElem?.mpr ⟨6, rfl⟩
  exact ⟨hstopped, (failedStep_traced seedManifest [metadataTable] 10 brokenStart.1 brokenStart.2
    ⟨1, lit "001_seed", [seedStep]⟩ seedStep _ (runs_exec unseedable _ ()) (by simp [seedManifest])
    hstopped hrunning).2⟩

end Witness

end Warehouse.Mysql.Migration
