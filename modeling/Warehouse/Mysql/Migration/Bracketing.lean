/-
# Warehouse.Mysql.Migration.Bracketing — when the SQL of a step is sent, and in which transaction

The manifest's own SQL is the part of a run that cannot be undone, so this module follows it through
the statement trace.  Which steps it is sent for is decided by the two reads at the start of a
version; whether it is sent again, by the row of the step; and in which transaction it runs, by the
execution of the step.

The walk over the program demands of every statement what has to be in the history before it.  What
has to come *after* an apply statement is read off the protocol that the runner keeps to as a client
of its session: the transaction is ended, and the demands at COMMIT and at ROLLBACK say how.
-/
import Warehouse.Mysql.Migration.Gate
import Warehouse.Mysql.SessionDiscipline

namespace Warehouse.Mysql.Migration

open Warehouse.Interaction Warehouse.Interaction.Program

/-! ## What the history says -/

/-- The row of the version says SUCCEEDED. -/
def SaysSucceeded (response : SqlResponse) : Prop :=
  ∃ name rest, response.rows = [some name, some succeeded] :: rest

/-- The version was found recorded as SUCCEEDED. -/
def VersionSucceeded (version : ℕ) (h : RunHistory) : Prop :=
  ∃ response, stmt (.versionState version) (.ok response) ∈ h ∧ SaysSucceeded response

/-- The step was found recorded. -/
def StepFound (version : ℕ) (id : Bytes) (h : RunHistory) : Prop :=
  ∃ response row, stmt (.recordedSteps version) (.ok response) ∈ h ∧
    rowOf id response.rows = some row

/-- The step was found recorded as SUCCEEDED. -/
def StepSucceeded (version : ℕ) (id : Bytes) (h : RunHistory) : Prop :=
  ∃ response recorded, stmt (.recordedSteps version) (.ok response) ∈ h ∧
    rowOf id response.rows = some (RecordedStep.row recorded id) ∧ recorded.status = succeeded

/-- Both reads were answered, and neither the version nor the step was SUCCEEDED. -/
structure Outstanding (version : ℕ) (step : MigrationStep) (h : RunHistory) : Prop where
  required : step.Required
  versionRead : ∃ response, stmt (.versionState version) (.ok response) ∈ h ∧
    ¬ SaysSucceeded response
  stepRead : ∃ response, stmt (.recordedSteps version) (.ok response) ∈ h ∧
    ∀ recorded, rowOf step.id response.rows = some (RecordedStep.row recorded step.id) →
      recorded.status ≠ succeeded

/-- No row was found for the step, or its verify SQL was sent without a truthy answer. -/
def Refuted (version : ℕ) (step : MigrationStep) (h : RunHistory) : Prop :=
  (∃ response, stmt (.recordedSteps version) (.ok response) ∈ h ∧ rowOf step.id response.rows = none) ∨
    ∃ answer, stmt (.verify version step) answer ∈ h ∧ confirmed answer = false

/-- The apply SQL of the step may be sent. -/
structure Due (version : ℕ) (step : MigrationStep) (h : RunHistory) : Prop
    extends Outstanding version step h where
  running : ∃ response, stmt (.stepStatus version step running []) (.ok response) ∈ h
  refuted : Refuted version step h

/-- What an event does to the question whether a transaction is open.  A START counts as soon as it
is sent, an end only when it is acknowledged. -/
def transactionStep (isOpen : Bool) : RunEvent → Bool
  | ⟨.control (.start _), _⟩ => true
  | ⟨.control .commit, .ok _⟩ => false
  | ⟨.control .rollback, .ok _⟩ => false
  | _ => isOpen

/-- A transaction is open, or may be. -/
def transactionOpen (h : RunHistory) : Bool := h.foldl transactionStep false

/-- The last event was the start of a transaction. -/
def Inside (h : RunHistory) : Prop :=
  ∃ before started, h = before ++ [ctrl (.start .command) (.ok started)]

/-- The transaction holds one apply statement that succeeded, and a truthy verification of it. -/
def MayCommit (h : RunHistory) : Prop :=
  ∃ before started version step applied verified,
    h = before ++ [ctrl (.start .command) (.ok started), stmt (.apply version step) (.ok applied),
      stmt (.verify version step) verified] ∧ confirmed verified = true

/-- The transaction holds one apply statement, and it failed or its verification did not confirm it. -/
def MustRollBack (h : RunHistory) : Prop :=
  (∃ before started version step e,
    h = before ++ [ctrl (.start .command) (.ok started), stmt (.apply version step) (.error e)]) ∨
  ∃ before started version step applied verified,
    h = before ++ [ctrl (.start .command) (.ok started), stmt (.apply version step) (.ok applied),
      stmt (.verify version step) verified] ∧ confirmed verified = false

section Facts

variable {version : ℕ} {step : MigrationStep} {h h' : RunHistory} {event : RunEvent}

theorem Outstanding.mono (hh : h <+: h') (ho : Outstanding version step h) :
    Outstanding version step h' where
  required := ho.required
  versionRead := by
    obtain ⟨response, hmem, hcomplete⟩ := ho.versionRead
    exact ⟨response, hh.subset hmem, hcomplete⟩
  stepRead := by
    obtain ⟨response, hmem, hstatus⟩ := ho.stepRead
    exact ⟨response, hh.subset hmem, hstatus⟩

theorem Refuted.mono (hh : h <+: h') : Refuted version step h → Refuted version step h' := by
  rintro (⟨response, hmem, hnone⟩ | ⟨answer, hmem, hunconfirmed⟩)
  · exact Or.inl ⟨response, hh.subset hmem, hnone⟩
  · exact Or.inr ⟨answer, hh.subset hmem, hunconfirmed⟩

theorem Due.mono (hh : h <+: h') (hdue : Due version step h) : Due version step h' where
  toOutstanding := hdue.toOutstanding.mono hh
  running := by
    obtain ⟨response, hmem⟩ := hdue.running
    exact ⟨response, hh.subset hmem⟩
  refuted := hdue.refuted.mono hh

theorem transactionOpen_append (h new : RunHistory) :
    transactionOpen (h ++ new) = new.foldl transactionStep (transactionOpen h) := by
  unfold transactionOpen
  rw [List.foldl_append]

/-- Only control statements open or end a transaction. -/
theorem transactionOpen_quiet {new : RunHistory}
    (hnew : ∀ event ∈ new, event.1.isControl = false) :
    transactionOpen (h ++ new) = transactionOpen h := by
  rw [transactionOpen_append]
  induction new generalizing h with
  | nil => rfl
  | cons event new ih =>
      have hevent : event.1.isControl = false := hnew event List.mem_cons_self
      have hsame : transactionStep (transactionOpen h) event = transactionOpen h := by
        obtain ⟨op, answer⟩ := event
        cases op with
        | control => cases hevent
        | execute => rfl
        | poison => rfl
      rw [List.foldl_cons, hsame]
      exact ih fun event hmem => hnew event (List.mem_cons_of_mem _ hmem)

theorem confirmed_of_verdict {answer : SqlResult} : verdict answer = .ok () ↔ confirmed answer = true := by
  cases answer with
  | error e => simp [verdict, confirmed]
  | ok response =>
      by_cases htrue : truthy response = true
      · simp [verdict, confirmed, htrue]
      · simp [verdict, confirmed, htrue]

end Facts

/-! ## The demand at every statement -/

/-- Where the apply SQL of a step belongs. -/
def Placed (step : MigrationStep) (h : RunHistory) : Prop :=
  match step.execution with
  | .check => False
  | .atomicDdl => transactionOpen h = false
  | .transactionalDml => Inside h

/-- What has to be in the history before a statement is sent. -/
def bracketDemand (h : RunHistory) : RunEvent → Prop
  | ⟨.execute (.versionState version), _⟩ => ∀ answer, stmt (.versionState version) answer ∉ h
  | ⟨.execute (.recordedSteps version), _⟩ => ∀ answer, stmt (.recordedSteps version) answer ∉ h
  | ⟨.execute (.verify version step), _⟩ => Outstanding version step h
  | ⟨.execute (.apply version step), _⟩ =>
      Due version step h ∧ (∀ answer, stmt (.apply version step) answer ∉ h) ∧ Placed step h
  | ⟨.control .commit, _⟩ => MayCommit h
  | ⟨.control .rollback, _⟩ => MustRollBack h
  | _ => True

/-- The calls of which nothing is demanded. -/
def Undemanding : ExecutorCall MigrationStatement → Prop
  | .execute (.versionState _) => False
  | .execute (.recordedSteps _) => False
  | .execute (.verify ..) => False
  | .execute (.apply ..) => False
  | .execute _ => True
  | .control _ => False
  | .poison => True

theorem Undemanding.demand {h : RunHistory} {event : RunEvent} (hevent : Undemanding event.1) :
    bracketDemand h event := by
  obtain ⟨op, answer⟩ := event
  cases op with
  | control => exact hevent.elim
  | poison => trivial
  | execute statement =>
      cases statement with
      | versionState => exact hevent.elim
      | recordedSteps => exact hevent.elim
      | verify => exact hevent.elim
      | apply => exact hevent.elim
      | _ => trivial

/-! ## The work of one step -/

section Walk

variable {version : ℕ} {step : MigrationStep} {h h' : RunHistory}
  {definition : MigrationDefinition} {report : MigrationReport}

/-- A transaction that was begun: the two statements are the last events. -/
theorem begin_bracket (mode : WorkUnitMode) :
    wph bracketDemand
      (fun r h' => ∀ t, r = .ok t → t = .opened ∧ ∃ isolated started,
        h' = h ++ [ctrl (.setIsolation mode) (.ok isolated), ctrl (.start mode) (.ok started)])
      (Transaction.begin mode) h := by
  refine (wph_call _ _ h).mpr fun answer => ⟨trivial, ?_⟩
  rcases answer with e | isolated
  · refine (wph_call _ _ _).mpr fun _ => ⟨trivial, ?_⟩
    intro t ht
    cases ht
  refine (wph_call _ _ _).mpr fun answer => ⟨trivial, ?_⟩
  rcases answer with e | started
  · refine (wph_call _ _ _).mpr fun _ => ⟨trivial, ?_⟩
    intro t ht
    cases ht
  · intro t ht
    cases ht
    exact ⟨rfl, isolated, started, by simp⟩

/-- What was not sent before is not sent by other statements. -/
theorem not_mem_append {new : RunHistory} {statement : MigrationStatement}
    (hfirst : ∀ answer, stmt statement answer ∉ h) (hnew : ∀ answer, stmt statement answer ∉ new) :
    ∀ answer, stmt statement answer ∉ h ++ new := by
  intro answer hmem
  rcases List.mem_append.mp hmem with hold | hadded
  · exact hfirst answer hold
  · exact hnew answer hadded

/-- Giving up a transaction that must be rolled back. -/
theorem abandon_bracket {α : Type} {Q : α → RunHistory → Prop} {a : α} (hback : MustRollBack h)
    (hQ : ∀ h, Q a h) :
    wph bracketDemand Q
      (do
        let transaction ← Transaction.opened.rollback
        transaction.destroy
        return a) h := by
  refine (wph_call _ _ h).mpr fun answer => ⟨hback, ?_⟩
  rcases answer with e | response
  · exact (wph_call _ _ _).mpr fun _ => ⟨trivial, hQ _⟩
  · exact hQ _

theorem verifyStep_bracket {Q : Except Bytes Unit → RunHistory → Prop}
    (houtstanding : Outstanding version step h)
    (hQ : ∀ answer, Q (verdict answer) (h ++ [stmt (.verify version step) answer])) :
    wph bracketDemand Q (verifyStep version step) h :=
  (wph_call _ _ h).mpr fun answer => ⟨houtstanding, hQ answer⟩

theorem applyTransactional_bracket (hdue : Due version step h)
    (hfirst : ∀ answer, stmt (.apply version step) answer ∉ h)
    (hexecution : step.execution = .transactionalDml) :
    wph bracketDemand (fun r h' => r = .ok () → transactionOpen h' = false)
      (applyTransactional version step) h := by
  refine (wp_bind _ _ _).mpr (wp_post (begin_bracket .command) ?_)
  rintro (e | t) h₁ hbegun
  · intro hok
    cases hok
  obtain ⟨rfl, isolated, started, rfl⟩ := hbegun t rfl
  have hinside : Inside (h ++ [ctrl (.setIsolation .command) (.ok isolated),
      ctrl (.start .command) (.ok started)]) :=
    ⟨h ++ [ctrl (.setIsolation .command) (.ok isolated)], started, by simp⟩
  have hplaced : Placed step (h ++ [ctrl (.setIsolation .command) (.ok isolated),
      ctrl (.start .command) (.ok started)]) := by
    unfold Placed
    rw [hexecution]
    exact hinside
  have hfirst' : ∀ answer, stmt (.apply version step) answer ∉
      h ++ [ctrl (.setIsolation .command) (.ok isolated), ctrl (.start .command) (.ok started)] :=
    not_mem_append hfirst (by simp)
  refine (wph_call _ _ _).mpr fun answer =>
    ⟨⟨hdue.mono (List.prefix_append _ _), hfirst', hplaced⟩, ?_⟩
  rcases answer with e | applied
  · refine abandon_bracket (Or.inl ?_) (fun h hok => by cases hok)
    exact ⟨h ++ [ctrl (.setIsolation .command) (.ok isolated)], started, version, step, e, by simp⟩
  refine (wp_bind (verifyStep version step) _ _).mpr (verifyStep_bracket ?_ ?_)
  · exact (hdue.toOutstanding.mono (List.prefix_append _ _)).mono (List.prefix_append _ _)
  intro verified
  cases hverdict : verdict verified with
  | error stepError =>
      refine abandon_bracket (Or.inr ?_) (fun h hok => by cases hok)
      have hunconfirmed : confirmed verified = false := by
        rw [← Bool.not_eq_true, ← confirmed_of_verdict, hverdict]
        simp
      exact ⟨h ++ [ctrl (.setIsolation .command) (.ok isolated)], started, version, step, applied,
        verified, by simp, hunconfirmed⟩
  | ok _ =>
      refine (wph_call _ _ _).mpr fun answer => ⟨?_, ?_⟩
      · exact ⟨h ++ [ctrl (.setIsolation .command) (.ok isolated)], started, version, step, applied,
          verified, by simp, confirmed_of_verdict.mp hverdict⟩
      rcases answer with e | committed
      · refine (wph_call _ _ _).mpr fun _ => ⟨trivial, ?_⟩
        intro hok
        cases hok
      · intro _
        simp [transactionOpen_append, transactionStep]

/-- A statement of the runner's own between transactions leaves it there. -/
theorem transactionOpen_execute {statement : MigrationStatement} {answer : SqlResult}
    (hclosed : transactionOpen h = false) :
    transactionOpen (h ++ [stmt statement answer]) = false := by
  rw [transactionOpen_quiet, hclosed]
  intro event hmem
  rw [List.mem_singleton.mp hmem]
  rfl

theorem applyStep_bracket (hdue : Due version step h)
    (hfirst : ∀ answer, stmt (.apply version step) answer ∉ h)
    (hclosed : transactionOpen h = false) :
    wph bracketDemand (fun r h' => r = .ok () → transactionOpen h' = false)
      (applyStep version step) h := by
  unfold applyStep
  cases hexecution : step.execution with
  | transactionalDml => exact applyTransactional_bracket hdue hfirst hexecution
  | atomicDdl =>
      have hplaced : Placed step h := by
        unfold Placed
        rw [hexecution]
        exact hclosed
      refine (wph_call _ _ h).mpr fun answer => ⟨⟨hdue, hfirst, hplaced⟩, ?_⟩
      rcases answer with e | response
      · intro hok
        cases hok
      · refine verifyStep_bracket (hdue.toOutstanding.mono (List.prefix_append _ _)) ?_
        exact fun answer _ => transactionOpen_execute (transactionOpen_execute hclosed)
  | check =>
      exact verifyStep_bracket hdue.toOutstanding fun answer _ => transactionOpen_execute hclosed

/-- Nothing is demanded of code without the statements that matter. -/
theorem undemanding_bracket {α : Type} {p : SqlProgram MigrationStatement α}
    (hemits : p.Emits Undemanding) : wph bracketDemand (fun _ _ => True) p h :=
  wph_of_emits hemits (fun _ _ hevent => hevent.demand) h

theorem OfRecord.undemanding {call : ExecutorCall MigrationStatement}
    (h : OfRecord version step call) : Undemanding call := by
  cases call with
  | control => exact h.elim
  | poison => trivial
  | execute statement =>
      cases statement with
      | stepStatus => trivial
      | versionStatus => trivial
      | _ => exact h.elim

theorem performStep_bracket (houtstanding : Outstanding definition.version step h)
    (hrefuted : Refuted definition.version step h)
    (hfirst : ∀ answer, stmt (.apply definition.version step) answer ∉ h)
    (hclosed : transactionOpen h = false) :
    wpx recording (demand bracketDemand) (fun _ h' => transactionOpen h' = false)
      (fun _ _ => True) (performStep definition report step) h := by
  refine (wph_call _ _ h).mpr fun answer => ⟨trivial, ?_⟩
  rcases answer with e | response
  · trivial
  have hprefix := List.prefix_append h
    [stmt (.stepStatus definition.version step running []) (.ok response)]
  have hdue : Due definition.version step
      (h ++ [stmt (.stepStatus definition.version step running []) (.ok response)]) :=
    ⟨houtstanding.mono hprefix, ⟨response, by simp⟩, hrefuted.mono hprefix⟩
  refine (wpx_bind _ _ _).mpr ((wpx_lift _ _).mpr (wp_post (applyStep_bracket hdue ?_ ?_) ?_))
  · exact not_mem_append hfirst (by simp)
  · exact transactionOpen_execute hclosed
  rintro (stepError | _) h₂ happlied
  · refine (wpx_bind _ _ _).mpr ((wpx_lift _ _).mpr
      (wp_post (undemanding_bracket ?_) fun _ _ _ => trivial))
    exact (emits_recordFailure stepError).mono fun _ hcall => hcall.undemanding
  · refine (wph_call _ _ h₂).mpr fun answer => ⟨trivial, ?_⟩
    rcases answer with e | response
    · exact (wph_call _ _ _).mpr fun _ => ⟨trivial, trivial⟩
    · exact transactionOpen_execute (happlied rfl)

theorem recoverStep_bracket (houtstanding : Outstanding definition.version step h)
    (hfirst : ∀ answer, stmt (.apply definition.version step) answer ∉ h)
    (hclosed : transactionOpen h = false) :
    wpx recording (demand bracketDemand) (fun _ h' => transactionOpen h' = false)
      (fun _ _ => True) (recoverStep definition report step) h := by
  refine (wpx_bind _ _ _).mpr ((wpx_lift _ _).mpr (verifyStep_bracket houtstanding ?_))
  intro verified
  have hclosed₁ : transactionOpen (h ++ [stmt (.verify definition.version step) verified]) = false :=
    transactionOpen_execute hclosed
  cases hverdict : verdict verified with
  | ok _ =>
      refine (wph_call _ _ _).mpr fun answer => ⟨trivial, ?_⟩
      rcases answer with e | response
      · trivial
      · exact transactionOpen_execute hclosed₁
  | error stepError =>
      have hunconfirmed : confirmed verified = false := by
        rw [← Bool.not_eq_true, ← confirmed_of_verdict, hverdict]
        simp
      refine performStep_bracket (houtstanding.mono (List.prefix_append _ _))
        (Or.inr ⟨verified, by simp, hunconfirmed⟩) ?_ hclosed₁
      exact not_mem_append hfirst (by simp)

end Walk

/-! ## How far a run has come -/

/-- No transaction is open, the apply SQL of no step but those of `P` was sent, and no version but
those of `V` was read. -/
structure Clear (P : ℕ → MigrationStep → Prop) (V : ℕ → Prop) (h : RunHistory) : Prop where
  closed : transactionOpen h = false
  applied : ∀ v s answer, stmt (.apply v s) answer ∈ h → P v s
  versionReads : ∀ v answer, stmt (.versionState v) answer ∈ h → V v
  stepReads : ∀ v answer, stmt (.recordedSteps v) answer ∈ h → V v

/-- What the two reads have left in the variables of the loop body. -/
structure ReadAs (definition : MigrationDefinition) (versionWasComplete : Bool)
    (recordedSteps : RecordedSteps) (h : RunHistory) : Prop where
  version : versionWasComplete = false →
    ∃ response, stmt (.versionState definition.version) (.ok response) ∈ h ∧ ¬ SaysSucceeded response
  steps : ∃ response, stmt (.recordedSteps definition.version) (.ok response) ∈ h ∧
    (∀ id, recordedSteps.lookup id = none → rowOf id response.rows = none) ∧
    ∀ id recorded, recordedSteps.lookup id = some recorded →
      rowOf id response.rows = some (recorded.row id)

section Loops

variable {m : Manifest} {version : ℕ} {step : MigrationStep} {h h' new : RunHistory}
  {definition : MigrationDefinition} {report : MigrationReport}
  {done rest : List MigrationDefinition} {doneSteps restSteps : List MigrationStep}
  {P P' : ℕ → MigrationStep → Prop} {V V' : ℕ → Prop} {versionWasComplete : Bool}
  {recordedSteps : RecordedSteps}

theorem Clear.mono (hc : Clear P V h) (hP : ∀ v s, P v s → P' v s) (hV : ∀ v, V v → V' v) :
    Clear P' V' h where
  closed := hc.closed
  applied v s answer hmem := hP v s (hc.applied v s answer hmem)
  versionReads v answer hmem := hV v (hc.versionReads v answer hmem)
  stepReads v answer hmem := hV v (hc.stepReads v answer hmem)

/-- A run goes on: no transaction is left open, and what it sends is where it may be. -/
theorem Clear.append (hc : Clear P V h) (hP : ∀ v s, P v s → P' v s)
    (hclosed : transactionOpen (h ++ new) = false)
    (happlied : ∀ v s answer, stmt (.apply v s) answer ∈ new → P' v s)
    (hversions : ∀ v answer, stmt (.versionState v) answer ∈ new → V v)
    (hsteps : ∀ v answer, stmt (.recordedSteps v) answer ∈ new → V v) :
    Clear P' V (h ++ new) where
  closed := hclosed
  applied v s answer hmem := by
    rcases List.mem_append.mp hmem with hold | hadded
    · exact hP v s (hc.applied v s answer hold)
    · exact happlied v s answer hadded
  versionReads v answer hmem := by
    rcases List.mem_append.mp hmem with hold | hadded
    · exact hc.versionReads v answer hold
    · exact hversions v answer hadded
  stepReads v answer hmem := by
    rcases List.mem_append.mp hmem with hold | hadded
    · exact hc.stepReads v answer hold
    · exact hsteps v answer hadded

/-- Statements of which nothing is demanded leave a run where it is. -/
theorem Clear.undemanding (hc : Clear P V h) (hnew : ∀ event ∈ new, Undemanding event.1) :
    Clear P V (h ++ new) := by
  have hclosed : transactionOpen (h ++ new) = false := by
    rw [transactionOpen_quiet, hc.closed]
    intro event hmem
    obtain ⟨op, answer⟩ := event
    have hevent : Undemanding op := hnew _ hmem
    cases op with
    | control => exact hevent.elim
    | execute => rfl
    | poison => rfl
  apply hc.append (fun _ _ hold => hold) hclosed
  · exact fun v s answer hmem => (hnew _ hmem).elim
  · exact fun v answer hmem => (hnew _ hmem).elim
  · exact fun v answer hmem => (hnew _ hmem).elim

/-- The two reads of a version. -/
theorem Clear.read {versionState recorded : SqlResult} (hc : Clear P V h) (hversion : V version) :
    Clear P V (h ++ [stmt (.versionState version) versionState] ++
      [stmt (.recordedSteps version) recorded]) := by
  have hclosed : transactionOpen (h ++ [stmt (.versionState version) versionState]) = false :=
    transactionOpen_execute hc.closed
  have hfirst : Clear P V (h ++ [stmt (.versionState version) versionState]) := by
    apply hc.append (fun _ _ hold => hold) hclosed
    · exact fun v s answer hmem => by cases List.mem_singleton.mp hmem
    · intro v answer hmem
      cases List.mem_singleton.mp hmem
      exact hversion
    · exact fun v answer hmem => by cases List.mem_singleton.mp hmem
  apply hfirst.append (fun _ _ hold => hold) (transactionOpen_execute hclosed)
  · exact fun v s answer hmem => by cases List.mem_singleton.mp hmem
  · exact fun v answer hmem => by cases List.mem_singleton.mp hmem
  · intro v answer hmem
    cases List.mem_singleton.mp hmem
    exact hversion

/-- The work of the next step takes a run over that step. -/
theorem Clear.next (hc : Clear (Through done definition doneSteps) V h)
    (hnew : ∀ event ∈ new, OfStep definition.version step event.1)
    (hclosed : transactionOpen (h ++ new) = false) :
    Clear (Through done definition (doneSteps ++ [step])) V (h ++ new) := by
  refine hc.append ?_ hclosed ?_ (fun v answer hmem => (hnew _ hmem).elim)
    (fun v answer hmem => (hnew _ hmem).elim)
  · rintro v s (hdone | ⟨hversion, hs⟩)
    · exact Or.inl hdone
    · exact Or.inr ⟨hversion, List.mem_append_left _ hs⟩
  · intro v s answer hmem
    obtain ⟨hversion, rfl⟩ := hnew _ hmem
    exact Or.inr ⟨hversion, by simp⟩

theorem ReadAs.mono (hh : h <+: h') (hread : ReadAs definition versionWasComplete recordedSteps h) :
    ReadAs definition versionWasComplete recordedSteps h' where
  version hincomplete := by
    obtain ⟨response, hmem, hstate⟩ := hread.version hincomplete
    exact ⟨response, hh.subset hmem, hstate⟩
  steps := by
    obtain ⟨response, hmem, hnone, hsome⟩ := hread.steps
    exact ⟨response, hh.subset hmem, hnone, hsome⟩

/-- A version read as incomplete does not say SUCCEEDED. -/
theorem readVersionState_incomplete {response : SqlResponse}
    (h : readVersionState definition report response.rows = .ok false) : ¬ SaysSucceeded response := by
  rintro ⟨name, rest, hrows⟩
  rw [hrows] at h
  unfold readVersionState at h
  dsimp only at h
  split at h
  · cases h
  · simp at h

theorem readAs_of_reads {versionState recorded : SqlResponse}
    (hversionRead : stmt (.versionState definition.version) (.ok versionState) ∈ h)
    (hstepRead : stmt (.recordedSteps definition.version) (.ok recorded) ∈ h)
    (hversion : readVersionState definition report versionState.rows = .ok versionWasComplete)
    (hrecorded : readRecordedSteps definition report [] recorded.rows = .ok recordedSteps) :
    ReadAs definition versionWasComplete recordedSteps h where
  version hincomplete :=
    ⟨versionState, hversionRead, readVersionState_incomplete (hincomplete ▸ hversion)⟩
  steps := by
    refine ⟨recorded, hstepRead, fun id hnone => readRecordedSteps_lookup_none hrecorded hnone, ?_⟩
    intro id step hlookup
    rcases (readRecordedSteps_lookup hrecorded).mp hlookup with hnil | ⟨_, hrow⟩
    · cases hnil
    · exact hrow

/-- A step of an incomplete version whose row does not say SUCCEEDED is outstanding. -/
theorem ReadAs.outstanding (hread : ReadAs definition versionWasComplete recordedSteps h)
    (hrequired : step.Required) (hincomplete : versionWasComplete = false)
    (hstatus : ∀ existing, recordedSteps.lookup step.id = some existing →
      existing.status ≠ succeeded) : Outstanding definition.version step h where
  required := hrequired
  versionRead := hread.version hincomplete
  stepRead := by
    obtain ⟨response, hmem, hnone, hsome⟩ := hread.steps
    refine ⟨response, hmem, ?_⟩
    intro recorded hrow
    cases hlookup : recordedSteps.lookup step.id with
    | none =>
        rw [hnone step.id hlookup] at hrow
        cases hrow
    | some existing =>
        have hsame : existing.row step.id = recorded.row step.id := by
          apply Option.some.inj
          rw [← hsome step.id existing hlookup, hrow]
        rw [← (RecordedStep.row_inj hsame).2]
        exact hstatus existing hlookup

theorem runStep_bracket (hread : ReadAs definition versionWasComplete recordedSteps h)
    (hfirst : ∀ answer, stmt (.apply definition.version step) answer ∉ h)
    (hclosed : transactionOpen h = false) :
    wpx recording (demand bracketDemand) (fun _ h' => transactionOpen h' = false)
      (fun _ _ => True) (runStep definition versionWasComplete recordedSteps report step) h := by
  unfold runStep
  by_cases hcleanup : step.phase = .cleanup
  · rw [if_pos hcleanup]
    exact hclosed
  rw [if_neg hcleanup]
  cases hlookup : recordedSteps.lookup step.id with
  | some existing =>
      by_cases hstale : versionWasComplete = true ∧ existing.status ≠ succeeded
      · simp only [if_pos hstale]
        trivial
      simp only [if_neg hstale]
      by_cases hsucceeded : existing.status = succeeded
      · rw [if_pos hsucceeded]
        exact hclosed
      · rw [if_neg hsucceeded]
        have hincomplete : versionWasComplete = false := by
          rw [← Bool.not_eq_true]
          exact fun hcomplete => hstale ⟨hcomplete, hsucceeded⟩
        refine recoverStep_bracket (hread.outstanding hcleanup hincomplete ?_) hfirst hclosed
        intro found hfound
        rw [hlookup] at hfound
        cases hfound
        exact hsucceeded
  | none =>
      by_cases hcomplete : versionWasComplete = true
      · simp only [if_pos hcomplete]
        trivial
      · simp only [if_neg hcomplete]
        rw [Bool.not_eq_true] at hcomplete
        have houtstanding : Outstanding definition.version step h := by
          refine hread.outstanding hcleanup hcomplete ?_
          intro found hfound
          rw [hlookup] at hfound
          cases hfound
        obtain ⟨response, hmem, hnone, _⟩ := hread.steps
        exact performStep_bracket houtstanding (Or.inl ⟨response, hmem, hnone step.id hlookup⟩)
          hfirst hclosed

theorem runSteps_bracket (hm : m.definitions = done ++ definition :: rest)
    (hc : Clear (Handled done) V h)
    (hread : ReadAs definition versionWasComplete recordedSteps h) :
    wpx recording (demand bracketDemand)
      (fun _ h' => Clear (Handled (done ++ [definition])) V h') (fun _ _ => True)
      (definition.steps.foldlM (runStep definition versionWasComplete recordedSteps) report) h := by
  let I (doneSteps : List MigrationStep) (_ : MigrationReport) (h' : RunHistory) : Prop :=
    h <+: h' ∧ Clear (Through done definition doneSteps) V h'
  have hstart : I [] report h :=
    ⟨List.prefix_refl h, hc.mono (fun _ _ hdone => Or.inl hdone) (fun _ hV => hV)⟩
  refine wpx_post (wpx_foldlM I ?_ hstart) ?_ (fun _ _ hX => hX)
  · rintro doneSteps step restSteps r h₁ hsteps ⟨hext, hclear⟩
    have hfirst : ∀ answer, stmt (.apply definition.version step) answer ∉ h₁ := fun answer hmem =>
      not_through_self hm hsteps (hclear.applied _ _ _ hmem)
    refine wpx_post (wpx_emits (runStep_bracket (hread.mono hext) hfirst hclear.closed)
      (emits_runStep _ _)) ?_ (fun _ _ hX => hX)
    rintro r' h₂ ⟨new, rfl, hnew, hclosed⟩
    exact ⟨hext.trans (List.prefix_append h₁ new), hclear.next hnew hclosed⟩
  · rintro r h' ⟨_, hclear⟩
    refine hclear.mono ?_ (fun _ hV => hV)
    rintro v s (⟨d, hd, hversion, hs⟩ | ⟨rfl, hs⟩)
    · exact ⟨d, List.mem_append_left _ hd, hversion, hs⟩
    · exact ⟨definition, by simp, rfl, hs⟩

/-- The versions of the definitions that are done. -/
def VersionIn (done : List MigrationDefinition) (version : ℕ) : Prop :=
  ∃ d ∈ done, d.version = version

theorem not_versionIn (hm : m.definitions = done ++ definition :: rest) :
    ¬ VersionIn done definition.version := by
  have hversions := m.versions_increasing
  rw [hm, List.pairwise_append] at hversions
  rintro ⟨d, hd, hversion⟩
  have hlt : d.version < definition.version := hversions.2.2 d hd definition List.mem_cons_self
  omega

/-- Code of the runner of which nothing is demanded. -/
theorem clear_undemanding {α : Type} {p : Runner α} (hc : Clear P V h)
    (hemits : p.run.Emits Undemanding) :
    wpx recording (demand bracketDemand) (fun _ h' => Clear P V h') (fun _ _ => True) p h := by
  refine wp_post (wph_emits (undemanding_bracket hemits) hemits) ?_
  rintro (e | a) h' ⟨new, rfl, hnew, _⟩
  · trivial
  · exact hc.undemanding hnew

theorem runDefinition_bracket (hm : m.definitions = done ++ definition :: rest)
    (hc : Clear (Handled done) (VersionIn done) h) :
    wpx recording (demand bracketDemand)
      (fun _ h' => Clear (Handled (done ++ [definition])) (VersionIn (done ++ [definition])) h')
      (fun _ _ => True) (runDefinition report definition) h := by
  have hnew := not_versionIn hm
  refine (wph_call _ _ h).mpr fun answer =>
    ⟨fun read hmem => hnew (hc.versionReads _ read hmem), ?_⟩
  rcases answer with e | versionState
  · trivial
  refine (wpx_bind _ _ _).mpr ?_
  cases hversion : readVersionState definition report versionState.rows with
  | error r => trivial
  | ok versionWasComplete =>
  refine (wph_call _ _ _).mpr fun answer => ⟨?_, ?_⟩
  · intro read hmem
    rcases List.mem_append.mp hmem with hold | hadded
    · exact hnew (hc.stepReads _ read hold)
    · simp at hadded
  rcases answer with e | recorded
  · trivial
  refine (wpx_bind _ _ _).mpr ?_
  cases hrecorded : readRecordedSteps definition report [] recorded.rows with
  | error r => trivial
  | ok recordedSteps =>
  have hwide : Clear (Handled done) (VersionIn (done ++ [definition])) h :=
    hc.mono (fun _ _ hP => hP) fun v ⟨d, hd, hv⟩ => ⟨d, List.mem_append_left _ hd, hv⟩
  have hclear : Clear (Handled done) (VersionIn (done ++ [definition]))
      (h ++ [stmt (.versionState definition.version) (.ok versionState)] ++
        [stmt (.recordedSteps definition.version) (.ok recorded)]) :=
    hwide.read ⟨definition, by simp, rfl⟩
  have hread : ReadAs definition versionWasComplete recordedSteps
      (h ++ [stmt (.versionState definition.version) (.ok versionState)] ++
        [stmt (.recordedSteps definition.version) (.ok recorded)]) :=
    readAs_of_reads (by simp) (by simp) hversion hrecorded
  have hstarts : (startVersion definition versionWasComplete report).run.Emits Undemanding := by
    unfold startVersion
    split
    · trivial
    · refine ⟨trivial, ?_⟩
      rintro (e | response) <;> trivial
  have hfinishes : ∀ report,
      (finishVersion definition versionWasComplete report).run.Emits Undemanding := by
    intro report
    unfold finishVersion
    split
    · trivial
    · refine ⟨trivial, ?_⟩
      rintro (e | response)
      · exact ⟨trivial, fun _ => trivial⟩
      · trivial
  refine (wpx_bind _ _ _).mpr (wpx_post (wpx_extends (clear_undemanding hclear hstarts)) ?_
    (fun _ _ hX => hX.2))
  rintro - h₃ ⟨hext, hclear₃⟩
  refine (wpx_bind _ _ _).mpr (wpx_post (runSteps_bracket hm hclear₃ (hread.mono hext)) ?_
    (fun _ _ hX => hX))
  exact fun r h₄ hclear₄ => clear_undemanding hclear₄ (hfinishes r)

theorem OfBootstrap.undemanding {bootstrap : MigrationBootstrapStep}
    {call : ExecutorCall MigrationStatement} (h : OfBootstrap bootstrap call) : Undemanding call := by
  cases call with
  | control => exact h.elim
  | poison => trivial
  | execute statement =>
      cases statement with
      | bootstrapApply => trivial
      | bootstrapVerify => trivial
      | _ => exact h.elim

theorem runLocked_bracket (bootstrapSql : List MigrationBootstrapStep)
    (hc : Clear (Handled []) (VersionIn []) h) :
    wpx recording (demand bracketDemand) (fun _ _ => True) (fun _ _ => True)
      (runLocked m.definitions bootstrapSql report) h := by
  unfold runLocked
  split
  · trivial
  have hboot : (bootstrapSql.foldlM runBootstrapStep report).run.Emits Undemanding :=
    emits_run_foldlM (fun report bootstrap _ => (emits_runBootstrapStep bootstrap).mono
      fun call hcall => hcall.undemanding) report
  refine (wpx_bind _ _ _).mpr (wpx_post (clear_undemanding hc hboot) ?_ (fun _ _ hX => hX))
  intro r h₁ hclear
  let I (done : List MigrationDefinition) (_ : MigrationReport) (h' : RunHistory) : Prop :=
    Clear (Handled done) (VersionIn done) h'
  refine wpx_post (wpx_foldlM I ?_ hclear) (fun _ _ _ => trivial) (fun _ _ hX => hX)
  exact fun done definition rest r h₂ hm hclear₂ => runDefinition_bracket hm hclear₂

theorem emits_sendRelease : sendRelease.Emits Undemanding := by
  refine ⟨trivial, fun answer => ?_⟩
  show Emits Undemanding (if confirmed answer = true then _ else _)
  split
  · trivial
  · exact ⟨trivial, fun _ => trivial⟩

theorem emits_destroy_undemanding (lock : MigrationLock) : lock.destroy.Emits Undemanding := by
  unfold MigrationLock.destroy
  split
  · trivial
  · exact emits_bind emits_sendRelease fun _ => trivial

theorem emits_release_undemanding (lock : MigrationLock) : lock.release.Emits Undemanding := by
  unfold MigrationLock.release
  split
  · trivial
  · exact emits_bind emits_sendRelease fun _ => trivial

/-- Every statement of a run meets the demand over what was sent before it. -/
theorem run_bracket (m : Manifest) (bootstrapSql : List MigrationBootstrapStep)
    (lockTimeoutSeconds : ℕ) :
    wph bracketDemand (fun _ _ => True) (run m.definitions bootstrapSql lockTimeoutSeconds) [] := by
  refine (wph_call _ _ _).mpr fun answer => ⟨trivial, ?_⟩
  rcases answer with e | acquired
  · trivial
  show wph _ _ (if !truthy acquired then _ else _) _
  split
  · trivial
  have hc : Clear (Handled []) (VersionIn [])
      [stmt (.getLock lockTimeoutSeconds) (.ok acquired)] :=
    ⟨rfl, by simp, by simp, by simp⟩
  refine (wp_bind _ _ _).mpr (wp_post (runLocked_bracket bootstrapSql hc) ?_)
  rintro (report | report) h₁ _
  · exact (wp_bind _ _ _).mpr (wp_post (undemanding_bracket (emits_destroy_undemanding _))
      fun _ _ _ => trivial)
  · refine (wp_bind _ _ _).mpr (wp_post (undemanding_bracket (emits_release_undemanding _)) ?_)
    rintro ⟨released, lock⟩ h₂ _
    refine (wp_bind _ _ _).mpr (wp_post (undemanding_bracket (emits_destroy_undemanding _)) ?_)
    intro _ h₃ _
    show wph _ _ (if released = true then _ else _) _
    split <;> trivial

end Loops

/-! ## The trace of a whole run -/

/-- The statement was sent. -/
def Sent (statement : MigrationStatement) (h : RunHistory) : Prop :=
  ∃ answer, stmt statement answer ∈ h

/-- What follows the apply statement of a transactional step, given its answer: nothing but the
verification comes between it and the end of the transaction. -/
inductive Concluded (version : ℕ) (step : MigrationStep) : SqlResult → RunHistory → Prop
  | committed {applied : SqlResponse} {verified ended : SqlResult} {rest : RunHistory} :
      confirmed verified = true → Concluded version step (.ok applied)
        (stmt (.verify version step) verified :: ctrl .commit ended :: rest)
  | refuted {applied : SqlResponse} {verified ended : SqlResult} {rest : RunHistory} :
      confirmed verified = false → Concluded version step (.ok applied)
        (stmt (.verify version step) verified :: ctrl .rollback ended :: rest)
  | failed {e : SqlError} {ended : SqlResult} {rest : RunHistory} :
      Concluded version step (.error e) (ctrl .rollback ended :: rest)

/-- The brackets around the SQL of the steps in the trace of a run. -/
structure Bracketed (events : RunHistory) : Prop where
  left_alone : ∀ version step,
    Sent (.apply version step) events ∨ Sent (.verify version step) events →
      step.phase ≠ .cleanup ∧ ¬ VersionSucceeded version events ∧
        ¬ StepSucceeded version step.id events
  not_check : ∀ version step, Sent (.apply version step) events → step.execution ≠ .check
  once : ∀ version step,
    events.countP (fun event => event.1 = .execute (.apply version step)) ≤ 1
  prepared : ∀ past version step answer future,
    events = past ++ stmt (.apply version step) answer :: future →
      (∃ response, stmt (.stepStatus version step running []) (.ok response) ∈ past) ∧
      (StepFound version step.id events →
        ∃ refuted, stmt (.verify version step) refuted ∈ past ∧ confirmed refuted = false)
  ddl : ∀ past version step answer future,
    events = past ++ stmt (.apply version step) answer :: future →
      step.execution = .atomicDdl → transactionOpen past = false
  dml : ∀ past version step answer future,
    events = past ++ stmt (.apply version step) answer :: future →
      step.execution = .transactionalDml → Inside past ∧ Concluded version step answer future
  commits : ∀ past answer future,
    events = past ++ ctrl .commit answer :: future → MayCommit past

section Trace

variable {events : RunHistory} {version : ℕ} {step : MigrationStep}

/-- Every event meets its demand. -/
abbrev Demanded (events : RunHistory) : Prop :=
  ∀ past event future, events = past ++ event :: future → bracketDemand past event

/-- A version is read once, so what was read before a statement is what is read in the whole run. -/
theorem versionRead_once (hdemand : Demanded events) {answer answer' : SqlResult}
    (hread : stmt (.versionState version) answer ∈ events)
    (hread' : stmt (.versionState version) answer' ∈ events) : answer = answer' := by
  refine answer_unique ?_ hread hread'
  intro past answer future hsplit
  exact hdemand past (stmt (.versionState version) answer) future hsplit

theorem stepRead_once (hdemand : Demanded events) {answer answer' : SqlResult}
    (hread : stmt (.recordedSteps version) answer ∈ events)
    (hread' : stmt (.recordedSteps version) answer' ∈ events) : answer = answer' := by
  refine answer_unique ?_ hread hread'
  intro past answer future hsplit
  exact hdemand past (stmt (.recordedSteps version) answer) future hsplit

/-- What is outstanding when a statement is sent was not recorded as SUCCEEDED at all. -/
theorem Outstanding.left_alone (hdemand : Demanded events) (ho : Outstanding version step events) :
    step.phase ≠ .cleanup ∧ ¬ VersionSucceeded version events ∧
      ¬ StepSucceeded version step.id events := by
  refine ⟨ho.required, ?_, ?_⟩
  · rintro ⟨response, hread, hsucceeded⟩
    obtain ⟨outstanding, hmem, hnot⟩ := ho.versionRead
    cases versionRead_once hdemand hread hmem
    exact hnot hsucceeded
  · rintro ⟨response, recorded, hread, hrow, hsucceeded⟩
    obtain ⟨outstanding, hmem, hstatus⟩ := ho.stepRead
    cases stepRead_once hdemand hread hmem
    exact hstatus recorded hrow hsucceeded

/-- A step with a row was refuted by its verify SQL. -/
theorem Refuted.of_found {past : RunHistory} (hdemand : Demanded events) (hpast : past <+: events)
    (hrefuted : Refuted version step past) (hfound : StepFound version step.id events) :
    ∃ refuted, stmt (.verify version step) refuted ∈ past ∧ confirmed refuted = false := by
  rcases hrefuted with ⟨response, hmem, hnone⟩ | hrefuted
  · obtain ⟨found, row, hread, hrow⟩ := hfound
    cases stepRead_once hdemand hread (hpast.subset hmem)
    rw [hnone] at hrow
    cases hrow
  · exact hrefuted

/-- The last control statement of a history splits it in one way only. -/
theorem control_split {before before' body body' : RunHistory} {start start' : RunEvent}
    (h : before ++ start :: body = before' ++ start' :: body')
    (hstart : start.1.isControl = true) (hstart' : start'.1.isControl = true)
    (hbody : ∀ event ∈ body, event.1.isControl = false)
    (hbody' : ∀ event ∈ body', event.1.isControl = false) : start = start' ∧ body = body' := by
  rcases List.append_eq_append_iff.mp h with ⟨more, rfl, htail⟩ | ⟨more, rfl, htail⟩
  · cases more with
    | nil => exact List.cons.inj htail
    | cons first more =>
        have hmem : start' ∈ body := by
          rw [(List.cons.inj htail).2]
          simp
        rw [hbody start' hmem] at hstart'
        cases hstart'
  · cases more with
    | nil =>
        obtain ⟨hsame, htails⟩ := List.cons.inj htail
        exact ⟨hsame.symm, htails.symm⟩
    | cons first more =>
        have hmem : start ∈ body' := by
          rw [(List.cons.inj htail).2]
          simp
        rw [hbody' start hmem] at hstart
        cases hstart

/-- A transactional step is concluded inside its transaction. -/
theorem concluded_of_orderly {before future : RunHistory} {started : SqlResponse}
    {answer : SqlResult} (hdemand : Demanded events) (horderly : Orderly events)
    (hsplit : events = before ++ [ctrl (.start .command) (.ok started)] ++
      stmt (.apply version step) answer :: future) : Concluded version step answer future := by
  rw [List.append_assoc, List.singleton_append] at hsplit
  rw [hsplit] at horderly
  obtain ⟨body, ending, rest, hfuture, hbody, hends⟩ := horderly.ends rfl
  -- the apply statement ends nothing, so it is the first event of the body
  cases body with
  | nil =>
      rw [← (List.cons.inj hfuture).1] at hends
      cases hends
  | cons first body =>
  obtain ⟨rfl, rfl⟩ := List.cons.inj hfuture
  have hending : events = (before ++ ctrl (.start .command) (.ok started) ::
      stmt (.apply version step) answer :: body) ++ ending :: rest := by
    rw [hsplit]
    simp
  have hmade := hdemand _ _ _ hending
  have hquiet : ∀ (v : ℕ) (s : MigrationStep) (a b : SqlResult),
      ∀ event ∈ [stmt (.apply v s) a, stmt (.verify v s) b], event.1.isControl = false := by
    intro v s a b event hmem
    rcases List.mem_pair.mp hmem with rfl | rfl <;> rfl
  obtain ⟨op, ended⟩ := ending
  cases op with
  | execute => cases hends
  | poison => cases hends
  | control statement =>
      cases statement with
      | setIsolation => cases hends
      | start => cases hends
      | commit =>
          obtain ⟨before', started', v, s, applied, verified, heq, hconfirmed⟩ := hmade
          obtain ⟨-, htail⟩ := control_split heq rfl rfl hbody (hquiet v s (.ok applied) verified)
          cases htail
          exact .committed hconfirmed
      | rollback =>
          rcases hmade with ⟨before', started', v, s, e, heq⟩ |
            ⟨before', started', v, s, applied, verified, heq, hunconfirmed⟩
          · obtain ⟨-, htail⟩ := control_split heq rfl rfl hbody (by simp [ExecutorCall.isControl])
            cases htail
            exact .failed
          · obtain ⟨-, htail⟩ := control_split heq rfl rfl hbody (hquiet v s (.ok applied) verified)
            cases htail
            exact .refuted hunconfirmed

/-- In the trace of every run, against every executor, the SQL of the steps is bracketed. -/
theorem migrationSql_bracketed (m : Manifest) (bootstrapSql : List MigrationBootstrapStep)
    (lockTimeoutSeconds : ℕ) (events : RunHistory) (report : MigrationReport)
    (hrun : Runs (run m.definitions bootstrapSql lockTimeoutSeconds) events report) :
    Bracketed events := by
  have hdemand : Demanded events := (runs_of_wp (run_bracket m bootstrapSql lockTimeoutSeconds) hrun).2
  have horderly : Orderly events := by
    obtain ⟨phase, hafter, rfl⟩ := follows_runs (keeps_run m.definitions bootstrapSql _) hrun
    exact hafter
  have happly : ∀ past version step answer future,
      events = past ++ stmt (.apply version step) answer :: future →
        past <+: events ∧ Due version step past ∧
          (∀ answer, stmt (.apply version step) answer ∉ past) ∧ Placed step past :=
    fun past version step answer future hsplit =>
      ⟨hsplit ▸ List.prefix_append past _, hdemand past _ future hsplit⟩
  refine ⟨?_, ?_, ?_, ?_, ?_, ?_, ?_⟩
  · rintro version step (⟨answer, hmem⟩ | ⟨answer, hmem⟩)
    · obtain ⟨past, future, hsplit⟩ := List.append_of_mem hmem
      obtain ⟨hpast, hdue, -, -⟩ := happly past version step answer future hsplit
      exact (hdue.toOutstanding.mono hpast).left_alone hdemand
    · obtain ⟨past, future, hsplit⟩ := List.append_of_mem hmem
      have houtstanding : Outstanding version step past := hdemand past _ future hsplit
      exact (houtstanding.mono (hsplit ▸ List.prefix_append past _)).left_alone hdemand
  · rintro version step ⟨answer, hmem⟩ hcheck
    obtain ⟨past, future, hsplit⟩ := List.append_of_mem hmem
    obtain ⟨-, -, -, hplaced⟩ := happly past version step answer future hsplit
    unfold Placed at hplaced
    rw [hcheck] at hplaced
    exact hplaced
  · intro version step
    refine countP_le_one ?_
    rintro past ⟨op, answer⟩ future hsplit hop ⟨op', answer'⟩ hmem
    obtain rfl : op = .execute (.apply version step) := by simpa using hop
    obtain ⟨-, -, hfirst, -⟩ := happly past version step answer future hsplit
    intro hop'
    obtain rfl : op' = .execute (.apply version step) := by simpa using hop'
    exact hfirst answer' hmem
  · intro past version step answer future hsplit
    obtain ⟨hpast, hdue, -, -⟩ := happly past version step answer future hsplit
    exact ⟨hdue.running, fun hfound => hdue.refuted.of_found hdemand hpast hfound⟩
  · intro past version step answer future hsplit hexecution
    obtain ⟨-, -, -, hplaced⟩ := happly past version step answer future hsplit
    unfold Placed at hplaced
    rw [hexecution] at hplaced
    exact hplaced
  · intro past version step answer future hsplit hexecution
    obtain ⟨-, -, -, hplaced⟩ := happly past version step answer future hsplit
    unfold Placed at hplaced
    rw [hexecution] at hplaced
    have hinside : Inside past := hplaced
    obtain ⟨before, started, rfl⟩ := hplaced
    exact ⟨hinside, concluded_of_orderly hdemand horderly hsplit⟩
  · exact fun past answer future hsplit => hdemand past _ future hsplit

/-- In a first start the seed step is applied once, inside its transaction. -/
theorem migrationSql_bracketed_firstStart :
    Sent (.apply 1 seedStep) firstStart.1 ∧
      firstStart.1.countP (fun event => event.1 = .execute (.apply 1 seedStep)) ≤ 1 := by
  refine ⟨⟨.ok { rows := [[some (lit "1")]] }, List.mem_iff_getElem?.mpr ⟨9, rfl⟩⟩, ?_⟩
  exact (migrationSql_bracketed seedManifest [metadataTable] 10 firstStart.1 firstStart.2
    (runs_exec acknowledging _ ())).once 1 seedStep

end Trace

end Warehouse.Mysql.Migration
