/-
# Warehouse.Mysql.Migration.Repetition — migrating twice is migrating once

What a run that succeeded leaves behind is accepted by the next one, whatever the tables held before
it: the versions were fresh, half done, recovered or complete.  The first half of this module says
what that is, `Migrated`; the second half walks through a run that starts there and finds that it
sends nothing of any step and writes nothing.

The database executes the statements about the two metadata tables: they are acknowledged, stored as
they are bound and read back truthfully.  The SQL of the steps and the transaction-control statements
may fail as before.  Of the structure of the two tables only this is used: `CREATE TABLE IF NOT
EXISTS` leaves a table that exists alone, and what a bootstrap verification answers depends on the
structure of its table.
-/
import Warehouse.Mysql.Migration.Cooperative
import Warehouse.Mysql.Migration.Gate

namespace Warehouse.Mysql.Migration

open Warehouse.Interaction Warehouse.Interaction.Program

/-! ## A faithful database -/

/-- The structure that an apply SQL of the bootstrap list declares, and those that its verify SQL
accepts. -/
structure Catalog (Shape : Type) where
  declared : MigrationBootstrapStep → Shape
  fits : MigrationBootstrapStep → Shape → Bool

/-- The database of one connection: the rows, the open transaction, and the structure of the tables
that exist. -/
structure Database (Shape : Type) where
  tables : Tables
  session : Session
  shapes : Bytes → Option Shape

/-- The statements about the rows of the two metadata tables. -/
def IsMetadata : MigrationStatement → Prop
  | .versionState _ | .recordedSteps _ | .versionStatus .. | .stepStatus .. => True
  | _ => False

/-- The SQL of a step. -/
def IsStepSql : ExecutorCall MigrationStatement → Prop
  | .execute (.apply ..) | .execute (.verify ..) => True
  | _ => False

/-- `CREATE TABLE IF NOT EXISTS` -/
def createIfMissing {Shape : Type} (catalog : Catalog Shape) (b : MigrationBootstrapStep)
    (shapes : Bytes → Option Shape) : Bytes → Option Shape :=
  Function.update shapes b.id (some ((shapes b.id).getD (catalog.declared b)))

/-- The table of a bootstrap step exists, with a structure that its verify SQL accepts. -/
def Fitting {Shape : Type} (catalog : Catalog Shape) (b : MigrationBootstrapStep)
    (shapes : Bytes → Option Shape) : Prop :=
  ∃ shape, shapes b.id = some shape ∧ catalog.fits b shape = true

/-- A database that executes the metadata statements faithfully and grants and releases the lock. -/
def faithful {Shape : Type} (catalog : Catalog Shape) :
    Environment (ExecutorCall MigrationStatement) ExecutorCall.Answer (Database Shape)
  | .poison, d, _, d' => d' = d
  | .execute (.getLock _), d, answer, d' => confirmed answer = true ∧ d' = d
  | .execute .releaseLock, d, answer, d' => confirmed answer = true ∧ d' = d
  | .execute (.bootstrapApply b), d, answer, d' => answer.isOk = true ∧
      d' = ⟨seen (d.tables, d.session), none, createIfMissing catalog b d.shapes⟩
  | .execute (.bootstrapVerify b), d, answer, d' =>
      (confirmed answer = true ↔ Fitting catalog b d.shapes) ∧ d' = d
  | .execute statement, d, answer, d' =>
      (IsMetadata statement → answer.isOk = true) ∧
      Answered False (.execute statement) (d.tables, d.session) answer (d'.tables, d'.session) ∧
      d'.shapes = d.shapes
  | .control statement, d, answer, d' =>
      Answered False (.control statement) (d.tables, d.session) answer (d'.tables, d'.session) ∧
      d'.shapes = d.shapes

section FirstRun

variable {Shape : Type} {catalog : Catalog Shape} {shapes : Bytes → Option Shape} {α : Type}
  {t t₀ t' : Tables} {d d' : Database Shape} {version : ℕ} {step : MigrationStep}
  {definition : MigrationDefinition} {report : MigrationReport} {m : Manifest}
  {bootstrapSql : List MigrationBootstrapStep}
  {G : Environment (ExecutorCall MigrationStatement) ExecutorCall.Answer (Database Shape)}

/-- No transaction is open. -/
abbrev resting (t : Tables) (shapes : Bytes → Option Shape) : Database Shape := ⟨t, none, shapes⟩

/-- A guarantee that asks for nothing. -/
abbrev unguarded :
    Environment (ExecutorCall MigrationStatement) ExecutorCall.Answer (Database Shape) :=
  fun _ _ _ _ => True

/-- A metadata statement is acknowledged, executed, and answered truthfully. -/
theorem wp_metadata {Q : α → Database Shape → Prop} {statement : MigrationStatement}
    {next : SqlResult → SqlProgram MigrationStatement α} (moved : ℕ → Tables)
    (hmetadata : IsMetadata statement)
    (hmoved : ∀ now, performs now statement (t, none) = (moved now, none))
    (hok : ∀ response now, Truthful False t (.execute statement) response →
      G (.execute statement) (resting t shapes) (.ok response) (resting (moved now) shapes) ∧
        wp (faithful catalog) G Q (next (.ok response)) (resting (moved now) shapes)) :
    wp (faithful catalog) G Q (.call (.execute statement) next) (resting t shapes) := by
  intro answer d' hanswer
  have hserved : (IsMetadata statement → answer.isOk = true) ∧
      Answered False (.execute statement) (t, none) answer (d'.tables, d'.session) ∧
        d'.shapes = shapes := by
    cases statement with
    | versionState => exact hanswer
    | recordedSteps => exact hanswer
    | versionStatus => exact hanswer
    | stepStatus => exact hanswer
    | _ => exact hmetadata.elim
  obtain ⟨hacknowledged, hanswered, hshapes⟩ := hserved
  rcases answer with e | response
  · have hok : (Except.error e : SqlResult).isOk = true := hacknowledged hmetadata
    cases hok
  obtain ⟨⟨now, hexecuted⟩, htruthful⟩ := hanswered
  have hmoved' : (d'.tables, d'.session) = (moved now, none) := hexecuted.trans (hmoved now)
  obtain ⟨tables, session, shapes'⟩ := d'
  obtain ⟨htables, hsession⟩ := Prod.mk.inj hmoved'
  dsimp only at htables hsession hshapes
  subst htables hsession hshapes
  exact hok response now htruthful

/-! ## The SQL of a step leaves the rows alone -/

/-- The rows are those of `t`, and nothing but effects is pending. -/
structure RowsKept (t : Tables) (shapes : Bytes → Option Shape) (d : Database Shape) : Prop where
  rows : SameRows t d.tables
  pending : ∀ x ∈ d.session.getD [], ∃ a, x = Change.effect a
  shapes : d.shapes = shapes

theorem sameRows_trans {t'' : Tables} (h : SameRows t t') (h' : SameRows t' t'') :
    SameRows t t'' :=
  ⟨h'.versions.trans h.versions, h'.steps.trans h.steps⟩

/-- An effect does not show in the rows. -/
theorem sameRows_change (t' : Tables) (x : Change) (hx : ∃ a, x = Change.effect a)
    (h : SameRows t t') : SameRows t (t'.change x) := by
  obtain ⟨a, rfl⟩ := hx
  exact sameRows_trans h sameRows_effect

/-- Nor do the calls of the work of a step, executed or not. -/
theorem executes_kept {call : ExecutorCall MigrationStatement} (now : ℕ) {c : Tables × Session}
    (hcall : OfWork version step call)
    (h : Guarded (SameRows t) (fun x => ∃ a, x = Change.effect a) c) :
    Guarded (SameRows t) (fun x => ∃ a, x = Change.effect a) (executes now call c) := by
  apply h.executes sameRows_change
  intro x hmade
  cases hmade with
  | version => exact hcall.elim
  | step => exact hcall.elim
  | effect => exact ⟨_, rfl⟩

theorem RowsKept.call {call : ExecutorCall MigrationStatement} {answer : call.Answer}
    (h : RowsKept t shapes d) (hcall : OfWork version step call)
    (hanswer : faithful catalog call d answer d') : RowsKept t shapes d' := by
  have hanswered : ∀ answer : SqlResult,
      Answered False call (d.tables, d.session) answer (d'.tables, d'.session) →
        d'.shapes = d.shapes → RowsKept t shapes d' := by
    intro answer hanswered hshapes
    have hexecuted : ∀ now, (d'.tables, d'.session) = executes now call (d.tables, d.session) →
        RowsKept t shapes d' := by
      intro now heq
      obtain ⟨hrows, hpending⟩ :=
        executes_kept now hcall (c := (d.tables, d.session)) ⟨h.rows, h.pending⟩
      rw [← heq] at hrows hpending
      exact ⟨hrows, hpending, hshapes.trans h.shapes⟩
    rcases answer with e | response
    · obtain ⟨-, hsame | ⟨now, heq⟩ | hdropped⟩ := hanswered
      · obtain ⟨htables, hsession⟩ := Prod.mk.inj hsame
        exact ⟨htables ▸ h.rows, hsession ▸ h.pending, hshapes.trans h.shapes⟩
      · exact hexecuted now heq
      · obtain ⟨htables, hsession⟩ := Prod.mk.inj hdropped
        exact ⟨htables ▸ h.rows, by simp [hsession], hshapes.trans h.shapes⟩
    · obtain ⟨⟨now, heq⟩, -⟩ := hanswered
      exact hexecuted now heq
  cases call with
  | poison =>
      obtain rfl : d' = d := hanswer
      exact h
  | control statement => exact hanswered answer hanswer.1 hanswer.2
  | execute statement =>
      cases statement with
      | apply => exact hanswered answer hanswer.2.1 hanswer.2.2
      | verify => exact hanswered answer hanswer.2.1 hanswer.2.2
      | _ => exact hcall.elim

/-! ## The first run -/

/-- An answer that acknowledges leaves the session where the executed call does. -/
theorem session_of_acknowledged {statement : TxControl} {response : SqlResponse}
    (hanswer : faithful catalog (.control statement) d (.ok response) d') :
    d'.session = (controls statement (d.tables, d.session)).2 := by
  obtain ⟨⟨⟨now, heq⟩, -⟩, -⟩ := hanswer
  exact (Prod.mk.inj heq).2

/-- A transaction that was begun is the object that `Transaction(SqlExecutor&)` builds. -/
theorem begin_returns (mode : WorkUnitMode) :
    (Transaction.begin mode : SqlProgram MigrationStatement _).Returns
      fun r => ∀ t, r = .ok t → t = .opened := by
  intro answer
  rcases answer with e | response
  · intro _ t ht
    cases ht
  intro answer
  rcases answer with e | response
  · intro _ t ht
    cases ht
  · intro t ht
    cases ht
    rfl

/-- An abandoned transaction ends in the error it was abandoned for. -/
theorem abandon_returns (stepError : Bytes) :
    (do
      let transaction ← Transaction.opened.rollback
      transaction.destroy
      return .error stepError : SqlProgram MigrationStatement (Except Bytes Unit)).Returns
        fun r => r ≠ .ok () := by
  intro answer
  rcases answer with e | response
  · intro _ h
    cases h
  · intro h
    cases h

theorem applyTransactional_rests :
    wp (faithful catalog) unguarded (fun r d' => r = .ok () → d'.session = none)
      (applyTransactional version step) d := by
  refine (wp_bind _ _ _).mpr (wp_post (wp_of_returns (begin_returns .command)) ?_)
  rintro (e | t) d₁ hopened
  · intro hok
    cases hok
  obtain rfl := hopened t rfl
  intro answer d₂ _
  refine ⟨trivial, ?_⟩
  rcases answer with e | applied
  · exact wp_post (wp_of_returns (abandon_returns _)) fun r _ hne hok => absurd hok hne
  refine (wp_bind (verifyStep version step) _ _).mpr ((wp_verifyStep version step).mpr ?_)
  intro verified d₃ _
  refine ⟨trivial, ?_⟩
  cases verdict verified with
  | error stepError =>
      exact wp_post (wp_of_returns (abandon_returns _)) fun r _ hne hok => absurd hok hne
  | ok _ =>
      intro answer d₄ hcommit
      refine ⟨trivial, ?_⟩
      rcases answer with e | committed
      · exact fun _ _ _ => ⟨trivial, fun hok => by cases hok⟩
      · intro _
        exact session_of_acknowledged hcommit

theorem applyStep_rests (hrest : d.session = none) :
    wp (faithful catalog) unguarded (fun r d' => r = .ok () → d'.session = none)
      (applyStep version step) d := by
  have hverify : ∀ d : Database Shape, d.session = none →
      wp (faithful catalog) unguarded (fun r d' => r = .ok () → d'.session = none)
        (verifyStep version step) d := by
    intro d hrest answer d' hanswer
    refine ⟨trivial, fun hok => ?_⟩
    obtain ⟨response, rfl, -⟩ := verdict_eq_ok hok
    obtain ⟨-, ⟨⟨now, heq⟩, -⟩, -⟩ := hanswer
    rw [(Prod.mk.inj heq).2]
    exact hrest
  unfold applyStep
  cases hexecution : step.execution with
  | transactionalDml => exact applyTransactional_rests
  | check => exact hverify d hrest
  | atomicDdl =>
      intro answer d₁ hanswer
      refine ⟨trivial, ?_⟩
      rcases answer with e | response
      · intro hok
        cases hok
      · refine hverify d₁ ?_
        obtain ⟨-, ⟨⟨now, heq⟩, -⟩, -⟩ := hanswer
        rw [(Prod.mk.inj heq).2]
        simp [hexecution]

/-- A step that is carried out leaves the rows, and no transaction. -/
theorem applyStep_kept :
    wp (faithful catalog) unguarded
      (fun r d' => r = .ok () → ∃ t', d' = resting t' shapes ∧ SameRows t t')
      (applyStep version step) (resting t shapes) := by
  have hkept : RowsKept t shapes (resting t shapes) := ⟨sameRows_refl, by simp, rfl⟩
  refine wp_post (wp_frame (applyStep_rests (d := resting t shapes) rfl) emits_applyStep
    (fun _ _ _ _ hcall h hanswer => h.call hcall hanswer) hkept) ?_
  rintro r ⟨tables, session, shapes'⟩ ⟨⟨hrows, -, hshapes⟩, hrest⟩ hok
  obtain rfl : session = none := hrest hok
  obtain rfl : shapes' = shapes := hshapes
  exact ⟨tables, rfl, hrows⟩

/-- A write of the row of a step. -/
theorem wp_stepStatus {Q : α → Database Shape → Prop} {status errorMessage : Bytes}
    {next : SqlResult → SqlProgram MigrationStatement α}
    (hok : ∀ response now, wp (faithful catalog) unguarded Q (next (.ok response))
      (resting (t.change (.step now version step status errorMessage)) shapes)) :
    wp (faithful catalog) unguarded Q
      (.call (.execute (.stepStatus version step status errorMessage)) next) (resting t shapes) :=
  wp_metadata (fun now => t.change (.step now version step status errorMessage)) trivial
    (fun _ => rfl) fun response now _ => ⟨trivial, hok response now⟩

/-- Whatever happens after a failure, the run has failed. -/
theorem wpx_failing {Q : MigrationReport → Database Shape → Prop} {stepError : Bytes} :
    wpx (faithful catalog) unguarded Q (fun _ _ => True)
      (do throw (← recordFailure definition report step stepError) : Runner MigrationReport) d := by
  refine (wpx_bind _ _ _).mpr ((wpx_lift _ _).mpr ?_)
  exact wp_post (wp_trivial _ _ _) fun _ _ _ => trivial

theorem performStep_writes (hpending : StepPending definition.version step t) :
    wpx (faithful catalog) unguarded
      (fun _ d' => ∃ t', d' = resting t' shapes ∧ StepWritten definition.version step succeeded t t')
      (fun _ _ => True) (performStep definition report step) (resting t shapes) := by
  refine wp_stepStatus fun response now => ?_
  have hrunning : StepWritten definition.version step running t
      (t.change (.step now definition.version step running [])) :=
    ⟨change_step_recorded hpending, rfl, change_step_onlyStep.steps⟩
  refine (wpx_bind _ _ _).mpr ((wpx_lift _ _).mpr (wp_post applyStep_kept ?_))
  rintro (stepError | _) d₂ hcarried
  · exact wpx_failing
  · obtain ⟨t₂, rfl, hsame⟩ := hcarried rfl
    refine wp_stepStatus fun response now => ?_
    exact ⟨_, rfl, hrunning.again running_ne_succeeded hsame⟩

theorem recoverStep_writes (hpending : StepPending definition.version step t) :
    wpx (faithful catalog) unguarded
      (fun _ d' => ∃ t', d' = resting t' shapes ∧ StepWritten definition.version step succeeded t t')
      (fun _ _ => True) (recoverStep definition report step) (resting t shapes) := by
  refine (wpx_bind _ _ _).mpr ((wpx_lift _ _).mpr ((wp_verifyStep _ _).mpr ?_))
  intro verified d₁ hanswer
  refine ⟨trivial, ?_⟩
  -- the verification reads, whether it is answered or not
  have hstill : d₁ = resting t shapes := by
    obtain ⟨-, hanswered, hshapes⟩ := hanswer
    have hcontent : (d₁.tables, d₁.session) = (t, none) := by
      rcases verified with e | response
      · obtain ⟨-, hsame | ⟨now, heq⟩ | hdropped⟩ := hanswered
        · exact hsame
        · exact heq
        · exact hdropped
      · obtain ⟨⟨now, heq⟩, -⟩ := hanswered
        exact heq
    obtain ⟨tables, session, shapes'⟩ := d₁
    obtain ⟨htables, hsession⟩ := Prod.mk.inj hcontent
    dsimp only at htables hsession hshapes
    rw [htables, hsession, hshapes]
  subst hstill
  cases verdict verified with
  | error stepError => exact performStep_writes hpending
  | ok _ =>
      refine wp_stepStatus fun response now => ?_
      exact ⟨_, rfl, change_step_recorded hpending, rfl, change_step_onlyStep.steps⟩

/-- A turn of the loop over the steps. -/
theorem runStep_settles {recordedSteps : RecordedSteps} {versionWasComplete : Bool}
    {doneSteps restSteps : List MigrationStep}
    (hids : definition.steps.Pairwise fun s t => s.id < t.id)
    (hread : Reconciled definition recordedSteps t₀)
    (hsteps : definition.steps = doneSteps ++ step :: restSteps)
    (hloop : StepLoop definition versionWasComplete t₀ doneSteps t) :
    wpx (faithful catalog) unguarded
      (fun _ d' => ∃ t', d' = resting t' shapes ∧ t'.versions = t.versions ∧
        StepLoop definition versionWasComplete t₀ (doneSteps ++ [step]) t')
      (fun _ _ => True) (runStep definition versionWasComplete recordedSteps report step)
      (resting t shapes) := by
  have hmem : step ∈ definition.steps := by
    rw [hsteps]
    exact List.mem_append_right _ List.mem_cons_self
  have hfresh := ids_fresh hids hsteps
  have hsame : t.steps (definition.version, step.id) = t₀.steps (definition.version, step.id) :=
    hloop.todo step.id fun s hs _ => hfresh s hs
  have hmatches := hread.row_matches hids hmem
  rw [← hsame] at hmatches
  have hwork : ∀ {work : Runner MigrationReport}, step.Required →
      wpx (faithful catalog) unguarded
        (fun _ d' => ∃ t', d' = resting t' shapes ∧
          StepWritten definition.version step succeeded t t')
        (fun _ _ => True) work (resting t shapes) →
      wpx (faithful catalog) unguarded
        (fun _ d' => ∃ t', d' = resting t' shapes ∧ t'.versions = t.versions ∧
          StepLoop definition versionWasComplete t₀ (doneSteps ++ [step]) t')
        (fun _ _ => True) work (resting t shapes) := by
    intro work hrequired hdone
    refine wpx_post hdone ?_ fun _ _ hX => hX
    rintro r d' ⟨t', rfl, hwritten⟩
    exact ⟨t', rfl, hwritten.versions, hloop.written hrequired hfresh hwritten⟩
  unfold runStep
  by_cases hcleanup : step.phase = .cleanup
  · rw [if_pos hcleanup]
    exact ⟨t, rfl, rfl, hloop.skip fun hrequired => absurd hcleanup hrequired⟩
  rw [if_neg hcleanup, hread.lookup, ← hsame]
  cases hrow : t.steps (definition.version, step.id) with
  | some row =>
      simp only [Option.map_some]
      by_cases hstale : versionWasComplete = true ∧ row.toRecordedStep.status ≠ succeeded
      · rw [if_pos hstale]
        trivial
      rw [if_neg hstale]
      by_cases hstatus : row.status = succeeded
      · rw [if_pos hstatus]
        exact ⟨t, rfl, rfl, hloop.skip fun _ => ⟨row, hrow, hmatches row hrow, hstatus⟩⟩
      · rw [if_neg hstatus]
        refine hwork hcleanup (recoverStep_writes ?_)
        intro row' hrow'
        obtain rfl := Option.some.inj (hrow.symm.trans hrow')
        exact ⟨hmatches row hrow, hstatus⟩
  | none =>
      simp only [Option.map_none]
      by_cases hcomplete : versionWasComplete = true
      · rw [if_pos hcomplete]
        trivial
      · rw [if_neg hcomplete]
        refine hwork hcleanup (performStep_writes ?_)
        intro row hrow'
        rw [hrow] at hrow'
        cases hrow'

/-- The rows of a version that a run has got through: the next run accepts them, and finds the
version complete. -/
structure VersionMigrated (definition : MigrationDefinition) (t : Tables) : Prop
    extends Accepts definition t where
  done : ∃ row, t.versions definition.version = some row ∧ row.status = succeeded

theorem VersionMigrated.of_onlyVersion {v : ℕ} (h : VersionMigrated definition t)
    (honly : OnlyVersion v t t') (hne : definition.version ≠ v) : VersionMigrated definition t' where
  toAccepts := h.toAccepts.of_onlyVersion honly hne
  done := by
    rw [honly.versions _ hne]
    exact h.done

/-- When the loop over the steps is through, the rows of the version are accepted. -/
theorem StepLoop.accepts {recordedSteps : RecordedSteps} {versionWasComplete : Bool}
    (hids : definition.steps.Pairwise fun s t => s.id < t.id)
    (hread : Reconciled definition recordedSteps t₀)
    (hloop : StepLoop definition versionWasComplete t₀ definition.steps t)
    (hsteps : t'.steps = t.steps)
    (hname : ∃ row, t'.versions definition.version = some row ∧ row.name = definition.name ∧
      row.status = succeeded) : VersionMigrated definition t' := by
  obtain ⟨versionRow, hversionRow, hversionName, hversionStatus⟩ := hname
  refine ⟨⟨?_, ?_, ?_⟩, versionRow, hversionRow, hversionStatus⟩
  · intro row hrow
    obtain rfl := Option.some.inj (hversionRow.symm.trans hrow)
    exact hversionName
  · intro id row hrow
    rw [hsteps] at hrow
    by_cases hknown : ∃ s ∈ definition.steps, s.Required ∧ s.id = id
    · obtain ⟨s, hs, hrequired, rfl⟩ := hknown
      obtain ⟨row', hrow', hmatches, -⟩ := hloop.done s hs hrequired
      obtain rfl := Option.some.inj (hrow'.symm.trans hrow)
      exact ⟨s, currentStep_of_mem hids hs, hmatches⟩
    · push Not at hknown
      rw [hloop.todo id fun s hs hrequired => hknown s hs hrequired] at hrow
      exact hread.current id row hrow
  · intro row _ _ s hs hrequired
    obtain ⟨row', hrow', -, hstatus⟩ := hloop.done s hs hrequired
    rw [hsteps]
    exact ⟨row', hrow', hstatus⟩

/-- A version that a run gets through is migrated, and nothing else has moved. -/
theorem runDefinition_migrates (hids : definition.steps.Pairwise fun s t => s.id < t.id) :
    wpx (faithful catalog) unguarded
      (fun _ d' => ∃ t', d' = resting t' shapes ∧ OnlyVersion definition.version t t' ∧
        VersionMigrated definition t')
      (fun _ _ => True) (runDefinition report definition) (resting t shapes) := by
  refine wp_metadata (fun _ => t) trivial (fun _ => rfl) fun versionState now hstate => ⟨trivial, ?_⟩
  refine (wpx_bind _ _ _).mpr ?_
  cases hversion : readVersionState definition report versionState.rows with
  | error r => trivial
  | ok versionWasComplete =>
  refine wp_metadata (fun _ => t) trivial (fun _ => rfl) fun recorded now hrows => ⟨trivial, ?_⟩
  refine (wpx_bind _ _ _).mpr ?_
  cases hrecorded : readRecordedSteps definition report [] recorded.rows with
  | error r => trivial
  | ok recordedSteps =>
  have hread := readRecordedSteps_truthful hrows hrecorded
  obtain ⟨hrow, hnone⟩ := readVersionState_truthful hstate hversion
  -- the RUNNING record of the version, which a complete version does without
  have hstarted : wpx (faithful catalog) unguarded
      (fun _ d' => ∃ t', d' = resting t' shapes ∧ t'.steps = t.steps ∧
        (versionWasComplete = false → VersionOpen definition.version t') ∧
        (versionWasComplete = true → t' = t) ∧ OnlyVersion definition.version t t')
      (fun _ _ => True) (startVersion definition versionWasComplete report) (resting t shapes) := by
    unfold startVersion
    cases versionWasComplete with
    | true =>
        rw [if_pos rfl]
        exact ⟨t, rfl, rfl, nofun, fun _ => rfl, fun _ _ => rfl, fun _ _ => rfl⟩
    | false =>
        rw [if_neg (by simp)]
        refine wp_metadata (fun now => t.change
          (.version now definition.version definition.name running [])) trivial (fun _ => rfl) ?_
        refine fun response now _ => ⟨trivial, _, rfl, rfl, fun _ => ?_, nofun, ?_, fun _ _ => rfl⟩
        · exact change_version_open running_ne_succeeded
        · intro v hv
          simp [Tables.change, hv]
  refine (wpx_bind _ _ _).mpr (wpx_post hstarted ?_ fun _ _ hX => hX)
  rintro - d₁ ⟨t₁, rfl, hsteps₁, hopen₁, hsame₁, honly₁⟩
  -- between two turns no transaction is open, and the steps so far are recorded
  let I (doneSteps : List MigrationStep) (_ : MigrationReport) (d : Database Shape) : Prop :=
    ∃ t', d = resting t' shapes ∧ t'.versions = t₁.versions ∧
      StepLoop definition versionWasComplete t doneSteps t'
  have hstart : I [] report (resting t₁ shapes) := by
    refine ⟨t₁, rfl, rfl, hopen₁, ?_, ?_, ?_⟩
    · intro s hs
      cases hs
    · intro id _
      rw [hsteps₁]
    · intro a _
      rw [hsteps₁]
  refine (wpx_bind _ _ _).mpr (wpx_post (wpx_foldlM I ?_ hstart) ?_ fun _ _ hX => hX)
  · rintro doneSteps step restSteps r d hsteps ⟨t₂, rfl, hversions₂, hloop⟩
    refine wpx_post (runStep_settles hids hread hsteps hloop) ?_ fun _ _ hX => hX
    rintro r' d' ⟨t₃, rfl, hversions₃, hloop₃⟩
    exact ⟨t₃, rfl, hversions₃.trans hversions₂, hloop₃⟩
  rintro r d₂ ⟨t₂, rfl, hversions₂, hloop⟩
  have honly₂ : OnlyVersion definition.version t t₂ := by
    refine ⟨fun v hv => ?_, fun a ha => hloop.others a ha⟩
    rw [hversions₂, honly₁.versions v hv]
  unfold finishVersion
  cases versionWasComplete with
  | true =>
      rw [if_pos rfl]
      refine ⟨t₂, rfl, honly₂, hloop.accepts hids hread rfl ?_⟩
      rw [hversions₂, hsame₁ rfl]
      cases hstored : t.versions definition.version with
      | none =>
          have hfalse : true = false := hnone hstored
          cases hfalse
      | some row => exact ⟨row, rfl, (hrow row hstored).1, (hrow row hstored).2.mp rfl⟩
  | false =>
      rw [if_neg (by simp)]
      refine wp_metadata (fun now => t₂.change
        (.version now definition.version definition.name succeeded [])) trivial (fun _ => rfl) ?_
      refine fun response now _ => ⟨trivial, _, rfl, ⟨?_, ?_⟩, hloop.accepts hids hread rfl ?_⟩
      · intro v hv
        simp [Tables.change, hv, honly₂.versions v hv]
      · exact fun a ha => honly₂.steps a ha
      · exact ⟨upsertVersion now definition.name succeeded [] (t₂.versions definition.version),
          by simp [Tables.change], rfl, rfl⟩

/-! ## What a run leaves behind -/

/-- The tables of the bootstrap steps exist with an accepted structure, and their SQL is what the
runner is willing to send. -/
def Built (catalog : Catalog Shape) (done : List MigrationBootstrapStep)
    (shapes : Bytes → Option Shape) : Prop :=
  ∀ b ∈ done, isSingleServerStatement b.applySql = true ∧
    isSingleServerStatement b.verifySql = true ∧ Fitting catalog b shapes

/-- What a run that succeeded leaves behind. -/
structure Migrated (catalog : Catalog Shape) (m : Manifest)
    (bootstrapSql : List MigrationBootstrapStep) (t : Tables) (shapes : Bytes → Option Shape) :
    Prop where
  bootstrap : bootstrapSql ≠ []
  built : Built catalog bootstrapSql shapes
  versions : ∀ d ∈ m.definitions, VersionMigrated d t

/-- Only the rows matter. -/
theorem Migrated.of_sameRows (h : Migrated catalog m bootstrapSql t shapes) (hsame : SameRows t t') :
    Migrated catalog m bootstrapSql t' shapes where
  bootstrap := h.bootstrap
  built := h.built
  versions d hd := by
    obtain ⟨⟨hname, hcurrent, hcomplete⟩, hdone⟩ := h.versions d hd
    refine ⟨⟨?_, ?_, ?_⟩, ?_⟩
    · rwa [hsame.versions]
    · rwa [hsame.steps]
    · rwa [hsame.versions, hsame.steps]
    · rwa [hsame.versions]

/-- A table that exists stays as it is. -/
theorem Fitting.createIfMissing {b b' : MigrationBootstrapStep} (h : Fitting catalog b shapes) :
    Fitting catalog b (createIfMissing catalog b' shapes) := by
  obtain ⟨shape, hshape, hfits⟩ := h
  refine ⟨shape, ?_, hfits⟩
  unfold Migration.createIfMissing
  by_cases hid : b.id = b'.id
  · rw [hid, Function.update_self, ← hid, hshape]
    rfl
  · rw [Function.update_of_ne hid, hshape]

/-- Where all tables exist, nothing is created. -/
theorem Fitting.createIfMissing_eq {b : MigrationBootstrapStep} (h : Fitting catalog b shapes) :
    Migration.createIfMissing catalog b shapes = shapes := by
  obtain ⟨shape, hshape, -⟩ := h
  unfold Migration.createIfMissing
  rw [hshape, Option.getD_some, ← hshape, Function.update_eq_self]

theorem runBootstrapStep_builds {b : MigrationBootstrapStep} {done : List MigrationBootstrapStep}
    (hbuilt : Built catalog done shapes) :
    wpx (faithful catalog) unguarded
      (fun _ d' => ∃ shapes', d' = resting t shapes' ∧ Built catalog (done ++ [b]) shapes')
      (fun _ _ => True) (runBootstrapStep report b) (resting t shapes) := by
  unfold runBootstrapStep
  by_cases hrefused :
      (!isSingleServerStatement b.applySql || !isSingleServerStatement b.verifySql) = true
  · rw [if_pos hrefused]
    trivial
  rw [if_neg hrefused]
  intro answer d₁ hcreated
  refine ⟨trivial, ?_⟩
  rcases answer with e | response
  · trivial
  obtain ⟨-, rfl⟩ := hcreated
  intro answer d₂ hverified
  refine ⟨trivial, ?_⟩
  rcases answer with e | verified
  · trivial
  obtain ⟨hfits, rfl⟩ := hverified
  show wpx _ _ _ _ (if truthy verified = true then _ else _) _
  by_cases htrue : truthy verified = true
  · rw [if_pos htrue]
    refine ⟨Migration.createIfMissing catalog b shapes, rfl, ?_⟩
    intro b' hb'
    rcases List.mem_append.mp hb' with hold | hnew
    · obtain ⟨happly, hverify, hfitting⟩ := hbuilt b' hold
      exact ⟨happly, hverify, hfitting.createIfMissing⟩
    · rw [List.mem_singleton.mp hnew]
      simp only [Bool.or_eq_true, Bool.not_eq_true', not_or, Bool.not_eq_false] at hrefused
      exact ⟨hrefused.1, hrefused.2, hfits.mp htrue⟩
  · rw [if_neg htrue]
    trivial

/-- What is done under the lock leaves a database that is migrated. -/
theorem runLocked_migrates :
    wpx (faithful catalog) unguarded
      (fun _ d' => ∃ t' shapes', d' = resting t' shapes' ∧ Migrated catalog m bootstrapSql t' shapes')
      (fun _ _ => True) (runLocked m.definitions bootstrapSql report) (resting t shapes) := by
  unfold runLocked
  by_cases hempty : bootstrapSql.isEmpty = true
  · rw [if_pos hempty]
    trivial
  rw [if_neg hempty]
  let Boot (done : List MigrationBootstrapStep) (_ : MigrationReport) (d : Database Shape) : Prop :=
    ∃ shapes', d = resting t shapes' ∧ Built catalog done shapes'
  have hboot : Boot [] report (resting t shapes) := ⟨shapes, rfl, by simp [Built]⟩
  refine (wpx_bind _ _ _).mpr (wpx_post (wpx_foldlM Boot ?_ hboot) ?_ fun _ _ hX => hX)
  · rintro done b rest r d _ ⟨shapes', rfl, hbuilt⟩
    exact runBootstrapStep_builds hbuilt
  rintro r d ⟨shapes', rfl, hbuilt⟩
  let Defs (done : List MigrationDefinition) (_ : MigrationReport) (d : Database Shape) : Prop :=
    ∃ t', d = resting t' shapes' ∧ ∀ e ∈ done, VersionMigrated e t'
  have hdefs : Defs [] { r with status := .succeeded } (resting t shapes') := ⟨t, rfl, by simp⟩
  refine wpx_post (wpx_foldlM Defs ?_ hdefs) ?_ fun _ _ hX => hX
  · rintro done definition rest r d hm ⟨t', rfl, hdone⟩
    have hdefinition : definition ∈ m.definitions := by
      rw [hm]
      exact List.mem_append_right _ List.mem_cons_self
    have hversions := m.versions_increasing
    rw [hm, List.pairwise_append] at hversions
    refine wpx_post (runDefinition_migrates (m.ids_increasing definition hdefinition)) ?_
      fun _ _ hX => hX
    rintro r' d' ⟨t'', rfl, honly, hmigrated⟩
    refine ⟨t'', rfl, fun e he => ?_⟩
    rcases List.mem_append.mp he with hold | hnew
    · refine (hdone e hold).of_onlyVersion honly ?_
      have hlt : e.version < definition.version :=
        hversions.2.2 e hold definition List.mem_cons_self
      omega
    · rw [List.mem_singleton.mp hnew]
      exact hmigrated
  · rintro r' d' ⟨t', rfl, hall⟩
    exact ⟨t', shapes', rfl, by simpa using hempty, hbuilt, hall⟩

/-- The lock is released, and nothing else happens. -/
theorem sendRelease_still {Q : Bool → Database Shape → Prop}
    (hG : ∀ answer d', G (.execute .releaseLock) d answer d') (hQ : Q true d) :
    wp (faithful catalog) G Q sendRelease d := by
  rintro answer d' ⟨hconfirmed, rfl⟩
  refine ⟨hG answer d', ?_⟩
  show wp _ _ _ (if confirmed answer = true then .ret true else _) _
  rw [if_pos hconfirmed]
  exact hQ

/-- A run that reports success leaves a database that is migrated. -/
theorem run_migrates (lockTimeoutSeconds : ℕ) :
    wp (faithful catalog) unguarded
      (fun report d' => report.status = .succeeded →
        ∃ t' shapes', d' = resting t' shapes' ∧ Migrated catalog m bootstrapSql t' shapes')
      (run m.definitions bootstrapSql lockTimeoutSeconds) (resting t shapes) := by
  rintro answer d ⟨hgranted, rfl⟩
  refine ⟨trivial, ?_⟩
  rcases answer with e | acquired
  · cases hgranted
  show wp _ _ _ (if !truthy acquired then _ else _) _
  have htrue : truthy acquired = true := hgranted
  rw [if_neg (by simp [htrue])]
  refine (wp_bind _ _ _).mpr (wp_post
    (wp_returns runLocked_migrates (runLocked_returns m bootstrapSql)) ?_)
  rintro (r | r) d ⟨hreturns, hmigrated⟩
  · refine (wp_bind _ _ _).mpr (wp_post (wp_trivial _ _ _) ?_)
    intro _ _ _ hsucceeded
    rw [hreturns r rfl] at hsucceeded
    cases hsucceeded
  · refine (wp_bind _ _ _).mpr ((wp_bind sendRelease _ _).mpr (sendRelease_still (fun _ _ => trivial) ?_))
    exact fun _ => hmigrated

end FirstRun

/-! ## The second run -/

/-- The call is not the SQL of a step. -/
abbrev spared {Shape : Type} :
    Environment (ExecutorCall MigrationStatement) ExecutorCall.Answer (Database Shape) :=
  fun call _ _ _ => ¬ IsStepSql call

/-- The ids of the steps that a run has to see to, in order. -/
def requiredIds (steps : List MigrationStep) : List Bytes :=
  (steps.filter fun s => s.phase ≠ .cleanup).map MigrationStep.id

/-- The report of a run that finds everything done, after `complete` versions and the steps
`passed`. -/
structure Repeating (m : Manifest) (complete : ℕ) (passed : List MigrationStep)
    (report : MigrationReport) : Prop where
  status : report.status = .succeeded
  versionsApplied : report.versionsApplied = 0
  stepsApplied : report.stepsApplied = 0
  versionsAlreadyComplete : report.versionsAlreadyComplete = complete
  alreadyCompleteSteps : report.alreadyCompleteSteps = requiredIds passed
  pendingSteps : report.pendingSteps =
    (requiredIds (m.definitions.flatMap MigrationDefinition.steps)).filter
      fun id => id ∉ requiredIds passed

section SecondRun

variable {Shape : Type} {catalog : Catalog Shape} {shapes : Bytes → Option Shape}
  {t : Tables} {d : Database Shape} {step : MigrationStep} {complete : ℕ}
  {definition : MigrationDefinition} {report : MigrationReport} {m : Manifest}
  {bootstrapSql : List MigrationBootstrapStep} {passed : List MigrationStep}

theorem requiredIds_append (first second : List MigrationStep) :
    requiredIds (first ++ second) = requiredIds first ++ requiredIds second := by
  unfold requiredIds
  rw [List.filter_append, List.map_append]

theorem Repeating.skip (h : Repeating m complete passed report) (hcleanup : step.phase = .cleanup) :
    Repeating m complete (passed ++ [step]) report := by
  have hsame : requiredIds (passed ++ [step]) = requiredIds passed := by
    rw [requiredIds_append]
    simp [requiredIds, hcleanup]
  exact ⟨h.status, h.versionsApplied, h.stepsApplied, h.versionsAlreadyComplete,
    hsame ▸ h.alreadyCompleteSteps, hsame ▸ h.pendingSteps⟩

theorem Repeating.alreadyComplete (h : Repeating m complete passed report)
    (hrequired : step.Required) :
    Repeating m complete (passed ++ [step]) (report.alreadyComplete step.id) := by
  have hpassed : requiredIds (passed ++ [step]) = requiredIds passed ++ [step.id] := by
    rw [requiredIds_append]
    have hphase : step.phase ≠ .cleanup := hrequired
    simp [requiredIds, hphase]
  refine ⟨h.status, h.versionsApplied, h.stepsApplied, h.versionsAlreadyComplete, ?_, ?_⟩
  · rw [hpassed, ← h.alreadyCompleteSteps]
    rfl
  · show report.pendingSteps.filter (· != step.id) = _
    rw [h.pendingSteps, List.filter_filter, hpassed]
    apply List.filter_congr
    intro id _
    by_cases hid : id = step.id <;> simp [hid]

/-- A step whose row says SUCCEEDED is passed over. -/
theorem runStep_repeats {recordedSteps : RecordedSteps}
    (hread : Reconciled definition recordedSteps t)
    (hsucceeded : step.Required → ∃ row, t.steps (definition.version, step.id) = some row ∧
      row.status = succeeded)
    (hreport : Repeating m complete passed report) :
    wpx (faithful catalog) spared
      (fun r d' => d' = d ∧ Repeating m complete (passed ++ [step]) r) (fun _ _ => False)
      (runStep definition true recordedSteps report step) d := by
  unfold runStep
  by_cases hcleanup : step.phase = .cleanup
  · rw [if_pos hcleanup]
    exact ⟨rfl, hreport.skip hcleanup⟩
  rw [if_neg hcleanup, hread.lookup]
  obtain ⟨row, hrow, hstatus⟩ := hsucceeded hcleanup
  rw [hrow]
  simp only [Option.map_some]
  rw [if_neg (fun h => h.2 hstatus), if_pos hstatus]
  exact ⟨rfl, hreport.alreadyComplete hcleanup⟩

/-- A version that is migrated is read, and nothing else. -/
theorem runDefinition_repeats (hmigrated : VersionMigrated definition t)
    (hreport : Repeating m complete passed report) :
    wpx (faithful catalog) spared
      (fun r d' => d' = resting t shapes ∧ Repeating m (complete + 1) (passed ++ definition.steps) r)
      (fun _ _ => False) (runDefinition report definition) (resting t shapes) := by
  refine wp_metadata (fun _ => t) trivial (fun _ => rfl) fun versionState now hstate =>
    ⟨fun hsql => hsql, ?_⟩
  obtain ⟨row, hrow, hstatus⟩ := hmigrated.done
  have hcomplete : readVersionState definition report versionState.rows = .ok true := by
    have hrows : versionState.rows =
        ((t.versions definition.version).map fun row => [some row.name, some row.status]).toList :=
      hstate
    rw [hrows, hrow]
    simp [readVersionState, hmigrated.name row hrow, hstatus]
  refine (wpx_bind _ _ _).mpr ?_
  rw [hcomplete]
  refine wp_metadata (fun _ => t) trivial (fun _ => rfl) fun recorded now hrows =>
    ⟨fun hsql => hsql, ?_⟩
  have hcurrent : ∀ r ∈ recorded.rows,
      ∃ (id : Bytes) (read : RecordedStep) (step : MigrationStep),
        r = read.row id ∧ currentStep definition id = some step ∧ read.Matches step := by
    intro r hr
    obtain ⟨id, row, hstored, rfl⟩ := (hrows r).mp hr
    obtain ⟨step, hcurrent, hmatches⟩ := hmigrated.current id row hstored
    exact ⟨id, row.toRecordedStep, step, rfl, hcurrent, hmatches⟩
  obtain ⟨recordedSteps, hrecorded⟩ := readRecordedSteps_ok report [] hcurrent
  have hread := readRecordedSteps_truthful hrows hrecorded
  refine (wpx_bind _ _ _).mpr ?_
  rw [hrecorded]
  -- the version is complete, so nothing is written when it is started
  refine (wpx_bind _ _ _).mpr ?_
  show wpx _ _ _ _ (if true = true then pure () else _ : Runner Unit) _
  rw [if_pos rfl]
  let I (doneSteps : List MigrationStep) (r : MigrationReport) (d : Database Shape) : Prop :=
    d = resting t shapes ∧ Repeating m complete (passed ++ doneSteps) r
  have hstart : I [] report (resting t shapes) := ⟨rfl, by rwa [List.append_nil]⟩
  refine (wpx_bind _ _ _).mpr (wpx_post (wpx_foldlM I ?_ hstart) ?_ fun _ _ hX => hX)
  · rintro doneSteps step restSteps r d hsteps ⟨rfl, hrepeating⟩
    have hmem : step ∈ definition.steps := by
      rw [hsteps]
      exact List.mem_append_right _ List.mem_cons_self
    refine wpx_post (runStep_repeats hread ?_ hrepeating) ?_ fun _ _ hX => hX
    · exact fun hrequired => hmigrated.complete row hrow hstatus step hmem hrequired
    · rintro r' d' ⟨rfl, hpassed⟩
      exact ⟨rfl, by rwa [← List.append_assoc]⟩
  · rintro r d ⟨rfl, hrepeating⟩
    show wpx _ _ _ _ (if true = true then pure _ else _ : Runner MigrationReport) _
    rw [if_pos rfl]
    refine ⟨rfl, hrepeating.status, hrepeating.versionsApplied, hrepeating.stepsApplied, ?_,
      hrepeating.alreadyCompleteSteps, hrepeating.pendingSteps⟩
    show r.versionsAlreadyComplete + 1 = complete + 1
    rw [hrepeating.versionsAlreadyComplete]

theorem runBootstrapStep_repeats {b : MigrationBootstrapStep}
    (happly : isSingleServerStatement b.applySql = true)
    (hverify : isSingleServerStatement b.verifySql = true) (hfits : Fitting catalog b shapes) :
    wpx (faithful catalog) spared (fun r d' => d' = resting t shapes ∧ r = report)
      (fun _ _ => False) (runBootstrapStep report b) (resting t shapes) := by
  unfold runBootstrapStep
  rw [if_neg (by simp [happly, hverify])]
  intro answer d₁ hcreated
  refine ⟨fun hsql => hsql, ?_⟩
  rcases answer with e | response
  · cases hcreated.1
  obtain ⟨-, rfl⟩ := hcreated
  intro answer d₂ hverified
  refine ⟨fun hsql => hsql, ?_⟩
  obtain ⟨hanswer, rfl⟩ := hverified
  have hstill : (⟨seen (t, none), none, Migration.createIfMissing catalog b shapes⟩ :
      Database Shape) = resting t shapes := by
    rw [hfits.createIfMissing_eq]
    rfl
  have hconfirmed : confirmed answer = true := hanswer.mpr hfits.createIfMissing
  rcases answer with e | verified
  · cases hconfirmed
  show wpx _ _ _ _ (if truthy verified = true then pure report else _ : Runner MigrationReport) _
  have htrue : truthy verified = true := hconfirmed
  rw [if_pos htrue]
  exact ⟨hstill, rfl⟩

theorem runLocked_repeats (hmigrated : Migrated catalog m bootstrapSql t shapes) :
    wpx (faithful catalog) spared
      (fun r d' => d' = resting t shapes ∧
        Repeating m m.definitions.length (m.definitions.flatMap MigrationDefinition.steps) r)
      (fun _ _ => False)
      (runLocked m.definitions bootstrapSql (initialReport m.definitions)) (resting t shapes) := by
  unfold runLocked
  rw [if_neg (by simp [hmigrated.bootstrap])]
  let Boot (_ : List MigrationBootstrapStep) (r : MigrationReport) (d : Database Shape) : Prop :=
    d = resting t shapes ∧ r = initialReport m.definitions
  have hboot : Boot [] (initialReport m.definitions) (resting t shapes) := ⟨rfl, rfl⟩
  refine (wpx_bind _ _ _).mpr (wpx_post (wpx_foldlM Boot ?_ hboot) ?_ fun _ _ hX => hX)
  · rintro done b rest r d hsplit ⟨rfl, rfl⟩
    obtain ⟨happly, hverify, hfits⟩ := hmigrated.built b (by rw [hsplit]; simp)
    exact runBootstrapStep_repeats happly hverify hfits
  rintro r d ⟨rfl, rfl⟩
  let Defs (done : List MigrationDefinition) (r : MigrationReport) (d : Database Shape) : Prop :=
    d = resting t shapes ∧
      Repeating m done.length (done.flatMap MigrationDefinition.steps) r
  have hdefs : Defs [] { initialReport m.definitions with status := .succeeded }
      (resting t shapes) :=
    ⟨rfl, rfl, rfl, rfl, rfl, rfl, by simp [initialReport, requiredIds]⟩
  refine wpx_post (wpx_foldlM Defs ?_ hdefs) (fun _ _ hQ => hQ) fun _ _ hX => hX
  rintro done definition rest r d hm ⟨rfl, hrepeating⟩
  refine wpx_post (runDefinition_repeats (hmigrated.versions definition (by rw [hm]; simp))
    hrepeating) ?_ fun _ _ hX => hX
  rintro r' d' ⟨rfl, hnext⟩
  refine ⟨rfl, ?_⟩
  rw [List.length_append, List.flatMap_append]
  simpa using hnext

/-- A run over a database that is migrated finds everything done. -/
theorem run_repeats (hmigrated : Migrated catalog m bootstrapSql t shapes)
    (lockTimeoutSeconds : ℕ) :
    wp (faithful catalog) spared
      (fun report d' => d' = resting t shapes ∧
        Repeating m m.definitions.length (m.definitions.flatMap MigrationDefinition.steps) report)
      (run m.definitions bootstrapSql lockTimeoutSeconds) (resting t shapes) := by
  rintro answer d ⟨hgranted, rfl⟩
  refine ⟨fun hsql => hsql, ?_⟩
  rcases answer with e | acquired
  · cases hgranted
  show wp _ _ _ (if !truthy acquired then _ else _) _
  have htrue : truthy acquired = true := hgranted
  rw [if_neg (by simp [htrue])]
  refine (wp_bind _ _ _).mpr (wp_post (runLocked_repeats hmigrated) ?_)
  rintro (r | r) d hlocked
  · exact hlocked.elim
  obtain ⟨rfl, hrepeating⟩ := hlocked
  refine (wp_bind _ _ _).mpr ((wp_bind sendRelease _ _).mpr
    (sendRelease_still (fun _ _ hsql => hsql) ?_))
  exact ⟨rfl, hrepeating.status, hrepeating.versionsApplied, hrepeating.stepsApplied,
    hrepeating.versionsAlreadyComplete, hrepeating.alreadyCompleteSteps, hrepeating.pendingSteps⟩

/-! ## Twice is once -/

/-- The second run of a migration that succeeded succeeds, sends no SQL of any step, leaves both
metadata tables as they are and reports everything as already complete. -/
theorem migration_repeated (catalog : Catalog Shape) (m : Manifest)
    (bootstrapSql : List MigrationBootstrapStep) (firstTimeout secondTimeout : ℕ)
    (first second : RunHistory) (firstReport secondReport : MigrationReport)
    (t between : Tables) (shapes : Bytes → Option Shape) (d d' : Database Shape)
    (hfirst : Runs (run m.definitions bootstrapSql firstTimeout) first firstReport)
    (hanswered : Answers (faithful catalog) (resting t shapes) first d)
    (hsucceeded : firstReport.status = .succeeded)
    (hbetween : SameRows d.tables between)
    (hsecond : Runs (run m.definitions bootstrapSql secondTimeout) second secondReport)
    (hanswered' : Answers (faithful catalog) (resting between d.shapes) second d') :
    secondReport.status = .succeeded ∧ (∀ event ∈ second, ¬ IsStepSql event.1) ∧
      SameRows between d'.tables ∧ secondReport.stepsApplied = 0 ∧
      secondReport.versionsApplied = 0 ∧
      secondReport.versionsAlreadyComplete = m.definitions.length ∧
      secondReport.pendingSteps = [] ∧
      secondReport.alreadyCompleteSteps =
        requiredIds (m.definitions.flatMap MigrationDefinition.steps) := by
  obtain ⟨t', shapes', rfl, hmigrated⟩ :=
    (runs_under (run_migrates firstTimeout) hfirst hanswered).1 hsucceeded
  obtain ⟨⟨rfl, hreport⟩, hspared⟩ :=
    runs_under (run_repeats (hmigrated.of_sameRows hbetween) secondTimeout) hsecond hanswered'
  refine ⟨hreport.status, fun event hevent => ?_, sameRows_refl, hreport.stepsApplied,
    hreport.versionsApplied, hreport.versionsAlreadyComplete, ?_, hreport.alreadyCompleteSteps⟩
  · obtain ⟨_, _, hevent⟩ := hspared event hevent
    exact hevent
  · rw [hreport.pendingSteps, List.filter_eq_nil_iff]
    intro id hid
    simpa using hid

end SecondRun

section Witness

/-- Every structure is accepted. -/
def seedCatalog : Catalog Unit where
  declared _ := ()
  fits _ _ := true

/-- The rows after a first start of the seed manifest. -/
def seededTables : Tables :=
  [Change.version 0 1 (lit "001_seed") running [], .step 0 1 seedStep running [],
    .effect (1, seedStep.id), .step 0 1 seedStep succeeded [],
    .version 0 1 (lit "001_seed") succeeded []].foldl Tables.change {}

def seededShapes : Bytes → Option Unit := createIfMissing seedCatalog metadataTable fun _ => none

/-- A server that has the seed manifest recorded. -/
def remembering : (call : ExecutorCall MigrationStatement) → Unit → call.Answer × Unit
  | .execute (.versionState _), s =>
      (.ok { rows := [[some (lit "001_seed"), some succeeded]] }, s)
  | .execute (.recordedSteps _), s =>
      (.ok { rows := [RecordedStep.row ⟨seedStep.checksum, phaseName seedStep.phase,
        executionName seedStep.execution, succeeded⟩ seedStep.id] }, s)
  | .execute _, s => (.ok one, s)
  | .control _, s => (.ok {}, s)
  | .poison, s => ((), s)

def secondStart : RunHistory × MigrationReport :=
  (run seedManifest.definitions [metadataTable]).exec remembering ()

/-- The only row that is stored. -/
theorem seededTables_steps (id : Bytes) (row : StepRow) :
    seededTables.steps (1, id) = some row ↔
      id = seedStep.id ∧ row = ⟨⟨seedStep.checksum, phaseName seedStep.phase,
        executionName seedStep.execution, succeeded⟩, 0, some 0, []⟩ := by
  by_cases hid : id = seedStep.id
  · subst hid
    have hstored : seededTables.steps (1, seedStep.id) = some ⟨⟨seedStep.checksum,
        phaseName seedStep.phase, executionName seedStep.execution, succeeded⟩, 0, some 0, []⟩ := by
      rfl
    rw [hstored]
    simp [eq_comm]
  · have hnone : seededTables.steps (1, id) = none := by
      simp [seededTables, Tables.change, hid]
    simp [hnone, hid]


variable {catalog : Catalog Unit} {shapes : Bytes → Option Unit} {t : Tables} {session : Session}
  {events : RunHistory} {d : Database Unit}

theorem answers_execute {statement : MigrationStatement} {response : SqlResponse}
    (hkind : IsMetadata statement ∨ IsStepSql (.execute statement))
    (htruthful : Truthful False (seen (t, session)) (.execute statement) response)
    (hrest : Answers (faithful catalog)
      ⟨(performs 0 statement (t, session)).1, (performs 0 statement (t, session)).2, shapes⟩
      events d) :
    Answers (faithful catalog) ⟨t, session, shapes⟩ (stmt statement (.ok response) :: events) d := by
  refine .cons ?_ hrest
  have hserved : (IsMetadata statement → (Except.ok response : SqlResult).isOk = true) ∧
      Answered False (.execute statement) (t, session) (.ok response)
        (performs 0 statement (t, session)) ∧ shapes = shapes :=
    ⟨fun _ => rfl, ⟨⟨0, rfl⟩, htruthful⟩, rfl⟩
  cases statement with
  | versionState => exact hserved
  | recordedSteps => exact hserved
  | versionStatus => exact hserved
  | stepStatus => exact hserved
  | apply => exact hserved
  | verify => exact hserved
  | _ => exact (hkind.elim id id).elim

theorem answers_control {statement : TxControl} {response : SqlResponse}
    (hrest : Answers (faithful catalog)
      ⟨(controls statement (t, session)).1, (controls statement (t, session)).2, shapes⟩ events d) :
    Answers (faithful catalog) ⟨t, session, shapes⟩ (ctrl statement (.ok response) :: events) d := by
  refine .cons ?_ hrest
  exact ⟨⟨⟨0, rfl⟩, trivial⟩, rfl⟩

theorem answers_firstStart :
    Answers (faithful seedCatalog) (resting {} fun _ => none) firstStart.1
      (resting seededTables seededShapes) := by
  refine .cons ⟨rfl, rfl⟩ (.cons ⟨rfl, rfl⟩ (.cons ⟨?_, rfl⟩ ?_))
  · exact ⟨fun _ => ⟨(), rfl, rfl⟩, fun _ => rfl⟩
  refine answers_execute (Or.inl trivial) rfl (answers_execute (Or.inl trivial) ?_ ?_)
  · intro r
    constructor
    · intro hr
      cases hr
    · rintro ⟨id, row, hrow, -⟩
      cases hrow
  refine answers_execute (Or.inl trivial) trivial (answers_execute (Or.inl trivial) trivial ?_)
  refine answers_control (answers_control (answers_execute (Or.inr trivial) trivial ?_))
  refine answers_execute (Or.inr trivial) (fun hexact => hexact.elim) (answers_control ?_)
  refine answers_execute (Or.inl trivial) trivial (answers_execute (Or.inl trivial) trivial ?_)
  exact .cons ⟨rfl, rfl⟩ (.nil _)

theorem answers_secondStart :
    Answers (faithful seedCatalog) (resting seededTables seededShapes) secondStart.1
      (resting seededTables seededShapes) := by
  have hfits : Fitting seedCatalog metadataTable seededShapes := ⟨(), rfl, rfl⟩
  refine .cons ⟨rfl, rfl⟩ (.cons ⟨rfl, rfl⟩ (.cons ⟨?_, rfl⟩ ?_))
  · exact ⟨fun _ => hfits.createIfMissing, fun _ => rfl⟩
  rw [hfits.createIfMissing_eq]
  refine answers_execute (Or.inl trivial) rfl (answers_execute (Or.inl trivial) ?_ ?_)
  · intro r
    constructor
    · intro hr
      exact ⟨seedStep.id, _, (seededTables_steps _ _).mpr ⟨rfl, rfl⟩, List.mem_singleton.mp hr⟩
    · rintro ⟨id, row, hrow, rfl⟩
      obtain ⟨rfl, rfl⟩ := (seededTables_steps id row).mp hrow
      exact List.mem_singleton.mpr rfl
  exact .cons ⟨rfl, rfl⟩ (.nil _)

/-- The seed manifest is migrated, and then once more. -/
theorem migration_repeated_seed :
    secondStart.2.status = .succeeded ∧ secondStart.2.stepsApplied = 0 ∧
      secondStart.2.alreadyCompleteSteps = [seedStep.id] := by
  obtain ⟨hsucceeded, -, -, happlied, -, -, -, hcomplete⟩ :=
    migration_repeated seedCatalog seedManifest [metadataTable] 10 10 firstStart.1 secondStart.1
      firstStart.2 secondStart.2 {} seededTables (fun _ => none) (resting seededTables seededShapes)
      (resting seededTables seededShapes) (runs_exec acknowledging _ ()) answers_firstStart
      (by decide) sameRows_refl (runs_exec remembering _ ()) answers_secondStart
  exact ⟨hsucceeded, happlied, hcomplete⟩

end Witness

end Warehouse.Mysql.Migration
