/-
# Warehouse.Mysql.Migration.CollatedKeys — step ids as the primary key compares them

`discoverMigrations` calls two step ids of a version equal if they are the same bytes.  The table
`schema_migration_steps` compares them as its column does: `step_id` has the default collation of
utf8mb4, to which case and accents do not matter.  The upsert of `updateStepStatus` goes to the row
whose id compares equal, if there is one, and leaves the id of that row as it is.

Where the collation tells the ids of every version apart, the table behaves as if it compared bytes:
a run whose rows are all of its manifest cannot see the difference, and a run that finds another row
fails before it writes to that version.
-/
import Warehouse.Mysql.Migration.Checksum
import Warehouse.Mysql.Migration.Repetition

namespace Warehouse.Mysql.Migration

open Warehouse.Interaction Warehouse.Interaction.Program

/-! ## The table as it compares keys -/

/-- The id under which a write for a step goes to the table: that of the row that compares equal, or
a new one. -/
def StoredAs (collation : Bytes → Bytes) (t : Tables) (version : ℕ) (id stored : Bytes) : Prop :=
  (t.steps (version, stored) ≠ none ∧ collation stored = collation id) ∨
    (stored = id ∧ ∀ other, t.steps (version, other) ≠ none → collation other ≠ collation id)

/-- A database that is faithful, with a table of steps that compares ids by a collation. -/
def collated {Shape : Type} (collation : Bytes → Bytes) (catalog : Catalog Shape) :
    Environment (ExecutorCall MigrationStatement) ExecutorCall.Answer (Database Shape)
  | .execute (.stepStatus version step status errorMessage), d, answer, d' =>
      ∃ stored, StoredAs collation (seen (d.tables, d.session)) version step.id stored ∧
        faithful catalog
          (.execute (.stepStatus version { step with id := stored } status errorMessage)) d answer d'
  | other, d, answer, d' => faithful catalog other d answer d'

/-- The report says that the record of a required step is missing. -/
def MigrationReport.Missing (report : MigrationReport) : Prop :=
  report.status = .failed ∧
    report.message = lit "completed migration version is missing a required step record"

/-- The steps of a version have rows of their own: no row is written for two of them, recording one
leaves the record of the other as it is, and a run that succeeded leaves no record to be missed. -/
structure KeysAgree {Shape : Type} (collation : Bytes → Bytes) (catalog : Catalog Shape)
    (m : Manifest) : Prop where
  rows : ∀ d ∈ m.definitions, ∀ s ∈ d.steps, ∀ u ∈ d.steps, s ≠ u → ∀ t stored,
    StoredAs collation t d.version s.id stored → ¬ StoredAs collation t d.version u.id stored
  kept : ∀ d ∈ m.definitions, ∀ s ∈ d.steps, ∀ u ∈ d.steps, s ≠ u →
    ∀ status errorMessage before answer after,
      collated collation catalog (.execute (.stepStatus d.version s status errorMessage)) before
        answer after →
      (seen (after.tables, after.session)).steps (d.version, u.id) =
        (seen (before.tables, before.session)).steps (d.version, u.id)
  complete : ∀ bootstrapSql firstTimeout secondTimeout first second firstReport secondReport t between
    shapes d d',
    Runs (run m.definitions bootstrapSql firstTimeout) first firstReport →
    Answers (collated collation catalog) (resting t shapes) first d →
    firstReport.status = .succeeded → SameRows d.tables between →
    Runs (run m.definitions bootstrapSql secondTimeout) second secondReport →
    Answers (collated collation catalog) (resting between d.shapes) second d' →
    ¬ secondReport.Missing

/-- The collation tells the ids of every version apart. -/
def IdsApart (collation : Bytes → Bytes) (m : Manifest) : Prop :=
  ∀ d ∈ m.definitions, ∀ s ∈ d.steps, ∀ u ∈ d.steps, collation s.id = collation u.id → s = u

/-! ## What a run writes for -/

/-- Rows of steps are written for steps of the manifest only. -/
def OfManifest (m : Manifest) : ExecutorCall MigrationStatement → Prop
  | .execute (.stepStatus version step _ _) => ∃ d, m.Has d step ∧ d.version = version
  | _ => True

section Emits

variable {m : Manifest} {definition : MigrationDefinition} {step : MigrationStep}
  {report : MigrationReport} {call : ExecutorCall MigrationStatement}

theorem OfStep.ofManifest (h : OfStep definition.version step call) (hhas : m.Has definition step) :
    OfManifest m call := by
  cases call with
  | control => trivial
  | poison => trivial
  | execute statement =>
      cases statement with
      | stepStatus version step' =>
          obtain ⟨rfl, rfl⟩ := h
          exact ⟨definition, hhas, rfl⟩
      | _ => trivial

theorem OfBootstrap.ofManifest {bootstrap : MigrationBootstrapStep} (h : OfBootstrap bootstrap call) :
    OfManifest m call := by
  cases call with
  | control => trivial
  | poison => trivial
  | execute statement =>
      cases statement with
      | stepStatus => exact h.elim
      | _ => trivial

theorem emits_runDefinition_ofManifest (hdefinition : definition ∈ m.definitions) :
    (runDefinition report definition).run.Emits (OfManifest m) := by
  refine ⟨trivial, ?_⟩
  rintro (e | versionState)
  · trivial
  refine emits_run_bind ?_ fun versionWasComplete => ⟨trivial, ?_⟩
  · exact (trivial : Emits (OfManifest m) (.ret _))
  rintro (e | recorded)
  · trivial
  refine emits_run_bind ?_ fun recordedSteps => emits_run_bind ?_ fun _ =>
    emits_run_bind ?_ fun report => ?_
  · exact (trivial : Emits (OfManifest m) (.ret _))
  · unfold startVersion
    split
    · trivial
    · refine ⟨trivial, ?_⟩
      rintro (e | response) <;> trivial
  · refine emits_run_foldlM (fun report step hstep => ?_) report
    exact (emits_runStep _ _).mono fun call hcall => hcall.ofManifest ⟨hdefinition, hstep⟩
  · unfold finishVersion
    split
    · trivial
    · refine ⟨trivial, ?_⟩
      rintro (e | response)
      · exact ⟨trivial, fun _ => trivial⟩
      · trivial

theorem emits_sendRelease_ofManifest : sendRelease.Emits (OfManifest m) := by
  refine ⟨trivial, fun answer => ?_⟩
  show Emits (OfManifest m) (if confirmed answer = true then _ else _)
  split
  · trivial
  · exact ⟨trivial, fun _ => trivial⟩

theorem emits_destroy_ofManifest (lock : MigrationLock) : lock.destroy.Emits (OfManifest m) := by
  unfold MigrationLock.destroy
  split
  · trivial
  · exact emits_bind emits_sendRelease_ofManifest fun _ => trivial

/-- A run writes rows for the steps of its manifest. -/
theorem emits_run_ofManifest (m : Manifest) (bootstrapSql : List MigrationBootstrapStep)
    (lockTimeoutSeconds : ℕ) :
    (run m.definitions bootstrapSql lockTimeoutSeconds).Emits (OfManifest m) := by
  have hlocked : ∀ report,
      (runLocked m.definitions bootstrapSql report).run.Emits (OfManifest m) := by
    intro report
    unfold runLocked
    split
    · trivial
    · refine emits_run_bind (emits_run_foldlM (fun report bootstrap _ => ?_) report) fun report =>
        emits_run_foldlM (fun report definition hdefinition => ?_) _
      · exact (emits_runBootstrapStep bootstrap).mono fun call hcall => hcall.ofManifest
      · exact emits_runDefinition_ofManifest hdefinition
  refine ⟨trivial, ?_⟩
  rintro (e | acquired)
  · trivial
  show Emits (OfManifest m) (if !truthy acquired then _ else _)
  split
  · trivial
  refine emits_bind (hlocked _) ?_
  rintro (r | r)
  · exact emits_bind (emits_destroy_ofManifest _) fun _ => trivial
  · refine emits_bind (emits_bind emits_sendRelease_ofManifest fun _ => trivial) ?_
    rintro ⟨released, lock⟩
    refine emits_bind (emits_destroy_ofManifest _) fun _ => ?_
    show Emits (OfManifest m) (if released = true then _ else _)
    split <;> trivial

end Emits

/-! ## What a faithful database keeps -/

section Keeps

variable {Shape : Type} {catalog : Catalog Shape} {collation : Bytes → Bytes} {d d' : Database Shape}
  {J : Tables → Prop} {P : Change → Prop} {call : ExecutorCall MigrationStatement}
  {answer : call.Answer}

/-- What the change of a call keeps, its answer keeps. -/
theorem Guarded.faithful (hchange : ∀ t x, P x → J t → J (t.change x))
    (h : Guarded J P (d.tables, d.session)) (hmakes : ∀ now x, Makes now call x → P x)
    (hanswer : faithful catalog call d answer d') : Guarded J P (d'.tables, d'.session) := by
  have hanswered : ∀ answer : SqlResult,
      Answered False call (d.tables, d.session) answer (d'.tables, d'.session) →
        Guarded J P (d'.tables, d'.session) := by
    intro answer hanswered
    rcases answer with e | response
    · obtain ⟨-, hsame | ⟨now, heq⟩ | hdropped⟩ := hanswered
      · exact hsame ▸ h
      · exact heq ▸ h.executes hchange (hmakes now)
      · exact hdropped ▸ h.dropped
    · obtain ⟨⟨now, heq⟩, -⟩ := hanswered
      exact heq ▸ h.executes hchange (hmakes now)
  cases call with
  | poison =>
      obtain rfl : d' = d := hanswer
      exact h
  | control statement => exact hanswered answer hanswer.1
  | execute statement =>
      cases statement with
      | getLock =>
          obtain ⟨-, rfl⟩ := hanswer
          exact h
      | releaseLock =>
          obtain ⟨-, rfl⟩ := hanswer
          exact h
      | bootstrapApply =>
          obtain ⟨-, rfl⟩ := hanswer
          exact ⟨h.seen hchange, by simp⟩
      | bootstrapVerify =>
          obtain ⟨-, rfl⟩ := hanswer
          exact h
      | _ => exact hanswered answer hanswer.2.1

/-- A row that is stored stays, under whatever id something is written. -/
theorem Guarded.collated (hchange : ∀ t x, J t → J (t.change x))
    (h : Guarded J (fun _ => True) (d.tables, d.session))
    (hanswer : collated collation catalog call d answer d') :
    Guarded J (fun _ => True) (d'.tables, d'.session) := by
  have hkept : ∀ (call : ExecutorCall MigrationStatement) (answer : call.Answer),
      Migration.faithful catalog call d answer d' →
        Guarded J (fun _ => True) (d'.tables, d'.session) := fun _ _ hanswer =>
    h.faithful (fun t x _ => hchange t x) (fun _ _ _ => trivial) hanswer
  cases call with
  | poison => exact hkept _ answer hanswer
  | control => exact hkept _ answer hanswer
  | execute statement =>
      cases statement with
      | stepStatus version step status errorMessage =>
          obtain ⟨stored, -, hwritten⟩ := hanswer
          exact hkept (.execute (.stepStatus version { step with id := stored } status errorMessage))
            answer hwritten
      | _ => exact hkept _ answer hanswer

/-- The record of a step is one change, visible at once. -/
theorem seen_stepStatus {version : ℕ} {step : MigrationStep} {status errorMessage : Bytes}
    {answer : SqlResult}
    (hanswer : faithful catalog (.execute (.stepStatus version step status errorMessage)) d answer d') :
    ∃ now, seen (d'.tables, d'.session) =
      (seen (d.tables, d.session)).change (.step now version step status errorMessage) := by
  obtain ⟨hacknowledged, hanswered, -⟩ := hanswer
  rcases answer with e | response
  · have hok : (Except.error e : SqlResult).isOk = true := hacknowledged trivial
    cases hok
  obtain ⟨⟨now, hexecuted⟩, -⟩ := hanswered
  refine ⟨now, ?_⟩
  rw [hexecuted]
  show seen (record _ (d.tables, d.session)) = _
  cases d.session with
  | none => rfl
  | some changes => simp [record, seen]

end Keeps

/-! ## A table with the rows of the manifest -/

/-- Every row of a version of the manifest is stored under the id of one of its steps. -/
def Known (m : Manifest) (t : Tables) : Prop :=
  ∀ d ∈ m.definitions, ∀ id, t.steps (d.version, id) ≠ none → ∃ s ∈ d.steps, s.id = id

/-- The change writes no other row. -/
def Change.OfManifest (m : Manifest) : Change → Prop
  | .step _ v s _ _ => ∃ d, m.Has d s ∧ d.version = v
  | _ => True

section Known

variable {Shape : Type} {catalog : Catalog Shape} {collation : Bytes → Bytes} {d d' : Database Shape}
  {m : Manifest} {t : Tables} {definition : MigrationDefinition} {s u : MigrationStep}
  {call : ExecutorCall MigrationStatement} {answer : call.Answer} {stored : Bytes}

theorem Known.change (t : Tables) (x : Change) (hx : x.OfManifest m) (h : Known m t) :
    Known m (t.change x) := by
  cases x with
  | version => exact h
  | effect => exact h
  | step now version step status errorMessage =>
      obtain ⟨e, he, rfl⟩ := hx
      intro d hd id hrow
      by_cases haddress : (d.version, id) = (e.version, step.id)
      · obtain ⟨hversion, rfl⟩ := Prod.mk.inj haddress
        obtain rfl := m.version_unique hd he.1 hversion
        exact ⟨step, he.2, rfl⟩
      · simp only [Tables.change, Function.update_of_ne haddress] at hrow
        exact h d hd id hrow

/-- Where the collation tells the ids apart, a write goes to the row of its own step. -/
theorem StoredAs.eq (h : StoredAs collation t definition.version s.id stored) (hknown : Known m t)
    (hapart : IdsApart collation m) (hhas : m.Has definition s) : stored = s.id := by
  rcases h with ⟨hrow, hequal⟩ | ⟨rfl, -⟩
  · obtain ⟨u, hu, rfl⟩ := hknown definition hhas.1 stored hrow
    rw [hapart definition hhas.1 u hu s hhas.2 hequal]
  · rfl

/-- On such a table the comparison of keys does not show. -/
theorem collated_faithful (hapart : IdsApart collation m) (hcall : OfManifest m call)
    (h : Guarded (Known m) (Change.OfManifest m) (d.tables, d.session))
    (hanswer : collated collation catalog call d answer d') :
    faithful catalog call d answer d' ∧
      Guarded (Known m) (Change.OfManifest m) (d'.tables, d'.session) := by
  have hsame : faithful catalog call d answer d' := by
    cases call with
    | poison => exact hanswer
    | control => exact hanswer
    | execute statement =>
        cases statement with
        | stepStatus version step status errorMessage =>
            obtain ⟨stored, hstored, hwritten⟩ := hanswer
            obtain ⟨definition, hhas, rfl⟩ := hcall
            obtain rfl := hstored.eq (h.seen Known.change) hapart hhas
            exact hwritten
        | _ => exact hanswer
  refine ⟨hsame, h.faithful Known.change ?_ hsame⟩
  intro now x hmade
  cases hmade with
  | version => trivial
  | step => exact hcall
  | effect => trivial

/-- What a run of the manifest guarantees on a table that compares bytes, it guarantees here. -/
theorem wp_collated {G : Environment (ExecutorCall MigrationStatement) ExecutorCall.Answer
    (Database Shape)} {Q : MigrationReport → Database Shape → Prop}
    {bootstrapSql : List MigrationBootstrapStep} {lockTimeoutSeconds : ℕ} {shapes : Bytes → Option Shape}
    (hapart : IdsApart collation m) (hknown : Known m t)
    (h : wp (faithful catalog) G Q (run m.definitions bootstrapSql lockTimeoutSeconds)
      (resting t shapes)) :
    wp (collated collation catalog) G Q (run m.definitions bootstrapSql lockTimeoutSeconds)
      (resting t shapes) := by
  refine wp_post (wp_simulated h (emits_run_ofManifest m bootstrapSql lockTimeoutSeconds)
    (fun _ _ _ _ hcall hguarded hanswer => collated_faithful hapart hcall hguarded hanswer) ?_)
    fun _ _ hboth => hboth.2
  exact ⟨hknown, by simp⟩

/-- A database that is migrated holds the rows of its manifest, as far as its versions go. -/
theorem Migrated.known {bootstrapSql : List MigrationBootstrapStep} {shapes : Bytes → Option Shape}
    (h : Migrated catalog m bootstrapSql t shapes) : Known m t := by
  intro d hd id hrow
  obtain ⟨row, hrow⟩ := Option.ne_none_iff_exists'.mp hrow
  obtain ⟨step, hcurrent, -⟩ := (h.versions d hd).current id row hrow
  exact ⟨step, List.mem_of_find?_eq_some hcurrent, by simpa using List.find?_some hcurrent⟩

end Known

/-! ## A table with another row -/

section Foreign

variable {Shape : Type} {catalog : Catalog Shape} {collation : Bytes → Bytes} {d : Database Shape}
  {m : Manifest} {t : Tables} {definition : MigrationDefinition} {id : Bytes}
  {report : MigrationReport} {bootstrapSql : List MigrationBootstrapStep}
  {shapes : Bytes → Option Shape}

/-- There is a row for the version, and no step of it has the id. -/
structure Foreign (definition : MigrationDefinition) (id : Bytes) (d : Database Shape) : Prop where
  stored : Guarded (fun t => t.steps (definition.version, id) ≠ none) (fun _ => True)
    (d.tables, d.session)
  unknown : ∀ s ∈ definition.steps, s.id ≠ id

/-- Nothing removes a row. -/
theorem row_change (t : Tables) (x : Change) {a : Address} (h : t.steps a ≠ none) :
    (t.change x).steps a ≠ none := by
  cases x with
  | version => exact h
  | effect => exact h
  | step now version step status errorMessage =>
      by_cases haddress : a = (version, step.id)
      · subst haddress
        simp [Tables.change]
      · simpa [Tables.change, haddress] using h

theorem Foreign.call {call : ExecutorCall MigrationStatement} {answer : call.Answer}
    {d' : Database Shape} (h : Foreign definition id d)
    (hanswer : collated collation catalog call d answer d') : Foreign definition id d' :=
  ⟨h.stored.collated (fun t x => row_change t x) hanswer, h.unknown⟩

/-- The run fails when it reads the rows of that version. -/
theorem runDefinition_foreign (h : Foreign definition id d) :
    wpx (collated collation catalog) unguarded (fun _ _ => False) (fun _ _ => True)
      (runDefinition report definition) d := by
  intro answer d₁ hread
  refine ⟨trivial, ?_⟩
  have h₁ := h.call hread
  rcases answer with e | versionState
  · trivial
  refine (wpx_bind _ _ _).mpr ?_
  cases readVersionState definition report versionState.rows with
  | error r => trivial
  | ok versionWasComplete =>
  intro answer d₂ hread
  refine ⟨trivial, ?_⟩
  rcases answer with e | recorded
  · trivial
  refine (wpx_bind _ _ _).mpr ?_
  cases hrecorded : readRecordedSteps definition report [] recorded.rows with
  | error r => trivial
  | ok recordedSteps =>
  obtain ⟨-, ⟨-, hrows⟩, -⟩ := hread
  obtain ⟨row, hrow⟩ := Option.ne_none_iff_exists'.mp
    (h₁.stored.seen fun t x _ => row_change t x)
  obtain ⟨id', recorded', step, hsame, hcurrent, -⟩ :=
    readRecordedSteps_matches hrecorded ((hrows _).mpr ⟨id, row, hrow, rfl⟩)
  obtain ⟨rfl, -⟩ := RecordedStep.row_inj hsame
  have hid : step.id = id := by simpa using List.find?_some hcurrent
  exact (h₁.unknown step (List.mem_of_find?_eq_some hcurrent) hid).elim

theorem runLocked_foreign (hdefinition : definition ∈ m.definitions) (h : Foreign definition id d) :
    wpx (collated collation catalog) unguarded (fun _ _ => False) (fun _ _ => True)
      (runLocked m.definitions bootstrapSql report) d := by
  unfold runLocked
  split
  · trivial
  let Boot (_ : List MigrationBootstrapStep) (_ : MigrationReport) (d : Database Shape) : Prop :=
    Foreign definition id d
  refine (wpx_bind _ _ _).mpr (wpx_post (wpx_foldlM Boot ?_ h) ?_ fun _ _ hX => hX)
  · intro done b rest r d _ h
    refine wp_post (wp_frame (wp_trivial _ _ _) (emits_runBootstrapStep b)
      (fun _ _ _ _ _ h hanswer => h.call hanswer) h) ?_
    rintro (e | r') d' ⟨h', -⟩
    · trivial
    · exact h'
  intro r d h
  -- the loop does not get past the version with the row
  let Defs (done : List MigrationDefinition) (_ : MigrationReport) (d : Database Shape) : Prop :=
    Foreign definition id d ∧ definition ∉ done
  have hstart : Defs [] { r with status := .succeeded } d := ⟨h, by simp⟩
  refine wpx_post (wpx_foldlM Defs ?_ hstart) ?_ fun _ _ hX => hX
  · rintro done e rest r d - ⟨h, hbefore⟩
    by_cases hsame : definition = e
    · subst hsame
      exact wpx_post (runDefinition_foreign h) (fun _ _ hfalse => hfalse.elim) fun _ _ hX => hX
    · refine wp_post (wp_frame (wp_trivial _ _ _) emits_runDefinition
        (fun _ _ _ _ _ h hanswer => h.call hanswer) h) ?_
      rintro (e | r') d' ⟨h', -⟩
      · trivial
      · exact ⟨h', by simp [hbefore, hsame]⟩
  · rintro r' d' ⟨-, hdone⟩
    exact hdone hdefinition

/-- A run that succeeds has found no row but those of its manifest. -/
theorem run_known (lockTimeoutSeconds : ℕ) :
    wp (collated collation catalog) unguarded
      (fun report _ => report.status = .succeeded → Known m t)
      (run m.definitions bootstrapSql lockTimeoutSeconds) (resting t shapes) := by
  by_cases hknown : Known m t
  · exact wp_post (wp_trivial _ _ _) fun _ _ _ _ => hknown
  unfold Known at hknown
  push Not at hknown
  obtain ⟨definition, hdefinition, id, hrow, hunknown⟩ := hknown
  have hforeign : Foreign definition id (resting t shapes) := ⟨⟨hrow, by simp⟩, hunknown⟩
  rintro answer d ⟨hgranted, rfl⟩
  refine ⟨trivial, ?_⟩
  rcases answer with e | acquired
  · cases hgranted
  show wp _ _ _ (if !truthy acquired then _ else _) _
  have htrue : truthy acquired = true := hgranted
  rw [if_neg (by simp [htrue])]
  refine (wp_bind _ _ _).mpr (wp_post (wp_returns (runLocked_foreign hdefinition hforeign)
    (runLocked_returns m bootstrapSql)) ?_)
  rintro (r | r) d ⟨hreturns, hlocked⟩
  · refine (wp_bind _ _ _).mpr (wp_post (wp_trivial _ _ _) ?_)
    intro _ _ _ hsucceeded
    rw [hreturns r rfl] at hsucceeded
    cases hsucceeded
  · exact hlocked.elim

end Foreign

/-! ## Which manifests -/

section KeysAgree

variable {Shape : Type} {catalog : Catalog Shape} {collation : Bytes → Bytes} {m : Manifest}

/-- A row of an id that compares equal is the row that is written. -/
theorem storedAs_of_equal {t : Tables} {version : ℕ} {id stored : Bytes}
    (hrow : t.steps (version, stored) ≠ none) (h : collation stored = collation id) :
    StoredAs collation t version id stored := Or.inl ⟨hrow, h⟩

/-- Whatever row is written for a step, its id compares equal. -/
theorem StoredAs.equal {t : Tables} {version : ℕ} {id stored : Bytes}
    (h : StoredAs collation t version id stored) : collation stored = collation id := by
  rcases h with ⟨-, hequal⟩ | ⟨rfl, -⟩
  · exact hequal
  · rfl

/-- A successful run leaves a database on which the next one succeeds. -/
theorem not_missing (hapart : IdsApart collation m) {bootstrapSql : List MigrationBootstrapStep}
    {firstTimeout secondTimeout : ℕ} {first second : RunHistory}
    {firstReport secondReport : MigrationReport} {t between : Tables} {shapes : Bytes → Option Shape}
    {d d' : Database Shape}
    (hfirst : Runs (run m.definitions bootstrapSql firstTimeout) first firstReport)
    (hanswered : Answers (collated collation catalog) (resting t shapes) first d)
    (hsucceeded : firstReport.status = .succeeded) (hbetween : SameRows d.tables between)
    (hsecond : Runs (run m.definitions bootstrapSql secondTimeout) second secondReport)
    (hanswered' : Answers (collated collation catalog) (resting between d.shapes) second d') :
    ¬ secondReport.Missing := by
  have hknown : Known m t := (runs_under (run_known firstTimeout) hfirst hanswered).1 hsucceeded
  obtain ⟨t', shapes', rfl, hmigrated⟩ := (runs_under
    (wp_collated hapart hknown (run_migrates firstTimeout)) hfirst hanswered).1 hsucceeded
  have hmigrated' := hmigrated.of_sameRows hbetween
  obtain ⟨⟨-, hreport⟩, -⟩ := runs_under
    (wp_collated hapart hmigrated'.known (run_repeats hmigrated' secondTimeout)) hsecond hanswered'
  rintro ⟨hfailed, -⟩
  rw [hreport.status] at hfailed
  cases hfailed

theorem keysAgree_of_idsApart (hapart : IdsApart collation m) : KeysAgree collation catalog m where
  rows d hd s hs u hu hne t stored hstored hstored' :=
    hne (hapart d hd s hs u hu (hstored.equal.symm.trans hstored'.equal))
  kept d hd s hs u hu hne status errorMessage before answer after hanswer := by
    obtain ⟨stored, hstored, hwritten⟩ := hanswer
    obtain ⟨now, hseen⟩ := seen_stepStatus hwritten
    have hother : u.id ≠ stored := by
      rintro rfl
      exact hne (hapart d hd s hs u hu hstored.equal.symm)
    rw [hseen]
    simp [Tables.change, hother]
  complete _ _ _ _ _ _ _ _ _ _ _ _ := not_missing hapart

/-- Manifest identity.  For every manifest and every collation of the key: the steps of each version
have rows of their own exactly if the collation tells their ids apart. -/
theorem keysAgree_iff (collation : Bytes → Bytes) (catalog : Catalog Shape) (m : Manifest) :
    KeysAgree collation catalog m ↔ IdsApart collation m := by
  refine ⟨?_, keysAgree_of_idsApart⟩
  intro hagree d hd s hs u hu hequal
  by_contra hne
  -- once the first step is recorded, its row answers to both ids
  let t : Tables := Tables.change {} (.step 0 d.version s running [])
  have hrow : t.steps (d.version, s.id) ≠ none := by simp [t, Tables.change]
  exact hagree.rows d hd s hs u hu hne t s.id (storedAs_of_equal hrow rfl)
    (storedAs_of_equal hrow hequal)

/-- Of two ids that compare equal, the record of the second step goes into the row of the first. -/
theorem overwritten {d : MigrationDefinition} {first second : MigrationStep}
    (hd : d ∈ m.definitions) (hfirst : first ∈ d.steps) (hsecond : second ∈ d.steps)
    (hids : second.id ≠ first.id) (hequal : collation first.id = collation second.id) :
    ¬ KeysAgree collation catalog m := by
  intro hagree
  let t : Tables := Tables.change {} (.step 0 d.version first succeeded [])
  let t' : Tables := t.change (.step 0 d.version { second with id := first.id } running [])
  have hstored : StoredAs collation t d.version second.id first.id :=
    storedAs_of_equal (by simp [t, Tables.change]) hequal
  have hcall : collated collation catalog (.execute (.stepStatus d.version second running []))
      (resting t fun _ => none) (.ok {}) (resting t' fun _ => none) :=
    ⟨first.id, hstored, fun _ => rfl, ⟨⟨0, rfl⟩, trivial⟩, rfl⟩
  have hkept := hagree.kept d hd second hsecond first hfirst
    (fun hsame => hids (congrArg MigrationStep.id hsame)) running [] _ _ _ hcall
  have hrow : (t.steps (d.version, first.id)).map (fun row => row.status) = some succeeded := by
    simp [t, Tables.change, upsertStep]
  have hrow' : (t'.steps (d.version, first.id)).map (fun row => row.status) = some running := by
    simp [t', Tables.change, upsertStep]
  have hsame : t'.steps (d.version, first.id) = t.steps (d.version, first.id) := hkept
  rw [hsame, hrow] at hrow'
  exact running_ne_succeeded (Option.some.inj hrow').symm

end KeysAgree

/-! ## Two ids that differ in case -/

section Cased

/-- A step that checks that a table is there. -/
def checkStep (id : Bytes) : MigrationStep where
  id := id
  phase := .precheck
  execution := .check
  applySql := lit "SELECT 1"
  verifySql := lit "SELECT COUNT(*)=1 FROM seed"
  checksum := migrationChecksum id .precheck .check (lit "SELECT 1")
    (lit "SELECT COUNT(*)=1 FROM seed")

/-- A manifest of one version with two such steps. -/
def casedManifest : Manifest where
  definitions := [⟨1, lit "seed", [checkStep (lit "001_A"), checkStep (lit "001_a")]⟩]
  versions_increasing := by simp
  steps_nonempty := by simp
  ids_increasing := by
    have hlt : lit "001_A" < lit "001_a" := by decide
    simpa [checkStep] using hlt

/-- Case does not matter. -/
def foldCase (text : Bytes) : Bytes := text.map tolower

/-- When the second step starts, the record of the first one, which has succeeded, is overwritten. -/
theorem keysAgree_cased : ¬ KeysAgree foldCase seedCatalog casedManifest := by
  intro hagree
  have hids : (checkStep (lit "001_a")).id ≠ (checkStep (lit "001_A")).id := by decide
  have hequal : foldCase (checkStep (lit "001_A")).id = foldCase (checkStep (lit "001_a")).id := by
    decide
  exact overwritten (d := ⟨1, lit "seed", [checkStep (lit "001_A"), checkStep (lit "001_a")]⟩)
    (List.mem_singleton_self _) (by simp) (by simp) hids hequal hagree

end Cased

end Warehouse.Mysql.Migration
