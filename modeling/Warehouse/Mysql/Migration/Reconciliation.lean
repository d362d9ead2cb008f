/-
# Warehouse.Mysql.Migration.Reconciliation — recorded migrations against the manifest

The documentation says that recorded steps and the current manifest are reconciled both ways, and
that a deletion is refused.  The runner reads the rows of the versions it iterates over, and no
others.  So a version that has left the manifest altogether is not noticed, and this is the only
thing that is not: the main theorem says that the promise holds for exactly those tables whose
versions are all in the manifest, or whose rows are refused for another reason.
-/
import Warehouse.Mysql.Migration.Cooperative
import Warehouse.Mysql.Migration.Gate

namespace Warehouse.Mysql.Migration

open Warehouse.Interaction Warehouse.Interaction.Program

variable {α : Type} {t t' : Tables} {m : Manifest} {bootstrapSql : List MigrationBootstrapStep}
  {definition : MigrationDefinition} {step : MigrationStep} {report : MigrationReport}
  {c c' : Tables × Session} {V V' : ℕ → Prop}

/-! ## Executors that answer reads truthfully -/

/-- An executor whose answers to reads are truthful; a statement may also fail, with or without
effect, and lock requests and poisoning get any answer. -/
def reading : Environment (ExecutorCall MigrationStatement) ExecutorCall.Answer (Tables × Session) :=
  fun call c answer c' =>
    match (migrationServer False).role call with
    | .work => (migrationServer False).serve call c answer c'
    | _ => c' = c

theorem reading_of_willing {call : ExecutorCall MigrationStatement} {answer : call.Answer}
    (h : willing False call c answer c') : reading call c answer c' := by
  unfold willing Server.solo at h
  unfold reading
  cases hrole : (migrationServer False).role call with
  | work => simpa only [hrole] using h
  | acquire =>
      simp only [hrole] at h
      exact h.2
  | release => simpa only [hrole] using h
  | hangUp => simp only [hrole] at h

/-- Some run on such an executor over tables `t` reports success. -/
def SucceedsOn (m : Manifest) (bootstrapSql : List MigrationBootstrapStep)
    (lockTimeoutSeconds : ℕ) (t : Tables) : Prop :=
  ∃ report c', Relation.ReflTransGen (Step reading)
    (run m.definitions bootstrapSql lockTimeoutSeconds, (t, none)) (.ret report, c') ∧
      report.status = .succeeded

/-! ## What the statements of one version leave alone -/

/-- The version whose rows a change moves. -/
def Change.about : Change → ℕ
  | .version _ v .. => v
  | .step _ v .. => v
  | .effect address => address.1

/-- Outside the versions `V` the rows are those of `t`, and nothing else is pending. -/
structure Untouched (V : ℕ → Prop) (t : Tables) (c : Tables × Session) : Prop where
  versions : ∀ v, ¬ V v → c.1.versions v = t.versions v
  steps : ∀ a : Address, ¬ V a.1 → c.1.steps a = t.steps a
  pending : ∀ x ∈ c.2.getD [], V x.about

theorem Untouched.mono (h : Untouched V t c) (hV : ∀ v, V v → V' v) : Untouched V' t c where
  versions v hv := h.versions v fun hin => hv (hV v hin)
  steps a ha := h.steps a fun hin => ha (hV a.1 hin)
  pending x hx := hV _ (h.pending x hx)

/-- Outside the versions `V` the rows are those of `t`. -/
structure RowsOutside (V : ℕ → Prop) (t t' : Tables) : Prop where
  versions : ∀ v, ¬ V v → t'.versions v = t.versions v
  steps : ∀ a : Address, ¬ V a.1 → t'.steps a = t.steps a

theorem rowsOutside_change (t' : Tables) (x : Change) (hx : V x.about) (h : RowsOutside V t t') :
    RowsOutside V t (t'.change x) := by
  refine ⟨fun v hv => ?_, fun a ha => ?_⟩
  · rw [← h.versions v hv]
    cases x with
    | version now version name status errorMessage =>
        have hne : v ≠ version := fun heq => hv (heq ▸ hx)
        simp [Tables.change, hne]
    | step => rfl
    | effect => rfl
  · rw [← h.steps a ha]
    cases x with
    | version => rfl
    | step now version step status errorMessage =>
        have hne : a ≠ (version, step.id) := fun heq => ha (by rw [heq]; exact hx)
        simp [Tables.change, hne]
    | effect => rfl

theorem untouched_iff : Untouched V t c ↔ Guarded (RowsOutside V t) (fun x => V x.about) c :=
  ⟨fun h => ⟨⟨h.versions, h.steps⟩, h.pending⟩, fun h => ⟨h.tables.versions, h.tables.steps, h.pending⟩⟩

theorem untouched_seen (h : Untouched V t c) : Untouched V t (seen c, none) := by
  have hseen : RowsOutside V t (seen c) := (untouched_iff.mp h).seen rowsOutside_change
  exact ⟨hseen.versions, hseen.steps, by simp⟩

/-- The call writes rows of the versions `V` only. -/
def About (V : ℕ → Prop) : ExecutorCall MigrationStatement → Prop
  | .execute (.versionStatus version ..) => V version
  | .execute (.stepStatus version ..) => V version
  | .execute (.apply version _) => V version
  | _ => True

theorem About.makes {call : ExecutorCall MigrationStatement} {now : ℕ} {x : Change}
    (h : About V call) (hmakes : Makes now call x) : V x.about := by
  cases hmakes <;> exact h

/-- What an executed statement, a lost one or a dropped transaction can do. -/
theorem reading_moves {call : ExecutorCall MigrationStatement} {answer : call.Answer}
    (h : reading call c answer c') :
    c' = c ∨ (∃ now, c' = executes now call c) ∨ c' = (c.1, none) := by
  have hanswered : ∀ answer, Answered False call c answer c' →
      c' = c ∨ (∃ now, c' = executes now call c) ∨ c' = (c.1, none) := by
    rintro (e | response)
    · exact fun h => h.2
    · exact fun h => Or.inr (Or.inl h.1)
  unfold reading at h
  cases hrole : (migrationServer False).role call with
  | work =>
      simp only [hrole] at h
      cases call with
      | control => exact hanswered answer h
      | execute => exact hanswered answer h
      | poison => exact h.elim
  | acquire =>
      simp only [hrole] at h
      exact Or.inl h
  | release =>
      simp only [hrole] at h
      exact Or.inl h
  | hangUp =>
      simp only [hrole] at h
      exact Or.inl h

/-- What the changes of a call keep, such an executor keeps. -/
theorem Guarded.reading {J : Tables → Prop} {P : Change → Prop}
    {call : ExecutorCall MigrationStatement} {answer : call.Answer} (h : Guarded J P c)
    (hchange : ∀ t x, P x → J t → J (t.change x)) (hmakes : ∀ now x, Makes now call x → P x)
    (hstep : reading call c answer c') : Guarded J P c' := by
  rcases reading_moves hstep with rfl | ⟨now, rfl⟩ | rfl
  · exact h
  · exact h.executes hchange (hmakes now)
  · exact h.dropped

/-- What a call does not write about, it leaves alone, whatever the executor answers. -/
theorem untouched_reading {call : ExecutorCall MigrationStatement} {answer : call.Answer}
    (hcall : About V call) (h : Untouched V t c) (hstep : reading call c answer c') :
    Untouched V t c' :=
  untouched_iff.mpr ((untouched_iff.mp h).reading rowsOutside_change (fun _ _ => hcall.makes) hstep)

theorem OfVersion.about {version : ℕ} {call : ExecutorCall MigrationStatement}
    (h : OfVersion version call) (hV : V version) : About V call := by
  cases call with
  | control => trivial
  | poison => trivial
  | execute statement =>
      cases statement with
      | versionStatus => exact (show _ = _ from h) ▸ hV
      | stepStatus => exact (show _ = _ from h) ▸ hV
      | apply => exact (show _ = _ from h) ▸ hV
      | _ => trivial

theorem OfBootstrap.about {b : MigrationBootstrapStep} {call : ExecutorCall MigrationStatement}
    (h : OfBootstrap b call) : About V call := by
  cases call with
  | control => trivial
  | poison => trivial
  | execute statement =>
      cases statement with
      | versionStatus => exact h.elim
      | stepStatus => exact h.elim
      | apply => exact h.elim
      | _ => trivial

/-! ## What success says about the rows that were read -/

/-- A guarantee that asks for nothing. -/
abbrev anything :
    Environment (ExecutorCall MigrationStatement) ExecutorCall.Answer (Tables × Session) :=
  fun _ _ _ _ => True

/-- A read that is answered tells the truth about the rows of a version that was left alone. -/
theorem wp_reading_read {Q : α → Tables × Session → Prop} {statement : MigrationStatement}
    {next : SqlResult → SqlProgram MigrationStatement α}
    (hrole : (migrationServer False).role (.execute statement) = .work)
    (hsame : ∀ now, performs now statement c = c)
    (herror : ∀ e c', wp reading anything Q (next (.error e)) c')
    (hok : ∀ response, Truthful False (seen c) (.execute statement) response →
      wp reading anything Q (next (.ok response)) c) :
    wp reading anything Q (.call (.execute statement) next) c := by
  intro answer c' hstep
  refine ⟨trivial, ?_⟩
  unfold reading at hstep
  simp only [hrole] at hstep
  rcases answer with e | response
  · exact herror e c'
  · obtain ⟨⟨now, rfl⟩, htruthful⟩ := hstep
    rw [show executes now (.execute statement) c = c from hsame now]
    exact hok response htruthful

theorem runStep_reading {versionWasComplete : Bool} {recordedSteps : RecordedSteps} :
    wpx reading anything
      (fun _ _ => versionWasComplete = true → step.Required →
        ∃ existing, recordedSteps.lookup step.id = some existing ∧ existing.status = succeeded)
      (fun _ _ => True)
      (runStep definition versionWasComplete recordedSteps report step) c := by
  have hincomplete : versionWasComplete ≠ true → ∀ work : Runner MigrationReport,
      wpx reading anything
      (fun _ _ => versionWasComplete = true → step.Required →
        ∃ existing, recordedSteps.lookup step.id = some existing ∧ existing.status = succeeded)
      (fun _ _ => True) work c := by
    intro hne work
    refine wp_post (wp_trivial reading work.run c) ?_
    rintro (e | r) c' _
    · trivial
    · exact fun hcomplete => absurd hcomplete hne
  unfold runStep
  by_cases hcleanup : step.phase = .cleanup
  · rw [if_pos hcleanup]
    exact fun _ hrequired => absurd hcleanup hrequired
  rw [if_neg hcleanup]
  cases hlookup : recordedSteps.lookup step.id with
  | some existing =>
      simp only
      by_cases hstale : versionWasComplete = true ∧ existing.status ≠ succeeded
      · rw [if_pos hstale]
        trivial
      rw [if_neg hstale]
      by_cases hstatus : existing.status = succeeded
      · rw [if_pos hstatus]
        exact fun _ _ => ⟨existing, rfl, hstatus⟩
      · rw [if_neg hstatus, ← hlookup]
        exact hincomplete (fun hcomplete => hstale ⟨hcomplete, hstatus⟩) _
  | none =>
      simp only
      by_cases hcomplete : versionWasComplete = true
      · rw [if_pos hcomplete]
        trivial
      · rw [if_neg hcomplete, ← hlookup]
        exact hincomplete hcomplete _

/-- A version that is got through had rows that agree with its definition. -/
theorem runDefinition_reading (hc : Untouched V t c) (hV : ¬ V definition.version) :
    wpx reading anything (fun _ _ => Accepts definition t) (fun _ _ => True)
      (runDefinition report definition) c := by
  have hseen := untouched_seen hc
  refine wp_reading_read rfl (fun _ => rfl) (fun e c' => trivial) fun versionState hanswer => ?_
  refine (wpx_bind _ _ _).mpr ?_
  cases hversion : readVersionState definition report versionState.rows with
  | error r => trivial
  | ok versionWasComplete =>
  refine wp_reading_read rfl (fun _ => rfl) (fun e c' => trivial) fun recorded hanswer' => ?_
  refine (wpx_bind _ _ _).mpr ?_
  cases hrecorded : readRecordedSteps definition report [] recorded.rows with
  | error r => trivial
  | ok recordedSteps =>
  obtain ⟨hname, hnone⟩ := readVersionState_truthful hanswer hversion
  have hread := readRecordedSteps_truthful hanswer' hrecorded
  have hversions : (seen c).versions definition.version = t.versions definition.version :=
    hseen.versions _ hV
  have hsteps : ∀ id, (seen c).steps (definition.version, id) = t.steps (definition.version, id) :=
    fun id => hseen.steps _ hV
  have hall : (versionWasComplete = true → ∀ step ∈ definition.steps, step.Required →
      ∃ existing, recordedSteps.lookup step.id = some existing ∧ existing.status = succeeded) →
      Accepts definition t := by
    intro hcomplete
    refine ⟨fun row hrow => (hname row (hversions.trans hrow)).1, fun id row hrow => ?_,
      fun row hrow hstatus step hstep hrequired => ?_⟩
    · exact hread.current id row ((hsteps id).trans hrow)
    · have htrue := (hname row (hversions.trans hrow)).2.mpr hstatus
      obtain ⟨existing, hlookup, hexisting⟩ := hcomplete htrue step hstep hrequired
      rw [hread.lookup, hsteps] at hlookup
      obtain ⟨stepRow, hstored, rfl⟩ := Option.map_eq_some_iff.mp hlookup
      exact ⟨stepRow, hstored, hexisting⟩
  let I (done : List MigrationStep) (_ : MigrationReport) (_ : Tables × Session) : Prop :=
    versionWasComplete = true → ∀ step ∈ done, step.Required →
      ∃ existing, recordedSteps.lookup step.id = some existing ∧ existing.status = succeeded
  refine (wpx_bind _ _ _).mpr (wpx_post (Q := fun _ _ => True) ?_ ?_ (fun _ _ hX => hX))
  · exact wp_post (wp_trivial reading _ _) fun r c' _ => by cases r <;> trivial
  intro _ c₁ _
  refine (wpx_bind _ _ _).mpr (wpx_post (wpx_foldlM I ?_ ?_) ?_ (fun _ _ hX => hX))
  · intro done step rest r c' _ hI
    refine wpx_post runStep_reading ?_ (fun _ _ hX => hX)
    intro r' c'' hstep hcomplete s hs hrequired
    rcases List.mem_append.mp hs with hold | hnew
    · exact hI hcomplete s hold hrequired
    · rw [List.mem_singleton.mp hnew] at hrequired ⊢
      exact hstep hcomplete hrequired
  · exact fun _ s hs => by cases hs
  · intro r c' hI
    refine wp_post (wp_trivial reading _ _) ?_
    rintro (e | r') c'' _
    · trivial
    · exact hall hI

theorem runBootstrapStep_reading {b : MigrationBootstrapStep} (hc : Untouched V t c) :
    wpx reading anything
      (fun _ c' => Untouched V t c' ∧ isSingleServerStatement b.applySql = true ∧
        isSingleServerStatement b.verifySql = true)
      (fun _ _ => True) (runBootstrapStep report b) c := by
  by_cases hsingle : isSingleServerStatement b.applySql = true ∧
      isSingleServerStatement b.verifySql = true
  · refine wp_post (wp_frame (wp_trivial reading _ _)
      ((emits_runBootstrapStep b).mono fun call hcall => hcall.about)
      (fun _ _ _ _ hop h hstep => untouched_reading hop h hstep) hc) ?_
    rintro (e | r) c' ⟨hc', _⟩
    · trivial
    · exact ⟨hc', hsingle⟩
  · unfold runBootstrapStep
    rw [if_pos]
    · trivial
    · simp only [Bool.or_eq_true, Bool.not_eq_true']
      by_contra hnot
      simp only [not_or, Bool.not_eq_false] at hnot
      exact hsingle hnot

/-- What is held under the lock gets through only if the tables are acceptable. -/
theorem runLocked_reading :
    wpx reading anything (fun _ _ => Acceptable m bootstrapSql t) (fun _ _ => True)
      (runLocked m.definitions bootstrapSql report) (t, none) := by
  unfold runLocked
  by_cases hempty : bootstrapSql.isEmpty = true
  · rw [if_pos hempty]
    trivial
  rw [if_neg hempty]
  let Boot (done : List MigrationBootstrapStep) (_ : MigrationReport) (c : Tables × Session) :
      Prop := Untouched (fun _ => False) t c ∧ ∀ b ∈ done,
        isSingleServerStatement b.applySql = true ∧ isSingleServerStatement b.verifySql = true
  let Defs (done : List MigrationDefinition) (_ : MigrationReport) (c : Tables × Session) : Prop :=
    Untouched (fun v => ∃ d ∈ done, d.version = v) t c ∧ ∀ d ∈ done, Accepts d t
  have hstart : Boot [] report (t, none) :=
    ⟨⟨fun _ _ => rfl, fun _ _ => rfl, by simp⟩, by simp⟩
  refine (wpx_bind _ _ _).mpr (wpx_post (wpx_foldlM Boot ?_ hstart) ?_ (fun _ _ hX => hX))
  · rintro done b rest r c _ ⟨hc, hdone⟩
    refine wpx_post (runBootstrapStep_reading hc) ?_ (fun _ _ hX => hX)
    rintro r' c' ⟨hc', hsingle⟩
    refine ⟨hc', fun b' hb' => ?_⟩
    rcases List.mem_append.mp hb' with hold | hnew
    · exact hdone b' hold
    · rw [List.mem_singleton.mp hnew]
      exact hsingle
  rintro r c ⟨hc, hsingle⟩
  have hfirst : Defs [] { r with status := .succeeded } c :=
    ⟨hc.mono fun _ h => h.elim, by simp⟩
  refine wpx_post (wpx_foldlM Defs ?_ hfirst) ?_ (fun _ _ hX => hX)
  · rintro done definition rest r c hm ⟨hc, hdone⟩
    have hversions := m.versions_increasing
    rw [hm, List.pairwise_append] at hversions
    have hnew : ¬ ∃ d ∈ done, d.version = definition.version := by
      rintro ⟨d, hd, hversion⟩
      have hlt : d.version < definition.version :=
        hversions.2.2 d hd definition List.mem_cons_self
      omega
    have hwider : Untouched (fun v => ∃ d ∈ done ++ [definition], d.version = v) t c :=
      hc.mono fun v ⟨d, hd, hv⟩ => ⟨d, List.mem_append_left _ hd, hv⟩
    refine wp_post (wp_frame (runDefinition_reading hc hnew)
      (emits_runDefinition.mono fun call hcall => hcall.about ⟨definition, by simp, rfl⟩)
      (fun _ _ _ _ hop h hstep => untouched_reading hop h hstep) hwider) ?_
    rintro (e | r') c' ⟨hc', haccepts⟩
    · trivial
    · refine ⟨hc', fun d hd => ?_⟩
      rcases List.mem_append.mp hd with hold | hlast
      · exact hdone d hold
      · rw [List.mem_singleton.mp hlast]
        exact haccepts
  · rintro r' c' ⟨_, hall⟩
    exact ⟨by simpa using hempty, hsingle, hall⟩

theorem run_reading {lockTimeoutSeconds : ℕ} :
    wp reading anything (fun report _ => report.status = .succeeded → Acceptable m bootstrapSql t)
      (run m.definitions bootstrapSql lockTimeoutSeconds) (t, none) := by
  intro answer c' hstep
  refine ⟨trivial, ?_⟩
  obtain rfl : c' = (t, none) := hstep
  rcases answer with e | acquired
  · intro h
    cases h
  change wp reading anything _ (if !truthy acquired then _ else _) _
  split
  · intro h
    cases h
  refine (wp_bind _ _ _).mpr
    (wp_post (wp_returns runLocked_reading (runLocked_returns m bootstrapSql)) ?_)
  rintro (r | r) c' ⟨hreturns, hacceptable⟩
  · refine (wp_bind _ _ _).mpr (wp_post (wp_trivial reading _ _) ?_)
    intro _ _ _ hsucceeded
    rw [hreturns r rfl] at hsucceeded
    cases hsucceeded
  · refine wp_post (wp_trivial reading _ _) ?_
    exact fun _ _ _ _ => hacceptable

/-- Success on such an executor takes acceptable tables, and acceptable tables are enough. -/
theorem succeedsOn_iff (m : Manifest) (bootstrapSql : List MigrationBootstrapStep)
    (lockTimeoutSeconds : ℕ) (t : Tables) :
    SucceedsOn m bootstrapSql lockTimeoutSeconds t ↔ Acceptable m bootstrapSql t := by
  constructor
  · rintro ⟨report, c', hsteps, hsucceeded⟩
    have hfinal := wp_of_steps run_reading hsteps
    exact hfinal hsucceeded
  · intro h
    have hmay : may reading (fun report _ => report.status = .succeeded)
        (run m.definitions bootstrapSql lockTimeoutSeconds) (t, none) :=
      may_mono (run_may False lockTimeoutSeconds h) fun _ _ _ _ hstep => reading_of_willing hstep
    obtain ⟨report, c', hsteps, hsucceeded⟩ := steps_of_may hmay
    exact ⟨report, c', hsteps, hsucceeded⟩

/-! ## The promise and what becomes of it -/

/-- Every recorded step and version is one of the manifest's, with what was recorded for it. -/
structure Corresponds (m : Manifest) (t : Tables) : Prop where
  steps : ∀ version id row, t.steps (version, id) = some row →
    ∃ d step, m.Has d step ∧ d.version = version ∧ step.id = id ∧ row.Matches step
  versions : ∀ version row, t.versions version = some row →
    ∃ d ∈ m.definitions, d.version = version ∧ d.name = row.name

/-- The version has a row in one of the two tables. -/
def RecordedVersion (t : Tables) (version : ℕ) : Prop :=
  (∃ row, t.versions version = some row) ∨ ∃ id row, t.steps (version, id) = some row

/-- Among versions that the manifest has, the reconciliation is complete. -/
theorem Acceptable.corresponds (h : Acceptable m bootstrapSql t)
    (hall : ∀ version, RecordedVersion t version → ∃ d ∈ m.definitions, d.version = version) :
    Corresponds m t where
  steps version id row hrow := by
    obtain ⟨d, hd, rfl⟩ := hall version (Or.inr ⟨id, row, hrow⟩)
    obtain ⟨step, hcurrent, hmatches⟩ := (h.rows d hd).current id row hrow
    have hid : step.id = id := by simpa using List.find?_some hcurrent
    exact ⟨d, step, ⟨hd, List.mem_of_find?_eq_some hcurrent⟩, rfl, hid, hmatches⟩
  versions version row hrow := by
    obtain ⟨d, hd, rfl⟩ := hall version (Or.inl ⟨row, hrow⟩)
    exact ⟨d, hd, rfl, ((h.rows d hd).name row hrow).symm⟩

/-- Success implies the correspondence for exactly those tables that record no version outside the
manifest, or that are refused for the rows of the manifest's own versions. -/
theorem reconciliation_iff (m : Manifest) (bootstrapSql : List MigrationBootstrapStep)
    (lockTimeoutSeconds : ℕ) (t : Tables) :
    (SucceedsOn m bootstrapSql lockTimeoutSeconds t → Corresponds m t) ↔
      (Acceptable m bootstrapSql t →
        ∀ version, RecordedVersion t version → ∃ d ∈ m.definitions, d.version = version) := by
  rw [succeedsOn_iff]
  constructor
  · intro hpromise hacceptable version hrecorded
    have hcorresponds := hpromise hacceptable
    rcases hrecorded with ⟨row, hrow⟩ | ⟨id, row, hrow⟩
    · obtain ⟨d, hd, hversion, _⟩ := hcorresponds.versions version row hrow
      exact ⟨d, hd, hversion⟩
    · obtain ⟨d, step, hstep, hversion, _⟩ := hcorresponds.steps version id row hrow
      exact ⟨d, hstep.1, hversion⟩
  · exact fun hall hacceptable => hacceptable.corresponds (hall hacceptable)

/-- A version that an earlier release has migrated, and that the manifest no longer has. -/
def droppedVersion : Tables where
  versions := Function.update (fun _ => none) 2 (some ⟨lit "002_dropped", succeeded, 0, some 0, []⟩)

/-- With it recorded, a run of the seed manifest still reports success. -/
theorem reconciliation_fails : ¬ ∀ (m : Manifest) (bootstrapSql : List MigrationBootstrapStep)
    (lockTimeoutSeconds : ℕ) (t : Tables),
    SucceedsOn m bootstrapSql lockTimeoutSeconds t → Corresponds m t := by
  intro hall
  have hacceptable : Acceptable seedManifest [metadataTable] droppedVersion := by
    refine ⟨by simp, by decide, fun d hd => ?_⟩
    obtain rfl : d = ⟨1, lit "001_seed", [seedStep]⟩ := by simpa [seedManifest] using hd
    have hnone : droppedVersion.versions 1 = none := by simp [droppedVersion]
    refine ⟨fun row hrow => ?_, fun id row hrow => ?_, fun row hrow => ?_⟩
    · rw [hnone] at hrow
      cases hrow
    · cases hrow
    · rw [hnone] at hrow
      cases hrow
  have hcorresponds := hall seedManifest [metadataTable] 10 droppedVersion
    ((succeedsOn_iff _ _ _ _).mpr hacceptable)
  obtain ⟨d, hd, hversion, _⟩ := hcorresponds.versions 2 _ (by simp [droppedVersion]; rfl)
  obtain rfl : d = ⟨1, lit "001_seed", [seedStep]⟩ := by simpa [seedManifest] using hd
  cases hversion

end Warehouse.Mysql.Migration
