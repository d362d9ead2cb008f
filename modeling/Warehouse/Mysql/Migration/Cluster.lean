/-
# Warehouse.Mysql.Migration.Cluster — many starters, one database

`MigrationRunner::run` by any number of processes against the server of `Database`.  The walk of
`ClientView` is carried through the loops to the whole run; the rule of `Exclusive` then turns what
one run keeps into an invariant of all runs together, wherever each of them is stopped.
-/
import Warehouse.Mysql.Migration.ClientView
import Warehouse.Mysql.Migration.Cooperative

namespace Warehouse.Mysql.Migration

open Warehouse.Interaction Warehouse.Interaction.Program

section Loops
variable {known : ℕ → MigrationStep → Prop} {exact : Prop} {t t₀ t' : Tables}
  {step : MigrationStep} {definition : MigrationDefinition} {report : MigrationReport}
  {recordedSteps : RecordedSteps} {versionWasComplete : Bool}
  {doneSteps restSteps : List MigrationStep} {P : Tables → Prop}

/-! ## The loop over the steps -/

theorem runStep_view (hcons : Consistent known exact t)
    (hids : definition.steps.Pairwise fun s t => s.id < t.id)
    (hknown : ∀ s ∈ definition.steps, known definition.version s)
    (hread : Reconciled definition recordedSteps t₀)
    (hsteps : definition.steps = doneSteps ++ step :: restSteps)
    (hloop : StepLoop definition versionWasComplete t₀ doneSteps t) :
    wpcx known exact
      (fun _ v => Within known exact
        (StepLoop definition versionWasComplete t₀ (doneSteps ++ [step])) v)
      (fun _ v => Within known exact (fun _ => True) v)
      (runStep definition versionWasComplete recordedSteps report step) (inside t) := by
  have hmem : step ∈ definition.steps := by
    rw [hsteps]
    exact List.mem_append_right _ List.mem_cons_self
  have hfresh := ids_fresh hids hsteps
  -- the row of this step is still the one that the runner has read
  have hsame : t.steps (definition.version, step.id) = t₀.steps (definition.version, step.id) :=
    hloop.todo step.id fun s hs _ => hfresh s hs
  have hmatches := hread.row_matches hids hmem
  rw [← hsame] at hmatches
  unfold runStep
  by_cases hcleanup : step.phase = .cleanup
  · rw [if_pos hcleanup]
    exact within_inside hcons (hloop.skip fun hrequired => absurd hcleanup hrequired)
  rw [if_neg hcleanup, hread.lookup, ← hsame]
  have hthrow : ∀ message, wpcx known exact
      (fun _ v => Within known exact
        (StepLoop definition versionWasComplete t₀ (doneSteps ++ [step])) v)
      (fun _ v => Within known exact (fun _ => True) v)
      (throw (failed report step.id message) : Runner MigrationReport) (inside t) := fun _ => within_inside hcons trivial
  -- whichever way the step is worked on, its row ends as SUCCEEDED
  have hwork : ∀ {work : Runner MigrationReport}, wpcx known exact
      (fun _ v => Within known exact (StepWritten definition.version step succeeded t) v)
      (fun _ v => Within known exact (fun _ => True) v) work (inside t) →
      wpcx known exact
      (fun _ v => Within known exact
        (StepLoop definition versionWasComplete t₀ (doneSteps ++ [step])) v)
      (fun _ v => Within known exact (fun _ => True) v) work (inside t) := by
    intro work hdone
    refine wpx_post hdone ?_ (fun _ _ hX => hX)
    rintro _ v (hv | ⟨t', rfl, hcons', hwritten⟩)
    · exact within_gone hv
    · exact within_inside hcons' (hloop.written hcleanup hfresh hwritten)
  cases hrow : t.steps (definition.version, step.id) with
  | some row =>
      simp only [Option.map_some]
      by_cases hstale : versionWasComplete = true ∧ row.status ≠ succeeded
      · rw [if_pos hstale]
        exact hthrow _
      rw [if_neg hstale]
      by_cases hstatus : row.status = succeeded
      · rw [if_pos hstatus]
        exact within_inside hcons (hloop.skip fun _ => ⟨row, hrow, hmatches row hrow, hstatus⟩)
      · rw [if_neg hstatus]
        have hincomplete : versionWasComplete = false := by
          by_contra hcomplete
          exact hstale ⟨by simpa using hcomplete, hstatus⟩
        have hopen := hloop.opened hincomplete
        refine hwork (recoverStep_view hcons ⟨hopen, hknown step hmem, hcleanup, ?_⟩)
        intro row' hrow'
        obtain rfl := Option.some.inj (hrow.symm.trans hrow')
        exact ⟨hmatches row hrow, hstatus⟩
  | none =>
      simp only [Option.map_none]
      by_cases hcomplete : versionWasComplete = true
      · rw [if_pos hcomplete]
        exact hthrow _
      rw [if_neg hcomplete]
      have hopen := hloop.opened (by simpa using hcomplete)
      refine hwork (performStep_view hcons ⟨hopen, hknown step hmem, hcleanup, ?_⟩ ?_)
      · intro row hrow'
        rw [hrow] at hrow'
        cases hrow'
      · -- the effect would have been preceded by a row
        intro hexact _
        by_contra hne
        obtain ⟨row, hrow', _⟩ := hcons.ahead hexact _ hne
        rw [hrow] at hrow'
        cases hrow'

theorem runSteps_view (hcons : Consistent known exact t)
    (hids : definition.steps.Pairwise fun s t => s.id < t.id)
    (hknown : ∀ s ∈ definition.steps, known definition.version s)
    (hread : Reconciled definition recordedSteps t₀)
    (hloop : StepLoop definition versionWasComplete t₀ [] t) :
    wpcx known exact
      (fun _ v => Within known exact
        (StepLoop definition versionWasComplete t₀ definition.steps) v)
      (fun _ v => Within known exact (fun _ => True) v)
      (definition.steps.foldlM (runStep definition versionWasComplete recordedSteps) report)
      (inside t) := by
  let I (doneSteps : List MigrationStep) (_ : MigrationReport) (v : ClientView) : Prop :=
    Within known exact (StepLoop definition versionWasComplete t₀ doneSteps) v
  refine wpx_foldlM I ?_ (within_inside hcons hloop)
  rintro done step rest r v hsteps (hv | ⟨t', rfl, hcons', hloop'⟩)
  · exact wpx_gone hv (fun _ => within_gone hv) fun _ => within_gone hv
  · exact runStep_view hcons' hids hknown hread hsteps hloop'

/-! ## One version, and the whole run -/

/-- All required steps of a definition are recorded as SUCCEEDED. -/
def VersionDone (definition : MigrationDefinition) (t : Tables) : Prop :=
  ∀ step ∈ definition.steps, step.Required → StepRecorded definition.version step succeeded t

/-- After the loop over its steps, a version may be closed. -/
theorem StepLoop.all_succeeded (hcons : Consistent known exact t)
    (hread : Reconciled definition recordedSteps t₀)
    (hloop : StepLoop definition versionWasComplete t₀ definition.steps t) :
    ∀ id row, t.steps (definition.version, id) = some row → row.status = succeeded := by
  intro id row hrow
  by_cases hid : ∃ s ∈ definition.steps, s.Required ∧ s.id = id
  · obtain ⟨s, hs, hrequired, rfl⟩ := hid
    obtain ⟨row', hrow', _, hstatus⟩ := hloop.done s hs hrequired
    obtain rfl := Option.some.inj (hrow'.symm.trans hrow)
    exact hstatus
  · -- the row was there before, so the manifest has it as a cleanup step; but it was recorded as
    -- a required one
    exfalso
    have hsame := hloop.todo id fun s hs hrequired heq => hid ⟨s, hs, hrequired, heq⟩
    obtain ⟨current, hcurrent, hmatches⟩ := hread.current id row (hsame ▸ hrow)
    obtain ⟨recorded, _, hrequired, _, hrecorded⟩ := hcons.origin _ id row hrow
    have hmem := List.mem_of_find?_eq_some hcurrent
    have hid' : current.id = id := by simpa using List.find?_some hcurrent
    have hphase : recorded.phase = current.phase :=
      phaseName_injective (hrecorded.2.1.symm.trans hmatches.2.1)
    exact hid ⟨current, hmem, fun hcleanup => hrequired (hphase.trans hcleanup), hid'⟩

theorem startVersion_view (hcons : Consistent known exact t)
    (hversion : versionWasComplete = false →
      ∀ row, t.versions definition.version = some row → row.status ≠ succeeded) :
    wpcx known exact
      (fun _ v => Within known exact (fun t' => t'.steps = t.steps ∧
        (versionWasComplete = false → VersionOpen definition.version t')) v)
      (fun _ v => Within known exact (fun _ => True) v)
      (startVersion definition versionWasComplete report) (inside t) := by
  unfold startVersion
  split
  · rename_i hcomplete
    exact within_inside hcons ⟨rfl, fun h => by simp [hcomplete] at h⟩
  · rename_i hincomplete
    refine versionStatus_view ?_ hcons (hversion (by simpa using hincomplete)) (fun h => absurd h running_ne_succeeded) ?_ ?_
    · rintro (e | r) v hv <;> exact within_gone hv
    · intro e t' hcons'
      exact within_inside hcons' trivial
    · intro response t' hcons' hsteps hopen
      exact within_inside hcons' ⟨hsteps, fun _ => hopen running_ne_succeeded⟩

theorem finishVersion_view (hcons : Consistent known exact t)
    (hopen : versionWasComplete = false → VersionOpen definition.version t)
    (hclosed : ∀ id row, t.steps (definition.version, id) = some row → row.status = succeeded) :
    wpcx known exact (fun _ v => Within known exact (fun t' => t'.steps = t.steps) v)
      (fun _ v => Within known exact (fun _ => True) v)
      (finishVersion definition versionWasComplete report) (inside t) := by
  unfold finishVersion
  split
  · exact within_inside hcons rfl
  · rename_i hincomplete
    obtain ⟨row, hrow, hstatus⟩ := hopen (by simpa using hincomplete)
    refine versionStatus_view ?_ hcons ?_ (fun _ => hclosed) ?_ ?_
    · rintro (e | r) v hv <;> exact within_gone hv
    · intro row' hrow'
      obtain rfl := Option.some.inj (hrow.symm.trans hrow')
      exact hstatus
    · intro e t' hcons'
      refine wpc_poison ?_
      rintro (e | r) v hv <;> exact within_gone hv
    · intro response t' hcons' hsteps _
      exact within_inside hcons' hsteps

theorem runDefinition_view (hcons : Consistent known exact t)
    (hids : definition.steps.Pairwise fun s t => s.id < t.id)
    (hknown : ∀ s ∈ definition.steps, known definition.version s) :
    wpcx known exact
      (fun _ v => Within known exact (fun t' => VersionDone definition t' ∧
        ∀ a, a.1 ≠ definition.version → t'.steps a = t.steps a) v)
      (fun _ v => Within known exact (fun _ => True) v)
      (runDefinition report definition) (inside t) := by
  refine wpc_read rfl (fun _ => rfl) ?_ hcons (fun e _ => within_inside hcons trivial) ?_
  · rintro (e | r) v hv <;> exact within_gone hv
  intro versionState htruthful
  refine (wpx_bind _ _ _).mpr ?_
  cases hversion : readVersionState definition report versionState.rows with
  | error r => exact within_inside hcons trivial
  | ok versionWasComplete =>
  have hstate := readVersionState_truthful htruthful hversion
  refine wpc_read rfl (fun _ => rfl) ?_ hcons (fun e _ => within_inside hcons trivial) ?_
  · rintro (e | r) v hv <;> exact within_gone hv
  intro recorded htruthful'
  refine (wpx_bind _ _ _).mpr ?_
  cases hrecorded : readRecordedSteps definition report [] recorded.rows with
  | error r => exact within_inside hcons trivial
  | ok recordedSteps =>
  have hread := readRecordedSteps_truthful htruthful' hrecorded
  refine (wpx_bind _ _ _).mpr (wpx_post (startVersion_view hcons ?_) ?_ (fun _ _ hX => hX))
  · intro hincomplete row hrow hstatus
    have htrue := (hstate.1 row hrow).2.mpr hstatus
    rw [hincomplete] at htrue
    cases htrue
  rintro - v (hv | ⟨t₁, rfl, hcons₁, hsteps₁, hopen₁⟩)
  · exact wpx_gone hv (fun _ => within_gone hv) fun _ => within_gone hv
  have hstart : StepLoop definition versionWasComplete t [] t₁ :=
    ⟨hopen₁, (fun s hs => by cases hs), (fun id _ => by rw [hsteps₁]), fun a _ => by rw [hsteps₁]⟩
  refine (wpx_bind _ _ _).mpr (wpx_post (runSteps_view hcons₁ hids hknown hread hstart) ?_
    (fun _ _ hX => hX))
  rintro r v (hv | ⟨t₂, rfl, hcons₂, hloop⟩)
  · exact wpx_gone hv (fun _ => within_gone hv) fun _ => within_gone hv
  refine wpx_post (finishVersion_view hcons₂ hloop.opened (hloop.all_succeeded hcons₂ hread))
    ?_ (fun _ _ hX => hX)
  rintro r v (hv | ⟨t₃, rfl, hcons₃, hsteps₃⟩)
  · exact within_gone hv
  · refine within_inside hcons₃ ⟨?_, fun a ha => by rw [hsteps₃, hloop.others a ha]⟩
    intro step hstep hrequired
    obtain ⟨row, hrow, hrest⟩ := hloop.done step hstep hrequired
    exact ⟨row, by rw [hsteps₃, hrow], hrest⟩

theorem runBootstrapStep_view {bootstrap : MigrationBootstrapStep}
    (hcons : Consistent known exact t) :
    wpcx known exact (fun _ v => Within known exact (fun _ => True) v)
      (fun _ v => Within known exact (fun _ => True) v) (runBootstrapStep report bootstrap)
      (inside t) := by
  unfold runBootstrapStep
  split
  · exact within_inside hcons trivial
  refine wpc_read rfl (fun _ => rfl) ?_ hcons (fun e _ => within_inside hcons trivial) ?_
  · rintro (e | r) v hv <;> exact within_gone hv
  intro response _
  refine wpc_read rfl (fun _ => rfl) ?_ hcons (fun e _ => within_inside hcons trivial) ?_
  · rintro (e | r) v hv <;> exact within_gone hv
  intro verified _
  change wpcx known exact _ _ (if truthy verified = true then pure report else throw _) _
  split
  · exact within_inside hcons trivial
  · exact within_inside hcons trivial

/-- All definitions of a manifest are done. -/
def AllDone (definitions : List MigrationDefinition) (t : Tables) : Prop :=
  ∀ d ∈ definitions, VersionDone d t

theorem runLocked_view {m : Manifest} {bootstrapSql : List MigrationBootstrapStep}
    (hknown : ∀ d step, m.Has d step → known d.version step) (hcons : Consistent known exact t) :
    wpcx known exact (fun _ v => Within known exact (AllDone m.definitions) v)
      (fun _ v => Within known exact (fun _ => True) v)
      (runLocked m.definitions bootstrapSql report) (inside t) := by
  unfold runLocked
  split
  · exact within_inside hcons trivial
  let Boot (_ : List MigrationBootstrapStep) (_ : MigrationReport) (v : ClientView) : Prop :=
    Within known exact (fun _ => True) v
  let Defs (done : List MigrationDefinition) (_ : MigrationReport) (v : ClientView) : Prop :=
    Within known exact (AllDone done) v
  refine (wpx_bind _ _ _).mpr (wpx_post (wpx_foldlM Boot ?_ (within_inside hcons trivial)) ?_
    (fun _ _ hX => hX))
  · rintro done bootstrap rest r v _ (hv | ⟨t', rfl, hcons', _⟩)
    · exact wpx_gone hv (fun _ => within_gone hv) fun _ => within_gone hv
    · exact runBootstrapStep_view hcons'
  rintro r v (hv | ⟨t₁, rfl, hcons₁, _⟩)
  · exact wpx_gone hv (fun _ => within_gone hv) fun _ => within_gone hv
  refine wpx_foldlM Defs ?_ (within_inside hcons₁ fun d hd => by cases hd)
  rintro done definition rest r v hm (hv | ⟨t', rfl, hcons', hdone⟩)
  · exact wpx_gone hv (fun _ => within_gone hv) fun _ => within_gone hv
  have hdefinition : definition ∈ m.definitions := by
    rw [hm]
    exact List.mem_append_right _ List.mem_cons_self
  refine wpx_post (runDefinition_view hcons' (m.ids_increasing definition hdefinition)
    fun s hs => hknown definition s ⟨hdefinition, hs⟩) ?_ (fun _ _ hX => hX)
  rintro r' v (hv | ⟨t₂, rfl, hcons₂, hlast, hothers⟩)
  · exact within_gone hv
  refine within_inside hcons₂ fun d hd => ?_
  rcases List.mem_append.mp hd with hold | hnew
  · have hversions := m.versions_increasing
    rw [hm, List.pairwise_append] at hversions
    have hlt : d.version < definition.version :=
      hversions.2.2 d hold definition List.mem_cons_self
    intro step hstep hrequired
    obtain ⟨row, hrow, hrest⟩ := hdone d hold step hstep hrequired
    exact ⟨row, by rw [hothers _ (by simp only; omega), hrow], hrest⟩
  · rw [List.mem_singleton.mp hnew]
    exact hlast

/-- What a returned report says about the last tables its client saw. -/
def Finished (m : Manifest) (report : MigrationReport) (v : ClientView) : Prop :=
  v.hold ≠ .holding ∧ (report.status = .succeeded → AllDone m.definitions v.store)

theorem sendRelease_view {v : ClientView} (hv : Within known exact P v) :
    wpc known exact (fun released v' => v'.hold ≠ .holding ∧ (released = true → P v'.store))
      sendRelease v := by
  have hgone : ∀ v : ClientView, v.hold = .gone → v.hold ≠ .holding := fun v hv => by simp [hv]
  have hunconfirmed : ∀ (answer : SqlResult) (v : ClientView), confirmed answer = false →
      wpc known exact (fun released v' => v'.hold ≠ .holding ∧ (released = true → P v'.store))
        (if confirmed answer = true then return true else do poison; return false) v := by
    intro answer v hanswer
    rw [if_neg (by simp [hanswer])]
    rintro ⟨⟩ v' (⟨hne, _⟩ | hstep)
    · exact absurd rfl hne
    · obtain rfl : v' = { v with hold := .gone } := hstep
      refine ⟨?_, hgone _ rfl, fun h => by cases h⟩
      trivial
  rcases hv with hv | ⟨t, rfl, _, hP⟩
  · refine wp_refused (by simp [migrationServer]) hv ?_
    rintro answer ⟨e, rfl⟩
    exact hunconfirmed (.error e) v rfl
  · refine wp_release rfl ?_ ?_
    · rintro answer ⟨e, rfl⟩
      exact hunconfirmed (.error e) _ rfl
    · intro answer
      cases hanswer : confirmed answer with
      | false => exact hunconfirmed answer _ hanswer
      | true =>
          change wpc known exact _ (if confirmed answer = true then return true
            else do poison; return false) _
          rw [if_pos hanswer]
          exact ⟨by simp, fun _ => hP⟩

theorem destroy_view {v : ClientView} {lock : MigrationLock} (hheld : lock.held = true)
    (hv : Within known exact P v) :
    wpc known exact (fun _ v' => v'.hold ≠ .holding) lock.destroy v := by
  unfold MigrationLock.destroy
  rw [if_neg (by simp [hheld])]
  exact (wp_bind _ _ _).mpr (wp_post (sendRelease_view hv) fun _ _ h => h.1)

theorem run_view {m : Manifest} {bootstrapSql : List MigrationBootstrapStep}
    {lockTimeoutSeconds : ℕ} (hknown : ∀ d step, m.Has d step → known d.version step) :
    wpc known exact (Finished m) (run m.definitions bootstrapSql lockTimeoutSeconds)
      ⟨.outside, t, none⟩ := by
  refine wp_acquire rfl ?_ ?_ ?_
  · rintro answer ⟨e, rfl⟩
    exact ⟨by simp, fun h => by cases h⟩
  · intro answer hdenied
    rcases answer with e | acquired
    · exact ⟨by simp, fun h => by cases h⟩
    · change wpc known exact _ (if !truthy acquired then _ else _) _
      rw [if_pos (by simpa [migrationServer, confirmed] using hdenied)]
      exact ⟨by simp, fun h => by cases h⟩
  · intro answer t' hgranted _ hcons
    rcases answer with e | acquired
    · cases hgranted
    change wpc known exact _ (if !truthy acquired then _ else _) _
    have htrue : truthy acquired = true := hgranted
    rw [if_neg (by simp [htrue])]
    refine (wp_bind _ _ _).mpr
      (wp_post (wp_returns (runLocked_view hknown hcons) (runLocked_returns m bootstrapSql)) ?_)
    rintro (r | r) v ⟨hreturns, hv⟩
    · refine (wp_bind _ _ _).mpr (wp_post (destroy_view rfl hv) ?_)
      intro _ v' hleft
      refine ⟨hleft, fun hsucceeded => ?_⟩
      rw [hreturns r rfl] at hsucceeded
      cases hsucceeded
    · refine (wp_bind _ _ _).mpr ((wp_bind _ _ _).mpr (wp_post (sendRelease_view hv) ?_))
      rintro released v' ⟨hleft, hdone⟩
      cases released with
      | false => exact ⟨hleft, fun h => by cases h⟩
      | true => exact ⟨hleft, fun _ => hdone rfl⟩

end Loops
/-! ## All runs together -/

/-- Any number of processes around one database. -/
abbrev MigrationCluster : Type :=
  Cluster (ExecutorCall MigrationStatement) ExecutorCall.Answer Tables Session MigrationReport

/-- The runs of one manifest, with any bootstrap list and any lock timeout. -/
def StartsOf (m : Manifest) (p : SqlProgram MigrationStatement MigrationReport) : Prop :=
  ∃ bootstrapSql lockTimeoutSeconds, p = run m.definitions bootstrapSql lockTimeoutSeconds

/-- The runs of any manifest. -/
def AnyStart (p : SqlProgram MigrationStatement MigrationReport) : Prop := ∃ m, StartsOf m p

/-- The steps of one manifest. -/
def Manifest.Knows (m : Manifest) (version : ℕ) (step : MigrationStep) : Prop :=
  ∃ d, m.Has d step ∧ d.version = version

section Together

variable {m : Manifest} {c c' : MigrationCluster} {d : MigrationDefinition} {step : MigrationStep}

/-- A database without any records, and nobody connected. -/
abbrev emptyCluster (exact : Prop) : MigrationCluster := Cluster.init (migrationServer exact) {}

theorem startsOf_admitted (m : Manifest) (exact : Prop) :
    (migrationServer exact).Admits (Consistent m.Knows exact) Progress (Finished m)
      (StartsOf m) where
  wp := by
    rintro p ⟨bootstrapSql, lockTimeoutSeconds, rfl⟩ t
    exact run_view fun d step hstep => ⟨d, hstep, rfl⟩
  left _ _ h := h.1

theorem anyStart_admitted (exact : Prop) :
    (migrationServer exact).Admits (Consistent (fun _ _ => True) exact) Progress
      (fun _ v => v.hold ≠ .holding) AnyStart where
  wp := by
    rintro p ⟨m, bootstrapSql, lockTimeoutSeconds, rfl⟩ t
    exact wp_post (run_view fun _ _ _ => trivial) fun _ _ h => h.1
  left _ _ h := h

/-- The row of a step of the manifest, in tables that only this manifest has filled. -/
theorem Consistent.row_matches {exact : Prop} {t : Tables} {row : StepRow}
    (hcons : Consistent m.Knows exact t) (hstep : m.Has d step)
    (hrow : t.steps (d.version, step.id) = some row) : step.Required ∧ row.Matches step := by
  obtain ⟨step', ⟨d', hstep', hversion⟩, hrequired, hid, hmatches⟩ := hcons.origin _ _ _ hrow
  obtain ⟨_, rfl⟩ := m.has_unique hstep' hstep hversion hid
  exact ⟨hrequired, hmatches⟩

/-- Exactly-once migration: whoever starts, crashes or loses a connection wherever, the effect of a
step is never there twice, it is there once its row says SUCCEEDED or any run has reported success,
and the effect of a deferred step is never there. -/
theorem effects_exactlyOnce (m : Manifest) (c : MigrationCluster)
    (hreach : Cluster.Reachable (migrationServer True) (StartsOf m) (emptyCluster True) c)
    (d : MigrationDefinition) (step : MigrationStep) (hstep : m.Has d step)
    (hcheck : step.execution ≠ .check) :
    c.store.effects (d.version, step.id) ≤ 1 ∧
    (∀ row, c.store.steps (d.version, step.id) = some row → row.status = succeeded →
      c.store.effects (d.version, step.id) = 1) ∧
    ((∃ report ∈ c.returned, report.status = .succeeded) → step.Required →
      c.store.effects (d.version, step.id) = 1) ∧
    (step.phase = .cleanup → c.store.effects (d.version, step.id) = 0) := by
  obtain ⟨hsound, _⟩ := (Cluster.sound_init consistent_empty).reachable
    (startsOf_admitted m True) hreach
  have hcons := hsound.store
  have honce := hcons.once trivial (d.version, step.id)
  have hrow : ∀ row, c.store.steps (d.version, step.id) = some row → row.status = succeeded →
      c.store.effects (d.version, step.id) = 1 := by
    intro row hrow hstatus
    have hexecution := (matches_executionName (hcons.row_matches hstep hrow).2).mpr hcheck
    have hmade := hcons.applied trivial _ row hrow hstatus hexecution
    omega
  refine ⟨honce, hrow, ?_, ?_⟩
  · rintro ⟨report, hreport, hsucceeded⟩ hrequired
    obtain ⟨v, ⟨_, hdone⟩, hprogress⟩ := hsound.returned report hreport
    obtain ⟨row, hthere, _, hstatus⟩ := hdone hsucceeded d hstep.1 step hstep.2 hrequired
    exact hrow row (hprogress.steps _ row hthere hstatus) hstatus
  · intro hcleanup
    by_contra hmade
    obtain ⟨row, hthere, _⟩ := hcons.ahead trivial _ hmade
    exact (hcons.row_matches hstep hthere).1 hcleanup

theorem seed_acceptable : Acceptable seedManifest [metadataTable] {} where
  bootstrap := by simp
  single := by decide
  rows _ _ :=
    { name := fun _ h => by cases h
      current := fun _ _ h => by cases h
      complete := fun _ h => by cases h }

/-- One starter, undisturbed: it reports success, and the seed is there once. -/
theorem effects_exactlyOnce_seed : ∃ c : MigrationCluster,
    (∃ report ∈ c.returned, report.status = .succeeded) ∧
      c.store.effects (1, seedStep.id) = 1 := by
  have hallowed : StartsOf seedManifest (run seedManifest.definitions [metadataTable] 10) :=
    ⟨_, _, rfl⟩
  obtain ⟨c, report, _, hreach, hreport, hsucceeded⟩ :=
    Cluster.reachable_of_may (run_may True 10 seed_acceptable) hallowed
  have hstep : seedManifest.Has ⟨1, lit "001_seed", [seedStep]⟩ seedStep := by
    simp [Manifest.Has, seedManifest]
  have hreported : ∃ report ∈ c.returned, report.status = .succeeded :=
    ⟨report, hreport, hsucceeded⟩
  obtain ⟨_, _, honce, _⟩ :=
    effects_exactlyOnce seedManifest c hreach _ seedStep hstep (by decide)
  exact ⟨c, hreported, honce hreported (by decide)⟩

/-- The metadata tables under manifests that change from run to run: a SUCCEEDED version has only
SUCCEEDED step rows, every step row has its version row, and a SUCCEEDED version with its rows is
never touched again. -/
theorem metadata_invariant (c : MigrationCluster)
    (hreach : Cluster.Reachable (migrationServer False) AnyStart (emptyCluster False) c) :
    (∀ version row, c.store.versions version = some row → row.status = succeeded →
      ∀ id stepRow, c.store.steps (version, id) = some stepRow → stepRow.status = succeeded) ∧
    (∀ version id stepRow, c.store.steps (version, id) = some stepRow →
      ∃ row, c.store.versions version = some row) ∧
    (∀ c', Cluster.Reachable (migrationServer False) AnyStart c c' →
      ∀ version row, c.store.versions version = some row → row.status = succeeded →
        c'.store.versions version = some row ∧
          ∀ id, c'.store.steps (version, id) = c.store.steps (version, id)) := by
  obtain ⟨hsound, _⟩ := (Cluster.sound_init consistent_empty).reachable
    (anyStart_admitted False) hreach
  refine ⟨hsound.store.closed, ?_, ?_⟩
  · intro version id stepRow hrow
    exact Option.ne_none_iff_exists'.mp (hsound.store.parent version id stepRow hrow)
  · intro c' hlater
    exact (hsound.reachable (anyStart_admitted False) hlater).2.versions

theorem metadata_invariant_seed : ∃ c : MigrationCluster,
    (∃ report ∈ c.returned, report.status = .succeeded) ∧
      ∀ version row, c.store.versions version = some row → row.status = succeeded →
        ∀ id stepRow, c.store.steps (version, id) = some stepRow →
          stepRow.status = succeeded := by
  have hallowed : AnyStart (run seedManifest.definitions [metadataTable] 10) :=
    ⟨seedManifest, _, _, rfl⟩
  obtain ⟨c, report, _, hreach, hreport, hsucceeded⟩ :=
    Cluster.reachable_of_may (run_may False 10 seed_acceptable) hallowed
  exact ⟨c, ⟨report, hreport, hsucceeded⟩, (metadata_invariant c hreach).1⟩

end Together

end Warehouse.Mysql.Migration
