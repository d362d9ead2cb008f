/-
# Warehouse.Mysql.Migration.Tampering — recorded rows that do not agree with the manifest

Before the runner writes anything for a version it reads the version's row and all of its step rows,
those of cleanup steps among them, and compares them with the definition.  A version with a row that
does not agree ends the run there: neither it nor a later one is written to, and none of their SQL
is sent, so their rows and data are what they were.
-/
import Warehouse.Mysql.Migration.Course
import Warehouse.Mysql.Migration.Reconciliation

namespace Warehouse.Mysql.Migration

open Warehouse.Interaction Warehouse.Interaction.Program

/-! ## What counts as tampering -/

/-- The row is well formed, and some step of the definition has its id, checksum, phase and
execution. -/
def AgreesWith (definition : MigrationDefinition) (row : SqlRow) : Prop :=
  ∃ step ∈ definition.steps, ∃ recorded : RecordedStep,
    row = recorded.row step.id ∧ recorded.Matches step

/-- What was read for the version does not agree with its definition. -/
inductive Tampered (definition : MigrationDefinition) (h : RunHistory) : Prop
  /-- The row of the version is malformed, or it has another name. -/
  | version {response : SqlResponse} {row : SqlRow} {rest : List SqlRow} :
      stmt (.versionState definition.version) (.ok response) ∈ h → response.rows = row :: rest →
      (∀ status, row ≠ [some definition.name, some status]) → Tampered definition h
  /-- One of the rows of its steps is malformed, is that of no step or differs from its step. -/
  | step {response : SqlResponse} {row : SqlRow} :
      stmt (.recordedSteps definition.version) (.ok response) ∈ h → row ∈ response.rows →
      ¬ AgreesWith definition row → Tampered definition h

/-- The call writes a row or sends SQL of the version or of a later one. -/
def TouchesFrom (version : ℕ) : ExecutorCall MigrationStatement → Prop
  | .execute (.versionStatus v ..) => version ≤ v
  | .execute (.stepStatus v ..) => version ≤ v
  | .execute (.apply v _) => version ≤ v
  | .execute (.verify v _) => version ≤ v
  | _ => False

/-- The version and the later ones have the same rows and the same data. -/
structure SameFrom (version : ℕ) (t t' : Tables) : Prop where
  versions : ∀ v, version ≤ v → t'.versions v = t.versions v
  steps : ∀ a : Address, version ≤ a.1 → t'.steps a = t.steps a
  effects : ∀ a : Address, version ≤ a.1 → t'.effects a = t.effects a

/-! ## The checks are complete -/

section Checks

variable {definition : MigrationDefinition} {report : MigrationReport} {rows : List SqlRow}
  {row : SqlRow} {complete : Bool} {steps result : RecordedSteps}

theorem readVersionState_agrees {rest : List SqlRow}
    (h : readVersionState definition report (row :: rest) = .ok complete) :
    ∃ status, row = [some definition.name, some status] := by
  unfold readVersionState at h
  split at h
  · rename_i hnil
    cases hnil
  · rename_i name status others hcons
    obtain ⟨rfl, -⟩ := List.cons.inj hcons
    split at h
    · cases h
    · rename_i hname
      simp only [ne_eq, not_not] at hname
      exact ⟨status, by rw [hname]⟩
  · cases h

theorem readRecordedSteps_agrees
    (h : readRecordedSteps definition report steps rows = .ok result) (hrow : row ∈ rows) :
    AgreesWith definition row := by
  obtain ⟨id, recorded, step, rfl, hcurrent, hmatches⟩ := readRecordedSteps_matches h hrow
  have hid : step.id = id := by simpa using List.find?_some hcurrent
  exact ⟨step, List.mem_of_find?_eq_some hcurrent, recorded, by rw [hid], hmatches⟩

/-- A refused version makes the report one of failure. -/
theorem Refused.failed {reads : RunHistory} {failure : MigrationReport}
    (h : Refused definition report reads failure) :
    ∃ step message, failure = Migration.failed report step message := by
  cases h with
  | versionUnread => exact ⟨_, _, rfl⟩
  | version hread => exact readVersionState_failed hread
  | stepsUnread => exact ⟨_, _, rfl⟩
  | steps hread => exact readRecordedSteps_failed hread

theorem Refused.reads {reads : RunHistory} {failure : MigrationReport}
    (h : Refused definition report reads failure) {event : RunEvent} (hevent : event ∈ reads) :
    event.1 = .execute (.versionState definition.version) ∨
      event.1 = .execute (.recordedSteps definition.version) := by
  cases h with
  | versionUnread =>
      rw [List.mem_singleton.mp hevent]
      exact Or.inl rfl
  | version =>
      rw [List.mem_singleton.mp hevent]
      exact Or.inl rfl
  | stepsUnread => rcases List.mem_pair.mp hevent with rfl | rfl <;> simp
  | steps => rcases List.mem_pair.mp hevent with rfl | rfl <;> simp

end Checks

/-! ## Nothing is read twice in a turn -/

section Turn

variable {definition : MigrationDefinition} {report : MigrationReport} {step : MigrationStep}
  {versionWasComplete : Bool} {recordedSteps : RecordedSteps} {work : RunHistory} {version : ℕ}
  {r : Except MigrationReport MigrationReport} {event : RunEvent}

/-- The call reads the row of a version, or the rows of its steps. -/
def IsRead : ExecutorCall MigrationStatement → Prop
  | .execute (.versionState _) => True
  | .execute (.recordedSteps _) => True
  | _ => False

theorem OfStep.not_read {call : ExecutorCall MigrationStatement} (h : OfStep version step call) :
    ¬ IsRead call := by
  intro hread
  cases call with
  | control => exact hread
  | poison => exact hread
  | execute statement =>
      cases statement with
      | versionState => exact h
      | recordedSteps => exact h
      | _ => exact hread

/-- Behind its two reads a turn reads neither again. -/
theorem WorkCourse.not_read
    (h : WorkCourse definition report versionWasComplete recordedSteps work r)
    (hevent : event ∈ work) : ¬ IsRead event.1 := by
  have hopening : ∀ {opening}, Opened definition versionWasComplete opening → event ∈ opening →
      ¬ IsRead event.1 := by
    intro opening hopened hmem
    cases hopened with
    | complete => cases hmem
    | recorded =>
        rw [List.mem_singleton.mp hmem]
        exact id
  have hsteps : ∀ {steps : RunHistory} {through},
      Runs (definition.steps.foldlM (runStep definition versionWasComplete recordedSteps) report).run
        steps through → event ∈ steps → ¬ IsRead event.1 := by
    intro steps through hrun hmem
    have hemits : (definition.steps.foldlM (runStep definition versionWasComplete recordedSteps)
        report).run.Emits fun call => ¬ IsRead call :=
      emits_run_foldlM (fun r s _ => (emits_runStep _ _).mono fun call hcall => hcall.not_read) report
    exact (traces_of_emits hemits).of_runs hrun event hmem
  cases h with
  | unopened =>
      rw [List.mem_singleton.mp hevent]
      exact id
  | stopped hopened hrun =>
      exact (List.mem_append.mp hevent).elim (hopening hopened) (hsteps hrun)
  | kept hopened hrun =>
      exact (List.mem_append.mp hevent).elim (hopening hopened) (hsteps hrun)
  | unfinished hopened hrun =>
      rcases List.mem_append.mp hevent with hmem | hmem
      · exact hopening hopened hmem
      rcases List.mem_append.mp hmem with hmem | hmem
      · exact hsteps hrun hmem
      · rcases List.mem_pair.mp hmem with rfl | rfl <;> exact id
  | finished hopened hrun =>
      rcases List.mem_append.mp hevent with hmem | hmem
      · exact hopening hopened hmem
      rcases List.mem_append.mp hmem with hmem | hmem
      · exact hsteps hrun hmem
      · rw [List.mem_singleton.mp hmem]
        exact id

/-- A turn in which a tampered row was read goes no further than its reads. -/
theorem DefinitionCourse.refused_of_tampered {body : RunHistory}
    (hcourse : DefinitionCourse definition report body r) (htampered : Tampered definition body) :
    ∃ failure, r = .error failure ∧ Refused definition report body failure := by
  cases hcourse with
  | @refused reads failure hrefused => exact ⟨failure, rfl, hrefused⟩
  | @worked versionState recorded versionWasComplete recordedSteps work r hversion hrecorded hwork =>
      exfalso
      cases htampered with
      | @version response row rest hread hrows hname =>
          obtain rfl : response = versionState := by
            rcases List.mem_cons.mp hread with heq | hread
            · cases heq
              rfl
            rcases List.mem_cons.mp hread with heq | hread
            · cases heq
            · exact absurd trivial (hwork.not_read hread)
          rw [hrows] at hversion
          obtain ⟨status, hagrees⟩ := readVersionState_agrees hversion
          exact hname status hagrees
      | @step response row hread hrow hdiffers =>
          obtain rfl : response = recorded := by
            rcases List.mem_cons.mp hread with heq | hread
            · cases heq
            rcases List.mem_cons.mp hread with heq | hread
            · cases heq
              rfl
            · exact absurd trivial (hwork.not_read hread)
          exact hdiffers (readRecordedSteps_agrees hrecorded hrow)

end Turn

/-! ## What is not touched stays as it was -/

section Frame

variable {V : ℕ → Prop} {t : Tables} {c c' : Tables × Session} {events : RunHistory} {version : ℕ}

/-- Outside the versions `V` rows and data are those of `t`, and nothing else is pending. -/
structure Spared (V : ℕ → Prop) (t : Tables) (c : Tables × Session) : Prop
    extends Untouched V t c where
  effects : ∀ a : Address, ¬ V a.1 → c.1.effects a = t.effects a

/-- Only a change of the effect itself changes how often it is there. -/
theorem effects_change {a : Address} {n : ℕ} (t : Tables) (x : Change) (hx : x ≠ .effect a)
    (h : t.effects a = n) : (t.change x).effects a = n := by
  cases x with
  | version => exact h
  | step => exact h
  | effect address =>
      have hne : a ≠ address := fun heq => hx (heq ▸ rfl)
      simpa [Tables.change, hne] using h

theorem ne_effect_of_about {x : Change} {a : Address} (hx : V x.about) (ha : ¬ V a.1) :
    x ≠ .effect a := by
  rintro rfl
  exact ha hx

theorem Spared.reading {call : ExecutorCall MigrationStatement} {answer : call.Answer}
    (h : Spared V t c) (hcall : About V call) (hstep : reading call c answer c') :
    Spared V t c' := by
  refine ⟨untouched_reading hcall h.toUntouched hstep, fun a ha => ?_⟩
  have hguarded : Guarded (fun t' => t'.effects a = t.effects a) (fun x => x ≠ .effect a) c :=
    ⟨h.effects a ha, fun x hx => ne_effect_of_about (h.pending x hx) ha⟩
  have hmakes : ∀ now x, Makes now call x → x ≠ .effect a :=
    fun _ _ hmade => ne_effect_of_about (hcall.makes hmade) ha
  exact (hguarded.reading effects_change hmakes hstep).tables

theorem Spared.answers (h : Spared V t c) (habout : ∀ event ∈ events, About V event.1)
    (hanswers : Answers Migration.reading c events c') : Spared V t c' :=
  hanswers.keeps (fun event hevent _ _ hold henv => hold.reading (habout event hevent) henv) h

theorem about_of_not_touches {call : ExecutorCall MigrationStatement}
    (h : ¬ TouchesFrom version call) : About (· < version) call := by
  cases call with
  | control => trivial
  | poison => trivial
  | execute statement =>
      cases statement with
      | versionStatus => exact Nat.lt_of_not_le h
      | stepStatus => exact Nat.lt_of_not_le h
      | apply => exact Nat.lt_of_not_le h
      | _ => trivial

/-- A history that does not touch a version leaves it, on every executor that reads truthfully. -/
theorem sameFrom_of_not_touches (h : ∀ event ∈ events, ¬ TouchesFrom version event.1)
    (hanswers : Answers Migration.reading (t, none) events c) : SameFrom version t c.1 := by
  have hspared : Spared (· < version) t (t, none) :=
    ⟨⟨fun _ _ => rfl, fun _ _ => rfl, by simp⟩, fun _ _ => rfl⟩
  have hend := hspared.answers (fun event hevent => about_of_not_touches (h event hevent)) hanswers
  exact ⟨fun v hv => hend.versions v (Nat.not_lt.mpr hv),
    fun a ha => hend.steps a (Nat.not_lt.mpr ha), fun a ha => hend.effects a (Nat.not_lt.mpr ha)⟩

end Frame

/-! ## The refusal -/

section Refusal

variable {definition : MigrationDefinition} {version : ℕ} {call : ExecutorCall MigrationStatement}
  {release : RunHistory} {event : RunEvent}

theorem OfBootstrap.not_touches {b : MigrationBootstrapStep} (h : OfBootstrap b call) :
    ¬ TouchesFrom version call := by
  intro htouches
  cases call with
  | control => exact htouches
  | poison => exact htouches
  | execute statement =>
      cases statement with
      | bootstrapApply => exact htouches
      | bootstrapVerify => exact htouches
      | _ => exact h

theorem OfVersion.not_touches {v : ℕ} (h : OfVersion v call) (hv : v < version) :
    ¬ TouchesFrom version call := by
  intro htouches
  have hnot : ∀ w, w = v → ¬ version ≤ w := by
    intro w hw
    omega
  cases call with
  | control => exact htouches
  | poison => exact htouches
  | execute statement =>
      cases statement with
      | versionStatus => exact hnot _ h htouches
      | stepStatus => exact hnot _ h htouches
      | apply => exact hnot _ h htouches
      | verify => exact hnot _ h htouches
      | _ => exact htouches

theorem Released.not_touches (h : Released release) (hevent : event ∈ release) :
    ¬ TouchesFrom version event.1 := by
  cases h with
  | confirmed =>
      rw [List.mem_singleton.mp hevent]
      exact id
  | poisoned => rcases List.mem_pair.mp hevent with rfl | rfl <;> exact id

/-- A tampered version is refused before anything of it is touched: the run fails, writes no row and
sends no SQL of the version or of a later one, and leaves their rows and data as they were. -/
theorem tampered_refused (m : Manifest) (bootstrapSql : List MigrationBootstrapStep)
    (lockTimeoutSeconds : ℕ) (events : RunHistory) (report : MigrationReport)
    (definition : MigrationDefinition)
    (hrun : Runs (run m.definitions bootstrapSql lockTimeoutSeconds) events report)
    (hdefinition : definition ∈ m.definitions) (htampered : Tampered definition events) :
    report.status = .failed ∧
      (∀ event ∈ events, ¬ TouchesFrom definition.version event.1) ∧
      ∀ (t : Tables) (c : Tables × Session), Answers reading (t, none) events c →
        SameFrom definition.version t c.1 := by
  suffices h : report.status = .failed ∧
      ∀ event ∈ events, ¬ TouchesFrom definition.version event.1 from
    ⟨h.1, h.2, fun t c hanswers => sameFrom_of_not_touches h.2 hanswers⟩
  -- the answer that gives the tampering away belongs to one turn of the loop over the versions
  obtain ⟨event, hevent, hnames, hsame⟩ : ∃ event ∈ events,
      NamesVersion definition.version event.1 ∧
        ∀ body, event ∈ body → Tampered definition body := by
    cases htampered with
    | version hread hrows hname =>
        exact ⟨_, hread, rfl, fun body hbody => .version hbody hrows hname⟩
    | step hread hrow hdiffers =>
        exact ⟨_, hread, rfl, fun body hbody => .step hbody hrow hdiffers⟩
  obtain ⟨answer, work, release, r, rfl, hwork, hlocked, hrelease, hends⟩ :=
    (runCourse hrun).locked_of_names hnames hevent
  obtain ⟨d, hd, hversion, body, turn, hbody, hturn⟩ := hlocked.turn hnames hwork
  obtain rfl := m.version_unique hd hdefinition hversion
  cases hturn with
  | @mk done rest r₀ boots before after r hm hboots hbefore hcourse hleft hthrough =>
  obtain ⟨failure, rfl, hrefused⟩ := hcourse.refused_of_tampered (hsame body hbody)
  obtain ⟨rfl, rfl⟩ := hleft failure rfl
  have hversions := m.versions_increasing
  rw [hm, List.pairwise_append] at hversions
  constructor
  · cases hends
    obtain ⟨failedStep, message, rfl⟩ := hrefused.failed
    rfl
  intro event hevent
  simp only [List.mem_cons, List.mem_append, List.append_nil] at hevent
  rcases hevent with rfl | (hboot | hpast | hread) | hreleased
  · exact id
  · obtain ⟨b, -, hb⟩ := hboots event hboot
    exact hb.not_touches
  · obtain ⟨d', hd', hof⟩ := hbefore event hpast
    exact hof.not_touches (hversions.2.2 d' hd' d List.mem_cons_self)
  · rcases hrefused.reads hread with heq | heq <;> rw [heq] <;> exact id
  · exact hrelease.not_touches hreleased

end Refusal

section Witness

/-- A server on which the checksum of the seed step has changed. -/
def altered : (call : ExecutorCall MigrationStatement) → Unit → call.Answer × Unit
  | .execute (.versionState _), s => (.ok {}, s)
  | .execute (.recordedSteps _), s =>
      (.ok { rows := [RecordedStep.row ⟨lit "c1", phaseName seedStep.phase,
        executionName seedStep.execution, succeeded⟩ seedStep.id] }, s)
  | .execute _, s => (.ok { rows := [[some (lit "1")]] }, s)
  | .control _, s => (.ok {}, s)
  | .poison, s => ((), s)

def alteredStart : RunHistory × MigrationReport :=
  (run seedManifest.definitions [metadataTable]).exec altered ()

theorem tampered_refused_altered :
    alteredStart.2.status = .failed ∧
      ∀ event ∈ alteredStart.1, ¬ TouchesFrom 1 event.1 := by
  have hread : stmt (.recordedSteps 1) (.ok { rows := [RecordedStep.row ⟨lit "c1",
      phaseName seedStep.phase, executionName seedStep.execution, succeeded⟩ seedStep.id] }) ∈
        alteredStart.1 := List.mem_iff_getElem?.mpr ⟨4, rfl⟩
  have hdiffers : ¬ AgreesWith ⟨1, lit "001_seed", [seedStep]⟩ (RecordedStep.row ⟨lit "c1",
      phaseName seedStep.phase, executionName seedStep.execution, succeeded⟩ seedStep.id) := by
    rintro ⟨step, hstep, recorded, hrow, hchecksum, -⟩
    obtain rfl := List.mem_singleton.mp hstep
    obtain ⟨-, rfl⟩ := RecordedStep.row_inj hrow
    exact absurd hchecksum (by decide)
  obtain ⟨hfailed, huntouched, -⟩ := tampered_refused seedManifest [metadataTable] 10 alteredStart.1
    alteredStart.2 ⟨1, lit "001_seed", [seedStep]⟩ (runs_exec altered _ ()) (by simp [seedManifest])
    (.step hread (by simp) hdiffers)
  exact ⟨hfailed, huntouched⟩

end Witness

end Warehouse.Mysql.Migration
