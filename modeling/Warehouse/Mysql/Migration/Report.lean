/-
# Warehouse.Mysql.Migration.Report — what the report says about the required steps

Operators read the report of a failed migration to see what remains.  Its lists name steps by their
ids alone, and `removePending` takes an id out of the pending list wherever it stands, while ids are
only unique inside a version.  A run goes through the required steps in order and stops at one of
them, so the steps behind it are the pending ones; the report says so if no id occurs twice.
-/
import Warehouse.Mysql.Migration.Cooperative
import Warehouse.Mysql.Migration.Tampering

namespace Warehouse.Mysql.Migration

open Warehouse.Interaction Warehouse.Interaction.Program

/-! ## What a run confirms -/

/-- A step with the definition that it belongs to. -/
abbrev PlacedStep : Type := MigrationDefinition × MigrationStep

/-- The required ones of these steps of a definition. -/
def requiredOf (definition : MigrationDefinition) (steps : List MigrationStep) : List PlacedStep :=
  (steps.filter fun step => step.phase ≠ .cleanup).map (Prod.mk definition)

/-- The required steps of all definitions, in the order in which a run comes to them. -/
def requiredSteps (definitions : List MigrationDefinition) : List PlacedStep :=
  definitions.flatMap fun definition => requiredOf definition definition.steps

def stepIds (steps : List PlacedStep) : List Bytes := steps.map fun a => a.2.id

/-- The event acknowledges the SUCCEEDED record of the step. -/
def acknowledges (a : PlacedStep) : RunEvent → Bool
  | ⟨.execute (.stepStatus version step status _), .ok _⟩ =>
      version = a.1.version && step = a.2 && status = succeeded
  | _ => false

def acknowledged (events : RunHistory) (a : PlacedStep) : Bool := events.any (acknowledges a)

/-- The rows of the version were read without objection, and work on it has begun. -/
def TakenUp (definition : MigrationDefinition) (recordedSteps : RecordedSteps)
    (events : RunHistory) : Prop :=
  ∃ (versionState recorded : SqlResponse) (report : MigrationReport) (versionWasComplete : Bool),
    stmt (.versionState definition.version) (.ok versionState) ∈ events ∧
      stmt (.recordedSteps definition.version) (.ok recorded) ∈ events ∧
      readVersionState definition report versionState.rows = .ok versionWasComplete ∧
      readRecordedSteps definition report [] recorded.rows = .ok recordedSteps ∧
      (versionWasComplete = false → ∃ response,
        stmt (.versionStatus definition.version definition.name running []) (.ok response) ∈ events)

/-- The step was found recorded as SUCCEEDED. -/
def FoundSucceeded (events : RunHistory) (a : PlacedStep) : Prop :=
  ∃ recordedSteps existing, TakenUp a.1 recordedSteps events ∧
    recordedSteps.lookup a.2.id = some existing ∧ existing.status = succeeded

/-- The history vouches for the step. -/
def Vouched (events : RunHistory) (a : PlacedStep) : Prop :=
  acknowledged events a = true ∨ FoundSucceeded events a

/-- What the report is to say after the run.  The confirmed steps are the required ones up to the
first that the history does not vouch for. -/
structure ReportSound (m : Manifest) (events : RunHistory) (report : MigrationReport) : Prop where
  partition : (stepIds (requiredSteps m.definitions)).Perm
    (report.pendingSteps ++ (report.appliedSteps ++ report.alreadyCompleteSteps))
  accounted : ∃ confirmed pending, requiredSteps m.definitions = confirmed ++ pending ∧
    (∀ a ∈ confirmed, Vouched events a) ∧ (∀ a ∈ pending, acknowledged events a = false) ∧
    (∀ a ∈ pending.head?, ¬ Vouched events a) ∧
    report.pendingSteps = stepIds pending ∧
    report.appliedSteps = stepIds (confirmed.filter (acknowledged events)) ∧
    report.alreadyCompleteSteps = stepIds (confirmed.filter fun a => !acknowledged events a)
  deferred : report.deferredCleanupSteps =
    ((m.definitions.flatMap MigrationDefinition.steps).filter fun step =>
      step.phase = .cleanup).map MigrationStep.id
  counted : report.stepsApplied = report.appliedSteps.length
  started : ∀ version step answer, stmt (.apply version step) answer ∈ events →
    step.execution = .atomicDdl → step.id ∈ report.nonRollbackableSteps

/-! ## The required steps -/

section Required

variable {definitions first second : List MigrationDefinition} {definition : MigrationDefinition}
  {steps : List MigrationStep} {step : MigrationStep} {a : PlacedStep} {m : Manifest}

theorem requiredOf_append (first second : List MigrationStep) :
    requiredOf definition (first ++ second) =
      requiredOf definition first ++ requiredOf definition second := by
  unfold requiredOf
  rw [List.filter_append, List.map_append]

theorem requiredOf_cons (hrequired : step.Required) :
    requiredOf definition (step :: steps) = (definition, step) :: requiredOf definition steps := by
  have hphase : step.phase ≠ .cleanup := hrequired
  simp [requiredOf, hphase]

theorem requiredOf_cons_cleanup (hcleanup : step.phase = .cleanup) :
    requiredOf definition (step :: steps) = requiredOf definition steps := by
  simp [requiredOf, hcleanup]

theorem mem_requiredOf : a ∈ requiredOf definition steps ↔
    a.1 = definition ∧ a.2 ∈ steps ∧ a.2.Required := by
  obtain ⟨d, s⟩ := a
  constructor
  · intro h
    obtain ⟨t, ht, heq⟩ := List.mem_map.mp h
    cases heq
    exact ⟨rfl, by simpa using ht⟩
  · rintro ⟨rfl, hmem, hrequired⟩
    exact List.mem_map.mpr ⟨s, List.mem_filter.mpr ⟨hmem, by simpa using hrequired⟩, rfl⟩

theorem requiredSteps_append :
    requiredSteps (first ++ second) = requiredSteps first ++ requiredSteps second :=
  List.flatMap_append

theorem requiredSteps_cons : requiredSteps (definition :: definitions) =
    requiredOf definition definition.steps ++ requiredSteps definitions := rfl

theorem mem_requiredSteps : a ∈ requiredSteps definitions ↔
    a.1 ∈ definitions ∧ a.2 ∈ a.1.steps ∧ a.2.Required := by
  unfold requiredSteps
  rw [List.mem_flatMap]
  constructor
  · rintro ⟨d, hd, ha⟩
    obtain ⟨rfl, hmem⟩ := mem_requiredOf.mp ha
    exact ⟨hd, hmem⟩
  · rintro ⟨hd, hmem⟩
    exact ⟨a.1, hd, mem_requiredOf.mpr ⟨rfl, hmem⟩⟩

theorem requiredSteps_ids (definitions : List MigrationDefinition) :
    stepIds (requiredSteps definitions) = (initialReport definitions).pendingSteps := by
  induction definitions with
  | nil => rfl
  | cons definition definitions ih =>
      have hhead : stepIds (requiredOf definition definition.steps) =
          (definition.steps.filter fun s => s.phase ≠ .cleanup).map MigrationStep.id := by
        simp [stepIds, requiredOf]
      have hsplit : stepIds (requiredSteps (definition :: definitions)) =
          stepIds (requiredOf definition definition.steps) ++ stepIds (requiredSteps definitions) := by
        rw [requiredSteps_cons]
        exact List.map_append
      rw [hsplit, hhead, ih]
      simp [initialReport]

/-- A version and a step name one step of the manifest. -/
theorem requiredSteps_unique {b : PlacedStep} (ha : a ∈ requiredSteps m.definitions)
    (hb : b ∈ requiredSteps m.definitions) (hversion : a.1.version = b.1.version)
    (hstep : a.2 = b.2) : a = b :=
  Prod.ext (m.version_unique (mem_requiredSteps.mp ha).1 (mem_requiredSteps.mp hb).1 hversion) hstep

theorem requiredSteps_nodup (m : Manifest) : (requiredSteps m.definitions).Nodup := by
  unfold requiredSteps
  rw [List.nodup_flatMap]
  constructor
  · intro d hd
    have hsteps : d.steps.Nodup := (ids_nodup (m.ids_increasing d hd)).of_map
    exact (hsteps.filter _).map fun s t heq => (Prod.mk.inj heq).2
  · refine m.versions_increasing.imp fun {d e} hlt a had hae => ?_
    have hd := (mem_requiredOf.mp had).1
    have he := (mem_requiredOf.mp hae).1
    rw [← hd, ← he] at hlt
    omega

end Required

/-! ## The books of a run -/

/-- The report is right about a run that has confirmed these steps. -/
structure Booked (definitions : List MigrationDefinition) (confirmed : List PlacedStep)
    (events : RunHistory) (report : MigrationReport) : Prop where
  order : confirmed <+: requiredSteps definitions
  pending : report.pendingSteps =
    (stepIds (requiredSteps definitions)).filter fun id => id ∉ stepIds confirmed
  applied : report.appliedSteps = stepIds (confirmed.filter (acknowledged events))
  found : report.alreadyCompleteSteps =
    stepIds (confirmed.filter fun a => !acknowledged events a)
  deferred : report.deferredCleanupSteps = (initialReport definitions).deferredCleanupSteps
  counted : report.stepsApplied = report.appliedSteps.length
  started : ∀ version step answer, stmt (.apply version step) answer ∈ events →
    step.execution = .atomicDdl → step.id ∈ report.nonRollbackableSteps
  vouched : ∀ a ∈ confirmed, Vouched events a
  kept : ∀ a ∈ requiredSteps definitions, acknowledged events a = true → a ∈ confirmed

/-- The call records a step as SUCCEEDED, or is the apply SQL of a step. -/
def Settles : ExecutorCall MigrationStatement → Prop
  | .execute (.stepStatus _ _ status _) => status = succeeded
  | .execute (.apply ..) => True
  | _ => False

section Books

variable {m : Manifest} {definitions : List MigrationDefinition} {confirmed : List PlacedStep}
  {past more : RunHistory} {report report' : MigrationReport} {a b : PlacedStep} {step : MigrationStep}
  {event : RunEvent} {response : SqlResponse} {recordedSteps : RecordedSteps}
  {definition : MigrationDefinition}

theorem acknowledged_append : acknowledged (past ++ more) a =
    (acknowledged past a || acknowledged more a) := List.any_append

theorem acknowledged_silent (hsilent : ∀ event ∈ more, ∀ a, acknowledges a event = false) :
    acknowledged (past ++ more) a = acknowledged past a := by
  have hmore : acknowledged more a = false :=
    List.any_eq_false.mpr fun event hevent => by simp [hsilent event hevent a]
  rw [acknowledged_append, hmore, Bool.or_false]

theorem acknowledges_iff : acknowledges a event = true ↔ ∃ message response,
    event = stmt (.stepStatus a.1.version a.2 succeeded message) (.ok response) := by
  constructor
  · intro h
    unfold acknowledges at h
    split at h
    · simp only [Bool.and_eq_true, decide_eq_true_eq] at h
      obtain ⟨⟨rfl, rfl⟩, rfl⟩ := h
      exact ⟨_, _, rfl⟩
    · cases h
  · rintro ⟨message, response, rfl⟩
    simp [acknowledges]

/-- Only what names the version counts. -/
theorem TakenUp.restrict {events events' : RunHistory} (h : TakenUp definition recordedSteps events)
    (hnames : ∀ event ∈ events, NamesVersion definition.version event.1 → event ∈ events') :
    TakenUp definition recordedSteps events' := by
  obtain ⟨versionState, recorded, report, complete, hstate, hsteps, hversion, hrecorded, hopened⟩ := h
  refine ⟨versionState, recorded, report, complete, hnames _ hstate rfl, hnames _ hsteps rfl, hversion,
    hrecorded, fun hopen => ?_⟩
  obtain ⟨response, hmem⟩ := hopened hopen
  exact ⟨response, hnames _ hmem rfl⟩

theorem TakenUp.mono (h : TakenUp definition recordedSteps past) :
    TakenUp definition recordedSteps (past ++ more) :=
  h.restrict fun _ hevent _ => List.mem_append_left more hevent

theorem Vouched.mono (h : Vouched past a) : Vouched (past ++ more) a := by
  rcases h with hacknowledged | ⟨recordedSteps, existing, htaken, hfound⟩
  · refine Or.inl ?_
    rw [acknowledged_append, hacknowledged, Bool.true_or]
  · exact Or.inr ⟨recordedSteps, existing, htaken.mono, hfound⟩

theorem booked_initial (definitions : List MigrationDefinition) :
    Booked definitions [] [] (initialReport definitions) where
  order := List.nil_prefix
  pending := by
    rw [← requiredSteps_ids]
    simp [stepIds]
  applied := rfl
  found := rfl
  deferred := rfl
  counted := rfl
  started := fun _ _ _ hmem => absurd hmem List.not_mem_nil
  vouched := fun _ hmem => absurd hmem List.not_mem_nil
  kept := fun _ _ hmem => by cases hmem

/-- The same books in a report that differs elsewhere. -/
theorem Booked.transfer (h : Booked definitions confirmed past report)
    (hpending : report'.pendingSteps = report.pendingSteps)
    (happlied : report'.appliedSteps = report.appliedSteps)
    (hfound : report'.alreadyCompleteSteps = report.alreadyCompleteSteps)
    (hdeferred : report'.deferredCleanupSteps = report.deferredCleanupSteps)
    (hcounted : report'.stepsApplied = report.stepsApplied)
    (hstarted : ∀ id ∈ report.nonRollbackableSteps, id ∈ report'.nonRollbackableSteps) :
    Booked definitions confirmed past report' where
  order := h.order
  pending := hpending.trans h.pending
  applied := happlied.trans h.applied
  found := hfound.trans h.found
  deferred := hdeferred.trans h.deferred
  counted := by rw [hcounted, happlied, h.counted]
  started := fun version step answer hmem hddl => hstarted _ (h.started version step answer hmem hddl)
  vouched := h.vouched
  kept := h.kept

theorem Booked.failed (h : Booked definitions confirmed past report) (step message : Bytes) :
    Booked definitions confirmed past (failed report step message) :=
  h.transfer rfl rfl rfl rfl rfl fun _ hid => hid

theorem Booked.starting (h : Booked definitions confirmed past report) (step : MigrationStep) :
    Booked definitions confirmed past (report.starting step) := by
  unfold MigrationReport.starting
  split
  · exact h.transfer rfl rfl rfl rfl rfl fun id hid => List.mem_append_left _ hid
  · exact h

theorem started_of_ddl (hddl : step.execution = .atomicDdl) :
    step.id ∈ (report.starting step).nonRollbackableSteps := by
  simp [MigrationReport.starting, hddl]

/-- Events that acknowledge no SUCCEEDED record, and apply no DDL but what is booked as started. -/
theorem Booked.extend (h : Booked definitions confirmed past report)
    (hsilent : ∀ event ∈ more, ∀ a, acknowledges a event = false)
    (hstarted : ∀ version step answer, stmt (.apply version step) answer ∈ more →
      step.execution = .atomicDdl → step.id ∈ report.nonRollbackableSteps) :
    Booked definitions confirmed (past ++ more) report := by
  have hsame : acknowledged (past ++ more) = acknowledged past :=
    funext fun a => acknowledged_silent hsilent
  refine ⟨h.order, h.pending, ?_, ?_, h.deferred, h.counted, ?_, fun a ha => (h.vouched a ha).mono, ?_⟩
  · rw [hsame]
    exact h.applied
  · rw [hsame]
    exact h.found
  · intro version step answer hmem hddl
    rcases List.mem_append.mp hmem with hold | hnew
    · exact h.started version step answer hold hddl
    · exact hstarted version step answer hnew hddl
  · rw [hsame]
    exact h.kept

theorem settles_of_acknowledges (h : acknowledges a event = true) : Settles event.1 := by
  obtain ⟨message, response, rfl⟩ := acknowledges_iff.mp h
  rfl

theorem Booked.silent (h : Booked definitions confirmed past report)
    (hsilent : ∀ event ∈ more, ¬ Settles event.1) :
    Booked definitions confirmed (past ++ more) report := by
  refine h.extend (fun event hevent a => ?_) fun version step answer hmem => ?_
  · rw [← Bool.not_eq_true]
    exact fun hacknowledges => hsilent event hevent (settles_of_acknowledges hacknowledges)
  · exact absurd trivial (hsilent _ hmem)

theorem Booked.poisoned (h : Booked definitions confirmed past report) :
    Booked definitions confirmed (past ++ [⟨.poison, ()⟩]) report := by
  refine h.silent fun event hevent => ?_
  rw [List.mem_singleton.mp hevent]
  exact id

/-- The SUCCEEDED record of a version, whatever its answer. -/
theorem Booked.closed (h : Booked definitions confirmed past report)
    (definition : MigrationDefinition) (answer : SqlResult) : Booked definitions confirmed
      (past ++ [stmt (.versionStatus definition.version definition.name succeeded []) answer])
      report := by
  refine h.silent fun event hevent => ?_
  rw [List.mem_singleton.mp hevent]
  exact id

/-- A SUCCEEDED record that is refused. -/
theorem Booked.refused (h : Booked definitions confirmed past report) (version : ℕ)
    (step : MigrationStep) (e : SqlError) : Booked definitions confirmed
      (past ++ [stmt (.stepStatus version step succeeded []) (.error e)]) report := by
  refine h.extend (fun event hevent a => ?_) fun version s answer hmem => ?_
  · rw [List.mem_singleton.mp hevent]
    rfl
  · cases List.mem_singleton.mp hmem

/-- The next step is not among those that are confirmed. -/
theorem not_confirmed (hnext : confirmed ++ [a] <+: requiredSteps m.definitions) : a ∉ confirmed := by
  have hnodup : (confirmed ++ [a]).Nodup := (requiredSteps_nodup m).sublist hnext.sublist
  intro hmem
  exact List.disjoint_of_nodup_append hnodup hmem List.mem_cons_self

/-- What becomes of the pending list, by the ids alone. -/
theorem pending_next (ids : List Bytes) (confirmed : List PlacedStep) (a : PlacedStep) :
    (ids.filter fun id => id ∉ stepIds confirmed).filter (· != a.2.id) =
      ids.filter fun id => id ∉ stepIds (confirmed ++ [a]) := by
  have hids : stepIds (confirmed ++ [a]) = stepIds confirmed ++ [a.2.id] := List.map_append
  rw [List.filter_filter, hids]
  apply List.filter_congr
  intro id _
  by_cases hid : id = a.2.id <;> simp [hid]

/-- A step that is found recorded as SUCCEEDED. -/
theorem Booked.alreadyComplete (h : Booked m.definitions confirmed past report)
    (hnext : confirmed ++ [a] <+: requiredSteps m.definitions) (hfound : FoundSucceeded past a) :
    Booked m.definitions (confirmed ++ [a]) past (report.alreadyComplete a.2.id) := by
  have hunacknowledged : acknowledged past a = false := by
    rw [← Bool.not_eq_true]
    intro hacknowledged
    exact not_confirmed hnext (h.kept a (hnext.subset (by simp)) hacknowledged)
  refine ⟨hnext, ?_, ?_, ?_, h.deferred, h.counted, h.started, ?_, ?_⟩
  · rw [← pending_next, ← h.pending]
    rfl
  · show report.appliedSteps = _
    rw [h.applied]
    simp [hunacknowledged]
  · show report.alreadyCompleteSteps ++ [a.2.id] = _
    rw [h.found]
    simp [hunacknowledged, stepIds]
  · intro b hb
    rcases List.mem_append.mp hb with hold | hnew
    · exact h.vouched b hold
    · rw [List.mem_singleton.mp hnew]
      exact Or.inr hfound
  · exact fun b hb hacknowledged => List.mem_append_left _ (h.kept b hb hacknowledged)

/-- A step whose SUCCEEDED record is acknowledged. -/
theorem Booked.apply (h : Booked m.definitions confirmed past report)
    (hnext : confirmed ++ [a] <+: requiredSteps m.definitions) (response : SqlResponse) :
    Booked m.definitions (confirmed ++ [a])
      (past ++ [stmt (.stepStatus a.1.version a.2 succeeded []) (.ok response)])
      (report.applied a.2.id) := by
  have hmem : a ∈ requiredSteps m.definitions := hnext.subset (by simp)
  have hnew : a ∉ confirmed := not_confirmed hnext
  have hlast : ∀ b ∈ requiredSteps m.definitions,
      acknowledged [stmt (.stepStatus a.1.version a.2 succeeded []) (.ok response)] b = true →
        b = a := by
    intro b hb hacknowledged
    have heq : acknowledges b (stmt (.stepStatus a.1.version a.2 succeeded []) (.ok response)) =
        true := by simpa [acknowledged] using hacknowledged
    simp only [acknowledges, Bool.and_eq_true, decide_eq_true_eq] at heq
    exact requiredSteps_unique hb hmem heq.1.1.symm heq.1.2.symm
  have hself : acknowledged (past ++
      [stmt (.stepStatus a.1.version a.2 succeeded []) (.ok response)]) a = true := by
    simp [acknowledged, acknowledges]
  -- the record of this step says nothing of those before it
  have hothers : ∀ b ∈ confirmed, acknowledged (past ++
      [stmt (.stepStatus a.1.version a.2 succeeded []) (.ok response)]) b = acknowledged past b := by
    intro b hb
    rw [acknowledged_append, Bool.or_eq_left_iff_imp]
    intro hacknowledged
    exact absurd (hlast b (h.order.subset hb) hacknowledged ▸ hb) hnew
  refine ⟨hnext, ?_, ?_, ?_, h.deferred, ?_, ?_, ?_, ?_⟩
  · rw [← pending_next, ← h.pending]
    rfl
  · show report.appliedSteps ++ [a.2.id] = _
    rw [List.filter_append, List.filter_congr hothers, h.applied]
    simp [stepIds, hself]
  · show report.alreadyCompleteSteps = _
    have hfound := List.filter_congr fun b hb => congrArg (!·) (hothers b hb)
    rw [List.filter_append, hfound, h.found]
    simp [stepIds, hself]
  · show report.stepsApplied + 1 = (report.appliedSteps ++ [a.2.id]).length
    rw [List.length_append, h.counted]
    rfl
  · intro version step answer happly hddl
    refine h.started version step answer ?_ hddl
    simpa using happly
  · intro b hb
    rcases List.mem_append.mp hb with hold | hnew
    · exact (h.vouched b hold).mono
    · rw [List.mem_singleton.mp hnew]
      exact Or.inl hself
  · intro b hb hacknowledged
    rw [acknowledged_append, Bool.or_eq_true] at hacknowledged
    rcases hacknowledged with hold | hnow
    · exact List.mem_append_left _ (h.kept b hb hold)
    · rw [hlast b hb hnow]
      simp

end Books

/-! ## One step -/

section Steps

variable {m : Manifest} {confirmed : List PlacedStep} {past events work : RunHistory}
  {report through failure : MigrationReport} {definition : MigrationDefinition}
  {step : MigrationStep} {response : SqlResponse} {outcome : Except Bytes Unit}
  {versionWasComplete : Bool} {recordedSteps : RecordedSteps}

theorem OfWork.acknowledges {version : ℕ} {event : RunEvent} (h : OfWork version step event.1) (a : PlacedStep) :
    acknowledges a event = false := by
  rw [← Bool.not_eq_true]
  intro hacknowledges
  obtain ⟨message, response, rfl⟩ := acknowledges_iff.mp hacknowledges
  exact h

/-- The records of a failure say FAILED. -/
theorem emits_recordFailure_settles (stepError : Bytes) :
    (recordFailure definition report step stepError).Emits fun call => ¬ Settles call := by
  have hnote : ∀ recorded e note,
      (noteUnrecorded recorded e note).Emits fun call => ¬ Settles call := by
    intro recorded e note
    unfold noteUnrecorded
    split
    · trivial
    · exact ⟨id, fun _ => trivial⟩
  refine emits_bind ⟨failedStatus_ne_succeeded, fun _ => trivial⟩ fun _ =>
    emits_bind (hnote _ _ _) fun e => ?_
  exact emits_bind ⟨id, fun _ => trivial⟩ fun _ => emits_bind (hnote _ _ _) fun _ => trivial

/-- From the RUNNING record to the end of the work. -/
theorem Booked.carriedOut (h : Booked m.definitions confirmed past report)
    (hwork : Runs (applyStep definition.version step) work outcome) (response : SqlResponse) :
    Booked m.definitions confirmed
      (past ++ stmt (.stepStatus definition.version step running []) (.ok response) :: work)
      (report.starting step) := by
  have hof : ∀ event ∈ work, OfWork definition.version step event.1 :=
    (traces_of_emits emits_applyStep).of_runs hwork
  refine (h.starting step).extend (fun event hevent a => ?_) fun version s answer hmem hddl => ?_
  · rcases List.mem_cons.mp hevent with rfl | hevent
    · rw [← Bool.not_eq_true]
      exact fun hacknowledges => running_ne_succeeded (settles_of_acknowledges hacknowledges)
    · exact (hof event hevent).acknowledges a
  · rcases List.mem_cons.mp hmem with heq | hmem
    · cases heq
    · obtain ⟨-, rfl⟩ := hof _ hmem
      exact started_of_ddl hddl

theorem Performed.booked (h : Booked m.definitions confirmed past report)
    (hnext : confirmed ++ [(definition, step)] <+: requiredSteps m.definitions)
    (hperformed : Performed definition report step events (.ok through)) :
    Booked m.definitions (confirmed ++ [(definition, step)]) (past ++ events) through := by
  cases hperformed with
  | @applied response written work hwork =>
      have hbooked := (h.carriedOut hwork response).apply hnext written
      rwa [List.append_assoc] at hbooked

theorem Performed.booked_failed (h : Booked m.definitions confirmed past report)
    (hperformed : Performed definition report step events (.error failure)) :
    Booked m.definitions confirmed (past ++ events) failure := by
  cases hperformed with
  | unrecorded =>
      refine (h.silent ?_).failed step.id _
      intro event hevent
      rw [List.mem_singleton.mp hevent]
      exact running_ne_succeeded
  | @broken response work records stepError failure hwork hrecords =>
      obtain ⟨message, rfl⟩ := (returns_recordFailure stepError).of_runs hrecords
      have hsilent := (traces_of_emits (emits_recordFailure_settles stepError)).of_runs hrecords
      have hbooked := (h.carriedOut hwork response).silent hsilent
      rw [List.append_assoc] at hbooked
      exact hbooked.failed step.id message
  | @lost response work e hwork =>
      have hbooked := (h.carriedOut hwork response).refused definition.version step e
      have hpoisoned := hbooked.poisoned
      rw [List.append_assoc, List.append_assoc] at hpoisoned
      exact hpoisoned.failed step.id _

theorem Booked.verified (h : Booked m.definitions confirmed past report) (version : ℕ)
    (step : MigrationStep) (answer : SqlResult) :
    Booked m.definitions confirmed (past ++ [stmt (.verify version step) answer]) report := by
  refine h.silent fun event hevent => ?_
  rw [List.mem_singleton.mp hevent]
  exact id

/-- A turn that goes through confirms its step, if it is a required one. -/
theorem StepCourse.booked (h : Booked m.definitions confirmed past report)
    (hnext : confirmed ++ requiredOf definition [step] <+: requiredSteps m.definitions)
    (htaken : TakenUp definition recordedSteps past)
    (hcourse : StepCourse definition versionWasComplete recordedSteps report step events
      (.ok through)) :
    Booked m.definitions (confirmed ++ requiredOf definition [step]) (past ++ events) through := by
  have hplaced : step.Required → requiredOf definition [step] = [(definition, step)] :=
    fun hrequired => requiredOf_cons hrequired
  cases hcourse with
  | deferred hcleanup =>
      rw [requiredOf_cons_cleanup hcleanup, List.append_nil]
      show Booked m.definitions (confirmed ++ []) past report
      rwa [List.append_nil]
  | found hrequired hlookup hsucceeded =>
      rw [hplaced hrequired] at hnext ⊢
      rw [List.append_nil]
      exact h.alreadyComplete hnext ⟨recordedSteps, _, htaken, hlookup, hsucceeded⟩
  | @recovered existing answer written hrequired =>
      rw [hplaced hrequired] at hnext ⊢
      have hbooked := (h.verified definition.version step answer).apply hnext written
      rwa [List.append_assoc] at hbooked
  | @again existing answer events r hrequired _ _ _ hperformed =>
      rw [hplaced hrequired] at hnext ⊢
      have hbooked := hperformed.booked (h.verified definition.version step answer) hnext
      rwa [List.append_assoc] at hbooked
  | first hrequired _ hperformed =>
      rw [hplaced hrequired] at hnext ⊢
      exact hperformed.booked h hnext

/-- A turn that ends the run confirms nothing; its step was not found recorded as SUCCEEDED. -/
theorem StepCourse.booked_failed (h : Booked m.definitions confirmed past report)
    (hcourse : StepCourse definition versionWasComplete recordedSteps report step events
      (.error failure)) :
    Booked m.definitions confirmed (past ++ events) failure ∧ step.Required ∧
      ∀ existing, recordedSteps.lookup step.id = some existing → existing.status ≠ succeeded := by
  have hsame : ∀ {existing : RecordedStep}, recordedSteps.lookup step.id = some existing →
      existing.status ≠ succeeded →
      ∀ existing', recordedSteps.lookup step.id = some existing' → existing'.status ≠ succeeded := by
    intro existing hlookup hstatus existing' hlookup'
    cases hlookup.symm.trans hlookup'
    exact hstatus
  cases hcourse with
  | contradicted hrequired _ hincomplete =>
      refine ⟨?_, hrequired, hincomplete⟩
      exact (h.silent (by simp)).failed step.id _
  | @unrecovered existing answer e hrequired hlookup hstatus =>
      refine ⟨?_, hrequired, hsame hlookup hstatus⟩
      have hbooked := (h.verified definition.version step answer).refused definition.version step e
      rw [List.append_assoc] at hbooked
      exact hbooked.failed step.id _
  | @again existing answer events r hrequired hlookup hstatus _ hperformed =>
      refine ⟨?_, hrequired, hsame hlookup hstatus⟩
      have hbooked := hperformed.booked_failed (h.verified definition.version step answer)
      rwa [List.append_assoc] at hbooked
  | first hrequired hlookup hperformed =>
      refine ⟨hperformed.booked_failed h, hrequired, fun existing hsome => ?_⟩
      cases hlookup.symm.trans hsome

end Steps

/-! ## One version -/

section Versions

variable {m : Manifest} {confirmed : List PlacedStep} {past events body work opening : RunHistory}
  {report report' through failure : MigrationReport} {definition : MigrationDefinition}
  {steps : List MigrationStep} {versionWasComplete complete : Bool}
  {recordedSteps read : RecordedSteps} {versionState recorded : SqlResponse} {rows : List SqlRow}
  {a : PlacedStep}

theorem requiredOf_mono {first : List MigrationStep} (h : first <+: steps) :
    requiredOf definition first <+: requiredOf definition steps :=
  (h.filter _).map _

/-- Turns that go through confirm their steps. -/
theorem steps_booked (h : Booked m.definitions confirmed past report)
    (hnext : confirmed ++ requiredOf definition steps <+: requiredSteps m.definitions)
    (htaken : TakenUp definition recordedSteps past)
    (hrun : Runs (steps.foldlM (runStep definition versionWasComplete recordedSteps) report).run
      events (.ok through)) :
    Booked m.definitions (confirmed ++ requiredOf definition steps) (past ++ events) through := by
  let I (done : List MigrationStep) (r : MigrationReport) (past : RunHistory) : Prop :=
    TakenUp definition recordedSteps past ∧
      Booked m.definitions (confirmed ++ requiredOf definition done) past r
  have hstart : I [] report past := ⟨htaken, by simpa [requiredOf] using h⟩
  refine (runs_foldlM_ok I past ?_ hrun hstart).2
  rintro done step rest r past events r' hsplit ⟨htaken, hbooked⟩ hturn
  refine ⟨htaken.mono, ?_⟩
  rw [requiredOf_append, ← List.append_assoc]
  refine (traces_runStep.of_runs hturn).booked hbooked ?_ htaken
  rw [List.append_assoc, ← requiredOf_append]
  have hdone : done ++ [step] <+: steps := ⟨rest, by simp [hsplit]⟩
  exact ((List.prefix_append_right_inj _).mpr (requiredOf_mono hdone)).trans hnext

/-- Turns that end the run confirm the steps before the one that failed. -/
theorem steps_booked_failed (h : Booked m.definitions confirmed past report)
    (hnext : confirmed ++ requiredOf definition steps <+: requiredSteps m.definitions)
    (htaken : TakenUp definition recordedSteps past)
    (hrun : Runs (steps.foldlM (runStep definition versionWasComplete recordedSteps) report).run
      events (.error failure)) :
    ∃ done step rest, steps = done ++ step :: rest ∧ step.Required ∧
      Booked m.definitions (confirmed ++ requiredOf definition done) (past ++ events) failure ∧
      ∀ existing, recordedSteps.lookup step.id = some existing → existing.status ≠ succeeded := by
  obtain ⟨done, step, rest, between, first, second, hsplit, rfl, hdone, hlast⟩ :=
    runs_foldlM_error hrun
  have hprefix : done <+: steps := ⟨step :: rest, hsplit.symm⟩
  have hconfirmed := steps_booked h
    (((List.prefix_append_right_inj _).mpr (requiredOf_mono hprefix)).trans hnext) htaken hdone
  obtain ⟨hbooked, hrequired, hincomplete⟩ :=
    (traces_runStep.of_runs hlast).booked_failed hconfirmed
  rw [List.append_assoc] at hbooked
  exact ⟨done, step, rest, hsplit, hrequired, hbooked, hincomplete⟩

theorem Opened.silent (h : Opened definition versionWasComplete opening) :
    ∀ event ∈ opening, ¬ Settles event.1 := by
  intro event hevent
  cases h with
  | complete => cases hevent
  | recorded =>
      rw [List.mem_singleton.mp hevent]
      exact id

/-- Work on a version that was read without objection. -/
theorem takenUp_of_worked (hversion : readVersionState definition report versionState.rows =
      .ok versionWasComplete)
    (hrecorded : readRecordedSteps definition report [] recorded.rows = .ok recordedSteps)
    (hopened : Opened definition versionWasComplete opening) :
    TakenUp definition recordedSteps (past ++ stmt (.versionState definition.version)
      (.ok versionState) :: stmt (.recordedSteps definition.version) (.ok recorded) :: opening) := by
  refine ⟨versionState, recorded, report, versionWasComplete, by simp, by simp, hversion, hrecorded,
    fun hopen => ?_⟩
  cases hopened with
  | complete => cases hopen
  | @recorded response => exact ⟨response, by simp⟩

theorem Booked.reads (h : Booked m.definitions confirmed past report)
    (hopened : Opened definition versionWasComplete opening) :
    Booked m.definitions confirmed (past ++ stmt (.versionState definition.version)
      (.ok versionState) :: stmt (.recordedSteps definition.version) (.ok recorded) :: opening)
      report := by
  refine h.silent fun event hevent => ?_
  rcases List.mem_cons.mp hevent with rfl | hevent
  · exact id
  rcases List.mem_cons.mp hevent with rfl | hevent
  · exact id
  · exact hopened.silent event hevent

/-- A version that is gone through confirms its required steps. -/
theorem DefinitionCourse.booked (h : Booked m.definitions confirmed past report)
    (hnext : confirmed ++ requiredOf definition definition.steps <+: requiredSteps m.definitions)
    (hcourse : DefinitionCourse definition report events (.ok through)) :
    Booked m.definitions (confirmed ++ requiredOf definition definition.steps) (past ++ events)
      through := by
  cases hcourse with
  | @worked versionState recorded complete recordedSteps work r hversion hrecorded hwork =>
      cases hwork with
      | @kept opening steps through hopened hrun =>
          have hbooked := steps_booked (h.reads hopened) hnext
            (takenUp_of_worked hversion hrecorded hopened) hrun
          rw [List.append_assoc] at hbooked
          exact hbooked.transfer rfl rfl rfl rfl rfl fun _ hid => hid
      | @finished opening steps through response hopened hrun =>
          have hbooked := (steps_booked (h.reads hopened) hnext
            (takenUp_of_worked hversion hrecorded hopened) hrun).closed definition (.ok response)
          rw [List.append_assoc, List.append_assoc] at hbooked
          exact hbooked.transfer rfl rfl rfl rfl rfl fun _ hid => hid

/-! ### What an interrupted version leaves open -/

/-- The report plays no part in what is read of a version's row. -/
theorem readVersionState_any (h : readVersionState definition report rows = .ok complete)
    (report' : MigrationReport) : readVersionState definition report' rows = .ok complete := by
  unfold readVersionState at h ⊢
  split at h
  · exact h
  · split at h
    · cases h
    · rename_i hname
      simpa [hname] using h
  · cases h

theorem readRecordedSteps_any (h : readRecordedSteps definition report read rows = .ok recordedSteps)
    (report' : MigrationReport) :
    readRecordedSteps definition report' read rows = .ok recordedSteps := by
  induction rows generalizing read with
  | nil => exact h
  | cons row rows ih =>
      obtain ⟨id, recorded, step, rfl, hcurrent, hmatches, hrest⟩ := readRecordedSteps_cons h
      rw [← ih hrest]
      simp only [RecordedStep.row, readRecordedSteps, hcurrent]
      exact if_pos hmatches

/-- What was read of a version was read in its turn. -/
theorem TakenUp.of_fresh (h : TakenUp definition read (past ++ body))
    (hfresh : ∀ event ∈ past, ¬ NamesVersion definition.version event.1) :
    TakenUp definition read body := by
  refine h.restrict fun event hevent hnames => ?_
  rcases List.mem_append.mp hevent with hpast | hmem
  · exact absurd hnames (hfresh event hpast)
  · exact hmem

/-- A version whose reads were not gone on with is not taken up. -/
theorem Refused.not_takenUp (h : Refused definition report body failure) :
    ¬ TakenUp definition read body := by
  rintro ⟨versionState, recorded, report', complete, hstate, hsteps, hversion, hrecorded, -⟩
  cases h with
  | versionUnread => cases List.mem_singleton.mp hstate
  | version => cases List.mem_singleton.mp hsteps
  | stepsUnread =>
      rcases List.mem_pair.mp hsteps with heq | heq
      · cases heq
      · cases heq
  | @steps _ recorded _ hread =>
      rcases List.mem_pair.mp hsteps with heq | heq
      · cases heq
      · cases heq
        rw [readRecordedSteps_any hrecorded report] at hread
        cases hread

/-- A version that is worked on was read once. -/
theorem TakenUp.of_worked {r : Except MigrationReport MigrationReport}
    (h : TakenUp definition read (stmt (.versionState definition.version) (.ok versionState) ::
      stmt (.recordedSteps definition.version) (.ok recorded) :: work))
    (hversion : readVersionState definition report versionState.rows = .ok versionWasComplete)
    (hrecorded : readRecordedSteps definition report [] recorded.rows = .ok recordedSteps)
    (hwork : WorkCourse definition report' versionWasComplete recordedSteps work r) :
    read = recordedSteps ∧ (versionWasComplete = false → ∃ response,
      stmt (.versionStatus definition.version definition.name running []) (.ok response) ∈ work) := by
  obtain ⟨versionState', recorded', report₀, complete, hstate, hsteps, hversion', hrecorded',
    hopened⟩ := h
  obtain rfl : versionState' = versionState := by
    rcases List.mem_cons.mp hstate with heq | hstate
    · cases heq
      rfl
    rcases List.mem_cons.mp hstate with heq | hstate
    · cases heq
    · exact absurd trivial (hwork.not_read hstate)
  obtain rfl : recorded' = recorded := by
    rcases List.mem_cons.mp hsteps with heq | hsteps
    · cases heq
    rcases List.mem_cons.mp hsteps with heq | hsteps
    · cases heq
      rfl
    · exact absurd trivial (hwork.not_read hsteps)
  rw [readVersionState_any hversion report₀] at hversion'
  rw [readRecordedSteps_any hrecorded report₀] at hrecorded'
  cases hversion'
  cases hrecorded'
  refine ⟨rfl, fun hopen => ?_⟩
  obtain ⟨response, hmem⟩ := hopened hopen
  exact ⟨response, by simpa using hmem⟩

/-- A version that ends the run confirms the required steps before some point, and the one at that
point was not found recorded as SUCCEEDED. -/
theorem DefinitionCourse.booked_failed (h : Booked m.definitions confirmed past report)
    (hnext : confirmed ++ requiredOf definition definition.steps <+: requiredSteps m.definitions)
    (hfresh : ∀ event ∈ past, ¬ NamesVersion definition.version event.1)
    (hcourse : DefinitionCourse definition report events (.error failure)) :
    ∃ passed left, requiredOf definition definition.steps = passed ++ left ∧
      Booked m.definitions (confirmed ++ passed) (past ++ events) failure ∧
      ∀ a ∈ left.head?, ¬ FoundSucceeded (past ++ events) a := by
  have hread : ∀ {left : List PlacedStep} {read : RecordedSteps},
      left <:+ requiredOf definition definition.steps → ∀ a ∈ left.head?,
        TakenUp a.1 read (past ++ events) → TakenUp definition read events := by
    intro left read hleft a ha htaken
    rw [(mem_requiredOf.mp (hleft.subset (List.mem_of_head? ha))).1] at htaken
    exact htaken.of_fresh hfresh
  cases hcourse with
  | @refused reads failure hrefused =>
      refine ⟨[], _, rfl, ?_, ?_⟩
      · rw [List.append_nil]
        obtain ⟨step, message, rfl⟩ := hrefused.failed
        refine (h.silent fun event hevent => ?_).failed step message
        rcases hrefused.reads hevent with heq | heq <;> rw [heq] <;> exact id
      · rintro a ha ⟨read, existing, htaken, -⟩
        exact hrefused.not_takenUp (hread (List.suffix_refl _) a ha htaken)
  | @worked versionState recorded complete recordedSteps work r hversion hrecorded hwork =>
      cases hwork with
      | @unopened e message hopen =>
          refine ⟨[], _, rfl, ?_, ?_⟩
          · rw [List.append_nil]
            refine (h.silent fun event hevent => ?_).failed [] message
            simp only [List.mem_cons, List.not_mem_nil, or_false] at hevent
            rcases hevent with rfl | rfl | rfl <;> exact id
          · rintro a ha ⟨read, existing, htaken, -⟩
            have hwork : WorkCourse definition report complete recordedSteps
                [stmt (.versionStatus definition.version definition.name running []) (.error e)]
                (.error (failed report [] message)) := .unopened hopen
            obtain ⟨-, hopened⟩ :=
              (hread (List.suffix_refl _) a ha htaken).of_worked hversion hrecorded hwork
            obtain ⟨response, hmem⟩ := hopened hopen
            cases List.mem_singleton.mp hmem
      | @stopped opening steps failure hopened hrun =>
          obtain ⟨done, step, rest, hsteps, hrequired, hbooked, hincomplete⟩ :=
            steps_booked_failed (h.reads hopened) hnext
              (takenUp_of_worked hversion hrecorded hopened) hrun
          rw [List.append_assoc] at hbooked
          have hsplit : requiredOf definition definition.steps =
              requiredOf definition done ++ requiredOf definition (step :: rest) := by
            rw [hsteps, requiredOf_append]
          refine ⟨_, _, hsplit, hbooked, ?_⟩
          -- the first step that is left is the one that failed
          rintro a ha ⟨read, existing, htaken, hlookup, hsucceeded⟩
          obtain ⟨rfl, -⟩ := (hread ⟨_, hsplit.symm⟩ a ha htaken).of_worked hversion hrecorded
            (.stopped hopened hrun)
          rw [requiredOf_cons hrequired] at ha
          obtain rfl : (definition, step) = a := by simpa using ha
          exact hincomplete existing hlookup hsucceeded
      | @unfinished opening steps through e message hopened hrun =>
          refine ⟨_, [], (List.append_nil _).symm, ?_, by simp⟩
          have hbooked := ((steps_booked (h.reads hopened) hnext
            (takenUp_of_worked hversion hrecorded hopened) hrun).closed definition (.error e)).poisoned
          rw [List.append_assoc, List.append_assoc, List.append_assoc] at hbooked
          exact hbooked.failed [] message

end Versions

/-! ## The whole run -/

section Whole

variable {m : Manifest} {bootstrapSql : List MigrationBootstrapStep} {seconds : ℕ}
  {done : List MigrationDefinition} {past events work release : RunHistory}
  {report through failure : MigrationReport} {r : Except MigrationReport MigrationReport}
  {a : PlacedStep} {answer : SqlResult}

theorem requiredSteps_mono {first second : List MigrationDefinition} (h : first <+: second) :
    requiredSteps first <+: requiredSteps second := by
  obtain ⟨rest, rfl⟩ := h
  exact ⟨requiredSteps rest, requiredSteps_append.symm⟩

/-- Versions that are gone through confirm their required steps. -/
theorem definitions_booked (h : Booked m.definitions [] past report) (hdone : done <+: m.definitions)
    (hrun : Runs (done.foldlM runDefinition report).run events (.ok through)) :
    Booked m.definitions (requiredSteps done) (past ++ events) through := by
  refine runs_foldlM_ok (fun done r past => Booked m.definitions (requiredSteps done) past r) past ?_
    hrun h
  rintro before d rest b past events b' hsplit hbooked hturn
  have hnow : requiredSteps (before ++ [d]) = requiredSteps before ++ requiredOf d d.steps := by
    rw [requiredSteps_append, requiredSteps_cons]
    exact congrArg _ (List.append_nil _)
  have hbefore : before ++ [d] <+: done := ⟨rest, by simp [hsplit]⟩
  rw [hnow]
  refine (traces_runDefinition.of_runs hturn).booked hbooked ?_
  rw [← hnow]
  exact requiredSteps_mono (hbefore.trans hdone)

/-- A run in which nothing names the version has not found a step of it. -/
theorem not_found_of_unnamed (hunnamed : ∀ event ∈ events, ¬ NamesVersion a.1.version event.1) :
    ¬ FoundSucceeded events a := by
  rintro ⟨read, existing, ⟨versionState, -, -, -, hstate, -⟩, -⟩
  exact hunnamed _ hstate rfl

/-- The books at the end of the work: the run has confirmed the required steps up to one that it did
not find recorded as SUCCEEDED. -/
def BooksClosed (m : Manifest) (events : RunHistory) (report : MigrationReport) : Prop :=
  ∃ confirmed pending, requiredSteps m.definitions = confirmed ++ pending ∧
    Booked m.definitions confirmed events report ∧ ∀ a ∈ pending.head?, ¬ FoundSucceeded events a

/-- A run that has not come to a version. -/
theorem booksClosed_unnamed (hunnamed : ∀ event ∈ events, ∀ v, ¬ NamesVersion v event.1)
    (hbooked : Booked m.definitions [] events report) : BooksClosed m events report :=
  ⟨[], _, rfl, hbooked, fun _ _ => not_found_of_unnamed fun event hevent => hunnamed event hevent _⟩

/-- Versions that end the run confirm the required steps before some point. -/
theorem definitions_booked_failed (h : Booked m.definitions [] past report)
    (hpast : ∀ event ∈ past, ∀ v, ¬ NamesVersion v event.1)
    (hrun : Runs (m.definitions.foldlM runDefinition report).run events (.error failure)) :
    BooksClosed m (past ++ events) failure := by
  obtain ⟨done, d, rest, between, first, second, hsplit, rfl, hdone, hlast⟩ := runs_foldlM_error hrun
  have hversions := m.versions_increasing
  rw [hsplit, List.pairwise_append, List.pairwise_cons] at hversions
  have hfirst : ∀ event ∈ first, ∃ e ∈ done, OfVersion e.version event.1 := by
    have hemits : (done.foldlM runDefinition report).run.Emits fun call =>
        ∃ e ∈ done, OfVersion e.version call :=
      emits_run_foldlM (fun r e he => emits_runDefinition.mono fun call hcall => ⟨e, he, hcall⟩) _
    exact (traces_of_emits hemits).of_runs hdone
  have hsecond : ∀ event ∈ second, OfVersion d.version event.1 :=
    (traces_of_emits emits_runDefinition).of_runs hlast
  -- what an event names is a version that the run has come to
  have hnamed : ∀ event ∈ past ++ first, ∀ v, NamesVersion v event.1 → v < d.version := by
    intro event hevent v hnames
    rcases List.mem_append.mp hevent with hmem | hmem
    · exact absurd hnames (hpast event hmem v)
    · obtain ⟨e, he, hof⟩ := hfirst event hmem
      have hlt := hversions.2.2 e he d List.mem_cons_self
      have heq : e.version = v := hnames.eq hof
      omega
  have hprefix : done ++ [d] <+: m.definitions := ⟨rest, by simp [hsplit]⟩
  have hbefore : done <+: m.definitions := (List.prefix_append done [d]).trans hprefix
  have hnow : requiredSteps (done ++ [d]) = requiredSteps done ++ requiredOf d d.steps := by
    rw [requiredSteps_append, requiredSteps_cons]
    exact congrArg _ (List.append_nil _)
  obtain ⟨passed, left, hleft, hbooked, hhead⟩ :=
    (traces_runDefinition.of_runs hlast).booked_failed (definitions_booked h hbefore hdone)
      (hnow ▸ requiredSteps_mono hprefix) fun event hevent hnames =>
        Nat.lt_irrefl _ (hnamed event hevent _ hnames)
  rw [List.append_assoc] at hbooked hhead
  refine ⟨requiredSteps done ++ passed, left ++ requiredSteps rest, ?_, hbooked, ?_⟩
  · rw [hsplit, requiredSteps_append, requiredSteps_cons, hleft]
    simp
  · intro a ha
    cases left with
    | cons b left => exact hhead a ha
    | nil =>
        -- the next required step belongs to a version that the run has not come to
        have hrest : a.1 ∈ rest := (mem_requiredSteps.mp (List.mem_of_head? ha)).1
        have hlater := hversions.2.1.1 a.1 hrest
        refine not_found_of_unnamed fun event hevent hnames => ?_
        rw [← List.append_assoc] at hevent
        rcases List.mem_append.mp hevent with hmem | hmem
        · have hlt := hnamed event hmem _ hnames
          omega
        · have heq : d.version = a.1.version := hnames.eq (hsecond event hmem)
          omega

theorem OfBootstrap.not_settles {b : MigrationBootstrapStep} {call : ExecutorCall MigrationStatement}
    (h : OfBootstrap b call) : ¬ Settles call := by
  intro hsettles
  cases call with
  | control => exact hsettles
  | poison => exact hsettles
  | execute statement =>
      cases statement with
      | stepStatus => exact h
      | apply => exact h
      | _ => exact hsettles

/-- The lock and the bootstrap steps leave the books as they were. -/
theorem booked_booted {boots : RunHistory} (m : Manifest) (seconds : ℕ) (answer : SqlResult)
    (hboots : ∀ event ∈ boots, ∃ b ∈ bootstrapSql, OfBootstrap b event.1) :
    Booked m.definitions [] (stmt (.getLock seconds) answer :: boots) (initialReport m.definitions) := by
  refine (booked_initial m.definitions).silent fun event hevent => ?_
  rcases List.mem_cons.mp hevent with rfl | hevent
  · exact id
  · obtain ⟨b, -, hb⟩ := hboots event hevent
    exact hb.not_settles

/-- Once the bootstrap steps are through, the report is one of success for the time being. -/
theorem Booked.prepared (h : Booked m.definitions [] past report) :
    Booked m.definitions [] past { report with status := .succeeded } :=
  h.transfer rfl rfl rfl rfl rfl fun _ hid => hid

theorem LockedCourse.booked (seconds : ℕ) (answer : SqlResult)
    (hcourse : LockedCourse m.definitions bootstrapSql (initialReport m.definitions) work r) :
    ∃ report, (r = .ok report ∨ r = .error report) ∧
      BooksClosed m (stmt (.getLock seconds) answer :: work) report := by
  have hunnamed : ∀ {boots : RunHistory},
      (∀ event ∈ boots, ∃ b ∈ bootstrapSql, OfBootstrap b event.1) →
        ∀ event ∈ stmt (.getLock seconds) answer :: boots, ∀ v, ¬ NamesVersion v event.1 := by
    intro boots hboots event hevent v
    rcases List.mem_cons.mp hevent with rfl | hevent
    · exact id
    · obtain ⟨b, -, hb⟩ := hboots event hevent
      exact hb.not_names
  cases hcourse with
  | @unprepared boots step message hboots =>
      refine ⟨_, Or.inr rfl, booksClosed_unnamed (hunnamed hboots) ?_⟩
      exact (booked_booted m seconds answer hboots).failed step message
  | @prepared boots work r hboots hrun =>
      have hprepared := (booked_booted m seconds answer hboots).prepared
      rcases r with failure | through
      · exact ⟨failure, Or.inr rfl, definitions_booked_failed hprepared (hunnamed hboots) hrun⟩
      · have hbooked := definitions_booked hprepared (List.prefix_refl _) hrun
        exact ⟨through, Or.inl rfl, _, [], (List.append_nil _).symm, hbooked, by simp⟩

/-- The report of a run, at whatever exit. -/
theorem run_booked (hrun : Runs (run m.definitions bootstrapSql seconds) events report) :
    BooksClosed m events report := by
  have hcourse := runCourse hrun
  cases hcourse with
  | @refused answer message _ =>
      have hnone : ∀ event ∈ ([] : RunHistory), ∃ b ∈ bootstrapSql, OfBootstrap b event.1 := by simp
      have hbooked := booked_booted m seconds answer hnone
      refine booksClosed_unnamed (fun event hevent v => ?_) (hbooked.failed [] message)
      rw [List.mem_singleton.mp hevent]
      exact id
  | @locked answer work release r report _ hwork hrelease hends =>
      obtain ⟨closed, hr, confirmed, pending, hsplit, hbooked, hhead⟩ :=
        (traces_runLocked.of_runs hwork).booked seconds answer
      have hreleased : ∀ event ∈ release, ¬ Settles event.1 := by
        intro event hevent
        cases hrelease with
        | confirmed =>
            rw [List.mem_singleton.mp hevent]
            exact id
        | poisoned => rcases List.mem_pair.mp hevent with rfl | rfl <;> exact id
      have hbooks := hbooked.silent hreleased
      refine ⟨confirmed, pending, hsplit, ?_, ?_⟩
      · rcases hr with rfl | rfl
        · cases hends with
          | released => exact hbooks.transfer rfl rfl rfl rfl rfl fun _ hid => hid
          | unreleased => exact hbooks.failed [] _
        · cases hends
          exact hbooks
      · rintro a ha ⟨read, existing, htaken, hfound⟩
        refine hhead a ha ⟨read, existing, htaken.restrict fun event hevent hnames => ?_, hfound⟩
        rcases List.mem_cons.mp hevent with rfl | hevent
        · exact List.mem_cons_self
        rcases List.mem_append.mp hevent with hmem | hmem
        · exact List.mem_cons_of_mem _ hmem
        · exact absurd hmem (hnames.not_released hrelease)

end Whole

/-! ## When the report is right -/

section Sound

variable {m : Manifest} {confirmed pending : List PlacedStep} {events : RunHistory}
  {report : MigrationReport} {bootstrapSql : List MigrationBootstrapStep} {seconds : ℕ}
  {before rest : List MigrationDefinition} {definition : MigrationDefinition} {id : Bytes}

theorem stepIds_append : stepIds (confirmed ++ pending) = stepIds confirmed ++ stepIds pending :=
  List.map_append

/-- The two lists of confirmed steps make up the steps that are confirmed. -/
theorem Booked.parted (h : Booked m.definitions confirmed events report) :
    (report.appliedSteps ++ report.alreadyCompleteSteps).Perm (stepIds confirmed) := by
  rw [h.applied, h.found, ← stepIds_append]
  exact (List.filter_append_perm (acknowledged events) confirmed).map fun a => a.2.id

/-- If no id occurs twice, an id stands for its step. -/
theorem reportSound_of_nodup (hnodup : (stepIds (requiredSteps m.definitions)).Nodup)
    (h : BooksClosed m events report) : ReportSound m events report := by
  obtain ⟨confirmed, pending, hsplit, hbooked, hhead⟩ := h
  have hids : stepIds (requiredSteps m.definitions) = stepIds confirmed ++ stepIds pending := by
    rw [hsplit, stepIds_append]
  have hdisjoint : List.Disjoint (stepIds confirmed) (stepIds pending) := by
    rw [hids] at hnodup
    exact List.disjoint_of_nodup_append hnodup
  have hpending : report.pendingSteps = stepIds pending := by
    have hgone : (stepIds confirmed).filter (fun id => id ∉ stepIds confirmed) = [] :=
      List.filter_eq_nil_iff.mpr fun id hid => by simp [hid]
    have hstays : (stepIds pending).filter (fun id => id ∉ stepIds confirmed) = stepIds pending := by
      refine List.filter_eq_self.mpr fun id hid => ?_
      have hnot : id ∉ stepIds confirmed := fun hmem => hdisjoint hmem hid
      simpa using hnot
    rw [hbooked.pending, hids, List.filter_append, hgone, hstays, List.nil_append]
  have hunacknowledged : ∀ a ∈ pending, acknowledged events a = false := by
    intro a ha
    rw [← Bool.not_eq_true]
    intro hacknowledged
    have hconfirmed : a ∈ confirmed := hbooked.kept a (by simp [hsplit, ha]) hacknowledged
    exact hdisjoint (List.mem_map_of_mem hconfirmed) (List.mem_map_of_mem ha)
  refine ⟨?_, ⟨confirmed, pending, hsplit, hbooked.vouched, hunacknowledged, ?_, hpending,
    hbooked.applied, hbooked.found⟩, hbooked.deferred, hbooked.counted, hbooked.started⟩
  · rw [hids, hpending]
    exact List.perm_append_comm.trans (hbooked.parted.symm.append_left _)
  · rintro a ha (hacknowledged | hfound)
    · rw [hunacknowledged a (List.mem_of_head? ha)] at hacknowledged
      cases hacknowledged
    · exact hhead a ha hfound

/-- Ids that no two versions share do not occur twice. -/
theorem nodup_of_disjoint
    (hdisjoint : ∀ before definition rest, m.definitions = before ++ definition :: rest →
      ∀ id ∈ stepIds (requiredSteps before), id ∉ stepIds (requiredOf definition definition.steps)) :
    (stepIds (requiredSteps m.definitions)).Nodup := by
  suffices hgen : ∀ rest before, m.definitions = before ++ rest →
      (stepIds (requiredSteps before)).Nodup → (stepIds (requiredSteps m.definitions)).Nodup from
    hgen m.definitions [] rfl List.nodup_nil
  intro rest
  induction rest with
  | nil =>
      intro before hsplit hbefore
      rw [hsplit, List.append_nil]
      exact hbefore
  | cons definition rest ih =>
      intro before hsplit hbefore
      refine ih (before ++ [definition]) (by simp [hsplit]) ?_
      have hmem : definition ∈ m.definitions := by simp [hsplit]
      have hown : (stepIds (requiredOf definition definition.steps)).Nodup := by
        have heq : stepIds (requiredOf definition definition.steps) =
            (definition.steps.filter fun s => s.phase ≠ .cleanup).map MigrationStep.id := by
          simp [stepIds, requiredOf]
        rw [heq]
        exact (ids_nodup (m.ids_increasing definition hmem)).sublist (List.filter_sublist.map _)
      rw [requiredSteps_append, requiredSteps_cons, stepIds_append, stepIds_append]
      refine List.nodup_append'.mpr ⟨hbefore, ?_, ?_⟩
      · simpa [requiredSteps, stepIds] using hown
      · intro id hid hid'
        refine hdisjoint before definition rest hsplit id hid ?_
        simpa [requiredSteps, stepIds] using hid'

/-- A start on an empty database that is broken off at the first read of a version. -/
theorem brokenOff (hsplit : m.definitions = before ++ definition :: rest) :
    ∃ events report, Runs (run m.definitions [metadataTable]) events report ∧
      Booked m.definitions (requiredSteps before) events report := by
  have hbefore : ∀ d ∈ before, d ∈ m.definitions := fun d hd => by simp [hsplit, hd]
  have hprefix : before <+: m.definitions := ⟨definition :: rest, hsplit.symm⟩
  let done : Manifest :=
    { definitions := before
      versions_increasing := m.versions_increasing.sublist hprefix.sublist
      steps_nonempty := fun d hd => m.steps_nonempty d (hbefore d hd)
      ids_increasing := fun d hd => m.ids_increasing d (hbefore d hd) }
  have hempty : Acceptable done [metadataTable] {} := by
    refine ⟨by simp, fun b hb => ?_, fun d _ => ⟨fun row hrow => ?_, fun id row hrow => ?_,
      fun row hrow => ?_⟩⟩
    · rw [List.mem_singleton.mp hb]
      decide
    · cases hrow
    · cases hrow
    · cases hrow
  have hmay : mayx (willing False) (fun r c => r.status = .succeeded ∧ c.2 = none)
      (runLocked before [metadataTable] (initialReport m.definitions)) ({}, none) :=
    runLocked_may hempty
  obtain ⟨locked, r, c, hlocked, -, through, rfl, -, -⟩ := runs_of_may hmay
  unfold runLocked at hlocked
  rw [if_neg (by simp)] at hlocked
  rcases runs_run_bind hlocked with ⟨e, -, heq⟩ | ⟨boots, work, start, rfl, hboots, hthrough⟩
  · cases heq
  obtain ⟨hof, hstart⟩ := traces_bootstrap.of_runs hboots
  obtain rfl : start = initialReport m.definitions := by
    rcases hstart with heq | ⟨step, message, heq⟩
    · exact Except.ok.inj heq
    · cases heq
  let unread : RunEvent := stmt (.versionState definition.version) (.error { code := .deadlock })
  let released : RunEvent := stmt .releaseLock (.ok one)
  let message : Bytes := lit "migration version state read failed: "
  have hturns : ∀ start, Runs (before.foldlM runDefinition start).run work (.ok through) →
      Runs (m.definitions.foldlM runDefinition start).run (work ++ [unread])
        (.error (failed through [] message)) := by
    intro start hstarted
    rw [hsplit, List.foldlM_append]
    refine runs_run_through hstarted ?_
    rw [List.foldlM_cons]
    exact runs_run_left _ (.call (.ret _))
  have hinterrupted : Runs (runLocked m.definitions [metadataTable] (initialReport m.definitions)).run
      (boots ++ (work ++ [unread])) (.error (failed through [] message)) := by
    unfold runLocked
    rw [if_neg (by simp)]
    exact runs_run_through hboots (hturns _ hthrough)
  obtain ⟨acquired, htrue⟩ : ∃ response, truthy response = true := ⟨one, truthy_one⟩
  refine ⟨stmt (.getLock 10) (.ok acquired) :: (boots ++ (work ++ [unread]) ++ [released]),
    failed through [] message, ?_, ?_⟩
  · refine .call ?_
    show Runs (if !truthy acquired then _ else _) _ _
    rw [if_neg (by simp [htrue])]
    exact runs_bind.mpr ⟨_, _, _, rfl, hinterrupted, .call (.ret _)⟩
  · have hbooked := definitions_booked (booked_booted m 10 (.ok acquired) hof).prepared hprefix hthrough
    have hsilent : ∀ event ∈ [unread, released], ¬ Settles event.1 := by
      intro event hevent
      rcases List.mem_pair.mp hevent with rfl | rfl <;> exact id
    have hclosed := (hbooked.silent hsilent).failed [] message
    simpa using hclosed

/-- An id that is shared with a later version is missing from the report of such a start. -/
theorem not_partition_of_shared (hsplit : m.definitions = before ++ definition :: rest)
    (hbooked : Booked m.definitions (requiredSteps before) events report)
    (hearlier : id ∈ stepIds (requiredSteps before))
    (hlater : id ∈ stepIds (requiredOf definition definition.steps)) :
    ¬ (stepIds (requiredSteps m.definitions)).Perm
      (report.pendingSteps ++ (report.appliedSteps ++ report.alreadyCompleteSteps)) := by
  intro hperm
  have hcount := hperm.count_eq id
  have hgone : report.pendingSteps.count id = 0 := by
    rw [List.count_eq_zero, hbooked.pending]
    simp [hearlier]
  have hhere : 0 < (stepIds (requiredOf definition definition.steps)).count id :=
    List.count_pos_iff.mpr hlater
  rw [hsplit, requiredSteps_append, requiredSteps_cons, stepIds_append, stepIds_append,
    List.count_append, List.count_append, List.count_append, hgone, hbooked.parted.count_eq] at hcount
  omega

end Sound

/-! ## An id in two versions -/

section Shared

/-- A later version that seeds once more, under the same step id. -/
def reseedStep : MigrationStep where
  id := seedStep.id
  phase := .backfill
  execution := .transactionalDml
  applySql := lit "INSERT INTO seed VALUES(2)"
  verifySql := lit "SELECT COUNT(*)=2 FROM seed"
  checksum := lit "c2"

def sharedManifest : Manifest where
  definitions := [⟨1, lit "0001_seed", [seedStep]⟩, ⟨2, lit "0002_reseed", [reseedStep]⟩]
  versions_increasing := by simp
  steps_nonempty := by simp
  ids_increasing := by simp

/-- A server that has nothing recorded, and runs into a deadlock when the row of the second version
is read. -/
def interrupting : (call : ExecutorCall MigrationStatement) → Unit → call.Answer × Unit
  | .execute (.versionState 2), s => (.error { code := .deadlock }, s)
  | op, s => acknowledging op s

def interruptedStart : RunHistory × MigrationReport :=
  (run sharedManifest.definitions [metadataTable]).exec interrupting ()

end Shared

end Warehouse.Mysql.Migration
