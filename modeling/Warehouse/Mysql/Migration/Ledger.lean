/-
# Warehouse.Mysql.Migration.Ledger — what the metadata tables may say

The invariant of the two metadata tables and the effect counters, and the order in which they move.
Both are stated for every single change: the tables have to make sense after each statement,
because a run may end there.  The lemmas say under which condition each of the runner's three
kinds of change keeps them.
-/
import Warehouse.Mysql.Migration.Database

namespace Warehouse.Mysql.Migration

open Warehouse.Interaction

variable {known : ℕ → MigrationStep → Prop} {exact : Prop} {t t' : Tables} {version now : ℕ}
  {step : MigrationStep} {name status errorMessage : Bytes}

/-! ## The invariant -/

/-- `known` are the steps that any manifest in use gives a version; `exact` is whether verify SQL
tells the truth. -/
structure Consistent (known : ℕ → MigrationStep → Prop) (exact : Prop) (t : Tables) : Prop where
  /-- Rows are recorded for required steps of a manifest, and keep what was recorded. -/
  origin : ∀ version id row, t.steps (version, id) = some row →
    ∃ step, known version step ∧ step.Required ∧ step.id = id ∧ row.Matches step
  /-- The foreign key. -/
  parent : ∀ version id row, t.steps (version, id) = some row → t.versions version ≠ none
  /-- A version that is SUCCEEDED has no other step rows. -/
  closed : ∀ version row, t.versions version = some row → row.status = succeeded →
    ∀ id row, t.steps (version, id) = some row → row.status = succeeded
  /-- No effect is there twice. -/
  once : exact → ∀ a, t.effects a ≤ 1
  /-- Write-ahead: an effect has a row, and not that of a check. -/
  ahead : exact → ∀ a, t.effects a ≠ 0 →
    ∃ row, t.steps a = some row ∧ row.execution ≠ executionName .check
  /-- A SUCCEEDED row has its effect. -/
  applied : exact → ∀ a row, t.steps a = some row → row.status = succeeded →
    row.execution ≠ executionName .check → t.effects a ≠ 0

/-- Empty tables. -/
theorem consistent_empty : Consistent known exact {} where
  origin _ _ _ h := by cases h
  parent _ _ _ h := by cases h
  closed _ _ h := by cases h
  once _ _ := Nat.zero_le 1
  ahead _ _ h := absurd rfl h
  applied _ _ _ h := by cases h

/-- How the tables may move: SUCCEEDED is final, for a step's row and for a version with all its
rows. -/
structure Progress (t t' : Tables) : Prop where
  steps : ∀ a row, t.steps a = some row → row.status = succeeded → t'.steps a = some row
  versions : ∀ version row, t.versions version = some row → row.status = succeeded →
    t'.versions version = some row ∧ ∀ id, t'.steps (version, id) = t.steps (version, id)

instance : Std.Refl Progress where
  refl _ := ⟨fun _ _ h _ => h, fun _ _ h _ => ⟨h, fun _ => rfl⟩⟩

instance : IsTrans Tables Progress where
  trans t t' t'' h h' := by
    refine ⟨fun a row hrow hstatus => h'.steps a row (h.steps a row hrow hstatus) hstatus, ?_⟩
    intro version row hrow hstatus
    obtain ⟨hversion, hsteps⟩ := h.versions version row hrow hstatus
    obtain ⟨hversion', hsteps'⟩ := h'.versions version row hversion hstatus
    exact ⟨hversion', fun id => (hsteps' id).trans (hsteps id)⟩

/-! ## Conditions on the tables before a change -/

/-- The version has a row, and it is not SUCCEEDED. -/
def VersionOpen (version : ℕ) (t : Tables) : Prop :=
  ∃ row, t.versions version = some row ∧ row.status ≠ succeeded

/-- The step has no row, or one that agrees with it and is not SUCCEEDED. -/
def StepPending (version : ℕ) (step : MigrationStep) (t : Tables) : Prop :=
  ∀ row, t.steps (version, step.id) = some row → row.Matches step ∧ row.status ≠ succeeded

/-- The step has a row that agrees with it and says `status`. -/
def StepRecorded (version : ℕ) (step : MigrationStep) (status : Bytes) (t : Tables) : Prop :=
  ∃ row, t.steps (version, step.id) = some row ∧ row.Matches step ∧ row.status = status

/-- Nothing but the row of one step has moved. -/
structure OnlyStep (a : Address) (t t' : Tables) : Prop where
  versions : t'.versions = t.versions
  effects : t'.effects = t.effects
  steps : ∀ b ≠ a, t'.steps b = t.steps b

/-! ## The three kinds of change -/

section Changes

theorem matches_executionName {row : StepRow} (h : row.Matches step) :
    row.execution ≠ executionName .check ↔ step.execution ≠ .check := by
  obtain ⟨_, _, hexecution⟩ := h
  rw [hexecution]
  exact (executionName_injective.ne_iff (y := .check))

theorem upsertStep_matches (now : ℕ) (status errorMessage : Bytes) {row : Option StepRow} (h : ∀ r, row = some r → r.Matches step) :
    (upsertStep now step status errorMessage row).Matches step := by
  cases row with
  | none => exact ⟨rfl, rfl, rfl⟩
  | some r => exact h r rfl

theorem change_step_self :
    (t.change (.step now version step status errorMessage)).steps (version, step.id) =
      some (upsertStep now step status errorMessage (t.steps (version, step.id))) := by
  simp [Tables.change]

theorem change_step_onlyStep :
    OnlyStep (version, step.id) t (t.change (.step now version step status errorMessage)) where
  versions := rfl
  effects := rfl
  steps b hb := by simp [Tables.change, hb]

theorem change_step_recorded (h : StepPending version step t) :
    StepRecorded version step status (t.change (.step now version step status errorMessage)) :=
  ⟨_, change_step_self, upsertStep_matches _ _ _ fun r hr => (h r hr).1, rfl⟩

/-- A step row may be written while its version is open and the row is not SUCCEEDED; it may say
SUCCEEDED if the effect is there. -/
theorem change_step (now : ℕ) (errorMessage : Bytes) (h : Consistent known exact t) (hopen : VersionOpen version t)
    (hknown : known version step) (hrequired : step.Required) (hpending : StepPending version step t)
    (heffect : status = succeeded → exact → step.execution ≠ .check →
      t.effects (version, step.id) ≠ 0) :
    Consistent known exact (t.change (.step now version step status errorMessage)) ∧
      Progress t (t.change (.step now version step status errorMessage)) := by
  have hself : (t.change (.step now version step status errorMessage)).steps (version, step.id) = _ :=
    change_step_self
  have honly : OnlyStep (version, step.id) t
    (t.change (.step now version step status errorMessage)) := change_step_onlyStep
  have hmatches := upsertStep_matches now status errorMessage fun r hr => (hpending r hr).1
  -- all that matters of the new tables: the one row, and that the rest is the same
  generalize t.change (.step now version step status errorMessage) = t' at hself honly
  generalize hrow : upsertStep now step status errorMessage (t.steps (version, step.id)) = written
    at hself hmatches
  have hstatus : written.status = status := by rw [← hrow]; rfl
  obtain ⟨hversions, heffects, hothers⟩ := honly
  obtain ⟨versionRow, hversionRow, hversionStatus⟩ := hopen
  refine ⟨⟨?_, ?_, ?_, ?_, ?_, ?_⟩, ?_, ?_⟩
  · intro v id row hr
    by_cases ha : (v, id) = (version, step.id)
    · obtain ⟨rfl, rfl⟩ := Prod.mk.inj ha
      obtain rfl := Option.some.inj (hself.symm.trans hr)
      exact ⟨step, hknown, hrequired, rfl, hmatches⟩
    · exact h.origin v id row (hothers _ ha ▸ hr)
  · intro v id row hr
    rw [hversions]
    by_cases ha : (v, id) = (version, step.id)
    · obtain ⟨rfl, rfl⟩ := Prod.mk.inj ha
      simp [hversionRow]
    · exact h.parent v id row (hothers _ ha ▸ hr)
  · intro v row hv hsucceeded id r hr
    rw [hversions] at hv
    have hne : (v, id) ≠ (version, step.id) := by
      intro ha
      obtain ⟨rfl, rfl⟩ := Prod.mk.inj ha
      obtain rfl := Option.some.inj (hversionRow.symm.trans hv)
      exact hversionStatus hsucceeded
    exact h.closed v row hv hsucceeded id r (hothers _ hne ▸ hr)
  · intro hexact a
    rw [heffects]
    exact h.once hexact a
  · intro hexact a ha
    rw [heffects] at ha
    obtain ⟨row, hr, hcheck⟩ := h.ahead hexact a ha
    by_cases hself' : a = (version, step.id)
    · subst hself'
      refine ⟨written, hself, ?_⟩
      rw [matches_executionName hmatches]
      exact (matches_executionName (hpending row hr).1).mp hcheck
    · exact ⟨row, (hothers a hself').trans hr, hcheck⟩
  · intro hexact a row hr hsucceeded hcheck
    rw [heffects]
    by_cases hself' : a = (version, step.id)
    · subst hself'
      obtain rfl := Option.some.inj (hself.symm.trans hr)
      exact heffect (hstatus.symm.trans hsucceeded) hexact
        ((matches_executionName hmatches).mp hcheck)
    · exact h.applied hexact a row (hothers a hself' ▸ hr) hsucceeded hcheck
  · intro a row hr hsucceeded
    have hne : a ≠ (version, step.id) := by
      rintro rfl
      exact (hpending row hr).2 hsucceeded
    exact (hothers a hne).trans hr
  · intro v row hv hsucceeded
    refine ⟨hversions ▸ hv, fun id => hothers _ ?_⟩
    intro ha
    obtain ⟨rfl, rfl⟩ := Prod.mk.inj ha
    obtain rfl := Option.some.inj (hversionRow.symm.trans hv)
    exact hversionStatus hsucceeded

/-- A version row may be written while it is not SUCCEEDED; it may say SUCCEEDED if all step rows
of the version do. -/
theorem change_version (now : ℕ) (name errorMessage : Bytes) (h : Consistent known exact t)
    (hopen : ∀ row, t.versions version = some row → row.status ≠ succeeded)
    (hclosed : status = succeeded → ∀ id row, t.steps (version, id) = some row →
      row.status = succeeded) :
    Consistent known exact (t.change (.version now version name status errorMessage)) ∧
      Progress t (t.change (.version now version name status errorMessage)) := by
  have hself : (t.change (.version now version name status errorMessage)).versions version =
      some (upsertVersion now name status errorMessage (t.versions version)) := by
    simp [Tables.change]
  have hothers : ∀ v ≠ version,
      (t.change (.version now version name status errorMessage)).versions v = t.versions v := by
    intro v hv
    simp [Tables.change, hv]
  refine ⟨⟨h.origin, ?_, ?_, h.once, h.ahead, h.applied⟩, fun a row hr _ => hr, ?_⟩
  · intro v id row hr
    by_cases hv : v = version
    · subst hv
      simp [hself]
    · rw [hothers v hv]
      exact h.parent v id row hr
  · intro v row hrow hsucceeded
    by_cases hv : v = version
    · subst hv
      obtain rfl := Option.some.inj (hself.symm.trans hrow)
      exact hclosed hsucceeded
    · exact h.closed v row (hothers v hv ▸ hrow) hsucceeded
  · intro v row hrow hsucceeded
    have hv : v ≠ version := by
      rintro rfl
      exact hopen row hrow hsucceeded
    exact ⟨(hothers v hv).trans hrow, fun _ => rfl⟩

theorem change_version_open (hstatus : status ≠ succeeded) :
    VersionOpen version (t.change (.version now version name status errorMessage)) := by
  refine ⟨upsertVersion now name status errorMessage (t.versions version), ?_, hstatus⟩
  simp [Tables.change]

/-- An effect may be made once the row of the step is there. -/
theorem change_effect (h : Consistent known exact t)
    (hrecorded : StepRecorded version step status t) (hcheck : step.execution ≠ .check) (heffect : exact → t.effects (version, step.id) = 0) :
    Consistent known exact (t.change (.effect (version, step.id))) ∧
      Progress t (t.change (.effect (version, step.id))) := by
  obtain ⟨row, hrow, hmatches, _⟩ := hrecorded
  have hself : (t.change (.effect (version, step.id))).effects (version, step.id) =
      t.effects (version, step.id) + 1 := by simp [Tables.change]
  have hothers : ∀ a ≠ (version, step.id),
      (t.change (.effect (version, step.id))).effects a = t.effects a := by
    intro a ha
    simp [Tables.change, ha]
  refine ⟨⟨h.origin, h.parent, h.closed, ?_, ?_, ?_⟩, fun a row hr _ => hr,
    fun v row hv _ => ⟨hv, fun _ => rfl⟩⟩
  · intro hexact a
    by_cases ha : a = (version, step.id)
    · have hnone : t.effects (version, step.id) = 0 := heffect hexact
      rw [ha, hself]
      omega
    · rw [hothers a ha]
      exact h.once hexact a
  · intro hexact a hne
    by_cases ha : a = (version, step.id)
    · exact ⟨row, ha ▸ hrow, (matches_executionName hmatches).mpr hcheck⟩
    · rw [hothers a ha] at hne
      exact h.ahead hexact a hne
  · intro hexact a r hr hsucceeded hr'
    by_cases ha : a = (version, step.id)
    · subst ha
      rw [hself]
      exact Nat.succ_ne_zero _
    · rw [hothers a ha]
      exact h.applied hexact a r hr hsucceeded hr'

end Changes

/-! ## What the work of a step leaves -/

section Steps

variable {definition : MigrationDefinition} {t₀ : Tables} {doneSteps : List MigrationStep}
  {versionWasComplete : Bool}

/-- The rows of both tables are the same. -/
structure SameRows (t t' : Tables) : Prop where
  versions : t'.versions = t.versions
  steps : t'.steps = t.steps

theorem sameRows_refl : SameRows t t := ⟨rfl, rfl⟩

theorem sameRows_effect {a : Address} : SameRows t (t.change (.effect a)) := ⟨rfl, rfl⟩

/-- The row of a step has been written and says `status`. -/
structure StepWritten (version : ℕ) (step : MigrationStep) (status : Bytes) (t t' : Tables) :
    Prop where
  recorded : StepRecorded version step status t'
  versions : t'.versions = t.versions
  steps : ∀ b ≠ (version, step.id), t'.steps b = t.steps b

/-- What allows the row of a step to be written. -/
structure StepWritable (known : ℕ → MigrationStep → Prop) (version : ℕ) (step : MigrationStep)
    (t : Tables) : Prop where
  opened : VersionOpen version t
  known : known version step
  required : step.Required
  pending : StepPending version step t

theorem StepWritten.writable {status : Bytes} (h : StepWritten version step status t t')
    (hw : StepWritable known version step t) (hstatus : status ≠ succeeded) :
    StepWritable known version step t' where
  opened := by
    unfold VersionOpen
    rw [h.versions]
    exact hw.opened
  known := hw.known
  required := hw.required
  pending row hrow := by
    obtain ⟨row', hrow', hmatches, hstatus'⟩ := h.recorded
    obtain rfl := Option.some.inj (hrow'.symm.trans hrow)
    exact ⟨hmatches, hstatus'.symm ▸ hstatus⟩

theorem SameRows.writable (h : SameRows t t') (hw : StepWritable known version step t) :
    StepWritable known version step t' where
  opened := by
    unfold VersionOpen
    rw [h.versions]
    exact hw.opened
  known := hw.known
  required := hw.required
  pending row hrow := hw.pending row (h.steps ▸ hrow)

/-- A row that was written with a status that is not final may be written again, whatever effects
have been made in between. -/
theorem StepWritten.again {t₁ t₂ : Tables} {status' : Bytes}
    (h : StepWritten version step status t t₁) (hstatus : status ≠ succeeded)
    (hsame : SameRows t₁ t₂) :
    StepWritten version step status' t
      (t₂.change (.step now version step status' errorMessage)) := by
  have hpending : StepPending version step t₂ := by
    intro row hrow
    obtain ⟨row', hrow', hmatches, hstatus'⟩ := h.recorded
    rw [hsame.steps] at hrow
    obtain rfl := Option.some.inj (hrow'.symm.trans hrow)
    exact ⟨hmatches, hstatus'.symm ▸ hstatus⟩
  refine ⟨change_step_recorded hpending, hsame.versions.trans h.versions, ?_⟩
  intro b hb
  rw [← h.steps b hb, ← congrFun hsame.steps b]
  exact change_step_onlyStep.steps b hb

/-- Where the loop stands: the required steps that are done are recorded as SUCCEEDED, and no other
row has moved since the rows were read. -/
structure StepLoop (definition : MigrationDefinition) (versionWasComplete : Bool) (t₀ : Tables)
    (doneSteps : List MigrationStep) (t : Tables) : Prop where
  opened : versionWasComplete = false → VersionOpen definition.version t
  done : ∀ s ∈ doneSteps, s.Required → StepRecorded definition.version s succeeded t
  todo : ∀ id, (∀ s ∈ doneSteps, s.Required → s.id ≠ id) →
    t.steps (definition.version, id) = t₀.steps (definition.version, id)
  others : ∀ a, a.1 ≠ definition.version → t.steps a = t₀.steps a

theorem StepLoop.skip (h : StepLoop definition versionWasComplete t₀ doneSteps t)
    (hstep : step.Required → StepRecorded definition.version step succeeded t) :
    StepLoop definition versionWasComplete t₀ (doneSteps ++ [step]) t where
  opened := h.opened
  done s hs hrequired := by
    rcases List.mem_append.mp hs with hold | hlast
    · exact h.done s hold hrequired
    · obtain rfl := List.mem_singleton.mp hlast
      exact hstep hrequired
  todo id hid := h.todo id fun s hs => hid s (List.mem_append_left _ hs)
  others := h.others

theorem StepLoop.written (h : StepLoop definition versionWasComplete t₀ doneSteps t)
    (hrequired : step.Required) (hfresh : ∀ s ∈ doneSteps, s.id ≠ step.id)
    (hw : StepWritten definition.version step succeeded t t') :
    StepLoop definition versionWasComplete t₀ (doneSteps ++ [step]) t' where
  opened hopen := by
    unfold VersionOpen
    rw [hw.versions]
    exact h.opened hopen
  done s hs hs' := by
    rcases List.mem_append.mp hs with hold | hlast
    · obtain ⟨row, hrow, hrecorded⟩ := h.done s hold hs'
      refine ⟨row, ?_, hrecorded⟩
      rw [hw.steps _ (by simp [hfresh s hold]), hrow]
    · obtain rfl := List.mem_singleton.mp hlast
      exact hw.recorded
  todo id hid := by
    have hne : step.id ≠ id := hid step (by simp) hrequired
    rw [hw.steps _ (by simp [hne.symm])]
    exact h.todo id fun s hs => hid s (List.mem_append_left _ hs)
  others a ha := by
    rw [hw.steps a fun heq => ha (by rw [heq])]
    exact h.others a ha

end Steps

section Reads

variable {definition : MigrationDefinition} {report : MigrationReport}
  {recordedSteps : RecordedSteps} {versionWasComplete : Bool}

/-! ## What truthful reads establish -/

/-- The rows of the version, all of which the definition knows. -/
structure Reconciled (definition : MigrationDefinition) (recordedSteps : RecordedSteps)
    (t : Tables) : Prop where
  lookup : ∀ id, recordedSteps.lookup id =
    (t.steps (definition.version, id)).map StepRow.toRecordedStep
  current : ∀ id row, t.steps (definition.version, id) = some row →
    ∃ step, currentStep definition id = some step ∧ row.Matches step

/-- The map from ids to steps holds every step of the definition. -/
theorem currentStep_of_mem (hids : definition.steps.Pairwise fun s t => s.id < t.id)
    (hstep : step ∈ definition.steps) : currentStep definition step.id = some step := by
  unfold currentStep
  have hfound : (definition.steps.find? fun s => decide (s.id = step.id)).isSome = true :=
    List.find?_isSome.mpr ⟨step, hstep, by simp⟩
  obtain ⟨current, hcurrent⟩ := Option.isSome_iff_exists.mp hfound
  have hid : current.id = step.id := by simpa using List.find?_some hcurrent
  rw [hcurrent, ids_unique hids (List.mem_of_find?_eq_some hcurrent) hstep hid]

theorem Reconciled.row_matches (hread : Reconciled definition recordedSteps t)
    (hids : definition.steps.Pairwise fun s t => s.id < t.id) (hstep : step ∈ definition.steps) :
    ∀ row, t.steps (definition.version, step.id) = some row → row.Matches step := by
  intro row hrow
  obtain ⟨current, hcurrent, hmatches⟩ := hread.current step.id row hrow
  have hid : current.id = step.id := by simpa using List.find?_some hcurrent
  obtain rfl := ids_unique hids (List.mem_of_find?_eq_some hcurrent) hstep hid
  exact hmatches

/-- A version's row that is accepted has the definition's name, and was complete if it says so. -/
theorem readVersionState_truthful {response : SqlResponse}
    (htruthful : Truthful exact t (.execute (.versionState definition.version)) response)
    (hread : readVersionState definition report response.rows = .ok versionWasComplete) :
    (∀ row, t.versions definition.version = some row →
      row.name = definition.name ∧ (versionWasComplete = true ↔ row.status = succeeded)) ∧
    (t.versions definition.version = none → versionWasComplete = false) := by
  have hrows : response.rows = ((t.versions definition.version).map
    fun row => [some row.name, some row.status]).toList := htruthful
  rw [hrows] at hread
  cases hrow : t.versions definition.version with
  | none =>
      rw [hrow] at hread
      cases hread
      simp
  | some row =>
      rw [hrow] at hread
      by_cases hname : row.name = definition.name
      · simp only [Option.map_some, Option.toList_some, readVersionState, hname, ne_eq,
          not_true_eq_false, if_false, Except.ok.injEq] at hread
        subst hread
        simp [hname]
      · simp [readVersionState, hname] at hread

theorem readRecordedSteps_truthful {response : SqlResponse}
    (htruthful : Truthful exact t (.execute (.recordedSteps definition.version)) response)
    (hread : readRecordedSteps definition report [] response.rows = .ok recordedSteps) :
    Reconciled definition recordedSteps t := by
  have hrows : ∀ r, r ∈ response.rows ↔ ∃ id row,
      t.steps (definition.version, id) = some row ∧ r = row.toRecordedStep.row id := htruthful
  refine ⟨fun id => ?_, fun id row hrow => ?_⟩
  · cases hlookup : recordedSteps.lookup id with
    | some recorded =>
        rcases (readRecordedSteps_lookup hread).mp hlookup with hnil | ⟨_, hrow⟩
        · cases hnil
        obtain ⟨id', row, hstored, heq⟩ := (hrows _).mp (List.mem_of_find?_eq_some hrow)
        obtain ⟨rfl, rfl⟩ := RecordedStep.row_inj heq
        rw [hstored]
        rfl
    | none =>
        have hnone := readRecordedSteps_lookup_none hread hlookup
        cases hstored : t.steps (definition.version, id) with
        | none => rfl
        | some row =>
            have hskipped := List.find?_eq_none.mp hnone _ ((hrows _).mpr ⟨id, row, hstored, rfl⟩)
            simp [RecordedStep.row] at hskipped
  · obtain ⟨id', recorded, step, heq, hcurrent, hmatches⟩ :=
      readRecordedSteps_matches hread ((hrows _).mpr ⟨id, row, hrow, rfl⟩)
    obtain ⟨rfl, rfl⟩ := RecordedStep.row_inj heq
    exact ⟨step, hcurrent, hmatches⟩

end Reads

end Warehouse.Mysql.Migration
