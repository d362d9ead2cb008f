/-
# Warehouse.Mysql.Migration.ClientView — one starter that holds the lock

The runner over the view of a single client of the server in `Database`: the rules for its
statements, and the walk through the work of one step.  Every lemma says what a piece of the runner
leaves behind if it gets through, and that each statement on the way keeps the tables consistent
whatever becomes of it.

The walk never follows a lost connection: from there on everything is refused, and no
postcondition below asks for more than that the connection is gone.
-/
import Warehouse.Mysql.Migration.Gate
import Warehouse.Mysql.Migration.Ledger

namespace Warehouse.Mysql.Migration

open Warehouse.Interaction Warehouse.Interaction.Program

section Walk

variable (known : ℕ → MigrationStep → Prop) (exact : Prop)

/-- What a client sees of the database. -/
abbrev ClientView : Type := View Tables Session

/-- `wp` for one client of the server. -/
abbrev wpc {α : Type} (Q : α → ClientView → Prop) (p : SqlProgram MigrationStatement α)
    (v : ClientView) : Prop :=
  p.wp ((migrationServer exact).toView (Consistent known exact) Progress)
    ((migrationServer exact).discipline (Consistent known exact) Progress) Q v

/-- The same for code that may leave early. -/
abbrev wpcx {α : Type} (Q : α → ClientView → Prop) (X : MigrationReport → ClientView → Prop)
    (p : Runner α) (v : ClientView) : Prop :=
  wpx ((migrationServer exact).toView (Consistent known exact) Progress)
    ((migrationServer exact).discipline (Consistent known exact) Progress) Q X p v

/-- The connection is gone, or the lock is held over consistent tables that satisfy `P`, with no
transaction open. -/
def Within (P : Tables → Prop) (v : ClientView) : Prop :=
  v.hold = .gone ∨ ∃ t, v = ⟨.holding, t, none⟩ ∧ Consistent known exact t ∧ P t

/-- Inside the lock with tables `t` and no transaction. -/
abbrev inside (t : Tables) : ClientView := ⟨.holding, t, none⟩

variable {known exact} {α : Type} {Q : α → ClientView → Prop} {P : Tables → Prop} {t t' : Tables}
  {version : ℕ} {step : MigrationStep} {definition : MigrationDefinition}
  {report : MigrationReport}

theorem within_gone {v : ClientView} (h : v.hold = .gone) : Within known exact P v := Or.inl h

theorem within_inside (h : Consistent known exact t) (hP : P t) :
    Within known exact P (inside t) :=
  Or.inr ⟨t, rfl, h, hP⟩

/-! ## Rules for statements -/

/-- A statement outside a transaction leaves the tables, or moves them to `moved now`; an error
says nothing about which. -/
theorem wpc_statement {statement : MigrationStatement} (moved : ℕ → Tables)
    {next : SqlResult → SqlProgram MigrationStatement α}
    (hrole : (migrationServer exact).role (.execute statement) = .work)
    (hmoved : ∀ now, performs now statement (t, none) = (moved now, none))
    (hQ : ∀ a v, v.hold = .gone → Q a v) (hcons : Consistent known exact t)
    (hsound : ∀ now, Consistent known exact (moved now) ∧ Progress t (moved now))
    (herror : ∀ e, ∀ t', Consistent known exact t' → (t' = t ∨ ∃ now, t' = moved now) →
      wpc known exact Q (next (.error e)) (inside t'))
    (hok : ∀ response now, Truthful exact t (.execute statement) response →
      wpc known exact Q (next (.ok response)) (inside (moved now))) :
    wpc known exact Q (.call (.execute statement) next) (inside t) := by
  refine wp_work hrole (fun answer _ => wp_gone rfl fun a => hQ a _ rfl) ?_
  rintro (e | response) d s hserve
  · obtain ⟨_, hsame | ⟨now, hexecuted⟩ | hrolled⟩ := hserve
    · obtain ⟨rfl, rfl⟩ := Prod.mk.inj hsame
      exact ⟨hcons, refl_of Progress d, herror e d hcons (Or.inl rfl)⟩
    · obtain ⟨rfl, rfl⟩ := Prod.mk.inj (hexecuted.trans (hmoved now))
      obtain ⟨hcons', hprogress⟩ := hsound now
      exact ⟨hcons', hprogress, herror e _ hcons' (Or.inr ⟨now, rfl⟩)⟩
    · obtain ⟨rfl, rfl⟩ := Prod.mk.inj hrolled
      exact ⟨hcons, refl_of Progress d, herror e d hcons (Or.inl rfl)⟩
  · obtain ⟨⟨now, hexecuted⟩, htruthful⟩ := hserve
    obtain ⟨rfl, rfl⟩ := Prod.mk.inj (hexecuted.trans (hmoved now))
    obtain ⟨hcons', hprogress⟩ := hsound now
    exact ⟨hcons', hprogress, hok response now htruthful⟩

/-- A statement that only reads. -/
theorem wpc_read {statement : MigrationStatement}
    {next : SqlResult → SqlProgram MigrationStatement α}
    (hrole : (migrationServer exact).role (.execute statement) = .work)
    (hsame : ∀ now, performs now statement (t, none) = (t, none))
    (hQ : ∀ a v, v.hold = .gone → Q a v) (hcons : Consistent known exact t)
    (herror : ∀ e, ¬ (exact ∧ IsVerify (.execute statement)) →
      wpc known exact Q (next (.error e)) (inside t))
    (hok : ∀ response, Truthful exact t (.execute statement) response →
      wpc known exact Q (next (.ok response)) (inside t)) :
    wpc known exact Q (.call (.execute statement) next) (inside t) := by
  refine wp_work hrole (fun answer _ => wp_gone rfl fun a => hQ a _ rfl) ?_
  rintro (e | response) d s hserve
  · obtain ⟨hverify, hkept⟩ := hserve
    have hstay : (d, s) = (t, none) := by
      rcases hkept with h | ⟨now, h⟩ | h
      · exact h
      · exact h.trans (hsame now)
      · exact h
    obtain ⟨rfl, rfl⟩ := Prod.mk.inj hstay
    exact ⟨hcons, refl_of Progress d, herror e hverify⟩
  · obtain ⟨⟨now, hexecuted⟩, htruthful⟩ := hserve
    obtain ⟨rfl, rfl⟩ := Prod.mk.inj (hexecuted.trans (hsame now))
    exact ⟨hcons, refl_of Progress d, hok response htruthful⟩

/-! ## The transaction of a step -/

/-- Control statements inside the lock: the tables afterwards are those before or those seen. -/
theorem wpc_control {statement : TxControl} {session : Session}
    {next : SqlResult → SqlProgram MigrationStatement α}
    (hQ : ∀ a v, v.hold = .gone → Q a v)
    (hcons : Consistent known exact t)
    (hseen : Consistent known exact (seen (t, session)) ∧ Progress t (seen (t, session)))
    (herror : ∀ e v, wpc known exact Q (next (.error e)) v)
    (hok : ∀ response, wpc known exact Q (next (.ok response))
      ⟨.holding, (controls statement (t, session)).1, (controls statement (t, session)).2⟩) :
    wpc known exact Q (.call (.control statement) next) ⟨.holding, t, session⟩ := by
  have hsound : Consistent known exact (controls statement (t, session)).1 ∧
      Progress t (controls statement (t, session)).1 := by
    cases statement with
    | setIsolation => exact ⟨hcons, refl_of Progress t⟩
    | start => exact hseen
    | commit => exact hseen
    | rollback => exact ⟨hcons, refl_of Progress t⟩
  refine wp_work rfl (fun answer _ => wp_gone rfl fun a => hQ a _ rfl) ?_
  rintro (e | response) d s hserve
  · have hstate : Consistent known exact d ∧ Progress t d := by
      obtain ⟨_, h | ⟨now, h⟩ | h⟩ := hserve
      · obtain ⟨rfl, rfl⟩ := Prod.mk.inj h
        exact ⟨hcons, refl_of Progress d⟩
      · obtain ⟨rfl, rfl⟩ := Prod.mk.inj h
        exact hsound
      · obtain ⟨rfl, rfl⟩ := Prod.mk.inj h
        exact ⟨hcons, refl_of Progress d⟩
    exact ⟨hstate.1, hstate.2, herror e _⟩
  · obtain ⟨⟨now, h⟩, _⟩ := hserve
    obtain ⟨rfl, rfl⟩ := Prod.mk.inj h
    exact ⟨hsound.1, hsound.2, hok response⟩

/-- Poisoning ends what the client can do. -/
theorem wpc_poison {next : Unit → SqlProgram MigrationStatement α} {v : ClientView}
    (hQ : ∀ a v, v.hold = .gone → Q a v) : wpc known exact Q (.call .poison next) v :=
  wp_hangUp rfl hQ

theorem begin_view (mode : WorkUnitMode) (hcons : Consistent known exact t) :
    wpc known exact
      (fun r v => v.hold = .gone ∨ (r = .ok .opened ∧ v = ⟨.holding, t, some []⟩))
      (Transaction.begin mode) (inside t) := by
  have hstay : Consistent known exact (seen (t, none)) ∧ Progress t (seen (t, none)) :=
    ⟨hcons, refl_of Progress t⟩
  refine wpc_control (fun a v hv => Or.inl hv) hcons hstay (fun e v => ?_) fun response => ?_
  · exact wpc_poison fun a v hv => Or.inl hv
  refine wpc_control (fun a v hv => Or.inl hv) hcons hstay (fun e v => ?_) fun response => ?_
  · exact wpc_poison fun a v hv => Or.inl hv
  · exact Or.inr ⟨rfl, rfl⟩

/-- What follows a failed statement inside the transaction: the tables are as before. -/
theorem abandon_view {a : α} {session : Session} (hQ : ∀ a v, v.hold = .gone → Q a v)
    (hcons : Consistent known exact t)
    (hseen : Consistent known exact (seen (t, session)) ∧ Progress t (seen (t, session)))
    (hleft : Q a (inside t)) :
    wpc known exact Q
      (do
        let transaction ← Transaction.opened.rollback
        transaction.destroy
        return a) ⟨.holding, t, session⟩ := by
  refine wpc_control hQ hcons hseen (fun e v => ?_) fun response => ?_
  · exact wpc_poison hQ
  · exact hleft

/-- The verify SQL, which changes nothing: with an exact one both verdicts say whether the effect
is there. -/
theorem verifyStep_view {session : Session} {Q : Except Bytes Unit → ClientView → Prop}
    (hQ : ∀ r v, v.hold = .gone → Q r v) (hcons : Consistent known exact t)
    (herror : ∀ e s, s = session ∨ s = none →
      (exact → step.execution ≠ .check → (seen (t, session)).effects (version, step.id) = 0) →
        Q (.error e) ⟨.holding, t, s⟩)
    (hok : (exact → step.execution ≠ .check → (seen (t, session)).effects (version, step.id) ≠ 0) →
      Q (.ok ()) ⟨.holding, t, session⟩) :
    wpc known exact Q (verifyStep version step) ⟨.holding, t, session⟩ := by
  have hrefl : Progress t t := refl_of Progress t
  refine wp_work rfl (fun answer _ => hQ _ _ rfl) ?_
  rintro (e | verified) d s hserve
  · obtain ⟨hnot, hkept⟩ := hserve
    have hunverified : exact → step.execution ≠ .check →
        (seen (t, session)).effects (version, step.id) = 0 := fun hexact hcheck =>
      absurd ⟨hexact, version, step, rfl, hcheck⟩ hnot
    rcases hkept with h | ⟨now, h⟩ | h
    all_goals obtain ⟨rfl, rfl⟩ := Prod.mk.inj h
    · exact ⟨hcons, hrefl, herror _ _ (Or.inl rfl) hunverified⟩
    · exact ⟨hcons, hrefl, herror _ _ (Or.inl rfl) hunverified⟩
    · exact ⟨hcons, hrefl, herror _ _ (Or.inr rfl) hunverified⟩
  · obtain ⟨⟨now, h⟩, htruthful⟩ := hserve
    obtain ⟨rfl, rfl⟩ := Prod.mk.inj h
    refine ⟨hcons, hrefl, ?_⟩
    change Q (verdict (.ok verified)) ⟨.holding, _, _⟩
    by_cases htrue : truthy verified = true
    · rw [show verdict (.ok verified) = .ok () by simp [verdict, htrue]]
      exact hok fun hexact hcheck => (htruthful hexact hcheck).mp htrue
    · rw [show verdict (.ok verified) = .error (lit "verification did not confirm the target state")
        by simp [verdict, htrue]]
      refine herror _ _ (Or.inl rfl) fun hexact hcheck => ?_
      by_contra hne
      exact htrue ((htruthful hexact hcheck).mpr hne)

/-- What carrying out a step comes to: no row has moved, and success means that the effect is
there. -/
def StepCarried (exact : Prop) (version : ℕ) (step : MigrationStep) (t : Tables)
    (r : Except Bytes Unit) (t' : Tables) : Prop :=
  SameRows t t' ∧ (r = .ok () → exact → step.execution ≠ .check →
    t'.effects (version, step.id) ≠ 0)

theorem applyTransactional_view {status : Bytes} (hcons : Consistent known exact t)
    (hrecorded : StepRecorded version step status t)
    (hdml : step.execution = .transactionalDml)
    (heffect : exact → t.effects (version, step.id) = 0) :
    wpc known exact (fun r v => Within known exact (StepCarried exact version step t r) v)
      (applyTransactional version step) (inside t) := by
  have hcheck : step.execution ≠ .check := by simp [hdml]
  have hgone : ∀ (r : Except Bytes Unit) (v : ClientView), v.hold = .gone →
      Within known exact (StepCarried exact version step t r) v := fun r v hv => within_gone hv
  have hstay : Consistent known exact t ∧ Progress t t := ⟨hcons, refl_of Progress t⟩
  have happlied := change_effect hcons hrecorded hcheck heffect
  have hleft : ∀ e, Within known exact (StepCarried exact version step t (.error e)) (inside t) :=
    fun e => within_inside hcons ⟨sameRows_refl, fun h => by cases h⟩
  refine (wp_bind _ _ _).mpr (wp_post (begin_view .command hcons) ?_)
  rintro r v (hv | ⟨rfl, rfl⟩)
  · exact wp_gone hv fun a => hgone a v hv
  refine wp_work rfl (fun answer _ => wp_gone rfl fun a => hgone a _ rfl) ?_
  have hperform : ∀ now, performs now (.apply version step) (t, some []) =
      (t, some [.effect (version, step.id)]) := by
    intro now
    simp [performs, hdml, record]
  rintro (e | response) d s hserve
  · -- the effect may be pending, or the server has dropped the transaction
    obtain ⟨_, h | ⟨now, h⟩ | h⟩ := hserve
    · obtain ⟨rfl, rfl⟩ := Prod.mk.inj h
      exact ⟨hcons, hstay.2, abandon_view hgone hcons hstay (hleft _)⟩
    · obtain ⟨rfl, rfl⟩ := Prod.mk.inj (h.trans (hperform now))
      exact ⟨hcons, hstay.2, abandon_view hgone hcons happlied (hleft _)⟩
    · obtain ⟨rfl, rfl⟩ := Prod.mk.inj h
      exact ⟨hcons, hstay.2, abandon_view hgone hcons hstay (hleft _)⟩
  obtain ⟨⟨now, h⟩, _⟩ := hserve
  obtain ⟨rfl, rfl⟩ := Prod.mk.inj (h.trans (hperform now))
  refine ⟨hcons, hstay.2, (wp_bind (verifyStep version step) _ _).mpr ?_⟩
  refine verifyStep_view ?_ hcons ?_ ?_
  · exact fun r v hv => wp_gone hv fun a => hgone a v hv
  · rintro e s (rfl | rfl) _
    · exact abandon_view hgone hcons happlied (hleft _)
    · exact abandon_view hgone hcons hstay (hleft _)
  · intro _
    refine wpc_control (fun a v hv => hgone a v hv) hcons happlied (fun e v => ?_) fun committed => ?_
    · exact wpc_poison fun a v hv => hgone a v hv
    · refine within_inside happlied.1 ⟨sameRows_effect, fun _ _ _ => ?_⟩
      simp [controls, seen, Tables.change]

theorem applyStep_view {status : Bytes} (hcons : Consistent known exact t)
    (hrecorded : StepRecorded version step status t)
    (heffect : exact → step.execution ≠ .check → t.effects (version, step.id) = 0) :
    wpc known exact (fun r v => Within known exact (StepCarried exact version step t r) v)
      (applyStep version step) (inside t) := by
  have hgone : ∀ (r : Except Bytes Unit) (v : ClientView), v.hold = .gone →
      Within known exact (StepCarried exact version step t r) v := fun r v hv => within_gone hv
  unfold applyStep
  cases hexec : step.execution with
  | transactionalDml =>
      exact applyTransactional_view hcons hrecorded hexec fun h => heffect h (by simp [hexec])
  | atomicDdl =>
      have hcheck : step.execution ≠ .check := by simp [hexec]
      have happlied := change_effect hcons hrecorded hcheck fun h => heffect h hcheck
      have hmade : (t.change (.effect (version, step.id))).effects (version, step.id) ≠ 0 := by
        simp [Tables.change]
      refine wpc_statement (fun _ => t.change (.effect (version, step.id))) rfl ?_ hgone
        hcons (fun _ => happlied) ?_ ?_
      · intro now
        simp [performs, hexec, seen]
      · rintro e t' hcons' (rfl | ⟨now, rfl⟩)
        · exact within_inside hcons' ⟨sameRows_refl, fun h => by cases h⟩
        · exact within_inside hcons' ⟨sameRows_effect, fun h => by cases h⟩
      · intro response now _
        refine verifyStep_view hgone happlied.1 ?_ ?_
        · rintro e s (rfl | rfl) _
          · exact within_inside happlied.1 ⟨sameRows_effect, fun h => by cases h⟩
          · exact within_inside happlied.1 ⟨sameRows_effect, fun h => by cases h⟩
        · exact fun _ => within_inside happlied.1 ⟨sameRows_effect, fun _ _ _ => hmade⟩
  | check =>
      refine verifyStep_view hgone hcons ?_ ?_
      · rintro e s (rfl | rfl) _
        · exact within_inside hcons ⟨sameRows_refl, fun h => by cases h⟩
        · exact within_inside hcons ⟨sameRows_refl, fun h => by cases h⟩
      · exact fun _ => within_inside hcons ⟨sameRows_refl, fun _ _ hcheck => absurd hexec hcheck⟩

/-! ## The records of a step -/

theorem stepStatus_view {status errorMessage : Bytes}
    {next : SqlResult → SqlProgram MigrationStatement α}
    (hQ : ∀ a v, v.hold = .gone → Q a v) (hcons : Consistent known exact t)
    (hw : StepWritable known version step t)
    (heffect : status = succeeded → exact → step.execution ≠ .check →
      t.effects (version, step.id) ≠ 0)
    (herror : ∀ e t', Consistent known exact t' →
      t' = t ∨ (StepWritten version step status t t' ∧ t'.effects = t.effects) →
      wpc known exact Q (next (.error e)) (inside t'))
    (hok : ∀ response t', Consistent known exact t' → StepWritten version step status t t' →
      t'.effects = t.effects → wpc known exact Q (next (.ok response)) (inside t')) :
    wpc known exact Q (.call (.execute (.stepStatus version step status errorMessage)) next)
      (inside t) := by
  have hsound := fun now => change_step now errorMessage hcons hw.opened hw.known hw.required
    hw.pending heffect
  have hwritten : ∀ now, StepWritten version step status t
      (t.change (.step now version step status errorMessage)) := fun now =>
    ⟨change_step_recorded hw.pending, rfl, change_step_onlyStep.steps⟩
  refine wpc_statement (fun now => t.change (.step now version step status errorMessage)) rfl
    (fun _ => rfl) hQ hcons hsound ?_ ?_
  · rintro e t' hcons' (rfl | ⟨now, rfl⟩)
    · exact herror e _ hcons' (Or.inl rfl)
    · exact herror e _ hcons' (Or.inr ⟨hwritten now, rfl⟩)
  · intro response now _
    exact hok response _ (hsound now).1 (hwritten now) rfl

theorem versionStatus_view {status errorMessage : Bytes}
    {next : SqlResult → SqlProgram MigrationStatement α}
    (hQ : ∀ a v, v.hold = .gone → Q a v) (hcons : Consistent known exact t)
    (hopen : ∀ row, t.versions definition.version = some row → row.status ≠ succeeded)
    (hclosed : status = succeeded → ∀ id row, t.steps (definition.version, id) = some row →
      row.status = succeeded)
    (herror : ∀ e t', Consistent known exact t' →
      wpc known exact Q (next (.error e)) (inside t'))
    (hok : ∀ response t', Consistent known exact t' → t'.steps = t.steps →
      (status ≠ succeeded → VersionOpen definition.version t') →
      wpc known exact Q (next (.ok response)) (inside t')) :
    wpc known exact Q (.call (.execute
      (.versionStatus definition.version definition.name status errorMessage)) next)
      (inside t) := by
  have hsound := fun now => change_version now definition.name errorMessage hcons hopen hclosed
  refine wpc_statement
    (fun now => t.change (.version now definition.version definition.name status errorMessage))
    rfl (fun _ => rfl) hQ hcons hsound ?_ ?_
  · rintro e t' hcons' -
    exact herror e _ hcons'
  · intro response now _
    exact hok response _ (hsound now).1 rfl change_version_open

theorem recordFailure_view {stepError : Bytes} (hcons : Consistent known exact t)
    (hw : StepWritable known definition.version step t) :
    wpc known exact (fun _ v => Within known exact (fun _ => True) v)
      (recordFailure definition report step stepError) (inside t) := by
  have hgone : ∀ (r : MigrationReport) (v : ClientView), v.hold = .gone →
      Within known exact (fun _ => True) v := fun _ v hv => within_gone hv
  refine stepStatus_view hgone hcons hw (fun h => absurd h failedStatus_ne_succeeded) ?_ ?_
  · intro e t' _ _
    exact wpc_poison hgone
  · intro response t' hcons' hwritten _
    obtain ⟨row, hrow, hopen⟩ := (hwritten.writable hw failedStatus_ne_succeeded).opened
    refine versionStatus_view hgone hcons' ?_ (fun h => absurd h failedStatus_ne_succeeded) ?_ ?_
    · intro row' hrow'
      obtain rfl := Option.some.inj (hrow.symm.trans hrow')
      exact hopen
    · intro e t'' _
      exact wpc_poison hgone
    · intro response t'' hcons'' _ _
      exact within_inside hcons'' trivial

theorem performStep_view (hcons : Consistent known exact t)
    (hw : StepWritable known definition.version step t)
    (heffect : exact → step.execution ≠ .check → t.effects (definition.version, step.id) = 0) :
    wpcx known exact
      (fun _ v => Within known exact (StepWritten definition.version step succeeded t) v)
      (fun _ v => Within known exact (fun _ => True) v) (performStep definition report step)
      (inside t) := by
  refine stepStatus_view ?_ hcons hw (fun h => absurd h running_ne_succeeded) ?_ ?_
  · rintro (e | r) v hv <;> exact within_gone hv
  · intro e t' hcons' _
    exact within_inside hcons' trivial
  intro response t₁ hcons₁ hwritten heffects
  have hw₁ := hwritten.writable hw running_ne_succeeded
  refine (wpx_bind _ _ _).mpr ((wpx_lift _ _).mpr
    (wp_post (applyStep_view hcons₁ hwritten.recorded (by rwa [heffects])) ?_))
  rintro r v (hv | ⟨t₂, rfl, hcons₂, hsame, hmade⟩)
  · exact wpx_gone hv (fun _ => within_gone hv) fun _ => within_gone hv
  have hw₂ := hsame.writable hw₁
  rcases r with stepError | ⟨⟩
  · refine (wpx_bind _ _ _).mpr ((wpx_lift _ _).mpr (wp_post (recordFailure_view hcons₂ hw₂) ?_))
    intro r v hv
    exact hv
  · refine stepStatus_view ?_ hcons₂ hw₂ (fun _ => hmade rfl) ?_ ?_
    · rintro (e | r) v hv <;> exact within_gone hv
    · intro e t₃ _ _
      refine wpc_poison ?_
      rintro (e | r) v hv <;> exact within_gone hv
    · intro response t₃ hcons₃ hwritten₃ _
      refine within_inside hcons₃ ⟨hwritten₃.recorded, ?_, ?_⟩
      · rw [hwritten₃.versions, hsame.versions, hwritten.versions]
      · intro b hb
        rw [hwritten₃.steps b hb, hsame.steps, hwritten.steps b hb]

theorem recoverStep_view (hcons : Consistent known exact t)
    (hw : StepWritable known definition.version step t) :
    wpcx known exact
      (fun _ v => Within known exact (StepWritten definition.version step succeeded t) v)
      (fun _ v => Within known exact (fun _ => True) v) (recoverStep definition report step)
      (inside t) := by
  refine (wpx_bind _ _ _).mpr ((wpx_lift _ _).mpr (verifyStep_view ?_ hcons ?_ ?_))
  · intro r v hv
    exact wpx_gone hv (fun _ => within_gone hv) fun _ => within_gone hv
  · rintro e s (rfl | rfl) hunverified
    · exact performStep_view hcons hw hunverified
    · exact performStep_view hcons hw hunverified
  · intro hverified
    refine stepStatus_view ?_ hcons hw (fun _ => hverified) ?_ ?_
    · rintro (e | r) v hv <;> exact within_gone hv
    · intro e t' hcons' _
      exact within_inside hcons' trivial
    · intro response t' hcons' hwritten _
      exact within_inside hcons' hwritten

end Walk

end Warehouse.Mysql.Migration
