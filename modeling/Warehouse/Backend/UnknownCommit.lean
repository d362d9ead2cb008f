/-
# Warehouse.Backend.UnknownCommit — what a failed `createGoods` or `takeGoods` says about the rows

`Transaction::commit` knows that a `COMMIT` without an answer may have been performed, and says so
by `CommitOutcomeUnknown`.  The use cases drop that code: they fail as they fail when nothing was
kept.  The theorem of this module says in exactly which runs that failure stands beside a row that
was created or taken: those in which everything up to the `COMMIT` succeeds, and only the answer to
it is lost.
-/
import Warehouse.Api.GoodsNumber
import Warehouse.Backend.LegacyTables
import Warehouse.Backend.Service
import Warehouse.Mysql.ScriptedSession

namespace Warehouse.Backend

open Warehouse.Interaction Warehouse.Mysql Warehouse.Mysql.LoneSession

variable {dialect : Dialect} {script : ℕ → StatementOutcome}

/-- The session of a request, after so many statements. -/
abbrev GoodsSession : Type := Scripted LegacyStatement LegacyKey LegacyRecord

/-- The goods that are committed. -/
def committed (d : GoodsSession) : ℤ → Option GoodsRow := LegacyRows.goods d.store.rows

/-- The goods that the open transaction sees. -/
def seen (d : GoodsSession) : ℤ → Option GoodsRow := LegacyRows.goods d.view

/-! ## The repositories, by the script -/

section Repositories

variable {d : GoodsSession}

/-- A row is read back as it is seen. -/
theorem follows_findById {number : ℕ} (hnumber : number ≤ int64Max) (hactive : d.active = true) :
    Follows (legacyMeaning dialect) script (fun found after => after.sent = d.sent + 1 ∧
      committed after = committed d ∧
      match found with
      | .error _ => script d.sent ≠ .answered
      | .ok found => script d.sent = .answered ∧ after.active = true ∧ seen after = seen d ∧
          found = (seen d number).map (GoodsRow.record number)) (findById number) d := by
  unfold findById
  rw [Follows, Program.wp_bind]
  apply Program.wp_post (follows_execute hactive)
  intro answer after hafter
  obtain ⟨hcount, hrows, hanswer⟩ := hafter
  have hcommitted : committed after = committed d := congrArg LegacyRows.goods hrows
  cases answer with
  | error e => exact ⟨hcount, hcommitted, hanswer⟩
  | ok response =>
      obtain ⟨hscript, hopen, writes, locks, counter, hmeaning, hview⟩ := hanswer
      obtain ⟨⟨rfl, -, -⟩, hresponse⟩ := hmeaning
      have hread := readGoods_cells hnumber (seen d number)
      show after.sent = _ ∧ committed after = _ ∧ _
      rw [hresponse, show LegacyRows.goods d.view number = seen d number from rfl, hread]
      exact ⟨hcount, hcommitted, hscript, hopen, congrArg LegacyRows.goods hview, rfl⟩

/-- New goods are seen by their transaction, and by nobody else yet. -/
theorem follows_create {goods : NewGoods} (hactive : d.active = true) :
    Follows (legacyMeaning dialect) script (fun created after => committed after = committed d ∧
      match created with
      | .error _ => ¬ (script d.sent = .answered ∧ script (d.sent + 1) = .answered)
      | .ok _ => after.sent = d.sent + 2 ∧ script d.sent = .answered ∧
          script (d.sent + 1) = .answered ∧ after.active = true ∧ ∃ id storedAt, seen d id = none ∧
            seen after = Function.update (seen d) id (some (storedGoods goods storedAt)))
      (create goods) d := by
  unfold create
  rw [Follows, Program.wp_bind]
  apply Program.wp_post (follows_execute hactive)
  intro inserted after₁ h₁
  obtain ⟨hcount₁, hrows₁, hinserted⟩ := h₁
  have hcommitted₁ : committed after₁ = committed d := congrArg LegacyRows.goods hrows₁
  cases inserted with
  | error e => exact ⟨hcommitted₁, fun hscript => hinserted hscript.1⟩
  | ok response =>
      obtain ⟨hscript₁, hactive₁, writes, locks, counter, hmeaning, hview⟩ := hinserted
      obtain ⟨number, storedAt, -, hlarge, hfresh, rfl, -, -, -, hlast⟩ := hmeaning
      have hseen : seen after₁ =
          Function.update (seen d) (number : ℤ) (some (storedGoods goods storedAt)) := by
        unfold seen
        rw [hview]
        exact goods_over_writeGoods
      have hnumber : toInt64 response.lastInsertId = number := by
        rw [hlast]
        exact toInt64_of_le hlarge
      have hbound : number ≤ int64Max := by
        unfold intMax at hlarge
        unfold int64Max
        omega
      show Follows _ _ _ (findById (toInt64 response.lastInsertId) >>= _) after₁
      rw [hnumber]
      rw [Follows, Program.wp_bind]
      apply Program.wp_post (follows_findById hbound hactive₁)
      intro found after₂ h₂
      obtain ⟨hcount₂, hcommitted₂, hfound⟩ := h₂
      rw [hcount₁] at hfound
      rw [hcommitted₁] at hcommitted₂
      cases found with
      | error f => exact ⟨hcommitted₂, fun hscript => hfound hscript.2⟩
      | ok found =>
          obtain ⟨hscript₂, hactive₂, hseen₂, rfl⟩ := hfound
          rw [hseen, Function.update_self]
          refine ⟨hcommitted₂, by omega, hscript₁, hscript₂, hactive₂, number, storedAt, ?_, ?_⟩
          · show LegacyRows.goods d.view number = none
            unfold LegacyRows.goods
            rw [hfresh]
          · rw [hseen₂, hseen]

/-- Goods are taken if they are there and not taken yet. -/
theorem follows_markTaken {operatorName : Bytes} {id : ℤ} (hactive : d.active = true) :
    Follows (legacyMeaning dialect) script (fun outcome after => committed after = committed d ∧
      match outcome with
      | .ok .taken => after.sent = d.sent + 1 ∧ script d.sent = .answered ∧ after.active = true ∧
          ∃ row takenAt, seen d id = some row ∧ ¬ dialect.isTaken row ∧
            seen after = Function.update (seen d) id (some (row.take takenAt operatorName))
      | _ => ¬ (script d.sent = .answered ∧ ∃ row, seen d id = some row ∧ ¬ dialect.isTaken row))
      (markTaken id operatorName) d := by
  unfold markTaken
  rw [Follows, Program.wp_bind]
  apply Program.wp_post (follows_execute hactive)
  intro updated after₁ h₁
  obtain ⟨hcount₁, hrows₁, hupdated⟩ := h₁
  have hcommitted₁ : committed after₁ = committed d := congrArg LegacyRows.goods hrows₁
  cases updated with
  | error e => exact ⟨hcommitted₁, fun hscript => hupdated hscript.1⟩
  | ok response =>
      obtain ⟨hscript₁, hactive₁, writes, locks, counter, hmeaning, hview⟩ := hupdated
      obtain ⟨-, ⟨row, takenAt, hrow, hfree, rfl, -, haffected⟩ | ⟨hnone, rfl, -, haffected⟩⟩ :=
        hmeaning
      · show Follows _ _ _ (ite (response.affectedRows = 1) _ _) after₁
        rw [if_pos haffected]
        refine ⟨hcommitted₁, hcount₁, hscript₁, hactive₁, row, takenAt, hrow, hfree, ?_⟩
        unfold seen
        rw [hview]
        exact goods_over_writeGoods
      · have hnothing : ¬ (script d.sent = .answered ∧
            ∃ row, seen d id = some row ∧ ¬ dialect.isTaken row) := by
          rintro ⟨-, row, hrow, hfree⟩
          exact hfree (hnone row hrow)
        show Follows _ _ _ (ite (response.affectedRows = 1) _ _) after₁
        rw [if_neg (by omega)]
        rw [Follows, Program.wp_bind]
        apply Program.wp_post (follows_execute hactive₁)
        intro status after₂ h₂
        have hcommitted₂ : committed after₂ = committed d := by
          rw [← hcommitted₁]
          exact congrArg LegacyRows.goods h₂.2.1
        cases status with
        | error e => exact ⟨hcommitted₂, hnothing⟩
        | ok status =>
            show Follows _ _ _ (ite (status.rows.isEmpty = true) _ _) after₂
            split
            · exact ⟨hcommitted₂, hnothing⟩
            · exact ⟨hcommitted₂, hnothing⟩

end Repositories

/-! ## What is told -/

/-- The result of a use case against what became of the rows: if the answer of the `COMMIT` was
`lost`, the use case fails by `code` and yet has changed them; if not, that failure is true. -/
def Told {α : Type} (lost : Prop) (code : LegacyApplicationErrorCode) (d : GoodsSession)
    (result : Outcome α) (after : GoodsSession) : Prop :=
  (lost → result = .error code ∧ committed after ≠ committed d) ∧
    (¬ lost → result = .error code → committed after = committed d)

section Units

variable {α : Type} {host : Host} {lease : Except SqlError Unit} {s : ServiceState}
  {d d₀ after : GoodsSession} {code : LegacyApplicationErrorCode} {lost : Prop} {result : Outcome α}

theorem told_kept (hlost : ¬ lost) (hkept : committed after = committed d) :
    Told lost code d result after :=
  ⟨fun h => absurd h hlost, fun _ _ => hkept⟩

/-- Giving up keeps what was committed. -/
theorem follows_abandon {other : LegacyApplicationErrorCode} (hunit : s.unit = Transaction.opened)
    (hlost : ¬ lost) (hkept : committed d = committed d₀) :
    Serves host lease (scripted (legacyMeaning dialect) script) (fun _ _ _ _ => True)
      (fun result after => result.2.unit.active = false ∧ Told lost code d₀ result.1 after)
      (abandon other : ServiceProgram (Outcome α)) s d := by
  apply serves_abandon
  rw [hunit]
  apply Program.wp_post follows_rollback
  intro t after hrolled
  refine ⟨hrolled.1, told_kept hlost ?_⟩
  rw [← hkept]
  exact congrArg LegacyRows.goods hrolled.2

/-- Concluding with rows that differ from the committed ones: the failure is told of the old rows,
and is wrong if the answer of the `COMMIT` is lost. -/
theorem follows_conclude {value : α} (hunit : s.unit = Transaction.opened)
    (hkept : committed d = committed d₀) (hdiffers : seen d ≠ committed d₀)
    (hlost : lost ↔ ∃ e, script d.sent = .unanswered e) :
    Serves host lease (scripted (legacyMeaning dialect) script) (fun _ _ _ _ => True)
      (fun result after => result.2.unit.active = false ∧ Told lost code d₀ result.1 after)
      (conclude code (pure (.ok value))) s d := by
  apply serves_conclude
  rw [hunit]
  apply Program.wp_post follows_commit
  intro ended after hended
  obtain ⟨committed', t⟩ := ended
  obtain ⟨hinactive, hended⟩ := hended
  cases committed' with
  | ok _ =>
      obtain ⟨hanswered, -⟩ := hended
      refine ⟨hinactive, ?_, nofun⟩
      intro h
      obtain ⟨e, hscript⟩ := hlost.mp h
      rw [hanswered] at hscript
      cases hscript
  | error f =>
      refine ⟨hinactive, ?_⟩
      rcases hended with ⟨hunanswered, hrows⟩ | ⟨hanswered, hrows⟩
      · have hseen : committed after = seen d := congrArg LegacyRows.goods hrows
        refine ⟨fun _ => ⟨rfl, hseen ▸ hdiffers⟩, fun h => absurd (hlost.mpr hunanswered) h⟩
      · have hsame : committed after = committed d := congrArg LegacyRows.goods hrows
        exact told_kept (fun h => hanswered (hlost.mp h)) (hsame.trans hkept)

/-- `createGoods`, inside its unit. -/
theorem follows_createUnit {goods : NewGoods} (hunit : s.unit = Transaction.opened)
    (hactive : d.active = true) (hkept : committed d = committed d₀) (hseen : seen d = committed d₀)
    (hlost : lost ↔ script d.sent = .answered ∧ script (d.sent + 1) = .answered ∧
      ∃ e, script (d.sent + 2) = .unanswered e) :
    Serves host lease (scripted (legacyMeaning dialect) script) (fun _ _ _ _ => True)
      (fun result after => result.2.unit.active = false ∧
        Told lost .persistenceCreateFailed d₀ result.1 after) (createUnit goods) s d := by
  apply serves_repository
  apply Program.wp_post (follows_create hactive)
  intro created after hcreated
  obtain ⟨hcommitted, hcreated⟩ := hcreated
  rw [hkept] at hcommitted
  cases created with
  | error f =>
      apply follows_abandon hunit _ hcommitted
      intro h
      obtain ⟨hfirst, hsecond, -⟩ := hlost.mp h
      exact hcreated ⟨hfirst, hsecond⟩
  | ok record =>
      obtain ⟨hsent, hfirst, hsecond, -, id, storedAt, hfresh, hview⟩ := hcreated
      apply follows_conclude hunit hcommitted
      · intro hsame
        have hrow : seen after id = none := by rw [hsame, ← hseen, hfresh]
        rw [hview, Function.update_self] at hrow
        cases hrow
      · rw [hlost, hsent]
        simp [hfirst, hsecond]

/-- `takeGoods`, inside its unit. -/
theorem follows_takeUnit {number : ℕ} {operatorName : Bytes} (hnumber : number ≤ int64Max)
    (hunit : s.unit = Transaction.opened) (hactive : d.active = true)
    (hkept : committed d = committed d₀) (hseen : seen d = committed d₀)
    (hlost : lost ↔ (∃ row, committed d₀ number = some row ∧ ¬ dialect.isTaken row) ∧
      script d.sent = .answered ∧ script (d.sent + 1) = .answered ∧
      ∃ e, script (d.sent + 2) = .unanswered e) :
    Serves host lease (scripted (legacyMeaning dialect) script) (fun _ _ _ _ => True)
      (fun result after => result.2.unit.active = false ∧
        Told lost .persistenceTakeFailed d₀ result.1 after)
      (takeUnit number operatorName) s d := by
  apply serves_repository
  apply Program.wp_post (follows_markTaken hactive)
  intro outcome after₁ h₁
  obtain ⟨hcommitted₁, houtcome⟩ := h₁
  rw [hkept] at hcommitted₁
  rw [hseen] at houtcome
  have hnothing : ¬ (script d.sent = .answered ∧
      ∃ row, committed d₀ number = some row ∧ ¬ dialect.isTaken row) → ¬ lost := by
    intro h hthen
    obtain ⟨hrow, hscript, -⟩ := hlost.mp hthen
    exact h ⟨hscript, hrow⟩
  cases outcome with
  | error f => exact follows_abandon hunit (hnothing houtcome) hcommitted₁
  | ok outcome =>
    cases outcome with
    | notFound => exact follows_abandon hunit (hnothing houtcome) hcommitted₁
    | alreadyTaken => exact follows_abandon hunit (hnothing houtcome) hcommitted₁
    | taken =>
        obtain ⟨hsent₁, hscript₁, hactive₁, row, takenAt, hrow, hfree, hview⟩ := houtcome
        apply serves_repository
        apply Program.wp_post (follows_findById hnumber hactive₁)
        intro found after₂ h₂
        obtain ⟨hsent₂, hcommitted₂, hfound⟩ := h₂
        rw [hcommitted₁] at hcommitted₂
        rw [hsent₁] at hfound
        cases found with
        | error f =>
            apply follows_abandon hunit _ hcommitted₂
            intro h
            exact hfound (hlost.mp h).2.2.1
        | ok found =>
            obtain ⟨hscript₂, -, hseen₂, rfl⟩ := hfound
            rw [hview, Function.update_self]
            apply follows_conclude hunit hcommitted₂
            · -- the row was not taken before
              intro hsame
              have htaken : row.take takenAt operatorName = row := by
                have hread := congrFun hsame number
                rw [hseen₂, hview, Function.update_self, hrow] at hread
                exact Option.some.inj hread
              apply hfree
              rw [← htaken]
              rfl
            · rw [hlost, hsent₂, hsent₁]
              simp [hscript₁, hscript₂, hrow, hfree]

/-- A unit of work whose body tells what became of the rows. -/
theorem follows_withUnit {body : ServiceProgram (Outcome α)} {L : ℕ → Prop} (hidle : d.Idle)
    (hlost : lost ↔ lease = .ok () ∧ script d.sent = .answered ∧
      script (d.sent + 1) = .answered ∧ L (d.sent + 2))
    (hbody : ∀ d₁ : GoodsSession, d₁.sent = d.sent + 2 → d₁.active = true →
      committed d₁ = committed d → seen d₁ = committed d →
      ∀ lost, (lost ↔ L d₁.sent) →
      Serves host lease (scripted (legacyMeaning dialect) script) (fun _ _ _ _ => True)
        (fun result after => result.2.unit.active = false ∧ Told lost code d result.1 after)
        body { s with unit := Transaction.opened } d₁) :
    Serves host lease (scripted (legacyMeaning dialect) script) (fun _ _ _ _ => True)
      (fun result after => Told lost code d result.1 after) (withUnit .command code body) s d := by
  apply serves_withUnit
  cases lease with
  | error e =>
      apply told_kept _ rfl
      intro h
      cases (hlost.mp h).1
  | ok leased =>
      unfold beginUnitOfWork
      rw [Program.wp_bind]
      apply Program.wp_post (follows_begin .command hidle)
      intro begun d₁ h₁
      obtain ⟨hrows, hbegun⟩ := h₁
      have hcommitted : committed d₁ = committed d := congrArg LegacyRows.goods hrows
      cases begun with
      | error f =>
          apply told_kept _ hcommitted
          intro h
          obtain ⟨-, hfirst, hsecond, -⟩ := hlost.mp h
          exact hbegun ⟨hfirst, hsecond⟩
      | ok t =>
          obtain ⟨rfl, hsent, hfirst, hsecond, hactive, hview⟩ := hbegun
          have hlost₁ : lost ↔ L d₁.sent := by
            rw [hlost, hsent]
            simp [hfirst, hsecond]
          apply Program.wp_post (hbody d₁ hsent hactive hcommitted
            (congrArg LegacyRows.goods hview) lost hlost₁)
          intro result after h
          obtain ⟨hinactive, htold⟩ := h
          rw [Transaction.destroy_inactive hinactive]
          exact htold

end Units

/-! ## The theorem -/

/-- The failure by which a use case says that it has written nothing. -/
def writeFailure : Request → Option LegacyApplicationErrorCode
  | .createGoods _ => some .persistenceCreateFailed
  | .takeGoods _ => some .persistenceTakeFailed
  | .login _ => none
  | .listGoods _ => none

/-- The token belongs to somebody who may write. -/
def MayWrite (s : ServiceState) (token : Bytes) : Prop :=
  ∃ principal, s.sessions token = some principal ∧ canWrite principal = true

/-- The request is one that has a row to write. -/
def Writes (dialect : Dialect) (s : ServiceState) (goods : ℤ → Option GoodsRow) : Request → Prop
  | .createGoods command => MayWrite s command.auth ∧ normalizeField command.name ≠ []
  | .takeGoods command => MayWrite s command.auth ∧ ∃ id row,
      parseGoodsId command.suppliedId = some id ∧ goods id = some row ∧ ¬ dialect.isTaken row
  | .login _ => False
  | .listGoods _ => False

/-- The answer of the `COMMIT`, the fifth statement of the unit, is lost, and nothing else is. -/
def CommitLost (lease : Except SqlError Unit) (script : ℕ → StatementOutcome) : Prop :=
  lease = .ok () ∧ (∀ n < 4, script n = .answered) ∧ ∃ e, script 4 = .unanswered e

section Requests

variable {host : Host} {lease : Except SqlError Unit} {s : ServiceState} {d : GoodsSession}

theorem commitLost_iff : CommitLost lease script ↔
    lease = .ok () ∧ script 0 = .answered ∧ script (0 + 1) = .answered ∧
      script (0 + 2) = .answered ∧ script (0 + 2 + 1) = .answered ∧
      ∃ e, script (0 + 2 + 2) = .unanswered e := by
  constructor
  · intro h
    obtain ⟨hlease, hanswered, hlost⟩ := h
    exact ⟨hlease, hanswered 0 (by omega), hanswered 1 (by omega), hanswered 2 (by omega),
      hanswered 3 (by omega), hlost⟩
  · intro h
    obtain ⟨hlease, h₀, h₁, h₂, h₃, hlost⟩ := h
    refine ⟨hlease, ?_, hlost⟩
    intro n hn
    have hn : n = 0 ∨ n = 1 ∨ n = 2 ∨ n = 3 := by omega
    obtain rfl | rfl | rfl | rfl := hn
    · exact h₀
    · exact h₁
    · exact h₂
    · exact h₃

/-- A request that is let in tells what its continuation tells; one that is turned away has kept
everything. -/
theorem follows_authorized {α : Type} {token : Bytes} {lost : Prop}
    {code : LegacyApplicationErrorCode} {next : LegacyPrincipal → ServiceProgram (Outcome α)}
    (hlost : lost → MayWrite s token)
    (hnext : ∀ principal, s.sessions token = some principal → canWrite principal = true →
      Serves host lease (scripted (legacyMeaning dialect) script) (fun _ _ _ _ => True)
        (fun result after => Told lost code d result.1 after) (next principal) s d) :
    Serves host lease (scripted (legacyMeaning dialect) script) (fun _ _ _ _ => True)
      (fun result after => Told lost code d result.1 after) (authorized token next) s d := by
  rw [Serves, interpret_authorized]
  cases hfound : s.sessions token with
  | none =>
      apply told_kept _ rfl
      intro h
      obtain ⟨principal, hprincipal, -⟩ := hlost h
      rw [hfound] at hprincipal
      cases hprincipal
  | some principal =>
      show Program.wp _ _ _ (ite (canWrite principal = true) _ _) d
      split
      · rename_i hwrite
        exact hnext principal hfound hwrite
      · rename_i hwrite
        apply told_kept _ rfl
        intro h
        obtain ⟨other, hother, hmay⟩ := hlost h
        rw [hfound] at hother
        obtain rfl := Option.some.inj hother
        exact hwrite hmay

/-- What each of the two use cases tells. -/
theorem follows_serve {request : Request} {code : LegacyApplicationErrorCode}
    (hcode : writeFailure request = some code) (hidle : d.Idle) (hsent : d.sent = 0) :
    (serve host lease request s).wp (scripted (legacyMeaning dialect) script) (fun _ _ _ _ => True)
      (fun result after =>
        Told (Writes dialect s (committed d) request ∧ CommitLost lease script) code d result.1
          after) d := by
  rw [commitLost_iff]
  cases request with
  | login command => cases hcode
  | listGoods query => cases hcode
  | createGoods command =>
      obtain rfl := Option.some.inj hcode
      apply follows_authorized fun h => h.1.1
      intro principal hprincipal hwrite
      show Serves _ _ _ _ _ (ite ((normalizeField command.name).isEmpty = true) _ _) s d
      split
      · rename_i hempty
        apply told_kept _ rfl
        intro h
        exact h.1.2 (List.isEmpty_iff.mp hempty)
      · rename_i hname
        have hname : normalizeField command.name ≠ [] := fun h => hname (List.isEmpty_iff.mpr h)
        have hmay : MayWrite s command.auth := ⟨principal, hprincipal, hwrite⟩
        apply follows_withUnit (L := fun n => script n = .answered ∧
          script (n + 1) = .answered ∧ ∃ e, script (n + 2) = .unanswered e) hidle
        · rw [hsent]
          simp [Writes, hmay, hname]
        · intro d₁ hsent₁ hactive hkept hseen lost hlost
          exact follows_createUnit rfl hactive hkept hseen hlost
  | takeGoods command =>
      obtain rfl := Option.some.inj hcode
      apply follows_authorized fun h => h.1.1
      intro principal hprincipal hwrite
      have hmay : MayWrite s command.auth := ⟨principal, hprincipal, hwrite⟩
      cases hparsed : parseGoodsId command.suppliedId with
      | none =>
          apply told_kept _ rfl
          intro h
          obtain ⟨id, row, hid, -⟩ := h.1.2
          rw [hparsed] at hid
          cases hid
      | some id =>
          obtain ⟨digits, -, rfl, -, hbound⟩ := parseGoodsId_eq_some.mp hparsed
          apply follows_withUnit (L := fun n =>
            (∃ row, committed d (digitsValue digits) = some row ∧ ¬ dialect.isTaken row) ∧
            script n = .answered ∧ script (n + 1) = .answered ∧
            ∃ e, script (n + 2) = .unanswered e) hidle
          · rw [hsent]
            simp only [Writes, hmay, hparsed, Option.some.injEq, true_and]
            constructor
            · rintro ⟨⟨id, row, rfl, hrow⟩, hlease, h₀, h₁, hrest⟩
              exact ⟨hlease, h₀, h₁, ⟨row, hrow⟩, hrest⟩
            · rintro ⟨hlease, h₀, h₁, ⟨row, hrow⟩, hrest⟩
              exact ⟨⟨_, row, rfl, hrow⟩, hlease, h₀, h₁, hrest⟩
          · intro d₁ hsent₁ hactive hkept hseen lost hlost
            exact follows_takeUnit (by omega) rfl hactive hkept hseen hlost

end Requests

/-- Unknown commits.  In every run of `createGoods` or `takeGoods`, the failure that should say that
nothing was written is true of the committed goods unless the request had a row to write, everything
up to the `COMMIT` was answered, and of the `COMMIT` only the answer was lost; and then it is
false. -/
theorem cleanFailure_iff {dialect : Dialect} {script : ℕ → StatementOutcome} {host : Host}
    {lease : Except SqlError Unit} {s s' : ServiceState} {d after : GoodsSession}
    {request : Request} {code : LegacyApplicationErrorCode} {result : Outcome request.View}
    {events : SqlHistory LegacyStatement} (hcode : writeFailure request = some code)
    (hidle : d.Idle) (hsent : d.sent = 0)
    (hrun : Program.Runs (serve host lease request s) events (result, s'))
    (hanswers : Program.Answers (scripted (legacyMeaning dialect) script) d events after) :
    (result = .error code →
        LegacyRows.goods after.released.store.rows = LegacyRows.goods d.store.rows) ↔
      ¬ (Writes dialect s (LegacyRows.goods d.store.rows) request ∧ CommitLost lease script) := by
  have htold : (serve host lease request s).wp (scripted (legacyMeaning dialect) script) _ _ d :=
    follows_serve hcode hidle hsent
  obtain ⟨⟨hlost, hkept⟩, -⟩ := Program.runs_under htold hrun hanswers
  rw [released_rows]
  constructor
  · intro hclean h
    obtain ⟨hfailed, hchanged⟩ := hlost h
    exact hchanged (hclean hfailed)
  · exact hkept

/-! ## The same failure twice -/

section Witness

/-- A host whose passwords and tokens play no part. -/
def silentHost : Host where
  verify _ _ := false
  needsRehash _ := false
  hash _ _ := .error []
  token _ := []

/-- One session, of a manager. -/
def managerSession : ServiceState where
  sessions token := if token = lit "4f6b" then some ⟨lit "alice", lit "manager"⟩ else none

/-- A pallet arrives. -/
def palletArrives : Request := .createGoods ⟨lit "4f6b", lit "pallet", lit "A-1"⟩

/-- No goods, and a server that is used by nobody else. -/
def emptyShelves : GoodsSession where
  store := { rows := fun _ => none, counter := 1 }

def connectionLost : SqlError where
  code := .connectionLost

/-- The `COMMIT` is performed, and the connection is lost before its answer. -/
def lostCommit (n : ℕ) : StatementOutcome := if n = 4 then .unanswered connectionLost else .answered

/-- The connection is lost before the `INSERT` is performed. -/
def lostInsert (n : ℕ) : StatementOutcome := if n = 2 then .refused connectionLost else .answered

/-- The pallet, as it is stored. -/
def pallet : NewGoods := ⟨lit "pallet", lit "A-1", lit "alice"⟩

def storedPallet : GoodsRow := storedGoods pallet (lit "2026-01-01 00:00:00")

/-- The answers up to the `COMMIT`. -/
def palletStored : SqlHistory LegacyStatement :=
  [⟨.control (.setIsolation .command), .ok {}⟩, ⟨.control (.start .command), .ok {}⟩,
    ⟨.execute (.insertGoods pallet), .ok { affectedRows := 1, lastInsertId := 1 }⟩,
    ⟨.execute (.selectGoods 1), .ok { rows := [storedPallet.cells 1] }⟩,
    ⟨.control .commit, .error connectionLost⟩, ⟨.poison, ()⟩]

/-- The answers when the `INSERT` fails. -/
def palletRefused : SqlHistory LegacyStatement :=
  [⟨.control (.setIsolation .command), .ok {}⟩, ⟨.control (.start .command), .ok {}⟩,
    ⟨.execute (.insertGoods pallet), .error connectionLost⟩, ⟨.control .rollback, .ok {}⟩]

/-- A machine that performs what it is asked, up to the given answers. -/
def answering (inserted : SqlResult) : (call : ExecutorCall LegacyStatement) → Unit →
    call.Answer × Unit
  | .control .commit, s => (.error connectionLost, s)
  | .control _, s => (.ok {}, s)
  | .poison, s => ((), s)
  | .execute (.insertGoods _), s => (inserted, s)
  | .execute _, s => (.ok { rows := [storedPallet.cells 1] }, s)

theorem runs_palletStored :
    Program.Runs (serve silentHost (.ok ()) palletArrives managerSession) palletStored
      (.error .persistenceCreateFailed, managerSession) := by
  have hrun := Program.runs_exec (answering (.ok { affectedRows := 1, lastInsertId := 1 }))
    (serve silentHost (.ok ()) palletArrives managerSession) ()
  exact hrun

theorem runs_palletRefused :
    Program.Runs (serve silentHost (.ok ()) palletArrives managerSession) palletRefused
      (.error .persistenceCreateFailed, managerSession) := by
  have hrun := Program.runs_exec (answering (.error connectionLost))
    (serve silentHost (.ok ()) palletArrives managerSession) ()
  exact hrun

/-- The pallet is committed. -/
theorem answers_palletStored :
    ∃ after, Program.Answers (scripted (legacyMeaning byteDialect) lostCommit) emptyShelves
      palletStored after ∧ LegacyRows.goods after.released.store.rows 1 = some storedPallet := by
  obtain ⟨s₁, h₁, hfree₁, hactive₁, hview₁, -⟩ :=
    can_start (s := emptyShelves.toLoneSession) (legacyMeaning byteDialect) {} .command rfl
  obtain ⟨s₂, h₂, hfree₂, hactive₂, hview₂, -⟩ := can_execute hfree₁ hactive₁
    (show legacyMeaning byteDialect (.insertGoods pallet) s₁.view s₁.store.counter
      { affectedRows := 1, lastInsertId := 1 } _ _ _ from
      ⟨1, lit "2026-01-01 00:00:00", by decide, by decide, by rw [hview₁]; rfl, rfl, rfl, rfl, rfl,
        rfl⟩)
  have hpallet : LegacyRows.goods s₂.view 1 = some storedPallet := by
    rw [hview₂, hview₁]
    rfl
  obtain ⟨s₃, h₃, hfree₃, hactive₃, hview₃, -⟩ := can_execute hfree₂ hactive₂
    (show legacyMeaning byteDialect (.selectGoods 1) s₂.view s₂.store.counter
      { rows := [storedPallet.cells 1] } _ _ _ from ⟨⟨rfl, rfl, rfl⟩, by rw [hpallet]; rfl⟩)
  refine ⟨{ store := s₃.store.commit 0, poisoned := true, sent := 5 }, ?_, ?_⟩
  · refine .cons (scripted_of_answers (can_isolate _) nofun rfl rfl) ?_
    refine .cons (scripted_of_answers h₁ nofun rfl rfl) ?_
    refine .cons (scripted_of_answers h₂ nofun rfl rfl) ?_
    refine .cons (scripted_of_answers h₃ nofun rfl rfl) ?_
    -- performed, and not answered
    refine .cons (show scripted _ _ (.control .commit) _ (.error connectionLost)
      { store := s₃.store.commit 0, poisoned := s₃.poisoned, sent := 5 } from
      ⟨rfl, rfl, rfl, rfl⟩) ?_
    exact .cons rfl (.nil _)
  · show LegacyRows.goods s₃.view 1 = some storedPallet
    rw [hview₃]
    exact hpallet

/-- Nothing is. -/
theorem answers_palletRefused :
    ∃ after, Program.Answers (scripted (legacyMeaning byteDialect) lostInsert) emptyShelves
      palletRefused after ∧ after.released.store.rows = emptyShelves.store.rows := by
  obtain ⟨s₁, h₁, -, -, hview₁, -⟩ :=
    can_start (s := emptyShelves.toLoneSession) (legacyMeaning byteDialect) {} .command rfl
  have hrows : s₁.store.rows = emptyShelves.store.rows := by
    rw [answers_started h₁]
    rfl
  refine ⟨{ s₁ with store := s₁.store.abort 0, sent := 4 }, ?_, ?_⟩
  · refine .cons (scripted_of_answers (can_isolate _) nofun rfl rfl) ?_
    refine .cons (scripted_of_answers h₁ nofun rfl rfl) ?_
    refine .cons (show scripted _ _ (.execute _) _ (.error connectionLost)
      { s₁ with sent := 3 } from ⟨rfl, rfl, rfl, rfl⟩) ?_
    refine .cons (show scripted _ _ (.control .rollback) _ (.ok {})
      { s₁ with store := s₁.store.abort 0, sent := 4 } from
      ⟨rfl, rfl, rfl, Or.inr (.aborts rfl)⟩) ?_
    exact .nil _
  · rw [released_rows]
    exact hrows

/-- The same request, the same state and the same result: once the pallet is stored, once it is
not. -/
theorem lostCommit_reportedAsFailure :
    (∃ events after,
      Program.Runs (serve silentHost (.ok ()) palletArrives managerSession) events
        (.error .persistenceCreateFailed, managerSession) ∧
      Program.Answers (scripted (legacyMeaning byteDialect) lostCommit) emptyShelves events after ∧
      LegacyRows.goods emptyShelves.store.rows 1 = none ∧
      LegacyRows.goods after.released.store.rows 1 = some storedPallet) ∧
    ∃ events after,
      Program.Runs (serve silentHost (.ok ()) palletArrives managerSession) events
        (.error .persistenceCreateFailed, managerSession) ∧
      Program.Answers (scripted (legacyMeaning byteDialect) lostInsert) emptyShelves events after ∧
      after.released.store.rows = emptyShelves.store.rows := by
  obtain ⟨after, hstored, hpallet⟩ := answers_palletStored
  obtain ⟨after', hrefused, hrows⟩ := answers_palletRefused
  exact ⟨⟨_, after, runs_palletStored, hstored, rfl, hpallet⟩,
    _, after', runs_palletRefused, hrefused, hrows⟩

/-- Where the `INSERT` fails, the failure is true. -/
theorem cleanFailure_iff_lostInsert :
    ∃ after, Program.Answers (scripted (legacyMeaning byteDialect) lostInsert) emptyShelves
        palletRefused after ∧
      LegacyRows.goods after.released.store.rows = LegacyRows.goods emptyShelves.store.rows := by
  obtain ⟨after, hanswers, -⟩ := answers_palletRefused
  have hcommit : ¬ CommitLost (.ok ()) lostInsert := by
    intro h
    have hsecond := h.2.1 2 (by decide)
    cases hsecond
  have hcode : writeFailure palletArrives = some .persistenceCreateFailed := rfl
  exact ⟨after, hanswers, (cleanFailure_iff hcode ⟨rfl, rfl⟩ rfl runs_palletRefused hanswers).mpr
    (fun h => hcommit h.2) rfl⟩

end Witness

end Warehouse.Backend
