/-
# Warehouse.Backend.Refusals — what a refusal says of the tables

A request that is refused because of what is stored was under way when that was so.  Wrong
credentials are refused upon the users at one moment between the first statement and the reply, and
goods are reported as missing upon the goods at one.  Goods that are reported as taken were taken at
such a moment, or they came only while they were being asked for: first there were none, and a moment
later there were some.
-/
import Warehouse.Backend.Linearization

namespace Warehouse.Backend

open Warehouse.Interaction Warehouse.Mysql Warehouse.Bootstrap

/-! ## Excuses -/

/-- What a refusal says of the tables while the request was under way. -/
def Excused (dialect : Dialect) (host : Host) (underWay : ℕ → Prop) (tables : ℕ → Tables) :
    Request → LegacyApplicationErrorCode → Prop
  | .login command, .invalidCredentials => ∃ k, underWay k ∧
      ((∀ id row, (tables k).users id = some row →
        dialect.collation row.username ≠ dialect.collation command.username) ∨
      ∃ id row, (tables k).users id = some row ∧
        dialect.collation row.username = dialect.collation command.username ∧
        host.verify row.password command.password = false)
  | .takeGoods command, .goodsNotFound => ∃ id k, parseGoodsId command.suppliedId = some id ∧
      underWay k ∧ (tables k).goods id = none
  | .takeGoods command, .goodsAlreadyTaken => ∃ id k, parseGoodsId command.suppliedId = some id ∧
      underWay k ∧
      ((∃ row, (tables k).goods id = some row ∧ dialect.isTaken row) ∨
        (tables k).goods id = none ∧ ∃ m, k < m ∧ underWay m ∧ (tables m).goods id ≠ none)
  | _, _ => True

section Excuses

variable {dialect : Dialect} {rows writes : LegacyRows} {counter counter' : ℕ}
  {locks : LegacyKey → Prop} {response : SqlResponse}

/-- A user is not found, or not verified. -/
theorem unknown_of_meaning {host : Host} {command : LoginCommand}
    (hmeaning : legacyMeaning dialect (.findUser command.username true) rows counter response writes
      locks counter')
    (hrefused : readUser response.rows = .ok none ∨
      ∃ user, readUser response.rows = .ok (some user) ∧
        host.verify user.passwordHash command.password = false) :
    (∀ id row, rows.tables.users id = some row →
      dialect.collation row.username ≠ dialect.collation command.username) ∨
    ∃ id row, rows.tables.users id = some row ∧
      dialect.collation row.username = dialect.collation command.username ∧
      host.verify row.password command.password = false := by
  rcases hrefused with hnone | ⟨user, hread, hunverified⟩
  · obtain ⟨-, -, ⟨id, row, -, -, hcells, -⟩ | ⟨hnobody, -⟩⟩ := hmeaning
    · rw [hcells] at hnone
      simp only [userCells, readUser] at hnone
      split at hnone
      · cases hnone
      · cases hnone
    · exact Or.inl hnobody
  · obtain ⟨row, hrow, hname, huser, -⟩ := found_of_meaning hmeaning hread
    rw [huser] at hunverified
    exact Or.inr ⟨user.id, row, hrow, hname, hunverified⟩

/-- An `UPDATE` that takes nothing found no goods, or goods that are taken. -/
theorem untaken_of_meaning {operatorName : Bytes} {id : ℤ}
    (hmeaning : legacyMeaning dialect (.takeGoods operatorName id) rows counter response writes locks
      counter') (haffected : response.affectedRows ≠ 1) :
    writes = (fun _ => none) ∧
      (rows.tables.goods id = none ∨ ∃ row, rows.tables.goods id = some row ∧ dialect.isTaken row) := by
  obtain ⟨-, ⟨row, takenAt, -, -, -, -, haffected'⟩ | ⟨htaken, hnothing, -⟩⟩ := hmeaning
  · exact absurd haffected' haffected
  · refine ⟨hnothing, ?_⟩
    cases hrow : rows.goods id with
    | none => exact Or.inl hrow
    | some row => exact Or.inr ⟨row, hrow, htaken row hrow⟩

/-- The locking read finds a row just if there are goods. -/
theorem isEmpty_of_meaning {id : ℤ}
    (hmeaning : legacyMeaning dialect (.lockStatus id) rows counter response writes locks counter') :
    response.rows.isEmpty = true ↔ rows.tables.goods id = none := by
  obtain ⟨-, -, hrows, -⟩ := hmeaning
  rw [hrows]
  show _ ↔ rows.goods id = none
  cases rows.goods id <;> simp

/-- A statement may be answered so where these are the rows. -/
def Answered (dialect : Dialect) (statement : LegacyStatement) (rows : LegacyRows)
    (response : SqlResponse) (writes : LegacyRows) : Prop :=
  ∃ counter locks counter', legacyMeaning dialect statement rows counter response writes locks counter'

/-- What was heard is true of the tables at moments at which the request was under way; a second
statement sees them later, and if the first wrote nothing, as they are. -/
structure Truthful (dialect : Dialect) (underWay : ℕ → Prop) (rows : ℕ → LegacyRows)
    (heard : SqlHistory LegacyStatement) : Prop where
  one : ∀ {statement response}, heard = [did statement response] →
    ∃ k writes, underWay k ∧ Answered dialect statement (rows k) response writes
  two : ∀ {statement response statement' response'},
    heard = [did statement response, did statement' response'] →
    ∃ k m writes, k < m ∧ underWay k ∧ underWay m ∧
      Answered dialect statement (rows k) response writes ∧
      (writes = (fun _ => none) → ∃ writes', Answered dialect statement' (rows m) response' writes')

/-- A refusal upon what is true is excused. -/
theorem excused_of_refused {host : Host} {s : ServiceState} {request : Request}
    {code : LegacyApplicationErrorCode} {heard : SqlHistory LegacyStatement} {underWay : ℕ → Prop}
    {rows : ℕ → LegacyRows} (htrue : Truthful dialect underWay rows heard)
    (h : Refused host s request code heard) :
    Excused dialect host underWay (fun k => (rows k).tables) request code := by
  -- goods that were asked for: there were none or they were taken, and a moment later there were some
  have htake : ∀ {operatorName : Bytes} {id : ℤ} {response status : SqlResponse},
      heard = [did (.takeGoods operatorName id) response, did (.lockStatus id) status] →
      response.affectedRows ≠ 1 →
      ∃ k m, k < m ∧ underWay k ∧ underWay m ∧
        ((rows k).tables.goods id = none ∨
          ∃ row, (rows k).tables.goods id = some row ∧ dialect.isTaken row) ∧
        (status.rows.isEmpty = true ↔ (rows m).tables.goods id = none) := by
    intro operatorName id response status hheard haffected
    obtain ⟨k, m, writes, hkm, hk, hm, ⟨_, _, _, hmeaning⟩, hlater⟩ := htrue.two hheard
    obtain ⟨hnothing, hfound⟩ := untaken_of_meaning hmeaning haffected
    obtain ⟨writes', _, _, _, hstatus⟩ := hlater hnothing
    exact ⟨k, m, hkm, hk, hm, hfound, isEmpty_of_meaning hstatus⟩
  cases request with
  | listGoods query => trivial
  | createGoods command => trivial
  | login command =>
      by_cases hcode : code = .invalidCredentials
      · subst hcode
        obtain ⟨response, hheard, hrefused⟩ := h
        obtain ⟨k, writes, hk, _, _, _, hmeaning⟩ := htrue.one hheard
        exact ⟨k, hk, unknown_of_meaning hmeaning hrefused⟩
      · cases code <;> trivial
  | takeGoods command =>
      by_cases hmissing : code = .goodsNotFound
      · subst hmissing
        obtain ⟨principal, id, response, status, -, hid, hheard, haffected, hempty⟩ := h
        obtain ⟨k, m, -, -, hm, -, hstatus⟩ := htake hheard haffected
        exact ⟨id, m, hid, hm, hstatus.mp hempty⟩
      by_cases htaken : code = .goodsAlreadyTaken
      · subst htaken
        obtain ⟨principal, id, response, status, -, hid, hheard, haffected, hempty⟩ := h
        obtain ⟨k, m, hkm, hk, hm, hfound, hstatus⟩ := htake hheard haffected
        refine ⟨id, k, hid, hk, ?_⟩
        rcases hfound with hnone | hthere
        · refine Or.inr ⟨hnone, m, hkm, hm, ?_⟩
          intro hstill
          rw [hstatus.mpr hstill] at hempty
          cases hempty
        · exact Or.inl hthere
      · cases code <;> trivial

end Excuses

/-! ## Refused requests -/

section Refusals

open RowSystem

variable {dialect : Dialect} {incoming : ℕ → Incoming} {rows₀ : LegacyRows} {counter n k i : ℕ}
  {run : ℕ → Requests} {code : LegacyApplicationErrorCode}

/-- The request has been answered by this code. -/
def RefusedWith (incoming : ℕ → Incoming) (i : ℕ) (code : LegacyApplicationErrorCode) (c : Requests) :
    Prop :=
  (c.clients i).program = .ret ⟨(incoming i).request, .error code⟩

/-- The moment is after the request was sent, and before `n`. -/
def UnderWay (incoming : ℕ → Incoming) (run : ℕ → Requests) (n i k : ℕ) : Prop :=
  k < n ∧ ∀ m ≤ n, ((run m).clients i).program = (incoming i).program → m ≤ k

variable (h : Overlap dialect incoming rows₀ run n)

include h

/-- What is known to have been executed was answered truthfully. -/
theorem truthful_of_known {heard : SqlHistory LegacyStatement} (hknown : Known run n i heard) :
    Truthful dialect (UnderWay incoming run n i) (fun k => (run k).store.rows) heard := by
  obtain ⟨m, hm, rfl⟩ := hknown
  have hworked := worked_at h hm i
  have hexecuted : ((run m).store.sessions i).executed = (pendingAt run m i).map Entry.event := rfl
  constructor
  · intro statement response hheard
    obtain ⟨e, hpending, hevent⟩ := List.map_eq_singleton_iff.mp (hexecuted.symm.trans hheard)
    have hsplit : pendingAt run m i = [] ++ e :: [] := hpending
    obtain ⟨k, hk, hview, -, -, hsent⟩ := h.executed_at hm hsplit
    obtain ⟨counter, locks, counter', hmeaning⟩ :=
      meaning_of_did (hworked.performed e (by simp [hpending])) hevent
    rw [hview] at hmeaning
    exact ⟨k, e.writes, ⟨by omega, hsent⟩, counter, locks, counter', hmeaning⟩
  · intro statement response statement' response' hheard
    obtain ⟨e, rest, hpending, hevent, hrest⟩ :=
      List.map_eq_cons_iff.mp (hexecuted.symm.trans hheard)
    obtain ⟨f, rfl, hevent'⟩ := List.map_eq_singleton_iff.mp hrest
    obtain ⟨counter, locks, counter', hmeaning⟩ :=
      meaning_of_did (hworked.performed e (by simp [hpending])) hevent
    obtain ⟨counter₂, locks₂, counter₂', hmeaning'⟩ :=
      meaning_of_did (hworked.performed f (by simp [hpending])) hevent'
    have hsplit : pendingAt run m i = [e] ++ f :: [] := hpending
    obtain ⟨l, hl, hview', -, hfirst, hsent'⟩ := h.executed_at hm hsplit
    -- when the second was executed, the first was already pending
    have hsplit' : pendingAt run l i = [] ++ e :: [] := hfirst
    obtain ⟨k, hk, hview, -, -, hsent⟩ := h.executed_at (by omega) hsplit'
    rw [hview] at hmeaning
    refine ⟨k, l, e.writes, hk, ⟨by omega, hsent⟩, ⟨by omega, hsent'⟩,
      ⟨counter, locks, counter', hmeaning⟩, ?_⟩
    intro hnothing
    have hsame : replay [e] (run l).store.rows = (run l).store.rows :=
      funext fun key => replay_of_none (by simp [hnothing])
    rw [hview', hsame] at hmeaning'
    exact ⟨f.writes, counter₂, locks₂, counter₂', hmeaning'⟩

/-- A request that was refused, was refused upon what is true. -/
theorem excused_of_replied (hrefused : RefusedWith incoming i code (run n)) :
    Excused dialect (incoming i).host (UnderWay incoming run n i) (tablesAt run)
      (incoming i).request code := by
  obtain ⟨w, -, ⟨result, hresult, hsays⟩, hheard⟩ := h.returned (Nat.le_refl n) hrefused
  obtain ⟨-, hcode⟩ := Sigma.mk.inj hresult
  obtain rfl := eq_of_heq hcode
  have hrefused : Refused (incoming i).host (incoming i).service (incoming i).request code w.heard :=
    hsays.1
  have htrue : Truthful dialect (UnderWay incoming run n i) (fun k => (run k).store.rows) w.heard := by
    rcases hheard with hnothing | hknown
    · rw [hnothing]
      exact ⟨nofun, nofun⟩
    · exact truthful_of_known h hknown
  exact excused_of_refused htrue hrefused

/-- A refusal that is not that of a commit is given after none was sent. -/
theorem unlogged_of_refused (hrefused : RefusedWith incoming i code (run n))
    (hcode : code ∉ commitFailures) : ∀ e ∈ (run n).store.log, e.client ≠ i := by
  intro e he hclient
  obtain ⟨w, hsubmitted, result, hresult, hsays⟩ :=
    h.submitted (Nat.le_refl n) hrefused he hclient
  obtain ⟨-, hrefusal⟩ := Sigma.mk.inj hresult
  obtain rfl := eq_of_heq hrefusal
  have hcommit := hsays.2 hsubmitted
  exact hcode hcommit

/-- A request that returns at once does nothing. -/
theorem unlogged_of_idle {reply : Reply} (hidle : (incoming i).program = .ret reply) :
    ∀ e ∈ (run n).store.log, e.client ≠ i := by
  rintro e he rfl
  obtain ⟨k, hk, -, -, hsent⟩ := h.committed_at (Nat.le_refl n) he
  have hrest := (h.begun n (Nat.le_refl n) e.client).rest
  rw [hidle] at hrest
  have hlast := hsent n (Nat.le_refl n) (hrest.of_ret.trans hidle.symm)
  omega

end Refusals

section Truth

open RowSystem

variable {dialect : Dialect} {incoming : ℕ → Incoming} {rows₀ : LegacyRows} {counter n i : ℕ}
  {run : ℕ → Requests} {code : LegacyApplicationErrorCode}

/-- Refusals are excused.  In every run of any requests, whatever fails: one that is refused because
of its credentials, or because its goods are missing or taken, was under way when that was so; only
goods that come while they are asked for are reported as taken and are not. -/
theorem refusals_excused (hrun : IsRun (legacyMeaning dialect).server run n)
    (hstart : run 0 = arrivals incoming rows₀ counter)
    (hrefused : RefusedWith incoming i code (run n)) :
    Excused dialect (incoming i).host (UnderWay incoming run n i) (tablesAt run)
      (incoming i).request code :=
  excused_of_replied (overlap_of_run hrun hstart) hrefused

/-! ### Alice asks for a pallet that is not there -/

def missingEvents : SqlHistory LegacyStatement :=
  [⟨.control (.setIsolation .command), .ok {}⟩, ⟨.control (.start .command), .ok {}⟩,
    did (.takeGoods (lit "alice") 1) {}, did (.lockStatus 1) {}, ⟨.control .rollback, .ok {}⟩]

/-- A server without goods. -/
def missingServer : (call : ExecutorCall LegacyStatement) → Unit → call.Answer × Unit
  | .control _, s => (.ok {}, s)
  | .poison, s => ((), s)
  | .execute _, s => (.ok {}, s)

theorem answers_missing :
    ∃ after, Program.Answers (LoneSession.answers (legacyMeaning byteDialect))
      { store := { rows := fun _ => none, counter := 2 } } missingEvents after := by
  obtain ⟨s₁, h₁, hfree₁, hactive₁, hview₁, -⟩ := LoneSession.can_start
    (s := { store := { rows := fun _ => none, counter := 2 } }) (legacyMeaning byteDialect) {}
    .command rfl
  have hnone₁ : LegacyRows.goods s₁.view 1 = none := by
    rw [hview₁]
    rfl
  obtain ⟨s₂, h₂, hfree₂, hactive₂, hview₂, -⟩ := LoneSession.can_execute hfree₁ hactive₁
    (show legacyMeaning byteDialect (.takeGoods (lit "alice") 1) s₁.view s₁.store.counter {} _ _ _ from
      ⟨rfl, Or.inr ⟨by simp [hnone₁], rfl, rfl, rfl⟩⟩)
  have hnone₂ : LegacyRows.goods s₂.view 1 = none := by
    rw [hview₂]
    exact hnone₁
  obtain ⟨s₃, h₃, -⟩ := LoneSession.can_execute hfree₂ hactive₂
    (show legacyMeaning byteDialect (.lockStatus 1) s₂.view s₂.store.counter {} _ _ _ from
      ⟨rfl, rfl, by rw [hnone₂]; rfl, rfl⟩)
  exact ⟨_, .cons (LoneSession.can_isolate .command) (.cons h₁ (.cons h₂ (.cons h₃ (.cons
    (show LoneSession.answers _ (.control .rollback) s₃ (.ok {})
      { s₃ with store := s₃.store.abort 0 } from ⟨by simp, Or.inr (.aborts rfl)⟩) (.nil _)))))⟩

/-- There is none, and she is told so. -/
theorem refusals_excused_missing :
    ∃ run n, RefusedWith (fun _ => takingPallet) 0 .goodsNotFound (run n) ∧
      ∃ k, UnderWay (fun _ => takingPallet) run n 0 k ∧ (tablesAt run k).goods 1 = none := by
  have hrun : Program.Runs takingPallet.program missingEvents
      ⟨takingPallet.request, .error .goodsNotFound⟩ :=
    Program.runs_exec missingServer takingPallet.program ()
  obtain ⟨after, hanswers⟩ := answers_missing
  have hperformed : ∀ event ∈ missingEvents, event.1.performed event.2 = true := by
    simp [missingEvents, did, ExecutorCall.performed, Except.isOk, Except.toBool]
  obtain ⟨c, hreach, -, hreturned⟩ :=
    LoneSession.reachable_of_answers (c := arrivals (fun _ => takingPallet) (fun _ => none) 2) hrun
      hanswers hperformed rfl rfl rfl rfl
  obtain ⟨run, n, hstart, rfl, hsteps⟩ := run_of_reachable hreach
  obtain ⟨id, k, hid, hk, hnone⟩ := refusals_excused (i := 0) hsteps hstart hreturned
  obtain rfl : 1 = id := by simpa [show parseGoodsId (lit "G000001") = some 1 by decide] using hid
  exact ⟨run, n, hreturned, k, hk, hnone⟩

end Truth

end Warehouse.Backend
