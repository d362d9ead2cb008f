/-
# Warehouse.Mysql.LoneSession — one executor over rows that nobody else writes

What the transaction-control statements and the statements of a client mean to a `RowStore`, and an
executor whose session is the only one.  A statement that is answered has been executed.  One that
is refused has done nothing, or has cost the session its transaction, as a deadlock does or a lost
connection; only of a `COMMIT` that is refused nobody knows whether it was executed.  What is left
open on a poisoned executor is rolled back when the connection is thrown away.
-/
import Warehouse.Interaction.RowClients
import Warehouse.Mysql.Transaction

namespace Warehouse.Mysql

open Warehouse.Interaction

variable {St K R : Type}

/-! ## The server -/

/-- What the statements of a client do.  `meaning statement view counter response writes locks
counter'`: executed where it sees `view`, the statement may be answered by `response`, write these
rows, lock these keys, and move the counter on. -/
abbrev Meaning (St K R : Type) : Type :=
  St → (K → Option R) → ℕ → SqlResponse → (K → Option R) → (K → Prop) → ℕ → Prop

/-- What a call is to the transaction of the session. -/
def ExecutorCall.txRole : ExecutorCall St → TxRole
  | .control (.setIsolation _) => .outside
  | .control (.start _) => .begins
  | .control .commit => .commits
  | .control .rollback => .aborts
  | .execute _ => .works
  | .poison => .outside

/-- Whether an answer is a success. -/
def ExecutorCall.performed : (call : ExecutorCall St) → call.Answer → Bool
  | .control _, answer => answer.isOk
  | .execute _, answer => answer.isOk
  | .poison, _ => true

/-- The server whose clients send statements with this meaning. -/
def Meaning.server (meaning : Meaning St K R) :
    RowServer (ExecutorCall St) ExecutorCall.Answer K R where
  role := ExecutorCall.txRole
  ok := ExecutorCall.performed
  perform
    | .execute statement, view, counter, answer, writes, locks, counter' =>
        ∃ response, answer = .ok response ∧ meaning statement view counter response writes locks counter'
    | _, _, _, _, _, _, _ => False

/-- The rows that a server with such clients keeps. -/
abbrev SqlStore (St K R : Type) : Type := RowStore (ExecutorCall St) ExecutorCall.Answer K R

/-! ## The lone session -/

/-- The store, and whether the executor of the session, number 0, has been poisoned. -/
structure LoneSession (St K R : Type) where
  store : SqlStore St K R
  poisoned : Bool := false

namespace LoneSession

/-- The transaction of the session is open. -/
def active (s : LoneSession St K R) : Bool := (s.store.sessions 0).active

/-- What the session sees. -/
def view (s : LoneSession St K R) : K → Option R := s.store.view 0

/-- The lease is given back: a poisoned executor is discarded, and with it its transaction. -/
def released (s : LoneSession St K R) : LoneSession St K R :=
  if s.poisoned then { s with store := s.store.close 0 } else s

/-- How calls are answered when nobody else uses the rows. -/
def answers (meaning : Meaning St K R) :
    Environment (ExecutorCall St) ExecutorCall.Answer (LoneSession St K R) :=
  fun call s answer s' =>
    s'.poisoned = (s.poisoned || call matches .poison) ∧
    if call.performed answer = true then
      (call.txRole = .outside ∧ s'.store = s.store) ∨
        s.store.Serves meaning.server 0 call answer s'.store
    else
      s'.store = s.store ∨ s'.store = s.store.abort 0 ∨
        (call.txRole = .commits ∧ s'.store = s.store.commit 0)

/-- Nothing has been executed that is not committed, and no transaction is open. -/
def Idle (s : LoneSession St K R) : Prop :=
  s.active = false ∧ (s.store.sessions 0).pending = []

/-- The transaction is over, or will be when the lease is given back. -/
def Settled (s : LoneSession St K R) : Prop := s.poisoned = true ∨ s.active = false

variable {meaning : Meaning St K R} {s s' : LoneSession St K R} {response : SqlResponse} {e : SqlError}

theorem Settled.released (h : s.Settled) : s.released.active = false := by
  unfold LoneSession.released
  split
  · simp [active, RowStore.close, RowSession.ended]
  · rename_i hclean
    exact h.resolve_left hclean

theorem released_rows : s.released.store.rows = s.store.rows := by
  unfold released
  split <;> rfl

/-! ## What each call may do -/

theorem answers_poison (h : answers meaning .poison s () s') :
    s'.poisoned = true ∧ s'.store = s.store := by
  obtain ⟨store', poisoned'⟩ := s'
  obtain ⟨hpoisoned, ⟨-, hstore⟩ | hserves⟩ := h
  · exact ⟨by simpa using hpoisoned, hstore⟩
  · cases hserves <;> contradiction

/-- A call that is refused loses nothing that is committed. -/
theorem refused_rows {call : ExecutorCall St} {answer : call.Answer}
    (h : answers meaning call s answer s') (hrefused : call.performed answer = false)
    (hcommit : call.txRole ≠ .commits) : s'.store.rows = s.store.rows := by
  obtain ⟨-, hstore⟩ := h
  rw [hrefused] at hstore
  rcases hstore with hstore | hstore | ⟨hrole, -⟩
  · rw [hstore]
  · rw [hstore]
    rfl
  · exact absurd hrole hcommit

/-- A call other than a poisoning leaves the executor as clean as it was. -/
theorem answers_clean {call : ExecutorCall St} {answer : call.Answer}
    (h : answers meaning call s answer s') (hcall : call ≠ .poison) : s'.poisoned = s.poisoned := by
  rw [h.1]
  cases call with
  | poison => exact absurd rfl hcall
  | control statement => simp
  | execute statement => simp

theorem answers_isolated {mode : WorkUnitMode}
    (h : answers meaning (.control (.setIsolation mode)) s (.ok response) s') :
    s'.store = s.store := by
  obtain ⟨store', poisoned'⟩ := s'
  obtain ⟨-, ⟨-, hstore⟩ | hserves⟩ := h
  · exact hstore
  · cases hserves <;> contradiction

theorem answers_started {mode : WorkUnitMode}
    (h : answers meaning (.control (.start mode)) s (.ok response) s') :
    s'.store = s.store.activate 0 := by
  obtain ⟨store', poisoned'⟩ := s'
  obtain ⟨-, ⟨hrole, -⟩ | hserves⟩ := h
  · cases hrole
  · cases hserves <;> first | rfl | contradiction

theorem answers_committed (h : answers meaning (.control .commit) s (.ok response) s') :
    s'.store = s.store.commit 0 := by
  obtain ⟨store', poisoned'⟩ := s'
  obtain ⟨-, ⟨hrole, -⟩ | hserves⟩ := h
  · cases hrole
  · cases hserves <;> first | rfl | contradiction

/-- The one call whose effect is unknown when it is refused. -/
theorem answers_commitRefused (h : answers meaning (.control .commit) s (.error e) s') :
    s'.store.rows = s.store.rows ∨ s'.store.rows = s.view := by
  obtain ⟨-, hstore⟩ := h
  rcases hstore with hstore | hstore | ⟨-, hstore⟩
  · rw [hstore]
    exact Or.inl rfl
  · rw [hstore]
    exact Or.inl rfl
  · rw [hstore]
    exact Or.inr rfl

theorem answers_rolledBack (h : answers meaning (.control .rollback) s (.ok response) s') :
    s'.store = s.store.abort 0 := by
  obtain ⟨store', poisoned'⟩ := s'
  obtain ⟨-, ⟨hrole, -⟩ | hserves⟩ := h
  · cases hrole
  · cases hserves <;> first | rfl | contradiction

/-- A statement of the client, in a transaction: it writes what only the session sees. -/
theorem answers_executed {statement : St} (hactive : s.active = true)
    (h : answers meaning (.execute statement) s (.ok response) s') :
    ∃ writes locks counter,
      meaning statement s.view s.store.counter response writes locks counter ∧
      s'.store.rows = s.store.rows ∧ s'.active = true ∧
      s'.view = fun k => (writes k).or (s.view k) := by
  obtain ⟨-, ⟨hrole, -⟩ | hserves⟩ := h
  · cases hrole
  obtain ⟨writes, locks, counter, hperform, -, hstore⟩ := hserves.executed rfl hactive
  obtain ⟨performed, hanswer, hmeaning⟩ := hperform
  obtain rfl : response = performed := Except.ok.inj hanswer
  refine ⟨writes, locks, counter, hmeaning, ?_⟩
  unfold active view
  rw [hstore]
  exact ⟨rfl, (RowStore.execute_active _ _ _ _).trans hactive, RowStore.view_execute _ _ _ _⟩

/-- Whatever becomes of a call, an invariant of the store is kept, if the call was allowed. -/
theorem answers_kept {rows₀ : K → Option R} {T : ℕ → SqlHistory St → ExecutorCall St → Prop}
    {J : SqlStore St K R → Prop} {call : ExecutorCall St} {answer : call.Answer}
    (hJ : RowStore.Invariant meaning.server rows₀ T J) (h : answers meaning call s answer s')
    (hs : s.store.Ruled meaning.server rows₀ T ∧ J s.store)
    (hT : T 0 (s.store.sessions 0).executed call) :
    s'.store.Ruled meaning.server rows₀ T ∧ J s'.store := by
  obtain ⟨hruled, hkept⟩ := hs
  have hended : ∀ k, ¬ (s.store.sessions 0).ended.locks k := fun _ hheld => hheld
  obtain ⟨-, hstore⟩ := h
  split at hstore
  · rcases hstore with ⟨-, hsame⟩ | hserves
    · rw [hsame]
      exact ⟨hruled, hkept⟩
    · exact hJ.serves hserves ⟨hruled, hkept⟩ fun _ => hT
  · rcases hstore with hsame | haborted | ⟨-, hcommitted⟩
    · rw [hsame]
      exact ⟨hruled, hkept⟩
    · rw [haborted]
      exact ⟨hruled.replace _ rfl hended, hJ.replace 0 _ hkept rfl hended⟩
    · rw [hcommitted]
      exact ⟨hruled.commit, hJ.commit 0 hruled hkept⟩

/-! ## Calls that can be answered -/

/-- The other sessions of the server hold nothing. -/
def Undisturbed (s : LoneSession St K R) : Prop :=
  ∀ j, j ≠ 0 → ∀ k, ¬ (s.store.sessions j).holds k

theorem can_isolate (mode : WorkUnitMode) :
    answers meaning (.control (.setIsolation mode)) s (.ok response) s :=
  ⟨by simp, Or.inl ⟨rfl, rfl⟩⟩

/-- A session that has just been handed out, at a server that nobody else uses. -/
theorem can_start (meaning : Meaning St K R) (response : SqlResponse) (mode : WorkUnitMode)
    (h : s.store.sessions = fun _ => {}) :
    ∃ s', answers meaning (.control (.start mode)) s (.ok response) s' ∧ s'.Undisturbed ∧
      s'.active = true ∧ s'.view = s.store.rows ∧ s'.store.counter = s.store.counter := by
  have hpending : (s.store.sessions 0).pending = [] := by rw [h]
  refine ⟨{ s with store := s.store.activate 0 }, ⟨by simp, Or.inr (.begins rfl)⟩, ?_,
    RowStore.activate_active, RowStore.activate_view hpending, rfl⟩
  intro j hj k
  have hsame : (s.store.activate 0).sessions j = {} := by
    simp [RowStore.activate, RowStore.commit, RowStore.set, hj, h]
  show ¬ ((s.store.activate 0).sessions j).holds k
  rw [hsame]
  simp [RowSession.holds]

theorem can_execute {statement : St} {writes : K → Option R} {locks : K → Prop} {counter : ℕ}
    (h : s.Undisturbed) (hactive : s.active = true)
    (hmeaning : meaning statement s.view s.store.counter response writes locks counter) :
    ∃ s', answers meaning (.execute statement) s (.ok response) s' ∧ s'.Undisturbed ∧
      s'.active = true ∧ (s'.view = fun k => (writes k).or (s.view k)) ∧
      s'.store.counter = counter := by
  let event : Event (ExecutorCall St) ExecutorCall.Answer := ⟨.execute statement, .ok response⟩
  have hserves : s.store.Serves meaning.server 0 (.execute statement) (.ok response)
      (s.store.execute 0 event writes locks counter) := by
    have hworks : s.store.Serves meaning.server 0 (.execute statement) (.ok response)
        (if (s.store.sessions 0).active then s.store.execute 0 event writes locks counter
          else (s.store.execute 0 event writes locks counter).commit 0) :=
      .works rfl ⟨response, rfl, hmeaning⟩ fun k _ j hj => h j hj k
    rwa [if_pos (show (s.store.sessions 0).active = true from hactive)] at hworks
  refine ⟨{ s with store := s.store.execute 0 event writes locks counter },
    ⟨by simp, Or.inr hserves⟩, ?_, (RowStore.execute_active _ _ _ _).trans hactive,
    RowStore.view_execute _ _ _ _, rfl⟩
  intro j hj k
  have hsame : (s.store.execute 0 event writes locks counter).sessions j = s.store.sessions j := by
    simp [RowStore.execute, RowStore.set, hj]
  show ¬ ((s.store.execute 0 event writes locks counter).sessions j).holds k
  rw [hsame]
  exact h j hj k

theorem can_commit :
    answers meaning (.control .commit) s (.ok response) { s with store := s.store.commit 0 } :=
  ⟨by simp, Or.inr (.commits rfl)⟩

/-! ## The transaction guard -/

/-- Nothing is asked of the single calls. -/
abbrev free : Environment (ExecutorCall St) ExecutorCall.Answer (LoneSession St K R) :=
  fun _ _ _ _ => True

/-- After a poisoning. -/
theorem wp_poison {α : Type} {Q : α → LoneSession St K R → Prop} {next : SqlProgram St α}
    (hnext : ∀ s', s'.poisoned = true → s'.store = s.store → next.wp (answers meaning) free Q s') :
    (poison >>= fun _ => next).wp (answers meaning) free Q s := by
  intro _ s' h
  obtain ⟨hpoisoned, hstore⟩ := answers_poison h
  exact ⟨trivial, hnext s' hpoisoned hstore⟩

/-- A transaction starts on a session that has none, or the executor is poisoned. -/
theorem wp_begin (mode : WorkUnitMode) (hidle : s.Idle) :
    (Transaction.begin mode : SqlProgram St _).wp (answers meaning) free
      (fun begun s' => s'.store.rows = s.store.rows ∧
        match begun with
        | .error _ => s'.poisoned = true
        | .ok t => t = Transaction.opened ∧ s'.active = true ∧ s'.view = s.store.rows) s := by
  intro isolated s₁ h₁
  refine ⟨trivial, ?_⟩
  rcases isolated with e | response
  · refine wp_poison fun s₂ hpoisoned hstore => ⟨?_, hpoisoned⟩
    rw [hstore]
    exact refused_rows h₁ rfl nofun
  have hisolated : s₁.store = s.store := answers_isolated h₁
  intro started s₂ h₂
  refine ⟨trivial, ?_⟩
  rcases started with e | response
  · refine wp_poison fun s₃ hpoisoned hstore => ⟨?_, hpoisoned⟩
    rw [hstore, refused_rows h₂ rfl nofun, hisolated]
  have hstarted : s₂.store = s.store.activate 0 := by rw [answers_started h₂, hisolated]
  refine ⟨?_, rfl, ?_, ?_⟩
  · rw [hstarted]
    exact RowStore.activate_rows hidle.2
  · unfold active
    rw [hstarted]
    exact RowStore.activate_active
  · unfold view
    rw [hstarted]
    exact RowStore.activate_view hidle.2

/-- After a rollback nothing new is committed, and the transaction is over. -/
theorem wp_rollback :
    (Transaction.opened.rollback : SqlProgram St _).wp (answers meaning) free
      (fun t s' => t.active = false ∧ s'.store.rows = s.store.rows ∧ s'.Settled) s := by
  intro answer s₁ h₁
  refine ⟨trivial, ?_⟩
  rcases answer with e | response
  · refine wp_poison fun s₂ hpoisoned hstore => ⟨rfl, ?_, Or.inl hpoisoned⟩
    rw [hstore]
    exact refused_rows h₁ rfl nofun
  · have hstore : s₁.store = s.store.abort 0 := answers_rolledBack h₁
    refine ⟨rfl, by rw [hstore]; rfl, Or.inr ?_⟩
    unfold active
    rw [hstore]
    exact RowStore.abort_active

/-- A commit makes what the session sees the committed rows; one that fails may have done so. -/
theorem wp_commit :
    (Transaction.opened.commit : SqlProgram St _).wp (answers meaning) free
      (fun ended s' => ended.2.active = false ∧ s'.Settled ∧
        match ended.1 with
        | .error _ => s'.store.rows = s.store.rows ∨ s'.store.rows = s.view
        | .ok () => s'.store.rows = s.view) s := by
  intro answer s₁ h₁
  refine ⟨trivial, ?_⟩
  rcases answer with e | response
  · refine wp_poison fun s₂ hpoisoned hstore => ⟨rfl, Or.inl hpoisoned, ?_⟩
    show s₂.store.rows = _ ∨ s₂.store.rows = _
    rw [hstore]
    exact answers_commitRefused h₁
  · have hstore : s₁.store = s.store.commit 0 := answers_committed h₁
    refine ⟨rfl, Or.inr ?_, by rw [hstore]; rfl⟩
    unfold active
    rw [hstore]
    exact RowStore.commit_active

/-- A guard that is not active any more sends nothing. -/
theorem wp_destroy {α : Type} {Q : α → LoneSession St K R → Prop} {t : Transaction}
    {next : SqlProgram St α} (hinactive : t.active = false)
    (h : next.wp (answers meaning) free Q s) :
    (t.destroy >>= fun _ => next).wp (answers meaning) free Q s := by
  rw [Transaction.destroy_inactive hinactive]
  exact h

/-! ## When nothing fails -/

/-- How calls are answered when, besides, every one of them is performed. -/
def unfailing (meaning : Meaning St K R) :
    Environment (ExecutorCall St) ExecutorCall.Answer (LoneSession St K R) :=
  fun call s answer s' => answers meaning call s answer s' ∧ call.performed answer = true

/-- A transaction starts. -/
theorem wp_begin_unfailing (mode : WorkUnitMode) (hidle : s.Idle) :
    (Transaction.begin mode : SqlProgram St _).wp (unfailing meaning) free
      (fun begun s' => begun = .ok Transaction.opened ∧ s'.active = true ∧ s'.view = s.store.rows)
      s := by
  rintro isolated s₁ ⟨h₁, hperformed₁⟩
  refine ⟨trivial, ?_⟩
  rcases isolated with e | response
  · cases hperformed₁
  rintro started s₂ ⟨h₂, hperformed₂⟩
  refine ⟨trivial, ?_⟩
  rcases started with e | response
  · cases hperformed₂
  have hstarted : s₂.store = s.store.activate 0 := by
    rw [answers_started h₂, answers_isolated h₁]
  refine ⟨rfl, ?_, ?_⟩
  · unfold active
    rw [hstarted]
    exact RowStore.activate_active
  · unfold view
    rw [hstarted]
    exact RowStore.activate_view hidle.2

/-- A transaction is committed. -/
theorem wp_commit_unfailing :
    (Transaction.opened.commit : SqlProgram St _).wp (unfailing meaning) free
      (fun ended _ => ended.1 = .ok () ∧ ended.2.active = false) s := by
  rintro answer s₁ ⟨-, hperformed⟩
  refine ⟨trivial, ?_⟩
  rcases answer with e | response
  · cases hperformed
  · exact ⟨rfl, rfl⟩

/-! ## Alone among many -/

section System

open RowSystem

variable {α : Type} {p : SqlProgram St α} {events : SqlHistory St} {a : α}
  {c : RowSystem (ExecutorCall St) ExecutorCall.Answer K R α}

/-- A call that is performed is one that the server serves, or does not concern it. -/
theorem answers_performed {call : ExecutorCall St} {answer : call.Answer}
    (h : answers meaning call s answer s') (hperformed : call.performed answer = true) :
    (call.txRole = .outside ∧ s'.store = s.store) ∨
      s.store.Serves meaning.server 0 call answer s'.store := by
  obtain ⟨-, hstore⟩ := h
  rwa [if_pos hperformed] at hstore

/-- What a lone session does without any failure, client 0 of a system can do. -/
theorem reachable_of_answers (hrun : Program.Runs p events a)
    (hanswers : Program.Answers (answers meaning) s events s')
    (hperformed : ∀ event ∈ events, event.1.performed event.2 = true) (hstore : c.store = s.store)
    (hprogram : (c.clients 0).program = p) (hconnected : (c.clients 0).connected = true)
    (halive : (s.store.sessions 0).alive = true) :
    ∃ c', Reachable meaning.server c c' ∧ c'.store = s'.store ∧
      (c'.clients 0).program = .ret a := by
  induction hrun generalizing s c with
  | ret a =>
      cases hanswers
      exact ⟨c, .refl, hstore, hprogram⟩
  | @call call next answer events a hrest ih =>
      obtain _ | ⟨hcall, hlater⟩ := hanswers
      rename_i s₁
      have hok : call.performed answer = true := hperformed _ List.mem_cons_self
      let client := (c.clients 0).answered meaning.server call answer (next answer)
      -- the step of the system, and the session after it
      have hstep : ∃ c₁, Step meaning.server c c₁ ∧ c₁.store = s₁.store ∧
          (c₁.clients 0).program = next answer ∧ (c₁.clients 0).connected = true ∧
          (s₁.store.sessions 0).alive = true := by
        rcases answers_performed hcall hok with ⟨hrole, hsame⟩ | hserves
        · refine ⟨c.put 0 client c.store, .outside 0 hprogram hrole, hstore.trans hsame.symm, ?_, ?_,
            ?_⟩
          · simp [RowSystem.put, client, RowClient.answered]
          · simp [RowSystem.put, client, RowClient.answered, hconnected]
          · rw [hsame]
            exact halive
        · rw [← hstore] at hserves halive
          refine ⟨c.put 0 client s₁.store,
            .served 0 hprogram hconnected halive (Or.inl hok) hserves, rfl, ?_, ?_, ?_⟩
          · simp [RowSystem.put, client, RowClient.answered]
          · simp [RowSystem.put, client, RowClient.answered, hconnected]
          · rw [hserves.alive]
            exact halive
      obtain ⟨c₁, hfirst, hstore₁, hprogram₁, hconnected₁, halive₁⟩ := hstep
      obtain ⟨c', hreach, hrest⟩ := ih hlater
        (fun event hevent => hperformed event (List.mem_cons_of_mem _ hevent)) hstore₁ hprogram₁
        hconnected₁ halive₁
      exact ⟨c', .head hfirst hreach, hrest⟩

end System

end LoneSession

end Warehouse.Mysql
