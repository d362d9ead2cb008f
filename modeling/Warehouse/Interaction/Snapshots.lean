/-
# Warehouse.Interaction.Snapshots — when the transactions of a run take effect

A run of a `RowSystem` is a sequence of its steps.  Its clients are orderly: each begins one
transaction at most, and sends nothing more once it has asked for the commit or the rollback.  Then
a step does one thing to the store, and

* a statement saw the rows that were committed at one moment of the run, under what its own
  transaction had written before;
* a row that a transaction has locked is the same version until it is committed;
* the committed rows change only when a transaction is committed, for each client once at most.

This module names nothing of the warehouse.
-/
import Mathlib.Data.Nat.Init
import Warehouse.Interaction.Followers

namespace Warehouse.Interaction

/-! ## What a step does to a store -/

section Moves

variable {Op : Type} {Ans : Op → Type} {K R : Type} (srv : RowServer Op Ans K R)

/-- One thing happens: a statement is executed, or a transaction is committed, or a session is
replaced by one that has done nothing. -/
inductive Moves (d : RowStore Op Ans K R) : RowStore Op Ans K R → Prop
  | stays : Moves d d
  | executes (i : ℕ) {op : Op} {answer : Ans op} {writes : K → Option R} {locks : K → Prop}
      {counter : ℕ} : srv.perform op (d.view i) d.counter answer writes locks counter →
      Moves d (d.execute i ⟨op, answer⟩ writes locks counter)
  | commits (i : ℕ) : Moves d (d.commit i)
  | ends (i : ℕ) (s : RowSession Op Ans K R) : s.pending = [] → Moves d (d.set i s)

variable {srv} {d d' : RowStore Op Ans K R} {i : ℕ} {e : Entry Op Ans K R}

open RowStore

/-- A transaction is opened by a session that has executed nothing. -/
theorem activate_of_pending_nil (h : (d.sessions i).pending = []) :
    d.activate i = d.set i { (d.sessions i).ended with active := true } := by
  have hrows : d.view i = d.rows := view_of_pending_nil h
  simp [activate, RowStore.commit, RowStore.set, hrows, h]

/-- Statements inside transactions, and transactions opened once. -/
theorem RowStore.Serves.moves {op : Op} {answer : Ans op} (h : d.Serves srv i op answer d')
    (hbegins : srv.role op = .begins → (d.sessions i).pending = [])
    (hworks : srv.role op = .works → (d.sessions i).active = true) : Moves srv d d' := by
  cases h with
  | begins hrole =>
      rw [activate_of_pending_nil (hbegins hrole)]
      exact .ends i _ rfl
  | commits => exact .commits i
  | aborts => exact .ends i _ rfl
  | works hrole hperform =>
      rw [if_pos (hworks hrole)]
      exact .executes i hperform

/-- Where a list with one more element is split, the last element is the one, or is behind it. -/
theorem split_concat {α : Type} {xs past future : List α} {x y : α}
    (h : xs ++ [x] = past ++ y :: future) :
    (past = xs ∧ y = x ∧ future = []) ∨ ∃ rest, xs = past ++ y :: rest ∧ future = rest ++ [x] := by
  rcases List.eq_nil_or_concat future with rfl | ⟨rest, last, rfl⟩
  · obtain ⟨rfl, hlast⟩ := List.append_inj' h rfl
    exact Or.inl ⟨rfl, (List.cons.inj hlast).1.symm, rfl⟩
  · have hsplit : xs ++ [x] = (past ++ y :: rest) ++ [last] := by simpa using h
    obtain ⟨rfl, hlast⟩ := List.append_inj' hsplit rfl
    exact Or.inr ⟨rest, rfl, by simpa using (List.cons.inj hlast).1.symm⟩

theorem commit_pending : ((d.commit i).sessions i).pending = [] := by
  simp [RowStore.commit, RowStore.set, RowSession.ended]

variable {f : ℕ → RowStore Op Ans K R} {n : ℕ}

/-- The moment at which a pending statement was executed: it saw the rows that were committed then,
under those of its own transaction, and nothing was committed at that moment. -/
theorem executed_at (hmoves : ∀ k < n, Moves srv (f k) (f (k + 1)))
    (hstart : ((f 0).sessions i).pending = []) {past future : List (Entry Op Ans K R)}
    (hpending : ((f n).sessions i).pending = past ++ e :: future) :
    ∃ k < n, e.view = replay past (f k).rows ∧ (f (k + 1)).rows = (f k).rows ∧
      ((f k).sessions i).pending = past ∧ ((f (k + 1)).sessions i).pending ≠ [] := by
  induction n generalizing future with
  | zero => simp [hstart] at hpending
  | succ n ih =>
      have hearlier : ∀ {future}, ((f n).sessions i).pending = past ++ e :: future →
          ∃ k < n + 1, e.view = replay past (f k).rows ∧
            (f (k + 1)).rows = (f k).rows ∧ ((f k).sessions i).pending = past ∧
            ((f (k + 1)).sessions i).pending ≠ [] := by
        intro future hbefore
        obtain ⟨k, hk, hrest⟩ := ih (fun k hk => hmoves k (by omega)) hbefore
        exact ⟨k, by omega, hrest⟩
      have hmove := hmoves n (Nat.lt_succ_self n)
      generalize hafter : f (n + 1) = after at hmove hpending
      cases hmove with
      | stays => exact hearlier hpending
      | executes j hperform =>
          by_cases hj : i = j
          · subst hj
            rw [pending_execute] at hpending
            rcases split_concat hpending with ⟨rfl, rfl, rfl⟩ | ⟨rest, hrest, -⟩
            · refine ⟨n, Nat.lt_succ_self n, rfl, ?_, rfl, ?_⟩
              · rw [hafter]
                rfl
              · rw [hafter, pending_execute]
                simp
            · exact hearlier hrest
          · rw [execute_ne hj] at hpending
            exact hearlier hpending
      | commits j =>
          by_cases hj : i = j
          · subst hj
            rw [commit_pending] at hpending
            simp at hpending
          · rw [commit_ne hj] at hpending
            exact hearlier hpending
      | ends j s hs =>
          by_cases hj : i = j
          · subst hj
            rw [set_self, hs] at hpending
            simp at hpending
          · rw [set_ne hj] at hpending
            exact hearlier hpending

/-- The moment at which a statement came into the log. -/
theorem committed_at (hmoves : ∀ k < n, Moves srv (f k) (f (k + 1)))
    (hstart : (f 0).log = []) (hlogged : e ∈ (f n).log) :
    ∃ k < n, ∃ i, e ∈ ((f k).sessions i).pending ∧ f (k + 1) = (f k).commit i := by
  induction n with
  | zero =>
      rw [hstart] at hlogged
      cases hlogged
  | succ n ih =>
      have hearlier : e ∈ (f n).log → ∃ k < n + 1, ∃ i,
          e ∈ ((f k).sessions i).pending ∧ f (k + 1) = (f k).commit i := by
        intro hbefore
        obtain ⟨k, hk, hrest⟩ := ih (fun k hk => hmoves k (by omega)) hbefore
        exact ⟨k, by omega, hrest⟩
      have hmove := hmoves n (Nat.lt_succ_self n)
      generalize hafter : f (n + 1) = after at hmove hlogged
      cases hmove with
      | stays => exact hearlier hlogged
      | executes => exact hearlier hlogged
      | ends => exact hearlier hlogged
      | commits i =>
          rcases List.mem_append.mp hlogged with hold | hnew
          · exact hearlier hold
          · exact ⟨n, Nat.lt_succ_self n, i, hnew, hafter⟩

/-- The committed rows change by a commit of somebody who has executed something. -/
theorem Moves.changed (h : Moves srv d d') (hchanged : d'.rows ≠ d.rows) :
    ∃ i, d' = d.commit i ∧ (d.sessions i).pending ≠ [] := by
  cases h with
  | stays => exact absurd rfl hchanged
  | executes => exact absurd rfl hchanged
  | ends => exact absurd rfl hchanged
  | commits i =>
      refine ⟨i, rfl, ?_⟩
      intro hnothing
      exact hchanged (view_of_pending_nil hnothing)

/-- Of the transactions that a step commits only one has executed something. -/
theorem commit_unique {j : ℕ} (h : d.commit i = d.commit j) (hi : (d.sessions i).pending ≠ []) :
    i = j := by
  by_contra hne
  apply hi
  have hleft : ((d.commit i).sessions i).pending = [] := commit_pending
  rwa [h, commit_ne hne] at hleft

end Moves

/-! ## What is locked -/

section Locks

variable {Op : Type} {Ans : Op → Type} {K R : Type} {srv : RowServer Op Ans K R}
  {rows₀ : K → Option R} {T : ℕ → History Op Ans → Op → Prop} {locked : Event Op Ans → K → Prop}
  {rows rows' : K → Option R} {entries : List (Entry Op Ans K R)} {e : Entry Op Ans K R}

/-- What becomes of a key depends on that key alone. -/
theorem replay_congr {k : K} (h : rows k = rows' k) : replay entries rows k = replay entries rows' k := by
  induction entries generalizing rows rows' with
  | nil => exact h
  | cons e entries ih =>
      apply ih
      show (e.writes k).or (rows k) = (e.writes k).or (rows' k)
      rw [h]

/-- What an entry has locked is as the entry saw it. -/
def Steady (locked : Event Op Ans → K → Prop) (rows : K → Option R)
    (entries : List (Entry Op Ans K R)) : Prop :=
  ∀ past e future, entries = past ++ e :: future →
    ∀ k, locked e.event k → replay past rows k = e.view k

theorem steady_nil : Steady locked rows ([] : List (Entry Op Ans K R)) := by
  intro past e future hsplit
  simp at hsplit

theorem Steady.concat (h : Steady locked rows entries) (hview : e.view = replay entries rows) :
    Steady locked rows (entries ++ [e]) := by
  intro past f future hsplit k hk
  rcases split_concat hsplit with ⟨rfl, rfl, rfl⟩ | ⟨rest, hrest, -⟩
  · rw [hview]
  · exact h past f rest hrest k hk

/-- Only the locked rows matter. -/
theorem Steady.congr (h : Steady locked rows entries)
    (hsame : ∀ e ∈ entries, ∀ k, locked e.event k → rows k = rows' k) :
    Steady locked rows' entries := by
  intro past e future hsplit k hk
  rw [← h past e future hsplit k hk]
  exact replay_congr (hsame e (by simp [hsplit]) k hk).symm

/-- Every session has what it has locked, as it saw it. -/
structure RowStore.Guarded (locked : Event Op Ans → K → Prop) (d : RowStore Op Ans K R) : Prop where
  steady : ∀ i, Steady locked d.rows (d.sessions i).pending
  locks : ∀ i, ∀ e ∈ (d.sessions i).pending, ∀ k, locked e.event k → (d.sessions i).locks k

open RowStore

theorem guarded_fresh (rows : K → Option R) (counter : ℕ) :
    ({ rows := rows, counter := counter } : RowStore Op Ans K R).Guarded locked where
  steady _ := steady_nil
  locks i e he := by cases he

/-- Nobody writes what somebody else has locked. -/
theorem guarded_invariant (hlocked : ∀ {op : Op} {answer : Ans op} {view : K → Option R}
      {counter : ℕ} {writes : K → Option R} {locks : K → Prop} {counter' : ℕ},
      srv.perform op view counter answer writes locks counter' →
        ∀ k, locked ⟨op, answer⟩ k → locks k) :
    Invariant srv rows₀ T (Guarded locked) where
  execute := by
    intro d i op answer writes locks counter _ h _ hperform _
    constructor
    · intro j
      by_cases hj : j = i
      · subst hj
        rw [pending_execute]
        exact (h.steady j).concat rfl
      · rw [execute_ne hj]
        exact h.steady j
    · intro j e he k hk
      by_cases hj : j = i
      · subst hj
        rw [pending_execute] at he
        rw [execute_locks]
        rcases List.mem_append.mp he with hold | hnew
        · exact Or.inl (h.locks j e hold k hk)
        · obtain rfl := List.mem_singleton.mp hnew
          exact Or.inr (hlocked hperform k hk)
      · rw [execute_ne hj] at he ⊢
        exact h.locks j e he k hk
  commit := by
    intro d i hruled h
    constructor
    · intro j
      by_cases hj : j = i
      · subst hj
        rw [commit_pending]
        exact steady_nil
      · rw [commit_ne hj]
        -- what the one has locked, the other has not written
        refine (h.steady j).congr ?_
        intro e he k hk
        refine (replay_of_none fun f hf => ?_).symm
        by_contra hwritten
        exact hruled.sound.exclusive j i k hj (Or.inl (h.locks j e he k hk))
          (Or.inr ⟨f, hf, hwritten⟩)
    · intro j e he k hk
      by_cases hj : j = i
      · subst hj
        rw [commit_pending] at he
        cases he
      · rw [commit_ne hj] at he ⊢
        exact h.locks j e he k hk
  replace := by
    intro d i s h hpending _
    constructor
    · intro j
      by_cases hj : j = i
      · subst hj
        rw [set_self, hpending]
        exact steady_nil
      · rw [set_ne hj]
        exact h.steady j
    · intro j e he k hk
      by_cases hj : j = i
      · subst hj
        rw [set_self, hpending] at he
        cases he
      · rw [set_ne hj] at he ⊢
        exact h.locks j e he k hk

end Locks

/-! ## The clients of a run -/

namespace RowSystem

variable {Op : Type} {Ans : Op → Type} {K R α : Type} {srv : RowServer Op Ans K R}
  {rows₀ : K → Option R} {T : ℕ → History Op Ans → Op → Prop} {Q : ℕ → α → Notes Op Ans → Prop}
  {J : RowStore Op Ans K R → Prop} {programs : ℕ → Program Op Ans α} {counter i : ℕ}
  {c c' : RowSystem Op Ans K R α} {d : RowStore Op Ans K R} {fits : α → Stage → Prop} {stage : Stage}
  {client : RowClient Op Ans α} {op : Op} {next : Ans op → Program Op Ans α} {answer : Ans op}

/-- A client and its session, at a stage of its one transaction. -/
structure Paced (srv : RowServer Op Ans K R) (fits : α → Stage → Prop) (i : ℕ) (stage : Stage)
    (client : RowClient Op Ans α) (d : RowStore Op Ans K R) : Prop where
  staged : Staged srv fits stage client.program
  fresh : stage = .fresh → (d.sessions i).pending = []
  begins : ∀ op, client.inflight = some op → srv.role op = .begins → (d.sessions i).pending = []
  works : ∀ op, client.inflight = some op → srv.role op = .works → stage ≠ .fresh ∧
    ((d.sessions i).alive = true → (d.sessions i).active = true)
  commits : ∀ op, client.inflight = some op → srv.role op = .commits → stage = .submitted
  logged : ∀ e ∈ d.log, e.client = i → stage = .submitted ∧ (d.sessions i).pending = [] ∧
    ∀ op, client.inflight = some op → srv.role op ≠ .works

/-- What is left of the program after an answer. -/
theorem Paced.rest (h : Paced srv fits i stage client d) (hprogram : client.program = .call op next)
    (answer : Ans op) :
    stage.allows (srv.role op) ∧ Staged srv fits (stage.after (srv.role op)) (next answer) :=
  (hprogram ▸ h.staged : Staged srv fits stage (.call op next)).call answer

/-- A client that calls on the store has nothing in the log. -/
theorem Paced.unlogged (h : Paced srv fits i stage client d) (hprogram : client.program = .call op next)
    (answer : Ans op) (hrole : srv.role op ≠ .outside) : ∀ e ∈ d.log, e.client ≠ i := by
  intro e he hclient
  exact Stage.ne_submitted (h.rest hprogram answer).1 hrole (h.logged e he hclient).1

/-- A step of another client. -/
theorem Paced.frame {j : ℕ} {d' : RowStore Op Ans K R} (h : Paced srv fits i stage client d)
    (hsession : d'.sessions i = d.sessions i) (hj : j ≠ i)
    (hlog : ∀ e ∈ d'.log, e ∈ d.log ∨ e.client = j) : Paced srv fits i stage client d' := by
  refine ⟨h.staged, ?_, ?_, ?_, h.commits, ?_⟩
  · rw [hsession]
    exact h.fresh
  · rw [hsession]
    exact h.begins
  · rw [hsession]
    exact h.works
  · intro e he hclient
    rw [hsession]
    rcases hlog e he with hold | hother
    · exact h.logged e hold hclient
    · exact absurd (hother.symm.trans hclient) hj

/-- A call that is not performed: what is open stays open, or is gone. -/
theorem Paced.failed {d' : RowStore Op Ans K R} {connected : Bool} {inflight : Option Op}
    (h : Paced srv fits i stage client d) (hprogram : client.program = .call op next)
    (hrole : srv.role op ≠ .outside) (hlog : d'.log = d.log)
    (hbegins : ∀ op, inflight = some op → srv.role op = .begins → (d'.sessions i).pending = [])
    (hworks : ∀ op, inflight = some op → srv.role op = .works → (d'.sessions i).alive = true →
      (d'.sessions i).active = true)
    (hcommits : ∀ other, inflight = some other → srv.role other = .commits →
      stage.after (srv.role op) = .submitted) :
    Paced srv fits i (stage.after (srv.role op))
      { client.answered srv op answer (next answer) with
        connected := connected, inflight := inflight } d' := by
  have hstarted : stage.after (srv.role op) ≠ .fresh := Stage.after_ne_fresh hrole
  refine ⟨(h.rest hprogram answer).2, fun hfresh => absurd hfresh hstarted, hbegins, ?_, hcommits, ?_⟩
  · exact fun op hop hrole => ⟨hstarted, hworks op hop hrole⟩
  · rw [hlog]
    intro e he hclient
    exact absurd hclient (h.unlogged hprogram answer hrole e he)

/-- Only the statements of a session come into the log with it. -/
theorem client_of_serves {d' : RowStore Op Ans K R} {j : ℕ} (hsound : d.Sound srv rows₀)
    (hserves : d.Serves srv j op answer d') {e : Entry Op Ans K R} (he : e ∈ d'.log) :
    e ∈ d.log ∨ e.client = j := by
  have hcommit : ∀ {d : RowStore Op Ans K R}, d.Sound srv rows₀ → e ∈ (d.commit j).log →
      e ∈ d.log ∨ e.client = j := by
    intro d hsound he
    rcases List.mem_append.mp he with hold | hnew
    · exact Or.inl hold
    · exact Or.inr (hsound.executed j e hnew).2
  cases hserves with
  | begins => exact hcommit hsound he
  | commits => exact hcommit hsound he
  | aborts => exact Or.inl he
  | works _ hperform hfree =>
      split at he
      · exact Or.inl he
      · have hexecuted := hcommit (hsound.execute (e := ⟨op, answer⟩) hperform hfree) he
        exact hexecuted

/-- A statement is executed in an open transaction only. -/
theorem active_of_demand (hagrees : Agrees srv T Q i client d)
    (hprogram : client.program = .call op next) (hconnected : client.connected = true)
    (halive : (d.sessions i).alive = true) (answer : Ans op) (hrole : srv.role op = .works) :
    (d.sessions i).active = true := by
  obtain ⟨executed, hopened, -⟩ := hagrees.demand hprogram answer hrole
  exact (hagrees.opened hconnected halive executed hopened).1

/-- A call that is performed. -/
theorem Paced.served {d' : RowStore Op Ans K R} (h : Paced srv fits i stage client d)
    (hagrees : Agrees srv T Q i client d) (hprogram : client.program = .call op next)
    (hconnected : client.connected = true) (halive : (d.sessions i).alive = true)
    (hserves : d.Serves srv i op answer d') :
    Paced srv fits i (stage.after (srv.role op)) (client.answered srv op answer (next answer)) d' := by
  obtain ⟨hallowed, hrest⟩ := h.rest hprogram answer
  have hnothing : ∀ op, client.inflight ≠ some op := by
    intro op hinflight
    simp [hagrees.waiting hconnected] at hinflight
  have hinflight : ∀ {P : Prop} {op}, client.inflight = some op → P :=
    fun hsome => absurd hsome (hnothing _)
  cases hrole : srv.role op with
  | outside => cases hserves <;> simp_all
  | begins =>
      have hunlogged := h.unlogged hprogram answer (by simp [hrole])
      rw [hrole] at hallowed hrest
      have hpending := h.fresh (Stage.eq_fresh hallowed)
      rw [hserves.begun hrole, activate_of_pending_nil hpending]
      refine ⟨hrest, fun hfresh => absurd hfresh (Stage.after_ne_fresh (by simp)),
        fun _ => hinflight, fun _ => hinflight, fun _ => hinflight, ?_⟩
      intro e he hclient
      exact absurd hclient (hunlogged e he)
  | works =>
      have hunlogged := h.unlogged hprogram answer (by simp [hrole])
      rw [hrole] at hrest
      have hactive := active_of_demand hagrees hprogram hconnected halive answer hrole
      obtain ⟨writes, locks, counter, -, -, rfl⟩ := hserves.executed hrole hactive
      refine ⟨hrest, fun hfresh => absurd hfresh (Stage.after_ne_fresh (by simp)),
        fun _ => hinflight, fun _ => hinflight, fun _ => hinflight, ?_⟩
      intro e he hclient
      exact absurd hclient (hunlogged e he)
  | commits =>
      rw [hrole] at hrest
      rw [hserves.committed hrole]
      refine ⟨hrest, fun hfresh => absurd hfresh (Stage.after_ne_fresh (by simp)),
        fun _ => hinflight, fun _ => hinflight, fun _ => hinflight, ?_⟩
      exact fun _ _ _ => ⟨rfl, commit_pending, fun _ => hinflight⟩
  | aborts =>
      have hunlogged := h.unlogged hprogram answer (by simp [hrole])
      rw [hrole] at hrest
      have hsame : d'.log = d.log := by
        cases hserves <;> simp_all [RowStore.abort, RowStore.set]
      refine ⟨hrest, fun hfresh => absurd hfresh (Stage.after_ne_fresh (by simp)),
        fun _ => hinflight, fun _ => hinflight, fun _ => hinflight, ?_⟩
      rw [hsame]
      intro e he hclient
      exact absurd hclient (hunlogged e he)

/-- What was on the way is performed. -/
theorem Paced.arrives {d' : RowStore Op Ans K R} (h : Paced srv fits i stage client d)
    (hinflight : client.inflight = some op)
    (halive : (d.sessions i).alive = true) (hserves : d.Serves srv i op answer d') :
    Paced srv fits i stage { client with inflight := none } d' := by
  have hnothing : ∀ {P : Prop} {op}, (none : Option Op) = some op → P := nofun
  have hwhole : ∀ {pending : List (Entry Op Ans K R)} {log : List (Entry Op Ans K R)},
      (d'.sessions i).pending = pending → d'.log = log →
      (stage = .fresh → pending = []) →
      (∀ e ∈ log, e.client = i → stage = .submitted ∧ pending = []) →
      Paced srv fits i stage { client with inflight := none } d' := by
    rintro pending log rfl rfl hfresh hlogged
    refine ⟨h.staged, hfresh, fun _ => hnothing, fun _ => hnothing, fun _ => hnothing, ?_⟩
    intro e he hclient
    obtain ⟨hover, hended⟩ := hlogged e he hclient
    exact ⟨hover, hended, fun _ => hnothing⟩
  cases hserves with
  | begins hrole =>
      have hpending := h.begins op hinflight hrole
      rw [activate_of_pending_nil hpending] at hwhole ⊢
      apply hwhole (by rw [RowStore.set_self]) rfl
      · exact fun _ => rfl
      · intro e he hclient
        exact ⟨(h.logged e he hclient).1, rfl⟩
  | commits hrole =>
      apply hwhole commit_pending rfl
      · exact fun _ => rfl
      · intro e he hclient
        exact ⟨h.commits op hinflight hrole, rfl⟩
  | aborts hrole =>
      apply hwhole (by rw [RowStore.abort, RowStore.set_self]) rfl
      · exact fun _ => rfl
      · intro e he hclient
        exact ⟨(h.logged e he hclient).1, rfl⟩
  | works hrole hperform =>
      obtain ⟨hstarted, hactive⟩ := h.works op hinflight hrole
      rw [if_pos (hactive halive)] at hwhole ⊢
      apply hwhole rfl rfl
      · exact fun hfresh => absurd hfresh hstarted
      · intro e he hclient
        exact absurd hrole ((h.logged e he hclient).2.2 op hinflight)

/-- A session that has ended, while nothing is on the way. -/
theorem Paced.ended {s : RowSession Op Ans K R} (h : Paced srv fits i stage client d)
    (hpending : s.pending = []) :
    Paced srv fits i stage { client with inflight := none } (d.set i s) := by
  have hnothing : ∀ {P : Prop} {op}, (none : Option Op) = some op → P := nofun
  refine ⟨h.staged, ?_, fun _ => hnothing, fun _ => hnothing, fun _ => hnothing, ?_⟩
  · rw [RowStore.set_self]
    exact fun _ => hpending
  · rw [RowStore.set_self]
    exact fun e he hclient => ⟨(h.logged e he hclient).1, hpending, fun _ => hnothing⟩

/-- Every client stays orderly. -/
theorem Paced.step (htracked : c.Tracked srv rows₀ T Q J) (hstep : Step srv c c')
    (h : Paced srv fits i stage (c.clients i) c.store) :
    ∃ stage', Paced srv fits i stage' (c'.clients i) c'.store := by
  have hself : ∀ {client : RowClient Op Ans α} {d : RowStore Op Ans K R},
      (c.put i client d).clients i = client := Function.update_self ..
  -- a step of somebody else
  have hother : ∀ {j client} {d : RowStore Op Ans K R}, i ≠ j → d.sessions i = c.store.sessions i →
      (∀ e ∈ d.log, e ∈ c.store.log ∨ e.client = j) →
      ∃ stage', Paced srv fits i stage' ((c.put j client d).clients i) (c.put j client d).store := by
    intro j client d hj hsession hlog
    rw [show (c.put j client d).clients i = c.clients i from Function.update_of_ne hj _ _]
    exact ⟨stage, h.frame hsession hj.symm hlog⟩
  have hagrees := htracked.agrees i
  cases hstep with
  | @outside j op next answer hprogram hrole =>
      by_cases hj : i = j
      · subst hj
        obtain ⟨-, hrest⟩ := h.rest hprogram answer
        rw [hrole] at hrest
        rw [hself]
        exact ⟨stage, hrest, h.fresh, h.begins, h.works, h.commits, h.logged⟩
      · exact hother hj rfl fun _ he => Or.inl he
  | served j hprogram hconnected halive _ hserves =>
      by_cases hj : i = j
      · subst hj
        rw [hself]
        exact ⟨_, h.served hagrees hprogram hconnected halive hserves⟩
      · exact hother hj (hserves.others hj) fun _ he => client_of_serves htracked.ruled.sound hserves he
  | @failed j op next answer hprogram hrole =>
      by_cases hj : i = j
      · subst hj
        rw [hself]
        refine ⟨_, h.failed hprogram hrole rfl h.begins (fun op hop hworks => (h.works op hop hworks).2) ?_⟩
        intro other hinflight hcommits
        exact absurd (h.commits other hinflight hcommits)
          (Stage.ne_submitted (h.rest hprogram answer).1 hrole)
      · exact hother hj rfl fun _ he => Or.inl he
  | aborted j hprogram hrole _ hconnected =>
      by_cases hj : i = j
      · subst hj
        rw [hself]
        have hnothing : ∀ {P : Prop} {op}, (c.clients i).inflight = some op → P := by
          intro P op hinflight
          rw [hagrees.waiting hconnected] at hinflight
          cases hinflight
        exact ⟨_, h.failed hprogram hrole rfl (fun _ => hnothing) (fun _ => hnothing)
          fun _ => hnothing⟩
      · exact hother hj (RowStore.set_ne hj _) fun _ he => Or.inl he
  | @lost j op next answer hprogram hrole _ hconnected =>
      by_cases hj : i = j
      · subst hj
        rw [hself]
        refine ⟨_, h.failed hprogram hrole rfl ?_ ?_ ?_⟩
        · intro sent hsent hbegins
          obtain rfl := Option.some.inj hsent
          have hallowed := (h.rest hprogram answer).1
          rw [hbegins] at hallowed
          exact h.fresh (Stage.eq_fresh hallowed)
        · intro sent hsent hworks halive
          obtain rfl := Option.some.inj hsent
          exact active_of_demand hagrees hprogram hconnected halive answer hworks
        · intro sent hsent hcommits
          obtain rfl := Option.some.inj hsent
          rw [hcommits]
          rfl
      · exact hother hj rfl fun _ he => Or.inl he
  | arrives j hinflight halive hserves =>
      by_cases hj : i = j
      · subst hj
        rw [hself]
        exact ⟨stage, h.arrives hinflight halive hserves⟩
      · exact hother hj (hserves.others hj) fun _ he => client_of_serves htracked.ruled.sound hserves he
  | close j =>
      by_cases hj : i = j
      · subst hj
        rw [hself]
        exact ⟨stage, h.ended rfl⟩
      · exact hother hj (RowStore.set_ne hj _) fun _ he => Or.inl he

/-- A step of orderly clients does one thing to the store. -/
theorem Step.moves {fits : ℕ → α → Stage → Prop}
    (hpaced : ∀ i, ∃ stage, Paced srv (fits i) i stage (c.clients i) c.store)
    (htracked : c.Tracked srv rows₀ T Q J) (hstep : Step srv c c') :
    Moves srv c.store c'.store := by
  cases hstep with
  | outside i => exact .stays
  | @served i op next answer store hprogram hconnected halive _ hserves =>
      obtain ⟨stage, h⟩ := hpaced i
      apply hserves.moves
      · intro hbegins
        have hallowed := (h.rest hprogram answer).1
        rw [hbegins] at hallowed
        exact h.fresh (Stage.eq_fresh hallowed)
      · exact active_of_demand (htracked.agrees i) hprogram hconnected halive answer
  | failed i => exact .stays
  | aborted i => exact .ends i _ rfl
  | lost i => exact .stays
  | @arrives i op answer store hinflight halive hserves =>
      obtain ⟨stage, h⟩ := hpaced i
      apply hserves.moves
      · exact h.begins op hinflight
      · exact fun hworks => (h.works op hinflight hworks).2 halive
  | close i => exact .ends i _ rfl

/-! ### Clients that have not begun -/

/-- What is left of the program of client `i`; while it is all of it, nothing has been done. -/
structure Begun (programs : ℕ → Program Op Ans α) (i : ℕ) (c : RowSystem Op Ans K R α) : Prop where
  rest : Program.Rest (programs i) (c.clients i).program
  idle : (c.clients i).program = programs i →
    (c.clients i).inflight = none ∧ (c.store.sessions i).pending = []

/-- A call is made, or none. -/
theorem rest_of_step (hstep : Step srv c c') (i : ℕ) :
    Program.Rest (c.clients i).program (c'.clients i).program := by
  have hcalled : ∀ {j : ℕ} {op : Op} {next : Ans op → Program Op Ans α} {answer : Ans op}
      {client : RowClient Op Ans α} {d : RowStore Op Ans K R},
      (c.clients j).program = .call op next → client.program = next answer →
      Program.Rest (c.clients i).program ((c.put j client d).clients i).program := by
    intro j op next answer client d hprogram hclient
    by_cases hj : i = j
    · subst hj
      rw [show (c.put i client d).clients i = client from Function.update_self .., hprogram, hclient]
      exact .call answer (.refl _)
    · rw [show (c.put j client d).clients i = c.clients i from Function.update_of_ne hj _ _]
      exact .refl _
  have hkept : ∀ {j : ℕ} {client : RowClient Op Ans α} {d : RowStore Op Ans K R},
      client.program = (c.clients j).program →
      Program.Rest (c.clients i).program ((c.put j client d).clients i).program := by
    intro j client d hclient
    by_cases hj : i = j
    · subst hj
      rw [show (c.put i client d).clients i = client from Function.update_self .., hclient]
      exact .refl _
    · rw [show (c.put j client d).clients i = c.clients i from Function.update_of_ne hj _ _]
      exact .refl _
  cases hstep with
  | outside j hprogram => exact hcalled hprogram rfl
  | served j hprogram => exact hcalled hprogram rfl
  | failed j hprogram => exact hcalled hprogram rfl
  | aborted j hprogram => exact hcalled hprogram rfl
  | lost j hprogram => exact hcalled hprogram rfl
  | arrives j => exact hkept rfl
  | close j => exact hkept rfl

/-- A client that has sent nothing has executed nothing. -/
theorem Begun.step (h : Begun programs i c) (hstep : Step srv c c') : Begun programs i c' := by
  refine ⟨h.rest.trans (rest_of_step hstep i), ?_⟩
  have hput : ∀ {client : RowClient Op Ans α} {d : RowStore Op Ans K R},
      (c.put i client d).clients i = client := Function.update_self ..
  -- after a call of its own it has begun
  have hcalled : ∀ {op : Op} {next : Ans op → Program Op Ans α} {answer : Ans op} {P : Prop},
      (c.clients i).program = .call op next → next answer = programs i → P := by
    intro op next answer P hprogram hwhole
    have hrest : Program.Rest (programs i) (.call op next) := hprogram ▸ h.rest
    exact absurd hwhole hrest.next_ne
  have hother : ∀ {j client} {d : RowStore Op Ans K R}, i ≠ j → d.sessions i = c.store.sessions i →
      ((c.put j client d).clients i).program = programs i →
      ((c.put j client d).clients i).inflight = none ∧
        ((c.put j client d).store.sessions i).pending = [] := by
    intro j client d hj hsession
    rw [show (c.put j client d).clients i = c.clients i from Function.update_of_ne hj _ _,
      show (c.put j client d).store.sessions i = c.store.sessions i from hsession]
    exact h.idle
  cases hstep with
  | outside j hprogram =>
      by_cases hj : i = j
      · subst hj
        rw [hput]
        exact hcalled hprogram
      · exact hother hj rfl
  | served j hprogram _ _ _ hserves =>
      by_cases hj : i = j
      · subst hj
        rw [hput]
        exact hcalled hprogram
      · exact hother hj (hserves.others hj)
  | failed j hprogram =>
      by_cases hj : i = j
      · subst hj
        rw [hput]
        exact hcalled hprogram
      · exact hother hj rfl
  | aborted j hprogram =>
      by_cases hj : i = j
      · subst hj
        rw [hput]
        exact hcalled hprogram
      · exact hother hj (RowStore.set_ne hj _)
  | lost j hprogram =>
      by_cases hj : i = j
      · subst hj
        rw [hput]
        exact hcalled hprogram
      · exact hother hj rfl
  | arrives j hinflight _ hserves =>
      by_cases hj : i = j
      · subst hj
        rw [hput]
        intro hwhole
        rw [(h.idle hwhole).1] at hinflight
        cases hinflight
      · exact hother hj (hserves.others hj)
  | close j =>
      by_cases hj : i = j
      · subst hj
        rw [hput]
        intro _
        refine ⟨rfl, ?_⟩
        show ((c.store.set i _).sessions i).pending = []
        rw [RowStore.set_self]
        rfl
      · exact hother hj (RowStore.set_ne hj _)

/-! ### Runs -/

/-- `n` steps, one after the other. -/
def IsRun (srv : RowServer Op Ans K R) (run : ℕ → RowSystem Op Ans K R α) (n : ℕ) : Prop :=
  ∀ k < n, Step srv (run k) (run (k + 1))

/-- A client that is followed; what has been heard of it is known to have been executed. -/
structure Followed (srv : RowServer Op Ans K R) (T : History Op Ans → Op → Prop)
    (Q : α → Follower Op Ans → Prop) (client : RowClient Op Ans α) (known : History Op Ans → Prop)
    (w : Follower Op Ans) : Prop where
  notes : w.notes = client.notes
  program : client.program.wp (following srv) (Proper srv T) Q w
  opened : ∀ executed, w.notes.opened = some executed → w.heard = executed
  known : w.heard = [] ∨ known w.heard

/-- At some moment up to `k` this was what the client had executed in its transaction. -/
def Known (run : ℕ → RowSystem Op Ans K R α) (k i : ℕ) (events : History Op Ans) : Prop :=
  ∃ m ≤ k, ((run m).store.sessions i).executed = events

/-- A run, with what is so at its every moment. -/
structure Timeline (srv : RowServer Op Ans K R) (rows₀ : K → Option R)
    (T : ℕ → History Op Ans → Op → Prop) (Q : ℕ → α → Follower Op Ans → Prop)
    (locked : Event Op Ans → K → Prop) (programs : ℕ → Program Op Ans α)
    (run : ℕ → RowSystem Op Ans K R α) (n : ℕ) : Prop where
  steps : IsRun srv run n
  start : (run 0).store.log = [] ∧ ∀ i, ((run 0).store.sessions i).pending = []
  tracked : ∀ k ≤ n, (run k).Tracked srv rows₀ T (fun _ _ _ => True) (RowStore.Guarded locked)
  paced : ∀ k ≤ n, ∀ i, ∃ stage, Paced srv (Fits (Q i)) i stage ((run k).clients i) (run k).store
  begun : ∀ k ≤ n, ∀ i, Begun programs i (run k)
  followed : ∀ k ≤ n, ∀ i, ∃ w, Followed srv (T i) (Q i) ((run k).clients i) (Known run k i) w

variable {locked : Event Op Ans → K → Prop} {run : ℕ → RowSystem Op Ans K R α} {n k m : ℕ}
  {e : Entry Op Ans K R} {past future : List (Entry Op Ans K R)}

theorem rest_of_run (h : IsRun srv run n) (hkm : k ≤ m) (hm : m ≤ n) (i : ℕ) :
    Program.Rest ((run k).clients i).program ((run m).clients i).program := by
  induction m, hkm using Nat.le_induction with
  | base => exact .refl _
  | succ m _ ih => exact (ih (by omega)).trans (rest_of_step (h m (by omega)) i)

theorem log_of_run (h : IsRun srv run n) (hkm : k ≤ m) (hm : m ≤ n) :
    (run k).store.log <+: (run m).store.log := by
  induction m, hkm using Nat.le_induction with
  | base => exact List.prefix_refl _
  | succ m _ ih => exact (ih (by omega)).trans (log_of_step (h m (by omega)))

/-- After an answer a client is still followed, if what it has open then is known. -/
theorem Followed.answered {known known' : History Op Ans → Prop} {Q : α → Follower Op Ans → Prop}
    {T' : History Op Ans → Op → Prop} {client : RowClient Op Ans α} {w : Follower Op Ans} {op : Op}
    {next : Ans op → Program Op Ans α} {answer : Ans op}
    (h : Followed srv T' Q client known w) (hknown : w.heard = [] ∨ known' w.heard)
    (connected : Bool) (inflight : Option Op) (hprogram : client.program = .call op next)
    (hopened : ∀ executed, (w.follow srv op answer).notes.opened = some executed →
      executed = [] ∨ known' executed) :
    ∃ w', Followed srv T' Q { client.answered srv op answer (next answer) with
      connected := connected, inflight := inflight } known' w' := by
  have hwp := h.program
  rw [hprogram] at hwp
  refine ⟨w.follow srv op answer, ?_, (hwp answer _ rfl).2, ?_, ?_⟩
  · show w.notes.note srv op answer = client.notes.note srv op answer
    rw [h.notes]
  · intro executed hexecuted
    show (w.follow srv op answer).notes.opened.getD w.heard = executed
    rw [hexecuted]
    rfl
  · have hheard : (w.follow srv op answer).heard =
        (w.follow srv op answer).notes.opened.getD w.heard := rfl
    rw [hheard]
    cases hnow : (w.follow srv op answer).notes.opened with
    | none => exact hknown
    | some executed => exact hopened executed hnow

/-- After a failure nothing is open. -/
theorem opened_follow_failed {w : Follower Op Ans} {op : Op} {answer : Ans op}
    (hrole : srv.role op ≠ .outside) (hok : srv.ok op answer = false) :
    (w.follow srv op answer).notes.opened = none := by
  show (w.notes.note srv op answer).opened = none
  rw [note_failed hrole hok]

/-- A client is followed through a step. -/
theorem Followed.step {known known' : History Op Ans → Prop} {Q : α → Follower Op Ans → Prop}
    {T' : History Op Ans → Op → Prop} {w : Follower Op Ans}
    (h : Followed srv T' Q (c.clients i) known w) (hstep : Step srv c c')
    (hmono : ∀ events, known events → known' events)
    (hagrees : ∀ executed, (c'.clients i).connected = true → (c'.store.sessions i).alive = true →
      (c'.clients i).notes.opened = some executed → known' executed) :
    ∃ w', Followed srv T' Q (c'.clients i) known' w' := by
  have hknown : w.heard = [] ∨ known' w.heard := h.known.imp_right (hmono w.heard)
  have hfailed : ∀ {op next answer} (connected : Bool) (inflight : Option Op),
      (c.clients i).program = .call op next → srv.role op ≠ .outside → srv.ok op answer = false →
      ∃ w', Followed srv T' Q { (c.clients i).answered srv op answer (next answer) with
        connected := connected, inflight := inflight } known' w' := by
    intro op next answer connected inflight hprogram hrole hok
    refine h.answered hknown connected inflight hprogram fun executed hexecuted => ?_
    rw [opened_follow_failed hrole hok] at hexecuted
    cases hexecuted
  have hself : ∀ {client : RowClient Op Ans α} {d : RowStore Op Ans K R},
      (c.put i client d).clients i = client := Function.update_self ..
  have hother : ∀ {j client} {d : RowStore Op Ans K R}, i ≠ j →
      ∃ w', Followed srv T' Q ((c.put j client d).clients i) known' w' := by
    intro j client d hj
    rw [show (c.put j client d).clients i = c.clients i from Function.update_of_ne hj _ _]
    exact ⟨w, h.notes, h.program, h.opened, hknown⟩
  have hkept : ∀ {inflight : Option Op},
      ∃ w', Followed srv T' Q { c.clients i with inflight := inflight } known' w' :=
    ⟨w, h.notes, h.program, h.opened, hknown⟩
  cases hstep with
  | @outside j op next answer hprogram hrole =>
      by_cases hj : i = j
      · subst hj
        rw [hself]
        refine h.answered hknown _ _ hprogram fun executed hexecuted => ?_
        have hsame : w.notes.note srv op answer = w.notes := by simp [Notes.note, hrole]
        rw [show (w.follow srv op answer).notes = w.notes from hsame] at hexecuted
        rw [← h.opened executed hexecuted]
        exact hknown
      · exact hother hj
  | @served j op next answer store hprogram hconnected halive hok hserves =>
      by_cases hj : i = j
      · subst hj
        rw [hself] at hagrees ⊢
        refine h.answered hknown _ _ hprogram fun executed hexecuted => ?_
        right
        apply hagrees executed hconnected (hserves.alive.trans halive)
        show ((c.clients i).notes.note srv op answer).opened = some executed
        rw [← h.notes]
        exact hexecuted
      · exact hother hj
  | failed j hprogram hrole hok =>
      by_cases hj : i = j
      · subst hj
        rw [hself]
        exact hfailed _ _ hprogram hrole hok
      · exact hother hj
  | aborted j hprogram hrole hok =>
      by_cases hj : i = j
      · subst hj
        rw [hself]
        exact hfailed _ _ hprogram hrole hok
      · exact hother hj
  | lost j hprogram hrole hok =>
      by_cases hj : i = j
      · subst hj
        rw [hself]
        exact hfailed _ _ hprogram hrole hok
      · exact hother hj
  | arrives j =>
      by_cases hj : i = j
      · subst hj
        rw [hself]
        exact hkept
      · exact hother hj
  | close j =>
      by_cases hj : i = j
      · subst hj
        rw [hself]
        exact hkept
      · exact hother hj

/-- Whatever is reached is reached by a run. -/
theorem run_of_reachable (h : Reachable srv c c') :
    ∃ (run : ℕ → RowSystem Op Ans K R α) (n : ℕ), run 0 = c ∧ run n = c' ∧ IsRun srv run n := by
  induction h with
  | refl => exact ⟨fun _ => c, 0, rfl, rfl, fun k hk => absurd hk (Nat.not_lt_zero k)⟩
  | @tail b c' _ hstep ih =>
      obtain ⟨run, n, hstart, hend, hrun⟩ := ih
      refine ⟨fun k => if k ≤ n then run k else c', n + 1, by simpa using hstart,
        if_neg (by omega), ?_⟩
      intro k hk
      rcases Nat.lt_or_eq_of_le (Nat.le_of_lt_succ hk) with hlt | rfl
      · simpa [show k ≤ n by omega, show k + 1 ≤ n by omega] using hrun k hlt
      · simpa [hend, show ¬ k + 1 ≤ k by omega] using hstep

/-- Runs of programs that were proved to be proper. -/
theorem timeline_of_run {Q : ℕ → α → Follower Op Ans → Prop}
    (hlocked : ∀ {op : Op} {answer : Ans op} {view : K → Option R} {counter : ℕ}
      {writes : K → Option R} {locks : K → Prop} {counter' : ℕ},
      srv.perform op view counter answer writes locks counter' → ∀ k, locked ⟨op, answer⟩ k → locks k)
    (hprograms : ∀ i, (programs i).wp (following srv) (Proper srv (T i)) (Q i) {})
    (h : IsRun srv run n) (hstart : run 0 = init programs rows₀ counter) :
    Timeline srv rows₀ T Q locked programs run n := by
  have htracked : ∀ k ≤ n,
      (run k).Tracked srv rows₀ T (fun _ _ _ => True) (RowStore.Guarded locked) := by
    intro k hk
    induction k with
    | zero =>
        rw [hstart]
        exact tracked_of_reachable (guarded_invariant hlocked) (guarded_fresh rows₀ counter)
          (fun i => demands_of_proper (hprograms i)) .refl
    | succ k ih => exact (ih (by omega)).step (guarded_invariant hlocked) (h k (by omega))
  refine ⟨h, ?_, htracked, ?_, ?_, ?_⟩
  · rw [hstart]
    exact ⟨rfl, fun _ => rfl⟩
  · intro k hk i
    induction k with
    | zero =>
        rw [hstart]
        exact ⟨.fresh, staged_of_proper (hprograms i), fun _ => rfl, nofun, nofun, nofun, nofun⟩
    | succ k ih =>
        obtain ⟨stage, hpaced⟩ := ih (by omega)
        exact hpaced.step (htracked k (by omega)) (h k (by omega))
  · intro k hk i
    induction k with
    | zero =>
        rw [hstart]
        exact ⟨.refl _, fun _ => ⟨rfl, rfl⟩⟩
    | succ k ih => exact (ih (by omega)).step (h k (by omega))
  · intro k hk i
    induction k with
    | zero =>
        rw [hstart]
        exact ⟨{}, rfl, hprograms i, nofun, Or.inl rfl⟩
    | succ k ih =>
        obtain ⟨w, hw⟩ := ih (by omega)
        apply hw.step (h k (by omega))
        · rintro events ⟨m, hm, hevents⟩
          exact ⟨m, by omega, hevents⟩
        · intro executed hconnected halive hopened
          have hagrees := ((htracked (k + 1) hk).agrees i).opened hconnected halive executed hopened
          exact ⟨k + 1, Nat.le_refl _, hagrees.2⟩

variable {Q : ℕ → α → Follower Op Ans → Prop} (h : Timeline srv rows₀ T Q locked programs run n)

include h

theorem Timeline.moves (hk : k < n) : Moves srv (run k).store (run (k + 1)).store :=
  (h.steps k hk).moves (h.paced k (by omega)) (h.tracked k (by omega))

/-- A client that has executed something has begun, and does not begin again. -/
theorem Timeline.started (hpending : ((run k).store.sessions i).pending ≠ []) (hk : k ≤ n)
    (hm : m ≤ n) (hwhole : ((run m).clients i).program = programs i) : m < k := by
  by_contra hkm
  have hrest := rest_of_run h.steps (Nat.le_of_not_lt hkm) hm i
  rw [hwhole] at hrest
  have hback := (h.begun k hk i).rest.antisymm hrest
  exact hpending ((h.begun k hk i).idle hback.symm).2

/-- The moment at which a pending statement was executed, after its client had begun. -/
theorem Timeline.executed_at (hk : k ≤ n)
    (hpending : ((run k).store.sessions i).pending = past ++ e :: future) :
    ∃ m < k, e.view = replay past (run m).store.rows ∧
      (run (m + 1)).store.rows = (run m).store.rows ∧
      ((run m).store.sessions i).pending = past ∧
      ∀ l ≤ n, ((run l).clients i).program = programs i → l ≤ m := by
  obtain ⟨m, hm, hview, hrows, hpast, hexecuted⟩ := Interaction.executed_at
    (f := fun k => (run k).store) (fun m hm => h.moves (by omega)) (h.start.2 i) hpending
  refine ⟨m, hm, hview, hrows, hpast, ?_⟩
  intro l hl hwhole
  have hlater := h.started hexecuted (by omega) hl hwhole
  omega

/-- The moment at which a statement came into the log, with its transaction. -/
theorem Timeline.committed_at (hm : m ≤ n) (hlogged : e ∈ (run m).store.log) :
    ∃ k < m, e ∈ ((run k).store.sessions e.client).pending ∧
      (run (k + 1)).store = (run k).store.commit e.client ∧
      ∀ l ≤ n, ((run l).clients e.client).program = programs e.client → l ≤ k := by
  obtain ⟨k, hk, i, hpending, hcommit⟩ := Interaction.committed_at
    (f := fun k => (run k).store) (fun k hk => h.moves (by omega)) h.start.1 hlogged
  obtain rfl := ((h.tracked k (by omega)).ruled.sound.executed i e hpending).2
  refine ⟨k, hk, hpending, hcommit, ?_⟩
  intro l hl hwhole
  have hlater := h.started (List.ne_nil_of_mem hpending) (by omega) hl hwhole
  omega

/-- What a client has returned, it has returned upon what was executed for it. -/
theorem Timeline.returned (hk : k ≤ n) {a : α} (hreturned : ((run k).clients i).program = .ret a) :
    ∃ w, w.notes = ((run k).clients i).notes ∧ Q i a w ∧ (w.heard = [] ∨ Known run k i w.heard) := by
  obtain ⟨w, hnotes, hwp, -, hknown⟩ := h.followed k hk i
  rw [hreturned] at hwp
  exact ⟨w, hnotes, hwp, hknown⟩

/-- A client that has returned, with something of it in the log, has sent its commit. -/
theorem Timeline.submitted (hk : k ≤ n) {a : α} (hreturned : ((run k).clients i).program = .ret a)
    (hlogged : e ∈ (run k).store.log) (hclient : e.client = i) :
    ∃ w, Follower.stage w = .submitted ∧ Q i a w := by
  obtain ⟨stage, hpaced⟩ := h.paced k hk i
  have hfits := hpaced.staged
  rw [hreturned] at hfits
  obtain ⟨w, hstage, hsays⟩ := hfits
  exact ⟨w, hstage.trans (hpaced.logged e hlogged hclient).1, hsays⟩

/-- A client commits once. -/
theorem Timeline.commit_once (hk : k < n) (hm : m < n)
    (hfirst : (run (k + 1)).store = (run k).store.commit i)
    (hdone : ((run k).store.sessions i).pending ≠ [])
    (hdone' : ((run m).store.sessions i).pending ≠ []) : m ≤ k := by
  by_contra hkm
  obtain ⟨e, he⟩ := List.exists_mem_of_ne_nil _ hdone
  have hclient : e.client = i := ((h.tracked k (by omega)).ruled.sound.executed i e he).2
  have hlogged : e ∈ (run m).store.log := by
    apply (log_of_run h.steps (show k + 1 ≤ m by omega) (by omega)).subset
    rw [hfirst]
    exact List.mem_append_right _ he
  obtain ⟨stage, hpaced⟩ := h.paced m (by omega) i
  exact hdone' (hpaced.logged e hlogged hclient).2.1

end RowSystem

end Warehouse.Interaction
