/-
# Warehouse.Interaction.RowStore — transactions over rows that are locked one by one

A store of rows by key, as a database at READ COMMITTED keeps it.  A statement sees the committed
rows under the writes of its own transaction, locks every row that it writes, and keeps the locks
until the transaction ends.  What a transaction has executed is kept as a list of entries, and the
entries of committed transactions, in the order of the commits, are the log of the store.

The theorem of this module is that no update is lost: replayed from the first state, the log yields
the committed rows, and every write in it was computed from the very version that it replaces.

This module names nothing of the warehouse.
-/
import Mathlib.Logic.Function.Basic
import Mathlib.Logic.Relation
import Warehouse.Interaction.History

namespace Warehouse.Interaction

/-! ## Entries and logs -/

section Entries

variable {Op : Type} {Ans : Op → Type} {K R : Type}

/-- The execution of one statement: by whom, with which answer, what it saw, and what it wrote. -/
structure Entry (Op : Type) (Ans : Op → Type) (K R : Type) where
  client : ℕ
  event : Event Op Ans
  view : K → Option R
  writes : K → Option R

/-- The rows under the writes of an entry. -/
def Entry.apply (e : Entry Op Ans K R) (rows : K → Option R) : K → Option R :=
  fun k => (e.writes k).or (rows k)

/-- The rows under the writes of all entries, oldest first. -/
def replay (entries : List (Entry Op Ans K R)) (rows : K → Option R) : K → Option R :=
  entries.foldl (fun rows e => e.apply rows) rows

/-- Every write was computed from the version that it replaces. -/
def Faithful (rows : K → Option R) : List (Entry Op Ans K R) → Prop
  | [] => True
  | e :: entries => (∀ k, e.writes k ≠ none → e.view k = rows k) ∧ Faithful (e.apply rows) entries

variable {rows rows' : K → Option R} {entries first second : List (Entry Op Ans K R)}
  {e : Entry Op Ans K R} {k : K}

@[simp] theorem replay_nil : replay ([] : List (Entry Op Ans K R)) rows = rows := rfl

@[simp] theorem replay_cons : replay (e :: entries) rows = replay entries (e.apply rows) := rfl

theorem replay_append : replay (first ++ second) rows = replay second (replay first rows) := by
  unfold replay
  rw [List.foldl_append]

theorem faithful_append :
    Faithful rows (first ++ second) ↔ Faithful rows first ∧ Faithful (replay first rows) second := by
  induction first generalizing rows with
  | nil => simp [Faithful]
  | cons e first ih => simp only [List.cons_append, Faithful, ih, replay_cons, and_assoc]

theorem apply_of_none (h : e.writes k = none) : e.apply rows k = rows k := by
  unfold Entry.apply
  rw [h, Option.none_or]

/-- A key that no entry writes keeps its row. -/
theorem replay_of_none (h : ∀ e ∈ entries, e.writes k = none) : replay entries rows k = rows k := by
  induction entries generalizing rows with
  | nil => rfl
  | cons e entries ih =>
      rw [replay_cons, ih fun e' he' => h e' (List.mem_cons_of_mem _ he'),
        apply_of_none (h e List.mem_cons_self)]

/-- What has been written stays written. -/
theorem replay_ne_none (h : rows k ≠ none ∨ ∃ e ∈ entries, e.writes k ≠ none) :
    replay entries rows k ≠ none := by
  induction entries generalizing rows with
  | nil => simpa using h
  | cons e entries ih =>
      rw [replay_cons]
      apply ih
      have happlied : e.writes k ≠ none ∨ rows k ≠ none → e.apply rows k ≠ none := by
        intro hsome
        cases hwritten : e.writes k with
        | none => simpa [Entry.apply, hwritten] using hsome
        | some r => simp [Entry.apply, hwritten]
      rcases h with hrow | ⟨e', he', hk⟩
      · exact Or.inl (happlied (Or.inr hrow))
      · rcases List.mem_cons.mp he' with rfl | hlater
        · exact Or.inl (happlied (Or.inl hk))
        · exact Or.inr ⟨e', hlater, hk⟩

/-- Only the rows that are written matter. -/
theorem Faithful.congr (h : Faithful rows entries)
    (hsame : ∀ k, (∃ e ∈ entries, e.writes k ≠ none) → rows k = rows' k) : Faithful rows' entries := by
  induction entries generalizing rows rows' with
  | nil => trivial
  | cons e entries ih =>
      obtain ⟨hviews, hrest⟩ := h
      refine ⟨?_, ih hrest ?_⟩
      · intro k hk
        rw [hviews k hk]
        exact hsame k ⟨e, List.mem_cons_self, hk⟩
      · rintro k ⟨e', he', hk⟩
        unfold Entry.apply
        rw [hsame k ⟨e', List.mem_cons_of_mem _ he', hk⟩]

/-- A relation between versions of a row that every write of it meets, holds between the first
version and every later one. -/
theorem Faithful.evolves {Rel : Option R → Option R → Prop} [Std.Refl Rel] [IsTrans (Option R) Rel]
    (h : Faithful rows entries)
    (hwrites : ∀ e ∈ entries, ∀ r, e.writes k = some r → Rel (e.view k) (some r)) :
    Rel (rows k) (replay entries rows k) := by
  induction entries generalizing rows with
  | nil => exact refl_of Rel _
  | cons e entries ih =>
      obtain ⟨hviews, hrest⟩ := h
      have hlater := ih hrest fun e' he' => hwrites e' (List.mem_cons_of_mem _ he')
      refine trans_of Rel ?_ hlater
      cases hwritten : e.writes k with
      | none =>
          rw [apply_of_none hwritten]
          exact refl_of Rel _
      | some r =>
          unfold Entry.apply
          rw [hwritten, ← hviews k (by simp [hwritten])]
          exact hwrites e List.mem_cons_self r hwritten

end Entries

/-! ## The store and its sessions -/

/-- What an operation is to the transaction of its session; `outside` has nothing to do with the
store. -/
inductive TxRole
  | begins | commits | aborts | works | outside
  deriving DecidableEq

/-- The meaning of operations.  `perform op view counter answer writes locks counter'`: the
operation, seeing `view`, may give this answer, write these rows, lock these keys, and move the
counter of the store on. -/
structure RowServer (Op : Type) (Ans : Op → Type) (K R : Type) where
  role : Op → TxRole
  /-- Whether an answer says that the operation was performed. -/
  ok : (op : Op) → Ans op → Bool
  perform : (op : Op) → (K → Option R) → ℕ → Ans op → (K → Option R) → (K → Prop) → ℕ → Prop

/-- A session: its open transaction, with what that has executed and locked. -/
structure RowSession (Op : Type) (Ans : Op → Type) (K R : Type) where
  alive : Bool := true
  active : Bool := false
  pending : List (Entry Op Ans K R) := []
  locks : K → Prop := fun _ => False

/-- The committed rows, the counter, the sessions, and the log. -/
structure RowStore (Op : Type) (Ans : Op → Type) (K R : Type) where
  rows : K → Option R
  counter : ℕ
  sessions : ℕ → RowSession Op Ans K R := fun _ => {}
  log : List (Entry Op Ans K R) := []

section Store

variable {Op : Type} {Ans : Op → Type} {K R : Type}

/-- A session holds the rows that it has locked or written. -/
def RowSession.holds (s : RowSession Op Ans K R) (k : K) : Prop :=
  s.locks k ∨ ∃ e ∈ s.pending, e.writes k ≠ none

/-- A session without a transaction. -/
def RowSession.ended (s : RowSession Op Ans K R) : RowSession Op Ans K R :=
  { s with active := false, pending := [], locks := fun _ => False }

namespace RowStore

/-- The store with one session replaced. -/
def set (d : RowStore Op Ans K R) (i : ℕ) (s : RowSession Op Ans K R) : RowStore Op Ans K R :=
  { d with sessions := Function.update d.sessions i s }

/-- What a statement of a session sees. -/
def view (d : RowStore Op Ans K R) (i : ℕ) : K → Option R := replay (d.sessions i).pending d.rows

/-- The transaction of a session is committed. -/
def commit (d : RowStore Op Ans K R) (i : ℕ) : RowStore Op Ans K R :=
  { d.set i (d.sessions i).ended with
    rows := d.view i
    log := d.log ++ (d.sessions i).pending }

/-- The transaction of a session is rolled back. -/
def abort (d : RowStore Op Ans K R) (i : ℕ) : RowStore Op Ans K R := d.set i (d.sessions i).ended

/-- The server closes a session. -/
def close (d : RowStore Op Ans K R) (i : ℕ) : RowStore Op Ans K R :=
  d.set i { (d.sessions i).ended with alive := false }

/-- A transaction is opened; one that is open is committed before. -/
def activate (d : RowStore Op Ans K R) (i : ℕ) : RowStore Op Ans K R :=
  (d.commit i).set i { (d.sessions i).ended with active := true }

/-- A statement is executed. -/
def execute (d : RowStore Op Ans K R) (i : ℕ) (event : Event Op Ans) (writes : K → Option R)
    (locks : K → Prop) (counter : ℕ) : RowStore Op Ans K R :=
  { d.set i { d.sessions i with
      pending := (d.sessions i).pending ++ [⟨i, event, d.view i, writes⟩]
      locks := fun k => (d.sessions i).locks k ∨ locks k } with counter := counter }

variable (srv : RowServer Op Ans K R)

/-- The store performs an operation of a session.  A statement outside of a transaction is a
transaction of its own. -/
inductive Serves (d : RowStore Op Ans K R) (i : ℕ) (op : Op) (answer : Ans op) :
    RowStore Op Ans K R → Prop
  | begins : srv.role op = .begins → Serves d i op answer (d.activate i)
  | commits : srv.role op = .commits → Serves d i op answer (d.commit i)
  | aborts : srv.role op = .aborts → Serves d i op answer (d.abort i)
  | works {writes : K → Option R} {locks : K → Prop} {counter : ℕ} :
      srv.role op = .works → srv.perform op (d.view i) d.counter answer writes locks counter →
      (∀ k, writes k ≠ none ∨ locks k → ∀ j, j ≠ i → ¬ (d.sessions j).holds k) →
      Serves d i op answer
        (if (d.sessions i).active then d.execute i ⟨op, answer⟩ writes locks counter
          else (d.execute i ⟨op, answer⟩ writes locks counter).commit i)

/-! ## What a session sees after an operation -/

section Views

variable {srv} {d : RowStore Op Ans K R} {i : ℕ}

/-- A session that has executed nothing sees the committed rows. -/
theorem view_of_pending_nil (h : (d.sessions i).pending = []) : d.view i = d.rows := by
  unfold view
  rw [h, replay_nil]

/-- A session sees its own writes at once. -/
theorem view_execute (event : Event Op Ans) (writes : K → Option R) (locks : K → Prop)
    (counter : ℕ) :
    (d.execute i event writes locks counter).view i = fun k => (writes k).or (d.view i k) := by
  have hpending : ((d.execute i event writes locks counter).sessions i).pending =
      (d.sessions i).pending ++ [⟨i, event, d.view i, writes⟩] := by simp [execute, set]
  unfold view at *
  rw [hpending, replay_append]
  rfl

theorem execute_active (event : Event Op Ans) (writes : K → Option R) (locks : K → Prop)
    (counter : ℕ) :
    ((d.execute i event writes locks counter).sessions i).active = (d.sessions i).active := by
  simp [execute, set]

@[simp] theorem activate_active : ((d.activate i).sessions i).active = true := by
  simp [activate, set]

@[simp] theorem abort_active : ((d.abort i).sessions i).active = false := by
  simp [abort, set, RowSession.ended]

@[simp] theorem commit_active : ((d.commit i).sessions i).active = false := by
  simp [commit, set, RowSession.ended]

theorem activate_rows (h : (d.sessions i).pending = []) : (d.activate i).rows = d.rows :=
  view_of_pending_nil h

/-- A transaction begins with what is committed. -/
theorem activate_view (h : (d.sessions i).pending = []) : (d.activate i).view i = d.rows := by
  have hpending : ((d.activate i).sessions i).pending = [] := by
    simp [activate, set, RowSession.ended]
  rw [view_of_pending_nil hpending, activate_rows h]

/-- A statement inside a transaction is executed and stays pending. -/
theorem Serves.executed {d' : RowStore Op Ans K R} {op : Op} {answer : Ans op}
    (h : d.Serves srv i op answer d') (hrole : srv.role op = .works)
    (hactive : (d.sessions i).active = true) :
    ∃ writes locks counter, srv.perform op (d.view i) d.counter answer writes locks counter ∧
      (∀ k, writes k ≠ none ∨ locks k → ∀ j, j ≠ i → ¬ (d.sessions j).holds k) ∧
      d' = d.execute i ⟨op, answer⟩ writes locks counter := by
  cases h with
  | begins hother => simp [hother] at hrole
  | commits hother => simp [hother] at hrole
  | aborts hother => simp [hother] at hrole
  | works _ hperform hfree => exact ⟨_, _, _, hperform, hfree, if_pos hactive⟩

end Views

/-! ## No update is lost -/

variable {srv} {d d' : RowStore Op Ans K R} {i : ℕ} {rows₀ : K → Option R}

/-- The entry is an execution of its operation. -/
def Performed (srv : RowServer Op Ans K R) (e : Entry Op Ans K R) : Prop :=
  ∃ counter locks counter',
    srv.perform e.event.1 e.view counter e.event.2 e.writes locks counter'

/-- The invariant of the store, since it held `rows₀`. -/
structure Sound (srv : RowServer Op Ans K R) (rows₀ : K → Option R) (d : RowStore Op Ans K R) :
    Prop where
  log : Faithful rows₀ d.log
  rows : d.rows = replay d.log rows₀
  pending : ∀ i, Faithful d.rows (d.sessions i).pending
  exclusive : ∀ i j k, i ≠ j → (d.sessions i).holds k → ¬ (d.sessions j).holds k
  logged : ∀ e ∈ d.log, Performed srv e
  executed : ∀ i, ∀ e ∈ (d.sessions i).pending, Performed srv e ∧ e.client = i

@[simp] theorem set_self (s : RowSession Op Ans K R) : (d.set i s).sessions i = s := by
  simp [set]

theorem set_ne {j : ℕ} (h : j ≠ i) (s : RowSession Op Ans K R) :
    (d.set i s).sessions j = d.sessions j := by
  simp [set, h]

theorem not_holds_ended (s : RowSession Op Ans K R) (k : K) : ¬ s.ended.holds k := by
  simp [RowSession.ended, RowSession.holds]

/-- A session is replaced by one that has executed nothing more and holds nothing more. -/
theorem Sound.replace (h : d.Sound srv rows₀) {s : RowSession Op Ans K R} (hpending : s.pending = [])
    (hholds : ∀ k, ¬ s.holds k) : (d.set i s).Sound srv rows₀ where
  log := h.log
  rows := h.rows
  pending j := by
    by_cases hj : j = i
    · subst hj
      rw [set_self, hpending]
      trivial
    · rw [set_ne hj]
      exact h.pending j
  exclusive j l k hjl hj := by
    by_cases hji : j = i
    · subst hji
      rw [set_self] at hj
      exact absurd hj (hholds k)
    · rw [set_ne hji] at hj
      by_cases hli : l = i
      · subst hli
        rw [set_self]
        exact hholds k
      · rw [set_ne hli]
        exact h.exclusive j l k hjl hj
  logged := h.logged
  executed j e he := by
    by_cases hj : j = i
    · subst hj
      rw [set_self, hpending] at he
      cases he
    · rw [set_ne hj] at he
      exact h.executed j e he

theorem Sound.abort (h : d.Sound srv rows₀) : (d.abort i).Sound srv rows₀ :=
  h.replace rfl (not_holds_ended _)

theorem Sound.close (h : d.Sound srv rows₀) : (d.close i).Sound srv rows₀ :=
  h.replace rfl (not_holds_ended (d.sessions i))

/-- A commit moves what is pending into the log; nobody else has touched those rows. -/
theorem Sound.commit (h : d.Sound srv rows₀) : (d.commit i).Sound srv rows₀ := by
  have hreplaced : (d.set i (d.sessions i).ended).Sound srv rows₀ :=
    h.replace rfl (not_holds_ended _)
  refine
    { log := faithful_append.mpr ⟨h.log, h.rows ▸ h.pending i⟩
      rows := ?_
      pending := ?_
      exclusive := hreplaced.exclusive
      logged := ?_
      executed := hreplaced.executed }
  · change replay (d.sessions i).pending d.rows = replay (d.log ++ (d.sessions i).pending) rows₀
    rw [replay_append, ← h.rows]
  · intro j
    refine (hreplaced.pending j).congr ?_
    rintro k ⟨e, he, hk⟩
    by_cases hj : j = i
    · subst hj
      rw [set_self] at he
      cases he
    · rw [set_ne hj] at he
      have hheld : (d.sessions j).holds k := Or.inr ⟨e, he, hk⟩
      refine (replay_of_none fun e' he' => ?_).symm
      by_contra hwritten
      exact h.exclusive j i k hj hheld (Or.inr ⟨e', he', hwritten⟩)
  · intro e he
    rcases List.mem_append.mp he with he | he
    · exact h.logged e he
    · exact (h.executed i e he).1

theorem Sound.activate (h : d.Sound srv rows₀) : (d.activate i).Sound srv rows₀ :=
  h.commit.replace rfl (not_holds_ended (d.sessions i))

theorem Sound.execute (h : d.Sound srv rows₀) {e : Event Op Ans} {writes : K → Option R}
    {locks : K → Prop} {counter : ℕ}
    (hperform : srv.perform e.1 (d.view i) d.counter e.2 writes locks counter)
    (hfree : ∀ k, writes k ≠ none ∨ locks k → ∀ j, j ≠ i → ¬ (d.sessions j).holds k) :
    (d.execute i e writes locks counter).Sound srv rows₀ := by
  let entry : Entry Op Ans K R := ⟨i, e, d.view i, writes⟩
  let s : RowSession Op Ans K R := { d.sessions i with
    pending := (d.sessions i).pending ++ [entry]
    locks := fun k => (d.sessions i).locks k ∨ locks k }
  have hs : (d.execute i e writes locks counter).sessions i = s := by simp [RowStore.execute, set, s, entry]
  have hne : ∀ j, j ≠ i → (d.execute i e writes locks counter).sessions j = d.sessions j :=
    fun j hj => set_ne hj _
  -- what the session holds now, it held before or takes with this statement
  have hholds : ∀ k, s.holds k → (d.sessions i).holds k ∨ (writes k ≠ none ∨ locks k) := by
    rintro k ((hlock | hlock) | ⟨e, he, hk⟩)
    · exact Or.inl (Or.inl hlock)
    · exact Or.inr (Or.inr hlock)
    · rcases List.mem_append.mp he with he | he
      · exact Or.inl (Or.inr ⟨e, he, hk⟩)
      · obtain rfl := List.mem_singleton.mp he
        exact Or.inr (Or.inl hk)
  -- so nobody else holds any of it
  have hapart : ∀ j k, j ≠ i → s.holds k → ¬ (d.sessions j).holds k := by
    intro j k hj hk
    rcases hholds k hk with hold | hnew
    · exact h.exclusive i j k (Ne.symm hj) hold
    · exact hfree k hnew j hj
  refine
    { log := h.log
      rows := h.rows
      pending := ?_
      exclusive := ?_
      logged := h.logged
      executed := ?_ }
  · intro j
    by_cases hj : j = i
    · subst hj
      rw [hs]
      refine faithful_append.mpr ⟨h.pending j, fun k _ => rfl, trivial⟩
    · rw [hne j hj]
      exact h.pending j
  · intro j l k hjl hj
    by_cases hji : j = i
    · subst hji
      rw [hs] at hj
      rw [hne l (Ne.symm hjl)]
      exact hapart l k (Ne.symm hjl) hj
    · rw [hne j hji] at hj
      by_cases hli : l = i
      · subst hli
        rw [hs]
        exact fun hl => hapart j k hji hl hj
      · rw [hne l hli]
        exact h.exclusive j l k hjl hj
  · intro j e he
    by_cases hj : j = i
    · subst hj
      rw [hs] at he
      rcases List.mem_append.mp he with he | he
      · exact h.executed j e he
      · obtain rfl := List.mem_singleton.mp he
        exact ⟨⟨_, _, _, hperform⟩, rfl⟩
    · rw [hne j hj] at he
      exact h.executed j e he

/-- Whatever the store performs, no update is lost. -/
theorem Sound.serves {op : Op} {answer : Ans op} (h : d.Sound srv rows₀)
    (hserves : d.Serves srv i op answer d') : d'.Sound srv rows₀ := by
  cases hserves with
  | begins => exact h.activate
  | commits => exact h.commit
  | aborts => exact h.abort
  | works hrole hperform hfree =>
      have hexecuted := h.execute (e := ⟨op, answer⟩) hperform hfree
      split
      · exact hexecuted
      · exact hexecuted.commit

/-- A store in which nothing has been executed yet. -/
theorem sound_fresh (rows : K → Option R) (counter : ℕ) :
    ({ rows := rows, counter := counter } : RowStore Op Ans K R).Sound srv rows where
  log := trivial
  rows := rfl
  pending _ := trivial
  exclusive i j k _ hi := by simp [RowSession.holds] at hi
  logged e he := by cases he
  executed i e he := by cases he

end RowStore

end Store

end Warehouse.Interaction
