/-
# Warehouse.Mysql.ConnectionPool — the pool as a monitor

`connection_pool.cpp`.  The first part is what each function does to the members that the mutex
protects.  The second is the system around it: threads inside `acquire`, lease objects that are
moved, overwritten and destroyed, and factory calls that run without the lock.  One step is what
happens between taking the mutex and letting go of it, or one thing that happens outside it.

Executors are values of any type `E`; a `unique_ptr` is `Option E`.
-/
import Mathlib.Logic.Relation
import Warehouse.Interaction.WaitSet

namespace Warehouse.Mysql

open Warehouse.Interaction

/-! ## The protected members -/

/-- An executor in `available_`.  What `reusable()` said when it was given back is a ghost: no
function reads it. -/
structure Idle (E : Type) where
  executor : E
  wasReusable : Bool

/-- The members of `ConnectionPool`; the back of the vector is the end of the list. -/
structure ConnectionPool (E : Type) where
  capacity : ℕ
  available : List (Idle E) := []
  total : ℕ := 0
  stopping : Bool := false

namespace ConnectionPool

variable {E : Type}

/-- The constructor, which throws for an empty pool. -/
def make (capacity : ℕ) : Option (ConnectionPool E) :=
  if capacity = 0 then none else some { capacity := capacity }

/-- The predicate of the wait in `acquire`. -/
def ready (p : ConnectionPool E) : Bool :=
  p.stopping || !p.available.isEmpty || decide (p.total < p.capacity)

/-- What `acquire` does with a slot. -/
inductive Acquired (E : Type)
  | exhausted
  | leased (executor : E)
  | create

/-- `acquire` after the wait, up to where the mutex is released. -/
def acquire (p : ConnectionPool E) : Acquired E × ConnectionPool E :=
  if !p.ready || p.stopping then (.exhausted, p)
  else
    match p.available.getLast? with
    | some idle => (.leased idle.executor, { p with available := p.available.dropLast })
    -- the slot is taken before the factory is called
    | none => (.create, { p with total := p.total + 1 })

/-- `acquire` when the factory has returned an error. -/
def uncreate (p : ConnectionPool E) : ConnectionPool E := { p with total := p.total - 1 }

/-- `giveBack`, with what `reusable()` says of the executor. -/
def giveBack (p : ConnectionPool E) (executor : Option E) (reusable : Bool) : ConnectionPool E :=
  match executor with
  | some e =>
      if p.stopping || !reusable then { p with total := if p.total > 0 then p.total - 1 else p.total }
      else { p with available := p.available ++ [⟨e, reusable⟩] }
  | none => { p with total := if p.total > 0 then p.total - 1 else p.total }

end ConnectionPool

/-! ## Leases -/

/-- A `ConnectionLease` object: whether `pool_` is set, and `executor_`. -/
structure ConnectionLease (E : Type) where
  pool : Bool := false
  executor : Option E := none

namespace ConnectionLease

variable {E : Type}

/-- What a move takes out of its source, and what it leaves there. -/
def movedFrom (lease : ConnectionLease E) : ConnectionLease E × ConnectionLease E :=
  (lease, { pool := false, executor := none })

/-- `release`: gives the executor back, if there is a pool and an executor. -/
def release (lease : ConnectionLease E) (reusable : Bool) (p : ConnectionPool E) :
    ConnectionLease E × ConnectionPool E :=
  if lease.pool && lease.executor.isSome then
    ({ pool := false, executor := none }, p.giveBack lease.executor reusable)
  -- without an executor there is nothing to give back, and nobody is told
  else ({ lease with pool := false }, p)

end ConnectionLease

/-! ## The system -/

/-- Where a thread is in `acquire`: outside, blocked in the wait, woken from it by a notification or
otherwise, in the factory call, or about to call `notify_one` after the mutex was released. -/
inductive PoolThread
  | outside | waiting | woken | roused | creating | notifying
  deriving DecidableEq, Repr

/-- The thread may take the mutex and look at the pool. -/
def PoolThread.looks : PoolThread → Bool
  | .outside | .woken | .roused => true
  | _ => false

/-- How a call of the factory ends. -/
inductive FactoryOutcome (E : Type)
  | executor (e : E)
  | error
  | null
  | throws

/-- The pool, the threads, and the lease objects; a destroyed object is `none`. -/
structure PoolSystem (E : Type) where
  pool : ConnectionPool E
  threads : List PoolThread
  leases : List (Option (ConnectionLease E))

/-- `notify_one`: one of the blocked threads wakes up, if there is any. -/
def notifies (threads threads' : List PoolThread) : Prop :=
  (.waiting ∉ threads ∧ threads' = threads) ∨
    ∃ i, threads[i]? = some .waiting ∧ threads' = threads.set i .woken

/-- The executors of the live lease objects. -/
def held {E : Type} (leases : List (Option (ConnectionLease E))) : List E :=
  leases.filterMap fun lease => lease.bind ConnectionLease.executor

/-- All executors of the pool: the idle ones and the leased ones. -/
def PoolSystem.owned {E : Type} (s : PoolSystem E) : List E :=
  s.pool.available.map Idle.executor ++ held s.leases

/-- The lease objects after a move into a new object. -/
def moved {E : Type} (leases : List (Option (ConnectionLease E))) (j : ℕ)
    (source : ConnectionLease E) : List (Option (ConnectionLease E)) :=
  leases.set j (some source.movedFrom.2) ++ [some source.movedFrom.1]

/-- One step of the system.  `admitted` says how factory calls may end. -/
inductive PoolSystem.Step {E : Type} (admitted : FactoryOutcome E → Prop) :
    PoolSystem E → PoolSystem E → Prop
  /-- The predicate does not hold: the thread blocks. -/
  | block {s} (i : ℕ) {at_ : PoolThread} : s.threads[i]? = some at_ →
      at_.looks = true → s.pool.ready = false →
      Step admitted s { s with threads := s.threads.set i .waiting }
  /-- A blocked thread wakes up by itself, or because its time is over. -/
  | wake {s} (i : ℕ) : s.threads[i]? = some .waiting →
      Step admitted s { s with threads := s.threads.set i .roused }
  /-- The time is over, or the pool is stopping. -/
  | exhausted {s} (i : ℕ) {at_ : PoolThread} : s.threads[i]? = some at_ →
      at_.looks = true → s.pool.acquire = (.exhausted, s.pool) →
      Step admitted s { s with threads := s.threads.set i .outside }
  /-- An idle executor is leased. -/
  | lease {s} (i : ℕ) {at_ : PoolThread} {e : E} {p : ConnectionPool E} :
      s.threads[i]? = some at_ → at_.looks = true →
      s.pool.acquire = (.leased e, p) →
      Step admitted s
        ⟨p, s.threads.set i .outside, s.leases ++ [some { pool := true, executor := some e }]⟩
  /-- A slot is taken for a new executor, and the mutex released for the factory call. -/
  | create {s} (i : ℕ) {at_ : PoolThread} {p : ConnectionPool E} :
      s.threads[i]? = some at_ → at_.looks = true →
      s.pool.acquire = (.create, p) →
      Step admitted s { s with pool := p, threads := s.threads.set i .creating }
  /-- The factory returns an executor, which nobody else has. -/
  | created {s} (i : ℕ) {e : E} : s.threads[i]? = some .creating → admitted (.executor e) →
      e ∉ s.owned →
      Step admitted s { s with
        threads := s.threads.set i .outside
        leases := s.leases ++ [some { pool := true, executor := some e }] }
  /-- The factory returns an error: the slot is given up, and then somebody is notified. -/
  | failed {s} (i : ℕ) : s.threads[i]? = some .creating → admitted .error →
      Step admitted s { s with
        pool := s.pool.uncreate
        threads := s.threads.set i .notifying }
  | notified {s} (i : ℕ) {threads : List PoolThread} : s.threads[i]? = some .notifying →
      notifies (s.threads.set i .outside) threads →
      Step admitted s { s with threads := threads }
  /-- The factory reports success without an executor. -/
  | createdNull {s} (i : ℕ) : s.threads[i]? = some .creating → admitted .null →
      Step admitted s { s with
        threads := s.threads.set i .outside
        leases := s.leases ++ [some { pool := true, executor := none }] }
  /-- The factory throws. -/
  | thrown {s} (i : ℕ) : s.threads[i]? = some .creating → admitted .throws →
      Step admitted s { s with threads := s.threads.set i .outside }
  /-- A lease is moved into a new object. -/
  | move {s} (j : ℕ) {source : ConnectionLease E} : s.leases[j]? = some (some source) →
      Step admitted s { s with leases := moved s.leases j source }
  /-- A lease is assigned to another one, which releases what that one had. -/
  | assign {s} (i j : ℕ) {target source : ConnectionLease E} (reusable : Bool)
      {threads : List PoolThread} : i ≠ j →
      s.leases[i]? = some (some target) → s.leases[j]? = some (some source) →
      (if target.pool && target.executor.isSome then notifies s.threads threads
        else threads = s.threads) →
      Step admitted s
        ⟨(target.release reusable s.pool).2, threads,
          (s.leases.set i (some source.movedFrom.1)).set j (some source.movedFrom.2)⟩
  /-- A lease is destroyed. -/
  | destroy {s} (i : ℕ) {lease : ConnectionLease E} (reusable : Bool)
      {threads : List PoolThread} :
      s.leases[i]? = some (some lease) →
      (if lease.pool && lease.executor.isSome then notifies s.threads threads
        else threads = s.threads) →
      Step admitted s ⟨(lease.release reusable s.pool).2, threads, s.leases.set i none⟩

/-! ## Counting -/

/-- The threads in a factory call. -/
def creating (threads : List PoolThread) : ℕ := threads.count .creating

section Threads

variable {threads threads' : List PoolThread} {i : ℕ} {x : PoolThread}

theorem creating_set (h : threads[i]? = some x) (y : PoolThread) :
    creating (threads.set i y) + (if x = .creating then 1 else 0) =
      creating threads + (if y = .creating then 1 else 0) := by
  have hcount := countP_set h (fun thread => thread == .creating) y
  simp only [beq_iff_eq] at hcount
  exact hcount

/-- A thread that looks at the pool is in no factory call. -/
theorem creating_set_looks (h : threads[i]? = some x) (hlooks : x.looks = true) (y : PoolThread) :
    creating (threads.set i y) = creating threads + (if y = .creating then 1 else 0) := by
  have hset := creating_set h y
  have hne : x ≠ .creating := by
    rintro rfl
    cases hlooks
  rw [if_neg hne] at hset
  exact hset

/-- Waking somebody up changes no factory call. -/
theorem creating_notifies (h : notifies threads threads') : creating threads' = creating threads := by
  rcases h with ⟨_, rfl⟩ | ⟨i, hi, rfl⟩
  · rfl
  · have hset := creating_set hi .woken
    simpa using hset

end Threads

section Held

variable {E : Type} {leases : List (Option (ConnectionLease E))} {i j : ℕ}
  {lease source target : ConnectionLease E}

/-- The executor of one lease object. -/
def heldBy (lease : Option (ConnectionLease E)) : List E :=
  (lease.bind ConnectionLease.executor).toList

theorem held_eq_flatMap (leases : List (Option (ConnectionLease E))) :
    held leases = leases.flatMap heldBy := by
  unfold held
  induction leases with
  | nil => rfl
  | cons lease leases ih =>
      rw [List.flatMap_cons, ← ih]
      cases h : lease.bind ConnectionLease.executor <;> simp [heldBy, h]

theorem held_append (leases : List (Option (ConnectionLease E)))
    (lease : Option (ConnectionLease E)) : held (leases ++ [lease]) = held leases ++ heldBy lease := by
  simp [held_eq_flatMap]

/-- What one lease object holds and what the others hold. -/
theorem held_others {old : Option (ConnectionLease E)} (h : leases[i]? = some old) :
    ∃ rest, (held leases).Perm (heldBy old ++ rest) ∧
      ∀ new, (held (leases.set i new)).Perm (heldBy new ++ rest) := by
  obtain ⟨rest, hold, hnew⟩ := exists_others h
  refine ⟨rest.flatMap heldBy, ?_, fun new => ?_⟩
  · rw [held_eq_flatMap]
    exact hold.flatMap_right heldBy
  · rw [held_eq_flatMap]
    exact (hnew new).flatMap_right heldBy

/-- A move into a new object neither loses nor copies an executor. -/
theorem held_moved (h : leases[j]? = some (some source)) :
    (held (moved leases j source)).Perm (held leases) := by
  obtain ⟨rest, hold, hnew⟩ := held_others h
  unfold moved
  rw [held_append]
  refine ((hnew _).append_right _).trans (List.Perm.trans ?_ hold.symm)
  exact List.perm_append_comm

/-- A move assignment takes the place of what the target held. -/
theorem held_assigned (hij : i ≠ j) (hi : leases[i]? = some (some target))
    (hj : leases[j]? = some (some source)) :
    (heldBy (some target) ++
      held ((leases.set i (some source.movedFrom.1)).set j (some source.movedFrom.2))).Perm
      (held leases) := by
  obtain ⟨rest, hold, hnew⟩ := held_others hi
  have hj' : (leases.set i (some source.movedFrom.1))[j]? = some (some source) := by
    rw [List.getElem?_set_ne hij, hj]
  obtain ⟨rest', hold', hnew'⟩ := held_others hj'
  have hsame : (heldBy (some source) ++ rest).Perm (heldBy (some source) ++ rest') :=
    (hnew (some source)).symm.trans hold'
  have hrest : rest.Perm rest' := (List.perm_append_left_iff _).mp hsame
  refine ((hnew' _).append_left _).trans (List.Perm.trans ?_ hold.symm)
  exact hrest.symm.append_left _

end Held

/-! ## What each function keeps -/

section Functions

variable {E : Type} {p p' : ConnectionPool E} {e : E} {lease : ConnectionLease E}

theorem ConnectionPool.acquire_leased (h : p.acquire = (.leased e, p')) :
    ∃ idle rest, p.available = rest ++ [idle] ∧ idle.executor = e ∧
      p' = { p with available := rest } := by
  unfold acquire at h
  split at h
  · cases h
  · split at h
    · rename_i idle hlast
      cases h
      obtain ⟨rest, hrest⟩ := List.getLast?_eq_some_iff.mp hlast
      exact ⟨idle, rest, hrest, rfl, by simp [hrest]⟩
    · cases h

/-- A new executor is only created below the capacity. -/
theorem ConnectionPool.acquire_create (h : p.acquire = (.create, p')) :
    p.total < p.capacity ∧ p.stopping = false ∧ p' = { p with total := p.total + 1 } := by
  unfold acquire at h
  split at h
  · cases h
  · rename_i hopen
    split at h
    · cases h
    · rename_i hempty
      cases h
      have hnone : p.available = [] := List.getLast?_eq_none_iff.mp hempty
      simp [ready, hnone] at hopen
      exact ⟨by simpa [hopen.2] using hopen.1, hopen.2, rfl⟩

/-- Releasing a lease puts its executor among the idle ones, or drops it and its slot. -/
theorem ConnectionLease.release_spec (reusable : Bool)
    (hpooled : lease.executor.isSome → lease.pool = true)
    (hrunning : p.stopping = false) (hreleased : (lease.release reusable p).2 = p') :
    p'.capacity = p.capacity ∧ p'.stopping = false ∧
      (∀ idle ∈ p'.available, idle ∈ p.available ∨ idle.wasReusable = true) ∧
      ∃ dropped : List E,
        (p'.available.map Idle.executor ++ dropped).Perm
          (p.available.map Idle.executor ++ heldBy (some lease)) ∧
        p'.total = p.total - dropped.length := by
  subst hreleased
  cases hexecutor : lease.executor with
  | none =>
      simp only [release, heldBy, hexecutor]
      exact ⟨by simp, by simpa using hrunning, by simp +contextual, [], by simp [hexecutor]⟩
  | some e =>
      have hpool : lease.pool = true := hpooled (by simp [hexecutor])
      cases reusable with
      | true =>
          simp only [release, ConnectionPool.giveBack, hexecutor, hpool, hrunning]
          refine ⟨by simp, by simp, ?_, [], ?_, by simp⟩
          · intro idle hidle
            simp only [Option.isSome_some, Bool.and_self, if_true, Bool.not_true, Bool.or_self,
              Bool.false_eq_true, if_false, List.mem_append, List.mem_singleton] at hidle
            rcases hidle with hold | rfl
            · exact Or.inl hold
            · exact Or.inr rfl
          · simp [heldBy, hexecutor]
      | false =>
          simp only [release, ConnectionPool.giveBack, hexecutor, hpool, hrunning]
          refine ⟨by simp, by simp, by simp +contextual, [e], ?_, ?_⟩
          · simp [heldBy, hexecutor]
          · simp only [Option.isSome_some, Bool.and_self, if_true, Bool.not_false, Bool.or_true,
              List.length_singleton]
            split <;> omega

end Functions

/-! ## Conservation -/

namespace PoolSystem

section Conservation

variable {E : Type} {admitted : FactoryOutcome E → Prop} {capacity lost : ℕ} {s s' : PoolSystem E}

/-- Nothing has happened yet: an empty pool, threads outside of it, and no lease. -/
structure Initial (capacity : ℕ) (s : PoolSystem E) : Prop where
  pool : ConnectionPool.make capacity = some s.pool
  threads : ∀ thread ∈ s.threads, thread = .outside
  leases : s.leases = []

/-- The states that any interleaving leads to. -/
abbrev Reachable (admitted : FactoryOutcome E → Prop) : PoolSystem E → PoolSystem E → Prop :=
  Relation.ReflTransGen (Step admitted)

/-- Factory calls that yield an executor or an error. -/
def yields : FactoryOutcome E → Prop
  | .executor _ => True
  | .error => True
  | .null => False
  | .throws => False

/-- The invariant: every slot is an idle executor, a leased one, a factory call, or one of the `lost`
slots whose factory call brought neither an executor nor an error. -/
structure Sound (capacity lost : ℕ) (s : PoolSystem E) : Prop where
  fixed : s.pool.capacity = capacity
  running : s.pool.stopping = false
  counted : s.pool.total = s.owned.length + creating s.threads + lost
  bounded : s.pool.total ≤ capacity
  distinct : s.owned.Nodup
  reusable : ∀ idle ∈ s.pool.available, idle.wasReusable = true
  pooled : ∀ lease, some lease ∈ s.leases → lease.executor.isSome → lease.pool = true

theorem owned_length (s : PoolSystem E) :
    s.owned.length = s.pool.available.length + (held s.leases).length := by
  simp [owned]

theorem sound_init (h : s.Initial capacity) : s.Sound capacity 0 := by
  have hpool : s.pool = { capacity := capacity } := by
    have hmade := h.pool
    unfold ConnectionPool.make at hmade
    split at hmade
    · cases hmade
    · exact (Option.some.inj hmade).symm
  have hcreating : creating s.threads = 0 := by
    refine List.count_eq_zero.mpr fun hmem => ?_
    cases h.threads _ hmem
  have howned : s.owned = [] := by simp [owned, hpool, h.leases, held]
  exact
    { fixed := by rw [hpool]
      running := by rw [hpool]
      counted := by rw [howned, hcreating, hpool]; rfl
      bounded := by rw [hpool]; exact Nat.zero_le _
      distinct := by rw [howned]; exact List.nodup_nil
      reusable := by rw [hpool]; simp
      pooled := by rw [h.leases]; simp }

/-- A step that makes no executor: those that are dropped leave their slots, and the slots of
factory calls come and go with the calls, or are lost with them. -/
theorem Sound.update (h : s.Sound capacity lost) (dropped : List E) {lost' : ℕ}
    (hcapacity : s'.pool.capacity = s.pool.capacity) (hrunning : s'.pool.stopping = false)
    (howned : (s'.owned ++ dropped).Perm s.owned)
    (hcounted : s'.pool.total + dropped.length + creating s.threads + lost =
      s.pool.total + creating s'.threads + lost')
    (hbounded : s'.pool.total ≤ capacity)
    (hreusable : ∀ idle ∈ s'.pool.available, idle ∈ s.pool.available ∨ idle.wasReusable = true)
    (hpooled : ∀ lease, some lease ∈ s'.leases → lease.executor.isSome → lease.pool = true) :
    s'.Sound capacity lost' where
  fixed := hcapacity.trans h.fixed
  running := hrunning
  counted := by
    have hlength := howned.length_eq
    rw [List.length_append] at hlength
    have hold := h.counted
    omega
  bounded := hbounded
  distinct := (List.nodup_append.mp (howned.nodup_iff.mpr h.distinct)).1
  reusable := by
    intro idle hidle
    rcases hreusable idle hidle with hold | hnew
    · exact h.reusable idle hold
    · exact hnew
  pooled := hpooled

/-- A step in which only the threads move, and no factory call begins or ends. -/
theorem Sound.threads (h : s.Sound capacity lost) {threads : List PoolThread}
    (hcreating : creating threads = creating s.threads) :
    ({ s with threads := threads } : PoolSystem E).Sound capacity lost := by
  refine h.update [] rfl h.running (by rw [List.append_nil]; exact .refl _) ?_
    h.bounded (fun idle hidle => Or.inl hidle) h.pooled
  simp only [List.length_nil]
  omega

/-- A lease that is released, whatever becomes of the object. -/
theorem Sound.released (h : s.Sound capacity lost) {lease : ConnectionLease E} {reusable : Bool}
    {threads : List PoolThread} {leases : List (Option (ConnectionLease E))}
    (hlive : some lease ∈ s.leases)
    (hthreads : if lease.pool && lease.executor.isSome then notifies s.threads threads
      else threads = s.threads)
    (hheld : (heldBy (some lease) ++ held leases).Perm (held s.leases))
    (hpooled : ∀ lease, some lease ∈ leases → lease.executor.isSome → lease.pool = true) :
    (⟨(lease.release reusable s.pool).2, threads, leases⟩ : PoolSystem E).Sound capacity lost := by
  obtain ⟨hcapacity, hrunning, hreusable, dropped, hperm, htotal⟩ :=
    ConnectionLease.release_spec reusable (h.pooled lease hlive) h.running rfl
  have hcreating : creating threads = creating s.threads := by
    split at hthreads
    · exact creating_notifies hthreads
    · rw [hthreads]
  have howned : (((lease.release reusable s.pool).2.available.map Idle.executor ++ held leases) ++
      dropped).Perm s.owned := by
    rw [List.append_assoc]
    refine (List.perm_append_comm.append_left _).trans ?_
    rw [← List.append_assoc]
    refine (hperm.append_right _).trans ?_
    rw [List.append_assoc]
    exact hheld.append_left _
  have hlength := howned.length_eq
  rw [List.length_append] at hlength
  have hcounted := h.counted
  have hbounded := h.bounded
  refine h.update dropped hcapacity hrunning howned ?_ ?_ hreusable hpooled
  · change (lease.release reusable s.pool).2.total + _ + _ + lost = _ + creating threads + lost
    omega
  · change (lease.release reusable s.pool).2.total ≤ _
    omega

/-- What the leases of a list that changed in one place satisfy. -/
theorem pooled_set {leases : List (Option (ConnectionLease E))} {i : ℕ}
    {new : Option (ConnectionLease E)}
    (hold : ∀ lease, some lease ∈ leases → lease.executor.isSome → lease.pool = true)
    (hnew : ∀ lease, new = some lease → lease.executor.isSome → lease.pool = true) :
    ∀ lease, some lease ∈ leases.set i new → lease.executor.isSome → lease.pool = true := by
  intro lease hmem
  rcases List.mem_or_eq_of_mem_set hmem with hmem | heq
  · exact hold lease hmem
  · exact hnew lease heq.symm

theorem pooled_append {leases : List (Option (ConnectionLease E))}
    {new : Option (ConnectionLease E)}
    (hold : ∀ lease, some lease ∈ leases → lease.executor.isSome → lease.pool = true)
    (hnew : ∀ lease, new = some lease → lease.executor.isSome → lease.pool = true) :
    ∀ lease, some lease ∈ leases ++ [new] → lease.executor.isSome → lease.pool = true := by
  intro lease hmem
  rcases List.mem_append.mp hmem with hmem | hmem
  · exact hold lease hmem
  · exact hnew lease (List.mem_singleton.mp hmem).symm

theorem Sound.lease (h : s.Sound capacity lost) {i : ℕ} {at_ : PoolThread} {e : E}
    {p : ConnectionPool E} (hat : s.threads[i]? = some at_) (hwhere : at_.looks = true)
    (hacquired : s.pool.acquire = (.leased e, p)) :
    (⟨p, s.threads.set i .outside, s.leases ++ [some { pool := true, executor := some e }]⟩ :
      PoolSystem E).Sound capacity lost := by
  have hset : creating (s.threads.set i .outside) = creating s.threads := by
    simpa using creating_set_looks hat hwhere .outside
  obtain ⟨idle, rest, havailable, rfl, rfl⟩ := ConnectionPool.acquire_leased hacquired
  refine h.update [] rfl h.running ?_ ?_ h.bounded ?_ ?_
  · simp only [owned, havailable, held_append, List.map_append, List.append_nil,
      List.append_assoc]
    exact List.Perm.append_left _ List.perm_append_comm
  · change s.pool.total + 0 + creating s.threads + lost =
      _ + creating (s.threads.set i .outside) + lost
    omega
  · intro idle' hidle'
    exact Or.inl (by rw [havailable]; exact List.mem_append_left _ hidle')
  · exact pooled_append h.pooled (by rintro _ ⟨⟩ _; rfl)

/-- The slot of a factory call is counted as long as the call lasts. -/
theorem Sound.create (h : s.Sound capacity lost) {i : ℕ} {at_ : PoolThread}
    {p : ConnectionPool E} (hat : s.threads[i]? = some at_) (hwhere : at_.looks = true)
    (hacquired : s.pool.acquire = (.create, p)) :
    ({ s with pool := p, threads := s.threads.set i .creating } : PoolSystem E).Sound
      capacity lost := by
  have hset : creating (s.threads.set i .creating) = creating s.threads + 1 := by
    simpa using creating_set_looks hat hwhere .creating
  obtain ⟨hroom, _, rfl⟩ := ConnectionPool.acquire_create hacquired
  have hfixed := h.fixed
  refine h.update [] rfl h.running (by rw [List.append_nil]; exact .refl _) ?_ ?_
    (fun idle hidle => Or.inl hidle) h.pooled
  · change s.pool.total + 1 + 0 + creating s.threads + lost =
      s.pool.total + creating (s.threads.set i .creating) + lost
    omega
  · change s.pool.total + 1 ≤ capacity
    omega

theorem Sound.created (h : s.Sound capacity lost) {i : ℕ} {e : E}
    (hat : s.threads[i]? = some .creating) (hfresh : e ∉ s.owned) :
    ({ s with
      threads := s.threads.set i .outside
      leases := s.leases ++ [some { pool := true, executor := some e }] } : PoolSystem E).Sound
        capacity lost := by
  have hset : creating (s.threads.set i .outside) + 1 = creating s.threads := by
    simpa using creating_set hat .outside
  have hcounted := h.counted
  -- the new executor is in the hands of the new lease
  have howned : (s.pool.available.map Idle.executor ++
      held (s.leases ++ [some { pool := true, executor := some e }])) = s.owned ++ [e] := by
    simp [owned, held_append, heldBy]
  exact
    { fixed := h.fixed
      running := h.running
      counted := by
        change s.pool.total =
          List.length (_ ++ held (s.leases ++ _)) + creating (s.threads.set i _) + lost
        rw [howned, List.length_append, List.length_singleton]
        omega
      bounded := h.bounded
      distinct := by
        change (_ ++ held (s.leases ++ _)).Nodup
        rw [howned]
        exact List.nodup_append.mpr ⟨h.distinct, List.pairwise_singleton _ e,
          fun a ha b hb => by rintro rfl; exact hfresh (List.mem_singleton.mp hb ▸ ha)⟩
      reusable := h.reusable
      pooled := pooled_append h.pooled (by rintro _ ⟨⟩ _; rfl) }

theorem Sound.failed (h : s.Sound capacity lost) {i : ℕ}
    (hat : s.threads[i]? = some .creating) :
    ({ s with pool := s.pool.uncreate, threads := s.threads.set i .notifying } :
      PoolSystem E).Sound capacity lost := by
  have hset : creating (s.threads.set i .notifying) + 1 = creating s.threads := by
    simpa using creating_set hat .notifying
  have hcounted := h.counted
  have hbounded := h.bounded
  refine h.update [] rfl h.running (by rw [List.append_nil]; exact .refl _) ?_ ?_
    (fun idle hidle => Or.inl hidle) h.pooled
  · change s.pool.total - 1 + 0 + creating s.threads + lost =
      s.pool.total + creating (s.threads.set i .notifying) + lost
    omega
  · change s.pool.total - 1 ≤ capacity
    omega

/-- The lease that is returned has no executor to give back, and its slot stays taken. -/
theorem Sound.createdNull (h : s.Sound capacity lost) {i : ℕ}
    (hat : s.threads[i]? = some .creating) :
    ({ s with
      threads := s.threads.set i .outside
      leases := s.leases ++ [some { pool := true, executor := none }] } : PoolSystem E).Sound
        capacity (lost + 1) := by
  have hset : creating (s.threads.set i .outside) + 1 = creating s.threads := by
    simpa using creating_set hat .outside
  refine h.update [] rfl h.running ?_ ?_ h.bounded (fun idle hidle => Or.inl hidle) ?_
  · simp [owned, held_append, heldBy]
  · change s.pool.total + 0 + creating s.threads + lost =
      s.pool.total + creating (s.threads.set i .outside) + (lost + 1)
    omega
  · exact pooled_append h.pooled (by rintro _ ⟨⟩ hsome; cases hsome)

/-- The exception passes by the statement that gives the slot back. -/
theorem Sound.thrown (h : s.Sound capacity lost) {i : ℕ}
    (hat : s.threads[i]? = some .creating) :
    ({ s with threads := s.threads.set i .outside } : PoolSystem E).Sound capacity (lost + 1) := by
  have hset : creating (s.threads.set i .outside) + 1 = creating s.threads := by
    simpa using creating_set hat .outside
  refine h.update [] rfl h.running (by rw [List.append_nil]; exact .refl _) ?_ h.bounded
    (fun idle hidle => Or.inl hidle) h.pooled
  change s.pool.total + 0 + creating s.threads + lost =
    s.pool.total + creating (s.threads.set i .outside) + (lost + 1)
  omega

theorem Sound.move (h : s.Sound capacity lost) {j : ℕ} {source : ConnectionLease E}
    (hsource : s.leases[j]? = some (some source)) :
    ({ s with leases := moved s.leases j source } : PoolSystem E).Sound capacity lost := by
  refine h.update [] rfl h.running ?_ ?_ h.bounded (fun idle hidle => Or.inl hidle) ?_
  · rw [List.append_nil]
    exact (held_moved hsource).append_left _
  · rfl
  · refine pooled_append (pooled_set h.pooled ?_) ?_
    · rintro _ ⟨⟩ hsome
      cases hsome
    · rintro _ ⟨⟩
      exact h.pooled source (List.mem_of_getElem? hsource)

/-- One step, whoever takes it; a slot is lost where the factory reports success without an executor
or throws. -/
theorem Sound.step_or (h : s.Sound capacity lost) (hstep : Step admitted s s') :
    s'.Sound capacity lost ∨
      (s'.Sound capacity (lost + 1) ∧ ∃ outcome, admitted outcome ∧ ¬ yields outcome) := by
  cases hstep with
  | @block i at_ hat hwhere _ =>
      left
      refine h.threads ?_
      simpa using creating_set_looks hat hwhere .waiting
  | wake i hat =>
      left
      refine h.threads ?_
      simpa using creating_set hat .roused
  | @exhausted i at_ hat hwhere _ =>
      left
      refine h.threads ?_
      simpa using creating_set_looks hat hwhere .outside
  | lease i hat hwhere hacquired => exact Or.inl (h.lease hat hwhere hacquired)
  | create i hat hwhere hacquired => exact Or.inl (h.create hat hwhere hacquired)
  | created i hat _ hfresh => exact Or.inl (h.created hat hfresh)
  | failed i hat _ => exact Or.inl (h.failed hat)
  | @notified i threads hat hnotifies =>
      left
      refine h.threads ?_
      rw [creating_notifies hnotifies]
      simpa using creating_set hat .outside
  | createdNull i hat hnull =>
      exact Or.inr ⟨h.createdNull hat, .null, hnull, fun hyields => hyields⟩
  | thrown i hat hthrown =>
      exact Or.inr ⟨h.thrown hat, .throws, hthrown, fun hyields => hyields⟩
  | move j hsource => exact Or.inl (h.move hsource)
  | @assign i j target source reusable threads hij htarget hsource hthreads =>
      left
      refine h.released (List.mem_of_getElem? htarget) hthreads
        (held_assigned hij htarget hsource) (pooled_set (pooled_set h.pooled ?_) ?_)
      · rintro _ ⟨⟩
        exact h.pooled source (List.mem_of_getElem? hsource)
      · rintro _ ⟨⟩ hsome
        cases hsome
  | @destroy i lease reusable threads hlease hthreads =>
      left
      refine h.released (List.mem_of_getElem? hlease) hthreads ?_ (pooled_set h.pooled (by simp))
      obtain ⟨rest, hold, hnew⟩ := held_others hlease
      exact ((hnew none).append_left _).trans hold.symm

/-- No slot is lost while factory calls yield executors or errors. -/
theorem Sound.step (h : s.Sound capacity lost)
    (hadmitted : ∀ outcome, admitted outcome → yields outcome) (hstep : Step admitted s s') :
    s'.Sound capacity lost := by
  rcases h.step_or hstep with hsound | ⟨_, outcome, houtcome, hnot⟩
  · exact hsound
  · exact absurd (hadmitted outcome houtcome) hnot

/-- However factory calls end, the slots are accounted for. -/
theorem sound_of_reachable (hinit : s.Initial capacity) (hreach : Reachable admitted s s') :
    ∃ lost, s'.Sound capacity lost := by
  induction hreach with
  | refl => exact ⟨0, sound_init hinit⟩
  | tail _ hlast ih =>
      obtain ⟨lost, hsound⟩ := ih
      rcases hsound.step_or hlast with hsame | ⟨hmore, _⟩
      · exact ⟨lost, hsame⟩
      · exact ⟨lost + 1, hmore⟩

/-- Every interleaving. -/
theorem Sound.reachable (h : s.Sound capacity lost)
    (hadmitted : ∀ outcome, admitted outcome → yields outcome) (hreach : Reachable admitted s s') :
    s'.Sound capacity lost := by
  induction hreach with
  | refl => exact h
  | tail _ hlast ih => exact ih.step hadmitted hlast

/-- Conservation of slots.  In every state that threads and lease owners can bring about while
factory calls yield executors or errors, each slot is an idle executor, a leased one or a factory
call; no executor is in two places; every idle executor was reusable when it was given back; and
whoever is about to give one back finds a slot to give up. -/
theorem slots_conserved (hinit : s.Initial capacity) (hreach : Reachable yields s s') :
    s'.pool.total = s'.pool.available.length + (held s'.leases).length + creating s'.threads ∧
      s'.pool.total ≤ s'.pool.capacity ∧ s'.pool.capacity = capacity ∧
      (s'.pool.available.map Idle.executor ++ held s'.leases).Nodup ∧
      (∀ idle ∈ s'.pool.available, idle.wasReusable = true) ∧
      ∀ lease, some lease ∈ s'.leases → lease.pool = true → lease.executor.isSome →
        0 < s'.pool.total := by
  have hsound := (sound_init hinit).reachable (fun _ hyields => hyields) hreach
  have hcounted := hsound.counted
  rw [owned_length] at hcounted
  refine ⟨hcounted, hsound.fixed ▸ hsound.bounded, hsound.fixed, hsound.distinct, hsound.reusable, ?_⟩
  intro lease hlive _ hsome
  obtain ⟨e, he⟩ := Option.isSome_iff_exists.mp hsome
  have hheld : e ∈ held s'.leases := by
    unfold held
    exact List.mem_filterMap.mpr ⟨_, hlive, by simpa using he⟩
  have hlength := List.length_pos_of_mem hheld
  omega

end Conservation

/-- One thread in front of a pool for one executor. -/
private def alone : PoolSystem ℕ where
  pool := { capacity := 1 }
  threads := [.outside]
  leases := []

/-- The thread gets an executor and gives it back. -/
theorem slots_conserved_handedBack :
    ∃ s' : PoolSystem ℕ, Reachable yields alone s' ∧ s'.pool.available = [⟨7, true⟩] ∧
      s'.pool.total = 1 ∧ s'.pool.total ≤ s'.pool.capacity := by
  let s₁ : PoolSystem ℕ := ⟨{ capacity := 1, total := 1 }, [.creating], []⟩
  let s₂ : PoolSystem ℕ :=
    ⟨{ capacity := 1, total := 1 }, [.outside], [some { pool := true, executor := some 7 }]⟩
  let s₃ : PoolSystem ℕ :=
    ⟨{ capacity := 1, total := 1, available := [⟨7, true⟩] }, [.outside], [none]⟩
  have hcreate : Step yields alone s₁ := .create 0 rfl rfl rfl
  have hcreated : Step yields s₁ s₂ := .created 0 rfl trivial (by decide)
  have hnotifies : notifies s₂.threads s₃.threads := Or.inl ⟨by decide, rfl⟩
  have hlease : s₂.leases[0]? = some (some { pool := true, executor := some 7 }) := rfl
  have hdestroy : Step yields s₂ s₃ := .destroy 0 true hlease hnotifies
  have hreach : Reachable yields alone s₃ := .head hcreate (.head hcreated (.single hdestroy))
  have hinit : alone.Initial 1 := ⟨rfl, by simp [alone], rfl⟩
  obtain ⟨_, hbounded, _⟩ := slots_conserved hinit hreach
  exact ⟨s₃, hreach, rfl, rfl, hbounded⟩

end PoolSystem

end Warehouse.Mysql
