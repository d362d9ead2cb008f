/-
# Warehouse.Mysql.PoolWakeUps — nobody sleeps on a free connection

`acquire` blocks on the condition variable `changed_`; `giveBack` notifies one waiter under the
mutex, and `acquire` notifies one after the mutex when its factory call failed.  The inequality
below is inductive over the steps of `PoolSystem`, for every way in which factory calls may end.
-/
import Mathlib.Data.Int.Notation
import Warehouse.Mysql.ConnectionPool

namespace Warehouse.Mysql.PoolSystem

open Warehouse.Interaction

variable {E : Type} {admitted : FactoryOutcome E → Prop} {capacity lost : ℕ} {s s' : PoolSystem E}

/-! ## The condition -/

/-- The condition variable `changed_`. -/
def changed : WaitSet PoolThread where
  blocked thread := thread == .waiting
  woken thread := thread == .woken
  wake _ := .woken
  wake_blocked _ _ := rfl
  wake_woken _ _ := rfl
  not_both thread hblocked := by
    rw [beq_iff_eq.mp hblocked]
    rfl

theorem notifyOne_of_notifies {threads threads' : List PoolThread} (h : notifies threads threads') :
    changed.NotifyOne threads threads' := by
  rcases h with ⟨hnone, rfl⟩ | ⟨i, hi, rfl⟩
  · left
    refine ⟨fun thread hthread => beq_eq_false_iff_ne.mpr ?_, rfl⟩
    rintro rfl
    exact hnone hthread
  · exact Or.inr ⟨i, .waiting, hi, rfl, rfl⟩

/-- What a waiter can get: the idle executors, and the slots for new ones. -/
def supply (s : PoolSystem E) : ℕ := s.pool.capacity - s.pool.total + s.pool.available.length

/-- The notifications that failed calls of `acquire` still have to send. -/
def due (threads : List PoolThread) : ℕ := threads.countP fun thread => thread == .notifying

theorem due_set {threads : List PoolThread} {i : ℕ} {x : PoolThread} (h : threads[i]? = some x)
    (hx : x ≠ .notifying) {y : PoolThread} (hy : y ≠ .notifying) :
    due (threads.set i y) = due threads := by
  have hcount := countP_set h (fun thread => thread == .notifying) y
  rw [beq_eq_false_iff_ne.mpr hx, beq_eq_false_iff_ne.mpr hy] at hcount
  exact Nat.add_right_cancel hcount

theorem due_notifies {threads threads' : List PoolThread} (h : notifies threads threads') :
    due threads' = due threads := by
  refine (notifyOne_of_notifies h).countP_eq fun thread hblocked => ?_
  rw [beq_iff_eq.mp hblocked]
  rfl

theorem ne_notifying_of_looks {thread : PoolThread} (h : thread.looks = true) :
    thread ≠ .notifying := by
  rintro rfl
  cases h

/-- Where the predicate of the wait fails there is nothing to get. -/
theorem supply_of_not_ready (h : s.pool.ready = false) : s.supply = 0 := by
  simp only [ConnectionPool.ready, Bool.or_eq_false_iff, Bool.not_eq_false', List.isEmpty_iff,
    decide_eq_false_iff_not] at h
  obtain ⟨⟨_, hnone⟩, hfull⟩ := h
  unfold supply
  rw [hnone, List.length_nil]
  omega

/-- `acquire` gives up only where there is nothing to get. -/
theorem supply_of_exhausted (hsound : s.Sound capacity lost)
    (h : s.pool.acquire = (.exhausted, s.pool)) : s.supply = 0 := by
  apply supply_of_not_ready
  have hrunning := hsound.running
  unfold ConnectionPool.acquire at h
  rw [hrunning, Bool.or_false] at h
  split at h
  · rename_i hnot
    simpa using hnot
  · split at h <;> cases h

/-- A lease that is released leaves at most one more unit, and none if it is empty. -/
theorem supply_release (hsound : s.Sound capacity lost) {lease : ConnectionLease E}
    (hlive : some lease ∈ s.leases) (reusable : Bool) (threads : List PoolThread)
    (leases : List (Option (ConnectionLease E))) :
    supply ⟨(lease.release reusable s.pool).2, threads, leases⟩ ≤
      s.supply + if lease.pool && lease.executor.isSome then 1 else 0 := by
  obtain ⟨hcapacity, _, _, dropped, hperm, htotal⟩ :=
    ConnectionLease.release_spec reusable (hsound.pooled lease hlive) hsound.running rfl
  have hlength := hperm.length_eq
  simp only [List.length_append, List.length_map] at hlength
  have hbounded := hsound.bounded
  have hfixed := hsound.fixed
  have hone : (heldBy (some lease)).length =
      if lease.pool && lease.executor.isSome then 1 else 0 := by
    cases hexecutor : lease.executor with
    | none => simp [heldBy, hexecutor]
    | some e => simp [heldBy, hexecutor, hsound.pooled lease hlive (by simp [hexecutor])]
  show (lease.release reusable s.pool).2.capacity - (lease.release reusable s.pool).2.total +
    (lease.release reusable s.pool).2.available.length ≤ _
  rw [hcapacity, htotal, ← hone]
  unfold supply
  omega

/-! ## The inequality -/

/-- The invariant: what there is for the waiters is covered by wake-ups on their way. -/
def NoneForgotten (s : PoolSystem E) : Prop := changed.Covered s.supply (due s.threads) s.threads

/-- A thread that was not notified and owes nothing goes on, and leaves the pool as it is. -/
theorem NoneForgotten.goesOn (h : s.NoneForgotten) {i : ℕ} {x y : PoolThread}
    {leases : List (Option (ConnectionLease E))} (hx : s.threads[i]? = some x)
    (hwoken : changed.woken x = false) (howes : x ≠ .notifying)
    (hy : y ≠ .waiting ∧ y ≠ .notifying) :
    NoneForgotten ⟨s.pool, s.threads.set i y, leases⟩ := by
  refine h.set hx (beq_eq_false_iff_ne.mpr hy.1) ?_
  show s.supply + _ + _ ≤ s.supply + _ + due (s.threads.set i y)
  rw [due_set hx howes hy.2, hwoken]
  simp only [Bool.false_eq_true, if_false]
  omega

/-- The release of a lease, with its notification. -/
theorem NoneForgotten.released (h : s.NoneForgotten) (hsound : s.Sound capacity lost)
    {lease : ConnectionLease E} {reusable : Bool} {threads : List PoolThread}
    {leases : List (Option (ConnectionLease E))} (hlive : some lease ∈ s.leases)
    (hthreads : if lease.pool && lease.executor.isSome then notifies s.threads threads
      else threads = s.threads) :
    NoneForgotten ⟨(lease.release reusable s.pool).2, threads, leases⟩ := by
  have hsupply := supply_release hsound hlive reusable threads leases
  unfold NoneForgotten
  split at hthreads
  · rename_i hgiven
    rw [if_pos hgiven] at hsupply
    refine h.notifyOne (notifyOne_of_notifies hthreads) ?_
    show _ ≤ _ + due threads
    rw [due_notifies hthreads]
    omega
  · rename_i hempty
    rw [if_neg hempty] at hsupply
    subst hthreads
    refine h.of_le ?_
    show _ ≤ _ + due s.threads
    omega

/-- One step, whoever takes it. -/
theorem NoneForgotten.step (h : s.NoneForgotten) (hsound : s.Sound capacity lost)
    (hstep : Step admitted s s') : s'.NoneForgotten := by
  have hbounded := hsound.bounded
  have hfixed := hsound.fixed
  have hcounted := hsound.counted
  cases hstep with
  | @block i at_ hat hlooks hready =>
      have hnone : s.supply = 0 := supply_of_not_ready hready
      show changed.Covered s.supply _ _
      rw [hnone]
      exact WaitSet.covered_zero
  | wake i hat => exact h.goesOn hat rfl (by decide) (by decide)
  | @exhausted i at_ hat hlooks hexhausted =>
      have hnone : s.supply = 0 := supply_of_exhausted hsound hexhausted
      show changed.Covered s.supply _ _
      rw [hnone]
      exact WaitSet.covered_zero
  | @lease i at_ e p hat hlooks hacquired =>
      obtain ⟨idle, rest, havailable, _, rfl⟩ := ConnectionPool.acquire_leased hacquired
      -- one executor less, and one thread less that was roused for it
      have hsupply : s.supply = s.pool.capacity - s.pool.total + (rest.length + 1) := by
        unfold supply
        rw [havailable, List.length_append, List.length_singleton]
      refine h.set hat rfl ?_
      show s.pool.capacity - s.pool.total + rest.length + _ + _ ≤
        _ + _ + due (s.threads.set i .outside)
      rw [due_set hat (ne_notifying_of_looks hlooks) (by decide), hsupply]
      split <;> omega
  | @create i at_ p hat hlooks hacquired =>
      obtain ⟨hroom, _, rfl⟩ := ConnectionPool.acquire_create hacquired
      refine h.set hat rfl ?_
      show s.pool.capacity - (s.pool.total + 1) + s.pool.available.length + _ + _ ≤
        s.pool.capacity - s.pool.total + s.pool.available.length + _ +
          due (s.threads.set i .creating)
      rw [due_set hat (ne_notifying_of_looks hlooks) (by decide)]
      split <;> omega
  | @created i e hat _ _ => exact h.goesOn hat rfl (by decide) (by decide)
  | failed i hat _ =>
      -- the slot is free again before the mutex is taken for nobody: the notification is due
      have hcount := countP_set hat (fun thread => thread == .notifying) .notifying
      have hdue : due (s.threads.set i .notifying) = due s.threads + 1 := hcount
      have hcreating : 0 < creating s.threads :=
        List.count_pos_iff.mpr (List.mem_of_getElem? hat)
      refine h.set hat rfl ?_
      show s.pool.capacity - (s.pool.total - 1) + s.pool.available.length + 0 + due s.threads ≤
        s.pool.capacity - s.pool.total + s.pool.available.length + 0 +
          due (s.threads.set i .notifying)
      omega
  | @notified i threads hat hnotifies =>
      have hcount := countP_set hat (fun thread => thread == .notifying) .outside
      have hdue : due (s.threads.set i .outside) + 1 = due s.threads := hcount
      have hset : changed.Covered s.supply (due s.threads) (s.threads.set i .outside) :=
        h.set hat rfl (Nat.le_refl _)
      refine hset.notifyOne (notifyOne_of_notifies hnotifies) ?_
      show s.supply + _ ≤ s.supply + 1 + due threads
      rw [due_notifies hnotifies]
      omega
  | createdNull i hat _ => exact h.goesOn hat rfl (by decide) (by decide)
  | thrown i hat _ => exact h.goesOn hat rfl (by decide) (by decide)
  | move j hsource => exact h
  | @assign i j target source reusable threads hij htarget hsource hthreads =>
      exact h.released hsound (List.mem_of_getElem? htarget) hthreads
  | @destroy i lease reusable threads hlease hthreads =>
      exact h.released hsound (List.mem_of_getElem? hlease) hthreads

theorem noneForgotten_of_reachable (hinit : s.Initial capacity) (hreach : Reachable admitted s s') :
    s'.NoneForgotten := by
  induction hreach with
  | refl =>
      refine WaitSet.covered_of_unblocked fun thread hthread => ?_
      rw [hinit.threads thread hthread]
      rfl
  | tail hbefore hlast ih =>
      obtain ⟨lost, hsound⟩ := sound_of_reachable hinit hbefore
      exact ih.step hsound hlast

/-- No wake-up is lost.  In every state that any number of threads can bring about, however factory
calls end: while a thread is blocked, the idle executors and free slots do not exceed the waiters
that were notified and have not run yet together with the notifications that failed calls of
`acquire` still owe; so where there is something to get, a wake-up is on its way. -/
theorem noLostWakeUp (hinit : s.Initial capacity) (hreach : Reachable admitted s s')
    (hblocked : .waiting ∈ s'.threads) :
    (s'.pool.capacity : ℤ) - s'.pool.total + s'.pool.available.length ≤
        s'.threads.count .woken + s'.threads.count .notifying ∧
      (s'.pool.ready = true → 0 < s'.threads.count .woken + s'.threads.count .notifying) := by
  obtain ⟨lost, hsound⟩ := sound_of_reachable hinit hreach
  have hcovered : s'.supply ≤ s'.threads.count .woken + s'.threads.count .notifying :=
    noneForgotten_of_reachable hinit hreach ⟨.waiting, hblocked, rfl⟩
  have hbounded := hsound.bounded
  have hfixed := hsound.fixed
  unfold supply at hcovered
  constructor
  · omega
  · intro hready
    have hsome : s'.pool.available ≠ [] ∨ s'.pool.total < s'.pool.capacity := by
      simpa [ConnectionPool.ready, hsound.running] using hready
    rcases hsome with hidle | hroom
    · have hlength := List.length_pos_iff.mpr hidle
      omega
    · omega

/-- Three threads in front of a pool for one executor. -/
private def crowd : PoolSystem ℕ where
  pool := { capacity := 1 }
  threads := [.outside, .outside, .outside]
  leases := []

/-- One thread has the executor, two wait for it, and it is given back: one of them stays blocked,
and the other one is on its way. -/
theorem noLostWakeUp_handedBack :
    ∃ s' : PoolSystem ℕ, Reachable yields crowd s' ∧ s'.threads = [.outside, .woken, .waiting] ∧
      s'.pool.ready = true ∧ 0 < s'.threads.count .woken + s'.threads.count .notifying := by
  let s₁ : PoolSystem ℕ := ⟨{ capacity := 1, total := 1 }, [.creating, .outside, .outside], []⟩
  let s₂ : PoolSystem ℕ := ⟨{ capacity := 1, total := 1 }, [.outside, .outside, .outside],
    [some { pool := true, executor := some 7 }]⟩
  let s₃ : PoolSystem ℕ := { s₂ with threads := [.outside, .waiting, .outside] }
  let s₄ : PoolSystem ℕ := { s₂ with threads := [.outside, .waiting, .waiting] }
  let s₅ : PoolSystem ℕ :=
    ⟨{ capacity := 1, total := 1, available := [⟨7, true⟩] }, [.outside, .woken, .waiting], [none]⟩
  have hcreate : Step yields crowd s₁ := .create 0 rfl rfl rfl
  have hcreated : Step yields s₁ s₂ := .created 0 rfl trivial (by decide)
  have hfirst : Step yields s₂ s₃ := .block 1 rfl rfl rfl
  have hsecond : Step yields s₃ s₄ := .block 2 rfl rfl rfl
  have hnotifies : notifies s₄.threads s₅.threads := Or.inr ⟨1, rfl, rfl⟩
  have hlease : s₄.leases[0]? = some (some { pool := true, executor := some 7 }) := rfl
  have hdestroy : Step yields s₄ s₅ := .destroy 0 true hlease hnotifies
  have hreach : Reachable yields crowd s₅ :=
    .head hcreate (.head hcreated (.head hfirst (.head hsecond (.single hdestroy))))
  have hinit : crowd.Initial 1 := ⟨rfl, by simp [crowd], rfl⟩
  have hblocked : .waiting ∈ s₅.threads := by decide
  exact ⟨s₅, hreach, rfl, rfl, (noLostWakeUp hinit hreach hblocked).2 rfl⟩

end Warehouse.Mysql.PoolSystem
