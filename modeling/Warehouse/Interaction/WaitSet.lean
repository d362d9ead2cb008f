/-
# Warehouse.Interaction.WaitSet — threads that wait for a condition

The threads of a monitor are a list of phases.  A `WaitSet` says which phases are blocked on a
condition variable and what a notification turns them into.  `Covered` is the inequality behind
"no wake-up is lost": as long as some thread is blocked, what there is for it does not exceed the
threads that were notified and have not run yet, and the notifications that are still due.

This module names nothing of the warehouse.
-/
import Mathlib.Data.List.Perm.Basic
import Mathlib.Tactic.Common

namespace Warehouse.Interaction

/-! ## Lists that change in one place -/

section Slots

variable {α : Type} {l : List α} {i : ℕ} {a : α}

/-- A list without its `i`-th element, whatever that is replaced by. -/
theorem exists_others (h : l[i]? = some a) :
    ∃ rest, l.Perm (a :: rest) ∧ ∀ b, (l.set i b).Perm (b :: rest) := by
  obtain ⟨hi, rfl⟩ := List.getElem?_eq_some_iff.mp h
  exact ⟨l.eraseIdx i, (List.getElem_cons_eraseIdx_perm hi).symm,
    fun b => List.set_perm_cons_eraseIdx hi b⟩

theorem countP_set (h : l[i]? = some a) (q : α → Bool) (b : α) :
    (l.set i b).countP q + (if q a then 1 else 0) = l.countP q + (if q b then 1 else 0) := by
  obtain ⟨hi, rfl⟩ := List.getElem?_eq_some_iff.mp h
  have hcounted : (if q l[i] then 1 else 0) ≤ l.countP q := by
    split
    · rename_i hq
      exact List.countP_pos_iff.mpr ⟨l[i], List.getElem_mem hi, hq⟩
    · exact Nat.zero_le _
  rw [List.countP_set hi]
  omega

/-- What a map makes of one element, and of the others. -/
theorem filterMap_others {β : Type} (h : l[i]? = some a) (f : α → Option β) :
    ∃ rest, (l.filterMap f).Perm ((f a).toList ++ rest) ∧
      ∀ b, ((l.set i b).filterMap f).Perm ((f b).toList ++ rest) := by
  obtain ⟨rest, hold, hnew⟩ := exists_others h
  refine ⟨rest.filterMap f, ?_, fun b => ?_⟩
  · refine (hold.filterMap f).trans ?_
    cases hfa : f a <;> simp [hfa]
  · refine ((hnew b).filterMap f).trans ?_
    cases hfb : f b <;> simp [hfb]

/-- An element other than the one that changed is still there. -/
theorem mem_set_of_ne {b c : α} (hc : c ∈ l) (h : l[i]? = some a) (hne : a ≠ c) : c ∈ l.set i b := by
  obtain ⟨j, hj⟩ := List.mem_iff_getElem?.mp hc
  have hij : i ≠ j := by
    rintro rfl
    rw [h] at hj
    exact hne (Option.some_inj.mp hj)
  exact List.mem_iff_getElem?.mpr ⟨j, by rw [List.getElem?_set_ne hij, hj]⟩

theorem getElem?_set_of_ne {b c : α} {j : ℕ} (hc : l[j]? = some c) (h : l[i]? = some a)
    (hne : a ≠ c) : (l.set i b)[j]? = some c := by
  have hij : i ≠ j := by
    rintro rfl
    rw [h] at hc
    exact hne (Option.some_inj.mp hc)
  rw [List.getElem?_set_ne hij, hc]

/-- The members of a list that changed in one place. -/
theorem forall_mem_set {P : α → Prop} {b : α} (hold : ∀ x ∈ l, P x) (hnew : P b) :
    ∀ x ∈ l.set i b, P x := by
  intro x hx
  rcases List.mem_or_eq_of_mem_set hx with hmem | rfl
  · exact hold x hmem
  · exact hnew

end Slots

/-! ## Conditions -/

/-- The phases of threads with respect to one condition variable. -/
structure WaitSet (P : Type) where
  blocked : P → Bool
  woken : P → Bool
  wake : P → P
  wake_blocked : ∀ p, blocked p = true → blocked (wake p) = false
  wake_woken : ∀ p, blocked p = true → woken (wake p) = true
  not_both : ∀ p, blocked p = true → woken p = false

namespace WaitSet

variable {P : Type} (c : WaitSet P)

/-- `notify_one`: one of the blocked threads is woken, if there is any. -/
def NotifyOne (threads threads' : List P) : Prop :=
  ((∀ p ∈ threads, c.blocked p = false) ∧ threads' = threads) ∨
    ∃ i p, threads[i]? = some p ∧ c.blocked p = true ∧ threads' = threads.set i (c.wake p)

/-- `notify_all` -/
def notifyAll (threads : List P) : List P := threads.map fun p => if c.blocked p then c.wake p else p

/-- The threads that were notified and have not run yet. -/
def coming (threads : List P) : ℕ := threads.countP c.woken

/-- While a thread is blocked, `supply` units of what it waits for are covered by the wake-ups on
their way: those that happened, and `due` more. -/
def Covered (supply due : ℕ) (threads : List P) : Prop :=
  (∃ p ∈ threads, c.blocked p = true) → supply ≤ c.coming threads + due

variable {c} {threads threads' : List P} {supply supply' due due' i : ℕ} {x y : P}

theorem covered_zero : c.Covered 0 due threads := fun _ => Nat.zero_le _

theorem covered_of_unblocked (h : ∀ p ∈ threads, c.blocked p = false) :
    c.Covered supply due threads := by
  rintro ⟨p, hp, hblocked⟩
  rw [h p hp] at hblocked
  cases hblocked

/-- The same threads, and no more to wait for than wake-ups were added. -/
theorem Covered.of_le (h : c.Covered supply due threads) (hle : supply' + due ≤ supply + due') :
    c.Covered supply' due' threads := by
  intro hblocked
  have hcovered := h hblocked
  omega

/-- One thread goes on without blocking. -/
theorem Covered.set (h : c.Covered supply due threads) (hx : threads[i]? = some x)
    (hy : c.blocked y = false)
    (hle : supply' + (if c.woken x then 1 else 0) + due ≤
      supply + (if c.woken y then 1 else 0) + due') :
    c.Covered supply' due' (threads.set i y) := by
  rintro ⟨p, hp, hblocked⟩
  rcases List.mem_or_eq_of_mem_set hp with hmem | rfl
  · have hcovered := h ⟨p, hmem, hblocked⟩
    have hcount := countP_set hx c.woken y
    unfold coming at hcovered ⊢
    omega
  · rw [hy] at hblocked
    cases hblocked

/-- One more unit, and one notification for it. -/
theorem Covered.notifyOne (h : c.Covered supply due threads) (hnotify : c.NotifyOne threads threads')
    (hle : supply' + due ≤ supply + 1 + due') : c.Covered supply' due' threads' := by
  rcases hnotify with ⟨hnone, rfl⟩ | ⟨i, p, hp, hblocked, rfl⟩
  · exact covered_of_unblocked hnone
  · intro _
    have hcovered := h ⟨p, List.mem_of_getElem? hp, hblocked⟩
    have hcount := countP_set hp c.woken (c.wake p)
    rw [c.not_both p hblocked, c.wake_woken p hblocked] at hcount
    unfold coming at hcovered ⊢
    simp only [Bool.false_eq_true, if_false, if_true] at hcount
    omega

/-- After `notify_all` nobody is blocked. -/
theorem notifyAll_unblocked (threads : List P) : ∀ p ∈ c.notifyAll threads, c.blocked p = false := by
  intro p hp
  obtain ⟨q, _, rfl⟩ := List.mem_map.mp hp
  cases hblocked : c.blocked q with
  | true =>
      rw [if_pos rfl]
      exact c.wake_blocked q hblocked
  | false =>
      rw [if_neg Bool.false_ne_true]
      exact hblocked

/-- A notification blocks nobody. -/
theorem NotifyOne.unblocked (hnotify : c.NotifyOne threads threads')
    (h : ∀ p ∈ threads, c.blocked p = false) : ∀ p ∈ threads', c.blocked p = false := by
  rcases hnotify with ⟨_, rfl⟩ | ⟨i, p, hp, hblocked, rfl⟩
  · exact h
  · exact forall_mem_set h (c.wake_blocked p hblocked)

/-- A notification does not change how many threads are in a class that waking up respects. -/
theorem NotifyOne.countP_eq (hnotify : c.NotifyOne threads threads') {q : P → Bool}
    (hq : ∀ p, c.blocked p = true → q (c.wake p) = q p) : threads'.countP q = threads.countP q := by
  rcases hnotify with ⟨_, rfl⟩ | ⟨i, p, hp, hblocked, rfl⟩
  · rfl
  · have hcount := countP_set hp q (c.wake p)
    rw [hq p hblocked] at hcount
    exact Nat.add_right_cancel hcount

end WaitSet

end Warehouse.Interaction
