/-
# Warehouse.Mysql.PoolSlots — what a failing `acquire` does to the slots

The accounts of the pool.  `Run` is a history of the pool system together with the way each factory
call of it ended, and `FailedCall` is one call of `acquire` that leaves its caller without an
executor: its own steps, with any steps of the others in between.  What the call did to `total_` and
`available_` is the sum over its own steps.

A factory call that returns an error gives its slot back.  One that throws unwinds past the
`--total_`, and one that reports success without an executor relies on the lease, whose `release`
only gives back what is there; both keep their slot for good.
-/
import Mathlib.Algebra.Ring.Int.Defs
import Mathlib.Algebra.Ring.Nat
import Warehouse.Mysql.ConnectionPool

namespace Warehouse.Mysql.PoolSystem

variable {E : Type} {capacity lost i : ℕ} {s s' s₀ t u : PoolSystem E}
  {outcome : FactoryOutcome E} {outcomes : List (FactoryOutcome E)}

/-! ## Runs with the outcomes of their factory calls -/

/-- What the end of the factory call of thread `i` makes of the system. -/
def ended (s : PoolSystem E) (i : ℕ) : FactoryOutcome E → PoolSystem E
  | .executor e => { s with
      threads := s.threads.set i .outside
      leases := s.leases ++ [some { pool := true, executor := some e }] }
  | .error => { s with
      pool := s.pool.uncreate
      threads := s.threads.set i .notifying }
  | .null => { s with
      threads := s.threads.set i .outside
      leases := s.leases ++ [some { pool := true, executor := none }] }
  | .throws => { s with threads := s.threads.set i .outside }

/-- The factory call of thread `i` ends; an executor that it returns is new. -/
structure FactoryEnds (i : ℕ) (outcome : FactoryOutcome E) (s s' : PoolSystem E) : Prop where
  inFactory : s.threads[i]? = some .creating
  fresh : ∀ e, outcome = .executor e → e ∉ s.owned
  result : s' = s.ended i outcome

/-- Steps of any threads and lease owners, with the outcomes of the factory calls among them. -/
inductive Run : List (FactoryOutcome E) → PoolSystem E → PoolSystem E → Prop
  | start (s : PoolSystem E) : Run [] s s
  | other {outcomes : List (FactoryOutcome E)} {s t u : PoolSystem E} :
      Run outcomes s t → Step (fun _ => False) t u → Run outcomes s u
  | factory {outcomes : List (FactoryOutcome E)} {s t u : PoolSystem E} {i : ℕ}
      {outcome : FactoryOutcome E} :
      Run outcomes s t → FactoryEnds i outcome t u → Run (outcomes ++ [outcome]) s u

theorem FactoryEnds.step {admitted : FactoryOutcome E → Prop} (h : FactoryEnds i outcome s s')
    (hadmitted : admitted outcome) : Step admitted s s' := by
  obtain ⟨hcreating, hfresh, rfl⟩ := h
  cases outcome with
  | executor e => exact .created i hcreating hadmitted (hfresh e rfl)
  | error => exact .failed i hcreating hadmitted
  | null => exact .createdNull i hcreating hadmitted
  | throws => exact .thrown i hcreating hadmitted

/-- A step ends a factory call, or does not depend on how such calls may end. -/
theorem Step.other_or_ends {admitted : FactoryOutcome E → Prop} (h : Step admitted s s') :
    (∀ admitted' : FactoryOutcome E → Prop, Step admitted' s s') ∨
      ∃ i outcome, admitted outcome ∧ FactoryEnds i outcome s s' := by
  cases h with
  | block i hat hlooks hready => exact Or.inl fun _ => .block i hat hlooks hready
  | wake i hat => exact Or.inl fun _ => .wake i hat
  | exhausted i hat hlooks hacquired => exact Or.inl fun _ => .exhausted i hat hlooks hacquired
  | lease i hat hlooks hacquired => exact Or.inl fun _ => .lease i hat hlooks hacquired
  | create i hat hlooks hacquired => exact Or.inl fun _ => .create i hat hlooks hacquired
  | @created i e hat hadmitted hfresh =>
      refine Or.inr ⟨i, .executor e, hadmitted, hat, ?_, rfl⟩
      intro e' he'
      cases he'
      exact hfresh
  | failed i hat hadmitted => exact Or.inr ⟨i, .error, hadmitted, hat, nofun, rfl⟩
  | notified i hat hnotifies => exact Or.inl fun _ => .notified i hat hnotifies
  | createdNull i hat hadmitted => exact Or.inr ⟨i, .null, hadmitted, hat, nofun, rfl⟩
  | thrown i hat hadmitted => exact Or.inr ⟨i, .throws, hadmitted, hat, nofun, rfl⟩
  | move j hsource => exact Or.inl fun _ => .move j hsource
  | assign i j reusable hij htarget hsource hthreads =>
      exact Or.inl fun _ => .assign i j reusable hij htarget hsource hthreads
  | destroy i reusable hlease hthreads =>
      exact Or.inl fun _ => .destroy i reusable hlease hthreads

/-- Any interleaving is a run. -/
theorem run_of_reachable {admitted : FactoryOutcome E → Prop} (h : Reachable admitted s s') :
    ∃ outcomes, Run outcomes s s' ∧ ∀ outcome ∈ outcomes, admitted outcome := by
  induction h with
  | refl => exact ⟨[], .start s, by simp⟩
  | tail _ hlast ih =>
      obtain ⟨outcomes, hrun, hadmitted⟩ := ih
      rcases hlast.other_or_ends with hother | ⟨i, outcome, houtcome, hends⟩
      · exact ⟨outcomes, hrun.other (hother _), hadmitted⟩
      · refine ⟨outcomes ++ [outcome], hrun.factory hends, ?_⟩
        intro o ho
        rcases List.mem_append.mp ho with hold | hnew
        · exact hadmitted o hold
        · rw [List.mem_singleton.mp hnew]
          exact houtcome

theorem Run.reachable (h : Run outcomes s s') : Reachable (fun _ => True) s s' := by
  induction h with
  | start s => exact .refl
  | other _ hstep ih =>
      rcases hstep.other_or_ends with hother | ⟨_, _, hfalse, _⟩
      · exact ih.tail (hother _)
      · exact hfalse.elim
  | factory _ hends ih => exact ih.tail (hends.step trivial)

/-! ## Counting the slots that are lost -/

/-- The slots that the end of a factory call loses. -/
def slotsLost : FactoryOutcome E → ℕ
  | .executor _ | .error => 0
  | .null | .throws => 1

theorem slotsLost_eq_zero_iff (outcome : FactoryOutcome E) : slotsLost outcome = 0 ↔ yields outcome := by
  cases outcome <;> simp [slotsLost, yields]

/-- The accounts after a factory call. -/
theorem Sound.factoryEnds (h : s.Sound capacity lost) (hends : FactoryEnds i outcome s s') :
    s'.Sound capacity (lost + slotsLost outcome) := by
  have hcounted := h.counted
  have hstep : Step (· = outcome) s s' := hends.step rfl
  by_cases hyields : yields outcome
  · rw [(slotsLost_eq_zero_iff outcome).mpr hyields]
    refine h.step ?_ hstep
    intro o (ho : o = outcome)
    rw [ho]
    exact hyields
  rcases h.step_or hstep with hsame | ⟨hmore, _⟩
  · -- the thread has left the factory call, and nothing else has changed
    exfalso
    have hcounted' := hsame.counted
    obtain ⟨hcreating, -, rfl⟩ := hends
    have hset : creating (s.threads.set i .outside) + 1 = creating s.threads := by
      simpa using creating_set hcreating .outside
    cases outcome with
    | executor e => exact hyields trivial
    | error => exact hyields trivial
    | null =>
        have howned : (s.ended i .null).owned = s.owned := by
          simp [owned, ended, held_append, heldBy]
        rw [howned] at hcounted'
        change s.pool.total = s.owned.length + creating (s.threads.set i .outside) + lost at hcounted'
        omega
    | throws =>
        change s.pool.total = s.owned.length + creating (s.threads.set i .outside) + lost at hcounted'
        omega
  · have hone : slotsLost outcome = 1 := by
      cases outcome with
      | executor e => exact absurd trivial hyields
      | error => exact absurd trivial hyields
      | null => rfl
      | throws => rfl
    rw [hone]
    exact hmore

/-- The accounts after a run. -/
theorem sound_of_run (hinit : s₀.Initial capacity) (hrun : Run outcomes s₀ s) :
    s.Sound capacity (outcomes.map slotsLost).sum := by
  induction hrun with
  | start s => exact sound_init hinit
  | other _ hstep ih => exact (ih hinit).step (fun _ hfalse => hfalse.elim) hstep
  | factory _ hends ih =>
      have hsound := (ih hinit).factoryEnds hends
      simpa using hsound

/-- The executors that the pool has, is about to get and could still get. -/
def handsOut (s : PoolSystem E) : ℕ :=
  s.owned.length + creating s.threads + (s.pool.capacity - s.pool.total)

/-- The slots that the pool started with are those it can still use and the lost ones. -/
theorem Sound.handsOut (h : s.Sound capacity lost) : s.handsOut + lost = capacity := by
  have hcounted := h.counted
  have hbounded := h.bounded
  have hfixed := h.fixed
  show s.owned.length + creating s.threads + (s.pool.capacity - s.pool.total) + lost = capacity
  omega

/-! ## One failing call -/

/-- Thread `i` gives up: the time is over. -/
structure Exhausts (i : ℕ) (s s' : PoolSystem E) : Prop where
  looks : ∃ phase, s.threads[i]? = some phase ∧ phase.looks = true
  acquired : s.pool.acquire = (.exhausted, s.pool)
  result : s' = { s with threads := s.threads.set i .outside }

/-- Thread `i` reserves a slot for a new executor. -/
structure TakesSlot (i : ℕ) (s s' : PoolSystem E) : Prop where
  looks : ∃ phase, s.threads[i]? = some phase ∧ phase.looks = true
  acquired : s.pool.acquire = (.create, s'.pool)
  result : s' = { s with pool := s'.pool, threads := s.threads.set i .creating }

/-- Thread `i` notifies, after its factory call returned an error. -/
structure Notifies (i : ℕ) (s s' : PoolSystem E) : Prop where
  notifying : s.threads[i]? = some .notifying
  woken : notifies (s.threads.set i .outside) s'.threads
  result : s' = { s with threads := s'.threads }

/-- A lease without an executor is destroyed. -/
structure DropsEmpty (j : ℕ) (s s' : PoolSystem E) : Prop where
  empty : ∃ lease, s.leases[j]? = some (some lease) ∧ lease.executor = none
  result : s' = { s with leases := s.leases.set j none }

/-- A call of `acquire` by thread `i` that leaves the caller without an executor: how the factory
call ended if there was one, the steps of the call itself, and where they begin and end.  In between
the others take any steps; the lease that a call returned is destroyed at its end. -/
inductive FailedCall (i : ℕ) : Option (FactoryOutcome E) → List (PoolSystem E × PoolSystem E) →
    PoolSystem E → PoolSystem E → Prop
  | exhausted {s t : PoolSystem E} : Exhausts i s t → FailedCall i none [(s, t)] s t
  | error {s t u v w x : PoolSystem E} : TakesSlot i s t → Reachable (fun _ => True) t u →
      FactoryEnds i .error u v → Reachable (fun _ => True) v w → Notifies i w x →
      FailedCall i (some .error) [(s, t), (u, v), (w, x)] s x
  | null (j : ℕ) {s t u v w x : PoolSystem E} : TakesSlot i s t → Reachable (fun _ => True) t u →
      FactoryEnds i .null u v → Reachable (fun _ => True) v w → DropsEmpty j w x →
      FailedCall i (some .null) [(s, t), (u, v), (w, x)] s x
  | throws {s t u v : PoolSystem E} : TakesSlot i s t → Reachable (fun _ => True) t u →
      FactoryEnds i .throws u v →
      FailedCall i (some .throws) [(s, t), (u, v)] s v

/-- What a call does to `total_`, with all its own steps. -/
def effectOnTotal (own : List (PoolSystem E × PoolSystem E)) : ℤ :=
  (own.map fun step => (step.2.pool.total : ℤ) - step.1.pool.total).sum

/-- What a call does to the size of `available_`. -/
def effectOnAvailable (own : List (PoolSystem E × PoolSystem E)) : ℤ :=
  (own.map fun step => (step.2.pool.available.length : ℤ) - step.1.pool.available.length).sum

section Calls

variable {called : Option (FactoryOutcome E)} {own : List (PoolSystem E × PoolSystem E)}

theorem TakesSlot.step (h : TakesSlot i s t) : Step (fun _ => True) s t := by
  obtain ⟨⟨phase, hphase, hlooks⟩, hacquired, hresult⟩ := h
  rw [hresult]
  exact .create i hphase hlooks hacquired

theorem TakesSlot.pool (h : TakesSlot i s t) : t.pool = { s.pool with total := s.pool.total + 1 } :=
  (ConnectionPool.acquire_create h.acquired).2.2

theorem FactoryEnds.available (h : FactoryEnds i outcome s t) :
    t.pool.available = s.pool.available := by
  obtain ⟨-, -, rfl⟩ := h
  cases outcome <;> rfl

/-- A thread in its factory call has a slot to give back. -/
theorem FactoryEnds.total_pos (hsound : s.Sound capacity lost) (h : FactoryEnds i outcome s t) :
    0 < s.pool.total := by
  have hcounted := hsound.counted
  have hcreating : 0 < creating s.threads :=
    List.count_pos_iff.mpr (List.mem_of_getElem? h.inFactory)
  omega

/-- The steps of a failing call are steps of the system. -/
theorem FailedCall.reachable (h : FailedCall i called own s s') :
    Reachable (fun _ => True) s s' := by
  cases h with
  | exhausted hexhausts =>
      obtain ⟨⟨phase, hphase, hlooks⟩, hacquired, rfl⟩ := hexhausts
      exact .single (.exhausted i hphase hlooks hacquired)
  | error htakes hwaits hends hlater hnotifies =>
      obtain ⟨hnotifying, hwoken, hresult⟩ := hnotifies
      refine .head htakes.step (hwaits.trans (.head (hends.step trivial) (hlater.tail ?_)))
      rw [hresult]
      exact .notified i hnotifying hwoken
  | @null j _ t u v w _ htakes hwaits hends hlater hdrops =>
      obtain ⟨⟨lease, hlease, hempty⟩, rfl⟩ := hdrops
      refine .head htakes.step (hwaits.trans (.head (hends.step trivial) (hlater.tail ?_)))
      have hkept : (lease.release false w.pool).2 = w.pool := by
        simp [ConnectionLease.release, hempty]
      have hdestroy : Step (fun _ => True) w
          ⟨(lease.release false w.pool).2, w.threads, w.leases.set j none⟩ :=
        .destroy j false hlease (by simp [hempty])
      rw [hkept] at hdestroy
      exact hdestroy
  | throws htakes hwaits hends => exact .head htakes.step (hwaits.tail (hends.step trivial))

/-- What a failing call does to the members of the pool: it keeps the slot that its factory call has
lost, and nothing else. -/
theorem FailedCall.effects (hinit : s₀.Initial capacity)
    (hreach : Reachable (fun _ => True) s₀ s) (h : FailedCall i called own s s') :
    effectOnTotal own = (called.map slotsLost).getD 0 ∧ effectOnAvailable own = 0 := by
  unfold effectOnTotal effectOnAvailable
  cases h with
  | exhausted hexhausts =>
      obtain ⟨-, -, rfl⟩ := hexhausts
      simp
  | @error _ t u v w _ htakes hwaits hends hlater hnotifies =>
      obtain ⟨lost, hsound⟩ := sound_of_reachable hinit (hreach.trans (.head htakes.step hwaits))
      have hpos := hends.total_pos hsound
      have hended : v.pool.total = u.pool.total - 1 := by rw [hends.result]; rfl
      have hnotified : s'.pool = w.pool := by rw [hnotifies.result]
      simp [htakes.pool, hends.available, hnotified, hended, slotsLost]
      omega
  | @null j _ t u v w _ htakes hwaits hends hlater hdrops =>
      have hended : v.pool.total = u.pool.total := by rw [hends.result]; rfl
      have hdropped : s'.pool = w.pool := by rw [hdrops.result]
      simp [htakes.pool, hends.available, hdropped, hended, slotsLost]
  | @throws _ t u v htakes hwaits hends =>
      have hended : s'.pool.total = u.pool.total := by rw [hends.result]; rfl
      simp [htakes.pool, hends.available, hended, slotsLost]

end Calls

/-! ## The theorem -/

/-- Failing calls and the slots of the pool.  After any run the pool can hand out as many executors
as at its start if and only if every factory call of the run yielded an executor or an error; and a
failing call from there, whatever the others do meanwhile, has no net effect on `total_` and
`available_` if and only if its factory call, if there was one, returned an error. -/
theorem failedAcquire_restores_iff (hinit : s₀.Initial capacity) (hrun : Run outcomes s₀ s) :
    (s.handsOut = capacity ↔ ∀ outcome ∈ outcomes, yields outcome) ∧
      ∀ {i : ℕ} {called : Option (FactoryOutcome E)} {own : List (PoolSystem E × PoolSystem E)}
        {s' : PoolSystem E}, FailedCall i called own s s' →
        ((effectOnTotal own = 0 ∧ effectOnAvailable own = 0) ↔
          ∀ outcome, called = some outcome → yields outcome) := by
  constructor
  · have hsound := sound_of_run hinit hrun
    have hslots := hsound.handsOut
    have hnone : (outcomes.map slotsLost).sum = 0 ↔ ∀ outcome ∈ outcomes, yields outcome := by
      simp [List.sum_eq_zero_iff_forall_eq_nat, slotsLost_eq_zero_iff]
    rw [← hnone]
    omega
  · intro i called own s' hfailed
    obtain ⟨htotal, havailable⟩ := hfailed.effects hinit hrun.reachable
    rw [htotal, havailable]
    cases called with
    | none => simp
    | some outcome =>
        have hlost := slotsLost_eq_zero_iff outcome
        simpa using hlost

section Examples

/-- One thread in front of a pool for one executor, and the ways on from there. -/
private def oneSlot : PoolSystem ℕ := ⟨{ capacity := 1 }, [.outside], []⟩
private def inFactory : PoolSystem ℕ := ⟨{ capacity := 1, total := 1 }, [.creating], []⟩
private def refused : PoolSystem ℕ := ⟨{ capacity := 1 }, [.notifying], []⟩
private def emptyLease : PoolSystem ℕ :=
  ⟨{ capacity := 1, total := 1 }, [.outside], [some { pool := true, executor := none }]⟩
private def leaseDropped : PoolSystem ℕ := ⟨{ capacity := 1, total := 1 }, [.outside], [none]⟩
private def unwound : PoolSystem ℕ := ⟨{ capacity := 1, total := 1 }, [.outside], []⟩

private theorem oneSlot_initial : oneSlot.Initial 1 := ⟨rfl, by simp [oneSlot], rfl⟩

private theorem oneSlot_takesSlot : TakesSlot 0 oneSlot inFactory :=
  ⟨⟨.outside, rfl, rfl⟩, rfl, rfl⟩

/-- A factory call that returns an error: the pool can still hand out its one executor. -/
theorem failedAcquire_restores_iff_refused : refused.handsOut = 1 := by
  have hends : FactoryEnds 0 .error inFactory refused := ⟨rfl, nofun, rfl⟩
  have hcreate : Step (fun _ => False) oneSlot inFactory := .create 0 rfl rfl rfl
  have hrun : Run [.error] oneSlot refused := ((Run.start oneSlot).other hcreate).factory hends
  exact (failedAcquire_restores_iff oneSlot_initial hrun).1.mpr (by simp [yields])

/-- After one call whose factory reports success without an executor, or throws, the pool for one
executor is full for good: nobody has an executor, and nobody can get one. -/
theorem failedAcquire_keepsSlot :
    oneSlot.Initial 1 ∧
      (∃ own, FailedCall 0 (some .null) own oneSlot leaseDropped ∧ effectOnTotal own = 1) ∧
      (∃ own, FailedCall 0 (some .throws) own oneSlot unwound ∧ effectOnTotal own = 1) ∧
      leaseDropped.handsOut = 0 ∧ leaseDropped.pool.ready = false ∧
      unwound.handsOut = 0 ∧ unwound.pool.ready = false := by
  have hnull : FactoryEnds 0 .null inFactory emptyLease := ⟨rfl, nofun, rfl⟩
  have hdrops : DropsEmpty 0 emptyLease leaseDropped := ⟨⟨_, rfl, rfl⟩, rfl⟩
  have hthrows : FactoryEnds 0 .throws inFactory unwound := ⟨rfl, nofun, rfl⟩
  exact ⟨oneSlot_initial, ⟨_, .null 0 oneSlot_takesSlot .refl hnull .refl hdrops, rfl⟩,
    ⟨_, .throws oneSlot_takesSlot .refl hthrows, rfl⟩, rfl, rfl, rfl, rfl⟩

end Examples

end Warehouse.Mysql.PoolSystem
