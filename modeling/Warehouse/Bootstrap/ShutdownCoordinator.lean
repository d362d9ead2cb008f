/-
# Warehouse.Bootstrap.ShutdownCoordinator — waiting for the request to stop

The coordinator of `lifecycle.cpp`: a flag under a mutex and a condition variable.  Any number of
threads call `wait`, `waitFor` and `requestStop`, in any order and as often as they like.  What is
done under the mutex is one step; `requestStop` notifies after it has let the mutex go.  The clock,
spurious wake-ups, and what a thread does outside are steps of the surroundings.
-/
import Mathlib.Logic.Function.Basic
import Warehouse.Interaction.Fairness
import Warehouse.Interaction.WaitSet

namespace Warehouse.Bootstrap

open Warehouse.Interaction

/-! ## Threads -/

/-- What a thread is doing at the coordinator; `timed` tells a `waitFor` from a `wait`. -/
inductive ShutdownThread
  | outside
  | entered (timed : Bool)
  | blocked (timed : Bool)
  | roused (timed : Bool)
  | expired
  | returned (timed result : Bool)
  | requesting
  | notifying
  deriving DecidableEq, Repr

/-- The condition variable `changed_`. -/
def stopChanged : WaitSet ShutdownThread where
  blocked
    | .blocked _ => true
    | _ => false
  woken
    | .roused _ => true
    | _ => false
  wake
    | .blocked timed => .roused timed
    | thread => thread
  wake_blocked thread h := by
    cases thread <;> rfl
  wake_woken thread h := by
    cases thread <;> first | rfl | cases h
  not_both thread h := by
    cases thread <;> first | rfl | cases h

/-- What `notify_all` makes of a thread. -/
def ShutdownThread.notified (thread : ShutdownThread) : ShutdownThread :=
  if stopChanged.blocked thread then stopChanged.wake thread else thread

namespace ShutdownThread

@[simp] theorem notified_blocked (timed : Bool) : (blocked timed).notified = roused timed := rfl

theorem notified_ne_blocked (thread : ShutdownThread) (timed : Bool) :
    thread.notified ≠ .blocked timed := by
  cases thread <;> simp [notified, stopChanged]

theorem notified_of_not_blocked {thread : ShutdownThread} (h : ∀ timed, thread ≠ .blocked timed) :
    thread.notified = thread := by
  cases thread with
  | blocked timed => exact absurd rfl (h timed)
  | _ => rfl

theorem returned_of_notified {thread : ShutdownThread} {timed result : Bool}
    (h : thread.notified = .returned timed result) : thread = .returned timed result := by
  cases thread with
  | blocked timed => cases h
  | _ => exact h

/-- The thread is inside `wait` or `waitFor`. -/
def waits : ShutdownThread → Bool
  | .entered _ | .blocked _ | .roused _ | .expired => true
  | _ => false

/-- The thread has called `waitFor`, and not gone on since. -/
def inWaitFor : ShutdownThread → Bool
  | .entered timed | .blocked timed | .roused timed | .returned timed _ => timed
  | .expired => true
  | _ => false

theorem notified_inWaitFor (thread : ShutdownThread) :
    thread.notified.inWaitFor = thread.inWaitFor := by
  cases thread <;> rfl

theorem notified_waits (thread : ShutdownThread) : thread.notified.waits = thread.waits := by
  cases thread <;> rfl

end ShutdownThread

/-- `ShutdownCoordinator`, with the threads that use it. -/
structure ShutdownCoordinator (ι : Type) where
  stopRequested : Bool
  threads : ι → ShutdownThread

/-- What one thread does by itself (`own`), or what happens to it.  `requested` is the flag that it
finds, the last argument the flag that it leaves. -/
inductive ShutdownMove (requested : Bool) :
    (own : Bool) → ShutdownThread → ShutdownThread → Bool → Prop
  | enters (timed : Bool) : ShutdownMove requested false .outside (.entered timed) requested
  | calls : ShutdownMove requested false .outside .requesting requested
  -- the predicate of the wait holds
  | finds {at_ : ShutdownThread} (timed : Bool) (hat : at_ = .entered timed ∨ at_ = .roused timed)
      (hrequested : requested = true) :
      ShutdownMove requested true at_ (.returned timed true) requested
  | blocks {at_ : ShutdownThread} (timed : Bool) (hat : at_ = .entered timed ∨ at_ = .roused timed)
      (hrequested : requested = false) : ShutdownMove requested true at_ (.blocked timed) requested
  | rouses (timed : Bool) : ShutdownMove requested false (.blocked timed) (.roused timed) requested
  | expires : ShutdownMove requested false (.blocked true) .expired requested
  -- `wait_for` returns what the predicate says when the time has passed
  | looks : ShutdownMove requested true .expired (.returned true requested) requested
  | requests : ShutdownMove requested true .requesting .notifying true
  | leaves (timed result : Bool) : ShutdownMove requested false (.returned timed result) .outside requested

namespace ShutdownMove

variable {requested own after timed result : Bool} {before thread : ShutdownThread}

/-- The flag is set by a request, and by nothing else. -/
theorem flag (h : ShutdownMove requested own before thread after) :
    after = requested ∨ before = .requesting ∧ thread = .notifying ∧ after = true := by
  cases h with
  | requests => exact Or.inr ⟨rfl, rfl, rfl⟩
  | _ => exact Or.inl rfl

theorem ne_notifying (h : ShutdownMove requested own before thread after) : before ≠ .notifying := by
  rintro rfl
  cases h with
  | finds timed hat _ => rcases hat with hat | hat <;> cases hat
  | blocks timed hat _ => rcases hat with hat | hat <;> cases hat

theorem of_blocked (h : ShutdownMove requested own before (.blocked timed) after) :
    requested = false := by
  cases h
  assumption

theorem own_of_requesting (h : ShutdownMove requested own .requesting thread after) :
    after = true ∧ thread = .notifying := by
  cases h with
  | finds timed hat _ => rcases hat with hat | hat <;> cases hat
  | blocks timed hat _ => rcases hat with hat | hat <;> cases hat
  | requests => exact ⟨rfl, rfl⟩

theorem own_ne_outside (h : ShutdownMove requested own before thread after) (hown : own = true) :
    before ≠ .outside := by
  rintro rfl
  cases h with
  | finds timed hat _ => rcases hat with hat | hat <;> cases hat
  | blocks timed hat _ => rcases hat with hat | hat <;> cases hat
  | _ => cases hown

theorem of_returned (h : ShutdownMove requested own before (.returned timed result) after) :
    (result = true → after = true) ∧ (result = false → timed = true) := by
  cases h with
  | finds timed hat hrequested => exact ⟨fun _ => hrequested, fun hfalse => nomatch hfalse⟩
  | looks => exact ⟨fun htrue => htrue, fun _ => rfl⟩

theorem of_returned_false (h : ShutdownMove requested own before (.returned timed false) after) :
    before = .expired ∧ requested = false := by
  generalize hresult : false = result at h
  cases h with
  | finds timed hat _ => cases hresult
  | looks => exact ⟨rfl, rfl⟩

/-- While a stop is requested a waiter comes back with `true`, or is roused by others. -/
theorem of_waits (h : ShutdownMove true own before thread after) (hwaits : before.waits = true) :
    (∃ timed, thread = .returned timed true) ∨
      own = false ∧ (∃ timed, before = .blocked timed) ∧ thread.waits = true ∧
        ∀ timed, thread ≠ .blocked timed := by
  cases h with
  | enters => cases hwaits
  | calls => cases hwaits
  | finds timed hat _ => exact Or.inl ⟨timed, rfl⟩
  | blocks timed hat hnot => cases hnot
  | rouses timed => exact Or.inr ⟨rfl, ⟨timed, rfl⟩, rfl, fun _ heq => nomatch heq⟩
  | expires => exact Or.inr ⟨rfl, ⟨true, rfl⟩, rfl, fun _ heq => nomatch heq⟩
  | looks => exact Or.inl ⟨true, rfl⟩
  | requests => cases hwaits
  | leaves => cases hwaits

/-- Inside a `waitFor` a thread does something by itself only when it looks at the flag. -/
theorem own_of_inWaitFor (h : ShutdownMove requested true before thread after)
    (hin : before.inWaitFor = true) :
    before.waits = true ∧ ∀ timed, before ≠ .blocked timed := by
  cases h with
  | finds timed hat _ => rcases hat with rfl | rfl <;> exact ⟨rfl, fun _ heq => nomatch heq⟩
  | blocks timed hat _ => rcases hat with rfl | rfl <;> exact ⟨rfl, fun _ heq => nomatch heq⟩
  | looks => exact ⟨rfl, fun _ heq => nomatch heq⟩
  | requests => cases hin

/-- A thread leaves when it has been given its answer, not before. -/
theorem waits_of_outside (h : ShutdownMove requested own before .outside after) :
    ¬ before.waits = true := by
  cases h with
  | leaves => exact Bool.false_ne_true

/-- Inside a `waitFor` a thread sets nothing, and stays there until it leaves. -/
theorem of_inWaitFor (h : ShutdownMove requested own before thread after)
    (hin : before.inWaitFor = true) :
    after = requested ∧ (thread.inWaitFor = true ∨ own = false ∧ thread = .outside) := by
  cases h with
  | enters => cases hin
  | calls => cases hin
  | finds timed hat _ => rcases hat with rfl | rfl <;> exact ⟨rfl, Or.inl hin⟩
  | blocks timed hat _ => rcases hat with rfl | rfl <;> exact ⟨rfl, Or.inl hin⟩
  | rouses timed => exact ⟨rfl, Or.inl hin⟩
  | expires => exact ⟨rfl, Or.inl rfl⟩
  | looks => exact ⟨rfl, Or.inl rfl⟩
  | requests => cases hin
  | leaves => exact ⟨rfl, Or.inr ⟨rfl, rfl⟩⟩

end ShutdownMove

namespace ShutdownCoordinator

variable {ι : Type}

/-- Nothing was requested, and every thread is outside. -/
def fresh : ShutdownCoordinator ι := ⟨false, fun _ => .outside⟩

/-- What holds at every moment: while a stop is requested and somebody sleeps, a notification is
due; `true` is only returned once a stop was requested, and `false` only by a `waitFor`. -/
structure Sound (s : ShutdownCoordinator ι) : Prop where
  due : s.stopRequested = true → ∀ i timed, s.threads i = .blocked timed →
    ∃ j, s.threads j = .notifying
  found : ∀ i timed, s.threads i = .returned timed true → s.stopRequested = true
  timed : ∀ i, s.threads i ≠ .returned false false

theorem sound_fresh : Sound (fresh : ShutdownCoordinator ι) where
  due h := by cases h
  found i timed h := by cases h
  timed i h := by cases h

variable [DecidableEq ι]

/-- One step. -/
inductive Step : Option ι → ShutdownCoordinator ι → ShutdownCoordinator ι → Prop
  | move {s : ShutdownCoordinator ι} {a : Option ι} {own requested : Bool}
      {thread : ShutdownThread} (i : ι) (hactor : a = if own then some i else none)
      (hmove : ShutdownMove s.stopRequested own (s.threads i) thread requested) :
      Step a s ⟨requested, Function.update s.threads i thread⟩
  | notify {s : ShutdownCoordinator ι} (i : ι) (hat : s.threads i = .notifying) :
      Step (some i) s
        ⟨s.stopRequested, fun j => (Function.update s.threads i .outside j).notified⟩
  | idle (s : ShutdownCoordinator ι) : Step none s s

variable {s s' : ShutdownCoordinator ι} {a : Option ι} {i j : ι}

/-! ## What one step does -/

theorem stopRequested_step (h : Step a s s') (hrequested : s.stopRequested = true) :
    s'.stopRequested = true := by
  cases h with
  | move i _ hmove =>
      rcases hmove.flag with hsame | ⟨-, -, hset⟩
      · exact hsame.trans hrequested
      · exact hset
  | notify i hat => exact hrequested
  | idle => exact hrequested

/-- A request that was not there comes from a thread that was in `requestStop`, and that owes the
notification now. -/
theorem requesting_of_step (h : Step a s s') (hbefore : s.stopRequested = false)
    (hafter : s'.stopRequested = true) :
    ∃ j, s.threads j = .requesting ∧ s'.threads j = .notifying := by
  cases h with
  | @move _ _ own requested thread i hactor hmove =>
      rcases hmove.flag with hsame | ⟨hrequesting, hnotifying, -⟩
      · rw [show requested = true from hafter, hbefore] at hsame
        cases hsame
      · exact ⟨i, hrequesting, by rw [hnotifying]; exact Function.update_self ..⟩
  | notify i hat =>
      rw [show s.stopRequested = true from hafter] at hbefore
      cases hbefore
  | idle =>
      rw [hafter] at hbefore
      cases hbefore

/-- A step leaves a thread alone, moves it, or notifies it. -/
theorem thread_step (h : Step a s s') (i : ι) :
    s'.threads i = s.threads i ∨
    (∃ own, ShutdownMove s.stopRequested own (s.threads i) (s'.threads i) s'.stopRequested ∧
      a = if own then some i else none) ∨
    s'.stopRequested = s.stopRequested ∧ s'.threads i = (s.threads i).notified ∨
    s.threads i = .notifying ∧ s'.threads i = .outside := by
  cases h with
  | @move _ _ own requested thread j hactor hmove =>
      by_cases hij : i = j
      · subst hij
        refine Or.inr (Or.inl ⟨own, ?_, hactor⟩)
        show ShutdownMove _ _ _ (Function.update s.threads i thread i) _
        rw [Function.update_self]
        exact hmove
      · exact Or.inl (Function.update_of_ne hij thread s.threads)
  | notify j hat =>
      by_cases hij : i = j
      · subst hij
        refine Or.inr (Or.inr (Or.inr ⟨hat, ?_⟩))
        show (Function.update s.threads i .outside i).notified = _
        rw [Function.update_self]
        rfl
      · refine Or.inr (Or.inr (Or.inl ⟨rfl, ?_⟩))
        show (Function.update s.threads j .outside i).notified = _
        rw [Function.update_of_ne hij]
  | idle => exact Or.inl rfl

omit [DecidableEq ι] in
theorem ne_actor {own : Bool} (hactor : a = if own then some i else none) (hji : j ≠ i) :
    a ≠ some j := by
  rw [hactor]
  split
  · exact fun heq => hji (Option.some_inj.mp heq).symm
  · exact fun heq => nomatch heq

/-- Only its own notification takes a thread out of `notifying`, and leaves nobody blocked. -/
theorem notifying_step (h : Step a s s') (hat : s.threads j = .notifying) :
    a ≠ some j ∧ s'.threads j = .notifying ∨
      a = some j ∧ ∀ i timed, s'.threads i ≠ .blocked timed := by
  cases h with
  | @move _ _ own requested thread i hactor hmove =>
      have hji : j ≠ i := by
        rintro rfl
        exact hmove.ne_notifying hat
      refine Or.inl ⟨ne_actor hactor hji, ?_⟩
      show Function.update s.threads i thread j = _
      rw [Function.update_of_ne hji, hat]
  | notify i hi =>
      by_cases hji : j = i
      · subst hji
        exact Or.inr ⟨rfl, fun i timed => ShutdownThread.notified_ne_blocked _ timed⟩
      · refine Or.inl ⟨fun heq => hji (Option.some_inj.mp heq).symm, ?_⟩
        show (Function.update s.threads i .outside j).notified = _
        rw [Function.update_of_ne hji, hat]
        rfl
  | idle => exact Or.inl ⟨fun heq => (nomatch heq), hat⟩

/-- What a thread inside a `waitFor` does is its own affair. -/
theorem waitFor_own_step (h : Step (some i) s s') (hin : (s.threads i).inWaitFor = true) :
    s'.stopRequested = s.stopRequested ∧ (s'.threads i).inWaitFor = true ∧
      (∀ j, j ≠ i → s'.threads j = s.threads j) ∧
      (s.threads i).waits = true ∧ ∀ timed, s.threads i ≠ .blocked timed := by
  cases h with
  | @move _ _ own requested thread j hactor hmove =>
      cases own with
      | false => cases hactor
      | true =>
          obtain rfl : i = j := Option.some_inj.mp hactor
          obtain ⟨hsame, hstays⟩ := hmove.of_inWaitFor hin
          refine ⟨hsame, ?_, fun j hji => Function.update_of_ne hji _ _, hmove.own_of_inWaitFor hin⟩
          show (Function.update s.threads i thread i).inWaitFor = true
          rw [Function.update_self]
          exact hstays.resolve_right fun hout => Bool.false_ne_true hout.1.symm
  | notify _ hat =>
      rw [hat] at hin
      cases hin

/-- What a thread inside `requestStop` does. -/
theorem requestStop_own_step (h : Step (some i) s s') :
    (s.threads i = .requesting → s'.stopRequested = true ∧ s'.threads i = .notifying ∧
      ∀ j, j ≠ i → s'.threads j = s.threads j) ∧
    (s.threads i = .notifying → s'.stopRequested = s.stopRequested ∧ s'.threads i = .outside ∧
      ∀ j, j ≠ i → s'.threads j = (s.threads j).notified) ∧ s.threads i ≠ .outside := by
  cases h with
  | @move _ _ own requested thread j hactor hmove =>
      cases own with
      | false => cases hactor
      | true =>
          obtain rfl : i = j := Option.some_inj.mp hactor
          refine ⟨fun hat => ?_, fun hat => absurd hat hmove.ne_notifying, fun hat => ?_⟩
          · rw [hat] at hmove
            obtain ⟨rfl, rfl⟩ := hmove.own_of_requesting
            exact ⟨rfl, Function.update_self .., fun j hji => Function.update_of_ne hji _ _⟩
          · rw [hat] at hmove
            exact hmove.own_ne_outside rfl rfl
  | notify _ hat =>
      refine ⟨fun hreq => ?_, fun _ => ⟨rfl, ?_, fun j hji => ?_⟩, fun hout => ?_⟩
      · rw [hat] at hreq
        cases hreq
      · show (Function.update s.threads i .outside i).notified = _
        rw [Function.update_self]
        rfl
      · show (Function.update s.threads i .outside j).notified = _
        rw [Function.update_of_ne hji]
      · rw [hat] at hout
        cases hout

/-! ## What holds at every moment -/

theorem Sound.step (hs : s.Sound) (h : Step a s s') : s'.Sound where
  due hrequested i timed hblocked := by
    cases hold : s.stopRequested with
    | false =>
        obtain ⟨j, -, hj⟩ := requesting_of_step h hold hrequested
        exact ⟨j, hj⟩
    | true =>
        rcases thread_step h i with hsame | ⟨own, hmove, -⟩ | ⟨-, hnotified⟩ | ⟨-, hout⟩
        · obtain ⟨j, hj⟩ := hs.due hold i timed (by rw [← hsame, hblocked])
          rcases notifying_step h hj with ⟨-, hstays⟩ | ⟨-, hnone⟩
          · exact ⟨j, hstays⟩
          · exact absurd hblocked (hnone i timed)
        · rw [hblocked] at hmove
          rw [hmove.of_blocked] at hold
          cases hold
        · rw [hnotified] at hblocked
          exact absurd hblocked (ShutdownThread.notified_ne_blocked _ timed)
        · rw [hblocked] at hout
          cases hout
  found i timed hreturned := by
    rcases thread_step h i with hsame | ⟨own, hmove, -⟩ | ⟨-, hnotified⟩ | ⟨-, hout⟩
    · exact stopRequested_step h (hs.found i timed (by rw [← hsame, hreturned]))
    · rw [hreturned] at hmove
      exact hmove.of_returned.1 rfl
    · rw [hnotified] at hreturned
      exact stopRequested_step h (hs.found i timed (ShutdownThread.returned_of_notified hreturned))
    · rw [hreturned] at hout
      cases hout
  timed i hreturned := by
    rcases thread_step h i with hsame | ⟨own, hmove, -⟩ | ⟨-, hnotified⟩ | ⟨-, hout⟩
    · exact hs.timed i (by rw [← hsame, hreturned])
    · rw [hreturned] at hmove
      exact Bool.false_ne_true (hmove.of_returned.2 rfl)
    · rw [hnotified] at hreturned
      exact hs.timed i (ShutdownThread.returned_of_notified hreturned)
    · rw [hreturned] at hout
      cases hout

/-! ## Nobody waits for ever -/

/-- While a stop is requested a waiter stays where it is, comes back with `true`, or is roused. -/
theorem waiter_step (h : Step a s s') (hrequested : s.stopRequested = true)
    (hwaits : (s.threads i).waits = true) :
    s'.threads i = s.threads i ∨ (∃ timed, s'.threads i = .returned timed true) ∨
      (∃ timed, s.threads i = .blocked timed) ∧ (s'.threads i).waits = true ∧
        ∀ timed, s'.threads i ≠ .blocked timed := by
  rcases thread_step h i with hsame | ⟨own, hmove, -⟩ | ⟨-, hnotified⟩ | ⟨hat, -⟩
  · exact Or.inl hsame
  · rw [hrequested] at hmove
    rcases hmove.of_waits hwaits with hreturned | ⟨-, hroused⟩
    · exact Or.inr (Or.inl hreturned)
    · exact Or.inr (Or.inr hroused)
  · by_cases hblocked : ∃ timed, s.threads i = .blocked timed
    · refine Or.inr (Or.inr ⟨hblocked, ?_, ?_⟩)
      · rw [hnotified, ShutdownThread.notified_waits, hwaits]
      · rw [hnotified]
        exact ShutdownThread.notified_ne_blocked _
    · left
      rw [hnotified]
      exact ShutdownThread.notified_of_not_blocked fun timed heq => hblocked ⟨timed, heq⟩
  · rw [hat] at hwaits
    cases hwaits

/-- A waiter that is not blocked comes back with its next step. -/
theorem waiter_own_step (h : Step (some i) s s') (hrequested : s.stopRequested = true)
    (hwaits : (s.threads i).waits = true) (hawake : ∀ timed, s.threads i ≠ .blocked timed) :
    ∃ timed, s'.threads i = .returned timed true := by
  cases h with
  | @move _ _ own requested thread j hactor hmove =>
      cases own with
      | false => cases hactor
      | true =>
          obtain rfl : i = j := Option.some_inj.mp hactor
          rw [hrequested] at hmove
          rcases hmove.of_waits hwaits with ⟨timed, rfl⟩ | ⟨-, ⟨timed, hblocked⟩, -⟩
          · exact ⟨timed, Function.update_self ..⟩
          · exact absurd hblocked (hawake timed)
  | notify _ hat =>
      rw [hat] at hwaits
      cases hwaits

theorem enabled_of_move {before thread : ShutdownThread} {requested : Bool}
    (hat : s.threads i = before) (hmove : ShutdownMove s.stopRequested true before thread requested) :
    Enabled Step i s := by
  subst hat
  exact ⟨_, .move i rfl hmove⟩

/-- A waiter that is not blocked can always look. -/
theorem waiter_enabled (hrequested : s.stopRequested = true) (hwaits : (s.threads i).waits = true)
    (hawake : ∀ timed, s.threads i ≠ .blocked timed) : Enabled Step i s := by
  cases hat : s.threads i with
  | blocked timed => exact absurd hat (hawake timed)
  | entered timed => exact enabled_of_move hat (.finds timed (Or.inl rfl) hrequested)
  | roused timed => exact enabled_of_move hat (.finds timed (Or.inr rfl) hrequested)
  | expired => exact enabled_of_move hat .looks
  | _ =>
      rw [hat] at hwaits
      cases hwaits

/-- A thread in `requestStop` stays there until its own step, which sets the flag. -/
theorem requesting_step (h : Step a s s') (hat : s.threads j = .requesting) :
    s'.stopRequested = true ∨ a ≠ some j ∧ s'.threads j = .requesting := by
  cases h with
  | @move _ _ own requested thread i hactor hmove =>
      by_cases hji : j = i
      · subst hji
        rw [hat] at hmove
        exact Or.inl hmove.own_of_requesting.1
      · refine Or.inr ⟨ne_actor hactor hji, ?_⟩
        show Function.update s.threads i thread j = _
        rw [Function.update_of_ne hji, hat]
  | notify i hi =>
      have hji : j ≠ i := by
        rintro rfl
        rw [hat] at hi
        cases hi
      refine Or.inr ⟨fun heq => hji (Option.some_inj.mp heq).symm, ?_⟩
      show (Function.update s.threads i .outside j).notified = _
      rw [Function.update_of_ne hji, hat]
      rfl
  | idle => exact Or.inr ⟨fun heq => (nomatch heq), hat⟩

/-- `requestStop` takes effect. -/
def requestTaken (j : ι) : Progress (Step (ι := ι)) (fun s => s.threads j = .requesting)
    (fun s => s.stopRequested = true) where
  rank _ := 0
  helpful _ := j
  keeps a s s' hat _ h := by
    rcases requesting_step h hat with hdone | ⟨-, hstays⟩
    · exact Or.inl hdone
    · exact Or.inr hstays
  enabled s hat _ := enabled_of_move hat .requests
  helps s s' hat _ h := by
    rcases requesting_step h hat with hdone | ⟨hother, -⟩
    · exact Or.inl hdone
    · exact absurd rfl hother
  harmless a s s' _ _ _ := Or.inr (Or.inr ⟨rfl, rfl⟩)

/-- The waiter `i` waits while a stop is requested; if it is blocked then `j` is about to notify. -/
def Roused (i j : ι) (s : ShutdownCoordinator ι) : Prop :=
  s.stopRequested = true ∧ (s.threads i).waits = true ∧
    ((∃ timed, s.threads i = .blocked timed) → s.threads j = .notifying)

theorem Roused.step (hs : Roused i j s) (h : Step a s s') :
    (∃ timed, s'.threads i = .returned timed true) ∨ Roused i j s' := by
  obtain ⟨hrequested, hwaits, howed⟩ := hs
  have hstill := stopRequested_step h hrequested
  rcases waiter_step h hrequested hwaits with hsame | hreturned | ⟨-, hwaits', hawake⟩
  · refine Or.inr ⟨hstill, by rw [hsame, hwaits], ?_⟩
    rintro ⟨timed, hblocked⟩
    rcases notifying_step h (howed ⟨timed, by rw [← hsame, hblocked]⟩) with
      ⟨-, hstays⟩ | ⟨-, hnone⟩
    · exact hstays
    · exact absurd hblocked (hnone i timed)
  · exact Or.inl hreturned
  · exact Or.inr ⟨hstill, hwaits', fun ⟨timed, hblocked⟩ => absurd hblocked (hawake timed)⟩

open Classical in
/-- A waiter comes back: if it is blocked, the thread that owes the notification helps. -/
noncomputable def waiterReturns (i j : ι) : Progress (Step (ι := ι)) (Roused i j)
    (fun s => ∃ timed, s.threads i = .returned timed true) where
  rank s := if ∃ timed, s.threads i = .blocked timed then 1 else 0
  helpful s := if ∃ timed, s.threads i = .blocked timed then j else i
  keeps a s s' hs _ h := hs.step h
  enabled s hs _ := by
    obtain ⟨hrequested, hwaits, howed⟩ := hs
    split
    · rename_i hblocked
      exact ⟨_, .notify j (howed hblocked)⟩
    · rename_i hawake
      exact waiter_enabled hrequested hwaits fun timed heq => hawake ⟨timed, heq⟩
  helps s s' hs _ h := by
    obtain ⟨hrequested, hwaits, howed⟩ := hs
    by_cases hblocked : ∃ timed, s.threads i = .blocked timed
    · rw [if_pos hblocked] at h
      rcases notifying_step h (howed hblocked) with ⟨hother, -⟩ | ⟨-, hnone⟩
      · exact absurd rfl hother
      · rw [if_pos hblocked, if_neg fun ⟨timed, heq⟩ => hnone i timed heq]
        exact Or.inr Nat.zero_lt_one
    · rw [if_neg hblocked] at h
      exact Or.inl (waiter_own_step h hrequested hwaits fun timed heq => hblocked ⟨timed, heq⟩)
  harmless a s s' hs _ h := by
    obtain ⟨hrequested, hwaits, -⟩ := hs
    rcases waiter_step h hrequested hwaits with hsame | hreturned | ⟨hblocked, -, hawake⟩
    · rw [hsame]
      exact Or.inr (Or.inr ⟨rfl, rfl⟩)
    · exact Or.inl hreturned
    · have hnot : ¬ ∃ timed, s'.threads i = .blocked timed := fun ⟨timed, heq⟩ => hawake timed heq
      rw [if_pos hblocked, if_neg hnot]
      exact Or.inr (Or.inl Nat.zero_lt_one)

/-! ## Whole executions -/

section Executions

variable {e : Execution (Step (ι := ι))}

theorem sound_of_execution (hstart : e.state 0 = fresh) (n : ℕ) : (e.state n).Sound :=
  e.invariant (fun _ _ _ hs h => hs.step h) (hstart ▸ sound_fresh) (Nat.zero_le n)

/-- A stop that is requested was requested by a thread. -/
theorem exists_requesting (hstart : e.state 0 = fresh) {n : ℕ}
    (hrequested : (e.state n).stopRequested = true) :
    ∃ k j, k < n ∧ (e.state k).threads j = .requesting := by
  induction n with
  | zero =>
      rw [hstart] at hrequested
      cases hrequested
  | succ n ih =>
      cases hbefore : (e.state n).stopRequested with
      | true =>
          obtain ⟨k, j, hk, hj⟩ := ih hbefore
          exact ⟨k, j, by omega, hj⟩
      | false =>
          obtain ⟨j, hj, -⟩ := requesting_of_step (e.steps n) hbefore hrequested
          exact ⟨n, j, by omega, hj⟩

/-- A `waitFor` that returns `false` looked, when its time had passed, and nothing was requested. -/
theorem exists_expired (hstart : e.state 0 = fresh) {n : ℕ} {timed : Bool}
    (hreturned : (e.state n).threads i = .returned timed false) :
    ∃ k, k < n ∧ (e.state k).threads i = .expired ∧ (e.state k).stopRequested = false := by
  induction n with
  | zero =>
      rw [hstart] at hreturned
      cases hreturned
  | succ n ih =>
      have hearlier : (e.state n).threads i = .returned timed false → ∃ k, k < n + 1 ∧
          (e.state k).threads i = .expired ∧ (e.state k).stopRequested = false := by
        intro hbefore
        obtain ⟨k, hk, hexpired⟩ := ih hbefore
        exact ⟨k, by omega, hexpired⟩
      rcases thread_step (e.steps n) i with hsame | ⟨own, hmove, -⟩ | ⟨-, hnotified⟩ | ⟨-, hout⟩
      · exact hearlier (by rw [← hsame, hreturned])
      · rw [hreturned] at hmove
        obtain ⟨hexpired, hnone⟩ := hmove.of_returned_false
        exact ⟨n, by omega, hexpired, hnone⟩
      · rw [hnotified] at hreturned
        exact hearlier (ShutdownThread.returned_of_notified hreturned)
      · rw [hreturned] at hout
        cases hout

/-- The request to stop is delivered.  However many threads wait, with or without a timeout, and
however many of them request: in a fair execution, once some thread is in `requestStop` there is a
moment from which the stop stays requested and every thread that waits comes back with `true`.  And
in every execution `true` is returned only after a thread was in `requestStop`, and `false` only by
a `waitFor` whose time had passed while no stop was requested. -/
theorem requestStop_delivered (hstart : e.state 0 = fresh) :
    (e.Fair → ∀ k j, (e.state k).threads j = .requesting → ∃ m, k ≤ m ∧ ∀ n, m ≤ n →
      (e.state n).stopRequested = true ∧
        ∀ i, ((e.state n).threads i).waits = true →
          ∃ n', n ≤ n' ∧ ∃ timed, (e.state n').threads i = .returned timed true) ∧
    ∀ n i timed result, (e.state n).threads i = .returned timed result →
      (result = true → ∃ k j, k < n ∧ (e.state k).threads j = .requesting) ∧
      (result = false → timed = true ∧
        ∃ k, k < n ∧ (e.state k).threads i = .expired ∧ (e.state k).stopRequested = false) := by
  constructor
  · intro hfair k j hrequesting
    obtain ⟨m, hm, hrequested⟩ := (requestTaken j).eventually hfair hrequesting
    refine ⟨m, hm, fun n hn => ?_⟩
    have hstill : (e.state n).stopRequested = true :=
      e.invariant (I := fun s => s.stopRequested = true)
        (fun _ _ _ hs h => stopRequested_step h hs) hrequested hn
    refine ⟨hstill, fun i hwaits => ?_⟩
    by_cases hblocked : ∃ timed, (e.state n).threads i = .blocked timed
    · obtain ⟨timed, hat⟩ := hblocked
      obtain ⟨j', hj'⟩ := (sound_of_execution hstart n).due hstill i timed hat
      exact (waiterReturns i j').eventually hfair ⟨hstill, hwaits, fun _ => hj'⟩
    · exact (waiterReturns i i).eventually hfair
        ⟨hstill, hwaits, fun hat => absurd hat hblocked⟩
  · intro n i timed result hreturned
    constructor
    · rintro rfl
      exact exists_requesting hstart ((sound_of_execution hstart n).found i timed hreturned)
    · rintro rfl
      refine ⟨?_, exists_expired hstart hreturned⟩
      cases timed with
      | true => rfl
      | false => exact absurd hreturned ((sound_of_execution hstart n).timed i)

end Executions

theorem quiet_of_outside (h : ∀ i, s.threads i = .outside) (i : ι) : ¬ Enabled Step i s :=
  fun ⟨_, hstep⟩ => (requestStop_own_step hstep).2.2 (h i)

/-- One thread waits, another one requests. -/
private def handover : List (Option Bool × ShutdownCoordinator Bool) :=
  let at_ (waiter stopper : ShutdownThread) (i : Bool) := if i then stopper else waiter
  [(none, ⟨false, at_ (.entered false) .outside⟩),
    (some false, ⟨false, at_ (.blocked false) .outside⟩),
    (none, ⟨false, at_ (.blocked false) .requesting⟩),
    (some true, ⟨true, at_ (.blocked false) .notifying⟩),
    (some true, ⟨true, fun i =>
      (Function.update (at_ (.blocked false) .notifying) true .outside i).notified⟩),
    (some false, ⟨true, at_ (.returned false true) .outside⟩),
    (none, ⟨true, at_ .outside .outside⟩)]

private theorem step_of_move {a : Option Bool} {own requested requested' : Bool}
    {threads threads' : Bool → ShutdownThread} (i : Bool) (hactor : a = if own then some i else none)
    (hmove : ShutdownMove requested own (threads i) (threads' i) requested')
    (hother : threads' (!i) = threads (!i)) : Step a ⟨requested, threads⟩ ⟨requested', threads'⟩ := by
  have hthreads : threads' = Function.update threads i (threads' i) := by
    funext j
    by_cases hj : j = i
    · rw [hj, Function.update_self]
    · rw [Function.update_of_ne hj, (Bool.eq_not.mpr hj : j = !i), hother]
  rw [hthreads]
  exact .move i hactor hmove

private theorem handover_chained : Execution.Chained Step fresh handover := by
  refine ⟨?_, ?_, ?_, ?_, ?_, ?_, ?_, .idle _, ?_⟩
  · exact step_of_move false rfl (.enters false) rfl
  · exact step_of_move false rfl (.blocks false (Or.inl rfl) rfl) rfl
  · exact step_of_move true rfl .calls rfl
  · exact step_of_move true rfl .requests rfl
  · exact .notify true rfl
  · exact step_of_move false rfl (.finds false (Or.inr rfl) rfl) rfl
  · exact step_of_move false rfl (.leaves false true) rfl
  · exact quiet_of_outside (by decide)

/-- The request arrives. -/
theorem requestStop_delivered_waiter :
    (∃ m, 3 ≤ m ∧ ∀ n, m ≤ n →
      ((Execution.ofMoves fresh handover handover_chained).state n).stopRequested = true) ∧
    ∃ k j, k < 6 ∧
      ((Execution.ofMoves fresh handover handover_chained).state k).threads j = .requesting := by
  have hdelivered := requestStop_delivered (e := Execution.ofMoves fresh handover handover_chained) rfl
  obtain ⟨m, hm, hlater⟩ := hdelivered.1 (Execution.ofMoves_fair handover_chained) 3 true rfl
  exact ⟨⟨m, hm, fun n hn => (hlater n hn).1⟩, (hdelivered.2 6 false false true rfl).1 rfl⟩

end ShutdownCoordinator

end Warehouse.Bootstrap
