/-
# Warehouse.Bootstrap.OrderlyShutdown — a signal ends the process

Once a signal is recorded the process comes to its end, if the two threads are scheduled fairly and
the calls of the platform return.  The argument is a rank over both threads.  What the watcher still
has to do weighs most; the main thread turns in its loop without getting anywhere until the watcher
has requested the stop, and is helped out of `waitFor` by the watcher's notification, so no timeout
has to pass.
-/
import Warehouse.Bootstrap.ServerProcess

namespace Warehouse.Bootstrap

open Warehouse.Interaction Warehouse.Interaction.Program

/-! ## How many calls the root makes -/

theorem runStages_within (configuration : ServerConfiguration) (stages : List Stage)
    (result : StartupResult) : (runStages configuration stages result).Within stages.length := by
  induction stages generalizing result with
  | nil => trivial
  | cons stage stages ih =>
      rw [runStages]
      split
      · refine ⟨stages.length, rfl, fun answer => ?_⟩
        cases answer with
        | none => trivial
        | some result => exact ih result
      · exact (ih result).mono (Nat.le_succ _)

namespace CompositionRoot

theorem stop_within (root : CompositionRoot) : root.stop.Within 1 := by
  unfold stop
  split
  · trivial
  · exact ⟨0, rfl, fun answer => trivial⟩

theorem startPlatform_within (root : CompositionRoot) (configuration : ServerConfiguration) :
    (root.startPlatform configuration).Within 8 := by
  unfold startPlatform
  refine within_bind (n := 7) (m := 1) (runStages_within configuration stageOrder {})
    fun result => ?_
  cases result with
  | none => trivial
  | some result =>
      dsimp only
      split
      · exact within_bind (n := 1) (m := 0) (stop_within _) fun root => trivial
      · trivial

theorem start_within (root : CompositionRoot) : root.start.Within 9 := by
  unfold start
  split
  · trivial
  · refine ⟨8, rfl, fun answer => ?_⟩
    cases answer with
    | none => trivial
    | some source =>
        dsimp only [Program.bind]
        split
        · split
          · exact startPlatform_within root _
          · trivial
        · trivial

end CompositionRoot

namespace ServerProcess

variable {oneShot : Bool} {ignored : StopSignal → Bool} {a : Option ProcessThread}
  {s s' : ServerProcess}

/-! ## The rank -/

/-- What a thread in `waitFor` has before it, once a stop is requested. -/
def waitRank : ShutdownThread → ℕ
  | .returned _ false => 4
  | .blocked _ => 2
  | .returned _ true => 0
  | _ => 1

/-- What the main thread has before it; as long as no stop is requested, its loop gets it nowhere. -/
noncomputable def mainRank (s : ServerProcess) : ℕ :=
  match s.main with
  | .clears => 0
  | .sets .interrupt => 45 + s.root.start.height
  | .sets .terminate => 44 + s.root.start.height
  | .resets => 15
  | .spawns => 43 + s.root.start.height
  | .starts rest => 40 + rest.height
  | .looks => 39
  | .waits => if s.shutdown.stopRequested then 31 + waitRank (s.shutdown.threads .main) else 31
  | .checks => if s.shutdown.stopRequested then 34 else 31
  | .stops _ rest => 20 + rest.height
  | .finishes _ => 10
  | .joins _ => 9
  | .restores .terminate _ => 8
  | .restores .interrupt _ => 7
  | .destroys _ rest => 2 + rest.height
  | .exited _ | .terminated => 0

/-- What the watcher has before it: a request once a signal is pending, its end once the bridge has
finished; before that it turns in its loop. -/
def watcherRank (s : ServerProcess) : ℕ :=
  if s.pending then
    match s.watcher with
    | .absent => 9
    | .sleeps => 8
    | .polls => 7
    | .checks => 6
    | .requests =>
        match s.shutdown.threads .watcher with
        | .requesting => 5
        | .notifying => 4
        | _ => 3
    | .ended => 0
  else if s.finished then
    match s.watcher with
    | .absent | .checks => 9
    | .sleeps => 8
    | .polls => 7
    | .requests | .ended => 0
  else 10

/-- The rank of the process. -/
noncomputable def rank (s : ServerProcess) : ℕ := 20 * s.watcherRank + s.mainRank

/-- The thread whose step brings the process nearer to its end. -/
def helpful (s : ServerProcess) : ProcessThread :=
  match s.main with
  | .waits =>
      if s.shutdown.stopRequested then
        if stopChanged.blocked (s.shutdown.threads .main) then .watcher else .main
      else .watcher
  | .checks => if s.shutdown.stopRequested then .main else .watcher
  | .joins _ => if s.watcher = .absent ∨ s.watcher = .ended then .main else .watcher
  | _ => .main

/-- What is left of the root's programs is bounded. -/
def Bounded (s : ServerProcess) : Prop :=
  match s.main with
  | .starts rest => ∃ n, rest.Within n
  | .stops _ rest | .destroys _ rest => rest.Within 1
  | _ => True

/-- The process is on its way out: a signal is pending, or the main thread has left its loop. -/
structure Leaving (s : ServerProcess) : Prop where
  coordinated : Coordinated s
  bounded : Bounded s
  sought : s.pending = true ∧ s.main ≠ .clears ∨ s.main.code?.isSome = true

theorem Bounded.main (hs : Bounded s) (h : MainStep s s') : Bounded s' := by
  unfold Bounded at hs
  cases h with
  | spawns hat => exact ⟨9, s.root.start_within⟩
  | startCalls answer hat =>
      rw [hat] at hs
      obtain ⟨n, m, -, hnext⟩ := hs
      exact ⟨m, hnext answer⟩
  | notReady hat => exact s.root.stop_within
  | requested hat hreturned => exact s.root.stop_within
  | unhealthy hat => exact s.root.stop_within
  | restoresInterrupt hat => exact s.root.stop_within
  | stopCalls answer hat =>
      rw [hat] at hs
      obtain ⟨m, hm, hnext⟩ := hs
      exact (hnext answer).mono (by omega)
  | destroyCalls answer hat =>
      rw [hat] at hs
      obtain ⟨m, hm, hnext⟩ := hs
      exact (hnext answer).mono (by omega)
  | _ => simp_all [Bounded]

/-! ## What each step does to the rank -/

/-- The loop of the main thread, which turns while no stop is requested. -/
def Turning (s : ServerProcess) : Prop :=
  (s.main = .waits ∨ s.main = .checks) ∧ s.shutdown.stopRequested = false

theorem waitRank_le (thread : ShutdownThread) : waitRank thread ≤ 4 := by
  unfold waitRank
  split <;> omega

/-- What a thread in `waitFor` does by itself lowers its rank, once a stop is requested. -/
theorem waitRank_own {c c' : ShutdownCoordinator ProcessThread}
    (h : ShutdownCoordinator.Step (some .main) c c') (hrequested : c.stopRequested = true)
    (hin : (c.threads .main).inWaitFor = true) :
    waitRank (c'.threads .main) < waitRank (c.threads .main) := by
  obtain ⟨-, -, -, hwaits, hawake⟩ := ShutdownCoordinator.waitFor_own_step h hin
  obtain ⟨timed, hback⟩ := ShutdownCoordinator.waiter_own_step h hrequested hwaits hawake
  have hone : waitRank (c.threads .main) = 1 := by
    cases hat : c.threads .main with
    | blocked timed => exact absurd hat (hawake timed)
    | returned timed result =>
        rw [hat] at hwaits
        cases hwaits
    | _ => rfl
  rw [hback, hone]
  exact Nat.zero_lt_one

/-- A step of the main thread lowers its rank, or is a turn of its loop. -/
theorem mainRank_main (hs : s.Leaving) (h : MainStep s s') (hclears : s.main ≠ .clears) :
    mainRank s' < mainRank s ∨ s.Turning ∧ s'.Turning ∧ mainRank s' = mainRank s := by
  have hbounded := hs.bounded
  have hattended := hs.coordinated.attended
  have hstop := height_le s.root.stop_within
  unfold Bounded at hbounded
  unfold Attended at hattended
  cases h with
  | clears hat => exact absurd hat hclears
  | startCalls answer hat =>
      left
      rw [hat] at hbounded
      obtain ⟨n, hwithin⟩ := hbounded
      have hnext := height_next hwithin answer
      simp only [mainRank, hat]
      omega
  | stopCalls answer hat =>
      left
      rw [hat] at hbounded
      have hnext := height_next hbounded answer
      simp only [mainRank, hat]
      omega
  | destroyCalls answer hat =>
      left
      rw [hat] at hbounded
      have hnext := height_next hbounded answer
      simp only [mainRank, hat]
      omega
  | ready hat =>
      left
      simp only [mainRank, hat, atCoordinator_self, atCoordinator_stopRequested, waitRank]
      split <;> omega
  | waiting hat hstep =>
      simp only [hat] at hattended
      have hsame := (ShutdownCoordinator.waitFor_own_step hstep hattended.1).1
      cases hrequested : s.shutdown.stopRequested with
      | true =>
          left
          have hlower := waitRank_own hstep hrequested hattended.1
          simp only [mainRank, hat, hsame, hrequested, if_true]
          omega
      | false =>
          right
          rw [hrequested] at hsame
          refine ⟨⟨Or.inl hat, hrequested⟩, ⟨Or.inl hat, hsame⟩, ?_⟩
          simp only [mainRank, hat, hsame, hrequested, Bool.false_eq_true, if_false]
  | requested hat hreturned =>
      left
      simp only [mainRank, hat]
      split <;> omega
  | timedOut hat hreturned =>
      cases hrequested : s.shutdown.stopRequested with
      | true =>
          left
          simp [mainRank, hat, hrequested, hreturned, waitRank]
      | false =>
          right
          refine ⟨⟨Or.inl hat, hrequested⟩, ⟨Or.inr rfl, hrequested⟩, ?_⟩
          simp [mainRank, hat, hrequested]
  | unhealthy hat =>
      left
      simp only [mainRank, hat]
      split <;> omega
  | healthy hat =>
      cases hrequested : s.shutdown.stopRequested with
      | true =>
          left
          simp [mainRank, hat, hrequested, waitRank]
      | false =>
          right
          refine ⟨⟨Or.inr hat, hrequested⟩, ⟨Or.inl rfl, hrequested⟩, ?_⟩
          simp [mainRank, hat, hrequested]
  | _ =>
      left
      simp only [mainRank, *]
      omega

/-- The main thread takes nothing from the watcher. -/
theorem watcherRank_main (hs : s.Leaving) (h : MainStep s s') (hclears : s.main ≠ .clears) :
    watcherRank s' ≤ watcherRank s := by
  have hattended := hs.coordinated.attended
  unfold Attended at hattended
  cases h with
  | clears hat => exact absurd hat hclears
  | spawns hat =>
      simp only [hat] at hattended
      simp only [watcherRank, hattended.2.1, hattended.2.2.1]
      split <;> simp
  | waiting hat hstep =>
      simp only [hat] at hattended
      have hothers := (ShutdownCoordinator.waitFor_own_step hstep hattended.1).2.2.1
      simp only [watcherRank, hothers .watcher (by decide)]
      exact Nat.le_refl _
  | finishes hat =>
      simp only [hat] at hattended
      simp only [watcherRank, hattended.2]
      split
      · exact Nat.le_refl _
      · simp only [if_true, Bool.false_eq_true, if_false]
        split <;> omega
  | _ => exact Nat.le_refl _

/-- Of the main thread's rank the others touch what it has before it in the loop. -/
theorem mainRank_others (hmain : s'.main = s.main) (hroot : s'.root = s.root) :
    mainRank s' ≤ mainRank s + 4 := by
  have hle := waitRank_le (s'.shutdown.threads .main)
  unfold mainRank
  rw [hmain, hroot]
  cases hat : s.main with
  | waits =>
      dsimp only
      split <;> split <;> omega
  | checks =>
      dsimp only
      split <;> split <;> omega
  | sets signal => cases signal <;> exact Nat.le_add_right _ _
  | restores signal code => cases signal <;> exact Nat.le_add_right _ _
  | _ => exact Nat.le_add_right _ _

/-- A step of the watcher lowers its rank, once it has something to do. -/
theorem watcherRank_watcher (hs : s.Leaving) (h : WatcherStep s s')
    (hseen : s.pending = true ∨ s.finished = true) : watcherRank s' < watcherRank s := by
  have hwatching := hs.coordinated.watching
  unfold Watching at hwatching
  cases h with
  | finished hat hfinished =>
      simp only [watcherRank, hat, hfinished, if_true]
      split <;> omega
  | polls hat hfinished =>
      have hpending := hseen.resolve_right (by rw [hfinished]; exact Bool.false_ne_true)
      simp [watcherRank, hat, hpending]
  | found hat hpending => simp [watcherRank, hat, hpending]
  | quiet hat hpending =>
      have hfinished := hseen.resolve_left (by rw [hpending]; exact Bool.false_ne_true)
      simp [watcherRank, hat, hpending, hfinished]
  | sleeps hat =>
      simp only [watcherRank, hat]
      split
      · omega
      · rename_i hnot
        rw [if_pos (hseen.resolve_left hnot), if_pos (hseen.resolve_left hnot)]
        omega
  | requesting hat hstep =>
      simp only [hat] at hwatching
      obtain ⟨hpending, hstage⟩ := hwatching
      obtain ⟨hrequests, hnotifies, hinside⟩ := ShutdownCoordinator.requestStop_own_step hstep
      simp only [watcherRank, hat, hpending, if_true]
      rcases hstage with hfirst | ⟨hnext, -⟩ | ⟨hlast, -⟩
      · simp [(hrequests hfirst).2.1, hfirst]
      · simp [(hnotifies hnext).2.1, hnext]
      · exact absurd hlast hinside
  | requested hat houtside =>
      simp only [hat] at hwatching
      simp [watcherRank, hat, hwatching.1, houtside]

/-! ## Who can move -/

/-- A watcher that is about can move. -/
theorem watcher_enabled (hs : Coordinated s) (hmain : s.main ≠ .terminated)
    (hbefore : s.watcher ≠ .absent ∧ s.watcher ≠ .ended) :
    Enabled (Step oneShot) .watcher s := by
  have hwatching := hs.watching
  unfold Watching at hwatching
  cases hat : s.watcher with
  | absent => exact absurd hat hbefore.1
  | ended => exact absurd hat hbefore.2
  | polls =>
      cases hfinished : s.finished with
      | true => exact ⟨_, hmain, .finished hat hfinished⟩
      | false => exact ⟨_, hmain, .polls hat hfinished⟩
  | checks =>
      cases hpending : s.pending with
      | true => exact ⟨_, hmain, .found hat hpending⟩
      | false => exact ⟨_, hmain, .quiet hat hpending⟩
  | sleeps => exact ⟨_, hmain, .sleeps hat⟩
  | requests =>
      simp only [hat] at hwatching
      rcases hwatching.2 with hfirst | ⟨hnext, -⟩ | ⟨hlast, -⟩
      · obtain ⟨c, hstep⟩ := ShutdownCoordinator.enabled_of_move hfirst .requests
        exact ⟨_, hmain, .requesting hat hstep⟩
      · exact ⟨_, hmain, .requesting hat (ShutdownCoordinator.Step.notify ProcessThread.watcher hnext)⟩
      · exact ⟨_, hmain, .requested hat hlast⟩

/-- What the root calls is answered. -/
theorem answered (op : RootCall) : Nonempty op.Answer := by
  cases op with
  | stop => exact ⟨()⟩
  | _ => exact ⟨none⟩

/-- The main thread can move, unless it waits in `waitFor` or for the watcher. -/
theorem main_enabled (hover : s.isOver = false) (hwaits : s.main ≠ .waits)
    (hjoins : ∀ code, s.main = .joins code → s.watcher = .absent ∨ s.watcher = .ended) :
    Enabled (Step oneShot) .main s := by
  cases hat : s.main with
  | clears => exact ⟨_, MainStep.clears hat⟩
  | sets signal =>
      cases signal with
      | interrupt => exact ⟨_, MainStep.setsInterrupt hat⟩
      | terminate => exact ⟨_, MainStep.setsTerminate hat⟩
  | resets => exact ⟨_, MainStep.resets hat⟩
  | spawns => exact ⟨_, MainStep.spawns hat⟩
  | starts rest =>
      cases rest with
      | call op next =>
          obtain ⟨answer⟩ := answered op
          exact ⟨_, MainStep.startCalls answer hat⟩
      | ret r =>
          obtain ⟨result, root⟩ := r
          cases result with
          | none => exact ⟨_, MainStep.startThrows hat⟩
          | some result =>
              cases hfailure : result.failure with
              | some failure => exact ⟨_, MainStep.startFails hat hfailure⟩
              | none =>
                  exact ⟨_, MainStep.startReturns hat (by rw [StartupResult.ok, hfailure]; rfl)⟩
  | looks => exact ⟨_, MainStep.ready hat⟩
  | waits => exact absurd hat hwaits
  | checks => exact ⟨_, MainStep.healthy hat⟩
  | stops code rest =>
      cases rest with
      | call op next =>
          obtain ⟨answer⟩ := answered op
          exact ⟨_, MainStep.stopCalls answer hat⟩
      | ret root => exact ⟨_, MainStep.stopped hat⟩
  | finishes code => exact ⟨_, MainStep.finishes hat⟩
  | joins code => exact ⟨_, MainStep.joins hat (hjoins code hat)⟩
  | restores signal code =>
      cases signal with
      | interrupt => exact ⟨_, MainStep.restoresInterrupt hat⟩
      | terminate => exact ⟨_, MainStep.restoresTerminate hat⟩
  | destroys code rest =>
      cases rest with
      | call op next =>
          obtain ⟨answer⟩ := answered op
          exact ⟨_, MainStep.destroyCalls answer hat⟩
      | ret root => exact ⟨_, MainStep.destroyed hat⟩
  | exited code => simp [isOver, hat] at hover
  | terminated => simp [isOver, hat] at hover

/-- A thread in `waitFor` can move once a stop is requested, unless it is blocked. -/
theorem waits_enabled (hat : s.main = .waits) (hin : (s.shutdown.threads .main).inWaitFor = true)
    (hrequested : s.shutdown.stopRequested = true)
    (hawake : stopChanged.blocked (s.shutdown.threads .main) = false) :
    Enabled (Step oneShot) .main s := by
  have hlooks : (s.shutdown.threads .main).waits = true → Enabled (Step oneShot) .main s := by
    intro hwaits
    obtain ⟨c, hstep⟩ := ShutdownCoordinator.waiter_enabled (i := .main) hrequested hwaits
      fun timed hblocked => by
        rw [hblocked] at hawake
        cases hawake
    exact ⟨_, MainStep.waiting hat hstep⟩
  cases hthread : s.shutdown.threads .main with
  | returned timed result =>
      rw [hthread] at hin
      obtain rfl : timed = true := hin
      cases result with
      | true => exact ⟨_, MainStep.requested hat hthread⟩
      | false => exact ⟨_, MainStep.timedOut hat hthread⟩
  | entered timed => exact hlooks (by rw [hthread]; rfl)
  | roused timed => exact hlooks (by rw [hthread]; rfl)
  | expired => exact hlooks (by rw [hthread]; rfl)
  | blocked timed =>
      rw [hthread] at hawake
      cases hawake
  | _ =>
      rw [hthread] at hin
      cases hin

/-! ## On the way out -/

theorem WatcherStep.flags (h : WatcherStep s s') :
    s'.pending = s.pending ∧ s'.finished = s.finished := by
  cases h <;> exact ⟨rfl, rfl⟩

theorem Leaving.ne_clears (hs : s.Leaving) : s.main ≠ .clears := by
  rcases hs.sought with ⟨-, hclears⟩ | hcode
  · exact hclears
  · intro hat
    rw [hat] at hcode
    cases hcode

/-- What the main thread does keeps the process on its way out. -/
theorem Leaving.main (hs : s.Leaving) (h : MainStep s s') : s'.Leaving where
  coordinated := hs.coordinated.main h
  bounded := hs.bounded.main h
  sought := by
    rcases hs.sought with ⟨hpending, hclears⟩ | hcode
    · left
      cases h with
      | clears hat => exact absurd hat hclears
      | waiting hat hstep => exact ⟨hpending, hclears⟩
      | _ => exact ⟨hpending, fun heq => nomatch heq⟩
    · right
      cases h <;> simp_all [MainPhase.code?]

/-- So do the others, unless the process is killed. -/
theorem Leaving.step (hs : s.Leaving) (h : Step oneShot a s s') :
    s'.isOver = true ∨ s'.Leaving := by
  have hcoordinated := hs.coordinated.step h
  unfold Step at h
  split at h
  · exact Or.inr (hs.main h)
  · obtain ⟨hmain, -⟩ := h.2.frame
    refine Or.inr ⟨hcoordinated, ?_, ?_⟩
    · unfold Bounded
      rw [hmain]
      exact hs.bounded
    · rw [h.2.flags.1, hmain]
      exact hs.sought
  · split at h
    · exact Or.inr (h ▸ hs)
    · cases h with
      | idle => exact Or.inr hs
      | recorded signal hrecorder =>
          exact Or.inr ⟨hcoordinated, hs.bounded, Or.inl ⟨rfl, hs.ne_clears⟩⟩
      | killed signal hdefault => exact Or.inl rfl
      | clock hat hwaits hmove => exact Or.inr ⟨hcoordinated, hs.bounded, hs.sought⟩

theorem helpful_of_turning (h : s.Turning) : s.helpful = .watcher := by
  obtain ⟨hat | hat, hnone⟩ := h
  · simp [helpful, hat, hnone]
  · simp [helpful, hat, hnone]

/-- In the loop of the main thread the signal is what is sought. -/
theorem Leaving.pending (hs : s.Leaving) (hnone : s.main.code? = none) : s.pending = true := by
  rcases hs.sought with ⟨hpending, -⟩ | hcode
  · exact hpending
  · rw [hnone] at hcode
    cases hcode

/-- As long as no stop is requested and the bridge is in use the watcher has not ended. -/
theorem watcher_ne_ended (hs : Coordinated s) (hfinished : s.finished = false)
    (hnone : s.shutdown.stopRequested = false) : s.watcher ≠ .ended := by
  intro hended
  have hwatching := hs.watching
  unfold Watching at hwatching
  simp only [hended] at hwatching
  rcases hwatching.2 with hset | hset
  · rw [hfinished] at hset
    cases hset
  · rw [hnone] at hset
    cases hset

/-- A main thread that is blocked although a stop is requested is about to be notified. -/
theorem watcher_notifies (hs : Coordinated s) (hrequested : s.shutdown.stopRequested = true)
    (hblocked : stopChanged.blocked (s.shutdown.threads .main) = true) :
    s.watcher ≠ .absent ∧ s.watcher ≠ .ended := by
  obtain ⟨timed, hthread⟩ : ∃ timed, s.shutdown.threads .main = .blocked timed := by
    cases hthread : s.shutdown.threads .main with
    | blocked timed => exact ⟨timed, rfl⟩
    | _ =>
        rw [hthread] at hblocked
        cases hblocked
  obtain ⟨j, hj⟩ := hs.sound.due hrequested .main timed hthread
  cases j with
  | main =>
      rw [hthread] at hj
      cases hj
  | watcher =>
      have hwatching := hs.watching
      unfold Watching at hwatching
      constructor <;> intro hphase <;> simp [hphase, hj] at hwatching

/-- Where the watcher is helpful it is about, and has something to do. -/
theorem watcher_helpful (hs : s.Leaving) (hhelpful : s.helpful = .watcher) :
    s.main ≠ .terminated ∧ (s.watcher ≠ .absent ∧ s.watcher ≠ .ended) ∧
      (s.pending = true ∨ s.finished = true) := by
  have hattended := hs.coordinated.attended
  unfold Attended at hattended
  cases hat : s.main with
  | waits =>
      simp only [hat] at hattended
      obtain ⟨-, habout, hfinished⟩ := hattended
      refine ⟨fun heq => (nomatch heq), ?_, Or.inl (hs.pending (by rw [hat]; rfl))⟩
      cases hrequested : s.shutdown.stopRequested with
      | false => exact ⟨habout, watcher_ne_ended hs.coordinated hfinished hrequested⟩
      | true =>
          simp only [helpful, hat, hrequested, if_true] at hhelpful
          split at hhelpful
          · rename_i hblocked
            exact watcher_notifies hs.coordinated hrequested hblocked
          · cases hhelpful
  | checks =>
      simp only [hat] at hattended
      obtain ⟨-, habout, hfinished⟩ := hattended
      refine ⟨fun heq => (nomatch heq), ?_, Or.inl (hs.pending (by rw [hat]; rfl))⟩
      cases hrequested : s.shutdown.stopRequested with
      | false => exact ⟨habout, watcher_ne_ended hs.coordinated hfinished hrequested⟩
      | true => simp [helpful, hat, hrequested] at hhelpful
  | joins code =>
      simp only [hat] at hattended
      simp only [helpful, hat] at hhelpful
      split at hhelpful
      · cases hhelpful
      · rename_i hnot
        exact ⟨fun heq => (nomatch heq), not_or.mp hnot, Or.inr hattended.2⟩
  | _ => simp [helpful, hat] at hhelpful

/-- Where the main thread is helpful it can move. -/
theorem main_helpful (hs : s.Leaving) (hover : s.isOver = false) (hhelpful : s.helpful = .main) :
    Enabled (Step oneShot) .main s := by
  by_cases hwaits : s.main = .waits
  · have hattended := hs.coordinated.attended
    unfold Attended at hattended
    simp only [hwaits] at hattended
    simp only [helpful, hwaits] at hhelpful
    split at hhelpful
    · rename_i hrequested
      split at hhelpful
      · cases hhelpful
      · rename_i hawake
        exact waits_enabled hwaits hattended.1 hrequested (by simpa using hawake)
    · cases hhelpful
  · refine main_enabled hover hwaits fun code hat => ?_
    simp only [helpful, hat] at hhelpful
    split at hhelpful
    · assumption
    · cases hhelpful

/-- The rank after a step of the main thread. -/
theorem rank_main (hs : s.Leaving) (h : MainStep s s') :
    rank s' < rank s ∨ s.Turning ∧ rank s' = rank s ∧ s'.helpful = s.helpful := by
  have hwatcher := watcherRank_main hs h hs.ne_clears
  unfold rank
  rcases mainRank_main hs h hs.ne_clears with hlower | ⟨hturning, hturning', hsame⟩
  · left
    omega
  · rcases Nat.lt_or_ge s'.watcherRank s.watcherRank with hlower | hnot
    · left
      omega
    · right
      refine ⟨hturning, by omega, ?_⟩
      rw [helpful_of_turning hturning, helpful_of_turning hturning']

/-- The rank after a step of the watcher that has something to do. -/
theorem rank_watcher (hs : s.Leaving) (h : WatcherStep s s')
    (hseen : s.pending = true ∨ s.finished = true) : rank s' < rank s := by
  obtain ⟨hmain, -, -, -, -, hroot, -⟩ := h.frame
  have hlower := watcherRank_watcher hs h hseen
  have hothers := mainRank_others hmain hroot
  unfold rank
  omega

/-- A watcher that has seen nothing turns, while the main thread goes on from its loop. -/
theorem rank_unseen (hs : s.Leaving) (h : WatcherStep s s') (hpending : s.pending = false)
    (hfinished : s.finished = false) : rank s' = rank s ∧ s'.helpful = s.helpful := by
  obtain ⟨hmain, -, -, -, -, hroot, -⟩ := h.frame
  obtain ⟨hpending', hfinished'⟩ := h.flags
  rw [hpending] at hpending'
  rw [hfinished] at hfinished'
  have hcode := hs.sought.resolve_left fun hseen => by
    rw [hpending] at hseen
    cases hseen.1
  have hattended := hs.coordinated.attended
  unfold Attended at hattended
  cases hat : s.main with
  | stops code rest =>
      simp [rank, watcherRank, mainRank, helpful, hmain, hat, hpending, hpending', hfinished,
        hfinished']
  | finishes code =>
      simp [rank, watcherRank, mainRank, helpful, hmain, hat, hpending, hpending', hfinished,
        hfinished']
  | _ => simp_all [MainPhase.code?]

/-- A signal that is recorded leaves the watcher no more to do. -/
theorem watcherRank_recorded (hs : s.Leaving) (hpending : s'.pending = true)
    (hwatcher : s'.watcher = s.watcher) (hshutdown : s'.shutdown = s.shutdown) :
    watcherRank s' ≤ watcherRank s := by
  have hwatching := hs.coordinated.watching
  unfold Watching at hwatching
  cases hseen : s.pending with
  | true =>
      simp only [watcherRank, hpending, hwatcher, hshutdown, hseen]
      exact Nat.le_refl _
  | false =>
      simp only [watcherRank, hpending, hwatcher, hseen, if_true, Bool.false_eq_true, if_false]
      cases hat : s.watcher with
      | requests =>
          simp only [hat, hseen] at hwatching
          exact absurd hwatching.1 Bool.false_ne_true
      | _ =>
          dsimp only
          split <;> omega

/-- The rank after a signal is recorded. -/
theorem rank_recorded (hs : s.Leaving) (hpending : s'.pending = true) (hmain : s'.main = s.main)
    (hwatcher : s'.watcher = s.watcher) (hshutdown : s'.shutdown = s.shutdown)
    (hroot : s'.root = s.root) :
    rank s' < rank s ∨ rank s' = rank s ∧ s'.helpful = s.helpful := by
  have hle := watcherRank_recorded hs hpending hwatcher hshutdown
  have hmainRank : mainRank s' = mainRank s := by
    unfold mainRank
    rw [hmain, hshutdown, hroot]
  have hhelpful : s'.helpful = s.helpful := by
    unfold helpful
    rw [hmain, hshutdown, hwatcher]
  unfold rank
  rcases Nat.lt_or_ge s'.watcherRank s.watcherRank with hlower | hnot
  · left
    omega
  · right
    exact ⟨by omega, hhelpful⟩

/-- The rank after a step of the surroundings. -/
theorem rank_outside (hs : s.Leaving) (h : OutsideStep oneShot s s') :
    s'.isOver = true ∨ rank s' < rank s ∨ rank s' = rank s ∧ s'.helpful = s.helpful := by
  cases h with
  | idle => exact Or.inr (Or.inr ⟨rfl, rfl⟩)
  | killed signal hdefault => exact Or.inl rfl
  | recorded signal hrecorder => exact Or.inr (rank_recorded hs rfl rfl rfl rfl rfl)
  | @clock thread hat hwaits hmove =>
      right
      have hlower : s.shutdown.stopRequested = true →
          waitRank thread < waitRank (s.shutdown.threads .main) := by
        intro hrequested
        rw [hrequested] at hmove
        generalize s.shutdown.threads .main = before at hmove hwaits
        cases hmove with
        | rouses timed => exact Nat.lt_succ_self 1
        | expires => exact Nat.lt_succ_self 1
        | _ => cases hwaits
      cases hrequested : s.shutdown.stopRequested with
      | true =>
          left
          have hlower := hlower hrequested
          simp only [rank, watcherRank, mainRank, hat, atCoordinator_watcher, atCoordinator_self,
            atCoordinator_stopRequested, hrequested, if_true]
          omega
      | false =>
          right
          constructor
          · simp only [rank, watcherRank, mainRank, hat, atCoordinator_watcher,
              atCoordinator_stopRequested, hrequested, Bool.false_eq_true, if_false]
          · simp only [helpful, hat, atCoordinator_stopRequested, hrequested, Bool.false_eq_true,
              if_false]

/-- What brings the process to its end. -/
noncomputable def leaves (oneShot : Bool) :
    Progress (Step oneShot) Leaving (fun s => s.isOver = true) where
  rank := rank
  helpful := helpful
  keeps a s s' hs _ h := hs.step h
  enabled s hs hnot := by
    cases hhelpful : s.helpful with
    | main => exact main_helpful hs (by simpa using hnot) hhelpful
    | watcher =>
        obtain ⟨hmain, habout, -⟩ := watcher_helpful hs hhelpful
        exact watcher_enabled hs.coordinated hmain habout
  helps s s' hs _ h := by
    cases hhelpful : s.helpful with
    | main =>
        rw [hhelpful] at h
        rcases rank_main hs h with hlower | ⟨hturning, -⟩
        · exact Or.inr hlower
        · rw [helpful_of_turning hturning] at hhelpful
          cases hhelpful
    | watcher =>
        rw [hhelpful] at h
        exact Or.inr (rank_watcher hs h.2 (watcher_helpful hs hhelpful).2.2)
  harmless a s s' hs hnot h := by
    unfold Step at h
    split at h
    · exact Or.inr ((rank_main hs h).imp_right And.right)
    · by_cases hseen : s.pending = true ∨ s.finished = true
      · exact Or.inr (Or.inl (rank_watcher hs h.2 hseen))
      · simp only [not_or, Bool.not_eq_true] at hseen
        exact Or.inr (Or.inr (rank_unseen hs h.2 hseen.1 hseen.2))
    · rw [if_neg hnot] at h
      exact rank_outside hs h

/-! ## Whole executions -/

/-- Before its first step the bridge has nothing that could record a signal. -/
theorem unseen_of_clears (hhandled : Handled ignored s)
    (hunseen : s.main = .clears → s.pending = false) (h : Step oneShot a s s') :
    s'.main = .clears → s'.pending = false := by
  intro hclears
  unfold Step at h
  split at h
  · cases h with
    | waiting hat hstep =>
        rw [show s.main = .clears from hclears] at hat
        cases hat
    | _ => cases hclears
  · rw [h.2.flags.1]
    exact hunseen (h.2.frame.1 ▸ hclears)
  · split at h
    · rw [h] at hclears ⊢
      exact hunseen hclears
    · cases h with
      | idle => exact hunseen hclears
      | recorded signal hrecorder =>
          unfold Handled at hhandled
          simp only [show s.main = .clears from hclears] at hhandled
          rw [hhandled.2] at hrecorder
          exact absurd hrecorder (inherited_ne_recorder signal)
      | killed => cases hclears
      | clock hat hwaits hmove => exact hunseen hclears

section Executions

variable {e : Execution (Step oneShot)}

theorem ruled_of_execution (hstart : e.state 0 = launched ignored) (n : ℕ) :
    Ruled ignored (e.state n) :=
  e.invariant (fun _ _ _ hs h => hs.step h) (hstart ▸ ruled_launched ignored) (Nat.zero_le n)

theorem bounded_of_execution (hstart : e.state 0 = launched ignored) (n : ℕ) :
    Bounded (e.state n) := by
  refine e.invariant (I := Bounded) (fun a s s' hs h => ?_) (hstart ▸ trivial) (Nat.zero_le n)
  unfold Step at h
  split at h
  · exact hs.main h
  · unfold Bounded
    rw [h.2.frame.1]
    exact hs
  · split at h
    · exact h ▸ hs
    · cases h with
      | killed => trivial
      | _ => exact hs

theorem unseen_of_execution (hstart : e.state 0 = launched ignored) (n : ℕ) :
    (e.state n).main = .clears → (e.state n).pending = false := by
  induction n with
  | zero =>
      intro _
      rw [hstart]
      rfl
  | succ n ih => exact unseen_of_clears (ruled_of_execution hstart n).handled ih (e.steps n)

/-- A signal ends the process.  In every execution in which the two threads are scheduled fairly,
however signals arrive, time passes and the platform answers: once a signal has been recorded, or
the main thread is on its way to an exit status, the process comes to its end.  No timeout of
`waitFor` has to pass for it. -/
theorem exits_eventually (hstart : e.state 0 = launched ignored) (hfair : e.Fair) {k : ℕ}
    (hsought : (e.state k).pending = true ∨ ∃ code, (e.state k).main.code? = some code) :
    ∃ m, k ≤ m ∧ ((∃ code, (e.state m).main = .exited code) ∨ (e.state m).main = .terminated) := by
  have hleaving : (e.state k).Leaving := by
    refine ⟨(ruled_of_execution hstart k).coordinated, bounded_of_execution hstart k, ?_⟩
    rcases hsought with hpending | ⟨code, hcode⟩
    · refine Or.inl ⟨hpending, fun hclears => ?_⟩
      rw [unseen_of_execution hstart k hclears] at hpending
      cases hpending
    · exact Or.inr (by rw [hcode]; rfl)
  obtain ⟨m, hm, hover⟩ := (leaves oneShot).eventually hfair hleaving
  refine ⟨m, hm, ?_⟩
  cases hat : (e.state m).main with
  | exited code => exact Or.inl ⟨code, rfl⟩
  | terminated => exact Or.inr rfl
  | _ => simp [isOver, hat] at hover

end Executions

/-- When the process is over and the watcher through, nobody can move. -/
theorem not_enabled_exited {code : ℕ} (hat : s.main = .exited code) (hended : s.watcher = .ended)
    (a : ProcessThread) : ¬ Enabled (Step oneShot) a s := by
  rintro ⟨s', h⟩
  cases a with
  | main => cases h <;> simp_all
  | watcher => cases h.2 <;> simp_all

/-- A process that is interrupted at its wait: the watcher requests the stop, and it ends. -/
theorem exits_eventually_interrupted :
    ∃ (e : Execution (Step false)) (k n : ℕ), e.state 0 = launched (fun _ => false) ∧ e.Fair ∧
      (e.state k).WaitsForStop ∧ (e.state k).pending = true ∧
      k ≤ n ∧ (e.state n).shutdown.stopRequested = true ∧ (e.state n).watcher = .ended ∧
      ∃ m, k ≤ m ∧
        ((∃ code, (e.state m).main = .exited code) ∨ (e.state m).main = .terminated) := by
  obtain ⟨waiting, hreach, hwaits, hrecorder⟩ := @reaches_waiting false
  obtain ⟨hstep, hwaits⟩ := @WaitsForStop.interrupted false _ hwaits hrecorder
  obtain ⟨woken, hwoken, hmain, hwatcher, hrequested, hroused⟩ :=
    @WaitsForStop.requests false _ hwaits rfl
  obtain ⟨last, hlast, hexited, hended⟩ :=
    @reaches_exit false _ hmain hwatcher hrequested hroused
  have hover : last.isOver = true := by
    rw [isOver, hexited]
  have hrest : Step false none last last := (if_pos hover).mpr rfl
  obtain ⟨e, k, n, hstart, hfair, hk, hn, hlater⟩ :=
    Execution.exists_fair (hreach.tail ⟨none, hstep⟩) hwoken hlast hrest
      (not_enabled_exited hexited hended)
  have hpending : (e.state k).pending = true := by
    rw [hk]
    rfl
  refine ⟨e, k, n, hstart, hfair, hk ▸ hwaits, hpending, hn, ?_, ?_,
    exits_eventually hstart hfair (Or.inl hpending)⟩
  · rw [hlater, hrequested]
  · rw [hlater, hwatcher]

end ServerProcess

end Warehouse.Bootstrap
