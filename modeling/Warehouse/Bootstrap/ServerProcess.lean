/-
# Warehouse.Bootstrap.ServerProcess — the process, from its first step to its exit status

`runWarehouseServer` and the bridge of `signal_shutdown.cpp`: the main thread, the thread that
watches for signals, and the surroundings, which deliver signals, let time pass, and answer for the
platform.  The composition root is executed call by call, the coordinator is the one of
`ShutdownCoordinator`, with two threads.

An exception that leaves `runWarehouseServer` terminates the process; that `std::signal` takes back
a disposition that it has given out is taken for granted.
-/
import Warehouse.Bootstrap.CompositionRoot
import Warehouse.Bootstrap.ShutdownCoordinator

namespace Warehouse.Bootstrap

open Warehouse.Interaction Warehouse.Interaction.Program

/-! ## The parts of a process -/

/-- The signals of the bridge. -/
inductive StopSignal
  | interrupt | terminate
  deriving DecidableEq, Repr

/-- What a signal does; `recorder` is `recordProcessSignal`. -/
inductive Disposition
  | default | ignored | recorder
  deriving DecidableEq, Repr

/-- The threads that use the coordinator. -/
inductive ProcessThread
  | main | watcher
  deriving DecidableEq, Repr

/-- Where the main thread is.  The constructor of the bridge comes first, `finishes` to `restores`
are its destructor, `destroys` is the destructor of the root. -/
inductive MainPhase
  | clears
  | sets (signal : StopSignal)
  | resets
  | spawns
  | starts (rest : RootProgram (Option StartupResult × CompositionRoot))
  | looks
  | waits
  | checks
  | stops (code : ℕ) (rest : RootProgram CompositionRoot)
  | finishes (code : ℕ)
  | joins (code : ℕ)
  | restores (signal : StopSignal) (code : ℕ)
  | destroys (code : ℕ) (rest : RootProgram CompositionRoot)
  | exited (code : ℕ)
  | terminated

/-- The exit status that the process is going to leave with. -/
def MainPhase.code? : MainPhase → Option ℕ
  | .stops code _ | .finishes code | .joins code | .restores _ code | .destroys code _
  | .exited code => some code
  | _ => none

/-- Where `watcher_` is. -/
inductive WatcherPhase
  | absent | polls | checks | sleeps | requests | ended
  deriving DecidableEq, Repr

/-- What was printed, on which stream. -/
inductive ProcessLine
  | out (text : Bytes)
  | err (text : Bytes)
  deriving DecidableEq, Repr

/-- Whether a line is on `std::cerr`. -/
def ProcessLine.isError : ProcessLine → Bool
  | .out _ => false
  | .err _ => true

/-- The process. -/
structure ServerProcess where
  main : MainPhase
  watcher : WatcherPhase
  disposition : StopSignal → Disposition
  /-- `previousInterrupt_` and `previousTerminate_` -/
  previous : StopSignal → Disposition
  /-- `processSignalPending` -/
  pending : Bool
  finished : Bool
  installed : Bool
  shutdown : ShutdownCoordinator ProcessThread
  root : CompositionRoot
  /-- What the root has called so far, and what was answered. -/
  calls : RootHistory
  lines : List ProcessLine

/-- What `std::cerr` gets for a failed start. -/
def startupFailed (failure : StageFailure) : ProcessLine :=
  .err (lit "Startup failed [" ++ failure.code ++ lit "]: " ++ failure.message ++ lit "\n")

namespace ServerProcess

/-- A process as it is launched, with the signals ignored that its parent ignores. -/
def launched (ignored : StopSignal → Bool) : ServerProcess where
  main := .clears
  watcher := .absent
  disposition signal := if ignored signal then .ignored else .default
  previous _ := .default
  pending := false
  finished := false
  installed := false
  shutdown := .fresh
  root := {}
  calls := []
  lines := []

/-- The process is over. -/
def isOver (s : ServerProcess) : Bool :=
  match s.main with
  | .exited _ | .terminated => true
  | _ => false

/-- `ShutdownCoordinator` with another phase of one of the threads. -/
def atCoordinator (s : ServerProcess) (i : ProcessThread) (thread : ShutdownThread) :
    ShutdownCoordinator ProcessThread :=
  { s.shutdown with threads := Function.update s.shutdown.threads i thread }

/-! ## Steps -/

/-- A step of `runWarehouseServer`. -/
inductive MainStep (s : ServerProcess) : ServerProcess → Prop
  | clears (hat : s.main = .clears) :
      MainStep s { s with pending := false, main := .sets .interrupt }
  | interruptRefused (hat : s.main = .sets .interrupt) :
      MainStep s { s with
        lines := s.lines ++ [.err (lit "Process signal handlers could not be installed\n")]
        main := .finishes 1 }
  | setsInterrupt (hat : s.main = .sets .interrupt) :
      MainStep s { s with
        previous := Function.update s.previous .interrupt (s.disposition .interrupt)
        disposition := Function.update s.disposition .interrupt .recorder
        main := .sets .terminate }
  | terminateRefused (hat : s.main = .sets .terminate) : MainStep s { s with main := .resets }
  | setsTerminate (hat : s.main = .sets .terminate) :
      MainStep s { s with
        previous := Function.update s.previous .terminate (s.disposition .terminate)
        disposition := Function.update s.disposition .terminate .recorder
        main := .spawns }
  | resets (hat : s.main = .resets) :
      MainStep s { s with
        disposition := Function.update s.disposition .interrupt (s.previous .interrupt)
        lines := s.lines ++ [.err (lit "Process signal handlers could not be installed\n")]
        main := .finishes 1 }
  -- the constructor of `std::thread` throws
  | spawnThrows (hat : s.main = .spawns) :
      MainStep s { s with installed := true, main := .terminated }
  | spawns (hat : s.main = .spawns) :
      MainStep s { s with
        installed := true, watcher := .polls, main := .starts s.root.start }
  | startCalls {op : RootCall}
      {next : op.Answer → RootProgram (Option StartupResult × CompositionRoot)}
      (answer : op.Answer) (hat : s.main = .starts (.call op next)) :
      MainStep s { s with calls := s.calls ++ [⟨op, answer⟩], main := .starts (next answer) }
  | startThrows {root : CompositionRoot} (hat : s.main = .starts (.ret (none, root))) :
      MainStep s { s with root := root, main := .terminated }
  | startFails {result : StartupResult} {root : CompositionRoot} {failure : StageFailure}
      (hat : s.main = .starts (.ret (some result, root))) (hfailed : result.failure = some failure) :
      MainStep s { s with
        root := root, lines := s.lines ++ [startupFailed failure], main := .finishes 1 }
  | startReturns {result : StartupResult} {root : CompositionRoot}
      (hat : s.main = .starts (.ret (some result, root))) (hok : result.ok = true) :
      MainStep s { s with root := root, main := .looks }
  | notReady (hat : s.main = .looks) :
      MainStep s { s with
        lines := s.lines ++ [.err (lit "Startup failed [http_listener_not_ready]: " ++
          lit "HTTP listener stopped before readiness was reported\n")]
        main := .stops 1 s.root.stop }
  | ready (hat : s.main = .looks) :
      MainStep s { s with
        lines := s.lines ++ [.out (lit "Warehouse server is listening\n")]
        shutdown := s.atCoordinator .main (.entered true), main := .waits }
  | waiting {shutdown : ShutdownCoordinator ProcessThread} (hat : s.main = .waits)
      (hstep : ShutdownCoordinator.Step (some .main) s.shutdown shutdown) :
      MainStep s { s with shutdown := shutdown }
  | requested (hat : s.main = .waits)
      (hreturned : s.shutdown.threads .main = .returned true true) :
      MainStep s { s with
        shutdown := s.atCoordinator .main .outside, main := .stops 0 s.root.stop }
  | timedOut (hat : s.main = .waits)
      (hreturned : s.shutdown.threads .main = .returned true false) :
      MainStep s { s with shutdown := s.atCoordinator .main .outside, main := .checks }
  | unhealthy (hat : s.main = .checks) :
      MainStep s { s with
        lines := s.lines ++ [.err (lit "Runtime failure [http_listener_stopped]: " ++
          lit "HTTP listener stopped unexpectedly\n")]
        main := .stops 1 s.root.stop }
  | healthy (hat : s.main = .checks) :
      MainStep s { s with shutdown := s.atCoordinator .main (.entered true), main := .waits }
  | stopCalls {code : ℕ} {op : RootCall} {next : op.Answer → RootProgram CompositionRoot}
      (answer : op.Answer) (hat : s.main = .stops code (.call op next)) :
      MainStep s { s with calls := s.calls ++ [⟨op, answer⟩], main := .stops code (next answer) }
  | stopped {code : ℕ} {root : CompositionRoot} (hat : s.main = .stops code (.ret root)) :
      MainStep s { s with root := root, main := .finishes code }
  | finishes {code : ℕ} (hat : s.main = .finishes code) :
      MainStep s { s with finished := true, main := .joins code }
  | joins {code : ℕ} (hat : s.main = .joins code) (hwatcher : s.watcher = .absent ∨ s.watcher = .ended) :
      MainStep s { s with main := .restores .terminate code }
  | restoresTerminate {code : ℕ} (hat : s.main = .restores .terminate code) :
      MainStep s { s with
        disposition := if s.installed then
          Function.update s.disposition .terminate (s.previous .terminate) else s.disposition
        main := .restores .interrupt code }
  | restoresInterrupt {code : ℕ} (hat : s.main = .restores .interrupt code) :
      MainStep s { s with
        disposition := if s.installed then
          Function.update s.disposition .interrupt (s.previous .interrupt) else s.disposition
        main := .destroys code s.root.stop }
  | destroyCalls {code : ℕ} {op : RootCall} {next : op.Answer → RootProgram CompositionRoot}
      (answer : op.Answer) (hat : s.main = .destroys code (.call op next)) :
      MainStep s { s with calls := s.calls ++ [⟨op, answer⟩], main := .destroys code (next answer) }
  | destroyed {code : ℕ} {root : CompositionRoot} (hat : s.main = .destroys code (.ret root)) :
      MainStep s { s with root := root, main := .exited code }

/-- A step of `watcher_`. -/
inductive WatcherStep (s : ServerProcess) : ServerProcess → Prop
  | finished (hat : s.watcher = .polls) (hfinished : s.finished = true) :
      WatcherStep s { s with watcher := .ended }
  | polls (hat : s.watcher = .polls) (hfinished : s.finished = false) :
      WatcherStep s { s with watcher := .checks }
  | found (hat : s.watcher = .checks) (hpending : s.pending = true) :
      WatcherStep s { s with shutdown := s.atCoordinator .watcher .requesting, watcher := .requests }
  | quiet (hat : s.watcher = .checks) (hpending : s.pending = false) :
      WatcherStep s { s with watcher := .sleeps }
  | sleeps (hat : s.watcher = .sleeps) : WatcherStep s { s with watcher := .polls }
  | requesting {shutdown : ShutdownCoordinator ProcessThread} (hat : s.watcher = .requests)
      (hstep : ShutdownCoordinator.Step (some .watcher) s.shutdown shutdown) :
      WatcherStep s { s with shutdown := shutdown }
  | requested (hat : s.watcher = .requests) (houtside : s.shutdown.threads .watcher = .outside) :
      WatcherStep s { s with watcher := .ended }

/-- A step of the surroundings.  `oneShot` tells whether the disposition of a signal is reset when
the handler is called, which `std::signal` leaves to the implementation. -/
inductive OutsideStep (oneShot : Bool) (s : ServerProcess) : ServerProcess → Prop
  | idle : OutsideStep oneShot s s
  | recorded (signal : StopSignal) (hrecorder : s.disposition signal = .recorder) :
      OutsideStep oneShot s { s with
        pending := true
        disposition := if oneShot then Function.update s.disposition signal .default
          else s.disposition }
  | killed (signal : StopSignal) (hdefault : s.disposition signal = .default) :
      OutsideStep oneShot s { s with main := .terminated }
  -- a spurious wake-up, or the end of the timeout
  | clock {thread : ShutdownThread} (hat : s.main = .waits)
      (hwaits : (s.shutdown.threads .main).waits = true)
      (hmove : ShutdownMove s.shutdown.stopRequested false (s.shutdown.threads .main) thread
        s.shutdown.stopRequested) :
      OutsideStep oneShot s { s with shutdown := s.atCoordinator .main thread }

/-- A step of the process: of a thread of a process that is not over, or of the surroundings. -/
def Step (oneShot : Bool) (a : Option ProcessThread) (s s' : ServerProcess) : Prop :=
  match a with
  | some .main => MainStep s s'
  | some .watcher => s.main ≠ .terminated ∧ WatcherStep s s'
  | none => if s.isOver then s' = s else OutsideStep oneShot s s'

variable {oneShot : Bool} {ignored : StopSignal → Bool} {a : Option ProcessThread}
  {s s' : ServerProcess}

/-! ## What the steps of the others leave alone -/

theorem WatcherStep.frame (h : WatcherStep s s') :
    s'.main = s.main ∧ s'.disposition = s.disposition ∧ s'.previous = s.previous ∧
      s'.installed = s.installed ∧ s'.calls = s.calls ∧ s'.root = s.root ∧ s'.lines = s.lines := by
  cases h <;> exact ⟨rfl, rfl, rfl, rfl, rfl, rfl, rfl⟩

/-! ## Dispositions -/

/-- What the parent left. -/
def inherited (ignored : StopSignal → Bool) (signal : StopSignal) : Disposition :=
  if ignored signal then .ignored else .default

/-- What is saved and what is set, phase by phase. -/
def Handled (ignored : StopSignal → Bool) (s : ServerProcess) : Prop :=
  match s.main with
  | .clears | .sets .interrupt => s.installed = false ∧ s.disposition = inherited ignored
  | .sets .terminate | .resets => s.installed = false ∧
      s.previous .interrupt = inherited ignored .interrupt ∧
      s.disposition .terminate = inherited ignored .terminate
  | .spawns => s.installed = false ∧ s.previous = inherited ignored
  | .starts _ | .looks | .waits | .checks | .stops .. =>
      s.installed = true ∧ s.previous = inherited ignored
  | .finishes _ | .joins _ | .restores .terminate _ =>
      if s.installed then s.previous = inherited ignored else s.disposition = inherited ignored
  | .restores .interrupt _ =>
      if s.installed then s.previous .interrupt = inherited ignored .interrupt ∧
        s.disposition .terminate = inherited ignored .terminate
      else s.disposition = inherited ignored
  | .destroys .. | .exited _ => s.disposition = inherited ignored
  | .terminated => True

theorem inherited_ne_recorder (signal : StopSignal) : inherited ignored signal ≠ .recorder := by
  unfold inherited
  split <;> exact fun heq => nomatch heq

/-- What is right about both signals is right. -/
theorem eq_inherited {disposition : StopSignal → Disposition}
    (hinterrupt : disposition .interrupt = inherited ignored .interrupt)
    (hterminate : disposition .terminate = inherited ignored .terminate) :
    disposition = inherited ignored := by
  funext signal
  cases signal with
  | interrupt => exact hinterrupt
  | terminate => exact hterminate

theorem Handled.main (hs : Handled ignored s) (h : MainStep s s') : Handled ignored s' := by
  unfold Handled at hs
  cases h with
  | setsInterrupt hat =>
      rw [hat] at hs
      obtain ⟨hinstalled, hold⟩ := hs
      exact ⟨hinstalled, congrFun hold .interrupt, congrFun hold .terminate⟩
  | setsTerminate hat =>
      rw [hat] at hs
      obtain ⟨hinstalled, hinterrupt, hterminate⟩ := hs
      exact ⟨hinstalled, eq_inherited hinterrupt hterminate⟩
  | resets hat =>
      rw [hat] at hs
      obtain ⟨hinstalled, hinterrupt, hterminate⟩ := hs
      simp only [Handled, hinstalled]
      exact eq_inherited hinterrupt hterminate
  | restoresTerminate hat =>
      rw [hat] at hs
      cases hinstalled : s.installed with
      | false => simpa [Handled, hinstalled] using hs
      | true =>
          simp only [hinstalled, if_true] at hs
          simp only [Handled, if_true]
          exact ⟨congrFun hs .interrupt, congrFun hs .terminate⟩
  | restoresInterrupt hat =>
      rw [hat] at hs
      cases hinstalled : s.installed with
      | false => simpa [Handled, hinstalled] using hs
      | true =>
          simp only [hinstalled, if_true] at hs
          simp only [Handled, if_true]
          exact eq_inherited hs.1 hs.2
  | _ => simp_all [Handled]

/-- Steps that keep what the parent left where it still is, or is again. -/
theorem Handled.keeps (hs : Handled ignored s) (hmain : s'.main = s.main)
    (hprevious : s'.previous = s.previous) (hinstalled : s'.installed = s.installed)
    (hkeeps : ∀ signal, s.disposition signal = inherited ignored signal →
      s'.disposition signal = inherited ignored signal) : Handled ignored s' := by
  have hall : s.disposition = inherited ignored → s'.disposition = inherited ignored :=
    fun hold => funext fun signal => hkeeps signal (congrFun hold signal)
  have hone := hkeeps .terminate
  unfold Handled at hs ⊢
  rw [hmain, hprevious, hinstalled]
  cases hat : s.main with
  | sets signal => cases signal <;> simp_all
  | restores signal code => cases signal <;> simp only [hat] at hs ⊢ <;> split <;> simp_all
  | finishes code => simp only [hat] at hs ⊢; split <;> simp_all
  | joins code => simp only [hat] at hs ⊢; split <;> simp_all
  | _ => simp_all

theorem Handled.outside (hs : Handled ignored s) (h : OutsideStep oneShot s s') :
    Handled ignored s' := by
  cases h with
  | idle => exact hs
  | recorded signal hrecorder =>
      refine hs.keeps rfl rfl rfl fun other hother => ?_
      cases oneShot with
      | false => exact hother
      | true =>
          -- a signal that is recorded is not where the parent left it
          have hne : other ≠ signal := by
            rintro rfl
            rw [hrecorder] at hother
            exact inherited_ne_recorder other hother.symm
          exact (Function.update_of_ne hne _ _).trans hother
  | killed signal hdefault => trivial
  | clock hat hwaits hmove => exact hs

theorem Handled.step (hs : Handled ignored s) (h : Step oneShot a s s') : Handled ignored s' := by
  unfold Step at h
  split at h
  · exact hs.main h
  · obtain ⟨hmain, hdisposition, hprevious, hinstalled, -⟩ := h.2.frame
    exact hs.keeps hmain hprevious hinstalled fun signal hold => hdisposition ▸ hold
  · split at h
    · exact h ▸ hs
    · exact hs.outside h

/-! ## What is printed -/

/-- The line that reports readiness. -/
def listening : ProcessLine := .out (lit "Warehouse server is listening\n")

/-- What a process that leaves with `code` has printed. -/
def PrintedFor (code : ℕ) (lines : List ProcessLine) : Prop :=
  code = 0 ∧ lines = [listening] ∨ code = 1 ∧ lines.countP ProcessLine.isError = 1

/-- What is printed, phase by phase. -/
def Reported (s : ServerProcess) : Prop :=
  match s.main with
  | .clears | .sets _ | .resets | .spawns | .starts _ | .looks => s.lines = []
  | .waits | .checks => s.lines = [listening]
  | .stops code _ | .finishes code | .joins code | .restores _ code | .destroys code _
  | .exited code => PrintedFor code s.lines
  | .terminated => True

theorem printedFor_error {lines : List ProcessLine} (hlines : lines = [] ∨ lines = [listening])
    (text : Bytes) : PrintedFor 1 (lines ++ [.err text]) := by
  right
  rcases hlines with rfl | rfl <;> exact ⟨rfl, rfl⟩

theorem Reported.main (hs : Reported s) (h : MainStep s s') : Reported s' := by
  unfold Reported at hs
  cases h with
  | interruptRefused hat =>
      rw [hat] at hs
      exact printedFor_error (Or.inl hs) _
  | resets hat =>
      rw [hat] at hs
      exact printedFor_error (Or.inl hs) _
  | startFails hat hfailed =>
      rw [hat] at hs
      exact printedFor_error (Or.inl hs) _
  | notReady hat =>
      rw [hat] at hs
      exact printedFor_error (Or.inl hs) _
  | unhealthy hat =>
      rw [hat] at hs
      exact printedFor_error (Or.inr hs) _
  | requested hat hreturned =>
      rw [hat] at hs
      exact Or.inl ⟨rfl, hs⟩
  | ready hat =>
      rw [hat] at hs
      show s.lines ++ [listening] = [listening]
      rw [hs, List.nil_append]
  | _ => simp_all [Reported]

/-! ## What the root has done -/

/-- Every call met its demand when it was made. -/
def Heeded (calls : RootHistory) : Prop :=
  ∀ past event future, calls = past ++ event :: future → LifeDemand past event

theorem Heeded.snoc {calls : RootHistory} {event : Event RootCall RootCall.Answer}
    (h : Heeded calls) (hevent : LifeDemand calls event) : Heeded (calls ++ [event]) := by
  intro past event' future hsplit
  rcases List.eq_nil_or_concat future with rfl | ⟨before, last, rfl⟩
  · obtain ⟨rfl, hlast⟩ := List.append_inj' hsplit rfl
    obtain rfl : event = event' := by simpa using hlast
    exact hevent
  · rw [List.concat_eq_append, ← List.cons_append, ← List.append_assoc] at hsplit
    obtain ⟨hcalls, -⟩ := List.append_inj' hsplit rfl
    exact h past event' before hcalls

/-- The root was started, if that is what the exit status says, and goes with its history. -/
def StartedIfZero (code : ℕ) (starts : List (Option StartupResult)) : Prop :=
  code = 0 → 0 < starts.countP startedOk

/-- The root is stopped if it was ever touched. -/
def SoundAndStopped (starts : List (Option StartupResult)) (root : CompositionRoot)
    (calls : RootHistory) : Prop :=
  LifeSound starts root calls ∧ (root.platformTouched = true → root.stopped = true)

/-- The root and its calls, phase by phase. -/
def Accounted (s : ServerProcess) : Prop :=
  match s.main with
  | .clears | .sets _ | .resets | .spawns => s.root = {} ∧ s.calls = []
  | .starts rest => wph LifeDemand (fun r h => LifeSound [r.1] r.2 h) rest s.calls
  | .looks | .waits | .checks => ∃ starts, 0 < starts.countP startedOk ∧ LifeSound starts s.root s.calls
  | .stops code rest | .destroys code rest => ∃ starts, StartedIfZero code starts ∧
      wph LifeDemand (SoundAndStopped starts) rest s.calls
  | .finishes code | .joins code | .restores _ code => ∃ starts, StartedIfZero code starts ∧
      LifeSound starts s.root s.calls
  | .exited code => ∃ starts, StartedIfZero code starts ∧ SoundAndStopped starts s.root s.calls
  | .terminated => True

theorem startedIfZero_one {starts : List (Option StartupResult)} : StartedIfZero 1 starts :=
  fun hcode => absurd hcode Nat.one_ne_zero

/-- A root that was not used. -/
theorem lifeSound_unused {root : CompositionRoot} {calls : RootHistory}
    (h : root = {} ∧ calls = []) : LifeSound [] root calls := by
  rw [h.1, h.2]
  exact lifeSound_init

theorem Accounted.main (hs : Accounted s) (hheeded : Heeded s.calls) (h : MainStep s s') :
    Accounted s' ∧ Heeded s'.calls := by
  unfold Accounted at hs
  cases h with
  | interruptRefused hat =>
      rw [hat] at hs
      exact ⟨⟨[], startedIfZero_one, lifeSound_unused hs⟩, hheeded⟩
  | resets hat =>
      rw [hat] at hs
      exact ⟨⟨[], startedIfZero_one, lifeSound_unused hs⟩, hheeded⟩
  | spawns hat =>
      rw [hat] at hs
      exact ⟨start_sound (lifeSound_unused hs), hheeded⟩
  | startCalls answer hat =>
      rw [hat] at hs
      obtain ⟨hdemand, hnext⟩ := (wph_call _ _ _).mp hs answer
      exact ⟨hnext, hheeded.snoc hdemand⟩
  | startThrows hat => exact ⟨trivial, hheeded⟩
  | @startFails result root failure hat hfailed =>
      rw [hat] at hs
      exact ⟨⟨_, startedIfZero_one, hs⟩, hheeded⟩
  | @startReturns result root hat hok =>
      rw [hat] at hs
      refine ⟨⟨[some result], ?_, hs⟩, hheeded⟩
      simp [startedOk, hok]
  | notReady hat =>
      rw [hat] at hs
      obtain ⟨starts, hstarted, hsound⟩ := hs
      exact ⟨⟨starts, fun _ => hstarted, stop_sound hsound⟩, hheeded⟩
  | requested hat hreturned =>
      rw [hat] at hs
      obtain ⟨starts, hstarted, hsound⟩ := hs
      exact ⟨⟨starts, fun _ => hstarted, stop_sound hsound⟩, hheeded⟩
  | unhealthy hat =>
      rw [hat] at hs
      obtain ⟨starts, hstarted, hsound⟩ := hs
      exact ⟨⟨starts, fun _ => hstarted, stop_sound hsound⟩, hheeded⟩
  | stopCalls answer hat =>
      rw [hat] at hs
      obtain ⟨starts, hstarted, hrest⟩ := hs
      obtain ⟨hdemand, hnext⟩ := (wph_call _ _ _).mp hrest answer
      exact ⟨⟨starts, hstarted, hnext⟩, hheeded.snoc hdemand⟩
  | stopped hat =>
      rw [hat] at hs
      obtain ⟨starts, hstarted, hstopped⟩ := hs
      exact ⟨⟨starts, hstarted, hstopped.1⟩, hheeded⟩
  | restoresInterrupt hat =>
      rw [hat] at hs
      obtain ⟨starts, hstarted, hsound⟩ := hs
      exact ⟨⟨starts, hstarted, stop_sound hsound⟩, hheeded⟩
  | destroyCalls answer hat =>
      rw [hat] at hs
      obtain ⟨starts, hstarted, hrest⟩ := hs
      obtain ⟨hdemand, hnext⟩ := (wph_call _ _ _).mp hrest answer
      exact ⟨⟨starts, hstarted, hnext⟩, hheeded.snoc hdemand⟩
  | _ => simp_all [Accounted]

/-! ## The two threads at the coordinator -/

/-- The watcher and the coordinator, as the main thread may count on them. -/
def Attended (s : ServerProcess) : Prop :=
  match s.main with
  | .clears | .sets _ | .resets | .spawns => s.shutdown.threads .main = .outside ∧
      s.watcher = .absent ∧ s.finished = false ∧ s.shutdown.stopRequested = false
  | .starts _ | .looks | .checks | .stops .. => s.shutdown.threads .main = .outside ∧
      s.watcher ≠ .absent ∧ s.finished = false
  | .waits => (s.shutdown.threads .main).inWaitFor = true ∧ s.watcher ≠ .absent ∧ s.finished = false
  | .finishes _ => s.shutdown.threads .main = .outside ∧ s.finished = false
  | .joins _ => s.shutdown.threads .main = .outside ∧ s.finished = true
  | .restores .. | .destroys .. | .exited _ => s.shutdown.threads .main = .outside ∧
      s.finished = true ∧ (s.watcher = .absent ∨ s.watcher = .ended)
  | .terminated => True

/-- Where the watcher is at the coordinator. -/
def Watching (s : ServerProcess) : Prop :=
  match s.watcher with
  | .requests => s.pending = true ∧ (s.shutdown.threads .watcher = .requesting ∨
      s.shutdown.threads .watcher = .notifying ∧ s.shutdown.stopRequested = true ∨
      s.shutdown.threads .watcher = .outside ∧ s.shutdown.stopRequested = true)
  | .ended => s.shutdown.threads .watcher = .outside ∧
      (s.finished = true ∨ s.shutdown.stopRequested = true)
  | _ => s.shutdown.threads .watcher = .outside

/-- The invariant of the two threads. -/
structure Coordinated (s : ServerProcess) : Prop where
  sound : s.shutdown.Sound
  recorded : s.shutdown.stopRequested = true → s.pending = true
  attended : s.Attended
  watching : s.Watching
  asked : s.main.code? = some 0 → s.shutdown.stopRequested = true

/-- Steps of others that only add to what the watcher has seen. -/
theorem Watching.keeps (hs : s.Watching) (hwatcher : s'.watcher = s.watcher)
    (hthread : s'.shutdown.threads .watcher = s.shutdown.threads .watcher)
    (hpending : s.pending = true → s'.pending = true)
    (hfinished : s.finished = true → s'.finished = true)
    (hrequested : s.shutdown.stopRequested = true → s'.shutdown.stopRequested = true) :
    s'.Watching := by
  unfold Watching at hs ⊢
  rw [hwatcher, hthread]
  cases hat : s.watcher with
  | requests =>
      simp only [hat] at hs ⊢
      obtain ⟨hseen, hstage⟩ := hs
      refine ⟨hpending hseen, ?_⟩
      rcases hstage with hfirst | ⟨hnext, hset⟩ | ⟨hlast, hset⟩
      · exact Or.inl hfirst
      · exact Or.inr (Or.inl ⟨hnext, hrequested hset⟩)
      · exact Or.inr (Or.inr ⟨hlast, hrequested hset⟩)
  | ended =>
      simp only [hat] at hs ⊢
      exact ⟨hs.1, hs.2.imp hfinished hrequested⟩
  | _ => simpa only [hat] using hs

/-- A call, a return, or a wake-up. -/
theorem atCoordinator_step {i : ProcessThread} {thread : ShutdownThread}
    (hmove : ShutdownMove s.shutdown.stopRequested false (s.shutdown.threads i) thread
      s.shutdown.stopRequested) :
    ShutdownCoordinator.Step none s.shutdown (s.atCoordinator i thread) :=
  ShutdownCoordinator.Step.move i (by rfl) hmove

@[simp] theorem atCoordinator_self (i : ProcessThread) (thread : ShutdownThread) :
    (s.atCoordinator i thread).threads i = thread := Function.update_self ..

@[simp] theorem atCoordinator_watcher (thread : ShutdownThread) :
    (s.atCoordinator .main thread).threads .watcher = s.shutdown.threads .watcher := rfl

@[simp] theorem atCoordinator_main (thread : ShutdownThread) :
    (s.atCoordinator .watcher thread).threads .main = s.shutdown.threads .main := rfl

@[simp] theorem atCoordinator_stopRequested (i : ProcessThread) (thread : ShutdownThread) :
    (s.atCoordinator i thread).stopRequested = s.shutdown.stopRequested := rfl

theorem Coordinated.main (hs : Coordinated s) (h : MainStep s s') : Coordinated s' := by
  obtain ⟨hsound, hrecorded, hattended, hwatching, hasked⟩ := hs
  unfold Attended at hattended
  cases h with
  | clears hat =>
      simp only [hat] at hattended
      refine ⟨hsound, fun hset => ?_, hattended, ?_, fun hcode => nomatch hcode⟩
      · rw [hattended.2.2.2] at hset
        cases hset
      · unfold Watching at hwatching ⊢
        simp only [hattended.2.1] at hwatching ⊢
        exact hwatching
  | spawns hat =>
      simp only [hat] at hattended
      refine ⟨hsound, hrecorded, ⟨hattended.1, fun heq => (nomatch heq), hattended.2.2.1⟩, ?_,
        fun hcode => nomatch hcode⟩
      unfold Watching at hwatching
      simp only [hattended.2.1] at hwatching
      exact hwatching
  | ready hat =>
      simp only [hat] at hattended
      exact ⟨hsound.step (atCoordinator_step (hattended.1 ▸ .enters true)), hrecorded,
        ⟨by simp [ShutdownThread.inWaitFor], hattended.2⟩,
        hwatching.keeps rfl rfl id id id, fun hcode => nomatch hcode⟩
  | healthy hat =>
      simp only [hat] at hattended
      exact ⟨hsound.step (atCoordinator_step (hattended.1 ▸ .enters true)), hrecorded,
        ⟨by simp [ShutdownThread.inWaitFor], hattended.2⟩,
        hwatching.keeps rfl rfl id id id, fun hcode => nomatch hcode⟩
  | waiting hat hstep =>
      simp only [hat] at hattended
      obtain ⟨hsame, hin, hothers, -⟩ := ShutdownCoordinator.waitFor_own_step hstep hattended.1
      refine ⟨hsound.step hstep, ?_, ?_, ?_, ?_⟩
      · exact fun hset => hrecorded (hsame ▸ hset)
      · simp only [Attended, hat]
        exact ⟨hin, hattended.2⟩
      · exact hwatching.keeps rfl (hothers .watcher (by decide)) id id fun hset => hsame.trans hset
      · exact fun hcode => hsame.trans (hasked hcode)
  | requested hat hreturned =>
      simp only [hat] at hattended
      exact ⟨hsound.step (atCoordinator_step (hreturned ▸ .leaves true true)), hrecorded,
        ⟨by simp, hattended.2⟩, hwatching.keeps rfl rfl id id id,
        fun _ => hsound.found .main true hreturned⟩
  | timedOut hat hreturned =>
      simp only [hat] at hattended
      exact ⟨hsound.step (atCoordinator_step (hreturned ▸ .leaves true false)), hrecorded,
        ⟨by simp, hattended.2⟩, hwatching.keeps rfl rfl id id id, fun hcode => nomatch hcode⟩
  | finishes hat =>
      simp only [hat] at hattended
      refine ⟨hsound, hrecorded, ⟨hattended.1, rfl⟩, ?_, ?_⟩
      · exact hwatching.keeps rfl rfl id (fun _ => rfl) id
      · simpa [MainPhase.code?, hat] using hasked
  | _ =>
      exact ⟨hsound, hrecorded, by simp_all [Attended], hwatching.keeps rfl rfl id id id,
        by simp_all [MainPhase.code?]⟩

/-- Steps of a watcher that is about, and still about afterwards or at its end. -/
theorem Attended.watcher (hs : s.Attended) (hmain : s'.main = s.main)
    (hfinished : s'.finished = s.finished) (hbefore : s.watcher ≠ .absent ∧ s.watcher ≠ .ended)
    (hafter : s'.watcher ≠ .absent)
    (houtside : s.shutdown.threads .main = .outside → s'.shutdown.threads .main = .outside)
    (hinside : (s.shutdown.threads .main).inWaitFor = true →
      (s'.shutdown.threads .main).inWaitFor = true) : s'.Attended := by
  unfold Attended at hs ⊢
  rw [hmain, hfinished]
  cases hat : s.main <;> simp_all

theorem Coordinated.watcher (hs : Coordinated s) (h : WatcherStep s s') : Coordinated s' := by
  obtain ⟨hsound, hrecorded, hattended, hwatching, hasked⟩ := hs
  unfold Watching at hwatching
  -- what the steps between the looks have in common
  have hmoves : ∀ phase : WatcherPhase, (s.watcher ≠ .absent ∧ s.watcher ≠ .ended) →
      phase ≠ .absent → ({ s with watcher := phase } : ServerProcess).Attended :=
    fun phase hbefore hafter => hattended.watcher rfl rfl hbefore hafter id id
  cases h with
  | finished hat hfinished =>
      simp only [hat] at hwatching
      exact ⟨hsound, hrecorded, hmoves .ended (by simp [hat]) (by decide),
        ⟨hwatching, Or.inl hfinished⟩, hasked⟩
  | polls hat hfinished =>
      simp only [hat] at hwatching
      exact ⟨hsound, hrecorded, hmoves .checks (by simp [hat]) (by decide), hwatching, hasked⟩
  | quiet hat hpending =>
      simp only [hat] at hwatching
      exact ⟨hsound, hrecorded, hmoves .sleeps (by simp [hat]) (by decide), hwatching, hasked⟩
  | sleeps hat =>
      simp only [hat] at hwatching
      exact ⟨hsound, hrecorded, hmoves .polls (by simp [hat]) (by decide), hwatching, hasked⟩
  | found hat hpending =>
      simp only [hat] at hwatching
      refine ⟨hsound.step (atCoordinator_step (hwatching ▸ .calls)), hrecorded, ?_,
        ⟨hpending, Or.inl (by simp)⟩, hasked⟩
      exact hattended.watcher rfl rfl (by simp [hat]) (by simp) id id
  | @requesting shutdown hat hstep =>
      simp only [hat] at hwatching
      obtain ⟨hpending, hstage⟩ := hwatching
      obtain ⟨hrequests, hnotifies, hinside⟩ := ShutdownCoordinator.requestStop_own_step hstep
      have hset : s.shutdown.stopRequested = true → shutdown.stopRequested = true :=
        ShutdownCoordinator.stopRequested_step hstep
      rcases hstage with hfirst | ⟨hnext, hold⟩ | ⟨hlast, -⟩
      · obtain ⟨hnow, hthread, hothers⟩ := hrequests hfirst
        refine ⟨hsound.step hstep, fun _ => hpending, ?_, ?_, fun _ => hnow⟩
        · have hsame := hothers .main (by decide)
          exact hattended.watcher rfl rfl (by simp [hat]) (by simp [hat]) (fun hout => hsame.trans hout)
            fun hin => (congrArg ShutdownThread.inWaitFor hsame).trans hin
        · simp only [Watching, hat]
          exact ⟨hpending, Or.inr (Or.inl ⟨hthread, hnow⟩)⟩
      · obtain ⟨-, hthread, hothers⟩ := hnotifies hnext
        refine ⟨hsound.step hstep, fun _ => hpending, ?_, ?_, fun _ => hset hold⟩
        · have hroused := hothers .main (by decide)
          refine hattended.watcher rfl rfl (by simp [hat]) (by simp [hat]) (fun hout => ?_) fun hin => ?_
          · rw [hroused, hout]
            rfl
          · rw [hroused, ShutdownThread.notified_inWaitFor, hin]
        · simp only [Watching, hat]
          exact ⟨hpending, Or.inr (Or.inr ⟨hthread, hset hold⟩)⟩
      · exact absurd hlast hinside
  | requested hat houtside =>
      simp only [hat] at hwatching
      obtain ⟨hpending, hstage⟩ := hwatching
      have hset : s.shutdown.stopRequested = true := by
        rcases hstage with hfirst | ⟨hnext, -⟩ | ⟨-, hset⟩
        · rw [houtside] at hfirst
          cases hfirst
        · rw [houtside] at hnext
          cases hnext
        · exact hset
      exact ⟨hsound, hrecorded, hmoves .ended (by simp [hat]) (by decide),
        ⟨houtside, Or.inr hset⟩, hasked⟩

theorem Coordinated.outside (hs : Coordinated s) (h : OutsideStep oneShot s s') :
    Coordinated s' := by
  obtain ⟨hsound, hrecorded, hattended, hwatching, hasked⟩ := hs
  cases h with
  | idle => exact ⟨hsound, hrecorded, hattended, hwatching, hasked⟩
  | recorded signal hrecorder =>
      exact ⟨hsound, fun _ => rfl, hattended, hwatching.keeps rfl rfl (fun _ => rfl) id id, hasked⟩
  | killed signal hdefault =>
      exact ⟨hsound, hrecorded, trivial, hwatching.keeps rfl rfl id id id, fun hcode => nomatch hcode⟩
  | clock hat hwaits hmove =>
      refine ⟨hsound.step (atCoordinator_step hmove), hrecorded, ?_, hwatching.keeps rfl rfl id id id,
        hasked⟩
      unfold Attended at hattended ⊢
      simp only [hat] at hattended ⊢
      refine ⟨?_, hattended.2⟩
      rw [atCoordinator_self]
      rcases (hmove.of_inWaitFor hattended.1).2 with hstays | ⟨-, hleaves⟩
      · exact hstays
      · rw [hleaves] at hmove
        exact absurd hwaits hmove.waits_of_outside

theorem Coordinated.step (hs : Coordinated s) (h : Step oneShot a s s') : Coordinated s' := by
  unfold Step at h
  split at h
  · exact hs.main h
  · exact hs.watcher h.2
  · split at h
    · exact h ▸ hs
    · exact hs.outside h

/-! ## Runs -/

/-- What is printed and what the root has done goes with the main thread. -/
theorem Reported.step (hs : Reported s) (h : Step oneShot a s s') : Reported s' := by
  unfold Step at h
  split at h
  · exact hs.main h
  · obtain ⟨hmain, -, -, -, -, -, hlines⟩ := h.2.frame
    unfold Reported
    rw [hmain, hlines]
    exact hs
  · split at h
    · exact h ▸ hs
    · cases h with
      | killed => trivial
      | _ => exact hs

theorem Accounted.step (hs : Accounted s) (hheeded : Heeded s.calls) (h : Step oneShot a s s') :
    Accounted s' ∧ Heeded s'.calls := by
  unfold Step at h
  split at h
  · exact hs.main hheeded h
  · obtain ⟨hmain, -, -, -, hcalls, hroot, -⟩ := h.2.frame
    unfold Accounted
    rw [hmain, hcalls, hroot]
    exact ⟨hs, hheeded⟩
  · split at h
    · exact h ▸ ⟨hs, hheeded⟩
    · cases h with
      | killed => exact ⟨trivial, hheeded⟩
      | _ => exact ⟨hs, hheeded⟩

/-- What can become of a process. -/
def Reachable (oneShot : Bool) : ServerProcess → ServerProcess → Prop :=
  Relation.ReflTransGen fun s s' => ∃ a, Step oneShot a s s'

/-- The invariant of a process. -/
structure Ruled (ignored : StopSignal → Bool) (s : ServerProcess) : Prop where
  handled : Handled ignored s
  reported : Reported s
  accounted : Accounted s
  heeded : Heeded s.calls
  coordinated : Coordinated s

theorem ruled_launched (ignored : StopSignal → Bool) : Ruled ignored (launched ignored) where
  handled := ⟨rfl, rfl⟩
  reported := rfl
  accounted := ⟨rfl, rfl⟩
  heeded past event future hsplit := by
    have hlength := congrArg List.length hsplit
    simp [launched] at hlength
  coordinated :=
    { sound := ShutdownCoordinator.sound_fresh
      recorded := fun hset => nomatch hset
      attended := ⟨rfl, rfl, rfl, rfl⟩
      watching := rfl
      asked := fun hcode => nomatch hcode }

theorem Ruled.step (hs : Ruled ignored s) (h : Step oneShot a s s') : Ruled ignored s' := by
  obtain ⟨haccounted, hheeded⟩ := hs.accounted.step hs.heeded h
  exact ⟨hs.handled.step h, hs.reported.step h, haccounted, hheeded, hs.coordinated.step h⟩

theorem ruled_of_reachable (h : Reachable oneShot (launched ignored) s) : Ruled ignored s := by
  induction h with
  | refl => exact ruled_launched ignored
  | tail _ hlast ih =>
      obtain ⟨a, hstep⟩ := hlast
      exact ih.step hstep

/-- The exit status can be trusted.  However the threads of the process are scheduled, whenever
signals arrive, and whatever the platform answers: a process that exits leaves with 0, and has then
printed nothing but that it was listening, has started every stage, and was asked to stop by a
signal; or with 1 and exactly one line on `std::cerr`.  Either way the root has called `stop` of the
platform once if it ever touched it (the destructor of the platform, which is not among these calls,
calls it again), the dispositions of the signals are those that the process was launched with, and
the watcher is gone.  And at every moment each stage was called in its place, after stages that all
returned ok, and never after the root had stopped the platform. -/
theorem exit_sound (h : Reachable oneShot (launched ignored) s) :
    (∀ code, s.main = .exited code →
      (code = 0 ∧ s.lines = [listening] ∨ code = 1 ∧ s.lines.countP ProcessLine.isError = 1) ∧
      (code = 0 → s.pending = true ∧ s.shutdown.stopRequested = true ∧
        stagesCalled s.calls = stageOrder ∧ ∀ e ∈ s.calls, stageOk e = true) ∧
      stops s.calls = (if stagesCalled s.calls = [] then 0 else 1) ∧
      s.disposition = inherited ignored ∧
      (s.watcher = .absent ∨ s.watcher = .ended)) ∧
    ∀ past event future stage, s.calls = past ++ event :: future → event.1.stage? = some stage →
      stagesCalled past ++ [stage] <+: stageOrder ∧ (∀ e ∈ past, stageOk e = true) ∧
        stops past = 0 := by
  obtain ⟨hhandled, hreported, haccounted, hheeded, hcoordinated⟩ := ruled_of_reachable h
  constructor
  · intro code hat
    unfold Handled at hhandled
    unfold Reported at hreported
    unfold Accounted at haccounted
    have hattended := hcoordinated.attended
    unfold Attended at hattended
    simp only [hat] at hhandled hreported haccounted hattended
    obtain ⟨starts, hstarted, hsound, hstopped⟩ := haccounted
    refine ⟨hreported, ?_, ?_, hhandled, hattended.2.2⟩
    · rintro rfl
      have hset := hcoordinated.asked (by rw [hat]; rfl)
      exact ⟨hcoordinated.recorded hset, hset, hsound.complete (hstarted rfl)⟩
    · rw [hsound.stopped]
      by_cases hnone : stagesCalled s.calls = []
      · have hrunning : s.root.stopped ≠ true := fun hstop =>
          hsound.touched.mp (hsound.stoppedTouched hstop) hnone
        rw [if_pos hnone, if_neg hrunning]
      · rw [if_neg hnone, if_pos (hstopped (hsound.touched.mpr hnone))]
  · intro past event future stage hsplit hstage
    exact (hheeded past event future hsplit).1 stage hstage

/-! ## A process that is interrupted -/

section Witness

/-- A platform on which everything goes well. -/
private def obligingPlatform : (op : RootCall) → Unit → op.Answer × Unit
  | .load, s => (some completeSource, s)
  | .stage _ _, s => (some {}, s)
  | .wait, s => (some (), s)
  | .stop, s => ((), s)

/-- A start on which everything goes well. -/
theorem runs_start : ∃ events, Runs ({} : CompositionRoot).start events
    (some {}, { platformTouched := true, started := true }) := by
  have hrun := runs_exec obligingPlatform ({} : CompositionRoot).start ()
  have hresult : (({} : CompositionRoot).start.exec obligingPlatform ()).2 =
      (some {}, { platformTouched := true, started := true }) := by decide +kernel
  rw [hresult] at hrun
  exact ⟨_, hrun⟩

/-- The calls of the root, one after the other. -/
theorem reaches_returned {α : Type} {phase : RootProgram α → MainPhase} {rest : RootProgram α}
    {events : RootHistory} {result : α} (hrun : Runs rest events result)
    (hcalls : ∀ (s : ServerProcess) {op : RootCall} {next : op.Answer → RootProgram α}
      (answer : op.Answer), s.main = phase (.call op next) →
      MainStep s { s with calls := s.calls ++ [⟨op, answer⟩], main := phase (next answer) })
    (hat : s.main = phase rest) :
    Reachable oneShot s { s with calls := s.calls ++ events, main := phase (.ret result) } := by
  induction hrun generalizing s with
  | ret a =>
      rw [List.append_nil, ← hat]
      exact .refl
  | @call op next answer events a _ ih =>
      refine .head ⟨some .main, hcalls s answer hat⟩ ?_
      have hlater := @ih { s with
        calls := s.calls ++ [⟨op, answer⟩], main := phase (next answer) } rfl
      rw [List.append_assoc] at hlater
      exact hlater

/-- The main thread sleeps in `waitFor`, and the watcher is about. -/
structure WaitsForStop (s : ServerProcess) : Prop where
  main : s.main = .waits
  blocked : s.shutdown.threads .main = .blocked true
  unrequested : s.shutdown.stopRequested = false
  watcher : s.watcher = .polls
  outside : s.shutdown.threads .watcher = .outside
  unfinished : s.finished = false

/-- A process that starts comes to its wait, with its handlers set. -/
theorem reaches_waiting : ∃ s, Reachable oneShot (launched fun _ => false) s ∧ s.WaitsForStop ∧
    s.disposition .interrupt = .recorder := by
  obtain ⟨events, hrun⟩ := runs_start
  refine ⟨_, .head ⟨some .main, .clears rfl⟩ <| .head ⟨some .main, .setsInterrupt rfl⟩ <|
    .head ⟨some .main, .setsTerminate rfl⟩ <| .head ⟨some .main, .spawns rfl⟩ <|
    (reaches_returned hrun (fun s _ _ answer hat => .startCalls answer hat) rfl).trans <|
    .head ⟨some .main, .startReturns rfl rfl⟩ <| .head ⟨some .main, .ready rfl⟩ <|
    .single ⟨some .main, .waiting rfl (.move .main rfl (.blocks true (Or.inl rfl) rfl))⟩,
    ⟨rfl, rfl, rfl, rfl, rfl, rfl⟩, rfl⟩

/-- Once the signal is recorded the watcher requests the stop, and is through. -/
theorem WaitsForStop.requests (hs : s.WaitsForStop) (hpending : s.pending = true) :
    ∃ t, Reachable oneShot s t ∧ t.main = .waits ∧ t.watcher = .ended ∧
      t.shutdown.stopRequested = true ∧ t.shutdown.threads .main = .roused true := by
  let checking : ServerProcess := { s with watcher := .checks }
  let calling : ServerProcess :=
    { checking with shutdown := checking.atCoordinator .watcher .requesting, watcher := .requests }
  let notifying : ServerProcess :=
    { calling with
      shutdown := ⟨true, Function.update calling.shutdown.threads .watcher .notifying⟩ }
  let notified : ServerProcess :=
    { notifying with
      shutdown := ⟨true, fun i =>
        (Function.update notifying.shutdown.threads .watcher .outside i).notified⟩ }
  have hrunning : s.main ≠ .terminated := fun hterminated => by
    rw [hs.main] at hterminated
    cases hterminated
  have hpolls : Step oneShot (some .watcher) s checking :=
    ⟨hrunning, .polls hs.watcher hs.unfinished⟩
  have hfound : Step oneShot (some .watcher) checking calling := ⟨hrunning, .found rfl hpending⟩
  have hmove : ShutdownMove calling.shutdown.stopRequested true
      (calling.shutdown.threads .watcher) .notifying true := .requests
  have hrequests : Step oneShot (some .watcher) calling notifying :=
    ⟨hrunning, .requesting rfl (.move ProcessThread.watcher rfl hmove)⟩
  have hnotifies : Step oneShot (some .watcher) notifying notified :=
    ⟨hrunning, .requesting rfl (.notify ProcessThread.watcher rfl)⟩
  have hrequested : Step oneShot (some .watcher) notified { notified with watcher := .ended } :=
    ⟨hrunning, .requested rfl rfl⟩
  have hroused : notified.shutdown.threads .main = .roused true := by
    show (s.shutdown.threads .main).notified = _
    rw [hs.blocked]
    rfl
  exact ⟨_, .head ⟨_, hpolls⟩ <| .head ⟨_, hfound⟩ <| .head ⟨_, hrequests⟩ <|
    .head ⟨_, hnotifies⟩ <| .single ⟨_, hrequested⟩, hs.main, rfl, rfl, hroused⟩

/-- The main thread, woken by the request, stops the root and leaves with 0. -/
theorem reaches_exit (hmain : s.main = .waits) (hwatcher : s.watcher = .ended)
    (hrequested : s.shutdown.stopRequested = true)
    (hroused : s.shutdown.threads .main = .roused true) :
    ∃ last, Reachable oneShot s last ∧ last.main = .exited 0 ∧ last.watcher = .ended := by
  let returned : ServerProcess := { s with shutdown :=
    ⟨true, Function.update s.shutdown.threads .main (.returned true true)⟩ }
  have hmove : ShutdownMove s.shutdown.stopRequested true (s.shutdown.threads .main)
      (.returned true true) true := by
    rw [hrequested]
    exact .finds true (.inr hroused) rfl
  have hfinds : MainStep s returned := .waiting hmain (.move ProcessThread.main rfl hmove)
  refine ⟨_, .head ⟨some .main, hfinds⟩ <| .head ⟨some .main, .requested hmain rfl⟩ <|
    (reaches_returned (runs_exec obligingPlatform s.root.stop ())
      (fun _ _ _ answer hat => .stopCalls answer hat) rfl).trans <|
    .head ⟨some .main, .stopped rfl⟩ <| .head ⟨some .main, .finishes rfl⟩ <|
    .head ⟨some .main, .joins rfl (.inr hwatcher)⟩ <|
    .head ⟨some .main, .restoresTerminate rfl⟩ <| .head ⟨some .main, .restoresInterrupt rfl⟩ <|
    (reaches_returned (runs_exec obligingPlatform _ ())
      (fun _ _ _ answer hat => .destroyCalls answer hat) rfl).trans <|
    .single ⟨some .main, .destroyed rfl⟩, rfl, hwatcher⟩

/-- What becomes of a process at its wait when it is interrupted. -/
def interrupted (oneShot : Bool) (s : ServerProcess) : ServerProcess :=
  { s with
    pending := true
    disposition := if oneShot then Function.update s.disposition .interrupt .default
      else s.disposition }

theorem WaitsForStop.interrupted (hs : s.WaitsForStop) (hrecorder : s.disposition .interrupt = .recorder) :
    Step oneShot none s (s.interrupted oneShot) ∧ (s.interrupted oneShot).WaitsForStop := by
  have hover : s.isOver = false := by
    rw [isOver, hs.main]
  refine ⟨?_, hs.main, hs.blocked, hs.unrequested, hs.watcher, hs.outside, hs.unfinished⟩
  show if s.isOver then _ else _
  rw [hover]
  exact .recorded .interrupt hrecorder

/-- A process starts every stage, waits, is interrupted, and leaves with 0. -/
theorem exit_sound_interrupted : ∃ s, Reachable false (launched fun _ => false) s ∧
    s.main = .exited 0 ∧ s.pending = true ∧ s.lines = [listening] ∧
    stagesCalled s.calls = stageOrder ∧ stops s.calls = 1 ∧
    s.disposition = inherited (fun _ => false) ∧ s.watcher = .ended := by
  obtain ⟨waiting, hreach, hwaits, hrecorder⟩ := @reaches_waiting false
  obtain ⟨hstep, hwaits⟩ := @WaitsForStop.interrupted false _ hwaits hrecorder
  obtain ⟨woken, hwoken, hmain, hwatcher, hrequested, hroused⟩ :=
    @WaitsForStop.requests false _ hwaits rfl
  obtain ⟨last, hlast, hexited, hended⟩ :=
    @reaches_exit false _ hmain hwatcher hrequested hroused
  have hwhole : Reachable false (launched fun _ => false) last :=
    hreach.trans (.head ⟨none, hstep⟩ (hwoken.trans hlast))
  obtain ⟨hprinted, hzero, hstops, hdisposition, -⟩ := (exit_sound hwhole).1 0 hexited
  obtain ⟨hpending, -, hstages, -⟩ := hzero rfl
  refine ⟨last, hwhole, hexited, hpending, ?_, hstages, ?_, hdisposition, hended⟩
  · rcases hprinted with ⟨-, hlines⟩ | ⟨hone, -⟩
    · exact hlines
    · cases hone
  · rw [hstops, hstages]
    rfl

end Witness

end ServerProcess

end Warehouse.Bootstrap
