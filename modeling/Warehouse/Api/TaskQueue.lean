/-
# Warehouse.Api.TaskQueue — the bounded task queue of the HTTP server

`LegacyBoundedTaskQueue` of `legacy_http_server.cpp`.  The first part is what its functions do to
the members under the mutex.  The second is the system around it: workers, producers inside
`enqueue`, and callers of `shutdown`.  One step is what happens between taking the mutex and letting
go of it, or one thing that happens outside it.
-/
import Mathlib.Logic.Relation
import Warehouse.Interaction.WaitSet

namespace Warehouse.Api

open Warehouse.Interaction

/-! ## The protected members -/

/-- The members of `LegacyBoundedTaskQueue` that the mutex protects. -/
structure TaskQueue (T : Type) where
  queueLimit : ℕ
  tasks : List T := []
  shuttingDown : Bool := false

/-- What `enqueue` finds when it has the mutex. -/
inductive Offered (T : Type)
  | waits
  | dropped
  | pushed (queue : TaskQueue T)

/-- What a worker finds when it has the mutex. -/
inductive Polled (T : Type)
  | waits
  | exits
  | continues
  | takes (task : T) (queue : TaskQueue T)

namespace TaskQueue

variable {T : Type}

/-- `enqueue`, from the predicate of its wait to where the mutex is released. -/
def enqueue (q : TaskQueue T) (task : T) : Offered T :=
  if !(q.shuttingDown || q.tasks.length < q.queueLimit) then .waits
  -- a producer that waited for space is turned away as well
  else if q.shuttingDown then .dropped
  else .pushed { q with tasks := q.tasks ++ [task] }

/-- One turn of `runWorker`, from the predicate of its wait to where the mutex is released. -/
def poll (q : TaskQueue T) : Polled T :=
  if !(q.shuttingDown || !q.tasks.isEmpty) then .waits
  else
    match q.tasks with
    -- the tasks that are left are run before a worker leaves
    | [] => if q.shuttingDown then .exits else .continues
    | task :: rest => .takes task { q with tasks := rest }

/-- `shutdown` under the mutex; nothing if it returns at once. -/
def flag (q : TaskQueue T) : Option (TaskQueue T) :=
  if q.shuttingDown then none else some { q with shuttingDown := true }

end TaskQueue

/-! ## The system -/

/-- Where a worker is: about to take the mutex, blocked, woken by a notification or otherwise, in the
task that was started as the `n`-th one, or out of its loop. -/
inductive Worker
  | ready | blocked | woken | roused | running (n : ℕ) | exited
  deriving DecidableEq, Repr

/-- Where a producer is: outside, or in `enqueue` with a task, blocked or woken. -/
inductive Producer (T : Type)
  | outside | blocked (task : T) | woken (task : T) | roused (task : T)

/-- Where a caller of `shutdown` is.  The first one has set the flag, has notified the workers, and
joins them one after the other; the others are sent away. -/
inductive ShutdownCaller
  | outside | flagged | notified | joining (n : ℕ) | returned | dismissed
  deriving DecidableEq, Repr

/-- The worker may take the mutex. -/
def Worker.looks : Worker → Bool
  | .ready | .woken | .roused => true
  | _ => false

/-- The task that a worker runs. -/
def Worker.position : Worker → Option ℕ
  | .running n => some n
  | _ => none

/-- The producer may take the mutex, with this task; one that is outside comes with any task. -/
def Producer.offers {T : Type} (task : T) : Producer T → Prop
  | .outside => True
  | .woken t => t = task
  | .roused t => t = task
  | .blocked _ => False

/-- `taskAvailable_` -/
def taskAvailable : WaitSet Worker where
  blocked worker := worker == .blocked
  woken worker := worker == .woken
  wake _ := .woken
  wake_blocked _ _ := rfl
  wake_woken _ _ := rfl
  not_both worker hblocked := by
    rw [beq_iff_eq.mp hblocked]
    rfl

/-- `spaceAvailable_` -/
def spaceAvailable (T : Type) : WaitSet (Producer T) where
  blocked
    | .blocked _ => true
    | _ => false
  woken
    | .woken _ => true
    | _ => false
  wake
    | .blocked task => .woken task
    | producer => producer
  wake_blocked producer _ := by cases producer <;> rfl
  wake_woken producer hblocked := by cases producer <;> first | rfl | contradiction
  not_both producer _ := by cases producer <;> first | rfl | contradiction

/-- The queue and its threads.  Three ghosts record the tasks in the order in which they were
accepted, the tasks and workers in the order in which they were started, and which of the started
tasks have returned. -/
structure QueueSystem (T : Type) where
  queue : TaskQueue T
  workers : List Worker
  producers : List (Producer T)
  callers : List ShutdownCaller
  accepted : List T := []
  started : List (ℕ × T) := []
  completed : List ℕ := []

/-- One step of the system. -/
inductive QueueSystem.Step {T : Type} : QueueSystem T → QueueSystem T → Prop
  /-- There is nothing to do: the worker blocks. -/
  | workerWaits {s} (i : ℕ) {w : Worker} : s.workers[i]? = some w → w.looks = true →
      s.queue.poll = .waits → Step s { s with workers := s.workers.set i .blocked }
  /-- A blocked worker wakes up by itself. -/
  | workerRouses {s} (i : ℕ) : s.workers[i]? = some .blocked →
      Step s { s with workers := s.workers.set i .roused }
  /-- The worker takes the first task and notifies a producer. -/
  | workerTakes {s} (i : ℕ) {w : Worker} {task : T} {queue : TaskQueue T}
      {producers : List (Producer T)} : s.workers[i]? = some w → w.looks = true →
      s.queue.poll = .takes task queue →
      (spaceAvailable T).NotifyOne s.producers producers →
      Step s { s with
        queue := queue
        workers := s.workers.set i (.running s.started.length)
        producers := producers
        started := s.started ++ [(i, task)] }
  /-- The task returns. -/
  | workerFinishes {s} (i : ℕ) {n : ℕ} : s.workers[i]? = some (.running n) →
      Step s { s with
        workers := s.workers.set i .ready
        completed := s.completed ++ [n] }
  | workerContinues {s} (i : ℕ) {w : Worker} : s.workers[i]? = some w → w.looks = true →
      s.queue.poll = .continues → Step s { s with workers := s.workers.set i .ready }
  | workerExits {s} (i : ℕ) {w : Worker} : s.workers[i]? = some w → w.looks = true →
      s.queue.poll = .exits → Step s { s with workers := s.workers.set i .exited }
  /-- The queue is full: the producer blocks. -/
  | producerWaits {s} (i : ℕ) {p : Producer T} (task : T) : s.producers[i]? = some p →
      p.offers task → s.queue.enqueue task = .waits →
      Step s { s with producers := s.producers.set i (.blocked task) }
  /-- A blocked producer wakes up by itself. -/
  | producerRouses {s} (i : ℕ) {task : T} : s.producers[i]? = some (.blocked task) →
      Step s { s with producers := s.producers.set i (.roused task) }
  /-- The task is accepted, and a worker notified. -/
  | producerPushes {s} (i : ℕ) {p : Producer T} (task : T) {queue : TaskQueue T}
      {workers : List Worker} : s.producers[i]? = some p → p.offers task →
      s.queue.enqueue task = .pushed queue →
      taskAvailable.NotifyOne s.workers workers →
      Step s { s with
        queue := queue
        workers := workers
        producers := s.producers.set i .outside
        accepted := s.accepted ++ [task] }
  /-- The task comes too late. -/
  | producerDropped {s} (i : ℕ) {p : Producer T} (task : T) : s.producers[i]? = some p →
      p.offers task → s.queue.enqueue task = .dropped →
      Step s { s with producers := s.producers.set i .outside }
  /-- The first call of `shutdown` sets the flag. -/
  | flags {s} (i : ℕ) {queue : TaskQueue T} : s.callers[i]? = some .outside →
      s.queue.flag = some queue →
      Step s { s with queue := queue, callers := s.callers.set i .flagged }
  /-- A later call returns at once. -/
  | dismissed {s} (i : ℕ) : s.callers[i]? = some .outside → s.queue.flag = none →
      Step s { s with callers := s.callers.set i .dismissed }
  | notifiesWorkers {s} (i : ℕ) : s.callers[i]? = some .flagged →
      Step s { s with
        workers := taskAvailable.notifyAll s.workers
        callers := s.callers.set i .notified }
  | notifiesProducers {s} (i : ℕ) : s.callers[i]? = some .notified →
      Step s { s with
        producers := (spaceAvailable T).notifyAll s.producers
        callers := s.callers.set i (.joining 0) }
  | joins {s} (i : ℕ) {n : ℕ} : s.callers[i]? = some (.joining n) →
      s.workers[n]? = some .exited → Step s { s with callers := s.callers.set i (.joining (n + 1)) }
  | returns {s} (i : ℕ) {n : ℕ} : s.callers[i]? = some (.joining n) → n = s.workers.length →
      Step s { s with callers := s.callers.set i .returned }

/-! ## What each function does -/

namespace TaskQueue

variable {T : Type} {q q' : TaskQueue T} {task : T}

theorem poll_waits (h : q.poll = .waits) : q.shuttingDown = false ∧ q.tasks = [] := by
  unfold poll at h
  split at h
  · rename_i hnot
    simpa using hnot
  · split at h
    · split at h <;> cases h
    · cases h

theorem poll_takes (h : q.poll = .takes task q') :
    q.tasks = task :: q'.tasks ∧ q'.shuttingDown = q.shuttingDown ∧ q'.queueLimit = q.queueLimit := by
  unfold poll at h
  split at h
  · cases h
  · split at h
    · split at h <;> cases h
    · rename_i hqueued
      cases h
      exact ⟨hqueued, rfl, rfl⟩

theorem poll_exits (h : q.poll = .exits) : q.shuttingDown = true ∧ q.tasks = [] := by
  unfold poll at h
  split at h
  · cases h
  · split at h
    · rename_i hnone
      split at h
      · rename_i hflag
        exact ⟨hflag, hnone⟩
      · cases h
    · cases h

/-- The `continue` of the loop is never reached. -/
theorem poll_ne_continues : q.poll ≠ .continues := by
  intro h
  unfold poll at h
  split at h
  · cases h
  · rename_i hready
    split at h
    · rename_i hnone
      split at h
      · cases h
      · rename_i hflag
        simp [hnone, hflag] at hready
    · cases h

theorem enqueue_waits (h : q.enqueue task = .waits) :
    q.shuttingDown = false ∧ q.queueLimit ≤ q.tasks.length := by
  unfold enqueue at h
  split at h
  · rename_i hnot
    simpa using hnot
  · split at h <;> cases h

theorem enqueue_pushed (h : q.enqueue task = .pushed q') :
    q.shuttingDown = false ∧ q.tasks.length < q.queueLimit ∧
      q' = { q with tasks := q.tasks ++ [task] } := by
  unfold enqueue at h
  split at h
  · cases h
  · rename_i hready
    split at h
    · cases h
    · rename_i hflag
      cases h
      have hrunning : q.shuttingDown = false := by simpa using hflag
      exact ⟨hrunning, by simpa [hrunning] using hready, rfl⟩

theorem enqueue_dropped (h : q.enqueue task = .dropped) : q.shuttingDown = true := by
  unfold enqueue at h
  split at h
  · cases h
  · split at h
    · assumption
    · cases h

theorem flag_some (h : q.flag = some q') :
    q.shuttingDown = false ∧ q' = { q with shuttingDown := true } := by
  unfold flag at h
  split at h
  · cases h
  · rename_i hflag
    cases h
    exact ⟨by simpa using hflag, rfl⟩

theorem flag_none (h : q.flag = none) : q.shuttingDown = true := by
  unfold flag at h
  split at h
  · assumption
  · cases h

end TaskQueue

namespace QueueSystem

/-- The states that any interleaving leads to. -/
abbrev Reachable {T : Type} : QueueSystem T → QueueSystem T → Prop := Relation.ReflTransGen Step

/-- A queue as it is constructed: workers that have not looked yet, and nothing queued. -/
structure Initial {T : Type} (s : QueueSystem T) : Prop where
  tasks : s.queue.tasks = []
  running : s.queue.shuttingDown = false
  staff : 0 < s.workers.length
  workers : ∀ worker ∈ s.workers, worker = .ready
  producers : ∀ producer ∈ s.producers, producer = .outside
  callers : ∀ caller ∈ s.callers, caller = .outside
  accepted : s.accepted = []
  started : s.started = []
  completed : s.completed = []

/-! ## Who runs what -/

section Staff

variable {T : Type} {workers workers' : List Worker} {started : List (ℕ × T)} {completed : List ℕ}
  {i n : ℕ} {x y : Worker} {task : T}

/-- Every task that was started has either returned or is run, once, by the worker that took it. -/
structure Staffed (workers : List Worker) (started : List (ℕ × T)) (completed : List ℕ) : Prop where
  positions : (completed ++ workers.filterMap Worker.position).Perm (List.range started.length)
  owner : ∀ i n : ℕ, workers[i]? = some (.running n) → ∃ task, started[n]? = some (i, task)

/-- A worker that runs nothing goes on to do nothing else. -/
theorem Staffed.set (h : Staffed workers started completed) (hx : workers[i]? = some x)
    (hidle : x.position = none) (hy : y.position = none) :
    Staffed (workers.set i y) started completed := by
  obtain ⟨rest, hold, hnew⟩ := filterMap_others hx Worker.position
  rw [hidle] at hold
  have hsame := hnew y
  rw [hy] at hsame
  refine ⟨((hsame.trans hold.symm).append_left completed).trans h.positions, ?_⟩
  intro j n hj
  by_cases hij : i = j
  · subst hij
    have hlt : i < workers.length := (List.getElem?_eq_some_iff.mp hx).1
    rw [List.getElem?_set_self hlt] at hj
    obtain rfl := Option.some_inj.mp hj
    cases hy
  · rw [List.getElem?_set_ne hij] at hj
    exact h.owner j n hj

/-- A worker starts the next task. -/
theorem Staffed.takes (h : Staffed workers started completed) (hx : workers[i]? = some x)
    (hidle : x.position = none) :
    Staffed (workers.set i (.running started.length)) (started ++ [(i, task)]) completed := by
  obtain ⟨rest, hold, hnew⟩ := filterMap_others hx Worker.position
  rw [hidle] at hold
  have hadded : ((workers.set i (.running started.length)).filterMap Worker.position).Perm
      (workers.filterMap Worker.position ++ [started.length]) := by
    refine (hnew _).trans ?_
    exact List.perm_append_comm.trans (hold.symm.append_right _)
  refine ⟨?_, ?_⟩
  · rw [List.length_append, List.length_singleton, List.range_succ]
    refine (hadded.append_left completed).trans ?_
    rw [← List.append_assoc]
    exact h.positions.append_right _
  · intro j n hj
    by_cases hij : i = j
    · subst hij
      have hlt : i < workers.length := (List.getElem?_eq_some_iff.mp hx).1
      rw [List.getElem?_set_self hlt] at hj
      obtain rfl := Worker.running.inj (Option.some_inj.mp hj)
      exact ⟨task, by simp⟩
    · rw [List.getElem?_set_ne hij] at hj
      obtain ⟨t, ht⟩ := h.owner j n hj
      have hn : n < started.length := (List.getElem?_eq_some_iff.mp ht).1
      exact ⟨t, by rw [List.getElem?_append_left hn, ht]⟩

/-- The task of a worker returns. -/
theorem Staffed.finishes (h : Staffed workers started completed)
    (hx : workers[i]? = some (.running n)) :
    Staffed (workers.set i .ready) started (completed ++ [n]) := by
  obtain ⟨rest, hold, hnew⟩ := filterMap_others hx Worker.position
  refine ⟨?_, ?_⟩
  · rw [List.append_assoc]
    refine List.Perm.trans (List.Perm.append_left completed ?_) h.positions
    exact ((hnew .ready).append_left [n]).trans hold.symm
  · intro j m hj
    by_cases hij : i = j
    · subst hij
      have hlt : i < workers.length := (List.getElem?_eq_some_iff.mp hx).1
      rw [List.getElem?_set_self hlt] at hj
      cases Option.some_inj.mp hj
    · rw [List.getElem?_set_ne hij] at hj
      exact h.owner j m hj

theorem Staffed.notifyOne (h : Staffed workers started completed)
    (hnotify : taskAvailable.NotifyOne workers workers') : Staffed workers' started completed := by
  rcases hnotify with ⟨_, rfl⟩ | ⟨i, p, hp, hblocked, rfl⟩
  · exact h
  · obtain rfl : p = .blocked := beq_iff_eq.mp hblocked
    exact h.set hp rfl rfl

/-- What `notify_all` makes of a worker. -/
theorem notifyAll_position (workers : List Worker) :
    (taskAvailable.notifyAll workers).filterMap Worker.position =
      workers.filterMap Worker.position := by
  unfold WaitSet.notifyAll
  rw [List.filterMap_map]
  congr 1
  funext worker
  cases worker <;> rfl

theorem notifyAll_getElem? {z : Worker} (hz : z ≠ .blocked) (hz' : z ≠ .woken) (j : ℕ) :
    (taskAvailable.notifyAll workers)[j]? = some z ↔ workers[j]? = some z := by
  unfold WaitSet.notifyAll
  rw [List.getElem?_map]
  cases hj : workers[j]? with
  | none => simp
  | some w =>
      cases w with
      | blocked =>
          constructor
          · intro h
            exact absurd (Option.some_inj.mp h).symm hz'
          · intro h
            exact absurd (Option.some_inj.mp h).symm hz
      | ready => exact Iff.rfl
      | woken => exact Iff.rfl
      | roused => exact Iff.rfl
      | running n => exact Iff.rfl
      | exited => exact Iff.rfl

theorem Staffed.notifyAll (h : Staffed workers started completed) :
    Staffed (taskAvailable.notifyAll workers) started completed := by
  refine ⟨?_, ?_⟩
  · rw [notifyAll_position]
    exact h.positions
  · intro i n hi
    exact h.owner i n ((notifyAll_getElem? (by simp) (by simp) i).mp hi)

end Staff

/-! ## When workers leave -/

section Leaving

variable {T : Type} {queue queue' : TaskQueue T} {workers workers' : List Worker}
  {callers : List ShutdownCaller} {i : ℕ} {x y : Worker} {c c' : ShutdownCaller}

/-- Workers leave an empty queue that is shutting down, and are joined after that. -/
structure Emptied (queue : TaskQueue T) (workers : List Worker) (callers : List ShutdownCaller) :
    Prop where
  exited : .exited ∈ workers → queue.shuttingDown = true ∧ queue.tasks = []
  flagged : ∀ caller ∈ callers, caller ≠ .outside → queue.shuttingDown = true
  joined : ∀ i n : ℕ, callers[i]? = some (.joining n) → ∀ m < n, workers[m]? = some .exited
  returned : .returned ∈ callers → ∀ worker ∈ workers, worker = .exited

/-- A worker that has not left takes a step, and leaves only where it may. -/
theorem Emptied.worker (h : Emptied queue workers callers) (hx : workers[i]? = some x)
    (hne : x ≠ .exited) (hflag : queue'.shuttingDown = queue.shuttingDown)
    (hexited : .exited ∈ workers.set i y → queue'.shuttingDown = true ∧ queue'.tasks = []) :
    Emptied queue' (workers.set i y) callers where
  exited := hexited
  flagged := by
    rw [hflag]
    exact h.flagged
  joined := fun j n hj m hm => getElem?_set_of_ne (h.joined j n hj m hm) hx hne
  returned := fun hreturned => absurd (h.returned hreturned x (List.mem_of_getElem? hx)) hne

/-- As long as a worker that has not left does not leave, nobody new has left. -/
theorem Emptied.exited_of_set (h : Emptied queue workers callers) (hy : y ≠ .exited)
    (hmem : .exited ∈ workers.set i y) : queue.shuttingDown = true ∧ queue.tasks = [] := by
  rcases List.mem_or_eq_of_mem_set hmem with hold | hnew
  · exact h.exited hold
  · exact absurd hnew.symm hy

/-- Before the flag is set nobody has left and nobody is shutting down. -/
theorem Emptied.pushed (h : Emptied queue workers callers) (hrunning : queue.shuttingDown = false)
    (hnotify : taskAvailable.NotifyOne workers workers') : Emptied queue' workers' callers := by
  have hstays : .exited ∉ workers := by
    intro hmem
    have hflagged := (h.exited hmem).1
    rw [hrunning] at hflagged
    cases hflagged
  have houtside : ∀ caller ∈ callers, caller = .outside := by
    intro caller hcaller
    by_contra hne
    have hflagged := h.flagged caller hcaller hne
    rw [hrunning] at hflagged
    cases hflagged
  have hstays' : .exited ∉ workers' := by
    rcases hnotify with ⟨_, rfl⟩ | ⟨j, p, _, _, rfl⟩
    · exact hstays
    · intro hmem
      rcases List.mem_or_eq_of_mem_set hmem with hold | hnew
      · exact hstays hold
      · cases hnew
  exact
    { exited := fun hmem => absurd hmem hstays'
      flagged := fun caller hcaller hne => absurd (houtside caller hcaller) hne
      joined := fun j n hj => by cases houtside _ (List.mem_of_getElem? hj)
      returned := fun hreturned => by cases houtside _ hreturned }

/-- A caller of `shutdown` goes on; where it joins or returns, the workers have left. -/
theorem Emptied.caller (h : Emptied queue workers callers) (hc : callers[i]? = some c)
    (hflag : queue'.shuttingDown = true) (htasks : queue'.tasks = queue.tasks)
    (hjoining : ∀ n, c' = .joining n → ∀ m < n, workers[m]? = some .exited)
    (hreturned : c' = .returned → ∀ worker ∈ workers, worker = .exited) :
    Emptied queue' workers (callers.set i c') where
  exited := by
    intro hmem
    rw [htasks]
    exact ⟨hflag, (h.exited hmem).2⟩
  flagged := fun _ _ _ => hflag
  joined := by
    intro j n hj
    by_cases hij : i = j
    · subst hij
      have hlt : i < callers.length := (List.getElem?_eq_some_iff.mp hc).1
      rw [List.getElem?_set_self hlt] at hj
      exact hjoining n (Option.some_inj.mp hj)
    · rw [List.getElem?_set_ne hij] at hj
      exact h.joined j n hj
  returned := by
    intro hmem
    rcases List.mem_or_eq_of_mem_set hmem with hold | hnew
    · exact h.returned hold
    · exact hreturned hnew.symm

theorem Emptied.notifyAll (h : Emptied queue workers callers) :
    Emptied queue (taskAvailable.notifyAll workers) callers where
  exited := by
    intro hmem
    obtain ⟨j, hj⟩ := List.mem_iff_getElem?.mp hmem
    exact h.exited (List.mem_of_getElem? ((notifyAll_getElem? (by decide) (by decide) j).mp hj))
  flagged := h.flagged
  joined := fun j n hj m hm =>
    (notifyAll_getElem? (by decide) (by decide) m).mpr (h.joined j n hj m hm)
  returned := by
    intro hreturned worker hworker
    obtain ⟨worker', hworker', rfl⟩ := List.mem_map.mp hworker
    rw [h.returned hreturned worker' hworker']
    rfl

end Leaving

/-! ## Who is woken -/

section Waking

variable {T : Type} {queue queue' : TaskQueue T} {workers workers' : List Worker}
  {producers producers' : List (Producer T)} {callers : List ShutdownCaller}

/-- The places that are free in the queue. -/
def freePlaces (queue : TaskQueue T) : ℕ := queue.queueLimit - queue.tasks.length

/-- While the queue runs, tasks are covered by woken workers and free places by woken producers;
when it shuts down, everybody is woken, or the caller that does so is still on its way. -/
structure Awake (queue : TaskQueue T) (workers : List Worker) (producers : List (Producer T))
    (callers : List ShutdownCaller) : Prop where
  tasksCovered : queue.shuttingDown = false → taskAvailable.Covered queue.tasks.length 0 workers
  placesCovered : queue.shuttingDown = false →
    (spaceAvailable T).Covered (freePlaces queue) 0 producers
  workersReleased : queue.shuttingDown = true →
    .flagged ∈ callers ∨ ∀ worker ∈ workers, taskAvailable.blocked worker = false
  producersReleased : queue.shuttingDown = true →
    .flagged ∈ callers ∨ .notified ∈ callers ∨
      ∀ producer ∈ producers, (spaceAvailable T).blocked producer = false

/-- A worker goes on without blocking. -/
theorem Awake.worker (h : Awake queue workers producers callers) {i : ℕ} {x y : Worker}
    (hx : workers[i]? = some x) (hy : taskAvailable.blocked y = false)
    (hcovered : queue.shuttingDown = true ∨ taskAvailable.woken x = false) :
    Awake queue (workers.set i y) producers callers where
  tasksCovered := by
    intro hrunning
    have hwoken : taskAvailable.woken x = false := by simpa [hrunning] using hcovered
    refine (h.tasksCovered hrunning).set hx hy ?_
    rw [hwoken]
    simp only [Bool.false_eq_true, if_false]
    omega
  placesCovered := h.placesCovered
  workersReleased := by
    intro hflag
    rcases h.workersReleased hflag with hdue | hnone
    · exact Or.inl hdue
    · exact Or.inr (forall_mem_set hnone hy)
  producersReleased := h.producersReleased

/-- There is nothing to do, and a worker blocks. -/
theorem Awake.workerWaits (h : Awake queue workers producers callers)
    (hrunning : queue.shuttingDown = false) (hnone : queue.tasks = [])
    (workers' : List Worker) : Awake queue workers' producers callers where
  tasksCovered := by
    rw [hnone]
    exact fun _ => WaitSet.covered_zero
  placesCovered := h.placesCovered
  workersReleased := fun hflag => by rw [hrunning] at hflag; cases hflag
  producersReleased := h.producersReleased

/-- A worker takes a task, and a producer is woken for its place. -/
theorem Awake.takes (h : Awake queue workers producers callers) {i : ℕ} {x y : Worker} {task : T}
    (hx : workers[i]? = some x) (hy : taskAvailable.blocked y = false)
    (htaken : queue.tasks = task :: queue'.tasks)
    (hflag : queue'.shuttingDown = queue.shuttingDown)
    (hlimit : queue'.queueLimit = queue.queueLimit)
    (hnotify : (spaceAvailable T).NotifyOne producers producers') :
    Awake queue' (workers.set i y) producers' callers where
  tasksCovered := by
    intro hrunning
    rw [hflag] at hrunning
    refine (h.tasksCovered hrunning).set hx hy ?_
    rw [htaken, List.length_cons]
    split <;> omega
  placesCovered := by
    intro hrunning
    rw [hflag] at hrunning
    refine (h.placesCovered hrunning).notifyOne hnotify ?_
    unfold freePlaces
    rw [hlimit, htaken, List.length_cons]
    omega
  workersReleased := by
    intro hdown
    rw [hflag] at hdown
    rcases h.workersReleased hdown with hdue | hnone
    · exact Or.inl hdue
    · exact Or.inr (forall_mem_set hnone hy)
  producersReleased := by
    intro hdown
    rw [hflag] at hdown
    rcases h.producersReleased hdown with hdue | hdue | hnone
    · exact Or.inl hdue
    · exact Or.inr (Or.inl hdue)
    · exact Or.inr (Or.inr (hnotify.unblocked hnone))

/-- A producer goes on without blocking. -/
theorem Awake.producer (h : Awake queue workers producers callers) {i : ℕ} {x y : Producer T}
    (hx : producers[i]? = some x) (hy : (spaceAvailable T).blocked y = false)
    (hcovered : queue.shuttingDown = true ∨ (spaceAvailable T).woken x = false) :
    Awake queue workers (producers.set i y) callers where
  tasksCovered := h.tasksCovered
  placesCovered := by
    intro hrunning
    have hwoken : (spaceAvailable T).woken x = false := by simpa [hrunning] using hcovered
    refine (h.placesCovered hrunning).set hx hy ?_
    rw [hwoken]
    simp only [Bool.false_eq_true, if_false]
    omega
  workersReleased := h.workersReleased
  producersReleased := by
    intro hflag
    rcases h.producersReleased hflag with hdue | hdue | hnone
    · exact Or.inl hdue
    · exact Or.inr (Or.inl hdue)
    · exact Or.inr (Or.inr (forall_mem_set hnone hy))

/-- The queue is full, and a producer blocks. -/
theorem Awake.producerWaits (h : Awake queue workers producers callers)
    (hrunning : queue.shuttingDown = false) (hfull : queue.queueLimit ≤ queue.tasks.length)
    (producers' : List (Producer T)) : Awake queue workers producers' callers where
  tasksCovered := h.tasksCovered
  placesCovered := by
    have hnone : freePlaces queue = 0 := Nat.sub_eq_zero_of_le hfull
    rw [hnone]
    exact fun _ => WaitSet.covered_zero
  workersReleased := h.workersReleased
  producersReleased := fun hflag => by rw [hrunning] at hflag; cases hflag

/-- A task is pushed, and a worker is woken for it. -/
theorem Awake.pushes (h : Awake queue workers producers callers) {i : ℕ} {x y : Producer T} {task : T}
    (hx : producers[i]? = some x) (hy : (spaceAvailable T).blocked y = false)
    (hrunning : queue.shuttingDown = false) (hroom : queue.tasks.length < queue.queueLimit)
    (hnotify : taskAvailable.NotifyOne workers workers') :
    Awake { queue with tasks := queue.tasks ++ [task] } workers' (producers.set i y) callers where
  tasksCovered := by
    intro _
    refine (h.tasksCovered hrunning).notifyOne hnotify ?_
    have hpushed : (queue.tasks ++ [task]).length = queue.tasks.length + 1 := List.length_append
    show (queue.tasks ++ [task]).length + 0 ≤ queue.tasks.length + 1 + 0
    omega
  placesCovered := by
    intro _
    refine (h.placesCovered hrunning).set hx hy ?_
    show queue.queueLimit - (queue.tasks ++ [task]).length + _ + 0 ≤
      queue.queueLimit - queue.tasks.length + _ + 0
    rw [List.length_append, List.length_singleton]
    split <;> omega
  workersReleased := fun hflag => by
    rw [show queue.shuttingDown = true from hflag] at hrunning
    cases hrunning
  producersReleased := fun hflag => by
    rw [show queue.shuttingDown = true from hflag] at hrunning
    cases hrunning

/-- A caller of `shutdown` that owes no notification goes on. -/
theorem Awake.caller (h : Awake queue workers producers callers) {i : ℕ} {c c' : ShutdownCaller}
    (hc : callers[i]? = some c) (hne : c ≠ .flagged ∧ c ≠ .notified) :
    Awake queue workers producers (callers.set i c') where
  tasksCovered := h.tasksCovered
  placesCovered := h.placesCovered
  workersReleased := by
    intro hdown
    rcases h.workersReleased hdown with hdue | hnone
    · exact Or.inl (mem_set_of_ne hdue hc hne.1)
    · exact Or.inr hnone
  producersReleased := by
    intro hdown
    rcases h.producersReleased hdown with hdue | hdue | hnone
    · exact Or.inl (mem_set_of_ne hdue hc hne.1)
    · exact Or.inr (Or.inl (mem_set_of_ne hdue hc hne.2))
    · exact Or.inr (Or.inr hnone)

end Waking

/-! ## The invariant of the system -/

section System

variable {T : Type} {s s' : QueueSystem T}

/-- The invariant: order and number of the tasks, who runs them, who has left, and who is woken. -/
structure Sound (s : QueueSystem T) : Prop where
  bounded : s.queue.tasks.length ≤ s.queue.queueLimit
  fifo : s.started.map Prod.snd ++ s.queue.tasks = s.accepted
  staffed : Staffed s.workers s.started s.completed
  emptied : Emptied s.queue s.workers s.callers
  awake : Awake s.queue s.workers s.producers s.callers

theorem position_of_looks {worker : Worker} (h : worker.looks = true) : worker.position = none := by
  cases worker <;> first | rfl | cases h

theorem ne_exited_of_looks {worker : Worker} (h : worker.looks = true) : worker ≠ .exited := by
  rintro rfl
  cases h

theorem Sound.workerTakes (h : s.Sound) {i : ℕ} {w : Worker} {task : T} {queue : TaskQueue T}
    {producers : List (Producer T)} (hw : s.workers[i]? = some w) (hlooks : w.looks = true)
    (hpoll : s.queue.poll = .takes task queue)
    (hnotify : (spaceAvailable T).NotifyOne s.producers producers) :
    Sound { s with
      queue := queue
      workers := s.workers.set i (.running s.started.length)
      producers := producers
      started := s.started ++ [(i, task)] } := by
  obtain ⟨htaken, hflag, hlimit⟩ := TaskQueue.poll_takes hpoll
  have hbounded := h.bounded
  rw [htaken, List.length_cons] at hbounded
  exact
    { bounded := by
        show queue.tasks.length ≤ queue.queueLimit
        omega
      fifo := by
        have hfifo := h.fifo
        rw [htaken] at hfifo
        show (s.started ++ [(i, task)]).map Prod.snd ++ queue.tasks = s.accepted
        simpa using hfifo
      staffed := h.staffed.takes hw (position_of_looks hlooks)
      emptied := by
        refine h.emptied.worker hw (ne_exited_of_looks hlooks) hflag fun hmem => ?_
        -- a worker that had left would have left an empty queue
        have hleft := h.emptied.exited_of_set (by simp) hmem
        rw [htaken] at hleft
        cases hleft.2
      awake := h.awake.takes hw rfl htaken hflag hlimit hnotify }

theorem Sound.producerPushes (h : s.Sound) {i : ℕ} {p : Producer T} {task : T}
    {queue : TaskQueue T} {workers : List Worker} (hp : s.producers[i]? = some p)
    (hpushed : s.queue.enqueue task = .pushed queue)
    (hnotify : taskAvailable.NotifyOne s.workers workers) :
    Sound { s with
      queue := queue
      workers := workers
      producers := s.producers.set i .outside
      accepted := s.accepted ++ [task] } := by
  obtain ⟨hrunning, hroom, rfl⟩ := TaskQueue.enqueue_pushed hpushed
  exact
    { bounded := by
        show (s.queue.tasks ++ [task]).length ≤ s.queue.queueLimit
        rw [List.length_append, List.length_singleton]
        omega
      fifo := by
        show s.started.map Prod.snd ++ (s.queue.tasks ++ [task]) = s.accepted ++ [task]
        rw [← List.append_assoc, h.fifo]
      staffed := h.staffed.notifyOne hnotify
      emptied := h.emptied.pushed hrunning hnotify
      awake := h.awake.pushes hp rfl hrunning hroom hnotify }

theorem Sound.flags (h : s.Sound) {i : ℕ} {queue : TaskQueue T}
    (hc : s.callers[i]? = some .outside) (hflag : s.queue.flag = some queue) :
    Sound { s with queue := queue, callers := s.callers.set i .flagged } := by
  obtain ⟨hrunning, rfl⟩ := TaskQueue.flag_some hflag
  have hlt : i < s.callers.length := (List.getElem?_eq_some_iff.mp hc).1
  -- from here on both notifications are due from this caller
  have hdue : ShutdownCaller.flagged ∈ s.callers.set i .flagged :=
    List.mem_set hlt _
  exact
    { bounded := h.bounded
      fifo := h.fifo
      staffed := h.staffed
      emptied := h.emptied.caller hc rfl rfl (by simp) (by simp)
      awake :=
        { tasksCovered := fun hfalse => by cases hfalse
          placesCovered := fun hfalse => by cases hfalse
          workersReleased := fun _ => Or.inl hdue
          producersReleased := fun _ => Or.inl hdue } }

/-- A caller that is on its way has found the flag set, or has set it. -/
theorem Sound.down (h : s.Sound) {i : ℕ} {c : ShutdownCaller} (hc : s.callers[i]? = some c)
    (hne : c ≠ .outside) : s.queue.shuttingDown = true ∧ s.queue.shuttingDown ≠ false := by
  have hdown := h.emptied.flagged _ (List.mem_of_getElem? hc) hne
  exact ⟨hdown, by simp [hdown]⟩

theorem Sound.notifiesWorkers (h : s.Sound) {i : ℕ} (hc : s.callers[i]? = some .flagged) :
    Sound { s with
      workers := taskAvailable.notifyAll s.workers
      callers := s.callers.set i .notified } := by
  have hlt : i < s.callers.length := (List.getElem?_eq_some_iff.mp hc).1
  obtain ⟨hdown, hwrong⟩ := h.down hc (by decide)
  exact
    { bounded := h.bounded
      fifo := h.fifo
      staffed := h.staffed.notifyAll
      emptied := h.emptied.notifyAll.caller hc hdown rfl (by simp) (by simp)
      awake :=
        { tasksCovered := fun hfalse => absurd hfalse hwrong
          placesCovered := fun hfalse => absurd hfalse hwrong
          workersReleased := fun _ => Or.inr (WaitSet.notifyAll_unblocked s.workers)
          producersReleased := fun _ => Or.inr (Or.inl (List.mem_set hlt _)) } }

theorem Sound.notifiesProducers (h : s.Sound) {i : ℕ} (hc : s.callers[i]? = some .notified) :
    Sound { s with
      producers := (spaceAvailable T).notifyAll s.producers
      callers := s.callers.set i (.joining 0) } := by
  obtain ⟨hdown, hwrong⟩ := h.down hc (by decide)
  exact
    { bounded := h.bounded
      fifo := h.fifo
      staffed := h.staffed
      emptied := h.emptied.caller hc hdown rfl (by simp) (by simp)
      awake :=
        { tasksCovered := fun hfalse => absurd hfalse hwrong
          placesCovered := fun hfalse => absurd hfalse hwrong
          workersReleased := by
            intro _
            rcases h.awake.workersReleased hdown with hdue | hnone
            · exact Or.inl (mem_set_of_ne hdue hc (by decide))
            · exact Or.inr hnone
          producersReleased := fun _ =>
            Or.inr (Or.inr (WaitSet.notifyAll_unblocked s.producers)) } }

theorem Sound.joins (h : s.Sound) {i n : ℕ} (hc : s.callers[i]? = some (.joining n))
    (hleft : s.workers[n]? = some .exited) :
    Sound { s with callers := s.callers.set i (.joining (n + 1)) } := by
  obtain ⟨hdown, -⟩ := h.down hc (by simp)
  -- the threads joined before this one have left for good
  have hjoined : ∀ m < n + 1, s.workers[m]? = some .exited := by
    intro m hm
    rcases Nat.lt_succ_iff_lt_or_eq.mp hm with hbefore | rfl
    · exact h.emptied.joined i n hc m hbefore
    · exact hleft
  exact
    { h with
      emptied := by
        refine h.emptied.caller hc hdown rfl ?_ (by simp)
        intro n' hn'
        obtain rfl := ShutdownCaller.joining.inj hn'
        exact hjoined
      awake := h.awake.caller hc (by simp) }

theorem Sound.returns (h : s.Sound) {i n : ℕ} (hc : s.callers[i]? = some (.joining n))
    (hall : n = s.workers.length) : Sound { s with callers := s.callers.set i .returned } := by
  obtain ⟨hdown, -⟩ := h.down hc (by simp)
  -- the loop over the threads is through, so it has come to each of them
  have hleft : ∀ worker ∈ s.workers, worker = .exited := by
    intro worker hworker
    obtain ⟨m, hm⟩ := List.mem_iff_getElem?.mp hworker
    have hlt : m < s.workers.length := (List.getElem?_eq_some_iff.mp hm).1
    rw [h.emptied.joined i n hc m (by omega)] at hm
    exact (Option.some_inj.mp hm).symm
  exact
    { h with
      emptied := h.emptied.caller hc hdown rfl (by simp) fun _ => hleft
      awake := h.awake.caller hc (by simp) }

/-- One step, whoever takes it. -/
theorem Sound.step (h : s.Sound) (hstep : Step s s') : s'.Sound := by
  cases hstep with
  | @workerWaits i w hw hlooks hpoll =>
      obtain ⟨hrunning, hnone⟩ := TaskQueue.poll_waits hpoll
      exact
        { bounded := h.bounded
          fifo := h.fifo
          staffed := h.staffed.set hw (position_of_looks hlooks) rfl
          emptied := h.emptied.worker hw (ne_exited_of_looks hlooks) rfl
            (h.emptied.exited_of_set (by decide))
          awake := h.awake.workerWaits hrunning hnone _ }
  | @workerRouses i hw =>
      exact
        { bounded := h.bounded
          fifo := h.fifo
          staffed := h.staffed.set hw rfl rfl
          emptied := h.emptied.worker hw (by decide) rfl (h.emptied.exited_of_set (by decide))
          awake := h.awake.worker hw rfl (Or.inr rfl) }
  | workerTakes i hw hlooks hpoll hnotify => exact h.workerTakes hw hlooks hpoll hnotify
  | @workerFinishes i n hw =>
      exact
        { bounded := h.bounded
          fifo := h.fifo
          staffed := h.staffed.finishes hw
          emptied := h.emptied.worker hw (by simp) rfl (h.emptied.exited_of_set (by decide))
          awake := h.awake.worker hw rfl (Or.inr rfl) }
  | @workerContinues i w hw hlooks hpoll => exact absurd hpoll TaskQueue.poll_ne_continues
  | @workerExits i w hw hlooks hpoll =>
      obtain ⟨hdown, hnone⟩ := TaskQueue.poll_exits hpoll
      exact
        { bounded := h.bounded
          fifo := h.fifo
          staffed := h.staffed.set hw (position_of_looks hlooks) rfl
          emptied := h.emptied.worker hw (ne_exited_of_looks hlooks) rfl fun _ => ⟨hdown, hnone⟩
          awake := h.awake.worker hw rfl (Or.inl hdown) }
  | @producerWaits i p task hp hoffers hfull =>
      obtain ⟨hrunning, hlimit⟩ := TaskQueue.enqueue_waits hfull
      exact { h with awake := h.awake.producerWaits hrunning hlimit _ }
  | @producerRouses i task hp => exact { h with awake := h.awake.producer hp rfl (Or.inr rfl) }
  | producerPushes i task hp hoffers hpushed hnotify => exact h.producerPushes hp hpushed hnotify
  | @producerDropped i p task hp hoffers hdropped =>
      have hdown := TaskQueue.enqueue_dropped hdropped
      exact { h with awake := h.awake.producer hp rfl (Or.inl hdown) }
  | flags i hc hflag => exact h.flags hc hflag
  | @dismissed i hc hflag =>
      have hdown := TaskQueue.flag_none hflag
      exact
        { h with
          emptied := h.emptied.caller hc hdown rfl (by simp) (by simp)
          awake := h.awake.caller hc (by decide) }
  | notifiesWorkers i hc => exact h.notifiesWorkers hc
  | notifiesProducers i hc => exact h.notifiesProducers hc
  | joins i hc hleft => exact h.joins hc hleft
  | returns i hc hall => exact h.returns hc hall

theorem sound_init (h : s.Initial) : s.Sound where
  bounded := by
    rw [h.tasks]
    exact Nat.zero_le _
  fifo := by rw [h.tasks, h.started, h.accepted]; rfl
  staffed := by
    have hnone : s.workers.filterMap Worker.position = [] := by
      refine List.filterMap_eq_nil_iff.mpr fun worker hworker => ?_
      rw [h.workers worker hworker]
      rfl
    refine ⟨?_, ?_⟩
    · rw [hnone, h.completed, h.started]
      rfl
    · intro i n hi
      cases h.workers _ (List.mem_of_getElem? hi)
  emptied :=
    { exited := fun hmem => by cases h.workers _ hmem
      flagged := fun caller hcaller hne => absurd (h.callers caller hcaller) hne
      joined := fun i n hi => by cases h.callers _ (List.mem_of_getElem? hi)
      returned := fun hmem => by cases h.callers _ hmem }
  awake :=
    { tasksCovered := by
        rw [h.tasks]
        exact fun _ => WaitSet.covered_zero
      placesCovered := by
        refine fun _ => WaitSet.covered_of_unblocked fun producer hproducer => ?_
        rw [h.producers producer hproducer]
        rfl
      workersReleased := fun hdown => by rw [h.running] at hdown; cases hdown
      producersReleased := fun hdown => by rw [h.running] at hdown; cases hdown }

theorem Sound.reachable (h : s.Sound) (hreach : Reachable s s') : s'.Sound := by
  induction hreach with
  | refl => exact h
  | tail _ hlast ih => exact ih.step hlast

/-- No step changes how many workers there are. -/
theorem workers_length (hstep : Step s s') : s'.workers.length = s.workers.length := by
  have hnotify : ∀ {workers}, taskAvailable.NotifyOne s.workers workers →
      workers.length = s.workers.length := by
    rintro workers (⟨_, rfl⟩ | ⟨_, _, _, _, rfl⟩)
    · rfl
    · exact List.length_set
  cases hstep with
  | producerPushes i task _ _ _ hnotified => exact hnotify hnotified
  | notifiesWorkers i hc => exact List.length_map _
  | _ => first | rfl | exact List.length_set

theorem workers_length_of_reachable (hreach : Reachable s s') :
    s'.workers.length = s.workers.length := by
  induction hreach with
  | refl => rfl
  | tail _ hlast ih => exact (workers_length hlast).trans ih

/-- The limit of the queue is fixed. -/
theorem queueLimit_of_reachable (hreach : Reachable s s') :
    s'.queue.queueLimit = s.queue.queueLimit := by
  induction hreach with
  | refl => rfl
  | tail _ hlast ih =>
      refine Eq.trans ?_ ih
      cases hlast with
      | workerTakes i _ _ hpoll _ => exact (TaskQueue.poll_takes hpoll).2.2
      | producerPushes i task _ _ hpushed _ =>
          obtain ⟨_, _, rfl⟩ := TaskQueue.enqueue_pushed hpushed
          rfl
      | flags i _ hflag =>
          obtain ⟨_, rfl⟩ := TaskQueue.flag_some hflag
          rfl
      | _ => rfl

/-- Nothing is accepted once the flag is set, and the flag stays. -/
theorem accepted_of_down (hstep : Step s s') (hdown : s.queue.shuttingDown = true) :
    s'.accepted = s.accepted ∧ s'.queue.shuttingDown = true := by
  cases hstep with
  | workerTakes i _ _ hpoll _ =>
      obtain ⟨_, hflag, _⟩ := TaskQueue.poll_takes hpoll
      exact ⟨rfl, hflag.trans hdown⟩
  | producerPushes i task _ _ hpushed _ =>
      have hrunning := (TaskQueue.enqueue_pushed hpushed).1
      rw [hdown] at hrunning
      cases hrunning
  | flags i _ hflag =>
      have hrunning := (TaskQueue.flag_some hflag).1
      rw [hdown] at hrunning
      cases hrunning
  | _ => exact ⟨rfl, hdown⟩

theorem accepted_of_reachable (hdown : s.queue.shuttingDown = true) (hreach : Reachable s s') :
    s'.accepted = s.accepted ∧ s'.queue.shuttingDown = true := by
  induction hreach with
  | refl => exact ⟨rfl, hdown⟩
  | tail _ hlast ih =>
      obtain ⟨hsame, hstill⟩ := accepted_of_down hlast ih.2
      exact ⟨hsame.trans ih.1, hstill⟩

/-- When all workers have left, every accepted task was started and has returned. -/
theorem Sound.drained (h : s.Sound) (hstaff : 0 < s.workers.length)
    (hleft : ∀ worker ∈ s.workers, worker = .exited) :
    s.started.map Prod.snd = s.accepted ∧ s.completed.Perm (List.range s.accepted.length) := by
  obtain ⟨worker, hworker⟩ := List.exists_mem_of_length_pos hstaff
  have hempty : s.queue.tasks = [] := by
    apply (h.emptied.exited _).2
    rw [← hleft worker hworker]
    exact hworker
  have hfifo := h.fifo
  rw [hempty, List.append_nil] at hfifo
  have hidle : s.workers.filterMap Worker.position = [] := by
    refine List.filterMap_eq_nil_iff.mpr fun w hw => ?_
    rw [hleft w hw]
    rfl
  have hpositions := h.staffed.positions
  rw [hidle, List.append_nil] at hpositions
  rw [← hfifo, List.length_map]
  exact ⟨rfl, hpositions⟩

/-- The bounded task queue.  For any number of workers, producers and callers of `shutdown`, in
every state that an interleaving leads to: the queue keeps to its limit; the tasks that were started
and those still queued are the accepted ones in their order, and each started one has returned or is
run by the one worker that took it; nothing is accepted once the flag is set; workers leave only an
empty queue that is shutting down, and when the first call of `shutdown` returns every accepted task
has run to its end; queued tasks are covered by woken workers and free places by woken producers
while anybody is blocked, unless the flag is set, and then the notification of all of them is still
due or nobody is left blocked. -/
theorem taskQueue_sound (hinit : s.Initial) (hreach : Reachable s s') :
    s'.queue.tasks.length ≤ s'.queue.queueLimit ∧ s'.queue.queueLimit = s.queue.queueLimit ∧
      s'.started.map Prod.snd ++ s'.queue.tasks = s'.accepted ∧
      (s'.completed ++ s'.workers.filterMap Worker.position).Perm (List.range s'.started.length) ∧
      (∀ i n : ℕ, s'.workers[i]? = some (.running n) → ∃ task, s'.started[n]? = some (i, task)) ∧
      (∀ s'', s'.queue.shuttingDown = true → Reachable s' s'' → s''.accepted = s'.accepted) ∧
      (.exited ∈ s'.workers → s'.queue.shuttingDown = true ∧ s'.queue.tasks = []) ∧
      (.returned ∈ s'.callers → s'.started.map Prod.snd = s'.accepted ∧
        s'.completed.Perm (List.range s'.accepted.length)) ∧
      (s'.queue.shuttingDown = false →
        ((∃ worker ∈ s'.workers, taskAvailable.blocked worker = true) →
          s'.queue.tasks.length ≤ taskAvailable.coming s'.workers) ∧
        ((∃ producer ∈ s'.producers, (spaceAvailable T).blocked producer = true) →
          s'.queue.queueLimit - s'.queue.tasks.length ≤ (spaceAvailable T).coming s'.producers)) ∧
      (s'.queue.shuttingDown = true →
        (.flagged ∈ s'.callers ∨ ∀ worker ∈ s'.workers, taskAvailable.blocked worker = false) ∧
        (.flagged ∈ s'.callers ∨ .notified ∈ s'.callers ∨
          ∀ producer ∈ s'.producers, (spaceAvailable T).blocked producer = false)) := by
  have hsound := (sound_init hinit).reachable hreach
  have hstaff : 0 < s'.workers.length := by
    rw [workers_length_of_reachable hreach]
    exact hinit.staff
  refine ⟨hsound.bounded, queueLimit_of_reachable hreach, hsound.fifo, hsound.staffed.positions,
    hsound.staffed.owner, ?_, hsound.emptied.exited, ?_, ?_, ?_⟩
  · exact fun s'' hdown hlater => (accepted_of_reachable hdown hlater).1
  · exact fun hreturned => hsound.drained hstaff (hsound.emptied.returned hreturned)
  · intro hrunning
    exact ⟨hsound.awake.tasksCovered hrunning, hsound.awake.placesCovered hrunning⟩
  · intro hdown
    exact ⟨hsound.awake.workersReleased hdown, hsound.awake.producersReleased hdown⟩

end System

/-- A queue of one place with one worker, one producer, and one caller of `shutdown`. -/
private def single : QueueSystem ℕ where
  queue := { queueLimit := 1 }
  workers := [.ready]
  producers := [.outside]
  callers := [.outside]

/-- The shutdown begins while the only task runs, and returns after it. -/
theorem taskQueue_sound_drained :
    ∃ s' : QueueSystem ℕ, Reachable single s' ∧ s'.callers = [.returned] ∧ s'.accepted = [7] ∧
      s'.started.map Prod.snd = s'.accepted := by
  let pushed : QueueSystem ℕ :=
    { single with queue := { queueLimit := 1, tasks := [7] }, accepted := [7] }
  let taken : QueueSystem ℕ :=
    { single with workers := [.running 0], accepted := [7], started := [(0, 7)] }
  let flagged : QueueSystem ℕ :=
    { taken with queue := { queueLimit := 1, shuttingDown := true }, callers := [.flagged] }
  let notified : QueueSystem ℕ := { flagged with callers := [.notified] }
  let joining : QueueSystem ℕ := { flagged with callers := [.joining 0] }
  let finished : QueueSystem ℕ := { joining with workers := [.ready], completed := [0] }
  let exited : QueueSystem ℕ := { finished with workers := [.exited] }
  let joined : QueueSystem ℕ := { exited with callers := [.joining 1] }
  let returned : QueueSystem ℕ := { exited with callers := [.returned] }
  have hpush : Step single pushed :=
    .producerPushes 0 7 rfl trivial rfl (Or.inl ⟨by simp [single, taskAvailable], rfl⟩)
  have htake : Step pushed taken :=
    .workerTakes 0 rfl rfl rfl (Or.inl ⟨by simp [pushed, single, spaceAvailable], rfl⟩)
  have hflag : Step taken flagged := .flags 0 rfl rfl
  have hnotify : Step flagged notified := .notifiesWorkers 0 rfl
  have hnotify' : Step notified joining := .notifiesProducers 0 rfl
  have hfinish : Step joining finished := .workerFinishes 0 rfl
  have hexit : Step finished exited := .workerExits 0 rfl rfl rfl
  have hjoin : Step exited joined := .joins 0 rfl rfl
  have hreturn : Step joined returned := .returns 0 rfl rfl
  have hreach : Reachable single returned :=
    .head hpush (.head htake (.head hflag (.head hnotify (.head hnotify'
      (.head hfinish (.head hexit (.head hjoin (.single hreturn))))))))
  have hinit : single.Initial :=
    { tasks := rfl, running := rfl, staff := Nat.one_pos, workers := by simp [single]
      producers := by simp [single], callers := by simp [single]
      accepted := rfl, started := rfl, completed := rfl }
  have hsound := taskQueue_sound hinit hreach
  exact ⟨returned, hreach, rfl, rfl, (hsound.2.2.2.2.2.2.2.1 (by decide)).1⟩

end QueueSystem

end Warehouse.Api
