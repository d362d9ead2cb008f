/-
# Warehouse.Mysql.CleanPool — the pool together with the sessions of its connections

The system of `ConnectionPool`, with a server session behind every executor and a client program
behind every leased one.  Whoever leases an executor runs one of the clients of the pool on it, and
gives the lease back when the program is over.  What the sessions do is kept as a ghost: whether a
transaction is open, and whether the executor was poisoned.

A transaction is what START TRANSACTION opens.  Any statement that fails may also have ended it, and
a connection may be poisoned by itself when it is lost.
-/
import Warehouse.Mysql.ConnectionPool
import Warehouse.Mysql.SessionDiscipline

namespace Warehouse.Mysql

open Warehouse.Interaction Warehouse.Interaction.Program Warehouse.Bootstrap

/-! ## The clients of the pool -/

/-- The statements of all clients. -/
inductive ClientStatement
  | legacy (statement : LegacyStatement)
  | startup (statement : StartupStatement)
  | migration (statement : Migration.MigrationStatement)

/-- A program with its statements seen as those of some client, and its result dropped. -/
def asClient {St α : Type} (name : St → ClientStatement) :
    SqlProgram St α → SqlProgram ClientStatement Unit
  | .ret _ => .ret ()
  | .call (.control statement) next => .call (.control statement) fun a => asClient name (next a)
  | .call (.execute statement) next => .call (.execute (name statement)) fun a => asClient name (next a)
  | .call .poison next => .call .poison fun a => asClient name (next a)

/-- What runs on a leased executor: a unit of work used in any way, the startup check, the
migrations, or nothing at all (the probe that the platform makes after it has created the pool). -/
inductive PoolClient : SqlProgram ClientStatement Unit → Prop
  | unit {α : Type} (mode : WorkUnitMode) (use : Program UnitCall UnitCall.Answer α) :
      PoolClient (asClient .legacy (unitClient (.ok ()) mode use))
  | startup (sodium : Sodium) (configuration : LegacyStartupConfiguration) :
      PoolClient (asClient .startup (runLegacyStartupChecks sodium configuration (.ok ())))
  | migration (definitions : List Migration.MigrationDefinition)
      (bootstrapSql : List Migration.MigrationBootstrapStep) (lockTimeoutSeconds : ℕ) :
      PoolClient (asClient .migration (Migration.run definitions bootstrapSql lockTimeoutSeconds))
  | probe : PoolClient (.ret ())

theorem keeps_asClient {St α : Type} {name : St → ClientStatement} {p : SqlProgram St α}
    {phase : SessionPhase} (h : Keeps p phase fun _ => .closed) :
    Keeps (asClient name p) phase fun _ => .closed := by
  induction p generalizing phase with
  | ret a => exact h
  | call op next ih =>
      cases op with
      | control statement =>
          intro answer
          obtain ⟨phase', hphase', hnext⟩ := h answer
          exact ⟨phase', by cases phase <;> cases statement <;> exact hphase', ih answer hnext⟩
      | execute statement =>
          intro answer
          obtain ⟨phase', hphase', hnext⟩ := h answer
          exact ⟨phase', by cases phase <;> exact hphase', ih answer hnext⟩
      | poison =>
          intro answer
          obtain ⟨phase', hphase', hnext⟩ := h answer
          exact ⟨phase', by cases phase <;> exact hphase', ih answer hnext⟩

/-- All clients keep to the protocol. -/
theorem PoolClient.keeps {p : SqlProgram ClientStatement Unit} (h : PoolClient p) :
    Keeps p .closed fun _ => .closed := by
  cases h with
  | unit mode use => exact keeps_asClient (keeps_unitClient _ mode use)
  | startup sodium configuration => exact keeps_asClient (keeps_runLegacyStartupChecks _)
  | migration definitions bootstrapSql timeout => exact keeps_asClient (keeps_run _ _ _)
  | probe => exact rfl

/-! ## Sessions -/

/-- A server session and its executor. -/
structure Session where
  transaction : Bool := false
  poisoned : Bool := false

namespace Session

/-- What a call may do to the session. -/
def serves {St : Type} : (op : ExecutorCall St) → Session → op.Answer → Session → Prop
  | .poison, s, _, s' => s' = { s with poisoned := true }
  | .execute _, s, _, s' =>
      (s'.transaction = true → s.transaction = true) ∧ (s.poisoned = true → s'.poisoned = true)
  | .control (.start _), s, answer, s' =>
      (answer.isOk = true → s'.transaction = true) ∧ (s.poisoned = true → s'.poisoned = true)
  | .control (.setIsolation _), s, _, s' =>
      (s'.transaction = true → s.transaction = true) ∧ (s.poisoned = true → s'.poisoned = true)
  | .control .commit, s, answer, s' | .control .rollback, s, answer, s' =>
      (answer.isOk = true → s'.transaction = false) ∧
        (s'.transaction = true → s.transaction = true) ∧ (s.poisoned = true → s'.poisoned = true)

/-- What the phase of the client says about the session. -/
def agrees : SessionPhase → Session → Prop
  | .closed, s => s.transaction = false ∨ s.poisoned = true
  | .started, _ | .owing, _ => True

theorem agrees_mono {s s' : Session} (h : s.transaction = false ∨ s.poisoned = true)
    (htransaction : s'.transaction = true → s.transaction = true)
    (hpoisoned : s.poisoned = true → s'.poisoned = true) :
    s'.transaction = false ∨ s'.poisoned = true := by
  rcases h with hclosed | hpoison
  · refine Or.inl (Bool.eq_false_iff.mpr fun hopen => ?_)
    rw [htransaction hopen] at hclosed
    cases hclosed
  · exact Or.inr (hpoisoned hpoison)

/-- A call that the protocol allows keeps phase and session in agreement. -/
theorem agrees_step {St : Type} {op : ExecutorCall St} {answer : op.Answer}
    {phase phase' : SessionPhase} {s s' : Session} (h : agrees phase s)
    (hstep : discipline phase ⟨op, answer⟩ = some phase') (hserved : serves op s answer s') :
    agrees phase' s' := by
  cases op with
  | poison =>
      obtain rfl := hserved
      cases phase with
      | closed => cases hstep; exact Or.inr rfl
      | started => cases hstep; trivial
      | owing => cases hstep; exact Or.inr rfl
  | execute statement =>
      cases phase with
      | closed => cases hstep; exact agrees_mono h hserved.1 hserved.2
      | started => cases hstep; trivial
      | owing => cases hstep
  | control statement =>
      cases phase with
      | owing => cases hstep
      | closed =>
          cases statement with
          | setIsolation mode =>
              rcases answer with e | response
              · cases hstep; trivial
              · cases hstep; exact agrees_mono h hserved.1 hserved.2
          | start mode => rcases answer with e | response <;> cases hstep <;> trivial
          | commit => cases hstep
          | rollback => cases hstep
      | started =>
          cases statement with
          | setIsolation mode => cases hstep
          | start mode => cases hstep
          | commit =>
              rcases answer with e | response
              · cases hstep; trivial
              · cases hstep; exact Or.inl (hserved.1 rfl)
          | rollback =>
              rcases answer with e | response
              · cases hstep; trivial
              · cases hstep; exact Or.inl (hserved.1 rfl)

end Session

/-! ## The system -/

/-- The pool, the sessions, and what is left of the program of each executor's owner. -/
structure PooledSessions (E : Type) where
  system : PoolSystem E
  sessions : E → Session
  programs : E → SqlProgram ClientStatement Unit

namespace PooledSessions

variable {E : Type} [DecidableEq E]

/-- The executors that somebody has leased. -/
def leased {E : Type} (s : PooledSessions E) : List E := held s.system.leases

/-- One step: of the pool, or a call of some client. -/
inductive Step : PooledSessions E → PooledSessions E → Prop
  /-- A lease that ends belongs to a program that is over; what `reusable` says of an executor that
  is given back is no lie about the poisoning; whoever gets a lease starts a client on it; and a
  session begins when its executor is created. -/
  | pool {s s' : PooledSessions E} :
      PoolSystem.Step PoolSystem.yields s.system s'.system →
      (∀ e ∈ s.leased, e ∉ s'.leased → s.programs e = .ret ()) →
      (∀ idle ∈ s'.system.pool.available, idle ∉ s.system.pool.available →
        idle.wasReusable = true → (s.sessions idle.executor).poisoned = false) →
      (∀ e ∈ s'.leased, e ∉ s.leased → PoolClient (s'.programs e)) →
      (∀ e ∈ s.leased, s'.programs e = s.programs e) →
      (∀ e ∈ s.system.owned, s'.sessions e = s.sessions e) →
      (∀ e ∈ s'.system.owned, e ∉ s.system.owned → s'.sessions e = {}) →
      Step s s'
  /-- A client makes its next call. -/
  | call {s : PooledSessions E} (e : E) {op : ExecutorCall ClientStatement}
      {next : op.Answer → SqlProgram ClientStatement Unit} {answer : op.Answer}
      {session : Session} :
      e ∈ s.leased → s.programs e = .call op next →
      (s.sessions e).serves op answer session →
      Step s { s with
        sessions := Function.update s.sessions e session
        programs := Function.update s.programs e (next answer) }

/-- The runs of the system. -/
abbrev Reachable : PooledSessions E → PooledSessions E → Prop := Relation.ReflTransGen Step

end PooledSessions

/-! ## What a step of the pool can do -/

section PoolSteps

variable {E : Type} {admitted : FactoryOutcome E → Prop} {s s' : PoolSystem E} {idle : Idle E}

theorem mem_release {lease : ConnectionLease E} {reusable : Bool} {p : ConnectionPool E}
    (h : idle ∈ (lease.release reusable p).2.available) :
    idle ∈ p.available ∨ lease.executor = some idle.executor := by
  unfold ConnectionLease.release at h
  split at h
  · unfold ConnectionPool.giveBack at h
    split at h
    · rename_i e hexecutor
      split at h
      · exact Or.inl h
      · rcases List.mem_append.mp h with hold | hnew
        · exact Or.inl hold
        · obtain rfl := List.mem_singleton.mp hnew
          exact Or.inr hexecutor
    · exact Or.inl h
  · exact Or.inl h

theorem mem_held {leases : List (Option (ConnectionLease E))} {lease : ConnectionLease E} {i : ℕ}
    {e : E} (hlive : leases[i]? = some (some lease)) (he : lease.executor = some e) :
    e ∈ held leases :=
  List.mem_filterMap.mpr ⟨some lease, List.mem_of_getElem? hlive, he⟩

/-- Whatever is idle after a step was idle before, or leased. -/
theorem PoolSystem.idle_of_step (hstep : PoolSystem.Step admitted s s')
    (h : idle ∈ s'.pool.available) :
    idle ∈ s.pool.available ∨ idle.executor ∈ held s.leases := by
  cases hstep with
  | lease i _ _ hacquired =>
      obtain ⟨last, rest, havailable, _, rfl⟩ := ConnectionPool.acquire_leased hacquired
      exact Or.inl (by rw [havailable]; exact List.mem_append_left _ h)
  | create i _ _ hacquired =>
      obtain ⟨_, _, rfl⟩ := ConnectionPool.acquire_create hacquired
      exact Or.inl h
  | assign i j reusable _ htarget =>
      rcases mem_release h with hold | hexecutor
      · exact Or.inl hold
      · exact Or.inr (mem_held htarget hexecutor)
  | destroy i reusable hlease =>
      rcases mem_release h with hold | hexecutor
      · exact Or.inl hold
      · exact Or.inr (mem_held hlease hexecutor)
  | block | wake | exhausted | created | failed | notified | createdNull | thrown | move =>
      exact Or.inl h

end PoolSteps

/-! ## Clean connections -/

namespace PooledSessions

variable {E : Type} [DecidableEq E] {capacity : ℕ} {s s' : PooledSessions E}

/-- The invariant: the pool conserves its slots, idle sessions are clean, and every client is where
the protocol says, with a session that agrees. -/
structure Clean (capacity : ℕ) (s : PooledSessions E) : Prop where
  sound : s.system.Sound capacity 0
  idle : ∀ idle ∈ s.system.pool.available, (s.sessions idle.executor).transaction = false ∧
    (s.sessions idle.executor).poisoned = false
  busy : ∀ e ∈ s.leased, ∃ phase, Session.agrees phase (s.sessions e) ∧
    Keeps (s.programs e) phase fun _ => .closed

omit [DecidableEq E] in
theorem leased_not_idle (h : s.system.Sound capacity 0) {idle : Idle E}
    (hidle : idle ∈ s.system.pool.available) : idle.executor ∉ s.leased := by
  intro hleased
  have hdisjoint := (List.nodup_append.mp h.distinct).2.2
  exact hdisjoint _ (List.mem_map_of_mem hidle) _ hleased rfl

/-- One step. -/
theorem Clean.step (h : s.Clean capacity) (hstep : Step s s') : s'.Clean capacity := by
  cases hstep with
  | @pool s' hpool hover hhonest hstarted hkept hsessions hfresh =>
      have hsound : s'.system.Sound capacity 0 := h.sound.step (fun _ hyields => hyields) hpool
      refine { sound := hsound, idle := ?_, busy := ?_ }
      · intro idle hidle
        by_cases hold : idle ∈ s.system.pool.available
        · have howned : idle.executor ∈ s.system.owned :=
            List.mem_append_left _ (List.mem_map_of_mem hold)
          rw [hsessions _ howned]
          exact h.idle idle hold
        · -- the lease that ended here had a client that was through with its protocol
          have hleased : idle.executor ∈ s.leased :=
            (PoolSystem.idle_of_step hpool hidle).resolve_left hold
          have howned : idle.executor ∈ s.system.owned := List.mem_append_right _ hleased
          have hreturned := hover _ hleased (leased_not_idle hsound hidle)
          have hunpoisoned := hhonest idle hidle hold (hsound.reusable idle hidle)
          obtain ⟨phase, hagrees, hkeeps⟩ := h.busy _ hleased
          rw [hreturned] at hkeeps
          obtain rfl : phase = .closed := hkeeps
          rw [hsessions _ howned]
          rcases hagrees with hclosed | hpoisoned
          · exact ⟨hclosed, hunpoisoned⟩
          · rw [hunpoisoned] at hpoisoned
            cases hpoisoned
      · intro e he
        by_cases hold : e ∈ s.leased
        · have howned : e ∈ s.system.owned := List.mem_append_right _ hold
          rw [hkept e hold, hsessions e howned]
          exact h.busy e hold
        · refine ⟨.closed, ?_, (hstarted e he hold).keeps⟩
          by_cases howned : e ∈ s.system.owned
          · rcases List.mem_append.mp howned with hidle | hleased
            · obtain ⟨idle, hmem, rfl⟩ := List.mem_map.mp hidle
              rw [hsessions _ howned]
              exact Or.inl (h.idle idle hmem).1
            · exact absurd hleased hold
          · rw [hfresh e (List.mem_append_right _ he) howned]
            exact Or.inl rfl
  | @call e op next answer session hleased hprogram hserved =>
      refine { sound := h.sound, idle := ?_, busy := ?_ }
      · intro idle hidle
        have hne : idle.executor ≠ e := by
          rintro rfl
          exact leased_not_idle h.sound hidle hleased
        dsimp only
        rw [Function.update_of_ne hne]
        exact h.idle idle hidle
      · intro e' he'
        by_cases heq : e' = e
        · subst heq
          obtain ⟨phase, hagrees, hkeeps⟩ := h.busy e' hleased
          rw [hprogram] at hkeeps
          obtain ⟨phase', hphase', hnext⟩ := hkeeps answer
          dsimp only
          rw [Function.update_self, Function.update_self]
          exact ⟨phase', Session.agrees_step hagrees hphase' hserved, hnext⟩
        · dsimp only
          rw [Function.update_of_ne heq, Function.update_of_ne heq]
          exact h.busy e' he'

/-- Every run. -/
theorem Clean.reachable (h : s.Clean capacity) (hreach : Reachable s s') : s'.Clean capacity := by
  induction hreach with
  | refl => exact h
  | tail _ hlast ih => exact ih.step hlast

omit [DecidableEq E] in
theorem clean_init (h : s.system.Initial capacity) : s.Clean capacity := by
  have hsound := PoolSystem.sound_init h
  have howned : s.system.owned = [] := by
    have hcounted := hsound.counted
    have hpool := h.pool
    unfold ConnectionPool.make at hpool
    split at hpool
    · cases hpool
    · have htotal : s.system.pool.total = 0 := by rw [← Option.some.inj hpool]
      exact List.eq_nil_of_length_eq_zero (by omega)
  obtain ⟨havailable, hheld⟩ := List.append_eq_nil_iff.mp howned
  refine { sound := hsound, idle := ?_, busy := ?_ }
  · intro idle hidle
    rw [List.map_eq_nil_iff.mp havailable] at hidle
    cases hidle
  · intro e he
    rw [leased, hheld] at he
    cases he

/-- Only clean connections are in the pool.  Whatever the clients of the pool do, and whatever their
statements are answered: no idle session has a transaction open, and no idle executor was
poisoned.  In the trace of a client, a transaction that was started is ended by exactly one COMMIT
or ROLLBACK (`Orderly.ends` and `Orderly.started` are the two directions), and a control statement
that fails is followed at once by the poisoning of the executor. -/
theorem idleSessions_clean (hinit : s.system.Initial capacity) (hreach : Reachable s s') :
    (∀ idle ∈ s'.system.pool.available, (s'.sessions idle.executor).transaction = false ∧
        (s'.sessions idle.executor).poisoned = false) ∧
      ∀ program, PoolClient program → ∀ events, Runs program events () →
        (∀ past start future, events = past ++ start :: future → starts start = true →
          ∃ body ending rest, future = body ++ ending :: rest ∧
            (∀ event ∈ body, event.1.isControl = false) ∧ ending.1.ends = true) ∧
        (∀ past ending future, events = past ++ ending :: future → ending.1.ends = true →
          ∃ before start body, past = before ++ start :: body ∧ starts start = true ∧
            ∀ event ∈ body, event.1.isControl = false) ∧
        ∀ past statement e future, events = past ++ ⟨.control statement, .error e⟩ :: future →
          ∃ rest, future = ⟨.poison, ()⟩ :: rest := by
  refine ⟨((clean_init hinit).reachable hreach).idle, ?_⟩
  intro program hclient events hrun
  have horderly : Orderly events := by
    obtain ⟨phase, hphase, rfl⟩ := follows_runs hclient.keeps hrun
    exact hphase
  refine ⟨?_, ?_, ?_⟩
  · rintro past start future rfl hstart
    exact horderly.ends hstart
  · rintro past ending future rfl hends
    exact horderly.started hends
  · rintro past statement e future rfl
    exact horderly.poisons

/-- What a client does alone, the system does. -/
theorem reachable_of_steps {e : E} {a b : SqlProgram ClientStatement Unit × Session}
    (hsteps : Relation.ReflTransGen (Program.Step fun op => Session.serves op) a b)
    (hleased : e ∈ s.leased) (hstart : (s.programs e, s.sessions e) = a) :
    ∃ s', Reachable s s' ∧ s'.system = s.system ∧ (s'.programs e, s'.sessions e) = b := by
  induction hsteps using Relation.ReflTransGen.head_induction_on generalizing s with
  | refl => exact ⟨s, .refl, rfl, hstart⟩
  | head hfirst _ ih =>
      rcases hfirst with @⟨op, next, session, session', answer, hserved⟩
      obtain ⟨hprogram, hsession⟩ := Prod.mk.inj hstart
      subst hsession
      obtain ⟨s', hreach, hsystem, hend⟩ := ih (s := { s with
        sessions := Function.update s.sessions e session'
        programs := Function.update s.programs e (next answer) }) hleased (by simp)
      exact ⟨s', .head (.call e hleased hprogram hserved) hreach, hsystem, hend⟩

/-- A unit of work that nobody uses: it is begun on a new connection, rolled back when it is
destroyed, and the connection goes to the pool. -/
theorem idleSessions_clean_rolledBack :
    ∃ s s' : PooledSessions ℕ, s.system.Initial 1 ∧ Reachable s s' ∧
      s'.system.pool.available = [⟨7, true⟩] ∧ (s'.sessions 7).transaction = false := by
  let client : SqlProgram ClientStatement Unit :=
    asClient .legacy (unitClient (.ok ()) .command (.ret ()))
  let busy : PoolSystem ℕ :=
    ⟨{ capacity := 1, total := 1 }, [.outside], [some { pool := true, executor := some 7 }]⟩
  let s₀ : PooledSessions ℕ := ⟨⟨{ capacity := 1 }, [.outside], []⟩, fun _ => {}, fun _ => .ret ()⟩
  let s₁ : PooledSessions ℕ :=
    { s₀ with system := ⟨{ capacity := 1, total := 1 }, [.creating], []⟩ }
  let s₂ : PooledSessions ℕ := ⟨busy, fun _ => {}, fun _ => client⟩
  have hcreate : Step s₀ s₁ := .pool (.create 0 rfl rfl rfl) (by simp [s₀, leased, held])
    (by simp [s₁]) (by simp [s₁, s₀, leased, held]) (by simp [s₀, leased, held])
    (by simp [s₀, PoolSystem.owned, held]) (by simp [s₁, s₀, PoolSystem.owned, held])
  have hcreated : Step s₁ s₂ := .pool (.created 0 rfl trivial (by decide))
    (by simp [s₁, s₀, leased, held]) (by simp [s₂, busy]) (fun _ _ _ => .unit .command (.ret ()))
    (by simp [s₁, leased, held]) (by simp [s₁, PoolSystem.owned, held]) (fun _ _ _ => rfl)
  have hclient : client.may (fun op => Session.serves op) (fun _ session => session = {}) {} :=
    ⟨.ok {}, {}, ⟨id, id⟩, .ok {}, { transaction := true }, ⟨fun _ => rfl, id⟩, .ok {}, {},
      ⟨fun _ => rfl, fun _ => rfl, id⟩, rfl⟩
  obtain ⟨_, _, hsteps, rfl⟩ := steps_of_may hclient
  obtain ⟨s₃, hcalls, hsystem, hend⟩ :=
    reachable_of_steps (s := s₂) (e := 7) hsteps (by simp [s₂, busy, leased, held]) rfl
  obtain ⟨hprogram, hsession⟩ := Prod.mk.inj hend
  let s₄ : PooledSessions ℕ := { s₃ with
    system := ⟨{ capacity := 1, total := 1, available := [⟨7, true⟩] }, [.outside], [none]⟩ }
  have hlease : busy.leases[0]? = some (some { pool := true, executor := some 7 }) := rfl
  have hnotifies : notifies busy.threads s₄.system.threads := Or.inl ⟨by decide, rfl⟩
  have hdestroyed : PoolSystem.Step PoolSystem.yields s₃.system s₄.system := by
    rw [hsystem]
    exact .destroy 0 true hlease hnotifies
  have hdestroy : Step s₃ s₄ := by
    refine .pool hdestroyed ?_ ?_ ?_ (fun _ _ => rfl) (fun _ _ => rfl) ?_
    · intro e he _
      have h7 : e = 7 := by simpa [leased, hsystem, s₂, busy, held] using he
      rw [h7, hprogram]
    · intro idle hidle _ _
      obtain rfl := List.mem_singleton.mp hidle
      exact congrArg Session.poisoned hsession
    · intro e he
      simp [s₄, leased, held] at he
    · intro e he hnot
      refine absurd ?_ hnot
      have h7 : e = 7 := by simpa [s₄, PoolSystem.owned, held] using he
      rw [h7, hsystem]
      simp [s₂, busy, PoolSystem.owned, held]
  have hreach : Reachable s₀ s₄ := .head hcreate (.head hcreated (.tail hcalls hdestroy))
  have hinit : s₀.system.Initial 1 := ⟨rfl, by simp [s₀], rfl⟩
  obtain ⟨hclean, _⟩ := idleSessions_clean hinit hreach
  exact ⟨s₀, s₄, hinit, hreach, rfl, (hclean ⟨7, true⟩ (List.mem_singleton.mpr rfl)).1⟩

end PooledSessions

end Warehouse.Mysql
