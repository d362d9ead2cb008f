/-
# Warehouse.Interaction.RowClients — clients that run transactions on rows

Any number of clients, each with a session of one `RowStore`, in every interleaving of their calls.
A call is performed, or fails with or without the loss of the transaction, or is still on the way
when the connection is lost; the server may close a session at any time.

A client knows what its transaction has executed only from the answers.  `Notes` are that
knowledge, and a program is proved against them alone: `Demands` says what a statement may be sent
upon.  The theorem of this module is that the notes are true of the store in every interleaving,
so that what is demanded of the programs holds of the pending statements of every session and of
the log.

This module names nothing of the warehouse.
-/
import Warehouse.Interaction.RowStore

namespace Warehouse.Interaction

/-! ## What a client knows -/

section Notes

variable {Op : Type} {Ans : Op → Type} {K R : Type}

/-- The statements executed in the open transaction, if there is one, and those of the transactions
whose commits were answered. -/
structure Notes (Op : Type) (Ans : Op → Type) where
  opened : Option (History Op Ans) := none
  settled : History Op Ans := []

variable (srv : RowServer Op Ans K R)

/-- The notes after an answer.  After a failure nothing is known of the transaction. -/
def Notes.note (n : Notes Op Ans) (op : Op) (answer : Ans op) : Notes Op Ans :=
  match srv.role op with
  | .outside => n
  | .begins => { n with opened := if srv.ok op answer then some [] else none }
  | .works =>
      { n with
        opened := if srv.ok op answer then n.opened.map (· ++ [⟨op, answer⟩]) else none }
  | .commits =>
      { opened := none
        settled := if srv.ok op answer then n.settled ++ n.opened.getD [] else n.settled }
  | .aborts => { n with opened := none }

/-- The environment that answers anything, and takes notes. -/
def noting : Environment Op Ans (Notes Op Ans) := fun op n answer n' => n' = n.note srv op answer

/-- A statement is sent in an open transaction only, and only upon what `T` allows there. -/
def Demands (T : History Op Ans → Op → Prop) : Environment Op Ans (Notes Op Ans) :=
  fun op n _ _ => srv.role op = .works → ∃ executed, n.opened = some executed ∧ T executed op

/-- Code that sends no statements meets every demand. -/
theorem wp_of_emits {α : Type} {T : History Op Ans → Op → Prop} {p : Program Op Ans α}
    {n : Notes Op Ans} (h : p.Emits fun op => srv.role op ≠ .works) :
    p.wp (noting srv) (Demands srv T) (fun _ _ => True) n := by
  induction p generalizing n with
  | ret a => trivial
  | call op next ih =>
      intro answer n' _
      exact ⟨fun hrole => absurd hrole h.1, ih answer (h.2 answer)⟩

/-- Every statement was sent upon what `T` allows. -/
def Disciplined (T : History Op Ans → Op → Prop) (events : History Op Ans) : Prop :=
  ∀ past event future, events = past ++ event :: future → T past event.1

variable {T : History Op Ans → Op → Prop} {events : History Op Ans}

theorem disciplined_nil : Disciplined T ([] : History Op Ans) := by
  intro past event future h
  simp at h

theorem Disciplined.append {op : Op} {answer : Ans op} (h : Disciplined T events) (hT : T events op) :
    Disciplined T (events ++ [⟨op, answer⟩]) := by
  intro past event future hsplit
  rcases List.eq_nil_or_concat future with rfl | ⟨future, last, rfl⟩
  · obtain ⟨rfl, hlast⟩ := List.append_inj' hsplit rfl
    obtain rfl := List.head_eq_of_cons_eq hlast
    exact hT
  · have hsplit' : events ++ [⟨op, answer⟩] = (past ++ event :: future) ++ [last] := by
      simpa using hsplit
    exact h past event future (List.append_inj' hsplit' rfl).1

/-- What an executed statement was sent upon. -/
theorem Disciplined.of_mem (h : Disciplined T events) {event : Event Op Ans} (hmem : event ∈ events) :
    ∃ past, past <+: events ∧ T past event.1 := by
  obtain ⟨past, future, rfl⟩ := List.append_of_mem hmem
  exact ⟨past, List.prefix_append _ _, h past event future rfl⟩

end Notes

/-! ## Stores whose transactions are disciplined -/

section Store

variable {Op : Type} {Ans : Op → Type} {K R : Type} (srv : RowServer Op Ans K R)
  (rows₀ : K → Option R) (T : ℕ → History Op Ans → Op → Prop)

/-- The statements that a session has executed in its transaction. -/
def RowSession.executed (s : RowSession Op Ans K R) : History Op Ans := s.pending.map Entry.event

/-- No update is lost, and every session has executed what its client was allowed to send. -/
structure RowStore.Ruled (d : RowStore Op Ans K R) : Prop where
  sound : d.Sound srv rows₀
  disciplined : ∀ i, Disciplined (T i) (d.sessions i).executed

/-- A property of stores that statements, commits, and the ends of sessions keep. -/
structure RowStore.Invariant (J : RowStore Op Ans K R → Prop) : Prop where
  execute : ∀ {d : RowStore Op Ans K R} {i : ℕ} {op : Op} {answer : Ans op} {writes : K → Option R}
    {locks : K → Prop} {counter : ℕ}, d.Ruled srv rows₀ T → J d → T i (d.sessions i).executed op →
    srv.perform op (d.view i) d.counter answer writes locks counter →
    (∀ k, writes k ≠ none ∨ locks k → ∀ j, j ≠ i → ¬ (d.sessions j).holds k) →
    J (d.execute i ⟨op, answer⟩ writes locks counter)
  commit : ∀ {d : RowStore Op Ans K R} (i : ℕ), d.Ruled srv rows₀ T → J d → J (d.commit i)
  replace : ∀ {d : RowStore Op Ans K R} (i : ℕ) (s : RowSession Op Ans K R), J d →
    s.pending = [] → (∀ k, ¬ s.locks k) → J (d.set i s)

namespace RowStore

variable {srv rows₀ T} {J : RowStore Op Ans K R → Prop} {d d' : RowStore Op Ans K R} {i : ℕ}

/-- A session that has executed nothing is disciplined. -/
theorem Ruled.replace (h : d.Ruled srv rows₀ T) (s : RowSession Op Ans K R)
    (hpending : s.pending = []) (hlocks : ∀ k, ¬ s.locks k) : (d.set i s).Ruled srv rows₀ T where
  sound := by
    apply h.sound.replace hpending
    intro k hheld
    simp [RowSession.holds, hpending, hlocks] at hheld
  disciplined j := by
    by_cases hj : j = i
    · subst hj
      rw [set_self, RowSession.executed, hpending]
      exact disciplined_nil
    · rw [set_ne hj]
      exact h.disciplined j

theorem Ruled.commit (h : d.Ruled srv rows₀ T) : (d.commit i).Ruled srv rows₀ T where
  sound := h.sound.commit
  disciplined := (h.replace (d.sessions i).ended rfl fun _ hheld => hheld).disciplined

theorem executed_execute (event : Event Op Ans) (writes : K → Option R) (locks : K → Prop)
    (counter : ℕ) : ((d.execute i event writes locks counter).sessions i).executed =
      (d.sessions i).executed ++ [event] := by
  simp [RowStore.execute, RowStore.set, RowSession.executed]

theorem pending_execute (event : Event Op Ans) (writes : K → Option R) (locks : K → Prop)
    (counter : ℕ) : ((d.execute i event writes locks counter).sessions i).pending =
      (d.sessions i).pending ++ [⟨i, event, d.view i, writes⟩] := by
  simp [RowStore.execute, RowStore.set]

theorem execute_locks (event : Event Op Ans) (writes : K → Option R) (locks : K → Prop)
    (counter : ℕ) (k : K) : ((d.execute i event writes locks counter).sessions i).locks k ↔
      (d.sessions i).locks k ∨ locks k := by
  simp [RowStore.execute, RowStore.set]

theorem execute_ne {j : ℕ} (h : j ≠ i) (event : Event Op Ans) (writes : K → Option R)
    (locks : K → Prop) (counter : ℕ) :
    (d.execute i event writes locks counter).sessions j = d.sessions j := set_ne h _

theorem Ruled.execute {op : Op} {answer : Ans op} {writes : K → Option R} {locks : K → Prop}
    {counter : ℕ} (h : d.Ruled srv rows₀ T) (hT : T i (d.sessions i).executed op)
    (hperform : srv.perform op (d.view i) d.counter answer writes locks counter)
    (hfree : ∀ k, writes k ≠ none ∨ locks k → ∀ j, j ≠ i → ¬ (d.sessions j).holds k) :
    (d.execute i ⟨op, answer⟩ writes locks counter).Ruled srv rows₀ T where
  sound := h.sound.execute hperform hfree
  disciplined j := by
    by_cases hj : j = i
    · subst hj
      rw [executed_execute]
      exact (h.disciplined j).append hT
    · rw [execute_ne hj]
      exact h.disciplined j

/-- Whatever the store performs keeps the invariant, if statements are sent upon what `T` allows. -/
theorem Invariant.serves {op : Op} {answer : Ans op} (hJ : Invariant srv rows₀ T J)
    (hserves : d.Serves srv i op answer d') (h : d.Ruled srv rows₀ T ∧ J d)
    (hT : srv.role op = .works → T i (d.sessions i).executed op) : d'.Ruled srv rows₀ T ∧ J d' := by
  obtain ⟨hruled, hkept⟩ := h
  have hended : ∀ k, ¬ (d.sessions i).ended.locks k := fun _ hheld => hheld
  cases hserves with
  | begins =>
      exact ⟨hruled.commit.replace _ rfl hended, hJ.replace i _ (hJ.commit i hruled hkept) rfl hended⟩
  | commits => exact ⟨hruled.commit, hJ.commit i hruled hkept⟩
  | aborts => exact ⟨hruled.replace _ rfl hended, hJ.replace i _ hkept rfl hended⟩
  | works hrole hperform hfree =>
      have hruled' := hruled.execute (hT hrole) hperform hfree
      have hkept' := hJ.execute hruled hkept (hT hrole) hperform hfree
      split
      · exact ⟨hruled', hkept'⟩
      · exact ⟨hruled'.commit, hJ.commit i hruled' hkept'⟩

theorem executed_commit : ((d.commit i).sessions i).executed = [] := by
  simp [RowStore.commit, set, RowSession.ended, RowSession.executed]

/-- After a commit a session holds nothing. -/
theorem not_holds_commit {k : K} : ¬ ((d.commit i).sessions i).holds k := by
  rw [show (d.commit i).sessions i = (d.sessions i).ended from set_self _]
  exact not_holds_ended _ k

theorem commit_ne {j : ℕ} (h : j ≠ i) : (d.commit i).sessions j = d.sessions j := by
  simp [RowStore.commit, set, h]

@[simp] theorem executed_activate : ((d.activate i).sessions i).executed = [] := by
  simp [activate, set, RowSession.ended, RowSession.executed]

theorem Serves.begun {op : Op} {answer : Ans op} (h : d.Serves srv i op answer d')
    (hrole : srv.role op = .begins) : d' = d.activate i := by
  cases h <;> simp_all

theorem Serves.committed {op : Op} {answer : Ans op} (h : d.Serves srv i op answer d')
    (hrole : srv.role op = .commits) : d' = d.commit i := by
  cases h <;> simp_all

/-- The other sessions are left alone. -/
theorem Serves.others {op : Op} {answer : Ans op} {j : ℕ} (h : d.Serves srv i op answer d')
    (hj : j ≠ i) : d'.sessions j = d.sessions j := by
  cases h with
  | begins => simp [activate, RowStore.commit, set, hj]
  | commits => simp [RowStore.commit, set, hj]
  | aborts => simp [abort, set, hj]
  | works => split <;> simp [RowStore.commit, RowStore.execute, set, hj]

/-- No operation of a session closes one. -/
theorem Serves.alive {op : Op} {answer : Ans op} (h : d.Serves srv i op answer d') :
    (d'.sessions i).alive = (d.sessions i).alive := by
  cases h with
  | begins => simp [activate, set, RowSession.ended]
  | commits => simp [RowStore.commit, set, RowSession.ended]
  | aborts => simp [abort, set, RowSession.ended]
  | works => split <;> simp [RowStore.commit, RowStore.execute, set, RowSession.ended]

/-- The log only grows. -/
theorem Serves.log {op : Op} {answer : Ans op} (h : d.Serves srv i op answer d') :
    d.log <+: d'.log := by
  cases h with
  | begins => exact List.prefix_append _ _
  | commits => exact List.prefix_append _ _
  | aborts => exact List.prefix_refl _
  | works =>
      split
      · exact List.prefix_refl _
      · exact List.prefix_append _ _

/-- Every statement in the log is one that its client may send. -/
def Logged (P : ℕ → Op → Prop) (d : RowStore Op Ans K R) : Prop := ∀ e ∈ d.log, P e.client e.event.1

/-- Where a client sends only what it may, the log has nothing else. -/
theorem logged_invariant (P : ℕ → Op → Prop) :
    Invariant srv rows₀ (fun i _ op => P i op) (Logged P) where
  execute _ h _ _ _ := h
  commit i hruled h := by
    intro e he
    rcases List.mem_append.mp he with hlogged | hpending
    · exact h e hlogged
    · rw [(hruled.sound.executed i e hpending).2]
      obtain ⟨past, -, hallowed⟩ :=
        (hruled.disciplined i).of_mem (List.mem_map_of_mem hpending)
      exact hallowed
  replace _ _ h _ _ := h

end RowStore

end Store

/-! ## Clients, in any interleaving -/

section System

variable {Op : Type} {Ans : Op → Type} {K R α : Type}

/-- A client: what is left of its program, what it knows, its end of the connection, and an
operation that was sent before the connection was lost. -/
structure RowClient (Op : Type) (Ans : Op → Type) (α : Type) where
  program : Program Op Ans α
  notes : Notes Op Ans := {}
  connected : Bool := true
  inflight : Option Op := none

/-- The store, with session `i` for client `i`. -/
structure RowSystem (Op : Type) (Ans : Op → Type) (K R α : Type) where
  store : RowStore Op Ans K R
  clients : ℕ → RowClient Op Ans α

/-- A client after an answer. -/
def RowClient.answered (srv : RowServer Op Ans K R) (client : RowClient Op Ans α) (op : Op)
    (answer : Ans op) (program : Program Op Ans α) : RowClient Op Ans α :=
  { client with program := program, notes := client.notes.note srv op answer }

namespace RowSystem

/-- One client and the store replaced. -/
def put (c : RowSystem Op Ans K R α) (i : ℕ) (client : RowClient Op Ans α)
    (store : RowStore Op Ans K R) : RowSystem Op Ans K R α where
  store := store
  clients := Function.update c.clients i client

variable (srv : RowServer Op Ans K R)

/-- One atomic step.  A commit may be performed and yet be answered by a failure. -/
inductive Step : RowSystem Op Ans K R α → RowSystem Op Ans K R α → Prop
  | outside {c} (i : ℕ) {op : Op} {next : Ans op → Program Op Ans α} {answer : Ans op} :
      (c.clients i).program = .call op next → srv.role op = .outside →
      Step c (c.put i ((c.clients i).answered srv op answer (next answer)) c.store)
  | served {c} (i : ℕ) {op : Op} {next : Ans op → Program Op Ans α} {answer : Ans op}
      {store : RowStore Op Ans K R} :
      (c.clients i).program = .call op next → (c.clients i).connected = true →
      (c.store.sessions i).alive = true → (srv.ok op answer = true ∨ srv.role op = .commits) →
      c.store.Serves srv i op answer store →
      Step c (c.put i ((c.clients i).answered srv op answer (next answer)) store)
  | failed {c} (i : ℕ) {op : Op} {next : Ans op → Program Op Ans α} {answer : Ans op} :
      (c.clients i).program = .call op next → srv.role op ≠ .outside → srv.ok op answer = false →
      Step c (c.put i ((c.clients i).answered srv op answer (next answer)) c.store)
  | aborted {c} (i : ℕ) {op : Op} {next : Ans op → Program Op Ans α} {answer : Ans op} :
      (c.clients i).program = .call op next → srv.role op ≠ .outside → srv.ok op answer = false →
      (c.clients i).connected = true →
      Step c (c.put i ((c.clients i).answered srv op answer (next answer)) (c.store.abort i))
  | lost {c} (i : ℕ) {op : Op} {next : Ans op → Program Op Ans α} {answer : Ans op} :
      (c.clients i).program = .call op next → srv.role op ≠ .outside → srv.ok op answer = false →
      (c.clients i).connected = true →
      Step c (c.put i { (c.clients i).answered srv op answer (next answer) with
        connected := false, inflight := some op } c.store)
  | arrives {c} (i : ℕ) {op : Op} {answer : Ans op} {store : RowStore Op Ans K R} :
      (c.clients i).inflight = some op → (c.store.sessions i).alive = true →
      c.store.Serves srv i op answer store →
      Step c (c.put i { c.clients i with inflight := none } store)
  | close {c} (i : ℕ) :
      Step c (c.put i { c.clients i with inflight := none } (c.store.close i))

/-- The systems that any sequence of steps leads to. -/
abbrev Reachable : RowSystem Op Ans K R α → RowSystem Op Ans K R α → Prop :=
  Relation.ReflTransGen (Step srv)

/-- Clients that have not begun, around the rows of a store. -/
def init (programs : ℕ → Program Op Ans α) (rows : K → Option R) (counter : ℕ) :
    RowSystem Op Ans K R α where
  store := { rows := rows, counter := counter }
  clients i := { program := programs i }

/-! ### The notes are true -/

variable (T : ℕ → History Op Ans → Op → Prop) (Q : ℕ → α → Notes Op Ans → Prop)

/-- What client `i` knows is so, what it will send is allowed, and so is what is on the way. -/
structure Agrees (i : ℕ) (client : RowClient Op Ans α) (store : RowStore Op Ans K R) : Prop where
  program : client.program.wp (noting srv) (Demands srv (T i)) (Q i) client.notes
  opened : client.connected = true → (store.sessions i).alive = true →
    ∀ executed, client.notes.opened = some executed →
      (store.sessions i).active = true ∧ (store.sessions i).executed = executed
  inflight : ∀ op, client.inflight = some op → srv.role op = .works →
    (store.sessions i).alive = true → T i (store.sessions i).executed op
  waiting : client.connected = true → client.inflight = none
  settled : ∀ event ∈ client.notes.settled,
    ∃ entry ∈ store.log, entry.client = i ∧ entry.event = event

variable {srv T Q} {i : ℕ} {client : RowClient Op Ans α} {d d' : RowStore Op Ans K R} {op : Op}
  {answer : Ans op} {next : Ans op → Program Op Ans α} {rows₀ : K → Option R}

/-- A step of another client. -/
theorem Agrees.frame (h : Agrees srv T Q i client d) (hsession : d'.sessions i = d.sessions i)
    (hlog : d.log <+: d'.log) : Agrees srv T Q i client d' where
  program := h.program
  opened := by
    rw [hsession]
    exact h.opened
  inflight := by
    rw [hsession]
    exact h.inflight
  waiting := h.waiting
  settled event hevent := by
    obtain ⟨entry, hentry, hrest⟩ := h.settled event hevent
    exact ⟨entry, hlog.subset hentry, hrest⟩

/-- What is left of the program after an answer. -/
theorem Agrees.rest (h : Agrees srv T Q i client d) (hprogram : client.program = .call op next) :
    (next answer).wp (noting srv) (Demands srv (T i)) (Q i) (client.notes.note srv op answer) := by
  have hwp := h.program
  rw [hprogram] at hwp
  exact (hwp answer _ rfl).2

/-- What is sent is allowed. -/
theorem Agrees.demand (h : Agrees srv T Q i client d) (hprogram : client.program = .call op next)
    (answer : Ans op) (hrole : srv.role op = .works) :
    ∃ executed, client.notes.opened = some executed ∧ T i executed op := by
  have hwp := h.program
  rw [hprogram] at hwp
  exact (hwp answer _ rfl).1 hrole

/-- After a failure nothing is known of the transaction, and nothing new is settled. -/
theorem note_failed {n : Notes Op Ans} (hrole : srv.role op ≠ .outside)
    (hfailed : srv.ok op answer = false) : n.note srv op answer = { n with opened := none } := by
  unfold Notes.note
  cases hop : srv.role op with
  | outside => exact absurd hop hrole
  | begins => simp [hfailed]
  | works => simp [hfailed]
  | commits => simp [hfailed]
  | aborts => rfl

/-- A call outside of the store tells nothing about it. -/
theorem Agrees.outside (h : Agrees srv T Q i client d) (hprogram : client.program = .call op next)
    (hrole : srv.role op = .outside) :
    Agrees srv T Q i (client.answered srv op answer (next answer)) d := by
  have hsame : client.notes.note srv op answer = client.notes := by simp [Notes.note, hrole]
  refine ⟨h.rest hprogram, ?_, h.inflight, h.waiting, ?_⟩
  · show _ → _ → ∀ executed, (client.notes.note srv op answer).opened = some executed → _
    rw [hsame]
    exact h.opened
  · show ∀ event ∈ (client.notes.note srv op answer).settled, _
    rw [hsame]
    exact h.settled

/-- A call that fails, with the transaction or without, answered or on the way. -/
theorem Agrees.failed {connected : Bool} {inflight : Option Op} (h : Agrees srv T Q i client d)
    (hprogram : client.program = .call op next) (hrole : srv.role op ≠ .outside)
    (hfailed : srv.ok op answer = false) (hlog : d'.log = d.log)
    (hinflight : ∀ op, inflight = some op → srv.role op = .works →
      (d'.sessions i).alive = true → T i (d'.sessions i).executed op)
    (hwaiting : connected = true → inflight = none) :
    Agrees srv T Q i { client.answered srv op answer (next answer) with
      connected := connected, inflight := inflight } d' := by
  refine ⟨h.rest hprogram, ?_, hinflight, hwaiting, ?_⟩
  · show _ → _ → ∀ executed, (client.notes.note srv op answer).opened = some executed → _
    rw [note_failed hrole hfailed]
    exact nofun
  · show ∀ event ∈ (client.notes.note srv op answer).settled, _
    rw [note_failed hrole hfailed, hlog]
    exact h.settled

/-- A call that is performed. -/
theorem Agrees.served (h : Agrees srv T Q i client d) (hsound : d.Sound srv rows₀)
    (hprogram : client.program = .call op next) (hconnected : client.connected = true)
    (halive : (d.sessions i).alive = true)
    (hok : srv.ok op answer = true ∨ srv.role op = .commits)
    (hserves : d.Serves srv i op answer d') :
    Agrees srv T Q i (client.answered srv op answer (next answer)) d' := by
  have hopened := h.opened hconnected halive
  have hsettled : ∀ event ∈ client.notes.settled,
      ∃ entry ∈ d'.log, entry.client = i ∧ entry.event = event := by
    intro event hevent
    obtain ⟨entry, hentry, hrest⟩ := h.settled event hevent
    exact ⟨entry, hserves.log.subset hentry, hrest⟩
  refine ⟨h.rest hprogram, ?_, ?_, h.waiting, ?_⟩
  · intro _ _ executed
    show (client.notes.note srv op answer).opened = some executed → _
    cases hrole : srv.role op with
    | outside =>
        cases hserves <;> simp_all
    | commits => simp [Notes.note, hrole]
    | aborts => simp [Notes.note, hrole]
    | begins =>
        have hperformed : srv.ok op answer = true := by simpa [hrole] using hok
        rw [hserves.begun hrole]
        simp only [Notes.note, hrole, hperformed, if_true, Option.some.injEq]
        rintro rfl
        exact ⟨RowStore.activate_active, RowStore.executed_activate⟩
    | works =>
        have hperformed : srv.ok op answer = true := by simpa [hrole] using hok
        -- the client knew its transaction to be open, and the store agrees
        obtain ⟨before, hbefore, -⟩ := h.demand hprogram answer hrole
        obtain ⟨hactive, hexecuted⟩ := hopened before hbefore
        obtain ⟨writes, locks, counter, -, -, rfl⟩ := hserves.executed hrole hactive
        simp only [Notes.note, hrole, hperformed, hbefore, if_true, Option.map_some,
          Option.some.injEq]
        rintro rfl
        rw [RowStore.execute_active, RowStore.executed_execute, hexecuted]
        exact ⟨hactive, rfl⟩
  · intro other hinflight
    have hnothing : client.inflight = some other := hinflight
    rw [h.waiting hconnected] at hnothing
    cases hnothing
  · show ∀ event ∈ (client.notes.note srv op answer).settled, _
    cases hrole : srv.role op with
    | outside => simpa [Notes.note, hrole] using hsettled
    | begins => simpa [Notes.note, hrole] using hsettled
    | works => simpa [Notes.note, hrole] using hsettled
    | aborts => simpa [Notes.note, hrole] using hsettled
    | commits =>
        intro event hevent
        simp only [Notes.note, hrole] at hevent
        split at hevent
        · rcases List.mem_append.mp hevent with hold | hnew
          · exact hsettled event hold
          -- what was known to be executed is what the commit puts into the log
          cases hknown : client.notes.opened with
          | none =>
              rw [hknown] at hnew
              cases hnew
          | some executed =>
              rw [hknown] at hnew
              obtain ⟨-, hexecuted⟩ := hopened executed hknown
              have hmem : event ∈ (d.sessions i).executed := by rw [hexecuted]; exact hnew
              obtain ⟨entry, hentry, rfl⟩ := List.mem_map.mp hmem
              rw [hserves.committed hrole]
              exact ⟨entry, List.mem_append_right _ hentry, (hsound.executed i entry hentry).2, rfl⟩
        · exact hsettled event hevent

/-- The notes of all clients are true, and the store is ruled. -/
structure Tracked (srv : RowServer Op Ans K R) (rows₀ : K → Option R)
    (T : ℕ → History Op Ans → Op → Prop) (Q : ℕ → α → Notes Op Ans → Prop)
    (J : RowStore Op Ans K R → Prop) (c : RowSystem Op Ans K R α) : Prop where
  ruled : c.store.Ruled srv rows₀ T
  kept : J c.store
  agrees : ∀ i, Agrees srv T Q i (c.clients i) c.store

variable {J : RowStore Op Ans K R → Prop} {c c' : RowSystem Op Ans K R α}

/-- A step of client `i` that leaves the other sessions alone. -/
theorem Tracked.put (h : c.Tracked srv rows₀ T Q J) (hruled : d.Ruled srv rows₀ T) (hkept : J d)
    (hothers : ∀ j, j ≠ i → d.sessions j = c.store.sessions j) (hlog : c.store.log <+: d.log)
    (hclient : Agrees srv T Q i client d) : (c.put i client d).Tracked srv rows₀ T Q J where
  ruled := hruled
  kept := hkept
  agrees j := by
    by_cases hj : j = i
    · subst hj
      simpa [RowSystem.put] using hclient
    · have hframe := (h.agrees j).frame (hothers j hj) hlog
      simpa [RowSystem.put, hj] using hframe

/-- Whatever happens, the notes stay true. -/
theorem Tracked.step (hJ : RowStore.Invariant srv rows₀ T J) (h : c.Tracked srv rows₀ T Q J)
    (hstep : Step srv c c') : c'.Tracked srv rows₀ T Q J := by
  have hended : ∀ i k, ¬ (c.store.sessions i).ended.locks k := fun _ _ hheld => hheld
  cases hstep with
  | outside i hprogram hrole =>
      exact h.put h.ruled h.kept (fun _ _ => rfl) (List.prefix_refl _)
        ((h.agrees i).outside hprogram hrole)
  | @served i op next answer store hprogram hconnected halive hok hserves =>
      have hagrees := h.agrees i
      have hT : srv.role op = .works → T i (c.store.sessions i).executed op := by
        intro hrole
        obtain ⟨executed, hopened, hallowed⟩ := hagrees.demand hprogram answer hrole
        rwa [(hagrees.opened hconnected halive executed hopened).2]
      obtain ⟨hruled, hkept⟩ := hJ.serves hserves ⟨h.ruled, h.kept⟩ hT
      exact h.put hruled hkept (fun _ hj => hserves.others hj) hserves.log
        (hagrees.served h.ruled.sound hprogram hconnected halive hok hserves)
  | failed i hprogram hrole hfailed =>
      exact h.put h.ruled h.kept (fun _ _ => rfl) (List.prefix_refl _)
        ((h.agrees i).failed hprogram hrole hfailed rfl (h.agrees i).inflight (h.agrees i).waiting)
  | aborted i hprogram hrole hfailed hconnected =>
      have hnothing := (h.agrees i).waiting hconnected
      refine h.put (h.ruled.replace _ rfl (hended i)) (hJ.replace i _ h.kept rfl (hended i))
        (fun _ hj => RowStore.set_ne hj _) (List.prefix_refl _)
        ((h.agrees i).failed hprogram hrole hfailed rfl ?_ (h.agrees i).waiting)
      intro op hinflight
      rw [hnothing] at hinflight
      cases hinflight
  | @lost i op next answer hprogram hrole hfailed hconnected =>
      refine h.put h.ruled h.kept (fun _ _ => rfl) (List.prefix_refl _)
        ((h.agrees i).failed hprogram hrole hfailed rfl ?_ nofun)
      intro sent hsent hworks halive
      obtain rfl := Option.some.inj hsent
      obtain ⟨executed, hopened, hallowed⟩ := (h.agrees i).demand hprogram answer hworks
      rwa [((h.agrees i).opened hconnected halive executed hopened).2]
  | @arrives i op answer store hinflight halive hserves =>
      have hagrees := h.agrees i
      obtain ⟨hruled, hkept⟩ := hJ.serves hserves ⟨h.ruled, h.kept⟩
        fun hrole => hagrees.inflight op hinflight hrole halive
      have hgone : (c.clients i).connected ≠ true := by
        intro hconnected
        rw [hagrees.waiting hconnected] at hinflight
        cases hinflight
      refine h.put hruled hkept (fun _ hj => hserves.others hj) hserves.log
        ⟨hagrees.program, fun hconnected => absurd hconnected hgone, nofun, fun _ => rfl, ?_⟩
      intro event hevent
      obtain ⟨entry, hentry, hrest⟩ := hagrees.settled event hevent
      exact ⟨entry, hserves.log.subset hentry, hrest⟩
  | close i =>
      have hagrees := h.agrees i
      refine h.put (h.ruled.replace _ rfl (hended i)) (hJ.replace i _ h.kept rfl (hended i))
        (fun _ hj => RowStore.set_ne hj _) (List.prefix_refl _)
        ⟨hagrees.program, ?_, nofun, fun _ => rfl, hagrees.settled⟩
      intro _ halive
      simp [RowStore.close] at halive

/-- In every interleaving of programs that meet their demands, the notes are true and the invariant
holds. -/
theorem tracked_of_reachable {programs : ℕ → Program Op Ans α} {counter : ℕ}
    (hJ : RowStore.Invariant srv rows₀ T J) (hinit : J { rows := rows₀, counter := counter })
    (hprograms : ∀ i, (programs i).wp (noting srv) (Demands srv (T i)) (Q i) {})
    (hreach : Reachable srv (init programs rows₀ counter) c) : c.Tracked srv rows₀ T Q J := by
  induction hreach with
  | refl =>
      refine ⟨⟨RowStore.sound_fresh rows₀ counter, fun _ => disciplined_nil⟩, hinit, fun i => ?_⟩
      exact ⟨hprograms i, nofun, nofun, fun _ => rfl, nofun⟩
  | tail _ hstep ih => exact ih.step hJ hstep

/-- What is committed stays in the log. -/
theorem log_of_step (hstep : Step srv c c') : c.store.log <+: c'.store.log := by
  cases hstep with
  | served i _ _ _ _ hserves => exact hserves.log
  | arrives i _ _ hserves => exact hserves.log
  | outside i => exact List.prefix_refl _
  | failed i => exact List.prefix_refl _
  | aborted i => exact List.prefix_refl _
  | lost i => exact List.prefix_refl _
  | close i => exact List.prefix_refl _

theorem log_of_reachable (hreach : Reachable srv c c') : c.store.log <+: c'.store.log := by
  induction hreach with
  | refl => exact List.prefix_refl _
  | tail _ hstep ih => exact ih.trans (log_of_step hstep)

/-- What a client has returned, it has returned upon notes that meet its postcondition. -/
theorem Tracked.returned (h : c.Tracked srv rows₀ T Q J) {a : α}
    (hreturned : (c.clients i).program = .ret a) : Q i a (c.clients i).notes := by
  have hwp := (h.agrees i).program
  rwa [hreturned] at hwp

end RowSystem

end System

end Warehouse.Interaction
