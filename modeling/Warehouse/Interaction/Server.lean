/-
# Warehouse.Interaction.Server — a server with one lock, and clients that may fail

Any number of clients, each with a session of one server, run programs against a shared store.
Everything that can go wrong with a connection does: a client may crash, a connection may be lost
with its last operation still on the way, the server may close a session at any time, and only
then does it let go of what the session held.

This module names nothing of the warehouse.
-/
import Mathlib.Logic.Function.Basic
import Mathlib.Logic.Relation
import Warehouse.Interaction.Program

namespace Warehouse.Interaction

/-! ## The server -/

/-- What an operation is to the lock; `hangUp` ends the use of the connection by the client. -/
inductive Role
  | acquire | release | hangUp | work
  deriving DecidableEq

/-- A server with a store `D` and a state `S` in each session. -/
structure Server (Op : Type) (Ans : Op → Type) (D S : Type) where
  role : Op → Role
  /-- A session with nothing unfinished in it. -/
  idle : S
  /-- An operation that is executed or refused, with the answer that reaches the client. -/
  serve : (op : Op) → D × S → Ans op → D × S → Prop
  /-- An operation that is executed when nobody waits for the answer any more. -/
  execute : Op → D × S → D × S → Prop
  /-- The answers of a connection that does not reach the server. -/
  refused : (op : Op) → Ans op → Prop
  /-- The answers that tell a client that it holds the lock. -/
  granted : (op : Op) → Ans op → Prop
  refusable : ∀ op, role op ≠ .hangUp → ∃ answer, refused op answer
  /-- What happens to an operation on the way could also have happened with the client waiting. -/
  served : ∀ op c c', execute op c c' → c' = c ∨ ∃ answer, serve op c answer c'

/-! ## Clients and the cluster -/

section System

variable {Op : Type} {Ans : Op → Type} {D S α : Type}

/-- A client and its session.  `connected` is the client's end of the connection, `alive` the
server's; `inflight` is an operation that was sent before the connection was lost. -/
structure Client (Op : Type) (Ans : Op → Type) (S α : Type) where
  program : Option (Program Op Ans α) := none
  connected : Bool := true
  alive : Bool := true
  inflight : Option Op := none
  session : S

/-- The store, the owner of the lock, the clients, and what has been returned so far. -/
structure Cluster (Op : Type) (Ans : Op → Type) (D S α : Type) where
  store : D
  lock : Option ℕ := none
  clients : ℕ → Client Op Ans S α
  returned : List α := []

/-- The cluster with one client replaced. -/
def Cluster.set (c : Cluster Op Ans D S α) (i : ℕ) (client : Client Op Ans S α) :
    Cluster Op Ans D S α :=
  { c with clients := Function.update c.clients i client }

section Set

variable (c : Cluster Op Ans D S α) (i : ℕ) (client : Client Op Ans S α)

@[simp] theorem Cluster.set_store : (c.set i client).store = c.store := rfl

@[simp] theorem Cluster.set_lock : (c.set i client).lock = c.lock := rfl

@[simp] theorem Cluster.set_returned : (c.set i client).returned = c.returned := rfl

@[simp] theorem Cluster.set_clients_self : (c.set i client).clients i = client := by
  simp [Cluster.set]

theorem Cluster.set_clients_ne {j : ℕ} (h : j ≠ i) : (c.set i client).clients j = c.clients j := by
  simp [Cluster.set, h]

end Set

/-- The lock goes to a session if it is free, or again to the session that has it. -/
def takes (i : ℕ) (lock lock' : Option ℕ) : Prop := (lock = none ∨ lock = some i) ∧ lock' = some i

/-- Giving the lock back: it may be held more than once, or not at all. -/
def leaves (i : ℕ) (lock lock' : Option ℕ) : Prop :=
  lock' = lock ∨ (lock = some i ∧ lock' = none)

/-- The lock after an operation that asks for it, by the answer; the answer may be lost. -/
def asks (srv : Server Op Ans D S) (i : ℕ) (op : Op) (answer : Ans op)
    (lock lock' : Option ℕ) : Prop :=
  ((srv.granted op answer ∨ srv.refused op answer) ∧ takes i lock lock') ∨
    (¬ srv.granted op answer ∧ lock' = lock)

/-- What may be on the way when a client stops waiting: nothing, or what it was about to be
answered. -/
def Client.Sends (srv : Server Op Ans D S) (client : Client Op Ans S α) (sent : Option Op) : Prop :=
  ∀ op, sent = some op → client.connected = true ∧ client.alive = true ∧
    srv.role op ≠ .hangUp ∧ ∃ next, client.program = some (.call op next)

/-- One atomic step of the cluster. -/
inductive Cluster.Step (srv : Server Op Ans D S) (allowed : Program Op Ans α → Prop) :
    Cluster Op Ans D S α → Cluster Op Ans D S α → Prop
  | start {c} (i : ℕ) {p : Program Op Ans α} :
      allowed p → (c.clients i).program = none → (c.clients i).connected = true →
      Step srv allowed c (c.set i { c.clients i with program := some p })
  | finish {c} (i : ℕ) {a : α} :
      (c.clients i).program = some (.ret a) →
      Step srv allowed c { c.set i { c.clients i with program := none } with
        returned := a :: c.returned }
  | work {c} (i : ℕ) {op : Op} {next : Ans op → Program Op Ans α} {answer : Ans op}
      {store : D} {session : S} :
      (c.clients i).program = some (.call op next) → srv.role op = .work →
      (c.clients i).connected = true → (c.clients i).alive = true →
      srv.serve op (c.store, (c.clients i).session) answer (store, session) →
      Step srv allowed c { c.set i { c.clients i with
        program := some (next answer), session := session } with store := store }
  | acquire {c} (i : ℕ) {op : Op} {next : Ans op → Program Op Ans α} {answer : Ans op}
      {lock : Option ℕ} :
      (c.clients i).program = some (.call op next) → srv.role op = .acquire →
      (c.clients i).connected = true → (c.clients i).alive = true →
      asks srv i op answer c.lock lock →
      Step srv allowed c { c.set i { c.clients i with program := some (next answer) } with
        lock := lock }
  | release {c} (i : ℕ) {op : Op} {next : Ans op → Program Op Ans α} {answer : Ans op}
      {lock : Option ℕ} :
      (c.clients i).program = some (.call op next) → srv.role op = .release →
      (c.clients i).connected = true → (c.clients i).alive = true →
      leaves i c.lock lock →
      Step srv allowed c { c.set i { c.clients i with program := some (next answer) } with
        lock := lock }
  | hangUp {c} (i : ℕ) {op : Op} {next : Ans op → Program Op Ans α} {answer : Ans op} :
      (c.clients i).program = some (.call op next) → srv.role op = .hangUp →
      Step srv allowed c (c.set i { c.clients i with
        program := some (next answer), connected := false })
  | lose {c} (i : ℕ) {op : Op} {next : Ans op → Program Op Ans α} {answer : Ans op}
      {sent : Option Op} :
      (c.clients i).program = some (.call op next) → srv.role op ≠ .hangUp →
      (c.clients i).connected = true → srv.refused op answer → (c.clients i).Sends srv sent →
      Step srv allowed c (c.set i { c.clients i with
        program := some (next answer), connected := false, inflight := sent })
  | refuse {c} (i : ℕ) {op : Op} {next : Ans op → Program Op Ans α} {answer : Ans op} :
      (c.clients i).program = some (.call op next) → srv.role op ≠ .hangUp →
      (c.clients i).connected = false → srv.refused op answer →
      Step srv allowed c (c.set i { c.clients i with program := some (next answer) })
  | crash {c} (i : ℕ) {sent : Option Op} :
      (c.clients i).connected = true → (c.clients i).Sends srv sent →
      Step srv allowed c (c.set i { c.clients i with
        program := none, connected := false, inflight := sent })
  | abandon {c} (i : ℕ) :
      (c.clients i).connected = false →
      Step srv allowed c (c.set i { c.clients i with program := none })
  | performs {c} (i : ℕ) {op : Op} {store : D} {session : S} :
      (c.clients i).inflight = some op → srv.role op = .work →
      srv.execute op (c.store, (c.clients i).session) (store, session) →
      Step srv allowed c { c.set i { c.clients i with
        inflight := none, session := session } with store := store }
  | grants {c} (i : ℕ) {op : Op} {lock : Option ℕ} :
      (c.clients i).inflight = some op → srv.role op = .acquire → takes i c.lock lock →
      Step srv allowed c { c.set i { c.clients i with inflight := none } with lock := lock }
  | frees {c} (i : ℕ) {op : Op} {lock : Option ℕ} :
      (c.clients i).inflight = some op → srv.role op = .release → leaves i c.lock lock →
      Step srv allowed c { c.set i { c.clients i with inflight := none } with lock := lock }
  | close {c} (i : ℕ) :
      Step srv allowed c { c.set i { c.clients i with
          alive := false, inflight := none, session := srv.idle } with
        lock := if c.lock = some i then none else c.lock }

/-- The clusters that any sequence of steps leads to. -/
def Cluster.Reachable (srv : Server Op Ans D S) (allowed : Program Op Ans α → Prop) :
    Cluster Op Ans D S α → Cluster Op Ans D S α → Prop :=
  Relation.ReflTransGen (Cluster.Step srv allowed)

/-- A cluster of idle clients around a store. -/
def Cluster.init (srv : Server Op Ans D S) (store : D) : Cluster Op Ans D S α where
  store := store
  clients := fun _ => { session := srv.idle }

/-! ## A client alone -/

variable {srv : Server Op Ans D S} {c c' : Cluster Op Ans D S α} {i : ℕ}
  {allowed : Program Op Ans α → Prop}

/-- The server for one client that nothing happens to: it gets the lock when it asks for it, is
never cut off, and does not hang up. -/
def Server.solo (srv : Server Op Ans D S) : Environment Op Ans (D × S) := fun op c answer c' =>
  match srv.role op with
  | .work => srv.serve op c answer c'
  | .acquire => srv.granted op answer ∧ c' = c
  | .release => c' = c
  | .hangUp => False

/-- Such a client's steps are steps of the cluster. -/
theorem Cluster.reachable_of_solo {p q : Program Op Ans α} {d d' : D} {s s' : S}
    (hsteps : Relation.ReflTransGen (Program.Step srv.solo) (p, d, s) (q, d', s'))
    (hclient : c.clients i = { program := some p, session := s }) (hstore : c.store = d)
    (hlock : c.lock = none ∨ c.lock = some i) :
    ∃ c', Cluster.Reachable srv allowed c c' ∧ c'.clients i = { program := some q, session := s' } ∧
      c'.store = d' ∧ c'.returned = c.returned := by
  suffices hgen : ∀ a b : Program Op Ans α × D × S,
      Relation.ReflTransGen (Program.Step srv.solo) a b →
      ∀ c : Cluster Op Ans D S α, c.clients i = { program := some a.1, session := a.2.2 } →
      c.store = a.2.1 → (c.lock = none ∨ c.lock = some i) →
      ∃ c', Cluster.Reachable srv allowed c c' ∧
        c'.clients i = { program := some b.1, session := b.2.2 } ∧ c'.store = b.2.1 ∧
        c'.returned = c.returned from hgen _ _ hsteps c hclient hstore hlock
  intro a b hab
  induction hab using Relation.ReflTransGen.head_induction_on with
  | refl => exact fun c hclient hstore _ => ⟨c, .refl, hclient, hstore, rfl⟩
  | head hfirst _ ih =>
      intro c hclient hstore hlock
      rcases hfirst with @⟨op, next, ⟨store, session⟩, ⟨store', session'⟩, answer, hserved⟩
      have hprogram : (c.clients i).program = some (.call op next) := by rw [hclient]
      have hconnected : (c.clients i).connected = true := by rw [hclient]
      have halive : (c.clients i).alive = true := by rw [hclient]
      have hsession : (c.clients i).session = session := by rw [hclient]
      unfold Server.solo at hserved
      cases hrole : srv.role op with
      | hangUp => simp only [hrole] at hserved
      | work =>
          simp only [hrole] at hserved
          let c₁ : Cluster Op Ans D S α := { c.set i { c.clients i with
            program := some (next answer), session := session' } with store := store' }
          have hstep : Cluster.Step srv allowed c c₁ :=
            .work i hprogram hrole hconnected halive (by rwa [hstore, hsession])
          obtain ⟨c', hreach, hrest⟩ := ih c₁ (by simp [c₁, hclient]) rfl hlock
          exact ⟨c', .head hstep hreach, hrest⟩
      | acquire =>
          simp only [hrole] at hserved
          obtain ⟨hgranted, hsame⟩ := hserved
          obtain ⟨rfl, rfl⟩ := Prod.mk.inj hsame
          let c₁ : Cluster Op Ans D S α := { c.set i { c.clients i with
            program := some (next answer) } with lock := some i }
          have hstep : Cluster.Step srv allowed c c₁ :=
            .acquire i hprogram hrole hconnected halive (Or.inl ⟨Or.inl hgranted, hlock, rfl⟩)
          obtain ⟨c', hreach, hrest⟩ := ih c₁ (by simp [c₁, hclient]) hstore (Or.inr rfl)
          exact ⟨c', .head hstep hreach, hrest⟩
      | release =>
          simp only [hrole] at hserved
          obtain ⟨rfl, rfl⟩ := Prod.mk.inj hserved
          let c₁ : Cluster Op Ans D S α := { c.set i { c.clients i with
            program := some (next answer) } with lock := c.lock }
          have hstep : Cluster.Step srv allowed c c₁ :=
            .release i hprogram hrole hconnected halive (Or.inl rfl)
          obtain ⟨c', hreach, hrest⟩ := ih c₁ (by simp [c₁, hclient]) hstore hlock
          exact ⟨c', .head hstep hreach, hrest⟩

/-- A whole run of one client in a fresh cluster. -/
theorem Cluster.reachable_of_may {Q : α → D × S → Prop} {p : Program Op Ans α} {d : D}
    (hp : p.may srv.solo Q (d, srv.idle)) (hallowed : allowed p) :
    ∃ c' a s', Cluster.Reachable srv allowed (Cluster.init srv d) c' ∧ a ∈ c'.returned ∧
      Q a (c'.store, s') := by
  obtain ⟨a, ⟨d', s'⟩, hsteps, hQ⟩ := Program.steps_of_may hp
  let c₀ : Cluster Op Ans D S α := Cluster.init srv d
  let c₁ : Cluster Op Ans D S α := c₀.set 0 { c₀.clients 0 with program := some p }
  have hstart : Cluster.Step srv allowed c₀ c₁ := .start 0 hallowed rfl rfl
  obtain ⟨c₂, hreach, hclient, rfl, _⟩ :=
    reachable_of_solo (c := c₁) (i := 0) hsteps (set_clients_self _ _ _) rfl (Or.inl rfl)
  let c₃ : Cluster Op Ans D S α := { c₂.set 0 { c₂.clients 0 with program := none } with
    returned := a :: c₂.returned }
  have hfinish : Cluster.Step srv allowed c₂ c₃ := .finish 0 (by rw [hclient])
  exact ⟨c₃, a, s', .tail (.head hstart hreach) hfinish, List.mem_cons_self, hQ⟩

end System

end Warehouse.Interaction
