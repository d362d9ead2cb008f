/-
# Warehouse.Backend.Service — the use cases over the executor

`LegacyWarehouseService` as it is built in production: its units of work are those of
`MySqlLegacyUnitOfWorkFactory`, its sessions those of `InMemoryLegacySessionStore`, its passwords
those of `SodiumPasswordHasher`.  A request becomes a program over the executor of the one lease
that it may take, and hands the sessions on.
-/
import Warehouse.Application.WarehouseService
import Warehouse.Mysql.LegacyUnitOfWork

namespace Warehouse.Backend

open Warehouse.Interaction Warehouse.Mysql

/-! ## The surroundings of a service -/

/-- What the service gets from libsodium and from the pool.  What is drawn at random depends on how
much was drawn before. -/
structure Host where
  verify : Bytes → Bytes → Bool
  needsRehash : Bytes → Bool
  hash : ℕ → Bytes → Except Bytes Bytes
  /-- The tokens of `InMemoryLegacySessionStore::create`. -/
  token : ℕ → Bytes

/-- The state behind the interfaces: the sessions, how much has been drawn, and the unit of work of
the request, by its transaction. -/
structure ServiceState where
  sessions : Bytes → Option LegacyPrincipal := fun _ => none
  drawn : ℕ := 0
  unit : Transaction := Transaction.movedFrom

/-- The interfaces of the service, implemented.  `lease` is what the pool returns to the one
`acquire` of the request. -/
def performService (host : Host) (lease : Except SqlError Unit) :
    Handler ServiceCall ServiceCall.Answer (ExecutorCall LegacyStatement) ExecutorCall.Answer
      ServiceState
  | .begin mode, s => do
      match ← beginUnitOfWork lease mode with
      | .error f => return (.error f, s)
      | .ok t => return (.ok (), { s with unit := t })
  | .unit call, s => do
      let (answer, t) ← performUnit call s.unit
      return (answer, { s with unit := t })
  | .destroy, s => do
      s.unit.destroy
      return ((), { s with unit := Transaction.movedFrom })
  | .createSession principal, s =>
      return (host.token s.drawn,
        { s with
          sessions := fun token =>
            if token = host.token s.drawn then some principal else s.sessions token
          drawn := s.drawn + 1 })
  | .findSession token, s => return (s.sessions token, s)
  | .verify hash password, s => return (host.verify hash password, s)
  | .needsRehash hash, s => return (host.needsRehash hash, s)
  | .hash password, s => return (host.hash s.drawn password, { s with drawn := s.drawn + 1 })
  | .clear _, s => return ((), s)

/-- A request, served: what it sends to its executor, what it returns, and the state it leaves. -/
def serve (host : Host) (lease : Except SqlError Unit) (request : Request) (s : ServiceState) :
    LegacyProgram (Outcome request.View × ServiceState) :=
  request.run.interpret (performService host lease) s

/-! ## Rules -/

section Rules

open Program

variable {host : Host} {lease : Except SqlError Unit} {α σ : Type} {s : ServiceState}
  {E G : Environment (ExecutorCall LegacyStatement) ExecutorCall.Answer σ}
  {Q : Outcome α × ServiceState → σ → Prop} {d : σ} {mode : WorkUnitMode}
  {code : LegacyApplicationErrorCode}

/-- Code of the service on the executor. -/
abbrev Serves (host : Host) (lease : Except SqlError Unit)
    (E G : Environment (ExecutorCall LegacyStatement) ExecutorCall.Answer σ)
    (Q : α × ServiceState → σ → Prop) (p : ServiceProgram α) (s : ServiceState) (d : σ) : Prop :=
  (p.interpret (performService host lease) s).wp E G Q d

/-- The scope of a unit of work: a transaction around the body. -/
theorem serves_withUnit {body : ServiceProgram (Outcome α)}
    (h : (beginUnitOfWork lease mode).wp E G (fun begun d => match begun with
      | .error _ => Q (.error code, s) d
      | .ok t => Serves host lease E G (fun result d => (result.2.unit.destroy).wp E G
          (fun _ d => Q (result.1, { result.2 with unit := Transaction.movedFrom }) d) d) body
          { s with unit := t } d) d) :
    Serves host lease E G Q (withUnit mode code body) s d := by
  show Program.wp E G Q (performService host lease (.begin mode) s >>= _) d
  unfold performService
  rw [wp_bind, wp_bind]
  refine wp_post h ?_
  intro begun d hbegun
  cases begun with
  | error f => exact hbegun
  | ok t =>
      show Program.wp E G Q ((body >>= fun result => destroyUnit >>= fun _ => pure result).interpret
        (performService host lease) { s with unit := t }) d
      rw [interpret_bind, wp_bind]
      refine wp_post hbegun ?_
      intro result d hresult
      show Program.wp E G Q ((result.2.unit.destroy >>= fun _ => _) >>= fun _ => _) d
      rw [wp_bind, wp_bind]
      exact hresult

/-- A call of a repository. -/
theorem serves_repository {call : RepositoryCall}
    {next : Except PersistenceFailure call.Value → ServiceProgram (Outcome α)}
    (h : (performRepository call).wp E G
      (fun answer d => Serves host lease E G Q (next answer) s d) d) :
    Serves host lease E G Q (repository call >>= next) s d := by
  show Program.wp E G Q (((performRepository call >>= fun answer => pure (answer, s.unit)) >>=
    fun answered => pure (answered.1, { s with unit := answered.2 })) >>= _) d
  rw [wp_bind, wp_bind, wp_bind]
  exact h

/-- Hashing draws from the host and touches nothing else. -/
theorem serves_hash {text : Bytes} {next : Except Bytes Bytes → ServiceProgram (Outcome α)}
    (h : Serves host lease E G Q (next (host.hash s.drawn text))
      { s with drawn := s.drawn + 1 } d) :
    Serves host lease E G Q (.call (.hash text) next) s d := h

/-- Giving up. -/
theorem serves_abandon
    (h : (s.unit.rollback).wp E G (fun t d => Q (.error code, { s with unit := t }) d) d) :
    Serves host lease E G Q (abandon code) s d := by
  show Program.wp E G Q ((((s.unit.rollback >>= fun t => pure ((), t)) >>=
    fun answered => pure (answered.1, { s with unit := answered.2 })) >>= _)) d
  rw [wp_bind, wp_bind, wp_bind]
  exact h

/-- The commit, and what follows it. -/
theorem serves_conclude {next : ServiceProgram (Outcome α)}
    (h : (s.unit.commit).wp E G (fun ended d => match ended.1 with
      | .error _ => Q (.error code, { s with unit := ended.2 }) d
      | .ok _ => Serves host lease E G Q next { s with unit := ended.2 } d) d) :
    Serves host lease E G Q (conclude code next) s d := by
  show Program.wp E G Q ((s.unit.commit >>= fun answered =>
    pure (answered.1, { s with unit := answered.2 })) >>= _) d
  rw [wp_bind, wp_bind]
  refine wp_post h ?_
  intro ended d hended
  obtain ⟨committed, t⟩ := ended
  cases committed with
  | error f => exact hended
  | ok _ => exact hended

end Rules

/-! ## Who is let in -/

variable {host : Host} {lease : Except SqlError Unit} {s : ServiceState} {α : Type}

/-- A token that is no session's is turned away at once. -/
theorem interpret_authenticated (token : Bytes)
    (next : LegacyPrincipal → ServiceProgram (Outcome α)) :
    (authenticated token next).interpret (performService host lease) s =
      match s.sessions token with
      | none => .ret (.error .unauthenticated, s)
      | some principal => (next principal).interpret (performService host lease) s := by
  show (match s.sessions token with
    | none => .ret (.error .unauthenticated)
    | some principal => next principal : ServiceProgram (Outcome α)).interpret _ s = _
  cases s.sessions token <;> rfl

/-- And so is a principal that may not write. -/
theorem interpret_authorized (token : Bytes) (next : LegacyPrincipal → ServiceProgram (Outcome α)) :
    (authorized token next).interpret (performService host lease) s =
      match s.sessions token with
      | none => .ret (.error .unauthenticated, s)
      | some principal =>
          if canWrite principal then (next principal).interpret (performService host lease) s
          else .ret (.error .forbidden, s) := by
  unfold authorized
  rw [interpret_authenticated]
  cases s.sessions token with
  | none => rfl
  | some principal =>
      cases hwrite : canWrite principal with
      | true => simp [hwrite]
      | false =>
          simp only [hwrite]
          rfl

end Warehouse.Backend
