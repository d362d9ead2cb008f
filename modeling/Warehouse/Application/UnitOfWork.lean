/-
# Warehouse.Application.UnitOfWork — the interfaces the use cases are written against

`unit_of_work.hpp`, `legacy_unit_of_work.hpp`, `legacy_session_store.hpp`, `password_hasher.hpp`
and `legacy_models.hpp`.  The service holds references to three interfaces; an implementation of
them is anything that answers their calls.  So a use case is a `Program` over `ServiceCall`, and a
statement about every implementation is a statement about every way of answering.

A unit of work is one object at a time: `begin` makes it, `destroy` is its destructor.  That a
successful `begin` hands over an object, and not a null pointer, is part of the answer's type.
-/
import Mathlib.Data.Int.Notation
import Warehouse.Interaction.History
import Warehouse.Text

namespace Warehouse

open Warehouse.Interaction

/-! ## Work units -/

/-- `WorkUnitMode` -/
inductive WorkUnitMode
  | command | shortRead | finalizedRead
  deriving DecidableEq, Repr

/-- `WorkUnitFailureCode` -/
inductive WorkUnitFailureCode
  | beginFailed | commitFailed | commitOutcomeUnknown | rollbackFailed
  deriving DecidableEq, Repr

/-- `WorkUnitFailure` -/
structure WorkUnitFailure where
  code : WorkUnitFailureCode := .beginFailed
  retryable : Bool := false
  message : Bytes := []
  deriving DecidableEq, Repr

/-- `PersistenceFailureCode` -/
inductive PersistenceFailureCode
  | poolExhausted | connection | statement | constraint | deadlock | lockWaitTimeout | invalidData
  | unknown
  deriving DecidableEq, Repr

/-- `PersistenceFailure` -/
structure PersistenceFailure where
  code : PersistenceFailureCode := .unknown
  retryable : Bool := false
  message : Bytes := []
  deriving DecidableEq, Repr

/-! ## Records -/

/-- `UserRecord` -/
structure UserRecord where
  id : ℕ := 0
  username : Bytes := []
  passwordHash : Bytes := []
  role : Bytes := []
  deriving DecidableEq, Repr

/-- `GoodsRecord` -/
structure GoodsRecord where
  id : ℤ := 0
  name : Bytes := []
  location : Bytes := []
  status : Bytes := []
  storedAt : Bytes := []
  takenAt : Bytes := []
  operatorName : Bytes := []
  deriving DecidableEq, Repr

/-- `GoodsFilter` -/
structure GoodsFilter where
  name : Bytes := []
  status : Bytes := []
  deriving DecidableEq, Repr

/-- `NewGoods` -/
structure NewGoods where
  name : Bytes
  location : Bytes
  operatorName : Bytes
  deriving DecidableEq, Repr

/-- `TakeGoodsOutcome` -/
inductive TakeGoodsOutcome
  | taken | notFound | alreadyTaken
  deriving DecidableEq, Repr

/-- `LegacyPrincipal` -/
structure LegacyPrincipal where
  username : Bytes
  role : Bytes
  deriving DecidableEq, Repr

/-! ## Calls -/

/-- The member functions of `LegacyUsers` and `LegacyGoods`. -/
inductive RepositoryCall
  | findByUsername (username : Bytes) (forUpdate : Bool)
  | updatePasswordHash (userId : ℕ) (passwordHash : Bytes)
  | countAdministrators
  | createAdministrator (username passwordHash : Bytes)
  | list (filter : GoodsFilter)
  | create (goods : NewGoods)
  | findById (goodsId : ℤ)
  | markTaken (goodsId : ℤ) (operatorName : Bytes)
  deriving DecidableEq, Repr

/-- What a repository call returns, if it does not fail. -/
abbrev RepositoryCall.Value : RepositoryCall → Type
  | .findByUsername .. => Option UserRecord
  | .updatePasswordHash .. => Unit
  | .countAdministrators => ℕ
  | .createAdministrator .. => Unit
  | .list _ => List GoodsRecord
  | .create _ => GoodsRecord
  | .findById _ => Option GoodsRecord
  | .markTaken .. => TakeGoodsOutcome

/-- Calls that change what is stored. -/
def RepositoryCall.writes : RepositoryCall → Bool
  | .updatePasswordHash .. | .createAdministrator .. | .create _ | .markTaken .. => true
  | .findByUsername .. | .countAdministrators | .list _ | .findById _ => false

/-- The calls on a `LegacyUnitOfWork` and its repositories. -/
inductive UnitCall
  | repository (call : RepositoryCall)
  | commit
  | rollback
  deriving DecidableEq, Repr

/-- What a call on a unit of work returns. -/
abbrev UnitCall.Answer : UnitCall → Type
  | .repository call => Except PersistenceFailure call.Value
  | .commit => Except WorkUnitFailure Unit
  | .rollback => Unit

/-- The calls that the service makes on the interfaces it was built with; `destroy` is the
destructor of the unit. -/
inductive ServiceCall
  | begin (mode : WorkUnitMode)
  | unit (call : UnitCall)
  | destroy
  | createSession (principal : LegacyPrincipal)
  | findSession (token : Bytes)
  | verify (hash password : Bytes)
  | needsRehash (hash : Bytes)
  | hash (password : Bytes)
  | clear (sensitive : Bytes)
  deriving DecidableEq, Repr

/-- What a call of the service returns. -/
abbrev ServiceCall.Answer : ServiceCall → Type
  | .begin _ => Except PersistenceFailure Unit
  | .unit call => call.Answer
  | .destroy => Unit
  | .createSession _ => Bytes
  | .findSession _ => Option LegacyPrincipal
  | .verify .. => Bool
  | .needsRehash _ => Bool
  | .hash _ => Except Bytes Bytes
  | .clear _ => Unit

/-- Code of the service. -/
abbrev ServiceProgram : Type → Type := Program ServiceCall ServiceCall.Answer

/-- What the service asked and was answered. -/
abbrev ServiceHistory : Type := History ServiceCall ServiceCall.Answer

/-- `units_.begin` -/
def beginUnit (mode : WorkUnitMode) : ServiceProgram (Except PersistenceFailure Unit) :=
  .call (.begin mode) .ret

/-- A call of a repository of the current unit. -/
def repository (call : RepositoryCall) : ServiceProgram (Except PersistenceFailure call.Value) :=
  .call (.unit (.repository call)) .ret

/-- `unit->commit()` -/
def commitUnit : ServiceProgram (Except WorkUnitFailure Unit) := .call (.unit .commit) .ret

/-- `unit->rollback()` -/
def rollbackUnit : ServiceProgram Unit := .call (.unit .rollback) .ret

/-- The end of the scope of `unit`. -/
def destroyUnit : ServiceProgram Unit := .call .destroy .ret

/-- `sessions_.create` -/
def createSession (principal : LegacyPrincipal) : ServiceProgram Bytes :=
  .call (.createSession principal) .ret

/-- `sessions_.find` -/
def findSession (token : Bytes) : ServiceProgram (Option LegacyPrincipal) :=
  .call (.findSession token) .ret

/-- `passwords_.verify` -/
def verifyPassword (hash password : Bytes) : ServiceProgram Bool :=
  .call (.verify hash password) .ret

/-- `passwords_.needsRehash` -/
def needsRehash (hash : Bytes) : ServiceProgram Bool := .call (.needsRehash hash) .ret

/-- `passwords_.hash` -/
def hashPassword (password : Bytes) : ServiceProgram (Except Bytes Bytes) :=
  .call (.hash password) .ret

/-- `passwords_.clear` -/
def clearPassword (sensitive : Bytes) : ServiceProgram Unit := .call (.clear sensitive) .ret

end Warehouse
