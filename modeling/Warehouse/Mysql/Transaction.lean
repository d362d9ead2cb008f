/-
# Warehouse.Mysql.Transaction — the RAII transaction guard

`transaction.cpp`.  A `Transaction` object is its two members: whether `executor_` still points at
an executor, and `active_`.  Every member function that may send a statement returns the object it
leaves behind, a move leaves the empty object in its source, and the destructor is `rollback`.
-/
import Warehouse.Mysql.Executor

namespace Warehouse.Mysql

open Warehouse.Interaction

/-- The failure reported for a transaction-control statement that was refused. -/
def failure (code : WorkUnitFailureCode) (error : SqlError) : WorkUnitFailure where
  code := code
  retryable := error.code = .deadlock || error.code = .lockWaitTimeout
  message := error.message

/-- A `Transaction` object: `executor_ != nullptr` and `active_`. -/
structure Transaction where
  attached : Bool := false
  active : Bool := false
  deriving DecidableEq, Repr

namespace Transaction

variable {St : Type}

/-- The object that `Transaction(SqlExecutor&)` builds. -/
def opened : Transaction := ⟨true, true⟩

/-- What a move leaves in its source: `executor_` and `active_` are exchanged for null and false. -/
def movedFrom : Transaction := ⟨false, false⟩

/-- `Transaction::rollback` -/
def rollback (t : Transaction) : SqlProgram St Transaction :=
  if !t.active || !t.attached then return t
  else do
    match ← control .rollback with
    | .ok _ => return { t with active := false }
    | .error _ => do
        poison
        return { t with active := false }

/-- `Transaction::~Transaction` -/
def destroy (t : Transaction) : SqlProgram St Unit := do
  let _ ← t.rollback
  return ()

/-- `Transaction::commit`.  A commit on an object that is no longer active succeeds at once. -/
def commit (t : Transaction) : SqlProgram St (Except WorkUnitFailure Unit × Transaction) :=
  if !t.active || !t.attached then return (.ok (), t)
  else do
    match ← control .commit with
    | .ok _ => return (.ok (), { t with active := false })
    | .error e => do
        -- once COMMIT is sent, nothing proves whether the server committed
        poison
        return (.error (failure .commitOutcomeUnknown e), { t with active := false })

/-- `Transaction::begin`.  The object is built in place and moved into the result; the source of
the move is destroyed here. -/
def begin (mode : WorkUnitMode) : SqlProgram St (Except WorkUnitFailure Transaction) := do
  match ← control (.setIsolation mode) with
  | .error e => do
      poison
      return .error (failure .beginFailed e)
  | .ok _ =>
      match ← control (.start mode) with
      | .error e => do
          poison
          return .error (failure .beginFailed e)
      | .ok _ => do
          movedFrom.destroy
          return .ok opened

/-! ## What the guard sends -/

/-- A guard that is not active any more sends nothing. -/
theorem destroy_inactive {t : Transaction} (hinactive : t.active = false) :
    (t.destroy : SqlProgram St Unit) = .ret () := by
  simp only [destroy, rollback, hinactive]
  rfl

section Emits

open Program

variable {P : ExecutorCall St → Prop}

theorem emits_rollback (hrollback : P (.control .rollback)) (hpoison : P .poison)
    (t : Transaction) : (t.rollback : SqlProgram St _).Emits P := by
  unfold rollback
  split
  · trivial
  · refine ⟨hrollback, ?_⟩
    intro answer
    cases answer with
    | error e => exact ⟨hpoison, fun _ => trivial⟩
    | ok response => trivial

theorem emits_destroy (hrollback : P (.control .rollback)) (hpoison : P .poison)
    (t : Transaction) : (t.destroy : SqlProgram St _).Emits P :=
  emits_bind (emits_rollback hrollback hpoison t) fun _ => trivial

theorem emits_commit (hcommit : P (.control .commit)) (hpoison : P .poison) (t : Transaction) :
    (t.commit : SqlProgram St _).Emits P := by
  unfold commit
  split
  · trivial
  · refine ⟨hcommit, ?_⟩
    intro answer
    cases answer with
    | error e => exact ⟨hpoison, fun _ => trivial⟩
    | ok response => trivial

theorem emits_begin {mode : WorkUnitMode} (hisolation : P (.control (.setIsolation mode)))
    (hstart : P (.control (.start mode))) (hpoison : P .poison) :
    (begin mode : SqlProgram St _).Emits P := by
  refine ⟨hisolation, ?_⟩
  intro isolated
  cases isolated with
  | error e => exact ⟨hpoison, fun _ => trivial⟩
  | ok response =>
      refine ⟨hstart, ?_⟩
      intro started
      cases started with
      | error e => exact ⟨hpoison, fun _ => trivial⟩
      | ok response => trivial

end Emits

end Transaction

end Warehouse.Mysql
