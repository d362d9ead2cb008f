/-
# Warehouse.Mysql.Executor — the seam to the database

`SqlExecutor` of `executor.hpp`.  A client of the executor is a `Program` over `ExecutorCall`: it
sends one of the four transaction-control statements, sends a statement of its own, or poisons the
executor.  The client's statements are a type `St` with one constructor for each place of the
source that sends one, and `SqlStatement` gives the text sent there and the values bound to it.  An
executor only ever sees text and values; naming the place is what lets a theorem speak of "the
RUNNING record of this step" although two places might send equal texts.
-/
import Warehouse.Application.UnitOfWork

namespace Warehouse.Mysql

open Warehouse.Interaction

/-! ## Results -/

/-- `SqlErrorCode` -/
inductive SqlErrorCode
  | poolExhausted | connection | connectionLost | statement | constraint | deadlock
  | lockWaitTimeout | invalidData | migration | unknown
  deriving DecidableEq, Repr

/-- `SqlError` -/
structure SqlError where
  code : SqlErrorCode := .unknown
  vendorCode : Nat := 0
  message : Bytes := []
  deriving DecidableEq, Repr

/-- `SqlCell`: `none` is SQL `NULL`. -/
abbrev SqlCell : Type := Option Bytes

/-- `SqlRow` -/
abbrev SqlRow : Type := List SqlCell

/-- `SqlValue`, the variant of bindable values. -/
inductive SqlValue
  | null
  | int64 (value : Int)
  | uint64 (value : Nat)
  | text (value : Bytes)
  | binary (value : Bytes)
  deriving DecidableEq, Repr

/-- `SqlResponse` -/
structure SqlResponse where
  rows : List SqlRow := []
  affectedRows : Nat := 0
  lastInsertId : Nat := 0
  deriving DecidableEq, Repr

/-- `SqlResult` -/
abbrev SqlResult : Type := Except SqlError SqlResponse

/-! ## Statements and calls -/

/-- The statements by which `Transaction` opens and ends a server transaction. -/
inductive TxControl
  | setIsolation (mode : WorkUnitMode)
  | start (mode : WorkUnitMode)
  | commit
  | rollback
  deriving DecidableEq, Repr

/-- The text of a transaction-control statement. -/
def TxControl.sql : TxControl → Bytes
  | .setIsolation .finalizedRead => lit "SET TRANSACTION ISOLATION LEVEL REPEATABLE READ"
  | .setIsolation _ => lit "SET TRANSACTION ISOLATION LEVEL READ COMMITTED"
  | .start .command => lit "START TRANSACTION"
  | .start .shortRead => lit "START TRANSACTION READ ONLY"
  | .start .finalizedRead => lit "START TRANSACTION WITH CONSISTENT SNAPSHOT, READ ONLY"
  | .commit => lit "COMMIT"
  | .rollback => lit "ROLLBACK"

/-- What a client's statement looks like on the wire. -/
class SqlStatement (St : Type) where
  /-- The text handed to the executor. -/
  sql : St → Bytes
  /-- The bound values of `executePrepared`; `none` for `executeTrusted`. -/
  parameters : St → Option (List SqlValue)

/-- The calls a client makes on its `SqlExecutor`. -/
inductive ExecutorCall (St : Type)
  | control (statement : TxControl)
  | execute (statement : St)
  | poison
  deriving DecidableEq

/-- `poison` returns nothing; everything else returns a `SqlResult`. -/
abbrev ExecutorCall.Answer {St : Type} : ExecutorCall St → Type
  | .control _ => SqlResult
  | .execute _ => SqlResult
  | .poison => Unit

/-- Code that uses one executor. -/
abbrev SqlProgram (St : Type) : Type → Type := Program (ExecutorCall St) ExecutorCall.Answer

/-- What an executor was asked and answered. -/
abbrev SqlHistory (St : Type) : Type := History (ExecutorCall St) ExecutorCall.Answer

variable {St : Type}

/-- `executor.executeTrusted` of a transaction-control text. -/
def control (statement : TxControl) : SqlProgram St SqlResult :=
  .call (.control statement) .ret

/-- `executor.executeTrusted` or `executor.executePrepared` of a client's statement. -/
def execute (statement : St) : SqlProgram St SqlResult :=
  .call (.execute statement) .ret

/-- `executor.poison()` -/
def poison : SqlProgram St Unit := .call .poison .ret

end Warehouse.Mysql
