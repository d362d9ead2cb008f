/-
# Warehouse.Mysql.LegacyUnitOfWork — units of work over an executor

`legacy_unit_of_work.cpp`.  The repositories and the unit of work are programs over the executor of
the unit's lease, with one constructor of `LegacyStatement` for each text that they send.  A
`MySqlLegacyUnitOfWork` is its `Transaction` member; its destructor is the transaction's, and the
lease is given back after that.
-/
import Warehouse.Interaction.Handler
import Warehouse.Mysql.Transaction

namespace Warehouse.Mysql

open Warehouse.Interaction

/-! ## Statements -/

/-- The places where a repository sends a statement. -/
inductive LegacyStatement
  | findUser (username : Bytes) (forUpdate : Bool)
  | updatePassword (passwordHash : Bytes) (userId : ℕ)
  | countAdministrators
  | insertAdministrator (username passwordHash : Bytes)
  | listGoods (filter : GoodsFilter)
  | insertGoods (goods : NewGoods)
  | selectGoods (goodsId : ℤ)
  | takeGoods (operatorName : Bytes) (goodsId : ℤ)
  | lockStatus (goodsId : ℤ)
  deriving DecidableEq

/-- The columns of a goods row, up to the table's name. -/
def selectGoodsColumns : Bytes :=
  lit "SELECT id,name,location,status,"
    ++ lit "DATE_FORMAT(stored_at,'%Y-%m-%d %H:%i:%s'),"
    ++ lit "DATE_FORMAT(taken_at,'%Y-%m-%d %H:%i:%s'),operator FROM goods"

instance : SqlStatement LegacyStatement where
  sql
    | .findUser _ true => lit "SELECT id,username,password,role FROM users WHERE username=? FOR UPDATE"
    | .findUser _ false => lit "SELECT id,username,password,role FROM users WHERE username=?"
    | .updatePassword .. => lit "UPDATE users SET password=? WHERE id=?"
    | .countAdministrators => lit "SELECT COUNT(*) FROM users WHERE role='admin'"
    | .insertAdministrator .. => lit "INSERT INTO users(username,password,role) VALUES(?,?,'admin')"
    | .listGoods filter => selectGoodsColumns ++ lit " WHERE 1=1"
        ++ (if filter.name.isEmpty then [] else lit " AND LOWER(name) LIKE CONCAT('%',?,'%')")
        ++ (if filter.status.isEmpty then [] else lit " AND status=?")
        ++ lit " ORDER BY id"
    | .insertGoods _ => lit "INSERT INTO goods(name,location,status,stored_at,operator) "
        ++ lit "VALUES(?,?,'stored',UTC_TIMESTAMP(),?)"
    | .selectGoods _ => selectGoodsColumns ++ lit " WHERE id=?"
    | .takeGoods .. => lit "UPDATE goods SET status='taken',taken_at=UTC_TIMESTAMP(),operator=? "
        ++ lit "WHERE id=? AND status<>'taken'"
    | .lockStatus _ => lit "SELECT status FROM goods WHERE id=? FOR UPDATE"
  parameters
    | .findUser username _ => some [.text username]
    | .updatePassword passwordHash userId => some [.text passwordHash, .uint64 userId]
    | .countAdministrators => some []
    | .insertAdministrator username passwordHash => some [.text username, .text passwordHash]
    | .listGoods filter => some
        ((if filter.name.isEmpty then [] else [.text filter.name])
          ++ if filter.status.isEmpty then [] else [.text filter.status])
    | .insertGoods goods => some [.text goods.name, .text goods.location, .text goods.operatorName]
    | .selectGoods goodsId => some [.int64 goodsId]
    | .takeGoods operatorName goodsId => some [.text operatorName, .int64 goodsId]
    | .lockStatus goodsId => some [.int64 goodsId]

/-! ## Failures and rows -/

/-- `mapFailure` -/
def mapFailure (error : SqlError) : PersistenceFailure where
  code := match error.code with
    | .poolExhausted => .poolExhausted
    | .connection | .connectionLost => .connection
    | .constraint => .constraint
    | .deadlock => .deadlock
    | .lockWaitTimeout => .lockWaitTimeout
    | .invalidData => .invalidData
    | .statement | .migration | .unknown => .statement
  retryable := error.code = .deadlock || error.code = .lockWaitTimeout
  message := error.message

/-- A failure about data that does not have the expected shape. -/
def invalidData (message : Bytes) : PersistenceFailure where
  code := .invalidData
  retryable := false
  message := message

/-- `parseInteger<std::uint64_t>` -/
def parseUint64 (cell : SqlCell) : Option ℕ := cell.bind (parseUnsigned (2 ^ 64))

/-- `parseInteger<std::int64_t>` -/
def parseInt64 (cell : SqlCell) : Option ℤ := cell.bind (parseSigned (2 ^ 63 - 1))

/-- `static_cast<std::int64_t>` of an unsigned value. -/
def toInt64 (n : ℕ) : ℤ := (n : ℤ).bmod (2 ^ 64)

/-- `parseGoodsRecord` -/
def parseGoodsRecord : SqlRow → Except PersistenceFailure GoodsRecord
  | [id, some name, some location, some status, some storedAt, takenAt, some operatorName] =>
      match parseInt64 id with
      | none => .error (invalidData (lit "legacy goods id is invalid"))
      | some id => .ok
          { id := id, name := name, location := location, status := status, storedAt := storedAt
            takenAt := takenAt.getD [], operatorName := operatorName }
  | _ => .error (invalidData (lit "legacy goods row has an invalid shape"))

/-- What `findByUsername` makes of the rows it got. -/
def readUser : List SqlRow → Except PersistenceFailure (Option UserRecord)
  | [] => .ok none
  | [id, some username, some passwordHash, some role] :: _ =>
      match parseUint64 id with
      | none => .error (invalidData (lit "legacy user row has an invalid shape"))
      | some id => .ok (some
          { id := id, username := username, passwordHash := passwordHash, role := role })
  | _ => .error (invalidData (lit "legacy user row has an invalid shape"))

/-- What `findById` makes of the rows it got. -/
def readGoods : List SqlRow → Except PersistenceFailure (Option GoodsRecord)
  | [] => .ok none
  | row :: _ => (parseGoodsRecord row).map some

/-- What `countAdministrators` makes of the rows it got. -/
def readCount : List SqlRow → Option ℕ
  | [[cell]] => parseUint64 cell
  | _ => none

/-! ## Repositories -/

/-- Code of a unit of work. -/
abbrev LegacyProgram : Type → Type := SqlProgram LegacyStatement

/-- `MySqlLegacyUsers::findByUsername` -/
def findByUsername (username : Bytes) (forUpdate : Bool) :
    LegacyProgram (Except PersistenceFailure (Option UserRecord)) := do
  match ← execute (.findUser username forUpdate) with
  | .error e => return .error (mapFailure e)
  | .ok response => return readUser response.rows

/-- `MySqlLegacyUsers::updatePasswordHash` -/
def updatePasswordHash (userId : ℕ) (passwordHash : Bytes) :
    LegacyProgram (Except PersistenceFailure Unit) := do
  match ← execute (.updatePassword passwordHash userId) with
  | .error e => return .error (mapFailure e)
  | .ok response =>
      if response.affectedRows ≠ 1 then
        return .error (invalidData (lit "password update affected an unexpected number of rows"))
      else return .ok ()

/-- `MySqlLegacyUsers::countAdministrators` -/
def countAdministrators : LegacyProgram (Except PersistenceFailure ℕ) := do
  match ← execute .countAdministrators with
  | .error e => return .error (mapFailure e)
  | .ok response =>
      match readCount response.rows with
      | none => return .error (invalidData (lit "administrator count result is invalid"))
      | some count => return .ok count

/-- `MySqlLegacyUsers::createAdministrator` -/
def createAdministrator (username passwordHash : Bytes) :
    LegacyProgram (Except PersistenceFailure Unit) := do
  match ← execute (.insertAdministrator username passwordHash) with
  | .error e => return .error (mapFailure e)
  | .ok _ => return .ok ()

/-- `MySqlLegacyGoods::list` -/
def list (filter : GoodsFilter) : LegacyProgram (Except PersistenceFailure (List GoodsRecord)) := do
  match ← execute (.listGoods filter) with
  | .error e => return .error (mapFailure e)
  | .ok response => return response.rows.mapM parseGoodsRecord

/-- `MySqlLegacyGoods::findById` -/
def findById (goodsId : ℤ) : LegacyProgram (Except PersistenceFailure (Option GoodsRecord)) := do
  match ← execute (.selectGoods goodsId) with
  | .error e => return .error (mapFailure e)
  | .ok response => return readGoods response.rows

/-- `MySqlLegacyGoods::create` -/
def create (goods : NewGoods) : LegacyProgram (Except PersistenceFailure GoodsRecord) := do
  match ← execute (.insertGoods goods) with
  | .error e => return .error (mapFailure e)
  | .ok inserted =>
      -- the row is read back under the number that the insertion has drawn
      match ← findById (toInt64 inserted.lastInsertId) with
      | .error f => return .error f
      | .ok none => return .error (invalidData (lit "created goods row could not be read back"))
      | .ok (some record) => return .ok record

/-- `MySqlLegacyGoods::markTaken` -/
def markTaken (goodsId : ℤ) (operatorName : Bytes) :
    LegacyProgram (Except PersistenceFailure TakeGoodsOutcome) := do
  match ← execute (.takeGoods operatorName goodsId) with
  | .error e => return .error (mapFailure e)
  | .ok updated =>
      -- the update names the status it expects, so one row means that it was free
      if updated.affectedRows = 1 then return .ok .taken
      else
        match ← execute (.lockStatus goodsId) with
        | .error e => return .error (mapFailure e)
        | .ok status =>
            if status.rows.isEmpty then return .ok .notFound else return .ok .alreadyTaken

/-- The repositories as the implementation of their interfaces. -/
def performRepository :
    (call : RepositoryCall) → LegacyProgram (Except PersistenceFailure call.Value)
  | .findByUsername username forUpdate => findByUsername username forUpdate
  | .updatePasswordHash userId passwordHash => updatePasswordHash userId passwordHash
  | .countAdministrators => countAdministrators
  | .createAdministrator username passwordHash => createAdministrator username passwordHash
  | .list filter => list filter
  | .create goods => create goods
  | .findById goodsId => findById goodsId
  | .markTaken goodsId operatorName => markTaken goodsId operatorName

/-- The statements that a repository may send for a call. -/
inductive RepositoryCall.Sends : RepositoryCall → LegacyStatement → Prop
  | findUser (username : Bytes) (forUpdate : Bool) :
      Sends (.findByUsername username forUpdate) (.findUser username forUpdate)
  | updatePassword (userId : ℕ) (hash : Bytes) :
      Sends (.updatePasswordHash userId hash) (.updatePassword hash userId)
  | countAdministrators : Sends .countAdministrators .countAdministrators
  | insertAdministrator (username hash : Bytes) :
      Sends (.createAdministrator username hash) (.insertAdministrator username hash)
  | listGoods (filter : GoodsFilter) : Sends (.list filter) (.listGoods filter)
  | insertGoods (goods : NewGoods) : Sends (.create goods) (.insertGoods goods)
  | readBack (goods : NewGoods) (goodsId : ℤ) : Sends (.create goods) (.selectGoods goodsId)
  | selectGoods (goodsId : ℤ) : Sends (.findById goodsId) (.selectGoods goodsId)
  | takeGoods (goodsId : ℤ) (operatorName : Bytes) :
      Sends (.markTaken goodsId operatorName) (.takeGoods operatorName goodsId)
  | lockStatus (goodsId : ℤ) (operatorName : Bytes) :
      Sends (.markTaken goodsId operatorName) (.lockStatus goodsId)

section Emits

open Program

variable {P : ExecutorCall LegacyStatement → Prop} {α : Type}

theorem emits_execute {statement : LegacyStatement} {next : SqlResult → LegacyProgram α}
    (hstatement : P (.execute statement)) (hnext : ∀ answer, (next answer).Emits P) :
    (execute statement >>= next).Emits P := ⟨hstatement, hnext⟩

theorem emits_findById {goodsId : ℤ} (hselect : P (.execute (.selectGoods goodsId))) :
    (findById goodsId).Emits P := by
  apply emits_execute hselect
  intro found
  cases found <;> trivial

/-- A repository sends nothing but its statements. -/
theorem emits_performRepository {call : RepositoryCall}
    (h : ∀ statement, RepositoryCall.Sends call statement → P (.execute statement)) :
    (performRepository call).Emits P := by
  cases call with
  | findByUsername username forUpdate =>
      apply emits_execute (h _ (.findUser username forUpdate))
      intro found
      cases found <;> trivial
  | updatePasswordHash userId passwordHash =>
      apply emits_execute (h _ (.updatePassword userId passwordHash))
      intro updated
      cases updated with
      | error e => trivial
      | ok response =>
          show (ite (response.affectedRows ≠ 1) _ _ : LegacyProgram _).Emits P
          split <;> trivial
  | countAdministrators =>
      apply emits_execute (h _ .countAdministrators)
      intro counted
      cases counted with
      | error e => trivial
      | ok response =>
          dsimp only
          split <;> trivial
  | createAdministrator username passwordHash =>
      apply emits_execute (h _ (.insertAdministrator username passwordHash))
      intro inserted
      cases inserted <;> trivial
  | list filter =>
      apply emits_execute (h _ (.listGoods filter))
      intro listed
      cases listed <;> trivial
  | create goods =>
      apply emits_execute (h _ (.insertGoods goods))
      intro inserted
      cases inserted with
      | error e => trivial
      | ok response =>
          apply emits_bind (emits_findById (h _ (.readBack goods _)))
          intro found
          rcases found with f | _ | record <;> trivial
  | findById goodsId => exact emits_findById (h _ (.selectGoods goodsId))
  | markTaken goodsId operatorName =>
      apply emits_execute (h _ (.takeGoods goodsId operatorName))
      intro updated
      cases updated with
      | error e => trivial
      | ok response =>
          show (ite (response.affectedRows = 1) _ _ : LegacyProgram _).Emits P
          split
          · trivial
          · apply emits_execute (h _ (.lockStatus goodsId operatorName))
            intro status
            cases status with
            | error e => trivial
            | ok status =>
                show (ite (status.rows.isEmpty = true) _ _ : LegacyProgram _).Emits P
                split <;> trivial

end Emits

/-! ## The unit of work -/

/-- A call on a `MySqlLegacyUnitOfWork`, by its transaction. -/
def performUnit : Handler UnitCall UnitCall.Answer (ExecutorCall LegacyStatement)
    ExecutorCall.Answer Transaction
  | .repository call, t => do
      let answer ← performRepository call
      return (answer, t)
  | .commit, t => t.commit
  | .rollback, t => do
      let t ← t.rollback
      return ((), t)

/-- What `begin` makes of a transaction that did not start. -/
def beginFailure (f : WorkUnitFailure) : PersistenceFailure where
  code := .connection
  retryable := f.retryable
  message := f.message

/-- `MySqlLegacyUnitOfWorkFactory::begin`, with what `acquire` returned.  If the transaction does
not start, the lease goes out of scope here. -/
def beginUnitOfWork (lease : Except SqlError Unit) (mode : WorkUnitMode) :
    LegacyProgram (Except PersistenceFailure Transaction) :=
  match lease with
  | .error e => return .error (mapFailure e)
  | .ok () => do
      match ← Transaction.begin mode with
      | .error f => return .error (beginFailure f)
      | .ok t => do
          -- the source of the move into the unit
          Transaction.movedFrom.destroy
          return .ok t

/-- A client of the pool: it begins a unit of work, does with it whatever it likes, and destroys
it.  The lease is given back after that. -/
def unitClient {α : Type} (lease : Except SqlError Unit) (mode : WorkUnitMode)
    (use : Program UnitCall UnitCall.Answer α) : LegacyProgram (Except PersistenceFailure α) := do
  match ← beginUnitOfWork lease mode with
  | .error f => return .error f
  | .ok t => do
      let (result, t) ← use.interpret performUnit t
      t.destroy
      return .ok result

end Warehouse.Mysql
