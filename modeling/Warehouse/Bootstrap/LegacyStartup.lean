/-
# Warehouse.Bootstrap.LegacyStartup — the password and administrator check

`legacy_startup.cpp`, with `classifyStoredPassword` and `hashPassword` of `password_hash.cpp`.
libsodium is a parameter: hashing draws a salt, so its result depends on which call it is.
-/
import Warehouse.Application.WarehouseService
import Warehouse.Mysql.LegacyUnitOfWork

namespace Warehouse.Bootstrap

open Warehouse.Interaction Warehouse.Mysql

/-! ## Password hashing -/

/-- libsodium, as far as passwords go. -/
structure Sodium where
  /-- `crypto_pwhash_str`, by the number of calls before it; `none` if it fails. -/
  str : ℕ → Bytes → Option Bytes
  /-- `crypto_pwhash_str_needs_rehash`, with the limits of the source. -/
  needsRehash : Bytes → ℤ

/-- `StoredPasswordKind` -/
inductive StoredPasswordKind
  | legacyPlaintext | passwordHash | invalidPasswordHash
  deriving DecidableEq, Repr

/-- `c_str()`: the text up to its first null byte. -/
def cString (value : Bytes) : Bytes := value.takeWhile fun c => c ≠ 0

/-- `looksLikeArgonHash` -/
def looksLikeArgonHash (value : Bytes) : Bool :=
  (lit "$argon2id$").isPrefixOf value || (lit "$argon2i$").isPrefixOf value

/-- `classifyStoredPassword` -/
def classifyStoredPassword (sodium : Sodium) (value : Bytes) : StoredPasswordKind :=
  if !looksLikeArgonHash value then .legacyPlaintext
  else if sodium.needsRehash (cString value) < 0 then .invalidPasswordHash
  else .passwordHash

/-- `hashPassword` -/
def hashPassword (sodium : Sodium) (calls : ℕ) (password : Bytes) : Except Bytes Bytes :=
  match sodium.str calls password with
  | none => .error (lit "password hashing failed")
  | some output => .ok (cString output)

/-- A libsodium that has the same hash for every password, to run the check with. -/
def oneHash : Sodium where
  str _ _ := some (lit "$argon2id$v=19$hash")
  needsRehash _ := 0

/-! ## Statements and results -/

/-- The places where the check sends a statement of its own. -/
inductive StartupStatement
  | scanPasswords
  | updatePassword (hash : Bytes) (userId : ℕ)
  | countAdministrators
  | insertAdministrator (username hash : Bytes)
  deriving DecidableEq

instance : SqlStatement StartupStatement where
  sql
    | .scanPasswords => lit "SELECT id,password FROM users FOR UPDATE"
    | .updatePassword .. => lit "UPDATE users SET password=? WHERE id=?"
    | .countAdministrators => lit "SELECT COUNT(*) FROM users WHERE role='admin'"
    | .insertAdministrator .. => lit "INSERT INTO users(username,password,role) VALUES(?,?,'admin')"
  parameters
    | .scanPasswords => some []
    | .updatePassword hash userId => some [.text hash, .uint64 userId]
    | .countAdministrators => some []
    | .insertAdministrator username hash => some [.text username, .text hash]

/-- `LegacyStartupConfiguration` -/
structure LegacyStartupConfiguration where
  initialAdministratorUsername : Option Bytes := none
  initialAdministratorPassword : Option Bytes := none
  migratePlaintextPasswords : Bool := false

/-- `normalizeUsername`, the same text as `normalizeField`. -/
def normalizeUsername (value : Bytes) : Bytes := normalizeField value

/-- `parseId` -/
def parseId (cell : SqlCell) : Option ℕ := parseUint64 cell

/-- The checks on the answer to the count of administrators. -/
def readAdministratorCount : List SqlRow → Option ℕ
  | [[cell]] => parseId cell
  | _ => none

/-- `StartupFailure`; its stage is `LegacyStartupCheck` throughout. -/
structure StartupFailure where
  code : Bytes
  message : Bytes
  deriving DecidableEq, Repr

/-- Code of the check that may return early; the transaction is still there to be destroyed. -/
abbrev Check : Type → Type := ExceptT (StartupFailure × Transaction) (SqlProgram StartupStatement)

/-- Roll back and fail. -/
def refuse {α : Type} (t : Transaction) (code message : Bytes) : Check α := do
  let t ← (t.rollback : SqlProgram StartupStatement Transaction)
  throw (⟨code, message⟩, t)

/-- A statement where a `return` is in reach. -/
def sendStatement (statement : StartupStatement) : Check SqlResult := liftM (execute statement)

/-! ## The check -/

/-- A plaintext password is replaced by its hash. -/
def migratePassword (sodium : Sodium) (configuration : LegacyStartupConfiguration)
    (t : Transaction) (calls : ℕ) (userId : ℕ) (stored : Bytes) : Check ℕ :=
  if !configuration.migratePlaintextPasswords then
    refuse t (lit "plaintext_passwords_present")
      (lit "legacy plaintext passwords require explicit migration authorization")
  else
    match hashPassword sodium calls stored with
    | .error hashingError => refuse t (lit "password_hash_failed") hashingError
    | .ok hash => do
        match ← sendStatement (.updatePassword hash userId) with
        | .error e => refuse t (lit "password_migration_failed") e.message
        | .ok updated =>
            -- an update that writes the value that was there affects no row
            if updated.affectedRows ≠ 1 then
              refuse t (lit "password_migration_failed")
                (lit "password migration affected an unexpected row count")
            else return calls + 1

/-- The body of the loop over the stored passwords; it counts the calls of `hashPassword`. -/
def checkRow (sodium : Sodium) (configuration : LegacyStartupConfiguration) (t : Transaction)
    (calls : ℕ) (row : SqlRow) : Check ℕ :=
  match row with
  | [id, some stored] =>
      match parseId id with
      | none => refuse t (lit "invalid_password_row") (lit "stored password row is invalid")
      | some userId =>
          match classifyStoredPassword sodium stored with
          | .invalidPasswordHash =>
              refuse t (lit "invalid_password_hash")
                (lit "an invalid Argon2 password hash is stored")
          | .legacyPlaintext => migratePassword sodium configuration t calls userId stored
          | .passwordHash => return calls
  | _ => refuse t (lit "invalid_password_row") (lit "stored password row is invalid")

/-- The initial administrator, if there is no administrator. -/
def createInitialAdministrator (sodium : Sodium) (configuration : LegacyStartupConfiguration)
    (t : Transaction) (calls : ℕ) : Check Unit :=
  match configuration.initialAdministratorUsername, configuration.initialAdministratorPassword with
  | some username, some password =>
      let username := normalizeUsername username
      if username.isEmpty || username.length > 64 || password.length < 12 ||
          password.length > 128 then
        refuse t (lit "invalid_initial_administrator")
          (lit "initial administrator credentials do not meet length requirements")
      else
        match hashPassword sodium calls password with
        | .error hashingError => refuse t (lit "administrator_password_hash_failed") hashingError
        | .ok hash => do
            match ← sendStatement (.insertAdministrator username hash) with
            | .error e => refuse t (lit "administrator_create_failed") e.message
            | .ok _ => return ()
  | _, _ => refuse t (lit "initial_administrator_required")
      (lit "initial administrator credentials are required")

/-- The administrator part of the check. -/
def checkAdministrators (sodium : Sodium) (configuration : LegacyStartupConfiguration)
    (t : Transaction) (calls : ℕ) (adminCount : SqlResponse) : Check Unit :=
  match readAdministratorCount adminCount.rows with
  | none => refuse t (lit "administrator_check_failed")
      (lit "administrator count result is invalid")
  | some count =>
      if count = 0 then createInitialAdministrator sodium configuration t calls else return ()

/-- Everything between the start of the transaction and its commit. -/
def checkUsers (sodium : Sodium) (configuration : LegacyStartupConfiguration) (t : Transaction) :
    Check Unit := do
  match ← sendStatement .scanPasswords with
  | .error e => refuse t (lit "password_scan_failed") e.message
  | .ok passwords =>
      -- all passwords come first, the administrators are counted behind them
      let calls ← passwords.rows.foldlM (checkRow sodium configuration t) 0
      match ← sendStatement .countAdministrators with
      | .error e => refuse t (lit "administrator_check_failed") e.message
      | .ok adminCount => checkAdministrators sodium configuration t calls adminCount

/-- `runLegacyStartupChecks`, with what `acquire` returned; the lease goes out of scope at the end,
after the transaction. -/
def runLegacyStartupChecks (sodium : Sodium) (configuration : LegacyStartupConfiguration)
    (lease : Except SqlError Unit) : SqlProgram StartupStatement (Except StartupFailure Unit) :=
  match lease with
  | .error e => return .error ⟨lit "database_unavailable", e.message⟩
  | .ok () => do
      match ← Transaction.begin .command with
      | .error f => return .error ⟨lit "transaction_start_failed", f.message⟩
      | .ok t => do
          match ← (checkUsers sodium configuration t).run with
          | .error (f, t) => do
              t.destroy
              return .error f
          | .ok () => do
              let (committed, t) ← t.commit
              t.destroy
              match committed with
              | .error f => return .error ⟨lit "legacy_startup_commit_failed", f.message⟩
              | .ok () => return .ok ()

end Warehouse.Bootstrap
