/-
# Warehouse.Bootstrap.UsersTable — what the statements of the check do to `users`

The table of `001_users.apply.sql` as the server keeps it: the rows by their id, and the unique
index, which points from a user name to the id that has it.  Texts are compared by a collation,
which is a parameter; the table is created with the default one of its character set, to which
`admin` and `Admin` are the same role.
-/
import Warehouse.Bootstrap.LegacyStartup
import Warehouse.Mysql.LoneSession

namespace Warehouse.Bootstrap

open Warehouse.Interaction Warehouse.Mysql

/-! ## The table -/

/-- A row of `users`, without its id. -/
structure UserRow where
  username : Bytes
  password : Bytes
  role : Bytes
  deriving DecidableEq

/-- The weights by which texts are compared: those with the same weights are equal to the server. -/
abbrev Collation : Type := Bytes → Bytes

/-- The keys of the table: ids, and the user names of the unique index. -/
inductive UserKey
  | row (id : ℤ)
  | name (weights : Bytes)
  deriving DecidableEq

/-- What is stored under a key: a row, or the id that an entry of the index points to. -/
inductive UserEntry
  | user (row : UserRow)
  | holder (id : ℤ)
  deriving DecidableEq

/-- What a session sees of the table and its index. -/
abbrev UserEntries : Type := UserKey → Option UserEntry

/-- The row with an id. -/
def UserEntries.user (entries : UserEntries) (id : ℤ) : Option UserRow :=
  match entries (.row id) with
  | some (.user row) => some row
  | _ => none

/-- `role='admin'` -/
def UserRow.isAdministrator (collation : Collation) (row : UserRow) : Prop :=
  collation row.role = collation (lit "admin")

instance (collation : Collation) (row : UserRow) : Decidable (row.isAdministrator collation) :=
  inferInstanceAs (Decidable (_ = _))

/-! ## The statements -/

/-- The entries that an update or an insert writes: the row, and for a new row the index. -/
def writeUser (id : ℤ) (row : UserRow) : UserEntries :=
  fun key => if key = .row id then some (.user row) else none

/-- A new row with its entry in the index. -/
def insertUser (collation : Collation) (id : ℤ) (row : UserRow) : UserEntries :=
  fun key => if key = .name (collation row.username) then some (.holder id)
    else writeUser id row key

/-- The row that the insertion of an administrator adds. -/
def administratorRow (username hash : Bytes) : UserRow := ⟨username, hash, lit "admin"⟩

/-- The statements of the check, executed: `FOR UPDATE` locks the rows that it returns, an update
that changes nothing affects no row, and a new row has an id and a name that nobody has. -/
def usersMeaning (collation : Collation) : Meaning StartupStatement UserKey UserEntry
  | .scanPasswords, view, counter, response, writes, locks, counter' =>
      (writes = fun _ => none) ∧ counter' = counter ∧ ∃ ids : List ℤ,
        ids.Nodup ∧ (∀ id, id ∈ ids ↔ UserEntries.user view id ≠ none) ∧
        response.rows = ids.map (fun id =>
          [some (toDecimalInt id), (UserEntries.user view id).map UserRow.password]) ∧
        locks = fun key => ∃ id ∈ ids, key = .row id
  | .updatePassword hash userId, view, counter, response, writes, locks, counter' =>
      counter' = counter ∧
        match UserEntries.user view userId with
        | none => (writes = fun _ => none) ∧ (locks = fun _ => False) ∧ response.affectedRows = 0
        | some row =>
            writes = writeUser userId { row with password := hash } ∧
            (locks = fun key => key = .row userId) ∧
            response.affectedRows = if row.password = hash then 0 else 1
  | .countAdministrators, view, counter, response, writes, locks, counter' =>
      (writes = fun _ => none) ∧ (locks = fun _ => False) ∧ counter' = counter ∧ ∃ ids : List ℤ,
        ids.Nodup ∧
        (∀ id, id ∈ ids ↔ ∃ row, UserEntries.user view id = some row ∧
          row.isAdministrator collation) ∧
        response.rows = [[some (toDecimal ids.length)]]
  | .insertAdministrator username hash, view, counter, response, writes, locks, counter' =>
      ∃ id : ℕ, counter ≤ id ∧ counter' = id + 1 ∧
        view (.row id) = none ∧ view (.name (collation username)) = none ∧
        writes = insertUser collation id (administratorRow username hash) ∧
        (locks = fun _ => False) ∧ response.affectedRows = 1 ∧ response.lastInsertId = id

/-! ## The rows after a statement -/

variable {collation : Collation} {view writes : UserEntries} {id : ℤ} {row : UserRow}

/-- Entries of the table under those that a statement has written. -/
def UserEntries.over (writes view : UserEntries) : UserEntries := fun key => (writes key).or (view key)

theorem user_over_nothing : UserEntries.user (UserEntries.over (fun _ => none) view) = view.user := rfl

/-- Only the row of one id is written. -/
theorem user_over (hrow : writes (.row id) = some (.user row))
    (hothers : ∀ other, other ≠ id → writes (.row other) = none) :
    (writes.over view).user = Function.update view.user id (some row) := by
  funext other
  by_cases hid : other = id
  · subst hid
    simp [UserEntries.user, UserEntries.over, hrow]
  · rw [Function.update_of_ne hid]
    simp [UserEntries.user, UserEntries.over, hothers other hid]

theorem user_over_writeUser :
    ((writeUser id row).over view).user = Function.update view.user id (some row) := by
  apply user_over
  · simp [writeUser]
  · intro other hother
    simp [writeUser, hother]

theorem user_over_insertUser :
    ((insertUser collation id row).over view).user = Function.update view.user id (some row) := by
  apply user_over
  · simp [insertUser, writeUser]
  · intro other hother
    simp [insertUser, writeUser, hother]

theorem user_eq_none (h : view (.row id) = none) : view.user id = none := by
  simp [UserEntries.user, h]

/-- An id that the check reads is the id of the row. -/
theorem eq_of_parseId {userId : ℕ} (h : parseId (some (toDecimalInt id)) = some userId) :
    id = userId :=
  parseUnsigned_toDecimalInt h

/-- A count that is read is the number of administrators. -/
theorem readAdministratorCount_toDecimal {n count : ℕ}
    (h : readAdministratorCount [[some (toDecimal n)]] = some count) : n = count := by
  have hvalue : (n : ℤ) = count := @parseUnsigned_toDecimalInt (2 ^ 64) count n h
  omega

end Warehouse.Bootstrap
