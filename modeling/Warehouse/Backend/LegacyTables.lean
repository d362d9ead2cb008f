/-
# Warehouse.Backend.LegacyTables — what the statements of the service do to `users` and `goods`

The tables of `0001_legacy_baseline`, and each text of `legacy_unit_of_work.cpp` as the server
executes it: plain reads see the committed rows under the writes of their own transaction, a row
that is written or read `FOR UPDATE` is locked until the transaction ends.  How the server compares
texts, and which names a pattern matches, are parameters.
-/
import Warehouse.Application.WarehouseService
import Warehouse.Bootstrap.UsersTable

namespace Warehouse.Backend

open Warehouse.Interaction Warehouse.Mysql Warehouse.Bootstrap

/-! ## The tables -/

/-- A row of `goods`, without its id.  Times are the texts that `DATE_FORMAT` makes of them. -/
structure GoodsRow where
  name : Bytes
  location : Bytes
  status : Bytes
  storedAt : Bytes
  takenAt : Option Bytes
  operatorName : Bytes
  deriving DecidableEq

/-- The keys of both tables. -/
inductive LegacyKey
  | goods (id : ℤ)
  | users (key : UserKey)
  deriving DecidableEq

/-- What is stored under a key. -/
inductive LegacyRecord
  | goods (row : GoodsRow)
  | users (entry : UserEntry)
  deriving DecidableEq

/-- What a session sees of both tables. -/
abbrev LegacyRows : Type := LegacyKey → Option LegacyRecord

/-- The goods with an id. -/
def LegacyRows.goods (rows : LegacyRows) (id : ℤ) : Option GoodsRow :=
  match rows (.goods id) with
  | some (.goods row) => some row
  | _ => none

/-- The users table. -/
def LegacyRows.users (rows : LegacyRows) : UserEntries := fun key =>
  match rows (.users key) with
  | some (.users entry) => some entry
  | _ => none

/-- How the server compares texts, and what `LOWER(name) LIKE CONCAT('%',?,'%')` says of a pattern
and a name. -/
structure Dialect where
  collation : Collation
  like : Bytes → Bytes → Bool

/-- Texts are compared byte by byte, and every name matches. -/
def byteDialect : Dialect where
  collation text := text
  like _ _ := true

/-- `status<>'taken'`, negated. -/
def Dialect.isTaken (dialect : Dialect) (row : GoodsRow) : Prop :=
  dialect.collation row.status = dialect.collation (lit "taken")

instance (dialect : Dialect) (row : GoodsRow) : Decidable (dialect.isTaken row) :=
  inferInstanceAs (Decidable (_ = _))

/-- The `WHERE` clause of a list. -/
def Dialect.selects (dialect : Dialect) (filter : GoodsFilter) (row : GoodsRow) : Prop :=
  (filter.name ≠ [] → dialect.like filter.name row.name = true) ∧
    (filter.status ≠ [] → dialect.collation row.status = dialect.collation filter.status)

/-- The largest value of an `INT` column. -/
def intMax : ℕ := 2 ^ 31 - 1

/-- The cells of a row of goods, as the service selects them. -/
def GoodsRow.cells (id : ℤ) (row : GoodsRow) : SqlRow :=
  [some (toDecimalInt id), some row.name, some row.location, some row.status, some row.storedAt,
    row.takenAt, some row.operatorName]

/-- The cells of a row of users. -/
def userCells (id : ℤ) (row : UserRow) : SqlRow :=
  [some (toDecimalInt id), some row.username, some row.password, some row.role]

/-! ## The statements -/

/-- One row of goods is written. -/
def writeGoods (id : ℤ) (row : GoodsRow) : LegacyRows :=
  fun key => if key = .goods id then some (.goods row) else none

/-- Nothing is written or locked, and no number is drawn. -/
def Untouched (counter : ℕ) (writes : LegacyRows) (locks : LegacyKey → Prop) (counter' : ℕ) :
    Prop :=
  (writes = fun _ => none) ∧ (locks = fun _ => False) ∧ counter' = counter

/-- What a statement on `users` does, for the service that also has `goods`. -/
def onUsers (statement : StartupStatement) (dialect : Dialect) (view : LegacyRows) (counter : ℕ)
    (response : SqlResponse) (writes : LegacyRows) (locks : LegacyKey → Prop) (counter' : ℕ) :
    Prop :=
  ∃ userWrites userLocks,
    usersMeaning dialect.collation statement view.users counter response userWrites userLocks
      counter' ∧
    (writes = fun key => match key with
      | .goods _ => none
      | .users key => (userWrites key).map .users) ∧
    locks = fun key => match key with
      | .goods _ => False
      | .users key => userLocks key

/-- New goods, as they are stored. -/
def storedGoods (goods : NewGoods) (storedAt : Bytes) : GoodsRow where
  name := goods.name
  location := goods.location
  status := lit "stored"
  storedAt := storedAt
  takenAt := none
  operatorName := goods.operatorName

/-- Goods that somebody takes. -/
def GoodsRow.take (row : GoodsRow) (takenAt operatorName : Bytes) : GoodsRow :=
  { row with status := lit "taken", takenAt := some takenAt, operatorName := operatorName }

/-- The statements of the service, executed. -/
def legacyMeaning (dialect : Dialect) : Meaning LegacyStatement LegacyKey LegacyRecord
  | .findUser username forUpdate, view, counter, response, writes, locks, counter' =>
      (writes = fun _ => none) ∧ counter' = counter ∧
        ((∃ id row, UserEntries.user (LegacyRows.users view) id = some row ∧
            dialect.collation row.username = dialect.collation username ∧
            response.rows = [userCells id row] ∧
            locks = fun key => forUpdate = true ∧ key = .users (.row id)) ∨
          ((∀ id row, UserEntries.user (LegacyRows.users view) id = some row →
              dialect.collation row.username ≠ dialect.collation username) ∧
            response.rows = [] ∧ locks = fun _ => False))
  | .updatePassword hash userId, view, counter, response, writes, locks, counter' =>
      onUsers (.updatePassword hash userId) dialect view counter response writes locks counter'
  | .countAdministrators, view, counter, response, writes, locks, counter' =>
      onUsers .countAdministrators dialect view counter response writes locks counter'
  | .insertAdministrator username hash, view, counter, response, writes, locks, counter' =>
      onUsers (.insertAdministrator username hash) dialect view counter response writes locks
        counter'
  | .listGoods filter, view, counter, response, writes, locks, counter' =>
      Untouched counter writes locks counter' ∧ ∃ ids : List ℤ, ids.Pairwise (· < ·) ∧
        (∀ id, id ∈ ids ↔ ∃ row, LegacyRows.goods view id = some row ∧ dialect.selects filter row) ∧
        response.rows =
          ids.filterMap fun id => (LegacyRows.goods view id).map (GoodsRow.cells id)
  | .insertGoods goods, view, counter, response, writes, locks, counter' =>
      ∃ (id : ℕ) (storedAt : Bytes), 0 < id ∧ id ≤ intMax ∧ view (.goods id) = none ∧
        writes = writeGoods id (storedGoods goods storedAt) ∧ (locks = fun _ => False) ∧
        counter' = counter ∧ response.affectedRows = 1 ∧ response.lastInsertId = id
  | .selectGoods id, view, counter, response, writes, locks, counter' =>
      Untouched counter writes locks counter' ∧
        response.rows = ((LegacyRows.goods view id).map (GoodsRow.cells id)).toList
  | .takeGoods operatorName id, view, counter, response, writes, locks, counter' =>
      counter' = counter ∧
        ((∃ row takenAt, LegacyRows.goods view id = some row ∧ ¬ dialect.isTaken row ∧
            writes = writeGoods id (row.take takenAt operatorName) ∧
            (locks = fun key => key = .goods id) ∧ response.affectedRows = 1) ∨
          ((∀ row, LegacyRows.goods view id = some row → dialect.isTaken row) ∧
            (writes = fun _ => none) ∧ (locks = fun _ => False) ∧ response.affectedRows = 0))
  | .lockStatus id, view, counter, response, writes, locks, counter' =>
      (writes = fun _ => none) ∧ counter' = counter ∧
        response.rows = ((LegacyRows.goods view id).map fun row => [some row.status]).toList ∧
        locks = fun key => key = .goods id ∧ LegacyRows.goods view id ≠ none

/-! ## What is written to goods -/

/-- Rows under those that a statement has written. -/
def LegacyRows.over (writes view : LegacyRows) : LegacyRows := fun key => (writes key).or (view key)

variable {dialect : Dialect} {view writes : LegacyRows} {counter counter' : ℕ}
  {response : SqlResponse} {locks : LegacyKey → Prop} {id : ℤ}

theorem goods_over_writeGoods {row : GoodsRow} :
    ((writeGoods id row).over view).goods = Function.update view.goods id (some row) := by
  funext other
  by_cases hid : other = id
  · subst hid
    simp [LegacyRows.goods, LegacyRows.over, writeGoods]
  · rw [Function.update_of_ne hid]
    simp [LegacyRows.goods, LegacyRows.over, writeGoods, hid]

/-- A statement on users writes what it would write to that table alone. -/
theorem users_over_onUsers {statement : StartupStatement}
    (h : onUsers statement dialect view counter response writes locks counter') :
    ∃ userWrites userLocks,
      usersMeaning dialect.collation statement view.users counter response userWrites userLocks
        counter' ∧
      (writes.over view).users = UserEntries.over userWrites view.users := by
  obtain ⟨userWrites, userLocks, hmeaning, rfl, -⟩ := h
  refine ⟨userWrites, userLocks, hmeaning, funext fun key => ?_⟩
  cases hwritten : userWrites key with
  | none => simp [LegacyRows.users, LegacyRows.over, UserEntries.over, hwritten]
  | some entry => simp [LegacyRows.users, LegacyRows.over, UserEntries.over, hwritten]

/-- A row of goods is written by an insertion, or by somebody who takes goods that are not taken. -/
theorem goods_written {statement : LegacyStatement} {record : LegacyRecord}
    (h : legacyMeaning dialect statement view counter response writes locks counter')
    (hwrite : writes (.goods id) = some record) :
    (∃ goods storedAt, statement = .insertGoods goods ∧ view (.goods id) = none ∧
      record = .goods (storedGoods goods storedAt) ∧ response.lastInsertId = id) ∨
    (∃ operatorName row takenAt, statement = .takeGoods operatorName id ∧
      view.goods id = some row ∧ ¬ dialect.isTaken row ∧
      record = .goods (row.take takenAt operatorName) ∧ response.affectedRows = 1) := by
  have husers : ∀ {statement},
      onUsers statement dialect view counter response writes locks counter' → False := by
    intro statement hmeaning
    obtain ⟨userWrites, userLocks, -, rfl, -⟩ := hmeaning
    cases hwrite
  cases statement with
  | findUser username forUpdate =>
      obtain ⟨rfl, -⟩ := h
      cases hwrite
  | updatePassword => exact (husers h).elim
  | countAdministrators => exact (husers h).elim
  | insertAdministrator => exact (husers h).elim
  | listGoods filter =>
      obtain ⟨⟨rfl, -⟩, -⟩ := h
      cases hwrite
  | selectGoods goodsId =>
      obtain ⟨⟨rfl, -⟩, -⟩ := h
      cases hwrite
  | lockStatus goodsId =>
      obtain ⟨rfl, -⟩ := h
      cases hwrite
  | insertGoods goods =>
      obtain ⟨newId, storedAt, -, -, hfresh, rfl, -, -, -, hlast⟩ := h
      have hid : id = newId := by
        by_contra hne
        simp [writeGoods, hne] at hwrite
      subst hid
      left
      refine ⟨goods, storedAt, rfl, hfresh, ?_, by rw [hlast]⟩
      simpa [writeGoods] using hwrite.symm
  | takeGoods operatorName goodsId =>
      obtain ⟨-, ⟨row, takenAt, hrow, hfree, rfl, -, haffected⟩ | ⟨-, rfl, -⟩⟩ := h
      · have hid : id = goodsId := by
          by_contra hne
          simp [writeGoods, hne] at hwrite
        subst hid
        right
        refine ⟨operatorName, row, takenAt, rfl, hrow, hfree, ?_, haffected⟩
        simpa [writeGoods] using hwrite.symm
      · cases hwrite

/-- The same of an execution at the server. -/
theorem goods_performed {e : Entry (ExecutorCall LegacyStatement) ExecutorCall.Answer LegacyKey
    LegacyRecord} {record : LegacyRecord}
    (h : RowStore.Performed (legacyMeaning dialect).server e)
    (hwrite : e.writes (.goods id) = some record) :
    (∃ goods storedAt, e.event.1 = .execute (.insertGoods goods) ∧ e.view (.goods id) = none ∧
      record = .goods (storedGoods goods storedAt)) ∨
    (∃ operatorName row takenAt, e.event.1 = .execute (.takeGoods operatorName id) ∧
      LegacyRows.goods e.view id = some row ∧ ¬ dialect.isTaken row ∧
      record = .goods (row.take takenAt operatorName)) := by
  obtain ⟨client, ⟨call, answer⟩, view, writes⟩ := e
  obtain ⟨counter, locks, counter', hperform⟩ := h
  cases call with
  | control statement => exact hperform.elim
  | poison => exact hperform.elim
  | execute statement =>
      obtain ⟨response, -, hmeaning⟩ := hperform
      rcases goods_written hmeaning hwrite with
        ⟨goods, storedAt, rfl, hfresh, hrecord, -⟩ | ⟨operatorName, row, takenAt, rfl, hrow, hfree,
          hrecord, -⟩
      · exact Or.inl ⟨goods, storedAt, rfl, hfresh, hrecord⟩
      · exact Or.inr ⟨operatorName, row, takenAt, rfl, hrow, hfree, hrecord⟩

/-! ## What is read of goods -/

/-- A row of goods, as the service reads it. -/
def GoodsRow.record (id : ℤ) (row : GoodsRow) : GoodsRecord where
  id := id
  name := row.name
  location := row.location
  status := row.status
  storedAt := row.storedAt
  takenAt := row.takenAt.getD []
  operatorName := row.operatorName

/-- The service reads the cells of a row as that row. -/
theorem parseGoodsRecord_cells {number : ℕ} (h : number ≤ int64Max) (row : GoodsRow) :
    parseGoodsRecord (row.cells number) = .ok (row.record number) := by
  have hid : parseInt64 (some (toDecimalInt number)) = some (number : ℤ) :=
    parseSigned_toDecimalInt h
  simp only [GoodsRow.cells, parseGoodsRecord, hid]
  rfl

/-- The number of a new row survives the cast to a signed one. -/
theorem toInt64_of_le {number : ℕ} (h : number ≤ intMax) : toInt64 number = number := by
  have hsmall : number < 2 ^ 31 := by
    unfold intMax at h
    omega
  unfold toInt64
  rw [Int.bmod_eq_of_le] <;> omega

/-- What `findById` makes of a truthful answer. -/
theorem readGoods_cells {number : ℕ} (h : number ≤ int64Max) (row : Option GoodsRow) :
    readGoods ((row.map (GoodsRow.cells number)).toList) =
      .ok (row.map (GoodsRow.record number)) := by
  cases row with
  | none => rfl
  | some row =>
      show (parseGoodsRecord (row.cells number)).map some = _
      rw [parseGoodsRecord_cells h]
      rfl

end Warehouse.Backend
