/-
# Warehouse.Application.WarehouseService — the four use cases

`legacy_warehouse_service.cpp`, function by function.  A use case begins at most one unit of work,
so its body between `begin` and the end of the scope is handed to `withUnit`, which ends with the
unit's destructor.
-/
import Warehouse.Application.UnitOfWork

namespace Warehouse

open Warehouse.Interaction

/-! ## Commands and views -/

/-- `LoginCommand` -/
structure LoginCommand where
  username : Bytes
  password : Bytes

/-- `LoginView` -/
structure LoginView where
  token : Bytes
  role : Bytes
  username : Bytes
  deriving DecidableEq

/-- `ListGoodsQuery`, with the value of its `AuthToken`. -/
structure ListGoodsQuery where
  auth : Bytes
  name : Bytes
  status : Bytes

/-- `CreateGoodsCommand`, with the value of its `AuthToken`. -/
structure CreateGoodsCommand where
  auth : Bytes
  name : Bytes
  location : Bytes

/-- `TakeGoodsCommand`, with the value of its `AuthToken`. -/
structure TakeGoodsCommand where
  auth : Bytes
  suppliedId : Bytes

/-- `GoodsView` -/
structure GoodsView where
  numericId : ℤ := 0
  name : Bytes := []
  location : Bytes := []
  status : Bytes := []
  storedAt : Bytes := []
  takenAt : Bytes := []
  operatorName : Bytes := []
  deriving DecidableEq

/-- `LegacyApplicationErrorCode` -/
inductive LegacyApplicationErrorCode
  | invalidLoginInput | invalidCredentials | unauthenticated | forbidden | invalidGoodsName
  | invalidGoodsId | persistenceReadFailed | passwordUpgradeFailed | persistenceCreateFailed
  | persistenceTakeFailed | goodsNotFound | goodsAlreadyTaken
  deriving DecidableEq, Repr

/-! ## Fields -/

/-- `normalizeField`: tabulators and line ends become spaces, and the space at both ends goes.
`first` and `last` are the two iterators, as distances from `begin()`. -/
def normalizeField (value : Bytes) : Bytes :=
  let value := value.map fun c => if c = 9 || c = 13 || c = 10 then 32 else c
  let first := value.findIdx fun c => !isspace c
  let last := value.length - value.reverse.findIdx fun c => !isspace c
  if first < last then (value.drop first).take (last - first) else []

/-- `lowercaseAscii` -/
def lowercaseAscii (value : Bytes) : Bytes := value.map tolower

/-- The largest `std::int64_t`. -/
def int64Max : ℕ := 2 ^ 63 - 1

/-- One digit of the loop in `parseGoodsId`; nothing if the value would not fit. -/
def parseGoodsDigit (value : ℕ) (character : UInt8) : Option ℕ :=
  let digit := character.toNat - 48
  if value > (int64Max - digit) / 10 then none else some (value * 10 + digit)

/-- `parseGoodsId` -/
def parseGoodsId (supplied : Bytes) : Option ℤ := do
  let supplied := if supplied.head? = some 71 || supplied.head? = some 103 then supplied.tail
    else supplied
  if supplied.isEmpty || !supplied.all isdigit then none
  else
    let value ← supplied.foldlM parseGoodsDigit 0
    if value = 0 then none else some value

/-- `canWrite` -/
def canWrite (principal : LegacyPrincipal) : Bool :=
  principal.role = lit "manager" || principal.role = lit "admin"

/-- `toView` -/
def toView (record : GoodsRecord) : GoodsView where
  numericId := record.id
  name := record.name
  location := record.location
  status := record.status
  storedAt := record.storedAt
  takenAt := record.takenAt
  operatorName := record.operatorName

/-- The location of goods that come without one. -/
def defaultLocation : Bytes := lit "默认货架"

/-! ## Use cases -/

/-- What a use case returns: a value, or the code of a `LegacyApplicationError`. -/
abbrev Outcome (α : Type) : Type := Except LegacyApplicationErrorCode α

/-- Roll back and fail. -/
def abandon {α : Type} (code : LegacyApplicationErrorCode) : ServiceProgram (Outcome α) := do
  rollbackUnit
  return .error code

/-- Commit, and go on if that succeeded. -/
def conclude {α : Type} (code : LegacyApplicationErrorCode) (next : ServiceProgram (Outcome α)) :
    ServiceProgram (Outcome α) := do
  match ← commitUnit with
  | .error _ => return .error code
  | .ok _ => next

/-- The scope of a unit of work. -/
def withUnit {α : Type} (mode : WorkUnitMode) (code : LegacyApplicationErrorCode)
    (body : ServiceProgram (Outcome α)) : ServiceProgram (Outcome α) := do
  match ← beginUnit mode with
  | .error _ => return .error code
  | .ok _ =>
      let result ← body
      destroyUnit
      return result

/-- The principal that a token stands for, if there is one. -/
def authenticated {α : Type} (token : Bytes)
    (next : LegacyPrincipal → ServiceProgram (Outcome α)) : ServiceProgram (Outcome α) := do
  match ← findSession token with
  | none => return .error .unauthenticated
  | some principal => next principal

/-- `authenticated`, for principals that may write. -/
def authorized {α : Type} (token : Bytes)
    (next : LegacyPrincipal → ServiceProgram (Outcome α)) : ServiceProgram (Outcome α) :=
  authenticated token fun principal =>
    if !canWrite principal then return .error .forbidden else next principal

/-- The end of `login`: commit, and open a session for the user. -/
def openSession (user : UserRecord) : ServiceProgram (Outcome LoginView) :=
  conclude .persistenceReadFailed do
    -- a session is opened only for a login that is committed
    let token ← createSession ⟨user.username, user.role⟩
    return .ok { token := token, role := user.role, username := user.username }

/-- `login` with a user whose password was verified. -/
def upgradePassword (command : LoginCommand) (user : UserRecord) :
    ServiceProgram (Outcome LoginView) := do
  if ← needsRehash user.passwordHash then
    match ← hashPassword command.password with
    | .error _ => abandon .passwordUpgradeFailed
    | .ok hash =>
        -- the new hash is part of the transaction that the login commits
        match ← repository (.updatePasswordHash user.id hash) with
        | .error _ => abandon .passwordUpgradeFailed
        | .ok _ => openSession user
  else openSession user

/-- `login` inside its unit of work. -/
def loginUnit (command : LoginCommand) : ServiceProgram (Outcome LoginView) := do
  match ← repository (.findByUsername command.username true) with
  | .error _ => abandon .persistenceReadFailed
  | .ok none => abandon .invalidCredentials
  | .ok (some user) =>
      if ← verifyPassword user.passwordHash command.password then
        upgradePassword command user
      else abandon .invalidCredentials

/-- `login` under its `PasswordClearGuard`. -/
def guardedLogin (command : LoginCommand) : ServiceProgram (Outcome LoginView) :=
  if command.username.isEmpty || command.password.isEmpty then return .error .invalidLoginInput
  else withUnit .command .persistenceReadFailed (loginUnit command)

/-- `LegacyWarehouseService::login`; the guard clears the password on every way out. -/
def login (command : LoginCommand) : ServiceProgram (Outcome LoginView) := do
  let result ← guardedLogin command
  clearPassword command.password
  return result

/-- `listGoods` inside its unit of work. -/
def listUnit (query : ListGoodsQuery) : ServiceProgram (Outcome (List GoodsView)) := do
  match ← repository (.list ⟨lowercaseAscii query.name, query.status⟩) with
  | .error _ => abandon .persistenceReadFailed
  | .ok rows => conclude .persistenceReadFailed (pure (.ok (rows.map toView)))

/-- `LegacyWarehouseService::listGoods` -/
def listGoods (query : ListGoodsQuery) : ServiceProgram (Outcome (List GoodsView)) :=
  authenticated query.auth fun _ =>
    withUnit .shortRead .persistenceReadFailed (listUnit query)

/-- `createGoods` inside its unit of work. -/
def createUnit (goods : NewGoods) : ServiceProgram (Outcome GoodsView) := do
  match ← repository (.create goods) with
  | .error _ => abandon .persistenceCreateFailed
  | .ok created => conclude .persistenceCreateFailed (pure (.ok (toView created)))

/-- `LegacyWarehouseService::createGoods` -/
def createGoods (command : CreateGoodsCommand) : ServiceProgram (Outcome GoodsView) :=
  authorized command.auth fun principal =>
    let name := normalizeField command.name
    let location := normalizeField command.location
    if name.isEmpty then return .error .invalidGoodsName
    else
      let location := if location.isEmpty then defaultLocation else location
      withUnit .command .persistenceCreateFailed (createUnit ⟨name, location, principal.username⟩)

/-- `takeGoods` inside its unit of work. -/
def takeUnit (goodsId : ℤ) (operatorName : Bytes) : ServiceProgram (Outcome GoodsView) := do
  match ← repository (.markTaken goodsId operatorName) with
  | .error _ => abandon .persistenceTakeFailed
  | .ok .notFound => abandon .goodsNotFound
  | .ok .alreadyTaken => abandon .goodsAlreadyTaken
  | .ok .taken =>
      -- the view is that of the row as it is now, inside the transaction
      match ← repository (.findById goodsId) with
      | .error _ => abandon .persistenceTakeFailed
      | .ok none => abandon .persistenceTakeFailed
      | .ok (some record) => conclude .persistenceTakeFailed (pure (.ok (toView record)))

/-- `LegacyWarehouseService::takeGoods` -/
def takeGoods (command : TakeGoodsCommand) : ServiceProgram (Outcome GoodsView) :=
  authorized command.auth fun principal =>
    match parseGoodsId command.suppliedId with
    | none => return .error .invalidGoodsId
    | some goodsId =>
        withUnit .command .persistenceTakeFailed (takeUnit goodsId principal.username)

/-! ## Requests -/

/-- A call of the `LegacyWarehouseApi`. -/
inductive Request
  | login (command : LoginCommand)
  | listGoods (query : ListGoodsQuery)
  | createGoods (command : CreateGoodsCommand)
  | takeGoods (command : TakeGoodsCommand)

/-- What a call returns if it succeeds. -/
abbrev Request.View : Request → Type
  | .login _ => LoginView
  | .listGoods _ => List GoodsView
  | .createGoods _ => GoodsView
  | .takeGoods _ => GoodsView

/-- The use case of a request. -/
def Request.run : (request : Request) → ServiceProgram (Outcome request.View)
  | .login command => Warehouse.login command
  | .listGoods query => Warehouse.listGoods query
  | .createGoods command => Warehouse.createGoods command
  | .takeGoods command => Warehouse.takeGoods command

end Warehouse
