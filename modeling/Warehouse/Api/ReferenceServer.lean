/-
# Warehouse.Api.ReferenceServer — `createGoods` against the handler that it replaces

`legacy_server_reference.cpp` is the server whose protocol is frozen.  Its `handleCreateGoods` was
written separately: it trims with index loops, ranks roles by number, and pastes the fields into
the text of an `INSERT`.  Both are programs, and both are what one `CreateDecision` makes of the
principal and the two fields.

`mysql_real_escape_string` belongs to the client library, so it is a parameter; what is asked of it
is that the server reads a quoted literal back as the text it was made from.
-/
import Warehouse.Api.CrossOrigin
import Warehouse.Mysql.LegacyUnitOfWork

namespace Warehouse.Api

open Warehouse.Interaction Warehouse.Mysql Warehouse.Bootstrap

/-! ## Error replies of the service -/

/-- `Operation` -/
inductive Operation
  | login | list | create | take
  deriving DecidableEq

/-- `setApplicationError`: status and message. -/
def applicationError (code : LegacyApplicationErrorCode) (operation : Operation) : ℕ × Bytes :=
  match code with
  | .invalidLoginInput => (400, lit "用户名和密码不能为空")
  | .invalidCredentials => (401, lit "用户名或密码错误")
  | .unauthenticated => (401, lit "请先登录")
  | .forbidden =>
      (403, if operation = .take then lit "当前用户无取出权限" else lit "当前用户无此权限")
  | .invalidGoodsName => (400, lit "货物名称不能为空")
  | .invalidGoodsId => (400, lit "无效的货物编号")
  | .persistenceReadFailed => (500, lit "数据库查询失败")
  | .passwordUpgradeFailed => (500, lit "密码哈希升级失败")
  | .persistenceCreateFailed => (500, lit "入库失败")
  | .persistenceTakeFailed => (500, lit "取出失败")
  | .goodsNotFound => (404, lit "未找到该货物")
  | .goodsAlreadyTaken => (400, lit "该货物已取出")

/-! ## The reference handler -/

/-- What the handler asks: the session, and the database through its one connection. -/
inductive ReferenceCall
  | getAuthenticatedUser
  | query (sql : Bytes)
  | insertId
  | fetchRow
  deriving DecidableEq

/-- The answers; a query is answered by whether it succeeded, and `fetchRow` by the first row of a
stored result, if there is one. `User` has the fields of `LegacyPrincipal`. -/
abbrev ReferenceCall.Answer : ReferenceCall → Type
  | .getAuthenticatedUser => Option LegacyPrincipal
  | .query _ => Bool
  | .insertId => ℕ
  | .fetchRow => Option SqlRow

/-- Code of the reference server. -/
abbrev ReferenceProgram : Type → Type := Program ReferenceCall ReferenceCall.Answer

/-- A reply, before its body is written: an error, or the row that the item is made of. -/
inductive ReferenceReply
  | errorResponse (status : ℕ) (message : Bytes)
  | created (item : Option SqlRow)
  deriving DecidableEq

namespace Reference

/-- `getAuthenticatedUser` -/
def getAuthenticatedUser : ReferenceProgram (Option LegacyPrincipal) :=
  .call .getAuthenticatedUser .ret

/-- `mysql_query`; whether it returned 0. -/
def query (sql : Bytes) : ReferenceProgram Bool := .call (.query sql) .ret

/-- `mysql_insert_id` -/
def insertId : ReferenceProgram ℕ := .call .insertId .ret

/-- `mysql_store_result` and `mysql_fetch_row`. -/
def fetchRow : ReferenceProgram (Option SqlRow) := .call .fetchRow .ret

/-- The first loop of `trim`, from the position `start`. -/
def skipSpace (value : Bytes) (start : ℕ) : ℕ :=
  if hstart : start < value.length then
    if isspace value[start] then skipSpace value (start + 1) else start
  else start
termination_by value.length - start

/-- The second loop of `trim`, from the position `end`. -/
def backSpace (value : Bytes) (start : ℕ) : ℕ → ℕ
  | 0 => 0
  | last + 1 =>
      if last + 1 > start && (value[last]?.any isspace) then backSpace value start last else last + 1

/-- `trim` -/
def trim (value : Bytes) : Bytes :=
  let start := skipSpace value 0
  let last := backSpace value start value.length
  (value.drop start).take (last - start)

/-- `normalizeField` -/
def normalizeField (value : Bytes) : Bytes :=
  trim (value.map fun c => if c = 9 || c = 13 || c = 10 then 32 else c)

/-- The lambda of `roleAtLeast`. -/
def rank (role : Bytes) : ℕ :=
  if role = lit "admin" then 3 else if role = lit "manager" then 2 else 1

/-- `roleAtLeast` -/
def roleAtLeast (user : LegacyPrincipal) (required : Bytes) : Bool := rank user.role ≥ rank required

/-- `dbEscape`: the buffer is read as a C string, so up to its first NUL. -/
def dbEscape (escape : Bytes → Bytes) (s : Bytes) : Bytes := (escape s).takeWhile (· != 0)

/-- The statement that removes goods that were taken thirty days ago. -/
def cleanupSql : Bytes :=
  lit "DELETE FROM goods WHERE status='taken' AND taken_at IS NOT NULL"
    ++ lit " AND taken_at < NOW() - INTERVAL 30 DAY"

/-- The text of the `INSERT`. -/
def insertSql (escape : Bytes → Bytes) (goods : NewGoods) : Bytes :=
  lit "INSERT INTO goods (name, location, status, stored_at, operator)" ++ lit " VALUES ('"
    ++ dbEscape escape goods.name ++ lit "','" ++ dbEscape escape goods.location
    ++ lit "','stored',NOW(),'" ++ dbEscape escape goods.operatorName ++ lit "')"

/-- The text that reads the new row back. -/
def selectSql (id : ℤ) : Bytes :=
  lit "SELECT id, name, location, status, stored_at, taken_at, operator" ++ lit " FROM goods WHERE id="
    ++ toDecimalInt id

/-- `handleCreateGoods` once the fields are settled. -/
def storeGoods (escape : Bytes → Bytes) (goods : NewGoods) : ReferenceProgram ReferenceReply := do
  -- neither the cleanup nor the reading back is looked at for success
  let _ ← query cleanupSql
  if ← query (insertSql escape goods) then
    let newId := (← insertId : ℤ).bmod (2 ^ 32)
    let _ ← query (selectSql newId)
    return .created (← fetchRow)
  else return .errorResponse 500 (lit "入库失败")

/-- `handleCreateGoods`, with the two fields of the body. -/
def handleCreateGoods (escape : Bytes → Bytes) (name location : Bytes) :
    ReferenceProgram ReferenceReply := do
  match ← getAuthenticatedUser with
  | none => return .errorResponse 401 (lit "请先登录")
  | some user =>
      if !roleAtLeast user (lit "manager") then
        return .errorResponse 403 (lit "当前用户无此权限")
      else
        let name := normalizeField name
        let location := normalizeField location
        if name.isEmpty then return .errorResponse 400 (lit "货物名称不能为空")
        else
          let location := if location.isEmpty then lit "默认货架" else location
          storeGoods escape ⟨name, location, user.username⟩

end Reference

/-! ## The statement, as the server reads it -/

/-- What a character stands for behind a backslash. -/
def escapedCharacter (c : UInt8) : Bytes :=
  if c = 48 then [0]
  else if c = 98 then [8]
  else if c = 110 then [10]
  else if c = 114 then [13]
  else if c = 116 then [9]
  else if c = 90 then [26]
  else if c = 37 || c = 95 then [92, c]
  else [c]

/-- The rest of a literal in single quotes: what it stands for, and the text behind it. -/
def readQuoted : Bytes → Option (Bytes × Bytes)
  | [] => none
  | [c] => if c = 39 then some ([], []) else none
  | c :: next :: text =>
      if c = 92 then (readQuoted text).map fun (value, rest) => (escapedCharacter next ++ value, rest)
      else if c = 39 && next = 39 then
        (readQuoted text).map fun (value, rest) => (39 :: value, rest)
      else if c = 39 then some ([], next :: text)
      else (readQuoted (next :: text)).map fun (value, rest) => (c :: value, rest)

/-- The text behind what is expected next. -/
def readFixed (expected text : Bytes) : Option Bytes :=
  if expected <+: text then some (text.drop expected.length) else none

/-- The goods that an `INSERT` of the reference server stores. -/
def readInsert (sql : Bytes) : Option NewGoods := do
  let text ← readFixed (lit "INSERT INTO goods (name, location, status, stored_at, operator)"
    ++ lit " VALUES ('") sql
  let (name, text) ← readQuoted text
  let text ← readFixed (lit ",'") text
  let (location, text) ← readQuoted text
  let text ← readFixed (lit ",'stored',NOW(),'") text
  let (operatorName, text) ← readQuoted text
  if text = lit ")" then some ⟨name, location, operatorName⟩ else none

/-- `mysql_real_escape_string`, as it is documented: the result ends where the C string does, and
between single quotes the server reads it as the text that it was made from. -/
structure Escapes (escape : Bytes → Bytes) : Prop where
  terminated : ∀ s, 0 ∉ escape s
  read : ∀ s rest, rest.head? ≠ some 39 → readQuoted (escape s ++ 39 :: rest) = some (s, rest)

section Reading

variable {escape : Bytes → Bytes}

theorem dbEscape_eq (h : Escapes escape) (s : Bytes) : Reference.dbEscape escape s = escape s := by
  unfold Reference.dbEscape
  rw [List.takeWhile_eq_self_iff]
  intro c hc
  have hzero : c ≠ 0 := by
    rintro rfl
    exact h.terminated s hc
  simpa using hzero

theorem readFixed_append (expected text : Bytes) :
    readFixed expected (expected ++ text) = some text := by
  rw [readFixed, if_pos (List.prefix_append expected text), List.drop_left]

/-- The server reads the `INSERT` as the goods that it was made from. -/
theorem readInsert_insertSql (h : Escapes escape) (goods : NewGoods) :
    readInsert (Reference.insertSql escape goods) = some goods := by
  have hname : lit "','" = 39 :: lit ",'" := rfl
  have hlocation : lit "','stored',NOW(),'" = 39 :: lit ",'stored',NOW(),'" := rfl
  have hend : lit "')" = 39 :: lit ")" := rfl
  -- no literal is followed by another quote
  have hcomma : (44 : UInt8) ≠ 39 := by decide
  have hnext : ∀ text, (lit ",'" ++ text).head? ≠ some 39 := fun text hquote =>
    hcomma (Option.some.inj hquote)
  have hnow : ∀ text, (lit ",'stored',NOW(),'" ++ text).head? ≠ some 39 := fun text hquote =>
    hcomma (Option.some.inj hquote)
  unfold readInsert Reference.insertSql
  simp only [dbEscape_eq h, List.append_assoc]
  rw [← List.append_assoc (lit "INSERT INTO goods (name, location, status, stored_at, operator)"),
    readFixed_append, hname, hlocation, hend]
  simp only [Option.bind_eq_bind, Option.bind_some, List.cons_append]
  rw [h.read _ _ (hnext _)]
  simp only [Option.bind_some, readFixed_append]
  rw [h.read _ _ (hnow _)]
  simp only [Option.bind_some, readFixed_append]
  rw [h.read _ _ (by decide)]
  rfl

end Reading

/-! ## Fields -/

section Fields

/-- A text without space at its ends, and without tabulators and line ends. -/
structure Normalized (value : Bytes) : Prop where
  plain : ∀ c ∈ value, c ≠ 9 ∧ c ≠ 13 ∧ c ≠ 10
  head : ∀ c, value.head? = some c → isspace c = false
  last : ∀ c, value.getLast? = some c → isspace c = false

namespace Reference

/-- The first loop ends behind the white space in front. -/
theorem skipSpace_eq (value : Bytes) (start : ℕ) :
    skipSpace value start = start + ((value.drop start).takeWhile isspace).length := by
  induction start using skipSpace.induct value with
  | case1 start hstart hspace ih =>
      rw [skipSpace, dif_pos hstart, if_pos hspace, ih, List.drop_eq_getElem_cons hstart,
        List.takeWhile_cons_of_pos hspace, List.length_cons]
      omega
  | case2 start hstart hspace =>
      rw [skipSpace, dif_pos hstart, if_neg hspace, List.drop_eq_getElem_cons hstart,
        List.takeWhile_cons_of_neg hspace]
      rfl
  | case3 start hstart =>
      rw [skipSpace, dif_neg hstart, List.drop_of_length_le (by omega)]
      rfl

/-- The second loop ends behind the last character that is no white space, or where the first one
ended. -/
theorem backSpace_eq {value : Bytes} {start last : ℕ} (hlast : last ≤ value.length)
    (hstart : start ≤ last) :
    backSpace value start last = max start ((value.take last).rdropWhile isspace).length := by
  induction last with
  | zero =>
      have hzero : start = 0 := by omega
      subst hzero
      rfl
  | succ last ih =>
      have hbound : last < value.length := by omega
      have htake : value.take (last + 1) = value.take last ++ [value[last]] :=
        List.take_succ_eq_append_getElem hbound
      rw [htake, List.rdropWhile_concat, backSpace, List.getElem?_eq_getElem hbound]
      by_cases hspace : isspace value[last] = true
      · rw [if_pos hspace]
        by_cases hmore : start < last + 1
        · rw [if_pos (by simpa [hspace] using hmore)]
          exact ih (by omega) (by omega)
        · have hsame : start = last + 1 := by omega
          have hshort := (List.rdropWhile_prefix isspace (l := value.take last)).length_le
          rw [if_neg (by simp [hsame])]
          rw [List.length_take] at hshort
          omega
      · rw [if_neg hspace, if_neg (by simp [hspace]), List.length_append, List.length_take,
          List.length_singleton]
        omega

/-- Both ways of trimming agree. -/
theorem trim_eq (value : Bytes) : trim value = Bootstrap.trim value := by
  have hfirst : skipSpace value 0 = value.findIdx fun c => !isspace c := by
    rw [skipSpace_eq, List.drop_zero, Nat.zero_add, List.takeWhile_eq_take_findIdx_not,
      List.length_take, Nat.min_eq_left List.findIdx_le_length]
  have hlast : (value.rdropWhile isspace).length =
      value.length - value.reverse.findIdx fun c => !isspace c := by
    rw [rdropWhile_eq_take, List.length_take]
    omega
  have hend : backSpace value (skipSpace value 0) value.length =
      max (skipSpace value 0) (value.rdropWhile isspace).length := by
    have hbound : skipSpace value 0 ≤ value.length := hfirst ▸ List.findIdx_le_length
    rw [backSpace_eq (Nat.le_refl _) hbound, List.take_length]
  unfold trim Bootstrap.trim
  dsimp only
  rw [hend, hlast, hfirst]
  split
  · rename_i hbetween
    rw [Nat.max_eq_right (by omega)]
  · rename_i hcrossed
    rw [Nat.max_eq_left (by omega), Nat.sub_self, List.take_zero]

/-- The two functions of the name `normalizeField`. -/
theorem normalizeField_eq (value : Bytes) : normalizeField value = Warehouse.normalizeField value :=
  trim_eq _

end Reference

theorem normalizeField_eq_trimmed (value : Bytes) : normalizeField value =
    trimmed (value.map fun c => if c = 9 || c = 13 || c = 10 then 32 else c) :=
  trim_eq_trimmed _

/-- What a trimmed text is made of was there before. -/
theorem trimmed_subset {value : Bytes} {c : UInt8} (h : c ∈ trimmed value) : c ∈ value :=
  (List.dropWhile_suffix isspace).subset ((List.rdropWhile_prefix isspace _).subset h)

theorem head_trimmed {value : Bytes} {c : UInt8} (h : (trimmed value).head? = some c) :
    isspace c = false := by
  obtain ⟨rest, hrest⟩ : trimmed value <+: value.dropWhile isspace :=
    List.rdropWhile_prefix isspace _
  have hhead : (value.dropWhile isspace).head? = some c := by
    rw [← hrest, List.head?_append, h]
    rfl
  have hne : value.dropWhile isspace ≠ [] := by
    intro hnil
    rw [hnil] at hhead
    cases hhead
  rw [List.head?_eq_some_head hne] at hhead
  rw [← Option.some.inj hhead]
  exact List.head_dropWhile_not isspace hne

theorem last_trimmed {value : Bytes} {c : UInt8} (h : (trimmed value).getLast? = some c) :
    isspace c = false := by
  have hne : trimmed value ≠ [] := by
    rintro hnil
    rw [hnil] at h
    cases h
  rw [List.getLast?_eq_some_getLast hne] at h
  have hlast := List.rdropWhile_last_not isspace (value.dropWhile isspace) hne
  rw [← Option.some.inj h]
  exact Bool.eq_false_iff.mpr hlast

/-- A field that was normalized is normal. -/
theorem normalized_normalizeField (value : Bytes) : Normalized (normalizeField value) := by
  rw [normalizeField_eq_trimmed]
  refine ⟨?_, fun c => head_trimmed, fun c => last_trimmed⟩
  intro c hc
  obtain ⟨original, -, hreplaced⟩ := List.mem_map.mp (trimmed_subset hc)
  split at hreplaced
  · subst hreplaced
    decide
  · rename_i hother
    subst hreplaced
    simp only [Bool.or_eq_true, decide_eq_true_eq, not_or] at hother
    exact ⟨hother.1.1, hother.1.2, hother.2⟩

example : normalizeField (lit " \tA 1\n ") = lit "A 1" := by decide

/-- A normal text is left as it is. -/
theorem Normalized.normalizeField_eq {value : Bytes} (h : Normalized value) :
    normalizeField value = value := by
  have hplain : (value.map fun c => if c = 9 || c = 13 || c = 10 then 32 else c) = value := by
    rw [List.map_congr_left (g := id), List.map_id]
    intro c hc
    obtain ⟨htab, hreturn, hfeed⟩ := h.plain c hc
    simp [htab, hreturn, hfeed]
  have hhead : value.dropWhile isspace = value := by
    cases value with
    | nil => rfl
    | cons c rest => exact List.dropWhile_cons_of_neg (by simp [h.head c rfl])
  rw [normalizeField_eq_trimmed, hplain, trimmed, hhead, List.rdropWhile_eq_self_iff]
  intro hne
  rw [h.last _ (List.getLast?_eq_some_getLast hne)]
  exact Bool.false_ne_true

end Fields

/-! ## The decision -/

/-- What becomes of a request for new goods. -/
inductive CreateDecision
  | unauthenticated
  | forbidden
  | emptyName
  | insert (goods : NewGoods)
  deriving DecidableEq

/-- Whose request it is, then what they may do, then the name. -/
def createDecision (principal : Option LegacyPrincipal) (name location : Bytes) : CreateDecision :=
  match principal with
  | none => .unauthenticated
  | some principal =>
      if !canWrite principal then .forbidden
      else if (normalizeField name).isEmpty then .emptyName
      else
        let location := normalizeField location
        .insert ⟨normalizeField name, if location.isEmpty then defaultLocation else location,
          principal.username⟩

/-- The rejection of a decision, as the service names it. -/
def CreateDecision.rejection : CreateDecision → Option LegacyApplicationErrorCode
  | .unauthenticated => some .unauthenticated
  | .forbidden => some .forbidden
  | .emptyName => some .invalidGoodsName
  | .insert _ => none

/-- What the service goes on with. -/
def CreateDecision.service : CreateDecision → ServiceProgram (Outcome GoodsView)
  | .unauthenticated => return .error .unauthenticated
  | .forbidden => return .error .forbidden
  | .emptyName => return .error .invalidGoodsName
  | .insert goods => withUnit .command .persistenceCreateFailed (createUnit goods)

/-- What the reference server goes on with. -/
def CreateDecision.reference (escape : Bytes → Bytes) :
    CreateDecision → ReferenceProgram ReferenceReply
  | .unauthenticated => return .errorResponse 401 (lit "请先登录")
  | .forbidden => return .errorResponse 403 (lit "当前用户无此权限")
  | .emptyName => return .errorResponse 400 (lit "货物名称不能为空")
  | .insert goods => Reference.storeGoods escape goods

section Decision

/-- The two ways to rank roles. -/
theorem roleAtLeast_eq (user : LegacyPrincipal) :
    Reference.roleAtLeast user (lit "manager") = canWrite user := by
  have hadmin : lit "manager" ≠ lit "admin" := by decide
  unfold Reference.roleAtLeast Reference.rank canWrite
  by_cases hadministrator : user.role = lit "admin"
  · simp [hadministrator, hadmin, Ne.symm hadmin]
  · by_cases hmanager : user.role = lit "manager"
    · simp [hmanager, hadmin]
    · simp [hadministrator, hmanager, hadmin]

theorem createGoods_eq (command : CreateGoodsCommand) : createGoods command =
    (findSession command.auth >>= fun principal =>
      (createDecision principal command.name command.location).service) := by
  unfold createGoods authorized authenticated
  congr 1
  funext principal
  cases principal with
  | none => rfl
  | some principal =>
      dsimp only [createDecision]
      split
      · rfl
      · split <;> rfl

theorem handleCreateGoods_eq (escape : Bytes → Bytes) (name location : Bytes) :
    Reference.handleCreateGoods escape name location =
      (Reference.getAuthenticatedUser >>= fun principal =>
        (createDecision principal name location).reference escape) := by
  unfold Reference.handleCreateGoods
  congr 1
  funext principal
  cases principal with
  | none => rfl
  | some principal =>
      simp only [createDecision, roleAtLeast_eq, Reference.normalizeField_eq]
      split
      · rfl
      · split <;> rfl

/-- A rejection is returned at once, with the reply that the reference server has for it. -/
theorem rejection_eq {escape : Bytes → Bytes} {decision : CreateDecision}
    {code : LegacyApplicationErrorCode} (h : decision.rejection = some code) :
    decision.service = .ret (.error code) ∧
      decision.reference escape = .ret (.errorResponse (applicationError code .create).1
        (applicationError code .create).2) := by
  cases decision with
  | unauthenticated =>
      obtain rfl := Option.some.inj h
      exact ⟨rfl, rfl⟩
  | forbidden =>
      obtain rfl := Option.some.inj h
      exact ⟨rfl, rfl⟩
  | emptyName =>
      obtain rfl := Option.some.inj h
      exact ⟨rfl, rfl⟩
  | insert goods => cases h

/-- What the repositories are asked in a run of the service. -/
def repositoryCalls (events : ServiceHistory) : List RepositoryCall :=
  events.filterMap fun event => match event.1 with
    | .unit (.repository call) => some call
    | _ => none

/-- What a run of the reference server inserts, as the database reads its statements. -/
def Reference.insertedGoods (events : History ReferenceCall ReferenceCall.Answer) : List NewGoods :=
  events.filterMap fun event => match event.1 with
    | .query sql => readInsert sql
    | _ => none

/-- A run of the service that is to insert these goods: it asks for just that, once, unless there is
no unit of work to ask in; and it reports success only when that is committed. -/
structure Inserts (goods : NewGoods) (events : ServiceHistory) (result : Outcome GoodsView) :
    Prop where
  asked : repositoryCalls events = [.create goods] ∨
    ∃ failure, events = [⟨.begin .command, .error failure⟩] ∧
      result = .error .persistenceCreateFailed
  committed : ∀ view, result = .ok view → ⟨.unit .commit, .ok ()⟩ ∈ events

theorem inserts_service (goods : NewGoods) :
    (CreateDecision.insert goods).service.Traces (Inserts goods) := by
  rintro (failure | begun)
  · exact ⟨Or.inr ⟨failure, rfl, rfl⟩, nofun⟩
  refine (Program.traces_bind (createUnit goods) _).mpr ?_
  rintro (failure | created)
  · -- the unit is rolled back, and destroyed
    exact fun _ _ => ⟨Or.inl rfl, nofun⟩
  rintro (failure | committed)
  · exact fun _ => ⟨Or.inl rfl, nofun⟩
  · exact fun _ => ⟨Or.inl rfl, fun _ _ => by simp⟩

/-- A statement that does not begin as the `INSERT` does is none. -/
theorem readInsert_of_head {c : UInt8} {text : Bytes} (h : c ≠ 73) : readInsert (c :: text) = none := by
  have hprefix : ¬ (lit "INSERT INTO goods (name, location, status, stored_at, operator)"
      ++ lit " VALUES ('") <+: c :: text := by
    rintro ⟨rest, hrest⟩
    exact h (List.cons.inj hrest).1.symm
  rw [readInsert, readFixed, if_neg hprefix]
  rfl

/-- Whether or not its statements succeed, the reference server sends one `INSERT`, of these goods. -/
theorem insertedGoods_reference {escape : Bytes → Bytes} (h : Escapes escape) (goods : NewGoods) :
    ((CreateDecision.insert goods).reference escape).Traces
      fun events _ => Reference.insertedGoods events = [goods] := by
  have hdelete : readInsert Reference.cleanupSql = none := readInsert_of_head (by decide)
  have hselect : ∀ id, readInsert (Reference.selectSql id) = none := fun id =>
    readInsert_of_head (by decide)
  have hinsert := readInsert_insertSql h goods
  rintro cleaned (_ | _)
  · have hsent : Reference.insertedGoods [⟨.query Reference.cleanupSql, cleaned⟩,
        ⟨.query (Reference.insertSql escape goods), false⟩] = [goods] := by
      simp [Reference.insertedGoods, hdelete, hinsert]
    exact hsent
  · intro number selected row
    have hsent : Reference.insertedGoods [⟨.query Reference.cleanupSql, cleaned⟩,
        ⟨.query (Reference.insertSql escape goods), true⟩, ⟨.insertId, number⟩,
        ⟨.query (Reference.selectSql ((number : ℤ).bmod (2 ^ 32))), selected⟩,
        ⟨.fetchRow, row⟩] = [goods] := by
      simp [Reference.insertedGoods, hdelete, hinsert, hselect]
    exact hsent

end Decision

/-- New goods, as the reference server handled them.  For every principal or none, and all fields,
both programs are what the same decision makes of them; a rejection comes with the same status and
message, and otherwise every run of either inserts these goods, once, and nothing else.  Both ways to
normalize a field agree on every text, and normalizing again changes nothing. -/
theorem createGoods_agrees (escape : Bytes → Bytes) (hescape : Escapes escape)
    (command : CreateGoodsCommand) :
    (createGoods command = (findSession command.auth >>= fun principal =>
      (createDecision principal command.name command.location).service)) ∧
    (Reference.handleCreateGoods escape command.name command.location =
      (Reference.getAuthenticatedUser >>= fun principal =>
        (createDecision principal command.name command.location).reference escape)) ∧
    (∀ decision code, CreateDecision.rejection decision = some code →
      decision.service = .ret (.error code) ∧
      decision.reference escape = .ret (.errorResponse (applicationError code .create).1
        (applicationError code .create).2)) ∧
    (∀ goods,
      (∀ events result, Program.Runs (CreateDecision.insert goods).service events result →
        Inserts goods events result) ∧
      ∀ events reply, Program.Runs ((CreateDecision.insert goods).reference escape) events reply →
        Reference.insertedGoods events = [goods]) ∧
    ∀ value, Reference.normalizeField value = normalizeField value ∧
      Normalized (normalizeField value) ∧
      normalizeField (normalizeField value) = normalizeField value := by
  refine ⟨createGoods_eq command, handleCreateGoods_eq escape _ _, fun _ _ => rejection_eq, ?_, ?_⟩
  · intro goods
    constructor
    · intro events result hrun
      exact (inserts_service goods).of_runs hrun
    · intro events reply hrun
      exact (insertedGoods_reference hescape goods).of_runs hrun
  · intro value
    have hnormal := normalized_normalizeField value
    exact ⟨Reference.normalizeField_eq value, hnormal, hnormal.normalizeField_eq⟩

/-! ## The documented escapes -/

/-- The characters that `mysql_real_escape_string` is documented to escape. -/
def escapeCharacter (c : UInt8) : Bytes :=
  if c = 0 then [92, 48]
  else if c = 10 then [92, 110]
  else if c = 13 then [92, 114]
  else if c = 26 then [92, 90]
  else if c = 34 || c = 39 || c = 92 then [92, c]
  else [c]

def escapeText (s : Bytes) : Bytes := s.flatMap escapeCharacter

section Escapes

/-- One character of a literal is read back. -/
theorem readQuoted_escapeCharacter (c next : UInt8) (text : Bytes) :
    readQuoted (escapeCharacter c ++ next :: text) =
      (readQuoted (next :: text)).map fun (value, rest) => (c :: value, rest) := by
  unfold escapeCharacter
  by_cases hzero : c = 0
  · subst hzero
    rfl
  by_cases hfeed : c = 10
  · subst hfeed
    rfl
  by_cases hreturn : c = 13
  · subst hreturn
    rfl
  by_cases hend : c = 26
  · subst hend
    rfl
  rw [if_neg hzero, if_neg hfeed, if_neg hreturn, if_neg hend]
  by_cases hspecial : c = 34 ∨ c = 39 ∨ c = 92
  · rcases hspecial with rfl | rfl | rfl <;> rfl
  · simp only [not_or] at hspecial
    simp [readQuoted, hspecial]

theorem readQuoted_escapeText (s rest : Bytes) (h : rest.head? ≠ some 39) :
    readQuoted (escapeText s ++ 39 :: rest) = some (s, rest) := by
  induction s with
  | nil =>
      cases rest with
      | nil => rfl
      | cons next rest =>
          have hnext : next ≠ 39 := fun hquote => h (congrArg some hquote)
          simp [escapeText, readQuoted, hnext]
  | cons c s ih =>
      -- what follows the character is not empty, because the literal ends
      obtain ⟨next, text, htext⟩ : ∃ next text, escapeText s ++ 39 :: rest = next :: text :=
        List.exists_cons_of_ne_nil (by simp)
      have happend : escapeText (c :: s) ++ 39 :: rest = escapeCharacter c ++ next :: text := by
        rw [← htext, escapeText, List.flatMap_cons, List.append_assoc]
        rfl
      rw [happend, readQuoted_escapeCharacter, ← htext, ih]
      rfl

theorem escapeText_escapes : Escapes escapeText where
  terminated s hmem := by
    obtain ⟨c, -, hc⟩ := List.mem_flatMap.mp hmem
    unfold escapeCharacter at hc
    split at hc
    · simp at hc
    · rename_i hzero
      repeat' split at hc
      all_goals simp at hc
      all_goals exact hzero hc.symm
  read := readQuoted_escapeText

/-- The box of the example. -/
def quotedBox : NewGoods := ⟨lit "o'box", defaultLocation, lit "mia"⟩

/-- A reference server with a session of mia, whose database does what it is asked. -/
def referenceOfMia : (call : ReferenceCall) → Unit → call.Answer × Unit
  | .getAuthenticatedUser, s => (some ⟨lit "mia", lit "manager"⟩, s)
  | .query _, s => (true, s)
  | .insertId, s => (7, s)
  | .fetchRow, s => (none, s)

/-- A service whose unit of work does. -/
def insertingEvents : ServiceHistory :=
  [⟨.begin .command, .ok ()⟩, ⟨.unit (.repository (.create quotedBox)), .ok { id := 7 }⟩,
    ⟨.unit .commit, .ok ()⟩, ⟨.destroy, ()⟩]

theorem runs_insertingEvents : Program.Runs (CreateDecision.insert quotedBox).service insertingEvents
    (.ok (toView { id := 7 })) :=
  .call (.call (.call (.call (.ret _))))

/-- A manager stores a box with a quote in its name, and no place. -/
theorem createGoods_agrees_quote :
    createDecision (some ⟨lit "mia", lit "manager"⟩) (lit " o'box\t") (lit " ") =
        .insert quotedBox ∧
      Inserts quotedBox insertingEvents (.ok (toView { id := 7 })) ∧
      Reference.insertedGoods (((CreateDecision.insert quotedBox).reference escapeText).exec
        referenceOfMia ()).1 = [quotedBox] := by
  obtain ⟨-, -, -, hinserts, -⟩ := createGoods_agrees escapeText escapeText_escapes ⟨[], [], []⟩
  obtain ⟨hservice, hreference⟩ := hinserts quotedBox
  refine ⟨by decide, hservice _ _ runs_insertingEvents, ?_⟩
  exact hreference _ _ (Program.runs_exec referenceOfMia _ ())

end Escapes

end Warehouse.Api
