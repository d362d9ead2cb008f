/-
# Warehouse.Backend.Linearization — overlapping requests, one at a time

What the requests are for, said without statements or transactions: a request looks at the tables,
changes one row of them at most, and shows something, all at once.  However the statements of many
requests overlap, and whatever fails, each that succeeds is such an act at one moment between its
first statement and its reply; the tables change only by such acts, and no request changes them
twice, whatever its caller was told.

A request that writes acts when its transaction is committed: the row that it changes was locked
when it was read, so it is still that row.  A request that only reads acts when it reads.
-/
import Mathlib.Data.Nat.Find
import Warehouse.Backend.RequestScript
import Warehouse.Interaction.Snapshots
import Warehouse.Backend.GoodsSearch
import Warehouse.Bootstrap.StartupCheck

namespace Warehouse.Backend

open Warehouse.Interaction Warehouse.Mysql Warehouse.Bootstrap

/-! ## Requests, at once -/

/-- The tables, without their indexes. -/
structure Tables where
  goods : ℤ → Option GoodsRow
  users : Users

/-- The rows once a transaction is committed. -/
abbrev LegacyRows.replayed (rows : LegacyRows) (txn : List LegacyEntry) : LegacyRows := replay txn rows

/-- What is in the rows of both tables. -/
def LegacyRows.tables (rows : LegacyRows) : Tables := ⟨rows.goods, rows.users.user⟩

/-- The goods that somebody may have put there. -/
def Tables.addGoods (tables : Tables) (id : ℤ) (row : GoodsRow) : Tables :=
  { tables with goods := Function.update tables.goods id (some row) }

/-- A user with another row. -/
def Tables.setUser (tables : Tables) (id : ℤ) (row : UserRow) : Tables :=
  { tables with users := Function.update tables.users id (some row) }

/-- The user has the name and the password of the command. -/
structure Knows (dialect : Dialect) (host : Host) (command : LoginCommand) (tables : Tables) (id : ℤ)
    (row : UserRow) : Prop where
  found : tables.users id = some row
  named : dialect.collation row.username = dialect.collation command.username
  verified : host.verify row.password command.password = true

/-- A request that succeeds, all at once: what it finds, what it shows, and what it leaves. -/
inductive Acts (dialect : Dialect) (host : Host) (s : ServiceState) (before : Tables) :
    (request : Request) → request.View → Tables → Prop
  | login {command : LoginCommand} {id : ℤ} {row : UserRow} {view : LoginView} :
      Knows dialect host command before id row → host.needsRehash row.password = false →
      view.username = row.username → view.role = row.role →
      Acts dialect host s before (.login command) view before
  | upgrade {command : LoginCommand} {id : ℤ} {row : UserRow} {drawn : ℕ} {hash : Bytes}
      {view : LoginView} :
      Knows dialect host command before id row → host.needsRehash row.password = true →
      host.hash drawn command.password = .ok hash →
      view.username = row.username → view.role = row.role →
      Acts dialect host s before (.login command) view
        (before.setUser id { row with password := hash })
  | list {query : ListGoodsQuery} {views : List GoodsView} :
      (views.Pairwise fun v w => v.numericId < w.numericId) →
      (∀ view, view ∈ views ↔ ∃ id row, before.goods id = some row ∧
        dialect.selects ⟨lowercaseAscii query.name, query.status⟩ row ∧
        view = toView (row.record id)) →
      Acts dialect host s before (.listGoods query) views before
  | create {command : CreateGoodsCommand} {principal : LegacyPrincipal} {id : ℕ} {storedAt : Bytes} :
      Writer s command.auth principal → normalizeField command.name ≠ [] → 0 < id → id ≤ intMax →
      before.goods id = none →
      Acts dialect host s before (.createGoods command)
        (toView ((storedGoods (newGoods command principal) storedAt).record id))
        (before.addGoods id (storedGoods (newGoods command principal) storedAt))
  | take {command : TakeGoodsCommand} {principal : LegacyPrincipal} {id : ℤ} {row : GoodsRow}
      {takenAt : Bytes} :
      Writer s command.auth principal → parseGoodsId command.suppliedId = some id →
      before.goods id = some row → ¬ dialect.isTaken row →
      Acts dialect host s before (.takeGoods command)
        (toView ((row.take takenAt principal.username).record id))
        (before.addGoods id (row.take takenAt principal.username))

/-! ## Rows and tables -/

section Tables

variable {dialect : Dialect} {rows writes : LegacyRows} {id : ℤ} {e f : LegacyEntry}

theorem tables_over_writeGoods {row : GoodsRow} :
    (LegacyRows.over (writeGoods id row) rows).tables = rows.tables.addGoods id row := by
  have husers : (LegacyRows.over (writeGoods id row) rows).users = rows.users := by
    funext key
    simp [LegacyRows.users, LegacyRows.over, writeGoods]
  unfold LegacyRows.tables Tables.addGoods
  rw [goods_over_writeGoods, husers]

/-- What is written to users leaves the goods alone. -/
theorem tables_over_users {userWrites : UserEntries} :
    (LegacyRows.over (fun key => match key with
      | .goods _ => none
      | .users key => (userWrites key).map .users) rows).tables =
      { rows.tables with users := (userWrites.over rows.users).user } := by
  have husers : (LegacyRows.over (fun key => match key with
      | .goods _ => none
      | .users key => (userWrites key).map LegacyRecord.users) rows).users =
      userWrites.over rows.users := by
    funext key
    cases hwritten : userWrites key with
    | none => simp [LegacyRows.users, LegacyRows.over, UserEntries.over, hwritten]
    | some entry => simp [LegacyRows.users, LegacyRows.over, UserEntries.over, hwritten]
  unfold LegacyRows.tables
  rw [husers]
  rfl

/-- What was executed, and what the server made of it. -/
theorem executed_of_performed (h : RowStore.Performed (legacyMeaning dialect).server e) :
    ∃ statement response counter locks counter', e.event = did statement response ∧
      legacyMeaning dialect statement e.view counter response e.writes locks counter' := by
  obtain ⟨client, ⟨call, answer⟩, view, writes⟩ := e
  obtain ⟨counter, locks, counter', hperform⟩ := h
  cases call with
  | control statement => exact hperform.elim
  | poison => exact hperform.elim
  | execute statement =>
      obtain ⟨response, rfl, hmeaning⟩ := hperform
      exact ⟨statement, response, counter, locks, counter', rfl, hmeaning⟩

theorem did_inj {statement statement' : LegacyStatement} {response response' : SqlResponse}
    (h : did statement response = did statement' response') :
    statement = statement' ∧ response = response' := by
  obtain ⟨hcall, hanswer⟩ := Sigma.mk.inj h
  obtain rfl := ExecutorCall.execute.inj hcall
  exact ⟨rfl, Except.ok.inj (eq_of_heq hanswer)⟩

/-- The same of a known statement. -/
theorem meaning_of_did {statement : LegacyStatement} {response : SqlResponse}
    (h : RowStore.Performed (legacyMeaning dialect).server e)
    (hevent : e.event = did statement response) :
    ∃ counter locks counter',
      legacyMeaning dialect statement e.view counter response e.writes locks counter' := by
  obtain ⟨statement', response', counter, locks, counter', hevent', hmeaning⟩ :=
    executed_of_performed h
  obtain ⟨rfl, rfl⟩ := did_inj (hevent.symm.trans hevent')
  exact ⟨counter, locks, counter', hmeaning⟩

end Tables

/-! ## What a transaction amounts to -/

/-- A login locks the row of the user that it finds. -/
def LocksUser (event : Event (ExecutorCall LegacyStatement) ExecutorCall.Answer) (key : LegacyKey) :
    Prop :=
  ∃ username response user, event = did (.findUser username true) response ∧
    readUser response.rows = .ok (some user) ∧ key = .users (.row user.id)

/-- What a request has executed, upon rows that it may be committed to. -/
structure Worked (dialect : Dialect) (host : Host) (s : ServiceState) (request : Request)
    (rows : LegacyRows) (txn : List LegacyEntry) : Prop where
  performed : ∀ e ∈ txn, RowStore.Performed (legacyMeaning dialect).server e
  disciplined : Disciplined (Scripted host s request) (txn.map Entry.event)
  faithful : Faithful rows txn
  steady : Steady LocksUser rows txn

section Transactions

variable {dialect : Dialect} {host : Host} {s : ServiceState} {request : Request} {rows : LegacyRows}
  {txn : List LegacyEntry} {e f : LegacyEntry} {view writes : LegacyRows} {counter counter' : ℕ}
  {locks : LegacyKey → Prop} {response response' : SqlResponse}

/-- A user that is found is read as it is stored, and its row is locked. -/
theorem found_of_meaning {username : Bytes} {user : UserRecord}
    (h : legacyMeaning dialect (.findUser username true) view counter response writes locks counter')
    (hread : readUser response.rows = .ok (some user)) :
    ∃ row, UserEntries.user (LegacyRows.users view) user.id = some row ∧
      dialect.collation row.username = dialect.collation username ∧
      user = ⟨user.id, row.username, row.password, row.role⟩ ∧
      locks (.users (.row user.id)) := by
  obtain ⟨-, -, ⟨id, row, hrow, hname, hcells, rfl⟩ | ⟨-, hnothing, -⟩⟩ := h
  · rw [hcells] at hread
    simp only [userCells, readUser] at hread
    split at hread
    · cases hread
    · rename_i number hparsed
      obtain rfl : id = number := eq_of_parseId hparsed
      obtain rfl := Option.some.inj (Except.ok.inj hread)
      exact ⟨row, hrow, hname, rfl, rfl, rfl⟩
  · rw [hnothing] at hread
    cases hread

/-- What is locked by the finding of a user, is locked. -/
theorem locks_of_locksUser {call : ExecutorCall LegacyStatement} {answer : call.Answer}
    (h : (legacyMeaning dialect).server.perform call view counter answer writes locks counter')
    (key : LegacyKey) (hkey : LocksUser ⟨call, answer⟩ key) : locks key := by
  obtain ⟨username, response, user, hevent, hread, rfl⟩ := hkey
  obtain ⟨rfl, hanswer⟩ := Sigma.mk.inj hevent
  obtain ⟨response', hok, hmeaning⟩ := h
  obtain rfl := Except.ok.inj ((eq_of_heq hanswer).symm.trans hok)
  obtain ⟨row, -, -, -, hlocked⟩ := found_of_meaning hmeaning hread
  exact hlocked

/-- A transaction has executed the beginning of its script. -/
theorem Worked.cases (h : Worked dialect host s request rows txn) :
    txn = [] ∨
    (∃ e statement response, txn = [e] ∧ e.event = did statement response ∧
      Script host s request [] statement) ∨
    ∃ e f statement statement' response response', txn = [e, f] ∧
      e.event = did statement response ∧ f.event = did statement' response' ∧
      Script host s request [] statement ∧
      Script host s request [did statement response] statement' := by
  obtain ⟨hperformed, hdisciplined, -, -⟩ := h
  match txn, hperformed, hdisciplined with
  | [], _, _ => exact Or.inl rfl
  | [e], hperformed, hdisciplined =>
      obtain ⟨statement, response, _, _, _, hevent, -⟩ := executed_of_performed (hperformed e (by simp))
      have hscript := hdisciplined [] e.event [] rfl
      rw [hevent] at hscript
      exact Or.inr (Or.inl ⟨e, statement, response, rfl, hevent, hscript _ rfl⟩)
  | e :: f :: rest, hperformed, hdisciplined =>
      obtain ⟨statement, response, _, _, _, hevent, -⟩ := executed_of_performed (hperformed e (by simp))
      obtain ⟨statement', response', _, _, _, hevent', -⟩ :=
        executed_of_performed (hperformed f (by simp))
      have hscript := hdisciplined [] e.event (f.event :: rest.map Entry.event) rfl
      have hscript' := hdisciplined [e.event] f.event (rest.map Entry.event) rfl
      rw [hevent] at hscript hscript'
      rw [hevent'] at hscript'
      cases rest with
      | nil =>
          exact Or.inr (Or.inr ⟨e, f, statement, statement', response, response', rfl, hevent, hevent',
            hscript _ rfl, hscript' _ rfl⟩)
      | cons g rest =>
          -- no script goes on after two statements
          exfalso
          obtain ⟨statement'', response'', _, _, _, hevent'', -⟩ :=
            executed_of_performed (hperformed g (by simp))
          have hscript'' := hdisciplined [e.event, f.event] g.event (rest.map Entry.event) rfl
          rw [hevent, hevent', hevent''] at hscript''
          cases hscript'' statement'' rfl

/-- Nothing is changed by statements that write nothing. -/
theorem tables_of_reads (h : ∀ e ∈ txn, e.writes = fun _ => none) :
    (rows.replayed txn).tables = rows.tables := by
  have hsame : rows.replayed txn = rows := by
    funext key
    exact replay_of_none fun e he => by rw [h e he]
  rw [hsame]

/-- A write sees the row that it replaces. -/
theorem Worked.view_of_writes (h : Worked dialect host s request rows [e]) {key : LegacyKey}
    (hwrites : e.writes key ≠ none) : e.view key = rows key := h.faithful.1 key hwrites

/-- A statement behind the first that writes nothing. -/
theorem Worked.first (h : Worked dialect host s request rows [e, f]) :
    Worked dialect host s request rows [e] where
  performed g hg := h.performed g (by simp_all)
  disciplined := by
    intro past event future hsplit
    refine h.disciplined past event (future ++ [f.event]) ?_
    show [e.event] ++ [f.event] = past ++ event :: (future ++ [f.event])
    rw [show [e.event] = past ++ event :: future from hsplit, List.append_assoc]
    rfl
  faithful := ⟨h.faithful.1, trivial⟩
  steady := by
    intro past g future hsplit
    refine h.steady past g (future ++ [f]) ?_
    show [e] ++ [f] = past ++ g :: (future ++ [f])
    rw [hsplit, List.append_assoc]
    rfl

theorem tables_of_second_reads (h : f.writes = fun _ => none) :
    (rows.replayed [e, f]).tables = (rows.replayed [e]).tables :=
  tables_of_reads (show ∀ g ∈ [f], g.writes = fun _ => none by simpa using h)

/-- Goods are added. -/
theorem Worked.inserted {goods : NewGoods} (h : Worked dialect host s request rows [e])
    (hevent : e.event = did (.insertGoods goods) response) :
    ∃ (id : ℕ) (storedAt : Bytes), 0 < id ∧ id ≤ intMax ∧ rows.goods id = none ∧
      response.lastInsertId = id ∧
      (∀ seen : LegacyRows, (seen.replayed [e]).goods id = some (storedGoods goods storedAt)) ∧
      (rows.replayed [e]).tables = rows.tables.addGoods id (storedGoods goods storedAt) := by
  obtain ⟨_, _, _, id, storedAt, hpositive, hle, hfresh, hwrites, -, -, -, hlast⟩ :=
    meaning_of_did (h.performed e (by simp)) hevent
  have hrow : e.view (.goods id) = rows (.goods id) := h.view_of_writes (by simp [hwrites, writeGoods])
  have hnone : rows.goods id = none := by
    unfold LegacyRows.goods
    rw [← hrow, hfresh]
  have hafter : ∀ seen : LegacyRows, seen.replayed [e] =
      LegacyRows.over (writeGoods id (storedGoods goods storedAt)) seen := by
    intro seen
    rw [← hwrites]
    rfl
  refine ⟨id, storedAt, hpositive, hle, hnone, hlast, ?_, ?_⟩
  · intro seen
    rw [hafter, goods_over_writeGoods]
    exact Function.update_self ..
  · rw [hafter, tables_over_writeGoods]

/-- Goods are taken, or nothing happens. -/
theorem Worked.took {operatorName : Bytes} {id : ℤ} (h : Worked dialect host s request rows [e])
    (hevent : e.event = did (.takeGoods operatorName id) response) :
    (∃ row takenAt, rows.goods id = some row ∧ ¬ dialect.isTaken row ∧ response.affectedRows = 1 ∧
      (∀ seen : LegacyRows, (seen.replayed [e]).goods id = some (row.take takenAt operatorName)) ∧
      (rows.replayed [e]).tables = rows.tables.addGoods id (row.take takenAt operatorName)) ∨
    e.writes = (fun _ => none) ∧ response.affectedRows = 0 := by
  obtain ⟨_, _, _, -, ⟨row, takenAt, hrow, hfree, hwrites, -, haffected⟩ |
    ⟨-, hwrites, -, haffected⟩⟩ := meaning_of_did (h.performed e (by simp)) hevent
  · left
    have hsame : e.view (.goods id) = rows (.goods id) :=
      h.view_of_writes (by simp [hwrites, writeGoods])
    have hafter : ∀ seen : LegacyRows, seen.replayed [e] =
        LegacyRows.over (writeGoods id (row.take takenAt operatorName)) seen := by
      intro seen
      rw [← hwrites]
      rfl
    refine ⟨row, takenAt, ?_, hfree, haffected, ?_, ?_⟩
    · unfold LegacyRows.goods at hrow ⊢
      rwa [← hsame]
    · intro seen
      rw [hafter, goods_over_writeGoods]
      exact Function.update_self ..
    · rw [hafter, tables_over_writeGoods]
  · exact Or.inr ⟨hwrites, haffected⟩

/-- The hash of a user who was read and locked is replaced, or nothing happens. -/
theorem Worked.rehashed {username hash : Bytes} {user : UserRecord}
    (h : Worked dialect host s request rows [e, f])
    (hevent : e.event = did (.findUser username true) response)
    (hread : readUser response.rows = .ok (some user))
    (hevent' : f.event = did (.updatePassword hash user.id) response') :
    (∃ row, rows.users.user user.id = some row ∧
      dialect.collation row.username = dialect.collation username ∧
      user = ⟨user.id, row.username, row.password, row.role⟩ ∧
      (rows.replayed [e, f]).tables = rows.tables.setUser user.id { row with password := hash }) ∨
    (rows.replayed [e, f]).tables = rows.tables ∧ response'.affectedRows = 0 := by
  obtain ⟨_, _, _, hfind⟩ := meaning_of_did (h.performed e (by simp)) hevent
  obtain ⟨row, hrow, hname, huser, -⟩ := found_of_meaning hfind hread
  have hreads : e.writes = fun _ => none := hfind.1
  -- the row that was read is locked, so it is still there
  have hlocked : rows (.users (.row user.id)) = e.view (.users (.row user.id)) :=
    h.steady [] e [f] rfl _ ⟨username, response, user, hevent, hread, rfl⟩
  have hstill : rows.users.user user.id = some row := by
    simp only [LegacyRows.users, UserEntries.user] at hrow ⊢
    rwa [hlocked]
  have hfirst : rows.replayed [e] = rows := funext fun key => replay_of_none (by simp [hreads])
  have hsecond : rows.replayed [e, f] = LegacyRows.over f.writes rows := by
    show (rows.replayed [e]).replayed [f] = _
    rw [hfirst]
    rfl
  obtain ⟨_, _, _, userWrites, _, ⟨-, hupdate⟩, hwrites, -⟩ :=
    meaning_of_did (h.performed f (by simp)) hevent'
  rw [hsecond, hwrites]
  split at hupdate
  · right
    obtain ⟨rfl, -, haffected⟩ := hupdate
    exact ⟨tables_over_users, haffected⟩
  · left
    rename_i current hcurrent
    obtain ⟨rfl, -, -⟩ := hupdate
    -- and it is the one that is replaced
    have hview : f.view (.users (.row user.id)) = rows (.users (.row user.id)) := by
      have hfaithful := h.faithful.2.1 (.users (.row user.id)) (by simp [hwrites, writeUser])
      rw [hfaithful]
      exact congrFun hfirst _
    obtain rfl : current = row := by
      apply Option.some.inj
      rw [← hcurrent, ← hstill]
      simp only [LegacyRows.users, UserEntries.user, hview]
    refine ⟨current, hstill, hname, huser, tables_over_users.trans ?_⟩
    rw [user_over_writeUser]
    rfl

end Transactions

/-! ## Transactions are acts -/

section Acts

variable {dialect : Dialect} {host : Host} {s : ServiceState} {request : Request}
  {rows seen : LegacyRows} {txn : List LegacyEntry} {e f : LegacyEntry} {writes : LegacyRows}
  {counter counter' : ℕ} {locks : LegacyKey → Prop} {response response' : SqlResponse}

/-- One statement that changes the tables. -/
theorem Worked.acts_of_first (h : Worked dialect host s request rows [e])
    (hchanged : (rows.replayed [e]).tables ≠ rows.tables) :
    ∃ view, Acts dialect host s rows.tables request view (rows.replayed [e]).tables := by
  have hwrites : e.writes ≠ fun _ => none := by
    intro hnothing
    exact hchanged (tables_of_reads (by simpa using hnothing))
  obtain ⟨statement, response, counter, locks, counter', hevent, hmeaning⟩ :=
    executed_of_performed (h.performed e (by simp))
  have hscript := h.disciplined [] e.event [] rfl
  rw [hevent] at hscript
  cases hscript statement rfl with
  | findUser => exact absurd hmeaning.1 hwrites
  | list => exact absurd hmeaning.1.1 hwrites
  | insert hwriter hname =>
      obtain ⟨id, storedAt, hpositive, hle, hfresh, -, -, htables⟩ := h.inserted hevent
      rw [htables]
      exact ⟨_, .create hwriter hname hpositive hle hfresh⟩
  | take hwriter hid =>
      rcases h.took hevent with ⟨row, takenAt, hrow, hfree, -, -, htables⟩ | ⟨hnothing, -⟩
      · rw [htables]
        exact ⟨_, .take hwriter hid hrow hfree⟩
      · exact absurd hnothing hwrites

/-- A transaction that changes the tables is an act of its request. -/
theorem Worked.acts_of_changed (h : Worked dialect host s request rows txn)
    (hchanged : (rows.replayed txn).tables ≠ rows.tables) :
    ∃ view, Acts dialect host s rows.tables request view (rows.replayed txn).tables := by
  rcases h.cases with rfl | ⟨e, statement, response, rfl, -⟩ |
    ⟨e, f, statement, statement', response, response', rfl, hevent, hevent', hfirst, hsecond⟩
  · exact absurd rfl hchanged
  · exact h.acts_of_first hchanged
  · obtain ⟨counter, locks, counter', hmeaning⟩ := meaning_of_did (h.performed f (by simp)) hevent'
    -- a second statement that only reads leaves what the first has done
    have hreads : f.writes = (fun _ => none) →
        ∃ view, Acts dialect host s rows.tables request view (rows.replayed [e, f]).tables := by
      intro hnothing
      rw [tables_of_second_reads hnothing] at hchanged ⊢
      exact h.first.acts_of_first hchanged
    cases hsecond with
    | readBack => exact hreads hmeaning.1.1
    | lockStatus => exact hreads hmeaning.1
    | readTaken => exact hreads hmeaning.1.1
    | @upgrade command response user hash hread hrehashed =>
        obtain ⟨hverified, houtdated, drawn, hhash⟩ := hrehashed
        rcases h.rehashed hevent hread hevent' with ⟨row, hrow, hname, huser, htables⟩ | ⟨hsame, -⟩
        · rw [huser] at hverified houtdated
          rw [htables]
          exact ⟨⟨[], row.role, row.username⟩,
            .upgrade ⟨hrow, hname, hverified⟩ houtdated hhash rfl rfl⟩
        · exact absurd hsame hchanged

/-- A login that changes nothing acts upon the rows that it has seen. -/
theorem acts_of_login {command : LoginCommand} {user : UserRecord} {view : LoginView}
    (hmeaning : legacyMeaning dialect (.findUser command.username true) rows counter response writes
      locks counter') (hread : readUser response.rows = .ok (some user))
    (hverified : host.verify user.passwordHash command.password = true)
    (hcurrent : host.needsRehash user.passwordHash = false) (hname : view.username = user.username)
    (hrole : view.role = user.role) :
    Acts dialect host s rows.tables (.login command) view rows.tables := by
  obtain ⟨row, hrow, hnamed, huser, -⟩ := found_of_meaning hmeaning hread
  rw [huser] at hverified hcurrent hname hrole
  exact .login ⟨hrow, hnamed, hverified⟩ hcurrent hname hrole

/-- And so does a list. -/
theorem acts_of_list {query : ListGoodsQuery} {records : List GoodsRecord}
    (hmeaning : legacyMeaning dialect (.listGoods ⟨lowercaseAscii query.name, query.status⟩) rows
      counter response writes locks counter')
    (hread : response.rows.mapM parseGoodsRecord = .ok records) :
    Acts dialect host s rows.tables (.listGoods query) (records.map toView) rows.tables := by
  obtain ⟨hascending, hviews⟩ := lists_of_meaning hmeaning hread
  exact .list hascending hviews

/-- Goods that are read back are shown as they are stored. -/
theorem record_of_readGoods {id : ℤ} {row : GoodsRow} {record : GoodsRecord}
    (hmeaning : legacyMeaning dialect (.selectGoods id) seen counter response writes locks counter')
    (hrow : seen.goods id = some row) (hread : readGoods response.rows = .ok (some record)) :
    record = row.record id := by
  obtain ⟨-, hcells⟩ := hmeaning
  rw [hcells, hrow] at hread
  cases hparsed : parseGoodsRecord (row.cells id) with
  | error f => simp [readGoods, hparsed, Except.map] at hread
  | ok parsed =>
      have hsame : parsed = record := by simpa [readGoods, hparsed, Except.map] using hread
      rw [← hsame]
      exact parseGoodsRecord_eq hparsed

/-- Goods are shown as the transaction that has added them reads them. -/
theorem Worked.acts_of_created {command : CreateGoodsCommand} {principal : LegacyPrincipal}
    {record : GoodsRecord} (h : Worked dialect host s (.createGoods command) rows [e, f])
    (hwriter : Writer s command.auth principal) (hname : normalizeField command.name ≠ [])
    (hevent : e.event = did (.insertGoods (newGoods command principal)) response)
    (hevent' : f.event = did (.selectGoods (toInt64 response.lastInsertId)) response')
    (hview : f.view = seen.replayed [e]) (hread : readGoods response'.rows = .ok (some record)) :
    Acts dialect host s rows.tables (.createGoods command) (toView record)
      (rows.replayed [e, f]).tables := by
  obtain ⟨id, storedAt, hpositive, hle, hfresh, hlast, hrow, htables⟩ := h.first.inserted hevent
  obtain ⟨_, _, _, hmeaning⟩ := meaning_of_did (h.performed f (by simp)) hevent'
  have hreads : f.writes = fun _ => none := hmeaning.1.1
  rw [hlast, toInt64_of_le hle, hview] at hmeaning
  rw [record_of_readGoods hmeaning (hrow seen) hread, tables_of_second_reads hreads, htables]
  exact .create hwriter hname hpositive hle hfresh

/-- And so are goods that it has taken. -/
theorem Worked.acts_of_taken {command : TakeGoodsCommand} {principal : LegacyPrincipal} {id : ℤ}
    {record : GoodsRecord} (h : Worked dialect host s (.takeGoods command) rows [e, f])
    (hwriter : Writer s command.auth principal) (hid : parseGoodsId command.suppliedId = some id)
    (hevent : e.event = did (.takeGoods principal.username id) response)
    (haffected : response.affectedRows = 1) (hevent' : f.event = did (.selectGoods id) response')
    (hview : f.view = seen.replayed [e]) (hread : readGoods response'.rows = .ok (some record)) :
    Acts dialect host s rows.tables (.takeGoods command) (toView record)
      (rows.replayed [e, f]).tables := by
  obtain ⟨_, _, _, hmeaning⟩ := meaning_of_did (h.performed f (by simp)) hevent'
  rw [hview] at hmeaning
  rcases h.first.took hevent with ⟨row, takenAt, hrow, hfree, -, hafter, htables⟩ | ⟨-, hnone⟩
  · rw [record_of_readGoods hmeaning (hafter seen) hread, tables_of_second_reads hmeaning.1.1, htables]
    exact .take hwriter hid hrow hfree
  · omega

/-- The hash of a user that was found is replaced by one of the same password. -/
theorem Worked.acts_of_upgraded {command : LoginCommand} {user : UserRecord} {hash : Bytes}
    {view : LoginView} (h : Worked dialect host s (.login command) rows [e, f])
    (hevent : e.event = did (.findUser command.username true) response)
    (hread : readUser response.rows = .ok (some user)) (hrehashed : Rehashed host command user hash)
    (hevent' : f.event = did (.updatePassword hash user.id) response')
    (haffected : response'.affectedRows = 1) (hname : view.username = user.username)
    (hrole : view.role = user.role) :
    Acts dialect host s rows.tables (.login command) view (rows.replayed [e, f]).tables := by
  obtain ⟨hverified, houtdated, drawn, hhash⟩ := hrehashed
  rcases h.rehashed hevent hread hevent' with ⟨row, hrow, hnamed, huser, htables⟩ | ⟨-, hnone⟩
  · rw [huser] at hverified houtdated hname hrole
    rw [htables]
    exact .upgrade ⟨hrow, hnamed, hverified⟩ houtdated hhash hname hrole
  · omega

/-- A statement that no script goes on with is the first. -/
theorem Worked.head {statement : LegacyStatement} (h : Worked dialect host s request rows txn)
    (he : e ∈ txn) (hevent : e.event = did statement response)
    (hfirst : ∀ event, ¬ Script host s request [event] statement) : ∃ future, txn = e :: future := by
  rcases h.cases with rfl | ⟨e', _, _, rfl, -⟩ | ⟨e', f', _, _, _, _, rfl, hevent₁, hevent₂, -, hscript⟩
  · cases he
  · obtain rfl := List.mem_singleton.mp he
    exact ⟨[], rfl⟩
  · rcases List.mem_pair.mp he with rfl | rfl
    · exact ⟨[f'], rfl⟩
    · obtain ⟨rfl, -⟩ := did_inj (hevent.symm.trans hevent₂)
      exact absurd hscript (hfirst _)

/-- A statement that no script begins with is the second, behind one that was settled too. -/
theorem Worked.second {statement statement' : LegacyStatement}
    (h : Worked dialect host s request rows txn) (he : e ∈ txn) (hf : f ∈ txn)
    (hevent : e.event = did statement response) (hevent' : f.event = did statement' response')
    (hlater : ¬ Script host s request [] statement') (hne : statement ≠ statement') :
    txn = [e, f] := by
  rcases h.cases with rfl | ⟨e', _, _, rfl, hevent₁, hscript⟩ |
    ⟨e', f', _, _, _, _, rfl, hevent₁, -, hscript, -⟩
  · cases he
  · obtain rfl := List.mem_singleton.mp hf
    obtain ⟨rfl, -⟩ := did_inj (hevent'.symm.trans hevent₁)
    exact absurd hscript hlater
  · rcases List.mem_pair.mp hf with rfl | rfl
    · obtain ⟨rfl, -⟩ := did_inj (hevent'.symm.trans hevent₁)
      exact absurd hscript hlater
    · rcases List.mem_pair.mp he with rfl | rfl
      · rfl
      · exact absurd (did_inj (hevent.symm.trans hevent')).1 hne

/-- A transaction whose statements were reported is the act that was reported; one that only reads,
upon the rows that it has seen. -/
theorem acts_of_reported {view : request.View} {settled : SqlHistory LegacyStatement}
    (hreported : Reported host s request view settled) (h : Worked dialect host s request rows txn)
    (hsettled : ∀ event ∈ settled, ∃ e ∈ txn, e.event = event)
    (hseen : ∀ e f, txn = [e, f] → ∃ seen : LegacyRows, f.view = seen.replayed [e]) :
    Acts dialect host s rows.tables request view (rows.replayed txn).tables ∨
    ∃ e future, txn = e :: future ∧
      Acts dialect host s (LegacyRows.tables e.view) request view (LegacyRows.tables e.view) := by
  cases hreported with
  | login hread hverified hcurrent hname hrole =>
      right
      obtain ⟨e, he, hevent⟩ := hsettled _ List.mem_cons_self
      obtain ⟨_, _, _, hmeaning⟩ := meaning_of_did (h.performed e he) hevent
      obtain ⟨future, hhead⟩ := h.head he hevent nofun
      exact ⟨e, future, hhead, acts_of_login hmeaning hread hverified hcurrent hname hrole⟩
  | listed hread =>
      right
      obtain ⟨e, he, hevent⟩ := hsettled _ List.mem_cons_self
      obtain ⟨_, _, _, hmeaning⟩ := meaning_of_did (h.performed e he) hevent
      obtain ⟨future, hhead⟩ := h.head he hevent nofun
      exact ⟨e, future, hhead, acts_of_list hmeaning hread⟩
  | upgraded hread hrehashed haffected hname hrole =>
      left
      obtain ⟨e, he, hevent⟩ := hsettled _ List.mem_cons_self
      obtain ⟨f, hf, hevent'⟩ := hsettled _ (List.mem_cons_of_mem _ List.mem_cons_self)
      obtain rfl := h.second he hf hevent hevent' nofun nofun
      exact h.acts_of_upgraded hevent hread hrehashed hevent' haffected hname hrole
  | created hwriter hname hread =>
      left
      obtain ⟨e, he, hevent⟩ := hsettled _ List.mem_cons_self
      obtain ⟨f, hf, hevent'⟩ := hsettled _ (List.mem_cons_of_mem _ List.mem_cons_self)
      obtain rfl := h.second he hf hevent hevent' nofun nofun
      obtain ⟨seen, hview⟩ := hseen e f rfl
      exact h.acts_of_created hwriter hname hevent hevent' hview hread
  | taken hwriter hid haffected hread =>
      left
      obtain ⟨e, he, hevent⟩ := hsettled _ List.mem_cons_self
      obtain ⟨f, hf, hevent'⟩ := hsettled _ (List.mem_cons_of_mem _ List.mem_cons_self)
      obtain rfl := h.second he hf hevent hevent' nofun nofun
      obtain ⟨seen, hview⟩ := hseen e f rfl
      exact h.acts_of_taken hwriter hid hevent haffected hevent' hview hread

end Acts

/-! ## Runs of requests -/

section Runs

open Program RowSystem

variable {dialect : Dialect} {incoming : ℕ → Incoming} {rows₀ : LegacyRows} {counter : ℕ}
  {run : ℕ → Requests} {n k m i : ℕ}

/-- What is known of a reply when it is given. -/
def Concluded (incoming : ℕ → Incoming) (i : ℕ) (reply : Reply) (w : SqlFollower) : Prop :=
  ∃ result : Outcome (incoming i).request.View, reply = ⟨(incoming i).request, result⟩ ∧
    Says (Reported (incoming i).host (incoming i).service (incoming i).request)
      (Refused (incoming i).host (incoming i).service (incoming i).request) result w

/-- The script of a request. -/
abbrev Incoming.script (incoming : Incoming) :
    SqlHistory LegacyStatement → ExecutorCall LegacyStatement → Prop :=
  Scripted incoming.host incoming.service incoming.request

theorem proper_program (i : ℕ) :
    (incoming i).program.wp (following (legacyMeaning dialect).server)
      (Proper (legacyMeaning dialect).server (incoming i).script) (Concluded incoming i) {} := by
  unfold Incoming.program
  rw [wp_bind]
  apply wp_post (scripted_serve (incoming i).request rfl rfl)
  intro result w hsays
  exact ⟨result.1, rfl, hsays⟩

/-- A run of requests, with what is so at its every moment. -/
abbrev Overlap (dialect : Dialect) (incoming : ℕ → Incoming) (rows₀ : LegacyRows)
    (run : ℕ → Requests) (n : ℕ) : Prop :=
  Timeline (legacyMeaning dialect).server rows₀ (fun i => (incoming i).script) (Concluded incoming)
    LocksUser (fun i => (incoming i).program) run n

theorem overlap_of_run (hrun : IsRun (legacyMeaning dialect).server run n)
    (hstart : run 0 = arrivals incoming rows₀ counter) : Overlap dialect incoming rows₀ run n :=
  timeline_of_run (fun hperform => locks_of_locksUser hperform) proper_program hrun hstart

/-- What a request has executed at a moment. -/
abbrev pendingAt (run : ℕ → Requests) (k i : ℕ) : List LegacyEntry :=
  ((run k).store.sessions i).pending

/-- The tables at a moment, as they are committed. -/
abbrev tablesAt (run : ℕ → Requests) (k : ℕ) : Tables := LegacyRows.tables (run k).store.rows

/-- The request has done something, and its transaction is committed at this moment. -/
def Commits (run : ℕ → Requests) (k i : ℕ) : Prop :=
  (run (k + 1)).store = (run k).store.commit i ∧ pendingAt run k i ≠ []

/-- The request takes effect at this moment, after it was sent. -/
structure TakesEffect (dialect : Dialect) (incoming : ℕ → Incoming) (run : ℕ → Requests) (n i : ℕ)
    (view : (incoming i).request.View) (k : ℕ) : Prop where
  acts : Acts dialect (incoming i).host (incoming i).service (tablesAt run k) (incoming i).request
    view (tablesAt run (k + 1))
  sent : ∀ m ≤ n, ((run m).clients i).program = (incoming i).program → m ≤ k

/-- The request has been answered by success, with this view. -/
def Replied (incoming : ℕ → Incoming) (i : ℕ) (view : (incoming i).request.View) (c : Requests) :
    Prop :=
  (c.clients i).program = .ret ⟨(incoming i).request, .ok view⟩

theorem tables_of_commits (hcommits : Commits run k i) :
    tablesAt run (k + 1) =
      LegacyRows.tables (LegacyRows.replayed (run k).store.rows (pendingAt run k i)) := by
  rw [tablesAt, hcommits.1]
  rfl

variable (h : Overlap dialect incoming rows₀ run n)

include h

theorem worked_at (hk : k ≤ n) (i : ℕ) :
    Worked dialect (incoming i).host (incoming i).service (incoming i).request (run k).store.rows
      (pendingAt run k i) := by
  have htracked := h.tracked k hk
  exact ⟨fun e he => (htracked.ruled.sound.executed i e he).1, htracked.ruled.disciplined i,
    htracked.ruled.sound.pending i, htracked.kept.steady i⟩

/-- A commit that changes the tables is an act of the request. -/
theorem effect_of_commits (hk : k < n) (hcommits : Commits run k i)
    (hchanged : tablesAt run (k + 1) ≠ tablesAt run k) :
    ∃ view, TakesEffect dialect incoming run n i view k := by
  rw [tables_of_commits hcommits] at hchanged
  obtain ⟨view, hacts⟩ := (worked_at h (by omega) i).acts_of_changed hchanged
  rw [← tables_of_commits hcommits] at hacts
  refine ⟨view, hacts, ?_⟩
  intro m hm hwhole
  exact Nat.le_of_lt (h.started hcommits.2 (by omega) hm hwhole)

/-- The tables change when somebody commits. -/
theorem commits_of_changed (hk : k < n) (hchanged : tablesAt run (k + 1) ≠ tablesAt run k) :
    ∃ i, Commits run k i := by
  apply (h.moves hk).changed
  intro hsame
  exact hchanged (congrArg LegacyRows.tables hsame)

/-- And nobody commits twice. -/
theorem commits_once (hk : k < n) (hm : m < n) (hfirst : Commits run k i)
    (hsecond : Commits run m i) : k = m :=
  Nat.le_antisymm (h.commit_once hm hk hsecond.1 hsecond.2 hfirst.2)
    (h.commit_once hk hm hfirst.1 hfirst.2 hsecond.2)

/-- What was settled, was executed in one transaction. -/
theorem commits_of_settled (hm : m ≤ n) {event : Event (ExecutorCall LegacyStatement)
      ExecutorCall.Answer} (hsettled : event ∈ ((run m).clients i).notes.settled) :
    ∃ k < m, Commits run k i ∧ ∃ e ∈ pendingAt run k i, e.event = event := by
  obtain ⟨e, hlogged, rfl, rfl⟩ := ((h.tracked m hm).agrees i).settled event hsettled
  obtain ⟨k, hk, hpending, hcommit, -⟩ := h.committed_at hm hlogged
  exact ⟨k, hk, ⟨hcommit, List.ne_nil_of_mem hpending⟩, e, hpending, rfl⟩

/-- A request that has replied by success has taken effect before. -/
theorem effect_of_replied (hm : m ≤ n) {view : (incoming i).request.View}
    (hreplied : Replied incoming i view (run m)) :
    ∃ k < m, TakesEffect dialect incoming run n i view k ∧
      (tablesAt run (k + 1) ≠ tablesAt run k → Commits run k i) := by
  obtain ⟨w, hnotes, ⟨result, hresult, hsays⟩, -⟩ := h.returned hm hreplied
  obtain ⟨-, hview⟩ := Sigma.mk.inj hresult
  obtain rfl := eq_of_heq hview
  have hreported : Reported (incoming i).host (incoming i).service (incoming i).request view
      ((run m).clients i).notes.settled := hnotes ▸ hsays
  -- what was settled is one transaction, since the request commits but once
  obtain ⟨k, hk, hcommits, hsettled⟩ : ∃ k < m, Commits run k i ∧
      ∀ event ∈ ((run m).clients i).notes.settled, ∃ e ∈ pendingAt run k i, e.event = event := by
    obtain ⟨event, hevent⟩ := List.exists_mem_of_ne_nil _ hreported.settled_ne_nil
    obtain ⟨k, hk, hcommits, -⟩ := commits_of_settled h hm hevent
    refine ⟨k, hk, hcommits, ?_⟩
    intro event hevent
    obtain ⟨k', hk', hcommits', hexecuted⟩ := commits_of_settled h hm hevent
    obtain rfl := commits_once h (by omega) (by omega) hcommits hcommits'
    exact hexecuted
  have hseen : ∀ e f, pendingAt run k i = [e, f] → ∃ seen : LegacyRows, f.view = seen.replayed [e] := by
    intro e f hpending
    have hsplit : pendingAt run k i = [e] ++ f :: [] := hpending
    obtain ⟨l, -, hview, -⟩ := h.executed_at (by omega) hsplit
    exact ⟨_, hview⟩
  rcases acts_of_reported hreported (worked_at h (by omega) i) hsettled hseen with
    hacts | ⟨e, future, hpending, hacts⟩
  · rw [← tables_of_commits hcommits] at hacts
    refine ⟨k, hk, ⟨hacts, ?_⟩, fun _ => hcommits⟩
    intro l hl hwhole
    exact Nat.le_of_lt (h.started hcommits.2 (by omega) hl hwhole)
  · have hsplit : pendingAt run k i = [] ++ e :: future := hpending
    obtain ⟨l, hl, hview, hrows, -, hsent⟩ := h.executed_at (by omega) hsplit
    have hsame : tablesAt run (l + 1) = tablesAt run l := congrArg LegacyRows.tables hrows
    refine ⟨l, by omega, ⟨?_, hsent⟩, fun hchanged => absurd hsame hchanged⟩
    rw [hsame]
    rw [hview] at hacts
    exact hacts

/-- Every change has an author, who makes no other one, and every success is an effect. -/
theorem exists_author : ∃ author : ℕ → ℕ,
    (∀ k < n, tablesAt run (k + 1) ≠ tablesAt run k →
      ∃ view, TakesEffect dialect incoming run n (author k) view k) ∧
    (∀ k < n, ∀ m < n, tablesAt run (k + 1) ≠ tablesAt run k →
      tablesAt run (m + 1) ≠ tablesAt run m → author k = author m → k = m) ∧
    ∀ i view, Replied incoming i view (run n) →
      ∃ k < n, TakesEffect dialect incoming run n i view k ∧
        (∀ m ≤ n, Replied incoming i view (run m) → k < m) ∧
        (tablesAt run (k + 1) ≠ tablesAt run k → author k = i) := by
  classical
  let author (k : ℕ) : ℕ := if hsome : ∃ i, Commits run k i then hsome.choose else 0
  have hauthor : ∀ {k i}, Commits run k i → Commits run k (author k) ∧ author k = i := by
    intro k i hcommits
    have hsome : ∃ i, Commits run k i := ⟨i, hcommits⟩
    have hchosen : Commits run k (author k) := by
      simp only [author, dif_pos hsome]
      exact hsome.choose_spec
    exact ⟨hchosen, commit_unique (hchosen.1.symm.trans hcommits.1) hchosen.2⟩
  have hchanges : ∀ k < n, tablesAt run (k + 1) ≠ tablesAt run k → Commits run k (author k) := by
    intro k hk hchanged
    obtain ⟨i, hcommits⟩ := commits_of_changed h hk hchanged
    exact (hauthor hcommits).1
  refine ⟨author, ?_, ?_, ?_⟩
  · intro k hk hchanged
    exact effect_of_commits h hk (hchanges k hk hchanged) hchanged
  · intro k hk m hm hchanged hchanged' hsame
    have hfirst := hchanges k hk hchanged
    rw [hsame] at hfirst
    exact commits_once h hk hm hfirst (hchanges m hm hchanged')
  · intro i view hreplied
    -- the first moment at which the reply is there
    have hsome : ∃ m, m ≤ n ∧ Replied incoming i view (run m) := ⟨n, Nat.le_refl n, hreplied⟩
    obtain ⟨hfirst, hthere⟩ := Nat.find_spec hsome
    obtain ⟨k, hk, heffect, hcommits⟩ := effect_of_replied h hfirst hthere
    refine ⟨k, by omega, heffect, ?_, fun hchanged => (hauthor (hcommits hchanged)).2⟩
    intro m hm hlater
    exact Nat.lt_of_lt_of_le hk (Nat.find_min' hsome ⟨hm, hlater⟩)

end Runs

section Linearizable

open Program RowSystem

variable {dialect : Dialect} {incoming : ℕ → Incoming} {rows₀ : LegacyRows} {counter n : ℕ}
  {run : ℕ → Requests}

/-- Overlapping requests, one at a time.  In every run of any requests, whatever fails, each that
succeeds has taken effect at one moment after it was sent and before it replied; whenever the tables
change, it is one request that takes effect; and no request changes them twice. -/
theorem requests_linearizable (hrun : IsRun (legacyMeaning dialect).server run n)
    (hstart : run 0 = arrivals incoming rows₀ counter) :
    ∃ author : ℕ → ℕ,
      (∀ k < n, tablesAt run (k + 1) ≠ tablesAt run k →
        ∃ view, TakesEffect dialect incoming run n (author k) view k) ∧
      (∀ k < n, ∀ m < n, tablesAt run (k + 1) ≠ tablesAt run k →
        tablesAt run (m + 1) ≠ tablesAt run m → author k = author m → k = m) ∧
      ∀ i view, Replied incoming i view (run n) →
        ∃ k < n, TakesEffect dialect incoming run n i view k ∧
          (∀ m ≤ n, Replied incoming i view (run m) → k < m) ∧
          (tablesAt run (k + 1) ≠ tablesAt run k → author k = i) :=
  exists_author (overlap_of_run hrun hstart)

/-- Alice takes the pallet, at one moment. -/
theorem requests_linearizable_pallet :
    ∃ run n k view, run 0 = arrivals (fun _ => takingPallet) palletStands 2 ∧
      Replied (fun _ => takingPallet) 0 view (run n) ∧ k < n ∧
      TakesEffect byteDialect (fun _ => takingPallet) run n 0 view k := by
  obtain ⟨view, hrun⟩ : ∃ view, Program.Runs takingPallet.program takingEvents
      ⟨takingPallet.request, .ok view⟩ :=
    ⟨_, Program.runs_exec takingServer takingPallet.program ()⟩
  obtain ⟨after, hanswers⟩ := answers_takingPallet
  have hperformed : ∀ event ∈ takingEvents, event.1.performed event.2 = true := by
    simp [takingEvents, ExecutorCall.performed, Except.isOk, Except.toBool]
  obtain ⟨c, hreach, -, hreturned⟩ :=
    LoneSession.reachable_of_answers (c := arrivals (fun _ => takingPallet) palletStands 2) hrun
      hanswers hperformed rfl rfl rfl rfl
  obtain ⟨run, n, hstart, rfl, hsteps⟩ := run_of_reachable hreach
  obtain ⟨author, -, -, hreplies⟩ := requests_linearizable hsteps hstart
  obtain ⟨k, hk, heffect, -⟩ := hreplies 0 view hreturned
  exact ⟨run, n, k, view, hstart, hreturned, hk, heffect⟩

end Linearizable

end Warehouse.Backend
