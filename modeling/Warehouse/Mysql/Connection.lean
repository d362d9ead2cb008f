/-
# Warehouse.Mysql.Connection — the connection over libmysql

`MySqlConnection` of `connection.cpp`.  The calls of libmysql are an environment: each may succeed
or fail with any error number, and rows are whatever it says.  A failing call comes with the number
and text that `mysql_errno` and `mysql_error` (or their statement forms) report after it; a stored
result comes with the number of its rows, which are on the client from then on.
-/
import Warehouse.Interaction.History
import Warehouse.Mysql.ConnectionPool
import Warehouse.Mysql.Executor

namespace Warehouse.Mysql

open Warehouse.Interaction Warehouse.Interaction.Program

/-! ## libmysql -/

/-- What `mysql_errno` and `mysql_error` report. -/
structure LibraryError where
  code : ℕ
  message : Bytes
  deriving DecidableEq, Repr

/-- The calls that return zero or not. -/
inductive FallibleCall
  | realQuery (sql : Bytes)
  | stmtInit
  | stmtPrepare (sql : Bytes)
  | stmtBindParam (parameters : List SqlValue)
  | stmtSendLongData (index : ℕ) (chunk : Bytes)
  | stmtExecute
  | stmtBindResult
  deriving DecidableEq

/-- The calls of one execution. -/
inductive LibraryCall
  | ensureThreadContext
  | fallible (call : FallibleCall)
  | affectedRows
  | insertId
  | storeResult
  | fetchRow
  | stmtParamCount
  | stmtResultMetadata
  | stmtStoreResult
  | maxLengths
  | stmtFetch
  deriving DecidableEq

/-- `mysql_store_result`, and where it is null what `mysql_field_count` tells about it. -/
inductive StoredResult
  | noResult
  | failed (error : LibraryError)
  | rows (count : ℕ)

/-- `mysql_fetch_row`, and where it is null what `mysql_errno` says afterwards. -/
inductive FetchedRow
  | row (row : SqlRow)
  | ended (error : LibraryError)

/-- `mysql_stmt_fetch`; an error and a truncation are treated alike. -/
inductive StmtFetched
  | row (row : SqlRow)
  | noData
  | failed (error : LibraryError)

/-- What the calls return. -/
abbrev LibraryCall.Answer : LibraryCall → Type
  | .ensureThreadContext => Bool
  | .fallible _ => Option LibraryError
  | .affectedRows => ℕ
  | .insertId => ℕ
  | .storeResult => StoredResult
  | .fetchRow => FetchedRow
  | .stmtParamCount => ℕ
  | .stmtResultMetadata => Option ℕ
  | .stmtStoreResult => Except LibraryError ℕ
  | .maxLengths => List ℕ
  | .stmtFetch => StmtFetched

/-- Code that calls libmysql. -/
abbrev LibraryProgram : Type → Type := Program LibraryCall LibraryCall.Answer

/-! ## Errors -/

/-- `classify` -/
def classify (code : ℕ) : SqlErrorCode :=
  match code with
  | 1205 => .lockWaitTimeout
  | 1213 => .deadlock
  | 1062 => .constraint
  | 1451 => .constraint
  | 1452 => .constraint
  | 2006 => .connectionLost
  | 2013 => .connectionLost
  | _ => .statement

/-- `connectionError` and `statementError` -/
def sqlError (error : LibraryError) : SqlError := ⟨classify error.code, error.code, error.message⟩

/-- `connectionLost` -/
def connectionLost (error : SqlError) : Bool :=
  error.code = .connectionLost || error.code = .connection

/-- The error of an execution on a connection that is not usable. -/
def notReusable : SqlError := ⟨.connection, 0, lit "mysql connection is not reusable"⟩

/-! ## The connection -/

/-- `MySqlConnection`: whether there is a connection behind it, and `poisoned`. -/
structure MySqlConnection where
  connected : Bool
  poisoned : Bool := false
  deriving DecidableEq, Repr

/-- `MySqlConnection::reusable` -/
def MySqlConnection.reusable (c : MySqlConnection) : Bool := c.connected && !c.poisoned

/-- `MySqlConnection::poison` -/
def MySqlConnection.poison (c : MySqlConnection) : MySqlConnection := { c with poisoned := true }

/-- Code of an execution that may return an error, and says whether it has set `poisoned`. -/
abbrev Execution : Type → Type := ExceptT (SqlError × Bool) LibraryProgram

/-- `return SqlResult::failure(error)` -/
def fails {α : Type} (error : SqlError) : Execution α := throw (error, false)

/-- The same after `if (connectionLost(error)) impl_->poisoned = true`. -/
def failsPoisoning {α : Type} (error : SqlError) : Execution α := throw (error, connectionLost error)

/-- A call whose failure is returned as it is. -/
def orFail (call : FallibleCall) : Execution Unit := do
  match ← (perform (LibraryCall.fallible call) : LibraryProgram (Option LibraryError)) with
  | none => return ()
  | some error => fails (sqlError error)

/-- A call whose failure poisons the connection if that is lost. -/
def orPoison (call : FallibleCall) : Execution Unit := do
  match ← (perform (LibraryCall.fallible call) : LibraryProgram (Option LibraryError)) with
  | none => return ()
  | some error => failsPoisoning (sqlError error)

/-- The loop over `mysql_fetch_row`, for a stored result with that many rows. -/
def fetchRows : ℕ → List SqlRow → Execution (List SqlRow)
  | 0, rows => return rows
  | count + 1, rows => do
      match ← (perform LibraryCall.fetchRow : LibraryProgram FetchedRow) with
      | .row row => fetchRows count (rows ++ [row])
      | .ended error =>
          -- a null row is the end of the rows, or an error
          if error.code ≠ 0 then failsPoisoning (sqlError error) else return rows

/-- `executeTrusted` on a usable connection. -/
def trusted (sql : Bytes) : Execution SqlResponse := do
  orPoison (.realQuery sql)
  let affectedRows ← (perform LibraryCall.affectedRows : LibraryProgram ℕ)
  let lastInsertId ← (perform LibraryCall.insertId : LibraryProgram ℕ)
  match ← (perform LibraryCall.storeResult : LibraryProgram StoredResult) with
  | .failed error => failsPoisoning (sqlError error)
  | .noResult => return { affectedRows := affectedRows, lastInsertId := lastInsertId }
  | .rows count =>
      let rows ← fetchRows count []
      return { rows := rows, affectedRows := affectedRows, lastInsertId := lastInsertId }

/-- The largest `unsigned long`. -/
def maxChunk : ℕ := 2 ^ 64 - 1

/-- The pieces in which binary values are sent, with the index of their parameter. -/
def longData (parameters : List SqlValue) : List (ℕ × Bytes) :=
  parameters.zipIdx.flatMap fun parameter =>
    match parameter.1 with
    | .binary value => (value.toChunks maxChunk).map fun chunk => (parameter.2, chunk)
    | _ => []

/-- The loop over the pieces. -/
def sendLongData : List (ℕ × Bytes) → Execution Unit
  | [] => return ()
  | (index, chunk) :: rest => do
      orPoison (.stmtSendLongData index chunk)
      sendLongData rest

/-- The loop over `mysql_stmt_fetch`, for a stored result with that many rows. -/
def stmtFetchRows : ℕ → List SqlRow → Execution (List SqlRow)
  | 0, rows => return rows
  | count + 1, rows => do
      match ← (perform LibraryCall.stmtFetch : LibraryProgram StmtFetched) with
      | .noData => return rows
      | .failed error => fails (sqlError error)
      | .row row => stmtFetchRows count (rows ++ [row])

/-- The limit of a column. -/
def maxColumnBytes : ℕ := 16 * 1024 * 1024

/-- Binding the parameters, if there are any. -/
def bindParameters (parameters : List SqlValue) : Execution Unit :=
  if parameters.isEmpty then return () else orFail (.stmtBindParam parameters)

/-- Binding the columns, if there are any. -/
def bindColumns (columns : ℕ) : Execution Unit :=
  if columns > 0 then orFail .stmtBindResult else return ()

/-- The rows of a statement with that many columns. -/
def stmtRows (columns : ℕ) : Execution (List SqlRow) := do
  match ← (perform LibraryCall.stmtStoreResult : LibraryProgram (Except LibraryError ℕ)) with
  | .error error => fails (sqlError error)
  | .ok count =>
      let lengths ← (perform LibraryCall.maxLengths : LibraryProgram (List ℕ))
      -- checked for all columns before a single one is fetched
      if lengths.any fun length => length > maxColumnBytes then
        fails ⟨.invalidData, 0, lit "query result column exceeds safety limit"⟩
      else do
        bindColumns columns
        stmtFetchRows count []

/-- `executePrepared` on a usable connection. -/
def prepared (sql : Bytes) (parameters : List SqlValue) : Execution SqlResponse := do
  orFail .stmtInit
  orPoison (.stmtPrepare sql)
  let parameterCount ← (perform LibraryCall.stmtParamCount : LibraryProgram ℕ)
  if parameterCount ≠ parameters.length then
    fails ⟨.invalidData, 0, lit "prepared statement parameter count mismatch"⟩
  else do
    bindParameters parameters
    sendLongData (longData parameters)
    orPoison .stmtExecute
    let affectedRows ← (perform LibraryCall.affectedRows : LibraryProgram ℕ)
    let lastInsertId ← (perform LibraryCall.insertId : LibraryProgram ℕ)
    match ← (perform LibraryCall.stmtResultMetadata : LibraryProgram (Option ℕ)) with
    | none => return { affectedRows := affectedRows, lastInsertId := lastInsertId }
    | some columns =>
        let rows ← stmtRows columns
        return { rows := rows, affectedRows := affectedRows, lastInsertId := lastInsertId }

/-- What both executions begin with, and what becomes of the connection. -/
def onUsable (c : MySqlConnection) (body : Execution SqlResponse) :
    LibraryProgram (SqlResult × MySqlConnection) :=
  if !c.connected || c.poisoned then return (.error notReusable, c)
  else do
    if ← (perform LibraryCall.ensureThreadContext : LibraryProgram Bool) then
      match ← body.run with
      | .ok response => return (.ok response, c)
      | .error (error, poisons) => return (.error error, if poisons then c.poison else c)
    else return (.error notReusable, c)

/-- `MySqlConnection::executeTrusted` -/
def MySqlConnection.executeTrusted (c : MySqlConnection) (sql : Bytes) :
    LibraryProgram (SqlResult × MySqlConnection) :=
  onUsable c (trusted sql)

/-- `MySqlConnection::executePrepared` -/
def MySqlConnection.executePrepared (c : MySqlConnection) (sql : Bytes)
    (parameters : List SqlValue) : LibraryProgram (SqlResult × MySqlConnection) :=
  onUsable c (prepared sql parameters)

/-- Either execution: with values bound, or without. -/
def MySqlConnection.execute (c : MySqlConnection) (sql : Bytes) :
    Option (List SqlValue) → LibraryProgram (SqlResult × MySqlConnection)
  | none => c.executeTrusted sql
  | some parameters => c.executePrepared sql parameters

/-! ## Where a lost connection is overlooked -/

/-- The calls and answers of an execution. -/
abbrev LibraryHistory : Type := History LibraryCall LibraryCall.Answer

/-- The failures after which no code sets `poisoned`, although the connection is lost: those of
`mysql_stmt_init`, `mysql_stmt_bind_param`, `mysql_stmt_store_result`, `mysql_stmt_bind_result` and
`mysql_stmt_fetch` with such a number, and a thread that cannot be registered. -/
def overlooked : Event LibraryCall LibraryCall.Answer → Bool
  | ⟨.ensureThreadContext, registered⟩ => !registered
  | ⟨.fallible .stmtInit, some error⟩ => connectionLost (sqlError error)
  | ⟨.fallible (.stmtBindParam _), some error⟩ => connectionLost (sqlError error)
  | ⟨.fallible .stmtBindResult, some error⟩ => connectionLost (sqlError error)
  | ⟨.stmtStoreResult, .error error⟩ => connectionLost (sqlError error)
  | ⟨.stmtFetch, .failed error⟩ => connectionLost (sqlError error)
  | _ => false

/-- Nothing has been overlooked so far. -/
def Attentive (h : LibraryHistory) : Prop := ∀ event ∈ h, overlooked event = false

theorem attentive_snoc {h : LibraryHistory} {e : Event LibraryCall LibraryCall.Answer} :
    Attentive (h ++ [e]) ↔ Attentive h ∧ overlooked e = false := by
  unfold Attentive
  rw [List.forall_mem_append, List.forall_mem_singleton]

theorem Attentive.snoc {h : LibraryHistory} {e : Event LibraryCall LibraryCall.Answer}
    (hattentive : Attentive h) (he : overlooked e = false) : Attentive (h ++ [e]) :=
  attentive_snoc.mpr ⟨hattentive, he⟩

/-- The specification of a piece of an execution: if it falls through, nothing was overlooked; if it
fails, the flag is set for a lost connection exactly if nothing was. -/
abbrev Vigilant {α : Type} (body : Execution α) (h : LibraryHistory) : Prop :=
  wpx recording (demand fun _ _ => True) (fun _ h' => Attentive h')
    (fun e h' => (connectionLost e.1 = true → e.2 = true) ↔ Attentive h') body h

section Rules

variable {α β : Type} {h : LibraryHistory}

theorem vigilant_bind {body : Execution α} {next : α → Execution β} (hbody : Vigilant body h)
    (hnext : ∀ a h', Attentive h' → Vigilant (next a) h') : Vigilant (body >>= next) h := by
  refine (wpx_bind _ _ _).mpr (wpx_post hbody ?_ (fun _ _ hfails => hfails))
  exact fun a h' hattentive => hnext a h' hattentive

theorem vigilant_pure (a : α) (hattentive : Attentive h) : Vigilant (pure a : Execution α) h :=
  hattentive

/-- A call, when the code goes on with its answer. -/
theorem vigilant_call {op : LibraryCall} {next : op.Answer → Execution α}
    (hnext : ∀ answer, Vigilant (next answer) (h ++ [⟨op, answer⟩])) :
    Vigilant ((liftM (perform op) : Execution op.Answer) >>= next) h := by
  refine (wpx_bind _ _ _).mpr ((wpx_lift _ _).mpr ?_)
  rintro answer h' rfl
  exact ⟨trivial, hnext answer⟩

theorem vigilant_fails {error : SqlError}
    (hlost : (connectionLost error = false) ↔ Attentive h) : Vigilant (fails error : Execution α) h := by
  show (connectionLost error = true → false = true) ↔ Attentive h
  rw [← hlost]
  cases connectionLost error <;> simp

theorem vigilant_failsPoisoning (error : SqlError) (hattentive : Attentive h) :
    Vigilant (failsPoisoning error : Execution α) h :=
  ⟨fun _ => hattentive, fun _ hlost => hlost⟩

/-- After these calls the flag is set. -/
theorem vigilant_orPoison {call : FallibleCall} (hattentive : Attentive h)
    (hnot : ∀ answer, overlooked ⟨.fallible call, answer⟩ = false) : Vigilant (orPoison call) h := by
  refine vigilant_call fun answer => ?_
  have hstill : Attentive (h ++ [⟨.fallible call, answer⟩]) :=
    hattentive.snoc (hnot answer)
  cases answer with
  | none => exact vigilant_pure () hstill
  | some error => exact vigilant_failsPoisoning (sqlError error) hstill

/-- After these it is not. -/
theorem vigilant_orFail {call : FallibleCall} (hattentive : Attentive h)
    (hnone : overlooked ⟨.fallible call, none⟩ = false)
    (hsome : ∀ error, overlooked ⟨.fallible call, some error⟩ = connectionLost (sqlError error)) :
    Vigilant (orFail call) h := by
  refine vigilant_call fun answer => ?_
  cases answer with
  | none => exact vigilant_pure () (hattentive.snoc hnone)
  | some error =>
      apply vigilant_fails
      rw [attentive_snoc, hsome]
      exact (and_iff_right hattentive).symm

end Rules

/-! ## The two executions -/

section Executions

variable {h : LibraryHistory}

theorem vigilant_fetchRows (count : ℕ) (rows : List SqlRow) (hattentive : Attentive h) :
    Vigilant (fetchRows count rows) h := by
  induction count generalizing rows h with
  | zero => exact vigilant_pure rows hattentive
  | succ count ih =>
      refine vigilant_call fun answer => ?_
      have hstill : Attentive (h ++ [⟨.fetchRow, answer⟩]) := hattentive.snoc rfl
      cases answer with
      | row row => exact ih (rows ++ [row]) hstill
      | ended error =>
          dsimp only
          split
          · exact vigilant_failsPoisoning (sqlError error) hstill
          · exact vigilant_pure rows hstill

/-- The text protocol overlooks nothing. -/
theorem vigilant_trusted (sql : Bytes) (hattentive : Attentive h) : Vigilant (trusted sql) h := by
  refine vigilant_bind (vigilant_orPoison hattentive fun _ => rfl) fun _ h₁ h₁attentive => ?_
  refine vigilant_call fun affectedRows => vigilant_call fun lastInsertId => ?_
  have hnumbers : Attentive (h₁ ++ [⟨.affectedRows, affectedRows⟩] ++ [⟨.insertId, lastInsertId⟩]) :=
    (h₁attentive.snoc rfl).snoc rfl
  refine vigilant_call fun stored => ?_
  have hstored : Attentive (_ ++ [⟨.storeResult, stored⟩]) := hnumbers.snoc rfl
  cases stored with
  | failed error => exact vigilant_failsPoisoning (sqlError error) hstored
  | noResult => exact vigilant_pure _ hstored
  | rows count =>
      exact vigilant_bind (vigilant_fetchRows count [] hstored) fun rows _ hrows =>
        vigilant_pure _ hrows

theorem vigilant_sendLongData (pieces : List (ℕ × Bytes)) (hattentive : Attentive h) :
    Vigilant (sendLongData pieces) h := by
  induction pieces generalizing h with
  | nil => exact vigilant_pure () hattentive
  | cons piece rest ih =>
      exact vigilant_bind (vigilant_orPoison hattentive fun _ => rfl) fun _ _ hstill => ih hstill

theorem vigilant_stmtFetchRows (count : ℕ) (rows : List SqlRow) (hattentive : Attentive h) :
    Vigilant (stmtFetchRows count rows) h := by
  induction count generalizing rows h with
  | zero => exact vigilant_pure rows hattentive
  | succ count ih =>
      refine vigilant_call fun answer => ?_
      cases answer with
      | noData => exact vigilant_pure rows (hattentive.snoc rfl)
      | row row => exact ih (rows ++ [row]) (hattentive.snoc rfl)
      | failed error =>
          apply vigilant_fails
          rw [attentive_snoc]
          exact (and_iff_right hattentive).symm

theorem vigilant_bindColumns (columns : ℕ) (hattentive : Attentive h) :
    Vigilant (bindColumns columns) h := by
  unfold bindColumns
  split
  · exact vigilant_orFail hattentive rfl fun _ => rfl
  · exact vigilant_pure () hattentive

theorem vigilant_bindParameters (parameters : List SqlValue) (hattentive : Attentive h) :
    Vigilant (bindParameters parameters) h := by
  unfold bindParameters
  split
  · exact vigilant_pure () hattentive
  · exact vigilant_orFail hattentive rfl fun _ => rfl

theorem vigilant_stmtRows (columns : ℕ) (hattentive : Attentive h) :
    Vigilant (stmtRows columns) h := by
  refine vigilant_call fun stored => ?_
  cases stored with
  | error error =>
      apply vigilant_fails
      rw [attentive_snoc]
      exact (and_iff_right hattentive).symm
  | ok count =>
      have hstored : Attentive (h ++ [⟨.stmtStoreResult, .ok count⟩]) :=
        hattentive.snoc rfl
      refine vigilant_call fun lengths => ?_
      have hlengths : Attentive (_ ++ [⟨.maxLengths, lengths⟩]) := hstored.snoc rfl
      split
      · exact vigilant_fails ⟨fun _ => hlengths, fun _ => rfl⟩
      · exact vigilant_bind (vigilant_bindColumns columns hlengths) fun _ _ hstill =>
          vigilant_stmtFetchRows count [] hstill

/-- The statement protocol fails to set the flag exactly where it overlooks something. -/
theorem vigilant_prepared (sql : Bytes) (parameters : List SqlValue) (hattentive : Attentive h) :
    Vigilant (prepared sql parameters) h := by
  refine vigilant_bind (vigilant_orFail hattentive rfl fun _ => rfl) fun _ h₁ h₁attentive => ?_
  refine vigilant_bind (vigilant_orPoison h₁attentive fun _ => rfl) fun _ h₂ h₂attentive => ?_
  refine vigilant_call fun parameterCount => ?_
  have h₃attentive : Attentive (h₂ ++ [⟨.stmtParamCount, parameterCount⟩]) :=
    h₂attentive.snoc rfl
  split
  · exact vigilant_fails ⟨fun _ => h₃attentive, fun _ => rfl⟩
  refine vigilant_bind (vigilant_bindParameters parameters h₃attentive) fun _ h₄ h₄attentive => ?_
  refine vigilant_bind (vigilant_sendLongData _ h₄attentive) fun _ h₅ h₅attentive => ?_
  refine vigilant_bind (vigilant_orPoison h₅attentive fun _ => rfl) fun _ h₆ h₆attentive => ?_
  refine vigilant_call fun affectedRows => vigilant_call fun lastInsertId => ?_
  have hnumbers : Attentive (h₆ ++ [⟨.affectedRows, affectedRows⟩] ++ [⟨.insertId, lastInsertId⟩]) :=
    (h₆attentive.snoc rfl).snoc rfl
  refine vigilant_call fun metadata => ?_
  have hmetadata : Attentive (_ ++ [⟨.stmtResultMetadata, metadata⟩]) := hnumbers.snoc rfl
  cases metadata with
  | none => exact vigilant_pure _ hmetadata
  | some columns =>
      exact vigilant_bind (vigilant_stmtRows columns hmetadata) fun rows _ hrows =>
        vigilant_pure _ hrows

end Executions

/-! ## What the pool makes of it -/

/-- The connection is not offered again: `giveBack` drops it. -/
def Discarded (c : MySqlConnection) : Prop :=
  c.reusable = false ∧
    ∀ pool : ConnectionPool MySqlConnection,
      (pool.giveBack (some c) c.reusable).available = pool.available

theorem discarded_iff (c : MySqlConnection) : Discarded c ↔ c.reusable = false := by
  constructor
  · exact fun hdiscarded => hdiscarded.1
  · intro hreusable
    refine ⟨hreusable, fun pool => ?_⟩
    rw [hreusable]
    simp [ConnectionPool.giveBack]

/-- If an execution reports that the connection is lost, the connection is discarded. -/
def LostIsDiscarded (outcome : SqlResult × MySqlConnection) : Prop :=
  ∀ error, outcome.1 = .error error → connectionLost error = true → Discarded outcome.2

theorem onUsable_spec (c : MySqlConnection) (body : Execution SqlResponse)
    (hbody : ∀ h, Attentive h → Vigilant body h) :
    wph (fun _ _ => True) (fun outcome h => LostIsDiscarded outcome ↔ Attentive h)
      (onUsable c body) [] := by
  have hempty : Attentive [] := fun event hevent => absurd hevent List.not_mem_nil
  unfold onUsable
  split
  · rename_i hunusable
    have hreusable : c.reusable = false := by
      rw [MySqlConnection.reusable]
      cases hconnected : c.connected <;> simp_all
    exact ⟨fun _ => hempty, fun _ error _ _ => (discarded_iff c).mpr hreusable⟩
  · rename_i husable
    have hreusable : c.reusable = true := by
      rw [MySqlConnection.reusable]
      cases hconnected : c.connected <;> simp_all
    refine (wph_call LibraryCall.ensureThreadContext _ []).mpr fun registered => ⟨trivial, ?_⟩
    cases registered with
    | false =>
        -- the thread is not registered, and nothing is said to the connection
        constructor
        · intro hlost
          have hdiscarded := (hlost notReusable rfl rfl).1
          rw [hreusable] at hdiscarded
          cases hdiscarded
        · intro hattentive
          cases hattentive _ (List.mem_singleton.mpr rfl)
    | true =>
        have hregistered : Attentive [⟨.ensureThreadContext, true⟩] := hempty.snoc rfl
        refine (wp_bind body.run _ _).mpr (wp_post (hbody _ hregistered) ?_)
        intro outcome h hvigilant
        cases outcome with
        | ok response =>
            have hattentive : Attentive h := hvigilant
            exact ⟨fun _ => hattentive, fun _ error herror => by cases herror⟩
        | error e =>
            obtain ⟨error, poisons⟩ := e
            have hspec : (connectionLost error = true → poisons = true) ↔ Attentive h := hvigilant
            have hkept : (if poisons then c.poison else c).reusable = !poisons := by
              cases poisons
              · exact hreusable
              · simp [MySqlConnection.reusable, MySqlConnection.poison]
            show LostIsDiscarded (.error error, if poisons then c.poison else c) ↔ Attentive h
            rw [← hspec]
            constructor
            · intro hlost herror
              have hdiscarded := (hlost error rfl herror).1
              rw [hkept] at hdiscarded
              simpa using hdiscarded
            · rintro hpoisons _ ⟨⟩ herror
              rw [discarded_iff, hkept, hpoisons herror]
              rfl

/-- Lost connections.  For every connection, statement, parameter list and sequence of outcomes of
the libmysql calls: a failure that reports a lost connection leaves a connection that the pool
discards if and only if none of the calls failed at which the code forgets to look. -/
theorem lostConnection_iff {c c' : MySqlConnection} {sql : Bytes}
    {parameters : Option (List SqlValue)} {events : LibraryHistory} {result : SqlResult}
    (hrun : Runs (c.execute sql parameters) events (result, c')) :
    (∀ error, result = .error error → connectionLost error = true → Discarded c') ↔
      ∀ event ∈ events, overlooked event = false := by
  have hspec : wph (fun _ _ => True) (fun outcome h => LostIsDiscarded outcome ↔ Attentive h)
      (c.execute sql parameters) [] := by
    cases parameters with
    | none => exact onUsable_spec c _ fun h hattentive => vigilant_trusted sql hattentive
    | some parameters =>
        exact onUsable_spec c _ fun h hattentive => vigilant_prepared sql parameters hattentive
  exact (runs_of_wp hspec hrun).1

/-- A server that goes away while the rows of a statement are fetched. -/
private def goingAway : (op : LibraryCall) → Unit → op.Answer × Unit
  | .ensureThreadContext, s => (true, s)
  | .fallible _, s => (none, s)
  | .affectedRows, s => (0, s)
  | .insertId, s => (0, s)
  | .storeResult, s => (.noResult, s)
  | .fetchRow, s => (.ended ⟨0, []⟩, s)
  | .stmtParamCount, s => (0, s)
  | .stmtResultMetadata, s => (some 1, s)
  | .stmtStoreResult, s => (.error ⟨2013, lit "Lost connection to MySQL server during query"⟩, s)
  | .maxLengths, s => ([], s)
  | .stmtFetch, s => (.noData, s)

/-- The loss is reported, and the connection goes back into the pool. -/
theorem lostConnection_reoffered :
    ∃ (c c' : MySqlConnection) (events : LibraryHistory) (error : SqlError),
      Runs (c.executePrepared (lit "SELECT COUNT(*) FROM users WHERE role='admin'") []) events
          (.error error, c') ∧
        error.code = .connectionLost ∧ c'.reusable = true ∧ ¬ Discarded c' := by
  let c : MySqlConnection := { connected := true }
  let program := c.executePrepared (lit "SELECT COUNT(*) FROM users WHERE role='admin'") []
  have hrun := runs_exec goingAway program ()
  have hresult : (program.exec goingAway ()).2 =
      (.error ⟨.connectionLost, 2013, lit "Lost connection to MySQL server during query"⟩, c) := rfl
  rw [hresult] at hrun
  refine ⟨c, c, _, _, hrun, rfl, rfl, ?_⟩
  rw [discarded_iff]
  decide

/-- A server that is gone. -/
private def gone : (op : LibraryCall) → Unit → op.Answer × Unit
  | .fallible _, s => (some ⟨2006, lit "MySQL server has gone away"⟩, s)
  | op, s => goingAway op s

/-- The text protocol notices the loss, and the connection is discarded. -/
theorem lostConnection_iff_noticed :
    ∃ (c c' : MySqlConnection) (events : LibraryHistory) (error : SqlError),
      Runs (c.execute (lit "COMMIT") none) events (.error error, c') ∧
        error.code = .connectionLost ∧ Discarded c' := by
  let c : MySqlConnection := { connected := true }
  let events : LibraryHistory :=
    [⟨.ensureThreadContext, true⟩,
      ⟨.fallible (.realQuery (lit "COMMIT")), some ⟨2006, lit "MySQL server has gone away"⟩⟩]
  have hrun : Runs (c.execute (lit "COMMIT") none) events
      (.error ⟨.connectionLost, 2006, lit "MySQL server has gone away"⟩, c.poison) :=
    runs_exec gone (c.execute (lit "COMMIT") none) ()
  have hattentive : ∀ event ∈ events, overlooked event = false := by
    simp [events, overlooked]
  exact ⟨c, c.poison, events, _, hrun, rfl, (lostConnection_iff hrun).mpr hattentive _ rfl rfl⟩

end Warehouse.Mysql
