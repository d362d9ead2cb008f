/-
# Warehouse.Backend.RequestScript — what a request sends, and upon what

A request has one transaction, and in it a script: which statement comes first, and which may follow
upon the answers so far.  The scripts are short, but they say more than the statements alone do: a
password is replaced only upon a row that was read and locked by the same transaction and whose hash
has verified the password of the request; goods are read back only upon the write that they show.

A request that succeeds has been through its script to the end, and shows what it was answered there;
and one that is refused because of what is stored has been answered that.
-/
import Warehouse.Backend.GoodsLedger
import Warehouse.Interaction.Followers

namespace Warehouse.Backend

open Warehouse.Interaction Warehouse.Mysql

/-! ## The scripts -/

/-- The execution of a statement that was answered. -/
def did (statement : LegacyStatement) (response : SqlResponse) :
    Event (ExecutorCall LegacyStatement) ExecutorCall.Answer := ⟨.execute statement, .ok response⟩

/-- The goods that a command stores. -/
def newGoods (command : CreateGoodsCommand) (principal : LegacyPrincipal) : NewGoods where
  name := normalizeField command.name
  location := if (normalizeField command.location).isEmpty then defaultLocation
    else normalizeField command.location
  operatorName := principal.username

/-- Somebody whom the token of the command stands for, and who may write. -/
def Writer (s : ServiceState) (token : Bytes) (principal : LegacyPrincipal) : Prop :=
  s.sessions token = some principal ∧ canWrite principal = true

/-- The new hash of a user whose password has been verified. -/
structure Rehashed (host : Host) (command : LoginCommand) (user : UserRecord) (hash : Bytes) :
    Prop where
  verified : host.verify user.passwordHash command.password = true
  outdated : host.needsRehash user.passwordHash = true
  hashed : ∃ n, host.hash n command.password = .ok hash

/-- What a request may send when its transaction has executed this. -/
inductive Script (host : Host) (s : ServiceState) :
    Request → SqlHistory LegacyStatement → LegacyStatement → Prop
  | findUser {command : LoginCommand} :
      Script host s (.login command) [] (.findUser command.username true)
  | upgrade {command : LoginCommand} {response : SqlResponse} {user : UserRecord} {hash : Bytes} :
      readUser response.rows = .ok (some user) → Rehashed host command user hash →
      Script host s (.login command) [did (.findUser command.username true) response]
        (.updatePassword hash user.id)
  | list {query : ListGoodsQuery} :
      Script host s (.listGoods query) []
        (.listGoods ⟨lowercaseAscii query.name, query.status⟩)
  | insert {command : CreateGoodsCommand} {principal : LegacyPrincipal} :
      Writer s command.auth principal → normalizeField command.name ≠ [] →
      Script host s (.createGoods command) [] (.insertGoods (newGoods command principal))
  | readBack {command : CreateGoodsCommand} {principal : LegacyPrincipal} {response : SqlResponse} :
      Writer s command.auth principal → normalizeField command.name ≠ [] →
      Script host s (.createGoods command)
        [did (.insertGoods (newGoods command principal)) response]
        (.selectGoods (toInt64 response.lastInsertId))
  | take {command : TakeGoodsCommand} {principal : LegacyPrincipal} {id : ℤ} :
      Writer s command.auth principal → parseGoodsId command.suppliedId = some id →
      Script host s (.takeGoods command) [] (.takeGoods principal.username id)
  | lockStatus {command : TakeGoodsCommand} {principal : LegacyPrincipal} {id : ℤ}
      {response : SqlResponse} :
      Writer s command.auth principal → parseGoodsId command.suppliedId = some id →
      response.affectedRows ≠ 1 →
      Script host s (.takeGoods command) [did (.takeGoods principal.username id) response]
        (.lockStatus id)
  | readTaken {command : TakeGoodsCommand} {principal : LegacyPrincipal} {id : ℤ}
      {response : SqlResponse} :
      Writer s command.auth principal → parseGoodsId command.suppliedId = some id →
      response.affectedRows = 1 →
      Script host s (.takeGoods command) [did (.takeGoods principal.username id) response]
        (.selectGoods id)

/-- Calls to the executor that keep to the script. -/
def Scripted (host : Host) (s : ServiceState) (request : Request)
    (executed : SqlHistory LegacyStatement) : ExecutorCall LegacyStatement → Prop :=
  Sending (Script host s request executed)

theorem scripted {host : Host} {s : ServiceState} {request : Request}
    {executed : SqlHistory LegacyStatement} {statement : LegacyStatement}
    (h : Script host s request executed statement) :
    Scripted host s request executed (.execute statement) := by
  intro other hother
  obtain rfl := ExecutorCall.execute.inj hother
  exact h

/-- The view of a request that has succeeded, by what its transaction was answered. -/
inductive Reported (host : Host) (s : ServiceState) :
    (request : Request) → request.View → SqlHistory LegacyStatement → Prop
  | login {command : LoginCommand} {response : SqlResponse} {user : UserRecord} {view : LoginView} :
      readUser response.rows = .ok (some user) →
      host.verify user.passwordHash command.password = true →
      host.needsRehash user.passwordHash = false →
      view.username = user.username → view.role = user.role →
      Reported host s (.login command) view [did (.findUser command.username true) response]
  | upgraded {command : LoginCommand} {response response' : SqlResponse} {user : UserRecord}
      {hash : Bytes} {view : LoginView} :
      readUser response.rows = .ok (some user) → Rehashed host command user hash →
      response'.affectedRows = 1 → view.username = user.username → view.role = user.role →
      Reported host s (.login command) view
        [did (.findUser command.username true) response,
          did (.updatePassword hash user.id) response']
  | listed {query : ListGoodsQuery} {response : SqlResponse} {records : List GoodsRecord} :
      response.rows.mapM parseGoodsRecord = .ok records →
      Reported host s (.listGoods query) (records.map toView)
        [did (.listGoods ⟨lowercaseAscii query.name, query.status⟩) response]
  | created {command : CreateGoodsCommand} {principal : LegacyPrincipal}
      {response response' : SqlResponse} {record : GoodsRecord} :
      Writer s command.auth principal → normalizeField command.name ≠ [] →
      readGoods response'.rows = .ok (some record) →
      Reported host s (.createGoods command) (toView record)
        [did (.insertGoods (newGoods command principal)) response,
          did (.selectGoods (toInt64 response.lastInsertId)) response']
  | taken {command : TakeGoodsCommand} {principal : LegacyPrincipal} {id : ℤ}
      {response response' : SqlResponse} {record : GoodsRecord} :
      Writer s command.auth principal → parseGoodsId command.suppliedId = some id →
      response.affectedRows = 1 → readGoods response'.rows = .ok (some record) →
      Reported host s (.takeGoods command) (toView record)
        [did (.takeGoods principal.username id) response, did (.selectGoods id) response']

theorem Reported.settled_ne_nil {host : Host} {s : ServiceState} {request : Request}
    {view : request.View} {settled : SqlHistory LegacyStatement}
    (h : Reported host s request view settled) : settled ≠ [] := by
  cases h <;> simp

/-- What a refusal because of what is stored says of what the transaction was answered.  Goods count
as taken if there is a row of them after an `UPDATE` that changed none. -/
def Refused (host : Host) (s : ServiceState) :
    Request → LegacyApplicationErrorCode → SqlHistory LegacyStatement → Prop
  | .login command, .invalidCredentials, heard => ∃ response,
      heard = [did (.findUser command.username true) response] ∧
      (readUser response.rows = .ok none ∨ ∃ user, readUser response.rows = .ok (some user) ∧
        host.verify user.passwordHash command.password = false)
  | .takeGoods command, .goodsNotFound, heard => ∃ principal id response status,
      Writer s command.auth principal ∧ parseGoodsId command.suppliedId = some id ∧
      heard = [did (.takeGoods principal.username id) response, did (.lockStatus id) status] ∧
      response.affectedRows ≠ 1 ∧ status.rows.isEmpty = true
  | .takeGoods command, .goodsAlreadyTaken, heard => ∃ principal id response status,
      Writer s command.auth principal ∧ parseGoodsId command.suppliedId = some id ∧
      heard = [did (.takeGoods principal.username id) response, did (.lockStatus id) status] ∧
      response.affectedRows ≠ 1 ∧ status.rows.isEmpty = false
  | _, _, _ => True

/-! ## The executor, followed -/

section Executor

open Program

variable {dialect : Dialect} {T : SqlHistory LegacyStatement → ExecutorCall LegacyStatement → Prop}
  {executed : SqlHistory LegacyStatement} {α : Type}

/-- What is known of a request. -/
abbrev SqlFollower : Type := Follower (ExecutorCall LegacyStatement) ExecutorCall.Answer

/-- Code of a request that keeps to `T`, followed. -/
abbrev Follows (dialect : Dialect)
    (T : SqlHistory LegacyStatement → ExecutorCall LegacyStatement → Prop)
    (Q : α → SqlFollower → Prop) (p : LegacyProgram α) (w : SqlFollower) : Prop :=
  p.wp (following (legacyMeaning dialect).server) (Proper (legacyMeaning dialect).server T) Q w

/-- The transaction is open and has executed this; nothing was committed before. -/
structure Within (executed : SqlHistory LegacyStatement) (w : SqlFollower) : Prop where
  opened : w.notes.opened = some executed
  settled : w.notes.settled = []
  stage : w.stage = .opened
  heard : w.heard = executed

variable {w : SqlFollower}

/-- A statement, sent upon what the transaction has executed. -/
theorem follows_execute {statement : LegacyStatement} {Q : SqlResult → SqlFollower → Prop}
    (hw : Within executed w) (hallowed : T executed (.execute statement))
    (hfailed : ∀ e w', Follower.stage w' = .opened → Q (.error e) w')
    (hok : ∀ response w', Within (executed ++ [did statement response]) w' →
      Q (.ok response) w') :
    Follows dialect T Q (execute statement) w := by
  rintro answer w' rfl
  refine ⟨⟨hw.stage, fun _ => ⟨executed, hw.opened, hallowed⟩⟩, ?_⟩
  cases answer with
  | error e => exact hfailed e _ rfl
  | ok response =>
      apply hok
      have hopened : (w.follow (legacyMeaning dialect).server (.execute statement)
          (.ok response)).notes.opened = some (executed ++ [did statement response]) := by
        show w.notes.opened.map (· ++ [_]) = _
        rw [hw.opened]
        rfl
      refine ⟨hopened, hw.settled, rfl, ?_⟩
      have hheard : (w.follow (legacyMeaning dialect).server (.execute statement)
          (.ok response)).heard = (w.follow (legacyMeaning dialect).server (.execute statement)
          (.ok response)).notes.opened.getD w.heard := rfl
      rw [hheard, hopened]
      rfl

/-- The beginning of the transaction. -/
theorem follows_begin {mode : WorkUnitMode} {Q : Except WorkUnitFailure Transaction → SqlFollower → Prop}
    (hstage : w.stage = .fresh) (hsettled : w.notes.settled = [])
    (hfailed : ∀ f w', Follower.stage w' ≠ .submitted → Q (.error f) w') (hok : ∀ w', Within [] w' → Q (.ok Transaction.opened) w') :
    Follows dialect T Q (Transaction.begin mode) w := by
  rintro isolated w' rfl
  refine ⟨⟨trivial, fun hrole => by cases hrole⟩, ?_⟩
  cases isolated with
  | error e =>
      rintro _ w' rfl
      refine ⟨⟨trivial, fun hrole => by cases hrole⟩, hfailed _ _ ?_⟩
      show w.stage ≠ .submitted
      simp [hstage]
  | ok response =>
      rintro started w' rfl
      refine ⟨⟨hstage, fun hrole => by cases hrole⟩, ?_⟩
      cases started with
      | error e =>
          rintro _ w' rfl
          refine ⟨⟨trivial, fun hrole => by cases hrole⟩, hfailed _ _ ?_⟩
          show Stage.opened ≠ .submitted
          decide
      | ok response => exact hok _ ⟨rfl, hsettled, rfl, rfl⟩

/-- After a rollback what was heard is still known. -/
theorem follows_rollback (hstage : w.stage = .opened) :
    Follows dialect T (fun t w' => t.active = false ∧ w'.heard = w.heard ∧ w'.stage = .over)
      Transaction.opened.rollback w := by
  rintro answer w' rfl
  refine ⟨⟨hstage, fun hrole => by cases hrole⟩, ?_⟩
  cases answer with
  | error e =>
      rintro _ w' rfl
      exact ⟨⟨trivial, fun hrole => by cases hrole⟩, rfl, rfl, rfl⟩
  | ok response => exact ⟨rfl, rfl, rfl⟩

/-- A commit that is answered settles what was executed. -/
theorem follows_commit (hw : Within executed w) :
    Follows dialect T (fun ended w' => ended.2.active = false ∧ w'.heard = executed ∧
      ∀ done, ended.1 = .ok done → w'.notes.settled = executed) Transaction.opened.commit w := by
  rintro answer w' rfl
  refine ⟨⟨hw.stage, fun hrole => by cases hrole⟩, ?_⟩
  cases answer with
  | error e =>
      rintro _ w' rfl
      refine ⟨⟨trivial, fun hrole => by cases hrole⟩, rfl, hw.heard, ?_⟩
      intro done hdone
      cases hdone
  | ok response =>
      refine ⟨rfl, hw.heard, ?_⟩
      intro done _
      show w.notes.settled ++ w.notes.opened.getD [] = executed
      rw [hw.settled, hw.opened]
      rfl

end Executor

/-! ## The repositories -/

section Repositories

open Program

variable {dialect : Dialect} {T : SqlHistory LegacyStatement → ExecutorCall LegacyStatement → Prop}
  {w : SqlFollower} {executed : SqlHistory LegacyStatement} {α : Type}

/-- Code of a repository: if it succeeds, the transaction has executed some more, which meets `Q`. -/
abbrev Adds (dialect : Dialect) (T : SqlHistory LegacyStatement → ExecutorCall LegacyStatement → Prop)
    (executed : SqlHistory LegacyStatement) (Q : α → SqlHistory LegacyStatement → Prop)
    (p : LegacyProgram (Except PersistenceFailure α)) (w : SqlFollower) : Prop :=
  Follows dialect T (fun answer w' => w'.stage = .opened ∧
    ∀ value, answer = .ok value → ∃ more, Within (executed ++ more) w' ∧ Q value more) p w

/-- A failure promises nothing. -/
theorem adds_failed {Q : α → SqlHistory LegacyStatement → Prop} (f : PersistenceFailure)
    (hstage : w.stage = .opened) : Adds dialect T executed Q (.ret (.error f)) w := by
  refine ⟨hstage, ?_⟩
  intro value hvalue
  cases hvalue

/-- Nothing more is executed. -/
theorem adds_ret {Q : α → SqlHistory LegacyStatement → Prop} {answer : Except PersistenceFailure α}
    (hw : Within executed w) (hQ : ∀ value, answer = .ok value → Q value []) :
    Adds dialect T executed Q (.ret answer) w := by
  refine ⟨hw.stage, ?_⟩
  intro value hanswer
  exact ⟨[], by rwa [List.append_nil], hQ value hanswer⟩

/-- One statement, and what follows it. -/
theorem adds_execute {statement : LegacyStatement} {Q : α → SqlHistory LegacyStatement → Prop}
    {next : SqlResult → LegacyProgram (Except PersistenceFailure α)} (hw : Within executed w)
    (hallowed : T executed (.execute statement)) (hfailed : ∀ e, ∃ f, next (.error e) = .ret (.error f))
    (hok : ∀ response w', Within (executed ++ [did statement response]) w' →
      Adds dialect T (executed ++ [did statement response])
        (fun value more => Q value (did statement response :: more)) (next (.ok response)) w') :
    Adds dialect T executed Q (execute statement >>= next) w := by
  rw [Adds, Follows, wp_bind]
  apply follows_execute hw hallowed
  · intro e w' hstage
    obtain ⟨f, hnext⟩ := hfailed e
    rw [hnext]
    exact adds_failed (T := T) (Q := Q) f hstage
  · intro response w' hw'
    apply wp_post (hok response w' hw')
    intro answer w'' hw''
    obtain ⟨hstage, hvalue⟩ := hw''
    refine ⟨hstage, ?_⟩
    intro value hanswer
    obtain ⟨more, hmore, hQ⟩ := hvalue value hanswer
    rw [List.append_assoc] at hmore
    exact ⟨_, hmore, hQ⟩

theorem adds_findByUsername {username : Bytes} (hw : Within executed w)
    (hallowed : T executed (.execute (.findUser username true))) :
    Adds dialect T executed (fun user more => ∃ response,
      more = [did (.findUser username true) response] ∧ readUser response.rows = .ok user)
      (findByUsername username true) w := by
  apply adds_execute hw hallowed
  · exact fun e => ⟨_, rfl⟩
  · intro response w' hw'
    exact adds_ret hw' fun user hread => ⟨response, rfl, hread⟩

theorem adds_updatePasswordHash {userId : ℕ} {hash : Bytes} (hw : Within executed w)
    (hallowed : T executed (.execute (.updatePassword hash userId))) :
    Adds dialect T executed (fun _ more => ∃ response,
      more = [did (.updatePassword hash userId) response] ∧ response.affectedRows = 1)
      (updatePasswordHash userId hash) w := by
  apply adds_execute hw hallowed
  · exact fun e => ⟨_, rfl⟩
  · intro response w' hw'
    show Adds _ _ _ _ (ite (response.affectedRows ≠ 1) _ _) w'
    split
    · exact adds_failed _ hw'.stage
    · rename_i haffected
      exact adds_ret hw' fun _ _ => ⟨response, rfl, not_not.mp haffected⟩

theorem adds_list {filter : GoodsFilter} (hw : Within executed w)
    (hallowed : T executed (.execute (.listGoods filter))) :
    Adds dialect T executed (fun records more => ∃ response,
      more = [did (.listGoods filter) response] ∧
        response.rows.mapM parseGoodsRecord = .ok records) (list filter) w := by
  apply adds_execute hw hallowed
  · exact fun e => ⟨_, rfl⟩
  · intro response w' hw'
    exact adds_ret hw' fun records hread => ⟨response, rfl, hread⟩

theorem adds_findById {goodsId : ℤ} (hw : Within executed w)
    (hallowed : T executed (.execute (.selectGoods goodsId))) :
    Adds dialect T executed (fun found more => ∃ response,
      more = [did (.selectGoods goodsId) response] ∧ readGoods response.rows = .ok found)
      (findById goodsId) w := by
  apply adds_execute hw hallowed
  · exact fun e => ⟨_, rfl⟩
  · intro response w' hw'
    exact adds_ret hw' fun found hread => ⟨response, rfl, hread⟩

theorem adds_create {goods : NewGoods} (hw : Within executed w)
    (hinsert : T executed (.execute (.insertGoods goods)))
    (hselect : ∀ response, T (executed ++ [did (.insertGoods goods) response])
      (.execute (.selectGoods (toInt64 response.lastInsertId)))) :
    Adds dialect T executed (fun record more => ∃ response response',
      more = [did (.insertGoods goods) response,
        did (.selectGoods (toInt64 response.lastInsertId)) response'] ∧
      readGoods response'.rows = .ok (some record)) (create goods) w := by
  apply adds_execute hw hinsert
  · exact fun e => ⟨_, rfl⟩
  · intro response w' hw'
    show Adds _ _ _ _ (findById _ >>= _) w'
    rw [Adds, Follows, wp_bind]
    apply wp_post (adds_findById hw' (hselect response))
    intro found w'' hfound
    obtain ⟨hstage, hfound⟩ := hfound
    rcases found with f | _ | record
    · exact adds_failed (T := T) f hstage
    · exact adds_failed (T := T) _ hstage
    · obtain ⟨more, hmore, response', rfl, hread⟩ := hfound (some record) rfl
      refine ⟨hstage, ?_⟩
      intro created hcreated
      obtain rfl := Except.ok.inj hcreated
      exact ⟨_, hmore, response, response', rfl, hread⟩

/-- Goods are marked as taken upon an `UPDATE` that affected one row; if it affected none, the second
statement tells whether there are such goods. -/
theorem adds_markTaken {goodsId : ℤ} {operatorName : Bytes} (hw : Within executed w)
    (htake : T executed (.execute (.takeGoods operatorName goodsId)))
    (hlock : ∀ response, SqlResponse.affectedRows response ≠ 1 →
      T (executed ++ [did (.takeGoods operatorName goodsId) response])
        (.execute (.lockStatus goodsId))) :
    Adds dialect T executed (fun outcome more => ∃ response,
      match outcome with
      | .taken => more = [did (.takeGoods operatorName goodsId) response] ∧ response.affectedRows = 1
      | outcome => response.affectedRows ≠ 1 ∧ ∃ status,
          more = [did (.takeGoods operatorName goodsId) response, did (.lockStatus goodsId) status] ∧
          (status.rows.isEmpty = true ↔ outcome = .notFound))
      (markTaken goodsId operatorName) w := by
  apply adds_execute hw htake
  · exact fun e => ⟨_, rfl⟩
  · intro response w' hw'
    show Adds _ _ _ _ (ite (response.affectedRows = 1) _ _) w'
    split
    · rename_i haffected
      apply adds_ret hw'
      intro outcome houtcome
      obtain rfl := Except.ok.inj houtcome
      exact ⟨response, rfl, haffected⟩
    · rename_i haffected
      apply adds_execute hw' (hlock response haffected)
      · exact fun e => ⟨_, rfl⟩
      · intro status w'' hw''
        show Adds _ _ _ _ (ite (status.rows.isEmpty = true) _ _) w''
        split
        · rename_i hempty
          apply adds_ret hw''
          intro outcome houtcome
          obtain rfl := Except.ok.inj houtcome
          exact ⟨response, haffected, status, rfl, by simpa using hempty⟩
        · rename_i hfound
          apply adds_ret hw''
          intro outcome houtcome
          obtain rfl := Except.ok.inj houtcome
          exact ⟨response, haffected, status, rfl, by simpa using hfound⟩

end Repositories

/-! ## The use cases -/

section UseCases

open Program

variable {dialect : Dialect} {host : Host} {lease : Except SqlError Unit} {s s₀ : ServiceState}
  {T : SqlHistory LegacyStatement → ExecutorCall LegacyStatement → Prop}
  {w : SqlFollower} {executed : SqlHistory LegacyStatement} {α : Type}
  {code : LegacyApplicationErrorCode} {P : α → SqlHistory LegacyStatement → Prop}
  {R : LegacyApplicationErrorCode → SqlHistory LegacyStatement → Prop}

/-- What is reported when a commit is answered by a failure. -/
def commitFailures : List LegacyApplicationErrorCode :=
  [.persistenceReadFailed, .persistenceCreateFailed, .persistenceTakeFailed]

/-- A success says `P` of what was settled, and a refusal `R` of what was heard; after a commit was
sent, nothing else is reported than that it failed. -/
def Says (P : α → SqlHistory LegacyStatement → Prop)
    (R : LegacyApplicationErrorCode → SqlHistory LegacyStatement → Prop) (outcome : Outcome α)
    (w : SqlFollower) : Prop :=
  match outcome with
  | .ok view => P view w.notes.settled
  | .error code => R code w.heard ∧ (w.stage = .submitted → code ∈ commitFailures)

/-- The service in the transaction of its unit, keeping to `T`. -/
abbrev Keeps (host : Host) (lease : Except SqlError Unit) (dialect : Dialect)
    (T : SqlHistory LegacyStatement → ExecutorCall LegacyStatement → Prop)
    (P : α → SqlHistory LegacyStatement → Prop)
    (R : LegacyApplicationErrorCode → SqlHistory LegacyStatement → Prop)
    (p : ServiceProgram (Outcome α)) (s : ServiceState) (w : SqlFollower) : Prop :=
  Serves host lease (following (legacyMeaning dialect).server)
    (Proper (legacyMeaning dialect).server T)
    (fun result w' => result.2.unit.active = false ∧ Says P R result.1 w') p s w

/-- A call of a repository, and what follows its value. -/
theorem keeps_repository {call : RepositoryCall}
    {Q : call.Value → SqlHistory LegacyStatement → Prop}
    {next : Except PersistenceFailure call.Value → ServiceProgram (Outcome α)}
    (hcall : Adds dialect T executed Q (performRepository call) w)
    (hfailed : ∀ f w', Follower.stage w' = .opened → Keeps host lease dialect T P R (next (.error f)) s w')
    (hok : ∀ value more w', Within (executed ++ more) w' → Q value more →
      Keeps host lease dialect T P R (next (.ok value)) s w') :
    Keeps host lease dialect T P R (repository call >>= next) s w := by
  apply serves_repository
  apply wp_post hcall
  intro answer w' hw'
  obtain ⟨hstage, hvalue⟩ := hw'
  cases answer with
  | error f => exact hfailed f w' hstage
  | ok value =>
      obtain ⟨more, hmore, hQ⟩ := hvalue value rfl
      exact hok value more w' hmore hQ

theorem keeps_abandon (hunit : s.unit = Transaction.opened) (hstage : w.stage = .opened)
    (hR : R code w.heard) : Keeps host lease dialect T P R (abandon code) s w := by
  apply serves_abandon
  rw [hunit]
  apply wp_post (follows_rollback hstage)
  intro t w' hrolled
  obtain ⟨hinactive, hheard, hover⟩ := hrolled
  refine ⟨hinactive, by rwa [hheard], ?_⟩
  intro hsubmitted
  rw [hover] at hsubmitted
  cases hsubmitted

/-- A commit that is answered settles what was executed. -/
theorem keeps_conclude {next : ServiceProgram (Outcome α)} (hunit : s.unit = Transaction.opened)
    (hw : Within executed w) (hcode : code ∈ commitFailures) (hR : R code executed)
    (hnext : ∀ t w', Transaction.active t = false → w'.notes.settled = executed →
      Keeps host lease dialect T P R next { s with unit := t } w') :
    Keeps host lease dialect T P R (conclude code next) s w := by
  apply serves_conclude
  rw [hunit]
  apply wp_post (follows_commit hw)
  intro ended w' hended
  obtain ⟨committed, t⟩ := ended
  obtain ⟨hinactive, hheard, hsettled⟩ := hended
  cases committed with
  | error f => exact ⟨hinactive, by rwa [hheard], fun _ => hcode⟩
  | ok done => exact hnext t w' hinactive (hsettled done rfl)

/-- The scope of a unit of work. -/
theorem keeps_withUnit {mode : WorkUnitMode} {body : ServiceProgram (Outcome α)}
    (hstage : w.stage = .fresh) (hsettled : w.notes.settled = []) (hR : ∀ heard, R code heard)
    (hbody : ∀ w', Within [] w' →
      Keeps host lease dialect T P R body { s with unit := Transaction.opened } w') :
    Serves host lease (following (legacyMeaning dialect).server)
      (Proper (legacyMeaning dialect).server T) (fun result w' => Says P R result.1 w')
      (withUnit mode code body) s w := by
  apply serves_withUnit
  cases lease with
  | error e =>
      refine ⟨hR _, ?_⟩
      intro hsubmitted
      rw [hstage] at hsubmitted
      cases hsubmitted
  | ok leased =>
      unfold beginUnitOfWork
      rw [wp_bind]
      apply follows_begin hstage hsettled
      · exact fun f w' hunsubmitted => ⟨hR _, fun hsubmitted => absurd hsubmitted hunsubmitted⟩
      · intro w' hw'
        apply wp_post (hbody w' hw')
        intro result w'' hresult
        obtain ⟨hinactive, hsays⟩ := hresult
        rw [Transaction.destroy_inactive hinactive]
        exact hsays

/-- Hashing draws from the host and calls on no server. -/
theorem keeps_hash {text : Bytes} {next : Except Bytes Bytes → ServiceProgram (Outcome α)}
    (h : Keeps host lease dialect T P R (next (host.hash s.drawn text))
      { s with drawn := s.drawn + 1 } w) :
    Keeps host lease dialect T P R (Program.call (.hash text) next) s w := h

theorem keeps_openSession {P : LoginView → SqlHistory LegacyStatement → Prop} {user : UserRecord}
    (hunit : s.unit = Transaction.opened) (hw : Within executed w) (hR : R .persistenceReadFailed executed)
    (hP : ∀ view, LoginView.username view = user.username → view.role = user.role →
      P view executed) :
    Keeps host lease dialect T P R (openSession user) s w := by
  apply keeps_conclude hunit hw (by decide) hR
  intro t w' hinactive hsettled
  refine ⟨hinactive, ?_⟩
  show P _ w'.notes.settled
  rw [hsettled]
  exact hP _ rfl rfl

/-- The password of a user that was read and locked has been verified. -/
theorem keeps_upgradePassword {command : LoginCommand} {user : UserRecord} {response : SqlResponse}
    (hread : readUser response.rows = .ok (some user))
    (hverified : host.verify user.passwordHash command.password = true)
    (hunit : s.unit = Transaction.opened)
    (hw : Within [did (.findUser command.username true) response] w) :
    Keeps host lease dialect (Scripted host s₀ (.login command)) (Reported host s₀ (.login command))
      (Refused host s₀ (.login command)) (upgradePassword command user) s w := by
  show Keeps host lease dialect _ (Reported host s₀ (.login command))
    (Refused host s₀ (.login command)) (ite (host.needsRehash user.passwordHash = true) _ _) s w
  split
  · rename_i houtdated
    apply keeps_hash
    cases hhash : host.hash s.drawn command.password with
    | error e => exact keeps_abandon hunit hw.stage trivial
    | ok hash =>
        have hrehashed : Rehashed host command user hash := ⟨hverified, houtdated, _, hhash⟩
        show Keeps host lease dialect _ (Reported host s₀ (.login command))
          (Refused host s₀ (.login command))
          (repository (.updatePasswordHash user.id hash) >>= _) { s with drawn := s.drawn + 1 } w
        apply keeps_repository
          (adds_updatePasswordHash hw (scripted (.upgrade hread hrehashed)))
        · exact fun f w' hstage => keeps_abandon hunit hstage trivial
        · intro _ more w' hw' hmore
          obtain ⟨response', rfl, haffected⟩ := hmore
          apply keeps_openSession (s := { s with drawn := s.drawn + 1 }) hunit hw' trivial
          exact fun view => .upgraded hread hrehashed haffected
  · rename_i hcurrent
    apply keeps_openSession hunit hw trivial
    exact fun view => .login hread hverified (Bool.not_eq_true _ ▸ hcurrent)

theorem keeps_loginUnit {command : LoginCommand} (hunit : s.unit = Transaction.opened)
    (hw : Within [] w) :
    Keeps host lease dialect (Scripted host s₀ (.login command)) (Reported host s₀ (.login command))
      (Refused host s₀ (.login command)) (loginUnit command) s w := by
  apply keeps_repository (adds_findByUsername hw (scripted .findUser))
  · exact fun f w' hstage => keeps_abandon hunit hstage trivial
  intro found more w' hw' hmore
  obtain ⟨response, rfl, hread⟩ := hmore
  cases found with
  | none => exact keeps_abandon hunit hw'.stage ⟨response, hw'.heard, Or.inl hread⟩
  | some user =>
      show wp _ _ _ ((ite (host.verify user.passwordHash command.password = true) _ _ :
        ServiceProgram (Outcome LoginView)).interpret (performService host lease) s) w'
      split
      · rename_i hverified
        exact keeps_upgradePassword hread hverified hunit hw'
      · rename_i hunverified
        exact keeps_abandon hunit hw'.stage
          ⟨response, hw'.heard, Or.inr ⟨user, hread, by simpa using hunverified⟩⟩

theorem keeps_listUnit {query : ListGoodsQuery} (hunit : s.unit = Transaction.opened)
    (hw : Within [] w) :
    Keeps host lease dialect (Scripted host s₀ (.listGoods query))
      (Reported host s₀ (.listGoods query)) (Refused host s₀ (.listGoods query)) (listUnit query) s
      w := by
  apply keeps_repository (adds_list hw (scripted .list))
  · exact fun f w' hstage => keeps_abandon hunit hstage trivial
  · intro records more w' hw' hmore
    obtain ⟨response, rfl, hread⟩ := hmore
    apply keeps_conclude hunit hw' (by decide) trivial
    intro t w'' hinactive hsettled
    refine ⟨hinactive, ?_⟩
    show Reported _ _ _ _ w''.notes.settled
    rw [hsettled]
    exact .listed hread

theorem keeps_createUnit {command : CreateGoodsCommand} {principal : LegacyPrincipal}
    (hwriter : Writer s₀ command.auth principal) (hname : normalizeField command.name ≠ [])
    (hunit : s.unit = Transaction.opened) (hw : Within [] w) :
    Keeps host lease dialect (Scripted host s₀ (.createGoods command))
      (Reported host s₀ (.createGoods command)) (Refused host s₀ (.createGoods command))
      (createUnit (newGoods command principal)) s w := by
  apply keeps_repository (adds_create hw (scripted (.insert hwriter hname))
    fun response => scripted (.readBack hwriter hname))
  · exact fun f w' hstage => keeps_abandon hunit hstage trivial
  · intro record more w' hw' hmore
    obtain ⟨response, response', rfl, hread⟩ := hmore
    apply keeps_conclude hunit hw' (by decide) trivial
    intro t w'' hinactive hsettled
    refine ⟨hinactive, ?_⟩
    show Reported _ _ _ _ w''.notes.settled
    rw [hsettled]
    exact .created hwriter hname hread

theorem keeps_takeUnit {command : TakeGoodsCommand} {principal : LegacyPrincipal} {id : ℤ}
    (hwriter : Writer s₀ command.auth principal) (hid : parseGoodsId command.suppliedId = some id)
    (hunit : s.unit = Transaction.opened) (hw : Within [] w) :
    Keeps host lease dialect (Scripted host s₀ (.takeGoods command))
      (Reported host s₀ (.takeGoods command)) (Refused host s₀ (.takeGoods command))
      (takeUnit id principal.username) s w := by
  apply keeps_repository (adds_markTaken hw (scripted (.take hwriter hid))
    fun response haffected => scripted (.lockStatus hwriter hid haffected))
  · exact fun f w' hstage => keeps_abandon hunit hstage trivial
  intro outcome more w₁ hw₁ hmarked
  obtain ⟨response, hmarked⟩ := hmarked
  cases outcome with
  | notFound =>
      obtain ⟨haffected, status, rfl, hempty⟩ := hmarked
      exact keeps_abandon hunit hw₁.stage
        ⟨principal, id, response, status, hwriter, hid, hw₁.heard, haffected, hempty.mpr rfl⟩
  | alreadyTaken =>
      obtain ⟨haffected, status, rfl, hempty⟩ := hmarked
      exact keeps_abandon hunit hw₁.stage
        ⟨principal, id, response, status, hwriter, hid, hw₁.heard, haffected, by simpa using hempty⟩
  | taken =>
      obtain ⟨rfl, haffected⟩ := hmarked
      apply keeps_repository
        (adds_findById hw₁ (scripted (.readTaken hwriter hid haffected)))
      · exact fun f w' hstage => keeps_abandon hunit hstage trivial
      intro found more' w₂ hw₂ hmore
      obtain ⟨response', rfl, hread⟩ := hmore
      cases found with
      | none => exact keeps_abandon hunit hw₂.stage trivial
      | some record =>
          apply keeps_conclude hunit hw₂ (by decide) trivial
          intro t w₃ hinactive hsettled
          refine ⟨hinactive, ?_⟩
          show Reported _ _ _ _ w₃.notes.settled
          rw [hsettled]
          exact .taken hwriter hid haffected hread

/-- A request keeps to its script, has one transaction, and says what it was answered there. -/
theorem scripted_serve (request : Request) (hstage : w.stage = .fresh)
    (hsettled : w.notes.settled = []) :
    (serve host lease request s).wp (following (legacyMeaning dialect).server)
      (Proper (legacyMeaning dialect).server (Scripted host s request))
      (fun result w' => Says (Reported host s request) (Refused host s request) result.1 w') w := by
  -- a request without a transaction
  have hnone : ∀ {P : Prop}, w.stage = .submitted → P := by
    intro P hsubmitted
    rw [hstage] at hsubmitted
    cases hsubmitted
  cases request with
  | login command =>
      show ((guardedLogin command >>= fun result => clearPassword command.password >>= fun _ =>
        pure result).interpret (performService host lease) s).wp _ _ _ w
      rw [interpret_bind, wp_bind]
      show wp _ _ _ ((ite _ _ _ : ServiceProgram _).interpret (performService host lease) s) w
      split
      · exact ⟨trivial, hnone⟩
      · exact keeps_withUnit hstage hsettled (fun _ => trivial) fun w' => keeps_loginUnit rfl
  | listGoods query =>
      show wp _ _ _ ((authenticated _ _).interpret (performService host lease) s) w
      rw [interpret_authenticated]
      cases s.sessions query.auth with
      | none => exact ⟨trivial, hnone⟩
      | some principal =>
          exact keeps_withUnit hstage hsettled (fun _ => trivial) fun w' => keeps_listUnit rfl
  | createGoods command =>
      show wp _ _ _ ((authorized _ _).interpret (performService host lease) s) w
      rw [interpret_authorized]
      cases hsession : s.sessions command.auth with
      | none => exact ⟨trivial, hnone⟩
      | some principal =>
          show wp _ _ _ (ite (canWrite principal = true) _ _) w
          split
          · rename_i hwrite
            show wp _ _ _ ((ite _ _ _ : ServiceProgram _).interpret (performService host lease) s) w
            split
            · exact ⟨trivial, hnone⟩
            · rename_i hname
              have hname' : normalizeField command.name ≠ [] := by simpa using hname
              exact keeps_withUnit hstage hsettled (fun _ => trivial) fun w' =>
                keeps_createUnit ⟨hsession, hwrite⟩ hname' rfl
          · exact ⟨trivial, hnone⟩
  | takeGoods command =>
      show wp _ _ _ ((authorized _ _).interpret (performService host lease) s) w
      rw [interpret_authorized]
      cases hsession : s.sessions command.auth with
      | none => exact ⟨trivial, hnone⟩
      | some principal =>
          show wp _ _ _ (ite (canWrite principal = true) _ _) w
          split
          · rename_i hwrite
            cases hid : parseGoodsId command.suppliedId with
            | none => exact ⟨trivial, hnone⟩
            | some id =>
                exact keeps_withUnit hstage hsettled (fun _ => trivial) fun w' =>
                  keeps_takeUnit ⟨hsession, hwrite⟩ hid rfl
          · exact ⟨trivial, hnone⟩

end UseCases

end Warehouse.Backend
