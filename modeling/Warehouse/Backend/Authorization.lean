/-
# Warehouse.Backend.Authorization — who writes goods, over whole histories of calls

Calls one after the other, by anybody and with any token, each against a database that may refuse
any of its statements; what outlives a call is the sessions and the committed rows.  A session goes
back to a login, and carries the name and the role that the user had then.  So whatever is written
to goods goes back to the login of a user who was allowed to, and bears that user's name.  A call
that is turned away is turned away by its token and its own fields: it begins no unit of work.
-/
import Warehouse.Backend.Entitlement

namespace Warehouse.Backend

open Warehouse.Interaction Warehouse.Mysql Warehouse.Bootstrap

/-! ## Histories of calls -/

/-- What outlives a call. -/
structure Deployment where
  sessions : Bytes → Option LegacyPrincipal := fun _ => none
  drawn : ℕ := 0
  rows : LegacyRows
  counter : ℕ

/-- The service before a call. -/
def Deployment.service (b : Deployment) : ServiceState where
  sessions := b.sessions
  drawn := b.drawn

/-- The session of the server that a call gets. -/
def Deployment.session (b : Deployment) : LoneSession LegacyStatement LegacyKey LegacyRecord where
  store := { rows := b.rows, counter := b.counter }

/-- A call, whatever the pool and the server answer. -/
inductive Call (host : Host) (dialect : Dialect) (b : Deployment) (request : Request) :
    Outcome request.View → Deployment → Prop
  | intro {lease : Except SqlError Unit} {events : SqlHistory LegacyStatement}
      {result : Outcome request.View} {s' : ServiceState}
      {after : LoneSession LegacyStatement LegacyKey LegacyRecord} :
      Program.Runs (serve host lease request b.service) events (result, s') →
      Program.Answers (LoneSession.answers (legacyMeaning dialect)) b.session events after →
      Call host dialect b request result
        ⟨s'.sessions, s'.drawn, after.released.store.rows, after.store.counter⟩

/-- A call that was made. -/
structure CallRecord where
  before : Deployment
  request : Request
  result : Outcome request.View

/-- The calls so far.  Between them the users may be changed from outside, the goods may not. -/
inductive Calls (host : Host) (dialect : Dialect) (start : Deployment) :
    List CallRecord → Deployment → Prop
  | nil : Calls host dialect start [] start
  | call {calls : List CallRecord} {b b' : Deployment} {request : Request}
      {result : Outcome request.View} :
      Calls host dialect start calls b → Call host dialect b request result b' →
      Calls host dialect start (calls ++ [⟨b, request, result⟩]) b'
  | usersChanged {calls : List CallRecord} {b : Deployment} {rows : LegacyRows} {counter : ℕ} :
      Calls host dialect start calls b → (∀ id, rows (.goods id) = b.rows (.goods id)) →
      Calls host dialect start calls { b with rows := rows, counter := counter }

/-- The call was a login that returned this token. -/
def Returned (record : CallRecord) (command : LoginCommand) (token : Bytes) : Prop :=
  ∃ view : LoginView, view.token = token ∧
    (⟨record.request, record.result⟩ : Σ request : Request, Outcome request.View) =
      ⟨.login command, .ok view⟩

/-- The call was a successful login of the user who had this row then. -/
def LoggedIn (dialect : Dialect) (record : CallRecord) (token : Bytes) (row : UserRow) : Prop :=
  ∃ command id, Returned record command token ∧
    (LegacyRows.users record.before.rows).user id = some row ∧
    dialect.collation row.username = dialect.collation command.username

/-! ## What a call writes -/

/-- A row is as it was, or has been written under a name for which `P` holds. -/
def WrittenBy (P : Bytes → Prop) (before after : Option LegacyRecord) : Prop :=
  after = before ∨ ∃ row, after = some (.goods row) ∧ P row.operatorName

instance (P : Bytes → Prop) : Std.Refl (WrittenBy P) := ⟨fun _ => Or.inl rfl⟩

instance (P : Bytes → Prop) : IsTrans (Option LegacyRecord) (WrittenBy P) where
  trans _ _ _ hfirst hsecond := by
    rcases hsecond with hsame | hwritten
    · rw [hsame]
      exact hfirst
    · exact Or.inr hwritten

section Goods

variable {host : Host} {dialect : Dialect} {lease : Except SqlError Unit} {b b' : Deployment}
  {request : Request} {result : Outcome request.View}

/-- What an entitled statement writes to goods, it writes under the name of who sent it. -/
theorem writtenBy_of_performed
    {e : Entry (ExecutorCall LegacyStatement) ExecutorCall.Answer LegacyKey LegacyRecord}
    {s : ServiceState} {id : ℤ} {record : LegacyRecord}
    (h : RowStore.Performed (legacyMeaning dialect).server e)
    (hentitled : Sending (Entitled s request) e.event.1)
    (hwrite : e.writes (.goods id) = some record) :
    WrittenBy (ActsAs s request) (e.view (.goods id)) (some record) := by
  right
  rcases goods_performed h hwrite with
    ⟨goods, storedAt, hsent, -, rfl⟩ | ⟨operatorName, row, takenAt, hsent, -, -, rfl⟩
  · exact ⟨_, rfl, hentitled _ hsent⟩
  · exact ⟨_, rfl, (hentitled _ hsent).1⟩

/-- A call writes goods under the name it acts as, and no others. -/
theorem Call.writtenBy (h : Call host dialect b request result b') (id : ℤ) :
    WrittenBy (ActsAs b.service request) (b.rows (.goods id)) (b'.rows (.goods id)) := by
  obtain @⟨lease, events, result, s', after, hrun, hanswers⟩ := h
  let P : ℕ → ExecutorCall LegacyStatement → Prop := fun _ => Sending (Entitled b.service request)
  let I : LoneSession LegacyStatement LegacyKey LegacyRecord → Prop := fun d =>
    d.store.Ruled (legacyMeaning dialect).server b.rows (fun i _ op => P i op) ∧
      RowStore.Logged P d.store
  have hstart : I b.session :=
    ⟨⟨RowStore.sound_fresh b.rows b.counter, fun _ => disciplined_nil⟩, nofun⟩
  have hsends : (serve host lease request b.service).Emits
      (Sending (Entitled b.service request)) := emits_serve request
  have hkept := Program.wp_frame
    (Program.wp_trivial (LoneSession.answers (legacyMeaning dialect)) _ b.session) hsends
    (fun op d answer d' hop hd hstep =>
      LoneSession.answers_kept (RowStore.logged_invariant P) hstep hd hop) hstart
  obtain ⟨⟨⟨hruled, hlogged⟩, -⟩, -⟩ := Program.runs_under hkept hrun hanswers
  show WrittenBy _ _ (after.released.store.rows (.goods id))
  rw [LoneSession.released_rows, hruled.sound.rows]
  apply hruled.sound.log.evolves
  intro e he record hwrite
  exact writtenBy_of_performed (hruled.sound.logged e he) (hlogged e he) hwrite

end Goods

/-! ## What a login issues -/

section Login

open Program LoneSession

variable {host : Host} {dialect : Dialect} {lease : Except SqlError Unit} {s s₀ : ServiceState}
  {command : LoginCommand} {user : UserRecord}
  {d : LoneSession LegacyStatement LegacyKey LegacyRecord}

/-- Only the opening of a session changes the sessions. -/
theorem returns_performService (op : ServiceCall) (s : ServiceState) (hop : op.opensNone) :
    (performService host lease op s).Returns fun answered => answered.2.sessions = s.sessions := by
  cases op with
  | begin mode =>
      apply returns_bind (returns_trivial _)
      intro begun _
      cases begun <;> rfl
  | unit call => exact returns_bind (returns_trivial _) fun _ _ => rfl
  | destroy => exact returns_bind (returns_trivial _) fun _ _ => rfl
  | createSession principal => exact hop.elim
  | findSession token => rfl
  | verify hash password => rfl
  | needsRehash hash => rfl
  | hash password => rfl
  | clear sensitive => rfl

theorem returns_sameSessions {α : Type} {p : ServiceProgram α} (hp : p.Emits ServiceCall.opensNone)
    (h : s.sessions = s₀.sessions) :
    (p.interpret (performService host lease) s).Returns fun result =>
      result.2.sessions = s₀.sessions := by
  apply returns_interpret (I := fun s : ServiceState => s.sessions = s₀.sessions) hp _ h
  intro op s hop hs
  exact (returns_performService op s hop).mono fun _ hsame => hsame.trans hs

/-- What a search for a user comes back with: if with a user, then with a row that has the name. -/
def Finds (dialect : Dialect) (username : Bytes) (users : ℤ → Option UserRow) :
    Except PersistenceFailure (Option UserRecord) → Prop
  | .error _ => True
  | .ok none => ∀ id row, users id = some row →
      dialect.collation row.username ≠ dialect.collation username
  | .ok (some user) => ∃ id row, users id = some row ∧
      dialect.collation row.username = dialect.collation username ∧ (user.id : ℤ) = id ∧
      user.username = row.username ∧ user.passwordHash = row.password ∧ user.role = row.role

/-- A user is read as the row that the transaction sees. -/
theorem wp_findByUsername {username : Bytes} (hactive : d.active = true) :
    (findByUsername username true).wp (answers (legacyMeaning dialect)) free
      (fun found d' => d'.store.rows = d.store.rows ∧
        Finds dialect username (LegacyRows.users d.view).user found ∧
        ∀ value, found = .ok value → d'.active = true ∧ d'.view = d.view) d := by
  intro answer after hanswers
  refine ⟨trivial, ?_⟩
  cases answer with
  | error e => exact ⟨refused_rows hanswers rfl nofun, trivial, nofun⟩
  | ok response =>
      obtain ⟨writes, locks, counter, hmeaning, hrows, hactive', hview⟩ :=
        answers_executed hactive hanswers
      obtain ⟨rfl, -, hfound⟩ := hmeaning
      show _ ∧ Finds _ _ _ (readUser response.rows) ∧ _
      refine ⟨hrows, ?_, fun _ _ => ⟨hactive', hview⟩⟩
      rcases hfound with ⟨id, row, hrow, hname, hcells, -⟩ | ⟨hnobody, hcells, -⟩
      · rw [hcells]
        simp only [userCells, readUser]
        split
        · trivial
        · rename_i userId hparsed
          have hid : id = userId := parseUnsigned_toDecimalInt hparsed
          exact ⟨id, row, hrow, hname, hid.symm, rfl, rfl, rfl⟩
      · rw [hcells]
        exact hnobody

/-- Every session was there before, or is the user's and was returned. -/
def OpensFor (s₀ : ServiceState) (user : UserRecord) (result : Outcome LoginView × ServiceState) :
    Prop :=
  ∀ token principal, result.2.sessions token = some principal →
    s₀.sessions token = some principal ∨ ∃ view : LoginView, result.1 = .ok view ∧
      view.token = token ∧ principal = ⟨user.username, user.role⟩

/-- Where no session is opened, none is new. -/
theorem opensFor_of_same {result : Outcome LoginView × ServiceState}
    (h : result.2.sessions = s₀.sessions) : OpensFor s₀ user result := by
  intro token principal hsession
  left
  rw [← h]
  exact hsession

theorem returns_abandon {code : LegacyApplicationErrorCode} (h : s.sessions = s₀.sessions) :
    ((abandon code : ServiceProgram (Outcome LoginView)).interpret (performService host lease)
      s).Returns fun result => result.2.sessions = s₀.sessions :=
  returns_sameSessions (emits_abandon trivial) h

theorem opensFor_abandon {code : LegacyApplicationErrorCode} (h : s.sessions = s₀.sessions) :
    ((abandon code).interpret (performService host lease) s).Returns (OpensFor s₀ user) :=
  (returns_abandon h).mono fun _ => opensFor_of_same

/-- Only a commit that is answered opens the session. -/
theorem returns_openSession (h : s.sessions = s₀.sessions) :
    ((openSession user).interpret (performService host lease) s).Returns (OpensFor s₀ user) := by
  show ((s.unit.commit >>= fun answered => pure (answered.1, { s with unit := answered.2 })) >>=
    _ : LegacyProgram _).Returns _
  apply returns_bind (P := fun answered => answered.2.sessions = s₀.sessions)
  · apply returns_bind (returns_trivial _)
    intro answered _
    exact h
  · intro answered hsame
    obtain ⟨committed, s'⟩ := answered
    cases committed with
    | error f => exact opensFor_of_same hsame
    | ok _ =>
        intro token principal hsession
        have hopened : (if token = host.token s'.drawn then
            some ⟨user.username, user.role⟩ else s'.sessions token) = some principal := hsession
        split at hopened
        · rename_i htoken
          exact Or.inr ⟨_, rfl, htoken.symm, (Option.some.inj hopened).symm⟩
        · left
          rw [← h, ← hopened]
          exact (congrFun (hsame.trans h.symm) token).symm

/-- Hashing draws from the host and touches nothing else. -/
theorem returns_hash {P : α × ServiceState → Prop} {text : Bytes}
    {next : Except Bytes Bytes → ServiceProgram α}
    (h : ((next (host.hash s.drawn text)).interpret (performService host lease)
      { s with drawn := s.drawn + 1 }).Returns P) :
    ((Program.call (.hash text) next).interpret (performService host lease) s).Returns P := h

theorem returns_upgradePassword (h : s.sessions = s₀.sessions) :
    ((upgradePassword command user).interpret (performService host lease) s).Returns
      (OpensFor s₀ user) := by
  show ((if host.needsRehash user.passwordHash then _ else openSession user :
    ServiceProgram (Outcome LoginView)).interpret (performService host lease) s).Returns _
  split
  · apply returns_hash
    cases host.hash s.drawn command.password with
    | error e => exact opensFor_abandon h
    | ok hash =>
        show (((updatePasswordHash user.id hash >>= fun answer => pure (answer, s.unit)) >>=
          fun answered => pure (answered.1, { s with
            drawn := s.drawn + 1
            unit := answered.2 })) >>= _ : LegacyProgram _).Returns _
        apply returns_bind (P := fun answered => answered.2.sessions = s₀.sessions)
        · apply returns_bind (returns_trivial _)
          intro answered _
          exact h
        · intro answered hsame
          obtain ⟨updated, s'⟩ := answered
          cases updated with
          | error f => exact opensFor_abandon hsame
          | ok _ => exact returns_openSession hsame
  · exact returns_openSession h

/-- Every session was there before, or is that of the user whose row the login has read. -/
def Issues (dialect : Dialect) (command : LoginCommand) (rows : LegacyRows) (s₀ : ServiceState)
    (result : Outcome LoginView × ServiceState) : Prop :=
  ∀ token principal, result.2.sessions token = some principal →
    s₀.sessions token = some principal ∨ ∃ view id row, result.1 = .ok view ∧
      LoginView.token view = token ∧ rows.users.user id = some row ∧
      dialect.collation row.username = dialect.collation command.username ∧
      principal = ⟨row.username, row.role⟩

theorem issues_of_same {rows : LegacyRows} {result : Outcome LoginView × ServiceState}
    (h : result.2.sessions = s₀.sessions) : Issues dialect command rows s₀ result := by
  intro token principal hsession
  left
  rw [← h]
  exact hsession

/-- What follows in a login once its result is known to issue rightly: the end of the unit. -/
theorem serves_issues {p : ServiceProgram (Outcome LoginView)} {rows : LegacyRows}
    (h : (p.interpret (performService host lease) s).Returns
      (Issues dialect command rows s₀)) :
    Serves host lease (answers (legacyMeaning dialect)) free (fun result d =>
      (result.2.unit.destroy).wp (answers (legacyMeaning dialect)) free (fun _ _ =>
        Issues dialect command rows s₀ (result.1, { result.2 with unit := Transaction.movedFrom }))
        d) p s d := by
  apply wp_post (wp_of_returns h)
  intro result d' hissues
  exact wp_post (wp_trivial _ _ d') fun _ _ _ => hissues

/-- `login`, on a session that is its own. -/
theorem wp_login (hidle : d.Idle) :
    (serve host lease (.login command) s).wp (answers (legacyMeaning dialect)) free
      (fun result _ => Issues dialect command d.store.rows s result) d := by
  show ((guardedLogin command >>= fun result => clearPassword command.password >>= fun _ =>
    pure result).interpret (performService host lease) s).wp _ _ _ d
  rw [interpret_bind, wp_bind]
  refine wp_post (?_ : wp _ _ (fun result _ => Issues dialect command d.store.rows s result) _ d)
    fun result d' h => h
  show wp _ _ _ ((ite _ _ _ : ServiceProgram _).interpret (performService host lease) s) d
  split
  · exact issues_of_same rfl
  apply serves_withUnit
  cases lease with
  | error e => exact issues_of_same rfl
  | ok leased =>
      unfold beginUnitOfWork
      rw [wp_bind]
      apply wp_post (wp_begin .command hidle)
      intro begun d₁ h₁
      obtain ⟨-, hbegun⟩ := h₁
      cases begun with
      | error f => exact issues_of_same rfl
      | ok t =>
          obtain ⟨rfl, hactive, hview⟩ := hbegun
          apply serves_repository
          apply wp_post (wp_findByUsername hactive)
          intro found d₂ hfound
          obtain ⟨-, hfinds, -⟩ := hfound
          rw [hview] at hfinds
          rcases found with f | _ | user
          · exact serves_issues ((returns_abandon rfl).mono fun _ => issues_of_same)
          · exact serves_issues ((returns_abandon rfl).mono fun _ => issues_of_same)
          -- the user was found, as a row says
          obtain ⟨id, row, hrow, hname, -, husername, -, hrole⟩ := hfinds
          apply serves_issues
          apply Returns.mono (P := OpensFor s user)
          · show ((ite (host.verify user.passwordHash command.password = true) _ _ :
              ServiceProgram _).interpret (performService host (.ok leased)) _).Returns _
            split
            · exact returns_upgradePassword rfl
            · exact opensFor_abandon rfl
          · intro result hopens token principal hsession
            rcases hopens token principal hsession with hold | ⟨view, hresult, htoken, hprincipal⟩
            · exact Or.inl hold
            · rw [husername, hrole] at hprincipal
              exact Or.inr ⟨view, id, row, hresult, htoken, hrow, hname, hprincipal⟩

end Login

/-! ## Where sessions come from -/

section Sessions

open Program LoneSession

variable {host : Host} {dialect : Dialect} {start b b' : Deployment} {calls : List CallRecord}
  {request : Request} {result : Outcome request.View}

/-- Every session is that of a login that returned its token, with the name and the role that the
user had then. -/
def Issued (dialect : Dialect) (calls : List CallRecord) (b : Deployment) : Prop :=
  ∀ token principal, b.sessions token = some principal →
    ∃ login ∈ calls, ∃ row, LoggedIn dialect login token row ∧ principal = ⟨row.username, row.role⟩

/-- A call other than a login opens no session. -/
theorem Call.sameSessions (h : Call host dialect b request result b')
    (hopens : request.run.Emits ServiceCall.opensNone) : b'.sessions = b.sessions := by
  obtain @⟨lease, events, result, s', after, hrun, hanswers⟩ := h
  have hreturns : (serve host lease request b.service).Returns fun result =>
      result.2.sessions = b.service.sessions := returns_sameSessions hopens rfl
  exact (runs_under (wp_of_returns hreturns) hrun hanswers).1

theorem Call.issued (h : Call host dialect b request result b') (hissued : Issued dialect calls b) :
    Issued dialect (calls ++ [⟨b, request, result⟩]) b' := by
  have hold : b'.sessions = b.sessions → Issued dialect (calls ++ [⟨b, request, result⟩]) b' := by
    intro hsame token principal hsession
    rw [hsame] at hsession
    obtain ⟨login, hlogin, hrest⟩ := hissued token principal hsession
    exact ⟨login, List.mem_append_left _ hlogin, hrest⟩
  cases request with
  | listGoods query =>
      apply hold (h.sameSessions ((listGoods_reads query).mono _))
      intro op hop
      cases op <;> trivial
  | createGoods command => exact hold (h.sameSessions (createGoods_opensNone command))
  | takeGoods command => exact hold (h.sameSessions (takeGoods_opensNone command))
  | login command =>
      obtain @⟨lease, events, result, s', after, hrun, hanswers⟩ := h
      obtain ⟨hissues, -⟩ := runs_under (wp_login ⟨rfl, rfl⟩) hrun hanswers
      intro token principal hsession
      rcases hissues token principal hsession with
        hbefore | ⟨view, id, row, hresult, htoken, hrow, hname, hprincipal⟩
      · obtain ⟨login, hlogin, hrest⟩ := hissued token principal hbefore
        exact ⟨login, List.mem_append_left _ hlogin, hrest⟩
      · obtain rfl : result = .ok view := hresult
        refine ⟨_, List.mem_append_right _ (List.mem_singleton_self _), row, ?_, hprincipal⟩
        exact ⟨command, id, ⟨view, htoken, rfl⟩, hrow, hname⟩

/-- In every history. -/
theorem issued_of_calls (hstart : start.sessions = fun _ => none)
    (h : Calls host dialect start calls b) : Issued dialect calls b := by
  induction h with
  | nil =>
      intro token principal hsession
      rw [hstart] at hsession
      cases hsession
  | call _ hcall ih => exact hcall.issued ih
  | usersChanged _ _ ih => exact ih

end Sessions

/-! ## Calls that are turned away -/

/-- The token of a request that needs one. -/
def bearer : Request → Option Bytes
  | .login _ => none
  | .listGoods query => some query.auth
  | .createGoods command => some command.auth
  | .takeGoods command => some command.auth

/-- The requests that are turned away, and how. -/
inductive Rejected (calls : List CallRecord) (b : Deployment) :
    Request → LegacyApplicationErrorCode → Prop
  /-- No login has returned the token. -/
  | unknownToken {request : Request} {token : Bytes} : bearer request = some token →
      (∀ login ∈ calls, ∀ command, ¬ Returned login command token) →
      Rejected calls b request .unauthenticated
  | otherRole {request : Request} {token : Bytes} {principal : LegacyPrincipal} :
      writerToken request = some token → b.sessions token = some principal →
      principal.role ≠ lit "manager" → principal.role ≠ lit "admin" →
      Rejected calls b request .forbidden
  | emptyName {command : CreateGoodsCommand} {principal : LegacyPrincipal} :
      b.sessions command.auth = some principal → canWrite principal = true →
      normalizeField command.name = [] → Rejected calls b (.createGoods command) .invalidGoodsName
  | unreadableId {command : TakeGoodsCommand} {principal : LegacyPrincipal} :
      b.sessions command.auth = some principal → canWrite principal = true →
      parseGoodsId command.suppliedId = none → Rejected calls b (.takeGoods command) .invalidGoodsId

/-- What it is to be turned away. -/
structure TurnedAway (host : Host) (dialect : Dialect) (b : Deployment) (request : Request)
    (code : LegacyApplicationErrorCode) : Prop where
  /-- Nothing is sent to any executor, and the state of the service stays. -/
  silent : ∀ lease, serve host lease request b.service = .ret (.error code, b.service)
  /-- Whatever the database holds, it is left alone, and the result is the same. -/
  unchanged : ∀ rows counter result b',
    Call host dialect { b with rows := rows, counter := counter } request result b' →
      result = .error code ∧
      b' = { b with rows := rows, counter := counter }
  /-- No unit of work is begun. -/
  notBegun : ∀ history result, Program.Runs request.run history result →
    (∀ token found, (⟨.findSession token, found⟩ : Event ServiceCall ServiceCall.Answer) ∈ history →
      found = b.sessions token) →
    ∀ mode answer, (⟨.begin mode, answer⟩ : Event ServiceCall ServiceCall.Answer) ∉ history

section Turned

variable {host : Host} {dialect : Dialect} {start b : Deployment} {calls : List CallRecord}
  {request : Request} {code : LegacyApplicationErrorCode}

/-- All of it follows where the request only looks for its session. -/
theorem turnedAway_of_run {token : Bytes}
    {next : Option LegacyPrincipal → ServiceProgram (Outcome request.View)}
    (hrun : request.run = .call (.findSession token) next)
    (hnext : next (b.sessions token) = .ret (.error code)) :
    TurnedAway host dialect b request code := by
  have hsilent : ∀ lease, serve host lease request b.service = .ret (.error code, b.service) := by
    intro lease
    unfold serve
    rw [hrun]
    show (next (b.sessions token)).interpret (performService host lease) b.service = _
    rw [hnext]
    rfl
  refine ⟨hsilent, ?_, ?_⟩
  · intro rows counter result b' hcall
    obtain @⟨lease, events, result, s', after, hruns, hanswers⟩ := hcall
    have hservice :
        ({ b with rows := rows, counter := counter } : Deployment).service = b.service := rfl
    rw [hservice, hsilent lease] at hruns
    cases hruns
    cases hanswers
    exact ⟨rfl, rfl⟩
  · intro history result hruns htruthful mode answer hbegin
    rw [hrun] at hruns
    cases hruns with
    | @call _ _ found events _ hrest =>
        rw [htruthful token found List.mem_cons_self, hnext] at hrest
        cases hrest
        obtain hhead := List.mem_singleton.mp hbegin
        cases hhead

/-- The same where the request then looks for the role of its principal. -/
theorem turnedAway_of_authorized {token : Bytes} {principal : LegacyPrincipal}
    {next : LegacyPrincipal → ServiceProgram (Outcome request.View)}
    (hrun : request.run = authorized token next) (hsession : b.sessions token = some principal)
    (hnext : (if !canWrite principal then pure (.error .forbidden) else next principal) =
      (.ret (.error code) : ServiceProgram (Outcome request.View))) :
    TurnedAway host dialect b request code := by
  apply turnedAway_of_run hrun
  rw [hsession]
  exact hnext

theorem turnedAway_of_rejected (hissued : Issued dialect calls b)
    (h : Rejected calls b request code) : TurnedAway host dialect b request code := by
  cases h with
  | unknownToken hbearer hunknown =>
      rename_i token
      have hnone : b.sessions token = none := by
        cases hsession : b.sessions token with
        | none => rfl
        | some principal =>
            obtain ⟨login, hlogin, row, ⟨command, id, hreturned, -⟩, -⟩ :=
              hissued token principal hsession
            exact absurd hreturned (hunknown login hlogin command)
      cases request with
      | login command => cases hbearer
      | listGoods query =>
          obtain rfl := Option.some.inj hbearer
          exact turnedAway_of_run rfl (by rw [hnone]; rfl)
      | createGoods command =>
          obtain rfl := Option.some.inj hbearer
          exact turnedAway_of_run rfl (by rw [hnone]; rfl)
      | takeGoods command =>
          obtain rfl := Option.some.inj hbearer
          exact turnedAway_of_run rfl (by rw [hnone]; rfl)
  | otherRole hwriter hsession hmanager hadmin =>
      rename_i token principal
      have hforbidden : canWrite principal = false := by
        simp [canWrite, hmanager, hadmin]
      cases request with
      | login command => cases hwriter
      | listGoods query => cases hwriter
      | createGoods command =>
          obtain rfl := Option.some.inj hwriter
          exact turnedAway_of_authorized rfl hsession (by rw [hforbidden]; rfl)
      | takeGoods command =>
          obtain rfl := Option.some.inj hwriter
          exact turnedAway_of_authorized rfl hsession (by rw [hforbidden]; rfl)
  | @emptyName command principal hsession hwrite hname =>
      apply turnedAway_of_authorized rfl hsession
      rw [hwrite]
      show ite ((normalizeField command.name).isEmpty = true) _ _ = _
      rw [hname]
      rfl
  | @unreadableId command principal hsession hwrite hid =>
      apply turnedAway_of_authorized rfl hsession
      rw [hwrite, hid]
      rfl

end Turned

/-! ## The theorem -/

/-- Authorization over whole histories.  After any calls whatever, a call that adds or changes goods
has a token which an earlier login had returned to a user whose role was then exactly `manager` or
`admin`, and the goods bear that user's name.  And a call whose token no login has returned, a
writing call of a principal with another role, or one without a name or a readable id begins no unit
of work, changes nothing, and has a result that does not depend on the database. -/
theorem authorization_sound {host : Host} {dialect : Dialect} {start b : Deployment}
    {calls : List CallRecord} (hstart : start.sessions = fun _ => none)
    (h : Calls host dialect start calls b) :
    (∀ request result b', Call host dialect b request result b' →
      ∀ id, b'.rows.goods id ≠ b.rows.goods id →
        ∃ token login row written, writerToken request = some token ∧ login ∈ calls ∧
          LoggedIn dialect login token row ∧
          (row.role = lit "manager" ∨ row.role = lit "admin") ∧
          b'.rows.goods id = some written ∧ written.operatorName = row.username) ∧
    ∀ request code, Rejected calls b request code → TurnedAway host dialect b request code := by
  have hissued : Issued dialect calls b := issued_of_calls hstart h
  refine ⟨?_, fun request code => turnedAway_of_rejected hissued⟩
  intro request result b' hcall id hchanged
  rcases hcall.writtenBy id with hsame | ⟨written, hwritten, hacts⟩
  · refine absurd ?_ hchanged
    unfold LegacyRows.goods
    rw [hsame]
  · obtain ⟨token, principal, hwriter, hsession, hwrite, hoperator⟩ := hacts
    obtain ⟨login, hlogin, row, hlogged, rfl⟩ := hissued token principal hsession
    have hrole : row.role = lit "manager" ∨ row.role = lit "admin" := by
      simpa [canWrite] using hwrite
    refine ⟨token, login, row, written, hwriter, hlogin, hlogged, hrole, ?_, hoperator⟩
    unfold LegacyRows.goods
    rw [hwritten]

/-! ## A manager comes in and stores a pallet -/

section Witness

open LoneSession

/-- A host that finds every password right and draws `4f6b`. -/
def trustingHost : Host where
  verify _ _ := true
  needsRehash _ := false
  hash _ _ := .error []
  token _ := lit "4f6b"

def alice : UserRow := ⟨lit "alice", lit "$argon2id$v=19$hash", lit "manager"⟩

/-- One user, and no goods. -/
def firstDay : Deployment where
  rows key := if key = .users (.row 1) then some (.users (.user alice)) else none
  counter := 2

def aliceLogin : LoginCommand := ⟨lit "alice", lit "secret"⟩

def palletCommand : CreateGoodsCommand := ⟨lit "4f6b", lit "pallet", lit "A-1"⟩

def newPallet : NewGoods := ⟨lit "pallet", lit "A-1", lit "alice"⟩

def palletRow : GoodsRow := storedGoods newPallet (lit "2026-01-01 00:00:00")

/-- A server that finds alice, and stores the pallet under the id 1. -/
def firstServer : (call : ExecutorCall LegacyStatement) → Unit → call.Answer × Unit
  | .control _, s => (.ok {}, s)
  | .poison, s => ((), s)
  | .execute (.findUser _ _), s => (.ok { rows := [userCells 1 alice] }, s)
  | .execute (.insertGoods _), s => (.ok { affectedRows := 1, lastInsertId := 1 }, s)
  | .execute _, s => (.ok { rows := [palletRow.cells 1] }, s)

/-- The session of alice. -/
def aliceSession (token : Bytes) : Option LegacyPrincipal :=
  if token = lit "4f6b" then some ⟨lit "alice", lit "manager"⟩ else none

/-- The statements of the login. -/
def loginEvents : SqlHistory LegacyStatement :=
  [⟨.control (.setIsolation .command), .ok {}⟩, ⟨.control (.start .command), .ok {}⟩,
    ⟨.execute (.findUser (lit "alice") true), .ok { rows := [userCells 1 alice] }⟩,
    ⟨.control .commit, .ok {}⟩]

theorem call_login :
    ∃ rows counter, Call trustingHost byteDialect firstDay (.login aliceLogin)
      (.ok ⟨lit "4f6b", lit "manager", lit "alice"⟩) ⟨aliceSession, 1, rows, counter⟩ ∧
      rows = firstDay.rows := by
  have hrun : Program.Runs (serve trustingHost (.ok ()) (.login aliceLogin) firstDay.service)
      loginEvents (.ok ⟨lit "4f6b", lit "manager", lit "alice"⟩,
        ⟨aliceSession, 1, Transaction.movedFrom⟩) :=
    Program.runs_exec firstServer _ ()
  obtain ⟨s₁, h₁, hfree₁, hactive₁, hview₁, -⟩ :=
    can_start (s := firstDay.session) (legacyMeaning byteDialect) {} .command rfl
  obtain ⟨s₂, h₂, -, -, hview₂, -⟩ := can_execute hfree₁ hactive₁
    (show legacyMeaning byteDialect (.findUser (lit "alice") true) s₁.view s₁.store.counter
      { rows := [userCells 1 alice] } _ _ _ from
      ⟨rfl, rfl, Or.inl ⟨1, alice, by rw [hview₁]; rfl, rfl, rfl, rfl⟩⟩)
  have hanswers : Program.Answers (answers (legacyMeaning byteDialect)) firstDay.session loginEvents
      _ := .cons (can_isolate .command) (.cons h₁ (.cons h₂ (.cons can_commit (.nil _))))
  refine ⟨_, _, Call.intro hrun hanswers, ?_⟩
  rw [released_rows]
  show s₂.view = _
  rw [hview₂, hview₁]
  rfl

/-- The statements of the creation. -/
def palletEvents : SqlHistory LegacyStatement :=
  [⟨.control (.setIsolation .command), .ok {}⟩, ⟨.control (.start .command), .ok {}⟩,
    ⟨.execute (.insertGoods newPallet), .ok { affectedRows := 1, lastInsertId := 1 }⟩,
    ⟨.execute (.selectGoods 1), .ok { rows := [palletRow.cells 1] }⟩, ⟨.control .commit, .ok {}⟩]

theorem runs_pallet (drawn : ℕ) :
    ∃ result, Program.Runs (serve trustingHost (.ok ()) (.createGoods palletCommand)
      { sessions := aliceSession, drawn := drawn }) palletEvents result :=
  ⟨_, Program.runs_exec firstServer (serve trustingHost (.ok ())
    (.createGoods palletCommand) { sessions := aliceSession, drawn := drawn }) ()⟩

theorem call_pallet {b : Deployment} (hsessions : b.sessions = aliceSession)
    (hnothing : b.rows (.goods 1) = none) :
    ∃ result b', Call trustingHost byteDialect b (.createGoods palletCommand) result b' ∧
      b'.rows.goods 1 = some palletRow := by
  obtain ⟨result, hrun⟩ := runs_pallet b.drawn
  rw [← hsessions] at hrun
  obtain ⟨s₁, h₁, hfree₁, hactive₁, hview₁, -⟩ :=
    can_start (s := b.session) (legacyMeaning byteDialect) {} .command rfl
  obtain ⟨s₂, h₂, hfree₂, hactive₂, hview₂, -⟩ := can_execute hfree₁ hactive₁
    (show legacyMeaning byteDialect (.insertGoods newPallet) s₁.view s₁.store.counter
      { affectedRows := 1, lastInsertId := 1 } _ _ _ from
      ⟨1, lit "2026-01-01 00:00:00", by decide, by decide, by rw [hview₁]; exact hnothing, rfl, rfl,
        rfl, rfl, rfl⟩)
  have hpallet : LegacyRows.goods s₂.view 1 = some palletRow := by
    rw [hview₂]
    rfl
  obtain ⟨s₃, h₃, -, -, hview₃, -⟩ := can_execute hfree₂ hactive₂
    (show legacyMeaning byteDialect (.selectGoods 1) s₂.view s₂.store.counter
      { rows := [palletRow.cells 1] } _ _ _ from ⟨⟨rfl, rfl, rfl⟩, by rw [hpallet]; rfl⟩)
  have hanswers : Program.Answers (answers (legacyMeaning byteDialect)) b.session palletEvents _ :=
    .cons (can_isolate .command) (.cons h₁ (.cons h₂ (.cons h₃ (.cons can_commit (.nil _)))))
  refine ⟨_, _, Call.intro hrun hanswers, ?_⟩
  show LegacyRows.goods (released _).store.rows 1 = _
  rw [released_rows]
  show LegacyRows.goods s₃.view 1 = _
  rw [hview₃]
  exact hpallet

/-- The pallet goes back to a login of a manager or an administrator. -/
theorem authorization_sound_firstPallet :
    ∃ login token row, LoggedIn byteDialect login token row ∧
      (row.role = lit "manager" ∨ row.role = lit "admin") := by
  obtain ⟨rows, counter, hlogin, hrows⟩ := call_login
  have hnothing : rows (.goods 1) = none := by
    rw [hrows]
    rfl
  obtain ⟨result, b', hcall, hstored⟩ :=
    call_pallet (b := ⟨aliceSession, 1, rows, counter⟩) rfl hnothing
  have hchanged : b'.rows.goods 1 ≠ rows.goods 1 := by
    rw [hstored]
    unfold LegacyRows.goods
    rw [hnothing]
    nofun
  obtain ⟨token, login, row, -, -, -, hlogged, hrole, -⟩ :=
    (authorization_sound rfl (Calls.nil.call hlogin)).1 _ _ _ hcall 1 hchanged
  exact ⟨login, token, row, hlogged, hrole⟩

end Witness

end Warehouse.Backend
