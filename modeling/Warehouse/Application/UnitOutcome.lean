/-
# Warehouse.Application.UnitOutcome — what a use case returns is what became of its unit

A use case begins at most one unit of work, ends it exactly once, by `commit()` or by `rollback()`,
and succeeds if and only if that was a `commit()` that succeeded.  Nothing is asked of the
implementations behind the interfaces: the theorems are about every way of answering the calls.

The rules below follow the shape of the use cases.  A body keeps asking its repositories until it
either abandons the unit or concludes it; `withUnit` puts `begin` and the destructor around it.
-/
import Warehouse.Application.WarehouseService

namespace Warehouse

open Warehouse.Interaction Warehouse.Interaction.Program

/-! ## Traces of units -/

/-- What a call is to the unit of work of its use case. -/
inductive UnitRole
  | begins | works | ends | destroys | other
  deriving DecidableEq

/-- The part a call has in the life of a unit. -/
def ServiceCall.unitRole : ServiceCall → UnitRole
  | .begin _ => .begins
  | .unit (.repository _) => .works
  | .unit .commit => .ends
  | .unit .rollback => .ends
  | .destroy => .destroys
  | .createSession _ | .findSession _ | .verify .. | .needsRehash _ | .hash _ | .clear _ => .other

/-- No event of it has to do with a unit. -/
def Quiet (events : ServiceHistory) : Prop := ∀ event ∈ events, event.1.unitRole = .other

/-- No unit was begun: every attempt failed. -/
def NeverBegun (events : ServiceHistory) : Prop :=
  ∀ event ∈ events, event.1.unitRole = .other ∨
    ∃ (mode : WorkUnitMode) (f : PersistenceFailure), event = ⟨.begin mode, .error f⟩

/-- The commit that makes a unit's work last. -/
def committed : Event ServiceCall ServiceCall.Answer := ⟨.unit .commit, .ok ()⟩

/-- The events of a body: work, then one ending, then nothing that concerns the unit.  The ending
is a successful commit exactly if the body succeeds. -/
def Concluded (events : ServiceHistory) (succeeded : Prop) : Prop :=
  ∃ work ending between, events = work ++ ending :: between ∧
    (∀ event ∈ work, event.1.unitRole = .works ∨ event.1.unitRole = .other) ∧
    ending.1.unitRole = .ends ∧ Quiet between ∧ (succeeded ↔ ending = committed)

/-- The events of a use case that began a unit in the given mode. -/
def EndsOnce (mode : WorkUnitMode) (events : ServiceHistory) (succeeded : Prop) : Prop :=
  ∃ before body after, events =
      before ++ ⟨.begin mode, .ok ()⟩ :: (body ++ ⟨.destroy, ()⟩ :: after) ∧
    Quiet before ∧ Concluded body succeeded ∧ Quiet after

/-- The outcome of a use case mirrors the outcome of its unit, if it began one. -/
def Mirrors (mode : WorkUnitMode) (events : ServiceHistory) (succeeded : Prop) : Prop :=
  (NeverBegun events ∧ ¬ succeeded) ∨ EndsOnce mode events succeeded

section Lists

variable {events first second : ServiceHistory} {event : Event ServiceCall ServiceCall.Answer}
  {succeeded : Prop} {mode : WorkUnitMode}

theorem quiet_nil : Quiet [] := by simp [Quiet]

theorem Quiet.cons (hevent : event.1.unitRole = .other) (h : Quiet events) :
    Quiet (event :: events) := by
  intro e he
  rcases List.mem_cons.mp he with rfl | he
  · exact hevent
  · exact h e he

theorem Quiet.append (hfirst : Quiet first) (hsecond : Quiet second) : Quiet (first ++ second) := by
  intro e he
  rcases List.mem_append.mp he with he | he
  · exact hfirst e he
  · exact hsecond e he

theorem Quiet.neverBegun (h : Quiet events) : NeverBegun events := fun e he => Or.inl (h e he)

theorem Concluded.cons (hevent : event.1.unitRole = .works ∨ event.1.unitRole = .other)
    (h : Concluded events succeeded) : Concluded (event :: events) succeeded := by
  obtain ⟨work, ending, between, rfl, hwork, hrest⟩ := h
  refine ⟨event :: work, ending, between, rfl, ?_, hrest⟩
  intro e he
  rcases List.mem_cons.mp he with rfl | he
  · exact hevent
  · exact hwork e he

/-- What happens outside of the unit does not matter to it. -/
theorem Mirrors.cons (hevent : event.1.unitRole = .other) (h : Mirrors mode events succeeded) :
    Mirrors mode (event :: events) succeeded := by
  rcases h with ⟨hnever, hfailed⟩ | ⟨before, body, after, rfl, hbefore, hrest⟩
  · refine Or.inl ⟨?_, hfailed⟩
    intro e he
    rcases List.mem_cons.mp he with rfl | he
    · exact Or.inl hevent
    · exact hnever e he
  · exact Or.inr ⟨event :: before, body, after, rfl, hbefore.cons hevent, hrest⟩

theorem Mirrors.append (h : Mirrors mode first succeeded) (hsecond : Quiet second) :
    Mirrors mode (first ++ second) succeeded := by
  rcases h with ⟨hnever, hfailed⟩ | ⟨before, body, after, rfl, hbefore, hbody, hafter⟩
  · refine Or.inl ⟨?_, hfailed⟩
    intro e he
    rcases List.mem_append.mp he with he | he
    · exact hnever e he
    · exact Or.inl (hsecond e he)
  · exact Or.inr ⟨before, body, after ++ second, by simp, hbefore, hbody, hafter.append hsecond⟩

end Lists

/-! ## The rules -/

section Rules

variable {α : Type} {mode : WorkUnitMode} {code : LegacyApplicationErrorCode}

/-- A body that concludes its unit. -/
abbrev Concludes (body : ServiceProgram (Outcome α)) : Prop :=
  body.Traces fun events result => Concluded events (result.isOk = true)

/-- A use case whose outcome mirrors its unit's. -/
abbrev MirrorsUnit (mode : WorkUnitMode) (useCase : ServiceProgram (Outcome α)) : Prop :=
  useCase.Traces fun events result => Mirrors mode events (result.isOk = true)

theorem concludes_call {op : ServiceCall} {next : op.Answer → ServiceProgram (Outcome α)}
    (hop : op.unitRole = .works ∨ op.unitRole = .other) (hnext : ∀ answer, Concludes (next answer)) :
    Concludes (.call op next) := by
  intro answer
  exact (hnext answer).mono fun events result h => h.cons hop

theorem concludes_abandon : Concludes (abandon code : ServiceProgram (Outcome α)) := by
  intro answer
  exact ⟨[], ⟨.unit .rollback, answer⟩, [], rfl, by simp, rfl, quiet_nil,
    by simp [committed, Except.isOk, Except.toBool]⟩

/-- A conclusion goes on after its commit only with what does not concern the unit, and succeeds
then. -/
theorem concludes_conclude {next : ServiceProgram (Outcome α)}
    (hnext : next.Traces fun events result => Quiet events ∧ result.isOk = true) :
    Concludes (conclude code next) := by
  intro answer
  rcases answer with f | _
  · exact ⟨[], ⟨.unit .commit, .error f⟩, [], rfl, by simp, rfl, quiet_nil,
      by simp [committed, Except.isOk, Except.toBool]⟩
  · refine Traces.mono hnext ?_
    rintro events result ⟨hquiet, hok⟩
    exact ⟨[], committed, events, rfl, by simp, rfl, hquiet, by simp [hok]⟩

theorem mirrors_withUnit {body : ServiceProgram (Outcome α)} (hbody : Concludes body) :
    MirrorsUnit mode (withUnit mode code body) := by
  intro answer
  rcases answer with f | _
  · refine Or.inl ⟨?_, by simp [Except.isOk, Except.toBool]⟩
    intro event hevent
    obtain rfl := List.mem_singleton.mp hevent
    exact Or.inr ⟨mode, f, rfl⟩
  · refine (traces_bind body _).mpr (Traces.mono hbody ?_)
    intro events result hconcluded answer
    exact Or.inr ⟨[], events, [], rfl, quiet_nil, hconcluded, quiet_nil⟩

/-- A use case that fails before it begins a unit. -/
theorem mirrors_rejected : MirrorsUnit mode (.ret (.error code) : ServiceProgram (Outcome α)) :=
  Or.inl ⟨quiet_nil.neverBegun, by simp [Except.isOk, Except.toBool]⟩

theorem mirrors_authenticated {token : Bytes} {next : LegacyPrincipal → ServiceProgram (Outcome α)}
    (hnext : ∀ principal, MirrorsUnit mode (next principal)) :
    MirrorsUnit mode (authenticated token next) := by
  intro answer
  cases answer with
  | none => exact Mirrors.cons rfl mirrors_rejected
  | some principal => exact (hnext principal).mono fun events result h => h.cons rfl

theorem mirrors_authorized {token : Bytes} {next : LegacyPrincipal → ServiceProgram (Outcome α)}
    (hnext : ∀ principal, MirrorsUnit mode (next principal)) :
    MirrorsUnit mode (authorized token next) := by
  refine mirrors_authenticated fun principal => ?_
  split
  · exact mirrors_rejected
  · exact hnext principal

end Rules

/-! ## The use cases -/

theorem concludes_openSession (user : UserRecord) : Concludes (openSession user) :=
  concludes_conclude fun _ => ⟨quiet_nil.cons rfl, rfl⟩

theorem concludes_upgradePassword (command : LoginCommand) (user : UserRecord) :
    Concludes (upgradePassword command user) := by
  refine concludes_call (Or.inr rfl) fun rehash => ?_
  cases rehash with
  | false => exact concludes_openSession user
  | true =>
      refine concludes_call (Or.inr rfl) fun hashed => ?_
      rcases hashed with _ | hash
      · exact concludes_abandon
      · refine concludes_call (Or.inl rfl) fun updated => ?_
        rcases updated with _ | _
        · exact concludes_abandon
        · exact concludes_openSession user

theorem concludes_loginUnit (command : LoginCommand) : Concludes (loginUnit command) := by
  refine concludes_call (Or.inl rfl) fun found => ?_
  rcases found with _ | _ | user
  · exact concludes_abandon
  · exact concludes_abandon
  · refine concludes_call (Or.inr rfl) fun verified => ?_
    cases verified with
    | false => exact concludes_abandon
    | true => exact concludes_upgradePassword command user

theorem concludes_listUnit (query : ListGoodsQuery) : Concludes (listUnit query) := by
  refine concludes_call (Or.inl rfl) fun rows => ?_
  rcases rows with _ | rows
  · exact concludes_abandon
  · exact concludes_conclude ⟨quiet_nil, rfl⟩

theorem concludes_createUnit (goods : NewGoods) : Concludes (createUnit goods) := by
  refine concludes_call (Or.inl rfl) fun created => ?_
  rcases created with _ | created
  · exact concludes_abandon
  · exact concludes_conclude ⟨quiet_nil, rfl⟩

theorem concludes_takeUnit (goodsId : ℤ) (operatorName : Bytes) :
    Concludes (takeUnit goodsId operatorName) := by
  refine concludes_call (Or.inl rfl) fun outcome => ?_
  rcases outcome with _ | _ | _ | _
  · exact concludes_abandon
  · -- taken: the row is read back before the commit
    refine concludes_call (Or.inl rfl) fun record => ?_
    rcases record with _ | _ | record
    · exact concludes_abandon
    · exact concludes_abandon
    · exact concludes_conclude ⟨quiet_nil, rfl⟩
  · exact concludes_abandon
  · exact concludes_abandon

/-- The mode in which a request begins its unit. -/
def Request.mode : Request → WorkUnitMode
  | .listGoods _ => .shortRead
  | .login _ | .createGoods _ | .takeGoods _ => .command

theorem mirrors_login (command : LoginCommand) : MirrorsUnit .command (login command) := by
  have hguarded : MirrorsUnit .command (guardedLogin command) := by
    unfold guardedLogin
    split
    · exact mirrors_rejected
    · exact mirrors_withUnit (concludes_loginUnit command)
  refine (traces_bind (guardedLogin command) _).mpr (Traces.mono hguarded ?_)
  intro events result hmirrors answer
  exact hmirrors.append (quiet_nil.cons rfl)

theorem mirrors_createGoods (command : CreateGoodsCommand) :
    MirrorsUnit .command (createGoods command) := by
  refine mirrors_authorized fun principal => ?_
  dsimp only
  split
  · exact mirrors_rejected
  · exact mirrors_withUnit (concludes_createUnit _)

theorem mirrors_takeGoods (command : TakeGoodsCommand) :
    MirrorsUnit .command (takeGoods command) := by
  refine mirrors_authorized fun principal => ?_
  split
  · exact mirrors_rejected
  · exact mirrors_withUnit (concludes_takeUnit _ _)

theorem mirrors_run : (request : Request) → MirrorsUnit request.mode request.run
  | .login command => mirrors_login command
  | .listGoods query => mirrors_authenticated fun _ => mirrors_withUnit (concludes_listUnit query)
  | .createGoods command => mirrors_createGoods command
  | .takeGoods command => mirrors_takeGoods command

/-! ## Sessions -/

/-- What stands behind a new session: a login, the user it found, that user's password hash
verified against the given password, and a successful commit. -/
def Earned (request : Request) (past : ServiceHistory) (principal : LegacyPrincipal) : Prop :=
  ∃ (command : LoginCommand) (user : UserRecord), request = .login command ∧
    (⟨.unit (.repository (.findByUsername command.username true)), .ok (some user)⟩ :
      Event ServiceCall ServiceCall.Answer) ∈ past ∧
    (⟨.verify user.passwordHash command.password, true⟩ :
      Event ServiceCall ServiceCall.Answer) ∈ past ∧
    committed ∈ past ∧ principal = ⟨user.username, user.role⟩

/-- Sessions have to be earned. -/
def sessionDemand (request : Request) (past : ServiceHistory)
    (event : Event ServiceCall ServiceCall.Answer) : Prop :=
  ∀ principal, event.1 = .createSession principal → Earned request past principal

/-! ### Which calls a use case makes -/

section Calls

variable {α : Type} {P : ServiceCall → Prop} {mode : WorkUnitMode}
  {code : LegacyApplicationErrorCode} {token : Bytes}

theorem emits_abandon (hrollback : P (.unit .rollback)) :
    (abandon code : ServiceProgram (Outcome α)).Emits P := ⟨hrollback, fun _ => trivial⟩

theorem emits_conclude {next : ServiceProgram (Outcome α)} (hcommit : P (.unit .commit))
    (hnext : next.Emits P) : (conclude code next).Emits P := by
  refine ⟨hcommit, fun answer => ?_⟩
  rcases answer with _ | _
  · trivial
  · exact hnext

theorem emits_withUnit {body : ServiceProgram (Outcome α)} (hbegin : P (.begin mode))
    (hdestroy : P .destroy) (hbody : body.Emits P) : (withUnit mode code body).Emits P := by
  refine ⟨hbegin, fun answer => ?_⟩
  rcases answer with _ | _
  · trivial
  · exact emits_bind (p := body) hbody fun _ => ⟨hdestroy, fun _ => trivial⟩

theorem emits_authenticated {next : LegacyPrincipal → ServiceProgram (Outcome α)}
    (hfind : P (.findSession token)) (hnext : ∀ principal, (next principal).Emits P) :
    (authenticated token next).Emits P := by
  refine ⟨hfind, fun found => ?_⟩
  cases found with
  | none => trivial
  | some principal => exact hnext principal

theorem emits_authorized {next : LegacyPrincipal → ServiceProgram (Outcome α)}
    (hfind : P (.findSession token)) (hnext : ∀ principal, (next principal).Emits P) :
    (authorized token next).Emits P := by
  refine emits_authenticated hfind fun principal => ?_
  split
  · trivial
  · exact hnext principal

theorem emits_openSession {user : UserRecord} (hcommit : P (.unit .commit))
    (hcreate : P (.createSession ⟨user.username, user.role⟩)) : (openSession user).Emits P :=
  emits_conclude hcommit ⟨hcreate, fun _ => trivial⟩

/-- The calls of `login` inside its unit. -/
theorem emits_loginUnit {command : LoginCommand}
    (hfind : P (.unit (.repository (.findByUsername command.username true))))
    (hcommit : P (.unit .commit)) (hrollback : P (.unit .rollback))
    (hverify : ∀ hash, P (.verify hash command.password)) (hneeds : ∀ hash, P (.needsRehash hash))
    (hhash : P (.hash command.password))
    (hupdate : ∀ id hash, P (.unit (.repository (.updatePasswordHash id hash))))
    (hcreate : ∀ principal, P (.createSession principal)) : (loginUnit command).Emits P := by
  refine ⟨hfind, fun found => ?_⟩
  rcases found with f | _ | user
  · exact emits_abandon hrollback
  · exact emits_abandon hrollback
  refine ⟨hverify _, fun verified => ?_⟩
  cases verified with
  | false => exact emits_abandon hrollback
  | true =>
      refine ⟨hneeds _, fun needed => ?_⟩
      cases needed with
      | false => exact emits_openSession hcommit (hcreate _)
      | true =>
          refine ⟨hhash, fun hashed => ?_⟩
          cases hashed with
          | error e => exact emits_abandon hrollback
          | ok hash =>
              refine ⟨hupdate _ _, fun updated => ?_⟩
              cases updated with
              | error f => exact emits_abandon hrollback
              | ok _ => exact emits_openSession hcommit (hcreate _)

/-- The calls of `listGoods` inside its unit. -/
theorem emits_listUnit {query : ListGoodsQuery}
    (hlist : P (.unit (.repository (.list ⟨lowercaseAscii query.name, query.status⟩))))
    (hcommit : P (.unit .commit)) (hrollback : P (.unit .rollback)) :
    (listUnit query).Emits P := by
  refine ⟨hlist, fun rows => ?_⟩
  cases rows with
  | error f => exact emits_abandon hrollback
  | ok rows => exact emits_conclude hcommit trivial

/-- The calls of `createGoods` inside its unit. -/
theorem emits_createUnit {goods : NewGoods} (hcreate : P (.unit (.repository (.create goods))))
    (hcommit : P (.unit .commit)) (hrollback : P (.unit .rollback)) :
    (createUnit goods).Emits P := by
  refine ⟨hcreate, fun created => ?_⟩
  cases created with
  | error f => exact emits_abandon hrollback
  | ok created => exact emits_conclude hcommit trivial

/-- The calls of `takeGoods` inside its unit. -/
theorem emits_takeUnit {goodsId : ℤ} {operatorName : Bytes}
    (htake : P (.unit (.repository (.markTaken goodsId operatorName))))
    (hfind : P (.unit (.repository (.findById goodsId)))) (hcommit : P (.unit .commit))
    (hrollback : P (.unit .rollback)) : (takeUnit goodsId operatorName).Emits P := by
  refine ⟨htake, fun outcome => ?_⟩
  rcases outcome with f | outcome
  · exact emits_abandon hrollback
  cases outcome with
  | notFound => exact emits_abandon hrollback
  | alreadyTaken => exact emits_abandon hrollback
  | taken =>
      refine ⟨hfind, fun record => ?_⟩
      rcases record with f | _ | record
      · exact emits_abandon hrollback
      · exact emits_abandon hrollback
      · exact emits_conclude hcommit trivial

end Calls

/-- The calls of `listGoods` on its unit and elsewhere. -/
def ServiceCall.reads : ServiceCall → Prop
  | .begin mode => mode = .shortRead
  | .unit (.repository asked) => asked.writes = false
  | .unit _ | .destroy | .findSession _ => True
  | .createSession _ | .verify .. | .needsRehash _ | .hash _ | .clear _ => False

/-- Calls that open no session. -/
def ServiceCall.opensNone : ServiceCall → Prop
  | .createSession _ => False
  | _ => True

theorem listGoods_reads (query : ListGoodsQuery) : (listGoods query).Emits ServiceCall.reads :=
  emits_authenticated trivial fun _ =>
    emits_withUnit rfl trivial (emits_listUnit rfl trivial trivial)

theorem createGoods_opensNone (command : CreateGoodsCommand) :
    (createGoods command).Emits ServiceCall.opensNone := by
  refine emits_authorized trivial fun principal => ?_
  dsimp only
  split
  · trivial
  · exact emits_withUnit trivial trivial (emits_createUnit trivial trivial trivial)

theorem takeGoods_opensNone (command : TakeGoodsCommand) :
    (takeGoods command).Emits ServiceCall.opensNone := by
  refine emits_authorized trivial fun principal => ?_
  split
  · trivial
  · exact emits_withUnit trivial trivial (emits_takeUnit trivial trivial trivial trivial)

/-! ### Sessions are earned -/

section Earning

variable {α : Type} {request : Request} {past : ServiceHistory} {code : LegacyApplicationErrorCode}

/-- The session demand over the calls of a program. -/
abbrev EarnsSessions (request : Request) (program : ServiceProgram α) (past : ServiceHistory) : Prop :=
  wph (sessionDemand request) (fun _ _ => True) program past

theorem earns_of_emits {program : ServiceProgram α} (h : program.Emits ServiceCall.opensNone) :
    EarnsSessions request program past := by
  refine wph_of_emits h ?_ past
  rintro past ⟨op, answer⟩ hop principal rfl
  exact hop.elim

theorem earns_call {op : ServiceCall} {next : op.Answer → ServiceProgram α} (hop : op.opensNone)
    (hnext : ∀ answer, EarnsSessions request (next answer) (past ++ [⟨op, answer⟩])) :
    EarnsSessions request (.call op next) past := by
  refine (wph_call _ _ _).mpr fun answer => ⟨?_, hnext answer⟩
  rintro principal rfl
  exact hop.elim

/-- The user of a login was found, and the password verified. -/
def Verified (command : LoginCommand) (user : UserRecord) (past : ServiceHistory) : Prop :=
  (⟨.unit (.repository (.findByUsername command.username true)), .ok (some user)⟩ :
    Event ServiceCall ServiceCall.Answer) ∈ past ∧
  (⟨.verify user.passwordHash command.password, true⟩ : Event ServiceCall ServiceCall.Answer) ∈ past

theorem Verified.append {command : LoginCommand} {user : UserRecord} {new : ServiceHistory}
    (h : Verified command user past) : Verified command user (past ++ new) :=
  ⟨List.mem_append_left _ h.1, List.mem_append_left _ h.2⟩

variable {command : LoginCommand} {user : UserRecord}

theorem earns_openSession (h : Verified command user past) :
    EarnsSessions (.login command) (openSession user) past := by
  refine earns_call trivial fun answer => ?_
  rcases answer with _ | _
  · trivial
  · refine (wph_call _ _ _).mpr fun token => ⟨?_, trivial⟩
    rintro principal ⟨⟩
    exact ⟨command, user, rfl, h.append.1, h.append.2, List.mem_append_right _ (by simp [committed]),
      rfl⟩

theorem earns_upgradePassword (h : Verified command user past) :
    EarnsSessions (.login command) (upgradePassword command user) past := by
  refine earns_call trivial fun rehash => ?_
  cases rehash with
  | false => exact earns_openSession h.append
  | true =>
      refine earns_call trivial fun hashed => ?_
      rcases hashed with _ | hash
      · exact earns_of_emits (emits_abandon trivial)
      · refine earns_call trivial fun updated => ?_
        rcases updated with _ | _
        · exact earns_of_emits (emits_abandon trivial)
        · exact earns_openSession h.append.append.append

theorem earns_loginUnit : EarnsSessions (.login command) (loginUnit command) past := by
  refine earns_call trivial fun found => ?_
  rcases found with _ | _ | user
  · exact earns_of_emits (emits_abandon trivial)
  · exact earns_of_emits (emits_abandon trivial)
  · refine earns_call trivial fun verified => ?_
    cases verified with
    | false => exact earns_of_emits (emits_abandon trivial)
    | true =>
        refine earns_upgradePassword ⟨List.mem_append_left _ ?_, ?_⟩
        · exact List.mem_append_right _ (by simp)
        · exact List.mem_append_right _ (by simp)

theorem earns_login : EarnsSessions (.login command) (login command) past := by
  have hguarded : EarnsSessions (.login command) (guardedLogin command) past := by
    unfold guardedLogin
    split
    · trivial
    · refine earns_call trivial fun answer => ?_
      rcases answer with _ | _
      · trivial
      · refine (wp_bind (loginUnit command) _ _).mpr (wp_post earns_loginUnit ?_)
        exact fun result past _ => earns_of_emits ⟨trivial, fun _ => trivial⟩
  refine (wp_bind (guardedLogin command) _ _).mpr (wp_post hguarded ?_)
  exact fun result past _ => earns_of_emits ⟨trivial, fun _ => trivial⟩

theorem earns_run : (request : Request) → EarnsSessions request request.run past
  | .login _ => earns_login
  | .listGoods query => by
      refine earns_of_emits ((listGoods_reads query).mono ?_)
      rintro op hop
      cases op <;> trivial
  | .createGoods command => earns_of_emits (createGoods_opensNone command)
  | .takeGoods command => earns_of_emits (takeGoods_opensNone command)

end Earning

/-! ## The outcome of a use case -/

/-- Every use case, against every implementation: a unit that was begun is ended exactly once, and
the use case succeeds exactly if that was by a commit that succeeded; a session is created only by a
login that verified the user's password, after its commit succeeded; and a list only reads. -/
theorem useCase_mirrors_unit (request : Request) {events : ServiceHistory}
    {result : Outcome request.View} (hrun : Runs request.run events result) :
    Mirrors request.mode events (result.isOk = true) ∧
      (∀ past principal token future, events = past ++ ⟨.createSession principal, token⟩ :: future →
        Earned request past principal) ∧
      (∀ query, request = .listGoods query → ∀ event ∈ events, event.1.reads) := by
  refine ⟨(mirrors_run request).of_runs hrun, ?_, ?_⟩
  · intro past principal token future hsplit
    have hearned := (runs_of_wp (h := []) (earns_run request) hrun).2 past _ future hsplit
    exact hearned principal rfl
  · rintro query rfl
    exact Traces.of_runs (traces_of_emits (listGoods_reads query)) hrun

/-- A manager logs in: one unit, ended by its commit, and a session behind it. -/
theorem useCase_mirrors_unit_login :
    let request : Request := .login ⟨lit "manager", lit "secret"⟩
    ∃ events : ServiceHistory,
      Runs request.run events (.ok ⟨lit "token", lit "manager", lit "manager"⟩) ∧
        EndsOnce .command events (true = true) ∧
        ∃ past future, events = past ++
            ⟨.createSession ⟨lit "manager", lit "manager"⟩, lit "token"⟩ :: future ∧
          Earned request past ⟨lit "manager", lit "manager"⟩ := by
  intro request
  let user : UserRecord := ⟨1, lit "manager", lit "hash", lit "manager"⟩
  let past : ServiceHistory :=
    [⟨.begin .command, .ok ()⟩,
      ⟨.unit (.repository (.findByUsername (lit "manager") true)), .ok (some user)⟩,
      ⟨.verify (lit "hash") (lit "secret"), true⟩, ⟨.needsRehash (lit "hash"), false⟩,
      ⟨.unit .commit, .ok ()⟩]
  let future : ServiceHistory := [⟨.destroy, ()⟩, ⟨.clear (lit "secret"), ()⟩]
  let events : ServiceHistory :=
    past ++ ⟨.createSession ⟨lit "manager", lit "manager"⟩, lit "token"⟩ :: future
  have hrun : Runs request.run events (.ok ⟨lit "token", lit "manager", lit "manager"⟩) :=
    .call (.call (.call (.call (.call (.call (.call (.call (.ret _))))))))
  obtain ⟨hmirrors, hearned, _⟩ := useCase_mirrors_unit request hrun
  refine ⟨events, hrun, ?_, past, future, rfl, hearned past _ _ future rfl⟩
  rcases hmirrors with ⟨_, hfailed⟩ | hends
  · exact absurd rfl hfailed
  · exact hends

end Warehouse
