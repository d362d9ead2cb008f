/-
# Warehouse.Backend.OverlappingLogins — passwords while logins overlap

Logins replace hashes while others read them.  Still, at every moment the users are those of the
start, each with a hash that verifies exactly what the first one did; so however logins overlap, and
whatever fails, a login is decided as it would have been at the start.
-/
import Warehouse.Backend.AcceptedPasswords
import Warehouse.Backend.Refusals

namespace Warehouse.Backend

open Warehouse.Interaction Warehouse.Mysql Warehouse.Bootstrap

/-! ## Users whose passwords stay -/

/-- The same users, each with a stored value that verifies the same passwords. -/
structure SameUsers (sodium : Libsodium) (before after : Users) : Prop where
  absent : ∀ id, before id = none → after id = none
  kept : ∀ id row, before id = some row → ∃ stored,
    after id = some { row with password := stored } ∧ ∀ password,
      SodiumPasswordHasher.verify sodium stored password =
        SodiumPasswordHasher.verify sodium row.password password

section Users

variable {sodium : Libsodium} {token : ℕ → Bytes} {dialect : Dialect} {host : Host}
  {s : ServiceState} {request : Request} {view : request.View} {tables tables' : Tables}
  {before middle after : Users} {id : ℤ} {row : UserRow}

theorem SameUsers.refl (users : Users) : SameUsers sodium users users :=
  ⟨fun _ h => h, fun _ row h => ⟨row.password, h, fun _ => rfl⟩⟩

theorem SameUsers.trans (hfirst : SameUsers sodium before middle)
    (hsecond : SameUsers sodium middle after) : SameUsers sodium before after := by
  refine ⟨fun id hnone => hsecond.absent id (hfirst.absent id hnone), ?_⟩
  intro id row hrow
  obtain ⟨stored, hmiddle, hsame⟩ := hfirst.kept id row hrow
  obtain ⟨later, hafter, hagain⟩ := hsecond.kept id _ hmiddle
  exact ⟨later, hafter, fun password => (hagain password).trans (hsame password)⟩

/-- A hash of the password that the old one verified, in its place. -/
theorem SameUsers.update {hash password : Bytes} {drawn : ℕ} (hsound : sodium.Sound)
    (hrow : before id = some row)
    (hverified : SodiumPasswordHasher.verify sodium row.password password = true)
    (hhash : SodiumPasswordHasher.hash sodium drawn password = .ok hash) :
    SameUsers sodium before
      (Function.update before id (some { row with password := hash })) := by
  constructor
  · intro other hnone
    have hother : other ≠ id := by
      rintro rfl
      rw [hrow] at hnone
      cases hnone
    rwa [Function.update_of_ne hother]
  · intro other found hfound
    by_cases hother : other = id
    · subst hother
      obtain rfl : row = found := Option.some.inj (hrow.symm.trans hfound)
      refine ⟨hash, Function.update_self .., ?_⟩
      intro password'
      rw [Bool.eq_iff_iff, hsound.verifies_hash hhash]
      constructor
      · rintro rfl
        exact hverified
      · exact fun hverified' => hsound.unique hverified' hverified
    · exact ⟨found.password, by rwa [Function.update_of_ne hother], fun _ => rfl⟩

/-- No request does more to the users. -/
theorem Acts.sameUsers (hsound : sodium.Sound)
    (h : Acts dialect (sodiumHost sodium token) s tables request view tables') :
    SameUsers sodium tables.users tables'.users := by
  cases h with
  | upgrade hknows _ hhash => exact .update hsound hknows.found hknows.verified hhash
  | login => exact .refl _
  | list => exact .refl _
  | create => exact .refl _
  | take => exact .refl _

/-- A login that acts knows a user. -/
theorem Acts.knows {command : LoginCommand} {shown : LoginView}
    (h : Acts dialect host s tables request view tables')
    (hlogin : (⟨request, view⟩ : Σ request : Request, request.View) = ⟨.login command, shown⟩) :
    ∃ id row, Knows dialect host command tables id row ∧ shown.username = row.username ∧
      shown.role = row.role := by
  cases h with
  | login hknows _ hname hrole =>
      cases hlogin
      exact ⟨_, _, hknows, hname, hrole⟩
  | upgrade hknows _ _ hname hrole =>
      cases hlogin
      exact ⟨_, _, hknows, hname, hrole⟩
  | list => cases hlogin
  | create => cases hlogin
  | take => cases hlogin

end Users

/-! ## Logins in a run -/

section Runs

open RowSystem

variable {sodium : Libsodium} {dialect : Dialect} {incoming : ℕ → Incoming} {rows₀ : LegacyRows}
  {counter n k i : ℕ} {run : ℕ → Requests}

/-- A success with the view of one request is one of that request. -/
theorem view_of_reply {request request' : Request} {view : request.View} {view' : request'.View}
    (h : (⟨request, .ok view⟩ : Reply) = ⟨request', .ok view'⟩) :
    (⟨request, view⟩ : Σ request : Request, request.View) = ⟨request', view'⟩ := by
  cases h
  rfl

/-- A success is no refusal. -/
theorem not_refused_of_reply {request request' : Request} {view : request.View}
    {code : LegacyApplicationErrorCode} :
    (⟨request, .ok view⟩ : Reply) ≠ ⟨request', .error code⟩ := by
  intro h
  cases h

/-- A refusal is one of the request that is refused. -/
theorem refusal_of_reply {request request' : Request} {code : LegacyApplicationErrorCode}
    {result : Except LegacyApplicationErrorCode request'.View}
    (h : (⟨request, .error code⟩ : Reply) = ⟨request', result⟩) :
    request' = request ∧ result = .error code := by
  cases h
  exact ⟨rfl, rfl⟩

/-- Every service has this libsodium. -/
def OnSodium (sodium : Libsodium) (incoming : ℕ → Incoming) : Prop :=
  ∀ i, ∃ token, (incoming i).host = sodiumHost sodium token

/-- At every moment the users are those of the start. -/
theorem sameUsers_at (hsound : sodium.Sound) (hosts : OnSodium sodium incoming)
    (h : Overlap dialect incoming rows₀ run n) (hk : k ≤ n) :
    SameUsers sodium (tablesAt run 0).users (tablesAt run k).users := by
  induction k with
  | zero => exact .refl _
  | succ k ih =>
      apply (ih (by omega)).trans
      by_cases hchanged : tablesAt run (k + 1) = tablesAt run k
      · rw [hchanged]
        exact .refl _
      · obtain ⟨i, hcommits⟩ := commits_of_changed h (by omega) hchanged
        obtain ⟨view, heffect⟩ := effect_of_commits h (by omega) hcommits hchanged
        obtain ⟨token, htoken⟩ := hosts i
        have hacts := heffect.acts
        rw [htoken] at hacts
        exact hacts.sameUsers hsound

/-- A user who has the name at the start has it at every moment, and nobody else has. -/
theorem SameUsers.named {before after : Users} {username : Bytes} {id : ℤ} {row : UserRow}
    (h : SameUsers sodium before after) (hnamed : Named dialect before username id row) :
    ∃ stored, Named dialect after username id { row with password := stored } ∧ ∀ password,
      SodiumPasswordHasher.verify sodium stored password =
        SodiumPasswordHasher.verify sodium row.password password := by
  obtain ⟨stored, hafter, hsame⟩ := h.kept id row hnamed.found
  refine ⟨stored, ⟨hafter, hnamed.named, ?_⟩, hsame⟩
  intro other row' hother hname
  cases hbefore : before other with
  | none =>
      rw [h.absent other hbefore] at hother
      cases hother
  | some first =>
      obtain ⟨stored', hafter', -⟩ := h.kept other first hbefore
      obtain rfl : row' = { first with password := stored' } :=
        Option.some.inj (hother.symm.trans hafter')
      exact hnamed.only other first hbefore hname

/-- Logins that overlap are decided as at the start.  In every run of any requests, whatever fails:
the users are the same at every moment, each with a stored value that verifies the same passwords; a
login that succeeds has a password that the user of that name had at the start, and shows the name
and the role of that user; and one whose credentials are refused has not. -/
theorem overlappingLogins_decided (hsound : sodium.Sound) (hosts : OnSodium sodium incoming)
    (hrun : IsRun (legacyMeaning dialect).server run n)
    (hstart : run 0 = arrivals incoming rows₀ counter) :
    (∀ k ≤ n, SameUsers sodium rows₀.tables.users (tablesAt run k).users) ∧
    ∀ i command id row, Named dialect rows₀.tables.users command.username id row →
      (∀ view, ((run n).clients i).program = .ret ⟨.login command, .ok view⟩ →
        SodiumPasswordHasher.verify sodium row.password command.password = true ∧
        view.username = row.username ∧ view.role = row.role) ∧
      (((run n).clients i).program = .ret ⟨.login command, .error .invalidCredentials⟩ →
        SodiumPasswordHasher.verify sodium row.password command.password = false) := by
  have h := overlap_of_run hrun hstart
  have hfirst : (tablesAt run 0).users = rows₀.tables.users := by
    rw [tablesAt, hstart]
    rfl
  have husers : ∀ k ≤ n, SameUsers sodium rows₀.tables.users (tablesAt run k).users := by
    intro k hk
    rw [← hfirst]
    exact sameUsers_at hsound hosts h hk
  refine ⟨husers, ?_⟩
  intro i command id row hnamed
  obtain ⟨token, htoken⟩ := hosts i
  constructor
  · intro view hreplied
    obtain ⟨w, -, ⟨result, hresult, -⟩, -⟩ := h.returned (Nat.le_refl n) hreplied
    cases result with
    | error code => exact absurd hresult not_refused_of_reply
    | ok shown =>
        have hview := view_of_reply hresult.symm
        rw [hresult] at hreplied
        obtain ⟨k, hk, heffect, -⟩ := effect_of_replied h (Nat.le_refl n) hreplied
        obtain ⟨other, found, hknows, hname, hrole⟩ := heffect.acts.knows hview
        obtain ⟨stored, hnow, hsame⟩ := (husers k (by omega)).named hnamed
        obtain rfl := hnow.only other found hknows.found hknows.named
        obtain rfl : found = { row with password := stored } :=
          Option.some.inj (hknows.found.symm.trans hnow.found)
        have hverified := hknows.verified
        rw [htoken] at hverified
        exact ⟨(hsame _).symm.trans hverified, hname, hrole⟩
  · intro hrefused
    obtain ⟨w, -, ⟨result, hresult, -⟩, -⟩ := h.returned (Nat.le_refl n) hrefused
    obtain ⟨hlogin, rfl⟩ := refusal_of_reply hresult
    rw [hresult] at hrefused
    have hexcused := excused_of_replied h hrefused
    rw [hlogin, htoken] at hexcused
    obtain ⟨k, ⟨hk, -⟩, hsaid⟩ := hexcused
    obtain ⟨stored, hnow, hsame⟩ := (husers k (by omega)).named hnamed
    rcases hsaid with hnobody | ⟨other, found, hfound, hname, hunverified⟩
    · exact absurd hnow.named (hnobody id _ hnow.found)
    · obtain rfl := hnow.only other found hfound hname
      obtain rfl : found = { row with password := stored } :=
        Option.some.inj (hfound.symm.trans hnow.found)
      exact (hsame _).symm.trans hunverified

end Runs

/-! ## Carol logs in -/

section Witness

open RowSystem LoneSession

/-- Carol, whose password is hashed. -/
def carol : UserRow := ⟨lit "carol", secretHash, lit "admin"⟩

/-- She is the only user. -/
def carolAlone : LegacyRows :=
  fun key => if key = .users (.row 1) then some (.users (.user carol)) else none

/-- Somebody gives her name and her password. -/
def carolLogin : Incoming where
  host := sodiumHost secretSodium fun _ => []
  lease := .ok ()
  service := {}
  request := .login ⟨lit "carol", lit "secret"⟩

def carolEvents : SqlHistory LegacyStatement :=
  [⟨.control (.setIsolation .command), .ok {}⟩, ⟨.control (.start .command), .ok {}⟩,
    did (.findUser (lit "carol") true) { rows := [userCells 1 carol] }, ⟨.control .commit, .ok {}⟩]

/-- A server that finds her. -/
def carolServer : (call : ExecutorCall LegacyStatement) → Unit → call.Answer × Unit
  | .control _, s => (.ok {}, s)
  | .poison, s => ((), s)
  | .execute _, s => (.ok { rows := [userCells 1 carol] }, s)

theorem users_carolAlone (id : ℤ) :
    (LegacyRows.users carolAlone).user id = if id = 1 then some carol else none := by
  by_cases hid : id = 1 <;> simp [carolAlone, LegacyRows.users, UserEntries.user, hid]

theorem answers_carolLogin :
    ∃ after, Program.Answers (answers (legacyMeaning byteDialect))
      { store := { rows := carolAlone, counter := 2 } } carolEvents after := by
  obtain ⟨s₁, h₁, hfree₁, hactive₁, hview₁, -⟩ :=
    can_start (s := { store := { rows := carolAlone, counter := 2 } }) (legacyMeaning byteDialect) {}
      .command rfl
  have hcarol : (LegacyRows.users s₁.view).user 1 = some carol := by
    rw [hview₁]
    exact users_carolAlone 1
  obtain ⟨s₂, h₂, -⟩ := can_execute hfree₁ hactive₁
    (show legacyMeaning byteDialect (.findUser (lit "carol") true) s₁.view s₁.store.counter
      { rows := [userCells 1 carol] } _ _ _ from
      ⟨rfl, rfl, Or.inl ⟨1, carol, hcarol, rfl, rfl, rfl⟩⟩)
  exact ⟨_, .cons (can_isolate .command) (.cons h₁ (.cons h₂ (.cons can_commit (.nil _))))⟩

/-- She is let in with her password. -/
theorem overlappingLogins_decided_carol :
    ∃ (run : ℕ → Requests) (n : ℕ) (view : LoginView),
      run 0 = arrivals (fun _ => carolLogin) carolAlone 2 ∧
      ((run n).clients 0).program = .ret ⟨.login ⟨lit "carol", lit "secret"⟩, .ok view⟩ ∧
      SodiumPasswordHasher.verify secretSodium carol.password (lit "secret") = true := by
  obtain ⟨view, hrun⟩ : ∃ view, Program.Runs carolLogin.program carolEvents
      ⟨carolLogin.request, .ok view⟩ :=
    ⟨_, Program.runs_exec carolServer carolLogin.program ()⟩
  obtain ⟨after, hanswers⟩ := answers_carolLogin
  have hperformed : ∀ event ∈ carolEvents, event.1.performed event.2 = true := by
    simp [carolEvents, did, ExecutorCall.performed, Except.isOk, Except.toBool]
  obtain ⟨c, hreach, -, hreturned⟩ :=
    reachable_of_answers (c := arrivals (fun _ => carolLogin) carolAlone 2) hrun hanswers hperformed
      rfl rfl rfl rfl
  obtain ⟨run, n, hstart, rfl, hsteps⟩ := run_of_reachable hreach
  have hnamed : Named byteDialect carolAlone.tables.users (lit "carol") 1 carol := by
    refine ⟨users_carolAlone 1, rfl, ?_⟩
    intro id row hrow _
    have hrow : (LegacyRows.users carolAlone).user id = some row := hrow
    rw [users_carolAlone] at hrow
    by_contra hid
    rw [if_neg hid] at hrow
    cases hrow
  have hdecided := ((overlappingLogins_decided secretSodium_sound (fun _ => ⟨_, rfl⟩) hsteps hstart).2
    0 ⟨lit "carol", lit "secret"⟩ 1 carol hnamed).1 view hreturned
  exact ⟨run, n, view, hstart, hreturned, hdecided.1⟩

end Witness

end Warehouse.Backend
