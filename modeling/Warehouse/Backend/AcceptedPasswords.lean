/-
# Warehouse.Backend.AcceptedPasswords — accepted passwords never change by themselves

What is stored for a user is rewritten in two places: the startup check puts a hash in the place of
plaintext, and a login puts a newer hash in the place of one that has just verified its password.
Either may be cut short by a statement, by the hashing or by the commit, and a commit that fails may
still have happened.  In every case a row holds what it held, or a hash of the password that it stood
for.
-/
import Mathlib.Logic.Relation
import Warehouse.Backend.PasswordHasher
import Warehouse.Backend.UnfailingLogin
import Warehouse.Bootstrap.StartupCheck

namespace Warehouse.Backend

open Warehouse.Interaction Warehouse.Mysql Warehouse.Bootstrap

/-! ## What a login makes of the users -/

/-- The users after a login: as they were, or with a new hash for one whose password was verified. -/
inductive Upgraded (host : Host) (command : LoginCommand) (before : Users) : Users → Prop
  | same : Upgraded host command before before
  | rehashed {id : ℤ} {row : UserRow} {hash : Bytes} {drawn : ℕ} : before id = some row →
      host.verify row.password command.password = true →
      host.hash drawn command.password = .ok hash →
      Upgraded host command before (Function.update before id (some { row with password := hash }))

/-- What a result says about the password: a success, that some row of that name verified it; and
`InvalidCredentials`, that there is no such row, or one that did not.  The other codes say nothing
about it. -/
def Verdict (host : Host) (dialect : Dialect) (command : LoginCommand) (users : Users) :
    Outcome LoginView → Prop
  | .ok view => ∃ id row, users id = some row ∧
      dialect.collation row.username = dialect.collation command.username ∧
      view.username = row.username ∧ command.password ≠ [] ∧
      host.verify row.password command.password = true
  | .error .invalidCredentials =>
      (∀ id row, users id = some row →
        dialect.collation row.username ≠ dialect.collation command.username) ∨
      ∃ id row, users id = some row ∧
        dialect.collation row.username = dialect.collation command.username ∧
        host.verify row.password command.password = false
  | .error .invalidLoginInput => command.username = [] ∨ command.password = []
  | .error code => code = .persistenceReadFailed ∨ code = .passwordUpgradeFailed

section Login

open Program LoneSession

variable {host : Host} {dialect : Dialect} {lease : Except SqlError Unit} {s : ServiceState}
  {command : LoginCommand} {user : UserRecord} {rows : LegacyRows}
  {d : LoneSession LegacyStatement LegacyKey LegacyRecord} {id : ℤ} {row : UserRow}

/-- The end of a login that found these rows. -/
structure Judged (host : Host) (dialect : Dialect) (command : LoginCommand) (rows : LegacyRows)
    (result : Outcome LoginView) (d : LoneSession LegacyStatement LegacyKey LegacyRecord) :
    Prop where
  users : Upgraded host command rows.users.user (LegacyRows.users d.store.rows).user
  verdict : Verdict host dialect command rows.users.user result

theorem judged_of_same {result : Outcome LoginView} (hrows : d.store.rows = rows)
    (hverdict : Verdict host dialect command rows.users.user result) :
    Judged host dialect command rows result d := by
  refine ⟨?_, hverdict⟩
  rw [hrows]
  exact .same

/-- Code inside the unit of work of a login; the transaction is over when it returns. -/
abbrev Judges (host : Host) (dialect : Dialect) (lease : Except SqlError Unit)
    (command : LoginCommand) (rows : LegacyRows) (p : ServiceProgram (Outcome LoginView))
    (s : ServiceState) (d : LoneSession LegacyStatement LegacyKey LegacyRecord) : Prop :=
  Serves host lease (answers (legacyMeaning dialect)) free
    (fun result d => result.2.unit.active = false ∧ Judged host dialect command rows result.1 d) p s d

/-- A login that gives up leaves the users as they were. -/
theorem judges_abandon {code : LegacyApplicationErrorCode} (hunit : s.unit = Transaction.opened)
    (hrows : d.store.rows = rows)
    (hverdict : Verdict host dialect command rows.users.user (.error code)) :
    Judges host dialect lease command rows (abandon code) s d := by
  apply serves_abandon
  rw [hunit]
  apply wp_post wp_rollback
  intro t d' hended
  obtain ⟨hinactive, hkept, -⟩ := hended
  exact ⟨hinactive, judged_of_same (hkept.trans hrows) hverdict⟩

/-- A commit that fails leaves the users as they were, or as the transaction saw them. -/
theorem judges_openSession (hunit : s.unit = Transaction.opened) (hrows : d.store.rows = rows)
    (hview : Upgraded host command rows.users.user (LegacyRows.users d.view).user)
    (hverdict : ∀ token, Verdict host dialect command rows.users.user
      (.ok { token := token, role := user.role, username := user.username })) :
    Judges host dialect lease command rows (openSession user) s d := by
  apply serves_conclude
  rw [hunit]
  apply wp_post wp_commit
  intro ended d' hended
  obtain ⟨committed, t⟩ := ended
  obtain ⟨hinactive, -, hcommitted⟩ := hended
  cases committed with
  | error f =>
      refine ⟨hinactive, ?_⟩
      rcases hcommitted with hkept | hdone
      · exact judged_of_same (hkept.trans hrows) (Or.inl rfl)
      · refine ⟨?_, Or.inl rfl⟩
        rw [hdone]
        exact hview
  | ok _ =>
      refine ⟨hinactive, ?_, hverdict _⟩
      have hdone : d'.store.rows = d.view := hcommitted
      rw [hdone]
      exact hview

/-- The update of a password, as its transaction sees it. -/
theorem wp_updatePasswordHash {userId : ℕ} {hash : Bytes} (hactive : d.active = true)
    (hrow : (LegacyRows.users d.view).user userId = some row) :
    (updatePasswordHash userId hash).wp (answers (legacyMeaning dialect)) free
      (fun updated d' => d'.store.rows = d.store.rows ∧ (updated = .ok () →
        (LegacyRows.users d'.view).user = Function.update (LegacyRows.users d.view).user userId
          (some { row with password := hash }))) d := by
  intro answer after hanswers
  refine ⟨trivial, ?_⟩
  cases answer with
  | error e => exact ⟨refused_rows hanswers rfl nofun, nofun⟩
  | ok response =>
      obtain ⟨writes, locks, counter, hmeaning, hrows, -, hview⟩ :=
        answers_executed hactive hanswers
      obtain ⟨userWrites, userLocks, hupdated, hover⟩ := users_over_onUsers hmeaning
      have hafter : (LegacyRows.users after.view).user =
          Function.update (LegacyRows.users d.view).user userId
            (some { row with password := hash }) := by
        obtain ⟨-, hwritten⟩ := hupdated
        rw [hrow] at hwritten
        obtain ⟨rfl, -, -⟩ := hwritten
        rw [hview]
        show (LegacyRows.over writes d.view).users.user = _
        rw [hover, user_over_writeUser]
      show (ite (response.affectedRows ≠ 1) _ _ : LegacyProgram _).wp _ _ _ after
      split
      · exact ⟨hrows, nofun⟩
      · exact ⟨hrows, fun _ => hafter⟩

/-- A hash takes the place of the one that verified the password, if anything does. -/
theorem judges_upgradePassword (hunit : s.unit = Transaction.opened) (hactive : d.active = true)
    (hrows : d.store.rows = rows) (hview : d.view = rows)
    (hrow : rows.users.user id = some row) (hname : dialect.collation row.username =
      dialect.collation command.username) (hid : (user.id : ℤ) = id)
    (husername : user.username = row.username) (hpassword : command.password ≠ [])
    (hverified : host.verify row.password command.password = true) :
    Judges host dialect lease command rows (upgradePassword command user) s d := by
  have hverdict : ∀ token, Verdict host dialect command rows.users.user
      (.ok { token := token, role := user.role, username := user.username }) :=
    fun _ => ⟨id, row, hrow, hname, husername, hpassword, hverified⟩
  show wp _ _ _ ((if host.needsRehash user.passwordHash then _ else openSession user :
    ServiceProgram (Outcome LoginView)).interpret (performService host lease) s) d
  split
  · apply serves_hash
    cases hhashed : host.hash s.drawn command.password with
    | error e => exact judges_abandon hunit hrows (Or.inr rfl)
    | ok hash =>
        apply serves_repository
        subst hid
        rw [← hview] at hrow
        apply wp_post (wp_updatePasswordHash hactive hrow)
        intro updated d' hupdated
        obtain ⟨hkept, hafter⟩ := hupdated
        cases updated with
        | error f => exact judges_abandon hunit (hkept.trans hrows) (Or.inr rfl)
        | ok _ =>
            have hupgraded :
                Upgraded host command rows.users.user (LegacyRows.users d'.view).user := by
              rw [hafter rfl, hview]
              rw [hview] at hrow
              exact .rehashed hrow hverified hhashed
            exact judges_openSession hunit (hkept.trans hrows) hupgraded hverdict
  · apply judges_openSession hunit hrows _ hverdict
    rw [hview]
    exact .same

/-- A login inside its unit of work. -/
theorem judges_loginUnit (hunit : s.unit = Transaction.opened) (hactive : d.active = true)
    (hrows : d.store.rows = rows) (hview : d.view = rows) (hpassword : command.password ≠ []) :
    Judges host dialect lease command rows (loginUnit command) s d := by
  apply serves_repository
  apply wp_post (wp_findByUsername hactive)
  intro found d' hfound
  obtain ⟨hkept, hfinds, hsame⟩ := hfound
  rw [hview] at hfinds
  have hrows' : d'.store.rows = rows := hkept.trans hrows
  rcases found with f | _ | user
  · exact judges_abandon hunit hrows' (Or.inl rfl)
  · exact judges_abandon hunit hrows' (Or.inl hfinds)
  obtain ⟨hactive', hview'⟩ := hsame _ rfl
  obtain ⟨id, row, hrow, hname, hid, husername, hstored, -⟩ := hfinds
  show wp _ _ _ ((ite (host.verify user.passwordHash command.password = true) _ _ :
    ServiceProgram (Outcome LoginView)).interpret (performService host lease) s) d'
  rw [hstored]
  split
  · rename_i hverified
    exact judges_upgradePassword hunit hactive' hrows' (hview'.trans hview) hrow hname hid husername
      hpassword hverified
  · rename_i hrefused
    exact judges_abandon hunit hrows'
      (Or.inr ⟨id, row, hrow, hname, by simpa using hrefused⟩)

/-- `login` under its guard, on a session that is its own. -/
theorem wp_guardedLogin (hidle : d.Idle) :
    Serves host lease (answers (legacyMeaning dialect)) free
      (fun result d' => Judged host dialect command d.store.rows result.1 d')
      (guardedLogin command) s d := by
  show wp _ _ _ ((ite _ _ _ : ServiceProgram _).interpret (performService host lease) s) d
  split
  · rename_i hempty
    have hmissing : command.username = [] ∨ command.password = [] := by simpa using hempty
    exact judged_of_same rfl hmissing
  rename_i hfilled
  have hpassword : command.password ≠ [] := by
    simp only [Bool.or_eq_true, List.isEmpty_iff, not_or] at hfilled
    exact hfilled.2
  apply serves_withUnit
  cases lease with
  | error e => exact judged_of_same rfl (Or.inl rfl)
  | ok leased =>
      unfold beginUnitOfWork
      rw [wp_bind]
      apply wp_post (wp_begin .command hidle)
      intro begun d₁ hbegun
      obtain ⟨hrows, hbegun⟩ := hbegun
      cases begun with
      | error f => exact judged_of_same hrows (Or.inl rfl)
      | ok t =>
          obtain ⟨rfl, hactive, hview⟩ := hbegun
          apply wp_post (judges_loginUnit rfl hactive hrows hview hpassword)
          intro result d₂ hresult
          obtain ⟨hinactive, hjudged⟩ := hresult
          -- the unit of work is over, so its destructor sends nothing
          rw [Transaction.destroy_inactive hinactive]
          exact hjudged

/-- The guard that clears the password sends nothing either. -/
theorem wp_judgedLogin (hidle : d.Idle) :
    (serve host lease (.login command) s).wp (answers (legacyMeaning dialect)) free
      (fun result d' => Judged host dialect command d.store.rows result.1 d') d := by
  show ((guardedLogin command >>= fun result => clearPassword command.password >>= fun _ =>
    pure result).interpret (performService host lease) s).wp _ _ _ d
  rw [interpret_bind, wp_bind]
  apply wp_post (wp_guardedLogin hidle)
  intro result d' hjudged
  show Judged host dialect command d.store.rows result.1 d'
  exact hjudged

/-- A call of `login`, whatever the pool and the server answer. -/
theorem Call.judged {b b' : Deployment} {result : Outcome LoginView}
    (h : Call host dialect b (.login command) result b') :
    Upgraded host command b.rows.users.user b'.rows.users.user ∧
      Verdict host dialect command b.rows.users.user result := by
  obtain @⟨lease, events, result, s', after, hrun, hanswers⟩ := h
  obtain ⟨hjudged, -⟩ := runs_under (wp_judgedLogin ⟨rfl, rfl⟩) hrun hanswers
  refine ⟨?_, hjudged.verdict⟩
  show Upgraded _ _ _ (LegacyRows.users after.released.store.rows).user
  rw [released_rows]
  exact hjudged.users

end Login

/-! ## What becomes of a stored value -/

section Stored

variable {sodium : Libsodium} {token : ℕ → Bytes} {command : LoginCommand}
  {stored first second password : Bytes} {before middle after : Users} {id : ℤ} {row : UserRow}

/-- A stored value and a later one: the same, a hash of it where it was plaintext, or a hash of the
password that it verified. -/
inductive Renewed (sodium : Libsodium) (stored : Bytes) : Bytes → Prop
  | same : Renewed sodium stored stored
  | migrated {hash : Bytes} : looksLikeArgonHash stored = false →
      SodiumPasswordHasher.verify sodium hash stored = true → Renewed sodium stored hash
  | upgraded {hash password : Bytes} : SodiumPasswordHasher.verify sodium stored password = true →
      SodiumPasswordHasher.verify sodium hash password = true → Renewed sodium stored hash

/-- A hash becomes nothing but a hash. -/
theorem Renewed.looksLike (hsound : sodium.Sound) (h : Renewed sodium stored first)
    (hhash : looksLikeArgonHash stored = true) : looksLikeArgonHash first = true := by
  cases h with
  | same => exact hhash
  | migrated _ hverified => exact hsound.looksLike hverified
  | upgraded _ hverified => exact hsound.looksLike hverified

theorem Renewed.trans (hsound : sodium.Sound) (hfirst : Renewed sodium stored first)
    (hsecond : Renewed sodium first second) : Renewed sodium stored second := by
  cases hsecond with
  | same => exact hfirst
  | migrated hplain hverified =>
      -- what is plaintext in between has been so from the start
      cases hfirst with
      | same => exact .migrated hplain hverified
      | migrated _ hearlier =>
          rw [hsound.looksLike hearlier] at hplain
          cases hplain
      | upgraded _ hearlier =>
          rw [hsound.looksLike hearlier] at hplain
          cases hplain
  | upgraded hverified hrenewed =>
      cases hfirst with
      | same => exact .upgraded hverified hrenewed
      | migrated hplain hearlier =>
          obtain rfl := hsound.unique hearlier hverified
          exact .migrated hplain hrenewed
      | upgraded hstored hearlier =>
          obtain rfl := hsound.unique hearlier hverified
          exact .upgraded hstored hrenewed

/-- Once the stored value is a hash, what it verifies stays. -/
theorem Renewed.verify_iff (hsound : sodium.Sound) (h : Renewed sodium stored first)
    (hhash : looksLikeArgonHash stored = true) :
    SodiumPasswordHasher.verify sodium first password = true ↔
      SodiumPasswordHasher.verify sodium stored password = true := by
  cases h with
  | same => exact Iff.rfl
  | migrated hplain _ =>
      rw [hhash] at hplain
      cases hplain
  | upgraded hstored hrenewed =>
      constructor
      · intro hverified
        obtain rfl := hsound.unique hrenewed hverified
        exact hstored
      · intro hverified
        obtain rfl := hsound.unique hstored hverified
        exact hrenewed

/-- Plaintext verifies nothing; a hash in its place verifies what it was. -/
theorem Renewed.of_plaintext (hsound : sodium.Sound) (h : Renewed sodium stored first)
    (hplain : looksLikeArgonHash stored = false) :
    first = stored ∨ looksLikeArgonHash first = true ∧
      SodiumPasswordHasher.verify sodium first stored = true := by
  cases h with
  | same => exact Or.inl rfl
  | migrated _ hverified => exact Or.inr ⟨hsound.looksLike hverified, hverified⟩
  | upgraded hstored _ =>
      rw [hsound.looksLike hstored] at hplain
      cases hplain

/-- Every user is still there, with the name and the role, and with a renewed password. -/
def Preserved (sodium : Libsodium) (before after : Users) : Prop :=
  ∀ id row, before id = some row → ∃ password, after id = some { row with password := password } ∧
    Renewed sodium row.password password

theorem Preserved.refl (users : Users) : Preserved sodium users users :=
  fun _ row hrow => ⟨row.password, hrow, .same⟩

theorem Preserved.trans (hsound : sodium.Sound) (hfirst : Preserved sodium before middle)
    (hsecond : Preserved sodium middle after) : Preserved sodium before after := by
  intro id row hrow
  obtain ⟨password, hmiddle, hrenewed⟩ := hfirst id row hrow
  obtain ⟨later, hafter, hagain⟩ := hsecond id _ hmiddle
  exact ⟨later, hafter, hrenewed.trans hsound hagain⟩

/-- One password is renewed. -/
theorem Preserved.update {current : UserRow} {hash : Bytes} (h : Preserved sodium before after)
    (hcurrent : after id = some current)
    (hrenewed : ∀ row, before id = some row → Renewed sodium row.password hash) :
    Preserved sodium before (Function.update after id (some { current with password := hash })) := by
  intro other row hrow
  obtain ⟨password, hafter, hsame⟩ := h other row hrow
  by_cases hid : other = id
  · subst hid
    obtain rfl : current = { row with password := password } :=
      Option.some.inj (hcurrent.symm.trans hafter)
    exact ⟨hash, Function.update_self .., hrenewed row hrow⟩
  · exact ⟨password, by rwa [Function.update_of_ne hid], hsame⟩

/-- A login hashes the password that it has verified. -/
theorem Upgraded.preserved (hsound : sodium.Sound)
    (h : Upgraded (sodiumHost sodium token) command before after) :
    Preserved sodium before after := by
  cases h with
  | same => exact .refl before
  | @rehashed id row hash drawn hrow hverified hhashed =>
      apply (Preserved.refl before).update hrow
      intro found hfound
      obtain rfl : row = found := Option.some.inj (hrow.symm.trans hfound)
      exact .upgraded hverified ((hsound.verifies_hash hhashed).mpr rfl)

variable {configuration : LegacyStartupConfiguration} {collation : Collation} {calls : ℕ}
  {done : List ℤ}

/-- The loop of the check hashes the plaintext that it has read. -/
theorem preserved_of_rewritten (hsound : sodium.Sound)
    (h : Rewritten (sodium.after calls) configuration before done after) :
    Preserved sodium before after := by
  induction h with
  | start => exact .refl before
  | skip _ _ _ ih => exact ih
  | rehash _ hrow hcurrent hplain _ hhashed ih =>
      apply ih.update hcurrent
      intro found hfound
      obtain rfl := Option.some.inj (hrow.symm.trans hfound)
      exact .migrated (classify_plaintext_iff.mp hplain)
        ((hsound.verifies_hash (Libsodium.hash_after hhashed)).mpr rfl)

/-- And leaves a hash in every row that it has come to. -/
theorem looksLike_of_rewritten (hsound : sodium.Sound)
    (h : Rewritten (sodium.after calls) configuration before done after) (hdone : id ∈ done)
    (hrow : after id = some row) : looksLikeArgonHash row.password = true := by
  induction h generalizing row with
  | start => cases hdone
  | @skip done after other found hearlier hfound hhashed ih =>
      rcases List.mem_append.mp hdone with hold | hnew
      · exact ih hold hrow
      obtain rfl : id = other := List.mem_singleton.mp hnew
      obtain ⟨password, hafter, hrenewed⟩ := preserved_of_rewritten hsound hearlier id found hfound
      obtain rfl := Option.some.inj (hrow.symm.trans hafter)
      apply hrenewed.looksLike hsound
      by_contra hplain
      rw [Hashed, classify_plaintext_iff.mpr (by simpa using hplain)] at hhashed
      cases hhashed
  | @rehash done after other found current calls hash hearlier hfound hcurrent hplain _ hhashed ih =>
      by_cases hid : id = other
      · subst hid
        rw [Function.update_self, Option.some.injEq] at hrow
        rw [← hrow]
        exact hsound.looksLike ((hsound.verifies_hash (Libsodium.hash_after hhashed)).mpr rfl)
      · rw [Function.update_of_ne hid] at hrow
        have hold : id ∈ done := by simpa [hid] using hdone
        exact ih hold hrow

/-- A check that comes to its commit has renewed passwords, and for the users there were, all of them
are hashes. -/
theorem preserved_of_prepared (hsound : sodium.Sound)
    (h : Prepared (sodium.after calls) collation configuration before after) :
    Preserved sodium before after ∧ ∀ id row, before id ≠ none → after id = some row →
      looksLikeArgonHash row.password = true := by
  cases h with
  | administered hrewritten hdone _ =>
      exact ⟨preserved_of_rewritten hsound hrewritten, fun id row hsome hrow =>
        looksLike_of_rewritten hsound hrewritten (hdone id hsome) hrow⟩
  | @created done middle new _ _ username hash hrewritten hdone _ hfresh _ =>
      have hpreserved := preserved_of_rewritten hsound hrewritten
      -- a user who was there does not have the new id
      have hother : ∀ id, before id ≠ none → id ≠ new := by
        intro id hsome hid
        subst hid
        obtain ⟨row, hrow⟩ := Option.ne_none_iff_exists'.mp hsome
        obtain ⟨password, hmiddle, -⟩ := hpreserved id row hrow
        rw [hfresh] at hmiddle
        cases hmiddle
      refine ⟨?_, ?_⟩
      · intro id row hrow
        obtain ⟨password, hmiddle, hrenewed⟩ := hpreserved id row hrow
        refine ⟨password, ?_, hrenewed⟩
        rwa [Function.update_of_ne (hother id (by rw [hrow]; nofun))]
      · intro id row hsome hrow
        rw [Function.update_of_ne (hother id hsome)] at hrow
        exact looksLike_of_rewritten hsound hrewritten (hdone id hsome) hrow

end Stored

/-! ## Histories of startup checks and logins -/

/-- The rows of both tables, with another users table. -/
def LegacyRows.withUsers (rows : LegacyRows) (entries : UserEntries) : LegacyRows
  | .goods id => rows (.goods id)
  | .users key => (entries key).map .users

theorem users_withUsers (rows : LegacyRows) (entries : UserEntries) :
    (rows.withUsers entries).users = entries := by
  funext key
  cases hentry : entries key with
  | none => simp [LegacyRows.users, LegacyRows.withUsers, hentry]
  | some entry => simp [LegacyRows.users, LegacyRows.withUsers, hentry]

/-- The session of the server that a startup check gets. -/
def checkSession (rows : LegacyRows) (counter : ℕ) : CheckSession where
  store := { rows := rows.users, counter := counter }

/-- A startup check, with any configuration and whatever the pool, the server and libsodium answer.
`drawn` is how much has been drawn before. -/
inductive StartupCall (sodium : Libsodium) (dialect : Dialect) (rows : LegacyRows) :
    Except StartupFailure Unit → LegacyRows → Prop
  | intro {configuration : LegacyStartupConfiguration} {lease : Except SqlError Unit}
      {events : SqlHistory StartupStatement} {result : Except StartupFailure Unit}
      {drawn counter : ℕ} {after : CheckSession} :
      Program.Runs (runLegacyStartupChecks (sodium.after drawn) configuration lease) events result →
      Program.Answers (LoneSession.answers (usersMeaning dialect.collation))
        (checkSession rows counter) events after →
      StartupCall sodium dialect rows result (rows.withUsers after.released.store.rows)

/-- A login, or the start of another process, of which the first thing is the check; only the rows
outlive a process. -/
inductive AccountStep (sodium : Libsodium) (token : ℕ → Bytes) (dialect : Dialect)
    (b : Deployment) : Deployment → Prop
  | login {command : LoginCommand} {result : Outcome LoginView} {b' : Deployment} :
      Call (sodiumHost sodium token) dialect b (.login command) result b' →
      AccountStep sodium token dialect b b'
  | startup {result : Except StartupFailure Unit} {b' : Deployment} :
      StartupCall sodium dialect b.rows result b'.rows → AccountStep sodium token dialect b b'

/-- Any number of these. -/
abbrev AccountHistory (sodium : Libsodium) (token : ℕ → Bytes) (dialect : Dialect) :
    Deployment → Deployment → Prop :=
  Relation.ReflTransGen (AccountStep sodium token dialect)

section Histories

variable {sodium : Libsodium} {token : ℕ → Bytes} {dialect : Dialect} {rows rows' : LegacyRows}
  {start b b' : Deployment} {result : Except StartupFailure Unit} {id : ℤ} {row : UserRow}

/-- A startup check renews passwords; one that succeeds leaves no plaintext. -/
theorem StartupCall.preserved (hsound : sodium.Sound) (h : StartupCall sodium dialect rows result rows') :
    Preserved sodium rows.users.user rows'.users.user ∧ (result = .ok () →
      ∀ id row, rows.users.user id ≠ none → rows'.users.user id = some row →
        looksLikeArgonHash row.password = true) := by
  obtain @⟨configuration, lease, events, result, drawn, counter, after, hrun, hanswers⟩ := h
  have hidle : (checkSession rows counter).Idle := ⟨rfl, rfl⟩
  obtain ⟨⟨-, hresult⟩, -⟩ :=
    Program.runs_under (wp_runLegacyStartupChecks lease hidle rfl) hrun hanswers
  rw [users_withUsers, LoneSession.released_rows]
  cases result with
  | error f =>
      refine ⟨?_, nofun⟩
      rcases hresult with hkept | ⟨-, hprepared⟩
      · rw [hkept]
        exact .refl _
      · exact (preserved_of_prepared hsound hprepared).1
  | ok _ =>
      obtain ⟨hpreserved, hhashes⟩ := preserved_of_prepared hsound hresult
      exact ⟨hpreserved, fun _ => hhashes⟩

theorem AccountStep.preserved (hsound : sodium.Sound)
    (h : AccountStep sodium token dialect b b') :
    Preserved sodium b.rows.users.user b'.rows.users.user := by
  cases h with
  | login hcall => exact hcall.judged.1.preserved hsound
  | startup hcall => exact (hcall.preserved hsound).1

/-- Over any number of steps. -/
theorem preserved_of_history (hsound : sodium.Sound)
    (h : AccountHistory sodium token dialect start b) :
    Preserved sodium start.rows.users.user b.rows.users.user := by
  induction h with
  | refl => exact .refl _
  | tail _ hstep ih => exact ih.trans hsound (hstep.preserved hsound)

/-! ## Accepted passwords -/

/-- The password is accepted of the user with this row. -/
def Accepts (sodium : Libsodium) (row : UserRow) (password : Bytes) : Prop :=
  password ≠ [] ∧ SodiumPasswordHasher.verify sodium row.password password = true

/-- What the result of a login says of the user whose name was given: a success, that the password is
accepted, and a refusal, that it is not.  Anything else is a failure. -/
structure Decided (sodium : Libsodium) (command : LoginCommand) (row : UserRow)
    (result : Outcome LoginView) : Prop where
  accepted : ∀ view, result = .ok view →
    Accepts sodium row command.password ∧ view.username = row.username
  refused : result = .error .invalidCredentials ∨
    result = .error .invalidLoginInput ∧ command.username ≠ [] →
      ¬ Accepts sodium row command.password
  failed : ∀ code, result = .error code → code ≠ .invalidCredentials → code ≠ .invalidLoginInput →
    code = .persistenceReadFailed ∨ code = .passwordUpgradeFailed

/-- A login decides by the row that has the name. -/
theorem decided_of_verdict {command : LoginCommand} {result : Outcome LoginView} {users : Users}
    (h : Verdict (sodiumHost sodium token) dialect command users result)
    (hnamed : Named dialect users command.username id row) :
    Decided sodium command row result := by
  have hsame : ∀ other row', users other = some row' →
      dialect.collation row'.username = dialect.collation command.username → row' = row := by
    intro other row' hfound hname
    obtain rfl := hnamed.only other row' hfound hname
    exact Option.some.inj (hfound.symm.trans hnamed.found)
  cases result with
  | ok view =>
      obtain ⟨other, row', hfound, hname, husername, hpassword, hverified⟩ := h
      obtain rfl := hsame other row' hfound hname
      refine ⟨?_, by simp, nofun⟩
      intro view' hview
      obtain rfl : view = view' := Except.ok.inj hview
      exact ⟨⟨hpassword, hverified⟩, husername⟩
  | error code =>
      refine ⟨nofun, ?_, ?_⟩
      · intro hrefused haccepts
        obtain ⟨hpassword, hverified⟩ := haccepts
        rcases hrefused with hcode | ⟨hcode, husername⟩
        · obtain rfl := Except.error.inj hcode
          rcases h with hnobody | ⟨other, row', hfound, hname, hunverified⟩
          · exact hnobody id row hnamed.found hnamed.named
          · obtain rfl := hsame other row' hfound hname
            have hboth : true = false := hverified.symm.trans hunverified
            cases hboth
        · obtain rfl := Except.error.inj hcode
          exact h.elim husername hpassword
      · intro code' hcode hcredentials hinput
        obtain rfl : code = code' := Except.error.inj hcode
        cases code <;> first | exact h | contradiction

/-- Where nothing fails, what is accepted gets in, and nothing else does. -/
theorem ok_iff_accepts {command : LoginCommand} {result : Outcome LoginView} {number : ℕ}
    (h : UnfailingLogin (sodiumHost sodium token) dialect b command result b')
    (husername : command.username ≠ []) (hnumber : number < 2 ^ 64)
    (hnamed : Named dialect b.rows.users.user command.username number row)
    (hhash : HasNewHash (sodiumHost sodium token) row.password command.password) :
    (∃ view, result = .ok view) ↔ Accepts sodium row command.password := by
  constructor
  · rintro ⟨view, hview⟩
    exact ((decided_of_verdict h.call.judged.2 hnamed).accepted view hview).1
  · rintro ⟨hpassword, hverified⟩
    exact h.opens husername hpassword hnamed hnumber hverified hhash

/-- What is accepted of a renewed hash is what was accepted before. -/
theorem accepts_iff_of_renewed {password stored : Bytes} (hsound : sodium.Sound)
    (h : Renewed sodium row.password stored) (hhash : looksLikeArgonHash row.password = true) :
    Accepts sodium { row with password := stored } password ↔ Accepts sodium row password :=
  and_congr_right fun _ => h.verify_iff hsound hhash

/-- Of a hash that verifies `secret`, only that is accepted. -/
theorem accepts_iff_eq {password secret : Bytes} (hsound : sodium.Sound) (hsecret : secret ≠ [])
    (hverified : SodiumPasswordHasher.verify sodium row.password secret = true) :
    Accepts sodium row password ↔ password = secret := by
  constructor
  · intro haccepts
    exact hsound.unique haccepts.2 hverified
  · intro hpassword
    rw [hpassword]
    exact ⟨hsecret, hverified⟩

/-- Of plaintext, nothing is. -/
theorem not_accepts_of_plaintext {password : Bytes} (hsound : sodium.Sound)
    (hplain : looksLikeArgonHash row.password = false) : ¬ Accepts sodium row password := by
  intro haccepts
  rw [hsound.looksLike haccepts.2] at hplain
  cases hplain

/-- A plaintext password, at any later time: it is still there, or a hash of it is. -/
theorem plaintext_of_preserved {users users' : Users} (hsound : sodium.Sound)
    (h : Preserved sodium users users') (hrow : users id = some row)
    (hplain : looksLikeArgonHash row.password = false) (hfilled : row.password ≠ []) :
    users' id = some row ∨ ∃ stored, users' id = some { row with password := stored } ∧
      looksLikeArgonHash stored = true ∧
      ∀ password, Accepts sodium { row with password := stored } password ↔
        password = row.password := by
  obtain ⟨stored, hlater, hrenewed⟩ := h id row hrow
  rcases hrenewed.of_plaintext hsound hplain with rfl | ⟨hhash, hverified⟩
  · exact Or.inl hlater
  · exact Or.inr ⟨stored, hlater, hhash, fun _ => accepts_iff_eq hsound hfilled hverified⟩

/-- Accepted passwords never change by themselves.  Take any table and any startup checks and logins
whatever, with any failures.  Where the stored value is a hash, it stays one, and what is accepted of
that user stays the same.  Where it is plaintext, it is that plaintext, of which nothing is accepted,
or a hash, of which exactly the plaintext is; and once a startup check has succeeded it is the
latter, for good.  What is accepted is what a login decides by: it succeeds with nothing else, and
where nothing fails it succeeds with it. -/
theorem acceptedPasswords_constant (hsound : sodium.Sound)
    (h : AccountHistory sodium token dialect start b) :
    (∀ id row, start.rows.users.user id = some row → looksLikeArgonHash row.password = true →
      ∃ stored, b.rows.users.user id = some { row with password := stored } ∧
        looksLikeArgonHash stored = true ∧
        ∀ password, Accepts sodium { row with password := stored } password ↔
          Accepts sodium row password) ∧
    (∀ id row, start.rows.users.user id = some row → looksLikeArgonHash row.password = false →
      row.password ≠ [] →
      ((b.rows.users.user id = some row ∧ ∀ password, ¬ Accepts sodium row password) ∨
        ∃ stored, b.rows.users.user id = some { row with password := stored } ∧
          looksLikeArgonHash stored = true ∧
          ∀ password, Accepts sodium { row with password := stored } password ↔
            password = row.password) ∧
      ∀ checked last, StartupCall sodium dialect b.rows (.ok ()) checked.rows →
        AccountHistory sodium token dialect checked last →
        ∃ stored, last.rows.users.user id = some { row with password := stored } ∧
          ∀ password, Accepts sodium { row with password := stored } password ↔
            password = row.password) ∧
    (∀ command result b', Call (sodiumHost sodium token) dialect b (.login command) result b' →
      ∀ id row, Named dialect b.rows.users.user command.username id row →
        Decided sodium command row result) ∧
    ∀ command result b', UnfailingLogin (sodiumHost sodium token) dialect b command result b' →
      command.username ≠ [] → ∀ (number : ℕ) row, number < 2 ^ 64 →
        Named dialect b.rows.users.user command.username number row →
        HasNewHash (sodiumHost sodium token) row.password command.password →
        ((∃ view, result = .ok view) ↔ Accepts sodium row command.password) := by
  have hpreserved := preserved_of_history hsound h
  refine ⟨?_, ?_, ?_, ?_⟩
  · intro id row hrow hhash
    obtain ⟨stored, hlater, hrenewed⟩ := hpreserved id row hrow
    exact ⟨stored, hlater, hrenewed.looksLike hsound hhash,
      fun _ => accepts_iff_of_renewed hsound hrenewed hhash⟩
  · intro id row hrow hplain hfilled
    refine ⟨?_, ?_⟩
    · rcases plaintext_of_preserved hsound hpreserved hrow hplain hfilled with hsame | hhashed
      · exact Or.inl ⟨hsame, fun _ => not_accepts_of_plaintext hsound hplain⟩
      · exact Or.inr hhashed
    · intro checked last hchecked hlast
      obtain ⟨hstep, hhashes⟩ := hchecked.preserved hsound
      obtain ⟨stored, hstored, hrenewed⟩ := (hpreserved.trans hsound hstep) id row hrow
      obtain ⟨later, hlater, hagain⟩ := preserved_of_history hsound hlast id _ hstored
      -- the check has left a hash, and what becomes of it is a hash
      have hpresent : b.rows.users.user id ≠ none := by
        obtain ⟨password, hfound, -⟩ := hpreserved id row hrow
        rw [hfound]
        nofun
      have hhash : looksLikeArgonHash later = true :=
        hagain.looksLike hsound (hhashes rfl id _ hpresent hstored)
      rcases (hrenewed.trans hsound hagain).of_plaintext hsound hplain with hsame | ⟨-, hverified⟩
      · rw [hsame, hplain] at hhash
        cases hhash
      · exact ⟨later, hlater, fun _ => accepts_iff_eq hsound hfilled hverified⟩
  · intro command result b' hcall id row hnamed
    exact decided_of_verdict hcall.judged.2 hnamed
  · intro command result b' hlogin husername number row hnumber hnamed hhash
    exact ok_iff_accepts hlogin husername hnumber hnamed hhash

end Histories

/-! ## A plaintext password that is migrated -/

section Witness

open LoneSession

def secretHash : Bytes := lit "$argon2id$v=19$c2VjcmV0"

/-- A libsodium that has memory for one password, `secret`. -/
def secretSodium : Libsodium where
  str _ password := if password = lit "secret" then some secretHash else none
  needsRehash _ := 0
  strVerify str password := if str = secretHash ∧ password = lit "secret" then 0 else -1

theorem secretSodium_sound : secretSodium.Sound where
  produced calls password output hdrawn := by
    have hdrawn : (if password = lit "secret" then some secretHash else none) = some output := hdrawn
    split at hdrawn
    · rename_i hsecret
      obtain rfl := Option.some.inj hdrawn
      rw [hsecret]
      decide
    · cases hdrawn
  single str first second hfirst hsecond := by
    simp [secretSodium] at hfirst hsecond
    exact hfirst.2.trans hsecond.2.symm
  spelled str password hverified := by
    simp [secretSodium] at hverified
    rw [hverified.1]
    decide

/-- One user, an administrator, whose password is plaintext. -/
def oldOffice : Deployment where
  rows key := if key = .users (.row 1) then
    some (.users (.user ⟨lit "alice", lit "secret", lit "admin"⟩)) else none
  counter := 2

def migrating : LegacyStartupConfiguration where
  migratePlaintextPasswords := true

/-- The plaintext is replaced by its hash, and the commit goes through. -/
def officeCheck : SqlHistory StartupStatement :=
  [⟨.control (.setIsolation .command), .ok {}⟩, ⟨.control (.start .command), .ok {}⟩,
    ⟨.execute .scanPasswords, .ok { rows := [[some (lit "1"), some (lit "secret")]] }⟩,
    ⟨.execute (.updatePassword secretHash 1), .ok { affectedRows := 1 }⟩,
    ⟨.execute .countAdministrators, .ok { rows := [[some (lit "1")]] }⟩,
    ⟨.control .commit, .ok {}⟩]

theorem runs_officeCheck :
    Program.Runs (runLegacyStartupChecks (secretSodium.after 0) migrating (.ok ())) officeCheck
      (.ok ()) := by
  have hrun := Program.runs_exec inTurn
    (runLegacyStartupChecks (secretSodium.after 0) migrating (.ok ()))
    [.ok { rows := [[some (lit "1"), some (lit "secret")]] }, .ok { affectedRows := 1 },
      .ok { rows := [[some (lit "1")]] }]
  exact hrun

/-- There is one user, whatever the password. -/
theorem user_oldOffice (id : ℤ) : oldOffice.rows.users.user id =
    if id = 1 then some ⟨lit "alice", lit "secret", lit "admin"⟩ else none := by
  by_cases hid : id = 1 <;> simp [oldOffice, LegacyRows.users, UserEntries.user, hid]

/-- Alice with the hash of her password. -/
def hashedAlice : UserRow := ⟨lit "alice", secretHash, lit "admin"⟩

theorem answers_officeCheck :
    ∃ after, Program.Answers (answers (usersMeaning byteDialect.collation))
      (checkSession oldOffice.rows 2) officeCheck after ∧
      ∀ id, UserEntries.user after.released.store.rows id =
        if id = 1 then some hashedAlice else none := by
  obtain ⟨s₁, h₁, hfree₁, hactive₁, hview₁, -⟩ :=
    can_start (s := checkSession oldOffice.rows 2) (usersMeaning byteDialect.collation) {} .command
      rfl
  have husers : ∀ id, UserEntries.user s₁.view id =
      if id = 1 then some ⟨lit "alice", lit "secret", lit "admin"⟩ else none := by
    rw [hview₁]
    exact user_oldOffice
  have hids : ∀ id, id ∈ ([1] : List ℤ) ↔ UserEntries.user s₁.view id ≠ none := by
    intro id
    rw [husers]
    by_cases hid : id = 1 <;> simp [hid]
  obtain ⟨s₂, h₂, hfree₂, hactive₂, hview₂, -⟩ := can_execute hfree₁ hactive₁
    (show usersMeaning byteDialect.collation .scanPasswords s₁.view s₁.store.counter
      { rows := [[some (lit "1"), some (lit "secret")]] } _ _ _ from
      ⟨rfl, rfl, [1], by decide, hids, by rw [List.map_singleton, husers]; rfl, rfl⟩)
  obtain ⟨s₃, h₃, hfree₃, hactive₃, hview₃, -⟩ := can_execute hfree₂ hactive₂
    (show usersMeaning byteDialect.collation (.updatePassword secretHash 1) s₂.view
      s₂.store.counter { affectedRows := 1 } _ _ _ from
      ⟨rfl, by rw [hview₂, hview₁]; exact ⟨rfl, rfl, rfl⟩⟩)
  have halice : ∀ id, UserEntries.user s₃.view id = if id = 1 then some hashedAlice else none := by
    intro id
    rw [hview₃, hview₂, hview₁]
    by_cases hid : id = 1
    · subst hid
      rfl
    · simp [oldOffice, checkSession, LegacyRows.users, writeUser, UserEntries.user, hid]
  -- alice is still the administrator
  have hadmins : ∀ id, id ∈ ([1] : List ℤ) ↔ ∃ row, UserEntries.user s₃.view id = some row ∧
      row.isAdministrator byteDialect.collation := by
    intro id
    rw [halice]
    by_cases hid : id = 1
    · subst hid
      simp only [List.mem_singleton, true_iff]
      exact ⟨_, rfl, rfl⟩
    · simp [hid]
  obtain ⟨s₄, h₄, -, -, hview₄, -⟩ := can_execute hfree₃ hactive₃
    (show usersMeaning byteDialect.collation .countAdministrators s₃.view s₃.store.counter
      { rows := [[some (lit "1")]] } _ _ _ from
      ⟨rfl, rfl, rfl, [1], by decide, hadmins, rfl⟩)
  refine ⟨_, .cons (can_isolate _) (.cons h₁ (.cons h₂ (.cons h₃ (.cons h₄
    (.cons can_commit (.nil _)))))), fun id => ?_⟩
  rw [released_rows]
  show UserEntries.user s₄.view id = _
  rw [hview₄]
  exact halice id

/-- She logs in, with nothing to hinder her. -/
def hashedAliceEvents : SqlHistory LegacyStatement :=
  [⟨.control (.setIsolation .command), .ok {}⟩, ⟨.control (.start .command), .ok {}⟩,
    ⟨.execute (.findUser (lit "alice") true), .ok { rows := [userCells 1 hashedAlice] }⟩,
    ⟨.control .commit, .ok {}⟩]

/-- A server that finds her. -/
def hashedAliceServer : (call : ExecutorCall LegacyStatement) → Unit → call.Answer × Unit
  | .control _, s => (.ok {}, s)
  | .poison, s => ((), s)
  | .execute _, s => (.ok { rows := [userCells 1 hashedAlice] }, s)

theorem unfailingLogin_hashedAlice {b : Deployment}
    (hrows : b.rows.users.user 1 = some hashedAlice) :
    ∃ result b', UnfailingLogin (sodiumHost secretSodium fun _ => []) byteDialect b aliceLogin result
      b' := by
  obtain ⟨result, hrun⟩ : ∃ result, Program.Runs (serve (sodiumHost secretSodium fun _ => [])
      (.ok ()) (.login aliceLogin) b.service) hashedAliceEvents result :=
    ⟨_, Program.runs_exec hashedAliceServer _ ()⟩
  obtain ⟨s₁, h₁, hfree₁, hactive₁, hview₁, -⟩ :=
    can_start (s := b.session) (legacyMeaning byteDialect) {} .command rfl
  obtain ⟨s₂, h₂, -⟩ := can_execute hfree₁ hactive₁
    (show legacyMeaning byteDialect (.findUser (lit "alice") true) s₁.view s₁.store.counter
      { rows := [userCells 1 hashedAlice] } _ _ _ from
      ⟨rfl, rfl, Or.inl ⟨1, hashedAlice, by rw [hview₁]; exact hrows, rfl, rfl, rfl⟩⟩)
  have hperformed : ∀ event ∈ hashedAliceEvents, event.1.performed event.2 = true := by
    simp [hashedAliceEvents, ExecutorCall.performed, Except.isOk, Except.toBool]
  exact ⟨_, _, .intro hrun (.cons (can_isolate .command)
    (.cons h₁ (.cons h₂ (.cons can_commit (.nil _))))) hperformed⟩

/-- After the check, `secret` is accepted of alice and nothing else, and with it she gets in. -/
theorem acceptedPasswords_constant_officeCheck :
    ∃ checked : Deployment, StartupCall secretSodium byteDialect oldOffice.rows (.ok ()) checked.rows ∧
      (∃ row, checked.rows.users.user 1 = some row ∧
        ∀ password, Accepts secretSodium row password ↔ password = lit "secret") ∧
      ∃ view b', UnfailingLogin (sodiumHost secretSodium fun _ => []) byteDialect checked aliceLogin
        (.ok view) b' := by
  obtain ⟨after, hanswers, husers⟩ := answers_officeCheck
  let checked : Deployment := { oldOffice with
    rows := oldOffice.rows.withUsers after.released.store.rows }
  have hchecked : StartupCall secretSodium byteDialect oldOffice.rows (.ok ()) checked.rows :=
    .intro runs_officeCheck hanswers
  have hstart : AccountHistory secretSodium (fun _ => []) byteDialect oldOffice oldOffice := .refl
  have hplaintext := ((acceptedPasswords_constant secretSodium_sound hstart).2.1 1
    ⟨lit "alice", lit "secret", lit "admin"⟩ (user_oldOffice 1) (by decide) (by decide)).2
  obtain ⟨stored, hstored, haccepts⟩ := hplaintext checked checked hchecked .refl
  refine ⟨checked, hchecked, ⟨_, hstored, haccepts⟩, ?_⟩
  have hrows : ∀ id, checked.rows.users.user id = if id = 1 then some hashedAlice else none := by
    intro id
    show (LegacyRows.users (oldOffice.rows.withUsers _)).user id = _
    rw [users_withUsers]
    exact husers id
  obtain ⟨result, b', hlogin⟩ := unfailingLogin_hashedAlice (hrows 1)
  have hnamed : Named byteDialect checked.rows.users.user aliceLogin.username (1 : ℕ) hashedAlice := by
    refine ⟨hrows 1, rfl, ?_⟩
    intro id row hrow _
    rw [hrows] at hrow
    by_contra hid
    rw [if_neg (show ¬ id = 1 from hid)] at hrow
    cases hrow
  have hhistory : AccountHistory secretSodium (fun _ => []) byteDialect oldOffice checked :=
    .tail hstart (.startup hchecked)
  obtain ⟨view, rfl⟩ := ((acceptedPasswords_constant secretSodium_sound hhistory).2.2.2 aliceLogin
    result b' hlogin (by decide) 1 hashedAlice (by decide) hnamed nofun).mpr
    ⟨by decide, by decide⟩
  exact ⟨view, b', hlogin⟩

end Witness

end Warehouse.Backend
