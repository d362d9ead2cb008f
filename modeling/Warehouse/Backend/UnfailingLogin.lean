/-
# Warehouse.Backend.UnfailingLogin — a login in which nothing fails

With a connection from the pool, with every statement and the commit performed and with a hash
wherever one is needed, there is nothing left by which a login of the right password could fail.
-/
import Warehouse.Backend.Authorization

namespace Warehouse.Backend

open Warehouse.Interaction Warehouse.Mysql Warehouse.Bootstrap

/-- The user who has this name, and there is one: the names are a unique index. -/
structure Named (dialect : Dialect) (users : ℤ → Option UserRow) (username : Bytes) (id : ℤ)
    (row : UserRow) : Prop where
  found : users id = some row
  named : dialect.collation row.username = dialect.collation username
  only : ∀ other row', users other = some row' →
    dialect.collation row'.username = dialect.collation username → other = id

/-- A login for which the pool has a connection, and of which every statement is performed, with the
commit. -/
inductive UnfailingLogin (host : Host) (dialect : Dialect) (b : Deployment) (command : LoginCommand) :
    Outcome LoginView → Deployment → Prop
  | intro {events : SqlHistory LegacyStatement} {result : Outcome LoginView} {s' : ServiceState}
      {after : LoneSession LegacyStatement LegacyKey LegacyRecord} :
      Program.Runs (serve host (.ok ()) (.login command) b.service) events (result, s') →
      Program.Answers (LoneSession.answers (legacyMeaning dialect)) b.session events after →
      (∀ event ∈ events, event.1.performed event.2 = true) →
      UnfailingLogin host dialect b command result
        ⟨s'.sessions, s'.drawn, after.released.store.rows, after.store.counter⟩

/-- If the password is verified and the stored hash is to be replaced, there is a hash to replace it,
and it is another one. -/
def HasNewHash (host : Host) (stored password : Bytes) : Prop :=
  host.verify stored password = true → host.needsRehash stored = true →
    ∀ drawn, ∃ hash, host.hash drawn password = .ok hash ∧ hash ≠ stored

section Login

open Program LoneSession

variable {host : Host} {dialect : Dialect} {s : ServiceState} {command : LoginCommand}
  {user : UserRecord} {d : LoneSession LegacyStatement LegacyKey LegacyRecord} {id : ℕ}
  {row : UserRow} {b b' : Deployment} {result : Outcome LoginView}

/-- It is one of the calls of `login`. -/
theorem UnfailingLogin.call (h : UnfailingLogin host dialect b command result b') :
    Call host dialect b (.login command) result b' := by
  obtain ⟨hrun, hanswers, -⟩ := h
  exact .intro hrun hanswers

/-- The user who has the name is found. -/
theorem wp_findNamed {username : Bytes} (hactive : d.active = true)
    (hnamed : Named dialect (LegacyRows.users d.view).user username id row) (hid : id < 2 ^ 64) :
    (findByUsername username true).wp (unfailing (legacyMeaning dialect)) free
      (fun found d' => d'.active = true ∧ d'.view = d.view ∧
        found = .ok (some ⟨id, row.username, row.password, row.role⟩)) d := by
  rintro answer after ⟨hanswers, hperformed⟩
  refine ⟨trivial, ?_⟩
  cases answer with
  | error e => cases hperformed
  | ok response =>
      obtain ⟨writes, locks, counter, hmeaning, -, hactive', hview⟩ :=
        answers_executed hactive hanswers
      obtain ⟨rfl, -, hfound⟩ := hmeaning
      refine ⟨hactive', hview, ?_⟩
      rcases hfound with ⟨other, row', hrow, hname, hcells, -⟩ | ⟨hnobody, -⟩
      · obtain rfl := hnamed.only other row' hrow hname
        obtain rfl : row' = row := Option.some.inj (hrow.symm.trans hnamed.found)
        have hread : parseUint64 (some (toDecimalInt id)) = some id := parseUnsigned_toDecimal hid
        show readUser response.rows = _
        simp only [hcells, userCells, readUser, hread]
      · exact (hnobody id row hnamed.found hnamed.named).elim

/-- A hash that is not the stored one is written. -/
theorem wp_updatePasswordHash_new {hash : Bytes} (hactive : d.active = true)
    (hrow : (LegacyRows.users d.view).user id = some row) (hnew : hash ≠ row.password) :
    (updatePasswordHash id hash).wp (unfailing (legacyMeaning dialect)) free
      (fun updated _ => updated = .ok ()) d := by
  rintro answer after ⟨hanswers, hperformed⟩
  refine ⟨trivial, ?_⟩
  cases answer with
  | error e => cases hperformed
  | ok response =>
      obtain ⟨writes, locks, counter, hmeaning, -⟩ := answers_executed hactive hanswers
      obtain ⟨userWrites, userLocks, ⟨-, hwritten⟩, -⟩ := hmeaning
      rw [hrow] at hwritten
      obtain ⟨-, -, haffected⟩ := hwritten
      have hone : response.affectedRows = 1 := by rw [haffected, if_neg hnew.symm]
      show (ite (response.affectedRows ≠ 1) _ _ : LegacyProgram _).wp _ _ _ after
      rw [if_neg (not_not_intro hone)]
      rfl

/-- Code inside the unit of work of a login that ends with a session. -/
abbrev OpensSession (host : Host) (dialect : Dialect) (p : ServiceProgram (Outcome LoginView))
    (s : ServiceState) (d : LoneSession LegacyStatement LegacyKey LegacyRecord) : Prop :=
  Serves host (.ok ()) (unfailing (legacyMeaning dialect)) free
    (fun result _ => result.2.unit.active = false ∧ ∃ view, result.1 = .ok view) p s d

theorem opensSession_openSession (hunit : s.unit = Transaction.opened) :
    OpensSession host dialect (openSession user) s d := by
  apply serves_conclude
  rw [hunit]
  apply wp_post wp_commit_unfailing
  rintro ⟨committed, t⟩ d' ⟨hcommitted, hinactive⟩
  obtain rfl : committed = .ok () := hcommitted
  exact ⟨hinactive, _, rfl⟩

theorem opensSession_upgradePassword (hunit : s.unit = Transaction.opened)
    (hactive : d.active = true) (hrow : (LegacyRows.users d.view).user user.id = some row)
    (hstored : user.passwordHash = row.password)
    (hverified : host.verify row.password command.password = true)
    (hhash : HasNewHash host row.password command.password) :
    OpensSession host dialect (upgradePassword command user) s d := by
  show wp _ _ _ ((if host.needsRehash user.passwordHash then _ else openSession user :
    ServiceProgram (Outcome LoginView)).interpret (performService host (.ok ())) s) d
  split
  · rename_i hrehash
    rw [hstored] at hrehash
    apply serves_hash
    obtain ⟨hash, hhashed, hnew⟩ := hhash hverified hrehash s.drawn
    rw [hhashed]
    apply serves_repository
    apply wp_post (wp_updatePasswordHash_new hactive hrow hnew)
    rintro updated d' rfl
    exact opensSession_openSession hunit
  · exact opensSession_openSession hunit

theorem opensSession_loginUnit (hunit : s.unit = Transaction.opened) (hactive : d.active = true)
    (hnamed : Named dialect (LegacyRows.users d.view).user command.username id row)
    (hid : id < 2 ^ 64) (hverified : host.verify row.password command.password = true)
    (hhash : HasNewHash host row.password command.password) :
    OpensSession host dialect (loginUnit command) s d := by
  apply serves_repository
  apply wp_post (wp_findNamed hactive hnamed hid)
  rintro found d' ⟨hactive', hview, rfl⟩
  show wp _ _ _ ((ite (host.verify row.password command.password = true) _ _ :
    ServiceProgram (Outcome LoginView)).interpret (performService host (.ok ())) s) d'
  rw [if_pos hverified]
  have hrow : (LegacyRows.users d'.view).user id = some row := by
    rw [hview]
    exact hnamed.found
  exact opensSession_upgradePassword hunit hactive' hrow rfl hverified hhash

theorem wp_unfailingLogin (hidle : d.Idle) (husername : command.username ≠ [])
    (hpassword : command.password ≠ [])
    (hnamed : Named dialect (LegacyRows.users d.store.rows).user command.username id row)
    (hid : id < 2 ^ 64) (hverified : host.verify row.password command.password = true)
    (hhash : HasNewHash host row.password command.password) :
    (serve host (.ok ()) (.login command) s).wp (unfailing (legacyMeaning dialect)) free
      (fun result _ => ∃ view, result.1 = .ok view) d := by
  show ((guardedLogin command >>= fun result => clearPassword command.password >>= fun _ =>
    pure result).interpret (performService host (.ok ())) s).wp _ _ _ d
  rw [interpret_bind, wp_bind]
  suffices h : Serves host (.ok ()) (unfailing (legacyMeaning dialect)) free
      (fun result _ => ∃ view, result.1 = .ok view) (guardedLogin command) s d from
    wp_post h fun _ _ hopened => hopened
  show wp _ _ _ ((ite _ _ _ : ServiceProgram _).interpret (performService host (.ok ())) s) d
  rw [if_neg (by simp [husername, hpassword])]
  apply serves_withUnit
  unfold beginUnitOfWork
  rw [wp_bind]
  apply wp_post (wp_begin_unfailing .command hidle)
  rintro begun d₁ ⟨rfl, hactive, hview⟩
  rw [← hview] at hnamed
  apply wp_post (opensSession_loginUnit rfl hactive hnamed hid hverified hhash)
  rintro result d₂ ⟨hinactive, hopened⟩
  -- the unit of work is over, so its destructor sends nothing
  rw [Transaction.destroy_inactive hinactive]
  exact hopened

/-- A login of the right password, in which nothing fails, succeeds. -/
theorem UnfailingLogin.opens (h : UnfailingLogin host dialect b command result b')
    (husername : command.username ≠ []) (hpassword : command.password ≠ [])
    (hnamed : Named dialect b.rows.users.user command.username id row) (hid : id < 2 ^ 64)
    (hverified : host.verify row.password command.password = true)
    (hhash : HasNewHash host row.password command.password) : ∃ view, result = .ok view := by
  obtain ⟨hrun, hanswers, hperformed⟩ := h
  have hidle : b.session.Idle := ⟨rfl, rfl⟩
  exact (runs_under (wp_unfailingLogin hidle husername hpassword hnamed hid hverified hhash) hrun
    (hanswers.restrict hperformed)).1

end Login

end Warehouse.Backend
