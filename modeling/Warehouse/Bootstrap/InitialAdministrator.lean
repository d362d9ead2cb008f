/-
# Warehouse.Bootstrap.InitialAdministrator — concurrent startup checks

Any number of processes run `runLegacyStartupChecks` on one `users` table at the same time.  Each
counts the administrators and inserts one if there is none, and neither the count nor an empty scan
locks anything.  What keeps a second process from inserting is therefore either a row of the table,
which the scan of the one locks until it has committed, or the unique index on the user name.  On
an empty table and with two names there is nothing, and both insert.
-/
import Warehouse.Bootstrap.UsersTable
import Warehouse.Mysql.SqlNotes

namespace Warehouse.Bootstrap

open Warehouse.Interaction Warehouse.Mysql

/-! ## What a check sends upon what -/

/-- The administrator that a configuration asks for, if its credentials are accepted. -/
def LegacyStartupConfiguration.administrator (configuration : LegacyStartupConfiguration) :
    Option Bytes :=
  match configuration.initialAdministratorUsername, configuration.initialAdministratorPassword with
  | some username, some password =>
      let username := normalizeUsername username
      if username.isEmpty || username.length > 64 || password.length < 12 ||
          password.length > 128 then none
      else some username
  | _, _ => none

/-- The insertion of an administrator. -/
def isInsert : ExecutorCall StartupStatement → Bool
  | .execute (.insertAdministrator ..) => true
  | _ => false

/-- The passwords have been scanned in this transaction. -/
def Scanned (executed : SqlHistory StartupStatement) : Prop :=
  ∃ answer, (⟨.execute .scanPasswords, answer⟩ : Event _ ExecutorCall.Answer) ∈ executed

/-- No administrator has been counted in this transaction. -/
def NoneCounted (executed : SqlHistory StartupStatement) : Prop :=
  ∃ response, (⟨.execute .countAdministrators, .ok response⟩ : Event _ ExecutorCall.Answer) ∈ executed ∧
    readAdministratorCount response.rows = some 0

/-- Upon which statements of its transaction a check sends the next one. -/
def InOrder (configuration : LegacyStartupConfiguration) (executed : SqlHistory StartupStatement) :
    ExecutorCall StartupStatement → Prop
  | .execute (.updatePassword ..) => Scanned executed
  | .execute .countAdministrators => Scanned executed
  | .execute (.insertAdministrator username _) =>
      NoneCounted executed ∧ (∀ event ∈ executed, isInsert event.1 = false) ∧
        configuration.administrator = some username
  | _ => True

section Code

variable {α : Type} {sodium : Sodium} {collation : Collation}
  {configuration : LegacyStartupConfiguration} {n : SqlNotes StartupStatement}
  {executed : SqlHistory StartupStatement} {Q : α → SqlNotes StartupStatement → Prop}

/-- Code of the check that sends its statements in order, and goes on to `Q` or leaves. -/
abbrev Ordered (collation : Collation) (configuration : LegacyStartupConfiguration)
    (Q : α → SqlNotes StartupStatement → Prop) (check : Check α) (n : SqlNotes StartupStatement) :
    Prop :=
  Program.wpx (noting (usersMeaning collation).server)
    (Demands (usersMeaning collation).server (InOrder configuration)) Q (fun _ _ => True) check n

theorem ordered_refuse (code message : Bytes) :
    Ordered collation configuration Q (refuse Transaction.opened code message) n := by
  unfold refuse
  rw [Ordered, Program.wpx_bind, Program.wpx_lift]
  exact Program.wp_post noted_rollback fun _ _ _ => trivial

theorem ordered_send {statement : StartupStatement} {next : SqlResult → Check α}
    (hopened : n.opened = some executed)
    (horder : InOrder configuration executed (.execute statement))
    (hfailed : ∀ e n', Ordered collation configuration Q (next (.error e)) n')
    (hok : ∀ response n', n'.opened = some (executed ++ [⟨.execute statement, .ok response⟩]) →
      Ordered collation configuration Q (next (.ok response)) n') :
    Ordered collation configuration Q (sendStatement statement >>= next) n := by
  unfold sendStatement
  rw [Ordered, Program.wpx_bind, Program.wpx_lift]
  exact noted_execute hopened horder (fun e => hfailed e _) fun response => hok response _ rfl

/-- The transaction has scanned the passwords, and inserted nothing. -/
def Scanning (n : SqlNotes StartupStatement) : Prop :=
  ∃ executed, n.opened = some executed ∧ Scanned executed ∧ ∀ event ∈ executed, isInsert event.1 = false

/-- A statement that is no insertion leaves it so. -/
theorem scanning_append {statement : StartupStatement} {response : SqlResponse}
    (hscanned : Scanned executed) (hnone : ∀ event ∈ executed, isInsert event.1 = false)
    (hstatement : isInsert (.execute statement) = false)
    (hopened : n.opened = some (executed ++ [⟨.execute statement, .ok response⟩])) : Scanning n := by
  obtain ⟨answer, hanswer⟩ := hscanned
  refine ⟨_, hopened, ⟨answer, List.mem_append_left _ hanswer⟩, ?_⟩
  intro event hevent
  rcases List.mem_append.mp hevent with hold | hnew
  · exact hnone event hold
  · obtain rfl := List.mem_singleton.mp hnew
    exact hstatement

theorem ordered_checkRow {calls : ℕ} {row : SqlRow} (h : Scanning n) :
    Ordered collation configuration (fun _ n' => Scanning n')
      (checkRow sodium configuration Transaction.opened calls row) n := by
  obtain ⟨executed, hopened, hscanned, hnone⟩ := id h
  unfold checkRow
  split
  · split
    · exact ordered_refuse _ _
    split
    · exact ordered_refuse _ _
    · unfold migratePassword
      split
      · exact ordered_refuse _ _
      split
      · exact ordered_refuse _ _
      apply ordered_send hopened
      · exact hscanned
      · intro e n'
        exact ordered_refuse _ _
      · intro response n' hopened'
        show Ordered _ _ _ (if response.affectedRows ≠ 1 then _ else _) n'
        split
        · exact ordered_refuse _ _
        · exact scanning_append hscanned hnone rfl hopened'
    · exact h
  · exact ordered_refuse _ _

/-- The insertion follows a count in the same transaction, with the credentials configured. -/
theorem ordered_createInitialAdministrator {calls : ℕ} (hopened : n.opened = some executed)
    (hcounted : NoneCounted executed) (hnone : ∀ event ∈ executed, isInsert event.1 = false) :
    Ordered collation configuration (fun _ _ => True)
      (createInitialAdministrator sodium configuration Transaction.opened calls) n := by
  unfold createInitialAdministrator
  split
  · rename_i username password husername hpassword
    dsimp only
    split
    · exact ordered_refuse _ _
    rename_i haccepted
    split
    · exact ordered_refuse _ _
    have hadministrator : configuration.administrator = some (normalizeUsername username) := by
      simp only [LegacyStartupConfiguration.administrator, husername, hpassword, haccepted]
      rfl
    apply ordered_send hopened
    · exact ⟨hcounted, hnone, hadministrator⟩
    · intro e n'
      exact ordered_refuse _ _
    · intro response n' _
      trivial
  · exact ordered_refuse _ _

theorem ordered_checkUsers (hopened : n.opened = some []) :
    Ordered collation configuration (fun _ _ => True)
      (checkUsers sodium configuration Transaction.opened) n := by
  unfold checkUsers
  apply ordered_send hopened
  · trivial
  · intro e n'
    exact ordered_refuse _ _
  intro passwords n₁ hopened₁
  have hscanning : Scanning n₁ := by
    refine ⟨_, hopened₁, ⟨.ok passwords, by simp⟩, ?_⟩
    intro event hevent
    obtain rfl := List.mem_singleton.mp hevent
    rfl
  show Ordered _ _ _ (passwords.rows.foldlM _ 0 >>= _) n₁
  rw [Ordered, Program.wpx_bind]
  let I : List SqlRow → ℕ → SqlNotes StartupStatement → Prop := fun _ _ n => Scanning n
  apply Program.wpx_post (Program.wpx_foldlM I _ hscanning) _ fun _ _ hleft => hleft
  · intro handled row rest calls n hsplit hI
    exact ordered_checkRow hI
  intro calls n₂ hI
  obtain ⟨executed, hopened₂, hscanned, hnone⟩ := hI
  apply ordered_send hopened₂
  · exact hscanned
  · intro e n'
    exact ordered_refuse _ _
  intro adminCount n₃ hopened₃
  show Ordered _ _ _ (checkAdministrators sodium configuration Transaction.opened calls adminCount) n₃
  unfold checkAdministrators
  split
  · exact ordered_refuse _ _
  rename_i count hparsed
  split
  · rename_i hzero
    rw [hzero] at hparsed
    apply ordered_createInitialAdministrator hopened₃ ⟨adminCount, by simp, hparsed⟩
    intro event hevent
    rcases List.mem_append.mp hevent with hold | hnew
    · exact hnone event hold
    · obtain rfl := List.mem_singleton.mp hnew
      rfl
  · trivial

/-- Every check sends its statements in order. -/
theorem ordered_runLegacyStartupChecks (lease : Except SqlError Unit) :
    Noted (usersMeaning collation) (InOrder configuration) (fun _ _ => True)
      (runLegacyStartupChecks sodium configuration lease) n := by
  have hguard : ∀ (p : SqlProgram StartupStatement (Except StartupFailure Unit)) (m : SqlNotes _),
      p.Emits (fun call => call.txRole ≠ .works) →
      Noted (usersMeaning collation) (InOrder configuration) (fun _ _ => True) p m :=
    fun p m hemits => wp_of_emits _ hemits
  unfold runLegacyStartupChecks
  cases lease with
  | error e => trivial
  | ok _ =>
      apply (Program.wp_bind (Transaction.begin .command) _ _).mpr
      apply Program.wp_post (noted_begin .command)
      intro begun n₁ hbegun
      cases begun with
      | error f => trivial
      | ok t =>
          obtain ⟨rfl, hopened⟩ := hbegun.2 t rfl
          apply (Program.wp_bind (checkUsers sodium configuration Transaction.opened).run _ _).mpr
          apply Program.wp_post (ordered_checkUsers hopened)
          intro checked n₂ _
          apply hguard
          -- all that is left is to end the transaction
          rcases checked with ⟨f, t⟩ | _
          · exact Program.emits_bind (Transaction.emits_destroy nofun nofun t) fun _ => trivial
          · refine Program.emits_bind (Transaction.emits_commit nofun nofun Transaction.opened) ?_
            intro ended
            refine Program.emits_bind (Transaction.emits_destroy nofun nofun ended.2) ?_
            intro _
            rcases ended with ⟨_ | _, t⟩ <;> trivial

end Code

/-! ## What the table keeps -/

section Table

/-- The table with its sessions and its log. -/
abbrev UsersStore : Type := SqlStore StartupStatement UserKey UserEntry

/-- A statement that was executed on the table. -/
abbrev UsersEntry : Type :=
  Entry (ExecutorCall StartupStatement) ExecutorCall.Answer UserKey UserEntry

/-- A row stays where it is, with its name and role. -/
def Stays (before after : Option UserEntry) : Prop :=
  ∀ row, before = some (.user row) → ∃ password, after = some (.user { row with password := password })

instance : Std.Refl Stays := ⟨fun _ row h => ⟨row.password, h⟩⟩

instance : IsTrans (Option UserEntry) Stays where
  trans _ _ _ hfirst hsecond row hrow := by
    obtain ⟨password, hmiddle⟩ := hfirst row hrow
    obtain ⟨password', hlast⟩ := hsecond _ hmiddle
    exact ⟨password', hlast⟩

variable {collation : Collation} {e : UsersEntry} {rows₀ : UserEntries} {d : UsersStore} {i : ℕ}

/-- No statement takes a row away or gives it another name or role. -/
theorem stays_of_performed (h : RowStore.Performed (usersMeaning collation).server e) {key : UserKey}
    {entry : UserEntry} (hwrite : e.writes key = some entry) : Stays (e.view key) (some entry) := by
  obtain ⟨client, ⟨call, answer⟩, view, writes⟩ := e
  obtain ⟨counter, locks, counter', hperform⟩ := h
  cases call with
  | control statement => exact hperform.elim
  | poison => exact hperform.elim
  | execute statement =>
      obtain ⟨response, -, hmeaning⟩ := hperform
      cases statement with
      | scanPasswords =>
          obtain ⟨rfl, -⟩ := hmeaning
          cases hwrite
      | countAdministrators =>
          obtain ⟨rfl, -⟩ := hmeaning
          cases hwrite
      | updatePassword hash userId =>
          obtain ⟨-, hupdated⟩ := hmeaning
          cases hcurrent : UserEntries.user view userId with
          | none =>
              rw [hcurrent] at hupdated
              obtain ⟨rfl, -⟩ := hupdated
              cases hwrite
          | some current =>
              rw [hcurrent] at hupdated
              obtain ⟨rfl, -⟩ := hupdated
              intro row hrow
              have hkey : key = .row userId := by
                by_contra hne
                simp [writeUser, hne] at hwrite
              subst hkey
              have hview : view (.row userId) = some (.user row) := hrow
              obtain rfl : row = current := by simpa [UserEntries.user, hview] using hcurrent
              refine ⟨hash, ?_⟩
              rw [← hwrite]
              simp [writeUser]
      | insertAdministrator username hash =>
          obtain ⟨id, -, -, hrow, hname, rfl, -⟩ := hmeaning
          intro row hfound
          -- neither the id nor the name was there before
          have hnothing : view key = none := by
            by_cases hkey : key = .name (collation username)
            · rw [hkey]
              exact hname
            · by_cases hid : key = .row id
              · rw [hid]
                exact hrow
              · simp [insertUser, writeUser, administratorRow, hkey, hid] at hwrite
          have hview : view key = some (.user row) := hfound
          rw [hnothing] at hview
          cases hview

/-- What an insertion writes: the row, and an entry of the index where there was none. -/
theorem inserted_of_performed (h : RowStore.Performed (usersMeaning collation).server e)
    (hinsert : isInsert e.event.1 = true) :
    ∃ (id : ℤ) (username hash : Bytes),
      e.event.1 = .execute (.insertAdministrator username hash) ∧
      e.writes (.row id) = some (.user (administratorRow username hash)) ∧
      e.writes (.name (collation username)) ≠ none ∧ e.view (.name (collation username)) = none := by
  obtain ⟨client, ⟨call, answer⟩, view, writes⟩ := e
  obtain ⟨counter, locks, counter', hperform⟩ := h
  cases call with
  | control statement => cases hinsert
  | poison => cases hinsert
  | execute statement =>
      cases statement with
      | insertAdministrator username hash =>
          obtain ⟨response, -, id, -, -, -, hname, rfl, -⟩ := hperform
          exact ⟨id, username, hash, rfl, by simp [insertUser, writeUser],
            by simp [insertUser, administratorRow], hname⟩
      | _ => cases hinsert

/-- What is committed stays for every session. -/
theorem stays_view (h : d.Sound (usersMeaning collation).server rows₀) (i : ℕ) (key : UserKey) :
    Stays (d.rows key) (d.view i key) :=
  (h.pending i).evolves fun e he _ => stays_of_performed (h.executed i e he).1

/-- What was there in the beginning stays. -/
theorem stays_rows (h : d.Sound (usersMeaning collation).server rows₀) (key : UserKey) :
    Stays (rows₀ key) (d.rows key) := by
  rw [h.rows]
  exact h.log.evolves fun e he _ => stays_of_performed (h.logged e he)

/-- A row that stays is still found. -/
theorem Stays.user {before after : UserEntries} {id : ℤ} {row : UserRow}
    (h : Stays (before (.row id)) (after (.row id))) (hrow : before.user id = some row) :
    ∃ password, after.user id = some { row with password := password } := by
  have hbefore : before (.row id) = some (.user row) := by
    unfold UserEntries.user at hrow
    split at hrow
    · rename_i found hfound
      rw [hfound, Option.some.inj hrow]
    · cases hrow
  obtain ⟨password, hafter⟩ := h row hbefore
  exact ⟨password, by simp [UserEntries.user, hafter]⟩

/-- Once an insertion is committed, every session sees an administrator. -/
theorem administrator_of_logged (h : d.Sound (usersMeaning collation).server rows₀)
    (he : e ∈ d.log) (hinsert : isInsert e.event.1 = true) (i : ℕ) :
    ∃ id row, UserEntries.user (d.view i) id = some row ∧ row.isAdministrator collation := by
  obtain ⟨past, future, hsplit⟩ := List.append_of_mem he
  obtain ⟨id, username, hash, -, hrow, -, -⟩ := inserted_of_performed (h.logged e he) hinsert
  have hfaithful : Faithful rows₀ (past ++ e :: future) := hsplit ▸ h.log
  obtain ⟨-, hviews, hfuture⟩ := faithful_append.mp hfaithful
  -- the row as it was inserted, as it is now, and as the session sees it
  have hinserted : e.apply (replay past rows₀) (.row id) = some (.user (administratorRow username hash)) := by
    simp [Entry.apply, hrow]
  have hlater : Stays (e.apply (replay past rows₀) (.row id)) (d.rows (.row id)) := by
    rw [h.rows, hsplit, replay_append, replay_cons]
    apply hfuture.evolves
    intro later hmem _
    exact stays_of_performed (h.logged later (by rw [hsplit]; simp [hmem]))
  obtain ⟨password, hview⟩ :=
    (trans_of Stays hlater (stays_view h i (.row id))) _ hinserted
  exact ⟨id, { administratorRow username hash with password := password },
    by simp [UserEntries.user, hview], rfl⟩

end Table

/-! ## At most one insertion -/

section Once

variable {collation : Collation} {configuration : ℕ → LegacyStartupConfiguration}
  {rows₀ : UserEntries} {d : UsersStore} {i : ℕ} {id₀ : ℤ} {row₀ : UserRow}

/-- The administrators that have been created: the insertions in the log. -/
def created (d : UsersStore) : ℕ := d.log.countP fun e => isInsert e.event.1

/-- The order of the statements, for every client by its configuration. -/
abbrev Order (configuration : ℕ → LegacyStartupConfiguration) :
    ℕ → SqlHistory StartupStatement → ExecutorCall StartupStatement → Prop :=
  fun i => InOrder (configuration i)

/-- Where a count has been executed, so has a scan. -/
theorem scanned_of_counted {executed : SqlHistory StartupStatement}
    (h : Disciplined (InOrder (configuration i)) executed) (hcounted : NoneCounted executed) :
    Scanned executed := by
  obtain ⟨response, hmem, -⟩ := hcounted
  obtain ⟨past, hpast, hscanned⟩ := h.of_mem hmem
  obtain ⟨answer, hanswer⟩ := hscanned
  exact ⟨answer, hpast.subset hanswer⟩

/-- Where an administrator has been inserted, none was counted. -/
theorem counted_of_inserted {executed : SqlHistory StartupStatement}
    (h : Disciplined (InOrder (configuration i)) executed)
    {event : Event (ExecutorCall StartupStatement) ExecutorCall.Answer} (hmem : event ∈ executed)
    (hinsert : isInsert event.1 = true) : NoneCounted executed := by
  obtain ⟨past, hpast, horder⟩ := h.of_mem hmem
  obtain ⟨call, answer⟩ := event
  cases call with
  | control statement => cases hinsert
  | poison => cases hinsert
  | execute statement =>
      cases statement with
      | insertAdministrator username hash =>
          obtain ⟨⟨response, hcount, hzero⟩, -⟩ := horder
          exact ⟨response, hpast.subset hcount, hzero⟩
      | _ => cases hinsert

/-- A transaction inserts once. -/
theorem inserted_le_one {executed : SqlHistory StartupStatement}
    (h : Disciplined (InOrder (configuration i)) executed) :
    executed.countP (fun event => isInsert event.1) ≤ 1 := by
  apply countP_le_one
  intro past event future hsplit hinsert before hbefore
  have horder := h past event future hsplit
  obtain ⟨call, answer⟩ := event
  cases call with
  | control statement => cases hinsert
  | poison => cases hinsert
  | execute statement =>
      cases statement with
      | insertAdministrator username hash => simp [horder.2.1 before hbefore]
      | _ => cases hinsert

/-- The scan of a table with rows serializes the checks: who has scanned holds the row `id₀`, and
who has counted no administrator still finds none committed. -/
structure Serialized (id₀ : ℤ) (d : UsersStore) : Prop where
  locked : ∀ i, Scanned (d.sessions i).executed → (d.sessions i).locks (.row id₀)
  counted : ∀ i, NoneCounted (d.sessions i).executed →
    ∀ e ∈ d.log, isInsert e.event.1 = false
  once : created d ≤ 1

/-- What a session has executed beside its last statement. -/
theorem scanned_append {executed : SqlHistory StartupStatement}
    {event : Event (ExecutorCall StartupStatement) ExecutorCall.Answer}
    (h : Scanned (executed ++ [event])) : Scanned executed ∨ event.1 = .execute .scanPasswords := by
  obtain ⟨answer, hmem⟩ := h
  rcases List.mem_append.mp hmem with hold | hnew
  · exact Or.inl ⟨answer, hold⟩
  · rw [← List.mem_singleton.mp hnew]
    exact Or.inr rfl

theorem noneCounted_append {executed : SqlHistory StartupStatement}
    {event : Event (ExecutorCall StartupStatement) ExecutorCall.Answer}
    (h : NoneCounted (executed ++ [event])) : NoneCounted executed ∨
      ∃ response, event = ⟨.execute .countAdministrators, .ok response⟩ ∧
        readAdministratorCount response.rows = some 0 := by
  obtain ⟨response, hmem, hzero⟩ := h
  rcases List.mem_append.mp hmem with hold | hnew
  · exact Or.inl ⟨response, hold, hzero⟩
  · exact Or.inr ⟨response, (List.mem_singleton.mp hnew).symm, hzero⟩

/-- A count of zero has seen no administrator, so none is committed. -/
theorem nothing_logged (h : d.Sound (usersMeaning collation).server rows₀) {response : SqlResponse}
    {writes : UserEntries} {locks : UserKey → Prop} {counter : ℕ}
    (hperform : usersMeaning collation .countAdministrators (d.view i) d.counter response writes
      locks counter)
    (hzero : readAdministratorCount response.rows = some 0) :
    ∀ e ∈ d.log, isInsert e.event.1 = false := by
  obtain ⟨-, -, -, ids, -, hids, hcount⟩ := hperform
  rw [hcount] at hzero
  have hempty : ids = [] := List.length_eq_zero_iff.mp (readAdministratorCount_toDecimal hzero)
  intro e he
  by_contra hinsert
  obtain ⟨id, row, hrow, hadministrator⟩ :=
    administrator_of_logged h he (by simpa using hinsert) i
  have hid : id ∈ ids := (hids id).mpr ⟨row, hrow, hadministrator⟩
  rw [hempty] at hid
  cases hid

theorem not_scanned_nil : ¬ Scanned [] := by
  intro hscanned
  obtain ⟨answer, hmem⟩ := hscanned
  cases hmem

theorem not_noneCounted_nil : ¬ NoneCounted [] := by
  intro hcounted
  obtain ⟨response, hmem, -⟩ := hcounted
  cases hmem

/-- A transaction that inserts an administrator has counted none. -/
theorem counted_of_pending
    (hruled : d.Ruled (usersMeaning collation).server rows₀ (Order configuration))
    {e : UsersEntry} (he : e ∈ (d.sessions i).pending) (hinsert : isInsert e.event.1 = true) :
    NoneCounted (d.sessions i).executed :=
  counted_of_inserted (hruled.disciplined i) (List.mem_map.mpr ⟨e, he, rfl⟩) hinsert

/-- Two sessions that have counted none would both hold the row. -/
theorem Serialized.alone {j : ℕ} (h : Serialized id₀ d)
    (hruled : d.Ruled (usersMeaning collation).server rows₀ (Order configuration))
    (hi : NoneCounted (d.sessions i).executed) (hj : NoneCounted (d.sessions j).executed) :
    j = i := by
  by_contra hne
  have hheld := h.locked j (scanned_of_counted (hruled.disciplined j) hj)
  have hheld' := h.locked i (scanned_of_counted (hruled.disciplined i) hi)
  exact hruled.sound.exclusive j i _ hne (Or.inl hheld) (Or.inl hheld')

/-- After the commit of a session there is at most one new administrator. -/
theorem Serialized.created_commit (h : Serialized id₀ d)
    (hruled : d.Ruled (usersMeaning collation).server rows₀ (Order configuration)) (i : ℕ) :
    created (d.commit i) ≤ 1 := by
  show (d.log ++ (d.sessions i).pending).countP (fun e => isInsert e.event.1) ≤ 1
  have hone : (d.sessions i).pending.countP (fun e => isInsert e.event.1) ≤ 1 := by
    have hexecuted := inserted_le_one (hruled.disciplined i)
    rwa [RowSession.executed, List.countP_map] at hexecuted
  rw [List.countP_append]
  by_cases hinserted : ∃ e ∈ (d.sessions i).pending, isInsert e.event.1 = true
  · obtain ⟨e, he, hinsert⟩ := hinserted
    have hlog : d.log.countP (fun e => isInsert e.event.1) = 0 := by
      apply List.countP_eq_zero.mpr
      intro other hother
      simp [h.counted i (counted_of_pending hruled he hinsert) other hother]
    omega
  · have hpending : (d.sessions i).pending.countP (fun e => isInsert e.event.1) = 0 := by
      apply List.countP_eq_zero.mpr
      intro e he hinsert
      exact hinserted ⟨e, he, hinsert⟩
    have honce : d.log.countP (fun e => isInsert e.event.1) ≤ 1 := h.once
    omega

/-- Every step keeps it. -/
theorem serialized_invariant (hrow₀ : rows₀.user id₀ = some row₀) :
    RowStore.Invariant (usersMeaning collation).server rows₀ (Order configuration)
      (Serialized id₀) where
  execute := by
    intro d i op answer writes locks counter hruled h _ hperform _
    refine ⟨?_, ?_, h.once⟩
    · intro j hscanned
      by_cases hj : j = i
      · subst hj
        rw [RowStore.executed_execute] at hscanned
        rw [RowStore.execute_locks]
        rcases scanned_append hscanned with hold | hscan
        · exact Or.inl (h.locked j hold)
        -- the row was there in the beginning, so the scan returns it
        obtain rfl : op = .execute .scanPasswords := hscan
        obtain ⟨response, -, -, -, ids, -, hids, -, rfl⟩ := hperform
        have hstays := trans_of Stays (stays_rows hruled.sound (.row id₀))
          (stays_view hruled.sound j (.row id₀))
        obtain ⟨password, hfound⟩ := hstays.user hrow₀
        exact Or.inr ⟨id₀, (hids id₀).mpr (by rw [hfound]; simp), rfl⟩
      · rw [RowStore.execute_ne hj] at hscanned ⊢
        exact h.locked j hscanned
    · intro j hcounted
      by_cases hj : j = i
      · subst hj
        rw [RowStore.executed_execute] at hcounted
        rcases noneCounted_append hcounted with hold | ⟨response, hevent, hzero⟩
        · exact h.counted j hold
        · cases hevent
          obtain ⟨performed, hperformed, hmeaning⟩ := hperform
          obtain rfl : response = performed := Except.ok.inj hperformed
          have hnone := nothing_logged hruled.sound hmeaning hzero
          exact hnone
      · rw [RowStore.execute_ne hj] at hcounted
        exact h.counted j hcounted
  commit := by
    intro d i hruled h
    refine ⟨?_, ?_, h.created_commit hruled i⟩
    · intro j hscanned
      by_cases hj : j = i
      · subst hj
        rw [RowStore.executed_commit] at hscanned
        exact absurd hscanned not_scanned_nil
      · rw [RowStore.commit_ne hj] at hscanned ⊢
        exact h.locked j hscanned
    · intro j hcounted e he
      have hj : j ≠ i := by
        rintro rfl
        rw [RowStore.executed_commit] at hcounted
        exact not_noneCounted_nil hcounted
      rw [RowStore.commit_ne hj] at hcounted
      rcases List.mem_append.mp he with hlogged | hpending
      · exact h.counted j hcounted e hlogged
      · by_contra hinsert
        have hcounted' : NoneCounted (d.sessions i).executed :=
          counted_of_pending hruled hpending (by simpa using hinsert)
        exact hj (h.alone hruled hcounted' hcounted)
  replace := by
    intro d i s h hpending _
    have hnothing : ((d.set i s).sessions i).executed = [] := by
      simp [RowStore.set, RowSession.executed, hpending]
    refine ⟨?_, ?_, h.once⟩
    · intro j hscanned
      by_cases hj : j = i
      · subst hj
        rw [hnothing] at hscanned
        exact absurd hscanned not_scanned_nil
      · rw [RowStore.set_ne hj] at hscanned ⊢
        exact h.locked j hscanned
    · intro j hcounted
      by_cases hj : j = i
      · subst hj
        rw [hnothing] at hcounted
        exact absurd hcounted not_noneCounted_nil
      · rw [RowStore.set_ne hj] at hcounted
        exact h.counted j hcounted

/-- An entry inserts no administrator but the one that its process is configured with. -/
def Configured (configuration : ℕ → LegacyStartupConfiguration) (e : UsersEntry) : Prop :=
  ∀ username hash, e.event.1 = .execute (.insertAdministrator username hash) →
    (configuration e.client).administrator = some username

/-- All that is committed or pending is so. -/
structure AsConfigured (configuration : ℕ → LegacyStartupConfiguration) (d : UsersStore) : Prop where
  logged : ∀ e ∈ d.log, Configured configuration e
  pending : ∀ i, ∀ e ∈ (d.sessions i).pending, Configured configuration e

theorem asConfigured_invariant :
    RowStore.Invariant (usersMeaning collation).server rows₀ (Order configuration)
      (AsConfigured configuration) where
  execute := by
    intro d i op answer writes locks counter _ h horder _ _
    refine ⟨h.logged, ?_⟩
    intro j e he
    by_cases hj : j = i
    · subst hj
      rw [RowStore.pending_execute] at he
      rcases List.mem_append.mp he with hold | hnew
      · exact h.pending j e hold
      · obtain rfl := List.mem_singleton.mp hnew
        intro username hash hop
        obtain rfl : op = .execute (.insertAdministrator username hash) := hop
        exact horder.2.2
    · rw [RowStore.execute_ne hj] at he
      exact h.pending j e he
  commit := by
    intro d i _ h
    refine ⟨?_, ?_⟩
    · intro e he
      rcases List.mem_append.mp he with hlogged | hpending
      · exact h.logged e hlogged
      · exact h.pending i e hpending
    · intro j e he
      by_cases hj : j = i
      · subst hj
        simp [RowStore.commit, RowStore.set, RowSession.ended] at he
      · rw [RowStore.commit_ne hj] at he
        exact h.pending j e he
  replace := by
    intro d i s h hpending _
    refine ⟨h.logged, ?_⟩
    intro j e he
    by_cases hj : j = i
    · subst hj
      rw [RowStore.set_self, hpending] at he
      cases he
    · rw [RowStore.set_ne hj] at he
      exact h.pending j e he

/-- The unique index lets one insertion of a name through. -/
theorem created_of_sameName (h : d.Sound (usersMeaning collation).server rows₀)
    (hconfigured : AsConfigured configuration d)
    (hsame : ∀ i j name name', (configuration i).administrator = some name →
      (configuration j).administrator = some name' → collation name = collation name') :
    created d ≤ 1 := by
  apply countP_le_one
  intro past e future hsplit hinsert before hbefore hinsert'
  have hmem : e ∈ d.log := by rw [hsplit]; simp
  have hmem' : before ∈ d.log := by rw [hsplit]; simp [hbefore]
  obtain ⟨-, username, hash, hevent, -, hname, hview⟩ :=
    inserted_of_performed (h.logged e hmem) hinsert
  obtain ⟨-, username', hash', hevent', -, hname', -⟩ :=
    inserted_of_performed (h.logged before hmem') hinsert'
  have hweights : collation username' = collation username :=
    hsame _ _ _ _ (hconfigured.logged before hmem' username' hash' hevent')
      (hconfigured.logged e hmem username hash hevent)
  -- the first insertion is in the index when the second one looks
  obtain ⟨-, hviews, -⟩ := faithful_append.mp (hsplit ▸ h.log : Faithful rows₀ (past ++ e :: future))
  have hentry : replay past rows₀ (.name (collation username)) ≠ none :=
    replay_ne_none (Or.inr ⟨before, hbefore, by rwa [← hweights]⟩)
  rw [← hviews _ hname] at hentry
  exact hentry hview

/-! ## Any number of processes -/

/-- Processes that are about to run the check, each with its libsodium, its configuration, and what
`acquire` returned to it, on a table. -/
def startups (sodium : ℕ → Sodium) (configuration : ℕ → LegacyStartupConfiguration)
    (lease : ℕ → Except SqlError Unit) (rows : UserEntries) (counter : ℕ) :
    RowSystem (ExecutorCall StartupStatement) ExecutorCall.Answer UserKey UserEntry
      (Except StartupFailure Unit) :=
  RowSystem.init (fun i => runLegacyStartupChecks (sodium i) (configuration i) (lease i)) rows counter

/-- On a table that has a row, or with one name for all that may insert, at most one administrator
is created, in every interleaving and whatever fails. -/
theorem initialAdministrator_once {sodium : ℕ → Sodium} {lease : ℕ → Except SqlError Unit}
    {counter : ℕ}
    {c : RowSystem (ExecutorCall StartupStatement) ExecutorCall.Answer UserKey UserEntry
      (Except StartupFailure Unit)}
    (hcondition : (∃ id row, rows₀.user id = some row) ∨
      ∀ i j name name', (configuration i).administrator = some name →
        (configuration j).administrator = some name' → collation name = collation name')
    (hreach : RowSystem.Reachable (usersMeaning collation).server
      (startups sodium configuration lease rows₀ counter) c) : created c.store ≤ 1 := by
  have hprograms : ∀ i, Noted (usersMeaning collation) (Order configuration i) (fun _ _ => True)
      (runLegacyStartupChecks (sodium i) (configuration i) (lease i)) {} :=
    fun i => ordered_runLegacyStartupChecks (lease i)
  rcases hcondition with ⟨id₀, row₀, hrow₀⟩ | hsame
  · have hfresh : Serialized id₀ ({ rows := rows₀, counter := counter } : UsersStore) := by
      refine ⟨?_, nofun, Nat.zero_le 1⟩
      intro i hscanned
      obtain ⟨answer, hmem⟩ := hscanned
      cases hmem
    exact (RowSystem.tracked_of_reachable (serialized_invariant hrow₀) hfresh hprograms hreach).kept.once
  · have htracked := RowSystem.tracked_of_reachable asConfigured_invariant ⟨nofun, nofun⟩ hprograms
      hreach
    exact created_of_sameName htracked.ruled.sound htracked.kept hsame

end Once

/-! ## Two names on an empty table -/

section Counterexample

open RowSystem

/-- Processes of the check around a table. -/
abbrev Startups : Type :=
  RowSystem (ExecutorCall StartupStatement) ExecutorCall.Answer UserKey UserEntry
    (Except StartupFailure Unit)

abbrev StartupProgram : Type := SqlProgram StartupStatement (Except StartupFailure Unit)

variable {collation : Collation} {c : Startups} {i : ℕ} {p q : StartupProgram}

/-- A process inside its transaction, with this left to do, that has only read so far. -/
structure Reading (c : Startups) (i : ℕ) (p : StartupProgram) : Prop where
  program : (c.clients i).program = p
  connected : (c.clients i).connected = true
  alive : (c.store.sessions i).alive = true
  active : (c.store.sessions i).active = true
  read : ∀ e ∈ (c.store.sessions i).pending, (∀ key, e.writes key = none) ∧ isInsert e.event.1 = false
  locks : ∀ key, ¬ (c.store.sessions i).locks key

/-- The other processes are where they were. -/
def Aside (i : ℕ) (c c' : Startups) : Prop :=
  ∀ j, j ≠ i → c'.clients j = c.clients j ∧ c'.store.sessions j = c.store.sessions j

/-- Nothing is committed, either. -/
structure Unchanged (i : ℕ) (c c' : Startups) : Prop where
  aside : Aside i c c'
  rows : c'.store.rows = c.store.rows
  counter : c'.store.counter = c.store.counter
  log : c'.store.log = c.store.log

theorem Unchanged.trans {c₁ c₂ c₃ : Startups} (h : Unchanged i c₁ c₂) (h' : Unchanged i c₂ c₃) :
    Unchanged i c₁ c₃ where
  aside j hj := ⟨(h'.aside j hj).1.trans (h.aside j hj).1, (h'.aside j hj).2.trans (h.aside j hj).2⟩
  rows := h'.rows.trans h.rows
  counter := h'.counter.trans h.counter
  log := h'.log.trans h.log

theorem Reading.view (h : Reading c i p) : c.store.view i = c.store.rows := by
  funext key
  exact replay_of_none fun e he => (h.read e he).1 key

theorem Reading.free (h : Reading c i p) (key : UserKey) : ¬ (c.store.sessions i).holds key := by
  intro hheld
  rcases hheld with hlock | ⟨e, he, hwrite⟩
  · exact h.locks key hlock
  · exact hwrite ((h.read e he).1 key)

theorem Reading.aside {c' : Startups} {j : ℕ} (h : Reading c j p) (haside : Aside i c c')
    (hj : j ≠ i) : Reading c' j p := by
  obtain ⟨hclient, hsession⟩ := haside j hj
  exact ⟨hclient ▸ h.program, hclient ▸ h.connected, hsession ▸ h.alive, hsession ▸ h.active,
    hsession ▸ h.read, hsession ▸ h.locks⟩

/-- A process starts its transaction. -/
theorem can_begin {isolated started : SqlResult → StartupProgram}
    (hclient : c.clients i = { program := .call (.control (.setIsolation .command)) isolated })
    (hsession : c.store.sessions i = {})
    (hstart : isolated (.ok {}) = .call (.control (.start .command)) started) :
    ∃ c', Reachable (usersMeaning collation).server c c' ∧ Reading c' i (started (.ok {})) ∧
      Unchanged i c c' := by
  let c₁ : Startups := c.put i ((c.clients i).answered (usersMeaning collation).server
    (.control (.setIsolation .command)) (.ok {}) (isolated (.ok {}))) c.store
  have hclient₁ : c₁.clients i = { program := isolated (.ok {}) } := by
    simp only [c₁, RowSystem.put, Function.update_self, hclient]
    rfl
  let c₂ : Startups := c₁.put i ((c₁.clients i).answered (usersMeaning collation).server
    (.control (.start .command)) (.ok {}) (started (.ok {}))) (c.store.activate i)
  have hstep₁ : Step (usersMeaning collation).server c c₁ :=
    .outside i (by rw [hclient]) rfl
  have hstep₂ : Step (usersMeaning collation).server c₁ c₂ :=
    .served i (by rw [hclient₁, hstart]) (by rw [hclient₁])
      (show (c.store.sessions i).alive = true by rw [hsession]) (Or.inl rfl) (.begins rfl)
  have hpending : (c.store.sessions i).pending = [] := by rw [hsession]
  have hrows : (c.store.activate i).rows = c.store.rows := RowStore.activate_rows hpending
  refine ⟨c₂, .head hstep₁ (.single hstep₂), ?_, ?_, hrows, rfl, ?_⟩
  · refine ⟨?_, ?_, ?_, RowStore.activate_active, ?_, ?_⟩
    · simp [c₂, RowSystem.put, RowClient.answered]
    · simp [c₂, RowSystem.put, RowClient.answered, hclient₁]
    · simp [c₂, RowSystem.put, RowStore.activate, RowStore.set, RowSession.ended, hsession]
    · intro e he
      simp [c₂, RowSystem.put, RowStore.activate, RowStore.set, RowSession.ended] at he
    · intro key hlock
      simp [c₂, RowSystem.put, RowStore.activate, RowStore.set, RowSession.ended] at hlock
  · intro j hj
    simp [c₂, c₁, RowSystem.put, RowStore.activate, RowStore.commit, RowStore.set, hj]
  · show c.store.log ++ (c.store.sessions i).pending = c.store.log
    rw [hpending, List.append_nil]

/-- A process in its transaction reads what is committed. -/
theorem can_read {statement : StartupStatement} {next : SqlResult → StartupProgram}
    {response : SqlResponse} {locks : UserKey → Prop}
    (h : Reading c i (.call (.execute statement) next))
    (hmeaning : usersMeaning collation statement c.store.rows c.store.counter response
      (fun _ => none) locks c.store.counter)
    (hlocks : ∀ key, ¬ locks key) (hread : isInsert (.execute statement) = false) :
    ∃ c', Reachable (usersMeaning collation).server c c' ∧ Reading c' i (next (.ok response)) ∧
      Unchanged i c c' := by
  let event : Event (ExecutorCall StartupStatement) ExecutorCall.Answer :=
    ⟨.execute statement, .ok response⟩
  let store := c.store.execute i event (fun _ => none) locks c.store.counter
  let c' : Startups := c.put i ((c.clients i).answered (usersMeaning collation).server
    (.execute statement) (.ok response) (next (.ok response))) store
  have hperform : (usersMeaning collation).server.perform (.execute statement) (c.store.view i)
      c.store.counter (.ok response) (fun _ => none) locks c.store.counter :=
    ⟨response, rfl, by rw [h.view]; exact hmeaning⟩
  have hserves : c.store.Serves (usersMeaning collation).server i (.execute statement) (.ok response)
      (if (c.store.sessions i).active then store else store.commit i) :=
    .works rfl hperform fun key hkey => absurd hkey (by simp [hlocks key])
  rw [if_pos h.active] at hserves
  have hstep : Step (usersMeaning collation).server c c' :=
    .served i h.program h.connected h.alive (Or.inl rfl) hserves
  refine ⟨c', .single hstep, ?_, ?_, rfl, rfl, rfl⟩
  · refine ⟨?_, ?_, ?_, (RowStore.execute_active _ _ _ _).trans h.active, ?_, ?_⟩
    · simp [c', RowSystem.put, RowClient.answered]
    · simp [c', RowSystem.put, RowClient.answered, h.connected]
    · simp [c', store, RowSystem.put, RowStore.execute, RowStore.set, h.alive]
    · intro e he
      rw [show (c'.store.sessions i).pending = _ from RowStore.pending_execute _ _ _ _] at he
      rcases List.mem_append.mp he with hold | hnew
      · exact h.read e hold
      · obtain rfl := List.mem_singleton.mp hnew
        exact ⟨fun _ => rfl, hread⟩
    · intro key hlock
      rcases (RowStore.execute_locks _ _ _ _ key).mp hlock with hold | hnew
      · exact h.locks key hold
      · exact hlocks key hnew
  · intro j hj
    simp [c', store, RowSystem.put, RowStore.execute, RowStore.set, hj]

/-- A process that has only read inserts its administrator, and commits. -/
theorem can_insert {username hash : Bytes} {inserted committed : SqlResult → StartupProgram}
    {response : SqlResponse} {writes : UserEntries} {locks : UserKey → Prop} {counter : ℕ}
    (h : Reading c i (.call (.execute (.insertAdministrator username hash)) inserted))
    (hcommit : inserted (.ok response) = .call (.control .commit) committed)
    (hmeaning : usersMeaning collation (.insertAdministrator username hash) c.store.rows
      c.store.counter response writes locks counter)
    (hfree : ∀ j, j ≠ i → ∀ key, ¬ (c.store.sessions j).holds key) :
    ∃ c', Reachable (usersMeaning collation).server c c' ∧
      (c'.clients i).program = committed (.ok {}) ∧ Aside i c c' ∧
      (∀ key, ¬ (c'.store.sessions i).holds key) ∧ c'.store.rows = writes.over c.store.rows ∧
      c'.store.counter = counter ∧ created c'.store = created c.store + 1 := by
  let event : Event (ExecutorCall StartupStatement) ExecutorCall.Answer :=
    ⟨.execute (.insertAdministrator username hash), .ok response⟩
  let store := c.store.execute i event writes locks counter
  let c₁ : Startups := c.put i ((c.clients i).answered (usersMeaning collation).server
    event.1 event.2 (inserted (.ok response))) store
  let c₂ : Startups := c₁.put i ((c₁.clients i).answered (usersMeaning collation).server
    (.control .commit) (.ok {}) (committed (.ok {}))) (store.commit i)
  have hperform : (usersMeaning collation).server.perform event.1 (c.store.view i)
      c.store.counter event.2 writes locks counter := ⟨response, rfl, by rw [h.view]; exact hmeaning⟩
  have hserves : c.store.Serves (usersMeaning collation).server i event.1 event.2
      (if (c.store.sessions i).active then store else store.commit i) :=
    .works rfl hperform fun key _ j hj => hfree j hj key
  rw [if_pos h.active] at hserves
  have hstep₁ : Step (usersMeaning collation).server c c₁ :=
    .served i h.program h.connected h.alive (Or.inl rfl) hserves
  have halive : (store.sessions i).alive = true := by
    simp [store, RowStore.execute, RowStore.set, h.alive]
  have hprogram : (c₁.clients i).program = .call (.control .commit) committed := by
    rw [← hcommit]
    simp [c₁, RowSystem.put, RowClient.answered]
  have hstep₂ : Step (usersMeaning collation).server c₁ c₂ :=
    .served i hprogram (by simp [c₁, RowSystem.put, RowClient.answered, h.connected]) halive
      (Or.inl rfl) (.commits rfl)
  have hpending : (store.sessions i).pending =
      (c.store.sessions i).pending ++ [⟨i, event, c.store.view i, writes⟩] :=
    RowStore.pending_execute _ _ _ _
  refine ⟨c₂, .head hstep₁ (.single hstep₂), ?_, ?_, fun _ => RowStore.not_holds_commit, ?_,
    rfl, ?_⟩
  · simp [c₂, RowSystem.put, RowClient.answered]
  · intro j hj
    simp [c₂, c₁, store, RowSystem.put, RowStore.execute, RowStore.commit, RowStore.set, hj]
  · show store.view i = _
    rw [RowStore.view_execute, h.view]
    rfl
  · have hread : (c.store.sessions i).pending.countP (fun e => isInsert e.event.1) = 0 :=
      List.countP_eq_zero.mpr fun e he => by simp [(h.read e he).2]
    show (c.store.log ++ (store.sessions i).pending).countP (fun e => isInsert e.event.1) = _
    rw [hpending, List.countP_append, List.countP_append, hread]
    rfl

/-- Two processes with administrators of their own; the others have none. -/
def twoNames : ℕ → LegacyStartupConfiguration
  | 0 => { initialAdministratorUsername := some (lit "alice")
           initialAdministratorPassword := some (lit "correct horse battery") }
  | 1 => { initialAdministratorUsername := some (lit "bob")
           initialAdministratorPassword := some (lit "staple of the table") }
  | _ => {}

/-- The processes of a first start, on an empty table. -/
def firstStartups : Startups :=
  startups (fun _ => oneHash) twoNames (fun _ => .ok ()) (fun _ => none) 1

/-- Nobody is in an empty table. -/
theorem can_count {scanned counted : SqlResult → StartupProgram}
    (h : Reading c i (.call (.execute .scanPasswords) scanned))
    (hcount : scanned (.ok {}) = .call (.execute .countAdministrators) counted)
    (hempty : c.store.rows = fun _ => none) :
    ∃ c', Reachable (usersMeaning fun text => text).server c c' ∧
      Reading c' i (counted (.ok { rows := [[some (lit "0")]] })) ∧ Unchanged i c c' := by
  have hscan : usersMeaning (fun text => text) .scanPasswords c.store.rows c.store.counter {}
      (fun _ => none) (fun key => ∃ id ∈ ([] : List ℤ), key = .row id) c.store.counter :=
    ⟨rfl, rfl, [], List.nodup_nil, by rw [hempty]; simp [UserEntries.user], rfl, rfl⟩
  obtain ⟨c₁, hreach₁, hreading₁, hsame₁⟩ := can_read h hscan (by simp) rfl
  rw [hcount] at hreading₁
  have hnobody : usersMeaning (fun text => text) .countAdministrators c₁.store.rows c₁.store.counter
      { rows := [[some (lit "0")]] } (fun _ => none) (fun _ => False) c₁.store.counter :=
    ⟨rfl, rfl, rfl, [], List.nodup_nil, by rw [hsame₁.rows, hempty]; simp [UserEntries.user], rfl⟩
  obtain ⟨c₂, hreach₂, hreading₂, hsame₂⟩ := can_read hreading₁ hnobody (fun _ => id) rfl
  exact ⟨c₂, hreach₁.trans hreach₂, hreading₂, hsame₁.trans hsame₂⟩

/-- Processes that all have the one name: the first of them creates it. -/
theorem initialAdministrator_once_firstProcess :
    ∃ c, Reachable (usersMeaning fun text => text).server
      (startups (fun _ => oneHash) (fun _ => twoNames 0) (fun _ => .ok ()) (fun _ => none) 1) c ∧
      created c.store = 1 ∧ created c.store ≤ 1 := by
  let c₀ : Startups :=
    startups (fun _ => oneHash) (fun _ => twoNames 0) (fun _ => .ok ()) (fun _ => none) 1
  have hbegin : ∃ c₁, Reachable (usersMeaning fun text => text).server c₀ c₁ ∧ _ ∧ _ :=
    can_begin (c := c₀) (i := 0) rfl rfl rfl
  obtain ⟨c₁, hreach₁, hreading₁, hsame₁⟩ := hbegin
  obtain ⟨c₂, hreach₂, hreading₂, hsame₂⟩ := can_count hreading₁ rfl (by rw [hsame₁.rows]; rfl)
  have hsame₂ := hsame₁.trans hsame₂
  have hrows₂ : c₂.store.rows = fun _ => none := by
    rw [hsame₂.rows]
    rfl
  obtain ⟨c₃, hreach₃, -, -, -, -, -, hcreated₃⟩ := can_insert hreading₂ rfl
    (show usersMeaning (fun text => text) (.insertAdministrator (lit "alice")
      (lit "$argon2id$v=19$hash")) c₂.store.rows c₂.store.counter
      { affectedRows := 1, lastInsertId := 1 } _ _ _ from
      ⟨1, by rw [hsame₂.counter]; decide, rfl, by rw [hrows₂], by rw [hrows₂], rfl, rfl, rfl, rfl⟩)
    (by
      intro j hj key
      rw [(hsame₂.aside j hj).2]
      simp [c₀, startups, RowSystem.init, RowSession.holds])
  have hreach := hreach₁.trans (hreach₂.trans hreach₃)
  have hone : created c₃.store = 1 := by
    rw [hcreated₃]
    unfold created
    rw [hsame₂.log]
    rfl
  refine ⟨c₃, hreach, hone, ?_⟩
  apply initialAdministrator_once (Or.inr _) hreach
  intro i j name name' hname hname'
  rw [hname, Option.some.injEq] at hname'
  rw [hname']

/-- Both processes of a first start find the table empty, and both create their administrator. -/
theorem twoAdministrators :
    ∃ c, Reachable (usersMeaning fun text => text).server firstStartups c ∧
      (c.clients 0).program = .ret (.ok ()) ∧ (c.clients 1).program = .ret (.ok ()) ∧
      c.store.rows (.row 1) = some (.user (administratorRow (lit "alice") (lit "$argon2id$v=19$hash"))) ∧
      c.store.rows (.row 2) = some (.user (administratorRow (lit "bob") (lit "$argon2id$v=19$hash"))) ∧
      created c.store = 2 := by
  -- each starts, scans and counts
  have hbegin : ∃ c₁, Reachable (usersMeaning fun text => text).server firstStartups c₁ ∧ _ ∧ _ :=
    can_begin (c := firstStartups) (i := 0) rfl rfl rfl
  obtain ⟨c₁, hreach₁, hreading₁, hsame₁⟩ := hbegin
  obtain ⟨c₂, hreach₂, hreading₂, hsame₂⟩ := can_count hreading₁ rfl (by rw [hsame₁.rows]; rfl)
  have hsame₂ := hsame₁.trans hsame₂
  have hbegin : ∃ c₃, Reachable (usersMeaning fun text => text).server c₂ c₃ ∧ _ ∧ _ :=
    can_begin (i := 1) (hsame₂.aside 1 (by decide)).1 (hsame₂.aside 1 (by decide)).2 rfl
  obtain ⟨c₃, hreach₃, hreading₃, hsame₃⟩ := hbegin
  obtain ⟨c₄, hreach₄, hreading₄, hsame₄⟩ := can_count hreading₃ rfl
    (by rw [hsame₃.rows, hsame₂.rows]; rfl)
  have hsame₄ := hsame₃.trans hsame₄
  have hrows₄ : c₄.store.rows = fun _ => none := by
    rw [hsame₄.rows, hsame₂.rows]
    rfl
  have hothers : ∀ j, j ≠ 0 → j ≠ 1 → ∀ key, ¬ (c₄.store.sessions j).holds key := by
    intro j hzero hone key
    rw [(hsame₄.aside j hone).2, (hsame₂.aside j hzero).2]
    simp [firstStartups, startups, RowSystem.init, RowSession.holds]
  -- the first one inserts and commits
  have hfirst : Reading c₄ 0 _ := hreading₂.aside hsame₄.aside (by decide)
  obtain ⟨c₅, hreach₅, hreturned₅, haside₅, hfree₅, hrows₅, hcounter₅, hcreated₅⟩ := can_insert
    hfirst rfl
    (show usersMeaning (fun text => text) (.insertAdministrator (lit "alice")
      (lit "$argon2id$v=19$hash")) c₄.store.rows c₄.store.counter
      { affectedRows := 1, lastInsertId := 1 } _ _ _ from
      ⟨1, by rw [hsame₄.counter, hsame₂.counter]; decide, rfl, by rw [hrows₄], by rw [hrows₄], rfl, rfl,
        rfl, rfl⟩)
    (by
      intro j hj key
      by_cases hone : j = 1
      · rw [hone]
        exact hreading₄.free key
      · exact hothers j hj hone key)
  -- and so does the second one, which has counted before
  have hsecond : Reading c₅ 1 _ := hreading₄.aside haside₅ (by decide)
  obtain ⟨c₆, hreach₆, hreturned₆, haside₆, -, hrows₆, -, hcreated₆⟩ := can_insert hsecond rfl
    (show usersMeaning (fun text => text) (.insertAdministrator (lit "bob")
      (lit "$argon2id$v=19$hash")) c₅.store.rows c₅.store.counter
      { affectedRows := 1, lastInsertId := 2 } _ _ _ from
      ⟨2, Nat.le_of_eq hcounter₅, rfl, by rw [hrows₅, hrows₄]; rfl, by rw [hrows₅, hrows₄]; rfl, rfl,
        rfl, rfl, rfl⟩)
    (by
      intro j hj key
      by_cases hzero : j = 0
      · rw [hzero]
        exact hfree₅ key
      · rw [(haside₅ j hzero).2]
        exact hothers j hzero hj key)
  refine ⟨c₆, hreach₁.trans (hreach₂.trans (hreach₃.trans (hreach₄.trans (hreach₅.trans hreach₆)))),
    ?_, hreturned₆, ?_, ?_, ?_⟩
  · rw [(haside₆ 0 (by decide)).1]
    exact hreturned₅
  · rw [hrows₆, hrows₅, hrows₄]
    rfl
  · rw [hrows₆]
    rfl
  · rw [hcreated₆, hcreated₅]
    unfold created
    rw [hsame₄.log, hsame₂.log]
    rfl

end Counterexample

end Warehouse.Bootstrap
