/-
# Warehouse.Bootstrap.StartupCheck — the startup check is all or nothing

`runLegacyStartupChecks` on a users table that nobody else writes.  The loop over the stored
passwords rewrites rows while a later row, the count, the hashing or the insertion may still fail.
All of it happens under one transaction, so what the check has to keep is this: until the commit,
the committed rows are what they were, and every early exit ends the transaction.  What the session
sees is meanwhile the table with its passwords migrated, row by row.
-/
import Warehouse.Bootstrap.UsersTable

namespace Warehouse.Bootstrap

open Warehouse.Interaction Warehouse.Mysql

/-! ## What the check makes of a table -/

/-- The rows of a table, by id. -/
abbrev Users : Type := ℤ → Option UserRow

section Tables

variable (sodium : Sodium) (collation : Collation) (configuration : LegacyStartupConfiguration)

/-- Every row is still there, with its name and role.  Another password it has only if its own was
plaintext and may be migrated. -/
def Kept (before after : Users) : Prop :=
  ∀ id row, before id = some row → ∃ password,
    after id = some { row with password := password } ∧
    (password ≠ row.password → classifyStoredPassword sodium row.password = .legacyPlaintext ∧
      configuration.migratePlaintextPasswords = true)

/-- The password of a row is a hash. -/
def Hashed (row : UserRow) : Prop := classifyStoredPassword sodium row.password = .passwordHash

/-- A table whose passwords are migrated, up to the rows `done`. -/
structure Migrated (before after : Users) (done : List ℤ) : Prop where
  kept : Kept sodium configuration before after
  same : ∀ id, before id = none → after id = none
  hashed : ∀ id ∈ done, ∀ row, after id = some row → Hashed sodium row

/-- What the loop over the stored passwords makes of a table, row by row: a hash stays, and plaintext
is replaced by a hash of it. -/
inductive Rewritten (before : Users) : List ℤ → Users → Prop
  | start : Rewritten before [] before
  | skip {done : List ℤ} {after : Users} {id : ℤ} {row : UserRow} :
      Rewritten before done after → before id = some row → Hashed sodium row →
      Rewritten before (done ++ [id]) after
  | rehash {done : List ℤ} {after : Users} {id : ℤ} {row current : UserRow} {calls : ℕ}
      {hash : Bytes} :
      Rewritten before done after → before id = some row → after id = some current →
      classifyStoredPassword sodium row.password = .legacyPlaintext →
      configuration.migratePlaintextPasswords = true →
      hashPassword sodium calls row.password = .ok hash →
      Rewritten before (done ++ [id])
        (Function.update after id (some { current with password := hash }))

/-- What a check that comes to its commit has made of a table. -/
inductive Prepared (before : Users) : Users → Prop
  | administered {done : List ℤ} {after : Users} :
      Rewritten sodium configuration before done after → (∀ id, before id ≠ none → id ∈ done) →
      (∃ id row, after id = some row ∧ row.isAdministrator collation) → Prepared before after
  | created {done : List ℤ} {after : Users} {id : ℤ} {calls : ℕ} {password username hash : Bytes} :
      Rewritten sodium configuration before done after → (∀ id, before id ≠ none → id ∈ done) →
      (∀ id row, after id = some row → ¬ row.isAdministrator collation) → after id = none →
      hashPassword sodium calls password = .ok hash →
      Prepared before (Function.update after id (some (administratorRow username hash)))

/-- A table that the check has accepted. -/
structure Checked (before after : Users) : Prop where
  hashed : ∀ id row, after id = some row → Hashed sodium row
  administrator : ∃ id row, after id = some row ∧ row.isAdministrator collation
  kept : Kept sodium configuration before after
  unchanged : ∀ id row, before id = some row → Hashed sodium row → after id = some row
  /-- At most one row is new. -/
  added : ∀ id id', before id = none → before id' = none → after id ≠ none → after id' ≠ none →
    id = id'
  /-- And none, where there is an administrator. -/
  needed : ∀ id, before id = none → after id ≠ none →
    ∀ other row, before other = some row → ¬ row.isAdministrator collation

end Tables

variable {sodium : Sodium} {collation : Collation} {configuration : LegacyStartupConfiguration}
  {before after : Users} {done : List ℤ} {id : ℤ} {row : UserRow} {hash : Bytes}

/-- A hash is not plaintext, so its row is the one that it was. -/
theorem Kept.unchanged (h : Kept sodium configuration before after) (hrow : before id = some row)
    (hhashed : Hashed sodium row) : after id = some row := by
  obtain ⟨password, hafter, hchanged⟩ := h id row hrow
  have hsame : password = row.password := by
    by_contra hne
    have hplain := (hchanged hne).1
    rw [hhashed] at hplain
    cases hplain
  rw [hafter, hsame]

theorem Migrated.refl (before : Users) : Migrated sodium configuration before before [] where
  kept _ row h := ⟨row.password, h, fun hne => absurd rfl hne⟩
  same _ h := h
  hashed _ h := absurd h List.not_mem_nil

/-- A row that is a hash already needs no migration. -/
theorem Migrated.skip (h : Migrated sodium configuration before after done)
    (hrow : before id = some row) (hhashed : Hashed sodium row) :
    Migrated sodium configuration before after (done ++ [id]) where
  kept := h.kept
  same := h.same
  hashed other hother found hfound := by
    rcases List.mem_append.mp hother with hold | hnew
    · exact h.hashed other hold found hfound
    · obtain rfl : other = id := List.mem_singleton.mp hnew
      rw [h.kept.unchanged hrow hhashed, Option.some.injEq] at hfound
      rw [← hfound]
      exact hhashed

/-- A plaintext password is replaced by a hash. -/
theorem Migrated.update {current : UserRow} (h : Migrated sodium configuration before after done)
    (hrow : before id = some row) (hcurrent : after id = some current)
    (hplain : classifyStoredPassword sodium row.password = .legacyPlaintext)
    (hflag : configuration.migratePlaintextPasswords = true)
    (hhash : classifyStoredPassword sodium hash = .passwordHash) :
    Migrated sodium configuration before
      (Function.update after id (some { current with password := hash })) (done ++ [id]) where
  kept other found hfound := by
    by_cases hid : other = id
    · subst hid
      obtain rfl : row = found := Option.some.inj (hrow.symm.trans hfound)
      obtain ⟨password, hafter, -⟩ := h.kept other row hrow
      obtain rfl : current = { row with password := password } :=
        Option.some.inj (hcurrent.symm.trans hafter)
      exact ⟨hash, by simp, fun _ => ⟨hplain, hflag⟩⟩
    · obtain ⟨password, hafter, hchanged⟩ := h.kept other found hfound
      exact ⟨password, by rwa [Function.update_of_ne hid], hchanged⟩
  same other hother := by
    have hid : other ≠ id := by
      rintro rfl
      rw [hrow] at hother
      cases hother
    rw [Function.update_of_ne hid]
    exact h.same other hother
  hashed other hother found hfound := by
    by_cases hid : other = id
    · subst hid
      rw [Function.update_self, Option.some.injEq] at hfound
      rw [← hfound]
      exact hhash
    · rw [Function.update_of_ne hid] at hfound
      have hold : other ∈ done := by simpa [hid] using hother
      exact h.hashed other hold found hfound

/-- The rows are all migrated once every row of the first table has been handled. -/
theorem Migrated.all (h : Migrated sodium configuration before after done)
    (hdone : ∀ id, before id ≠ none → id ∈ done) (hrow : after id = some row) :
    Hashed sodium row := by
  apply h.hashed id _ row hrow
  apply hdone
  intro hnone
  rw [h.same id hnone] at hrow
  cases hrow

/-- Roles are kept, so administrators are. -/
theorem Migrated.administrator (h : Migrated sodium configuration before after done)
    (hrow : before id = some row) (hadministrator : row.isAdministrator collation) :
    ∃ row, after id = some row ∧ row.isAdministrator collation := by
  obtain ⟨password, hafter, -⟩ := h.kept id row hrow
  exact ⟨_, hafter, hadministrator⟩

/-- With an administrator, the migrated table is accepted. -/
theorem Migrated.checked (h : Migrated sodium configuration before after done)
    (hdone : ∀ id, before id ≠ none → id ∈ done)
    (hadministrator : ∃ id row, after id = some row ∧ row.isAdministrator collation) :
    Checked sodium collation configuration before after where
  hashed _ _ hrow := h.all hdone hrow
  administrator := hadministrator
  kept := h.kept
  unchanged _ _ hrow := h.kept.unchanged hrow
  added id _ hnone _ hsome _ := absurd (h.same id hnone) hsome
  needed id hnone hsome := absurd (h.same id hnone) hsome

/-- Without one, it is accepted with an administrator added. -/
theorem Migrated.checked_insert {username : Bytes}
    (h : Migrated sodium configuration before after done)
    (hdone : ∀ id, before id ≠ none → id ∈ done)
    (hnobody : ∀ id row, after id = some row → ¬ row.isAdministrator collation)
    (hfresh : after id = none) (hhash : classifyStoredPassword sodium hash = .passwordHash) :
    Checked sodium collation configuration before
      (Function.update after id (some (administratorRow username hash))) := by
  -- the new id was not in the table before either
  have hfresh₀ : ∀ other row, before other = some row → other ≠ id := by
    rintro other row hrow rfl
    obtain ⟨password, hafter, -⟩ := h.kept other row hrow
    rw [hfresh] at hafter
    cases hafter
  have hnew : ∀ other, before other = none →
      Function.update after id (some (administratorRow username hash)) other ≠ none →
      other = id := by
    intro other hnone hsome
    by_contra hid
    rw [Function.update_of_ne hid] at hsome
    exact hsome (h.same other hnone)
  have hkept : Kept sodium configuration before
      (Function.update after id (some (administratorRow username hash))) := by
    intro other row hrow
    obtain ⟨password, hafter, hchanged⟩ := h.kept other row hrow
    exact ⟨password, by rwa [Function.update_of_ne (hfresh₀ other row hrow)], hchanged⟩
  refine
    { hashed := ?_
      administrator := ⟨id, administratorRow username hash, Function.update_self .., rfl⟩
      kept := hkept
      unchanged := fun _ _ hrow => hkept.unchanged hrow
      added := fun first second hfirst hsecond hfound hfound' =>
        (hnew first hfirst hfound).trans (hnew second hsecond hfound').symm
      needed := ?_ }
  · intro other row hrow
    by_cases hid : other = id
    · subst hid
      rw [Function.update_self, Option.some.injEq] at hrow
      rw [← hrow]
      exact hhash
    · rw [Function.update_of_ne hid] at hrow
      exact h.all hdone hrow
  · intro _ _ _ other row hrow hadministrator
    obtain ⟨found, hfound, hagain⟩ := h.administrator hrow hadministrator
    exact hnobody other found hfound hagain

section Derived

variable (hhash : ∀ calls password hash, hashPassword sodium calls password = .ok hash →
  classifyStoredPassword sodium hash = .passwordHash)
include hhash

theorem Rewritten.migrated (h : Rewritten sodium configuration before done after) :
    Migrated sodium configuration before after done := by
  induction h with
  | start => exact .refl before
  | skip _ hrow hhashed ih => exact ih.skip hrow hhashed
  | rehash _ hrow hcurrent hplain hflag hdrawn ih =>
      exact ih.update hrow hcurrent hplain hflag (hhash _ _ _ hdrawn)

theorem Prepared.checked (h : Prepared sodium collation configuration before after) :
    Checked sodium collation configuration before after := by
  cases h with
  | administered hrewritten hdone hadministrator =>
      exact (hrewritten.migrated hhash).checked hdone hadministrator
  | created hrewritten hdone hnobody hfresh hdrawn =>
      exact (hrewritten.migrated hhash).checked_insert hdone hnobody hfresh (hhash _ _ _ hdrawn)

end Derived

/-! ## The code of the check -/

section Code

/-- The session of the check. -/
abbrev CheckSession : Type := LoneSession StartupStatement UserKey UserEntry

variable {α : Type} {rows₀ : UserEntries} {s : CheckSession}

/-- The transaction is open, nothing of it is committed, and the session sees these rows. -/
structure Underway (rows₀ : UserEntries) (after : Users) (s : CheckSession) : Prop where
  rows : s.store.rows = rows₀
  active : s.active = true
  users : UserEntries.user s.view = after

/-- The check has left early: its transaction is over and has committed nothing. -/
def Undone (rows₀ : UserEntries) (left : StartupFailure × Transaction) (s : CheckSession) : Prop :=
  left.2.active = false ∧ s.store.rows = rows₀ ∧ s.Settled

/-- Code of the check that goes on to `Q`, or is undone. -/
abbrev Proceeds (collation : Collation) (rows₀ : UserEntries) (Q : α → CheckSession → Prop)
    (check : Check α) (s : CheckSession) : Prop :=
  Program.wpx (LoneSession.answers (usersMeaning collation)) LoneSession.free Q (Undone rows₀) check s

variable {Q : α → CheckSession → Prop}

theorem proceeds_refuse (hrows : s.store.rows = rows₀) (code message : Bytes) :
    Proceeds collation rows₀ Q (refuse Transaction.opened code message) s := by
  unfold refuse
  rw [Proceeds, Program.wpx_bind, Program.wpx_lift]
  apply Program.wp_post LoneSession.wp_rollback
  intro t s' hended
  obtain ⟨hinactive, hkept, hsettled⟩ := hended
  exact ⟨hinactive, hkept.trans hrows, hsettled⟩

/-- A statement that is refused commits nothing; one that is executed changes what is seen. -/
theorem proceeds_send {statement : StartupStatement} {next : SqlResult → Check α}
    (hs : Underway rows₀ after s)
    (hrefused : ∀ e s', s'.store.rows = rows₀ → Proceeds collation rows₀ Q (next (.error e)) s')
    (hexecuted : ∀ response writes locks counter s',
      usersMeaning collation statement s.view s.store.counter response writes locks counter →
      Underway rows₀ (UserEntries.user (UserEntries.over writes s.view)) s' →
      Proceeds collation rows₀ Q (next (.ok response)) s') :
    Proceeds collation rows₀ Q (sendStatement statement >>= next) s := by
  unfold sendStatement
  rw [Proceeds, Program.wpx_bind, Program.wpx_lift]
  intro answer s' hanswer
  refine ⟨trivial, ?_⟩
  rcases answer with e | response
  · apply hrefused
    rw [LoneSession.refused_rows hanswer rfl nofun]
    exact hs.rows
  · obtain ⟨writes, locks, counter, hmeaning, hrows, hactive, hview⟩ :=
      LoneSession.answers_executed hs.active hanswer
    apply hexecuted response writes locks counter s' hmeaning
    exact ⟨hrows.trans hs.rows, hactive, by rw [hview]; rfl⟩

/-- The rows handled so far, and with this one, are migrated. -/
theorem proceeds_migratePassword {calls userId : ℕ} (hs : Underway rows₀ after s)
    (h : Rewritten sodium configuration before done after) (hrow : before userId = some row)
    (hplain : classifyStoredPassword sodium row.password = .legacyPlaintext) :
    Proceeds collation rows₀
      (fun _ s' => ∃ after, Underway rows₀ after s' ∧
        Rewritten sodium configuration before (done ++ [(userId : ℤ)]) after)
      (migratePassword sodium configuration Transaction.opened calls userId row.password) s := by
  unfold migratePassword
  split
  · exact proceeds_refuse hs.rows _ _
  rename_i hflag
  simp only [Bool.not_eq_true', Bool.not_eq_false] at hflag
  split
  · exact proceeds_refuse hs.rows _ _
  rename_i hash hhashed
  apply proceeds_send hs
  · intro e s' hrows
    exact proceeds_refuse hrows _ _
  intro response writes locks counter s' hmeaning hs'
  show Proceeds _ _ _ (if response.affectedRows ≠ 1 then _ else _) s'
  split
  · exact proceeds_refuse hs'.rows _ _
  rename_i haffected
  obtain ⟨-, hupdated⟩ := hmeaning
  rw [hs.users] at hupdated
  cases hcurrent : after userId with
  | none =>
      rw [hcurrent] at hupdated
      exact absurd hupdated.2.2 (by omega)
  | some current =>
      rw [hcurrent] at hupdated
      obtain ⟨rfl, -, -⟩ := hupdated
      rw [user_over_writeUser, hs.users] at hs'
      exact ⟨_, hs', h.rehash hrow hcurrent hplain hflag hhashed⟩

/-- One turn of the loop over the stored passwords. -/
theorem proceeds_checkRow {calls : ℕ} (hs : Underway rows₀ after s)
    (h : Rewritten sodium configuration before done after) (hrow : before id = some row) :
    Proceeds collation rows₀
      (fun _ s' => ∃ after, Underway rows₀ after s' ∧
        Rewritten sodium configuration before (done ++ [id]) after)
      (checkRow sodium configuration Transaction.opened calls
        [some (toDecimalInt id), some row.password]) s := by
  unfold checkRow
  dsimp only
  split
  · exact proceeds_refuse hs.rows _ _
  rename_i userId hparsed
  obtain rfl : id = userId := eq_of_parseId hparsed
  split
  · exact proceeds_refuse hs.rows _ _
  · rename_i hplain
    exact proceeds_migratePassword hs h hrow hplain
  · rename_i hhashed
    exact ⟨after, hs, h.skip hrow hhashed⟩

/-- The initial administrator, where the table has none. -/
theorem proceeds_createInitialAdministrator {calls : ℕ} (hs : Underway rows₀ after s)
    (h : Rewritten sodium configuration before done after) (hdone : ∀ id, before id ≠ none → id ∈ done)
    (hnobody : ∀ id row, after id = some row → ¬ row.isAdministrator collation) :
    Proceeds collation rows₀
      (fun _ s' => ∃ after, Underway rows₀ after s' ∧
        Prepared sodium collation configuration before after)
      (createInitialAdministrator sodium configuration Transaction.opened calls) s := by
  unfold createInitialAdministrator
  split
  · dsimp only
    split
    · exact proceeds_refuse hs.rows _ _
    split
    · exact proceeds_refuse hs.rows _ _
    rename_i hash hhashed
    apply proceeds_send hs
    · intro e s' hrows
      exact proceeds_refuse hrows _ _
    intro response writes locks counter s' hmeaning hs'
    obtain ⟨id, -, -, hfresh, -, rfl, -⟩ := hmeaning
    rw [user_over_insertUser, hs.users] at hs'
    have hnone : after id = none := by
      rw [← hs.users]
      exact user_eq_none hfresh
    exact ⟨_, hs', .created h hdone hnobody hnone hhashed⟩
  · exact proceeds_refuse hs.rows _ _

/-- The administrator part: the count is that of the table that the session sees. -/
theorem proceeds_checkAdministrators {calls : ℕ} {adminCount : SqlResponse} {ids : List ℤ}
    (hs : Underway rows₀ after s) (h : Rewritten sodium configuration before done after)
    (hdone : ∀ id, before id ≠ none → id ∈ done)
    (hids : ∀ id, id ∈ ids ↔ ∃ row, after id = some row ∧ row.isAdministrator collation)
    (hcount : adminCount.rows = [[some (toDecimal ids.length)]]) :
    Proceeds collation rows₀
      (fun _ s' => ∃ after, Underway rows₀ after s' ∧
        Prepared sodium collation configuration before after)
      (checkAdministrators sodium configuration Transaction.opened calls adminCount) s := by
  unfold checkAdministrators
  rw [hcount]
  split
  · exact proceeds_refuse hs.rows _ _
  rename_i count hparsed
  have hlength : ids.length = count := readAdministratorCount_toDecimal hparsed
  split
  · rename_i hzero
    have hempty : ids = [] := List.length_eq_zero_iff.mp (by omega)
    apply proceeds_createInitialAdministrator hs h hdone
    intro id row hrow hadministrator
    have hid : id ∈ ids := (hids id).mpr ⟨row, hrow, hadministrator⟩
    rw [hempty] at hid
    cases hid
  · rename_i hsome
    have hpos : 0 < ids.length := by omega
    obtain ⟨id, hid⟩ := List.exists_mem_of_length_pos hpos
    exact ⟨after, hs, .administered h hdone ⟨id, (hids id).mp hid⟩⟩

/-- Everything up to the commit. -/
theorem proceeds_checkUsers (hs : Underway rows₀ before s) :
    Proceeds collation rows₀
      (fun _ s' => ∃ after, Underway rows₀ after s' ∧
        Prepared sodium collation configuration before after)
      (checkUsers sodium configuration Transaction.opened) s := by
  unfold checkUsers
  apply proceeds_send hs
  · intro e s' hrows
    exact proceeds_refuse hrows _ _
  intro passwords writes locks counter s₁ hscanned hs₁
  obtain ⟨rfl, -, ids, -, hids, hrows, -⟩ := hscanned
  rw [user_over_nothing] at hs₁
  rw [hs.users] at hs₁ hids hrows
  show Proceeds _ _ _ (passwords.rows.foldlM _ 0 >>= _) s₁
  rw [Proceeds, Program.wpx_bind]
  -- the rows handled so far are those of the first ids that were returned
  let cells : ℤ → SqlRow := fun id => [some (toDecimalInt id), (before id).map UserRow.password]
  let I : List SqlRow → ℕ → CheckSession → Prop := fun handled _ s =>
    ∃ first second after, ids = first ++ second ∧ handled = first.map cells ∧
      Underway rows₀ after s ∧ Rewritten sodium configuration before first after
  have hstart : I [] 0 s₁ := ⟨[], ids, before, rfl, rfl, hs₁, .start⟩
  apply Program.wpx_post (Program.wpx_foldlM I _ hstart) _ fun _ _ hleft => hleft
  · intro handled x rest calls s hsplit hI
    obtain ⟨first, second, after, rfl, rfl, hs, h⟩ := hI
    rw [hrows, List.map_append, List.append_cancel_left_eq] at hsplit
    obtain ⟨id, others, rfl, rfl, -⟩ := List.map_eq_cons_iff.mp hsplit
    have hmember : before id ≠ none := (hids id).mp (by simp)
    obtain ⟨row, hrow⟩ := Option.ne_none_iff_exists'.mp hmember
    rw [hrow]
    apply Program.wpx_post (proceeds_checkRow hs h hrow) _ fun _ _ hleft => hleft
    intro calls s' hafter
    obtain ⟨after, hs', h'⟩ := hafter
    exact ⟨first ++ [id], others, after, by simp, by simp [cells, hrow], hs', h'⟩
  · intro calls s₂ hI
    obtain ⟨first, second, after, rfl, hhandled, hs₂, h⟩ := hI
    have hnothing : second = [] := by simpa [hrows, cells] using hhandled
    rw [hnothing, List.append_nil] at hids
    have hdone : ∀ id, before id ≠ none → id ∈ first := fun id hid => (hids id).mpr hid
    apply proceeds_send hs₂
    · intro e s' hkept
      exact proceeds_refuse hkept _ _
    intro adminCount writes locks counter s₃ hcounted hs₃
    obtain ⟨rfl, -, -, admins, -, hadmins, hcount⟩ := hcounted
    rw [user_over_nothing] at hs₃
    rw [hs₂.users] at hs₃ hadmins
    exact proceeds_checkAdministrators hs₃ h hdone hadmins hcount

/-- The whole check on an idle session. -/
theorem wp_runLegacyStartupChecks (lease : Except SqlError Unit) (hidle : s.Idle)
    (hbefore : UserEntries.user s.store.rows = before) :
    (runLegacyStartupChecks sodium configuration lease).wp
      (LoneSession.answers (usersMeaning collation)) LoneSession.free
      (fun result s' => s'.Settled ∧
        match result with
        | .error f => s'.store.rows = s.store.rows ∨
            (f.code = lit "legacy_startup_commit_failed" ∧
              Prepared sodium collation configuration before (UserEntries.user s'.store.rows))
        | .ok () => Prepared sodium collation configuration before (UserEntries.user s'.store.rows)) s := by
  unfold runLegacyStartupChecks
  cases lease with
  | error e => exact ⟨Or.inr hidle.1, Or.inl rfl⟩
  | ok _ =>
      apply (Program.wp_bind (Transaction.begin .command) _ _).mpr
      apply Program.wp_post (LoneSession.wp_begin .command hidle)
      intro begun s₁ hbegun
      obtain ⟨hrows, hbegun⟩ := hbegun
      rcases begun with f | t
      · exact ⟨Or.inl hbegun, Or.inl hrows⟩
      obtain ⟨rfl, hactive, hview⟩ := hbegun
      have hs₁ : Underway s.store.rows before s₁ := ⟨hrows, hactive, by rw [hview, hbefore]⟩
      apply (Program.wp_bind (checkUsers sodium configuration Transaction.opened).run _ _).mpr
      apply Program.wp_post (proceeds_checkUsers hs₁)
      intro checked s₂ hchecked
      rcases checked with ⟨f, t⟩ | _
      · obtain ⟨hinactive, hkept, hsettled⟩ := hchecked
        exact LoneSession.wp_destroy hinactive ⟨hsettled, Or.inl hkept⟩
      obtain ⟨after, hs₂, hafter⟩ := hchecked
      apply (Program.wp_bind Transaction.opened.commit _ _).mpr
      apply Program.wp_post LoneSession.wp_commit
      intro ended s₃ hended
      obtain ⟨committed, t⟩ := ended
      obtain ⟨hinactive, hsettled, hcommitted⟩ := hended
      apply LoneSession.wp_destroy hinactive
      rcases committed with f | _
      · refine ⟨hsettled, ?_⟩
        rcases hcommitted with hkept | hdone
        · exact Or.inl (hkept.trans hs₂.rows)
        · right
          rw [hdone, hs₂.users]
          exact ⟨rfl, hafter⟩
      · refine ⟨hsettled, ?_⟩
        show Prepared _ _ _ _ (UserEntries.user s₃.store.rows)
        rw [show s₃.store.rows = s₂.view from hcommitted, hs₂.users]
        exact hafter

/-- The check on a table that nobody else writes, whatever the statements, the commit and the
hashing do: if it fails, other than in its commit, the committed table is what it was, and if it
succeeds, the table has been checked.  A commit that fails leaves the one or the other, and no
transaction outlives the lease. -/
theorem startupCheck_allOrNothing
    (hhash : ∀ calls password hash, hashPassword sodium calls password = .ok hash →
      classifyStoredPassword sodium hash = .passwordHash)
    {lease : Except SqlError Unit} {s' : CheckSession}
    {events : SqlHistory StartupStatement} {result : Except StartupFailure Unit} (hidle : s.Idle)
    (hrun : Program.Runs (runLegacyStartupChecks sodium configuration lease) events result)
    (hanswers : Program.Answers (LoneSession.answers (usersMeaning collation)) s events s') :
    (∀ f, result = .error f → f.code ≠ lit "legacy_startup_commit_failed" →
      s'.released.store.rows = s.store.rows) ∧
    (result = .ok () → Checked sodium collation configuration (UserEntries.user s.store.rows)
      (UserEntries.user s'.released.store.rows)) ∧
    (∀ f, result = .error f → s'.released.store.rows = s.store.rows ∨
      Checked sodium collation configuration (UserEntries.user s.store.rows)
        (UserEntries.user s'.released.store.rows)) ∧
    s'.released.active = false := by
  obtain ⟨⟨hsettled, hresult⟩, -⟩ :=
    Program.runs_under (wp_runLegacyStartupChecks lease hidle rfl) hrun hanswers
  rw [LoneSession.released_rows]
  refine ⟨?_, ?_, ?_, hsettled.released⟩
  · intro f hfailed hcode
    rw [hfailed] at hresult
    exact hresult.resolve_right fun hcommit => hcode hcommit.1
  · intro hok
    rw [hok] at hresult
    exact hresult.checked hhash
  · intro f hfailed
    rw [hfailed] at hresult
    exact hresult.imp_right fun hcommit => hcommit.2.checked hhash

end Code

/-! ## A first start on an old table -/

section Witness

open LoneSession

def firstConfiguration : LegacyStartupConfiguration where
  initialAdministratorUsername := some (lit " root\n")
  initialAdministratorPassword := some (lit "correct horse battery")
  migratePlaintextPasswords := true

/-- A table with one user, whose password is still plaintext. -/
def oldTable : CheckSession where
  store :=
    { rows := insertUser (fun text => text) 1 ⟨lit "alice", lit "secret", lit "viewer"⟩
      counter := 2 }

/-- The password is migrated, an administrator is created, and the commit goes through. -/
def firstCheck : SqlHistory StartupStatement :=
  [⟨.control (.setIsolation .command), .ok {}⟩, ⟨.control (.start .command), .ok {}⟩,
    ⟨.execute .scanPasswords, .ok { rows := [[some (lit "1"), some (lit "secret")]] }⟩,
    ⟨.execute (.updatePassword (lit "$argon2id$v=19$hash") 1), .ok { affectedRows := 1 }⟩,
    ⟨.execute .countAdministrators, .ok { rows := [[some (lit "0")]] }⟩,
    ⟨.execute (.insertAdministrator (lit "root") (lit "$argon2id$v=19$hash")),
      .ok { affectedRows := 1, lastInsertId := 2 }⟩,
    ⟨.control .commit, .ok {}⟩]

/-- A server that gives these answers in turn. -/
def inTurn : (call : ExecutorCall StartupStatement) → List SqlResult → call.Answer × List SqlResult
  | .control _, answers => (.ok {}, answers)
  | .poison, answers => ((), answers)
  | .execute _, [] => (.ok {}, [])
  | .execute _, answer :: answers => (answer, answers)

theorem runs_firstCheck :
    Program.Runs (runLegacyStartupChecks oneHash firstConfiguration (.ok ())) firstCheck (.ok ()) := by
  have hrun := Program.runs_exec inTurn (runLegacyStartupChecks oneHash firstConfiguration (.ok ()))
    [.ok { rows := [[some (lit "1"), some (lit "secret")]] }, .ok { affectedRows := 1 },
      .ok { rows := [[some (lit "0")]] }, .ok { affectedRows := 1, lastInsertId := 2 }]
  exact hrun

theorem answers_firstCheck :
    ∃ s', Program.Answers (answers (usersMeaning fun text => text)) oldTable firstCheck s' := by
  obtain ⟨s₁, h₁, hfree₁, hactive₁, hview₁, hcounter₁⟩ :=
    can_start (s := oldTable) (usersMeaning fun text => text) {} .command rfl
  -- only the id 1 is in the table
  have hids : ∀ id, id ∈ ([1] : List ℤ) ↔ UserEntries.user s₁.view id ≠ none := by
    intro id
    rw [hview₁]
    by_cases hid : id = 1 <;> simp [oldTable, insertUser, writeUser, UserEntries.user, hid]
  obtain ⟨s₂, h₂, hfree₂, hactive₂, hview₂, hcounter₂⟩ := can_execute hfree₁ hactive₁
    (show usersMeaning (fun text => text) .scanPasswords s₁.view s₁.store.counter
      { rows := [[some (lit "1"), some (lit "secret")]] } _ _ _ from
      ⟨rfl, rfl, [1], by decide, hids, by rw [hview₁]; rfl, rfl⟩)
  obtain ⟨s₃, h₃, hfree₃, hactive₃, hview₃, hcounter₃⟩ := can_execute hfree₂ hactive₂
    (show usersMeaning (fun text => text) (.updatePassword (lit "$argon2id$v=19$hash") 1) s₂.view
      s₂.store.counter { affectedRows := 1 } _ _ _ from
      ⟨rfl, by rw [hview₂, hview₁]; exact ⟨rfl, rfl, rfl⟩⟩)
  -- nobody is an administrator
  have hnobody : ∀ id, id ∈ ([] : List ℤ) ↔ ∃ row, UserEntries.user s₃.view id = some row ∧
      row.isAdministrator fun text => text := by
    intro id
    rw [hview₃, hview₂, hview₁]
    by_cases hid : id = 1
    · subst hid
      simp only [List.not_mem_nil, false_iff]
      intro hfound
      obtain ⟨row, hrow, hadministrator⟩ := hfound
      obtain rfl := Option.some.inj hrow
      exact absurd hadministrator (by decide)
    · simp [oldTable, insertUser, writeUser, UserEntries.user, hid]
  obtain ⟨s₄, h₄, hfree₄, hactive₄, hview₄, hcounter₄⟩ := can_execute hfree₃ hactive₃
    (show usersMeaning (fun text => text) .countAdministrators s₃.view s₃.store.counter
      { rows := [[some (lit "0")]] } _ _ _ from
      ⟨rfl, rfl, rfl, [], List.nodup_nil, hnobody, rfl⟩)
  have hcounter : s₄.store.counter = 2 := by
    rw [hcounter₄, hcounter₃, hcounter₂, hcounter₁]
    rfl
  obtain ⟨s₅, h₅, -⟩ := can_execute hfree₄ hactive₄
    (show usersMeaning (fun text => text) (.insertAdministrator (lit "root")
        (lit "$argon2id$v=19$hash")) s₄.view s₄.store.counter
      { affectedRows := 1, lastInsertId := 2 } _ _ _ from
      ⟨2, Nat.le_of_eq hcounter, rfl, by rw [hview₄, hview₃, hview₂, hview₁]; rfl,
        by rw [hview₄, hview₃, hview₂, hview₁]; rfl, rfl, rfl, rfl, rfl⟩)
  exact ⟨_, .cons (can_isolate _) (.cons h₁ (.cons h₂ (.cons h₃ (.cons h₄ (.cons h₅
    (.cons can_commit (.nil _)))))))⟩

/-- The plaintext password is gone, and there is an administrator. -/
theorem startupCheck_allOrNothing_firstCheck :
    ∃ after : Users, Checked oneHash (fun text => text) firstConfiguration
      (UserEntries.user oldTable.store.rows) after := by
  obtain ⟨s', hanswers⟩ := answers_firstCheck
  have hhash : ∀ calls password hash, hashPassword oneHash calls password = .ok hash →
      classifyStoredPassword oneHash hash = .passwordHash := by
    intro calls password hash hhashed
    obtain rfl : lit "$argon2id$v=19$hash" = hash := Except.ok.inj hhashed
    decide
  exact ⟨_, (startupCheck_allOrNothing hhash ⟨rfl, rfl⟩ runs_firstCheck hanswers).2.1 rfl⟩

end Witness

end Warehouse.Bootstrap
