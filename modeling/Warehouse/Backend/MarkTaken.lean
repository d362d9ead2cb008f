/-
# Warehouse.Backend.MarkTaken — what the verdict of `markTaken` says of goods that others write

`markTaken` sends an `UPDATE` that names the status it expects, and if that changes no row, a locking
`SELECT` whose only use is whether it finds a row.  At `READ COMMITTED` each of the two statements
sees what is committed when it is executed, and between them any other transaction may commit an
insert or an update of any row that is not locked.  The status that the `SELECT` reads is not
looked at, so a row that came, or came back, in between is reported as taken already.
-/
import Warehouse.Backend.GoodsLedger

namespace Warehouse.Backend

open Warehouse.Interaction Warehouse.Mysql

/-! ## Statements while others commit -/

/-- A row of goods that another transaction commits: an update if there is a row with that id, an
insert if not. -/
structure GoodsCommit where
  id : ℤ
  row : GoodsRow

/-- The rows after commits, the oldest first. -/
def LegacyRows.after (rows : LegacyRows) : List GoodsCommit → LegacyRows
  | [] => rows
  | commit :: rest => LegacyRows.after ((writeGoods commit.id commit.row).over rows) rest

/-- The last row that is committed under an id. -/
def lastCommit (id : ℤ) : List GoodsCommit → Option GoodsRow
  | [] => none
  | commit :: rest => (lastCommit id rest).or (if commit.id = id then some commit.row else none)

/-- An open transaction among others: what is committed, the session, and what others are about to
commit before each of its next statements. -/
structure Contended where
  rows : LegacyRows
  session : RowSession (ExecutorCall LegacyStatement) ExecutorCall.Answer LegacyKey LegacyRecord :=
    { active := true }
  windows : List (List GoodsCommit)

namespace Contended

/-- The commits before the next statement. -/
def window (s : Contended) : List GoodsCommit := s.windows.headD []

/-- The others have committed. -/
def interrupted (s : Contended) : Contended :=
  { s with rows := s.rows.after s.window, windows := s.windows.tail }

/-- What the transaction sees: the committed rows under its own writes. -/
def view (s : Contended) : LegacyRows := replay s.session.pending s.rows

/-- The transaction has executed a statement. -/
def executed (s : Contended) (event : Event (ExecutorCall LegacyStatement) ExecutorCall.Answer)
    (writes : LegacyRows) (locks : LegacyKey → Prop) : Contended :=
  { s with session := { s.session with
      pending := s.session.pending ++ [⟨0, event, s.view, writes⟩]
      locks := fun key => s.session.locks key ∨ locks key } }

/-- A statement is executed after the commits of others, which have not touched a row that the
transaction holds; or it fails. -/
def environment (dialect : Dialect) :
    Environment (ExecutorCall LegacyStatement) ExecutorCall.Answer Contended
  | .execute statement, s, answer, s' =>
      (∀ commit ∈ s.window, ¬ s.session.holds (.goods commit.id)) ∧
        ((∃ error, answer = .error error ∧ s' = s.interrupted) ∨
          ∃ response counter counter' writes locks, answer = .ok response ∧
            legacyMeaning dialect statement s.interrupted.view counter response writes locks
              counter' ∧
            s' = s.interrupted.executed ⟨.execute statement, .ok response⟩ writes locks)
  | _, _, _, _ => False

end Contended

/-! ## The verdict -/

/-- The last statement of a transaction, with what it saw and wrote. -/
def Contended.Last (s : Contended) (P : LegacyEntry → Prop) : Prop :=
  ∃ e, s.session.pending.getLast? = some e ∧ P e

/-- What an outcome of `markTaken` says: there were goods that were taken when they were locked,
there were none, or there were goods that were not taken and are now. -/
def TruthfulOutcome (dialect : Dialect) (id : ℤ) (s : Contended) : TakeGoodsOutcome → Prop
  | .alreadyTaken => s.Last fun e => e.event.1 = .execute (.lockStatus id) ∧
      ∃ row, LegacyRows.goods e.view id = some row ∧ dialect.isTaken row
  | .notFound => s.Last fun e => e.event.1 = .execute (.lockStatus id) ∧
      LegacyRows.goods e.view id = none
  | .taken => s.Last fun e => (∃ operatorName, e.event.1 = .execute (.takeGoods operatorName id)) ∧
      ∃ row taken, LegacyRows.goods e.view id = some row ∧ ¬ dialect.isTaken row ∧
        LegacyRows.goods (LegacyRows.over e.writes e.view) id = some taken ∧
        taken.status = lit "taken"

/-- Whatever `markTaken` returns in a run with these commits before its two statements, is so. -/
def MarksTruthfully (dialect : Dialect) (rows : LegacyRows) (before between : List GoodsCommit)
    (id : ℤ) (operatorName : Bytes) : Prop :=
  Program.wp (Contended.environment dialect) (fun _ _ _ _ => True)
    (fun answer s => ∀ outcome, answer = .ok outcome → TruthfulOutcome dialect id s outcome)
    (markTaken id operatorName) { rows := rows, windows := [before, between] }

/-- Goods that the `UPDATE` finds taken, or does not find, are not left in another status by what
others commit before the `SELECT`. -/
def LeftTaken (dialect : Dialect) (rows : LegacyRows) (before between : List GoodsCommit)
    (id : ℤ) : Prop :=
  (∀ row, (rows.after before).goods id = some row → dialect.isTaken row) →
    ∀ row, lastCommit id between = some row → dialect.isTaken row

section MarkTaken

variable {dialect : Dialect} {rows : LegacyRows} {before between commits : List GoodsCommit}
  {id : ℤ} {operatorName : Bytes} {s : Contended}

theorem goods_after : (rows.after commits).goods id = (lastCommit id commits).or (rows.goods id) := by
  induction commits generalizing rows with
  | nil => rfl
  | cons commit rest ih =>
      show (LegacyRows.after ((writeGoods commit.id commit.row).over rows) rest).goods id =
        ((lastCommit id rest).or (if commit.id = id then some commit.row else none)).or
          (rows.goods id)
      rw [ih, goods_over_writeGoods, Option.or_assoc]
      by_cases hid : commit.id = id
      · subst hid
        rw [if_pos rfl, Function.update_self]
        rfl
      · rw [if_neg hid, Function.update_of_ne (Ne.symm hid)]
        rfl

/-- The statement that was executed is the last one. -/
theorem last_executed {event : Event (ExecutorCall LegacyStatement) ExecutorCall.Answer}
    {writes : LegacyRows} {locks : LegacyKey → Prop} {P : LegacyEntry → Prop} :
    (s.executed event writes locks).Last P ↔ P ⟨0, event, s.view, writes⟩ := by
  have hlast : (s.executed event writes locks).session.pending.getLast? =
      some ⟨0, event, s.view, writes⟩ := List.getLast?_concat
  constructor
  · rintro ⟨e, he, hP⟩
    rw [hlast] at he
    exact Option.some.inj he ▸ hP
  · intro hP
    exact ⟨_, hlast, hP⟩

/-- An `UPDATE` that changes a row has found goods that were not taken. -/
theorem truthful_taken {response : SqlResponse} {counter counter' : ℕ} {writes : LegacyRows}
    {locks : LegacyKey → Prop}
    (hmeaning : legacyMeaning dialect (.takeGoods operatorName id) s.view counter response writes
      locks counter') (haffected : response.affectedRows = 1) :
    TruthfulOutcome dialect id
      (s.executed ⟨.execute (.takeGoods operatorName id), .ok response⟩ writes locks) .taken := by
  refine last_executed.mpr ⟨⟨operatorName, rfl⟩, ?_⟩
  obtain ⟨-, ⟨row, takenAt, hrow, hfree, rfl, -⟩ | ⟨-, -, -, hnone⟩⟩ := hmeaning
  · refine ⟨row, row.take takenAt operatorName, hrow, hfree, ?_, rfl⟩
    rw [goods_over_writeGoods, Function.update_self]
  · omega

/-- An `UPDATE` that changes no row has found no goods, or goods that were taken. -/
theorem unchanged {response : SqlResponse} {counter counter' : ℕ} {writes : LegacyRows}
    {locks : LegacyKey → Prop}
    (hmeaning : legacyMeaning dialect (.takeGoods operatorName id) s.view counter response writes
      locks counter') (haffected : response.affectedRows ≠ 1) :
    (∀ row, LegacyRows.goods s.view id = some row → dialect.isTaken row) ∧
      (writes = fun _ => none) := by
  obtain ⟨-, ⟨_, _, -, -, -, -, hone⟩ | ⟨htaken, hwrites, -⟩⟩ := hmeaning
  · exact absurd hone haffected
  · exact ⟨htaken, hwrites⟩

/-- The `SELECT` finds a row if there is one, whatever its status. -/
theorem isEmpty_lockStatus {response : SqlResponse} {counter counter' : ℕ} {writes : LegacyRows}
    {locks : LegacyKey → Prop}
    (hmeaning : legacyMeaning dialect (.lockStatus id) s.view counter response writes locks
      counter') : response.rows.isEmpty = true ↔ LegacyRows.goods s.view id = none := by
  obtain ⟨-, -, hrows, -⟩ := hmeaning
  rw [hrows]
  cases LegacyRows.goods s.view id with
  | none => exact iff_of_true rfl rfl
  | some row => exact iff_of_false Bool.false_ne_true (Option.some_ne_none row)

theorem truthful_of_leftTaken (h : LeftTaken dialect rows before between id) :
    MarksTruthfully dialect rows before between id operatorName := by
  rintro answer s₁ ⟨-, ⟨error, rfl, rfl⟩ | ⟨response, _, _, writes, locks, rfl, hmeaning, rfl⟩⟩
  · exact ⟨trivial, nofun⟩
  refine ⟨trivial, ?_⟩
  show Program.wp _ _ _ (ite (response.affectedRows = 1) _ _) _
  split
  · rename_i haffected
    intro outcome houtcome
    obtain rfl := Except.ok.inj houtcome
    exact truthful_taken hmeaning haffected
  · rename_i haffected
    obtain ⟨htaken, rfl⟩ := unchanged hmeaning haffected
    -- now others commit, before the row is locked
    rintro answer s₂ ⟨-, ⟨error, rfl, rfl⟩ | ⟨status, _, _, _, _, rfl, hlocked, rfl⟩⟩
    · exact ⟨trivial, nofun⟩
    refine ⟨trivial, ?_⟩
    show Program.wp _ _ _ (ite (status.rows.isEmpty = true) _ _) _
    split
    · rename_i hempty
      intro outcome houtcome
      obtain rfl := Except.ok.inj houtcome
      exact last_executed.mpr ⟨rfl, (isEmpty_lockStatus hlocked).mp hempty⟩
    · rename_i hfound
      intro outcome houtcome
      obtain rfl := Except.ok.inj houtcome
      have hsome : LegacyRows.goods _ id ≠ none := fun hnone =>
        hfound ((isEmpty_lockStatus hlocked).mpr hnone)
      obtain ⟨row, hrow⟩ := Option.ne_none_iff_exists'.mp hsome
      refine last_executed.mpr ⟨rfl, row, hrow, ?_⟩
      have hseen : ((rows.after before).after between).goods id = some row := hrow
      rw [goods_after] at hseen
      cases hlast : lastCommit id between with
      | some last =>
          rw [hlast] at hseen
          rw [← Option.some.inj hseen]
          exact h htaken last hlast
      | none =>
          rw [hlast] at hseen
          exact htaken row hseen

/-- A run in which the `UPDATE` changes nothing and the `SELECT` finds what was committed last. -/
theorem leftTaken_of_truthful (h : MarksTruthfully dialect rows before between id operatorName) :
    LeftTaken dialect rows before between id := by
  intro htaken row hlast
  -- the transaction holds nothing, so nothing keeps the others from committing
  let s₀ : Contended := { rows := rows, windows := [before, between] }
  let s₁ : Contended := s₀.interrupted.executed
    ⟨.execute (.takeGoods operatorName id), .ok {}⟩ (fun _ => none) (fun _ => False)
  have hupdate : Contended.environment dialect (.execute (.takeGoods operatorName id)) s₀
      (.ok {}) s₁ := by
    refine ⟨?_, Or.inr ⟨{}, 0, 0, _, _, rfl, ⟨rfl, Or.inr ⟨htaken, rfl, rfl, rfl⟩⟩, rfl⟩⟩
    rintro commit - (hlock | ⟨e, he, -⟩)
    · exact hlock
    · cases he
  have hseen : LegacyRows.goods s₁.interrupted.view id = some row := by
    have hview : LegacyRows.goods s₁.interrupted.view id =
        ((rows.after before).after between).goods id := rfl
    rw [hview, goods_after, hlast]
    rfl
  have hselect : ∃ s₂, Contended.environment dialect (.execute (.lockStatus id)) s₁
      (.ok { rows := [[some row.status]] }) s₂ ∧
      ∃ locks, s₂ = s₁.interrupted.executed
        ⟨.execute (.lockStatus id), .ok { rows := [[some row.status]] }⟩ (fun _ => none) locks := by
    refine ⟨_, ⟨?_, Or.inr ⟨_, 0, 0, _, _, rfl, ⟨rfl, rfl, ?_, rfl⟩, rfl⟩⟩, _, rfl⟩
    · rintro commit - (hlock | ⟨e, he, hwrite⟩)
      · rcases hlock with hlock | hlock <;> exact hlock
      · obtain rfl := List.mem_singleton.mp he
        exact hwrite rfl
    · rw [hseen]
      rfl
  obtain ⟨s₂, hstep, locks, rfl⟩ := hselect
  have hverdict := ((h _ _ hupdate).2 _ _ hstep).2 .alreadyTaken rfl
  obtain ⟨-, found, hfound, htaken⟩ := last_executed.mp hverdict
  rw [hseen] at hfound
  rw [Option.some.inj hfound]
  exact htaken

/-- The verdict of `markTaken`.  For every table, every id, and everything that others commit before
each of its statements, what it returns is so exactly if those commits leave no goods in another
status that the `UPDATE` has found taken, or has not found. -/
theorem markTaken_truthful_iff (dialect : Dialect) (rows : LegacyRows)
    (before between : List GoodsCommit) (id : ℤ) (operatorName : Bytes) :
    MarksTruthfully dialect rows before between id operatorName ↔
      LeftTaken dialect rows before between id :=
  ⟨leftTaken_of_truthful, truthful_of_leftTaken⟩

/-- The pallet arrives between the two statements, and is reported as taken. -/
theorem markTaken_arriving : ¬ MarksTruthfully byteDialect (fun _ => none) [] [⟨1, palletRow⟩] 1
    (lit "alice") := by
  intro htruthful
  have hleft := leftTaken_of_truthful htruthful
  have htaken : byteDialect.isTaken palletRow := by
    apply hleft nofun
    rfl
  exact absurd htaken (by decide)

end MarkTaken

end Warehouse.Backend
