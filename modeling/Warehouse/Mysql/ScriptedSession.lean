/-
# Warehouse.Mysql.ScriptedSession — a lone session with its outcomes given beforehand

The environment of `LoneSession` leaves open what becomes of each statement.  Here a script says it:
the `n`-th statement is answered, or refused, or costs the session its transaction, or is a `COMMIT`
that is performed without the answer getting through.  So the outcomes are an input, and a theorem
can say for which of them the code does the right thing.
-/
import Warehouse.Mysql.LoneSession

namespace Warehouse.Mysql

open Warehouse.Interaction

/-- What becomes of a statement. -/
inductive StatementOutcome
  | answered
  | refused (error : SqlError)
  | aborted (error : SqlError)
  /-- Performed if it is a `COMMIT`; the answer is lost. -/
  | unanswered (error : SqlError)

variable {St K R α : Type}

/-- The answer of a call that is refused. -/
def ExecutorCall.refusal (error : SqlError) : (call : ExecutorCall St) → call.Answer
  | .control _ => .error error
  | .execute _ => .error error
  | .poison => ()

theorem performed_refusal {call : ExecutorCall St} (hcall : call ≠ .poison) (error : SqlError) :
    call.performed (call.refusal error) = false := by
  cases call with
  | poison => exact absurd rfl hcall
  | control statement => rfl
  | execute statement => rfl

/-- The session, after so many statements. -/
structure Scripted (St K R : Type) extends LoneSession St K R where
  sent : ℕ := 0

namespace LoneSession

/-- What a call does to the store, by its outcome. -/
def follows (meaning : Meaning St K R) (outcome : StatementOutcome) (call : ExecutorCall St)
    (store : SqlStore St K R) (answer : call.Answer) (store' : SqlStore St K R) : Prop :=
  match outcome with
  | .answered => call.performed answer = true ∧
      ((call.txRole = .outside ∧ store' = store) ∨ store.Serves meaning.server 0 call answer store')
  | .refused e => answer = call.refusal e ∧ store' = store
  | .aborted e => answer = call.refusal e ∧ store' = store.abort 0
  | .unanswered e => answer = call.refusal e ∧
      store' = if call.txRole = .commits then store.commit 0 else store

/-- How calls are answered by the script. -/
def scripted (meaning : Meaning St K R) (script : ℕ → StatementOutcome) :
    Environment (ExecutorCall St) ExecutorCall.Answer (Scripted St K R)
  | .poison, before, _, after => after = { before with poisoned := true }
  | .control statement, before, answer, after =>
      after.sent = before.sent + 1 ∧ after.poisoned = before.poisoned ∧
        follows meaning (script before.sent) (.control statement) before.store answer after.store
  | .execute statement, before, answer, after =>
      after.sent = before.sent + 1 ∧ after.poisoned = before.poisoned ∧
        follows meaning (script before.sent) (.execute statement) before.store answer after.store

variable {meaning : Meaning St K R} {script : ℕ → StatementOutcome} {before after : Scripted St K R}

/-- Nothing happens by the script that could not happen without it. -/
theorem follows_answers {outcome : StatementOutcome} {call : ExecutorCall St} {answer : call.Answer}
    {s s' : LoneSession St K R} (hcall : call ≠ .poison) (hpoisoned : s'.poisoned = s.poisoned)
    (h : follows meaning outcome call s.store answer s'.store) :
    answers meaning call s answer s' := by
  have hrefused := performed_refusal hcall
  constructor
  · rw [hpoisoned]
    cases call with
    | poison => exact absurd rfl hcall
    | control statement => simp
    | execute statement => simp
  cases outcome with
  | answered =>
      obtain ⟨hperformed, hstore⟩ := h
      rw [if_pos hperformed]
      exact hstore
  | refused e =>
      obtain ⟨rfl, hstore⟩ := h
      simp only [hrefused]
      exact Or.inl hstore
  | aborted e =>
      obtain ⟨rfl, hstore⟩ := h
      simp only [hrefused]
      exact Or.inr (Or.inl hstore)
  | unanswered e =>
      obtain ⟨rfl, hstore⟩ := h
      simp only [hrefused]
      split at hstore
      · rename_i hrole
        exact Or.inr (Or.inr ⟨hrole, hstore⟩)
      · exact Or.inl hstore

theorem scripted_control {statement : TxControl} {answer : SqlResult}
    (h : scripted meaning script (.control statement) before answer after) :
    after.sent = before.sent + 1 ∧
      answers meaning (.control statement) before.toLoneSession answer after.toLoneSession :=
  ⟨h.1, follows_answers nofun h.2.1 h.2.2⟩

theorem scripted_execute {statement : St} {answer : SqlResult}
    (h : scripted meaning script (.execute statement) before answer after) :
    after.sent = before.sent + 1 ∧
      answers meaning (.execute statement) before.toLoneSession answer after.toLoneSession :=
  ⟨h.1, follows_answers nofun h.2.1 h.2.2⟩

/-- A success is in the script. -/
theorem follows_ok {outcome : StatementOutcome} {call : ExecutorCall St} {answer : call.Answer}
    {store store' : SqlStore St K R} (hcall : call ≠ .poison)
    (h : follows meaning outcome call store answer store') :
    call.performed answer = true ↔ outcome = .answered := by
  have hrefused := performed_refusal hcall
  cases outcome with
  | answered => simp [h.1]
  | refused e => simp [h.1, hrefused]
  | aborted e => simp [h.1, hrefused]
  | unanswered e => simp [h.1, hrefused]

/-- A scripted session is a lone session. -/
theorem scripted_answers {call : ExecutorCall St} {answer : call.Answer}
    (h : scripted meaning script call before answer after) :
    answers meaning call before.toLoneSession answer after.toLoneSession := by
  cases call with
  | control statement => exact (scripted_control h).2
  | execute statement => exact (scripted_execute h).2
  | poison =>
      obtain rfl : after = { before with poisoned := true } := h
      exact ⟨by simp, Or.inl ⟨rfl, rfl⟩⟩

/-- A success of the lone session, if it is in the script. -/
theorem scripted_of_answers {call : ExecutorCall St} {answer : call.Answer}
    {s' : LoneSession St K R} (h : answers meaning call before.toLoneSession answer s')
    (hcall : call ≠ .poison) (hscript : script before.sent = .answered)
    (hperformed : call.performed answer = true) :
    scripted meaning script call before answer { s' with sent := before.sent + 1 } := by
  have hpoisoned : s'.poisoned = before.poisoned := answers_clean h hcall
  have hstore := h.2
  rw [if_pos hperformed] at hstore
  have hfollows : follows meaning (script before.sent) call before.store answer s'.store := by
    rw [hscript]
    exact ⟨hperformed, hstore⟩
  cases call with
  | poison => exact absurd rfl hcall
  | control statement => exact ⟨rfl, hpoisoned, hfollows⟩
  | execute statement => exact ⟨rfl, hpoisoned, hfollows⟩

/-! ## The transaction guard, by the script -/

/-- Code under a script. -/
abbrev Follows (meaning : Meaning St K R) (script : ℕ → StatementOutcome)
    (Q : α → Scripted St K R → Prop) (p : SqlProgram St α) (before : Scripted St K R) : Prop :=
  p.wp (scripted meaning script) (fun _ _ _ _ => True) Q before

theorem follows_poison {Q : α → Scripted St K R → Prop} {next : SqlProgram St α}
    (h : Follows meaning script Q next { before with poisoned := true }) :
    Follows meaning script Q (poison >>= fun _ => next) before := by
  intro _ after hafter
  obtain rfl : after = { before with poisoned := true } := hafter
  exact ⟨trivial, h⟩

/-- What is known of a control statement: where the script is, and whether it succeeded. -/
theorem control_outcome {statement : TxControl} {answer : SqlResult}
    (h : scripted meaning script (.control statement) before answer after) :
    after.sent = before.sent + 1 ∧ (answer.isOk = true ↔ script before.sent = .answered) ∧
      answers meaning (.control statement) before.toLoneSession answer after.toLoneSession :=
  ⟨h.1, @follows_ok _ _ _ _ _ (.control statement) answer _ _ nofun h.2.2, (scripted_control h).2⟩

/-- The first two statements of a transaction. -/
theorem follows_begin (mode : WorkUnitMode) (hidle : before.Idle) :
    Follows meaning script (fun begun after => after.store.rows = before.store.rows ∧
      match begun with
      | .error _ => ¬ (script before.sent = .answered ∧ script (before.sent + 1) = .answered)
      | .ok t => t = Transaction.opened ∧ after.sent = before.sent + 2 ∧
          script before.sent = .answered ∧ script (before.sent + 1) = .answered ∧
          after.active = true ∧ after.view = before.store.rows) (Transaction.begin mode) before := by
  intro isolated after₁ h₁
  refine ⟨trivial, ?_⟩
  obtain ⟨hcount₁, hok₁, hanswers₁⟩ := control_outcome h₁
  cases isolated with
  | error e =>
      have hrows : after₁.store.rows = before.store.rows := refused_rows hanswers₁ rfl nofun
      apply follows_poison
      refine ⟨hrows, ?_⟩
      intro hscript
      exact absurd (hok₁.mpr hscript.1) (by simp [Except.isOk, Except.toBool])
  | ok response =>
      have hstore₁ : after₁.store = before.store := answers_isolated hanswers₁
      intro started after₂ h₂
      refine ⟨trivial, ?_⟩
      obtain ⟨hcount₂, hok₂, hanswers₂⟩ := control_outcome h₂
      rw [hcount₁] at hok₂
      cases started with
      | error e =>
          have hrows : after₂.store.rows = after₁.store.rows := refused_rows hanswers₂ rfl nofun
          apply follows_poison
          refine ⟨?_, ?_⟩
          · show after₂.store.rows = _
            rw [hrows, hstore₁]
          · intro hscript
            exact absurd (hok₂.mpr hscript.2) (by simp [Except.isOk, Except.toBool])
      | ok response =>
          have hstore₂ : after₂.store = before.store.activate 0 := by
            rw [answers_started hanswers₂, hstore₁]
          refine ⟨?_, rfl, by omega, hok₁.mp rfl, hok₂.mp rfl, ?_, ?_⟩
          · rw [hstore₂]
            exact RowStore.activate_rows hidle.2
          · unfold active
            rw [hstore₂]
            exact RowStore.activate_active
          · unfold view
            rw [hstore₂]
            exact RowStore.activate_view hidle.2

/-- A statement of the client. -/
theorem follows_execute {statement : St} (hactive : before.active = true) :
    Follows meaning script (fun answer after => after.sent = before.sent + 1 ∧
      after.store.rows = before.store.rows ∧
      match answer with
      | .error _ => script before.sent ≠ .answered
      | .ok response => script before.sent = .answered ∧ after.active = true ∧
          ∃ writes locks counter,
            meaning statement before.view before.store.counter response writes locks counter ∧
            after.view = fun k => (writes k).or (before.view k)) (execute statement) before := by
  intro answer after h
  refine ⟨trivial, ?_⟩
  obtain ⟨hcount, hanswers⟩ := scripted_execute h
  have hok : answer.isOk = true ↔ script before.sent = .answered :=
    @follows_ok _ _ _ _ _ (.execute statement) answer _ _ nofun h.2.2
  cases answer with
  | error e =>
      refine ⟨hcount, refused_rows hanswers rfl nofun, ?_⟩
      intro hscript
      exact absurd (hok.mpr hscript) (by simp [Except.isOk, Except.toBool])
  | ok response =>
      obtain ⟨writes, locks, counter, hmeaning, hrows, hopen, hview⟩ :=
        answers_executed hactive hanswers
      exact ⟨hcount, hrows, hok.mp rfl, hopen, writes, locks, counter, hmeaning, hview⟩

/-- A rollback commits nothing, whatever the script says. -/
theorem follows_rollback :
    Follows meaning script (fun t after => t.active = false ∧
      after.store.rows = before.store.rows) Transaction.opened.rollback before := by
  have hanswers : ∀ call (before : Scripted St K R) answer after,
      scripted meaning script call before answer after →
        answers meaning call before.toLoneSession answer after.toLoneSession :=
    fun _ _ _ _ h => scripted_answers h
  have hrolled := Program.wp_project Scripted.toLoneSession
    (@wp_rollback _ _ _ meaning before.toLoneSession) hanswers
  exact Program.wp_post hrolled fun t after hended => ⟨hended.1, hended.2.1⟩

/-- The commit: what is seen becomes committed if it is answered, and also if only the answer is
lost. -/
theorem follows_commit :
    Follows meaning script (fun ended after => ended.2.active = false ∧
      match ended.1 with
      | .ok () => script before.sent = .answered ∧ after.store.rows = before.view
      | .error _ => ((∃ e, script before.sent = .unanswered e) ∧ after.store.rows = before.view) ∨
          ((¬ ∃ e, script before.sent = .unanswered e) ∧
            after.store.rows = before.store.rows)) Transaction.opened.commit before := by
  intro answer after h
  refine ⟨trivial, ?_⟩
  obtain ⟨hcount, hok, hanswers⟩ := control_outcome h
  cases answer with
  | ok response =>
      refine ⟨rfl, hok.mp rfl, ?_⟩
      rw [answers_committed hanswers]
      rfl
  | error e =>
      apply follows_poison
      refine ⟨rfl, ?_⟩
      obtain ⟨-, -, hfollows⟩ := h
      show _ ∧ after.store.rows = _ ∨ _ ∧ after.store.rows = _
      cases hscript : script before.sent with
      | answered => exact absurd (hok.mpr hscript) (by simp [Except.isOk, Except.toBool])
      | refused e =>
          rw [hscript] at hfollows
          right
          exact ⟨nofun, by rw [hfollows.2]⟩
      | aborted e =>
          rw [hscript] at hfollows
          right
          exact ⟨nofun, by rw [hfollows.2]; rfl⟩
      | unanswered e =>
          rw [hscript] at hfollows
          left
          refine ⟨⟨e, rfl⟩, ?_⟩
          rw [hfollows.2]
          rfl

end LoneSession

end Warehouse.Mysql
