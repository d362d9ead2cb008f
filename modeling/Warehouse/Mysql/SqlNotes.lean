/-
# Warehouse.Mysql.SqlNotes — what the code around an executor knows of its transaction

The transaction guard and single statements, proved against the notes of a client alone; what the
notes are worth when many clients are at work is the subject of `RowClients`.
-/
import Warehouse.Interaction.RowClients
import Warehouse.Mysql.LoneSession

namespace Warehouse.Mysql

open Warehouse.Interaction Program

variable {St K R α : Type}

/-- The notes of a client of an executor. -/
abbrev SqlNotes (St : Type) : Type := Notes (ExecutorCall St) ExecutorCall.Answer

/-- Code of a client whose statements meet `T` and which returns upon `Q`. -/
abbrev Noted (meaning : Meaning St K R) (T : SqlHistory St → ExecutorCall St → Prop)
    (Q : α → SqlNotes St → Prop) (p : SqlProgram St α) (n : SqlNotes St) : Prop :=
  p.wp (noting meaning.server) (Demands meaning.server T) Q n

variable {meaning : Meaning St K R} {T : SqlHistory St → ExecutorCall St → Prop} {n : SqlNotes St}

/-- A statement of the client, sent upon what its transaction has executed. -/
theorem noted_execute {statement : St} {executed : SqlHistory St} {Q : SqlResult → SqlNotes St → Prop}
    (hopened : n.opened = some executed) (hallowed : T executed (.execute statement))
    (hfailed : ∀ e, Q (.error e) { n with opened := none })
    (hok : ∀ response, Q (.ok response)
      { n with opened := some (executed ++ [⟨.execute statement, .ok response⟩]) }) :
    Noted meaning T Q (execute statement) n := by
  intro answer n' hn'
  refine ⟨fun _ => ⟨executed, hopened, hallowed⟩, ?_⟩
  rw [show n' = n.note meaning.server (.execute statement) answer from hn']
  cases answer with
  | error e => exact hfailed e
  | ok response =>
      have hnoted : n.note meaning.server (.execute statement) (.ok response) =
          { n with opened := some (executed ++ [⟨.execute statement, .ok response⟩]) } := by
        show ({ n with opened := n.opened.map (· ++ [_]) } : SqlNotes St) = _
        rw [hopened]
        rfl
      rw [hnoted]
      exact hok response

/-- A transaction that has started has executed nothing. -/
theorem noted_begin (mode : WorkUnitMode) :
    Noted meaning T (fun begun n' => n'.settled = n.settled ∧
      ∀ t, begun = .ok t → t = Transaction.opened ∧ n'.opened = some [])
      (Transaction.begin mode) n := by
  intro isolated n₁ hn₁
  obtain rfl : n₁ = n := hn₁
  refine ⟨nofun, ?_⟩
  cases isolated with
  | error e =>
      intro _ n₂ hn₂
      obtain rfl : n₂ = n₁ := hn₂
      exact ⟨nofun, rfl, nofun⟩
  | ok response =>
      intro started n₂ hn₂
      refine ⟨nofun, ?_⟩
      rw [show n₂ = n₁.note meaning.server (.control (.start mode)) started from hn₂]
      cases started with
      | error e =>
          intro _ n₃ hn₃
          rw [show n₃ = (n₁.note meaning.server (.control (.start mode)) (.error e)).note
            meaning.server .poison () from hn₃]
          exact ⟨nofun, rfl, nofun⟩
      | ok response =>
          refine ⟨rfl, ?_⟩
          intro t ht
          exact ⟨(Except.ok.inj ht).symm, rfl⟩

/-- After a rollback nothing is open, and nothing new is settled. -/
theorem noted_rollback :
    Noted meaning T (fun t n' => t.active = false ∧ n' = { n with opened := none })
      Transaction.opened.rollback n := by
  intro answer n₁ hn₁
  refine ⟨nofun, ?_⟩
  obtain rfl : n₁ = { n with opened := none } := hn₁
  cases answer with
  | error e =>
      intro _ n₂ hn₂
      obtain rfl : n₂ = { n with opened := none } := hn₂
      exact ⟨nofun, rfl, rfl⟩
  | ok response => exact ⟨rfl, rfl⟩

/-- A commit that is answered settles what the transaction has executed. -/
theorem noted_commit {executed : SqlHistory St} (hopened : n.opened = some executed) :
    Noted meaning T (fun ended n' => ended.2.active = false ∧ n'.opened = none ∧
      match ended.1 with
      | .error _ => n'.settled = n.settled
      | .ok () => n'.settled = n.settled ++ executed)
      Transaction.opened.commit n := by
  intro answer n₁ hn₁
  refine ⟨nofun, ?_⟩
  rw [show n₁ = n.note meaning.server (.control .commit) answer from hn₁]
  cases answer with
  | error e =>
      intro _ n₂ hn₂
      rw [show n₂ = (n.note meaning.server (.control .commit) (.error e)).note meaning.server
        .poison () from hn₂]
      exact ⟨nofun, rfl, rfl, rfl⟩
  | ok response =>
      refine ⟨rfl, rfl, ?_⟩
      show n.settled ++ n.opened.getD [] = n.settled ++ executed
      rw [hopened]
      rfl

end Warehouse.Mysql
