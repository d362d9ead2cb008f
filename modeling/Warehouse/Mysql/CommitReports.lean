/-
# Warehouse.Mysql.CommitReports — what `commit()` reports over a whole history of calls

A `Transaction` remembers one bit, `active_`, which an acknowledged COMMIT, a COMMIT whose outcome
is unknown and a rollback clear alike, and `commit()` reports success wherever it finds the bit
clear.  `Calls` is any sequence of commit and rollback calls on one object against an arbitrary
executor.  The report of a later commit is right exactly where the first call, the only one that
finds the transaction active, got its COMMIT acknowledged.
-/
import Warehouse.Interaction.History
import Warehouse.Mysql.Transaction

namespace Warehouse.Mysql

open Warehouse.Interaction

/-! ## Sequences of calls -/

/-- A call on a transaction: what it sent, and what a commit reported. -/
inductive GuardCall (St : Type)
  | commit (events : SqlHistory St) (report : Except WorkUnitFailure Unit)
  | rollback (events : SqlHistory St)

namespace GuardCall

variable {St : Type}

/-- What the call sent, and how that was answered. -/
def events : GuardCall St → SqlHistory St
  | .commit events _ => events
  | .rollback events => events

/-- The call is a `commit()`. -/
def IsCommit : GuardCall St → Prop
  | .commit .. => True
  | .rollback _ => False

/-- The call is a `commit()` that reported success. -/
def Succeeded : GuardCall St → Prop
  | .commit _ report => report = .ok ()
  | .rollback _ => False

/-- The call sent COMMIT, and the server acknowledged it. -/
def Acknowledged (call : GuardCall St) : Prop :=
  ∃ response, ⟨.control .commit, .ok response⟩ ∈ call.events

end GuardCall

namespace Transaction

variable {St : Type} {t t' : Transaction} {calls : List (GuardCall St)}

/-- The calls made on the object `t`, oldest first, and the object they leave behind. -/
inductive Calls : Transaction → List (GuardCall St) → Transaction → Prop
  | nil (t : Transaction) : Calls t [] t
  | commit {t t' t'' : Transaction} {events : SqlHistory St} {report : Except WorkUnitFailure Unit}
      {calls : List (GuardCall St)} :
      Program.Runs t.commit events (report, t') → Calls t' calls t'' →
      Calls t (.commit events report :: calls) t''
  | rollback {t t' t'' : Transaction} {events : SqlHistory St} {calls : List (GuardCall St)} :
      Program.Runs t.rollback events t' → Calls t' calls t'' →
      Calls t (.rollback events :: calls) t''

/-- Success is only reported once COMMIT was acknowledged, by that call or by an earlier one. -/
def Truthful (calls : List (GuardCall St)) : Prop :=
  ∀ past call future, calls = past ++ call :: future → call.Succeeded →
    ∃ sender ∈ past ++ [call], sender.Acknowledged

/-- No commit comes after the first call, unless that one got its COMMIT acknowledged. -/
def Settled : List (GuardCall St) → Prop
  | [] => True
  | first :: later => first.Acknowledged ∨ ∀ call ∈ later, ¬ call.IsCommit

/-! ## What one call does -/

/-- A successful `begin` hands out an active object. -/
theorem begin_opened {mode : WorkUnitMode} {events : SqlHistory St}
    (h : Program.Runs (begin mode) events (.ok t)) : t = opened := by
  have hreturns : (begin mode : SqlProgram St _).Returns fun r => ∀ u, r = .ok u → u = opened := by
    intro isolated
    cases isolated with
    | error e =>
        intro _ u hu
        cases hu
    | ok response =>
        intro started
        cases started with
        | error e =>
            intro _ u hu
            cases hu
        | ok response =>
            intro u hu
            exact (Except.ok.inj hu).symm
  exact hreturns.of_runs h t rfl

/-- On an object that is not active, a commit sends nothing and reports success. -/
theorem commit_inactive {events : SqlHistory St} {report : Except WorkUnitFailure Unit}
    (hinactive : t.active = false) (h : Program.Runs t.commit events (report, t')) :
    events = [] ∧ report = .ok () ∧ t' = t := by
  have hret : (t.commit : SqlProgram St _) = .ret (.ok (), t) := by
    simp [commit, hinactive]
  rw [hret] at h
  cases h
  exact ⟨rfl, rfl, rfl⟩

theorem rollback_inactive {events : SqlHistory St} (hinactive : t.active = false)
    (h : Program.Runs t.rollback events t') : events = [] ∧ t' = t := by
  have hret : (t.rollback : SqlProgram St _) = .ret t := by
    simp [rollback, hinactive]
  rw [hret] at h
  cases h
  exact ⟨rfl, rfl⟩

/-- The commit that finds the transaction active reports what the server said. -/
theorem commit_opened {events : SqlHistory St} {report : Except WorkUnitFailure Unit}
    (h : Program.Runs opened.commit events (report, t')) :
    t'.active = false ∧ (report = .ok () ↔ (GuardCall.commit events report).Acknowledged) := by
  have htraces : (opened.commit : SqlProgram St _).Traces fun events result =>
      result.2.active = false ∧
        (result.1 = .ok () ↔ (GuardCall.commit events result.1).Acknowledged) := by
    intro answer
    cases answer with
    | ok response =>
        refine ⟨rfl, ?_, fun _ => rfl⟩
        intro _
        exact ⟨response, List.mem_singleton_self _⟩
    | error e =>
        intro _
        exact ⟨rfl, by simp [GuardCall.Acknowledged, GuardCall.events]⟩
  exact htraces.of_runs h

/-- A rollback sends no COMMIT. -/
theorem rollback_opened {events : SqlHistory St} (h : Program.Runs opened.rollback events t') :
    t'.active = false ∧ ¬ (GuardCall.rollback events).Acknowledged := by
  have htraces : (opened.rollback : SqlProgram St _).Traces fun events u =>
      u.active = false ∧ ¬ (GuardCall.rollback events).Acknowledged := by
    intro answer
    cases answer with
    | ok response => exact ⟨rfl, by simp [GuardCall.Acknowledged, GuardCall.events]⟩
    | error e =>
        intro _
        exact ⟨rfl, by simp [GuardCall.Acknowledged, GuardCall.events]⟩
  exact htraces.of_runs h

/-! ## What a sequence of calls does -/

/-- Once the object is inactive it sends nothing any more, and every commit reports success. -/
theorem Calls.inactive (h : Calls t calls t') (hinactive : t.active = false) :
    ∀ call ∈ calls, call.events = [] ∧ (call.IsCommit → call.Succeeded) := by
  induction h with
  | nil t => simp
  | commit hrun _ ih =>
      obtain ⟨rfl, rfl, rfl⟩ := commit_inactive hinactive hrun
      intro call hcall
      rcases List.mem_cons.mp hcall with rfl | hlater
      · exact ⟨rfl, fun _ => rfl⟩
      · exact ih hinactive call hlater
  | rollback hrun _ ih =>
      obtain ⟨rfl, rfl⟩ := rollback_inactive hinactive hrun
      intro call hcall
      rcases List.mem_cons.mp hcall with rfl | hlater
      · exact ⟨rfl, fun hcommit => hcommit.elim⟩
      · exact ih hinactive call hlater

/-- The first call is the only one that finds the transaction active: it is right about itself, the
later ones send nothing. -/
theorem Calls.first {first : GuardCall St} {later : List (GuardCall St)}
    (h : Calls opened (first :: later) t') :
    (first.Succeeded → first.Acknowledged) ∧
      ∀ call ∈ later, ¬ call.Acknowledged ∧ (call.IsCommit → call.Succeeded) := by
  have hquiet : ∀ {u : Transaction}, u.active = false → Calls u later t' →
      ∀ call ∈ later, ¬ call.Acknowledged ∧ (call.IsCommit → call.Succeeded) := by
    intro u hinactive hlater call hcall
    obtain ⟨hevents, hsucceeds⟩ := hlater.inactive hinactive call hcall
    exact ⟨by simp [GuardCall.Acknowledged, hevents], hsucceeds⟩
  cases h with
  | commit hrun hlater =>
      obtain ⟨hinactive, hreport⟩ := commit_opened hrun
      exact ⟨hreport.mp, hquiet hinactive hlater⟩
  | rollback hrun hlater =>
      obtain ⟨hinactive, -⟩ := rollback_opened hrun
      exact ⟨fun hsucceeded => hsucceeded.elim, hquiet hinactive hlater⟩

theorem succeeded_isCommit {call : GuardCall St} (h : call.Succeeded) : call.IsCommit := by
  cases call with
  | commit events report => trivial
  | rollback events => exact h

/-! ## The theorem -/

/-- Commits over whole histories.  Whatever commits and rollbacks are called on a transaction that
was begun, against whatever executor, every commit that reports success does so on an acknowledged
COMMIT if and only if no commit follows the first call, or the first call is a commit that was
acknowledged. -/
theorem commits_truthful_iff {mode : WorkUnitMode} {started : SqlHistory St}
    (hbegin : Program.Runs (begin mode) started (.ok t)) (hcalls : Calls t calls t') :
    Truthful calls ↔ Settled calls := by
  obtain rfl := begin_opened hbegin
  cases calls with
  | nil => exact ⟨fun _ => trivial, fun _ past call future hsplit => by simp at hsplit⟩
  | cons first later =>
      obtain ⟨hfirst, hlater⟩ := hcalls.first
      constructor
      · intro htruthful
        by_cases hcommits : ∀ call ∈ later, ¬ call.IsCommit
        · exact Or.inr hcommits
        -- a later commit reports success, and only the first call can have sent COMMIT
        simp only [not_forall, not_not] at hcommits
        obtain ⟨call, hcall, hcommit⟩ := hcommits
        obtain ⟨past, future, rfl⟩ := List.append_of_mem hcall
        obtain ⟨sender, hsender, hacknowledged⟩ :=
          htruthful (first :: past) call future rfl ((hlater call hcall).2 hcommit)
        rcases List.mem_cons.mp hsender with rfl | hmem
        · exact Or.inl hacknowledged
        · have hmem' : sender ∈ past ++ call :: future := by
            rcases List.mem_append.mp hmem with hpast | hself
            · exact List.mem_append_left _ hpast
            · exact List.mem_append_right _ (List.mem_cons.mpr (Or.inl (List.mem_singleton.mp hself)))
          exact absurd hacknowledged (hlater sender hmem').1
      · intro hsettled past call future hsplit hsucceeded
        cases past with
        | nil =>
            obtain ⟨rfl, -⟩ := List.cons.inj hsplit
            exact ⟨first, List.mem_singleton_self _, hfirst hsucceeded⟩
        | cons head past =>
            obtain ⟨rfl, rfl⟩ := List.cons.inj hsplit
            rcases hsettled with hacknowledged | hcommits
            · exact ⟨first, by simp, hacknowledged⟩
            · exact absurd (succeeded_isCommit hsucceeded) (hcommits call (by simp))

section Examples

/-- The statements of a `begin` for a command, both acknowledged. -/
def begun : SqlHistory Unit :=
  [⟨.control (.setIsolation .command), .ok {}⟩, ⟨.control (.start .command), .ok {}⟩]

theorem runs_begun : Program.Runs (begin .command) begun (.ok opened) := .call (.call (.ret _))

/-- The connection goes down while COMMIT is under way. -/
def lost : SqlError where
  code := .connectionLost
  vendorCode := 2013
  message := lit "Lost connection to MySQL server during query"

/-- An acknowledged commit, and one more. -/
def repeatedCommit : List (GuardCall Unit) :=
  [.commit [⟨.control .commit, .ok {}⟩] (.ok ()), .commit [] (.ok ())]

/-- A commit whose outcome stays unknown, and its retry. -/
def retriedCommit : List (GuardCall Unit) :=
  [.commit [⟨.control .commit, .error lost⟩, ⟨.poison, ()⟩]
    (.error (failure .commitOutcomeUnknown lost)), .commit [] (.ok ())]

/-- A rollback, and a commit after it. -/
def commitAfterRollback : List (GuardCall Unit) :=
  [.rollback [⟨.control .rollback, .ok {}⟩], .commit [] (.ok ())]

theorem commits_truthful_iff_repeated : Truthful repeatedCommit ∧ Settled repeatedCommit := by
  have hcalls : Calls opened repeatedCommit ⟨true, false⟩ :=
    .commit (.call (.ret _)) (.commit (.ret _) (.nil _))
  have hsettled : Settled repeatedCommit := Or.inl ⟨{}, List.mem_singleton_self _⟩
  exact ⟨(commits_truthful_iff runs_begun hcalls).mpr hsettled, hsettled⟩

/-- The retry of a commit with an unknown outcome reports success although no COMMIT was ever
acknowledged, and so does a commit after a rollback. -/
theorem retriedCommit_reportsSuccess :
    Program.Runs (begin .command) begun (.ok opened) ∧
      (Calls opened retriedCommit ⟨true, false⟩ ∧ ¬ Truthful retriedCommit) ∧
      Calls opened commitAfterRollback ⟨true, false⟩ ∧ ¬ Truthful commitAfterRollback := by
  refine ⟨runs_begun, ⟨?_, ?_⟩, ?_, ?_⟩
  · exact .commit (.call (.call (.ret _))) (.commit (.ret _) (.nil _))
  · intro htruthful
    have hsender := htruthful [_] (.commit [] (.ok ())) [] rfl rfl
    simp [GuardCall.Acknowledged, GuardCall.events] at hsender
  · exact .rollback (.call (.ret _)) (.commit (.ret _) (.nil _))
  · intro htruthful
    have hsender := htruthful [_] (.commit [] (.ok ())) [] rfl rfl
    simp [GuardCall.Acknowledged, GuardCall.events] at hsender

end Examples

end Transaction

end Warehouse.Mysql
