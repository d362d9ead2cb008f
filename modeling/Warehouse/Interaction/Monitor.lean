/-
# Warehouse.Interaction.Monitor — programs that keep to a protocol

A monitor watches the calls of a program and their answers.  It is an automaton: each event moves
it on, or breaks the protocol.  `follows` is the weakest precondition of keeping to the protocol,
against every way of answering, and ending where the monitor is in a given state.

This module names nothing of the warehouse.
-/
import Warehouse.Interaction.History

namespace Warehouse.Interaction

/-- Where an event takes the protocol; `none` if the event is not allowed. -/
abbrev Monitor (Op : Type) (Ans : Op → Type) (S : Type) : Type := S → Event Op Ans → Option S

/-- Where a history takes the protocol. -/
def Monitor.after {Op : Type} {Ans : Op → Type} {S : Type} (m : Monitor Op Ans S) :
    S → History Op Ans → Option S
  | s, [] => some s
  | s, event :: events => (m s event).bind fun s' => m.after s' events

namespace Monitor

variable {Op : Type} {Ans : Op → Type} {S : Type} {m : Monitor Op Ans S} {s s' : S}
  {event : Event Op Ans} {events first second : History Op Ans}

@[simp] theorem after_nil : m.after s [] = some s := rfl

@[simp] theorem after_cons :
    m.after s (event :: events) = (m s event).bind fun s' => m.after s' events := rfl

theorem after_append :
    m.after s (first ++ second) = (m.after s first).bind fun s' => m.after s' second := by
  induction first generalizing s with
  | nil => rfl
  | cons event first ih =>
      rw [List.cons_append, after_cons, after_cons, Option.bind_assoc]
      congr 1
      funext s'
      exact ih

/-- A history that is kept to is kept to up to each of its events, and on from there. -/
theorem after_split {past future : History Op Ans}
    (h : m.after s (past ++ event :: future) = some s') :
    ∃ before behind, m.after s past = some before ∧ m before event = some behind ∧
      m.after behind future = some s' := by
  rw [after_append] at h
  obtain ⟨before, hbefore, hrest⟩ := Option.bind_eq_some_iff.mp h
  rw [after_cons] at hrest
  obtain ⟨behind, hbehind, hfuture⟩ := Option.bind_eq_some_iff.mp hrest
  exact ⟨before, behind, hbefore, hbehind, hfuture⟩

end Monitor

namespace Program

variable {Op : Type} {Ans : Op → Type} {S α β ε ι : Type} {m : Monitor Op Ans S} {s s' : S}

/-- From `s`, however it is answered, the program keeps to the protocol and ends in `Q`. -/
def follows (m : Monitor Op Ans S) (Q : α → S → Prop) : Program Op Ans α → S → Prop
  | .ret a, s => Q a s
  | .call op next, s => ∀ answer, ∃ s', m s ⟨op, answer⟩ = some s' ∧ follows m Q (next answer) s'

variable {Q R : α → S → Prop}

theorem follows_mono {p : Program Op Ans α} (h : follows m Q p s) (hQR : ∀ a s, Q a s → R a s) :
    follows m R p s := by
  induction p generalizing s with
  | ret a => exact hQR a s h
  | call op next ih =>
      intro answer
      obtain ⟨s', hs', hnext⟩ := h answer
      exact ⟨s', hs', ih answer hnext⟩

theorem follows_bind {R : β → S → Prop} {p : Program Op Ans α} {f : α → Program Op Ans β}
    (h : follows m (fun a s => follows m R (f a) s) p s) : follows m R (p >>= f) s := by
  induction p generalizing s with
  | ret a => exact h
  | call op next ih =>
      intro answer
      obtain ⟨s', hs', hnext⟩ := h answer
      exact ⟨s', hs', ih answer hnext⟩

theorem follows_returns {P : α → Prop} {p : Program Op Ans α} (hP : p.Returns P)
    (h : follows m Q p s) : follows m (fun a s => P a ∧ Q a s) p s := by
  induction p generalizing s with
  | ret a => exact ⟨hP, h⟩
  | call op next ih =>
      intro answer
      obtain ⟨s', hs', hnext⟩ := h answer
      exact ⟨s', hs', ih answer (hP answer) hnext⟩

/-- A run keeps to the protocol, and ends as promised. -/
theorem follows_runs {p : Program Op Ans α} {events : History Op Ans} {a : α}
    (h : follows m Q p s) (hrun : Runs p events a) : ∃ s', m.after s events = some s' ∧ Q a s' := by
  induction hrun generalizing s with
  | ret a => exact ⟨s, rfl, h⟩
  | @call op next answer events a _ ih =>
      obtain ⟨s', hs', hnext⟩ := h answer
      obtain ⟨s'', hs'', hQ⟩ := ih hnext
      exact ⟨s'', by rw [Monitor.after_cons, hs', Option.bind_some, hs''], hQ⟩

/-- Calls that do not move the monitor. -/
theorem follows_of_emits {P : Op → Prop} {p : Program Op Ans α} (hemits : p.Emits P)
    (hm : ∀ op answer, P op → m s ⟨op, answer⟩ = some s) (hQ : ∀ a, Q a s) : follows m Q p s := by
  induction p with
  | ret a => exact hQ a
  | call op next ih => exact fun answer => ⟨s, hm op answer hemits.1, ih answer (hemits.2 answer)⟩

/-! ### Programs that may leave early -/

/-- `follows` for code with an early exit. -/
def followsx (m : Monitor Op Ans S) (Q : α → S → Prop) (X : ε → S → Prop)
    (p : ExceptT ε (Program Op Ans) α) (s : S) : Prop :=
  follows m (fun r s => match r with | .ok a => Q a s | .error e => X e s) p.run s

variable {X : ε → S → Prop}

theorem followsx_lift {p : Program Op Ans α} (h : follows m Q p s) :
    followsx m Q X (liftM p : ExceptT ε (Program Op Ans) α) s := by
  change follows m _ (Except.ok <$> p) s
  rw [map_eq_pure_bind]
  exact follows_bind h

theorem followsx_bind {R : β → S → Prop} {p : ExceptT ε (Program Op Ans) α}
    {f : α → ExceptT ε (Program Op Ans) β} (h : followsx m (fun a s => followsx m R X (f a) s) X p s) :
    followsx m R X (p >>= f) s := by
  unfold followsx
  rw [ExceptT.run_bind]
  refine follows_bind (follows_mono h ?_)
  rintro (e | a) s hs <;> exact hs

theorem followsx_mono {p : ExceptT ε (Program Op Ans) α} (h : followsx m Q X p s)
    (hQR : ∀ a s, Q a s → R a s) : followsx m R X p s := by
  refine follows_mono h ?_
  rintro (e | a) s hs
  · exact hs
  · exact hQR a s hs

/-- The loop rule: `I` holds before and after every turn. -/
theorem followsx_foldlM {xs : List ι} {f : β → ι → ExceptT ε (Program Op Ans) β} (I : β → S → Prop)
    (hbody : ∀ b x s, I b s → followsx m I X (f b x) s) {b : β} (h : I b s) :
    followsx m I X (xs.foldlM f b) s := by
  induction xs generalizing b s with
  | nil => exact h
  | cons x xs ih =>
      rw [List.foldlM_cons]
      exact followsx_bind (followsx_mono (hbody b x s h) fun b' s' hI => ih hI)

end Program

end Warehouse.Interaction
