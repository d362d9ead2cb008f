/-
# Warehouse.Interaction.Handler — one layer of calls implemented by another

Code written against an interface becomes code against what the interface is built on: a handler
answers each call of the upper layer by a program of the lower one, and keeps a state from call to
call.  `interpret` puts the handler's programs in the place of the calls.

This module names nothing of the warehouse.
-/
import Warehouse.Interaction.History

namespace Warehouse.Interaction

/-- Answers each call by a program, over a state that it hands on. -/
abbrev Handler (Op : Type) (Ans : Op → Type) (Op' : Type) (Ans' : Op' → Type) (σ : Type) : Type :=
  (op : Op) → σ → Program Op' Ans' (Ans op × σ)

namespace Program

variable {Op Op' : Type} {Ans : Op → Type} {Ans' : Op' → Type} {σ α β : Type}

/-- `p` with every call replaced by the handler's program. -/
def interpret (handle : Handler Op Ans Op' Ans' σ) : Program Op Ans α → σ → Program Op' Ans' (α × σ)
  | .ret a, s => .ret (a, s)
  | .call op next, s => handle op s >>= fun answered => (next answered.1).interpret handle answered.2

variable {handle : Handler Op Ans Op' Ans' σ}

@[simp] theorem interpret_ret (a : α) (s : σ) :
    (.ret a : Program Op Ans α).interpret handle s = .ret (a, s) := rfl

@[simp] theorem interpret_call (op : Op) (next : Ans op → Program Op Ans α) (s : σ) :
    (Program.call op next).interpret handle s =
      handle op s >>= fun answered => (next answered.1).interpret handle answered.2 := rfl

theorem interpret_bind (p : Program Op Ans α) (f : α → Program Op Ans β) (s : σ) :
    (p >>= f).interpret handle s =
      p.interpret handle s >>= fun answered => (f answered.1).interpret handle answered.2 := by
  induction p generalizing s with
  | ret a => rfl
  | call op next ih =>
      rw [call_bind, interpret_call, interpret_call, bind_assoc]
      congr 1
      funext answered
      exact ih answered.1 answered.2

/-- What the handler calls for the calls of a program. -/
theorem emits_interpret {P : Op → Prop} {P' : Op' → Prop} {p : Program Op Ans α} (hp : p.Emits P)
    (hhandle : ∀ op s, P op → (handle op s).Emits P') (s : σ) : (p.interpret handle s).Emits P' := by
  induction p generalizing s with
  | ret a => trivial
  | call op next ih =>
      rw [interpret_call]
      exact emits_bind (hhandle op s hp.1) fun answered => ih _ (hp.2 _) _

/-- What the state keeps in every call of a program. -/
theorem returns_interpret {P : Op → Prop} {I : σ → Prop} {p : Program Op Ans α} (hp : p.Emits P)
    (hhandle : ∀ op s, P op → I s → (handle op s).Returns fun answered => I answered.2) {s : σ}
    (hs : I s) : (p.interpret handle s).Returns fun result => I result.2 := by
  induction p generalizing s with
  | ret a => exact hs
  | call op next ih =>
      rw [interpret_call]
      exact returns_bind (hhandle op s hp.1 hs) fun answered hanswered => ih _ (hp.2 _) hanswered

/-- A handler that carries a relation between the two layers through every call that the upper one
may make carries it through a program. -/
theorem wp_interpret {ρ τ : Type} {E G : Environment Op Ans ρ} {E' G' : Environment Op' Ans' τ}
    {Q : α → ρ → Prop} {R : ρ → σ → τ → Prop}
    (hhandle : ∀ op r s t, R r s t → (∀ a r', E op r a r' → G op r a r') →
      wp E' G' (fun answered t' => ∃ r', E op r answered.1 r' ∧ R r' answered.2 t') (handle op s) t)
    {p : Program Op Ans α} {r : ρ} {s : σ} {t : τ} (hp : wp E G Q p r) (hR : R r s t) :
    wp E' G' (fun result t' => ∃ r', Q result.1 r' ∧ R r' result.2 t') (p.interpret handle s) t := by
  induction p generalizing r s t with
  | ret a => exact ⟨r, hp, hR⟩
  | call op next ih =>
      rw [interpret_call, wp_bind]
      refine wp_post (hhandle op r s t hR fun a r' henv => (hp a r' henv).1) ?_
      rintro ⟨a, s'⟩ t' ⟨r', henv, hR'⟩
      exact ih a (hp a r' henv).2 hR'

end Program

end Warehouse.Interaction
