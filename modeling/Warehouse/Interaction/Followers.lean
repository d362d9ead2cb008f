/-
# Warehouse.Interaction.Followers — what can be known of a client by following its calls

What is left of a program after some of its calls; how far a client is that has one transaction; and
both together with its notes, as one environment in which a program is proved once.

This module names nothing of the warehouse.
-/
import Warehouse.Interaction.RowClients

namespace Warehouse.Interaction

/-! ## What is left of a program -/

namespace Program

variable {Op : Type} {Ans : Op → Type} {α : Type} {p q : Program Op Ans α}

/-- `q` may be left of a program after some of its calls. -/
inductive Rest : Program Op Ans α → Program Op Ans α → Prop
  | refl (p : Program Op Ans α) : Rest p p
  | call {p : Program Op Ans α} {op : Op} {next : Ans op → Program Op Ans α} (answer : Ans op) :
      Rest p (.call op next) → Rest p (next answer)

theorem Rest.trans {r : Program Op Ans α} (h : Rest p q) (h' : Rest q r) : Rest p r := by
  induction h' with
  | refl => exact h
  | call answer _ ih => exact .call answer ih

/-- What is left of a program is the program, or is left after its first call. -/
theorem Rest.eq_or {op : Op} {next : Ans op → Program Op Ans α} (h : Rest (.call op next) q) :
    q = .call op next ∨ ∃ answer, Rest (next answer) q := by
  induction h with
  | refl => exact Or.inl rfl
  | call answer _ ih =>
      right
      rcases ih with hsame | ⟨first, hfirst⟩
      · obtain ⟨rfl, hnext⟩ := Program.call.inj hsame
        obtain rfl := eq_of_heq hnext
        exact ⟨answer, .refl _⟩
      · exact ⟨first, .call answer hfirst⟩

theorem Rest.of_ret {a : α} (h : Rest (.ret a) q) : q = .ret a := by
  induction h with
  | refl => rfl
  | call _ _ ih => cases ih

/-- After a call less is left than there was. -/
theorem Rest.next_ne {op : Op} {next : Ans op → Program Op Ans α} {answer : Ans op}
    (h : Rest p (.call op next)) : next answer ≠ p := by
  induction p generalizing op next answer with
  | ret a => cases h.of_ret
  | call op₀ next₀ ih =>
      intro hback
      rcases h.eq_or with hsame | ⟨first, hfirst⟩
      · obtain ⟨rfl, hnext⟩ := Program.call.inj hsame
        obtain rfl := eq_of_heq hnext
        have hwhole : Rest (next answer) (.call op next) := by
          rw [hback]
          exact .refl _
        exact ih answer hwhole rfl
      · have hwhole : Rest (next₀ first) (.call op₀ next₀) := by
          rw [← hback]
          exact .call answer hfirst
        exact ih first hwhole rfl

theorem Rest.antisymm (h : Rest p q) (h' : Rest q p) : p = q := by
  cases h with
  | refl => rfl
  | call answer h => exact absurd rfl (Rest.next_ne (h'.trans h))

/-- What holds of a program in an environment that follows more, holds in one that follows less. -/
theorem wp_forget {σ τ : Type} (π : τ → σ) {E G : Environment Op Ans σ} {F H : Environment Op Ans τ}
    {Q : α → σ → Prop} {R : α → τ → Prop} {t : τ} (h : p.wp F H R t)
    (hlift : ∀ op t answer s, E op (π t) answer s →
      ∃ t', F op t answer t' ∧ π t' = s ∧ (H op t answer t' → G op (π t) answer s))
    (hQ : ∀ a t, R a t → Q a (π t)) : p.wp E G Q (π t) := by
  induction p generalizing t with
  | ret a => exact hQ a t h
  | call op next ih =>
      intro answer s hstep
      obtain ⟨t', hfollowed, rfl, hguar⟩ := hlift op t answer s hstep
      obtain ⟨hkept, hrest⟩ := h answer t' hfollowed
      exact ⟨hguar hkept, ih answer hrest⟩

end Program

/-! ## Clients with one transaction -/

section Stages

variable {Op : Type} {Ans : Op → Type} {K R α : Type} (srv : RowServer Op Ans K R)

/-- How far a client is: before its transaction, in it, after its commit was sent, or after it was
given up. -/
inductive Stage
  | fresh | opened | submitted | over
  deriving DecidableEq

/-- What a client may send at that stage. -/
def Stage.allows : Stage → TxRole → Prop
  | _, .outside => True
  | stage, .begins => stage = .fresh
  | stage, _ => stage = .opened

/-- The stage after a call, however it was answered. -/
def Stage.after : Stage → TxRole → Stage
  | stage, .outside => stage
  | _, .begins => .opened
  | _, .works => .opened
  | _, .commits => .submitted
  | _, .aborts => .over

/-- The environment that answers anything, and follows the stages. -/
def staging : Environment Op Ans Stage := fun op stage _ stage' =>
  stage' = stage.after (srv.role op)

/-- A call is made at its stage. -/
def InOrder : Environment Op Ans Stage := fun op stage _ _ => stage.allows (srv.role op)

/-- A program from a stage on: one transaction, nothing after it, and a result that fits the stage. -/
def Staged (R : α → Stage → Prop) (stage : Stage) (p : Program Op Ans α) : Prop :=
  p.wp (staging srv) (InOrder srv) R stage

variable {srv} {R : α → Stage → Prop} {stage : Stage} {op : Op} {next : Ans op → Program Op Ans α}

theorem Staged.call (h : Staged srv R stage (.call op next)) (answer : Ans op) :
    stage.allows (srv.role op) ∧ Staged srv R (stage.after (srv.role op)) (next answer) :=
  h answer _ rfl

theorem Stage.eq_fresh (h : stage.allows .begins) : stage = .fresh := h

theorem Stage.ne_submitted {role : TxRole} (h : stage.allows role) (hrole : role ≠ .outside) :
    stage ≠ .submitted := by
  rintro rfl
  cases role <;> simp_all [allows]

theorem Stage.after_ne_fresh {role : TxRole} (hrole : role ≠ .outside) :
    stage.after role ≠ .fresh := by
  cases role <;> simp_all [after]

end Stages

/-! ## Followers -/

section Followers

variable {Op : Type} {Ans : Op → Type} {K R α : Type}

/-- What is known of a client: its notes, its stage, and what its transaction is known to have
executed, also when that is over. -/
structure Follower (Op : Type) (Ans : Op → Type) where
  notes : Notes Op Ans := {}
  stage : Stage := .fresh
  heard : History Op Ans := []

variable (srv : RowServer Op Ans K R)

/-- What is known after an answer. -/
def Follower.follow (w : Follower Op Ans) (op : Op) (answer : Ans op) : Follower Op Ans where
  notes := w.notes.note srv op answer
  stage := w.stage.after (srv.role op)
  heard := (w.notes.note srv op answer).opened.getD w.heard

/-- The environment that answers anything, and is followed. -/
def following : Environment Op Ans (Follower Op Ans) := fun op w answer w' =>
  w' = w.follow srv op answer

/-- A call is made at its stage, and a statement upon what `T` allows. -/
def Proper (T : History Op Ans → Op → Prop) : Environment Op Ans (Follower Op Ans) :=
  fun op w _ _ => w.stage.allows (srv.role op) ∧
    (srv.role op = .works → ∃ executed, w.notes.opened = some executed ∧ T executed op)

variable {srv} {T : History Op Ans → Op → Prop} {Q : α → Follower Op Ans → Prop}
  {p : Program Op Ans α} {w : Follower Op Ans}

theorem demands_of_proper (h : p.wp (following srv) (Proper srv T) Q w) :
    p.wp (noting srv) (Demands srv T) (fun _ _ => True) w.notes := by
  apply p.wp_forget Follower.notes h
  · rintro op w answer n rfl
    exact ⟨w.follow srv op answer, rfl, rfl, fun hproper => hproper.2⟩
  · exact fun _ _ _ => trivial

/-- What may be returned at a stage. -/
def Fits (Q : α → Follower Op Ans → Prop) (a : α) (stage : Stage) : Prop :=
  ∃ w, Follower.stage w = stage ∧ Q a w

theorem staged_of_proper (h : p.wp (following srv) (Proper srv T) Q w) :
    Staged srv (Fits Q) w.stage p := by
  apply p.wp_forget Follower.stage h
  · rintro op w answer stage rfl
    exact ⟨w.follow srv op answer, rfl, rfl, fun hproper => hproper.1⟩
  · exact fun a w hw => ⟨w, rfl, hw⟩

end Followers

end Warehouse.Interaction
