/-
# Warehouse.Interaction.Program — sequential programs that call on an environment

A `Program` is the finite tree of a piece of sequential code: at every node it makes one call and
branches on the answer, at a leaf it returns.  What a call means is not part of the tree.  An
`Environment` says which answers a call may get in a given state and which states it may leave
behind, so one program can be read against a database, against an adversary that answers anything,
or against a ghost state that only the proof knows about.

The program logic is a weakest precondition with two postconditions: `Q` for the value returned and
a *guarantee* `G` that every single call made on the way has to meet.  The guarantee is what
carries crash and interference arguments: a property of the state after every call is a property of
every state in which the program may be stopped.

This module names nothing of the warehouse; the rules below are the ones its proofs use.
-/
import Mathlib.Logic.Relation
import Mathlib.Tactic.Common

namespace Warehouse.Interaction

/-- Sequential code that calls operations `op : Op`, is answered by an `Ans op`, and returns an `α`. -/
inductive Program (Op : Type) (Ans : Op → Type) (α : Type) : Type
  | ret (a : α) : Program Op Ans α
  | call (op : Op) (next : Ans op → Program Op Ans α) : Program Op Ans α

/-- `E op s a s'`: called in `s`, the operation `op` may answer `a` and leave `s'`. -/
abbrev Environment (Op : Type) (Ans : Op → Type) (σ : Type) : Type :=
  (op : Op) → σ → Ans op → σ → Prop

namespace Program

variable {Op : Type} {Ans : Op → Type} {σ α β γ ε ι : Type}

/-! ## The monad of programs -/

/-- Run `p`, then the program chosen by its result. -/
def bind : Program Op Ans α → (α → Program Op Ans β) → Program Op Ans β
  | .ret a, f => f a
  | .call op next, f => .call op fun a => (next a).bind f

instance : Monad (Program Op Ans) where
  pure := .ret
  bind := Program.bind

/-- The program that makes one call and returns its answer. -/
def perform (op : Op) : Program Op Ans (Ans op) := .call op .ret

@[simp] theorem pure_eq (a : α) : (pure a : Program Op Ans α) = .ret a := rfl

@[simp] theorem ret_bind (a : α) (f : α → Program Op Ans β) : (.ret a >>= f) = f a := rfl

@[simp] theorem call_bind (op : Op) (next : Ans op → Program Op Ans α)
    (f : α → Program Op Ans β) : (.call op next >>= f) = .call op fun a => next a >>= f := rfl

@[simp] theorem perform_bind (op : Op) (f : Ans op → Program Op Ans β) :
    (perform op >>= f) = .call op f := rfl

theorem bind_ret (p : Program Op Ans α) : (p >>= .ret) = p := by
  induction p with
  | ret a => rfl
  | call op next ih => simp only [call_bind, ih]

theorem bind_assoc (p : Program Op Ans α) (f : α → Program Op Ans β)
    (g : β → Program Op Ans γ) : (p >>= f >>= g) = p >>= fun a => f a >>= g := by
  induction p with
  | ret a => rfl
  | call op next ih => simp only [call_bind, ih]

instance : LawfulMonad (Program Op Ans) :=
  LawfulMonad.mk' (Program Op Ans) bind_ret ret_bind bind_assoc

/-! ## Weakest preconditions with a guarantee on every call -/

/-- From `s`, every call that `p` makes under `E` meets `G`, and whatever `p` returns meets `Q`. -/
def wp (E G : Environment Op Ans σ) (Q : α → σ → Prop) : Program Op Ans α → σ → Prop
  | .ret a, s => Q a s
  | .call op next, s => ∀ a s', E op s a s' → G op s a s' ∧ wp E G Q (next a) s'

variable {E E' G G' : Environment Op Ans σ} {Q R : α → σ → Prop}

@[simp] theorem wp_ret (a : α) (s : σ) : wp E G Q (.ret a) s ↔ Q a s := Iff.rfl

@[simp] theorem wp_call (op : Op) (next : Ans op → Program Op Ans α) (s : σ) :
    wp E G Q (.call op next) s ↔ ∀ a s', E op s a s' → G op s a s' ∧ wp E G Q (next a) s' :=
  Iff.rfl

@[simp] theorem wp_perform (op : Op) (Q : Ans op → σ → Prop) (s : σ) :
    wp E G Q (perform op) s ↔ ∀ a s', E op s a s' → G op s a s' ∧ Q a s' := Iff.rfl

/-- A stronger precondition environment, a weaker guarantee and a weaker postcondition. -/
theorem wp_mono {p : Program Op Ans α} {s : σ} (h : wp E G Q p s)
    (hE : ∀ op s a s', E' op s a s' → E op s a s')
    (hG : ∀ op s a s', E' op s a s' → G op s a s' → G' op s a s')
    (hQ : ∀ a s, Q a s → R a s) : wp E' G' R p s := by
  induction p generalizing s with
  | ret a => exact hQ a s h
  | call op next ih =>
      intro a s' hstep
      obtain ⟨hguar, hrest⟩ := h a s' (hE op s a s' hstep)
      exact ⟨hG op s a s' hstep hguar, ih a hrest⟩

theorem wp_post {p : Program Op Ans α} {s : σ} (h : wp E G Q p s) (hQ : ∀ a s, Q a s → R a s) :
    wp E G R p s :=
  wp_mono h (fun _ _ _ _ hstep => hstep) (fun _ _ _ _ _ hguar => hguar) hQ

/-- An environment that only sees part of the state. -/
theorem wp_project {τ : Type} (π : τ → σ) {F : Environment Op Ans τ} {p : Program Op Ans α} {t : τ}
    (h : wp E G Q p (π t)) (hE : ∀ op t a t', F op t a t' → E op (π t) a (π t')) :
    wp F (fun op t a t' => G op (π t) a (π t')) (fun a t => Q a (π t)) p t := by
  induction p generalizing t with
  | ret a => exact h
  | call op next ih =>
      intro a t' hstep
      obtain ⟨hguar, hrest⟩ := h a (π t') (hE op t a t' hstep)
      exact ⟨hguar, ih a hrest⟩

@[simp] theorem wp_bind {R : β → σ → Prop} (p : Program Op Ans α) (f : α → Program Op Ans β)
    (s : σ) : wp E G R (p >>= f) s ↔ wp E G (fun a s => wp E G R (f a) s) p s := by
  induction p generalizing s with
  | ret a => exact Iff.rfl
  | call op next ih => simp only [call_bind, wp_call, ih]

/-! ## Programs that may leave early -/

/-- `wp` for code with an early exit: `Q` if it falls through, `X` if it leaves. -/
def wpx (E G : Environment Op Ans σ) (Q : α → σ → Prop) (X : ε → σ → Prop)
    (p : ExceptT ε (Program Op Ans) α) (s : σ) : Prop :=
  wp E G (fun r s => match r with | .ok a => Q a s | .error e => X e s) p.run s

variable {X Y : ε → σ → Prop}

@[simp] theorem wpx_pure (a : α) (s : σ) :
    wpx E G Q X (pure a : ExceptT ε (Program Op Ans) α) s ↔ Q a s := Iff.rfl

@[simp] theorem wpx_throw (e : ε) (s : σ) :
    wpx E G Q X (throw e : ExceptT ε (Program Op Ans) α) s ↔ X e s := Iff.rfl

@[simp] theorem wpx_lift (p : Program Op Ans α) (s : σ) :
    wpx E G Q X (liftM p : ExceptT ε (Program Op Ans) α) s ↔ wp E G Q p s := by
  change wp E G _ (Except.ok <$> p) s ↔ _
  rw [map_eq_pure_bind, wp_bind]
  rfl

@[simp] theorem wpx_bind {R : β → σ → Prop} (p : ExceptT ε (Program Op Ans) α)
    (f : α → ExceptT ε (Program Op Ans) β) (s : σ) :
    wpx E G R X (p >>= f) s ↔ wpx E G (fun a s => wpx E G R X (f a) s) X p s := by
  unfold wpx
  rw [ExceptT.run_bind, wp_bind]
  constructor
  · intro h
    refine wp_post h ?_
    rintro (e | a) s hs <;> exact hs
  · intro h
    refine wp_post h ?_
    rintro (e | a) s hs <;> exact hs

theorem wpx_post {p : ExceptT ε (Program Op Ans) α} {s : σ} (h : wpx E G Q X p s)
    (hQ : ∀ a s, Q a s → R a s) (hX : ∀ e s, X e s → Y e s) : wpx E G R Y p s := by
  refine wp_post h ?_
  rintro (e | a) s hs
  · exact hX e s hs
  · exact hQ a s hs

/-- The loop rule.  `I done b` is what holds after the elements `done` have been handled with
accumulator `b`; the body has to carry it over one more element or leave through `X`. -/
theorem wpx_foldlM {xs : List ι} {f : β → ι → ExceptT ε (Program Op Ans) β}
    (I : List ι → β → σ → Prop)
    (hbody : ∀ done x rest b s, xs = done ++ x :: rest → I done b s →
      wpx E G (fun b s => I (done ++ [x]) b s) X (f b x) s)
    {b : β} {s : σ} (h : I [] b s) : wpx E G (fun b s => I xs b s) X (xs.foldlM f b) s := by
  suffices hgen : ∀ rest done b s, xs = done ++ rest → I done b s →
      wpx E G (fun b s => I xs b s) X (rest.foldlM f b) s from hgen xs [] b s rfl h
  intro rest
  induction rest with
  | nil =>
      intro done b s hxs hI
      rw [List.append_nil] at hxs
      subst hxs
      exact hI
  | cons x rest ih =>
      intro done b s hxs hI
      rw [List.foldlM_cons, wpx_bind]
      refine wpx_post (hbody done x rest b s hxs hI) ?_ (fun _ _ hX => hX)
      intro b' s' hI'
      exact ih (done ++ [x]) b' s' (by simp [hxs]) hI'

/-- The same for code that does not leave early, with an invariant of the accumulator alone. -/
theorem wp_foldlM {xs : List ι} {f : β → ι → Program Op Ans β} {I : β → σ → Prop}
    (hbody : ∀ b x s, I b s → wp E G I (f b x) s) {b : β} {s : σ} (h : I b s) :
    wp E G I (xs.foldlM f b) s := by
  induction xs generalizing b s with
  | nil => exact h
  | cons x xs ih =>
      rw [List.foldlM_cons, wp_bind]
      exact wp_post (hbody b x s h) fun b' s' hI => ih hI

/-! ## Small steps: a program may be stopped after any call -/

/-- One call of the program, answered by the environment. -/
inductive Step (E : Environment Op Ans σ) : Program Op Ans α × σ → Program Op Ans α × σ → Prop
  | call {op : Op} {next : Ans op → Program Op Ans α} {s s' : σ} {a : Ans op} :
      E op s a s' → Step E (.call op next, s) (next a, s')

/-- What is left of a program after some of its calls still meets the precondition it started
with; in particular a leaf that is reached meets `Q`. -/
theorem wp_of_steps {c c' : Program Op Ans α × σ} (h : wp E G Q c.1 c.2)
    (hsteps : Relation.ReflTransGen (Step E) c c') : wp E G Q c'.1 c'.2 := by
  induction hsteps with
  | refl => exact h
  | tail _ hlast ih =>
      cases hlast with
      | call henv => exact (ih _ _ henv).2

/-! ## What a program may call at all -/

/-- Every call that `p` can make, whatever it is answered, satisfies `P`. -/
def Emits (P : Op → Prop) : Program Op Ans α → Prop
  | .ret _ => True
  | .call op next => P op ∧ ∀ a, (next a).Emits P

variable {P : Op → Prop}

@[simp] theorem emits_ret (a : α) : (.ret a : Program Op Ans α).Emits P ↔ True := Iff.rfl

@[simp] theorem emits_call (op : Op) (next : Ans op → Program Op Ans α) :
    (Program.call op next).Emits P ↔ P op ∧ ∀ a, (next a).Emits P := Iff.rfl

theorem emits_bind {p : Program Op Ans α} {f : α → Program Op Ans β} (hp : p.Emits P)
    (hf : ∀ a, (f a).Emits P) : (p >>= f).Emits P := by
  induction p with
  | ret a => exact hf a
  | call op next ih => exact ⟨hp.1, fun a => ih a (hp.2 a)⟩

/-- The same for code with an early exit. -/
theorem emits_run_bind {p : ExceptT ε (Program Op Ans) α} {f : α → ExceptT ε (Program Op Ans) β}
    (hp : p.run.Emits P) (hf : ∀ a, (f a).run.Emits P) : (p >>= f).run.Emits P := by
  rw [ExceptT.run_bind]
  refine emits_bind hp ?_
  rintro (e | a)
  · trivial
  · exact hf a

theorem emits_run_lift {p : Program Op Ans α} (hp : p.Emits P) :
    (liftM p : ExceptT ε (Program Op Ans) α).run.Emits P := by
  change (Except.ok <$> p).Emits P
  rw [map_eq_pure_bind]
  exact emits_bind hp fun _ => trivial

theorem Emits.mono {R : Op → Prop} {p : Program Op Ans α} (h : p.Emits P) (hPR : ∀ op, P op → R op) :
    p.Emits R := by
  induction p with
  | ret a => trivial
  | call op next ih => exact ⟨hPR op h.1, fun a => ih a (h.2 a)⟩

theorem emits_run_foldlM {xs : List ι} {f : β → ι → ExceptT ε (Program Op Ans) β}
    (hf : ∀ b, ∀ x ∈ xs, (f b x).run.Emits P) (b : β) : (xs.foldlM f b).run.Emits P := by
  induction xs generalizing b with
  | nil => trivial
  | cons x xs ih =>
      rw [List.foldlM_cons]
      refine emits_run_bind (hf b x List.mem_cons_self) fun b' => ih ?_ b'
      exact fun b y hy => hf b y (List.mem_cons_of_mem x hy)

/-- The frame rule: what the operations of `p` keep, `p` keeps. -/
theorem wp_frame {I : σ → Prop} {p : Program Op Ans α} {s : σ} (h : wp E G Q p s)
    (hemits : p.Emits P) (hstep : ∀ op s a s', P op → I s → E op s a s' → I s') (hI : I s) :
    wp E G (fun a s => I s ∧ Q a s) p s := by
  induction p generalizing s with
  | ret a => exact ⟨hI, h⟩
  | call op next ih =>
      intro a s' henv
      obtain ⟨hguar, hrest⟩ := h a s' henv
      exact ⟨hguar, ih a hrest (hemits.2 a) (hstep op s a s' hemits.1 hI henv)⟩

/-- The simulation rule: while `I` holds, what the operations of `p` may do under `E'` they may do
under `E`, and `I` holds afterwards. -/
theorem wp_simulated {I : σ → Prop} {p : Program Op Ans α} {s : σ} (h : wp E G Q p s)
    (hemits : p.Emits P)
    (hstep : ∀ op s a s', P op → I s → E' op s a s' → E op s a s' ∧ I s') (hI : I s) :
    wp E' G (fun a s => I s ∧ Q a s) p s := by
  induction p generalizing s with
  | ret a => exact ⟨hI, h⟩
  | call op next ih =>
      intro a s' henv
      obtain ⟨hsame, hI'⟩ := hstep op s a s' hemits.1 hI henv
      obtain ⟨hguar, hrest⟩ := h a s' hsame
      exact ⟨hguar, ih a hrest (hemits.2 a) hI'⟩

/-- What a program calls at all is guaranteed of its calls. -/
theorem wp_emits {p : Program Op Ans α} {s : σ} (h : wp E G Q p s) (hemits : p.Emits P) :
    wp E (fun op s a s' => P op ∧ G op s a s') Q p s := by
  induction p generalizing s with
  | ret a => exact h
  | call op next ih =>
      intro a s' henv
      obtain ⟨hguar, hrest⟩ := h a s' henv
      exact ⟨⟨hemits.1, hguar⟩, ih a hrest (hemits.2 a)⟩

/-- Nothing is asked of a program that may return anything. -/
theorem wp_trivial (E : Environment Op Ans σ) (p : Program Op Ans α) (s : σ) :
    wp E (fun _ _ _ _ => True) (fun _ _ => True) p s := by
  induction p generalizing s with
  | ret a => trivial
  | call op next ih => exact fun a s' _ => ⟨trivial, ih a s'⟩

/-- Every value that `p` can return, whatever it is answered, satisfies `P`. -/
def Returns (P : α → Prop) : Program Op Ans α → Prop
  | .ret a => P a
  | .call _ next => ∀ a, (next a).Returns P

theorem Returns.mono {P R : α → Prop} {p : Program Op Ans α} (h : p.Returns P)
    (hPR : ∀ a, P a → R a) : p.Returns R := by
  induction p with
  | ret a => exact hPR a h
  | call op next ih => exact fun a => ih a (h a)

theorem returns_bind {P : α → Prop} {R : β → Prop} {p : Program Op Ans α}
    {f : α → Program Op Ans β} (hp : p.Returns P) (hf : ∀ a, P a → (f a).Returns R) :
    (p >>= f).Returns R := by
  induction p with
  | ret a => exact hf a hp
  | call op next ih => exact fun a => ih a (hp a)

theorem wp_returns {P : α → Prop} {p : Program Op Ans α} {s : σ} (h : wp E G Q p s)
    (hP : p.Returns P) : wp E G (fun a s => P a ∧ Q a s) p s := by
  induction p generalizing s with
  | ret a => exact ⟨hP, h⟩
  | call op next ih =>
      intro a s' hstep
      obtain ⟨hguar, hrest⟩ := h a s' hstep
      exact ⟨hguar, ih a hrest (hP a)⟩

theorem wp_of_returns {P : α → Prop} {p : Program Op Ans α} {s : σ} (h : p.Returns P) :
    wp E (fun _ _ _ _ => True) (fun a _ => P a) p s :=
  wp_post (wp_returns (wp_trivial E p s) h) fun _ _ hboth => hboth.1

theorem returns_trivial (p : Program Op Ans α) : p.Returns fun _ => True := by
  induction p with
  | ret a => trivial
  | call op next ih => exact ih

/-! ## Runs that a willing environment makes possible -/

/-- From `s`, some answers of `E` lead `p` to a value and a state that meet `Q`. -/
def may (E : Environment Op Ans σ) (Q : α → σ → Prop) : Program Op Ans α → σ → Prop
  | .ret a, s => Q a s
  | .call op next, s => ∃ a s', E op s a s' ∧ may E Q (next a) s'

@[simp] theorem may_ret (a : α) (s : σ) : may E Q (.ret a) s ↔ Q a s := Iff.rfl

@[simp] theorem may_call (op : Op) (next : Ans op → Program Op Ans α) (s : σ) :
    may E Q (.call op next) s ↔ ∃ a s', E op s a s' ∧ may E Q (next a) s' := Iff.rfl

theorem may_post {p : Program Op Ans α} {s : σ} (h : may E Q p s) (hQ : ∀ a s, Q a s → R a s) :
    may E R p s := by
  induction p generalizing s with
  | ret a => exact hQ a s h
  | call op next ih =>
      obtain ⟨a, s', hstep, hrest⟩ := h
      exact ⟨a, s', hstep, ih a hrest⟩

theorem may_mono {p : Program Op Ans α} {s : σ} (h : may E Q p s)
    (hE : ∀ op s a s', E op s a s' → E' op s a s') : may E' Q p s := by
  induction p generalizing s with
  | ret a => exact h
  | call op next ih =>
      obtain ⟨a, s', hstep, hrest⟩ := h
      exact ⟨a, s', hE op s a s' hstep, ih a hrest⟩

theorem may_bind {R : β → σ → Prop} (p : Program Op Ans α) (f : α → Program Op Ans β) (s : σ) :
    may E R (p >>= f) s ↔ may E (fun a s => may E R (f a) s) p s := by
  induction p generalizing s with
  | ret a => exact Iff.rfl
  | call op next ih => simp only [call_bind, may_call, ih]

/-- Such a run of code with an early exit that falls through. -/
def mayx (E : Environment Op Ans σ) (Q : α → σ → Prop) (p : ExceptT ε (Program Op Ans) α)
    (s : σ) : Prop :=
  may E (fun r s => ∃ a, r = .ok a ∧ Q a s) p.run s

theorem mayx_pure {a : α} {s : σ} (h : Q a s) :
    mayx E Q (pure a : ExceptT ε (Program Op Ans) α) s := ⟨a, rfl, h⟩

theorem mayx_lift {p : Program Op Ans α} {s : σ} (h : may E Q p s) :
    mayx E Q (liftM p : ExceptT ε (Program Op Ans) α) s := by
  change may E _ (Except.ok <$> p) s
  rw [map_eq_pure_bind, may_bind]
  exact may_post h fun a _ hQ => ⟨a, rfl, hQ⟩

theorem mayx_bind {R : β → σ → Prop} {p : ExceptT ε (Program Op Ans) α}
    {f : α → ExceptT ε (Program Op Ans) β} {s : σ}
    (h : mayx E (fun a s => mayx E R (f a) s) p s) : mayx E R (p >>= f) s := by
  unfold mayx
  rw [ExceptT.run_bind, may_bind]
  refine may_post h ?_
  rintro _ s' ⟨a, rfl, ha⟩
  exact ha

theorem mayx_post {p : ExceptT ε (Program Op Ans) α} {s : σ} (h : mayx E Q p s)
    (hQ : ∀ a s, Q a s → R a s) : mayx E R p s := by
  refine may_post h ?_
  rintro _ s' ⟨a, rfl, ha⟩
  exact ⟨a, rfl, hQ a s' ha⟩

/-- The loop rule for such runs. -/
theorem mayx_foldlM {xs : List ι} {f : β → ι → ExceptT ε (Program Op Ans) β}
    (I : List ι → β → σ → Prop)
    (hbody : ∀ done x rest b s, xs = done ++ x :: rest → I done b s →
      mayx E (fun b s => I (done ++ [x]) b s) (f b x) s)
    {b : β} {s : σ} (h : I [] b s) : mayx E (fun b s => I xs b s) (xs.foldlM f b) s := by
  suffices hgen : ∀ rest done b s, xs = done ++ rest → I done b s →
      mayx E (fun b s => I xs b s) (rest.foldlM f b) s from hgen xs [] b s rfl h
  intro rest
  induction rest with
  | nil =>
      intro done b s hxs hI
      rw [List.append_nil] at hxs
      subst hxs
      exact mayx_pure hI
  | cons x rest ih =>
      intro done b s hxs hI
      rw [List.foldlM_cons]
      refine mayx_bind (mayx_post (hbody done x rest b s hxs hI) ?_)
      intro b' s' hI'
      exact ih (done ++ [x]) b' s' (by simp [hxs]) hI'

/-- A possible run, step by step. -/
theorem steps_of_may {p : Program Op Ans α} {s : σ} (h : may E Q p s) :
    ∃ a s', Relation.ReflTransGen (Step E) (p, s) (.ret a, s') ∧ Q a s' := by
  induction p generalizing s with
  | ret a => exact ⟨a, s, .refl, h⟩
  | call op next ih =>
      obtain ⟨answer, s', hstep, hrest⟩ := h
      obtain ⟨a, s'', hsteps, hQ⟩ := ih answer hrest
      exact ⟨a, s'', .head (.call hstep) hsteps, hQ⟩

end Program

end Warehouse.Interaction
