/-
# Warehouse.Interaction.Fairness — what fair runs come to

A system whose steps belong to actors, or to their surroundings (a clock, the kernel, a user).  An
execution never ends: a system that has nothing left to do lets its surroundings do nothing.  It is
fair if no actor that stays able to move is passed over for ever; of the surroundings nothing is
asked.

`Progress` is the rule for what happens eventually.  As long as the goal is not reached some actor
is helpful: it can move, and its step lowers a rank.  Every other step lowers the rank too, or
leaves both the rank and the helpful actor as they are.  An actor that executes a program call by
call lowers the program's `height`.

This module names nothing of the warehouse.
-/
import Mathlib.Data.Nat.Find
import Mathlib.Data.Nat.Init
import Warehouse.Interaction.Program

namespace Warehouse.Interaction

variable {A σ : Type}

/-- The actor `a` can move. -/
def Enabled (step : Option A → σ → σ → Prop) (a : A) (s : σ) : Prop := ∃ s', step (some a) s s'

/-- A run that never ends, and who takes each of its steps. -/
structure Execution (step : Option A → σ → σ → Prop) where
  state : ℕ → σ
  actor : ℕ → Option A
  steps : ∀ n, step (actor n) (state n) (state (n + 1))

namespace Execution

variable {step : Option A → σ → σ → Prop} (e : Execution step)

/-- Again and again every actor moves, or cannot. -/
def Fair : Prop := ∀ a k, ∃ m, k ≤ m ∧ (e.actor m = some a ∨ ¬ Enabled step a (e.state m))

/-- An invariant that holds at one moment holds from there on. -/
theorem invariant {I : σ → Prop} (hstep : ∀ a s s', I s → step a s s' → I s') {k : ℕ}
    (hk : I (e.state k)) {m : ℕ} (hm : k ≤ m) : I (e.state m) := by
  induction m, hm using Nat.le_induction with
  | base => exact hk
  | succ m _ ih => exact hstep (e.actor m) _ _ ih (e.steps m)

/-! ## Executions that come to rest -/

/-- The given steps, and then nothing any more. -/
def resting (first : σ) : List (Option A × σ) → (n : ℕ) → σ
  | [], _ => first
  | _ :: _, 0 => first
  | (_, next) :: rest, n + 1 => resting next rest n

/-- The steps one after the other. -/
def Chained (step : Option A → σ → σ → Prop) : σ → List (Option A × σ) → Prop
  | last, [] => step none last last ∧ ∀ a, ¬ Enabled step a last
  | s, (a, s') :: rest => step a s s' ∧ Chained step s' rest

variable {first : σ} {moves : List (Option A × σ)}

theorem Chained.cons {a : Option A} {s s' : σ} (h : step a s s') (hrest : Chained step s' moves) :
    Chained step s ((a, s') :: moves) := ⟨h, hrest⟩

@[simp] theorem resting_zero (first : σ) (moves : List (Option A × σ)) :
    resting first moves 0 = first := by
  cases moves <;> rfl

theorem resting_steps (h : Chained step first moves) (n : ℕ) :
    step ((moves[n]?).bind Prod.fst) (resting first moves n) (resting first moves (n + 1)) := by
  induction moves generalizing first n with
  | nil => exact h.1
  | cons move rest ih =>
      cases n with
      | zero =>
          show step move.1 first (resting move.2 rest 0)
          rw [resting_zero]
          exact h.1
      | succ n => exact ih h.2 n

theorem resting_quiet (h : Chained step first moves) (a : A) {n : ℕ} (hn : moves.length ≤ n) :
    ¬ Enabled step a (resting first moves n) := by
  induction moves generalizing first n with
  | nil => exact h.2 a
  | cons move rest ih =>
      obtain ⟨m, rfl⟩ : ∃ m, n = m + 1 := ⟨n - 1, by rw [List.length_cons] at hn; omega⟩
      exact ih h.2 (Nat.le_of_succ_le_succ hn)

/-- The execution that makes the given steps and comes to rest. -/
def ofMoves (first : σ) (moves : List (Option A × σ)) (h : Chained step first moves) :
    Execution step where
  state := resting first moves
  actor n := (moves[n]?).bind Prod.fst
  steps := resting_steps h

/-- Where nobody can move any more nobody is passed over. -/
theorem ofMoves_fair (h : Chained step first moves) : (ofMoves first moves h).Fair := by
  intro a k
  exact ⟨k + moves.length, by omega, Or.inr (resting_quiet h a (by omega))⟩

/-- What can be reached can be reached on the way to where such an execution rests. -/
theorem exists_chained {mid : σ} (h : Relation.ReflTransGen (fun s s' => ∃ a, step a s s') first mid)
    (hmoves : Chained step mid moves) : ∃ earlier, Chained step first (earlier ++ moves) ∧
      ∀ n, resting first (earlier ++ moves) (earlier.length + n) = resting mid moves n := by
  induction h using Relation.ReflTransGen.head_induction_on with
  | refl => exact ⟨[], hmoves, fun n => by rw [List.length_nil, Nat.zero_add]; rfl⟩
  | @head s s' hstep _ ih =>
      obtain ⟨a, hstep⟩ := hstep
      obtain ⟨earlier, hchained, hsame⟩ := ih
      refine ⟨(a, s') :: earlier, .cons hstep hchained, fun n => ?_⟩
      rw [List.length_cons, Nat.succ_add_eq_add_succ]
      exact hsame n

/-- A fair execution through two states that can be reached, up to one at which nobody can move. -/
theorem exists_fair {mid later last : σ}
    (h : Relation.ReflTransGen (fun s s' => ∃ a, step a s s') first mid)
    (hlater : Relation.ReflTransGen (fun s s' => ∃ a, step a s s') mid later)
    (hlast : Relation.ReflTransGen (fun s s' => ∃ a, step a s s') later last)
    (hrest : step none last last) (hquiet : ∀ a, ¬ Enabled step a last) :
    ∃ (e : Execution step) (k m : ℕ), e.state 0 = first ∧ e.Fair ∧ e.state k = mid ∧ k ≤ m ∧
      e.state m = later := by
  obtain ⟨third, hchained, -⟩ :=
    exists_chained hlast (show Chained step last [] from ⟨hrest, hquiet⟩)
  obtain ⟨second, hchained, hsecond⟩ := exists_chained hlater hchained
  obtain ⟨earlier, hchained, hearlier⟩ := exists_chained h hchained
  refine ⟨ofMoves first _ hchained, earlier.length, earlier.length + second.length,
    resting_zero .., ofMoves_fair hchained, ?_, Nat.le_add_right .., ?_⟩
  · exact (hearlier 0).trans (resting_zero ..)
  · exact (hearlier second.length).trans ((hsecond 0).trans (resting_zero ..))

end Execution

/-! ## Progress -/

/-- What leads from a region to a goal: as long as the goal is not reached the helpful actor can
move and lowers the rank, and nobody undoes that. -/
structure Progress (step : Option A → σ → σ → Prop) (region goal : σ → Prop) where
  rank : σ → ℕ
  helpful : σ → A
  keeps : ∀ a s s', region s → ¬ goal s → step a s s' → goal s' ∨ region s'
  enabled : ∀ s, region s → ¬ goal s → Enabled step (helpful s) s
  helps : ∀ s s', region s → ¬ goal s → step (some (helpful s)) s s' → goal s' ∨ rank s' < rank s
  harmless : ∀ a s s', region s → ¬ goal s → step a s s' →
    goal s' ∨ rank s' < rank s ∨ rank s' = rank s ∧ helpful s' = helpful s

namespace Progress

variable {step : Option A → σ → σ → Prop} {region goal : σ → Prop}

/-- Until the goal is reached the region is not left. -/
theorem stays (p : Progress step region goal) (e : Execution step) {k : ℕ}
    (hk : region (e.state k)) (hlate : ∀ m, k ≤ m → ¬ goal (e.state m)) {m : ℕ} (hm : k ≤ m) :
    region (e.state m) := by
  induction m, hm using Nat.le_induction with
  | base => exact hk
  | succ m hm ih =>
      exact (p.keeps _ _ _ ih (hlate m hm) (e.steps m)).resolve_left (hlate _ (by omega))

/-- Until the goal is reached or the rank is lower, nothing that matters changes. -/
theorem persists (p : Progress step region goal) (e : Execution step) {k : ℕ}
    (hk : region (e.state k)) (hlate : ∀ m, k ≤ m → ¬ goal (e.state m))
    (hhigh : ∀ m, k ≤ m → ¬ p.rank (e.state m) < p.rank (e.state k)) {m : ℕ} (hm : k ≤ m) :
    p.rank (e.state m) = p.rank (e.state k) ∧ p.helpful (e.state m) = p.helpful (e.state k) := by
  induction m, hm using Nat.le_induction with
  | base => exact ⟨rfl, rfl⟩
  | succ m hm ih =>
      obtain ⟨hrank, hhelpful⟩ := ih
      have hnext : k ≤ m + 1 := by omega
      have hregion := p.stays e hk hlate hm
      rcases p.harmless _ _ _ hregion (hlate m hm) (e.steps m) with hgoal | hlower | ⟨heq, hsame⟩
      · exact absurd hgoal (hlate _ hnext)
      · exact absurd (hrank ▸ hlower) (hhigh _ hnext)
      · exact ⟨heq.trans hrank, hsame.trans hhelpful⟩

/-- In a fair run the rank sinks, unless the goal comes first. -/
theorem lowers (p : Progress step region goal) {e : Execution step} (hfair : e.Fair) {k : ℕ}
    (hk : region (e.state k)) (hlate : ∀ m, k ≤ m → ¬ goal (e.state m)) :
    ∃ m, k ≤ m ∧ p.rank (e.state m) < p.rank (e.state k) := by
  by_contra hnone
  have hhigh : ∀ m, k ≤ m → ¬ p.rank (e.state m) < p.rank (e.state k) :=
    fun m hm hlower => hnone ⟨m, hm, hlower⟩
  obtain ⟨m, hm, hturn⟩ := hfair (p.helpful (e.state k)) k
  obtain ⟨hrank, hhelpful⟩ := p.persists e hk hlate hhigh hm
  have hregion := p.stays e hk hlate hm
  have henabled := p.enabled _ hregion (hlate m hm)
  rw [hhelpful] at henabled
  -- the turn of the helpful actor comes while it can still move
  have hactor : e.actor m = some (p.helpful (e.state m)) := by
    rw [hhelpful]
    exact hturn.resolve_right fun hdisabled => hdisabled henabled
  have hstep := e.steps m
  rw [hactor] at hstep
  rcases p.helps _ _ hregion (hlate m hm) hstep with hgoal | hlower
  · exact hlate _ (by omega) hgoal
  · exact hhigh (m + 1) (by omega) (hrank ▸ hlower)

/-- In a fair run that is in the region, the goal comes. -/
theorem eventually (p : Progress step region goal) {e : Execution step} (hfair : e.Fair) {k : ℕ}
    (hk : region (e.state k)) : ∃ m, k ≤ m ∧ goal (e.state m) := by
  obtain ⟨n, hn⟩ : ∃ n, n = p.rank (e.state k) := ⟨_, rfl⟩
  induction n using Nat.strong_induction_on generalizing k with
  | _ n ih =>
      by_contra hnone
      have hlate : ∀ m, k ≤ m → ¬ goal (e.state m) := fun m hm hgoal => hnone ⟨m, hm, hgoal⟩
      obtain ⟨m, hm, hlower⟩ := p.lowers hfair hk hlate
      obtain ⟨m', hm', hgoal⟩ := ih _ (by omega) (p.stays e hk hlate hm) rfl
      exact hlate m' (by omega) hgoal

end Progress

/-! ## Programs as a measure -/

namespace Program

variable {Op : Type} {Ans : Op → Type} {α β : Type}

/-- Whatever is answered, at most `n` calls are made. -/
def Within : Program Op Ans α → ℕ → Prop
  | .ret _, _ => True
  | .call _ next, n => ∃ m, n = m + 1 ∧ ∀ answer, (next answer).Within m

theorem Within.mono {p : Program Op Ans α} {n m : ℕ} (h : p.Within n) (hle : n ≤ m) :
    p.Within m := by
  induction p generalizing n m with
  | ret a => trivial
  | call op next ih =>
      obtain ⟨k, rfl, hnext⟩ := h
      exact ⟨m - 1, by omega, fun answer => ih answer (hnext answer) (by omega)⟩

theorem within_bind {p : Program Op Ans α} {f : α → Program Op Ans β} {n m : ℕ} (hp : p.Within n)
    (hf : ∀ a, (f a).Within m) : (p >>= f).Within (n + m) := by
  induction p generalizing n with
  | ret a => exact (hf a).mono (by omega)
  | call op next ih =>
      obtain ⟨k, rfl, hnext⟩ := hp
      exact ⟨k + m, by omega, fun answer => ih answer (hnext answer)⟩

open Classical in
/-- How many calls a program makes at most; nothing is said of programs without a bound. -/
noncomputable def height (p : Program Op Ans α) : ℕ :=
  if h : ∃ n, p.Within n then Nat.find h else 0

theorem height_le {p : Program Op Ans α} {n : ℕ} (h : p.Within n) : p.height ≤ n := by
  classical
  have hsome : ∃ n, p.Within n := ⟨n, h⟩
  unfold height
  rw [dif_pos hsome]
  exact Nat.find_le h

/-- Every answer leaves less to do. -/
theorem height_next {op : Op} {next : Ans op → Program Op Ans α} {n : ℕ}
    (h : (Program.call op next).Within n) (answer : Ans op) :
    (next answer).height < (Program.call op next).height := by
  classical
  have hsome : ∃ n, (Program.call op next).Within n := ⟨n, h⟩
  have hleast : (Program.call op next).height = Nat.find hsome := by
    unfold height
    rw [dif_pos hsome]
  obtain ⟨m, hm, hnext⟩ := Nat.find_spec hsome
  have hle := height_le (hnext answer)
  omega

end Program

end Warehouse.Interaction
