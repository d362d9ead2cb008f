/-
# Warehouse.Interaction.Enumeration — loops over what comes in no particular order

Code that reads a directory, a hash table or a set of peers gets its elements in an order that is
not its own.  `collect` is such a loop: it may skip an element, keep something of it, or fail, and
what it has kept is sorted afterwards.  Two enumerations of one collection then have the
`SameOutcome`: both fail, or both succeed with related values.  Sorting by a key removes what is
left of the order as soon as no key is repeated.

This module names nothing of the warehouse; the rules below are the ones its proofs use.
-/
import Mathlib.Data.List.Nodup

namespace Warehouse.Interaction

/-! ## Outcomes -/

section SameOutcome

variable {ε α β γ δ : Type}

/-- Both computations fail, or both return, with values that are related. -/
inductive SameOutcome (R : α → β → Prop) : Except ε α → Except ε β → Prop
  | failed (e e' : ε) : SameOutcome R (.error e) (.error e')
  | returned {a : α} {b : β} : R a b → SameOutcome R (.ok a) (.ok b)

variable {R : α → β → Prop} {S : γ → δ → Prop} {p : Except ε α} {q : Except ε β}

/-- A sequence of computations returns if each of them does. -/
theorem ok_of_bind {f : α → Except ε γ} {c : γ} (h : p >>= f = .ok c) :
    ∃ a, p = .ok a ∧ f a = .ok c := by
  cases p with
  | error e => cases h
  | ok a => exact ⟨a, rfl, h⟩

theorem ok_of_map {f : α → γ} {c : γ} (h : p.map f = .ok c) : ∃ a, p = .ok a ∧ f a = c := by
  cases p with
  | error e => cases h
  | ok a => exact ⟨a, rfl, Except.ok.inj h⟩

theorem SameOutcome.refl {R : α → α → Prop} (hR : ∀ a, R a a) (p : Except ε α) :
    SameOutcome R p p := by
  cases p with
  | error e => exact .failed e e
  | ok a => exact .returned (hR a)

theorem SameOutcome.of_eq {p q : Except ε α} (h : p = q) : SameOutcome (· = ·) p q := by
  subst h
  exact SameOutcome.refl (fun _ => rfl) p

theorem SameOutcome.trans {T : β → γ → Prop} {U : α → γ → Prop} {r : Except ε γ}
    (h : SameOutcome R p q) (h' : SameOutcome T q r) (hU : ∀ a b c, R a b → T b c → U a c) : SameOutcome U p r := by
  cases h with
  | failed e e' =>
      cases h' with
      | failed _ e'' => exact .failed e e''
  | returned hR =>
      cases h' with
      | returned hT => exact .returned (hU _ _ _ hR hT)

/-- Computations with the same outcome, each followed by another one. -/
theorem SameOutcome.bind {f : α → Except ε γ} {g : β → Except ε δ} (h : SameOutcome R p q)
    (hf : ∀ a b, R a b → SameOutcome S (f a) (g b)) : SameOutcome S (p >>= f) (q >>= g) := by
  cases h with
  | failed e e' => exact .failed e e'
  | returned hR => exact hf _ _ hR

theorem SameOutcome.map {f : α → γ} {g : β → δ} (h : SameOutcome R p q)
    (hf : ∀ a b, R a b → S (f a) (g b)) : SameOutcome S (p.map f) (q.map g) := by
  cases h with
  | failed e e' => exact .failed e e'
  | returned hR => exact .returned (hf _ _ hR)

/-- Related values either pass a check both, or both fail it. -/
theorem SameOutcome.check {c c' : Prop} [Decidable c] [Decidable c'] {e e' : ε} (hc : c ↔ c')
    (h : ¬ c → SameOutcome R p q) :
    SameOutcome R (if c then .error e else p) (if c' then .error e' else q) := by
  by_cases hfails : c
  · rw [if_pos hfails, if_pos (hc.mp hfails)]
    exact .failed e e'
  · rw [if_neg hfails, if_neg fun hfails' => hfails (hc.mpr hfails')]
    exact h hfails

end SameOutcome

/-! ## The loop -/

section Collect

variable {ι ε α : Type} {f g : ι → Except ε (Option α)} {xs ys : List ι}

/-- What `f` makes of the elements, in their order; `none` is skipped. -/
def collect (f : ι → Except ε (Option α)) : List ι → Except ε (List α)
  | [] => .ok []
  | x :: rest => do
      match ← f x with
      | none => collect f rest
      | some a => return a :: (← collect f rest)

theorem collect_cons (x : ι) (rest : List ι) : collect f (x :: rest) =
    (f x >>= fun found => (collect f rest).map (found.toList ++ ·)) := by
  cases h : f x with
  | error e => simp [collect, h, bind, Except.bind]
  | ok found =>
      cases found with
      | none =>
          cases hrest : collect f rest with
          | error e => simp [collect, h, hrest, bind, Except.bind, Except.map]
          | ok values => simp [collect, h, hrest, bind, Except.bind, Except.map]
      | some a =>
          cases hrest : collect f rest with
          | error e => simp [collect, h, hrest, bind, Except.bind, Except.map]
          | ok values => simp [collect, h, hrest, bind, Except.bind, Except.map, pure, Except.pure]

/-- What is kept was made of an element. -/
theorem mem_collect {values : List α} {a : α} (h : collect f xs = .ok values) (ha : a ∈ values) :
    ∃ x ∈ xs, f x = .ok (some a) := by
  induction xs generalizing values with
  | nil =>
      cases h
      cases ha
  | cons x rest ih =>
      rw [collect_cons] at h
      obtain ⟨found, hfound, hrest⟩ := ok_of_bind h
      obtain ⟨kept, hkept, rfl⟩ := ok_of_map hrest
      rcases List.mem_append.mp ha with hfirst | hlater
      · rw [Option.mem_toList] at hfirst
        obtain rfl : found = some a := hfirst
        exact ⟨x, List.mem_cons_self, hfound⟩
      · obtain ⟨y, hy, hmade⟩ := ih hkept hlater
        exact ⟨y, List.mem_cons_of_mem x hy, hmade⟩

/-- Loops whose bodies have the same outcomes. -/
theorem collect_congr (h : ∀ x ∈ xs, SameOutcome (· = ·) (f x) (g x)) :
    SameOutcome (· = ·) (collect f xs) (collect g xs) := by
  induction xs with
  | nil => exact .returned rfl
  | cons x rest ih =>
      rw [collect_cons, collect_cons]
      refine (h x List.mem_cons_self).bind ?_
      rintro found _ rfl
      refine (ih fun y hy => h y (List.mem_cons_of_mem x hy)).bind ?_
      rintro kept _ rfl
      exact .returned rfl

/-- The same loop over two enumerations of the same elements. -/
theorem collect_perm (h : xs.Perm ys) : SameOutcome List.Perm (collect f xs) (collect f ys) := by
  induction h with
  | nil => exact .returned (.refl [])
  | cons x _ ih =>
      rw [collect_cons, collect_cons]
      refine (SameOutcome.of_eq rfl).bind ?_
      rintro found _ rfl
      refine ih.bind ?_
      intro kept kept' hkept
      exact .returned (hkept.append_left _)
  | swap x y rest =>
      rw [collect_cons, collect_cons, collect_cons, collect_cons]
      cases f x with
      | error e =>
          cases f y with
          | error e' => exact .failed e' e
          | ok found => exact .failed e e
      | ok found =>
          cases f y with
          | error e => exact .failed e e
          | ok found' =>
              cases collect f rest with
              | error e => exact .failed e e
              | ok kept =>
                  refine .returned ?_
                  show (found'.toList ++ (found.toList ++ kept)).Perm
                    (found.toList ++ (found'.toList ++ kept))
                  rw [← List.append_assoc, ← List.append_assoc]
                  exact List.perm_append_comm.append_right kept
  | trans _ _ ih ih' => exact ih.trans ih' fun _ _ _ => .trans

/-- SameOutcome bodies over two enumerations. -/
theorem collect_sameOutcome (hbody : ∀ x ∈ xs, SameOutcome (· = ·) (f x) (g x)) (h : xs.Perm ys) :
    SameOutcome List.Perm (collect f xs) (collect g ys) := by
  refine (collect_congr hbody).trans (collect_perm h) ?_
  rintro values _ values' rfl hperm
  exact hperm

end Collect

/-! ## Sorting -/

section Sorting

variable {α κ ε : Type}

/-- The elements in the order of their keys. -/
def sortBy [LE κ] [DecidableLE κ] (key : α → κ) (xs : List α) : List α :=
  xs.mergeSort fun a b => key a ≤ key b

/-- Of a sorted list, an element whose key is that of the element before. -/
def repeated? [DecidableEq κ] (key : α → κ) : List α → Option α
  | a :: b :: rest => if key a = key b then some b else repeated? key (b :: rest)
  | _ => none

/-- A sorted list is passed on unless a key is repeated. -/
def distinct [DecidableEq κ] (key : α → κ) (clash : α → ε) (sorted : List α) :
    Except ε (List α) :=
  match repeated? key sorted with
  | some a => .error (clash a)
  | none => .ok sorted

section Checking

variable [LE κ] [Std.IsLinearOrder κ] [LT κ] [Std.LawfulOrderLT κ] [DecidableEq κ] {key : α → κ}
  {clash : α → ε} {xs ys : List α}

/-- A sorted list in which no key is repeated is strictly sorted. -/
theorem repeated?_eq_none (h : xs.Pairwise fun a b => key a ≤ key b) :
    repeated? key xs = none ↔ xs.Pairwise fun a b => key a < key b := by
  induction xs with
  | nil => simp [repeated?]
  | cons a rest ih =>
      cases rest with
      | nil => simp [repeated?]
      | cons b rest =>
          obtain ⟨hfirst, hrest⟩ := List.pairwise_cons.mp h
          have hab := hfirst b List.mem_cons_self
          rw [repeated?, List.pairwise_cons]
          by_cases hsame : key a = key b
          · rw [if_pos hsame]
            refine iff_of_false (Option.some_ne_none b) ?_
            rintro ⟨hless, -⟩
            have hlt := hless b List.mem_cons_self
            rw [hsame] at hlt
            exact Std.lt_irrefl hlt
          · rw [if_neg hsame, ih hrest]
            have hlt : key a < key b := Std.lt_of_le_of_ne hab hsame
            constructor
            · intro hstrict
              refine ⟨?_, hstrict⟩
              intro c hc
              rcases List.mem_cons.mp hc with rfl | hc
              · exact hlt
              · exact Std.lt_trans hlt ((List.pairwise_cons.mp hstrict).1 c hc)
            · exact fun hboth => hboth.2

end Checking

variable [LE κ] [DecidableLE κ] {key : α → κ} {clash : α → ε} {xs ys sorted : List α}

theorem sortBy_perm (xs : List α) : (sortBy key xs).Perm xs := List.mergeSort_perm _ _

variable [Std.IsLinearOrder κ]

theorem sortBy_sorted (xs : List α) : (sortBy key xs).Pairwise fun a b => key a ≤ key b := by
  refine (List.pairwise_mergeSort ?_ ?_ xs).imp fun h => of_decide_eq_true h
  · intro a b c hab hbc
    exact decide_eq_true (Std.le_trans (of_decide_eq_true hab) (of_decide_eq_true hbc))
  · intro a b
    rcases Std.le_total (a := key a) (b := key b) with h | h
    · simp [h]
    · simp [h]

variable [LT κ] [Std.LawfulOrderLT κ] [DecidableEq κ]

/-- Two enumerations of elements with different keys are sorted the same way. -/
theorem sortBy_eq_of_perm (h : xs.Perm ys) (hnone : repeated? key (sortBy key xs) = none) :
    sortBy key xs = sortBy key ys := by
  have hperm : (sortBy key xs).Perm (sortBy key ys) :=
    (sortBy_perm xs).trans (h.trans (sortBy_perm ys).symm)
  have hstrict := (repeated?_eq_none (sortBy_sorted xs)).mp hnone
  refine hperm.eq_of_pairwise ?_ (hstrict.imp Std.le_of_lt) (sortBy_sorted ys)
  intro a b ha hb hab hba
  -- in the strict list the keys tell the elements apart
  have hapart : ((sortBy key xs).map key).Nodup :=
    List.pairwise_map.mpr (hstrict.imp fun hlt => Std.ne_of_lt hlt)
  exact List.inj_on_of_nodup_map hapart ha (hperm.mem_iff.mpr hb) (Std.le_antisymm hab hba)

/-- The check sees no difference between two enumerations. -/
theorem distinct_sameOutcome (h : xs.Perm ys) :
    SameOutcome (· = ·) (distinct key clash (sortBy key xs))
      (distinct key clash (sortBy key ys)) := by
  cases hxs : repeated? key (sortBy key xs) with
  | none =>
      rw [sortBy_eq_of_perm h hxs]
      exact .of_eq rfl
  | some a =>
      cases hys : repeated? key (sortBy key ys) with
      | none =>
          rw [← sortBy_eq_of_perm h.symm hys] at hxs
          rw [hxs] at hys
          cases hys
      | some b =>
          simp only [distinct, hxs, hys]
          exact .failed (clash a) (clash b)

/-- What passes the check is the sorted list, and strictly sorted. -/
theorem distinct_eq_ok (h : distinct key clash (sortBy key xs) = .ok sorted) :
    sorted = sortBy key xs ∧ sorted.Pairwise fun a b => key a < key b := by
  cases hnone : repeated? key (sortBy key xs) with
  | some a =>
      simp only [distinct, hnone] at h
      cases h
  | none =>
      simp only [distinct, hnone] at h
      obtain rfl := Except.ok.inj h
      exact ⟨rfl, (repeated?_eq_none (sortBy_sorted xs)).mp hnone⟩

end Sorting

end Warehouse.Interaction
