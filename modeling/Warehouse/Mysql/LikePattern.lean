/-
# Warehouse.Mysql.LikePattern — patterns with wildcards

In the pattern of a `LIKE`, one character stands for any text, one for any single character, and a
third takes away the meaning of the character behind it.  `tokens` reads a pattern and
`matchesTokens` compares it with a text; what the characters are, and when two count as the same,
are parameters.

A text between two `any` wildcards is searched for literally if none of the three occurs in it, and
only then: what the pattern reads as is otherwise another text.

This module names nothing of the warehouse.
-/
import Mathlib.Data.List.Forall2
import Mathlib.Data.List.Infix
import Mathlib.Data.List.Induction

namespace Warehouse.Mysql

/-- The characters with a meaning of their own. -/
structure Wildcards (α : Type) where
  any : α
  one : α
  escape : α
  any_ne_escape : any ≠ escape

/-- What a pattern consists of. -/
inductive Token (α : Type)
  | any
  | one
  | literal (a : α)
  deriving DecidableEq

/-! ## Matching -/

section Matching

variable {α : Type}

/-- Whether the whole text is as the tokens say. -/
def matchesTokens (same : α → α → Bool) : List (Token α) → List α → Bool
  | [], text => text.isEmpty
  | .any :: rest, text => text.tails.any (matchesTokens same rest)
  | .one :: rest, text => match text with
    | [] => false
    | _ :: text => matchesTokens same rest text
  | .literal a :: rest, text => match text with
    | [] => false
    | c :: text => same a c && matchesTokens same rest text

variable {same : α → α → Bool} {p q : List (Token α)} {text l : List α}

theorem matchesTokens_any :
    matchesTokens same (.any :: q) text = true ↔
      ∃ skipped found, text = skipped ++ found ∧ matchesTokens same q found = true := by
  simp only [matchesTokens, List.any_eq_true, List.mem_tails]
  constructor
  · rintro ⟨found, ⟨skipped, rfl⟩, hfound⟩
    exact ⟨skipped, found, rfl, hfound⟩
  · rintro ⟨skipped, found, rfl, hfound⟩
    exact ⟨found, ⟨skipped, rfl⟩, hfound⟩

/-- Literal characters take as many characters of the text that count as the same. -/
theorem matchesTokens_literals :
    matchesTokens same (l.map .literal ++ q) text = true ↔
      ∃ found rest, text = found ++ rest ∧ List.Forall₂ (fun a c => same a c = true) l found ∧
        matchesTokens same q rest = true := by
  induction l generalizing text with
  | nil =>
      constructor
      · exact fun h => ⟨[], text, rfl, .nil, h⟩
      · rintro ⟨found, rest, rfl, hfound, h⟩
        cases hfound
        exact h
  | cons a l ih =>
      cases text with
      | nil =>
          refine iff_of_false Bool.false_ne_true ?_
          rintro ⟨found, rest, hnil, hfound, -⟩
          obtain ⟨rfl, -⟩ := List.append_eq_nil_iff.mp hnil.symm
          cases hfound
      | cons c text =>
          show (same a c && matchesTokens same (l.map .literal ++ q) text) = true ↔ _
          rw [Bool.and_eq_true, ih]
          constructor
          · rintro ⟨hsame, found, rest, rfl, hfound, h⟩
            exact ⟨c :: found, rest, rfl, .cons hsame hfound, h⟩
          · rintro ⟨found, rest, heq, hfound, h⟩
            cases hfound with
            | cons hsame hfound =>
                obtain ⟨rfl, rfl⟩ := List.cons.inj heq
                exact ⟨hsame, _, rest, rfl, hfound, h⟩

/-- Literal characters between two wildcards: they occur somewhere in the text. -/
theorem matchesTokens_contains :
    matchesTokens same (.any :: (l.map .literal ++ [.any])) text = true ↔
      ∃ found, found <:+: text ∧ List.Forall₂ (fun a c => same a c = true) l found := by
  have hrest : ∀ rest : List α, matchesTokens same [.any] rest = true := fun rest =>
    matchesTokens_any.mpr ⟨rest, [], by simp, rfl⟩
  rw [matchesTokens_any]
  constructor
  · rintro ⟨skipped, behind, rfl, hbehind⟩
    obtain ⟨found, rest, rfl, hfound, -⟩ := matchesTokens_literals.mp hbehind
    exact ⟨found, ⟨skipped, rest, List.append_assoc ..⟩, hfound⟩
  · rintro ⟨found, ⟨skipped, rest, rfl⟩, hfound⟩
    exact ⟨skipped, found ++ rest, List.append_assoc .., matchesTokens_literals.mpr
      ⟨found, rest, rfl, hfound, hrest rest⟩⟩

/-- A text that the tokens match: nothing for any text, `filler` for any character. -/
def sample (filler : α) : List (Token α) → List α
  | [] => []
  | .any :: rest => sample filler rest
  | .one :: rest => filler :: sample filler rest
  | .literal a :: rest => a :: sample filler rest

theorem matchesTokens_sample {filler : α} (hsame : ∀ a, same a a = true) (p : List (Token α)) :
    matchesTokens same p (sample filler p) = true := by
  induction p with
  | nil => rfl
  | cons token rest ih =>
      cases token with
      | any => exact matchesTokens_any.mpr ⟨[], _, rfl, ih⟩
      | one => exact ih
      | literal a =>
          show (same a a && matchesTokens same rest (sample filler rest)) = true
          rw [hsame, ih]
          rfl

end Matching

/-! ## Reading a pattern -/

namespace Wildcards

variable {α : Type} [DecidableEq α] (w : Wildcards α)

/-- A character that nothing takes the meaning from. -/
def token (c : α) : Token α :=
  if c = w.any then .any else if c = w.one then .one else .literal c

/-- The tokens of a pattern; behind the last character there is nothing to take literally. -/
def tokens : List α → List (Token α)
  | [] => []
  | [c] => [w.token c]
  | c :: d :: rest =>
      if c = w.escape then .literal d :: tokens rest else w.token c :: tokens (d :: rest)

/-- A character that means itself. -/
def Plain (c : α) : Prop := c ≠ w.any ∧ c ≠ w.one ∧ c ≠ w.escape

variable {w} {c filler : α} {text rest : List α}

theorem token_plain (h : w.Plain c) : w.token c = .literal c := by
  rw [token, if_neg h.1, if_neg h.2.1]

theorem tokens_cons (h : c ≠ w.escape) : w.tokens (c :: rest) = w.token c :: w.tokens rest := by
  cases rest with
  | nil => rfl
  | cons d rest => rw [tokens, if_neg h]

theorem tokens_escape (d : α) : w.tokens (w.escape :: d :: rest) = .literal d :: w.tokens rest := by
  rw [tokens, if_pos rfl]

theorem tokens_plain (h : ∀ c ∈ text, w.Plain c) :
    w.tokens (text ++ rest) = text.map .literal ++ w.tokens rest := by
  induction text with
  | nil => rfl
  | cons c text ih =>
      have hc := h c List.mem_cons_self
      rw [List.cons_append, tokens_cons hc.2.2, token_plain hc,
        ih fun d hd => h d (List.mem_cons_of_mem c hd)]
      rfl

/-- The text, with a wildcard behind it, is read as one that is no longer, and as itself only if it
is plain. -/
def Shortened (w : Wildcards α) (filler : α) (text : List α) : Prop :=
  (sample filler (w.tokens (text ++ [w.any]))).length ≤ text.length ∧
    (sample filler (w.tokens (text ++ [w.any])) = text → ∀ c ∈ text, w.Plain c)

theorem Shortened.cons (hfiller : filler ≠ w.one) (hescape : c ≠ w.escape)
    (h : w.Shortened filler rest) : w.Shortened filler (c :: rest) := by
  obtain ⟨hlength, hplain⟩ := h
  unfold Shortened
  rw [List.cons_append, tokens_cons hescape, token]
  by_cases hany : c = w.any
  · rw [if_pos hany]
    refine ⟨Nat.le_succ_of_le hlength, ?_⟩
    intro heq
    have hlengths := congrArg List.length heq
    simp only [sample, List.length_cons] at hlengths
    omega
  by_cases hone : c = w.one
  · rw [if_neg hany, if_pos hone]
    refine ⟨Nat.succ_le_succ hlength, ?_⟩
    intro heq
    exact absurd ((List.cons.inj heq).1.trans hone) hfiller
  · rw [if_neg hany, if_neg hone]
    refine ⟨Nat.succ_le_succ hlength, ?_⟩
    intro heq d hd
    rcases List.mem_cons.mp hd with rfl | hd
    · exact ⟨hany, hone, hescape⟩
    · exact hplain (List.cons.inj heq).2 d hd

/-- The escape is not part of what is read. -/
theorem Shortened.escape {d : α} (h : w.Shortened filler rest) :
    w.Shortened filler (w.escape :: d :: rest) := by
  unfold Shortened
  rw [List.cons_append, List.cons_append, tokens_escape]
  have hlength := h.1
  refine ⟨Nat.succ_le_succ (Nat.le_succ_of_le hlength), ?_⟩
  intro heq
  have hlengths := congrArg List.length heq
  simp only [sample, List.length_cons] at hlengths
  omega

theorem sample_tokens (hfiller : filler ≠ w.one) (text : List α) : w.Shortened filler text := by
  have hnil : w.Shortened filler [] := by simp [Shortened, tokens, token, sample]
  induction text using List.twoStepInduction with
  | nil => exact hnil
  | singleton c =>
      by_cases hescape : c = w.escape
      · -- the escape takes the wildcard
        subst hescape
        unfold Shortened
        rw [List.cons_append, List.nil_append, tokens_escape]
        refine ⟨Nat.le_refl 1, ?_⟩
        intro heq
        exact absurd (List.cons.inj heq).1 w.any_ne_escape
      · exact hnil.cons hfiller hescape
  | cons_cons c d rest ih ih' =>
      by_cases hescape : c = w.escape
      · subst hescape
        exact ih.escape
      · exact (ih' d).cons hfiller hescape

/-- What a pattern is read as has the characters of the pattern, and the filler. -/
theorem mem_sample_tokens {a : α} {text : List α} (h : a ∈ sample filler (w.tokens text)) :
    a = filler ∨ a ∈ text := by
  -- of one character that nothing takes the meaning from
  have htoken : ∀ (c : α) (rest : List α),
      (a ∈ sample filler (w.tokens rest) → a = filler ∨ a ∈ rest) →
      a ∈ sample filler (w.token c :: w.tokens rest) → a = filler ∨ a ∈ c :: rest := by
    intro c rest hrest ha
    rw [List.mem_cons]
    unfold token at ha
    split at ha
    · exact (hrest ha).imp_right Or.inr
    split at ha
    · rcases List.mem_cons.mp ha with hfiller | ha
      · exact Or.inl hfiller
      · exact (hrest ha).imp_right Or.inr
    · rcases List.mem_cons.mp ha with hc | ha
      · exact Or.inr (Or.inl hc)
      · exact (hrest ha).imp_right Or.inr
  induction text using List.twoStepInduction with
  | nil => cases h
  | singleton c => exact htoken c [] (fun h => nomatch h) h
  | cons_cons c d rest ih ih' =>
      by_cases hescape : c = w.escape
      · rw [hescape, tokens_escape] at h
        rcases List.mem_cons.mp h with rfl | h
        · exact Or.inr (by simp)
        · exact (ih h).imp_right fun h => by simp [h]
      · rw [tokens_cons hescape] at h
        exact htoken c (d :: rest) (ih' d) h

/-- `text LIKE '%pattern%'`, with the wildcards for any text around the pattern. -/
def contains (same : α → α → Bool) (w : Wildcards α) (pattern text : List α) : Bool :=
  matchesTokens same (w.tokens ([w.any] ++ pattern ++ [w.any])) text

theorem tokens_around (text : List α) :
    w.tokens ([w.any] ++ text ++ [w.any]) = .any :: w.tokens (text ++ [w.any]) := by
  rw [List.append_assoc, List.singleton_append, tokens_cons w.any_ne_escape, token, if_pos rfl]

variable {same : α → α → Bool} {pattern : List α}

/-- A plain text is searched for as it is. -/
theorem contains_plain (h : ∀ c ∈ pattern, w.Plain c) :
    w.contains same pattern text = true ↔
      ∃ found, found <:+: text ∧ List.Forall₂ (fun a c => same a c = true) pattern found := by
  rw [contains, tokens_around, tokens_plain h, tokens_cons w.any_ne_escape, token, if_pos rfl]
  exact matchesTokens_contains

/-- Any other text is also found where it does not occur. -/
theorem contains_other (hsame : ∀ a, same a a = true) (hfiller : filler ≠ w.one)
    (h : ¬ ∀ c ∈ pattern, w.Plain c) :
    w.contains same pattern (sample filler (w.tokens (pattern ++ [w.any]))) = true ∧
      ¬ pattern <:+: sample filler (w.tokens (pattern ++ [w.any])) := by
  obtain ⟨hlength, hplain⟩ := sample_tokens hfiller pattern
  constructor
  · rw [contains, tokens_around]
    exact matchesTokens_any.mpr ⟨[], _, rfl, matchesTokens_sample hsame _⟩
  · intro hoccurs
    exact h (hplain (hoccurs.eq_of_length (Nat.le_antisymm hoccurs.length_le hlength)).symm)

end Wildcards

end Warehouse.Mysql
