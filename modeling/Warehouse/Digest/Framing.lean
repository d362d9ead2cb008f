/-
# Warehouse.Digest.Framing — texts behind their lengths

A text is framed by the numeral of its length and a separator.  Whatever follows, the frame can be
told from it: the first separator ends the numeral, and the numeral says how far the text goes.  So a
sequence of frames can be decoded in one way only, whatever the texts contain.

This module names nothing of the warehouse.
-/
import Mathlib.Data.List.TakeWhile
import Mathlib.Logic.Function.Basic

namespace Warehouse.Digest

/-- Numerals that are told apart, and a separator that no numeral contains. -/
structure Numerals (α : Type) where
  numeral : ℕ → List α
  separator : α
  injective : Function.Injective numeral
  separated : ∀ n, separator ∉ numeral n

namespace Numerals

variable {α : Type} (ns : Numerals α)

/-- A text behind its length. -/
def frame (text : List α) : List α := ns.numeral text.length ++ ns.separator :: text

/-- Texts one after the other, each framed. -/
def frames (texts : List (List α)) : List α := texts.flatMap ns.frame

variable {ns} {text text' rest rest' : List α} {texts texts' : List (List α)}

/-- Up to the separator, what is read is the numeral. -/
theorem split_separator {xs ys : List α} (hxs : ns.separator ∉ xs) (hys : ns.separator ∉ ys)
    (h : xs ++ ns.separator :: rest = ys ++ ns.separator :: rest') : xs = ys ∧ rest = rest' := by
  induction xs generalizing ys with
  | nil =>
      cases ys with
      | nil => exact ⟨rfl, (List.cons.inj h).2⟩
      | cons y ys =>
          obtain ⟨rfl, -⟩ := List.cons.inj h
          exact absurd List.mem_cons_self hys
  | cons x xs ih =>
      cases ys with
      | nil =>
          obtain ⟨rfl, -⟩ := List.cons.inj h
          exact absurd List.mem_cons_self hxs
      | cons y ys =>
          obtain ⟨rfl, htail⟩ := List.cons.inj h
          have hxs' : ns.separator ∉ xs := fun hmem => hxs (List.mem_cons_of_mem _ hmem)
          have hys' : ns.separator ∉ ys := fun hmem => hys (List.mem_cons_of_mem _ hmem)
          obtain ⟨rfl, hrest⟩ := ih hxs' hys' htail
          exact ⟨rfl, hrest⟩

/-- A frame is read back, whatever follows it. -/
theorem frame_append_inj (h : ns.frame text ++ rest = ns.frame text' ++ rest') :
    text = text' ∧ rest = rest' := by
  unfold frame at h
  rw [List.append_assoc, List.append_assoc] at h
  obtain ⟨hnumeral, htexts⟩ := split_separator (ns.separated _) (ns.separated _) h
  exact List.append_inj htexts (ns.injective hnumeral)

theorem frame_ne_nil : ns.frame text ≠ [] := by simp [frame]

/-- Framed texts are decoded in one way only. -/
theorem frames_injective (ns : Numerals α) : Function.Injective ns.frames := by
  intro texts texts' h
  induction texts generalizing texts' with
  | nil =>
      cases texts' with
      | nil => rfl
      | cons text' texts' =>
          have hempty : ns.frame text' = [] := (List.append_eq_nil_iff.mp h.symm).1
          exact absurd hempty frame_ne_nil
  | cons text texts ih =>
      cases texts' with
      | nil =>
          have hempty : ns.frame text = [] := (List.append_eq_nil_iff.mp h).1
          exact absurd hempty frame_ne_nil
      | cons text' texts' =>
          obtain ⟨rfl, hrest⟩ := frame_append_inj h
          rw [ih hrest]

end Numerals

end Warehouse.Digest
