import Mathlib.Data.List.Basic

/-!
# Escapes

An escape writes some values as themselves and the others as longer sequences. A
text is its own escape exactly when it has none of the others.
-/

namespace GuppyScreen.Lib.Expand

variable {α : Type}

structure Escapes (f : α → List α) (plain : α → Prop) : Prop where
  itself : ∀ a, plain a → f a = [a]
  longer : ∀ a, ¬ plain a → 2 ≤ (f a).length

variable {f : α → List α} {plain : α → Prop} (h : Escapes f plain)
include h

theorem Escapes.length_pos (a : α) : 1 ≤ (f a).length := by
  by_cases ha : plain a
  · rw [h.itself a ha]
    exact Nat.le_refl _
  · have hlong := h.longer a ha
    omega

theorem Escapes.length_le (l : List α) : l.length ≤ (l.flatMap f).length := by
  induction l with
  | nil => exact Nat.le_refl _
  | cons a l ih =>
    have ha := h.length_pos a
    rw [List.flatMap_cons, List.length_append, List.length_cons]
    omega

theorem Escapes.length_lt {l : List α} {a : α} (hm : a ∈ l) (ha : ¬ plain a) :
    l.length < (l.flatMap f).length := by
  induction l with
  | nil => cases hm
  | cons b l ih =>
    rw [List.flatMap_cons, List.length_append, List.length_cons]
    rcases List.mem_cons.mp hm with rfl | hm
    · have hlong := h.longer a ha
      have hrest := h.length_le l
      omega
    · have hb := h.length_pos b
      have hrest := ih hm
      omega

theorem Escapes.flatMap_plain {l : List α} (hl : ∀ a ∈ l, plain a) : l.flatMap f = l := by
  induction l with
  | nil => rfl
  | cons a l ih =>
    rw [List.flatMap_cons, h.itself a (hl a (List.mem_cons_self ..)),
      ih fun b hb => hl b (List.mem_cons_of_mem a hb)]
    rfl

theorem Escapes.eq_self_iff (l : List α) : l.flatMap f = l ↔ ∀ a ∈ l, plain a := by
  constructor
  · intro he a hm
    by_contra ha
    have hlt := h.length_lt hm ha
    rw [he] at hlt
    omega
  · exact h.flatMap_plain

end GuppyScreen.Lib.Expand
