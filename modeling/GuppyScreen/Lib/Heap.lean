import Mathlib.Data.List.Basic

/-!
# Objects that are made and freed one by one

An object keeps the number it got when it was made, and no other object gets it: a
freed slot stays empty.
-/

namespace GuppyScreen.Lib

structure Heap (α : Type) where
  slots : List (Option α) := []
  deriving DecidableEq

namespace Heap

variable {α : Type}

def next (h : Heap α) : ℕ := h.slots.length

def at? (h : Heap α) (i : ℕ) : Option α := h.slots[i]?.join

def alloc (h : Heap α) (a : α) : Heap α := ⟨h.slots ++ [some a]⟩

def free (h : Heap α) (i : ℕ) : Heap α := ⟨h.slots.set i none⟩

/-- A freed object cannot be written. -/
def modify (h : Heap α) (i : ℕ) (f : α → α) : Heap α := ⟨h.slots.modify i (Option.map f)⟩

@[simp] theorem at?_empty (i : ℕ) : ({} : Heap α).at? i = none := rfl

@[simp] theorem next_alloc (h : Heap α) (a : α) : (h.alloc a).next = h.next + 1 := by
  simp [next, alloc]

@[simp] theorem next_free (h : Heap α) (i : ℕ) : (h.free i).next = h.next := by
  simp [next, free]

@[simp] theorem next_modify (h : Heap α) (i : ℕ) (f : α → α) : (h.modify i f).next = h.next := by
  simp [next, modify]

theorem lt_next_of_at? {h : Heap α} {i : ℕ} {a : α} (ha : h.at? i = some a) : i < h.next := by
  by_contra hge
  have hnone : h.slots[i]? = none := List.getElem?_eq_none (Nat.not_lt.mp hge)
  rw [at?, hnone] at ha
  cases ha

theorem at?_alloc (h : Heap α) (a : α) (i : ℕ) :
    (h.alloc a).at? i = if i = h.next then some a else h.at? i := by
  unfold at? alloc next
  by_cases hlt : i < h.slots.length
  · rw [List.getElem?_append_left hlt, if_neg (by omega)]
  · rw [List.getElem?_append_right (by omega)]
    split_ifs with heq
    · simp [heq]
    · rw [List.getElem?_eq_none (by simp; omega), List.getElem?_eq_none (by omega)]

theorem at?_alloc_of_some {h : Heap α} {i : ℕ} {b : α} (hb : h.at? i = some b) (a : α) :
    (h.alloc a).at? i = some b := by
  have hlt := lt_next_of_at? hb
  rw [at?_alloc, if_neg (by omega), hb]

theorem at?_free (h : Heap α) (i j : ℕ) :
    (h.free i).at? j = if j = i then none else h.at? j := by
  unfold at? free
  rw [List.getElem?_set]
  by_cases heq : i = j
  · subst heq
    rw [if_pos rfl, if_pos rfl]
    split_ifs <;> rfl
  · rw [if_neg heq, if_neg (Ne.symm heq)]

theorem at?_modify (h : Heap α) (i : ℕ) (f : α → α) (j : ℕ) :
    (h.modify i f).at? j = if j = i then (h.at? j).map f else h.at? j := by
  unfold at? modify
  rw [List.getElem?_modify]
  by_cases heq : i = j
  · subst heq
    rw [if_pos rfl]
    cases h.slots[i]? with
    | none => rfl
    | some o => cases o <;> simp
  · rw [if_neg (Ne.symm heq)]
    simp [heq]

end Heap

end GuppyScreen.Lib
