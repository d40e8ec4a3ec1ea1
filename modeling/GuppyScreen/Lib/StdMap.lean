import Mathlib.Data.List.AList

/-!
# `std::map`

A map with one value to a key. `insert` of a key that is there leaves its value.
-/

namespace GuppyScreen.Lib

abbrev StdMap (κ ν : Type) : Type := AList fun _ : κ => ν

namespace StdMap

variable {κ ν : Type} [DecidableEq κ]

def insertNew (m : StdMap κ ν) (k : κ) (v : ν) : StdMap κ ν := m ∪ AList.singleton k v

theorem lookup_insertNew_iff {m : StdMap κ ν} {k j : κ} {v x : ν} :
    (m.insertNew k v).lookup j = some x ↔ m.lookup j = some x ∨ j ∉ m ∧ j = k ∧ x = v := by
  rw [insertNew, ← Option.mem_def, AList.mem_lookup_union, Option.mem_def, Option.mem_def,
    ← AList.insert_empty]
  by_cases hj : j = k
  · subst hj
    rw [AList.lookup_insert, Option.some_inj]
    simp [eq_comm]
  · rw [AList.lookup_insert_ne hj]
    simp [hj]

theorem lookup_insertNew {m : StdMap κ ν} {k j : κ} {v x : ν}
    (h : (m.insertNew k v).lookup j = some x) : m.lookup j = some x ∨ j = k ∧ x = v :=
  (lookup_insertNew_iff.mp h).imp_right And.right

theorem mem_insertNew {m : StdMap κ ν} {k j : κ} {v : ν} :
    j ∈ m.insertNew k v ↔ j ∈ m ∨ j = k := by
  rw [insertNew, AList.mem_union, ← AList.insert_empty, AList.mem_insert]
  simp [AList.notMem_empty]

theorem lookup_erase_some {m : StdMap κ ν} {k j : κ} {x : ν}
    (h : (m.erase k).lookup j = some x) : j ≠ k ∧ m.lookup j = some x := by
  by_cases hj : j = k
  · rw [hj, AList.lookup_erase] at h
    cases h
  · rw [AList.lookup_erase_ne hj] at h
    exact ⟨hj, h⟩

end StdMap

end GuppyScreen.Lib
