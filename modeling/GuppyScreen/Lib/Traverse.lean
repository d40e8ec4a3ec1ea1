import Mathlib.Data.List.Basic

/-!
# Loops that may fail at an element

`List.mapM` to `Option` is a loop that gives up at the first element without a result.
-/

namespace GuppyScreen.Lib.Traverse

variable {α β : Type} {f : α → Option β} {l : List α}

theorem of_mapM {r : List β} (h : l.mapM f = some r) :
    r.length = l.length ∧ ∀ y ∈ r, ∃ x ∈ l, f x = some y := by
  induction l generalizing r with
  | nil =>
    cases h
    exact ⟨rfl, fun _ hy => nomatch hy⟩
  | cons x l ih =>
    rw [List.mapM_cons] at h
    obtain ⟨y, hy, h⟩ := Option.bind_eq_some_iff.mp h
    obtain ⟨ys, hys, h⟩ := Option.bind_eq_some_iff.mp h
    cases h
    obtain ⟨hlen, hmem⟩ := ih hys
    refine ⟨by rw [List.length_cons, List.length_cons, hlen], fun z hz => ?_⟩
    rcases List.mem_cons.mp hz with rfl | hz
    · exact ⟨x, List.mem_cons_self .., hy⟩
    · obtain ⟨w, hw, hwz⟩ := hmem z hz
      exact ⟨w, List.mem_cons_of_mem x hw, hwz⟩

theorem exists_mapM (h : ∀ x ∈ l, ∃ y, f x = some y) : ∃ r, l.mapM f = some r := by
  induction l with
  | nil => exact ⟨[], rfl⟩
  | cons x l ih =>
    obtain ⟨y, hy⟩ := h x (List.mem_cons_self ..)
    obtain ⟨r, hr⟩ := ih fun z hz => h z (List.mem_cons_of_mem x hz)
    refine ⟨y :: r, ?_⟩
    rw [List.mapM_cons, hy, hr]
    rfl

end GuppyScreen.Lib.Traverse
