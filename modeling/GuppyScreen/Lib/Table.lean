import Mathlib.Data.Nat.Basic
import Mathlib.Order.Lattice

/-!
# Tables of texts

A table widget: writing a cell below the last row adds rows, and the rows cut off
by a lower count lose their texts. A cell keeps its text until one of the two
happens.
-/

namespace GuppyScreen.Lib

structure Table where
  rowCnt : ℕ
  text : ℕ → ℕ → Option String
  below : ∀ row, rowCnt ≤ row → ∀ col, text row col = none

namespace Table

/-- One row without a text. -/
def new : Table := ⟨1, fun _ _ => none, fun _ _ _ => rfl⟩

def setCell (t : Table) (row col : ℕ) (s : String) : Table where
  rowCnt := max t.rowCnt (row + 1)
  text r c := if r = row ∧ c = col then some s else t.text r c
  below := by
    intro r hr c
    rw [if_neg (by omega)]
    exact t.below r (by omega) c

def setRowCnt (t : Table) (n : ℕ) : Table where
  rowCnt := n
  text r c := if r < n then t.text r c else none
  below := by
    intro r hr c
    rw [if_neg (by omega)]

/-- The cells of a row, from the first column on. -/
def setCells (t : Table) (row : ℕ) (cells : List (ℕ × String)) : Table :=
  cells.foldl (fun t c => t.setCell row c.1 c.2) t

@[simp] theorem text_setRowCnt (t : Table) {n row : ℕ} (h : row < n) (col : ℕ) :
    (t.setRowCnt n).text row col = t.text row col := if_pos h

theorem text_setCells_row {t : Table} {row r : ℕ} (h : r ≠ row) (cells : List (ℕ × String))
    (col : ℕ) :
    (t.setCells row cells).text r col = t.text r col := by
  unfold setCells
  induction cells generalizing t with
  | nil => rfl
  | cons c cells ih =>
    rw [List.foldl_cons, ih]
    exact if_neg fun he => h he.1

theorem text_setCells_col {t : Table} {row col : ℕ} {cells : List (ℕ × String)}
    (h : ∀ c ∈ cells, c.1 ≠ col) : (t.setCells row cells).text row col = t.text row col := by
  unfold setCells
  induction cells generalizing t with
  | nil => rfl
  | cons c cells ih =>
    rw [List.foldl_cons, ih fun d hd => h d (List.mem_cons_of_mem c hd)]
    exact if_neg fun he => h c (List.mem_cons_self ..) he.2.symm

theorem text_setCells_mem {t : Table} {row : ℕ} {cells : List (ℕ × String)} {c : ℕ × String}
    (hnd : (cells.map (·.1)).Nodup) (h : c ∈ cells) :
      (t.setCells row cells).text row c.1 = some c.2 := by
  induction cells generalizing t with
  | nil => cases h
  | cons d cells ih =>
    obtain ⟨hd, hnd⟩ := List.nodup_cons.mp hnd
    rcases List.mem_cons.mp h with rfl | h
    · have hrest : ∀ e ∈ cells, e.1 ≠ c.1 := by
        intro e he heq
        exact hd (List.mem_map.mpr ⟨e, he, heq⟩)
      show ((t.setCell row c.1 c.2).setCells row cells).text row c.1 = some c.2
      rw [text_setCells_col hrest]
      exact if_pos ⟨rfl, rfl⟩
    · exact ih hnd h

end Table

end GuppyScreen.Lib
