import Mathlib.Data.List.Infix

/-!
# Searching and cutting texts

`std::string::find` and `substr`, on lists.
-/

namespace GuppyScreen.Lib.Find

variable {α : Type}

section
variable [DecidableEq α]

/-- The first place of `p` in a text. -/
def search (p : List α) : List α → Option ℕ
  | [] => if p = [] then some 0 else none
  | c :: cs => if p.isPrefixOf (c :: cs) then some 0 else (search p cs).map (· + 1)

/-- `s.find(p, pos)`, `none` for `npos`. -/
def find (p s : List α) (pos : ℕ) : Option ℕ := (search p (s.drop pos)).map (· + pos)

theorem search_cons_of_ne {c b : α} (h : c ≠ b) (s : List α) :
    search [c] (b :: s) = (search [c] s).map (· + 1) := by
  simp [search, h]

theorem search_sep {c : α} {a : List α} (h : c ∉ a) (rest : List α) :
    search [c] (a ++ c :: rest) = some a.length := by
  induction a with
  | nil => simp [search]
  | cons b a ih =>
    obtain ⟨hb, ha⟩ := not_or.mp (List.mem_cons.not.mp h)
    rw [List.cons_append, search_cons_of_ne hb, ih ha, Option.map_some, List.length_cons]

theorem search_eq_none {c : α} {a : List α} (h : c ∉ a) : search [c] a = none := by
  induction a with
  | nil => simp [search]
  | cons b a ih =>
    obtain ⟨hb, ha⟩ := not_or.mp (List.mem_cons.not.mp h)
    rw [search_cons_of_ne hb, ih ha, Option.map_none]

theorem search_lt {c : α} {s : List α} {i : ℕ} (h : search [c] s = some i) : i < s.length := by
  induction s generalizing i with
  | nil => simp [search] at h
  | cons b s ih =>
    rw [search] at h
    split_ifs at h with hb
    · cases h
      simp
    · obtain ⟨j, hj, rfl⟩ := Option.map_eq_some_iff.mp h
      have := ih hj
      simp only [List.length_cons]
      omega

/-- The first separator after what comes before `pos`. -/
theorem find_sep {c : α} (before : List α) {a : List α} (h : c ∉ a) (rest : List α) :
    find [c] (before ++ (a ++ c :: rest)) before.length = some (before.length + a.length) := by
  unfold find
  rw [List.drop_left, search_sep h, Option.map_some, Nat.add_comm]

theorem find_eq_none {c : α} (before : List α) {a : List α} (h : c ∉ a) :
    find [c] (before ++ a) before.length = none := by
  unfold find
  rw [List.drop_left, search_eq_none h, Option.map_none]

theorem find_mem {c : α} {s : List α} {pos i : ℕ} (h : find [c] s pos = some i) :
    pos ≤ i ∧ i < s.length := by
  obtain ⟨j, hj, rfl⟩ := Option.map_eq_some_iff.mp h
  have hlt := search_lt hj
  rw [List.length_drop] at hlt
  omega

end

/-! ### Cutting -/

/-- `s.substr(pos, n)`, `none` where it throws. -/
def substr (s : List α) (pos n : ℕ) : Option (List α) :=
  if pos ≤ s.length then some ((s.drop pos).take n) else none

/-- `s.substr(pos)`. -/
def substrFrom (s : List α) (pos : ℕ) : Option (List α) :=
  if pos ≤ s.length then some (s.drop pos) else none

theorem substr_mid (before a rest : List α) :
    substr (before ++ (a ++ rest)) before.length a.length = some a := by
  unfold substr
  rw [if_pos (by simp), List.drop_left, List.take_left]

theorem substr_isSome {s : List α} {pos : ℕ} (h : pos ≤ s.length) (n : ℕ) :
    (substr s pos n).isSome = true := by
  rw [substr, if_pos h]
  rfl

theorem substrFrom_append (before rest : List α) :
    substrFrom (before ++ rest) before.length = some rest := by
  unfold substrFrom
  rw [if_pos (by simp), List.drop_left]

theorem substrFrom_isSome_iff {s : List α} {pos : ℕ} :
    (substrFrom s pos).isSome = true ↔ pos ≤ s.length := by
  unfold substrFrom
  split_ifs with h <;> simp [h]

end GuppyScreen.Lib.Find
