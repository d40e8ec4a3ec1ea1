import Mathlib.Data.List.Basic

/-!
# Splitting at a separator

What `std::getline` reads one by one, in terms of `List.splitOn` and `List.intercalate`.
-/

namespace GuppyScreen.Lib.Split

variable {α : Type}

theorem infix_intercalate {sep piece : List α} {pieces : List (List α)} (h : piece ∈ pieces) :
    piece <:+: sep.intercalate pieces := by
  induction pieces with
  | nil => cases h
  | cons first rest ih =>
    cases rest with
    | nil =>
      have hone : piece = sep.intercalate [first] := by
        rw [List.mem_singleton.mp h, List.intercalate_singleton]
      exact ⟨[], [], by rw [List.nil_append, List.append_nil, hone]⟩
    | cons next more =>
      rw [List.intercalate_cons_cons]
      rcases List.mem_cons.mp h with rfl | h
      · rw [List.append_assoc]
        exact (List.prefix_append _ _).isInfix
      · exact (ih h).trans (List.suffix_append _ _).isInfix

/-- A prefix without separators ends before the first separator. -/
theorem isPrefixOf_append_sep [DecidableEq α] {sep : α} {p : List α} (h : sep ∉ p)
    (piece rest : List α) : p.isPrefixOf (piece ++ sep :: rest) = p.isPrefixOf piece := by
  induction p generalizing piece with
  | nil => simp
  | cons c p ih =>
    have hc : c ≠ sep := fun he => h (by simp [he])
    have hp : sep ∉ p := fun hm => h (List.mem_cons_of_mem c hm)
    cases piece with
    | nil => simp [List.isPrefixOf, hc]
    | cons d piece =>
      rw [List.cons_append, List.isPrefixOf_cons_cons, List.isPrefixOf_cons_cons, ih hp]

variable [DecidableEq α] {sep : α}

theorem infix_of_mem_splitOn {s piece : List α} (h : piece ∈ s.splitOn sep) : piece <:+: s := by
  have hinfix : piece <:+: [sep].intercalate (s.splitOn sep) := infix_intercalate h
  rwa [List.intercalate_splitOn] at hinfix

theorem notMem_of_mem_splitOn {s piece : List α} (h : piece ∈ s.splitOn sep) : sep ∉ piece := by
  induction s generalizing piece with
  | nil =>
    rw [List.splitOn_nil, List.mem_singleton] at h
    rw [h]
    exact List.not_mem_nil
  | cons c cs ih =>
    rw [List.splitOn_cons_eq_if_modifyHead] at h
    split_ifs at h with hc
    · rcases List.mem_cons.mp h with rfl | h
      · exact List.not_mem_nil
      · exact ih h
    · cases hsplit : cs.splitOn sep with
      | nil => exact absurd hsplit (List.splitOn_ne_nil sep cs)
      | cons first rest =>
        rw [hsplit] at h ih
        rcases List.mem_cons.mp h with rfl | h
        · rw [List.mem_cons, not_or]
          exact ⟨fun he => hc (by simp [he]), ih (List.mem_cons_self ..)⟩
        · exact ih (List.mem_cons_of_mem first h)

/-! ### `std::getline` -/

/-- The pieces `std::getline` gives one by one: nothing after a final separator. -/
def getlines (sep : α) (s : List α) : List (List α) :=
  let pieces := s.splitOn sep
  if pieces.getLast? = some [] then pieces.dropLast else pieces

theorem getlines_intercalate {pieces : List (List α)} (hne : pieces ≠ [])
    (h : ∀ piece ∈ pieces, sep ∉ piece) (hlast : pieces.getLast? ≠ some []) :
    getlines sep ([sep].intercalate pieces) = pieces := by
  unfold getlines
  rw [List.splitOn_intercalate sep h hne]
  exact if_neg hlast

theorem mem_splitOn_of_mem_getlines {s piece : List α} (h : piece ∈ getlines sep s) :
    piece ∈ s.splitOn sep := by
  unfold getlines at h
  dsimp only at h
  split_ifs at h
  · exact List.dropLast_subset _ h
  · exact h

theorem infix_of_mem_getlines {s piece : List α} (h : piece ∈ getlines sep s) : piece <:+: s :=
  infix_of_mem_splitOn (mem_splitOn_of_mem_getlines h)

theorem splitOn_lines {lines : List (List α)} (h : ∀ line ∈ lines, sep ∉ line) :
    (lines.flatMap (· ++ [sep])).splitOn sep = lines ++ [[]] := by
  induction lines with
  | nil => rfl
  | cons line lines ih =>
    have hline : sep ∉ line := h line (List.mem_cons_self ..)
    have hrest := ih fun l hl => h l (List.mem_cons_of_mem line hl)
    rw [List.flatMap_cons, List.append_assoc, List.singleton_append,
      List.splitOn_append_cons_self_of_not_mem hline, hrest]
    rfl

theorem getlines_lines {lines : List (List α)} (h : ∀ line ∈ lines, sep ∉ line) :
    getlines sep (lines.flatMap (· ++ [sep])) = lines := by
  unfold getlines
  rw [splitOn_lines h]
  simp

end GuppyScreen.Lib.Split
