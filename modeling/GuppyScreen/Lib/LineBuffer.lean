import Mathlib.Data.List.Basic

/-!
# Text that arrives in pieces

A reader holds back what follows the last separator of the text so far, and passes
everything before it on. What is passed on and what is held are the text cut after its
last separator, however the text was divided.
-/

namespace GuppyScreen.Lib.LineBuffer

variable {α : Type} [DecidableEq α] (sep : α)

/-- The length of a text up to its last separator, that one included. -/
def cut : List α → ℕ
  | [] => 0
  | x :: xs => if 0 < cut xs then cut xs + 1 else if x = sep then 1 else 0

def whole (l : List α) : List α := l.take (cut sep l)

def rest (l : List α) : List α := l.drop (cut sep l)

/-- What one piece makes the reader pass on, nothing where no separator came yet, and
what it holds then. -/
def feed (held piece : List α) : Option (List α) × List α :=
  let data := held ++ piece
  if sep ∈ data then (some (whole sep data), rest sep data) else (none, data)

def Ends (l : List α) : Prop := ∃ line, l = line ++ [sep]

variable {sep}

theorem whole_append_rest (l : List α) : whole sep l ++ rest sep l = l := List.take_append_drop ..

theorem cut_pos_iff {l : List α} : 0 < cut sep l ↔ sep ∈ l := by
  induction l with
  | nil => simp [cut]
  | cons x xs ih =>
    rw [cut, List.mem_cons, ← ih]
    by_cases hxs : 0 < cut sep xs
    · simp [hxs]
    · by_cases hx : x = sep
      · simp [hxs, hx]
      · simp [hxs, hx, Ne.symm hx]

theorem not_mem_rest (l : List α) : sep ∉ rest sep l := by
  unfold rest
  induction l with
  | nil => simp
  | cons x xs ih =>
    rw [cut]
    by_cases hxs : 0 < cut sep xs
    · rw [if_pos hxs, List.drop_succ_cons]
      exact ih
    · have hmem : sep ∉ xs := fun h => hxs (cut_pos_iff.mpr h)
      rw [if_neg hxs]
      by_cases hx : x = sep
      · rw [if_pos hx, List.drop_succ_cons, List.drop_zero]
        exact hmem
      · rw [if_neg hx, List.drop_zero, List.mem_cons, not_or]
        exact ⟨Ne.symm hx, hmem⟩

theorem ends_whole {l : List α} (h : sep ∈ l) : Ends sep (whole sep l) := by
  unfold whole
  induction l with
  | nil => cases h
  | cons x xs ih =>
    rw [cut]
    by_cases hxs : 0 < cut sep xs
    · obtain ⟨line, hline⟩ := ih (cut_pos_iff.mp hxs)
      exact ⟨x :: line, by rw [if_pos hxs, List.take_succ_cons, hline, List.cons_append]⟩
    · have hx : x = sep := by
        rcases List.mem_cons.mp h with h | h
        · exact h.symm
        · exact absurd (cut_pos_iff.mpr h) hxs
      exact ⟨[], by rw [if_neg hxs, if_pos hx, List.take_succ_cons, List.take_zero, hx,
        List.nil_append]⟩

theorem cut_append (a b : List α) :
    cut sep (a ++ b) = if sep ∈ b then a.length + cut sep b else cut sep a := by
  induction a with
  | nil =>
    split_ifs with h
    · simp
    · have hb : cut sep b = 0 := Nat.eq_zero_of_not_pos fun hpos => h (cut_pos_iff.mp hpos)
      simp [cut, hb]
  | cons x xs ih =>
    rw [List.cons_append, cut, ih]
    by_cases h : sep ∈ b
    · have hb : 0 < cut sep b := cut_pos_iff.mpr h
      rw [if_pos h, if_pos (by omega), if_pos h, List.length_cons]
      omega
    · rw [if_neg h, if_neg h, cut]

/-- The only way to cut a text after its last separator. -/
theorem cut_unique {a b : List α} (ha : a = [] ∨ Ends sep a) (hb : sep ∉ b) :
    whole sep (a ++ b) = a ∧ rest sep (a ++ b) = b := by
  have hcut : cut sep (a ++ b) = a.length := by
    rw [cut_append, if_neg hb]
    rcases ha with rfl | ⟨line, rfl⟩
    · rfl
    · rw [cut_append, if_pos (List.mem_singleton_self sep), List.length_append]
      simp [cut]
  rw [whole, rest, hcut]
  exact ⟨List.take_left, List.drop_left⟩

theorem feed_eq (held piece : List α) :
    ((feed sep held piece).1.getD []) ++ (feed sep held piece).2 = held ++ piece := by
  unfold feed
  dsimp only
  split_ifs with h
  · exact whole_append_rest _
  · rfl

theorem not_mem_feed (held piece : List α) : sep ∉ (feed sep held piece).2 := by
  unfold feed
  dsimp only
  split_ifs with h
  · exact not_mem_rest _
  · exact h

theorem ends_feed {held piece m : List α} (h : (feed sep held piece).1 = some m) : Ends sep m := by
  unfold feed at h
  dsimp only at h
  split_ifs at h with hmem
  cases h
  exact ends_whole hmem

omit [DecidableEq α] in
theorem ends_flatten {ms : List (List α)} (h : ∀ m ∈ ms, Ends sep m) :
    ms.flatten = [] ∨ Ends sep ms.flatten := by
  rcases List.eq_nil_or_concat ms with rfl | ⟨init, m, rfl⟩
  · exact .inl rfl
  · obtain ⟨line, rfl⟩ := h m (by simp)
    exact .inr ⟨init.flatten ++ line, by simp⟩

/-- However a text came, what was passed on is all of it up to the last separator. -/
theorem passed_on {ms : List (List α)} {held text : List α} (hms : ∀ m ∈ ms, Ends sep m)
    (hheld : sep ∉ held) (htext : ms.flatten ++ held = text) :
    ms.flatten = whole sep text ∧ held = rest sep text := by
  subst htext
  obtain ⟨hw, hr⟩ := cut_unique (ends_flatten hms) hheld
  exact ⟨hw.symm, hr.symm⟩

end GuppyScreen.Lib.LineBuffer
