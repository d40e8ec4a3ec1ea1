import Mathlib.Data.List.TakeWhile

/-!
# Regular expressions

ECMAScript patterns, as `std::regex` tries them: the ways to match, in the order of
preference, where a repetition is greedy.
-/

namespace GuppyScreen.Lib

inductive Regex where
  | char (p : Char → Bool)
  | seq (r s : Regex)
  | alt (r s : Regex)
  | opt (r : Regex)
  | star (r : Regex)
  | group (n : ℕ) (r : Regex)
  | backref (n : ℕ)

namespace Regex

/-- What is left of the text, and what the groups have caught. -/
structure Cursor where
  rest : List Char
  groups : List (ℕ × List Char) := []
  deriving DecidableEq

/-- `match.str(n)`. -/
def Cursor.str (c : Cursor) (n : ℕ) : List Char := (c.groups.lookup n).getD []

/-- A round that reads nothing is not taken. -/
def iterate (round : Cursor → List Cursor) : ℕ → Cursor → List Cursor
  | 0, c => [c]
  | fuel + 1, c =>
    ((round c).filter fun d => d.rest.length < c.rest.length).flatMap (iterate round fuel) ++ [c]

def run : Regex → Cursor → List Cursor
  | char p, c =>
    match c.rest with
    | [] => []
    | a :: rest => if p a then [{ c with rest }] else []
  | seq r s, c => (r.run c).flatMap s.run
  | alt r s, c => r.run c ++ s.run c
  | opt r, c => r.run c ++ [c]
  | star r, c => iterate r.run c.rest.length c
  | group n r, c =>
    (r.run c).map fun d =>
      { d with groups := (n, c.rest.take (c.rest.length - d.rest.length)) :: d.groups }
  | backref n, c =>
    if (c.str n).isPrefixOf c.rest then [{ c with rest := c.rest.drop (c.str n).length }] else []

def plus (r : Regex) : Regex := seq r (star r)

/-- A text in either case, then `r`. -/
def icase (text : List Char) (r : Regex) : Regex :=
  text.foldr (fun t r => seq (char fun a => a.toLower = t) r) r

/-- The match at the start of a text. -/
def firstAt (r : Regex) (text : List Char) : Option Cursor := (r.run ⟨text, []⟩).head?

/-- `std::regex_search`. -/
def search (r : Regex) : List Char → Option Cursor
  | [] => firstAt r []
  | a :: text =>
    match firstAt r (a :: text) with
    | some m => some m
    | none => search r text

/-- `std::sregex_iterator`, for a pattern that matches no empty text. -/
def matchesFrom (r : Regex) : ℕ → List Char → List Cursor
  | 0, _ => []
  | fuel + 1, text =>
    match search r text with
    | none => []
    | some m => m :: matchesFrom r fuel m.rest

def allMatches (r : Regex) (text : List Char) : List Cursor := matchesFrom r (text.length + 1) text

/-! ### The preferred match -/

theorem head_seq {r s : Regex} {c d e : Cursor} (hr : (r.run c).head? = some d)
    (hs : (s.run d).head? = some e) : ((seq r s).run c).head? = some e := by
  cases hd : r.run c with
  | nil =>
    rw [hd] at hr
    cases hr
  | cons d' ds =>
    rw [hd] at hr
    cases hr
    rw [run, hd, List.flatMap_cons, List.head?_append, hs]
    rfl

theorem head_group {r : Regex} {c d : Cursor} (n : ℕ) (hr : (r.run c).head? = some d) :
    ((group n r).run c).head? =
      some { d with groups := (n, c.rest.take (c.rest.length - d.rest.length)) :: d.groups } := by
  rw [run, List.head?_map, hr]
  rfl

theorem run_char (p : Char → Bool) (a : Char) (rest : List Char) (groups : List (ℕ × List Char)) :
    (char p).run ⟨a :: rest, groups⟩ = if p a then [⟨rest, groups⟩] else [] := rfl

theorem iterate_char (p : Char → Bool) (fuel : ℕ) (c : Cursor) (h : c.rest.length ≤ fuel) :
    (iterate (char p).run fuel c).head? = some { c with rest := c.rest.dropWhile p } := by
  obtain ⟨rest, groups⟩ := c
  induction fuel generalizing rest with
  | zero =>
    have hnil : rest = [] := List.eq_nil_of_length_eq_zero (Nat.le_zero.mp h)
    subst hnil
    rfl
  | succ fuel ih =>
    cases rest with
    | nil => rfl
    | cons a rest =>
      rw [iterate, run_char]
      cases ha : p a with
      | false => simp [ha]
      | true =>
        have hrest := ih rest (Nat.le_of_succ_le_succ h)
        simp only [if_true, List.filter_cons, List.length_cons, Nat.lt_succ_self, decide_true,
          List.filter_nil, List.flatMap_cons, List.flatMap_nil, List.append_nil]
        rw [List.head?_append, hrest, List.dropWhile_cons, if_pos ha]
        rfl

/-- A greedy repetition of one character reads as far as it can. -/
theorem head_star_char (p : Char → Bool) (c : Cursor) :
    ((star (char p)).run c).head? = some { c with rest := c.rest.dropWhile p } :=
  iterate_char p c.rest.length c (Nat.le_refl _)

theorem head_plus_char {p : Char → Bool} {a : Char} (ha : p a = true) (rest : List Char)
    (groups : List (ℕ × List Char)) :
    ((plus (char p)).run ⟨a :: rest, groups⟩).head? = some ⟨rest.dropWhile p, groups⟩ := by
  apply head_seq
  · rw [run_char, if_pos ha]
    rfl
  · exact head_star_char p ⟨rest, groups⟩

/-- What comes after `text`, read in either case. -/
def after : List Char → List Char → Option (List Char)
  | [], s => some s
  | _ :: _, [] => none
  | t :: ts, a :: s => if a.toLower = t then after ts s else none

theorem run_icase (text : List Char) (r : Regex) (s : List Char) (groups : List (ℕ × List Char)) :
    (icase text r).run ⟨s, groups⟩ =
      match after text s with
      | none => []
      | some rest => r.run ⟨rest, groups⟩ := by
  induction text generalizing s with
  | nil => rfl
  | cons t ts ih =>
    show (run (char fun a => a.toLower = t) ⟨s, groups⟩).flatMap (icase ts r).run = _
    cases s with
    | nil => rfl
    | cons a s =>
      rw [run, after]
      by_cases ha : a.toLower = t
      · simp [ha, ih]
      · simp [ha]

/-! ### Texts that end a repetition -/

/-- No first character, or one that is not `p`. -/
def Stops (p : Char → Bool) (tail : List Char) : Prop := ∀ a, tail.head? = some a → p a = false

section
variable {p : Char → Bool} {tail : List Char}

theorem Stops.dropWhile (h : Stops p tail) : tail.dropWhile p = tail := by
  cases tail with
  | nil => rfl
  | cons a tail => simp [h a rfl]

theorem Stops.takeWhile (h : Stops p tail) : tail.takeWhile p = [] := by
  cases tail with
  | nil => rfl
  | cons a tail => simp [h a rfl]

theorem Stops.takeWhile_append (h : Stops p tail) (l : List Char) :
    (l ++ tail).takeWhile p = l.takeWhile p := by
  induction l with
  | nil => exact h.takeWhile
  | cons a l ih =>
    rw [List.cons_append, List.takeWhile_cons, List.takeWhile_cons, ih]

theorem Stops.dropWhile_append (h : Stops p tail) (l : List Char) :
    (l ++ tail).dropWhile p = l.dropWhile p ++ tail := by
  induction l with
  | nil => exact h.dropWhile
  | cons a l ih =>
    rw [List.cons_append, List.dropWhile_cons, List.dropWhile_cons, ih]
    split_ifs <;> rfl

theorem stops_dropWhile (p : Char → Bool) (text : List Char) : Stops p (text.dropWhile p) := by
  intro a ha
  have hhead := List.head?_dropWhile_not p text
  rw [ha] at hhead
  exact hhead

end

theorem take_sub_dropWhile (p : Char → Bool) (l : List Char) :
    l.take (l.length - (l.dropWhile p).length) = l.takeWhile p := by
  have hsplit : l.length = (l.takeWhile p).length + (l.dropWhile p).length := by
    rw [← List.length_append, List.takeWhile_append_dropWhile]
  have hlen : l.length - (l.dropWhile p).length = (l.takeWhile p).length := by omega
  rw [hlen]
  calc l.take (l.takeWhile p).length
      = (l.takeWhile p ++ l.dropWhile p).take (l.takeWhile p).length := by
        rw [List.takeWhile_append_dropWhile]
    _ = l.takeWhile p := List.take_left

/-- A text without the first character of `tail` is not read into it. -/
theorem after_append {text tail : List Char} (htail : ∀ a, tail.head? = some a → a.toLower ∉ text)
    (s : List Char) : after text (s ++ tail) = (after text s).map (· ++ tail) := by
  induction text generalizing s with
  | nil => rfl
  | cons t ts ih =>
    cases s with
    | nil =>
      cases tail with
      | nil => rfl
      | cons a tail =>
        have ha : a.toLower ≠ t := fun heq => htail a rfl (by simp [heq])
        simp [after, ha]
    | cons a s =>
      have hts : ∀ a, tail.head? = some a → a.toLower ∉ ts :=
        fun a ha hmem => htail a ha (List.mem_cons_of_mem t hmem)
      simp only [List.cons_append, after, ih hts s]
      split_ifs <;> rfl

end Regex
end GuppyScreen.Lib
