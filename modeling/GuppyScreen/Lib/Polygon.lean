import Mathlib.Data.List.Rotate
import Mathlib.Tactic.Linarith
import Mathlib.Tactic.Ring

/-!
# Polygons of whole pixels

The side of an edge a point is on is the sign of a cross product. A polygon is convex,
for a renderer that walks its two chains, when all of it is on one side of every edge;
points may coincide and lie on a line.
-/

namespace GuppyScreen.Lib

structure Point where
  x : ℤ
  y : ℤ
  deriving DecidableEq

namespace Polygon

/-- Of the edge from `a` to `b` and the next from `b` to `c`. -/
def cross (a b c : Point) : ℤ := (b.x - a.x) * (c.y - b.y) - (b.y - a.y) * (c.x - b.x)

/-- Each vertex with the next, the last with the first. -/
def edges (l : List Point) : List (Point × Point) := l.zip (l.rotate 1)

def Convex (l : List Point) : Prop :=
  ∀ e ∈ edges l, (∀ v ∈ l, 0 ≤ cross e.1 e.2 v) ∨ ∀ v ∈ l, cross e.1 e.2 v ≤ 0

theorem cross_first (a b : Point) : cross a b a = 0 := by
  unfold cross
  ring

theorem cross_second (a b : Point) : cross a b b = 0 := by
  unfold cross
  ring

theorem cross_rotate (a b c : Point) : cross b c a = cross a b c := by
  unfold cross
  ring

theorem convex_triangle (a b c : Point) : Convex [a, b, c] := by
  have hbca := cross_rotate a b c
  have hcab := cross_rotate b c a
  have hab := cross_first a b
  have hab' := cross_second a b
  have hbc := cross_first b c
  have hbc' := cross_second b c
  have hca := cross_first c a
  have hca' := cross_second c a
  unfold Convex
  show ∀ e ∈ [(a, b), (b, c), (c, a)], _
  simp only [List.forall_mem_cons, List.not_mem_nil, false_implies, implies_true, and_true]
  rcases le_total 0 (cross a b c) with h | h
  · exact ⟨.inl (by omega), .inl (by omega), .inl (by omega)⟩
  · exact ⟨.inr (by omega), .inr (by omega), .inr (by omega)⟩

/-- The corners of a quadrilateral turn one way. -/
def OneWay (a b c d : Point) : Prop :=
  (0 ≤ cross a b c ∧ 0 ≤ cross b c d ∧ 0 ≤ cross c d a ∧ 0 ≤ cross d a b) ∨
    (cross a b c ≤ 0 ∧ cross b c d ≤ 0 ∧ cross c d a ≤ 0 ∧ cross d a b ≤ 0)

/-- Seen from an edge the two vertices off it are at the corners at its ends. -/
theorem convex_quad {a b c d : Point} (h : OneWay a b c d) : Convex [a, b, c, d] := by
  have hfirst := cross_first
  have hsecond := cross_second
  have habd : cross a b d = cross d a b := cross_rotate d a b
  have hbca : cross b c a = cross a b c := cross_rotate a b c
  have hcdb : cross c d b = cross b c d := cross_rotate b c d
  have hdac : cross d a c = cross c d a := cross_rotate c d a
  unfold Convex
  show ∀ e ∈ [(a, b), (b, c), (c, d), (d, a)], _
  simp only [List.forall_mem_cons, List.not_mem_nil, false_implies, implies_true, and_true, hfirst,
    hsecond, habd, hbca, hcdb, hdac]
  unfold OneWay at h
  omega

/-- The check of the corners in turn, with the way found so far. -/
def sameWay (way : ℤ) : List ℤ → Bool
  | [] => true
  | c :: rest =>
    if c = 0 then sameWay way rest
    else
      let s := if 0 < c then 1 else -1
      if way = 0 then sameWay s rest else if s ≠ way then false else sameWay way rest

theorem sameWay_signed {way : ℤ} (hway : way = 1 ∨ way = -1) {l : List ℤ}
    (h : sameWay way l = true) : ∀ c ∈ l, 0 ≤ way * c := by
  induction l with
  | nil => exact fun _ hc => nomatch hc
  | cons c rest ih =>
    rw [sameWay] at h
    rw [List.forall_mem_cons]
    by_cases hc : c = 0
    · rw [if_pos hc] at h
      exact ⟨by rw [hc, mul_zero], ih h⟩
    · have hne : way ≠ 0 := by omega
      rw [if_neg hc] at h
      dsimp only at h
      rw [if_neg hne] at h
      by_cases hs : (if 0 < c then (1 : ℤ) else -1) = way
      · rw [if_neg (not_not.mpr hs)] at h
        refine ⟨?_, ih h⟩
        rw [← hs]
        split_ifs with hpos <;> omega
      · rw [if_pos hs] at h
        cases h

theorem sameWay_zero {l : List ℤ} (h : sameWay 0 l = true) : (∀ c ∈ l, 0 ≤ c) ∨ ∀ c ∈ l, c ≤ 0 := by
  induction l with
  | nil => exact .inl fun _ hc => nomatch hc
  | cons c rest ih =>
    rw [sameWay] at h
    simp only [List.forall_mem_cons]
    by_cases hc : c = 0
    · rw [if_pos hc] at h
      exact (ih h).imp (⟨hc.ge, ·⟩) (⟨hc.le, ·⟩)
    · rw [if_neg hc] at h
      dsimp only at h
      rw [if_pos rfl] at h
      by_cases hpos : 0 < c
      · rw [if_pos hpos] at h
        have hrest := sameWay_signed (.inl rfl) h
        exact .inl ⟨hpos.le, fun d hd => by linarith [hrest d hd]⟩
      · rw [if_neg hpos] at h
        have hrest := sameWay_signed (.inr rfl) h
        exact .inr ⟨not_lt.mp hpos, fun d hd => by linarith [hrest d hd]⟩

end Polygon

end GuppyScreen.Lib
