import Mathlib.Algebra.Field.Basic
import Mathlib.Tactic.FieldSimp
import Mathlib.Tactic.LinearCombination
import Mathlib.Tactic.Ring

/-!
# Affine functions of the plane

An affine function is known by its values at three points that are not on one line.
-/

namespace GuppyScreen.Lib

structure PlanePoint (K : Type) where
  x : K
  y : K
  deriving DecidableEq

structure Affine (K : Type) where
  a : K
  b : K
  c : K
  deriving DecidableEq

namespace Affine

variable {K : Type} [Field K]

def eval (l : Affine K) (p : PlanePoint K) : K := p.x * l.a + p.y * l.b + l.c

/-- Twice the signed area of a triangle. -/
def area (p q r : PlanePoint K) : K := (q.x - p.x) * (r.y - p.y) - (r.x - p.x) * (q.y - p.y)

theorem eq_of_eval {l m : Affine K} {p q r : PlanePoint K} (h : area p q r ≠ 0)
    (hp : l.eval p = m.eval p) (hq : l.eval q = m.eval q) (hr : l.eval r = m.eval r) : l = m := by
  unfold eval at hp hq hr
  unfold area at h
  have ha : (l.a - m.a) * ((q.x - p.x) * (r.y - p.y) - (r.x - p.x) * (q.y - p.y)) = 0 := by
    linear_combination (r.y - p.y) * (hq - hp) - (q.y - p.y) * (hr - hp)
  have hb : (l.b - m.b) * ((q.x - p.x) * (r.y - p.y) - (r.x - p.x) * (q.y - p.y)) = 0 := by
    linear_combination (q.x - p.x) * (hr - hp) - (r.x - p.x) * (hq - hp)
  have hla : l.a = m.a := sub_eq_zero.mp ((mul_eq_zero.mp ha).resolve_right h)
  have hlb : l.b = m.b := sub_eq_zero.mp ((mul_eq_zero.mp hb).resolve_right h)
  have hlc : l.c = m.c := by
    rw [hla, hlb] at hp
    exact add_left_cancel hp
  cases l
  cases m
  simp only [Affine.mk.injEq]
  exact ⟨hla, hlb, hlc⟩

end Affine

end GuppyScreen.Lib
