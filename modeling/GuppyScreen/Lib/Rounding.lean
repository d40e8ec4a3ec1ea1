import Mathlib.Algebra.Order.Floor.Ring
import Mathlib.Algebra.Order.Field.Basic
import Mathlib.Tactic.Linarith

/-!
# Rounding to integers

The conversions of C to an integer type, over an ordered field with a floor.
-/

namespace GuppyScreen.Lib.Rounding

variable {K : Type} [Field K] [LinearOrder K] [FloorRing K]

def half : K := 1 / 2

/-- A cast, which drops the fraction. -/
def trunc (x : K) : ℤ := if 0 ≤ x then ⌊x⌋ else ⌈x⌉

/-- `std::lround`: to the nearest integer, halves away from zero. -/
def lround (x : K) : ℤ := if 0 ≤ x then ⌊x + half⌋ else ⌈x - half⌉

theorem trunc_of_nonneg {x : K} (h : 0 ≤ x) : trunc x = ⌊x⌋ := if_pos h

theorem trunc_nonneg {x : K} (h : 0 ≤ x) : 0 ≤ trunc x := by
  rw [trunc_of_nonneg h]
  exact Int.floor_nonneg.mpr h

variable [IsStrictOrderedRing K]

theorem lround_near (x : K) : x - 1 / 2 ≤ lround x ∧ lround x ≤ x + 1 / 2 := by
  unfold lround half
  split_ifs
  · have hlo := Int.lt_floor_add_one (x + 1 / 2)
    have hhi := Int.floor_le (x + 1 / 2)
    constructor <;> linarith
  · have hlo := Int.le_ceil (x - 1 / 2)
    have hhi := Int.ceil_lt_add_one (x - 1 / 2)
    constructor <;> linarith

theorem le_lround {x : K} {m : ℤ} (h : (m : K) ≤ x) : m ≤ lround x := by
  have hnear := (lround_near x).1
  have hlt : ((m - 1 : ℤ) : K) < (lround x : K) := by
    rw [Int.cast_sub, Int.cast_one]
    linarith
  have hint := Int.cast_lt.mp hlt
  omega

theorem lround_le {x : K} {m : ℤ} (h : x ≤ (m : K)) : lround x ≤ m := by
  have hnear := (lround_near x).2
  have hlt : (lround x : K) < ((m + 1 : ℤ) : K) := by
    rw [Int.cast_add, Int.cast_one]
    linarith
  have hint := Int.cast_lt.mp hlt
  omega

end GuppyScreen.Lib.Rounding
