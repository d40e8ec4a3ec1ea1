import Mathlib.Algebra.Order.Floor.Ring
import Mathlib.Algebra.Order.Field.Basic
import Mathlib.Tactic.FieldSimp
import Mathlib.Tactic.Linarith
import Mathlib.Tactic.Ring

/-!
# Bilinear interpolation on a grid

Samples `0 .. p` are spread evenly over the points `0 .. n - 1` of one axis. A sample
lies in a cell between a point and the next, at a fraction of it; the last sample is at
the end of the last cell. Over two axes the value is interpolated along the one and
then along the other.
-/

namespace GuppyScreen.Lib.Bilinear

variable {K : Type} [Field K] [LinearOrder K] [FloorRing K]

def lerp (a b t : K) : K := a * (1 - t) + b * t

/-- The place of sample `i` of `0 .. p` on an axis of `n` points. -/
def place (K : Type) [Field K] (n i p : ℕ) : K := if 1 < n then i / p * (n - 1 : ℕ) else 0

def cell (K : Type) [Field K] [LinearOrder K] [FloorRing K] (n i p : ℕ) : ℕ :=
  let c := ⌊place K n i p⌋.toNat
  if 1 < n ∧ n - 2 < c then n - 2 else c

/-- The point after `c`, the same one on an axis of a single point. -/
def next (n c : ℕ) : ℕ := if 1 < n then c + 1 else c

def frac (K : Type) [Field K] [LinearOrder K] [FloorRing K] (n i p : ℕ) : K :=
  place K n i p - cell K n i p

variable [IsStrictOrderedRing K] {n i p : ℕ}

/-! ### One axis -/

theorem place_nonneg : 0 ≤ place K n i p := by
  unfold place
  split_ifs
  · positivity
  · exact le_rfl

theorem place_le (h : i ≤ p) : place K n i p ≤ (n - 1 : ℕ) := by
  unfold place
  split_ifs
  · have hip : (i : K) / p ≤ 1 := div_le_one_of_le₀ (by exact_mod_cast h) (by positivity)
    exact mul_le_of_le_one_left (by positivity) hip
  · positivity

theorem cell_single (h : ¬ 1 < n) : cell K n i p = 0 := by
  simp [cell, place, h]

theorem cell_lt (hn : 0 < n) : cell K n i p < n ∧ next n (cell K n i p) < n := by
  by_cases h : 1 < n
  · simp only [next, if_pos h]
    unfold cell
    dsimp only
    split_ifs with hlast
    · omega
    · constructor <;> omega
  · rw [cell_single h, next, if_neg h]
    omega

theorem cell_le_place : (cell K n i p : K) ≤ place K n i p := by
  have hfloor : ((⌊place K n i p⌋.toNat : ℕ) : K) ≤ place K n i p := by
    have hint : ((⌊place K n i p⌋.toNat : ℕ) : ℤ) = ⌊place K n i p⌋ :=
      Int.toNat_of_nonneg (Int.floor_nonneg.mpr place_nonneg)
    have hle := Int.floor_le (place K n i p)
    rw [← hint, Int.cast_natCast] at hle
    exact hle
  unfold cell
  dsimp only
  split_ifs with hlast
  · have hcast : ((n - 2 : ℕ) : K) ≤ (⌊place K n i p⌋.toNat : ℕ) := by
      exact_mod_cast hlast.2.le
    exact hcast.trans hfloor
  · exact hfloor

theorem place_le_cell (h : i ≤ p) : place K n i p ≤ cell K n i p + 1 := by
  by_cases hn : 1 < n
  · unfold cell
    dsimp only
    split_ifs with hlast
    · have hle := place_le (K := K) (n := n) h
      have hcast : ((n - 1 : ℕ) : K) = ((n - 2 : ℕ) : K) + 1 := by
        have heq : n - 1 = n - 2 + 1 := by omega
        rw [heq, Nat.cast_add, Nat.cast_one]
      rwa [hcast] at hle
    · have hint : ((⌊place K n i p⌋.toNat : ℕ) : ℤ) = ⌊place K n i p⌋ :=
        Int.toNat_of_nonneg (Int.floor_nonneg.mpr place_nonneg)
      have hlt := Int.lt_floor_add_one (place K n i p)
      rw [← hint, Int.cast_natCast] at hlt
      exact hlt.le
  · rw [cell_single hn, place, if_neg hn]
    simp

theorem frac_mem (h : i ≤ p) : 0 ≤ frac K n i p ∧ frac K n i p ≤ 1 := by
  have hlo := cell_le_place (K := K) (n := n) (i := i) (p := p)
  have hhi := place_le_cell (K := K) (n := n) h
  unfold frac
  constructor <;> linarith

omit [FloorRing K] in
/-- Sample `i` falls on point `c`; on an axis of a single point every sample does. -/
theorem place_eq (hp : 0 < p) {c : ℕ} (hc : c < n) (h : i * (n - 1) = c * p) :
    place K n i p = c := by
  have hp' : (p : K) ≠ 0 := by exact_mod_cast hp.ne'
  have hcast : (i : K) * (n - 1 : ℕ) = c * p := by exact_mod_cast h
  rw [place]
  split_ifs
  · rw [div_mul_eq_mul_div, hcast, mul_div_assoc, div_self hp', mul_one]
  · have hzero : c = 0 := by omega
    rw [hzero, Nat.cast_zero]

/-- On a point the interpolation is the value there, from either side of it. -/
theorem lerp_of_place {c : ℕ} (hc : c < n) (h : place K n i p = c) (f : ℕ → K) :
    lerp (f (cell K n i p)) (f (next n (cell K n i p))) (frac K n i p) = f c := by
  have hfloor : ⌊place K n i p⌋.toNat = c := by
    rw [h, Int.floor_natCast, Int.toNat_natCast]
  by_cases hlast : 1 < n ∧ n - 2 < c
  · have hcell : cell K n i p = n - 2 := by
      simp only [cell, hfloor, if_pos hlast]
    have hnext : next n (n - 2) = c := by
      rw [next, if_pos hlast.1]
      omega
    have hfrac : frac K n i p = 1 := by
      have heq : c = n - 2 + 1 := by omega
      rw [frac, hcell, h, heq, Nat.cast_add, Nat.cast_one]
      ring
    rw [hcell, hnext, hfrac, lerp]
    ring
  · have hcell : cell K n i p = c := by
      simp only [cell, hfloor, if_neg hlast]
    have hfrac : frac K n i p = 0 := by
      rw [frac, hcell, h, sub_self]
    rw [hcell, hfrac, lerp]
    ring

/-! ### Bounds -/

omit [FloorRing K] in
theorem lerp_le {a b t z : K} (ht : 0 ≤ t ∧ t ≤ 1) (ha : a ≤ z) (hb : b ≤ z) : lerp a b t ≤ z := by
  have h1 : a * (1 - t) ≤ z * (1 - t) := mul_le_mul_of_nonneg_right ha (by linarith [ht.2])
  have h2 : b * t ≤ z * t := mul_le_mul_of_nonneg_right hb ht.1
  unfold lerp
  linarith

omit [FloorRing K] in
theorem le_lerp {a b t z : K} (ht : 0 ≤ t ∧ t ≤ 1) (ha : z ≤ a) (hb : z ≤ b) : z ≤ lerp a b t := by
  have h1 : z * (1 - t) ≤ a * (1 - t) := mul_le_mul_of_nonneg_right ha (by linarith [ht.2])
  have h2 : z * t ≤ b * t := mul_le_mul_of_nonneg_right hb ht.1
  unfold lerp
  linarith

end GuppyScreen.Lib.Bilinear
