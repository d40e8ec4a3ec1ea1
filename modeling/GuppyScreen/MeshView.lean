import GuppyScreen.Lib.Rounding
import Mathlib.Algebra.Order.Ring.Abs
import Mathlib.Data.List.Basic
import Mathlib.Tactic.Ring
import Mathlib.Tactic.FieldSimp

/-!
# The bed mesh and its colours (mesh_view.cpp)

Heights are exact here, over any ordered field with a floor. What the view keeps
beside the mesh is the size of the canvas; the plot is to the right of the legend.
-/

namespace GuppyScreen
open Lib Rounding

structure MeshView (K : Type) where
  canvasW : ℤ
  canvasH : ℤ
  mesh : List (List K)
  zmin : K
  zmax : K
  zref : K

structure Rgb where
  r : ℤ
  g : ℤ
  b : ℤ
  deriving DecidableEq

namespace MeshView

def legendW : ℤ := 56

def palette : List Rgb :=
  [⟨0x31, 0x36, 0x95⟩, ⟨0x45, 0x75, 0xb4⟩, ⟨0x74, 0xad, 0xd1⟩, ⟨0xab, 0xd9, 0xe9⟩,
    ⟨0xe0, 0xf3, 0xf8⟩, ⟨0xff, 0xff, 0xbf⟩, ⟨0xfe, 0xe0, 0x90⟩, ⟨0xfd, 0xae, 0x61⟩,
    ⟨0xf4, 0x6d, 0x43⟩, ⟨0xd7, 0x30, 0x27⟩, ⟨0xa5, 0x00, 0x26⟩]

def paletteN : ℤ := 11

section
variable {K : Type}

def plotX0 (_ : MeshView K) : ℤ := legendW
def plotY0 (_ : MeshView K) : ℤ := 2
def plotX1 (v : MeshView K) : ℤ := v.canvasW - 3
def plotY1 (v : MeshView K) : ℤ := v.canvasH - 3

def rows (v : MeshView K) : ℕ := v.mesh.length
def cols (v : MeshView K) : ℕ := (v.mesh.headD []).length

/-- `mesh[r][c]`, of a point of the mesh. -/
def height [Zero K] (v : MeshView K) (r c : ℕ) : K := (v.mesh.getD r []).getD c 0

/-- The loop of `set_mesh`, for rows as long as the first. -/
def pushRows (cols : ℕ) : List (List K) → List (List K) → List (List K)
  | mesh, [] => mesh
  | mesh, row :: rest => if row.length ≠ cols then [] else pushRows cols (mesh ++ [row]) rest

def taken (m : List (List K)) : List (List K) :=
  match m with
  | [] => []
  | first :: _ => if first = [] then [] else pushRows first.length [] m

end

variable {K : Type} [Field K] [LinearOrder K]

def minScaleHalfRange : K := 1 / 20

def new (K : Type) [Field K] (w h : ℤ) : MeshView K := ⟨w, h, [], 0, 0, 0⟩

/-- `set_mesh` without the redraw. -/
def setMesh (m : List (List K)) (v : MeshView K) : MeshView K :=
  match taken m with
  | [] => { v with mesh := [], zmin := 0, zmax := 0, zref := 0 }
  | first :: rest =>
    let z0 := first.headD 0
    let zmin := (first :: rest).flatten.foldl min z0
    let zmax := (first :: rest).flatten.foldl max z0
    { v with
      mesh := first :: rest
      zmin := zmin
      zmax := zmax
      zref := max (max |zmin| |zmax|) minScaleHalfRange }

section
variable [FloorRing K]

def shadeOf (a b : ℤ) (f : K) : ℤ := trunc ((a : K) + (b - a) * f + half)

/-- `palette_rgb`, `none` where it would read outside the table. -/
def paletteRgb (t : K) : Option Rgb :=
  let t := if t < 0 then 0 else t
  let t := if 1 < t then 1 else t
  let p := t * (paletteN - 1 : ℤ)
  let i := if paletteN - 2 < trunc p then paletteN - 2 else trunc p
  if i < 0 then none
  else
    let f := p - i
    (palette[i.toNat]?).bind fun a =>
      (palette[i.toNat + 1]?).map fun b =>
        ⟨shadeOf a.r b.r f, shadeOf a.g b.g f, shadeOf a.b b.b f⟩

/-- Where `color_at` looks in the palette. -/
def position (v : MeshView K) (z : K) : K :=
  if 0 < v.zref then (z + v.zref) / ((2 : ℕ) * v.zref) else half

def colorAt (v : MeshView K) (z : K) : Option Rgb := paletteRgb (v.position z)

end

/-! ### What `set_mesh` leaves -/

omit [Field K] [LinearOrder K] in
theorem pushRows_eq (n : ℕ) (acc m : List (List K)) :
    pushRows n acc m = [] ∨ (pushRows n acc m = acc ++ m ∧ ∀ row ∈ m, row.length = n) := by
  induction m generalizing acc with
  | nil =>
    right
    simp [pushRows]
  | cons row rest ih =>
    rw [pushRows]
    split_ifs with hrow
    · left
      rfl
    · rcases ih (acc ++ [row]) with hnil | ⟨heq, hall⟩
      · left
        exact hnil
      · right
        refine ⟨by rw [heq, List.append_assoc]; rfl, ?_⟩
        intro r hr
        rcases List.mem_cons.mp hr with hr | hr
        · rw [hr]
          exact not_not.mp hrow
        · exact hall r hr

structure Rectangular (mesh : List (List K)) (n : ℕ) : Prop where
  nonempty : mesh ≠ []
  pos : 0 < n
  width : ∀ row ∈ mesh, row.length = n

omit [Field K] [LinearOrder K] in
theorem taken_rectangular {m : List (List K)} (h : taken m ≠ []) :
    taken m = m ∧ Rectangular m (m.headD []).length := by
  cases m with
  | nil => exact absurd rfl h
  | cons first rest =>
    by_cases hfirst : first = []
    · rw [taken, if_pos hfirst] at h
      exact absurd rfl h
    · rw [taken, if_neg hfirst] at h ⊢
      rcases pushRows_eq first.length [] (first :: rest) with hnil | ⟨heq, hall⟩
      · exact absurd hnil h
      · exact ⟨heq, List.cons_ne_nil _ _, List.length_pos_iff.mpr hfirst, hall⟩

omit [Field K] in
theorem foldl_min_le (l : List K) (z : K) : ∀ x ∈ z :: l, l.foldl min z ≤ x :=
  (List.le_min?_iff List.min?_cons').mp le_rfl

omit [Field K] in
theorem le_foldl_max (l : List K) (z : K) : ∀ x ∈ z :: l, x ≤ l.foldl max z :=
  (List.max?_le_iff List.max?_cons').mp le_rfl

structure Scaled (v : MeshView K) : Prop where
  rectangular : Rectangular v.mesh v.cols
  pos : 0 < v.zref
  within : ∀ row ∈ v.mesh, ∀ z ∈ row, |z| ≤ v.zref

theorem setMesh_mesh (m : List (List K)) (v : MeshView K) : (v.setMesh m).mesh = taken m := by
  unfold setMesh
  cases taken m with
  | nil => rfl
  | cons first rest => rfl

theorem setMesh_canvas (m : List (List K)) (v : MeshView K) :
    (v.setMesh m).canvasW = v.canvasW ∧ (v.setMesh m).canvasH = v.canvasH := by
  unfold setMesh
  cases taken m with
  | nil => exact ⟨rfl, rfl⟩
  | cons first rest => exact ⟨rfl, rfl⟩

section
variable [IsStrictOrderedRing K]

theorem setMesh_scaled {m : List (List K)} {v : MeshView K} (h : (v.setMesh m).mesh ≠ []) :
    (v.setMesh m).Scaled := by
  have hmesh := setMesh_mesh m v
  rw [hmesh] at h
  obtain ⟨htaken, hrect⟩ := taken_rectangular h
  have hpos : (0 : K) < minScaleHalfRange := by
    unfold minScaleHalfRange
    positivity
  constructor
  · rw [cols, hmesh, htaken]
    exact hrect
  · unfold setMesh
    cases ht : taken m with
    | nil => exact absurd ht h
    | cons first rest => exact lt_max_of_lt_right hpos
  · rw [hmesh]
    intro row hrow z hz
    unfold setMesh
    cases ht : taken m with
    | nil => exact absurd ht h
    | cons first rest =>
      rw [ht] at hrow
      have hflat : z ∈ (first :: rest).flatten := List.mem_flatten.mpr ⟨row, hrow, hz⟩
      have hlo := foldl_min_le (first :: rest).flatten
        (first.headD 0) z (List.mem_cons_of_mem _ hflat)
      have hhi := le_foldl_max (first :: rest).flatten
        (first.headD 0) z (List.mem_cons_of_mem _ hflat)
      exact (abs_le_max_abs_abs hlo hhi).trans (le_max_left _ _)

end

/-! ### The palette -/

section
variable [FloorRing K] [IsStrictOrderedRing K]

theorem position_mem {v : MeshView K} (hv : 0 < v.zref) {z : K} (hz : |z| ≤ v.zref) :
    0 ≤ v.position z ∧ v.position z ≤ 1 := by
  obtain ⟨hlo, hhi⟩ := abs_le.mp hz
  rw [position, if_pos hv, Nat.cast_ofNat]
  constructor
  · apply div_nonneg
    · linarith
    · linarith
  · rw [div_le_one (by linarith)]
    linarith

theorem paletteRgb_isSome (t : K) : ∃ c, paletteRgb t = some c := by
  have hlo : 0 ≤ if t < 0 then 0 else t := by
    split_ifs with h
    · exact le_rfl
    · exact not_lt.mp h
  unfold paletteRgb
  dsimp only
  generalize (if t < 0 then 0 else t) = s at hlo ⊢
  have hclamp : 0 ≤ if 1 < s then 1 else s := by
    split_ifs
    · exact zero_le_one
    · exact hlo
  generalize (if 1 < s then 1 else s) = u at hclamp ⊢
  have hp : 0 ≤ u * (paletteN - 1 : ℤ) := mul_nonneg hclamp (by norm_num [paletteN])
  have htrunc := trunc_nonneg hp
  generalize trunc (u * (paletteN - 1 : ℤ)) = i at htrunc ⊢
  have hin : ∀ j : ℤ, 0 ≤ j → j ≤ 9 → ∃ a b, palette[j.toNat]? = some a ∧
      palette[j.toNat + 1]? = some b := by
    intro j h0 h9
    have hlen : palette.length = 11 := rfl
    exact ⟨_, _, List.getElem?_eq_getElem (by omega), List.getElem?_eq_getElem (by omega)⟩
  have hcut : 0 ≤ (if paletteN - 2 < i then paletteN - 2 else i) ∧
      (if paletteN - 2 < i then paletteN - 2 else i) ≤ 9 := by
    unfold paletteN
    split_ifs <;> omega
  obtain ⟨a, b, ha, hb⟩ := hin _ hcut.1 hcut.2
  rw [if_neg (not_lt.mpr hcut.1), ha, hb]
  exact ⟨_, rfl⟩

end

end MeshView

end GuppyScreen
