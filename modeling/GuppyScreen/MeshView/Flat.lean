import GuppyScreen.Lib.Bilinear
import GuppyScreen.Lib.Traverse
import GuppyScreen.MeshView
import Mathlib.Algebra.Order.Field.Rat
import Mathlib.Data.List.ProdSigma
import Mathlib.Data.Rat.Floor

/-!
# The flat view (mesh_view.cpp)

`render_flat` interpolates the mesh over the plot, one pixel after the other. The first
row of the mesh is at the bottom. Every access to a vector is one that may fail here.
-/

namespace GuppyScreen.MeshView
open Lib Rounding Bilinear

structure Pixel where
  x : ℤ
  y : ℤ
  color : Rgb
  deriving DecidableEq

/-- The number written at a point of a small mesh, and the colour below it. -/
structure Label (K : Type) where
  x : ℤ
  y : ℤ
  z : K
  below : Rgb

section
variable {K : Type} (v : MeshView K)

def plotW : ℤ := v.plotX1 - v.plotX0
def plotH : ℤ := v.plotY1 - v.plotY0

/-- The last column and the last line of pixels. -/
def lastCol : ℕ := v.plotW.toNat
def lastLine : ℕ := v.plotH.toNat

def maxLabelledPoints : ℕ := 49
def labelW : ℤ := 34
def labelH : ℤ := 10

def pointX (c : ℕ) : ℤ :=
  v.plotX0 + ((if 1 < v.cols then v.lastCol * c / (v.cols - 1) else v.lastCol / 2 : ℕ) : ℤ)

def pointY (r : ℕ) : ℤ :=
  v.plotY1 - ((if 1 < v.rows then v.lastLine * r / (v.rows - 1) else v.lastLine / 2 : ℕ) : ℤ)

variable [Field K] [LinearOrder K] [FloorRing K]

def colIdx (i : ℕ) : ℕ := cell K v.cols i v.lastCol
def colFrac (i : ℕ) : K := frac K v.cols i v.lastCol
def rowIdx (j : ℕ) : ℕ := cell K v.rows (v.lastLine - j) v.lastLine
def rowFrac (j : ℕ) : K := frac K v.rows (v.lastLine - j) v.lastLine

/-- Along the columns of a row. -/
def across (row : List K) (i : ℕ) : Option K :=
  (row[v.colIdx i]?).bind fun a =>
    (row[next v.cols (v.colIdx i)]?).map fun b => lerp a b (v.colFrac i)

def valueAt (i j : ℕ) : Option K :=
  (v.mesh[v.rowIdx j]?).bind fun rowA =>
    (v.mesh[next v.rows (v.rowIdx j)]?).bind fun rowB =>
      (v.across rowA i).bind fun top =>
        (v.across rowB i).map fun bot => lerp top bot (v.rowFrac j)

def pixel (i j : ℕ) : Option Pixel :=
  (v.valueAt i j).bind fun z =>
    (v.colorAt z).map fun c => ⟨v.plotX0 + i, v.plotY0 + j, c⟩

def pixels : Option (List Pixel) :=
  (List.range (v.lastLine + 1) ×ˢ List.range (v.lastCol + 1)).mapM fun p => v.pixel p.2 p.1

def label (r c : ℕ) : Option (Label K) :=
  ((v.mesh[r]?).bind fun row => row[c]?).bind fun z =>
    (v.colorAt z).map fun below =>
      ⟨max v.plotX0 (min (v.pointX c - labelW / 2) (v.plotX1 - labelW)),
        max v.plotY0 (min (v.pointY r - labelH / 2) (v.plotY1 - labelH)), z, below⟩

def labels : Option (List (Label K)) :=
  if maxLabelledPoints < v.rows * v.cols then some []
  else (List.range v.rows ×ˢ List.range v.cols).mapM fun p => v.label p.1 p.2

/-- The calls of `set_px` in turn, and the labels. -/
def renderFlat : Option (List Pixel × List (Label K)) :=
  if v.plotW < 2 ∨ v.plotH < 2 then some ([], [])
  else v.pixels.bind fun ps => v.labels.map fun ls => (ps, ls)

end

/-! ### Interpolation -/

section
variable {K : Type} {v : MeshView K}

theorem row_of_lt [Field K] [LinearOrder K] (hv : Rectangular v.mesh v.cols) {r : ℕ}
    (hr : r < v.rows) :
    ∃ row, v.mesh[r]? = some row ∧ row ∈ v.mesh ∧ row.length = v.cols ∧
      ∀ c, c < v.cols → row[c]? = some (v.height r c) := by
  have hr' : r < v.mesh.length := hr
  have hget : v.mesh[r]? = some v.mesh[r] := List.getElem?_eq_getElem hr'
  have hmem : v.mesh[r] ∈ v.mesh := List.getElem_mem hr'
  have hlen := hv.width _ hmem
  have hrow : v.mesh.getD r [] = v.mesh[r] := by
    rw [List.getD_eq_getElem?_getD, hget]
    rfl
  refine ⟨_, hget, hmem, hlen, ?_⟩
  intro c hc
  rw [height, hrow, List.getD_eq_getElem?_getD, List.getElem?_eq_getElem (by omega)]
  rfl

theorem rows_pos (hv : Rectangular v.mesh v.cols) : 0 < v.rows :=
  List.length_pos_iff.mpr hv.nonempty

variable [Field K] [LinearOrder K] [FloorRing K] [IsStrictOrderedRing K]

theorem colIdx_lt (hv : Rectangular v.mesh v.cols) (i : ℕ) :
    v.colIdx i < v.cols ∧ next v.cols (v.colIdx i) < v.cols := cell_lt hv.pos

theorem rowIdx_lt (hv : Rectangular v.mesh v.cols) (j : ℕ) :
    v.rowIdx j < v.rows ∧ next v.rows (v.rowIdx j) < v.rows := cell_lt (rows_pos hv)

theorem rowFrac_mem (v : MeshView K) (j : ℕ) : 0 ≤ v.rowFrac j ∧ v.rowFrac j ≤ 1 :=
  frac_mem (Nat.sub_le _ _)

/-- Every access is in range, and this is what comes of it. -/
theorem valueAt_eq (hv : Rectangular v.mesh v.cols) (i j : ℕ) :
    v.valueAt i j = some (lerp
      (lerp (v.height (v.rowIdx j) (v.colIdx i))
        (v.height (v.rowIdx j) (next v.cols (v.colIdx i))) (v.colFrac i))
      (lerp (v.height (next v.rows (v.rowIdx j)) (v.colIdx i))
        (v.height (next v.rows (v.rowIdx j)) (next v.cols (v.colIdx i))) (v.colFrac i))
      (v.rowFrac j)) := by
  obtain ⟨hc0, hc1⟩ := colIdx_lt hv i
  obtain ⟨hr0, hr1⟩ := rowIdx_lt hv j
  obtain ⟨rowA, hA, _, _, hgetA⟩ := row_of_lt hv hr0
  obtain ⟨rowB, hB, _, _, hgetB⟩ := row_of_lt hv hr1
  simp only [valueAt, across, hA, hB, hgetA _ hc0, hgetA _ hc1, hgetB _ hc0, hgetB _ hc1,
    Option.bind_some, Option.map_some]

/-- The heights around a pixel. -/
def corners (v : MeshView K) (i j : ℕ) : List K :=
  [v.height (v.rowIdx j) (v.colIdx i), v.height (v.rowIdx j) (next v.cols (v.colIdx i)),
    v.height (next v.rows (v.rowIdx j)) (v.colIdx i),
    v.height (next v.rows (v.rowIdx j)) (next v.cols (v.colIdx i))]

theorem valueAt_between (hv : Rectangular v.mesh v.cols) {i : ℕ} (hi : i ≤ v.lastCol)
    (j : ℕ) {z : K}
    (hz : v.valueAt i j = some z) (lo hi' : K) (hlo : ∀ x ∈ v.corners i j, lo ≤ x)
    (hhi : ∀ x ∈ v.corners i j, x ≤ hi') : lo ≤ z ∧ z ≤ hi' := by
  have htc : 0 ≤ v.colFrac i ∧ v.colFrac i ≤ 1 := frac_mem hi
  have htr := rowFrac_mem v j
  rw [valueAt_eq hv, Option.some.injEq] at hz
  rw [← hz]
  simp only [corners, List.forall_mem_cons] at hlo hhi
  obtain ⟨h1, h2, h3, h4, _⟩ := hlo
  obtain ⟨k1, k2, k3, k4, _⟩ := hhi
  constructor
  · exact le_lerp htr (le_lerp htc h1 h2) (le_lerp htc h3 h4)
  · exact lerp_le htr (lerp_le htc k1 k2) (lerp_le htc k3 k4)

/-- A pixel falls on a column of the mesh; on one of a single column every pixel does. -/
def OnColumn (v : MeshView K) (i c : ℕ) : Prop := i * (v.cols - 1) = c * v.lastCol

/-- The same for the rows, counted from the bottom. -/
def OnRow (v : MeshView K) (j r : ℕ) : Prop := (v.lastLine - j) * (v.rows - 1) = r * v.lastLine

theorem valueAt_grid (hv : Rectangular v.mesh v.cols) (hw : 0 < v.lastCol) (hh : 0 < v.lastLine)
    {i j r c : ℕ} (hc : c < v.cols) (hr : r < v.rows) (hi : v.OnColumn i c) (hj : v.OnRow j r) :
    v.valueAt i j = some (v.height r c) := by
  have hcol : place K v.cols i v.lastCol = c := place_eq hw hc hi
  have hrow : place K v.rows (v.lastLine - j) v.lastLine = r := place_eq hh hr hj
  have hup := lerp_of_place hr hrow fun r => lerp (v.height r (v.colIdx i))
    (v.height r (next v.cols (v.colIdx i))) (v.colFrac i)
  have hacross := lerp_of_place hc hcol fun c => v.height r c
  rw [valueAt_eq hv]
  exact congrArg some (hup.trans hacross)

/-! ### The palette and the buffer -/

theorem corners_within (hv : v.Scaled) (i j : ℕ) : ∀ x ∈ v.corners i j, |x| ≤ v.zref := by
  have hrect := hv.rectangular
  have hheight : ∀ r c, r < v.rows → c < v.cols → |v.height r c| ≤ v.zref := by
    intro r c hr hc
    obtain ⟨row, _, hmem, _, hget⟩ := row_of_lt hrect hr
    exact hv.within row hmem _ (List.mem_of_getElem? (hget c hc))
  obtain ⟨hc0, hc1⟩ := colIdx_lt hrect i
  obtain ⟨hr0, hr1⟩ := rowIdx_lt hrect j
  simp only [corners, List.forall_mem_cons]
  exact ⟨hheight _ _ hr0 hc0, hheight _ _ hr0 hc1, hheight _ _ hr1 hc0, hheight _ _ hr1 hc1,
    fun _ hx => nomatch hx⟩

theorem valueAt_position (hv : v.Scaled) {i : ℕ} (hi : i ≤ v.lastCol) (j : ℕ) {z : K}
    (hz : v.valueAt i j = some z) : 0 ≤ v.position z ∧ v.position z ≤ 1 := by
  have hwithin := corners_within hv i j
  have hbetween := valueAt_between hv.rectangular hi j hz (-v.zref) v.zref
    (fun x hx => (abs_le.mp (hwithin x hx)).1) (fun x hx => (abs_le.mp (hwithin x hx)).2)
  exact position_mem hv.pos (abs_le.mpr hbetween)

theorem pixel_eq (hv : Rectangular v.mesh v.cols) (i j : ℕ) :
    ∃ z c, v.valueAt i j = some z ∧ v.colorAt z = some c ∧
      v.pixel i j = some ⟨v.plotX0 + i, v.plotY0 + j, c⟩ := by
  obtain ⟨c, hc⟩ := paletteRgb_isSome (v.position (lerp
    (lerp (v.height (v.rowIdx j) (v.colIdx i))
      (v.height (v.rowIdx j) (next v.cols (v.colIdx i))) (v.colFrac i))
    (lerp (v.height (next v.rows (v.rowIdx j)) (v.colIdx i))
      (v.height (next v.rows (v.rowIdx j)) (next v.cols (v.colIdx i))) (v.colFrac i))
    (v.rowFrac j)))
  refine ⟨_, c, valueAt_eq hv i j, hc, ?_⟩
  rw [pixel, valueAt_eq hv, Option.bind_some, colorAt, hc, Option.map_some]

theorem label_isSome (hv : Rectangular v.mesh v.cols) {r c : ℕ} (hr : r < v.rows)
    (hc : c < v.cols) :
    ∃ l, v.label r c = some l := by
  obtain ⟨row, hrow, _, _, hget⟩ := row_of_lt hv hr
  obtain ⟨below, hbelow⟩ := paletteRgb_isSome (v.position (v.height r c))
  simp only [label, hrow, Option.bind_some, hget c hc, colorAt, hbelow, Option.map_some]
  exact ⟨_, rfl⟩

theorem renderFlat_isSome (hv : Rectangular v.mesh v.cols) (hw : 2 ≤ v.plotW) (hh : 2 ≤ v.plotH) :
    ∃ ps ls, v.pixels = some ps ∧ v.renderFlat = some (ps, ls) := by
  have hpixels : ∃ ps, v.pixels = some ps := by
    apply Traverse.exists_mapM
    intro p _
    obtain ⟨z, c, _, _, hp⟩ := pixel_eq hv p.2 p.1
    exact ⟨_, hp⟩
  have hlabels : ∃ ls, v.labels = some ls := by
    unfold labels
    split_ifs
    · exact ⟨[], rfl⟩
    · apply Traverse.exists_mapM
      intro p hp
      obtain ⟨hr, hc⟩ := List.pair_mem_product.mp hp
      exact label_isSome hv (List.mem_range.mp hr) (List.mem_range.mp hc)
  obtain ⟨ps, hps⟩ := hpixels
  obtain ⟨ls, hls⟩ := hlabels
  refine ⟨ps, ls, hps, ?_⟩
  rw [renderFlat, if_neg (by omega), hps, hls]
  rfl

def lowest (v : MeshView K) (i j : ℕ) : K :=
  min (min (v.height (v.rowIdx j) (v.colIdx i)) (v.height (v.rowIdx j) (next v.cols (v.colIdx i))))
    (min (v.height (next v.rows (v.rowIdx j)) (v.colIdx i))
      (v.height (next v.rows (v.rowIdx j)) (next v.cols (v.colIdx i))))

def highest (v : MeshView K) (i j : ℕ) : K :=
  max (max (v.height (v.rowIdx j) (v.colIdx i)) (v.height (v.rowIdx j) (next v.cols (v.colIdx i))))
    (max (v.height (next v.rows (v.rowIdx j)) (v.colIdx i))
      (v.height (next v.rows (v.rowIdx j)) (next v.cols (v.colIdx i))))

/-- What the flat view shows of a mesh. -/
structure Interpolates (v : MeshView K) : Prop where
  columns : ∀ i, i ≤ v.lastCol → (v.colIdx i < v.cols ∧ next v.cols (v.colIdx i) < v.cols) ∧
    0 ≤ v.colFrac i ∧ v.colFrac i ≤ 1
  lines : ∀ j, j ≤ v.lastLine → (v.rowIdx j < v.rows ∧ next v.rows (v.rowIdx j) < v.rows) ∧
    0 ≤ v.rowFrac j ∧ v.rowFrac j ≤ 1
  drawn : ∃ ps ls, v.renderFlat = some (ps, ls) ∧
    ps.length = (v.lastLine + 1) * (v.lastCol + 1) ∧ ∀ p ∈ ps,
      (0 ≤ p.x ∧ p.x < v.canvasW) ∧ (0 ≤ p.y ∧ p.y < v.canvasH) ∧
        (0 ≤ p.y * v.canvasW + p.x ∧ p.y * v.canvasW + p.x < v.canvasW * v.canvasH) ∧
        ∃ i j z, i ≤ v.lastCol ∧ j ≤ v.lastLine ∧ p.x = v.plotX0 + i ∧ p.y = v.plotY0 + j ∧
          v.valueAt i j = some z ∧ v.colorAt z = some p.color
  between : ∀ i j, i ≤ v.lastCol → j ≤ v.lastLine →
    ∃ z, v.valueAt i j = some z ∧ v.lowest i j ≤ z ∧ z ≤ v.highest i j ∧
      0 ≤ v.position z ∧ v.position z ≤ 1
  onGrid : ∀ i j r c row z, i ≤ v.lastCol → j ≤ v.lastLine → v.OnColumn i c → v.OnRow j r →
    v.mesh[r]? = some row → row[c]? = some z → v.valueAt i j = some z

theorem inBuffer {x y w h : ℤ} (hx : 0 ≤ x) (hxw : x < w) (hy : 0 ≤ y) (hyh : y < h) :
    0 ≤ y * w + x ∧ y * w + x < w * h := by
  constructor
  · have hmul : 0 ≤ y * w := mul_nonneg hy (by omega)
    omega
  · have hmul : (y + 1) * w ≤ h * w := mul_le_mul_of_nonneg_right (by omega) (by omega)
    rw [add_mul, one_mul, mul_comm h w] at hmul
    omega

theorem interpolates (hv : v.Scaled) (hw : 2 ≤ v.plotW) (hh : 2 ≤ v.plotH) : v.Interpolates := by
  have hrect := hv.rectangular
  constructor
  · intro i hi
    exact ⟨colIdx_lt hrect i, frac_mem hi⟩
  · intro j _
    exact ⟨rowIdx_lt hrect j, rowFrac_mem v j⟩
  · obtain ⟨ps, ls, hps, hrender⟩ := renderFlat_isSome hrect hw hh
    obtain ⟨hlen, hmem⟩ := Traverse.of_mapM hps
    rw [List.length_product, List.length_range, List.length_range] at hlen
    refine ⟨ps, ls, hrender, hlen, ?_⟩
    intro p hp
    obtain ⟨x, hx, hpixel⟩ := hmem p hp
    obtain ⟨hj, hi⟩ := List.pair_mem_product.mp hx
    rw [List.mem_range] at hj hi
    obtain ⟨z, c, hz, hc, hat⟩ := pixel_eq hrect x.2 x.1
    rw [hat, Option.some.injEq] at hpixel
    have hinx : 0 ≤ p.x ∧ p.x < v.canvasW := by
      rw [← hpixel]
      simp only [lastCol, plotW, plotX0, plotX1, legendW] at hi hw ⊢
      omega
    have hiny : 0 ≤ p.y ∧ p.y < v.canvasH := by
      rw [← hpixel]
      simp only [lastLine, plotH, plotY0, plotY1] at hj hh ⊢
      omega
    refine ⟨hinx, hiny, inBuffer hinx.1 hinx.2 hiny.1 hiny.2, x.2, x.1, z, by omega, by omega, ?_⟩
    rw [← hpixel]
    exact ⟨rfl, rfl, hz, hc⟩
  · intro i j hi _
    have hz := valueAt_eq hrect i j
    have hbetween := valueAt_between hrect hi j hz (v.lowest i j) (v.highest i j)
      (by simp [corners, lowest]) (by simp [corners, highest])
    exact ⟨_, hz, hbetween.1, hbetween.2, valueAt_position hv hi j hz⟩
  · intro i j r c row z _ _ hcol hrow hget hz
    have hr : r < v.rows := (List.getElem?_eq_some_iff.mp hget).1
    obtain ⟨row', hrow', _, hlen, heights⟩ := row_of_lt hrect hr
    rw [hget, Option.some.injEq] at hrow'
    have hc : c < v.cols := by
      rw [← hlen, ← hrow']
      exact (List.getElem?_eq_some_iff.mp hz).1
    have hheight := heights c hc
    rw [← hrow', hz] at hheight
    rw [hheight]
    apply valueAt_grid hrect _ _ hc hr hcol hrow
    · simp only [lastCol]
      omega
    · simp only [lastLine]
      omega

end

/-- Of any matrix and any view: what is left is all of it. -/
theorem flat_view_interpolates (m : List (List ℚ)) (v : MeshView ℚ)
    (hmesh : (v.setMesh m).mesh ≠ [])
    (hw : 2 ≤ v.plotW) (hh : 2 ≤ v.plotH) :
    (v.setMesh m).mesh = m ∧ (v.setMesh m).Interpolates := by
  obtain ⟨hwidth, hheight⟩ := setMesh_canvas m v
  constructor
  · have htaken := setMesh_mesh m v
    rw [htaken] at hmesh
    rw [htaken]
    exact (taken_rectangular hmesh).1
  · apply interpolates (setMesh_scaled hmesh)
    · rw [plotW, plotX1, hwidth]
      exact hw
    · rw [plotH, plotY1, hheight]
      exact hh

/-- Two rows of three points on a plot of 5 by 3 pixels. -/
theorem flat_view_of_two_rows :
    ((new ℚ 63 7).setMesh [[0, 1 / 10, 3 / 10], [2 / 10, 4 / 10, -1 / 10]]).valueAt 2 1 =
      some (1 / 4) ∧
      ((new ℚ 63 7).setMesh [[0, 1 / 10, 3 / 10], [2 / 10, 4 / 10, -1 / 10]]).mesh =
        [[0, 1 / 10, 3 / 10], [2 / 10, 4 / 10, -1 / 10]] ∧
      ((new ℚ 63 7).setMesh [[0, 1 / 10, 3 / 10], [2 / 10, 4 / 10, -1 / 10]]).Interpolates :=
  ⟨by decide +kernel, flat_view_interpolates _ (new ℚ 63 7) (by decide +kernel) (by decide)
    (by decide)⟩

end GuppyScreen.MeshView
