import GuppyScreen.Lib.Polygon
import GuppyScreen.MeshView
import Mathlib.Algebra.Order.Archimedean.Real.Basic
import Mathlib.Data.List.ProdSigma

/-!
# The surface view (mesh_view.cpp)

`render_surface` projects the mesh, fits it into the plot and hands LVGL a polygon or
two for each cell. The sines and cosines of the camera may be any numbers. The colours
of the polygons are left out.
-/

namespace GuppyScreen.MeshView
open Lib Rounding Polygon

structure Angles (K : Type) where
  sinYaw : K
  cosYaw : K
  sinElev : K
  cosElev : K

structure Projected (K : Type) where
  x : K
  y : K
  depth : K

/-- The scale and the offset of `Camera`. -/
structure Fit (K : Type) where
  scale : K
  offX : K
  offY : K

structure Quad (K : Type) where
  r : ℕ
  c : ℕ
  depth : K

/-- What `std::sort` does with a comparison. The order of equal elements is open. -/
structure QuadSort (K : Type) where
  sort : (Quad K → Quad K → Bool) → List (Quad K) → List (Quad K)
  perm : ∀ less l, (sort less l).Perm l

/-- `is_convex_quad`, with the arithmetic of its cross products. -/
def isConvexQuad (cross : Point → Point → Point → ℤ) (a b c d : Point) : Bool :=
  sameWay 0 [cross a b c, cross b c d, cross c d a, cross d a b]

/-- The cross product as `int32_t` forms it. -/
def cross32 (a b c : Point) : ℤ :=
  Int.bmod (Int.bmod ((b.x - a.x) * (c.y - b.y)) (2 ^ 32) -
    Int.bmod ((b.y - a.y) * (c.x - b.x)) (2 ^ 32)) (2 ^ 32)

section
variable {K : Type} [Field K] [LinearOrder K] (v : MeshView K) (ang : Angles K)

def heightSpan : K := 35 / 100

def worldX (c : ℕ) : K := if 1 < v.cols then -1 + (2 : ℕ) * c / (v.cols - 1 : ℕ) else 0
def worldY (r : ℕ) : K := if 1 < v.rows then -1 + (2 : ℕ) * r / (v.rows - 1 : ℕ) else 0
def worldZ (r c : ℕ) : K := if 0 < v.zref then v.height r c / v.zref * heightSpan else 0

/-- A point before it is fitted to the plot. -/
def seen (r c : ℕ) : Projected K :=
  let xa := -v.worldX c * ang.sinYaw + v.worldY r * ang.cosYaw
  let ya := v.worldX c * ang.cosYaw + v.worldY r * ang.sinYaw
  { x := xa
    y := ya * ang.sinElev - v.worldZ r c * ang.cosElev
    depth := ya * ang.cosElev + v.worldZ r c * ang.sinElev }

def points : List (ℕ × ℕ) := List.range v.rows ×ˢ List.range v.cols

def least (f : ℕ × ℕ → K) : K := (v.points.map f).foldl min (10 ^ 30)
def greatest (f : ℕ × ℕ → K) : K := (v.points.map f).foldl max (-10 ^ 30)

def seenX (p : ℕ × ℕ) : K := (v.seen ang p.1 p.2).x
def seenY (p : ℕ × ℕ) : K := (v.seen ang p.1 p.2).y

/-- The extent of the points along an axis, as it is divided by. -/
def extent (f : ℕ × ℕ → K) : K := max (v.greatest f - v.least f) (1 / 10 ^ 6)

def fit : Fit K :=
  let pw : K := (v.plotX1 - v.plotX0 : ℤ)
  let ph : K := (v.plotY1 - v.plotY0 : ℤ)
  let scale := min (pw / v.extent (v.seenX ang)) (ph / v.extent (v.seenY ang)) * (94 / 100)
  { scale := scale
    offX := ((v.plotX0 : K) + v.plotX1) / (2 : ℕ) -
      (v.least (v.seenX ang) + v.greatest (v.seenX ang)) / (2 : ℕ) * scale
    offY := ((v.plotY0 : K) + v.plotY1) / (2 : ℕ) -
      (v.least (v.seenY ang) + v.greatest (v.seenY ang)) / (2 : ℕ) * scale }

def project (r c : ℕ) : Projected K :=
  let p := v.seen ang r c
  { p with
    x := (v.fit ang).offX + p.x * (v.fit ang).scale
    y := (v.fit ang).offY + p.y * (v.fit ang).scale }

/-- The quads in grid order, and then back to front. -/
def quads : List (Quad K) :=
  (List.range (v.rows - 1) ×ˢ List.range (v.cols - 1)).map fun p =>
    ⟨p.1, p.2, ((v.project ang p.1 p.2).depth + (v.project ang p.1 (p.2 + 1)).depth +
      (v.project ang (p.1 + 1) p.2).depth + (v.project ang (p.1 + 1) (p.2 + 1)).depth) / 4⟩

variable [FloorRing K]

-- `lv_coord_t` holds every place inside the plot, and the points are inside.
def pointAt (r c : ℕ) : Point := ⟨lround (v.project ang r c).x, lround (v.project ang r c).y⟩

/-- The calls of `lv_canvas_draw_polygon` for a quad. -/
def quadPolygons (cross : Point → Point → Point → ℤ) (r c : ℕ) : List (List Point) :=
  let p0 := v.pointAt ang r c
  let p1 := v.pointAt ang r (c + 1)
  let p2 := v.pointAt ang (r + 1) (c + 1)
  let p3 := v.pointAt ang (r + 1) c
  if isConvexQuad cross p0 p1 p2 p3 then [[p0, p1, p2, p3]] else [[p0, p1, p2], [p0, p2, p3]]

/-- All of them, in turn; a mesh without quads is drawn flat. -/
def polygons (cross : Point → Point → Point → ℤ) (sort : QuadSort K) : List (List Point) :=
  if v.rows < 2 ∨ v.cols < 2 then []
  else (sort.sort (fun a b => decide (a.depth < b.depth)) (v.quads ang)).flatMap fun q =>
    v.quadPolygons ang cross q.r q.c

end

/-! ### The fit -/

section
variable {K : Type} [Field K] [LinearOrder K] [IsStrictOrderedRing K]

/-- A place between the bounds ends up between the ends of the plot. -/
theorem fit_mem {lo hi x scale d a b : K} (hlo : lo ≤ x) (hhi : x ≤ hi) (hd : hi - lo ≤ d)
    (hs : 0 ≤ scale) (hfit : scale * d ≤ b - a) :
    a ≤ (a + b) / 2 - (lo + hi) / 2 * scale + x * scale ∧
      (a + b) / 2 - (lo + hi) / 2 * scale + x * scale ≤ b := by
  have hspan : scale * (hi - lo) ≤ b - a := (mul_le_mul_of_nonneg_left hd hs).trans hfit
  have hleft : scale * lo ≤ scale * x := mul_le_mul_of_nonneg_left hlo hs
  have hright : scale * x ≤ scale * hi := mul_le_mul_of_nonneg_left hhi hs
  have hmid : (a + b) / 2 - (lo + hi) / 2 * scale + x * scale =
      (a + b) / 2 + (scale * x - scale * lo) / 2 - (scale * hi - scale * x) / 2 := by ring
  have hsplit : scale * (hi - lo) = (scale * x - scale * lo) + (scale * hi - scale * x) := by ring
  rw [hmid]
  constructor <;> linarith

variable {v : MeshView K}

omit [IsStrictOrderedRing K] in
theorem least_le {r c : ℕ} (hr : r < v.rows) (hc : c < v.cols) (f : ℕ × ℕ → K) :
    v.least f ≤ f (r, c) ∧ f (r, c) ≤ v.greatest f := by
  have hmem : f (r, c) ∈ v.points.map f := by
    apply List.mem_map_of_mem
    exact List.pair_mem_product.mpr ⟨List.mem_range.mpr hr, List.mem_range.mpr hc⟩
  exact ⟨foldl_min_le _ _ _ (List.mem_cons_of_mem _ hmem),
    le_foldl_max _ _ _ (List.mem_cons_of_mem _ hmem)⟩

theorem extent_pos (f : ℕ × ℕ → K) : 0 < v.extent f := by
  apply lt_max_of_lt_right
  positivity

theorem scale_fits (ang : Angles K) (hw : v.plotX0 < v.plotX1) (hh : v.plotY0 < v.plotY1) :
    0 ≤ (v.fit ang).scale ∧
      (v.fit ang).scale * v.extent (v.seenX ang) ≤ (v.plotX1 : K) - v.plotX0 ∧
      (v.fit ang).scale * v.extent (v.seenY ang) ≤ (v.plotY1 : K) - v.plotY0 := by
  have hw' : (0 : K) < (v.plotX1 - v.plotX0 : ℤ) := by
    exact_mod_cast sub_pos.mpr hw
  have hh' : (0 : K) < (v.plotY1 - v.plotY0 : ℤ) := by
    exact_mod_cast sub_pos.mpr hh
  have hx := extent_pos (v := v) (v.seenX ang)
  have hy := extent_pos (v := v) (v.seenY ang)
  have hfx := div_pos hw' hx
  have hfy := div_pos hh' hy
  have hscale : (v.fit ang).scale = min (((v.plotX1 - v.plotX0 : ℤ) : K) / v.extent (v.seenX ang))
      (((v.plotY1 - v.plotY0 : ℤ) : K) / v.extent (v.seenY ang)) * (94 / 100) := rfl
  have hnonneg : 0 ≤ (v.fit ang).scale := by
    rw [hscale]
    exact mul_nonneg (le_min hfx.le hfy.le) (by norm_num)
  have hsx : (v.fit ang).scale ≤ ((v.plotX1 - v.plotX0 : ℤ) : K) / v.extent (v.seenX ang) := by
    rw [hscale]
    exact (mul_le_of_le_one_right (le_min hfx.le hfy.le) (by norm_num)).trans (min_le_left _ _)
  have hsy : (v.fit ang).scale ≤ ((v.plotY1 - v.plotY0 : ℤ) : K) / v.extent (v.seenY ang) := by
    rw [hscale]
    exact (mul_le_of_le_one_right (le_min hfx.le hfy.le) (by norm_num)).trans (min_le_right _ _)
  rw [le_div_iff₀ hx, Int.cast_sub] at hsx
  rw [le_div_iff₀ hy, Int.cast_sub] at hsy
  exact ⟨hnonneg, hsx, hsy⟩

variable [FloorRing K]

structure InPlot (v : MeshView K) (p : Point) : Prop where
  left : v.plotX0 ≤ p.x
  right : p.x ≤ v.plotX1
  top : v.plotY0 ≤ p.y
  bottom : p.y ≤ v.plotY1

theorem pointAt_inPlot (ang : Angles K) (hw : v.plotX0 < v.plotX1) (hh : v.plotY0 < v.plotY1)
    {r c : ℕ}
    (hr : r < v.rows) (hc : c < v.cols) : v.InPlot (v.pointAt ang r c) := by
  obtain ⟨hs, hsx, hsy⟩ := scale_fits ang hw hh
  obtain ⟨hxlo, hxhi⟩ := least_le hr hc (v.seenX ang)
  obtain ⟨hylo, hyhi⟩ := least_le hr hc (v.seenY ang)
  obtain ⟨hleft, hright⟩ := fit_mem hxlo hxhi (le_max_left _ _) hs hsx
  obtain ⟨htop, hbottom⟩ := fit_mem hylo hyhi (le_max_left _ _) hs hsy
  exact ⟨le_lround hleft, lround_le hright, le_lround htop, lround_le hbottom⟩

/-! ### The polygons -/

theorem oneWay_of_isConvexQuad {a b c d : Point} (h : isConvexQuad cross a b c d = true) :
    OneWay a b c d := by
  have hsigns := sameWay_zero h
  simp only [List.forall_mem_cons, List.not_mem_nil, false_implies, implies_true,
    and_true] at hsigns
  exact hsigns

theorem quadPolygons_ok (ang : Angles K) (hw : v.plotX0 < v.plotX1) (hh : v.plotY0 < v.plotY1)
    {r c : ℕ} (hr : r + 1 < v.rows) (hc : c + 1 < v.cols) :
    ∀ poly ∈ v.quadPolygons ang cross r c,
      (∀ p ∈ poly, v.InPlot p) ∧ (poly.length = 3 ∨ poly.length = 4) ∧ Convex poly := by
  have h0 := pointAt_inPlot ang hw hh (Nat.lt_of_succ_lt hr) (Nat.lt_of_succ_lt hc)
  have h1 := pointAt_inPlot ang hw hh (Nat.lt_of_succ_lt hr) hc
  have h2 := pointAt_inPlot ang hw hh hr hc
  have h3 := pointAt_inPlot ang hw hh hr (Nat.lt_of_succ_lt hc)
  unfold quadPolygons
  dsimp only
  generalize v.pointAt ang r c = p0 at *
  generalize v.pointAt ang r (c + 1) = p1 at *
  generalize v.pointAt ang (r + 1) (c + 1) = p2 at *
  generalize v.pointAt ang (r + 1) c = p3 at *
  split_ifs with hconvex
  · intro poly hpoly
    rw [List.mem_singleton] at hpoly
    rw [hpoly]
    refine ⟨?_, .inr rfl, convex_quad (oneWay_of_isConvexQuad hconvex)⟩
    simp [h0, h1, h2, h3]
  · intro poly hpoly
    rw [List.mem_cons, List.mem_singleton] at hpoly
    rcases hpoly with hpoly | hpoly
    · rw [hpoly]
      refine ⟨?_, .inl rfl, convex_triangle p0 p1 p2⟩
      simp [h0, h1, h2]
    · rw [hpoly]
      refine ⟨?_, .inl rfl, convex_triangle p0 p2 p3⟩
      simp [h0, h2, h3]

omit [IsStrictOrderedRing K] [FloorRing K] in
theorem mem_sorted (ang : Angles K) (sort : QuadSort K) {less : Quad K → Quad K → Bool} {q : Quad K}
    (hq : q ∈ sort.sort less (v.quads ang)) : q.r + 1 < v.rows ∧ q.c + 1 < v.cols := by
  obtain ⟨p, hp, hpq⟩ := List.mem_map.mp ((sort.perm less _).mem_iff.mp hq)
  obtain ⟨hr, hc⟩ := List.pair_mem_product.mp hp
  rw [List.mem_range] at hr hc
  rw [← hpq]
  constructor
  · show p.1 + 1 < v.rows
    omega
  · show p.2 + 1 < v.cols
    omega

theorem polygons_ok (ang : Angles K) (hw : v.plotX0 < v.plotX1) (hh : v.plotY0 < v.plotY1)
    (sort : QuadSort K) : ∀ poly ∈ v.polygons ang cross sort,
      (∀ p ∈ poly, v.InPlot p) ∧ (poly.length = 3 ∨ poly.length = 4) ∧ Convex poly := by
  intro poly hpoly
  unfold polygons at hpoly
  split_ifs at hpoly
  · cases hpoly
  · obtain ⟨q, hq, hmem⟩ := List.mem_flatMap.mp hpoly
    obtain ⟨hr, hc⟩ := mem_sorted ang sort hq
    exact quadPolygons_ok ang hw hh hr hc poly hmem

/-! ### 32 bits -/

def Fits32 (x : ℤ) : Prop := -2 ^ 31 ≤ x ∧ x < 2 ^ 31

/-- Whatever the cross product forms on its way is an `int32_t`. -/
structure CrossFits (a b c : Point) : Prop where
  dx : Fits32 (b.x - a.x) ∧ Fits32 (c.x - b.x)
  dy : Fits32 (c.y - b.y) ∧ Fits32 (b.y - a.y)
  products : Fits32 ((b.x - a.x) * (c.y - b.y)) ∧ Fits32 ((b.y - a.y) * (c.x - b.x))
  cross : Fits32 (cross a b c)

theorem abs_product_lt {x y : ℤ} (hx : |x| < 2 ^ 14) (hy : |y| < 2 ^ 14) : |x * y| < 2 ^ 28 := by
  have hmul := mul_lt_mul'' hx hy (abs_nonneg x) (abs_nonneg y)
  rw [abs_mul]
  linarith

omit [Field K] [LinearOrder K] [IsStrictOrderedRing K] [FloorRing K] in
theorem crossFits {a b c : Point} (ha : v.InPlot a) (hb : v.InPlot b) (hc : v.InPlot c)
    (hw : v.canvasW < 2 ^ 14) (hh : v.canvasH < 2 ^ 14) : CrossFits a b c := by
  have hside : ∀ p q : Point, v.InPlot p →
      v.InPlot q → |q.x - p.x| < 2 ^ 14 ∧ |q.y - p.y| < 2 ^ 14 := by
    intro p q hp hq
    have hpl := hp.left
    have hpr := hp.right
    have hpt := hp.top
    have hpb := hp.bottom
    have hql := hq.left
    have hqr := hq.right
    have hqt := hq.top
    have hqb := hq.bottom
    simp only [plotX0, plotX1, plotY0, plotY1, legendW] at *
    rw [abs_lt, abs_lt]
    omega
  obtain ⟨habx, haby⟩ := hside a b ha hb
  obtain ⟨hbcx, hbcy⟩ := hside b c hb hc
  have hp1 := abs_lt.mp (abs_product_lt habx hbcy)
  have hp2 := abs_lt.mp (abs_product_lt haby hbcx)
  rw [abs_lt] at habx haby hbcx hbcy
  refine ⟨⟨?_, ?_⟩, ⟨?_, ?_⟩, ⟨?_, ?_⟩, ?_⟩ <;> simp only [Fits32, cross] <;> omega

theorem cross32_eq {a b c : Point} (h : CrossFits a b c) : cross32 a b c = cross a b c := by
  have hb : ∀ x : ℤ, Fits32 x → Int.bmod x (2 ^ 32) = x := by
    intro x hx
    unfold Fits32 at hx
    rw [Int.bmod_eq_of_le] <;> omega
  have hcross := h.cross
  unfold cross at hcross
  rw [cross32, hb _ h.products.1, hb _ h.products.2, hb _ hcross, cross]

structure QuadFits (v : MeshView K) (ang : Angles K) (r c : ℕ) : Prop where
  first : CrossFits (v.pointAt ang r c) (v.pointAt ang r (c + 1)) (v.pointAt ang (r + 1) (c + 1))
  second : CrossFits (v.pointAt ang r (c + 1)) (v.pointAt ang (r + 1) (c + 1))
    (v.pointAt ang (r + 1) c)
  third : CrossFits (v.pointAt ang (r + 1) (c + 1)) (v.pointAt ang (r + 1) c) (v.pointAt ang r c)
  fourth : CrossFits (v.pointAt ang (r + 1) c) (v.pointAt ang r c) (v.pointAt ang r (c + 1))

theorem quadFits (ang : Angles K) (hw : v.plotX0 < v.plotX1) (hh : v.plotY0 < v.plotY1)
    (hcw : v.canvasW < 2 ^ 14) (hch : v.canvasH < 2 ^ 14) {r c : ℕ} (hr : r + 1 < v.rows)
    (hc : c + 1 < v.cols) : v.QuadFits ang r c := by
  have h0 := pointAt_inPlot ang hw hh (Nat.lt_of_succ_lt hr) (Nat.lt_of_succ_lt hc)
  have h1 := pointAt_inPlot ang hw hh (Nat.lt_of_succ_lt hr) hc
  have h2 := pointAt_inPlot ang hw hh hr hc
  have h3 := pointAt_inPlot ang hw hh hr (Nat.lt_of_succ_lt hc)
  exact ⟨crossFits h0 h1 h2 hcw hch, crossFits h1 h2 h3 hcw hch, crossFits h2 h3 h0 hcw hch,
    crossFits h3 h0 h1 hcw hch⟩

omit [IsStrictOrderedRing K] in
theorem quadPolygons_cross32 (ang : Angles K) {r c : ℕ} (h : v.QuadFits ang r c) :
    v.quadPolygons ang cross32 r c = v.quadPolygons ang cross r c := by
  have heq : isConvexQuad cross32 (v.pointAt ang r c) (v.pointAt ang r (c + 1))
        (v.pointAt ang (r + 1) (c + 1)) (v.pointAt ang (r + 1) c) =
      isConvexQuad cross (v.pointAt ang r c) (v.pointAt ang r (c + 1))
        (v.pointAt ang (r + 1) (c + 1)) (v.pointAt ang (r + 1) c) := by
    rw [isConvexQuad, isConvexQuad, cross32_eq h.first, cross32_eq h.second, cross32_eq h.third,
      cross32_eq h.fourth]
  simp only [quadPolygons, heq]

theorem polygons_cross32 (ang : Angles K) (hw : v.plotX0 < v.plotX1) (hh : v.plotY0 < v.plotY1)
    (hcw : v.canvasW < 2 ^ 14) (hch : v.canvasH < 2 ^ 14) (sort : QuadSort K) :
    v.polygons ang cross32 sort = v.polygons ang cross sort := by
  unfold polygons
  split_ifs
  · rfl
  · apply List.flatMap_congr
    intro q hq
    obtain ⟨hr, hc⟩ := mem_sorted ang sort hq
    exact quadPolygons_cross32 ang (quadFits ang hw hh hcw hch hr hc)

omit [IsStrictOrderedRing K] in
theorem polygons_ne_nil (ang : Angles K) (sort : QuadSort K) (hr : 2 ≤ v.rows) (hc : 2 ≤ v.cols) :
    v.polygons ang cross sort ≠ [] := by
  have hmem : (0, 0) ∈ List.range (v.rows - 1) ×ˢ List.range (v.cols - 1) :=
    List.pair_mem_product.mpr ⟨List.mem_range.mpr (by omega), List.mem_range.mpr (by omega)⟩
  have hquad := (sort.perm (fun a b => decide (a.depth < b.depth)) _).mem_iff.mpr
    (List.mem_map_of_mem hmem : _ ∈ v.quads ang)
  have hdrawn : ∃ poly, poly ∈ v.quadPolygons ang cross 0 0 := by
    unfold quadPolygons
    dsimp only
    split_ifs
    · exact ⟨_, List.mem_cons_self ..⟩
    · exact ⟨_, List.mem_cons_self ..⟩
  obtain ⟨poly, hpoly⟩ := hdrawn
  rw [polygons, if_neg (by omega)]
  exact List.ne_nil_of_mem (List.mem_flatMap.mpr ⟨_, hquad, hpoly⟩)

end

/-- For any matrix and any camera. -/
theorem surface_polygons_convex (m : List (List ℝ)) (v : MeshView ℝ) (ang : Angles ℝ)
    (sort : QuadSort ℝ)
    (hw : v.plotX0 < v.plotX1) (hh : v.plotY0 < v.plotY1) :
    (∀ poly ∈ (v.setMesh m).polygons ang cross sort,
      (∀ p ∈ poly, (v.setMesh m).InPlot p) ∧ (poly.length = 3 ∨ poly.length = 4) ∧ Convex poly) ∧
    (v.canvasW < 2 ^ 14 → v.canvasH < 2 ^ 14 →
      (v.setMesh m).polygons ang cross32 sort = (v.setMesh m).polygons ang cross sort ∧
        ∀ r c, r + 1 < (v.setMesh m).rows → c + 1 < (v.setMesh m).cols →
          (v.setMesh m).QuadFits ang r c) := by
  obtain ⟨hwidth, hheight⟩ := setMesh_canvas m v
  have hw' : (v.setMesh m).plotX0 < (v.setMesh m).plotX1 := by
    rw [plotX1, hwidth]
    exact hw
  have hh' : (v.setMesh m).plotY0 < (v.setMesh m).plotY1 := by
    rw [plotY1, hheight]
    exact hh
  constructor
  · exact polygons_ok ang hw' hh' sort
  · intro hcw hch
    rw [← hwidth] at hcw
    rw [← hheight] at hch
    refine ⟨polygons_cross32 ang hw' hh' hcw hch sort, ?_⟩
    intro r c hr hc
    exact quadFits ang hw' hh' hcw hch hr hc

def gridOrder : QuadSort ℝ where
  sort _ l := l
  perm _ l := .refl l

/-- One cell on a canvas of 200 by 160, seen from the side. -/
theorem surface_of_one_cell :
    ((new ℝ 200 160).setMesh [[0, 1], [1, 0]]).polygons ⟨0, 1, 0, 1⟩ cross gridOrder ≠ [] ∧
      (∀ poly ∈ ((new ℝ 200 160).setMesh [[0, 1], [1, 0]]).polygons ⟨0, 1, 0, 1⟩ cross gridOrder,
        (∀ p ∈ poly, ((new ℝ 200 160).setMesh [[0, 1], [1, 0]]).InPlot p) ∧
          (poly.length = 3 ∨ poly.length = 4) ∧ Convex poly) ∧
      ((new ℝ 200 160).setMesh [[0, 1], [1, 0]]).polygons ⟨0, 1, 0, 1⟩ cross32 gridOrder =
        ((new ℝ 200 160).setMesh [[0, 1], [1, 0]]).polygons ⟨0, 1, 0, 1⟩ cross gridOrder := by
  have hmesh : ((new ℝ 200 160).setMesh [[0, 1], [1, 0]]).mesh = [[0, 1], [1, 0]] := by
    rw [setMesh_mesh]
    simp [taken, pushRows]
  have hall := surface_polygons_convex [[0, 1], [1, 0]] (new ℝ 200 160) ⟨0, 1, 0, 1⟩ gridOrder
    (by decide) (by decide)
  refine ⟨?_, hall.1, (hall.2 (by decide) (by decide)).1⟩
  apply polygons_ne_nil
  · rw [rows, hmesh]
    decide
  · rw [cols, hmesh]
    decide

end GuppyScreen.MeshView
