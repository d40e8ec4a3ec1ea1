import GuppyScreen.Utils

/-!
# The preview of a file (utils.cpp, file_panel.cpp, print_status_panel.cpp)

`get_thumbnail` looks for the preview nearest to 300 pixels on a screen 800 wide, and
returns where its file is and its width, by which the panels divide. A difference of
widths is rounded and cut to an int in ways that are left open here.
-/

namespace GuppyScreen.Thumbnail
open Lib KUtils

/-! ### The first minimum of a loop -/

/-- The first of the entries with the least distance. -/
structure FirstNearest (dist : ℤ → ℤ) (widths : List ℤ) (index : ℕ) : Prop where
  least : ∃ w, widths[index]? = some w ∧ ∀ v ∈ widths, dist w ≤ dist v
  first : ∀ w, widths[index]? = some w → ∀ j < index, ∀ v, widths[j]? = some v → dist w < dist v

/-- `closest`, `closest_index` and `thumb_width`. -/
structure Nearest where
  closest : ℤ
  closestIndex : ℕ
  thumbWidth : ℤ

def widthOf (thumb : Json) : Option ℤ :=
  let width := (thumb.get? "width").getD .null
  if width.isNumber then some (toInt width) else width.str?.bind Double.stoi

/-- The loop, from entry `i` on. -/
def search (dist : ℤ → ℤ) : ℕ → List Json → Nearest → Option Nearest
  | _, [], b => some b
  | i, thumb :: thumbs, b =>
    (widthOf thumb).bind fun width =>
      search dist (i + 1) thumbs
        (if dist width < b.closest then ⟨dist width, i, width⟩ else b)

/-- Between the entries: the best so far, and its width unless it is still the first. -/
structure Best (dist : ℤ → ℤ) (seen : List ℤ) (b : Nearest) : Prop where
  nearest : FirstNearest dist seen b.closestIndex
  closest : ∀ w, seen[b.closestIndex]? = some w → b.closest = dist w
  width : if b.closestIndex = 0 then b.thumbWidth = 0 else seen[b.closestIndex]? = some b.thumbWidth

theorem FirstNearest.lt_length {dist : ℤ → ℤ} {widths : List ℤ} {index : ℕ}
    (h : FirstNearest dist widths index) : index < widths.length := by
  obtain ⟨w, hw, -⟩ := h.least
  exact (List.getElem?_eq_some_iff.mp hw).1

theorem best_first (dist : ℤ → ℤ) (w : ℤ) : Best dist [w] ⟨dist w, 0, 0⟩ := by
  refine ⟨⟨⟨w, rfl, ?_⟩, ?_⟩, ?_, rfl⟩
  · intro v hv
    rw [List.mem_singleton.mp hv]
  · intro _ _ j hj
    exact absurd hj (Nat.not_lt_zero j)
  · intro v hv
    cases hv
    rfl

theorem best_snoc {dist : ℤ → ℤ} {seen : List ℤ} {b : Nearest} (h : Best dist seen b) (w : ℤ) :
    Best dist (seen ++ [w])
      (if dist w < b.closest then ⟨dist w, seen.length, w⟩ else b) := by
  obtain ⟨best, hbest, hleast⟩ := h.nearest.least
  have hlt := h.nearest.lt_length
  have hclosest := h.closest best hbest
  have hold : (seen ++ [w])[b.closestIndex]? = some best := by
    rw [List.getElem?_append_left hlt, hbest]
  split_ifs with hnear
  · have hnew : (seen ++ [w])[seen.length]? = some w := by simp
    have hall : ∀ v ∈ seen, dist w < dist v := by
      intro v hv
      have := hleast v hv
      omega
    refine ⟨⟨⟨w, hnew, ?_⟩, ?_⟩, ?_, ?_⟩
    · intro v hv
      rcases List.mem_append.mp hv with hv | hv
      · exact (hall v hv).le
      · rw [List.mem_singleton.mp hv]
    · intro u hu j hj v hv
      rw [hnew, Option.some_inj] at hu
      rw [List.getElem?_append_left hj] at hv
      rw [← hu]
      exact hall v (List.mem_of_getElem? hv)
    · intro u hu
      rw [hnew, Option.some_inj] at hu
      rw [← hu]
    · dsimp only
      rw [if_neg (by omega)]
      exact hnew
  · refine ⟨⟨⟨best, hold, ?_⟩, ?_⟩, ?_, ?_⟩
    · intro v hv
      rcases List.mem_append.mp hv with hv | hv
      · exact hleast v hv
      · rw [List.mem_singleton.mp hv]
        omega
    · intro u hu j hj v hv
      rw [hold, Option.some_inj] at hu
      rw [List.getElem?_append_left (by omega)] at hv
      rw [← hu]
      exact h.nearest.first best hbest j hj v hv
    · intro u hu
      rw [hold, Option.some_inj] at hu
      rw [← hu, hclosest]
    · have hwidth := h.width
      split_ifs at hwidth ⊢
      · exact hwidth
      · rw [List.getElem?_append_left hlt, hwidth]

theorem search_best {dist : ℤ → ℤ} {thumbs : List Json} {rest seen : List ℤ}
    (hrest : thumbs.mapM widthOf = some rest) {b : Nearest} (h : Best dist seen b) :
    ∃ r, search dist seen.length thumbs b = some r ∧ Best dist (seen ++ rest) r := by
  induction thumbs generalizing rest seen b with
  | nil =>
    have hnil : rest = [] := by simpa using hrest.symm
    rw [hnil, List.append_nil]
    exact ⟨b, rfl, h⟩
  | cons thumb thumbs ih =>
    rw [List.mapM_cons] at hrest
    obtain ⟨w, hw, hrest⟩ := Option.bind_eq_some_iff.mp hrest
    obtain ⟨ws, hws, hrest⟩ := Option.bind_eq_some_iff.mp hrest
    cases hrest
    have hstep := ih hws (best_snoc h w)
    rw [List.length_append, List.length_singleton, List.append_assoc,
      List.singleton_append] at hstep
    rw [search, hw, Option.bind_some]
    exact hstep

/-! ### `get_thumbnail` -/

/-- Where the gcodes are: on this host, or at Moonraker, and then previews are
downloaded. -/
structure Host where
  isRunningLocal : Bool
  gcodeRoot : String
  thumbnailPath : String

def isSlash (c : Char) : Bool := c = '/' || c = '\\'

/-- Up to the last slash, and what follows it. -/
def dirOf (path : String) : String :=
  String.ofList (path.toList.reverse.dropWhile (!isSlash ·)).reverse

def nameOf (path : String) : String :=
  String.ofList (path.toList.reverse.takeWhile (!isSlash ·)).reverse

def fullPath (host : Host) (gcodeFile relativePath : String) : String :=
  let relativePath := dirOf gcodeFile ++ relativePath
  if host.isRunningLocal then host.gcodeRoot ++ "/" ++ relativePath
  else host.thumbnailPath ++ "/" ++ nameOf relativePath

section
variable (round : ℚ → ℚ) (cast : ℚ → ℤ)

/-- `int cur_diff = std::abs(scaled_width - width)`. -/
def difference (scale : ℚ) (width : ℤ) : ℤ := cast |round (round (scale * 300) - width)|

def getThumbnail (host : Host) (gcodeFile : String) (j : Json) (scale : ℚ) : Option (String × ℤ) :=
  match j.valueAt ["result", "thumbnails"] with
  | .null => some ("", 0)
  | .arr .nil => some ("", 0)
  | .obj .nil => some ("", 0)
  | .arr (.cons first rest) => do
    let width ← widthOf first
    let dist := difference round cast scale
    let b ← search dist 0 (first :: rest.toList) ⟨dist width, 0, 0⟩
    let thumb ← (first :: rest.toList)[b.closestIndex]?
    let relativePath ← (thumb.get? "relative_path").bind Json.str?
    some (fullPath host gcodeFile relativePath, b.thumbWidth)
  | _ => none

/-- `normalized_thumb_scale` of the panels, for 0.29 or 0.34 of the screen; `none` is a
division by zero. -/
def thumbScale (share : ℚ) (screenWidth : ℕ) (thumbWidth : ℤ) : Option ℤ :=
  if thumbWidth = 0 then none else some (cast (share * screenWidth / thumbWidth * 256))

variable {dist : ℤ → ℤ}

theorem search_first {first : Json} {thumbs : List Json} {w : ℤ} {ws : List ℤ}
    (hw : widthOf first = some w) (hws : thumbs.mapM widthOf = some ws) :
    ∃ b, search dist 0 (first :: thumbs) ⟨dist w, 0, 0⟩ = some b ∧ Best dist (w :: ws) b := by
  have hsame : (if dist w < dist w then (⟨dist w, 0, w⟩ : Nearest) else ⟨dist w, 0, 0⟩) =
      ⟨dist w, 0, 0⟩ := if_neg (by omega)
  rw [search, hw, Option.bind_some, hsame]
  exact search_best hws (best_first dist w)

theorem own_width_iff {w : ℤ} {ws : List ℤ} {b : Nearest} (h : Best dist (w :: ws) b)
    (hpos : ∀ v ∈ w :: ws, 0 < v) :
    ((w :: ws)[b.closestIndex]? = some b.thumbWidth ∧ 0 < b.thumbWidth) ↔
      ∃ v ∈ ws, dist v < dist w := by
  obtain ⟨best, hbest, hleast⟩ := h.nearest.least
  have hwidth := h.width
  by_cases hfirst : b.closestIndex = 0
  · rw [if_pos hfirst] at hwidth
    rw [hfirst] at hbest
    cases hbest
    constructor
    · intro hown
      omega
    · rintro ⟨v, hv, hnear⟩
      have := hleast v (List.mem_cons_of_mem w hv)
      omega
  · rw [if_neg hfirst] at hwidth
    refine iff_of_true ⟨hwidth, hpos _ (List.mem_of_getElem? hwidth)⟩ ?_
    have hnear := h.nearest.first _ hwidth 0 (by omega) w rfl
    rcases List.mem_cons.mp (List.mem_of_getElem? hwidth) with heq | hmem
    · rw [heq] at hnear
      omega
    · exact ⟨_, hmem, hnear⟩

/-- The preview returned is the first of the nearest. Its width comes with it, and can
be divided by, exactly if a later preview is nearer than the first. -/
theorem nearest_preview_iff (host : Host) (gcodeFile : String) {j : Json} (scale : ℚ)
    {first : Json} {rest : Elems} {w : ℤ} {ws : List ℤ}
    (hthumbs : j.valueAt ["result", "thumbnails"] = .arr (.cons first rest))
    (hw : widthOf first = some w) (hws : rest.toList.mapM widthOf = some ws)
    (hpos : ∀ v ∈ w :: ws, 0 < v) :
    ∃ index width, FirstNearest (difference round cast scale) (w :: ws) index ∧
      getThumbnail round cast host gcodeFile j scale =
        (((first :: rest.toList)[index]?.bind (·.get? "relative_path")).bind Json.str?).map
          (fun relativePath => (fullPath host gcodeFile relativePath, width)) ∧
      (((w :: ws)[index]? = some width ∧ 0 < width ∧
          ∀ share screenWidth, (thumbScale cast share screenWidth width).isSome = true) ↔
        ∃ v ∈ ws, difference round cast scale v < difference round cast scale w) := by
  obtain ⟨b, hb, hbest⟩ := search_first hw hws
  refine ⟨b.closestIndex, b.thumbWidth, hbest.nearest, ?_, ?_⟩
  · rw [getThumbnail, hthumbs]
    simp only [hw, Option.bind_eq_bind, Option.bind_some, hb]
    cases (first :: rest.toList)[b.closestIndex]? with
    | none => rfl
    | some thumb =>
      rw [Option.bind_some, Option.bind_some]
      cases (thumb.get? "relative_path").bind Json.str? <;> rfl
  · rw [← own_width_iff hbest hpos]
    constructor
    · intro h
      exact ⟨h.1, h.2.1⟩
    · intro h
      refine ⟨h.1, h.2, ?_⟩
      intro share screenWidth
      have hne : b.thumbWidth ≠ 0 := by
        have := h.2
        omega
      rw [thumbScale, if_neg hne]
      rfl

end

def preview (width : Json) : Json :=
  .obj (.cons "relative_path" (.str ".thumbs/a.png") (.cons "width" width .nil))

def previews (thumbs : Elems) : Json :=
  .obj (.cons "result" (.obj (.cons "thumbnails" (.arr thumbs) .nil)) .nil)

def thisHost : Host := ⟨true, "/gcodes", "/thumbs"⟩

theorem second_preview : ∃ index width,
    FirstNearest (difference Double.rnd Int.floor 1) [32, 300] index ∧
      ([32, 300] : List ℤ)[index]? = some width ∧ 0 < width := by
  have hthumbs : (previews (.cons (preview (.int 32)) (.cons (preview (.str "300")) .nil))).valueAt
      ["result", "thumbnails"] = .arr (.cons (preview (.int 32))
        (.cons (preview (.str "300")) .nil)) := rfl
  have hfirst : widthOf (preview (.int 32)) = some 32 := by decide +kernel
  have hrest : (Elems.cons (preview (.str "300")) .nil).toList.mapM widthOf = some [300] := by
    decide +kernel
  obtain ⟨index, width, hnearest, -, hown⟩ :=
    nearest_preview_iff Double.rnd Int.floor thisHost "a.gcode" 1 hthumbs hfirst hrest (by decide)
  obtain ⟨hwidth, hpos, -⟩ := hown.mpr (by decide +kernel)
  exact ⟨index, width, hnearest, hwidth, hpos⟩

/-- The only preview is 300 wide, and what is returned is 0. -/
theorem no_width_of_the_first : ¬ ∀ (j : Json) (scale : ℚ) (first : Json) (rest : Elems) (w : ℤ)
    (ws : List ℤ), j.valueAt ["result", "thumbnails"] = .arr (.cons first rest) →
      widthOf first = some w → rest.toList.mapM widthOf = some ws → (∀ v ∈ w :: ws, 0 < v) →
      0 < scale → ∀ path width,
        getThumbnail Double.rnd Int.floor thisHost "a.gcode" j scale = some (path, width) →
        0 < width := by
  intro h
  have hzero := h (previews (.cons (preview (.int 300)) .nil)) 1 _ _ 300 [] rfl
    (by decide +kernel) rfl (by decide) (by decide) "/gcodes/.thumbs/a.png" 0 (by decide +kernel)
  omega

end GuppyScreen.Thumbnail
