import GuppyScreen.Lib.Affine
import GuppyScreen.Lib.Double
import GuppyScreen.Lib.Rounding
import GuppyScreen.Lib.Run
import Mathlib.Algebra.Order.Field.Rat
import Mathlib.Data.Fin.VecNotation
import Mathlib.Data.Rat.Floor

/-!
# Touch calibration (lv_tc.c, lv_tc_screen.c, guppyscreen.cpp)

The calibration screen takes the raw points of three touches and fits an affine map from
raw to screen coordinates. From then on every reading of the touch panel is mapped, and
turned so that LVGL, which rotates each reading itself, sees the point on the screen.

The arithmetic is exact: `lv_tc_val_t` is a `float` in the source and a field here. In floats
a crosshair may come out a pixel off, and the divisor may be zero for touches that are not
on one line, or be nonzero for touches that are.
-/

namespace GuppyScreen.TouchCalibration
open Lib Lib.Rounding

abbrev RawPoint := PlanePoint ℤ

def cast (K : Type) [Field K] (p : RawPoint) : PlanePoint K := ⟨p.x, p.y⟩

/-- `lv_tc_coeff_t`: the first three coefficients give x, the others y. -/
structure Coeff (K : Type) where
  forX : Affine K
  forY : Affine K
  deriving DecidableEq

/-- `calibResult`: not valid, valid, or valid with values that are not finite. -/
inductive Result (K : Type) where
  | invalid
  | valid (coeff : Coeff K)
  | infinite
  deriving DecidableEq

inductive Rotation where
  | none
  | rot90
  | rot180
  | rot270
  deriving DecidableEq

/-- The display driver: its own resolution and how far it is turned. -/
structure Display where
  horRes : ℤ
  verRes : ℤ
  rotated : Rotation

section
variable {K : Type} [Field K]

/-- The common divisor of `lv_tc_compute_coeff`, in exact arithmetic. -/
def divisor (t₀ t₁ t₂ : PlanePoint K) : K :=
  t₀.x * (t₂.y - t₁.y) - t₁.x * t₂.y + t₁.y * t₂.x + t₀.y * (t₁.x - t₂.x)

/-- One coordinate of `lv_tc_compute_coeff`, from the screen's `s₀`, `s₁`, `s₂` of it, in
exact arithmetic. -/
def computeRow (s₀ s₁ s₂ : K) (t₀ t₁ t₂ : PlanePoint K) : Affine K where
  a := (s₀ * (t₂.y - t₁.y) - s₁ * t₂.y + s₂ * t₁.y + (s₁ - s₂) * t₀.y) / divisor t₀ t₁ t₂
  b := -(s₀ * (t₂.x - t₁.x) - s₁ * t₂.x + s₂ * t₁.x + (s₁ - s₂) * t₀.x) / divisor t₀ t₁ t₂
  c := (s₀ * (t₁.y * t₂.x - t₁.x * t₂.y) + t₀.x * (s₁ * t₂.y - s₂ * t₁.y) +
    t₀.y * (s₂ * t₁.x - s₁ * t₂.x)) / divisor t₀ t₁ t₂

def computeCoeff [DecidableEq K] (scr tch : Fin 3 → RawPoint) : Result K :=
  let t₀ := cast K (tch 0)
  let t₁ := cast K (tch 1)
  let t₂ := cast K (tch 2)
  if divisor t₀ t₁ t₂ = 0 then .infinite
  else .valid
    ⟨computeRow (scr 0).x (scr 1).x (scr 2).x t₀ t₁ t₂,
      computeRow (scr 0).y (scr 1).y (scr 2).y t₀ t₁ t₂⟩

variable [LinearOrder K] [FloorRing K]

/-- `lv_tc_transform_point_screen`, `none` where a value that is not finite is cast. -/
def transformPointScreen (calib : Result K) (p : RawPoint) : Option RawPoint :=
  match calib with
  | .invalid => some p
  | .valid coeff => some ⟨lround (coeff.forX.eval (cast K p)), lround (coeff.forY.eval (cast K p))⟩
  | .infinite => none

end

/-- The `switch` of `lv_tc_transform_point`. -/
def driverPoint (d : Display) (p : RawPoint) : RawPoint :=
  match d.rotated with
  | .none => p
  | .rot90 => ⟨p.y, d.verRes - 1 - p.x⟩
  | .rot180 => ⟨d.horRes - 1 - p.x, d.verRes - 1 - p.y⟩
  | .rot270 => ⟨d.horRes - 1 - p.y, p.x⟩

/-- What LVGL's `indev_pointer_proc` makes of a reading. -/
def indevPointerProc (d : Display) (p : RawPoint) : RawPoint :=
  let p := match d.rotated with
    | .rot180 | .rot270 => ⟨d.horRes - p.x - 1, d.verRes - p.y - 1⟩
    | _ => p
  match d.rotated with
  | .rot90 | .rot270 => ⟨d.verRes - p.y - 1, p.x⟩
  | _ => p

theorem indevPointerProc_driverPoint (d : Display) (p : RawPoint) :
    indevPointerProc d (driverPoint d p) = p := by
  unfold indevPointerProc driverPoint
  cases p
  cases d.rotated with
  | none => rfl
  | rot90 =>
    simp only [PlanePoint.mk.injEq, and_true]
    omega
  | rot180 =>
    simp only [PlanePoint.mk.injEq]
    omega
  | rot270 =>
    simp only [PlanePoint.mk.injEq]
    omega

/-! ### The calibration screen -/

def stepInit : ℕ := 0
def stepFirst : ℕ := 1
def stepFinish : ℕ := 4
def recalibTimeoutS : ℕ := 30

/-- A reading of the panel, or what LVGL is told; `none` is a point out of a bad cast. -/
structure Data where
  pressed : Bool
  point : Option RawPoint
  deriving DecidableEq

/-- `onScreen` says that the calibration screen is registered and the active one,
`recalibrate` counts the seconds left, and `saved` is the member of the config file. -/
structure World (K : Type) where
  calib : Result K := .invalid
  inputEnabled : Bool := true
  scrPoints : Fin 3 → RawPoint
  tchPoints : Fin 3 → RawPoint := fun _ => ⟨0, 0⟩
  currentStep : ℕ := stepInit
  startDelay : Bool := false
  recalibrate : Option ℕ := none
  onScreen : Bool := true
  lastPoint : RawPoint := ⟨0, 0⟩
  lastPressed : Bool := false
  saved : Option (Result K) := none

inductive Event where
  | read (pressed : Bool) (point : RawPoint)
  | startDelay
  | second
  | recalibrateBtn
  | acceptBtn

namespace World
variable {K : Type} [Field K] [LinearOrder K] [FloorRing K]

def start (w : World K) : World K :=
  { w with
    recalibrate := none
    currentStep := stepInit
    startDelay := true
    onScreen := true }

/-- `lv_tc_screen_step` to a step after the first. -/
def stepTo (w : World K) (n : ℕ) (p : RawPoint) : World K :=
  let w := { w with
    currentStep := n
    tchPoints := fun i => if n = i + 2 then p else w.tchPoints i }
  if n = stepFinish then
    { w with
      calib := computeCoeff w.scrPoints w.tchPoints
      recalibrate := some recalibTimeoutS }
  else w

def processInput (w : World K) (p : RawPoint) : World K :=
  if stepInit < w.currentStep ∧ w.currentStep < stepFinish then
    { w with inputEnabled := false }.stepTo (w.currentStep + 1) p
  else w

/-- `lv_tc_screen_input_cb`, without its result. -/
def inputCb (w : World K) (pressed : Bool) (p : RawPoint) : World K :=
  let w := if w.inputEnabled && pressed then w.processInput p else w
  if pressed then w else { w with inputEnabled := true }

/-- `lv_tc_transform_point`. -/
def transformPoint (d : Display) (w : World K) (p : RawPoint) : Option RawPoint :=
  match w.calib with
  | .invalid => some p
  | calib => (transformPointScreen calib p).map (driverPoint d)

def transformPointIndev (d : Display) (w : World K) (pressed : Bool) (p : RawPoint) :
    World K × Data :=
  if pressed then
    ({ w with
        lastPoint := p
        lastPressed := true }, ⟨true, w.transformPoint d p⟩)
  else if w.lastPressed then
    ({ w with lastPressed := false }, ⟨false, w.transformPoint d w.lastPoint⟩)
  else (w, ⟨false, some ⟨0, 0⟩⟩)

/-- `lv_tc_indev_drv_read_cb`: the world afterwards and what LVGL is told. -/
def readCb (d : Display) (w : World K) (pressed : Bool) (p : RawPoint) : World K × Data :=
  if w.onScreen then
    let w := w.inputCb pressed p
    if stepFinish ≤ w.currentStep then w.transformPointIndev d pressed p
    else (w, ⟨false, some ⟨0, 0⟩⟩)
  else w.transformPointIndev d pressed p

/-- `lv_tc_screen_recalibrate_timer`, which LVGL calls with the count already lowered. -/
def second (w : World K) : World K :=
  match w.recalibrate with
  | some 1 => w.start
  | some (n + 2) => { w with recalibrate := some (n + 1) }
  | _ => w

/-- The buttons are hidden until the calibration is finished. -/
def step (d : Display) (w : World K) : Event → World K
  | .read pressed p => (w.readCb d pressed p).1
  | .startDelay =>
    if w.startDelay then
      { w with
        startDelay := false
        currentStep := stepFirst }
    else w
  | .second => w.second
  | .recalibrateBtn => if w.onScreen ∧ w.currentStep = stepFinish then w.start else w
  | .acceptBtn =>
    if w.onScreen ∧ w.currentStep = stepFinish then
      { w with
        saved := some w.calib
        recalibrate := none
        onScreen := false }
    else w

/-- What LVGL takes the point of a report for. -/
def seen (d : Display) (r : Data) : Option RawPoint := r.point.map (indevPointerProc d)

end World

/-! ### The fit -/

section
variable {K : Type} [Field K]

/-- The coefficients send the three raw points to the three on screen. -/
def Fits (c : Coeff K) (scr tch : Fin 3 → RawPoint) : Prop :=
  ∀ i, c.forX.eval (cast K (tch i)) = (scr i).x ∧ c.forY.eval (cast K (tch i)) = (scr i).y

instance [DecidableEq K] (c : Coeff K) (scr tch : Fin 3 → RawPoint) : Decidable (Fits c scr tch) :=
  inferInstanceAs (Decidable (∀ _, _ ∧ _))

def rawArea (K : Type) [Field K] (tch : Fin 3 → RawPoint) : K :=
  Affine.area (cast K (tch 0)) (cast K (tch 1)) (cast K (tch 2))

theorem divisor_eq (t₀ t₁ t₂ : PlanePoint K) : divisor t₀ t₁ t₂ = -Affine.area t₀ t₁ t₂ := by
  unfold divisor Affine.area
  ring

theorem computeRow_eval (s₀ s₁ s₂ : K) {t₀ t₁ t₂ : PlanePoint K} (h : divisor t₀ t₁ t₂ ≠ 0) :
    (computeRow s₀ s₁ s₂ t₀ t₁ t₂).eval t₀ = s₀ ∧ (computeRow s₀ s₁ s₂ t₀ t₁ t₂).eval t₁ = s₁ ∧
      (computeRow s₀ s₁ s₂ t₀ t₁ t₂).eval t₂ = s₂ := by
  unfold Affine.eval computeRow
  dsimp only
  refine ⟨?_, ?_, ?_⟩
  all_goals
    rw [← mul_div_assoc, ← mul_div_assoc, ← add_div, ← add_div, div_eq_iff h]
    unfold divisor
    ring

theorem Fits.unique {c c' : Coeff K} {scr tch : Fin 3 → RawPoint} (h : Fits c scr tch)
    (h' : Fits c' scr tch) (harea : rawArea K tch ≠ 0) : c' = c := by
  have hx : c'.forX = c.forX := Affine.eq_of_eval harea ((h' 0).1.trans (h 0).1.symm)
    ((h' 1).1.trans (h 1).1.symm) ((h' 2).1.trans (h 2).1.symm)
  have hy : c'.forY = c.forY := Affine.eq_of_eval harea ((h' 0).2.trans (h 0).2.symm)
    ((h' 1).2.trans (h 1).2.symm) ((h' 2).2.trans (h 2).2.symm)
  cases c
  cases c'
  simp only [Coeff.mk.injEq]
  exact ⟨hx, hy⟩

theorem computeCoeff_fits [DecidableEq K] (scr : Fin 3 → RawPoint) {tch : Fin 3 → RawPoint}
    (harea : rawArea K tch ≠ 0) :
    ∃ c : Coeff K, computeCoeff scr tch = .valid c ∧ Fits c scr tch := by
  have hdiv : divisor (cast K (tch 0)) (cast K (tch 1)) (cast K (tch 2)) ≠ 0 := by
    rw [divisor_eq]
    exact neg_ne_zero.mpr harea
  refine ⟨_, if_neg hdiv, ?_⟩
  have hx := computeRow_eval (K := K) (scr 0).x (scr 1).x (scr 2).x hdiv
  have hy := computeRow_eval (K := K) (scr 0).y (scr 1).y (scr 2).y hdiv
  intro i
  match i with
  | 0 => exact ⟨hx.1, hy.1⟩
  | 1 => exact ⟨hx.2.1, hy.2.1⟩
  | 2 => exact ⟨hx.2.2, hy.2.2⟩

end

/-- Where the coefficients put a raw point. -/
def Coeff.screen {K : Type} [Field K] [LinearOrder K] [FloorRing K] (c : Coeff K) (p : RawPoint) :
    RawPoint :=
  ⟨lround (c.forX.eval (cast K p)), lround (c.forY.eval (cast K p))⟩

theorem lround_int {K : Type} [Field K] [LinearOrder K] [FloorRing K] [IsStrictOrderedRing K]
    (n : ℤ) : lround (n : K) = n :=
  le_antisymm (lround_le le_rfl) (le_lround le_rfl)

namespace World
variable {K : Type} [Field K] [LinearOrder K] [FloorRing K]

/-! ### Recording the three touches -/

/-- The points at which touches begin, each once however long it is held. -/
def firsts : Bool → List Event → List RawPoint
  | _, [] => []
  | true, .read true p :: es => p :: firsts false es
  | _, .read false _ :: es => firsts true es
  | enabled, _ :: es => firsts enabled es

def enabledAfter : Bool → List Event → Bool
  | enabled, [] => enabled
  | _, .read true _ :: es => enabledAfter false es
  | _, .read false _ :: es => enabledAfter true es
  | enabled, _ :: es => enabledAfter enabled es

/-- The screen waits for a touch after those in `done`. -/
structure Recording (w : World K) (done : List RawPoint) : Prop where
  onScreen : w.onScreen = true
  step : w.currentStep = stepFirst + done.length
  few : done.length < 3
  points : ∀ i : Fin 3, (i : ℕ) < done.length → done[(i : ℕ)]? = some (w.tchPoints i)
  idle : w.startDelay = false ∧ w.recalibrate = none

theorem firsts_append (enabled : Bool) (as bs : List Event) :
    firsts enabled (as ++ bs) = firsts enabled as ++ firsts (enabledAfter enabled as) bs := by
  induction as generalizing enabled with
  | nil => rfl
  | cons e as ih =>
    cases e with
    | read pressed p =>
      cases pressed <;> cases enabled <;> simp [firsts, enabledAfter, ih]
    | _ => cases enabled <;> simp [firsts, enabledAfter, ih]

/-- A touch held on, a release, or nothing about touches. -/
theorem recording_other {w : World K} (d : Display) {done : List RawPoint} (h : w.Recording done)
    (e : Event) (he : firsts w.inputEnabled [e] = []) :
    (w.step d e).Recording done ∧ (w.step d e).scrPoints = w.scrPoints ∧
      (w.step d e).inputEnabled = enabledAfter w.inputEnabled [e] := by
  have hstep : w.currentStep < stepFinish := by
    have hfew := h.few
    rw [h.step]
    unfold stepFirst stepFinish
    omega
  have hbefore : ¬ stepFinish ≤ w.currentStep := by omega
  have hnot : ¬ (w.onScreen = true ∧ w.currentStep = stepFinish) := fun hc => by
    rw [hc.2] at hstep
    exact Nat.lt_irrefl _ hstep
  cases e with
  | read pressed p =>
    cases pressed with
    | true =>
      cases henabled : w.inputEnabled with
      | true =>
        rw [henabled] at he
        cases he
      | false =>
        have hsame : w.step d (.read true p) = w := by
          simp [step, readCb, h.onScreen, inputCb, henabled, hbefore]
        rw [hsame]
        exact ⟨h, rfl, henabled⟩
    | false =>
      have hsame : w.step d (.read false p) = { w with inputEnabled := true } := by
        simp [step, readCb, h.onScreen, inputCb, hbefore]
      rw [hsame]
      exact ⟨⟨h.onScreen, h.step, h.few, h.points, h.idle⟩, rfl, by simp [enabledAfter]⟩
  | startDelay =>
    have hsame : w.step d .startDelay = w := by simp [step, h.idle.1]
    rw [hsame]
    exact ⟨h, rfl, by simp [enabledAfter]⟩
  | second =>
    have hsame : w.step d .second = w := by simp [step, second, h.idle.2]
    rw [hsame]
    exact ⟨h, rfl, by simp [enabledAfter]⟩
  | recalibrateBtn =>
    have hsame : w.step d .recalibrateBtn = w := by simp only [step, if_neg hnot]
    rw [hsame]
    exact ⟨h, rfl, by simp [enabledAfter]⟩
  | acceptBtn =>
    have hsame : w.step d .acceptBtn = w := by simp only [step, if_neg hnot]
    rw [hsame]
    exact ⟨h, rfl, by simp [enabledAfter]⟩

/-- What the first or second touch does. -/
theorem recording_touch {w : World K} (d : Display) {done : List RawPoint} (h : w.Recording done)
    (henabled : w.inputEnabled = true) (p : RawPoint) (hfew : done.length + 1 < 3) :
    (w.step d (.read true p)).Recording (done ++ [p]) ∧
      (w.step d (.read true p)).scrPoints = w.scrPoints ∧
      (w.step d (.read true p)).inputEnabled = false := by
  have hstep := h.step
  have hin : stepInit < w.currentStep ∧ w.currentStep < stepFinish := by
    rw [hstep]
    unfold stepInit stepFirst stepFinish
    omega
  have hnext : w.currentStep + 1 ≠ stepFinish := by
    rw [hstep]
    unfold stepFirst stepFinish
    omega
  have hbefore : ¬ stepFinish ≤ w.currentStep + 1 := by
    rw [hstep]
    unfold stepFirst stepFinish
    omega
  have hmoved : w.step d (.read true p) = { w with
      inputEnabled := false
      currentStep := w.currentStep + 1
      tchPoints := fun i => if w.currentStep + 1 = i + 2 then p else w.tchPoints i } := by
    simp only [step, readCb, h.onScreen, inputCb, henabled, Bool.and_self, if_true, processInput,
      if_pos hin, stepTo, if_neg hnext, if_neg hbefore]
  rw [hmoved]
  refine ⟨⟨h.onScreen, ?_, ?_, ?_, h.idle⟩, rfl, rfl⟩
  · simp only [List.length_append, List.length_singleton, hstep]
    omega
  · simpa using hfew
  · intro i hi
    rw [List.length_append, List.length_singleton] at hi
    dsimp only
    by_cases hlast : (i : ℕ) = done.length
    · have hhere : w.currentStep + 1 = i + 2 := by
        rw [hstep, hlast]
        unfold stepFirst
        omega
      rw [if_pos hhere, hlast]
      simp
    · have hthere : ¬ w.currentStep + 1 = i + 2 := by
        rw [hstep]
        unfold stepFirst
        omega
      rw [if_neg hthere, List.getElem?_append_left (by omega)]
      exact h.points i (by omega)

/-- Until the third touch, whatever else happens. -/
theorem recording_run {w : World K} (d : Display) {done : List RawPoint} (h : w.Recording done)
    (es : List Event) (hfew : (done ++ firsts w.inputEnabled es).length < 3) :
    (Run.run (step d) w es).Recording (done ++ firsts w.inputEnabled es) ∧
      (Run.run (step d) w es).scrPoints = w.scrPoints ∧
      (Run.run (step d) w es).inputEnabled = enabledAfter w.inputEnabled es := by
  induction es generalizing w done with
  | nil =>
    rw [firsts, List.append_nil]
    exact ⟨h, rfl, rfl⟩
  | cons e es ih =>
    have hsplit := firsts_append w.inputEnabled [e] es
    have hafter : enabledAfter w.inputEnabled (e :: es) =
        enabledAfter (enabledAfter w.inputEnabled [e]) es := by
      cases e with
      | read pressed p => cases pressed <;> cases w.inputEnabled <;> simp [enabledAfter]
      | _ => cases w.inputEnabled <;> simp [enabledAfter]
    rw [List.singleton_append] at hsplit
    rw [hsplit] at hfew ⊢
    rw [hafter, Run.run_cons]
    cases hfirst : firsts w.inputEnabled [e] with
    | nil =>
      obtain ⟨hrec, hscr, henabled⟩ := recording_other d h e hfirst
      rw [hfirst, List.nil_append] at hfew
      rw [← henabled] at hfew ⊢
      obtain ⟨hrun, hscr', henabled'⟩ := ih hrec hfew
      exact ⟨hrun, hscr'.trans hscr, henabled'⟩
    | cons q qs =>
      cases e with
      | read pressed p =>
        cases pressed with
        | false => simp [firsts] at hfirst
        | true =>
          cases hen : w.inputEnabled with
          | false =>
            rw [hen] at hfirst
            cases hfirst
          | true =>
            rw [hen] at hfirst
            simp only [firsts, List.cons.injEq] at hfirst
            obtain ⟨rfl, rfl⟩ := hfirst
            have hcount : done.length + 1 < 3 := by
              simp only [hen, firsts, List.length_append, List.length_cons, List.length_nil]
                at hfew
              omega
            obtain ⟨hrec, hscr, henabled⟩ := recording_touch d h hen p hcount
            simp only [hen, firsts, enabledAfter] at hfew ⊢
            rw [← henabled] at hfew ⊢
            rw [← List.append_assoc] at hfew ⊢
            obtain ⟨hrun, hscr', henabled'⟩ := ih hrec hfew
            exact ⟨hrun, hscr'.trans hscr, henabled'⟩
      | _ => cases w.inputEnabled <;> simp [firsts] at hfirst

/-- LVGL is told of no touch before the third. -/
theorem recording_silent {w : World K} (d : Display) {done : List RawPoint} (h : w.Recording done)
    (pressed : Bool) (p : RawPoint)
    (hfew : (done ++ firsts w.inputEnabled [.read pressed p]).length < 3) :
    (w.readCb d pressed p).2 = ⟨false, some ⟨0, 0⟩⟩ := by
  have hafter := recording_run d h [.read pressed p] hfew
  have hstep := hafter.1.step
  have hfew' := hafter.1.few
  have hon : w.onScreen = true := h.onScreen
  rw [Run.run_cons, Run.run_nil] at hstep
  have hbefore : ¬ stepFinish ≤ (w.inputCb pressed p).currentStep := by
    intro hle
    simp only [step, readCb, hon, if_true, if_pos hle] at hstep
    have hsame : ((w.inputCb pressed p).transformPointIndev d pressed p).1.currentStep =
        (w.inputCb pressed p).currentStep := by
      unfold transformPointIndev
      split_ifs <;> rfl
    rw [hsame] at hstep
    unfold stepFinish stepFirst at *
    omega
  simp only [readCb, hon, if_true, if_neg hbefore]

/-! ### After the calibration -/

/-- The calibration is done, and nothing has started it again. -/
structure Uses (w : World K) (c : Coeff K) : Prop where
  calib : w.calib = .valid c
  step : w.onScreen = true → w.currentStep = stepFinish
  idle : w.startDelay = false

theorem calibrated_touch {w : World K} (d : Display) {p₀ p₁ : RawPoint}
    (h : w.Recording [p₀, p₁]) (henabled : w.inputEnabled = true) (p₂ : RawPoint)
    (harea : rawArea K ![p₀, p₁, p₂] ≠ 0) :
    ∃ c, (w.step d (.read true p₂)).Uses c ∧ Fits c w.scrPoints ![p₀, p₁, p₂] := by
  have hstep : w.currentStep = 3 := h.step
  have hin : stepInit < w.currentStep ∧ w.currentStep < stepFinish := by
    rw [hstep]
    decide
  have hnext : w.currentStep + 1 = stepFinish := by rw [hstep]; rfl
  obtain ⟨c, hc, hfits⟩ := computeCoeff_fits (K := K) w.scrPoints harea
  refine ⟨c, ?_, hfits⟩
  have htch : (fun i : Fin 3 => if w.currentStep + 1 = i + 2 then p₂ else w.tchPoints i) =
      ![p₀, p₁, p₂] := by
    have h0 := h.points 0 (by simp)
    have h1 := h.points 1 (by simp)
    simp only [Fin.val_zero, Fin.val_one, List.getElem?_cons_zero, List.getElem?_cons_succ,
      Option.some_inj] at h0 h1
    funext i
    rw [hstep]
    match i with
    | 0 => exact h0.symm
    | 1 => exact h1.symm
    | 2 => rfl
  have hmoved : w.inputCb true p₂ = { w with
      inputEnabled := false
      currentStep := stepFinish
      tchPoints := ![p₀, p₁, p₂]
      calib := computeCoeff w.scrPoints ![p₀, p₁, p₂]
      recalibrate := some recalibTimeoutS } := by
    simp only [inputCb, henabled, Bool.and_self, if_true, processInput, if_pos hin, stepTo,
      if_pos hnext, htch]
    rw [hnext]
  have hread : w.step d (.read true p₂) =
      ((w.inputCb true p₂).transformPointIndev d true p₂).1 := by
    simp only [step, readCb, h.onScreen, if_true]
    rw [if_pos (by rw [hmoved])]
  rw [hread, hmoved]
  exact ⟨hc, fun _ => rfl, h.idle.1⟩

/-- What does not start the calibration again. -/
def Keeps (w : World K) (e : Event) : Prop :=
  e ≠ .recalibrateBtn ∧ (e = .second → w.recalibrate ≠ some 1)

theorem readCb_uses {w : World K} (d : Display) {c : Coeff K} (h : w.Uses c) (pressed : Bool)
    (p : RawPoint) : ∃ enabled, w.readCb d pressed p =
      { w with inputEnabled := enabled }.transformPointIndev d pressed p := by
  unfold readCb
  by_cases hon : w.onScreen = true
  · have hstep := h.step hon
    have hnot : ¬ (stepInit < w.currentStep ∧ w.currentStep < stepFinish) := by omega
    have hcb : ∃ enabled, w.inputCb pressed p = { w with inputEnabled := enabled } := by
      simp only [inputCb, processInput, if_neg hnot, ite_self]
      cases pressed with
      | true => exact ⟨w.inputEnabled, rfl⟩
      | false => exact ⟨true, rfl⟩
    obtain ⟨enabled, hcb⟩ := hcb
    refine ⟨enabled, ?_⟩
    rw [if_pos hon, hcb]
    exact if_pos (Nat.le_of_eq hstep.symm)
  · exact ⟨w.inputEnabled, if_neg hon⟩

theorem uses_step {w : World K} (d : Display) {c : Coeff K} (h : w.Uses c) {e : Event}
    (he : w.Keeps e) : (w.step d e).Uses c := by
  cases e with
  | read pressed p =>
    obtain ⟨enabled, hread⟩ := readCb_uses d h pressed p
    simp only [step, hread, transformPointIndev]
    split_ifs <;> exact ⟨h.calib, h.step, h.idle⟩
  | startDelay =>
    have hsame : w.step d .startDelay = w := by simp [step, h.idle]
    rw [hsame]
    exact h
  | second =>
    have hone := he.2 rfl
    simp only [step, second]
    split
    · rename_i hrecal
      exact absurd hrecal hone
    · exact ⟨h.calib, h.step, h.idle⟩
    · exact h
  | recalibrateBtn => exact absurd rfl he.1
  | acceptBtn =>
    simp only [step]
    split_ifs
    · exact ⟨h.calib, fun hoff => absurd hoff Bool.false_ne_true, h.idle⟩
    · exact h

theorem uses_run {w : World K} (d : Display) {c : Coeff K} (h : w.Uses c) (es : List Event)
    (hes : Run.Along (step d) Keeps w es) : (Run.run (step d) w es).Uses c :=
  Run.invariant (I := (Uses · c)) (fun _ _ h he => uses_step d h he) w es h hes

theorem seen_transformPoint {w : World K} (d : Display) {c : Coeff K} (h : w.calib = .valid c)
    (p : RawPoint) (pressed : Bool) : seen d ⟨pressed, w.transformPoint d p⟩ =
      some (c.screen p) := by
  simp only [seen, transformPoint, h, transformPointScreen, Option.map_some,
    indevPointerProc_driverPoint]
  rfl

theorem seen_press {w : World K} (d : Display) {c : Coeff K} (h : w.Uses c) (p : RawPoint) :
    seen d (w.readCb d true p).2 = some (c.screen p) := by
  obtain ⟨enabled, hread⟩ := readCb_uses d h true p
  rw [hread]
  exact seen_transformPoint (w := { w with inputEnabled := enabled }) d h.calib p true

/-- A release is reported where the touch was last. -/
theorem seen_release {w : World K} (d : Display) {c : Coeff K} (h : w.Uses c) (p q : RawPoint) :
    seen d ((w.step d (.read true p)).readCb d false q).2 = some (c.screen p) := by
  have hafter := uses_step d h (e := .read true p) ⟨nofun, nofun⟩
  obtain ⟨enabled, hread⟩ := readCb_uses d hafter false q
  have hlast : (w.step d (.read true p)).lastPressed = true ∧
      (w.step d (.read true p)).lastPoint = p := by
    obtain ⟨enabled', hread'⟩ := readCb_uses d h true p
    simp only [step, hread', transformPointIndev, if_true, and_self]
  rw [hread]
  simp only [transformPointIndev, Bool.false_eq_true, if_false, hlast.1, if_true, hlast.2]
  exact seen_transformPoint (w := { w.step d (.read true p) with inputEnabled := enabled }) d
    hafter.calib p false

/-- In exact arithmetic, once three touches that are not on one line are taken, whatever else
happened between them, the map is the one that sends them to the crosshairs; and in any run
that does not start over, LVGL sees each touch and its release where that map says, however
the display is turned. Before, it sees no touch at all. -/
theorem calibration_run [IsStrictOrderedRing K] {w : World K} (d : Display) (h : w.Recording [])
    (es : List Event) {p₀ p₁ : RawPoint} (p₂ : RawPoint)
    (hfirst : firsts w.inputEnabled es = [p₀, p₁]) (hup : enabledAfter w.inputEnabled es = true)
    (harea : rawArea K ![p₀, p₁, p₂] ≠ 0) (more : List Event)
    (hmore : Run.Along (step d) Keeps (Run.run (step d) w (es ++ [.read true p₂])) more) :
    (∀ pre pressed p post, es = pre ++ .read pressed p :: post →
      ((Run.run (step d) w pre).readCb d pressed p).2 = ⟨false, some ⟨0, 0⟩⟩) ∧
    ∃ c : Coeff K, Fits c w.scrPoints ![p₀, p₁, p₂] ∧
      (∀ c', Fits c' w.scrPoints ![p₀, p₁, p₂] → c' = c) ∧
      (∀ i, c.screen (![p₀, p₁, p₂] i) = w.scrPoints i) ∧
      ∀ p q,
        seen d ((Run.run (step d) w (es ++ .read true p₂ :: more)).readCb d true p).2 =
          some (c.screen p) ∧
        seen d (((Run.run (step d) w (es ++ .read true p₂ :: more)).step d
          (.read true p)).readCb d false q).2 = some (c.screen p) := by
  have hrun := recording_run d h es (by rw [hfirst]; simp)
  rw [hfirst, List.nil_append, hup] at hrun
  obtain ⟨hrec, hscr, henabled⟩ := hrun
  obtain ⟨c, huses, hfits⟩ := calibrated_touch d hrec henabled p₂ harea
  rw [hscr] at hfits
  constructor
  · rintro pre pressed p post rfl
    have hcut := firsts_append w.inputEnabled pre (.read pressed p :: post)
    have hone := firsts_append (enabledAfter w.inputEnabled pre) [.read pressed p] post
    rw [List.singleton_append] at hone
    rw [hfirst, hone] at hcut
    have hlen := congrArg List.length hcut
    simp only [List.length_append, List.length_cons, List.length_nil] at hlen
    have hpre := recording_run d h pre (by rw [List.nil_append]; omega)
    apply recording_silent d hpre.1
    rw [hpre.2.2, List.nil_append, List.length_append]
    omega
  · have hend : (Run.run (step d) w (es ++ .read true p₂ :: more)).Uses c := by
      have hsplit : es ++ .read true p₂ :: more = (es ++ [.read true p₂]) ++ more := by simp
      rw [hsplit, Run.run_append]
      apply uses_run d _ more hmore
      rw [Run.run_append]
      exact huses
    refine ⟨c, hfits, fun c' hc' => hfits.unique hc' harea, fun i => ?_, fun p q => ?_⟩
    · rw [Coeff.screen, (hfits i).1, (hfits i).2, lround_int, lround_int]
    · exact ⟨seen_press d hend p, seen_release d hend p q⟩

-- Three touches, the second held on, with a stray tick of the timer between them.
def touches : List Event :=
  [.read true ⟨100, 200⟩, .read false ⟨0, 0⟩, .second, .read true ⟨900, 210⟩, .read true ⟨905, 211⟩,
    .read false ⟨0, 0⟩]

def waiting : World ℚ where
  scrPoints := ![⟨72, 144⟩, ⟨320, 408⟩, ⟨728, 72⟩]
  currentStep := stepFirst

theorem recording_waiting : waiting.Recording [] := by
  refine ⟨rfl, rfl, by decide, ?_, rfl, rfl⟩
  intro i hi
  cases hi

theorem touches_calibrate :
    ∃ c : Coeff ℚ, ∀ i, c.screen (![⟨100, 200⟩, ⟨900, 210⟩, ⟨500, 800⟩] i) =
      waiting.scrPoints i := by
  obtain ⟨-, c, -, -, hscreen, -⟩ := calibration_run ⟨800, 480, .rot90⟩ recording_waiting touches
    ⟨500, 800⟩ rfl rfl (by decide +kernel) [] trivial
  exact ⟨c, hscreen⟩

/-! ### A calibration that is not accepted -/

/-- How the timers stand at each step. -/
structure Timed (w : World K) : Prop where
  step : w.currentStep ≤ stepFinish
  delay : w.startDelay = true → w.onScreen = true ∧ w.currentStep = stepInit
  counting : w.onScreen = true → w.currentStep = stepFinish →
    ∃ n, w.recalibrate = some (n + 1) ∧ n < recalibTimeoutS
  still : ¬ (w.onScreen = true ∧ w.currentStep = stepFinish) → w.recalibrate = none

omit [Field K] [LinearOrder K] [FloorRing K] in
theorem timed_start (w : World K) : w.start.Timed := by
  refine ⟨Nat.zero_le _, fun _ => ⟨rfl, rfl⟩, fun _ hstep => ?_, fun _ => rfl⟩
  cases hstep

/-- The fields the timers are about. -/
def timers (w : World K) : ℕ × Bool × Option ℕ × Bool :=
  (w.currentStep, w.startDelay, w.recalibrate, w.onScreen)

theorem timers_transformPointIndev (d : Display) (w : World K) (pressed : Bool) (p : RawPoint) :
    (w.transformPointIndev d pressed p).1.timers = w.timers := by
  unfold transformPointIndev
  split_ifs <;> rfl

omit [FloorRing K] in
theorem timers_inputCb (w : World K) (pressed : Bool) (p : RawPoint) :
    (w.inputCb pressed p).timers = w.timers ∨
      stepInit < w.currentStep ∧ w.currentStep < stepFinish ∧
        (w.inputCb pressed p).timers = (w.currentStep + 1, w.startDelay,
          if w.currentStep + 1 = stepFinish then some recalibTimeoutS else w.recalibrate,
          w.onScreen) := by
  unfold inputCb
  cases pressed with
  | false =>
    left
    simp [timers]
  | true =>
    simp only [Bool.and_true, if_true]
    by_cases henabled : w.inputEnabled = true
    · rw [if_pos henabled, processInput]
      by_cases hin : stepInit < w.currentStep ∧ w.currentStep < stepFinish
      · right
        refine ⟨hin.1, hin.2, ?_⟩
        rw [if_pos hin, stepTo]
        dsimp only
        split_ifs <;> rfl
      · rw [if_neg hin]
        exact Or.inl rfl
    · rw [if_neg henabled]
      exact Or.inl rfl

theorem timers_read (d : Display) (w : World K) (pressed : Bool) (p : RawPoint) :
    (w.step d (.read pressed p)).timers = w.timers ∨
      w.onScreen = true ∧ stepInit < w.currentStep ∧ w.currentStep < stepFinish ∧
        (w.step d (.read pressed p)).timers = (w.currentStep + 1, w.startDelay,
          if w.currentStep + 1 = stepFinish then some recalibTimeoutS else w.recalibrate,
          w.onScreen) := by
  have hstep : (w.step d (.read pressed p)).timers =
      if w.onScreen then (w.inputCb pressed p).timers else w.timers := by
    simp only [step, readCb]
    split_ifs
    · exact timers_transformPointIndev d _ pressed p
    · rfl
    · exact timers_transformPointIndev d _ pressed p
  rw [hstep]
  by_cases hon : w.onScreen = true
  · rw [if_pos hon]
    rcases timers_inputCb w pressed p with hsame | ⟨hlo, hhi, hnext⟩
    · exact Or.inl hsame
    · exact Or.inr ⟨hon, hlo, hhi, hnext⟩
  · rw [if_neg hon]
    exact Or.inl rfl

omit [Field K] [LinearOrder K] [FloorRing K] in
theorem timed_of_timers {w v : World K} (h : w.Timed) (hv : v.timers = w.timers) : v.Timed := by
  simp only [timers, Prod.mk.injEq] at hv
  obtain ⟨hstep, hdelay, hrecal, hon⟩ := hv
  constructor
  · rw [hstep]
    exact h.step
  · rw [hdelay, hon, hstep]
    exact h.delay
  · rw [hon, hstep, hrecal]
    exact h.counting
  · rw [hon, hstep, hrecal]
    exact h.still

theorem timed_step {w : World K} (h : w.Timed) (d : Display) (e : Event) : (w.step d e).Timed := by
  cases e with
  | read pressed p =>
    rcases timers_read d w pressed p with hsame | ⟨hon, hlo, hhi, hnext⟩
    · exact timed_of_timers h hsame
    · simp only [timers, Prod.mk.injEq] at hnext
      obtain ⟨hstep, hdelay, hrecal, hon'⟩ := hnext
      constructor
      · omega
      · intro hd
        rw [hdelay] at hd
        have hzero := (h.delay hd).2
        omega
      · intro _ hfin
        rw [hstep] at hfin
        rw [hrecal, if_pos hfin]
        exact ⟨29, rfl, by decide⟩
      · intro hnot
        rw [hon', hstep] at hnot
        rw [hrecal, if_neg (fun hfin => hnot ⟨hon, hfin⟩)]
        exact h.still fun hc => by omega
  | startDelay =>
    simp only [step]
    split_ifs with hdelay
    · have hstart := h.delay hdelay
      refine ⟨(by decide : stepFirst ≤ stepFinish), fun hd => absurd hd Bool.false_ne_true,
        fun _ hfin => ?_,
        fun _ => ?_⟩
      · cases hfin
      · exact h.still fun hc => by
          rw [hstart.2] at hc
          exact absurd hc.2 (by decide)
    · exact h
  | second =>
    simp only [step, second]
    split
    · exact timed_start w
    · rename_i n hrecal
      have hfin : w.onScreen = true ∧ w.currentStep = stepFinish := by
        by_contra hnot
        rw [h.still hnot] at hrecal
        cases hrecal
      obtain ⟨m, hm, hlt⟩ := h.counting hfin.1 hfin.2
      rw [hrecal, Option.some_inj] at hm
      refine ⟨h.step, h.delay, fun _ _ => ⟨n, rfl, by omega⟩, fun hnot => absurd hfin hnot⟩
    · exact h
  | recalibrateBtn =>
    simp only [step]
    split_ifs
    · exact timed_start w
    · exact h
  | acceptBtn =>
    simp only [step]
    split_ifs with hfin
    · refine ⟨h.step, fun hd => ?_, fun hoff => absurd hoff Bool.false_ne_true, fun _ => rfl⟩
      have hzero := (h.delay hd).2
      rw [hfin.2] at hzero
      cases hzero
    · exact h

theorem timed_run {w : World K} (h : w.Timed) (d : Display) (es : List Event) :
    (Run.run (step d) w es).Timed :=
  Run.invariant_always (I := Timed) (fun _ e h => timed_step h d e) w es h

def seconds (es : List Event) : ℕ := es.countP fun e => match e with
  | .second => true
  | _ => false

theorem restarts_within {w : World K} (d : Display) (h : w.Timed) {n : ℕ}
    (hn : w.recalibrate = some (n + 1)) (es : List Event) (haccept : .acceptBtn ∉ es)
    (hlong : n < seconds es) :
    ∃ pre post, es = pre ++ post ∧ (Run.run (step d) w pre).currentStep = stepInit ∧
      (Run.run (step d) w pre).startDelay = true := by
  have hfin : w.onScreen = true ∧ w.currentStep = stepFinish := by
    by_contra hnot
    rw [h.still hnot] at hn
    cases hn
  induction es generalizing w n with
  | nil => simp [seconds] at hlong
  | cons e es ih =>
    have hrest : .acceptBtn ∉ es := fun hmem => haccept (List.mem_cons_of_mem e hmem)
    -- an event that leaves the count and the screen as they are
    have hgo : ∀ {m : ℕ}, (w.step d e).recalibrate = some (m + 1) → m < seconds es →
        (w.step d e).onScreen = true ∧ (w.step d e).currentStep = stepFinish →
        ∃ pre post, e :: es = pre ++ post ∧ (Run.run (step d) w pre).currentStep = stepInit ∧
          (Run.run (step d) w pre).startDelay = true := by
      intro m hm hlt hfin'
      obtain ⟨pre, post, hsplit, hend⟩ := ih (timed_step h d e) hm hrest hlt hfin'
      exact ⟨e :: pre, post, by rw [hsplit]; rfl, hend⟩
    cases e with
    | read pressed p =>
      have hlt : n < seconds es := by simpa [seconds] using hlong
      rcases timers_read d w pressed p with hsame | ⟨-, -, hhi, -⟩
      · simp only [timers, Prod.mk.injEq] at hsame
        exact hgo (hsame.2.2.1.trans hn) hlt ⟨hsame.2.2.2.trans hfin.1, hsame.1.trans hfin.2⟩
      · omega
    | startDelay =>
      have hlt : n < seconds es := by simpa [seconds] using hlong
      have hnone : w.startDelay = false := by
        by_contra hd
        have hzero := (h.delay (by simpa using hd)).2
        rw [hfin.2] at hzero
        cases hzero
      have hsame : w.step d .startDelay = w := by simp [step, hnone]
      exact hgo (by rw [hsame]; exact hn) hlt (by rw [hsame]; exact hfin)
    | second =>
      cases n with
      | zero =>
        have hstart : w.step d .second = w.start := by simp [step, second, hn]
        refine ⟨[.second], es, rfl, ?_, ?_⟩
        · rw [Run.run_cons, hstart]
          rfl
        · rw [Run.run_cons, hstart]
          rfl
      | succ n =>
        have hlt : n < seconds es := by
          simp only [seconds, List.countP_cons, if_true] at hlong ⊢
          omega
        have hless : w.step d .second = { w with recalibrate := some (n + 1) } := by
          simp [step, second, hn]
        exact hgo (by rw [hless]) hlt (by rw [hless]; exact hfin)
    | recalibrateBtn =>
      have hstart : w.step d .recalibrateBtn = w.start := if_pos hfin
      refine ⟨[.recalibrateBtn], es, rfl, ?_, ?_⟩
      · rw [Run.run_cons, hstart]
        rfl
      · rw [Run.run_cons, hstart]
        rfl
    | acceptBtn => exact absurd (List.mem_cons_self ..) haccept

/-- From any moment of any calibration that is finished but not accepted, however bad its
map: within thirty seconds the screen starts over, whatever is touched. -/
theorem unaccepted_restarts (d : Display) (w : World K) (before es : List Event)
    (hfin : (Run.run (step d) w.start before).onScreen = true ∧
      (Run.run (step d) w.start before).currentStep = stepFinish)
    (haccept : .acceptBtn ∉ es) (hlong : recalibTimeoutS ≤ seconds es) :
    ∃ pre post, es = pre ++ post ∧
      (Run.run (step d) w.start (before ++ pre)).currentStep = stepInit ∧
      (Run.run (step d) w.start (before ++ pre)).startDelay = true := by
  have htimed := timed_run (timed_start w) d before
  obtain ⟨n, hn, hlt⟩ := htimed.counting hfin.1 hfin.2
  obtain ⟨pre, post, hsplit, hend⟩ :=
    restarts_within d htimed hn es haccept (Nat.lt_of_lt_of_le hlt hlong)
  rw [← Run.run_append] at hend
  exact ⟨pre, post, hsplit, hend⟩

def screen : Display := ⟨800, 480, .rot90⟩

def idle : World ℚ := { scrPoints := waiting.scrPoints }

def finished : List Event := .startDelay :: touches ++ [.read true ⟨500, 800⟩]

theorem touches_restart :
    ∃ pre post, List.replicate 30 Event.second = pre ++ post ∧
      (Run.run (step screen) idle.start (finished ++ pre)).currentStep = stepInit := by
  have hfin : (Run.run (step screen) idle.start finished).onScreen = true ∧
      (Run.run (step screen) idle.start finished).currentStep = stepFinish := by
    decide +kernel
  obtain ⟨pre, post, hsplit, hend, -⟩ := unaccepted_restarts screen idle finished
    (List.replicate 30 .second) hfin (by simp) (by decide)
  exact ⟨pre, post, hsplit, hend⟩

/-! ### A calibration that is accepted -/

/-- The next start of the program, from the coefficients in the config file. What is not
finite was written as null, which `get<std::vector<float>>` throws at. -/
def boot (scr : Fin 3 → RawPoint) : Option (Result K) → Option (World K)
  | none => some (start { scrPoints := scr })
  | some (.valid c) => some
    { calib := .valid c
      scrPoints := scr
      onScreen := false
      saved := some (.valid c) }
  | some _ => none

/-- A finished screen holds the fit of its own points. -/
def Fitted (w : World K) : Prop :=
  w.onScreen = true → w.currentStep = stepFinish → w.calib = computeCoeff w.scrPoints w.tchPoints

omit [FloorRing K] in
theorem fitted_start (w : World K) : w.start.Fitted := by
  intro _ hstep
  cases hstep

theorem fitted_step {w : World K} (h : w.Fitted) (d : Display) (e : Event) :
    (w.step d e).Fitted := by
  have hcb : ∀ pressed p, (w.inputCb pressed p).Fitted := by
    intro pressed p
    have hin : (w.processInput p).Fitted := by
      unfold processInput
      split_ifs with hin
      · unfold stepTo
        dsimp only
        split_ifs with hlast
        · exact fun _ _ => rfl
        · intro _ hstep
          exact absurd hstep hlast
      · exact h
    unfold inputCb
    cases pressed with
    | true =>
      simp only [Bool.and_true, if_true]
      split_ifs
      · exact hin
      · exact h
    | false =>
      simp only [Bool.and_false, Bool.false_eq_true, if_false]
      exact h
  have htransform : ∀ v : World K, v.Fitted → ∀ pressed p,
      (v.transformPointIndev d pressed p).1.Fitted := by
    intro v hv pressed p
    unfold transformPointIndev
    split_ifs <;> exact hv
  cases e with
  | read pressed p =>
    simp only [step, readCb]
    split_ifs
    · exact htransform _ (hcb pressed p) pressed p
    · exact hcb pressed p
    · exact htransform w h pressed p
  | startDelay =>
    simp only [step]
    split_ifs
    · intro _ hstep
      cases hstep
    · exact h
  | second =>
    simp only [step, second]
    split
    · exact fitted_start w
    · exact h
    · exact h
  | recalibrateBtn =>
    simp only [step]
    split_ifs
    · exact fitted_start w
    · exact h
  | acceptBtn =>
    simp only [step]
    split_ifs
    · intro hon
      cases hon
    · exact h

/-- In exact arithmetic, pressing Accept saves a calibration that the next start loads, exactly
when the three touches were not on one line. Otherwise no later start gets past the saved
file. -/
theorem accepted_boots_iff (d : Display) (w : World K) (es : List Event)
    (hfin : (Run.run (step d) w.start es).onScreen = true ∧
      (Run.run (step d) w.start es).currentStep = stepFinish) (scr : Fin 3 → RawPoint) :
    ((∃ b, boot scr (Run.run (step d) w.start (es ++ [.acceptBtn])).saved = some b ∧
        b.calib = (Run.run (step d) w.start es).calib ∧ b.onScreen = false) ↔
      rawArea K (Run.run (step d) w.start es).tchPoints ≠ 0) ∧
    (rawArea K (Run.run (step d) w.start es).tchPoints = 0 →
      boot scr (Run.run (step d) w.start (es ++ [.acceptBtn])).saved = none) := by
  have hfitted : (Run.run (step d) w.start es).Fitted :=
    Run.invariant_always (I := Fitted) (fun _ e h => fitted_step h d e) _ es (fitted_start w)
  have hcalib := hfitted hfin.1 hfin.2
  have hsaved : (Run.run (step d) w.start (es ++ [.acceptBtn])).saved =
      some (Run.run (step d) w.start es).calib := by
    rw [Run.run_append, Run.run_cons, Run.run_nil]
    simp only [step, if_pos hfin]
  have hnone : rawArea K (Run.run (step d) w.start es).tchPoints = 0 →
      boot scr (Run.run (step d) w.start (es ++ [.acceptBtn])).saved = none := by
    intro harea
    have hdiv := divisor_eq (cast K ((Run.run (step d) w.start es).tchPoints 0))
      (cast K ((Run.run (step d) w.start es).tchPoints 1))
      (cast K ((Run.run (step d) w.start es).tchPoints 2))
    rw [show Affine.area _ _ _ = (0 : K) from harea, neg_zero] at hdiv
    rw [hsaved, hcalib, computeCoeff]
    simp only [if_pos hdiv, boot]
  refine ⟨⟨?_, ?_⟩, hnone⟩
  · rintro ⟨b, hb, -⟩ harea
    rw [hnone harea] at hb
    cases hb
  · intro harea
    obtain ⟨c, hc, -⟩ := computeCoeff_fits (K := K) (Run.run (step d) w.start es).scrPoints harea
    rw [hsaved, hcalib, hc]
    exact ⟨_, rfl, rfl, rfl⟩

theorem touches_boot :
    ∃ b, boot idle.scrPoints (Run.run (step screen) idle.start (finished ++ [.acceptBtn])).saved =
      some b ∧ b.onScreen = false := by
  have hfin : (Run.run (step screen) idle.start finished).onScreen = true ∧
      (Run.run (step screen) idle.start finished).currentStep = stepFinish := by
    decide +kernel
  obtain ⟨b, hb, -, hoff⟩ := (accepted_boots_iff screen idle finished hfin idle.scrPoints).1.mpr
    (by decide +kernel)
  exact ⟨b, hb, hoff⟩

end World

/-! ### The crosshairs -/

/-- A resolution times a constant of the source, stored in an `lv_coord_t`. -/
def share (n : ℤ) (c : ℚ) : ℤ := trunc (Double.rnd (n * Double.rnd c))

/-- `lv_tc_screen_auto_set_points`, of the resolutions LVGL gives. -/
def autoSetPoints (hor ver : ℤ) : Fin 3 → RawPoint :=
  let marginH := share hor (15 / 100)
  let marginV := share ver (15 / 100)
  let margin := if marginH < marginV then marginH else marginV
  ![⟨margin, share ver (3 / 10)⟩, ⟨share hor (4 / 10), ver - margin⟩, ⟨hor - margin, margin⟩]

theorem rnd_nonneg {q : ℚ} (h : 0 ≤ q) : 0 ≤ Double.rnd q := by
  have hu := Double.ulp_pos q
  have hround := Double.roundHalfEven_nonneg (div_nonneg h hu.le)
  unfold Double.rnd
  have hcast : (0 : ℚ) ≤ (Double.roundHalfEven (q / Double.ulp q) : ℚ) := by exact_mod_cast hround
  exact mul_nonneg hcast hu.le

/-- The product is off by less than a thousandth, the cast by less than one. -/
theorem share_bounds {n : ℤ} (hn : 1 ≤ n) (hn' : n ≤ 32767) {c : ℚ} (hc : 0 < c) (hc' : c < 1) :
    (share n c : ℚ) ≤ n * c + 1 / 1000 ∧ n * c - 1 / 1000 - 1 < share n c ∧ 0 ≤ share n c := by
  have hnq : (1 : ℚ) ≤ n := by exact_mod_cast hn
  have hnq' : (n : ℚ) ≤ 32767 := by exact_mod_cast hn'
  have hconst := abs_le.mp
    (Double.abs_rnd_sub_lt (q := c) (b := 1) (by rw [abs_of_pos hc]; exact hc') le_rfl)
  have hpos := rnd_nonneg hc.le
  have hprod : 0 ≤ n * Double.rnd c := mul_nonneg (by linarith) hpos
  have hle : n * Double.rnd c ≤ n * c + 32767 / 2 ^ 53 := by nlinarith
  have hge : n * c - 32767 / 2 ^ 53 ≤ n * Double.rnd c := by nlinarith
  have hsmall : |(n : ℚ) * Double.rnd c| < 2 ^ 16 := by
    rw [abs_of_nonneg hprod]
    have hnc : (n : ℚ) * c ≤ 32767 := by nlinarith
    norm_num at hle ⊢
    linarith
  have hround := abs_le.mp (Double.abs_rnd_sub_lt hsmall (by norm_num))
  have hstored := rnd_nonneg hprod
  have hshare : share n c = ⌊Double.rnd (n * Double.rnd c)⌋ := if_pos hstored
  have hfloor := Int.floor_le (Double.rnd (n * Double.rnd c))
  have hfloor' := Int.lt_floor_add_one (Double.rnd (n * Double.rnd c))
  rw [hshare]
  norm_num at hround hle hge
  refine ⟨by linarith, by linarith, Int.floor_nonneg.mpr hstored⟩

/-- The crosshairs turn the same way round, whatever the size of the display. -/
theorem crosshairs_turn {hor ver : ℤ} (hhor : 1 ≤ hor) (hhor' : hor ≤ 32767) (hver : 1 ≤ ver)
    (hver' : ver ≤ 32767) {s : Fin 3 → RawPoint} (hs : autoSetPoints hor ver = s) :
    ((s 1).x - (s 0).x) * ((s 2).y - (s 0).y) - ((s 2).x - (s 0).x) * ((s 1).y - (s 0).y) < 0 := by
  obtain ⟨hmh, -, hmh0⟩ := share_bounds hhor hhor' (c := 15 / 100) (by norm_num) (by norm_num)
  obtain ⟨hmv, -, hmv0⟩ := share_bounds hver hver' (c := 15 / 100) (by norm_num) (by norm_num)
  obtain ⟨-, hx, -⟩ := share_bounds hhor hhor' (c := 4 / 10) (by norm_num) (by norm_num)
  obtain ⟨hy, hy', -⟩ := share_bounds hver hver' (c := 3 / 10) (by norm_num) (by norm_num)
  have hh : (1 : ℚ) ≤ hor := by exact_mod_cast hhor
  have hv : (1 : ℚ) ≤ ver := by exact_mod_cast hver
  generalize hm : (if share hor (15 / 100) < share ver (15 / 100) then share hor (15 / 100)
    else share ver (15 / 100)) = m
  have hmargin : m ≤ share hor (15 / 100) ∧ m ≤ share ver (15 / 100) := by
    rw [← hm]
    split_ifs <;> omega
  have hmq : (m : ℚ) ≤ share hor (15 / 100) := by exact_mod_cast hmargin.1
  have hmq' : (m : ℚ) ≤ share ver (15 / 100) := by exact_mod_cast hmargin.2
  have hX : m ≤ share hor (4 / 10) := by
    have hlt : ((m - 1 : ℤ) : ℚ) < share hor (4 / 10) := by
      push_cast
      linarith
    have hint := Int.cast_lt.mp hlt
    omega
  have hY : m ≤ share ver (3 / 10) := by
    have hlt : ((m - 1 : ℤ) : ℚ) < share ver (3 / 10) := by
      push_cast
      linarith
    have hint := Int.cast_lt.mp hlt
    omega
  have hwide : 0 < hor - m - m := by
    have hlt : ((0 : ℤ) : ℚ) < ((hor - m - m : ℤ) : ℚ) := by
      push_cast
      linarith
    exact Int.cast_lt.mp hlt
  have hhigh : 0 < ver - m - share ver (3 / 10) := by
    have hlt : ((0 : ℤ) : ℚ) < ((ver - m - share ver (3 / 10) : ℤ) : ℚ) := by
      push_cast
      linarith
    exact Int.cast_lt.mp hlt
  subst hs
  unfold autoSetPoints
  rw [hm]
  change (share hor (4 / 10) - m) * (m - share ver (3 / 10)) -
    (hor - m - m) * (ver - m - share ver (3 / 10)) < 0
  have hfirst : 0 ≤ (share hor (4 / 10) - m) * (share ver (3 / 10) - m) :=
    mul_nonneg (by omega) (by omega)
  have hsecond := mul_pos hwide hhigh
  nlinarith

section
variable {K : Type} [Field K]

theorem rawArea_eq (s : Fin 3 → RawPoint) : rawArea K s =
    (((s 1).x - (s 0).x) * ((s 2).y - (s 0).y) - ((s 2).x - (s 0).x) *
      ((s 1).y - (s 0).y) : ℤ) := by
  unfold rawArea Affine.area cast
  push_cast
  ring

/-- The map of an affine panel scales every area by the same factor. -/
theorem area_of_fits {c : Coeff K} {scr tch : Fin 3 → RawPoint} (h : Fits c scr tch) :
    rawArea K scr = (c.forX.a * c.forY.b - c.forX.b * c.forY.a) * rawArea K tch := by
  have h0 := h 0
  have h1 := h 1
  have h2 := h 2
  unfold rawArea Affine.area cast at *
  dsimp only [Affine.eval] at h0 h1 h2 ⊢
  rw [← h0.1, ← h0.2, ← h1.1, ← h1.2, ← h2.1, ← h2.2]
  ring

/-- On an affine panel of any size, three exact touches of the crosshairs give the panel's
own map, in exact arithmetic. -/
theorem calibration_complete [DecidableEq K] [CharZero K] {hor ver : ℤ} (hhor : 1 ≤ hor)
    (hhor' : hor ≤ 32767) (hver : 1 ≤ ver) (hver' : ver ≤ 32767) {panel : Coeff K}
    {tch : Fin 3 → RawPoint} (htouch : Fits panel (autoSetPoints hor ver) tch) :
    computeCoeff (autoSetPoints hor ver) tch = .valid panel := by
  have hturn := crosshairs_turn hhor hhor' hver hver' rfl
  have hscr : rawArea K (autoSetPoints hor ver) ≠ 0 := by
    rw [rawArea_eq, Int.cast_ne_zero]
    exact Int.ne_of_lt hturn
  have hraw : rawArea K tch ≠ 0 := by
    intro hzero
    rw [area_of_fits htouch, hzero, mul_zero] at hscr
    exact hscr rfl
  obtain ⟨c, hc, hfits⟩ := computeCoeff_fits (K := K) (autoSetPoints hor ver) hraw
  rw [hc, hfits.unique htouch hraw]

end

-- A panel that reads y first and a tenth of a pixel at a time.
def turned : Coeff ℚ := ⟨⟨0, 1 / 10, 0⟩, ⟨1 / 10, 0, 0⟩⟩

theorem turned_found :
    computeCoeff (autoSetPoints 800 480) ![⟨1440, 720⟩, ⟨4080, 3200⟩, ⟨720, 7280⟩] =
      .valid turned := by
  apply calibration_complete <;> decide +kernel

end GuppyScreen.TouchCalibration
