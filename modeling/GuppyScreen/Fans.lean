import GuppyScreen.Lib.Pointer
import GuppyScreen.Utils
import Mathlib.Tactic.FieldSimp
import Mathlib.Tactic.Positivity

/-!
# Fan percentages (utils.cpp, fan_panel.cpp, print_status_panel.cpp)

A slider speaks percent, `SET_PIN` a raw value in the pin's scale, and Klipper
reports the value between 0 and 1. A fan may have a minimum below which it does not
turn. The arithmetic is exact here: a double is a rational.
-/

namespace GuppyScreen
open Lib Text

namespace KUtils

def asNumber (fallback : ℚ) : Json → ℚ
  | .str text => Double.parseDouble text fallback
  | v => v.number?.getD fallback

def configNumber (s : State) (sectionName key : String) (fallback : ℚ) : ℚ :=
  let settings := s.getData ["printer_state", "configfile", "settings"]
  ((settings.get? (lower sectionName)).bind fun v => v.get? key).elim fallback (asNumber fallback)

def getObjName (id : String) : String :=
  String.ofList (id.toList.reverse.takeWhile (· ≠ ' ')).reverse

/-- `none` where the name is no part of a JSON pointer, which throws. -/
def fanMinRaw (s : State) (fanId : String) : Option ℚ :=
  (Pointer.parse ("/printer_state/gcode_macro PRINTER_PARAM/" ++ getObjName fanId ++ "_min")).map
    fun ptr => asNumber 0 (s.getData ptr)

def fanScale (s : State) (fanId : String) : ℚ :=
  let scale := configNumber s fanId "scale" 255
  if 0 < scale then scale else 255

def pctToRaw (scale min : ℚ) (pct : ℤ) : ℚ :=
  if min ≤ 0 ∨ scale ≤ min then scale * pct / 100 else min + (scale - min) * pct / 100

def fanPctToRaw (s : State) (fanId : String) (pct : ℤ) : Option ℚ :=
  if pct ≤ 0 then some 0
  else (fanMinRaw s fanId).map fun min => pctToRaw (fanScale s fanId) min pct

def clampPct (pct : ℚ) : ℤ :=
  if pct < 0 then 0 else if 100 < pct then 100 else ⌊pct + 1 / 2⌋

def valueToPct (scale min value : ℚ) : ℤ :=
  let raw := value * scale
  clampPct (if min ≤ 0 ∨ scale ≤ min then raw * 100 / scale else (raw - min) * 100 / (scale - min))

def fanValueToPct (s : State) (fanId : String) (value : ℚ) : Option ℤ :=
  (fanMinRaw s fanId).map fun min => valueToPct (fanScale s fanId) min value

/-! ### The two directions -/

theorem fanScale_pos (s : State) (fanId : String) : 0 < fanScale s fanId := by
  unfold fanScale
  dsimp only
  split_ifs with h
  · exact h
  · norm_num

/-- Where the control starts: the minimum, or 0 where it says nothing. -/
def start (scale min : ℚ) : ℚ := if min ≤ 0 ∨ scale ≤ min then 0 else min

section
variable {scale : ℚ} (hscale : 0 < scale) (min : ℚ)

theorem start_nonneg : 0 ≤ start scale min := by
  unfold start
  split_ifs with h
  · exact le_refl 0
  · push Not at h
    exact h.1.le

theorem pctToRaw_eq (pct : ℤ) :
    pctToRaw scale min pct = start scale min + (scale - start scale min) * pct / 100 := by
  unfold pctToRaw start
  split_ifs
  · ring
  · rfl

theorem valueToPct_eq (value : ℚ) : valueToPct scale min value =
    clampPct ((value * scale - start scale min) * 100 / (scale - start scale min)) := by
  unfold valueToPct start
  dsimp only
  split_ifs
  · rw [sub_zero, sub_zero]
  · rfl

include hscale

theorem start_lt : start scale min < scale := by
  unfold start
  split_ifs with h
  · exact hscale
  · push Not at h
    exact h.2

theorem pctToRaw_mem {pct : ℤ} (h0 : 0 < pct) (h100 : pct ≤ 100) :
    0 < pctToRaw scale min pct ∧ pctToRaw scale min pct ≤ scale := by
  have hstart : 0 ≤ start scale min := start_nonneg min
  have hlt := start_lt hscale min
  have hp : (0 : ℚ) < pct := by exact_mod_cast h0
  have hq : (pct : ℚ) ≤ 100 := by exact_mod_cast h100
  have hspan : 0 < scale - start scale min := by linarith
  rw [pctToRaw_eq]
  constructor
  · positivity
  · have hmul : (scale - start scale min) * pct ≤ (scale - start scale min) * 100 :=
      mul_le_mul_of_nonneg_left hq hspan.le
    linarith

theorem pctToRaw_lt {p q : ℤ} (h : p < q) : pctToRaw scale min p < pctToRaw scale min q := by
  have hspan : 0 < scale - start scale min := by
    have := start_lt hscale min
    linarith
  have hpq : (p : ℚ) < q := by exact_mod_cast h
  have hmul := mul_lt_mul_of_pos_left hpq hspan
  rw [pctToRaw_eq, pctToRaw_eq]
  linarith

end

theorem clampPct_int {p : ℤ} (h0 : 0 ≤ p) (h100 : p ≤ 100) : clampPct p = p := by
  have hp : ¬ (p : ℚ) < 0 := by exact_mod_cast not_lt.mpr h0
  have hq : ¬ (100 : ℚ) < p := by exact_mod_cast not_lt.mpr h100
  rw [clampPct, if_neg hp, if_neg hq, Int.floor_eq_iff]
  constructor <;> linarith

theorem clampPct_mem (q : ℚ) : 0 ≤ clampPct q ∧ clampPct q ≤ 100 := by
  unfold clampPct
  split_ifs with h0 h100
  · omega
  · omega
  · push Not at h0 h100
    constructor
    · apply Int.floor_nonneg.mpr
      linarith
    · have hlt : ⌊q + 1 / 2⌋ < 101 := by
        apply Int.floor_lt.mpr
        push_cast
        linarith
      omega

theorem clampPct_mono {q r : ℚ} (h : q ≤ r) : clampPct q ≤ clampPct r := by
  have hq := clampPct_mem q
  have hr := clampPct_mem r
  by_cases hq0 : q < 0
  · have hzero : clampPct q = 0 := if_pos hq0
    omega
  by_cases hr100 : 100 < r
  · have hfull : clampPct r = 100 := by
      rw [clampPct, if_neg (by linarith), if_pos hr100]
    omega
  rw [clampPct, if_neg hq0, if_neg (by linarith), clampPct, if_neg (by linarith), if_neg hr100]
  apply Int.floor_le_floor
  linarith

theorem valueToPct_pctToRaw {scale : ℚ} (hscale : 0 < scale) (min : ℚ) {p : ℤ} (h0 : 0 ≤ p)
    (h100 : p ≤ 100) : valueToPct scale min (pctToRaw scale min p / scale) = p := by
  have hspan : scale - start scale min ≠ 0 := by
    have := start_lt hscale min
    linarith
  have hraw : pctToRaw scale min p / scale * scale = pctToRaw scale min p :=
    div_mul_cancel₀ _ hscale.ne'
  have hpct : (pctToRaw scale min p - start scale min) * 100 / (scale - start scale min) = p := by
    rw [pctToRaw_eq]
    field_simp
    ring
  rw [valueToPct_eq, hraw, hpct, clampPct_int h0 h100]

theorem valueToPct_zero {scale : ℚ} (hscale : 0 < scale) (min : ℚ) :
    valueToPct scale min 0 = 0 := by
  have hstart : 0 ≤ start scale min := start_nonneg min
  have hspan : 0 < scale - start scale min := by
    have := start_lt hscale min
    linarith
  have hle : (0 * scale - start scale min) * 100 / (scale - start scale min) ≤ 0 := by
    apply div_nonpos_of_nonpos_of_nonneg
    · linarith
    · exact hspan.le
  have hmono := clampPct_mono hle
  have hmem := clampPct_mem ((0 * scale - start scale min) * 100 / (scale - start scale min))
  have hzero : clampPct 0 = 0 := by norm_num [clampPct]
  rw [valueToPct_eq]
  omega

theorem valueToPct_mono {scale : ℚ} (hscale : 0 < scale) (min : ℚ) {v w : ℚ} (h : v ≤ w) :
    valueToPct scale min v ≤ valueToPct scale min w := by
  have hspan : 0 < scale - start scale min := by
    have := start_lt hscale min
    linarith
  have hraw : v * scale ≤ w * scale := mul_le_mul_of_nonneg_right h hscale.le
  rw [valueToPct_eq, valueToPct_eq]
  apply clampPct_mono
  apply div_le_div_of_nonneg_right _ hspan.le
  linarith

/-! ### What is sent and what is shown -/

theorem fanPctToRaw_of_pos {s : State} {fanId : String} {min : ℚ} (h : fanMinRaw s fanId = some min)
    {pct : ℤ} (hpct : 0 < pct) : fanPctToRaw s fanId pct =
      some (pctToRaw (fanScale s fanId) min pct) := by
  rw [fanPctToRaw, if_neg (by omega), h, Option.map_some]

theorem fanValueToPct_eq {s : State} {fanId : String} {min : ℚ} (h : fanMinRaw s fanId = some min)
    (value : ℚ) : fanValueToPct s fanId value = some (valueToPct (fanScale s fanId) min value) := by
  rw [fanValueToPct, h, Option.map_some]

theorem fanValueToPct_raw {s : State} {fanId : String} {min : ℚ} (h : fanMinRaw s fanId = some min)
    {p : ℤ} (h0 : 0 ≤ p) (h100 : p ≤ 100) : ∃ raw, fanPctToRaw s fanId p = some raw ∧
      fanValueToPct s fanId (raw / fanScale s fanId) = some p := by
  have hscale := fanScale_pos s fanId
  by_cases hp : p = 0
  · subst hp
    refine ⟨0, rfl, ?_⟩
    rw [zero_div, fanValueToPct_eq h, valueToPct_zero hscale]
  · refine ⟨_, fanPctToRaw_of_pos h (by omega), ?_⟩
    rw [fanValueToPct_eq h, valueToPct_pctToRaw hscale min h0 h100]

theorem fanPctToRaw_mem {s : State} {fanId : String} {min : ℚ} (h : fanMinRaw s fanId = some min)
    {p : ℤ} (h0 : 0 ≤ p) (h100 : p ≤ 100) {raw : ℚ} (hraw : fanPctToRaw s fanId p = some raw) :
    0 ≤ raw ∧ raw ≤ fanScale s fanId ∧ (raw = 0 ↔ p = 0) := by
  have hscale := fanScale_pos s fanId
  by_cases hp : p = 0
  · subst hp
    cases hraw
    exact ⟨le_refl 0, hscale.le, iff_of_true rfl rfl⟩
  · have hpos : 0 < p := by omega
    rw [fanPctToRaw_of_pos h hpos, Option.some_inj] at hraw
    obtain ⟨hlow, htop⟩ := pctToRaw_mem hscale min hpos h100
    rw [hraw] at hlow htop
    exact ⟨hlow.le, htop, iff_of_false hlow.ne' hp⟩

/-- A percentage survives the way to the pin and back, the raw value stays in the scale,
is 0 at 0 only and grows with the percentage, and what is shown grows with the value. -/
theorem fan_percent_round_trip {s : State} {fanId : String} {min : ℚ}
    (h : fanMinRaw s fanId = some min) :
    (∀ p : ℤ, 0 ≤ p → p ≤ 100 → ∃ raw, fanPctToRaw s fanId p = some raw ∧
      0 ≤ raw ∧ raw ≤ fanScale s fanId ∧ (raw = 0 ↔ p = 0) ∧
      fanValueToPct s fanId (raw / fanScale s fanId) = some p) ∧
    (∀ p q : ℤ, 0 ≤ p → p < q → q ≤ 100 → ∃ raw more, fanPctToRaw s fanId p = some raw ∧
      fanPctToRaw s fanId q = some more ∧ raw < more) ∧
    ∀ v w : ℚ, v ≤ w → ∃ a b, fanValueToPct s fanId v = some a ∧ fanValueToPct s fanId w = some b ∧
      0 ≤ a ∧ a ≤ b ∧ b ≤ 100 := by
  have hscale := fanScale_pos s fanId
  refine ⟨?_, ?_, ?_⟩
  · intro p h0 h100
    obtain ⟨raw, hraw, hback⟩ := fanValueToPct_raw h h0 h100
    obtain ⟨hlow, htop, hzero⟩ := fanPctToRaw_mem h h0 h100 hraw
    exact ⟨raw, hraw, hlow, htop, hzero, hback⟩
  · intro p q h0 hpq h100
    have hq := fanPctToRaw_of_pos h (show 0 < q by omega)
    by_cases hp : p = 0
    · subst hp
      exact ⟨0, _, rfl, hq, (pctToRaw_mem hscale min hpq h100).1⟩
    · exact ⟨_, _, fanPctToRaw_of_pos h (by omega), hq, pctToRaw_lt hscale min hpq⟩
  · intro v w hvw
    refine ⟨_, _, fanValueToPct_eq h v, fanValueToPct_eq h w, ?_,
      valueToPct_mono hscale min hvw, ?_⟩
    · rw [valueToPct_eq]
      exact (clampPct_mem _).1
    · rw [valueToPct_eq]
      exact (clampPct_mem _).2

def fanState : State :=
  ⟨.obj (.cons "printer_state" (.obj
    (.cons "configfile" (.obj (.cons "settings" (.obj
      (.cons "output_pin fan2" (.obj (.cons "scale" (.int 255) .nil)) .nil)) .nil))
    (.cons "gcode_macro PRINTER_PARAM" (.obj (.cons "fan2_min" (.int 180) .nil)) .nil))) .nil)⟩

theorem fan2_round_trip : fanMinRaw fanState "output_pin fan2" = some 180 ∧
    ∃ raw, fanPctToRaw fanState "output_pin fan2" 40 = some raw ∧
      fanValueToPct fanState "output_pin fan2" (raw / fanScale fanState "output_pin fan2") =
        some 40 := by
  have hmin : fanMinRaw fanState "output_pin fan2" = some 180 := by decide +kernel
  obtain ⟨raw, hraw, -, -, -, hback⟩ :=
    (fan_percent_round_trip hmin).1 40 (by decide) (by decide)
  exact ⟨hmin, raw, hraw, hback⟩

end KUtils

namespace FanPanel
open KUtils

/-- `handle_fan_update`: the pin of SET_PIN and its value, before it is printed. -/
def handleFanUpdate (s : State) (fanId : String) (pct : ℤ) : Option (String × ℚ) :=
  (fanPctToRaw s fanId pct).map fun raw => (getObjName fanId, raw)

/-- What a fan shows after a message: its value first, and over it its speed. -/
def shown (s : State) (fanId : String) (old : ℤ) (value speed : Json) : Option ℤ :=
  let afterValue := if value = .null then some old else value.number?.bind (fanValueToPct s fanId)
  afterValue.bind fun v =>
    if speed = .null then some v else speed.number?.map fun q => toInt (.float (q * 100))

/-- What the slider asked for is what slider and tile show once Klipper reports it. -/
theorem shown_after_update {s : State} {fanId : String} {min : ℚ} (h : fanMinRaw s fanId = some min)
    {p : ℤ} (h0 : 0 ≤ p) (h100 : p ≤ 100) :
    ∃ raw, handleFanUpdate s fanId p = some (getObjName fanId, raw) ∧
      ∀ old, shown s fanId old (.float (raw / fanScale s fanId)) .null = some p := by
  obtain ⟨raw, hraw, hback⟩ := fanValueToPct_raw h h0 h100
  refine ⟨raw, ?_, ?_⟩
  · rw [handleFanUpdate, hraw]
    rfl
  · intro old
    simp [shown, Json.number?, hback]

end FanPanel

end GuppyScreen
