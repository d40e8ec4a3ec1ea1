import GuppyScreen.Lib.Run
import GuppyScreen.Utils
import Mathlib.Algebra.Order.Floor.Ring
import Mathlib.Data.Rat.Floor
import Mathlib.Tactic.FinCases
import Mathlib.Tactic.Linarith
import Mathlib.Tactic.NormNum
import Mathlib.Tactic.Ring

/-!
# Fine tuning (finetune_panel.cpp)

The buttons for speed, flow and pressure advance, and the printer they are sent
to. Numbers are exact: no sum is rounded to a double. The Z offset has its own module.
-/

namespace GuppyScreen.FineTune
open Lib Double KUtils

inductive Script where
  | m220 (s : ℤ)
  | m221 (s : ℤ)
  | setPressureAdvance (advance : ℚ)

def Script.text : Script → String
  | .m220 s => "M220 S" ++ toString s
  | .m221 s => "M221 S" ++ toString s
  | .setPressureAdvance advance => "SET_PRESSURE_ADVANCE ADVANCE=" ++ fixed 4 advance

def zoffsetSteps : List String := ["0.01", "0.05", "0.10"]

def multiplerSteps : List String := ["1", "5", "10", "25"]

/-- What is selected of the two rows of steps. -/
structure FineTunePanel where
  zoffsetSelector : Fin zoffsetSteps.length := ⟨0, by decide⟩
  multiplerSelector : Fin multiplerSteps.length := ⟨0, by decide⟩

instance : Inhabited FineTunePanel := ⟨{}⟩

inductive Button where
  | reset
  | up
  | down
  deriving DecidableEq

def Button.sign : Button → ℤ
  | .down => -1
  | _ => 1

/-! ### The handlers -/

section
variable (s : State) (p : FineTunePanel)

def zoffsetStep : ℚ := (decimal (zoffsetSteps.get p.zoffsetSelector)).getD 0

def multiplerStep : ℤ := (stoi (multiplerSteps.get p.multiplerSelector)).getD 0

/-- The percentage a press asks for. No number, no script: a null is skipped and
anything else throws. -/
def newFactor (factor : Json) (direction : ℤ) : Option ℤ :=
  factor.number?.map fun f => max (Rounding.trunc (f * 100 + (direction : ℚ))) 1

def handleSpeed : Button → Option Script
  | .reset => some (.m220 100)
  | btn =>
    (newFactor (s.getData ["printer_state", "gcode_move", "speed_factor"])
      (btn.sign * multiplerStep p)).map .m220

def handleFlow : Button → Option Script
  | .reset => some (.m221 100)
  | btn =>
    (newFactor (s.getData ["printer_state", "gcode_move", "extrude_factor"])
      (btn.sign * multiplerStep p)).map .m221

def handlePa : Button → Option Script
  | .reset =>
    (s.getData ["printer_state", "configfile", "settings", "extruder",
      "pressure_advance"]).number?.map
      fun v => .setPressureAdvance (decimals 4 v)
  | btn =>
    (s.getData ["printer_state", "extruder", "pressure_advance"]).number?.map fun cur =>
      let newPa := cur + btn.sign * zoffsetStep p
      .setPressureAdvance (decimals 4 (if newPa < 0 then 0 else newPa))

end

/-! ### The printer -/

inductive Knob where
  | speed
  | flow
  | pa
  deriving DecidableEq

namespace Knob

/-- Where the printer reports it. -/
def object : Knob → String
  | .speed | .flow => "gcode_move"
  | .pa => "extruder"

def member : Knob → String
  | .speed => "speed_factor"
  | .flow => "extrude_factor"
  | .pa => "pressure_advance"

def floor : Knob → ℚ
  | .speed | .flow => 1 / 100
  | .pa => 0

/-- What the panel keeps of a reported number. -/
def kept : Knob → ℚ → ℚ
  | .speed, v | .flow, v => ⌊v * 100⌋ / 100
  | .pa, v => decimals 4 v

end Knob

def signedStep (p : FineTunePanel) (btn : Button) : Knob → ℚ
  | .speed | .flow => (btn.sign * multiplerStep p : ℤ) / 100
  | .pa => btn.sign * zoffsetStep p

def handle (s : State) (p : FineTunePanel) (btn : Button) : Knob → Option Script
  | .speed => handleSpeed s p btn
  | .flow => handleFlow s p btn
  | .pa => handlePa s p btn

/-- The values as Klipper has them. -/
abbrev Values := Knob → ℚ

def apply (v : Values) : Script → Values
  | .m220 s => Function.update v .speed (s / 100)
  | .m221 s => Function.update v .flow (s / 100)
  | .setPressureAdvance advance => Function.update v .pa advance

/-- The panel and the printer: scripts sent and not yet executed, and messages sent
and not yet arrived. `wanted` counts what was pressed. -/
structure Bench where
  state : State
  panel : FineTunePanel
  values : Values
  queue : List Script
  inFlight : List Message
  wanted : Values

namespace Bench

def init (state : State) (values : Values) : Bench := ⟨state, {}, values, [], [], values⟩

/-- The values that executing everything sent so far leads to. -/
def goal (b : Bench) : Values := b.queue.foldl apply b.values

end Bench

inductive Act where
  | press (k : Knob) (up : Bool)
  | selectZoffset (i : Fin zoffsetSteps.length)
  | selectMultipler (i : Fin multiplerSteps.length)
  | execute
  | report (u : Message)
  | arrive

def upDown (up : Bool) : Button := if up then .up else .down

/-- A message says nothing of a value, or the value as it is. -/
def truthful (v : Values) (u : Message) : Bool :=
  [Knob.speed, .flow, .pa].all fun k =>
    match u.reports k.object k.member with
    | none => true
    | some j => j.number? = some (v k)

namespace Bench

def press (b : Bench) (k : Knob) (up : Bool) : Bench :=
  { b with
    queue := b.queue ++ (handle b.state b.panel (upDown up) k).toList
    wanted := Function.update b.wanted k (b.wanted k + signedStep b.panel (upDown up) k) }

def execute (b : Bench) : Bench :=
  match b.queue with
  | [] => b
  | s :: rest => { b with values := apply b.values s, queue := rest }

def arrive (b : Bench) : Bench :=
  match b.inFlight with
  | [] => b
  | u :: rest => { b with state := b.state.deliver u, inFlight := rest }

def step (b : Bench) : Act → Bench
  | .press k up => b.press k up
  | .selectZoffset i => { b with panel := { b.panel with zoffsetSelector := i } }
  | .selectMultipler i => { b with panel := { b.panel with multiplerSelector := i } }
  | .execute => b.execute
  | .report u => if truthful b.values u then { b with inFlight := b.inFlight ++ [u] } else b
  | .arrive => b.arrive

/-- What `State` has of a value. -/
def known (b : Bench) (k : Knob) : Option ℚ :=
  (b.state.getData ["printer_state", k.object, k.member]).number?

/-- A press of `k` starts from where the scripts sent so far lead, or goes down to
the floor from there while `State` has no more. -/
def Fresh (b : Bench) (k : Knob) : Act → Prop
  | .press k' up =>
    k' = k → ∃ v, b.known k = some v ∧
      (k.kept v = b.goal k ∨
        b.goal k + signedStep b.panel (upDown up) k = k.floor ∧ k.kept v ≤ b.goal k)
  | _ => True

end Bench

/-! ### What a press sends -/

theorem max_trunc (q : ℚ) (d : ℤ) : max (Rounding.trunc (q + d)) 1 = max (⌊q⌋ + d) 1 := by
  have hfloor : ⌊q + d⌋ = ⌊q⌋ + d := Int.floor_add_intCast q d
  unfold Rounding.trunc
  split_ifs with hpos
  · rw [hfloor]
  · have hceil : ⌈q + d⌉ ≤ 0 := Int.ceil_le.mpr (by push_cast; linarith)
    have hneg : ⌊q + d⌋ ≤ 0 := (Int.floor_le_ceil _).trans hceil
    omega

theorem decimals_max (q : ℚ) : decimals 4 (if q < 0 then 0 else q) = max (decimals 4 q) 0 := by
  unfold decimals
  split_ifs with hneg
  · have hr : roundHalfEven (q * 10 ^ 4) ≤ 0 := roundHalfEven_nonpos (by linarith)
    have hr' : (roundHalfEven (q * 10 ^ 4) : ℚ) ≤ 0 := by exact_mod_cast hr
    have hzero : roundHalfEven (0 * 10 ^ 4) = 0 := by
      rw [zero_mul]
      exact roundHalfEven_int 0
    rw [hzero, max_eq_right (div_nonpos_of_nonpos_of_nonneg hr' (by norm_num))]
    norm_num
  · have hr : 0 ≤ roundHalfEven (q * 10 ^ 4) := roundHalfEven_nonneg (by linarith)
    have hr' : (0 : ℚ) ≤ roundHalfEven (q * 10 ^ 4) := by exact_mod_cast hr
    rw [max_eq_left (div_nonneg hr' (by norm_num))]

-- A hundredth is an even number of the last decimal sent.
theorem decimals_add_hundredths (q : ℚ) (n : ℤ) :
    decimals 4 (q + n / 100) = decimals 4 q + n / 100 := by
  have hsum : (q + n / 100) * 10 ^ 4 = q * 10 ^ 4 + (2 * (50 * n) : ℤ) := by
    push_cast
    ring
  unfold decimals
  rw [hsum, roundHalfEven_add_even]
  push_cast
  ring

theorem zoffsetStep_eq (p : FineTunePanel) : ∃ n : ℤ, 0 < n ∧ zoffsetStep p = n / 100 := by
  have hall : ∀ i : Fin zoffsetSteps.length,
      (decimal (zoffsetSteps.get i)).getD 0 ∈ [((1 : ℤ) / 100 : ℚ), (5 : ℤ) / 100,
        (10 : ℤ) / 100] := by
    decide +kernel
  have hmem := hall p.zoffsetSelector
  simp only [List.mem_cons, List.not_mem_nil, or_false] at hmem
  rcases hmem with h | h | h
  · exact ⟨1, by omega, h⟩
  · exact ⟨5, by omega, h⟩
  · exact ⟨10, by omega, h⟩

theorem multiplerStep_pos (p : FineTunePanel) : 0 < multiplerStep p := by
  have hall : ∀ i : Fin multiplerSteps.length, 0 < (stoi (multiplerSteps.get i)).getD 0 := by
    decide +kernel
  exact hall p.multiplerSelector

theorem signedStep_ne_zero (p : FineTunePanel) (up : Bool) (k : Knob) :
    signedStep p (upDown up) k ≠ 0 := by
  have hsign : (upDown up).sign ≠ 0 := by cases up <;> decide
  have hpercent : (((upDown up).sign * multiplerStep p : ℤ) : ℚ) / 100 ≠ 0 := by
    have hstep := multiplerStep_pos p
    have hne : (upDown up).sign * multiplerStep p ≠ 0 := mul_ne_zero hsign (by omega)
    exact div_ne_zero (by exact_mod_cast hne) (by norm_num)
  cases k with
  | speed => exact hpercent
  | flow => exact hpercent
  | pa =>
    obtain ⟨n, hn, hstep⟩ := zoffsetStep_eq p
    have hn' : (0 : ℚ) < n := by exact_mod_cast hn
    show ((upDown up).sign : ℚ) * zoffsetStep p ≠ 0
    rw [hstep]
    exact mul_ne_zero (by exact_mod_cast hsign) (by positivity)

theorem newFactor_eq (factor : Json) (d : ℤ) :
    newFactor factor d = factor.number?.map fun f => max (⌊f * 100⌋ + d) 1 := by
  unfold newFactor
  congr 1
  funext f
  exact max_trunc (f * 100) d

theorem percent_max (a d : ℤ) :
    ((max (a + d) 1 : ℤ) : ℚ) / 100 = max ((a : ℚ) / 100 + (d : ℚ) / 100) (1 / 100) := by
  rw [Int.cast_max, ← max_div_div_right (by norm_num)]
  push_cast
  rw [add_div]

section
variable (s : State) (p : FineTunePanel) (up : Bool)

theorem handleSpeed_upDown : handleSpeed s p (upDown up) =
    (newFactor (s.getData ["printer_state", "gcode_move", "speed_factor"])
      ((upDown up).sign * multiplerStep p)).map .m220 := by
  cases up <;> rfl

theorem handleFlow_upDown : handleFlow s p (upDown up) =
    (newFactor (s.getData ["printer_state", "gcode_move", "extrude_factor"])
      ((upDown up).sign * multiplerStep p)).map .m221 := by
  cases up <;> rfl

theorem handlePa_upDown : handlePa s p (upDown up) =
    (s.getData ["printer_state", "extruder", "pressure_advance"]).number?.map fun cur =>
      .setPressureAdvance (max (decimals 4 cur + signedStep p (upDown up) .pa) 0) := by
  obtain ⟨n, -, hstep⟩ := zoffsetStep_eq p
  have hsend : ∀ cur : ℚ, decimals 4 (if cur + (upDown up).sign * zoffsetStep p < 0 then 0
      else cur + (upDown up).sign * zoffsetStep p) =
      max (decimals 4 cur + signedStep p (upDown up) .pa) 0 := by
    intro cur
    have hhundredths : ((upDown up).sign : ℚ) * zoffsetStep p =
        ((upDown up).sign * n : ℤ) / 100 := by
      rw [hstep]
      push_cast
      ring
    rw [decimals_max, signedStep, hhundredths, decimals_add_hundredths]
  simp only [← hsend]
  cases up <;> rfl

/-- A press sends the reported number, as far as the panel keeps it, with the step
added, but never less than the floor. Without a number it sends nothing. -/
theorem apply_handle (k : Knob) (values : Values) :
    (handle s p (upDown up) k).toList.foldl apply values =
      match (s.getData ["printer_state", k.object, k.member]).number? with
      | none => values
      | some v =>
        Function.update values k (max (k.kept v + signedStep p (upDown up) k) k.floor) := by
  cases k with
  | speed =>
    simp only [handle, handleSpeed_upDown, newFactor_eq, Knob.object, Knob.member]
    cases (s.getData ["printer_state", "gcode_move", "speed_factor"]).number? with
    | none => rfl
    | some v => exact congrArg (Function.update values .speed) (percent_max _ _)
  | flow =>
    simp only [handle, handleFlow_upDown, newFactor_eq, Knob.object, Knob.member]
    cases (s.getData ["printer_state", "gcode_move", "extrude_factor"]).number? with
    | none => rfl
    | some v => exact congrArg (Function.update values .flow) (percent_max _ _)
  | pa =>
    simp only [handle, handlePa_upDown, Knob.object, Knob.member]
    cases (s.getData ["printer_state", "extruder", "pressure_advance"]).number? with
    | none => rfl
    | some v => rfl

end

/-! ### Runs -/

namespace Bench

theorem goal_press (b : Bench) (k : Knob) (up : Bool) :
    (b.press k up).goal =
      match b.known k with
      | none => b.goal
      | some v =>
        Function.update b.goal k (max (k.kept v + signedStep b.panel (upDown up) k) k.floor) := by
  unfold goal press
  rw [List.foldl_append]
  exact apply_handle b.state b.panel up k b.goal

theorem goal_execute (b : Bench) : b.execute.goal = b.goal := by
  unfold goal execute
  cases hq : b.queue with
  | nil => simp only [hq]
  | cons s rest => rfl

-- Executing everything that was sent.
theorem values_executeAll (b : Bench) :
    (Run.run step b (List.replicate b.queue.length .execute)).values = b.goal := by
  induction hq : b.queue generalizing b with
  | nil =>
    unfold goal
    rw [hq]
    rfl
  | cons s rest ih =>
    rw [List.length_cons, List.replicate_succ, Run.run_cons]
    have hrest : (b.step .execute).queue = rest := by
      show b.execute.queue = rest
      unfold execute
      rw [hq]
    rw [ih _ hrest]
    exact goal_execute b

theorem step_frame {b : Bench} {k : Knob} {a : Act} (ha : ∀ up, a ≠ .press k up) :
    (b.step a).goal k = b.goal k ∧ (b.step a).wanted k = b.wanted k := by
  cases a with
  | press k' up =>
    have hne : k ≠ k' := by
      rintro rfl
      exact ha up rfl
    show (b.press k' up).goal k = b.goal k ∧ (b.press k' up).wanted k = b.wanted k
    rw [goal_press]
    refine ⟨?_, Function.update_of_ne hne _ _⟩
    cases b.known k' with
    | none => rfl
    | some v => exact Function.update_of_ne hne _ _
  | execute =>
    show b.execute.goal k = b.goal k ∧ b.execute.wanted k = b.wanted k
    rw [goal_execute]
    unfold execute
    cases b.queue <;> exact ⟨rfl, rfl⟩
  | arrive =>
    show b.arrive.goal k = b.goal k ∧ b.arrive.wanted k = b.wanted k
    unfold arrive
    cases b.inFlight <;> exact ⟨rfl, rfl⟩
  | report u =>
    simp only [step]
    split_ifs <;> exact ⟨rfl, rfl⟩
  | selectZoffset i => exact ⟨rfl, rfl⟩
  | selectMultipler i => exact ⟨rfl, rfl⟩

/-- A target cut off at the floor is the one wanted only from the right start, or
from below it with the floor itself wanted. -/
theorem max_eq_add_iff {kept goal d floor : ℚ} (hfloor : floor ≤ goal + d) :
    max (kept + d) floor = goal + d ↔ kept = goal ∨ goal + d = floor ∧ kept ≤ goal := by
  constructor
  · intro hmax
    by_cases hcut : kept + d ≤ floor
    · rw [max_eq_right hcut] at hmax
      exact Or.inr ⟨hmax.symm, by linarith⟩
    · rw [max_eq_left (by linarith)] at hmax
      exact Or.inl (by linarith)
  · rintro (rfl | ⟨hgoal, hle⟩)
    · exact max_eq_left hfloor
    · rw [max_eq_right (by linarith), hgoal]

theorem press_kept_iff {b : Bench} {k : Knob} {up : Bool} (hb : b.goal k = b.wanted k)
    (hfloor : k.floor ≤ (b.press k up).wanted k) :
    (b.press k up).goal k = (b.press k up).wanted k ↔ b.Fresh k (.press k up) := by
  have hwanted : (b.press k up).wanted k = b.goal k + signedStep b.panel (upDown up) k := by
    rw [hb]
    exact Function.update_self ..
  rw [hwanted] at hfloor ⊢
  rw [goal_press]
  cases hv : b.known k with
  | none =>
    have hstep := signedStep_ne_zero b.panel up k
    constructor
    · intro heq
      exact absurd (by linarith : signedStep b.panel (upDown up) k = 0) hstep
    · intro hfresh
      obtain ⟨v, hknown, -⟩ := hfresh rfl
      rw [hv] at hknown
      cases hknown
  | some v =>
    show Function.update b.goal k _ k = _ ↔ _
    rw [Function.update_self, max_eq_add_iff hfloor]
    constructor
    · intro hstart _
      exact ⟨v, hv, hstart⟩
    · intro hfresh
      obtain ⟨w, hknown, hstart⟩ := hfresh rfl
      rw [hv] at hknown
      cases hknown
      exact hstart

theorem step_kept_iff {b : Bench} {k : Knob} {a : Act} (hb : b.goal k = b.wanted k)
    (hfloor : k.floor ≤ (b.step a).wanted k) :
    (b.step a).goal k = (b.step a).wanted k ↔ b.Fresh k a := by
  by_cases ha : ∃ up, a = .press k up
  · obtain ⟨up, rfl⟩ := ha
    exact press_kept_iff hb hfloor
  · push Not at ha
    obtain ⟨hgoal, hwanted⟩ := step_frame (b := b) ha
    rw [hgoal, hwanted]
    constructor
    · intro _
      cases a with
      | press k' up =>
        intro hk
        subst hk
        exact absurd rfl (ha up)
      | _ => trivial
    · intro _
      exact hb

/-- A report of the knob that arrives with nothing left to execute. -/
theorem fresh_after_report {b : Bench} {k : Knob} {u : Message} (hm : b.state.Mirror)
    (hqueue : b.queue = []) (hflight : b.inFlight = []) (hu : truthful b.values u = true)
    (hr : u.reports k.object k.member ≠ none) (hkept : k.kept (b.values k) = b.values k)
    (up : Bool) :
    (Run.run step b [.report u, .arrive]).Fresh k (.press k up) := by
  obtain ⟨j, hj⟩ := Option.ne_none_iff_exists'.mp hr
  have hnum : j.number? = some (b.values k) := by
    have hall := List.all_eq_true.mp hu k (by cases k <;> simp)
    rw [hj] at hall
    exact of_decide_eq_true hall
  have hrun : Run.run step b [.report u, .arrive] = { b with state := b.state.deliver u } := by
    simp only [Run.run_cons, Run.run_nil, step, hu, if_true, arrive, hflight, List.nil_append]
  have hfield : (b.state.deliver u).field k.object k.member = some j := by
    rw [State.field_deliver _ u hm, hj]
    cases j with
    | int n => rfl
    | float q => rfl
    | _ => cases hnum
  have hknown : (Run.run step b [.report u, .arrive]).known k = some (b.values k) := by
    rw [hrun, ← hnum]
    show (((b.state.deliver u).field k.object k.member).getD .null).number? = j.number?
    rw [hfield]
    rfl
  have hgoal : (Run.run step b [.report u, .arrive]).goal k = b.values k := by
    rw [hrun]
    show (b.queue.foldl apply b.values) k = b.values k
    rw [hqueue]
    rfl
  intro _
  exact ⟨b.values k, hknown, Or.inl (by rw [hgoal, hkept])⟩

/-- Presses add up in a run exactly when each starts from where the presses before
it lead. -/
theorem presses_kept_iff (state : State) (values : Values) (k : Knob) (as : List Act)
    (hfloor : Run.Along step (fun b a => k.floor ≤ (b.step a).wanted k) (init state values) as) :
    Run.Along step (fun b a => (b.step a).goal k = (b.step a).wanted k) (init state values) as ↔
      Run.Along step (fun b a => b.Fresh k a) (init state values) as := by
  apply Run.along_iff (I := fun b : Bench => b.goal k = b.wanted k)
    (C := fun b a => k.floor ≤ (b.step a).wanted k)
  · intro b a hb hc hfresh
    exact (step_kept_iff hb hc).mpr hfresh
  · intro b a hb hc
    exact step_kept_iff hb hc
  · rfl
  · exact hfloor

-- `notify_status_update` with a speed factor.
def reportSpeed (q : ℚ) : Json :=
  .obj (.cons "params" (.arr (.cons (.obj (.cons "gcode_move" (.obj (.cons "speed_factor"
    (.float q) .nil)) .nil)) .nil)) .nil)

-- The printer at 100 percent, as it says when it is connected.
def connected : List Act :=
  [.report ⟨.notification, reportSpeed 1, by decide, by decide⟩, .arrive]

-- Two presses with a step of 10 percent, the first reported before the second.
def pressedInTurn : List Act :=
  connected ++ [.selectMultipler ⟨2, by decide⟩, .press .speed true, .execute,
    .report ⟨.notification, reportSpeed (11 / 10), by decide, by decide⟩, .arrive,
      .press .speed true]

def pressedAtOnce : List Act :=
  connected ++ [.selectMultipler ⟨2, by decide⟩, .press .speed true, .press .speed true]

theorem presses_kept_with_reports :
    Run.Along step (fun b a => b.Fresh .speed a) (init ⟨.null⟩ fun _ => 1) pressedInTurn :=
  (presses_kept_iff ⟨.null⟩ (fun _ => 1) .speed pressedInTurn (by decide +kernel)).mp
    (by decide +kernel)

/-- Both presses start from 100 percent. -/
theorem second_press_lost :
    ¬ ∀ (state : State) (values : Values) (k : Knob) (as : List Act),
      (∃ n : ℤ, values .speed = n / 100) → (∃ n : ℤ, values .flow = n / 100) →
      Run.Along step (fun b a => k.floor ≤ (b.step a).wanted k) (init state values) as →
      (Run.run step (init state values) as).goal k =
        (Run.run step (init state values) as).wanted k := by
  intro h
  have hrun := h ⟨.null⟩ (fun _ => 1) .speed pressedAtOnce ⟨100, by norm_num⟩ ⟨100, by norm_num⟩
    (by decide +kernel)
  revert hrun
  decide +kernel

end Bench

end GuppyScreen.FineTune
