import GuppyScreen.Lib.History
import GuppyScreen.Lib.Run
import GuppyScreen.Utils

/-!
# Homing Z by hand (manual_z_panel.cpp)

The panel declares Z to be at the bottom of its travel, lets the user raise the
bed, and declares Z zero there; Skip Homing makes the next print keep that zero.
The panel shares `State` with the rest of the program, so a machine here is the
two together, with a history of what was sent and of what was reported.
-/

namespace GuppyScreen.ManualZ
open Lib Text Double KUtils History

inductive Script where
  | homeXY
  | start (zmax cx cy : ℚ)
  | setZero
  | jog (distance : ℚ)
  | printPrepared
  deriving DecidableEq

namespace Script

def lines : Script → List String
  | homeXY => ["G28 X Y"]
  | start zmax cx cy =>
    ["SET_KINEMATIC_POSITION Z=" ++ fixed 3 zmax, "SAVE_GCODE_STATE NAME=guppy_manual_z", "G90",
      "G1 X" ++ fixed 1 cx ++ " Y" ++ fixed 1 cy ++ " F6000",
      "RESTORE_GCODE_STATE NAME=guppy_manual_z"]
  | setZero =>
    ["SET_KINEMATIC_POSITION Z=0", "SAVE_GCODE_STATE NAME=guppy_manual_z", "G91", "G1 Z2 F600",
      "RESTORE_GCODE_STATE NAME=guppy_manual_z"]
  | jog distance =>
    ["SAVE_GCODE_STATE NAME=guppy_manual_z", "G91", "G1 Z" ++ fixed 3 distance ++ " F600",
      "RESTORE_GCODE_STATE NAME=guppy_manual_z"]
  | printPrepared => ["PRINT_PREPARED"]

def text (s : Script) : String := "\n".intercalate s.lines

end Script

inductive Entry where
  | script (s : Script)
  | rpc (method : String)
  | reset
  | unhomed
  deriving DecidableEq

/-- The prompts `start_btn` and `zero_btn` open before anything is sent. -/
inductive Prompt where
  | start
  | zero
  deriving DecidableEq

structure Panel where
  zeroed : Bool
  jogRefusal : String
  homeXyBtn : Bool
  startBtn : Bool
  zupBtn : Bool
  zdownBtn : Bool
  zeroBtn : Bool
  prepareBtn : Bool
  positionLabel : String
  offsetLabel : String
  nextPrintLabel : String
  stepsLabel : String
  stepIdx : ℕ
  shown : Bool

def Panel.init : Panel :=
  ⟨false, "", true, true, true, true, true, true, "", "", "", "", 1, false⟩

structure Machine where
  state : State
  panel : Panel
  prompts : List Prompt
  log : List Entry

def Machine.init : Machine := ⟨⟨.null⟩, Panel.init, [], []⟩

/-! ### What the panel shows -/

def homedAxes (s : State) : String :=
  match s.getData ["printer_state", "toolhead", "homed_axes"] with
  | .str homed => homed
  | _ => ""

def zHomed (s : State) : Bool := hasSubstr "z" (homedAxes s)
def xyHomed (s : State) : Bool := hasSubstr "x" (homedAxes s) && hasSubstr "y" (homedAxes s)

def printing (s : State) : Bool :=
  match s.getData ["printer_state", "print_stats", "state"] with
  | .str pstate => pstate = "printing" || pstate = "paused"
  | _ => false

def canDeclare (s : State) : Bool :=
  s.getData ["printer_state", "configfile", "settings", "force_move", "enable_force_move"] =
    .bool true

def prepareFlag (s : State) : Json :=
  s.getData ["printer_state", "gcode_macro START_PRINT", "prepare"]

def stepsText (s : State) (p : Panel) (canPrepare prepared : Bool) : String :=
  if printing s then "Not while a print is running."
  else if !canDeclare s then "Needs [force_move] with enable_force_move: True in printer.cfg."
  else if p.jogRefusal ≠ "" then p.jogRefusal
  else if !xyHomed s then "For when the Z probe has failed. Home X and Y first. Z is left alone."
  else if !zHomed s then
    "Start puts the nozzle over the middle of the bed and takes the bed " ++
      "to be at the bottom, so it can only be raised."
  else if !p.zeroed then
    "Raise the bed with Z- until paper under the nozzle drags. " ++
      "Nothing stops it there: go slowly. Then Set Z=0."
  else if canPrepare && !prepared then "Z=0 is set. Skip Homing makes the next print keep it."
  else "Z=0 is set. Fine Tune's Z offset still adjusts the first layer."

/-- `refresh`. A macro list with an entry that is no string throws half way, after
`zeroed` and before the buttons. -/
def Panel.refresh (s : State) (p : Panel) : Panel :=
  let p := { p with zeroed := p.zeroed && zHomed s }
  match hasGcodeMacro s "PRINT_PREPARED" with
  | none => p
  | some named =>
    let canPrepare := named && (prepareFlag s).isNumber
    let prepared := canPrepare && toInt (prepareFlag s) ≠ 0
    { p with
      homeXyBtn := !printing s
      startBtn := !printing s && xyHomed s && canDeclare s
      zupBtn := !printing s && zHomed s
      zdownBtn := !printing s && zHomed s
      zeroBtn := !printing s && zHomed s && canDeclare s
      prepareBtn := !printing s && p.zeroed && canPrepare && !prepared
      positionLabel :=
        match zHomed s, double? (s.getData ["printer_state", "toolhead", "position", "2"]) with
        | true, some z => "Z " ++ fixed 3 z ++ " mm"
        | _, _ => "Z not homed"
      offsetLabel :=
        match double? (s.getData ["printer_state", "gcode_move", "homing_origin", "2"]) with
        | some o => "Z offset " ++ shortMeasure o "mm"
        | none => ""
      nextPrintLabel :=
        if !canPrepare then "No PRINT_PREPARED macro, so the next print homes Z itself."
        else if prepared then "Next print skips Z homing and the bed mesh probe."
        else "Next print homes Z on its probe."
      stepsLabel := stepsText s p canPrepare prepared }

def watched : List (List String) :=
  [["params", "0", "toolhead", "homed_axes"], ["params", "0", "toolhead", "position", "2"],
    ["params", "0", "print_stats", "state"], ["params", "0", "gcode_move", "homing_origin", "2"],
    ["params", "0", "gcode_macro START_PRINT", "prepare"]]

/-- `ManualZPanel::consume`. `State`, registered first, has merged `j` already. -/
def Panel.consume (s : State) (p : Panel) (j : Json) : Panel :=
  if watched.any fun ptr => j.valueAt ptr ≠ .null then { p with jogRefusal := "" }.refresh s
  else p

def steps : List String := ["10", "1", "0.1", "0.05", "0.01"]

/-! ### Buttons -/

namespace Machine

def send (m : Machine) (s : Script) : Machine := { m with log := m.log ++ [.script s] }

def refresh (m : Machine) : Machine := { m with panel := m.panel.refresh m.state }

/-- `none` where the limits are not there, before anything happens. -/
def limits (s : State) : Option (Elems × Elems) :=
  match s.getData ["printer_state", "toolhead", "axis_minimum"],
    s.getData ["printer_state", "toolhead", "axis_maximum"] with
  | .arr lo, .arr hi => if lo.toList.length < 3 ∨ hi.toList.length < 3 then none else some (lo, hi)
  | _, _ => none

def centre (lo hi : Elems) (i : ℕ) : Option ℚ :=
  match (lo.get? i).bind double?, (hi.get? i).bind double? with
  | some a, some b => some (rnd (rnd (a + b) / 2))
  | _, _ => none

/-- `start`: `zeroed` is cleared before a limit that is no number can throw. -/
def start (m : Machine) : Machine :=
  match limits m.state with
  | none => m
  | some (lo, hi) =>
    let m := { m with panel := { m.panel with zeroed := false } }
    match (hi.get? 2).bind double?, centre lo hi 0, centre lo hi 1 with
    | some zmax, some cx, some cy => m.send (.start zmax cx cy)
    | _, _, _ => m

def setZero (m : Machine) : Machine :=
  ({ m with panel := { m.panel with zeroed := true } }.send .setZero).refresh

def refusal (target lo hi : ℚ) : String :=
  "Not sent: Z would be " ++ general target ++ ", outside " ++ general lo ++ " to " ++
    general hi ++ "."

def jog (m : Machine) (distance : ℚ) : Machine :=
  match double? (m.state.getData ["printer_state", "toolhead", "position", "2"]),
    double? (m.state.getData ["printer_state", "toolhead", "axis_minimum", "2"]),
    double? (m.state.getData ["printer_state", "toolhead", "axis_maximum", "2"]) with
  | some pos, some lo, some hi =>
    let target := rnd (pos + distance)
    if target < lo ∨ target > hi then
      { m with panel := { m.panel with jogRefusal := refusal target lo hi } }.refresh
    else m.send (.jog distance)
  | _, _, _ => m

def jogStep (m : Machine) (sign : ℚ) : Machine :=
  match steps[m.panel.stepIdx]? with
  | none => m
  | some text => m.jog (sign * parseDouble text 0)

def confirm (m : Machine) : Prompt → Machine
  | .start => m.start
  | .zero => m.setZero

/-- `foreground`, with `invert_z_arrows` as the config has it: a value that is no
boolean throws before the refresh. -/
def foreground (m : Machine) : Json → Machine
  | .null | .bool _ =>
    let panel := { m.panel with jogRefusal := "" }.refresh m.state
    { m with panel := { panel with
        shown := panel.shown || (hasGcodeMacro m.state "PRINT_PREPARED").isSome } }
  | _ => m

end Machine

/-! ### Events -/

inductive Button where
  | homeXY
  | start
  | zUp
  | zDown
  | setZero
  | skipHoming
  | stop
  | back
  deriving DecidableEq

inductive Event where
  | press (b : Button)
  | selectStep (i : ℕ)
  | confirm (i : ℕ)
  | cancel (i : ℕ)
  | foreground (invert : Json)
  | reset
  | objectsReply (j : Json) (wf : j.Wf)
  | update (m : Message)

def Panel.enabled (p : Panel) : Button → Bool
  | .homeXY => p.homeXyBtn
  | .start => p.startBtn
  | .zUp => p.zupBtn
  | .zDown => p.zdownBtn
  | .setZero => p.zeroBtn
  | .skipHoming => p.prepareBtn
  | .stop => true
  | .back => true

/-- A press that reaches its callback. Start and Set Z=0 only open their prompt. -/
def handleCallback (m : Machine) : Button → Machine
  | .homeXY => m.send .homeXY
  | .start => { m with prompts := m.prompts ++ [.start] }
  | .zUp => m.jogStep 1
  | .zDown => m.jogStep (-1)
  | .setZero => { m with prompts := m.prompts ++ [.zero] }
  | .skipHoming => m.send .printPrepared
  | .stop => { m with log := m.log ++ [.rpc "printer.emergency_stop"] }
  | .back => { m with panel := { m.panel with shown := false } }

/-- The update reports axes homed, and Z not among them. -/
def reportsUnhomed (u : Message) : Bool :=
  match u.reports "toolhead" "homed_axes" with
  | none => false
  | some .null => false
  | some (.str homed) => !hasSubstr "z" homed
  | some _ => true

-- The subscription reply goes to `State` only, a notification to the panel too.
def update (m : Machine) (u : Message) : Machine :=
  let state := m.state.deliver u
  let log := if reportsUnhomed u then m.log ++ [.unhomed] else m.log
  match u.via with
  | .reply => { m with state := state, log := log }
  | .notification => { m with state := state, log := log, panel := m.panel.consume state u.body }

def step (m : Machine) : Event → Machine
  | .press b => if m.panel.shown && m.panel.enabled b then handleCallback m b else m
  | .selectStep i => { m with panel := { m.panel with stepIdx := i } }
  | .confirm i =>
    match m.prompts[i]? with
    | none => m
    | some prompt => { m with prompts := m.prompts.eraseIdx i }.confirm prompt
  | .cancel i => { m with prompts := m.prompts.eraseIdx i }
  | .foreground invert => m.foreground invert
  | .reset => { m with state := m.state.reset, log := m.log ++ [.reset] }
  | .objectsReply j _ => { m with state := m.state.setData "printer_objs" j ["result"] }
  | .update u => update m u

/-! ### Skip Homing needs a zero that stands -/

def stands (standing : Bool) : Entry → Bool
  | .script .setZero => true
  | .script (.start _ _ _) => false
  | .reset => false
  | .unhomed => false
  | _ => standing

/-- The last `SET_KINEMATIC_POSITION` sent was `Z=0`, and since then Z was not
reported unhomed and `State` was not reset. -/
def zeroStands (log : List Entry) : Bool := log.foldl stands false

theorem zeroStands_snoc (log : List Entry) (e : Entry) :
    zeroStands (log ++ [e]) = stands (zeroStands log) e := by
  simp [zeroStands, List.foldl_append]

def Standing (log : List Entry) (e : Entry) : Prop :=
  e = .script .printPrepared → zeroStands log = true

structure Inv (m : Machine) : Prop where
  mirror : m.state.Mirror
  zeroed : m.panel.zeroed = true → zeroStands m.log = true
  sent : Each Standing m.log

/-- The steps at which the panel misses that a zero is gone: Skip Homing pressed
with the zero given up by Start, a reset of `State` while a zero is set, and a
subscription reply that reports Z unhomed while a zero is set. -/
def stale (m : Machine) : Event → Bool
  | .press .skipHoming => m.panel.shown && m.panel.prepareBtn && !m.panel.zeroed
  | .reset => m.panel.zeroed
  | .update u => u.via = .reply && reportsUnhomed u && m.panel.zeroed
  | _ => false

theorem refresh_zeroed (s : State) (p : Panel) :
    (p.refresh s).zeroed = (p.zeroed && zHomed s) := by
  unfold Panel.refresh
  cases hasGcodeMacro s "PRINT_PREPARED" <;> rfl

theorem consume_zeroed (s : State) (p : Panel) (j : Json) (h : (p.consume s j).zeroed = true) :
    p.zeroed = true := by
  unfold Panel.consume at h
  split_ifs at h with hw
  · rw [refresh_zeroed] at h
    exact (Bool.and_eq_true_iff.mp h).1
  · exact h

theorem mergePatch_str {t v : Json} {x : String} (hn : v ≠ .null) (h : t.mergePatch v = .str x) :
    v = .str x := by
  cases v with
  | obj ps => cases h
  | null => exact absurd rfl hn
  | _ => exact h

theorem reports_of_reportsUnhomed {u : Message} (hu : reportsUnhomed u = true) :
    ∃ v, u.reports "toolhead" "homed_axes" = some v ∧ v ≠ .null := by
  unfold reportsUnhomed at hu
  cases hr : u.reports "toolhead" "homed_axes" with
  | none =>
    rw [hr] at hu
    cases hu
  | some v =>
    refine ⟨v, rfl, ?_⟩
    rintro rfl
    rw [hr] at hu
    cases hu

theorem zHomed_of_reportsUnhomed {s : State} {u : Message} (hs : s.Mirror)
    (hu : reportsUnhomed u = true) : zHomed (s.deliver u) = false := by
  have hfield := State.field_deliver s u hs "toolhead" "homed_axes"
  obtain ⟨v, hr, hn⟩ := reports_of_reportsUnhomed hu
  have hget : (s.deliver u).getData ["printer_state", "toolhead", "homed_axes"] =
      ((s.deliver u).field "toolhead" "homed_axes").getD .null := rfl
  have hempty : hasSubstr "z" "" = false := by decide
  unfold zHomed homedAxes
  rw [hget, hfield, hr, Fields.merged_some hn, Option.getD_some]
  cases hm : Json.mergePatch ((s.field "toolhead" "homed_axes").getD .null) v with
  | str x =>
    rw [reportsUnhomed, hr, mergePatch_str hn hm] at hu
    simpa using hu
  | _ => exact hempty

theorem watched_of_reportsUnhomed {u : Message} (hv : u.via = .notification)
    (hu : reportsUnhomed u = true) :
    (watched.any fun ptr => u.body.valueAt ptr ≠ .null) = true := by
  obtain ⟨v, hr, hn⟩ := reports_of_reportsUnhomed hu
  refine List.any_eq_true.mpr ⟨_, List.mem_cons_self .., ?_⟩
  rw [State.valueAt_of_reports hv hr]
  simpa using hn

theorem standing_of_ne {e : Entry} (h : e ≠ .script .printPrepared) (log : List Entry) :
    Standing log e := fun he => absurd he h

theorem Inv.send {m : Machine} (h : Inv m) {s : Script} (hs : s ≠ .printPrepared)
    (hz : m.panel.zeroed = true → stands (zeroStands m.log) (.script s) = true) :
    Inv (m.send s) := by
  refine ⟨h.mirror, ?_, ?_⟩
  · intro hzero
    exact (zeroStands_snoc m.log _).trans (hz hzero)
  · exact each_snoc h.sent (standing_of_ne (by simpa using hs) m.log)

theorem Inv.of_panel {m : Machine} (h : Inv m) {p : Panel}
    (hz : p.zeroed = true → m.panel.zeroed = true) : Inv { m with panel := p } :=
  ⟨h.mirror, fun hp => h.zeroed (hz hp), h.sent⟩

theorem Inv.refresh {m : Machine} (h : Inv m) : Inv m.refresh := by
  refine h.of_panel fun hp => ?_
  rw [refresh_zeroed] at hp
  exact (Bool.and_eq_true_iff.mp hp).1

theorem Inv.jog {m : Machine} (h : Inv m) (d : ℚ) : Inv (m.jog d) := by
  unfold Machine.jog
  split
  · dsimp only
    split_ifs
    · refine Inv.refresh (h.of_panel ?_)
      exact fun hp => hp
    · exact h.send (by simp) h.zeroed
  · exact h

theorem Inv.jogStep {m : Machine} (h : Inv m) (sign : ℚ) : Inv (m.jogStep sign) := by
  unfold Machine.jogStep
  split
  · exact h
  · exact h.jog _

theorem Inv.start {m : Machine} (h : Inv m) : Inv m.start := by
  unfold Machine.start
  split
  · exact h
  · have hoff : Inv { m with panel := { m.panel with zeroed := false } } :=
      h.of_panel fun hp => nomatch hp
    dsimp only
    split
    · exact hoff.send (by simp) fun hp => nomatch hp
    · exact hoff

theorem Inv.setZero {m : Machine} (h : Inv m) : Inv m.setZero := by
  refine Inv.refresh ⟨h.mirror, fun _ => zeroStands_snoc m.log _, ?_⟩
  exact each_snoc h.sent (standing_of_ne (by simp) m.log)

theorem Inv.confirm {m : Machine} (h : Inv m) (prompt : Prompt) : Inv (m.confirm prompt) := by
  cases prompt with
  | start => exact h.start
  | zero => exact h.setZero

theorem Inv.foreground {m : Machine} (h : Inv m) (invert : Json) : Inv (m.foreground invert) := by
  have hshow : Inv (m.foreground (.bool true)) := by
    refine h.of_panel fun hp => ?_
    have hz := (refresh_zeroed m.state { m.panel with jogRefusal := "" }).symm.trans hp
    exact (Bool.and_eq_true_iff.mp hz).1
  cases invert with
  | null => exact hshow
  | bool b => exact hshow
  | _ => exact h

theorem Inv.press {m : Machine} (h : Inv m) (b : Button)
    (hz : b = .skipHoming → m.panel.zeroed = true) : Inv (handleCallback m b) := by
  cases b with
  | homeXY => exact h.send (by simp) h.zeroed
  | start => exact ⟨h.mirror, h.zeroed, h.sent⟩
  | zUp => exact h.jogStep 1
  | zDown => exact h.jogStep (-1)
  | setZero => exact ⟨h.mirror, h.zeroed, h.sent⟩
  | skipHoming =>
    have hstand := h.zeroed (hz rfl)
    refine ⟨h.mirror, fun _ => ?_, each_snoc h.sent fun _ => hstand⟩
    exact (zeroStands_snoc m.log _).trans hstand
  | stop =>
    refine ⟨h.mirror, fun hp => ?_, each_snoc h.sent (standing_of_ne (by simp) m.log)⟩
    exact (zeroStands_snoc m.log _).trans (h.zeroed hp)
  | back => exact h.of_panel id

theorem Inv.update {m : Machine} (h : Inv m) (u : Message)
    (hc : u.via = .reply → reportsUnhomed u = true → m.panel.zeroed = false) :
    Inv (ManualZ.update m u) := by
  have hmirror := State.mirror_deliver m.state u h.mirror
  have hlog : Each Standing (if reportsUnhomed u then m.log ++ [.unhomed] else m.log) := by
    split_ifs
    · exact each_snoc h.sent (standing_of_ne (by simp) m.log)
    · exact h.sent
  have hkept : m.panel.zeroed = true → reportsUnhomed u = false →
      zeroStands (if reportsUnhomed u then m.log ++ [.unhomed] else m.log) = true := by
    intro hp hu
    simpa [hu] using h.zeroed hp
  unfold ManualZ.update
  cases hv : u.via with
  | reply =>
    refine ⟨hmirror, fun hp => ?_, hlog⟩
    have hp : m.panel.zeroed = true := hp
    cases hu : reportsUnhomed u with
    | true => rw [hc hv hu] at hp; cases hp
    | false => exact hu ▸ hkept hp hu
  | notification =>
    refine ⟨hmirror, fun hp => ?_, hlog⟩
    have hp : (m.panel.consume (m.state.deliver u) u.body).zeroed = true := hp
    cases hu : reportsUnhomed u with
    | false => exact hu ▸ hkept (consume_zeroed _ _ _ hp) hu
    | true =>
      -- `State` is updated first, so the refresh this triggers gives the zero up
      rw [Panel.consume, if_pos (watched_of_reportsUnhomed hv hu), refresh_zeroed,
        zHomed_of_reportsUnhomed h.mirror hu, Bool.and_false] at hp
      cases hp

theorem inv_step (m : Machine) (e : Event) (h : Inv m) (hc : stale m e = false) :
    Inv (step m e) := by
  cases e with
  | press b =>
    simp only [step]
    split_ifs with hon
    · refine h.press b fun hb => ?_
      subst hb
      have hon : (m.panel.shown && m.panel.prepareBtn) = true := hon
      simpa [stale, hon] using hc
    · exact h
  | selectStep i => exact h.of_panel id
  | confirm i =>
    simp only [step]
    split
    · exact h
    · have hpop : Inv { m with prompts := m.prompts.eraseIdx i } := ⟨h.mirror, h.zeroed, h.sent⟩
      exact hpop.confirm _
  | cancel i => exact ⟨h.mirror, h.zeroed, h.sent⟩
  | foreground invert => exact h.foreground invert
  | reset =>
    refine ⟨State.mirror_reset m.state, fun hp => ?_, ?_⟩
    · have hoff : m.panel.zeroed = false := hc
      rw [show m.panel.zeroed = true from hp] at hoff
      cases hoff
    · exact each_snoc h.sent (standing_of_ne (by simp) m.log)
  | objectsReply j wf =>
    exact ⟨State.mirror_setData h.mirror wf (by decide), h.zeroed, h.sent⟩
  | update u =>
    refine h.update u fun hv hu => ?_
    simpa [stale, hv, hu] using hc

/-- In every run whose steps are not stale, `PRINT_PREPARED` is only sent on a
zero that still stands. -/
theorem print_prepared_on_standing_zero (es : List Event)
    (hc : Run.Along step (fun m e => stale m e = false) Machine.init es) (pre post : List Entry)
    (hlog : (Run.run step Machine.init es).log = pre ++ .script .printPrepared :: post) :
    zeroStands pre = true := by
  have hinit : Inv Machine.init := by
    refine ⟨State.mirror_reset ⟨.null⟩, ?_, each_nil _⟩
    intro hp
    cases hp
  have hinv := Run.invariant (I := Inv) (C := fun m e => stale m e = false) inv_step
    Machine.init es hinit hc
  exact hinv.sent pre _ post hlog rfl

-- A printer that can do all of this, homed, with Z at 12.
def printer : Json :=
  .obj (.cons "result" (.obj (.cons "status" (.obj
    (.cons "configfile" (.obj (.cons "settings" (.obj (.cons "force_move"
      (.obj (.cons "enable_force_move" (.bool true) .nil)) .nil)) .nil))
    (.cons "gcode_macro START_PRINT" (.obj (.cons "prepare" (.int 0) .nil))
    (.cons "toolhead" (.obj
      (.cons "axis_maximum" (.arr (.cons (.int 300) (.cons (.int 300) (.cons (.int 310) .nil))))
      (.cons "axis_minimum" (.arr (.cons (.int 0) (.cons (.int 0) (.cons (.int 0) .nil))))
      (.cons "homed_axes" (.str "xyz")
      (.cons "position" (.arr (.cons (.int 150)
        (.cons (.int 150) (.cons (.int 12) .nil)))) .nil)))))
    .nil)))) .nil)) .nil)

def printerObjects : Json :=
  .obj (.cons "result" (.obj (.cons "objects"
    (.arr (.cons (.str "gcode_macro PRINT_PREPARED") .nil)) .nil)) .nil)

theorem printer_wf : printer.Wf := by decide
theorem printer_update : isUpdate (printer.valueAt Via.reply.path) = true := by decide
theorem printerObjects_wf : printerObjects.Wf := by decide

-- Set Z=0 is pressed and confirmed.
def zeroRun : List Event :=
  [.objectsReply printerObjects printerObjects_wf,
    .update ⟨.reply, printer, printer_wf, printer_update⟩,
    .foreground .null, .press .setZero, .confirm 0]

theorem print_prepared_after_zeroRun :
    (Run.run step Machine.init (zeroRun ++ [.press .skipHoming])).log =
      [.script .setZero] ++ .script .printPrepared :: [] ∧
        zeroStands [.script .setZero] = true := by
  have hlog : (Run.run step Machine.init (zeroRun ++ [.press .skipHoming])).log =
      [.script .setZero] ++ .script .printPrepared :: [] := by decide +kernel
  have hfresh : Run.Along step (fun m e => stale m e = false) Machine.init
      (zeroRun ++ [.press .skipHoming]) := by decide +kernel
  exact ⟨hlog, print_prepared_on_standing_zero _ hfresh _ _ hlog⟩

/-- Start takes the zero back and leaves Skip Homing enabled. -/
theorem print_prepared_after_start :
    ¬ ∀ (es : List Event) (pre post : List Entry),
      (Run.run step Machine.init es).log = pre ++ .script .printPrepared :: post →
      zeroStands pre = true := by
  intro h
  have hstart := h (zeroRun ++ [.press .start, .confirm 0, .press .skipHoming])
    [.script .setZero, .script (.start 310 150 150)] [] (by decide +kernel)
  cases hstart

end GuppyScreen.ManualZ
