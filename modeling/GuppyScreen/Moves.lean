import GuppyScreen.Lib.Gcode
import GuppyScreen.ManualZ

/-!
# Moves sent from the panels (homing_panel.cpp, extruder_panel.cpp)

A jog or an extrusion needs a relative mode, and the printer may be in the middle
of a paused print. Each script saves the gcode state, sets its mode, moves and
restores. Klipper stops a script at the first command it refuses.
-/

namespace GuppyScreen
open Lib Text Double KUtils

namespace HomingPanel

def distances : List String := [".1", ".5", "1", "5", "10", "25", "50"]

inductive Button where
  | homeAll
  | homeXY
  | yUp
  | yDown
  | xUp
  | xDown
  | zUp
  | zDown
  | emergency
  | motorOff
  | back
  deriving DecidableEq

inductive Sent where
  | script (text : String)
  | rpc (method : String)
  deriving DecidableEq

-- Empty for the buttons that are no jog.
def moveOp (distance : String) : Button → String
  | .yUp => "G0 Y+" ++ distance ++ " F1200"
  | .yDown => "G0 Y-" ++ distance ++ " F1200"
  | .xUp => "G0 X+" ++ distance ++ " F1200"
  | .xDown => "G0 X-" ++ distance ++ " F1200"
  | .zUp => "G0 Z+" ++ distance ++ " F1200"
  | .zDown => "G0 Z-" ++ distance ++ " F1200"
  | _ => ""

def moveLines (op : String) : List String :=
  ["SAVE_GCODE_STATE NAME=guppy_move", "G91", op, "RESTORE_GCODE_STATE NAME=guppy_move"]

def jogScript (distance : String) (b : Button) : Option String :=
  if moveOp distance b = "" then none else some ("\n".intercalate (moveLines (moveOp distance b)))

def handleCallback (distance : String) (b : Button) : List Sent :=
  (match b with
    | .homeAll => [.script "G28 X Y Z"]
    | .homeXY => [.script "G28 X Y"]
    | .emergency => [.rpc "printer.emergency_stop"]
    | .motorOff => [.script "M84"]
    | _ => []) ++
  (jogScript distance b).toList.map .script

end HomingPanel

namespace ExtruderPanel

def hysteresis : ℤ := 3

/-- A number that `long long` holds. Beyond it the cast of `format_option` gives another. -/
def Whole (v : ℚ) : Prop := v.den = 1 ∧ -2 ^ 63 ≤ v ∧ v < 2 ^ 63

instance (v : ℚ) : Decidable (Whole v) := inferInstanceAs (Decidable (_ ∧ _ ∧ _))

/-- `format_option`: an integral value without a point. -/
def formatOption (v : ℚ) : String :=
  if Whole v then (if v < 0 then "-" else "") ++ toString v.num.natAbs else general v

/-- `build_options`: the numbers of a configured array, or the built in ones. -/
def buildOptions (configured : Json) (fallback : List ℚ) : List ℚ :=
  let values := match configured with
    | .arr l => l.toList.filterMap double?
    | _ => []
  if values = [] then fallback else values

structure Selector where
  values : List ℚ
  idx : ℕ

def Selector.selectedText (s : Selector) : Option String := s.values[s.idx]?.map formatOption

def Selector.setOptions (values : List ℚ) (idx : ℕ) : Selector :=
  ⟨values, if idx < values.length then idx else 0⟩

structure Panel where
  tempSelector : Selector
  lengthSelector : Selector
  speedSelector : Selector
  currentTemp : ℤ
  currentTarget : ℤ

-- With the lists of the default printer, as the config has them.
def Panel.init (temps lengths speeds : Json) : Panel :=
  ⟨.setOptions (buildOptions temps [180, 190, 200, 210, 220, 230, 240]) 6,
    .setOptions (buildOptions lengths [5, 10, 15, 20, 25, 30, 35]) 1,
    .setOptions (buildOptions speeds [1, 2, 5, 10, 25, 35, 50]) 3, -1, -1⟩

def Panel.atTemp (p : Panel) (temp : String) : Bool :=
  let wanted := parseInt temp (-1)
  decide (0 ≤ wanted) && p.currentTarget = wanted && decide (wanted - hysteresis ≤ p.currentTemp)

def feedrate (speed : String) : ℚ :=
  let mms := parseDouble speed 5
  rnd ((if mms ≤ 0 then 5 else mms) * 60)

inductive Direction where
  | extrude
  | retract
  deriving DecidableEq

def moveLines (d : Direction) (len speed : String) : List String :=
  ["SAVE_GCODE_STATE NAME=guppy_extrude", "M83",
    "G1 E" ++ (if d = .retract then "-" else "") ++ len ++ " F" ++ general (feedrate speed),
    "RESTORE_GCODE_STATE NAME=guppy_extrude"]

/-- `send_extrude_move`, `none` where a selector has no selection. -/
def Panel.sendExtrudeMove (p : Panel) (d : Direction) : Option String :=
  match p.tempSelector.selectedText, p.lengthSelector.selectedText,
    p.speedSelector.selectedText with
  | some temp, some len, some speed =>
    let heat := if p.atTemp temp then [] else ["M109 S" ++ temp]
    some ("\n".intercalate (heat ++ moveLines d len speed))
  | _, _, _ => none

-- The script waits for the hotend first.
def Panel.heats (p : Panel) : Bool :=
  match p.tempSelector.selectedText with
  | some temp => !p.atTemp temp
  | none => false

end ExtruderPanel

/-! ### Modes around a move -/

inductive Move where
  | homing (b : HomingPanel.Button) (i : Fin HomingPanel.distances.length)
  | extruder (p : ExtruderPanel.Panel) (d : ExtruderPanel.Direction)
  | manualJog (distance : ℚ)
  | manualStart (zmax cx cy : ℚ)
  | manualZero

namespace Move

def script : Move → Option String
  | homing b i => HomingPanel.jogScript (HomingPanel.distances.get i) b
  | extruder p d => p.sendExtrudeMove d
  | manualJog distance => some (ManualZ.Script.jog distance).text
  | manualStart zmax cx cy => some (ManualZ.Script.start zmax cx cy).text
  | manualZero => some ManualZ.Script.setZero.text

def mode : Move → Gcode.Mode
  | extruder _ _ => .M83
  | manualStart _ _ _ => .G90
  | _ => .G91

def name : Move → String
  | homing _ _ => "guppy_move"
  | extruder _ _ => "guppy_extrude"
  | _ => "guppy_manual_z"

/-- How many commands stand before the one that saves the state. -/
def lead : Move → ℕ
  | extruder p _ => if p.heats then 1 else 0
  | manualStart _ _ _ => 1
  | manualZero => 1
  | _ => 0

end Move

theorem lacks_break_fixed (d : ℕ) (q : ℚ) : Lacks '\n' (fixed d q) :=
  lacks_fixed (by decide) (by decide) d q

theorem lacks_break_general (q : ℚ) : Lacks '\n' (general q) :=
  lacks_general (by decide) (by decide) q

theorem lacks_break_selected {s : ExtruderPanel.Selector} {text : String}
    (h : s.selectedText = some text) : Lacks '\n' text := by
  obtain ⟨v, -, rfl⟩ := Option.map_eq_some_iff.mp h
  have hsign : Lacks '\n' (if v < 0 then "-" else "") := by
    split_ifs <;> decide
  have hnat : Lacks '\n' (toString v.num.natAbs) := lacks_nat (by decide) _
  rw [ExtruderPanel.formatOption]
  split_ifs
  · exact (lacks_append _ _ _).mpr ⟨by decide, hnat⟩
  · exact (lacks_append _ _ _).mpr ⟨by decide, hnat⟩
  · exact lacks_break_general v

/-! Each script, as Klipper reads it. -/

theorem reads_jog (i : Fin HomingPanel.distances.length) (b : HomingPanel.Button)
    (h : HomingPanel.moveOp (HomingPanel.distances.get i) b ≠ "") :
    Gcode.Reads (HomingPanel.moveOp (HomingPanel.distances.get i) b) .other := by
  have hall : ∀ d ∈ HomingPanel.distances, HomingPanel.moveOp d b ≠ "" →
      Gcode.Reads (HomingPanel.moveOp d b) .other := by
    cases b <;> decide +kernel
  exact hall _ (List.get_mem _ _) h

theorem commands_homing {b : HomingPanel.Button} {i : Fin HomingPanel.distances.length}
    {text : String} (h : HomingPanel.jogScript (HomingPanel.distances.get i) b = some text) :
    Gcode.commands text = Gcode.bracket "guppy_move" .G91 := by
  unfold HomingPanel.jogScript at h
  split_ifs at h with hop
  cases h
  refine Gcode.commands_join (by simp [HomingPanel.moveLines]) ?_
  exact .cons (by decide) (.cons (by decide) (.cons (reads_jog i b hop) (.cons (by decide) .nil)))

theorem reads_extrude (d : ExtruderPanel.Direction) {len : String} (speed : String)
    (hlen : Lacks '\n' len) :
    List.Forall₂ Gcode.Reads (ExtruderPanel.moveLines d len speed)
      (Gcode.bracket "guppy_extrude" .M83) := by
  have hsign : Lacks '\n' (if d = .retract then "-" else "") := by
    split_ifs <;> decide
  have hmove : Gcode.Reads ("G1 E" ++ (if d = .retract then "-" else "") ++ len ++ " F" ++
      general (ExtruderPanel.feedrate speed)) .other := by
    simp only [String.append_assoc]
    refine Gcode.reads_plain (by decide) (by decide) (by decide) ?_
    simp only [lacks_append]
    exact ⟨hsign, hlen, by decide, lacks_break_general _⟩
  exact .cons (by decide) (.cons (by decide) (.cons hmove (.cons (by decide) .nil)))

theorem commands_extruder {p : ExtruderPanel.Panel} {d : ExtruderPanel.Direction}
    {text : String} (h : p.sendExtrudeMove d = some text) :
    Gcode.commands text =
      List.replicate (if p.heats then 1 else 0) .other ++ Gcode.bracket "guppy_extrude" .M83 := by
  unfold ExtruderPanel.Panel.sendExtrudeMove at h
  split at h
  · rename_i temp len speed htemp hlen hspeed
    have hheats : p.heats = !p.atTemp temp := by
      unfold ExtruderPanel.Panel.heats
      rw [htemp]
    have hmove := reads_extrude d speed (lacks_break_selected hlen)
    have hheat : Gcode.Reads ("M109 S" ++ temp) .other :=
      Gcode.reads_plain (by decide) (by decide) (by decide) (lacks_break_selected htemp)
    cases h
    rw [hheats]
    cases p.atTemp temp with
    | true => exact Gcode.commands_join (by simp [ExtruderPanel.moveLines]) hmove
    | false => exact Gcode.commands_join (by simp) (.cons hheat hmove)
  · cases h

theorem commands_manualJog (distance : ℚ) :
    Gcode.commands (ManualZ.Script.jog distance).text =
      Gcode.bracket "guppy_manual_z" .G91 := by
  have hmove : Gcode.Reads ("G1 Z" ++ fixed 3 distance ++ " F600") .other := by
    rw [String.append_assoc]
    refine Gcode.reads_plain (by decide) (by decide) (by decide) ?_
    exact (lacks_append _ _ _).mpr ⟨lacks_break_fixed 3 distance, by decide⟩
  refine Gcode.commands_join (by simp [ManualZ.Script.lines]) ?_
  exact .cons (by decide) (.cons (by decide) (.cons hmove (.cons (by decide) .nil)))

theorem commands_manualStart (zmax cx cy : ℚ) :
    Gcode.commands (ManualZ.Script.start zmax cx cy).text =
      .other :: Gcode.bracket "guppy_manual_z" .G90 := by
  have hdeclare : Gcode.Reads ("SET_KINEMATIC_POSITION Z=" ++ fixed 3 zmax) .other :=
    Gcode.reads_plain (by decide) (by decide) (by decide) (lacks_break_fixed 3 zmax)
  have hmove : Gcode.Reads ("G1 X" ++ fixed 1 cx ++ " Y" ++ fixed 1 cy ++ " F6000") .other := by
    simp only [String.append_assoc]
    refine Gcode.reads_plain (by decide) (by decide) (by decide) ?_
    simp only [lacks_append]
    exact ⟨lacks_break_fixed 1 cx, by decide, lacks_break_fixed 1 cy, by decide⟩
  refine Gcode.commands_join (by simp [ManualZ.Script.lines]) ?_
  exact .cons hdeclare
    (.cons (by decide) (.cons (by decide) (.cons hmove (.cons (by decide) .nil))))

theorem commands_manualZero :
    Gcode.commands ManualZ.Script.setZero.text =
      .other :: Gcode.bracket "guppy_manual_z" .G91 := by
  decide +kernel

namespace Move

theorem commands_script {mv : Move} {text : String} (h : mv.script = some text) :
    Gcode.commands text =
      List.replicate mv.lead .other ++ Gcode.bracket mv.name mv.mode := by
  cases mv with
  | homing b i => exact commands_homing h
  | extruder p d => exact commands_extruder h
  | manualJog distance =>
    cases h
    exact commands_manualJog distance
  | manualStart zmax cx cy =>
    cases h
    exact commands_manualStart zmax cx cy
  | manualZero =>
    cases h
    exact commands_manualZero

/-- The modes after a panel's move are those before it exactly when Klipper refuses
neither the move nor the restore, or was in the mode of the move already. -/
theorem modes_kept_iff (mv : Move) (text : String) (h : mv.script = some text)
    (p : Gcode.Printer) (refused : Option ℕ) :
    (Gcode.runScript refused p text).modes = p.modes ↔
      (refused ≠ some (mv.lead + 2) ∧ refused ≠ some (mv.lead + 3)) ∨
        mv.mode.apply p.modes = p.modes := by
  rw [Gcode.runScript, commands_script h]
  exact Gcode.run_others_bracket mv.lead mv.name mv.mode p refused

-- A jog Klipper takes, and one it refuses as out of range.
def xUp10 : Move := .homing .xUp ⟨4, by decide⟩

theorem modes_kept_by_xUp10 :
    (Gcode.runScript none ⟨⟨true, true⟩, []⟩ ("SAVE_GCODE_STATE NAME=guppy_move\nG91\n" ++
      "G0 X+10 F1200\nRESTORE_GCODE_STATE NAME=guppy_move")).modes = ⟨true, true⟩ :=
  (modes_kept_iff xUp10 _ (by decide +kernel) _ none).mpr (by decide)

/-- A homing jog out of range leaves the printer in relative positioning. -/
theorem modes_leak_from_xUp10 :
    ¬ ∀ (mv : Move) (text : String) (p : Gcode.Printer) (refused : Option ℕ),
      mv.script = some text → (Gcode.runScript refused p text).modes = p.modes := by
  intro h
  have hrun := h xUp10 ("SAVE_GCODE_STATE NAME=guppy_move\nG91\n" ++
    "G0 X+10 F1200\nRESTORE_GCODE_STATE NAME=guppy_move") ⟨⟨true, true⟩, []⟩ (some 2)
    (by decide +kernel)
  revert hrun
  decide +kernel

end Move

end GuppyScreen
