import GuppyScreen.Lib.Outcome
import GuppyScreen.Lib.Run
import GuppyScreen.Utils

/-!
# Input shaper tuning (inputshaper_panel.cpp)

One axis at a time: TEST_RESONANCES writes a capture, a shell command analyses
it and prints a payload. Everything the panel holds is here, the widgets the
code reads back (selectors, slider, buttons) as plain values. A handler that
throws leaves the panel as it was at that point. The headline and the table look a
key up in a `const json`, where one that is missing is an assertion or undefined:
here that throws.
-/

namespace GuppyScreen.InputShaper
open Lib Text Double KUtils Outcome

inductive AxisId where
  | x
  | y
  deriving DecidableEq

inductive RunState where
  | idle
  | testing
  | analysing
  deriving DecidableEq

inductive Target where
  | x
  | y
  | both
  deriving DecidableEq

inductive Face where
  | spinner
  | plot
  | table
  deriving DecidableEq

structure Axis where
  pending : Bool
  run : RunState
  since : UInt32
  shaperKnown : Bool
  freq : ℚ
  shaper : String
  plotPath : String
  result : Json

structure Setting where
  type : String
  freq : String
  deriving DecidableEq

inductive Script where
  | test (homed : Bool) (axis : AxisId)
  | analyse (arg : String)
  | setInputShaper (x y : Setting)
  | saveInputShaper (x y : Setting)
  deriving DecidableEq

/-- A script is logged with what both axes were doing when it was sent. -/
inductive Entry where
  | lock
  | unlock
  | script (x y : RunState) (s : Script)
  | rpc (method : String)
  deriving DecidableEq

structure Panel where
  x : Axis
  y : Axis
  shown : AxisId
  target : Target
  viewIdx : ℕ
  shaperIdx : ℕ
  smoothingIdx : ℕ
  sliderMin : ℤ
  sliderMax : ℤ
  sliderValue : ℤ
  freqLabel : String
  statusText : String
  headline : String
  table : String
  plot : Option String
  face : Face
  calibrateBtn : Bool
  applyBtn : Bool
  saveBtn : Bool
  savePrompts : ℕ
  analysisProducedResult : Bool
  watchdog : Bool
  log : List Entry

/-- Library behaviour: `json::parse`, where `none` is its exception, and the
`int` that becomes of an `lround` out of range. -/
structure Host where
  parse : String → Option Json
  wild : ℤ → ℤ

def shapers : List String := ["zv", "mzv", "zvd", "ei", "2hump_ei", "3hump_ei"]
def smoothings : List String := ["Auto", "0.10", "0.15", "0.20", "0.25"]

namespace AxisId

def name : AxisId → String
  | x => "X"
  | y => "Y"

def csv : AxisId → String
  | x => "/tmp/resonances_x_x.csv"
  | y => "/tmp/resonances_y_y.csv"

def png : AxisId → String
  | x => "resonances_x.png"
  | y => "resonances_y.png"

end AxisId

namespace Script

def settings (x y : Setting) : String :=
  "SHAPER_FREQ_X=" ++ x.freq ++ " SHAPER_TYPE_X=" ++ x.type ++
    " SHAPER_FREQ_Y=" ++ y.freq ++ " SHAPER_TYPE_Y=" ++ y.type

def text : Script → String
  | test homed axis => (if homed then "" else "G28\n") ++ "TEST_RESONANCES AXIS=" ++ axis.name ++
      " NAME=" ++ (match axis with | .x => "x" | .y => "y") ++ "\nM400"
  | analyse arg => "RUN_SHELL_COMMAND CMD=guppy_input_shaper PARAMS=" ++ debug arg
  | setInputShaper x y => "SET_INPUT_SHAPER " ++ settings x y
  | saveInputShaper x y => "SAVE_INPUT_SHAPER " ++ settings x y ++ "\nSAVE_CONFIG"

end Script

def Target.wants : Target → AxisId → Bool
  | .both, _ => true
  | .x, i => i = .x
  | .y, i => i = .y

namespace Panel

def get (p : Panel) : AxisId → Axis
  | .x => p.x
  | .y => p.y

def modify (p : Panel) (i : AxisId) (f : Axis → Axis) : Panel :=
  match i with
  | .x => { p with x := f p.x }
  | .y => { p with y := f p.y }

def emit (p : Panel) (e : Entry) : Panel := { p with log := p.log ++ [e] }

def send (p : Panel) (s : Script) : Panel := p.emit (.script p.x.run p.y.run s)

/-! ### Showing an axis -/

/-- `(*entry)[key].get<double>()`; a member that is missing has no double either. -/
def number (entry : Json) (key : String) : Option ℚ := (entry.get? key).bind double?

def headlineOf (name : String) (best : String) (entry : Json) : Option String :=
  match number entry "freq", number entry "vib", number entry "max_acel" with
  | some freq, some vib, some accel =>
    some (name ++ ": best is " ++ best ++ " at " ++ fixed 1 freq ++ " Hz, " ++ fixed 1 vib ++
      "% vibration, " ++ fixed 0 accel ++ " max accel")
  | _, _, _ => none

def renderHeadline (i : AxisId) (axis : Axis) : Option String :=
  if axis.result = .null then
    some (if axis.freq > 0 ∧ axis.shaper ≠ "" then
        i.name ++ " axis is set to " ++ axis.shaper ++ " at " ++ fixed 1 axis.freq ++ " Hz"
      else i.name ++ " axis has not been calibrated")
  else
    match axis.result.get? "best", axis.result.get? "shapers" with
    | some (.str best), some entries =>
      match entries.get? best with
      | none => some (i.name ++ " axis: best is " ++ best)
      | some entry => headlineOf i.name best entry
    | some _, some _ => none
    | _, _ => some (i.name ++ " axis")

def tableRow (name : String) (entry : Json) : Option String :=
  match number entry "freq", number entry "vib", number entry "smooth", number entry "max_acel" with
  | some freq, some vib, some smooth, some accel =>
    some (padRight ' ' 9 name ++ padLeft ' ' 7 (fixed 1 freq) ++
      padLeft ' ' 7 (fixed 1 vib) ++ "%" ++
      padLeft ' ' 8 (fixed 3 smooth) ++ padLeft ' ' 9 (fixed 0 accel))
  | _, _, _, _ => none

def tableHeader : String :=
  padRight ' ' 9 "Shaper" ++ padLeft ' ' 7 "Hz" ++ padLeft ' ' 8 "Vibr" ++ padLeft ' ' 8 "Smooth" ++
    padLeft ' ' 9 "MaxAcc"

/-- The rows in the order of `shapers`, whatever order the payload has. -/
def tableRows (entries : Json) : List String → Option (List String)
  | [] => some []
  | name :: names =>
    match entries.get? name with
    | none => tableRows entries names
    | some entry =>
      match tableRow name entry, tableRows entries names with
      | some row, some rows => some (row :: rows)
      | _, _ => none

def renderTable (result : Json) : Option String :=
  match result.get? "shapers" with
  | some (.obj entries) => (tableRows (.obj entries) shapers).map fun rows =>
      "\n".intercalate (tableHeader :: rows)
  | _ => some ""

/-- `select_shaper`: the row is left alone for a name that is not one of ours. -/
def selectShaper (p : Panel) (shaper : String) : Panel :=
  if shaper ∈ shapers then { p with shaperIdx := shapers.idxOf shaper } else p

/-- The conversion of `lround`'s result to the slider's `int`. -/
def toInt32 (h : Host) (n : ℤ) : ℤ :=
  if -2 ^ 31 ≤ n ∧ n < 2 ^ 31 then n else Int.bmod (h.wild n) (2 ^ 32)

def tenths (h : Host) (hz : ℚ) : ℤ := toInt32 h (Rounding.lround (rnd (hz * 10)))

/-- LVGL keeps a slider's value inside its range. -/
def clamp (lo hi v : ℤ) : ℤ := max lo (min hi v)

def frequencyText (value : ℤ) : String := fixed 1 (rnd (value / 10)) ++ " Hz"

def setFrequency (h : Host) (p : Panel) (hz : ℚ) : Panel :=
  let value := clamp p.sliderMin p.sliderMax (tenths h hz)
  { p with sliderValue := value, freqLabel := frequencyText value }

def refreshHeadline (p : Panel) : Except Panel Panel :=
  if p.statusText ≠ "" then .ok { p with headline := p.statusText }
  else
    match renderHeadline p.shown (p.get p.shown) with
    | some text => .ok { p with headline := text }
    | none => .error p

def setStatus (p : Panel) (text : String) : Except Panel Panel :=
  { p with statusText := text }.refreshHeadline

def updateView (p : Panel) : Panel :=
  let axis := p.get p.shown
  { p with face :=
      if axis.run ≠ .idle then .spinner
      else if p.viewIdx = 0 ∧ axis.plotPath ≠ "" then .plot
      else .table }

def targetText (t : Target) : String :=
  match t with
  | .both => "both axes"
  | .x => "the X axis"
  | .y => "the Y axis"

def showResult (p : Panel) (i : AxisId) : Except Panel Panel :=
  let axis := p.get i
  match if axis.result = .null then some ("Calibrate to measure " ++ targetText p.target ++ ".")
    else renderTable axis.result with
  | none => .error p
  | some text =>
    .ok { p with
      table := text
      plot := if axis.plotPath = "" then none else some axis.plotPath : Panel }.updateView

def showAxis (h : Host) (p : Panel) (i : AxisId) : Except Panel Panel := do
  let p := { p with shown := i }
  let p := p.selectShaper (p.get i).shaper
  let p := p.setFrequency h (p.get i).freq
  let p ← p.refreshHeadline
  p.showResult i

/-! ### The configuration -/

def missingSections (s : State) : List String :=
  (if hasConfigSection s "resonance_tester" then [] else ["[resonance_tester]"]) ++
  (if hasConfigSection s "gcode_shell_command guppy_input_shaper" then []
    else ["[gcode_shell_command guppy_input_shaper]"]) ++
  (if hasConfigSection s "calibrate_shaper_config" then [] else ["[calibrate_shaper_config]"]) ++
  (if hasConfigSection s "input_shaper" then [] else ["[input_shaper]"])

def updateAvailable (w : World) (p : Panel) : Except Panel Panel :=
  let canTest := hasConfigSection w.state "resonance_tester"
  let canAnalyse := hasConfigSection w.state "gcode_shell_command guppy_input_shaper"
  let typesKnown := p.x.shaperKnown && p.y.shaperKnown
  let p := { p with
    calibrateBtn := canTest && canAnalyse
    applyBtn := hasConfigSection w.state "input_shaper" && typesKnown
    saveBtn := hasConfigSection w.state "calibrate_shaper_config" && typesKnown }
  let missing := missingSections w.state
  if !missing.isEmpty then p.setStatus ("Config is missing " ++ ", ".intercalate missing)
  else if !typesKnown then
    p.setStatus ("Printer is set to a shaper this panel does not know. " ++
      "Calibrate to replace it.")
  else p.setStatus ""

def configNumber (section_ : Json) (key : String) (fallback : ℚ) : ℚ :=
  match section_.get? key with
  | some (.str text) => parseDouble text fallback
  | some v => (double? v).getD fallback
  | none => fallback

def configString (section_ : Json) (key : String) : String :=
  match section_.get? key with
  | some (.str text) => text
  | _ => ""

def configureAxis (axis : Axis) (freq : ℚ) (type : String) : Axis :=
  let axis := { axis with freq := freq }
  if type = "" then axis else { axis with shaper := type, shaperKnown := type ∈ shapers }

def configure (p : Panel) (inputshaper : Json) : Panel :=
  if !inputshaper.isObject then p
  else
    let fallback := configString inputshaper "shaper_type"
    let typeX := configString inputshaper "shaper_type_x"
    let typeY := configString inputshaper "shaper_type_y"
    { p with
      x := configureAxis p.x (configNumber inputshaper "shaper_freq_x" 0)
        (if typeX = "" then fallback else typeX)
      y := configureAxis p.y (configNumber inputshaper "shaper_freq_y" 0)
        (if typeY = "" then fallback else typeY) }

/-- `lv_slider_set_range`, which also moves the value back inside. -/
def setRange (p : Panel) (lo hi : ℤ) : Panel :=
  { p with sliderMin := lo, sliderMax := hi, sliderValue := clamp lo hi p.sliderValue }

def configureRange (h : Host) (p : Panel) (tester : Json) : Panel :=
  if !tester.isObject then p
  else
    let lo := tenths h (configNumber tester "min_freq" 5)
    let hi := tenths h (configNumber tester "max_freq" 140)
    if lo < hi then p.setRange lo hi else p

def foreground (h : Host) (w : World) (p : Panel) : Except Panel Panel := do
  let p := p.configure (w.state.getData ["printer_state", "configfile", "config", "input_shaper"])
  let p := p.configureRange h
    (w.state.getData ["printer_state", "configfile", "settings", "resonance_tester"])
  let p ← p.showAxis h p.shown
  p.updateAvailable w

/-! ### Runs -/

def startRun (w : World) (p : Panel) (i : AxisId) : Panel :=
  { p.modify i fun a => { a with run := .testing, since := w.tick } with watchdog := true }

def finishRun (p : Panel) (i : AxisId) : Panel :=
  let p := p.modify i fun a => { a with run := .idle }
  if p.x.run = .idle ∧ p.y.run = .idle then { p with watchdog := false } else p

def nextPending (p : Panel) : Option AxisId :=
  if p.x.pending then some .x else if p.y.pending then some .y else none

def startNextAxis (h : Host) (w : World) (p : Panel) : Except Panel Panel :=
  match p.nextPending with
  | none => if p.x.run = .idle ∧ p.y.run = .idle then p.setStatus "" else .ok p
  | some i =>
    let p := p.modify i fun a => { a with pending := false }
    match isHomed w.state with
    | none => .error p
    | some homed => do
      let p := p.send (.test homed i)
      let p ← p.setStatus ("Testing " ++ i.name ++ " resonances. This takes a few minutes.")
      let p := p.startRun w i
      p.showAxis h i

def doomed (analysingOnly : Bool) (a : Axis) : Bool :=
  a.run ≠ .idle && (!analysingOnly || a.run = .analysing)

def abandonAxis (analysingOnly : Bool) (a : Axis) : Axis :=
  { a with pending := false, run := if doomed analysingOnly a then .idle else a.run }

def abandonRuns (p : Panel) (why : String) (analysingOnly : Bool) : Except Panel Panel :=
  if !doomed analysingOnly p.x && !doomed analysingOnly p.y then .ok p
  else do
    let p := { p with
      x := abandonAxis analysingOnly p.x
      y := abandonAxis analysingOnly p.y
      watchdog := false }
    let p ← p.setStatus why
    return p.updateView

def limit : UInt32 := 15 * 60 * 1000

def stalled (w : World) (a : Axis) : Bool := a.run ≠ .idle && decide (tickElaps w a.since > limit)

/-- The watchdog's callback: it runs with the lock held and takes none. -/
def checkTimeouts (w : World) (p : Panel) : Except Panel Panel :=
  if stalled w p.x || stalled w p.y then
    p.abandonRuns
      "The printer stopped reporting on the resonance test. Check the Klipper log." false
  else .ok p

def plotDirectory (w : World) : Option String :=
  (getRootPath w.state "config").map fun root => if root.length > 0 then root else "/tmp"

def smoothingArg (p : Panel) : String :=
  if p.smoothingIdx = 0 then ""
  else
    match smoothings[p.smoothingIdx]? with
    | none => ""
    | some text => " -s " ++ text

def requestAnalysis (w : World) (p : Panel) (i : AxisId) : Except Panel Panel :=
  match plotDirectory w with
  | none => .error p
  | some dir => do
    let arg := i.csv ++ " -o " ++ dir ++ "/" ++ i.png ++ " -w " ++ scaled 2 (plotSize w).1 ++
      " -l " ++ scaled 2 (plotSize w).2 ++ p.smoothingArg
    let p := p.modify i fun a => { a with run := .analysing, since := w.tick }
    let p ← p.setStatus ("Analysing " ++ i.name ++ " resonance data.")
    return p.send (.analyse arg)

/-! ### Results -/

/-- The shaper a payload proposes. A `freq` that is no number throws once the name
is in place. -/
def applyBest (p : Panel) (i : AxisId) (res : Json) : Except Panel Panel :=
  match res.get? "best", res.get? "shapers" with
  | some (.str name), some entries =>
    match entries.get? name with
    | none => .ok p
    | some entry =>
      let p := (p.selectShaper name).modify i fun a =>
        { a with shaper := name, shaperKnown := name ∈ shapers }
      match number entry "freq" with
      | none => .error p
      | some freq => .ok (p.modify i fun a => { a with freq := freq })
  | some _, some _ => .error p
  | _, _ => .ok p

def applyPlot (w : World) (p : Panel) (i : AxisId) (res : Json) : Except Panel Panel :=
  match res.get? "png" with
  | some (.str png) =>
    match w.isRunningLocal with
    | none => .error p
    | some isLocal =>
      match if isLocal then some png else w.downloadFile i.png with
      | none => .error p
      | some file => .ok (p.modify i fun a => { a with plotPath := "A:" ++ file })
  | _ => .ok p

def applyResult (w : World) (p : Panel) (i : AxisId) (res : Json) : Except Panel Panel := do
  let p := p.modify i fun a => { a with result := res }
  let p ← p.applyBest i res
  p.applyPlot w i res

def axisOf (res : Json) : Option AxisId :=
  match res.get? "logfile" with
  | some (.str fn) => if fn = AxisId.x.csv then some .x else if fn = AxisId.y.csv then some .y
    else none
  | _ => none

def handlePayload (h : Host) (w : World) (p : Panel) (res : Json) : Except Panel Panel :=
  match axisOf res with
  | none => .ok p
  | some i =>
    if (p.get i).run ≠ .analysing then .ok p
    else do
      let p ← p.applyResult w i res
      let p := p.finishRun i
      let p ← p.showAxis h i
      let p ← p.updateAvailable w
      p.startNextAxis h w

/-- The flag is set before anything is known about the payload. -/
def handlePayloadLine (h : Host) (w : World) (p : Panel) (resp : String) : Except Panel Panel :=
  let p := { p with analysisProducedResult := true }
  match h.parse (substr resp 3) with
  | none => .error p
  | some res => p.handlePayload h w res

def runningLine : String := "// Running Command \x7bguppy_input_shaper\x7d"
def timedOutLine : String := "// Command \x7bguppy_input_shaper\x7d timed out"
def finishedLine : String := "// Command \x7bguppy_input_shaper\x7d finished"
def payloadLine : String := "// \x7b\"shapers\":"
def written (i : AxisId) : String := "// Resonances data written to " ++ i.csv ++ " file"

/-- What `handle_macro_response` takes a response for, in the order it looks. -/
inductive Kind where
  | error
  | running
  | timedOut
  | finished
  | payload
  | written (i : AxisId)
  | other
  deriving DecidableEq

def kind (resp : String) : Kind :=
  if startsWith "!! " resp then .error
  else if startsWith runningLine resp then .running
  else if startsWith timedOutLine resp then .timedOut
  else if startsWith finishedLine resp then .finished
  else if startsWith payloadLine resp then .payload
  else if resp = Panel.written .x then .written .x
  else if resp = Panel.written .y then .written .y
  else .other

/-- The part of `handle_macro_response` under the lock. -/
def handleResponse (h : Host) (w : World) (p : Panel) (resp : String) : Except Panel Panel :=
  match kind resp with
  | .error => p.abandonRuns (substr resp 3) false
  | .running => .ok { p with analysisProducedResult := false }
  | .timedOut => p.abandonRuns ("Analysing the resonance data timed out. The K1 is short on " ++
      "memory, so this can be the plot rather than the maths.") true
  | .finished =>
    if !p.analysisProducedResult then
      p.abandonRuns ("Analysing the resonance data produced no result. " ++
        "Check the Klipper log.") true
    else .ok p
  | .payload => p.handlePayloadLine h w resp
  | .written i => if (p.get i).run = .testing then p.requestAnalysis w i else .ok p
  | .other => .ok p

def locked (p : Panel) (f : Panel → Except Panel Panel) : Panel :=
  (final (f (p.emit .lock))).emit .unlock

def handleMacroResponse (h : Host) (w : World) (p : Panel) (j : Json) : Panel :=
  match j.valueAt ["params", "0"] with
  | .str resp => p.locked fun p => p.handleResponse h w resp
  | _ => p

def handleKlippyGone (p : Panel) : Panel :=
  p.locked fun p =>
    p.abandonRuns "Klipper disconnected while the resonance test was running." false

/-! ### Controls -/

def queueAxis (t : Target) (i : AxisId) (a : Axis) : Axis :=
  if t.wants i then { a with pending := true, result := .null, plotPath := "" }
  else { a with pending := false }

def handleCalibrate (h : Host) (w : World) (p : Panel) : Except Panel Panel :=
  if p.x.run ≠ .idle ∨ p.y.run ≠ .idle then .ok p
  else { p with x := queueAxis p.target .x p.x, y := queueAxis p.target .y p.y }.startNextAxis h w

def setting (p : Panel) (i : AxisId) : Setting := ⟨(p.get i).shaper, fixed 1 (p.get i).freq⟩

def handleApply (p : Panel) : Except Panel Panel :=
  (p.send (.setInputShaper (p.setting .x) (p.setting .y))).setStatus
    ("Applied X " ++ (p.setting .x).type ++ " at " ++ (p.setting .x).freq ++ " Hz, Y " ++
      (p.setting .y).type ++ " at " ++ (p.setting .y).freq ++
      " Hz. Not saved, so a restart undoes it.")

def saveToConfig (p : Panel) : Panel :=
  p.send (.saveInputShaper (p.setting .x) (p.setting .y))

def selectAxis (h : Host) (p : Panel) (t : Target) : Except Panel Panel :=
  let p := { p with target := t }
  match t with
  | .both => p.showAxis h p.shown
  | .x => p.showAxis h .x
  | .y => p.showAxis h .y

def selectView (p : Panel) (idx : ℕ) : Panel :=
  { p with viewIdx := if idx < 2 then idx else p.viewIdx }.updateView

def selectSmoothing (p : Panel) (idx : ℕ) : Panel :=
  { p with smoothingIdx := if idx < smoothings.length then idx else p.smoothingIdx }

def chooseShaper (w : World) (p : Panel) (idx : ℕ) : Except Panel Panel :=
  match shapers[idx]? with
  | none => .ok p
  | some name =>
    let p := { p with shaperIdx := idx }
    (p.modify p.shown fun a => { a with shaper := name, shaperKnown := true }).updateAvailable w

def handleUpdateSlider (p : Panel) (value : ℤ) : Panel :=
  let value := clamp p.sliderMin p.sliderMax value
  { p with sliderValue := value, freqLabel := frequencyText value }.modify p.shown
    fun a => { a with freq := rnd (value / 10) }

end Panel

inductive Event where
  | foreground (w : World)
  | calibrate (w : World)
  | apply
  | save
  | confirmSave
  | cancelSave
  | emergencyStop
  | selectAxis (t : Target)
  | selectView (idx : ℕ)
  | selectShaper (w : World) (idx : ℕ)
  | selectSmoothing (idx : ℕ)
  | slider (value : ℤ)
  | gcodeResponse (w : World) (j : Json)
  | klippyGone
  | watchdog (w : World)

def step (h : Host) (p : Panel) : Event → Panel
  | .foreground w => final (p.foreground h w)
  | .calibrate w => if p.calibrateBtn then final (p.handleCalibrate h w) else p
  | .apply => if p.applyBtn then final p.handleApply else p
  | .save => if p.saveBtn then { p with savePrompts := p.savePrompts + 1 } else p
  | .confirmSave =>
    if p.savePrompts = 0 then p else { p with savePrompts := p.savePrompts - 1 }.saveToConfig
  | .cancelSave => { p with savePrompts := p.savePrompts - 1 }
  | .emergencyStop => p.emit (.rpc "printer.emergency_stop")
  | .selectAxis t => final (p.selectAxis h t)
  | .selectView idx => p.selectView idx
  | .selectShaper w idx => final (p.chooseShaper w idx)
  | .selectSmoothing idx => p.selectSmoothing idx
  | .slider value => p.handleUpdateSlider value
  | .gcodeResponse w j => p.handleMacroResponse h w j
  | .klippyGone => p.handleKlippyGone
  | .watchdog w => if p.watchdog then final (p.checkTimeouts w) else p

def Axis.init : Axis := ⟨false, .idle, 0, true, 0, "", "", .null⟩

/-- The panel as built, before `show_axis(0)` at the end of its constructor. -/
def Panel.built : Panel :=
  { x := Axis.init, y := Axis.init, shown := .x, target := .both, viewIdx := 0, shaperIdx := 1,
    smoothingIdx := 0, sliderMin := 50, sliderMax := 1400, sliderValue := 50, freqLabel := "0.0 Hz",
    statusText := "", headline := "", table := "", plot := none, face := .table,
    calibrateBtn := true, applyBtn := true, saveBtn := true, savePrompts := 0,
    analysisProducedResult := false, watchdog := false, log := [] }

def Panel.init (h : Host) : Panel :=
  final (do
    let p ← Panel.built.showAxis h .x
    p.setStatus "")

end GuppyScreen.InputShaper
