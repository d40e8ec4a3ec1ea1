import GuppyScreen.Eta
import GuppyScreen.Fans
import GuppyScreen.Lib.Latch
import GuppyScreen.Lib.Outcome
import GuppyScreen.PrintPanel.Panel
import GuppyScreen.PrintStatus.Layers

/-!
# What the status panel shows (print_status_panel.cpp, mini_print_status.cpp)

A notification is read field by field, and a field of the wrong type throws: what was
read before it stays. The layer counter, the flow rate and the thumbnails are left to
other modules.
-/

namespace GuppyScreen.PrintStatus
open Lib Outcome KUtils Text

/-! ### The status on the main panel -/

structure Mini where
  shown : Bool := false
  progress : ℤ := 0
  status : String := "n/a"
  eta : String := "..."
  label : String := "ETA: ...\nStatus: n/a"

namespace Mini

def text (m : Mini) : String := "ETA: " ++ m.eta ++ "\nStatus: " ++ m.status

def updateEta (m : Mini) (eta : String) : Mini :=
  let m := { m with eta := eta }
  { m with label := m.text }

def updateStatus (m : Mini) (status : String) : Mini :=
  let m := { m with status := status }
  { m with label := m.text }

/-- The label stays as it is. -/
def reset (m : Mini) : Mini :=
  { m with
    progress := 0
    eta := "..."
    status := "n/a" }

end Mini

/-! ### The panel -/

inductive Button where
  | fineTune
  | pause
  | resume
  | cancel
  | emergency
  | back
  /-- The status on the main panel. -/
  | mini
  deriving DecidableEq

/-- The buttons of the print panel that move this one; a disabled one takes no touch. -/
inductive FilesButton where
  | back
  | print
  | status (enabled : Bool)
  deriving DecidableEq

/-- The confirmations, each a modal box. -/
inductive Prompt where
  | pause
  | cancel
  | emergency
  deriving DecidableEq

def Prompt.method : Prompt → String
  | .pause => "printer.print.pause"
  | .cancel => "printer.print.cancel"
  | .emergency => "printer.emergency_stop"

/-- `front`: the last move of this panel was to the foreground. -/
structure Screen where
  panel : Panel := {}
  front : Bool := false
  mini : Mini := {}
  progress : ℤ := 0
  elapsed : String := "0s"
  timeLeft : String := "..."
  extruderTarget : ℤ := -1
  heaterBedTarget : ℤ := -1
  extruderTemp : String := "20"
  bedTemp : String := "21"
  printSpeed : String := "0 mm/s"
  zOffset : String := "0.0 mm"
  auxSensor : String := ""
  auxTemp : String := ""
  fanSpeeds : List (String × ℤ) := []
  fan0 : String := "0%"
  pauseShown : Bool := true
  resumeShown : Bool := true
  pauseEnabled : Bool := true
  resumeEnabled : Bool := true
  prompt : Option Prompt := none
  asked : List String := []
  sent : List String := []

/-- One value is read, if it is there. -/
def reading {α : Type} (get : Json → Option α) (v : Json) (f : α → Screen → Screen) (p : Screen) :
    Except Screen Screen :=
  match v with
  | .null => .ok p
  | v =>
    match get v with
    | none => .error p
    | some a => .ok (f a p)

def asBool : Json → Option Bool
  | .bool b => some b
  | _ => none

/-- `static_cast<int>(value * 100)`. -/
def percent (q : ℚ) : ℤ := Rounding.trunc (Double.rnd (q * 100))

def isActive (status : String) : Bool := status = "printing" || status = "paused"

namespace Screen

def setFront (b : Bool) (p : Screen) : Screen := { p with front := b }

def setMiniShown (b : Bool) (p : Screen) : Screen := { p with mini := { p.mini with shown := b } }

def setStatus (status : String) (p : Screen) : Screen :=
  { p with mini := p.mini.updateStatus status }

def updateProgress (pct : ℤ) (p : Screen) : Screen :=
  let pct := if pct < 0 then 0 else if 100 < pct then 100 else pct
  { p with
    progress := pct
    mini := { p.mini with progress := pct } }

/-- `estimated_time_s - time_passed` as an `int32_t`. -/
def remaining (p : Screen) (passed : ℕ) : ℤ := Int.bmod (p.panel.estimatedTimeS - passed) (2 ^ 32)

def updateTimeProgress (passed : ℕ) (p : Screen) : Screen :=
  let remaining := p.remaining passed
  let p :=
    if remaining < 0 then { p with timeLeft := "..." }
    else
      { p with
        timeLeft := etaString remaining.toNat
        mini := p.mini.updateEta (etaString remaining.toNat) }
  { p with elapsed := etaString passed }

/-- `reset` up to its `std::stod`. -/
def blank (p : Screen) : Screen :=
  { p with
    panel := p.panel.reset
    progress := 0
    printSpeed := "0 mm/s"
    elapsed := "0s"
    timeLeft := "..." }

def renew (p : Screen) : Screen :=
  { p with
    extruderTarget := -1
    heaterBedTarget := -1
    mini := p.mini.reset }

def reset (s : State) (p : Screen) : Except Screen Screen :=
  if Panel.resets s then .ok p.blank.renew else .error p.blank

def showButtons (paused : Bool) (p : Screen) : Screen :=
  { p with
    resumeShown := paused
    pauseShown := !paused }

def takePrintfile (fname : String) (p : Screen) : Screen :=
  if fname.length > 0 then { p with asked := p.asked ++ [fname] }.setMiniShown true else p

def takeZOffset (q : ℚ) (p : Screen) : Screen := { p with zOffset := shortMeasure q "mm" }

def takeAuxTemp (q : ℚ) (p : Screen) : Screen := { p with auxTemp := toString (Rounding.trunc q) }

/-- What a pointer with the name of an object in it reads, by `look`. -/
def readAux (pre : String) (look : List String → Json) (p : Screen) : Except Screen Screen :=
  if p.auxSensor = "" then .ok p
  else
    match Pointer.parse (pre ++ p.auxSensor ++ "/temperature") with
    | none => .error p
    | some ptr => reading double? (look ptr) takeAuxTemp p

def readState (s : State) (p : Screen) : Except Screen Screen :=
  match s.getData ["printer_state", "print_stats", "state"] with
  | .null => .ok (p.showButtons false)
  | .str pstate => .ok (p.showButtons (pstate = "paused"))
  | _ => .error p

def populate (s : State) (p : Screen) : Except Screen Screen := do
  let p ← reading Json.str? (Panel.fileName s) takePrintfile p
  let p ← readState s p
  let p ← reading double? (s.getData ["printer_state", "virtual_sdcard", "progress"])
    (fun q => updateProgress (percent q)) p
  let p ← reading double? (s.getData ["printer_state", "gcode_move", "homing_origin",
    "2"]) takeZOffset p
  readAux "/printer_state/" s.getData p

/-! ### The fans and the other sensor -/

/-- One fan's value, by `look`; a pointer may not parse. -/
def fanValue (get : ℚ → Option ℤ) (look : List String → Json) (path : String) : Option (Option ℤ) :=
  match Pointer.parse path with
  | none => none
  | some ptr =>
    match look ptr with
    | .null => some none
    | v => ((double? v).bind get).map some

/-- The two values a fan may have, in the order they are read; `error` keeps the first where
the second throws. -/
def fanValues (s : State) (pre : String) (look : List String → Json) (name : String) :
    Except (Option ℤ) (Option ℤ × Option ℤ) :=
  match fanValue (fanValueToPct s name) look (pre ++ name ++ "/value") with
  | none => .error none
  | some value =>
    match fanValue (fun q => some (percent q)) look (pre ++ name ++ "/speed") with
    | none => .error value
    | some speed => .ok (value, speed)

def percents (vs : List ℤ) : String := String.intercalate ", " (vs.map fun v => toString v ++ "%")

/-- The loop over the fans in `init`; `insert` keeps the first value of a fan. -/
def collectFans (s : State) : List String → List (String × ℤ) × List ℤ →
    Except (List (String × ℤ)) (List (String × ℤ) × List ℤ)
  | [], acc => .ok acc
  | name :: names, (speeds, values) =>
    match fanValues s "/printer_state/" s.getData name with
    | .error value => .error (speeds ++ (value.map (name, ·)).toList)
    | .ok (value, speed) =>
      collectFans s names
        (speeds ++ ((value.or speed).map (name, ·)).toList, values ++ value.toList ++ speed.toList)

/-- The loop over the fans in `consume`. -/
def updateFans (s : State) (j : Json) : List (String × ℤ) →
    Except (List (String × ℤ)) (List (String × ℤ))
  | [] => .ok []
  | f :: fs =>
    match fanValues s "/params/0/" j.valueAt f.1 with
    | .error value => .error ((f.1, value.getD f.2) :: fs)
    | .ok (value, speed) =>
      match updateFans s j fs with
      | .error fs => .error ((f.1, speed.getD (value.getD f.2)) :: fs)
      | .ok fs => .ok ((f.1, speed.getD (value.getD f.2)) :: fs)

def readFans (s : State) (j : Json) (p : Screen) : Except Screen Screen :=
  match updateFans s j p.fanSpeeds with
  | .error fans => .error { p with fanSpeeds := fans }
  | .ok fans =>
    .ok { p with
      fanSpeeds := fans
      fan0 := percents (fans.map (·.2)) }

def isAux (id : String) : Bool :=
  startsWith "temperature_sensor " id || startsWith "temperature_fan " id

/-- The first sensor that has no tile of its own. -/
def findAux (p : Screen) : List (String × Json) → Except Screen Screen
  | [] => .ok p
  | (id, entry) :: rest =>
    if isAux id then
      let p := { p with auxSensor := id }
      match entry.get? "display_name" with
      | none => .ok { p with auxTemp := toTitle (getObjName id) }
      | some (.str name) => .ok { p with auxTemp := name }
      | some _ => .error p
    else findAux p rest

def entries : Fields → List (String × Json)
  | .nil => []
  | .cons k v r => (k, v) :: entries r

/-! ### The handlers -/

def takeFans (s : State) (fans : Json) (p : Screen) : Except Screen Screen :=
  match collectFans s fans.members.keys ([], []) with
  | .error speeds => .error { p with fanSpeeds := speeds }
  | .ok (speeds, values) =>
    .ok { p with
      fanSpeeds := speeds
      fan0 := percents values }

def initStatus (s : State) (p : Screen) : Except Screen Screen :=
  match s.getData ["printer_state", "print_stats", "state"] with
  | .null => .ok (p.setMiniShown true)
  | .str pstatus =>
    .ok ((if isActive pstatus then p else p.setMiniShown false).setStatus pstatus)
  | _ => .error p

def init (s : State) (fans sensors : Json) (p : Screen) : Except Screen Screen := do
  let p ← findAux { p with auxSensor := "" } (entries sensors.members)
  let p ← takeFans s fans p
  let p ← reset s p
  let p ← populate s p
  initStatus s p

/-- The start of a print: a file the panel did not have. -/
def takeFilename (s : State) (printfile : Json) (p : Screen) : Except Screen Screen :=
  match printfile with
  | .null => .ok p
  | printfile =>
    let fname := printfile.str?.getD ""
    if fname ≠ "" ∧ fname ≠ p.panel.currentFilename then do
      let p ← reset s { p with panel := { p.panel with currentFilename := fname } }
      let p ← populate s p
      .ok (p.setFront true)
    else if fname = "" then .ok { p with panel := { p.panel with currentFilename := "" } }
    else .ok p

/-- A print that is over, `standby` excepted. -/
def isOver (status : String) : Bool := !isActive status && status ≠ "standby"

def takeState (status : String) (p : Screen) : Screen :=
  let p := p.setMiniShown (isActive status)
  let p :=
    if isOver status then
      (if status = "complete" then p.updateProgress 100 else p).setFront false
    else p
  p.setStatus status

/-- A temperature, beside its target if it has one. -/
def temperature (target v : ℤ) : String :=
  if 0 < target then toString v ++ " / " ++ toString target else toString v

def takePaused (paused : Bool) (p : Screen) : Screen :=
  { p.showButtons paused with
    resumeEnabled := paused
    pauseEnabled := !paused }

/-- What `consume` reads between the print's state and the paused state. -/
def takeFields (s : State) (j : Json) (p : Screen) : Except Screen Screen := do
  let field (o f : String) : Json := j.valueAt ["params", "0", o, f]
  let p ← reading asInt (field "extruder" "target") (fun n p => { p with extruderTarget := n }) p
  let p ← reading asInt (field "heater_bed" "target") (fun n p => { p with heaterBedTarget := n }) p
  let p ← reading asInt (field "extruder" "temperature")
    (fun n p => { p with extruderTemp := temperature p.extruderTarget n }) p
  let p ← reading asInt (field "heater_bed" "temperature")
    (fun n p => { p with bedTemp := temperature p.heaterBedTarget n }) p
  let p ← reading double? (field "motion_report" "live_velocity")
    (fun q p => { p with printSpeed := toString (Rounding.trunc q) ++ " mm/s" }) p
  let p ← reading double? (j.valueAt ["params", "0", "gcode_move", "homing_origin",
    "2"]) takeZOffset p
  let p ← readFans s j p
  let p ← reading seconds (field "print_stats" "print_duration") updateTimeProgress p
  let p ← readAux "/params/0/" j.valueAt p
  let p ← reading double? (field "virtual_sdcard" "progress")
    (fun q => updateProgress (percent q)) p
  reading double? (field "motion_report" "live_extruder_velocity") (fun _ p => p) p

def isPausedPtr : List String := ["params", "0", "pause_resume", "is_paused"]

/-- `consume` up to the paused state. -/
def consumeFields (s : State) (j : Json) (p : Screen) : Except Screen Screen := do
  let p ← takeFilename s (j.valueAt ["params", "0", "print_stats", "filename"]) p
  let p ← reading Json.str? (j.valueAt ["params", "0", "print_stats", "state"]) takeState p
  takeFields s j p

def consume (s : State) (j : Json) (p : Screen) : Except Screen Screen := do
  let p ← consumeFields s j p
  let p ← reading asBool (j.valueAt isPausedPtr) takePaused p
  .ok { p with panel := p.panel.updateLayers j }

/-- The duration that `handle_metadata` shows the progress of. -/
def metadataTime (s : State) (j : Json) : Option ℕ :=
  (Pointer.upsert id ["result", "estimated_time"] j).bind fun j =>
    match j.valueAt ["result", "estimated_time"] with
    | .null => none
    | eta => (seconds eta).bind fun _ =>
      match s.getData ["printer_state", "print_stats", "print_duration"] with
      | .null => none
      | duration => seconds duration

def handleMetadata (s : State) (j : Json) (p : Screen) : Screen :=
  let p := { p with panel := p.panel.handleMetadata s j }
  match metadataTime s j with
  | none => p
  | some passed => p.updateTimeProgress passed

/-! ### Touches -/

def send (method : String) (p : Screen) : Screen := { p with sent := p.sent ++ [method] }

/-- A press. With the prompts turned off it goes to `handle_callback`, which knows no pause. -/
def press (prompts : Bool) (b : Button) (p : Screen) : Screen :=
  if p.prompt.isSome then p
  else match b with
  | .back => p.setFront false
  | .mini => if p.mini.shown then p.setFront true else p
  | .resume =>
    if p.resumeShown && p.resumeEnabled then
      { p.send "printer.print.resume" with resumeEnabled := false }
    else p
  | .pause =>
    if p.pauseShown && p.pauseEnabled && prompts then { p with prompt := some .pause } else p
  | .cancel =>
    if prompts then { p with prompt := some .cancel } else p.send "printer.print.cancel"
  | .emergency =>
    if prompts then { p with prompt := some .emergency } else p.send "printer.emergency_stop"
  | .fineTune => p

def confirm (p : Screen) : Screen :=
  match p.prompt with
  | none => p
  | some prompt =>
    let p := { p with prompt := none }.send prompt.method
    if prompt = .pause then { p with pauseEnabled := false } else p

/-- What `handle_print_callback` asks of the state before it sends a print. -/
def readyToPrint (s : State) : Bool :=
  match s.getData ["printer_state", "print_stats", "state"] with
  | .str pstate => !isActive pstate
  | _ => false

/-- Print for a file that no scan holds while the printer is ready, and Status with a file
selected. -/
def filesRaise (s : State) (files : PrintPanel.Panel) : FilesButton → Bool
  | .back => false
  | .print => files.printBtn && (files.handlePrintCallback (readyToPrint s)).isSome
  | .status enabled => enabled && files.curFile.isSome

/-- A press on the print panel, which is `files` then. -/
def pressFiles (s : State) (files : PrintPanel.Panel) (b : FilesButton) (p : Screen) : Screen :=
  if p.prompt.isSome then p
  else if b = .back then p.setFront false
  else if filesRaise s files b then p.setFront true
  else p

/-! ### The panel, its notifications and its touches -/

structure World where
  state : State := ⟨.null⟩
  screen : Screen := {}

inductive Event where
  /-- `InitPanel::connected`. -/
  | connected
  /-- A notification, or the reply to the subscription, which only `State` takes here. -/
  | message (m : Message)
  /-- `MainPanel::init`, with what is displayed. -/
  | init (fans sensors : Json)
  | metadata (j : Json)
  | press (b : Button)
  | files (files : PrintPanel.Panel) (b : FilesButton)
  | confirm
  | dismiss

/-- The notification that a print is paused, or that it is not. -/
def Event.reports (paused : Bool) : Event → Bool
  | .message m => m.via = .notification && m.body.valueAt isPausedPtr = .bool paused
  | _ => false

def World.step (prompts : Bool) (w : World) : Event → World
  | .connected => { w with state := w.state.reset }
  | .message m =>
    let state := w.state.deliver m
    { state := state
      screen := match m.via with
        | .notification => final (w.screen.consume state m.body)
        | .reply => w.screen }
  | .init fans sensors => { w with screen := final (w.screen.init w.state fans sensors) }
  | .metadata j => { w with screen := w.screen.handleMetadata w.state j }
  | .press b => { w with screen := w.screen.press prompts b }
  | .files files b => { w with screen := w.screen.pressFiles w.state files b }
  | .confirm => { w with screen := w.screen.confirm }
  | .dismiss => { w with screen := { w.screen with prompt := none } }

end Screen

/-! ### What every handler keeps -/

/-- Only labels, the temperatures and the fans are different. -/
structure Plain (p q : Screen) : Prop where
  panel : q.panel = p.panel
  front : q.front = p.front
  mini : q.mini = p.mini
  progress : q.progress = p.progress
  timeLeft : q.timeLeft = p.timeLeft
  pauseShown : q.pauseShown = p.pauseShown
  resumeShown : q.resumeShown = p.resumeShown
  pauseEnabled : q.pauseEnabled = p.pauseEnabled
  resumeEnabled : q.resumeEnabled = p.resumeEnabled
  prompt : q.prompt = p.prompt
  sent : q.sent = p.sent

/-- A property of the panel that showing a value does not break. -/
structure Kept (P : Screen → Prop) : Prop where
  plain : ∀ p q, Plain p q → P p → P q
  miniShown : ∀ p b, P p → P (p.setMiniShown b)
  progress : ∀ p n, P p → P (p.updateProgress n)
  time : ∀ p n, P p → P (p.updateTimeProgress n)
  buttons : ∀ p b, P p → P (p.showButtons b)

/-- And neither does the start or the end of a print. -/
structure Stable (P : Screen → Prop) : Prop extends Kept P where
  panel : ∀ p a, P p → P { p with panel := a }
  front : ∀ p b, P p → P (p.setFront b)
  status : ∀ p s, P p → P (p.setStatus s)
  blank : ∀ p, P p → P p.blank
  renew : ∀ p, P p → P p.blank.renew

theorem post_reading {α : Type} {P : Screen → Prop} {get : Json → Option α}
    {f : α → Screen → Screen}
    {p : Screen} (v : Json) (h : P p) (hf : ∀ a, P (f a p)) : Post P P (reading get v f p) := by
  unfold reading
  split
  · exact h
  · cases get v with
    | none => exact h
    | some a => exact hf a

namespace Kept

variable {P : Screen → Prop} (h : Kept P) {p : Screen}
include h

theorem labels {α : Type} {get : Json → Option α} {f : α → Screen → Screen} (v : Json)
    (hf : ∀ a, Plain p (f a p)) (hp : P p) : Post P P (reading get v f p) :=
  post_reading v hp fun a => h.plain p _ (hf a) hp

theorem printfile (fname : String) (hp : P p) : P (p.takePrintfile fname) := by
  unfold Screen.takePrintfile
  split_ifs
  · exact h.miniShown _ true (h.plain p _ ⟨rfl, rfl, rfl, rfl, rfl, rfl, rfl, rfl, rfl, rfl,
      rfl⟩ hp)
  · exact hp

theorem aux (pre : String) (look : List String → Json) (hp : P p) :
    Post P P (p.readAux pre look) := by
  unfold Screen.readAux
  split_ifs
  · exact hp
  · cases Pointer.parse (pre ++ p.auxSensor ++ "/temperature") with
    | none => exact hp
    | some ptr =>
      exact h.labels _ (fun _ => ⟨rfl, rfl, rfl, rfl, rfl, rfl, rfl, rfl, rfl, rfl, rfl⟩) hp

theorem readState (s : State) (hp : P p) : Post P P (p.readState s) := by
  unfold Screen.readState
  split
  · exact h.buttons p false hp
  · exact h.buttons p _ hp
  · exact hp

theorem populate (s : State) (hp : P p) : Post P P (p.populate s) := by
  refine post_bind (post_reading _ hp fun a => h.printfile a hp) fun p hp => ?_
  refine post_bind (h.readState s hp) fun p hp => ?_
  refine post_bind (post_reading _ hp fun a => h.progress p _ hp) fun p hp => ?_
  refine post_bind (h.labels _ (fun _ => ⟨rfl, rfl, rfl, rfl, rfl, rfl, rfl, rfl, rfl, rfl,
    rfl⟩) hp)
    fun p hp => ?_
  exact h.aux _ _ hp

theorem fans (s : State) (j : Json) (hp : P p) : Post P P (p.readFans s j) := by
  unfold Screen.readFans
  split
  all_goals exact h.plain p _ ⟨rfl, rfl, rfl, rfl, rfl, rfl, rfl, rfl, rfl, rfl, rfl⟩ hp

theorem fields (s : State) (j : Json) (hp : P p) : Post P P (p.takeFields s j) := by
  iterate 6
    refine post_bind
      (h.labels _ (fun _ => ⟨rfl, rfl, rfl, rfl, rfl, rfl, rfl, rfl, rfl, rfl, rfl⟩) hp) fun p hp =>
        ?_
  refine post_bind (h.fans s j hp) fun p hp => ?_
  refine post_bind (post_reading _ hp fun a => h.time p a hp) fun p hp => ?_
  refine post_bind (h.aux _ _ hp) fun p hp => ?_
  refine post_bind (post_reading _ hp fun a => h.progress p _ hp) fun p hp => ?_
  exact post_reading _ hp fun _ => hp

theorem findAux (l : List (String × Json)) (hp : P p) : Post P P (p.findAux l) := by
  induction l with
  | nil => exact hp
  | cons e l ih =>
    obtain ⟨id, entry⟩ := e
    unfold Screen.findAux
    split_ifs
    · dsimp only
      split
      all_goals exact h.plain p _ ⟨rfl, rfl, rfl, rfl, rfl, rfl, rfl, rfl, rfl, rfl, rfl⟩ hp
    · exact ih

theorem takeFans (s : State) (fans : Json) (hp : P p) : Post P P (p.takeFans s fans) := by
  unfold Screen.takeFans
  split
  all_goals exact h.plain p _ ⟨rfl, rfl, rfl, rfl, rfl, rfl, rfl, rfl, rfl, rfl, rfl⟩ hp

end Kept

namespace Stable

variable {P : Screen → Prop} (h : Stable P) {p : Screen}
include h

theorem reset (s : State) (hp : P p) : Post P P (p.reset s) := by
  unfold Screen.reset
  split_ifs
  · exact h.renew p hp
  · exact h.blank p hp

theorem filename (s : State) (v : Json) (hp : P p) : Post P P (p.takeFilename s v) := by
  unfold Screen.takeFilename
  split
  · exact hp
  · dsimp only
    split_ifs
    · refine post_bind (h.reset s (h.panel p _ hp)) fun p hp => ?_
      refine post_bind (h.populate s hp) fun p hp => ?_
      exact h.front p true hp
    · exact h.panel p _ hp
    · exact hp

theorem state (status : String) (hp : P p) : P (p.takeState status) := by
  unfold Screen.takeState
  have hmini := h.miniShown p (isActive status) hp
  apply h.status
  split_ifs
  · exact h.front _ false (h.progress _ 100 hmini)
  · exact h.front _ false hmini
  · exact hmini

theorem consumeFields (s : State) (j : Json) (hp : P p) : Post P P (p.consumeFields s j) := by
  refine post_bind (h.filename s _ hp) fun p hp => ?_
  refine post_bind (post_reading _ hp fun a => h.state a hp) fun p hp => ?_
  exact h.fields s j hp

theorem initStatus (s : State) (hp : P p) : Post P P (p.initStatus s) := by
  unfold Screen.initStatus
  split
  · exact h.miniShown p true hp
  · apply h.status
    split_ifs
    · exact hp
    · exact h.miniShown p false hp
  · exact hp

theorem init (s : State) (fans sensors : Json) (hp : P p) : Post P P (p.init s fans sensors) := by
  have hclear : P { p with auxSensor := "" } :=
    h.plain p _ ⟨rfl, rfl, rfl, rfl, rfl, rfl, rfl, rfl, rfl, rfl, rfl⟩ hp
  refine post_bind (h.findAux _ hclear) fun p hp => ?_
  refine post_bind (h.takeFans s fans hp) fun p hp => ?_
  refine post_bind (h.reset s hp) fun p hp => ?_
  refine post_bind (h.populate s hp) fun p hp => ?_
  exact h.initStatus s hp

theorem metadata (s : State) (j : Json) (hp : P p) : P (p.handleMetadata s j) := by
  unfold Screen.handleMetadata
  dsimp only
  cases Screen.metadataTime s j with
  | none => exact h.panel p _ hp
  | some passed => exact h.time _ passed (h.panel p _ hp)

/-- With what the paused state changes. -/
theorem consume (s : State) (j : Json) (hpaused : ∀ q b, P q → P (q.takePaused b)) (hp : P p) :
    Post P P (p.consume s j) := by
  refine post_bind (h.consumeFields s j hp) fun p hp => ?_
  refine post_bind (post_reading _ hp fun b => hpaused p b hp) fun p hp => ?_
  exact h.panel p _ hp

end Stable

/-! ### The commands -/

/-- The same buttons, prompt and commands. -/
structure Same (p q : Screen) : Prop where
  sent : q.sent = p.sent
  prompt : q.prompt = p.prompt
  pauseEnabled : q.pauseEnabled = p.pauseEnabled
  resumeEnabled : q.resumeEnabled = p.resumeEnabled

theorem Same.refl (p : Screen) : Same p p := ⟨rfl, rfl, rfl, rfl⟩

theorem same_stable (p : Screen) : Stable (Same p) where
  plain _ _ h hp := ⟨h.sent.trans hp.sent, h.prompt.trans hp.prompt,
    h.pauseEnabled.trans hp.pauseEnabled, h.resumeEnabled.trans hp.resumeEnabled⟩
  miniShown _ _ hp := ⟨hp.1, hp.2, hp.3, hp.4⟩
  progress _ _ hp := ⟨hp.1, hp.2, hp.3, hp.4⟩
  time q n hp := by
    unfold Screen.updateTimeProgress
    dsimp only
    split_ifs
    all_goals exact ⟨hp.1, hp.2, hp.3, hp.4⟩
  buttons _ _ hp := ⟨hp.1, hp.2, hp.3, hp.4⟩
  panel _ _ hp := ⟨hp.1, hp.2, hp.3, hp.4⟩
  front _ _ hp := ⟨hp.1, hp.2, hp.3, hp.4⟩
  status _ _ hp := ⟨hp.1, hp.2, hp.3, hp.4⟩
  blank _ hp := ⟨hp.1, hp.2, hp.3, hp.4⟩
  renew _ hp := ⟨hp.1, hp.2, hp.3, hp.4⟩

/-- The paused state that a notification gets through with. -/
def Screen.told (s : State) (j : Json) (p : Screen) : Option Bool :=
  match p.consumeFields s j with
  | .error _ => none
  | .ok _ => asBool (j.valueAt Screen.isPausedPtr)

theorem consume_told {s : State} {j : Json} {p : Screen} {b : Bool} (h : p.told s j = some b) :
    ∃ q, Same p q ∧
      final (p.consume s j) = { q.takePaused b with panel := q.panel.updateLayers j } := by
  have hsame := (same_stable p).consumeFields s j (Same.refl p)
  unfold Screen.told at h
  cases hfields : p.consumeFields s j with
  | error q =>
    rw [hfields] at h
    cases h
  | ok q =>
    rw [hfields] at h hsame
    refine ⟨q, hsame, ?_⟩
    have hpaused : j.valueAt Screen.isPausedPtr = .bool b := by
      revert h
      cases j.valueAt Screen.isPausedPtr with
      | bool b' =>
        intro h
        simpa [asBool] using h
      | _ =>
        intro h
        cases h
    unfold Screen.consume
    rw [hfields, hpaused]
    rfl

theorem consume_untold {P : Screen → Prop} (hP : Stable P) {s : State} {j : Json} {p : Screen}
    (h : p.told s j = none) (hp : P p) : P (final (p.consume s j)) := by
  have hkept := hP.consumeFields s j hp
  unfold Screen.told at h
  unfold Screen.consume
  cases hfields : p.consumeFields s j with
  | error q =>
    rw [hfields] at hkept
    exact hkept
  | ok q =>
    rw [hfields] at h hkept
    dsimp only at h
    apply post_final
    show Post P P (reading asBool (j.valueAt Screen.isPausedPtr) Screen.takePaused q >>= _)
    refine post_bind (P := P) ?_ fun p hp => hP.panel p _ hp
    unfold reading
    split
    · exact hkept
    · rw [h]
      exact hkept

namespace Screen

def Event.touch : Event → Bool
  | .press _ | .files _ _ | .confirm | .dismiss => true
  | _ => false

def World.tells (w : World) : Event → Option Bool
  | .message m =>
    match m.via with
    | .notification => w.screen.told (w.state.deliver m) m.body
    | .reply => none
  | _ => none

theorem Event.reports_of_tells {w : World} {e : Event} {b : Bool} (h : w.tells e = some b) :
    e.reports b = true := by
  cases e with
  | message m =>
    cases hvia : m.via with
    | reply => simp [World.tells, hvia] at h
    | notification =>
      simp only [World.tells, hvia, told] at h
      cases hfields : w.screen.consumeFields (w.state.deliver m) m.body with
      | error q => simp [hfields] at h
      | ok q =>
        simp only [hfields] at h
        cases hv : m.body.valueAt isPausedPtr with
        | bool b' =>
          rw [hv] at h
          simp only [asBool, Option.some.injEq] at h
          simp [Event.reports, hvia, hv, h]
        | _ => simp [hv, asBool] at h
  | _ => cases h

theorem step_told {w : World} {e : Event} {b : Bool} (prompts : Bool) (h : w.tells e = some b) :
    ∃ q a, Same w.screen q ∧ (w.step prompts e).screen = { q.takePaused b with panel := a } := by
  cases e with
  | message m =>
    cases hvia : m.via with
    | reply => simp [World.tells, hvia] at h
    | notification =>
      simp only [World.tells, hvia] at h
      obtain ⟨q, hsame, heq⟩ := consume_told h
      refine ⟨q, q.panel.updateLayers m.body, hsame, ?_⟩
      simp only [World.step, hvia]
      exact heq
  | _ => cases h

theorem step_untold {P : Screen → Prop} (hP : Stable P) {w : World} {e : Event} (prompts : Bool)
    (h : w.tells e = none) (ht : e.touch = false) (hp : P w.screen) :
    P (w.step prompts e).screen := by
  cases e with
  | connected => exact hp
  | message m =>
    cases hvia : m.via with
    | reply =>
      simp only [World.step, hvia]
      exact hp
    | notification =>
      simp only [World.tells, hvia] at h
      simp only [World.step, hvia]
      exact consume_untold hP h hp
  | init fans sensors => exact post_final (hP.init _ fans sensors hp)
  | metadata j => exact hP.metadata _ j hp
  | _ => cases ht

def World.count (cmd : String) (w : World) : ℕ := w.screen.sent.count cmd

/-- The resumptions sent, and the one that the button still has. -/
def World.resumptions (w : World) : ℕ :=
  w.count "printer.print.resume" + w.screen.resumeEnabled.toNat

/-- By the button or by the open prompt. -/
def canPause (p : Screen) : Bool :=
  match p.prompt with
  | some .pause => true
  | _ => p.pauseEnabled

/-- The pauses sent, and the one that can still be sent. -/
def World.pauses (w : World) : ℕ := w.count "printer.print.pause" + w.screen.canPause.toNat

theorem canPause_congr {p q : Screen} (hprompt : q.prompt = p.prompt)
    (henabled : q.pauseEnabled = p.pauseEnabled) : q.canPause = p.canPause := by
  unfold canPause
  rw [hprompt, henabled]

theorem canPause_le {p q : Screen} (hprompt : q.prompt = p.prompt)
    (henabled : q.pauseEnabled = false) : q.canPause.toNat ≤ p.canPause.toNat := by
  unfold canPause
  rw [hprompt, henabled]
  split <;> simp

/-- What a touch does to the commands. -/
inductive Touched (prompts : Bool) (p : Screen) : Event → Screen → Prop where
  | same (e : Event) (q : Screen) (h : Same p q) : Touched prompts p e q
  | resumed (hnone : p.prompt = none) (hshown : p.resumeShown = true)
      (h : p.resumeEnabled = true) :
      Touched prompts p (.press .resume)
        { p.send "printer.print.resume" with resumeEnabled := false }
  | prompted (b : Button) (prompt : Prompt) (hprompts : prompts = true)
      (h : prompt = .pause → p.pauseEnabled = true) (hnone : p.prompt = none) :
      Touched prompts p (.press b) { p with prompt := some prompt }
  | direct (b : Button) (prompt : Prompt) (hprompts : prompts = false) (h : prompt ≠ .pause) :
      Touched prompts p (.press b) (p.send prompt.method)
  | confirmed (prompt : Prompt) (h : p.prompt = some prompt) :
      Touched prompts p .confirm
        { p.send prompt.method with
          prompt := none
          pauseEnabled := prompt ≠ .pause && p.pauseEnabled }
  | dismissed : Touched prompts p .dismiss { p with prompt := none }

theorem press_touched (prompts : Bool) (b : Button) (p : Screen) :
    Touched prompts p (.press b) (p.press prompts b) := by
  unfold press
  by_cases hprompt : p.prompt.isSome
  · rw [if_pos hprompt]
    exact .same _ _ (Same.refl p)
  have hnone : p.prompt = none := by simpa using hprompt
  rw [if_neg hprompt]
  cases b with
  | fineTune => exact .same _ _ (Same.refl p)
  | back => exact .same _ _ ⟨rfl, rfl, rfl, rfl⟩
  | mini =>
    dsimp only
    split_ifs
    all_goals exact .same _ _ ⟨rfl, rfl, rfl, rfl⟩
  | resume =>
    dsimp only
    split_ifs with hlive
    · simp only [Bool.and_eq_true] at hlive
      exact .resumed hnone hlive.1 hlive.2
    · exact .same _ _ (Same.refl p)
  | pause =>
    dsimp only
    split_ifs with hlive
    · simp only [Bool.and_eq_true] at hlive
      exact .prompted _ .pause hlive.2 (fun _ => hlive.1.2) hnone
    · exact .same _ _ (Same.refl p)
  | cancel =>
    cases prompts with
    | true => exact .prompted _ .cancel rfl (by simp) hnone
    | false => exact .direct _ .cancel rfl (by simp)
  | emergency =>
    cases prompts with
    | true => exact .prompted _ .emergency rfl (by simp) hnone
    | false => exact .direct _ .emergency rfl (by simp)

theorem confirm_touched (prompts : Bool) (p : Screen) : Touched prompts p .confirm p.confirm := by
  unfold confirm
  cases h : p.prompt with
  | none => exact .same _ _ (Same.refl p)
  | some prompt =>
    have hconfirmed : Touched prompts p .confirm _ := .confirmed prompt h
    cases prompt with
    | pause => exact hconfirmed
    | cancel | emergency =>
      obtain ⟨_⟩ := p
      cases h
      exact hconfirmed

theorem files_touched (s : State) (files : PrintPanel.Panel) (b : FilesButton) (p : Screen) :
    Same p (p.pressFiles s files b) := by
  unfold pressFiles
  split_ifs
  all_goals exact ⟨rfl, rfl, rfl, rfl⟩

theorem step_touched {w : World} {e : Event} (prompts : Bool) (h : w.tells e = none) :
    Touched prompts w.screen e (w.step prompts e).screen := by
  cases e with
  | press b => exact press_touched prompts b w.screen
  | files files b => exact .same _ _ (files_touched w.state files b w.screen)
  | confirm => exact confirm_touched prompts w.screen
  | dismiss => exact .dismissed
  | _ => exact .same _ _ (step_untold (same_stable w.screen) prompts h rfl (Same.refl _))

theorem resumptions_step (prompts : Bool) (w : World) (e : Event) :
    (w.step prompts e).resumptions ≤ w.resumptions + if e.reports true then 1 else 0 := by
  simp only [World.resumptions, World.count]
  cases htells : w.tells e with
  | some b =>
    have hreports := Event.reports_of_tells htells
    obtain ⟨q, a, hsame, heq⟩ := step_told prompts htells
    rw [heq]
    simp only [takePaused, showButtons, hsame.sent]
    cases b with
    | false =>
      simp only [Bool.toNat_false]
      omega
    | true => simp [hreports]
  | none =>
    refine le_trans ?_ (Nat.le_add_right _ _)
    have htouched := step_touched prompts htells
    revert htouched
    generalize (w.step prompts e).screen = q
    intro htouched
    cases htouched with
    | same _ _ h => rw [h.sent, h.resumeEnabled]
    | resumed _ _ h => simp [send, h]
    | prompted _ _ _ _ _ => exact Nat.le_refl _
    | direct _ prompt _ h => cases prompt <;> simp [send, Prompt.method]
    | confirmed prompt _ => cases prompt <;> simp [send, Prompt.method]
    | dismissed => exact Nat.le_refl _

theorem pauses_step (prompts : Bool) (w : World) (e : Event) :
    (w.step prompts e).pauses ≤ w.pauses + if e.reports false then 1 else 0 := by
  simp only [World.pauses, World.count]
  cases htells : w.tells e with
  | some b =>
    have hreports := Event.reports_of_tells htells
    obtain ⟨q, a, hsame, heq⟩ := step_told prompts htells
    have hsent : (w.step prompts e).screen.sent = w.screen.sent := by rw [heq, ← hsame.sent]; rfl
    have hprompt : (w.step prompts e).screen.prompt = w.screen.prompt := by
      rw [heq, ← hsame.prompt]; rfl
    rw [hsent]
    cases b with
    | false =>
      have hcan := Bool.toNat_le (w.step prompts e).screen.canPause
      rw [if_pos hreports]
      omega
    | true =>
      have hcan := canPause_le hprompt (by rw [heq]; rfl)
      omega
  | none =>
    refine le_trans ?_ (Nat.le_add_right _ _)
    have htouched := step_touched prompts htells
    revert htouched
    generalize (w.step prompts e).screen = q
    intro htouched
    cases htouched with
    | same _ _ h => rw [h.sent, canPause_congr h.prompt h.pauseEnabled]
    | resumed _ _ _ => simp [send, canPause]
    | prompted _ prompt _ h hnone => cases prompt <;> simp_all [canPause]
    | direct _ prompt _ h => cases prompt <;> simp_all [send, Prompt.method, canPause]
    | confirmed prompt h => cases prompt <;> simp [send, Prompt.method, h, canPause]
    | dismissed =>
      simp only [canPause]
      split
      · cases w.screen.pauseEnabled <;> simp
      · exact Nat.le_refl _

def Event.isConfirm : Event → Bool
  | .confirm => true
  | _ => false

/-- The commands that ask first. -/
def World.others (w : World) : ℕ := w.screen.sent.countP (· != "printer.print.resume")

theorem others_step (w : World) (e : Event) :
    (w.step true e).others ≤ w.others + if e.isConfirm then 1 else 0 := by
  simp only [World.others]
  cases htells : w.tells e with
  | some b =>
    obtain ⟨q, a, hsame, heq⟩ := step_told true htells
    have hsent : (w.step true e).screen.sent = w.screen.sent := by rw [heq, ← hsame.sent]; rfl
    rw [hsent]
    omega
  | none =>
    have htouched := step_touched true htells
    revert htouched
    generalize (w.step true e).screen = q
    intro htouched
    cases htouched with
    | same _ _ h =>
      rw [h.sent]
      omega
    | resumed _ _ _ => simp [send]
    | direct _ _ hprompts _ => cases hprompts
    | confirmed prompt _ =>
      show (w.screen.sent ++ [prompt.method]).countP _ ≤ _ + 1
      rw [List.countP_append]
      exact Nat.add_le_add_left List.countP_le_length _
    | prompted _ _ _ _ _ | dismissed =>
      dsimp only
      omega

/-- Without the prompts nothing asks for a pause. -/
theorem no_pause_step (w : World) (e : Event)
    (h : w.screen.prompt = none ∧ w.count "printer.print.pause" = 0) :
    (w.step false e).screen.prompt = none ∧ (w.step false e).count "printer.print.pause" = 0 := by
  obtain ⟨hnone, hcount⟩ := h
  simp only [World.count] at hcount ⊢
  cases htells : w.tells e with
  | some b =>
    obtain ⟨q, a, hsame, heq⟩ := step_told false htells
    rw [heq]
    exact ⟨hsame.prompt.trans hnone, by rw [← hcount, ← hsame.sent]; rfl⟩
  | none =>
    have htouched := step_touched false htells
    revert htouched
    generalize (w.step false e).screen = q
    intro htouched
    cases htouched with
    | same _ _ h => exact ⟨h.prompt.trans hnone, by rw [h.sent, hcount]⟩
    | resumed _ _ _ => exact ⟨hnone, by simpa [send] using hcount⟩
    | prompted _ _ hprompts _ _ => cases hprompts
    | direct _ prompt _ h =>
      refine ⟨hnone, ?_⟩
      cases prompt with
      | pause => exact absurd rfl h
      | cancel | emergency => simpa [send, Prompt.method] using hcount
    | confirmed prompt h => simp [hnone] at h
    | dismissed => exact ⟨rfl, hcount⟩

/-- A print is resumed once, and once more for each report that it is paused; it is paused
once, and once more for each report that it is not, if the prompts are on at all. Then
every other command has a confirmation of its own. -/
theorem commands_bounded (prompts : Bool) (es : List Event) :
    (Run.run (World.step prompts) {} es).count "printer.print.resume" ≤
        1 + es.countP (Event.reports true) ∧
      (Run.run (World.step prompts) {} es).count "printer.print.pause" ≤
        (if prompts then 1 + es.countP (Event.reports false) else 0) ∧
      (prompts = true →
        (Run.run (World.step prompts) {} es).others ≤ es.countP Event.isConfirm) := by
  have hresume := Run.potential_le (resumptions_step prompts) {} es
  have hpause := Run.potential_le (pauses_step prompts) {} es
  refine ⟨?_, ?_, ?_⟩
  · have hfirst : World.resumptions {} = 1 := rfl
    simp only [World.resumptions] at hresume hfirst
    omega
  · cases prompts with
    | false =>
      have hnone := Run.invariant_always no_pause_step {} es ⟨rfl, rfl⟩
      exact Nat.le_of_eq hnone.2
    | true =>
      have hfirst : World.pauses {} = 1 := rfl
      simp only [World.pauses] at hpause hfirst
      rw [if_pos rfl]
      omega
  · rintro rfl
    have hothers := Run.potential_le others_step {} es
    have hfirst : World.others {} = 0 := rfl
    omega

/-! ### The two buttons -/

def World.resumes (w : World) (e : Event) : Prop :=
  e = .press .resume ∧ w.screen.prompt = none ∧ w.screen.resumeShown = true ∧
    w.screen.resumeEnabled = true

def World.confirmsPause (w : World) (e : Event) : Prop :=
  e = .confirm ∧ w.screen.prompt = some .pause

theorem resume_latch (prompts : Bool) :
    Latch (World.step prompts) (fun w => w.screen.resumeEnabled) (fun w e => w.tells e = some true)
      (fun w e => w.tells e = some false ∨ w.resumes e) where
  set w e h := by
    obtain ⟨q, a, -, heq⟩ := step_told prompts h
    rw [heq]
    rfl
  clear w e h := by
    rcases h with h | ⟨rfl, hnone, hshown, henabled⟩
    · obtain ⟨q, a, -, heq⟩ := step_told prompts h
      rw [heq]
      rfl
    · simp [World.step, press, hnone, hshown, henabled]
  keep w e hset hclear := by
    cases htells : w.tells e with
    | some b => cases b <;> simp_all
    | none =>
      have htouched := step_touched prompts htells
      revert htouched
      generalize (w.step prompts e).screen = q
      intro htouched
      cases htouched with
      | same _ _ h => exact h.resumeEnabled
      | resumed hnone hshown h => exact absurd (.inr ⟨rfl, hnone, hshown, h⟩) hclear
      | _ => rfl

theorem pause_latch (prompts : Bool) :
    Latch (World.step prompts) (fun w => w.screen.pauseEnabled) (fun w e => w.tells e = some false)
      (fun w e => w.tells e = some true ∨ w.confirmsPause e) where
  set w e h := by
    obtain ⟨q, a, -, heq⟩ := step_told prompts h
    rw [heq]
    rfl
  clear w e h := by
    rcases h with h | ⟨rfl, hprompt⟩
    · obtain ⟨q, a, -, heq⟩ := step_told prompts h
      rw [heq]
      rfl
    · simp [World.step, confirm, hprompt, send]
  keep w e hset hclear := by
    cases htells : w.tells e with
    | some b => cases b <;> simp_all
    | none =>
      have htouched := step_touched prompts htells
      revert htouched
      generalize (w.step prompts e).screen = q
      intro htouched
      cases htouched with
      | same _ _ h => exact h.pauseEnabled
      | confirmed prompt h =>
        have hprompt : prompt ≠ .pause := by
          rintro rfl
          exact hclear (.inr ⟨rfl, h⟩)
        simp [hprompt]
      | _ => rfl

/-- A button answers a touch until its command is sent or the printer reports the state it
does not fit, and from then on only after a report of the state that it does. -/
theorem enabled_iff (prompts : Bool) (es : List Event) :
    ((Run.run (World.step prompts) {} es).screen.resumeEnabled = true ↔
      (∃ before e after, es = before ++ e :: after ∧
        (Run.run (World.step prompts) {} before).tells e = some true ∧
        Latch.Held (World.step prompts) (fun w e => w.tells e = some false ∨ w.resumes e)
          ((Run.run (World.step prompts) {} before).step prompts e) after) ∨
      Latch.Held (World.step prompts) (fun w e => w.tells e = some false ∨ w.resumes e) {} es) ∧
    ((Run.run (World.step prompts) {} es).screen.pauseEnabled = true ↔
      (∃ before e after, es = before ++ e :: after ∧
        (Run.run (World.step prompts) {} before).tells e = some false ∧
        Latch.Held (World.step prompts) (fun w e => w.tells e = some true ∨ w.confirmsPause e)
          ((Run.run (World.step prompts) {} before).step prompts e) after) ∨
      Latch.Held (World.step prompts) (fun w e => w.tells e = some true ∨ w.confirmsPause e) {}
        es) := by
  have hresume := (resume_latch prompts).run_iff {} es
  have hpause := (pause_latch prompts).run_iff {} es
  simp only [true_and] at hresume hpause
  exact ⟨hresume, hpause⟩

/-! ### The move to the front -/

def filenameIn (j : Json) : Json := j.valueAt ["params", "0", "print_stats", "filename"]

/-- A file that the panel does not have. -/
def startsPrint (j : Json) (p : Screen) : Bool :=
  let fname := (filenameIn j).str?.getD ""
  decide (fname ≠ "" ∧ fname ≠ p.panel.currentFilename)

def endsPrint (j : Json) : Bool :=
  match j.valueAt ["params", "0", "print_stats", "state"] with
  | .str status => isOver status
  | _ => false

/-- Nothing was thrown over the file's name. -/
def takesFilename (s : State) (j : Json) (p : Screen) : Bool :=
  (p.takeFilename s (filenameIn j)).isOk

theorem front_kept (b : Bool) : Kept (fun q => q.front = b) where
  plain _ _ h hp := h.front.trans hp
  miniShown _ _ hp := hp
  progress _ _ hp := hp
  time q n hp := by
    unfold updateTimeProgress
    dsimp only
    split_ifs
    all_goals exact hp
  buttons _ _ hp := hp

theorem reset_front (s : State) (p : Screen) :
    Post (fun q => q.front = p.front) (fun q => q.front = p.front) (p.reset s) := by
  unfold reset
  split_ifs
  all_goals rfl

theorem filename_front (s : State) (j : Json) (p : Screen) :
    Post (fun q => q.front = (p.front || p.startsPrint j)) (fun q => q.front = p.front)
      (p.takeFilename s (filenameIn j)) := by
  have hnull : p.takeFilename s .null = .ok p := rfl
  unfold startsPrint
  by_cases hname : filenameIn j = .null
  · rw [hname, hnull]
    simp [Json.str?, Post]
  unfold takeFilename
  split
  · contradiction
  · dsimp only
    split_ifs with hnew hempty
    · rw [decide_eq_true hnew]
      refine post_bind (reset_front s _) fun q hq => ?_
      refine post_bind ((front_kept p.front).populate s hq) fun q hq => ?_
      exact (Bool.or_true _).symm
    · rw [decide_eq_false hnew]
      exact (Bool.or_false _).symm
    · rw [decide_eq_false hnew]
      exact (Bool.or_false _).symm

theorem state_front (status : String) (p : Screen) :
    (p.takeState status).front = (p.front && !isOver status) := by
  unfold takeState
  cases isOver status with
  | true =>
    rw [Bool.not_true, Bool.and_false]
    rfl
  | false =>
    rw [Bool.not_false, Bool.and_true]
    rfl

theorem reading_front (j : Json) (p : Screen) :
    Post (fun q => q.front = (p.front && !endsPrint j))
      (fun q => q.front = (p.front && !endsPrint j))
      (reading Json.str? (j.valueAt ["params", "0", "print_stats", "state"]) takeState p) := by
  unfold endsPrint
  cases j.valueAt ["params", "0", "print_stats", "state"] with
  | str status => exact state_front status p
  | _ => exact (Bool.and_true _).symm

theorem fields_front {s : State} {j : Json} {p q : Screen}
    (hq : p.takeFilename s (filenameIn j) = .ok q) :
    Post (fun r => r.front = (q.front && !endsPrint j))
      (fun r => r.front = (q.front && !endsPrint j))
      (p.consumeFields s j) := by
  have hfields : p.consumeFields s j =
      reading Json.str? (j.valueAt ["params", "0", "print_stats", "state"]) takeState q >>=
        takeFields s j := by
    unfold consumeFields
    change (p.takeFilename s (filenameIn j) >>= _) = _
    rw [hq]
    rfl
  rw [hfields]
  exact post_bind (reading_front j q) fun r hr => (front_kept _).fields s j hr

theorem consume_front (s : State) (j : Json) (p : Screen) :
    (final (p.consume s j)).front =
      if p.takesFilename s j then (p.front || p.startsPrint j) && !endsPrint j else p.front := by
  have hname := filename_front s j p
  unfold takesFilename consume
  cases hq : p.takeFilename s (filenameIn j) with
  | error q =>
    rw [hq] at hname
    have hfields : p.consumeFields s j = .error q := by
      unfold consumeFields
      change (p.takeFilename s (filenameIn j) >>= _) = _
      rw [hq]
      rfl
    rw [hfields]
    exact hname
  | ok q =>
    rw [hq] at hname
    have hname : q.front = (p.front || p.startsPrint j) := hname
    rw [← hname]
    refine post_final (P := fun r : Screen => r.front = (q.front && !endsPrint j)) ?_
    refine post_bind (fields_front hq) fun r hr => ?_
    exact post_bind (post_reading _ hr fun b => hr) fun r hr => hr

theorem init_front (s : State) (fans sensors : Json) (p : Screen) :
    (final (p.init s fans sensors)).front = p.front := by
  have hkept := front_kept p.front
  refine post_final (P := fun q : Screen => q.front = p.front) ?_
  refine post_bind (hkept.findAux _ rfl) fun q hq => ?_
  refine post_bind (hkept.takeFans s fans hq) fun q hq => ?_
  have hreset := reset_front s q
  rw [hq] at hreset
  refine post_bind hreset fun q hq => ?_
  refine post_bind (hkept.populate s hq) fun q hq => ?_
  unfold initStatus
  split
  · exact hq
  · show ((if isActive _ then q else q.setMiniShown false)).front = p.front
    split_ifs
    all_goals exact hq
  · exact hq

theorem metadata_front (s : State) (j : Json) (p : Screen) :
    (p.handleMetadata s j).front = p.front := by
  unfold handleMetadata
  dsimp only
  cases metadataTime s j with
  | none => rfl
  | some passed => exact (front_kept p.front).time _ passed rfl

/-- A new file, unless the notification says as well that its print is over, or a touch of
the status on the main panel, or of Print or Status on the print panel. -/
def World.raises (w : World) : Event → Prop
  | .message m =>
    m.via = .notification ∧ w.screen.takesFilename (w.state.deliver m) m.body = true ∧
      w.screen.startsPrint m.body = true ∧ endsPrint m.body = false
  | .press b => b = .mini ∧ w.screen.prompt = none ∧ w.screen.mini.shown = true
  | .files files b => w.screen.prompt = none ∧ filesRaise w.state files b = true
  | _ => False

def World.lowers (w : World) : Event → Prop
  | .message m =>
    m.via = .notification ∧ w.screen.takesFilename (w.state.deliver m) m.body = true ∧
      endsPrint m.body = true
  | .press b => b = .back ∧ w.screen.prompt = none
  | .files _ b => b = .back ∧ w.screen.prompt = none
  | _ => False

theorem message_front (prompts : Bool) (w : World) (m : Message) :
    (w.step prompts (.message m)).screen.front =
      if m.via = .notification ∧ w.screen.takesFilename (w.state.deliver m) m.body then
        (w.screen.front || w.screen.startsPrint m.body) && !endsPrint m.body
      else w.screen.front := by
  cases hvia : m.via with
  | reply => simp [World.step, hvia]
  | notification =>
    simp only [World.step, hvia, true_and]
    exact consume_front _ m.body w.screen

theorem press_front (prompts : Bool) (b : Button) (p : Screen) :
    (p.press prompts b).front =
      if p.prompt.isSome then p.front
      else match b with
        | .back => false
        | .mini => p.front || p.mini.shown
        | _ => p.front := by
  unfold press
  by_cases hprompt : p.prompt.isSome
  · rw [if_pos hprompt, if_pos hprompt]
  rw [if_neg hprompt, if_neg hprompt]
  cases b with
  | back => rfl
  | mini => cases p.mini.shown <;> simp [setFront]
  | fineTune => rfl
  | resume | pause =>
    dsimp only
    split_ifs
    all_goals rfl
  | cancel | emergency => cases prompts <;> rfl

theorem files_front (s : State) (files : PrintPanel.Panel) (b : FilesButton) (p : Screen) :
    (p.pressFiles s files b).front =
      if p.prompt.isSome then p.front
      else if b = .back then false
      else p.front || filesRaise s files b := by
  unfold pressFiles
  split_ifs with hprompt hback hraise
  · rfl
  · rfl
  · rw [hraise, Bool.or_true]
    rfl
  · rw [Bool.not_eq_true] at hraise
    rw [hraise, Bool.or_false]

theorem confirm_front (p : Screen) : p.confirm.front = p.front := by
  unfold confirm
  split
  · rfl
  · dsimp only
    split_ifs
    all_goals rfl

theorem front_latch (prompts : Bool) :
    Latch (World.step prompts) (fun w => w.screen.front) World.raises World.lowers where
  set w e h := by
    cases e with
    | message m =>
      obtain ⟨hvia, htakes, hstarts, hends⟩ := h
      simp [message_front, hvia, htakes, hstarts, hends]
    | press b =>
      obtain ⟨rfl, hnone, hshown⟩ := h
      simp [World.step, press_front, hnone, hshown]
    | files files b =>
      obtain ⟨hnone, hraise⟩ := h
      have hback : b ≠ .back := by
        rintro rfl
        cases hraise
      simp [World.step, files_front, hnone, hback, hraise]
    | _ => cases h
  clear w e h := by
    cases e with
    | message m =>
      obtain ⟨hvia, htakes, hends⟩ := h
      simp [message_front, hvia, htakes, hends]
    | press b =>
      obtain ⟨rfl, hnone⟩ := h
      simp [World.step, press_front, hnone]
    | files files b =>
      obtain ⟨rfl, hnone⟩ := h
      simp [World.step, files_front, hnone]
    | _ => cases h
  keep w e hraises hlowers := by
    cases e with
    | message m =>
      simp only [World.raises, World.lowers] at hraises hlowers
      simp only [message_front]
      split_ifs with htakes
      · simp_all
      · rfl
    | press b =>
      simp only [World.raises, World.lowers] at hraises hlowers
      simp only [World.step, press_front]
      cases hprompt : w.screen.prompt with
      | none => cases b <;> simp_all
      | some prompt => rfl
    | files files b =>
      simp only [World.raises, World.lowers] at hraises hlowers
      simp only [World.step, files_front]
      cases hprompt : w.screen.prompt with
      | none => simp_all
      | some prompt => rfl
    | init fans sensors => exact init_front _ fans sensors _
    | metadata j => exact metadata_front _ j _
    | confirm => exact confirm_front _
    | connected | dismiss => rfl

/-- The panel's last move was to the front exactly if a print started, or the status on the main
panel, or Print or Status on the print panel was touched, and since then neither a print ended
nor the Back of either panel was touched. -/
theorem front_iff (prompts : Bool) (es : List Event) :
    (Run.run (World.step prompts) {} es).screen.front = true ↔
      ∃ before e after, es = before ++ e :: after ∧
        (Run.run (World.step prompts) {} before).raises e ∧
        Latch.Held (World.step prompts) World.lowers
          ((Run.run (World.step prompts) {} before).step prompts e) after := by
  rw [(front_latch prompts).run_iff]
  simp

/-! ### Two views of one print -/

/-- The status on the main panel says what this panel says, unless one of them is blank. -/
structure Agrees (p : Screen) : Prop where
  bounds : 0 ≤ p.progress ∧ p.progress ≤ 100 ∧ 0 ≤ p.mini.progress ∧ p.mini.progress ≤ 100
  progress : p.progress = 0 ∨ p.mini.progress = p.progress
  time : p.timeLeft = "..." ∨ p.mini.eta = p.timeLeft
  label : p.mini.label = p.mini.text ∨ (p.mini.eta = "..." ∧ p.mini.status = "n/a")
  shown : p.pauseShown = true ∨ p.resumeShown = true

theorem agrees_stable : Stable Agrees where
  plain p q h hp := by
    refine ⟨?_, ?_, ?_, ?_, ?_⟩
    · rw [h.progress, h.mini]
      exact hp.bounds
    · rw [h.progress, h.mini]
      exact hp.progress
    · rw [h.timeLeft, h.mini]
      exact hp.time
    · rw [h.mini]
      exact hp.label
    · rw [h.pauseShown, h.resumeShown]
      exact hp.shown
  miniShown _ _ hp := ⟨hp.1, hp.2, hp.3, hp.4, hp.5⟩
  progress p n hp := by
    refine ⟨?_, .inr rfl, hp.time, hp.label, hp.shown⟩
    unfold updateProgress
    dsimp only
    split_ifs
    all_goals omega
  time p n hp := by
    unfold updateTimeProgress
    dsimp only
    split_ifs
    · exact ⟨hp.bounds, hp.progress, .inl rfl, hp.label, hp.shown⟩
    · exact ⟨hp.bounds, hp.progress, .inr rfl, .inl rfl, hp.shown⟩
  buttons p b hp := by
    refine ⟨hp.bounds, hp.progress, hp.time, hp.label, ?_⟩
    cases b with
    | false => exact .inl rfl
    | true => exact .inr rfl
  panel _ _ hp := ⟨hp.1, hp.2, hp.3, hp.4, hp.5⟩
  front _ _ hp := ⟨hp.1, hp.2, hp.3, hp.4, hp.5⟩
  status _ _ hp := ⟨hp.bounds, hp.progress, hp.time, .inl rfl, hp.shown⟩
  blank p hp := by
    have hzero : (0 : ℤ) ≤ 0 ∧ (0 : ℤ) ≤ 100 := by decide
    exact ⟨⟨hzero.1, hzero.2, hp.bounds.2.2⟩, .inl rfl, .inl rfl, hp.label, hp.shown⟩
  renew _ hp := by
    have hzero : (0 : ℤ) ≤ 0 ∧ (0 : ℤ) ≤ 100 := by decide
    exact ⟨⟨hzero.1, hzero.2, hzero⟩, .inl rfl, .inl rfl, .inr ⟨rfl, rfl⟩, hp.shown⟩

theorem press_agrees {p : Screen} (prompts : Bool) (b : Button) (h : Agrees p) :
    Agrees (p.press prompts b) := by
  unfold press
  cases p.prompt.isSome with
  | true => exact h
  | false =>
    cases b with
    | back => exact ⟨h.1, h.2, h.3, h.4, h.5⟩
    | fineTune => exact h
    | mini | resume | pause | cancel | emergency =>
      simp only [Bool.false_eq_true, if_false]
      split_ifs
      all_goals exact ⟨h.1, h.2, h.3, h.4, h.5⟩

theorem files_agrees {p : Screen} (s : State) (files : PrintPanel.Panel) (b : FilesButton)
    (h : Agrees p) : Agrees (p.pressFiles s files b) := by
  unfold pressFiles
  split_ifs
  · exact h
  · exact agrees_stable.front p false h
  · exact agrees_stable.front p true h
  · exact h

theorem confirm_agrees {p : Screen} (h : Agrees p) : Agrees p.confirm := by
  unfold confirm
  split
  · exact h
  · dsimp only
    split_ifs
    all_goals exact ⟨h.1, h.2, h.3, h.4, h.5⟩

theorem agrees_step (prompts : Bool) (w : World) (e : Event) (h : Agrees w.screen) :
    Agrees (w.step prompts e).screen := by
  cases e with
  | connected => exact h
  | message m =>
    cases hvia : m.via with
    | reply =>
      simp only [World.step, hvia]
      exact h
    | notification =>
      simp only [World.step, hvia]
      refine post_final (agrees_stable.consume _ m.body (fun q b hq => ?_) h)
      have hq' := agrees_stable.buttons q b hq
      exact ⟨hq'.1, hq'.2, hq'.3, hq'.4, hq'.5⟩
  | init fans sensors => exact post_final (agrees_stable.init _ fans sensors h)
  | metadata j => exact agrees_stable.metadata _ j h
  | press b => exact press_agrees prompts b h
  | files files b => exact files_agrees w.state files b h
  | confirm => exact confirm_agrees h
  | dismiss => exact ⟨h.1, h.2, h.3, h.4, h.5⟩

theorem views_agree (prompts : Bool) (es : List Event) :
    Agrees (Run.run (World.step prompts) {} es).screen := by
  refine Run.invariant_always (I := fun w : World => Agrees w.screen) (agrees_step prompts) {} es ?_
  exact ⟨by decide, .inl rfl, .inl rfl, .inl rfl, .inl rfl⟩

/-! ### The data behind the panel -/

theorem panel_kept (a : Panel) : Kept (fun q => q.panel = a) where
  plain _ _ h hp := h.panel.trans hp
  miniShown _ _ hp := hp
  progress _ _ hp := hp
  time q n hp := by
    unfold updateTimeProgress
    dsimp only
    split_ifs
    all_goals exact hp
  buttons _ _ hp := hp

theorem reset_panel (s : State) (p : Screen) :
    Post (fun q => Panel.resets s = true ∧ q.panel = p.panel.reset) (fun _ => True)
      (p.reset s) := by
  unfold reset
  split_ifs with hresets
  · exact ⟨hresets, rfl⟩
  · trivial

theorem post_true {P : Screen → Prop} {o : Except Screen Screen} (h : Post P P o) :
    Post P (fun _ => True) o := post_mono h (fun _ hp => hp) (fun _ _ => trivial)

theorem filename_panel (s : State) (j : Json) (p : Screen) :
    Post (fun q => q.panel.updateLayers j = (p.panel.consume s j).1) (fun _ => True)
      (p.takeFilename s (filenameIn j)) := by
  unfold takeFilename Panel.consume
  rw [show j.valueAt ["params", "0", "print_stats", "filename"] = filenameIn j from rfl]
  cases filenameIn j with
  | null => rfl
  | _ =>
    dsimp only
    split_ifs with hnew hresets hempty
    · refine post_bind (reset_panel s _) fun q hq => ?_
      refine post_bind (post_true ((panel_kept q.panel).populate s rfl)) fun r hr => ?_
      show r.panel.updateLayers j = _
      rw [hr, hq.2]
      rfl
    · exact post_bind (reset_panel s _) fun q hq => absurd hq.1 hresets
    all_goals exact rfl

/-- A notification that nothing is thrown over leaves the data that the layers and the
metadata are about. -/
theorem consume_panel (s : State) (j : Json) (p : Screen) :
    Post (fun q => q.panel = (p.panel.consume s j).1) (fun _ => True) (p.consume s j) := by
  refine post_bind (P := fun q : Screen => q.panel.updateLayers j = (p.panel.consume s j).1) ?_
    fun q hq => ?_
  · refine post_bind (filename_panel s j p) fun q hq => ?_
    have hkept := panel_kept q.panel
    have hstate (status : String) : (q.takeState status).panel = q.panel := by
      unfold takeState
      show ((if isOver status then _ else _ : Screen).setStatus status).panel = _
      split_ifs
      all_goals rfl
    have hread : Post (fun r => r.panel = q.panel) (fun r => r.panel = q.panel)
        (reading Json.str? (j.valueAt ["params", "0", "print_stats", "state"]) takeState q) :=
      post_reading _ rfl hstate
    refine post_mono (post_bind hread fun r hr => hkept.fields s j hr) ?_ fun _ _ => trivial
    intro r hr
    rw [hr, hq]
  · have hkept : Post (fun r => r.panel = q.panel) (fun r => r.panel = q.panel)
        (reading asBool (j.valueAt isPausedPtr) takePaused q) := post_reading _ rfl fun _ => rfl
    refine post_bind (post_true hkept) fun r hr => ?_
    show r.panel.updateLayers j = _
    rw [hr, hq]

end Screen

end GuppyScreen.PrintStatus
