import GuppyScreen.Lib.History
import GuppyScreen.Lib.Run
import GuppyScreen.Utils

/-!
# Belt calibration (belts_calibration_panel.cpp)

A run shakes belt B, then belt A, then has the two captures compared; what
advances it are Klipper's own reports. `log` is the panel's history: every lock
it takes, everything it sends, every response it reads and every result it
shows. It starts to grow at construction and nothing reads it.
-/

namespace GuppyScreen.Belts
open Lib Text KUtils History

inductive RunState where
  | idle
  | testingB
  | testingA
  | analysing
  deriving DecidableEq

inductive Entry where
  | lock
  | unlock
  | script (text : String)
  | rpc (method : String)
  | accepted
  | reported (resp : String)
  | finished (run : RunState) (png : String)
  deriving DecidableEq

structure Panel where
  run : RunState
  runSince : UInt32
  watchdog : Bool
  analysisProducedResult : Bool
  status : String
  spinner : Bool
  graph : Option String
  graphHidden : Bool
  imageFullsized : Bool
  calibrateBtn : Bool
  exciteBtn : Bool
  log : List Entry

def Panel.init : Panel :=
  ⟨.idle, 0, false, false, "", false, none, false, false, true, true, []⟩

def csvB : String := "/tmp/raw_data_axis=1.000,1.000_B.csv"
def csvA : String := "/tmp/raw_data_axis=1.000,-1.000_A.csv"

def written (csv : String) : String := "// Resonances data written to " ++ csv ++ " file"

def timedOutLine : String := "// Command \x7bguppy_belts_calibration\x7d timed out"
def finishedLine : String := "// Command \x7bguppy_belts_calibration\x7d finished"
def similarityText : String := "Belts estimated similarity"

def testScript (homed : Bool) (axis name : String) : String :=
  (if homed then "" else "G28\n") ++ "TEST_RESONANCES AXIS=" ++ axis ++ " OUTPUT=raw_data NAME=" ++
    name ++ "\nM400"

def pngPath (configRoot : String) : String :=
  (if configRoot.length > 0 then configRoot else "/tmp") ++ "/belts_calibration.png"

def analysisScript (size : ℕ × ℕ) (png : String) : String :=
  "RUN_SHELL_COMMAND CMD=guppy_belts_calibration PARAMS=" ++
    debug ("-w " ++ scaled 2 size.1 ++ " -l " ++ scaled 2 size.2 ++ " -n -o " ++ png ++
      " -k /usr/share/klipper " ++ csvA ++ " " ++ csvB)

namespace Panel

def emit (p : Panel) (e : Entry) : Panel := { p with log := p.log ++ [e] }

def setStatus (p : Panel) (text : String) : Panel := { p with status := text }

/-- A `std::lock_guard` around `f`; the guard also unlocks when `f` throws. -/
def locked (p : Panel) (f : Panel → Panel) : Panel := (f (p.emit .lock)).emit .unlock

def updateAvailable (w : World) (p : Panel) : Panel :=
  let canTest := hasConfigSection w.state "resonance_tester"
  let canAnalyse := hasConfigSection w.state "gcode_shell_command guppy_belts_calibration"
  let missing := (if canTest then [] else ["[resonance_tester]"]) ++
    (if canAnalyse then [] else ["[gcode_shell_command guppy_belts_calibration]"])
  if missing.isEmpty then
    let p := { p with calibrateBtn := true, exciteBtn := true }
    if p.run = .idle then p.setStatus "" else p
  else
    let p := { p with calibrateBtn := false, exciteBtn := p.exciteBtn && canTest }
    p.setStatus ("This printer has no " ++ " or ".intercalate missing ++
      ", so belt calibration is not available.")

def startTest (w : World) (p : Panel) (state : RunState) (axis name status : String) :
    Option Panel :=
  (isHomed w.state).map fun homed =>
    { (p.emit (.script (testScript homed axis name))) with
      run := state
      runSince := w.tick
      analysisProducedResult := false
      watchdog := true
      status := status }

def requestAnalysis (w : World) (p : Panel) : Option Panel :=
  (getRootPath w.state "config").map fun configRoot =>
    { p with
      run := .analysing
      runSince := w.tick
      analysisProducedResult := false
      status := "Comparing the two belts. This takes a few minutes."
    : Panel }.emit (.script (analysisScript (plotSize w) (pngPath configRoot)))

def finishRun (p : Panel) (png : String) : Panel :=
  { (p.emit (.finished p.run png)) with
    run := .idle, watchdog := false, graph := some png, graphHidden := false, spinner := false,
    status := "" }

def abandonRun (p : Panel) (why : String) : Panel :=
  { p with run := .idle, watchdog := false, spinner := false, status := why }

def limit : UInt32 := 15 * 60 * 1000

/-- The watchdog's callback; LVGL does not call it while the timer is paused. -/
def checkTimeouts (w : World) (p : Panel) : Panel :=
  if p.run ≠ .idle ∧ tickElaps w p.runSince > limit then
    p.locked (·.abandonRun "The printer stopped reporting on the belt test. Check the Klipper log.")
  else p

def handleKlippyGone (p : Panel) : Panel :=
  p.locked fun p =>
    if p.run ≠ .idle then p.abandonRun "Klipper disconnected while the belt test was running."
    else p

/-- Shake Belts. -/
def handleCalibrate (w : World) (p : Panel) : Panel :=
  if p.run ≠ .idle then p
  else
    let p := { p with graphHidden := true, graph := none, spinner := true }.emit .accepted
    (p.startTest w .testingB "1,1" "B" "Shaking belt B. This takes a few minutes.").getD p

/-- Excitate, with the frequency and axis as `fmt` renders them. -/
def handleExcite (w : World) (p : Panel) (hz axis : String) : Panel :=
  match isHomed w.state with
  | none => p
  | some homed =>
    let p := if homed then p else p.emit (.script "G28")
    p.emit (.script ("GUPPY_EXCITATE_AXIS_AT_FREQ FREQUENCY=" ++ hz ++ " AXIS=" ++ axis))

/-- The plot's file: local, or fetched from the host. -/
def resultPath (w : World) : Option String :=
  match getRootPath w.state "config" with
  | none => none
  | some configRoot =>
    match w.isRunningLocal with
    | none => none
    | some true => some ("A:" ++ pngPath configRoot)
    | some false => (w.downloadFile "belts_calibration.png").map ("A:" ++ ·)

/-- The part of `handle_macro_response` under the lock. -/
def handleResponse (w : World) (resp : String) (p : Panel) : Panel :=
  if p.run = .idle then p
  else if startsWith "!! " resp then p.abandonRun (substr resp 3)
  else if p.run = .testingB ∧ resp = written csvB then
    (p.startTest w .testingA "1,-1" "A" "Shaking belt A. This takes a few minutes.").getD p
  else if p.run = .testingA ∧ resp = written csvA then (p.requestAnalysis w).getD p
  else if startsWith timedOutLine resp then
    p.abandonRun ("Comparing the belts timed out. The K1 is short on memory, so " ++
      "this can be the plot rather than the maths.")
  else if hasSubstr similarityText resp then { p with analysisProducedResult := true }
  else if startsWith finishedLine resp then
    if !p.analysisProducedResult then
      p.abandonRun "Comparing the belts produced no result. Check the Klipper log."
    else
      match resultPath w with
      | none => p
      | some png => p.finishRun png
  else p

def handleMacroResponse (w : World) (p : Panel) (j : Json) : Panel :=
  match j.valueAt ["params", "0"] with
  | .str resp => p.locked fun p => (p.emit (.reported resp)).handleResponse w resp
  | _ => p

def handleImageClicked (p : Panel) : Panel := { p with imageFullsized := !p.imageFullsized }

end Panel

inductive Event where
  | foreground (w : World)
  | calibrate (w : World)
  | excite (w : World) (hz axis : String)
  | emergencyStop
  | imageClicked
  | gcodeResponse (w : World) (j : Json)
  | klippyGone
  | watchdog (w : World)

/-- A disabled button and a paused timer call nothing. -/
def step (p : Panel) : Event → Panel
  | .foreground w => p.updateAvailable w
  | .calibrate w => if p.calibrateBtn then p.handleCalibrate w else p
  | .excite w hz axis => if p.exciteBtn then p.handleExcite w hz axis else p
  | .emergencyStop => p.emit (.rpc "printer.emergency_stop")
  | .imageClicked => p.handleImageClicked
  | .gcodeResponse w j => p.handleMacroResponse w j
  | .klippyGone => p.handleKlippyGone
  | .watchdog w => if p.watchdog then p.checkTimeouts w else p

/-! ### A result belongs to its own run -/

-- What a run has sent and read back by the time it reaches each state.
def upToB (homed : Bool) : List Entry := [.script (testScript homed "1,1" "B")]

def upToA (homedB homedA : Bool) : List Entry :=
  upToB homedB ++ [.reported (written csvB)] ++ [.script (testScript homedA "1,-1" "A")]

def upToAnalysis (homedB homedA : Bool) (size : ℕ × ℕ) (configRoot : String) : List Entry :=
  upToA homedB homedA ++ [.reported (written csvA)] ++
    [.script (analysisScript size (pngPath configRoot))]

/-- Since the last accepted press the log holds `want`, in that order. -/
def Progress (log want : List Entry) : Prop :=
  ∃ since, SinceLast (· = .accepted) log .accepted since ∧ want.Sublist since

def Reached (log : List Entry) : RunState → Prop
  | .idle => True
  | .testingB => ∃ hb, Progress log (upToB hb)
  | .testingA => ∃ hb ha, Progress log (upToA hb ha)
  | .analysing => ∃ hb ha size root, Progress log (upToAnalysis hb ha size root)

/-- A result is shown from `analysing` only, at the end of a whole run. -/
def Justified (log : List Entry) : Entry → Prop
  | .finished run _ => run = .analysing ∧ Reached log .analysing
  | _ => True

def quiet : Entry → Bool
  | .accepted => false
  | .finished _ _ => false
  | _ => true

theorem quiet_ne {e : Entry} (h : quiet e = true) : e ≠ .accepted := by
  intro he
  rw [he] at h
  cases h

theorem since_quiet {log since : List Entry} {e : Entry}
    (h : SinceLast (· = .accepted) log .accepted since) (he : quiet e = true) :
    SinceLast (· = .accepted) (log ++ [e]) .accepted (since ++ [e]) := by
  apply h.append
  intro x hx
  rw [List.mem_singleton.mp hx]
  exact quiet_ne he

theorem Progress.append {log want : List Entry} {e : Entry} (h : Progress log want)
    (he : quiet e = true) : Progress (log ++ [e]) want := by
  obtain ⟨since, hs, hw⟩ := h
  exact ⟨since ++ [e], since_quiet hs he, hw.trans (List.sublist_append_left _ _)⟩

theorem Progress.snoc {log want : List Entry} {e : Entry} (h : Progress log want)
    (he : quiet e = true) : Progress (log ++ [e]) (want ++ [e]) := by
  obtain ⟨since, hs, hw⟩ := h
  exact ⟨since ++ [e], since_quiet hs he, hw.append (List.Sublist.refl _)⟩

structure Inv (run : RunState) (log : List Entry) : Prop where
  reached : Reached log run
  justified : Each Justified log

theorem Inv.idle {run : RunState} {log : List Entry} (h : Inv run log) : Inv .idle log :=
  ⟨trivial, h.justified⟩

theorem justified_quiet {e : Entry} (he : quiet e = true) (log : List Entry) :
    Justified log e := by
  cases e with
  | finished _ _ => cases he
  | _ => trivial

theorem Inv.emit {run : RunState} {log : List Entry} {e : Entry} (h : Inv run log)
    (he : quiet e = true) : Inv run (log ++ [e]) := by
  refine ⟨?_, each_snoc h.justified (justified_quiet he log)⟩
  cases run with
  | idle => trivial
  | testingB =>
    obtain ⟨hb, hp⟩ := h.reached
    exact ⟨hb, hp.append he⟩
  | testingA =>
    obtain ⟨hb, ha, hp⟩ := h.reached
    exact ⟨hb, ha, hp.append he⟩
  | analysing =>
    obtain ⟨hb, ha, size, root, hp⟩ := h.reached
    exact ⟨hb, ha, size, root, hp.append he⟩

theorem inv_handleCalibrate (w : World) (p : Panel) (h : Inv p.run p.log) :
    Inv (p.handleCalibrate w).run (p.handleCalibrate w).log := by
  unfold Panel.handleCalibrate
  split_ifs with hrun
  · exact h
  have hacc : Each Justified (p.log ++ [.accepted]) := each_snoc h.justified trivial
  have hidle : p.run = .idle := by simpa using hrun
  cases hh : isHomed w.state with
  | none =>
    simp only [Panel.startTest, hh, Option.map_none, Option.getD_none, Panel.emit]
    rw [hidle]
    exact ⟨trivial, hacc⟩
  | some homed =>
    simp only [Panel.startTest, hh, Option.map_some, Option.getD_some, Panel.emit]
    refine ⟨⟨homed, ?_⟩, each_snoc hacc trivial⟩
    have hbegin : Progress (p.log ++ [.accepted]) [] :=
      ⟨[], SinceLast.here p.log rfl, List.nil_sublist _⟩
    exact hbegin.snoc rfl

def isFinished (resp : String) : Bool :=
  startsWith finishedLine resp && !hasSubstr similarityText resp

theorem inv_handleResponse (w : World) (resp : String) (p : Panel) (old : List Entry)
    (hlog : p.log = old ++ [.reported resp]) (h : Inv p.run old)
    (hfresh : isFinished resp = true → p.run = .testingB ∨ p.run = .testingA →
      p.analysisProducedResult = false) :
    Inv (p.handleResponse w resp).run (p.handleResponse w resp).log := by
  have hp : Inv p.run p.log := by
    rw [hlog]
    exact h.emit rfl
  unfold Panel.handleResponse
  split_ifs with hidle herr hb ha hto hsim hfin hres
  · exact hp
  · exact hp.idle
  · -- the B capture is written and belt A goes out
    obtain ⟨hrun, hresp⟩ := hb
    cases hh : isHomed w.state with
    | none => simpa only [Panel.startTest, hh, Option.map_none, Option.getD_none] using hp
    | some homed =>
      simp only [Panel.startTest, hh, Option.map_some, Option.getD_some, Panel.emit, hlog]
      refine ⟨?_, (each_snoc (hlog ▸ hp.justified) trivial)⟩
      rw [hrun] at h
      obtain ⟨hb, hprog⟩ := h.reached
      rw [hresp]
      exact ⟨hb, homed, (hprog.snoc rfl).snoc rfl⟩
  · obtain ⟨hrun, hresp⟩ := ha
    cases hh : getRootPath w.state "config" with
    | none => simpa only [Panel.requestAnalysis, hh, Option.map_none, Option.getD_none] using hp
    | some root =>
      simp only [Panel.requestAnalysis, hh, Option.map_some, Option.getD_some, Panel.emit, hlog]
      refine ⟨?_, (each_snoc (hlog ▸ hp.justified) trivial)⟩
      rw [hrun] at h
      obtain ⟨hb, ha, hprog⟩ := h.reached
      rw [hresp]
      exact ⟨hb, ha, plotSize w, root, (hprog.snoc rfl).snoc rfl⟩
  · exact hp.idle
  · exact hp
  · exact hp.idle
  · have hflag : p.analysisProducedResult = true := by simpa using hres
    have hrun : p.run = .analysing := by
      have hf : isFinished resp = true := by simp [isFinished, hfin, hsim]
      cases hr : p.run with
      | idle => exact absurd hr hidle
      | testingB => rw [hfresh hf (Or.inl hr)] at hflag; cases hflag
      | testingA => rw [hfresh hf (Or.inr hr)] at hflag; cases hflag
      | analysing => rfl
    split
    · exact hp
    · rename_i png hpng
      refine ⟨trivial, each_snoc hp.justified ?_⟩
      refine ⟨hrun, ?_⟩
      have hreached := hp.reached
      rwa [hrun] at hreached
  · exact hp

/-- A finished line that comes while a belt is being shaken and finds a result
noted: both are left over from an analysis this run did not ask for. -/
def lateResult (p : Panel) : Event → Bool
  | .gcodeResponse _ j =>
    match j.valueAt ["params", "0"] with
    | .str resp => isFinished resp && (p.run = .testingB || p.run = .testingA) &&
        p.analysisProducedResult
    | _ => false
  | _ => false

theorem inv_step (p : Panel) (e : Event) (h : Inv p.run p.log) (hc : lateResult p e = false) :
    Inv (step p e).run (step p e).log := by
  cases e with
  | foreground w =>
    simp only [step, Panel.updateAvailable]
    split_ifs <;> exact h
  | calibrate w =>
    simp only [step]
    split_ifs
    · exact inv_handleCalibrate w p h
    · exact h
  | excite w hz axis =>
    simp only [step, Panel.handleExcite]
    split_ifs
    · split
      · exact h
      · split_ifs
        · exact h.emit rfl
        · exact (h.emit rfl).emit rfl
    · exact h
  | emergencyStop => exact h.emit rfl
  | imageClicked => exact h
  | gcodeResponse w j =>
    simp only [step, Panel.handleMacroResponse]
    split
    · rename_i resp hresp
      have hlock : Inv p.run (p.log ++ [Entry.lock]) := h.emit rfl
      have hfresh : isFinished resp = true → p.run = .testingB ∨ p.run = .testingA →
          p.analysisProducedResult = false := by
        intro hf hrun
        simp only [lateResult, hresp] at hc
        rcases hrun with hrun | hrun <;> simpa [hf, hrun] using hc
      have hbody := inv_handleResponse w resp ((p.emit .lock).emit (.reported resp))
        (p.log ++ [Entry.lock]) rfl hlock hfresh
      exact hbody.emit rfl
    · exact h
  | klippyGone =>
    simp only [step, Panel.handleKlippyGone, Panel.locked]
    split_ifs
    · exact (h.emit rfl).idle.emit rfl
    · exact (h.emit rfl).emit rfl
  | watchdog w =>
    simp only [step, Panel.checkTimeouts]
    split_ifs
    · exact (h.emit rfl).idle.emit rfl
    · exact h
    · exact h

/-- In every run without a late result, each result shown comes from `analysing`,
and since the last accepted press belt B was sent and reported, then belt A was
sent and reported, then the analysis was sent. -/
theorem finish_run_ends_its_own_run (es : List Event)
    (hc : Run.Along step (fun p e => lateResult p e = false) Panel.init es) (pre post : List Entry)
    (run : RunState)
    (png : String) (hlog : (Run.run step Panel.init es).log = pre ++ .finished run png :: post) :
    run = .analysing ∧ ∃ since homedB homedA size configRoot,
      SinceLast (· = .accepted) pre .accepted since ∧
      (upToAnalysis homedB homedA size configRoot).Sublist since := by
  have hinit : Inv Panel.init.run Panel.init.log := ⟨trivial, each_nil _⟩
  have hinv : Inv (Run.run step Panel.init es).run (Run.run step Panel.init es).log :=
    Run.invariant (I := fun p => Inv p.run p.log) (C := fun p e => lateResult p e = false)
      inv_step Panel.init es hinit hc
  obtain ⟨hrun, hb, ha, size, root, since, hsince, hsub⟩ := hinv.justified pre _ post hlog
  exact ⟨hrun, since, hb, ha, size, root, hsince, hsub⟩

-- A gcode response as Moonraker sends it.
def response (text : String) : Json := .obj (.cons "params" (.arr (.cons (.str text) .nil)) .nil)

-- A printer that has reported nothing yet, driven on the printer itself.
def bareWorld : World := ⟨⟨.null⟩, rfl, 0, 400, 200, 800, 480, some true, fun _ => none⟩

def wholeRun : List Event :=
  [.calibrate bareWorld, .gcodeResponse bareWorld (response (written csvB)),
    .gcodeResponse bareWorld (response (written csvA)),
    .gcodeResponse bareWorld (response "// Belts estimated similarity: 94.1%"),
    .gcodeResponse bareWorld (response "// Command \x7bguppy_belts_calibration\x7d finished")]

theorem finish_run_ends_wholeRun :
    ∃ since homedB homedA size configRoot,
      SinceLast (· = .accepted) ((Run.run step Panel.init wholeRun).log.take 15) .accepted since ∧
      (upToAnalysis homedB homedA size configRoot).Sublist since :=
  (finish_run_ends_its_own_run wholeRun (by decide +kernel)
    ((Run.run step Panel.init wholeRun).log.take 15)
    [.unlock] .analysing "A:/tmp/belts_calibration.png" (by decide +kernel)).2

-- The first run fails over to idle while its analysis is still going, and the
-- analysis reports after Shake Belts was pressed again.
def lateRun : List Event :=
  [.calibrate bareWorld, .gcodeResponse bareWorld (response (written csvB)),
    .gcodeResponse bareWorld (response (written csvA)),
    .gcodeResponse bareWorld (response "!! Must home axis first"),
    .calibrate bareWorld,
    .gcodeResponse bareWorld (response "// Belts estimated similarity: 94.1%"),
    .gcodeResponse bareWorld (response "// Command \x7bguppy_belts_calibration\x7d finished")]

/-- A late result ends a run that has shaken no belt yet. -/
theorem finish_run_from_testingB :
    ¬ ∀ (es : List Event) (pre post : List Entry) (run : RunState) (png : String),
      (Run.run step Panel.init es).log = pre ++ .finished run png :: post →
      run = .analysing := by
  intro h
  have hlate := h lateRun ((Run.run step Panel.init lateRun).log.take 20) [.unlock] .testingB
    "A:/tmp/belts_calibration.png" (by decide +kernel)
  cases hlate

end GuppyScreen.Belts
