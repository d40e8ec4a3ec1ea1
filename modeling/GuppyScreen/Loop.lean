import GuppyScreen.Belts
import GuppyScreen.InputShaper.Runs
import GuppyScreen.Lib.Mutex

/-!
# The main loop and its lock (guppyscreen.cpp)

`GuppyScreen::loop` drains the websocket with `lv_lock` free and then runs
`lv_timer_handler` under it. LVGL's callbacks (buttons and both watchdogs)
belong to the second half, websocket handlers to the first. A message can reach
several handlers one after the other; here each is a step of its own.
-/

namespace GuppyScreen.Belts
open Lib KUtils Mutex

def Entry.op : Entry → Option Op
  | .lock => some .lock
  | .unlock => some .unlock
  | _ => none

def lockOps (log : List Entry) : List Op := log.filterMap Entry.op

def Panel.locking (p : Panel) : Event → List Op
  | .gcodeResponse _ j => if (j.valueAt ["params", "0"]).str?.isSome then guarded else []
  | .klippyGone => guarded
  | .watchdog w =>
    if p.watchdog = true ∧ p.run ≠ .idle ∧ tickElaps w p.runSince > Panel.limit then guarded else []
  | _ => []

theorem lockOps_emit {p : Panel} {e : Entry} (h : e.op = none) :
    lockOps (p.emit e).log = lockOps p.log := by
  simp [Panel.emit, lockOps, h]

theorem lockOps_locked {p : Panel} {f : Panel → Panel}
    (hf : ∀ q, lockOps (f q).log = lockOps q.log) :
    lockOps (p.locked f).log = lockOps p.log ++ guarded := by
  have hbody := hf (p.emit .lock)
  simp only [Panel.locked, Panel.emit, lockOps, List.filterMap_append] at hbody ⊢
  rw [hbody]
  simp [Entry.op, guarded]

theorem lockOps_startTest {w : World} {p : Panel} {run : RunState} {axis name status : String} :
    lockOps ((p.startTest w run axis name status).getD p).log = lockOps p.log := by
  unfold Panel.startTest
  cases KUtils.isHomed w.state with
  | none => rfl
  | some homed => exact lockOps_emit (p := p) (e := .script _) rfl

theorem lockOps_requestAnalysis {w : World} {p : Panel} :
    lockOps ((p.requestAnalysis w).getD p).log = lockOps p.log := by
  unfold Panel.requestAnalysis
  cases KUtils.getRootPath w.state "config" with
  | none => rfl
  | some root => simp [Panel.emit, lockOps, Entry.op]

theorem lockOps_handleResponse (w : World) (resp : String) (p : Panel) :
    lockOps (p.handleResponse w resp).log = lockOps p.log := by
  unfold Panel.handleResponse
  split_ifs
  · rfl
  · rfl
  · exact lockOps_startTest
  · exact lockOps_requestAnalysis
  · rfl
  · rfl
  · rfl
  · split
    · rfl
    · exact lockOps_emit (p := p) (e := .finished _ _) rfl
  · rfl

theorem lockOps_step (p : Panel) (e : Event) :
    lockOps (step p e).log = lockOps p.log ++ p.locking e := by
  cases e with
  | foreground w =>
    simp only [step, Panel.updateAvailable, Panel.locking, List.append_nil]
    split_ifs <;> rfl
  | calibrate w =>
    simp only [step, Panel.handleCalibrate, Panel.locking, List.append_nil]
    split_ifs
    · rfl
    · rw [lockOps_startTest]
      exact lockOps_emit (p := { p with graphHidden := true, graph := none, spinner := true }) rfl
    · rfl
  | excite w hz axis =>
    simp only [step, Panel.handleExcite, Panel.locking, List.append_nil]
    split_ifs
    · split
      · rfl
      · rw [lockOps_emit rfl]
        split_ifs
        · rfl
        · exact lockOps_emit rfl
    · rfl
  | emergencyStop =>
    simp only [step, Panel.locking, List.append_nil]
    exact lockOps_emit rfl
  | imageClicked => simp [step, Panel.handleImageClicked, Panel.locking]
  | gcodeResponse w j =>
    simp only [step, Panel.handleMacroResponse, Panel.locking]
    split
    · rename_i resp hresp
      rw [hresp]
      exact lockOps_locked fun q => by rw [lockOps_handleResponse, lockOps_emit rfl]
    · rename_i hother
      rw [if_neg, List.append_nil]
      rw [Json.str?_eq_none hother]
      decide
  | klippyGone =>
    have hbody : ∀ q : Panel, lockOps (if q.run ≠ .idle then
        q.abandonRun "Klipper disconnected while the belt test was running." else q).log =
        lockOps q.log := by
      intro q
      split_ifs <;> rfl
    exact lockOps_locked (f := fun q => if q.run ≠ .idle then q.abandonRun _ else q) hbody
  | watchdog w =>
    simp only [step, Panel.checkTimeouts, Panel.locking]
    split_ifs with hw hstall hall hall hall
    · exact lockOps_locked fun q => rfl
    · exact absurd ⟨hw, hstall⟩ hall
    · exact absurd hall.2 hstall
    · simp
    · exact absurd hall.1 hw
    · simp

end GuppyScreen.Belts

namespace GuppyScreen.InputShaper
open Lib KUtils Mutex Outcome Panel

def Entry.op : Entry → Option Op
  | .lock => some .lock
  | .unlock => some .unlock
  | _ => none

def lockOps (log : List Entry) : List Op := log.filterMap Entry.op

def locking : Event → List Op
  | .gcodeResponse _ j => if (j.valueAt ["params", "0"]).str?.isSome then guarded else []
  | .klippyGone => guarded
  | _ => []

/-- Nothing was locked or unlocked on the way from `p` to `q`. -/
def Quiet (p q : Panel) : Prop := lockOps q.log = lockOps p.log

theorem Quiet.trans {p q r : Panel} (h : Quiet p q) (k : Quiet q r) : Quiet p r := Eq.trans k h

theorem Steady.quiet {p q : Panel} (h : Steady p q) : Quiet p q :=
  congrArg lockOps (congrArg Core.log h)

theorem Quiet.nothing {p q : Panel} (h : Quiet p q) : lockOps q.log = lockOps p.log ++ [] :=
  Eq.trans h (List.append_nil _).symm

abbrev Hushed (p : Panel) (o : Except Panel Panel) : Prop := Post (Quiet p) (Quiet p) o

theorem Hushed.trans {p q : Panel} {o : Except Panel Panel} (h : Quiet p q) (k : Hushed q o) :
    Hushed p o := post_mono k (fun _ hs => h.trans hs) (fun _ hs => h.trans hs)

theorem Hushed.bind {p : Panel} {o : Except Panel Panel} {f : Panel → Except Panel Panel}
    (h : Hushed p o) (hf : ∀ q, Hushed q (f q)) : Hushed p (o >>= f) :=
  post_bind h fun q hq => Hushed.trans hq (hf q)

theorem Drawn.hushed {p : Panel} {o : Except Panel Panel} (h : Drawn p o) : Hushed p o :=
  post_mono h (fun _ hs => hs.quiet) (fun _ hs => hs.quiet)

theorem quiet_emit {p : Panel} {e : Entry} (h : e.op = none) : Quiet p (p.emit e) := by
  simp [Quiet, Panel.emit, lockOps, h]

theorem quiet_modify (p : Panel) (i : AxisId) (f : Axis → Axis) : Quiet p (p.modify i f) := by
  cases i <;> rfl

theorem hushed_startNextAxis (h : Host) (w : World) (p : Panel) :
    Hushed p (p.startNextAxis h w) := by
  rcases startNextAxis_spec h w p with ⟨_, hd⟩ | ⟨i, homed, _, hd⟩
  · exact hd.hushed
  · refine Hushed.trans ?_ hd.hushed
    have hsent : Quiet p ((p.modify i fun a => { a with pending := false }).send (.test homed i)) :=
      (quiet_modify p i _).trans (quiet_emit rfl)
    exact hsent.trans (quiet_modify _ i _)

theorem hushed_abandonRuns (p : Panel) (why : String) (only : Bool) :
    Hushed p (p.abandonRuns why only) := by
  rcases abandonRuns_spec p why only with ⟨_, _, heq⟩ | ⟨_, hd⟩
  · rw [heq]
    exact rfl
  · have habandon : Quiet p (abandoned p only) := rfl
    exact Hushed.trans habandon hd.hushed

theorem hushed_requestAnalysis (w : World) (p : Panel) (i : AxisId) :
    Hushed p (p.requestAnalysis w i) := by
  unfold Panel.requestAnalysis
  split
  · exact rfl
  · refine Hushed.bind (Hushed.trans (quiet_modify p i _) (drawn_setStatus _ _).hushed) fun q => ?_
    exact quiet_emit rfl

theorem hushed_handlePayload (h : Host) (w : World) (p : Panel) (res : Json) :
    Hushed p (p.handlePayload h w res) := by
  unfold Panel.handlePayload
  split
  · exact rfl
  · rename_i i _
    split_ifs
    · exact rfl
    · have happly : Hushed p (p.applyResult w i res) :=
        Hushed.trans (quiet_modify p i _) (drawn_applyResult w p i res).hushed
      refine happly.bind fun q => ?_
      have hfinish : Quiet q (q.finishRun i) := by
        unfold Panel.finishRun
        dsimp only
        split_ifs
        · exact quiet_modify q i _
        · exact quiet_modify q i _
      exact (Hushed.trans hfinish (drawn_showAxis h _ i).hushed).bind fun r =>
        (drawn_updateAvailable w r).hushed.bind fun s => hushed_startNextAxis h w s

theorem hushed_handleResponse (h : Host) (w : World) (p : Panel) (resp : String) :
    Hushed p (p.handleResponse h w resp) := by
  unfold Panel.handleResponse
  cases kind resp with
  | error => exact hushed_abandonRuns p _ _
  | running => exact rfl
  | timedOut => exact hushed_abandonRuns p _ _
  | finished =>
    dsimp only
    split_ifs
    · exact hushed_abandonRuns p _ _
    · exact rfl
  | payload =>
    dsimp only [Panel.handlePayloadLine]
    split
    · exact rfl
    · exact hushed_handlePayload h w { p with analysisProducedResult := true } _
  | written i =>
    dsimp only
    split_ifs
    · exact hushed_requestAnalysis w p i
    · exact rfl
  | other => exact rfl

theorem lockOps_locked {p : Panel} {f : Panel → Except Panel Panel} (hf : ∀ q, Hushed q (f q)) :
    lockOps (p.locked f).log = lockOps p.log ++ guarded := by
  have hbody : Quiet (p.emit .lock) (final (f (p.emit .lock))) := post_final (hf _)
  simp only [Quiet, Panel.locked, Panel.emit, lockOps, List.filterMap_append] at hbody ⊢
  rw [hbody]
  simp [Entry.op, guarded]

theorem hushed_handleCalibrate (h : Host) (w : World) (p : Panel) :
    Hushed p (p.handleCalibrate h w) := by
  unfold Panel.handleCalibrate
  split_ifs
  · exact rfl
  · exact hushed_startNextAxis h w
      { p with x := queueAxis p.target .x p.x, y := queueAxis p.target .y p.y }

theorem hushed_handleApply (p : Panel) : Hushed p p.handleApply := by
  have hsend : Quiet p (p.send (.setInputShaper (p.setting .x) (p.setting .y))) := quiet_emit rfl
  exact Hushed.trans hsend (drawn_setStatus _ _).hushed

theorem hushed_checkTimeouts (w : World) (p : Panel) : Hushed p (p.checkTimeouts w) := by
  unfold Panel.checkTimeouts
  split_ifs
  · exact hushed_abandonRuns p _ _
  · exact rfl

theorem quiet_enabled {p : Panel} {o : Except Panel Panel} (h : Hushed p o) (enabled : Bool) :
    Quiet p (if enabled then final o else p) := by
  split_ifs
  · exact post_final h
  · exact rfl

theorem lockOps_step (h : Host) (p : Panel) (e : Event) :
    lockOps (step h p e).log = lockOps p.log ++ locking e := by
  cases e with
  | gcodeResponse w j =>
    simp only [step, Panel.handleMacroResponse, locking]
    split
    · rename_i resp hresp
      rw [hresp]
      exact lockOps_locked fun q => hushed_handleResponse h w q resp
    · rename_i hother
      rw [if_neg, List.append_nil]
      rw [Json.str?_eq_none hother]
      decide
  | klippyGone => exact lockOps_locked fun q => hushed_abandonRuns q _ _
  | foreground w => exact (post_final (drawn_foreground h w p).hushed : Quiet _ _).nothing
  | calibrate w => exact (quiet_enabled (hushed_handleCalibrate h w p) _).nothing
  | apply => exact (quiet_enabled (hushed_handleApply p) _).nothing
  | save =>
    have hquiet : Quiet p (step h p .save) := by
      simp only [step]
      split_ifs <;> rfl
    exact hquiet.nothing
  | confirmSave =>
    have hquiet : Quiet p (step h p .confirmSave) := by
      simp only [step]
      split_ifs
      · rfl
      · exact quiet_emit (p := { p with savePrompts := p.savePrompts - 1 }) rfl
    exact hquiet.nothing
  | cancelSave => exact Quiet.nothing (p := p) (q := step h p .cancelSave) rfl
  | emergencyStop => exact (quiet_emit rfl).nothing
  | selectAxis t => exact (post_final (drawn_selectAxis h p t).hushed : Quiet _ _).nothing
  | selectView idx => exact Quiet.nothing (p := p) (q := step h p (.selectView idx)) rfl
  | selectShaper w idx => exact (post_final (drawn_chooseShaper w p idx).hushed : Quiet _ _).nothing
  | selectSmoothing idx => exact Quiet.nothing (p := p) (q := step h p (.selectSmoothing idx)) rfl
  | slider value =>
    have hquiet : Quiet p (step h p (.slider value)) :=
      quiet_modify { p with sliderValue := _, freqLabel := _ } p.shown _
    exact hquiet.nothing
  | watchdog w => exact (quiet_enabled (hushed_checkTimeouts w p) _).nothing

end GuppyScreen.InputShaper

namespace GuppyScreen.Loop
open Lib KUtils Mutex

inductive Half where
  | draining
  | timers
  deriving DecidableEq

structure Screen where
  half : Half
  lvLock : Mutex
  belts : Belts.Panel
  shaper : InputShaper.Panel

def Screen.init (h : InputShaper.Host) : Screen :=
  ⟨.draining, .free, Belts.Panel.init, InputShaper.Panel.init h⟩

inductive Event where
  | timerHandler
  | timersDone
  | belts (e : Belts.Event)
  | shaper (e : InputShaper.Event)
  | scriptReply (reply : Json)
  | disconnected

/-- Which half of the loop an event of the panel comes from. -/
def halfOfBelts : Belts.Event → Half
  | .gcodeResponse _ _ => .draining
  | .klippyGone => .draining
  | _ => .timers

def halfOfShaper : InputShaper.Event → Half
  | .gcodeResponse _ _ => .draining
  | .klippyGone => .draining
  | _ => .timers

-- What a handler has done to the lock, read off the panel's log.
def newOps (before after : List Op) : List Op := after.drop before.length

/-- `gcode_script`'s callback: a rejected script is shown by `show_error`. -/
def replyOps (reply : Json) : List Op := if (reply.get? "error").isSome then guarded else []

def Screen.move (s : Screen) (h : InputShaper.Host) : Event → Screen
  | .timerHandler =>
    if s.half = .draining then { s with half := .timers, lvLock := s.lvLock.apply .lock } else s
  | .timersDone =>
    if s.half = .timers then { s with half := .draining, lvLock := s.lvLock.apply .unlock } else s
  | .belts e =>
    if s.half = halfOfBelts e then
      let belts := Belts.step s.belts e
      let ops := newOps (Belts.lockOps s.belts.log) (Belts.lockOps belts.log)
      { s with belts := belts, lvLock := s.lvLock.replay ops }
    else s
  | .shaper e =>
    if s.half = halfOfShaper e then
      let shaper := InputShaper.step h s.shaper e
      let ops := newOps (InputShaper.lockOps s.shaper.log) (InputShaper.lockOps shaper.log)
      { s with shaper := shaper, lvLock := s.lvLock.replay ops }
    else s
  | .scriptReply reply =>
    if s.half = .draining then { s with lvLock := s.lvLock.replay (replyOps reply) } else s
  | .disconnected =>
    if s.half = .draining then { s with lvLock := s.lvLock.replay guarded } else s

/-- A thread that waits for itself does nothing any more. -/
def step (h : InputShaper.Host) (s : Screen) (e : Event) : Screen :=
  if s.lvLock.stuck then s else s.move h e

/-- The lock is held in one half of the loop and free in the other. -/
def Screen.Clean (s : Screen) : Prop := s.lvLock = ⟨s.half = .timers, false⟩

/-- The belts watchdog finds its run stalled. -/
def stalls (s : Screen) : Event → Bool
  | .belts (.watchdog w) => s.half = .timers && s.belts.watchdog && s.belts.run ≠ .idle &&
      decide (tickElaps w s.belts.runSince > Belts.Panel.limit)
  | _ => false

theorem newOps_append (before ops : List Op) : newOps before (before ++ ops) = ops := by
  simp [newOps]

theorem Clean.stuck {s : Screen} (h : s.Clean) : s.lvLock.stuck = false := by
  rw [show s.lvLock = _ from h]

theorem Clean.draining {s : Screen} (h : s.Clean) (hh : s.half = .draining) :
    s.lvLock = .free := by
  rw [show s.lvLock = _ from h, hh]
  rfl

theorem Clean.timers {s : Screen} (h : s.Clean) (hh : s.half = .timers) :
    s.lvLock = ⟨true, false⟩ := by
  rw [show s.lvLock = _ from h, hh]
  rfl

theorem Clean.guarded {s : Screen} (h : s.Clean) (hh : s.half = .draining) {ops : List Op}
    (hops : ops = [] ∨ ops = guarded) : s.lvLock.replay ops = s.lvLock := by
  rw [Clean.draining h hh]
  rcases hops with hops | hops
  · rw [hops]
    rfl
  · rw [hops]
    exact replay_guarded_free

theorem move_belts (h : InputShaper.Host) (s : Screen) (e : Belts.Event) :
    s.move h (.belts e) = if s.half = halfOfBelts e then
      { s with belts := Belts.step s.belts e, lvLock := s.lvLock.replay (s.belts.locking e) }
        else s := by
  simp only [Screen.move, Belts.lockOps_step, newOps_append]

theorem move_shaper (h : InputShaper.Host) (s : Screen) (e : InputShaper.Event) :
    s.move h (.shaper e) = if s.half = halfOfShaper e then
      { s with
        shaper := InputShaper.step h s.shaper e
        lvLock := s.lvLock.replay (InputShaper.locking e) } else s := by
  simp only [Screen.move, InputShaper.lockOps_step, newOps_append]

theorem Clean.kept {s t : Screen} (h : s.Clean) (hhalf : t.half = s.half)
    (hlock : t.lvLock = s.lvLock) : t.Clean := by
  unfold Screen.Clean
  rw [hlock, hhalf]
  exact h

theorem belts_locking_drained (p : Belts.Panel) {e : Belts.Event} (h : halfOfBelts e = .draining) :
    p.locking e = [] ∨ p.locking e = guarded := by
  cases e with
  | gcodeResponse w j =>
    simp only [Belts.Panel.locking]
    split_ifs
    · exact Or.inr rfl
    · exact Or.inl rfl
  | klippyGone => exact Or.inr rfl
  | _ => cases h

theorem shaper_locking_drained {e : InputShaper.Event} (h : halfOfShaper e = .draining) :
    InputShaper.locking e = [] ∨ InputShaper.locking e = guarded := by
  cases e with
  | gcodeResponse w j =>
    simp only [InputShaper.locking]
    split_ifs
    · exact Or.inr rfl
    · exact Or.inl rfl
  | klippyGone => exact Or.inr rfl
  | _ => cases h

theorem shaper_locking_timers {e : InputShaper.Event} (h : halfOfShaper e = .timers) :
    InputShaper.locking e = [] := by
  cases e with
  | gcodeResponse w j => cases h
  | klippyGone => cases h
  | _ => rfl

theorem belts_locking_timers {s : Screen} {e : Belts.Event} (hh : s.half = .timers)
    (he : halfOfBelts e = .timers) :
    s.belts.locking e = if stalls s (.belts e) then guarded else [] := by
  cases e with
  | gcodeResponse w j => cases he
  | klippyGone => cases he
  | watchdog w => simp [Belts.Panel.locking, stalls, hh, and_assoc]
  | _ => rfl

theorem clean_belts (h : InputShaper.Host) {s : Screen} (hs : s.Clean) (e : Belts.Event)
    (hc : stalls s (.belts e) = false) : (s.move h (.belts e)).Clean := by
  rw [move_belts]
  split_ifs with hhalf
  · refine Clean.kept hs rfl ?_
    cases hh : s.half with
    | draining => exact Clean.guarded hs hh (belts_locking_drained s.belts (hhalf ▸ hh))
    | timers =>
      dsimp only
      rw [belts_locking_timers hh (hhalf ▸ hh), hc]
      rfl
  · exact hs

theorem clean_shaper (h : InputShaper.Host) {s : Screen} (hs : s.Clean) (e : InputShaper.Event) :
    (s.move h (.shaper e)).Clean := by
  rw [move_shaper]
  split_ifs with hhalf
  · refine Clean.kept hs rfl ?_
    cases hh : s.half with
    | draining => exact Clean.guarded hs hh (shaper_locking_drained (hhalf ▸ hh))
    | timers =>
      dsimp only
      rw [shaper_locking_timers (hhalf ▸ hh)]
      rfl
  · exact hs

theorem clean_move (h : InputShaper.Host) {s : Screen} (hs : s.Clean) (e : Event)
    (hc : stalls s e = false) : (s.move h e).Clean := by
  cases e with
  | timerHandler =>
    simp only [Screen.move]
    split_ifs with hh
    · show s.lvLock.apply .lock = ⟨true, false⟩
      rw [Clean.draining hs hh]
      rfl
    · exact hs
  | timersDone =>
    simp only [Screen.move]
    split_ifs with hh
    · show s.lvLock.apply .unlock = ⟨false, false⟩
      rw [Clean.timers hs hh]
      rfl
    · exact hs
  | belts e => exact clean_belts h hs e hc
  | shaper e => exact clean_shaper h hs e
  | scriptReply reply =>
    simp only [Screen.move]
    split_ifs with hh
    · refine Clean.kept hs rfl (Clean.guarded hs hh ?_)
      unfold replyOps
      split_ifs
      · exact Or.inr rfl
      · exact Or.inl rfl
    · exact hs
  | disconnected =>
    simp only [Screen.move]
    split_ifs with hh
    · exact Clean.kept hs rfl (Clean.guarded hs hh (Or.inr rfl))
    · exact hs

theorem stuck_of_stalls (h : InputShaper.Host) {s : Screen} (hs : s.Clean) {e : Event}
    (hc : stalls s e = true) : (s.move h e).lvLock.stuck = true := by
  cases e with
  | belts e =>
    have hboth : s.half = .timers ∧ halfOfBelts e = .timers := by
      cases e with
      | watchdog w =>
        simp only [stalls, Bool.and_eq_true, decide_eq_true_eq] at hc
        exact ⟨hc.1.1.1, rfl⟩
      | _ => cases hc
    rw [move_belts, if_pos (hboth.1.trans hboth.2.symm)]
    dsimp only
    rw [belts_locking_timers hboth.1 hboth.2, if_pos hc, Clean.timers hs hboth.1]
    exact replay_guarded_held rfl
  | _ => cases hc

theorem step_clean (h : InputShaper.Host) {s : Screen} (hs : s.Clean) (e : Event) :
    step h s e = s.move h e := by
  unfold step
  rw [Clean.stuck hs]
  rfl

/-- In every run of the loop, the LVGL thread comes to wait for its own lock exactly
when the belts watchdog finds a run stalled. -/
theorem lv_lock_taken_once_iff (h : InputShaper.Host) (es : List Event) :
    ¬ (Run.run (step h) (Screen.init h) es).lvLock.stuck = true ↔
      Run.Along (step h) (fun s e => stalls s e = false) (Screen.init h) es := by
  refine Run.not_trapped_iff_along (I := Screen.Clean) (T := fun s => s.lvLock.stuck = true)
    ?_ ?_ ?_ ?_ (Screen.init h) es rfl
  · intro s e hs hc
    rw [step_clean h hs]
    exact clean_move h hs e hc
  · intro s hs
    simp [Clean.stuck hs]
  · intro s e hs hc
    rw [step_clean h hs]
    exact stuck_of_stalls h hs (by simpa using hc)
  · intro s e hs
    unfold step
    rw [if_pos hs]
    exact hs

-- Shake Belts, and no report of it within a quarter of an hour.
def silentRun : List Event :=
  [.timerHandler, .belts (.calibrate Belts.bareWorld), .timersDone, .timerHandler,
    .belts (.watchdog { Belts.bareWorld with tick := 900001 })]

theorem silent_belts_run_deadlocks : ¬ ∀ (h : InputShaper.Host) (es : List Event),
    (Run.run (step h) (Screen.init h) es).lvLock.stuck = false := by
  intro hall
  have hstuck := hall InputShaper.sampleHost silentRun
  revert hstuck
  decide +kernel

end GuppyScreen.Loop
