import GuppyScreen.FineTune
import GuppyScreen.Reconnect

/-!
# The Z offset of fine tuning (finetune_panel.cpp, numpad.cpp)

The buttons and the number pad for the Z offset, and the printer that executes their
scripts. Klipper applies an offset before it moves by it and refuses to move an axis that
is not homed; the macro that some printers wrap around SET_GCODE_OFFSET saves the offset
only after that. Numbers are exact. Left out are the label of the offset and the
two seconds from a restart of the printer to the saved offset.
-/

namespace GuppyScreen.FineTune.ZOffset
open Lib Double KUtils Text
open Reconnect (Numpad)

inductive Command where
  | reset (move : Bool)
  | typed (v : ℚ) (move : Bool)
  | adjust (up : Bool) (step : Fin zoffsetSteps.length) (move : Bool)
  deriving DecidableEq

namespace Command

def move : Command → Bool
  | reset move | typed _ move | adjust _ _ move => move

def moveIfHomed (homed : Bool) : String := if homed then " MOVE=1" else ""

def text : Command → String
  | reset move => "SET_GCODE_OFFSET Z=0" ++ moveIfHomed move
  | typed v move => "SET_GCODE_OFFSET Z=" ++ fixed 3 v ++ moveIfHomed move
  | adjust up step move =>
    "SET_GCODE_OFFSET Z_ADJUST=" ++ (if up then "+" else "-") ++ zoffsetSteps.get step ++
      moveIfHomed move

/-- How far a command can go from where it starts. -/
def reach : Command → ℚ
  | adjust _ step _ => zoffsetStep { (default : FineTunePanel) with zoffsetSelector := step }
  | _ => 0

/-- The offset after the command. -/
def apply : Command → ℚ → ℚ
  | reset _, _ => 0
  | typed v _, _ => decimals 3 v
  | c@(adjust up _ _), z => if up then z + c.reach else z - c.reach

end Command

/-! ### The printer -/

/-- `saved` is what the macro has put into `save_variables`, where it is installed. -/
structure Printer where
  homedAxes : String
  zOffset : ℚ
  wrapped : Bool
  saved : Option ℚ := none
  deriving DecidableEq

namespace Printer

def zHomed (p : Printer) : Bool := hasSubstr "z" p.homedAxes

/-- A move of no length returns before the axis is looked at. -/
def rejects (p : Printer) (c : Command) : Bool :=
  c.move && !p.zHomed && decide (c.apply p.zOffset ≠ p.zOffset)

/-- The macro passes its arguments on and works out what to save from what is saved. -/
def execute (p : Printer) (c : Command) : Printer :=
  { p with
    zOffset := c.apply p.zOffset
    saved := if p.wrapped && !p.rejects c then some (c.apply (p.saved.getD 0)) else p.saved }

def restart (p : Printer) : Printer :=
  { p with
    homedAxes := ""
    zOffset := if p.wrapped then p.saved.getD 0 else 0 }

def Synced (p : Printer) : Prop := p.wrapped = true → p.saved.getD 0 = p.zOffset

instance (p : Printer) : Decidable p.Synced := inferInstanceAs (Decidable (_ → _))

end Printer

/-! ### The panel -/

def upper (s : String) : String := String.ofList (s.toList.map Char.toUpper)

def macroPath : List String := ["gcode_macro set_gcode_offset", "gcode"]

/-- A text with `SAVE_VARIABLE` in it, in any case. -/
def saves : Json → Bool
  | .str body => hasSubstr "SAVE_VARIABLE" (upper body)
  | _ => false

def offsetIsSaved (s : State) : Bool :=
  saves (s.getData (["printer_state", "configfile", "settings"] ++ macroPath))

def zoffsetNote (s : State) : String :=
  if offsetIsSaved s then "Kept on restart" else "Lost on restart"

def maxTypedZOffset : ℚ := 1

/-- The pad after `set_range`. -/
def zoffsetPad : Numpad :=
  { minValue := -maxTypedZOffset
    maxValue := maxTypedZOffset }

/-- The panel and the printer, with the scripts that were sent and not executed yet and
those that were rejected. -/
structure Desk where
  state : State
  printer : Printer
  panel : FineTunePanel := default
  note : String := ""
  numpad : Numpad := zoffsetPad
  queue : List Command := []
  rejected : List Command := []

inductive Act where
  | foreground
  | reset
  | nudge (up : Bool)
  | select (step : Fin zoffsetSteps.length)
  | tapValue
  | edit (f : String → String)
  | ready
  | cancel
  | execute
  /-- A script is lost on its way, or sent while there is no connection. -/
  | lose (i : ℕ)
  | home (axes : String)
  /-- `InitPanel::connected`. -/
  | connected
  | arrive (u : Message)
  | restart

namespace Desk

/-- The offset is read first, and the note stays where that throws. -/
def foreground (d : Desk) : Desk :=
  match d.state.getData ["printer_state", "gcode_move", "homing_origin", "2"] with
  | .null => { d with note := zoffsetNote d.state }
  | v => if v.isNumber then { d with note := zoffsetNote d.state } else d

/-- `move_if_homed` throws before anything is sent if `State` has no text there. -/
def send (d : Desk) (c : Bool → Command) : Desk :=
  match isHomed d.state with
  | none => d
  | some homed => { d with queue := d.queue ++ [c homed] }

-- The callback runs before the pad closes, and leaves it open when it throws.
def ready (d : Desk) : Desk :=
  if d.numpad.hidden then d
  else
    match d.numpad.handleInput .ready with
    | (pad, none) => { d with numpad := pad }
    | (pad, some v) =>
      match isHomed d.state with
      | none => d
      | some homed =>
        { d with
          numpad := pad
          queue := d.queue ++ [.typed v homed] }

def execute (d : Desk) : Desk :=
  match d.queue with
  | [] => d
  | c :: rest =>
    { d with
      printer := d.printer.execute c
      queue := rest
      rejected := if d.printer.rejects c then d.rejected ++ [c] else d.rejected }

def step (d : Desk) : Act → Desk
  | .foreground => d.foreground
  | .reset => d.send .reset
  | .nudge up => d.send (.adjust up d.panel.zoffsetSelector)
  | .select step => { d with panel := { d.panel with zoffsetSelector := step } }
  | .tapValue => { d with numpad := d.numpad.foregroundReset }
  | .edit f => { d with numpad := d.numpad.edit f }
  | .ready => d.ready
  | .cancel => { d with numpad := (d.numpad.handleInput .cancel).1 }
  | .execute => d.execute
  | .lose i => { d with queue := d.queue.eraseIdx i }
  | .home axes => { d with printer := { d.printer with homedAxes := axes } }
  | .connected => { d with state := d.state.reset }
  | .arrive u => { d with state := d.state.deliver u }
  | .restart =>
    { d with
      printer := d.printer.restart
      queue := [] }

end Desk

namespace Act

def onPanel : Act → Bool
  | foreground | execute | lose _ | home _ | connected | arrive _ | restart => false
  | _ => true

def sends : Act → Bool
  | reset | nudge _ | ready => true
  | _ => false

def nudges : Act → Bool
  | nudge _ => true
  | _ => false

end Act

/-! ### What the panel sends -/

theorem reach_nonneg (c : Command) : 0 ≤ c.reach := by
  cases c with
  | adjust up step move =>
    obtain ⟨n, hn, hstep⟩ := zoffsetStep_eq { (default : FineTunePanel)
      with zoffsetSelector := step }
    have hn' : (0 : ℚ) < n := by exact_mod_cast hn
    show 0 ≤ zoffsetStep _
    rw [hstep]
    positivity
  | _ => exact le_refl _

theorem zoffsetStep_le (p : FineTunePanel) : zoffsetStep p ≤ 1 / 10 := by
  have hall : ∀ i : Fin zoffsetSteps.length, (decimal (zoffsetSteps.get i)).getD 0 ≤ 1 / 10 := by
    decide +kernel
  exact hall p.zoffsetSelector

/-- A number in the range of the pad. -/
def Command.InRange : Command → Prop
  | .typed v _ => |v| ≤ maxTypedZOffset
  | _ => True

def InRange (n : Numpad) : Prop := n.minValue = -maxTypedZOffset ∧ n.maxValue = maxTypedZOffset

theorem accepted_inRange {n : Numpad} (h : InRange n) {v : ℚ} (hv : n.accepted = some v)
    (move : Bool) :
    (Command.typed v move).InRange := by
  have hbounds := (Option.filter_eq_some_iff.mp hv).2
  rw [decide_eq_true_iff, h.1, h.2] at hbounds
  exact abs_le.mpr hbounds

theorem handleInput_ready (n : Numpad) :
    (n.handleInput .ready).1.minValue = n.minValue ∧
      (n.handleInput .ready).1.maxValue = n.maxValue ∧
      ∀ v, (n.handleInput .ready).2 = some v → n.accepted = some v := by
  unfold Numpad.handleInput
  split_ifs with hlen
  · cases ha : n.accepted with
    | none => simp
    | some v => simp
  · simp

/-- An act on the panel sends at most one command, which moves if `State` has the
printer homed. -/
structure Sends (d : Desk) (a : Act) (d' : Desk) (sent : List Command) : Prop where
  state : d'.state = d.state
  printer : d'.printer = d.printer
  note : d'.note = d.note
  rejected : d'.rejected = d.rejected
  queue : d'.queue = d.queue ++ sent
  few : sent.length ≤ 1
  quiet : a.sends = false → sent = []
  move : ∀ c ∈ sent, isHomed d.state = some c.move
  pad : InRange d.numpad → InRange d'.numpad
  typed : InRange d.numpad → ∀ c ∈ sent, c.InRange
  reach : ∀ c ∈ sent, c.reach ≤ if a.nudges then 1 / 10 else 0

theorem sends_nothing (d : Desk) (a : Act) {n : Numpad} {p : FineTunePanel}
    (hn : InRange d.numpad → InRange n) :
    Sends d a { d with numpad := n, panel := p } [] where
  state := rfl
  printer := rfl
  note := rfl
  rejected := rfl
  queue := (List.append_nil _).symm
  few := by simp
  quiet _ := rfl
  move := by simp
  pad := hn
  typed := by simp
  reach := by simp

theorem sends_one (d : Desk) {a : Act} (ha : a.sends = true) {n : Numpad} {c : Command}
    (hhomed : isHomed d.state = some c.move) (hn : InRange d.numpad → InRange n)
    (hc : InRange d.numpad → c.InRange) (hreach : c.reach ≤ if a.nudges then 1 / 10 else 0) :
    Sends d a { d with numpad := n, queue := d.queue ++ [c] } [c] where
  state := rfl
  printer := rfl
  note := rfl
  rejected := rfl
  queue := rfl
  few := by simp
  quiet h := by simp [ha] at h
  move := by simpa using hhomed
  pad := hn
  typed := by simpa using hc
  reach := by simpa using hreach

theorem sends_send (d : Desk) {a : Act} (ha : a.sends = true) (c : Bool → Command)
    (hmove : ∀ homed, (c homed).move = homed) (htyped : ∀ homed, (c homed).InRange)
    (hreach : ∀ homed, (c homed).reach ≤ if a.nudges then 1 / 10 else 0) :
    ∃ sent, Sends d a (d.send c) sent := by
  unfold Desk.send
  cases hhomed : isHomed d.state with
  | none => exact ⟨[], sends_nothing d a id⟩
  | some homed =>
    have hstate : isHomed d.state = some (c homed).move := by rw [hhomed, hmove]
    exact ⟨[c homed], sends_one d ha hstate id (fun _ => htyped homed) (hreach homed)⟩

theorem sends_ready (d : Desk) : ∃ sent, Sends d .ready d.ready sent := by
  obtain ⟨hmin, hmax, haccepted⟩ := handleInput_ready d.numpad
  have hpad : InRange d.numpad → InRange (d.numpad.handleInput .ready).1 := by
    intro h
    exact ⟨hmin.trans h.1, hmax.trans h.2⟩
  have hsame : Sends d .ready d [] := sends_nothing d .ready id
  unfold Desk.ready
  split
  · exact ⟨[], hsame⟩
  · cases hinput : d.numpad.handleInput .ready with
    | mk pad number =>
      rw [hinput] at hpad haccepted
      cases number with
      | none => exact ⟨[], sends_nothing d .ready hpad⟩
      | some v =>
        cases hhomed : isHomed d.state with
        | none => exact ⟨[], hsame⟩
        | some homed =>
          have hrange : InRange d.numpad → (Command.typed v homed).InRange := by
            intro h
            exact accepted_inRange h (haccepted v rfl) homed
          exact ⟨[.typed v homed], sends_one d rfl hhomed hpad hrange (le_refl _)⟩

theorem panel_step (d : Desk) {a : Act} (ha : a.onPanel = true) :
    ∃ sent, Sends d a (d.step a) sent := by
  cases a with
  | reset => exact sends_send d rfl .reset (fun _ => rfl) (fun _ => trivial) (fun _ => le_refl _)
  | nudge up =>
    exact sends_send d rfl (.adjust up d.panel.zoffsetSelector) (fun _ => rfl)
      (fun _ => trivial) (fun _ => zoffsetStep_le _)
  | select step => exact ⟨[], sends_nothing d _ id⟩
  | tapValue => exact ⟨[], sends_nothing d _ id⟩
  | edit f =>
    refine ⟨[], sends_nothing d _ ?_⟩
    intro h
    unfold Numpad.edit
    split_ifs <;> exact h
  | ready => exact sends_ready d
  | cancel => exact ⟨[], sends_nothing d _ id⟩
  | foreground | execute | lose i | home axes | connected | arrive u | restart => cases ha

/-! ### The offset that a restart finds -/

/-- The settings that `State` has, or a message reports. -/
def settings (s : State) : Option Json := s.field "configfile" "settings"

def reported (u : Message) : Option Json := u.reports "configfile" "settings"

/-- Z is homed where the panel takes the printer for homed, and while a command that moves
waits for its turn. The settings that are reported have the printer's macro, and the panel
is opened when there are any. -/
def Informed (d : Desk) : Act → Prop
  | .reset | .nudge _ | .ready => isHomed d.state = some true → d.printer.zHomed = true
  | .home axes => hasSubstr "z" axes = true ∨ ∀ c ∈ d.queue, c.move = false
  | .arrive u => ∀ v ∈ reported u, saves (v.valueAt macroPath) = d.printer.wrapped
  | .foreground => (settings d.state).isSome = true
  | _ => True

instance (d : Desk) : (a : Act) → Decidable (Informed d a)
  | .reset | .nudge _ | .ready => inferInstanceAs (Decidable (_ → _))
  | .home _ => inferInstanceAs (Decidable (_ ∨ _))
  | .arrive u => inferInstanceAs
      (Decidable (∀ v ∈ reported u, saves (v.valueAt macroPath) = d.printer.wrapped))
  | .foreground => inferInstanceAs (Decidable (_ = _))
  | .select _ | .tapValue | .edit _ | .cancel | .execute | .lose _ | .connected | .restart =>
    .isTrue trivial

def noteOf (wrapped : Bool) : String := if wrapped then "Kept on restart" else "Lost on restart"

structure Inv (d : Desk) : Prop where
  mirror : d.state.Mirror
  known : ∀ v ∈ settings d.state, saves (v.valueAt macroPath) = d.printer.wrapped
  note : d.note = "" ∨ d.note = noteOf d.printer.wrapped
  safe : ∀ c ∈ d.queue, c.move = true → d.printer.zHomed = true
  synced : d.printer.Synced

theorem saves_iff (settings : Json) : saves (settings.valueAt macroPath) = true ↔
    ∃ body, settings.at? macroPath = some (.str body) ∧
      hasSubstr "SAVE_VARIABLE" (upper body) = true := by
  unfold saves Json.valueAt
  cases settings.at? macroPath with
  | none => simp
  | some v => cases v <;> simp

theorem saves_mergePatch {t v : Json} {w : Bool} (hwf : v.Wf)
    (ht : t = .null ∨ saves (t.valueAt macroPath) = w) (hv : saves (v.valueAt macroPath) = w) :
    saves ((t.mergePatch v).valueAt macroPath) = w := by
  have hmerge (body : String) := Json.at?_mergePatch_str hwf t macroPath (s := body)
  cases w with
  | true =>
    obtain ⟨body, hat, hbody⟩ := (saves_iff v).mp hv
    exact (saves_iff _).mpr ⟨body, (hmerge body).1 hat, hbody⟩
  | false =>
    rw [Bool.eq_false_iff]
    intro hsaves
    obtain ⟨body, hat, hbody⟩ := (saves_iff _).mp hsaves
    rcases (hmerge body).2 hat with hpatch | htarget
    · have hsaved := (saves_iff v).mpr ⟨body, hpatch, hbody⟩
      rw [hv] at hsaved
      cases hsaved
    · rcases ht with rfl | ht
      · exact Json.at?_null htarget
      · have hsaved := (saves_iff t).mpr ⟨body, htarget, hbody⟩
        rw [ht] at hsaved
        cases hsaved

theorem known_deliver {s : State} (h : s.Mirror) {w : Bool}
    (hs : ∀ v ∈ settings s, saves (v.valueAt macroPath) = w) {u : Message}
    (hu : ∀ v ∈ reported u, saves (v.valueAt macroPath) = w) :
    ∀ v ∈ settings (s.deliver u), saves (v.valueAt macroPath) = w := by
  intro x hx
  rw [settings, State.field_deliver s u h] at hx
  cases hreport : u.reports "configfile" "settings" with
  | none =>
    rw [hreport] at hx
    exact hs x hx
  | some v =>
    rw [hreport] at hx
    by_cases hnull : v = .null
    · rw [hnull] at hx
      cases hx
    · rw [Fields.merged_some hnull] at hx
      obtain rfl := Option.some.inj hx
      refine saves_mergePatch (State.reports_wf hreport) ?_ (hu v hreport)
      cases hfield : s.field "configfile" "settings" with
      | none => exact .inl rfl
      | some t => exact .inr (hs t hfield)

theorem offsetIsSaved_eq (s : State) :
    offsetIsSaved s = saves (((settings s).getD .null).valueAt macroPath) := by
  unfold offsetIsSaved settings State.field State.getData Json.valueAt
  rw [Json.at?_append]
  cases s.data.at? ["printer_state", "configfile", "settings"] <;> rfl

theorem rejects_of_homed {p : Printer} {c : Command} (h : c.move = true → p.zHomed = true) :
    p.rejects c = false := by
  unfold Printer.rejects
  cases hmove : c.move with
  | false => rfl
  | true => simp [h hmove]

theorem synced_execute {p : Printer} (h : p.Synced) {c : Command} (hc : p.rejects c = false) :
    (p.execute c).Synced := by
  intro hwrapped
  have hwrapped' : p.wrapped = true := hwrapped
  show (if p.wrapped && !p.rejects c then some (c.apply (p.saved.getD 0)) else p.saved).getD 0 =
    c.apply p.zOffset
  rw [hwrapped', hc, h hwrapped']
  rfl

theorem synced_restart {p : Printer} : p.restart.Synced := by
  intro hwrapped
  have hwrapped' : p.wrapped = true := hwrapped
  show p.saved.getD 0 = if p.wrapped then p.saved.getD 0 else 0
  rw [hwrapped', if_pos rfl]

theorem inv_panel {d : Desk} (h : Inv d) {a : Act} (ha : a.onPanel = true) (hi : Informed d a) :
    Inv (d.step a) ∧ (d.step a).rejected = d.rejected := by
  obtain ⟨sent, hs⟩ := panel_step d ha
  refine ⟨⟨?_, ?_, ?_, ?_, ?_⟩, hs.rejected⟩
  · rw [hs.state]
    exact h.mirror
  · rw [hs.state, hs.printer]
    exact h.known
  · rw [hs.note, hs.printer]
    exact h.note
  · intro c hc hmove
    rw [hs.printer]
    rw [hs.queue] at hc
    rcases List.mem_append.mp hc with hold | hnew
    · exact h.safe c hold hmove
    · have hhomed := hs.move c hnew
      rw [hmove] at hhomed
      cases a with
      | reset => exact hi hhomed
      | nudge up => exact hi hhomed
      | ready => exact hi hhomed
      | _ =>
        rw [hs.quiet rfl] at hnew
        cases hnew
  · rw [hs.printer]
    exact h.synced

theorem inv_execute {d : Desk} (h : Inv d) : Inv d.execute ∧ d.execute.rejected = d.rejected := by
  unfold Desk.execute
  cases hqueue : d.queue with
  | nil => exact ⟨h, rfl⟩
  | cons c rest =>
    have hsafe : ∀ c' ∈ c :: rest, c'.move = true → d.printer.zHomed = true := by
      rw [← hqueue]
      exact h.safe
    have hc := rejects_of_homed (hsafe c (List.mem_cons_self ..))
    refine ⟨⟨h.mirror, h.known, h.note, ?_, synced_execute h.synced hc⟩, by simp [hc]⟩
    intro c' hc' hmove
    exact hsafe c' (List.mem_cons_of_mem _ hc') hmove

theorem inv_foreground {d : Desk} (h : Inv d) (hi : (settings d.state).isSome = true) :
    Inv d.foreground ∧ d.foreground.rejected = d.rejected := by
  have hnote : zoffsetNote d.state = noteOf d.printer.wrapped := by
    obtain ⟨v, hv⟩ := Option.isSome_iff_exists.mp hi
    unfold zoffsetNote noteOf
    rw [offsetIsSaved_eq, hv, Option.getD_some, h.known v hv]
  have hset : Inv { d with note := zoffsetNote d.state } :=
    ⟨h.mirror, h.known, .inr hnote, h.safe, h.synced⟩
  unfold Desk.foreground
  split
  · exact ⟨hset, rfl⟩
  · split_ifs
    · exact ⟨hset, rfl⟩
    · exact ⟨h, rfl⟩

theorem inv_step {d : Desk} (h : Inv d) (a : Act) (hi : Informed d a) :
    Inv (d.step a) ∧ (d.step a).rejected = d.rejected := by
  cases a with
  | foreground => exact inv_foreground h hi
  | execute => exact inv_execute h
  | lose i =>
    refine ⟨⟨h.mirror, h.known, h.note, ?_, h.synced⟩, rfl⟩
    intro c hc
    exact h.safe c (List.mem_of_mem_eraseIdx hc)
  | home axes =>
    refine ⟨⟨h.mirror, h.known, h.note, ?_, h.synced⟩, rfl⟩
    intro c hc hmove
    rcases hi with hz | hstill
    · exact hz
    · rw [hstill c hc] at hmove
      cases hmove
  | connected =>
    refine ⟨⟨State.mirror_reset _, ?_, h.note, h.safe, h.synced⟩, rfl⟩
    intro v hv
    have hempty : settings d.state.reset = none := by
      unfold settings State.field State.reset
      cases d.state.data <;> rfl
    rw [show (d.step .connected).state = d.state.reset from rfl, hempty] at hv
    cases hv
  | arrive u =>
    exact ⟨⟨State.mirror_deliver _ u h.mirror, known_deliver h.mirror h.known hi, h.note, h.safe,
      h.synced⟩, rfl⟩
  | restart =>
    refine ⟨⟨h.mirror, h.known, h.note, ?_, synced_restart⟩, rfl⟩
    intro c hc
    cases hc
  | _ => exact inv_panel h rfl hi

/-- The program starts beside a printer whose saved offset is the one in effect. -/
def started (p : Printer) : Desk :=
  { state := ⟨.null⟩
    printer := p }

-- The subscription's reply on a printer that is not homed and has the saving macro.
def subscribed : Message :=
  ⟨.reply, .obj (.cons "result" (.obj (.cons "status"
    (.obj (.cons "configfile" (.obj (.cons "settings"
    (.obj (.cons "gcode_macro set_gcode_offset" (.obj (.cons "gcode"
      (.str "_SET_GCODE_OFFSET\nsave_variable VARIABLE=zoffset") .nil)) .nil)) .nil))
    (.cons "toolhead" (.obj (.cons "homed_axes" (.str "") .nil)) .nil))) .nil)) .nil),
    by decide, by decide⟩

def homedUpdate : Message :=
  ⟨.notification, .obj (.cons "params" (.arr
    (.cons (.obj (.cons "toolhead" (.obj (.cons "homed_axes"
    (.str "xyz") .nil)) .nil)) .nil)) .nil), by decide, by decide⟩

def saving : Printer := { homedAxes := "", zOffset := 0, wrapped := true }

def unhomed : Desk := started saving

-- One step on the printer that is not homed, a larger one once it is, and a reconnect.
def nudgedTwice : List Act :=
  [.connected, .arrive subscribed, .foreground, .nudge true, .execute, .home "xyz",
    .arrive homedUpdate, .select ⟨1, by decide⟩, .nudge true, .execute, .connected,
    .arrive subscribed]

theorem abs_decimals_le {q : ℚ} (h : |q| ≤ 1) (n : ℕ) : |decimals n q| ≤ 1 := by
  have hpow : (0 : ℚ) < 10 ^ n := by positivity
  have hscaled : |q * 10 ^ n| ≤ ((10 ^ n : ℤ) : ℚ) := by
    rw [abs_mul, abs_of_pos hpow]
    push_cast
    exact mul_le_of_le_one_left hpow.le h
  have hround := abs_roundHalfEven_sub_le (q * 10 ^ n)
  have hint : |roundHalfEven (q * 10 ^ n)| ≤ 10 ^ n := by
    obtain ⟨hlow, hhigh⟩ := abs_le.mp hround
    obtain ⟨hl, hh⟩ := abs_le.mp hscaled
    have hupper : (roundHalfEven (q * 10 ^ n) : ℚ) < ((10 ^ n : ℤ) : ℚ) + 1 := by linarith
    have hlower : -(((10 ^ n : ℤ) : ℚ)) - 1 < (roundHalfEven (q * 10 ^ n) : ℚ) := by linarith
    have hupper' : roundHalfEven (q * 10 ^ n) < 10 ^ n + 1 := by exact_mod_cast hupper
    have hlower' : -(10 ^ n : ℤ) - 1 < roundHalfEven (q * 10 ^ n) := by exact_mod_cast hlower
    exact abs_le.mpr ⟨by omega, by omega⟩
  unfold decimals
  rw [abs_div, abs_of_pos hpow, div_le_one hpow]
  exact_mod_cast hint

theorem abs_apply_le {c : Command} (h : c.InRange) (z : ℚ) : |c.apply z| ≤ max 1 |z| + c.reach := by
  cases c with
  | reset move =>
    show |(0 : ℚ)| ≤ max 1 |z| + 0
    rw [abs_zero, add_zero]
    exact zero_le_one.trans (le_max_left _ _)
  | typed v move =>
    show |decimals 3 v| ≤ max 1 |z| + 0
    rw [add_zero]
    exact (abs_decimals_le h 3).trans (le_max_left _ _)
  | adjust up step move =>
    have hreach := reach_nonneg (.adjust up step move)
    have hmax : |z| ≤ max 1 |z| := le_max_right _ _
    have hsum : |Command.apply (.adjust up step move) z| ≤
        |z| + Command.reach (.adjust up step move) := by
      cases up with
      | true => exact (abs_add_le _ _).trans (by rw [abs_of_nonneg hreach])
      | false => exact (abs_sub _ _).trans (by rw [abs_of_nonneg hreach])
    linarith

/-- What bounds the offset in effect, the saved one and what the pad takes. -/
def peak (p : Printer) : ℚ := max 1 (max |p.zOffset| |p.saved.getD 0|)

theorem one_le_peak (p : Printer) : 1 ≤ peak p := le_max_left _ _

theorem offset_le_peak (p : Printer) : |p.zOffset| ≤ peak p :=
  (le_max_left _ _).trans (le_max_right _ _)

theorem saved_le_peak (p : Printer) : |p.saved.getD 0| ≤ peak p :=
  (le_max_right _ _).trans (le_max_right _ _)

theorem peak_execute (p : Printer) {c : Command} (h : c.InRange) :
    peak (p.execute c) ≤ peak p + c.reach := by
  have hreach := reach_nonneg c
  have hone := one_le_peak p
  have hfrom : ∀ z : ℚ, |z| ≤ peak p → |c.apply z| ≤ peak p + c.reach := by
    intro z hz
    have happly := abs_apply_le h z
    have hmax : max 1 |z| ≤ peak p := max_le hone hz
    linarith
  have hsaved : |(p.execute c).saved.getD 0| ≤ peak p + c.reach := by
    unfold Printer.execute
    dsimp only
    split
    · exact hfrom _ (saved_le_peak p)
    · have hold := saved_le_peak p
      linarith
  exact max_le (by linarith) (max_le (hfrom _ (offset_le_peak p)) hsaved)

theorem peak_restart (p : Printer) : peak p.restart ≤ peak p := by
  have hoffset : |p.restart.zOffset| ≤ peak p := by
    unfold Printer.restart
    dsimp only
    split
    · exact saved_le_peak p
    · rw [abs_zero]
      exact zero_le_one.trans (one_le_peak p)
  exact max_le (one_le_peak p) (max_le hoffset (saved_le_peak p))

theorem sum_reach_nonneg (cs : List Command) : 0 ≤ (cs.map Command.reach).sum := by
  apply List.sum_nonneg
  intro q hq
  obtain ⟨c, -, rfl⟩ := List.mem_map.mp hq
  exact reach_nonneg c

/-- The farthest that the offset, or the saved one, can be after the commands on their way. -/
def level (d : Desk) : ℚ := peak d.printer + (d.queue.map Command.reach).sum

def Ranged (d : Desk) : Prop := InRange d.numpad ∧ ∀ c ∈ d.queue, c.InRange

theorem level_execute {d : Desk} (h : Ranged d) : level d.execute ≤ level d := by
  unfold Desk.execute
  cases hqueue : d.queue with
  | nil => exact le_refl _
  | cons c rest =>
    have hc : c.InRange := h.2 c (by rw [hqueue]; exact List.mem_cons_self ..)
    have hpeak := peak_execute d.printer hc
    unfold level
    rw [hqueue, List.map_cons, List.sum_cons]
    dsimp only
    linarith

theorem level_lose (d : Desk) (i : ℕ) : level (d.step (.lose i)) ≤ level d := by
  have hsub : ((d.queue.eraseIdx i).map Command.reach).sum ≤ (d.queue.map Command.reach).sum := by
    refine List.Sublist.sum_le_sum ((List.eraseIdx_sublist d.queue i).map _) ?_
    intro q hq
    obtain ⟨c, -, rfl⟩ := List.mem_map.mp hq
    exact reach_nonneg c
  exact add_le_add (le_refl (peak d.printer)) hsub

theorem level_restart (d : Desk) : level (d.step .restart) ≤ level d := by
  have hpeak := peak_restart d.printer
  have hsum := sum_reach_nonneg d.queue
  show peak d.printer.restart + 0 ≤ peak d.printer + (d.queue.map Command.reach).sum
  linarith

/-- What an act adds to the level at most. -/
def cost (a : Act) : ℚ := if a.nudges then 1 / 10 else 0

theorem level_panel {d : Desk} {a : Act} (ha : a.onPanel = true) :
    level (d.step a) ≤ level d + cost a := by
  obtain ⟨sent, hs⟩ := panel_step d ha
  unfold level
  rw [hs.printer, hs.queue, List.map_append, List.sum_append]
  have hcost : (sent.map Command.reach).sum ≤ cost a := by
    cases hsent : sent with
    | nil =>
      show (0 : ℚ) ≤ if a.nudges then 1 / 10 else 0
      split_ifs <;> norm_num
    | cons c rest =>
      have hrest : rest = [] := by
        have hfew := hs.few
        rw [hsent, List.length_cons] at hfew
        exact List.eq_nil_of_length_eq_zero (by omega)
      subst hrest
      have hreach := hs.reach c (by rw [hsent]; exact List.mem_singleton_self c)
      rw [List.map_singleton, List.sum_singleton]
      exact hreach
  linarith

theorem ranged_step (d : Desk) (a : Act) (h : Ranged d) : Ranged (d.step a) := by
  by_cases ha : a.onPanel = true
  · obtain ⟨sent, hs⟩ := panel_step d ha
    refine ⟨hs.pad h.1, ?_⟩
    intro c hc
    rw [hs.queue] at hc
    rcases List.mem_append.mp hc with hold | hnew
    · exact h.2 c hold
    · exact hs.typed h.1 c hnew
  · cases a with
    | execute =>
      show Ranged d.execute
      unfold Desk.execute
      cases hqueue : d.queue with
      | nil => exact h
      | cons c rest =>
        refine ⟨h.1, ?_⟩
        intro c' hc'
        exact h.2 c' (by rw [hqueue]; exact List.mem_cons_of_mem _ hc')
    | foreground =>
      show Ranged d.foreground
      unfold Desk.foreground
      split
      · exact h
      · split_ifs <;> exact h
    | lose i => exact ⟨h.1, fun c hc => h.2 c (List.mem_of_mem_eraseIdx hc)⟩
    | home axes | connected | arrive u => exact h
    | restart =>
      refine ⟨h.1, ?_⟩
      intro c hc
      cases hc
    | _ => exact absurd rfl ha

theorem level_step (d : Desk) (a : Act) (h : Ranged d) : level (d.step a) ≤ level d + cost a := by
  by_cases ha : a.onPanel = true
  · exact level_panel ha
  · cases a with
    | execute => exact (level_execute h).trans (by simp [cost, Act.nudges])
    | lose i => exact (level_lose d i).trans (by simp [cost, Act.nudges])
    | foreground =>
      have hsame : level d.foreground = level d := by
        unfold Desk.foreground
        split
        · rfl
        · split_ifs <;> rfl
      show level d.foreground ≤ _
      simp [hsame, cost, Act.nudges]
    | home axes => simp [cost, Act.nudges, level, peak, Desk.step]
    | connected | arrive u => simp [cost, Act.nudges, level, Desk.step]
    | restart =>
      exact (level_restart d).trans (by simp [cost, Act.nudges])
    | _ => exact absurd rfl ha

theorem sum_cost (as : List Act) : (as.map cost).sum = (as.countP Act.nudges : ℚ) / 10 := by
  induction as with
  | nil => simp
  | cons a as ih =>
    rw [List.map_cons, List.sum_cons, ih, List.countP_cons, cost]
    split_ifs
    · push_cast
      ring
    · simp

/-- Whatever is pressed and typed, rejected and restarted, the offset leaves the range of the
pad, or of where it started, by a tenth of a millimetre for each press of Z+ or Z- at most. -/
theorem offset_bounded (d : Desk) (as : List Act) (hpad : d.numpad = zoffsetPad)
    (hqueue : d.queue = []) :
    |(Run.run Desk.step d as).printer.zOffset| ≤
      peak d.printer + (as.countP Act.nudges : ℚ) / 10 := by
  have hranged : Ranged d := by
    refine ⟨?_, by simp [hqueue]⟩
    rw [hpad]
    exact ⟨rfl, rfl⟩
  have hgrow := Run.growth_le ranged_step level_step d as hranged
  have hstart : level d = peak d.printer := by
    unfold level
    rw [hqueue, List.map_nil, List.sum_nil, add_zero]
  have hend : |(Run.run Desk.step d as).printer.zOffset| ≤ level (Run.run Desk.step d as) := by
    have hoffset := offset_le_peak (Run.run Desk.step d as).printer
    have hsum := sum_reach_nonneg (Run.run Desk.step d as).queue
    unfold level
    linarith
  rw [hstart, sum_cost] at hgrow
  exact hend.trans hgrow

theorem offset_bounded_nudgedTwice :
    |(Run.run Desk.step unhomed nudgedTwice).printer.zOffset| ≤
      peak unhomed.printer + (nudgedTwice.countP Act.nudges : ℚ) / 10 :=
  offset_bounded unhomed nudgedTwice rfl rfl

end GuppyScreen.FineTune.ZOffset
