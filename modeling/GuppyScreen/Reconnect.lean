import GuppyScreen.Lib.Double
import GuppyScreen.Lib.Handle
import GuppyScreen.Lib.Json

/-!
# Shared input over a reconnect (numpad.cpp, sensor_container.cpp, macro_item.cpp)

One numpad serves all temperature sensors and one keyboard the parameters of all
macros. Both keep a handle: the numpad the sensor its callback captured, the
keyboard its text area. A reconnect runs `create_sensors` and later `populate`,
which destroy the sensors and the macro items and make new ones. Every handler runs
under `lv_lock`, so a run is a sequence of whole handlers.
-/

namespace GuppyScreen.Reconnect
open Lib

/-- The codes the handlers look at. -/
inductive Code where
  | focused
  | defocused
  | ready
  | cancel

/-! ### The numpad -/

/-- `readyCb` is the sensor the callback captured; the initial callback has none. -/
structure Numpad where
  readyCb : Option ℕ := none
  input : String := ""
  hidden : Bool := true
  minValue : ℚ := -Double.largest
  maxValue : ℚ := Double.largest
  deriving DecidableEq

namespace Numpad

def setCallback (n : Numpad) (sensor : ℕ) : Numpad := { n with readyCb := some sensor }

def foregroundReset (n : Numpad) : Numpad :=
  { n with
    input := ""
    hidden := false }

/-- The number that passes the checks of `handle_input`. -/
def accepted (n : Numpad) : Option ℚ :=
  (Double.parse n.input).filter fun v => n.minValue ≤ v ∧ v ≤ n.maxValue

/-- The pad afterwards, and the number the callback is invoked with. -/
def handleInput (n : Numpad) : Code → Numpad × Option ℚ
  | .cancel => ({ n with hidden := true }, none)
  | .ready =>
    let closed := { n with
      hidden := true
      input := "" }
    if 0 < n.input.length then
      match n.accepted with
      | none => ({ n with input := "" }, none)
      | some v => (closed, some v)
    else (closed, none)
  | _ => (n, none)

/-- A key of the pad that edits its text. A hidden pad has no keys to press. -/
def edit (n : Numpad) (f : String → String) : Numpad :=
  if n.hidden then n else { n with input := f n.input }

end Numpad

/-! ### Sensors and macros -/

structure SensorContainer where
  id : String
  canEdit : Bool
  deriving DecidableEq

/-- Whether a sensor is controllable, `none` where reading it throws. -/
def controllable (v : Json) : Option Bool :=
  match v.get? "controllable", v.get? "color", v.get? "display_name" with
  | some (.bool b), some color, some (.str _) =>
    if color.isNumber || color.str?.isSome then some b else none
  | _, _, _ => none

/-- The loop of `create_sensors`, which ends where something throws. -/
def sensorsOf : Fields → List SensorContainer
  | .nil => []
  | .cons key v rest =>
    match controllable v with
    | none => []
    | some b => ⟨key, b⟩ :: sensorsOf rest

/-- The parameters with the texts of their text areas. -/
structure MacroItem where
  name : String
  params : List (String × String)
  deriving DecidableEq

namespace MacroItem

def edit (m : MacroItem) (param : ℕ) (f : String → String) : MacroItem :=
  { m with params := m.params.modify param fun p => (p.1, f p.2) }

end MacroItem

/-- The text area is the item it belongs to and the number of the parameter. -/
structure Keyboard where
  textarea : Option (ℕ × ℕ) := none
  hidden : Bool := true
  deriving DecidableEq

/-- `handle_kb_input` of the text area `ta`. -/
def Keyboard.handleKbInput (kb : Keyboard) (ta : ℕ × ℕ) : Code → Keyboard
  | .focused => ⟨some ta, false⟩
  | .defocused => { kb with hidden := true }
  | .ready => kb
  | .cancel => { kb with hidden := true }

/-! ### The panels -/

structure World where
  sensors : Pool SensorContainer := .empty
  numpad : Numpad := {}
  macroItems : Pool MacroItem := .empty
  kb : Keyboard := {}
  /-- The heaters and targets of SET_HEATER_TEMPERATURE. -/
  sent : List (String × ℚ) := []

inductive Key where
  | char (c : Char)
  | backspace
  | ok
  | close

inductive Event where
  | createSensors (tempSensors : Json)
  | tap (sensor : ℕ)
  | digit (d : Fin 10)
  | backspace
  | ok
  | cancel
  | populate (macros : List (String × List (String × String)))
  | focus (item param : ℕ)
  | defocus (item param : ℕ)
  | key (k : Key)

def dropLast (s : String) : String := String.ofList s.toList.dropLast

def push (c : Char) (s : String) : String := s.push c

def digitChar (d : Fin 10) : Char := Char.ofNat (48 + d)

namespace World

def createSensors (w : World) (tempSensors : Json) : World :=
  { w with sensors := w.sensors.rebuild (sensorsOf tempSensors.members) }

/-- The sensor whose `handle_edit` a tap runs. -/
def tapped (w : World) (sensor : ℕ) : Bool := (w.sensors.find? sensor).any (·.canEdit)

def handleEdit (w : World) (sensor : ℕ) : World :=
  { w with numpad := (w.numpad.setCallback sensor).foregroundReset }

/-- The callback. There is nothing to say about one whose sensor is gone. -/
def callback (w : World) (v : ℚ) : World :=
  match w.numpad.readyCb.bind w.sensors.find? with
  | none => w
  | some s => { w with sent := (s.id, v) :: w.sent }

/-- The OK key of the pad. -/
def ready (w : World) : World :=
  if w.numpad.hidden then w
  else
    let r := w.numpad.handleInput .ready
    { (r.2.elim w w.callback) with numpad := r.1 }

/-- `macro_items.clear()` deletes the text areas. `detaches` is whether LVGL takes a
deleted one off the keyboard; a focus it moves meanwhile is a focus event before. -/
def populate (detaches : Bool) (w : World) (macros : List (String × List (String × String))) :
    World :=
  { w with
    macroItems := w.macroItems.rebuild (macros.map fun m => ⟨m.1, m.2⟩)
    kb := if detaches then { w.kb with textarea := none } else w.kb }

/-- The parameter has a text area for an event to reach. -/
def hasParam (w : World) (item param : ℕ) : Bool :=
  (w.macroItems.find? item).any fun m => param < m.params.length

def edit (w : World) (ta : ℕ × ℕ) (f : String → String) : World :=
  { w with macroItems := w.macroItems.modify ta.1 (·.edit ta.2 f) }

def type (w : World) (ta : ℕ × ℕ) : Key → World
  | .char c => w.edit ta (push c)
  | .backspace => w.edit ta dropLast
  | .ok => { w with kb := w.kb.handleKbInput ta .ready }
  | .close => { w with kb := w.kb.handleKbInput ta .cancel }

/-- The sensor whose callback the event makes the pad invoke. -/
def called (w : World) : Event → Option ℕ
  | .ok =>
    if w.numpad.hidden then none
    else (w.numpad.handleInput .ready).2.bind fun _ => w.numpad.readyCb
  | _ => none

/-- The text area the keyboard hands the key to. -/
def typed (w : World) : Event → Option (ℕ × ℕ)
  | .key _ => if w.kb.hidden then none else w.kb.textarea
  | _ => none

end World

def step (detaches : Bool) (w : World) (e : Event) : World :=
  match e with
  | .createSensors tempSensors => w.createSensors tempSensors
  | .tap sensor => if w.tapped sensor then w.handleEdit sensor else w
  | .digit d => { w with numpad := w.numpad.edit (push (digitChar d)) }
  | .backspace => { w with numpad := w.numpad.edit dropLast }
  | .ok => w.ready
  | .cancel => { w with numpad := (w.numpad.handleInput .cancel).1 }
  | .populate macros => w.populate detaches macros
  | .focus item param =>
    if w.hasParam item param then { w with kb := w.kb.handleKbInput (item, param) .focused } else w
  | .defocus item param =>
    if w.hasParam item param then { w with kb := w.kb.handleKbInput (item, param) .defocused }
      else w
  | .key k =>
    match w.typed (.key k) with
    | none => w
    | some ta => w.type ta k

/-! ### Live handles -/

/-- Whatever the event makes the pad or the keyboard use is still there. -/
def Live (w : World) (e : Event) : Prop :=
  (∀ sensor, w.called e = some sensor → sensor ∈ w.sensors.ids) ∧
    ∀ ta, w.typed e = some ta → ta.1 ∈ w.macroItems.ids

inductive Mark where
  | tapped
  | sensorsCreated
  | focused
  | populated
  deriving DecidableEq

/-- What a step does to the handles and their objects. -/
def marks (w : World) : Event → List Mark
  | .createSensors _ => [.sensorsCreated]
  | .tap sensor => if w.tapped sensor then [.tapped] else []
  | .populate _ => [.populated]
  | .focus item param => if w.hasParam item param then [.focused] else []
  | _ => []

/-- The sensors are those of the tap when the pad calls back, and the macros those of
the focus when a key is typed. -/
def Uninterrupted (s : World × List Mark) (e : Event) : Prop :=
  (s.1.called e ≠ none → Since .tapped .sensorsCreated s.2) ∧
    (s.1.typed e ≠ none → Since .focused .populated s.2)

structure Inv (s : World × List Mark) : Prop where
  numpad : Tracks s.1.sensors s.1.numpad.readyCb (Since .tapped .sensorsCreated s.2)
  kb : Tracks s.1.macroItems (s.1.kb.textarea.map Prod.fst) (Since .focused .populated s.2)

theorem inv_start : Inv ({}, []) := ⟨.empty .., .empty ..⟩

theorem edit_readyCb (n : Numpad) (f : String → String) : (n.edit f).readyCb = n.readyCb := by
  unfold Numpad.edit
  split_ifs <;> rfl

theorem handleInput_readyCb (n : Numpad) (code : Code) :
    (n.handleInput code).1.readyCb = n.readyCb := by
  cases code with
  | ready =>
    unfold Numpad.handleInput
    dsimp only
    split_ifs
    · split <;> rfl
    · rfl
  | _ => rfl

theorem callback_frame (w : World) (v : ℚ) : (w.callback v).sensors = w.sensors ∧
    (w.callback v).macroItems = w.macroItems ∧ (w.callback v).kb = w.kb := by
  unfold World.callback
  split <;> exact ⟨rfl, rfl, rfl⟩

theorem ready_frame (w : World) : w.ready.sensors = w.sensors ∧ w.ready.macroItems = w.macroItems ∧
    w.ready.kb = w.kb ∧ w.ready.numpad.readyCb = w.numpad.readyCb := by
  unfold World.ready
  split_ifs
  · exact ⟨rfl, rfl, rfl, rfl⟩
  · have hcb := handleInput_readyCb w.numpad .ready
    dsimp only
    cases (w.numpad.handleInput .ready).2 with
    | none => exact ⟨rfl, rfl, rfl, hcb⟩
    | some v =>
      obtain ⟨hs, hm, hk⟩ := callback_frame w v
      exact ⟨hs, hm, hk, hcb⟩

theorem Inv.frame {s : World × List Mark} (h : Inv s) {w : World} (hs : w.sensors = s.1.sensors)
    (hm : w.macroItems = s.1.macroItems) (hn : w.numpad.readyCb = s.1.numpad.readyCb)
    (hk : w.kb.textarea = s.1.kb.textarea) : Inv (w, s.2) := by
  constructor
  · simp only [hs, hn]
    exact h.numpad
  · simp only [hm, hk]
    exact h.kb

theorem inv_tap {s : World × List Mark} (h : Inv s) {sensor : ℕ} (htap : s.1.tapped sensor = true) :
    Inv (s.1.handleEdit sensor, .tapped :: s.2) := by
  obtain ⟨c, hc, -⟩ := (Option.any_eq_true ..).mp htap
  constructor
  · exact .take (Pool.mem_ids_of_find? hc) (.inl rfl)
  · exact h.kb.congr (since_other (by decide) (by decide) s.2)

theorem inv_createSensors {s : World × List Mark} (h : Inv s) (tempSensors : Json) :
    Inv (s.1.createSensors tempSensors, .sensorsCreated :: s.2) := by
  constructor
  · exact h.numpad.rebuild _ (by simp [Since])
  · exact h.kb.congr (since_other (by decide) (by decide) s.2)

theorem inv_focus {s : World × List Mark} (h : Inv s) {item param : ℕ}
    (hparam : s.1.hasParam item param = true) :
    Inv ({ s.1 with kb := s.1.kb.handleKbInput (item, param) .focused }, .focused :: s.2) := by
  obtain ⟨m, hm, -⟩ := (Option.any_eq_true ..).mp hparam
  constructor
  · exact h.numpad.congr (since_other (by decide) (by decide) s.2)
  · exact .take (Pool.mem_ids_of_find? hm) (.inl rfl)

theorem inv_populate {s : World × List Mark} (h : Inv s) (detaches : Bool)
    (macros : List (String × List (String × String))) :
    Inv (s.1.populate detaches macros, .populated :: s.2) := by
  constructor
  · exact h.numpad.congr (since_other (by decide) (by decide) s.2)
  · cases detaches with
    | true => exact .empty ..
    | false => exact h.kb.rebuild _ (by simp [Since])

theorem inv_edit {s : World × List Mark} (h : Inv s) (ta : ℕ × ℕ) (f : String → String) :
    Inv (s.1.edit ta f, s.2) := ⟨h.numpad, h.kb.modify ta.1 (·.edit ta.2 f)⟩

theorem inv_type {s : World × List Mark} (h : Inv s) (ta : ℕ × ℕ) (k : Key) :
    Inv (s.1.type ta k, s.2) := by
  cases k with
  | char c => exact inv_edit h ta (push c)
  | backspace => exact inv_edit h ta dropLast
  | ok => exact h.frame rfl rfl rfl rfl
  | close => exact h.frame rfl rfl rfl rfl

theorem inv_step (detaches : Bool) (s : World × List Mark) (e : Event) (h : Inv s) :
    Inv (Run.logged (step detaches) marks s e) := by
  unfold Run.logged step marks
  cases e with
  | createSensors tempSensors => exact inv_createSensors h tempSensors
  | tap sensor =>
    dsimp only
    split_ifs with htap
    · exact inv_tap h htap
    · exact h
  | digit d => exact h.frame rfl rfl (edit_readyCb ..) rfl
  | backspace => exact h.frame rfl rfl (edit_readyCb ..) rfl
  | ok =>
    obtain ⟨hs, hm, hk, hn⟩ := ready_frame s.1
    exact h.frame hs hm hn (by rw [hk])
  | cancel => exact h.frame rfl rfl rfl rfl
  | populate macros => exact inv_populate h detaches macros
  | focus item param =>
    dsimp only
    split_ifs with hparam
    · exact inv_focus h hparam
    · exact h
  | defocus item param =>
    dsimp only
    split_ifs
    · exact h.frame rfl rfl rfl rfl
    · exact h
  | key k =>
    dsimp only
    split
    · exact h
    · exact inv_type h _ k

theorem called_readyCb {w : World} {e : Event} {sensor : ℕ} (h : w.called e = some sensor) :
    w.numpad.readyCb = some sensor := by
  cases e with
  | ok =>
    unfold World.called at h
    split_ifs at h
    obtain ⟨v, -, hcb⟩ := Option.bind_eq_some_iff.mp h
    exact hcb
  | _ => cases h

theorem typed_textarea {w : World} {e : Event} {ta : ℕ × ℕ} (h : w.typed e = some ta) :
    w.kb.textarea = some ta := by
  cases e with
  | key k =>
    unfold World.typed at h
    split_ifs at h
    exact h
  | _ => cases h

theorem live_iff_uninterrupted {s : World × List Mark} (h : Inv s) (e : Event) :
    Live s.1 e ↔ Uninterrupted s e := by
  have hpad : (∀ sensor, s.1.called e = some sensor → sensor ∈ s.1.sensors.ids) ↔
      (s.1.called e ≠ none → Since .tapped .sensorsCreated s.2) := by
    cases hc : s.1.called e with
    | none => simp
    | some sensor => simpa using h.numpad.live sensor (called_readyCb hc)
  have hkb : (∀ ta, s.1.typed e = some ta → ta.1 ∈ s.1.macroItems.ids) ↔
      (s.1.typed e ≠ none → Since .focused .populated s.2) := by
    cases ht : s.1.typed e with
    | none => simp
    | some ta =>
      have hlive := h.kb.live ta.1 (by rw [typed_textarea ht]; rfl)
      simpa using hlive
  exact and_congr hpad hkb

/-- The handles used in a run are all live exactly when the pad never calls back over
a `create_sensors` since the tap, and no key is typed over a `populate` since the
focus. -/
theorem live_in_run_iff (detaches : Bool) (events : List Event) :
    Run.Along (step detaches) Live {} events ↔
      Run.Along (Run.logged (step detaches) marks) Uninterrupted ({}, []) events := by
  rw [← Run.along_logged (step detaches) marks Live {} [] events]
  exact Run.along_congr (inv_step detaches)
    (fun s e hs => live_iff_uninterrupted hs e) _ events inv_start

def oneHeater : Json :=
  .obj (.cons "extruder" (.obj (.cons "color" (.str "red") (.cons "controllable" (.bool true)
    (.cons "display_name" (.str "Extruder") .nil)))) .nil)

def reconnect : List Event :=
  [.createSensors oneHeater, .populate [("PURGE", [("LENGTH", "30")])]]

/-- The printer reconnects while a target is typed in. -/
def targetRun : List Event := reconnect ++ [.tap 0, .digit 2, .digit 0, .digit 0] ++ reconnect

/-- It reconnects while a macro's parameter is edited. -/
def parameterRun : List Event := reconnect ++ [.focus 0 0] ++ reconnect

theorem destroyed_handles_used :
    (∀ detaches, (Run.run (step detaches) {} targetRun).called .ok = some 0 ∧
      (Run.run (step detaches) {} targetRun).sensors.ids = [1] ∧
      ¬ Run.Along (step detaches) Live {} (targetRun ++ [.ok])) ∧
    (Run.run (step false) {} parameterRun).typed (.key (.char '5')) = some (0, 0) ∧
      (Run.run (step false) {} parameterRun).macroItems.ids = [1] ∧
      ¬ Run.Along (step false) Live {} (parameterRun ++ [.key (.char '5')]) := by
  refine ⟨fun detaches => ?_, by decide +kernel, by decide +kernel, ?_⟩
  · have hcalled : (Run.run (step detaches) {} targetRun).called .ok = some 0 := by
      cases detaches <;> decide +kernel
    have hids : (Run.run (step detaches) {} targetRun).sensors.ids = [1] := by
      cases detaches <;> decide +kernel
    refine ⟨hcalled, hids, ?_⟩
    rw [Run.along_append]
    rintro ⟨-, hlive, -⟩
    have hmem := hlive.1 0 hcalled
    rw [hids] at hmem
    simp at hmem
  · rw [Run.along_append]
    rintro ⟨-, hlive, -⟩
    have hmem := hlive.2 (0, 0) (by decide +kernel)
    revert hmem
    decide +kernel

end GuppyScreen.Reconnect
