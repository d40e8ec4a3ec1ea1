import GuppyScreen.Lib.Pointer
import GuppyScreen.Utils

/-!
# Reading `State` (state.cpp)

`get_data` looks a pointer up. The accessors of the printer's objects read the list
through `operator[]` instead, which inserts what is missing on its way. An accessor
returns its value, `none` where something throws, and the state it leaves.
-/

namespace GuppyScreen.State
open Lib Text

/-! ### The list of objects -/

def objectsPtr : List String := ["printer_objs", "objects"]

/-- `data["/printer_objs/objects"_json_pointer]`. -/
def objects (s : State) : Option Json × State :=
  match Pointer.upsert id objectsPtr s.data with
  | none => (none, s)
  | some data => (some (data.valueAt objectsPtr), ⟨data⟩)

-- `get<std::string>()` throws at an entry that is no string.
def pick (keep : String → Bool) : List Json → Option (List String)
  | [] => some []
  | .str name :: rest =>
    (pick keep rest).map fun names => if keep name then name :: names else names
  | _ :: _ => none

/-- The loop the accessors of object names have in common. -/
def named (keep : String → Bool) (s : State) : Option (List String) × State :=
  ((s.objects.1).bind fun objects => pick keep objects.items, s.objects.2)

def getExtruders : State → Option (List String) × State :=
  named fun name => startsWith "extruder" name && !startsWith "extruder_stepper" name

def getHeaters : State → Option (List String) × State :=
  named fun name => name = "heater_bed" || startsWith "heater_generic " name

def getSensors : State → Option (List String) × State :=
  named fun name => startsWith "temperature_sensor " name || startsWith "temperature_fan " name

def getFans : State → Option (List String) × State :=
  named fun name => name = "fan" || startsWith "heater_fan " name ||
    startsWith "fan_generic " name || startsWith "controller_fan " name

def getLeds : State → Option (List String) × State := named (startsWith "led ")

def getOutputPins : State → Option (List String) × State := named (startsWith "output_pin ")

/-! ### What is displayed -/

/-- The rest of an accessor after one it calls. -/
def andThen {α β : Type} (r : Option α × State) (f : α → State → Option β × State) :
    Option β × State :=
  match r with
  | (none, s) => (none, s)
  | (some a, s) => f a s

/-- What the configuration has for the selected printer. -/
structure Displayed where
  monitoredSensors : Json
  fans : Json
  leds : Json

/-- An entry the loops over the configuration can read. -/
def hasId (entry : Json) : Bool := ((entry.get? "id").bind Json.str?).isSome

def addEntry (known entry : Json) : Option Json :=
  ((entry.get? "id").bind Json.str?).map fun id => known.set id entry

/-- The entries by their id, `none` where reading one throws or finds no id. -/
def byId (user : Json) : Option Json := user.items.foldlM addEntry .null

/-- The configured entries of the objects the printer has. -/
def configured (known : Json) (names : List String) (shown : Json) : Json :=
  names.foldl (fun shown e =>
    match known.get? e with
    | some entry => shown.set e entry
    | none => shown) shown

-- `GUPPY_COLORS` is LVGL's palette in its own order.
def guppyColor (idx : ℕ) : Json := .int (idx % 19)

def defaultSensor (e : String) (controllable : Bool) (idx : ℕ) : Json :=
  .obj (.cons "color" (guppyColor idx) (.cons "controllable" (.bool controllable)
    (.cons "display_name" (.str (KUtils.toTitle e)) (.cons "id" (.str e) .nil))))

def defaultSensors (controllable : Bool) (names : List String) (shown : Json × ℕ) : Json × ℕ :=
  names.foldl (fun shown e =>
    (shown.1.set e (defaultSensor e controllable shown.2), shown.2 + 1)) shown

def displaySensors (known : Json) (extruders heaters sensors : List String) : Json :=
  let shown := configured known sensors (configured known heaters
    (configured known extruders .null))
  if shown.isEmpty then
    (defaultSensors false sensors (defaultSensors true heaters
      (defaultSensors true extruders (shown, 0)))).1
  else shown

def getDisplaySensors (conf : Displayed) (s : State) : Option Json × State :=
  andThen (byId conf.monitoredSensors, s) fun known s =>
    andThen s.getExtruders fun extruders s =>
      andThen s.getHeaters fun heaters s =>
        andThen s.getSensors fun sensors s =>
          (some (displaySensors known extruders heaters sensors), s)

/-- The last word of a name, or the fallback where it is one word. -/
def lastWord (e fallback : String) : String :=
  if ' ' ∈ e.toList then
    String.ofList (e.toList.reverse.takeWhile (· ≠ ' ')).reverse
  else fallback

def plainEntry (e name : String) : Json :=
  .obj (.cons "display_name" (.str name) (.cons "id" (.str e) .nil))

def defaultNamed (fallback : String) (names : List String) (shown : Json) : Json :=
  names.foldl (fun shown e =>
    shown.set e (plainEntry e (KUtils.toTitle (lastWord e fallback)))) shown

def displayFans (known : Json) (fans pins : List String) : Json :=
  let shown := configured known pins (configured known fans .null)
  if shown.isEmpty then defaultNamed "Part Fan" fans shown else shown

def getDisplayFans (conf : Displayed) (s : State) : Option Json × State :=
  andThen (byId conf.fans, s) fun known s =>
    andThen s.getFans fun fans s =>
      andThen s.getOutputPins fun pins s => (some (displayFans known fans pins), s)

-- The K1 has its light on an output pin.
def defaultLeds (leds pins : List String) (shown : Json) : Json :=
  defaultNamed "LED" leds (if "output_pin LED" ∈ pins then
    shown.set "output_pin LED" (plainEntry "output_pin LED" "LED") else shown)

def displayLeds (known : Json) (leds pins : List String) : Json :=
  let shown := configured known pins (configured known leds .null)
  if shown.isEmpty then defaultLeds leds pins shown else shown

def getDisplayLeds (conf : Displayed) (s : State) : Option Json × State :=
  andThen (byId conf.leds, s) fun known s =>
    andThen s.getLeds fun leds s =>
      andThen s.getOutputPins fun pins s => (some (displayLeds known leds pins), s)

/-! ### Accessors -/

inductive Accessor where
  | getData
  | getDataAt (ptr : List String)
  | getExtruders
  | getHeaters
  | getSensors
  | getFans
  | getLeds
  | getOutputPins
  | getDisplaySensors
  | getDisplayFans
  | getDisplayLeds

inductive Value where
  | json (j : Json)
  | names (l : List String)
  deriving DecidableEq

def asNames (r : Option (List String) × State) : Option Value × State := (r.1.map .names, r.2)
def asJson (r : Option Json × State) : Option Value × State := (r.1.map .json, r.2)

def read (conf : Displayed) (s : State) : Accessor → Option Value × State
  | .getData => (some (.json s.data), s)
  | .getDataAt ptr => (some (.json (s.getData ptr)), s)
  | .getExtruders => asNames s.getExtruders
  | .getHeaters => asNames s.getHeaters
  | .getSensors => asNames s.getSensors
  | .getFans => asNames s.getFans
  | .getLeds => asNames s.getLeds
  | .getOutputPins => asNames s.getOutputPins
  | .getDisplaySensors => asJson (s.getDisplaySensors conf)
  | .getDisplayFans => asJson (s.getDisplayFans conf)
  | .getDisplayLeds => asJson (s.getDisplayLeds conf)

example : (read ⟨.null, .null, .null⟩ ⟨.obj (.cons "printer_objs" (.obj (.cons "objects"
    (.arr (.cons (.str "extruder") (.cons (.str "heater_bed") .nil))) .nil)) .nil)⟩
      .getDisplaySensors).1 = some (.json (.obj
    (.cons "extruder" (defaultSensor "extruder" true 0)
      (.cons "heater_bed" (defaultSensor "heater_bed" true 1) .nil)))) := by
  decide +kernel

/-! ### What an accessor leaves -/

def touched (s : State) : State := ⟨(Pointer.upsert id objectsPtr s.data).getD s.data⟩

theorem objectsPtr_words : ∀ t ∈ objectsPtr, Pointer.Word t := by decide

theorem objects_snd (s : State) : s.objects.2 = s.touched := by
  unfold objects touched
  cases Pointer.upsert id objectsPtr s.data <;> rfl

theorem named_snd (keep : String → Bool) (s : State) : (s.named keep).2 = s.touched := objects_snd s

theorem touched_eq_self_iff {s : State} (h : s.data.Wf) :
    s.touched = s ↔ Pointer.untouched objectsPtr s.data = true := by
  rw [← Pointer.look_eq_self_iff objectsPtr_words h]
  constructor
  · intro heq
    exact congrArg State.data heq
  · intro heq
    unfold touched
    rw [heq]

theorem wf_touched {s : State} (h : s.data.Wf) : s.touched.data.Wf := by
  unfold touched
  cases hk : Pointer.upsert id objectsPtr s.data with
  | none => exact h
  | some k =>
    exact Pointer.wf_upsert (fun _ hv => hv) h (Pointer.plain_of_upsert objectsPtr_words hk) hk

theorem touched_touched {s : State} (h : s.data.Wf) : s.touched.touched = s.touched :=
  (touched_eq_self_iff (wf_touched h)).mpr (Pointer.untouched_look objectsPtr_words s.data)

theorem byId_isSome (user : Json) : (byId user).isSome = user.items.all hasId := by
  have hfold : ∀ (entries : List Json) (known : Json),
      (entries.foldlM addEntry known).isSome = entries.all hasId := by
    intro entries
    induction entries with
    | nil => exact fun _ => rfl
    | cons entry entries ih =>
      intro known
      rw [List.foldlM_cons, List.all_cons, hasId, addEntry]
      cases (entry.get? "id").bind Json.str? with
      | none => rfl
      | some id => exact ih _
  exact hfold user.items .null

theorem andThen_snd {α β : Type} {r : Option α × State} {f : α → State → Option β × State}
    {t : State} (hr : r.2 = t) (hf : ∀ a, (f a t).2 = t) : (andThen r f).2 = t := by
  obtain ⟨o, s⟩ := r
  cases hr
  cases o with
  | none => rfl
  | some a => exact hf a

/-- A display accessor stops at a configuration it cannot read, or reads the objects. -/
theorem display_snd {user : Json} {s t : State} {f : Json → State → Option Json × State}
    (hf : ∀ known, (f known s).2 = t) :
    (andThen (byId user, s) f).2 = if user.items.all hasId then t else s := by
  rw [← byId_isSome]
  cases byId user with
  | none => rfl
  | some known => exact hf known

section
variable (conf : Displayed) {s : State} (h : s.data.Wf)
include h

theorem named_again (keep : String → Bool) : (s.touched.named keep).2 = s.touched :=
  (named_snd keep s.touched).trans (touched_touched h)

theorem getDisplaySensors_snd : (s.getDisplaySensors conf).2 =
    if conf.monitoredSensors.items.all hasId then s.touched else s := by
  refine display_snd fun known => andThen_snd (named_snd _ s) fun extruders => ?_
  refine andThen_snd (named_again h _) fun heaters => ?_
  exact andThen_snd (named_again h _) fun sensors => rfl

theorem getDisplayFans_snd : (s.getDisplayFans conf).2 =
    if conf.fans.items.all hasId then s.touched else s := by
  refine display_snd fun known => andThen_snd (named_snd _ s) fun fans => ?_
  exact andThen_snd (named_again h _) fun pins => rfl

theorem getDisplayLeds_snd : (s.getDisplayLeds conf).2 =
    if conf.leds.items.all hasId then s.touched else s := by
  refine display_snd fun known => andThen_snd (named_snd _ s) fun leds => ?_
  exact andThen_snd (named_again h _) fun pins => rfl

end

/-! ### Which reads are reads -/

/-- What the printer's objects need to be read without a trace. -/
def objectsThere (s : State) : Bool := Pointer.untouched objectsPtr s.data

/-- `get_data` is a read. The others are where the list of objects is there, or where
they throw before they insert anything. -/
def harmless (conf : Displayed) (s : State) : Accessor → Bool
  | .getData => true
  | .getDataAt _ => true
  | .getDisplaySensors => !conf.monitoredSensors.items.all hasId || s.objectsThere
  | .getDisplayFans => !conf.fans.items.all hasId || s.objectsThere
  | .getDisplayLeds => !conf.leds.items.all hasId || s.objectsThere
  | _ => s.objectsThere

theorem display_eq_self_iff {s : State} (h : s.data.Wf) (listed : Bool) :
    (if listed then s.touched else s) = s ↔ (!listed || s.objectsThere) = true := by
  cases listed with
  | false => simp
  | true => simpa [objectsThere] using touched_eq_self_iff h

theorem read_snd_eq_iff (conf : Displayed) {s : State} (h : s.data.Wf) (a : Accessor) :
    (s.read conf a).2 = s ↔ s.harmless conf a = true := by
  have hnames : ∀ keep, (asNames (s.named keep)).2 = s ↔ s.objectsThere = true := by
    intro keep
    rw [asNames, named_snd]
    exact touched_eq_self_iff h
  cases a with
  | getData => exact iff_of_true rfl rfl
  | getDataAt ptr => exact iff_of_true rfl rfl
  | getExtruders => exact hnames _
  | getHeaters => exact hnames _
  | getSensors => exact hnames _
  | getFans => exact hnames _
  | getLeds => exact hnames _
  | getOutputPins => exact hnames _
  | getDisplaySensors =>
    rw [read, asJson, getDisplaySensors_snd conf h]
    exact display_eq_self_iff h _
  | getDisplayFans =>
    rw [read, asJson, getDisplayFans_snd conf h]
    exact display_eq_self_iff h _
  | getDisplayLeds =>
    rw [read, asJson, getDisplayLeds_snd conf h]
    exact display_eq_self_iff h _

/-- Two reads, one after the other. -/
def readBoth (conf : Displayed) (s : State) (a b : Accessor) :
    Option Value × Option Value × State :=
  ((s.read conf a).1, ((s.read conf a).2.read conf b).1, ((s.read conf a).2.read conf b).2)

/-- A read leaves the state alone exactly when it is harmless there, and harmless reads
commute. -/
theorem reads_leave_state_iff (conf : Displayed) (s : State) (h : s.data.Wf) (a : Accessor) :
    ((s.read conf a).2 = s ↔ s.harmless conf a = true) ∧
      ∀ b, s.harmless conf a = true → s.harmless conf b = true →
        s.readBoth conf a b =
          ((s.readBoth conf b a).2.1, (s.readBoth conf b a).1, (s.readBoth conf b a).2.2) := by
  refine ⟨read_snd_eq_iff conf h a, ?_⟩
  intro b ha hb
  have hleft : (s.read conf a).2 = s := (read_snd_eq_iff conf h a).mpr ha
  have hright : (s.read conf b).2 = s := (read_snd_eq_iff conf h b).mpr hb
  simp only [readBoth, hleft, hright]

-- The answer of `printer.objects.list`, as `InitPanel` stores it.
def listed : State :=
  ⟨.obj (.cons "printer_objs" (.obj (.cons "objects" (.arr (.cons (.str "extruder") .nil)) .nil))
    .nil)⟩

theorem reads_leave_listed :
    listed.data.Wf ∧ listed.harmless ⟨.null, .null, .null⟩ .getDisplaySensors = true ∧
      (listed.read ⟨.null, .null, .null⟩ .getDisplaySensors).2 = listed :=
  ⟨by decide, by decide +kernel,
    (reads_leave_state_iff ⟨.null, .null, .null⟩ listed (by decide) .getDisplaySensors).1.mpr
      (by decide +kernel)⟩

/-- After a reset the first accessor inserts the list, and what `get_data` gives depends
on whether it came before. -/
theorem read_after_reset_inserts :
    ((State.mk (.obj .nil)).read ⟨.null, .null, .null⟩ .getExtruders).2 ≠ ⟨.obj .nil⟩ ∧
    ((State.mk .null).read ⟨.null, .null, .null⟩ .getExtruders).2 ≠ ⟨.null⟩ ∧
    (readBoth ⟨.null, .null, .null⟩ ⟨.obj .nil⟩ .getData .getExtruders).1 ≠
      (readBoth ⟨.null, .null, .null⟩ ⟨.obj .nil⟩ .getExtruders .getData).2.1 := by
  decide +kernel

end GuppyScreen.State
