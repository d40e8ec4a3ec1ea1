import GuppyScreen.Config.Migration
import GuppyScreen.Lib.Run
import GuppyScreen.Utils

/-!
# Choosing a printer (printer_select_panel.cpp, guppyscreen.cpp)

The panel adds, switches and removes printers in the configuration file. What it
leaves there is read again at the next start, by `Config::init`, by
`GuppyScreen::init` and by the constructor of the panel itself; a read that throws
there ends the program, at every start. The files that the configuration names (the log,
the theme) are taken to open.
-/

namespace GuppyScreen.PrinterSelect
open Lib Pointer Text Config

/-! ### Reading the configuration -/

/-- `Config::get_json`: a null where there is nothing, `none` where the pointer
itself is malformed. -/
def getJson (data : Json) (text : String) : Option Json := (parse text).map data.valueAt

def getString (data : Json) (text : String) : Option String := (getJson data text).bind Json.str?

/-- What `get` takes as a number, of whatever width. -/
def isArithmetic : Json → Bool
  | .int _ => true
  | .float _ => true
  | .bool _ => true
  | _ => false

/-- `df()` of a process that has read this configuration. -/
def dfPath (data : Json) : String :=
  match data.valueAt ["default_printer"] with
  | .str name => dfOf name
  | _ => ""

-- What the constructor reads of one entry.
def entryReads (v : Json) : Bool :=
  ((v.get? "moonraker_host").bind Json.str?).isSome && ((v.get? "moonraker_port").any isArithmetic)

def themeReads (v : Json) : Bool := v.isEmpty || v.str?.isSome

/-- What a button reads when it is built, the panel's own Back among them. -/
def estopReads : Json → Bool
  | .null => true
  | .bool _ => true
  | _ => false

/-- `get<std::vector<float>>`; with fewer than six the coefficients are not defined. -/
def coeffReads : Json → Bool
  | .null => true
  | .arr l => l.toList.all isArithmetic && decide (6 ≤ l.toList.length)
  | _ => false

/-- `touch_calibrated`, and the coefficients where it is set. -/
def touchReads (calibrated coeff : Json) : Bool :=
  match calibrated with
  | .null => true
  | .bool on => !on || coeffReads coeff
  | _ => false

/-- What a start reads of no printer. -/
def screenReads (theme log estop calibrated coeff : Json) : Bool :=
  themeReads theme && log.str?.isSome && estopReads estop && touchReads calibrated coeff

/-- The log level, every entry, and where to connect. -/
def printerReads (data : Json) : Bool :=
  let printers := data.valueAt ["printers"]
  printers.isEmpty ||
    ((getString data (dfPath data ++ "log_level")).isSome &&
      printers.members.values.all entryReads &&
      (getString data (dfPath data ++ "moonraker_host")).isSome &&
      (getJson data (dfPath data ++ "moonraker_port")).any isArithmetic)

/-- No read of a start throws. -/
def readsOk (data : Json) : Bool :=
  screenReads (data.valueAt ["theme"]) (data.valueAt ["log_path"])
      (data.valueAt ["prompt_emergency_stop"]) (data.valueAt ["touch_calibrated"])
      (data.valueAt ["touch_calibration_coeff"]) &&
    printerReads data

/-- A start: what `Config::init` writes, if neither it nor a read after it throws. -/
def startup (b : Build) (path : String) (data : Json) : Option Json :=
  (Config.init b path data).bind fun data => if readsOk data then some data else none

/-! ### The panel -/

def nameChars : String :=
  "abcdefghijklmnopqrstuvwxyz" ++ "ABCDEFGHIJKLMNOPQRSTUVWXYZ" ++ "0123456789" ++ " -_"

def ipChars : String := "0123456789abcdef.:"

def portChars : String := "0123456789"

/-- What a text area takes: accepted characters, up to its length. -/
def typed (accepted : String) (max : ℕ) (text : String) : Bool :=
  text.toList.all (· ∈ accepted.toList) && decide (text.length ≤ max)

def newPrinter (ip : String) (port : ℤ) : Json :=
  .obj (.cons "default_macros" (.obj (.cons "cooldown" (.str cooldown)
      (.cons "load_filament" (.str "_GUPPY_LOAD_MATERIAL")
      (.cons "unload_filament" (.str "_GUPPY_QUIT_MATERIAL") .nil))))
    (.cons "fans" .null (.cons "monitored_sensors" .null (.cons "moonraker_api_key" (.bool false)
    (.cons "moonraker_host" (.str ip) (.cons "moonraker_port" (.int port) .nil))))))

/-- The configuration, in the file as in memory, and the names the panel lists. -/
structure Box where
  data : Json
  panel : List String

-- The first printer becomes the default, and `init` runs again.
def connectFirst (b : Build) (name : String) (data : Json) : Json :=
  if data.valueAt ["default_printer"] = .null then
    let data := data.set "default_printer" (.str name)
    match data.valueAt ["config_path"], data.valueAt ["thumbnail_path"] with
    | .str path, .str _ => (Config.init b path data).getD data
    | _, _ => data
  else data

def addPrinter (b : Build) (name ip port : String) (box : Box) : Box :=
  let entry := newPrinter ip (KUtils.parseInt port 7125)
  match box.data.valueAt ["printers"] with
  | .null | .obj _ =>
    let printers := (box.data.valueAt ["printers"]).set name entry
    ⟨connectFirst b name (box.data.set "printers" printers),
      if name ∈ box.panel then box.panel else name :: box.panel⟩
  | _ => box

def switchTo (name : String) (box : Box) : Box :=
  if name ∈ box.panel then { box with data := box.data.set "default_printer" (.str name) } else box

def removePrinter (name : String) (box : Box) : Box :=
  if name ∈ box.panel then
    let panel := box.panel.filter (· ≠ name)
    match box.data.valueAt ["printers"] with
    | .obj ps => ⟨box.data.set "printers" (.obj (ps.erase name)), panel⟩
    | _ => { box with panel := panel }
  else box

inductive Event where
  | add (name ip port : String)
  | switch (name : String)
  | remove (name : String)
  | restart

def step (b : Build) (path : String) (box : Box) : Event → Box
  | .add name ip port =>
    if typed nameChars 128 name && typed ipChars 45 ip && typed portChars 5 port then
      addPrinter b name ip port box
    else box
  | .switch name => switchTo name box
  | .remove name => removePrinter name box
  -- the file is written before the reads, so a start that fails leaves it changed
  | .restart =>
    match Config.init b path box.data with
    | none => box
    | some data => ⟨data, if readsOk data then (data.valueAt ["printers"]).members.keys else []⟩

/-! ### Configurations that start -/

/-- Every printer has a host and a port to connect to. -/
structure Sound (d : Json) : Prop where
  wf : d.Wf
  obj : d.isObject = true
  printers : d.valueAt ["printers"] = .null ∨ (d.valueAt ["printers"]).isObject = true
  host : ∀ q, (d.at? ["printers", q]).isSome = true →
    ∃ h, d.at? ["printers", q, "moonraker_host"] = some (.str h)
  port : ∀ q, (d.at? ["printers", q]).isSome = true →
    ∃ p, d.at? ["printers", q, "moonraker_port"] = some (.int p)

/-- There are no printers, or the default is one of them. -/
def Named (d : Json) : Prop :=
  (d.valueAt ["default_printer"] = .null ∧ ∀ q, d.at? ["printers", q] = none) ∨
  ∃ name, d.valueAt ["default_printer"] = .str name ∧ (d.at? ["printers", name]).isSome = true

def LevelOk (d : Json) (q : String) : Prop :=
  d.valueAt ["printers", q, "log_level"] = .null ∨
    ∃ l, d.valueAt ["printers", q, "log_level"] = .str l

/-- Log levels are strings, and the default's name is the pointer token it is
taken for. -/
structure Tame (d : Json) : Prop where
  levels : ∀ q, LevelOk d q
  name : ∀ name, d.valueAt ["default_printer"] = .str name → Lacks '/' name ∧ Lacks '~' name

/-- What a start reads of no printer is there, or `init` fills it in. -/
def Started (b : Build) (d : Json) : Prop :=
  screenReads (d.valueAt ["theme"]) (d.valueAt ["log_path"])
    (fill (.bool true) (d.valueAt ["prompt_emergency_stop"]))
    (fill (.bool b.evdevCalibrate) (d.valueAt ["touch_calibrated"]))
    (d.valueAt ["touch_calibration_coeff"]) = true

/-- The keys of the top level that `init` leaves as they are. -/
def untouched : List String := ["theme", "log_path", "touch_calibration_coeff"]

/-- The same printers, reached in the same way, and the same reads of no printer. -/
structure Kin (b : Build) (d k : Json) : Prop where
  host : ∀ q, k.at? ["printers", q, "moonraker_host"] = d.at? ["printers", q, "moonraker_host"]
  port : ∀ q, k.at? ["printers", q, "moonraker_port"] = d.at? ["printers", q, "moonraker_port"]
  level : ∀ q, LevelOk d q → LevelOk k q
  text : ∀ q l, d.at? ["printers", q, "log_level"] = some (.str l) →
    k.at? ["printers", q, "log_level"] = some (.str l)
  entries : ∀ q, (k.at? ["printers", q]).isSome = (d.at? ["printers", q]).isSome
  name : k.valueAt ["default_printer"] = d.valueAt ["default_printer"]
  printers : (d.valueAt ["printers"] = .null ∨ (d.valueAt ["printers"]).isObject = true) →
    k.valueAt ["printers"] = .null ∨ (k.valueAt ["printers"]).isObject = true
  top : ∀ t ∈ untouched, k.valueAt [t] = d.valueAt [t]
  estop : fill (.bool true) (k.valueAt ["prompt_emergency_stop"]) =
    fill (.bool true) (d.valueAt ["prompt_emergency_stop"])
  touch : fill (.bool b.evdevCalibrate) (k.valueAt ["touch_calibrated"]) =
    fill (.bool b.evdevCalibrate) (d.valueAt ["touch_calibrated"])

section
variable {b : Build}

theorem Kin.refl (d : Json) : Kin b d d :=
  ⟨fun _ => rfl, fun _ => rfl, fun _ h => h, fun _ _ h => h, fun _ => rfl, rfl, id, fun _ _ => rfl,
    rfl, rfl⟩

theorem Kin.trans {i j k : Json} (h : Kin b i j) (h' : Kin b j k) : Kin b i k := by
  refine ⟨fun q => ?_, fun q => ?_, fun q hq => h'.level q (h.level q hq),
    fun q l hq => h'.text q l (h.text q l hq), fun q => ?_, ?_,
    fun hp => h'.printers (h.printers hp), fun t ht => ?_, ?_, ?_⟩
  · rw [h'.host, h.host]
  · rw [h'.port, h.port]
  · rw [h'.entries, h.entries]
  · rw [h'.name, h.name]
  · rw [h'.top t ht, h.top t ht]
  · rw [h'.estop, h.estop]
  · rw [h'.touch, h.touch]

theorem Kin.started {d k : Json} (h : Kin b d k) (hd : Started b d) : Started b k := by
  unfold Started
  rw [h.top "theme" (by decide), h.top "log_path" (by decide),
    h.top "touch_calibration_coeff" (by decide), h.estop, h.touch]
  exact hd

theorem screenReads_of_started {d : Json} (h : Started b d) :
    screenReads (d.valueAt ["theme"]) (d.valueAt ["log_path"])
      (d.valueAt ["prompt_emergency_stop"]) (d.valueAt ["touch_calibrated"])
      (d.valueAt ["touch_calibration_coeff"]) = true := by
  simp only [Started, screenReads, Bool.and_eq_true] at h ⊢
  obtain ⟨⟨⟨htheme, hlog⟩, hestop⟩, htouch⟩ := h
  refine ⟨⟨⟨htheme, hlog⟩, ?_⟩, ?_⟩
  · by_cases hnull : d.valueAt ["prompt_emergency_stop"] = .null
    · rw [hnull]
      rfl
    · rwa [fill_of_ne hnull] at hestop
  · by_cases hnull : d.valueAt ["touch_calibrated"] = .null
    · rw [hnull]
      rfl
    · rwa [fill_of_ne hnull] at htouch

theorem Kin.sound {d k : Json} (h : Kin b d k) (hd : Sound d) (hwf : k.Wf)
    (hobj : k.isObject = true) : Sound k := by
  refine ⟨hwf, hobj, h.printers hd.printers, fun q hq => ?_, fun q hq => ?_⟩
  · rw [h.entries] at hq
    rw [h.host]
    exact hd.host q hq
  · rw [h.entries] at hq
    rw [h.port]
    exact hd.port q hq

theorem Kin.named {d k : Json} (h : Kin b d k) (hd : Named d) : Named k := by
  rcases hd with ⟨hnull, hnone⟩ | ⟨name, hname, hsome⟩
  · refine Or.inl ⟨h.name.trans hnull, fun q => ?_⟩
    have hq := h.entries q
    rw [hnone q] at hq
    exact Option.not_isSome_iff_eq_none.mp (by rw [hq]; simp)
  · exact Or.inr ⟨name, h.name.trans hname, (h.entries name).trans hsome⟩

theorem Kin.tame {d k : Json} (h : Kin b d k) (hd : Tame d) : Tame k :=
  ⟨fun q => h.level q (hd.levels q), fun name hname => hd.name name (h.name.symm.trans hname)⟩

/-! ### `Config::init` on them -/

/-- An access that no startup read depends on, or one that fills in what it reads. -/
structure Harmless (b : Build) (s : Step) : Prop where
  fills : s.Fills
  host : s.key ≠ "moonraker_host"
  port : s.key ≠ "moonraker_port"
  level : s.key = "log_level" → s.act = fill (.str "debug")
  top : s.key ∉ untouched
  estop : s.key = "prompt_emergency_stop" → s.act = fill (.bool true)
  touch : s.key = "touch_calibrated" → s.act = fill (.bool b.evdevCalibrate)

theorem harmless_seeds : ∀ s ∈ seeds, Harmless b s := by
  intro s hs
  refine ⟨fills_seeds s hs, ?_, ?_, ?_, ?_, ?_, ?_⟩ <;>
    (simp only [seeds, List.mem_cons, List.not_mem_nil, or_false] at hs
     rcases hs with rfl | rfl <;> simp [untouched])

theorem harmless_backfill : ∀ s ∈ backfill, Harmless b s := by
  intro s hs
  refine ⟨fills_backfill s hs, ?_, ?_, ?_, ?_, ?_, ?_⟩ <;>
    (simp only [backfill, List.mem_cons, List.not_mem_nil, or_false] at hs
     rcases hs with rfl | rfl | rfl | rfl | rfl | rfl | rfl | rfl | rfl <;> simp [untouched])

theorem harmless_screen : ∀ s ∈ screen b, Harmless b s := by
  intro s hs
  refine ⟨fills_screen b s hs, ?_, ?_, ?_, ?_, ?_, ?_⟩ <;>
    (simp only [screen, List.mem_cons, List.not_mem_nil, or_false] at hs
     rcases hs with rfl | rfl | rfl | rfl <;> simp [untouched])

theorem Sound.entry {d : Json} (h : Sound d) {name : String}
    (hname : (d.at? ["printers", name]).isSome = true) :
    ∃ fs ps es, d = .obj fs ∧ fs.find? "printers" = some (.obj ps) ∧
      ps.find? name = some (.obj es) := by
  obtain ⟨host, hhost⟩ := h.host name hname
  have hp := h.printers
  cases d with
  | obj fs =>
    rw [Json.at?_obj] at hhost
    obtain ⟨p, hfind, hrest⟩ := Option.bind_eq_some_iff.mp hhost
    rw [Json.valueAt, Json.at?_obj, hfind, Option.bind_some, Json.at?_nil, Option.getD_some] at hp
    cases p with
    | null => cases hrest
    | obj ps =>
      rw [Json.at?_obj] at hrest
      obtain ⟨e, he, hlast⟩ := Option.bind_eq_some_iff.mp hrest
      cases e with
      | obj es => exact ⟨fs, ps, es, rfl, hfind, he⟩
      | arr l =>
        rw [Json.at?, show arrayIndex "moonraker_host" = none by decide] at hlast
        cases hlast
      | _ => cases hlast
    | _ => rcases hp with hp | hp <;> cases hp
  | _ => cases h.obj

theorem Sound.plain {d : Json} (h : Sound d) {s : Step} {name : String}
    (hname : s.place = .printer → (d.at? ["printers", name]).isSome = true) :
    Plain (s.tokens name) d := by
  unfold Step.tokens
  cases hplace : s.place with
  | top => exact plain_top h.obj s.key
  | printer =>
    obtain ⟨fs, ps, es, rfl, hps, hes⟩ := h.entry (hname hplace)
    refine ⟨fs, rfl, ?_⟩
    rw [hps]
    refine ⟨ps, rfl, ?_⟩
    rw [hes]
    exact ⟨es, rfl, trivial⟩

-- What an access at another option of a printer does not touch.
theorem apart_option {s : Step} (hs : s.Fills) {f : String} (name q : String)
    (hf : s.place = .printer → q = name → s.key ≠ f) :
    Apart ["printers", q, f] (s.tokens name) := by
  unfold Step.tokens
  cases hplace : s.place with
  | top => exact Or.inl hs.other.1.symm
  | printer =>
    by_cases hq : q = name
    · exact Or.inr (Or.inr (Or.inl (hf hplace hq).symm))
    · exact Or.inr (Or.inl hq)

-- What an access at another key of the top level does not touch.
theorem apart_key {s : Step} (name : String) {t : String} (hp : t ≠ "printers") (ht : s.key ≠ t) :
    Apart [t] (s.tokens name) := by
  unfold Step.tokens
  cases s.place with
  | top => exact Or.inl ht.symm
  | printer => exact Or.inl hp

theorem fill_upsert {d k : Json} {s : Step} {name t : String} {default : Json}
    (hp : Plain (s.tokens name) d) (hk : upsert s.act (s.tokens name) d = some k)
    (ht : t ≠ "printers") (hact : s.key = t → s.act = fill default) :
    fill default (k.valueAt [t]) = fill default (d.valueAt [t]) := by
  by_cases hat : s.place = .top ∧ s.key = t
  · obtain ⟨hplace, rfl⟩ := hat
    have hvalue := at?_upsert hp hk
    unfold Step.tokens at hvalue
    rw [hplace] at hvalue
    rw [Json.valueAt, hvalue, Option.getD_some, hact rfl]
    by_cases hnull : fill default (d.valueAt [s.key]) = .null
    · rw [hnull]
      by_cases hd : d.valueAt [s.key] = .null
      · rw [hd] at hnull
        exact hnull
      · exact absurd (fill_of_ne hd ▸ hnull) hd
    · exact fill_of_ne hnull
  · have hapart : Apart [t] (s.tokens name) := by
      unfold Step.tokens
      cases hplace : s.place with
      | top => exact Or.inl fun he => hat ⟨hplace, he.symm⟩
      | printer => exact Or.inl ht
    rw [Json.valueAt, at?_upsert_apart hp hk hapart]
    rfl

theorem isSome_at?_init {d : Json} {as bs : List String} (h : (d.at? (as ++ bs)).isSome = true) :
    (d.at? as).isSome = true := by
  rw [Json.at?_append] at h
  cases hd : d.at? as with
  | none => rw [hd] at h; cases h
  | some v => rfl

theorem entries_upsert {d k : Json} {s : Step} (hs : s.Fills) {name : String}
    (hname : s.place = .printer → (d.at? ["printers", name]).isSome = true)
    (hp : Plain (s.tokens name) d) (hk : upsert s.act (s.tokens name) d = some k) (q : String) :
    (k.at? ["printers", q]).isSome = (d.at? ["printers", q]).isSome := by
  have hat := at?_upsert hp hk
  by_cases hq : s.place = .printer ∧ q = name
  · obtain ⟨hplace, rfl⟩ := hq
    rw [hname hplace]
    unfold Step.tokens at hat
    rw [hplace] at hat
    have hlong : (k.at? (["printers", q] ++ [s.key])).isSome = true := by
      show (k.at? ["printers", q, s.key]).isSome = true
      rw [hat]
      rfl
    exact isSome_at?_init hlong
  · refine congrArg Option.isSome (at?_upsert_apart hp hk ?_)
    unfold Step.tokens
    cases hplace : s.place with
    | top => exact Or.inl hs.other.1.symm
    | printer => exact Or.inr (Or.inl fun he => hq ⟨hplace, he⟩)

theorem printers_upsert {d k : Json} {s : Step} (hs : s.Fills) {name : String}
    (hp : Plain (s.tokens name) d) (hk : upsert s.act (s.tokens name) d = some k)
    (hd : d.valueAt ["printers"] = .null ∨ (d.valueAt ["printers"]).isObject = true) :
    k.valueAt ["printers"] = .null ∨ (k.valueAt ["printers"]).isObject = true := by
  cases hplace : s.place with
  | top =>
    have hapart : Apart ["printers"] (s.tokens name) := by
      unfold Step.tokens
      rw [hplace]
      exact Or.inl hs.other.1.symm
    rw [Json.valueAt, at?_upsert_apart hp hk hapart]
    exact hd
  | printer =>
    unfold Step.tokens at hp hk
    rw [hplace] at hp hk
    obtain ⟨fs, v, -, hrest, hv, rfl⟩ := upsert_inv hp hk
    obtain ⟨ps, w, -, -, -, rfl⟩ := upsert_inv hrest hv
    right
    rw [Json.valueAt, Json.at?_obj, Fields.find?_insert_self]
    rfl

theorem level_upsert {d k : Json} {s : Step} (hs : Harmless b s) {name : String}
    (hp : Plain (s.tokens name) d) (hk : upsert s.act (s.tokens name) d = some k) (q : String) :
    (s.place = .printer ∧ q = name ∧ s.key = "log_level" ∧
      k.at? ["printers", q, "log_level"] =
        some (fill (.str "debug") (d.valueAt ["printers", q, "log_level"]))) ∨
    k.at? ["printers", q, "log_level"] = d.at? ["printers", q, "log_level"] := by
  by_cases hq : s.place = .printer ∧ q = name ∧ s.key = "log_level"
  · obtain ⟨hplace, rfl, hkey⟩ := hq
    have hat := at?_upsert hp hk
    have htokens : s.tokens q = ["printers", q, "log_level"] := by
      unfold Step.tokens
      rw [hplace, hkey]
    rw [htokens, hs.level hkey] at hat
    exact Or.inl ⟨hplace, rfl, hkey, hat⟩
  · have hapart : Apart ["printers", q, "log_level"] (s.tokens name) :=
      apart_option hs.fills name q fun hplace he hkey => hq ⟨hplace, he, hkey⟩
    exact Or.inr (at?_upsert_apart hp hk hapart)

theorem fill_level {d : Json} {q : String} (h : LevelOk d q) :
    ∃ l, fill (.str "debug") (d.valueAt ["printers", q, "log_level"]) = .str l := by
  rcases h with hnull | ⟨l, hl⟩
  · exact ⟨"debug", by rw [hnull]; rfl⟩
  · exact ⟨l, by rw [hl]; rfl⟩

theorem kin_upsert {d : Json} (h : Sound d) {s : Step} (hs : Harmless b s) {name : String}
    (hname : s.place = .printer → (d.at? ["printers", name]).isSome = true) :
    ∃ k, upsert s.act (s.tokens name) d = some k ∧ Kin b d k ∧ Sound k ∧
      (s.place = .printer → s.key = "log_level" → LevelOk d name →
        ∃ l, k.at? ["printers", name, "log_level"] = some (.str l)) := by
  have hp := h.plain hname
  obtain ⟨k, hk⟩ := upsert_some s.act hp
  have hwf := wf_upsert hs.fills.wf h.wf hp hk
  have hobj : k.isObject = true := by
    unfold Step.tokens at hp hk
    cases hplace : s.place with
    | top =>
      rw [hplace] at hp hk
      obtain ⟨fs, v, -, -, -, rfl⟩ := upsert_inv hp hk
      rfl
    | printer =>
      rw [hplace] at hp hk
      obtain ⟨fs, v, -, -, -, rfl⟩ := upsert_inv hp hk
      rfl
  have hkin : Kin b d k := by
    refine ⟨fun q => ?_, fun q => ?_, fun q hq => ?_, fun q l hq => ?_,
      entries_upsert hs.fills hname hp hk, ?_, printers_upsert hs.fills hp hk, fun t ht => ?_,
      fill_upsert hp hk (by decide) hs.estop, fill_upsert hp hk (by decide) hs.touch⟩
    · exact at?_upsert_apart hp hk (apart_option hs.fills name q fun _ _ => hs.host)
    · exact at?_upsert_apart hp hk (apart_option hs.fills name q fun _ _ => hs.port)
    · unfold LevelOk
      rcases level_upsert hs hp hk q with ⟨-, -, -, hat⟩ | hsame
      · obtain ⟨l, hl⟩ := fill_level hq
        rw [Json.valueAt, hat]
        exact Or.inr ⟨l, hl⟩
      · rw [Json.valueAt, hsame]
        exact hq
    · rcases level_upsert hs hp hk q with ⟨-, -, -, hat⟩ | hsame
      · rw [hat, Json.valueAt, hq]
        rfl
      · rw [hsame]
        exact hq
    · rw [Json.valueAt, at?_upsert_apart hp hk (apart_top hs.fills name (Or.inl rfl))]
      rfl
    · have hkey : s.key ≠ t := fun he => hs.top (he ▸ ht)
      have hprinters : t ≠ "printers" := by
        rintro rfl
        exact absurd ht (by decide)
      rw [Json.valueAt, at?_upsert_apart hp hk (apart_key name hprinters hkey)]
      rfl
  refine ⟨k, hk, hkin, hkin.sound h hwf hobj, fun hplace hkey hlevel => ?_⟩
  have hat := at?_upsert hp hk
  obtain ⟨l, hl⟩ := fill_level hlevel
  unfold Step.tokens at hat
  rw [hplace, hkey, hs.level hkey] at hat
  exact ⟨l, hat.trans (congrArg some hl)⟩

theorem kin_accessAll {text name : String} {steps : List Step} {d : Json} (h : Sound d)
    (hs : ∀ s ∈ steps, Harmless b s)
    (ht : ∀ s ∈ steps, parse (s.text text) = some (s.tokens name))
    (hname : ∀ s ∈ steps, s.place = .printer → (d.at? ["printers", name]).isSome = true) :
    ∃ k, accessAll text steps d = some k ∧ Kin b d k ∧ Sound k ∧
      ∀ s ∈ steps, s.place = .printer → s.key = "log_level" → LevelOk d name →
        ∃ l, k.at? ["printers", name, "log_level"] = some (.str l) := by
  induction steps generalizing d with
  | nil => exact ⟨d, rfl, Kin.refl d, h, fun s hm => nomatch hm⟩
  | cons s steps ih =>
    have hfirst : s ∈ s :: steps := List.mem_cons_self ..
    obtain ⟨i, hi, hkin, hsound, hlevel⟩ := kin_upsert h (hs s hfirst) (hname s hfirst)
    obtain ⟨k, hk, hkin', hsound', hlevel'⟩ := ih hsound
      (fun t hm => hs t (List.mem_cons_of_mem s hm))
      (fun t hm => ht t (List.mem_cons_of_mem s hm)) fun t hm hp => by
        rw [hkin.entries]
        exact hname t (List.mem_cons_of_mem s hm) hp
    refine ⟨k, ?_, hkin.trans hkin', hsound', fun t hm hplace hkey hok => ?_⟩
    · rw [accessAll, List.foldlM_cons, access, ht s hfirst, Option.bind_some, hi]
      exact hk
    · rcases List.mem_cons.mp hm with rfl | hm
      · obtain ⟨l, hl⟩ := hlevel hplace hkey hok
        exact ⟨l, hkin'.text name l hl⟩
      · exact hlevel' t hm hplace hkey (hkin.level name hok)

theorem kin_reseat {d : Json} (h : Sound d) (path : String) :
    Kin b d (reseat path d) ∧ Sound (reseat path d) := by
  have htop {t : String} (hp : t ≠ "config_path") (hn : t ≠ "default_printer") :
      (reseat path d).valueAt [t] = d.valueAt [t] := by
    rw [Json.valueAt, at?_reseat h.obj path hp hn []]
    rfl
  have hprinters (q : List String) :
      (reseat path d).at? ("printers" :: q) = d.at? ("printers" :: q) :=
    at?_reseat h.obj path (by decide) (by decide) q
  have hkin : Kin b d (reseat path d) := by
    refine ⟨fun q => hprinters _, fun q => hprinters _, fun q hq => ?_, fun q l hq => ?_,
      fun q => by rw [hprinters], ?_, fun hp => ?_, fun t ht => htop ?_ ?_,
      by rw [htop (by decide) (by decide)], by rw [htop (by decide) (by decide)]⟩
    · unfold LevelOk
      rw [Json.valueAt, hprinters]
      exact hq
    · rw [hprinters]
      exact hq
    · rw [Json.valueAt, valueAt_name h.obj rfl path]
      rfl
    · rw [Json.valueAt, hprinters]
      exact hp
    · rintro rfl
      exact absurd ht (by decide)
    · rintro rfl
      exact absurd ht (by decide)
  exact ⟨hkin, hkin.sound h (wf_reseat h.wf path) rfl⟩

end

theorem init_kin (b : Build) (path : String) {d : Json} (h : Sound d) (hn : Named d)
    (ht : Tame d) : ∃ out, Config.init b path d = some out ∧ Kin b d out ∧ Sound out ∧
      ∀ name, d.valueAt ["default_printer"] = .str name →
        ∃ l, out.at? ["printers", name, "log_level"] = some (.str l) := by
  have htop {steps : List Step} (hs : ∀ s ∈ steps, s.place = .top) {i : Json} :
      ∀ s ∈ steps, s.place = .printer → (i.at? ["printers", ""]).isSome = true :=
    fun s hm hp => absurd ((hs s hm).symm.trans hp) (by decide)
  obtain ⟨d1, hd1, hkin1, hsound1, -⟩ := kin_accessAll h (harmless_seeds (b := b))
    (parse_tops fills_seeds seeds_top "" "") (htop seeds_top)
  obtain ⟨hkin2, hsound2⟩ := kin_reseat hsound1 path
  have hkin := hkin1.trans hkin2
  have hhead : accessAll "" (seeds ++ [setPath path, readPrinter]) d = some (reseat path d1) :=
    accessAll_append.mpr ⟨d1, hd1, access_reseat hsound1.obj path⟩
  have hprinter : ∃ e, initPrinter (reseat path d1) = some e ∧ Kin b (reseat path d1) e ∧ Sound e ∧
      ∀ name, d.valueAt ["default_printer"] = .str name →
        ∃ l, e.at? ["printers", name, "log_level"] = some (.str l) := by
    unfold initPrinter
    rw [hkin.name]
    rcases hn with ⟨hnull, -⟩ | ⟨name, hname, hsome⟩
    · rw [hnull]
      exact ⟨_, rfl, Kin.refl _, hsound2, fun name hname => nomatch hname⟩
    · rw [hname]
      obtain ⟨hslash, htilde⟩ := ht.name name hname
      obtain ⟨e, he, hkine, hsounde, hlevel⟩ := kin_accessAll hsound2 harmless_backfill
        (parse_backfill hslash htilde) fun _ _ _ => (hkin.entries name).trans hsome
      refine ⟨e, he, hkine, hsounde, fun name' hname' => ?_⟩
      cases hname'
      exact hlevel ⟨.printer, "log_level", fill (.str "debug")⟩ (by simp [backfill]) rfl rfl
        (hkin.level name (ht.levels name))
  obtain ⟨e, he, hkine, hsounde, hlevel⟩ := hprinter
  obtain ⟨out, hout, hkino, hsoundo, -⟩ := kin_accessAll hsounde harmless_screen
    (parse_tops (fills_screen b) (screen_top b) "" "") (htop (screen_top b))
  refine ⟨out, ?_, (hkin.trans hkine).trans hkino, hsoundo, fun name hname => ?_⟩
  · unfold Config.init
    rw [hhead]
    show (initPrinter (reseat path d1)).bind _ = _
    rw [he]
    exact hout
  · obtain ⟨l, hl⟩ := hlevel name hname
    exact ⟨l, hkino.text name l hl⟩

/-! ### The reads of a start -/

theorem getJson_printer (d : Json) {name f : String} (hf : Lacks '/' f ∧ Lacks '~' f)
    (hn : Lacks '/' name ∧ Lacks '~' name) :
    getJson d (dfOf name ++ f) = some (d.valueAt ["printers", name, f]) := by
  have hparse : parse (dfOf name ++ f) = some ["printers", name, f] :=
    parse_printer (s := ⟨.printer, f, id⟩) rfl hf.1 hf.2 hn.1 hn.2
  rw [getJson, hparse]
  rfl

theorem entryReads_of_sound {d : Json} (h : Sound d) {fs ps : Fields} (hd : d = .obj fs)
    (hps : fs.find? "printers" = some (.obj ps)) {q : String} {v : Json}
    (hv : ps.find? q = some v) : entryReads v = true := by
  have hat (r : List String) : d.at? ("printers" :: q :: r) = v.at? r := by
    rw [hd, Json.at?_obj, hps, Option.bind_some, Json.at?_obj, hv, Option.bind_some]
  have hsome : (d.at? ["printers", q]).isSome = true := by
    rw [hat, Json.at?_nil]
    rfl
  obtain ⟨host, hhost⟩ := h.host q hsome
  obtain ⟨port, hport⟩ := h.port q hsome
  rw [hat] at hhost hport
  unfold entryReads
  rw [Json.get?_of_at? (by decide) hhost, Json.get?_of_at? (by decide) hport]
  rfl

theorem printerReads_of_sound {d : Json} (h : Sound d) (hn : Named d) (ht : Tame d)
    (hl : ∀ name, d.valueAt ["default_printer"] = .str name →
      ∃ l, d.at? ["printers", name, "log_level"] = some (.str l)) : printerReads d = true := by
  unfold printerReads
  dsimp only
  cases hempty : (d.valueAt ["printers"]).isEmpty with
  | true => rfl
  | false =>
    obtain ⟨fs, ps, hd, hps⟩ : ∃ fs ps, d = .obj fs ∧ fs.find? "printers" = some (.obj ps) := by
      have hp := h.printers
      cases d with
      | obj fs =>
        rw [Json.valueAt, Json.at?_obj] at hp hempty
        cases hf : fs.find? "printers" with
        | none => rw [hf] at hempty; cases hempty
        | some p =>
          rw [hf, Option.bind_some, Json.at?_nil, Option.getD_some] at hp hempty
          cases p with
          | obj ps => exact ⟨fs, ps, rfl, hf⟩
          | null => cases hempty
          | _ => rcases hp with hp | hp <;> cases hp
      | _ => cases h.obj
    have hvalue : d.valueAt ["printers"] = .obj ps := by
      rw [hd, Json.valueAt, Json.at?_obj, hps]
      rfl
    have hsorted : ps.Sorted := by
      have hwf := h.wf
      rw [hd] at hwf
      exact (Fields.wf_find? hwf.2 hps).1
    rcases hn with ⟨-, hnone⟩ | ⟨name, hname, hsome⟩
    · -- a printer that is there is found by its name
      rw [hvalue] at hempty
      cases ps with
      | nil => cases hempty
      | cons k v r =>
        have hk := hnone k
        rw [hd, Json.at?_obj, hps, Option.bind_some, Json.at?_obj, Fields.find?, if_pos rfl,
          Option.bind_some, Json.at?_nil] at hk
        cases hk
    · have hdf : dfPath d = dfOf name := by
        unfold dfPath
        rw [hname]
      have hplain := ht.name name hname
      obtain ⟨l, hlevel⟩ := hl name hname
      obtain ⟨host, hhost⟩ := h.host name hsome
      obtain ⟨port, hport⟩ := h.port name hsome
      have hall : ps.values.all entryReads = true := by
        refine List.all_eq_true.mpr fun v hv => ?_
        obtain ⟨q, hq⟩ := Fields.find?_of_mem_values hsorted hv
        exact entryReads_of_sound h hd hps hq
      unfold getString
      rw [hdf, getJson_printer d (by decide) hplain, getJson_printer d (by decide) hplain,
        getJson_printer d (by decide) hplain, hvalue]
      simp only [Json.valueAt, hlevel, hhost, hport]
      show (false || (true && ps.values.all entryReads && true && true)) = true
      rw [hall]
      rfl

theorem startup_of_sound (b : Build) (path : String) {d : Json} (h : Sound d) (hn : Named d)
    (ht : Tame d) (hst : Started b d) :
    ∃ out, startup b path d = some out ∧ Config.init b path d = some out ∧ Kin b d out ∧
      Sound out := by
  obtain ⟨out, hout, hkin, hsound, hlevel⟩ := init_kin b path h hn ht
  refine ⟨out, ?_, hout, hkin, hsound⟩
  have hprinters : printerReads out = true := by
    refine printerReads_of_sound hsound (hkin.named hn) (hkin.tame ht) fun name hname => ?_
    exact hlevel name (hkin.name.symm.trans hname)
  have hreads : readsOk out = true := by
    rw [readsOk, screenReads_of_started (hkin.started hst), hprinters]
    rfl
  rw [startup, hout, Option.bind_some, if_pos hreads]

/-! ### The writers -/

structure Inv (b : Build) (box : Box) : Prop where
  sound : Sound box.data
  named : Named box.data
  tame : Tame box.data
  started : Started b box.data
  panel : ∀ name ∈ box.panel, (box.data.at? ["printers", name]).isSome = true

/-- The removed printer is the default, or the one switched to has a name that is
no pointer token. -/
def risky (box : Box) : Event → Bool
  | .remove name =>
    decide (name ∈ box.panel) && decide (box.data.valueAt ["default_printer"] = .str name)
  | .switch name =>
    decide (name ∈ box.panel) && !(decide (Lacks '/' name) && decide (Lacks '~' name))
  | _ => false

theorem at?_printers {d : Json} (hd : d.isObject = true) (q : String) (r : List String) :
    d.at? ("printers" :: q :: r) = (d.valueAt ["printers"]).at? (q :: r) := by
  cases d with
  | obj fs =>
    rw [Json.valueAt, Json.at?_obj, Json.at?_obj]
    cases fs.find? "printers" with
    | none => rfl
    | some p => rw [Option.bind_some, Option.bind_some, Json.at?_nil, Option.getD_some]
  | _ => cases hd

theorem valueAt_set_printers (d p : Json) : (d.set "printers" p).valueAt ["printers"] = p := by
  rw [Json.valueAt, at?_set_self, Json.at?_nil, Option.getD_some]

theorem valueAt_set_other {d : Json} (hd : d.isObject = true) (p : Json) {t u : String}
    (ht : u ≠ t) : (d.set t p).valueAt [u] = d.valueAt [u] := by
  rw [Json.valueAt, at?_set_ne hd ht]
  rfl

theorem started_set {b : Build} {d : Json} (h : Started b d) (hd : d.isObject = true) (p : Json)
    {t : String} (ht : t = "printers" ∨ t = "default_printer") : Started b (d.set t p) := by
  have hsame {u : String} (hp : u ≠ "printers") (hn : u ≠ "default_printer") :
      (d.set t p).valueAt [u] = d.valueAt [u] := by
    rcases ht with rfl | rfl
    · exact valueAt_set_other hd p hp
    · exact valueAt_set_other hd p hn
  unfold Started
  simp only [hsame (u := "theme") (by decide) (by decide),
    hsame (u := "log_path") (by decide) (by decide),
    hsame (u := "prompt_emergency_stop") (by decide) (by decide),
    hsame (u := "touch_calibrated") (by decide) (by decide),
    hsame (u := "touch_calibration_coeff") (by decide) (by decide)]
  exact h

-- Switching leaves every printer as it is.
theorem sound_switch {d : Json} (h : Sound d) (name : String) :
    Sound (d.set "default_printer" (.str name)) := by
  have hat (q : List String) :
      (d.set "default_printer" (.str name)).at? ("printers" :: q) = d.at? ("printers" :: q) :=
    at?_set_ne h.obj (by decide) _ q
  refine ⟨Json.wf_set h.wf trivial, rfl, ?_, fun q hq => ?_, fun q hq => ?_⟩
  · rw [Json.valueAt, hat]
    exact h.printers
  · rw [hat] at hq ⊢
    exact h.host q hq
  · rw [hat] at hq ⊢
    exact h.port q hq

theorem tame_switch {d : Json} (h : Sound d) (ht : Tame d) {name : String}
    (hn : Lacks '/' name ∧ Lacks '~' name) : Tame (d.set "default_printer" (.str name)) := by
  refine ⟨fun q => ?_, fun name' hname => ?_⟩
  · unfold LevelOk
    rw [Json.valueAt, at?_set_ne h.obj (by decide)]
    exact ht.levels q
  · rw [Json.valueAt, at?_set_self, Json.at?_nil] at hname
    cases hname
    exact hn

theorem named_switch {d : Json} (h : Sound d) {name : String}
    (hsome : (d.at? ["printers", name]).isSome = true) :
    Named (d.set "default_printer" (.str name)) := by
  refine Or.inr ⟨name, ?_, ?_⟩
  · rw [Json.valueAt, at?_set_self, Json.at?_nil]
    rfl
  · rw [at?_set_ne h.obj (by decide)]
    exact hsome

theorem Inv.switch {b : Build} {box : Box} (h : Inv b box) {name : String} (hmem : name ∈ box.panel)
    (hn : Lacks '/' name ∧ Lacks '~' name) :
    Inv b { box with data := box.data.set "default_printer" (.str name) } := by
  refine ⟨sound_switch h.sound name, named_switch h.sound (h.panel name hmem),
    tame_switch h.sound h.tame hn, started_set h.started h.sound.obj _ (Or.inr rfl),
    fun n hnm => ?_⟩
  show ((box.data.set "default_printer" (.str name)).at? ["printers", n]).isSome = true
  rw [at?_set_ne h.sound.obj (by decide)]
  exact h.panel n hnm

/-- A new map of printers, each one known before or served. -/
theorem sound_printers {d p : Json} (h : Sound d) (hwf : p.Wf) (hobj : p.isObject = true)
    (hp : ∀ q, (∀ r, p.at? (q :: r) = d.at? ("printers" :: q :: r)) ∨ p.at? [q] = none ∨
      ((∃ host, p.at? [q, "moonraker_host"] = some (.str host)) ∧
        ∃ port, p.at? [q, "moonraker_port"] = some (.int port))) :
    Sound (d.set "printers" p) := by
  have hat (r : List String) : (d.set "printers" p).at? ("printers" :: r) = p.at? r :=
    at?_set_self d "printers" p r
  refine ⟨Json.wf_set h.wf hwf, rfl, ?_, fun q hq => ?_, fun q hq => ?_⟩
  · rw [valueAt_set_printers]
    exact Or.inr hobj
  · rw [hat] at hq ⊢
    rcases hp q with hsame | hnone | hserved
    · rw [hsame] at hq ⊢
      exact h.host q hq
    · rw [hnone] at hq
      cases hq
    · exact hserved.1
  · rw [hat] at hq ⊢
    rcases hp q with hsame | hnone | hserved
    · rw [hsame] at hq ⊢
      exact h.port q hq
    · rw [hnone] at hq
      cases hq
    · exact hserved.2

theorem tame_printers {d p : Json} (h : Sound d) (ht : Tame d)
    (hp : ∀ q, (∀ r, p.at? (q :: r) = d.at? ("printers" :: q :: r)) ∨
      p.at? [q, "log_level"] = none) : Tame (d.set "printers" p) := by
  refine ⟨fun q => ?_, fun name hname => ?_⟩
  · unfold LevelOk
    rw [Json.valueAt, at?_set_self]
    rcases hp q with hsame | hnone
    · rw [hsame]
      exact ht.levels q
    · rw [hnone]
      exact Or.inl rfl
  · rw [valueAt_set_other h.obj p (by decide)] at hname
    exact ht.name name hname

theorem Inv.remove {b : Build} {box : Box} (h : Inv b box) {name : String} {ps : Fields}
    (hps : box.data.valueAt ["printers"] = .obj ps)
    (hdf : box.data.valueAt ["default_printer"] ≠ .str name) :
    Inv b ⟨box.data.set "printers" (.obj (ps.erase name)), box.panel.filter (· ≠ name)⟩ := by
  have hold (q : String) (r : List String) :
      box.data.at? ("printers" :: q :: r) = (ps.find? q).bind (·.at? r) := by
    rw [at?_printers h.sound.obj, hps, Json.at?_obj]
  have hnew {q : String} (hq : q ≠ name) (r : List String) :
      (Json.obj (ps.erase name)).at? (q :: r) = box.data.at? ("printers" :: q :: r) := by
    rw [hold, Json.at?_obj, Fields.find?_erase_ne ps hq]
  have hgone (r : List String) : (Json.obj (ps.erase name)).at? (name :: r) = none := by
    rw [Json.at?_obj, Fields.find?_erase_self]
    rfl
  have hwf : (Json.obj (ps.erase name)).Wf := by
    have hobj : (Json.obj ps).Wf := by
      rw [← hps, Json.valueAt]
      cases hat : box.data.at? ["printers"] with
      | none => trivial
      | some v => exact Json.wf_at? _ _ h.sound.wf hat
    exact ⟨Fields.erase_sorted ps name hobj.1, Fields.wf_erase hobj.2⟩
  refine ⟨?_, ?_, ?_, started_set h.started h.sound.obj _ (Or.inl rfl), ?_⟩
  · refine sound_printers h.sound hwf rfl fun q => ?_
    by_cases hq : q = name
    · subst hq
      exact Or.inr (Or.inl (hgone []))
    · exact Or.inl (hnew hq)
  · unfold Named
    rw [valueAt_set_other h.sound.obj _ (by decide)]
    rcases h.named with ⟨hnull, hnone⟩ | ⟨df, hname, hsome⟩
    · refine Or.inl ⟨hnull, fun q => ?_⟩
      rw [at?_set_self]
      by_cases hq : q = name
      · rw [hq, hgone]
      · rw [hnew hq, hnone]
    · have hne : df ≠ name := by
        rintro rfl
        exact hdf hname
      refine Or.inr ⟨df, hname, ?_⟩
      rw [at?_set_self, hnew hne]
      exact hsome
  · refine tame_printers h.sound h.tame fun q => ?_
    by_cases hq : q = name
    · subst hq
      exact Or.inr (hgone _)
    · exact Or.inl (hnew hq)
  · intro n hn
    obtain ⟨hmem, hne⟩ := List.mem_filter.mp hn
    rw [at?_set_self, hnew (by simpa using hne)]
    exact h.panel n hmem

theorem typed_lacks {accepted text : String} {max : ℕ} (h : typed accepted max text = true)
    {c : Char} (hc : Lacks c accepted) : Lacks c text := by
  intro hmem
  have hall := List.all_eq_true.mp (Bool.and_eq_true_iff.mp h).1 c hmem
  exact hc (by simpa using hall)

theorem wf_newPrinter (ip : String) (port : ℤ) : (newPrinter ip port).Wf := by
  have hset : newPrinter ip port =
      ((newPrinter "" 0).set "moonraker_host" (.str ip)).set "moonraker_port" (.int port) := rfl
  have hempty : (newPrinter "" 0).Wf := by decide
  rw [hset]
  exact Json.wf_set (Json.wf_set hempty trivial) trivial

/-- What adding a printer writes first. -/
theorem added {d : Json} (h : Sound d) (ht : Tame d) (name ip : String) (port : ℤ) :
    let k := d.set "printers" ((d.valueAt ["printers"]).set name (newPrinter ip port))
    Sound k ∧ Tame k ∧ (k.at? ["printers", name]).isSome = true ∧
      ∀ q, (d.at? ["printers", q]).isSome = true → (k.at? ["printers", q]).isSome = true := by
  intro k
  have hself (r : List String) :
      ((d.valueAt ["printers"]).set name (newPrinter ip port)).at? (name :: r) =
        (newPrinter ip port).at? r := at?_set_self _ name _ r
  have hother {q : String} (hq : q ≠ name) (r : List String) :
      ((d.valueAt ["printers"]).set name (newPrinter ip port)).at? (q :: r) =
        d.at? ("printers" :: q :: r) := by
    rw [at?_printers h.obj]
    rcases h.printers with hnull | hobj
    · rw [hnull, Json.set, Json.at?_obj, Fields.find?_insert_ne _ _ hq]
      rfl
    · exact at?_set_ne hobj hq _ r
  have hwf : ((d.valueAt ["printers"]).set name (newPrinter ip port)).Wf := by
    refine Json.wf_set ?_ ?_
    · rw [Json.valueAt]
      cases hat : d.at? ["printers"] with
      | none => trivial
      | some v => exact Json.wf_at? _ _ h.wf hat
    · exact wf_newPrinter ip port
  refine ⟨?_, ?_, ?_, fun q hq => ?_⟩
  · refine sound_printers h hwf rfl fun q => ?_
    by_cases hq : q = name
    · subst hq
      refine Or.inr (Or.inr ⟨⟨ip, ?_⟩, ⟨port, ?_⟩⟩)
      · rw [hself]
        rfl
      · rw [hself]
        rfl
    · exact Or.inl (hother hq)
  · refine tame_printers h ht fun q => ?_
    by_cases hq : q = name
    · subst hq
      refine Or.inr ?_
      rw [hself]
      rfl
    · exact Or.inl (hother hq)
  · show ((d.set "printers" _).at? _).isSome = true
    rw [at?_set_self, hself, Json.at?_nil]
    rfl
  · show ((d.set "printers" _).at? _).isSome = true
    rw [at?_set_self]
    by_cases hqn : q = name
    · rw [hqn, hself, Json.at?_nil]
      rfl
    · rw [hother hqn]
      exact hq

/-- Connecting to the first printer makes it the default. -/
theorem connected (b : Build) {d : Json} (h : Sound d) (ht : Tame d) (hst : Started b d)
    {name : String}
    (hn : Lacks '/' name ∧ Lacks '~' name) (hsome : (d.at? ["printers", name]).isSome = true)
    (hdf : d.valueAt ["default_printer"] = .null ∨
      ∃ df, d.valueAt ["default_printer"] = .str df ∧ (d.at? ["printers", df]).isSome = true) :
    Sound (connectFirst b name d) ∧ Named (connectFirst b name d) ∧
      Tame (connectFirst b name d) ∧ Started b (connectFirst b name d) ∧
      ∀ q, ((connectFirst b name d).at? ["printers", q]).isSome =
        (d.at? ["printers", q]).isSome := by
  by_cases hnull : d.valueAt ["default_printer"] = .null
  swap
  · have hsame : connectFirst b name d = d := if_neg hnull
    rw [hsame]
    exact ⟨h, Or.inr (hdf.resolve_left hnull), ht, hst, fun _ => rfl⟩
  have hsound := sound_switch h name
  have hnamed := named_switch h hsome
  have htame := tame_switch h ht hn
  have hstarted := started_set hst h.obj (.str name) (Or.inr rfl)
  have hentries (q : String) : ((d.set "default_printer" (.str name)).at? ["printers", q]).isSome =
      (d.at? ["printers", q]).isSome := by
    rw [at?_set_ne h.obj (by decide)]
  unfold connectFirst
  rw [if_pos hnull]
  dsimp only
  split
  · rename_i path _ _ _
    obtain ⟨out, hout, hkin, hsoundo, -⟩ := init_kin b path hsound hnamed htame
    rw [hout, Option.getD_some]
    exact ⟨hsoundo, hkin.named hnamed, hkin.tame htame, hkin.started hstarted,
      fun q => by rw [hkin.entries, hentries]⟩
  · exact ⟨hsound, hnamed, htame, hstarted, hentries⟩

theorem Inv.add {b : Build} {box : Box} (h : Inv b box) {name : String} (ip port : String)
    (hn : Lacks '/' name ∧ Lacks '~' name) : Inv b (addPrinter b name ip port box) := by
  have hwrite : addPrinter b name ip port box =
      ⟨connectFirst b name (box.data.set "printers" ((box.data.valueAt ["printers"]).set name
        (newPrinter ip (KUtils.parseInt port 7125)))),
        if name ∈ box.panel then box.panel else name :: box.panel⟩ := by
    unfold addPrinter
    rcases h.sound.printers with hnull | hobj
    · rw [hnull]
    · cases hp : box.data.valueAt ["printers"] with
      | obj ps => rfl
      | _ => simp [hp, Json.isObject] at hobj
  obtain ⟨hsound, htame, hself, hkept⟩ := added h.sound h.tame name ip (KUtils.parseInt port 7125)
  have hdf := valueAt_set_other h.sound.obj ((box.data.valueAt ["printers"]).set name
    (newPrinter ip (KUtils.parseInt port 7125))) (t := "printers")
    (u := "default_printer") (by decide)
  obtain ⟨hsoundo, hnamedo, htameo, hstartedo, hentries⟩ := connected b hsound htame
    (started_set h.started h.sound.obj _ (Or.inl rfl)) hn hself (by
    rw [hdf]
    rcases h.named with ⟨hnull, -⟩ | ⟨df, hname, hsome⟩
    · exact Or.inl hnull
    · exact Or.inr ⟨df, hname, hkept df hsome⟩)
  rw [hwrite]
  refine ⟨hsoundo, hnamedo, htameo, hstartedo, fun n hmem => ?_⟩
  show ((connectFirst b name _).at? ["printers", n]).isSome = true
  rw [hentries]
  have hcases : n = name ∨ n ∈ box.panel := by
    split_ifs at hmem
    · exact Or.inr hmem
    · exact List.mem_cons.mp hmem
  rcases hcases with rfl | hold
  · exact hself
  · exact hkept n (h.panel n hold)

theorem keys_present {d : Json} (h : d.isObject = true) {name : String}
    (hmem : name ∈ (d.valueAt ["printers"]).members.keys) :
    (d.at? ["printers", name]).isSome = true := by
  rw [at?_printers h]
  cases hp : d.valueAt ["printers"] with
  | obj ps =>
    rw [hp] at hmem
    rw [Json.at?_obj]
    cases hf : ps.find? name with
    | none => exact absurd hmem ((Fields.find?_eq_none_iff ps name).mp hf)
    | some v => rw [Option.bind_some, Json.at?_nil, Option.isSome_some]
  | _ => rw [hp] at hmem; cases hmem

theorem inv_step (b : Build) (path : String) (box : Box) (e : Event) (h : Inv b box)
    (hc : risky box e = false) : Inv b (step b path box e) := by
  cases e with
  | add name ip port =>
    simp only [step]
    split_ifs with htyped
    · have hname := (Bool.and_eq_true_iff.mp (Bool.and_eq_true_iff.mp htyped).1).1
      exact h.add ip port ⟨typed_lacks hname (by decide), typed_lacks hname (by decide)⟩
    · exact h
  | switch name =>
    simp only [step, switchTo]
    split_ifs with hmem
    · exact h.switch hmem (by simpa [risky, hmem] using hc)
    · exact h
  | remove name =>
    simp only [step, removePrinter]
    split_ifs with hmem
    · have hdf : box.data.valueAt ["default_printer"] ≠ .str name := by
        simpa [risky, hmem] using hc
      split
      · rename_i ps hps
        exact h.remove hps hdf
      · exact ⟨h.sound, h.named, h.tame, h.started,
          fun n hn => h.panel n (List.mem_filter.mp hn).1⟩
    · exact h
  | restart =>
    obtain ⟨out, -, hout, hkin, hsound⟩ := startup_of_sound b path h.sound h.named h.tame h.started
    simp only [step, hout]
    refine ⟨hsound, hkin.named h.named, hkin.tame h.tame, hkin.started h.started,
      fun name hmem => ?_⟩
    split_ifs at hmem
    · exact keys_present hsound.obj hmem
    · cases hmem

end GuppyScreen.PrinterSelect
