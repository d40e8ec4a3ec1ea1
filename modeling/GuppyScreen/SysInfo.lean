import GuppyScreen.Config.Migration
import GuppyScreen.UpdateCheck

/-!
# The settings panel (sysinfo_panel.cpp)

The panel is built from the configuration that `Config::init` leaves. A touch changes what
it shows and stores the option, and the whole configuration is written to its file. The
next start reads that file through `Config::init` again.
-/

namespace GuppyScreen.SysInfo
open Lib Pointer Config

/-! ### The options -/

def logLevels : List String := ["trace", "debug", "info"]

def themes : List String := ["blue", "red", "green", "purple", "pink", "yellow"]

def sleepLabels : List String :=
  ["Never", "5 Minutes", "10 Minutes", "30 Minutes", "1 Hour", "5 Hours"]

def sleepsecToDdIdx : List (ℤ × ℕ) :=
  [(-1, 0), (300, 1), (600, 2), (1800, 3), (3600, 4), (18000, 5)]

def sleepLabelToSec : List (String × ℤ) :=
  [("Never", -1), ("5 Minutes", 300), ("10 Minutes", 600), ("30 Minutes", 1800), ("1 Hour", 3600),
    ("5 Hours", 18000)]

def updateLabels : List String := ["Hourly", "6 Hours", "12 Hours", "Daily", "Weekly"]

def updateHoursToDdIdx : List (ℤ × ℕ) := [(1, 0), (6, 1), (12, 2), (24, 3), (168, 4)]

def updateLabelToHours : List (String × ℤ) :=
  [("Hourly", 1), ("6 Hours", 6), ("12 Hours", 12), ("Daily", 24), ("Weekly", 168)]

/-- The `...Dd` are what the dropdowns show. -/
structure SysInfoPanel where
  sleepDd : ℕ
  loglevelDd : ℕ
  loglevel : ℕ
  promptEstop : Bool
  zIcon : Bool
  updateCheck : Bool
  intervalDd : ℕ
  themeDd : ℕ
  theme : ℕ
  deriving DecidableEq

/-! ### Building the panel: `none` where a `get` throws -/

def readSleep : Json → Option ℕ
  | .null => some 0
  | v => (KUtils.asInt v).map fun sec => (sleepsecToDdIdx.lookup sec).getD 0

/-- `loglevel` and the dropdown, which an unknown name leaves where it starts. -/
def readLevel : Json → Option (ℕ × ℕ)
  | .null => some (1, 1)
  | .str name =>
    match logLevels.idxOf? name with
    | some i => some (i, i)
    | none => some (1, 0)
  | _ => none

def readToggle (absent : Bool) : Json → Option Bool
  | .null => some absent
  | .bool b => some b
  | _ => none

def readInterval (v : Json) : ℕ :=
  if v.isNumber then (updateHoursToDdIdx.lookup (KUtils.toInt v)).getD 0 else 3

def readTheme : Json → Option ℕ
  | .null => some 0
  | .str name => some ((themes.idxOf? name).getD 0)
  | _ => none

def levelPtr (df : String) : Option (List String) := parse (df ++ "log_level")

def levelJson (df : String) (data : Json) : Option Json :=
  if (data.valueAt ["default_printer"]).isEmpty then some .null
  else (levelPtr df).map data.valueAt

def construct (df : String) (data : Json) : Option SysInfoPanel := do
  let sleep ← readSleep (data.valueAt ["display_sleep_sec"])
  let level ← (levelJson df data).bind readLevel
  let prompt ← readToggle true (data.valueAt ["prompt_emergency_stop"])
  let zIcon ← readToggle false (data.valueAt ["invert_z_arrows"])
  let updateCheck ← readToggle true (data.valueAt ["update_check_enabled"])
  let theme ← readTheme (data.valueAt ["theme"])
  some
    { sleepDd := sleep
      loglevelDd := level.2
      loglevel := level.1
      promptEstop := prompt
      zIcon := zIcon
      updateCheck := updateCheck
      intervalDd := readInterval (data.valueAt ["update_check_interval_hours"])
      themeDd := theme
      theme := theme }

/-! ### The program -/

/-- `df` is the member of `Config`, which `init` sets. -/
structure Program where
  data : Json
  df : String
  file : Json
  panel : SysInfoPanel

/-- `df()` after `init`, empty without a default printer. -/
def dfAfter (data : Json) : String := (printerOf data).elim "" dfOf

/-- `Config::init` on the file, which it writes, and the panel. -/
def start (b : Build) (path : String) (file : Json) : Option Program := do
  let data ← Config.init b path file
  let panel ← construct (dfAfter data) data
  some ⟨data, dfAfter data, data, panel⟩

def Program.restart (b : Build) (path : String) (w : Program) : Option Program :=
  start b path w.file

/-- A touch of a dropdown comes with the option chosen. -/
inductive Touch where
  | sleep (i : ℕ)
  | logLevel (i : ℕ)
  | prompt
  | zIcon
  | updateCheck
  | interval (i : ℕ)
  | theme (i : ℕ)
  deriving DecidableEq

namespace Program

/-- `set` and `save`, or neither if the pointer throws. -/
def store (w : Program) (ptr : Option (List String)) (v : Json) : Program :=
  match ptr.bind fun ptr => upsert (fun _ => v) ptr w.data with
  | none => w
  | some data => { w with data := data, file := data }

/-- `lv_dropdown_get_selected_str` and the number its text stands for. -/
def chosen (labels : List String) (values : List (String × ℤ)) (i : ℕ) : Option ℤ :=
  labels[i]?.bind fun label => values.lookup label

def step (w : Program) : Touch → Program
  | .sleep i =>
    if i < sleepLabels.length then
      let w := { w with panel := { w.panel with sleepDd := i } }
      match chosen sleepLabels sleepLabelToSec i with
      | none => w
      | some sec => w.store (some ["display_sleep_sec"]) (.int sec)
    else w
  | .logLevel i =>
    if i < logLevels.length then
      let old := w.panel.loglevel
      let w := { w with panel := { w.panel with loglevelDd := i } }
      if i ≠ old ∧ old < logLevels.length then
        let w := { w with panel := { w.panel with loglevel := i } }
        w.store (levelPtr w.df) (.str (logLevels[i]?.getD ""))
      else w
    else w
  | .prompt =>
    let b := !w.panel.promptEstop
    { w with panel := { w.panel with promptEstop := b } }.store
      (some ["prompt_emergency_stop"]) (.bool b)
  | .zIcon =>
    let b := !w.panel.zIcon
    { w with panel := { w.panel with zIcon := b } }.store (some ["invert_z_arrows"]) (.bool b)
  | .updateCheck =>
    let b := !w.panel.updateCheck
    { w with panel := { w.panel with updateCheck := b } }.store
      (some ["update_check_enabled"]) (.bool b)
  | .interval i =>
    if i < updateLabels.length then
      let w := { w with panel := { w.panel with intervalDd := i } }
      match chosen updateLabels updateLabelToHours i with
      | none => w
      | some hours => w.store (some ["update_check_interval_hours"]) (.int hours)
    else w
  | .theme i =>
    if i < themes.length then
      let old := w.panel.theme
      let w := { w with panel := { w.panel with themeDd := i } }
      if i ≠ old then
        let w := { w with panel := { w.panel with theme := i } }
        w.store (some ["theme"]) (.str (themes[i]?.getD ""))
      else w
    else w

end Program

/-! ### The options where they are used -/

/-- `should_prompt` of a `ButtonContainer` whose prompt is optional. -/
def shouldPrompt : Json → Option Bool := readToggle false

/-- The file of the theme, beside the configuration. -/
def themeFile (v : Json) : Option String :=
  if v.isEmpty then some "blue.json" else v.str?.map (· ++ ".json")

/-- The time `loop` waits, in seconds: every negative one is never, `-1`. -/
def displaySleep (sec : ℤ) : ℤ := if sec < 0 then -1 else sec

/-- The hours that `UpdateCheck::reconfigure` sets its timer for, if the check is on. -/
def pollHours (data : Json) : Option ℤ :=
  match UpdateCheck.checkEnabled (data.valueAt ["update_check_enabled"]) with
  | some true => some (UpdateCheck.intervalHours (data.valueAt ["update_check_interval_hours"]))
  | _ => none

/-- What the program runs with: `prompts` is read by each button when it is made, and `sleep`
once by `loop`. The panels that move Z read their option whenever they are opened. -/
structure Used where
  prompts : Option Bool
  sleep : Option ℤ
  poll : Option ℤ
  theme : Option String

def Used.read (data : Json) : Used where
  prompts := shouldPrompt (data.valueAt ["prompt_emergency_stop"])
  sleep := (KUtils.asInt (data.valueAt ["display_sleep_sec"])).map displaySleep
  poll := pollHours data
  theme := themeFile (data.valueAt ["theme"])

structure Session where
  program : Program
  used : Used

namespace Session

def start (b : Build) (path : String) (file : Json) : Option Session :=
  (SysInfo.start b path file).map fun w => ⟨w, .read w.data⟩

def restart (b : Build) (path : String) (s : Session) : Option Session :=
  start b path s.program.file

/-- The check is set up again, and the theme loaded, with the touch; nothing else is. -/
def step (s : Session) (t : Touch) : Session :=
  let w := s.program.step t
  match t with
  | .updateCheck => ⟨w, { s.used with poll := pollHours w.data }⟩
  | .interval i =>
    if (Program.chosen updateLabels updateLabelToHours i).isSome then
      ⟨w, { s.used with poll := pollHours w.data }⟩
    else ⟨w, s.used⟩
  | .theme i =>
    if i < themes.length ∧ i ≠ s.program.panel.theme then
      ⟨w, { s.used with theme := themes[i]?.map (· ++ ".json") }⟩
    else ⟨w, s.used⟩
  | _ => ⟨w, s.used⟩

end Session

/-! ### A configuration that `init` leaves as it is -/

structure Steady (b : Build) (path : String) (name : Option String) (d : Json) : Prop where
  ready : Ready name d
  plain : ∀ n, name = some n → Text.Lacks '/' n ∧ Text.Lacks '~' n
  default : d.at? ["default_printer"] = some (name.elim .null .str)
  seat : d.at? ["config_path"] = some (.str path)
  top : ∀ s ∈ seeds ++ screen b, Settled "" s d
  printer : ∀ n, name = some n → ∀ s ∈ backfill, Settled n s d

theorem steady_init {b : Build} {path : String} {j out : Json} (hready : Ready (printerOf j) j)
    (hname : ∀ n, printerOf j = some n → Text.Lacks '/' n ∧ Text.Lacks '~' n)
    (hinit : Config.init b path j = some out) : Steady b path (printerOf j) out := by
  obtain ⟨d, e, hd, he, hout⟩ := init_parts hready hinit
  obtain ⟨-, -, hreadyd, hseeds, hsamed⟩ := seeds_fill hready hd
  have hseat := valueAt_name hreadyd.obj hsamed path
  have hdf : printerOf j = printerOf (reseat path d) := by
    unfold printerOf
    rw [Json.valueAt, Json.valueAt, hseat]
    rfl
  obtain ⟨hkeeps, -, hreadyo, hback, hscreen, hnameo, hpatho⟩ :=
    tail_fills (ready_reseat hreadyd path) hdf hname he hout
  refine ⟨hreadyo, hname, ?_, ?_, ?_, hback⟩
  · rw [hnameo, hseat]
    rcases initPrinter_cases he with ⟨hnull, hnone, -⟩ | ⟨n, hsome, hprinter, -⟩
    · rw [hdf, hnone]
      rw [Json.valueAt, hseat] at hnull
      exact congrArg some hnull
    · rw [hdf, hprinter]
      rw [Json.valueAt, hseat] at hsome
      exact congrArg some hsome
  · rw [hpatho, reseat_path]
  · intro s hs
    rcases List.mem_append.mp hs with hs | hs
    · exact settled_keeps (fills_seeds s hs) (settled_reseat hs hreadyd.obj (hseeds s hs) path)
        hkeeps hreadyo
    · exact hscreen s hs

section
variable {b : Build} {path : String} {name : Option String} {d : Json}

theorem Steady.valueAt_default (h : Steady b path name d) :
    d.valueAt ["default_printer"] = name.elim .null .str := by
  rw [Json.valueAt, h.default]
  rfl

theorem Steady.printerOf (h : Steady b path name d) : Config.printerOf d = name := by
  unfold Config.printerOf
  rw [h.valueAt_default]
  cases name <;> rfl

theorem Steady.again (h : Steady b path name d) : Config.init b path d = some d := by
  have hwf := h.ready.wf
  have hfirst : accessAll "" (seeds ++ [setPath path, readPrinter]) d = some d := by
    rw [accessAll_append]
    refine ⟨d, accessAll_settled hwf (parse_tops fills_seeds seeds_top "" "") fun s hs => ?_, ?_⟩
    · exact h.top s (List.mem_append_left _ hs)
    · rw [access_reseat h.ready.obj, reseat_self hwf h.seat h.default]
  have hsecond : initPrinter d = some d := by
    unfold initPrinter
    rw [h.valueAt_default]
    cases hname : name with
    | none => rfl
    | some n =>
      obtain ⟨hslash, htilde⟩ := h.plain n hname
      exact accessAll_settled hwf (parse_backfill hslash htilde) (h.printer n hname)
  have hthird : accessAll "" (screen b) d = some d :=
    accessAll_settled hwf (parse_tops (fills_screen b) (screen_top b) "" "") fun s hs =>
      h.top s (List.mem_append_right _ hs)
  unfold Config.init
  rw [hfirst]
  show (initPrinter d).bind _ = _
  rw [hsecond]
  exact hthird

/-- A write that the steps of `init` do not undo. -/
structure Clear (b : Build) (name : Option String) (ptr : List String) (v : Json) : Prop where
  wf : v.Wf
  nonnull : v ≠ .null
  default : Apart ["default_printer"] ptr
  seat : Apart ["config_path"] ptr
  macros : ∀ n, Apart ["printers", n, "default_macros"] ptr
  top : ∀ s ∈ seeds ++ screen b, Apart (s.tokens "") ptr ∨ (s.tokens "" = ptr ∧ s.act v = v)
  printer : ∀ n, name = some n → ∀ s ∈ backfill,
    Apart (s.tokens n) ptr ∨ (s.tokens n = ptr ∧ s.act v = v)

theorem settled_write {v k : Json} {ptr : List String} {n : String} {s : Step} (hs : s.Fills)
    (h : Settled n s d) (hready : Ready name k) (hp : Plain ptr d)
    (hk : upsert (fun _ => v) ptr d = some k) (hv : v ≠ .null)
    (hclear : Apart (s.tokens n) ptr ∨ (s.tokens n = ptr ∧ s.act v = v)) : Settled n s k := by
  rcases hclear with hapart | ⟨hsame, hact⟩
  · obtain ⟨w, hw, hrest⟩ := h.value
    have hkw := (at?_upsert_apart hp hk hapart).trans hw
    exact ⟨plain_of_value hready hs hkw, w, hkw, hrest⟩
  · have hkv := at?_upsert hp hk
    rw [← hsame] at hkv
    exact ⟨plain_of_value hready hs hkv, v, hkv, hv, hact⟩

theorem Steady.write {v k : Json} {ptr : List String} (h : Steady b path name d)
    (hclear : Clear b name ptr v) (hp : Plain ptr d) (hk : upsert (fun _ => v) ptr d = some k)
    (hobj : k.isObject = true) (hprinters : (k.valueAt ["printers"]).isObject = true) :
    Steady b path name k := by
  have hready : Ready name k := by
    refine ⟨wf_upsert (fun _ _ => hclear.wf) h.ready.wf hp hk, hobj, hprinters, fun n hn => ?_⟩
    rw [Json.valueAt, at?_upsert_apart hp hk (hclear.macros n)]
    exact h.ready.macros n hn
  refine ⟨hready, h.plain, ?_, ?_, fun s hs => ?_, fun n hn s hs => ?_⟩
  · rw [at?_upsert_apart hp hk hclear.default, h.default]
  · rw [at?_upsert_apart hp hk hclear.seat, h.seat]
  · have hfills : s.Fills := by
      rcases List.mem_append.mp hs with hs | hs
      · exact fills_seeds s hs
      · exact fills_screen b s hs
    exact settled_write hfills (h.top s hs) hready hp hk hclear.nonnull (hclear.top s hs)
  · exact settled_write (fills_backfill s hs) (h.printer n hn s hs) hready hp hk hclear.nonnull
      (hclear.printer n hn s hs)

/-! ### The options of the panel -/

/-- The options at the top of the configuration. -/
def topKeys : List String :=
  ["display_sleep_sec", "prompt_emergency_stop", "invert_z_arrows", "update_check_enabled",
    "update_check_interval_hours", "theme"]

theorem clear_top {key : String} (hkey : key ∈ topKeys) {v : Json} (hwf : v.Wf) (hv : v ≠ .null) :
    Clear b name [key] v := by
  have hfill (w : Json) : fill w v = v := fill_of_ne hv
  refine ⟨hwf, hv, ?_, ?_, fun n => ?_, fun s hs => ?_, fun n _ s hs => ?_⟩
  all_goals simp only [topKeys, List.mem_cons, List.not_mem_nil, or_false] at hkey
  · rcases hkey with rfl | rfl | rfl | rfl | rfl | rfl <;> exact .inl (by decide)
  · rcases hkey with rfl | rfl | rfl | rfl | rfl | rfl <;> exact .inl (by decide)
  · rcases hkey with rfl | rfl | rfl | rfl | rfl | rfl <;> exact .inl (by decide)
  · have htokens : s.tokens "" = [s.key] := by
      unfold Step.tokens
      rcases List.mem_append.mp hs with hs | hs
      · rw [seeds_top s hs]
      · rw [screen_top b s hs]
    have hact : s.key = key → s.act v = v := by
      rintro rfl
      simp only [seeds, screen, List.cons_append, List.nil_append, List.mem_cons,
        List.not_mem_nil, or_false] at hs
      rcases hs with rfl | rfl | rfl | rfl | rfl | rfl <;> exact hfill _
    rw [htokens]
    by_cases heq : s.key = key
    · exact .inr ⟨by rw [heq], hact heq⟩
    · exact .inl (.inl heq)
  · have hprinters : "printers" ≠ key := by
      rcases hkey with rfl | rfl | rfl | rfl | rfl | rfl <;> decide
    have hother : ∀ s ∈ backfill, Apart (s.tokens n) [key] ∨
        (s.tokens n = [key] ∧ s.act v = v) := by
      simp only [backfill, List.forall_mem_cons, Step.tokens]
      refine ⟨.inl (.inl hprinters), .inl (.inl hprinters), .inl (.inl hprinters),
        .inl (.inl hprinters), .inl (.inl hprinters), .inl (.inl hprinters),
        .inl (.inl hprinters), ?_, .inl (.inl hprinters), by simp⟩
      rcases hkey with rfl | rfl | rfl | rfl | rfl | rfl <;> exact .inl (.inl (by decide))
    exact hother s hs

def levelTokens (n : String) : List String := ["printers", n, "log_level"]

theorem clear_level {n level : String} (hname : name = some n) :
    Clear b name (levelTokens n) (.str level) := by
  have htop {key : String} (h : key ≠ "printers") : Apart [key] (levelTokens n) := .inl h
  refine ⟨trivial, by simp, htop (by decide), htop (by decide), fun m => ?_, fun s hs => ?_,
    fun m hm s hs => ?_⟩
  · exact .inr (.inr (.inl (by decide)))
  · refine .inl ?_
    have htokens : s.tokens "" = [s.key] ∧ s.key ≠ "printers" := by
      unfold Step.tokens
      rcases List.mem_append.mp hs with hs | hs
      · rw [seeds_top s hs]
        exact ⟨rfl, (fills_seeds s hs).other.1⟩
      · rw [screen_top b s hs]
        exact ⟨rfl, (fills_screen b s hs).other.1⟩
    rw [htokens.1]
    exact htop htokens.2
  · obtain rfl : n = m := Option.some.inj (hname.symm.trans hm)
    have hkeys : ∀ s ∈ backfill, Apart (s.tokens n) (levelTokens n) ∨
        (s.tokens n = levelTokens n ∧ s.act (.str level) = .str level) := by
      have hother {key : String} (h : key ≠ "log_level") :
          Apart ["printers", n, key] (levelTokens n) := .inr (.inr (.inl h))
      simp only [backfill, List.forall_mem_cons, Step.tokens]
      exact ⟨.inl (hother (by decide)), .inl (hother (by decide)), .inl (hother (by decide)),
        .inl (hother (by decide)), .inl (hother (by decide)), .inl (hother (by decide)),
        .inl (hother (by decide)), .inl (htop (by decide)), .inr ⟨rfl, fill_of_ne (by simp)⟩,
        by simp⟩
    exact hkeys s hs

theorem levelPtr_dfOf {n : String} (h : Text.Lacks '/' n ∧ Text.Lacks '~' n) :
    levelPtr (dfOf n) = some (levelTokens n) :=
  parse_printer (s := ⟨.printer, "log_level", id⟩) rfl (by decide) (by decide) h.1 h.2

theorem levelPtr_empty : levelPtr "" = none := by decide

theorem Steady.set (h : Steady b path name d) {key : String} (hkey : key ∈ topKeys) {v : Json}
    (hwf : v.Wf) (hv : v ≠ .null) : Steady b path name (d.set key v) := by
  have hprinters : "printers" ≠ key := by
    simp only [topKeys, List.mem_cons, List.not_mem_nil, or_false] at hkey
    rcases hkey with rfl | rfl | rfl | rfl | rfl | rfl <;> decide
  refine h.write (clear_top hkey hwf hv) (plain_top h.ready.obj key) ?_ rfl ?_
  · exact upsert_top h.ready.obj key
  · rw [Json.valueAt, at?_set_ne h.ready.obj hprinters]
    exact h.ready.printers

theorem Steady.setLevel {n : String} (h : Steady b path (some n) d) (level : String) :
    ∃ k, upsert (fun _ => .str level) (levelTokens n) d = some k ∧ Steady b path (some n) k ∧
      k.valueAt (levelTokens n) = .str level ∧
      ∀ key ∈ topKeys, k.valueAt [key] = d.valueAt [key] := by
  have hmem : (⟨.printer, "log_level", fill (.str "debug")⟩ : Step) ∈ backfill := by
    simp [backfill]
  have hp : Plain (levelTokens n) d := (h.printer n rfl _ hmem).plain
  obtain ⟨k, hk⟩ := upsert_some (fun _ => .str level) hp
  refine ⟨k, hk, ?_, ?_, fun key hkey => ?_⟩
  · obtain ⟨fs, v, -, hrest, hv, rfl⟩ := upsert_inv hp hk
    obtain ⟨gs, u, -, -, -, rfl⟩ := upsert_inv hrest hv
    refine h.write (clear_level rfl) hp hk rfl ?_
    rw [Json.valueAt, Json.at?_obj, Fields.find?_insert_self]
    rfl
  · rw [Json.valueAt, at?_upsert hp hk]
    rfl
  · have hapart : Apart [key] (levelTokens n) := by
      refine .inl ?_
      simp only [topKeys, List.mem_cons, List.not_mem_nil, or_false] at hkey
      rcases hkey with rfl | rfl | rfl | rfl | rfl | rfl <;> decide
    rw [Json.valueAt, Json.valueAt, at?_upsert_apart hp hk hapart]

end

/-! ### The panel and the configuration -/

/-- What the panel shows, the log level apart, is what it would read. -/
structure Shows (d : Json) (p : SysInfoPanel) : Prop where
  sleep : readSleep (d.valueAt ["display_sleep_sec"]) = some p.sleepDd
  prompt : readToggle true (d.valueAt ["prompt_emergency_stop"]) = some p.promptEstop
  zIcon : readToggle false (d.valueAt ["invert_z_arrows"]) = some p.zIcon
  updateCheck : readToggle true (d.valueAt ["update_check_enabled"]) = some p.updateCheck
  interval : readInterval (d.valueAt ["update_check_interval_hours"]) = p.intervalDd
  theme : readTheme (d.valueAt ["theme"]) = some p.theme
  themeDd : p.themeDd = p.theme

/-- A name for a level that is not in the list stays until a level other than `debug` is
chosen. -/
def LevelShows (name : Option String) (known : Bool) (touched : List ℕ) (d : Json)
    (p : SysInfoPanel) : Prop :=
  match name with
  | none => p.loglevelDd = touched.getLast?.getD 1
  | some n => ∃ level, d.valueAt (levelTokens n) = .str level ∧
      ((∃ i, logLevels.idxOf? level = some i ∧ p.loglevel = i ∧ p.loglevelDd = i ∧
          (known = true ∨ ∃ i ∈ touched, i ≠ 1)) ∨
        (logLevels.idxOf? level = none ∧ p.loglevel = 1 ∧ known = false ∧ (∀ i ∈ touched, i = 1) ∧
          p.loglevelDd = if touched = [] then 0 else 1))

def Recovers (name : Option String) (known : Bool) (touched : List ℕ) : Prop :=
  match name with
  | none => touched.getLast?.getD 1 = 1
  | some _ => known = true ∨ touched = [] ∨ ∃ i ∈ touched, i ≠ 1

structure Inv (b : Build) (path : String) (name : Option String) (known : Bool) (touched : List ℕ)
    (w : Program) : Prop where
  steady : Steady b path name w.data
  file : w.file = w.data
  df : w.df = name.elim "" dfOf
  shows : Shows w.data w.panel
  level : LevelShows name known touched w.data w.panel

def logTouch : Touch → List ℕ
  | .logLevel i => if i < logLevels.length then [i] else []
  | _ => []

theorem valueAt_set {d : Json} (hd : d.isObject = true) (s t : String) (v : Json) :
    (d.set t v).valueAt [s] = if s = t then v else d.valueAt [s] := by
  by_cases hst : s = t
  · subst hst
    rw [if_pos rfl, Json.valueAt, at?_set_self]
    rfl
  · rw [if_neg hst, Json.valueAt, at?_set_ne hd hst, Json.valueAt]

theorem store_top {w : Program} (h : w.data.isObject = true) (key : String) (v : Json) :
    w.store (some [key]) v =
      { w with
        data := w.data.set key v
        file := w.data.set key v } := by
  unfold Program.store
  rw [Option.bind_some, upsert_top h]

theorem LevelShows.set {name : Option String} {known : Bool} {touched : List ℕ} {d : Json}
    {p q : SysInfoPanel} (hd : d.isObject = true) {key : String} (hkey : "printers" ≠ key)
    (v : Json)
    (hlevel : q.loglevel = p.loglevel) (hdd : q.loglevelDd = p.loglevelDd)
    (h : LevelShows name known touched d p) : LevelShows name known touched (d.set key v) q := by
  unfold LevelShows at h ⊢
  cases name with
  | none => exact hdd.trans h
  | some n =>
    obtain ⟨level, hvalue, hrest⟩ := h
    refine ⟨level, ?_, by rwa [hlevel, hdd]⟩
    rw [← hvalue, Json.valueAt, Json.valueAt]
    exact congrArg (Option.getD · _) (at?_set_ne hd hkey v _)

section
variable {b : Build} {path : String} {name : Option String} {known : Bool} {touched : List ℕ}
  {w : Program}

/-- A touch that stores one of the options at the top. -/
theorem Inv.store (h : Inv b path name known touched w) {key : String} (hkey : key ∈ topKeys)
    {v : Json} (hwf : v.Wf) (hv : v ≠ .null) {p : SysInfoPanel}
    (hlevel : p.loglevel = w.panel.loglevel) (hdd : p.loglevelDd = w.panel.loglevelDd)
    (hshows : Shows (w.data.set key v) p) :
    Inv b path name known touched ({ w with panel := p }.store (some [key]) v) := by
  have hobj := h.steady.ready.obj
  have hprinters : "printers" ≠ key := by
    simp only [topKeys, List.mem_cons, List.not_mem_nil, or_false] at hkey
    rcases hkey with rfl | rfl | rfl | rfl | rfl | rfl <;> decide
  rw [store_top (w := { w with panel := p }) hobj]
  exact ⟨h.steady.set hkey hwf hv, rfl, h.df, hshows, h.level.set hobj hprinters v hlevel hdd⟩

theorem readToggle_bool (absent b : Bool) : readToggle absent (.bool b) = some b := rfl

theorem readSleep_chosen : ∀ i < sleepLabels.length,
    (Program.chosen sleepLabels sleepLabelToSec i).bind (fun sec => readSleep (.int sec)) =
      some i := by
  decide +kernel

theorem readInterval_chosen : ∀ i < updateLabels.length,
    (Program.chosen updateLabels updateLabelToHours i).map
      (fun hours => readInterval (.int hours)) =
      some i := by
  decide +kernel

theorem readTheme_chosen : ∀ i < themes.length,
    readTheme (.str (themes[i]?.getD "")) = some i := by
  decide

theorem level_chosen : ∀ i < logLevels.length,
    logLevels.idxOf? (logLevels[i]?.getD "") = some i := by
  decide

/-- The options other than the log level are shown whatever the log level is. -/
theorem Shows.frame {d k : Json} {p q : SysInfoPanel} (h : Shows d p)
    (hd : ∀ key ∈ topKeys, k.valueAt [key] = d.valueAt [key])
    (hq : { q with
        loglevelDd := p.loglevelDd
        loglevel := p.loglevel } = p) : Shows k q := by
  rw [← hq] at h
  refine ⟨?_, ?_, ?_, ?_, ?_, ?_, h.themeDd⟩
  · rw [hd _ (by decide)]
    exact h.sleep
  · rw [hd _ (by decide)]
    exact h.prompt
  · rw [hd _ (by decide)]
    exact h.zIcon
  · rw [hd _ (by decide)]
    exact h.updateCheck
  · rw [hd _ (by decide)]
    exact h.interval
  · rw [hd _ (by decide)]
    exact h.theme

theorem Inv.logLevel (h : Inv b path name known touched w) {i : ℕ} (hi : i < logLevels.length) :
    Inv b path name known (touched ++ [i]) (w.step (.logLevel i)) := by
  have hlevel := h.level
  simp only [Program.step, if_pos hi]
  cases name with
  | none =>
    -- the pointer does not parse, and nothing is stored
    have hptr : levelPtr w.df = none := by
      rw [h.df]
      exact levelPtr_empty
    split_ifs
    · simp only [Program.store, hptr, Option.bind_none]
      exact ⟨h.steady, h.file, h.df, h.shows.frame (fun _ _ => rfl) rfl, by simp [LevelShows]⟩
    · exact ⟨h.steady, h.file, h.df, h.shows.frame (fun _ _ => rfl) rfl, by simp [LevelShows]⟩
  | some n =>
    obtain ⟨level, hvalue, hrest⟩ := hlevel
    split_ifs with hnew
    · obtain ⟨k, hk, hsteady, hkvalue, hsame⟩ := h.steady.setLevel (logLevels[i]?.getD "")
      have hptr : levelPtr w.df = some (levelTokens n) := by
        rw [h.df]
        exact levelPtr_dfOf (h.steady.plain n rfl)
      have hchosen := level_chosen i hi
      unfold Program.store
      simp only [hptr, Option.bind_some, hk]
      refine ⟨hsteady, rfl, h.df, h.shows.frame hsame rfl, _, hkvalue,
        .inl ⟨i, hchosen, rfl, rfl, ?_⟩⟩
      rcases hrest with ⟨-, -, -, -, hknown | ⟨l, hl, hne⟩⟩ | ⟨-, hone, -, -, -⟩
      · exact .inl hknown
      · exact .inr ⟨l, List.mem_append_left _ hl, hne⟩
      · exact .inr ⟨i, by simp, by rw [← hone]; exact hnew.1⟩
    · refine ⟨h.steady, h.file, h.df, h.shows.frame (fun _ _ => rfl) rfl, level, hvalue, ?_⟩
      rcases hrest with ⟨l, hl, hlevel, hdd, hwhy⟩ | ⟨hl, hone, hunknown, hall, hdd⟩
      · have hlen : l < logLevels.length := by
          obtain ⟨hlt, -⟩ := List.findIdx?_eq_some_iff_getElem.mp hl
          exact hlt
        have hil : i = l := by
          by_contra hne
          exact hnew ⟨by rw [hlevel]; exact hne, by rw [hlevel]; exact hlen⟩
        refine .inl ⟨l, hl, hlevel, hil, hwhy.imp_right ?_⟩
        rintro ⟨m, hm, hne⟩
        exact ⟨m, List.mem_append_left _ hm, hne⟩
      · have hi1 : i = 1 := by
          by_contra hne
          exact hnew ⟨by rw [hone]; exact hne, by rw [hone]; decide⟩
        refine .inr ⟨hl, hone, hunknown, ?_, by simp [hi1]⟩
        intro m hm
        rcases List.mem_append.mp hm with hm | hm
        · exact hall m hm
        · rw [List.mem_singleton.mp hm, hi1]

theorem Inv.step (h : Inv b path name known touched w) (t : Touch) :
    Inv b path name known (touched ++ logTouch t) (w.step t) := by
  have hobj := h.steady.ready.obj
  have hs := h.shows
  cases t with
  | logLevel i =>
    by_cases hi : i < logLevels.length
    · simpa only [logTouch, if_pos hi] using h.logLevel hi
    · simpa only [logTouch, Program.step, if_neg hi, List.append_nil] using h
  | sleep i =>
    simp only [logTouch, List.append_nil, Program.step]
    split_ifs with hi
    · obtain ⟨sec, hsec, hread⟩ := Option.bind_eq_some_iff.mp (readSleep_chosen i hi)
      rw [hsec]
      refine h.store (by decide) (by trivial) (by simp) rfl rfl ?_
      constructor <;> simp [valueAt_set hobj, hs.prompt, hs.zIcon, hs.updateCheck, hs.interval,
        hs.theme, hs.themeDd, hread]
    · exact h
  | interval i =>
    simp only [logTouch, List.append_nil, Program.step]
    split_ifs with hi
    · obtain ⟨hours, hhours, hread⟩ := Option.map_eq_some_iff.mp (readInterval_chosen i hi)
      rw [hhours]
      refine h.store (by decide) (by trivial) (by simp) rfl rfl ?_
      constructor <;> simp [valueAt_set hobj, hs.prompt, hs.zIcon, hs.updateCheck, hs.sleep,
        hs.theme, hs.themeDd, hread]
    · exact h
  | prompt =>
    simp only [logTouch, List.append_nil, Program.step]
    refine h.store (by decide) (by trivial) (by simp) rfl rfl ?_
    constructor <;> simp [valueAt_set hobj, hs.sleep, hs.zIcon, hs.updateCheck, hs.interval,
      hs.theme, hs.themeDd, readToggle_bool]
  | zIcon =>
    simp only [logTouch, List.append_nil, Program.step]
    refine h.store (by decide) (by trivial) (by simp) rfl rfl ?_
    constructor <;> simp [valueAt_set hobj, hs.sleep, hs.prompt, hs.updateCheck, hs.interval,
      hs.theme, hs.themeDd, readToggle_bool]
  | updateCheck =>
    simp only [logTouch, List.append_nil, Program.step]
    refine h.store (by decide) (by trivial) (by simp) rfl rfl ?_
    constructor <;> simp [valueAt_set hobj, hs.sleep, hs.prompt, hs.zIcon, hs.interval,
      hs.theme, hs.themeDd, readToggle_bool]
  | theme i =>
    simp only [logTouch, List.append_nil, Program.step]
    split_ifs with hi hnew
    · refine h.store (by decide) (by trivial) (by simp) rfl rfl ?_
      constructor <;> simp [valueAt_set hobj, hs.sleep, hs.prompt, hs.zIcon, hs.updateCheck,
        hs.interval, readTheme_chosen i hi]
    · have hsame : i = w.panel.theme := by simpa using hnew
      refine ⟨h.steady, h.file, h.df, ?_, h.level⟩
      exact ⟨hs.sleep, hs.prompt, hs.zIcon, hs.updateCheck, hs.interval, hs.theme, hsame⟩
    · exact h

theorem Inv.run (h : Inv b path name known touched w) (ts : List Touch) :
    Inv b path name known (touched ++ ts.flatMap logTouch) (Run.run Program.step w ts) := by
  induction ts generalizing touched w with
  | nil => simpa using h
  | cons t ts ih =>
    rw [Run.run_cons, List.flatMap_cons, ← List.append_assoc]
    exact ih (h.step t)

theorem construct_eq_some {df : String} {d : Json} {p : SysInfoPanel} :
    construct df d = some p ↔
      Shows d p ∧ (levelJson df d).bind readLevel = some (p.loglevel, p.loglevelDd) := by
  unfold construct
  simp only [Option.bind_eq_bind, Option.bind_eq_some_iff, Option.some.injEq, Prod.exists]
  constructor
  · rintro ⟨sleep, hsleep, l, dd, hlevel, prompt, hprompt, zIcon, hz, check, hcheck, theme,
      htheme, rfl⟩
    exact ⟨⟨hsleep, hprompt, hz, hcheck, rfl, htheme, rfl⟩, hlevel⟩
  · rintro ⟨h, hlevel⟩
    refine ⟨_, h.sleep, _, _, hlevel, _, h.prompt, _, h.zIcon, _, h.updateCheck, _, h.theme, ?_⟩
    rw [h.interval]
    cases p
    simpa using h.themeDd.symm

theorem levelJson_none (h : Steady b path none w.data) (df : String) :
    levelJson df w.data = some .null := by
  unfold levelJson
  rw [h.valueAt_default]
  rfl

theorem levelJson_some {n : String} (h : Steady b path (some n) w.data) :
    levelJson (dfOf n) w.data = some (w.data.valueAt (levelTokens n)) := by
  unfold levelJson
  rw [h.valueAt_default, levelPtr_dfOf (h.plain n rfl)]
  rfl

end

/-- After these choices of a level the one shown is the one stored: without a default printer
none is stored, and `debug` is not while the level has a name that is not in the list. -/
def LevelKept (w : Program) (touched : List ℕ) : Prop :=
  match levelJson w.df w.data with
  | some (.str level) => level ∈ logLevels ∨ touched = [] ∨ ∃ i ∈ touched, i ≠ 1
  | _ => touched.getLast?.getD 1 = 1

section
variable {b : Build} {path : String} {j : Json} {w : Program}

theorem steady_level {n : String} {d : Json} (h : Steady b path (some n) d) :
    d.valueAt (levelTokens n) ≠ .null := by
  have hmem : (⟨.printer, "log_level", fill (.str "debug")⟩ : Step) ∈ backfill := by
    simp [backfill]
  obtain ⟨v, hv, hne, -⟩ := (h.printer n rfl _ hmem).value
  have hat : d.at? (levelTokens n) = some v := hv
  rwa [Json.valueAt, hat]

theorem levelShows_start {name : Option String} (h : Steady b path name w.data)
    (hdf : w.df = name.elim "" dfOf)
    (hlevel : (levelJson w.df w.data).bind readLevel =
      some (w.panel.loglevel, w.panel.loglevelDd)) :
    ∃ known, LevelShows name known [] w.data w.panel ∧ ∀ touched,
      LevelKept w touched ↔ Recovers name known touched := by
  unfold LevelKept
  cases name with
  | none =>
    rw [levelJson_none h] at hlevel ⊢
    refine ⟨false, ?_, fun _ => Iff.rfl⟩
    simp only [Option.bind_some, readLevel, Option.some.injEq, Prod.mk.injEq] at hlevel
    exact hlevel.2.symm
  | some n =>
    have hdf : w.df = dfOf n := hdf
    rw [hdf, levelJson_some h] at hlevel ⊢
    have hne := steady_level h
    rw [Option.bind_some] at hlevel
    unfold readLevel at hlevel
    split at hlevel
    · rename_i hnull
      exact absurd hnull hne
    · rename_i level hvalue
      rw [hvalue]
      refine ⟨level ∈ logLevels, ⟨level, hvalue, ?_⟩, fun touched => by simp [Recovers]⟩
      cases hidx : logLevels.idxOf? level with
      | some i =>
        rw [hidx] at hlevel
        simp only [Option.some.injEq, Prod.mk.injEq] at hlevel
        have hmem : level ∈ logLevels := by
          by_contra hno
          rw [List.idxOf?_eq_none_iff.mpr hno] at hidx
          cases hidx
        exact .inl ⟨i, rfl, hlevel.1.symm, hlevel.2.symm, .inl (by simpa using hmem)⟩
      | none =>
        rw [hidx] at hlevel
        simp only [Option.some.injEq, Prod.mk.injEq] at hlevel
        have hno := List.idxOf?_eq_none_iff.mp hidx
        exact .inr ⟨rfl, hlevel.1.symm, by simpa using hno, by simp, by simp [← hlevel.2]⟩
    · cases hlevel

theorem inv_start (hready : Ready (printerOf j) j)
    (hname : ∀ n, printerOf j = some n → Text.Lacks '/' n ∧ Text.Lacks '~' n)
    (hstart : start b path j = some w) :
    ∃ known, Inv b path (printerOf j) known [] w ∧ ∀ touched,
      LevelKept w touched ↔ Recovers (printerOf j) known touched := by
  unfold start at hstart
  simp only [Option.bind_eq_bind, Option.bind_eq_some_iff, Option.some.injEq] at hstart
  obtain ⟨out, hinit, p, hconstruct, rfl⟩ := hstart
  have hsteady := steady_init hready hname hinit
  obtain ⟨hshows, hlevel⟩ := construct_eq_some.mp hconstruct
  have hdf : dfAfter out = (printerOf j).elim "" dfOf := by
    unfold dfAfter
    rw [hsteady.printerOf]
  obtain ⟨known, hknown, hkept⟩ :=
    levelShows_start (w := ⟨out, dfAfter out, out, p⟩) hsteady hdf hlevel
  exact ⟨known, ⟨hsteady, rfl, hdf, hshows, hknown⟩, hkept⟩

theorem level_restart {name : Option String} {known : Bool} {touched : List ℕ}
    (h : Inv b path name known touched w) :
    ∃ l dd, (levelJson w.df w.data).bind readLevel = some (l, dd) ∧
      (dd = w.panel.loglevelDd ↔ Recovers name known touched) := by
  have hlevel := h.level
  cases name with
  | none =>
    rw [levelJson_none h.steady]
    have hlevel : w.panel.loglevelDd = touched.getLast?.getD 1 := hlevel
    exact ⟨1, 1, rfl, by rw [hlevel]; exact eq_comm⟩
  | some n =>
    have hdf : w.df = dfOf n := h.df
    obtain ⟨level, hvalue, hrest⟩ := hlevel
    rw [hdf, levelJson_some h.steady, hvalue, Option.bind_some]
    rcases hrest with ⟨i, hi, -, hdd, hwhy⟩ | ⟨hnone, -, hknown, hall, hdd⟩
    · refine ⟨i, i, by simp [readLevel, hi], ?_⟩
      simp only [hdd, Recovers, true_iff]
      exact hwhy.imp_right .inr
    · refine ⟨1, 0, by simp [readLevel, hnone], ?_⟩
      rw [hdd]
      have hno : ¬ ∃ i ∈ touched, i ≠ 1 := fun ⟨i, hi, hne⟩ => hne (hall i hi)
      simp only [Recovers, hknown, Bool.false_eq_true, false_or, hno, or_false]
      split_ifs with hnil <;> simp [hnil]

-- A level that the list does not have.
def quietConfig : Json :=
  .obj (.cons "default_printer" (.str "k1") (.cons "log_path" (.str "/tmp/guppyscreen.log")
    (.cons "printers" (.obj (.cons "k1" (.obj (.cons "log_level" (.str "warn") .nil)) .nil)) .nil)))

theorem quietConfig_ready : Ready (printerOf quietConfig) quietConfig :=
  ⟨by decide, rfl, rfl, fun _ hn => by
    obtain rfl := Option.some.inj hn
    exact .inl (by decide)⟩

theorem quietConfig_name (n : String) (hn : printerOf quietConfig = some n) :
    Text.Lacks '/' n ∧ Text.Lacks '~' n := by
  obtain rfl := Option.some.inj hn
  decide

theorem quietConfig_starts : ∃ w, start ⟨false, false⟩ "guppyconfig.json" quietConfig = some w := by
  apply Option.isSome_iff_exists.mp
  decide +kernel

theorem Inv.restart {name : Option String} {known : Bool} {touched : List ℕ}
    (h : Inv b path name known touched w) :
    ∃ v, w.restart b path = some v ∧ v.data = w.data ∧
      { v.panel with
        loglevel := w.panel.loglevel
        loglevelDd := w.panel.loglevelDd } = w.panel ∧
      (v.panel.loglevelDd = w.panel.loglevelDd ↔ Recovers name known touched) := by
  obtain ⟨l, dd, hlevel, hdd⟩ := level_restart h
  have hagain := h.steady.again
  have hdf : dfAfter w.data = w.df := by
    unfold dfAfter
    rw [h.steady.printerOf, h.df]
  have hconstruct : construct w.df w.data =
      some { w.panel with
        loglevel := l
        loglevelDd := dd } := by
    refine construct_eq_some.mpr ⟨?_, hlevel⟩
    have hs := h.shows
    exact ⟨hs.sleep, hs.prompt, hs.zIcon, hs.updateCheck, hs.interval, hs.theme, hs.themeDd⟩
  have hrestart : w.restart b path = some
      ⟨w.data, w.df, w.data, { w.panel with
        loglevel := l
        loglevelDd := dd }⟩ := by
    unfold Program.restart start
    rw [h.file, hagain]
    simp only [Option.bind_eq_bind, Option.bind_some, hdf, hconstruct]
  exact ⟨_, hrestart, rfl, rfl, hdd⟩

/-- Whatever is touched, the next start changes nothing in the configuration, and its panel
shows what the last one showed, the log level in these cases only. -/
theorem restart_shows (hready : Ready (printerOf j) j)
    (hname : ∀ n, printerOf j = some n → Text.Lacks '/' n ∧ Text.Lacks '~' n)
    (hstart : start b path j = some w) (ts : List Touch) :
    ∃ v, (Run.run Program.step w ts).restart b path = some v ∧
      v.data = (Run.run Program.step w ts).data ∧
      { v.panel with
        loglevel := (Run.run Program.step w ts).panel.loglevel
        loglevelDd := (Run.run Program.step w ts).panel.loglevelDd } =
          (Run.run Program.step w ts).panel ∧
      (v.panel.loglevelDd = (Run.run Program.step w ts).panel.loglevelDd ↔
        LevelKept w (ts.flatMap logTouch)) := by
  obtain ⟨known, hinv, hkept⟩ := inv_start hready hname hstart
  have hrun := hinv.run ts
  rw [List.nil_append] at hrun
  obtain ⟨v, hrestart, hdata, hpanel, hdd⟩ := hrun.restart
  exact ⟨v, hrestart, hdata, hpanel, hdd.trans (hkept _).symm⟩

theorem quietConfig_restarts :
    ∃ w, start ⟨false, false⟩ "guppyconfig.json" quietConfig = some w ∧
      ∃ v, (Run.run Program.step w [.logLevel 1, .sleep 0]).restart ⟨false, false⟩
          "guppyconfig.json" = some v ∧
        v.data = (Run.run Program.step w [.logLevel 1, .sleep 0]).data ∧
        (v.panel.loglevelDd = (Run.run Program.step w [.logLevel 1, .sleep 0]).panel.loglevelDd ↔
          LevelKept w [1]) := by
  obtain ⟨w, hw⟩ := quietConfig_starts
  obtain ⟨v, hv, hdata, -, hlevel⟩ :=
    restart_shows quietConfig_ready quietConfig_name hw [.logLevel 1, .sleep 0]
  exact ⟨w, hw, v, hv, hdata, hlevel⟩

/-! ### What is shown and what is used -/

theorem lookup_lt {n : ℕ} (hn : 0 < n) {l : List (ℤ × ℕ)} (h : ∀ e ∈ l, e.2 < n) (a : ℤ) :
    (l.lookup a).getD 0 < n := by
  cases hl : l.lookup a with
  | none => exact hn
  | some i =>
    obtain ⟨as, bs, rfl, -⟩ := List.lookup_eq_some_iff.mp hl
    exact h (a, i) (by simp)

theorem sleep_shown {v : Json} (hv : v ≠ .null) {dd : ℕ} (h : readSleep v = some dd) :
    (KUtils.asInt v).map displaySleep = Program.chosen sleepLabels sleepLabelToSec dd ↔
      ∃ i < sleepLabels.length,
        (KUtils.asInt v).map displaySleep = Program.chosen sleepLabels sleepLabelToSec i := by
  have htable : ∀ i < sleepLabels.length,
      (Program.chosen sleepLabels sleepLabelToSec i).map
        (fun sec => (sleepsecToDdIdx.lookup sec).getD 0) = some i := by
    decide
  have hlow : ∀ sec < 0, (sleepsecToDdIdx.lookup sec).getD 0 = 0 := by
    intro sec hsec
    have hne {n : ℤ} (hn : 0 ≤ n) : (sec == n) = false := by
      rw [beq_eq_false_iff_ne]
      omega
    by_cases hnever : sec = -1
    · rw [hnever]
      rfl
    · have hnever' : (sec == -1) = false := by simpa using hnever
      simp [sleepsecToDdIdx, List.lookup_cons, hne, hnever']
  have hread : readSleep v = (KUtils.asInt v).map fun sec =>
      (sleepsecToDdIdx.lookup sec).getD 0 := by
    cases v with
    | null => exact absurd rfl hv
    | _ => rfl
  rw [hread] at h
  obtain ⟨sec, hsec, rfl⟩ := Option.map_eq_some_iff.mp h
  refine ⟨fun heq => ⟨_, lookup_lt (by decide) (by decide) sec, heq⟩, ?_⟩
  rintro ⟨i, hi, heq⟩
  have hsame := htable i hi
  rw [← heq, hsec] at hsame
  have hdd : (sleepsecToDdIdx.lookup sec).getD 0 = i := by
    rw [← Option.some.inj hsame]
    show _ = (sleepsecToDdIdx.lookup (displaySleep sec)).getD 0
    unfold displaySleep
    split_ifs with hneg
    · exact hlow sec hneg
    · rfl
  rw [hdd]
  exact heq

section
variable {name : Option String} {known : Bool} {touched : List ℕ}

theorem Inv.filled (h : Inv b path name known touched w) {key : String} (default : Json)
    (hmem : (⟨.top, key, fill default⟩ : Step) ∈ seeds ++ screen b) :
    w.data.valueAt [key] ≠ .null := by
  obtain ⟨v, hv, hne, -⟩ := (h.steady.top _ hmem).value
  have hat : w.data.at? [key] = some v := hv
  rwa [Json.valueAt, hat]

theorem Inv.prompts (h : Inv b path name known touched w) :
    shouldPrompt (w.data.valueAt ["prompt_emergency_stop"]) = some w.panel.promptEstop := by
  have hne : w.data.valueAt ["prompt_emergency_stop"] ≠ .null := by
    apply h.filled (.bool true)
    simp [screen]
  have hprompt := h.shows.prompt
  unfold shouldPrompt
  cases hv : w.data.valueAt ["prompt_emergency_stop"] with
  | null => exact absurd hv hne
  | bool b =>
    rw [hv] at hprompt
    exact hprompt
  | _ =>
    rw [hv] at hprompt
    cases hprompt

theorem Inv.sleep (h : Inv b path name known touched w) :
    (Used.read w.data).sleep = Program.chosen sleepLabels sleepLabelToSec w.panel.sleepDd ↔
      ∃ i < sleepLabels.length,
        (Used.read w.data).sleep = Program.chosen sleepLabels sleepLabelToSec i := by
  refine sleep_shown (h.filled (.int 600) ?_) h.shows.sleep
  simp [screen]

theorem Inv.check (h : Inv b path name known touched w) :
    UpdateCheck.checkEnabled (w.data.valueAt ["update_check_enabled"]) =
      some w.panel.updateCheck := by
  have hcheck := h.shows.updateCheck
  cases hv : w.data.valueAt ["update_check_enabled"] with
  | null | bool b =>
    rw [hv] at hcheck
    exact hcheck
  | _ =>
    rw [hv] at hcheck
    cases hcheck

/-- What is set up again with a touch is what the configuration says. -/
structure Current (u : Session) : Prop where
  poll : u.used.poll = pollHours u.program.data
  theme : u.used.theme = themeFile (u.program.data.valueAt ["theme"])

end

end

end GuppyScreen.SysInfo
