import GuppyScreen.Lib.Pointer

/-!
# The configuration file (config.cpp)

`Config::init` on a file that exists: options that came after the file was
written are filled in with their defaults, each read through a pointer that
creates what is missing, and the result is written back.
-/

namespace GuppyScreen.Config
open Lib Pointer

def fansConf : Json :=
  .arr (.cons (.obj (.cons "display_name" (.str "Toolhead Fan")
      (.cons "id" (.str "output_pin fan0") .nil)))
    (.cons (.obj (.cons "display_name" (.str "Back Fan")
      (.cons "id" (.str "output_pin fan1") .nil)))
    (.cons (.obj (.cons "display_name" (.str "Side Fan")
      (.cons "id" (.str "output_pin fan2") .nil))) .nil)))

def sensorConf (id name color : String) (controllable : Bool) : Json :=
  .obj (.cons "color" (.str color) (.cons "controllable" (.bool controllable)
    (.cons "display_name" (.str name) (.cons "id" (.str id) .nil))))

def sensorsConf : Json :=
  .arr (.cons (sensorConf "extruder" "Extruder" "red" true)
    (.cons (sensorConf "heater_bed" "Bed" "purple" true)
    (.cons (sensorConf "temperature_sensor chamber_temp" "Chamber" "blue" false) .nil)))

def cooldown : String :=
  "SET_HEATER_TEMPERATURE HEATER=extruder TARGET=0\n" ++
    "SET_HEATER_TEMPERATURE HEATER=heater_bed TARGET=0"

def cooldownConf : Json := .obj (.cons "cooldown" (.str cooldown) .nil)

def macrosConf : Json :=
  .obj (.cons "load_filament" (.str "_GUPPY_LOAD_MATERIAL")
    (.cons "unload_filament" (.str "_GUPPY_QUIT_MATERIAL") .nil))

def ints : List ℤ → Elems
  | [] => .nil
  | n :: ns => .cons (.int n) (ints ns)

def extrudeTempsConf : Json := .arr (ints [170, 190, 200, 210, 220, 230, 240, 250, 260, 280,
    300, 320])
def extrudeLengthsConf : Json := .arr (ints [5, 10, 15, 20, 25, 30, 40, 50, 75, 100, 150, 200])
def extrudeSpeedsConf : Json := .arr (ints [1, 2, 3, 5, 8, 10, 15, 20, 25, 30, 40, 50])

/-- `GUPPY_ROTATE` and `EVDEV_CALIBRATE`. -/
structure Build where
  rotate : Bool
  evdevCalibrate : Bool

/-! ### One access -/

inductive Place where
  | top
  | printer
  deriving DecidableEq

/-- An option, and what is done to the value found for it. -/
structure Step where
  place : Place
  key : String
  act : Json → Json

def fill (default v : Json) : Json := if v = .null then default else v

-- A user's macros only gain the one that came later.
def fillMacros : Json → Json
  | .null => macrosConf.mergePatch cooldownConf
  | v => if (v.get? "cooldown").isSome then v else v.mergePatch cooldownConf

def Step.text (df : String) (s : Step) : String :=
  match s.place with
  | .top => "/" ++ s.key
  | .printer => df ++ s.key

def access (df : String) (data : Json) (s : Step) : Option Json :=
  (parse (s.text df)).bind fun ptr => upsert s.act ptr data

def accessAll (df : String) (steps : List Step) (data : Json) : Option Json :=
  steps.foldlM (access df) data

/-! ### `Config::init` -/

def seeds : List Step :=
  [⟨.top, "update_check_enabled", fill (.bool true)⟩,
    ⟨.top, "update_check_interval_hours", fill (.int 24)⟩]

def setPath (path : String) : Step := ⟨.top, "config_path", fun _ => .str path⟩

-- Read with `operator[]`, so that a missing one is there as a null afterwards.
def readPrinter : Step := ⟨.top, "default_printer", id⟩

def backfill : List Step :=
  [⟨.printer, "monitored_sensors", fill sensorsConf⟩,
    ⟨.printer, "fans", fill fansConf⟩,
    ⟨.printer, "default_macros", fillMacros⟩,
    ⟨.printer, "extrude_temps", fill extrudeTempsConf⟩,
    ⟨.printer, "extrude_lengths", fill extrudeLengthsConf⟩,
    ⟨.printer, "extrude_speeds", fill extrudeSpeedsConf⟩,
    ⟨.printer, "disable_spoolman", fill (.bool false)⟩,
    ⟨.top, "guppy_init_script", fill (.str "/etc/init.d/S99guppyscreen")⟩,
    ⟨.printer, "log_level", fill (.str "debug")⟩]

def screen (b : Build) : List Step :=
  [⟨.top, "display_rotate", fill (.int (if b.rotate then 3 else 0))⟩,
    ⟨.top, "touch_calibrated", fill (.bool b.evdevCalibrate)⟩,
    ⟨.top, "prompt_emergency_stop", fill (.bool true)⟩,
    ⟨.top, "display_sleep_sec", fill (.int 600)⟩]

/-- `df()` for a printer of this name. -/
def dfOf (name : String) : String := "/printers/" ++ name ++ "/"

def initPrinter (data : Json) : Option Json :=
  match data.valueAt ["default_printer"] with
  | .null => some data
  | .str name => accessAll (dfOf name) backfill data
  | _ => none

/-- What is written back to the file at `path`, `none` where `init` throws. -/
def init (b : Build) (path : String) (data : Json) : Option Json := do
  let data ← accessAll "" (seeds ++ [setPath path, readPrinter]) data
  let data ← initPrinter data
  accessAll "" (screen b) data

/-- The options `init` knows of a default printer, by path. -/
def options (name : String) : List (List String) :=
  [["printers", name, "monitored_sensors"], ["printers", name, "fans"],
    ["printers", name, "default_macros"], ["printers", name, "extrude_temps"],
    ["printers", name, "extrude_lengths"], ["printers", name, "extrude_speeds"],
    ["printers", name, "disable_spoolman"], ["printers", name, "log_level"],
    ["guppy_init_script"], ["display_rotate"], ["touch_calibrated"], ["prompt_emergency_stop"],
    ["display_sleep_sec"], ["update_check_enabled"], ["update_check_interval_hours"]]

end GuppyScreen.Config
