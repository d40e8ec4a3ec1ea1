import GuppyScreen.Lib.Double
import GuppyScreen.Lib.Rounding
import GuppyScreen.Lib.Text
import GuppyScreen.State

/-!
# Questions about the printer (utils.cpp)

What `KUtils` reads out of `State`. `none` stands for an exception: a value of
the wrong type where the code asks for a string.
-/

namespace GuppyScreen.KUtils
open Lib Text

def isHomed (s : State) : Option Bool :=
  match s.getData ["printer_state", "toolhead", "homed_axes"] with
  | .null => some false
  | .str axes => some (hasSubstr "x" axes && hasSubstr "y" axes && hasSubstr "z" axes)
  | _ => none

-- The loop stops at the first match and throws at an entry that is no string.
def anyNamed (want : String) : List Json → Option Bool
  | [] => some false
  | .str name :: rest => if lower name = lower want then some true else anyNamed want rest
  | _ :: _ => none

def hasGcodeMacro (s : State) (name : String) : Option Bool :=
  anyNamed ("gcode_macro " ++ name) (s.getData ["printer_objs", "objects"]).items

def hasConfigSection (s : State) (name : String) : Bool :=
  ((s.getData ["printer_state", "configfile", "settings"]).get? (lower name)).isSome

def getRootPath (s : State) (rootName : String) : Option String :=
  match (s.getData ["roots"]).items.filter fun item => item.get? "name" = some (.str rootName) with
  | [] => some ""
  | root :: _ => (root.valueAt ["path"]).str?

def double? (j : Json) : Option ℚ := j.number?.map Double.rnd

/-- `get<int>()` of a number: an integer wraps, a double is truncated. -/
def toInt : Json → ℤ
  | .int n => Int.bmod n (2 ^ 32)
  | .float q => Rounding.trunc q
  | _ => 0

/-- `get<int>()`, which takes a bool too; `none` where it throws. -/
def asInt : Json → Option ℤ
  | .bool b => some b.toNat
  | v => if v.isNumber then some (toInt v) else none

/-- `parse_int`: the fallback where `std::stoi` throws or stops before the end. -/
def parseInt (text : String) (fallback : ℤ) : ℤ :=
  let (s, ds) := Double.signed (text.toList.dropWhile isSpace)
  let v := s * (Double.digitsValue ds : ℤ)
  if ds ≠ [] ∧ ds.all Char.isDigit ∧ -2 ^ 31 ≤ v ∧ v < 2 ^ 31 then v else fallback

-- `last` says that a word starts here.
def titled : Bool → List Char → List Char
  | _, [] => []
  | last, c :: cs =>
    let c := if last then c.toUpper else c.toLower
    let c := if c = '_' then ' ' else c
    c :: titled (isSpace c) cs

def toTitle (s : String) : String := String.ofList (titled true s.toList)

def shortMeasure (v : ℚ) (unit : String) : String :=
  let residue := Double.rnd (1 / 2000)
  Double.fixed 3 (if -residue < v ∧ v < residue then 0 else v) ++ " " ++ unit

/-- What a handler reads besides its panel: the copy of the printer, LVGL's tick
and layout, and the host. `none` is an exception again. Klipper reports
`homed_axes` as a string. -/
structure World where
  state : State
  homed : (isHomed state).isSome = true
  tick : UInt32
  contentWidth : ℤ
  contentHeight : ℤ
  horRes : ℕ
  verRes : ℕ
  isRunningLocal : Option Bool
  downloadFile : String → Option String

/-- `lv_tick_elaps`: 32 bit ticks wrap. -/
def tickElaps (w : World) (since : UInt32) : UInt32 := w.tick - since

/-- The space a plot is asked to fill, in hundredths of an inch at 100 dpi. -/
def plotSize (w : World) : ℕ × ℕ :=
  if w.contentWidth ≤ 0 ∨ w.contentHeight ≤ 0 then (w.horRes, w.verRes)
  else (w.contentWidth.toNat, w.contentHeight.toNat)

end GuppyScreen.KUtils
