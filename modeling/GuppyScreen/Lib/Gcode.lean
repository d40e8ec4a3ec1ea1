import GuppyScreen.Lib.Text
import Mathlib.Data.List.TakeWhile

/-!
# Gcode modes

What a gcode script does to the modes of a Klipper printer: absolute or relative
coordinates and extrusion, and the states saved under a name. A script is run
line by line, and the first command that is refused ends it. Which command is
refused for reasons of its own (a move out of range, a cold hotend) is an input;
restoring a name that was never saved is refused in any case.
-/

namespace GuppyScreen.Lib.Gcode

structure Modes where
  absoluteCoord : Bool
  absoluteExtrude : Bool
  deriving DecidableEq

inductive Mode where
  | G90
  | G91
  | M82
  | M83
  deriving DecidableEq

def Mode.apply (m : Modes) : Mode → Modes
  | .G90 => { m with absoluteCoord := true }
  | .G91 => { m with absoluteCoord := false }
  | .M82 => { m with absoluteExtrude := true }
  | .M83 => { m with absoluteExtrude := false }

inductive Command where
  | mode (m : Mode)
  | save (name : String)
  | restore (name : String)
  | other
  deriving DecidableEq

structure Printer where
  modes : Modes
  saved : List (String × Modes)
  deriving DecidableEq

-- `none` is a refusal.
def Printer.exec (p : Printer) : Command → Option Printer
  | .mode m => some { p with modes := m.apply p.modes }
  | .save name => some { p with saved := (name, p.modes) :: p.saved }
  | .restore name => (p.saved.lookup name).map fun modes => { p with modes := modes }
  | .other => some p

/-- `refused` counts commands from the start of the script. -/
def run : Option ℕ → Printer → List Command → Printer
  | _, p, [] => p
  | some 0, p, _ :: _ => p
  | refused, p, c :: cs =>
    match p.exec c with
    | none => p
    | some q => run (refused.map (· - 1)) q cs

/-! ### Reading a script -/

def nameOf (params : List Char) : String :=
  if " NAME=".toList.isPrefixOf params then String.ofList (params.drop 6) else "default"

def command (line : List Char) : Command :=
  let word := line.takeWhile (· ≠ ' ')
  let params := line.drop word.length
  if word = "G90".toList then .mode .G90
  else if word = "G91".toList then .mode .G91
  else if word = "M82".toList then .mode .M82
  else if word = "M83".toList then .mode .M83
  else if word = "SAVE_GCODE_STATE".toList then .save (nameOf params)
  else if word = "RESTORE_GCODE_STATE".toList then .restore (nameOf params)
  else .other

def modal : List String := ["G90", "G91", "M82", "M83", "SAVE_GCODE_STATE", "RESTORE_GCODE_STATE"]

-- A command with parameters, told from the modal ones by how the line begins.
theorem command_plain {head : String} (hs : ' ' ∈ head.toList)
    (hn : head.toList.takeWhile (· ≠ ' ') ∉ modal.map String.toList) (rest : String) :
    command (head ++ rest).toList = .other := by
  have hword : (head ++ rest).toList.takeWhile (· ≠ ' ') = head.toList.takeWhile (· ≠ ' ') := by
    rw [String.toList_append, List.takeWhile_append, if_neg]
    intro hlen
    have hall := List.takeWhile_eq_self_iff.mp ((List.takeWhile_prefix _).eq_of_length hlen)
    have hblank := hall ' ' hs
    simp at hblank
  have hnames : ∀ name ∈ modal, head.toList.takeWhile (· ≠ ' ') ≠ name.toList := by
    intro name hmem he
    exact hn (List.mem_map.mpr ⟨name, hmem, he.symm⟩)
  unfold command
  rw [hword]
  dsimp only
  rw [if_neg (hnames "G90" (by decide)), if_neg (hnames "G91" (by decide)),
    if_neg (hnames "M82" (by decide)), if_neg (hnames "M83" (by decide)),
    if_neg (hnames "SAVE_GCODE_STATE" (by decide)),
    if_neg (hnames "RESTORE_GCODE_STATE" (by decide))]

def commands (script : String) : List Command :=
  (script.toList.splitOn '\n').map command

def runScript (refused : Option ℕ) (p : Printer) (script : String) : Printer :=
  run refused p (commands script)

/-- One line, and the command Klipper finds in it. -/
structure Reads (line : String) (c : Command) : Prop where
  oneLine : Text.Lacks '\n' line
  command : command line.toList = c

instance Reads.decidable (line : String) (c : Command) : Decidable (Reads line c) :=
  decidable_of_iff (Text.Lacks '\n' line ∧ Gcode.command line.toList = c)
    ⟨fun h => ⟨h.1, h.2⟩, fun h => ⟨h.oneLine, h.command⟩⟩

theorem reads_plain {head rest : String} (hs : ' ' ∈ head.toList)
    (hn : head.toList.takeWhile (· ≠ ' ') ∉ modal.map String.toList)
    (hb : Text.Lacks '\n' head) (hr : Text.Lacks '\n' rest) : Reads (head ++ rest) .other :=
  ⟨(Text.lacks_append _ _ _).mpr ⟨hb, hr⟩, command_plain hs hn rest⟩

theorem reads_lines {lines : List String} {cs : List Command} (h : List.Forall₂ Reads lines cs) :
    (∀ line ∈ lines, Text.Lacks '\n' line) ∧
      lines.map (fun line => command line.toList) = cs := by
  induction h with
  | nil => simp
  | cons hread _ ih =>
    refine ⟨?_, ?_⟩
    · intro line hline
      rcases List.mem_cons.mp hline with rfl | hrest
      · exact hread.oneLine
      · exact ih.1 line hrest
    · rw [List.map_cons, hread.command, ih.2]

/-- The lines of a script are the ones it was put together from. -/
theorem commands_join {lines : List String} {cs : List Command} (hne : lines ≠ [])
    (h : List.Forall₂ Reads lines cs) : commands ("\n".intercalate lines) = cs := by
  obtain ⟨hbreak, hmap⟩ := reads_lines h
  have hlines : ∀ piece ∈ lines.map String.toList, '\n' ∉ piece := by
    intro piece hp
    obtain ⟨line, hline, rfl⟩ := List.mem_map.mp hp
    exact hbreak line hline
  unfold commands
  rw [String.toList_intercalate, show "\n".toList = ['\n'] from rfl,
    List.splitOn_intercalate _ hlines (by simpa using hne), List.map_map]
  exact hmap

/-! ### Saving and restoring around a move -/

theorem run_other (refused : Option ℕ) (p : Printer) (cs : List Command) :
    run refused p (.other :: cs) =
      if refused = some 0 then p else run (refused.map (· - 1)) p cs := by
  cases refused with
  | none => rfl
  | some i =>
    cases i with
    | zero => rfl
    | succ i => rfl

/-- A move in a mode of its own, with the modes saved before and restored after. -/
def bracket (name : String) (mode : Mode) : List Command :=
  [.save name, .mode mode, .other, .restore name]

theorem run_bracket (name : String) (mode : Mode) (p : Printer) (refused : Option ℕ) :
    (run refused p (bracket name mode)).modes = p.modes ↔
      (refused ≠ some 2 ∧ refused ≠ some 3) ∨ mode.apply p.modes = p.modes := by
  match refused with
  | none => simp [bracket, run, Printer.exec]
  | some 0 => simp [bracket, run]
  | some 1 => simp [bracket, run, Printer.exec]
  | some 2 => simp [bracket, run, Printer.exec]
  | some 3 => simp [bracket, run, Printer.exec]
  | some (i + 4) => simp [bracket, run, Printer.exec]

/-- The modes survive a bracketed script exactly when neither the move nor the
restore is refused, or the mode was in force before. -/
theorem run_others_bracket (n : ℕ) (name : String) (mode : Mode) (p : Printer)
    (refused : Option ℕ) :
    (run refused p (List.replicate n .other ++ bracket name mode)).modes = p.modes ↔
      (refused ≠ some (n + 2) ∧ refused ≠ some (n + 3)) ∨ mode.apply p.modes = p.modes := by
  induction n generalizing refused with
  | zero => simpa using run_bracket name mode p refused
  | succ n ih =>
    rw [List.replicate_succ, List.cons_append, run_other]
    match refused with
    | none => simpa using ih none
    | some 0 =>
      rw [if_pos rfl]
      simp
    | some (i + 1) =>
      have hi := ih (some i)
      simp only [ne_eq, Option.some.injEq] at hi ⊢
      rw [if_neg (by omega), Option.map_some, Nat.add_sub_cancel, hi]
      have h2 : i = n + 2 ↔ i + 1 = n + 1 + 2 := by omega
      have h3 : i = n + 3 ↔ i + 1 = n + 1 + 3 := by omega
      rw [h2, h3]

end GuppyScreen.Lib.Gcode
