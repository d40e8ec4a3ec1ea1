import GuppyScreen.Lib.LineBuffer
import GuppyScreen.Lib.Run
import Mathlib.Data.Rat.Defs
import Mathlib.Order.Lattice

/-!
# Shell commands of the printer (k1/k1_mods/gcode_shell_command.py)

The calibration scripts run as shell commands of Klipper. What a script writes comes
through a pipe, read in pieces of at most 4096 bytes while the command waits for the
process to end, and each piece is answered with the lines it completes. A piece that is
no text by itself raises out of the callback; the reactor goes on, and the piece is gone.
-/

namespace GuppyScreen
open Lib LineBuffer

structure ShellCommand where
  name : String
  timeout : ℚ
  verbose : Bool
  /-- `above=0.` -/
  timeoutPos : 0 < timeout

namespace ShellCommand

inductive Ending where
  | finished
  | timedOut
  deriving DecidableEq

def running (c : ShellCommand) : String := "Running Command \x7b" ++ c.name ++ "\x7d...:"

def ended (c : ShellCommand) : Ending → String
  | .finished => "Command \x7b" ++ c.name ++ "\x7d finished\n"
  | .timedOut => "Command \x7b" ++ c.name ++ "\x7d timed out"

/-- A process of the command. `pieces` were taken from the pipe, `messages` and `flushed`
are the answers made of them, while it ran and at its end. -/
structure Process where
  endtime : ℚ
  written : List UInt8 := []
  exited : Bool := false
  pieces : List (List UInt8) := []
  messages : List (List Char) := []
  flushed : List Char := []

/-- `raised`: an exception has left `_process_output`. -/
structure World where
  partialOutput : List Char := []
  process : Option Process := none
  ended : List (Process × Ending) := []
  responded : List String := []
  raised : Bool := false

inductive Event where
  /-- The gcode. `launched` is false where `Popen` throws. -/
  | run (now : ℚ) (launched : Bool)
  | writes (bytes : List UInt8)
  | exits
  /-- The reactor finds the pipe readable. -/
  | readable
  /-- `reactor.pause` returns. -/
  | wake (now : ℚ)

/-- `bytes.decode()`. -/
def decode (bytes : List UInt8) : Option (List Char) :=
  bytes.toByteArray.utf8Decode?.map Array.toList

/-- `_process_output` from where it has its text: what is answered, and what is kept. -/
def split (partialOutput text : List Char) : Option (List Char) × List Char :=
  let data := partialOutput ++ text
  if '\n' ∉ data then (none, data)
  else if data.getLast? ≠ some '\n' then
    let split := cut '\n' data
    (some (data.take split), data.drop split)
  else (some data, [])

def Process.read (p : Process) : List UInt8 := p.pieces.flatten

/-- `os.read(self.proc_fd, 4096)`. -/
def Process.piece (p : Process) : List UInt8 := (p.written.drop p.read.length).take 4096

section
variable (c : ShellCommand)

def processOutput (w : World) : World :=
  match w.process with
  | none => w
  | some p =>
    -- With nothing left, a pipe is readable only at its end.
    if c.verbose = false ∨ (p.piece = [] ∧ p.exited = false) then w
    else
      let taken := { p with pieces := p.pieces ++ [p.piece] }
      match decode p.piece with
      | none => { w with
          process := some taken
          raised := true }
      | some text =>
        let next := split w.partialOutput text
        { w with
          partialOutput := next.2
          process := some { taken with messages := p.messages ++ next.1.toList }
          responded := w.responded ++ (next.1.map String.ofList).toList }

def World.finish (w : World) (p : Process) (e : Ending) : World :=
  if c.verbose then
    { w with
      partialOutput := []
      process := none
      ended := w.ended ++ [({ p with flushed := w.partialOutput }, e)]
      responded := w.responded ++
        (if w.partialOutput = [] then [] else [String.ofList w.partialOutput]) ++ [c.ended e] }
  else { w with process := none, ended := w.ended ++ [(p, e)] }

/-- One gcode runs at a time. -/
def step (w : World) : Event → World
  | .run now launched =>
    if w.process.isSome || !launched then w
    else
      { w with
        process := some { endtime := now + c.timeout }
        responded := w.responded ++ if c.verbose then [c.running] else [] }
  | .writes bytes =>
    { w with
      process := w.process.map fun p =>
        if p.exited then p else { p with written := p.written ++ bytes } }
  | .exits => { w with process := w.process.map fun p => { p with exited := true } }
  | .readable => processOutput c w
  | .wake now =>
    match w.process with
    | none => w
    | some p =>
      if p.exited then w.finish c p .finished
      else if now < p.endtime then w
      else w.finish c p .timedOut

end

/-! ### Bytes and text -/

theorem encode_decode {bytes : List UInt8} {text : List Char} (h : decode bytes = some text) :
    text.utf8Encode = bytes.toByteArray := by
  unfold decode at h
  cases hd : bytes.toByteArray.utf8Decode? with
  | none => simp [hd] at h
  | some cs =>
    have hsome : bytes.toByteArray.utf8Decode?.isSome = true := by rw [hd]; rfl
    have hget := ByteArray.utf8Encode_get_utf8Decode? (h := hsome)
    simp only [hd, Option.map_some, Option.some.injEq, Option.get_some] at h hget
    rw [← h]
    exact hget

theorem decode_encode {bytes : List UInt8} {text : List Char}
    (h : text.utf8Encode = bytes.toByteArray) : decode bytes = some text := by
  rw [decode, ← h, List.utf8Decode?_utf8Encode]
  simp

/-- A byte of its own in UTF-8. -/
def ascii (b : UInt8) : Char := Char.ofNat b.toNat

theorem encode_ascii {b : UInt8} (h : b.toNat < 128) : [ascii b].utf8Encode = [b].toByteArray := by
  have hvalid : b.toNat.isValidChar := .inl (by omega)
  have hval : (ascii b).val.toNat = b.toNat := by
    rw [ascii, Char.ofNat, dif_pos hvalid]
    rfl
  have hsize : (ascii b).utf8Size = 1 := by
    rw [Char.utf8Size, if_pos]
    rw [UInt32.le_iff_toNat_le, hval]
    simp
    omega
  rw [List.utf8Encode_singleton, String.utf8EncodeChar_eq_singleton hsize]
  congr 2
  apply UInt8.toNat.inj
  rw [UInt32.toNat_toUInt8, hval]
  omega

theorem decode_ascii {bytes : List UInt8} (h : ∀ b ∈ bytes, b.toNat < 128) :
    decode bytes = some (bytes.map ascii) := by
  apply decode_encode
  induction bytes with
  | nil => simp
  | cons b bs ih =>
    rw [List.map_cons, List.utf8Encode_cons, encode_ascii (h b (List.mem_cons_self ..)),
      ih fun x hx => h x (List.mem_cons_of_mem _ hx), ← List.toByteArray_append]
    rfl

/-- The branch for a text that ends its last line is the cut there, after which nothing
is left. -/
theorem split_eq_feed (held text : List Char) : split held text = feed '\n' held text := by
  unfold split feed
  dsimp only
  by_cases hmem : '\n' ∈ held ++ text
  · rw [if_neg (not_not_intro hmem), if_pos hmem]
    by_cases hlast : (held ++ text).getLast? = some '\n'
    · obtain ⟨line, hline⟩ := List.getLast?_eq_some_iff.mp hlast
      have hcut : whole '\n' (line ++ ['\n'] ++ []) = line ++ ['\n'] ∧
          rest '\n' (line ++ ['\n'] ++ []) = [] :=
        cut_unique (.inr ⟨line, rfl⟩) (List.not_mem_nil)
      rw [List.append_nil, ← hline] at hcut
      rw [if_neg (not_not_intro hlast), hcut.1, hcut.2]
    · rw [if_pos hlast, whole, rest]
  · rw [if_pos hmem, if_neg hmem]

/-! ### What is answered -/

section
variable (c : ShellCommand)

/-- The answers while a process runs. -/
def opening (p : Process) : List String :=
  if c.verbose then c.running :: p.messages.map String.ofList else []

/-- The answers of a process that has ended. -/
def report (d : Process × Ending) : List String :=
  c.opening d.1 ++
    if c.verbose then
      (if d.1.flushed = [] then [] else [String.ofList d.1.flushed]) ++ [c.ended d.2]
    else []

/-- The text of the pieces that are text. -/
def Process.text (p : Process) : List Char := (p.pieces.filterMap decode).flatten

/-- What was read so far is answered in whole lines, except for what is held. -/
structure Reads (p : Process) (held : List Char) : Prop where
  sofar : p.read <+: p.written
  lines : ∀ m ∈ p.messages, Ends '\n' m
  unended : '\n' ∉ held
  text : p.messages.flatten ++ held = p.text

def Fails (p : Process) : Prop := ∃ piece ∈ p.pieces, decode piece = none

structure Inv (w : World) : Prop where
  responded : w.responded = w.ended.flatMap c.report ++ (w.process.map c.opening).getD []
  idle : w.process = none → w.partialOutput = []
  reads : ∀ p, w.process = some p → Reads p w.partialOutput ∧ p.flushed = []
  ended : ∀ d ∈ w.ended, Reads d.1 d.1.flushed ∧ (d.2 = .finished ↔ d.1.exited = true)
  silent : c.verbose = false → w.partialOutput = []
  raised : w.raised = true ↔
    (∃ p, w.process = some p ∧ Fails p) ∨ ∃ d ∈ w.ended, Fails d.1

end

variable {c : ShellCommand}

theorem Reads.fresh (endtime : ℚ) : Reads { endtime := endtime } [] where
  sofar := List.nil_prefix
  lines := fun _ hm => absurd hm List.not_mem_nil
  unended := List.not_mem_nil
  text := rfl

theorem Reads.writes {p : Process} {held : List Char} (h : Reads p held) (bytes : List UInt8) :
    Reads { p with written := p.written ++ bytes } held :=
  ⟨h.sofar.trans (List.prefix_append ..), h.lines, h.unended, h.text⟩

theorem read_taken (p : Process) :
    ({ p with pieces := p.pieces ++ [p.piece] } : Process).read = p.read ++ p.piece := by
  simp [Process.read]

theorem Reads.piece_sofar {p : Process} {held : List Char} (h : Reads p held) :
    ({ p with pieces := p.pieces ++ [p.piece] } : Process).read <+: p.written := by
  obtain ⟨left, hleft⟩ := h.sofar
  have hdrop : p.written.drop p.read.length = left := by rw [← hleft, List.drop_left]
  rw [read_taken, Process.piece, hdrop, ← hleft]
  exact (List.prefix_append_right_inj _).mpr (List.take_prefix ..)

theorem Reads.lost {p : Process} {held : List Char} (h : Reads p held)
    (hd : decode p.piece = none) : Reads { p with pieces := p.pieces ++ [p.piece] } held := by
  refine ⟨h.piece_sofar, h.lines, h.unended, ?_⟩
  rw [h.text]
  simp [Process.text, hd]

theorem Reads.piece {p : Process} {held text : List Char} (h : Reads p held)
    (hd : decode p.piece = some text) :
    Reads { p with
      pieces := p.pieces ++ [p.piece]
      messages := p.messages ++ (split held text).1.toList } (split held text).2 := by
  rw [split_eq_feed]
  refine ⟨h.piece_sofar, ?_, not_mem_feed held text, ?_⟩
  · intro m hm
    rcases List.mem_append.mp hm with hm | hm
    · exact h.lines m hm
    · exact ends_feed (Option.mem_toList.mp hm)
  · have hfeed : (feed '\n' held text).1.toList.flatten ++ (feed '\n' held text).2 =
        held ++ text := by
      have hkept : ((feed '\n' held text).1.getD []) ++ (feed '\n' held text).2 = held ++ text :=
        feed_eq held text
      rw [← hkept]
      cases (feed '\n' held text).1 <;> simp
    have htext : ({ p with
        pieces := p.pieces ++ [p.piece]
        messages := p.messages ++ (feed '\n' held text).1.toList } : Process).text =
        p.text ++ text := by
      simp [Process.text, hd]
    dsimp only at htext ⊢
    rw [htext, ← h.text, List.flatten_append, List.append_assoc, hfeed, List.append_assoc]

theorem inv_start : Inv c {} where
  responded := rfl
  idle := fun _ => rfl
  reads := fun _ h => by cases h
  ended := fun _ h => absurd h List.not_mem_nil
  silent := fun _ => rfl
  raised := by simp

theorem inv_processOutput {w : World} (h : Inv c w) : Inv c (processOutput c w) := by
  unfold processOutput
  cases hp : w.process with
  | none => exact h
  | some p =>
    by_cases hquiet : c.verbose = false ∨ (p.piece = [] ∧ p.exited = false)
    · dsimp only
      rw [if_pos hquiet]
      exact h
    have hverbose : c.verbose = true := by
      cases hv : c.verbose with
      | true => rfl
      | false => exact absurd (.inl hv) hquiet
    obtain ⟨hreads, hflushed⟩ := h.reads p hp
    have hold := h.responded
    rw [hp, Option.map_some, Option.getD_some] at hold
    have hraised := h.raised
    rw [hp] at hraised
    dsimp only
    rw [if_neg hquiet]
    cases hd : decode p.piece with
    | none =>
      constructor
      case responded => exact hold
      case idle =>
        intro hnone
        cases hnone
      case reads =>
        intro q hq
        cases hq
        exact ⟨hreads.lost hd, hflushed⟩
      case ended => exact h.ended
      case silent => exact h.silent
      case raised =>
        exact iff_of_true rfl (.inl ⟨_, rfl, p.piece, by simp, hd⟩)
    | some text =>
      constructor
      case responded =>
        dsimp only
        simp only [hold, Option.map_some, Option.getD_some, opening, if_pos hverbose,
          List.map_append, List.append_assoc, List.cons_append]
        cases (split w.partialOutput text).1 <;> rfl
      case idle =>
        intro hnone
        cases hnone
      case reads =>
        intro q hq
        cases hq
        exact ⟨hreads.piece hd, hflushed⟩
      case ended => exact h.ended
      case silent =>
        intro hv
        rw [hverbose] at hv
        cases hv
      case raised =>
        dsimp only
        rw [hraised]
        simp [Fails, or_and_right, exists_or, hd]

theorem inv_finish {w : World} (h : Inv c w) {p : Process} (hp : w.process = some p) {e : Ending}
    (he : e = .finished ↔ p.exited = true) : Inv c (w.finish c p e) := by
  obtain ⟨hreads, hflushed⟩ := h.reads p hp
  have hold := h.responded
  rw [hp, Option.map_some, Option.getD_some] at hold
  have hended {d : Process × Ending} (hd : Reads d.1 d.1.flushed)
      (hend : d.2 = .finished ↔ d.1.exited = true) :
      ∀ d' ∈ w.ended ++ [d], Reads d'.1 d'.1.flushed ∧ (d'.2 = .finished ↔ d'.1.exited = true) := by
    intro d' hd'
    rcases List.mem_append.mp hd' with hd' | hd'
    · exact h.ended d' hd'
    · cases List.mem_singleton.mp hd'
      exact ⟨hd, hend⟩
  -- the process that failed moves over to those that have ended
  have hraised {q : Process} (hq : q.pieces = p.pieces) : w.raised = true ↔
      (∃ q, (none : Option Process) = some q ∧ Fails q) ∨ ∃ d ∈ w.ended ++ [(q, e)], Fails d.1 := by
    have hfails : Fails q ↔ Fails p := by
      unfold Fails
      rw [hq]
    rw [h.raised, hp]
    simp only [Option.some.injEq, exists_eq_left', reduceCtorEq, false_and, exists_false, false_or,
      List.mem_append, List.mem_singleton, or_and_right, exists_or, exists_eq_left, hfails]
    exact or_comm
  by_cases hv : c.verbose = true
  · rw [World.finish, if_pos hv]
    constructor
    case responded =>
      simp only [List.flatMap_append, List.flatMap_singleton, Option.map_none, Option.getD_none,
        List.append_nil, hold, report, opening, if_pos hv, List.append_assoc]
    case idle => exact fun _ => rfl
    case reads =>
      intro q hq
      cases hq
    case ended => exact hended ⟨hreads.sofar, hreads.lines, hreads.unended, hreads.text⟩ he
    case silent => exact fun _ => rfl
    case raised => exact hraised rfl
  · have hheld : w.partialOutput = [] := h.silent (by simpa using hv)
    rw [World.finish, if_neg hv]
    constructor
    case responded =>
      simp only [List.flatMap_append, List.flatMap_singleton, Option.map_none, Option.getD_none,
        List.append_nil, hold, report, if_neg hv]
    case idle => exact fun _ => hheld
    case reads =>
      intro q hq
      cases hq
    case ended =>
      rw [hheld] at hreads
      exact hended (hflushed ▸ hreads) he
    case silent => exact fun _ => hheld
    case raised => exact hraised rfl

/-- What a process writes and its end are nothing to the answers. -/
theorem inv_process {w : World} (h : Inv c w) {f : Process → Process}
    (hf : ∀ p, (f p).messages = p.messages ∧ (f p).flushed = p.flushed ∧ (f p).pieces = p.pieces)
    (hreads : ∀ p held, Reads p held → Reads (f p) held) :
    Inv c { w with process := w.process.map f } := by
  constructor
  case responded =>
    dsimp only
    rw [h.responded]
    cases w.process with
    | none => rfl
    | some p => simp only [Option.map_some, Option.getD_some, opening, (hf p).1]
  case idle => exact fun hnone => h.idle (Option.map_eq_none_iff.mp hnone)
  case reads =>
    intro q hq
    obtain ⟨p, hp, rfl⟩ := Option.map_eq_some_iff.mp hq
    obtain ⟨hr, hflushed⟩ := h.reads p hp
    exact ⟨hreads p _ hr, (hf p).2.1.trans hflushed⟩
  case ended => exact h.ended
  case silent => exact h.silent
  case raised =>
    have hfails : ∀ p, Fails (f p) ↔ Fails p := by
      intro p
      unfold Fails
      rw [(hf p).2.2]
    dsimp only
    rw [h.raised]
    cases w.process with
    | none => simp
    | some p => simp [hfails]

theorem inv_launch {w : World} (h : Inv c w) (hnone : w.process = none) (now : ℚ) :
    Inv c { w with
      process := some { endtime := now + c.timeout }
      responded := w.responded ++ if c.verbose then [c.running] else [] } := by
  have hold := h.responded
  rw [hnone] at hold
  constructor
  case responded =>
    simp only [hold, Option.map_none, Option.getD_none, List.append_nil, Option.map_some,
      Option.getD_some, opening, List.map_nil]
  case idle =>
    intro hsome
    cases hsome
  case reads =>
    intro p hp
    cases hp
    have hheld : w.partialOutput = [] := h.idle hnone
    dsimp only
    rw [hheld]
    exact ⟨Reads.fresh _, rfl⟩
  case ended => exact h.ended
  case silent => exact h.silent
  case raised =>
    dsimp only
    rw [h.raised, hnone]
    simp [Fails]

theorem inv_step (w : World) (e : Event) (h : Inv c w) : Inv c (step c w e) := by
  unfold step
  cases e with
  | run now launched =>
    by_cases hskip : (w.process.isSome || !launched) = true
    · dsimp only
      rw [if_pos hskip]
      exact h
    · have hnone : w.process = none := by
        cases hp : w.process with
        | none => rfl
        | some p => simp [hp] at hskip
      dsimp only
      rw [if_neg hskip]
      exact inv_launch h hnone now
  | writes bytes =>
    refine inv_process h (fun p => ?_) (fun p held hr => ?_)
    · split_ifs <;> exact ⟨rfl, rfl, rfl⟩
    · split_ifs
      · exact hr
      · exact hr.writes bytes
  | exits =>
    exact inv_process h (fun _ => ⟨rfl, rfl, rfl⟩)
      fun _ _ hr => ⟨hr.sofar, hr.lines, hr.unended, hr.text⟩
  | readable => exact inv_processOutput h
  | wake now =>
    dsimp only
    cases hp : w.process with
    | none => exact h
    | some p =>
      dsimp only
      split_ifs with hexited htime
      · exact inv_finish h hp (by simp [hexited])
      · exact h
      · exact inv_finish h hp (by simp [hexited])

theorem inv_run (es : List Event) : Inv c (Run.run (step c) {} es) :=
  Run.invariant_always inv_step {} es inv_start

/-! ### What a command's answers say -/

/-- The answers while a process ran are the text of what was read of it up to its last
newline, each made of whole lines, and the one at its end is what followed. -/
structure Answered (p : Process) (text : List Char) : Prop where
  sofar : p.read <+: p.written
  read : text = p.text
  running : p.messages.flatten = whole '\n' text
  lines : ∀ m ∈ p.messages, Ends '\n' m
  ending : p.flushed = rest '\n' text

theorem Reads.answered {p : Process} (h : Reads p p.flushed) :
    Answered p (p.messages.flatten ++ p.flushed) := by
  obtain ⟨hwhole, hrest⟩ := passed_on h.lines h.unended rfl
  exact ⟨h.sofar, h.text, hwhole, h.lines, hrest⟩

theorem toByteArray_inj {a b : List UInt8} (h : a.toByteArray = b.toByteArray) : a = b := by
  have hdata := congrArg ByteArray.data h
  simpa using hdata

def isText (piece : List UInt8) : Bool := (decode piece).isSome

theorem encode_text (pieces : List (List UInt8)) : (pieces.filterMap decode).flatten.utf8Encode =
    (pieces.filter isText).flatten.toByteArray := by
  induction pieces with
  | nil => simp
  | cons piece rest ih =>
    cases hd : decode piece with
    | none => simpa [hd, isText] using ih
    | some text =>
      rw [List.filterMap_cons_some hd, List.flatten_cons, List.utf8Encode_append, encode_decode hd,
        ih, List.filter_cons_of_pos (by simp [isText, hd]), List.flatten_cons,
        ← List.toByteArray_append]

theorem length_texts (pieces : List (List UInt8)) : pieces.flatten.length =
    (pieces.filter isText).flatten.length + (pieces.filter (!isText ·)).flatten.length := by
  induction pieces with
  | nil => rfl
  | cons piece rest ih =>
    rw [List.flatten_cons, List.length_append, ih]
    cases hd : isText piece with
    | true => simp [hd, Nat.add_assoc]
    | false =>
      simp [hd]
      omega

theorem ne_nil_of_decode {piece : List UInt8} (h : decode piece = none) : piece ≠ [] := by
  rintro rfl
  have hempty : decode [] = some [] := decode_encode (by simp)
  rw [hempty] at h
  cases h

theorem Fails.length_lt {p : Process} (h : Fails p) :
    (p.pieces.filter isText).flatten.length < p.read.length := by
  obtain ⟨piece, hmem, hd⟩ := h
  have hlost : piece ∈ p.pieces.filter (!isText ·) :=
    List.mem_filter.mpr ⟨hmem, by simp [isText, hd]⟩
  have hlen : piece.length ≤ (p.pieces.filter (!isText ·)).flatten.length :=
    (List.sublist_flatten_of_mem hlost).length_le
  have hpos := List.length_pos_iff.mpr (ne_nil_of_decode hd)
  rw [Process.read, length_texts p.pieces]
  omega

/-- The answers are the whole output if nothing was left in the pipe and every piece was
text. -/
theorem Reads.all_iff {p : Process} {held : List Char} (h : Reads p held) :
    (p.messages.flatten ++ held).utf8Encode = p.written.toByteArray ↔ p.piece = [] ∧ ¬ Fails p := by
  obtain ⟨left, hleft⟩ := h.sofar
  have hpiece : p.piece = left.take 4096 := by rw [Process.piece, ← hleft, List.drop_left]
  rw [h.text, Process.text, encode_text]
  constructor
  · intro hall
    have hkept := congrArg List.length (toByteArray_inj hall)
    have hread := length_texts p.pieces
    have hwritten := congrArg List.length hleft
    rw [List.length_append, Process.read] at hwritten
    have hnone : left = [] := List.eq_nil_of_length_eq_zero (by omega)
    refine ⟨by rw [hpiece, hnone, List.take_nil], ?_⟩
    intro hfails
    have hlt := hfails.length_lt
    rw [Process.read] at hlt
    omega
  · rintro ⟨hnone, htext⟩
    have hall : p.pieces.filter isText = p.pieces := by
      refine List.filter_eq_self.mpr fun piece hmem => ?_
      by_contra hd
      exact htext ⟨piece, hmem, by simpa [isText] using hd⟩
    rw [hpiece, List.take_eq_nil_iff] at hnone
    rcases hnone with hnone | hnone
    · cases hnone
    · rw [hall, ← hleft, hnone, List.append_nil, Process.read]

/-- Every answer belongs to one process, all of a process's answers stand together and in
order, and they are the text of what it was read to have written: everything, exactly
where the pipe was empty when its end was noticed and no piece failed to decode. An
exception has come exactly if a piece that was read is no text by itself. -/
theorem output_answered (c : ShellCommand) (es : List Event) :
    (Run.run (step c) {} es).responded =
        (Run.run (step c) {} es).ended.flatMap c.report ++
          ((Run.run (step c) {} es).process.map c.opening).getD [] ∧
      (∀ d ∈ (Run.run (step c) {} es).ended,
        Answered d.1 (d.1.messages.flatten ++ d.1.flushed) ∧
        ((d.1.messages.flatten ++ d.1.flushed).utf8Encode = d.1.written.toByteArray ↔
          d.1.piece = [] ∧ ¬ Fails d.1) ∧
        (d.2 = .finished ↔ d.1.exited = true)) ∧
      ((Run.run (step c) {} es).raised = true ↔
        (∃ p, (Run.run (step c) {} es).process = some p ∧ Fails p) ∨
          ∃ d ∈ (Run.run (step c) {} es).ended, Fails d.1) := by
  have h := inv_run (c := c) es
  refine ⟨h.responded, ?_, h.raised⟩
  intro d hd
  obtain ⟨hreads, hending⟩ := h.ended d hd
  exact ⟨hreads.answered, hreads.all_iff, hending⟩

/-! ### A command that writes ASCII -/

def Ascii (p : Process) : Prop := ∀ b ∈ p.written, b.toNat < 128

def WritesAscii (e : Event) : Prop := ∀ bytes, e = .writes bytes → ∀ b ∈ bytes, b.toNat < 128

structure Plain (w : World) : Prop where
  running : ∀ p, w.process = some p → Ascii p
  ended : ∀ d ∈ w.ended, Ascii d.1

theorem written_processOutput (w : World) :
    (processOutput c w).ended = w.ended ∧
      (processOutput c w).process.map (·.written) = w.process.map (·.written) := by
  unfold processOutput
  rcases hp : w.process with _ | p
  · exact ⟨rfl, congrArg _ hp⟩
  · dsimp only
    split_ifs
    · exact ⟨rfl, congrArg _ hp⟩
    · cases decode p.piece <;> exact ⟨rfl, rfl⟩

theorem plain_finish {w : World} (h : Plain w) {p : Process} (hp : w.process = some p)
    (e : Ending) :
    Plain (w.finish c p e) := by
  have hended {q : Process} (hq : Ascii q) : ∀ d ∈ w.ended ++ [(q, e)], Ascii d.1 := by
    intro d hd
    rcases List.mem_append.mp hd with hd | hd
    · exact h.ended d hd
    · cases List.mem_singleton.mp hd
      exact hq
  have hnone : ∀ q, (none : Option Process) = some q → Ascii q := by
    intro q hq
    cases hq
  have hp' : Ascii { p with flushed := w.partialOutput } := h.running p hp
  by_cases hv : c.verbose = true
  · rw [World.finish, if_pos hv]
    exact ⟨hnone, hended hp'⟩
  · rw [World.finish, if_neg hv]
    exact ⟨hnone, hended (h.running p hp)⟩

theorem plain_step (w : World) (e : Event) (h : Plain w) (he : WritesAscii e) :
    Plain (step c w e) := by
  unfold step
  cases e with
  | run now launched =>
    dsimp only
    by_cases hskip : (w.process.isSome || !launched) = true
    · rw [if_pos hskip]
      exact h
    · rw [if_neg hskip]
      refine ⟨fun p hp => ?_, h.ended⟩
      cases hp
      exact fun b hb => absurd hb List.not_mem_nil
  | writes bytes =>
    refine ⟨fun q hq => ?_, h.ended⟩
    obtain ⟨p, hp, rfl⟩ := Option.map_eq_some_iff.mp hq
    split_ifs
    · exact h.running p hp
    · intro b hb
      rcases List.mem_append.mp hb with hb | hb
      · exact h.running p hp b hb
      · exact he bytes rfl b hb
  | exits =>
    refine ⟨fun q hq => ?_, h.ended⟩
    obtain ⟨p, hp, rfl⟩ := Option.map_eq_some_iff.mp hq
    exact h.running p hp
  | readable =>
    obtain ⟨hended, hwritten⟩ := written_processOutput (c := c) w
    refine ⟨fun q hq => ?_, hended ▸ h.ended⟩
    dsimp only at hq
    rw [hq, Option.map_some] at hwritten
    obtain ⟨p, hp, hpq⟩ := Option.map_eq_some_iff.mp hwritten.symm
    intro b hb
    rw [← hpq] at hb
    exact h.running p hp b hb
  | wake now =>
    dsimp only
    cases hp : w.process with
    | none => exact h
    | some p =>
      dsimp only
      split_ifs
      · exact plain_finish h hp _
      · exact h
      · exact plain_finish h hp _

theorem plain_run {es : List Event} (h : ∀ e ∈ es, WritesAscii e) :
    Plain (Run.run (step c) {} es) := by
  refine Run.invariant (C := fun _ e => WritesAscii e) (fun w e hw he => plain_step w e hw he)
    ({} : World) es ?_ (Run.along_of_forall _ h)
  constructor
  · intro p hp
    cases hp
  · exact fun _ hd => absurd hd List.not_mem_nil

theorem Reads.ascii {p : Process} {held : List Char} (h : Reads p held) (hascii : Ascii p) :
    ∀ piece ∈ p.pieces, decode piece = some (piece.map ascii) := by
  intro piece hmem
  refine decode_ascii fun b hb => hascii b ?_
  exact h.sofar.subset (List.mem_flatten.mpr ⟨piece, hmem, hb⟩)

theorem text_ascii {pieces : List (List UInt8)}
    (h : ∀ piece ∈ pieces, decode piece = some (piece.map ascii)) :
    (pieces.filterMap decode).flatten = pieces.flatten.map ascii := by
  induction pieces with
  | nil => rfl
  | cons piece rest ih =>
    rw [List.filterMap_cons_some (h piece (List.mem_cons_self ..)), List.flatten_cons,
      ih fun q hq => h q (List.mem_cons_of_mem _ hq), List.flatten_cons, List.map_append]

theorem ascii_answered (c : ShellCommand) (es : List Event) (h : ∀ e ∈ es, WritesAscii e) :
    (Run.run (step c) {} es).raised = false ∧
      (Run.run (step c) {} es).responded =
        (Run.run (step c) {} es).ended.flatMap c.report ++
          ((Run.run (step c) {} es).process.map c.opening).getD [] ∧
      ∀ d ∈ (Run.run (step c) {} es).ended,
        d.1.messages.flatten ++ d.1.flushed = d.1.read.map ascii := by
  have hplain := plain_run (c := c) h
  have hinv := inv_run (c := c) es
  have hnever : ∀ {p : Process} {held : List Char}, Reads p held → Ascii p → ¬ Fails p := by
    rintro p held hreads hascii ⟨piece, hmem, hd⟩
    rw [hreads.ascii hascii piece hmem] at hd
    cases hd
  refine ⟨?_, hinv.responded, ?_⟩
  · by_contra hraised
    rcases hinv.raised.mp (by simpa using hraised) with ⟨p, hp, hfails⟩ | ⟨d, hd, hfails⟩
    · exact hnever (hinv.reads p hp).1 (hplain.running p hp) hfails
    · exact hnever (hinv.ended d hd).1 (hplain.ended d hd) hfails
  · intro d hd
    obtain ⟨hreads, -⟩ := hinv.ended d hd
    rw [hreads.text]
    exact text_ascii (hreads.ascii (hplain.ended d hd))

/-- A script that writes two lines in two pieces and ends. -/
def twoLines : List Event :=
  [.run 0 true, .writes [79, 75, 10, 52], .readable, .writes [50, 10], .readable, .exits, .wake 1]

theorem two_seconds : (0 : ℚ) < 2 := by decide

def guppyCommand : ShellCommand := ⟨"guppy", 2, true, two_seconds⟩

theorem twoLines_answered :
    (∀ e ∈ twoLines, WritesAscii e) ∧
      (Run.run (step guppyCommand) {} twoLines).raised = false ∧
      (Run.run (step guppyCommand) {} twoLines).responded =
        (Run.run (step guppyCommand) {} twoLines).ended.flatMap guppyCommand.report ++
          ((Run.run (step guppyCommand) {} twoLines).process.map guppyCommand.opening).getD [] ∧
      ∀ d ∈ (Run.run (step guppyCommand) {} twoLines).ended,
        d.1.messages.flatten ++ d.1.flushed = d.1.read.map ascii := by
  have hascii : ∀ e ∈ twoLines, WritesAscii e := by
    simp [twoLines, WritesAscii]
  exact ⟨hascii, ascii_answered guppyCommand twoLines hascii⟩

end ShellCommand
end GuppyScreen
