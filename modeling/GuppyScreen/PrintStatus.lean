import GuppyScreen.Lib.Pointer
import GuppyScreen.Lib.Run
import GuppyScreen.Utils

/-!
# The status of a print (print_status_panel.cpp)

The panel asks for the metadata of a file when it learns the file's name, by a
notification or on a reconnect. A reply is handled whenever it arrives, for
whatever file it was asked.
-/

namespace GuppyScreen.PrintStatus
open Lib KUtils

/-- `get<float>()`, `none` where it throws. -/
def float? : Json → Option ℚ
  | .bool b => some (if b then 1 else 0)
  | j => j.number?.map Double.single

-- `static_cast<uint32_t>` of a value in its range, the fraction dropped.
def toUInt32 (q : ℚ) : ℕ := (Rounding.trunc q % 2 ^ 32).toNat

def seconds (eta : Json) : Option ℕ := (float? eta).map toUInt32

structure Panel where
  estimatedTimeS : ℕ := 0
  currentFile : Json := .null
  lastLayerInfo : Json := .null
  currentFilename : String := ""

namespace Panel

def fileName (s : State) : Json := s.getData ["printer_state", "print_stats", "filename"]

-- `reset` ends in a `std::stod` that may throw.
def resets (s : State) : Bool :=
  match s.getData ["printer_state", "configfile", "config", "extruder", "filament_diameter"] with
  | .null => true
  | .str diameter => (Double.stod diameter).isSome
  | _ => false

def reset (p : Panel) : Panel :=
  { p with
    estimatedTimeS := 0
    currentFile := .null
    lastLayerInfo := .null }

/-- The files `populate` asks the metadata of. -/
def populate (s : State) : List String :=
  match fileName s with
  | .str fname => if fname.length > 0 then [fname] else []
  | _ => []

/-- `reset(); populate();`. -/
def restart (s : State) (p : Panel) : Panel × List String :=
  (p.reset, if resets s then populate s else [])

/-- `data[ptr]` of a member: a null is left where there was none. -/
def probe (key : String) (j : Json) : Json := (Pointer.upsert id [key] j).getD j

/-- What `update_layers` leaves in `current_file`. -/
def lookLayers (info file : Json) : Json :=
  let file := if info.valueAt ["current_layer"] = .null ∧ file ≠ .null
    then probe "layer_height" (probe "first_layer_height" file) else file
  if info.valueAt ["total_layer"] = .null ∧ file ≠ .null then
    let file := probe "layer_count" file
    if file.valueAt ["layer_count"] = .null
    then probe "object_height" (probe "layer_height" (probe "first_layer_height" file)) else file
  else file

def updateLayers (p : Panel) (j : Json) : Panel :=
  let v := j.valueAt ["params", "0", "print_stats", "info"]
  let info := if v = .null then p.lastLayerInfo else v
  { p with
    lastLayerInfo := info
    currentFile := lookLayers info p.currentFile }

/-- `consume`, after `State` has taken the notification. -/
def consume (s : State) (p : Panel) (j : Json) : Panel × List String :=
  match j.valueAt ["params", "0", "print_stats", "filename"] with
  | .null => (p.updateLayers j, [])
  | printfile =>
    let fname := printfile.str?.getD ""
    if fname ≠ "" ∧ fname ≠ p.currentFilename then
      let next := restart s { p with currentFilename := fname }
      (if resets s then next.1.updateLayers j else next.1, next.2)
    else if fname = "" then ({ p with currentFilename := "" }.updateLayers j, [])
    else (p.updateLayers j, [])

/-- `handle_metadata`. A throw leaves what was done before it. -/
def handleMetadata (s : State) (p : Panel) (j : Json) : Panel :=
  match Pointer.upsert id ["result", "estimated_time"] j with
  | none => p
  | some j =>
    match j.valueAt ["result", "estimated_time"] with
    | .null => { p with currentFile := j.valueAt ["result"] }
    | eta =>
      match seconds eta with
      | none => p
      | some n =>
        let duration := s.getData ["printer_state", "print_stats", "print_duration"]
        if duration = .null ∨ (float? duration).isSome
        then { p with estimatedTimeS := n, currentFile := j.valueAt ["result"] }
        else { p with estimatedTimeS := n }

end Panel

/-! ### The panel and Moonraker -/

/-- `pending` has the files asked for, oldest first, `answered` the replies handled
so far, each with its file, and `reported` the last non-empty name. -/
structure World where
  state : State := ⟨.null⟩
  panel : Panel := {}
  pending : List String := []
  answered : List (String × Json) := []
  reported : Option String := none

inductive Event where
  /-- `InitPanel::connected`. -/
  | connected
  /-- A notification, or the reply to the subscription with `init` after it. -/
  | message (m : Message)
  /-- A reply to the oldest request. -/
  | metadata (j : Json)
  /-- The oldest request went with its connection. -/
  | lost

def nameIn (m : Message) : Option String :=
  match m.reports "print_stats" "filename" with
  | some (.str name) => if name = "" then none else some name
  | _ => none

def message (w : World) (m : Message) : World :=
  let state := w.state.deliver m
  let next := match m.via with
    | .notification => w.panel.consume state m.body
    | .reply => w.panel.restart state
  { w with
    state := state
    panel := next.1
    pending := w.pending ++ next.2
    reported := (nameIn m).or w.reported }

def step (w : World) : Event → World
  | .connected => { w with state := w.state.reset }
  | .message m => message w m
  | .metadata j =>
    match w.pending with
    | [] => w
    | file :: rest =>
      { w with
        panel := w.panel.handleMetadata w.state j
        pending := rest
        answered := w.answered ++ [(file, j)] }
  | .lost => { w with pending := w.pending.tail }

/-! ### What the panel keeps -/

/-- The same members, a null one counted as none. -/
def Agrees (a b : Json) : Prop := ∀ key, a.valueAt [key] = b.valueAt [key]

theorem Agrees.trans {a b c : Json} (h : Agrees a b) (k : Agrees b c) : Agrees a c :=
  fun key => (h key).trans (k key)

namespace Panel

theorem agrees_probe (key : String) (hw : Pointer.Word key) (j : Json) :
    Agrees (probe key j) j := by
  intro q
  unfold probe
  cases h : Pointer.upsert id [key] j with
  | none => rfl
  | some k =>
    refine Pointer.valueAt_look (by simpa using hw) h ?_
    by_cases hq : q = key
    · exact .inl (by rw [hq])
    · exact .inr (.inl hq)

theorem agrees_lookLayers (info file : Json) : Agrees (lookLayers info file) file := by
  have hheight := agrees_probe "layer_height" (by decide)
  have hfirst := agrees_probe "first_layer_height" (by decide)
  have hcount := agrees_probe "layer_count" (by decide)
  have hobject := agrees_probe "object_height" (by decide)
  have hcurrent : Agrees (if info.valueAt ["current_layer"] = .null ∧ file ≠ .null
      then probe "layer_height" (probe "first_layer_height" file) else file) file := by
    split_ifs
    · exact (hheight _).trans (hfirst _)
    · exact fun _ => rfl
  unfold lookLayers
  dsimp only
  generalize (if info.valueAt ["current_layer"] = .null ∧ file ≠ .null
    then probe "layer_height" (probe "first_layer_height" file) else file) = seen at hcurrent
  split_ifs
  · exact (hobject _).trans ((hheight _).trans ((hfirst _).trans ((hcount _).trans hcurrent)))
  · exact (hcount _).trans hcurrent
  · exact hcurrent

def Blank (p : Panel) : Prop := p.estimatedTimeS = 0 ∧ Agrees p.currentFile .null

def Same (p q : Panel) : Prop :=
  q.estimatedTimeS = p.estimatedTimeS ∧ Agrees q.currentFile p.currentFile

theorem same_updateLayers (p : Panel) (j : Json) : Same p (p.updateLayers j) :=
  ⟨rfl, agrees_lookLayers _ _⟩

theorem blank_reset (p : Panel) : p.reset.Blank := ⟨rfl, fun _ => rfl⟩

theorem Blank.same {p q : Panel} (h : p.Blank) (k : Same p q) : q.Blank :=
  ⟨k.1.trans h.1, k.2.trans h.2⟩

/-- A notification either starts the panel over or leaves what it shows; it starts
over for a name other than the current one. -/
theorem consume_shows (s : State) (p : Panel) (j : Json) :
    (p.consume s j).1.Blank ∨ Same p (p.consume s j).1 ∧
      ∀ name, j.valueAt ["params", "0", "print_stats", "filename"] = .str name → name ≠ "" →
        name = p.currentFilename := by
  unfold consume
  split
  · rename_i hnull
    refine .inr ⟨same_updateLayers p j, fun name hname => ?_⟩
    rw [hnull] at hname
    cases hname
  · rename_i printfile _
    dsimp only
    split_ifs with hnew hthrow hempty
    · exact .inl ((blank_reset _).same (same_updateLayers _ j))
    · exact .inl (blank_reset _)
    · refine .inr ⟨same_updateLayers { p with currentFilename := "" } j, fun name hname hne => ?_⟩
      rw [hname] at hempty
      exact absurd hempty hne
    · refine .inr ⟨same_updateLayers p j, fun name hname hne => ?_⟩
      rw [hname] at hnew
      by_contra hother
      exact hnew ⟨hne, hother⟩

theorem valueAt_result (j : Json) (key : String) :
    (j.valueAt ["result"]).valueAt [key] = j.valueAt ["result", key] := by
  unfold Json.valueAt
  rw [show ["result", key] = ["result"] ++ [key] from rfl, Json.at?_append]
  cases j.at? ["result"] <;> rfl

theorem agrees_result {j k : Json}
    (h : Pointer.upsert id ["result", "estimated_time"] j = some k) :
    Agrees (k.valueAt ["result"]) (j.valueAt ["result"]) := by
  intro key
  rw [valueAt_result, valueAt_result]
  refine Pointer.valueAt_look (by decide) h ?_
  by_cases hkey : key = "estimated_time"
  · exact .inl (by rw [hkey])
  · exact .inr (.inr (.inl hkey))

theorem handleMetadata_shows (s : State) (p : Panel) (j : Json) :
    let q := p.handleMetadata s j
    (q.estimatedTimeS = p.estimatedTimeS ∨
        seconds (j.valueAt ["result", "estimated_time"]) = some q.estimatedTimeS) ∧
      (q.currentFile = p.currentFile ∨ Agrees q.currentFile (j.valueAt ["result"])) := by
  unfold handleMetadata
  split
  · exact ⟨.inl rfl, .inl rfl⟩
  · rename_i k hk
    have heta := Pointer.valueAt_look (by decide) hk (.inl rfl)
    have hresult := agrees_result hk
    rw [heta]
    split
    · exact ⟨.inl rfl, .inr hresult⟩
    · split
      · exact ⟨.inl rfl, .inl rfl⟩
      · rename_i n hn
        dsimp only
        split_ifs
        · exact ⟨.inr hn, .inr hresult⟩
        · exact ⟨.inr hn, .inl rfl⟩

end Panel

/-! ### Every run -/

/-- The panel shows nothing, or the metadata of the file last reported. -/
def Shows (w : World) : Prop :=
  (w.panel.estimatedTimeS = 0 ∨ ∃ file j, w.reported = some file ∧ (file, j) ∈ w.answered ∧
      seconds (j.valueAt ["result", "estimated_time"]) = some w.panel.estimatedTimeS) ∧
    (Agrees w.panel.currentFile .null ∨ ∃ file j, w.reported = some file ∧
      (file, j) ∈ w.answered ∧ Agrees w.panel.currentFile (j.valueAt ["result"]))

/-- A reply that says something is for the file last reported, and a name that is
not the last one reported is not what the panel still holds for the current one. -/
def Meets (w : World) : Event → Prop
  | .message m => ∀ name, m.via = .notification → nameIn m = some name →
      w.reported = some name ∨ name ≠ w.panel.currentFilename
  | .metadata j => ∀ file, w.pending.head? = some file →
      w.reported = some file ∨ Agrees (j.valueAt ["result"]) .null
  | _ => True

theorem Panel.Blank.shows {w : World} (h : w.panel.Blank) : Shows w := ⟨.inl h.1, .inl h.2⟩

-- The world shows the same when only its files in transit changed.
theorem Shows.same {w v : World} (h : Shows w) (hp : Panel.Same w.panel v.panel)
    (hr : v.reported = w.reported) (ha : v.answered = w.answered) : Shows v := by
  obtain ⟨heta, hfile⟩ := h
  unfold Shows
  rw [hr, ha, hp.1]
  refine ⟨heta, ?_⟩
  rcases hfile with hnull | ⟨file, j, hrep, hm, hj⟩
  · exact .inl (hp.2.trans hnull)
  · exact .inr ⟨file, j, hrep, hm, hp.2.trans hj⟩

theorem nameIn_eq {m : Message} {name : String} (hv : m.via = .notification)
    (h : nameIn m = some name) :
    m.body.valueAt ["params", "0", "print_stats", "filename"] = .str name ∧ name ≠ "" := by
  unfold nameIn at h
  split at h
  · rename_i text hr
    split_ifs at h with hne
    cases h
    exact ⟨State.valueAt_of_reports hv hr, hne⟩
  · cases h

theorem shows_message {w : World} {m : Message} (h : Shows w) (hc : Meets w (.message m)) :
    Shows (message w m) := by
  unfold message
  dsimp only
  cases hv : m.via with
  | reply => exact Panel.Blank.shows (Panel.blank_reset w.panel)
  | notification =>
    dsimp only
    rcases Panel.consume_shows (w.state.deliver m) w.panel m.body with hblank | ⟨hsame, hold⟩
    · exact Panel.Blank.shows hblank
    · refine h.same hsame ?_ rfl
      cases hn : nameIn m with
      | none => rfl
      | some name =>
        -- The panel took the name for the one it has.
        obtain ⟨hname, hne⟩ := nameIn_eq hv hn
        rcases hc name hv hn with hrep | hother
        · exact hrep.symm
        · exact absurd (hold name hname hne) hother

theorem shows_metadata {w : World} {file : String} {rest : List String} {j : Json}
    (hpending : w.pending = file :: rest) (h : Shows w) (hc : Meets w (.metadata j)) :
    Shows (step w (.metadata j)) := by
  obtain ⟨heta, hfile⟩ := h
  obtain ⟨hneweta, hnewfile⟩ := Panel.handleMetadata_shows w.state w.panel j
  have hmem : (file, j) ∈ w.answered ++ [(file, j)] :=
    List.mem_append_right _ (List.mem_singleton_self _)
  unfold step
  rw [hpending]
  have hreply := hc file (by rw [hpending]; rfl)
  constructor
  · dsimp only
    rcases hneweta with hsame | hset
    · rw [hsame]
      rcases heta with hzero | ⟨f, i, hrep, hm, hi⟩
      · exact .inl hzero
      · exact .inr ⟨f, i, hrep, List.mem_append_left _ hm, hi⟩
    · rcases hreply with hrep | hnothing
      · exact .inr ⟨file, j, hrep, hmem, hset⟩
      · have hnull := hnothing "estimated_time"
        rw [Panel.valueAt_result] at hnull
        rw [hnull] at hset
        cases hset
  · dsimp only
    rcases hnewfile with hsame | hset
    · rw [hsame]
      rcases hfile with hnull | ⟨f, i, hrep, hm, hi⟩
      · exact .inl hnull
      · exact .inr ⟨f, i, hrep, List.mem_append_left _ hm, hi⟩
    · rcases hreply with hrep | hnothing
      · exact .inr ⟨file, j, hrep, hmem, hset⟩
      · exact .inl (hset.trans hnothing)

theorem shows_step (w : World) (e : Event) (h : Shows w) (hc : Meets w e) : Shows (step w e) := by
  cases e with
  | connected => exact h
  | message m => exact shows_message h hc
  | lost => exact h
  | metadata j =>
    cases hp : w.pending with
    | nil =>
      unfold step
      rw [hp]
      exact h
    | cons file rest => exact shows_metadata hp h hc

/-- In every run whose events meet the condition, every state reached shows the
metadata of the file last reported, or nothing. -/
theorem shows_in_every_run (events : List Event) (h : Run.Along step Meets {} events) :
    Shows (Run.run step {} events) ∧ Run.Along step (fun w _ => Shows w) {} events := by
  have hstart : Shows {} := ⟨.inl rfl, .inl fun _ => rfl⟩
  exact ⟨Run.invariant shows_step {} events hstart h,
    Run.along_of_invariant shows_step (fun _ _ hw _ => hw) {} events hstart h⟩

-- `notify_status_update` when a print of this file starts.
def starts (name : String) : Event :=
  .message ⟨.notification, .obj (.cons "params" (.arr (.cons (.obj (.cons "print_stats"
    (.obj (.cons "filename" (.str name) .nil)) .nil)) .nil)) .nil), by simp [Json.Wf, Fields.Sorted,
      Fields.Wf, Elems.Wf, Fields.keys], rfl⟩

def hourLong : Json :=
  .obj (.cons "result" (.obj (.cons "estimated_time" (.int 3600) .nil)) .nil)

def notFound : Json :=
  .obj (.cons "error" (.obj (.cons "code" (.int 404) .nil)) .nil)

-- The first file's metadata arrives before the second is printed, the second has none.
def onTime : List Event :=
  [starts "a.gcode", .metadata hourLong, starts "b.gcode", .metadata notFound]

-- It arrives after.
def late : List Event :=
  [starts "a.gcode", starts "b.gcode", .metadata hourLong, .metadata notFound]

theorem shows_onTime : Shows (Run.run step {} onTime) ∧
    Run.Along step (fun w _ => Shows w) {} onTime := by
  refine shows_in_every_run onTime ⟨?_, ?_, ?_, ?_, trivial⟩
  · rintro name - ⟨⟩
    exact .inr (by decide +kernel)
  · intro file hf
    have hfile : some "a.gcode" = some file := by
      rw [← hf]
      decide +kernel
    cases hfile
    exact .inl (by decide +kernel)
  · rintro name - ⟨⟩
    exact .inr (by decide +kernel)
  · exact fun _ _ => .inr fun _ => rfl

/-- The estimate of the first file stays with the second one. -/
theorem late_metadata_shown :
    (Run.run step {} late).reported = some "b.gcode" ∧
      (Run.run step {} late).panel.estimatedTimeS = 3600 ∧ ¬ Shows (Run.run step {} late) := by
  have hreported : (Run.run step {} late).reported = some "b.gcode" := by decide +kernel
  have heta : (Run.run step {} late).panel.estimatedTimeS = 3600 := by decide +kernel
  have hanswered : (Run.run step {} late).answered =
      [("a.gcode", hourLong), ("b.gcode", notFound)] := by decide +kernel
  refine ⟨hreported, heta, ?_⟩
  rintro ⟨hzero | ⟨file, j, hrep, hm, hj⟩, -⟩
  · rw [heta] at hzero
    cases hzero
  · rw [hreported] at hrep
    cases hrep
    have hb : j = notFound := by simpa [hanswered] using hm
    rw [hb] at hj
    cases hj

end GuppyScreen.PrintStatus
