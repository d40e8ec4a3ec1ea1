import GuppyScreen.Lib.Outcome
import GuppyScreen.Lib.Pointer
import GuppyScreen.Lib.Table
import GuppyScreen.MeshView
import GuppyScreen.Utils

/-!
# The bed mesh panel (bedmesh_panel.cpp)

`refresh_views` draws an update of the printer's `bed_mesh`, and reads whatever the
update leaves out from `State`, which has merged the update by then. It may throw half
way, at a value of the wrong type; what it did before stays. `foreground` draws all
that `State` holds.
-/

namespace GuppyScreen.BedMesh
open Lib Text

/-! ### Values off the websocket -/

def row? (j : Json) : Option (List ℚ) :=
  match j with
  | .arr l => l.toList.mapM KUtils.double?
  | _ => none

/-- `matrix_from`, `none` where `get` throws. -/
def matrixFrom (j : Json) : Option (List (List ℚ)) :=
  match j with
  | .arr l => l.toList.mapM row?
  | _ => some []

def cornerFrom : Json → Option (ℚ × ℚ)
  | .arr (.cons x (.cons y .nil)) =>
    match KUtils.double? x, KUtils.double? y with
    | some x, some y => some (x, y)
    | _, _ => none
  | _ => none

/-- `get<std::string>` with a null read as the empty text. -/
def profileName : Json → Option String
  | .null => some ""
  | .str s => some s
  | _ => none

/-- The keys of `items()`. -/
def itemKeys : Json → List String
  | .null => []
  | .obj fs => fs.keys
  | .arr l => (List.range l.toList.length).map toString
  | _ => [""]

/-- What a pointer with a profile's name in it reads, `none` where the text is none. -/
def profileData (s : State) (profile member : String) : Option Json :=
  (Pointer.parse ("/printer_state/bed_mesh/profiles/" ++ profile ++ member)).map s.getData

/-- The value an update has for a key, or else `State`'s. -/
def orState (s : State) (bm : Json) (key : String) : Json :=
  match (bm.get? key).getD .null with
  | .null => s.getData ["printer_state", "bed_mesh", key]
  | v => v

/-! ### The panel -/

def upload : String := "\uF093"
def close : String := "\uF00D"

/-- The profiles: a table whose first cells may span their right neighbour. -/
structure ProfileTable where
  cells : Table := .new
  merged : ℕ → Bool := fun _ => false

namespace ProfileTable

/-- One round of the loop of `refresh_views`. -/
def writeRow (t : ProfileTable) (active : String) (row : ℕ) (key : String) : ProfileTable where
  cells := t.cells.setCells row [(1, if key = active then "" else upload), (0, key), (2, close)]
  merged r := if r = row then key = active else t.merged r

def writeRows (active : String) : ℕ → List String → ProfileTable → ProfileTable
  | _, [], t => t
  | row, key :: keys, t => writeRows active (row + 1) keys (t.writeRow active row key)

def setRowCnt (t : ProfileTable) (n : ℕ) : ProfileTable where
  cells := t.cells.setRowCnt n
  merged r := decide (r < n) && t.merged r

def fill (t : ProfileTable) (active : String) (keys : List String) : ProfileTable :=
  (writeRows active 0 keys t).setRowCnt keys.length

end ProfileTable

/-- `extents` is part of the mesh view: zeroes where the bed area is unknown. -/
structure Panel where
  activeProfile : String := ""
  saveEnabled : Bool := true
  probed : List (List ℚ) := []
  interpolated : List (List ℚ) := []
  meshSummary : String := ""
  view : MeshView ℚ
  extents : (ℚ × ℚ) × (ℚ × ℚ) := ((0, 0), (0, 0))
  flat : Bool := false
  statsLabel : String := ""
  profileHidden : Bool := false
  profileTable : ProfileTable := {}
  profileInfo : Table := .new
  matrixIdx : ℕ := 1
  promptHidden : Bool := true
  input : String := ""
  sent : List String := []

namespace Panel

def signed (q : ℚ) : String := (if q < 0 then "" else "+") ++ Double.fixed 3 q

def stats (summary : String) (v : MeshView ℚ) : String :=
  if v.mesh = [] then (if summary = "" then "No mesh loaded" else summary)
  else summary ++ "\nRange " ++ Double.fixed 3 (Double.rnd (v.zmax - v.zmin)) ++
    "   Min " ++ signed v.zmin ++ "   Max " ++ signed v.zmax

def selectedMatrix (p : Panel) : List (List ℚ) :=
  if p.matrixIdx = 1 ∧ p.interpolated ≠ [] then p.interpolated else p.probed

def showSelectedMatrix (p : Panel) : Panel :=
  let view := p.view.setMesh p.selectedMatrix
  { p with
    view := view
    statsLabel := stats p.meshSummary view }

/-! ### The table of a profile's parameters -/

section
variable (shortest : ℚ → String)

/-- Writes a row whose value may throw after its name is written. -/
def namedRow (label : String) (value : Option String) (row : ℕ) (p : Panel) : Except Panel Panel :=
  let named := { p with profileInfo := p.profileInfo.setCell row 0 label }
  match value with
  | none => .error named
  | some text => .ok { named with profileInfo := named.profileInfo.setCell row 1 text }

/-- The values of an axis: what is absent is left out. -/
def axisValues (params : Fields) (corners counts : List String) : Option (List String) := do
  let mm ← (corners.filterMap fun k => (params.find? k).filter (· ≠ .null)).mapM KUtils.double?
  let ns ← (counts.filterMap fun k => (params.find? k).filter (· ≠ .null)).mapM KUtils.asInt
  return mm.map Double.general ++ ns.map toString

/-- `axis_row`, which reads all its values before it writes. -/
def axisRow (label : String) (values : Option (List String)) (row : ℕ) (p : Panel) :
    Except Panel Panel :=
  match values with
  | none => .error p
  | some values => namedRow label (some (", ".intercalate values)) row p

/-- A row for a parameter that may be absent. -/
def optionalRow (value : Json) (label : String) (text : Option String) (row : ℕ) (p : Panel) :
    Except Panel Panel :=
  if value = .null then .ok p else namedRow label text row p

def rowsFor (value : Json) : ℕ := if value = .null then 0 else 1

def profileInfoRows (params : Fields) (p : Panel) : Except Panel Panel := do
  let algo := (params.find? "algo").getD .null
  let tension := (params.find? "tension").getD .null
  let n := rowsFor algo + rowsFor tension
  let p ← optionalRow algo "Algorithm" algo.str? 0 p
  let p ← optionalRow tension "Tension" ((KUtils.double? tension).map shortest) (rowsFor algo) p
  let p ← axisRow "X min/max/n/pps"
    (axisValues params ["min_x", "max_x"] ["x_count", "mesh_x_pps"]) n p
  let p ← axisRow "Y min/max/n/pps"
    (axisValues params ["min_y", "max_y"] ["y_count", "mesh_y_pps"]) (n + 1) p
  return { p with profileInfo := p.profileInfo.setRowCnt (n + 2) }

def refreshProfileInfo (s : State) (p : Panel) : Except Panel Panel :=
  match profileData s p.activeProfile "/mesh_params" with
  | none => .error p
  | some .null => .ok p
  | some (.obj params) => profileInfoRows shortest params p
  | some _ => .error p

/-! ### Refreshing -/

def extentsOf (lo hi : Json) : (ℚ × ℚ) × (ℚ × ℚ) :=
  match cornerFrom lo, cornerFrom hi with
  | some lo, some hi => (lo, hi)
  | _, _ => ((0, 0), (0, 0))

def probedText : List (List ℚ) → String
  | [] => ""
  | first :: rest =>
    if first = [] then ""
    else "   " ++ toString first.length ++ "x" ++ toString (rest.length + 1) ++ " probed"

/-- The end of the branch for an active profile. -/
def summarize (s : State) (p : Panel) : Except Panel Panel :=
  match profileData s p.activeProfile "/mesh_params/algo" with
  | none => .error p
  | some algo =>
    let p := { p with meshSummary := p.activeProfile ++ probedText p.probed }
    match algo with
    | .null => .ok p.showSelectedMatrix
    | .str name => .ok { p with meshSummary := p.meshSummary ++ "   " ++ name }.showSelectedMatrix
    | _ => .error p

def loadProbed (j : Json) (p : Panel) : Except Panel Panel :=
  match matrixFrom j with
  | none => .error p
  | some m => .ok { p with probed := m }

def loadInterpolated (j : Json) (p : Panel) : Except Panel Panel :=
  match matrixFrom j with
  | none => .error p
  | some m => .ok { p with interpolated := m }

/-- What is drawn for an active profile, from the values read for it. -/
def drawProfile (s : State) (probed interp lo hi : Json) (p : Panel) : Except Panel Panel := do
  let p ← refreshProfileInfo shortest s { p with saveEnabled := true }
  let p ← loadProbed probed p
  let p ← loadInterpolated interp p
  summarize s { p with extents := extentsOf lo hi }

def noProfile (p : Panel) : Panel :=
  { p with
    probed := []
    interpolated := []
    meshSummary := ""
    view := { p.view with
      mesh := []
      zmin := 0
      zmax := 0
      zref := 0 }
    extents := ((0, 0), (0, 0))
    statsLabel := "No mesh loaded"
    saveEnabled := false }

def refreshMesh (s : State) (bm : Json) (p : Panel) : Except Panel Panel :=
  match profileName (orState s bm "profile_name") with
  | none => .error p
  | some active =>
    let p := { p with activeProfile := active }
    if active = "" then .ok p.noProfile
    else
      p.drawProfile shortest s (orState s bm "probed_matrix") (orState s bm "mesh_matrix")
        (orState s bm "mesh_min") (orState s bm "mesh_max")

def refreshProfiles (keys : List String) (p : Panel) : Panel :=
  if keys = [] then { p with profileHidden := true }
  else
    { p with
      profileHidden := false
      profileTable := p.profileTable.fill p.activeProfile keys }

def refreshViews (s : State) (bm : Json) (p : Panel) : Except Panel Panel :=
  if bm = .null then .ok p
  else (p.refreshMesh shortest s bm).map (refreshProfiles (itemKeys (orState s bm "profiles")))

def consume (s : State) (body : Json) (p : Panel) : Except Panel Panel :=
  p.refreshViews shortest s (body.valueAt ["params", "0", "bed_mesh"])

def foreground (s : State) (p : Panel) : Except Panel Panel :=
  p.refreshViews shortest s (s.getData ["printer_state", "bed_mesh"])

end

/-! ### Buttons -/

def gcodeScript (p : Panel) (script : String) : Panel := { p with sent := p.sent ++ [script] }

/-- `handle_profile_action` of a cell. -/
def tap (row col : ℕ) (p : Panel) : Panel :=
  let cells := p.profileTable.cells
  if p.profileHidden ∨ cells.rowCnt ≤ row then p
  else
    let name := (cells.text row 0).getD ""
    if col = 2 then p.gcodeScript ("BED_MESH_PROFILE REMOVE=\"" ++ name ++ "\"\nSAVE_CONFIG")
    else if col = 1 ∧ (cells.text row col).getD "" ≠ "" then
      p.gcodeScript ("BED_MESH_PROFILE LOAD=\"" ++ name ++ "\"")
    else p

def pressSave (p : Panel) : Panel :=
  if p.saveEnabled then
    { p with
      promptHidden := false
      input := if p.activeProfile = "" then p.input else p.activeProfile }
  else p

/-- `handle_prompt_save` and the READY of `handle_kb_input`, of a prompt that is open. -/
def promptSave (p : Panel) : Panel :=
  if p.promptHidden ∨ p.input = "" then p
  else
    { p.gcodeScript ("BED_MESH_PROFILE SAVE=\"" ++ p.input ++ "\"\nSAVE_CONFIG") with
      input := ""
      promptHidden := true }

def calibrateScript (s : State) : Option String := do
  let home := if ← KUtils.isHomed s then "" else "G28\n"
  let wipe := if ← KUtils.hasGcodeMacro s "WIPE_NOZZLE" then
      "SAVE_GCODE_STATE NAME=guppy_bedmesh_wipe\nWIPE_NOZZLE\n" ++
        "RESTORE_GCODE_STATE NAME=guppy_bedmesh_wipe\n"
    else ""
  return home ++ wipe ++ "BED_MESH_CALIBRATE"

def pressCalibrate (s : State) (p : Panel) : Panel :=
  match calibrateScript s with
  | none => p
  | some script => p.gcodeScript script

/-- A button of a selector; `set_selected_idx` ignores what is none. -/
def selectMatrix (i : ℕ) (p : Panel) : Panel :=
  showSelectedMatrix { p with matrixIdx := if i < 2 then i else p.matrixIdx }

def selectView (i : ℕ) (p : Panel) : Panel := { p with flat := decide (i ≠ 0) }

end Panel

/-! ### The panel and the printer -/

/-- `filled` is what the last refresh that filled the table put in: the keys and the
profile that was active. `threw` says that the last refresh did not come to its end. -/
structure World where
  state : State
  panel : Panel
  filled : Option (List String × String) := none
  threw : Bool := false

inductive Event where
  /-- `initThrows`: of a subscription's reply, `main_panel.init` throws before this panel. -/
  | update (m : Message) (initThrows : Bool)
  | connected
  | foreground
  | tap (row col : ℕ)
  | save
  | clear
  | calibrate
  | edit (f : String → String)
  | promptSave
  | promptCancel
  | selectView (i : ℕ)
  | selectMatrix (i : ℕ)

/-- The part of a message the panel looks at. -/
def bedMesh (m : Message) : Json := m.body.valueAt (m.via.path ++ ["bed_mesh"])

namespace World
variable (shortest : ℚ → String)

def refresh (bm : Json) (w : World) : World :=
  if bm = .null then w
  else
    match w.panel.refreshViews shortest w.state bm with
    | .error p => { w with
        panel := p
        threw := true }
    | .ok p => { w with
        panel := p
        threw := false
        filled := match itemKeys (orState w.state bm "profiles") with
          | [] => w.filled
          | keys => some (keys, p.activeProfile) }

def onPanel (f : Panel → Panel) (w : World) : World := { w with panel := f w.panel }

/-- `State` is told of a message before any panel, and forgets all on a connection. -/
def step (w : World) : Event → World
  | .update m initThrows =>
    let w := { w with state := w.state.deliver m }
    if m.via = .reply ∧ initThrows = true then w else w.refresh shortest (bedMesh m)
  | .connected => { w with state := w.state.reset }
  | .foreground => w.refresh shortest (w.state.getData ["printer_state", "bed_mesh"])
  | .tap row col => w.onPanel (·.tap row col)
  | .save => w.onPanel (·.pressSave)
  | .clear => w.onPanel (·.gcodeScript "BED_MESH_CLEAR")
  | .calibrate => w.onPanel (·.pressCalibrate w.state)
  | .edit f => w.onPanel fun p => if p.promptHidden then p else { p with input := f p.input }
  | .promptSave => w.onPanel (·.promptSave)
  | .promptCancel => w.onPanel ({ · with promptHidden := true })
  | .selectView i => w.onPanel (·.selectView i)
  | .selectMatrix i => w.onPanel (·.selectMatrix i)

end World

/-! ### The table of profiles -/

/-- The table lists the keys in order, and offers to load all but the active one. -/
structure Lists (t : ProfileTable) (keys : List String) (active : String) : Prop where
  count : t.cells.rowCnt = keys.length
  name : ∀ (r : ℕ) (k : String), keys[r]? = some k → t.cells.text r 0 = some k
  load : ∀ (r : ℕ) (k : String), keys[r]? = some k →
    t.cells.text r 1 = some (if k = active then "" else upload)
  remove : ∀ (r : ℕ) (k : String), keys[r]? = some k → t.cells.text r 2 = some close
  merged : ∀ r, t.merged r = true ↔ keys[r]? = some active

namespace ProfileTable

theorem writeRows_below (active : String) (keys : List String) (row : ℕ) (t : ProfileTable) {r : ℕ}
    (hr : r < row) (c : ℕ) : (writeRows active row keys t).cells.text r c = t.cells.text r c ∧
      (writeRows active row keys t).merged r = t.merged r := by
  induction keys generalizing row t with
  | nil => exact ⟨rfl, rfl⟩
  | cons key keys ih =>
    rw [writeRows]
    have hrest := ih (row + 1) (t.writeRow active row key) (by omega)
    have hne : r ≠ row := by omega
    refine ⟨hrest.1.trans ?_, hrest.2.trans ?_⟩
    · exact Table.text_setCells_row hne _ c
    · simp [writeRow, hne]

theorem writeRows_at (active : String) (keys : List String) (row : ℕ) (t : ProfileTable) {r : ℕ}
    {k : String} (hk : keys[r]? = some k) :
    (writeRows active row keys t).cells.text (row + r) 0 = some k ∧
      (writeRows active row keys t).cells.text (row + r) 1 =
        some (if k = active then "" else upload) ∧
      (writeRows active row keys t).cells.text (row + r) 2 = some close ∧
      (writeRows active row keys t).merged (row + r) = decide (k = active) := by
  induction keys generalizing row t r with
  | nil => cases hk
  | cons key keys ih =>
    rw [writeRows]
    cases r with
    | zero =>
      simp only [List.getElem?_cons_zero, Option.some_inj] at hk
      subst hk
      have hkeep := fun c =>
        writeRows_below active keys (row + 1) (t.writeRow active row key) (Nat.lt_succ_self row) c
      simp only [Nat.add_zero]
      rw [(hkeep 0).1, (hkeep 1).1, (hkeep 2).1, (hkeep 0).2]
      simp [writeRow, Table.setCells, Table.setCell]
    | succ r =>
      have hrow : row + (r + 1) = row + 1 + r := by omega
      rw [hrow]
      exact ih (row + 1) (t.writeRow active row key) hk

theorem fill_lists (t : ProfileTable) (active : String) (keys : List String) :
    Lists (t.fill active keys) keys active := by
  have hrow : ∀ {r : ℕ} {k : String}, keys[r]? = some k → r < keys.length := fun h =>
    (List.getElem?_eq_some_iff.mp h).1
  have hat := fun {r : ℕ} {k : String} (h : keys[r]? = some k) => writeRows_at active keys 0 t h
  simp only [Nat.zero_add] at hat
  constructor
  · rfl
  · intro r k hk
    exact (Table.text_setRowCnt _ (hrow hk) 0).trans (hat hk).1
  · intro r k hk
    exact (Table.text_setRowCnt _ (hrow hk) 1).trans (hat hk).2.1
  · intro r k hk
    exact (Table.text_setRowCnt _ (hrow hk) 2).trans (hat hk).2.2.1
  · intro r
    simp only [fill, setRowCnt, Bool.and_eq_true, decide_eq_true_iff]
    constructor
    · rintro ⟨hr, hm⟩
      have hk := List.getElem?_eq_getElem hr
      rw [(hat hk).2.2.2, decide_eq_true_iff] at hm
      rw [hk, hm]
    · intro hk
      exact ⟨hrow hk, by rw [(hat hk).2.2.2, decide_eq_true_iff]⟩

end ProfileTable

theorem Lists.inj {t : ProfileTable} {ks ls : List String} {a b : String} (h : Lists t ks a)
    (h' : Lists t ls b) : ks = ls := by
  apply List.ext_getElem?
  intro r
  have hlen := h.count.symm.trans h'.count
  cases hk : ks[r]? with
  | none =>
    have hr := List.getElem?_eq_none_iff.mp hk
    rw [List.getElem?_eq_none_iff.mpr (by omega)]
  | some k =>
    have hr := (List.getElem?_eq_some_iff.mp hk).1
    have hl := List.getElem?_eq_getElem (l := ls) (i := r) (by omega)
    rw [hl, ← h'.name r _ hl, h.name r k hk]

/-! ### An update against all that State holds -/

def stored (s : State) (key : String) : Json := s.getData ["printer_state", "bed_mesh", key]

/-- What is read through an update is what `State` stores, up to the members of objects. -/
def Agrees (s : State) (bm : Json) : Prop :=
  ∀ key, orState s bm key = stored s key ∨
    ∃ ps fs, orState s bm key = .obj ps ∧ stored s key = .obj fs

theorem Agrees.read {s : State} {bm : Json} (h : Agrees s bm) {α : Type} {f : Json → α}
    (hf : ∀ ps fs, f (.obj ps) = f (.obj fs)) (key : String) :
    f (orState s bm key) = f (stored s key) := by
  rcases h key with heq | ⟨ps, fs, hps, hfs⟩
  · rw [heq]
  · rw [hps, hfs]
    exact hf ps fs

/-- What `State` holds of the bed mesh is an object, where it holds anything. -/
theorem stored_object {s : State} (h : s.Mirror) {v : Json}
    (hv : s.data.at? ["printer_state", "bed_mesh"] = some v) : v.isObject = true := by
  have hget : ∃ t, s.data.get? "printer_state" = some t ∧ t.at? ["bed_mesh"] = some v := by
    cases hd : s.data with
    | obj fs =>
      rw [hd, Json.at?_obj] at hv
      exact Option.bind_eq_some_iff.mp hv
    | arr l =>
      rw [hd, Json.at?, show arrayIndex "printer_state" = none by decide] at hv
      cases hv
    | _ =>
      rw [hd] at hv
      cases hv
  obtain ⟨t, ht, htv⟩ := hget
  obtain ⟨fs, rfl, hfs⟩ := h.2 t ht
  rw [Json.at?_obj] at htv
  obtain ⟨w, hw, hwv⟩ := Option.bind_eq_some_iff.mp htv
  rw [Json.at?_nil, Option.some_inj] at hwv
  rw [← hwv]
  exact hfs "bed_mesh" w hw

theorem get?_stored {s : State} (h : s.Mirror) (key : String) :
    ((s.getData ["printer_state", "bed_mesh"]).get? key).getD .null = stored s key := by
  have happ := Json.at?_append s.data ["printer_state", "bed_mesh"] [key]
  unfold stored State.getData Json.valueAt
  rw [show ["printer_state", "bed_mesh", key] = ["printer_state", "bed_mesh"] ++ [key] from rfl,
    happ]
  cases hv : s.data.at? ["printer_state", "bed_mesh"] with
  | none => rfl
  | some v =>
    have hobj := State.isObject_eq (stored_object h hv)
    rw [Option.getD_some, Option.bind_some, hobj, Json.at?_obj]
    change (v.members.find? key).getD .null = _
    cases v.members.find? key with
    | none => rfl
    | some w => simp

theorem orState_full {s : State} (h : s.Mirror) (key : String) :
    orState s (s.getData ["printer_state", "bed_mesh"]) key = stored s key := by
  unfold orState
  rw [get?_stored h key]
  split
  · rfl
  · rfl

theorem agrees_full {s : State} (h : s.Mirror) :
    Agrees s (s.getData ["printer_state", "bed_mesh"]) := fun key => Or.inl (orState_full h key)

/-- `State` when the panel gets to see a message. -/
def after (s : State) (before : List Message) (m : Message) : State :=
  (s.reset.deliverAll before).deliver m

theorem bedMesh_eq (m : Message) : bedMesh m = (m.status.get? "bed_mesh").getD .null := by
  have happ := Json.at?_append m.body m.via.path ["bed_mesh"]
  unfold bedMesh Json.valueAt
  rw [happ]
  cases hp : m.body.at? m.via.path with
  | none =>
    have hs : m.status = .null := by
      rw [Message.status, Json.valueAt, hp]
      rfl
    rw [hs]
    rfl
  | some v =>
    have hs : m.status = v := by
      rw [Message.status, Json.valueAt, hp]
      rfl
    have hobj : v = .null ∨ v = .obj v.members := by
      rcases State.status_cases m with hnull | ⟨ps, hps, -⟩
      · exact Or.inl (hs.symm.trans hnull)
      · right
        rw [← hs, hps]
        rfl
    rw [hs, Option.bind_some]
    rcases hobj with hnull | hobj
    · rw [hnull]
      rfl
    · rw [hobj, Json.at?_obj]
      change _ = (v.members.find? "bed_mesh").getD .null
      cases v.members.find? "bed_mesh" with
      | none => rfl
      | some w => simp

/-- `State` merges an update before a panel sees it. -/
theorem agrees_delta {s : State} (h : s.Mirror) (m : Message) :
    Agrees (s.deliver m) (bedMesh m) := by
  intro key
  have hreport : (bedMesh m).get? key = m.reports "bed_mesh" key := by
    rw [bedMesh_eq]
    unfold Message.reports
    cases m.status.get? "bed_mesh" with
    | none => rfl
    | some d => rfl
  have hfield := State.field_deliver s m h "bed_mesh" key
  have hstored : stored (s.deliver m) key =
      (Fields.merged (s.field "bed_mesh" key) (m.reports "bed_mesh" key)).getD .null := by
    rw [← hfield]
    rfl
  unfold orState
  rw [hreport]
  cases hr : m.reports "bed_mesh" key with
  | none => exact Or.inl rfl
  | some v =>
    cases v with
    | null => exact Or.inl rfl
    | obj ps =>
      rw [hr, Fields.merged_some (by simp), Option.getD_some, Json.mergePatch] at hstored
      exact Or.inr ⟨ps, _, rfl, hstored⟩
    | _ =>
      rw [hr, Fields.merged_some (by simp), Option.getD_some, Json.mergePatch] at hstored
      · exact Or.inl hstored.symm
      · intro ps hps
        cases hps

theorem bed_mesh_ne_null (s : State) {m : Message}
    (hbed : m.status.get? "bed_mesh" ≠ none) :
    bedMesh m ≠ .null ∧ (s.deliver m).getData ["printer_state", "bed_mesh"] ≠ .null := by
  obtain ⟨d, hd⟩ := Option.ne_none_iff_exists'.mp hbed
  rcases State.status_cases m with hnull | ⟨ps, hps, hsorted, -, hu⟩
  · rw [hnull] at hd
    cases hd
  · rw [hps] at hd
    have hfind : ps.find? "bed_mesh" = some d := hd
    have hobj := State.isObject_eq (State.update_objects hu hfind)
    constructor
    · rw [bedMesh_eq, hps, hd, Option.getD_some, hobj]
      simp
    · unfold State.getData Json.valueAt
      rw [State.deliver_obj s m hps, Json.set, Json.at?_obj, Fields.find?_insert_self,
        Option.bind_some, Json.at?_obj, Fields.find?_mergeInto _ _ hsorted, hfind, hobj,
        Fields.merged_some (by simp), Option.bind_some, Json.at?_nil, Option.getD_some,
        Json.mergePatch]
      simp

namespace Panel

section
variable (shortest : ℚ → String)

theorem refreshMesh_agrees {s : State} {bm bm' : Json} (h : Agrees s bm) (h' : Agrees s bm')
    (p : Panel) : p.refreshMesh shortest s bm = p.refreshMesh shortest s bm' := by
  have hname : ∀ key, profileName (orState s bm key) = profileName (orState s bm' key) := fun key =>
    (h.read (f := profileName) (fun _ _ => rfl) key).trans
      (h'.read (f := profileName) (fun _ _ => rfl) key).symm
  have hmatrix : ∀ key, matrixFrom (orState s bm key) = matrixFrom (orState s bm' key) := fun key =>
    (h.read (f := matrixFrom) (fun _ _ => rfl) key).trans
      (h'.read (f := matrixFrom) (fun _ _ => rfl) key).symm
  have hcorner : ∀ key, cornerFrom (orState s bm key) = cornerFrom (orState s bm' key) := fun key =>
    (h.read (f := cornerFrom) (fun _ _ => rfl) key).trans
      (h'.read (f := cornerFrom) (fun _ _ => rfl) key).symm
  unfold refreshMesh drawProfile loadProbed loadInterpolated extentsOf
  simp only [hname, hmatrix, hcorner]

theorem refreshProfiles_inj {p : Panel} {ks ls : List String} :
    refreshProfiles ks p = refreshProfiles ls p ↔ ks = ls := by
  constructor
  · intro h
    have hhidden := congrArg Panel.profileHidden h
    have htable := congrArg Panel.profileTable h
    unfold refreshProfiles at hhidden htable
    by_cases hk : ks = [] <;> by_cases hl : ls = []
    · rw [hk, hl]
    · simp [hk, hl] at hhidden
    · simp [hk, hl] at hhidden
    · rw [if_neg hk, if_neg hl] at htable
      have hlists := ProfileTable.fill_lists p.profileTable p.activeProfile ks
      dsimp only at htable
      rw [htable] at hlists
      exact hlists.inj (ProfileTable.fill_lists _ _ _)
  · intro h
    rw [h]

/-- After any run of messages, drawing an update alone shows what drawing all of `State`
would, exactly when the update lists the profiles `State` then holds; everything but the
table of profiles is the same in any case. -/
theorem consume_eq_foreground_iff (s : State) (before : List Message) (m : Message)
    (hv : m.via = .notification) (hbed : m.status.get? "bed_mesh" ≠ none) (p : Panel) :
    p.refreshMesh shortest (after s before m) (bedMesh m) =
      p.refreshMesh shortest (after s before m)
        ((after s before m).getData ["printer_state", "bed_mesh"]) ∧
    (p.consume shortest (after s before m) m.body = p.foreground shortest (after s before m) ↔
      ∀ q, p.refreshMesh shortest (after s before m) (bedMesh m) = .ok q →
        itemKeys (orState (after s before m) (bedMesh m) "profiles") =
          itemKeys (stored (after s before m) "profiles")) := by
  have hmirror := State.mirror_deliverAll s.reset before (State.mirror_reset s)
  have hafter : (after s before m).Mirror := State.mirror_deliver _ m hmirror
  have hdelta : Agrees (after s before m) (bedMesh m) := agrees_delta hmirror m
  have hsame := refreshMesh_agrees shortest hdelta (agrees_full hafter) p
  have hne : bedMesh m ≠ .null ∧
      (after s before m).getData ["printer_state", "bed_mesh"] ≠ .null :=
    bed_mesh_ne_null _ hbed
  have hkeys := orState_full hafter "profiles"
  refine ⟨hsame, ?_⟩
  have hpart : m.body.valueAt ["params", "0", "bed_mesh"] = bedMesh m := by
    rw [bedMesh, hv]
    rfl
  unfold consume foreground
  rw [hpart]
  unfold refreshViews
  rw [if_neg hne.1, if_neg hne.2, hkeys]
  rw [hsame]
  cases p.refreshMesh shortest (after s before m)
      ((after s before m).getData ["printer_state", "bed_mesh"]) with
  | error q =>
    refine iff_of_true rfl fun q' hq' => ?_
    cases hq'
  | ok q =>
    constructor
    · intro h q' hq'
      cases hq'
      exact refreshProfiles_inj.mp (Except.ok.inj h)
    · intro h
      exact congrArg Except.ok (refreshProfiles_inj.mpr (h q rfl))

end

-- A profile is removed: the update lists one, `State` still two, and nothing is active.
theorem removed_profile_shown_again :
    ¬ ({ view := .new ℚ 456 252 } : Panel).consume Double.general
        (after ⟨.null⟩ [State.twoProfiles] State.oneProfile) State.oneProfile.body =
      ({ view := .new ℚ 456 252 } : Panel).foreground Double.general
        (after ⟨.null⟩ [State.twoProfiles] State.oneProfile) := by
  rw [(consume_eq_foreground_iff Double.general ⟨.null⟩ [State.twoProfiles] State.oneProfile rfl
    (by decide) _).2]
  intro h
  have hkeys := h (noProfile { view := .new ℚ 456 252 }) rfl
  revert hkeys
  decide

/-! ### What a refresh draws -/

section
variable (shortest : ℚ → String)

/-- `q` is `p` but for the table of parameters. -/
def InfoOnly (p q : Panel) : Prop := ∃ t, q = { p with profileInfo := t }

theorem infoOnly_namedRow {p q : Panel} (h : InfoOnly p q) (label : String) (value : Option String)
    (row : ℕ) : Outcome.Post (InfoOnly p) (InfoOnly p) (namedRow label value row q) := by
  obtain ⟨t, rfl⟩ := h
  unfold namedRow
  cases value with
  | none => exact ⟨_, rfl⟩
  | some text => exact ⟨_, rfl⟩

theorem infoOnly_optionalRow {p q : Panel} (h : InfoOnly p q) (value : Json) (label : String)
    (text : Option String) (row : ℕ) :
    Outcome.Post (InfoOnly p) (InfoOnly p) (optionalRow value label text row q) := by
  unfold optionalRow
  split_ifs
  · exact h
  · exact infoOnly_namedRow h label text row

theorem infoOnly_axisRow {p q : Panel} (h : InfoOnly p q) (label : String)
    (values : Option (List String)) (row : ℕ) :
    Outcome.Post (InfoOnly p) (InfoOnly p) (axisRow label values row q) := by
  unfold axisRow
  cases values with
  | none => exact h
  | some values => exact infoOnly_namedRow h label _ row

theorem infoOnly_refreshProfileInfo (s : State) (p : Panel) :
    Outcome.Post (InfoOnly p) (InfoOnly p) (p.refreshProfileInfo shortest s) := by
  have hself : InfoOnly p p := ⟨_, rfl⟩
  unfold refreshProfileInfo
  split
  · exact hself
  · exact hself
  · unfold profileInfoRows
    dsimp only
    refine Outcome.post_bind (infoOnly_optionalRow hself _ _ _ _) fun q hq => ?_
    refine Outcome.post_bind (infoOnly_optionalRow hq _ _ _ _) fun q hq => ?_
    refine Outcome.post_bind (infoOnly_axisRow hq _ _ _) fun q hq => ?_
    refine Outcome.post_bind (infoOnly_axisRow hq _ _ _) fun q hq => ?_
    obtain ⟨t, rfl⟩ := hq
    exact ⟨_, rfl⟩
  · exact hself

/-- The panel draws the values that `read` gives. -/
structure Draws (read : String → Json) (p : Panel) : Prop where
  active : profileName (read "profile_name") = some p.activeProfile
  probed : p.activeProfile ≠ "" → matrixFrom (read "probed_matrix") = some p.probed
  interpolated : p.activeProfile ≠ "" → matrixFrom (read "mesh_matrix") = some p.interpolated
  extents : p.activeProfile ≠ "" → p.extents = extentsOf (read "mesh_min") (read "mesh_max")
  cleared : p.activeProfile = "" → p.probed = [] ∧ p.interpolated = []
  view : p.view = p.view.setMesh p.selectedMatrix
  label : p.statsLabel = stats p.meshSummary p.view
  save : p.saveEnabled = decide (p.activeProfile ≠ "")

/-- What a refresh leaves alone until it comes to the profiles. -/
def SameTable (p q : Panel) : Prop :=
  q.profileTable = p.profileTable ∧ q.profileHidden = p.profileHidden

theorem setMesh_again (m : List (List ℚ)) (v : MeshView ℚ) :
    (v.setMesh m).setMesh m = v.setMesh m := by
  unfold MeshView.setMesh
  cases MeshView.taken m <;> rfl

theorem draws_showSelectedMatrix {read : String → Json} {p : Panel}
    (hactive : profileName (read "profile_name") = some p.activeProfile)
    (hne : p.activeProfile ≠ "") (hprobed : matrixFrom (read "probed_matrix") = some p.probed)
    (hinterp : matrixFrom (read "mesh_matrix") = some p.interpolated)
    (hextents : p.extents = extentsOf (read "mesh_min") (read "mesh_max"))
    (hsave : p.saveEnabled = true) : Draws read p.showSelectedMatrix where
  active := hactive
  probed _ := hprobed
  interpolated _ := hinterp
  extents _ := hextents
  cleared h := absurd h hne
  view := (setMesh_again p.selectedMatrix p.view).symm
  label := rfl
  save := by simpa [showSelectedMatrix, hne] using hsave

theorem draws_drawProfile {s : State} {read : String → Json} {p : Panel}
    (hactive : profileName (read "profile_name") = some p.activeProfile)
    (hne : p.activeProfile ≠ "") :
    Outcome.Post (fun q => Draws read q ∧ SameTable p q) (SameTable p)
      (p.drawProfile shortest s (read "probed_matrix") (read "mesh_matrix") (read "mesh_min")
        (read "mesh_max")) := by
  unfold drawProfile
  have hinfo := infoOnly_refreshProfileInfo shortest s { p with saveEnabled := true }
  refine Outcome.post_bind (Outcome.post_mono hinfo (fun _ h => h) ?_) ?_
  · rintro q ⟨t, rfl⟩
    exact ⟨rfl, rfl⟩
  rintro q ⟨t, rfl⟩
  unfold loadProbed
  cases hprobed : matrixFrom (read "probed_matrix") with
  | none => exact ⟨rfl, rfl⟩
  | some probed =>
    unfold loadInterpolated
    cases hinterp : matrixFrom (read "mesh_matrix") with
    | none => exact ⟨rfl, rfl⟩
    | some interp =>
      change Outcome.Post _ _ (summarize s _)
      unfold summarize
      split
      · exact ⟨rfl, rfl⟩
      · dsimp only
        split
        · exact ⟨draws_showSelectedMatrix hactive hne hprobed hinterp rfl rfl, rfl, rfl⟩
        · exact ⟨draws_showSelectedMatrix hactive hne hprobed hinterp rfl rfl, rfl, rfl⟩
        · exact ⟨rfl, rfl⟩

theorem draws_refreshMesh (s : State) (bm : Json) (p : Panel) :
    Outcome.Post (fun q => Draws (orState s bm) q ∧ SameTable p q) (SameTable p)
      (p.refreshMesh shortest s bm) := by
  unfold refreshMesh
  cases hname : profileName (orState s bm "profile_name") with
  | none => exact ⟨rfl, rfl⟩
  | some active =>
    dsimp only
    split_ifs with hempty
    · refine ⟨⟨?_, ?_, ?_, ?_, fun _ => ⟨rfl, rfl⟩, ?_, ?_, ?_⟩, rfl, rfl⟩
      · exact hname
      · exact fun h => absurd hempty h
      · exact fun h => absurd hempty h
      · exact fun h => absurd hempty h
      · simp [noProfile, selectedMatrix, MeshView.setMesh, MeshView.taken]
      · simp [noProfile, stats]
      · simp [noProfile, hempty]
    · exact draws_drawProfile shortest (p := { p with activeProfile := active }) hname hempty

theorem Draws.congr {s : State} {bm : Json} (h : Agrees s bm) {p : Panel}
    (hd : Draws (orState s bm) p) : Draws (stored s) p := by
  have hcorner : ∀ key, cornerFrom (orState s bm key) = cornerFrom (stored s key) :=
    h.read (f := cornerFrom) fun _ _ => rfl
  refine ⟨?_, fun hne => ?_, fun hne => ?_, fun hne => ?_, hd.cleared, hd.view, hd.label, hd.save⟩
  · rw [← h.read (f := profileName) fun _ _ => rfl]
    exact hd.active
  · rw [← h.read (f := matrixFrom) fun _ _ => rfl]
    exact hd.probed hne
  · rw [← h.read (f := matrixFrom) fun _ _ => rfl]
    exact hd.interpolated hne
  · rw [hd.extents hne, extentsOf, extentsOf, hcorner, hcorner]

end

end Panel

/-! ### Every run -/

namespace World

def init (s : State) (v : MeshView ℚ) : World := ⟨s.reset, { view := v }, none, false⟩

/-- What the table of profiles shows, and that after a refresh that came to its end the
active profile in it is the active one. -/
def Listed (w : World) : Prop :=
  match w.filled with
  | none => w.panel.profileTable = {}
  | some (keys, marked) => Lists w.panel.profileTable keys marked ∧
      (w.threw = false → w.panel.profileHidden = false → marked = w.panel.activeProfile)

/-- What the buttons but the matrix selector may change. -/
def ButtonOnly (p q : Panel) : Prop :=
  ∃ hidden input sent flat, q = { p with
    promptHidden := hidden
    input := input
    sent := sent
    flat := flat }

theorem ButtonOnly.refl (p : Panel) : ButtonOnly p p := ⟨_, _, _, _, rfl⟩

section
variable (shortest : ℚ → String)

theorem listed_refresh {w : World} (h : w.Listed) (bm : Json) : (w.refresh shortest bm).Listed := by
  unfold refresh
  split_ifs with hnull
  · exact h
  have hmesh := Panel.draws_refreshMesh shortest w.state bm w.panel
  unfold Panel.refreshViews
  rw [if_neg hnull]
  cases hr : w.panel.refreshMesh shortest w.state bm with
  | error q =>
    rw [hr] at hmesh
    have hsame : Panel.SameTable w.panel q := hmesh
    unfold Listed at h ⊢
    dsimp only [Except.map]
    cases hfilled : w.filled with
    | none =>
      rw [hfilled] at h
      exact hsame.1.trans h
    | some known =>
      rw [hfilled] at h
      dsimp only at h ⊢
      rw [hsame.1]
      exact ⟨h.1, fun hthrew => nomatch hthrew⟩
  | ok q =>
    rw [hr] at hmesh
    have hsame : Panel.SameTable w.panel q := hmesh.2
    unfold Listed at h ⊢
    dsimp only [Except.map]
    cases hkeys : itemKeys (orState w.state bm "profiles") with
    | nil =>
      dsimp only [Panel.refreshProfiles]
      rw [if_pos rfl]
      cases hfilled : w.filled with
      | none =>
        rw [hfilled] at h
        exact hsame.1.trans h
      | some known =>
        rw [hfilled] at h
        dsimp only at h ⊢
        rw [hsame.1]
        exact ⟨h.1, fun _ hhidden => nomatch hhidden⟩
    | cons key keys =>
      dsimp only [Panel.refreshProfiles]
      rw [if_neg (by simp)]
      exact ⟨ProfileTable.fill_lists _ _ _, fun _ _ => rfl⟩

/-- Every step draws, selects a matrix or is a button. -/
theorem step_cases (w : World) (e : Event) :
    (∃ m t, e = .update m t) ∨ e = .connected ∨ e = .foreground ∨ (∃ i, e = .selectMatrix i) ∨
      ∃ q, w.step shortest e = { w with panel := q } ∧ ButtonOnly w.panel q := by
  cases e with
  | update m t => exact Or.inl ⟨m, t, rfl⟩
  | connected => exact Or.inr (Or.inl rfl)
  | foreground => exact Or.inr (Or.inr (Or.inl rfl))
  | selectMatrix i => exact Or.inr (Or.inr (Or.inr (Or.inl ⟨i, rfl⟩)))
  | tap row col =>
    refine Or.inr (Or.inr (Or.inr (Or.inr ⟨_, rfl, ?_⟩)))
    unfold Panel.tap
    dsimp only
    split_ifs
    · exact .refl _
    · exact ⟨_, _, _, _, rfl⟩
    · exact ⟨_, _, _, _, rfl⟩
    · exact .refl _
  | save =>
    refine Or.inr (Or.inr (Or.inr (Or.inr ⟨_, rfl, ?_⟩)))
    unfold Panel.pressSave
    dsimp only
    split_ifs <;> exact ⟨_, _, _, _, rfl⟩
  | clear => exact Or.inr (Or.inr (Or.inr (Or.inr ⟨_, rfl, _, _, _, _, rfl⟩)))
  | calibrate =>
    refine Or.inr (Or.inr (Or.inr (Or.inr ⟨_, rfl, ?_⟩)))
    unfold Panel.pressCalibrate
    split
    · exact .refl _
    · exact ⟨_, _, _, _, rfl⟩
  | edit f =>
    refine Or.inr (Or.inr (Or.inr (Or.inr ⟨_, rfl, ?_⟩)))
    dsimp only
    split_ifs <;> exact ⟨_, _, _, _, rfl⟩
  | promptSave =>
    refine Or.inr (Or.inr (Or.inr (Or.inr ⟨_, rfl, ?_⟩)))
    unfold Panel.promptSave
    dsimp only
    split_ifs <;> exact ⟨_, _, _, _, rfl⟩
  | promptCancel => exact Or.inr (Or.inr (Or.inr (Or.inr ⟨_, rfl, _, _, _, _, rfl⟩)))
  | selectView i => exact Or.inr (Or.inr (Or.inr (Or.inr ⟨_, rfl, _, _, _, _, rfl⟩)))

theorem listed_step {w : World} (h : w.Listed) (e : Event) : (w.step shortest e).Listed := by
  rcases step_cases shortest w e with ⟨m, t, rfl⟩ | rfl | rfl | ⟨i, rfl⟩ | ⟨q, hstep, hq⟩
  · have hdeliver : Listed { w with state := w.state.deliver m } := h
    simp only [step]
    split_ifs
    · exact hdeliver
    · exact listed_refresh shortest hdeliver _
  · exact h
  · exact listed_refresh shortest h _
  · exact h
  · rw [hstep]
    obtain ⟨_, _, _, _, rfl⟩ := hq
    exact h

theorem listed_run (s : State) (v : MeshView ℚ) (es : List Event) :
    (Run.run (step shortest) (init s v) es).Listed :=
  Run.invariant_always (I := Listed) (fun _ e h => listed_step shortest h e) _ es rfl

/-- The scripts a tap may send: it names a profile of the last filled table, and loads
only one that was not active then. A table never filled has one cell row without a name. -/
def tapScripts (w : World) (row col : ℕ) : List String :=
  match w.filled with
  | none => if row = 0 ∧ col = 2 then ["BED_MESH_PROFILE REMOVE=\"\"\nSAVE_CONFIG"] else []
  | some (keys, marked) =>
    match keys[row]? with
    | none => []
    | some key =>
      if col = 2 then ["BED_MESH_PROFILE REMOVE=\"" ++ key ++ "\"\nSAVE_CONFIG"]
      else if col = 1 ∧ key ≠ marked then ["BED_MESH_PROFILE LOAD=\"" ++ key ++ "\""]
      else []

theorem sent_tap {w : World} (h : w.Listed) (row col : ℕ) :
    (w.panel.tap row col).sent =
      w.panel.sent ++ if w.panel.profileHidden then [] else w.tapScripts row col := by
  unfold Panel.tap tapScripts
  unfold Listed at h
  dsimp only
  by_cases hhidden : w.panel.profileHidden = true
  · rw [if_pos (Or.inl hhidden), if_pos hhidden, List.append_nil]
  rw [if_neg hhidden]
  cases hfilled : w.filled with
  | none =>
    rw [hfilled] at h
    dsimp only at h ⊢
    rw [h]
    have hcount : ({} : ProfileTable).cells.rowCnt = 1 := rfl
    rw [hcount]
    by_cases hrow : row = 0
    · subst hrow
      have hin : ¬ (w.panel.profileHidden = true ∨ 1 ≤ 0) := by simpa using hhidden
      rw [if_neg hin]
      by_cases hremove : col = 2
      · simp [hremove, Panel.gcodeScript, Table.new]
      · simp [hremove, Table.new]
    · rw [if_pos (Or.inr (by omega)), if_neg (fun hc => hrow hc.1), List.append_nil]
  | some known =>
    obtain ⟨keys, marked⟩ := known
    rw [hfilled] at h
    dsimp only at h ⊢
    obtain ⟨hlists, -⟩ := h
    cases hkey : keys[row]? with
    | none =>
      have hlen := List.getElem?_eq_none_iff.mp hkey
      rw [if_pos (Or.inr (by rw [hlists.count]; exact hlen)), List.append_nil]
    | some key =>
      have hlt := (List.getElem?_eq_some_iff.mp hkey).1
      have hrow : ¬ (w.panel.profileHidden = true ∨ w.panel.profileTable.cells.rowCnt ≤ row) := by
        rw [hlists.count]
        simp only [not_or]
        exact ⟨hhidden, by omega⟩
      dsimp only
      rw [if_neg hrow, hlists.name row key hkey, Option.getD_some]
      by_cases hremove : col = 2
      · rw [if_pos hremove, if_pos hremove]
        rfl
      · rw [if_neg hremove, if_neg hremove]
        by_cases hload : col = 1
        · subst hload
          rw [hlists.load row key hkey, Option.getD_some]
          by_cases hmarked : key = marked
          · simp [hmarked]
          · simp [hmarked, upload, Panel.gcodeScript]
        · simp [hload]

/-- The world after any run of events. -/
def reached (s : State) (v : MeshView ℚ) (es : List Event) : World :=
  Run.run (step shortest) (init s v) es

/-- After any run, what a tap on the table of profiles sends. -/
theorem tap_sends (s : State) (v : MeshView ℚ) (es : List Event) (row col : ℕ) :
    ((reached shortest s v es).step shortest (.tap row col)).panel.sent =
      (reached shortest s v es).panel.sent ++
        (if (reached shortest s v es).panel.profileHidden then []
          else (reached shortest s v es).tapScripts row col) ∧
    ∀ keys marked, (reached shortest s v es).filled = some (keys, marked) →
      (reached shortest s v es).threw = false →
      (reached shortest s v es).panel.profileHidden = false →
      marked = (reached shortest s v es).panel.activeProfile := by
  have h : (reached shortest s v es).Listed := listed_run shortest s v es
  refine ⟨sent_tap h row col, fun keys marked hfilled hthrew hhidden => ?_⟩
  unfold Listed at h
  rw [hfilled] at h
  exact h.2 hthrew hhidden

/-! ### The mesh on screen -/

/-- `State` is a mirror, and the panel draws what it stores. -/
structure InSync (w : World) : Prop where
  mirror : w.state.Mirror
  draws : Panel.Draws (stored w.state) w.panel

theorem mirror_step {w : World} (h : w.state.Mirror) (e : Event) :
    (w.step shortest e).state.Mirror := by
  have hrefresh : ∀ (w : World) (bm : Json), (w.refresh shortest bm).state = w.state := by
    intro w bm
    unfold refresh
    split_ifs
    · rfl
    · split <;> rfl
  cases e with
  | update m t =>
    have hm := State.mirror_deliver w.state m h
    simp only [step]
    split_ifs
    · exact hm
    · rw [hrefresh]
      exact hm
  | connected => exact State.mirror_reset w.state
  | foreground =>
    simp only [step]
    rw [hrefresh]
    exact h
  | _ => exact h

theorem draws_refreshProfiles {read : String → Json} {p : Panel} (h : Panel.Draws read p)
    (keys : List String) : Panel.Draws read (Panel.refreshProfiles keys p) := by
  unfold Panel.refreshProfiles
  split_ifs <;>
    exact ⟨h.active, h.probed, h.interpolated, h.extents, h.cleared, h.view, h.label, h.save⟩

theorem inSync_refresh {w : World} (h : w.state.Mirror) {bm : Json} (hbm : Agrees w.state bm)
    (hnull : bm ≠ .null) (hthrew : (w.refresh shortest bm).threw = false) :
    (w.refresh shortest bm).InSync := by
  have hmesh := Panel.draws_refreshMesh shortest w.state bm w.panel
  unfold refresh Panel.refreshViews at hthrew ⊢
  rw [if_neg hnull] at hthrew ⊢
  rw [if_neg hnull] at hthrew ⊢
  cases hr : w.panel.refreshMesh shortest w.state bm with
  | error q =>
    rw [hr] at hthrew
    cases hthrew
  | ok q =>
    rw [hr] at hmesh
    exact ⟨h, draws_refreshProfiles (hmesh.1.congr hbm) _⟩

theorem inSync_update {w : World} (h : w.InSync) {m : Message} {t : Bool}
    (hseen : ¬ (m.via = .reply ∧ t = true))
    (hthrew : (w.step shortest (.update m t)).threw = false) :
    (w.step shortest (.update m t)).InSync := by
  have hmirror := State.mirror_deliver w.state m h.mirror
  simp only [step, if_neg hseen] at hthrew ⊢
  by_cases hnull : bedMesh m = .null
  · -- nothing about the bed mesh: `State` stores what it did
    have hsame : ∀ key, stored (w.state.deliver m) key = stored w.state key := by
      intro key
      have hreport : m.reports "bed_mesh" key = none := by
        have hnone := bedMesh_eq m
        rw [hnull] at hnone
        unfold Message.reports
        cases hd : m.status.get? "bed_mesh" with
        | none => rfl
        | some d =>
          rw [hd, Option.getD_some] at hnone
          rw [← hnone]
          rfl
      have hfield := State.field_deliver w.state m h.mirror "bed_mesh" key
      rw [hreport] at hfield
      exact congrArg (·.getD .null) hfield
    have hdraws : Panel.Draws (stored (w.state.deliver m)) w.panel := by
      rw [show stored (w.state.deliver m) = stored w.state from funext hsame]
      exact h.draws
    change World.InSync (refresh shortest (bedMesh m) _)
    rw [refresh, if_pos hnull]
    exact ⟨hmirror, hdraws⟩
  · exact inSync_refresh shortest (w := { w with state := w.state.deliver m }) hmirror
      (agrees_delta h.mirror m) hnull hthrew

theorem inSync_foreground {w : World} (h : w.state.Mirror)
    (hnull : w.state.getData ["printer_state", "bed_mesh"] ≠ .null)
    (hthrew : (w.step shortest .foreground).threw = false) :
    (w.step shortest .foreground).InSync :=
  inSync_refresh shortest h (agrees_full h) hnull hthrew

/-- What keeps the panel in step with `State`: nothing throws, neither a refresh nor what
comes before it, and no connection has `State` forget the mesh. -/
def Quiet (w : World) (e : Event) : Prop :=
  e ≠ .connected ∧ (∀ m, m.via = .reply → e ≠ .update m true) ∧ (w.step shortest e).threw = false

theorem inSync_step {w : World} (h : w.InSync) {e : Event} (hq : Quiet shortest w e) :
    (w.step shortest e).InSync := by
  obtain ⟨hstays, hseen, hthrew⟩ := hq
  have hd := h.draws
  rcases step_cases shortest w e with ⟨m, t, rfl⟩ | rfl | rfl | ⟨i, rfl⟩ | ⟨q, hstep, hq⟩
  · refine inSync_update shortest h ?_ hthrew
    rintro ⟨hv, rfl⟩
    exact hseen m hv rfl
  · exact absurd rfl hstays
  · by_cases hnull : w.state.getData ["printer_state", "bed_mesh"] = .null
    · simp only [step, refresh, hnull, if_true]
      exact h
    · exact inSync_foreground shortest h.mirror hnull hthrew
  · exact ⟨h.mirror, hd.active, hd.probed, hd.interpolated, hd.extents, hd.cleared,
      (Panel.setMesh_again _ _).symm, rfl, hd.save⟩
  · rw [hstep]
    obtain ⟨_, _, _, _, rfl⟩ := hq
    exact ⟨h.mirror, hd.active, hd.probed, hd.interpolated, hd.extents, hd.cleared, hd.view,
      hd.label, hd.save⟩

/-- From a foreground that found a mesh and came to its end, on through any quiet run, the
panel draws the mesh that `State` holds, as the selector says. -/
theorem panel_draws_state (s : State) (v : MeshView ℚ) (before es : List Event)
    (hmesh : (reached shortest s v before).state.getData ["printer_state", "bed_mesh"] ≠ .null)
    (hopen : ((reached shortest s v before).step shortest .foreground).threw = false)
    (hquiet : Run.Along (step shortest) (Quiet shortest)
      ((reached shortest s v before).step shortest .foreground) es) :
    Panel.Draws (stored (reached shortest s v (before ++ .foreground :: es)).state)
      (reached shortest s v (before ++ .foreground :: es)).panel := by
  have hmirror : (reached shortest s v before).state.Mirror :=
    Run.invariant_always (I := fun w : World => w.state.Mirror)
      (fun _ e h => mirror_step shortest h e) _ before (State.mirror_reset s)
  have hstart := inSync_foreground shortest hmirror hmesh hopen
  have hend := Run.invariant (I := InSync) (C := Quiet shortest)
    (fun _ _ h hq => inSync_step shortest h hq) _ es hstart hquiet
  unfold reached
  rw [Run.run_append, Run.run_cons]
  exact hend.draws

end

def notification (fs : Fields) : Json :=
  .obj (.cons "params" (.arr (.cons (.obj (.cons "bed_mesh" (.obj fs) .nil)) .nil)) .nil)

def matrix (z : ℤ) : Json := .arr (.cons (.arr (.cons (.int z) (.cons (.int 1) .nil))) .nil)

-- A profile with its matrix, and the new matrix of a calibration.
def loaded : Message :=
  ⟨.notification, notification (.cons "probed_matrix" (matrix 2)
    (.cons "profile_name" (.str "default")
    (.cons "profiles" (.obj (.cons "default" (.obj .nil) .nil)) .nil))), by decide, by decide⟩

def calibrated : Message :=
  ⟨.notification, notification (.cons "probed_matrix" (matrix 3) .nil), by decide, by decide⟩

theorem calibration_drawn :
    Panel.Draws (stored (reached Double.general ⟨.null⟩ (.new ℚ 456 252)
        ([.update loaded false] ++ .foreground :: [.update calibrated false,
          .selectMatrix 0])).state)
      (reached Double.general ⟨.null⟩ (.new ℚ 456 252)
        ([.update loaded false] ++ .foreground :: [.update calibrated false,
          .selectMatrix 0])).panel := by
  refine panel_draws_state Double.general ⟨.null⟩ (.new ℚ 456 252) [.update loaded false]
    [.update calibrated false, .selectMatrix 0] (by decide +kernel) (by decide +kernel) ?_
  refine ⟨⟨nofun, ?_, by decide +kernel⟩, ⟨nofun, nofun, by decide +kernel⟩, trivial⟩
  intro m hv he
  cases he

end World

end GuppyScreen.BedMesh
