import GuppyScreen.Lib.Run
import GuppyScreen.Moves
import GuppyScreen.Selector
import Mathlib.Tactic.Tauto

/-!
# Limits of the extruder (extruder_panel.cpp)

The printer reports how hot its nozzle may get, how hot it has to be, and how far
one move may extrude. The panel greys out the options beyond them, and both
buttons where the selected temperature is too low.
-/

namespace GuppyScreen.ExtruderLimits
open Lib Double KUtils
open ExtruderPanel (Whole formatOption buildOptions Direction)

def maxOptionsPerRow : ℕ := 7

/-- The labels `build_options` makes of the values. -/
def labels (values : List ℚ) : List String :=
  let splitAt := if maxOptionsPerRow < values.length then (values.length + 1) / 2 else values.length
  values.zipIdx.flatMap fun x => (if x.2 = splitAt then ["\n"] else []) ++ [formatOption x.1]

inductive Row where
  | temp
  | length
  | speed
  deriving DecidableEq

structure Panel (lv : LvBtnmatrix) where
  selector : Row → Selector lv
  values : Row → List ℚ
  extrudeBtn : Bool
  retractBtn : Bool
  currentTemp : ℤ
  currentTarget : ℤ
  minExtrudeTemp : ℚ

variable {lv : LvBtnmatrix}

/-- The lists of the default printer, as the config has them. -/
structure Lists where
  temps : Json
  lengths : Json
  speeds : Json

def Lists.values (l : Lists) : Row → List ℚ
  | .temp => buildOptions l.temps [180, 190, 200, 210, 220, 230, 240]
  | .length => buildOptions l.lengths [5, 10, 15, 20, 25, 30, 35]
  | .speed => buildOptions l.speeds [1, 2, 5, 10, 25, 35, 50]

/-- The historical lists, replaced before the constructor ends. -/
def historical (lv : LvBtnmatrix) : Row → Selector lv
  | .temp => .new lv ["180", "190", "200", "210", "220", "230", "240", ""] 6
  | .length => .new lv ["5", "10", "15", "20", "25", "30", "35", ""] 1
  | .speed => .new lv ["1", "2", "5", "10", "25", "35", "50", ""] 2

def defaultIdx : Row → ℕ
  | .temp => 6
  | .length => 1
  | .speed => 3

def Panel.new (lv : LvBtnmatrix) (l : Lists) : Panel lv where
  selector row := (historical lv row).setOptions (labels (l.values row)) (defaultIdx row)
  values := l.values
  extrudeBtn := true
  retractBtn := true
  currentTemp := -1
  currentTarget := -1
  minExtrudeTemp := 0

/-- A limit, where the settings have it as a number. -/
def reported (v : Json) (key : String) : Option ℚ := (v.get? key).bind double?

def enableUpTo (values : List ℚ) (limit : Option ℚ) (s : Selector lv) : Selector lv :=
  match limit with
  | none => s
  | some max => values.zipIdx.foldl (fun s x => s.setEnabled x.2 (decide (x.1 ≤ max))) s

/-- What a move is made of: it heats first where the nozzle is not yet there. -/
structure ExtrudeMove where
  heat : Bool
  temp : String
  len : String
  speed : String
  direction : Direction
  deriving DecidableEq

def ExtrudeMove.text (m : ExtrudeMove) : String :=
  "\n".intercalate ((if m.heat then ["M109 S" ++ m.temp] else []) ++
    ExtruderPanel.moveLines m.direction m.len m.speed)

namespace Panel

def setSelector (row : Row) (s : Selector lv) (p : Panel lv) : Panel lv :=
  { p with selector := Function.update p.selector row s }

/-- What the panel is without its widgets. -/
def view (p : Panel lv) : ExtruderPanel.Panel where
  tempSelector := ⟨p.values .temp, (p.selector .temp).selectorIdx⟩
  lengthSelector := ⟨p.values .length, (p.selector .length).selectorIdx⟩
  speedSelector := ⟨p.values .speed, (p.selector .speed).selectorIdx⟩
  currentTemp := p.currentTemp
  currentTarget := p.currentTarget

def selectedValue (p : Panel lv) (row : Row) : Option ℚ :=
  (p.values row)[(p.selector row).selectorIdx]?

def refreshExtrudeButtons (p : Panel lv) : Panel lv :=
  match p.selectedValue .temp with
  | none => p
  | some temp =>
    if temp < p.minExtrudeTemp then { p with extrudeBtn := false, retractBtn := false }
    else { p with extrudeBtn := true, retractBtn := true }

def applyExtrudeLimits (s : State) (p : Panel lv) : Panel lv :=
  let v := s.getData ["printer_state", "configfile", "settings", "extruder"]
  if v = .null then p
  else
    let enabled (row : Row) (key : String) :=
      enableUpTo (p.values row) (reported v key) (p.selector row)
    let p := p.setSelector .temp (enabled .temp "max_temp")
    let p := p.setSelector .length (enabled .length "max_extrude_only_distance")
    let p := { p with minExtrudeTemp := (reported v "min_extrude_temp").getD p.minExtrudeTemp }
    p.refreshExtrudeButtons

def sendExtrudeMove (d : Direction) (p : Panel lv) : Option ExtrudeMove :=
  match (p.selector .temp).selectedText, (p.selector .length).selectedText,
    (p.selector .speed).selectedText with
  | some temp, some len, some speed => some ⟨!p.view.atTemp temp, temp, len, speed, d⟩
  | _, _, _ => none

/-- `LV_EVENT_VALUE_CHANGED` of a selector. -/
def select (row : Row) (i : ℕ) (p : Panel lv) : Panel lv :=
  let p := p.setSelector row ((p.selector row).setSelectedIdx i)
  if row = .temp then p.refreshExtrudeButtons else p

def enabled (p : Panel lv) : Direction → Bool
  | .extrude => p.extrudeBtn
  | .retract => p.retractBtn

-- A value that `get<int>()` does not take throws, and nothing after it is read.
def consume (j : Json) (p : Panel lv) : Panel lv :=
  let target := j.valueAt ["params", "0", "extruder", "target"]
  let temp := j.valueAt ["params", "0", "extruder", "temperature"]
  if target ≠ .null ∧ asInt target = none then p
  else
    let p := (asInt target).elim p fun n => { p with currentTarget := n }
    (asInt temp).elim p fun n => { p with currentTemp := n }

end Panel

/-! ### Runs -/

/-- The last number reported for each limit. -/
structure Limits where
  maxTemp : Option ℚ := none
  minTemp : Option ℚ := none
  maxLength : Option ℚ := none

def Limits.report (v : Json) (l : Limits) : Limits where
  maxTemp := reported v "max_temp" <|> l.maxTemp
  minTemp := reported v "min_extrude_temp" <|> l.minTemp
  maxLength := reported v "max_extrude_only_distance" <|> l.maxLength

inductive Event where
  | limits (s : State)
  | consume (j : Json)
  | tap (row : Row) (i : ℕ)
  | press (d : Direction)

structure Session (lv : LvBtnmatrix) where
  panel : Panel lv
  limits : Limits

namespace Session

def init (lv : LvBtnmatrix) (l : Lists) : Session lv := ⟨.new lv l, {}⟩

def step (s : Session lv) : Event → Session lv
  | .limits state =>
    ⟨s.panel.applyExtrudeLimits state,
      s.limits.report (state.getData ["printer_state", "configfile", "settings", "extruder"])⟩
  | .consume j => { s with panel := s.panel.consume j }
  | .tap row i =>
    let selector := s.panel.selector row
    if (lv.btnText selector.btnm i).isSome ∧ selector.isDisabled i = false then
      { s with panel := s.panel.select row i }
    else s
  | .press _ => s

def sent (s : Session lv) : Event → Option ExtrudeMove
  | .press d => if s.panel.enabled d then s.panel.sendExtrudeMove d else none
  | _ => none

end Session

/-- A text that reads as a number of at most `q`. -/
def AtMost (text : String) (q : ℚ) : Prop := ∃ t ∈ decimal text, t ≤ q

def AtLeast (text : String) (q : ℚ) : Prop := ∃ t ∈ decimal text, q ≤ t

def Limits.Allow (l : Limits) (m : ExtrudeMove) : Prop :=
  (∀ q ∈ l.maxTemp, AtMost m.temp q) ∧ (∀ q ∈ l.minTemp, AtLeast m.temp q) ∧
    ∀ q ∈ l.maxLength, AtMost m.len q

/-- The six digits of the label are on the other side of the limit. -/
def Crosses (limit : Option ℚ) (v : ℚ) : Prop := ∃ q ∈ limit, ¬ (AtMost (formatOption v) q ↔ v ≤ q)

def CrossesMin (limit : Option ℚ) (v : ℚ) : Prop :=
  ∃ q ∈ limit, ¬ (AtLeast (formatOption v) q ↔ q ≤ v)

/-- A selected option is not greyed out, unless its label is rounded over the limit. -/
def Open (s : Selector lv) (limit : Option ℚ) (v : ℚ) : Prop :=
  s.isDisabled s.selectorIdx = true ↔ Crosses limit v

namespace Session

def Allowed (s : Session lv) (e : Event) : Prop := ∀ m ∈ s.sent e, s.limits.Allow m

/-- A press of a button that is not greyed out. -/
def Pressed (s : Session lv) : Event → Prop
  | .press d => s.panel.enabled d = true ∧ ∀ row, (s.panel.selector row).selectorIdx ≠ noSelection
  | _ => False

/-- The selection is not one that limits have overtaken. -/
def Current (s : Session lv) (e : Event) : Prop :=
  s.Pressed e → ∀ temp ∈ s.panel.selectedValue .temp, ∀ len ∈ s.panel.selectedValue .length,
    Open (s.panel.selector .temp) s.limits.maxTemp temp ∧ ¬ CrossesMin s.limits.minTemp temp ∧
      Open (s.panel.selector .length) s.limits.maxLength len

end Session

/-! ### The labels -/

theorem formatOption_ne_empty (v : ℚ) : formatOption v ≠ "" := by
  rw [formatOption]
  split_ifs
  · exact Text.append_ne_empty (Text.toString_ne_empty _)
  · exact Text.append_ne_empty (Text.toString_ne_empty _)
  · exact general_ne_empty v

theorem formatOption_ne_break (v : ℚ) : formatOption v ≠ "\n" := by
  intro h
  have hlacks : Text.Lacks '\n' (formatOption v) :=
    lacks_break_selected (s := ⟨[v], 0⟩) rfl
  rw [h] at hlacks
  revert hlacks
  decide

theorem decimal_formatOption {v : ℚ} (h : Whole v) : decimal (formatOption v) = some v := by
  have hint : ((v.num : ℤ) : ℚ) = v := Rat.coe_int_num_of_den_eq_one h.1
  have hneg : v < 0 ↔ v.num < 0 := Rat.num_neg.symm
  rw [formatOption, if_pos h]
  simp only [hneg]
  rw [decimal_int, hint]

theorem not_crosses {v : ℚ} (h : decimal (formatOption v) = some v) (limit : Option ℚ) :
    ¬ Crosses limit v ∧ ¬ CrossesMin limit v := by
  constructor
  · rintro ⟨q, -, hq⟩
    apply hq
    simp [AtMost, h]
  · rintro ⟨q, -, hq⟩
    apply hq
    simp [AtLeast, h]

theorem buttons_labelled (k splitAt : ℕ) (values : List ℚ) :
    LvBtnmatrix.buttons (((values.zipIdx k).flatMap fun x =>
      (if x.2 = splitAt then ["\n"] else []) ++ [formatOption x.1]) ++ [""]) =
        values.map formatOption := by
  induction values generalizing k with
  | nil => rfl
  | cons v values ih =>
    have hv : LvBtnmatrix.buttons (formatOption v :: ((values.zipIdx (k + 1)).flatMap fun x =>
        (if x.2 = splitAt then ["\n"] else []) ++ [formatOption x.1]) ++ [""]) =
        formatOption v :: values.map formatOption := by
      rw [List.cons_append, LvBtnmatrix.buttons, if_neg (formatOption_ne_empty v),
        if_neg (formatOption_ne_break v), ih]
    rw [List.zipIdx_cons, List.flatMap_cons, List.map_cons]
    split_ifs
    · rw [← hv]
      rfl
    · exact hv

theorem buttons_labels (values : List ℚ) :
    LvBtnmatrix.buttons (labels values ++ [""]) = values.map formatOption :=
  buttons_labelled 0 _ values

theorem labels_ne_nil {values : List ℚ} (h : values ≠ []) : labels values ≠ [] := by
  intro hnil
  have hbuttons := buttons_labels values
  rw [hnil] at hbuttons
  exact h (List.map_eq_nil_iff.mp hbuttons.symm)

theorem values_ne_nil (l : Lists) (row : Row) : l.values row ≠ [] := by
  have hbuild : ∀ (configured : Json) (fallback : List ℚ), fallback ≠ [] →
      buildOptions configured fallback ≠ [] := by
    intro configured fallback h
    unfold buildOptions
    dsimp only
    split_ifs with hnil
    · exact h
    · exact hnil
  cases row with
  | temp => exact hbuild _ _ (by decide)
  | length => exact hbuild _ _ (by decide)
  | speed => exact hbuild _ _ (by decide)

/-! ### One row -/

/-- The bits of a row are those of its limit. -/
structure Follows (s : Selector lv) (values : List ℚ) (limit : Option ℚ) : Prop where
  shows : s.Shows (values.map formatOption)
  selected : s.selectorIdx < values.length
  disabled : ∀ i v, values[i]? = some v → (s.isDisabled i = true ↔ ∃ q ∈ limit, q < v)

theorem enable_spec (hlv : lv.Documented) {texts : List String} (max : ℚ) (values : List ℚ) :
    ∀ (k : ℕ) (s : Selector lv), s.Shows texts → k + values.length ≤ texts.length →
      let s' := (values.zipIdx k).foldl (fun s x => s.setEnabled x.2 (decide (x.1 ≤ max))) s
      s'.Shows texts ∧ s'.selectorIdx = s.selectorIdx ∧
        (∀ i, i < k → s'.isDisabled i = s.isDisabled i) ∧
        ∀ i v, values[i]? = some v → s'.isDisabled (k + i) = !decide (v ≤ max) := by
  induction values with
  | nil =>
    intro k s hs _
    exact ⟨hs, rfl, fun _ _ => rfl, fun i v hv => by simp at hv⟩
  | cons w values ih =>
    intro k s hs hk
    rw [List.length_cons] at hk
    rw [List.zipIdx_cons, List.foldl_cons]
    have hw := hs.isDisabled_setEnabled hlv (by omega : k < texts.length) (decide (w ≤ max))
    obtain ⟨hshows, hidx, hbelow, hfrom⟩ :=
      ih (k + 1) _ (hs.setEnabled hlv k (decide (w ≤ max))) (by omega)
    refine ⟨hshows, hidx.trans (Selector.selectorIdx_setEnabled _ _ _), ?_, ?_⟩
    · intro i hi
      exact (hbelow i (by omega)).trans ((hw i).trans (if_neg (by omega)))
    · intro i v hv
      cases i with
      | zero =>
        cases hv
        exact (hbelow k (by omega)).trans ((hw k).trans (if_pos rfl))
      | succ i =>
        have hnext := hfrom i v hv
        rw [show k + (i + 1) = k + 1 + i by omega]
        exact hnext

theorem Follows.enableUpTo (hlv : lv.Documented) {s : Selector lv} {values : List ℚ}
    {limit : Option ℚ}
    (h : Follows s values limit) (new : Option ℚ) :
    Follows (enableUpTo values new s) values (new <|> limit) := by
  cases new with
  | none => exact h
  | some max =>
    obtain ⟨hshows, hidx, -, hfrom⟩ := enable_spec hlv max values 0 s h.shows (by simp)
    constructor
    · exact hshows
    · exact hidx ▸ h.selected
    · intro i v hv
      have hbit := hfrom i v hv
      rw [Nat.zero_add] at hbit
      rw [ExtruderLimits.enableUpTo, hbit]
      simp

theorem Follows.setSelectedIdx (hlv : lv.Documented) {s : Selector lv} {values : List ℚ}
    {limit : Option ℚ}
    (h : Follows s values limit) (j : ℕ) : Follows (s.setSelectedIdx j) values limit := by
  constructor
  · exact h.shows.setSelectedIdx hlv j
  · have hlt : s.selectorIdx < (values.map formatOption).length := by
      rw [List.length_map]
      exact h.selected
    have hnew := Selector.selectorIdx_setSelectedIdx_lt h.shows hlt j
    rwa [List.length_map] at hnew
  · intro i v hv
    rw [Selector.isDisabled_setSelectedIdx hlv]
    exact h.disabled i v hv

theorem follows_new (hlv : lv.Documented) {values : List ℚ} (h : values ≠ []) {d : ℕ}
    (hd : d ≠ noSelection)
    {s : Selector lv} (hs : ∀ i, s.isDisabled i = false) :
    Follows (s.setOptions (labels values) d) values none := by
  have hne := labels_ne_nil h
  have hpos : 0 < (values.map formatOption).length := by
    rw [List.length_map]
    exact List.length_pos_iff.mpr h
  constructor
  · rw [← buttons_labels]
    exact Selector.Shows.applyOptions hlv hne d s
  · have hidx := Selector.selectorIdx_applyOptions_lt hne hd (by rwa [buttons_labels]) s
    rwa [buttons_labels, List.length_map] at hidx
  · intro i v _
    rw [Selector.setOptions, Selector.isDisabled_applyOptions hlv hs]
    simp

theorem Follows.selectedText_eq {s : Selector lv} {values : List ℚ} {limit : Option ℚ}
    (h : Follows s values limit) {v : ℚ} (hv : values[s.selectorIdx]? = some v) :
    s.selectedText = if s.selectorIdx = noSelection then none else some (formatOption v) := by
  have hlt : ¬ Selector.optionCount s.owned ≤ s.selectorIdx := by
    rw [h.shows.count, List.length_map]
    exact Nat.not_le.mpr h.selected
  rw [Selector.selectedText]
  by_cases hno : s.selectorIdx = noSelection
  · rw [if_pos (Or.inl hno), if_pos hno]
  · rw [if_neg (not_or.mpr ⟨hno, hlt⟩), if_neg hno, h.shows.text, List.getElem?_map, hv,
      Option.map_some]

/-- A label within the limit is one of an option that is open, or the other way round
where rounding crosses the limit. -/
theorem Follows.atMost_iff {s : Selector lv} {values : List ℚ} {limit : Option ℚ}
    (h : Follows s values limit) {v : ℚ} (hv : values[s.selectorIdx]? = some v) :
    (∀ q ∈ limit, AtMost (formatOption v) q) ↔ Open s limit v := by
  rw [Open, h.disabled _ _ hv, Crosses]
  cases limit with
  | none => simp
  | some q =>
    have hlt : q < v ↔ ¬ v ≤ q := not_le.symm
    simp only [Option.mem_some_iff, exists_eq_left', forall_eq', hlt]
    tauto

/-! ### The panel -/

namespace Panel

theorem setSelector_apply (row : Row) (s : Selector lv) (p : Panel lv) (r : Row) :
    (p.setSelector row s).selector r = if r = row then s else p.selector r :=
  Function.update_apply p.selector row s r

-- Only the two buttons change.
theorem refresh_frame (p : Panel lv) : ∃ extrude retract,
    p.refreshExtrudeButtons = { p with extrudeBtn := extrude, retractBtn := retract } := by
  unfold refreshExtrudeButtons
  split
  · exact ⟨_, _, rfl⟩
  · split_ifs
    · exact ⟨_, _, rfl⟩
    · exact ⟨_, _, rfl⟩

theorem refresh_selector (p : Panel lv) : p.refreshExtrudeButtons.selector = p.selector := by
  obtain ⟨_, _, h⟩ := p.refresh_frame
  rw [h]

theorem refresh_values (p : Panel lv) : p.refreshExtrudeButtons.values = p.values := by
  obtain ⟨_, _, h⟩ := p.refresh_frame
  rw [h]

theorem refresh_minExtrudeTemp (p : Panel lv) :
    p.refreshExtrudeButtons.minExtrudeTemp = p.minExtrudeTemp := by
  obtain ⟨_, _, h⟩ := p.refresh_frame
  rw [h]

theorem refresh_selectedValue (p : Panel lv) (row : Row) :
    p.refreshExtrudeButtons.selectedValue row = p.selectedValue row := by
  rw [selectedValue, selectedValue, refresh_selector, refresh_values]

theorem refresh_enabled {p : Panel lv} {t : ℚ} (ht : p.selectedValue .temp = some t) (d : Direction)
    (h : p.refreshExtrudeButtons.enabled d = true) : p.minExtrudeTemp ≤ t := by
  unfold refreshExtrudeButtons at h
  rw [ht] at h
  dsimp only at h
  split_ifs at h with hlow
  · cases d with
    | extrude => cases h
    | retract => cases h
  · exact not_lt.mp hlow

end Panel

def Limits.upTo (l : Limits) : Row → Option ℚ
  | .temp => l.maxTemp
  | .length => l.maxLength
  | .speed => none

namespace Session

structure Good (s : Session lv) : Prop where
  rows : ∀ row, Follows (s.panel.selector row) (s.panel.values row) (s.limits.upTo row)
  stored : ∀ q ∈ s.limits.minTemp, s.panel.minExtrudeTemp = q
  buttons : ∀ q ∈ s.limits.minTemp, ∀ d, s.panel.enabled d = true →
    ∀ t ∈ s.panel.selectedValue .temp, q ≤ t

theorem good_refresh {p : Panel lv} {l : Limits}
    (rows : ∀ row, Follows (p.selector row) (p.values row) (l.upTo row))
    (stored : ∀ q ∈ l.minTemp, p.minExtrudeTemp = q) : Good ⟨p.refreshExtrudeButtons, l⟩ := by
  constructor
  · intro row
    dsimp only
    rw [p.refresh_selector, p.refresh_values]
    exact rows row
  · intro q hq
    exact p.refresh_minExtrudeTemp.trans (stored q hq)
  · intro q hq d hd t ht
    rw [← stored q hq]
    exact Panel.refresh_enabled ((p.refresh_selectedValue .temp).symm.trans ht) d hd

theorem good_init (hlv : lv.Documented) (l : Lists) : (init lv l).Good := by
  have hnew : ∀ (m : List String) (d i : ℕ), (Selector.new lv m d).isDisabled i = false := by
    intro m d i
    exact Selector.isDisabled_applyOptions hlv (s := ⟨[], lv.create, d⟩) hlv.disabled_create _ d i
  constructor
  · intro row
    have hidx : defaultIdx row ≠ noSelection := by
      cases row <;> decide
    have hold : ∀ i, (historical lv row).isDisabled i = false := by
      cases row with
      | temp => exact hnew _ _
      | length => exact hnew _ _
      | speed => exact hnew _ _
    have hrow := follows_new hlv (values_ne_nil l row) hidx hold
    cases row with
    | temp => exact hrow
    | length => exact hrow
    | speed => exact hrow
  · intro q hq
    cases hq
  · intro q hq
    cases hq

theorem good_limits (hlv : lv.Documented) {s : Session lv} (h : s.Good) (state : State) :
    (s.step (.limits state)).Good := by
  rw [step, Panel.applyExtrudeLimits]
  generalize state.getData ["printer_state", "configfile", "settings", "extruder"] = v
  dsimp only
  by_cases hnull : v = .null
  · rw [if_pos hnull, hnull]
    exact h
  · rw [if_neg hnull]
    apply good_refresh
    · intro row
      cases row with
      | temp => exact (h.rows .temp).enableUpTo hlv _
      | length => exact (h.rows .length).enableUpTo hlv _
      | speed => exact h.rows .speed
    · intro q hq
      change (reported v "min_extrude_temp" <|> s.limits.minTemp) = some q at hq
      change (reported v "min_extrude_temp").getD s.panel.minExtrudeTemp = q
      cases hmin : reported v "min_extrude_temp" with
      | none =>
        rw [hmin] at hq
        exact h.stored q hq
      | some r =>
        rw [hmin] at hq
        exact Option.some.inj hq

theorem good_select (hlv : lv.Documented) {s : Session lv} (h : s.Good) (row : Row) (i : ℕ) :
    Good { s with panel := s.panel.select row i } := by
  have hrows : ∀ r, Follows ((s.panel.setSelector row
    ((s.panel.selector row).setSelectedIdx i)).selector r)
      (s.panel.values r) (s.limits.upTo r) := by
    intro r
    rw [Panel.setSelector_apply]
    split_ifs with hr
    · subst hr
      exact (h.rows r).setSelectedIdx hlv i
    · exact h.rows r
  unfold Panel.select
  dsimp only
  split_ifs with ht
  · exact good_refresh hrows h.stored
  · refine ⟨hrows, h.stored, ?_⟩
    intro q hq d hd t hsel
    rw [Panel.selectedValue, Panel.setSelector_apply, if_neg (Ne.symm ht)] at hsel
    exact h.buttons q hq d (by cases d <;> exact hd) t hsel

theorem good_consume {s : Session lv} (h : s.Good) (j : Json) :
    Good { s with panel := s.panel.consume j } := by
  have hframe : ∃ target temp, s.panel.consume j =
      { s.panel with currentTarget := target, currentTemp := temp } := by
    rw [Panel.consume]
    dsimp only
    split_ifs
    · exact ⟨_, _, rfl⟩
    · cases asInt (j.valueAt ["params", "0", "extruder", "target"]) <;>
        cases asInt (j.valueAt ["params", "0", "extruder", "temperature"])
      all_goals exact ⟨_, _, rfl⟩
  obtain ⟨target, temp, heq⟩ := hframe
  rw [heq]
  refine ⟨h.rows, h.stored, ?_⟩
  intro q hq d hd t ht
  apply h.buttons q hq d _ t ht
  cases d with
  | extrude => exact hd
  | retract => exact hd

theorem good_step (hlv : lv.Documented) (s : Session lv) (e : Event) (h : s.Good) :
    (s.step e).Good := by
  cases e with
  | limits state => exact good_limits hlv h state
  | consume j => exact good_consume h j
  | tap row i =>
    unfold step
    dsimp only
    split_ifs
    · exact good_select hlv h row i
    · exact h
  | press d => exact h

theorem Good.selectedValue {s : Session lv} (h : s.Good) (row : Row) :
    ∃ v, s.panel.selectedValue row = some v := by
  rw [Panel.selectedValue, List.getElem?_eq_getElem (h.rows row).selected]
  exact ⟨_, rfl⟩

theorem Good.selectedText_eq {s : Session lv} (h : s.Good) {row : Row} {v : ℚ}
    (hv : s.panel.selectedValue row = some v) : (s.panel.selector row).selectedText =
      if (s.panel.selector row).selectorIdx = noSelection then none else some (formatOption v) :=
  (h.rows row).selectedText_eq hv

theorem Good.sent_eq {s : Session lv} (h : s.Good) {d : Direction} (hp : s.Pressed (.press d))
    {temp len speed : ℚ} (ht : s.panel.selectedValue .temp = some temp)
    (hl : s.panel.selectedValue .length = some len)
    (hs : s.panel.selectedValue .speed = some speed) :
    s.sent (.press d) = some ⟨!s.panel.view.atTemp (formatOption temp), formatOption temp,
      formatOption len, formatOption speed, d⟩ := by
  obtain ⟨hen, hsel⟩ := hp
  rw [sent, if_pos hen, Panel.sendExtrudeMove, h.selectedText_eq ht, h.selectedText_eq hl,
    h.selectedText_eq hs, if_neg (hsel .temp), if_neg (hsel .length), if_neg (hsel .speed)]

theorem Good.sent_eq_none {s : Session lv} (h : s.Good) {e : Event} (hp : ¬ s.Pressed e) :
    s.sent e = none := by
  cases e with
  | limits state => rfl
  | consume j => rfl
  | tap row i => rfl
  | press d =>
    rw [sent]
    split_ifs with hen
    · have hsome : ∃ row, (s.panel.selector row).selectorIdx = noSelection := by
        by_contra hall
        exact hp ⟨hen, not_exists.mp hall⟩
      obtain ⟨row, hrow⟩ := hsome
      have hnone : (s.panel.selector row).selectedText = none := by
        obtain ⟨v, hv⟩ := h.selectedValue row
        rw [h.selectedText_eq hv, if_pos hrow]
      rw [Panel.sendExtrudeMove]
      cases row with
      | temp => rw [hnone]
      | length =>
        rw [hnone]
        cases (s.panel.selector .temp).selectedText <;> rfl
      | speed =>
        rw [hnone]
        cases (s.panel.selector .temp).selectedText <;>
          cases (s.panel.selector .length).selectedText <;> rfl
    · rfl

theorem allowed_iff {s : Session lv} (h : s.Good) (e : Event) : s.Allowed e ↔ s.Current e := by
  obtain ⟨temp, ht⟩ := h.selectedValue .temp
  obtain ⟨len, hl⟩ := h.selectedValue .length
  obtain ⟨speed, hs⟩ := h.selectedValue .speed
  by_cases hp : s.Pressed e
  · cases e with
    | limits state => cases hp
    | consume j => cases hp
    | tap row i => cases hp
    | press d =>
      have hmin : (∀ q ∈ s.limits.minTemp, AtLeast (formatOption temp) q) ↔
          ¬ CrossesMin s.limits.minTemp temp := by
        have hbutton := fun q hq => h.buttons q hq d hp.1 temp ht
        rw [CrossesMin]
        cases hq : s.limits.minTemp with
        | none => simp
        | some q => simp [hbutton q hq]
      have hupTemp := (h.rows .temp).atMost_iff ht
      have hupLen := (h.rows .length).atMost_iff hl
      rw [Allowed, h.sent_eq hp ht hl hs, Current, ht, hl]
      simp only [Option.mem_some_iff, forall_eq', hp, true_imp_iff]
      exact and_congr hupTemp (and_congr hmin hupLen)
  · constructor
    · exact fun _ hpressed => absurd hpressed hp
    · intro _ m hm
      rw [h.sent_eq_none hp] at hm
      cases hm

/-- Every move sent after a limit is within it exactly when no press finds a selection
that a limit has overtaken. -/
theorem moves_allowed_iff (hlv : lv.Documented) (l : Lists) (es : List Event) :
    Run.Along step Allowed (init lv l) es ↔ Run.Along step Current (init lv l) es := by
  apply Run.along_congr (I := Good)
  · exact fun s e h => good_step hlv s e h
  · exact fun s e h => allowed_iff h e
  · exact good_init hlv l

end Session

namespace Session

/-- A panel's move is the script the panel without its widgets sends. -/
theorem Good.view_sendExtrudeMove {s : Session lv} (h : s.Good) {d : Direction} {m : ExtrudeMove}
    (hm : s.panel.sendExtrudeMove d = some m) : s.panel.view.sendExtrudeMove d = some m.text := by
  obtain ⟨temp, ht⟩ := h.selectedValue .temp
  obtain ⟨len, hl⟩ := h.selectedValue .length
  obtain ⟨speed, hs⟩ := h.selectedValue .speed
  have htemp : s.panel.view.tempSelector.selectedText = some (formatOption temp) :=
    congrArg (Option.map formatOption) ht
  have hlen : s.panel.view.lengthSelector.selectedText = some (formatOption len) :=
    congrArg (Option.map formatOption) hl
  have hspeed : s.panel.view.speedSelector.selectedText = some (formatOption speed) :=
    congrArg (Option.map formatOption) hs
  rw [Panel.sendExtrudeMove, h.selectedText_eq ht, h.selectedText_eq hl, h.selectedText_eq hs] at hm
  rw [ExtruderPanel.Panel.sendExtrudeMove, htemp, hlen, hspeed]
  split_ifs at hm
  cases hm
  rw [ExtrudeMove.text]
  dsimp only
  cases s.panel.view.atTemp (formatOption temp) <;> rfl

theorem open_whole {s : Selector lv} {v : ℚ} (h : Whole v) (limit : Option ℚ) :
    Open s limit v ↔ s.isDisabled s.selectorIdx = false := by
  have hcross := (not_crosses (decimal_formatOption h) limit).1
  simp [Open, hcross]

/-- With whole numbers, what is selected must not be greyed out. -/
theorem current_whole {s : Session lv} (h : ∀ row, ∀ v ∈ s.panel.values row, Whole v) (e : Event)
    (hopen : ∀ row, (s.panel.selector row).isDisabled (s.panel.selector row).selectorIdx = false) :
    s.Current e := by
  intro _ temp ht len hl
  have htemp := h .temp temp (List.mem_of_getElem? ht)
  have hlen := h .length len (List.mem_of_getElem? hl)
  exact ⟨(open_whole htemp _).mpr (hopen .temp), (not_crosses (decimal_formatOption htemp) _).2,
    (open_whole hlen _).mpr (hopen .length)⟩

end Session

/-! ### The options of the stock config -/

def ints (l : List ℤ) : Json := .arr (l.foldr (fun n es => .cons (.int n) es) .nil)

def stock : Lists where
  temps := ints [170, 190, 200, 210, 220, 230, 240, 250, 260, 280, 300, 320]
  lengths := ints [5, 10, 15, 20, 25, 30, 40, 50, 75, 100, 150, 200]
  speeds := ints [1, 2, 3, 5, 8, 10, 15, 20, 25, 30, 40, 50]

-- `configfile` of a printer with these numbers for its extruder.
def settings (maxTemp minTemp maxLength : ℤ) : State :=
  ⟨.obj (.cons "printer_state" (.obj (.cons "configfile"
    (.obj (.cons "settings" (.obj (.cons "extruder"
    (.obj (.cons "max_extrude_only_distance" (.int maxLength) (.cons "max_temp" (.int maxTemp)
      (.cons "min_extrude_temp" (.int minTemp) .nil)))) .nil)) .nil)) .nil)) .nil)⟩

namespace Session

-- 220 degrees are tapped before the press.
theorem tapped_after_limits :
    Run.Along step Allowed (init .plain stock)
      [.limits (settings 230 170 50), .tap .temp 4, .press .extrude] := by
  apply (moves_allowed_iff LvBtnmatrix.documented_plain stock _).mpr
  refine ⟨False.elim, False.elim, ?_, trivial⟩
  apply current_whole
  · intro row
    cases row <;> decide +kernel
  · intro row
    cases row <;> decide +kernel

/-- 240 degrees are selected before the printer says that it takes 230. -/
theorem default_over_max_temp :
    ¬ ∀ (lv : LvBtnmatrix), lv.Documented → ∀ (l : Lists) (es : List Event),
      Run.Along step Allowed (init lv l) es := by
  intro h
  have hrun := h .plain LvBtnmatrix.documented_plain stock
    [.limits (settings 230 170 50), .press .extrude]
  have hsent : sent (step (init .plain stock) (.limits (settings 230 170 50))) (.press .extrude) =
      some ⟨true, "240", "10", "5", .extrude⟩ := by
    decide +kernel
  obtain ⟨t, ht, hle⟩ := (hrun.2.1 _ hsent).1 230 (by decide +kernel)
  have hread : decimal "240" = some 240 := by
    decide +kernel
  rw [hread] at ht
  cases ht
  revert hle
  decide

end Session

end GuppyScreen.ExtruderLimits
