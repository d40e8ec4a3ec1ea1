import GuppyScreen.Lib.Latch
import GuppyScreen.Lib.Outcome
import GuppyScreen.Lib.Pointer
import GuppyScreen.Macros
import GuppyScreen.State

/-!
# Hidden macros (macro_item.cpp, macros_panel.cpp)

A tap on a macro's eye hides it and has Moonraker's database keep that. Whenever the
websocket opens or Klipper is ready, the objects are listed, then the settings are asked for
again, and the list of macros is built anew when the printer's state has arrived; the old
list can be tapped all the while. Left out are names with a dot, which Moonraker splits and
Klipper does not allow.
-/

namespace GuppyScreen.Macros.Hidden
open Lib

structure MacroItem where
  name : String
  hidden : Bool
  alwaysVisible : Bool := false
  onScreen : Bool
  deriving DecidableEq

namespace MacroItem

def create (name : String) (hide : Bool) : MacroItem :=
  { name := name
    hidden := hide
    onScreen := !hide }

def handleHideShow (m : MacroItem) : MacroItem :=
  if m.hidden then
    { m with
      hidden := false
      onScreen := true }
  else
    { m with
      hidden := true
      onScreen := m.alwaysVisible && m.onScreen }

def hideIfHidden (m : MacroItem) : MacroItem :=
  { m with
    alwaysVisible := false
    onScreen := !m.hidden && m.onScreen }

def reveal (m : MacroItem) : MacroItem :=
  { m with
    alwaysVisible := true
    onScreen := true }

end MacroItem

/-- `showHidden` is the switch above the list. -/
structure MacrosPanel where
  items : List MacroItem := []
  showHidden : Bool := false
  deriving DecidableEq

/-- What `populate` reads for a macro, `none` where it throws. -/
def hiddenIn (settings : Json) (name : String) : Option Bool :=
  (Pointer.parse ("/" ++ name ++ "/hidden")).bind fun ptr =>
    match settings.at? ptr with
    | none | some .null => some false
    | some (.bool b) => some b
    | some _ => none

namespace MacrosPanel

def eachMacro (settings : Json) : List String → MacrosPanel → Except MacrosPanel MacrosPanel
  | [], p => .ok p
  | name :: rest, p =>
    match hiddenIn settings name with
    | none => .error p
    | some hidden =>
      eachMacro settings rest { p with items := p.items ++ [MacroItem.create name hidden] }

def populate (s : State) (p : MacrosPanel) : Except MacrosPanel MacrosPanel :=
  let p := { p with items := [] }
  match s.getData ["printer_state", "configfile", "config"] with
  | .null => .ok p
  | config =>
    match parseMacros config.members with
    | none => .error p
    | some macros =>
      eachMacro (s.getData ["guppysettings", "macros", "settings"])
        ((macros.keys.map String.ofList).mergeSort (· ≤ ·)) p

/-- The switch has turned when its handler runs. -/
def handleHideShow (p : MacrosPanel) : MacrosPanel :=
  { items := p.items.map (if p.showHidden then MacroItem.hideIfHidden else MacroItem.reveal)
    showHidden := !p.showHidden }

end MacrosPanel

/-! ### Panel and database -/

inductive Request where
  | post (name : String) (hidden : Bool)
  | get
  deriving DecidableEq

/-- What is kept for a macro. -/
def record (hidden : Bool) : Json := .obj (.cons "hidden" (.bool hidden) .nil)

/-- The reply to `get`; a namespace that holds nothing does not exist. -/
def settingsReply : Fields → Json
  | .nil => .obj (.cons "error" .null .nil)
  | db =>
    .obj (.cons "result" (.obj (.cons "value" (.obj (.cons "macros" (.obj (.cons "settings"
      (.obj db) .nil)) .nil)) .nil)) .nil)

/-- `db` is `macros.settings` of the namespace, `requests` what Moonraker has not carried out
yet, `replies` what it answered to `get`. `listing` counts the object lists asked for, and
`building` the subscriptions, that have no reply yet. `chosen` is what was last chosen for
each macro. -/
structure World where
  state : State
  panel : MacrosPanel := {}
  up : Bool := false
  listing : ℕ := 0
  building : ℕ := 0
  db : Fields
  requests : List Request := []
  replies : List Fields := []
  chosen : String → Bool

inductive Event where
  | tapEye (i : ℕ)
  | tapSwitch
  | serve
  | settings
  /-- The reply to `printer.objects.list`. -/
  | listed
  /-- The reply to the subscription. `initThrows`: at a sensor's value, before the list. -/
  | subscribed (j : Json) (initThrows : Bool)
  | disconnected (n : ℕ)
  | connected
  | klippyReady

def Request.carryOut (db : Fields) : Request → Fields
  | .post name hidden => db.insert name (record hidden)
  | .get => db

namespace World

/-- What is sent without a connection is lost. -/
def tapEye (w : World) (i : ℕ) : World :=
  match w.panel.items[i]? with
  | some m =>
    { w with
      panel := { w.panel with items := w.panel.items.set i m.handleHideShow }
      requests := if w.up then w.requests ++ [.post m.name (!m.hidden)] else w.requests
      chosen := Function.update w.chosen m.name (!m.hidden) }
  | none => w

def tapSwitch (w : World) : World := { w with panel := w.panel.handleHideShow }

def serve (w : World) : World :=
  match w.requests with
  | [] => w
  | r :: rest =>
    { w with
      db := r.carryOut w.db
      requests := rest
      replies := if r = .get then w.replies ++ [w.db] else w.replies }

def settings (w : World) : World :=
  match w.replies with
  | [] => w
  | db :: rest =>
    { w with
      state := w.state.setData "guppysettings" (settingsReply db) ["result", "value"]
      replies := rest }

/-- The settings are asked for before the subscription. -/
def listed (w : World) : World :=
  if w.listing = 0 then w
  else
    { w with
      listing := w.listing - 1
      building := w.building + 1
      requests := w.requests ++ [.get] }

/-- An error of `populate` leaves the rows made so far. -/
def subscribed (w : World) (j : Json) (initThrows : Bool) : World :=
  if w.building = 0 then w
  else
    let state := w.state.setData "printer_state" j ["result", "status"]
    { w with
      state := state
      building := w.building - 1
      panel := if initThrows then w.panel else Outcome.final (w.panel.populate state) }

/-- Moonraker has taken `n` of the requests; the others are lost, and so are its replies. -/
def disconnected (w : World) (n : ℕ) : World :=
  { w with
    up := false
    listing := 0
    building := 0
    db := (w.requests.take n).foldl Request.carryOut w.db
    requests := []
    replies := [] }

def restart (w : World) : World :=
  { w with
    state := w.state.reset
    listing := w.listing + 1 }

def step (w : World) : Event → World
  | .tapEye i => w.tapEye i
  | .tapSwitch => w.tapSwitch
  | .serve => w.serve
  | .settings => w.settings
  | .listed => w.listed
  | .subscribed j initThrows => w.subscribed j initThrows
  | .disconnected n => w.disconnected n
  | .connected => if w.up then w else { w with up := true }.restart
  | .klippyReady => if w.up then w.restart else w

end World

/-! ### What the settings say of a macro -/

structure Plain (name : String) : Prop where
  slash : Text.Lacks '/' name
  tilde : Text.Lacks '~' name
  dot : Text.Lacks '.' name

theorem parse_hidden {name : String} (h : Plain name) :
    Pointer.parse ("/" ++ name ++ "/hidden") = some [name, "hidden"] := by
  have htext : "/" ++ name ++ "/hidden" = String.ofList
      ('/' :: ['/'].intercalate ([name, "hidden"].map String.toList)) := by
    rw [← String.toList_inj, String.toList_ofList]
    simp
  rw [htext]
  refine Pointer.parse_tokens (by simp) ?_ ?_
  · simp only [List.mem_cons, List.not_mem_nil, or_false, forall_eq_or_imp, forall_eq]
    exact ⟨h.slash, by decide⟩
  · simp only [List.mem_cons, List.not_mem_nil, or_false, forall_eq_or_imp, forall_eq]
    exact ⟨h.tilde, by decide⟩

structure Stored (db : Fields) : Prop where
  sorted : db.Sorted
  record : ∀ k v, db.find? k = some v → ∃ b, v = record b

def keeps (db : Fields) (name : String) : Bool := decide (db.find? name = some (record true))

theorem hiddenIn_db {db : Fields} (h : Stored db) {name : String} (hname : Plain name) :
    hiddenIn (.obj db) name = some (keeps db name) := by
  unfold hiddenIn keeps
  rw [parse_hidden hname]
  show (match (db.find? name).bind (·.at? ["hidden"]) with
    | none | some .null => some false
    | some (.bool b) => some b
    | some _ => none) = _
  cases hfind : db.find? name with
  | none => rfl
  | some v =>
    obtain ⟨b, rfl⟩ := h.record name v hfind
    cases b <;> rfl

theorem hiddenIn_null {name : String} (hname : Plain name) : hiddenIn .null name = some false := by
  unfold hiddenIn
  rw [parse_hidden hname]
  rfl

theorem keeps_insert (db : Fields) (name k : String) (b : Bool) :
    keeps (db.insert name (record b)) k = if k = name then b else keeps db k := by
  unfold keeps
  split_ifs with hk
  · subst hk
    rw [Fields.find?_insert_self]
    cases b <;> decide
  · rw [Fields.find?_insert_ne _ _ hk]

theorem stored_carryOut {db : Fields} (h : Stored db) (r : Request) : Stored (r.carryOut db) := by
  cases r with
  | get => exact h
  | post name hidden =>
    refine ⟨Fields.insert_sorted _ _ _ h.sorted, ?_⟩
    intro k v hk
    by_cases hne : k = name
    · subst hne
      rw [Request.carryOut, Fields.find?_insert_self] at hk
      exact ⟨hidden, (Option.some.inj hk).symm⟩
    · rw [Request.carryOut, Fields.find?_insert_ne _ _ hne] at hk
      exact h.record k v hk

theorem stored_foldl {db : Fields} (h : Stored db) (rs : List Request) :
    Stored (rs.foldl Request.carryOut db) := by
  induction rs generalizing db with
  | nil => exact h
  | cons r rs ih => exact ih (stored_carryOut h r)

def settingsOf (s : State) : Json := s.getData ["guppysettings", "macros", "settings"]

theorem settingsOf_eq (s : State) :
    settingsOf s = ((s.data.get? "guppysettings").bind
      (·.at? ["macros", "settings"])).getD .null := by
  unfold settingsOf State.getData Json.valueAt
  cases hdata : s.data with
  | arr l =>
    rw [Json.at?, show arrayIndex "guppysettings" = none by decide]
    rfl
  | _ => rfl

theorem Stored.head {k : String} {v : Json} {rest : Fields} (h : Stored (.cons k v rest)) :
    ∃ b, v = Hidden.record b :=
  h.record k v (by simp [Fields.find?])

theorem Stored.tail {k : String} {v : Json} {rest : Fields} (h : Stored (.cons k v rest)) :
    Stored rest := by
  refine ⟨h.sorted.2, ?_⟩
  intro q w hq
  have hmem : q ∈ rest.keys := by
    by_contra hn
    rw [(Fields.find?_eq_none_iff rest q).mpr hn] at hq
    cases hq
  have hne : k ≠ q := ne_of_lt (h.sorted.1 q hmem)
  exact h.record q w (by simp [Fields.find?, hne, hq])

theorem settles_records {db : Fields} (h : Stored db) : Fields.settles .nil db = true := by
  induction db using Fields.spine with
  | nil => rfl
  | cons k v rest ih =>
    obtain ⟨b, rfl⟩ := h.head
    have hhead : Json.settles .null (Hidden.record b) = true := by cases b <;> decide
    simp only [Fields.settles, Bool.and_eq_true, decide_eq_true_iff]
    exact ⟨⟨Json.noConfusion, hhead⟩, ih h.tail⟩

theorem wf_records {db : Fields} (h : Stored db) : db.Wf := by
  induction db using Fields.spine with
  | nil => trivial
  | cons k v rest ih =>
    obtain ⟨b, rfl⟩ := h.head
    have hhead : (Hidden.record b).Wf := by cases b <;> decide
    exact ⟨hhead, ih h.tail⟩

/-- The database as the connection's first reply brings it to `State`. -/
def document (db : Fields) : Json :=
  .obj (.cons "macros" (.obj (.cons "settings" (.obj db) .nil)) .nil)

theorem mergePatch_document {db : Fields} (h : Stored db) :
    Json.null.mergePatch (document db) = document db := by
  have hsingle : ∀ (k : String) (v : Json), (Fields.cons k v .nil).Sorted :=
    fun k v => ⟨by simp [Fields.keys], trivial⟩
  have hwf : (document db).Wf :=
    ⟨hsingle _ _, ⟨hsingle _ _, ⟨h.sorted, wf_records h⟩, trivial⟩, trivial⟩
  have hnull : Json.Wf .null := by decide
  apply (Json.mergePatch_eq_patch_iff _ hnull _ hwf).mpr
  have hsettles := settles_records h
  simp [document, Json.settles, Fields.settles, Json.members, Fields.keys, Fields.find?, hsettles]

theorem settingsOf_reply {s : State} (hfresh : s.data.get? "guppysettings" = none) {db : Fields}
    (h : Stored db) {name : String} (hname : Plain name) :
    hiddenIn (settingsOf (s.setData "guppysettings" (settingsReply db) ["result", "value"])) name =
      some (keeps db name) := by
  cases db with
  | nil =>
    have hsame : s.setData "guppysettings" (settingsReply .nil) ["result", "value"] = s := rfl
    rw [hsame, settingsOf_eq, hfresh]
    exact hiddenIn_null hname
  | cons k v rest =>
    have hvalue : (settingsReply (.cons k v rest)).valueAt ["result", "value"] =
        document (.cons k v rest) := rfl
    have hsome : (settingsReply (.cons k v rest)).valueAt ["result", "value"] ≠ .null := by
      rw [hvalue]
      exact Json.noConfusion
    have hdata := State.setData_present s "guppysettings" hsome
    rw [settingsOf_eq, hdata, Json.get?_set_self, hfresh, hvalue, Option.getD_none,
      mergePatch_document h]
    exact hiddenIn_db h hname

theorem settingsOf_other (s : State) (j : Json) :
    settingsOf (s.setData "printer_state" j ["result", "status"]) = settingsOf s := by
  rw [settingsOf_eq, settingsOf_eq]
  by_cases hnone : j.valueAt ["result", "status"] = .null
  · rw [State.setData_absent s _ hnone]
  · rw [State.setData_present s _ hnone, Json.get?_set_ne _ _ (by decide)]

/-! ### The list that is built -/

theorem items_eachMacro (settings : Json) (names : List String) (p : MacrosPanel) :
    ∃ rows, (Outcome.final (p.eachMacro settings names)).items = p.items ++ rows ∧
      (rows.map MacroItem.name) <+: names ∧
      ∀ m ∈ rows, hiddenIn settings m.name = some m.hidden ∧
        m = MacroItem.create m.name m.hidden := by
  induction names generalizing p with
  | nil => exact ⟨[], (List.append_nil _).symm, List.nil_prefix, by simp⟩
  | cons name rest ih =>
    unfold MacrosPanel.eachMacro
    cases hhidden : hiddenIn settings name with
    | none => exact ⟨[], (List.append_nil _).symm, List.nil_prefix, by simp⟩
    | some hidden =>
      obtain ⟨rows, hitems, hnames, hrows⟩ :=
        ih { p with items := p.items ++ [MacroItem.create name hidden] }
      refine ⟨MacroItem.create name hidden :: rows, ?_, ?_, ?_⟩
      · simp only [hitems, List.append_assoc, List.singleton_append]
      · exact (List.prefix_cons_inj name).mpr hnames
      · intro m hm
        rcases List.mem_cons.mp hm with rfl | hm
        · exact ⟨hhidden, rfl⟩
        · exact hrows m hm

theorem nodup_names (macros : StdMap (List Char) Params) :
    ((macros.keys.map String.ofList).mergeSort (· ≤ ·)).Nodup := by
  have hinj : Function.Injective String.ofList := by
    intro a b hab
    have htext := congrArg String.toList hab
    rwa [String.toList_ofList, String.toList_ofList] at htext
  exact (List.mergeSort_perm _ _).nodup_iff.mpr (macros.keys_nodup.map hinj)

/-- The rows of a list that is built anew are made as the settings say. -/
theorem rows_populate (s : State) (p : MacrosPanel) :
    ((Outcome.final (p.populate s)).items.map MacroItem.name).Nodup ∧
      ∀ m ∈ (Outcome.final (p.populate s)).items,
        hiddenIn (settingsOf s) m.name = some m.hidden ∧ m = MacroItem.create m.name m.hidden := by
  unfold MacrosPanel.populate
  cases s.getData ["printer_state", "configfile", "config"] with
  | null => exact ⟨List.nodup_nil, by simp [Outcome.final]⟩
  | _ =>
    dsimp only
    split
    · exact ⟨List.nodup_nil, by simp [Outcome.final]⟩
    · rename_i macros _
      obtain ⟨rows, hitems, hnames, hrows⟩ := items_eachMacro (settingsOf s)
        ((macros.keys.map String.ofList).mergeSort (· ≤ ·)) { p with items := [] }
      have hall : (Outcome.final (MacrosPanel.eachMacro (settingsOf s)
          ((macros.keys.map String.ofList).mergeSort (· ≤ ·)) { p with items := [] })).items =
            rows :=
        hitems
      unfold settingsOf at hall
      rw [hall]
      exact ⟨(nodup_names macros).sublist hnames.sublist, hrows⟩

/-! ### What was chosen comes back -/

namespace World

/-- The settings arrive before the list is built, no eye is tapped in between or without a
connection, Klipper is ready again only when the list is built, and Moonraker has what was
sent to it when the connection ends. -/
def InOrder (w : World) : Event → Prop
  | .tapEye _ => w.up = true ∧ w.building = 0
  | .subscribed _ _ => .get ∉ w.requests ∧ w.replies = []
  | .klippyReady => w.listing = 0 ∧ w.building = 0
  | .disconnected n => w.requests.length ≤ n
  | _ => True

instance (w : World) : (e : Event) → Decidable (InOrder w e)
  | .tapEye _ => inferInstanceAs (Decidable (_ ∧ _))
  | .subscribed _ _ => inferInstanceAs (Decidable (_ ∧ _))
  | .klippyReady => inferInstanceAs (Decidable (_ ∧ _))
  | .disconnected n => inferInstanceAs (Decidable (w.requests.length ≤ n))
  | .tapSwitch | .serve | .settings | .listed | .connected => .isTrue trivial

def Agrees (w : World) (read : String → Option Bool) : Prop :=
  ∀ name, Plain name → read name = some (w.chosen name)

/-- How far the settings have come since they were asked for. -/
inductive Joining (w : World) : Prop where
  | asked (posts : List Request) (requests : w.requests = posts ++ [.get]) (older : .get ∉ posts)
      (replies : w.replies = []) (fresh : w.state.data.get? "guppysettings" = none)
  | answered (db : Fields) (requests : w.requests = []) (replies : w.replies = [db])
      (fresh : w.state.data.get? "guppysettings" = none) (stored : Stored db)
      (agrees : w.Agrees fun name => some (keeps db name))
  | arrived (requests : w.requests = []) (replies : w.replies = [])
      (agrees : w.Agrees (hiddenIn (settingsOf w.state)))

structure Inv (w : World) : Prop where
  stored : Stored w.db
  nodup : (w.panel.items.map MacroItem.name).Nodup
  rows : ∀ m ∈ w.panel.items, Plain m.name → m.hidden = w.chosen m.name
  kept : w.Agrees fun name => some (keeps (w.requests.foldl Request.carryOut w.db) name)
  down : w.up = false → w.requests = [] ∧ w.listing = 0 ∧ w.building = 0
  one : w.listing + w.building ≤ 1
  fresh : w.listing = 1 → w.state.data.get? "guppysettings" = none
  idle : w.building = 0 → .get ∉ w.requests ∧ w.replies = []
  joining : w.building = 1 → w.Joining

theorem handleHideShow_name (m : MacroItem) : m.handleHideShow.name = m.name := by
  unfold MacroItem.handleHideShow
  cases m.hidden <;> rfl

theorem handleHideShow_hidden (m : MacroItem) : m.handleHideShow.hidden = !m.hidden := by
  unfold MacroItem.handleHideShow
  cases m.hidden <;> rfl

-- The tapped row, or one of another name.
theorem mem_set_row {items : List MacroItem} {i : ℕ} {m m' x : MacroItem} (hm : items[i]? = some m)
    (hnodup : (items.map MacroItem.name).Nodup) (hx : x ∈ items.set i m') :
    x = m' ∨ x ∈ items ∧ x.name ≠ m.name := by
  obtain ⟨j, hj⟩ := List.getElem?_of_mem hx
  rw [List.getElem?_set] at hj
  split_ifs at hj with hij hlt
  · exact Or.inl (Option.some.inj hj).symm
  · refine Or.inr ⟨List.mem_of_getElem? hj, ?_⟩
    intro hname
    have hboth : (items.map MacroItem.name)[i]? = (items.map MacroItem.name)[j]? := by
      rw [List.getElem?_map, List.getElem?_map, hm, hj]
      exact congrArg some hname.symm
    have hlt : i < (items.map MacroItem.name).length := by
      rw [List.length_map]
      exact (List.getElem?_eq_some_iff.mp hm).1
    exact hij ((List.getElem?_inj hlt hnodup).mp hboth)

theorem map_set_row {α : Type} (f : MacroItem → α) {items : List MacroItem} {i : ℕ}
    {m m' : MacroItem}
    (hm : items[i]? = some m) (hf : f m' = f m) : (items.set i m').map f = items.map f := by
  apply List.ext_getElem?
  intro j
  rw [List.getElem?_map, List.getElem?_map, List.getElem?_set]
  split_ifs with hij hlt
  · rw [← hij, hm]
    exact congrArg some hf
  · exact absurd (List.getElem?_eq_some_iff.mp hm).1 hlt
  · rfl

theorem inv_tapEye {w : World} (h : w.Inv) {i : ℕ} (hi : w.InOrder (.tapEye i)) :
    (w.tapEye i).Inv := by
  obtain ⟨hup, hbuilding⟩ := hi
  obtain ⟨hget, hreplies⟩ := h.idle hbuilding
  unfold tapEye
  rw [hup]
  split
  · rename_i m hm
    refine ⟨h.stored, ?_, ?_, ?_, nofun, h.one, h.fresh, ?_, ?_⟩
    · rw [map_set_row MacroItem.name hm (handleHideShow_name m)]
      exact h.nodup
    · intro x hx hplain
      rcases mem_set_row hm h.nodup hx with rfl | ⟨hold, hne⟩
      · rw [handleHideShow_name, handleHideShow_hidden]
        show _ = Function.update w.chosen m.name (!m.hidden) m.name
        rw [Function.update_self]
      · exact (h.rows x hold hplain).trans (Function.update_of_ne hne _ _).symm
    · intro name hplain
      have hkept := h.kept name hplain
      simp only [if_true, List.foldl_append, List.foldl_cons, List.foldl_nil, Request.carryOut,
        keeps_insert]
      rw [Function.update_apply]
      split_ifs
      · rfl
      · exact hkept
    · intro _
      exact ⟨by simp [hget], hreplies⟩
    · intro hone
      have hzero : w.building = 1 := hone
      omega
  · exact h

/-- Only the panel changed. -/
theorem Joining.panel {w : World} (h : w.Joining) (p : MacrosPanel) :
    Joining { w with panel := p } := by
  cases h with
  | asked posts requests older replies fresh => exact .asked posts requests older replies fresh
  | answered db requests replies fresh stored agrees =>
    exact .answered db requests replies fresh stored agrees
  | arrived requests replies agrees => exact .arrived requests replies agrees

theorem inv_tapSwitch {w : World} (h : w.Inv) : w.tapSwitch.Inv := by
  have hrow : ∀ m ∈ w.panel.handleHideShow.items,
      ∃ x ∈ w.panel.items, m.name = x.name ∧ m.hidden = x.hidden := by
    intro m hm
    obtain ⟨x, hx, rfl⟩ := List.mem_map.mp hm
    refine ⟨x, hx, ?_⟩
    split_ifs <;> exact ⟨rfl, rfl⟩
  have hnames :
      w.panel.handleHideShow.items.map MacroItem.name = w.panel.items.map MacroItem.name := by
    unfold MacrosPanel.handleHideShow
    rw [List.map_map]
    apply List.map_congr_left
    intro x _
    cases w.panel.showHidden <;> rfl
  refine ⟨h.stored, ?_, ?_, h.kept, h.down, h.one, h.fresh, h.idle, ?_⟩
  · show (w.panel.handleHideShow.items.map MacroItem.name).Nodup
    rw [hnames]
    exact h.nodup
  · intro m hm hplain
    obtain ⟨x, hx, hname, hhidden⟩ := hrow m hm
    rw [hhidden, hname]
    exact h.rows x hx (hname ▸ hplain)
  · intro hone
    exact (h.joining hone).panel w.panel.handleHideShow

theorem inv_serve {w : World} (h : w.Inv) : w.serve.Inv := by
  unfold serve
  cases hrequests : w.requests with
  | nil => exact h
  | cons r rest =>
    have hkept := h.kept
    rw [hrequests] at hkept
    refine ⟨stored_carryOut h.stored r, h.nodup, h.rows, hkept, ?_, h.one, h.fresh, ?_, ?_⟩
    · intro hdown
      have hnone := (h.down hdown).1
      rw [hrequests] at hnone
      cases hnone
    · intro hidle
      obtain ⟨hget, hreplies⟩ := h.idle hidle
      rw [hrequests, List.mem_cons, not_or] at hget
      exact ⟨hget.2, by simp [Ne.symm hget.1, hreplies]⟩
    · intro hone
      cases h.joining hone with
      | asked posts hasked holder hreplies hfresh =>
        rw [hrequests] at hasked
        cases posts with
        | nil =>
          cases hasked
          exact .answered w.db rfl (by simp [hreplies]) hfresh h.stored hkept
        | cons post posts =>
          cases hasked
          rw [List.mem_cons, not_or] at holder
          exact .asked posts rfl holder.2 (by simp [Ne.symm holder.1, hreplies]) hfresh
      | answered db hnone =>
        rw [hrequests] at hnone
        cases hnone
      | arrived hnone =>
        rw [hrequests] at hnone
        cases hnone

theorem inv_settings {w : World} (h : w.Inv) : w.settings.Inv := by
  unfold settings
  cases hreplies : w.replies with
  | nil => exact h
  | cons db rest =>
    have hbuilding : w.building = 1 := by
      have hone := h.one
      have hne : w.building ≠ 0 := by
        intro hzero
        have hnone := (h.idle hzero).2
        rw [hreplies] at hnone
        cases hnone
      omega
    refine ⟨h.stored, h.nodup, h.rows, h.kept, h.down, h.one, ?_, ?_, ?_⟩
    · intro hlisting
      have hone := h.one
      have hlisting : w.listing = 1 := hlisting
      omega
    · intro hzero
      have hzero : w.building = 0 := hzero
      omega
    · intro _
      cases h.joining hbuilding with
      | asked _ _ _ hnone =>
        rw [hreplies] at hnone
        cases hnone
      | answered db' hrequests hone hfresh hstored hagrees =>
        rw [hreplies] at hone
        cases hone
        refine .arrived hrequests rfl ?_
        intro name hplain
        exact (settingsOf_reply hfresh hstored hplain).trans (hagrees name hplain)
      | arrived _ hnone =>
        rw [hreplies] at hnone
        cases hnone

theorem inv_listed {w : World} (h : w.Inv) : w.listed.Inv := by
  unfold listed
  split_ifs with hlisting
  · exact h
  · have hone := h.one
    obtain ⟨hget, hreplies⟩ := h.idle (by omega)
    refine ⟨h.stored, h.nodup, h.rows, ?_, ?_, ?_, ?_, nofun, ?_⟩
    · intro name hplain
      simp only [List.foldl_append, List.foldl_cons, List.foldl_nil, Request.carryOut]
      exact h.kept name hplain
    · intro hdown
      exact absurd (h.down hdown).2.1 hlisting
    · show w.listing - 1 + (w.building + 1) ≤ 1
      omega
    · intro hstill
      have hstill : w.listing - 1 = 1 := hstill
      omega
    · intro _
      exact .asked w.requests rfl hget hreplies (h.fresh (by omega))

theorem inv_subscribed {w : World} (h : w.Inv) {j : Json} {initThrows : Bool}
    (hi : w.InOrder (.subscribed j initThrows)) : (w.subscribed j initThrows).Inv := by
  unfold subscribed
  by_cases hbuilding : w.building = 0
  · rw [if_pos hbuilding]
    exact h
  · rw [if_neg hbuilding]
    obtain ⟨hget, hreplies⟩ := hi
    have hone := h.one
    have hagrees : w.Agrees (hiddenIn (settingsOf w.state)) := by
      cases h.joining (by omega) with
      | asked posts hasked => simp [hasked] at hget
      | answered db _ hdb => simp [hdb] at hreplies
      | arrived _ _ hagrees => exact hagrees
    obtain ⟨hnodup, hhidden⟩ :=
      rows_populate (w.state.setData "printer_state" j ["result", "status"]) w.panel
    rw [settingsOf_other] at hhidden
    refine ⟨h.stored, ?_, ?_, h.kept, ?_, ?_, ?_, fun _ => ⟨hget, hreplies⟩, ?_⟩
    · dsimp only
      split_ifs
      · exact h.nodup
      · exact hnodup
    · dsimp only
      split_ifs
      · exact h.rows
      · intro m hm hplain
        exact Option.some.inj ((hhidden m hm).1.symm.trans (hagrees m.name hplain))
    · intro hdown
      exact absurd (h.down hdown).2.2 hbuilding
    · show w.listing + (w.building - 1) ≤ 1
      omega
    · intro hlisting
      have hlisting : w.listing = 1 := hlisting
      omega
    · intro hstill
      have hstill : w.building - 1 = 1 := hstill
      omega

theorem inv_disconnected {w : World} (h : w.Inv) {n : ℕ} (hi : w.requests.length ≤ n) :
    (w.disconnected n).Inv := by
  unfold disconnected
  rw [List.take_of_length_le hi]
  exact ⟨stored_foldl h.stored w.requests, h.nodup, h.rows, h.kept, fun _ => ⟨rfl, rfl, rfl⟩,
    Nat.zero_le _, nofun, fun _ => ⟨List.not_mem_nil, rfl⟩, nofun⟩

theorem fresh_reset (s : State) : s.reset.data.get? "guppysettings" = none := by
  unfold State.reset
  cases s.data <;> rfl

theorem inv_restart {w : World} (h : w.Inv) (hup : w.up = true) (hlisting : w.listing = 0)
    (hbuilding : w.building = 0) : w.restart.Inv := by
  refine ⟨h.stored, h.nodup, h.rows, h.kept, ?_, ?_, fun _ => fresh_reset w.state, h.idle, ?_⟩
  · intro hdown
    have hdown : w.up = false := hdown
    rw [hup] at hdown
    cases hdown
  · show w.listing + 1 + w.building ≤ 1
    omega
  · intro hone
    have hone : w.building = 1 := hone
    omega

theorem inv_step {w : World} (h : w.Inv) (e : Event) (he : w.InOrder e) : (w.step e).Inv := by
  cases e with
  | tapEye i => exact inv_tapEye h he
  | tapSwitch => exact inv_tapSwitch h
  | serve => exact inv_serve h
  | settings => exact inv_settings h
  | listed => exact inv_listed h
  | subscribed j initThrows => exact inv_subscribed h he
  | disconnected n => exact inv_disconnected h he
  | connected =>
    simp only [step]
    split_ifs with hup
    · exact h
    · obtain ⟨hrequests, hlisting, hbuilding⟩ := h.down (by simpa using hup)
      have hopened : Inv { w with up := true } :=
        ⟨h.stored, h.nodup, h.rows, h.kept, nofun, h.one, h.fresh, h.idle,
          fun hone => by simp [hbuilding] at hone⟩
      exact inv_restart hopened rfl hlisting hbuilding
  | klippyReady =>
    simp only [step]
    split_ifs with hup
    · exact inv_restart h hup he.1 he.2
    · exact h

/-- Before the first connection. -/
structure Start (w : World) : Prop where
  up : w.up = false
  listing : w.listing = 0
  building : w.building = 0
  items : w.panel.items = []
  requests : w.requests = []
  replies : w.replies = []
  stored : Stored w.db
  chosen : ∀ name, Plain name → keeps w.db name = w.chosen name

/-- Each macro in the list is hidden or not as it was last chosen, over any number of
connections and restarts of Klipper, and what Moonraker keeps comes to the same, as long
as every run of the handshake is in order and nothing sent is lost. -/
theorem hidden_as_chosen (w : World) (es : List Event) (hw : w.Start)
    (h : Run.Along step InOrder w es) :
    (∀ m ∈ (Run.run step w es).panel.items, Plain m.name →
        m.hidden = (Run.run step w es).chosen m.name) ∧
      ∀ name, Plain name →
        keeps ((Run.run step w es).requests.foldl Request.carryOut (Run.run step w es).db) name =
          (Run.run step w es).chosen name := by
  have hstart : w.Inv := by
    refine ⟨hw.stored, by simp [hw.items], by simp [hw.items], ?_, fun _ => ⟨hw.requests,
      hw.listing, hw.building⟩, by simp [hw.listing, hw.building], ?_,
      fun _ => ⟨by simp [hw.requests], hw.replies⟩, ?_⟩
    · intro name hplain
      rw [hw.requests]
      exact congrArg some (hw.chosen name hplain)
    · intro hone
      simp [hw.listing] at hone
    · intro hone
      simp [hw.building] at hone
  have hend := Run.invariant (I := Inv) (C := InOrder)
    (fun w e hw he => inv_step hw e he) w es hstart h
  refine ⟨hend.rows, ?_⟩
  intro name hplain
  exact Option.some.inj (hend.kept name hplain)

def homeMacro : Json :=
  .obj (.cons "result" (.obj (.cons "status" (.obj (.cons "configfile" (.obj (.cons "config" (.obj
    (.cons "gcode_macro HOME" (.obj (.cons "gcode"
      (.str "G28") .nil)) .nil)) .nil)) .nil)) .nil)) .nil)

def fresh : World :=
  { state := ⟨.null⟩
    db := .nil
    chosen := fun _ => false }

def handshake : List Event := [.listed, .serve, .settings, .subscribed homeMacro false]

-- The macro is hidden on one connection and still is on the next; the list is tapped once
-- more while it waits for the objects.
def hiddenOnce : List Event :=
  [.connected] ++ handshake ++ [.tapEye 0, .serve, .disconnected 0, .connected, .tapEye 0,
    .tapEye 0, .listed, .serve, .serve, .serve, .settings, .subscribed homeMacro false]

theorem hidden_as_chosen_hiddenOnce :
    (∀ m ∈ (Run.run step fresh hiddenOnce).panel.items, Plain m.name →
        m.hidden = (Run.run step fresh hiddenOnce).chosen m.name) ∧
      ∀ name, Plain name → keeps ((Run.run step fresh hiddenOnce).requests.foldl Request.carryOut
        (Run.run step fresh hiddenOnce).db) name = (Run.run step fresh hiddenOnce).chosen name :=
  hidden_as_chosen fresh hiddenOnce
    ⟨rfl, rfl, rfl, rfl, rfl, rfl, ⟨trivial, nofun⟩, fun _ _ => rfl⟩ (by decide +kernel)

-- With the settings late, or a tap while they are on their way, the list is built as if
-- nothing were hidden.
example : (Run.run step fresh ([.connected] ++ handshake ++ [.tapEye 0, .serve, .disconnected 0,
    .connected, .listed, .serve, .subscribed homeMacro false, .settings])).panel.items =
      [MacroItem.create "HOME" false] := by
  decide +kernel

example : (Run.run step fresh ([.connected] ++ handshake ++ [.klippyReady, .listed, .serve,
    .tapEye 0, .serve, .settings, .subscribed homeMacro false])).panel.items =
      [MacroItem.create "HOME" false] := by
  decide +kernel

/-! ### What is on the screen -/

/-- The switch is turned on with rows in the list. -/
def Reveals (w : World) (e : Event) : Prop :=
  e = .tapSwitch ∧ w.panel.showHidden = false ∧ w.panel.items ≠ []

/-- The switch is turned off, or the list built anew. -/
def Conceals (w : World) (e : Event) : Prop :=
  (e = .tapSwitch ∧ w.panel.showHidden = true) ∨
    ((∃ j, e = .subscribed j false) ∧ w.building ≠ 0)

def revealed (w : World) : Bool := w.panel.items.any MacroItem.alwaysVisible

/-- A row is on the screen unless it is hidden, and all rows are revealed or none is. -/
structure Coherent (w : World) : Prop where
  row : ∀ m ∈ w.panel.items, m.onScreen = (!m.hidden || m.alwaysVisible)
  uniform : ∀ m ∈ w.panel.items, m.alwaysVisible = w.revealed

theorem coherent_of_plain {w : World} {v : Bool}
    (hrow : ∀ m ∈ w.panel.items, m.onScreen = (!m.hidden || m.alwaysVisible))
    (hv : ∀ m ∈ w.panel.items, m.alwaysVisible = v) : w.Coherent := by
  refine ⟨hrow, ?_⟩
  intro m hm
  rw [hv m hm]
  cases v with
  | true => exact (List.any_eq_true.mpr ⟨m, hm, hv m hm⟩).symm
  | false =>
    symm
    rw [revealed, List.any_eq_false]
    intro x hx
    rw [hv x hx]
    exact Bool.false_ne_true

theorem built_rows (w : World) (s : State) :
    ∀ m ∈ (Outcome.final (w.panel.populate s)).items, m.onScreen = (!m.hidden || m.alwaysVisible) ∧
      m.alwaysVisible = false := by
  intro m hm
  rw [((rows_populate s w.panel).2 m hm).2]
  exact ⟨(Bool.or_false _).symm, rfl⟩

theorem handleHideShow_alwaysVisible (m : MacroItem) :
    m.handleHideShow.alwaysVisible = m.alwaysVisible := by
  unfold MacroItem.handleHideShow
  cases m.hidden <;> rfl

theorem handleHideShow_onScreen {m : MacroItem} (h : m.onScreen = (!m.hidden || m.alwaysVisible)) :
    m.handleHideShow.onScreen = (!m.handleHideShow.hidden || m.handleHideShow.alwaysVisible) := by
  unfold MacroItem.handleHideShow
  cases hhidden : m.hidden with
  | true => simp
  | false =>
    rw [hhidden] at h
    simp [h]

theorem revealed_tapEye (w : World) (i : ℕ) : (w.tapEye i).revealed = w.revealed := by
  unfold tapEye
  split
  · rename_i m hm
    have hsame := map_set_row MacroItem.alwaysVisible hm (handleHideShow_alwaysVisible m)
    have hany := congrArg (List.any · id) hsame
    simp only [List.any_map] at hany
    exact hany
  · rfl

theorem coherent_tapEye {w : World} (h : w.Coherent) (i : ℕ) : (w.tapEye i).Coherent := by
  have hrevealed := revealed_tapEye w i
  refine ⟨?_, ?_⟩
  · unfold tapEye
    split
    · rename_i m hm
      intro x hx
      rcases List.mem_or_eq_of_mem_set hx with hold | rfl
      · exact h.row x hold
      · exact handleHideShow_onScreen (h.row m (List.mem_of_getElem? hm))
    · exact h.row
  · rw [hrevealed]
    unfold tapEye
    split
    · rename_i m hm
      intro x hx
      rcases List.mem_or_eq_of_mem_set hx with hold | rfl
      · exact h.uniform x hold
      · rw [handleHideShow_alwaysVisible]
        exact h.uniform m (List.mem_of_getElem? hm)
    · exact h.uniform

theorem rows_handleHideShow {p : MacrosPanel}
    (h : ∀ m ∈ p.items, m.onScreen = (!m.hidden || m.alwaysVisible)) :
    ∀ m ∈ p.handleHideShow.items, m.onScreen = (!m.hidden || m.alwaysVisible) ∧
      m.alwaysVisible = !p.showHidden := by
  intro m hm
  obtain ⟨x, hx, rfl⟩ := List.mem_map.mp hm
  have hrow := h x hx
  cases p.showHidden with
  | true =>
    refine ⟨?_, rfl⟩
    show (!x.hidden && x.onScreen) = (!x.hidden || false)
    rw [hrow]
    cases x.hidden <;> rfl
  | false => exact ⟨(Bool.or_true _).symm, rfl⟩

theorem panel_subscribed {w : World} (h : w.building ≠ 0) (j : Json) :
    (w.subscribed j false).panel =
      Outcome.final (w.panel.populate (w.state.setData "printer_state" j ["result",
        "status"])) := by
  unfold subscribed
  rw [if_neg h]
  rfl

theorem panel_subscribed_same {w : World} {j : Json} {initThrows : Bool}
    (h : ¬ (initThrows = false ∧ w.building ≠ 0)) :
    (w.subscribed j initThrows).panel = w.panel := by
  unfold subscribed
  by_cases hbuilding : w.building = 0
  · rw [if_pos hbuilding]
  · rw [if_neg hbuilding]
    cases initThrows with
    | true => rfl
    | false => exact absurd ⟨rfl, hbuilding⟩ h

theorem panel_settings (w : World) : w.settings.panel = w.panel := by
  unfold settings
  cases w.replies <;> rfl

theorem panel_serve (w : World) : w.serve.panel = w.panel := by
  unfold serve
  cases w.requests <;> rfl

theorem panel_listed (w : World) : w.listed.panel = w.panel := by
  unfold listed
  split_ifs <;> rfl

theorem panel_connected (w : World) : (w.step .connected).panel = w.panel := by
  simp only [step]
  split_ifs <;> rfl

theorem panel_klippyReady (w : World) : (w.step .klippyReady).panel = w.panel := by
  simp only [step]
  split_ifs <;> rfl

theorem revealed_congr {w w' : World} (hp : w'.panel = w.panel) : w'.revealed = w.revealed := by
  unfold revealed
  rw [hp]

theorem coherent_congr {w w' : World} (h : w.Coherent) (hp : w'.panel = w.panel) : w'.Coherent := by
  refine ⟨?_, ?_⟩
  · rw [hp]
    exact h.row
  · rw [revealed_congr hp, hp]
    exact h.uniform

theorem coherent_step (w : World) (e : Event) (h : w.Coherent) : (w.step e).Coherent := by
  cases e with
  | tapEye i => exact coherent_tapEye h i
  | tapSwitch =>
    have hrows := rows_handleHideShow h.row
    exact coherent_of_plain (fun m hm => (hrows m hm).1) fun m hm => (hrows m hm).2
  | serve => exact coherent_congr h (panel_serve w)
  | settings => exact coherent_congr h (panel_settings w)
  | listed => exact coherent_congr h (panel_listed w)
  | subscribed j initThrows =>
    by_cases hbuilt : initThrows = false ∧ w.building ≠ 0
    · obtain ⟨rfl, hbuilding⟩ := hbuilt
      have hrows := built_rows w (w.state.setData "printer_state" j ["result", "status"])
      rw [← panel_subscribed hbuilding] at hrows
      exact coherent_of_plain (fun m hm => (hrows m hm).1) fun m hm => (hrows m hm).2
    · exact coherent_congr h (panel_subscribed_same hbuilt)
  | disconnected n => exact coherent_congr h rfl
  | connected => exact coherent_congr h (panel_connected w)
  | klippyReady => exact coherent_congr h (panel_klippyReady w)

theorem revealed_of_rows {w : World} (h : ∀ m ∈ w.panel.items, m.alwaysVisible = false) :
    w.revealed = false := by
  rw [revealed, List.any_eq_false]
  intro m hm
  rw [h m hm]
  exact Bool.false_ne_true

theorem reveal_latch : Latch step revealed Reveals Conceals where
  set w e := by
    rintro ⟨rfl, hoff, hitems⟩
    obtain ⟨m, hm⟩ := List.exists_mem_of_ne_nil _ hitems
    rw [revealed, List.any_eq_true]
    refine ⟨m.reveal, ?_, rfl⟩
    show m.reveal ∈ w.panel.handleHideShow.items
    unfold MacrosPanel.handleHideShow
    rw [hoff]
    exact List.mem_map_of_mem hm
  clear w e := by
    rintro (⟨rfl, hon⟩ | ⟨⟨j, rfl⟩, hbuilding⟩)
    · apply revealed_of_rows
      intro m hm
      have hm : m ∈ w.panel.handleHideShow.items := hm
      unfold MacrosPanel.handleHideShow at hm
      rw [hon] at hm
      obtain ⟨x, -, rfl⟩ := List.mem_map.mp hm
      rfl
    · apply revealed_of_rows
      intro m hm
      rw [show w.step (.subscribed j false) = w.subscribed j false from rfl,
        panel_subscribed hbuilding] at hm
      exact (built_rows w _ m hm).2
  keep w e hset hclear := by
    cases e with
    | tapEye i => exact revealed_tapEye w i
    | tapSwitch =>
      have hon : w.panel.showHidden = false := by
        cases hshow : w.panel.showHidden with
        | false => rfl
        | true => exact absurd (Or.inl ⟨rfl, hshow⟩) hclear
      have hnone : w.panel.items = [] := by
        by_contra hne
        exact hset ⟨rfl, hon, hne⟩
      show w.tapSwitch.revealed = _
      simp [revealed, tapSwitch, MacrosPanel.handleHideShow, hnone]
    | serve => exact revealed_congr (panel_serve w)
    | settings => exact revealed_congr (panel_settings w)
    | listed => exact revealed_congr (panel_listed w)
    | subscribed j initThrows =>
      refine revealed_congr (panel_subscribed_same ?_)
      rintro ⟨rfl, hbuilding⟩
      exact hclear (Or.inr ⟨⟨j, rfl⟩, hbuilding⟩)
    | disconnected n => rfl
    | connected => exact revealed_congr (panel_connected w)
    | klippyReady => exact revealed_congr (panel_klippyReady w)

/-- A row is on the screen exactly if its macro is not hidden, or the switch was turned on
since the list was built and not off again: a list that is built anew under a switch that is
on does not show what is hidden. -/
theorem on_screen_iff (w : World) (es : List Event) (hw : w.panel.items = []) :
    ∀ m ∈ (Run.run step w es).panel.items, m.onScreen = true ↔ m.hidden = false ∨
      ∃ before e after, es = before ++ e :: after ∧ (Run.run step w before).Reveals e ∧
        Latch.Held step Conceals ((Run.run step w before).step e) after := by
  have hstart : w.Coherent := ⟨by simp [hw], by simp [hw]⟩
  have hend := Run.invariant_always coherent_step w es hstart
  have hlatch := reveal_latch.run_iff w es
  have hdown : w.revealed = false := by simp [revealed, hw]
  rw [hdown] at hlatch
  simp only [Bool.false_eq_true, false_and, or_false] at hlatch
  intro m hm
  rw [hend.row m hm, hend.uniform m hm, Bool.or_eq_true, Bool.not_eq_true', hlatch]

theorem on_screen_hiddenOnce :
    ∃ before e after, hiddenOnce ++ [.tapSwitch] = before ++ e :: after ∧
      (Run.run step fresh before).Reveals e ∧
      Latch.Held step Conceals ((Run.run step fresh before).step e) after := by
  have hrow : (MacroItem.create "HOME" true).reveal ∈
      (Run.run step fresh (hiddenOnce ++ [.tapSwitch])).panel.items := by
    decide +kernel
  have hshown := on_screen_iff fresh (hiddenOnce ++ [.tapSwitch]) rfl _ hrow
  exact (hshown.1 rfl).resolve_left (by decide)

end World

end GuppyScreen.Macros.Hidden
