import GuppyScreen.Lib.Latch
import GuppyScreen.Lib.Outcome
import GuppyScreen.State.Accessors

/-!
# Connecting to a printer (init_panel.cpp)

The banner `Waiting for printer to initialize` lies over the other panels, in the
middle of the screen, until the printer's objects have been subscribed to and drawn.
`connected` runs whenever the websocket opens and whenever Klipper is ready,
`disconnected` whenever either is gone. In between each request's reply is handled
whenever it comes, also one that was asked for before the connection went. A handler
that throws leaves what it did before.
-/

namespace GuppyScreen.InitPanel
open Lib Outcome Text

/-- The requests of a connection, by what their replies are for. -/
inductive Request where
  | objectsList
  /-- A reply that only goes into `State`. -/
  | stored (method : String) (params : Json) (key : String) (ptr : List String)
  | gcodeHelp
  | filesList
  /-- `spoolman_disabled` was read when the request was sent. -/
  | serverInfo (spoolmanDisabled : Bool)
  | subscribe (objects : Json)
  | powerDevices
  deriving DecidableEq

namespace Request

def method : Request → String
  | objectsList => "printer.objects.list"
  | stored method _ _ _ => method
  | gcodeHelp => "printer.gcode.help"
  | filesList => "server.files.list"
  | serverInfo _ => "server.info"
  | subscribe _ => "printer.objects.subscribe"
  | powerDevices => "machine.device_power.devices"

def params : Request → Json
  | stored _ params _ _ => params
  | filesList => .obj (.cons "root" (.str "gcodes") .nil)
  | subscribe objects => .obj (.cons "objects" objects .nil)
  | _ => .null

def roots : Request := .stored "server.files.roots" .null "roots" ["result"]

def printerInfo : Request := .stored "printer.info" .null "printer_info" ["result"]

def console : Request :=
  .stored "server.database.get_item"
    (.obj (.cons "key" (.str "console") (.cons "namespace" (.str "fluidd") .nil)))
    "console" ["result", "value"]

def guppySettings : Request :=
  .stored "server.database.get_item" (.obj (.cons "namespace" (.str "guppyscreen") .nil))
    "guppysettings" ["result", "value"]

end Request

/-- What the handlers read besides: the configuration of the selected printer, and
`main_panel.init` with the bed mesh after it, which leave a state and may throw. -/
structure Setup where
  displayed : State.Displayed
  disableSpoolman : Json
  init : State → Json → State × Bool

/-- `awaited` has the requests without a reply, oldest first, and `answered` the replies
handled so far. -/
structure World where
  state : State := ⟨.null⟩
  overlay : Bool := true
  spoolman : Bool := false
  sent : List Request := []
  awaited : List Request := []
  answered : List (Request × Json) := []

namespace World

def send (w : World) (r : Request) : World :=
  { w with
    sent := w.sent ++ [r]
    awaited := w.awaited ++ [r] }

def sends (w : World) (rs : List Request) : World := rs.foldl send w

def setState (w : World) (s : State) : World := { w with state := s }

end World

/-! ### What is subscribed to -/

/-- Macros are skipped, except for the two that panels read. -/
def wanted (name : String) : Bool :=
  !startsWith "gcode_macro " name || name = "gcode_macro PRINTER_PARAM" ||
    name = "gcode_macro START_PRINT"

def subObjs (names : List String) : Json :=
  (names.foldl (fun objs name => if wanted name then objs.set name .null else objs) Json.null).set
    "tmcstatus" .null

/-- `get<std::string>()` of each element, `none` where one throws. -/
def strings (j : Json) : Option (List String) := j.items.mapM Json.str?

/-! ### What the panels check of an entry -/

def hasString (key : String) (entry : Json) : Bool := ((entry.get? key).bind Json.str?).isSome

def isBool : Json → Bool
  | .bool _ => true
  | _ => false

/-- `MainPanel::create_sensors` comes to its end. -/
def sensorEntry (entry : Json) : Bool :=
  (entry.get? "controllable").any isBool &&
    ((entry.get? "color").any Json.isNumber || hasString "color" entry) &&
    hasString "display_name" entry

/-- `FanPanel::create_fans` and `LedPanel::init` do. -/
def namedEntry (entry : Json) : Bool := hasString "display_name" entry

/-! ### The handlers -/

section
variable (setup : Setup)

/-- `get<bool>()` of the option, `none` where it throws. -/
def spoolmanDisabled : Option Bool :=
  match setup.disableSpoolman with
  | .null => some false
  | .bool b => some b
  | _ => none

/-- One of the display lists is made and handed to its panel. -/
def display (get : State → Option Json × State) (check : Json → Bool) (w : World) :
    Except World World :=
  match get w.state with
  | (none, s) => .error (w.setState s)
  | (some shown, s) => if shown.items.all check then .ok (w.setState s) else .error (w.setState s)

/-- The end of the handler: the subscription. -/
def subscribe (d : Json) (w : World) : Except World World :=
  match Pointer.upsert id ["result", "objects"] d with
  | none => .error w
  | some d =>
    match d.valueAt ["result", "objects"] with
    | .null => .ok w
    | objs =>
      match strings objs with
      | none => .error w
      | some names => .ok (w.send (.subscribe (subObjs names)))

/-- The handler from where it has sent `server.info`. -/
def showObjects (d : Json) (w : World) : Except World World := do
  let w ← display (State.getDisplaySensors setup.displayed) sensorEntry w
  let w ← display (State.getDisplayFans setup.displayed) namedEntry w
  let w ← display (State.getDisplayLeds setup.displayed) namedEntry w
  subscribe d w

/-- What is asked before anything is read. -/
def firstRequests : List Request :=
  [.roots, .printerInfo, .console, .guppySettings, .gcodeHelp, .filesList]

/-- The reply to `printer.objects.list`. -/
def listed (d : Json) (w : World) : Except World World :=
  let w := (w.setState (w.state.setData "printer_objs" d ["result"])).sends firstRequests
  match spoolmanDisabled setup with
  | none => .error w
  | some disabled => showObjects setup d (w.send (.serverInfo disabled))

/-- The reply to `server.info`. -/
def serverInfo (disabled : Bool) (j : Json) (w : World) : World :=
  let w := w.setState (w.state.setData "server_info" j ["result"])
  if disabled then w
  else
    match Pointer.upsert id ["result", "components"] j with
    | none => w
    | some j =>
      match j.valueAt ["result", "components"] with
      | .arr l =>
        if (strings (.arr l)).any ("spoolman" ∈ ·) then { w with spoolman := true } else w
      | _ => w

/-- The reply to a subscription. -/
def subscribed (data : Json) (w : World) : World :=
  let (s, through) := setup.init (w.state.setData "printer_state" data ["result", "status"]) data
  { w with
    state := s
    overlay := w.overlay && !through }

def handle (r : Request) (j : Json) (w : World) : World :=
  match r with
  | .objectsList => final (listed setup j w)
  | .stored _ _ key ptr => w.setState (w.state.setData key j ptr)
  | .serverInfo disabled => serverInfo disabled j w
  | .subscribe _ => subscribed setup j w
  | .gcodeHelp | .filesList | .powerDevices => w

inductive Event where
  /-- The websocket opens, or `notify_klippy_ready`. -/
  | connected
  /-- The websocket closes, or `notify_klippy_disconnected`. -/
  | disconnected
  /-- The reply to a request that has none yet. -/
  | reply (i : ℕ) (j : Json)
  | notification (j : Json)

def step (w : World) : Event → World
  | .connected =>
    ({ w with state := w.state.reset }.send .objectsList).send .powerDevices
  | .disconnected => { w with overlay := true }
  | .reply i j =>
    match w.awaited[i]? with
    | none => w
    | some r =>
      handle setup r j
        { w with
          awaited := w.awaited.eraseIdx i
          answered := w.answered ++ [(r, j)] }
  | .notification j => w.setState (w.state.consume j)

end

/-! ### What a handler asks for -/

/-- The names in a reply that lists objects. -/
def objectNames (d : Json) : Option (List String) :=
  match d.valueAt ["result", "objects"] with
  | .null => none
  | objs => strings objs

/-- `rs` were asked for, and nothing else happened to the books. -/
structure Books (rs : List Request) (w v : World) : Prop where
  sent : v.sent = w.sent ++ rs
  awaited : v.awaited = w.awaited ++ rs
  answered : v.answered = w.answered

structure Sends (rs : List Request) (w v : World) : Prop extends Books rs w v where
  overlay : v.overlay = w.overlay
  spoolman : v.spoolman = w.spoolman

theorem books_nil {w v : World} (hs : v.sent = w.sent) (ha : v.awaited = w.awaited)
    (hr : v.answered = w.answered) : Books [] w v :=
  ⟨by rw [hs, List.append_nil], by rw [ha, List.append_nil], hr⟩

theorem Sends.refl (w : World) : Sends [] w w := ⟨books_nil rfl rfl rfl, rfl, rfl⟩

theorem Sends.trans {rs qs : List Request} {u v w : World} (h : Sends rs u v) (k : Sends qs v w) :
    Sends (rs ++ qs) u w where
  sent := by rw [k.sent, h.sent, List.append_assoc]
  awaited := by rw [k.awaited, h.awaited, List.append_assoc]
  answered := k.answered.trans h.answered
  overlay := k.overlay.trans h.overlay
  spoolman := k.spoolman.trans h.spoolman

theorem sends_setState (w : World) (s : State) : Sends [] w (w.setState s) :=
  ⟨books_nil rfl rfl rfl, rfl, rfl⟩

theorem sends_send (w : World) (r : Request) : Sends [r] w (w.send r) := ⟨⟨rfl, rfl, rfl⟩, rfl, rfl⟩

theorem sends_sends (w : World) (rs : List Request) : Sends rs w (w.sends rs) := by
  induction rs generalizing w with
  | nil => exact Sends.refl w
  | cons r rs ih => exact (sends_send w r).trans (ih (w.send r))

/-- What may be asked for on the way to the subscription. -/
def Early (r : Request) : Prop := r ≠ .objectsList ∧ ∀ objects, r ≠ .subscribe objects

/-- What the reply to `printer.objects.list` may ask for. -/
def Asks (d : Json) (rs : List Request) : Prop :=
  ∀ r ∈ rs, Early r ∨ ∃ names, objectNames d = some names ∧ r = .subscribe (subObjs names)

theorem asks_append {d : Json} {rs qs : List Request} (h : Asks d rs) (k : Asks d qs) :
    Asks d (rs ++ qs) := by
  intro r hr
  rcases List.mem_append.mp hr with hr | hr
  · exact h r hr
  · exact k r hr

/-- A handler, come to its end or not, asked only for what the reply allows. -/
def Within (d : Json) (w : World) (o : Except World World) : Prop :=
  Post (fun v => ∃ rs, Sends rs w v ∧ Asks d rs) (fun v => ∃ rs, Sends rs w v ∧ Asks d rs) o

theorem within_bind {d : Json} {w : World} {o : Except World World} {f : World → Except World World}
    (h : Within d w o) (hf : ∀ v, Within d v (f v)) : Within d w (o >>= f) := by
  refine post_bind h fun v hv => ?_
  obtain ⟨rs, hrs, hasks⟩ := hv
  refine post_mono (hf v) ?_ ?_
  all_goals
    rintro u ⟨qs, hqs, hasks'⟩
    exact ⟨rs ++ qs, hrs.trans hqs, asks_append hasks hasks'⟩

theorem within_display (d : Json) (get : State → Option Json × State) (check : Json → Bool)
    (w : World) :
    Within d w (display get check w) := by
  have hnone (s : State) : ∃ rs, Sends rs w (w.setState s) ∧ Asks d rs :=
    ⟨[], sends_setState w s, fun r hr => absurd hr List.not_mem_nil⟩
  unfold display Within
  rcases get w.state with ⟨_ | shown, s⟩
  · exact hnone s
  · dsimp only
    split_ifs
    · exact hnone s
    · exact hnone s

theorem valueAt_objects {d k : Json} (h : Pointer.upsert id ["result", "objects"] d = some k) :
    k.valueAt ["result", "objects"] = d.valueAt ["result", "objects"] :=
  Pointer.valueAt_look (by decide) h (.inl rfl)

theorem within_subscribe (d : Json) (w : World) : Within d w (subscribe d w) := by
  have hnone : ∃ rs, Sends rs w w ∧ Asks d rs :=
    ⟨[], Sends.refl w, fun r hr => absurd hr List.not_mem_nil⟩
  unfold subscribe Within
  cases hk : Pointer.upsert id ["result", "objects"] d with
  | none => exact hnone
  | some k =>
    dsimp only
    rw [valueAt_objects hk]
    split
    · exact hnone
    · rename_i objs hobjs
      cases hnames : strings (d.valueAt ["result", "objects"]) with
      | none => exact hnone
      | some names =>
        refine ⟨[.subscribe (subObjs names)], sends_send w _, fun r hr => .inr ⟨names, ?_, ?_⟩⟩
        · unfold objectNames
          split
          · rename_i hnull
            exact absurd hnull hobjs
          · exact hnames
        · exact List.mem_singleton.mp hr

theorem within_showObjects (setup : Setup) (d : Json) (w : World) :
    Within d w (showObjects setup d w) :=
  within_bind (within_display d _ sensorEntry w) fun v =>
    within_bind (within_display d _ namedEntry v) fun v =>
      within_bind (within_display d _ namedEntry v) fun v => within_subscribe d v

theorem early_firstRequests : ∀ r ∈ firstRequests, Early r := by
  intro r hr
  simp only [firstRequests, List.mem_cons, List.not_mem_nil, or_false] at hr
  rcases hr with rfl | rfl | rfl | rfl | rfl | rfl <;>
    exact ⟨by decide, fun objects h => by cases h⟩

theorem within_listed (setup : Setup) (d : Json) (w : World) : Within d w (listed setup d w) := by
  have hfirst := (sends_setState w (w.state.setData "printer_objs" d ["result"])).trans
    (sends_sends _ firstRequests)
  have hasks : Asks d ([] ++ firstRequests) := fun r hr => .inl (early_firstRequests r hr)
  unfold listed
  dsimp only
  cases spoolmanDisabled setup with
  | none => exact ⟨_, hfirst, hasks⟩
  | some disabled =>
    have hserver : Asks d [.serverInfo disabled] := by
      intro r hr
      cases List.mem_singleton.mp hr
      exact .inl ⟨fun h => (by cases h), fun objects h => (by cases h)⟩
    refine post_mono (within_showObjects setup d _) ?_ ?_
    all_goals
      rintro u ⟨qs, hqs, hasks'⟩
      exact ⟨_, (hfirst.trans (sends_send _ (.serverInfo disabled))).trans hqs,
        asks_append (asks_append hasks hserver) hasks'⟩

theorem listed_sends (setup : Setup) (d : Json) (w : World) :
    ∃ rs, Sends rs w (final (listed setup d w)) ∧ Asks d rs :=
  post_final (P := fun v => ∃ rs, Sends rs w v ∧ Asks d rs) (within_listed setup d w)

theorem serverInfo_books (disabled : Bool) (j : Json) (w : World) :
    Books [] w (serverInfo disabled j w) ∧ (serverInfo disabled j w).overlay = w.overlay := by
  unfold serverInfo
  dsimp only
  split_ifs
  · exact ⟨books_nil rfl rfl rfl, rfl⟩
  · cases Pointer.upsert id ["result", "components"] j with
    | none => exact ⟨books_nil rfl rfl rfl, rfl⟩
    | some k =>
      dsimp only
      split
      · split_ifs <;> exact ⟨books_nil rfl rfl rfl, rfl⟩
      · exact ⟨books_nil rfl rfl rfl, rfl⟩

/-- Only the reply to `printer.objects.list` asks for more. -/
theorem handle_books (setup : Setup) (r : Request) (j : Json) (w : World) :
    ∃ rs, Books rs w (handle setup r j w) ∧
      ∀ q ∈ rs, r = .objectsList ∧
        (Early q ∨ ∃ names, objectNames j = some names ∧ q = .subscribe (subObjs names)) := by
  have hnone : ∀ q ∈ ([] : List Request), r = .objectsList ∧
      (Early q ∨ ∃ names, objectNames j = some names ∧ q = .subscribe (subObjs names)) :=
    fun q hq => absurd hq List.not_mem_nil
  cases r with
  | objectsList =>
    obtain ⟨rs, hrs, hasks⟩ := listed_sends setup j w
    exact ⟨rs, hrs.toBooks, fun q hq => ⟨rfl, hasks q hq⟩⟩
  | serverInfo disabled => exact ⟨[], (serverInfo_books disabled j w).1, hnone⟩
  | _ => exact ⟨[], books_nil rfl rfl rfl, hnone⟩

/-! ### Requests and replies -/

section
variable (setup : Setup)

def Event.isConnected : Event → Bool
  | .connected => true
  | _ => false

/-- Every request has been answered or is waited for, each once, and what was subscribed
to is what a list of objects made of it. -/
structure Inv (w : World) : Prop where
  ledger : w.sent.Perm (w.awaited ++ w.answered.map (·.1))
  lists : ∀ objects, .subscribe objects ∈ w.sent → ∃ d names,
    (.objectsList, d) ∈ w.answered ∧ objectNames d = some names ∧ objects = subObjs names

variable {setup}

theorem Inv.send {w : World} (h : Inv w) {r : Request} (hr : ∀ objects, r ≠ .subscribe objects) :
    Inv (w.send r) where
  ledger := by
    show (w.sent ++ [r]).Perm (w.awaited ++ [r] ++ w.answered.map (·.1))
    rw [List.append_assoc]
    exact (h.ledger.append_right [r]).trans
      (by rw [List.append_assoc]; exact List.perm_append_comm.append_left w.awaited)
  lists := by
    intro objects hobj
    rcases List.mem_append.mp hobj with hobj | hobj
    · exact h.lists objects hobj
    · exact absurd (List.mem_singleton.mp hobj).symm (hr objects)

theorem perm_eraseIdx {l : List Request} {i : ℕ} {r : Request} (h : l[i]? = some r) :
    l.Perm (l.eraseIdx i ++ [r]) := by
  induction l generalizing i with
  | nil => cases h
  | cons x xs ih =>
    cases i with
    | zero =>
      cases h
      exact (List.perm_append_singleton r xs).symm
    | succ i => exact (ih h).cons x

theorem Inv.reply {w : World} (h : Inv w) {i : ℕ} {r : Request} (hr : w.awaited[i]? = some r)
    (j : Json) :
    Inv (handle setup r j
      { w with
        awaited := w.awaited.eraseIdx i
        answered := w.answered ++ [(r, j)] }) := by
  obtain ⟨rs, hbooks, hasks⟩ := handle_books setup r j
    { w with
      awaited := w.awaited.eraseIdx i
      answered := w.answered ++ [(r, j)] }
  constructor
  · rw [hbooks.sent, hbooks.awaited, hbooks.answered, List.map_append]
    have hmoved : (w.awaited ++ w.answered.map (·.1)).Perm
        (w.awaited.eraseIdx i ++ (w.answered.map (·.1) ++ [r])) := by
      refine ((perm_eraseIdx hr).append_right _).trans ?_
      rw [List.append_assoc]
      exact List.perm_append_comm.append_left _
    refine ((h.ledger.trans hmoved).append_right rs).trans ?_
    rw [List.append_assoc, List.append_assoc (w.awaited.eraseIdx i)]
    exact List.perm_append_comm.append_left _
  · intro objects hobj
    rw [hbooks.sent] at hobj
    rw [hbooks.answered]
    rcases List.mem_append.mp hobj with hobj | hobj
    · obtain ⟨d, names, hd, hnames⟩ := h.lists objects hobj
      exact ⟨d, names, List.mem_append_left _ hd, hnames⟩
    · obtain ⟨rfl, hearly | ⟨names, hnames, hq⟩⟩ := hasks _ hobj
      · exact absurd rfl (hearly.2 objects)
      · cases hq
        exact ⟨j, names, List.mem_append_right _ (List.mem_singleton_self _), hnames, rfl⟩

theorem inv_step (w : World) (e : Event) (h : Inv w) : Inv (step setup w e) := by
  cases e with
  | connected =>
    have hreset : Inv { w with state := w.state.reset } := ⟨h.ledger, h.lists⟩
    have hlist := hreset.send (r := .objectsList) fun objects hq => (by cases hq)
    exact hlist.send (r := .powerDevices) fun objects hq => (by cases hq)
  | disconnected => exact ⟨h.ledger, h.lists⟩
  | reply i j =>
    unfold step
    dsimp only
    cases hr : w.awaited[i]? with
    | none => exact h
    | some r => exact h.reply hr j
  | notification j => exact ⟨h.ledger, h.lists⟩

theorem inv_run (es : List Event) : Inv (Run.run (step setup) {} es) := by
  refine Run.invariant (C := fun _ _ => True) (fun w e h _ => inv_step w e h) ({} : World) es ?_
    (Run.along_of_step (fun _ _ => trivial) ({} : World) es)
  exact ⟨.refl _, fun objects hobj => absurd hobj List.not_mem_nil⟩

theorem count_step (w : World) (e : Event) :
    (step setup w e).sent.count .objectsList =
      w.sent.count .objectsList + if e.isConnected then 1 else 0 := by
  cases e with
  | connected =>
    show (w.sent ++ [Request.objectsList] ++ [Request.powerDevices]).count _ = _
    simp [List.count_append, Event.isConnected]
  | disconnected => rfl
  | reply i j =>
    unfold step
    dsimp only
    cases hr : w.awaited[i]? with
    | none => rfl
    | some r =>
      obtain ⟨rs, hbooks, hasks⟩ := handle_books setup r j
        { w with
          awaited := w.awaited.eraseIdx i
          answered := w.answered ++ [(r, j)] }
      have hnone : rs.count .objectsList = 0 := by
        rw [List.count_eq_zero]
        intro hmem
        obtain ⟨-, hearly | ⟨names, -, hq⟩⟩ := hasks _ hmem
        · exact hearly.1 rfl
        · cases hq
      dsimp only
      rw [hbooks.sent, List.count_append, hnone]
      rfl
  | notification j => rfl

theorem count_run (w : World) (es : List Event) :
    (Run.run (step setup) w es).sent.count .objectsList =
      w.sent.count .objectsList + es.countP Event.isConnected := by
  induction es generalizing w with
  | nil => rfl
  | cons e es ih =>
    rw [Run.run_cons, ih, count_step, List.countP_cons]
    omega

end

/-! ### What is subscribed to, again -/

theorem get?_subObjs (names : List String) (n : String) :
    ((subObjs names).get? n).isSome = true ↔
      n = "tmcstatus" ∨ (n ∈ names ∧ wanted n = true) := by
  have hfold : ∀ (names : List String) (objs : Json),
      ((names.foldl (fun objs name => if wanted name then objs.set name .null else objs) objs).get?
        n).isSome = true ↔ (objs.get? n).isSome = true ∨ (n ∈ names ∧ wanted n = true) := by
    intro names
    induction names with
    | nil => simp
    | cons name names ih =>
      intro objs
      rw [List.foldl_cons, ih]
      by_cases hw : wanted name = true
      · rw [if_pos hw]
        by_cases hn : n = name
        · subst hn
          simp [hw]
        · rw [Json.get?_set_ne _ _ hn]
          simp [hn]
      · rw [if_neg hw]
        by_cases hn : n = name
        · subst hn
          simp [hw]
        · simp [hn]
  unfold subObjs
  by_cases hn : n = "tmcstatus"
  · subst hn
    simp
  · rw [Json.get?_set_ne _ _ hn, hfold]
    simp [hn, Json.get?, Json.members, Fields.find?]

/-- Each connection asks for the list of objects once, no reply is handled twice or for
nothing, and every subscription takes in exactly the wanted names of a list. -/
theorem requests_accounted (setup : Setup) (es : List Event) :
    (Run.run (step setup) {} es).sent.Perm
        ((Run.run (step setup) {} es).awaited ++ (Run.run (step setup) {} es).answered.map (·.1)) ∧
      (Run.run (step setup) {} es).sent.count .objectsList = es.countP Event.isConnected ∧
      ∀ objects, .subscribe objects ∈ (Run.run (step setup) {} es).sent → ∃ d names,
        (.objectsList, d) ∈ (Run.run (step setup) {} es).answered ∧ objectNames d = some names ∧
        ∀ n, (objects.get? n).isSome = true ↔ n = "tmcstatus" ∨ (n ∈ names ∧ wanted n = true) := by
  have h : Inv (Run.run (step setup) {} es) := inv_run es
  refine ⟨h.ledger, ?_, ?_⟩
  · rw [count_run]
    simp
  · intro objects hobj
    obtain ⟨d, names, hd, hnames, rfl⟩ := h.lists objects hobj
    exact ⟨d, names, hd, hnames, get?_subObjs names⟩

/-! ### The overlay -/

section
variable (setup : Setup)

def Request.isSubscribe : Request → Bool
  | .subscribe _ => true
  | _ => false

/-- What a subscription's reply makes of the panels. -/
def draws (w : World) (data : Json) : Bool :=
  (setup.init (w.state.setData "printer_state" data ["result", "status"]) data).2

/-- A subscription is answered, with an error or not, and the panels go through with it. -/
def Uncovers (w : World) (e : Event) : Prop :=
  ∃ i data r, e = .reply i data ∧ w.awaited[i]? = some r ∧ r.isSubscribe = true ∧
    draws setup w data = true

theorem overlay_handle (r : Request) (j : Json) (w : World) :
    (handle setup r j w).overlay = (w.overlay && !(r.isSubscribe && draws setup w j)) := by
  cases r with
  | objectsList =>
    obtain ⟨rs, hrs, -⟩ := listed_sends setup j w
    exact hrs.overlay.trans (Bool.and_true _).symm
  | serverInfo disabled => exact (serverInfo_books disabled j w).2.trans (Bool.and_true _).symm
  | subscribe objects => rfl
  | _ => exact (Bool.and_true _).symm

/-- The overlay, off. -/
theorem latch_overlay : Latch (step setup) (fun w => !w.overlay) (Uncovers setup)
    (fun _ e => e = .disconnected) where
  set := by
    rintro w e ⟨i, data, r, rfl, hr, hsub, hdraws⟩
    have hdraws' : draws setup
        { w with
          awaited := w.awaited.eraseIdx i
          answered := w.answered ++ [(r, data)] } data = true := hdraws
    simp only [step, hr, overlay_handle, hsub, hdraws', Bool.and_self, Bool.not_true,
      Bool.and_false,
      Bool.not_false]
  clear := by
    rintro w e rfl
    rfl
  keep := by
    intro w e hset hclear
    cases e with
    | connected => rfl
    | disconnected => exact absurd rfl hclear
    | reply i j =>
      cases hr : w.awaited[i]? with
      | none => simp only [step, hr]
      | some r =>
        have hno : (r.isSubscribe && draws setup w j) = false := by
          by_contra hyes
          have hyes := (Bool.and_eq_true _ _).mp (Bool.not_eq_false _ ▸ hyes)
          exact hset ⟨i, j, r, rfl, hr, hyes.1, hyes.2⟩
        have hno' : (r.isSubscribe && draws setup
            { w with
              awaited := w.awaited.eraseIdx i
              answered := w.answered ++ [(r, j)] } j) = false := hno
        simp only [step, hr, overlay_handle, hno', Bool.not_false, Bool.and_true]
    | notification j => rfl

/-- The banner is off exactly while a subscription has been answered, and the panels
have gone through with the answer, since the printer or the websocket was last
reported gone. An answer that was asked for earlier counts, and so does an error. -/
theorem uncovered_iff (es : List Event) :
    (Run.run (step setup) {} es).overlay = false ↔
      ∃ before e after, es = before ++ e :: after ∧
        Uncovers setup (Run.run (step setup) {} before) e ∧ .disconnected ∉ after := by
  have hrun := (latch_overlay setup).run_iff ({} : World) es
  rw [Bool.not_eq_true'] at hrun
  rw [hrun]
  have hheld (w : World) (after : List Event) :
      Latch.Held (step setup) (fun _ e => e = .disconnected) w after ↔ .disconnected ∉ after := by
    refine (Run.along_const_iff w).trans ?_
    constructor
    · exact fun h hmem => h _ hmem rfl
    · rintro h e hmem rfl
      exact h hmem
  simp only [hheld]
  constructor
  · rintro (h | ⟨hcovered, -⟩)
    · exact h
    · cases hcovered
  · exact .inl

end

/-- A printer with an extruder, and nothing configured. -/
def plainSetup : Setup := ⟨⟨.null, .null, .null⟩, .null, fun s _ => (s, true)⟩

def oneObject : Json :=
  .obj (.cons "result" (.obj (.cons "objects" (.arr (.cons (.str "extruder") .nil)) .nil)) .nil)

/-- The subscription fails because Klipper has gone, and uncovers the screen all the same. -/
example : (Run.run (step plainSetup) {} [.connected, .reply 0 oneObject, .disconnected,
    .reply 8 (.obj (.cons "error" (.str "Klippy Disconnected") .nil))]).overlay = false := by
  decide +kernel

/-! ### Entries the panels take -/

/-- A display list whose entries all pass a check. -/
structure Fine (check : Json → Bool) (shown : Json) : Prop where
  isMap : shown = .null ∨ shown.isObject = true
  entries : ∀ v ∈ shown.members.values, check v = true

theorem Fine.all {check : Json → Bool} {shown : Json} (h : Fine check shown) :
    shown.items.all check = true := by
  rw [List.all_eq_true]
  intro v hv
  rcases h.isMap with rfl | hobj
  · cases hv
  · cases shown with
    | obj fs => exact h.entries v hv
    | _ => cases hobj

theorem mem_values_insert {fs : Fields} {k : String} {w v : Json} (h : v ∈ (fs.insert k w).values) :
    v = w ∨ v ∈ fs.values := by
  induction fs using Fields.spine with
  | nil => exact .inl (List.mem_singleton.mp h)
  | cons q u r ih =>
    unfold Fields.insert at h
    split_ifs at h
    · rcases List.mem_cons.mp h with h | h
      · exact .inl h
      · exact .inr (List.mem_cons_of_mem _ h)
    · rcases List.mem_cons.mp h with h | h
      · exact .inl h
      · exact .inr h
    · rcases List.mem_cons.mp h with h | h
      · exact .inr (h ▸ List.mem_cons_self ..)
      · exact (ih h).imp_right (List.mem_cons_of_mem _)

section
variable {check : Json → Bool} {shown : Json}

theorem fine_null : Fine check .null := ⟨.inl rfl, fun _ hv => absurd hv List.not_mem_nil⟩

theorem Fine.set (h : Fine check shown) (k : String) {w : Json} (hw : check w = true) :
    Fine check (shown.set k w) := by
  refine ⟨.inr rfl, fun v hv => ?_⟩
  rcases mem_values_insert hv with rfl | hv
  · exact hw
  · exact h.entries v hv

theorem Fine.configured (h : Fine check shown) {known : Json} (hknown : Fine check known)
    (names : List String) : Fine check (State.configured known names shown) := by
  unfold State.configured
  induction names generalizing shown with
  | nil => exact h
  | cons e names ih =>
    rw [List.foldl_cons]
    cases he : known.get? e with
    | none => exact ih h
    | some entry => exact ih (h.set e (hknown.entries entry (Fields.mem_values_of_find? he)))

theorem fine_byId {user known : Json} (h : State.byId user = some known)
    (huser : ∀ e ∈ user.items, check e = true) : Fine check known := by
  have hfold : ∀ (entries : List Json) (acc : Json), (∀ e ∈ entries, check e = true) →
    Fine check acc →
      entries.foldlM State.addEntry acc = some known → Fine check known := by
    intro entries
    induction entries with
    | nil =>
      intro acc _ hacc hfold
      cases hfold
      exact hacc
    | cons e entries ih =>
      intro acc hall hacc hfold
      rw [List.foldlM_cons] at hfold
      obtain ⟨next, hnext, hrest⟩ := Option.bind_eq_some_iff.mp hfold
      obtain ⟨id, -, rfl⟩ := Option.map_eq_some_iff.mp hnext
      exact ih _ (fun e he => hall e (List.mem_cons_of_mem _ he))
        (hacc.set id (hall e (List.mem_cons_self ..))) hrest
  exact hfold user.items .null huser fine_null h

theorem Fine.defaultNamed (h : Fine namedEntry shown) (fallback : String) (names : List String) :
    Fine namedEntry (State.defaultNamed fallback names shown) := by
  unfold State.defaultNamed
  induction names generalizing shown with
  | nil => exact h
  | cons e names ih => exact ih (h.set e rfl)

theorem Fine.defaultSensors (h : Fine sensorEntry shown) (controllable : Bool) (names : List String)
    (idx : ℕ) : Fine sensorEntry (State.defaultSensors controllable names (shown, idx)).1 := by
  unfold State.defaultSensors
  induction names generalizing shown idx with
  | nil => exact h
  | cons e names ih => exact ih (h.set e rfl) (idx + 1)

end

/-- The defaults pass the checks of the panels they are made for. -/
theorem fine_displaySensors {known : Json} (h : Fine sensorEntry known)
    (extruders heaters sensors : List String) :
    Fine sensorEntry (State.displaySensors known extruders heaters sensors) := by
  have hshown := ((fine_null.configured h extruders).configured h heaters).configured h sensors
  unfold State.displaySensors
  dsimp only
  split_ifs
  · exact ((hshown.defaultSensors true extruders 0).defaultSensors true heaters _).defaultSensors
      false sensors _
  · exact hshown

theorem fine_displayFans {known : Json} (h : Fine namedEntry known) (fans pins : List String) :
    Fine namedEntry (State.displayFans known fans pins) := by
  have hshown := (fine_null.configured h fans).configured h pins
  unfold State.displayFans
  dsimp only
  split_ifs
  · exact hshown.defaultNamed "Part Fan" fans
  · exact hshown

theorem fine_displayLeds {known : Json} (h : Fine namedEntry known) (leds pins : List String) :
    Fine namedEntry (State.displayLeds known leds pins) := by
  have hshown := (fine_null.configured h leds).configured h pins
  unfold State.displayLeds State.defaultLeds
  dsimp only
  split_ifs
  · exact (hshown.set "output_pin LED" rfl).defaultNamed "LED" leds
  · exact hshown.defaultNamed "LED" leds
  · exact hshown

/-! ### The list of objects, as `State` has it -/

/-- `State` holds this list of objects. -/
structure Lists (l : Elems) (s : State) : Prop where
  isMap : s.data.isObject = true
  objects : s.data.at? State.objectsPtr = some (.arr l)

theorem Lists.plain {l : Elems} {s : State} (h : Lists l s) :
    Pointer.Plain State.objectsPtr s.data := by
  have hobj := h.objects
  cases hdata : s.data with
  | obj fs =>
    rw [hdata, State.objectsPtr, Json.at?_obj] at hobj
    obtain ⟨v, hv, hat⟩ := Option.bind_eq_some_iff.mp hobj
    refine ⟨fs, rfl, ?_⟩
    rw [hv]
    exact Pointer.plain_of_at? (by decide) hat
  | _ =>
    have hmap := h.isMap
    rw [hdata] at hmap
    cases hmap

theorem Lists.valueAt {l : Elems} {s : State} (h : Lists l s) :
    s.data.valueAt State.objectsPtr = .arr l := by
  rw [Json.valueAt, h.objects]
  rfl

theorem Lists.look {l : Elems} {s : State} (h : Lists l s) :
    s.objects = (some (.arr l), s.touched) ∧ Lists l s.touched := by
  obtain ⟨k, hk⟩ := Pointer.upsert_some id h.plain
  have hat := Pointer.at?_upsert h.plain hk
  have htouched : s.touched = ⟨k⟩ := by rw [State.touched, hk]; rfl
  rw [h.valueAt] at hat
  constructor
  · unfold State.objects
    rw [hk, htouched]
    simp [Json.valueAt, hat]
  · rw [htouched]
    refine ⟨?_, hat⟩
    cases hdata : s.data with
    | obj fs =>
      rw [hdata, State.objectsPtr, Pointer.upsert_cons rfl] at hk
      obtain ⟨v, -, rfl⟩ := Option.map_eq_some_iff.mp hk
      rfl
    | _ =>
      have hmap := h.isMap
      rw [hdata] at hmap
      cases hmap

theorem pick_names {keep : String → Bool} {items : List Json} {names : List String}
    (h : items.mapM Json.str? = some names) : State.pick keep items = some (names.filter keep) := by
  induction items generalizing names with
  | nil =>
    cases h
    rfl
  | cons j items ih =>
    rw [List.mapM_cons] at h
    obtain ⟨name, hname, h⟩ := Option.bind_eq_some_iff.mp h
    obtain ⟨rest, hrest, h⟩ := Option.bind_eq_some_iff.mp h
    cases h
    cases j with
    | str s =>
      cases hname
      rw [State.pick, ih hrest, List.filter_cons]
      rfl
    | _ => cases hname

theorem Lists.named {l : Elems} {names : List String} {s : State} (h : Lists l s)
    (hl : l.toList.mapM Json.str? = some names) (keep : String → Bool) :
    s.named keep = (some (names.filter keep), s.touched) := by
  unfold State.named
  rw [h.look.1]
  show ((State.pick keep l.toList), s.touched) = _
  rw [pick_names hl]

/-- What the configuration has passes the checks of the panels. -/
structure Accepted (conf : State.Displayed) : Prop where
  sensors : ∀ e ∈ conf.monitoredSensors.items, State.hasId e = true ∧ sensorEntry e = true
  fans : ∀ e ∈ conf.fans.items, State.hasId e = true ∧ namedEntry e = true
  leds : ∀ e ∈ conf.leds.items, State.hasId e = true ∧ namedEntry e = true

theorem known_fine {check : Json → Bool} {user : Json}
    (h : ∀ e ∈ user.items, State.hasId e = true ∧ check e = true) :
    ∃ known, State.byId user = some known ∧ Fine check known := by
  have hsome : (State.byId user).isSome = true := by
    rw [State.byId_isSome, List.all_eq_true]
    exact fun e he => (h e he).1
  obtain ⟨known, hknown⟩ := Option.isSome_iff_exists.mp hsome
  exact ⟨known, hknown, fine_byId hknown fun e he => (h e he).2⟩

theorem display_ok {get : State → Option Json × State} {check : Json → Bool} {w : World}
    {shown : Json} {s : State} (h : get w.state = (some shown, s)) (hfine : Fine check shown) :
    display get check w = .ok (w.setState s) := by
  unfold display
  rw [h]
  dsimp only
  rw [if_pos hfine.all]

section
variable {conf : State.Displayed} (haccepted : Accepted conf) {l : Elems} {names : List String}
  (hl : l.toList.mapM Json.str? = some names)
include haccepted hl

theorem sensors_shown {s : State} (h : Lists l s) :
    ∃ shown t, s.getDisplaySensors conf = (some shown, t) ∧ Fine sensorEntry shown ∧ Lists l t := by
  obtain ⟨known, hknown, hfine⟩ := known_fine haccepted.sensors
  have h1 := h.look.2
  have h2 := h1.look.2
  have hget : s.getDisplaySensors conf = s.getDisplaySensors conf := rfl
  conv at hget =>
    rhs
    simp only [State.getDisplaySensors, hknown, State.andThen, State.getExtruders,
      State.getHeaters, State.getSensors, h.named hl, h1.named hl, h2.named hl]
  exact ⟨_, _, hget, fine_displaySensors hfine _ _ _, h2.look.2⟩

theorem fans_shown {s : State} (h : Lists l s) :
    ∃ shown t, s.getDisplayFans conf = (some shown, t) ∧ Fine namedEntry shown ∧ Lists l t := by
  obtain ⟨known, hknown, hfine⟩ := known_fine haccepted.fans
  have h1 := h.look.2
  have hget : s.getDisplayFans conf = s.getDisplayFans conf := rfl
  conv at hget =>
    rhs
    simp only [State.getDisplayFans, hknown, State.andThen, State.getFans, State.getOutputPins,
      h.named hl, h1.named hl]
  exact ⟨_, _, hget, fine_displayFans hfine _ _, h1.look.2⟩

theorem leds_shown {s : State} (h : Lists l s) :
    ∃ shown t, s.getDisplayLeds conf = (some shown, t) ∧ Fine namedEntry shown ∧ Lists l t := by
  obtain ⟨known, hknown, hfine⟩ := known_fine haccepted.leds
  have h1 := h.look.2
  have hget : s.getDisplayLeds conf = s.getDisplayLeds conf := rfl
  conv at hget =>
    rhs
    simp only [State.getDisplayLeds, hknown, State.andThen, State.getLeds, State.getOutputPins,
      h.named hl, h1.named hl]
  exact ⟨_, _, hget, fine_displayLeds hfine _ _, h1.look.2⟩

end

/-- A reply that lists the printer's objects. -/
structure Listing (d : Json) (names : List String) : Prop where
  wf : d.Wf
  objects : ∃ l, d.valueAt ["result", "objects"] = .arr l ∧ l.toList.mapM Json.str? = some names

theorem at?_of_valueAt {j v : Json} {ptr : List String} (h : j.valueAt ptr = v) (hv : v ≠ .null) :
    j.at? ptr = some v := by
  unfold Json.valueAt at h
  cases hat : j.at? ptr with
  | none =>
    rw [hat] at h
    exact absurd h.symm hv
  | some w =>
    rw [hat] at h
    exact congrArg some h

/-- The list is a member of the object the reply has for its result. -/
theorem listing_patch {d : Json} {l : Elems} (h : d.valueAt ["result", "objects"] = .arr l) :
    ∃ ps, d.at? ["result"] = some (.obj ps) ∧ ps.find? "objects" = some (.arr l) := by
  have hat := at?_of_valueAt h (fun hn => by cases hn)
  have happ := Json.at?_append d ["result"] ["objects"]
  rw [List.singleton_append, hat] at happ
  obtain ⟨patch, hpatch, hobjects⟩ := Option.bind_eq_some_iff.mp happ.symm
  have hget := Json.get?_of_at? (by decide) hobjects
  cases patch with
  | obj ps => exact ⟨ps, hpatch, hget⟩
  | _ => cases hget

theorem lists_setData (s : State) {d : Json} {l : Elems} (hd : d.Wf)
    (h : d.valueAt ["result", "objects"] = .arr l) :
    Lists l (s.setData "printer_objs" d ["result"]) := by
  obtain ⟨ps, hpatch, hget⟩ := listing_patch h
  have hsorted : ps.Sorted := (Json.wf_at? ["result"] d hd hpatch).1
  have hvalue : d.valueAt ["result"] = .obj ps := by
    rw [Json.valueAt, hpatch]
    rfl
  have hpresent : d.valueAt ["result"] ≠ .null := by
    rw [hvalue]
    intro h
    cases h
  have hdata := State.setData_present s "printer_objs" hpresent
  rw [hvalue] at hdata
  refine ⟨by rw [hdata]; rfl, ?_⟩
  rw [hdata, State.objectsPtr, Json.at?_of_get? (Json.get?_set_self _ _ _), Json.mergePatch,
    Json.at?_obj, Fields.find?_mergeInto _ _ hsorted, hget]
  rfl

theorem subscribe_ok {d : Json} {names : List String} (hd : Listing d names) (w : World) :
    subscribe d w = .ok (w.send (.subscribe (subObjs names))) := by
  obtain ⟨l, hobjects, hl⟩ := hd.objects
  obtain ⟨ps, hpatch, -⟩ := listing_patch hobjects
  have hplain : Pointer.Plain ["result", "objects"] d := by
    cases d with
    | obj fs =>
      rw [Json.at?_obj] at hpatch
      obtain ⟨v, hv, hat⟩ := Option.bind_eq_some_iff.mp hpatch
      rw [Json.at?_nil] at hat
      cases hat
      refine ⟨fs, rfl, ?_⟩
      rw [hv]
      exact ⟨ps, rfl, trivial⟩
    | arr l =>
      have hnone : (Json.arr l).at? ["result"] = none := by
        rw [Json.at?, show arrayIndex "result" = none by decide]
        rfl
      rw [hnone] at hpatch
      cases hpatch
    | _ => cases hpatch
  obtain ⟨k, hk⟩ := Pointer.upsert_some id hplain
  unfold subscribe
  rw [hk]
  dsimp only
  rw [valueAt_objects hk, hobjects]
  dsimp only
  rw [show strings (.arr l) = some names from hl]

/-- With a configuration the panels take, a list of objects leads to the subscription. -/
theorem listed_ok {setup : Setup} (haccepted : Accepted setup.displayed)
    (hspoolman : (spoolmanDisabled setup).isSome = true) {d : Json} {names : List String}
    (hd : Listing d names) (w : World) :
    ∃ rs, (final (listed setup d w)).awaited =
      w.awaited ++ (rs ++ [.subscribe (subObjs names)]) := by
  obtain ⟨l, hobjects, hl⟩ := hd.objects
  obtain ⟨disabled, hdisabled⟩ := Option.isSome_iff_exists.mp hspoolman
  have hstate (v : World) (rs : List Request) : (v.sends rs).state = v.state := by
    induction rs generalizing v with
    | nil => rfl
    | cons r rs ih => exact ih (v.send r)
  have hlists : Lists l ((((w.setState (w.state.setData "printer_objs" d ["result"])).sends
      firstRequests).send (.serverInfo disabled)).state) := by
    show Lists l ((w.setState _).sends firstRequests).state
    rw [hstate]
    exact lists_setData w.state hd.wf hobjects
  have hbooks : ((((w.setState (w.state.setData "printer_objs" d ["result"])).sends
      firstRequests).send (.serverInfo disabled)).awaited) =
      w.awaited ++ (firstRequests ++ [.serverInfo disabled]) := by
    rw [← List.append_assoc]
    exact congrArg (· ++ [_]) (sends_sends _ firstRequests).awaited
  unfold listed
  dsimp only
  rw [hdisabled]
  dsimp only
  generalize (((w.setState (w.state.setData "printer_objs" d ["result"])).sends
    firstRequests).send (.serverInfo disabled)) = v at hlists hbooks ⊢
  obtain ⟨sensors, s1, hsensors, hfine1, hs1⟩ := sensors_shown haccepted hl hlists
  obtain ⟨fans, s2, hfans, hfine2, hs2⟩ := fans_shown haccepted hl hs1
  obtain ⟨leds, s3, hleds, hfine3, -⟩ := leds_shown haccepted hl hs2
  have h1 := display_ok hsensors hfine1
  have h2 := display_ok (w := v.setState s1) hfans hfine2
  have h3 := display_ok (w := (v.setState s1).setState s2) hleds hfine3
  refine ⟨firstRequests ++ [.serverInfo disabled], ?_⟩
  unfold showObjects
  rw [h1]
  show (final (display _ _ (v.setState s1) >>= _)).awaited = _
  rw [h2]
  show (final (display _ _ ((v.setState s1).setState s2) >>= _)).awaited = _
  rw [h3]
  show (final (subscribe d _)).awaited = _
  rw [subscribe_ok hd, ← List.append_assoc, ← hbooks]
  rfl

/-! ### A connection that goes well -/

section
variable (setup : Setup)

/-- How many requests that were awaited when the run began still are; they come first. -/
def older (k : ℕ) : Event → ℕ
  | .reply i _ => if i < k then k - 1 else k
  | _ => k

/-- A run, with the older of the awaited requests counted. -/
def stepSince (v : World × ℕ) (e : Event) : World × ℕ := (step setup v.1 e, older v.2 e)

/-- The printer stays, and of what was asked since the run began, the list has its objects
and the panels go through with the answer to the subscription. -/
def Smooth (v : World × ℕ) : Event → Prop
  | .disconnected => False
  | .reply i j => v.2 ≤ i →
    match v.1.awaited[i]? with
    | some .objectsList => ∃ names, Listing j names
    | some (.subscribe _) => draws setup v.1 j = true
    | _ => True
  | _ => True

/-- A reply that the screen still waits for. -/
def Request.leads : Request → Bool
  | .objectsList => true
  | .subscribe _ => true
  | _ => false

/-- The banner is off, or a reply that leads there is awaited since the run began. -/
def UnderWay (v : World × ℕ) : Prop :=
  ∃ old new, v.1.awaited = old ++ new ∧ old.length = v.2 ∧
    ((∃ r ∈ new, r.leads = true) ∨ v.1.overlay = false)

variable {setup}

theorem underWay_start (w : World) : UnderWay (step setup w .connected, w.awaited.length) := by
  refine ⟨w.awaited, [.objectsList, .powerDevices], ?_, rfl, ?_⟩
  · show w.awaited ++ [.objectsList] ++ [.powerDevices] = _
    rw [List.append_assoc]
    rfl
  · exact .inl ⟨.objectsList, by simp, rfl⟩

theorem underWay_connected {v : World × ℕ} (h : UnderWay v) :
    UnderWay (stepSince setup v .connected) := by
  obtain ⟨old, new, hawaited, hlen, -⟩ := h
  refine ⟨old, new ++ [.objectsList, .powerDevices], ?_, hlen, ?_⟩
  · show v.1.awaited ++ [.objectsList] ++ [.powerDevices] = _
    rw [hawaited, List.append_assoc, List.append_assoc]
    rfl
  · exact .inl ⟨.objectsList, by simp, rfl⟩

/-- The answer to an older request takes nothing from what is waited for. -/
theorem underWay_older {v : World × ℕ} (h : UnderWay v) {i : ℕ} (hi : i < v.2) (j : Json) :
    UnderWay (stepSince setup v (.reply i j)) := by
  obtain ⟨old, new, hawaited, hlen, hcase⟩ := h
  have hlt : i < old.length := by omega
  have hr : v.1.awaited[i]? = some old[i] := by
    rw [hawaited, List.getElem?_append_left hlt, List.getElem?_eq_getElem hlt]
  obtain ⟨rs, hbooks, -⟩ := handle_books setup old[i] j
    { v.1 with
      awaited := v.1.awaited.eraseIdx i
      answered := v.1.answered ++ [(old[i], j)] }
  have herase : v.1.awaited.eraseIdx i = old.eraseIdx i ++ new := by
    rw [hawaited, List.eraseIdx_append_of_lt_length hlt]
  refine ⟨old.eraseIdx i, new ++ rs, ?_, ?_, ?_⟩
  · show (step setup v.1 (.reply i j)).awaited = _
    simp only [step, hr]
    rw [hbooks.awaited, ← List.append_assoc]
    exact congrArg (· ++ rs) herase
  · show _ = if i < v.2 then v.2 - 1 else v.2
    rw [if_pos hi, List.length_eraseIdx_of_lt hlt, hlen]
  · rcases hcase with ⟨q, hq, hleads⟩ | hoff
    · exact .inl ⟨q, List.mem_append_left _ hq, hleads⟩
    · right
      show (step setup v.1 (.reply i j)).overlay = false
      simp only [step, hr]
      rw [overlay_handle]
      show (v.1.overlay && _) = false
      rw [hoff, Bool.false_and]

theorem underWay_newer (haccepted : Accepted setup.displayed)
    (hspoolman : (spoolmanDisabled setup).isSome = true) {v : World × ℕ} (h : UnderWay v) {i : ℕ}
    {j : Json} (hi : v.2 ≤ i) (hsmooth : Smooth setup v (.reply i j)) :
    UnderWay (stepSince setup v (.reply i j)) := by
  have hsmooth := hsmooth hi
  have holder : older v.2 (.reply i j) = v.2 := if_neg (Nat.not_lt.mpr hi)
  unfold stepSince
  rw [holder]
  unfold step
  dsimp only at hsmooth ⊢
  cases hr : v.1.awaited[i]? with
  | none => exact h
  | some r =>
    obtain ⟨old, new, hawaited, hlen, hcase⟩ := h
    have herase : v.1.awaited.eraseIdx i = old ++ new.eraseIdx (i - old.length) := by
      rw [hawaited, List.eraseIdx_append_of_length_le (by omega)]
    have hnew : new[i - old.length]? = some r := by
      rw [hawaited, List.getElem?_append_right (by omega)] at hr
      exact hr
    rw [hr] at hsmooth
    dsimp only
    by_cases hlist : r = .objectsList
    · subst hlist
      obtain ⟨names, hnames⟩ := hsmooth
      obtain ⟨rs, hrs⟩ := listed_ok haccepted hspoolman hnames
        { v.1 with
          awaited := v.1.awaited.eraseIdx i
          answered := v.1.answered ++ [(.objectsList, j)] }
      refine ⟨old, new.eraseIdx (i - old.length) ++ (rs ++ [.subscribe (subObjs names)]), ?_, hlen,
        .inl ⟨.subscribe (subObjs names), by simp, rfl⟩⟩
      rw [← List.append_assoc, ← herase]
      exact hrs
    obtain ⟨rs, hbooks, -⟩ := handle_books setup r j
      { v.1 with
        awaited := v.1.awaited.eraseIdx i
        answered := v.1.answered ++ [(r, j)] }
    refine ⟨old, new.eraseIdx (i - old.length) ++ rs, ?_, hlen, ?_⟩
    · rw [← List.append_assoc, ← herase]
      exact hbooks.awaited
    by_cases hsub : r.isSubscribe = true
    · right
      dsimp only
      rw [overlay_handle, hsub]
      cases r with
      | subscribe objects =>
        have hdraws : draws setup v.1 j = true := hsmooth
        show (v.1.overlay && !(true && draws setup v.1 j)) = false
        rw [hdraws]
        simp
      | _ => cases hsub
    · -- Any other reply leaves what is waited for, and the overlay.
      rcases hcase with ⟨q, hq, hleads⟩ | hoff
      · left
        refine ⟨q, ?_, hleads⟩
        refine List.mem_append_left _ ?_
        rcases List.mem_append.mp ((perm_eraseIdx hnew).mem_iff.mp hq) with hq | hq
        · exact hq
        · have hqr : q = r := List.mem_singleton.mp hq
          rw [hqr] at hleads
          cases r with
          | objectsList => exact absurd rfl hlist
          | subscribe objects => exact absurd rfl hsub
          | _ => cases hleads
      · right
        dsimp only
        rw [overlay_handle]
        show (v.1.overlay && _) = false
        rw [hoff, Bool.false_and]

theorem underWay_step (haccepted : Accepted setup.displayed)
    (hspoolman : (spoolmanDisabled setup).isSome = true) (v : World × ℕ) (e : Event)
    (h : UnderWay v) (hsmooth : Smooth setup v e) : UnderWay (stepSince setup v e) := by
  cases e with
  | connected => exact underWay_connected h
  | disconnected => exact absurd hsmooth id
  | reply i j =>
    by_cases hi : i < v.2
    · exact underWay_older h hi j
    · exact underWay_newer haccepted hspoolman h (Nat.not_lt.mp hi) hsmooth
  | notification j => exact h

theorem run_stepSince (v : World × ℕ) (es : List Event) :
    (Run.run (stepSince setup) v es).1 = Run.run (step setup) v.1 es := by
  induction es generalizing v with
  | nil => rfl
  | cons e es ih => exact ih (stepSince setup v e)

end

/-- Replies may come in any order and between anything else, those to older requests may
say anything or never come: a connection that goes well takes the banner off once the list
and the subscription that were asked for since are answered. -/
theorem handshake_completes (setup : Setup) (haccepted : Accepted setup.displayed)
    (hspoolman : (spoolmanDisabled setup).isSome = true) (w : World) (after : List Event)
    (hsmooth : Run.Along (stepSince setup) (Smooth setup)
      (step setup w .connected, w.awaited.length) after)
    (hanswered : ∀ r ∈ (Run.run (step setup) w (.connected :: after)).awaited.drop
      (Run.run (stepSince setup) (step setup w .connected, w.awaited.length) after).2,
      r.leads = false) :
    (Run.run (step setup) w (.connected :: after)).overlay = false := by
  have hrun := Run.invariant (fun v e h hc => underWay_step haccepted hspoolman v e h hc) _ after
    (underWay_start w) hsmooth
  have hworld : (Run.run (stepSince setup) (step setup w .connected, w.awaited.length) after).1 =
      Run.run (step setup) (step setup w .connected) after := run_stepSince _ after
  rw [Run.run_cons] at hanswered ⊢
  rw [← hworld] at hanswered ⊢
  obtain ⟨old, new, hawaited, hlen, ⟨r, hr, hleads⟩ | hoff⟩ := hrun
  · rw [hawaited, ← hlen, List.drop_left] at hanswered
    rw [hanswered r hr] at hleads
    cases hleads
  · exact hoff

-- The first connection is lost unanswered; of it nothing is left to wait for.
def lostOnce : World := Run.run (step plainSetup) {} [.connected, .disconnected]

def goesWell : List Event := [.reply 2 oneObject, .reply 10 .null]

theorem goesWell_uncovers :
    Run.Along (stepSince plainSetup) (Smooth plainSetup)
        (step plainSetup lostOnce .connected, lostOnce.awaited.length) goesWell ∧
      (Run.run (step plainSetup) lostOnce (.connected :: goesWell)).overlay = false := by
  have hlisting : Listing oneObject ["extruder"] := ⟨by decide, _, rfl, rfl⟩
  have hawaited : (step plainSetup (step plainSetup lostOnce .connected)
      (.reply 2 oneObject)).awaited[10]? = some (.subscribe (subObjs ["extruder"])) := by
    decide +kernel
  have hsmooth : Run.Along (stepSince plainSetup) (Smooth plainSetup)
      (step plainSetup lostOnce .connected, lostOnce.awaited.length) goesWell := by
    refine ⟨fun _ => ⟨["extruder"], hlisting⟩, ?_, trivial⟩
    intro _
    simp only [stepSince, hawaited]
    rfl
  exact ⟨hsmooth, handshake_completes plainSetup ⟨by simp [plainSetup, Json.items],
    by simp [plainSetup, Json.items], by simp [plainSetup,
      Json.items]⟩ rfl lostOnce goesWell hsmooth
    (by decide +kernel)⟩

end GuppyScreen.InitPanel
