import GuppyScreen.Lib.Json
import GuppyScreen.Lib.Outcome
import GuppyScreen.Lib.Run
import GuppyScreen.Lib.StdMap

/-!
# Power devices (power_panel.cpp)

A switch for each power device of Moonraker. A tap turns the switch at once and asks
Moonraker to turn the device; every reply sets switches to what it reports. Moonraker may
refuse, and may carry out and answer requests in any order; a connection that is lost takes
the replies on their way with it, and may take requests. The list of devices is asked for
when the websocket opens and when Klipper is ready. Left out are the panel's layout and a
`result` that is no object.
-/

namespace GuppyScreen.PowerPanel
open Lib

/-- Each device with the state of its switch. -/
structure Panel where
  devices : StdMap String Bool := ∅

namespace Panel

def showStatus (p : Panel) (name status : String) : Panel :=
  { p with devices := p.devices.insert name (status == "on") }

def createDevice (p : Panel) (j : Json) : Except Panel Panel :=
  match (j.get? "device").bind Json.str? with
  | none => .error p
  | some name =>
    let p := { p with devices := p.devices.insertNew name false }
    match (j.get? "status").bind Json.str? with
    | none => .error p
    | some status => .ok (p.showStatus name status)

def eachDevice : List Json → Panel → Except Panel Panel
  | [], p => .ok p
  | j :: rest, p => p.createDevice j >>= eachDevice rest

def createDevices (p : Panel) (j : Json) : Panel :=
  match (j.get? "result").bind (·.get? "devices") with
  | none => p
  | some devices => Outcome.final (eachDevice devices.items p)

/-- A device that has no switch is passed over, whatever its value. -/
def eachStatus : Fields → Panel → Except Panel Panel
  | .nil, p => .ok p
  | .cons name v rest, p =>
    if name ∈ p.devices then
      match v.str? with
      | none => .error p
      | some status => eachStatus rest (p.showStatus name status)
    else eachStatus rest p

def handleDeviceCallback (p : Panel) (j : Json) : Panel :=
  match j.get? "result" with
  | none => p
  | some result => Outcome.final (eachStatus result.members p)

end Panel

/-! ### Moonraker -/

inductive Request where
  | list
  | status (names : List String)
  | post (name : String) (on : Bool)

/-- A request that was not carried out yet, `mine` while its reply can still arrive. -/
structure Call where
  request : Request
  mine : Bool := true

/-- What Moonraker answers, with the devices as they were then. -/
structure Reply where
  request : Request
  refused : Bool
  status : String → String

def Request.asks (names : List String) (d : String) : Request → Bool
  | .list => d ∈ names
  | .status ns => d ∈ ns
  | .post name _ => name == d

namespace Reply

def device (r : Reply) (name : String) : Json :=
  .obj (.cons "device" (.str name) (.cons "status" (.str (r.status name)) .nil))

def statuses (r : Reply) : List String → Fields
  | [] => .nil
  | name :: rest => (statuses r rest).insert name (.str (r.status name))

def result (r : Reply) (names : List String) : Json :=
  match r.request with
  | .list => .obj (.cons "devices" (.arr (names.foldr (fun n l => .cons (r.device n) l) .nil)) .nil)
  | .status ns => .obj (r.statuses ns)
  | .post name _ => .obj (r.statuses [name])

def body (r : Reply) (names : List String) : Json :=
  if r.refused then .obj (.cons "error" (.str "") .nil)
  else .obj (.cons "result" (r.result names) .nil)

/-- Whether the reply says anything of a device. -/
def tells (r : Reply) (names : List String) (d : String) : Bool :=
  !r.refused && r.request.asks names d

end Reply

/-! ### Panel and Moonraker -/

structure World where
  panel : Panel := {}
  names : List String
  status : String → String
  pending : List Call := []
  replies : List Reply := []

inductive Event where
  | tap (name : String)
  | foreground
  /-- The websocket opens again. -/
  | connected
  /-- `notify_klippy_ready`, over the websocket that is open. -/
  | klippyReady
  | serve (i : ℕ) (outcome : Option String)
  | deliver (i : ℕ)
  /-- What was asked before the websocket opened never got there. -/
  | lost (i : ℕ)
  | outside (name status : String)

namespace World

/-- The switch has turned when its handler runs. -/
def tap (w : World) (name : String) : World :=
  match w.panel.devices.lookup name with
  | none => w
  | some checked =>
    { w with
      panel := { w.panel with devices := w.panel.devices.insert name (!checked) }
      pending := w.pending ++ [{ request := .post name (!checked) }] }

def foreground (w : World) : World :=
  { w with pending := w.pending ++ [{ request := .status w.panel.devices.keys }] }

/-- The replies of the connection before never come. -/
def connected (w : World) : World :=
  { w with
    pending := w.pending.map (fun c => { c with mine := false }) ++ [{ request := .list }]
    replies := [] }

def klippyReady (w : World) : World := { w with pending := w.pending ++ [{ request := .list }] }

/-- What is carried out leaves a device in whatever state it reports. -/
def carryOut (w : World) (outcome : String) : Request → String → String
  | .post name _ => Function.update w.status name outcome
  | _ => w.status

def serve (w : World) (i : ℕ) (outcome : Option String) : World :=
  match w.pending[i]? with
  | none => w
  | some call =>
    let status := outcome.elim w.status fun s => w.carryOut s call.request
    { w with
      status := status
      pending := w.pending.eraseIdx i
      replies :=
        if call.mine then w.replies ++ [⟨call.request, outcome.isNone, status⟩] else w.replies }

def receive (w : World) (r : Reply) : Panel :=
  match r.request with
  | .list => w.panel.createDevices (r.body w.names)
  | _ => w.panel.handleDeviceCallback (r.body w.names)

def deliver (w : World) (i : ℕ) : World :=
  match w.replies[i]? with
  | none => w
  | some r =>
    { w with
      panel := w.receive r
      replies := w.replies.eraseIdx i }

def lost (w : World) (i : ℕ) : World :=
  match w.pending[i]? with
  | some ⟨_, false⟩ => { w with pending := w.pending.eraseIdx i }
  | _ => w

def step (w : World) : Event → World
  | .tap name => w.tap name
  | .foreground => w.foreground
  | .connected => w.connected
  | .klippyReady => w.klippyReady
  | .lost i => w.lost i
  | .serve i outcome => w.serve i outcome
  | .deliver i => w.deliver i
  | .outside name status => { w with status := Function.update w.status name status }

end World

/-! ### What a reply does to a switch -/

theorem lookup_showStatus (p : Panel) (name status d : String) :
    (p.showStatus name status).devices.lookup d =
      if d = name then some (status == "on") else p.devices.lookup d := by
  unfold Panel.showStatus
  split_ifs with hd
  · subst hd
    exact AList.lookup_insert _
  · exact AList.lookup_insert_ne hd

theorem mem_showStatus {p : Panel} {name d : String} (hname : name ∈ p.devices) (status : String) :
    d ∈ (p.showStatus name status).devices ↔ d ∈ p.devices := by
  unfold Panel.showStatus
  rw [AList.mem_insert]
  constructor
  · rintro (rfl | hd)
    · exact hname
    · exact hd
  · exact Or.inr

/-- The members of an object give each device its state. -/
def Gives (fs : Fields) (status : String → String) : Prop :=
  fs.Sorted ∧ ∀ k v, fs.find? k = some v → v = .str (status k)

theorem lookup_eachStatus {fs : Fields} {status : String → String} (h : Gives fs status) (p : Panel)
    (d : String) :
    (Outcome.final (Panel.eachStatus fs p)).devices.lookup d =
      if d ∈ fs.keys ∧ d ∈ p.devices then some (status d == "on") else p.devices.lookup d := by
  induction fs using Fields.spine generalizing p with
  | nil => simp [Panel.eachStatus, Outcome.final, Fields.keys]
  | cons name v rest ih =>
    have hv : v = .str (status name) := h.2 name v (by simp [Fields.find?])
    have hrest : Gives rest status := by
      refine ⟨h.1.2, fun k w hk => h.2 k w ?_⟩
      have hmem : k ∈ rest.keys := by
        by_contra hn
        rw [(Fields.find?_eq_none_iff rest k).mpr hn] at hk
        cases hk
      have hne : name ≠ k := ne_of_lt (h.1.1 k hmem)
      simp [Fields.find?, hne, hk]
    subst hv
    by_cases hname : name ∈ p.devices
    · simp only [Panel.eachStatus, hname, if_true, Json.str?]
      rw [ih hrest]
      simp only [mem_showStatus hname, lookup_showStatus]
      by_cases hd : d = name
      · subst hd
        have hfresh : d ∉ rest.keys := fun hmem => absurd (h.1.1 d hmem) (lt_irrefl d)
        simp [hfresh, Fields.keys, hname]
      · simp [Fields.keys, hd]
    · simp only [Panel.eachStatus, hname, if_false]
      rw [ih hrest]
      by_cases hd : d = name
      · subst hd
        simp [hname]
      · simp [Fields.keys, hd]

theorem gives_statuses (r : Reply) (names : List String) : Gives (r.statuses names) r.status := by
  induction names with
  | nil => exact ⟨trivial, fun k v hk => by simp [Reply.statuses, Fields.find?] at hk⟩
  | cons name rest ih =>
    refine ⟨Fields.insert_sorted _ _ _ ih.1, ?_⟩
    intro k v hk
    by_cases hne : k = name
    · subst hne
      rw [Reply.statuses, Fields.find?_insert_self] at hk
      exact (Option.some.inj hk).symm
    · rw [Reply.statuses, Fields.find?_insert_ne _ _ hne] at hk
      exact ih.2 k v hk

theorem mem_keys_statuses (r : Reply) (names : List String) (d : String) :
    d ∈ (r.statuses names).keys ↔ d ∈ names := by
  have hfind : (r.statuses names).find? d = none ↔ d ∉ names := by
    induction names with
    | nil => simp [Reply.statuses, Fields.find?]
    | cons name rest ih =>
      by_cases hd : d = name
      · subst hd
        simp [Reply.statuses]
      · rw [Reply.statuses, Fields.find?_insert_ne _ _ hd, ih]
        simp [hd]
  rw [Fields.find?_eq_none_iff] at hfind
  exact not_iff_not.mp hfind

theorem lookup_createDevice (r : Reply) (p : Panel) (name d : String) :
    ∃ q, p.createDevice (r.device name) = .ok q ∧
      q.devices.lookup d = if d = name then some (r.status name == "on")
        else p.devices.lookup d := by
  refine ⟨_, rfl, ?_⟩
  rw [lookup_showStatus]
  split_ifs with hd
  · rfl
  · apply Option.ext
    intro b
    rw [StdMap.lookup_insertNew_iff]
    simp [hd]

theorem lookup_eachDevice (r : Reply) (names : List String) (p : Panel) (d : String) :
    (Outcome.final (Panel.eachDevice (names.map r.device) p)).devices.lookup d =
      if d ∈ names then some (r.status d == "on") else p.devices.lookup d := by
  induction names generalizing p with
  | nil => simp [Panel.eachDevice, Outcome.final]
  | cons name rest ih =>
    obtain ⟨q, hq, hlookup⟩ := lookup_createDevice r p name d
    rw [List.map_cons, Panel.eachDevice, hq]
    show (Outcome.final (Panel.eachDevice (rest.map r.device) q)).devices.lookup d = _
    rw [ih, hlookup]
    by_cases hd : d = name
    · subst hd
      simp
    · simp [hd]

theorem toList_devices (r : Reply) (names : List String) :
    (names.foldr (fun n l => Elems.cons (r.device n) l) .nil).toList = names.map r.device := by
  induction names with
  | nil => rfl
  | cons name rest ih => rw [List.foldr_cons, Elems.toList, ih, List.map_cons]

namespace World

theorem lookup_statuses (w : World) (r : Reply) (names : List String) (d : String) :
    (Outcome.final (Panel.eachStatus (r.statuses names) w.panel)).devices.lookup d =
      if d ∈ names ∧ d ∈ w.panel.devices then some (r.status d == "on")
      else w.panel.devices.lookup d := by
  rw [lookup_eachStatus (gives_statuses r names)]
  simp only [mem_keys_statuses]

/-- Whether switches are made for devices that have none. -/
def lists : Request → Bool
  | .list => true
  | _ => false

theorem lookup_receive (w : World) (r : Reply) (d : String) :
    (w.receive r).devices.lookup d =
      if r.tells w.names d = true ∧ (d ∈ w.panel.devices ∨ lists r.request = true) then
        some (r.status d == "on")
      else w.panel.devices.lookup d := by
  obtain ⟨request, refused, status⟩ := r
  cases refused with
  | true =>
    cases request with
    | _ => rfl
  | false =>
    cases request with
    | list =>
      have hitems := toList_devices ⟨.list, false, status⟩ w.names
      have hlookup : (w.receive ⟨.list, false, status⟩).devices.lookup d = _ :=
        (congrArg (fun l => (Outcome.final
          (Panel.eachDevice l w.panel)).devices.lookup d) hitems).trans
          (lookup_eachDevice ⟨.list, false, status⟩ w.names w.panel d)
      rw [hlookup]
      simp [Reply.tells, Request.asks, lists]
    | status names =>
      refine (lookup_statuses w ⟨.status names, false, status⟩ names d).trans ?_
      simp [Reply.tells, Request.asks, lists]
    | post name on =>
      refine (lookup_statuses w ⟨.post name on, false, status⟩ [name] d).trans ?_
      have hname : d ∈ [name] ↔ (name == d) = true := by
        rw [List.mem_singleton, beq_iff_eq, eq_comm]
      simp only [hname]
      simp [Reply.tells, Request.asks, lists]

theorem lookup_receive_other (w : World) {r : Reply} {d : String} (h : r.tells w.names d = false) :
    (w.receive r).devices.lookup d = w.panel.devices.lookup d := by
  rw [lookup_receive, h]
  rfl

theorem lookup_receive_told (w : World) {r : Reply} {d : String} (h : r.tells w.names d = true)
    {b : Bool} (hb : (w.receive r).devices.lookup d = some b) : b = (r.status d == "on") := by
  rw [lookup_receive, h] at hb
  split_ifs at hb with hmade
  · exact (Option.some.inj hb).symm
  · have hnone : w.panel.devices.lookup d = none :=
      AList.lookup_eq_none.mpr fun hknown => hmade ⟨rfl, Or.inl hknown⟩
    rw [hnone] at hb
    cases hb

/-! ### Runs -/

def Shows (w : World) (d : String) : Prop :=
  ∀ b, w.panel.devices.lookup d = some b → b = (w.status d == "on")

def tellings (w : World) (d : String) : List Reply := w.replies.filter (·.tells w.names d)

/-- Nothing about the device is left to carry out, and what the last reply on its way says,
or else the switch, is right. -/
def Answered (w : World) (d : String) : Prop :=
  (∀ c ∈ w.pending, c.request.asks w.names d = false) ∧
    (∀ r ∈ (w.tellings d).getLast?, r.status d = w.status d) ∧ (w.tellings d = [] → w.Shows d)

def Inv (w : World) (d : String) : Prop :=
  d ∈ w.names ∧ ((∃ c ∈ w.pending, c.request.asks w.names d = true ∧ c.mine = true) ∨ w.Answered d)

/-- As far as the device is concerned, Moonraker refuses nothing, carries out what an older
connection asked before the rest, its replies arrive in the order they were made, and nobody
else turns the device. -/
def Orderly (d : String) (w : World) : Event → Prop
  | .serve i outcome =>
    ∀ call ∈ w.pending[i]?, call.request.asks w.names d = true → outcome.isSome = true ∧
      (call.mine = true → ∀ c ∈ w.pending, c.request.asks w.names d = true → c.mine = true)
  | .deliver i =>
    ∀ r ∈ w.replies[i]?, r.tells w.names d = true → ∀ q ∈ w.replies.take i,
      q.tells w.names d = false
  | .outside name _ => name ≠ d
  | _ => True

theorem filter_eraseIdx_of_neg {α : Type} {p : α → Bool} {l : List α} {i : ℕ} {x : α}
    (hx : l[i]? = some x) (hp : p x = false) : (l.eraseIdx i).filter p = l.filter p := by
  induction l generalizing i with
  | nil => rfl
  | cons a l ih =>
    cases i with
    | zero =>
      rw [List.getElem?_cons_zero] at hx
      cases hx
      simp [hp]
    | succ i =>
      rw [List.getElem?_cons_succ] at hx
      rw [List.eraseIdx_cons_succ, List.filter_cons, List.filter_cons, ih hx]

theorem filter_eraseIdx_first {α : Type} {p : α → Bool} {l : List α} {i : ℕ} {x : α}
    (hx : l[i]? = some x) (hp : p x = true) (hfirst : ∀ y ∈ l.take i, p y = false) :
    l.filter p = x :: (l.eraseIdx i).filter p := by
  induction l generalizing i with
  | nil => cases hx
  | cons a l ih =>
    cases i with
    | zero =>
      rw [List.getElem?_cons_zero] at hx
      cases hx
      simp [hp]
    | succ i =>
      rw [List.getElem?_cons_succ] at hx
      have ha : p a = false := hfirst a (by simp)
      have hrest : ∀ y ∈ l.take i, p y = false := fun y hy => hfirst y (by simp [hy])
      rw [List.eraseIdx_cons_succ, List.filter_cons, List.filter_cons, ih hx hrest]
      simp [ha]

-- A reply that arrives in its turn.
theorem answered_deliver {w : World} {d : String} (h : w.Answered d) {i : ℕ}
    (hi : w.Orderly d (.deliver i)) : (w.deliver i).Answered d := by
  unfold deliver
  cases hr : w.replies[i]? with
  | none => exact h
  | some r =>
    refine ⟨h.1, ?_⟩
    cases htells : r.tells w.names d with
    | false =>
      have hsame : (w.replies.eraseIdx i).filter (·.tells w.names d) = w.tellings d :=
        filter_eraseIdx_of_neg hr htells
      have hlast := h.2.1
      refine ⟨by simpa only [tellings, hsame] using hlast, ?_⟩
      intro hnone b hb
      have hempty : w.tellings d = [] := hsame.symm.trans hnone
      have hold : w.panel.devices.lookup d = some b := (lookup_receive_other w htells).symm.trans hb
      exact h.2.2 hempty b hold
    | true =>
      have hcons : w.tellings d = r :: (w.replies.eraseIdx i).filter (·.tells w.names d) :=
        filter_eraseIdx_first hr htells (hi r hr htells)
      cases hrest : (w.replies.eraseIdx i).filter (·.tells w.names d) with
      | nil =>
        have hstatus : r.status d = w.status d := h.2.1 r (by rw [hcons, hrest]; rfl)
        refine ⟨by simp [tellings, hrest], ?_⟩
        intro _ b hb
        rw [lookup_receive_told w htells hb, hstatus]
      | cons q rest =>
        have hlast := h.2.1
        rw [hcons, hrest, List.getLast?_cons_cons] at hlast
        refine ⟨by simpa only [tellings, hrest] using hlast, ?_⟩
        intro hnone
        simp only [tellings, hrest] at hnone
        cases hnone

theorem carryOut_other {w : World} {d : String} {request : Request}
    (h : request.asks w.names d = false) (outcome : String) :
    w.carryOut outcome request d = w.status d := by
  cases request with
  | post name on =>
    have hne : d ≠ name := by
      rintro rfl
      simp [Request.asks] at h
    exact Function.update_of_ne hne _ _
  | _ => rfl

theorem mem_of_mem_eraseIdx_or {α : Type} {l : List α} {i : ℕ} {x y : α} (hx : l[i]? = some x)
    (hy : y ∈ l) : y = x ∨ y ∈ l.eraseIdx i := by
  induction l generalizing i with
  | nil => cases hy
  | cons a l ih =>
    cases i with
    | zero =>
      rw [List.getElem?_cons_zero] at hx
      cases hx
      simpa using hy
    | succ i =>
      rw [List.getElem?_cons_succ] at hx
      rw [List.eraseIdx_cons_succ]
      rcases List.mem_cons.mp hy with rfl | hy
      · exact Or.inr (List.mem_cons_self ..)
      · exact (ih hx hy).imp_right (List.mem_cons_of_mem _)

-- What says nothing about the device changes nothing about it.
theorem answered_serve_other {w : World} {d : String} (h : w.Answered d) {i : ℕ}
    (outcome : Option String) : (w.serve i outcome).Answered d := by
  unfold serve
  cases hcall : w.pending[i]? with
  | none => exact h
  | some call =>
    have hasks : call.request.asks w.names d = false := h.1 call (List.mem_of_getElem? hcall)
    have hstatus : (outcome.elim w.status fun s => w.carryOut s call.request) d = w.status d := by
      cases outcome with
      | none => rfl
      | some s => exact carryOut_other hasks s
    have htellings : (if call.mine then w.replies ++ [⟨call.request, outcome.isNone,
        outcome.elim w.status fun s => w.carryOut s call.request⟩] else w.replies).filter
        (·.tells w.names d) = w.tellings d := by
      split_ifs
      · simp [tellings, Reply.tells, hasks]
      · rfl
    refine ⟨fun c hc => h.1 c (List.mem_of_mem_eraseIdx hc), ?_, ?_⟩
    · intro r hr
      have hlast := h.2.1 r (by simpa only [tellings, htellings] using hr)
      exact hlast.trans hstatus.symm
    · intro hnone b hb
      have hshows := h.2.2 (htellings.symm.trans hnone) b hb
      rw [hshows]
      exact congrArg (· == "on") hstatus.symm

theorem inv_serve {w : World} {d : String} (h : w.Inv d) {i : ℕ} {outcome : Option String}
    (hi : w.Orderly d (.serve i outcome)) : (w.serve i outcome).Inv d := by
  obtain ⟨hd, ⟨c, hc, hasks, hmine⟩ | hanswered⟩ := h
  · unfold serve
    cases hcall : w.pending[i]? with
    | none => exact ⟨hd, Or.inl ⟨c, hc, hasks, hmine⟩⟩
    | some call =>
      refine ⟨hd, ?_⟩
      by_cases hleft : ∃ c' ∈ w.pending.eraseIdx i, c'.request.asks w.names d = true ∧
        c'.mine = true
      · exact Or.inl hleft
      -- The call that is carried out was the last that asks, so its reply is the last.
      · have hself : c = call := by
          rcases mem_of_mem_eraseIdx_or hcall hc with heq | hrest
          · exact heq
          · exact absurd ⟨c, hrest, hasks, hmine⟩ hleft
        subst hself
        obtain ⟨hsome, hmines⟩ := hi c hcall hasks
        obtain ⟨s, rfl⟩ := Option.isSome_iff_exists.mp hsome
        refine Or.inr ⟨?_, ?_, ?_⟩
        · intro c' hc'
          cases hasks' : c'.request.asks w.names d with
          | false => rfl
          | true =>
            have hmine' := hmines hmine c' (List.mem_of_mem_eraseIdx hc') hasks'
            exact absurd ⟨c', hc', hasks', hmine'⟩ hleft
        · simp [tellings, hmine, Reply.tells, hasks]
        · simp [tellings, hmine, Reply.tells, hasks]
  · refine ⟨?_, Or.inr (answered_serve_other hanswered outcome)⟩
    unfold serve
    cases w.pending[i]? <;> exact hd

theorem inv_ask {w w' : World} {d : String} {c : Call} (h : w.Inv d) (hmine : c.mine = true)
    (hnames : w'.names = w.names) (hpending : w'.pending = w.pending ++ [c])
    (hreplies : w'.replies = w.replies) (hstatus : w'.status = w.status)
    (hpanel : c.request.asks w.names d = false →
      w'.panel.devices.lookup d = w.panel.devices.lookup d) :
    w'.Inv d := by
  have hold : ∀ x ∈ w.pending, x ∈ w'.pending := by
    intro x hx
    rw [hpending]
    exact List.mem_append_left _ hx
  obtain ⟨hd, hcase⟩ := h
  refine ⟨by rw [hnames]; exact hd, ?_⟩
  rw [hnames]
  cases hasks : c.request.asks w.names d with
  | true => exact Or.inl ⟨c, by rw [hpending]; simp, hasks, hmine⟩
  | false =>
    rcases hcase with ⟨x, hx, hxd⟩ | ⟨hpend, hlast, hshows⟩
    · exact Or.inl ⟨x, hold x hx, hxd⟩
    · have htellings : w'.tellings d = w.tellings d := by
        unfold tellings
        rw [hreplies, hnames]
      refine Or.inr ⟨?_, ?_, ?_⟩
      · intro x hx
        rw [hpending] at hx
        rw [hnames]
        rcases List.mem_append.mp hx with hx | hx
        · exact hpend x hx
        · rw [List.mem_singleton.mp hx, hasks]
      · rw [htellings, hstatus]
        exact hlast
      · intro hnone b hb
        rw [hpanel hasks] at hb
        rw [hstatus]
        exact hshows (htellings.symm.trans hnone) b hb

theorem inv_connected (w : World) {d : String} (hd : d ∈ w.names) : w.connected.Inv d :=
  ⟨hd, Or.inl ⟨{ request := .list }, by simp [connected], by simp [Request.asks, connected, hd],
    rfl⟩⟩

theorem inv_klippyReady (w : World) {d : String} (hd : d ∈ w.names) : w.klippyReady.Inv d :=
  ⟨hd, Or.inl ⟨{ request := .list }, by simp [klippyReady],
    by simp [Request.asks, klippyReady, hd], rfl⟩⟩

theorem inv_lost {w : World} {d : String} (h : w.Inv d) (i : ℕ) : (w.lost i).Inv d := by
  unfold lost
  split
  · rename_i request hcall
    refine ⟨h.1, ?_⟩
    rcases h.2 with ⟨c, hc, hasks, hmine⟩ | hanswered
    · left
      rcases mem_of_mem_eraseIdx_or hcall hc with rfl | hrest
      · cases hmine
      · exact ⟨c, hrest, hasks, hmine⟩
    · right
      exact ⟨fun c hc => hanswered.1 c (List.mem_of_mem_eraseIdx hc), hanswered.2⟩
  · exact h

theorem inv_foreground (w : World) {d : String} (hd : d ∈ w.names) (hknown : d ∈ w.panel.devices) :
    w.foreground.Inv d := by
  refine ⟨hd, Or.inl ⟨{ request := .status w.panel.devices.keys }, by simp [foreground], ?_, rfl⟩⟩
  simpa [Request.asks] using AList.mem_keys.mp hknown

theorem inv_step {w : World} {d : String} (h : w.Inv d) (e : Event) (he : w.Orderly d e) :
    (w.step e).Inv d := by
  cases e with
  | tap name =>
    show (w.tap name).Inv d
    unfold tap
    cases hlookup : w.panel.devices.lookup name with
    | none => exact h
    | some checked =>
      refine inv_ask h (c := { request := .post name (!checked) }) rfl rfl rfl rfl rfl ?_
      intro hasks
      have hne : d ≠ name := by
        rintro rfl
        simp [Request.asks] at hasks
      exact AList.lookup_insert_ne hne
  | foreground =>
    exact inv_ask h (c := { request := .status w.panel.devices.keys }) rfl rfl rfl rfl rfl fun _ =>
      rfl
  | connected => exact inv_connected w h.1
  | klippyReady => exact inv_klippyReady w h.1
  | lost i => exact inv_lost h i
  | serve i outcome => exact inv_serve h he
  | deliver i =>
    obtain ⟨hd, hcase⟩ := h
    show (w.deliver i).Inv d
    refine ⟨by unfold deliver; cases w.replies[i]? <;> exact hd, ?_⟩
    rcases hcase with hpend | hanswered
    · left
      unfold deliver
      cases w.replies[i]? <;> exact hpend
    · exact Or.inr (answered_deliver hanswered he)
  | outside name status =>
    obtain ⟨hd, hcase⟩ := h
    have hsame : Function.update w.status name status d = w.status d :=
      Function.update_of_ne (Ne.symm he) _ _
    refine ⟨hd, hcase.imp_right ?_⟩
    rintro ⟨hpend, hlast, hshows⟩
    refine ⟨hpend, fun r hr => (hlast r hr).trans hsame.symm, ?_⟩
    intro hnone b hb
    exact (hshows hnone b hb).trans (congrArg (· == "on") hsame.symm)

/-- Nothing that was ever asked about the device waits for Moonraker or is on its way back. -/
def Quiet (w : World) (d : String) : Prop :=
  (∀ c ∈ w.pending, c.request.asks w.names d = false) ∧ ∀ r ∈ w.replies, r.tells w.names d = false

/-- Once the panel has been opened or the list of devices asked for, a switch shows what its
device is whenever all that was ever asked about the device is answered or lost. -/
theorem shown_when_answered (w : World) (d : String) (e : Event) (es : List Event)
    (hd : d ∈ w.names)
    (he : e = .connected ∨ e = .klippyReady ∨ e = .foreground ∧ d ∈ w.panel.devices)
    (h : Run.Along step (Orderly d) (w.step e) es) (hquiet : (Run.run step w (e :: es)).Quiet d) :
    (Run.run step w (e :: es)).Shows d := by
  have hstart : (w.step e).Inv d := by
    rcases he with rfl | rfl | ⟨rfl, hknown⟩
    · exact inv_connected w hd
    · exact inv_klippyReady w hd
    · exact inv_foreground w hd hknown
  rw [Run.run_cons] at hquiet ⊢
  obtain ⟨hpending, hreplies⟩ := hquiet
  have hinv := Run.invariant (I := fun w => w.Inv d)
    (fun w e hw ho => inv_step hw e ho) _ es hstart h
  obtain ⟨-, ⟨c, hc, hasks, -⟩ | ⟨-, -, hshows⟩⟩ := hinv
  · rw [hpending c hc] at hasks
    cases hasks
  · apply hshows
    unfold tellings
    rw [List.filter_eq_nil_iff]
    intro r hr
    rw [hreplies r hr]
    exact Bool.false_ne_true

def lamp : World :=
  { names := ["lamp", "printer"]
    status := fun name => if name = "printer" then "on" else "off" }

-- The lamp is turned on and off again before anything is answered.
def turned : List Event :=
  [.serve 0 (some ""), .deliver 0, .tap "lamp", .tap "lamp", .serve 0 (some "on"),
    .serve 0 (some "off"), .deliver 0, .deliver 0]

instance (d : String) (w : World) : (e : Event) → Decidable (Orderly d w e)
  | .serve i _ => inferInstanceAs (Decidable (∀ call ∈ w.pending[i]?, _ → _ ∧ (_ → ∀ c ∈ _, _ → _)))
  | .deliver i => inferInstanceAs (Decidable (∀ r ∈ w.replies[i]?, _ → ∀ q ∈ _, _))
  | .outside name _ => inferInstanceAs (Decidable (name ≠ d))
  | .tap _ | .foreground | .connected | .klippyReady | .lost _ => .isTrue trivial

theorem shown_turned : (Run.run step lamp (.connected :: turned)).Shows "lamp" :=
  shown_when_answered lamp "lamp" .connected turned (by decide) (Or.inl rfl) (by decide +kernel)
    (by unfold Quiet; decide +kernel)

-- Two replies that overtake one another leave the switch on and the lamp off.
example : (Run.run step lamp [.connected, .serve 0 (some ""), .deliver 0, .tap "lamp", .tap "lamp",
    .serve 0 (some "on"), .serve 0 (some "off"), .deliver 1,
      .deliver 0]).panel.devices.lookup "lamp" =
      some true := by
  decide +kernel

/-! ### A tap that is refused -/

/-- The device is not tapped, asked about or turned by somebody else, and Moonraker refuses
what is still asked about it. -/
def Refuses (d : String) (w : World) : Event → Prop
  | .tap name | .outside name _ => name ≠ d
  | .foreground | .connected | .klippyReady => False
  | .serve i outcome => ∀ call ∈ w.pending[i]?, call.request.asks w.names d = true → outcome = none
  | .deliver _ | .lost _ => True

structure Stale (w : World) (d : String) : Prop where
  untold : ∀ r ∈ w.replies, r.tells w.names d = false
  wrong : ∃ b, w.panel.devices.lookup d = some b ∧ b ≠ (w.status d == "on")

theorem stale_serve {w : World} {d : String} (h : w.Stale d) {i : ℕ} {outcome : Option String}
    (hrefuses : w.Refuses d (.serve i outcome)) : (w.serve i outcome).Stale d := by
  obtain ⟨hreplies, b, hb, hne⟩ := h
  unfold serve
  cases hcall : w.pending[i]? with
  | none => exact ⟨hreplies, b, hb, hne⟩
  | some call =>
    have hstatus : (outcome.elim w.status fun s => w.carryOut s call.request) d = w.status d := by
      cases outcome with
      | none => rfl
      | some s =>
        refine carryOut_other ?_ s
        cases hasks : call.request.asks w.names d with
        | false => rfl
        | true => cases hrefuses call hcall hasks
    refine ⟨?_, b, hb, ?_⟩
    · intro r hr
      dsimp only at hr
      split_ifs at hr
      · rcases List.mem_append.mp hr with hr | hr
        · exact hreplies r hr
        · rw [List.mem_singleton.mp hr]
          cases hasks : call.request.asks w.names d with
          | false => simp [Reply.tells, hasks]
          | true => simp [Reply.tells, hrefuses call hcall hasks]
      · exact hreplies r hr
    · intro heq
      exact hne (heq.trans (congrArg (· == "on") hstatus))

theorem stale_step {w : World} {d : String} (h : w.Stale d) (e : Event) (he : w.Refuses d e) :
    (w.step e).Stale d := by
  cases e with
  | serve i outcome => exact stale_serve h he
  | foreground => cases he
  | connected => cases he
  | klippyReady => cases he
  | lost i =>
    show (w.lost i).Stale d
    unfold lost
    split <;> exact ⟨h.untold, h.wrong⟩
  | tap name =>
    obtain ⟨hreplies, b, hb, hne⟩ := h
    show (w.tap name).Stale d
    unfold tap
    cases hlookup : w.panel.devices.lookup name with
    | none => exact ⟨hreplies, b, hb, hne⟩
    | some checked =>
      exact ⟨hreplies, b, (AList.lookup_insert_ne (Ne.symm he)).trans hb, hne⟩
  | deliver i =>
    obtain ⟨hreplies, b, hb, hne⟩ := h
    show (w.deliver i).Stale d
    unfold deliver
    cases hr : w.replies[i]? with
    | none => exact ⟨hreplies, b, hb, hne⟩
    | some r =>
      have htells := hreplies r (List.mem_of_getElem? hr)
      exact ⟨fun q hq => hreplies q (List.mem_of_mem_eraseIdx hq), b,
        (lookup_receive_other w htells).trans hb, hne⟩
  | outside name status =>
    obtain ⟨hreplies, b, hb, hne⟩ := h
    refine ⟨hreplies, b, hb, ?_⟩
    intro heq
    exact hne (heq.trans (congrArg (· == "on") (Function.update_of_ne (Ne.symm he) _ _)))

theorem stale_tap {w : World} {d : String} (hknown : d ∈ w.panel.devices) (hquiet : w.Quiet d)
    (hshows : w.Shows d) : (w.step (.tap d)).Stale d := by
  obtain ⟨b, hb⟩ := Option.isSome_iff_exists.mp (AList.lookup_isSome.mpr hknown)
  show (w.tap d).Stale d
  unfold tap
  rw [hb]
  refine ⟨hquiet.2, !b, AList.lookup_insert _, ?_⟩
  intro heq
  have hwas : b = (w.status d == "on") := hshows b hb
  exact Bool.not_ne_self b (heq.trans hwas.symm)

/-- A switch whose tap Moonraker refuses is wrong from the tap on, until it is asked about
again. -/
theorem refused_tap_stays (w : World) (d : String) (es : List Event) (hknown : d ∈ w.panel.devices)
    (hquiet : w.Quiet d) (hshows : w.Shows d)
    (h : Run.Along step (Refuses d) (w.step (.tap d)) es) :
    ¬ (Run.run step w (.tap d :: es)).Shows d := by
  have hend := Run.invariant (I := fun w : World => w.Stale d) (C := fun w e => Refuses d w e)
    (fun w e hw he => stale_step hw e he) _ es (stale_tap hknown hquiet hshows) h
  obtain ⟨-, c, hc, hne⟩ := hend
  intro hall
  exact hne (hall c hc)

-- The refusal comes after the printer was turned off.
theorem refused_lamp_stays :
    ¬ (Run.run step (Run.run step lamp [.connected, .serve 0 (some ""), .deliver 0])
      (.tap "lamp" :: [.tap "printer", .serve 1 (some "off"), .serve 0 none, .deliver 1])).Shows
      "lamp" :=
  refused_tap_stays _ "lamp" [.tap "printer", .serve 1 (some "off"), .serve 0 none, .deliver 1]
    (by decide +kernel) (by unfold Quiet; decide +kernel) (by unfold Shows; decide +kernel)
    ⟨by simp [Refuses], by simp [Refuses]; decide +kernel, by simp [Refuses], trivial, trivial⟩

end World

end GuppyScreen.PowerPanel
