import GuppyScreen.InitPanel
import GuppyScreen.WebSocketClient

/-!
# The requests of a connection in the client (init_panel.cpp, websocket_client.cpp)

Each request of the panel is filed in the client with its handler, and the panel moves
where the client makes a call: the reply to a request that was filed, the two calls for
a connection that comes and goes, and the notifications `State` takes in.
-/

namespace GuppyScreen.InitPanel
open Lib

/-- A request is its own callback, and `State` the only consumer. -/
abbrev Client : Type := WebSocketClient.Client Request Unit

abbrev Call : Type := WebSocketClient.Call Request Unit

/-- The client and the panel. -/
structure Wired where
  client : Client := .init
  world : World := {}

namespace Wired

def ask (c : Client) (r : Request) : Client :=
  match r.params with
  | .null => WebSocketClient.sendCallback c r.method (some r)
  | params => WebSocketClient.sendParamsCallback c r.method params (some r)

/-- The call the client makes with its next step. -/
def upcoming (c : Client) : Option Call :=
  if c.running then none else c.frame.head?

def eventOf (w : World) : Call → Option Event
  | .reply _ (.inl r) j => some (.reply (w.awaited.idxOf r) j)
  | .notify (.inr ()) j => some (.notification j)
  | .onConnected => some .connected
  | .onDisconnected => some .disconnected
  | _ => none

inductive Act where
  | push (ev : WebSocketClient.Event)
  | drain
  | next
  | throwing
  | registerState

section
variable (setup : Setup) (wild : ℚ → ℕ)

/-- A call of the client runs the panel's handler, and what that asks for is sent. -/
def handle (s : Wired) (e : Event) : Wired where
  client := ((step setup s.world e).sent.drop s.world.sent.length).foldl ask s.client
  world := step setup s.world e

def next (s : Wired) : Wired :=
  let entered : Wired := { s with client := WebSocketClient.next wild s.client }
  match (upcoming s.client).bind (eventOf s.world) with
  | none => entered
  | some e => entered.handle setup e

def step (s : Wired) : Act → Wired
  | .push ev => { s with client := WebSocketClient.push s.client ev }
  | .drain => { s with client := WebSocketClient.drain s.client }
  | .next => s.next setup wild
  | .throwing => { s with client := WebSocketClient.throwing s.client }
  | .registerState => { s with client := WebSocketClient.registerNotifyUpdate s.client () }

end

/-! ### What is sent and what is invoked -/

theorem ask_eq (c : Client) (r : Request) :
    ∃ params, ask c r = WebSocketClient.send c r.method params (.callback (some r)) := by
  unfold ask
  split
  · exact ⟨none, rfl⟩
  · exact ⟨_, rfl⟩

def handlers (c : Client) : List (Option (WebSocketClient.Handler Request Unit)) :=
  c.sent.map (·.registered.handler)

/-- The client has sent what the panel asked for, and has invoked the handlers of what
the panel holds for answered, with the same replies. -/
structure Agrees (s : Wired) : Prop where
  sent : handlers s.client = s.world.sent.map fun r => some (.inl r)
  answered : s.client.invoked.map (·.2) = s.world.answered.map fun a => (.inl a.1, a.2)

theorem foldl_ask (rs : List Request) (c : Client) :
    handlers (rs.foldl ask c) = handlers c ++ rs.map (fun r => some (.inl r)) ∧
      (rs.foldl ask c).invoked = c.invoked := by
  induction rs generalizing c with
  | nil => exact ⟨(List.append_nil _).symm, rfl⟩
  | cons r rs ih =>
    obtain ⟨params, hask⟩ := ask_eq c r
    obtain ⟨hsent, hinvoked⟩ := ih (ask c r)
    have hone : handlers (ask c r) = handlers c ++ [some (.inl r)] := by
      rw [hask]
      exact List.map_append
    rw [List.foldl_cons, hsent, hinvoked, hone, List.append_assoc]
    refine ⟨rfl, ?_⟩
    rw [hask]
    rfl

theorem inv_foldl_ask {wild : ℚ → ℕ} (rs : List Request) {c : Client}
    (h : WebSocketClient.Inv wild c) (hle : (rs.foldl ask c).sent.length ≤ 2 ^ 64) :
    WebSocketClient.Inv wild (rs.foldl ask c) := by
  induction rs generalizing c with
  | nil => exact h
  | cons r rs ih =>
    obtain ⟨params, hask⟩ := ask_eq c r
    have hgrown := congrArg List.length (foldl_ask rs (ask c r)).1
    have hone : (ask c r).sent.length = c.sent.length + 1 := by
      rw [hask]
      exact WebSocketClient.send_length ..
    simp only [handlers, List.length_append, List.length_map] at hgrown
    rw [List.foldl_cons] at hle
    refine ih ?_ hle
    rw [hask]
    exact h.send (by omega) ..

theorem invoked_next (wild : ℚ → ℕ) (c : Client) :
    (WebSocketClient.next wild c).invoked =
      c.invoked ++ WebSocketClient.replies (upcoming c).toList := by
  unfold WebSocketClient.next upcoming
  split_ifs with hr
  · exact (List.append_nil _).symm
  · cases hf : c.frame with
    | nil =>
      cases hb : c.batch with
      | nil => exact (List.append_nil _).symm
      | cons ev evs =>
        cases ev with
        | message j =>
          simp only [WebSocketClient.begin, WebSocketClient.dispatch]
          split
          · exact (List.append_nil _).symm
          · split <;> exact (List.append_nil _).symm
        | connected => exact (List.append_nil _).symm
        | disconnected => exact (List.append_nil _).symm
    | cons call rest =>
      cases call with
      | reply rid h j => rfl
      | methods j =>
        simp only [WebSocketClient.enter]
        split <;> exact (List.append_nil _).symm
      | notify h j => exact (List.append_nil _).symm
      | onConnected => exact (List.append_nil _).symm
      | onDisconnected => exact (List.append_nil _).symm

def invokes (r : Request) (t : ℕ × WebSocketClient.Handler Request Unit × Json) : Bool :=
  t.2.1 = Sum.inl r

def files (r : Request) (q : WebSocketClient.Request Request Unit) : Bool :=
  q.registered.handler = some (Sum.inl r)

theorem taken_of_upcoming {c : Client} {rid : ℕ}
    {hd : WebSocketClient.Handler Request Unit} {j : Json}
    (hup : upcoming c = some (.reply rid hd j)) :
    (c.invoked ++ [(rid, hd, j)]).Sublist (WebSocketClient.taken c) := by
  unfold upcoming at hup
  split_ifs at hup with hrun
  obtain ⟨rest, hframe⟩ := List.head?_eq_some_iff.mp hup
  rw [WebSocketClient.taken, WebSocketClient.waiting, if_neg hrun, hframe]
  exact (List.Sublist.refl _).append (List.singleton_sublist.mpr (List.mem_cons_self ..))

/-- A reply the client hands on is one that the panel waits for. -/
theorem awaited_of_upcoming {wild : ℚ → ℕ} {s : Wired} (h : WebSocketClient.Inv wild s.client)
    (ha : s.Agrees) (hw : Inv s.world) {rid : ℕ} {r : Request} {j : Json}
    (hup : upcoming s.client = some (.reply rid (.inl r) j)) : r ∈ s.world.awaited := by
  have htaken := taken_of_upcoming hup
  -- the requests of these replies are different ones, all filed with `r`
  have hle : (s.client.invoked ++ [(rid, Sum.inl r, j)]).countP (invokes r) ≤
      s.client.sent.countP (files r) := by
    have hsub : (((s.client.invoked ++ [(rid, Sum.inl r, j)]).filter (invokes r)).map
        Prod.fst).Subperm ((s.client.sent.filter (files r)).map WebSocketClient.Request.id) := by
      refine List.Nodup.subperm ?_ fun k hk => ?_
      · exact h.once.sublist ((List.filter_sublist.trans htaken).map _)
      · obtain ⟨t, ht, rfl⟩ := List.mem_map.mp hk
        obtain ⟨hmem, hown⟩ := List.mem_filter.mp ht
        obtain ⟨-, q, hq, hid, hreg⟩ := h.right t (htaken.subset hmem)
        refine List.mem_map.mpr ⟨q, List.mem_filter.mpr ⟨hq, ?_⟩, hid⟩
        have hhandler : t.2.1 = Sum.inl r := of_decide_eq_true hown
        exact decide_eq_true (hreg.trans (congrArg some hhandler))
    have hlen := hsub.length_le
    rwa [List.length_map, List.length_map, ← List.countP_eq_length_filter,
      ← List.countP_eq_length_filter] at hlen
  have hsent : s.client.sent.countP (files r) = s.world.sent.count r := by
    have hcount := congrArg (List.countP fun o => decide (o = some (Sum.inl r))) ha.sent
    rw [handlers, List.countP_map, List.countP_map] at hcount
    rw [List.count_eq_countP]
    refine hcount.trans (List.countP_congr fun q _ => ?_)
    simp
  have hanswered : s.client.invoked.countP (invokes r) = (s.world.answered.map (·.1)).count r := by
    have hcount := congrArg (List.countP fun a => decide (a.1 = Sum.inl r)) ha.answered
    rw [List.countP_map, List.countP_map] at hcount
    rw [List.count_eq_countP, List.countP_map]
    refine hcount.trans (List.countP_congr fun q _ => ?_)
    simp
  have hledger := hw.ledger.count_eq r
  rw [List.count_append] at hledger
  have hlast : [(rid, Sum.inl r, j)].countP (invokes r) = 1 := by simp [invokes]
  rw [List.countP_append, hlast] at hle
  exact List.count_pos_iff.mp (by omega)

/-- Nothing is filed with a consumer. -/
theorem no_consumer {wild : ℚ → ℕ} {s : Wired} (h : WebSocketClient.Inv wild s.client)
    (ha : s.Agrees) {rid : ℕ} {j : Json} : upcoming s.client ≠ some (.reply rid (.inr ()) j) := by
  intro hup
  obtain ⟨-, q, hq, -, hreg⟩ := h.right (rid, .inr (), j)
    ((taken_of_upcoming hup).subset (List.mem_append_right _ (List.mem_singleton_self _)))
  have hfiled : some (Sum.inr ()) ∈ handlers s.client := List.mem_map.mpr ⟨q, hq, hreg⟩
  rw [ha.sent] at hfiled
  obtain ⟨r, -, hr⟩ := List.mem_map.mp hfiled
  cases hr

/-! ### Runs -/

/-- The replies the panel takes in with an event. -/
def takenIn (w : World) : Event → List (Request × Json)
  | .reply i j => (w.awaited[i]?.map fun r => (r, j)).toList
  | _ => []

theorem step_books (setup : Setup) (w : World) (e : Event) :
    ∃ rs, (InitPanel.step setup w e).sent = w.sent ++ rs ∧
      (InitPanel.step setup w e).answered = w.answered ++ takenIn w e := by
  cases e with
  | connected =>
    have hsent : (InitPanel.step setup w .connected).sent =
        w.sent ++ ([.objectsList] ++ [.powerDevices]) := List.append_assoc ..
    exact ⟨_, hsent, (List.append_nil _).symm⟩
  | disconnected => exact ⟨[], (List.append_nil _).symm, (List.append_nil _).symm⟩
  | notification j => exact ⟨[], (List.append_nil _).symm, (List.append_nil _).symm⟩
  | reply i j =>
    cases hr : w.awaited[i]? with
    | none =>
      simp only [InitPanel.step, takenIn, hr]
      exact ⟨[], (List.append_nil _).symm, (List.append_nil _).symm⟩
    | some r =>
      obtain ⟨rs, hbooks, -⟩ := handle_books setup r j
        { w with
          awaited := w.awaited.eraseIdx i
          answered := w.answered ++ [(r, j)] }
      simp only [InitPanel.step, takenIn, hr]
      exact ⟨rs, hbooks.sent, hbooks.answered⟩

section
variable {setup : Setup} {wild : ℚ → ℕ}

/-- Client and panel go together, and the panel's state is one of its own runs. -/
structure Coupled (setup : Setup) (wild : ℚ → ℕ) (s : Wired) : Prop where
  agrees : s.Agrees
  client : WebSocketClient.Inv wild s.client
  world : Inv s.world
  ran : ∃ es, s.world = Run.run (InitPanel.step setup) {} es

/-- The client moves on by itself. -/
theorem Coupled.move {s : Wired} (h : Coupled setup wild s) {c : Client}
    (hc : WebSocketClient.Inv wild c)
    (hsent : c.sent = s.client.sent) (hinvoked : c.invoked = s.client.invoked) :
    Coupled setup wild { s with client := c } where
  agrees := by
    refine ⟨?_, ?_⟩
    · rw [handlers, hsent]
      exact h.agrees.sent
    · rw [hinvoked]
      exact h.agrees.answered
  client := hc
  world := h.world
  ran := h.ran

/-- The client makes a call that the panel has an event for. -/
theorem Coupled.handle {s : Wired} (h : Coupled setup wild s) {c : Client}
    (hc : WebSocketClient.Inv wild c)
    (hsent : c.sent = s.client.sent) {e : Event} (hinvoked : c.invoked.map (·.2) =
      s.client.invoked.map (·.2) ++ (takenIn s.world e).map fun a => (.inl a.1, a.2))
    (hle : (({ s with client := c } : Wired).handle setup e).client.sent.length ≤ 2 ^ 64) :
    Coupled setup wild (({ s with client := c } : Wired).handle setup e) := by
  obtain ⟨rs, hgrown, htaken⟩ := step_books setup s.world e
  have hdrop : (InitPanel.step setup s.world e).sent.drop s.world.sent.length = rs := by
    rw [hgrown, List.drop_left]
  obtain ⟨hhandlers, hkept⟩ := foldl_ask rs c
  refine ⟨⟨?_, ?_⟩, inv_foldl_ask _ hc hle, inv_step s.world e h.world, ?_⟩
  · show handlers (((InitPanel.step setup s.world e).sent.drop s.world.sent.length).foldl ask c) =
      (InitPanel.step setup s.world e).sent.map _
    rw [hdrop, hhandlers, hgrown, List.map_append, ← h.agrees.sent, handlers, handlers, hsent]
  · show (((InitPanel.step setup s.world e).sent.drop s.world.sent.length).foldl ask
      c).invoked.map (·.2) = (InitPanel.step setup s.world e).answered.map _
    rw [hdrop, hkept, hinvoked, h.agrees.answered, htaken, List.map_append]
  · obtain ⟨es, hes⟩ := h.ran
    refine ⟨es ++ [e], ?_⟩
    rw [Run.run_append, ← hes]
    rfl

theorem Coupled.next {s : Wired} (h : Coupled setup wild s)
    (hle : (s.next setup wild).client.sent.length ≤ 2 ^ 64) :
    Coupled setup wild (s.next setup wild) := by
  have hsent : (WebSocketClient.next wild s.client).sent = s.client.sent :=
    WebSocketClient.next_sent s.client
  have hinvoked := invoked_next wild s.client
  unfold Wired.next at hle ⊢
  cases hup : upcoming s.client with
  | none =>
    rw [hup] at hinvoked
    exact h.move h.client.next hsent (hinvoked.trans (List.append_nil _))
  | some call =>
    rw [hup] at hinvoked hle
    -- no other call is a reply
    have hother (hnone : WebSocketClient.replies [call] = []) :
        (WebSocketClient.next wild s.client).invoked = s.client.invoked := by
      rw [hinvoked, Option.toList_some, hnone, List.append_nil]
    have hevent {e : Event} (hnone : WebSocketClient.replies [call] = [])
        (hempty : takenIn s.world e = []) : (WebSocketClient.next wild s.client).invoked.map (·.2) =
          s.client.invoked.map (·.2) ++ (takenIn s.world e).map fun a => (.inl a.1, a.2) := by
      rw [hother hnone, hempty, List.map_nil, List.append_nil]
    cases call with
    | reply rid hd j =>
      cases hd with
      | inl r =>
        have hawaited : s.world.awaited[s.world.awaited.idxOf r]? = some r :=
          List.getElem?_idxOf (awaited_of_upcoming h.client h.agrees h.world hup)
        refine h.handle h.client.next hsent ?_ hle
        rw [hinvoked, List.map_append, takenIn, hawaited]
        rfl
      | inr co => exact absurd hup (no_consumer h.client h.agrees)
    | methods j => exact h.move h.client.next hsent (hother rfl)
    | notify hd j =>
      cases hd with
      | inl r => exact h.move h.client.next hsent (hother rfl)
      | inr co => exact h.handle h.client.next hsent (hevent rfl rfl) hle
    | onConnected => exact h.handle h.client.next hsent (hevent rfl rfl) hle
    | onDisconnected => exact h.handle h.client.next hsent (hevent rfl rfl) hle

/-- The acts of the client that neither send nor dispatch. -/
theorem aside_of_queue (c : Client) :
    (∀ ev, WebSocketClient.Aside c (WebSocketClient.push c ev)) ∧
      WebSocketClient.Aside c (WebSocketClient.drain c) ∧
      WebSocketClient.Aside c (WebSocketClient.registerNotifyUpdate c ()) := by
  refine ⟨fun ev => ?_, ?_, ?_⟩
  · unfold WebSocketClient.push
    dsimp only
    split_ifs <;> constructor <;> rfl
  · unfold WebSocketClient.drain
    split_ifs <;> constructor <;> rfl
  · unfold WebSocketClient.registerNotifyUpdate
    split_ifs <;> constructor <;> rfl

theorem throwing_kept (c : Client) :
    (WebSocketClient.throwing c).sent = c.sent ∧
      (WebSocketClient.throwing c).invoked = c.invoked := by
  unfold WebSocketClient.throwing
  split_ifs <;> exact ⟨rfl, rfl⟩

theorem sent_grows (s : Wired) (a : Act) :
    s.client.sent.length ≤ (s.step setup wild a).client.sent.length := by
  obtain ⟨hpush, hdrain, hregister⟩ := aside_of_queue s.client
  cases a with
  | push ev => exact (congrArg List.length (hpush ev).sent).ge
  | drain => exact (congrArg List.length hdrain.sent).ge
  | throwing => exact (congrArg List.length (throwing_kept s.client).1).ge
  | registerState => exact (congrArg List.length hregister.sent).ge
  | next =>
    have hsent : (WebSocketClient.next wild s.client).sent = s.client.sent :=
      WebSocketClient.next_sent s.client
    have hasked (rs : List Request) : s.client.sent.length ≤
        (rs.foldl ask (WebSocketClient.next wild s.client)).sent.length := by
      have hlen := congrArg List.length (foldl_ask rs (WebSocketClient.next wild s.client)).1
      simp only [handlers, hsent, List.length_append, List.length_map] at hlen
      omega
    show _ ≤ (s.next setup wild).client.sent.length
    unfold Wired.next
    cases (upcoming s.client).bind (eventOf s.world) with
    | none => exact (congrArg List.length hsent).ge
    | some e => exact hasked _

theorem coupled_step (s : Wired) (a : Act)
    (h : s.client.sent.length ≤ 2 ^ 64 → Coupled setup wild s)
    (hle : (s.step setup wild a).client.sent.length ≤ 2 ^ 64) :
    Coupled setup wild (s.step setup wild a) := by
  have hs := h ((sent_grows s a).trans hle)
  obtain ⟨hpush, hdrain, hregister⟩ := aside_of_queue s.client
  have haside {c : Client} (hc : WebSocketClient.Aside s.client c) :
      Coupled setup wild { s with client := c } :=
    hs.move (hs.client.aside hc) hc.sent hc.invoked
  cases a with
  | push ev => exact haside (hpush ev)
  | drain => exact haside hdrain
  | next => exact hs.next hle
  | throwing =>
    obtain ⟨hsent, hinvoked⟩ := throwing_kept s.client
    exact hs.move hs.client.throwing hsent hinvoked
  | registerState => exact haside hregister

/-- With at most `2 ^ 64` requests, in every run of the client the panel goes through a
run of its own. What it holds for sent and for answered is what the client has sent and
the handlers it has invoked. -/
theorem wired_run (acts : List Act)
    (hle : (Run.run (step setup wild) {} acts).client.sent.length ≤ 2 ^ 64) :
    (∃ es, (Run.run (step setup wild) {} acts).world = Run.run (InitPanel.step setup) {} es) ∧
      (Run.run (step setup wild) {} acts).Agrees := by
  have hworld : Inv (Run.run (InitPanel.step setup) {} []) := inv_run []
  have hstart : Coupled setup wild {} :=
    ⟨⟨rfl, rfl⟩, WebSocketClient.inv_init, hworld, [], rfl⟩
  have hend : Coupled setup wild (Run.run (step setup wild) {} acts) :=
    Run.invariant_always (I := fun s => s.client.sent.length ≤ 2 ^ 64 → Coupled setup wild s)
      (fun s a => coupled_step s a) {} acts (fun _ => hstart) hle
  exact ⟨hend.ran, hend.agrees⟩

end

end Wired

end GuppyScreen.InitPanel
