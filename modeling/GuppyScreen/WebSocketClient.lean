import GuppyScreen.Lib.Json
import GuppyScreen.Lib.Mailbox
import GuppyScreen.Lib.Run
import Mathlib.Data.List.Nodup
import Mathlib.Data.List.Range
import Mathlib.Data.Rat.Floor
import Mathlib.Logic.Function.Basic

/-!
# Requests, replies and the event queue (websocket_client.cpp)

libhv's thread pushes events; the LVGL thread drains them in batches. A message
is dispatched in small steps, because each handler it reaches may send requests
before it returns and may throw, which ends that event and no other
(`KGuard::event` in `drain`). `running` is set while the first call of `frame`
executes. `sent`, `invoked` and `log` are histories: every request that went out, with
what it registered, every reply handler invoked, with its message, and drain by drain
the events that were pushed and the events whose dispatch began.
-/

namespace GuppyScreen.WebSocketClient
open Lib

variable {Cb Co : Type}

inductive Event where
  | message (payload : Json)
  | connected
  | disconnected
  deriving DecidableEq

/-- What a send files under its id. A `std::function` may be empty and a
consumer pointer null. -/
inductive Registration (Cb Co : Type) where
  | callback (cb : Option Cb)
  | consumer (c : Option Co)
  | nothing

structure Request (Cb Co : Type) where
  id : ℕ
  method : String
  params : Option Json
  registered : Registration Cb Co

abbrev Handler (Cb Co : Type) := Cb ⊕ Co

/-- A call `dispatch` still has to make for the current event. -/
inductive Call (Cb Co : Type) where
  | reply (id : ℕ) (h : Handler Cb Co) (msg : Json)
  | methods (msg : Json)
  | notify (h : Handler Cb Co) (msg : Json)
  | onConnected
  | onDisconnected

structure Client (Cb Co : Type) where
  id : ℕ
  callbacks : ℕ → Option (Option Cb)
  consumers : ℕ → Option (Option Co)
  notifyConsumers : List Co
  methodRespCbs : String → Option (List (String × Cb))
  queue : List Event
  queueDropped : Bool
  opened : ℕ
  batch : List Event
  frame : List (Call Cb Co)
  running : Bool
  sent : List (Request Cb Co)
  invoked : List (ℕ × Handler Cb Co × Json)
  log : Mailbox.History Event

def Client.init : Client Cb Co :=
  ⟨0, fun _ => none, fun _ => none, [], fun _ => none, [], false, 0, [], [], false, [], [], {}⟩

/-! ### Sending -/

/-- `std::map::insert`: an entry that is already there stays. -/
def mapInsert {V : Type} (m : ℕ → Option V) (k : ℕ) (v : V) : ℕ → Option V :=
  if (m k).isSome then m else Function.update m k (some v)

def sendRpc (c : Client Cb Co) (method : String) (params : Option Json) (rpcId : ℕ)
    (reg : Registration Cb Co) : Client Cb Co :=
  { c with sent := c.sent ++ [⟨rpcId, method, params, reg⟩] }

/-- The common body of the `send_jsonrpc` overloads: one id from the 64 bit
counter, the registration under it, then the request. -/
def send (c : Client Cb Co) (method : String) (params : Option Json)
    (reg : Registration Cb Co) : Client Cb Co :=
  let rpcId := c.id
  let c := { c with id := (c.id + 1) % 2 ^ 64 }
  let c := match reg with
    | .callback cb => { c with callbacks := mapInsert c.callbacks rpcId cb }
    | .consumer co => { c with consumers := mapInsert c.consumers rpcId co }
    | .nothing => c
  sendRpc c method params rpcId reg

def sendParamsCallback (c : Client Cb Co) (method : String) (params : Json) (cb : Option Cb) :=
  send c method (some params) (.callback cb)
def sendCallback (c : Client Cb Co) (method : String) (cb : Option Cb) :=
  send c method none (.callback cb)
def sendParamsConsumer (c : Client Cb Co) (method : String) (params : Json) (co : Option Co) :=
  send c method (some params) (.consumer co)
def sendParams (c : Client Cb Co) (method : String) (params : Json) :=
  send c method (some params) .nothing
def sendMethod (c : Client Cb Co) (method : String) := send c method none .nothing

/-! ### The event queue -/

def queueMax : ℕ := 512

def push (c : Client Cb Co) (ev : Event) : Client Cb Co :=
  let c := { c with log := { c.log with pending := c.log.pending ++ [ev] } }
  if c.queue.length ≥ queueMax then
    { c with queue := c.queue.tail ++ [ev], queueDropped := true }
  else { c with queue := c.queue ++ [ev] }

/-- `drain` takes its batch; it is only called between batches. -/
def drain (c : Client Cb Co) : Client Cb Co :=
  if c.batch.isEmpty && c.frame.isEmpty && !c.running then
    { c with
      batch := c.queue
      queue := []
      queueDropped := false
      log := ⟨⟨c.log.pending, []⟩ :: c.log.rounds, []⟩ }
  else c

/-! ### Dispatch -/

section dispatch
variable (wild : ℚ → ℕ)

/-- `get<uint64_t>()`: integers wrap, a double in range is truncated, and a
double out of range gives `wild`, which the language leaves open. Everything
else throws. -/
def toUInt64 : Json → Option ℕ
  | .int n => some (n % 2 ^ 64).toNat
  | .float q => some (if -1 < q ∧ q < 2 ^ 64 then ⌊q⌋.toNat else wild q)
  | _ => none

def rpcId (j : Json) : Option ℕ := (j.get? "id").bind (toUInt64 wild)

def replyCalls (c : Client Cb Co) (rid : ℕ) (j : Json) : List (Call Cb Co) :=
  (match c.consumers rid with
    | some (some co) => [.reply rid (.inr co) j]
    | _ => []) ++
  (match c.callbacks rid with
    | some (some cb) => [.reply rid (.inl cb) j]
    | _ => [])

/-- The half of `dispatch` that looks at the id: the handlers are taken out of
their maps before any of them runs. -/
def dispatch (c : Client Cb Co) (j : Json) : Client Cb Co :=
  match j.get? "id" with
  | none => { c with frame := [.methods j] }
  | some v =>
    match toUInt64 wild v with
    | none => c
    | some rid =>
      { c with
        frame := replyCalls c rid j ++ [.methods j]
        consumers := Function.update c.consumers rid none
        callbacks := Function.update c.callbacks rid none }

/-- The handlers of a method, copied when the id half is done. `none` is the
throw of `get<std::string>()`. -/
def methodCalls (c : Client Cb Co) (j : Json) : Option (List (Call Cb Co)) :=
  match j.get? "method" with
  | none => some []
  | some (.str method) =>
    some ((if method = "notify_status_update"
        then c.notifyConsumers.map fun co => .notify (.inr co) j else []) ++
      (if method = "notify_klippy_disconnected" then [.onDisconnected]
        else if method = "notify_klippy_ready" then [.onConnected] else []) ++
      ((c.methodRespCbs method).getD []).map fun e => .notify (.inl e.2) j)
  | some _ => none

/-- The dispatch of one event of the batch begins. -/
def begin (c : Client Cb Co) (ev : Event) : Client Cb Co :=
  let c := { c with log := c.log.handle ev }
  match ev with
  | .connected => { c with opened := (c.opened + 1) % 2 ^ 32, frame := [.onConnected] }
  | .disconnected => { c with frame := [.onDisconnected] }
  | .message j => dispatch wild c j

def enter (c : Client Cb Co) (call : Call Cb Co) (rest : List (Call Cb Co)) : Client Cb Co :=
  match call with
  | .reply rid h j => { c with running := true, invoked := c.invoked ++ [(rid, h, j)] }
  | .methods j =>
    match methodCalls c j with
    | some calls => { c with frame := calls ++ rest }
    | none => { c with frame := [] }
  | _ => { c with running := true }

/-- The LVGL thread's next small step inside a drain. -/
def next (c : Client Cb Co) : Client Cb Co :=
  if c.running then { c with running := false, frame := c.frame.tail }
  else match c.frame with
    | call :: rest => enter c call rest
    | [] =>
      match c.batch with
      | [] => c
      | ev :: evs => begin wild { c with batch := evs } ev

def throwing (c : Client Cb Co) : Client Cb Co :=
  if c.running then { c with running := false, frame := [] } else c

def registerNotifyUpdate [DecidableEq Co] (c : Client Cb Co) (co : Co) : Client Cb Co :=
  if co ∈ c.notifyConsumers then c else { c with notifyConsumers := c.notifyConsumers ++ [co] }

def unregisterNotifyUpdate [DecidableEq Co] (c : Client Cb Co) (co : Co) : Client Cb Co :=
  { c with notifyConsumers := c.notifyConsumers.filter (· ≠ co) }

/-- A handler name that is taken keeps its first callback. -/
def registerMethodCallback (c : Client Cb Co) (method name : String) (cb : Cb) : Client Cb Co :=
  let old := (c.methodRespCbs method).getD []
  let handlers := (old ++ [(name, cb)]).mergeSort fun a b => a.1 ≤ b.1
  if old.any (·.1 = name) then c
  else { c with methodRespCbs := Function.update c.methodRespCbs method (some handlers) }

/-! ### Runs -/

inductive Act (Cb Co : Type) where
  | sendParamsCallback (method : String) (params : Json) (cb : Option Cb)
  | sendCallback (method : String) (cb : Option Cb)
  | sendParamsConsumer (method : String) (params : Json) (co : Option Co)
  | sendParams (method : String) (params : Json)
  | sendMethod (method : String)
  | registerNotify (co : Co)
  | unregisterNotify (co : Co)
  | registerMethod (method name : String) (cb : Cb)
  | push (ev : Event)
  | drain
  | next
  | throwing

def step [DecidableEq Co] (c : Client Cb Co) : Act Cb Co → Client Cb Co
  | .sendParamsCallback m p cb => sendParamsCallback c m p cb
  | .sendCallback m cb => sendCallback c m cb
  | .sendParamsConsumer m p co => sendParamsConsumer c m p co
  | .sendParams m p => sendParams c m p
  | .sendMethod m => sendMethod c m
  | .registerNotify co => registerNotifyUpdate c co
  | .unregisterNotify co => unregisterNotifyUpdate c co
  | .registerMethod m n cb => registerMethodCallback c m n cb
  | .push ev => push c ev
  | .drain => drain c
  | .next => next wild c
  | .throwing => throwing c

/-! ### Reply routing -/

def Registration.handler : Registration Cb Co → Option (Handler Cb Co)
  | .callback cb => cb.map Sum.inl
  | .consumer co => co.map Sum.inr
  | .nothing => none

def replies : List (Call Cb Co) → List (ℕ × Handler Cb Co × Json)
  | [] => []
  | .reply rid h j :: r => (rid, h, j) :: replies r
  | _ :: r => replies r

theorem replies_append (a b : List (Call Cb Co)) : replies (a ++ b) = replies a ++ replies b := by
  induction a with
  | nil => rfl
  | cons x a ih => cases x <;> simp [replies, ih]

def waiting (c : Client Cb Co) : List (Call Cb Co) := if c.running then c.frame.tail else c.frame

def taken (c : Client Cb Co) : List (ℕ × Handler Cb Co × Json) :=
  c.invoked ++ replies (waiting c)

structure Inv (c : Client Cb Co) : Prop where
  ids : c.sent.map (·.id) = List.range c.sent.length
  counter : c.id = c.sent.length % 2 ^ 64
  callback_sent : ∀ k cb, c.callbacks k = some cb →
    ∃ r ∈ c.sent, r.id = k ∧ r.registered = .callback cb
  consumer_sent : ∀ k co, c.consumers k = some co →
    ∃ r ∈ c.sent, r.id = k ∧ r.registered = .consumer co
  once : ((taken c).map (·.1)).Nodup
  gone : ∀ t ∈ taken c, c.callbacks t.1 = none ∧ c.consumers t.1 = none
  right : ∀ t ∈ taken c, rpcId wild t.2.2 = some t.1 ∧
    ∃ r ∈ c.sent, r.id = t.1 ∧ r.registered.handler = some t.2.1

variable {wild}

theorem Inv.id_lt {c : Client Cb Co} (h : Inv wild c) {r : Request Cb Co} (hr : r ∈ c.sent) :
    r.id < c.sent.length := by
  have hm : r.id ∈ c.sent.map (·.id) := List.mem_map_of_mem hr
  rw [h.ids] at hm
  exact List.mem_range.mp hm

theorem Inv.request_unique {c : Client Cb Co} (h : Inv wild c) {r q : Request Cb Co}
    (hr : r ∈ c.sent) (hq : q ∈ c.sent) (he : r.id = q.id) : r = q := by
  have hn : (c.sent.map (·.id)).Nodup := by
    rw [h.ids]
    exact List.nodup_range
  exact List.inj_on_of_nodup_map hn hr hq he

theorem Inv.apart {c : Client Cb Co} (h : Inv wild c) {k : ℕ} {cb : Option Cb}
    (hk : c.callbacks k = some cb) : c.consumers k = none := by
  cases hc : c.consumers k with
  | none => rfl
  | some co =>
    obtain ⟨r, hr, hrk, hreg⟩ := h.callback_sent k cb hk
    obtain ⟨q, hq, hqk, hqeg⟩ := h.consumer_sent k co hc
    have he := h.request_unique hr hq (hrk.trans hqk.symm)
    rw [he, hqeg] at hreg
    cases hreg

theorem Inv.replyCalls_cases {c : Client Cb Co} (h : Inv wild c) (rid : ℕ) (j : Json) :
    replyCalls c rid j = [] ∨ ∃ hd, replyCalls c rid j = [.reply rid hd j] ∧
      ∃ r ∈ c.sent, r.id = rid ∧ r.registered.handler = some hd := by
  unfold replyCalls
  cases hcb : c.callbacks rid with
  | none =>
    cases hco : c.consumers rid with
    | none => exact Or.inl rfl
    | some o =>
      obtain ⟨r, hr, hrid, hreg⟩ := h.consumer_sent rid o hco
      cases o with
      | none => exact Or.inl rfl
      | some co => exact Or.inr ⟨.inr co, rfl, r, hr, hrid, by rw [hreg]; rfl⟩
  | some o =>
    rw [h.apart hcb]
    obtain ⟨r, hr, hrid, hreg⟩ := h.callback_sent rid o hcb
    cases o with
    | none => exact Or.inl rfl
    | some cb => exact Or.inr ⟨.inl cb, rfl, r, hr, hrid, by rw [hreg]; rfl⟩

theorem Inv.of_maps {c d : Client Cb Co} (h : Inv wild c) (hid : d.id = c.id)
    (hsent : d.sent = c.sent) (hcb : d.callbacks = c.callbacks) (hco : d.consumers = c.consumers)
    (honce : ((taken d).map (·.1)).Nodup)
    (hgone : ∀ t ∈ taken d, c.callbacks t.1 = none ∧ c.consumers t.1 = none)
    (hright : ∀ t ∈ taken d, rpcId wild t.2.2 = some t.1 ∧
      ∃ r ∈ c.sent, r.id = t.1 ∧ r.registered.handler = some t.2.1) : Inv wild d where
  ids := by rw [hsent]; exact h.ids
  counter := by rw [hid, hsent]; exact h.counter
  callback_sent := by rw [hsent, hcb]; exact h.callback_sent
  consumer_sent := by rw [hsent, hco]; exact h.consumer_sent
  once := honce
  gone := by rw [hcb, hco]; exact hgone
  right := by rw [hsent]; exact hright

theorem Inv.of_taken {c d : Client Cb Co} (h : Inv wild c) (hid : d.id = c.id)
    (hsent : d.sent = c.sent) (hcb : d.callbacks = c.callbacks) (hco : d.consumers = c.consumers)
    (ht : (taken d).Sublist (taken c)) : Inv wild d := by
  apply h.of_maps hid hsent hcb hco
  · exact h.once.sublist (ht.map _)
  · intro t hm
    exact h.gone t (ht.subset hm)
  · intro t hm
    exact h.right t (ht.subset hm)

theorem mapInsert_fresh {V : Type} {m : ℕ → Option V} {k : ℕ} {v : V} (h : m k = none) :
    mapInsert m k v = Function.update m k (some v) := by
  simp [mapInsert, h]

theorem update_sent {V : Type} (tag : V → Registration Cb Co) (new : Request Cb Co)
    {m : ℕ → Option V} {n : ℕ} {v : V} {old : List (Request Cb Co)}
    (hm : ∀ k w, m k = some w → ∃ r ∈ old, r.id = k ∧ r.registered = tag w)
    (hid : new.id = n) (hreg : new.registered = tag v) :
    ∀ k w, Function.update m n (some v) k = some w →
      ∃ r ∈ old ++ [new], r.id = k ∧ r.registered = tag w := by
  intro k w hk
  by_cases hkn : k = n
  · subst hkn
    rw [Function.update_self] at hk
    cases hk
    exact ⟨new, by simp, hid, hreg⟩
  · rw [Function.update_of_ne hkn] at hk
    obtain ⟨r, hr, hrk⟩ := hm k w hk
    exact ⟨r, List.mem_append_left _ hr, hrk⟩

theorem widen_sent {old : List (Request Cb Co)} {new : Request Cb Co} {P : Request Cb Co → Prop}
    (h : ∃ r ∈ old, P r) : ∃ r ∈ old ++ [new], P r := by
  obtain ⟨r, hr, hp⟩ := h
  exact ⟨r, List.mem_append_left _ hr, hp⟩

theorem Inv.unused {c : Client Cb Co} (h : Inv wild c) :
    c.callbacks c.sent.length = none ∧ c.consumers c.sent.length = none := by
  constructor
  · cases hk : c.callbacks c.sent.length with
    | none => rfl
    | some cb =>
      obtain ⟨r, hr, hrk, _⟩ := h.callback_sent _ cb hk
      have hlt := h.id_lt hr
      omega
  · cases hk : c.consumers c.sent.length with
    | none => rfl
    | some co =>
      obtain ⟨r, hr, hrk, _⟩ := h.consumer_sent _ co hk
      have hlt := h.id_lt hr
      omega

theorem Inv.send {c : Client Cb Co} (h : Inv wild c) (hlt : c.sent.length < 2 ^ 64)
    (m : String) (p : Option Json) (reg : Registration Cb Co) :
    Inv wild (WebSocketClient.send c m p reg) := by
  have hidn : c.id = c.sent.length := by rw [h.counter]; exact Nat.mod_eq_of_lt hlt
  obtain ⟨hcbn, hcon⟩ := h.unused
  have htne : ∀ t ∈ taken c, t.1 ≠ c.sent.length := by
    intro t ht
    obtain ⟨_, r, hr, hrk, _⟩ := h.right t ht
    have := h.id_lt hr
    omega
  have hids : ∀ new : Request Cb Co, new.id = c.sent.length →
      (c.sent ++ [new]).map (·.id) = List.range (c.sent ++ [new]).length := by
    intro new hn
    rw [List.map_append, h.ids, List.length_append, List.length_singleton, List.range_succ]
    simp [hn]
  have hcounter : ∀ new : Request Cb Co,
      (c.sent.length + 1) % 2 ^ 64 = (c.sent ++ [new]).length % 2 ^ 64 := by
    intro new
    simp
  have hgone : ∀ t ∈ taken c, c.callbacks t.1 = none ∧ c.consumers t.1 = none := h.gone
  cases reg with
  | callback cb =>
    simp only [WebSocketClient.send, sendRpc, hidn, mapInsert_fresh hcbn]
    refine ⟨hids _ rfl, hcounter _, ?_, ?_, h.once, ?_, fun t ht => ⟨(h.right t ht).1, ?_⟩⟩
    · exact update_sent .callback ⟨_, m, p, .callback cb⟩ h.callback_sent rfl rfl
    · exact fun k co hk => widen_sent (h.consumer_sent k co hk)
    · intro t ht
      show Function.update c.callbacks _ _ t.1 = none ∧ _
      rw [Function.update_of_ne (htne t ht)]
      exact hgone t ht
    · exact widen_sent (h.right t ht).2
  | consumer co =>
    simp only [WebSocketClient.send, sendRpc, hidn, mapInsert_fresh hcon]
    refine ⟨hids _ rfl, hcounter _, ?_, ?_, h.once, ?_, fun t ht => ⟨(h.right t ht).1, ?_⟩⟩
    · exact fun k cb hk => widen_sent (h.callback_sent k cb hk)
    · exact update_sent .consumer ⟨_, m, p, .consumer co⟩ h.consumer_sent rfl rfl
    · intro t ht
      show _ ∧ Function.update c.consumers _ _ t.1 = none
      rw [Function.update_of_ne (htne t ht)]
      exact hgone t ht
    · exact widen_sent (h.right t ht).2
  | nothing =>
    simp only [WebSocketClient.send, sendRpc, hidn]
    refine ⟨hids _ rfl, hcounter _, ?_, ?_, h.once, hgone, fun t ht => ⟨(h.right t ht).1, ?_⟩⟩
    · exact fun k cb hk => widen_sent (h.callback_sent k cb hk)
    · exact fun k co hk => widen_sent (h.consumer_sent k co hk)
    · exact widen_sent (h.right t ht).2

theorem replies_methodCalls {c : Client Cb Co} {j : Json} {calls : List (Call Cb Co)}
    (h : methodCalls c j = some calls) : replies calls = [] := by
  have hnotify : ∀ {A : Type} (f : A → Handler Cb Co) (l : List A),
      replies (l.map fun a => Call.notify (f a) j) = [] := by
    intro A f l
    induction l with
    | nil => rfl
    | cons a l ih => exact ih
  unfold methodCalls at h
  split at h
  · cases h
    rfl
  · cases h
    rw [replies_append, replies_append, hnotify fun e : String × Cb => .inl e.2]
    split_ifs <;> simp [replies, hnotify]
  · cases h

theorem erased_some {V : Type} {m : ℕ → Option V} {rid k : ℕ} {v : V}
    (h : Function.update m rid none k = some v) : m k = some v := by
  by_cases hk : k = rid
  · subst hk
    simp at h
  · rwa [Function.update_of_ne hk] at h

theorem erased_none {V : Type} {m : ℕ → Option V} {k : ℕ} (rid : ℕ) (h : m k = none) :
    Function.update m rid none k = none := by
  cases hk : Function.update m rid none k with
  | none => rfl
  | some v =>
    rw [erased_some hk] at h
    cases h

theorem Inv.erase {c : Client Cb Co} (h : Inv wild c) (rid : ℕ) :
    Inv wild { c with
      consumers := Function.update c.consumers rid none
      callbacks := Function.update c.callbacks rid none } := by
  refine ⟨h.ids, h.counter, ?_, ?_, h.once, ?_, h.right⟩
  · intro k cb hk
    exact h.callback_sent k cb (erased_some hk)
  · intro k co hk
    exact h.consumer_sent k co (erased_some hk)
  · intro t ht
    obtain ⟨hcb, hco⟩ := h.gone t ht
    exact ⟨erased_none rid hcb, erased_none rid hco⟩

theorem Inv.take {c d : Client Cb Co} (h : Inv wild c) (hid : d.id = c.id)
    (hsent : d.sent = c.sent) (hcb : d.callbacks = c.callbacks) (hco : d.consumers = c.consumers)
    {t : ℕ × Handler Cb Co × Json} (ht : taken d = taken c ++ [t])
    (hfresh : t.1 ∉ (taken c).map (·.1)) (hgone : c.callbacks t.1 = none ∧ c.consumers t.1 = none)
    (hright : rpcId wild t.2.2 = some t.1 ∧
      ∃ r ∈ c.sent, r.id = t.1 ∧ r.registered.handler = some t.2.1) : Inv wild d := by
  have hmem : ∀ u ∈ taken d, u ∈ taken c ∨ u = t := by
    intro u hu
    rw [ht] at hu
    simpa using hu
  apply h.of_maps hid hsent hcb hco
  · rw [ht, List.map_append]
    refine List.Nodup.append h.once (List.nodup_singleton _) ?_
    intro k hk hkt
    rw [List.mem_singleton.mp hkt] at hk
    exact hfresh hk
  · intro u hu
    rcases hmem u hu with hu | rfl
    · exact h.gone u hu
    · exact hgone
  · intro u hu
    rcases hmem u hu with hu | rfl
    · exact h.right u hu
    · exact hright

theorem Inv.dispatch {c : Client Cb Co} (h : Inv wild c) (hf : c.frame = [])
    (hr : c.running = false)
    (j : Json) : Inv wild (WebSocketClient.dispatch wild c j) := by
  unfold WebSocketClient.dispatch
  split
  · exact h.of_taken rfl rfl rfl rfl (by simp [taken, waiting, hr, hf, replies])
  · rename_i v hv
    split
    · exact h
    · rename_i rid hrid
      have hj : rpcId wild j = some rid := by simp [rpcId, hv, hrid]
      have herased := h.erase rid
      rcases h.replyCalls_cases rid j with hnil | ⟨hd, hone, hreg⟩
      · exact herased.of_taken rfl rfl rfl rfl (by simp [taken, waiting, hr, hf, hnil, replies])
      · -- The registration found under `rid` leaves the maps as it enters the frame.
        have hfresh : rid ∉ (taken c).map (·.1) := by
          intro hm
          obtain ⟨t, htm, hte⟩ := List.mem_map.mp hm
          have hg := h.gone t htm
          rw [hte] at hg
          simp [replyCalls, hg.1, hg.2] at hone
        refine herased.take rfl rfl rfl rfl (t := (rid, hd, j)) ?_ hfresh ?_ ⟨hj, hreg⟩
        · simp [taken, waiting, hr, hf, hone, replies]
        · exact ⟨Function.update_self .., Function.update_self ..⟩

theorem Inv.enter {c : Client Cb Co} (h : Inv wild c) (hr : c.running = false)
    {call : Call Cb Co} {rest : List (Call Cb Co)} (hf : c.frame = call :: rest) :
    Inv wild (WebSocketClient.enter c call rest) := by
  cases call with
  | reply rid hd j =>
    exact h.of_taken rfl rfl rfl rfl (by simp [taken, waiting, hr, hf, replies,
      WebSocketClient.enter])
  | methods j =>
    unfold WebSocketClient.enter
    dsimp only
    split
    · rename_i calls hcalls
      refine h.of_taken rfl rfl rfl rfl ?_
      simp [taken, waiting, hr, hf, replies, replies_append, replies_methodCalls hcalls]
    · exact h.of_taken rfl rfl rfl rfl (by simp [taken, waiting, hr, replies])
  | notify hd j =>
    exact h.of_taken rfl rfl rfl rfl (by simp [taken, waiting, hr, hf, replies,
      WebSocketClient.enter])
  | onConnected =>
    exact h.of_taken rfl rfl rfl rfl (by simp [taken, waiting, hr, hf, replies,
      WebSocketClient.enter])
  | onDisconnected =>
    exact h.of_taken rfl rfl rfl rfl (by simp [taken, waiting, hr, hf, replies,
      WebSocketClient.enter])

theorem Inv.next {c : Client Cb Co} (h : Inv wild c) : Inv wild (WebSocketClient.next wild c) := by
  unfold WebSocketClient.next
  split
  · rename_i hr
    exact h.of_taken rfl rfl rfl rfl (by simp [taken, waiting, hr])
  · rename_i hr
    have hr : c.running = false := by simpa using hr
    split
    · rename_i call rest hf
      exact h.enter hr hf
    · rename_i hf
      split
      · exact h
      · rename_i ev evs hb
        have hb' : Inv wild { c with batch := evs, log := c.log.handle ev } :=
          h.of_taken rfl rfl rfl rfl (List.Sublist.refl _)
        cases ev with
        | message j => exact hb'.dispatch hf hr j
        | connected =>
          exact h.of_taken rfl rfl rfl rfl (by simp [taken, waiting, hr, replies, begin])
        | disconnected =>
          exact h.of_taken rfl rfl rfl rfl (by simp [taken, waiting, hr, replies, begin])

theorem Inv.throwing {c : Client Cb Co} (h : Inv wild c) :
    Inv wild (WebSocketClient.throwing c) := by
  unfold WebSocketClient.throwing
  split
  · exact h.of_taken rfl rfl rfl rfl (by simp [taken, waiting, replies])
  · exact h

theorem send_length (c : Client Cb Co) (m : String) (p : Option Json) (reg : Registration Cb Co) :
    (send c m p reg).sent.length = c.sent.length + 1 := by
  cases reg <;> simp [send, sendRpc]

theorem next_sent (c : Client Cb Co) : (next wild c).sent = c.sent := by
  unfold next enter begin dispatch
  repeat' split
  all_goals rfl

/-- What a step that neither sends nor dispatches leaves alone. -/
structure Aside (c d : Client Cb Co) : Prop where
  id : d.id = c.id
  sent : d.sent = c.sent
  callbacks : d.callbacks = c.callbacks
  consumers : d.consumers = c.consumers
  frame : d.frame = c.frame
  running : d.running = c.running
  invoked : d.invoked = c.invoked

theorem step_cases [DecidableEq Co] (wild : ℚ → ℕ) (c : Client Cb Co) (a : Act Cb Co) :
    (∃ m p reg, step wild c a = send c m p reg) ∨ a = .next ∨ a = .throwing ∨
      Aside c (step wild c a) := by
  cases a with
  | sendParamsCallback m p cb => exact .inl ⟨m, some p, .callback cb, rfl⟩
  | sendCallback m cb => exact .inl ⟨m, none, .callback cb, rfl⟩
  | sendParamsConsumer m p co => exact .inl ⟨m, some p, .consumer co, rfl⟩
  | sendParams m p => exact .inl ⟨m, some p, .nothing, rfl⟩
  | sendMethod m => exact .inl ⟨m, none, .nothing, rfl⟩
  | next => exact .inr (.inl rfl)
  | throwing => exact .inr (.inr (.inl rfl))
  | registerNotify co =>
    right; right; right
    simp only [step, registerNotifyUpdate]
    split_ifs <;> constructor <;> rfl
  | unregisterNotify co =>
    right; right; right
    constructor <;> rfl
  | registerMethod m n cb =>
    right; right; right
    simp only [step, registerMethodCallback]
    split_ifs <;> constructor <;> rfl
  | push ev =>
    right; right; right
    simp only [step, push]
    split_ifs <;> constructor <;> rfl
  | drain =>
    right; right; right
    simp only [step, drain]
    split_ifs <;> constructor <;> rfl

theorem Inv.aside {c d : Client Cb Co} (h : Inv wild c) (hd : Aside c d) : Inv wild d := by
  have htaken : taken d = taken c := by
    rw [taken, waiting, hd.invoked, hd.running, hd.frame]
    rfl
  exact h.of_taken hd.id hd.sent hd.callbacks hd.consumers (htaken ▸ List.Sublist.refl _)

/-- A step sends at most one request, and only while the counter has not come
round does the invariant need to hold after it. -/
theorem inv_step [DecidableEq Co] (c : Client Cb Co) (a : Act Cb Co)
    (h : c.sent.length ≤ 2 ^ 64 → Inv wild c) :
    (step wild c a).sent.length ≤ 2 ^ 64 → Inv wild (step wild c a) := by
  intro hle
  rcases step_cases wild c a with ⟨m, p, reg, hsend⟩ | hnext | hthrow | haside
  · rw [hsend] at hle ⊢
    rw [send_length] at hle
    exact (h (by omega)).send (by omega) m p reg
  · subst hnext
    have hs : (step wild c .next).sent = c.sent := next_sent c
    rw [hs] at hle
    exact (h hle).next
  · subst hthrow
    have hs : (step wild c .throwing).sent = c.sent := by
      simp only [step, throwing]
      split_ifs <;> rfl
    rw [hs] at hle
    exact (h hle).throwing
  · rw [haside.sent] at hle
    exact (h hle).aside haside

theorem inv_init : Inv wild (Client.init : Client Cb Co) := by
  refine ⟨rfl, rfl, ?_, ?_, List.nodup_nil, ?_, ?_⟩
  · intro k cb hk
    cases hk
  · intro k co hk
    cases hk
  · intro t ht
    cases ht
  · intro t ht
    cases ht

/-! ### Messages nobody waits for -/

-- Between two events of a batch, or between two batches.
def idle (c : Client Cb Co) : Prop := c.frame = [] ∧ c.running = false

/-- The id of `j` cannot be converted, is absent, or is in neither map. -/
def Stray (wild : ℚ → ℕ) (c : Client Cb Co) (j : Json) : Prop :=
  ∀ rid, rpcId wild j = some rid → c.callbacks rid = none ∧ c.consumers rid = none

/-- Everything registered in `c` is still registered in `d`, and no reply handler
has been invoked in between. -/
structure Untouched (c d : Client Cb Co) : Prop where
  invoked : d.invoked = c.invoked
  callbacks : ∀ k cb, c.callbacks k = some cb → d.callbacks k = some cb
  consumers : ∀ k co, c.consumers k = some co → d.consumers k = some co

theorem Untouched.trans {c d e : Client Cb Co} (h : Untouched c d) (k : Untouched d e) :
    Untouched c e :=
  ⟨k.invoked.trans h.invoked, fun i cb hi => k.callbacks i cb (h.callbacks i cb hi),
    fun i co hi => k.consumers i co (h.consumers i co hi)⟩

theorem Untouched.of_eq {c d : Client Cb Co} (hi : d.invoked = c.invoked)
    (hcb : d.callbacks = c.callbacks) (hco : d.consumers = c.consumers) : Untouched c d :=
  ⟨hi, fun k cb hk => by rw [hcb]; exact hk, fun k co hk => by rw [hco]; exact hk⟩

theorem mapInsert_keeps {V : Type} {m : ℕ → Option V} (k : ℕ) (v : V) {i : ℕ} {w : V}
    (h : m i = some w) : mapInsert m k v i = some w := by
  unfold mapInsert
  split_ifs with hk
  · exact h
  · have hne : i ≠ k := by
      intro he
      rw [he] at h
      simp [h] at hk
    rw [Function.update_of_ne hne]
    exact h

theorem untouched_send (c : Client Cb Co) (m : String) (p : Option Json)
    (reg : Registration Cb Co) : Untouched c (send c m p reg) := by
  cases reg with
  | callback cb =>
    exact ⟨rfl, fun _ _ hk => mapInsert_keeps _ _ hk, fun _ _ hk => hk⟩
  | consumer co =>
    exact ⟨rfl, fun _ _ hk => hk, fun _ _ hk => mapInsert_keeps _ _ hk⟩
  | nothing => exact ⟨rfl, fun _ _ hk => hk, fun _ _ hk => hk⟩

theorem send_frame (c : Client Cb Co) (m : String) (p : Option Json)
    (reg : Registration Cb Co) : (send c m p reg).frame = c.frame := by
  cases reg <;> rfl

theorem replies_cons_nil {call : Call Cb Co} {rest : List (Call Cb Co)}
    (h : replies (call :: rest) = []) : replies [call] = [] ∧ replies rest = [] := by
  cases call with
  | reply rid hd j => cases h
  | _ => exact ⟨rfl, h⟩

theorem untouched_enter {c : Client Cb Co} {call : Call Cb Co} {rest : List (Call Cb Co)}
    (hc : c.frame = call :: rest) (hf : replies c.frame = []) :
    replies (enter c call rest).frame = [] ∧ Untouched c (enter c call rest) := by
  have hcons : replies (call :: rest) = [] := hc ▸ hf
  obtain ⟨hcall, hrest⟩ := replies_cons_nil hcons
  cases call with
  | reply rid hd j => cases hcall
  | methods j =>
    simp only [enter]
    split
    · rename_i calls hcalls
      refine ⟨?_, .of_eq rfl rfl rfl⟩
      show replies (calls ++ rest) = []
      rw [replies_append, replies_methodCalls hcalls, hrest]
      rfl
    · exact ⟨rfl, .of_eq rfl rfl rfl⟩
  | notify hd j => exact ⟨hf, .of_eq rfl rfl rfl⟩
  | onConnected => exact ⟨hf, .of_eq rfl rfl rfl⟩
  | onDisconnected => exact ⟨hf, .of_eq rfl rfl rfl⟩

theorem untouched_next (c : Client Cb Co) (hf : replies c.frame = []) (hni : ¬ idle c) :
    replies (next wild c).frame = [] ∧ Untouched c (next wild c) := by
  unfold next
  split_ifs with hr
  · refine ⟨?_, .of_eq rfl rfl rfl⟩
    cases hc : c.frame with
    | nil => rfl
    | cons call rest =>
      rw [hc] at hf
      exact (replies_cons_nil hf).2
  · cases hc : c.frame with
    | nil => exact absurd ⟨hc, by simpa using hr⟩ hni
    | cons call rest => exact untouched_enter hc hf

theorem untouched_step [DecidableEq Co] (c : Client Cb Co) (a : Act Cb Co)
    (hf : replies c.frame = []) (ha : a = .next → ¬ idle c) :
    replies (step wild c a).frame = [] ∧ Untouched c (step wild c a) := by
  rcases step_cases wild c a with ⟨m, p, reg, hsend⟩ | hnext | hthrow | haside
  · rw [hsend, send_frame]
    exact ⟨hf, untouched_send c m p reg⟩
  · subst hnext
    exact untouched_next c hf (ha rfl)
  · subst hthrow
    simp only [step, throwing]
    split_ifs
    · exact ⟨rfl, .of_eq rfl rfl rfl⟩
    · exact ⟨hf, .of_eq rfl rfl rfl⟩
  · rw [haside.frame]
    exact ⟨hf, .of_eq haside.invoked haside.callbacks haside.consumers⟩

theorem untouched_run [DecidableEq Co] (c : Client Cb Co) (acts : List (Act Cb Co))
    (hf : replies c.frame = [])
    (ha : Run.Along (step wild) (fun d a => a = .next → ¬ idle d) c acts) :
    Untouched c (Run.run (step wild) c acts) := by
  have hstep : ∀ d a, (replies d.frame = [] ∧ Untouched c d) → (a = Act.next → ¬ idle d) →
      replies (step wild d a).frame = [] ∧ Untouched c (step wild d a) := by
    intro d a hd hda
    have hs : replies (step wild d a).frame = [] ∧ Untouched d (step wild d a) :=
      untouched_step d a hd.1 hda
    exact ⟨hs.1, hd.2.trans hs.2⟩
  have hkeep := Run.invariant (I := fun d => replies d.frame = [] ∧ Untouched c d)
    (C := fun d a => a = Act.next → ¬ idle d) hstep c acts ⟨hf, .of_eq rfl rfl rfl⟩ ha
  exact hkeep.2

theorem update_none_eq {V : Type} {m : ℕ → Option V} {k : ℕ} (h : m k = none) :
    Function.update m k none = m := by
  rw [← h]
  exact Function.update_eq_self k m

-- Beginning a stray message leaves the maps alone and plans no reply call.
theorem begin_stray {c : Client Cb Co} {j : Json} {evs : List Event} (hidle : idle c)
    (hb : c.batch = .message j :: evs) (hs : Stray wild c j) :
    replies (next wild c).frame = [] ∧ Untouched c (next wild c) := by
  have hn : next wild c =
      dispatch wild { c with batch := evs, log := c.log.handle (.message j) } j := by
    simp [next, hidle.1, hidle.2, hb, begin]
  rw [hn]
  unfold dispatch
  split
  · exact ⟨rfl, .of_eq rfl rfl rfl⟩
  · rename_i v hv
    split
    · refine ⟨?_, .of_eq rfl rfl rfl⟩
      show replies c.frame = []
      rw [hidle.1]
      rfl
    · rename_i rid hrid
      obtain ⟨hcb, hco⟩ := hs rid (by simp [rpcId, hv, hrid])
      refine ⟨?_, .of_eq rfl ?_ ?_⟩
      · show replies (replyCalls c rid j ++ [.methods j]) = []
        simp [replyCalls, hcb, hco, replies]
      · exact update_none_eq hcb
      · exact update_none_eq hco

/-- What holds of requests and reply handlers at a point of a run. -/
structure Routed (wild : ℚ → ℕ) (c : Client Cb Co) : Prop where
  fresh : (c.sent.map (·.id)).Nodup
  once : (c.invoked.map (·.1)).Nodup
  own : ∀ t ∈ c.invoked, rpcId wild t.2.2 = some t.1 ∧
    ∃ r ∈ c.sent, r.id = t.1 ∧ r.registered.handler = some t.2.1
  gone : ∀ t ∈ c.invoked, c.callbacks t.1 = none ∧ c.consumers t.1 = none

theorem Inv.routed {c : Client Cb Co} (h : Inv wild c) : Routed wild c := by
  have hsub : c.invoked.Sublist (taken c) := List.sublist_append_left _ _
  refine ⟨?_, h.once.sublist (hsub.map _), fun t ht => h.right t (hsub.subset ht),
    fun t ht => h.gone t (hsub.subset ht)⟩
  rw [h.ids]
  exact List.nodup_range

/-- In every run with at most `2 ^ 64` requests ids are fresh and each reply
handler runs at most once, with its own reply; and from the moment a stray
message is taken up until the next event, no reply handler is invoked and no
registration is lost. -/
theorem reply_routing [DecidableEq Co] (wild : ℚ → ℕ) (es : List (Act Cb Co))
    (hsent : (Run.run (step wild) Client.init es).sent.length ≤ 2 ^ 64) :
    Routed wild (Run.run (step wild) Client.init es) ∧
    ∀ c, c = Run.run (step wild) Client.init es → idle c →
      ∀ j evs, c.batch = .message j :: evs → Stray wild c j →
      ∀ acts, Run.Along (step wild) (fun d a => a = .next → ¬ idle d) (next wild c) acts →
        Untouched c (Run.run (step wild) c (.next :: acts)) := by
  have hinv := Run.invariant_always
    (I := fun c : Client Cb Co => c.sent.length ≤ 2 ^ 64 → Inv wild c)
    inv_step Client.init es (fun _ => inv_init) hsent
  refine ⟨hinv.routed, ?_⟩
  intro c _ hidle j evs hb hs acts ha
  obtain ⟨hf, hu⟩ := begin_stray hidle hb hs
  exact hu.trans (untouched_run _ acts hf ha)

end dispatch

-- A reply, then a message with an id nobody waits for; the reply's handler sends
-- a request of its own and throws.
def sampleRun : List (Act ℕ ℕ) :=
  [.sendCallback "printer.info" (some 7), .sendParams "printer.gcode.script" .null,
    .push (.message (.obj (.cons "id" (.int 0) .nil))),
    .push (.message (.obj (.cons "id" (.int 99) .nil))),
    .drain, .next, .next, .sendCallback "server.files.list" (some 8), .throwing]

example : (Run.run (step fun _ => 0) Client.init sampleRun).invoked =
    [(0, Sum.inl 7, .obj (.cons "id" (.int 0) .nil))] := rfl

theorem reply_routing_sampleRun :
    Routed (fun _ => 0) (Run.run (step fun _ => 0) Client.init sampleRun) ∧
    Untouched (Run.run (step fun _ => 0) Client.init sampleRun)
      (Run.run (step fun _ => 0) (Run.run (step fun _ => 0) Client.init sampleRun)
        [.next, .next]) := by
  have hr := reply_routing (fun _ => 0) sampleRun (by decide)
  refine ⟨hr.1, hr.2 _ rfl ⟨rfl, rfl⟩ (.obj (.cons "id" (.int 99) .nil)) [] rfl ?_ [.next] ?_⟩
  · intro rid hrid
    have h99 : rid = 99 := by
      have hval : rpcId (fun _ => 0) (.obj (.cons "id" (.int 99) .nil)) = some 99 := by decide
      rw [hval] at hrid
      exact (Option.some.inj hrid).symm
    rw [h99]
    exact ⟨rfl, rfl⟩
  · refine ⟨fun _ hidle => ?_, trivial⟩
    exact List.cons_ne_nil _ _ hidle.1

end GuppyScreen.WebSocketClient
