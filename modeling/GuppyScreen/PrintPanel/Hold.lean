import GuppyScreen.PrintPanel.System

/-!
# Print waits for the scans

For each file the scans the panel asked for stand in a line: replies waiting in
the queue, replies on their way, Moonraker's scans, requests on their way. Every
hand-over keeps the line, so it is in the order of asking, and a reply that
matches the file's entry in `scans` is the last of it.
-/

namespace GuppyScreen.PrintPanel
open Lib

structure Flow where
  opened : ℕ
  scans : Path → Option ℕ
  batch : List Message
  queue : List Message
  up : Bool
  wire : List Request
  inbox : List Request
  scanning : Path → List (Option Request)

def System.flow (s : System) : Flow :=
  ⟨s.panel.opened, s.panel.scans, s.batch, s.queue, s.up, s.wire, s.inbox.map Prod.fst, s.scanning⟩

def Request.scansFile (path : Path) (r : Request) : Bool := r.call = .file ⟨.metascan, path⟩

def replyOf : Message → Option Request
  | .reply r _ => some r
  | _ => none

def isConnected : Message → Bool
  | .connected _ => true
  | _ => false

def connects (queue : List Message) : ℕ := queue.countP isConnected

def scansOf (path : Path) (rs : List Request) : List (Option Request) :=
  (rs.filter (·.scansFile path)).map some

-- As many messages as wait in a batch and a queue at most.
def span : ℕ := 2 * queueMax

/-- No waiting reply is older than a batch and a queue are long. -/
def Timely : ℕ → List Message → Prop
  | _, [] => True
  | opened, m :: queue =>
    (∀ r, replyOf m = some r → opened ≤ r.askedAt + span) ∧
      Timely (if isConnected m then opened + 1 else opened) queue

namespace Flow

def messages (f : Flow) : List Message := f.batch ++ f.queue

def line (f : Flow) (path : Path) : List (Option Request) :=
  scansOf path (f.messages.filterMap replyOf) ++ scansOf path f.inbox ++ f.scanning path ++
    scansOf path f.wire

def InFlight (f : Flow) (r : Request) : Prop :=
  r ∈ f.wire ∨ r ∈ f.inbox ∨ ∃ path, some r ∈ f.scanning path

/-- `x` is not the scan that the entry `tag` waits for. -/
def Other (tag : Option ℕ) (x : Option Request) : Prop := ∀ r, x = some r → tag ≠ some r.askedOn

structure Inv (f : Flow) : Prop where
  own : ∀ path r, some r ∈ f.scanning path → r.scansFile path = true
  held : ∀ path, f.scans path = none → f.scanning path = [] ∧ scansOf path f.wire = []
  last : ∀ path, (f.line path).Pairwise fun x _ => Other (f.scans path) x
  current : ∀ path r, some r ∈ f.line path → r.askedOn = connectionId f.opened →
    f.scans path = some (connectionId f.opened)
  room : f.batch.length ≤ queueMax ∧ f.queue.length ≤ queueMax
  timely : Timely f.opened f.messages
  fresh : ∀ r, f.InFlight r → f.opened + connects f.messages ≤ r.askedAt + span
  asked : ∀ r, f.InFlight r ∨ r ∈ f.messages.filterMap replyOf → r.askedAt ≤ f.opened
  down : f.up = false → f.wire = [] ∧ f.inbox = [] ∧ ∀ path r, some r ∉ f.scanning path

end Flow

/-! ### Lines and queues -/

theorem scansOf_append (path : Path) (as bs : List Request) :
    scansOf path (as ++ bs) = scansOf path as ++ scansOf path bs := by
  simp [scansOf]

theorem scansOf_single {path : Path} {r : Request} (h : r.scansFile path = true) :
    scansOf path [r] = [some r] := by
  simp [scansOf, h]

theorem scansOf_none {path : Path} {r : Request} (h : r.scansFile path = false) :
    scansOf path [r] = [] := by
  simp [scansOf, h]

theorem mem_scansOf {path : Path} {rs : List Request} {x : Option Request} :
    x ∈ scansOf path rs ↔ ∃ r ∈ rs, r.scansFile path = true ∧ x = some r := by
  simp only [scansOf, List.mem_map, List.mem_filter]
  constructor
  · rintro ⟨r, ⟨hmem, hr⟩, rfl⟩
    exact ⟨r, hmem, hr, rfl⟩
  · rintro ⟨r, hmem, hr, rfl⟩
    exact ⟨r, ⟨hmem, hr⟩, rfl⟩

theorem timely_mono {a b : ℕ} (h : a ≤ b) {queue : List Message} (ht : Timely b queue) :
    Timely a queue := by
  induction queue generalizing a b with
  | nil => trivial
  | cons m queue ih =>
    refine ⟨fun r hr => Nat.le_trans h (ht.1 r hr), ih ?_ ht.2⟩
    split_ifs <;> omega

theorem timely_tail {opened : ℕ} {m : Message} {queue : List Message}
    (ht : Timely opened (m :: queue)) : Timely opened queue := by
  refine timely_mono ?_ ht.2
  split_ifs <;> omega

theorem timely_sublist {opened : ℕ} {few queue : List Message} (hsub : few.Sublist queue)
    (ht : Timely opened queue) : Timely opened few := by
  induction hsub generalizing opened with
  | slnil => trivial
  | cons m _ ih => exact ih (timely_tail ht)
  | cons_cons m _ ih => exact ⟨ht.1, ih ht.2⟩

theorem timely_reply {opened : ℕ} {queue : List Message} (ht : Timely opened queue) {r : Request}
    (hr : r ∈ queue.filterMap replyOf) : opened ≤ r.askedAt + span := by
  induction queue generalizing opened with
  | nil => cases hr
  | cons m queue ih =>
    obtain ⟨x, hx, hxr⟩ := List.mem_filterMap.mp hr
    rcases List.mem_cons.mp hx with rfl | hx
    · exact ht.1 r hxr
    · exact ih (timely_tail ht) (List.mem_filterMap.mpr ⟨x, hx, hxr⟩)

theorem timely_snoc {opened : ℕ} {queue : List Message} {m : Message} (ht : Timely opened queue)
    (hm : ∀ r, replyOf m = some r → opened + connects queue ≤ r.askedAt + span) :
    Timely opened (queue ++ [m]) := by
  induction queue generalizing opened with
  | nil =>
    refine ⟨fun r hr => ?_, trivial⟩
    simpa [connects] using hm r hr
  | cons d queue ih =>
    refine ⟨ht.1, ih ht.2 fun r hr => ?_⟩
    have hcount := hm r hr
    rw [connects, List.countP_cons] at hcount
    rw [connects]
    split_ifs at hcount ⊢ <;> omega

theorem connects_le (queue : List Message) : connects queue ≤ queue.length :=
  List.countP_le_length

/-- Ids that are less than a queue apart are told apart by a `uint32_t`. -/
theorem connectionId_ne {asked opened : ℕ} (hle : asked ≤ opened)
    (hnear : opened + 1 ≤ asked + span) : connectionId asked ≠ connectionId (opened + 1) := by
  unfold connectionId span queueMax at *
  omega

/-! ### Every move keeps the lines -/

namespace Flow

theorem mem_line {f : Flow} {path : Path} {r : Request} :
    some r ∈ f.line path ↔
      (r ∈ f.messages.filterMap replyOf ∧ r.scansFile path = true) ∨
      (r ∈ f.inbox ∧ r.scansFile path = true) ∨ some r ∈ f.scanning path ∨
      (r ∈ f.wire ∧ r.scansFile path = true) := by
  simp only [line, List.mem_append, mem_scansOf, Option.some.injEq]
  constructor
  · rintro (((⟨d, hd, hs, rfl⟩ | ⟨d, hd, hs, rfl⟩) | hd) | ⟨d, hd, hs, rfl⟩)
    · exact Or.inl ⟨hd, hs⟩
    · exact Or.inr (Or.inl ⟨hd, hs⟩)
    · exact Or.inr (Or.inr (Or.inl hd))
    · exact Or.inr (Or.inr (Or.inr ⟨hd, hs⟩))
  · rintro (⟨hd, hs⟩ | ⟨hd, hs⟩ | hd | ⟨hd, hs⟩)
    · exact Or.inl (Or.inl (Or.inl ⟨r, hd, hs, rfl⟩))
    · exact Or.inl (Or.inl (Or.inr ⟨r, hd, hs, rfl⟩))
    · exact Or.inl (Or.inr hd)
    · exact Or.inr ⟨r, hd, hs, rfl⟩

theorem line_tail {f : Flow} {m : Message} {batch : List Message} (hb : f.batch = m :: batch)
    (path : Path) : f.line path =
      scansOf path (replyOf m).toList ++ ({ f with batch := batch } : Flow).line path := by
  have hsplit : f.messages.filterMap replyOf =
      (replyOf m).toList ++ ({ f with batch := batch } : Flow).messages.filterMap replyOf := by
    simp only [messages, hb]
    cases hm : replyOf m <;> simp [hm]
  simp only [line, hsplit, scansOf_append, List.append_assoc]

theorem Inv.forget {f : Flow} (h : f.Inv) {batch queue : List Message}
    (hb : batch.Sublist f.batch) (hq : queue.Sublist f.queue) :
    ({ f with batch := batch, queue := queue } : Flow).Inv := by
  have hmessages : (batch ++ queue).Sublist f.messages := hb.append hq
  have hreplies := hmessages.filterMap replyOf
  have hsub : ∀ path, (({ f with batch := batch, queue := queue } : Flow).line path).Sublist
      (f.line path) := by
    intro path
    have hscans : (scansOf path ((batch ++ queue).filterMap replyOf)).Sublist
        (scansOf path (f.messages.filterMap replyOf)) := (hreplies.filter _).map some
    exact ((hscans.append_right _).append_right _).append_right _
  refine ⟨h.own, h.held, ?_, ?_, ?_, timely_sublist hmessages h.timely, ?_, ?_, h.down⟩
  · exact fun path => (h.last path).sublist (hsub path)
  · exact fun path r hr => h.current path r ((hsub path).subset hr)
  · exact ⟨Nat.le_trans hb.length_le h.room.1, Nat.le_trans hq.length_le h.room.2⟩
  · intro r hr
    have hfresh := h.fresh r hr
    have hcount : connects (batch ++ queue) ≤ connects f.messages := hmessages.countP_le
    show f.opened + connects (batch ++ queue) ≤ r.askedAt + span
    omega
  · intro r hr
    exact h.asked r (hr.imp_right fun hr => hreplies.subset hr)

theorem Inv.tail {f : Flow} (h : f.Inv) {m : Message} {batch : List Message}
    (hb : f.batch = m :: batch) : ({ f with batch := batch } : Flow).Inv := by
  refine h.forget ?_ (List.Sublist.refl _)
  rw [hb]
  exact List.sublist_cons_self m batch

theorem Inv.of_line {f g : Flow} (h : f.Inv) (hline : ∀ path, g.line path = f.line path)
    (hscans : g.scans = f.scans) (hopened : g.opened = f.opened) :
    (∀ path, (g.line path).Pairwise fun x _ => Other (g.scans path) x) ∧
      ∀ path r, some r ∈ g.line path → r.askedOn = connectionId g.opened →
        g.scans path = some (connectionId g.opened) := by
  constructor
  · intro path
    rw [hline, hscans]
    exact h.last path
  · intro path r hr
    rw [hline] at hr
    rw [hscans, hopened]
    exact h.current path r hr

theorem Inv.swap {f : Flow} (h : f.Inv) (hb : f.batch = []) :
    ({ f with batch := f.queue, queue := [] } : Flow).Inv := by
  have hmessages : ({ f with batch := f.queue, queue := [] } : Flow).messages = f.messages := by
    simp [messages, hb]
  have hline : ∀ path,
      ({ f with batch := f.queue, queue := [] } : Flow).line path = f.line path := by
    intro path
    simp only [line, hmessages]
  obtain ⟨hlast, hcurrent⟩ := h.of_line hline rfl rfl
  refine ⟨h.own, h.held, hlast, hcurrent, ⟨h.room.2, Nat.zero_le _⟩, ?_, ?_, ?_, h.down⟩
  · rw [hmessages]
    exact h.timely
  · rw [hmessages]
    exact h.fresh
  · rw [hmessages]
    exact h.asked

theorem Inv.connected {f : Flow} (h : f.Inv) {m : Message} {batch : List Message}
    (hb : f.batch = m :: batch) (hm : isConnected m = true) :
    ({ f with batch := batch, opened := f.opened + 1 } : Flow).Inv := by
  have hrest := h.tail hb
  have hmessages : f.messages = m :: (batch ++ f.queue) := by
    rw [messages, hb]
    rfl
  have htimely : Timely (f.opened + 1) (batch ++ f.queue) := by
    have hall : Timely f.opened (m :: (batch ++ f.queue)) := hmessages ▸ h.timely
    have hnext := hall.2
    rwa [if_pos hm] at hnext
  have hcount : connects f.messages = connects (batch ++ f.queue) + 1 := by
    rw [hmessages, connects, connects, List.countP_cons_of_pos hm]
  have hfresh : ∀ r, f.InFlight r →
      f.opened + 1 + connects (batch ++ f.queue) ≤ r.askedAt + span := by
    intro r hr
    have hold := h.fresh r hr
    omega
  refine ⟨hrest.own, hrest.held, hrest.last, ?_, hrest.room, htimely, hfresh, ?_, hrest.down⟩
  · intro path r hr hnow
    have hflight : f.InFlight r ∨ r ∈ (batch ++ f.queue).filterMap replyOf := by
      rcases mem_line.mp hr with hr | hr | hr | hr
      · exact Or.inr hr.1
      · exact Or.inl (Or.inr (Or.inl hr.1))
      · exact Or.inl (Or.inr (Or.inr ⟨path, hr⟩))
      · exact Or.inl (Or.inl hr.1)
    have hasked : r.askedAt ≤ f.opened := hrest.asked r hflight
    have hnear : f.opened + 1 ≤ r.askedAt + span := by
      rcases hflight with hr | hr
      · have := hfresh r hr
        omega
      · exact timely_reply htimely hr
    exact absurd hnow (connectionId_ne hasked hnear)
  · intro r hr
    have hold : r.askedAt ≤ f.opened := hrest.asked r hr
    exact Nat.le_succ_of_le hold

theorem Inv.trim {f : Flow} (h : f.Inv) :
    ({ f with queue := if f.queue.length ≥ queueMax then f.queue.tail else f.queue } : Flow).Inv ∧
    (if f.queue.length ≥ queueMax then f.queue.tail else f.queue).length < queueMax := by
  split_ifs with hfull
  · refine ⟨h.forget (List.Sublist.refl _) (List.tail_sublist _), ?_⟩
    have hroom := h.room.2
    rw [List.length_tail]
    unfold queueMax at *
    omega
  · exact ⟨h, Nat.lt_of_not_le hfull⟩

theorem messages_snoc (f : Flow) (m : Message) :
    ({ f with queue := f.queue ++ [m] } : Flow).messages = f.messages ++ [m] :=
  (List.append_assoc ..).symm

theorem Inv.snoc {f : Flow} (h : f.Inv) (hroom : f.queue.length < queueMax) {m : Message}
    (hm : replyOf m = none) (hc : isConnected m = true → ∀ r, ¬ f.InFlight r) :
    ({ f with queue := f.queue ++ [m] } : Flow).Inv := by
  have hreplies : ({ f with queue := f.queue ++ [m] } : Flow).messages.filterMap replyOf =
      f.messages.filterMap replyOf := by
    simp [messages_snoc, hm]
  have hline : ∀ path, ({ f with queue := f.queue ++ [m] } : Flow).line path = f.line path := by
    intro path
    simp only [line, hreplies]
  obtain ⟨hlast, hcurrent⟩ := h.of_line hline rfl rfl
  refine ⟨h.own, h.held, hlast, hcurrent, ⟨h.room.1, ?_⟩, ?_, ?_, ?_, h.down⟩
  · show (f.queue ++ [m]).length ≤ queueMax
    rw [List.length_append, List.length_singleton]
    omega
  · rw [messages_snoc]
    refine timely_snoc h.timely fun r hr => ?_
    rw [hm] at hr
    cases hr
  · intro r hr
    rw [messages_snoc, connects, List.countP_append, List.countP_singleton]
    split_ifs with hcon
    · exact absurd hr (hc hcon r)
    · exact h.fresh r hr
  · intro r hr
    rw [hreplies] at hr
    exact h.asked r hr

theorem Inv.deliver {f : Flow} (h : f.Inv) (hroom : f.queue.length < queueMax) {r : Request}
    {b : Body} {inbox : List Request} (hin : f.inbox = r :: inbox) :
    ({ f with inbox := inbox, queue := f.queue ++ [Message.reply r b] } : Flow).Inv := by
  have hmessages : ({ f with inbox := inbox, queue := f.queue ++ [Message.reply r b] } :
      Flow).messages = f.messages ++ [.reply r b] := messages_snoc f _
  have hreplies : ({ f with inbox := inbox, queue := f.queue ++ [Message.reply r b] } :
      Flow).messages.filterMap replyOf = f.messages.filterMap replyOf ++ [r] := by
    simp [hmessages, replyOf]
  have hline : ∀ path,
      ({ f with inbox := inbox, queue := f.queue ++ [Message.reply r b] } : Flow).line path =
        f.line path := by
    intro path
    simp only [line, hreplies, hin]
    rw [scansOf_append, show r :: inbox = [r] ++ inbox from rfl, scansOf_append]
    simp only [List.append_assoc]
  have hin' : r ∈ f.inbox := hin ▸ List.mem_cons_self
  have hflight : ∀ d,
      ({ f with inbox := inbox, queue := f.queue ++ [Message.reply r b] } : Flow).InFlight d →
      f.InFlight d := by
    rintro d (hd | hd | hd)
    · exact Or.inl hd
    · refine Or.inr (Or.inl ?_)
      rw [hin]
      exact List.mem_cons_of_mem _ hd
    · exact Or.inr (Or.inr hd)
  refine ⟨h.own, h.held, ?_, ?_, ⟨h.room.1, ?_⟩, ?_, ?_, ?_, ?_⟩
  · intro path
    rw [hline]
    exact h.last path
  · intro path d hd
    rw [hline] at hd
    exact h.current path d hd
  · show (f.queue ++ [Message.reply r b]).length ≤ queueMax
    rw [List.length_append, List.length_singleton]
    omega
  · rw [hmessages]
    refine timely_snoc h.timely fun d hd => ?_
    cases hd
    exact h.fresh r (Or.inr (Or.inl hin'))
  · intro d hd
    rw [hmessages, connects, List.countP_append]
    exact h.fresh d (hflight d hd)
  · intro d hd
    rcases hd with hd | hd
    · exact h.asked d (Or.inl (hflight d hd))
    · rw [hreplies] at hd
      rcases List.mem_append.mp hd with hd | hd
      · exact h.asked d (Or.inr hd)
      · rw [List.mem_singleton.mp hd]
        exact h.asked r (Or.inl (Or.inr (Or.inl hin')))
  · intro hup
    obtain ⟨_, hnone, _⟩ := h.down hup
    rw [hin] at hnone
    cases hnone

theorem scansOf_eq_nil {path : Path} {rs : List Request} (h : ∀ r ∈ rs, r.scansFile path = false) :
    scansOf path rs = [] := by
  rw [scansOf, List.map_eq_nil_iff, List.filter_eq_nil_iff]
  intro r hr
  simp [h r hr]

theorem line_wire (f : Flow) (new : List Request) (path : Path) :
    ({ f with wire := f.wire ++ new } : Flow).line path = f.line path ++ scansOf path new := by
  simp only [line, messages, scansOf_append, List.append_assoc]

theorem inFlight_wire {f : Flow} {new : List Request} {r : Request}
    (h : ({ f with wire := f.wire ++ new } : Flow).InFlight r) : f.InFlight r ∨ r ∈ new := by
  rcases h with h | h | h
  · rcases List.mem_append.mp h with h | h
    · exact Or.inl (Or.inl h)
    · exact Or.inr h
  · exact Or.inl (Or.inr (Or.inl h))
  · exact Or.inl (Or.inr (Or.inr h))

theorem Inv.sending {f : Flow} (h : f.Inv) {new : List Request}
    (hasked : ∀ r ∈ new, r.askedAt = f.opened) (hup : f.up = false → new = []) :
    (∀ r, ({ f with wire := f.wire ++ new } : Flow).InFlight r →
      f.opened + connects f.messages ≤ r.askedAt + span) ∧
    (∀ r, ({ f with wire := f.wire ++ new } : Flow).InFlight r ∨ r ∈ f.messages.filterMap replyOf →
      r.askedAt ≤ f.opened) ∧
    (f.up = false → f.wire ++ new = [] ∧ f.inbox = [] ∧ ∀ path r, some r ∉ f.scanning path) := by
  have hcount : connects f.messages ≤ span := by
    have hle := connects_le f.messages
    have hlen : f.messages.length = f.batch.length + f.queue.length := List.length_append
    have hroom := h.room
    unfold span
    omega
  refine ⟨?_, ?_, ?_⟩
  · intro r hr
    rcases inFlight_wire hr with hr | hr
    · exact h.fresh r hr
    · rw [hasked r hr]
      omega
  · intro r hr
    rcases hr with hr | hr
    · rcases inFlight_wire hr with hr | hr
      · exact h.asked r (Or.inl hr)
      · exact Nat.le_of_eq (hasked r hr)
    · exact h.asked r (Or.inr hr)
  · intro hdown
    obtain ⟨hw, hrest⟩ := h.down hdown
    rw [hw, hup hdown]
    exact ⟨rfl, hrest⟩

theorem Inv.transmit {f : Flow} (h : f.Inv) {new : List Request}
    (hscan : ∀ r ∈ new, ∀ path, r.scansFile path = false)
    (hasked : ∀ r ∈ new, r.askedAt = f.opened) (hup : f.up = false → new = []) :
    ({ f with wire := f.wire ++ new } : Flow).Inv := by
  have hnone : ∀ path, scansOf path new = [] := fun path =>
    scansOf_eq_nil fun r hr => hscan r hr path
  have hline : ∀ path, ({ f with wire := f.wire ++ new } : Flow).line path = f.line path := by
    intro path
    rw [line_wire, hnone, List.append_nil]
  obtain ⟨hfresh, hall, hdown⟩ := h.sending hasked hup
  obtain ⟨hlast, hcurrent⟩ := h.of_line hline rfl rfl
  refine ⟨h.own, ?_, hlast, hcurrent, h.room, h.timely, hfresh, hall, hdown⟩
  intro path hfree
  obtain ⟨hs, hw⟩ := h.held path hfree
  refine ⟨hs, ?_⟩
  rw [scansOf_append, hw, hnone]
  rfl

/-- A scan is asked for under a connection that has none of the file yet. -/
theorem Inv.ask {f : Flow} (h : f.Inv) {path : Path}
    (hne : f.scans path ≠ some (connectionId f.opened)) {new : List Request} (hlen : new.length ≤ 1)
    (hscan : ∀ r ∈ new, r.call = .file ⟨.metascan, path⟩)
    (hasked : ∀ r ∈ new, r.askedAt = f.opened) (hup : f.up = false → new = []) :
    ({ f with
      scans := Function.update f.scans path (some (connectionId f.opened))
      wire := f.wire ++ new } : Flow).Inv := by
  have hother : ∀ q, q ≠ path → scansOf q new = [] := by
    intro q hq
    refine scansOf_eq_nil fun r hr => ?_
    simp [Request.scansFile, hscan r hr, Ne.symm hq]
  have hline : ∀ q, q ≠ path → ({ f with
      scans := Function.update f.scans path (some (connectionId f.opened))
      wire := f.wire ++ new } : Flow).line q = f.line q := by
    intro q hq
    have hw := line_wire f new q
    rw [hother q hq, List.append_nil] at hw
    exact hw
  obtain ⟨hfresh, hall, hdown⟩ := h.sending hasked hup
  refine ⟨h.own, ?_, ?_, ?_, h.room, h.timely, hfresh, hall, hdown⟩
  · intro q hfree
    have hq : q ≠ path := by
      intro he
      simp [he] at hfree
    simp only [Function.update_of_ne hq] at hfree
    obtain ⟨hs, hw⟩ := h.held q hfree
    refine ⟨hs, ?_⟩
    rw [scansOf_append, hw, hother q hq]
    rfl
  · intro q
    by_cases hq : q = path
    · subst hq
      have hwire := line_wire f new q
      simp only [Function.update_self]
      -- Nothing in the line so far carries this connection's id.
      have hothers : ∀ x ∈ f.line q, Other (some (connectionId f.opened)) x := by
        intro x hx r hr htag
        rw [hr] at hx
        exact hne (h.current q r hx (Option.some.inj htag).symm)
      show (({ f with wire := f.wire ++ new } : Flow).line q).Pairwise _
      rw [hwire, List.pairwise_append]
      refine ⟨(h.last q).imp_of_mem fun ha _ _ => hothers _ ha, ?_, fun a ha _ _ => hothers a ha⟩
      cases new with
      | nil => exact List.Pairwise.nil
      | cons r rest =>
        have hrest : rest = [] := List.eq_nil_of_length_eq_zero (by simpa using hlen)
        rw [hrest]
        have hr : r.scansFile q = true := by simp [Request.scansFile, hscan r]
        rw [scansOf_single hr]
        exact List.pairwise_singleton _ _
    · rw [hline q hq]
      simp only [Function.update_of_ne hq]
      exact h.last q
  · intro q r hr hnow
    by_cases hq : q = path
    · subst hq
      exact Function.update_self ..
    · rw [hline q hq] at hr
      simp only [Function.update_of_ne hq]
      exact h.current q r hr hnow

/-- A tag that is no connection's, while nothing of the current one is in line. -/
theorem Inv.tag {f : Flow} (h : f.Inv) {path : Path} {t : Option ℕ}
    (ht : ∀ r : Request, t ≠ some r.askedOn)
    (hfree : t = none → f.scanning path = [] ∧ scansOf path f.wire = [])
    (hold : ∀ r, some r ∈ f.line path → r.askedOn ≠ connectionId f.opened) :
    ({ f with scans := Function.update f.scans path t } : Flow).Inv := by
  refine ⟨h.own, ?_, ?_, ?_, h.room, h.timely, h.fresh, h.asked, h.down⟩
  · intro q hnone
    by_cases hq : q = path
    · subst hq
      simp only [Function.update_self] at hnone
      exact hfree hnone
    · simp only [Function.update_of_ne hq] at hnone
      exact h.held q hnone
  · intro q
    by_cases hq : q = path
    · subst hq
      simp only [Function.update_self]
      exact (h.last q).imp fun _ r _ => ht r
    · simp only [Function.update_of_ne hq]
      exact h.last q
  · intro q r hr hnow
    by_cases hq : q = path
    · subst hq
      exact absurd hnow (hold r hr)
    · simp only [Function.update_of_ne hq]
      exact h.current q r hr hnow

theorem Inv.release {f : Flow} (h : f.Inv) {path : Path} (hs : f.scanning path = [])
    (hw : scansOf path f.wire = [])
    (hold : ∀ r, some r ∈ f.line path → r.askedOn ≠ connectionId f.opened) :
    ({ f with scans := Function.update f.scans path none } : Flow).Inv :=
  h.tag (fun _ => nofun) (fun _ => ⟨hs, hw⟩) hold

/-- Handing requests and replies on keeps the invariant: the lines keep their order,
and nothing new is in flight. -/
theorem Inv.move {f g : Flow} (h : f.Inv) (hopened : g.opened = f.opened)
    (hscans : g.scans = f.scans) (hbatch : g.batch = f.batch) (hqueue : g.queue = f.queue)
    (hline : ∀ path, (g.line path).Sublist (f.line path))
    (hflight : ∀ r, g.InFlight r → f.InFlight r)
    (hown : ∀ path r, some r ∈ g.scanning path → r.scansFile path = true)
    (hheld : ∀ path, f.scans path = none → g.scanning path = [] ∧ scansOf path g.wire = [])
    (hdown : g.up = false → g.wire = [] ∧ g.inbox = [] ∧ ∀ path r, some r ∉ g.scanning path) :
    g.Inv := by
  have hmessages : g.messages = f.messages := by
    rw [messages, messages, hbatch, hqueue]
  refine ⟨hown, ?_, ?_, ?_, ?_, ?_, ?_, ?_, hdown⟩
  · rw [hscans]
    exact hheld
  · intro path
    rw [hscans]
    exact (h.last path).sublist (hline path)
  · intro path r hr
    rw [hscans, hopened]
    exact h.current path r ((hline path).subset hr)
  · rw [hbatch, hqueue]
    exact h.room
  · rw [hopened, hmessages]
    exact h.timely
  · intro r hr
    rw [hopened, hmessages]
    exact h.fresh r (hflight r hr)
  · intro r hr
    rw [hopened]
    rw [hmessages] at hr
    exact h.asked r (hr.imp_left (hflight r))

theorem Inv.wire_nil {f : Flow} (h : f.Inv) {r : Request} {wire : List Request}
    (hwire : f.wire = r :: wire) (hdown : f.up = false) : False := by
  have hnone := (h.down hdown).1
  rw [hwire] at hnone
  cases hnone

theorem Inv.answer {f : Flow} (h : f.Inv) {r : Request} {wire : List Request}
    (hwire : f.wire = r :: wire) (hscan : ∀ path, r.scansFile path = false) :
    ({ f with wire := wire, inbox := f.inbox ++ [r] } : Flow).Inv := by
  have hout : ∀ path, scansOf path f.wire = scansOf path wire := by
    intro path
    rw [hwire, show r :: wire = [r] ++ wire from rfl, scansOf_append, scansOf_none (hscan path)]
    rfl
  refine h.move rfl rfl rfl rfl ?_ ?_ h.own ?_ fun hdown => (h.wire_nil hwire hdown).elim
  · intro path
    simp only [line, messages, hout, scansOf_append, scansOf_none (hscan path), List.append_nil]
    exact List.Sublist.refl _
  · rintro d (hd | hd | hd)
    · refine Or.inl ?_
      rw [hwire]
      exact List.mem_cons_of_mem _ hd
    · rcases List.mem_append.mp hd with hd | hd
      · exact Or.inr (Or.inl hd)
      · refine Or.inl ?_
        rw [hwire, List.mem_singleton.mp hd]
        exact List.mem_cons_self
    · exact Or.inr (Or.inr hd)
  · intro path hfree
    obtain ⟨hs, hw⟩ := h.held path hfree
    exact ⟨hs, (hout path).symm.trans hw⟩

def enqueued (f : Flow) (r : Request) (wire : List Request) (path : Path) : Flow :=
  { f with
    wire := wire
    scanning := Function.update f.scanning path (f.scanning path ++ [some r]) }

theorem mem_enqueued {f : Flow} {r d : Request} {wire : List Request} {path q : Path}
    (h : some d ∈ (f.enqueued r wire path).scanning q) :
    some d ∈ f.scanning q ∨ d = r ∧ q = path := by
  by_cases hq : q = path
  · subst hq
    simp only [enqueued, Function.update_self] at h
    rcases List.mem_append.mp h with h | h
    · exact Or.inl h
    · exact Or.inr ⟨Option.some.inj (List.mem_singleton.mp h), rfl⟩
  · simp only [enqueued, Function.update_of_ne hq] at h
    exact Or.inl h

theorem Inv.enqueue {f : Flow} (h : f.Inv) {r : Request} {wire : List Request}
    (hwire : f.wire = r :: wire) {path : Path} (hscan : r.call = .file ⟨.metascan, path⟩) :
    (f.enqueued r wire path).Inv := by
  have hr : r.scansFile path = true := by simp [Request.scansFile, hscan]
  have hself : scansOf path f.wire = some r :: scansOf path wire := by
    rw [hwire, show r :: wire = [r] ++ wire from rfl, scansOf_append, scansOf_single hr]
    rfl
  have hout : ∀ q, q ≠ path → scansOf q f.wire = scansOf q wire := by
    intro q hq
    have hno : r.scansFile q = false := by simp [Request.scansFile, hscan, Ne.symm hq]
    rw [hwire, show r :: wire = [r] ++ wire from rfl, scansOf_append, scansOf_none hno]
    rfl
  refine h.move rfl rfl rfl rfl ?_ ?_ ?_ ?_ fun hdown => (h.wire_nil hwire hdown).elim
  · intro q
    by_cases hq : q = path
    · subst hq
      simp only [line, messages, enqueued, hself, Function.update_self, List.append_assoc,
        List.singleton_append]
      exact List.Sublist.refl _
    · simp only [line, messages, enqueued, hout q hq, Function.update_of_ne hq]
      exact List.Sublist.refl _
  · rintro d (hd | hd | ⟨q, hd⟩)
    · refine Or.inl ?_
      rw [hwire]
      exact List.mem_cons_of_mem _ hd
    · exact Or.inr (Or.inl hd)
    · rcases mem_enqueued hd with hd | ⟨rfl, _⟩
      · exact Or.inr (Or.inr ⟨q, hd⟩)
      · exact Or.inl (hwire ▸ List.mem_cons_self)
  · intro q d hd
    rcases mem_enqueued hd with hd | ⟨rfl, rfl⟩
    · exact h.own q d hd
    · exact hr
  · intro q hfree
    obtain ⟨hs, hw⟩ := h.held q hfree
    by_cases hq : q = path
    · subst hq
      rw [hself] at hw
      cases hw
    · simp only [enqueued, Function.update_of_ne hq]
      exact ⟨hs, (hout q hq).symm.trans hw⟩

def completed (f : Flow) (path : Path) (scan : Option Request) (rest : List (Option Request)) :
    Flow :=
  { f with
    scanning := Function.update f.scanning path rest
    inbox := f.inbox ++ scan.toList }

theorem mem_completed {f : Flow} {path q : Path} {scan x : Option Request}
    {rest : List (Option Request)} (hs : f.scanning path = scan :: rest)
    (h : x ∈ (f.completed path scan rest).scanning q) : x ∈ f.scanning q := by
  by_cases hq : q = path
  · subst hq
    simp only [completed, Function.update_self] at h
    rw [hs]
    exact List.mem_cons_of_mem _ h
  · simpa only [completed, Function.update_of_ne hq] using h

theorem line_completed {f : Flow} (hown : ∀ path r, some r ∈ f.scanning path →
    r.scansFile path = true)
    {path : Path} {scan : Option Request} {rest : List (Option Request)}
    (hs : f.scanning path = scan :: rest) (q : Path) :
    ((f.completed path scan rest).line q).Sublist (f.line q) := by
  have hmem : ∀ r, scan = some r → r.scansFile path = true := by
    rintro r rfl
    exact hown path r (hs ▸ List.mem_cons_self)
  by_cases hq : q = path
  · subst hq
    simp only [line, messages, completed, hs, Function.update_self, scansOf_append]
    cases scan with
    | none => simp [scansOf]
    | some r => simp [scansOf_single (hmem r rfl)]
  · simp only [line, messages, completed, Function.update_of_ne hq, scansOf_append]
    have hnone : scansOf q scan.toList = [] := by
      refine scansOf_eq_nil fun r hr => ?_
      have hscan := hmem r (Option.mem_toList.mp hr)
      simp only [Request.scansFile, decide_eq_true_eq] at hscan
      simp [Request.scansFile, hscan, Ne.symm hq]
    rw [hnone, List.append_nil]

theorem Inv.complete {f : Flow} (h : f.Inv) {path : Path} {scan : Option Request}
    {rest : List (Option Request)} (hs : f.scanning path = scan :: rest) :
    (f.completed path scan rest).Inv := by
  have hmem : ∀ r, scan = some r → some r ∈ f.scanning path := by
    rintro r rfl
    rw [hs]
    exact List.mem_cons_self
  refine h.move rfl rfl rfl rfl (line_completed h.own hs) ?_ ?_ ?_ ?_
  · rintro d (hd | hd | ⟨q, hd⟩)
    · exact Or.inl hd
    · rcases List.mem_append.mp hd with hd | hd
      · exact Or.inr (Or.inl hd)
      · exact Or.inr (Or.inr ⟨path, hmem d (Option.mem_toList.mp hd)⟩)
    · exact Or.inr (Or.inr ⟨q, mem_completed hs hd⟩)
  · exact fun q d hd => h.own q d (mem_completed hs hd)
  · intro q hfree
    obtain ⟨hnone, hw⟩ := h.held q hfree
    by_cases hq : q = path
    · subst hq
      rw [hs] at hnone
      cases hnone
    · simp only [completed, Function.update_of_ne hq]
      exact ⟨hnone, hw⟩
  · intro hdown
    obtain ⟨hw, hi, hno⟩ := h.down hdown
    refine ⟨hw, ?_, fun q d hd => hno q d (mem_completed hs hd)⟩
    cases scan with
    | none => simpa [completed] using hi
    | some r => exact absurd (hmem r rfl) (hno path r)

def dropped (f : Flow) : Flow :=
  { f with
    up := false
    wire := []
    inbox := []
    scanning := fun path => (f.scanning path).map fun _ => none }

theorem not_mem_dropped (f : Flow) (path : Path) (r : Request) :
    some r ∉ f.dropped.scanning path := by
  intro hr
  simp [dropped] at hr

theorem not_inFlight_dropped (f : Flow) (r : Request) : ¬ f.dropped.InFlight r := by
  rintro (hr | hr | ⟨path, hr⟩)
  · cases hr
  · cases hr
  · exact not_mem_dropped f path r hr

theorem line_dropped (f : Flow) (path : Path) : f.dropped.line path =
    scansOf path (f.messages.filterMap replyOf) ++ (f.scanning path).map fun _ => none := by
  simp [line, messages, dropped, scansOf]

theorem Inv.drop {f : Flow} (h : f.Inv) : f.dropped.Inv := by
  have hlast : ∀ path, (scansOf path (f.messages.filterMap replyOf) ++ (scansOf path f.inbox ++
      (f.scanning path ++ scansOf path f.wire))).Pairwise fun x _ => Other (f.scans path) x := by
    intro path
    have hline := h.last path
    simpa only [line, List.append_assoc] using hline
  refine ⟨fun path r hr => absurd hr (not_mem_dropped f path r), ?_, ?_, ?_, h.room, h.timely,
    fun r hr => absurd hr (not_inFlight_dropped f r), ?_, fun _ => ⟨rfl, rfl, not_mem_dropped f⟩⟩
  · intro path hfree
    obtain ⟨hs, _⟩ := h.held path hfree
    simp [dropped, hs, scansOf]
  · intro path
    obtain ⟨hqueue, _, hcross⟩ := List.pairwise_append.mp (hlast path)
    rw [line_dropped, List.pairwise_append]
    refine ⟨hqueue, ?_, ?_⟩
    · refine List.pairwise_map.mpr (List.pairwise_of_forall fun _ _ r hr => ?_)
      cases hr
    · -- Something followed this reply before the drop already.
      intro x hx y hy
      obtain ⟨scan, hscan, _⟩ := List.mem_map.mp hy
      exact hcross x hx scan (List.mem_append_right _ (List.mem_append_left _ hscan))
  · intro path r hr
    rw [line_dropped] at hr
    rcases List.mem_append.mp hr with hr | hr
    · refine h.current path r ?_
      simp only [line, List.append_assoc]
      exact List.mem_append_left _ hr
    · exact absurd hr (not_mem_dropped f path r)
  · intro r hr
    rcases hr with hr | hr
    · exact absurd hr (not_inFlight_dropped f r)
    · exact h.asked r (Or.inr hr)

end Flow

/-! ### The system -/

theorem flow_send (s : System) (c : Call) : ∃ new : List Request,
    (s.send c).flow = { s.flow with wire := s.flow.wire ++ new } ∧ new.length ≤ 1 ∧
    (∀ r ∈ new, r.call = c) ∧ (∀ r ∈ new, r.askedAt = s.flow.opened) ∧
    (s.flow.up = false → new = []) := by
  cases hup : s.up with
  | true =>
    refine ⟨[⟨s.nextId, c, s.panel.opened, some s.conn⟩], ?_, Nat.le_refl _, ?_, ?_, ?_⟩
    · simp [System.send, System.flow, hup]
    · intro r hr
      rw [List.mem_singleton.mp hr]
    · intro r hr
      rw [List.mem_singleton.mp hr]
      rfl
    · intro hdown
      exact absurd (hup.symm.trans hdown) (by decide)
  | false =>
    refine ⟨[], ?_, Nat.zero_le _, (fun r hr => nomatch hr), (fun r hr => nomatch hr), fun _ => rfl⟩
    simp [System.send, System.flow, hup]

/-- The flow as it is for other entries than the panel's own. -/
def System.flowWith (s : System) (scans : Path → Option ℕ) : Flow := { s.flow with scans := scans }

section
variable {scans : Path → Option ℕ}

theorem inv_send {s : System} (h : (s.flowWith scans).Inv) {c : Call}
    (hc : ∀ path, c ≠ .file ⟨.metascan, path⟩) : ((s.send c).flowWith scans).Inv := by
  obtain ⟨new, hflow, _, hcall, hasked, hup⟩ := flow_send s c
  rw [System.flowWith, hflow]
  refine h.transmit ?_ hasked hup
  intro r hr path
  simp [Request.scansFile, hcall r hr, hc path]

theorem inv_asks {s : System} (h : (s.flowWith scans).Inv) {asks : List Ask}
    (hm : ∀ a ∈ asks, a.method = .metadata) :
    ((asks.foldl (fun s a => s.send (.file a)) s).flowWith scans).Inv := by
  induction asks generalizing s with
  | nil => exact h
  | cons a asks ih =>
    refine ih (inv_send h ?_) fun b hb => hm b (List.mem_cons_of_mem _ hb)
    intro path he
    have hmethod := hm a List.mem_cons_self
    rw [Call.file.inj he] at hmethod
    cases hmethod

theorem inv_shows {s : System} (h : (s.flowWith scans).Inv) {out : Panel × List Ask}
    (hout : s.panel.Shows out) : ((s.act out).flowWith scans).Inv := by
  refine inv_asks (s := { s with panel := out.1 }) ?_ hout.metadata
  have hopened : out.1.opened = s.panel.opened := congrArg Panel.Hold.opened hout.hold
  unfold System.flowWith System.flow
  rw [hopened]
  exact h

theorem inv_push {s : System} (h : (s.flowWith scans).Inv) {m : Message} (hm : replyOf m = none)
    (hc : isConnected m = true → ∀ r, ¬ s.flow.InFlight r) : ((s.push m).flowWith scans).Inv := by
  obtain ⟨htrim, hroom⟩ := h.trim
  exact htrim.snoc hroom hm hc

theorem inv_open {s : System} (h : (s.flowWith scans).Inv) (hup : s.up = false) :
    ((step s .open).flowWith scans).Inv := by
  obtain ⟨hw, hi, hs⟩ := h.down hup
  have hempty : ∀ r, ¬ s.flow.InFlight r := by
    rintro r (hr | hr | ⟨path, hr⟩)
    · rw [show s.flow.wire = [] from hw] at hr
      cases hr
    · rw [show s.flow.inbox = [] from hi] at hr
      cases hr
    · exact hs path r hr
  have hopen : (({ s with conn := s.conn + 1, up := true } : System).flowWith scans).Inv :=
    ⟨h.own, h.held, h.last, h.current, h.room, h.timely, h.fresh, h.asked, fun hd => nomatch hd⟩
  simp only [step, hup]
  exact inv_push hopen rfl fun _ => hempty

theorem inv_drop {s : System} (h : (s.flowWith scans).Inv) :
    ((step s .drop).flowWith scans).Inv := by
  simp only [step]
  split_ifs
  · have hdrop : (({ s with
        up := false
        wire := []
        inbox := []
        scanning := fun path => (s.scanning path).map fun _ => none } :
          System).flowWith scans).Inv :=
      h.drop
    exact inv_push hdrop rfl fun hcon => nomatch hcon
  · exact h

theorem inv_receive {s : System} (h : (s.flowWith scans).Inv) (answer : List (Path × ℕ)) :
    ((s.receive answer).flowWith scans).Inv := by
  have hanswer : ∀ r wire b, s.wire = r :: wire → (∀ path, r.call ≠ .file ⟨.metascan, path⟩) →
      (({ s with wire := wire, inbox := s.inbox ++ [(r, b)] } : System).flowWith scans).Inv := by
    intro r wire b hwire hcall
    have hinv := h.answer hwire fun path => by simp [Request.scansFile, hcall path]
    simp only [System.flowWith, System.flow, List.map_append]
    exact hinv
  unfold System.receive
  cases hwire : s.wire with
  | nil => exact h
  | cons r wire =>
    dsimp only
    cases hcall : r.call with
    | objects cause => exact hanswer r wire .done hwire fun path => by simp [hcall]
    | list cause => exact hanswer r wire (.files answer) hwire fun path => by simp [hcall]
    | file a =>
      obtain ⟨method, path⟩ := a
      cases method with
      | metadata => exact hanswer r wire _ hwire fun path => by simp [hcall]
      | metascan => exact h.enqueue hwire hcall

theorem inv_complete {s : System} (h : (s.flowWith scans).Inv) (path : Path) (ok : Bool) :
    ((s.complete path ok).flowWith scans).Inv := by
  unfold System.complete
  cases hs : s.scanning path with
  | nil => exact h
  | cons scan rest =>
    have hinv := h.complete hs
    cases scan with
    | none =>
      simp only [System.flowWith, System.flow, List.map_append]
      exact hinv
    | some r =>
      simp only [System.flowWith, System.flow, List.map_append]
      exact hinv

theorem inv_deliver {s : System} (h : (s.flowWith scans).Inv) :
    ((step s .deliver).flowWith scans).Inv := by
  simp only [step]
  cases hin : s.inbox with
  | nil => exact h
  | cons m inbox =>
    obtain ⟨r, b⟩ := m
    obtain ⟨htrim, hroom⟩ := h.trim
    have hflow : s.flow.inbox = r :: inbox.map Prod.fst := by
      show s.inbox.map Prod.fst = _
      rw [hin]
      rfl
    exact htrim.deliver (b := b) hroom hflow

end

/-- The file request whose reply a step hands to `handle_metadata`, and the reply. -/
def fileReply (s : System) : Event → Option (Request × Ask × Body)
  | .next _ =>
    match s.batch with
    | .reply r b :: _ =>
      match r.call with
      | .file a => if r ∈ s.pending then some (r, a, b) else none
      | _ => none
    | _ => none
  | _ => none

theorem fileReply_next {s : System} {e : Event} {r : Request} {a : Ask} {b : Body}
    (h : fileReply s e = some (r, a, b)) :
    (∃ pick, e = .next pick) ∧ (∃ batch, s.batch = .reply r b :: batch) ∧ r.call = .file a ∧
      r ∈ s.pending := by
  cases e with
  | next pick =>
    unfold fileReply at h
    cases hb : s.batch with
    | nil => simp [hb] at h
    | cons m batch =>
      cases m with
      | reply q c =>
        cases hcall : q.call with
        | file d =>
          by_cases hmem : q ∈ s.pending
          · simp only [hb, hcall, if_pos hmem, Option.some.injEq, Prod.mk.injEq] at h
            obtain ⟨rfl, rfl, rfl⟩ := h
            exact ⟨⟨pick, rfl⟩, ⟨batch, rfl⟩, hcall, hmem⟩
          · simp [hb, hcall, hmem] at h
        | objects cause => simp [hb, hcall] at h
        | list cause => simp [hb, hcall] at h
      | connected conn => simp [hb] at h
      | disconnected => simp [hb] at h
      | klippyReady => simp [hb] at h
  | _ => cases h

theorem step_fileReply {s : System} {e : Event} {r : Request} {a : Ask} {b : Body}
    {batch : List Message} (h : fileReply s e = some (r, a, b))
    (hb : s.batch = .reply r b :: batch) :
    step s e = ({ s with batch := batch, pending := s.pending.erase r } : System).act
      (s.panel.handleMetadata a.path a.method r.askedOn (b = .found)) := by
  obtain ⟨⟨pick, rfl⟩, -, hcall, hmem⟩ := fileReply_next h
  simp only [step, hb, System.handle, if_pos hmem, System.answered, hcall]

theorem act_panel (s : System) (out : Panel × List Ask) : (s.act out).panel = out.1 := by
  have hasks : ∀ (asks : List Ask) (t : System),
      (asks.foldl (fun s a => s.send (.file a)) t).panel = t.panel := by
    intro asks
    induction asks with
    | nil => exact fun _ => rfl
    | cons a asks ih => exact fun t => ih (t.send (.file a))
  exact hasks out.2 { s with panel := out.1 }

theorem panel_shows {s : System} {out : Panel × List Ask} (h : s.panel.Shows out) :
    (s.act out).panel.scans = s.panel.scans ∧
      (s.act out).panel.unscannable = s.panel.unscannable := by
  rw [act_panel]
  exact ⟨congrArg Panel.Hold.scans h.hold, congrArg Panel.Hold.unscannable h.hold⟩

/-- Only `handle_metadata` writes the two maps. -/
theorem panel_other {s : System} {e : Event} (he : fileReply s e = none) :
    (step s e).panel.scans = s.panel.scans ∧
      (step s e).panel.unscannable = s.panel.unscannable := by
  cases e with
  | «open» =>
    simp only [step]
    split_ifs <;> exact ⟨rfl, rfl⟩
  | drop =>
    simp only [step]
    split_ifs <;> exact ⟨rfl, rfl⟩
  | klippyReady =>
    simp only [step]
    split_ifs <;> exact ⟨rfl, rfl⟩
  | receive answer =>
    simp only [step, System.receive]
    split
    · exact ⟨rfl, rfl⟩
    · split <;> exact ⟨rfl, rfl⟩
  | complete path ok =>
    simp only [step, System.complete]
    split <;> exact ⟨rfl, rfl⟩
  | store path known => exact ⟨rfl, rfl⟩
  | deliver =>
    simp only [step]
    split <;> exact ⟨rfl, rfl⟩
  | drain =>
    simp only [step]
    split_ifs <;> exact ⟨rfl, rfl⟩
  | next pick =>
    simp only [step]
    cases hb : s.batch with
    | nil => exact ⟨rfl, rfl⟩
    | cons m batch =>
      cases m with
      | connected conn => exact ⟨rfl, rfl⟩
      | disconnected => exact ⟨rfl, rfl⟩
      | klippyReady => exact ⟨rfl, rfl⟩
      | reply r b =>
        simp only [System.handle]
        split_ifs with hmem
        · unfold System.answered
          cases hcall : r.call with
          | objects cause => exact ⟨rfl, rfl⟩
          | list cause =>
            cases b with
            | files answer =>
              exact panel_shows
                (s := { s with
                  batch := batch
                  pending := s.pending.erase r
                  refetched := cause.toList ++ s.refetched })
                (Panel.shows_handleList s.panel answer pick)
            | _ => exact ⟨rfl, rfl⟩
          | file a => simp [fileReply, hb, hcall, hmem] at he
        · exact ⟨rfl, rfl⟩
  | select path =>
    rcases Panel.select_cases s.panel path with heq | hshows
    · simp only [step, heq]
      exact ⟨rfl, rfl⟩
    · exact panel_shows hshows
  | showDir pick => exact panel_shows (Panel.shows_startOver s.panel pick)
  | refresh => exact ⟨rfl, rfl⟩
  | press ready => exact ⟨rfl, rfl⟩

/-- Without `handle_metadata` the lines stay in order, whatever the entries are. -/
theorem inv_other {s : System} {scans : Path → Option ℕ} (h : (s.flowWith scans).Inv) {e : Event}
    (he : fileReply s e = none) : ((step s e).flowWith scans).Inv := by
  cases e with
  | «open» =>
    cases hup : s.up with
    | true =>
      simp only [step, hup, if_true]
      exact h
    | false => exact inv_open h hup
  | drop => exact inv_drop h
  | klippyReady =>
    simp only [step]
    split_ifs
    · exact inv_push h rfl fun hcon => nomatch hcon
    · exact h
  | receive answer => exact inv_receive h answer
  | complete path ok => exact inv_complete h path ok
  | store path known => exact h
  | deliver => exact inv_deliver h
  | drain =>
    simp only [step]
    split_ifs with hb
    · exact h.swap (List.isEmpty_iff.mp hb)
    · exact h
  | next pick =>
    simp only [step]
    cases hb : s.batch with
    | nil => exact h
    | cons m batch =>
      have htail : (({ s with batch := batch } : System).flowWith scans).Inv := h.tail hb
      cases m with
      | connected conn =>
        have hopened : (({ s with
            batch := batch
            panel := { s.panel with opened := s.panel.opened + 1 }
            seen := conn } : System).flowWith scans).Inv := h.connected hb rfl
        exact inv_send hopened fun path => by simp
      | disconnected => exact htail
      | klippyReady => exact inv_send htail fun path => by simp
      | reply r b =>
        simp only [System.handle]
        split_ifs with hmem
        · unfold System.answered
          cases hcall : r.call with
          | objects cause =>
            exact inv_send (s := { s with batch := batch, pending := s.pending.erase r }) htail
              fun path => by simp
          | list cause =>
            cases b with
            | files answer =>
              exact inv_shows
                (s := { s with
                  batch := batch
                  pending := s.pending.erase r
                  refetched := cause.toList ++ s.refetched }) htail
                (Panel.shows_handleList s.panel answer pick)
            | _ => exact htail
          | file a => simp [fileReply, hb, hcall, hmem] at he
        · exact htail
  | select path =>
    rcases Panel.select_cases s.panel path with heq | hshows
    · simp only [step, heq]
      exact h
    · exact inv_shows h hshows
  | showDir pick => exact inv_shows h (Panel.shows_startOver s.panel pick)
  | refresh => exact inv_send h fun path => by simp
  | press ready => exact h

/-- A metadata reply is about to end a hold while a scan of the file is still due. -/
def releasesEarly (s : System) : Event → Bool
  | .next _ =>
    match s.batch with
    | .reply r .found :: _ =>
      match r.call with
      | .file ⟨.metadata, path⟩ => decide (r ∈ s.pending) && s.panel.scanLost path &&
          (!(s.scanning path).isEmpty || s.wire.any (·.scansFile path))
      | _ => false
    | _ => false
  | _ => false

theorem inv_release {s : System} (h : s.flow.Inv) {r : Request} {b : Body} {batch : List Message}
    (hb : s.batch = .reply r b :: batch) {a : Ask} (hcall : r.call = .file a)
    (hsup : s.panel.superseded a.path a.method r.askedOn = false)
    (hearly : a.method = .metadata → b = .found → s.panel.scanLost a.path = true →
      s.scanning a.path = [] ∧ scansOf a.path s.wire = []) :
    ({ s.flow with
      batch := batch
      scans := (s.panel.release a.path a.method (b = .found)).scans } : Flow).Inv := by
  have htail := h.tail hb
  unfold Panel.release
  split_ifs with hrel
  · obtain ⟨t, ht⟩ : ∃ t, s.panel.scans a.path = some t := by
      unfold Panel.released at hrel
      split at hrel
      · exact ⟨_, ‹_›⟩
      · cases hrel
    simp only [Panel.released, ht, Bool.or_eq_true, decide_eq_true_eq, Bool.and_eq_true] at hrel
    by_cases hm : a.method = .metascan
    · -- The reply to the scan the entry waits for is the last of its line.
      have htag : t = r.askedOn := by simpa [Panel.superseded, ht, hm] using hsup
      have hscan : r.scansFile a.path = true := by
        simp only [Request.scansFile, hcall, decide_eq_true_eq, Call.file.injEq]
        rw [← hm]
      have hline := Flow.line_tail (f := s.flow) hb a.path
      rw [show (replyOf (.reply r b)).toList = [r] from rfl, scansOf_single hscan] at hline
      have hlast := h.last a.path
      rw [hline] at hlast
      have hrest : ({ s.flow with batch := batch } : Flow).line a.path = [] := by
        rw [List.eq_nil_iff_forall_not_mem]
        intro x hx
        have hother := (List.pairwise_cons.mp hlast).1 x hx
        exact hother r rfl (ht.trans (congrArg some htag))
      have hparts := hrest
      simp only [Flow.line, List.append_eq_nil_iff] at hparts
      refine htail.release hparts.1.2 hparts.2 ?_
      intro d hd
      rw [hrest] at hd
      cases hd
    · have hmeta : a.method = .metadata := by
        cases hmm : a.method with
        | metadata => rfl
        | metascan => exact absurd hmm hm
      obtain ⟨hfound, hne⟩ := hrel.resolve_left hm
      have hlost : s.panel.scanLost a.path = true := by
        simpa [Panel.scanLost, ht] using hne
      obtain ⟨hs, hw⟩ := hearly hmeta (by simpa using hfound) hlost
      refine htail.release hs hw ?_
      intro d hd hnow
      have hcur := htail.current a.path d hd hnow
      have heq : some t = some s.panel.now := ht.symm.trans hcur
      exact (by simpa using hne : t ≠ s.panel.now) (Option.some.inj heq)
  · exact htail

theorem inv_metadata {s : System} (h : s.flow.Inv) {r : Request} {b : Body} {batch : List Message}
    (hb : s.batch = .reply r b :: batch) {a : Ask} (hcall : r.call = .file a)
    (hearly : a.method = .metadata → b = .found → s.panel.scanLost a.path = true →
      s.scanning a.path = [] ∧ scansOf a.path s.wire = []) (pending : List Request) :
    (({ s with batch := batch, pending := pending } : System).act
      (s.panel.handleMetadata a.path a.method r.askedOn (b = .found))).flow.Inv := by
  have hrelease := fun hsup => inv_release h hb hcall hsup hearly
  have hopened := (Panel.handleMetadata_frame s.panel a.path a.method r.askedOn (b = .found)).1
  have hcases := Panel.handleMetadata_cases s.panel a.path a.method r.askedOn (b = .found)
  generalize s.panel.handleMetadata a.path a.method r.askedOn (b = .found) = out at hopened hcases ⊢
  -- Whatever `scans` became, without a new scan nothing else in the flow moved.
  have hquiet : ∀ scans, ({ s.flow with batch := batch, scans := scans } : Flow).Inv →
      out.1.scans = scans → out.2 = [] →
      (({ s with batch := batch, pending := pending } : System).act out).flow.Inv := by
    intro scans hinv hscans hasks
    unfold System.act
    rw [hasks]
    show ({ s.flow with batch := batch, opened := out.1.opened, scans := out.1.scans } : Flow).Inv
    rw [hopened, hscans]
    exact hinv
  rcases hcases with ⟨_, hscans, _, hasks⟩ | ⟨hsup, _, hscans, _, hasks⟩ |
      ⟨hsup, _, _, hscans, _, hasks⟩ | ⟨hsup, _, hne, hscans, _, hasks⟩
  · exact hquiet _ (h.tail hb) hscans hasks
  · exact hquiet _ (hrelease hsup) hscans hasks
  · exact hquiet _ (hrelease hsup) hscans hasks
  · obtain ⟨new, hflow, hlen, hnew, hasked, hup⟩ := flow_send
      { s with batch := batch, pending := pending, panel := out.1 } (.file ⟨.metascan, a.path⟩)
    unfold System.act
    rw [hasks]
    show (System.send _ _).flow.Inv
    rw [hflow]
    have hask := (hrelease hsup).ask hne hlen hnew (fun r hr => (hasked r hr).trans hopened) hup
    show ({ s.flow with
      batch := batch
      opened := out.1.opened
      scans := out.1.scans
      wire := s.wire ++ new } : Flow).Inv
    rw [hopened, hscans]
    exact hask

theorem inv_step (s : System) (e : Event) (h : s.flow.Inv) (hc : releasesEarly s e = false) :
    (step s e).flow.Inv := by
  cases he : fileReply s e with
  | none =>
    have hother : ((step s e).flowWith s.panel.scans).Inv := inv_other h he
    rw [← (panel_other he).1] at hother
    exact hother
  | some reply =>
    obtain ⟨r, a, b⟩ := reply
    obtain ⟨⟨pick, rfl⟩, ⟨batch, hb⟩, hcall, hmem⟩ := fileReply_next he
    rw [step_fileReply he hb]
    refine inv_metadata h hb hcall ?_ _
    intro hm hfound hlost
    have hcalled : r.call = .file ⟨.metadata, a.path⟩ := by rw [hcall, ← hm]
    subst hfound
    simp only [releasesEarly, hb, hcalled, hmem, hlost, decide_true, Bool.true_and,
      Bool.or_eq_false_iff, Bool.not_eq_false', List.isEmpty_iff] at hc
    refine ⟨hc.1, Flow.scansOf_eq_nil ?_⟩
    intro d hd
    simpa using List.any_eq_false.mp hc.2 d hd

theorem inv_init : System.init.flow.Inv := by
  have hflight : ∀ r, ¬ System.init.flow.InFlight r := by
    rintro r (hr | hr | ⟨path, hr⟩)
    · cases hr
    · cases hr
    · cases hr
  refine ⟨(fun _ _ hr => nomatch hr), fun _ _ => ⟨rfl, rfl⟩, fun _ => List.Pairwise.nil,
    (fun _ _ hr => nomatch hr), ⟨Nat.zero_le _, Nat.zero_le _⟩, trivial, fun r hr =>
      absurd hr (hflight r), ?_,
    fun _ => ⟨rfl, rfl, fun _ _ hr => nomatch hr⟩⟩
  intro r hr
  rcases hr with hr | hr
  · exact absurd hr (hflight r)
  · cases hr

theorem scans_none_of_started {s : System} {e : Event} {path : Path} (h : started s e = some path) :
    s.panel.scans path = none := by
  cases e with
  | press ready =>
    simp only [started] at h
    split_ifs at h
    unfold Panel.handlePrintCallback at h
    split at h
    · split_ifs at h with hfree
      cases h
      simpa using (Bool.and_eq_true_iff.mp hfree).1
    · cases h
  | _ => cases h

/-- In every run without an early release, Print is never sent for a file that
Moonraker is scanning, or has queued for scanning, for this panel. -/
theorem print_waits_for_scans (es : List Event)
    (hc : Run.Along step (fun s e => releasesEarly s e = false) System.init es) :
    Run.Along step (fun s e => ∀ path, started s e = some path → s.scanning path = [])
      System.init es := by
  refine Run.along_of_invariant (I := fun s => s.flow.Inv)
    (C := fun s e => releasesEarly s e = false) inv_step ?_ System.init es inv_init hc
  intro s e hinv _ path hstart
  exact (hinv.held path (scans_none_of_started hstart)).1

-- Metadata is missing, so the file is scanned.
def scanRun : List Event :=
  connect ++ exchange [] none ++
    [.receive [], .press true, .complete stickFile true, .deliver, .drain, .next none, .press true]

theorem print_waits_in_scanRun :
    started (Run.run step System.init scanRun) (.press true) = some stickFile ∧
    Run.Along step (fun s e => ∀ path, started s e = some path → s.scanning path = [])
      System.init scanRun :=
  ⟨by decide +kernel, print_waits_for_scans scanRun (by decide +kernel)⟩

-- Two reconnects while the first scan runs: the second scan is queued behind it,
-- and the first one's metadata turns up on the third connection.
def twoDrops : List Event :=
  connect ++ exchange [] none ++ [.receive [], .drop, .drain, .next none] ++
  connect ++ exchange [] none ++ [.receive [], .drop, .drain, .next none] ++
  connect ++ [.complete stickFile true] ++ exchange [] none

theorem print_sent_with_scan_queued :
    started (Run.run step System.init twoDrops) (.press true) = some stickFile ∧
    (Run.run step System.init twoDrops).scanning stickFile ≠ [] := by
  decide +kernel

end GuppyScreen.PrintPanel
