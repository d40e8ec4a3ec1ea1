import GuppyScreen.PrintPanel.Hold

/-!
# One scan per file and connection

A file is scanned again on the same connection only if the panel has forgotten the
first scan. It remembers it in `scans` while the scan runs and in `unscannable` once it
was refused; a scan that succeeded is remembered by Moonraker. `handle_metadata` drops
the entry of `scans` for every reply, but writes `unscannable` only for the selected
file. Both carry the count of handled Connected events, which is behind the websocket
while such an event waits: a scan asked for then is remembered as an earlier
connection's.
-/

namespace GuppyScreen.PrintPanel
open Lib

/-! ### The lines in every run -/

-- Not the id of any connection.
def noTag : ℕ := 2 ^ 32

/-- The entries with a tag that no scan waits for where there is none. -/
def mask (scans : Path → Option ℕ) : Path → Option ℕ := fun path => some ((scans path).getD noTag)

theorem askedOn_ne_noTag (r : Request) : noTag ≠ r.askedOn := by
  have hlt : r.askedOn < 2 ^ 32 := Nat.mod_lt _ (by decide)
  unfold noTag
  omega

theorem mask_eq_some {scans : Path → Option ℕ} {path : Path} {r : Request} :
    mask scans path = some r.askedOn ↔ scans path = some r.askedOn := by
  unfold mask
  cases scans path with
  | none => simp [askedOn_ne_noTag r]
  | some t => simp

theorem mask_now {scans : Path → Option ℕ} {path : Path} {opened : ℕ} :
    mask scans path = some (connectionId opened) ↔ scans path = some (connectionId opened) :=
  mask_eq_some (r := ⟨0, .objects none, opened, none⟩)

theorem mask_update (scans : Path → Option ℕ) (path : Path) (t : Option ℕ) :
    mask (Function.update scans path t) =
      Function.update (mask scans) path (some (t.getD noTag)) := by
  funext q
  by_cases hq : q = path
  · subst hq
    simp [mask]
  · simp [mask, hq]

theorem Flow.Inv.retag {f : Flow} (h : f.Inv) {path : Path}
    (hold : ∀ r, some r ∈ f.line path → r.askedOn ≠ connectionId f.opened) :
    ({ f with scans := Function.update f.scans path (some noTag) } : Flow).Inv :=
  h.tag (fun r htag => askedOn_ne_noTag r (Option.some.inj htag)) nofun hold

/-- What holds of the lines also after an early release. -/
def Tidy (s : System) : Prop := (s.flowWith (mask s.panel.scans)).Inv

theorem Tidy.last_of_line {s : System} (h : Tidy s) {r : Request} {b : Body}
    {batch : List Message} (hb : s.batch = .reply r b :: batch) {path : Path}
    (hr : r.scansFile path = true) (htag : s.panel.scans path = some r.askedOn) :
    ({ s.flowWith (mask s.panel.scans) with batch := batch } : Flow).line path = [] := by
  have hline := Flow.line_tail (f := s.flowWith (mask s.panel.scans)) hb path
  rw [show (replyOf (.reply r b)).toList = [r] from rfl, scansOf_single hr] at hline
  have hlast := h.last path
  rw [hline] at hlast
  rw [List.eq_nil_iff_forall_not_mem]
  intro x hx
  exact (List.pairwise_cons.mp hlast).1 x hx r rfl (mask_eq_some.mpr htag)

theorem superseded_eq_false {p : Panel} {path : Path} {askedOn : ℕ}
    (h : p.superseded path .metascan askedOn = false) :
    p.scans path = none ∨ p.scans path = some askedOn := by
  unfold Panel.superseded at h
  cases hs : p.scans path with
  | none => exact Or.inl rfl
  | some t =>
    rw [hs] at h
    simp only [decide_true, Bool.true_and, ne_eq, decide_not, Bool.not_eq_false',
      decide_eq_true_eq] at h
    exact Or.inr (congrArg some h)

theorem tidy_release {s : System} (h : Tidy s) {r : Request} {b : Body} {batch : List Message}
    (hb : s.batch = .reply r b :: batch) {a : Ask} (hcall : r.call = .file a)
    (hsup : s.panel.superseded a.path a.method r.askedOn = false) :
    ({ s.flow with
      batch := batch
      scans := mask (s.panel.release a.path a.method (b = .found)).scans } : Flow).Inv := by
  have htail : ({ s.flow with batch := batch, scans := mask s.panel.scans } : Flow).Inv :=
    Flow.Inv.tail h hb
  unfold Panel.release
  split_ifs with hrel
  · rw [mask_update]
    refine htail.retag ?_
    intro d hd hnow
    have hcur := mask_now.mp (htail.current a.path d hd hnow)
    unfold Panel.released at hrel
    rw [hcur] at hrel
    simp only [Bool.or_eq_true, decide_eq_true_eq, Bool.and_eq_true] at hrel
    rcases hrel with hm | ⟨-, hne⟩
    · -- the scan the entry waits for was the last of the line
      rw [hm] at hsup
      have htag : s.panel.scans a.path = some r.askedOn := by
        rcases superseded_eq_false hsup with hnone | htag
        · rw [hcur] at hnone
          cases hnone
        · exact htag
      have hscan : r.scansFile a.path = true := by
        simp only [Request.scansFile, hcall, decide_eq_true_eq, Call.file.injEq]
        rw [← hm]
      have hempty := h.last_of_line hb hscan htag
      have hd' : some d ∈ ({ s.flowWith (mask s.panel.scans)
          with batch := batch } : Flow).line a.path :=
        hd
      rw [hempty] at hd'
      cases hd'
    · exact hne rfl
  · exact htail

theorem tidy_step (s : System) (e : Event) (h : Tidy s) : Tidy (step s e) := by
  cases he : fileReply s e with
  | none =>
    have hother : ((step s e).flowWith (mask s.panel.scans)).Inv := inv_other h he
    rw [← (panel_other he).1] at hother
    exact hother
  | some reply =>
    obtain ⟨r, a, b⟩ := reply
    obtain ⟨-, ⟨batch, hb⟩, hcall, -⟩ := fileReply_next he
    rw [step_fileReply he hb]
    have hrelease := fun hsup => tidy_release h hb hcall hsup
    have hopened := (Panel.handleMetadata_frame s.panel a.path a.method r.askedOn (b = .found)).1
    have hcases := Panel.handleMetadata_cases s.panel a.path a.method r.askedOn (b = .found)
    generalize s.panel.handleMetadata a.path a.method r.askedOn (b = .found) = out
      at hopened hcases ⊢
    have hquiet : ∀ scans, ({ s.flow with batch := batch, scans := mask scans } : Flow).Inv →
        out.1.scans = scans → out.2 = [] →
        Tidy (({ s with batch := batch, pending := s.pending.erase r } : System).act out) := by
      intro scans hinv hscans hasks
      unfold Tidy System.act
      rw [hasks]
      show ({ s.flow with
        batch := batch
        opened := out.1.opened
        scans := mask out.1.scans } : Flow).Inv
      rw [hopened, hscans]
      exact hinv
    rcases hcases with ⟨_, hscans, _, hasks⟩ | ⟨hsup, _, hscans, _, hasks⟩ |
        ⟨hsup, _, _, hscans, _, hasks⟩ | ⟨hsup, _, hne, hscans, _, hasks⟩
    · exact hquiet _ (Flow.Inv.tail h hb) hscans hasks
    · exact hquiet _ (hrelease hsup) hscans hasks
    · exact hquiet _ (hrelease hsup) hscans hasks
    · obtain ⟨new, hflow, hlen, hnew, hasked, hup⟩ := flow_send
        { s with batch := batch, pending := s.pending.erase r, panel := out.1 }
        (.file ⟨.metascan, a.path⟩)
      have hask := (hrelease hsup).ask (fun hnow => hne (mask_now.mp hnow)) hlen hnew
        (fun r hr => (hasked r hr).trans hopened) hup
      unfold Tidy System.act
      rw [hasks]
      show ((System.send _ _).flowWith (mask out.1.scans)).Inv
      rw [System.flowWith, hflow]
      show ({ s.flow with
        batch := batch
        opened := out.1.opened
        scans := mask out.1.scans
        wire := s.wire ++ new } : Flow).Inv
      rw [hopened, hscans, mask_update]
      exact hask

theorem tidy_init : Tidy System.init :=
  ⟨inv_init.own, (fun _ h => nomatch h), fun _ => List.Pairwise.nil, (fun _ _ hr => nomatch hr),
    inv_init.room, inv_init.timely, inv_init.fresh, inv_init.asked, inv_init.down⟩

theorem tidy_run (es : List Event) : Tidy (Run.run step System.init es) :=
  Run.invariant_always tidy_step System.init es tidy_init

/-! ### Replies on their way -/

def replyBody : Message → Option (Request × Body)
  | .reply r b => some (r, b)
  | _ => none

namespace System

/-- The replies in the order they will be handled. -/
def channel (s : System) : List (Request × Body) :=
  (s.batch ++ s.queue).filterMap replyBody ++ s.inbox

/-- What a request carries that is sent from here and reaches the wire. -/
def Tags (s : System) (r : Request) : Prop :=
  r.askedAt = s.panel.opened ∧ r.sentOn = some s.conn ∧ s.up = true

/-- A request that may still be answered. -/
def Out (s : System) (r : Request) : Prop :=
  r ∈ s.channel.map Prod.fst ∨ (∃ path, some r ∈ s.scanning path) ∨ r ∈ s.wire

end System

/-- Replies are lost or handled, requests handed on or lost. -/
structure Loses (s t : System) : Prop where
  stored : t.stored = s.stored
  channel : t.channel.Sublist s.channel
  scanning : ∀ r path, some r ∈ t.scanning path → some r ∈ s.scanning path
  wire : t.wire.Sublist s.wire
  opened : t.panel.opened = s.panel.opened

namespace Loses

theorem refl (s : System) : Loses s s :=
  ⟨rfl, List.Sublist.refl _, fun _ _ h => h, List.Sublist.refl _, rfl⟩

theorem trans {s t u : System} (h : Loses s t) (k : Loses t u) : Loses s u where
  stored := k.stored.trans h.stored
  channel := k.channel.trans h.channel
  scanning := fun r path hr => h.scanning r path (k.scanning r path hr)
  wire := k.wire.trans h.wire
  opened := k.opened.trans h.opened

theorem out {s t : System} (h : Loses s t) {r : Request} (hr : t.Out r) : s.Out r := by
  rcases hr with hr | ⟨path, hr⟩ | hr
  · exact Or.inl ((h.channel.map _).subset hr)
  · exact Or.inr (Or.inl ⟨path, h.scanning r path hr⟩)
  · exact Or.inr (Or.inr (h.wire.subset hr))

theorem push (s : System) {m : Message} (hm : replyBody m = none) : Loses s (s.push m) := by
  have hqueue : (if s.queue.length ≥ queueMax then s.queue.tail else s.queue).Sublist s.queue := by
    split_ifs
    · exact List.tail_sublist _
    · exact List.Sublist.refl _
  refine ⟨rfl, ?_, fun _ _ h => h, List.Sublist.refl _, rfl⟩
  unfold System.channel System.push
  simp only [List.filterMap_append, List.filterMap_cons, hm, List.filterMap_nil, List.append_nil]
  exact ((hqueue.filterMap _).append_left _).append_right _

theorem pop {s : System} {m : Message} {batch : List Message} (hb : s.batch = m :: batch) :
    Loses s { s with batch := batch } := by
  refine ⟨rfl, ?_, fun _ _ h => h, List.Sublist.refl _, rfl⟩
  unfold System.channel
  rw [hb]
  exact (((List.sublist_cons_self m batch).append_right _).filterMap _).append_right _

theorem drop (s : System) : Loses s (step s .drop) := by
  simp only [step]
  split_ifs
  · have hdown : Loses s { s with
        up := false
        wire := []
        inbox := []
        scanning := fun path => (s.scanning path).map fun _ => none } := by
      refine ⟨rfl, (List.nil_sublist _).append_left _, ?_, List.nil_sublist _, rfl⟩
      intro r path hr
      simp at hr
    exact hdown.trans (push _ rfl)
  · exact refl s

theorem deliver (s : System) : Loses s (step s .deliver) := by
  simp only [step]
  cases hin : s.inbox with
  | nil => exact refl s
  | cons x inbox =>
    obtain ⟨r, b⟩ := x
    have hqueue : (if s.queue.length ≥ queueMax then s.queue.tail else s.queue).Sublist
        s.queue := by
      split_ifs
      · exact List.tail_sublist _
      · exact List.Sublist.refl _
    refine ⟨rfl, ?_, fun _ _ h => h, List.Sublist.refl _, rfl⟩
    unfold System.channel System.push
    rw [hin]
    simp only [List.filterMap_append, List.filterMap_cons, replyBody, List.filterMap_nil,
      List.append_assoc, List.singleton_append]
    exact ((hqueue.filterMap _).append_right _).append_left _

theorem drain (s : System) : Loses s (step s .drain) := by
  simp only [step]
  split_ifs with hb
  · refine ⟨rfl, ?_, fun _ _ h => h, List.Sublist.refl _, rfl⟩
    simp [System.channel, List.isEmpty_iff.mp hb]
  · exact refl s

end Loses

/-- What a step does to the requests and their replies: replies are handled or lost,
at most one is added, and `new` are the requests that went out. -/
structure Moves (path : Path) (s t : System) (new : List Request) : Prop where
  stored : s.stored path = true → t.stored path = true
  channel : ∃ more : List (Request × Body), t.channel.Sublist (s.channel ++ more) ∧
    more.length ≤ 1 ∧ ∀ x ∈ more,
      (x.1.call = .file ⟨.metadata, path⟩ → s.stored path = true → x.2 = .found) ∧
      (x.1.scansFile path = true → x.2 = .found → t.stored path = true)
  out : ∀ r, t.Out r → s.Out r ∨ r ∈ new
  wire : ∃ old : List Request, old.Sublist s.wire ∧ t.wire = old ++ new
  opened : s.panel.opened ≤ t.panel.opened

namespace Moves

variable {path : Path} {s t : System} {new : List Request}

theorem of_loses (path : Path) (h : Loses s t) : Moves path s t [] where
  stored := by
    rw [h.stored]
    exact id
  channel := ⟨[], by simpa using h.channel, by simp, by simp⟩
  out := fun r hr => Or.inl (h.out hr)
  wire := ⟨t.wire, h.wire, by simp⟩
  opened := Nat.le_of_eq h.opened.symm

theorem answer (more : List (Request × Body)) (hlen : more.length ≤ 1)
    (hinbox : t.inbox = s.inbox ++ more) (hbatch : t.batch = s.batch) (hqueue : t.queue = s.queue)
    (hmore : ∀ x ∈ more,
      (x.1.call = .file ⟨.metadata, path⟩ → s.stored path = true → x.2 = .found) ∧
      (x.1.scansFile path = true → x.2 = .found → t.stored path = true))
    (hstored : s.stored path = true → t.stored path = true) (hout : ∀ r, t.Out r → s.Out r)
    (hwire : t.wire.Sublist s.wire)
    (hopened : t.panel.opened = s.panel.opened) : Moves path s t [] where
  stored := hstored
  channel := by
    refine ⟨more, ?_, hlen, hmore⟩
    unfold System.channel
    rw [hbatch, hqueue, hinbox, List.append_assoc]
  out := fun r hr => Or.inl (hout r hr)
  wire := ⟨t.wire, hwire, by simp⟩
  opened := Nat.le_of_eq hopened.symm

theorem frame {u : System} (h : Moves path s t new) (hstored : u.stored = t.stored)
    (hbatch : u.batch = t.batch) (hqueue : u.queue = t.queue) (hinbox : u.inbox = t.inbox)
    (hscanning : u.scanning = t.scanning) (hwire : u.wire = t.wire)
    (hopened : t.panel.opened ≤ u.panel.opened) : Moves path s u new := by
  have hchannel : u.channel = t.channel := by
    unfold System.channel
    rw [hbatch, hqueue, hinbox]
  refine ⟨?_, ?_, ?_, ?_, Nat.le_trans h.opened hopened⟩
  · rw [hstored]
    exact h.stored
  · rw [hchannel, hstored]
    exact h.channel
  · intro r hr
    refine h.out r ?_
    unfold System.Out at hr ⊢
    rwa [hchannel, hscanning, hwire] at hr
  · rw [hwire]
    exact h.wire

theorem send (h : Moves path s t new) (c : Call) : ∃ more : List Request,
    Moves path s (t.send c) (new ++ more) ∧ more.length ≤ 1 ∧ ∀ r ∈ more, r.call = c ∧
      t.Tags r := by
  cases hup : t.up with
  | false =>
    refine ⟨[], ?_, by simp, by simp⟩
    refine ⟨h.stored, h.channel, ?_, ?_, h.opened⟩
    · intro r hr
      rw [List.append_nil]
      refine h.out r ?_
      simpa [System.Out, System.channel, System.send, hup] using hr
    · simpa [System.send, hup] using h.wire
  | true =>
    refine ⟨[⟨t.nextId, c, t.panel.opened, some t.conn⟩], ?_, by simp, ?_⟩
    · refine ⟨h.stored, h.channel, ?_, ?_, h.opened⟩
      · intro r hr
        have hr' : t.Out r ∨ r = ⟨t.nextId, c, t.panel.opened, some t.conn⟩ := by
          simp only [System.Out, System.channel, System.send, hup, if_true, List.mem_append,
            List.mem_singleton] at hr ⊢
          tauto
        rcases hr' with hr' | rfl
        · exact (h.out r hr').imp_right fun hr => List.mem_append_left _ hr
        · exact Or.inr (List.mem_append_right _ (List.mem_singleton_self _))
      · obtain ⟨old, hold, hwire⟩ := h.wire
        refine ⟨old, hold, ?_⟩
        simp [System.send, hup, hwire]
    · intro r hr
      rw [List.mem_singleton.mp hr]
      exact ⟨rfl, rfl, rfl, hup⟩

theorem asks (h : Moves path s t new) (asks : List Ask) : ∃ more : List Request,
    Moves path s (asks.foldl (fun s a => s.send (.file a)) t) (new ++ more) ∧
      more.length ≤ asks.length ∧
      ∀ r ∈ more, (∃ a ∈ asks, r.call = .file a) ∧ t.Tags r := by
  induction asks generalizing t new with
  | nil => exact ⟨[], by simpa using h, by simp, by simp⟩
  | cons a asks ih =>
    obtain ⟨one, hone, hlen, hcall⟩ := h.send (.file a)
    obtain ⟨more, hmore, hmorelen, hmorecall⟩ := ih hone
    refine ⟨one ++ more, ?_, ?_, ?_⟩
    · rw [← List.append_assoc]
      exact hmore
    · simp only [List.length_append, List.length_cons]
      omega
    · intro r hr
      rcases List.mem_append.mp hr with hr | hr
      · exact ⟨⟨a, List.mem_cons_self .., (hcall r hr).1⟩, (hcall r hr).2⟩
      · obtain ⟨⟨d, hd, hdcall⟩, htags⟩ := hmorecall r hr
        exact ⟨⟨d, List.mem_cons_of_mem _ hd, hdcall⟩, htags⟩

theorem act (h : Moves path s t []) (out : Panel × List Ask)
    (hopened : out.1.opened = t.panel.opened) : ∃ more : List Request,
    Moves path s (t.act out) more ∧ more.length ≤ out.2.length ∧
      ∀ r ∈ more, (∃ a ∈ out.2, r.call = .file a) ∧ t.Tags r := by
  have hpanel : Moves path s { t with panel := out.1 } [] :=
    h.frame rfl rfl rfl rfl rfl rfl (Nat.le_of_eq hopened.symm)
  obtain ⟨more, hmore, hlen, hcall⟩ := hpanel.asks out.2
  refine ⟨more, hmore, hlen, ?_⟩
  intro r hr
  obtain ⟨hask, hat, hon, hup⟩ := hcall r hr
  exact ⟨hask, hat.trans hopened, hon, hup⟩

/-! ### Every event -/

theorem receive (path : Path) (s : System) (answer : List (Path × ℕ)) :
    Moves path s (s.receive answer) [] := by
  unfold System.receive
  cases hw : s.wire with
  | nil => exact of_loses path (.refl s)
  | cons r wire =>
    have hsub : wire.Sublist s.wire := by
      rw [hw]
      exact List.sublist_cons_self r wire
    -- the request moves from the wire to the replies or to the scans
    have hanswer : ∀ b : Body, (r.call = .file ⟨.metadata, path⟩ → s.stored path = true →
      b = .found) →
        (r.scansFile path = true → b ≠ .found) →
        Moves path s { s with wire := wire, inbox := s.inbox ++ [(r, b)] } [] := by
      intro b hfound hscan
      refine Moves.answer [(r, b)] (by simp) rfl rfl rfl ?_ id ?_ hsub rfl
      · intro x hx
        rw [List.mem_singleton.mp hx]
        exact ⟨hfound, fun hs hf => absurd hf (hscan hs)⟩
      · intro d hd
        have hd' : s.Out d ∨ d = r := by
          simp only [System.Out, System.channel, List.map_append, List.mem_append, List.map_cons,
            List.map_nil, hw, List.mem_cons] at hd ⊢
          tauto
        rcases hd' with hd' | rfl
        · exact hd'
        · refine Or.inr (Or.inr ?_)
          rw [hw]
          exact List.mem_cons_self
    dsimp only
    cases hcall : r.call with
    | objects cause => exact hanswer .done (by simp [hcall]) (by simp [Request.scansFile, hcall])
    | list cause =>
      exact hanswer (.files answer) (by simp [hcall]) (by simp [Request.scansFile, hcall])
    | file a =>
      obtain ⟨method, q⟩ := a
      cases method with
      | metadata =>
        refine hanswer _ ?_ (by simp [Request.scansFile, hcall])
        intro he hstored
        have hq : q = path := by simpa [hcall] using he
        simp [hq, hstored]
      | metascan =>
        refine Moves.answer [] (by simp) (by simp) rfl rfl (by simp) id ?_ hsub rfl
        rintro d (hd | ⟨p, hd⟩ | hd)
        · exact Or.inl hd
        · by_cases hp : p = q
          · subst hp
            simp only [Function.update_self, List.mem_append, List.mem_singleton,
              Option.some.injEq] at hd
            rcases hd with hd | rfl
            · exact Or.inr (Or.inl ⟨p, hd⟩)
            · refine Or.inr (Or.inr ?_)
              rw [hw]
              exact List.mem_cons_self
          · simp only [Function.update_of_ne hp] at hd
            exact Or.inr (Or.inl ⟨p, hd⟩)
        · exact Or.inr (Or.inr (hsub.subset hd))

theorem complete (path : Path) {s : System} (h : Tidy s) (q : Path) (ok : Bool) :
    Moves path s (s.complete q ok) [] := by
  unfold System.complete
  cases hs : s.scanning q with
  | nil => exact of_loses path (.refl s)
  | cons scan rest =>
    have hown : ∀ r, scan = some r → r.scansFile q = true := by
      rintro r rfl
      refine h.own q r ?_
      show some r ∈ s.scanning q
      rw [hs]
      exact List.mem_cons_self
    refine Moves.answer (scan.toList.map fun r => (r, if ok then .found else .missing))
      ?_ rfl rfl rfl ?_ ?_ ?_ (List.Sublist.refl _) rfl
    · cases scan <;> simp
    · intro x hx
      obtain ⟨r, hr, rfl⟩ := List.mem_map.mp hx
      have hscan := hown r (Option.mem_toList.mp hr)
      simp only [Request.scansFile, decide_eq_true_eq] at hscan
      refine ⟨by simp [hscan], ?_⟩
      intro hpath hfound
      have hq : q = path := by simpa [Request.scansFile, hscan] using hpath
      have hok : ok = true := by
        cases ok with
        | true => rfl
        | false => simp at hfound
      simp [hok, hq]
    · intro hstored
      show (if ok then Function.update s.stored q true else s.stored) path = true
      split_ifs
      · by_cases hq : path = q
        · simp [hq]
        · simpa [hq] using hstored
      · exact hstored
    · rintro r (hr | ⟨p, hr⟩ | hr)
      · have hr' : r ∈ s.channel.map Prod.fst ∨ r ∈ scan.toList := by
          simp only [System.channel, List.map_append, List.mem_append, List.map_map] at hr ⊢
          rcases hr with hr | hr | hr
          · exact Or.inl (Or.inl hr)
          · exact Or.inl (Or.inr hr)
          · right
            obtain ⟨d, hd, rfl⟩ := List.mem_map.mp hr
            exact hd
        rcases hr' with hr' | hr'
        · exact Or.inl hr'
        · refine Or.inr (Or.inl ⟨q, ?_⟩)
          rw [hs, Option.mem_toList.mp hr']
          exact List.mem_cons_self
      · refine Or.inr (Or.inl ⟨p, ?_⟩)
        by_cases hp : p = q
        · subst hp
          simp only [Function.update_self] at hr
          rw [hs]
          exact List.mem_cons_of_mem _ hr
        · simpa only [Function.update_of_ne hp] using hr
      · exact Or.inr (Or.inr hr)

theorem shows {path : Path} {s t : System} (h : Moves path s t []) {out : Panel × List Ask}
    (hout : t.panel.Shows out) : ∃ new, Moves path s (t.act out) new ∧
      ∀ r ∈ new, ∀ q, r.scansFile q = false := by
  obtain ⟨new, hmoves, -, hcall⟩ := h.act out (congrArg Panel.Hold.opened hout.hold)
  refine ⟨new, hmoves, ?_⟩
  intro r hr q
  obtain ⟨⟨a, ha, hra⟩, -⟩ := hcall r hr
  have hmethod := hout.metadata a ha
  simp only [Request.scansFile, hra, Call.file.injEq, decide_eq_false_iff_not]
  rintro rfl
  cases hmethod

theorem quiet {path : Path} {s t : System} (h : Moves path s t []) :
    ∃ new, Moves path s t new ∧ ∀ r ∈ new, ∀ q, r.scansFile q = false :=
  ⟨[], h, by simp⟩

theorem request {path : Path} {s t : System} (h : Moves path s t []) {c : Call}
    (hc : ∀ q, c ≠ .file ⟨.metascan, q⟩) :
    ∃ new, Moves path s (t.send c) new ∧ ∀ r ∈ new, ∀ q, r.scansFile q = false := by
  obtain ⟨new, hmoves, -, hcall⟩ := h.send c
  refine ⟨new, hmoves, ?_⟩
  intro r hr q
  simp [Request.scansFile, (hcall r hr).1, hc q]

end Moves

/-- Without `handle_metadata` no scan is asked for. -/
theorem moves_other {path : Path} {s : System} (h : Tidy s) {e : Event}
    (he : fileReply s e = none) (hkeep : e ≠ .store path false) :
    ∃ new, Moves path s (step s e) new ∧ ∀ r ∈ new, ∀ q, r.scansFile q = false := by
  cases e with
  | «open» =>
    simp only [step]
    split_ifs
    · exact (Moves.of_loses path (.refl s)).quiet
    · have hup : Loses s { s with conn := s.conn + 1, up := true } :=
        ⟨rfl, List.Sublist.refl _, fun _ _ hr => hr, List.Sublist.refl _, rfl⟩
      exact (Moves.of_loses path (hup.trans (.push _ rfl))).quiet
  | drop => exact (Moves.of_loses path (.drop s)).quiet
  | klippyReady =>
    simp only [step]
    split_ifs
    · exact (Moves.of_loses path (.push s rfl)).quiet
    · exact (Moves.of_loses path (.refl s)).quiet
  | receive answer => exact (Moves.receive path s answer).quiet
  | complete q ok => exact (Moves.complete path h q ok).quiet
  | store q known =>
    have hstored : s.stored path = true → Function.update s.stored q known path = true := by
      intro hs
      by_cases hq : path = q
      · subst hq
        cases known with
        | true => simp
        | false => exact absurd rfl hkeep
      · simpa [hq] using hs
    exact Moves.quiet ⟨hstored, ⟨[], by simp [step, System.channel], by simp, by simp⟩,
      fun r hr => Or.inl hr, ⟨s.wire, List.Sublist.refl _, by simp [step]⟩, Nat.le_refl _⟩
  | deliver => exact (Moves.of_loses path (.deliver s)).quiet
  | drain => exact (Moves.of_loses path (.drain s)).quiet
  | next pick =>
    simp only [step]
    cases hb : s.batch with
    | nil => exact (Moves.of_loses path (.refl s)).quiet
    | cons m batch =>
      have hpop : Moves path s { s with batch := batch } [] := .of_loses path (.pop hb)
      cases m with
      | connected conn =>
        have hconn : Moves path s { s with
            batch := batch
            panel := { s.panel with opened := s.panel.opened + 1 }
            seen := conn } [] :=
          hpop.frame rfl rfl rfl rfl rfl rfl (Nat.le_succ _)
        exact hconn.request (by simp)
      | disconnected => exact hpop.quiet
      | klippyReady => exact hpop.request (by simp)
      | reply r b =>
        simp only [System.handle]
        split_ifs with hmem
        · have htaken : Moves path s
              { s with batch := batch, pending := s.pending.erase r } [] :=
            hpop.frame rfl rfl rfl rfl rfl rfl (Nat.le_refl _)
          unfold System.answered
          cases hcall : r.call with
          | objects cause => exact htaken.request (by simp)
          | list cause =>
            cases b with
            | files answer =>
              have hlisted : Moves path s
                  { s with
                    batch := batch
                    pending := s.pending.erase r
                    refetched := cause.toList ++ s.refetched } [] :=
                hpop.frame rfl rfl rfl rfl rfl rfl (Nat.le_refl _)
              exact hlisted.shows (Panel.shows_handleList s.panel answer pick)
            | _ => exact htaken.quiet
          | file a => simp [fileReply, hb, hcall, hmem] at he
        · exact hpop.quiet
  | select q =>
    rcases Panel.select_cases s.panel q with heq | hshows
    · simp only [step, heq]
      exact (Moves.of_loses path (.refl s)).quiet
    · exact (Moves.of_loses path (.refl s)).shows hshows
  | showDir pick =>
    exact (Moves.of_loses path (.refl s)).shows (Panel.shows_startOver s.panel pick)
  | refresh => exact (Moves.of_loses path (.refl s)).request (by simp)
  | press ready => exact (Moves.of_loses path (.refl s)).quiet

theorem moves_file (path : Path) {s : System} {e : Event} {r : Request} {a : Ask} {b : Body}
    (he : fileReply s e = some (r, a, b)) {batch : List Message}
    (hb : s.batch = .reply r b :: batch) :
    ∃ new, Moves path { s with batch := batch } (step s e) new ∧
      new.length ≤ (s.panel.handleMetadata a.path a.method r.askedOn (b = .found)).2.length ∧
      ∀ d ∈ new, s.Tags d ∧
        ∃ k ∈ (s.panel.handleMetadata a.path a.method r.askedOn (b = .found)).2,
          d.call = .file k := by
  have htaken : Moves path { s with batch := batch }
      { s with batch := batch, pending := s.pending.erase r } [] :=
    (Moves.of_loses path (.refl _)).frame rfl rfl rfl rfl rfl rfl (Nat.le_refl _)
  rw [step_fileReply he hb]
  obtain ⟨new, hmoves, hlen, hcall⟩ := htaken.act _
    (Panel.handleMetadata_frame s.panel a.path a.method r.askedOn (b = .found)).1
  exact ⟨new, hmoves, hlen, fun d hd => ⟨(hcall d hd).2, (hcall d hd).1⟩⟩

/-! ### What a reply about a file asks for -/

namespace Panel

theorem handleMetadata_found (p : Panel) (path : Path) (method : Method) (askedOn : ℕ) :
    (p.handleMetadata path method askedOn true).2 = [] ∧
      (p.handleMetadata path method askedOn true).1.unscannable = p.unscannable := by
  have hun := (release_frame p path method true).2.1
  unfold handleMetadata
  dsimp only
  split_ifs
  · exact ⟨rfl, rfl⟩
  · exact ⟨rfl, hun⟩
  · exact ⟨rfl, hun⟩
  · contradiction

theorem handleMetadata_superseded {p : Panel} {path : Path} {method : Method} {askedOn : ℕ}
    (h : p.superseded path method askedOn = true) (found : Bool) :
    p.handleMetadata path method askedOn found = (p, []) := by
  unfold handleMetadata
  rw [if_pos h]

theorem superseded_metadata (p : Panel) (path : Path) (askedOn : ℕ) :
    p.superseded path .metadata askedOn = false := by
  unfold superseded
  split <;> simp

theorem handleMetadata_known {p : Panel} {path : Path}
    (h : p.unscannable path = some p.now ∨ p.scans path = some p.now) (askedOn : ℕ) :
    (p.handleMetadata path .metadata askedOn false).2 = [] ∧
      (p.handleMetadata path .metadata askedOn false).1.unscannable = p.unscannable ∧
      (p.handleMetadata path .metadata askedOn false).1.scans = p.scans := by
  have hrelease : p.release path .metadata false = p := by
    unfold release released
    split <;> simp
  unfold handleMetadata
  rw [superseded_metadata, hrelease]
  dsimp only
  simp only [Bool.false_eq_true, if_false]
  split_ifs
  · exact ⟨rfl, rfl, rfl⟩
  · have hmark : p.markUnscannable path .metadata askedOn = p := by simp [markUnscannable]
    rw [hmark]
    rcases missed_cases p path with ⟨-, hhold, hasks⟩ | ⟨hu, hs, -, -⟩
    · exact ⟨hasks, congrArg Hold.unscannable hhold, congrArg Hold.scans hhold⟩
    · exact absurd h (by simp [hu, hs])

theorem handleMetadata_scanning {p : Panel} {path : Path} (h : p.scans path = some p.now)
    (askedOn : ℕ) (found : Bool) :
    (p.handleMetadata path .metadata askedOn found).2 = [] ∧
      (p.handleMetadata path .metadata askedOn found).1.scans = p.scans := by
  cases found with
  | false =>
    obtain ⟨hasks, -, hscans⟩ := handleMetadata_known (Or.inr h) askedOn
    exact ⟨hasks, hscans⟩
  | true =>
    refine ⟨(handleMetadata_found p path .metadata askedOn).1, ?_⟩
    have hrelease : p.release path .metadata true = p := by
      unfold release released
      rw [h]
      simp
    unfold handleMetadata
    rw [superseded_metadata, hrelease]
    dsimp only
    simp only [Bool.false_eq_true, if_false, if_true]
    split_ifs <;> rfl

theorem handleMetadata_refused {p : Panel} {path : Path} {askedOn : ℕ}
    (hsup : p.superseded path .metascan askedOn = false) (hnow : askedOn = p.now)
    (hcur : p.curFile = some path) :
    (p.handleMetadata path .metascan askedOn false).2 = [] ∧
      (p.handleMetadata path .metascan askedOn false).1.unscannable path = some askedOn := by
  obtain ⟨hopened, -, hsel⟩ := release_frame p path .metascan false
  have hmark := markUnscannable_frame (p.release path .metascan false) path .metascan askedOn
  have hset : ((p.release path .metascan false).markUnscannable path .metascan askedOn).unscannable
      path = some askedOn := by
    simp [markUnscannable]
  have hnow' : ((p.release path .metascan false).markUnscannable path .metascan askedOn).now =
      p.now :=
    congrArg connectionId (hmark.1.trans hopened)
  unfold handleMetadata
  rw [hsup]
  dsimp only
  simp only [Bool.false_eq_true, if_false]
  rw [if_neg (by simp [hsel, hcur])]
  rcases missed_cases ((p.release path .metascan false).markUnscannable path .metascan askedOn) path
    with ⟨-, hhold, hasks⟩ | ⟨hu, -, -, -⟩
  · refine ⟨hasks, ?_⟩
    have hun := congrArg Hold.unscannable hhold
    rw [show (missed _ path).1.unscannable = _ from hun]
    exact hset
  · rw [hset, hnow', hnow] at hu
    exact absurd rfl hu

theorem handleMetadata_others (p : Panel) {path q : Path} (hq : q ≠ path) (method : Method)
    (askedOn : ℕ) (found : Bool) :
    (p.handleMetadata path method askedOn found).1.scans q = p.scans q ∧
      (p.handleMetadata path method askedOn found).1.unscannable q = p.unscannable q ∧
      ∀ k ∈ (p.handleMetadata path method askedOn found).2, k.path = path := by
  have hrelease : (p.release path method found).scans q = p.scans q := by
    unfold release
    split_ifs
    · exact Function.update_of_ne hq ..
    · rfl
  have hmark : (p.markUnscannable path method askedOn).unscannable q = p.unscannable q := by
    unfold markUnscannable
    split_ifs
    · exact Function.update_of_ne hq ..
    · rfl
  rcases handleMetadata_cases p path method askedOn found with ⟨-, hs, hu, ha⟩ |
    ⟨-, -, hs, hu, ha⟩ |
      ⟨-, -, -, hs, hu, ha⟩ | ⟨-, -, -, hs, hu, ha⟩
  · rw [hs, hu, ha]
    exact ⟨rfl, rfl, by simp⟩
  · rw [hs, hu, ha]
    exact ⟨hrelease, rfl, by simp⟩
  · rw [hs, hu, ha]
    exact ⟨hrelease, hmark, by simp⟩
  · rw [hs, hu, ha]
    exact ⟨(Function.update_of_ne hq ..).trans hrelease, hmark, by simp⟩

end Panel

/-! ### How a scan is remembered -/

/-- Behind the found reply of the scan tagged `tag` no metadata is missing. -/
structure Backed (path : Path) (tag : ℕ) (s : System) : Prop where
  ordered : s.channel.Pairwise fun x y => x.1.scansFile path = true → x.1.askedOn = tag →
    x.2 = .found → y.1.call = .file ⟨.metadata, path⟩ → y.2 = .found
  stored : ∀ x ∈ s.channel, x.1.scansFile path = true → x.1.askedOn = tag → x.2 = .found →
    s.stored path = true

/-- Moonraker has the metadata, and nothing on its way says otherwise. -/
structure Calm (path : Path) (s : System) : Prop where
  stored : s.stored path = true
  found : ∀ x ∈ s.channel, x.1.call = .file ⟨.metadata, path⟩ → x.2 = .found

def Settled (path : Path) (s : System) : Prop := ∀ r, r.scansFile path = true → ¬ s.Out r

section
variable {path : Path} {tag : ℕ} {s t : System} {new : List Request}

theorem Backed.moves (h : Backed path tag s) (hm : Moves path s t new) : Backed path tag t := by
  obtain ⟨more, hsub, hlen, hmore⟩ := hm.channel
  constructor
  · refine List.Pairwise.sublist hsub (List.pairwise_append.mpr ⟨h.ordered, ?_, ?_⟩)
    · cases more with
      | nil => exact List.Pairwise.nil
      | cons x rest =>
        have hrest : rest = [] := List.eq_nil_of_length_eq_zero (by simpa using hlen)
        rw [hrest]
        exact List.pairwise_singleton _ _
    · intro x hx y hy hscan htag hfound hmeta
      exact (hmore y hy).1 hmeta (h.stored x hx hscan htag hfound)
  · intro x hx hscan htag hfound
    rcases List.mem_append.mp (hsub.subset hx) with hx | hx
    · exact hm.stored (h.stored x hx hscan htag hfound)
    · exact (hmore x hx).2 hscan hfound

theorem Calm.moves (h : Calm path s) (hm : Moves path s t new) : Calm path t := by
  obtain ⟨more, hsub, -, hmore⟩ := hm.channel
  refine ⟨hm.stored h.stored, ?_⟩
  intro x hx hmeta
  rcases List.mem_append.mp (hsub.subset hx) with hx | hx
  · exact h.found x hx hmeta
  · exact (hmore x hx).1 hmeta h.stored

theorem Settled.moves (h : Settled path s) (hm : Moves path s t new)
    (hnew : ∀ r ∈ new, r.scansFile path = false) : Settled path t := by
  intro r hr hout
  rcases hm.out r hout with hout | hin
  · exact h r hr hout
  · rw [hnew r hin] at hr
    cases hr

end

/-- The scan that was asked for under count `n` of connections is running, or over
with a refusal or its metadata to show for it. -/
inductive Remembers (path : Path) (n : ℕ) (s : System) : Prop where
  | past (h : n < s.panel.opened)
  | running (hn : s.panel.opened = n) (hentry : s.panel.scans path = some (connectionId n))
      (hbacked : Backed path (connectionId n) s)
  | refused (hn : s.panel.opened = n) (hover : Settled path s)
      (hentry : s.panel.unscannable path = some (connectionId n))
  | scanned (hn : s.panel.opened = n) (hover : Settled path s) (hcalm : Calm path s)

theorem Remembers.moves {path : Path} {n : ℕ} {s t : System} {new : List Request}
    (h : Remembers path n s) (hm : Moves path s t new)
    (hnew : ∀ r ∈ new, r.scansFile path = false) (hscans : t.panel.scans path = s.panel.scans path)
    (hun : t.panel.unscannable path = s.panel.unscannable path) : Remembers path n t := by
  have hle := hm.opened
  by_cases hopened : n < t.panel.opened
  · exact .past hopened
  · cases h with
    | past h => omega
    | running hn hentry hbacked =>
      exact .running (by omega) (hscans.trans hentry) (hbacked.moves hm)
    | refused hn hover hentry =>
      exact .refused (by omega) (hover.moves hm hnew) (hun.trans hentry)
    | scanned hn hover hcalm => exact .scanned (by omega) (hover.moves hm hnew) (hcalm.moves hm)

/-! ### Steps -/

/-- The requests a step sends. No step both sends and takes from the wire. -/
def sent (s : System) (e : Event) : List Request := (step s e).wire.drop s.wire.length

/-- The scans of a file that a step asks for under count `n` of connections. -/
def scansSent (path : Path) (n : ℕ) (s : System) (e : Event) : ℕ :=
  (sent s e).countP fun r => r.scansFile path && r.askedAt = n

/-- The scans of a file that a step asks for on connection `conn`. -/
def scansOn (path : Path) (conn : ℕ) (s : System) (e : Event) : ℕ :=
  (sent s e).countP fun r => r.scansFile path && r.sentOn = some conn

/-- A scan asked for on this connection is refused while another file is selected. -/
def forgetsRefusal (path : Path) (s : System) (e : Event) : Bool :=
  match fileReply s e with
  | some (r, a, b) => a = ⟨.metascan, path⟩ && b ≠ .found && s.panel.scans path = some r.askedOn &&
      r.askedOn = s.panel.now && s.panel.curFile ≠ some path
  | none => false

/-- A reply without a result that has the selected file scanned. -/
def Panel.rescans (p : Panel) (path : Path) (method : Method) (askedOn : ℕ) : Bool :=
  p.curFile = some path && !p.superseded path method askedOn &&
    match method with
    | .metadata => p.unscannable path ≠ some p.now && p.scans path ≠ some p.now
    | .metascan => askedOn ≠ p.now

/-- A scan is asked for while the Connected event of its connection still waits. -/
def asksEarly (path : Path) (s : System) (e : Event) : Bool :=
  match fileReply s e with
  | some (r, a, b) => a.path = path && b ≠ .found && s.up &&
      s.panel.rescans path a.method r.askedOn && (s.batch.tail ++ s.queue).any isConnected
  | none => false

theorem sent_sublist {s : System} {e : Event} {new : List Request}
    (h : ∃ old : List Request, old.Sublist s.wire ∧ (step s e).wire = old ++ new) :
    (sent s e).Sublist new := by
  obtain ⟨old, hold, hwire⟩ := h
  unfold sent
  rw [hwire, List.drop_append, List.drop_eq_nil_of_le hold.length_le, List.nil_append]
  exact List.drop_sublist _ _

theorem scansSent_eq_zero {path : Path} {n : ℕ} {s : System} {e : Event} {new : List Request}
    (h : ∃ old : List Request, old.Sublist s.wire ∧ (step s e).wire = old ++ new)
    (hnew : ∀ r ∈ new, r.scansFile path = true → r.askedAt ≠ n) : scansSent path n s e = 0 := by
  unfold scansSent
  rw [List.countP_eq_zero]
  intro r hr
  have hmem : r ∈ new := (sent_sublist h).subset hr
  simpa using hnew r hmem

theorem channel_pop {s : System} {r : Request} {b : Body} {batch : List Message}
    (hb : s.batch = .reply r b :: batch) :
    s.channel = (r, b) :: ({ s with batch := batch } : System).channel := by
  unfold System.channel
  rw [hb]
  rfl

theorem line_of_out {s : System} (scans : Path → Option ℕ)
    (hown : ∀ q r, some r ∈ s.scanning q → r.scansFile q = true) {path : Path} {r : Request}
    (hr : r.scansFile path = true) (hout : s.Out r) : some r ∈ (s.flowWith scans).line path := by
  refine Flow.mem_line.mpr ?_
  rcases hout with hout | ⟨q, hout⟩ | hout
  · obtain ⟨x, hx, rfl⟩ := List.mem_map.mp hout
    rcases List.mem_append.mp hx with hx | hx
    · refine Or.inl ⟨?_, hr⟩
      obtain ⟨m, hm, hmx⟩ := List.mem_filterMap.mp hx
      refine List.mem_filterMap.mpr ⟨m, hm, ?_⟩
      cases m with
      | reply d c =>
        simp only [replyBody, Option.some.injEq] at hmx
        rw [← hmx]
        rfl
      | connected c => cases hmx
      | disconnected => cases hmx
      | klippyReady => cases hmx
    · exact Or.inr (Or.inl ⟨List.mem_map_of_mem hx, hr⟩)
  · have hq := hown q r hout
    simp only [Request.scansFile, decide_eq_true_eq] at hq hr
    have heq : q = path := by simpa [hq] using hr
    subst heq
    exact Or.inr (Or.inr (Or.inl hout))
  · exact Or.inr (Or.inr (Or.inr ⟨hout, hr⟩))

/-- The reply that ends the running scan leaves no other one behind it. -/
theorem settled_pop {s : System} (h : Tidy s) {r : Request} {b : Body} {batch : List Message}
    (hb : s.batch = .reply r b :: batch) {path : Path} (hr : r.scansFile path = true)
    (htag : s.panel.scans path = some r.askedOn) : Settled path { s with batch := batch } := by
  intro d hd hout
  have hline := line_of_out (s := { s with batch := batch }) (mask s.panel.scans)
    h.own hd hout
  have hempty := h.last_of_line hb hr htag
  rw [show ({ s with batch := batch } : System).flowWith (mask s.panel.scans) =
    { s.flowWith (mask s.panel.scans) with batch := batch } from rfl, hempty] at hline
  cases hline

theorem panel_file {s : System} {e : Event} {r : Request} {a : Ask} {b : Body}
    (he : fileReply s e = some (r, a, b)) :
    (step s e).panel = (s.panel.handleMetadata a.path a.method r.askedOn (b = .found)).1 := by
  obtain ⟨-, ⟨batch, hb⟩, -, -⟩ := fileReply_next he
  rw [step_fileReply he hb, act_panel]

theorem opened_file {s : System} {e : Event} {r : Request} {a : Ask} {b : Body}
    (he : fileReply s e = some (r, a, b)) : (step s e).panel.opened = s.panel.opened := by
  rw [panel_file he]
  exact (Panel.handleMetadata_frame s.panel a.path a.method r.askedOn (b = .found)).1

/-- What was settled stays so over a reply that asks for nothing. -/
theorem Settled.own {path : Path} {s : System} {e : Event} {r : Request} {a : Ask} {b : Body}
    {batch : List Message} (he : fileReply s e = some (r, a, b))
    (hb : s.batch = .reply r b :: batch) (h : Settled path { s with batch := batch })
    (hasks : (s.panel.handleMetadata a.path a.method r.askedOn (b = .found)).2 = []) :
    Settled path (step s e) := by
  obtain ⟨new, hm, hlen, -⟩ := moves_file path he hb
  rw [hasks] at hlen
  have hnew : new = [] := List.eq_nil_of_length_eq_zero (by simpa using hlen)
  exact h.moves hm (by simp [hnew])

/-- The reply that ends the scan asks for nothing, and its refusal or the file's metadata
is there instead. -/
theorem remembers_ended {path : Path} {n : ℕ} {s : System} (h : Tidy s)
    (hn : s.panel.opened = n) (hentry : s.panel.scans path = some (connectionId n))
    (hbacked : Backed path (connectionId n) s) {e : Event} {r : Request} {b : Body}
    (he : fileReply s e = some (r, ⟨.metascan, path⟩, b)) (hc : forgetsRefusal path s e = false)
    (hsup : s.panel.superseded path .metascan r.askedOn = false) :
    Remembers path n (step s e) ∧
      (s.panel.handleMetadata path .metascan r.askedOn (b = .found)).2 = [] := by
  obtain ⟨-, ⟨batch, hb⟩, hcall, -⟩ := fileReply_next he
  obtain ⟨new, hm, -, -⟩ := moves_file path he hb
  have hhead : (r, b) ∈ s.channel := by
    rw [channel_pop hb]
    exact List.mem_cons_self
  have hopened : (step s e).panel.opened = n := (opened_file he).trans hn
  have hnow : s.panel.now = connectionId n := congrArg connectionId hn
  have htag : r.askedOn = connectionId n := by
    rcases superseded_eq_false hsup with hnone | htag
    · rw [hentry] at hnone
      cases hnone
    · rw [hentry] at htag
      exact (Option.some.inj htag).symm
  have hscan : r.scansFile path = true := by simp [Request.scansFile, hcall]
  have hsettled : Settled path { s with batch := batch } :=
    settled_pop h hb hscan (htag ▸ hentry)
  by_cases hfound : b = .found
  · subst hfound
    have hasks := (Panel.handleMetadata_found s.panel path .metascan r.askedOn).1
    have hcalm : Calm path { s with batch := batch } := by
      refine ⟨hbacked.stored _ hhead hscan htag rfl, ?_⟩
      have hordered := hbacked.ordered
      rw [channel_pop hb] at hordered
      intro x hx hmeta
      exact (List.pairwise_cons.mp hordered).1 x hx hscan htag rfl hmeta
    exact ⟨.scanned hopened (hsettled.own he hb hasks) (hcalm.moves hm), hasks⟩
  · have hcur : s.panel.curFile = some path := by
      by_contra hother
      simp [forgetsRefusal, he, hfound, hentry, htag, hnow, hother] at hc
    obtain ⟨hasks, hun⟩ := Panel.handleMetadata_refused hsup (htag.trans hnow.symm) hcur
    have hmissing : (decide (b = .found)) = false := by simpa using hfound
    rw [← hmissing] at hasks hun
    refine ⟨.refused hopened (hsettled.own he hb hasks) ?_, hasks⟩
    rw [panel_file he, hun, htag]

/-- A reply about the file whose scan is remembered asks for nothing and is remembered. -/
theorem remembers_own {path : Path} {n : ℕ} {s : System} (h : Tidy s) (hr : Remembers path n s)
    (hn : s.panel.opened = n) {e : Event} {r : Request} {method : Method} {b : Body}
    (he : fileReply s e = some (r, ⟨method, path⟩, b)) (hc : forgetsRefusal path s e = false) :
    Remembers path n (step s e) ∧
      (s.panel.handleMetadata path method r.askedOn (b = .found)).2 = [] := by
  obtain ⟨-, ⟨batch, hb⟩, hcall, -⟩ := fileReply_next he
  obtain ⟨new, hm, -, -⟩ := moves_file path he hb
  have hpop : Moves path s { s with batch := batch } [] := .of_loses path (.pop hb)
  have hhead : (r, b) ∈ s.channel := by
    rw [channel_pop hb]
    exact List.mem_cons_self
  have hout : s.Out r := Or.inl (List.mem_map_of_mem hhead)
  have hopened : (step s e).panel.opened = n := (opened_file he).trans hn
  have hnow : s.panel.now = connectionId n := congrArg connectionId hn
  have hpanel := panel_file he
  cases hr with
  | past hlt => omega
  | running _ hentry hbacked =>
    have hkeep : Backed path (connectionId n) (step s e) := (hbacked.moves hpop).moves hm
    cases method with
    | metadata =>
      obtain ⟨hasks, hscans⟩ :=
        Panel.handleMetadata_scanning (hentry.trans (congrArg some hnow.symm)) r.askedOn
          (b = .found)
      refine ⟨.running hopened ?_ hkeep, hasks⟩
      rw [hpanel, hscans]
      exact hentry
    | metascan =>
      cases hsup : s.panel.superseded path .metascan r.askedOn with
      | true =>
        have hsame := Panel.handleMetadata_superseded hsup (b = .found)
        refine ⟨.running hopened ?_ hkeep, by rw [hsame]⟩
        rw [hpanel, hsame]
        exact hentry
      | false => exact remembers_ended h hn hentry hbacked he hc hsup
  | refused _ hsettled hentry =>
    cases method with
    | metascan => exact absurd hout (hsettled r (by simp [Request.scansFile, hcall]))
    | metadata =>
      have hknown : (s.panel.handleMetadata path .metadata r.askedOn (b = .found)).2 = [] ∧
          (s.panel.handleMetadata path .metadata r.askedOn (b = .found)).1.unscannable =
            s.panel.unscannable := by
        by_cases hfound : b = .found
        · rw [hfound]
          exact Panel.handleMetadata_found s.panel path .metadata r.askedOn
        · obtain ⟨hasks, hun, -⟩ := Panel.handleMetadata_known
            (Or.inl (hentry.trans (congrArg some hnow.symm))) r.askedOn
          have hmissing : (decide (b = .found)) = false := by simpa using hfound
          rw [hmissing]
          exact ⟨hasks, hun⟩
      refine ⟨.refused hopened ((hsettled.moves hpop (by simp)).own he hb hknown.1) ?_, hknown.1⟩
      rw [hpanel, hknown.2]
      exact hentry
  | scanned _ hsettled hknown =>
    cases method with
    | metascan => exact absurd hout (hsettled r (by simp [Request.scansFile, hcall]))
    | metadata =>
      have hfound : b = .found := hknown.found _ hhead hcall
      subst hfound
      have hasks := (Panel.handleMetadata_found s.panel path .metadata r.askedOn).1
      exact ⟨.scanned hopened ((hsettled.moves hpop (by simp)).own he hb hasks)
        ((hknown.moves hpop).moves hm), hasks⟩

theorem remembers_step {path : Path} {n : ℕ} {s : System} (h : Tidy s) (hr : Remembers path n s)
    {e : Event} (hkeep : e ≠ .store path false) (hc : forgetsRefusal path s e = false) :
    Remembers path n (step s e) ∧ scansSent path n s e = 0 := by
  cases he : fileReply s e with
  | none =>
    obtain ⟨new, hm, hnew⟩ := moves_other h he hkeep
    obtain ⟨hscans, hun⟩ := panel_other he
    refine ⟨hr.moves hm (fun r hr => hnew r hr path) (congrFun hscans path) (congrFun hun path), ?_⟩
    refine scansSent_eq_zero hm.wire fun r hr hscan => ?_
    rw [hnew r hr path] at hscan
    cases hscan
  | some reply =>
    obtain ⟨r, ⟨method, q⟩, b⟩ := reply
    obtain ⟨-, ⟨batch, hb⟩, -, -⟩ := fileReply_next he
    obtain ⟨new, hm, hlen, hnew⟩ := moves_file path he hb
    by_cases hq : path = q
    · subst hq
      by_cases hn : s.panel.opened = n
      · obtain ⟨hrem, hasks⟩ := remembers_own h hr hn he hc
        refine ⟨hrem, scansSent_eq_zero hm.wire fun d hd => ?_⟩
        obtain ⟨-, k, hk, -⟩ := hnew d hd
        rw [hasks] at hk
        cases hk
      · have hlt : n < s.panel.opened := by
          cases hr with
          | past hlt => exact hlt
          | running hn' => exact absurd hn' hn
          | refused hn' => exact absurd hn' hn
          | scanned hn' => exact absurd hn' hn
        refine ⟨.past (by rw [opened_file he]; exact hlt), ?_⟩
        refine scansSent_eq_zero hm.wire fun d hd _ => ?_
        rw [(hnew d hd).1.1]
        exact hn
    · obtain ⟨hscans, hun, hasks⟩ :=
        Panel.handleMetadata_others s.panel hq method r.askedOn (b = .found)
      have hother : ∀ d ∈ new, d.scansFile path = false := by
        intro d hd
        obtain ⟨-, k, hk, hdk⟩ := hnew d hd
        have hkq := hasks k hk
        simp only [Request.scansFile, hdk, Call.file.injEq, decide_eq_false_iff_not]
        rintro rfl
        exact hq hkq
      have hpop := hr.moves (t := { s with batch := batch }) (.of_loses path (.pop hb))
        (by simp) rfl rfl
      refine ⟨hpop.moves hm hother ?_ ?_, scansSent_eq_zero hm.wire fun d hd hscan => ?_⟩
      · rw [panel_file he]
        exact hscans
      · rw [panel_file he]
        exact hun
      · rw [hother d hd] at hscan
        cases hscan

/-- When a scan is asked for, no other one of this connection is on its way. -/
theorem backed_file {path : Path} {s : System} (h : Tidy s) {e : Event} {r : Request}
    {method : Method} {b : Body} (he : fileReply s e = some (r, ⟨method, path⟩, b))
    (hsup : s.panel.superseded path method r.askedOn = false)
    (hne : (s.panel.release path method (b = .found)).scans path ≠ some s.panel.now) :
    Backed path s.panel.now (step s e) := by
  obtain ⟨-, ⟨batch, hb⟩, hcall, -⟩ := fileReply_next he
  obtain ⟨new, hm, -, -⟩ := moves_file path he hb
  have hrelease := tidy_release h hb hcall hsup
  have hnone : ∀ x ∈ ({ s with batch := batch } : System).channel,
      x.1.scansFile path = true → x.1.askedOn ≠ s.panel.now := by
    intro x hx hscan hnow
    have hline := line_of_out (s := { s with batch := batch })
      (mask (s.panel.release path method (b = .found)).scans)
      h.own hscan (Or.inl (List.mem_map_of_mem hx))
    exact hne (mask_now.mp (hrelease.current path x.1 hline hnow))
  refine Backed.moves ⟨?_, ?_⟩ hm
  · refine List.Pairwise.imp_of_mem (fun hx _ _ hscan htag => ?_)
      (List.pairwise_of_forall (R := fun _ _ => True) fun _ _ => trivial)
    exact absurd htag (hnone _ hx hscan)
  · intro x hx hscan htag
    exact absurd htag (hnone x hx hscan)

theorem remembers_first {path : Path} {n : ℕ} {s : System} (h : Tidy s) {e : Event}
    (hkeep : e ≠ .store path false) (hsent : scansSent path n s e ≠ 0) :
    scansSent path n s e = 1 ∧ Remembers path n (step s e) := by
  cases he : fileReply s e with
  | none =>
    obtain ⟨new, hm, hnew⟩ := moves_other h he hkeep
    refine absurd (scansSent_eq_zero hm.wire fun r hr hscan => ?_) hsent
    rw [hnew r hr path] at hscan
    cases hscan
  | some reply =>
    obtain ⟨r, ⟨method, q⟩, b⟩ := reply
    obtain ⟨-, ⟨batch, hb⟩, -, -⟩ := fileReply_next he
    obtain ⟨new, hm, hlen, hnew⟩ := moves_file path he hb
    have hzero : (∀ d ∈ new, d.scansFile path = true → d.askedAt ≠ n) → False :=
      fun hno => hsent (scansSent_eq_zero hm.wire hno)
    have hn : s.panel.opened = n := by
      by_contra hne
      refine hzero fun d hd _ => ?_
      rw [(hnew d hd).1.1]
      exact hne
    have hq : q = path := by
      by_contra hne
      obtain ⟨-, -, hasks⟩ :=
        Panel.handleMetadata_others s.panel (Ne.symm hne) method r.askedOn (b = .found)
      refine hzero fun d hd hscan => ?_
      obtain ⟨-, k, hk, hdk⟩ := hnew d hd
      have hkq := hasks k hk
      have hkp : k = ⟨.metascan, path⟩ := by simpa [Request.scansFile, hdk] using hscan
      rw [hkp] at hkq
      exact absurd hkq.symm hne
    subst hq
    have hquiet : (s.panel.handleMetadata q method r.askedOn (b = .found)).2 ≠ [] := by
      intro hasks
      refine hzero fun d hd => ?_
      obtain ⟨-, k, hk, -⟩ := hnew d hd
      rw [hasks] at hk
      cases hk
    rcases Panel.handleMetadata_cases s.panel q method r.askedOn (b = .found) with
      ⟨-, -, -, hasks⟩ | ⟨-, -, -, -, hasks⟩ | ⟨-, -, -, -, -, hasks⟩ |
        ⟨hsup, -, hne, hscans, -, hasks⟩
    · exact absurd hasks hquiet
    · exact absurd hasks hquiet
    · exact absurd hasks hquiet
    · rw [hasks] at hlen
      have hone : scansSent q n s e ≤ 1 := by
        have hcount : scansSent q n s e ≤ (sent s e).length := List.countP_le_length
        have hsub : (sent s e).length ≤ new.length := (sent_sublist hm.wire).length_le
        have hnewlen : new.length ≤ 1 := hlen
        omega
      have hbacked := backed_file h he hsup hne
      have hnow : s.panel.now = connectionId n := congrArg connectionId hn
      refine ⟨by omega, .running ((opened_file he).trans hn) ?_ (hnow ▸ hbacked)⟩
      rw [panel_file he, hscans, Function.update_self, hnow]

/-! ### Counts and connections -/

theorem handleMetadata_rescans {p : Panel} {path : Path} {method : Method} {askedOn : ℕ}
    {found : Bool} (h : (p.handleMetadata path method askedOn found).2 ≠ []) :
    found = false ∧ p.rescans path method askedOn = true := by
  have hfound : found = false := by
    cases found with
    | false => rfl
    | true => exact absurd (Panel.handleMetadata_found p path method askedOn).1 h
  subst hfound
  refine ⟨rfl, ?_⟩
  rcases Panel.handleMetadata_cases p path method askedOn false with ⟨-, -, -, hasks⟩ |
      ⟨-, -, -, -, hasks⟩ | ⟨-, -, -, -, -, hasks⟩ | ⟨hsup, hcur, -, -, -, -⟩
  · exact absurd hasks h
  · exact absurd hasks h
  · exact absurd hasks h
  · unfold Panel.rescans
    cases method with
    | metadata =>
      have hun : p.unscannable path ≠ some p.now := fun hknown =>
        h (Panel.handleMetadata_known (Or.inl hknown) askedOn).1
      have hscans : p.scans path ≠ some p.now := fun hknown =>
        h (Panel.handleMetadata_known (Or.inr hknown) askedOn).1
      simp [hcur, hsup, hun, hscans]
    | metascan =>
      have hnow : askedOn ≠ p.now := fun hnow => h (Panel.handleMetadata_refused hsup hnow hcur).1
      simp [hcur, hsup, hnow]

/-- A scan goes out only for a reply about its file, with the tags of the state. -/
theorem sent_scan {path : Path} {s : System} (h : Tidy s) {e : Event}
    (hkeep : e ≠ .store path false) {d : Request} (hd : d ∈ sent s e)
    (hscan : d.scansFile path = true) :
    s.Tags d ∧ ∃ r a b, fileReply s e = some (r, a, b) ∧ a.path = path ∧ b ≠ .found ∧
      s.panel.rescans path a.method r.askedOn = true := by
  cases he : fileReply s e with
  | none =>
    obtain ⟨new, hm, hnew⟩ := moves_other h he hkeep
    have hno := hnew d ((sent_sublist hm.wire).subset hd) path
    rw [hno] at hscan
    cases hscan
  | some reply =>
    obtain ⟨r, a, b⟩ := reply
    obtain ⟨-, ⟨batch, hb⟩, -, -⟩ := fileReply_next he
    obtain ⟨new, hm, -, hnew⟩ := moves_file path he hb
    obtain ⟨htags, k, hk, hdk⟩ := hnew d ((sent_sublist hm.wire).subset hd)
    have hkscan : k = ⟨.metascan, path⟩ := by simpa [Request.scansFile, hdk] using hscan
    obtain ⟨hmissing, hrescans⟩ := handleMetadata_rescans (List.ne_nil_of_mem hk)
    have hpath : a.path = path := by
      by_contra hne
      obtain ⟨-, -, hasks⟩ :=
        Panel.handleMetadata_others s.panel (Ne.symm hne) a.method r.askedOn (b = .found)
      exact hne ((hasks k hk).symm.trans (by rw [hkscan]))
    exact ⟨htags, r, a, b, rfl, hpath, by simpa using hmissing, hpath ▸ hrescans⟩

theorem exists_scanOn {path : Path} {conn : ℕ} {s : System} {e : Event}
    (h : scansOn path conn s e ≠ 0) :
    ∃ d ∈ sent s e, d.scansFile path = true ∧ d.sentOn = some conn := by
  obtain ⟨d, hd, hp⟩ := List.countP_pos_iff.mp (Nat.pos_of_ne_zero h)
  exact ⟨d, hd, by simpa using hp⟩

/-- All scans of a step carry the panel's count. -/
theorem scansOn_le_scansSent {path : Path} {s : System} (h : Tidy s) {e : Event}
    (hkeep : e ≠ .store path false) (conn : ℕ) :
    scansOn path conn s e ≤ scansSent path s.panel.opened s e := by
  unfold scansOn scansSent
  refine List.countP_mono_left fun d hd hp => ?_
  simp only [Bool.and_eq_true, decide_eq_true_eq] at hp ⊢
  exact ⟨hp.1, (sent_scan h hkeep hd hp.1).1.1⟩

theorem act_frame (s : System) (out : Panel × List Ask) :
    (s.act out).conn = s.conn ∧ (s.act out).batch = s.batch ∧ (s.act out).queue = s.queue := by
  have hasks : ∀ (asks : List Ask) (t : System),
      (asks.foldl (fun s a => s.send (.file a)) t).conn = t.conn ∧
      (asks.foldl (fun s a => s.send (.file a)) t).batch = t.batch ∧
      (asks.foldl (fun s a => s.send (.file a)) t).queue = t.queue := by
    intro asks
    induction asks with
    | nil => exact fun _ => ⟨rfl, rfl, rfl⟩
    | cons a asks ih => exact fun t => ih (t.send (.file a))
  exact hasks out.2 { s with panel := out.1 }

theorem handle_conn (s : System) (m : Message) (pick : Option Path) :
    (s.handle m pick).conn = s.conn := by
  cases m with
  | connected c => rfl
  | disconnected => rfl
  | klippyReady => rfl
  | reply r b =>
    simp only [System.handle]
    split_ifs
    · unfold System.answered
      cases r.call with
      | objects cause => rfl
      | list cause =>
        cases b with
        | files answer => exact (act_frame _ _).1
        | _ => rfl
      | file a => exact (act_frame _ _).1
    · rfl

/-- As long as connection `conn` lasts, the panel counts `n` connections. -/
def Steady (conn n : ℕ) (s : System) : Prop :=
  conn < s.conn ∨
    (s.conn = conn ∧ s.panel.opened = n ∧ (s.batch ++ s.queue).any isConnected = false)

namespace Steady

variable {conn n : ℕ} {s t : System}

theorem frame (h : Steady conn n s) (hconn : t.conn = s.conn)
    (hopened : t.panel.opened = s.panel.opened)
    (hwaits : ∀ m ∈ t.batch ++ t.queue, m ∈ s.batch ++ s.queue ∨ isConnected m = false) :
    Steady conn n t := by
  rcases h with hlt | ⟨heq, hn, hnone⟩
  · exact Or.inl (hconn ▸ hlt)
  · refine Or.inr ⟨hconn.trans heq, hopened.trans hn, ?_⟩
    rw [List.any_eq_false] at hnone ⊢
    intro m hm
    rcases hwaits m hm with hm | hm
    · exact hnone m hm
    · simp [hm]

theorem same (h : Steady conn n s) (hconn : t.conn = s.conn)
    (hopened : t.panel.opened = s.panel.opened) (hbatch : t.batch = s.batch)
    (hqueue : t.queue = s.queue) : Steady conn n t :=
  h.frame hconn hopened fun m hm => Or.inl (by rwa [hbatch, hqueue] at hm)

theorem push (h : Steady conn n s) {m : Message} (hm : isConnected m = false) :
    Steady conn n (s.push m) := by
  refine h.frame rfl rfl fun x hx => ?_
  unfold System.push at hx
  simp only [List.mem_append, List.mem_singleton] at hx ⊢
  rcases hx with hx | hx | rfl
  · exact Or.inl (Or.inl hx)
  · split_ifs at hx
    · exact Or.inl (Or.inr (List.mem_of_mem_tail hx))
    · exact Or.inl (Or.inr hx)
  · exact Or.inr hm

theorem pop (h : Steady conn n s) {m : Message} {batch : List Message}
    (hb : s.batch = m :: batch) : Steady conn n { s with batch := batch } := by
  refine h.frame rfl rfl fun x hx => Or.inl ?_
  rw [hb]
  exact List.mem_cons_of_mem _ hx

theorem act (h : Steady conn n s) {out : Panel × List Ask}
    (hopened : out.1.opened = s.panel.opened) : Steady conn n (s.act out) := by
  obtain ⟨hconn, hbatch, hqueue⟩ := act_frame s out
  refine h.same hconn ?_ hbatch hqueue
  rw [act_panel]
  exact hopened

theorem shows (h : Steady conn n s) {out : Panel × List Ask} (hout : s.panel.Shows out) :
    Steady conn n (s.act out) :=
  h.act (congrArg Panel.Hold.opened hout.hold)

theorem handle (h : Steady conn n s) {m : Message} (hm : isConnected m = false)
    (pick : Option Path) : Steady conn n (s.handle m pick) := by
  cases m with
  | connected c => cases hm
  | disconnected => exact h
  | klippyReady => exact h.same rfl rfl rfl rfl
  | reply r b =>
    simp only [System.handle]
    split_ifs
    · have htaken : Steady conn n { s with pending := s.pending.erase r } := h.same rfl rfl rfl rfl
      unfold System.answered
      cases r.call with
      | objects cause => exact htaken.same rfl rfl rfl rfl
      | list cause =>
        cases b with
        | files answer =>
          have hlisted : Steady conn n { s with
              pending := s.pending.erase r
              refetched := cause.toList ++ s.refetched } := h.same rfl rfl rfl rfl
          exact hlisted.shows (Panel.shows_handleList s.panel answer pick)
        | _ => exact htaken
      | file a =>
        exact htaken.act
          (Panel.handleMetadata_frame s.panel a.path a.method r.askedOn (b = .found)).1
    · exact h

end Steady

theorem steady_step {conn n : ℕ} {s : System} (h : Steady conn n s) (e : Event) :
    Steady conn n (step s e) := by
  cases e with
  | «open» =>
    simp only [step]
    split_ifs
    · exact h
    · refine Or.inl ?_
      show conn < s.conn + 1
      rcases h with hlt | ⟨heq, -, -⟩ <;> omega
  | drop =>
    simp only [step]
    split_ifs
    · exact Steady.push (h.same rfl rfl rfl rfl) rfl
    · exact h
  | klippyReady =>
    simp only [step]
    split_ifs
    · exact h.push rfl
    · exact h
  | receive answer =>
    simp only [step, System.receive]
    split
    · exact h
    · split <;> exact h.same rfl rfl rfl rfl
  | complete q ok =>
    simp only [step, System.complete]
    split
    · exact h
    · exact h.same rfl rfl rfl rfl
  | store q known => exact h.same rfl rfl rfl rfl
  | deliver =>
    simp only [step]
    split
    · exact h
    · exact Steady.push (h.same rfl rfl rfl rfl) rfl
  | drain =>
    simp only [step]
    split_ifs with hb
    · refine h.frame rfl rfl fun m hm => Or.inl ?_
      simpa [List.isEmpty_iff.mp hb] using hm
    · exact h
  | next pick =>
    simp only [step]
    cases hb : s.batch with
    | nil => exact h
    | cons m batch =>
      rcases h with hlt | ⟨heq, hn, hnone⟩
      · refine Or.inl ?_
        rwa [handle_conn]
      · have hm : isConnected m = false := by
          rw [List.any_eq_false] at hnone
          simpa using hnone m (by simp [hb])
        exact (Steady.pop (Or.inr ⟨heq, hn, hnone⟩) hb).handle hm pick
  | select q =>
    rcases Panel.select_cases s.panel q with heq | hshows
    · simp only [step, heq]
      exact h.same rfl rfl rfl rfl
    · exact h.shows hshows
  | showDir pick => exact h.shows (Panel.shows_startOver s.panel pick)
  | refresh => exact h.same rfl rfl rfl rfl
  | press ready => exact h

/-- From a scan on that the panel did not ask for too early, its connection is steady. -/
theorem steady_first {path : Path} {conn : ℕ} {s : System} (h : Tidy s) {e : Event}
    (hkeep : e ≠ .store path false) (hearly : asksEarly path s e = false)
    (hsent : scansOn path conn s e ≠ 0) : Steady conn s.panel.opened (step s e) := by
  obtain ⟨d, hd, hscan, hon⟩ := exists_scanOn hsent
  obtain ⟨⟨-, hconn, hup⟩, r, a, b, he, hpath, hmissing, hrescans⟩ := sent_scan h hkeep hd hscan
  obtain ⟨-, ⟨batch, hb⟩, -, -⟩ := fileReply_next he
  have hnone : (batch ++ s.queue).any isConnected = false := by
    simpa [asksEarly, he, hpath, hmissing, hup, hrescans, hb] using hearly
  rw [step_fileReply he hb]
  have hsame : s.conn = conn := Option.some.inj (hconn.symm.trans hon)
  have hpop : Steady conn s.panel.opened { s with batch := batch, pending := s.pending.erase r } :=
    Or.inr ⟨hsame, rfl, hnone⟩
  exact hpop.act (Panel.handleMetadata_frame s.panel a.path a.method r.askedOn (b = .found)).1

/-! ### Every run -/

/-- The scans of a file that a run asks for on connection `conn`. -/
def scansAskedOn (path : Path) (conn : ℕ) : System → List Event → ℕ
  | _, [] => 0
  | s, e :: es => scansOn path conn s e + scansAskedOn path conn (step s e) es

/-- The refusal of a scan is remembered, and no scan is asked for too early. -/
def keepsScans (path : Path) (s : System) (e : Event) : Bool :=
  !forgetsRefusal path s e && !asksEarly path s e

section
variable {path : Path} {conn n : ℕ}

theorem scansOn_remembered {s : System} (h : Tidy s) (hr : Remembers path n s)
    (hs : Steady conn n s) {e : Event} (hkeep : e ≠ .store path false)
    (hc : forgetsRefusal path s e = false) : scansOn path conn s e = 0 := by
  by_contra hsent
  obtain ⟨d, hd, hscan, hon⟩ := exists_scanOn hsent
  obtain ⟨⟨-, hconn, -⟩, -⟩ := sent_scan h hkeep hd hscan
  have hsame : s.conn = conn := Option.some.inj (hconn.symm.trans hon)
  have hn : s.panel.opened = n := by
    rcases hs with hlt | ⟨-, hn, -⟩
    · omega
    · exact hn
  have hle := scansOn_le_scansSent h hkeep conn
  have hzero := (remembers_step h hr hkeep hc).2
  rw [hn] at hle
  omega

theorem scansAskedOn_remembered {s : System} (h : Tidy s) (hr : Remembers path n s)
    (hs : Steady conn n s) {es : List Event} (hkeep : ∀ e ∈ es, e ≠ .store path false)
    (hc : Run.Along step (fun s e => keepsScans path s e = true) s es) :
    scansAskedOn path conn s es = 0 := by
  induction es generalizing s with
  | nil => rfl
  | cons e es ih =>
    have hforgets : forgetsRefusal path s e = false := by
      have hfirst := hc.1
      unfold keepsScans at hfirst
      simp_all
    have hfirst := hkeep e (List.mem_cons_self ..)
    have hzero := scansOn_remembered h hr hs hfirst hforgets
    have hrest := ih (tidy_step s e h) (remembers_step h hr hfirst hforgets).1 (steady_step hs e)
      (fun d hd => hkeep d (List.mem_cons_of_mem _ hd)) hc.2
    simp only [scansAskedOn]
    omega

theorem scansAskedOn_le_one {s : System} (h : Tidy s) {es : List Event}
    (hkeep : ∀ e ∈ es, e ≠ .store path false)
    (hc : Run.Along step (fun s e => keepsScans path s e = true) s es) :
    scansAskedOn path conn s es ≤ 1 := by
  induction es generalizing s with
  | nil => exact Nat.zero_le _
  | cons e es ih =>
    have hfirst := hkeep e (List.mem_cons_self ..)
    have htail : ∀ d ∈ es, d ≠ .store path false := fun d hd => hkeep d (List.mem_cons_of_mem _ hd)
    simp only [scansAskedOn]
    by_cases hsent : scansOn path conn s e = 0
    · have hrest := ih (tidy_step s e h) htail hc.2
      omega
    · have hearly : asksEarly path s e = false := by
        have hkeeps := hc.1
        unfold keepsScans at hkeeps
        simp_all
      have hle := scansOn_le_scansSent h hfirst conn
      obtain ⟨hone, hrem⟩ := remembers_first (n := s.panel.opened) h hfirst (by omega)
      have hrest := scansAskedOn_remembered (tidy_step s e h) hrem
        (steady_first h hfirst hearly hsent) htail hc.2
      omega

end

/-- From any reachable state, while Moonraker keeps what it has stored for the file, no
refusal of its scan finds another file selected and none is asked for before the
connection's Connected event is handled, at most one scan of the file is asked for on
a connection. -/
theorem scanned_once_per_connection (before es : List Event) (path : Path) (conn : ℕ)
    (hkeep : ∀ e ∈ es, e ≠ .store path false)
    (hc : Run.Along step (fun s e => keepsScans path s e = true)
      (Run.run step System.init before) es) :
    scansAskedOn path conn (Run.run step System.init before) es ≤ 1 :=
  scansAskedOn_le_one (tidy_run before) hkeep hc

def otherFile : Path := "cube.gcode"

-- A scan of the first file is running when the other one is selected and the scan
-- ends; then the first is selected again and both metadata requests are answered.
def scanEndsAway (ok : Bool) : List Event :=
  [.open, .drain, .next none] ++ exchange [] none ++
    exchange [(stickFile, 1), (otherFile, 1)] (some stickFile) ++ exchange [] none ++
    [.receive [], .select otherFile, .complete stickFile ok, .deliver, .drain, .next none,
      .select stickFile] ++ exchange [] none ++ exchange [] none

theorem scanned_once_in_scanEndsAway :
    scansAskedOn stickFile 1 System.init (scanEndsAway true) = 1 ∧
    scansAskedOn stickFile 1 (Run.run step System.init []) (scanEndsAway true) ≤ 1 :=
  ⟨by decide +kernel, scanned_once_per_connection [] (scanEndsAway true) stickFile 1
    (by decide +kernel) (by decide +kernel)⟩

theorem scanned_twice_on_one_connection :
    ¬ ∀ (es : List Event) (path : Path) (conn : ℕ), (∀ e ∈ es, e ≠ .store path false) →
      scansAskedOn path conn System.init es ≤ 1 := by
  intro h
  have htwo : scansAskedOn stickFile 1 System.init (scanEndsAway false) = 2 := by decide +kernel
  have hone := h (scanEndsAway false) stickFile 1 (by decide +kernel)
  omega

-- The miss of the first connection is handled on the second one, before its Connected
-- event; the scan it asks for is refused after it.
def scanAskedEarly : List Event :=
  connect ++ [.receive [], .deliver, .drop, .open, .drain, .next none, .next none, .next none,
    .receive [], .complete stickFile false, .deliver, .drain, .next none]

example : scansAskedOn stickFile 2 System.init scanAskedEarly = 2 ∧
    Run.Along step (fun s e => forgetsRefusal stickFile s e =
      false) System.init scanAskedEarly := by
  decide +kernel

end GuppyScreen.PrintPanel
