import GuppyScreen.PrintPanel.System

/-!
# A held Print is released

An entry of `scans` always has its own callback pending. An entry of an earlier
connection is asked about again once this connection's refetch is handled, and
the answer either erases it or turns it into an entry of this connection.
-/

namespace GuppyScreen.PrintPanel
open Lib

def Call.cause : Call → Option ℕ
  | .objects cause => cause
  | .list cause => cause
  | .file _ => none

/-- What the panel does not touch itself. -/
structure Link where
  opened : ℕ
  pending : List Request
  messages : List Message
  conn : ℕ
  up : Bool
  seen : ℕ
  refetched : List ℕ

def System.link (s : System) : Link :=
  ⟨s.panel.opened, s.pending, s.batch ++ s.queue, s.conn, s.up, s.seen, s.refetched⟩

/-- Connected events are handled in order, and what follows from one comes after it. -/
structure Link.Ordered (l : Link) : Prop where
  asked : ∀ r ∈ l.pending, r.askedAt ≤ l.opened
  seen : l.seen ≤ l.conn
  refetched : ∀ k ∈ l.refetched, k ≤ l.seen
  cause : ∀ r ∈ l.pending, ∀ k, r.call.cause = some k → k ≤ l.seen
  ahead : ∀ k, .connected k ∈ l.messages → l.seen < k ∧ k ≤ l.conn
  sorted : l.messages.Pairwise fun a b => ∀ j k, a = .connected j → b = .connected k → j < k
  here : ∀ r ∈ l.pending, r.askedAt = l.opened → l.seen = l.conn → l.up = true →
    r.sentOn = some l.conn

/-- Every entry has its own callback pending. -/
def System.Waits (s : System) : Prop :=
  ∀ path t, s.panel.scans path = some t →
    ∃ r ∈ s.pending, r.call = .file ⟨.metascan, path⟩ ∧ r.askedOn = t

/-- A scan that failed was asked for no later than the one that is due. -/
structure Panel.Tagged (p : Panel) : Prop where
  scans : ∀ path t, p.scans path = some t → t ≤ p.opened
  unscannable : ∀ path u, p.unscannable path = some u → u ≤ p.opened
  order : ∀ path u t, p.unscannable path = some u → p.scans path = some t → u ≤ t

/-- After the refetch, a selected file whose scan was lost is being asked about. -/
def System.AsksAgain (s : System) : Prop :=
  s.up = true → s.conn ∈ s.refetched → ∀ path, s.panel.curFile = some path →
    s.panel.scanLost path = true →
      ∃ r ∈ s.pending, r.call = .file ⟨.metadata, path⟩ ∧ r.sentOn = some s.conn

/-- A metadata or metascan request on the open connection that is not answered yet. -/
def System.unanswered (s : System) (r : Request) : Bool :=
  match r.call with
  | .file _ => r.sentOn = some s.conn
  | _ => false

/-! ### Sending -/

def System.request (s : System) (c : Call) : Request :=
  ⟨s.nextId, c, s.panel.opened, if s.up then some s.conn else none⟩

theorem pending_send (s : System) (c : Call) :
    (s.send c).pending = s.pending ++ [s.request c] := rfl

theorem ordered_send {s : System} (h : s.link.Ordered) {c : Call}
    (hc : ∀ k, c.cause = some k → k ≤ s.seen) : (s.send c).link.Ordered := by
  have hmem : ∀ r ∈ (s.send c).pending, r ∈ s.pending ∨ r = s.request c := by
    intro r hr
    rw [pending_send] at hr
    rcases List.mem_append.mp hr with hr | hr
    · exact Or.inl hr
    · exact Or.inr (List.mem_singleton.mp hr)
  refine ⟨?_, h.seen, h.refetched, ?_, h.ahead, h.sorted, ?_⟩
  · intro r hr
    rcases hmem r hr with hr | rfl
    · exact h.asked r hr
    · exact Nat.le_refl _
  · intro r hr k hk
    rcases hmem r hr with hr | rfl
    · exact h.cause r hr k hk
    · exact hc k hk
  · intro r hr hasked hseen hup
    rcases hmem r hr with hr | rfl
    · exact h.here r hr hasked hseen hup
    · have hup' : s.up = true := hup
      simp only [System.request, hup', if_true]
      rfl

structure Extends (s t : System) : Prop where
  panel : t.panel = s.panel
  up : t.up = s.up
  conn : t.conn = s.conn
  refetched : t.refetched = s.refetched
  pending : ∀ r ∈ s.pending, r ∈ t.pending

theorem extends_send (s : System) (c : Call) : Extends s (s.send c) :=
  ⟨rfl, rfl, rfl, rfl, fun _ hr => List.mem_append_left _ hr⟩

theorem Extends.trans {s t u : System} (h : Extends s t) (k : Extends t u) : Extends s u :=
  ⟨k.panel.trans h.panel, k.up.trans h.up, k.conn.trans h.conn, k.refetched.trans h.refetched,
    fun r hr => k.pending r (h.pending r hr)⟩

theorem extends_asks (s : System) (asks : List Ask) :
    Extends s (asks.foldl (fun s a => s.send (.file a)) s) := by
  induction asks generalizing s with
  | nil => exact ⟨rfl, rfl, rfl, rfl, fun _ hr => hr⟩
  | cons a asks ih => exact (extends_send s _).trans (ih _)

theorem ordered_asks {s : System} (h : s.link.Ordered) (asks : List Ask) :
    (asks.foldl (fun s a => s.send (.file a)) s).link.Ordered := by
  induction asks generalizing s with
  | nil => exact h
  | cons a asks ih => exact ih (ordered_send h fun k hk => nomatch hk)

theorem asks_pending (s : System) {asks : List Ask} {a : Ask} (ha : a ∈ asks) :
    ∃ r ∈ (asks.foldl (fun s a => s.send (.file a)) s).pending,
      r.call = .file a ∧ r.askedAt = s.panel.opened ∧ (s.up = true → r.sentOn = some s.conn) := by
  induction asks generalizing s with
  | nil => cases ha
  | cons b asks ih =>
    rcases List.mem_cons.mp ha with rfl | ha
    · refine ⟨s.request (.file a), ?_, rfl, rfl, ?_⟩
      · refine (extends_asks (s.send (.file a)) asks).pending _ ?_
        rw [pending_send]
        exact List.mem_append_right _ (List.mem_singleton_self _)
      · intro hup
        simp [System.request, hup]
    · exact ih (s.send (.file b)) ha

/-! ### The invariant -/

/-- The last two count on ids that have not come round yet. -/
structure Good (s : System) : Prop where
  ordered : s.link.Ordered
  waits : s.Waits
  tagged : s.panel.opened < 2 ^ 32 → s.panel.Tagged
  again : s.panel.opened < 2 ^ 32 → s.AsksAgain

theorem Extends.waits {s t : System} (he : Extends s t) (h : s.Waits) : t.Waits := by
  intro path tag htag
  rw [he.panel] at htag
  obtain ⟨r, hr, hcall⟩ := h path tag htag
  exact ⟨r, he.pending r hr, hcall⟩

theorem Extends.again {s t : System} (he : Extends s t) (h : s.AsksAgain) : t.AsksAgain := by
  intro hup hconn path hcur hlost
  rw [he.up] at hup
  rw [he.conn, he.refetched] at hconn
  rw [he.panel] at hcur hlost
  rw [he.conn]
  obtain ⟨r, hr, hcall⟩ := h hup hconn path hcur hlost
  exact ⟨r, he.pending r hr, hcall⟩

theorem Good.extend {s t : System} (h : Good s) (he : Extends s t) (ho : t.link.Ordered) :
    Good t := by
  refine ⟨ho, he.waits h.waits, ?_, ?_⟩
  · intro hsmall
    rw [he.panel] at hsmall ⊢
    exact h.tagged hsmall
  · intro hsmall
    rw [he.panel] at hsmall
    exact he.again (h.again hsmall)

theorem Good.send {s : System} (h : Good s) {c : Call}
    (hc : ∀ k, c.cause = some k → k ≤ s.seen) : Good (s.send c) :=
  h.extend (extends_send s c) (ordered_send h.ordered hc)

theorem Panel.Tagged.of_eq {p q : Panel} (h : p.Tagged) (hopened : q.opened = p.opened)
    (hscans : q.scans = p.scans) (hun : q.unscannable = p.unscannable) : q.Tagged := by
  refine ⟨?_, ?_, ?_⟩
  · rw [hscans, hopened]
    exact h.scans
  · rw [hun, hopened]
    exact h.unscannable
  · rw [hun, hscans]
    exact h.order

theorem good_shows {s : System} (ho : s.link.Ordered) (hw : s.Waits)
    (ht : s.panel.opened < 2 ^ 32 → s.panel.Tagged) {out : Panel × List Ask}
    (hout : s.panel.Shows out) : Good (s.act out) := by
  have hopened : out.1.opened = s.panel.opened := congrArg Panel.Hold.opened hout.hold
  have hscans : out.1.scans = s.panel.scans := congrArg Panel.Hold.scans hout.hold
  have hun : out.1.unscannable = s.panel.unscannable := congrArg Panel.Hold.unscannable hout.hold
  have he : Extends { s with panel := out.1 } (s.act out) := extends_asks _ out.2
  have hlink : ({ s with panel := out.1 } : System).link = s.link := by
    unfold System.link
    rw [hopened]
  have hwaits : ({ s with panel := out.1 } : System).Waits := by
    intro path t hpath
    exact hw path t (hscans ▸ hpath)
  refine ⟨ordered_asks (hlink ▸ ho) out.2, he.waits hwaits, ?_, ?_⟩
  · intro hsmall
    rw [he.panel] at hsmall ⊢
    exact (ht (hopened ▸ hsmall)).of_eq hopened hscans hun
  · intro _ hup _ path hcur hlost
    rw [he.panel] at hcur hlost
    rw [he.conn]
    rw [he.up] at hup
    have hlost' : s.panel.scanLost path = true := by
      unfold Panel.scanLost Panel.now at hlost ⊢
      rwa [hscans, hopened] at hlost
    obtain ⟨r, hr, hcall, _, hsent⟩ :=
      asks_pending { s with panel := out.1 } (hout.asks path hcur hlost')
    exact ⟨r, hr, hcall, hsent hup⟩

theorem Link.Ordered.pop {l : Link} (h : l.Ordered) {m : Message} {rest : List Message}
    (hm : l.messages = m :: rest) {pending : List Request} (hp : ∀ r ∈ pending, r ∈ l.pending) :
    ({ l with messages := rest, pending := pending } : Link).Ordered := by
  have hsorted := h.sorted
  rw [hm] at hsorted
  refine ⟨fun r hr => h.asked r (hp r hr), h.seen, h.refetched,
    fun r hr => h.cause r (hp r hr), ?_, (List.pairwise_cons.mp hsorted).2,
    fun r hr => h.here r (hp r hr)⟩
  intro k hk
  refine h.ahead k ?_
  rw [hm]
  exact List.mem_cons_of_mem _ hk

theorem Link.Ordered.connected {l : Link} (h : l.Ordered) {k : ℕ} {rest : List Message}
    (hm : l.messages = .connected k :: rest) :
    ({ l with opened := l.opened + 1, messages := rest, seen := k } : Link).Ordered := by
  have hsorted := h.sorted
  rw [hm, List.pairwise_cons] at hsorted
  have hhead : l.seen < k ∧ k ≤ l.conn := h.ahead k (hm ▸ List.mem_cons_self)
  refine ⟨?_, hhead.2, ?_, ?_, ?_, hsorted.2, ?_⟩
  · intro r hr
    exact Nat.le_succ_of_le (h.asked r hr)
  · intro j hj
    have := h.refetched j hj
    show j ≤ k
    omega
  · intro r hr j hj
    have := h.cause r hr j hj
    show j ≤ k
    omega
  · intro j hj
    refine ⟨hsorted.1 _ hj k j rfl rfl, (h.ahead j ?_).2⟩
    rw [hm]
    exact List.mem_cons_of_mem _ hj
  · intro r hr hasked
    have hle := h.asked r hr
    have heq : r.askedAt = l.opened + 1 := hasked
    omega

theorem messages_next {s : System} {m : Message} {batch : List Message}
    (hb : s.batch = m :: batch) :
    s.link.messages = m :: (batch ++ s.queue) := by
  show s.batch ++ s.queue = _
  rw [hb]
  rfl

theorem good_connected {s : System} (h : Good s) {k : ℕ} {batch : List Message}
    (hb : s.batch = .connected k :: batch) (pick : Option Path) :
    Good (({ s with batch := batch } : System).handle (.connected k) pick) := by
  have hhead : s.seen < k ∧ k ≤ s.conn :=
    h.ordered.ahead k (messages_next hb ▸ List.mem_cons_self)
  have hopened : Good ({ s with
      batch := batch
      panel := { s.panel with opened := s.panel.opened + 1 }
      seen := k } : System) := by
    refine ⟨h.ordered.connected (messages_next hb), h.waits, ?_, ?_⟩
    · intro hsmall
      have htag := h.tagged (Nat.lt_of_succ_lt hsmall)
      exact ⟨fun path t ht => Nat.le_succ_of_le (htag.scans path t ht),
        fun path u hu => Nat.le_succ_of_le (htag.unscannable path u hu), htag.order⟩
    · intro _ _ hconn
      have hle : s.conn ≤ s.seen := h.ordered.refetched s.conn hconn
      omega
  refine hopened.send fun j hj => ?_
  cases hj
  exact Nat.le_refl _

/-! ### Metadata replies -/

theorem release_scans {p : Panel} {path : Path} {method : Method} {found : Bool} {q : Path} {t : ℕ}
    (h : (p.release path method found).scans q = some t) :
    p.scans q = some t ∧ (q = path → method = .metadata ∧ (found = true → t = p.now)) := by
  unfold Panel.release at h
  split_ifs at h with hrel
  · by_cases hq : q = path
    · subst hq
      simp at h
    · simp only [Function.update_of_ne hq] at h
      exact ⟨h, fun he => absurd he hq⟩
  · refine ⟨h, ?_⟩
    rintro rfl
    simp only [Panel.released, h, Bool.or_eq_true, decide_eq_true_eq, Bool.and_eq_true, not_or,
      not_and, Decidable.not_not] at hrel
    refine ⟨?_, hrel.2⟩
    cases hm : method with
    | metadata => rfl
    | metascan => exact absurd hm hrel.1

theorem waits_after {s : System} (h : s.Waits) {r : Request} {a : Ask} (hcall : r.call = .file a)
    {path : Path} {t : ℕ} (ht : s.panel.scans path = some t)
    (hstay : path = a.path → a.method = .metascan → t ≠ r.askedOn) :
    ∃ d ∈ s.pending.erase r, d.call = .file ⟨.metascan, path⟩ ∧ d.askedOn = t := by
  obtain ⟨d, hd, hdcall, hdtag⟩ := h path t ht
  have hne : d ≠ r := by
    intro he
    rw [he, hcall] at hdcall
    have ha := Call.file.inj hdcall
    refine hstay ?_ ?_ ?_
    · rw [ha]
    · rw [ha]
    · rw [← hdtag, he]
  exact ⟨d, (List.mem_erase_of_ne hne).mpr hd, hdcall, hdtag⟩

theorem superseded_tag {p : Panel} {path : Path} {method : Method} {askedOn : ℕ}
    (h : p.superseded path method askedOn = true) {t : ℕ} (ht : p.scans path = some t) :
    method = .metascan ∧ t ≠ askedOn := by
  simpa [Panel.superseded, ht] using h

theorem waits_metadata {s : System} (h : s.Waits) {r : Request} {a : Ask}
    (hcall : r.call = .file a) (found : Bool) :
    (({ s with pending := s.pending.erase r } : System).act
      (s.panel.handleMetadata a.path a.method r.askedOn found)).Waits := by
  have hopened := (Panel.handleMetadata_frame s.panel a.path a.method r.askedOn found).1
  have hcases := Panel.handleMetadata_cases s.panel a.path a.method r.askedOn found
  generalize s.panel.handleMetadata a.path a.method r.askedOn found = out at hopened hcases ⊢
  have he : Extends { s with pending := s.pending.erase r, panel := out.1 }
      (({ s with pending := s.pending.erase r } : System).act out) := extends_asks _ out.2
  have hkept : ∀ path t, (s.panel.release a.path a.method found).scans path = some t →
      ∃ d ∈ s.pending.erase r, d.call = .file ⟨.metascan, path⟩ ∧ d.askedOn = t := by
    intro path t ht
    obtain ⟨hold, hmeta⟩ := release_scans ht
    refine waits_after h hcall hold fun hp hm => ?_
    rw [(hmeta hp).1] at hm
    cases hm
  rcases hcases with ⟨hsup, hscans, _⟩ | ⟨_, _, hscans, _⟩ | ⟨_, _, _, hscans, _⟩ |
      ⟨_, _, _, hscans, _, hasks⟩
  · refine he.waits fun path t ht => ?_
    have hold : s.panel.scans path = some t := hscans ▸ ht
    refine waits_after h hcall hold ?_
    rintro rfl _
    exact (superseded_tag hsup hold).2
  · exact he.waits fun path t ht => hkept path t (hscans ▸ ht)
  · exact he.waits fun path t ht => hkept path t (hscans ▸ ht)
  · intro path t ht
    rw [he.panel] at ht
    simp only [hscans] at ht
    by_cases hp : path = a.path
    · -- The new entry waits for the scan that was just asked for.
      subst hp
      rw [Function.update_self] at ht
      obtain ⟨d, hd, hdcall, hasked, _⟩ := asks_pending
        { s with pending := s.pending.erase r, panel := out.1 }
        (show (⟨.metascan, a.path⟩ : Ask) ∈ out.2 by rw [hasks]; exact List.mem_singleton_self _)
      refine ⟨d, hd, hdcall, ?_⟩
      rw [Request.askedOn, hasked, ← Option.some.inj ht]
      show connectionId out.1.opened = connectionId s.panel.opened
      rw [hopened]
    · rw [Function.update_of_ne hp] at ht
      obtain ⟨d, hd, hdcall⟩ := hkept path t ht
      exact ⟨d, he.pending d hd, hdcall⟩

theorem markUnscannable_some {p : Panel} {path q : Path} {method : Method} {askedOn u : ℕ}
    (h : (p.markUnscannable path method askedOn).unscannable q = some u) :
    p.unscannable q = some u ∨ (q = path ∧ method = .metascan ∧ u = askedOn) := by
  unfold Panel.markUnscannable at h
  split_ifs at h with hm
  · by_cases hq : q = path
    · subst hq
      simp only [Function.update_self] at h
      exact Or.inr ⟨rfl, hm, (Option.some.inj h).symm⟩
    · simp only [Function.update_of_ne hq] at h
      exact Or.inl h
  · exact Or.inl h

theorem tagged_release {p : Panel} (h : p.Tagged) (path : Path) (method : Method) (found : Bool) :
    (p.release path method found).Tagged := by
  obtain ⟨hopened, hun, _⟩ := Panel.release_frame p path method found
  refine ⟨?_, ?_, ?_⟩
  · rw [hopened]
    exact fun q t ht => h.scans q t (release_scans ht).1
  · rw [hun, hopened]
    exact h.unscannable
  · rw [hun]
    exact fun q u t hu ht => h.order q u t hu (release_scans ht).1

theorem tagged_mark {p : Panel} (h : p.Tagged) {askedOn : ℕ} (hasked : askedOn ≤ p.opened)
    {path : Path} {method : Method} (hgone : method = .metascan → p.scans path = none) :
    (p.markUnscannable path method askedOn).Tagged := by
  obtain ⟨hopened, hscans, _⟩ := Panel.markUnscannable_frame p path method askedOn
  refine ⟨?_, ?_, ?_⟩
  · rw [hscans, hopened]
    exact h.scans
  · rw [hopened]
    intro q u hu
    rcases markUnscannable_some hu with hu | ⟨_, _, rfl⟩
    · exact h.unscannable q u hu
    · exact hasked
  · rw [hscans]
    intro q u t hu ht
    rcases markUnscannable_some hu with hu | ⟨rfl, hm, _⟩
    · exact h.order q u t hu ht
    · rw [hgone hm] at ht
      cases ht

theorem tagged_missed {p : Panel} (h : p.Tagged) (hsmall : p.opened < 2 ^ 32) (path : Path) :
    (p.missed path).1.Tagged := by
  have hnow : p.now = p.opened := Nat.mod_eq_of_lt hsmall
  unfold Panel.missed
  split_ifs
  · exact h.of_eq rfl rfl rfl
  · exact h.of_eq rfl rfl rfl
  · refine ⟨?_, h.unscannable, ?_⟩
    · intro q t ht
      by_cases hq : q = path
      · subst hq
        have hnew : some p.now = some t := by simpa [Panel.updatePrintBtn] using ht
        exact Nat.le_of_eq ((Option.some.inj hnew).symm.trans hnow)
      · exact h.scans q t (by simpa [Panel.updatePrintBtn, hq] using ht)
    · intro q u t hu ht
      by_cases hq : q = path
      · subst hq
        have hnew : some p.now = some t := by simpa [Panel.updatePrintBtn] using ht
        have hle := h.unscannable q u hu
        have heq := Option.some.inj hnew
        omega
      · exact h.order q u t hu (by simpa [Panel.updatePrintBtn, hq] using ht)

theorem tagged_metadata {p : Panel} (h : p.Tagged) (hsmall : p.opened < 2 ^ 32) {askedOn : ℕ}
    (hasked : askedOn ≤ p.opened) (path : Path) (method : Method) (found : Bool) :
    (p.handleMetadata path method askedOn found).1.Tagged := by
  have hrel := tagged_release h path method found
  have hopened := (Panel.release_frame p path method found).1
  unfold Panel.handleMetadata
  dsimp only
  split_ifs
  · exact h
  · exact hrel
  · exact hrel.of_eq rfl rfl rfl
  · have hgone : method = .metascan → (p.release path method found).scans path = none := by
      intro hm
      rw [Option.eq_none_iff_forall_ne_some]
      intro t ht
      rw [((release_scans ht).2 rfl).1] at hm
      cases hm
    have hle : askedOn ≤ (p.release path method found).opened := by
      rw [hopened]
      exact hasked
    have hmark := tagged_mark hrel hle hgone
    have hmopened := (Panel.markUnscannable_frame
      (p.release path method found) path method askedOn).1
    generalize (p.release path method found).markUnscannable path method askedOn = marked
      at hmark hmopened ⊢
    exact tagged_missed hmark (by omega) path

theorem scanLost_iff {p : Panel} {path : Path} :
    p.scanLost path = true ↔ ∃ t, p.scans path = some t ∧ t ≠ p.now := by
  unfold Panel.scanLost
  cases p.scans path with
  | none => simp
  | some t => simp

/-- The answer about a lost scan settles it: the entry goes, or it is this
connection's from now on. -/
theorem again_metadata {s : System} (h : s.AsksAgain) (ht : s.panel.Tagged)
    (hsmall : s.panel.opened < 2 ^ 32) {r : Request} {a : Ask} (hcall : r.call = .file a)
    (found : Bool) :
    (({ s with pending := s.pending.erase r } : System).act
      (s.panel.handleMetadata a.path a.method r.askedOn found)).AsksAgain := by
  obtain ⟨hopened, hcur⟩ := Panel.handleMetadata_frame s.panel a.path a.method r.askedOn found
  have hcases := Panel.handleMetadata_cases s.panel a.path a.method r.askedOn found
  generalize s.panel.handleMetadata a.path a.method r.askedOn found = out at hopened hcur hcases ⊢
  have he : Extends { s with pending := s.pending.erase r, panel := out.1 }
      (({ s with pending := s.pending.erase r } : System).act out) := extends_asks _ out.2
  refine he.again ?_
  intro hup hconn path hsel hlost
  rw [show ({ s with pending := s.pending.erase r, panel := out.1 } : System).panel.curFile = _
    from hcur] at hsel
  obtain ⟨t, hscan, hne⟩ := scanLost_iff.mp hlost
  have hnow : out.1.now = s.panel.now := congrArg connectionId hopened
  rw [hnow] at hne
  -- An entry that was there before was being asked about, by another request than `r`.
  have hold : s.panel.scans path = some t → (a.path = path → a.method = .metascan) →
      ∃ d ∈ s.pending.erase r, d.call = .file ⟨.metadata, path⟩ ∧ d.sentOn = some s.conn := by
    intro hwas hother
    obtain ⟨d, hd, hdcall, hsent⟩ := h hup hconn path hsel (scanLost_iff.mpr ⟨t, hwas, hne⟩)
    refine ⟨d, (List.mem_erase_of_ne ?_).mpr hd, hdcall, hsent⟩
    intro heq
    rw [heq, hcall] at hdcall
    have ha := Call.file.inj hdcall
    have hscanned := hother (by rw [ha])
    rw [ha] at hscanned
    cases hscanned
  rcases hcases with ⟨hsup, hscans, _⟩ | ⟨_, hwhy, hscans, _⟩ | ⟨_, hpath, hwhy, hscans, _⟩ |
      ⟨_, hpath, _, hscans, _⟩
  · have hwas : s.panel.scans path = some t := hscans ▸ hscan
    refine hold hwas ?_
    rintro rfl
    exact (superseded_tag hsup hwas).1
  · obtain ⟨hwas, hmeta⟩ := release_scans (show (s.panel.release a.path a.method found).scans path =
      some t from hscans ▸ hscan)
    refine hold hwas fun hp => ?_
    rcases hwhy with hother | hfound
    · rw [hp] at hother
      exact absurd hsel hother
    · exact absurd ((hmeta hp.symm).2 hfound) hne
  · have hp : path = a.path := Option.some.inj (hsel.symm.trans hpath)
    obtain ⟨hwas, hmeta⟩ := release_scans (show (s.panel.release a.path a.method found).scans path =
      some t from hscans ▸ hscan)
    rcases hwhy with hun | hdue
    · -- Marked on this connection, so the entry is no older.
      rw [Panel.markUnscannable, if_neg (by simp [(hmeta hp).1]), ← hp] at hun
      have hle := ht.order path _ t hun hwas
      have hge := ht.scans path t hwas
      have heq : s.panel.now = s.panel.opened := Nat.mod_eq_of_lt hsmall
      omega
    · have hrel : (s.panel.release a.path a.method found).scans a.path = some t := by
        rw [← hscans, ← hp]
        exact hscan
      exact absurd (Option.some.inj (hrel.symm.trans hdue)) hne
  · have hp : path = a.path := Option.some.inj (hsel.symm.trans hpath)
    have hdue : out.1.scans path = some s.panel.now := by
      rw [hscans, hp, Function.update_self]
    exact absurd (Option.some.inj (hscan.symm.trans hdue)) hne

/-! ### Every step -/

theorem Good.pop {s : System} (h : Good s) {m : Message} {batch : List Message}
    (hb : s.batch = m :: batch) {pending : List Request} (hsub : ∀ d ∈ pending, d ∈ s.pending)
    (hfile : ∀ d ∈ s.pending, ∀ a, d.call = .file a → d ∈ pending) :
    Good ({ s with batch := batch, pending := pending } : System) := by
  refine ⟨h.ordered.pop (messages_next hb) hsub, ?_, h.tagged, ?_⟩
  · intro path t ht
    obtain ⟨d, hd, hcall, htag⟩ := h.waits path t ht
    exact ⟨d, hfile d hd _ hcall, hcall, htag⟩
  · intro hsmall hup hconn path hcur hlost
    obtain ⟨d, hd, hcall, hsent⟩ := h.again hsmall hup hconn path hcur hlost
    exact ⟨d, hfile d hd _ hcall, hcall, hsent⟩

theorem good_metadata {s : System} (h : Good s) {r : Request} {b : Body} {batch : List Message}
    (hb : s.batch = .reply r b :: batch) (hmem : r ∈ s.pending) {a : Ask}
    (hcall : r.call = .file a) :
    Good (({ s with batch := batch, pending := s.pending.erase r } : System).act
      (s.panel.handleMetadata a.path a.method r.askedOn (b = .found))) := by
  obtain ⟨hopened, _⟩ := Panel.handleMetadata_frame s.panel a.path a.method r.askedOn (b = .found)
  have hasked : r.askedOn ≤ s.panel.opened :=
    Nat.le_trans (Nat.mod_le _ _) (h.ordered.asked r hmem)
  have hpop := h.ordered.pop (messages_next hb) fun d hd =>
      List.mem_of_mem_erase (a := d) (b := r) hd
  refine ⟨ordered_asks ?_ _, ?_, ?_, ?_⟩
  · unfold System.link
    rw [hopened]
    exact hpop
  · exact waits_metadata (s := { s with batch := batch }) h.waits hcall _
  · intro hsmall
    rw [System.act, (extends_asks _ _).panel] at hsmall ⊢
    have hlt : s.panel.opened < 2 ^ 32 := hopened ▸ hsmall
    exact tagged_metadata (h.tagged hlt) hlt hasked a.path a.method _
  · intro hsmall
    rw [System.act, (extends_asks _ _).panel] at hsmall
    have hlt : s.panel.opened < 2 ^ 32 := hopened ▸ hsmall
    exact again_metadata (s := { s with batch := batch }) (h.again hlt) (h.tagged hlt) hlt hcall _

theorem good_reply {s : System} (h : Good s) {r : Request} {b : Body} {batch : List Message}
    (hb : s.batch = .reply r b :: batch) (pick : Option Path) :
    Good (({ s with batch := batch } : System).handle (.reply r b) pick) := by
  simp only [System.handle]
  split_ifs with hmem
  · have hpop : (∀ a, r.call ≠ .file a) →
        Good ({ s with batch := batch, pending := s.pending.erase r } : System) := by
      intro hother
      refine h.pop hb (fun d hd => List.mem_of_mem_erase hd) fun d hd a hcall => ?_
      refine (List.mem_erase_of_ne ?_).mpr hd
      rintro rfl
      exact hother a hcall
    unfold System.answered
    cases hcall : r.call with
    | objects cause =>
      refine (hpop (by simp [hcall])).send fun k hk => ?_
      exact h.ordered.cause r hmem k (by rw [hcall]; exact hk)
    | list cause =>
      have hgood := hpop (by simp [hcall])
      cases b with
      | files answer =>
        refine good_shows (s := { s with
          batch := batch
          pending := s.pending.erase r
          refetched := cause.toList ++ s.refetched }) ?_ hgood.waits hgood.tagged
          (Panel.shows_handleList s.panel answer pick)
        have ho := hgood.ordered
        refine ⟨ho.asked, ho.seen, ?_, ho.cause, ho.ahead, ho.sorted, ho.here⟩
        intro k hk
        rcases List.mem_append.mp hk with hk | hk
        · refine h.ordered.cause r hmem k ?_
          rw [hcall]
          exact Option.mem_toList.mp hk
        · exact ho.refetched k hk
      | _ => exact hgood
    | file a => exact good_metadata h hb hmem hcall
  · exact h.pop hb (fun d hd => hd) fun d hd _ _ => hd

theorem good_next {s : System} (h : Good s) (pick : Option Path) :
    Good (step s (.next pick)) := by
  simp only [step]
  cases hb : s.batch with
  | nil => exact h
  | cons m batch =>
    have hpop : Good ({ s with batch := batch } : System) :=
      h.pop hb (fun d hd => hd) fun d hd _ _ => hd
    cases m with
    | connected k => exact good_connected h hb pick
    | disconnected => exact hpop
    | klippyReady => exact hpop.send fun k hk => nomatch hk
    | reply r b => exact good_reply h hb pick

theorem Link.Ordered.trim {l : Link} (h : l.Ordered) {messages : List Message}
    (hsub : messages.Sublist l.messages) : ({ l with messages := messages } : Link).Ordered :=
  ⟨h.asked, h.seen, h.refetched, h.cause, fun k hk => h.ahead k (hsub.subset hk),
    h.sorted.sublist hsub, h.here⟩

theorem Link.Ordered.snoc {l : Link} (h : l.Ordered) {m : Message}
    (hm : ∀ k, m = .connected k → (l.seen < k ∧ k ≤ l.conn) ∧ ∀ j, .connected j ∈ l.messages →
      j < k) :
    ({ l with messages := l.messages ++ [m] } : Link).Ordered := by
  refine ⟨h.asked, h.seen, h.refetched, h.cause, ?_, ?_, h.here⟩
  · intro k hk
    rcases List.mem_append.mp hk with hk | hk
    · exact h.ahead k hk
    · exact (hm k (List.mem_singleton.mp hk).symm).1
  · rw [List.pairwise_append]
    refine ⟨h.sorted, List.pairwise_singleton _ _, ?_⟩
    intro a ha b hb j k hj hk
    rw [List.mem_singleton.mp hb] at hk
    exact (hm k hk).2 j (hj ▸ ha)

theorem link_push (s : System) (m : Message) : (s.push m).link =
    { s.link with messages := (s.batch ++
      if s.queue.length ≥ queueMax then s.queue.tail else s.queue) ++ [m] } := by
  simp only [System.link, System.push, List.append_assoc]

theorem ordered_push {s : System} (h : s.link.Ordered) {m : Message}
    (hm : ∀ k, m = .connected k →
      (s.seen < k ∧ k ≤ s.conn) ∧ ∀ j, .connected j ∈ s.link.messages → j < k) :
    (s.push m).link.Ordered := by
  have hsub : (if s.queue.length ≥ queueMax then s.queue.tail else s.queue).Sublist s.queue := by
    split_ifs
    · exact List.tail_sublist _
    · exact List.Sublist.refl _
  have hall := hsub.append_left s.batch
  rw [link_push]
  refine (h.trim hall).snoc fun k hk => ?_
  obtain ⟨hrange, hlast⟩ := hm k hk
  exact ⟨hrange, fun j hj => hlast j (hall.subset hj)⟩

theorem Good.push {s : System} (h : Good s) {m : Message} (hm : ∀ k, m ≠ .connected k) :
    Good (s.push m) :=
  ⟨ordered_push h.ordered fun k hk => absurd hk (hm k), h.waits, h.tagged, h.again⟩

theorem good_open {s : System} (h : Good s) :
    Good (({ s with conn := s.conn + 1, up := true } : System).push (.connected (s.conn + 1))) := by
  have hseen : s.seen ≤ s.conn := h.ordered.seen
  have hopen : ({ s with conn := s.conn + 1, up := true } : System).link.Ordered := by
    refine ⟨h.ordered.asked, Nat.le_succ_of_le hseen, h.ordered.refetched, h.ordered.cause, ?_,
      h.ordered.sorted, ?_⟩
    · intro k hk
      have := h.ordered.ahead k hk
      exact ⟨this.1, Nat.le_succ_of_le this.2⟩
    · intro r hr hasked heq
      have hsucc : s.seen = s.conn + 1 := heq
      omega
  refine ⟨ordered_push hopen ?_, h.waits, h.tagged, ?_⟩
  · intro k hk
    cases hk
    refine ⟨⟨Nat.lt_succ_of_le hseen, Nat.le_refl _⟩, fun j hj => ?_⟩
    exact Nat.lt_succ_of_le (h.ordered.ahead j hj).2
  · intro _ _ hconn
    have hle : s.conn + 1 ≤ s.seen := h.ordered.refetched _ hconn
    omega

theorem good_drop {s : System} (h : Good s) : Good ({ s with
    up := false
    wire := []
    inbox := []
    scanning := fun path => (s.scanning path).map fun _ => none } : System) := by
  have ho := h.ordered
  exact ⟨⟨ho.asked, ho.seen, ho.refetched, ho.cause, ho.ahead, ho.sorted,
    fun _ _ _ _ hup => nomatch hup⟩,
    h.waits, h.tagged, fun _ hup => nomatch hup⟩

theorem good_swap {s : System} (h : Good s) (hb : s.batch = []) :
    Good ({ s with batch := s.queue, queue := [] } : System) := by
  have hlink : ({ s with batch := s.queue, queue := [] } : System).link = s.link := by
    simp [System.link, hb]
  exact ⟨hlink ▸ h.ordered, h.waits, h.tagged, h.again⟩

theorem good_step (s : System) (e : Event) (h : Good s) : Good (step s e) := by
  cases e with
  | «open» =>
    simp only [step]
    split_ifs
    · exact h
    · exact good_open h
  | drop =>
    simp only [step]
    split_ifs
    · exact (good_drop h).push fun k => nofun
    · exact h
  | klippyReady =>
    simp only [step]
    split_ifs
    · exact h.push fun k => nofun
    · exact h
  | receive answer =>
    simp only [step, System.receive]
    split
    · exact h
    · split <;> exact ⟨h.ordered, h.waits, h.tagged, h.again⟩
  | complete path ok =>
    simp only [step, System.complete]
    split
    · exact h
    · exact ⟨h.ordered, h.waits, h.tagged, h.again⟩
  | store path known => exact ⟨h.ordered, h.waits, h.tagged, h.again⟩
  | deliver =>
    simp only [step]
    split
    · exact h
    · rename_i r b inbox _
      have hgood : Good ({ s with inbox := inbox } : System) :=
        ⟨h.ordered, h.waits, h.tagged, h.again⟩
      exact hgood.push fun k => nofun
  | drain =>
    simp only [step]
    split_ifs with hb
    · exact good_swap h (List.isEmpty_iff.mp hb)
    · exact h
  | next pick => exact good_next h pick
  | select path =>
    rcases Panel.select_cases s.panel path with heq | hshows
    · simp only [step, heq]
      exact h
    · exact good_shows h.ordered h.waits h.tagged hshows
  | showDir pick => exact good_shows h.ordered h.waits h.tagged (Panel.shows_startOver s.panel pick)
  | refresh => exact h.send fun k hk => nomatch hk
  | press ready => exact h

theorem good_init : Good System.init := by
  refine ⟨⟨(fun _ hr => nomatch hr), Nat.le_refl _, (fun _ hk => nomatch hk),
    (fun _ hr => nomatch hr),
    (fun _ hk => nomatch hk), List.Pairwise.nil, (fun _ hr => nomatch hr)⟩, ?_, ?_, ?_⟩
  · intro path t ht
    cases ht
  · intro _
    exact ⟨(fun _ _ ht => nomatch ht), (fun _ _ hu => nomatch hu), fun _ _ _ hu => nomatch hu⟩
  · intro _ hup
    cases hup

/-- In every reachable state, an entry of the current id has its own scan's callback
pending; and with the websocket up, its Connected event and refetch handled and no
file request on it open, the selected file is not held, as long as the websocket
has opened fewer than 2^32 times. -/
theorem hold_has_a_release (es : List Event) :
    let s := Run.run step System.init es
    (∀ path, s.panel.scans path = some s.panel.now →
      ∃ r ∈ s.pending, r.call = .file ⟨.metascan, path⟩ ∧ r.askedOn = s.panel.now) ∧
    (s.panel.opened < 2 ^ 32 → s.up = true → s.seen = s.conn → s.conn ∈ s.refetched →
      (∀ r ∈ s.pending, s.unanswered r = false) →
      ∀ path, s.panel.curFile = some path → s.panel.scans path = none) := by
  intro s
  have h : Good s := Run.invariant_always good_step System.init es good_init
  refine ⟨fun path => h.waits path _, ?_⟩
  intro hsmall hup hseen hrefetched hall path hcur
  have hanswered : ∀ r ∈ s.pending, ∀ a, r.call = .file a → r.sentOn ≠ some s.conn := by
    intro r hr a hcall
    simpa [System.unanswered, hcall] using hall r hr
  by_contra hheld
  obtain ⟨t, ht⟩ := Option.ne_none_iff_exists'.mp hheld
  by_cases hlost : t = s.panel.now
  · -- This connection's own scan, and its request went out on this connection.
    rw [hlost] at ht
    obtain ⟨r, hr, hcall, htag⟩ := h.waits path _ ht
    have hle := h.ordered.asked r hr
    have hasked : r.askedAt = s.panel.opened := by
      have hlt : r.askedAt < 2 ^ 32 := Nat.lt_of_le_of_lt hle hsmall
      have heq : r.askedAt % 2 ^ 32 = s.panel.opened % 2 ^ 32 := htag
      rwa [Nat.mod_eq_of_lt hlt, Nat.mod_eq_of_lt hsmall] at heq
    exact hanswered r hr _ hcall (h.ordered.here r hr hasked hseen hup)
  · obtain ⟨r, hr, hcall, hsent⟩ :=
      h.again hsmall hup hrefetched path hcur (scanLost_iff.mpr ⟨t, ht, hlost⟩)
    exact hanswered r hr _ hcall hsent

-- The first scan's reply is lost with its connection.
def lostReply : List Event :=
  connect ++ exchange [] none ++
    [.receive [], .complete stickFile true, .drop, .drain, .next none]

def lostScan : List Event := lostReply ++ connect ++ exchange [] none

theorem hold_released_after_lostScan :
    (Run.run step System.init lostReply).panel.scans stickFile = some 1 ∧
    (Run.run step System.init lostScan).panel.scans stickFile = none :=
  ⟨by decide +kernel, (hold_has_a_release lostScan).2 (by decide +kernel) (by decide +kernel)
    (by decide +kernel) (by decide +kernel) (by decide +kernel) stickFile (by decide +kernel)⟩

/-! ### Ids that come round -/

-- The connection is lost and comes back, and nothing else happens.
def reconnect : List Event := [.drop, .drain, .next none, .open, .drain, .next none]

def reconnects : ℕ → List Event
  | 0 => []
  | n + 1 => reconnects n ++ reconnect

def askedOnFirst (r : Request) : Bool :=
  match r.call with
  | .file _ => r.sentOn = some 1
  | _ => true

/-- On connection `n`, with the scan of the first one still entered. -/
structure Stranded (n : ℕ) (s : System) : Prop where
  opened : s.panel.opened = n
  conn : s.conn = n
  seen : s.seen = n
  up : s.up = true
  queue : s.queue = []
  batch : s.batch = []
  inbox : s.inbox = []
  wire : ∃ r, s.wire = [r] ∧ r ∈ s.pending ∧ r.call = .objects (some n)
  scans : s.panel.scans stickFile = some 1
  unscannable : s.panel.unscannable stickFile = none
  curFile : s.panel.curFile = some stickFile
  files : s.panel.files = [⟨stickFile, 1, false⟩]
  stored : s.stored stickFile = false
  pending : ∀ r ∈ s.pending, askedOnFirst r = true

theorem stranded_reconnect {n : ℕ} {s : System} (h : Stranded n s) :
    Stranded (n + 1) (Run.run step s reconnect) := by
  obtain ⟨hopened, hconn, _, hup, hqueue, hbatch, _, _, hscans, hun, hcur, hfiles, hstored,
    hpending⟩ := h
  have hrun : Run.run step s reconnect =
      ({ s with
        panel := { s.panel with opened := n + 1 }
        queue := []
        batch := []
        conn := n + 1
        up := true
        wire := []
        inbox := []
        scanning := fun path => (s.scanning path).map fun _ => none
        seen := n + 1 } : System).send (.objects (some (n + 1))) := by
    simp [Run.run, reconnect, step, System.push, System.handle, queueMax, hup, hqueue,
      hbatch, hconn,
      hopened]
  rw [hrun]
  refine ⟨rfl, rfl, rfl, rfl, rfl, rfl, rfl,
    ⟨_, rfl, List.mem_append_right _ (List.mem_singleton_self _), rfl⟩,
    hscans, hun, hcur, hfiles, hstored, ?_⟩
  intro r hr
  rcases List.mem_append.mp hr with hr | hr
  · exact hpending r hr
  · rw [List.mem_singleton.mp hr]
    rfl

theorem stranded_reconnects {n : ℕ} {s : System} (h : Stranded n s) (k : ℕ) :
    Stranded (n + k) (Run.run step s (reconnects k)) := by
  induction k with
  | zero => exact h
  | succ k ih =>
    rw [reconnects, Run.run_append]
    exact stranded_reconnect ih

def System.body (s : System) (answer : List (Path × ℕ)) (r : Request) : Body :=
  match r.call with
  | .objects _ => .done
  | .list _ => .files answer
  | .file a => if s.stored a.path then .found else .missing

theorem run_exchange {s : System} {r : Request} (hqueue : s.queue = []) (hbatch : s.batch = [])
    (hinbox : s.inbox = []) (hwire : s.wire = [r]) (hmem : r ∈ s.pending)
    (hcall : ∀ path, r.call ≠ .file ⟨.metascan, path⟩)
    (answer : List (Path × ℕ)) (pick : Option Path) :
    Run.run step s (exchange answer pick) =
      ({ s with
        queue := []
        batch := []
        inbox := []
        wire := []
        pending := s.pending.erase r } : System).answered r (s.body answer r) pick := by
  have hreceive : s.receive answer = { s with wire := [], inbox := [(r, s.body answer r)] } := by
    unfold System.receive System.body
    rw [hwire]
    dsimp only
    split
    · rename_i cause heq
      simp [hinbox, heq]
    · rename_i cause heq
      simp [hinbox, heq]
    · rename_i path heq
      simp [hinbox, heq]
    · rename_i path hscan
      exact absurd hscan (hcall path)
  simp [Run.run, exchange, step, hreceive, System.push, System.handle, queueMax, hqueue,
    hbatch, hmem]

theorem handleList_kept {p : Panel} (hfiles : p.files = [⟨stickFile, 1, false⟩])
    (hcur : p.curFile = some stickFile) :
    (p.handleList [(stickFile, 1)] none).1.hold = p.hold ∧
    (p.handleList [(stickFile, 1)] none).2 = [⟨.metadata, stickFile⟩] := by
  have hrelist : p.relist [(stickFile, 1)] = [⟨stickFile, 1, false⟩] := by
    simp [Panel.relist, Panel.findFile, hfiles]
  simp [Panel.handleList, Panel.findFile, hrelist, hcur, Panel.showFileDetail, Panel.hold,
    Panel.updatePrintBtn]

theorem handleMetadata_due {p : Panel} {path : Path} (hcur : p.curFile = some path)
    (hun : p.unscannable path = none) (hdue : p.scans path = some p.now) (askedOn : ℕ) :
    (p.handleMetadata path .metadata askedOn false).1.hold = p.hold ∧
    (p.handleMetadata path .metadata askedOn false).2 = [] := by
  simp [Panel.handleMetadata, Panel.superseded, Panel.release, Panel.released,
    Panel.markUnscannable, Panel.missed, hcur, hun, hdue, Panel.hold, Panel.updatePrintBtn]

theorem not_unanswered_of_first {s : System} {r : Request} (h : askedOnFirst r = true)
    (hne : s.conn ≠ 1) : s.unanswered r = false := by
  cases hcall : r.call with
  | file a =>
    have hsent : r.sentOn = some 1 := by simpa [askedOnFirst, hcall] using h
    simp [System.unanswered, hcall, hsent, Ne.symm hne]
  | _ => simp [System.unanswered, hcall]

def listing (n : ℕ) (s : System) : Request := ⟨s.nextId, .list (some n), n, some n⟩

def question (n : ℕ) (s : System) : Request :=
  ⟨s.nextId + 1, .file ⟨.metadata, stickFile⟩, n, some n⟩

theorem stranded_listing {n : ℕ} {s : System} (h : Stranded n s) :
    ∃ rest, (∀ d ∈ rest, askedOnFirst d = true) ∧
      Run.run step s (exchange [] none) = { s with
        nextId := s.nextId + 1
        queue := []
        batch := []
        inbox := []
        wire := [listing n s]
        pending := rest ++ [listing n s] } := by
  obtain ⟨r, hwire, hmem, hcall⟩ := h.wire
  refine ⟨s.pending.erase r, fun d hd => h.pending d (List.mem_of_mem_erase hd), ?_⟩
  rw [run_exchange h.queue h.batch h.inbox hwire hmem (by simp [hcall])]
  simp [System.answered, hcall, System.send, h.up, h.conn, h.opened, listing]

theorem stranded_question {n : ℕ} {s : System} (h : Stranded n s) :
    ∃ rest, (∀ d ∈ rest, d.call = .list (some n) ∨ askedOnFirst d = true) ∧
      Run.run step s (exchange [] none ++ exchange [(stickFile, 1)] none) = { s with
        panel := (s.panel.handleList [(stickFile, 1)] none).1
        nextId := s.nextId + 2
        queue := []
        batch := []
        inbox := []
        wire := [question n s]
        pending := rest ++ [question n s]
        refetched := n :: s.refetched } := by
  obtain ⟨rest, hrest, hlisting⟩ := stranded_listing h
  obtain ⟨hkept, hasks⟩ := handleList_kept h.files h.curFile
  have hopened : (s.panel.handleList [(stickFile, 1)] none).1.opened = n :=
    (congrArg Panel.Hold.opened hkept).trans h.opened
  refine ⟨(rest ++ [listing n s]).erase (listing n s), ?_, ?_⟩
  · intro d hd
    rcases List.mem_append.mp (List.mem_of_mem_erase hd) with hd | hd
    · exact Or.inr (hrest d hd)
    · rw [List.mem_singleton.mp hd]
      exact Or.inl rfl
  · rw [Run.run_append, hlisting, run_exchange rfl rfl rfl rfl
      (List.mem_append_right _ (List.mem_singleton_self _)) (by simp [listing])]
    simp [System.answered, System.body, listing, System.act, hasks, System.send, h.up, h.conn,
      hopened,
      question]

/-- The refetch of a connection that has the first one's id again asks about the file,
and the miss is put down to a scan that is still running. -/
theorem stranded_refetch {n : ℕ} {s : System} (h : Stranded n s) (hid : connectionId n = 1)
    (hne : n ≠ 1) :
    let t := Run.run step s (exchange [] none ++ exchange [(stickFile, 1)] none ++ exchange [] none)
    t.up = true ∧ t.seen = t.conn ∧ t.conn ∈ t.refetched ∧
      (∀ r ∈ t.pending, t.unanswered r = false) ∧ t.panel.curFile = some stickFile ∧
      t.panel.scans stickFile = some 1 := by
  obtain ⟨rest, hrest, hquestion⟩ := stranded_question h
  obtain ⟨hkept, _⟩ := handleList_kept h.files h.curFile
  generalize (s.panel.handleList [(stickFile, 1)] none).1 = listed at hquestion hkept
  have hcur : listed.curFile = some stickFile := (congrArg Panel.Hold.curFile hkept).trans h.curFile
  have hscans : listed.scans stickFile = some 1 :=
    (congrFun (congrArg Panel.Hold.scans hkept) stickFile).trans h.scans
  have hun : listed.unscannable stickFile = none :=
    (congrFun (congrArg Panel.Hold.unscannable hkept) stickFile).trans h.unscannable
  have hnow : listed.now = 1 := by
    have hopened := (congrArg Panel.Hold.opened hkept).trans h.opened
    exact (congrArg connectionId hopened).trans hid
  obtain ⟨hdue, hquiet⟩ := handleMetadata_due hcur hun (hscans.trans (congrArg some hnow.symm))
    (question n s).askedOn
  have hfresh : question n s ∉ rest := by
    intro hd
    rcases hrest _ hd with hlisting | hfirst
    · cases hlisting
    · exact hne (by simpa [askedOnFirst, question] using hfirst)
  have hlast : Run.run step s
      (exchange [] none ++ exchange [(stickFile, 1)] none ++ exchange [] none) =
      { s with
        panel := (listed.handleMetadata stickFile .metadata (question n s).askedOn false).1
        nextId := s.nextId + 2
        queue := []
        batch := []
        inbox := []
        wire := []
        pending := rest
        refetched := n :: s.refetched } := by
    rw [Run.run_append, hquestion, run_exchange rfl rfl rfl rfl
      (List.mem_append_right _ (List.mem_singleton_self _)) (by simp [question])]
    have hcall : (question n s).call = .file ⟨.metadata, stickFile⟩ := rfl
    simp [System.answered, System.body, hcall, System.act, h.stored, hquiet,
      List.erase_append_right _ hfresh]
  intro t
  have ht : t = _ := hlast
  rw [ht]
  refine ⟨h.up, h.seen.trans h.conn.symm, ?_, ?_, ?_, ?_⟩
  · rw [h.conn]
    exact List.mem_cons_self
  · intro d hd
    rcases hrest d hd with hlisting | hfirst
    · simp [System.unanswered, hlisting]
    · exact not_unanswered_of_first hfirst (h.conn.trans_ne hne)
  · exact (congrArg Panel.Hold.curFile hdue).trans hcur
  · exact (congrFun (congrArg Panel.Hold.scans hdue) stickFile).trans hscans

-- The file's scan is asked for on the first connection, and that connection is lost.
def firstDrop : List Event := connect ++ exchange [] none ++ [.receive []] ++ reconnect

theorem stranded_firstDrop : Stranded 2 (Run.run step System.init firstDrop) := by
  refine ⟨by decide +kernel, by decide +kernel, by decide +kernel, by decide +kernel,
    by decide +kernel, by decide +kernel, by decide +kernel,
      ?_, by decide +kernel, by decide +kernel,
    by decide +kernel, by decide +kernel, by decide +kernel, by decide +kernel⟩
  exact ⟨⟨4, .objects (some 2), 2, some 2⟩, by decide +kernel, by decide +kernel, rfl⟩

def roundRun (k : ℕ) : List Event :=
  firstDrop ++ reconnects k ++
    (exchange [] none ++ exchange [(stickFile, 1)] none ++ exchange [] none)

theorem held_after_roundRun {k : ℕ} (hid : connectionId (2 + k) = 1) :
    ¬ (let s := Run.run step System.init (roundRun k)
      s.up = true → s.seen = s.conn → s.conn ∈ s.refetched →
        (∀ r ∈ s.pending, s.unanswered r = false) →
        ∀ path, s.panel.curFile = some path → s.panel.scans path = none) := by
  have hround := stranded_reconnects stranded_firstDrop k
  have hrun : Run.run step System.init (roundRun k) =
      Run.run step (Run.run step (Run.run step System.init firstDrop) (reconnects k))
        (exchange [] none ++ exchange [(stickFile, 1)] none ++ exchange [] none) := by
    simp only [roundRun, Run.run_append]
  rw [hrun]
  obtain ⟨hup, hseen, hconn, hanswered, hcur, hscans⟩ := stranded_refetch hround hid (by omega)
  intro hreleased
  have hnone := hreleased hup hseen hconn hanswered stickFile hcur
  rw [hscans] at hnone
  cases hnone

/-- After 2^32 reconnects the first connection's id comes round, and its entry is taken
for one of this connection: everything is answered, and the file is held. -/
theorem hold_kept_when_ids_come_round : ¬ ∀ es : List Event,
    let s := Run.run step System.init es
    s.up = true → s.seen = s.conn → s.conn ∈ s.refetched →
      (∀ r ∈ s.pending, s.unanswered r = false) →
      ∀ path, s.panel.curFile = some path → s.panel.scans path = none := by
  intro hall
  have hid : connectionId (2 + (2 ^ 32 - 1)) = 1 := by decide
  exact held_after_roundRun hid (hall _)

end GuppyScreen.PrintPanel
