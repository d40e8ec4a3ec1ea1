import GuppyScreen.Lib.Run
import GuppyScreen.Wifi.Blocks

/-!
# The current network (wifi_panel.cpp)

`find_current_network` sets `cur_network` where a line of LIST_NETWORKS says
`[CURRENT]`, and leaves it alone in a reply where none does. A tap on the current
network sends nothing.
-/

namespace GuppyScreen.Wifi
open Lib Run

/-! ### What a reply says -/

/-- The name on a line whose flags have `[CURRENT]`. -/
def flaggedName (line : Bytes) : Option Bytes :=
  match Split.getlines tab line with
  | [_, name, _, flags] => if bytes "[CURRENT]" <:+: flags then some name else none
  | _ => none

def flagged (nets : Bytes) : List Bytes := (Split.getlines newline nets).filterMap flaggedName

/-- A name is that of a flagged block; it is empty where no block is flagged. -/
def IsCurrent (nets name : Bytes) : Prop :=
  name ∈ flagged nets ∨ flagged nets = [] ∧ name = []

theorem isCurrent_last_iff (nets name : Bytes) :
    IsCurrent nets ((flagged nets).getLast?.getD name) ↔ flagged nets ≠ [] ∨ name = [] := by
  rw [IsCurrent]
  cases hlast : (flagged nets).getLast? with
  | none =>
    rw [List.getLast?_eq_none_iff] at hlast
    simp [hlast]
  | some last =>
    have hmem := List.mem_of_getLast? hlast
    simp [hmem, List.ne_nil_of_mem hmem]

/-- A line of four columns has `[CURRENT]` in its flags or not at all. -/
def FlagsOnly (nets : Bytes) : Prop :=
  ∀ line ∈ Split.getlines newline nets, (Split.getlines tab line).length = 4 →
    bytes "[CURRENT]" <:+: line → (flaggedName line).isSome = true

instance (nets : Bytes) : Decidable (FlagsOnly nets) :=
  inferInstanceAs (Decidable (∀ line ∈ Split.getlines newline nets, _ → _ → _))

theorem flaggedName_some {line name : Bytes} (h : flaggedName line = some name) :
    ∃ id bssid flags, Split.getlines tab line = [id, name, bssid, flags] ∧
      bytes "[CURRENT]" <:+: line := by
  unfold flaggedName at h
  split at h
  · rename_i id found bssid flags hparts
    split_ifs at h with hflags
    cases h
    have hcolumn : flags ∈ Split.getlines tab line := by
      rw [hparts]
      simp
    exact ⟨id, bssid, flags, hparts, hflags.trans (Split.infix_of_mem_getlines hcolumn)⟩
  · cases h

theorem Mark.current_iff (m : Mark) : bytes "[CURRENT]" <:+: m.flags ↔ m.current = true := by
  unfold Mark.flags
  cases m.current <;> cases m.disabled <;> cases m.tempDisabled <;> cases m.persistent <;> decide

theorem flaggedName_networkLine (marks : ℕ → Mark) (b : ℕ × Block) :
    flaggedName (networkLine marks b) =
      if (marks b.1).current then some (ssidTxt b.2.ssid) else none := by
  have hcurrent := Mark.current_iff (marks b.1)
  unfold flaggedName Split.getlines
  rw [splitOn_networkLine]
  by_cases hflags : (marks b.1).flags = []
  · -- Without flags the line ends after the third column.
    rw [hflags] at hcurrent ⊢
    have hnone : (marks b.1).current ≠ true := by
      rw [ne_eq, ← hcurrent]
      decide
    simp [hnone]
  · simp [hflags, hcurrent]

/-- The lines of wpa_supplicant are flagged as its blocks are. -/
theorem flagged_networkLines (marks : ℕ → Mark) (t : Networks) :
    flagged (networkLines marks t) =
      (t.blocks.filter fun b => (marks b.1).current).map fun b => ssidTxt b.2.ssid := by
  have hheader : flaggedName (bytes "network id / ssid / bssid / flags") = none := by decide
  rw [flagged, getlines_networkLines, List.filterMap_cons, hheader, List.filterMap_map]
  dsimp only
  induction t.blocks with
  | nil => rfl
  | cons b blocks ih =>
    rw [List.filterMap_cons, Function.comp_apply, flaggedName_networkLine, List.filter_cons]
    split_ifs with hb
    · rw [List.map_cons, ← ih]
    · exact ih

namespace WifiPanel

theorem noteNetwork_cur {line : Bytes}
    (h : (Split.getlines tab line).length = 4 → bytes "[CURRENT]" <:+: line →
      (flaggedName line).isSome = true) (pf : WifiPanel × Bool) :
    (noteNetwork pf line).1.curNetwork = (flaggedName line).getD pf.1.curNetwork := by
  cases hflag : flaggedName line with
  | some name =>
    obtain ⟨id, bssid, flags, hparts, hcur⟩ := flaggedName_some hflag
    simp only [noteNetwork, hparts]
    rw [if_pos ⟨rfl, hcur⟩]
    rfl
  | none =>
    unfold noteNetwork
    split
    · rename_i id name more hparts
      dsimp only
      rw [if_neg]
      · rfl
      · rintro ⟨hlen, hcur⟩
        have hsome := h (by rw [hparts]; simp [hlen]) hcur
        rw [hflag] at hsome
        cases hsome
    · rfl

theorem foldl_noteNetwork_cur {lines : List Bytes}
    (h : ∀ line ∈ lines, (Split.getlines tab line).length = 4 → bytes "[CURRENT]" <:+: line →
      (flaggedName line).isSome = true) (pf : WifiPanel × Bool) :
    (lines.foldl noteNetwork pf).1.curNetwork =
      (lines.filterMap flaggedName).getLast?.getD pf.1.curNetwork := by
  induction lines generalizing pf with
  | nil => rfl
  | cons line lines ih =>
    have hline := noteNetwork_cur (h line (List.mem_cons_self ..)) pf
    rw [List.foldl_cons, ih fun l hl => h l (List.mem_cons_of_mem line hl), hline,
      List.filterMap_cons]
    cases flaggedName line with
    | none => rfl
    | some name =>
      dsimp only
      rw [List.getLast?_cons]
      rfl

theorem findCurrentNetwork_cur {nets : Bytes} (h : FlagsOnly nets) (p : WifiPanel) :
    (p.findCurrentNetwork nets).1.curNetwork = (flagged nets).getLast?.getD p.curNetwork :=
  foldl_noteNetwork_cur h _

theorem showScan_cur (p : WifiPanel) (i : ℕ) (lines : List Bytes) :
    (p.showScan i lines).curNetwork = p.curNetwork := by
  induction lines generalizing p i with
  | nil => rfl
  | cons line lines ih =>
    unfold showScan
    split
    · exact ih p i
    · split
      · rfl
      · split_ifs
        · exact ih p i
        · exact ih _ _

theorem showNames_cur (p : WifiPanel) (i : ℕ) (names : List Bytes) :
    (p.showNames i names).curNetwork = p.curNetwork := by
  induction names generalizing p i with
  | nil => rfl
  | cons name names ih => exact ih _ _

theorem handleScanResults_cur {nets : Bytes} (h : FlagsOnly nets) (p : WifiPanel) (scan : Bytes) :
    (p.handleScanResults scan nets).curNetwork = (flagged nets).getLast?.getD p.curNetwork := by
  rw [handleScanResults, showScan_cur, findCurrentNetwork_cur h]

theorem handleConnected_cur {nets : Bytes} (h : FlagsOnly nets) (p : WifiPanel) :
    (p.handleConnected nets).curNetwork = (flagged nets).getLast?.getD p.curNetwork := by
  unfold handleConnected
  dsimp only
  split_ifs
  · rw [showNames_cur, findCurrentNetwork_cur h]
  · exact findCurrentNetwork_cur h p

end WifiPanel

/-! ### Runs -/

namespace World

/-- The reply that `find_current_network` reads in this event. -/
def heard (w : World) (e : Event × Peer) : List Bytes :=
  match e.1 with
  | .scanResults | .connected =>
    [(serve e.2.listNetworks e.2.marks e.2.found w.networks (bytes "LIST_NETWORKS")).2]
  | _ => []

/-- What the last reply flags; the latest stands first. -/
def lastFlagged (replies : List Bytes) : List Bytes := replies.head?.elim [] flagged

/-- A tap on a saved network that is not the current one selects it. -/
def TapSelects (s : World × List Bytes) (e : Event × Peer) : Prop :=
  match e.1 with
  | .select row => ∀ r nid, s.1.panel.wifiTable[row]? = some r →
      s.1.panel.listNetworks.lookup r.name = some nid → r.name ∉ lastFlagged s.2 →
      bytes "SELECT_NETWORK " ++ nid ∈ (s.1.step e).sent.map Prod.fst
  | _ => True

/-- `cur_network` is the supplicant's after `find_current_network`, and a tap goes by it. -/
def Agrees (s : World × List Bytes) (e : Event × Peer) : Prop :=
  (∀ nets ∈ s.1.heard e, IsCurrent nets (s.1.step e).panel.curNetwork) ∧ TapSelects s e

/-- The reply flags a network, or none was current before. -/
def Settled (w : World) (e : Event × Peer) : Prop :=
  ∀ nets ∈ w.heard e, flagged nets ≠ [] ∨ w.panel.curNetwork = []

instance (w : World) (e : Event × Peer) : Decidable (w.Settled e) :=
  inferInstanceAs (Decidable (∀ nets ∈ w.heard e, _ ∨ _))

theorem select_cur (w : World) (peer : Peer) (row : ℕ) :
    (w.select peer row).panel.curNetwork = w.panel.curNetwork := by
  unfold select
  split
  · rfl
  · dsimp only
    split_ifs
    · rfl
    · split <;> rfl

theorem connect_cur (w : World) (peer : Peer) (password : Bytes) :
    (w.connect peer password).panel.curNetwork = w.panel.curNetwork := by
  have hdrop : (w.dropExisting peer).panel.curNetwork = w.panel.curNetwork := by
    unfold dropExisting
    split <;> rfl
  unfold connect
  dsimp only
  split_ifs
  · exact hdrop
  · exact hdrop

theorem forgetNetwork_cur (w : World) (peer : Peer) :
    (w.forgetNetwork peer).panel.curNetwork = w.panel.curNetwork ∨
      (w.forgetNetwork peer).panel.curNetwork = [] := by
  unfold forgetNetwork
  split
  · exact .inl rfl
  · dsimp only [withPanel, send]
    split_ifs
    · exact .inr rfl
    · exact .inl rfl

theorem step_cur (w : World) (e : Event × Peer) (hflags : ∀ nets ∈ w.heard e, FlagsOnly nets) :
    (∃ nets, w.heard e = [nets] ∧
      (w.step e).panel.curNetwork = (flagged nets).getLast?.getD w.panel.curNetwork) ∨
    w.heard e = [] ∧ ((w.step e).panel.curNetwork = w.panel.curNetwork ∨
      (w.step e).panel.curNetwork = []) := by
  obtain ⟨e, peer⟩ := e
  cases e with
  | scanResults =>
    have hsame : (({ w with sent := [] } : World).send peer peer.scanResults
        (bytes "SCAN_RESULTS")).networks = w.networks := send_same rfl
    refine .inl ⟨_, rfl, ?_⟩
    simp only [step, scanResults, withPanel, reply_send, send_panel, hsame]
    exact WifiPanel.handleScanResults_cur (hflags _ (List.mem_singleton_self _)) _ _
  | connected =>
    refine .inl ⟨_, rfl, ?_⟩
    simp only [step, connected, withPanel, reply_send, send_panel]
    exact WifiPanel.handleConnected_cur (hflags _ (List.mem_singleton_self _)) _
  | select row => exact .inr ⟨rfl, .inl (select_cur _ peer row)⟩
  | ready password =>
    refine .inr ⟨rfl, .inl ?_⟩
    simp only [step]
    split_ifs
    · rfl
    · exact connect_cur _ peer password
  | forget => exact .inr ⟨rfl, forgetNetwork_cur _ peer⟩

theorem heard_isCurrent_iff {w : World} {e : Event × Peer}
    (hflags : ∀ nets ∈ w.heard e, FlagsOnly nets) :
    (∀ nets ∈ w.heard e, IsCurrent nets (w.step e).panel.curNetwork) ↔ w.Settled e := by
  rw [Settled]
  rcases step_cur w e hflags with ⟨nets, hheard, hcur⟩ | ⟨hheard, -⟩
  · rw [hheard, hcur]
    simp only [List.forall_mem_singleton]
    exact isCurrent_last_iff nets w.panel.curNetwork
  · rw [hheard]
    simp

/-- `cur_network` is empty or the last reply flagged it. -/
def Told (s : World × List Bytes) : Prop :=
  s.1.panel.curNetwork = [] ∨ s.1.panel.curNetwork ∈ lastFlagged s.2

theorem told_step {s : World × List Bytes} {e : Event × Peer}
    (hflags : ∀ nets ∈ s.1.heard e, FlagsOnly nets) (hsettled : s.1.Settled e) (h : Told s) :
    Told (logged step heard s e) := by
  have hcurrent := (heard_isCurrent_iff hflags).mpr hsettled
  unfold Told logged lastFlagged
  rcases step_cur s.1 e hflags with ⟨nets, hheard, -⟩ | ⟨hheard, hcur⟩
  · rw [hheard] at hcurrent ⊢
    rcases hcurrent nets (List.mem_singleton_self _) with hname | ⟨-, hnil⟩
    · exact .inr hname
    · exact .inl hnil
  · rw [hheard]
    rcases hcur with hsame | hnil
    · dsimp only
      rw [hsame]
      exact h
    · exact .inl hnil

theorem tapSelects_of_told {s : World × List Bytes} (h : Told s) (e : Event × Peer) :
    TapSelects s e := by
  obtain ⟨e, peer⟩ := e
  cases e with
  | select row =>
    intro r nid hrow hsaved hother
    have hcur : ¬ (s.1.panel.curNetwork.length > 0 ∧ s.1.panel.curNetwork = r.name) := by
      rintro ⟨hpos, hname⟩
      rcases h with hnil | htold
      · rw [hnil] at hpos
        cases hpos
      · exact hother (hname ▸ htold)
    simp only [step, select, hrow, withPanel, if_neg hcur, hsaved]
    simp [send_sent]
  | _ => trivial

/-- With `[CURRENT]` nowhere but in the flags, the panel goes by the supplicant's
current network all along a run exactly if no reply without one meets a
`cur_network` that is set. -/
theorem agrees_in_every_run_iff (networks : Networks) (events : List (Event × Peer))
    (hflags : Along step (fun w e => ∀ nets ∈ w.heard e, FlagsOnly nets)
      ⟨networks, {}, []⟩ events) :
    Along (logged step heard) Agrees (⟨networks, {}, []⟩, []) events ↔
      Along step Settled ⟨networks, {}, []⟩ events := by
  rw [← along_logged step heard Settled _ []]
  refine along_iff (I := Told) (C := fun s e => ∀ nets ∈ s.1.heard e, FlagsOnly nets) ?_ ?_ _ _
    (.inl rfl) ((along_logged step heard _ _ [] events).mpr hflags)
  · intro s e htold hf hsettled
    exact told_step hf hsettled htold
  · intro s e htold hf
    rw [Agrees, heard_isCurrent_iff hf]
    exact and_iff_left (tapSelects_of_told htold e)

def homeAndShop : Networks where
  blocks := [(0, { ssid := bytes "home" }), (1, { ssid := bytes "shop" })]
  distinct := by decide

def nearby (current : ℕ → Bool) : Peer where
  marks n := { current := current n, clean := any_clean }
  found := [cafe (bytes "home") (by decide), cafe (bytes "shop") (by decide)]

/-- A scan with some blocks current, then one with others, and a tap on the first row. -/
def roamRun (first second : ℕ → Bool) : List (Event × Peer) :=
  [(.scanResults, nearby first), (.scanResults, nearby second), (.select 0, {})]

theorem agrees_in_roamRun :
    (run step ⟨homeAndShop, {}, []⟩ (roamRun (· == 0) (· == 1))).sent.map Prod.fst =
        [bytes "SELECT_NETWORK 0", bytes "SAVE_CONFIG"] ∧
      Along (logged step heard) Agrees (⟨homeAndShop, {}, []⟩, [])
        (roamRun (· == 0) (· == 1)) :=
  ⟨by decide +kernel,
    (agrees_in_every_run_iff homeAndShop _ (by decide +kernel)).mpr (by decide +kernel)⟩

/-- No block is current any more: `home` still is for the panel, and a tap on it does nothing. -/
theorem stale_current_in_roamRun :
    (run step ⟨homeAndShop, {}, []⟩ (roamRun (· == 0) fun _ => false)).sent = [] ∧
      ¬ ∀ networks events,
        Along (logged step heard) Agrees (⟨networks, {}, []⟩, []) events := by
  refine ⟨by decide +kernel, ?_⟩
  intro h
  obtain ⟨-, -, ⟨-, htap⟩, -⟩ := h homeAndShop (roamRun (· == 0) fun _ => false)
  have hsent := htap ⟨bytes "home", true⟩ (bytes "0") (by decide +kernel) (by decide +kernel)
    (by decide +kernel)
  revert hsent
  decide +kernel

end World

end GuppyScreen.Wifi
