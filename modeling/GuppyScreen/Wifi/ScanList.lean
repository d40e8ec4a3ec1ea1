import GuppyScreen.Lib.Run
import GuppyScreen.Wifi.Blocks
import Mathlib.Data.List.Dedup

/-!
# The list of networks on screen (wifi_panel.cpp)

`handle_wpa_event` writes the rows of `wifi_table` in two places and sets the row
count in neither: whatever a handler does not write over stays on screen.
-/

namespace GuppyScreen.Wifi
open Lib Run

/-! ### Names seen for the first time -/

section
variable {α : Type} [DecidableEq α]

def firstSeen (seen : List α) : List α → List α
  | [] => []
  | a :: as => if a ∈ seen then firstSeen seen as else a :: firstSeen (a :: seen) as

theorem mem_firstSeen {seen as : List α} {a : α} : a ∈ firstSeen seen as ↔ a ∈ as ∧ a ∉ seen := by
  induction as generalizing seen with
  | nil => simp [firstSeen]
  | cons b as ih =>
    rw [firstSeen]
    split_ifs with hb
    · rw [ih, List.mem_cons]
      constructor
      · exact fun h => ⟨.inr h.1, h.2⟩
      · rintro ⟨rfl | h, hs⟩
        · exact absurd hb hs
        · exact ⟨h, hs⟩
    · rw [List.mem_cons, ih, List.mem_cons, List.mem_cons]
      by_cases hab : a = b
      · simp [hab, hb]
      · simp [hab]

theorem nodup_firstSeen (seen as : List α) : (firstSeen seen as).Nodup := by
  induction as generalizing seen with
  | nil => exact List.nodup_nil
  | cons b as ih =>
    rw [firstSeen]
    split_ifs with hb
    · exact ih seen
    · refine List.nodup_cons.mpr ⟨?_, ih _⟩
      intro h
      exact (mem_firstSeen.mp h).2 (List.mem_cons_self ..)

theorem firstSeen_congr {s t : List α} (h : ∀ a, a ∈ s ↔ a ∈ t) (as : List α) :
    firstSeen s as = firstSeen t as := by
  induction as generalizing s t with
  | nil => rfl
  | cons b as ih =>
    have hcons : ∀ a, a ∈ b :: s ↔ a ∈ b :: t := by
      intro a
      rw [List.mem_cons, List.mem_cons, h]
    simp only [firstSeen, h, ih h, ih hcons]

theorem firstSeen_perm_dedup (as : List α) : (firstSeen [] as).Perm as.dedup := by
  rw [List.perm_ext_iff_of_nodup (nodup_firstSeen [] as) as.nodup_dedup]
  intro a
  simp [mem_firstSeen]

end

namespace WifiPanel

/-! ### Rows written one after the other -/

/-- The table once these names stand in it from row `i` on. -/
def putRows (p : WifiPanel) (i : ℕ) (names : List Bytes) : List Row :=
  p.wifiTable.take i ++ names.map (fun name => ⟨name, decide (p.curNetwork = name)⟩) ++
    p.wifiTable.drop (i + names.length)

theorem putRows_nil (p : WifiPanel) (i : ℕ) : p.putRows i [] = p.wifiTable := by
  simp [putRows]

theorem length_setRow {p : WifiPanel} {i : ℕ} (h : i ≤ p.wifiTable.length) (name : Bytes) :
    i + 1 ≤ (p.setRow i name).length := by
  simp only [setRow, List.length_append, List.length_take, List.length_cons]
  omega

theorem putRows_cons {p : WifiPanel} {i : ℕ} (h : i ≤ p.wifiTable.length) (name : Bytes)
    (names : List Bytes) (db : StdMap Bytes ℤ) :
    { p with
      wifiNameDb := db
      wifiTable := p.setRow i name }.putRows (i + 1) names = p.putRows i (name :: names) := by
  have hlen : (p.wifiTable.take i).length = i := List.length_take_of_le h
  have htake : (p.setRow i name).take (i + 1) =
      p.wifiTable.take i ++ [⟨name, decide (p.curNetwork = name)⟩] := by
    rw [setRow, List.take_append, hlen]
    simp
  have hdrop : (p.setRow i name).drop (i + 1 + names.length) =
      p.wifiTable.drop (i + (names.length + 1)) := by
    rw [setRow, List.drop_append, hlen, List.drop_eq_nil_of_le (by omega),
      show i + 1 + names.length - i = names.length + 1 by omega, List.drop_succ_cons,
      List.drop_drop, show i + 1 + names.length = i + (names.length + 1) by omega]
    rfl
  simp only [putRows, htake, hdrop, List.map_cons, List.length_cons, List.append_assoc,
    List.singleton_append]

theorem names_putRows_zero (p : WifiPanel) (names : List Bytes) :
    (p.putRows 0 names).map Row.name =
      names ++ (p.wifiTable.drop names.length).map Row.name := by
  simp [putRows, Function.comp_def]

theorem showNames_spec {p : WifiPanel} {i : ℕ} (h : i ≤ p.wifiTable.length) (names : List Bytes) :
    (p.showNames i names).wifiTable = p.putRows i names ∧
      (p.showNames i names).wifiNameDb = p.wifiNameDb := by
  induction names generalizing p i with
  | nil => exact ⟨(putRows_nil p i).symm, rfl⟩
  | cons name names ih =>
    obtain ⟨htable, hdb⟩ := ih (p := { p with wifiTable := p.setRow i name })
      (length_setRow h name)
    exact ⟨htable.trans (putRows_cons h name names p.wifiNameDb), hdb⟩

/-- The level of a line that is listed is a number. -/
def Readable (line : Bytes) : Prop :=
  (wifiParts line).all (fun parts => (stoi parts.1).isSome) = true

instance (line : Bytes) : Decidable (Readable line) :=
  inferInstanceAs (Decidable (_ = true))

theorem showScan_spec {p : WifiPanel} {i : ℕ} {lines : List Bytes}
    (hread : ∀ line ∈ lines, Readable line) (h : i ≤ p.wifiTable.length) :
    (p.showScan i lines).wifiTable =
        p.putRows i (firstSeen p.wifiNameDb.keys (lines.filterMap listedName)) ∧
      ∀ name, name ∈ (p.showScan i lines).wifiNameDb ↔
        name ∈ p.wifiNameDb ∨ name ∈ lines.filterMap listedName := by
  induction lines generalizing p i with
  | nil =>
    refine ⟨(putRows_nil p i).symm, ?_⟩
    intro name
    simp [showScan]
  | cons line lines ih =>
    have hrest : ∀ l ∈ lines, Readable l := fun l hl => hread l (List.mem_cons_of_mem line hl)
    cases hparts : wifiParts line with
    | none =>
      have hname : listedName line = none := by rw [listedName, hparts]; rfl
      simp only [showScan, hparts, List.filterMap_cons, hname]
      exact ih hrest h
    | some parts =>
      obtain ⟨level, name⟩ := parts
      have hname : listedName line = some name := by rw [listedName, hparts]; rfl
      have hnumber := hread line (List.mem_cons_self ..)
      rw [Readable, hparts] at hnumber
      obtain ⟨strength, hlevel⟩ := Option.isSome_iff_exists.mp hnumber
      simp only [showScan, hparts, hlevel, List.filterMap_cons, hname, firstSeen]
      by_cases hdb : name ∈ p.wifiNameDb
      · rw [if_pos hdb, if_pos (AList.mem_keys.mp hdb)]
        obtain ⟨htable, hkeys⟩ := ih hrest h
        refine ⟨htable, ?_⟩
        intro other
        rw [hkeys, List.mem_cons]
        constructor
        · exact fun ho => ho.imp_right .inr
        · rintro (ho | rfl | ho)
          · exact .inl ho
          · exact .inl hdb
          · exact .inr ho
      · rw [if_neg hdb, if_neg fun hk => hdb (AList.mem_keys.mpr hk)]
        obtain ⟨htable, hkeys⟩ := ih (p := { p with
          wifiNameDb := p.wifiNameDb.insertNew name strength
          wifiTable := p.setRow i name }) hrest (length_setRow h name)
        refine ⟨?_, ?_⟩
        · rw [htable, putRows_cons h, firstSeen_congr (t := name :: p.wifiNameDb.keys)]
          intro other
          rw [← AList.mem_keys, StdMap.mem_insertNew, List.mem_cons, AList.mem_keys, or_comm]
        · intro other
          rw [hkeys, StdMap.mem_insertNew, List.mem_cons, or_assoc]

/-! ### The two handlers -/

theorem handleScanResults_spec (p : WifiPanel) {scan : Bytes}
    (hread : ∀ line ∈ Split.getlines newline scan, Readable line) (nets : Bytes) :
    (p.handleScanResults scan nets).wifiTable.map Row.name =
        firstSeen [] (wifiNames scan) ++
          (p.wifiTable.drop (firstSeen [] (wifiNames scan)).length).map Row.name ∧
      ∀ name, name ∈ (p.handleScanResults scan nets).wifiNameDb ↔ name ∈ wifiNames scan := by
  obtain ⟨-, htable, hdb⟩ := findCurrentNetwork_rest { p with wifiNameDb := ∅ } nets
  obtain ⟨hrows, hkeys⟩ := showScan_spec
    (p := (findCurrentNetwork { p with wifiNameDb := ∅ } nets).1) hread (Nat.zero_le _)
  refine ⟨?_, ?_⟩
  · rw [handleScanResults, hrows, names_putRows_zero, hdb, htable]
    rfl
  · intro name
    rw [handleScanResults, hkeys, hdb]
    simp [wifiNames]

theorem handleConnected_spec (p : WifiPanel) (nets : Bytes) :
    (p.handleConnected nets).wifiNameDb = p.wifiNameDb ∧
      ((p.handleConnected nets).wifiTable = p.wifiTable ∨
        (p.handleConnected nets).wifiTable.map Row.name = byLevel p.wifiNameDb ++
          (p.wifiTable.drop (byLevel p.wifiNameDb).length).map Row.name) := by
  obtain ⟨-, htable, hdb⟩ := findCurrentNetwork_rest p nets
  unfold handleConnected
  dsimp only
  split_ifs
  · obtain ⟨hrows, hkept⟩ := showNames_spec (p := (p.findCurrentNetwork nets).1)
      (Nat.zero_le _) (byLevel (p.findCurrentNetwork nets).1.wifiNameDb)
    refine ⟨hkept.trans hdb, .inr ?_⟩
    rw [hrows, names_putRows_zero, hdb, htable]
  · exact ⟨hdb, .inl htable⟩

end WifiPanel

/-! ### Runs -/

inductive ListEvent where
  | scanResults (scan nets : Bytes)
  | connected (nets : Bytes)

/-- The panel and the last SCAN_RESULTS it was given. -/
structure Screen where
  panel : WifiPanel
  lastScan : Option Bytes := none

namespace Screen

def step (s : Screen) : ListEvent → Screen
  | .scanResults scan nets => ⟨s.panel.handleScanResults scan nets, some scan⟩
  | .connected nets => { s with panel := s.panel.handleConnected nets }

/-- The rows are the distinct names of the last scan, once each, in some order. -/
def ShowsLast (s : Screen) : Prop :=
  ∀ scan, s.lastScan = some scan →
    (s.panel.wifiTable.map Row.name).Perm (wifiNames scan).dedup

/-- No row is left over: the scan has a name for each. -/
def Fits (s : Screen) : ListEvent → Prop
  | .scanResults scan _ => s.panel.wifiTable.length ≤ (wifiNames scan).dedup.length
  | .connected _ => True

instance (s : Screen) : (e : ListEvent) → Decidable (s.Fits e)
  | .scanResults _ _ => inferInstanceAs (Decidable (_ ≤ _))
  | .connected _ => .isTrue trivial

end Screen

/-- Every level the scan has to show is a number. -/
def ListEvent.Readable : ListEvent → Prop
  | .scanResults scan _ => ∀ line ∈ Split.getlines newline scan, WifiPanel.Readable line
  | .connected _ => True

instance : (e : ListEvent) → Decidable e.Readable
  | .scanResults scan _ =>
    inferInstanceAs (Decidable (∀ line ∈ Split.getlines newline scan, WifiPanel.Readable line))
  | .connected _ => .isTrue trivial

namespace Screen

/-- `wifi_name_db` has the names of the last scan. -/
def KnowsLast (s : Screen) : Prop :=
  ∀ scan, s.lastScan = some scan → ∀ name, name ∈ s.panel.wifiNameDb ↔ name ∈ wifiNames scan

theorem byLevel_perm_dedup {db : StdMap Bytes ℤ} {names : List Bytes}
    (h : ∀ name, name ∈ db ↔ name ∈ names) : (WifiPanel.byLevel db).Perm names.dedup := by
  have hnodup : (WifiPanel.byLevel db).Nodup :=
    (WifiPanel.byLevel_perm db).nodup_iff.mpr db.keys_nodup
  rw [List.perm_ext_iff_of_nodup hnodup names.nodup_dedup]
  intro name
  rw [WifiPanel.mem_byLevel, h, List.mem_dedup]

theorem knowsLast_step {s : Screen} {e : ListEvent} (hread : e.Readable) (h : s.KnowsLast) :
    (s.step e).KnowsLast := by
  intro last hlast
  cases e with
  | scanResults scan nets =>
    cases hlast
    exact (s.panel.handleScanResults_spec hread nets).2
  | connected nets =>
    have hdb := (s.panel.handleConnected_spec nets).1
    simp only [step, hdb]
    exact h last hlast

theorem showsLast_scanResults_iff {s : Screen} {scan nets : Bytes}
    (hread : (ListEvent.scanResults scan nets).Readable) :
    (s.step (.scanResults scan nets)).ShowsLast ↔ s.Fits (.scanResults scan nets) := by
  obtain ⟨hrows, -⟩ := s.panel.handleScanResults_spec hread nets
  have hperm := firstSeen_perm_dedup (wifiNames scan)
  constructor
  · intro h
    have hlen := (h scan rfl).length_eq
    simp only [step, hrows, List.length_append, List.length_map, List.length_drop,
      hperm.length_eq] at hlen
    simp only [Fits]
    omega
  · intro hfits last hlast
    cases hlast
    simp only [Fits, ← hperm.length_eq] at hfits
    simp only [step, hrows, List.drop_eq_nil_of_le hfits, List.map_nil, List.append_nil]
    exact hperm

theorem showsLast_connected {s : Screen} (hknows : s.KnowsLast) (h : s.ShowsLast) (nets : Bytes) :
    (s.step (.connected nets)).ShowsLast := by
  intro last hlast
  obtain ⟨-, hsame | hrows⟩ := s.panel.handleConnected_spec nets
  · simp only [step, hsame]
    exact h last hlast
  · have hperm := byLevel_perm_dedup (hknows last hlast)
    have hlen : s.panel.wifiTable.length ≤ (WifiPanel.byLevel s.panel.wifiNameDb).length := by
      rw [hperm.length_eq, ← (h last hlast).length_eq, List.length_map]
    simp only [step, hrows, List.drop_eq_nil_of_le hlen, List.map_nil, List.append_nil]
    exact hperm

/-- The list shows the last scan all along a run exactly as long as no scan has
fewer names than the table has rows. -/
theorem shows_last_scan_iff (p : WifiPanel) (es : List ListEvent)
    (hread : ∀ e ∈ es, e.Readable) :
    Along step (fun s e => (s.step e).ShowsLast) ⟨p, none⟩ es ↔ Along step Fits ⟨p, none⟩ es := by
  refine along_iff (I := fun s => s.KnowsLast ∧ s.ShowsLast) (C := fun _ e => e.Readable) ?_ ?_ _ _
    ⟨nofun, nofun⟩ (along_of_forall _ hread)
  · intro s e ⟨hknows, hshows⟩ hr hfits
    refine ⟨knowsLast_step hr hknows, ?_⟩
    cases e with
    | scanResults scan nets => exact (showsLast_scanResults_iff hr).mpr hfits
    | connected nets => exact showsLast_connected hknows hshows nets
  · intro s e ⟨hknows, hshows⟩ hr
    cases e with
    | scanResults scan nets => exact showsLast_scanResults_iff hr
    | connected nets => exact iff_of_true (showsLast_connected hknows hshows nets) trivial

-- A table starts with one row that has no text.
def fresh : Screen := ⟨{ wifiTable := [⟨[], false⟩] }, none⟩

def scanOf (lines : List String) : Bytes :=
  lines.flatMap fun line => bytes line ++ [newline]

def homeAndShop : Bytes :=
  scanOf ["bssid / frequency / signal level / flags / ssid",
    "02:00:00:00:00:01\t2412\t-70\t[ESS]\thome", "02:00:00:00:00:02\t2437\t-40\t[ESS]\tshop",
    "02:00:00:00:00:03\t2462\t-80\t[ESS]\thome"]

def onlyHome : Bytes :=
  scanOf ["bssid / frequency / signal level / flags / ssid",
    "02:00:00:00:00:01\t2412\t-70\t[ESS]\thome"]

def homeCurrent : Bytes :=
  scanOf ["network id / ssid / bssid / flags", "0\thome\tany\t[CURRENT]"]

theorem shows_growing_scans :
    Along step (fun s e => (s.step e).ShowsLast) fresh
      [.scanResults onlyHome [], .connected homeCurrent, .scanResults homeAndShop homeCurrent,
        .connected homeCurrent] :=
  (shows_last_scan_iff _ _ (by decide +kernel)).mpr (by decide +kernel)

/-- The second row of the first scan outlives the second. -/
theorem gone_network_still_shown :
    ¬ ∀ es, Along step (fun s e => (s.step e).ShowsLast) fresh es := by
  intro h
  have hrows := (h [.scanResults homeAndShop [], .scanResults onlyHome []]).2.1 onlyHome rfl
  revert hrows
  decide +kernel

end Screen

end GuppyScreen.Wifi
