import GuppyScreen.Lib.History
import GuppyScreen.Lib.Run
import GuppyScreen.Wifi.Panel

/-!
# Whose block is written

`connect` takes whatever ADD_NETWORK answers for an id. A refusal is the text
FAIL, which the next command reads as block 0.
-/

namespace GuppyScreen.Wifi
open Lib Networks

/-- The entries of `list_networks` are ids of blocks with their names. -/
def Matches (m : StdMap Bytes Bytes) (t : Networks) : Prop :=
  ∀ name id, m.lookup name = some id →
    ∃ n b, id = decimal n ∧ (n, b) ∈ t.blocks ∧ ssidTxt b.ssid = name

def OthersKept (name : Bytes) (t u : Networks) : Prop :=
  ∀ n b, (n, b) ∈ t.blocks → ssidTxt b.ssid ≠ name → (n, b) ∈ u.blocks

/-- A SET_NETWORK names the id a successful ADD_NETWORK before it returned. -/
def Owned (before : List (Bytes × Bytes)) (cmd : Bytes × Bytes) : Prop :=
  ∀ id name value, setNetworkArgs cmd.1 = some (id, name, value) →
    ∃ n, id = decimal n ∧ (bytes "ADD_NETWORK", decimal n ++ [newline]) ∈ before

/-! ### The map and the table -/

theorem matches_empty (t : Networks) : Matches ∅ t := by
  intro name id h
  cases h

theorem Matches.mono {m : StdMap Bytes Bytes} {t u : Networks} (h : Matches m t)
    (hsub : ∀ n b, (n, b) ∈ t.blocks → (n, b) ∈ u.blocks) : Matches m u := by
  intro name id hl
  obtain ⟨n, b, hid, hb, hname⟩ := h name id hl
  exact ⟨n, b, hid, hsub n b hb, hname⟩

theorem Matches.insertNew {m : StdMap Bytes Bytes} {t : Networks} (h : Matches m t) {n : ℕ}
    {b : Block} (hb : (n, b) ∈ t.blocks) :
    Matches (m.insertNew (ssidTxt b.ssid) (decimal n)) t := by
  intro name id hl
  rcases StdMap.lookup_insertNew hl with hl | ⟨rfl, rfl⟩
  · exact h name id hl
  · exact ⟨n, b, rfl, hb, rfl⟩

theorem Matches.erase {m : StdMap Bytes Bytes} {t u : Networks} (h : Matches m t) {name : Bytes}
    (hkept : OthersKept name t u) : Matches (m.erase name) u := by
  intro other id hl
  obtain ⟨hne, hl⟩ := StdMap.lookup_erase_some hl
  obtain ⟨n, b, hid, hb, rfl⟩ := h other id hl
  exact ⟨n, b, hid, hkept n b hb hne, rfl⟩

theorem othersKept_refl (name : Bytes) (t : Networks) : OthersKept name t t := fun _ _ h _ => h

-- A block of another name has another id.
theorem othersKept_of_frame {t u : Networks} {n : ℕ} {b : Block} (hb : (n, b) ∈ t.blocks)
    (hf : Frame n t u) : OthersKept (ssidTxt b.ssid) t u := by
  intro m c hc hne
  refine (hf m c ?_).mpr hc
  rintro rfl
  exact hne (congrArg (fun d => ssidTxt d.ssid) (t.block_unique hc hb))

/-! ### LIST_NETWORKS -/

namespace WifiPanel

/-- What a line of the reply may say. -/
def Tells (t : Networks) (line : Bytes) : Prop :=
  ∀ id name more, Split.getlines tab line = id :: name :: more →
    ∃ n b, id = decimal n ∧ (n, b) ∈ t.blocks ∧ ssidTxt b.ssid = name

theorem noteNetwork_matches {t : Networks} {line : Bytes} (hline : Tells t line)
    (pf : WifiPanel × Bool) (h : Matches pf.1.listNetworks t) :
    Matches (noteNetwork pf line).1.listNetworks t := by
  unfold noteNetwork
  split
  · rename_i id name more hparts
    obtain ⟨n, b, rfl, hb, rfl⟩ := hline id name more hparts
    dsimp only
    split_ifs <;> exact h.insertNew hb
  · exact h

theorem noteNetwork_rest (pf : WifiPanel × Bool) (line : Bytes) :
    (noteNetwork pf line).1.selectedNetwork = pf.1.selectedNetwork ∧
      (noteNetwork pf line).1.wifiTable = pf.1.wifiTable ∧
      (noteNetwork pf line).1.wifiNameDb = pf.1.wifiNameDb := by
  unfold noteNetwork
  split
  · dsimp only
    split_ifs <;> exact ⟨rfl, rfl, rfl⟩
  · exact ⟨rfl, rfl, rfl⟩

theorem findCurrentNetwork_matches {t : Networks} {nets : Bytes}
    (h : ∀ line ∈ Split.getlines newline nets, Tells t line) (p : WifiPanel) :
    Matches (p.findCurrentNetwork nets).1.listNetworks t := by
  unfold findCurrentNetwork
  refine List.foldlRecOn (motive := fun pf : WifiPanel × Bool =>
    Matches pf.1.listNetworks t) _ _ (matches_empty t) ?_
  intro pf hpf line hl
  exact noteNetwork_matches (h line hl) pf hpf

theorem findCurrentNetwork_rest (p : WifiPanel) (nets : Bytes) :
    (p.findCurrentNetwork nets).1.selectedNetwork = p.selectedNetwork ∧
      (p.findCurrentNetwork nets).1.wifiTable = p.wifiTable ∧
      (p.findCurrentNetwork nets).1.wifiNameDb = p.wifiNameDb := by
  unfold findCurrentNetwork
  refine List.foldlRecOn (motive := fun pf : WifiPanel × Bool => pf.1.selectedNetwork =
    p.selectedNetwork ∧
    pf.1.wifiTable = p.wifiTable ∧ pf.1.wifiNameDb = p.wifiNameDb) _ _ ⟨rfl, rfl, rfl⟩ ?_
  rintro pf ⟨hsel, htable, hdb⟩ line -
  obtain ⟨ksel, ktable, kdb⟩ := noteNetwork_rest pf line
  exact ⟨ksel.trans hsel, ktable.trans htable, kdb.trans hdb⟩

theorem tells_of_one_piece {t : Networks} {line : Bytes}
    (h : (Split.getlines tab line).length ≤ 1) :
    Tells t line := by
  intro id name more he
  rw [he] at h
  simp at h

theorem tells_networkLines (marks : ℕ → Mark) (t : Networks) :
    ∀ line ∈ Split.getlines newline (networkLines marks t), Tells t line := by
  intro line hl
  rw [getlines_networkLines] at hl
  rcases List.mem_cons.mp hl with rfl | hl
  · exact tells_of_one_piece (by decide)
  · obtain ⟨b, hb, rfl⟩ := List.mem_map.mp hl
    intro id name more he
    obtain ⟨rest, hrest⟩ := getlines_networkLine marks b
    rw [hrest] at he
    cases he
    exact ⟨b.1, b.2, rfl, hb, rfl⟩

/-- Whatever LIST_NETWORKS is answered, its lines tell of blocks that exist. -/
theorem tells_reply (a : Answer) (marks : ℕ → Mark) (found : List Bss) (t : Networks) :
    ∀ line ∈ Split.getlines newline (serve a marks found t (bytes "LIST_NETWORKS")).2,
      Tells t line := by
  cases a with
  | result => exact tells_networkLines marks t
  | fail =>
    intro line hl
    have hline : line = bytes "FAIL" := List.mem_singleton.mp hl
    subst hline
    exact tells_of_one_piece (by decide)
  | nothing done =>
    intro line hl
    cases hl

/-! ### SCAN_RESULTS -/

/-- A name as wpa_supplicant prints one. -/
def Named (name : Bytes) : Prop := ∃ ssid : Bytes, ssid.length ≤ ssidMaxLen ∧ name = ssidTxt ssid

structure AllNamed (p : WifiPanel) : Prop where
  selected : Named p.selectedNetwork
  rows : ∀ r ∈ p.wifiTable, Named r.name
  db : ∀ name ∈ p.wifiNameDb, Named name

theorem named_setRow {p : WifiPanel} (h : ∀ r ∈ p.wifiTable, Named r.name) (i : ℕ) {name : Bytes}
    (hname : Named name) : ∀ r ∈ p.setRow i name, Named r.name := by
  intro r hr
  unfold setRow at hr
  rcases List.mem_append.mp hr with hr | hr
  · exact h r (List.mem_of_mem_take hr)
  · rcases List.mem_cons.mp hr with rfl | hr
    · exact hname
    · exact h r (List.mem_of_mem_drop hr)

theorem showScan_named {lines : List Bytes}
    (hlines : ∀ line ∈ lines, ∀ level name, wifiParts line = some (level, name) → Named name)
    (p : WifiPanel) (i : ℕ) (h : AllNamed p) :
    AllNamed (p.showScan i lines) ∧ (p.showScan i lines).listNetworks = p.listNetworks := by
  induction lines generalizing p i with
  | nil => exact ⟨h, rfl⟩
  | cons line lines ih =>
    have hrest := ih fun l hl => hlines l (List.mem_cons_of_mem line hl)
    unfold showScan
    split
    · exact hrest p i h
    · rename_i level name hparts
      have hname := hlines line (List.mem_cons_self ..) level name hparts
      split
      · exact ⟨h, rfl⟩
      · split_ifs
        · exact hrest p i h
        · refine hrest _ _ ⟨h.selected, named_setRow h.rows i hname, ?_⟩
          intro other ho
          rcases AList.mem_union.mp ho with ho | ho
          · exact h.db other ho
          · have hkey : other = name := by simpa [AList.mem_keys] using ho
            rw [hkey]
            exact hname

theorem showNames_named {names : List Bytes} (hnames : ∀ name ∈ names, Named name) (p : WifiPanel)
    (i : ℕ) (h : AllNamed p) :
    AllNamed (p.showNames i names) ∧ (p.showNames i names).listNetworks = p.listNetworks := by
  induction names generalizing p i with
  | nil => exact ⟨h, rfl⟩
  | cons name names ih =>
    have hname := hnames name (List.mem_cons_self ..)
    exact ih (fun n hn => hnames n (List.mem_cons_of_mem name hn)) _ _
      ⟨h.selected, named_setRow h.rows i hname, h.db⟩

theorem byLevel_perm (db : StdMap Bytes ℤ) : (byLevel db).Perm db.keys :=
  (List.mergeSort_perm ..).map Sigma.fst

theorem mem_byLevel {db : StdMap Bytes ℤ} {name : Bytes} : name ∈ byLevel db ↔ name ∈ db := by
  rw [(byLevel_perm db).mem_iff, AList.mem_keys]

theorem named_line (bss : Bss) {level name : Bytes} (h : wifiParts bss.line = some (level, name)) :
    Named name := by
  refine ⟨bss.ssid, bss.short, ?_⟩
  have hname : listedName bss.line = some name := by
    rw [listedName, h]
    rfl
  by_cases hpos : 1 ≤ bss.ssid.length
  · rw [Bss.listedName_line hpos] at hname
    exact (Option.some_inj.mp hname).symm
  · have hnil : bss.ssid = [] := List.eq_nil_of_length_eq_zero (by omega)
    rw [Bss.listedName_hidden hnil] at hname
    cases hname

/-- Whatever SCAN_RESULTS is answered, its names are printed SSIDs. -/
theorem named_reply (a : Answer) (marks : ℕ → Mark) (found : List Bss) (t : Networks) :
    ∀ line ∈ Split.getlines newline (serve a marks found t (bytes "SCAN_RESULTS")).2,
      ∀ level name, wifiParts line = some (level, name) → Named name := by
  intro line hl level name hparts
  cases a with
  | result =>
    change line ∈ Split.getlines newline (scanResults found) at hl
    rw [getlines_scanResults] at hl
    rcases List.mem_cons.mp hl with rfl | hl
    · cases hparts
    · obtain ⟨bss, -, rfl⟩ := List.mem_map.mp hl
      exact named_line bss hparts
  | fail =>
    have hline : line = bytes "FAIL" := List.mem_singleton.mp hl
    subst hline
    cases hparts
  | nothing done => cases hl

theorem findCurrentNetwork_named {p : WifiPanel} (h : AllNamed p) (nets : Bytes) :
    AllNamed (p.findCurrentNetwork nets).1 := by
  obtain ⟨hsel, htable, hdb⟩ := findCurrentNetwork_rest p nets
  constructor
  · rw [hsel]
    exact h.selected
  · rw [htable]
    exact h.rows
  · rw [hdb]
    exact h.db

end WifiPanel

/-! ### One handler -/

theorem owned_of_none {command : Bytes} (h : setNetworkArgs command = none)
    (before : List (Bytes × Bytes)) (reply : Bytes) : Owned before (command, reply) := by
  intro id name value he
  rw [h] at he
  cases he

theorem owned_of_add {before : List (Bytes × Bytes)} {n : ℕ}
    (h : (bytes "ADD_NETWORK", decimal n ++ [newline]) ∈ before) {name : String}
    (hname : blank ∉ bytes name) (text reply : Bytes) :
    Owned before (setNetwork (decimal n) name text, reply) := by
  intro id var value he
  rw [setNetworkArgs_setNetwork (notMem_decimal (by decide) n) hname] at he
  cases he
  exact ⟨n, rfl, h⟩

namespace World

structure Inv (w : World) : Prop where
  listed : Matches w.panel.listNetworks w.networks
  named : w.panel.AllNamed

/-- What holds of the world a handler has reached from `w`. -/
structure Reached (w v : World) : Prop where
  owned : History.Each Owned v.sent
  kept : OthersKept w.panel.selectedNetwork w.networks v.networks
  inv : Inv v

section
variable (w : World) (peer : Peer) (a : Answer) (command : Bytes)

@[simp] theorem send_panel : (w.send peer a command).panel = w.panel := rfl

theorem send_networks : (w.send peer a command).networks =
    (serve a peer.marks peer.found w.networks command).1 := rfl

theorem send_sent : (w.send peer a command).sent =
    w.sent ++ [(command, (serve a peer.marks peer.found w.networks command).2)] := rfl

@[simp] theorem reply_send : (w.send peer a command).reply =
    (serve a peer.marks peer.found w.networks command).2 := by
  simp [reply, send_sent]

@[simp] theorem withPanel_networks (f : WifiPanel → WifiPanel) :
    (w.withPanel f).networks = w.networks := rfl

@[simp] theorem withPanel_sent (f : WifiPanel → WifiPanel) : (w.withPanel f).sent = w.sent := rfl

end

section
variable {w v : World}

theorem send_same {peer : Peer} {a : Answer} {command : Bytes}
    (hexec : (exec peer.marks peer.found v.networks command).1 = v.networks) :
    (v.send peer a command).networks = v.networks :=
  serve_cases (P := (· = v.networks)) a rfl hexec

theorem Reached.send (h : Reached w v) (peer : Peer) (a : Answer) {command : Bytes}
    (hargs : setNetworkArgs command = none)
    (hexec : (exec peer.marks peer.found v.networks command).1 = v.networks) :
    Reached w (v.send peer a command) := by
  have hsame := send_same (a := a) hexec
  refine ⟨?_, ?_, ?_, h.inv.named⟩
  · exact History.each_snoc h.owned (owned_of_none hargs _ _)
  · rw [hsame]
    exact h.kept
  · rw [hsame]
    exact h.inv.listed

theorem Reached.withPanel {f : WifiPanel → WifiPanel} (h : Reached w v)
    (hlisted : Matches (f v.panel).listNetworks v.networks) (hnamed : (f v.panel).AllNamed) :
    Reached w (v.withPanel f) :=
  ⟨h.owned, h.kept, hlisted, hnamed⟩

theorem Inv.reached (h : Inv w) (hsent : w.sent = []) : Reached w w := by
  refine ⟨?_, othersKept_refl _ _, h⟩
  rw [hsent]
  exact History.each_nil Owned

variable (peer : Peer)

theorem matches_after_list (v : World) (p : WifiPanel) :
    let u := v.send peer peer.listNetworks (bytes "LIST_NETWORKS")
    Matches (p.findCurrentNetwork u.reply).1.listNetworks u.networks := by
  have hsame : (v.send peer peer.listNetworks (bytes "LIST_NETWORKS")).networks = v.networks :=
    send_same rfl
  have htells := WifiPanel.tells_reply peer.listNetworks peer.marks peer.found v.networks
  rw [← reply_send] at htells
  dsimp only
  rw [hsame]
  exact WifiPanel.findCurrentNetwork_matches htells p

theorem scanResults_reached (h : Inv w) (hsent : w.sent = []) : Reached w (w.scanResults peer) := by
  have hscan : Reached w (w.send peer peer.scanResults (bytes "SCAN_RESULTS")) :=
    (h.reached hsent).send peer peer.scanResults rfl rfl
  have hlist : Reached w ((w.send peer peer.scanResults (bytes "SCAN_RESULTS")).send peer
      peer.listNetworks (bytes "LIST_NETWORKS")) := hscan.send peer peer.listNetworks rfl rfl
  have hnames := WifiPanel.named_reply peer.scanResults peer.marks peer.found w.networks
  rw [← reply_send] at hnames
  have hcleared : ({ w.panel with wifiNameDb := ∅ } : WifiPanel).AllNamed :=
    ⟨h.named.selected, h.named.rows, fun _ hm => absurd hm (AList.notMem_empty _)⟩
  have hshown := WifiPanel.showScan_named hnames _ 0
    (WifiPanel.findCurrentNetwork_named hcleared
      ((w.send peer peer.scanResults (bytes "SCAN_RESULTS")).send peer peer.listNetworks
        (bytes "LIST_NETWORKS")).reply)
  unfold scanResults
  refine hlist.withPanel ?_ hshown.1
  unfold WifiPanel.handleScanResults
  rw [send_panel, send_panel, hshown.2]
  exact matches_after_list peer _ _

theorem connected_reached (h : Inv w) (hsent : w.sent = []) : Reached w (w.connected peer) := by
  have hlist : Reached w (w.send peer peer.listNetworks (bytes "LIST_NETWORKS")) :=
    (h.reached hsent).send peer peer.listNetworks rfl rfl
  have hlisted := matches_after_list peer w w.panel
  have hnamed := WifiPanel.findCurrentNetwork_named h.named
    (w.send peer peer.listNetworks (bytes "LIST_NETWORKS")).reply
  have hshown := WifiPanel.showNames_named
    (fun name hm => hnamed.db name (WifiPanel.mem_byLevel.mp hm)) _ 0 hnamed
  unfold connected
  refine hlist.withPanel ?_ ?_
  · unfold WifiPanel.handleConnected
    dsimp only
    split_ifs
    · rw [send_panel, hshown.2]
      exact hlisted
    · exact hlisted
  · unfold WifiPanel.handleConnected
    dsimp only
    split_ifs
    · exact hshown.1
    · exact hnamed

theorem select_reached (h : Inv w) (hsent : w.sent = []) (row : ℕ) :
    Reached w (w.select peer row) := by
  unfold select
  split
  · exact h.reached hsent
  · rename_i r hrow
    have hselected : Reached w (w.withPanel fun p => { p with selectedNetwork := r.name }) :=
      (h.reached hsent).withPanel h.listed
        ⟨h.named.rows r (List.mem_of_getElem? hrow), h.named.rows, h.named.db⟩
    dsimp only
    split_ifs
    · exact hselected
    · split
      · exact hselected
      · rename_i nid _
        exact (hselected.send peer peer.selectNetwork rfl (exec_select nid)).send peer
          peer.saveConfig rfl rfl

/-- The block of the selected network is removed, or stays, and its entry goes. -/
theorem remove_reached (h : Inv w) (hsent : w.sent = []) {nid : Bytes}
    (hl : w.panel.listNetworks.lookup w.panel.selectedNetwork = some nid)
    {f : WifiPanel → WifiPanel}
    (hf : (f w.panel).listNetworks = w.panel.listNetworks.erase w.panel.selectedNetwork)
    (hnamed : (f w.panel).AllNamed) :
    Reached w ((w.send peer peer.removeNetwork (bytes "REMOVE_NETWORK " ++ nid)).withPanel f) := by
  obtain ⟨n, b, rfl, hb, hname⟩ := h.listed _ _ hl
  have hframe : Frame n w.networks
      (w.send peer peer.removeNetwork (bytes "REMOVE_NETWORK " ++ decimal n)).networks :=
    serve_cases (P := Frame n w.networks) _ (Frame.refl n _) (exec_remove_frame n)
  have hkept := othersKept_of_frame hb hframe
  rw [hname] at hkept
  refine ⟨?_, hkept, ?_, hnamed⟩
  · exact History.each_snoc (h.reached hsent).owned (owned_of_none rfl _ _)
  · change Matches (f w.panel).listNetworks _
    rw [hf]
    exact h.listed.erase hkept

theorem dropExisting_reached (h : Inv w) (hsent : w.sent = []) :
    Reached w (w.dropExisting peer) := by
  unfold dropExisting
  split
  · exact h.reached hsent
  · rename_i nid hl
    exact remove_reached peer h hsent hl rfl ⟨h.named.selected, h.named.rows, h.named.db⟩

theorem dropExisting_selected : (w.dropExisting peer).panel.selectedNetwork =
    w.panel.selectedNetwork := by
  unfold dropExisting
  split <;> rfl

theorem forgetNetwork_reached (h : Inv w) (hsent : w.sent = []) :
    Reached w (w.forgetNetwork peer) := by
  unfold forgetNetwork
  split
  · exact h.reached hsent
  · rename_i nid hl
    -- SAVE_CONFIG and the panel's own changes commute.
    have hremoved := remove_reached peer h hsent hl
      (f := fun p => { p with
        listNetworks := p.listNetworks.erase p.selectedNetwork
        curNetwork := if p.curNetwork = p.selectedNetwork then [] else p.curNetwork })
      rfl ⟨h.named.selected, h.named.rows, h.named.db⟩
    have hsaved : Reached w (World.send _ peer peer.saveConfig (bytes "SAVE_CONFIG")) :=
      hremoved.send peer peer.saveConfig rfl rfl
    exact hsaved

/-! ### `connect` -/

theorem stripNewlines_decimal (n : ℕ) :
    WifiPanel.stripNewlines (decimal n ++ [newline]) = decimal n := by
  have hdigits : (decimal n).reverse.dropWhile (fun b => b = newline || b = 13) =
      (decimal n).reverse := by
    rw [List.dropWhile_eq_self_iff]
    intro hlen hb
    have hd := isDigit_of_mem_decimal (List.mem_reverse.mp (List.getElem_mem hlen))
    revert hd hb
    generalize (decimal n).reverse[0] = b
    revert b
    exact forall_byte (by decide +kernel)
  unfold WifiPanel.stripNewlines
  rw [List.reverse_append, List.reverse_singleton, List.singleton_append,
    List.dropWhile_cons_of_pos (by decide), hdigits, List.reverse_reverse]

theorem send_setSsid {n : ℕ} {b : Block} (hb : (n, b) ∈ v.networks.blocks)
    (hset : peer.setSsid.carriedOut = true) {name : Bytes} (hlen : name.length ≤ ssidMaxLen)
    (htyped : ∀ c ∈ name, typable c) (hplain : ∀ c ∈ name, unquoted c) :
    (v.send peer peer.setSsid (setNetwork (decimal n) "ssid" name)).networks =
      v.networks.setId n { b with ssid := name } := by
  have hblock : b.set (bytes "ssid") (debug name) = some { b with ssid := name } := by
    rw [Block.set, if_pos rfl, parseSsid_debug hlen htyped hplain]
    rfl
  rw [send_networks, serve_fst, if_pos hset, exec_set_decimal hb (by decide), hblock]

theorem configure_networks {n : ℕ} {b : Block} (hb : (n, b) ∈ v.networks.blocks)
    (hset : peer.setSsid.carriedOut = true) (hlen : v.panel.selectedNetwork.length ≤ ssidMaxLen)
    (htyped : ∀ c ∈ v.panel.selectedNetwork, typable c)
    (hplain : ∀ c ∈ v.panel.selectedNetwork, unquoted c) (password : Bytes) :
    Frame n v.networks (v.configure peer (decimal n) password).networks ∧
      ∃ c, (n, c) ∈ (v.configure peer (decimal n) password).networks.blocks ∧
        c.ssid = v.panel.selectedNetwork := by
  have hnamed := send_setSsid peer hb hset hlen htyped hplain
  have hmem := mem_setId { b with ssid := v.panel.selectedNetwork } hb
  rw [← hnamed] at hmem
  generalize hu : v.send peer peer.setSsid
    (setNetwork (decimal n) "ssid" v.panel.selectedNetwork) = u at hnamed hmem
  have hframe : Frame n v.networks u.networks := by
    rw [hnamed]
    exact frame_setId n _ _
  have hpsk : Frame n v.networks
        (u.send peer peer.setPsk (setNetwork (decimal n) "psk" password)).networks ∧
      ∃ c, (n, c) ∈ (u.send peer peer.setPsk
        (setNetwork (decimal n) "psk" password)).networks.blocks ∧
        c.ssid = v.panel.selectedNetwork := by
    refine serve_cases (P := fun t => Frame n v.networks t ∧ ∃ c, (n, c) ∈ t.blocks ∧
      c.ssid = v.panel.selectedNetwork) _ ⟨hframe, _, hmem, rfl⟩ ?_
    exact ⟨hframe.trans (exec_set_frame hmem (by decide) password), exec_set_psk hmem password⟩
  have hsame : (v.configure peer (decimal n) password).networks =
      (u.send peer peer.setPsk (setNetwork (decimal n) "psk" password)).networks := by
    unfold configure
    dsimp only
    rw [hu, withPanel_networks, send_same rfl, send_same (exec_select _),
      send_same (exec_enable _)]
  rw [hsame]
  exact hpsk

theorem configure_sent (h : History.Each Owned v.sent) {n : ℕ}
    (hadd : (bytes "ADD_NETWORK", decimal n ++ [newline]) ∈ v.sent) (password : Bytes) :
    History.Each Owned (v.configure peer (decimal n) password).sent := by
  unfold configure
  simp only [withPanel_sent, send_sent]
  refine History.each_snoc (History.each_snoc (History.each_snoc (History.each_snoc
    (History.each_snoc h ?_) ?_) ?_) ?_) ?_
  · exact owned_of_add hadd (by decide) _ _
  · exact owned_of_add (List.mem_append_left _ hadd) (by decide) _ _
  · exact owned_of_none rfl _ _
  · exact owned_of_none rfl _ _
  · exact owned_of_none rfl _ _

theorem configure_reached (h : Reached w v) (hset : peer.setSsid.carriedOut = true)
    (hplain : ∀ b ∈ v.panel.selectedNetwork, unquoted b) (password : Bytes) :
    Reached w ((v.send peer .result (bytes "ADD_NETWORK")).configure peer
      (decimal v.networks.nextId) password) := by
  obtain ⟨ssid, hlen, hssid⟩ := h.inv.named.selected
  have htxt : ssidTxt ssid = ssid := ssidTxt_of_unquoted hlen (hssid ▸ hplain)
  have hname : v.panel.selectedNetwork = ssid := hssid.trans htxt
  have htyped : ∀ b ∈ v.panel.selectedNetwork, typable b := hssid ▸ printfEncode_typable _ _
  have hb : (v.networks.nextId, {}) ∈ v.networks.add.blocks :=
    List.mem_append_right _ (List.mem_singleton_self _)
  obtain ⟨hframe, c, hc, hcname⟩ := configure_networks peer
    (v := v.send peer .result (bytes "ADD_NETWORK")) hb hset (hname ▸ hlen) htyped hplain password
  have hsub : ∀ n b, (n, b) ∈ v.networks.blocks → (n, b) ∈
      ((v.send peer .result (bytes "ADD_NETWORK")).configure peer (decimal v.networks.nextId)
        password).networks.blocks := by
    intro n b hnb
    have hlt := lt_nextId hnb
    exact (hframe n b (by omega)).mpr (mem_add hnb)
  have hlisted := (h.inv.listed.mono hsub).insertNew hc
  rw [hcname, send_panel, hname, htxt, ← hname] at hlisted
  refine ⟨?_, fun n b hnb hne => hsub n b (h.kept n b hnb hne), hlisted, ?_⟩
  · refine configure_sent peer (History.each_snoc h.owned (owned_of_none rfl _ _)) ?_ password
    exact List.mem_append_right _ (List.mem_singleton_self _)
  · exact ⟨h.inv.named.selected, h.inv.named.rows, h.inv.named.db⟩

/-- What `connect` relies on: ADD_NETWORK is not refused, a block it returned gets
its name, and that name needs no escape. -/
def Sound (w : World) (peer : Peer) : Prop :=
  peer.addNetwork ≠ .fail ∧ (peer.addNetwork = .result → peer.setSsid.carriedOut = true) ∧
    ∀ b ∈ w.panel.selectedNetwork, unquoted b

instance Sound.decidable (w : World) (peer : Peer) : Decidable (w.Sound peer) :=
  inferInstanceAs (Decidable (_ ∧ _ ∧ ∀ b ∈ w.panel.selectedNetwork, unquoted b))

theorem connect_reached (h : Inv w) (hsent : w.sent = []) (hsound : w.Sound peer)
    (password : Bytes) : Reached w (w.connect peer password) := by
  obtain ⟨hfail, hset, hplain⟩ := hsound
  have hdrop := dropExisting_reached peer h hsent
  have hselected := dropExisting_selected peer (w := w)
  unfold connect
  dsimp only
  generalize w.dropExisting peer = u at hdrop hselected
  have hsub : ∀ n b, (n, b) ∈ u.networks.blocks →
      (n, b) ∈ (u.send peer peer.addNetwork (bytes "ADD_NETWORK")).networks.blocks := by
    intro n b hb
    exact serve_cases (P := fun t => (n, b) ∈ t.blocks) _ hb (mem_add hb)
  have hadded : Reached w (u.send peer peer.addNetwork (bytes "ADD_NETWORK")) :=
    ⟨History.each_snoc hdrop.owned (owned_of_none rfl _ _),
      fun n b hb hne => hsub n b (hdrop.kept n b hb hne), hdrop.inv.listed.mono hsub,
        hdrop.inv.named⟩
  cases ha : peer.addNetwork with
  | fail => exact absurd ha hfail
  | nothing done =>
    rw [ha] at hadded
    rw [reply_send]
    exact hadded
  | result =>
    rw [ha] at hadded hsub
    have hreply : (serve .result peer.marks peer.found u.networks (bytes "ADD_NETWORK")).2 =
        decimal u.networks.nextId ++ [newline] := rfl
    rw [reply_send, hreply, stripNewlines_decimal,
      if_pos (List.length_pos_iff.mpr (decimal_ne_nil _))]
    rw [← hselected] at hplain
    exact configure_reached peer hdrop (hset ha) hplain password

end

/-! ### Every run -/

/-- The condition on one event. -/
def Meets (w : World) (e : Event × Peer) : Prop :=
  match e.1 with
  | .ready _ => w.Sound e.2
  | _ => True

instance Meets.decidable (w : World) : (e : Event × Peer) → Decidable (w.Meets e)
  | (.ready _, peer) => inferInstanceAs (Decidable (w.Sound peer))
  | (.scanResults, _) | (.connected, _) | (.select _, _) | (.forget, _) => .isTrue trivial

theorem step_reached {w : World} {e : Event × Peer} (h : Inv w) (hmeets : w.Meets e) :
    Reached w (w.step e) := by
  have hinv : Inv { w with sent := [] } := ⟨h.listed, h.named⟩
  have hfrom : ∀ v, Reached { w with sent := [] } v → Reached w v :=
    fun v hv => ⟨hv.owned, hv.kept, hv.inv⟩
  obtain ⟨e, peer⟩ := e
  apply hfrom
  cases e with
  | scanResults => exact scanResults_reached peer hinv rfl
  | connected => exact connected_reached peer hinv rfl
  | select row => exact select_reached peer hinv rfl row
  | forget => exact forgetNetwork_reached peer hinv rfl
  | ready password =>
    unfold step
    dsimp only
    split_ifs
    · exact hinv.reached rfl
    · exact connect_reached peer hinv rfl hmeets password

theorem inv_start (networks : Networks) : Inv ⟨networks, {}, []⟩ where
  listed := matches_empty networks
  named := ⟨⟨[], by decide, rfl⟩, fun _ h => (nomatch h),
    fun _ h => absurd h (AList.notMem_empty _)⟩

/-- An event writes only the block it added, keeps the blocks of other networks,
and leaves a map of blocks that exist. -/
def Faithful (w : World) (e : Event × Peer) : Prop :=
  History.Each Owned (w.step e).sent ∧
    OthersKept w.panel.selectedNetwork w.networks (w.step e).networks ∧
    Matches (w.step e).panel.listNetworks (w.step e).networks

theorem faithful_in_every_run (networks : Networks) (events : List (Event × Peer))
    (h : Run.Along step Meets ⟨networks, {}, []⟩ events) :
    Run.Along step Faithful ⟨networks, {}, []⟩ events := by
  refine Run.along_of_invariant (I := Inv) ?_ ?_ _ events (inv_start networks) h
  · intro w e hw he
    exact (step_reached hw he).inv
  · intro w e hw he
    have hreached := step_reached hw he
    exact ⟨hreached.owned, hreached.kept, hreached.inv.listed⟩

def home : Networks where
  blocks := [(0, { ssid := bytes "Home", psk := some (bytes "correct horse") })]
  distinct := by decide

/-- Select the café in a scan and type its password. -/
def cafeRun (add : Answer) : List (Event × Peer) :=
  [(.scanResults, { found := [cafe (bytes "Cafe Nero") (by decide)] }), (.select 0, {}),
    (.ready (bytes "espresso!"), { addNetwork := add })]

theorem faithful_in_cafeRun :
    (Run.run step ⟨home, {}, []⟩ (cafeRun .result)).networks.blocks = home.blocks ++
        [(1, { ssid := bytes "Cafe Nero", psk := some (bytes "espresso!") })] ∧
      Run.Along step Faithful ⟨home, {}, []⟩ (cafeRun .result) :=
  ⟨by decide +kernel, faithful_in_every_run home (cafeRun .result) (by decide +kernel)⟩

/-- A refused ADD_NETWORK: the café's name and password replace those of block 0. -/
theorem home_overwritten_in_cafeRun :
    (Run.run step ⟨home, {}, []⟩ (cafeRun .fail)).networks.blocks =
        [(0, { ssid := bytes "Cafe Nero", psk := some (bytes "espresso!") })] ∧
      (Run.run step ⟨home, {}, []⟩ (cafeRun .fail)).panel.listNetworks.lookup
        (bytes "Cafe Nero") = some (bytes "FAIL") ∧
      ¬ Run.Along step Faithful ⟨home, {}, []⟩ (cafeRun .fail) := by
  refine ⟨by decide +kernel, by decide +kernel, ?_⟩
  rintro ⟨-, -, ⟨-, hkept, -⟩, -⟩
  have hhome := hkept 0 { ssid := bytes "Home", psk := some (bytes "correct horse") }
    (by decide +kernel) (by decide +kernel)
  revert hhome
  decide +kernel

end World

end GuppyScreen.Wifi
