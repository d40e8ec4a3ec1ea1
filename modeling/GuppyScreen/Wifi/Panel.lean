import GuppyScreen.Lib.StdMap
import GuppyScreen.Wifi.Networks

/-!
# The wifi panel (wifi_panel.cpp, wpa_event.cpp)

`WifiPanel` talks to wpa_supplicant in commands and replies, one after the other
on one thread. Labels, the spinner and the password field are left out: nothing
here reads them.
-/

namespace GuppyScreen.Wifi
open Lib

/-- A row of `wifi_table`: its name, and whether it has the mark of the current network. -/
structure Row where
  name : Bytes
  ok : Bool
  deriving DecidableEq

structure WifiPanel where
  selectedNetwork : Bytes := []
  curNetwork : Bytes := []
  listNetworks : StdMap Bytes Bytes := ∅
  wifiNameDb : StdMap Bytes ℤ := ∅
  wifiTable : List Row := []

namespace WifiPanel

/-! ### Replies -/

/-- One round of the loop of `find_current_network`, with its `found`. -/
def noteNetwork (pf : WifiPanel × Bool) (line : Bytes) : WifiPanel × Bool :=
  match Split.getlines tab line with
  | id :: name :: more =>
    let listed := pf.1.listNetworks.insertNew name id
    if more.length = 2 ∧ bytes "[CURRENT]" <:+: line then
      ({ pf.1 with
        curNetwork := name
        listNetworks := listed }, true)
    else ({ pf.1 with listNetworks := listed }, pf.2)
  | _ => pf

def findCurrentNetwork (p : WifiPanel) (nets : Bytes) : WifiPanel × Bool :=
  (Split.getlines newline nets).foldl noteNetwork ({ p with listNetworks := ∅ }, false)

-- `lv_table_set_cell_value` on a row that is there or the next one.
def setRow (p : WifiPanel) (i : ℕ) (name : Bytes) : List Row :=
  p.wifiTable.take i ++ ⟨name, decide (p.curNetwork = name)⟩ :: p.wifiTable.drop (i + 1)

/-- The lines of SCAN_RESULTS. A level that is no number ends the loop and the
handler with it. -/
def showScan (p : WifiPanel) (index : ℕ) : List Bytes → WifiPanel
  | [] => p
  | line :: lines =>
    match wifiParts line with
    | none => showScan p index lines
    | some (level, name) =>
      match stoi level with
      | none => p
      | some strength =>
        if name ∈ p.wifiNameDb then showScan p index lines
        else
          showScan { p with
            wifiNameDb := p.wifiNameDb.insertNew name strength
            wifiTable := p.setRow index name } (index + 1) lines

/-- CTRL-EVENT-SCAN-RESULTS, with the replies to SCAN_RESULTS and LIST_NETWORKS. -/
def handleScanResults (p : WifiPanel) (scan nets : Bytes) : WifiPanel :=
  showScan (findCurrentNetwork { p with wifiNameDb := ∅ } nets).1 0 (Split.getlines newline scan)

def showNames (p : WifiPanel) (index : ℕ) : List Bytes → WifiPanel
  | [] => p
  | name :: names => showNames { p with wifiTable := p.setRow index name } (index + 1) names

-- `std::sort` leaves the order of equal levels open.
def byLevel (db : StdMap Bytes ℤ) : List Bytes :=
  (db.entries.mergeSort fun a b => decide (b.2 ≤ a.2)).map Sigma.fst

/-- CTRL-EVENT-CONNECTED, with the reply to LIST_NETWORKS. -/
def handleConnected (p : WifiPanel) (nets : Bytes) : WifiPanel :=
  let pf := findCurrentNetwork p nets
  if pf.2 then showNames pf.1 0 (byLevel pf.1.wifiNameDb) else pf.1

-- The newline after an id.
def stripNewlines (reply : Bytes) : Bytes :=
  (reply.reverse.dropWhile fun b => b = newline || b = 13).reverse

end WifiPanel

/-! ### Commands -/

/-- How wpa_supplicant meets the commands of one handler, and what it has to
report besides its table. -/
structure Peer where
  marks : ℕ → Mark := fun _ => { clean := any_clean }
  found : List Bss := []
  scanResults : Answer := .result
  listNetworks : Answer := .result
  removeNetwork : Answer := .result
  addNetwork : Answer := .result
  setSsid : Answer := .result
  setPsk : Answer := .result
  enableNetwork : Answer := .result
  selectNetwork : Answer := .result
  saveConfig : Answer := .result

/-- `sent` has the commands of the last handler, each with its reply. -/
structure World where
  networks : Networks
  panel : WifiPanel := {}
  sent : List (Bytes × Bytes) := []

namespace World

/-- `send_command`. -/
def send (w : World) (peer : Peer) (a : Answer) (command : Bytes) : World :=
  let next := serve a peer.marks peer.found w.networks command
  { w with
    networks := next.1
    sent := w.sent ++ [(command, next.2)] }

def reply (w : World) : Bytes := (w.sent.getLast?.map Prod.snd).getD []

def withPanel (w : World) (f : WifiPanel → WifiPanel) : World := { w with panel := f w.panel }

def scanResults (w : World) (peer : Peer) : World :=
  let w := w.send peer peer.scanResults (bytes "SCAN_RESULTS")
  let scan := w.reply
  let w := w.send peer peer.listNetworks (bytes "LIST_NETWORKS")
  w.withPanel fun p => p.handleScanResults scan w.reply

def connected (w : World) (peer : Peer) : World :=
  let w := w.send peer peer.listNetworks (bytes "LIST_NETWORKS")
  w.withPanel fun p => p.handleConnected w.reply

/-- `handle_callback` for a cell of this row. -/
def select (w : World) (peer : Peer) (row : ℕ) : World :=
  match w.panel.wifiTable[row]? with
  | none => w
  | some r =>
    let w := w.withPanel fun p => { p with selectedNetwork := r.name }
    if w.panel.curNetwork.length > 0 ∧ w.panel.curNetwork = r.name then w
    else
      match w.panel.listNetworks.lookup r.name with
      | none => w
      | some nid =>
        (w.send peer peer.selectNetwork (bytes "SELECT_NETWORK " ++ nid)).send peer peer.saveConfig
          (bytes "SAVE_CONFIG")

def forgetNetwork (w : World) (peer : Peer) : World :=
  match w.panel.listNetworks.lookup w.panel.selectedNetwork with
  | none => w
  | some nid =>
    let w := w.send peer peer.removeNetwork (bytes "REMOVE_NETWORK " ++ nid)
    let w := w.send peer peer.saveConfig (bytes "SAVE_CONFIG")
    w.withPanel fun p => { p with
      listNetworks := p.listNetworks.erase p.selectedNetwork
      curNetwork := if p.curNetwork = p.selectedNetwork then [] else p.curNetwork }

-- The first part of `connect`: no block of this name stays behind.
def dropExisting (w : World) (peer : Peer) : World :=
  match w.panel.listNetworks.lookup w.panel.selectedNetwork with
  | none => w
  | some nid =>
    (w.send peer peer.removeNetwork (bytes "REMOVE_NETWORK " ++ nid)).withPanel fun p =>
      { p with listNetworks := p.listNetworks.erase p.selectedNetwork }

def configure (w : World) (peer : Peer) (nid password : Bytes) : World :=
  let selected := w.panel.selectedNetwork
  let w := w.send peer peer.setSsid (setNetwork nid "ssid" selected)
  let w := w.send peer peer.setPsk (setNetwork nid "psk" password)
  let w := w.send peer peer.enableNetwork (bytes "ENABLE_NETWORK " ++ nid)
  let w := w.send peer peer.selectNetwork (bytes "SELECT_NETWORK " ++ nid)
  let w := w.send peer peer.saveConfig (bytes "SAVE_CONFIG")
  w.withPanel fun p => { p with listNetworks := p.listNetworks.insertNew selected nid }

def connect (w : World) (peer : Peer) (password : Bytes) : World :=
  let w := (w.dropExisting peer).send peer peer.addNetwork (bytes "ADD_NETWORK")
  let nid := WifiPanel.stripNewlines w.reply
  if nid.length > 0 then w.configure peer nid password else w

end World

/-! ### Events -/

inductive Event where
  | scanResults
  | connected
  | select (row : ℕ)
  | ready (password : Bytes)
  | forget

def World.step (w : World) (e : Event × Peer) : World :=
  let w := { w with sent := [] }
  match e.1 with
  | .scanResults => w.scanResults e.2
  | .connected => w.connected e.2
  | .select row => w.select e.2 row
  -- The keyboard's OK with nothing typed is no attempt.
  | .ready password => if password = [] then w else w.connect e.2 password
  | .forget => w.forgetNetwork e.2

end GuppyScreen.Wifi
