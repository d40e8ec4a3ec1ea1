import GuppyScreen.Lib.Expand
import GuppyScreen.Wifi.Supplicant

/-!
# Wifi credentials on their way to wpa_supplicant (wifi_panel.cpp)

A name comes in a line of SCAN_RESULTS, printed by `printf_encode`, and goes out
in a SET_NETWORK, quoted by fmt. Nothing takes either escape back: between quotes
`wpa_config_parse_string` reads every byte as it stands.
-/

namespace GuppyScreen.Wifi
open Lib Expand

/-! ### The way in -/

/-- A network as SCAN_RESULTS prints it. The first four texts are a MAC address,
two numbers and flags in brackets. -/
structure Bss where
  bssid : Bytes
  freq : Bytes
  level : Bytes
  flags : Bytes
  ssid : Bytes
  clean : ∀ piece ∈ [bssid, freq, level, flags], tab ∉ piece ∧ newline ∉ piece
  address : (bytes "bss").isPrefixOf bssid = false
  short : ssid.length ≤ ssidMaxLen

def Bss.line (bss : Bss) : Bytes :=
  [tab].intercalate [bss.bssid, bss.freq, bss.level, bss.flags, ssidTxt bss.ssid]

def scanResults (found : List Bss) : Bytes :=
  (bytes "bssid / frequency / signal level / flags / ssid" :: found.map Bss.line).flatMap
    (· ++ [newline])

/-- The level and the name `handle_wpa_event` takes from a line. -/
def wifiParts (line : Bytes) : Option (Bytes × Bytes) :=
  if (bytes "bss").isPrefixOf line then none
  else
    match Split.getlines tab line with
    | [_, _, level, _, name] => some (level, name)
    | _ => none

def listedName (line : Bytes) : Option Bytes := (wifiParts line).map Prod.snd

def wifiNames (reply : Bytes) : List Bytes :=
  (Split.getlines newline reply).filterMap listedName

/-! ### The way out -/

/-- One character of ASCII under `{:?}`. -/
def escapeByte (b : UInt8) : Bytes :=
  if b = quote then [backslash, quote]
  else if b = backslash then [backslash, backslash]
  else if b = newline then [backslash, 110]
  else if b = 13 then [backslash, 114]
  else if b = tab then [backslash, 116]
  else if b < 32 ∨ b = 127 then [backslash, 120, hexDigit (b / 16), hexDigit (b % 16)]
  else [b]

def debug (text : Bytes) : Bytes := quote :: (text.flatMap escapeByte ++ [quote])

/-- The command `connect` sends for one variable of the block `nid`. -/
def setNetwork (nid : Bytes) (name : String) (text : Bytes) : Bytes :=
  bytes "SET_NETWORK " ++ (nid ++ blank :: (bytes name ++ blank :: debug text))

/-- What wpa_supplicant finds for that variable. -/
def recovered (name : String) (command : Bytes) : Option Bytes :=
  (setNetworkArgs command).bind fun (_, var, value) =>
    if var = bytes name then configParseString value else none

/-- What the keyboard's pages have: every printable character of ASCII. -/
def typable (b : UInt8) : Prop := 32 ≤ b ∧ b ≤ 126

def unquoted (b : UInt8) : Prop := b ≠ quote ∧ b ≠ backslash

instance typable.decidable (b : UInt8) : Decidable (typable b) :=
  inferInstanceAs (Decidable (32 ≤ b ∧ b ≤ 126))

instance unquoted.decidable (b : UInt8) : Decidable (unquoted b) :=
  inferInstanceAs (Decidable (b ≠ quote ∧ b ≠ backslash))

/-! ### One byte -/

theorem forall_byte {P : UInt8 → Prop} (h : ∀ n < 256, P (UInt8.ofNat n)) (b : UInt8) : P b := by
  have hb := h b.toNat b.toNat_lt
  rwa [UInt8.ofNat_toNat] at hb

-- One evaluation of the table of bytes; the lemmas below are its parts.
theorem encoders_byte : ∀ b : UInt8,
    ((typable b ∧ unquoted b → (encodeByte b).flatMap escapeByte = [b]) ∧
      (¬ (typable b ∧ unquoted b) → 2 ≤ ((encodeByte b).flatMap escapeByte).length)) ∧
    ((32 ≤ b ∧ b ≠ 127 ∧ unquoted b → escapeByte b = [b]) ∧
      (¬ (32 ≤ b ∧ b ≠ 127 ∧ unquoted b) → 2 ≤ (escapeByte b).length)) ∧
    (encodeByte b).length ≤ 4 ∧ encodeByte b ≠ [] ∧ (encodeByte b).all (typable ·) = true :=
  forall_byte (by decide +kernel)

theorem escapes_sent : Escapes (fun b => (encodeByte b).flatMap escapeByte)
    fun b => typable b ∧ unquoted b where
  itself b := (encoders_byte b).1.1
  longer b := (encoders_byte b).1.2

theorem escapes_debug : Escapes escapeByte fun b => 32 ≤ b ∧ b ≠ 127 ∧ unquoted b where
  itself b := (encoders_byte b).2.1.1
  longer b := (encoders_byte b).2.1.2

theorem encodeByte_length (b : UInt8) : (encodeByte b).length ≤ 4 := (encoders_byte b).2.2.1

theorem encodeByte_ne_nil (b : UInt8) : encodeByte b ≠ [] := (encoders_byte b).2.2.2.1

theorem encodeByte_typable (b : UInt8) : ∀ c ∈ encodeByte b, typable c := by
  have hall := (encoders_byte b).2.2.2.2
  simpa using hall

theorem typable_ne_newline {b : UInt8} (h : typable b) : b ≠ newline := by
  rintro rfl
  exact absurd h (by decide)

theorem typable_ne_tab {b : UInt8} (h : typable b) : b ≠ tab := by
  rintro rfl
  exact absurd h (by decide)

/-! ### The name -/

theorem printfEncode_typable (room : ℕ) (ssid : Bytes) :
    ∀ c ∈ printfEncode room ssid, typable c := by
  induction ssid generalizing room with
  | nil => simp [printfEncode]
  | cons b ssid ih =>
    intro c hc
    rw [printfEncode] at hc
    split_ifs at hc
    · cases hc
    · rcases List.mem_append.mp hc with hc | hc
      · exact encodeByte_typable b c hc
      · exact ih _ c hc

theorem printfEncode_room {room : ℕ} {ssid : Bytes} (h : 4 * ssid.length + 1 ≤ room) :
    printfEncode room ssid = ssid.flatMap encodeByte := by
  induction ssid generalizing room with
  | nil => rfl
  | cons b ssid ih =>
    have hb := encodeByte_length b
    rw [List.length_cons] at h
    rw [printfEncode, if_neg (by omega), ih (by omega), List.flatMap_cons]

theorem ssidTxt_eq {ssid : Bytes} (h : ssid.length ≤ ssidMaxLen) :
    ssidTxt ssid = ssid.flatMap encodeByte :=
  printfEncode_room (by omega)

theorem ssidTxt_ne_nil {ssid : Bytes} (hpos : 1 ≤ ssid.length) : ssidTxt ssid ≠ [] := by
  cases ssid with
  | nil => cases hpos
  | cons b ssid =>
    intro h
    rw [ssidTxt, printfEncode, if_neg (by decide)] at h
    exact encodeByte_ne_nil b (List.append_eq_nil_iff.mp h).1

theorem ssidTxt_clean (ssid : Bytes) : tab ∉ ssidTxt ssid ∧ newline ∉ ssidTxt ssid :=
  ⟨fun h => typable_ne_tab (printfEncode_typable _ _ tab h) rfl,
    fun h => typable_ne_newline (printfEncode_typable _ _ newline h) rfl⟩

namespace Bss

theorem tab_notMem (bss : Bss) :
    ∀ piece ∈ [bss.bssid, bss.freq, bss.level, bss.flags, ssidTxt bss.ssid], tab ∉ piece := by
  intro piece hp
  rw [show [bss.bssid, bss.freq, bss.level, bss.flags, ssidTxt bss.ssid] =
    [bss.bssid, bss.freq, bss.level, bss.flags] ++ [ssidTxt bss.ssid] from rfl,
    List.mem_append, List.mem_singleton] at hp
  rcases hp with hp | rfl
  · exact (bss.clean piece hp).1
  · exact (ssidTxt_clean bss.ssid).1

theorem newline_notMem_line (bss : Bss) : newline ∉ bss.line := by
  intro hm
  have hclean := bss.clean
  simp only [List.forall_mem_cons] at hclean
  obtain ⟨h1, h2, h3, h4, -⟩ := hclean
  simp only [line, List.intercalate_cons_cons, List.intercalate_singleton, List.mem_append,
    List.mem_cons] at hm
  have htab : newline ≠ tab := by decide
  have htxt := (ssidTxt_clean bss.ssid).2
  tauto

theorem listedName_hidden {bss : Bss} (h : bss.ssid = []) : listedName bss.line = none := by
  have hpieces := List.splitOn_intercalate tab bss.tab_notMem (by simp)
  rw [h, show ssidTxt [] = [] from rfl] at hpieces
  have hlines : Split.getlines tab bss.line = [bss.bssid, bss.freq, bss.level, bss.flags] := by
    unfold Split.getlines line
    rw [h, show ssidTxt [] = [] from rfl, hpieces]
    rfl
  rw [listedName, wifiParts, hlines]
  split_ifs <;> rfl

theorem listedName_line {bss : Bss} (hpos : 1 ≤ bss.ssid.length) :
    listedName bss.line = some (ssidTxt bss.ssid) := by
  have hhead : (bytes "bss").isPrefixOf bss.line = false := by
    have h := Split.isPrefixOf_append_sep (show tab ∉ bytes "bss" by decide) bss.bssid
      ([tab].intercalate [bss.freq, bss.level, bss.flags, ssidTxt bss.ssid])
    rw [bss.address] at h
    exact h
  have hpieces : Split.getlines tab bss.line =
      [bss.bssid, bss.freq, bss.level, bss.flags, ssidTxt bss.ssid] :=
    Split.getlines_intercalate (by simp) bss.tab_notMem (by simp [ssidTxt_ne_nil hpos])
  rw [listedName, wifiParts, if_neg (by rw [hhead]; decide), hpieces]
  rfl

end Bss

theorem getlines_scanResults (found : List Bss) : Split.getlines newline (scanResults found) =
    bytes "bssid / frequency / signal level / flags / ssid" :: found.map Bss.line := by
  refine Split.getlines_lines fun line hl => ?_
  rcases List.mem_cons.mp hl with rfl | hl
  · decide
  · obtain ⟨bss, -, rfl⟩ := List.mem_map.mp hl
    exact bss.newline_notMem_line

theorem mem_wifiNames {found : List Bss} {bss : Bss} (hm : bss ∈ found)
    (hpos : 1 ≤ bss.ssid.length) : ssidTxt bss.ssid ∈ wifiNames (scanResults found) := by
  rw [wifiNames, getlines_scanResults, List.mem_filterMap]
  exact ⟨bss.line, List.mem_cons_of_mem _ (List.mem_map_of_mem hm), Bss.listedName_line hpos⟩

/-! ### The command -/

theorem cut_append {word : Bytes} (h : blank ∉ word) (rest : Bytes) :
    cut (word ++ blank :: rest) = some (word, rest) := by
  have hword : (word ++ blank :: rest).takeWhile (· ≠ blank) = word := by
    have hkept : ∀ b ∈ word, decide (b ≠ blank) = true := by
      intro b hb
      exact decide_eq_true fun he => h (he ▸ hb)
    rw [List.takeWhile_append_of_pos hkept]
    simp
  unfold cut
  rw [hword]
  simp

theorem setNetworkArgs_setNetwork {nid : Bytes} (hnid : blank ∉ nid) {name : String}
    (hname : blank ∉ bytes name) (text : Bytes) :
    setNetworkArgs (setNetwork nid name text) = some (nid, bytes name, debug text) := by
  have hhead : (bytes "SET_NETWORK ").isPrefixOf (setNetwork nid name text) = true := by
    rw [List.isPrefixOf_iff_prefix]
    exact List.prefix_append ..
  have hargs : (setNetwork nid name text).drop 12 =
      nid ++ blank :: (bytes name ++ blank :: debug text) := rfl
  rw [setNetworkArgs, if_pos hhead, hargs, cut_append hnid]
  simp only [Option.bind_some]
  rw [cut_append hname]
  rfl

theorem configParseString_debug (text : Bytes) :
    configParseString (debug text) = some (text.flatMap escapeByte) := by
  simp [configParseString, debug, quoted]

theorem recovered_setNetwork {nid : Bytes} (hnid : blank ∉ nid) {name : String}
    (hname : blank ∉ bytes name) (text : Bytes) :
    recovered name (setNetwork nid name text) = some (text.flatMap escapeByte) := by
  rw [recovered, setNetworkArgs_setNetwork hnid hname]
  simp only [Option.bind_some, if_true]
  exact configParseString_debug text

/-! ### The credentials -/

theorem ssid_recovered_iff {nid : Bytes} (hnid : blank ∉ nid) {ssid : Bytes}
    (hlen : ssid.length ≤ ssidMaxLen) :
    recovered "ssid" (setNetwork nid "ssid" (ssidTxt ssid)) = some ssid ↔
      ∀ b ∈ ssid, typable b ∧ unquoted b := by
  rw [recovered_setNetwork hnid (by decide), ssidTxt_eq hlen, List.flatMap_assoc, Option.some_inj]
  exact escapes_sent.eq_self_iff ssid

theorem psk_recovered_iff {nid : Bytes} (hnid : blank ∉ nid) {password : Bytes}
    (htyped : ∀ b ∈ password, typable b) :
    recovered "psk" (setNetwork nid "psk" password) = some password ↔
      ∀ b ∈ password, unquoted b := by
  rw [recovered_setNetwork hnid (by decide), Option.some_inj, escapes_debug.eq_self_iff]
  refine forall_congr' fun b => forall_congr' fun hb => ?_
  have hty := htyped b hb
  have hdel : b ≠ 127 := by
    rintro rfl
    exact absurd hty (by decide)
  exact ⟨fun h => h.2.2, fun h => ⟨hty.1, hdel, h⟩⟩

/-- Both credentials of a listed network arrive exactly when neither has a byte
that one of the two writers escapes. -/
theorem credentials_arrive_iff {found : List Bss} {bss : Bss} (hm : bss ∈ found)
    (hpos : 1 ≤ bss.ssid.length) {password : Bytes} (htyped : ∀ b ∈ password, typable b)
    {nid : Bytes} (hnid : blank ∉ nid) :
    ∃ selected ∈ wifiNames (scanResults found), listedName bss.line = some selected ∧
      (recovered "ssid" (setNetwork nid "ssid" selected) = some bss.ssid ∧
        recovered "psk" (setNetwork nid "psk" password) = some password ↔
      (∀ b ∈ bss.ssid, typable b ∧ unquoted b) ∧ ∀ b ∈ password, unquoted b) := by
  refine ⟨ssidTxt bss.ssid, mem_wifiNames hm hpos, Bss.listedName_line hpos, ?_⟩
  rw [ssid_recovered_iff hnid bss.short, psk_recovered_iff hnid htyped]

def cafe (ssid : Bytes) (h : ssid.length ≤ ssidMaxLen) : Bss where
  bssid := bytes "02:00:01:02:03:04"
  freq := bytes "2412"
  level := bytes "-47"
  flags := bytes "[WPA2-PSK-CCMP][ESS]"
  ssid := ssid
  clean := by decide
  address := by decide
  short := h

theorem credentials_arrive_from_cafe :
    ∃ selected ∈ wifiNames (scanResults [cafe (bytes "Cafe Nero") (by decide)]),
      listedName (cafe (bytes "Cafe Nero") (by decide)).line = some selected ∧
      (recovered "ssid" (setNetwork (bytes "0") "ssid" selected) = some (bytes "Cafe Nero") ∧
        recovered "psk" (setNetwork (bytes "0") "psk" (bytes "espresso!")) =
          some (bytes "espresso!") ↔
      (∀ b ∈ bytes "Cafe Nero", typable b ∧ unquoted b) ∧
        ∀ b ∈ bytes "espresso!", unquoted b) :=
  credentials_arrive_iff (List.mem_singleton_self (cafe (bytes "Cafe Nero") (by decide)))
    (by decide +kernel) (by decide +kernel) (by decide +kernel)

/-- An accent in the name is sent as the eight characters of two escapes, their
backslashes doubled, and a typed quote arrives with a backslash. -/
theorem credentials_lost_from_cafe :
    wifiNames (scanResults [cafe (bytes "caf" ++ [0xc3, 0xa9]) (by decide)]) =
      [bytes "caf\\xc3\\xa9"] ∧
    recovered "ssid" (setNetwork (bytes "0") "ssid" (bytes "caf\\xc3\\xa9")) =
      some (bytes "caf\\\\xc3\\\\xa9") ∧
    bytes "caf\\\\xc3\\\\xa9" ≠ bytes "caf" ++ [0xc3, 0xa9] ∧
    recovered "psk" (setNetwork (bytes "0") "psk" (bytes "say \"hi\"")) =
      some (bytes "say \\\"hi\\\"") ∧
    bytes "say \\\"hi\\\"" ≠ bytes "say \"hi\"" := by
  decide +kernel

end GuppyScreen.Wifi
