import GuppyScreen.Wifi.Credentials
import Mathlib.Data.List.TakeWhile

/-!
# The networks of wpa_supplicant (config.c, ctrl_iface.c)

A table from ids to blocks, and the commands of the control interface the panel
sends. An id in a command is read with `atoi`.
-/

namespace GuppyScreen.Wifi
open Lib

/-! ### Numbers -/

def isDigit (b : UInt8) : Bool := decide (48 ≤ b) && decide (b ≤ 57)

def isSpace (b : UInt8) : Bool := decide (b = blank) || (decide (9 ≤ b) && decide (b ≤ 13))

def digitsValue (ds : Bytes) : ℕ := ds.foldl (fun n b => 10 * n + (b.toNat - 48)) 0

/-- The number a text starts with, after blanks and a sign. -/
def leadingInt (text : Bytes) : Option ℤ :=
  let body := text.dropWhile isSpace
  let negative := body.head? = some 45
  let ds := (if negative ∨ body.head? = some 43 then body.tail else body).takeWhile isDigit
  if ds = [] then none else some (if negative then -(digitsValue ds : ℤ) else digitsValue ds)

def atoi (text : Bytes) : ℤ := (leadingInt text).getD 0

/-- `std::stoi`; `none` where it throws. -/
def stoi (text : Bytes) : Option ℤ :=
  (leadingInt text).filter fun n => decide (-2 ^ 31 ≤ n) && decide (n < 2 ^ 31)

/-- `%d`. -/
def decimal (n : ℕ) : Bytes := bytes (toString n)

theorem decimal_eq (n : ℕ) :
    decimal n = (Nat.toDigits 10 n).map fun c => UInt8.ofNat c.toNat := by
  unfold decimal bytes
  rw [show toString n = n.repr from rfl, Nat.toList_repr]

theorem digit_toNat {c : Char} (h : c.isDigit = true) :
    (UInt8.ofNat c.toNat).toNat = c.toNat ∧ 48 ≤ c.toNat ∧ c.toNat ≤ 57 := by
  have hle : 48 ≤ c.toNat ∧ c.toNat ≤ 57 := Char.isDigit_iff_toNat.mp h
  refine ⟨?_, hle⟩
  rw [UInt8.toNat_ofNat']
  omega

theorem isDigit_of_mem_decimal {n : ℕ} {b : UInt8} (h : b ∈ decimal n) : isDigit b = true := by
  rw [decimal_eq] at h
  obtain ⟨c, hc, rfl⟩ := List.mem_map.mp h
  obtain ⟨hnat, hlo, hhi⟩ := digit_toNat (Nat.isDigit_of_mem_toDigits (by decide) (by decide) hc)
  simp only [isDigit, UInt8.le_iff_toNat_le, hnat, Bool.and_eq_true, decide_eq_true_eq]
  exact ⟨hlo, hhi⟩

theorem decimal_ne_nil (n : ℕ) : decimal n ≠ [] := by
  rw [decimal_eq]
  intro h
  exact Nat.toDigits_ne_nil (List.map_eq_nil_iff.mp h)

theorem notMem_decimal {b : UInt8} (hb : isDigit b = false) (n : ℕ) : b ∉ decimal n := by
  intro h
  rw [isDigit_of_mem_decimal h] at hb
  cases hb

theorem digitsValue_map {cs : List Char} (h : ∀ c ∈ cs, c.isDigit = true) (acc : ℕ) :
    (cs.map fun c => UInt8.ofNat c.toNat).foldl (fun n b => 10 * n + (b.toNat - 48)) acc =
      Nat.ofDigitChars 10 cs acc := by
  induction cs generalizing acc with
  | nil => rfl
  | cons c cs ih =>
    have hc := (digit_toNat (h c (List.mem_cons_self ..))).1
    have hcs := ih fun d hd => h d (List.mem_cons_of_mem c hd)
    rw [List.map_cons, List.foldl_cons, hcs, hc]
    rfl

theorem digitsValue_decimal (n : ℕ) : digitsValue (decimal n) = n := by
  rw [decimal_eq, digitsValue,
    digitsValue_map fun c hc => Nat.isDigit_of_mem_toDigits (by decide) (by decide) hc]
  exact Nat.ofDigitChars_ten_toDigits

theorem takeWhile_decimal (n : ℕ) : (decimal n).takeWhile isDigit = decimal n := by
  rw [List.takeWhile_eq_self_iff]
  exact fun b hb => isDigit_of_mem_decimal hb

theorem atoi_decimal (n : ℕ) : atoi (decimal n) = n := by
  have hspace : (decimal n).dropWhile isSpace = decimal n := by
    rw [List.dropWhile_eq_self_iff]
    intro hlen hsp
    have hd := isDigit_of_mem_decimal (List.getElem_mem hlen)
    revert hd hsp
    generalize (decimal n)[0] = b
    revert b
    exact forall_byte (by decide +kernel)
  have hsign : ∀ b : UInt8, isDigit b = false → (decimal n).head? ≠ some b := by
    intro b hb h
    exact notMem_decimal hb n (List.mem_of_head? h)
  unfold atoi leadingInt
  simp only [hspace, hsign 45 (by decide), hsign 43 (by decide), if_false, or_self,
    takeWhile_decimal, decimal_ne_nil, digitsValue_decimal]
  rfl

/-! ### The table -/

structure Block where
  ssid : Bytes := []
  psk : Option Bytes := none
  deriving DecidableEq

structure Networks where
  blocks : List (ℕ × Block)
  distinct : (blocks.map Prod.fst).Nodup

namespace Networks

theorem block_unique (t : Networks) {n : ℕ} {b c : Block} (hb : (n, b) ∈ t.blocks)
    (hc : (n, c) ∈ t.blocks) : b = c := by
  have h := List.inj_on_of_nodup_map t.distinct hb hc rfl
  exact congrArg Prod.snd h

-- `wpa_config_add_network` looks for the largest id.
def nextId (t : Networks) : ℕ := t.blocks.foldr (fun b id => max (b.1 + 1) id) 0

theorem lt_nextId {t : Networks} {n : ℕ} {b : Block} (h : (n, b) ∈ t.blocks) : n < t.nextId := by
  unfold nextId
  revert h
  induction t.blocks with
  | nil =>
    intro h
    cases h
  | cons c blocks ih =>
    intro h
    rw [List.foldr_cons]
    rcases List.mem_cons.mp h with rfl | h
    · dsimp only
      omega
    · have hlt := ih h
      omega

def add (t : Networks) : Networks where
  blocks := t.blocks ++ [(t.nextId, {})]
  distinct := by
    rw [List.map_append, List.nodup_append]
    refine ⟨t.distinct, by simp, ?_⟩
    intro n hn m hm
    obtain ⟨⟨_, b⟩, hb, rfl⟩ := List.mem_map.mp hn
    have hlt := lt_nextId hb
    rw [List.map_singleton, List.mem_singleton] at hm
    dsimp only at hm hlt ⊢
    omega

def removeId (t : Networks) (id : ℤ) : Networks where
  blocks := t.blocks.filter fun b => decide ((b.1 : ℤ) ≠ id)
  distinct := t.distinct.sublist (List.filter_sublist.map Prod.fst)

def setId (t : Networks) (id : ℤ) (block : Block) : Networks where
  blocks := t.blocks.map fun b => if (b.1 : ℤ) = id then (b.1, block) else b
  distinct := by
    have hkeys : (t.blocks.map fun b => if (b.1 : ℤ) = id then (b.1, block) else b).map Prod.fst =
        t.blocks.map Prod.fst := by
      rw [List.map_map]
      refine List.map_congr_left fun b _ => ?_
      dsimp only [Function.comp_apply]
      split_ifs <;> rfl
    rw [hkeys]
    exact t.distinct

def get? (t : Networks) (id : ℤ) : Option Block :=
  (t.blocks.find? fun b => decide ((b.1 : ℤ) = id)).map Prod.snd

theorem get?_of_mem {t : Networks} {n : ℕ} {b : Block} (h : (n, b) ∈ t.blocks) :
    t.get? n = some b := by
  unfold get?
  cases hf : t.blocks.find? fun b => decide ((b.1 : ℤ) = n) with
  | none =>
    have hno := List.find?_eq_none.mp hf (n, b) h
    simp at hno
  | some c =>
    have hc := List.find?_some hf
    have hid : c.1 = n := by simpa using hc
    have hm : (n, c.2) ∈ t.blocks := hid ▸ List.mem_of_find?_eq_some hf
    rw [Option.map_some, t.block_unique hm h]

end Networks

/-! ### Commands -/

/-- `wpa_config_parse_str` for the field `ssid`. -/
def parseSsid (value : Bytes) : Option Bytes :=
  if value = bytes "NULL" then some []
  else (configParseString value).filter fun ssid => decide (ssid.length ≤ ssidMaxLen)

def hasCtrlChar (text : Bytes) : Bool := text.any fun b => decide (b < 32) || decide (b = 127)

-- Up to the last quote, or all of it.
def upToQuote (text : Bytes) : Bytes :=
  if quote ∈ text then ((text.reverse.dropWhile (· ≠ quote)).drop 1).reverse else text

/-- `wpa_config_parse_psk`: a passphrase between quotes or 64 hex digits. -/
def parsePsk : Bytes → Option Bytes
  | [] => none
  | c :: rest =>
    if c = quote then
      let text := upToQuote rest
      if 8 ≤ text.length ∧ text.length ≤ 63 ∧ hasCtrlChar text = false then some text else none
    else (hexstr2bin (c :: rest)).filter fun key => decide (key.length = 32)

/-- `wpa_config_set` for the two variables the panel writes. -/
def Block.set (b : Block) (name value : Bytes) : Option Block :=
  if name = bytes "ssid" then (parseSsid value).map fun ssid => { b with ssid := ssid }
  else if name = bytes "psk" then (parsePsk value).map fun psk => { b with psk := some psk }
  else none

/-- What LIST_NETWORKS prints of a block besides its id and name. -/
structure Mark where
  bssid : Bytes := bytes "any"
  current : Bool := false
  disabled : Bool := false
  tempDisabled : Bool := false
  persistent : Bool := false
  clean : bssid ≠ [] ∧ tab ∉ bssid ∧ newline ∉ bssid := by decide

theorem any_clean : bytes "any" ≠ [] ∧ tab ∉ bytes "any" ∧ newline ∉ bytes "any" := by decide

def Mark.flags (m : Mark) : Bytes :=
  (if m.current then bytes "[CURRENT]" else []) ++
    (if m.disabled then bytes "[DISABLED]" else []) ++
    (if m.tempDisabled then bytes "[TEMP-DISABLED]" else []) ++
    (if m.persistent then bytes "[P2P-PERSISTENT]" else [])

def networkLine (marks : ℕ → Mark) (b : ℕ × Block) : Bytes :=
  [tab].intercalate [decimal b.1, ssidTxt b.2.ssid, (marks b.1).bssid, (marks b.1).flags]

def networkLines (marks : ℕ → Mark) (t : Networks) : Bytes :=
  (bytes "network id / ssid / bssid / flags" :: t.blocks.map (networkLine marks)).flatMap
    (· ++ [newline])

def okReply : Bytes := bytes "OK\n"
def failReply : Bytes := bytes "FAIL\n"

/-- A command carried out: the table after it and the reply. -/
def exec (marks : ℕ → Mark) (found : List Bss) (t : Networks) (command : Bytes) :
    Networks × Bytes :=
  if command = bytes "LIST_NETWORKS" then (t, networkLines marks t)
  else if command = bytes "SCAN_RESULTS" then (t, scanResults found)
  else if command = bytes "ADD_NETWORK" then (t.add, decimal t.nextId ++ [newline])
  else if command = bytes "SAVE_CONFIG" then (t, okReply)
  else if (bytes "SELECT_NETWORK ").isPrefixOf command then
    let id := command.drop 15
    if (bytes "any").isPrefixOf id ∨ (t.get? (atoi id)).isSome then (t, okReply) else (t, failReply)
  else if (bytes "ENABLE_NETWORK ").isPrefixOf command then
    let id := command.drop 15
    if id = bytes "all" ∨ (t.get? (atoi id)).isSome then (t, okReply) else (t, failReply)
  else if (bytes "REMOVE_NETWORK ").isPrefixOf command then
    let id := command.drop 15
    if id = bytes "all" then (⟨[], List.nodup_nil⟩, okReply)
    else if (t.get? (atoi id)).isSome then (t.removeId (atoi id), okReply)
    else (t, failReply)
  else
    match setNetworkArgs command with
    | none => (t, failReply)
    | some (id, name, value) =>
      match (t.get? (atoi id)).bind fun b => b.set name value with
      | none => (t, failReply)
      | some block => (t.setId (atoi id) block, okReply)

/-- How a command fares: carried out and answered, refused, or not answered,
whether or not it was carried out. -/
inductive Answer where
  | result
  | fail
  | nothing (done : Bool)
  deriving DecidableEq

def Answer.carriedOut : Answer → Bool
  | .result => true
  | .fail => false
  | .nothing done => done

def serve (a : Answer) (marks : ℕ → Mark) (found : List Bss) (t : Networks) (command : Bytes) :
    Networks × Bytes :=
  let next := if a.carriedOut then (exec marks found t command).1 else t
  match a with
  | .result => (next, (exec marks found t command).2)
  | .fail => (next, failReply)
  | .nothing _ => (next, [])

/-! ### What a command can do -/

namespace Networks

/-- The blocks with another id are the same. -/
def Frame (n : ℕ) (t u : Networks) : Prop := ∀ m b, m ≠ n → ((m, b) ∈ u.blocks ↔ (m, b) ∈ t.blocks)

theorem Frame.refl (n : ℕ) (t : Networks) : Frame n t t := fun _ _ _ => Iff.rfl

theorem Frame.trans {n : ℕ} {t u v : Networks} (h : Frame n t u) (k : Frame n u v) : Frame n t v :=
  fun m b hm => (k m b hm).trans (h m b hm)

theorem mem_add {t : Networks} {m : ℕ} {b : Block} (h : (m, b) ∈ t.blocks) :
    (m, b) ∈ t.add.blocks :=
  List.mem_append_left _ h

theorem frame_removeId (n : ℕ) (t : Networks) : Frame n t (t.removeId n) := by
  intro m b hm
  simp [removeId, hm]

theorem frame_setId (n : ℕ) (block : Block) (t : Networks) : Frame n t (t.setId n block) := by
  intro m b hm
  simp only [setId, List.mem_map]
  constructor
  · rintro ⟨c, hc, he⟩
    split_ifs at he with hid
    · cases he
      exact absurd (Int.ofNat_inj.mp hid) hm
    · rwa [← he]
  · intro hb
    refine ⟨(m, b), hb, if_neg ?_⟩
    dsimp only
    omega

theorem mem_setId {n : ℕ} {b : Block} (block : Block) {t : Networks} (h : (n, b) ∈ t.blocks) :
    (n, block) ∈ (t.setId n block).blocks := by
  refine List.mem_map.mpr ⟨(n, b), h, ?_⟩
  simp

end Networks

section
variable {marks : ℕ → Mark} {found : List Bss} {t : Networks}

theorem serve_fst (a : Answer) (command : Bytes) : (serve a marks found t command).1 =
    if a.carriedOut then (exec marks found t command).1 else t := by
  cases a <;> rfl

theorem serve_cases {P : Networks → Prop} (a : Answer) {command : Bytes} (hskip : P t)
    (hdone : P (exec marks found t command).1) : P (serve a marks found t command).1 := by
  rw [serve_fst]
  split_ifs
  · exact hdone
  · exact hskip

theorem exec_remove (id : Bytes) : exec marks found t (bytes "REMOVE_NETWORK " ++ id) =
    if id = bytes "all" then (⟨[], List.nodup_nil⟩, okReply)
    else if (t.get? (atoi id)).isSome then (t.removeId (atoi id), okReply)
    else (t, failReply) := rfl

theorem exec_remove_frame (n : ℕ) :
    Networks.Frame n t (exec marks found t (bytes "REMOVE_NETWORK " ++ decimal n)).1 := by
  have hall : decimal n ≠ bytes "all" := by
    intro h
    have hm : (97 : UInt8) ∈ decimal n := by
      rw [h]
      decide
    exact notMem_decimal (by decide) n hm
  rw [exec_remove, if_neg hall, atoi_decimal]
  split_ifs
  · exact Networks.frame_removeId n t
  · exact Networks.Frame.refl n t

theorem exec_select (id : Bytes) :
    (exec marks found t (bytes "SELECT_NETWORK " ++ id)).1 = t := by
  change (if _ then (t, okReply) else (t, failReply)).1 = t
  split_ifs <;> rfl

theorem exec_enable (id : Bytes) :
    (exec marks found t (bytes "ENABLE_NETWORK " ++ id)).1 = t := by
  change (if _ then (t, okReply) else (t, failReply)).1 = t
  split_ifs <;> rfl

theorem exec_set {nid : Bytes} (hnid : blank ∉ nid) {name : String} (hname : blank ∉ bytes name)
    (text : Bytes) : exec marks found t (setNetwork nid name text) =
      match (t.get? (atoi nid)).bind fun b => b.set (bytes name) (debug text) with
      | none => (t, failReply)
      | some block => (t.setId (atoi nid) block, okReply) := by
  have hargs := setNetworkArgs_setNetwork hnid hname text
  have hdispatch : exec marks found t (setNetwork nid name text) =
      match setNetworkArgs (setNetwork nid name text) with
      | none => (t, failReply)
      | some (id, name, value) =>
        match (t.get? (atoi id)).bind fun b => b.set name value with
        | none => (t, failReply)
        | some block => (t.setId (atoi id) block, okReply) := rfl
  rw [hdispatch, hargs]

theorem exec_set_decimal {n : ℕ} {b : Block} (hb : (n, b) ∈ t.blocks) {name : String}
    (hname : blank ∉ bytes name) (text : Bytes) :
    (exec marks found t (setNetwork (decimal n) name text)).1 =
      match b.set (bytes name) (debug text) with
      | none => t
      | some block => t.setId n block := by
  rw [exec_set (notMem_decimal (by decide) n) hname, atoi_decimal, Networks.get?_of_mem hb,
    Option.bind_some]
  cases b.set (bytes name) (debug text) <;> rfl

theorem exec_set_frame {n : ℕ} {b : Block} (hb : (n, b) ∈ t.blocks) {name : String}
    (hname : blank ∉ bytes name) (text : Bytes) :
    Networks.Frame n t (exec marks found t (setNetwork (decimal n) name text)).1 := by
  rw [exec_set_decimal hb hname]
  split
  · exact Networks.Frame.refl n t
  · exact Networks.frame_setId n _ t

theorem exec_set_psk {n : ℕ} {b : Block} (hb : (n, b) ∈ t.blocks) (text : Bytes) :
    ∃ c, (n, c) ∈ (exec marks found t (setNetwork (decimal n) "psk" text)).1.blocks ∧
      c.ssid = b.ssid := by
  rw [exec_set_decimal hb (by decide)]
  split
  · exact ⟨b, hb, rfl⟩
  · rename_i block hset
    refine ⟨block, Networks.mem_setId block hb, ?_⟩
    rw [Block.set, if_neg (by decide), if_pos rfl] at hset
    obtain ⟨psk, -, rfl⟩ := Option.map_eq_some_iff.mp hset
    rfl

end

/-! ### The lines of LIST_NETWORKS -/

theorem Mark.flags_clean (m : Mark) : tab ∉ m.flags ∧ newline ∉ m.flags := by
  unfold Mark.flags
  cases m.current <;> cases m.disabled <;> cases m.tempDisabled <;> cases m.persistent <;> decide

theorem splitOn_networkLine (marks : ℕ → Mark) (b : ℕ × Block) :
    List.splitOn tab (networkLine marks b) =
      [decimal b.1, ssidTxt b.2.ssid, (marks b.1).bssid, (marks b.1).flags] := by
  refine List.splitOn_intercalate tab ?_ (by simp)
  simp only [List.forall_mem_cons]
  exact ⟨notMem_decimal (by decide) _, (ssidTxt_clean _).1, (marks b.1).clean.2.1,
    (Mark.flags_clean _).1, fun _ h => nomatch h⟩

theorem getlines_networkLine (marks : ℕ → Mark) (b : ℕ × Block) :
    ∃ more, Split.getlines tab (networkLine marks b) =
      decimal b.1 :: ssidTxt b.2.ssid :: more := by
  unfold Split.getlines
  rw [splitOn_networkLine]
  dsimp only
  split_ifs
  · exact ⟨_, rfl⟩
  · exact ⟨_, rfl⟩

theorem newline_notMem_networkLine (marks : ℕ → Mark) (b : ℕ × Block) :
    newline ∉ networkLine marks b := by
  intro hm
  simp only [networkLine, List.intercalate_cons_cons, List.intercalate_singleton, List.mem_append,
    List.mem_cons] at hm
  have htab : newline ≠ tab := by decide
  have hid : newline ∉ decimal b.1 := notMem_decimal (by decide) _
  have hname := (ssidTxt_clean b.2.ssid).2
  have hbssid := (marks b.1).clean.2.2
  have hflags := (Mark.flags_clean (marks b.1)).2
  tauto

theorem getlines_networkLines (marks : ℕ → Mark) (t : Networks) :
    Split.getlines newline (networkLines marks t) =
      bytes "network id / ssid / bssid / flags" :: t.blocks.map (networkLine marks) := by
  refine Split.getlines_lines fun line hl => ?_
  rcases List.mem_cons.mp hl with rfl | hl
  · decide
  · obtain ⟨b, -, rfl⟩ := List.mem_map.mp hl
    exact newline_notMem_networkLine marks b

/-! ### Names that need no escape -/

theorem encodeByte_of_unescaped (b : UInt8) (h : ∀ c ∈ encodeByte b, unquoted c) :
    encodeByte b = [b] := by
  have htable : ∀ b, (encodeByte b).all (unquoted ·) = true → encodeByte b = [b] :=
    forall_byte (by decide +kernel)
  exact htable b (by simpa using h)

theorem ssidTxt_of_unquoted {ssid : Bytes} (hlen : ssid.length ≤ ssidMaxLen)
    (h : ∀ b ∈ ssidTxt ssid, unquoted b) : ssidTxt ssid = ssid := by
  rw [ssidTxt_eq hlen] at h ⊢
  clear hlen
  induction ssid with
  | nil => rfl
  | cons b ssid ih =>
    rw [List.flatMap_cons] at h ⊢
    have hb := encodeByte_of_unescaped b fun c hc => h c (List.mem_append_left _ hc)
    have hrest := ih fun c hc => h c (List.mem_append_right _ hc)
    rw [hb, hrest]
    rfl

theorem parseSsid_debug {ssid : Bytes} (hlen : ssid.length ≤ ssidMaxLen)
    (htyped : ∀ b ∈ ssid, typable b) (h : ∀ b ∈ ssid, unquoted b) :
    parseSsid (debug ssid) = some ssid := by
  have hplain : ssid.flatMap escapeByte = ssid := by
    refine escapes_debug.flatMap_plain fun b hb => ⟨(htyped b hb).1, ?_, h b hb⟩
    rintro rfl
    exact absurd (htyped 127 hb) (by decide)
  have hnull : debug ssid ≠ bytes "NULL" := by
    intro he
    have hhead := congrArg List.head? he
    exact absurd hhead (by change some quote ≠ some 78; decide)
  rw [parseSsid, if_neg hnull, configParseString_debug, hplain, Option.filter_some,
    if_pos (decide_eq_true hlen)]

end GuppyScreen.Wifi
