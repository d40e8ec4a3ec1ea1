import GuppyScreen.Lib.Pointer
import GuppyScreen.Lib.Split
import GuppyScreen.Lib.StdMap
import GuppyScreen.Lib.Traverse
import GuppyScreen.Utils

/-!
# TMC autotune (tmc_tune_panel.cpp, guppy_config_helper.py)

`init` reads the raw config of Klipper, where every option is a string, into
dropdowns and a spinbox; Save writes every section anew from these. A save and a
delete are executed by `guppy_config_helper.py`, to which Klipper hands the
arguments between the quotes. A text has one character for each of its bytes.
-/

namespace GuppyScreen.TmcTune
open Lib

abbrev Section : Type := StdMap String String
abbrev Config : Type := StdMap String Section

/-! ### Texts -/

def beforeSpace (s : String) : String := String.ofList (s.toList.takeWhile (· ≠ ' '))

/-- `s.substr(s.find(' ') + 1)`, which is all of it without a space. -/
def afterSpace (s : String) : String :=
  if ' ' ∈ s.toList then String.ofList ((s.toList.dropWhile (· ≠ ' ')).drop 1) else s

/-! ### The panel -/

def goals : List String := ["auto", "silent", "performance", "autoswitch"]

/-- `tmc_sg_range`. -/
def sgRange (tmctype : String) : Option (ℤ × ℤ) :=
  if tmctype = "tmc2209" then some (0, 255)
  else if tmctype ∈ ["tmc2130", "tmc2240", "tmc2660", "tmc5160"] then some (-64, 63)
  else none

def notConfigured : String := "Not Configured"

/-- The controls of one stepper: the two texts selected and the spinbox. -/
structure AutoTmcContainer where
  name : String
  motor : String
  tuningGoal : String
  hasSg : Bool
  sensorlessThreshold : ℤ
  sgRange : ℤ × ℤ

-- What fits into the buffer of `lv_dropdown_get_selected_str`.
def cut (text : String) : String := String.ofList (text.toList.take 127)

def selectedStr (options : List String) (i : ℕ) : String := cut ((options[i]?).getD "")

def motorNames (motors : List String) : List String := motors.map afterSpace

/-- The constructor. A spinbox keeps its value in its range. -/
def AutoTmcContainer.new (motors : List String) (name : String) (motorIdx goalIdx : ℕ)
    (hasSg : Bool)
    (sgthrs : ℤ) (range : ℤ × ℤ) : AutoTmcContainer where
  name := name
  motor := selectedStr (notConfigured :: motorNames motors) motorIdx
  tuningGoal := selectedStr goals goalIdx
  hasSg := hasSg
  sensorlessThreshold := max range.1 (min range.2 sgthrs)
  sgRange := range

def sectionJson (s : Section) : Json :=
  .obj (s.entries.foldr (fun e fs => fs.insert e.1 (.str e.2)) .nil)

def configJson (c : Config) : Json :=
  .obj (c.entries.foldr (fun e fs => fs.insert e.1 (sectionJson e.2)) .nil)

def endstopPtr (stepper : String) : Option (List String) :=
  Pointer.parse ("/" ++ stepper ++ "/endstop_pin")

/-- `v["/<stepper>/endstop_pin"]` and what it makes of `v`, `none` where it throws. -/
def endstopPin (v : Json) (stepper : String) : Option (Option String × Json) :=
  (endstopPtr stepper).bind fun ptr =>
    (Pointer.upsert id ptr v).bind fun w =>
      match w.valueAt ptr with
      | .null => some (none, w)
      | .str pin => some (some pin, w)
      | _ => none

def configuredSteppers (c : Config) : List String :=
  c.keys.filter fun key => Text.startsWith "tmc" key && decide (' ' ∈ key.toList)

def tuned (c : Config) (stepper : String) : Option Section := c.lookup ("autotune_tmc " ++ stepper)

def hasVirtualEndstop (pin : Option String) (tmctype : String) : Bool :=
  (pin.map (Text.hasSubstr "virtual_endstop")).getD false && (sgRange tmctype).isSome

def motorIdx (motors : List String) (s : Section) : ℕ :=
  ((s.lookup "motor").bind fun m => (motorNames motors).findIdx? (· = m)).elim 0 (· + 1)

def goalIdx (s : Section) : ℕ :=
  ((s.lookup "tuning_goal").bind fun g => goals.findIdx? (· = g)).getD 0

def defaultThreshold (range : ℤ × ℤ) : ℤ := if range.1 = 0 then 80 else 1

/-- The `int16_t` given to the spinbox, `none` where `std::stoi` throws. -/
def sgValue (s : Section) (range : ℤ × ℤ) : Option ℤ :=
  match s.lookup "sg4_thrs" with
  | none => some (defaultThreshold range)
  | some text => (Double.stoi text).map (Int.bmod · (2 ^ 16))

/-- The container of a configured stepper, `none` where something throws. -/
def container (motors : List String) (c : Config) (key : String) (pin : Option String) :
    Option AutoTmcContainer :=
  let stepper := afterSpace key
  let range := (sgRange (beforeSpace key)).getD (0, 0)
  let hasSg := hasVirtualEndstop pin (beforeSpace key)
  match tuned c stepper with
  | none => some (.new motors stepper 0 0 hasSg (defaultThreshold range) range)
  | some s => (sgValue s range).map fun v =>
    .new motors stepper (motorIdx motors s) (goalIdx s) hasSg v range

/-- The loop over the configured steppers, which ends where something throws. The
access to `v` leaves its nulls there for the rounds that follow. -/
def rounds (motors : List String) (c : Config) : Json → List String →
    List (String × AutoTmcContainer)
  | _, [] => []
  | v, key :: keys =>
    match endstopPin v (afterSpace key) with
    | none => []
    | some (pin, w) =>
      match container motors c key pin with
      | none => []
      | some a => (key, a) :: rounds motors c w keys

def init (motors : List String) (c : Config) : List AutoTmcContainer :=
  (rounds motors c (configJson c) (configuredSteppers c)).map (·.2)

/-- The steppers `init` gets to. -/
def reached (motors : List String) (c : Config) : List String :=
  (rounds motors c (configJson c) (configuredSteppers c)).map (·.1)

/-! ### The script -/

inductive Line where
  | loadModule
  | save (name keyValue : String)
  | delete (name : String)
  | saveConfig

def Line.text : Line → String
  | .loadModule => "_GUPPY_LOAD_MODULE SECTION=guppy_config_helper"
  | .save name keyValue =>
    "_GUPPY_SAVE_CONFIG SECTION=\"" ++ name ++ "\" KEY_VALUE=\"" ++ keyValue ++ "\""
  | .delete name => "_GUPPY_DELETE_CONFIG SECTION=\"" ++ name ++ "\""
  | .saveConfig => "SAVE_CONFIG"

namespace AutoTmcContainer

def thresholdKey (a : AutoTmcContainer) : String := if a.sgRange.1 = 0 then "sg4_thrs" else "sgt"

def keyValue (a : AutoTmcContainer) : String :=
  "motor:" ++ a.motor ++ ",tuning_goal:" ++ a.tuningGoal ++
    if a.hasSg then "," ++ a.thresholdKey ++ ":" ++ toString a.sensorlessThreshold else ""

def getConfigMacro (a : AutoTmcContainer) : Line :=
  if a.motor = notConfigured then .delete ("autotune_tmc " ++ a.name)
  else .save ("autotune_tmc " ++ a.name) a.keyValue

end AutoTmcContainer

def saveConfig (steppers : List AutoTmcContainer) : List Line :=
  .loadModule :: (steppers.map (·.getConfigMacro) ++ [.saveConfig])

/-! ### The helper -/

/-- `dict(s.split(':') for s in pairs.split(','))`, `none` where it raises. -/
def splitPairs (pairs : String) : Option (List (String × String)) :=
  (pairs.toList.splitOn ',').mapM fun piece =>
    match piece.splitOn ':' with
    | [k, v] => some (String.ofList k, String.ofList v)
    | _ => none

def set (name : String) (c : Config) (kv : String × String) : Config :=
  c.insert name (((c.lookup name).getD ∅).insert kv.1 kv.2)

/-- The config as edited and the one on disk. -/
structure Printer where
  edited : Config
  saved : Config

def exec (p : Printer) : Line → Option Printer
  | .loadModule => some p
  | .save name keyValue =>
    (splitPairs keyValue).map fun pairs =>
      { p with edited := pairs.foldl (set name) (p.edited.erase name) }
  | .delete name => some { p with edited := p.edited.erase name }
  | .saveConfig => some { p with saved := p.edited }

/-- A command that raises ends the script. -/
def runScript (p : Printer) : List Line → Printer
  | [] => p
  | line :: lines =>
    match exec p line with
    | none => p
    | some q => runScript q lines

/-- What is on disk after `init` and a press of Save, which is disabled without the
loader and the helper. -/
def afterSave (motors : List String) (helper : Bool) (c : Config) : Config :=
  if "guppy_module_loader" ∈ c ∧ helper = true then
    (runScript ⟨c, c⟩ (saveConfig (init motors c))).saved
  else c

/-! ### What a line leaves -/

/-- The section a container writes: `none` where the helper refuses the line, an
inner `none` where the section is deleted. -/
def AutoTmcContainer.written (a : AutoTmcContainer) : Option (Option Section) :=
  if a.motor = notConfigured then some none
  else (splitPairs a.keyValue).map fun pairs =>
    some (pairs.foldl (fun s kv => s.insert kv.1 kv.2) ∅)

theorem lookup_foldl_set (name : String) (pairs : List (String × String)) (c : Config) {s : Section}
    (h : c.lookup name = some s) : (pairs.foldl (set name) c).lookup name =
      some (pairs.foldl (fun s kv => s.insert kv.1 kv.2) s) := by
  induction pairs generalizing c s with
  | nil => exact h
  | cons kv pairs ih =>
    have hset : (set name c kv).lookup name = some (s.insert kv.1 kv.2) := by
      rw [set, AList.lookup_insert, h]
      rfl
    exact ih _ hset

theorem lookup_foldl_set_erase (name : String) {pairs : List (String × String)} (hne : pairs ≠ [])
    (c : Config) : (pairs.foldl (set name) (c.erase name)).lookup name =
      some (pairs.foldl (fun s kv => s.insert kv.1 kv.2) ∅) := by
  cases pairs with
  | nil => exact absurd rfl hne
  | cons kv pairs =>
    have hset : (set name (c.erase name) kv).lookup name =
        some ((∅ : Section).insert kv.1 kv.2) := by
      rw [set, AList.lookup_insert, AList.lookup_erase]
      rfl
    exact lookup_foldl_set name pairs _ hset

theorem lookup_foldl_set_ne {name other : String} (h : other ≠ name)
    (pairs : List (String × String))
    (c : Config) : (pairs.foldl (set name) c).lookup other = c.lookup other := by
  induction pairs generalizing c with
  | nil => rfl
  | cons kv pairs ih =>
    rw [List.foldl_cons, ih, set, AList.lookup_insert_ne h]

theorem splitPairs_ne_nil {keyValue : String} {pairs : List (String × String)}
    (h : splitPairs keyValue = some pairs) : pairs ≠ [] := by
  have hlen := (Traverse.of_mapM h).1
  have hpos := List.length_pos_iff.mpr (List.splitOn_ne_nil ',' keyValue.toList)
  rintro rfl
  rw [List.length_nil] at hlen
  omega

theorem lacks_of_splitPairs {keyValue : String} {pairs : List (String × String)}
    (h : splitPairs keyValue = some pairs) :
    ∀ kv ∈ pairs, Text.Lacks ',' kv.2 ∧ Text.Lacks ':' kv.2 := by
  intro kv hkv
  obtain ⟨piece, hpiece, hsplit⟩ := (Traverse.of_mapM h).2 kv hkv
  have hcomma := Split.notMem_of_mem_splitOn hpiece
  split at hsplit
  · rename_i k v hparts
    cases hsplit
    have hv : v ∈ piece.splitOn ':' := by
      rw [hparts]
      simp
    unfold Text.Lacks
    rw [String.toList_ofList]
    have hsub := (Split.infix_of_mem_splitOn hv).subset
    exact ⟨fun hm => hcomma (hsub hm), Split.notMem_of_mem_splitOn hv⟩
  · cases hsplit

theorem exec_refused {a : AutoTmcContainer} (h : a.written = none) (p : Printer) :
    exec p a.getConfigMacro = none := by
  unfold AutoTmcContainer.written at h
  unfold AutoTmcContainer.getConfigMacro
  split_ifs at h ⊢
  rw [Option.map_eq_none_iff] at h
  rw [exec, h]
  rfl

theorem exec_written {a : AutoTmcContainer} {w : Option Section} (h : a.written = some w)
    (p : Printer) : ∃ c, exec p a.getConfigMacro = some { p with edited := c } ∧
      c.lookup ("autotune_tmc " ++ a.name) = w ∧
      ∀ name, name ≠ "autotune_tmc " ++ a.name → c.lookup name = p.edited.lookup name := by
  unfold AutoTmcContainer.written at h
  unfold AutoTmcContainer.getConfigMacro
  split_ifs at h ⊢
  · cases h
    exact ⟨_, rfl, AList.lookup_erase .., fun name hne => AList.lookup_erase_ne hne⟩
  · obtain ⟨pairs, hpairs, rfl⟩ := Option.map_eq_some_iff.mp h
    refine ⟨_, by rw [exec, hpairs]; rfl, ?_, fun name hne => ?_⟩
    · exact lookup_foldl_set_erase _ (splitPairs_ne_nil hpairs) _
    · rw [lookup_foldl_set_ne hne, AList.lookup_erase_ne hne]

/-! ### What the script leaves -/

theorem sectionName_inj {n m : String} (h : "autotune_tmc " ++ n = "autotune_tmc " ++ m) :
    n = m := by
  have hlist := congrArg String.toList h
  rw [String.toList_append, String.toList_append] at hlist
  exact String.toList_inj.mp (List.append_cancel_left hlist)

/-- `d` is `c` with the sections the containers write, the last one first. -/
structure Edited (containers : List AutoTmcContainer) (c d : Config) : Prop where
  same : ∀ name, (∀ a ∈ containers, "autotune_tmc " ++ a.name ≠ name) →
    d.lookup name = c.lookup name
  last : ∀ pre a post, containers = pre ++ a :: post → (∀ b ∈ post, b.name ≠ a.name) →
    a.written = some (d.lookup ("autotune_tmc " ++ a.name))

theorem runScript_edits {containers : List AutoTmcContainer}
    (h : ∀ a ∈ containers, a.written.isSome = true) (p : Printer) :
    ∃ d, runScript p (containers.map (·.getConfigMacro) ++ [.saveConfig]) = ⟨d, d⟩ ∧
      Edited containers p.edited d := by
  induction containers generalizing p with
  | nil =>
    refine ⟨p.edited, rfl, fun _ _ => rfl, fun pre a post hsplit => ?_⟩
    cases pre <;> cases hsplit
  | cons a rest ih =>
    obtain ⟨w, hw⟩ := Option.isSome_iff_exists.mp (h a (List.mem_cons_self ..))
    obtain ⟨c, hexec, hsec, hother⟩ := exec_written hw p
    obtain ⟨d, hrun, hedit⟩ := ih (fun b hb => h b (List.mem_cons_of_mem a hb))
      { p with edited := c }
    refine ⟨d, ?_, ?_, ?_⟩
    · rw [List.map_cons, List.cons_append, runScript, hexec]
      exact hrun
    · intro name hname
      rw [hedit.same name fun b hb => hname b (List.mem_cons_of_mem a hb)]
      exact hother name (hname a (List.mem_cons_self ..)).symm
    · intro pre b post hsplit hlast
      cases pre with
      | nil =>
        cases hsplit
        have hrest : d.lookup ("autotune_tmc " ++ a.name) = c.lookup ("autotune_tmc " ++ a.name) :=
          hedit.same _ fun b hb he => hlast b hb (sectionName_inj he)
        rw [hrest, hsec]
        exact hw
      | cons x pre =>
        cases hsplit
        exact hedit.last pre b post rfl hlast

theorem runScript_refused {containers : List AutoTmcContainer}
    (h : ∃ a ∈ containers, a.written = none) (p : Printer) :
    (runScript p (containers.map (·.getConfigMacro) ++ [.saveConfig])).saved = p.saved := by
  induction containers generalizing p with
  | nil =>
    obtain ⟨a, ha, -⟩ := h
    cases ha
  | cons a rest ih =>
    rw [List.map_cons, List.cons_append, runScript]
    cases hw : a.written with
    | none => rw [exec_refused hw]
    | some w =>
      obtain ⟨c, hexec, -, -⟩ := exec_written hw p
      have hrest : ∃ b ∈ rest, b.written = none := by
        obtain ⟨b, hb, hnone⟩ := h
        rcases List.mem_cons.mp hb with rfl | hb
        · rw [hw] at hnone
          cases hnone
        · exact ⟨b, hb, hnone⟩
      rw [hexec]
      exact ih hrest { p with edited := c }

/-! ### The pairs of a line -/

def joinPairs (pairs : List (String × String)) : List Char :=
  [','].intercalate (pairs.map fun kv => [':'].intercalate [kv.1.toList, kv.2.toList])

def Clean (text : String) : Prop := Text.Lacks ',' text ∧ Text.Lacks ':' text

instance Clean.decidable (text : String) : Decidable (Clean text) :=
  inferInstanceAs (Decidable (_ ∧ _))

theorem splitPairs_joinPairs {pairs : List (String × String)} (hne : pairs ≠ [])
    (h : ∀ kv ∈ pairs, Clean kv.1 ∧ Clean kv.2) {text : String}
    (ht : text.toList = joinPairs pairs) :
    splitPairs text = some pairs := by
  have hpieces : text.toList.splitOn ',' =
      pairs.map fun kv => [':'].intercalate [kv.1.toList, kv.2.toList] := by
    rw [ht]
    refine List.splitOn_intercalate ',' (fun piece hp => ?_) (by simpa using hne)
    obtain ⟨kv, hkv, rfl⟩ := List.mem_map.mp hp
    obtain ⟨⟨hk, -⟩, ⟨hv, -⟩⟩ := h kv hkv
    simp only [List.intercalate_cons_cons, List.intercalate_singleton, List.mem_append,
      List.mem_singleton, not_or]
    exact ⟨⟨hk, by decide⟩, hv⟩
  unfold splitPairs
  rw [hpieces]
  clear hpieces ht hne
  induction pairs with
  | nil => rfl
  | cons kv pairs ih =>
    obtain ⟨⟨-, hk⟩, ⟨-, hv⟩⟩ := h kv (List.mem_cons_self ..)
    have hsplit : List.splitOn ':' ([':'].intercalate [kv.1.toList, kv.2.toList]) =
        [kv.1.toList, kv.2.toList] := by
      refine List.splitOn_intercalate ':' (fun piece hp => ?_) (by simp)
      rcases List.mem_cons.mp hp with rfl | hp
      · exact hk
      · rw [List.mem_singleton.mp hp]
        exact hv
    rw [List.map_cons, List.mapM_cons, hsplit, ih fun p hp => h p (List.mem_cons_of_mem kv hp)]
    simp

namespace AutoTmcContainer

def pairs (a : AutoTmcContainer) : List (String × String) :=
  [("motor", a.motor), ("tuning_goal", a.tuningGoal)] ++
    if a.hasSg then [(a.thresholdKey, toString a.sensorlessThreshold)] else []

theorem toList_keyValue (a : AutoTmcContainer) : a.keyValue.toList = joinPairs a.pairs := by
  unfold keyValue pairs joinPairs
  cases a.hasSg <;> simp [String.toList_append]

end AutoTmcContainer

theorem stoi_toString {v : ℤ} (hlo : -64 ≤ v) (hhi : v ≤ 255) :
    Double.stoi (toString v) = some v ∧ Clean (toString v) := by
  have hall : ∀ k : ℕ, k < 320 → Double.stoi (toString ((k : ℤ) - 64)) = some ((k : ℤ) - 64) ∧
      Clean (toString ((k : ℤ) - 64)) := by decide +kernel
  have hk := hall (v + 64).toNat (by omega)
  have hv : (((v + 64).toNat : ℕ) : ℤ) - 64 = v := by omega
  simpa only [hv] using hk

theorem clean_goals : ∀ g ∈ goals, Clean g := by decide

/-! ### What the controls show -/

theorem getElem?_findIdx? {l : List String} {x : String} {i : ℕ} (h : l.findIdx? (· = x) = some i) :
    l[i]? = some x := by
  obtain ⟨hi, hx, -⟩ := List.findIdx?_eq_some_iff_getElem.mp h
  rw [List.getElem?_eq_getElem hi]
  simpa using hx

theorem selectedStr_short {options : List String} {i : ℕ} {text : String}
    (h : options[i]? = some text) (hlen : text.length ≤ 127) : selectedStr options i = text := by
  unfold selectedStr cut
  rw [h, Option.getD_some, List.take_of_length_le (by rwa [String.length_toList]),
    String.ofList_toList]

theorem selected_motor {motors : List String} {s : Section} {m : String}
    (h : s.lookup "motor" = some m) (hm : m ∈ motorNames motors) :
    selectedStr (notConfigured :: motorNames motors) (motorIdx motors s) = cut m := by
  obtain ⟨i, hi⟩ : ∃ i, (motorNames motors).findIdx? (· = m) = some i := by
    rw [← Option.isSome_iff_exists, List.findIdx?_isSome, List.any_eq_true]
    exact ⟨m, hm, by simp⟩
  have hidx : motorIdx motors s = i + 1 := by
    rw [motorIdx, h, Option.bind_some, hi]
    rfl
  unfold selectedStr
  rw [hidx, List.getElem?_cons_succ, getElem?_findIdx? hi]
  rfl

theorem selected_missing {motors : List String} {s : Section}
    (h : ∀ m, s.lookup "motor" = some m → m ∉ motorNames motors) :
    selectedStr (notConfigured :: motorNames motors) (motorIdx motors s) = notConfigured := by
  have hidx : motorIdx motors s = 0 := by
    unfold motorIdx
    cases hm : s.lookup "motor" with
    | none => rfl
    | some m =>
      have hnone : (motorNames motors).findIdx? (· = m) = none := by
        rw [List.findIdx?_eq_none_iff]
        intro x hx
        rw [decide_eq_false_iff_not]
        rintro rfl
        exact h x hm hx
      rw [Option.bind_some, hnone]
      rfl
  rw [hidx]
  exact selectedStr_short rfl (by decide)

def goal (s : Section) : String := (s.lookup "tuning_goal").getD "auto"

theorem selected_goal (s : Section) : selectedStr goals (goalIdx s) ∈ goals ∧
    (goal s ∈ goals → selectedStr goals (goalIdx s) = goal s) := by
  have hshort : ∀ g ∈ goals, g.length ≤ 127 := by decide
  have hauto : selectedStr goals 0 = "auto" := by decide
  unfold goalIdx goal
  cases hg : s.lookup "tuning_goal" with
  | none => exact ⟨by decide, fun _ => hauto⟩
  | some g =>
    rw [Option.bind_some, Option.getD_some]
    cases hi : goals.findIdx? (· = g) with
    | none =>
      refine ⟨by decide, fun hmem => ?_⟩
      have hne := List.findIdx?_eq_none_iff.mp hi g hmem
      simp at hne
    | some i =>
      have hget := getElem?_findIdx? hi
      have hmem := List.mem_of_getElem? hget
      have hsel := selectedStr_short hget (hshort g hmem)
      rw [Option.getD_some, hsel]
      exact ⟨hmem, fun _ => rfl⟩

/-! ### One section -/

def threshold (s : Section) (key : String) : Option ℤ := (s.lookup key).bind Double.stoi

def InRange (tmctype : String) (n : ℤ) : Prop :=
  ∃ r, sgRange tmctype = some r ∧ r.1 ≤ n ∧ n ≤ r.2

/-- `t` has what `s` had, the thresholds where they are in the driver's range. -/
structure Same (tmctype : String) (s t : Section) : Prop where
  motor : t.lookup "motor" = s.lookup "motor"
  goal : goal t = goal s
  threshold : ∀ key ∈ ["sg4_thrs", "sgt"], ∀ n, threshold s key = some n → InRange tmctype n →
    threshold t key = some n

def VirtualEndstop (c : Config) (stepper : String) : Prop :=
  ∃ ptr pin, endstopPtr stepper = some ptr ∧ (configJson c).at? ptr = some (.str pin) ∧
    Text.hasSubstr "virtual_endstop" pin = true

/-- What the spinbox shows for a driver that has `sgt`. -/
def shownSgt (s : Section) : ℤ := max (-64) (min 63 ((sgValue s (-64, 63)).getD 1))

/-- The section `s` is written as it was by the stepper of `key`. `tmctype` is the
driver that gives the range of its thresholds. -/
structure Restorable (motors : List String) (c : Config) (tmctype key : String) (s : Section) :
    Prop where
  motor : ∃ m, s.lookup "motor" = some m ∧ m ∈ motorNames motors ∧ m ≠ notConfigured ∧
    m.length ≤ 127 ∧ Clean m
  goal : goal s ∈ goals
  sg4 : ∀ n, threshold s "sg4_thrs" = some n → InRange tmctype n →
    VirtualEndstop c (afterSpace key) ∧ beforeSpace key = "tmc2209" ∧ 0 ≤ n ∧ n ≤ 255
  sgt : ∀ n, threshold s "sgt" = some n → InRange tmctype n →
    VirtualEndstop c (afterSpace key) ∧
      beforeSpace key ∈ ["tmc2130", "tmc2240", "tmc2660", "tmc5160"] ∧ n = shownSgt s

theorem container_tuned {motors : List String} {c : Config} {key : String} {pin : Option String}
    {a : AutoTmcContainer} {s : Section} (ha : container motors c key pin = some a)
    (hs : tuned c (afterSpace key) = some s) :
    ∃ v, sgValue s ((sgRange (beforeSpace key)).getD (0, 0)) = some v ∧
      a = .new motors (afterSpace key) (motorIdx motors s) (goalIdx s)
        (hasVirtualEndstop pin (beforeSpace key)) v ((sgRange (beforeSpace key)).getD (0, 0)) := by
  simp only [container, hs] at ha
  obtain ⟨v, hv, rfl⟩ := Option.map_eq_some_iff.mp ha
  exact ⟨v, hv, rfl⟩

theorem container_name {motors : List String} {c : Config} {key : String} {pin : Option String}
    {a : AutoTmcContainer} (ha : container motors c key pin = some a) :
      a.name = afterSpace key := by
  cases hs : tuned c (afterSpace key) with
  | none =>
    simp only [container, hs] at ha
    cases ha
    rfl
  | some s =>
    obtain ⟨v, -, rfl⟩ := container_tuned ha hs
    rfl

theorem endstopPin_some {v w : Json} {stepper : String} {pin : Option String}
    (h : endstopPin v stepper = some (pin, w)) : ∃ ptr, endstopPtr stepper = some ptr ∧
      Pointer.upsert id ptr v = some w ∧ ∀ p, pin = some p ↔ v.at? ptr = some (.str p) := by
  obtain ⟨ptr, hptr, h⟩ := Option.bind_eq_some_iff.mp h
  obtain ⟨u, hu, h⟩ := Option.bind_eq_some_iff.mp h
  -- what is read after the access is a string where there was one before it
  have hread : ∀ p, u.valueAt ptr = .str p ↔ v.at? ptr = some (.str p) := by
    intro p
    rw [← Pointer.at?_look_str hu, Json.valueAt]
    cases u.at? ptr <;> simp
  split at h
  · rename_i hnull
    cases h
    refine ⟨ptr, hptr, hu, fun p => ?_⟩
    rw [← hread p, hnull]
    simp
  · rename_i text htext
    cases h
    refine ⟨ptr, hptr, hu, fun p => ?_⟩
    rw [← hread p, htext]
    simp
  · cases h

/-- A round makes the container of its stepper, with the pin of the config. -/
theorem mem_rounds {motors : List String} {c : Config} {key : String} {a : AutoTmcContainer}
    {v : Json}
    {keys : List String} (h : (key, a) ∈ rounds motors c v keys) :
    ∃ pin ptr, container motors c key pin = some a ∧ endstopPtr (afterSpace key) = some ptr ∧
      ∀ p, pin = some p ↔ v.at? ptr = some (.str p) := by
  induction keys generalizing v with
  | nil => cases h
  | cons first keys ih =>
    unfold rounds at h
    split at h
    · cases h
    · rename_i pin w hpin
      obtain ⟨ptr, hptr, hlook, hread⟩ := endstopPin_some hpin
      split at h
      · cases h
      · rename_i b hb
        rcases List.mem_cons.mp h with heq | h
        · cases heq
          exact ⟨pin, ptr, hb, hptr, hread⟩
        · obtain ⟨pin', ptr', ha, hptr', hread'⟩ := ih h
          refine ⟨pin', ptr', ha, hptr', fun p => ?_⟩
          rw [hread' p, Pointer.at?_look_str hlook]

theorem clean_tail {a : AutoTmcContainer} (hg : Clean a.tuningGoal)
    (ht : a.hasSg = true → Clean (toString a.sensorlessThreshold)) :
    ∀ kv ∈ a.pairs.tail, Clean kv.1 ∧ Clean kv.2 := by
  unfold AutoTmcContainer.pairs AutoTmcContainer.thresholdKey
  cases hsg : a.hasSg with
  | false =>
    simp only [List.tail_cons, List.forall_mem_cons, Bool.false_eq_true, if_false, List.append_nil]
    exact ⟨⟨by decide, hg⟩, fun _ h => nomatch h⟩
  | true =>
    simp only [List.cons_append, List.tail_cons, List.forall_mem_cons, if_true, List.nil_append]
    refine ⟨⟨by decide, hg⟩, ⟨?_, ht hsg⟩, fun _ h => nomatch h⟩
    split_ifs <;> decide

theorem written_clean {a : AutoTmcContainer} (hmotor : a.motor ≠ notConfigured)
    (hm : Clean a.motor) (hg : Clean a.tuningGoal)
    (ht : a.hasSg = true → Clean (toString a.sensorlessThreshold)) :
    a.written = some (some (a.pairs.foldl (fun s kv => s.insert kv.1 kv.2) ∅)) := by
  have hclean : ∀ kv ∈ a.pairs, Clean kv.1 ∧ Clean kv.2 := by
    intro kv hkv
    rcases List.mem_cons.mp hkv with rfl | hkv
    · have hkey : Clean "motor" := by decide
      exact ⟨hkey, hm⟩
    · exact clean_tail hg ht kv hkv
  have hsplit := splitPairs_joinPairs (by simp [AutoTmcContainer.pairs]) hclean a.toList_keyValue
  rw [AutoTmcContainer.written, if_neg hmotor, hsplit]
  rfl

theorem splitPairs_append (x y : String) : (splitPairs (x ++ "," ++ y)).isSome = true ↔
    (splitPairs x).isSome = true ∧ (splitPairs y).isSome = true := by
  have hsplit : (x ++ "," ++ y).toList.splitOn ',' = x.toList.splitOn ',' ++
      y.toList.splitOn ',' := by
    rw [String.toList_append, String.toList_append, List.append_assoc]
    exact List.splitOn_append_cons_self ..
  rw [splitPairs, hsplit, List.mapM_append]
  change ((splitPairs x).bind fun a => (splitPairs y).bind fun b => some (a ++ b)).isSome = true ↔ _
  cases splitPairs x <;> cases splitPairs y <;> simp

theorem written_isSome_iff {a : AutoTmcContainer} (hg : Clean a.tuningGoal)
    (ht : a.hasSg = true → Clean (toString a.sensorlessThreshold)) : a.written.isSome = true ↔
      a.motor = notConfigured ∨ (splitPairs ("motor:" ++ a.motor)).isSome = true := by
  -- what comes after the motor is always taken
  have hrest : ∃ rest, a.keyValue = "motor:" ++ a.motor ++ "," ++ rest ∧
      (splitPairs rest).isSome = true := by
    refine ⟨"tuning_goal:" ++ a.tuningGoal ++
      if a.hasSg then "," ++ a.thresholdKey ++ ":" ++ toString a.sensorlessThreshold
        else "", ?_, ?_⟩
    · unfold AutoTmcContainer.keyValue
      rw [show (",tuning_goal:" : String) = "," ++ "tuning_goal:" from rfl]
      simp only [String.append_assoc]
    · have hjoin : (("tuning_goal:" ++ a.tuningGoal ++
          if a.hasSg then "," ++ a.thresholdKey ++ ":" ++ toString a.sensorlessThreshold
          else "") : String).toList = joinPairs a.pairs.tail := by
        unfold AutoTmcContainer.pairs joinPairs
        cases a.hasSg <;> simp [String.toList_append]
      rw [splitPairs_joinPairs (by simp [AutoTmcContainer.pairs]) (clean_tail hg ht) hjoin]
      rfl
  obtain ⟨rest, hkv, hsome⟩ := hrest
  unfold AutoTmcContainer.written
  split_ifs with hm
  · simp [hm]
  · rw [Option.isSome_map, hkv, splitPairs_append]
    simp [hm, hsome]

theorem lookup_foldl_insert {pairs : List (String × String)} {s : Section} {k x : String}
    (h : (pairs.foldl (fun s kv => s.insert kv.1 kv.2) s).lookup k = some x) :
    s.lookup k = some x ∨ ∃ kv ∈ pairs, kv.2 = x := by
  induction pairs generalizing s with
  | nil => exact .inl h
  | cons kv pairs ih =>
    rcases ih h with hs | ⟨other, ho, hx⟩
    · by_cases hk : k = kv.1
      · rw [hk, AList.lookup_insert] at hs
        exact .inr ⟨kv, List.mem_cons_self .., Option.some_inj.mp hs⟩
      · rw [AList.lookup_insert_ne hk] at hs
        exact .inl hs
    · exact .inr ⟨other, List.mem_cons_of_mem kv ho, hx⟩

namespace AutoTmcContainer

/-- The section with the container's pairs. -/
def sectionOf (a : AutoTmcContainer) : Section :=
  a.pairs.foldl (fun s kv => s.insert kv.1 kv.2) ∅

theorem sectionOf_motor (a : AutoTmcContainer) : a.sectionOf.lookup "motor" = some a.motor := by
  unfold sectionOf pairs thresholdKey
  cases a.hasSg with
  | false => rfl
  | true => split_ifs <;> rfl

theorem sectionOf_goal (a : AutoTmcContainer) : goal a.sectionOf = a.tuningGoal := by
  unfold goal sectionOf pairs thresholdKey
  cases a.hasSg with
  | false => rfl
  | true => split_ifs <;> rfl

theorem sectionOf_sg4 (a : AutoTmcContainer) : a.sectionOf.lookup "sg4_thrs" =
    if a.hasSg = true ∧ a.sgRange.1 = 0 then some (toString a.sensorlessThreshold) else none := by
  unfold sectionOf pairs thresholdKey
  cases a.hasSg with
  | false => rfl
  | true =>
    by_cases h : a.sgRange.1 = 0
    · simp only [h, if_true, and_self]
      rfl
    · simp only [h, if_true, if_false, and_false]
      rfl

theorem sectionOf_sgt (a : AutoTmcContainer) : a.sectionOf.lookup "sgt" =
    if a.hasSg = true ∧ a.sgRange.1 ≠ 0 then some (toString a.sensorlessThreshold) else none := by
  unfold sectionOf pairs thresholdKey
  cases a.hasSg with
  | false => rfl
  | true =>
    by_cases h : a.sgRange.1 = 0
    · simp only [h, if_true, ne_eq, not_true, and_false, if_false]
      rfl
    · simp only [h, if_true, if_false, ne_eq, not_false_iff, and_self]
      rfl

end AutoTmcContainer

theorem sgRange_cases {tmctype : String} {r : ℤ × ℤ} (h : sgRange tmctype = some r) :
    (tmctype = "tmc2209" ∧ r = (0, 255)) ∨
      (tmctype ∈ ["tmc2130", "tmc2240", "tmc2660", "tmc5160"] ∧ r = (-64, 63)) := by
  unfold sgRange at h
  split_ifs at h with h1 h2
  · exact .inl ⟨h1, (Option.some_inj.mp h).symm⟩
  · exact .inr ⟨h2, (Option.some_inj.mp h).symm⟩

theorem sgRange_sgt {tmctype : String}
    (h : tmctype ∈ ["tmc2130", "tmc2240", "tmc2660", "tmc5160"]) :
    sgRange tmctype = some (-64, 63) := by
  unfold sgRange
  rw [if_neg, if_pos h]
  rintro rfl
  revert h
  decide

theorem hasVirtualEndstop_iff {pin : Option String} {tmctype : String} :
    hasVirtualEndstop pin tmctype = true ↔
      (∃ p, pin = some p ∧ Text.hasSubstr "virtual_endstop" p = true) ∧
        ∃ r, sgRange tmctype = some r := by
  unfold hasVirtualEndstop
  rw [Bool.and_eq_true, Option.isSome_iff_exists]
  cases pin <;> simp

/-- `a` shows the section `s` of the stepper of `key`. -/
structure Loaded (motors : List String) (c : Config) (key : String) (a : AutoTmcContainer)
    (s : Section) : Prop where
  motor : a.motor = selectedStr (notConfigured :: motorNames motors) (motorIdx motors s)
  tuningGoal : a.tuningGoal = selectedStr goals (goalIdx s)
  hasSg : a.hasSg = true ↔
    VirtualEndstop c (afterSpace key) ∧ ∃ r, sgRange (beforeSpace key) = some r
  range : ∀ r, sgRange (beforeSpace key) = some r →
    a.sgRange = r ∧ ∃ v, sgValue s r = some v ∧ a.sensorlessThreshold = max r.1 (min r.2 v)

section
variable {motors : List String} {c : Config} {key : String} {a : AutoTmcContainer} {s : Section}

theorem loaded_of_mem (h : (key, a) ∈ rounds motors c (configJson c) (configuredSteppers c))
    (hs : tuned c (afterSpace key) = some s) : Loaded motors c key a s := by
  obtain ⟨pin, ptr, ha, hptr, hread⟩ := mem_rounds h
  obtain ⟨v, hv, rfl⟩ := container_tuned ha hs
  have hvirtual : (∃ p, pin = some p ∧ Text.hasSubstr "virtual_endstop" p = true) ↔
      VirtualEndstop c (afterSpace key) := by
    constructor
    · rintro ⟨p, hp, hsub⟩
      exact ⟨ptr, p, hptr, (hread p).mp hp, hsub⟩
    · rintro ⟨ptr', p, hptr', hat, hsub⟩
      rw [hptr] at hptr'
      cases hptr'
      exact ⟨p, (hread p).mpr hat, hsub⟩
  refine ⟨rfl, rfl, ?_, fun r hr => ?_⟩
  · rw [← hvirtual]
    exact hasVirtualEndstop_iff
  · rw [hr, Option.getD_some] at hv
    simp only [hr, Option.getD_some]
    exact ⟨rfl, v, hv, rfl⟩

namespace Loaded

theorem threshold_bounds (h : Loaded motors c key a s) (hsg : a.hasSg = true) :
    -64 ≤ a.sensorlessThreshold ∧ a.sensorlessThreshold ≤ 255 := by
  obtain ⟨-, r, hr⟩ := h.hasSg.mp hsg
  obtain ⟨-, v, -, hv⟩ := h.range r hr
  rcases sgRange_cases hr with ⟨-, rfl⟩ | ⟨-, rfl⟩ <;> omega

theorem goal_mem (h : Loaded motors c key a s) : a.tuningGoal ∈ goals := by
  rw [h.tuningGoal]
  exact (selected_goal s).1

theorem written_eq (h : Loaded motors c key a s) (hne : a.motor ≠ notConfigured)
    (hm : Clean a.motor) : a.written = some (some a.sectionOf) := by
  refine written_clean hne hm (clean_goals _ h.goal_mem) fun hsg => ?_
  obtain ⟨hlo, hhi⟩ := h.threshold_bounds hsg
  exact (stoi_toString hlo hhi).2

theorem written_isSome (h : Loaded motors c key a s) : a.written.isSome = true ↔
    a.motor = notConfigured ∨ (splitPairs ("motor:" ++ a.motor)).isSome = true := by
  refine written_isSome_iff (clean_goals _ h.goal_mem) fun hsg => ?_
  obtain ⟨hlo, hhi⟩ := h.threshold_bounds hsg
  exact (stoi_toString hlo hhi).2

theorem stoi_written (h : Loaded motors c key a s) {p : Prop} [Decidable p]
    (hp : p → a.hasSg = true) {n : ℤ} :
    (if p then some (toString a.sensorlessThreshold) else none).bind Double.stoi = some n ↔
      p ∧ a.sensorlessThreshold = n := by
  split_ifs with hon
  · obtain ⟨hlo, hhi⟩ := h.threshold_bounds (hp hon)
    rw [Option.bind_some, (stoi_toString hlo hhi).1, Option.some_inj]
    exact (and_iff_right hon).symm
  · simp [hon]

/-- Only a `tmc2209` with a virtual endstop is written with `sg4_thrs`. -/
theorem threshold_sg4 (h : Loaded motors c key a s) {n : ℤ} :
    threshold a.sectionOf "sg4_thrs" = some n ↔
      (VirtualEndstop c (afterSpace key) ∧ beforeSpace key = "tmc2209") ∧
        a.sensorlessThreshold = n := by
  have hkey : a.hasSg = true ∧ a.sgRange.1 = 0 ↔
      VirtualEndstop c (afterSpace key) ∧ beforeSpace key = "tmc2209" := by
    constructor
    · rintro ⟨hsg, hzero⟩
      obtain ⟨hv, r, hr⟩ := h.hasSg.mp hsg
      rw [(h.range r hr).1] at hzero
      rcases sgRange_cases hr with ⟨htype, -⟩ | ⟨-, rfl⟩
      · exact ⟨hv, htype⟩
      · omega
    · rintro ⟨hv, htype⟩
      have hr : sgRange (beforeSpace key) = some (0, 255) := by rw [htype]; rfl
      refine ⟨h.hasSg.mpr ⟨hv, _, hr⟩, ?_⟩
      rw [(h.range _ hr).1]
  rw [threshold, a.sectionOf_sg4, ← hkey]
  exact h.stoi_written And.left

theorem threshold_sgt (h : Loaded motors c key a s) {n : ℤ} :
    threshold a.sectionOf "sgt" = some n ↔
      (VirtualEndstop c (afterSpace key) ∧
        beforeSpace key ∈ ["tmc2130", "tmc2240", "tmc2660", "tmc5160"]) ∧
          a.sensorlessThreshold = n := by
  have hkey : a.hasSg = true ∧ a.sgRange.1 ≠ 0 ↔ VirtualEndstop c (afterSpace key) ∧
      beforeSpace key ∈ ["tmc2130", "tmc2240", "tmc2660", "tmc5160"] := by
    constructor
    · rintro ⟨hsg, hzero⟩
      obtain ⟨hv, r, hr⟩ := h.hasSg.mp hsg
      rw [(h.range r hr).1] at hzero
      rcases sgRange_cases hr with ⟨-, rfl⟩ | ⟨htype, -⟩
      · exact absurd rfl hzero
      · exact ⟨hv, htype⟩
    · rintro ⟨hv, htype⟩
      have hr := sgRange_sgt htype
      refine ⟨h.hasSg.mpr ⟨hv, _, hr⟩, ?_⟩
      rw [(h.range _ hr).1]
      decide
  rw [threshold, a.sectionOf_sgt, ← hkey]
  exact h.stoi_written And.left

theorem shown_sg4 (h : Loaded motors c key a s) (htype : beforeSpace key = "tmc2209") {n : ℤ}
    (hn : threshold s "sg4_thrs" = some n) (hlo : 0 ≤ n) (hhi : n ≤ 255) :
    a.sensorlessThreshold = n := by
  have hr : sgRange (beforeSpace key) = some (0, 255) := by rw [htype]; rfl
  obtain ⟨-, v, hv, ha⟩ := h.range _ hr
  obtain ⟨text, htext, hstoi⟩ := Option.bind_eq_some_iff.mp hn
  rw [sgValue, htext] at hv
  obtain ⟨m, hm, hmod⟩ := Option.map_eq_some_iff.mp hv
  rw [hstoi] at hm
  cases hm
  have hmod : n.bmod (2 ^ 16) = n := Int.bmod_eq_of_le (by omega) (by omega)
  omega

theorem shown_sgt (h : Loaded motors c key a s)
    (htype : beforeSpace key ∈ ["tmc2130", "tmc2240", "tmc2660", "tmc5160"]) :
    a.sensorlessThreshold = shownSgt s := by
  obtain ⟨-, v, hv, ha⟩ := h.range _ (sgRange_sgt htype)
  rw [ha, shownSgt, hv]
  rfl

/-- What is written keeps the section exactly where it is restorable. -/
theorem same_iff (h : Loaded motors c key a s) (tmctype : String) {w : Option Section}
    (hw : a.written = some w) :
    (∃ t, w = some t ∧ Same tmctype s t) ↔ Restorable motors c tmctype key s := by
  constructor
  · rintro ⟨t, rfl, hsame⟩
    have hne : a.motor ≠ notConfigured := by
      intro he
      rw [AutoTmcContainer.written, if_pos he] at hw
      cases hw
    obtain ⟨m, hm, hmem⟩ : ∃ m, s.lookup "motor" = some m ∧ m ∈ motorNames motors := by
      by_contra hnone
      apply hne
      rw [h.motor]
      exact selected_missing fun m hm hmem => hnone ⟨m, hm, hmem⟩
    have hcut : a.motor = cut m := by
      rw [h.motor]
      exact selected_motor hm hmem
    -- the motor is one of the values the helper split off
    have hclean : Clean m := by
      rw [AutoTmcContainer.written, if_neg hne] at hw
      obtain ⟨pairs, hpairs, ht⟩ := Option.map_eq_some_iff.mp hw
      cases ht
      rcases lookup_foldl_insert (hsame.motor.trans hm) with hempty | ⟨kv, hkv, rfl⟩
      · cases hempty
      · exact lacks_of_splitPairs hpairs kv hkv
    have hshort : Clean a.motor := by
      unfold Clean Text.Lacks
      rw [hcut, cut, String.toList_ofList]
      exact ⟨fun hc => hclean.1 (List.mem_of_mem_take hc),
        fun hc => hclean.2 (List.mem_of_mem_take hc)⟩
    rw [h.written_eq hne hshort] at hw
    cases hw
    have hmotor : a.motor = m := by
      have heq := hsame.motor
      rw [a.sectionOf_motor, hm] at heq
      exact Option.some_inj.mp heq
    refine ⟨⟨m, hm, hmem, hmotor ▸ hne, ?_, hclean⟩, ?_, fun n hn hr => ?_, fun n hn hr => ?_⟩
    · have hlen := congrArg String.length (hcut.symm.trans hmotor)
      rw [cut, String.length_ofList, List.length_take] at hlen
      omega
    · rw [← hsame.goal, a.sectionOf_goal]
      exact h.goal_mem
    · have hnew := hsame.threshold "sg4_thrs" (by simp) n hn hr
      obtain ⟨⟨hv, htype⟩, hthr⟩ := h.threshold_sg4.mp hnew
      obtain ⟨-, v, -, ha⟩ := h.range (0, 255) (by rw [htype]; rfl)
      exact ⟨hv, htype, by omega, by omega⟩
    · have hnew := hsame.threshold "sgt" (by simp) n hn hr
      obtain ⟨⟨hv, htype⟩, hthr⟩ := h.threshold_sgt.mp hnew
      exact ⟨hv, htype, hthr ▸ h.shown_sgt htype⟩
  · rintro ⟨⟨m, hm, hmem, hne, hlen, hclean⟩, hgoal, hsg4, hsgt⟩
    have hmotor : a.motor = m := by
      rw [h.motor, selected_motor hm hmem, cut,
        List.take_of_length_le (by rwa [String.length_toList]), String.ofList_toList]
    rw [h.written_eq (hmotor ▸ hne) (hmotor ▸ hclean)] at hw
    cases hw
    refine ⟨a.sectionOf, rfl, ?_, ?_, fun k hk n hn hr => ?_⟩
    · rw [a.sectionOf_motor, hmotor, hm]
    · rw [a.sectionOf_goal, h.tuningGoal]
      exact (selected_goal s).2 hgoal
    · rcases List.mem_cons.mp hk with rfl | hk
      · obtain ⟨hv, htype, hlo, hhi⟩ := hsg4 n hn hr
        exact h.threshold_sg4.mpr ⟨⟨hv, htype⟩, h.shown_sg4 htype hn hlo hhi⟩
      · cases List.mem_singleton.mp hk
        obtain ⟨hv, htype, heq⟩ := hsgt n hn hr
        exact h.threshold_sgt.mpr ⟨⟨hv, htype⟩, heq ▸ h.shown_sgt htype⟩

end Loaded
end

/-! ### Save after init -/

/-- The helper takes the line written from the section `s`: the text of its motor,
where it is one of the list, leaves the pairs whole. -/
def Taken (motors : List String) (s : Section) : Prop :=
  ∀ m, s.lookup "motor" = some m → m ∈ motorNames motors →
    cut m = notConfigured ∨ (splitPairs ("motor:" ++ cut m)).isSome = true

/-- Save goes through: it is enabled and no line is refused. -/
def Saves (motors : List String) (helper : Bool) (c : Config) : Prop :=
  ("guppy_module_loader" ∈ c ∧ helper = true) ∧
    ∀ key ∈ reached motors c, ∀ s, tuned c (afterSpace key) = some s → Taken motors s

section
variable {motors : List String} {helper : Bool} {c : Config} {key : String}

theorem taken_iff {a : AutoTmcContainer}
    (h : (key, a) ∈ rounds motors c (configJson c) (configuredSteppers c)) :
    a.written.isSome = true ↔ ∀ s, tuned c (afterSpace key) = some s → Taken motors s := by
  cases hs : tuned c (afterSpace key) with
  | none =>
    obtain ⟨pin, ptr, ha, -, -⟩ := mem_rounds h
    simp only [container, hs] at ha
    cases ha
    have hm : selectedStr (notConfigured :: motorNames motors) 0 = notConfigured :=
      selectedStr_short rfl (by decide)
    simp [AutoTmcContainer.written, AutoTmcContainer.new, hm]
  | some s =>
    have hloaded := loaded_of_mem h hs
    rw [hloaded.written_isSome, hloaded.motor]
    constructor
    · rintro htaken _ ⟨⟩ m hm hmem
      rwa [selected_motor hm hmem] at htaken
    · intro htaken
      by_cases hm : ∃ m, s.lookup "motor" = some m ∧ m ∈ motorNames motors
      · obtain ⟨m, hm, hmem⟩ := hm
        rw [selected_motor hm hmem]
        exact htaken s rfl m hm hmem
      · exact .inl (selected_missing fun m hm' hmem => hm ⟨m, hm', hmem⟩)

theorem saves_iff : Saves motors helper c ↔
    ("guppy_module_loader" ∈ c ∧ helper = true) ∧ ∀ a ∈ init motors c, a.written.isSome = true := by
  refine and_congr_right fun _ => ?_
  simp only [reached, init, List.forall_mem_map]
  exact forall₂_congr fun r hr => (taken_iff hr).symm

theorem afterSave_saves (h : Saves motors helper c) :
    Edited (init motors c) c (afterSave motors helper c) := by
  obtain ⟨hon, hwritten⟩ := saves_iff.mp h
  obtain ⟨d, hrun, hedit⟩ := runScript_edits hwritten ⟨c, c⟩
  have hsaved : afterSave motors helper c = d := by
    rw [afterSave, if_pos hon]
    change (runScript ⟨c, c⟩ ((init motors c).map (·.getConfigMacro) ++ [.saveConfig])).saved = d
    rw [hrun]
  rw [hsaved]
  exact hedit

theorem afterSave_same (h : ¬ Saves motors helper c) : afterSave motors helper c = c := by
  unfold afterSave
  split_ifs with hon
  · have hrefused : ∃ a ∈ init motors c, a.written = none := by
      by_contra hnone
      refine h (saves_iff.mpr ⟨hon, fun a ha => ?_⟩)
      rw [← Option.ne_none_iff_isSome]
      exact fun hw => hnone ⟨a, ha, hw⟩
    exact runScript_refused hrefused ⟨c, c⟩
  · rfl

end

theorem exists_last {α : Type} {p : α → Prop} {l : List α} (h : ∃ x ∈ l, p x) :
    ∃ pre x post, l = pre ++ x :: post ∧ p x ∧ ∀ y ∈ post, ¬ p y := by
  induction l with
  | nil =>
    obtain ⟨x, hx, -⟩ := h
    cases hx
  | cons y l ih =>
    by_cases hl : ∃ x ∈ l, p x
    · obtain ⟨pre, x, post, rfl, hx, hpost⟩ := ih hl
      exact ⟨y :: pre, x, post, rfl, hx, hpost⟩
    · obtain ⟨x, hx, hpx⟩ := h
      rcases List.mem_cons.mp hx with rfl | hx
      · exact ⟨[], x, l, rfl, hpx, fun z hz hp => hl ⟨z, hz, hp⟩⟩
      · exact absurd ⟨x, hx, hpx⟩ hl

/-- `last` is the last one `init` gets to of the steppers with the name of `key`. -/
def WrittenBy (motors : List String) (c : Config) (key last : String) : Prop :=
  ∃ pre post, reached motors c = pre ++ last :: post ∧ afterSpace last = afterSpace key ∧
    ∀ k ∈ post, afterSpace k ≠ afterSpace key

/-- Every section of a configured stepper is there and has what it had. -/
def Preserved (c d : Config) : Prop :=
  ∀ key ∈ configuredSteppers c, ∀ s, tuned c (afterSpace key) = some s →
    ∃ t, tuned d (afterSpace key) = some t ∧ Same (beforeSpace key) s t

theorem Preserved.refl (c : Config) : Preserved c c := fun _ _ s hs =>
  ⟨s, hs, rfl, rfl, fun _ _ _ hn _ => hn⟩

theorem name_of_mem {motors : List String} {c : Config} {r : String × AutoTmcContainer}
    (h : r ∈ rounds motors c (configJson c) (configuredSteppers c)) :
      r.2.name = afterSpace r.1 := by
  obtain ⟨pin, ptr, ha, -, -⟩ := mem_rounds h
  exact container_name ha

section
variable {motors : List String} {helper : Bool} {c : Config} {key : String}

theorem tuned_unreached (h : Saves motors helper c)
    (hkey : ∀ k ∈ reached motors c, afterSpace k ≠ afterSpace key) :
    tuned (afterSave motors helper c) (afterSpace key) = tuned c (afterSpace key) := by
  refine (afterSave_saves h).same _ fun a ha he => ?_
  obtain ⟨r, hr, rfl⟩ := List.mem_map.mp ha
  refine hkey r.1 (List.mem_map_of_mem hr) ?_
  rw [← name_of_mem hr]
  exact sectionName_inj he

theorem tuned_written (h : Saves motors helper c) {last : String} (hl : WrittenBy motors c key last)
    {s : Section} (hs : tuned c (afterSpace key) = some s) : ∃ a, Loaded motors c last a s ∧
      a.written = some (tuned (afterSave motors helper c) (afterSpace key)) := by
  obtain ⟨pre, post, hsplit, hname, hpost⟩ := hl
  obtain ⟨before, rest, hrounds, -, hrest⟩ := List.map_eq_append_iff.mp hsplit
  obtain ⟨r, after, rfl, rfl, rfl⟩ := List.map_eq_cons_iff.mp hrest
  have hmem : ∀ x ∈ r :: after, x ∈ rounds motors c (configJson c) (configuredSteppers c) := by
    intro x hx
    rw [hrounds]
    exact List.mem_append_right before hx
  have hr := hmem r (List.mem_cons_self ..)
  have hlast : ∀ b ∈ after.map (·.2), b.name ≠ r.2.name := by
    intro b hb
    obtain ⟨x, hx, rfl⟩ := List.mem_map.mp hb
    rw [name_of_mem (hmem x (List.mem_cons_of_mem r hx)), name_of_mem hr, hname]
    exact hpost x.1 (List.mem_map_of_mem hx)
  have hinit : init motors c = before.map (·.2) ++ r.2 :: after.map (·.2) := by
    rw [init, hrounds, List.map_append, List.map_cons]
  have hwritten := (afterSave_saves h).last _ _ _ hinit hlast
  rw [name_of_mem hr, hname] at hwritten
  exact ⟨r.2, loaded_of_mem hr (hname ▸ hs), hwritten⟩

end

/-- Init and Save keep every section exactly where the save does not go through, or
where each section is restorable by the stepper that writes it last. -/
theorem afterSave_preserved_iff (motors : List String) (helper : Bool) (c : Config) :
    Preserved c (afterSave motors helper c) ↔
      (Saves motors helper c → ∀ key ∈ configuredSteppers c, ∀ s,
        tuned c (afterSpace key) = some s →
        ∀ last, WrittenBy motors c key last → Restorable motors c (beforeSpace key) last s) := by
  constructor
  · intro h hsaves key hkey s hs last hlast
    obtain ⟨a, hloaded, hw⟩ := tuned_written hsaves hlast hs
    exact (hloaded.same_iff (beforeSpace key) hw).mp (h key hkey s hs)
  · intro h
    by_cases hsaves : Saves motors helper c
    · intro key hkey s hs
      by_cases hreached : ∃ k ∈ reached motors c, afterSpace k = afterSpace key
      · obtain ⟨pre, last, post, hsplit, hname, hpost⟩ := exists_last hreached
        have hlast : WrittenBy motors c key last := ⟨pre, post, hsplit, hname, hpost⟩
        obtain ⟨a, hloaded, hw⟩ := tuned_written hsaves hlast hs
        exact (hloaded.same_iff (beforeSpace key) hw).mpr (h hsaves key hkey s hs last hlast)
      · rw [tuned_unreached hsaves fun k hk he => hreached ⟨k, hk, he⟩]
        exact Preserved.refl c key hkey s hs
    · rw [afterSave_same hsaves]
      exact Preserved.refl c

/-- A `tmc5160` that homes by stallguard, tuned for it. -/
def sensorless : Config :=
  List.toAList
    [⟨"autotune_tmc stepper_x", List.toAList [⟨"motor", "ldo-42sth48-2004mah"⟩, ⟨"sgt", "10"⟩]⟩,
      ⟨"guppy_module_loader", ∅⟩,
      ⟨"stepper_x", List.toAList [⟨"endstop_pin", "tmc5160_stepper_x:virtual_endstop"⟩]⟩,
      ⟨"tmc5160 stepper_x", ∅⟩]

/-- Its threshold is not read: 1, the default, is written in its place. -/
theorem sensorless_threshold_lost :
    let d := afterSave ["motor_constants ldo-42sth48-2004mah"] true sensorless
    (tuned sensorless "stepper_x").bind (threshold · "sgt") = some 10 ∧
      (tuned d "stepper_x").bind (·.lookup "motor") = some "ldo-42sth48-2004mah" ∧
      (tuned d "stepper_x").bind (threshold · "sgt") = some 1 ∧ ¬ Preserved sensorless d := by
  have hnew : (tuned (afterSave ["motor_constants ldo-42sth48-2004mah"] true sensorless)
      "stepper_x").bind (threshold · "sgt") = some 1 := by decide +kernel
  refine ⟨by decide +kernel, by decide +kernel, hnew, fun h => ?_⟩
  obtain ⟨t, ht, hsame⟩ := h "tmc5160 stepper_x" (by decide +kernel) _ rfl
  have hkept := hsame.threshold "sgt" (by decide) 10 (by decide +kernel)
    ⟨(-64, 63), by decide, by decide, by decide⟩
  have hname : afterSpace "tmc5160 stepper_x" = "stepper_x" := by decide +kernel
  rw [hname] at ht
  rw [ht, Option.bind_some, hkept] at hnew
  cases hnew

end GuppyScreen.TmcTune
