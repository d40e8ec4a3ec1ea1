import GuppyScreen.Lib.Run
import GuppyScreen.Lib.Text
import GuppyScreen.State
import Mathlib.Data.List.Destutter

/-!
# The console's suggestions (console_panel.cpp)

`macro_list` shows the history and the macros. A reply to `printer.gcode.help` adds
macros and reads the stored history, an edit of the input filters the table, and a
command entered goes to the front of the history. Only the filter sets the row count.
-/

namespace GuppyScreen.Console
open Lib

/-- The calls on a table of one column. -/
structure LvList where
  Obj : Type
  rows : Obj → List String
  setCellValue : ℕ → String → Obj → Obj
  setRowCnt : ℕ → Obj → Obj

namespace LvList

/-- What is assumed of LVGL, whose row numbers are `uint16_t`. -/
structure Documented (lv : LvList) : Prop where
  rowCnt_lt : ∀ o, (lv.rows o).length < 2 ^ 16
  rows_set : ∀ o r x, r < (lv.rows o).length → lv.rows (lv.setCellValue r x o) = (lv.rows o).set r x
  rows_append : ∀ o r x, r = (lv.rows o).length → r + 1 < 2 ^ 16 →
    lv.rows (lv.setCellValue r x o) = lv.rows o ++ [x]
  rows_setRowCnt : ∀ o n, n ≤ (lv.rows o).length → lv.rows (lv.setRowCnt n o) = (lv.rows o).take n

/-- The loops `set_cell_value(index++, 0, x)`. -/
def writeFrom (lv : LvList) : ℕ → List String → lv.Obj → lv.Obj
  | _, [], o => o
  | index, x :: xs, o => lv.writeFrom (index + 1) xs (lv.setCellValue (index % 2 ^ 16) x o)

end LvList

namespace LvList

/-- The rows, fewer than the row count has values. -/
abbrev Short := { l : List String // l.length < 2 ^ 16 }

def Short.put (o : Short) (r : ℕ) (x : String) : Short :=
  if hr : r < o.val.length then ⟨o.val.set r x, by simpa using o.property⟩
  else if hlast : o.val.length + 1 < 2 ^ 16 then ⟨o.val ++ [x], by simpa using hlast⟩
  else o

theorem Short.put_below {o : Short} {r : ℕ} (hr : r < o.val.length) (x : String) :
    (o.put r x).val = o.val.set r x := by
  rw [Short.put, dif_pos hr]

theorem Short.put_last {o : Short} {r : ℕ} (hr : r = o.val.length) (hlt : r + 1 < 2 ^ 16)
    (x : String) : (o.put r x).val = o.val ++ [x] := by
  rw [Short.put, dif_neg (by omega), dif_pos (by omega)]

def plain : LvList where
  Obj := Short
  rows o := o.val
  setCellValue r x o := o.put r x
  setRowCnt n o := ⟨o.val.take n, lt_of_le_of_lt (List.length_take_le' n _) o.property⟩

theorem documented_plain : plain.Documented where
  rowCnt_lt o := o.property
  rows_set _ _ x hr := Short.put_below hr x
  rows_append _ _ x hr hlt := Short.put_last hr hlt x
  rows_setRowCnt _ _ _ := rfl

end LvList

/-- Beside the text shown in `output`. -/
inductive Sent where
  | script (cmd : String)
  | postItem (history : List String)
  deriving DecidableEq

structure Panel (lv : LvList) where
  allMacros : List String := []
  history : List String := []
  input : String := ""
  macroList : lv.Obj
  sent : List Sent := []

namespace Panel

section
variable {lv : LvList}

def listed (p : Panel lv) : List String := p.history ++ p.allMacros

def fill (p : Panel lv) : Panel lv := { p with macroList := lv.writeFrom 0 p.listed p.macroList }

def suggests (cmd m : String) : Bool := Text.startsWith cmd.toUpper m || Text.startsWith cmd m

/-- `LV_EVENT_VALUE_CHANGED` of the input. -/
def filter (p : Panel lv) : Panel lv :=
  if ' ' ∈ p.input.toList then p
  else if p.allMacros = [] ∧ p.history = [] then p
  else
    let shown := p.listed.filter (suggests p.input)
    { p with macroList := lv.setRowCnt (shown.length % 2 ^ 16) (lv.writeFrom 0 shown p.macroList) }

/-- `lv_textarea_set_text`; `notifies` says whether LVGL sends the event itself. -/
def setText (notifies : Bool) (text : String) (p : Panel lv) : Panel lv :=
  if notifies then { p with input := text }.filter else { p with input := text }

def send (m : Sent) (p : Panel lv) : Panel lv := { p with sent := p.sent ++ [m] }

def maxHistory : ℕ := 20

def record (cmd : String) (p : Panel lv) : Panel lv :=
  match p.history with
  | [] => p
  | front :: rest =>
    if front = cmd then p
    else
      let kept := if maxHistory ≤ (front :: rest).length then (front :: rest).dropLast
        else front :: rest
      { p with history := cmd :: kept }.send (.postItem (cmd :: kept))

/-- `LV_EVENT_READY` of the input. -/
def ready (notifies : Bool) (p : Panel lv) : Panel lv :=
  if p.input = "" then p
  else (((p.send (.script p.input)).record p.input).setText notifies "").fill

def handleSelectMacro (notifies : Bool) (row : ℕ) (p : Panel lv) : Panel lv :=
  match (lv.rows p.macroList)[row]? with
  | none => p
  | some macro' => p.setText notifies macro'

end

/-- What `/console/commandHistory` is to `get<std::list<std::string>>`. -/
inductive Stored where
  | missing
  | malformed
  | commands (l : List String)
  deriving DecidableEq

def stored (s : State) : Stored :=
  match s.getData ["console", "commandHistory"] with
  | .null => .missing
  | .arr l =>
    match l.toList.mapM Json.str? with
    | some l => .commands l
    | none => .malformed
  | _ => .malformed

/-- The keys `m.items()` goes through. -/
def items : Json → List String
  | .null => []
  | .obj fs => fs.keys
  | .arr l => (List.range l.toList.length).map toString
  | _ => [""]

/-- The macros of a reply, `none` without a result. -/
def replied (j : Json) : Option (List String) := (j.get? "result").map items

-- A stored history that is no list of strings throws, and nothing after it runs.
def handleMacros {lv : LvList} (s : State) (j : Json) (p : Panel lv) : Panel lv :=
  match stored s with
  | .malformed => p
  | .missing => { p with allMacros := p.allMacros ++ (replied j).getD [] }.fill
  | .commands l => { p with history := l, allMacros := p.allMacros ++ (replied j).getD [] }.fill

end Panel

/-! ### Runs -/

/-- The replies are JSON as it is parsed, with every key once. -/
inductive Event where
  | help (s : State) (reply : { j : Json // j.Wf })
  | edit (text : String)
  | select (row : ℕ)
  | clear
  | enter

/-- A panel with the macros of the latest reply and the commands entered, newest first,
in front of the history loaded last. -/
structure Session (lv : LvList) where
  panel : Panel lv
  macros : List String := []
  commands : List String := []

namespace Session
variable {lv : LvList}

def step (notifies : Bool) (s : Session lv) : Event → Session lv
  | .help state reply =>
    { panel := s.panel.handleMacros state reply.val
      macros := (Panel.replied reply.val).getD s.macros
      commands := match Panel.stored state with
        | .commands l => l
        | _ => s.commands }
  | .edit text => { s with panel := { s.panel with input := text }.filter }
  | .select row => { s with panel := s.panel.handleSelectMacro notifies row }
  | .clear => { s with panel := s.panel.setText notifies "" }
  | .enter =>
    { s with
      panel := s.panel.ready notifies
      commands := if s.panel.input = "" then s.commands else s.panel.input :: s.commands }

/-- Each of `wanted` is in the list once, and nothing else is. -/
def Once (l wanted : List String) : Prop := ∀ m, l.count m = if m ∈ wanted then 1 else 0

/-- Immediate repeats collapsed, at most 20. -/
def recent (commands : List String) : List String :=
  (commands.destutter (· ≠ ·)).take Panel.maxHistory

structure Inv (s : Session lv) : Prop where
  macros : Once s.panel.allMacros s.macros
  history : s.panel.history = recent s.commands

def Entered (s : Session lv) : Event → Prop
  | .enter => s.panel.input ≠ ""
  | _ => False

/-- After the step the lists are as they should be, and the table is after a command. -/
def Reflects (notifies : Bool) (s : Session lv) (e : Event) : Prop :=
  (s.step notifies e).Inv ∧
    (s.Entered e → lv.rows (s.step notifies e).panel.macroList = (s.step notifies e).panel.listed)

/-- The entries there are once the input is recorded. -/
def suggestions (s : Session lv) : ℕ :=
  min Panel.maxHistory
      (s.panel.history.length + if s.panel.history.head? = some s.panel.input then 0 else 1) +
    s.panel.allMacros.length

/-- A reply comes to an empty list of macros and loads a clean history; a command is
entered with a history, and the table is cut or was short enough. -/
def Sound (notifies : Bool) (s : Session lv) : Event → Prop
  | .help state reply =>
    match Panel.stored state with
    | .malformed => ∀ ms ∈ Panel.replied reply.val, Once s.panel.allMacros ms
    | .missing => Panel.replied reply.val ≠ none → s.panel.allMacros = []
    | .commands l =>
      (l.IsChain (· ≠ ·) ∧ l.length ≤ Panel.maxHistory) ∧
        (Panel.replied reply.val ≠ none → s.panel.allMacros = [])
  | .enter => s.panel.input ≠ "" → s.panel.history ≠ [] ∧ s.suggestions < 2 ^ 16 ∧
      (notifies = true ∨ (lv.rows s.panel.macroList).length ≤ s.suggestions)
  | _ => True

end Session

/-! ### The history -/

theorem head?_destutter' (c : String) (l : List String) :
    (l.destutter' (· ≠ ·) c).head? = some c := by
  induction l generalizing c with
  | nil => rfl
  | cons d l ih =>
    rw [List.destutter'_cons]
    split_ifs
    · rfl
    · exact ih c

theorem destutter_cons (c : String) (l : List String) :
    (c :: l).destutter (· ≠ ·) =
      if l.head? = some c then l.destutter (· ≠ ·) else c :: l.destutter (· ≠ ·) := by
  cases l with
  | nil => rfl
  | cons d l =>
    rw [List.destutter_cons_cons, List.destutter_cons', List.head?_cons]
    by_cases h : d = c
    · rw [if_neg (not_not.mpr h.symm), if_pos (congrArg some h), h]
    · rw [if_pos (Ne.symm h), if_neg fun he => h (Option.some.inj he)]

namespace Session

theorem head?_recent (l : List String) : (recent l).head? = l.head? := by
  cases l with
  | nil => rfl
  | cons c l =>
    have hhead := head?_destutter' c l
    rw [recent, List.destutter_cons']
    cases hd : l.destutter' (· ≠ ·) c with
    | nil =>
      rw [hd] at hhead
      cases hhead
    | cons d ds =>
      rw [hd] at hhead
      exact hhead

theorem recent_ne_nil {l : List String} : recent l ≠ [] ↔ l ≠ [] := by
  have hhead := head?_recent l
  cases l with
  | nil => simp [recent]
  | cons c l =>
    refine iff_of_true ?_ (List.cons_ne_nil c l)
    intro hnil
    rw [hnil] at hhead
    cases hhead

theorem recent_cons (c : String) (l : List String) :
    recent (c :: l) =
      if l.head? = some c then recent l else c :: (l.destutter (· ≠ ·)).take 19 := by
  rw [recent, destutter_cons]
  split_ifs
  · rfl
  · rfl

end Session

theorem Panel.history_record {lv : LvList} {p : Panel lv} {commands : List String}
    (h : p.history = Session.recent commands) (hne : p.history ≠ []) (c : String) :
    (p.record c).history = Session.recent (c :: commands) := by
  have hhead := Session.head?_recent commands
  rw [← h] at hhead
  rw [Session.recent_cons, ← hhead]
  unfold record
  cases hp : p.history with
  | nil => exact absurd hp hne
  | cons front rest =>
    rw [hp] at h
    simp only [List.head?_cons, Option.some.injEq]
    by_cases hc : front = c
    · rw [if_pos hc, if_pos hc, ← h]
      exact hp
    · rw [if_neg hc, if_neg hc]
      show c :: _ = c :: _
      congr 1
      rw [h, Session.recent]
      split_ifs with hlen
      · rw [List.dropLast_eq_take, List.take_take, List.length_take]
        rw [List.length_take] at hlen
        congr 1
        simp only [maxHistory] at hlen ⊢
        omega
      · rw [List.length_take] at hlen
        simp only [maxHistory] at hlen ⊢
        rw [List.take_of_length_le (by omega), List.take_of_length_le (by omega)]

namespace Panel
variable {lv : LvList}

/-- What `ready` leaves to be shown. -/
def entered (p : Panel lv) : Panel lv := (p.send (.script p.input)).record p.input

theorem history_entered {p : Panel lv} {commands : List String}
    (h : p.history = Session.recent commands) (hne : p.history ≠ []) :
    p.entered.history = Session.recent (p.input :: commands) :=
  history_record (p := p.send (.script p.input)) h hne p.input

end Panel

/-! ### The table -/

namespace LvList
variable {lv : LvList}

theorem rows_writeFrom (hlv : lv.Documented) (xs : List String) {k : ℕ} {o : lv.Obj}
    (hlt : k + xs.length < 2 ^ 16) (hk : k ≤ (lv.rows o).length) :
    lv.rows (lv.writeFrom k xs o) =
      (lv.rows o).take k ++ xs ++ (lv.rows o).drop (k + xs.length) := by
  induction xs generalizing k o with
  | nil => simp [writeFrom]
  | cons x xs ih =>
    rw [List.length_cons] at hlt
    have hmod : k % 2 ^ 16 = k := Nat.mod_eq_of_lt (by omega)
    have hend : k + 1 + xs.length = k + (x :: xs).length := by
      rw [List.length_cons]
      omega
    rw [writeFrom, hmod]
    by_cases hlast : k = (lv.rows o).length
    · have hset := hlv.rows_append o k x hlast (by omega)
      rw [ih (by omega) (by rw [hset, List.length_append, List.length_singleton]; omega),
        hset, hend]
      rw [List.take_of_length_le (by rw [List.length_append, List.length_singleton]; omega),
        List.take_of_length_le hlast.ge, List.drop_eq_nil_of_le (by simp; omega),
        List.drop_eq_nil_of_le (by simp; omega)]
      simp
    · have hset := hlv.rows_set o k x (by omega)
      rw [ih (by omega) (by rw [hset, List.length_set]; omega), hset, hend, List.take_add_one,
        List.take_set_of_le (Nat.le_refl k), List.getElem?_set_self (by omega),
        List.drop_set_of_lt (by simp)]
      simp

theorem rows_write (hlv : lv.Documented) {xs : List String} (hlt : xs.length < 2 ^ 16)
    (o : lv.Obj) :
    lv.rows (lv.writeFrom 0 xs o) = xs ++ (lv.rows o).drop xs.length := by
  rw [rows_writeFrom hlv xs (by omega) (Nat.zero_le _), Nat.zero_add]
  rfl

end LvList

namespace Panel
variable {lv : LvList}

@[simp] theorem suggests_empty (m : String) : suggests "" m = true := by
  simp [suggests, Text.startsWith]

theorem filter_lists (p : Panel lv) :
    p.filter.history = p.history ∧ p.filter.allMacros = p.allMacros := by
  unfold filter
  split_ifs <;> exact ⟨rfl, rfl⟩

theorem setText_lists (notifies : Bool) (text : String) (p : Panel lv) :
    (p.setText notifies text).history = p.history ∧
      (p.setText notifies text).allMacros = p.allMacros := by
  unfold setText
  split_ifs
  · exact filter_lists _
  · exact ⟨rfl, rfl⟩

theorem listed_setText (notifies : Bool) (text : String) (p : Panel lv) :
    (p.setText notifies text).listed = p.listed := by
  obtain ⟨hh, hm⟩ := setText_lists notifies text p
  rw [listed, hh, hm]
  rfl

theorem record_lists (cmd : String) (p : Panel lv) :
    (p.record cmd).allMacros = p.allMacros ∧ (p.record cmd).macroList = p.macroList := by
  unfold record
  cases p.history with
  | nil => exact ⟨rfl, rfl⟩
  | cons front rest =>
    dsimp only
    split_ifs <;> exact ⟨rfl, rfl⟩

theorem rows_setText_empty (hlv : lv.Documented) {p : Panel lv} (hne : p.history ≠ [])
    (hlt : p.listed.length < 2 ^ 16) :
    lv.rows (p.setText true "").macroList = p.listed := by
  have hall : p.listed.filter (suggests "") = p.listed := by
    apply List.filter_eq_self.mpr
    simp
  have hblank : ¬ ' ' ∈ ("" : String).toList := by simp
  show lv.rows (filter { p with input := "" }).macroList = p.listed
  rw [filter, if_neg hblank, if_neg fun h => hne h.2]
  show lv.rows (lv.setRowCnt ((p.listed.filter (suggests "")).length % 2 ^ 16)
    (lv.writeFrom 0 (p.listed.filter (suggests "")) p.macroList)) = p.listed
  have hwritten := LvList.rows_write hlv hlt p.macroList
  rw [hall, Nat.mod_eq_of_lt hlt, hlv.rows_setRowCnt _ _ (by rw [hwritten]; simp), hwritten]
  simp

theorem rows_fill (hlv : lv.Documented) {p : Panel lv} (hlt : p.listed.length < 2 ^ 16) :
    lv.rows p.fill.macroList = p.listed ++ (lv.rows p.macroList).drop p.listed.length :=
  LvList.rows_write hlv hlt p.macroList

theorem entered_lists (p : Panel lv) :
    p.entered.allMacros = p.allMacros ∧ p.entered.macroList = p.macroList :=
  record_lists p.input (p.send (.script p.input))

/-- The table after a command, of a panel that has recorded it. -/
theorem rows_cleared_iff (hlv : lv.Documented) (notifies : Bool) {p : Panel lv}
    (hne : p.history ≠ []) :
    lv.rows (p.setText notifies "").fill.macroList = p.listed ↔
      p.listed.length < 2 ^ 16 ∧
        (notifies = true ∨ (lv.rows p.macroList).length ≤ p.listed.length) := by
  constructor
  · intro hrows
    have hlt : p.listed.length < 2 ^ 16 := by
      rw [← hrows]
      exact hlv.rowCnt_lt _
    refine ⟨hlt, ?_⟩
    cases notifies with
    | true => exact .inl rfl
    | false =>
      right
      rw [rows_fill hlv (by rw [listed_setText]; exact hlt), listed_setText] at hrows
      exact List.drop_eq_nil_iff.mp (List.append_right_eq_self.mp hrows)
  · intro hcond
    obtain ⟨hlt, hcut⟩ := hcond
    rw [rows_fill hlv (by rw [listed_setText]; exact hlt), listed_setText]
    apply List.append_right_eq_self.mpr
    cases notifies with
    | true =>
      rw [rows_setText_empty hlv hne hlt]
      exact List.drop_length
    | false =>
      rcases hcut with hn | hle
      · cases hn
      · exact List.drop_eq_nil_of_le hle

end Panel

/-! ### One step -/

theorem Fields.nodup_keys {fs : Fields} (h : fs.Sorted) : fs.keys.Nodup := by
  induction fs using Fields.spine with
  | nil => exact List.nodup_nil
  | cons k v r ih => exact List.nodup_cons.mpr ⟨fun hmem => lt_irrefl k (h.1 k hmem), ih h.2⟩

theorem nodup_items {j : Json} (h : j.Wf) : (Panel.items j).Nodup := by
  cases j with
  | obj fs => exact Fields.nodup_keys h.1
  | arr l =>
    apply List.Nodup.map
    · intro n m heq
      exact Text.toString_inj heq
    · exact List.nodup_range
  | null => exact List.nodup_nil
  | _ => exact List.nodup_singleton ""

namespace Session
variable {lv : LvList}

theorem once_append_iff {l ks : List String} (hks : ks.Nodup) : Once (l ++ ks) ks ↔ l = [] := by
  constructor
  · intro h
    apply List.eq_nil_iff_forall_not_mem.mpr
    intro m hm
    have hpos := List.count_pos_iff.mpr hm
    have hcount := h m
    rw [List.count_append, hks.count] at hcount
    omega
  · intro h m
    rw [h, List.nil_append, hks.count]

theorem once_replied (p : Panel lv) {macros : List String} (h : Once p.allMacros macros)
    (reply : { j : Json // j.Wf }) :
    Once (p.allMacros ++ (Panel.replied reply.val).getD [])
      ((Panel.replied reply.val).getD macros) ↔
      (Panel.replied reply.val ≠ none → p.allMacros = []) := by
  cases hr : reply.val.get? "result" with
  | none => simpa [Panel.replied, hr] using h
  | some result =>
    have hnodup := nodup_items (Json.wf_get? reply.property hr)
    simpa [Panel.replied, hr] using once_append_iff hnodup

theorem recent_eq_self_iff (l : List String) :
    l = recent l ↔ l.IsChain (· ≠ ·) ∧ l.length ≤ Panel.maxHistory := by
  constructor
  · intro h
    have hchain : (recent l).IsChain (· ≠ ·) :=
      (List.isChain_destutter (· ≠ ·) l).take _
    have hlen : (recent l).length ≤ Panel.maxHistory := List.length_take_le _ _
    rw [← h] at hchain hlen
    exact ⟨hchain, hlen⟩
  · intro h
    rw [recent, List.destutter_of_isChain _ _ h.1, List.take_of_length_le h.2]

theorem length_recent_cons (c : String) (commands : List String) :
    (recent (c :: commands)).length =
      min Panel.maxHistory
        ((recent commands).length + if (recent commands).head? = some c then 0 else 1) := by
  have hlen : (recent commands).length = min 20 (commands.destutter (· ≠ ·)).length :=
    List.length_take ..
  rw [recent_cons, head?_recent]
  split_ifs
  · rw [hlen, Panel.maxHistory]
    omega
  · rw [List.length_cons, List.length_take, hlen, Panel.maxHistory]
    omega

theorem inv_of_lists {s : Session lv} (hs : s.Inv) {p : Panel lv}
    (h : p.history = s.panel.history ∧ p.allMacros = s.panel.allMacros) :
    ({ s with panel := p } : Session lv).Inv := by
  constructor
  · rw [h.2]
    exact hs.macros
  · rw [h.1]
    exact hs.history

theorem reflects_of_lists (notifies : Bool) {s : Session lv} (hs : s.Inv) {e : Event} {p : Panel lv}
    (hstep : s.step notifies e = { s with panel := p }) (he : ¬ s.Entered e)
    (h : p.history = s.panel.history ∧ p.allMacros = s.panel.allMacros) :
      s.Reflects notifies e := by
  constructor
  · rw [hstep]
    exact inv_of_lists hs h
  · intro hentered
    exact absurd hentered he

theorem reflects_help_iff (notifies : Bool) {s : Session lv} (hs : s.Inv) (state : State)
    (reply : { j : Json // j.Wf }) :
    s.Reflects notifies (.help state reply) ↔ s.Sound notifies (.help state reply) := by
  have hinv : s.Reflects notifies (.help state reply) ↔ (s.step notifies (.help state reply)).Inv :=
    and_iff_left False.elim
  rw [hinv, Sound]
  cases hstored : Panel.stored state with
  | malformed =>
    simp only [step, Panel.handleMacros, hstored]
    constructor
    · intro h ms hms
      have honce := h.macros
      dsimp only at honce
      rwa [Option.mem_def.mp hms] at honce
    · intro h
      constructor
      · dsimp only
        cases hr : Panel.replied reply.val with
        | none => exact hs.macros
        | some ms => exact h ms (Option.mem_def.mpr hr)
      · exact hs.history
  | missing =>
    simp only [step, Panel.handleMacros, hstored]
    rw [← once_replied s.panel hs.macros reply]
    constructor
    · intro h
      exact h.macros
    · intro h
      exact ⟨h, hs.history⟩
  | commands l =>
    simp only [step, Panel.handleMacros, hstored]
    rw [← once_replied s.panel hs.macros reply, ← recent_eq_self_iff]
    constructor
    · intro h
      exact ⟨h.history, h.macros⟩
    · intro h
      exact ⟨h.2, h.1⟩

theorem enter_eq (notifies : Bool) {s : Session lv} (h : s.panel.input ≠ "") :
    s.step notifies .enter =
      ⟨(s.panel.entered.setText notifies "").fill, s.macros, s.panel.input :: s.commands⟩ := by
  simp only [step, Panel.ready, Panel.entered, if_neg h]

-- Without a history the command is dropped.
theorem inv_enter_iff (notifies : Bool) {s : Session lv} (hs : s.Inv) (h : s.panel.input ≠ "") :
    (s.step notifies .enter).Inv ↔ s.panel.history ≠ [] := by
  obtain ⟨hhistory, hmacros⟩ := Panel.setText_lists notifies "" s.panel.entered
  rw [enter_eq notifies h]
  constructor
  · intro hinv hnil
    have hlost : (s.panel.entered.setText notifies "").history =
        recent (s.panel.input :: s.commands) :=
      hinv.history
    rw [hhistory, Panel.entered, Panel.record, Panel.send, hnil] at hlost
    exact recent_ne_nil.mpr (List.cons_ne_nil _ _) hlost.symm
  · intro hne
    constructor
    · show Once (s.panel.entered.setText notifies "").allMacros s.macros
      rw [hmacros, s.panel.entered_lists.1]
      exact hs.macros
    · show (s.panel.entered.setText notifies "").history = recent (s.panel.input :: s.commands)
      rw [hhistory, Panel.history_entered hs.history hne]

theorem length_entered {s : Session lv} (hs : s.Inv) (hne : s.panel.history ≠ []) :
    s.panel.entered.listed.length = s.suggestions := by
  rw [Panel.listed, List.length_append, Panel.history_entered hs.history hne,
    s.panel.entered_lists.1, length_recent_cons, ← hs.history]
  rfl

theorem rows_enter_iff (hlv : lv.Documented) (notifies : Bool) {s : Session lv} (hs : s.Inv)
    (h : s.panel.input ≠ "") (hne : s.panel.history ≠ []) :
    lv.rows (s.step notifies .enter).panel.macroList = (s.step notifies .enter).panel.listed ↔
      s.suggestions < 2 ^ 16 ∧
        (notifies = true ∨ (lv.rows s.panel.macroList).length ≤ s.suggestions) := by
  have hentered : s.panel.entered.history ≠ [] := by
    rw [Panel.history_entered hs.history hne]
    exact recent_ne_nil.mpr (List.cons_ne_nil _ _)
  have hrows := Panel.rows_cleared_iff hlv notifies hentered
  rw [length_entered hs hne, s.panel.entered_lists.2] at hrows
  rw [enter_eq notifies h]
  show lv.rows (s.panel.entered.setText notifies "").fill.macroList =
    (s.panel.entered.setText notifies "").listed ↔ _
  rw [Panel.listed_setText]
  exact hrows

theorem reflects_enter_iff (hlv : lv.Documented) (notifies : Bool) {s : Session lv} (hs : s.Inv) :
    s.Reflects notifies .enter ↔ s.Sound notifies .enter := by
  by_cases hinput : s.panel.input = ""
  · refine iff_of_true ?_ fun hne => absurd hinput hne
    apply reflects_of_lists notifies hs (p := s.panel)
    · simp only [step, Panel.ready, if_pos hinput]
    · exact not_not.mpr hinput
    · exact ⟨rfl, rfl⟩
  · have hinv := inv_enter_iff notifies hs hinput
    constructor
    · intro h _
      have hne := hinv.mp h.1
      exact ⟨hne, (rows_enter_iff hlv notifies hs hinput hne).mp (h.2 hinput)⟩
    · intro h
      obtain ⟨hne, hcond⟩ := h hinput
      exact ⟨hinv.mpr hne, fun _ => (rows_enter_iff hlv notifies hs hinput hne).mpr hcond⟩

theorem reflects_iff (hlv : lv.Documented) (notifies : Bool) {s : Session lv} (hs : s.Inv)
    (e : Event) :
    s.Reflects notifies e ↔ s.Sound notifies e := by
  cases e with
  | help state reply => exact reflects_help_iff notifies hs state reply
  | edit text =>
    exact iff_of_true (reflects_of_lists notifies hs rfl id (Panel.filter_lists _)) trivial
  | select row =>
    refine iff_of_true (reflects_of_lists notifies hs rfl id ?_) trivial
    unfold Panel.handleSelectMacro
    cases (lv.rows s.panel.macroList)[row]? with
    | none => exact ⟨rfl, rfl⟩
    | some m => exact Panel.setText_lists notifies m s.panel
  | clear =>
    exact iff_of_true (reflects_of_lists notifies hs rfl id
      (Panel.setText_lists notifies "" _)) trivial
  | enter => exact reflects_enter_iff hlv notifies hs

/-! ### Every run -/

def init (lv : LvList) (o : lv.Obj) : Session lv := { panel := { macroList := o } }

theorem inv_init (lv : LvList) (o : lv.Obj) : (init lv o).Inv := by
  constructor
  · intro m
    rfl
  · rfl

theorem suggestions_reflect_iff (hlv : lv.Documented) (notifies : Bool) (o : lv.Obj)
    (es : List Event) :
    Run.Along (step notifies) (Reflects notifies) (init lv o) es ↔
      Run.Along (step notifies) (Sound notifies) (init lv o) es := by
  apply Run.along_iff (I := Inv) (C := fun _ _ => True)
  · intro s e hs _ hsound
    exact ((reflects_iff hlv notifies hs e).mpr hsound).1
  · intro s e hs _
    exact reflects_iff hlv notifies hs e
  · exact inv_init lv o
  · exact Run.along_of_step (fun _ _ => trivial) _ es

def history (l : List String) : State :=
  ⟨.obj (.cons "console" (.obj (.cons "commandHistory"
    (.arr (l.foldr (fun c es => .cons (.str c) es) .nil)) .nil)) .nil)⟩

def help (macros : List String) (h : (Json.obj (.cons "result"
    (.obj (macros.foldr (fun m fs => .cons m (.str "") fs) .nil)) .nil)).Wf) :
      { j : Json // j.Wf } :=
  ⟨_, h⟩

/-- A filter has cut the table to one row before the command. -/
theorem command_in_front :
    LvList.plain.rows (Run.run (step true) (init .plain ⟨[""], by decide⟩)
        [.help (history ["G28", "M84"]) (help ["LOAD", "UNLOAD"] (by decide)), .edit "load",
          .edit "G1 X5", .enter]).panel.macroList =
        ["G1 X5", "G28", "M84", "LOAD", "UNLOAD"] ∧
      Run.Along (step true) (Reflects true) (init .plain ⟨[""], by decide⟩)
        [.help (history ["G28", "M84"]) (help ["LOAD", "UNLOAD"] (by decide)), .edit "load",
          .edit "G1 X5", .enter] := by
  refine ⟨by decide +kernel, (suggestions_reflect_iff LvList.documented_plain true _ _).mpr ?_⟩
  refine ⟨⟨⟨by decide, by decide⟩, fun _ => rfl⟩, trivial, trivial, fun _ => ?_, trivial⟩
  exact ⟨by decide +kernel, by decide +kernel, .inl rfl⟩

/-- A reconnect lists the macro twice, and without a stored history no command is kept. -/
theorem macro_twice_and_command_lost :
    (Run.run (step true) (init .plain ⟨[], by decide⟩)
        [.help (history []) (help ["LOAD"] (by decide)),
          .help (history []) (help ["LOAD"] (by decide))]).panel.allMacros = ["LOAD", "LOAD"] ∧
      (Run.run (step true) (init .plain ⟨[], by decide⟩) [.edit "G28", .enter]).panel.history = [] ∧
      ¬ Run.Along (step true) (Reflects true) (init .plain ⟨[], by decide⟩)
        [.help (history []) (help ["LOAD"] (by decide)),
          .help (history []) (help ["LOAD"] (by decide))] ∧
      ¬ Run.Along (step true) (Reflects true) (init .plain ⟨[], by decide⟩)
        [.edit "G28", .enter] := by
  refine ⟨by decide +kernel, by decide +kernel, ?_, ?_⟩
  · intro h
    have htwice := h.2.1.1.macros "LOAD"
    revert htwice
    decide +kernel
  · intro h
    have hlost := h.2.1.1.history
    revert hlost
    decide +kernel

end Session

end GuppyScreen.Console
