import GuppyScreen.Lib.Outcome
import GuppyScreen.Lib.Pointer
import GuppyScreen.Lib.Run
import GuppyScreen.Lib.StdMap
import GuppyScreen.Lib.Table
import GuppyScreen.Utils
import Mathlib.Data.List.Sort

/-!
# The Spoolman panel (spoolman_panel.cpp)

`populate_spools` writes the spools into the rows of a table, in the order of the
last sort, and a tap reads back what the cells hold.
-/

namespace GuppyScreen.Spoolman
open Lib

/-! ### Reading a spool -/

/-- `j[ptr]`, `none` where it throws. The nulls it leaves behind read like nothing. -/
def look (ptr : List String) (j : Json) : Option Json :=
  (Pointer.upsert id ptr j).map (·.valueAt ptr)

/-- `get<int64_t>()`, to be cut to the width asked for. -/
def integer? : Json → Option ℤ
  | .bool b => some (if b then 1 else 0)
  | .int n => some n
  | .float q => some (Rounding.trunc q)
  | _ => none

def uint32? (j : Json) : Option ℕ := (integer? j).map fun n => (n % 2 ^ 32).toNat

def int32? (j : Json) : Option ℤ := (integer? j).map (Int.bmod · (2 ^ 32))

def archived? (el : Json) : Option Bool :=
  match el.get? "archived" with
  | some (.bool b) => some b
  | _ => none

def id? (el : Json) : Option ℕ := (el.get? "id").bind uint32?

def text? (ptr : List String) (el : Json) : Option String :=
  (look ptr el).bind fun v => if v = .null then some "" else v.str?

def number? (ptr : List String) (el : Json) : Option ℚ :=
  (look ptr el).bind fun v => if v = .null then some 0 else KUtils.double? v

/-- What a row shows of a spool. -/
structure Spool where
  id : ℕ
  archived : Bool
  name : String
  material : String
  weight : ℚ
  length : ℚ

/-- The reads of one round of the loop after `archived`, `none` where one throws. -/
def read (archived : Bool) (el : Json) : Option Spool := do
  let id ← id? el
  let vendor ← text? ["filament", "vendor", "name"] el
  let filament ← text? ["filament", "name"] el
  let material ← text? ["filament", "material"] el
  let weight ← number? ["remaining_weight"] el
  let len ← number? ["remaining_length"] el
  return ⟨id, archived, vendor ++ " - " ++ filament, material, weight, Double.rnd (len / 1000)⟩

/-! ### The panel -/

def symbolUpload : String := "\uF093"
def symbolDrive : String := "\uF01C"
def symbolPlay : String := "\uF04B"

abbrev Spools : Type := StdMap ℕ Json

inductive Column where
  | id
  | name
  | material
  | weight
  | length
  deriving DecidableEq

/-- `server.spoolman.post_spool_id`, and a PATCH of `/v1/spool/<spoolId>`. -/
inductive Request where
  | postSpoolId (id : ℤ)
  | setArchived (spoolId : String) (archived : Bool)
  deriving DecidableEq

structure Panel where
  spools : Spools := ∅
  activeId : ℤ := -1
  sortedBy : Option Column := some .id
  showArchived : Bool := false
  table : Table := .new
  sent : List Request := []

/-- `id == active_id`, of a `uint32_t` and an `int32_t`. -/
def isActive (activeId : ℤ) (id : ℕ) : Bool := decide ((id : ℤ) = activeId % 2 ^ 32)

def header : List (ℕ × String) :=
  [(0, "ID"), (1, "Name"), (2, "MAT"), (4, "Remain\nWeight"), (5, "Remain\nLength")]

/-- The cell that sets a spool active, and the one that archives it. A spool that is
active and not archived gets none of the latter. -/
def actionCells (s : Spool) (active : Bool) : List (ℕ × String) :=
  (if s.archived then [(7, symbolUpload)] else if active then [] else [(7, symbolDrive)]) ++
    [(6, if active then "(active)" else if s.archived then "" else symbolPlay)]

def rowCells (s : Spool) (active : Bool) : List (ℕ × String) :=
  [(0, toString s.id), (1, s.name), (2, s.material), (3, ""), (4, Double.fixed 1 s.weight ++ " g"),
    (5, Double.fixed 1 s.length ++ " m")] ++ actionCells s active

/-- The loop of `populate_spools` from row `row` on. It throws at a spool it cannot
read, before it writes anything of it. -/
def populateRows (skipArchive : Bool) (activeId : ℤ) : ℕ → List Json → Table → Except Table Table
  | row, [], t => .ok (t.setRowCnt row)
  | row, el :: els, t =>
    match archived? el with
    | none => .error t
    | some archived =>
      if skipArchive && archived then populateRows skipArchive activeId row els t
      else
        match read archived el with
        | none => .error t
        | some s =>
          populateRows skipArchive activeId (row + 1) els
            (t.setCells row (rowCells s (isActive activeId s.id)))

namespace Panel

def populateSpools (p : Panel) (sorted : List Json) : Panel :=
  if p.spools.entries.isEmpty then p
  else
    { p with
      table := Outcome.final
        (populateRows (!p.showArchived) p.activeId 1 sorted (p.table.setCells 0 header)) }

end Panel

/-! ### Sorting -/

/-- What `std::sort` does with a comparison. The order of equal elements is open. -/
structure StdSort where
  sort : (Json → Json → Bool) → List Json → List Json
  perm : ∀ less l, (sort less l).Perm l

/-- The key of a comparison, a text or a number, `none` where reading it throws. -/
def key : Column → Json → Option (String ⊕ ℚ)
  | .id, el => (id? el).map fun n => .inr n
  | .name, el => do
    let vendor ← (look ["filament", "vendor", "name"] el).bind (·.str?)
    let filament ← (look ["filament", "name"] el).bind (·.str?)
    return .inl (vendor ++ " - " ++ filament)
  | .material, el => ((look ["filament", "material"] el).bind (·.str?)).map .inl
  | .weight, el => ((look ["remaining_weight"] el).bind KUtils.double?).map .inr
  | .length, el => ((look ["remaining_length"] el).bind KUtils.double?).map .inr

def keyLess : Option (String ⊕ ℚ) → Option (String ⊕ ℚ) → Bool
  | some (.inl a), some (.inl b) => decide (a < b)
  | some (.inr a), some (.inr b) => decide (a < b)
  | _, _ => false

def less (c : Column) (reversed : Bool) (a b : Json) : Bool :=
  if reversed then keyLess (key c b) (key c a) else keyLess (key c a) (key c b)

namespace Panel
variable (std : StdSort)

def values (p : Panel) : List Json := p.spools.entries.map (·.2)

/-- The sort by id that follows a reply or the switch. -/
def repopulate (p : Panel) : Panel :=
  { p with sortedBy := some .id }.populateSpools (std.sort (less .id false) p.values)

/-- Where there are two spools every one is compared, and one without a key throws. -/
def Unsortable (p : Panel) (c : Column) : Prop :=
  2 ≤ p.values.length ∧ ∃ el ∈ p.values, key c el = none

instance Unsortable.decidable (p : Panel) (c : Column) : Decidable (p.Unsortable c) :=
  inferInstanceAs (Decidable (_ ∧ _))

/-- A tap on the head of a column. -/
def sortBy (p : Panel) (c : Column) : Panel :=
  if p.Unsortable c then p
  else
    { p with sortedBy := if p.sortedBy = some c then none else some c }.populateSpools
      (std.sort (less c (p.sortedBy = some c)) p.values)

end Panel

/-! ### Replies and notifications -/

/-- The loop over the spools of a reply, which throws at an id that is no number. -/
def loadSpools : List Json → Spools → Except Spools Spools
  | [], m => .ok m
  | e :: es, m =>
    match e.get? "id" with
    | none => loadSpools es m
    | some v =>
      match uint32? v with
      | none => .error m
      | some n => loadSpools es (m.insertNew n e)

inductive Event where
  | spoolsReply (d : Json)
  | activeReply (d : Json)
  | activeUpdate (j : Json)
  | toggle
  | tap (row col : ℕ)

/-- The result of a reply without an error. -/
def result (ptr : List String) (d : Json) : Option Json :=
  match look ["error"] d with
  | some .null => (look ptr d).filter (· ≠ .null)
  | _ => none

namespace Panel
variable (std : StdSort)

def handleSpools (p : Panel) (d : Json) : Panel :=
  match (result ["result"] d).filter fun s => !s.isEmpty with
  | none => p
  | some s =>
    match loadSpools s.items ∅ with
    | .error m => { p with spools := m }
    | .ok m => { p with spools := m }.repopulate std

def handleActiveId (p : Panel) (v : Option Json) : Panel :=
  match v.bind int32? with
  | none => p
  | some n => { p with activeId := n }.repopulate std

def column? : ℕ → Option Column
  | 0 => some .id
  | 1 => some .name
  | 2 => some .material
  | 4 => some .weight
  | 5 => some .length
  | _ => none

/-- What a tap on a cell of a body row sends. -/
def request (p : Panel) (row col : ℕ) : Option Request :=
  (p.table.text row col).bind fun selected =>
    (p.table.text row 0).bind fun spoolId =>
      if col = 6 ∧ Text.startsWith symbolPlay selected then
        (spoolId.toInt?.filter fun n => n < 2 ^ 31).map .postSpoolId
      else if col = 7 ∧ Text.startsWith symbolDrive selected then some (.setArchived spoolId true)
      else if col = 7 ∧ Text.startsWith symbolUpload selected then some (.setArchived spoolId false)
      else none

def handleTap (p : Panel) (row col : ℕ) : Panel :=
  if p.table.rowCnt ≤ row then p
  else if row = 0 then (column? col).elim p (p.sortBy std)
  else { p with sent := p.sent ++ (p.request row col).toList }

end Panel

def step (std : StdSort) (p : Panel) : Event → Panel
  | .spoolsReply d => p.handleSpools std d
  | .activeReply d => p.handleActiveId std (result ["result", "spool_id"] d)
  | .activeUpdate j => p.handleActiveId std
    ((look ["params", "0", "spool_id"] j).filter (· ≠ .null))
  | .toggle => { p with showArchived := !p.showArchived }.repopulate std
  | .tap row col => p.handleTap std row col

/-! ### What a populate leaves -/

/-- The spools the loop gets rows for, `none` where it throws. -/
def shown (skipArchive : Bool) : List Json → Option (List Spool)
  | [] => some []
  | el :: els =>
    (archived? el).bind fun archived =>
      if skipArchive && archived then shown skipArchive els
      else (read archived el).bind fun s => (shown skipArchive els).map (s :: ·)

theorem read_fields {archived : Bool} {el : Json} {s : Spool} (h : read archived el = some s) :
    s.archived = archived ∧ id? el = some s.id := by
  unfold read at h
  simp only [Option.bind_eq_bind, Option.bind_eq_some_iff] at h
  obtain ⟨id, hid, _, -, _, -, _, -, _, -, _, -, h⟩ := h
  cases h
  exact ⟨rfl, hid⟩

theorem of_mem_shown {skipArchive : Bool} {l : List Json} {rows : List Spool} {s : Spool}
    (h : shown skipArchive l = some rows) (hs : s ∈ rows) :
    ∃ el ∈ l, archived? el = some s.archived ∧ id? el = some s.id := by
  induction l generalizing rows with
  | nil =>
    cases h
    cases hs
  | cons el els ih =>
    obtain ⟨archived, harch, h⟩ := Option.bind_eq_some_iff.mp h
    split_ifs at h
    · obtain ⟨e, he, hfields⟩ := ih h hs
      exact ⟨e, List.mem_cons_of_mem el he, hfields⟩
    · obtain ⟨r, hr, h⟩ := Option.bind_eq_some_iff.mp h
      obtain ⟨rest, hrest, rfl⟩ := Option.map_eq_some_iff.mp h
      rcases List.mem_cons.mp hs with rfl | hs
      · obtain ⟨ha, hid⟩ := read_fields hr
        exact ⟨el, List.mem_cons_self .., ha ▸ harch, hid⟩
      · obtain ⟨e, he, hfields⟩ := ih hrest hs
        exact ⟨e, List.mem_cons_of_mem el he, hfields⟩

/-- The text of the archive cell after a row is written over `old`. -/
def archiveText (old : Option String) (s : Spool) (active : Bool) : Option String :=
  if s.archived then some symbolUpload else if active then old else some symbolDrive

theorem rowCells_nodup (s : Spool) (active : Bool) : ((rowCells s active).map (·.1)).Nodup := by
  unfold rowCells actionCells
  cases s.archived <;> cases active <;> simp

theorem text_id (t : Table) (row : ℕ) (s : Spool) (active : Bool) :
    (t.setCells row (rowCells s active)).text row 0 = some (toString s.id) :=
  Table.text_setCells_mem (rowCells_nodup s active) (List.mem_cons_self ..)

theorem text_archive (t : Table) (row : ℕ) (s : Spool) (active : Bool) :
    (t.setCells row (rowCells s active)).text row 7 = archiveText (t.text row 7) s active := by
  unfold archiveText
  split_ifs with harch hactive
  · have hmem : (7, symbolUpload) ∈ rowCells s active := by simp [rowCells, actionCells, harch]
    exact Table.text_setCells_mem (rowCells_nodup s active) hmem
  · refine Table.text_setCells_col ?_
    simp [rowCells, actionCells, harch, hactive]
  · have hmem : (7, symbolDrive) ∈ rowCells s active := by
      simp [rowCells, actionCells, harch, hactive]
    exact Table.text_setCells_mem (rowCells_nodup s active) hmem

/-- The rows of the spools shown, from `row` on, written over those of `t`. -/
structure Filled (activeId : ℤ) (row : ℕ) (rows : List Spool) (t t' : Table) : Prop where
  rowCnt : t'.rowCnt = row + rows.length
  above : ∀ r < row, ∀ col, t'.text r col = t.text r col
  id : ∀ i s, rows[i]? = some s → t'.text (row + i) 0 = some (toString s.id)
  archive : ∀ i s, rows[i]? = some s →
    t'.text (row + i) 7 = archiveText (t.text (row + i) 7) s (isActive activeId s.id)

theorem populateRows_shown {skipArchive : Bool} {l : List Json} {rows : List Spool}
    (h : shown skipArchive l = some rows) (activeId : ℤ) (row : ℕ) (t : Table) :
    ∃ t', populateRows skipArchive activeId row l t = .ok t' ∧ Filled activeId row rows t t' := by
  induction l generalizing row rows t with
  | nil =>
    cases h
    refine ⟨t.setRowCnt row, rfl, rfl, fun r hr col => Table.text_setRowCnt t hr col, ?_, ?_⟩
    · intro i s hs
      cases hs
    · intro i s hs
      cases hs
  | cons el els ih =>
    obtain ⟨archived, harch, h⟩ := Option.bind_eq_some_iff.mp h
    simp only [populateRows, harch]
    split_ifs at h with hskip
    · rw [if_pos hskip]
      exact ih h row t
    · rw [if_neg hskip]
      obtain ⟨s, hs, h⟩ := Option.bind_eq_some_iff.mp h
      obtain ⟨rest, hrest, rfl⟩ := Option.map_eq_some_iff.mp h
      simp only [hs]
      obtain ⟨t', ht', hfill⟩ := ih hrest (row + 1)
        (t.setCells row (rowCells s (isActive activeId s.id)))
      refine ⟨t', ht', ?_, ?_, ?_, ?_⟩
      · rw [hfill.rowCnt, List.length_cons]
        omega
      · intro r hr col
        rw [hfill.above r (by omega), Table.text_setCells_row (by omega)]
      · intro i x hx
        cases i with
        | zero =>
          cases hx
          rw [Nat.add_zero, hfill.above row (by omega), text_id]
        | succ i =>
          have hrow : row + (i + 1) = row + 1 + i := by omega
          rw [hrow]
          exact hfill.id i x hx
      · intro i x hx
        cases i with
        | zero =>
          cases hx
          rw [Nat.add_zero, hfill.above row (by omega), text_archive]
        | succ i =>
          have hrow : row + (i + 1) = row + 1 + i := by omega
          rw [hrow, hfill.archive i x hx, Table.text_setCells_row (by omega)]

/-! ### The archive cells -/

/-- Each body row is that of a spool of the list, and its archive cell has the symbol
for what can be done with it. -/
def Marked (p : Panel) : Prop :=
  ∀ row, 1 ≤ row → row < p.table.rowCnt → ∃ id el archived,
    p.table.text row 0 = some (toString id) ∧ p.spools.lookup id = some el ∧
      archived? el = some archived ∧
      (p.table.text row 7 = some symbolDrive ↔ archived = false ∧ isActive p.activeId id = false) ∧
      (p.table.text row 7 = some symbolUpload ↔ archived = true)

def Keyed (m : Spools) : Prop := ∀ id el, m.lookup id = some el → id? el = some id

def Symbols (t : Table) : Prop :=
  ∀ row, 1 ≤ row → ∀ x, t.text row 7 = some x → x = symbolDrive ∨ x = symbolUpload

structure Inv (p : Panel) : Prop where
  keyed : Keyed p.spools
  symbols : Symbols p.table
  marked : Marked p

theorem keyed_loadSpools (es : List Json) {m : Spools} (h : Keyed m) :
    Outcome.Post Keyed Keyed (loadSpools es m) := by
  induction es generalizing m with
  | nil => exact h
  | cons e es ih =>
    unfold loadSpools
    split
    · exact ih h
    · rename_i v hv
      split
      · exact h
      · rename_i n hn
        refine ih fun id el hel => ?_
        rcases StdMap.lookup_insertNew hel with hold | ⟨rfl, rfl⟩
        · exact h id el hold
        · rw [id?, hv, Option.bind_some, hn]

theorem symbols_setCells {t : Table} (h : Symbols t) {row : ℕ} {cells : List (ℕ × String)}
    (hcells : 1 ≤ row → ∀ c ∈ cells, c.1 = 7 → c.2 = symbolDrive ∨ c.2 = symbolUpload) :
    Symbols (t.setCells row cells) := by
  unfold Table.setCells
  induction cells generalizing t with
  | nil => exact h
  | cons c cells ih =>
    refine ih ?_ fun hrow d hd => hcells hrow d (List.mem_cons_of_mem c hd)
    intro r hr x hx
    change (if r = row ∧ 7 = c.1 then some c.2 else t.text r 7) = some x at hx
    split_ifs at hx with hcell
    · cases hx
      exact hcells (hcell.1 ▸ hr) c (List.mem_cons_self ..) hcell.2.symm
    · exact h r hr x hx

theorem symbols_setRowCnt {t : Table} (h : Symbols t) (n : ℕ) : Symbols (t.setRowCnt n) := by
  intro r hr x hx
  change (if r < n then t.text r 7 else none) = some x at hx
  split_ifs at hx
  exact h r hr x hx

theorem rowCells_symbols (s : Spool) (active : Bool) :
    ∀ c ∈ rowCells s active, c.1 = 7 → c.2 = symbolDrive ∨ c.2 = symbolUpload := by
  unfold rowCells actionCells
  cases s.archived <;> cases active <;> simp

theorem symbols_populateRows {skipArchive : Bool} {activeId : ℤ} {l : List Json} {row : ℕ}
    {t : Table} (h : Symbols t) :
    Outcome.Post Symbols Symbols (populateRows skipArchive activeId row l t) := by
  induction l generalizing row t with
  | nil => exact symbols_setRowCnt h row
  | cons el els ih =>
    unfold populateRows
    split
    · exact h
    · split_ifs
      · exact ih h
      · split
        · exact h
        · exact ih (symbols_setCells h fun _ => rowCells_symbols _ _)

theorem symbols_populateSpools {p : Panel} (h : Symbols p.table) (sorted : List Json) :
    Symbols (p.populateSpools sorted).table := by
  unfold Panel.populateSpools
  split_ifs
  · exact h
  · exact Outcome.post_final (symbols_populateRows (symbols_setCells h fun hrow => by omega))

/-- The condition under which a populate marks every row: each spool can be read, and
the row of one that is active and not archived has no symbol of another left. -/
def Clear (p : Panel) (sorted : List Json) : Prop :=
  if p.spools.entries.isEmpty then p.table.rowCnt ≤ 1
  else ∃ rows, shown (!p.showArchived) sorted = some rows ∧
    ∀ i s, rows[i]? = some s → s.archived = false → isActive p.activeId s.id = true →
      p.table.text (i + 1) 7 = none

theorem archiveText_marked {old : Option String} {s : Spool} {active : Bool}
    (h : s.archived = false → active = true → old = none) :
    (archiveText old s active = some symbolDrive ↔ s.archived = false ∧ active = false) ∧
      (archiveText old s active = some symbolUpload ↔ s.archived = true) := by
  have hne : symbolUpload ≠ symbolDrive := by decide
  unfold archiveText
  cases ha : s.archived with
  | true => simp [hne]
  | false =>
    cases hb : active with
    | true => simp [h ha hb]
    | false => simp [hne.symm]

theorem marked_populateSpools {p : Panel} {sorted : List Json} (hkeyed : Keyed p.spools)
    (hsorted : ∀ el ∈ sorted, ∃ id, p.spools.lookup id = some el) (h : Clear p sorted) :
    Marked (p.populateSpools sorted) := by
  unfold Clear at h
  unfold Panel.populateSpools
  split_ifs at h ⊢ with hempty
  · intro row hlo hhi
    omega
  · obtain ⟨rows, hrows, hclear⟩ := h
    obtain ⟨t, ht, hfill⟩ := populateRows_shown hrows p.activeId 1 (p.table.setCells 0 header)
    rw [ht]
    intro row hlo hhi
    change row < t.rowCnt at hhi
    obtain ⟨i, rfl⟩ : ∃ i, row = 1 + i := ⟨row - 1, by omega⟩
    have hi : i < rows.length := by
      have hcnt := hfill.rowCnt
      omega
    have hs : rows[i]? = some rows[i] := List.getElem?_eq_getElem hi
    obtain ⟨el, hel, harch, hid⟩ := of_mem_shown hrows (List.mem_of_getElem? hs)
    obtain ⟨n, hn⟩ := hsorted el hel
    have hnid : n = rows[i].id := by
      have hkey := hkeyed n el hn
      rw [hid] at hkey
      exact (Option.some_inj.mp hkey).symm
    have hold : (p.table.setCells 0 header).text (1 + i) 7 = p.table.text (i + 1) 7 := by
      rw [Table.text_setCells_row (by omega), Nat.add_comm]
    have hmark := archiveText_marked fun ha hb => hold.trans (hclear i rows[i] hs ha hb)
    rw [← hfill.archive i rows[i] hs] at hmark
    exact ⟨rows[i].id, el, rows[i].archived, hfill.id i _ hs, hnid ▸ hn, harch, hmark⟩

/-! ### Runs -/

section
variable (std : StdSort)

def ClearById (p : Panel) : Prop := Clear p (std.sort (less .id false) p.values)

/-- Every populate of the step is a clear one, and a list that is loaded is loaded as
a whole. -/
def Kept (p : Panel) : Event → Prop
  | .spoolsReply d => ∀ s, (result ["result"] d).filter (fun s => !s.isEmpty) = some s →
    ∃ m, loadSpools s.items ∅ = .ok m ∧ ClearById std { p with spools := m }
  | .activeReply d => ∀ n, (result ["result", "spool_id"] d).bind int32? = some n →
    ClearById std { p with activeId := n }
  | .activeUpdate j => ∀ n, ((look ["params", "0", "spool_id"] j).filter (· ≠ .null)).bind int32? =
    some n →
    ClearById std { p with activeId := n }
  | .toggle => ClearById std { p with showArchived := !p.showArchived }
  | .tap row col => row = 0 → ∀ c, Panel.column? col = some c → ¬ p.Unsortable c →
    Clear p (std.sort (less c (p.sortedBy = some c)) p.values)

/-- The request of a step. -/
def sends (p : Panel) : Event → Option Request
  | .tap row col => if 1 ≤ row ∧ row < p.table.rowCnt then p.request row col else none
  | _ => none

variable {std} {p : Panel}

theorem mem_values {el : Json} (h : el ∈ p.values) : ∃ id, p.spools.lookup id = some el := by
  obtain ⟨e, he, rfl⟩ := List.mem_map.mp h
  exact ⟨e.1, AList.mem_lookup_iff.mpr he⟩

theorem inv_populateSpools (hkeyed : Keyed p.spools) (hsymbols : Symbols p.table)
    {f : Json → Json → Bool} (h : Clear p (std.sort f p.values)) :
    Inv (p.populateSpools (std.sort f p.values)) := by
  have hsorted : ∀ el ∈ std.sort f p.values, ∃ id, p.spools.lookup id = some el := by
    intro el hel
    exact mem_values ((std.perm f p.values).mem_iff.mp hel)
  refine ⟨?_, symbols_populateSpools hsymbols _, marked_populateSpools hkeyed hsorted h⟩
  unfold Panel.populateSpools
  split_ifs <;> exact hkeyed

theorem inv_repopulate (hkeyed : Keyed p.spools) (hsymbols : Symbols p.table)
    (h : ClearById std p) : Inv (p.repopulate std) :=
  inv_populateSpools (p := { p with sortedBy := some .id }) hkeyed hsymbols h

theorem inv_handleActiveId (hi : Inv p) {v : Option Json}
    (h : ∀ n, v.bind int32? = some n → ClearById std { p with activeId := n }) :
    Inv (p.handleActiveId std v) := by
  unfold Panel.handleActiveId
  split
  · exact hi
  · rename_i n hn
    exact inv_repopulate (p := { p with activeId := n }) hi.keyed hi.symbols (h n hn)

theorem inv_step (hi : Inv p) {e : Event} (h : Kept std p e) : Inv (step std p e) := by
  cases e with
  | spoolsReply d =>
    unfold step Panel.handleSpools
    dsimp only
    split
    · exact hi
    · rename_i s hs
      obtain ⟨m, hm, hclear⟩ := h s hs
      have hload := keyed_loadSpools s.items (m := ∅) fun _ _ hel => nomatch hel
      rw [hm] at hload ⊢
      exact inv_repopulate (p := { p with spools := m }) hload hi.symbols hclear
  | activeReply d => exact inv_handleActiveId hi h
  | activeUpdate j => exact inv_handleActiveId hi h
  | toggle =>
    exact inv_repopulate (p := { p with showArchived := !p.showArchived }) hi.keyed hi.symbols h
  | tap row col =>
    unfold step Panel.handleTap
    dsimp only
    split_ifs with hcnt hrow
    · exact hi
    · cases hc : Panel.column? col with
      | none => exact hi
      | some c =>
        rw [Option.elim_some, Panel.sortBy]
        by_cases hkeys : p.Unsortable c
        · rw [if_pos hkeys]
          exact hi
        · rw [if_neg hkeys]
          exact inv_populateSpools
            (p := { p with sortedBy := if p.sortedBy = some c then none else some c })
            hi.keyed hi.symbols (h hrow c hc hkeys)
    · exact ⟨hi.keyed, hi.symbols, hi.marked⟩

theorem not_archives_active (hi : Inv p) {e : Event} {id : ℕ}
    (hid : isActive p.activeId id = true) :
    sends p e ≠ some (.setArchived (toString id) true) := by
  intro hsends
  cases e with
  | tap row col =>
    unfold sends at hsends
    dsimp only at hsends
    split_ifs at hsends with hrow
    obtain ⟨selected, hsel, hreq⟩ := Option.bind_eq_some_iff.mp hsends
    obtain ⟨spoolId, hspool, hreq⟩ := Option.bind_eq_some_iff.mp hreq
    split_ifs at hreq with h6 h7 h7'
    · obtain ⟨n, -, hn⟩ := Option.map_eq_some_iff.mp hreq
      cases hn
    · cases hreq
      obtain ⟨rfl, hdrive⟩ := h7
      obtain ⟨n, el, archived, htext, -, -, hmark, -⟩ := hi.marked row hrow.1 hrow.2
      have hn : n = id := by
        rw [hspool] at htext
        exact (Text.toString_inj (Option.some_inj.mp htext)).symm
      have hsymbol : selected = symbolDrive := by
        rcases hi.symbols row hrow.1 selected hsel with rfl | rfl
        · rfl
        · exact absurd hdrive (by decide)
      have hfalse := (hmark.mp (hsymbol ▸ hsel)).2
      rw [hn, hid] at hfalse
      cases hfalse
    · cases hreq
  | _ => cases hsends

/-- In a run of clear populates every state has its rows marked, and no tap archives the
active spool. -/
theorem marked_in_every_run (std : StdSort) (events : List Event)
    (h : Run.Along (step std) (Kept std) {} events) :
    Run.Along (step std) (fun p e => Marked (step std p e) ∧
      ∀ id, isActive p.activeId id = true → sends p e ≠ some (.setArchived (toString id) true))
      {} events := by
  have hstart : Inv {} := by
    refine ⟨fun _ _ hel => (nomatch hel), fun _ _ _ hx => (nomatch hx), fun row hlo hhi => ?_⟩
    change row < 1 at hhi
    omega
  refine Run.along_of_invariant (I := Inv) (fun p e hi hk => inv_step hi hk) ?_ {} events hstart h
  intro p e hi hk
  exact ⟨(inv_step hi hk).marked, fun id hid => not_archives_active hi hid⟩

end

/-- An insertion sort, for an order that is fixed. -/
def insertionSort : StdSort where
  sort less l := l.insertionSort fun a b => less b a = false
  perm _ l := List.perm_insertionSort _ l

def spoolJson (n : ℤ) : Json :=
  .obj (.cons "archived" (.bool false) (.cons "id" (.int n) .nil))

def twoSpools : Json := .obj (.cons "result"
    (.arr (.cons (spoolJson 1) (.cons (spoolJson 2) .nil))) .nil)

def secondActive : Json := .obj (.cons "result" (.obj (.cons "spool_id" (.int 2) .nil)) .nil)

def secondSet : Json :=
  .obj (.cons "params" (.arr (.cons (.obj (.cons "spool_id" (.int 2) .nil)) .nil)) .nil)

/-- The active spool is known before the list is loaded. -/
theorem marked_in_run_of_fresh_rows :
    Run.Along (step insertionSort) (fun p e => Marked (step insertionSort p e) ∧
      ∀ id, isActive p.activeId id = true → sends p e ≠ some (.setArchived (toString id) true))
      {} [.activeReply secondActive, .spoolsReply twoSpools, .tap 1 7] ∧
    sends (Run.run (step insertionSort) {} [.activeReply secondActive, .spoolsReply twoSpools])
      (.tap 1 7) = some (.setArchived "1" true) := by
  refine ⟨marked_in_every_run insertionSort _ ⟨?_, ?_, ?_, trivial⟩, by decide +kernel⟩
  · intro n hn
    exact Nat.le_refl 1
  · intro s hs
    have hlist : (result ["result"] twoSpools).filter (fun s => !s.isEmpty) =
        some (.arr (.cons (spoolJson 1) (.cons (spoolJson 2) .nil))) := by decide +kernel
    rw [hlist] at hs
    cases hs
    have hshown : (shown true (insertionSort.sort (less .id false)
        [spoolJson 1, spoolJson 2])).isSome = true := by decide +kernel
    obtain ⟨rows, hrows⟩ := Option.isSome_iff_exists.mp hshown
    exact ⟨_, rfl, rows, hrows, fun _ _ _ _ _ => rfl⟩
  · intro h
    cases h

/-- The second spool is made active while its row has the symbol to archive it. -/
theorem active_spool_archived :
    let p := Run.run (step insertionSort) {} [.spoolsReply twoSpools, .activeUpdate secondSet]
    p.table.text 2 0 = some (toString 2) ∧ isActive p.activeId 2 = true ∧
      p.table.text 2 7 = some symbolDrive ∧ sends p (.tap 2 7) = some (.setArchived "2" true) ∧
      ¬ Marked p := by
  have hid : (Run.run (step insertionSort) {} [.spoolsReply twoSpools,
    .activeUpdate secondSet]).table.text
      2 0 = some (toString 2) := by decide +kernel
  have hactive : isActive (Run.run (step insertionSort) {} [.spoolsReply twoSpools,
      .activeUpdate secondSet]).activeId 2 = true := by decide +kernel
  have hdrive : (Run.run (step insertionSort) {} [.spoolsReply twoSpools,
      .activeUpdate secondSet]).table.text 2 7 = some symbolDrive := by decide +kernel
  refine ⟨hid, hactive, hdrive, by decide +kernel, fun hmarked => ?_⟩
  obtain ⟨n, el, archived, htext, -, -, hmark, -⟩ := hmarked 2 (by decide) (by decide +kernel)
  have hn : n = 2 := by
    rw [hid] at htext
    exact (Text.toString_inj (Option.some_inj.mp htext)).symm
  have hfalse := (hmark.mp hdrive).2
  rw [hn, hactive] at hfalse
  cases hfalse

end GuppyScreen.Spoolman
