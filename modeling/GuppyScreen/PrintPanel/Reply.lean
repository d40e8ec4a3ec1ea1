import GuppyScreen.Lib.Traverse
import GuppyScreen.PrintPanel.Selection
import Mathlib.Algebra.Group.Int.Defs
import Mathlib.Data.List.TakeWhile

/-!
# A reply that is no list (print_panel.cpp, websocket_client.cpp)

The callback of `subscribe` throws the tree away and sets `cur_dir` and `cur_file` to
NULL before it reads the reply. An entry it cannot read throws there, and the guard in
`drain` keeps what is left. Names may have NULs here; a cell ends at the first.
-/

namespace GuppyScreen.PrintPanel
open Lib Run

/-! ### Reading the reply -/

/-- `get<uint32_t>`. What becomes of a double that does not fit is left to `cast`. -/
def asUint32 (cast : ℚ → ℕ) : Json → Option ℕ
  | .int n => some (n % 2 ^ 32).toNat
  | .float q => some (cast q)
  | .bool b => some b.toNat
  | _ => none

/-- The arguments of `add_path`, where nothing throws. -/
def entryOf (cast : ℚ → ℕ) (f : Json) : Option Entry :=
  ((f.get? "path").bind Json.str?).bind fun path =>
    ((f.get? "modified").bind (asUint32 cast)).map fun modified => ⟨path.toList, modified⟩

def filesOf (d : Json) : List Json := (d.get? "result").elim [] Json.items

/-- The loop of `subscribe`: `error` is the tree at the entry that throws. -/
def addFiles (cast : ℚ → ℕ) : Tree → List Json → Except Tree Tree
  | t, [] => .ok t
  | t, f :: fs =>
    match entryOf cast f with
    | none => .error t
    | some e => addFiles cast (t.addPath (split e.path) e.modified) fs

/-- A path that is a string, and a time that is a number or a boolean. -/
def Listable (f : Json) : Prop :=
  ((f.get? "path").bind Json.str?).isSome = true ∧
    ∃ m ∈ f.get? "modified", m.isNumber = true ∨ m = .bool true ∨ m = .bool false

instance (f : Json) : Decidable (Listable f) := inferInstanceAs (Decidable (_ ∧ ∃ m ∈ f.get? _, _))

theorem asUint32_isSome_iff (cast : ℚ → ℕ) (m : Json) : (asUint32 cast m).isSome = true ↔
    m.isNumber = true ∨ m = .bool true ∨ m = .bool false := by
  cases m with
  | bool b => cases b <;> simp [asUint32, Json.isNumber]
  | _ => simp [asUint32, Json.isNumber]

theorem entryOf_isSome_iff (cast : ℚ → ℕ) (f : Json) :
    (entryOf cast f).isSome = true ↔ Listable f := by
  unfold entryOf Listable
  cases (f.get? "path").bind Json.str? with
  | none => simp
  | some path =>
    cases hm : f.get? "modified" with
    | none => simp
    | some m => simpa using asUint32_isSome_iff cast m

section
variable (cast : ℚ → ℕ)

theorem addFiles_ok {fs : List Json} {list : List Entry} (h : fs.mapM (entryOf cast) = some list)
    (t : Tree) : addFiles cast t fs = .ok (t.addAll list) := by
  induction fs generalizing t list with
  | nil =>
    cases h
    rfl
  | cons f fs ih =>
    rw [List.mapM_cons] at h
    obtain ⟨e, he, h⟩ := Option.bind_eq_some_iff.mp h
    obtain ⟨rest, hrest, h⟩ := Option.bind_eq_some_iff.mp h
    cases h
    rw [addFiles, he]
    exact ih hrest _

theorem addFiles_error {fs : List Json} (h : fs.mapM (entryOf cast) = none) (t : Tree) :
    ∃ u, addFiles cast t fs = .error u := by
  induction fs generalizing t with
  | nil => cases h
  | cons f fs ih =>
    rw [addFiles]
    cases he : entryOf cast f with
    | none => exact ⟨t, rfl⟩
    | some e =>
      apply ih
      rw [List.mapM_cons, he] at h
      cases hrest : fs.mapM (entryOf cast) with
      | none => rfl
      | some rest =>
        rw [hrest] at h
        cases h

theorem mapM_isSome_iff (fs : List Json) :
    (fs.mapM (entryOf cast)).isSome = true ↔ ∀ f ∈ fs, Listable f := by
  induction fs with
  | nil => simp
  | cons f fs ih =>
    rw [List.mapM_cons, List.forall_mem_cons, ← ih, ← entryOf_isSome_iff cast]
    cases entryOf cast f with
    | none => simp
    | some e => cases fs.mapM (entryOf cast) <;> simp

end

/-! ### Cells -/

def nul : Char := Char.ofNat 0

/-- The text LVGL copies: up to the first NUL. -/
def cell (r : Row) : Row := { r with name := r.name.takeWhile (· ≠ nul) }

namespace FileList

/-- `show_dir`, with the cells as LVGL keeps them. -/
def showCells (std : StdSort) (p : FileList) (why : ListChange) : FileList :=
  if p.fileTable = p.rows std ∧ why = .refetch then p
  else
    { p with
      fileTable := (p.rows std).map cell
      curFile := if why = .userAction ∨ p.curFile = none then p.firstFile std else p.curFile }

/-- The callback of `subscribe` once the tree is built anew. -/
def retarget (p : FileList) (root : Tree) : FileList :=
  let curPath := ((p.root.dataAt p.curDir).map Info.fullPath).getD []
  let file := p.curFile.bind p.root.dataAt
  let dir := root.findPath (split curPath)
  { p with
    root := root
    curDir := dir
    curFile := keptFile root dir file }

def sortBy (p : FileList) (column : SortColumn) (natural : Bool) : FileList :=
  { p with
    sortReversed := if p.sortColumn = column then !p.sortReversed else natural
    sortColumn := column }

end FileList

/-! ### The panel -/

/-- The list while `cur_dir` and `cur_file` may be NULL. A handler that reads through
NULL has crashed. -/
inductive ListPanel where
  | placed (p : FileList)
  -- both are NULL, whatever `p` says
  | unplaced (p : FileList)
  | crashed

inductive PanelEvent where
  | reply (d : Json)
  | tap (row : ℕ)
  | modifiedSortBtn
  | azSortBtn

namespace ListPanel

section
variable (cast : ℚ → ℕ) (std : StdSort) (p : FileList)

-- What `show_file_detail` may throw comes after the pointers are set.
def handleReply (d : Json) : ListPanel :=
  match addFiles cast p.root.clear (filesOf d) with
  | .error root => .unplaced { p with root := root, curFile := none }
  | .ok root =>
    .placed ((p.retarget (root.applyMetadata (p.root.collectMetadata ∅))).showCells std .refetch)

def handleTap (row : ℕ) : ListPanel :=
  match p.fileTable[row]? with
  | none => .placed p
  | some r =>
    if r.dir then
      if r.name = FileList.parentDir then
        if p.curDir = [] then .placed p
        else .placed ({ p with curDir := p.curDir.dropLast }.showCells std .userAction)
      else
        match p.getChild r.name with
        | none => .placed p
        | some dir => .placed ({ p with curDir := dir }.showCells std .userAction)
    else if p.curFile = p.getChild r.name then .placed p
    else
      match p.getChild r.name with
      -- `show_file_detail(NULL)`
      | none => .crashed
      | some file => .placed { p with curFile := some file }

def handleSort (column : SortColumn) (natural : Bool) : ListPanel :=
  .placed ((p.sortBy column natural).showCells std .userAction)

end

def step (cast : ℚ → ℕ) (std : StdSort) : ListPanel → PanelEvent → ListPanel
  | .placed p, .reply d => handleReply cast std p d
  | .placed p, .tap row => handleTap std p row
  | .placed p, .modifiedSortBtn => handleSort std p .modified true
  | .placed p, .azSortBtn => handleSort std p .name false
  -- Below the last row `handle_callback` has returned before it reads `cur_dir`.
  | .unplaced p, .tap row => if row < p.fileTable.length then .crashed else .unplaced p
  | .unplaced _, _ => .crashed
  | .crashed, _ => .crashed

end ListPanel

/-! ### Live pointers -/

/-- `cur_dir` is a node of the tree, `cur_file` is NULL or a leaf of it. -/
structure FileList.Live (p : FileList) : Prop where
  dir : ∃ n, p.root.sub? p.curDir = some n
  file : ∀ file, p.curFile = some file → ∃ n, p.root.sub? file = some n ∧ Tree.isLeaf n = true

def ListPanel.Live : ListPanel → Prop
  | .placed p => p.Live
  | .unplaced _ => False
  | .crashed => False

namespace FileList

theorem live_of_selected {p : FileList} (hdir : ∃ n, p.root.sub? p.curDir = some n)
    (hfile : p.curFile = none ∨ Selected p.root p.curDir p.curFile) : p.Live := by
  refine ⟨hdir, ?_⟩
  intro file hsome
  rw [hsome] at hfile
  rcases hfile with hnone | ⟨name, rfl, hleaf⟩
  · cases hnone
  · exact hleaf

theorem isDir_sub {t : Tree} {dir : List Name} (h : IsDir t dir) : ∃ n, t.sub? dir = some n := by
  rcases h with rfl | ⟨n, hn, _⟩
  · exact ⟨t, rfl⟩
  · exact ⟨n, hn⟩

section
variable {std : StdSort} {p : FileList}

theorem live_showCells (hk : p.root.Keyed) (h : p.Live) (why : ListChange) :
    (p.showCells std why).Live := by
  unfold showCells
  split_ifs with hsame huser
  · exact h
  · exact live_of_selected h.dir (.inr (selected_firstFile hk))
  · exact ⟨h.dir, h.file⟩

theorem live_opened {dir : List Name} (hk : p.root.Keyed)
    (hdir : ∃ n, p.root.sub? dir = some n) :
    ({ p with curDir := dir }.showCells std .userAction).Live := by
  have hshow : { p with curDir := dir }.showCells std .userAction =
      { p with
        curDir := dir
        fileTable := ({ p with curDir := dir }.rows std).map cell
        curFile := { p with curDir := dir }.firstFile std } := if_neg fun hb => nomatch hb.2
  rw [hshow]
  exact live_of_selected hdir (.inr (selected_firstFile (p := { p with curDir := dir }) hk))

theorem live_retarget (p : FileList) (t : Tree) : (p.retarget t).Live :=
  live_of_selected (isDir_sub (isDir_findPath t _)) (selected_keptFile t _ _)

theorem sub_dropLast {t : Tree} {dir : List Name} (h : ∃ n, t.sub? dir = some n) :
    ∃ n, t.sub? dir.dropLast = some n := by
  obtain ⟨n, hn⟩ := h
  by_cases hnil : dir = []
  · rw [hnil]
    exact ⟨t, rfl⟩
  · rw [← List.dropLast_append_getLast hnil, Trie.sub?_append] at hn
    obtain ⟨m, hm, -⟩ := Option.bind_eq_some_iff.mp hn
    exact ⟨m, hm⟩

theorem getChild_eq (p : FileList) (name : Name) :
    p.getChild name = (p.root.sub? (p.curDir ++ [name])).map fun _ => p.curDir ++ [name] := by
  rw [getChild, find?_childrenOf]

end

theorem root_showCells (std : StdSort) (p : FileList) (why : ListChange) :
    (p.showCells std why).root = p.root := by
  unfold showCells
  split_ifs <;> rfl

end FileList

namespace ListPanel
open FileList

/-- A tap on a file's row names a file: the text of the cell leads back to one. -/
def NamesFile (p : FileList) (row : ℕ) : Prop :=
  ∀ name, p.fileTable[row]? = some ⟨false, name⟩ →
    p.curFile = p.getChild name ∨ LeafChild p.root p.curDir name

/-- The condition on one event: a reply lists files, a tap names one. -/
def Safe : ListPanel → PanelEvent → Prop
  | _, .reply d => ∀ f ∈ filesOf d, Listable f
  | .placed p, .tap row => NamesFile p row
  | _, _ => True

def Keyed : ListPanel → Prop
  | .placed p => p.root.Keyed
  | _ => True

section
variable (cast : ℚ → ℕ) (std : StdSort) {p : FileList}

theorem handleReply_ok {d : Json} {list : List Entry}
    (h : (filesOf d).mapM (entryOf cast) = some list) :
    handleReply cast std p d = .placed ((p.retarget
      (p.root.rebuild list)).showCells std .refetch) := by
  rw [handleReply, addFiles_ok cast h]
  rfl

theorem live_reply_iff (hk : p.root.Keyed) (d : Json) :
    (handleReply cast std p d).Live ↔ ∀ f ∈ filesOf d, Listable f := by
  rw [← mapM_isSome_iff cast]
  cases h : (filesOf d).mapM (entryOf cast) with
  | none =>
    obtain ⟨u, hu⟩ := addFiles_error cast h p.root.clear
    rw [handleReply, hu]
    simp [Live]
  | some list =>
    rw [handleReply_ok cast std h]
    simp only [Live, Option.isSome_some, iff_true]
    exact live_showCells (Tree.keyed_rebuild hk list) (live_retarget p _) .refetch

theorem keyed_reply (hk : p.root.Keyed) (d : Json) : (handleReply cast std p d).Keyed := by
  cases h : (filesOf d).mapM (entryOf cast) with
  | none =>
    obtain ⟨u, hu⟩ := addFiles_error cast h p.root.clear
    rw [handleReply, hu]
    trivial
  | some list =>
    rw [handleReply_ok cast std h, Keyed, root_showCells]
    exact Tree.keyed_rebuild hk list

theorem keyed_tap (hk : p.root.Keyed) (row : ℕ) : (handleTap std p row).Keyed := by
  unfold handleTap
  cases p.fileTable[row]? with
  | none => exact hk
  | some r =>
    dsimp only
    split_ifs
    · exact hk
    · rw [Keyed, root_showCells]
      exact hk
    · cases p.getChild r.name with
      | none => exact hk
      | some dir =>
        rw [Keyed, root_showCells]
        exact hk
    · exact hk
    · cases p.getChild r.name with
      | none => trivial
      | some file => exact hk

theorem live_tap_iff (hk : p.root.Keyed) (h : p.Live) (row : ℕ) :
    (handleTap std p row).Live ↔ NamesFile p row := by
  unfold handleTap NamesFile
  cases hrow : p.fileTable[row]? with
  | none => exact iff_of_true h fun name hname => nomatch hname
  | some r =>
    obtain ⟨dir, name⟩ := r
    have hchild := getChild_eq p name
    cases dir with
    | true =>
      refine iff_of_true ?_ fun name hname => nomatch hname
      dsimp only
      rw [if_pos rfl]
      split_ifs
      · exact h
      · exact live_opened hk (sub_dropLast h.dir)
      · cases hn : p.root.sub? (p.curDir ++ [name]) with
        | none =>
          rw [hn] at hchild
          rw [hchild]
          exact h
        | some n =>
          rw [hn] at hchild
          rw [hchild]
          exact live_opened hk ⟨n, hn⟩
    | false =>
      simp only [Bool.false_eq_true, if_false, Option.some_inj, Row.mk.injEq, true_and, forall_eq']
      by_cases hsame : p.curFile = p.getChild name
      · rw [if_pos hsame]
        exact iff_of_true h (.inl hsame)
      · rw [if_neg hsame, or_iff_right hsame]
        cases hn : p.root.sub? (p.curDir ++ [name]) with
        | none =>
          rw [hn] at hchild
          rw [hchild]
          refine iff_of_false (fun hl => hl) ?_
          rintro ⟨n, hleaf, -⟩
          exact nomatch hn.symm.trans hleaf
        | some n =>
          rw [hn] at hchild
          rw [hchild]
          constructor
          · intro hl
            exact hl.file _ rfl
          · intro hleaf
            refine ⟨h.dir, ?_⟩
            intro file hfile
            cases hfile
            exact hleaf

theorem live_sort (hk : p.root.Keyed) (h : p.Live) (column : SortColumn) (natural : Bool) :
    (handleSort std p column natural).Live :=
  live_showCells (p := p.sortBy column natural) hk ⟨h.dir, h.file⟩ .userAction

end

theorem keyed_step (cast : ℚ → ℕ) (std : StdSort) {s : ListPanel} (h : s.Keyed) (e : PanelEvent) :
    (step cast std s e).Keyed := by
  cases s with
  | placed p =>
    cases e with
    | reply d => exact keyed_reply cast std h d
    | tap row => exact keyed_tap std h row
    | modifiedSortBtn | azSortBtn =>
      rw [step, handleSort, Keyed, root_showCells]
      exact h
  | unplaced p =>
    cases e with
    | tap row =>
      rw [step]
      split_ifs <;> trivial
    | _ => trivial
  | crashed => trivial

theorem live_step_iff (cast : ℚ → ℕ) (std : StdSort) {s : ListPanel} (hk : s.Keyed) (h : s.Live)
    (e : PanelEvent) : (step cast std s e).Live ↔ Safe s e := by
  cases s with
  | placed p =>
    cases e with
    | reply d => exact live_reply_iff cast std hk d
    | tap row => exact live_tap_iff std hk h row
    | modifiedSortBtn => exact iff_of_true (live_sort std hk h .modified true) trivial
    | azSortBtn => exact iff_of_true (live_sort std hk h .name false) trivial
  | unplaced p => exact h.elim
  | crashed => exact h.elim

/-! ### Names without a NUL -/

end ListPanel

namespace FileList

/-- The table is empty or shows the directory, and no name has a NUL. -/
structure Tidy (std : StdSort) (p : FileList) : Prop where
  keyed : p.root.Keyed
  plain : ∀ q d, p.root.dataAt q = some d → nul ∉ d.name
  synced : p.fileTable = [] ∨ p.fileTable = p.rows std

theorem cell_plain {r : Row} (h : nul ∉ r.name) : cell r = r := by
  have hname : r.name.takeWhile (· ≠ nul) = r.name := by
    rw [List.takeWhile_eq_self_iff]
    intro c hc
    rw [decide_eq_true_eq]
    rintro rfl
    exact h hc
  rw [cell, hname]

section
variable {std : StdSort} {p : FileList}

theorem cell_rows (hk : p.root.Keyed) (hplain : ∀ q d, p.root.dataAt q = some d → nul ∉ d.name) :
    (p.rows std).map cell = p.rows std := by
  refine (List.map_congr_left ?_).trans (List.map_id _)
  intro r hr
  apply cell_plain
  rcases (mem_rows_iff hk).mp hr with rfl | ⟨n, hn, -⟩
  · decide
  · have hname := hplain _ _ (Tree.dataAt_of_sub? hn)
    rwa [hk.child_name hn] at hname

theorem showCells_eq (hk : p.root.Keyed)
    (hplain : ∀ q d, p.root.dataAt q = some d → nul ∉ d.name) (why : ListChange) :
    p.showCells std why = p.showDir std why := by
  rw [showCells, showDir, cell_rows hk hplain]

theorem tidy_showDir (hk : p.root.Keyed)
    (hplain : ∀ q d, p.root.dataAt q = some d → nul ∉ d.name) (why : ListChange) :
    Tidy std (p.showDir std why) := by
  obtain ⟨hroot, -⟩ := showDir_place std p why
  refine ⟨?_, ?_, .inr (table_showDir std p why)⟩
  · rw [hroot]
    exact hk
  · rw [hroot]
    exact hplain

theorem Tidy.namesFile (h : Tidy std p) (row : ℕ) : ListPanel.NamesFile p row := by
  intro name hrow
  have hmem := List.mem_of_getElem? hrow
  rcases h.synced with hnil | hrows
  · rw [hnil] at hmem
    cases hmem
  · rw [hrows] at hmem
    exact .inr ((file_row_iff h.keyed).mp hmem)

theorem plain_rebuild (h : Tidy std p) {list : List Entry} (hlist : ∀ e ∈ list, nul ∉ e.path) :
    ∀ q d, (p.root.rebuild list).dataAt q = some d → nul ∉ d.name := by
  intro q d hd
  refine Tree.forall_rebuild p.root (P := fun _ d => nul ∉ d.name) ?_ ?_ ?_ hd
  · exact h.plain [] _ (Tree.dataAt_nil p.root)
  · intro f hf q hpre hq hnul
    have hlast : q.getLast?.getD [] ∈ q := by
      rw [List.getLast?_eq_some_getLast hq]
      exact List.getLast_mem hq
    have hpiece := Split.infix_of_mem_getlines (hpre.subset hlast)
    exact hlist f hf (hpiece.subset hnul)
  · intro q d e hd _ hname
    rwa [hname]

theorem tidy_list (h : Tidy std p) {list : List Entry} (hlist : ∀ e ∈ list, nul ∉ e.path) :
    Tidy std (p.handleList std list) :=
  tidy_showDir (p := p.retarget (p.root.rebuild list)) (Tree.keyed_rebuild h.keyed list)
    (plain_rebuild h hlist) _

theorem tidy_callback (h : Tidy std p) (row : ℕ) : Tidy std (p.handleCallback std row) := by
  unfold handleCallback
  cases p.fileTable[row]? with
  | none => exact h
  | some r =>
    dsimp only
    split_ifs
    · exact h
    · exact tidy_showDir (p := { p with curDir := p.curDir.dropLast }) h.keyed h.plain _
    · cases p.getChild r.name with
      | none => exact h
      | some dir => exact tidy_showDir (p := { p with curDir := dir }) h.keyed h.plain _
    · exact ⟨h.keyed, h.plain, h.synced⟩
    · exact h

theorem tidy_sort (h : Tidy std p) (column : SortColumn) (natural : Bool) :
    Tidy std (p.handleSort std column natural) :=
  tidy_showDir (p := p.sortBy column natural) h.keyed h.plain _

end

theorem tidy_start (std : StdSort) : Tidy std {} := by
  refine ⟨(Tree.shaped_root 0).toKeyed, ?_, .inl rfl⟩
  intro q d hd
  obtain ⟨-, rfl⟩ := Tree.dataAt_root hd
  exact fun h => nomatch h

end FileList

/-- No path in a reply has a NUL. -/
def PanelEvent.Plain : PanelEvent → Prop
  | .reply d => ∀ f ∈ filesOf d, ∀ s ∈ (f.get? "path").bind Json.str?, nul ∉ s.toList
  | _ => True

/-- Each entry of a reply can be listed. -/
def PanelEvent.Lists : PanelEvent → Prop
  | .reply d => ∀ f ∈ filesOf d, Listable f
  | _ => True

instance : (e : PanelEvent) → Decidable e.Plain
  | .reply d => inferInstanceAs (Decidable (∀ f ∈ filesOf d, ∀ s ∈ (f.get? _).bind _, _))
  | .tap _ | .modifiedSortBtn | .azSortBtn => .isTrue trivial

instance : (e : PanelEvent) → Decidable e.Lists
  | .reply d => inferInstanceAs (Decidable (∀ f ∈ filesOf d, Listable f))
  | .tap _ | .modifiedSortBtn | .azSortBtn => .isTrue trivial

namespace ListPanel
open FileList

theorem plain_entries {cast : ℚ → ℕ} {d : Json} (hd : (PanelEvent.reply d).Plain)
    {list : List Entry} (h : (filesOf d).mapM (entryOf cast) = some list) :
    ∀ e ∈ list, nul ∉ e.path := by
  intro e he
  obtain ⟨f, hf, hentry⟩ := (Traverse.of_mapM h).2 e he
  obtain ⟨s, hs, hrest⟩ := Option.bind_eq_some_iff.mp hentry
  obtain ⟨m, _, rfl⟩ := Option.map_eq_some_iff.mp hrest
  exact hd f hf s hs

section
variable {cast : ℚ → ℕ} {std : StdSort} {p : FileList} (h : p.Tidy std)

include h

theorem handleTap_eq (row : ℕ) : handleTap std p row = .placed (p.handleCallback std row) := by
  have hnames := h.namesFile row
  unfold handleTap handleCallback
  cases hrow : p.fileTable[row]? with
  | none => rfl
  | some r =>
    dsimp only
    split_ifs with hdir hup hroot hsame hne
    · rfl
    · rw [showCells_eq (p := { p with curDir := p.curDir.dropLast }) h.keyed h.plain]
    · cases p.getChild r.name with
      | none => rfl
      | some dir =>
        dsimp only
        rw [showCells_eq (p := { p with curDir := dir }) h.keyed h.plain]
    · exact absurd hsame hne
    · rfl
    · cases hc : p.getChild r.name with
      | none =>
        have hfile : r = ⟨false, r.name⟩ := by
          rw [Bool.not_eq_true] at hdir
          rw [← hdir]
        rw [hfile] at hrow
        rcases hnames r.name hrow with heq | ⟨n, hn, -⟩
        · exact absurd heq hsame
        · rw [getChild_eq, hn] at hc
          cases hc
      | some file => rfl

theorem handleReply_eq {d : Json} {list : List Entry}
    (hlist : (filesOf d).mapM (entryOf cast) = some list) (hplain : ∀ e ∈ list, nul ∉ e.path) :
    handleReply cast std p d = .placed (p.handleList std list) := by
  rw [handleReply_ok cast std hlist, showCells_eq (Tree.keyed_rebuild h.keyed list)
    (plain_rebuild h hplain)]
  rfl

theorem handleSort_eq (column : SortColumn) (natural : Bool) :
    handleSort std p column natural = .placed (p.handleSort std column natural) := by
  rw [handleSort, showCells_eq (p := p.sortBy column natural) h.keyed h.plain]
  rfl

end

def Tidy (std : StdSort) : ListPanel → Prop
  | .placed p => p.Tidy std
  | _ => False

theorem safe_iff {std : StdSort} {s : ListPanel} (h : s.Tidy std) (e : PanelEvent) :
    Safe s e ↔ e.Lists := by
  cases s with
  | placed p =>
    cases e with
    | reply d => exact Iff.rfl
    | tap row => exact iff_of_true (FileList.Tidy.namesFile h row) trivial
    | modifiedSortBtn | azSortBtn => exact Iff.rfl
  | unplaced p => exact h.elim
  | crashed => exact h.elim

theorem tidy_step (cast : ℚ → ℕ) {std : StdSort} {s : ListPanel} (h : s.Tidy std) {e : PanelEvent}
    (hplain : e.Plain) (hlists : e.Lists) : (step cast std s e).Tidy std := by
  cases s with
  | placed p =>
    cases e with
    | reply d =>
      obtain ⟨list, hlist⟩ := Option.isSome_iff_exists.mp
        ((mapM_isSome_iff cast (filesOf d)).mpr hlists)
      have hentries := plain_entries hplain hlist
      rw [step, handleReply_eq h hlist hentries]
      exact tidy_list h hentries
    | tap row =>
      rw [step, handleTap_eq h]
      exact tidy_callback h row
    | modifiedSortBtn =>
      rw [step, handleSort_eq h]
      exact tidy_sort h .modified true
    | azSortBtn =>
      rw [step, handleSort_eq h]
      exact tidy_sort h .name false
  | unplaced p => exact h.elim
  | crashed => exact h.elim

/-- `cur_dir` and `cur_file` point into the tree all along a run exactly if every reply
lists files and every tap on a file's row names a file. Where no path has a NUL, the
replies alone decide. -/
theorem live_in_every_run_iff (cast : ℚ → ℕ) (std : StdSort) (events : List PanelEvent) :
    (Along (step cast std) (fun s e => (step cast std s e).Live) (.placed {}) events ↔
      Along (step cast std) Safe (.placed {}) events) ∧
    ((∀ e ∈ events, e.Plain) →
      (Along (step cast std) (fun s e => (step cast std s e).Live) (.placed {}) events ↔
        ∀ e ∈ events, e.Lists)) := by
  have hsafe : Along (step cast std) (fun s e => (step cast std s e).Live) (.placed {}) events ↔
      Along (step cast std) Safe (.placed {}) events := by
    refine along_iff (I := fun s => s.Keyed ∧ s.Live) (C := fun _ _ => True) ?_ ?_ _ _ ?_
      (along_of_step (fun _ _ => trivial) _ _)
    · intro s e hs _ hq
      exact ⟨keyed_step cast std hs.1 e, (live_step_iff cast std hs.1 hs.2 e).mpr hq⟩
    · intro s e hs _
      exact live_step_iff cast std hs.1 hs.2 e
    · exact ⟨(Tree.shaped_root 0).toKeyed, ⟨_, rfl⟩, nofun⟩
  refine ⟨hsafe, ?_⟩
  intro hplain
  have hlists : Along (step cast std) Safe (.placed {}) events ↔
      Along (step cast std) (fun _ e => e.Lists) (.placed {}) events := by
    refine along_iff (I := Tidy std) (C := fun _ e => e.Plain) ?_ ?_ _ _ (tidy_start std)
      (along_of_forall _ hplain)
    · intro s e hs he hq
      exact tidy_step cast hs he hq
    · intro s e hs _
      exact safe_iff hs e
  exact hsafe.trans (hlists.trans (along_const_iff _))

def listReply (entries : Elems) : Json := .obj (.cons "result" (.arr entries) .nil)

def listed (path : String) : Json :=
  .obj (.cons "modified" (.int 1) (.cons "path" (.str path) .nil))

/-- The second entry has no time. -/
def badReply : Json :=
  listReply (.cons (listed "a") (.cons (.obj (.cons "path" (.str "b") .nil)) .nil))

theorem live_through_good_replies :
    Along (step (fun _ => 0) insertionSort)
      (fun s e => (step (fun _ => 0) insertionSort s e).Live) (.placed {})
      [.reply (listReply (.cons (listed "u/a") .nil)), .tap 1, .reply (listReply .nil)] :=
  ((live_in_every_run_iff _ insertionSort _).2 (by decide +kernel)).mpr (by decide +kernel)

/-- The bad reply leaves `cur_dir` at NULL, and the next one reads through it. -/
theorem lost_after_bad_reply :
    (¬ ∀ events, Along (step (fun _ => 0) insertionSort)
      (fun s e => (step (fun _ => 0) insertionSort s e).Live) (.placed {}) events) ∧
    run (step (fun _ => 0) insertionSort) (.placed {})
      [.reply badReply, .reply (listReply .nil)] = .crashed := by
  refine ⟨?_, rfl⟩
  intro h
  exact (h [.reply badReply]).1

end ListPanel

end GuppyScreen.PrintPanel
