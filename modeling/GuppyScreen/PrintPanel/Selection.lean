import GuppyScreen.Lib.Run
import GuppyScreen.PrintPanel.FileList
import Mathlib.Data.List.Sort

/-!
# The selection and the directory on screen (print_panel.cpp)

The tree is thrown away under the selection. `show_dir` returns early where the
rows on screen are those of the new tree, before the code that picks a file.
-/

namespace GuppyScreen.PrintPanel
open Lib Run

/-! ### Trees with their paths -/

namespace Tree

/-- A node carries the key it is found under. -/
structure Keyed (t : Tree) : Prop where
  ordered : t.Ordered
  name : ∀ q d, t.dataAt q = some d → d.name = q.getLast?.getD []

/-- A node is named by the path to it. -/
structure Shaped (t : Tree) : Prop extends Keyed t where
  fullPath : ∀ q d, t.dataAt q = some d → d.fullPath = walked [] q
  names : ∀ q d, t.dataAt q = some d → ∀ name ∈ q, name ≠ [] ∧ '/' ∉ name

theorem forall_rebuild (t : Tree) {P : List Name → Info → Prop} {list : List Entry}
    (hroot : P [] t.data)
    (hnew : ∀ f ∈ list, ∀ q, q <+: split f.path → q ≠ [] →
      P q ⟨q.getLast?.getD [], walked [] q, f.modified, none⟩)
    (hkept : ∀ q d e, P q d → e.fullPath = d.fullPath → e.name = d.name → P q e)
    {q : List Name} {d : Info} (hd : (t.rebuild list).dataAt q = some d) : P q d := by
  rw [dataAt_rebuild] at hd
  obtain ⟨e, he, rfl⟩ := Option.map_eq_some_iff.mp hd
  obtain ⟨hpath, hname, -⟩ := applyEntry_fixed (t.collectMetadata ∅) e
  refine hkept q e _ (forall_addAll t hroot hnew ?_ he) hpath hname
  intro q modified d hd
  exact hkept q d _ hd (by rw [touch_eq]) (by rw [touch_eq])

theorem keyed_rebuild {t : Tree} (h : Keyed t) (list : List Entry) : Keyed (t.rebuild list) := by
  refine ⟨(ordered_addAll (ordered_clear t) list).map _, ?_⟩
  intro q d hd
  refine forall_rebuild t (P := fun q d => d.name = q.getLast?.getD []) ?_ ?_ ?_ hd
  · exact h.name [] _ (dataAt_nil t)
  · exact fun f _ q _ _ => rfl
  · exact fun q d e hd _ hname => hname.trans hd

theorem dataAt_root {modified : ℕ} {q : List Name} {d : Info}
    (hd : (root modified).dataAt q = some d) : q = [] ∧ d = ⟨[], [], modified, none⟩ := by
  cases q with
  | nil =>
    cases hd
    exact ⟨rfl, rfl⟩
  | cons k ks => cases hd

theorem shaped_root (modified : ℕ) : Shaped (root modified) := by
  refine ⟨⟨ordered_clear (root modified), ?_⟩, ?_, ?_⟩
  · intro q d hd
    obtain ⟨rfl, rfl⟩ := dataAt_root hd
    rfl
  · intro q d hd
    obtain ⟨rfl, rfl⟩ := dataAt_root hd
    rfl
  · intro q d hd
    obtain ⟨rfl, rfl⟩ := dataAt_root hd
    exact fun _ h => nomatch h

theorem shaped_rebuild {t : Tree} (h : Shaped t) {list : List Entry}
    (hlist : ∀ f ∈ list, Normalised f.path) : Shaped (t.rebuild list) := by
  have hnew : ∀ q d, (t.rebuild list).dataAt q = some d → d.fullPath = walked [] q ∧
      ∀ name ∈ q, name ≠ [] ∧ '/' ∉ name := by
    intro q d hd
    refine forall_rebuild t (P := fun q d => d.fullPath = walked [] q ∧
      ∀ name ∈ q, name ≠ [] ∧ '/' ∉ name) ?_ ?_ ?_ hd
    · exact ⟨h.fullPath [] _ (dataAt_nil t), fun _ hm => nomatch hm⟩
    · intro f hf q hpre _
      refine ⟨rfl, ?_⟩
      intro name hname
      refine ⟨name_ne_nil (hlist f hf) hpre name hname, ?_⟩
      have hpiece := hpre.subset hname
      rw [split_normalised (hlist f hf)] at hpiece
      exact Split.notMem_of_mem_splitOn hpiece
    · exact fun q d e hd hpath _ => ⟨hpath.trans hd.1, hd.2⟩
  exact ⟨keyed_rebuild h.toKeyed list, fun q d hd => (hnew q d hd).1, fun q d hd => (hnew q d hd).2⟩

theorem dataAt_of_sub? {t n : Tree} {q : List Name} (h : t.sub? q = some n) :
    t.dataAt q = some n.data := by
  rw [dataAt, h]
  rfl

theorem Shaped.split_fullPath {t : Tree} (h : Shaped t) {q : List Name} {d : Info}
    (hd : t.dataAt q = some d) : split d.fullPath = q := by
  have hnames := h.names q d hd
  rw [h.fullPath q d hd, walked_eq fun name hm => (hnames name hm).1]
  cases q with
  | nil => rfl
  | cons k ks =>
    refine Split.getlines_intercalate (List.cons_ne_nil k ks) (fun name hm => (hnames name hm).2) ?_
    intro hlast
    exact (hnames [] (List.mem_of_getLast? hlast)).1 rfl

theorem Keyed.child_name {t n : Tree} (h : Keyed t) {dir : List Name} {k : Name}
    (hn : t.sub? (dir ++ [k]) = some n) : n.data.name = k := by
  rw [h.name _ _ (dataAt_of_sub? hn), List.getLast?_concat]
  rfl

theorem Shaped.path_inj {t u : Tree} (ht : Shaped t) (hu : Shaped u) {q r : List Name} {d e : Info}
    (hd : t.dataAt q = some d) (he : u.dataAt r = some e) (h : d.fullPath = e.fullPath) :
      q = r := by
  rw [← ht.split_fullPath hd, h, hu.split_fullPath he]

theorem isLeaf_map (f : Info → Info) (n : Tree) : isLeaf (n.map f) = isLeaf n := by
  unfold isLeaf
  rw [Trie.children_map]
  cases n.children <;> rfl

theorem dir_rebuild_iff (t : Tree) {list : List Entry} (h : WellFormed list) {q : List Name}
    (hq : q ≠ []) : (∃ n, (t.rebuild list).sub? q = some n ∧ isLeaf n = false) ↔
      ∃ f ∈ list, q <+: split f.path ∧ split f.path ≠ q := by
  rw [rebuild, applyMetadata]
  simp only [Trie.sub?_map, Option.map_eq_some_iff]
  constructor
  · rintro ⟨_, ⟨n, hn, rfl⟩, hleaf⟩
    rw [isLeaf_map] at hleaf
    obtain ⟨f, hf, hpre, -⟩ := (listed_of_sub? t h hq hn).latest.some
    refine ⟨f, hf, hpre, ?_⟩
    intro heq
    rw [(isLeaf_iff_file t h hq hn).mpr ⟨f, hf, heq⟩] at hleaf
    cases hleaf
  · rintro ⟨f, hf, hpre, hne⟩
    obtain ⟨n, hn⟩ := sub?_of_below t h hf hq hpre
    refine ⟨_, ⟨n, hn, rfl⟩, ?_⟩
    rw [isLeaf_map, ← Bool.not_eq_true, isLeaf_iff_file t h hq hn]
    rintro ⟨g, hg, rfl⟩
    exact hne (congrArg split (h.apart g hg f hf hpre)).symm

end Tree

/-! ### Rows and children -/

namespace FileList

theorem find?_childrenOf (t : Tree) (dir : List Name) (k : Name) :
    Trie.find? k (childrenOf t dir) = t.sub? (dir ++ [k]) := by
  rw [Trie.sub?_append, childrenOf]
  cases t.sub? dir with
  | none => rfl
  | some n =>
    change Trie.find? k n.children = (Trie.find? k n.children).bind (Trie.sub? [])
    cases Trie.find? k n.children <;> rfl

theorem mem_childrenOf {t : Tree} (h : t.Ordered) {dir : List Name} {k : Name} {n : Tree} :
    (k, n) ∈ childrenOf t dir ↔ t.sub? (dir ++ [k]) = some n := by
  rw [← find?_childrenOf, Trie.find?_eq_some_iff]
  unfold childrenOf
  cases hd : t.sub? dir with
  | none => exact List.Pairwise.nil
  | some d => exact (h.sub hd).sorted

def LeafChild (t : Tree) (dir : List Name) (name : Name) : Prop :=
  ∃ n, t.sub? (dir ++ [name]) = some n ∧ Tree.isLeaf n = true

section
variable {std : StdSort} {p : FileList} (h : p.root.Keyed)

include h

theorem mem_entries {i : Item} : i ∈ p.entries std ↔
    ∃ n, p.root.sub? (p.curDir ++ [i.key]) = some n ∧ item (i.key, n) = i := by
  rw [entries, (std.perm _ _).mem_iff, List.mem_map]
  constructor
  · rintro ⟨⟨k, n⟩, hm, rfl⟩
    exact ⟨n, (mem_childrenOf h.ordered).mp hm, rfl⟩
  · rintro ⟨n, hn, hi⟩
    exact ⟨(i.key, n), (mem_childrenOf h.ordered).mpr hn, hi⟩

theorem mem_rows_iff {r : Row} : r ∈ p.rows std ↔ r = ⟨true, parentDir⟩ ∨
    ∃ n, p.root.sub? (p.curDir ++ [r.name]) = some n ∧ r.dir = !Tree.isLeaf n := by
  rw [rows, List.mem_cons, List.mem_map]
  refine or_congr_right ?_
  constructor
  · rintro ⟨i, hm, rfl⟩
    obtain ⟨n, hn, hi⟩ := (mem_entries h).mp hm
    have hname : i.name = i.key := by
      rw [← hi]
      exact h.child_name hn
    refine ⟨n, ?_, ?_⟩
    · dsimp only
      rw [hname]
      exact hn
    · rw [← hi]
      rfl
  · rintro ⟨n, hn, hdir⟩
    refine ⟨item (r.name, n), (mem_entries h).mpr ⟨n, hn, rfl⟩, ?_⟩
    simp only [item, h.child_name hn, ← hdir]

theorem file_row_iff {name : Name} :
    ⟨false, name⟩ ∈ p.rows std ↔ LeafChild p.root p.curDir name := by
  rw [mem_rows_iff h, LeafChild]
  constructor
  · rintro (he | ⟨n, hn, hleaf⟩)
    · cases he
    · exact ⟨n, hn, by simpa using hleaf.symm⟩
  · rintro ⟨n, hn, hleaf⟩
    exact .inr ⟨n, hn, by rw [hleaf]; rfl⟩

end

/-! ### Coherence -/

def IsDir (t : Tree) (dir : List Name) : Prop :=
  dir = [] ∨ ∃ n, t.sub? dir = some n ∧ Tree.isLeaf n = false

/-- A file of the directory, or none where it has none. -/
def Selected (t : Tree) (dir : List Name) : Option (List Name) → Prop
  | none => ∀ name, ¬ LeafChild t dir name
  | some file => ∃ name, file = dir ++ [name] ∧ LeafChild t dir name

structure Coherent (p : FileList) : Prop where
  dir : IsDir p.root p.curDir
  file : Selected p.root p.curDir p.curFile

section
variable {std : StdSort} {p : FileList} (h : p.root.Keyed)

include h

theorem selected_firstFile : Selected p.root p.curDir (p.firstFile std) := by
  unfold firstFile
  cases hfind : (p.entries std).find? Item.leaf with
  | none =>
    rintro name ⟨n, hn, hleaf⟩
    have hnone := List.find?_eq_none.mp hfind (item (name, n)) ((mem_entries h).mpr ⟨n, hn, rfl⟩)
    exact hnone hleaf
  | some i =>
    obtain ⟨n, hn, hi⟩ := (mem_entries h).mp (List.mem_of_find?_eq_some hfind)
    refine ⟨i.key, rfl, n, hn, ?_⟩
    have hleaf := List.find?_some hfind
    rw [← hi] at hleaf
    exact hleaf

theorem coherent_userAction (hdir : IsDir p.root p.curDir) :
    Coherent (p.showDir std .userAction) := by
  have hshow : p.showDir std .userAction =
      { p with
        fileTable := p.rows std
        curFile := p.firstFile std } := if_neg fun hb => nomatch hb.2
  rw [hshow]
  exact ⟨hdir, selected_firstFile h⟩

/-- The one way out of `show_dir` with no file where there is one. -/
def Skips (std : StdSort) (p : FileList) : Prop :=
  p.curFile = none ∧ p.fileTable = p.rows std ∧ ∃ r ∈ p.fileTable, r.dir = false

theorem coherent_refetch_iff (hdir : IsDir p.root p.curDir)
    (hfile : p.curFile = none ∨ Selected p.root p.curDir p.curFile) :
    Coherent (p.showDir std .refetch) ↔ ¬ Skips std p := by
  unfold showDir Skips
  by_cases hrows : p.fileTable = p.rows std
  · rw [if_pos ⟨hrows, rfl⟩]
    rcases hfile with hnone | hsel
    · constructor
      · rintro hco ⟨-, -, ⟨_, name⟩, hname, rfl⟩
        have hsel := hco.file
        rw [hnone] at hsel
        rw [hrows, file_row_iff h] at hname
        exact hsel name hname
      · intro hskips
        refine ⟨hdir, ?_⟩
        rw [hnone]
        intro name hname
        refine hskips ⟨hnone, hrows, ⟨false, name⟩, ?_, rfl⟩
        rw [hrows, file_row_iff h]
        exact hname
    · refine iff_of_true ⟨hdir, hsel⟩ ?_
      rintro ⟨hnone, -, ⟨_, name⟩, hname, rfl⟩
      rw [hnone] at hsel
      rw [hrows, file_row_iff h] at hname
      exact hsel name hname
  · rw [if_neg fun hb => hrows hb.1]
    refine iff_of_true ⟨hdir, ?_⟩ fun hb => hrows hb.2.1
    dsimp only
    by_cases hnone : p.curFile = none
    · rw [if_pos (.inr hnone)]
      exact selected_firstFile h
    · rw [if_neg fun hb => hnone (hb.resolve_left fun he => nomatch he)]
      exact hfile.resolve_left hnone

end

theorem table_showDir (std : StdSort) (p : FileList) (why : ListChange) :
    (p.showDir std why).fileTable = (p.showDir std why).rows std := by
  unfold showDir
  by_cases hsame : p.fileTable = p.rows std ∧ why = .refetch
  · rw [if_pos hsame]
    exact hsame.1
  · rw [if_neg hsame]
    rfl

theorem showDir_place (std : StdSort) (p : FileList) (why : ListChange) :
    (p.showDir std why).root = p.root ∧ (p.showDir std why).curDir = p.curDir := by
  unfold showDir
  split_ifs <;> exact ⟨rfl, rfl⟩

/-! ### A new list -/

theorem isDir_findPath (t : Tree) (q : List Name) : IsDir t (t.findPath q) := by
  unfold Tree.findPath
  cases hn : t.sub? q with
  | none => exact .inl rfl
  | some n =>
    dsimp only
    cases hleaf : Tree.isLeaf n with
    | true => exact .inl rfl
    | false => exact .inr ⟨n, hn, hleaf⟩

theorem findPath_eq_iff {t : Tree} {q : List Name} : t.findPath q = q ↔ IsDir t q := by
  constructor
  · intro h
    have hdir := isDir_findPath t q
    rwa [h] at hdir
  · rintro (rfl | ⟨n, hn, hleaf⟩)
    · unfold Tree.findPath
      cases t.sub? [] with
      | none => rfl
      | some n => exact ite_self _
    · unfold Tree.findPath
      rw [hn]
      dsimp only
      rw [hleaf]
      rfl

theorem findPath_of_not_isDir {t : Tree} {q : List Name} (h : ¬ IsDir t q) : t.findPath q = [] := by
  unfold Tree.findPath
  cases hn : t.sub? q with
  | none => rfl
  | some n =>
    cases hleaf : Tree.isLeaf n with
    | true => simp [hleaf]
    | false => exact absurd (.inr ⟨n, hn, hleaf⟩) h

theorem keptFile_spec {t : Tree} {dir : List Name} {file : Option Info} {kept : List Name}
    (h : keptFile t dir file = some kept) :
    ∃ d n, file = some d ∧ kept = dir ++ [d.name] ∧ t.sub? (dir ++ [d.name]) = some n ∧
      Tree.isLeaf n = true ∧ n.data.fullPath = d.fullPath := by
  obtain ⟨d, hd, hfound⟩ := Option.bind_eq_some_iff.mp h
  split_ifs at hfound
  obtain ⟨n, hn, hsome⟩ := Option.bind_eq_some_iff.mp hfound
  rw [find?_childrenOf] at hn
  split_ifs at hsome with hleaf
  cases hsome
  exact ⟨d, n, hd, rfl, hn, hleaf.1, hleaf.2⟩

theorem selected_keptFile (t : Tree) (dir : List Name) (file : Option Info) :
    keptFile t dir file = none ∨ Selected t dir (keptFile t dir file) := by
  cases hk : keptFile t dir file with
  | none => exact .inl rfl
  | some kept =>
    obtain ⟨d, n, -, rfl, hn, hleaf, -⟩ := keptFile_spec hk
    exact .inr ⟨d.name, rfl, n, hn, hleaf⟩

section
variable {p : FileList} (h : p.root.Shaped) {t : Tree} (ht : t.Shaped)

include h ht

theorem keptFile_same {file : List Name} (hfile : p.curFile = some file)
    (hsel : Selected p.root p.curDir p.curFile) {name : Name} (heq : file = p.curDir ++ [name])
    (hleaf : LeafChild t p.curDir name) :
    keptFile t p.curDir (p.curFile.bind p.root.dataAt) = some file := by
  rw [hfile] at hsel ⊢
  obtain ⟨other, hother, m, hm, -⟩ := hsel
  rw [← hother] at hm
  obtain ⟨n, hn, hnleaf⟩ := hleaf
  have hname : m.data.name = name := by
    rw [heq] at hm
    exact h.child_name hm
  have hnonempty : name ≠ [] := by
    refine (ht.names _ _ (Tree.dataAt_of_sub? hn) name ?_).1
    exact List.mem_append_right _ (List.mem_singleton_self name)
  have hpath : n.data.fullPath = m.data.fullPath := by
    rw [ht.fullPath _ _ (Tree.dataAt_of_sub? hn), h.fullPath _ _ (Tree.dataAt_of_sub? hm), heq]
  unfold keptFile
  rw [Option.bind_some, Tree.dataAt_of_sub? hm, Option.bind_some, hname, if_neg hnonempty,
    find?_childrenOf, hn, Option.bind_some, if_pos ⟨hnleaf, hpath⟩, heq]

theorem keptFile_moved {dir : List Name} (hdir : dir ≠ p.curDir)
    (hsel : Selected p.root p.curDir p.curFile) :
    keptFile t dir (p.curFile.bind p.root.dataAt) = none := by
  cases hk : keptFile t dir (p.curFile.bind p.root.dataAt) with
  | none => rfl
  | some kept =>
    obtain ⟨d, n, hd, -, hn, -, hpath⟩ := keptFile_spec hk
    obtain ⟨file, hfile, hd⟩ := Option.bind_eq_some_iff.mp hd
    rw [hfile] at hsel
    obtain ⟨name, rfl, -⟩ := hsel
    have heq := ht.path_inj h (Tree.dataAt_of_sub? hn) hd hpath
    exact absurd (List.append_inj_left' heq rfl) hdir

end

/-- The panel with the new tree, before the table. -/
def relisted (p : FileList) (list : List Entry) : FileList :=
  { p with
    root := p.root.rebuild list
    curDir := (p.root.rebuild list).findPath p.curDir
    curFile := keptFile (p.root.rebuild list) ((p.root.rebuild list).findPath p.curDir)
      (p.curFile.bind p.root.dataAt) }

theorem handleList_eq (std : StdSort) {p : FileList} (h : p.root.Shaped)
    (hdir : IsDir p.root p.curDir) (list : List Entry) :
    p.handleList std list = (p.relisted list).showDir std .refetch := by
  have hdata : ∃ d, p.root.dataAt p.curDir = some d := by
    rcases hdir with hroot | ⟨n, hn, -⟩
    · rw [hroot]
      exact ⟨_, rfl⟩
    · exact ⟨_, Tree.dataAt_of_sub? hn⟩
  obtain ⟨d, hd⟩ := hdata
  unfold handleList relisted
  simp only [hd, Option.map_some, Option.getD_some, h.split_fullPath hd]

/-- The directory on screen is gone: the list has no file below it. -/
def Gone (p : FileList) (list : List Entry) : Prop :=
  p.curDir ≠ [] ∧ ∀ f ∈ list, p.curDir <+: split f.path → split f.path = p.curDir

/-- It is gone, and the rows on screen, a file among them, are those of the new root. -/
def Trapped (std : StdSort) (p : FileList) (list : List Entry) : Prop :=
  p.Gone list ∧
    p.fileTable = { p with root := p.root.rebuild list, curDir := [] }.rows std ∧
    ∃ r ∈ p.fileTable, r.dir = false

instance (p : FileList) (list : List Entry) : Decidable (p.Gone list) :=
  inferInstanceAs (Decidable (_ ∧ ∀ f ∈ list, _ → _))

instance (std : StdSort) (p : FileList) (list : List Entry) : Decidable (Trapped std p list) :=
  inferInstanceAs (Decidable (_ ∧ _ ∧ ∃ r ∈ p.fileTable, _))

theorem gone_iff {p : FileList} {list : List Entry} (h : Tree.WellFormed list) :
    p.Gone list ↔ ¬ IsDir (p.root.rebuild list) p.curDir := by
  unfold Gone IsDir
  by_cases hroot : p.curDir = []
  · exact iff_of_false (fun hg => hg.1 hroot) fun hd => hd (.inl hroot)
  · rw [Tree.dir_rebuild_iff p.root h hroot]
    constructor
    · rintro ⟨-, hall⟩ (hnil | ⟨f, hf, hpre, hne⟩)
      · exact hroot hnil
      · exact hne (hall f hf hpre)
    · intro hnot
      refine ⟨hroot, ?_⟩
      intro f hf hpre
      by_contra hne
      exact hnot (.inr ⟨f, hf, hpre, hne⟩)

/-- Between events: the tree is named by its paths, the table is empty or shows the
directory. -/
structure Placed (std : StdSort) (p : FileList) : Prop where
  shaped : p.root.Shaped
  synced : p.fileTable = [] ∨ p.fileTable = p.rows std
  dir : IsDir p.root p.curDir

/-- And the selection is in it. -/
structure Inv (std : StdSort) (p : FileList) : Prop extends Placed std p where
  file : Selected p.root p.curDir p.curFile

theorem Inv.coherent {std : StdSort} {p : FileList} (h : Inv std p) : p.Coherent := ⟨h.dir, h.file⟩

section
variable {std : StdSort} {p : FileList} (h : Inv std p) {list : List Entry}
  (hlist : Tree.WellFormed list)

include h hlist

theorem shaped_relisted : (p.relisted list).root.Shaped :=
  Tree.shaped_rebuild h.shaped hlist.normalised

theorem kept_of_same_rows (hdir : IsDir (p.root.rebuild list) p.curDir)
    (htable : p.fileTable = (p.relisted list).rows std) {name : Name}
    (hname : ⟨false, name⟩ ∈ p.fileTable) : (p.relisted list).curFile ≠ none := by
  have hplace : (p.root.rebuild list).findPath p.curDir = p.curDir := findPath_eq_iff.mpr hdir
  have hold : ∀ name, ⟨false, name⟩ ∈ p.fileTable ↔ LeafChild p.root p.curDir name := by
    intro name
    have hrows : p.fileTable = p.rows std := by
      refine h.synced.resolve_left ?_
      intro hnil
      rw [hnil] at hname
      cases hname
    rw [hrows]
    exact file_row_iff h.shaped.toKeyed
  have hnew : ∀ name, ⟨false, name⟩ ∈ p.fileTable ↔
      LeafChild (p.root.rebuild list) p.curDir name := by
    intro name
    have hrow : ⟨false, name⟩ ∈ (p.relisted list).rows std ↔
        LeafChild (p.root.rebuild list) ((p.root.rebuild list).findPath p.curDir) name :=
      file_row_iff (shaped_relisted h hlist).toKeyed
    rw [htable, hrow, hplace]
  cases hfile : p.curFile with
  | none =>
    have hsel := h.file
    rw [hfile] at hsel
    exact absurd ((hold name).mp hname) (hsel name)
  | some file =>
    have hsel := h.file
    rw [hfile] at hsel
    obtain ⟨chosen, heq, hchosen⟩ := hsel
    have hstays := (hnew chosen).mp ((hold chosen).mpr hchosen)
    have hkept := keptFile_same h.shaped (shaped_relisted h hlist) hfile h.file heq hstays
    unfold relisted
    dsimp only
    rw [hplace]
    intro hnone
    exact nomatch hkept.symm.trans hnone

theorem skips_relisted_iff : Skips std (p.relisted list) ↔ Trapped std p list := by
  have hroot : p.Gone list → (p.root.rebuild list).findPath p.curDir = [] :=
    fun hgone => findPath_of_not_isDir ((gone_iff hlist).mp hgone)
  have hrows : p.Gone list → (p.relisted list).rows std =
      { p with root := p.root.rebuild list, curDir := [] }.rows std := by
    intro hgone
    simp only [rows, entries, relisted, hroot hgone]
  constructor
  · rintro ⟨hnone, htable, ⟨_, name⟩, hname, rfl⟩
    have hgone : p.Gone list := by
      rw [gone_iff hlist]
      intro hdir
      exact kept_of_same_rows h hlist hdir htable hname hnone
    exact ⟨hgone, htable.trans (hrows hgone), ⟨false, name⟩, hname, rfl⟩
  · rintro ⟨hgone, htable, hfile⟩
    refine ⟨?_, htable.trans (hrows hgone).symm, hfile⟩
    unfold relisted
    dsimp only
    rw [hroot hgone]
    exact keptFile_moved h.shaped (shaped_relisted h hlist) hgone.1.symm h.file

theorem coherent_handleList_iff :
    Coherent (p.handleList std list) ↔ ¬ Trapped std p list := by
  rw [handleList_eq std h.shaped h.dir, ← skips_relisted_iff h hlist]
  exact coherent_refetch_iff (shaped_relisted h hlist).toKeyed (isDir_findPath _ _)
    (selected_keptFile _ _ _)

/-- After a list, a selected file whose directory stays and still has it stays selected. -/
theorem handleList_keeps {file : List Name} {d : Info} (hfile : p.curFile = some file)
    (hd : p.root.dataAt file = some d) (hdir : (p.handleList std list).curDir = p.curDir)
    {name : Name} {n : Tree}
    (hn : (p.handleList std list).root.sub? ((p.handleList std list).curDir ++ [name]) = some n)
    (hleaf : Tree.isLeaf n = true) (hpath : n.data.fullPath = d.fullPath) :
    (p.handleList std list).curFile = some file := by
  rw [handleList_eq std h.shaped h.dir] at hdir hn ⊢
  obtain ⟨hroot, hplace⟩ := showDir_place std (p.relisted list) .refetch
  rw [hplace] at hdir
  rw [hroot, hplace, hdir] at hn
  have heq := (shaped_relisted h hlist).path_inj h.shaped (Tree.dataAt_of_sub? hn) hd hpath
  have hkept : (p.relisted list).curFile = some file := by
    change keptFile _ (p.relisted list).curDir _ = some file
    rw [hdir]
    exact keptFile_same h.shaped (shaped_relisted h hlist) hfile h.file heq.symm
      ⟨n, hn, hleaf⟩
  have hshow : ((p.relisted list).showDir std .refetch).curFile = (p.relisted list).curFile := by
    unfold showDir
    by_cases hsame : (p.relisted list).fileTable = (p.relisted list).rows std ∧
        ListChange.refetch = .refetch
    · rw [if_pos hsame]
    · rw [if_neg hsame]
      refine if_neg ?_
      rintro (he | hnone)
      · cases he
      · exact nomatch hkept.symm.trans hnone
  exact hshow.trans hkept

end

/-! ### Taps and buttons -/

theorem inv_userAction {std : StdSort} {p : FileList} (h : p.root.Shaped)
    (hdir : IsDir p.root p.curDir) : Inv std (p.showDir std .userAction) := by
  have hco : Coherent (p.showDir std .userAction) := coherent_userAction h.toKeyed hdir
  refine ⟨⟨?_, .inr (table_showDir std p .userAction), hco.dir⟩, hco.file⟩
  rw [(showDir_place std p .userAction).1]
  exact h

theorem isDir_dropLast {t : Tree} {dir : List Name} (h : IsDir t dir) : IsDir t dir.dropLast := by
  rcases h with rfl | ⟨n, hn, -⟩
  · exact .inl rfl
  · by_cases hnil : dir = []
    · rw [hnil]
      exact .inl rfl
    · rw [← List.dropLast_append_getLast hnil, Trie.sub?_append] at hn
      obtain ⟨m, hm, hchild⟩ := Option.bind_eq_some_iff.mp hn
      refine .inr ⟨m, hm, ?_⟩
      rw [← Bool.not_eq_true, Tree.isLeaf_iff hm]
      intro hnone
      have hlast := hnone (dir.getLast hnil)
      rw [Tree.dataAt, Trie.sub?_append, hm, Option.bind_some, hchild] at hlast
      cases hlast

theorem handleCallback_cases {std : StdSort} {p : FileList} (h : Placed std p) (row : ℕ) :
    p.handleCallback std row = p ∨
      (∃ dir, IsDir p.root dir ∧
        p.handleCallback std row = { p with curDir := dir }.showDir std .userAction) ∨
      ∃ name, LeafChild p.root p.curDir name ∧
        p.handleCallback std row = { p with curFile := some (p.curDir ++ [name]) } := by
  unfold handleCallback
  cases hrow : p.fileTable[row]? with
  | none => exact .inl rfl
  | some r =>
    have hmem : r ∈ p.rows std := by
      have hr := List.mem_of_getElem? hrow
      rcases h.synced with hnil | hrows
      · rw [hnil] at hr
        cases hr
      · rwa [← hrows]
    have hup : IsDir p.root p.curDir.dropLast := isDir_dropLast h.dir
    have hchild : p.getChild r.name =
        (p.root.sub? (p.curDir ++ [r.name])).map fun _ => p.curDir ++ [r.name] := by
      rw [getChild, find?_childrenOf]
    dsimp only
    rcases (mem_rows_iff h.shaped.toKeyed).mp hmem with rfl | ⟨n, hn, hkind⟩
    · rw [if_pos rfl, if_pos rfl]
      split_ifs
      · exact .inl rfl
      · exact .inr (.inl ⟨_, hup, rfl⟩)
    · rw [hchild, hn, Option.map_some]
      by_cases hdir : r.dir = true
      · have hleaf : Tree.isLeaf n = false := by
          rw [hdir] at hkind
          simpa using hkind.symm
        rw [if_pos hdir]
        split_ifs
        · exact .inl rfl
        · exact .inr (.inl ⟨_, hup, rfl⟩)
        · exact .inr (.inl ⟨_, .inr ⟨n, hn, hleaf⟩, rfl⟩)
      · have hleaf : Tree.isLeaf n = true := by
          rw [Bool.not_eq_true] at hdir
          rw [hdir] at hkind
          simpa using hkind.symm
        rw [if_neg hdir]
        split_ifs
        · exact .inr (.inr ⟨r.name, ⟨n, hn, hleaf⟩, rfl⟩)
        · exact .inl rfl

theorem placed_handleCallback {std : StdSort} {p : FileList} (h : Placed std p) (row : ℕ) :
    Placed std (p.handleCallback std row) := by
  rcases handleCallback_cases h row with he | ⟨dir, hdir, he⟩ | ⟨name, -, he⟩
  · rw [he]
    exact h
  · rw [he]
    exact (inv_userAction (p := { p with curDir := dir }) h.shaped hdir).toPlaced
  · rw [he]
    exact ⟨h.shaped, h.synced, h.dir⟩

theorem inv_handleCallback {std : StdSort} {p : FileList} (h : Inv std p) (row : ℕ) :
    Inv std (p.handleCallback std row) := by
  refine ⟨placed_handleCallback h.toPlaced row, ?_⟩
  rcases handleCallback_cases h.toPlaced row with he | ⟨dir, hdir, he⟩ | ⟨name, hname, he⟩
  · rw [he]
    exact h.file
  · rw [he]
    exact (inv_userAction (p := { p with curDir := dir }) h.shaped hdir).file
  · rw [he]
    exact ⟨name, rfl, hname⟩

theorem inv_handleSort {std : StdSort} {p : FileList} (h : Placed std p) (column : SortColumn)
    (natural : Bool) : Inv std (p.handleSort std column natural) :=
  inv_userAction h.shaped h.dir

/-! ### Every run -/

/-- After a list the selection is kept where the directory is unchanged and still has
a file with its full path. -/
def Keeps (std : StdSort) (p : FileList) : ListEvent → Prop
  | .list list => ∀ file d name n, p.curFile = some file → p.root.dataAt file = some d →
      (p.handleList std list).curDir = p.curDir →
      (p.handleList std list).root.sub? ((p.handleList std list).curDir ++ [name]) = some n →
      Tree.isLeaf n = true → n.data.fullPath = d.fullPath →
      (p.handleList std list).curFile = some file
  | _ => True

/-- The condition on one event. -/
def Settles (std : StdSort) (p : FileList) : ListEvent → Prop
  | .list list => ¬ Trapped std p list
  | _ => True

instance (std : StdSort) (p : FileList) : (e : ListEvent) → Decidable (Settles std p e)
  | .list list => inferInstanceAs (Decidable (¬ Trapped std p list))
  | .tap _ | .modifiedSortBtn | .azSortBtn => .isTrue trivial

theorem placed_handleList {std : StdSort} {p : FileList} (h : Placed std p) {list : List Entry}
    (hlist : Tree.WellFormed list) : Placed std (p.handleList std list) := by
  rw [handleList_eq std h.shaped h.dir]
  obtain ⟨hroot, hdir⟩ := showDir_place std (p.relisted list) .refetch
  refine ⟨?_, .inr (table_showDir std _ .refetch), ?_⟩
  · rw [hroot]
    exact Tree.shaped_rebuild h.shaped hlist.normalised
  · rw [hroot, hdir]
    exact isDir_findPath _ _

theorem inv_handleList {std : StdSort} {p : FileList} (h : Inv std p) {list : List Entry}
    (hlist : Tree.WellFormed list) (hsettles : ¬ Trapped std p list) :
    Inv std (p.handleList std list) :=
  ⟨placed_handleList h.toPlaced hlist, ((coherent_handleList_iff h hlist).mpr hsettles).file⟩

theorem inv_start (std : StdSort) : Inv std {} := by
  refine ⟨⟨Tree.shaped_root 0, .inl rfl, .inl rfl⟩, ?_⟩
  rintro name ⟨n, hn, -⟩
  cases hn

end FileList

def ListEvent.WellFormed : ListEvent → Prop
  | .list files => Tree.WellFormed files
  | _ => True

instance : (e : ListEvent) → Decidable e.WellFormed
  | .list files => inferInstanceAs (Decidable (Tree.WellFormed files))
  | .tap _ | .modifiedSortBtn | .azSortBtn => .isTrue trivial

namespace FileList

theorem inv_step {std : StdSort} {p : FileList} {e : ListEvent} (h : Inv std p)
    (hwf : e.WellFormed) (hsettles : Settles std p e) : Inv std (p.step std e) := by
  cases e with
  | list list => exact inv_handleList h hwf hsettles
  | tap row => exact inv_handleCallback h row
  | modifiedSortBtn => exact inv_handleSort h.toPlaced .modified true
  | azSortBtn => exact inv_handleSort h.toPlaced .name false

/-- The selection is coherent all along a run exactly if no list takes the directory on
screen away and leaves its rows, a file among them, as those of the root. -/
theorem coherent_in_every_run_iff (std : StdSort) (events : List ListEvent)
    (hwf : ∀ e ∈ events, e.WellFormed) :
    Along (step std) (fun p e => Coherent (p.step std e) ∧ Keeps std p e) {} events ↔
      Along (step std) (Settles std) {} events := by
  refine along_iff (I := Inv std) (C := fun _ e => e.WellFormed) ?_ ?_ _ _ (inv_start std)
    (along_of_forall _ hwf)
  · intro p e hinv he hsettles
    exact inv_step hinv he hsettles
  · intro p e hinv he
    cases e with
    | list list =>
      have hkeeps : Keeps std p (.list list) := by
        intro file d name n hfile hd hdir hn hleaf hpath
        exact handleList_keeps hinv he hfile hd hdir hn hleaf hpath
      exact (and_iff_left hkeeps).trans (coherent_handleList_iff hinv he)
    | tap row => exact iff_of_true ⟨(inv_handleCallback hinv row).coherent, trivial⟩ trivial
    | modifiedSortBtn =>
      exact iff_of_true ⟨(inv_handleSort hinv.toPlaced .modified true).coherent, trivial⟩ trivial
    | azSortBtn =>
      exact iff_of_true ⟨(inv_handleSort hinv.toPlaced .name false).coherent, trivial⟩ trivial

/-- An insertion sort, for an order that is fixed. -/
def insertionSort : StdSort where
  sort less l := l.insertionSort fun a b => less b a = false
  perm _ l := List.perm_insertionSort _ l

def onlyIn (dir : Name) : List Entry := [⟨dir ++ ['x'], 1⟩]

/-- Open the directory; a list takes it away. -/
def goneRun (list : List Entry) : List ListEvent := [.list (onlyIn ['u', '/']), .tap 1, .list list]

theorem coherent_in_goneRun :
    (run (step insertionSort) {} (goneRun [⟨['y'], 2⟩])).curFile =
        some [['y']] ∧
      Along (step insertionSort) (fun p e => Coherent (p.step insertionSort e) ∧
        Keeps insertionSort p e) {} (goneRun [⟨['y'], 2⟩]) :=
  ⟨by decide +kernel,
    (coherent_in_every_run_iff insertionSort _ (by decide +kernel)).mpr (by decide +kernel)⟩

/-- The root has a file of the same name: the rows are the same and nothing is selected. -/
theorem nothing_selected_in_goneRun :
    ¬ ∀ (std : StdSort) (events : List ListEvent), (∀ e ∈ events, e.WellFormed) →
      Along (step std) (fun p e => Coherent (p.step std e) ∧ Keeps std p e) {} events := by
  intro h
  obtain ⟨-, -, ⟨hco, -⟩, -⟩ := h insertionSort (goneRun (onlyIn [])) (by decide +kernel)
  have hnone : (run (step insertionSort) {} (goneRun (onlyIn []))).curFile = none := by
    decide +kernel
  have hleaf : ((run (step insertionSort) {} (goneRun (onlyIn []))).root.sub?
      [['x']]).map Tree.isLeaf = some true := by
    decide +kernel
  have hroot : (run (step insertionSort) {} (goneRun (onlyIn []))).curDir = [] := by
    decide +kernel
  have hsel : Selected (run (step insertionSort) {} (goneRun (onlyIn []))).root
      (run (step insertionSort) {} (goneRun (onlyIn []))).curDir
      (run (step insertionSort) {} (goneRun (onlyIn []))).curFile := hco.file
  rw [hnone, hroot] at hsel
  obtain ⟨n, hn, htrue⟩ := Option.map_eq_some_iff.mp hleaf
  exact hsel ['x'] ⟨n, hn, htrue⟩

end FileList

end GuppyScreen.PrintPanel
