import GuppyScreen.PrintPanel.Selection

/-!
# The order of the list (tree.h, print_panel.cpp)

Moonraker lists the files in no fixed order. Neither the tree nor the table
depends on it.
-/

namespace GuppyScreen.PrintPanel
open Lib Run

namespace Tree

/-! ### Trees without their metadata -/

def strip (d : Info) : Info := { d with metadata := none }

theorem strip_applyEntry (cache : Cache) (d : Info) : strip (applyEntry cache d) = strip d := by
  obtain ⟨o, ho⟩ := applyEntry_eq cache d
  rw [ho]
  rfl

/-- Below the root, what a table can show of two trees is the same. -/
def SameOutline (t u : Tree) : Prop := (t.map strip).children = (u.map strip).children

theorem children_eq_of_dataAt {t u : Tree} (ht : t.Ordered) (hu : u.Ordered)
    (h : ∀ q, q ≠ [] → t.dataAt q = u.dataAt q) : t.children = u.children := by
  have heq : Trie.node t.data t.children = .node t.data u.children := by
    refine Trie.ext_of_sub? (.node ht.sorted ht.child) (.node hu.sorted hu.child) ?_
    intro q
    cases q with
    | nil => rfl
    | cons k ks =>
      have hk := h (k :: ks) (List.cons_ne_nil k ks)
      exact hk
  injection heq

theorem dataAt_strip_rebuild (t : Tree) {list : List Entry} (h : WellFormed list) {q : List Name}
    (hq : q ≠ []) : dataAt ((t.rebuild list).map strip) q = (t.clear.addAll list).dataAt q := by
  rw [dataAt_map, dataAt_rebuild, Option.map_map]
  cases hd : (t.clear.addAll list).dataAt q with
  | none => rfl
  | some d =>
    have hbare := ((dataAt_addAll t h hq d).mp hd).bare
    rw [Option.map_some, Function.comp_apply, strip_applyEntry, strip, ← hbare]

/-- The tree of a list depends on its files only, not on the tree before. -/
theorem sameOutline_rebuild (t u : Tree) {list other : List Entry} (h : WellFormed list)
    (hp : list.Perm other) : SameOutline (t.rebuild list) (u.rebuild other) := by
  refine children_eq_of_dataAt ?_ ?_ ?_
  · exact ((ordered_addAll (ordered_clear t) list).map _).map _
  · exact ((ordered_addAll (ordered_clear u) other).map _).map _
  · intro q hq
    rw [dataAt_strip_rebuild t h hq, dataAt_strip_rebuild u (h.perm hp) hq, addAll_perm t h hp]
    apply Option.ext
    intro d
    rw [dataAt_addAll t (h.perm hp) hq, dataAt_addAll u (h.perm hp) hq]

theorem SameOutline.sub? {t u : Tree} (h : SameOutline t u) {q : List Name} (hq : q ≠ []) :
    (t.map strip).sub? q = (u.map strip).sub? q := by
  cases q with
  | nil => exact absurd rfl hq
  | cons k ks =>
    rw [Trie.sub?, Trie.sub?, h]

end Tree

namespace FileList

theorem items_strip (t : Tree) (dir : List Name) :
    (childrenOf t dir).map item = (childrenOf (t.map Tree.strip) dir).map item := by
  unfold childrenOf
  rw [Trie.sub?_map]
  cases t.sub? dir with
  | none => rfl
  | some n =>
    simp only [Option.map_some, Option.getD_some, Trie.children_map, List.map_map]
    refine List.map_congr_left ?_
    intro c _
    simp only [Function.comp_apply, item, Tree.isLeaf_map, Trie.data_map]
    rfl

theorem items_same {t u : Tree} (h : t.SameOutline u) (dir : List Name) :
    (childrenOf t dir).map item = (childrenOf u dir).map item := by
  rw [items_strip, items_strip u]
  congr 1
  unfold childrenOf
  cases dir with
  | nil => exact h
  | cons k ks => rw [h.sub? (List.cons_ne_nil k ks)]

theorem isDir_strip (t : Tree) (dir : List Name) : IsDir (t.map Tree.strip) dir ↔ IsDir t dir := by
  unfold IsDir
  refine or_congr_right ?_
  simp only [Trie.sub?_map, Option.map_eq_some_iff]
  constructor
  · rintro ⟨_, ⟨n, hn, rfl⟩, hleaf⟩
    exact ⟨n, hn, (Tree.isLeaf_map _ n).symm.trans hleaf⟩
  · rintro ⟨n, hn, hleaf⟩
    exact ⟨_, ⟨n, hn, rfl⟩, (Tree.isLeaf_map _ n).trans hleaf⟩

theorem isDir_same {t u : Tree} (h : t.SameOutline u) {dir : List Name} (hdir : IsDir t dir) :
    IsDir u dir := by
  by_cases hroot : dir = []
  · exact .inl hroot
  · rw [← isDir_strip] at hdir ⊢
    rwa [IsDir, ← h.sub? hroot]

/-! ### A refetch -/

/-- A table that shows the tree of a list is left alone by a list of the same files. -/
theorem refetch_same {std : StdSort} {p : FileList} (h : Placed std p)
    (hshown : p.fileTable = p.rows std) {t : Tree} {list other : List Entry}
    (hroot : p.root = t.rebuild list) (hlist : Tree.WellFormed list) (hp : list.Perm other) :
    (p.handleList std other).fileTable = p.fileTable := by
  have hsame : p.root.SameOutline (p.root.rebuild other) := by
    have ht := Tree.sameOutline_rebuild t p.root hlist hp
    rwa [← hroot] at ht
  have hplace : (p.root.rebuild other).findPath p.curDir = p.curDir :=
    findPath_eq_iff.mpr (isDir_same hsame h.dir)
  have hrows : (p.relisted other).rows std = p.rows std := by
    simp only [rows, entries, relisted, hplace, items_same hsame p.curDir]
  rw [handleList_eq std h.shaped h.dir, showDir, if_pos]
  · rfl
  · exact ⟨hshown.trans hrows.symm, rfl⟩

end FileList

def ListEvent.isList : ListEvent → Bool
  | .list _ => true
  | _ => false

namespace FileList

theorem placed_step {std : StdSort} {p : FileList} {e : ListEvent} (h : Placed std p)
    (hwf : e.WellFormed) : Placed std (p.step std e) := by
  cases e with
  | list files => exact placed_handleList h hwf
  | tap row => exact placed_handleCallback h row
  | modifiedSortBtn => exact (inv_handleSort h .modified true).toPlaced
  | azSortBtn => exact (inv_handleSort h .name false).toPlaced

theorem quiet_step {std : StdSort} {p : FileList} {e : ListEvent} (h : Placed std p)
    (hshown : p.fileTable = p.rows std) (hquiet : e.isList = false) :
    (p.step std e).root = p.root ∧ (p.step std e).fileTable = (p.step std e).rows std := by
  cases e with
  | list files => cases hquiet
  | tap row =>
    rcases handleCallback_cases h row with he | ⟨dir, -, he⟩ | ⟨name, -, he⟩
    · rw [step, he]
      exact ⟨rfl, hshown⟩
    · rw [step, he]
      exact ⟨(showDir_place std _ .userAction).1, table_showDir std _ .userAction⟩
    · rw [step, he]
      exact ⟨rfl, hshown⟩
  | modifiedSortBtn =>
    exact ⟨(showDir_place std _ .userAction).1, table_showDir std _ .userAction⟩
  | azSortBtn => exact ⟨(showDir_place std _ .userAction).1, table_showDir std _ .userAction⟩

theorem refetch_same_in_every_run (std : StdSort) {before after : List ListEvent}
    (hbefore : ∀ e ∈ before, e.WellFormed) (hafter : ∀ e ∈ after, e.isList = false)
    {list other : List Entry} (h : Tree.WellFormed list) (hp : list.Perm other) :
    ((run (step std) {} (before ++ .list list :: after)).handleList std other).fileTable =
      (run (step std) {} (before ++ .list list :: after)).fileTable := by
  have hstart : Placed std (run (step std) {} before) :=
    invariant (C := fun _ e => e.WellFormed) (fun p e hp he => placed_step hp he) {} before
      (inv_start std).toPlaced (along_of_forall _ hbefore)
  rw [run_append, run_cons]
  generalize run (step std) {} before = p at hstart ⊢
  have hlisted : Placed std (p.step std (.list list)) := placed_step hstart h
  have hroot : (p.step std (.list list)).root = p.root.rebuild list := by
    simp only [step]
    rw [handleList_eq std hstart.shaped hstart.dir, (showDir_place std _ .refetch).1]
    rfl
  have hshown : (p.step std (.list list)).fileTable = (p.step std (.list list)).rows std := by
    simp only [step]
    rw [handleList_eq std hstart.shaped hstart.dir]
    exact table_showDir std _ .refetch
  have hkeep : ∀ q e, (Placed std q ∧ q.root = p.root.rebuild list ∧ q.fileTable = q.rows std) →
      e.isList = false → Placed std (q.step std e) ∧ (q.step std e).root = p.root.rebuild list ∧
        (q.step std e).fileTable = (q.step std e).rows std := by
    rintro q e ⟨hplaced, hq, hrows⟩ hquiet
    have hwf : e.WellFormed := by
      cases e with
      | list files => cases hquiet
      | _ => trivial
    obtain ⟨hsame, htable⟩ := quiet_step hplaced hrows hquiet
    exact ⟨placed_step hplaced hwf, hsame.trans hq, htable⟩
  obtain ⟨hplaced, hq, hrows⟩ := invariant hkeep (p.step std (.list list)) after
    ⟨hlisted, hroot, hshown⟩ (along_of_forall _ hafter)
  exact refetch_same hplaced hrows hq h hp

end FileList

/-! ### Every order -/

namespace Tree

/-- Whatever the order of the files, the tree is the same: its leaves are the files, a
directory has the path of its names and the latest time below it. So a list in another
order gives the same rows, and as a refetch it leaves the rows on screen. -/
theorem order_independent (modified : ℕ) {list other : List Entry} (h : WellFormed list)
    (hp : list.Perm other) :
    (root modified).addAll list = (root modified).addAll other ∧
      (∀ f ∈ list, ∃ n, ((root modified).addAll list).sub? (split f.path) = some n ∧
        isLeaf n = true ∧ n.data.fullPath = f.path ∧ n.data.dateModified = f.modified) ∧
      (∀ q n, q ≠ [] → ((root modified).addAll list).sub? q = some n →
        (isLeaf n = true ↔ ∃ f ∈ list, split f.path = q) ∧
        n.data.fullPath = ['/'].intercalate q ∧
        (∃ f ∈ list, q <+: split f.path ∧ f.modified = n.data.dateModified) ∧
        ∀ f ∈ list, q <+: split f.path → f.modified ≤ n.data.dateModified) ∧
      (∀ (std : StdSort) (p : FileList),
        (p.handleList std list).fileTable = (p.handleList std other).fileTable) ∧
      ∀ (std : StdSort) (before after : List ListEvent), (∀ e ∈ before, e.WellFormed) →
        (∀ e ∈ after, e.isList = false) →
        ((run (FileList.step std) {} (before ++
          .list list :: after)).handleList std other).fileTable =
          (run (FileList.step std) {} (before ++ .list list :: after)).fileTable := by
  have hsame : ∀ t : Tree, t.rebuild list = t.rebuild other := by
    intro t
    rw [rebuild, rebuild, addAll_perm t h hp]
  refine ⟨addAll_perm (root modified) h hp, ?_, ?_, ?_, ?_⟩
  · intro f hf
    have hne := split_ne_nil (h.normalised f hf)
    obtain ⟨n, hn⟩ := sub?_of_below (root modified) h hf hne List.prefix_rfl
    have hleaf := (isLeaf_iff_file (root modified) h hne hn).mpr ⟨f, hf, rfl⟩
    exact ⟨n, hn, hleaf, file_data (root modified) h hf hn⟩
  · intro q n hq hn
    have hlatest := (listed_of_sub? (root modified) h hq hn).latest
    exact ⟨isLeaf_iff_file (root modified) h hq hn, fullPath_eq (root modified) h hq hn,
      hlatest.some, hlatest.all⟩
  · intro std p
    simp only [FileList.handleList, hsame]
  · intro std before after hbefore hafter
    exact FileList.refetch_same_in_every_run std hbefore hafter h hp

theorem order_independent_of_two :
    (root 0).addAll [⟨['u', '/', 'x'], 5⟩, ⟨['u', '/', 'y'], 7⟩] =
        (root 0).addAll [⟨['u', '/', 'y'], 7⟩, ⟨['u', '/', 'x'], 5⟩] ∧
      ((root 0).addAll [⟨['u', '/', 'x'], 5⟩, ⟨['u', '/', 'y'], 7⟩]).dataAt [['u']] =
        some ⟨['u'], ['u'], 7, none⟩ :=
  ⟨(order_independent 0 (by decide +kernel) (.swap _ _ [])).1, by decide +kernel⟩

end Tree

end GuppyScreen.PrintPanel
