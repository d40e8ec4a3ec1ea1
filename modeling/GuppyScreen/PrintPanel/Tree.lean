import GuppyScreen.Lib.Json
import GuppyScreen.Lib.Split
import GuppyScreen.Lib.StdMap
import GuppyScreen.Lib.Trie
import Mathlib.Data.Char
import Mathlib.Data.List.Induction
import Mathlib.Data.List.Lex

/-!
# The file tree (tree.h)

`Tree` holds the files of the gcodes root. A file is a node without children.
The reference a walk goes on with is the rest of the walk here, and `parent` is
the path to a node without its last name.
-/

namespace GuppyScreen.PrintPanel
open Lib

abbrev Name : Type := List Char

structure Info where
  name : Name
  fullPath : Name
  dateModified : ℕ
  -- `none` is a false `has_metadata`.
  metadata : Option Json := none
  deriving DecidableEq

abbrev Tree : Type := Trie Name Info

/-- A file of the list: its path below gcodes and its time. -/
structure Entry where
  path : Name
  modified : ℕ
  deriving DecidableEq

/-- `KUtils::split` at slashes. -/
def split (path : Name) : List Name := Split.getlines '/' path

namespace Tree

def new (filename path : Name) (modified : ℕ) : Tree := .node ⟨filename, path, modified, none⟩ []

def isLeaf (t : Tree) : Bool := t.children.isEmpty

def touch (modified : ℕ) (d : Info) : Info :=
  if modified > d.dateModified then { d with dateModified := modified } else d

/-- `rest` is what the caller does with the child. -/
def findOrCreate (value path : Name) (modified : ℕ) (rest : Tree → Tree) (t : Tree) : Tree :=
  .node (touch modified t.data)
    (Trie.upsert (fun child => rest (child.getD (new value path modified))) value t.children)

def grow (curPath p : Name) : Name := if curPath.length > 0 then curPath ++ '/' :: p else p

/-- The loop of `add_path`, at `cur_node`. -/
def addFrom (modified : ℕ) (curPath : Name) : List Name → Tree → Tree
  | [], t => t
  | p :: ps, t =>
    t.findOrCreate p (grow curPath p) modified (addFrom modified (grow curPath p) ps)

def addPath (paths : List Name) (modified : ℕ) (t : Tree) : Tree := addFrom modified [] paths t

def clear (t : Tree) : Tree := .node t.data []

/-- The loop of `subscribe` over the list. -/
def addAll (t : Tree) (list : List Entry) : Tree :=
  list.foldl (fun t f => t.addPath (split f.path) f.modified) t

abbrev Cache : Type := StdMap Name (ℕ × Json)

def note (out : Cache) (d : Info) : Cache :=
  match d.metadata with
  | some j => out.insertNew d.fullPath (d.dateModified, j)
  | none => out

/-- A node first, then its children in order. -/
def collectMetadata (t : Tree) (out : Cache) : Cache := t.nodes.foldl note out

def applyEntry (cache : Cache) (d : Info) : Info :=
  match cache.lookup d.fullPath with
  | some (date, j) => if date = d.dateModified then { d with metadata := some j } else d
  | none => d

def applyMetadata (cache : Cache) (t : Tree) : Tree := t.map (applyEntry cache)

/-- `set_metadata` on the node at a path. -/
def setMetadata (j : Json) : List Name → Tree → Tree
  | [], t => .node { t.data with metadata := some j } t.children
  | k :: ks, t =>
    .node t.data (t.children.map fun c => if c.1 = k then (c.1, setMetadata j ks c.2) else c)

/-- The directory at a path, or the root: a file is no directory. -/
def findPath (paths : List Name) (t : Tree) : List Name :=
  match t.sub? paths with
  | some n => if isLeaf n then [] else paths
  | none => []

/-! ### Data at a path -/

def dataAt (t : Tree) (q : List Name) : Option Info := (t.sub? q).map Trie.data

theorem dataAt_nil (t : Tree) : t.dataAt [] = some t.data := rfl

theorem dataAt_cons (t : Tree) (k : Name) (ks : List Name) :
    t.dataAt (k :: ks) = (Trie.find? k t.children).bind fun c => dataAt c ks := by
  rw [dataAt, Trie.sub?]
  cases Trie.find? k t.children <;> rfl

theorem dataAt_map (f : Info → Info) (t : Tree) (q : List Name) :
    dataAt (t.map f) q = (t.dataAt q).map f := by
  unfold dataAt
  rw [Trie.sub?_map, Option.map_map, Option.map_map]
  congr 1
  funext n
  exact Trie.data_map f n

theorem dataAt_new (filename path : Name) (modified : ℕ) (q : List Name) :
    (new filename path modified).dataAt q =
      if q = [] then some ⟨filename, path, modified, none⟩ else none := by
  cases q with
  | nil => rfl
  | cons k ks => rfl

/-- The path text that the loop has built after these names. -/
def walked (curPath : Name) (q : List Name) : Name := q.foldl grow curPath

/-- What the loop finds or creates after these names. -/
def found (modified : ℕ) (curPath : Name) (t : Tree) (q : List Name) : Info :=
  (t.dataAt q).getD ⟨q.getLast?.getD [], walked curPath q, modified, none⟩

section
variable (modified : ℕ) (curPath p : Name) (t : Tree)

/-- The child that the walk goes on with. -/
def next : Tree := (Trie.find? p t.children).getD (new p (grow curPath p) modified)

theorem dataAt_next {ks : List Name} (h : ks ≠ []) :
    (next modified curPath p t).dataAt ks = t.dataAt (p :: ks) := by
  rw [dataAt_cons, next]
  cases Trie.find? p t.children with
  | none => exact (dataAt_new ..).trans (if_neg h)
  | some c => rfl

theorem found_next (ks : List Name) :
    found modified (grow curPath p) (next modified curPath p t) ks =
      found modified curPath t (p :: ks) := by
  unfold found
  cases ks with
  | nil =>
    rw [dataAt_cons, next]
    cases Trie.find? p t.children <;> rfl
  | cons k ks =>
    rw [dataAt_next modified curPath p t (List.cons_ne_nil k ks), List.getLast?_cons_cons]
    rfl

theorem ordered_next (h : t.Ordered) : (next modified curPath p t).Ordered := by
  unfold next
  cases hc : Trie.find? p t.children with
  | none => exact .node List.Pairwise.nil (fun _ hm => nomatch hm)
  | some c => exact h.child (p, c) (Trie.mem_of_find? hc)

end

/-- Every node on the way is touched, but for the last one. -/
theorem dataAt_addFrom (modified : ℕ) (curPath : Name) (ps : List Name) {t : Tree} (h : t.Ordered)
    (q : List Name) :
    (addFrom modified curPath ps t).dataAt q =
      if q <+: ps then
        some (if q = ps then found modified curPath t q
          else touch modified (found modified curPath t q))
      else t.dataAt q := by
  induction ps generalizing t q curPath with
  | nil =>
    cases q with
    | nil => rfl
    | cons k ks => simp [addFrom]
  | cons p ps ih =>
    cases q with
    | nil => simp [addFrom, findOrCreate, dataAt_nil, found, Trie.data]
    | cons k ks =>
      rw [addFrom, findOrCreate, dataAt_cons, Trie.children]
      by_cases hk : k = p
      · subst hk
        have hnext := ih (grow curPath k) (ordered_next modified curPath k t h) ks
        rw [found_next] at hnext
        rw [Trie.find?_upsert_self _ k h.sorted, Option.bind_some]
        refine hnext.trans ?_
        simp only [List.prefix_cons_inj, List.cons.injEq, true_and]
        by_cases hpre : ks <+: ps
        · rw [if_pos hpre, if_pos hpre]
        · rw [if_neg hpre, if_neg hpre]
          refine dataAt_next modified curPath k t ?_
          rintro rfl
          exact hpre List.nil_prefix
      · have hpre : ¬ k :: ks <+: p :: ps := by
          intro hpre
          exact hk (List.cons_prefix_cons.mp hpre).1
        rw [Trie.find?_upsert_ne _ hk, if_neg hpre, dataAt_cons]

theorem ordered_addFrom (modified : ℕ) (curPath : Name) (ps : List Name) {t : Tree}
    (h : t.Ordered) : (addFrom modified curPath ps t).Ordered := by
  induction ps generalizing t curPath with
  | nil => exact h
  | cons p ps ih =>
    refine .node (Trie.sorted_upsert _ p h.sorted) (Trie.forall_upsert h.child ?_ p)
    intro child hchild
    refine ih (grow curPath p) ?_
    cases child with
    | none => exact .node List.Pairwise.nil (fun _ hm => nomatch hm)
    | some c => exact hchild c rfl

theorem ordered_clear (t : Tree) : t.clear.Ordered :=
  .node List.Pairwise.nil (fun _ hm => nomatch hm)

theorem dataAt_clear (t : Tree) {q : List Name} (h : q ≠ []) : t.clear.dataAt q = none := by
  cases q with
  | nil => exact absurd rfl h
  | cons k ks => rfl

theorem ordered_addAll {t : Tree} (h : t.Ordered) (list : List Entry) :
    (t.addAll list).Ordered := by
  unfold addAll
  refine List.foldlRecOn (motive := fun t : Tree => t.Ordered) list _ h ?_
  intro t ht f _
  exact ordered_addFrom f.modified [] (split f.path) ht

theorem addAll_snoc (t : Tree) (list : List Entry) (f : Entry) :
    t.addAll (list ++ [f]) = (t.addAll list).addPath (split f.path) f.modified := by
  simp only [addAll, List.foldl_append, List.foldl_cons, List.foldl_nil]

/-- Invariant rule: what holds of the nodes that a list creates, and is kept when a
later file touches them, holds of every node. -/
theorem forall_addAll (t : Tree) {P : List Name → Info → Prop} {list : List Entry}
    (hroot : P [] t.data)
    (hnew : ∀ f ∈ list, ∀ q, q <+: split f.path → q ≠ [] →
      P q ⟨q.getLast?.getD [], walked [] q, f.modified, none⟩)
    (htouch : ∀ q modified d, P q d → P q (touch modified d)) {q : List Name} {d : Info}
    (hd : (t.clear.addAll list).dataAt q = some d) : P q d := by
  induction list using List.reverseRecOn generalizing q d with
  | nil =>
    cases q with
    | nil =>
      cases hd
      exact hroot
    | cons k ks => cases hd
  | append_singleton list f ih =>
    have hlist : ∀ {q d}, (t.clear.addAll list).dataAt q = some d → P q d :=
      ih fun g hg => hnew g (List.mem_append_left _ hg)
    rw [addAll_snoc, addPath, dataAt_addFrom _ _ _ (ordered_addAll (ordered_clear t) list)] at hd
    by_cases hpre : q <+: split f.path
    · have hfound : P q (found f.modified [] (t.clear.addAll list) q) := by
        unfold found
        cases hq : (t.clear.addAll list).dataAt q with
        | none =>
          refine hnew f (List.mem_append_right _ (List.mem_singleton_self f)) q hpre ?_
          rintro rfl
          cases hq
        | some e => exact hlist hq
      rw [if_pos hpre] at hd
      split_ifs at hd
      · cases hd
        exact hfound
      · cases hd
        exact htouch q _ _ hfound
    · rw [if_neg hpre] at hd
      exact hlist hd

/-! ### Well formed lists -/

/-- No empty name between slashes, before the first or after the last. -/
def Normalised (path : Name) : Prop := ∀ name ∈ List.splitOn '/' path, name ≠ []

instance (path : Name) : Decidable (Normalised path) :=
  inferInstanceAs (Decidable (∀ name ∈ List.splitOn '/' path, name ≠ []))

theorem split_normalised {path : Name} (h : Normalised path) : split path = path.splitOn '/' := by
  unfold split Split.getlines
  refine if_neg ?_
  intro hlast
  exact h [] (List.mem_of_getLast? hlast) rfl

theorem split_ne_nil {path : Name} (h : Normalised path) : split path ≠ [] := by
  rw [split_normalised h]
  exact List.splitOn_ne_nil '/' path

theorem intercalate_split {path : Name} (h : Normalised path) :
    ['/'].intercalate (split path) = path := by
  rw [split_normalised h, List.intercalate_splitOn]

theorem name_ne_nil {f : Entry} (h : Normalised f.path) {q : List Name}
    (hpre : q <+: split f.path) :
    ∀ name ∈ q, name ≠ [] := by
  intro name hname
  rw [split_normalised h] at hpre
  exact h name (hpre.subset hname)

theorem walked_of_pos {curPath : Name} (h : curPath ≠ []) (q : List Name) :
    walked curPath q = curPath ++ q.flatMap ('/' :: ·) := by
  induction q generalizing curPath with
  | nil => simp [walked]
  | cons p ps ih =>
    have hgrow : grow curPath p = curPath ++ '/' :: p := if_pos (List.length_pos_iff.mpr h)
    have hpos : grow curPath p ≠ [] := by
      rw [hgrow]
      simp
    have hrest := ih hpos
    rw [walked, List.foldl_cons, ← walked, hrest, hgrow, List.flatMap_cons, List.append_assoc]

theorem intercalate_cons_eq (p : Name) (ps : List Name) :
    ['/'].intercalate (p :: ps) = p ++ ps.flatMap ('/' :: ·) := by
  induction ps generalizing p with
  | nil => simp
  | cons next rest ih =>
    rw [List.intercalate_cons_cons, ih, List.flatMap_cons, List.append_assoc]
    rfl

theorem walked_eq {q : List Name} (h : ∀ name ∈ q, name ≠ []) :
    walked [] q = ['/'].intercalate q := by
  cases q with
  | nil => rfl
  | cons p ps =>
    have hp : grow [] p = p := rfl
    rw [walked, List.foldl_cons, ← walked, hp, walked_of_pos (h p (List.mem_cons_self ..)),
      intercalate_cons_eq]

theorem walked_split {path : Name} (h : Normalised path) : walked [] (split path) = path := by
  rw [walked_eq, intercalate_split h]
  rw [split_normalised h]
  exact h

/-- Distinct normalised paths, none of them a directory of another. -/
structure WellFormed (list : List Entry) : Prop where
  normalised : ∀ f ∈ list, Normalised f.path
  distinct : (list.map Entry.path).Nodup
  apart : ∀ f ∈ list, ∀ g ∈ list, split f.path <+: split g.path → f.path = g.path

instance (list : List Entry) : Decidable (WellFormed list) :=
  decidable_of_iff ((∀ f ∈ list, Normalised f.path) ∧ (list.map Entry.path).Nodup ∧
      ∀ f ∈ list, ∀ g ∈ list, split f.path <+: split g.path → f.path = g.path)
    ⟨fun h => ⟨h.1, h.2.1, h.2.2⟩, fun h => ⟨h.normalised, h.distinct, h.apart⟩⟩

theorem WellFormed.perm {list other : List Entry} (h : WellFormed list) (hp : list.Perm other) :
    WellFormed other where
  normalised f hf := h.normalised f (hp.mem_iff.mpr hf)
  distinct := (hp.map Entry.path).nodup_iff.mp h.distinct
  apart f hf g hg := h.apart f (hp.mem_iff.mpr hf) g (hp.mem_iff.mpr hg)

theorem WellFormed.of_snoc {list : List Entry} {f : Entry} (h : WellFormed (list ++ [f])) :
    WellFormed list where
  normalised g hg := h.normalised g (List.mem_append_left _ hg)
  distinct := by
    have hd := h.distinct
    rw [List.map_append] at hd
    exact (List.nodup_append.mp hd).1
  apart g hg e he := h.apart g (List.mem_append_left _ hg) e (List.mem_append_left _ he)

theorem WellFormed.snoc_apart {list : List Entry} {f : Entry} (h : WellFormed (list ++ [f]))
    {g : Entry} (hg : g ∈ list) : ¬ split f.path <+: split g.path := by
  intro hpre
  have hf : f ∈ list ++ [f] := List.mem_append_right _ (List.mem_singleton_self f)
  have hpath := h.apart f hf g (List.mem_append_left _ hg) hpre
  have hd := h.distinct
  rw [List.map_append, List.nodup_append] at hd
  exact hd.2.2 _ (List.mem_map_of_mem hg) f.path (List.mem_singleton_self _) hpath.symm

/-- The latest time of a file at or below a path. -/
structure Latest (list : List Entry) (q : List Name) (modified : ℕ) : Prop where
  some : ∃ f ∈ list, q <+: split f.path ∧ f.modified = modified
  all : ∀ f ∈ list, q <+: split f.path → f.modified ≤ modified

theorem Latest.unique {list : List Entry} {q : List Name} {m n : ℕ} (hm : Latest list q m)
    (hn : Latest list q n) : m = n := by
  obtain ⟨f, hf, hpf, rfl⟩ := hm.some
  obtain ⟨g, hg, hpg, rfl⟩ := hn.some
  exact Nat.le_antisymm (hn.all f hf hpf) (hm.all g hg hpg)

theorem Latest.congr {list other : List Entry} (h : ∀ f, f ∈ list ↔ f ∈ other) {q : List Name}
    {m : ℕ} (hm : Latest list q m) : Latest other q m := by
  obtain ⟨f, hf, hpf, hmod⟩ := hm.some
  exact ⟨⟨f, (h f).mp hf, hpf, hmod⟩, fun g hg => hm.all g ((h g).mpr hg)⟩

theorem latest_snoc_other {list : List Entry} {f : Entry} {q : List Name}
    (h : ¬ q <+: split f.path) {m : ℕ} : Latest (list ++ [f]) q m ↔ Latest list q m := by
  constructor
  · rintro ⟨⟨g, hg, hpg, hmod⟩, hall⟩
    refine ⟨⟨g, ?_, hpg, hmod⟩, fun e he => hall e (List.mem_append_left _ he)⟩
    rcases List.mem_append.mp hg with hg | hg
    · exact hg
    · rw [List.mem_singleton.mp hg] at hpg
      exact absurd hpg h
  · rintro ⟨⟨g, hg, hpg, hmod⟩, hall⟩
    refine ⟨⟨g, List.mem_append_left _ hg, hpg, hmod⟩, ?_⟩
    intro e he hpe
    rcases List.mem_append.mp he with he | he
    · exact hall e he hpe
    · rw [List.mem_singleton.mp he] at hpe
      exact absurd hpe h

theorem latest_snoc_first {list : List Entry} {f : Entry} {q : List Name}
    (h : q <+: split f.path) (hnone : ∀ g ∈ list, ¬ q <+: split g.path) :
    Latest (list ++ [f]) q f.modified := by
  refine ⟨⟨f, List.mem_append_right _ (List.mem_singleton_self f), h, rfl⟩, ?_⟩
  intro g hg hpg
  rcases List.mem_append.mp hg with hg | hg
  · exact absurd hpg (hnone g hg)
  · rw [List.mem_singleton.mp hg]

theorem latest_snoc_more {list : List Entry} {f : Entry} {q : List Name}
    (h : q <+: split f.path) {m : ℕ} (hm : Latest list q m) :
    Latest (list ++ [f]) q (max m f.modified) := by
  obtain ⟨g, hg, hpg, hmod⟩ := hm.some
  constructor
  · rcases Nat.le_total m f.modified with hle | hle
    · rw [Nat.max_eq_right hle]
      exact ⟨f, List.mem_append_right _ (List.mem_singleton_self f), h, rfl⟩
    · rw [Nat.max_eq_left hle]
      exact ⟨g, List.mem_append_left _ hg, hpg, hmod⟩
  · intro e he hpe
    rcases List.mem_append.mp he with he | he
    · exact Nat.le_trans (hm.all e he hpe) (Nat.le_max_left ..)
    · rw [List.mem_singleton.mp he]
      exact Nat.le_max_right ..

theorem exists_latest {list : List Entry} {q : List Name}
    (h : ∃ f ∈ list, q <+: split f.path) : ∃ m, Latest list q m := by
  induction list using List.reverseRecOn with
  | nil =>
    obtain ⟨f, hf, -⟩ := h
    cases hf
  | append_singleton list f ih =>
    by_cases hlist : ∃ g ∈ list, q <+: split g.path
    · obtain ⟨m, hm⟩ := ih hlist
      by_cases hf : q <+: split f.path
      · exact ⟨_, latest_snoc_more hf hm⟩
      · exact ⟨m, (latest_snoc_other hf).mpr hm⟩
    · have hnone : ∀ g ∈ list, ¬ q <+: split g.path := fun g hg hpg => hlist ⟨g, hg, hpg⟩
      obtain ⟨g, hg, hpg⟩ := h
      rcases List.mem_append.mp hg with hg | hg
      · exact absurd hpg (hnone g hg)
      · rw [List.mem_singleton.mp hg] at hpg
        exact ⟨_, latest_snoc_first hpg hnone⟩

/-! ### The tree of a list -/

theorem touch_eq (modified : ℕ) (d : Info) :
    touch modified d = { d with dateModified := max d.dateModified modified } := by
  unfold touch
  split_ifs with h
  · rw [Nat.max_eq_right (Nat.le_of_lt h)]
  · rw [Nat.max_eq_left (Nat.le_of_not_lt h)]

/-- What the tree of a list has at a path. -/
structure Listed (list : List Entry) (q : List Name) (d : Info) : Prop where
  name : d.name = q.getLast?.getD []
  fullPath : d.fullPath = walked [] q
  latest : Latest list q d.dateModified
  bare : d.metadata = none

theorem Listed.unique {list : List Entry} {q : List Name} {d e : Info} (hd : Listed list q d)
    (he : Listed list q e) : d = e := by
  obtain ⟨dname, dpath, ddate, dmeta⟩ := d
  obtain ⟨ename, epath, edate, emeta⟩ := e
  have hname : dname = ename := hd.name.trans he.name.symm
  have hpath : dpath = epath := hd.fullPath.trans he.fullPath.symm
  have hdate : ddate = edate := hd.latest.unique he.latest
  have hmeta : dmeta = emeta := hd.bare.trans he.bare.symm
  rw [hname, hpath, hdate, hmeta]

theorem listed_snoc {list : List Entry} {f : Entry} (h : WellFormed (list ++ [f])) {t : Tree}
    {q : List Name} (ht : ∀ d, t.dataAt q = some d ↔ Listed list q d) (hpre : q <+: split f.path) :
    Listed (list ++ [f]) q (if q = split f.path then found f.modified [] t q
      else touch f.modified (found f.modified [] t q)) := by
  cases hbase : t.dataAt q with
  | none =>
    have hnone : ∀ g ∈ list, ¬ q <+: split g.path := by
      intro g hg hpg
      obtain ⟨m, hm⟩ := exists_latest ⟨g, hg, hpg⟩
      have hsome := (ht ⟨q.getLast?.getD [], walked [] q, m, none⟩).mpr ⟨rfl, rfl, hm, rfl⟩
      rw [hbase] at hsome
      cases hsome
    have hlatest := latest_snoc_first hpre hnone
    rw [touch_eq]
    simp only [found, hbase, Option.getD_none, Nat.max_self, ite_self]
    exact ⟨rfl, rfl, hlatest, rfl⟩
  | some d =>
    have hd := (ht d).mp hbase
    have hne : q ≠ split f.path := by
      rintro rfl
      obtain ⟨g, hg, hpg, -⟩ := hd.latest.some
      exact h.snoc_apart hg hpg
    rw [if_neg hne, touch_eq]
    simp only [found, hbase, Option.getD_some]
    exact ⟨hd.name, hd.fullPath, latest_snoc_more hpre hd.latest, hd.bare⟩

theorem dataAt_addAll (t : Tree) {list : List Entry} (h : WellFormed list) {q : List Name}
    (hq : q ≠ []) (d : Info) : (t.clear.addAll list).dataAt q = some d ↔ Listed list q d := by
  induction list using List.reverseRecOn generalizing d with
  | nil =>
    rw [addAll, List.foldl_nil, dataAt_clear t hq]
    constructor
    · intro hd
      cases hd
    · intro hd
      obtain ⟨f, hf, -⟩ := hd.latest.some
      cases hf
  | append_singleton list f ih =>
    have hbase := ih h.of_snoc
    rw [addAll_snoc, addPath, dataAt_addFrom _ _ _ (ordered_addAll (ordered_clear t) list)]
    by_cases hpre : q <+: split f.path
    · have hlisted := listed_snoc h hbase hpre
      rw [if_pos hpre, Option.some_inj]
      constructor
      · rintro rfl
        exact hlisted
      · intro hd
        exact hlisted.unique hd
    · rw [if_neg hpre, hbase]
      constructor
      · exact fun hd => ⟨hd.name, hd.fullPath, (latest_snoc_other hpre).mpr hd.latest, hd.bare⟩
      · exact fun hd => ⟨hd.name, hd.fullPath, (latest_snoc_other hpre).mp hd.latest, hd.bare⟩

theorem data_addAll {list : List Entry} (h : ∀ f ∈ list, Normalised f.path) {t : Tree} :
    (t.addAll list).data = list.foldl (fun d f => touch f.modified d) t.data := by
  induction list generalizing t with
  | nil => rfl
  | cons f list ih =>
    have hrest := ih (fun g hg => h g (List.mem_cons_of_mem f hg))
      (t := t.addPath (split f.path) f.modified)
    have hdata : (t.addPath (split f.path) f.modified).data = touch f.modified t.data := by
      cases hs : split f.path with
      | nil => exact absurd hs (split_ne_nil (h f (List.mem_cons_self ..)))
      | cons p ps => rfl
    rw [List.foldl_cons, ← hdata]
    exact hrest

theorem addAll_perm (t : Tree) {list other : List Entry} (h : WellFormed list)
    (hp : list.Perm other) : t.clear.addAll list = t.clear.addAll other := by
  refine Trie.ext_of_sub? (ordered_addAll (ordered_clear t) list)
    (ordered_addAll (ordered_clear t) other) ?_
  intro q
  change (t.clear.addAll list).dataAt q = (t.clear.addAll other).dataAt q
  by_cases hq : q = []
  · subst hq
    rw [dataAt_nil, dataAt_nil, data_addAll h.normalised, data_addAll (h.perm hp).normalised]
    congr 1
    refine hp.foldl_eq' ?_ _
    intro f _ g _ d
    simp only [touch_eq, Nat.max_assoc, Nat.max_comm f.modified]
  · apply Option.ext
    intro d
    rw [dataAt_addAll t h hq, dataAt_addAll t (h.perm hp) hq]
    have hmem : ∀ f, f ∈ list ↔ f ∈ other := fun f => hp.mem_iff
    constructor
    · exact fun hd => ⟨hd.name, hd.fullPath, hd.latest.congr hmem, hd.bare⟩
    · exact fun hd => ⟨hd.name, hd.fullPath, hd.latest.congr fun f => (hmem f).symm, hd.bare⟩

/-! ### Files and directories -/

theorem isLeaf_iff {t n : Tree} {q : List Name} (h : t.sub? q = some n) :
    n.isLeaf = true ↔ ∀ k, t.dataAt (q ++ [k]) = none := by
  have hchild : ∀ k, t.dataAt (q ++ [k]) = (Trie.find? k n.children).map Trie.data := by
    intro k
    rw [dataAt, Trie.sub?_append, h, Option.bind_some, Trie.sub?]
    cases Trie.find? k n.children <;> rfl
  simp only [hchild, Option.map_eq_none_iff]
  unfold isLeaf
  cases n.children with
  | nil => exact iff_of_true rfl fun _ => rfl
  | cons c cs =>
    refine iff_of_false ?_ ?_
    · intro hnil
      cases hnil
    intro hnone
    have hfirst := hnone c.1
    rw [Trie.find?, if_pos rfl] at hfirst
    cases hfirst

section
variable (t : Tree) {list : List Entry} (h : WellFormed list)

include h

theorem listed_of_sub? {q : List Name} (hq : q ≠ []) {n : Tree}
    (hn : (t.clear.addAll list).sub? q = some n) : Listed list q n.data :=
  (dataAt_addAll t h hq n.data).mp (by rw [dataAt, hn]; rfl)

theorem sub?_of_below {f : Entry} (hf : f ∈ list) {q : List Name} (hq : q ≠ [])
    (hpre : q <+: split f.path) : ∃ n, (t.clear.addAll list).sub? q = some n := by
  obtain ⟨m, hm⟩ := exists_latest ⟨f, hf, hpre⟩
  have hdata := (dataAt_addAll t h hq ⟨q.getLast?.getD [], walked [] q, m, none⟩).mpr
    ⟨rfl, rfl, hm, rfl⟩
  obtain ⟨n, hn, -⟩ := Option.map_eq_some_iff.mp hdata
  exact ⟨n, hn⟩

theorem isLeaf_iff_file {q : List Name} (hq : q ≠ []) {n : Tree}
    (hn : (t.clear.addAll list).sub? q = some n) :
    n.isLeaf = true ↔ ∃ f ∈ list, split f.path = q := by
  rw [isLeaf_iff hn]
  constructor
  · intro hnone
    obtain ⟨f, hf, ⟨rest, hrest⟩, -⟩ := (listed_of_sub? t h hq hn).latest.some
    cases rest with
    | nil => exact ⟨f, hf, by rw [← hrest, List.append_nil]⟩
    | cons k ks =>
      have hpre : q ++ [k] <+: split f.path := ⟨ks, by rw [← hrest]; simp⟩
      obtain ⟨m, hm⟩ := sub?_of_below t h hf (by simp) hpre
      have hk := hnone k
      rw [dataAt, hm] at hk
      cases hk
  · rintro ⟨f, hf, rfl⟩ k
    cases hd : (t.clear.addAll list).dataAt (split f.path ++ [k]) with
    | none => rfl
    | some d =>
      obtain ⟨g, hg, hpre, -⟩ := ((dataAt_addAll t h (by simp) d).mp hd).latest.some
      have hpath := h.apart f hf g hg ((List.prefix_append ..).trans hpre)
      have hlen := hpre.length_le
      rw [hpath, List.length_append, List.length_singleton] at hlen
      omega

theorem file_data {f : Entry} (hf : f ∈ list) {n : Tree}
    (hn : (t.clear.addAll list).sub? (split f.path) = some n) :
    n.data.fullPath = f.path ∧ n.data.dateModified = f.modified := by
  have hnormal := h.normalised f hf
  have hlisted := listed_of_sub? t h (split_ne_nil hnormal) hn
  constructor
  · rw [hlisted.fullPath, walked_split hnormal]
  · obtain ⟨g, hg, hpre, hmod⟩ := hlisted.latest.some
    have hpath := h.apart f hf g hg hpre
    rw [← hmod, List.inj_on_of_nodup_map h.distinct hf hg hpath]

theorem fullPath_eq {q : List Name} (hq : q ≠ []) {n : Tree}
    (hn : (t.clear.addAll list).sub? q = some n) : n.data.fullPath = ['/'].intercalate q := by
  have hlisted := listed_of_sub? t h hq hn
  obtain ⟨f, hf, hpre, -⟩ := hlisted.latest.some
  rw [hlisted.fullPath, walked_eq (name_ne_nil (h.normalised f hf) hpre)]

end

end Tree

end GuppyScreen.PrintPanel
