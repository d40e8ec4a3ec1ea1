import Mathlib.Data.List.Basic
import Mathlib.Order.Lattice

/-!
# Tries

A node has data and children under distinct keys, in the order of the keys as
`std::map` keeps them. A path of keys names a node. Two tries with the same data
at the same paths are the same.
-/

namespace GuppyScreen.Lib

inductive Trie (κ α : Type) where
  | node (data : α) (children : List (κ × Trie κ α))

namespace Trie

/-! ### Entries in the order of their keys -/

section
variable {κ β : Type} [LinearOrder κ]

def find? (k : κ) : List (κ × β) → Option β
  | [] => none
  | (j, b) :: rest => if j = k then some b else find? k rest

/-- The entry at `k` is replaced, or added where it belongs. -/
def upsert (f : Option β → β) (k : κ) : List (κ × β) → List (κ × β)
  | [] => [(k, f none)]
  | (j, b) :: rest =>
    if k < j then (k, f none) :: (j, b) :: rest
    else if j < k then (j, b) :: upsert f k rest
    else (j, f (some b)) :: rest

def Sorted (cs : List (κ × β)) : Prop := cs.Pairwise fun a b => a.1 < b.1

theorem mem_of_find? {k : κ} {b : β} {cs : List (κ × β)} (h : find? k cs = some b) :
    (k, b) ∈ cs := by
  induction cs with
  | nil => cases h
  | cons c cs ih =>
    obtain ⟨j, d⟩ := c
    rw [find?] at h
    split_ifs at h with hj
    · cases h
      rw [hj]
      exact List.mem_cons_self ..
    · exact List.mem_cons_of_mem _ (ih h)

theorem find?_eq_none {k : κ} {cs : List (κ × β)} (h : ∀ c ∈ cs, c.1 ≠ k) : find? k cs = none := by
  induction cs with
  | nil => rfl
  | cons c cs ih =>
    rw [find?, if_neg (h c (List.mem_cons_self ..))]
    exact ih fun d hd => h d (List.mem_cons_of_mem c hd)

theorem find?_eq_some_iff {k : κ} {b : β} {cs : List (κ × β)} (hs : Sorted cs) :
    find? k cs = some b ↔ (k, b) ∈ cs := by
  refine ⟨mem_of_find?, ?_⟩
  intro h
  induction cs with
  | nil => cases h
  | cons c cs ih =>
    obtain ⟨hc, hcs⟩ := List.pairwise_cons.mp hs
    rw [find?]
    rcases List.mem_cons.mp h with rfl | h
    · rw [if_pos rfl]
    · rw [if_neg (hc _ h).ne, ih hcs h]

theorem find?_upsert_ne (f : Option β → β) {j k : κ} (h : j ≠ k) (cs : List (κ × β)) :
    find? j (upsert f k cs) = find? j cs := by
  induction cs with
  | nil => exact if_neg h.symm
  | cons c cs ih =>
    rw [upsert]
    split_ifs with hlt hgt
    · rw [find?, if_neg h.symm]
    · rw [find?, find?, ih]
    · have hkey : c.1 = k := le_antisymm (not_lt.mp hlt) (not_lt.mp hgt)
      rw [find?, find?, hkey, if_neg h.symm, if_neg h.symm]

theorem find?_upsert_self (f : Option β → β) (k : κ) {cs : List (κ × β)} (hs : Sorted cs) :
    find? k (upsert f k cs) = some (f (find? k cs)) := by
  induction cs with
  | nil => exact if_pos rfl
  | cons c cs ih =>
    obtain ⟨hc, hcs⟩ := List.pairwise_cons.mp hs
    rw [upsert]
    split_ifs with hlt hgt
    · have hnone : find? k (c :: cs) = none := by
        refine find?_eq_none ?_
        intro d hd
        rcases List.mem_cons.mp hd with rfl | hd
        · exact hlt.ne'
        · exact (hlt.trans (hc d hd)).ne'
      rw [find?, if_pos rfl, hnone]
    · rw [find?, find?, if_neg hgt.ne, if_neg hgt.ne, ih hcs]
    · have hkey : c.1 = k := le_antisymm (not_lt.mp hlt) (not_lt.mp hgt)
      rw [find?, find?, if_pos hkey, if_pos hkey]

theorem key_of_mem_upsert {f : Option β → β} {k : κ} {cs : List (κ × β)} {c : κ × β}
    (h : c ∈ upsert f k cs) : c.1 = k ∨ c ∈ cs := by
  induction cs with
  | nil => exact .inl (congrArg Prod.fst (List.mem_singleton.mp h))
  | cons d cs ih =>
    rw [upsert] at h
    split_ifs at h with hlt hgt
    · rcases List.mem_cons.mp h with rfl | h
      · exact .inl rfl
      · exact .inr h
    · rcases List.mem_cons.mp h with rfl | h
      · exact .inr (List.mem_cons_self ..)
      · exact (ih h).imp_right (List.mem_cons_of_mem d)
    · rcases List.mem_cons.mp h with rfl | h
      · exact .inl (le_antisymm (not_lt.mp hlt) (not_lt.mp hgt))
      · exact .inr (List.mem_cons_of_mem d h)

theorem sorted_upsert (f : Option β → β) (k : κ) {cs : List (κ × β)} (hs : Sorted cs) :
    Sorted (upsert f k cs) := by
  induction cs with
  | nil => exact List.pairwise_singleton _ _
  | cons c cs ih =>
    obtain ⟨hc, hcs⟩ := List.pairwise_cons.mp hs
    rw [upsert]
    split_ifs with hlt hgt
    · refine List.pairwise_cons.mpr ⟨?_, hs⟩
      intro d hd
      rcases List.mem_cons.mp hd with rfl | hd
      · exact hlt
      · exact hlt.trans (hc d hd)
    · refine List.pairwise_cons.mpr ⟨?_, ih hcs⟩
      intro d hd
      rcases key_of_mem_upsert hd with hkey | hd
      · rw [hkey]
        exact hgt
      · exact hc d hd
    · exact List.pairwise_cons.mpr ⟨hc, hcs⟩

theorem forall_upsert {P : β → Prop} {f : Option β → β} {cs : List (κ × β)}
    (h : ∀ c ∈ cs, P c.2) (hf : ∀ o : Option β, (∀ b ∈ o, P b) → P (f o)) (k : κ) :
    ∀ c ∈ upsert f k cs, P c.2 := by
  induction cs with
  | nil =>
    intro c hc
    rw [List.mem_singleton.mp hc]
    exact hf none (fun _ hb => nomatch hb)
  | cons d cs ih =>
    have hd := h d (List.mem_cons_self ..)
    have hcs : ∀ c ∈ cs, P c.2 := fun c hc => h c (List.mem_cons_of_mem d hc)
    rw [upsert]
    split_ifs
    · exact List.forall_mem_cons.mpr ⟨hf none (fun _ hb => nomatch hb), h⟩
    · exact List.forall_mem_cons.mpr ⟨hd, ih hcs⟩
    · refine List.forall_mem_cons.mpr ⟨hf (some d.2) ?_, hcs⟩
      intro b hb
      cases hb
      exact hd

theorem eq_of_find? {cs ds : List (κ × β)} (hcs : Sorted cs) (hds : Sorted ds)
    (h : ∀ k, find? k cs = find? k ds) : cs = ds := by
  have hmem : ∀ c, c ∈ cs ↔ c ∈ ds := by
    intro c
    rw [← find?_eq_some_iff hcs, h, find?_eq_some_iff hds]
  refine List.Perm.eq_of_pairwise ?_ hcs hds ?_
  · intro a b _ _ hab hba
    exact absurd (hab.trans hba) (lt_irrefl _)
  · refine (List.perm_ext_iff_of_nodup ?_ ?_).mpr hmem
    · exact hcs.imp fun hlt heq => hlt.ne (congrArg Prod.fst heq)
    · exact hds.imp fun hlt heq => hlt.ne (congrArg Prod.fst heq)

end

/-! ### Nodes -/

section
variable {κ α : Type}

def data : Trie κ α → α
  | node d _ => d

def children : Trie κ α → List (κ × Trie κ α)
  | node _ cs => cs

theorem eta (t : Trie κ α) : node t.data t.children = t := by
  cases t
  rfl

theorem induct {P : Trie κ α → Prop} (h : ∀ d cs, (∀ c ∈ cs, P c.2) → P (node d cs)) :
    ∀ t, P t
  | node d cs => h d cs fun c _ => induct h c.2
termination_by t => sizeOf t
decreasing_by
  rename_i hc
  have hlt := List.sizeOf_lt_of_mem hc
  obtain ⟨k, t⟩ := c
  simp only [Prod.mk.sizeOf_spec] at hlt
  simp only [node.sizeOf_spec]
  omega

/-! ### Every node -/

mutual

/-- The data of a node, then that of its children one after the other. -/
def nodes : Trie κ α → List α
  | node d cs => d :: nodesAll cs

def nodesAll : List (κ × Trie κ α) → List α
  | [] => []
  | (_, t) :: cs => nodes t ++ nodesAll cs

end

theorem mem_nodesAll {d : α} {cs : List (κ × Trie κ α)} :
    d ∈ nodesAll cs ↔ ∃ c ∈ cs, d ∈ c.2.nodes := by
  induction cs with
  | nil => simp [nodesAll]
  | cons c cs ih =>
    obtain ⟨k, t⟩ := c
    rw [nodesAll, List.mem_append, ih]
    simp only [List.mem_cons, exists_eq_or_imp]

mutual

def map {β : Type} (f : α → β) : Trie κ α → Trie κ β
  | node d cs => node (f d) (mapAll f cs)

def mapAll {β : Type} (f : α → β) : List (κ × Trie κ α) → List (κ × Trie κ β)
  | [] => []
  | (k, t) :: cs => (k, map f t) :: mapAll f cs

end

section
variable {β : Type} (f : α → β)

theorem mapAll_eq (cs : List (κ × Trie κ α)) : mapAll f cs = cs.map fun c => (c.1, c.2.map f) := by
  induction cs with
  | nil => rfl
  | cons c cs ih => rw [mapAll, ih, List.map_cons]

@[simp] theorem data_map (t : Trie κ α) : (t.map f).data = f t.data := by
  cases t
  rfl

theorem children_map (t : Trie κ α) :
    (t.map f).children = t.children.map fun c => (c.1, c.2.map f) := by
  cases t with
  | node d cs => exact mapAll_eq f cs

end

/-! ### Paths -/

variable [LinearOrder κ]

/-- The node that a path leads to. -/
def sub? : List κ → Trie κ α → Option (Trie κ α)
  | [], t => some t
  | k :: ks, t => (find? k t.children).bind (sub? ks)

inductive Ordered : Trie κ α → Prop
  | node {d : α} {cs : List (κ × Trie κ α)} (sorted : Sorted cs) (child : ∀ c ∈ cs, Ordered c.2) :
    Ordered (.node d cs)

theorem Ordered.sorted {t : Trie κ α} (h : Ordered t) : Sorted t.children := by
  cases h with
  | node hs _ => exact hs

theorem Ordered.child {t : Trie κ α} (h : Ordered t) : ∀ c ∈ t.children, Ordered c.2 := by
  cases h with
  | node _ hb => exact hb

theorem sub?_append (ks ls : List κ) (t : Trie κ α) :
    t.sub? (ks ++ ls) = (t.sub? ks).bind (sub? ls) := by
  induction ks generalizing t with
  | nil => rfl
  | cons k ks ih =>
    rw [List.cons_append, sub?, sub?]
    cases find? k t.children with
    | none => rfl
    | some c => exact ih c

theorem Ordered.sub {t u : Trie κ α} (h : Ordered t) {ks : List κ} (hu : t.sub? ks = some u) :
    Ordered u := by
  induction ks generalizing t with
  | nil =>
    cases hu
    exact h
  | cons k ks ih =>
    rw [sub?] at hu
    obtain ⟨c, hc, hu⟩ := Option.bind_eq_some_iff.mp hu
    exact ih (h.child (k, c) (mem_of_find? hc)) hu

theorem ext_of_sub? {t u : Trie κ α} (ht : Ordered t) (hu : Ordered u)
    (h : ∀ ks, (t.sub? ks).map data = (u.sub? ks).map data) : t = u := by
  induction t using induct generalizing u with
  | h d cs ih =>
    obtain ⟨e, ds⟩ := u
    have hdata : d = e := Option.some_inj.mp (h [])
    have hchild : ∀ k a b, find? k cs = some a → find? k ds = some b → a = b := by
      intro k a b ha hb
      refine ih (k, a) (mem_of_find? ha) (ht.child _ (mem_of_find? ha))
        (hu.child _ (mem_of_find? hb)) ?_
      intro ks
      have hks := h (k :: ks)
      simp only [sub?, children, ha, hb, Option.bind_some] at hks
      exact hks
    have hfind : ∀ k, find? k cs = find? k ds := by
      intro k
      have hk := h [k]
      simp only [sub?, children] at hk
      cases ha : find? k cs with
      | none =>
        cases hb : find? k ds with
        | none => rfl
        | some b =>
          rw [ha, hb] at hk
          cases hk
      | some a =>
        cases hb : find? k ds with
        | none =>
          rw [ha, hb] at hk
          cases hk
        | some b => rw [hchild k a b ha hb]
    have hcs : cs = ds := eq_of_find? ht.sorted hu.sorted hfind
    rw [hdata, hcs]

theorem mem_nodes {t : Trie κ α} (h : Ordered t) {d : α} :
    d ∈ t.nodes ↔ ∃ ks u, t.sub? ks = some u ∧ u.data = d := by
  induction t using induct with
  | h e cs ih =>
    rw [nodes, List.mem_cons, mem_nodesAll]
    constructor
    · rintro (rfl | ⟨c, hc, hd⟩)
      · exact ⟨[], _, rfl, rfl⟩
      · obtain ⟨ks, u, hu, hdata⟩ := (ih c hc (h.child c hc)).mp hd
        refine ⟨c.1 :: ks, u, ?_, hdata⟩
        have hfind : find? c.1 cs = some c.2 := (find?_eq_some_iff h.sorted).mpr hc
        rw [sub?, children, hfind]
        exact hu
    · rintro ⟨ks, u, hu, rfl⟩
      cases ks with
      | nil =>
        cases hu
        exact .inl rfl
      | cons k ks =>
        rw [sub?] at hu
        obtain ⟨c, hc, hu⟩ := Option.bind_eq_some_iff.mp hu
        have hmem := mem_of_find? hc
        exact .inr ⟨(k, c), hmem, (ih _ hmem (h.child _ hmem)).mpr ⟨ks, u, hu, rfl⟩⟩

section
variable {β : Type} (f : α → β)

theorem find?_children_map (k : κ) (cs : List (κ × Trie κ α)) :
    find? k (cs.map fun c => (c.1, c.2.map f)) = (find? k cs).map (map f) := by
  induction cs with
  | nil => rfl
  | cons c cs ih =>
    rw [List.map_cons, find?, find?, ih]
    split_ifs <;> rfl

theorem sub?_map (ks : List κ) (t : Trie κ α) : (t.map f).sub? ks = (t.sub? ks).map (map f) := by
  induction ks generalizing t with
  | nil => rfl
  | cons k ks ih =>
    rw [sub?, sub?, children_map, find?_children_map]
    cases find? k t.children with
    | none => rfl
    | some c => exact ih c

theorem Ordered.map {t : Trie κ α} (h : Ordered t) : Ordered (t.map f) := by
  induction t using induct with
  | h d cs ih =>
    rw [Trie.map, mapAll_eq]
    have hs : Sorted cs := h.sorted
    refine .node ?_ ?_
    · exact List.pairwise_map.mpr hs
    · intro c hc
      obtain ⟨b, hb, rfl⟩ := List.mem_map.mp hc
      exact ih b hb (h.child b hb)

end

end

end Trie

end GuppyScreen.Lib
