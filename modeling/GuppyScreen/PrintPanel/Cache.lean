import GuppyScreen.PrintPanel.Tree

/-!
# Metadata through a rebuild (tree.h, print_panel.cpp)

`subscribe` throws the tree away and builds it from the new list. The metadata of
its nodes is kept in a map by full path meanwhile, with the time of the file.
-/

namespace GuppyScreen.PrintPanel
open Lib

namespace Tree

/-- What `subscribe` makes of the tree. -/
def rebuild (t : Tree) (list : List Entry) : Tree :=
  applyMetadata (t.collectMetadata ∅) (t.clear.addAll list)

/-! ### The map -/

/-- The entry that a node leaves in the map. -/
def Leaves (d : Info) (path : Name) (v : ℕ × Json) : Prop :=
  d.fullPath = path ∧ d.dateModified = v.1 ∧ d.metadata = some v.2

theorem lookup_foldl_note {ds : List Info}
    (h : ∀ d ∈ ds, ∀ e ∈ ds, d.metadata ≠ none → e.metadata ≠ none →
      d.fullPath = e.fullPath → d = e)
    (out : Cache) (path : Name) (v : ℕ × Json) :
    (ds.foldl note out).lookup path = some v ↔
      out.lookup path = some v ∨ path ∉ out ∧ ∃ d ∈ ds, Leaves d path v := by
  induction ds generalizing out with
  | nil => simp
  | cons d ds ih =>
    have hrest := ih fun a ha b hb => h a (List.mem_cons_of_mem d ha) b (List.mem_cons_of_mem d hb)
    rw [List.foldl_cons, hrest]
    cases hj : d.metadata with
    | none =>
      have hd : ¬ Leaves d path v := by
        rintro ⟨-, -, hmeta⟩
        rw [hj] at hmeta
        cases hmeta
      simp only [note, hj, List.mem_cons, exists_eq_or_imp, hd, false_or]
    | some j =>
      have hd : Leaves d path v ↔ path = d.fullPath ∧ v = (d.dateModified, j) := by
        unfold Leaves
        rw [hj, Option.some_inj]
        constructor
        · rintro ⟨rfl, hdate, hmeta⟩
          exact ⟨rfl, Prod.ext hdate.symm hmeta.symm⟩
        · rintro ⟨rfl, rfl⟩
          exact ⟨rfl, rfl, rfl⟩
      -- Another node with this path is this one, so the first entry is the only one.
      have hsame : path = d.fullPath → (∃ e ∈ ds, Leaves e path v) → v = (d.dateModified, j) := by
        rintro rfl ⟨e, he, hpath, hdate, hmeta⟩
        have heq : d = e := h d (List.mem_cons_self ..) e (List.mem_cons_of_mem d he)
          (by rw [hj]; exact Option.some_ne_none j) (by rw [hmeta]; exact Option.some_ne_none v.2)
          hpath.symm
        subst heq
        exact (hd.mp ⟨hpath, hdate, hmeta⟩).2
      simp only [note, hj, StdMap.lookup_insertNew_iff, StdMap.mem_insertNew, List.mem_cons,
        exists_eq_or_imp, hd]
      constructor
      · rintro ((ho | ⟨hout, hpath, hv⟩) | ⟨hout, hex⟩)
        · exact .inl ho
        · exact .inr ⟨hout, .inl ⟨hpath, hv⟩⟩
        · exact .inr ⟨fun hm => hout (.inl hm), .inr hex⟩
      · rintro (ho | ⟨hout, ⟨hpath, hv⟩ | hex⟩)
        · exact .inl (.inl ho)
        · exact .inl (.inr ⟨hout, hpath, hv⟩)
        · by_cases hpath : path = d.fullPath
          · exact .inl (.inr ⟨hout, hpath, hsame hpath hex⟩)
          · exact .inr ⟨fun hm => hm.elim hout hpath, hex⟩

theorem lookup_collectMetadata {t : Tree} (ho : t.Ordered)
    (h : ∀ q r d e, t.dataAt q = some d → t.dataAt r = some e → d.metadata ≠ none →
      e.metadata ≠ none → d.fullPath = e.fullPath → d = e) (path : Name) (v : ℕ × Json) :
    (t.collectMetadata ∅).lookup path = some v ↔ ∃ q d, t.dataAt q = some d ∧ Leaves d path v := by
  have hnode : ∀ d, d ∈ t.nodes ↔ ∃ q, t.dataAt q = some d := by
    intro d
    rw [Trie.mem_nodes ho]
    simp only [dataAt, Option.map_eq_some_iff]
  rw [collectMetadata, lookup_foldl_note]
  · simp only [AList.lookup_empty, AList.notMem_empty, hnode]
    simp only [reduceCtorEq, not_false_eq_true, true_and, false_or]
    constructor
    · rintro ⟨d, ⟨q, hq⟩, hd⟩
      exact ⟨q, d, hq, hd⟩
    · rintro ⟨q, d, hq, hd⟩
      exact ⟨d, ⟨q, hq⟩, hd⟩
  · intro d hd e he
    obtain ⟨q, hq⟩ := (hnode d).mp hd
    obtain ⟨r, hr⟩ := (hnode e).mp he
    exact h q r d e hq hr

/-! ### The new tree -/

theorem applyEntry_eq (cache : Cache) (d : Info) :
    ∃ o, applyEntry cache d = { d with metadata := o } := by
  unfold applyEntry
  split
  · split_ifs
    · exact ⟨_, rfl⟩
    · exact ⟨d.metadata, rfl⟩
  · exact ⟨d.metadata, rfl⟩

theorem applyEntry_fixed (cache : Cache) (d : Info) : (applyEntry cache d).fullPath = d.fullPath ∧
    (applyEntry cache d).name = d.name ∧ (applyEntry cache d).dateModified = d.dateModified := by
  obtain ⟨o, ho⟩ := applyEntry_eq cache d
  rw [ho]
  exact ⟨rfl, rfl, rfl⟩

theorem applyEntry_metadata {d : Info} (h : d.metadata = none) (cache : Cache) (j : Json) :
    (applyEntry cache d).metadata = some j ↔
      cache.lookup d.fullPath = some (d.dateModified, j) := by
  unfold applyEntry
  split
  · rename_i date k hk
    rw [hk, Option.some_inj, Prod.mk.injEq]
    split_ifs with hdate
    · rw [Option.some_inj]
      exact (and_iff_right hdate).symm
    · rw [h]
      exact iff_of_false (fun hn => nomatch hn) fun hb => hdate hb.1
  · rename_i hk
    rw [hk, h]
    exact iff_of_false (fun hn => nomatch hn) fun hn => nomatch hn

theorem dataAt_rebuild (t : Tree) (list : List Entry) (q : List Name) :
    (t.rebuild list).dataAt q =
      ((t.clear.addAll list).dataAt q).map (applyEntry (t.collectMetadata ∅)) :=
  dataAt_map _ _ q

theorem metadata_rebuild {t : Tree} (hroot : t.data.metadata = none) {list : List Entry}
    {q : List Name} {d : Info} (hd : (t.rebuild list).dataAt q = some d) (j : Json) :
    d.metadata = some j ↔
      (t.collectMetadata ∅).lookup d.fullPath = some (d.dateModified, j) := by
  rw [dataAt_rebuild] at hd
  obtain ⟨e, he, rfl⟩ := Option.map_eq_some_iff.mp hd
  have hbare : e.metadata = none := forall_addAll t (P := fun _ d => d.metadata = none) hroot
    (fun _ _ _ _ _ => rfl) (fun _ _ _ hd => by rw [touch_eq]; exact hd) he
  rw [applyEntry_metadata hbare, (applyEntry_fixed _ e).1, (applyEntry_fixed _ e).2.2]

/-! ### Trees with metadata -/

theorem find?_setMetadata (j : Json) (k p : Name) (ks : List Name) (cs : List (Name × Tree)) :
    Trie.find? p (cs.map fun c => if c.1 = k then (c.1, setMetadata j ks c.2) else c) =
      (Trie.find? p cs).map fun c => if p = k then setMetadata j ks c else c := by
  induction cs with
  | nil => rfl
  | cons c cs ih =>
    rw [List.map_cons]
    by_cases hk : c.1 = k
    · rw [if_pos hk, Trie.find?, Trie.find?]
      by_cases hp : c.1 = p
      · rw [if_pos hp, if_pos hp, Option.map_some, if_pos (hp.symm.trans hk)]
      · rw [if_neg hp, if_neg hp, ih]
    · rw [if_neg hk, Trie.find?, Trie.find?]
      by_cases hp : c.1 = p
      · rw [if_pos hp, if_pos hp, Option.map_some, if_neg (hp ▸ hk)]
      · rw [if_neg hp, if_neg hp, ih]

theorem dataAt_setMetadata (j : Json) (ks q : List Name) (t : Tree) :
    (setMetadata j ks t).dataAt q =
      (t.dataAt q).map fun d => if q = ks then { d with metadata := some j } else d := by
  induction ks generalizing q t with
  | nil =>
    cases q with
    | nil => rfl
    | cons p ps =>
      rw [setMetadata, dataAt_cons, dataAt_cons, Trie.children]
      simp
  | cons k ks ih =>
    cases q with
    | nil => rfl
    | cons p ps =>
      rw [setMetadata, dataAt_cons, dataAt_cons, Trie.children, find?_setMetadata]
      cases Trie.find? p t.children with
      | none => rfl
      | some c =>
        simp only [Option.map_some, Option.bind_some]
        by_cases hp : p = k
        · subst hp
          rw [if_pos rfl, ih]
          simp
        · rw [if_neg hp]
          simp [hp]

theorem ordered_setMetadata (j : Json) (ks : List Name) {t : Tree} (h : t.Ordered) :
    (setMetadata j ks t).Ordered := by
  induction ks generalizing t with
  | nil => exact .node h.sorted h.child
  | cons k ks ih =>
    refine .node ?_ ?_
    · refine List.pairwise_map.mpr (h.sorted.imp ?_)
      intro a b hlt
      split_ifs <;> exact hlt
    · intro c hc
      obtain ⟨b, hb, rfl⟩ := List.mem_map.mp hc
      have hchild := h.child b hb
      split_ifs
      · exact ih hchild
      · exact hchild

/-- The root of the panel, with the time that earlier lists left in it. -/
def root (modified : ℕ) : Tree := new [] [] modified

/-- The tree of a list, after metadata came for some of its files. -/
def bearing (modified : ℕ) (list : List Entry) (marks : List (Name × Json)) : Tree :=
  marks.foldl (fun t m => setMetadata m.2 (split m.1) t) ((root modified).addAll list)

/-- Only the metadata of files differs from the tree of the list. -/
structure Bears (list : List Entry) (t u : Tree) : Prop where
  ordered : u.Ordered
  same : ∀ q d, u.dataAt q = some d → ∃ e, t.dataAt q = some e ∧ e.fullPath = d.fullPath ∧
    e.dateModified = d.dateModified ∧ (d.metadata = e.metadata ∨ ∃ f ∈ list, split f.path = q)

theorem tree_data {modified : ℕ} {list : List Entry} {q : List Name} {d : Info}
    (hd : ((root modified).addAll list).dataAt q = some d) :
    d.fullPath = walked [] q ∧ d.metadata = none := by
  refine forall_addAll (root modified)
    (P := fun q d => d.fullPath = walked [] q ∧ d.metadata = none) ⟨rfl, rfl⟩ ?_ ?_ hd
  · exact fun _ _ _ _ _ => ⟨rfl, rfl⟩
  · intro q modified d hd
    rw [touch_eq]
    exact hd

section
variable (modified : ℕ) {list : List Entry} {marks : List (Name × Json)}
  (hmarks : ∀ m ∈ marks, ∃ f ∈ list, f.path = m.1)

include hmarks

theorem bears_bearing :
    Bears list ((root modified).addAll list) (bearing modified list marks) := by
  unfold bearing
  refine List.foldlRecOn (motive := fun u : Tree => Bears list ((root modified).addAll list) u)
    marks _ ?_ ?_
  · exact ⟨ordered_addAll (ordered_clear (root modified)) list,
      fun q d hd => ⟨d, hd, rfl, rfl, .inl rfl⟩⟩
  · intro u hu m hm
    refine ⟨ordered_setMetadata m.2 (split m.1) hu.ordered, ?_⟩
    intro q d hd
    rw [dataAt_setMetadata] at hd
    obtain ⟨e, he, rfl⟩ := Option.map_eq_some_iff.mp hd
    obtain ⟨b, hb, hpath, hdate, hmeta⟩ := hu.same q e he
    split_ifs with hq
    · obtain ⟨f, hf, hname⟩ := hmarks m hm
      exact ⟨b, hb, hpath, hdate, .inr ⟨f, hf, by rw [hname, hq]⟩⟩
    · exact ⟨b, hb, hpath, hdate, hmeta⟩

variable (h : ∀ f ∈ list, Normalised f.path)

include h

theorem bearer_is_file {q : List Name} {d : Info}
    (hd : (bearing modified list marks).dataAt q = some d) (hmeta : d.metadata ≠ none) :
    ∃ f ∈ list, split f.path = q ∧ f.path = d.fullPath := by
  obtain ⟨e, he, hpath, -, hsame | ⟨f, hf, rfl⟩⟩ := (bears_bearing modified hmarks).same q d hd
  · rw [(tree_data he).2] at hsame
    exact absurd hsame hmeta
  · refine ⟨f, hf, rfl, ?_⟩
    rw [← hpath, (tree_data he).1, walked_split (h f hf)]

theorem bearer_unique {q r : List Name} {d e : Info}
    (hq : (bearing modified list marks).dataAt q = some d)
    (hr : (bearing modified list marks).dataAt r = some e)
    (hd : d.metadata ≠ none) (he : e.metadata ≠ none) (hpath : d.fullPath = e.fullPath) :
      d = e := by
  obtain ⟨f, -, rfl, hfd⟩ := bearer_is_file modified hmarks h hq hd
  obtain ⟨g, -, rfl, hge⟩ := bearer_is_file modified hmarks h hr he
  rw [hfd.trans (hpath.trans hge.symm), hr] at hq
  exact (Option.some_inj.mp hq).symm

theorem root_bare : (bearing modified list marks).data.metadata = none := by
  by_contra hmeta
  obtain ⟨f, hf, hsplit, -⟩ := bearer_is_file modified hmarks h (dataAt_nil _) hmeta
  exact split_ne_nil (h f hf) hsplit

/-- A node of the new tree has metadata exactly if a node of the old one had it under
the same path and time, and that was the file of this path. -/
theorem metadata_survives_rebuild (other : List Entry) {q : List Name} {n : Tree}
    (hn : (rebuild (bearing modified list marks) other).sub? q = some n) (j : Json) :
    (n.data.metadata = some j ↔ ∃ r old, (bearing modified list marks).sub? r = some old ∧
      old.data.fullPath = n.data.fullPath ∧ old.data.dateModified = n.data.dateModified ∧
      old.data.metadata = some j) ∧
    (n.data.metadata = some j → ∃ f ∈ list, f.path = n.data.fullPath ∧
      ∃ old, (bearing modified list marks).sub? (split f.path) = some old ∧
        old.data.dateModified = n.data.dateModified ∧ old.data.metadata = some j) := by
  have hdata : dataAt (rebuild (bearing modified list marks) other) q = some n.data := by
    rw [dataAt, hn]
    rfl
  have hmeta := metadata_rebuild (root_bare modified hmarks h) hdata j
  rw [lookup_collectMetadata (bears_bearing modified hmarks).ordered
    fun q r d e => bearer_unique modified hmarks h] at hmeta
  have hiff : n.data.metadata = some j ↔ ∃ r old, (bearing modified list marks).sub? r = some old ∧
      old.data.fullPath = n.data.fullPath ∧ old.data.dateModified = n.data.dateModified ∧
      old.data.metadata = some j := by
    rw [hmeta]
    constructor
    · rintro ⟨r, d, hr, hd⟩
      obtain ⟨old, hold, rfl⟩ := Option.map_eq_some_iff.mp hr
      exact ⟨r, old, hold, hd⟩
    · rintro ⟨r, old, hold, hd⟩
      exact ⟨r, old.data, by rw [dataAt, hold]; rfl, hd⟩
  refine ⟨hiff, ?_⟩
  intro hj
  obtain ⟨r, old, hold, hpath, hdate, hbear⟩ := hiff.mp hj
  have hr : (bearing modified list marks).dataAt r = some old.data := by
    rw [dataAt, hold]
    rfl
  obtain ⟨f, hf, rfl, hfile⟩ := bearer_is_file modified hmarks h hr
    (by rw [hbear]; exact Option.some_ne_none j)
  exact ⟨f, hf, hfile.trans hpath, old, hold, hdate, hbear⟩

end

def cube : Name := ['c', '.', 'g']
def part : Name := ['u', '/', 'p', '.', 'g']

/-- Both files had metadata; since then `c.g` was sent again. -/
theorem metadata_survives_for_part :
    (dataAt (rebuild (bearing 0 [⟨cube, 7⟩, ⟨part, 5⟩] [(part, .null), (cube, .null)])
        [⟨part, 5⟩, ⟨cube, 8⟩]) (split cube)).map Info.metadata = some none ∧
      ∃ n, (rebuild (bearing 0 [⟨cube, 7⟩, ⟨part, 5⟩] [(part, .null), (cube, .null)])
        [⟨part, 5⟩, ⟨cube, 8⟩]).sub? (split part) = some n ∧ n.data.metadata = some .null := by
  refine ⟨by decide +kernel, ?_⟩
  have hnew : dataAt (rebuild (bearing 0 [⟨cube, 7⟩, ⟨part, 5⟩] [(part, .null), (cube, .null)])
      [⟨part, 5⟩, ⟨cube, 8⟩]) (split part) = some ⟨['p', '.', 'g'], part, 5, some .null⟩ := by
    decide +kernel
  have hold : dataAt (bearing 0 [⟨cube, 7⟩, ⟨part, 5⟩] [(part, .null), (cube, .null)])
      (split part) = some ⟨['p', '.', 'g'], part, 5, some .null⟩ := by
    decide +kernel
  obtain ⟨n, hn, hdata⟩ := Option.map_eq_some_iff.mp hnew
  obtain ⟨old, hsub, hwas⟩ := Option.map_eq_some_iff.mp hold
  refine ⟨n, hn, ?_⟩
  have hsurvives := metadata_survives_rebuild 0 (by decide +kernel) (by decide +kernel) _ hn .null
  exact hsurvives.1.mpr ⟨split part, old,
    hsub, by rw [hwas, hdata], by rw [hwas, hdata], by rw [hwas]⟩

end Tree

end GuppyScreen.PrintPanel
