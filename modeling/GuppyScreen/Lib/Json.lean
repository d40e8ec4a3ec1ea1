import Mathlib.Data.List.Basic
import Mathlib.Data.String.Basic
import Mathlib.Data.Rat.Defs

/-!
# JSON values and RFC 7396 merge patches

Values as nlohmann::json holds them: an object is a `std::map`, so its keys are
unique and in ascending order, and a patch is merged member by member in that
order. `Json.Wf` is that map invariant at every level of a value; on well formed
values object equality is equality of lookups (`Fields.ext`).
-/

namespace GuppyScreen.Lib

mutual
/-- One JSON value. Finite doubles are kept as the rationals they denote. -/
inductive Json where
  | null
  | bool (b : Bool)
  | int (n : Int)
  | float (q : ℚ)
  | str (s : String)
  | arr (l : Elems)
  | obj (fs : Fields)
  deriving DecidableEq
inductive Elems where
  | nil
  | cons (v : Json) (rest : Elems)
  deriving DecidableEq
inductive Fields where
  | nil
  | cons (k : String) (v : Json) (rest : Fields)
  deriving DecidableEq
end

/-! ### Object members -/

namespace Fields

def find? : Fields → String → Option Json
  | .nil, _ => none
  | .cons k v r, q => if k = q then some v else find? r q

/-- `std::map` assignment: in key order, an existing member replaced. -/
def insert : Fields → String → Json → Fields
  | .nil, q, w => .cons q w .nil
  | .cons k v r, q, w =>
    if q = k then .cons q w r
    else if q < k then .cons q w (.cons k v r)
    else .cons k v (insert r q w)

def erase : Fields → String → Fields
  | .nil, _ => .nil
  | .cons k v r, q => if k = q then erase r q else .cons k v (erase r q)

def keys : Fields → List String
  | .nil => []
  | .cons k _ r => k :: keys r

def Sorted : Fields → Prop
  | .nil => True
  | .cons k _ r => (∀ q ∈ r.keys, k < q) ∧ Sorted r

/-- Induction along the members, the values taken as they are. -/
@[elab_as_elim]
theorem spine {P : Fields → Prop} (nil : P .nil)
    (cons : ∀ k v r, P r → P (.cons k v r)) : ∀ fs, P fs
  | .nil => nil
  | .cons k v r => cons k v r (spine nil cons r)

theorem find?_eq_none_iff (fs : Fields) (q : String) : fs.find? q = none ↔ q ∉ fs.keys := by
  induction fs using spine with
  | nil => simp [find?, keys]
  | cons k v r ih =>
    by_cases h : k = q
    · simp [find?, keys, h]
    · simp [find?, keys, h, ih, Ne.symm h]

@[simp] theorem find?_insert_self (fs : Fields) (q : String) (w : Json) :
    (fs.insert q w).find? q = some w := by
  induction fs using spine with
  | nil => simp [insert, find?]
  | cons k v r ih =>
    unfold insert
    split_ifs with h1 h2
    · simp [find?]
    · simp [find?]
    · simp [find?, ih, Ne.symm h1]

theorem find?_insert_ne (fs : Fields) {q p : String} (w : Json) (h : p ≠ q) :
    (fs.insert q w).find? p = fs.find? p := by
  induction fs using spine with
  | nil => simp [insert, find?, Ne.symm h]
  | cons k v r ih =>
    unfold insert
    split_ifs with h1 h2
    · subst h1
      simp [find?, Ne.symm h]
    · simp [find?, Ne.symm h]
    · simp only [find?, ih]

@[simp] theorem find?_erase_self (fs : Fields) (q : String) : (fs.erase q).find? q = none := by
  induction fs using spine with
  | nil => rfl
  | cons k v r ih =>
    unfold erase
    split_ifs with h
    · exact ih
    · simp [find?, h, ih]

theorem find?_erase_ne (fs : Fields) {q p : String} (h : p ≠ q) :
    (fs.erase q).find? p = fs.find? p := by
  induction fs using spine with
  | nil => rfl
  | cons k v r ih =>
    unfold erase
    split_ifs with hk
    · subst hk
      simp [find?, ih, Ne.symm h]
    · simp only [find?, ih]

theorem mem_keys_insert {fs : Fields} {q p : String} {w : Json}
    (h : p ∈ (fs.insert q w).keys) : p = q ∨ p ∈ fs.keys := by
  by_contra hn
  push Not at hn
  have hf := find?_insert_ne fs w hn.1
  rw [(find?_eq_none_iff fs p).mpr hn.2] at hf
  exact (find?_eq_none_iff _ _).mp hf h

theorem mem_keys_erase {fs : Fields} {q p : String} (h : p ∈ (fs.erase q).keys) :
    p ∈ fs.keys := by
  by_contra hn
  have hp : p ≠ q := by
    rintro rfl
    exact (find?_eq_none_iff _ _).mp (find?_erase_self fs p) h
  have hf := find?_erase_ne fs hp
  rw [(find?_eq_none_iff fs p).mpr hn] at hf
  exact (find?_eq_none_iff _ _).mp hf h

theorem insert_sorted (fs : Fields) (q : String) (w : Json) (h : fs.Sorted) :
    (fs.insert q w).Sorted := by
  induction fs using spine with
  | nil => exact ⟨by simp [keys], trivial⟩
  | cons k v r ih =>
    unfold insert
    split_ifs with h1 h2
    · subst h1
      exact h
    · refine ⟨?_, h⟩
      intro p hp
      rcases List.mem_cons.mp hp with rfl | hp
      · exact h2
      · exact lt_trans h2 (h.1 p hp)
    · refine ⟨?_, ih h.2⟩
      intro p hp
      rcases mem_keys_insert hp with rfl | hp
      · exact lt_of_le_of_ne (not_lt.mp h2) (Ne.symm h1)
      · exact h.1 p hp

theorem erase_sorted (fs : Fields) (q : String) (h : fs.Sorted) : (fs.erase q).Sorted := by
  induction fs using spine with
  | nil => exact h
  | cons k v r ih =>
    unfold erase
    split_ifs with hk
    · exact ih h.2
    · exact ⟨fun p hp => h.1 p (mem_keys_erase hp), ih h.2⟩

theorem find?_of_lt_head {k p : String} {v : Json} {r : Fields}
    (h : (Fields.cons k v r).Sorted) (hp : p ≤ k) : r.find? p = none := by
  rw [find?_eq_none_iff]
  intro hm
  exact absurd (h.1 p hm) (not_lt.mpr hp)

theorem ext {fs gs : Fields} (hf : fs.Sorted) (hg : gs.Sorted)
    (h : ∀ q, fs.find? q = gs.find? q) : fs = gs := by
  induction fs using spine generalizing gs with
  | nil =>
    cases gs with
    | nil => rfl
    | cons k v r =>
      have hk := h k
      simp [find?] at hk
  | cons k v r ih =>
    cases gs with
    | nil =>
      have hk := h k
      simp [find?] at hk
    | cons k' v' r' =>
      have hkk : k = k' := by
        by_contra hne
        rcases lt_or_gt_of_ne hne with hlt | hlt
        · have hk := h k
          rw [find?, if_pos rfl, find?, if_neg (Ne.symm hne), find?_of_lt_head hg hlt.le] at hk
          cases hk
        · have hk := h k'
          rw [find?, if_neg hne, find?_of_lt_head hf hlt.le, find?, if_pos rfl] at hk
          cases hk
      subst hkk
      have hv : v = v' := by
        have hk := h k
        simpa [find?] using hk
      have hr : r = r' := by
        refine ih hf.2 hg.2 fun q => ?_
        by_cases hq : k = q
        · subst hq
          rw [find?_of_lt_head hf le_rfl, find?_of_lt_head hg le_rfl]
        · have hk := h q
          simpa [find?, hq] using hk
      rw [hv, hr]

end Fields

/-! ### Well formed values -/

mutual
def Json.Wf : Json → Prop
  | .arr l => l.Wf
  | .obj fs => fs.Sorted ∧ fs.Wf
  | _ => True
def Elems.Wf : Elems → Prop
  | .nil => True
  | .cons v r => v.Wf ∧ r.Wf
def Fields.Wf : Fields → Prop
  | .nil => True
  | .cons _ v r => v.Wf ∧ r.Wf
end

instance Fields.decidableSorted : (fs : Fields) → Decidable fs.Sorted
  | .nil => isTrue trivial
  | .cons k _ r =>
    have := decidableSorted r
    inferInstanceAs (Decidable ((∀ q ∈ r.keys, k < q) ∧ r.Sorted))

mutual
def Json.decidableWf : (j : Json) → Decidable j.Wf
  | .arr l => Elems.decidableWf l
  | .obj fs =>
    have := Fields.decidableWf fs
    inferInstanceAs (Decidable (fs.Sorted ∧ fs.Wf))
  | .null | .bool _ | .int _ | .float _ | .str _ => isTrue trivial
def Elems.decidableWf : (l : Elems) → Decidable l.Wf
  | .nil => isTrue trivial
  | .cons v r =>
    have := Json.decidableWf v
    have := Elems.decidableWf r
    inferInstanceAs (Decidable (v.Wf ∧ r.Wf))
def Fields.decidableWf : (fs : Fields) → Decidable fs.Wf
  | .nil => isTrue trivial
  | .cons _ v r =>
    have := Json.decidableWf v
    have := Fields.decidableWf r
    inferInstanceAs (Decidable (v.Wf ∧ r.Wf))
end

instance (j : Json) : Decidable j.Wf := j.decidableWf

namespace Fields

theorem wf_find? {fs : Fields} {q : String} {v : Json} (h : fs.Wf) (hv : fs.find? q = some v) :
    v.Wf := by
  induction fs using spine with
  | nil => simp [find?] at hv
  | cons k w r ih =>
    unfold find? at hv
    split_ifs at hv with hk
    · cases hv
      exact h.1
    · exact ih h.2 hv

theorem wf_insert {fs : Fields} {q : String} {w : Json} (h : fs.Wf) (hw : w.Wf) :
    (fs.insert q w).Wf := by
  induction fs using spine with
  | nil => exact ⟨hw, trivial⟩
  | cons k v r ih =>
    unfold insert
    split_ifs
    · exact ⟨hw, h.2⟩
    · exact ⟨hw, h⟩
    · exact ⟨h.1, ih h.2⟩

theorem wf_erase {fs : Fields} {q : String} (h : fs.Wf) : (fs.erase q).Wf := by
  induction fs using spine with
  | nil => exact h
  | cons k v r ih =>
    unfold erase
    split_ifs
    · exact ih h.2
    · exact ⟨h.1, ih h.2⟩

end Fields

namespace Json

def members : Json → Fields
  | .obj fs => fs
  | _ => .nil

def get? (j : Json) (k : String) : Option Json := j.members.find? k

/-- `j[k] = v` on an object, or on a null that becomes one. -/
def set (j : Json) (k : String) (v : Json) : Json := .obj (j.members.insert k v)

def isObject : Json → Bool
  | .obj _ => true
  | _ => false

@[simp] theorem get?_set_self (j : Json) (k : String) (v : Json) : (j.set k v).get? k = some v :=
  Fields.find?_insert_self _ _ _

theorem get?_set_ne (j : Json) {k p : String} (v : Json) (h : p ≠ k) :
    (j.set k v).get? p = j.get? p :=
  Fields.find?_insert_ne _ _ h

theorem wf_members {j : Json} (h : j.Wf) : j.members.Sorted ∧ j.members.Wf := by
  cases j with
  | obj fs => exact h
  | _ => exact ⟨trivial, trivial⟩

theorem wf_get? {j v : Json} {k : String} (h : j.Wf) (hv : j.get? k = some v) : v.Wf :=
  Fields.wf_find? (wf_members h).2 hv

theorem wf_set {j v : Json} {k : String} (h : j.Wf) (hv : v.Wf) : (j.set k v).Wf :=
  ⟨Fields.insert_sorted _ _ _ (wf_members h).1, Fields.wf_insert (wf_members h).2 hv⟩

end Json

/-! ### Merge patch -/

mutual
/-- `basic_json::merge_patch`. Recursion is on the patch. -/
def Json.mergePatch (t : Json) : Json → Json
  | .obj ps => .obj (Fields.mergeInto t.members ps)
  | p => p
/-- The loop over the patch's members: a null erases, anything else is merged
into the member of that name. -/
def Fields.mergeInto (fs : Fields) : Fields → Fields
  | .nil => fs
  | .cons k v r =>
    Fields.mergeInto
      (if v = .null then fs.erase k
        else fs.insert k (Json.mergePatch ((fs.find? k).getD .null) v)) r
end

namespace Fields

/-- What a patch member does to the member of the same name. -/
def merged (t : Option Json) : Option Json → Option Json
  | none => t
  | some .null => none
  | some v => some ((t.getD .null).mergePatch v)

theorem merged_some {t : Option Json} {v : Json} (h : v ≠ .null) :
    merged t (some v) = some ((t.getD .null).mergePatch v) := by
  cases v with
  | null => exact absurd rfl h
  | _ => rfl

/-- Lookup after the loop. The patch's keys are distinct, so each member is
touched once. -/
theorem find?_mergeInto (ps fs : Fields) (hp : ps.Sorted) (q : String) :
    (mergeInto fs ps).find? q = merged (fs.find? q) (ps.find? q) := by
  induction ps using spine generalizing fs with
  | nil => rfl
  | cons k v r ih =>
    unfold mergeInto
    rw [ih _ hp.2]
    by_cases hq : k = q
    · subst hq
      rw [find?_of_lt_head hp le_rfl]
      by_cases hv : v = .null
      · subst hv
        simp [find?, merged]
      · rw [if_neg hv, find?_insert_self, find?, if_pos rfl, merged_some hv]
        rfl
    · have hr : (cons k v r).find? q = r.find? q := by rw [find?, if_neg hq]
      rw [hr]
      split_ifs with hv
      · rw [find?_erase_ne _ (Ne.symm hq)]
      · rw [find?_insert_ne _ _ (Ne.symm hq)]

theorem mergeInto_sorted (ps fs : Fields) (h : fs.Sorted) : (mergeInto fs ps).Sorted := by
  induction ps using spine generalizing fs with
  | nil => exact h
  | cons k v r ih =>
    unfold mergeInto
    apply ih
    split_ifs
    · exact erase_sorted _ _ h
    · exact insert_sorted _ _ _ h

end Fields

mutual
theorem Json.mergePatch_wf (t : Json) (ht : t.Wf) : ∀ p : Json, p.Wf → (t.mergePatch p).Wf
  | .obj ps, hp =>
    ⟨Fields.mergeInto_sorted ps _ (Json.wf_members ht).1,
      Fields.mergeInto_wf _ (Json.wf_members ht).2 ps hp.2⟩
  | .null, _ | .bool _, _ | .int _, _ | .float _, _ | .str _, _ => trivial
  | .arr _, hp => hp
theorem Fields.mergeInto_wf (fs : Fields) (hf : fs.Wf) :
    ∀ ps : Fields, ps.Wf → (Fields.mergeInto fs ps).Wf
  | .nil, _ => hf
  | .cons k v r, hp => by
    unfold Fields.mergeInto
    apply Fields.mergeInto_wf
    · split_ifs
      · exact Fields.wf_erase hf
      · apply Fields.wf_insert hf
        apply Json.mergePatch_wf _ _ v hp.1
        cases hk : fs.find? k with
        | none => trivial
        | some w => exact Fields.wf_find? hf hk
    · exact hp.2
end

/-! ### When a merge leaves exactly the patch -/

mutual
/-- The patch wins outright: it is not an object, or it has no null member and
names every member the target has, at every level of nesting. -/
def Json.settles (t : Json) : Json → Bool
  | .obj vs => (t.members.keys.all fun k => (vs.find? k).isSome) && Fields.settles t.members vs
  | _ => true
def Fields.settles (ts : Fields) : Fields → Bool
  | .nil => true
  | .cons k v r =>
    decide (v ≠ .null) && Json.settles ((ts.find? k).getD .null) v && Fields.settles ts r
end

mutual
theorem Json.mergePatch_eq_patch_iff (t : Json) (ht : t.Wf) :
    ∀ v : Json, v.Wf → (t.mergePatch v = v ↔ t.settles v = true)
  | .obj vs, hv => by
    have hs := (Json.wf_members ht).1
    have hmem := Fields.mergeInto_eq_patch_iff t.members (Json.wf_members ht).2 vs hv.1 hv.2
    have hlook : Fields.mergeInto t.members vs = vs ↔
        ∀ q, (Fields.mergeInto t.members vs).find? q = vs.find? q :=
      ⟨fun h q => by rw [h], Fields.ext (Fields.mergeInto_sorted vs _ hs) hv.1⟩
    simp only [Json.mergePatch, Json.obj.injEq, hlook, Json.settles, Bool.and_eq_true,
      List.all_eq_true, ← hmem]
    constructor
    · intro h
      refine ⟨fun k hk => ?_, fun q w hq => ?_⟩
      · by_contra hn
        have hnone : vs.find? k = none := by simpa using hn
        have hk' := h k
        rw [Fields.find?_mergeInto vs _ hv.1, hnone] at hk'
        exact (Fields.find?_eq_none_iff _ _).mp hk' hk
      · rw [← hq]
        exact (Fields.find?_mergeInto vs _ hv.1 q).symm.trans (h q)
    · rintro ⟨hkeys, hvals⟩ q
      rw [Fields.find?_mergeInto vs _ hv.1]
      cases hq : vs.find? q with
      | none =>
        simp only [Fields.merged]
        rw [Fields.find?_eq_none_iff]
        intro hk
        have := hkeys q hk
        simp [hq] at this
      | some w => exact hvals q w hq
  | .null, _ | .bool _, _ | .int _, _ | .float _, _ | .str _, _ | .arr _, _ => by
    simp [Json.mergePatch, Json.settles]
theorem Fields.mergeInto_eq_patch_iff (ts : Fields) (ht : ts.Wf) :
    ∀ vs : Fields, vs.Sorted → vs.Wf →
      ((∀ q w, vs.find? q = some w → Fields.merged (ts.find? q) (some w) = some w) ↔
        Fields.settles ts vs = true)
  | .nil, _, _ => by simp [Fields.find?, Fields.settles]
  | .cons k v r, hs, hv => by
    have hrest := Fields.mergeInto_eq_patch_iff ts ht r hs.2 hv.2
    have htk : ((ts.find? k).getD .null).Wf := by
      cases hk : ts.find? k with
      | none => trivial
      | some w => exact Fields.wf_find? ht hk
    have hhead := Json.mergePatch_eq_patch_iff _ htk v hv.1
    have hone : Fields.merged (ts.find? k) (some v) = some v ↔
        v ≠ .null ∧ ((ts.find? k).getD .null).settles v = true := by
      by_cases hn : v = .null
      · subst hn
        simp [Fields.merged]
      · rw [Fields.merged_some hn, Option.some.injEq, hhead]
        exact ⟨fun h => ⟨hn, h⟩, fun h => h.2⟩
    simp only [Fields.settles, Bool.and_eq_true, decide_eq_true_eq, ← hrest, ← hone]
    constructor
    · intro h
      refine ⟨h k v (by simp [Fields.find?]), fun q w hq => h q w ?_⟩
      have hne : k ≠ q := by
        rintro rfl
        rw [Fields.find?_of_lt_head hs le_rfl] at hq
        cases hq
      rw [Fields.find?, if_neg hne, hq]
    · rintro ⟨h1, h2⟩ q w hq
      unfold Fields.find? at hq
      split_ifs at hq with hk
      · subst hk
        cases hq
        exact h1
      · exact h2 q w hq
end

/-! ### JSON pointers -/

def Elems.get? : Elems → Nat → Option Json
  | .nil, _ => none
  | .cons v _, 0 => some v
  | .cons _ r, n + 1 => r.get? n

theorem Elems.wf_get? {v : Json} : ∀ (l : Elems) (n : Nat), l.Wf → l.get? n = some v → v.Wf
  | .nil, _, _, h => by simp [Elems.get?] at h
  | .cons w r, 0, hw, h => by
    cases h
    exact hw.1
  | .cons w r, n + 1, hw, h => Elems.wf_get? r n hw.2 h

def Elems.toList : Elems → List Json
  | .nil => []
  | .cons v r => v :: r.toList

def Fields.values : Fields → List Json
  | .nil => []
  | .cons _ v r => v :: r.values

theorem Fields.mem_values_of_find? {fs : Fields} {q : String} {v : Json}
    (h : fs.find? q = some v) : v ∈ fs.values := by
  induction fs using Fields.spine with
  | nil => cases h
  | cons k w r ih =>
    unfold Fields.find? at h
    split_ifs at h with hk
    · cases h
      exact List.mem_cons_self ..
    · exact List.mem_cons_of_mem _ (ih h)

theorem Fields.find?_of_mem_values {fs : Fields} {v : Json} (hs : fs.Sorted)
    (h : v ∈ fs.values) : ∃ q, fs.find? q = some v := by
  induction fs using Fields.spine with
  | nil => cases h
  | cons k w r ih =>
    rcases List.mem_cons.mp h with rfl | hr
    · exact ⟨k, by rw [Fields.find?, if_pos rfl]⟩
    · obtain ⟨q, hq⟩ := ih hs.2 hr
      have hne : k ≠ q := by
        rintro rfl
        rw [Fields.find?_of_lt_head hs le_rfl] at hq
        cases hq
      exact ⟨q, by rw [Fields.find?, if_neg hne]; exact hq⟩

/-- Array index of a pointer token: decimal digits without a leading zero. -/
def arrayIndex (token : String) : Option Nat :=
  match token.toList with
  | [] => none
  | c :: cs =>
    if c.isDigit && cs.all Char.isDigit && (c != '0' || cs.isEmpty) then
      some ((c :: cs).foldl (fun n d => 10 * n + (d.toNat - 48)) 0)
    else none

namespace Json

/-- The value a pointer leads to, if there is one: `contains` and then `at`. -/
def at? : Json → List String → Option Json
  | j, [] => some j
  | .obj fs, k :: ptr => (fs.find? k).bind (at? · ptr)
  | .arr l, k :: ptr => (arrayIndex k).bind fun n => (l.get? n).bind (at? · ptr)
  | _, _ :: _ => none

/-- The value a pointer leads to, or a null when there is none. -/
def valueAt (j : Json) (ptr : List String) : Json := (j.at? ptr).getD .null

@[simp] theorem at?_nil (j : Json) : j.at? [] = some j := by
  cases j <;> rfl

theorem at?_obj (fs : Fields) (k : String) (ptr : List String) :
    (Json.obj fs).at? (k :: ptr) = (fs.find? k).bind (at? · ptr) := rfl

theorem wf_at? {v : Json} (ptr : List String) (j : Json) (hj : j.Wf) (h : j.at? ptr = some v) :
    v.Wf := by
  induction ptr generalizing j with
  | nil =>
    rw [at?_nil] at h
    cases h
    exact hj
  | cons k ptr ih =>
    cases j with
    | obj fs =>
      obtain ⟨w, hw, hv⟩ := Option.bind_eq_some_iff.mp h
      exact ih w (Fields.wf_find? hj.2 hw) hv
    | arr l =>
      obtain ⟨n, _, hn⟩ := Option.bind_eq_some_iff.mp h
      obtain ⟨w, hw, hv⟩ := Option.bind_eq_some_iff.mp hn
      exact ih w (Elems.wf_get? l n hj hw) hv
    | _ => cases h

theorem at?_append (j : Json) (as bs : List String) :
    j.at? (as ++ bs) = (j.at? as).bind (·.at? bs) := by
  induction as generalizing j with
  | nil => simp
  | cons k as ih =>
    cases j with
    | obj fs =>
      show (fs.find? k).bind (fun v => v.at? (as ++ bs)) =
        ((fs.find? k).bind (fun v => v.at? as)).bind _
      cases fs.find? k with
      | none => rfl
      | some v => exact ih v
    | arr l =>
      show (arrayIndex k).bind (fun n => (l.get? n).bind fun v => v.at? (as ++ bs)) =
        ((arrayIndex k).bind fun n => (l.get? n).bind fun v => v.at? as).bind _
      cases arrayIndex k with
      | none => rfl
      | some n =>
        cases hn : l.get? n with
        | none => simp [hn]
        | some v => simpa [hn] using ih v
    | _ => rfl

theorem at?_of_get? {j v : Json} {k : String} (h : j.get? k = some v) (ptr : List String) :
    j.at? (k :: ptr) = v.at? ptr := by
  cases j with
  | obj fs =>
    rw [at?_obj, show fs.find? k = some v from h]
    rfl
  | _ => cases h

theorem at?_null {ptr : List String} {s : String} : Json.null.at? ptr ≠ some (.str s) := by
  cases ptr <;> simp [at?]

/-- A text in the result of a merge patch is one of the patch, which wins, or of the target. -/
theorem at?_mergePatch_str {v : Json} (hv : v.Wf) (t : Json) (ptr : List String) {s : String} :
    (v.at? ptr = some (.str s) → (t.mergePatch v).at? ptr = some (.str s)) ∧
      ((t.mergePatch v).at? ptr = some (.str s) →
        v.at? ptr = some (.str s) ∨ t.at? ptr = some (.str s)) := by
  induction ptr generalizing t v with
  | nil =>
    cases v with
    | obj ps => simp [mergePatch]
    | _ => exact ⟨id, .inl⟩
  | cons k ptr ih =>
    cases v with
    | obj ps =>
      have hmerge : (t.mergePatch (.obj ps)).at? (k :: ptr) =
          (Fields.merged (t.members.find? k) (ps.find? k)).bind (·.at? ptr) := by
        rw [mergePatch, at?_obj, Fields.find?_mergeInto ps _ hv.1]
      rw [hmerge, at?_obj]
      cases hps : ps.find? k with
      | none =>
        refine ⟨fun h => (by cases h), fun h => .inr ?_⟩
        obtain ⟨x, hx, hxs⟩ := Option.bind_eq_some_iff.mp h
        rw [at?_of_get? hx]
        exact hxs
      | some w =>
        by_cases hw : w = .null
        · subst hw
          exact ⟨fun h => absurd h at?_null, fun h => (by cases h)⟩
        rw [Fields.merged_some hw]
        obtain ⟨hpatch, htarget⟩ := ih (Fields.wf_find? hv.2 hps) ((t.members.find? k).getD .null)
        refine ⟨hpatch, fun h => (htarget h).imp id fun hx => ?_⟩
        cases ht : t.members.find? k with
        | none =>
          rw [ht] at hx
          exact absurd hx at?_null
        | some x =>
          rw [ht] at hx
          rw [at?_of_get? ht]
          exact hx
    | _ => exact ⟨id, .inl⟩

theorem get?_of_at? {j v : Json} {k : String} (hk : arrayIndex k = none) (h : j.at? [k] = some v) :
    j.get? k = some v := by
  cases j with
  | obj fs =>
    rw [at?_obj] at h
    obtain ⟨y, hy, hyv⟩ := Option.bind_eq_some_iff.mp h
    rw [at?_nil] at hyv
    rw [← hyv]
    exact hy
  | arr l =>
    rw [at?, hk] at h
    cases h
  | _ => cases h

theorem valueAt_of_get? {j v : Json} {o f : String} (ptr : List String)
    (h : ((j.valueAt ptr).get? o).bind (·.get? f) = some v) : j.valueAt (ptr ++ [o, f]) = v := by
  obtain ⟨w, hw, hv⟩ := Option.bind_eq_some_iff.mp h
  unfold valueAt at hw ⊢
  rw [at?_append]
  cases hp : j.at? ptr with
  | none => rw [hp] at hw; cases hw
  | some x =>
    rw [hp, Option.getD_some] at hw
    show ((x.at? [o, f]).getD .null) = v
    rw [at?_of_get? hw, at?_of_get? hv, at?_nil]
    rfl

/-- `empty()`: true of a null and of an empty container only. -/
def isEmpty : Json → Bool
  | .null => true
  | .arr .nil => true
  | .obj .nil => true
  | _ => false

theorem isEmpty_of_at? {j v : Json} {k : String} {ptr : List String}
    (h : j.at? (k :: ptr) = some v) : j.isEmpty = false := by
  cases j with
  | obj fs =>
    cases fs with
    | nil => simp [at?, Fields.find?] at h
    | cons _ _ _ => rfl
  | arr l =>
    cases l with
    | nil =>
      obtain ⟨n, _, hn⟩ := Option.bind_eq_some_iff.mp h
      simp [Elems.get?] at hn
    | cons _ _ => rfl
  | _ => cases h

/-- What a range-based for visits: array elements, the values of an object, and
the value itself for a scalar. -/
def items : Json → List Json
  | .null => []
  | .arr l => l.toList
  | .obj fs => fs.values
  | j => [j]

def isNumber : Json → Bool
  | .int _ => true
  | .float _ => true
  | _ => false

def number? : Json → Option ℚ
  | .int n => some n
  | .float q => some q
  | _ => none

def str? : Json → Option String
  | .str s => some s
  | _ => none

theorem str?_eq_none {j : Json} (h : ∀ s, j ≠ .str s) : j.str? = none := by
  cases j with
  | str s => exact absurd rfl (h s)
  | _ => rfl

def clear : Json → Json
  | .null => .null
  | .bool _ => .bool false
  | .int _ => .int 0
  | .float _ => .float 0
  | .str _ => .str ""
  | .arr _ => .arr .nil
  | .obj _ => .obj .nil

end Json

end GuppyScreen.Lib
