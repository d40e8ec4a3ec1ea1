import GuppyScreen.Lib.Json
import GuppyScreen.Lib.Text

/-!
# Writing through JSON pointers

`operator[]` with a pointer creates what is missing on its way: a null becomes an
object, or an array for a token of digits. `upsert` is one such access together
with what is then done to the value found. Along a path through objects it
always succeeds, and its effect is described by lookups.
-/

namespace GuppyScreen.Lib.Pointer

/-! ### Reading a pointer -/

def unescape : List Char → Option (List Char)
  | [] => some []
  | '~' :: '1' :: cs => (unescape cs).map ('/' :: ·)
  | '~' :: '0' :: cs => (unescape cs).map ('~' :: ·)
  | '~' :: _ => none
  | c :: cs => (unescape cs).map (c :: ·)

/-- `json_pointer(text)`, `none` where it throws. -/
def parse (text : String) : Option (List String) :=
  match text.toList with
  | [] => some []
  | '/' :: cs => ((cs.splitOn '/').mapM unescape).map (·.map String.ofList)
  | _ => none

theorem unescape_plain {cs : List Char} (h : '~' ∉ cs) : unescape cs = some cs := by
  induction cs with
  | nil => rfl
  | cons c cs ih =>
    have hc : c ≠ '~' := fun he => h (by simp [he])
    have hrest := ih fun hm => h (List.mem_cons_of_mem c hm)
    unfold unescape
    split <;> simp_all

theorem parse_tokens {tokens : List String} (hne : tokens ≠ [])
    (hs : ∀ t ∈ tokens, Text.Lacks '/' t) (ht : ∀ t ∈ tokens, Text.Lacks '~' t) :
    parse (String.ofList ('/' :: ['/'].intercalate (tokens.map String.toList))) = some tokens := by
  have hsplit : List.splitOn '/' (['/'].intercalate (tokens.map String.toList)) =
      tokens.map String.toList := by
    refine List.splitOn_intercalate '/' (fun piece hp => ?_) (by simpa using hne)
    obtain ⟨t, hmem, rfl⟩ := List.mem_map.mp hp
    exact hs t hmem
  have hmap : (tokens.map String.toList).mapM unescape = some (tokens.map String.toList) := by
    clear hne hs hsplit
    induction tokens with
    | nil => rfl
    | cons t tokens ih =>
      have hrest := ih fun s hm => ht s (List.mem_cons_of_mem t hm)
      rw [List.map_cons, List.mapM_cons, unescape_plain (ht t (List.mem_cons_self ..)), hrest]
      rfl
  unfold parse
  rw [String.toList_ofList]
  show ((List.splitOn '/' _).mapM unescape).map (·.map String.ofList) = some tokens
  rw [hsplit, hmap]
  simp

/-! ### Writing -/

-- Assignment past the end fills up with nulls.
def setAt : Elems → ℕ → Json → Elems
  | .nil, 0, v => .cons v .nil
  | .nil, n + 1, v => .cons .null (setAt .nil n v)
  | .cons _ r, 0, v => .cons v r
  | .cons w r, n + 1, v => .cons w (setAt r n v)

def opened (token : String) : Json → Json
  | .null => if token.toList.all Char.isDigit || token = "-" then .arr .nil else .obj .nil
  | j => j

/-- `f` applied to `data[ptr]`, `none` where the access throws. -/
def upsert (f : Json → Json) : List String → Json → Option Json
  | [], j => some (f j)
  | t :: ptr, j =>
    match opened t j with
    | .obj fs => (upsert f ptr ((fs.find? t).getD .null)).map fun v => .obj (fs.insert t v)
    | .arr l =>
      (if t = "-" then some l.toList.length else arrayIndex t).bind fun n =>
        (upsert f ptr ((l.get? n).getD .null)).map fun v => .arr (setAt l n v)
    | _ => none

/-- The path leads through objects, or through what becomes one. -/
def Plain : List String → Json → Prop
  | [], _ => True
  | t :: ptr, j => ∃ fs, opened t j = .obj fs ∧ Plain ptr ((fs.find? t).getD .null)

theorem opened_obj {t : String} {j : Json} {fs : Fields} (h : opened t j = .obj fs) :
    (j = .null ∧ fs = .nil) ∨ j = .obj fs := by
  cases j with
  | null =>
    unfold opened at h
    split_ifs at h
    cases h
    exact Or.inl ⟨rfl, rfl⟩
  | obj gs =>
    cases h
    exact Or.inr rfl
  | _ => cases h

theorem opened_arr {t : String} {j : Json} {l : Elems} (h : opened t j = .arr l) :
    (j = .null ∧ l = .nil) ∨ j = .arr l := by
  cases j with
  | null =>
    unfold opened at h
    split_ifs at h
    cases h
    exact Or.inl ⟨rfl, rfl⟩
  | arr k =>
    cases h
    exact Or.inr rfl
  | _ => cases h

theorem upsert_cons {f : Json → Json} {t : String} {ptr : List String} {j : Json} {fs : Fields}
    (h : opened t j = .obj fs) : upsert f (t :: ptr) j =
      (upsert f ptr ((fs.find? t).getD .null)).map fun v => .obj (fs.insert t v) := by
  rw [upsert, h]

theorem upsert_some (f : Json → Json) {ptr : List String} {j : Json} (h : Plain ptr j) :
    ∃ k, upsert f ptr j = some k := by
  induction ptr generalizing j with
  | nil => exact ⟨f j, rfl⟩
  | cons t ptr ih =>
    obtain ⟨fs, hopen, hrest⟩ := h
    obtain ⟨k, hk⟩ := ih hrest
    exact ⟨.obj (fs.insert t k), by rw [upsert_cons hopen, hk]; rfl⟩

-- One step of a write along a plain path.
theorem upsert_inv {f : Json → Json} {t : String} {ptr : List String} {j k : Json}
    (hp : Plain (t :: ptr) j) (h : upsert f (t :: ptr) j = some k) :
    ∃ fs v, ((j = .null ∧ fs = .nil) ∨ j = .obj fs) ∧ Plain ptr ((fs.find? t).getD .null) ∧
      upsert f ptr ((fs.find? t).getD .null) = some v ∧ k = .obj (fs.insert t v) := by
  obtain ⟨fs, hopen, hrest⟩ := hp
  rw [upsert_cons hopen] at h
  obtain ⟨v, hv, hk⟩ := Option.map_eq_some_iff.mp h
  exact ⟨fs, v, opened_obj hopen, hrest, hv, hk.symm⟩

/-- A token that is no index, so that only an object has room for it. -/
def Word (t : String) : Prop :=
  arrayIndex t = none ∧ (t.toList.all Char.isDigit || t = "-") = false

instance Word.decidable (t : String) : Decidable (Word t) := inferInstanceAs (Decidable (_ ∧ _))

theorem opened_null {t : String} (h : Word t) : opened t .null = .obj .nil := by
  unfold opened
  rw [h.2]
  rfl

theorem upsert_word_arr (f : Json → Json) {t : String} (h : Word t) (ptr : List String)
    (l : Elems) :
    upsert f (t :: ptr) (.arr l) = none := by
  have hdash : t ≠ "-" := by
    intro he
    have hno := h.2
    simp [he] at hno
  have harr : upsert f (t :: ptr) (.arr l) =
      (if t = "-" then some l.toList.length else arrayIndex t).bind fun n =>
        (upsert f ptr ((l.get? n).getD .null)).map fun v => .arr (setAt l n v) := rfl
  rw [harr, if_neg hdash, h.1]
  rfl

theorem plain_of_upsert {f : Json → Json} {ptr : List String} {j k : Json}
    (hw : ∀ t ∈ ptr, Word t) (h : upsert f ptr j = some k) : Plain ptr j := by
  induction ptr generalizing j k with
  | nil => trivial
  | cons t ptr ih =>
    have ht : Word t := hw t (List.mem_cons_self ..)
    have hrest : ∀ s ∈ ptr, Word s := fun s hs => hw s (List.mem_cons_of_mem t hs)
    cases j with
    | null =>
      rw [upsert_cons (opened_null ht)] at h
      obtain ⟨v, hv, -⟩ := Option.map_eq_some_iff.mp h
      exact ⟨.nil, opened_null ht, ih hrest hv⟩
    | obj fs =>
      rw [upsert_cons rfl] at h
      obtain ⟨v, hv, -⟩ := Option.map_eq_some_iff.mp h
      exact ⟨fs, rfl, ih hrest hv⟩
    | arr l =>
      rw [upsert_word_arr f ht] at h
      cases h
    | _ => cases h

theorem plain_of_at? {t : String} {j v : Json} (hi : arrayIndex t = none)
    (h : j.at? [t] = some v) : Plain [t] j := by
  cases j with
  | obj fs => exact ⟨fs, rfl, trivial⟩
  | arr l =>
    rw [Json.at?, hi] at h
    cases h
  | _ => cases h

/-! ### What a write keeps -/

/-- Nulls may become anything, objects may gain members, all else stays. -/
def Kept (v w : Json) : Prop :=
  v = .null ∨ w = v ∨ (v.isObject = true ∧ w.isObject = true)

def Keeps (j k : Json) : Prop := ∀ q v, j.at? q = some v → ∃ w, k.at? q = some w ∧ Kept v w

/-- Every null of `k` is a null of `o`. -/
def Fresh (o : Option Json) (k : Json) : Prop :=
  ∀ q, k.at? q = some .null → o.bind (·.at? q) = some .null

theorem Kept.trans {u v w : Json} (h : Kept u v) (h' : Kept v w) : Kept u w := by
  rcases h with hnull | rfl | ⟨hu, hv⟩
  · exact Or.inl hnull
  · exact h'
  · rcases h' with rfl | rfl | ⟨_, hw⟩
    · cases hv
    · exact Or.inr (Or.inr ⟨hu, hv⟩)
    · exact Or.inr (Or.inr ⟨hu, hw⟩)

theorem Kept.ne_null {v w : Json} (h : Kept v w) (hv : v ≠ .null) : w ≠ .null := by
  rcases h with hnull | rfl | ⟨_, hw⟩
  · exact absurd hnull hv
  · exact hv
  · rintro rfl
    cases hw

theorem Kept.str {s : String} {w : Json} (h : Kept (.str s) w) : w = .str s := by
  rcases h with hnull | hw | ⟨hobj, _⟩
  · cases hnull
  · exact hw
  · cases hobj

theorem Keeps.refl (j : Json) : Keeps j j := fun _ v hv => ⟨v, hv, Or.inr (Or.inl rfl)⟩

theorem Keeps.trans {i j k : Json} (h : Keeps i j) (h' : Keeps j k) : Keeps i k := by
  intro q u hu
  obtain ⟨v, hv, huv⟩ := h q u hu
  obtain ⟨w, hw, hvw⟩ := h' q v hv
  exact ⟨w, hw, huv.trans hvw⟩

theorem Keeps.root {v w : Json} (h : Keeps v w) : Kept v w := by
  obtain ⟨x, hx, hk⟩ := h [] v (Json.at?_nil v)
  rw [Json.at?_nil] at hx
  cases hx
  exact hk

theorem Fresh.trans {i j k : Json} (h : Fresh (some i) j) (h' : Fresh (some j) k) :
    Fresh (some i) k := fun q hq => h q (h' q hq)

theorem keeps_at {j k v : Json} {q : List String} (h : Keeps j k) (hv : j.at? q = some v) :
    ∃ w, k.at? q = some w ∧ Keeps v w := by
  obtain ⟨w, hw, -⟩ := h q v hv
  refine ⟨w, hw, fun r x hx => ?_⟩
  have hlong : j.at? (q ++ r) = some x := by rw [Json.at?_append, hv]; exact hx
  obtain ⟨y, hy, hk⟩ := h (q ++ r) x hlong
  rw [Json.at?_append, hw] at hy
  exact ⟨y, hy, hk⟩

theorem keeps_null (k : Json) : Keeps .null k := by
  intro q v hv
  cases q with
  | nil =>
    cases hv
    exact ⟨k, Json.at?_nil k, Or.inl rfl⟩
  | cons t q => cases hv

theorem keeps_insert {fs : Fields} {t : String} {k : Json}
    (h : Keeps ((fs.find? t).getD .null) k) : Keeps (.obj fs) (.obj (fs.insert t k)) := by
  intro q v hv
  cases q with
  | nil =>
    cases hv
    exact ⟨_, rfl, Or.inr (Or.inr ⟨rfl, rfl⟩)⟩
  | cons s q =>
    rw [Json.at?_obj] at hv ⊢
    by_cases hst : s = t
    · subst hst
      obtain ⟨w, hw, hwv⟩ := Option.bind_eq_some_iff.mp hv
      rw [hw] at h
      rw [Fields.find?_insert_self]
      exact h q v hwv
    · rw [Fields.find?_insert_ne fs k hst]
      exact ⟨v, hv, Or.inr (Or.inl rfl)⟩

theorem valueAt_opened {t : String} {ptr : List String} {j : Json} {fs : Fields}
    (hj : (j = .null ∧ fs = .nil) ∨ j = .obj fs) :
    j.valueAt (t :: ptr) = ((fs.find? t).getD .null).valueAt ptr := by
  unfold Json.valueAt
  rcases hj with ⟨rfl, rfl⟩ | rfl
  · cases ptr <;> rfl
  · rw [Json.at?_obj]
    cases fs.find? t with
    | none => cases ptr <;> rfl
    | some w => rfl

theorem keeps_upsert {f : Json → Json} {ptr : List String} {j k : Json}
    (hf : Keeps (j.valueAt ptr) (f (j.valueAt ptr))) (hp : Plain ptr j)
    (h : upsert f ptr j = some k) : Keeps j k := by
  induction ptr generalizing j k with
  | nil =>
    cases h
    simpa [Json.valueAt] using hf
  | cons t ptr ih =>
    obtain ⟨fs, v, hj, hrest, hv, rfl⟩ := upsert_inv hp h
    rw [valueAt_opened hj] at hf
    rcases hj with ⟨rfl, -⟩ | rfl
    · exact keeps_null _
    · exact keeps_insert (ih hf hrest hv)

theorem fresh_upsert {f : Json → Json} (hf : ∀ o : Option Json, Fresh o (f (o.getD .null)))
    {ptr : List String} (o : Option Json) {k : Json} (hp : Plain ptr (o.getD .null))
    (h : upsert f ptr (o.getD .null) = some k) : Fresh o k := by
  induction ptr generalizing o k with
  | nil =>
    cases h
    exact hf o
  | cons t ptr ih =>
    obtain ⟨fs, v, hj, hrest, hv, rfl⟩ := upsert_inv hp h
    have hfresh := ih (fs.find? t) hrest hv
    -- a member that is there was there before, so the value was an object already
    have hsome : ∀ {s w}, fs.find? s = some w → o = some (.obj fs) := by
      intro s w hw
      rcases hj with ⟨-, rfl⟩ | hobj
      · cases hw
      · cases o with
        | none => cases hobj
        | some i => rw [show i = .obj fs from hobj]
    intro q hq
    cases q with
    | nil => cases hq
    | cons s q =>
      rw [Json.at?_obj] at hq
      by_cases hst : s = t
      · subst hst
        rw [Fields.find?_insert_self] at hq
        have hnull := hfresh q hq
        obtain ⟨w, hw, -⟩ := Option.bind_eq_some_iff.mp hnull
        rw [hsome hw]
        exact hnull
      · rw [Fields.find?_insert_ne fs v hst] at hq
        obtain ⟨w, hw, -⟩ := Option.bind_eq_some_iff.mp hq
        rw [hsome hw]
        exact hq

theorem at?_upsert {f : Json → Json} {ptr : List String} {j k : Json} (hp : Plain ptr j)
    (h : upsert f ptr j = some k) : k.at? ptr = some (f (j.valueAt ptr)) := by
  induction ptr generalizing j k with
  | nil =>
    cases h
    simp [Json.valueAt]
  | cons t ptr ih =>
    obtain ⟨fs, v, hj, hrest, hv, rfl⟩ := upsert_inv hp h
    rw [Json.at?_obj, Fields.find?_insert_self]
    rw [valueAt_opened hj]
    exact ih hrest hv

theorem wf_upsert {f : Json → Json} (hf : ∀ v : Json, v.Wf → (f v).Wf) {ptr : List String}
    {j k : Json} (hj : j.Wf) (hp : Plain ptr j) (h : upsert f ptr j = some k) : k.Wf := by
  induction ptr generalizing j k with
  | nil =>
    cases h
    exact hf j hj
  | cons t ptr ih =>
    obtain ⟨fs, v, hobj, hrest, hv, rfl⟩ := upsert_inv hp h
    have hfs : (Json.obj fs).Wf := by
      rcases hobj with ⟨-, rfl⟩ | rfl
      · exact ⟨trivial, trivial⟩
      · exact hj
    have hmember : ((fs.find? t).getD .null).Wf := by
      cases hf : fs.find? t with
      | none => trivial
      | some w => exact Fields.wf_find? hfs.2 hf
    exact Json.wf_set hfs (ih hmember hrest hv)

theorem insert_of_find? {fs : Fields} {t : String} {v : Json} (hs : fs.Sorted)
    (h : fs.find? t = some v) : fs.insert t v = fs := by
  refine Fields.ext (Fields.insert_sorted fs t v hs) hs fun q => ?_
  by_cases hq : q = t
  · rw [hq, Fields.find?_insert_self, h]
  · exact Fields.find?_insert_ne fs v hq

theorem upsert_self {f : Json → Json} {ptr : List String} {j v : Json} (hj : j.Wf)
    (hp : Plain ptr j) (hv : j.at? ptr = some v) (hf : f v = v) : upsert f ptr j = some j := by
  induction ptr generalizing j with
  | nil =>
    rw [Json.at?_nil] at hv
    cases hv
    rw [upsert, hf]
  | cons t ptr ih =>
    obtain ⟨fs, hopen, hrest⟩ := hp
    rcases opened_obj hopen with ⟨rfl, -⟩ | rfl
    · cases hv
    · rw [Json.at?_obj] at hv
      obtain ⟨w, hw, hwv⟩ := Option.bind_eq_some_iff.mp hv
      rw [hw] at hrest
      rw [upsert_cons hopen, hw, Option.getD_some,
        ih (Fields.wf_find? hj.2 hw) hrest hwv, Option.map_some, insert_of_find? hj.1 hw]

/-! ### Values without a null -/

mutual
def nullFree : Json → Bool
  | .null => false
  | .arr l => nullFreeElems l
  | .obj fs => nullFreeFields fs
  | _ => true
def nullFreeElems : Elems → Bool
  | .nil => true
  | .cons v r => nullFree v && nullFreeElems r
def nullFreeFields : Fields → Bool
  | .nil => true
  | .cons _ v r => nullFree v && nullFreeFields r
end

theorem nullFree_get? {l : Elems} {n : ℕ} {v : Json} (h : nullFreeElems l = true)
    (hv : l.get? n = some v) : nullFree v = true := by
  match l, n with
  | .nil, _ => cases hv
  | .cons w r, 0 =>
    cases hv
    exact (Bool.and_eq_true_iff.mp h).1
  | .cons w r, n + 1 => exact nullFree_get? (Bool.and_eq_true_iff.mp h).2 hv

theorem nullFree_find? {fs : Fields} {t : String} {v : Json} (h : nullFreeFields fs = true)
    (hv : fs.find? t = some v) : nullFree v = true := by
  induction fs using Fields.spine with
  | nil => cases hv
  | cons k w r ih =>
    obtain ⟨hw, hr⟩ := Bool.and_eq_true_iff.mp h
    unfold Fields.find? at hv
    split_ifs at hv
    · cases hv
      exact hw
    · exact ih hr hv

theorem nullFree_at? {j v : Json} {q : List String} (h : nullFree j = true)
    (hv : j.at? q = some v) : nullFree v = true := by
  induction q generalizing j with
  | nil =>
    rw [Json.at?_nil] at hv
    cases hv
    exact h
  | cons t q ih =>
    cases j with
    | obj fs =>
      obtain ⟨w, hw, hwv⟩ := Option.bind_eq_some_iff.mp hv
      exact ih (nullFree_find? h hw) hwv
    | arr l =>
      obtain ⟨n, -, hn⟩ := Option.bind_eq_some_iff.mp hv
      obtain ⟨w, hw, hwv⟩ := Option.bind_eq_some_iff.mp hn
      exact ih (nullFree_get? h hw) hwv
    | _ => cases hv

theorem fresh_of_nullFree {o : Option Json} {k : Json} (h : nullFree k = true) : Fresh o k := by
  intro q hq
  cases nullFree_at? h hq

theorem fresh_self (o : Option Json) (h : o.getD .null ≠ .null) : Fresh o (o.getD .null) := by
  cases o with
  | none => exact absurd rfl h
  | some v => exact fun q hq => hq

theorem fresh_set (o : Option Json) (t : String) {x : Json} (hx : nullFree x = true) :
    Fresh o ((o.getD .null).set t x) := by
  intro q hq
  cases q with
  | nil => cases hq
  | cons s q =>
    have hq : (((o.getD .null).members.insert t x).find? s).bind (·.at? q) = some .null := hq
    by_cases hst : s = t
    · subst hst
      rw [Fields.find?_insert_self] at hq
      cases nullFree_at? hx hq
    · rw [Fields.find?_insert_ne _ x hst] at hq
      cases o with
      | none => cases hq
      | some v =>
        cases v with
        | obj fs => exact hq
        | _ => cases hq

/-! ### Assigning a member -/

theorem set_self {j v : Json} {t : String} (hj : j.Wf) (h : j.get? t = some v) :
    j.set t v = j := by
  cases j with
  | obj fs => exact congrArg Json.obj (insert_of_find? hj.1 h)
  | _ => cases h

theorem at?_set_self (j : Json) (t : String) (v : Json) (q : List String) :
    (j.set t v).at? (t :: q) = v.at? q := Json.at?_of_get? (Json.get?_set_self j t v) q

theorem at?_set_ne {j : Json} (hj : j.isObject = true) {s t : String} (h : s ≠ t) (v : Json)
    (q : List String) : (j.set t v).at? (s :: q) = j.at? (s :: q) := by
  cases j with
  | obj fs =>
    rw [Json.set, Json.at?_obj, Json.at?_obj, show (Json.obj fs).members = fs from rfl,
      Fields.find?_insert_ne fs v h]
  | _ => cases hj

theorem upsert_top {f : Json → Json} {j : Json} (hj : j.isObject = true) (t : String) :
    upsert f [t] j = some (j.set t (f ((j.get? t).getD .null))) := by
  cases j with
  | obj fs => rfl
  | _ => cases hj

/-! ### What a write leaves alone -/

/-- The two paths part before either ends. -/
def Apart : List String → List String → Prop
  | s :: q, t :: p => s ≠ t ∨ Apart q p
  | _, _ => False

theorem at?_upsert_apart {f : Json → Json} {ptr q : List String} {j k : Json} (hp : Plain ptr j)
    (h : upsert f ptr j = some k) (ha : Apart q ptr) : k.at? q = j.at? q := by
  induction ptr generalizing q j k with
  | nil => cases q <;> cases ha
  | cons t ptr ih =>
    obtain ⟨fs, v, hj, hrest, hv, rfl⟩ := upsert_inv hp h
    cases q with
    | nil => cases ha
    | cons s q =>
      have hold : j.at? (s :: q) = (fs.find? s).bind (·.at? q) := by
        rcases hj with ⟨rfl, rfl⟩ | rfl <;> rfl
      rw [hold, Json.at?_obj]
      by_cases hst : s = t
      · subst hst
        have hq : Apart q ptr := ha.resolve_left fun hne => hne rfl
        rw [Fields.find?_insert_self, Option.bind_some, ih hrest hv hq]
        cases fs.find? s with
        | some w => rfl
        | none =>
          cases q with
          | nil => cases hq
          | cons r q => rfl
      · rw [Fields.find?_insert_ne fs v hst]

/-- Reading with `operator[]` leaves what there is to read. -/
theorem valueAt_look {ptr q : List String} {j k : Json} (hw : ∀ t ∈ ptr, Word t)
    (h : upsert id ptr j = some k) (hq : q = ptr ∨ Apart q ptr) : k.valueAt q = j.valueAt q := by
  have hp := plain_of_upsert hw h
  unfold Json.valueAt
  rcases hq with rfl | hq
  · rw [at?_upsert hp h]
    rfl
  · rw [at?_upsert_apart hp h hq]

theorem get?_setAt_self (v : Json) (l : Elems) (n : ℕ) : (setAt l n v).get? n = some v := by
  match l, n with
  | .nil, 0 => rfl
  | .nil, n + 1 => exact get?_setAt_self v .nil n
  | .cons _ _, 0 => rfl
  | .cons _ r, n + 1 => exact get?_setAt_self v r n

theorem get?_setAt_ne (v : Json) (l : Elems) {n m : ℕ} (h : m ≠ n) :
    ((setAt l n v).get? m).getD .null = (l.get? m).getD .null := by
  match l, n, m with
  | .nil, 0, m + 1 => cases m <;> rfl
  | .nil, n + 1, 0 => rfl
  | .nil, n + 1, m + 1 =>
    have hrest := get?_setAt_ne v .nil (n := n) (m := m) (by omega)
    cases m <;> exact hrest
  | .cons _ _, 0, m + 1 => rfl
  | .cons _ _, n + 1, 0 => rfl
  | .cons _ r, n + 1, m + 1 => exact get?_setAt_ne v r (by omega)

theorem at?_getD_str {o : Option Json} {q : List String} {s : String} :
    (o.getD .null).at? q = some (.str s) ↔ o.bind (·.at? q) = some (.str s) := by
  cases o with
  | some v => rfl
  | none => cases q <;> simp [Json.at?]

/-- Reading with `operator[]` neither adds a string nor takes one away. -/
theorem at?_look_str {ptr q : List String} {j k : Json} {s : String}
    (h : upsert id ptr j = some k) : k.at? q = some (.str s) ↔ j.at? q = some (.str s) := by
  induction ptr generalizing q j k with
  | nil =>
    cases h
    rfl
  | cons t ptr ih =>
    unfold upsert at h
    split at h
    · rename_i fs hopen
      obtain ⟨v, hv, rfl⟩ := Option.map_eq_some_iff.mp h
      cases q with
      | nil => rcases opened_obj hopen with ⟨rfl, -⟩ | rfl <;> simp
      | cons r q =>
        have hold : j.at? (r :: q) = (fs.find? r).bind (·.at? q) := by
          rcases opened_obj hopen with ⟨rfl, rfl⟩ | rfl <;> rfl
        rw [hold, Json.at?_obj]
        by_cases hrt : r = t
        · rw [hrt, Fields.find?_insert_self, Option.bind_some, ih hv, at?_getD_str]
        · rw [Fields.find?_insert_ne fs v hrt]
    · rename_i l hopen
      obtain ⟨n, -, h⟩ := Option.bind_eq_some_iff.mp h
      obtain ⟨v, hv, rfl⟩ := Option.map_eq_some_iff.mp h
      cases q with
      | nil => rcases opened_arr hopen with ⟨rfl, -⟩ | rfl <;> simp
      | cons r q =>
        have hold : j.at? (r :: q) = some (.str s) ↔
            (arrayIndex r).bind (fun m => (l.get? m).bind (·.at? q)) = some (.str s) := by
          rcases opened_arr hopen with ⟨rfl, rfl⟩ | rfl
          · cases arrayIndex r <;> simp [Json.at?, Elems.get?]
          · rfl
        have hnew : (Json.arr (setAt l n v)).at? (r :: q) =
            (arrayIndex r).bind fun m => ((setAt l n v).get? m).bind (·.at? q) := rfl
        rw [hold, hnew]
        cases arrayIndex r with
        | none => rfl
        | some m =>
          rw [Option.bind_some, Option.bind_some, ← at?_getD_str, ← at?_getD_str]
          by_cases hm : m = n
          · rw [hm, get?_setAt_self, Option.getD_some, ih hv]
          · rw [get?_setAt_ne v l hm]
    · cases h

/-! ### What a read leaves behind -/

/-- The members on the way are there, or the way ends at a value that can have none. -/
def untouched : List String → Json → Bool
  | [], _ => true
  | _ :: _, .null => false
  | t :: ptr, .obj fs =>
    match fs.find? t with
    | none => false
    | some v => untouched ptr v
  | _ :: _, _ => true

theorem plain_null {ptr : List String} (h : ∀ t ∈ ptr, Word t) : Plain ptr .null := by
  induction ptr with
  | nil => trivial
  | cons t ptr ih =>
    exact ⟨.nil, opened_null (h t (List.mem_cons_self ..)),
      ih fun s hs => h s (List.mem_cons_of_mem _ hs)⟩

theorem insert_eq_iff {fs : Fields} (hs : fs.Sorted) {t : String} {v : Json} :
    fs.insert t v = fs ↔ fs.find? t = some v := by
  constructor
  · intro h
    rw [← h, Fields.find?_insert_self]
  · exact insert_of_find? hs

/-- `data[ptr]` of a document leaves it as it is exactly where it inserts nothing. -/
theorem look_eq_self_iff {ptr : List String} (hw : ∀ t ∈ ptr, Word t) {j : Json} (hj : j.Wf) :
    (upsert id ptr j).getD j = j ↔ untouched ptr j = true := by
  induction ptr generalizing j with
  | nil => simp [upsert, untouched]
  | cons t ptr ih =>
    have ht : Word t := hw t (List.mem_cons_self ..)
    have hrest : ∀ s ∈ ptr, Word s := fun s hs => hw s (List.mem_cons_of_mem _ hs)
    have hnull : ∃ k, upsert id ptr .null = some k := upsert_some id (plain_null hrest)
    cases j with
    | null =>
      obtain ⟨k, hk⟩ := hnull
      rw [upsert_cons (opened_null ht)]
      simp [Fields.find?, hk, untouched]
    | obj fs =>
      rw [upsert_cons (t := t) (j := .obj fs) rfl]
      simp only [untouched]
      cases hf : fs.find? t with
      | none =>
        obtain ⟨k, hk⟩ := hnull
        simp [hk, insert_eq_iff hj.1, hf]
      | some v =>
        have hv := ih hrest (Fields.wf_find? hj.2 hf)
        rw [← hv, Option.getD_some]
        cases upsert id ptr v with
        | none => simp
        | some w => simpa [insert_eq_iff hj.1, hf] using eq_comm
    | arr l =>
      rw [upsert_word_arr id ht]
      simp [untouched]
    | _ => simp [upsert, opened, untouched]

/-- After one read there is nothing left to insert. -/
theorem untouched_look {ptr : List String} (hw : ∀ t ∈ ptr, Word t) (j : Json) :
    untouched ptr ((upsert id ptr j).getD j) = true := by
  induction ptr generalizing j with
  | nil => rfl
  | cons t ptr ih =>
    have ht : Word t := hw t (List.mem_cons_self ..)
    have hrest := ih fun s hs => hw s (List.mem_cons_of_mem _ hs)
    have hmembers : ∀ (fs : Fields) (i : Json), opened t i = .obj fs →
        (∀ v, upsert id ptr ((fs.find? t).getD .null) = some v →
          untouched (t :: ptr) ((upsert id (t :: ptr) i).getD i) = true) := by
      intro fs i hopen v hv
      rw [upsert_cons hopen, hv]
      have hleft := hrest ((fs.find? t).getD .null)
      rw [hv] at hleft
      simpa [untouched] using hleft
    cases j with
    | null =>
      obtain ⟨k, hk⟩ := upsert_some id (plain_null fun s hs => hw s (List.mem_cons_of_mem _ hs))
      exact hmembers .nil .null (opened_null ht) k hk
    | obj fs =>
      cases hv : upsert id ptr ((fs.find? t).getD .null) with
      | some v => exact hmembers fs (.obj fs) rfl v hv
      | none =>
        rw [upsert_cons (t := t) (j := .obj fs) rfl, hv]
        cases hf : fs.find? t with
        | none =>
          obtain ⟨k, hk⟩ := upsert_some id (plain_null fun s hs => hw s (List.mem_cons_of_mem _ hs))
          rw [hf, Option.getD_none, hk] at hv
          cases hv
        | some v =>
          have hleft := hrest v
          rw [hf, Option.getD_some] at hv
          rw [hv] at hleft
          simpa [untouched, hf] using hleft
    | arr l =>
      rw [upsert_word_arr id ht]
      simp [untouched]
    | _ => simp [upsert, opened, untouched]

end GuppyScreen.Lib.Pointer
