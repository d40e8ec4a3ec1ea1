import GuppyScreen.Lib.Run

/-!
# Handles into a pool of objects

The objects of a pool are destroyed and made again together. Each has a number that
no other object gets, so a number held by something else is a handle that may
outlive its object. A handle is live exactly while the pool has not been built anew
since it was taken.
-/

namespace GuppyScreen.Lib

structure Pool (α : Type) where
  next : ℕ
  objects : List (ℕ × α)
  bound : ∀ o ∈ objects, o.1 < next

namespace Pool

variable {α : Type}

def empty : Pool α := ⟨0, [], fun _ h => nomatch h⟩

def ids (p : Pool α) : List ℕ := p.objects.map (·.1)

def find? (p : Pool α) (id : ℕ) : Option α := p.objects.lookup id

/-- The objects numbered on from `n`. -/
def number (n : ℕ) : List α → List (ℕ × α)
  | [] => []
  | a :: as => (n, a) :: number (n + 1) as

theorem mem_number {n : ℕ} {as : List α} {o : ℕ × α} (h : o ∈ number n as) :
    n ≤ o.1 ∧ o.1 < n + as.length := by
  induction as generalizing n with
  | nil => cases h
  | cons a as ih =>
    rw [List.length_cons]
    rcases List.mem_cons.mp h with rfl | h
    · simp
    · have hrest := ih h
      omega

/-- All objects are destroyed and new ones made. -/
def rebuild (p : Pool α) (as : List α) : Pool α where
  next := p.next + as.length
  objects := number p.next as
  bound := fun _ h => (mem_number h).2

def modify (p : Pool α) (id : ℕ) (f : α → α) : Pool α where
  next := p.next
  objects := p.objects.map fun o => if o.1 = id then (o.1, f o.2) else o
  bound := by
    intro o ho
    obtain ⟨x, hx, rfl⟩ := List.mem_map.mp ho
    have hlt := p.bound x hx
    split_ifs <;> exact hlt

@[simp] theorem ids_modify (p : Pool α) (id : ℕ) (f : α → α) : (p.modify id f).ids = p.ids := by
  unfold ids modify
  rw [List.map_map]
  refine List.map_congr_left fun o _ => ?_
  simp only [Function.comp_apply]
  split_ifs <;> rfl

theorem lt_next_of_mem {p : Pool α} {id : ℕ} (h : id ∈ p.ids) : id < p.next := by
  obtain ⟨o, ho, rfl⟩ := List.mem_map.mp h
  exact p.bound o ho

theorem notMem_rebuild {p : Pool α} {id : ℕ} (h : id < p.next) (as : List α) :
    id ∉ (p.rebuild as).ids := by
  intro hmem
  obtain ⟨o, ho, rfl⟩ := List.mem_map.mp hmem
  have hle := (mem_number ho).1
  omega

theorem mem_ids_of_find? {p : Pool α} {id : ℕ} {a : α} (h : p.find? id = some a) : id ∈ p.ids := by
  obtain ⟨l, r, hsplit, -⟩ := List.lookup_eq_some_iff.mp h
  unfold ids
  rw [hsplit]
  simp

end Pool

/-! ### What was done last -/

/-- No `destroyed` since the last `taken`, in a log with the latest entry first. -/
def Since {M : Type} (taken destroyed : M) : List M → Prop
  | [] => False
  | m :: log => m = taken ∨ m ≠ destroyed ∧ Since taken destroyed log

instance Since.decidable {M : Type} [DecidableEq M] (taken destroyed : M) :
    (log : List M) → Decidable (Since taken destroyed log)
  | [] => .isFalse id
  | m :: log =>
    have : Decidable (Since taken destroyed log) := Since.decidable taken destroyed log
    inferInstanceAs (Decidable (m = taken ∨ m ≠ destroyed ∧ Since taken destroyed log))

theorem since_other {M : Type} {taken destroyed m : M} (ht : m ≠ taken) (hd : m ≠ destroyed)
    (log : List M) : Since taken destroyed (m :: log) ↔ Since taken destroyed log := by
  simp [Since, ht, hd]

/-- `held` is none, or a handle taken from the pool that is live exactly when `fresh`. -/
structure Tracks {α : Type} (p : Pool α) (held : Option ℕ) (fresh : Prop) : Prop where
  bound : ∀ id, held = some id → id < p.next
  live : ∀ id, held = some id → (id ∈ p.ids ↔ fresh)

namespace Tracks

variable {α : Type} {p : Pool α} {held : Option ℕ} {fresh : Prop}

theorem empty (p : Pool α) (fresh : Prop) : Tracks p none fresh := by
  constructor <;> intro id hid <;> cases hid

theorem take {id : ℕ} (h : id ∈ p.ids) (hfresh : fresh) : Tracks p (some id) fresh := by
  refine ⟨fun x hx => ?_, fun x hx => ?_⟩
  · cases hx
    exact Pool.lt_next_of_mem h
  · cases hx
    exact iff_of_true h hfresh

theorem rebuild (h : Tracks p held fresh) (as : List α) {stale : Prop} (hstale : ¬ stale) :
    Tracks (p.rebuild as) held stale := by
  refine ⟨fun id hid => ?_, fun id hid => ?_⟩
  · have hlt := h.bound id hid
    change id < p.next + as.length
    omega
  · exact iff_of_false (Pool.notMem_rebuild (h.bound id hid) as) hstale

theorem modify (h : Tracks p held fresh) (id : ℕ) (f : α → α) :
    Tracks (p.modify id f) held fresh := by
  refine ⟨h.bound, fun x hx => ?_⟩
  rw [Pool.ids_modify]
  exact h.live x hx

theorem congr (h : Tracks p held fresh) {still : Prop} (hiff : still ↔ fresh) :
    Tracks p held still :=
  ⟨h.bound, fun id hid => (h.live id hid).trans hiff.symm⟩

end Tracks

end GuppyScreen.Lib
