import Mathlib.Data.Nat.Basic
import Mathlib.Logic.Function.Basic

/-!
# Trees of widgets

Live widgets know the containers they stand in, the nearest first. A container that is
cleaned destroys everything in it. Numbers are never given twice.
-/

namespace GuppyScreen.Lib

structure Widgets where
  above : ℕ → Option (List ℕ)
  next : ℕ
  fresh : ∀ i, next ≤ i → above i = none

namespace Widgets

def Live (t : Widgets) (i : ℕ) : Prop := t.above i ≠ none

instance (t : Widgets) (i : ℕ) : Decidable (t.Live i) := inferInstanceAs (Decidable (_ ≠ _))

def ChildOf (t : Widgets) (i p : ℕ) : Prop := (t.above i).bind (·.head?) = some p

instance (t : Widgets) (i p : ℕ) : Decidable (t.ChildOf i p) := inferInstanceAs (Decidable (_ = _))

/-- A new widget in `p`. Nothing becomes live in what is not. -/
def create (t : Widgets) (p : ℕ) : Widgets where
  above := Function.update t.above t.next ((t.above p).map (p :: ·))
  next := t.next + 1
  fresh i hi := by
    rw [Function.update_of_ne (by omega)]
    apply t.fresh
    omega

def clean (t : Widgets) (c : ℕ) : Widgets where
  above i := (t.above i).filter fun as => c ∉ as
  next := t.next
  fresh i hi := by
    rw [t.fresh i hi]
    rfl

theorem Live.lt_next {t : Widgets} {i : ℕ} (h : t.Live i) : i < t.next := by
  by_contra hge
  apply h
  apply t.fresh
  omega

theorem ChildOf.live {t : Widgets} {i p : ℕ} (h : t.ChildOf i p) : t.Live i := by
  intro hnone
  rw [ChildOf, hnone] at h
  cases h

theorem above_create_of_lt (t : Widgets) (p : ℕ) {i : ℕ} (hi : i < t.next) :
    (t.create p).above i = t.above i :=
  Function.update_of_ne (by omega) _ _

theorem childOf_create {t : Widgets} {p : ℕ} (hp : t.Live p) : (t.create p).ChildOf t.next p := by
  obtain ⟨as, has⟩ := Option.ne_none_iff_exists'.mp hp
  simp [ChildOf, create, has]

theorem childOf_create_of_lt (t : Widgets) (q : ℕ) {i p : ℕ} (hi : i < t.next) :
    (t.create q).ChildOf i p ↔ t.ChildOf i p := by
  rw [ChildOf, ChildOf, above_create_of_lt t q hi]

theorem live_create_of_lt (t : Widgets) (q : ℕ) {i : ℕ} (hi : i < t.next) :
    (t.create q).Live i ↔ t.Live i := by
  rw [Live, Live, above_create_of_lt t q hi]

theorem not_live_clean {t : Widgets} {i : ℕ} (h : ¬ t.Live i) (c : ℕ) : ¬ (t.clean c).Live i := by
  have hnone : t.above i = none := by simpa [Live] using h
  simp [Live, clean, hnone]

theorem not_live_clean_clean {t : Widgets} {i c : ℕ} (h : t.ChildOf i c) (d : ℕ) :
    ¬ ((t.clean d).clean c).Live i := by
  obtain ⟨as, has, hhead⟩ := Option.bind_eq_some_iff.mp h
  have hmem : c ∈ as := List.mem_of_head? hhead
  by_cases hd : d ∈ as <;> simp [Live, clean, has, hmem, hd]

theorem above_clean {t : Widgets} {i c : ℕ} {as : List ℕ} (h : t.above i = some as) (hc : c ∉ as) :
    (t.clean c).above i = some as := by
  simp [clean, h, hc]

end Widgets
end GuppyScreen.Lib
