import Mathlib.Algebra.BigOperators.Group.List.Basic
import Mathlib.Algebra.Order.Monoid.Defs
import Mathlib.Data.List.Basic

/-!
# Runs of a deterministic machine

A machine is a total step function on a state type; an event that cannot occur
leaves the state alone. A run is a list of events. `Along` states a property of
every step of a run, read at the state before the step, so a condition on the
inputs of a run and a guarantee about it have the same shape.
-/

namespace GuppyScreen.Lib.Run

variable {S E : Type} (step : S → E → S)

def run (s : S) (es : List E) : S := es.foldl step s

/-- `P` holds of every step of the run, at the state before the step. -/
def Along (P : S → E → Prop) : S → List E → Prop
  | _, [] => True
  | s, e :: es => P s e ∧ Along P (step s e) es

instance Along.decidable {P : S → E → Prop} [∀ s e, Decidable (P s e)] :
    (s : S) → (es : List E) → Decidable (Along step P s es)
  | _, [] => .isTrue trivial
  | s, e :: es =>
    have : Decidable (Along step P (step s e) es) := Along.decidable (step s e) es
    inferInstanceAs (Decidable (P s e ∧ Along step P (step s e) es))

@[simp] theorem run_nil (s : S) : run step s [] = s := rfl

@[simp] theorem run_cons (s : S) (e : E) (es : List E) :
    run step s (e :: es) = run step (step s e) es := rfl

theorem run_append (s : S) (as bs : List E) :
    run step s (as ++ bs) = run step (run step s as) bs := by
  simp only [run, List.foldl_append]

variable {step}

theorem along_append {P : S → E → Prop} (s : S) (as bs : List E) :
    Along step P s (as ++ bs) ↔ Along step P s as ∧ Along step P (run step s as) bs := by
  induction as generalizing s with
  | nil => simp [Along]
  | cons e as ih =>
    simp only [List.cons_append, Along, run_cons, ih, and_assoc]

theorem along_of_step {P : S → E → Prop} (h : ∀ s e, P s e) (s : S) (es : List E) :
    Along step P s es := by
  induction es generalizing s with
  | nil => trivial
  | cons e es ih => exact ⟨h s e, ih (step s e)⟩

theorem along_const_iff {C : E → Prop} (s : S) {es : List E} :
    Along step (fun _ e => C e) s es ↔ ∀ e ∈ es, C e := by
  induction es generalizing s with
  | nil => simp [Along]
  | cons e es ih => rw [Along, ih, List.forall_mem_cons]

theorem along_of_forall {C : E → Prop} (s : S) {es : List E} (h : ∀ e ∈ es, C e) :
    Along step (fun _ e => C e) s es := (along_const_iff s).mpr h

/-- Invariant rule: what each step keeps under a condition holds at the end of
every run whose steps all meet the condition. -/
theorem invariant {I : S → Prop} {C : S → E → Prop}
    (keep : ∀ s e, I s → C s e → I (step s e))
    (s : S) (es : List E) (hs : I s) (hc : Along step C s es) : I (run step s es) := by
  induction es generalizing s with
  | nil => exact hs
  | cons e es ih => exact ih (step s e) (keep s e hs hc.1) hc.2

theorem along_of_invariant {I : S → Prop} {C Q : S → E → Prop}
    (keep : ∀ s e, I s → C s e → I (step s e))
    (guarantee : ∀ s e, I s → C s e → Q s e)
    (s : S) (es : List E) (hs : I s) (hc : Along step C s es) : Along step Q s es := by
  induction es generalizing s with
  | nil => trivial
  | cons e es ih =>
    exact ⟨guarantee s e hs hc.1, ih (step s e) (keep s e hs hc.1) hc.2⟩

theorem invariant_always {I : S → Prop} (keep : ∀ s e, I s → I (step s e))
    (s : S) (es : List E) (hs : I s) : I (run step s es) := by
  induction es generalizing s with
  | nil => exact hs
  | cons e es ih => exact ih (step s e) (keep s e hs)

/-- Amortized growth: what each step adds to a potential at most, a run adds in sum. -/
theorem growth_le {K : Type} [AddCommMonoid K] [PartialOrder K] [IsOrderedAddMonoid K]
    {I : S → Prop} {φ : S → K} {cost : E → K} (keep : ∀ s e, I s → I (step s e))
    (h : ∀ s e, I s → φ (step s e) ≤ φ s + cost e) (s : S) (es : List E) (hs : I s) :
    φ (run step s es) ≤ φ s + (es.map cost).sum := by
  induction es generalizing s with
  | nil => simp
  | cons e es ih =>
    rw [run_cons, List.map_cons, List.sum_cons, ← add_assoc]
    exact (ih (step s e) (keep s e hs)).trans (add_le_add_left (h s e hs) _)

/-- Amortized counting: a potential that only the events of one kind raise, and those by
one, is bounded by their number. -/
theorem potential_le {φ : S → ℕ} {p : E → Bool}
    (h : ∀ s e, φ (step s e) ≤ φ s + if p e then 1 else 0) (s : S) (es : List E) :
    φ (run step s es) ≤ φ s + es.countP p := by
  induction es generalizing s with
  | nil => simp
  | cons e es ih =>
    rw [run_cons, List.countP_cons]
    have hrest := ih (step s e)
    have hstep := h s e
    omega

/-- Two properties agree along a run when they do at each step, as long as every
step so far had them. -/
theorem along_iff {I : S → Prop} {C P Q : S → E → Prop}
    (keep : ∀ s e, I s → C s e → Q s e → I (step s e))
    (h : ∀ s e, I s → C s e → (P s e ↔ Q s e))
    (s : S) (es : List E) (hs : I s) (hc : Along step C s es) :
    Along step P s es ↔ Along step Q s es := by
  induction es generalizing s with
  | nil => exact Iff.rfl
  | cons e es ih =>
    refine and_congr_right_iff.mpr ?_ |>.trans (and_congr_left' (h s e hs hc.1))
    intro hp
    exact ih (step s e) (keep s e hs hc.1 ((h s e hs hc.1).mp hp)) hc.2

theorem along_congr {I : S → Prop} {P Q : S → E → Prop} (keep : ∀ s e, I s → I (step s e))
    (h : ∀ s e, I s → (P s e ↔ Q s e)) (s : S) (es : List E) (hs : I s) :
    Along step P s es ↔ Along step Q s es :=
  along_iff (C := fun _ _ => True) (fun s e hi _ _ => keep s e hi) (fun s e hi _ => h s e hi) s es
    hs (along_of_step (fun _ _ => trivial) s es)

/-- Exactness: where breaking the condition leads into a trap, and only that does,
a run is outside the trap exactly when every step met the condition. -/
theorem not_trapped_iff_along {I T : S → Prop} {C : S → E → Prop}
    (keep : ∀ s e, I s → C s e → I (step s e))
    (outside : ∀ s, I s → ¬ T s)
    (fall : ∀ s e, I s → ¬ C s e → T (step s e))
    (stay : ∀ s e, T s → T (step s e))
    (s : S) (es : List E) (hs : I s) : ¬ T (run step s es) ↔ Along step C s es := by
  induction es generalizing s with
  | nil => exact ⟨fun _ => trivial, fun _ => outside s hs⟩
  | cons e es ih =>
    by_cases hc : C s e
    · rw [run_cons, ih (step s e) (keep s e hs hc)]
      exact ⟨fun h => ⟨hc, h⟩, fun h => h.2⟩
    · have htrap : T (run step (step s e) es) :=
        invariant_always stay (step s e) es (fall s e hs hc)
      exact ⟨fun h => absurd htrap h, fun h => absurd h.1 hc⟩

/-! ### Runs with a log -/

section
variable {M : Type} (step) (marks : S → E → List M)

/-- The machine together with a log of what its steps did, the latest first. -/
def logged (s : S × List M) (e : E) : S × List M := (step s.1 e, marks s.1 e ++ s.2)

theorem along_logged (P : S → E → Prop) (s : S) (log : List M) (es : List E) :
    Along (logged step marks) (fun t e => P t.1 e) (s, log) es ↔ Along step P s es := by
  induction es generalizing s log with
  | nil => exact Iff.rfl
  | cons e es ih => exact and_congr Iff.rfl (ih (step s e) (marks s e ++ log))

end

end GuppyScreen.Lib.Run
