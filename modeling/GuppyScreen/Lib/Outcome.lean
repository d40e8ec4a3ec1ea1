import Mathlib.Init

/-!
# Handlers that may throw

A handler mutates its object and may throw half way; the guard around it keeps
what was done so far. Its outcome is the object afterwards, and whether the
handler came to its end (`ok`) or threw (`error`).
-/

namespace GuppyScreen.Lib.Outcome

variable {S : Type}

/-- The object once the guard has caught what was thrown. -/
def final : Except S S → S
  | .ok s => s
  | .error s => s

/-- `P` holds if the handler came to its end, `Q` if it threw. -/
def Post (P Q : S → Prop) : Except S S → Prop
  | .ok s => P s
  | .error s => Q s

theorem post_bind {P Q R : S → Prop} {o : Except S S} {f : S → Except S S} (h : Post P Q o)
    (hf : ∀ s, P s → Post R Q (f s)) : Post R Q (o >>= f) := by
  cases o with
  | ok s => exact hf s h
  | error s => exact h

theorem post_final {P : S → Prop} {o : Except S S} (h : Post P P o) : P (final o) := by
  cases o with
  | ok s => exact h
  | error s => exact h

theorem post_mono {P P' Q Q' : S → Prop} {o : Except S S} (h : Post P Q o)
    (hp : ∀ s, P s → P' s) (hq : ∀ s, Q s → Q' s) : Post P' Q' o := by
  cases o with
  | ok s => exact hp s h
  | error s => exact hq s h

end GuppyScreen.Lib.Outcome
