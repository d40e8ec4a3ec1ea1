import Mathlib.Data.Nat.Basic
import Mathlib.Tactic.Cases

/-!
# Loops over a counter of a fixed width

A `for` loop whose counter starts again at 0 after `m - 1`. It ends for a bound the
counter reaches, and for no other.
-/

namespace GuppyScreen.Lib.Counter

variable {σ : Type}

/-- At most `fuel` tests of the condition, from the counter `r` on. -/
def loop (m : ℕ) (go : ℕ → σ → Bool) (body : ℕ → σ → σ) : ℕ → ℕ → σ → Option σ
  | 0, _, _ => none
  | fuel + 1, r, s =>
    if go r s then loop m go body fuel ((r + 1) % m) (body r s) else some s

variable {m : ℕ} {go : ℕ → σ → Bool} {body : ℕ → σ → σ}

theorem loop_eq_none (hgo : ∀ r, r < m → ∀ s, go r s = true) (fuel : ℕ) {r : ℕ} (hr : r < m)
    (s : σ) :
    loop m go body fuel r s = none := by
  induction fuel generalizing r s with
  | zero => rfl
  | succ fuel ih =>
    rw [loop, if_pos (hgo r hr s)]
    apply ih
    apply Nat.mod_lt
    omega

/-- A loop that stops at `n` at the latest ends in a state of the invariant, at the
counter where it stopped. -/
theorem loop_inv (go : ℕ → σ → Bool) (body : ℕ → σ → σ) {n : ℕ} (hn : n < m) (Inv : ℕ → σ → Prop)
    (hend : ∀ s, go n s = false)
    (hstep : ∀ r s, r < n → Inv r s → go r s = true → Inv (r + 1) (body r s))
    {r : ℕ} (hr : r ≤ n) {s : σ} (hs : Inv r s) :
    ∃ k s', k ≤ n ∧ loop m go body (n - r + 1) r s = some s' ∧ Inv k s' ∧ go k s' = false := by
  induction hd : n - r generalizing r s with
  | zero =>
    have hrn : r = n := by omega
    subst hrn
    exact ⟨r, s, by omega, by rw [loop, hend s]; rfl, hs, hend s⟩
  | succ d ih =>
    rw [loop]
    cases hgo : go r s with
    | false => exact ⟨r, s, by omega, rfl, hs, hgo⟩
    | true =>
      have hmod : (r + 1) % m = r + 1 := Nat.mod_eq_of_lt (by omega)
      rw [if_pos rfl, hmod]
      exact ih (by omega) (hstep r s (by omega) hs hgo) (by omega)

end GuppyScreen.Lib.Counter
