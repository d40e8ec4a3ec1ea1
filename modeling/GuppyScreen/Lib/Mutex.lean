import Mathlib.Init

/-!
# A mutex that one thread uses

A `std::mutex` is not recursive: a thread that locks it while holding it waits
for itself. `stuck` is that state, and nothing leaves it.
-/

namespace GuppyScreen.Lib

inductive Op where
  | lock
  | unlock
  deriving DecidableEq

structure Mutex where
  held : Bool
  stuck : Bool
  deriving DecidableEq

namespace Mutex

def free : Mutex := ⟨false, false⟩

def apply (m : Mutex) : Op → Mutex
  | .lock => if m.stuck then m else if m.held then { m with stuck := true }
    else { m with held := true }
  | .unlock => if m.stuck then m else { m with held := false }

def replay (m : Mutex) (ops : List Op) : Mutex := ops.foldl apply m

/-- What a `std::lock_guard` does over its scope. -/
def guarded : List Op := [.lock, .unlock]

theorem replay_guarded_free : free.replay guarded = free := by decide

theorem replay_guarded_held {m : Mutex} (h : m.held = true) : (m.replay guarded).stuck = true := by
  obtain ⟨held, stuck⟩ := m
  simp only at h
  subst h
  cases stuck <;> decide

end Mutex

end GuppyScreen.Lib
