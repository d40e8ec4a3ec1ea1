import GuppyScreen.Lib.Run

/-!
# Latches

A flag of a machine that some steps set, some clear and the others leave alone. After a
run it is up exactly if a step of the run set it and none has cleared it since, or it
was up before and none has cleared it at all.
-/

namespace GuppyScreen.Lib

variable {S E : Type}

structure Latch (step : S → E → S) (up : S → Bool) (sets clears : S → E → Prop) : Prop where
  set : ∀ s e, sets s e → up (step s e) = true
  clear : ∀ s e, clears s e → up (step s e) = false
  keep : ∀ s e, ¬ sets s e → ¬ clears s e → up (step s e) = up s

namespace Latch

variable {step : S → E → S} {up : S → Bool} {sets clears : S → E → Prop}

/-- No step of the run clears the flag. -/
def Held (step : S → E → S) (clears : S → E → Prop) (s : S) (es : List E) : Prop :=
  Run.Along step (fun s e => ¬ clears s e) s es

theorem step_iff (h : Latch step up sets clears) (s : S) (e : E) :
    up (step s e) = true ↔ sets s e ∨ (up s = true ∧ ¬ clears s e) := by
  by_cases hs : sets s e
  · simp [hs, h.set s e hs]
  · by_cases hc : clears s e
    · simp [hs, hc, h.clear s e hc]
    · simp [hs, hc, h.keep s e hs hc]

theorem run_iff (h : Latch step up sets clears) (s : S) (es : List E) :
    up (Run.run step s es) = true ↔
      (∃ before e after, es = before ++ e :: after ∧ sets (Run.run step s before) e ∧
        Held step clears (step (Run.run step s before) e) after) ∨
      (up s = true ∧ Held step clears s es) := by
  induction es generalizing s with
  | nil => simp [Held, Run.Along]
  | cons e es ih =>
    rw [Run.run_cons, ih, h.step_iff]
    constructor
    · rintro (⟨before, e', after, rfl, hset, hheld⟩ | ⟨hset | ⟨hup, hkeep⟩, hheld⟩)
      · exact .inl ⟨e :: before, e', after, rfl, hset, hheld⟩
      · exact .inl ⟨[], e, es, rfl, hset, hheld⟩
      · exact .inr ⟨hup, hkeep, hheld⟩
    · rintro (⟨before, e', after, heq, hset, hheld⟩ | ⟨hup, hkeep, hheld⟩)
      · cases before with
        | nil =>
          cases heq
          exact .inr ⟨.inl hset, hheld⟩
        | cons b before =>
          cases heq
          exact .inl ⟨before, e', after, rfl, hset, hheld⟩
      · exact .inr ⟨.inr ⟨hup, hkeep⟩, hheld⟩

end Latch

end GuppyScreen.Lib
