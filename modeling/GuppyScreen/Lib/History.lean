import Mathlib.Data.List.Basic

/-!
# Histories

A history is a list of entries, oldest first, that grows at its end. `Each`
states that every entry is justified by what came before it; `SinceLast` cuts a
history at its last mark.
-/

namespace GuppyScreen.Lib.History

variable {E : Type}

def Each (P : List E → E → Prop) (log : List E) : Prop :=
  ∀ pre e post, log = pre ++ e :: post → P pre e

theorem each_nil (P : List E → E → Prop) : Each P [] := by
  intro pre e post h
  cases pre <;> cases h

theorem each_snoc {P : List E → E → Prop} {log : List E} {e : E} (h : Each P log) (he : P log e) :
    Each P (log ++ [e]) := by
  intro pre a post hsplit
  rcases List.eq_nil_or_concat post with hpost | ⟨post', b, hpost⟩
  · rw [hpost] at hsplit
    have hinj := List.append_inj' hsplit rfl
    rw [← hinj.1, ← List.head_eq_of_cons_eq hinj.2]
    exact he
  · have hcut : log ++ [e] = (pre ++ a :: post') ++ [b] := by
      rw [hsplit, hpost]
      simp
    exact h pre a post' (List.append_inj' hcut rfl).1

/-- `since` is what follows the last mark `m` of `log`. -/
def SinceLast (mark : E → Prop) (log : List E) (m : E) (since : List E) : Prop :=
  mark m ∧ (∃ before, log = before ++ m :: since) ∧ ∀ e ∈ since, ¬ mark e

theorem SinceLast.here {mark : E → Prop} {m : E} (log : List E) (hm : mark m) :
    SinceLast mark (log ++ [m]) m [] :=
  ⟨hm, ⟨log, rfl⟩, fun _ he => nomatch he⟩

theorem SinceLast.append {mark : E → Prop} {log since new : List E} {m : E}
    (h : SinceLast mark log m since) (hnew : ∀ e ∈ new, ¬ mark e) :
    SinceLast mark (log ++ new) m (since ++ new) := by
  obtain ⟨hm, ⟨before, hlog⟩, hsince⟩ := h
  refine ⟨hm, ⟨before, ?_⟩, ?_⟩
  · rw [hlog]
    simp
  · intro e he
    rcases List.mem_append.mp he with he | he
    · exact hsince e he
    · exact hnew e he

end GuppyScreen.Lib.History
