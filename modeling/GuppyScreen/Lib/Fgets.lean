import Mathlib.Data.List.TakeWhile

/-!
# A stream read with fgets

`fgets` takes bytes up to a newline, or until its buffer is full. What the caller sees
of a piece is a C string, which ends at the first NUL. `text` is what is left of a
whole stream read so.
-/

namespace GuppyScreen.Lib.Fgets

/-- The piece one call takes, with room for `n` bytes, and what stays in the stream. -/
def fgets : ℕ → List Char → List Char × List Char
  | 0, s => ([], s)
  | _ + 1, [] => ([], [])
  | n + 1, c :: s => if c = '\n' then ([c], s) else (c :: (fgets n s).1, (fgets n s).2)

/-- The call returns without waiting for more of the stream. -/
def complete : ℕ → List Char → Bool
  | 0, _ => true
  | _ + 1, [] => false
  | n + 1, c :: s => c == '\n' || complete n s

def cstr (s : List Char) : List Char := s.takeWhile (· ≠ '\x00')

theorem fgets_join (n : ℕ) (s : List Char) : (fgets n s).1 ++ (fgets n s).2 = s := by
  induction n generalizing s with
  | zero => rfl
  | succ n ih =>
    cases s with
    | nil => rfl
    | cons c s =>
      rw [fgets]
      split_ifs
      · rfl
      · rw [List.cons_append, ih]

theorem fgets_append {n : ℕ} {s : List Char} (h : complete n s) (t : List Char) :
    fgets n (s ++ t) = ((fgets n s).1, (fgets n s).2 ++ t) := by
  induction n generalizing s with
  | zero => rfl
  | succ n ih =>
    cases s with
    | nil => cases h
    | cons c s =>
      rw [List.cons_append, fgets, fgets]
      split_ifs with hc
      · rfl
      · have hs : complete n s := by
          rw [complete] at h
          simpa [hc] using h
        rw [ih hs]

theorem length_fgets_snd_lt {n : ℕ} (hn : 0 < n) {s : List Char} (hs : s ≠ []) :
    (fgets n s).2.length < s.length := by
  have hjoin := congrArg List.length (fgets_join n s)
  rw [List.length_append] at hjoin
  cases n with
  | zero => cases hn
  | succ n =>
    cases s with
    | nil => exact absurd rfl hs
    | cons c s =>
      have hpos : 0 < (fgets (n + 1) (c :: s)).1.length := by
        rw [fgets]
        split_ifs <;> simp
      omega

/-- A loop of `fgets` calls to the end of the stream, each with room for `n + 1` bytes. -/
def text (n : ℕ) (s : List Char) : List Char :=
  if _hs : s = [] then []
  else cstr (fgets (n + 1) s).1 ++ text n (fgets (n + 1) s).2
termination_by s.length
decreasing_by exact length_fgets_snd_lt (Nat.succ_pos n) _hs

theorem text_nil (n : ℕ) : text n [] = [] := by
  rw [text]
  simp

theorem text_of_ne {n : ℕ} {s : List Char} (h : s ≠ []) :
    text n s = cstr (fgets (n + 1) s).1 ++ text n (fgets (n + 1) s).2 := by
  rw [text, dif_neg h]

/-- A piece taken early is the one the whole stream gives. -/
theorem text_append {n : ℕ} {s : List Char} (h : complete (n + 1) s) (t : List Char) :
    text n (s ++ t) = cstr (fgets (n + 1) s).1 ++ text n ((fgets (n + 1) s).2 ++ t) := by
  have hs : s ≠ [] := by
    intro hnil
    rw [hnil] at h
    cases h
  rw [text_of_ne (by simp [hs]), fgets_append h]

theorem cstr_eq_self_iff {s : List Char} : cstr s = s ↔ '\x00' ∉ s := by
  unfold cstr
  rw [List.takeWhile_eq_self_iff]
  constructor
  · intro h hmem
    simpa using h _ hmem
  · intro h c hc
    have hne : c ≠ '\x00' := fun heq => h (heq ▸ hc)
    simpa using hne

theorem length_cstr_le (s : List Char) : (cstr s).length ≤ s.length :=
  (List.takeWhile_prefix _).length_le

theorem length_text_le (n : ℕ) (s : List Char) : (text n s).length ≤ s.length := by
  by_cases hs : s = []
  · simp [hs, text_nil]
  · have hrec := length_text_le n (fgets (n + 1) s).2
    have hcut := length_cstr_le (fgets (n + 1) s).1
    have hjoin := congrArg List.length (fgets_join (n + 1) s)
    rw [text_of_ne hs]
    rw [List.length_append] at hjoin ⊢
    omega
termination_by s.length
decreasing_by exact length_fgets_snd_lt (Nat.succ_pos n) hs

/-- Nothing is lost exactly when the stream has no NUL. -/
theorem text_eq_self_iff (n : ℕ) (s : List Char) : text n s = s ↔ '\x00' ∉ s := by
  by_cases hs : s = []
  · rw [hs, text_nil]
    simp
  · have hjoin := fgets_join (n + 1) s
    have hrec := text_eq_self_iff n (fgets (n + 1) s).2
    rw [text_of_ne hs]
    have hmem : '\x00' ∉ s ↔ '\x00' ∉ (fgets (n + 1) s).1 ∧ '\x00' ∉ (fgets (n + 1) s).2 := by
      have hiff : '\x00' ∈ (fgets (n + 1) s).1 ++ (fgets (n + 1) s).2 ↔ _ := List.mem_append
      rw [hjoin] at hiff
      rw [hiff, not_or]
    rw [hmem, ← hrec, ← cstr_eq_self_iff]
    constructor
    · intro heq
      have hlen := congrArg List.length heq
      have hlens := congrArg List.length hjoin
      have hcut := length_cstr_le (fgets (n + 1) s).1
      have hrest := length_text_le n (fgets (n + 1) s).2
      rw [List.length_append] at hlen hlens
      exact List.append_inj (heq.trans hjoin.symm) (by omega)
    · rintro ⟨hfirst, hrest⟩
      rw [hfirst, hrest, hjoin]
termination_by s.length
decreasing_by exact length_fgets_snd_lt (Nat.succ_pos n) hs

end GuppyScreen.Lib.Fgets
