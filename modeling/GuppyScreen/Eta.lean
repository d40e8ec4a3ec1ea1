import GuppyScreen.Lib.Text

/-!
# Durations in words (KUtils::eta_string)

A duration is written from the fields of a broken down time, so the days are those of a
year: they start over where 1971 does.
-/

namespace GuppyScreen.KUtils

def isLeap (year : ℕ) : Bool := year % 4 = 0 && (year % 100 ≠ 0 || year % 400 = 0)

def yearDays (year : ℕ) : ℕ := if isLeap year then 366 else 365

/-- The day of the year that a day is, counted from the start of `year`. Every round takes
a day at least. -/
def dayOfYear : ℕ → ℕ → ℕ → ℕ
  | 0, _, days => days
  | rounds + 1, year, days =>
    if days < yearDays year then days else dayOfYear rounds (year + 1) (days - yearDays year)

/-- `tm_yday` of a time after 1970. -/
def tmYday (seconds : ℕ) : ℕ := dayOfYear (seconds / 86400) 1970 (seconds / 86400)

def etaPart (n : ℕ) (unit : String) : String := if 0 < n then toString n ++ unit ++ " " else ""

/-- `eta_string` of a duration that is not negative. -/
def etaString (s : ℕ) : String :=
  etaPart (tmYday s) "d" ++ etaPart (s % 86400 / 3600) "h" ++ etaPart (s % 3600 / 60) "m" ++
    toString (s % 60) ++ "s"

/-! ### Reading it back -/

def unitSeconds : Char → Option ℕ
  | 'd' => some 86400
  | 'h' => some 3600
  | 'm' => some 60
  | 's' => some 1
  | _ => none

/-- The seconds so far, and the number being read. -/
def readChar (acc : ℕ × ℕ) (c : Char) : ℕ × ℕ :=
  if c.isDigit then (acc.1, 10 * acc.2 + (c.toNat - 48))
  else
    match unitSeconds c with
    | some n => (acc.1 + acc.2 * n, 0)
    | none => acc

def readEta (text : String) : ℕ := (text.toList.foldl readChar (0, 0)).1

theorem readChar_digits (ds : List Char) (total n : ℕ) (h : ∀ c ∈ ds, c.isDigit = true) :
    ds.foldl readChar (total, n) = (total, Nat.ofDigitChars 10 ds n) := by
  induction ds generalizing n with
  | nil => rfl
  | cons d ds ih =>
    have hd : d.isDigit = true := h d (List.mem_cons_self ..)
    rw [List.foldl_cons, readChar, if_pos hd, ih _ fun c hc => h c (List.mem_cons_of_mem _ hc),
      Nat.ofDigitChars_cons]
    rfl

theorem read_number (n total : ℕ) : (toString n).toList.foldl readChar (total, 0) = (total, n) := by
  rw [show toString n = n.repr from rfl, Nat.toList_repr, readChar_digits _ _ _ fun c hc =>
    Nat.isDigit_of_mem_toDigits (by decide) (by decide) hc]
  rw [Nat.ofDigitChars_ten_toDigits]

theorem read_part (unit : Char) (n total k : ℕ) (hunit : unitSeconds unit = some k)
    (hdigit : unit.isDigit = false) :
    (etaPart n (String.singleton unit)).toList.foldl readChar (total, 0) = (total + n * k, 0) := by
  unfold etaPart
  split_ifs with hn
  · rw [String.toList_append, String.toList_append, List.foldl_append, List.foldl_append,
      read_number,
      String.toList_singleton, List.foldl_cons, List.foldl_nil, readChar,
      if_neg (by rw [hdigit]; exact Bool.false_ne_true), hunit]
    rfl
  · have hzero : n = 0 := by omega
    rw [hzero, Nat.zero_mul]
    rfl

/-- Every field is in the text. -/
theorem readEta_etaString (s : ℕ) : readEta (etaString s) = tmYday s * 86400 + s % 86400 := by
  have hd := read_part 'd' (tmYday s) 0 86400 rfl (by decide)
  have hh := read_part 'h' (s % 86400 / 3600) (0 + tmYday s * 86400) 3600 rfl (by decide)
  have hm := read_part 'm' (s % 3600 / 60) (0 + tmYday s * 86400 + s % 86400 / 3600 * 3600) 60
    rfl (by decide)
  unfold readEta etaString
  rw [String.toList_append, String.toList_append, String.toList_append, String.toList_append,
    List.foldl_append, List.foldl_append, List.foldl_append, List.foldl_append]
  rw [show "d" = String.singleton 'd' from rfl, show "h" = String.singleton 'h' from rfl,
    show "m" = String.singleton 'm' from rfl, hd, hh, hm, read_number]
  show 0 + tmYday s * 86400 + s % 86400 / 3600 * 3600 + s % 3600 / 60 * 60 + s % 60 * 1 = _
  omega

theorem dayOfYear_le (rounds year days : ℕ) : dayOfYear rounds year days ≤ days := by
  induction rounds generalizing year days with
  | zero => exact le_refl days
  | succ rounds ih =>
    unfold dayOfYear
    split_ifs
    · exact le_refl days
    · exact (ih _ _).trans (Nat.sub_le _ _)

theorem tmYday_of_lt {s : ℕ} (h : s < 31536000) : tmYday s = s / 86400 := by
  have hdays : s / 86400 < 365 := by omega
  unfold tmYday
  cases hd : s / 86400 with
  | zero => rfl
  | succ n =>
    rw [dayOfYear, if_pos]
    rw [hd] at hdays
    exact hdays

theorem tmYday_lt {s : ℕ} (h : 31536000 ≤ s) : tmYday s < s / 86400 := by
  have hdays : 365 ≤ s / 86400 := by omega
  unfold tmYday
  cases hd : s / 86400 with
  | zero => omega
  | succ n =>
    rw [hd] at hdays
    have hyear : yearDays 1970 = 365 := by decide
    rw [dayOfYear, if_neg (by omega), hyear]
    have hle := dayOfYear_le n (1970 + 1) (n + 1 - 365)
    omega

/-- A duration can be read back from its text exactly below a year, where the days start
over. -/
theorem readEta_iff (s : ℕ) : readEta (etaString s) = s ↔ s < 31536000 := by
  rw [readEta_etaString]
  constructor
  · intro h
    by_contra hlong
    have hlt := tmYday_lt (Nat.not_lt.mp hlong)
    omega
  · intro h
    rw [tmYday_of_lt h]
    omega

example : etaString 93784 = "1d 2h 3m 4s" := by decide +kernel

end GuppyScreen.KUtils
