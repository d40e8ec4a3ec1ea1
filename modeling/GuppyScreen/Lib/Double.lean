import GuppyScreen.Lib.Text
import Mathlib.Data.Int.Log
import Mathlib.Data.List.TakeWhile
import Mathlib.Data.Rat.Floor
import Mathlib.Algebra.Order.Field.Power
import Mathlib.Tactic.Linarith
import Mathlib.Tactic.Positivity
import Mathlib.Tactic.Ring

/-!
# Doubles and their decimal text

A finite double is its exact rational value; an operation rounds the exact
result to the nearest double, ties to even. Values beyond the largest double do
not occur where this is used. `fixed` and `general` are `{:.df}` and `{:g}`.
-/

namespace GuppyScreen.Lib.Double

/-- Nearest integer, ties to even. -/
def roundHalfEven (q : ℚ) : ℤ :=
  if q - ⌊q⌋ < 1 / 2 then ⌊q⌋
  else if 1 / 2 < q - ⌊q⌋ then ⌊q⌋ + 1
  else if ⌊q⌋ % 2 = 0 then ⌊q⌋ else ⌊q⌋ + 1

/-- Distance of neighbouring doubles around `q`. -/
def ulp (q : ℚ) : ℚ := 2 ^ max (Int.log 2 |q| - 52) (-1074)

def rnd (q : ℚ) : ℚ := roundHalfEven (q / ulp q) * ulp q

/-- `std::numeric_limits<double>::max()`. -/
def largest : ℚ := (2 ^ 53 - 1) * 2 ^ 971

/-- The float nearest to a value. -/
def single (q : ℚ) : ℚ :=
  let u : ℚ := 2 ^ max (Int.log 2 |q| - 23) (-149)
  roundHalfEven (q / u) * u

theorem abs_roundHalfEven_sub_le (q : ℚ) : |(roundHalfEven q : ℚ) - q| ≤ 1 / 2 := by
  have hlo : (⌊q⌋ : ℚ) ≤ q := Int.floor_le q
  have hhi : q < ⌊q⌋ + 1 := Int.lt_floor_add_one q
  unfold roundHalfEven
  rw [abs_le]
  split_ifs with h1 h2 h3
  · constructor <;> linarith
  · push_cast
    constructor <;> linarith
  · constructor <;> linarith
  · push_cast
    constructor <;> linarith

theorem roundHalfEven_eq {q : ℚ} {n : ℤ} (h : |q - n| < 1 / 2) : roundHalfEven q = n := by
  have hr := abs_roundHalfEven_sub_le q
  have hlt : |((roundHalfEven q - n : ℤ) : ℚ)| < 1 := by
    calc |((roundHalfEven q - n : ℤ) : ℚ)| = |((roundHalfEven q : ℚ) - q) + (q - n)| := by
          push_cast
          ring_nf
      _ ≤ |(roundHalfEven q : ℚ) - q| + |q - n| := abs_add_le _ _
      _ < 1 := by linarith
  have hint : |roundHalfEven q - n| < 1 := by exact_mod_cast hlt
  have hzero : roundHalfEven q - n = 0 := Int.abs_lt_one_iff.mp hint
  omega

theorem ulp_pos (q : ℚ) : 0 < ulp q := by
  unfold ulp
  positivity

theorem abs_rnd_sub_le (q : ℚ) : |rnd q - q| ≤ ulp q / 2 := by
  have hu := ulp_pos q
  have hr := abs_roundHalfEven_sub_le (q / ulp q)
  have hfactor : rnd q - q = ((roundHalfEven (q / ulp q) : ℚ) - q / ulp q) * ulp q := by
    unfold rnd
    rw [sub_mul, div_mul_cancel₀ _ (ne_of_gt hu)]
  rw [hfactor, abs_mul, abs_of_pos hu]
  nlinarith

theorem ulp_le {q b : ℚ} (hq : |q| < b) (hb : 1 ≤ b) : ulp q ≤ b / 2 ^ 52 := by
  unfold ulp
  have htiny : (2 : ℚ) ^ (-1074 : ℤ) ≤ b / 2 ^ 52 := by
    have h1 : (2 : ℚ) ^ (-1074 : ℤ) ≤ 2 ^ (-52 : ℤ) :=
      zpow_le_zpow_right₀ (by norm_num) (by norm_num)
    have h2 : (2 : ℚ) ^ (-52 : ℤ) = 1 / 2 ^ 52 := by norm_num
    have h3 : (1 : ℚ) / 2 ^ 52 ≤ b / 2 ^ 52 := by gcongr
    exact h1.trans (h2.le.trans h3)
  rcases le_total (Int.log 2 |q| - 52) (-1074) with hle | hle
  · rw [max_eq_right hle]
    exact htiny
  · rw [max_eq_left hle]
    by_cases hz : q = 0
    · subst hz
      have hlog : Int.log 2 |(0 : ℚ)| = 0 := by simp
      rw [hlog]
      have h2 : (2 : ℚ) ^ (0 - 52 : ℤ) = 1 / 2 ^ 52 := by norm_num
      rw [h2]
      gcongr
    · have hpow : (2 : ℚ) ^ Int.log 2 |q| ≤ |q| :=
        Int.zpow_log_le_self (b := 2) (by norm_num) (abs_pos.mpr hz)
      have hsplit : (2 : ℚ) ^ (Int.log 2 |q| - 52) = 2 ^ Int.log 2 |q| / 2 ^ 52 := by
        rw [zpow_sub₀ (by norm_num)]
        norm_num
      rw [hsplit]
      gcongr
      linarith

theorem abs_rnd_sub_lt {q b : ℚ} (hq : |q| < b) (hb : 1 ≤ b) : |rnd q - q| ≤ b / 2 ^ 53 := by
  have h1 := abs_rnd_sub_le q
  have h2 := ulp_le hq hb
  have h3 : b / 2 ^ 52 / 2 = b / 2 ^ 53 := by ring
  linarith

/-! ### Decimal text -/

def fixed (d : ℕ) (q : ℚ) : String :=
  (if q < 0 then "-" else "") ++ Text.scaled d (roundHalfEven (|q| * 10 ^ d)).natAbs

def stripZeros (s : String) : String :=
  let body := s.toList.reverse.dropWhile (· = '0')
  String.ofList (if body.head? = some '.' then body.tail else body).reverse

/-- `{:g}`: six significant digits. -/
def general (q : ℚ) : String :=
  if q = 0 then "0"
  else
    let low := Int.log 10 |q|
    let digits := roundHalfEven (|q| / 10 ^ (low - 5))
    let e := if digits = 10 ^ 6 then low + 1 else low
    let m := if digits = 10 ^ 6 then 10 ^ 5 else digits.natAbs
    let sign := if q < 0 then "-" else ""
    if -4 ≤ e ∧ e < 5 then sign ++ stripZeros (Text.scaled (5 - e).toNat m)
    else if e = 5 then sign ++ toString m
    else
      sign ++ stripZeros (Text.scaled 5 m) ++ (if e < 0 then "e-" else "e+") ++
        Text.padLeft '0' 2 (toString e.natAbs)

theorem lacks_fixed {c : Char} (hd : c.isDigit = false) (hs : c ∉ ['.', '-']) (d : ℕ) (q : ℚ) :
    Text.Lacks c (fixed d q) := by
  have hsign : Text.Lacks c (if q < 0 then "-" else "") := by
    split_ifs
    · intro h
      exact hs (by simpa using Or.inr h)
    · intro h
      simp at h
  have hdot : c ≠ '.' := fun he => hs (by simp [he])
  exact (Text.lacks_append c _ _).mpr ⟨hsign, Text.lacks_scaled hd hdot d _⟩

theorem lacks_stripZeros {c : Char} {s : String} (h : Text.Lacks c s) :
    Text.Lacks c (stripZeros s) := by
  intro hc
  refine h ?_
  unfold stripZeros at hc
  rw [String.toList_ofList, List.mem_reverse] at hc
  have hsub : s.toList.reverse.dropWhile (· = '0') <:+ s.toList.reverse := List.dropWhile_suffix _
  have hmem : c ∈ s.toList.reverse.dropWhile (· = '0') := by
    split_ifs at hc
    · exact List.mem_of_mem_tail hc
    · exact hc
  exact List.mem_reverse.mp (hsub.mem hmem)

theorem lacks_general {c : Char} (hd : c.isDigit = false) (hs : c ∉ ['.', '-', '+', 'e'])
    (q : ℚ) : Text.Lacks c (general q) := by
  obtain ⟨hdot, hminus, hplus, he⟩ : c ≠ '.' ∧ c ≠ '-' ∧ c ≠ '+' ∧ c ≠ 'e' := by simpa using hs
  have hnil : Text.Lacks c "" := by simp [Text.Lacks]
  have hneg : Text.Lacks c "-" := by simpa [Text.Lacks] using hminus
  have hdown : Text.Lacks c "e-" := by simpa [Text.Lacks] using ⟨he, hminus⟩
  have hup : Text.Lacks c "e+" := by simpa [Text.Lacks] using ⟨he, hplus⟩
  have hnum (d n : ℕ) : Text.Lacks c (stripZeros (Text.scaled d n)) :=
    lacks_stripZeros (Text.lacks_scaled hd hdot d n)
  have hpad (n : ℕ) : Text.Lacks c (Text.padLeft '0' 2 (toString n)) :=
    Text.lacks_padLeft hd 2 (Text.lacks_nat hd n)
  unfold general
  dsimp only
  split_ifs
  · exact Text.lacks_nat hd 0
  all_goals
    simp only [Text.lacks_append, hnil, hneg, hdown, hup, hnum, hpad, Text.lacks_nat hd, and_self]

theorem stripZeros_ne_empty {s a b : String} (hs : s = a ++ "." ++ b) (ha : a ≠ "") :
    stripZeros s ≠ "" := by
  have hrev : s.toList.reverse = b.toList.reverse ++ '.' :: a.toList.reverse := by
    rw [hs, String.toList_append, String.toList_append]
    simp
  have hlen : 0 < a.toList.length := by
    rw [String.length_toList]
    exact Nat.pos_of_ne_zero fun h => ha (String.length_eq_zero_iff.mp h)
  have hbody : 2 ≤ (s.toList.reverse.dropWhile (· = '0')).length := by
    rw [hrev, List.dropWhile_append]
    split_ifs
    · rw [List.dropWhile_cons_of_neg (by decide), List.length_cons, List.length_reverse]
      omega
    · rw [List.length_append, List.length_cons, List.length_reverse]
      omega
  intro hempty
  have hzero := congrArg String.length hempty
  rw [stripZeros, String.length_ofList, List.length_reverse, String.length_empty] at hzero
  split_ifs at hzero
  · rw [List.length_tail] at hzero
    omega
  · omega

theorem general_ne_empty (q : ℚ) : general q ≠ "" := by
  have hscaled : ∀ (d n : ℕ) (sign : String), d ≠ 0 →
      sign ++ stripZeros (Text.scaled d n) ≠ "" := by
    intro d n sign hd
    exact Text.append_ne_empty (stripZeros_ne_empty (if_neg hd) (Text.toString_ne_empty _))
  have hpad : ∀ (n : ℕ) (s : String), s ++ Text.padLeft '0' 2 (toString n) ≠ "" := fun n s =>
    Text.append_ne_empty (Text.append_ne_empty (Text.toString_ne_empty n))
  rw [general]
  by_cases hq : q = 0
  · rw [if_pos hq]
    decide
  · rw [if_neg hq]
    dsimp only
    generalize (if roundHalfEven (|q| / 10 ^ (Int.log 10 |q| - 5)) = 10 ^ 6 then Int.log 10 |q| + 1
      else Int.log 10 |q|) = e
    by_cases hsmall : -4 ≤ e ∧ e < 5
    · rw [if_pos hsmall]
      exact hscaled _ _ _ (by omega)
    · rw [if_neg hsmall]
      by_cases hfive : e = 5
      · rw [if_pos hfive]
        exact Text.append_ne_empty (Text.toString_ne_empty _)
      · rw [if_neg hfive]
        exact hpad _ _

theorem roundHalfEven_nonneg {q : ℚ} (h : 0 ≤ q) : 0 ≤ roundHalfEven q := by
  have hfloor : 0 ≤ ⌊q⌋ := Int.floor_nonneg.mpr h
  unfold roundHalfEven
  split_ifs <;> omega

theorem roundHalfEven_nonpos {q : ℚ} (h : q ≤ 0) : roundHalfEven q ≤ 0 := by
  have hr := (abs_le.mp (abs_roundHalfEven_sub_le q)).2
  have hlt : (roundHalfEven q : ℚ) < 1 := by linarith
  have : roundHalfEven q < 1 := by exact_mod_cast hlt
  omega

-- An odd number would turn the ties around.
theorem roundHalfEven_add_even (q : ℚ) (n : ℤ) :
    roundHalfEven (q + (2 * n : ℤ)) = roundHalfEven q + 2 * n := by
  have hfloor : ⌊q + (2 * n : ℤ)⌋ = ⌊q⌋ + 2 * n := Int.floor_add_intCast q (2 * n)
  have hfrac : q + (2 * n : ℤ) - ⌊q + (2 * n : ℤ)⌋ = q - ⌊q⌋ := by
    rw [hfloor]
    push_cast
    ring
  unfold roundHalfEven
  rw [hfrac, hfloor]
  split_ifs <;> omega

theorem roundHalfEven_int (n : ℤ) : roundHalfEven n = n := by
  apply roundHalfEven_eq
  norm_num

/-- What `d` decimals keep of a number. -/
def decimals (d : ℕ) (q : ℚ) : ℚ := roundHalfEven (q * 10 ^ d) / 10 ^ d

theorem fixed_one_eq_iff (a b : ℚ) : fixed 1 a = fixed 1 b ↔
    ((a < 0 ↔ b < 0) ∧ roundHalfEven (|a| * 10) = roundHalfEven (|b| * 10)) := by
  have ha := roundHalfEven_nonneg (q := |a| * 10) (by positivity)
  have hb := roundHalfEven_nonneg (q := |b| * 10) (by positivity)
  unfold fixed
  rw [pow_one]
  constructor
  · intro h
    by_cases hna : a < 0 <;> by_cases hnb : b < 0
    · rw [if_pos hna, if_pos hnb] at h
      have hs := Text.scaled_one_inj ((String.append_right_inj "-").mp h)
      exact ⟨by simp [hna, hnb], by omega⟩
    · rw [if_pos hna, if_neg hnb, String.empty_append] at h
      exact absurd h (Text.minus_scaled_one_ne _ _)
    · rw [if_neg hna, if_pos hnb, String.empty_append] at h
      exact absurd h.symm (Text.minus_scaled_one_ne _ _)
    · rw [if_neg hna, if_neg hnb, String.empty_append, String.empty_append] at h
      have hs := Text.scaled_one_inj h
      exact ⟨by simp [hna, hnb], by omega⟩
  · intro h
    rw [h.2]
    by_cases hna : a < 0
    · rw [if_pos hna, if_pos (h.1.mp hna)]
    · rw [if_neg hna, if_neg fun hnb => hna (h.1.mpr hnb)]

/-- Tenths survive the trip through a double and back to one decimal. -/
theorem rnd_tenth {v : ℤ} (hv : |v| ≤ 2 ^ 31) :
    (rnd ((v : ℚ) / 10) < 0 ↔ v < 0) ∧ roundHalfEven (|rnd ((v : ℚ) / 10)| * 10) = |v| := by
  have hvq : |(v : ℚ)| ≤ 2 ^ 31 := by exact_mod_cast hv
  have hsmall : |(v : ℚ) / 10| < 2 ^ 31 := by
    rw [abs_div, show |(10 : ℚ)| = 10 by norm_num]
    linarith [abs_nonneg (v : ℚ)]
  have herr := abs_rnd_sub_lt hsmall (by norm_num)
  obtain ⟨hlo, hhi⟩ := abs_le.mp herr
  refine ⟨⟨fun hneg => ?_, fun hneg => ?_⟩, ?_⟩
  · by_contra hnn
    rcases eq_or_lt_of_le (not_lt.mp hnn) with hz | hpos
    · rw [← hz] at hneg
      simp [rnd, roundHalfEven] at hneg
    · have hone : (1 : ℚ) ≤ v := by exact_mod_cast hpos
      linarith
  · have hone : (v : ℚ) ≤ -1 := by exact_mod_cast (by omega : v ≤ -1)
    linarith
  · apply roundHalfEven_eq
    have hten : |(v : ℚ) / 10| * 10 = |(v : ℚ)| := by
      rw [abs_div, show |(10 : ℚ)| = 10 by norm_num]
      ring
    obtain ⟨hlow, hhigh⟩ := abs_le.mp (abs_abs_sub_abs_le (rnd ((v : ℚ) / 10)) ((v : ℚ) / 10))
    rw [abs_lt]
    push_cast
    constructor <;> linarith

/-! ### Reading text -/

def digitsValue (cs : List Char) : ℕ := cs.foldl (fun n c => 10 * n + (c.toNat - 48)) 0

/-- A sign, if there is one, and the rest. -/
def signed : List Char → ℤ × List Char
  | '-' :: cs => (-1, cs)
  | '+' :: cs => (1, cs)
  | cs => (1, cs)

/-- Digits with at most one point: those before it, those behind it, and the rest. -/
def mantissa (isDigit : Char → Bool) (cs : List Char) : List Char × List Char × List Char :=
  let rest := cs.dropWhile isDigit
  if rest.head? = some '.' then
    (cs.takeWhile isDigit, rest.tail.takeWhile isDigit, rest.tail.dropWhile isDigit)
  else (cs.takeWhile isDigit, [], rest)

/-- An exponent behind one of the marks; without digits it is none. -/
def exponent (marks : List Char) (cs : List Char) : ℤ × List Char :=
  match cs with
  | [] => (0, [])
  | c :: rest =>
    let (s, ds) := signed rest
    let digits := ds.takeWhile Char.isDigit
    if c ∈ marks ∧ digits ≠ [] then (s * digitsValue digits, ds.dropWhile Char.isDigit) else (0, cs)

def decimalNumber (cs : List Char) : Option (ℚ × List Char) :=
  let (whole, frac, rest) := mantissa Char.isDigit cs
  let (e, rest) := exponent ['e', 'E'] rest
  if whole ++ frac = [] then none
  else some (digitsValue (whole ++ frac) * (10 : ℚ) ^ (e - (frac.length : ℤ)), rest)

def hexDigit? (c : Char) : Option ℕ :=
  if c.isDigit then some (c.toNat - 48)
  else if c ∈ ['a', 'b', 'c', 'd', 'e', 'f'] then some (c.toNat - 87)
  else if c ∈ ['A', 'B', 'C', 'D', 'E', 'F'] then some (c.toNat - 55)
  else none

def hexNumber (cs : List Char) : Option (ℚ × List Char) :=
  let (whole, frac, rest) := mantissa (fun c => (hexDigit? c).isSome) cs
  let (e, rest) := exponent ['p', 'P'] rest
  if whole ++ frac = [] then none
  else
    let value := (whole ++ frac).foldl (fun n c => 16 * n + (hexDigit? c).getD 0) 0
    some (value * (2 : ℚ) ^ (e - 4 * (frac.length : ℤ)), rest)

/-- `strtod` before it rounds: the longest number that the text starts with, blanks and a sign
before it, and what is left of the text. Infinities and NaN are not read. -/
def strtod (text : String) : Option (ℚ × List Char) :=
  let (s, cs) := signed (text.toList.dropWhile Text.isSpace)
  let number :=
    match cs with
    | '0' :: 'x' :: hex | '0' :: 'X' :: hex => (hexNumber hex).or (decimalNumber cs)
    | _ => decimalNumber cs
  number.map fun (q, rest) => (s * q, rest)

/-- Not a range error: no overflow, and nothing lost below the normal doubles. -/
def inRange (q : ℚ) : Bool :=
  decide (|rnd q| ≤ largest) && (decide ((2 : ℚ) ^ (-1022 : ℤ) ≤ |rnd q|) || decide (rnd q = q))

/-- `std::stod`, with what it leaves of the text, `none` where it throws. -/
def stod (text : String) : Option (ℚ × List Char) :=
  (strtod text).bind fun (q, rest) => if inRange q then some (rnd q, rest) else none

/-- The number of a text that `std::stod` reads to the end. -/
def parse (text : String) : Option ℚ :=
  match stod text with
  | some (v, []) => some v
  | _ => none

/-- The number a text writes, before it is rounded to a double. -/
def decimal (text : String) : Option ℚ :=
  match strtod text with
  | some (q, []) => some q
  | _ => none

theorem signed_digits {c : Char} {cs : List Char} (hc : c.isDigit = true) :
    signed ((c :: cs).dropWhile Text.isSpace) = (1, c :: cs) := by
  have hne : ∀ d : Char, d.isDigit = false → c ≠ d := by
    rintro d hd rfl
    rw [hc] at hd
    cases hd
  have hspace : Text.isSpace c = false := by
    simp [Text.isSpace, hne ' ' (by decide), hne '\t' (by decide), hne '\r' (by decide),
      hne '\n' (by decide), hne '\x0b' (by decide), hne '\x0c' (by decide)]
  rw [List.dropWhile_cons_of_neg (by rw [hspace]; decide), signed]
  · exact fun _ h => absurd (List.cons_eq_cons.mp h).1 (hne '-' (by decide))
  · exact fun _ h => absurd (List.cons_eq_cons.mp h).1 (hne '+' (by decide))

theorem decimalNumber_digits {ds : List Char} (hne : ds ≠ []) (hd : ∀ c ∈ ds, c.isDigit = true) :
    decimalNumber ds = some ((digitsValue ds : ℚ), []) := by
  have htake : ds.takeWhile Char.isDigit = ds := List.takeWhile_eq_self_iff.mpr hd
  have hdrop : ds.dropWhile Char.isDigit = [] := List.dropWhile_eq_nil_iff.mpr hd
  have hmantissa : mantissa Char.isDigit ds = (ds, [], []) := by
    simp [mantissa, htake, hdrop]
  rw [decimalNumber, hmantissa]
  simp [exponent, hne]

theorem strtod_digits {s : ℤ} {ds : List Char} {text : String} (hne : ds ≠ [])
    (hd : ∀ c ∈ ds, c.isDigit = true)
    (htext : signed (text.toList.dropWhile Text.isSpace) = (s, ds)) :
    strtod text = some (s * (digitsValue ds : ℚ), []) := by
  have hdecimal := decimalNumber_digits hne hd
  unfold strtod
  rw [htext]
  dsimp only
  split
  · exact absurd (hd 'x' (by simp)) (by decide)
  · exact absurd (hd 'X' (by simp)) (by decide)
  · rw [hdecimal]
    rfl

theorem decimal_int (n : ℤ) : decimal ((if n < 0 then "-" else "") ++ toString n.natAbs) =
    some (n : ℚ) := by
  have hdigit : ∀ c ∈ Nat.toDigits 10 n.natAbs, c.isDigit = true := fun c hc =>
    Nat.isDigit_of_mem_toDigits (by decide) (by decide) hc
  have hvalue : digitsValue (Nat.toDigits 10 n.natAbs) = n.natAbs := Nat.ofDigitChars_ten_toDigits
  have hsigned : signed (((if n < 0 then "-" else "") ++ toString n.natAbs).toList.dropWhile
      Text.isSpace) = (if n < 0 then -1 else 1, Nat.toDigits 10 n.natAbs) := by
    have hds : (toString n.natAbs).toList = Nat.toDigits 10 n.natAbs := Nat.toList_repr
    rw [String.toList_append, hds]
    by_cases hn : n < 0
    · rw [if_pos hn, if_pos hn]
      rfl
    · rw [if_neg hn, if_neg hn]
      cases hd : Nat.toDigits 10 n.natAbs with
      | nil => exact absurd hd Nat.toDigits_ne_nil
      | cons c cs => exact signed_digits (hdigit c (by rw [hd]; exact List.mem_cons_self ..))
  have habs : (if n < 0 then -1 else 1 : ℤ) * (n.natAbs : ℤ) = n := by
    split_ifs <;> omega
  have hcast : ((if n < 0 then -1 else 1 : ℤ) : ℚ) * (n.natAbs : ℚ) = n := by
    rw [← Int.cast_natCast n.natAbs, ← Int.cast_mul, habs]
  rw [decimal, strtod_digits Nat.toDigits_ne_nil hdigit hsigned, hvalue]
  exact congrArg some hcast

def parseDouble (text : String) (fallback : ℚ) : ℚ := (parse text).getD fallback

/-- `std::stoi`, `none` where it throws. -/
def stoi (text : String) : Option ℤ :=
  let (s, cs) := signed (text.toList.dropWhile Text.isSpace)
  let ds := cs.takeWhile Char.isDigit
  let v := s * (digitsValue ds : ℤ)
  if ds ≠ [] ∧ -2 ^ 31 ≤ v ∧ v < 2 ^ 31 then some v else none

example : parseDouble "62.2" 0 = rnd (622 / 10) := by decide +kernel
example : parseDouble "62.2 Hz" 5 = 5 := by decide +kernel
example : parseDouble "0x1A" 5 = 26 := by decide +kernel
example : parseDouble "1e400" 5 = 5 := by decide +kernel
example : fixed 3 (rnd (1 / 10)) = "0.100" := by decide +kernel
example : general (rnd (-1 / 8)) = "-0.125" := by decide +kernel

end GuppyScreen.Lib.Double
