import Mathlib.Algebra.Group.Nat.Defs
import Mathlib.Data.List.Infix

/-!
# Text

`std::string` searches, and the parts of `fmt` the panels use on integers and
strings. Strings are compared as lists of characters so that they evaluate.
-/

namespace GuppyScreen.Lib.Text

/-- `s.rfind(p, 0) == 0`. -/
def startsWith (p s : String) : Bool := p.toList.isPrefixOf s.toList

/-- `s.find(p) != npos`. -/
def hasSubstr (p s : String) : Bool := decide (p.toList <:+: s.toList)

def substr (s : String) (n : ℕ) : String := String.ofList (s.toList.drop n)

/-- `std::tolower` on every character; it only moves ASCII letters. -/
def lower (s : String) : String := String.ofList (s.toList.map Char.toLower)

def padLeft (fill : Char) (width : ℕ) (s : String) : String :=
  String.ofList (List.replicate (width - s.length) fill) ++ s

def padRight (fill : Char) (width : ℕ) (s : String) : String :=
  s ++ String.ofList (List.replicate (width - s.length) fill)

/-- Decimal text of `n / 10 ^ d`. -/
def scaled (d n : ℕ) : String :=
  if d = 0 then toString n
  else toString (n / 10 ^ d) ++ "." ++ padLeft '0' d (toString (n % 10 ^ d))

def escapeChar (c : Char) : String :=
  if c = '"' then "\\\""
  else if c = '\\' then "\\\\"
  else if c = '\n' then "\\n"
  else if c = '\r' then "\\r"
  else if c = '\t' then "\\t"
  else String.singleton c

/-- `{:?}` of a string whose other characters are printable. -/
def debug (s : String) : String :=
  "\"" ++ String.join (s.toList.map escapeChar) ++ "\""

/-- `isspace` in the C locale. -/
def isSpace (c : Char) : Bool :=
  c = ' ' || c = '\t' || c = '\n' || c = '\x0b' || c = '\x0c' || c = '\r'

/-! ### One decimal -/

theorem toString_ne_empty (n : ℕ) : toString n ≠ "" := by
  intro h
  have hlist : n.repr.toList = [] := congrArg String.toList h
  rw [Nat.toList_repr] at hlist
  exact Nat.toDigits_ne_nil hlist

theorem append_ne_empty {s t : String} (h : t ≠ "") : s ++ t ≠ "" := by
  intro he
  exact h (String.append_eq_empty_iff.mp he).2

theorem toDigits_inj {n m : ℕ} (h : Nat.toDigits 10 n = Nat.toDigits 10 m) : n = m := by
  have hn := Nat.ofDigitChars_ten_toDigits (n := n)
  rw [h, Nat.ofDigitChars_ten_toDigits] at hn
  exact hn.symm

theorem toString_inj {n m : ℕ} (h : toString n = toString m) : n = m := by
  have hlist : n.repr.toList = m.repr.toList := congrArg String.toList h
  rw [Nat.toList_repr, Nat.toList_repr] at hlist
  exact toDigits_inj hlist

theorem toList_scaled_one (n : ℕ) :
    (scaled 1 n).toList = Nat.toDigits 10 (n / 10) ++ ['.', (n % 10).digitChar] := by
  have hdigit : (toString (n % 10)).toList = [(n % 10).digitChar] := by
    rw [show toString (n % 10) = (n % 10).repr from rfl, Nat.toList_repr]
    exact Nat.toDigits_of_lt_base (Nat.mod_lt n (by decide))
  have hlen : (toString (n % 10)).length = 1 := by
    rw [← String.length_toList, hdigit]
    rfl
  unfold scaled padLeft
  rw [if_neg (by decide), Nat.pow_one, hlen, String.toList_append, String.toList_append,
    String.toList_append, hdigit, show toString (n / 10) = (n / 10).repr from rfl, Nat.toList_repr]
  simp

theorem scaled_one_inj {n m : ℕ} (h : scaled 1 n = scaled 1 m) : n = m := by
  have hlist : Nat.toDigits 10 (n / 10) ++ ['.', (n % 10).digitChar] =
      Nat.toDigits 10 (m / 10) ++ ['.', (m % 10).digitChar] := by
    rw [← toList_scaled_one, ← toList_scaled_one, h]
  obtain ⟨hhigh, hlow⟩ := List.append_inj' hlist rfl
  have htens : n / 10 = m / 10 := toDigits_inj hhigh
  have hunits : n % 10 = m % 10 := by
    have hchar : (n % 10).digitChar = (m % 10).digitChar := by simpa using hlow
    have hdigits : Nat.toDigits 10 (n % 10) = Nat.toDigits 10 (m % 10) := by
      rw [Nat.toDigits_of_lt_base (Nat.mod_lt n (by decide)),
        Nat.toDigits_of_lt_base (Nat.mod_lt m (by decide)), hchar]
    exact toDigits_inj hdigits
  omega

theorem minus_scaled_one_ne (n m : ℕ) : "-" ++ scaled 1 n ≠ scaled 1 m := by
  intro h
  have hlist : '-' :: (scaled 1 n).toList = (scaled 1 m).toList := by
    rw [← h, String.toList_append]
    rfl
  have hmem : '-' ∈ Nat.toDigits 10 (m / 10) := by
    rw [toList_scaled_one m] at hlist
    cases hd : Nat.toDigits 10 (m / 10) with
    | nil => exact absurd hd Nat.toDigits_ne_nil
    | cons c cs =>
      rw [hd, List.cons_append] at hlist
      rw [(List.cons_eq_cons.mp hlist).1]
      exact List.mem_cons_self ..
  have hdigit := Nat.isDigit_of_mem_toDigits (by decide) (by decide) hmem
  cases hdigit

/-! ### Characters a numeral cannot have -/

def Lacks (c : Char) (s : String) : Prop := c ∉ s.toList

instance Lacks.decidable (c : Char) (s : String) : Decidable (Lacks c s) :=
  inferInstanceAs (Decidable (c ∉ s.toList))

@[simp] theorem lacks_append (c : Char) (s t : String) :
    Lacks c (s ++ t) ↔ Lacks c s ∧ Lacks c t := by
  unfold Lacks
  rw [String.toList_append, List.mem_append, not_or]

section
variable {c : Char} (hd : c.isDigit = false)
include hd

theorem lacks_nat (n : ℕ) : Lacks c (toString n) := by
  intro h
  rw [show toString n = n.repr from rfl, Nat.toList_repr] at h
  have hdigit := Nat.isDigit_of_mem_toDigits (by decide) (by decide) h
  rw [hd] at hdigit
  cases hdigit

theorem lacks_padLeft (width : ℕ) {s : String} (hs : Lacks c s) :
    Lacks c (padLeft '0' width s) := by
  have hc : c ≠ '0' := by
    intro he
    rw [he] at hd
    cases hd
  have hfill : Lacks c (String.ofList (List.replicate (width - s.length) '0')) := by
    intro h
    rw [String.toList_ofList] at h
    exact hc (List.eq_of_mem_replicate h)
  exact (lacks_append c _ s).mpr ⟨hfill, hs⟩

theorem lacks_scaled (hdot : c ≠ '.') (d n : ℕ) : Lacks c (scaled d n) := by
  have hpoint : Lacks c "." := by
    intro h
    exact hdot (by simpa using h)
  unfold scaled
  split_ifs
  · exact lacks_nat hd n
  · simp only [lacks_append]
    exact ⟨⟨lacks_nat hd _, hpoint⟩, lacks_padLeft hd d (lacks_nat hd _)⟩

end

end GuppyScreen.Lib.Text
