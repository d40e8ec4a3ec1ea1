import GuppyScreen.Lib.Find
import GuppyScreen.Lib.Text
import Mathlib.Algebra.Group.Int.Defs
import Mathlib.Data.List.TakeWhile

/-!
# Prompts of macros (prompt_panel.cpp)

How a line of a macro's response is read as an action of a prompt. A text is a
list of characters. Positions fit the ints they are kept in.
-/

namespace GuppyScreen.PromptPanel
open Lib Find

abbrev Text := List Char

def nul : Char := Char.ofNat 0

/-- What a label keeps of a text: a C string. -/
def labelText (s : Text) : Text := s.takeWhile (· ≠ nul)

inductive ButtonStyle where
  | grey
  | orange
  | red
  | blue
  | darkGrey
  deriving DecidableEq

def styleOf (type : Text) : ButtonStyle :=
  if type = "secondary".toList then .grey
  else if type = "warning".toList then .orange
  else if type = "error".toList then .red
  else if type = "info".toList then .blue
  else if type = "primary".toList then .blue
  else .darkGrey

/-- A button with its two labels, the hidden one for the command. -/
structure Button where
  label : Text
  command : Text
  style : ButtonStyle
  deriving DecidableEq

inductive Action where
  | promptBegin (header : Text)
  | promptText (text : Text)
  | promptButtonGroupStart
  | promptButtonGroupEnd
  | promptButton (footer : Bool) (btn : Button)
  | promptShow
  | promptEnd
  | notSupported
  deriving DecidableEq

/-! ### Parsing -/

/-- `find` kept in an `int`. -/
def position (i : Option ℕ) : ℤ :=
  match i with
  | none => -1
  | some i => i

/-- An `int` where a `size_t` is taken. -/
def toSize (i : ℤ) : ℕ := if i < 0 then (2 ^ 64 + i).toNat else i.toNat

/-- `none` where `substr` throws. -/
def parseButton (command : Text) : Option Button := do
  let indexLabel := position (find "button".toList command 0) + 6
  let indexFirst := position (find ['|'] command (toSize indexLabel))
  let indexSecond := position (find ['|'] command (toSize (indexFirst + 1)))
  let label ← substr command (toSize indexLabel) (toSize (indexFirst - indexLabel))
  if 0 < indexSecond then
    let prompt ← substr command (toSize (indexFirst + 1)) (toSize (indexSecond - indexFirst - 1))
    let type ← substr command (toSize (indexSecond + 1)) (toSize (command.length - indexSecond - 1))
    some ⟨labelText label, labelText prompt, styleOf type⟩
  else
    let prompt ← substrFrom command (toSize (indexFirst + 1))
    some ⟨labelText label, labelText prompt, styleOf "none".toList⟩

def hasPrefix (p : String) (command : Text) : Bool := p.toList.isPrefixOf command

-- `find` takes the first that fits, so the order of the branches counts.
def parseAction (command : Text) : Option Action :=
  if hasPrefix "prompt_begin" command then (substrFrom command 13).map .promptBegin
  else if hasPrefix "prompt_text" command then (substrFrom command 12).map .promptText
  else if hasPrefix "prompt_button_group_start" command then some .promptButtonGroupStart
  else if hasPrefix "prompt_button_group_end" command then some .promptButtonGroupEnd
  else if hasPrefix "prompt_footer_button" command || hasPrefix "prompt_button" command then
    (parseButton command).map (.promptButton (hasPrefix "prompt_footer_button" command))
  else if hasPrefix "prompt_show" command then some .promptShow
  else if hasPrefix "prompt_end" command then some .promptEnd
  else some .notSupported

/-- A line of a response: `none` where it throws, `some none` where it is no action. -/
def parseResponse (resp : Text) : Option (Option Action) :=
  if hasPrefix "// action:" resp then (parseAction (resp.drop 10)).map some else some none

def sent (btn : Button) : Text := btn.command

/-! ### Prompt buttons as written -/

/-- The two words a button is asked for with. -/
def keyword (footer : Bool) : Text :=
  if footer then "prompt_footer_button".toList else "prompt_button".toList

/-- `X L|G|S`, `X L|G` and `X L`. -/
def triple (footer : Bool) (l g s : Text) : Text :=
  keyword footer ++ (' ' :: l ++ '|' :: (g ++ '|' :: s))

def pair (footer : Bool) (l g : Text) : Text := keyword footer ++ (' ' :: l ++ '|' :: g)

def single (footer : Bool) (l : Text) : Text := keyword footer ++ ' ' :: l

@[simp] theorem position_none : position none = -1 := rfl

@[simp] theorem position_some (i : ℕ) : position (some i) = i := rfl

theorem toSize_nat (n : ℕ) : toSize n = n := by
  unfold toSize
  rw [if_neg (by omega)]
  omega

theorem find_button (footer : Bool) (rest : Text) :
    position (find "button".toList (keyword footer ++ rest) 0) + 6 = (keyword footer).length := by
  cases footer <;> rfl

theorem toSize_sub {m n : ℕ} (h : n ≤ m) : toSize (m - n) = m - n := by
  rw [← toSize_nat (m - n)]
  congr 1
  omega

section
variable {command : Text} {k first second : ℕ}
  (hk : position (find "button".toList command 0) + 6 = k)
include hk

/-- Two separators. -/
theorem parseButton_second (hfirst : find ['|'] command k = some first)
    (hsecond : find ['|'] command (first + 1) = some second) :
    parseButton command =
      (substr command k (first - k)).bind fun label =>
        (substr command (first + 1) (second - (first + 1))).bind fun prompt =>
          (substr command (second + 1) (command.length - (second + 1))).bind fun type =>
            some ⟨labelText label, labelText prompt, styleOf type⟩ := by
  have hkf := find_mem hfirst
  have hfs := find_mem hsecond
  have hnext : (first : ℤ) + 1 = (first + 1 : ℕ) := by omega
  have hlast : (second : ℤ) + 1 = (second + 1 : ℕ) := by omega
  have hprompt : (second : ℤ) - first - 1 = (second : ℤ) - (first + 1 : ℕ) := by omega
  have htype : (command.length : ℤ) - second - 1 =
      (command.length : ℤ) - (second + 1 : ℕ) := by omega
  have hpos : (0 : ℤ) < second := by omega
  simp only [parseButton, hk, toSize_nat, hfirst, position_some, hnext, hsecond, hlast,
    hprompt, htype,
    if_pos hpos]
  rw [toSize_sub hkf.1, toSize_sub hfs.1, toSize_sub (by omega)]
  rfl

/-- One separator: `index_second` is -1. -/
theorem parseButton_first (hfirst : find ['|'] command k = some first)
    (hsecond : find ['|'] command (first + 1) = none) :
    parseButton command =
      (substr command k (first - k)).bind fun label =>
        (substrFrom command (first + 1)).bind fun prompt =>
          some ⟨labelText label, labelText prompt, styleOf "none".toList⟩ := by
  have hkf := find_mem hfirst
  have hnext : (first : ℤ) + 1 = (first + 1 : ℕ) := by omega
  simp only [parseButton, hk, toSize_nat, hfirst, position_some, position_none, hnext, hsecond,
    if_neg (show ¬ (0 : ℤ) < -1 by omega)]
  rw [toSize_sub hkf.1]
  rfl

/-- No separator: `index_first` is -1 too, and the command starts at 0. -/
theorem parseButton_none (hfirst : find ['|'] command k = none)
    (hall : find ['|'] command 0 = none) :
    parseButton command =
      (substr command k (toSize (-1 - k))).bind fun label =>
        some ⟨labelText label, labelText command, styleOf "none".toList⟩ := by
  have hzero : toSize (-1 + 1) = 0 := rfl
  simp only [parseButton, hk, toSize_nat, hfirst, position_none, hzero, hall,
    if_neg (show ¬ (0 : ℤ) < -1 by omega)]
  rfl

end

section
variable {footer : Bool} {a g : Text}

-- The text up to and with a separator.
theorem split_sep (before a rest : Text) :
    before ++ (a ++ '|' :: rest) = (before ++ (a ++ ['|'])) ++ rest := by
  simp

theorem length_sep (before a : Text) :
    (before ++ (a ++ ['|'])).length = before.length + a.length + 1 := by
  simp only [List.length_append, List.length_singleton]
  omega

theorem parseButton_triple (ha : '|' ∉ a) (hg : '|' ∉ g) (s : Text) :
    parseButton (keyword footer ++ (a ++ '|' :: (g ++ '|' :: s))) =
      some ⟨labelText a, labelText g, styleOf s⟩ := by
  have hfirst := find_sep (keyword footer) ha (g ++ '|' :: s)
  have hsecond := find_sep (keyword footer ++ (a ++ ['|'])) hg s
  rw [← split_sep, length_sep] at hsecond
  rw [parseButton_second (find_button footer _) hfirst hsecond]
  have hlabel := substr_mid (keyword footer) a ('|' :: (g ++ '|' :: s))
  have hprompt := substr_mid (keyword footer ++ (a ++ ['|'])) g ('|' :: s)
  have htype := substr_mid (keyword footer ++ (a ++ ['|']) ++ (g ++ ['|'])) s []
  rw [← split_sep, length_sep] at hprompt
  rw [List.append_nil, ← split_sep, length_sep, length_sep, ← split_sep] at htype
  have hlen : (keyword footer ++ (a ++ '|' :: (g ++ '|' :: s))).length =
      (keyword footer).length + a.length + 1 + g.length + 1 + s.length := by
    simp only [List.length_append, List.length_cons]
    omega
  rw [hlen, Nat.add_sub_cancel_left, Nat.add_sub_cancel_left, Nat.add_sub_cancel_left, hlabel]
  rw [Option.bind_some, hprompt, Option.bind_some, htype]
  rfl

theorem parseButton_pair (ha : '|' ∉ a) (hg : '|' ∉ g) :
    parseButton (keyword footer ++ (a ++ '|' :: g)) =
      some ⟨labelText a, labelText g, .darkGrey⟩ := by
  have hfirst := find_sep (keyword footer) ha g
  have hsecond := find_eq_none (keyword footer ++ (a ++ ['|'])) hg
  rw [← split_sep, length_sep] at hsecond
  rw [parseButton_first (find_button footer _) hfirst hsecond]
  have hlabel := substr_mid (keyword footer) a ('|' :: g)
  have hprompt := substrFrom_append (keyword footer ++ (a ++ ['|'])) g
  rw [← split_sep, length_sep] at hprompt
  rw [Nat.add_sub_cancel_left, hlabel, Option.bind_some, hprompt]
  rfl

theorem keyword_plain (footer : Bool) : '|' ∉ keyword footer := by
  cases footer <;> decide

theorem parseButton_single (footer : Bool) (ha : '|' ∉ a) :
    ∃ label, parseButton (keyword footer ++ a) =
      some ⟨label, labelText (keyword footer ++ a), .darkGrey⟩ := by
  have hfirst := find_eq_none (keyword footer) ha
  have hplain : '|' ∉ keyword footer ++ a := by
    rw [List.mem_append, not_or]
    exact ⟨keyword_plain footer, ha⟩
  have hall : find ['|'] (keyword footer ++ a) 0 = none := find_eq_none [] hplain
  rw [parseButton_none (find_button footer _) hfirst hall]
  obtain ⟨label, hlabel⟩ := Option.isSome_iff_exists.mp
    (substr_isSome (show (keyword footer).length ≤ (keyword footer ++ a).length by simp)
      (toSize (-1 - (keyword footer).length)))
  rw [hlabel]
  exact ⟨labelText label, rfl⟩

end

theorem parseButton_isSome (footer : Bool) (rest : Text) :
    (parseButton (keyword footer ++ rest)).isSome = true := by
  by_cases hrest : '|' ∈ rest
  · obtain ⟨a, tail, rfl, ha⟩ := List.eq_append_cons_of_mem hrest
    by_cases htail : '|' ∈ tail
    · obtain ⟨g, s, rfl, hg⟩ := List.eq_append_cons_of_mem htail
      rw [parseButton_triple ha hg]
      rfl
    · rw [parseButton_pair ha htail]
      rfl
  · obtain ⟨label, hlabel⟩ := parseButton_single footer hrest
    rw [hlabel]
    rfl

/-! ### Actions -/

theorem hasPrefix_iff {p : String} {command : Text} :
    hasPrefix p command = true ↔ ∃ rest, command = p.toList ++ rest := by
  unfold hasPrefix
  rw [List.isPrefixOf_iff_prefix]
  constructor
  · rintro ⟨rest, rfl⟩
    exact ⟨rest, rfl⟩
  · rintro ⟨rest, rfl⟩
    exact ⟨rest, rfl⟩

-- A text is cut one past its keyword.
theorem substrFrom_keyword {p : String} {command : Text} (h : hasPrefix p command = true) {n : ℕ}
    (hn : n = p.toList.length + 1) :
    (substrFrom command n).isSome = true ↔ command ≠ p.toList := by
  obtain ⟨rest, rfl⟩ := hasPrefix_iff.mp h
  rw [substrFrom_isSome_iff, hn, List.length_append]
  cases rest with
  | nil => simp
  | cons c rest => simp

theorem parseAction_button (footer : Bool) (rest : Text) :
    parseAction (keyword footer ++ ' ' :: rest) =
      (parseButton (keyword footer ++ ' ' :: rest)).map (.promptButton footer) := by
  cases footer <;> rfl

theorem parseButton_of_keyword {command : Text}
    (h : (hasPrefix "prompt_footer_button" command || hasPrefix "prompt_button" command) = true) :
    (parseButton command).isSome = true := by
  rcases Bool.or_eq_true_iff.mp h with hfooter | hbutton
  · obtain ⟨rest, rfl⟩ := hasPrefix_iff.mp hfooter
    exact parseButton_isSome true rest
  · obtain ⟨rest, rfl⟩ := hasPrefix_iff.mp hbutton
    exact parseButton_isSome false rest

theorem parseAction_isSome {command : Text} (hbegin : ¬ hasPrefix "prompt_begin" command = true)
    (htext : ¬ hasPrefix "prompt_text" command = true) : (parseAction command).isSome = true := by
  rw [parseAction, if_neg hbegin, if_neg htext]
  split_ifs with hstart hend hbutton
  · rfl
  · rfl
  · rw [Option.isSome_map]
    exact parseButton_of_keyword hbutton
  · rfl
  · rfl
  · rfl

theorem parseAction_isSome_iff (command : Text) :
    (parseAction command).isSome = true ↔
      command ≠ "prompt_begin".toList ∧ command ≠ "prompt_text".toList := by
  by_cases hbegin : hasPrefix "prompt_begin" command = true
  · have hother : command ≠ "prompt_text".toList := by
      rintro rfl
      cases hbegin
    have hcut := substrFrom_keyword hbegin (n := 13) rfl
    rw [parseAction, if_pos hbegin, Option.isSome_map, hcut]
    exact ⟨fun h => ⟨h, hother⟩, fun h => h.1⟩
  · have hother : command ≠ "prompt_begin".toList := by
      rintro rfl
      exact hbegin rfl
    by_cases htext : hasPrefix "prompt_text" command = true
    · have hcut := substrFrom_keyword htext (n := 12) rfl
      rw [parseAction, if_neg hbegin, if_pos htext, Option.isSome_map, hcut]
      exact ⟨fun h => ⟨hother, h⟩, fun h => h.2⟩
    · have hplain : command ≠ "prompt_text".toList := by
        rintro rfl
        exact htext rfl
      exact ⟨fun _ => ⟨hother, hplain⟩, fun _ => parseAction_isSome hbegin htext⟩

/-- Of all the lines Klipper answers with, the two bare keywords throw. -/
theorem parseResponse_isSome_iff (resp : Text) : (parseResponse resp).isSome = true ↔
    resp ≠ "// action:prompt_begin".toList ∧ resp ≠ "// action:prompt_text".toList := by
  unfold parseResponse
  split_ifs with haction
  · obtain ⟨command, rfl⟩ := hasPrefix_iff.mp haction
    have hdrop : ("// action:".toList ++ command).drop 10 = command := rfl
    have hkeyword (keyword : Text) :
        "// action:".toList ++ command = "// action:".toList ++ keyword ↔ command = keyword :=
      List.append_right_inj _
    rw [Option.isSome_map, hdrop, parseAction_isSome_iff]
    exact and_congr (not_congr (hkeyword _).symm) (not_congr (hkeyword _).symm)
  · refine ⟨fun _ => ⟨?_, ?_⟩, fun _ => rfl⟩
    · rintro rfl
      exact haction rfl
    · rintro rfl
      exact haction rfl

/-! ### What is asked for and what is made of it -/

/-- An action read as it was written. -/
structure AsWritten (command : Text) : Prop where
  noThrow : parseAction command ≠ none
  ofTriple : ∀ footer l g s, '|' ∉ l → '|' ∉ g → '|' ∉ s → command = triple footer l g s →
    ∃ btn, parseAction command = some (.promptButton footer btn) ∧ sent btn = g ∧
      btn.style = styleOf s
  ofPair : ∀ footer l g, '|' ∉ l → '|' ∉ g → command = pair footer l g →
    ∃ btn, parseAction command = some (.promptButton footer btn) ∧ sent btn = g ∧
      btn.style = .darkGrey
  ofSingle : ∀ footer l, '|' ∉ l → command = single footer l →
    ∀ footer btn, parseAction command = some (.promptButton footer btn) →
      sent btn ≠ command ∧ (sent btn = l ∨ sent btn = [])

/-- Not a bare keyword, no button without a command, no NUL in a command. -/
structure Readable (command : Text) : Prop where
  hasHeader : command ≠ "prompt_begin".toList
  hasText : command ≠ "prompt_text".toList
  hasCommand : ∀ footer l, '|' ∉ l → command ≠ single footer l
  noNul : ∀ footer l g, '|' ∉ l → '|' ∉ g →
    command = pair footer l g ∨ (∃ s, '|' ∉ s ∧ command = triple footer l g s) → nul ∉ g

theorem labelText_eq_iff {s : Text} : labelText s = s ↔ nul ∉ s := by
  unfold labelText
  rw [List.takeWhile_eq_self_iff]
  constructor
  · intro h hmem
    exact of_decide_eq_true (h nul hmem) rfl
  · intro h c hc
    apply decide_eq_true
    rintro rfl
    exact h hc

theorem nul_notMem_labelText (s : Text) : nul ∉ labelText s := by
  intro hmem
  have hkept := List.mem_takeWhile_imp (p := fun c => decide (c ≠ nul)) hmem
  exact of_decide_eq_true hkept rfl

theorem blank_plain {l : Text} (hl : '|' ∉ l) : '|' ∉ ' ' :: l := by
  rw [List.mem_cons, not_or]
  exact ⟨by decide, hl⟩

section
variable {footer : Bool} {l g : Text} (hl : '|' ∉ l)
include hl

theorem parseAction_triple (hg : '|' ∉ g) (s : Text) :
    parseAction (triple footer l g s) =
      some (.promptButton footer ⟨labelText (' ' :: l), labelText g, styleOf s⟩) := by
  rw [triple, List.cons_append, parseAction_button, ← List.cons_append,
    parseButton_triple (blank_plain hl) hg]
  rfl

theorem parseAction_pair (hg : '|' ∉ g) :
    parseAction (pair footer l g) =
      some (.promptButton footer ⟨labelText (' ' :: l), labelText g, .darkGrey⟩) := by
  rw [pair, List.cons_append, parseAction_button, ← List.cons_append,
    parseButton_pair (blank_plain hl) hg]
  rfl

theorem parseAction_single (footer : Bool) :
    ∃ label, parseAction (single footer l) =
      some (.promptButton footer ⟨label, labelText (single footer l), .darkGrey⟩) := by
  obtain ⟨label, hlabel⟩ := parseButton_single footer (blank_plain hl)
  rw [single, parseAction_button, hlabel]
  exact ⟨label, rfl⟩

end

theorem labelText_single (footer : Bool) (l : Text) :
    labelText (single footer l) = single footer (labelText l) := by
  cases footer <;> rfl

-- What a button without a command sends is longer than its label.
theorem single_ne (footer : Bool) (l : Text) : single footer (labelText l) ≠ l := by
  intro heq
  by_cases hnul : nul ∈ l
  · have hplain : nul ∉ single footer (labelText l) := by
      rw [← labelText_single]
      exact nul_notMem_labelText _
    rw [heq] at hplain
    exact hplain hnul
  · rw [labelText_eq_iff.mpr hnul] at heq
    have hlen := congrArg List.length heq
    simp [single] at hlen
    omega

/-- An action is read as written exactly when it is readable. -/
theorem as_written_iff (command : Text) : AsWritten command ↔ Readable command := by
  constructor
  · intro h
    obtain ⟨hheader, htext⟩ :=
      (parseAction_isSome_iff command).mp (Option.isSome_iff_ne_none.mpr h.noThrow)
    refine ⟨hheader, htext, ?_, ?_⟩
    · rintro footer l hl rfl
      obtain ⟨label, hparse⟩ := parseAction_single hl footer
      obtain ⟨-, hsent⟩ := h.ofSingle footer l hl rfl footer _ hparse
      rw [sent, labelText_single] at hsent
      rcases hsent with hsent | hsent
      · exact single_ne footer l hsent
      · cases footer <;> cases hsent
    · rintro footer l g hl hg (rfl | ⟨s, hs, rfl⟩)
      · obtain ⟨btn, hparse, hsent, -⟩ := h.ofPair footer l g hl hg rfl
        rw [parseAction_pair hl hg] at hparse
        cases hparse
        exact labelText_eq_iff.mp hsent
      · obtain ⟨btn, hparse, hsent, -⟩ := h.ofTriple footer l g s hl hg hs rfl
        rw [parseAction_triple hl hg] at hparse
        cases hparse
        exact labelText_eq_iff.mp hsent
  · intro h
    refine ⟨?_, ?_, ?_, ?_⟩
    · rw [← Option.isSome_iff_ne_none]
      exact (parseAction_isSome_iff command).mpr ⟨h.hasHeader, h.hasText⟩
    · rintro footer l g s hl hg hs rfl
      have hnul := h.noNul footer l g hl hg (Or.inr ⟨s, hs, rfl⟩)
      exact ⟨_, parseAction_triple hl hg s, labelText_eq_iff.mpr hnul, rfl⟩
    · rintro footer l g hl hg rfl
      have hnul := h.noNul footer l g hl hg (Or.inl rfl)
      exact ⟨_, parseAction_pair hl hg, labelText_eq_iff.mpr hnul, rfl⟩
    · intro footer l hl hsingle
      exact absurd hsingle (h.hasCommand footer l hl)

/-- A button without a command sends the action; two bare keywords throw. -/
theorem misread_actions :
    ¬ AsWritten (single false "OK".toList) ∧ ¬ AsWritten "prompt_begin".toList ∧
      ¬ AsWritten "prompt_text".toList := by
  refine ⟨?_, ?_, ?_⟩
  · intro h
    have hparse : parseAction (single false "OK".toList) =
        some (.promptButton false ⟨" OK".toList, "prompt_button OK".toList, .darkGrey⟩) := by
      decide
    exact (h.ofSingle false "OK".toList (by decide) rfl false _ hparse).1 rfl
  · intro h
    exact h.noThrow rfl
  · intro h
    exact h.noThrow rfl

end GuppyScreen.PromptPanel
