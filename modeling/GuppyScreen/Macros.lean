import GuppyScreen.Lib.Json
import GuppyScreen.Lib.Regex
import GuppyScreen.Lib.Split
import GuppyScreen.Lib.StdMap
import GuppyScreen.Lib.Text
import Mathlib.Data.List.Infix

/-!
# Macros and their parameters (utils.cpp, macro_item.cpp)

`parse_macros` looks in the templates of the config for the parameters of each macro,
and `MacroItem` offers an input for each. What hides a macro is left out.
-/

namespace GuppyScreen.Macros
open Lib Regex

abbrev Params := StdMap (List Char) (List Char)

/-! ### The patterns -/

def isWord (c : Char) : Bool := c.isAlphanum || c = '_'

/-- What `.` matches. -/
def dot (c : Char) : Bool := c ≠ '\n' && c ≠ '\r'

/-- `params\.(\w+)(.*)` -/
def paramRegex : Regex :=
  icase "params.".toList (seq (group 1 (plus (char isWord))) (group 2 (star (char dot))))

def quoted : Regex :=
  seq (group 2 (char fun c => c = '"' || c = '\''))
    (seq (star (alt (seq (char (· = '\\')) (char dot)) (char (· ≠ '\x02')))) (backref 2))

def number : Regex :=
  seq (opt (char (· = '-'))) (seq (char Char.isDigit) (star (char fun c => c ≠ ',' && c ≠ ')')))

/-- `\|\s*default\s*\(\s*(quoted|number)` -/
def defaultValueRegex : Regex :=
  seq (char (· = '|')) (seq (star (char Text.isSpace)) (icase "default".toList
    (seq (star (char Text.isSpace)) (seq (char (· = '(')) (seq (star (char Text.isSpace))
      (group 1 (alt quoted number)))))))

/-! ### `parse_macros` -/

def defaultValue (rest : List Char) : List Char :=
  match search defaultValueRegex rest with
  | none => []
  | some m => m.str 1

def macroParams (gcode : List Char) : Params :=
  (allMatches paramRegex gcode).foldl
    (fun params m => params.insertNew (m.str 1) (defaultValue (m.str 2))) ∅

def members : Fields → List (String × Json)
  | .nil => []
  | .cons k v r => (k, v) :: members r

/-- One round of the loop, `none` where `get<std::string>()` throws. -/
def addMacro (macros : StdMap (List Char) Params) (el : String × Json) :
    Option (StdMap (List Char) Params) :=
  if Text.startsWith "gcode_macro " el.1 then
    match el.2.get? "gcode" with
    | none => some macros
    | some .null => some macros
    | some gcode =>
      match Split.getlines ' ' el.1.toList with
      | _ :: name :: _ =>
        if ['_'].isPrefixOf name then some macros
        else
          match gcode with
          | .str text => some (macros.insertNew name (macroParams text.toList))
          | _ => none
      | _ => some macros
  else some macros

def parseMacros (m : Fields) : Option (StdMap (List Char) Params) := (members m).foldlM addMacro ∅

/-- The inputs of a `MacroItem`: a label and the text it starts with. -/
def macroItemParams (params : Params) : List (List Char × List Char) :=
  params.entries.map fun entry => (entry.1, entry.2)

example : macroItemParams (macroParams "G28\nset x = params.X|default(5)|float".toList) =
    [("X".toList, "5".toList)] := by decide +kernel

/-! ### The names in a template -/

/-- The name after a `params.` at the start of a text: as many word characters as
there are, and at least one. -/
def nameAt (text : List Char) : Option (List Char) :=
  (after "params.".toList text).bind fun rest =>
    if rest.takeWhile isWord = [] then none else some (rest.takeWhile isWord)

/-- The names after every `params.` in a text. -/
def names (text : List Char) : List (List Char) := text.tails.filterMap nameAt

def lines (text : List Char) : List (List Char) := text.splitOnP fun c => !dot c

def firstNames (text : List Char) : List (List Char) :=
  (lines text).filterMap fun line => (names line).head?

theorem dot_of_isWord {c : Char} (h : isWord c = true) : dot c = true := by
  unfold dot
  rw [Bool.and_eq_true]
  constructor
  · apply decide_eq_true
    rintro rfl
    cases h
  · apply decide_eq_true
    rintro rfl
    cases h

theorem stops_isWord {tail : List Char} (h : Stops dot tail) : Stops isWord tail := by
  intro a ha
  cases hw : isWord a with
  | false => rfl
  | true =>
    have hdot := h a ha
    rw [dot_of_isWord hw] at hdot
    cases hdot

theorem after_line {tail : List Char} (h : Stops dot tail) (l : List Char) :
    after "params.".toList (l ++ tail) = (after "params.".toList l).map (· ++ tail) := by
  apply after_append
  intro a ha hmem
  have hdot := h a ha
  have hbreak : a = '\n' ∨ a = '\r' := by
    by_contra hne
    push Not at hne
    simp [dot, hne.1, hne.2] at hdot
  rcases hbreak with rfl | rfl <;> revert hmem <;> decide

theorem after_mem {text s rest : List Char} (h : after text s = some rest) : ∀ c ∈ rest, c ∈ s := by
  induction text generalizing s with
  | nil =>
    cases h
    exact fun c hc => hc
  | cons t ts ih =>
    cases s with
    | nil => cases h
    | cons a s =>
      rw [after] at h
      split_ifs at h
      intro c hc
      exact List.mem_cons_of_mem a (ih h c hc)

-- The name and the rest of the line.
theorem head_name {a : Char} (ha : isWord a = true) (text : List Char) :
    ∃ m, ((seq (group 1 (plus (char isWord))) (group 2 (star (char dot)))).run ⟨a :: text,
      []⟩).head? =
        some m ∧ m.rest = (text.dropWhile isWord).dropWhile dot ∧
      m.str 1 = (a :: text).takeWhile isWord := by
  have hword := head_group 1 (head_plus_char ha text [])
  have hline := fun groups => head_group 2 (head_star_char dot ⟨text.dropWhile isWord, groups⟩)
  refine ⟨_, head_seq hword (hline _), rfl, ?_⟩
  have hdrop : text.dropWhile isWord = (a :: text).dropWhile isWord := by
    rw [List.dropWhile_cons, if_pos ha]
  show (a :: text).take ((a :: text).length - (text.dropWhile isWord).length) = _
  rw [hdrop, take_sub_dropWhile]

section
variable {l tail : List Char} (hl : ∀ c ∈ l, dot c = true) (htail : Stops dot tail)
include htail

theorem nameAt_line : nameAt (l ++ tail) = nameAt l := by
  unfold nameAt
  rw [after_line htail]
  cases after "params.".toList l with
  | none => rfl
  | some rest =>
    simp only [Option.map_some, Option.bind_some]
    rw [(stops_isWord htail).takeWhile_append]

theorem firstAt_none (hnone : nameAt l = none) : firstAt paramRegex (l ++ tail) = none := by
  unfold firstAt paramRegex
  rw [run_icase, after_line htail]
  unfold nameAt at hnone
  cases hafter : after "params.".toList l with
  | none => rfl
  | some rest =>
    rw [hafter, Option.bind_some] at hnone
    have hempty : rest.takeWhile isWord = [] := by
      by_contra hne
      rw [if_neg hne] at hnone
      cases hnone
    have hstop : (rest ++ tail).takeWhile isWord = [] := by
      rw [(stops_isWord htail).takeWhile_append, hempty]
    cases hrest : rest ++ tail with
    | nil => simp [hrest, run, plus]
    | cons a text =>
      rw [hrest, List.takeWhile_cons] at hstop
      have ha : isWord a = false := by
        cases hw : isWord a with
        | false => rfl
        | true => simp [hw] at hstop
      simp [hrest, run, plus, ha]

include hl

theorem firstAt_some {n : List Char} (hn : nameAt l = some n) :
    ∃ m, firstAt paramRegex (l ++ tail) = some m ∧ m.rest = tail ∧ m.str 1 = n := by
  unfold nameAt at hn
  obtain ⟨rest, hafter, hn⟩ := Option.bind_eq_some_iff.mp hn
  have hne : rest.takeWhile isWord ≠ [] := by
    intro hempty
    rw [if_pos hempty] at hn
    cases hn
  rw [if_neg hne] at hn
  cases hn
  have hrestdot : ∀ c ∈ rest, dot c = true := fun c hc => hl c (after_mem hafter c hc)
  cases rest with
  | nil => exact absurd rfl hne
  | cons a rest =>
    have ha : isWord a = true := by
      cases hw : isWord a with
      | true => rfl
      | false => simp [hw] at hne
    obtain ⟨m, hfirst, hrest, hname⟩ := head_name ha (rest ++ tail)
    refine ⟨m, ?_, ?_, ?_⟩
    · unfold firstAt paramRegex
      rw [run_icase, after_line htail, hafter]
      exact hfirst
    · have hall : (rest.dropWhile isWord).dropWhile dot = [] := by
        rw [List.dropWhile_eq_nil_iff]
        intro c hc
        exact hrestdot c (List.mem_cons_of_mem a ((List.dropWhile_suffix isWord).subset hc))
      rw [hrest, (stops_isWord htail).dropWhile_append, htail.dropWhile_append, hall,
        List.nil_append]
    · rw [hname, ← List.cons_append, (stops_isWord htail).takeWhile_append]

end

/-! ### What the iterator finds -/

theorem names_cons (a : Char) (text : List Char) :
    names (a :: text) = (nameAt (a :: text)).toList ++ names text := by
  unfold names
  rw [List.tails_cons, List.filterMap_cons]
  cases nameAt (a :: text) <;> rfl

-- No match starts at the end of a line.
theorem search_stops {tail : List Char} (h : Stops dot tail) :
    search paramRegex tail = search paramRegex tail.tail := by
  have hnone : firstAt paramRegex ([] ++ tail) = none := firstAt_none h rfl
  rw [List.nil_append] at hnone
  cases tail with
  | nil => rfl
  | cons a tail => rw [search, hnone, List.tail_cons]

theorem search_line {l tail : List Char} (hl : ∀ c ∈ l, dot c = true) (htail : Stops dot tail) :
    (names l = [] → search paramRegex (l ++ tail) = search paramRegex tail) ∧
      ∀ n, (names l).head? = some n →
        ∃ m, search paramRegex (l ++ tail) = some m ∧ m.rest = tail ∧ m.str 1 = n := by
  induction l with
  | nil => exact ⟨fun _ => rfl, fun n hn => nomatch hn⟩
  | cons a l ih =>
    obtain ⟨ihnone, ihsome⟩ := ih fun c hc => hl c (List.mem_cons_of_mem a hc)
    rw [names_cons, List.cons_append, search, ← List.cons_append]
    cases hat : nameAt (a :: l) with
    | none =>
      rw [firstAt_none htail hat]
      exact ⟨ihnone, ihsome⟩
    | some n =>
      obtain ⟨m, hm, hrest, hname⟩ := firstAt_some hl htail hat
      rw [hm]
      constructor
      · intro hempty
        cases hempty
      · intro n' hn'
        cases hn'
        exact ⟨m, rfl, hrest, hname⟩

theorem lines_append {l tail : List Char} (hl : ∀ c ∈ l, dot c = true) (htail : Stops dot tail) :
    lines (l ++ tail) = l :: if tail = [] then [] else lines tail.tail := by
  have hline : lines l = [l] := by
    apply List.splitOnP_eq_singleton
    intro c hc
    rw [hl c hc]
    rfl
  cases tail with
  | nil => rw [List.append_nil, if_pos rfl, hline]
  | cons a tail =>
    have hbreak : (!dot a) = true := by
      rw [htail a rfl]
      rfl
    rw [lines, List.splitOnP_append_cons l tail hbreak]
    exact congrArg (· ++ lines tail) hline

theorem names_stops {tail : List Char} (h : Stops dot tail) : names tail = names tail.tail := by
  have hnone : nameAt ([] ++ tail) = nameAt [] := nameAt_line h
  cases tail with
  | nil => rfl
  | cons a tail =>
    rw [List.nil_append] at hnone
    rw [names_cons, hnone]
    rfl

theorem names_append {l tail : List Char} (htail : Stops dot tail) :
    names (l ++ tail) = names l ++ names tail.tail := by
  induction l with
  | nil => exact names_stops htail
  | cons a l ih =>
    rw [names_cons, List.cons_append, names_cons, ih, ← List.cons_append, nameAt_line htail,
      List.append_assoc]

/-- Induction over a text, a line at a time. -/
theorem line_induction {P : List Char → Prop}
    (line : ∀ l tail, (∀ c ∈ l, dot c = true) → Stops dot tail → (tail ≠ [] → P tail.tail) →
      P (l ++ tail))
    (text : List Char) : P text := by
  induction hn : text.length using Nat.strong_induction_on generalizing text with
  | _ n ih =>
    rw [← List.takeWhile_append_dropWhile (p := dot) (l := text)]
    apply line _ _ (fun c hc => List.mem_takeWhile_imp hc) (stops_dropWhile dot text)
    intro hnil
    apply ih _ _ _ rfl
    have hpos := List.length_pos_iff.mpr hnil
    have hle := (List.dropWhile_suffix dot (l := text)).length_le
    rw [List.length_tail]
    omega

theorem names_lines (text : List Char) : names text = (lines text).flatMap names := by
  induction text using line_induction with
  | line l tail hl htail ih =>
    rw [names_append htail, lines_append hl htail, List.flatMap_cons]
    congr 1
    split_ifs with hnil
    · subst hnil
      rfl
    · exact ih hnil

/-- The first names are all names when each name is the first of some line. -/
theorem firstNames_all_iff (text : List Char) :
    (∀ n, n ∈ names text ↔ n ∈ firstNames text) ↔
      ∀ line ∈ lines text, ∀ n ∈ names line, n ∈ firstNames text := by
  have hsub : ∀ n ∈ firstNames text, n ∈ names text := by
    intro n hn
    obtain ⟨line, hline, hhead⟩ := List.mem_filterMap.mp hn
    rw [names_lines]
    exact List.mem_flatMap.mpr ⟨line, hline, List.mem_of_head? hhead⟩
  constructor
  · intro h line hline n hn
    rw [← h n, names_lines]
    exact List.mem_flatMap.mpr ⟨line, hline, hn⟩
  · intro h n
    refine ⟨?_, hsub n⟩
    intro hn
    rw [names_lines] at hn
    obtain ⟨line, hline, hmem⟩ := List.mem_flatMap.mp hn
    exact h line hline n hmem

theorem matchesFrom_stops {tail : List Char} (h : Stops dot tail) (fuel : ℕ) :
    matchesFrom paramRegex fuel tail = matchesFrom paramRegex fuel tail.tail := by
  cases fuel with
  | zero => rfl
  | succ fuel => rw [matchesFrom, matchesFrom, search_stops h]

/-- The iterator finds the first name of each line. -/
theorem matchesFrom_names (fuel : ℕ) (text : List Char) (h : text.length < fuel) :
    (matchesFrom paramRegex fuel text).map (·.str 1) = firstNames text := by
  induction text using line_induction generalizing fuel with
  | line l tail hl htail ih =>
    rw [List.length_append] at h
    obtain ⟨hnone, hsome⟩ := search_line hl htail
    -- what is left when a line is done
    have hrest : ∀ f, tail.tail.length < f → tail ≠ [] →
        (matchesFrom paramRegex f tail).map (·.str 1) = firstNames tail.tail := by
      intro f hf hne
      rw [matchesFrom_stops htail]
      exact ih hne f hf
    have hlines : firstNames (l ++ tail) = (names l).head?.toList ++
        if tail = [] then [] else firstNames tail.tail := by
      unfold firstNames
      rw [lines_append hl htail, List.filterMap_cons]
      cases (names l).head? <;> split_ifs <;> rfl
    have hend : ∀ f, tail.tail.length < f →
        (matchesFrom paramRegex f tail).map (·.str 1) = if tail = [] then []
          else firstNames tail.tail := by
      intro f hf
      split_ifs with hnil
      · subst hnil
        cases f <;> rfl
      · exact hrest f hf hnil
    rw [hlines]
    cases fuel with
    | zero => omega
    | succ fuel =>
      have hshort := List.length_tail (l := tail)
      cases hhead : (names l).head? with
      | none =>
        have hempty : names l = [] := List.head?_eq_none_iff.mp hhead
        have hskip : matchesFrom paramRegex (fuel + 1) (l ++ tail) =
            matchesFrom paramRegex (fuel + 1) tail := by
          rw [matchesFrom, matchesFrom, hnone hempty]
        rw [hskip]
        exact hend (fuel + 1) (by omega)
      | some name =>
        obtain ⟨m, hm, hmrest, hmname⟩ := hsome name hhead
        have hpos : 0 < l.length := by
          apply List.length_pos_iff.mpr
          rintro rfl
          cases hhead
        rw [matchesFrom, hm]
        simp only [List.map_cons, hmrest, hmname, Option.toList_some, List.singleton_append]
        rw [hend fuel (by omega)]

/-! ### The macros of a config -/

theorem mem_foldl_insertNew (ms : List Cursor) (params : Params) (n : List Char) :
    n ∈ ms.foldl (fun params m => params.insertNew (m.str 1) (defaultValue (m.str 2))) params ↔
      n ∈ params ∨ n ∈ ms.map (·.str 1) := by
  induction ms generalizing params with
  | nil => simp
  | cons m ms ih =>
    rw [List.foldl_cons, ih, StdMap.mem_insertNew, List.map_cons, List.mem_cons, or_assoc]

/-- The inputs of a macro are the names that come first on a line. -/
theorem mem_macroItemParams (text n : List Char) :
    n ∈ (macroItemParams (macroParams text)).map Prod.fst ↔ n ∈ firstNames text := by
  have hkeys : (macroItemParams (macroParams text)).map Prod.fst = (macroParams text).keys := by
    unfold macroItemParams
    rw [List.map_map]
    rfl
  rw [hkeys, ← AList.mem_keys, macroParams, mem_foldl_insertNew, allMatches,
    matchesFrom_names _ _ (Nat.lt_succ_self _)]
  simp [AList.notMem_empty]

/-- The name of a macro that is not hidden by an underscore. -/
def visibleName (key : String) : Option (List Char) :=
  if Text.startsWith "gcode_macro " key then
    match Split.getlines ' ' key.toList with
    | _ :: name :: _ => if ['_'].isPrefixOf name then none else some name
    | _ => none
  else none

/-- A visible macro with its gcode, where it has one. -/
def macroOf (el : String × Json) : Option (List Char × Json) :=
  (visibleName el.1).bind fun name =>
    match el.2.get? "gcode" with
    | none => none
    | some .null => none
    | some gcode => some (name, gcode)

/-- The gcode of the first visible macro of a name. -/
def firstGcode (name : List Char) (els : List (String × Json)) : Option (List Char) :=
  els.findSome? fun el =>
    match macroOf el with
    | some (other, .str text) => if other = name then some text.toList else none
    | _ => none

theorem addMacro_eq (macros : StdMap (List Char) Params) (el : String × Json) :
    addMacro macros el =
      match macroOf el with
      | none => some macros
      | some (name, .str text) => some (macros.insertNew name (macroParams text.toList))
      | some _ => none := by
  unfold addMacro macroOf visibleName
  generalize el.2.get? "gcode" = gcode
  by_cases hkey : Text.startsWith "gcode_macro " el.1 = true
  swap
  · rw [if_neg hkey, if_neg hkey]
    rfl
  rw [if_pos hkey, if_pos hkey]
  generalize Split.getlines ' ' el.1.toList = pieces
  rcases pieces with _ | ⟨first, _ | ⟨name, rest⟩⟩
  · rcases gcode with _ | gcode
    · rfl
    · cases gcode <;> rfl
  · rcases gcode with _ | gcode
    · rfl
    · cases gcode <;> rfl
  · by_cases hhidden : ['_'].isPrefixOf name = true
    · rcases gcode with _ | gcode
      · simp [hhidden]
      · cases gcode <;> simp [hhidden]
    · rcases gcode with _ | gcode
      · simp [hhidden]
      · cases gcode <;> simp [hhidden]

section
variable {els : List (String × Json)} {macros found : StdMap (List Char) Params}

/-- The loop ends exactly when no visible macro has a gcode that is no text. -/
theorem foldlM_isSome_iff : ((els.foldlM addMacro macros).isSome = true) ↔
    ∀ el ∈ els, ∀ name gcode, macroOf el = some (name, gcode) → ∃ text, gcode = .str text := by
  induction els generalizing macros with
  | nil => simp
  | cons el els ih =>
    rw [List.foldlM_cons, List.forall_mem_cons, addMacro_eq]
    cases hm : macroOf el with
    | none =>
      rw [Option.bind_eq_bind, Option.bind_some, ih]
      simp
    | some entry =>
      obtain ⟨name, gcode⟩ := entry
      cases gcode with
      | str text =>
        rw [Option.bind_eq_bind, Option.bind_some, ih]
        constructor
        · intro h
          refine ⟨?_, h⟩
          intro name' gcode' heq
          cases heq
          exact ⟨text, rfl⟩
        · exact fun h => h.2
      | _ =>
        constructor
        · intro h
          cases h
        · intro h
          obtain ⟨text, htext⟩ := h.1 _ _ rfl
          cases htext

theorem lookup_insertNew_eq (macros : StdMap (List Char) Params) (k j : List Char) (v : Params) :
    (macros.insertNew k v).lookup j = (macros.lookup j).or (if k = j then some v else none) := by
  apply Option.ext
  intro x
  rw [StdMap.lookup_insertNew_iff, Option.or_eq_some_iff, AList.lookup_eq_none]
  simp only [Option.ite_none_right_eq_some, Option.some_inj]
  grind

/-- A macro has the parameters of the first section of its name. -/
theorem lookup_foldlM (h : els.foldlM addMacro macros = some found) (name : List Char) :
    found.lookup name = (macros.lookup name).or ((firstGcode name els).map macroParams) := by
  induction els generalizing macros with
  | nil =>
    cases h
    simp [firstGcode]
  | cons el els ih =>
    rw [List.foldlM_cons, addMacro_eq] at h
    unfold firstGcode
    rw [List.findSome?_cons]
    cases hm : macroOf el with
    | none =>
      rw [hm] at h
      exact ih h
    | some entry =>
      obtain ⟨other, gcode⟩ := entry
      rw [hm] at h
      cases gcode with
      | str text =>
        rw [ih h, lookup_insertNew_eq, Option.or_assoc]
        congr 1
        by_cases hname : other = name
        · simp [hname]
        · simp [hname, firstGcode]
      | _ => cases h

end

theorem lookup_parseMacros {m : Fields} {macros : StdMap (List Char) Params}
    (h : parseMacros m = some macros) (name : List Char) :
    macros.lookup name = (firstGcode name (members m)).map macroParams := by
  rw [lookup_foldlM h]
  rfl

/-- A section of a config with a visible macro and a text for its gcode. -/
structure VisibleMacro (m : Fields) where
  key : String
  value : Json
  name : List Char
  text : String
  mem : (key, value) ∈ members m
  visible : visibleName key = some name
  gcode : value.get? "gcode" = some (.str text)

/-- The macro has an input for each name in its gcode, and no other. -/
def Complete {m : Fields} (sec : VisibleMacro m) : Prop :=
  ∃ macros params, parseMacros m = some macros ∧ macros.lookup sec.name = some params ∧
    ∀ n, n ∈ (macroItemParams params).map Prod.fst ↔ n ∈ names sec.text.toList

/-- Complete exactly when no visible macro has a gcode that is no text, and the first
section of the name has these names, and no other, at the first place of a line. -/
theorem complete_iff {m : Fields} (sec : VisibleMacro m) :
    Complete sec ↔
      (∀ el ∈ members m, ∀ other gcode, macroOf el = some (other, gcode) → ∃ t, gcode = .str t) ∧
        ∃ first, firstGcode sec.name (members m) = some first ∧
          ∀ n, n ∈ names sec.text.toList ↔ n ∈ firstNames first := by
  constructor
  · rintro ⟨macros, params, hparse, hparams, hall⟩
    refine ⟨foldlM_isSome_iff.mp (Option.isSome_iff_exists.mpr ⟨macros, hparse⟩), ?_⟩
    rw [lookup_parseMacros hparse] at hparams
    obtain ⟨first, hfirst, rfl⟩ := Option.map_eq_some_iff.mp hparams
    refine ⟨first, hfirst, ?_⟩
    intro n
    rw [← hall n, mem_macroItemParams]
  · rintro ⟨htexts, first, hfirst, hall⟩
    obtain ⟨macros, hparse⟩ := Option.isSome_iff_exists.mp (foldlM_isSome_iff.mpr htexts)
    refine ⟨macros, macroParams first, hparse, ?_, ?_⟩
    · rw [lookup_parseMacros hparse, hfirst, Option.map_some]
    · intro n
      rw [mem_macroItemParams, hall n]

def moveTemplate : String := "G1 X\x7bparams.X\x7d Y\x7bparams.Y\x7d"

def moveSection : Json := .obj (.cons "gcode" (.str moveTemplate) .nil)

def moveConfig : Fields := .cons "gcode_macro MOVE" moveSection .nil

def twoOnALine : VisibleMacro moveConfig where
  key := "gcode_macro MOVE"
  value := moveSection
  name := "MOVE".toList
  text := moveTemplate
  mem := List.mem_singleton_self _
  visible := by decide
  gcode := by decide

theorem second_parameter_missed : ¬ Complete twoOnALine := by
  rintro ⟨macros, params, hparse, hparams, hall⟩
  have hfirst : firstGcode twoOnALine.name (members moveConfig) = some moveTemplate.toList := by
    decide
  rw [lookup_parseMacros hparse, hfirst] at hparams
  cases hparams
  have hinput := (hall ['Y']).mpr (by decide)
  rw [mem_macroItemParams] at hinput
  revert hinput
  decide

end GuppyScreen.Macros
