import GuppyScreen.Lib.Text
import Mathlib.Algebra.Group.Nat.Defs
import Mathlib.Data.List.Basic

/-!
# A row of options (selector.cpp)

The labels of a selector are given to an LVGL button matrix, which numbers its
buttons without the row breaks. LVGL is not in the repository: its calls are
parameters.
-/

namespace GuppyScreen

inductive Ctrl where
  | checkable
  | checked
  | disabled
  deriving DecidableEq

/-- The calls on a button matrix. -/
structure LvBtnmatrix where
  Obj : Type
  create : Obj
  setMap : List String → Obj → Obj
  setBtnCtrlAll : Ctrl → Obj → Obj
  setOneChecked : Bool → Obj → Obj
  setBtnCtrl : ℕ → Ctrl → Obj → Obj
  clearBtnCtrl : ℕ → Ctrl → Obj → Obj
  btnText : Obj → ℕ → Option String
  hasBtnCtrl : Obj → ℕ → Ctrl → Bool

namespace LvBtnmatrix

def buttons : List String → List String
  | [] => []
  | s :: rest => if s = "" then [] else if s = "\n" then buttons rest else s :: buttons rest

/-- What is assumed of LVGL. A new map may keep the bits of the old one. -/
structure Documented (lv : LvBtnmatrix) : Prop where
  text_setMap : ∀ map o i, lv.btnText (lv.setMap map o) i = (buttons map)[i]?
  text_setBtnCtrlAll : ∀ c o i, lv.btnText (lv.setBtnCtrlAll c o) i = lv.btnText o i
  text_setOneChecked : ∀ b o i, lv.btnText (lv.setOneChecked b o) i = lv.btnText o i
  text_setBtnCtrl : ∀ j c o i, lv.btnText (lv.setBtnCtrl j c o) i = lv.btnText o i
  text_clearBtnCtrl : ∀ j c o i, lv.btnText (lv.clearBtnCtrl j c o) i = lv.btnText o i
  disabled_create : ∀ i, lv.hasBtnCtrl lv.create i .disabled = false
  disabled_setMap : ∀ map o i, lv.hasBtnCtrl o i .disabled = false →
    lv.hasBtnCtrl (lv.setMap map o) i .disabled = false
  disabled_setBtnCtrlAll : ∀ c o i, c ≠ .disabled →
    lv.hasBtnCtrl (lv.setBtnCtrlAll c o) i .disabled = lv.hasBtnCtrl o i .disabled
  disabled_setOneChecked : ∀ b o i,
    lv.hasBtnCtrl (lv.setOneChecked b o) i .disabled = lv.hasBtnCtrl o i .disabled
  disabled_check : ∀ j o i,
    lv.hasBtnCtrl (lv.setBtnCtrl j .checked o) i .disabled = lv.hasBtnCtrl o i .disabled
  disabled_set : ∀ j o i, (lv.btnText o j).isSome →
    lv.hasBtnCtrl (lv.setBtnCtrl j .disabled o) i .disabled =
      if i = j then true else lv.hasBtnCtrl o i .disabled
  disabled_clear : ∀ j o i, (lv.btnText o j).isSome →
    lv.hasBtnCtrl (lv.clearBtnCtrl j .disabled o) i .disabled =
      if i = j then false else lv.hasBtnCtrl o i .disabled

/-- A matrix that keeps its map and its bits. -/
structure Matrix where
  map : List String
  oneChecked : Bool
  bits : ℕ → Ctrl → Bool

def plain : LvBtnmatrix where
  Obj := Matrix
  create := ⟨[""], false, fun _ _ => false⟩
  setMap map o := { o with map := map, bits := fun _ _ => false }
  setBtnCtrlAll c o := { o with bits := fun i c' => c' = c || o.bits i c' }
  setOneChecked b o := { o with oneChecked := b }
  setBtnCtrl j c o :=
    { o with bits := fun i c' =>
        if i = j ∧ c' = c then true
        else if o.oneChecked ∧ c = .checked ∧ c' = .checked then false else o.bits i c' }
  clearBtnCtrl j c o :=
    { o with bits := fun i c' => if i = j ∧ c' = c then false else o.bits i c' }
  btnText o i := (buttons o.map)[i]?
  hasBtnCtrl o i c := o.bits i c

theorem documented_plain : plain.Documented where
  text_setMap _ _ _ := rfl
  text_setBtnCtrlAll _ _ _ := rfl
  text_setOneChecked _ _ _ := rfl
  text_setBtnCtrl _ _ _ _ := rfl
  text_clearBtnCtrl _ _ _ _ := rfl
  disabled_create _ := rfl
  disabled_setMap _ _ _ _ := rfl
  disabled_setBtnCtrlAll c o i hc := by simp [plain, Ne.symm hc]
  disabled_setOneChecked _ _ _ := rfl
  disabled_check j o i := by simp [plain]
  disabled_set j o i _ := by simp [plain]
  disabled_clear j o i _ := by simp [plain]

end LvBtnmatrix

/-- `std::numeric_limits<uint32_t>::max()`, for no selection. -/
def noSelection : ℕ := 2 ^ 32 - 1

structure Selector (lv : LvBtnmatrix) where
  owned : List String
  btnm : lv.Obj
  selectorIdx : ℕ

namespace Selector
variable {lv : LvBtnmatrix}

def optionCount : List String → ℕ
  | [] => 0
  | s :: rest => if s = "" then 0 else if s = "\n" then optionCount rest else optionCount rest + 1

def applyOptions (opts : List String) (defaultIdx : ℕ) (s : Selector lv) : Selector lv :=
  if opts = [] then s
  else
    let owned := opts ++ [""]
    let btnm := lv.setOneChecked true (lv.setBtnCtrlAll .checkable (lv.setMap owned s.btnm))
    if defaultIdx = noSelection then ⟨owned, btnm, defaultIdx⟩
    else
      let idx := if optionCount owned ≤ defaultIdx then 0 else defaultIdx
      ⟨owned, lv.setBtnCtrl idx .checked btnm, idx⟩

/-- The constructor, with the terminator of its list dropped. -/
def new (lv : LvBtnmatrix) (m : List String) (defaultIdx : ℕ) : Selector lv :=
  applyOptions (m.filter (· ≠ "")) defaultIdx ⟨[], lv.create, defaultIdx⟩

def setOptions (opts : List String) (defaultIdx : ℕ) (s : Selector lv) : Selector lv :=
  s.applyOptions opts defaultIdx

def setEnabled (idx : ℕ) (enabled : Bool) (s : Selector lv) : Selector lv :=
  if optionCount s.owned ≤ idx then s
  else if enabled then { s with btnm := lv.clearBtnCtrl idx .disabled s.btnm }
  else { s with btnm := lv.setBtnCtrl idx .disabled s.btnm }

def selectedText (s : Selector lv) : Option String :=
  if s.selectorIdx = noSelection ∨ optionCount s.owned ≤ s.selectorIdx then none
  else lv.btnText s.btnm s.selectorIdx

def setSelectedIdx (idx : ℕ) (s : Selector lv) : Selector lv :=
  if optionCount s.owned ≤ idx then s
  else { s with selectorIdx := idx, btnm := lv.setBtnCtrl idx .checked s.btnm }

def isDisabled (s : Selector lv) (i : ℕ) : Bool := lv.hasBtnCtrl s.btnm i .disabled

/-! ### What is shown -/

theorem optionCount_eq (map : List String) :
    optionCount map = (LvBtnmatrix.buttons map).length := by
  induction map with
  | nil => rfl
  | cons s rest ih =>
    rw [optionCount, LvBtnmatrix.buttons, ih]
    split_ifs
    · rfl
    · rfl
    · rfl

/-- The buttons of the selector have these labels. -/
structure Shows (s : Selector lv) (texts : List String) : Prop where
  count : optionCount s.owned = texts.length
  text : ∀ i, lv.btnText s.btnm i = texts[i]?

namespace Shows
variable {s : Selector lv} {texts : List String}

theorem applyOptions (hlv : lv.Documented) {opts : List String} (h : opts ≠ []) (d : ℕ)
    (s : Selector lv) :
    (s.applyOptions opts d).Shows (LvBtnmatrix.buttons (opts ++ [""])) := by
  have htext : ∀ i, lv.btnText (lv.setOneChecked true (lv.setBtnCtrlAll .checkable
      (lv.setMap (opts ++ [""]) s.btnm))) i = (LvBtnmatrix.buttons (opts ++ [""]))[i]? := by
    intro i
    rw [hlv.text_setOneChecked, hlv.text_setBtnCtrlAll, hlv.text_setMap]
  rw [Selector.applyOptions, if_neg h]
  dsimp only
  split_ifs
  · exact ⟨optionCount_eq _, htext⟩
  · exact ⟨optionCount_eq _, fun i => (hlv.text_setBtnCtrl _ _ _ i).trans (htext i)⟩
  · exact ⟨optionCount_eq _, fun i => (hlv.text_setBtnCtrl _ _ _ i).trans (htext i)⟩

theorem setEnabled (hlv : lv.Documented) (h : s.Shows texts) (j : ℕ) (enabled : Bool) :
    (s.setEnabled j enabled).Shows texts := by
  rw [Selector.setEnabled]
  split_ifs
  · exact h
  · exact ⟨h.count, fun i => (hlv.text_clearBtnCtrl _ _ _ i).trans (h.text i)⟩
  · exact ⟨h.count, fun i => (hlv.text_setBtnCtrl _ _ _ i).trans (h.text i)⟩

theorem setSelectedIdx (hlv : lv.Documented) (h : s.Shows texts) (j : ℕ) :
    (s.setSelectedIdx j).Shows texts := by
  rw [Selector.setSelectedIdx]
  split_ifs
  · exact h
  · exact ⟨h.count, fun i => (hlv.text_setBtnCtrl _ _ _ i).trans (h.text i)⟩

theorem isSome (h : s.Shows texts) {i : ℕ} (hi : i < texts.length) :
    (lv.btnText s.btnm i).isSome := by
  rw [h.text, List.getElem?_eq_getElem hi]
  rfl

theorem selectedText_eq (h : s.Shows texts) {text : String} (ht : s.selectedText = some text) :
    texts[s.selectorIdx]? = some text := by
  rw [selectedText] at ht
  split_ifs at ht
  rw [← h.text, ht]

theorem isDisabled_setEnabled (hlv : lv.Documented) (h : s.Shows texts) {j : ℕ}
    (hj : j < texts.length)
    (enabled : Bool) (i : ℕ) :
    (s.setEnabled j enabled).isDisabled i = if i = j then !enabled else s.isDisabled i := by
  have hcount : ¬ optionCount s.owned ≤ j := by
    rw [h.count]
    omega
  rw [Selector.setEnabled, if_neg hcount]
  cases enabled with
  | true => exact hlv.disabled_clear j s.btnm i (h.isSome hj)
  | false => exact hlv.disabled_set j s.btnm i (h.isSome hj)

end Shows

@[simp] theorem selectorIdx_setEnabled (s : Selector lv) (j : ℕ) (enabled : Bool) :
    (s.setEnabled j enabled).selectorIdx = s.selectorIdx := by
  rw [setEnabled]
  split_ifs
  · rfl
  · rfl
  · rfl

theorem isDisabled_setSelectedIdx (hlv : lv.Documented) (s : Selector lv) (j i : ℕ) :
    (s.setSelectedIdx j).isDisabled i = s.isDisabled i := by
  rw [setSelectedIdx]
  split_ifs
  · rfl
  · exact hlv.disabled_check j s.btnm i

theorem isDisabled_applyOptions (hlv : lv.Documented) {s : Selector lv}
    (h : ∀ i, s.isDisabled i = false)
    (opts : List String) (d i : ℕ) : (s.applyOptions opts d).isDisabled i = false := by
  have hnew : ∀ map, lv.hasBtnCtrl (lv.setOneChecked true (lv.setBtnCtrlAll .checkable
      (lv.setMap map s.btnm))) i .disabled = false := by
    intro map
    rw [hlv.disabled_setOneChecked, hlv.disabled_setBtnCtrlAll _ _ _ (by decide)]
    exact hlv.disabled_setMap _ _ _ (h i)
  rw [applyOptions]
  dsimp only
  split_ifs
  · exact h i
  · exact hnew _
  · exact (hlv.disabled_check _ _ i).trans (hnew _)
  · exact (hlv.disabled_check _ _ i).trans (hnew _)

theorem selectorIdx_setSelectedIdx_lt {s : Selector lv} {texts : List String} (h : s.Shows texts)
    (hs : s.selectorIdx < texts.length) (j : ℕ) :
      (s.setSelectedIdx j).selectorIdx < texts.length := by
  rw [setSelectedIdx]
  split_ifs with hj
  · exact hs
  · rw [h.count] at hj
    exact Nat.lt_of_not_le hj

theorem selectorIdx_applyOptions_lt {opts : List String} (h : opts ≠ []) {d : ℕ}
    (hd : d ≠ noSelection)
    (hpos : 0 < (LvBtnmatrix.buttons (opts ++ [""])).length) (s : Selector lv) :
    (s.applyOptions opts d).selectorIdx < (LvBtnmatrix.buttons (opts ++ [""])).length := by
  rw [applyOptions, if_neg h]
  dsimp only
  rw [if_neg hd, optionCount_eq]
  split_ifs with hle
  · exact hpos
  · exact Nat.lt_of_not_le hle

end Selector

end GuppyScreen
