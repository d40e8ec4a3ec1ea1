import GuppyScreen.ExtruderLimits

/-!
# Options and their values (extruder_panel.cpp, selector.cpp)

A selector whose labels are made from a configured list, with the list beside it. The
buttons are numbered without the row break of a long list, the values have none.
-/

namespace GuppyScreen.ExtruderLimits
open Lib
open ExtruderPanel (formatOption)

variable {lv : LvBtnmatrix}

structure Options (lv : LvBtnmatrix) where
  values : List ℚ
  selector : Selector lv

namespace Options

def count (o : Options lv) : ℕ := Selector.optionCount o.selector.owned

/-- `build_options` and `set_options`. -/
def setOptions (l : Lists) (row : Row) (defaultIdx : ℕ) (o : Options lv) : Options lv :=
  ⟨l.values row, o.selector.setOptions (labels (l.values row)) defaultIdx⟩

def setEnabled (idx : ℕ) (enabled : Bool) (o : Options lv) : Options lv :=
  { o with selector := o.selector.setEnabled idx enabled }

def setSelectedIdx (idx : ℕ) (o : Options lv) : Options lv :=
  { o with selector := o.selector.setSelectedIdx idx }

inductive Call where
  | setOptions (l : Lists) (row : Row) (defaultIdx : ℕ)
  | setEnabled (idx : ℕ) (enabled : Bool)
  | setSelectedIdx (idx : ℕ)

def step (o : Options lv) : Call → Options lv
  | .setOptions l row defaultIdx => o.setOptions l row defaultIdx
  | .setEnabled idx enabled => o.setEnabled idx enabled
  | .setSelectedIdx idx => o.setSelectedIdx idx

/-! ### What every call keeps -/

structure Inv (o : Options lv) : Prop where
  shows : o.selector.Shows (o.values.map formatOption)
  index : o.selector.selectorIdx < o.values.length ∨ o.selector.selectorIdx = noSelection

theorem inv_setOptions (hlv : lv.Documented) (o : Options lv) (l : Lists) (row : Row) (d : ℕ) :
    (o.setOptions l row d).Inv := by
  have hne := values_ne_nil l row
  have hlabels := labels_ne_nil hne
  constructor
  · have hshows := Selector.Shows.applyOptions hlv hlabels d o.selector
    rw [buttons_labels] at hshows
    exact hshows
  · by_cases hd : d = noSelection
    · right
      show (o.selector.applyOptions (labels (l.values row)) d).selectorIdx = noSelection
      rw [Selector.applyOptions, if_neg hlabels]
      dsimp only
      rw [if_pos hd]
      exact hd
    · left
      have hpos : 0 < (LvBtnmatrix.buttons (labels (l.values row) ++ [""])).length := by
        rw [buttons_labels, List.length_map]
        exact List.length_pos_iff.mpr hne
      have hlt := Selector.selectorIdx_applyOptions_lt hlabels hd hpos o.selector
      rw [buttons_labels, List.length_map] at hlt
      exact hlt

theorem inv_setEnabled (hlv : lv.Documented) {o : Options lv} (h : o.Inv) (i : ℕ) (enabled : Bool) :
    (o.setEnabled i enabled).Inv := by
  constructor
  · exact h.shows.setEnabled hlv i enabled
  · simp only [setEnabled, Selector.selectorIdx_setEnabled]
    exact h.index

theorem inv_setSelectedIdx (hlv : lv.Documented) {o : Options lv} (h : o.Inv) (i : ℕ) :
    (o.setSelectedIdx i).Inv := by
  constructor
  · exact h.shows.setSelectedIdx hlv i
  · have hcount := h.shows.count
    rw [List.length_map] at hcount
    simp only [setSelectedIdx, Selector.setSelectedIdx]
    split_ifs
    · exact h.index
    · left
      dsimp only
      omega

theorem inv_step (hlv : lv.Documented) {o : Options lv} (h : o.Inv) (c : Call) :
    (o.step c).Inv := by
  cases c with
  | setOptions l row d => exact inv_setOptions hlv o l row d
  | setEnabled i enabled => exact inv_setEnabled hlv h i enabled
  | setSelectedIdx i => exact inv_setSelectedIdx hlv h i

theorem inv_run (hlv : lv.Documented) {o : Options lv} (h : o.Inv) (cs : List Call) :
    (Run.run step o cs).Inv := by
  induction cs generalizing o with
  | nil => exact h
  | cons c cs ih => exact ih (inv_step hlv h c)

/-! ### The two numberings -/

theorem Inv.count_eq {o : Options lv} (h : o.Inv) : o.count = o.values.length := by
  rw [count, h.shows.count, List.length_map]

theorem Inv.label {o : Options lv} (h : o.Inv) (i : ℕ) :
    lv.btnText o.selector.btnm i = o.values[i]?.map formatOption := by
  rw [h.shows.text, List.getElem?_map]

theorem Inv.selectedText_eq {o : Options lv} (h : o.Inv) :
    o.selector.selectedText =
      if o.selector.selectorIdx = noSelection then none
      else o.values[o.selector.selectorIdx]?.map formatOption := by
  have hcount := h.count_eq
  rw [count] at hcount
  rw [Selector.selectedText]
  by_cases hnone : o.selector.selectorIdx = noSelection
  · rw [if_pos (Or.inl hnone), if_pos hnone]
  · have hlt := h.index.resolve_right hnone
    rw [if_neg (by omega), if_neg hnone, h.label]

/-- What a call on index `i` is about is `values[i]`. -/
structure Aligned (o : Options lv) : Prop where
  count : o.count = o.values.length
  label : ∀ i, i < o.count → ∃ v, o.values[i]? = some v ∧
    lv.btnText o.selector.btnm i = some (formatOption v)
  index : o.selector.selectorIdx < o.count ∨ o.selector.selectorIdx = noSelection
  noText : o.selector.selectorIdx = noSelection → o.selector.selectedText = none
  text : o.selector.selectorIdx ≠ noSelection → ∃ v, o.values[o.selector.selectorIdx]? = some v ∧
    lv.btnText o.selector.btnm o.selector.selectorIdx = some (formatOption v) ∧
    o.selector.selectedText = some (formatOption v)
  disabling : ∀ i enabled j, i < o.count →
    (o.setEnabled i enabled).selector.isDisabled j =
      if j = i then !enabled else o.selector.isDisabled j
  selecting : ∀ i, i < o.count → (o.setSelectedIdx i).selector.selectorIdx = i
  outside : ∀ i enabled, o.count ≤ i → o.setEnabled i enabled = o ∧ o.setSelectedIdx i = o

theorem Inv.aligned (hlv : lv.Documented) {o : Options lv} (h : o.Inv) : o.Aligned := by
  have hcount := h.count_eq
  have hvalue : ∀ i, i < o.count → ∃ v, o.values[i]? = some v ∧
      lv.btnText o.selector.btnm i = some (formatOption v) := by
    intro i hi
    have hget : o.values[i]? = some o.values[i] := List.getElem?_eq_getElem (by omega)
    refine ⟨_, hget, ?_⟩
    rw [h.label, hget]
    rfl
  have hindex : o.selector.selectorIdx < o.count ∨ o.selector.selectorIdx = noSelection := by
    rw [hcount]
    exact h.index
  constructor
  · exact hcount
  · exact hvalue
  · exact hindex
  · intro hnone
    rw [h.selectedText_eq, if_pos hnone]
  · intro hsome
    obtain ⟨v, hv, hlabel⟩ := hvalue _ (hindex.resolve_right hsome)
    refine ⟨v, hv, hlabel, ?_⟩
    rw [h.selectedText_eq, if_neg hsome, hv]
    rfl
  · intro i enabled j hi
    apply h.shows.isDisabled_setEnabled hlv
    rw [List.length_map]
    omega
  · intro i hi
    have hin : ¬ Selector.optionCount o.selector.owned ≤ i := Nat.not_le.mpr hi
    simp only [setSelectedIdx, Selector.setSelectedIdx, if_neg hin]
  · intro i enabled hi
    have hout : Selector.optionCount o.selector.owned ≤ i := hi
    constructor
    · rw [setEnabled, Selector.setEnabled, if_pos hout]
    · rw [setSelectedIdx, Selector.setSelectedIdx, if_pos hout]

/-! ### Every run -/

/-- From the first `set_options` on, whatever the selector had before. -/
theorem aligned_after_every_call (hlv : lv.Documented) (o : Options lv) (l : Lists) (row : Row)
    (defaultIdx : ℕ) (cs : List Call) :
    (Run.run step (o.setOptions l row defaultIdx) cs).Aligned :=
  (inv_run hlv (inv_setOptions hlv o l row defaultIdx) cs).aligned hlv

-- Nine temperatures and a text among them, so that the row breaks after the fifth.
def nine : Lists where
  temps := .arr (.cons (.int 170) (.cons (.str "hot") (.cons (.float (1805 / 10)) (.cons (.int 190)
    (.cons (.int 200) (.cons (.int 210) (.cons (.int 220) (.cons (.int 230) (.cons (.int 240)
      (.cons (.int 250) .nil))))))))))
  lengths := .null
  speeds := .null

theorem sixth_option_selected :
    (Run.run step (setOptions nine .temp noSelection ⟨[], .new .plain ["180", ""] 0⟩)
        [.setEnabled 8 false, .setSelectedIdx 5]).selector.selectedText = some "220" ∧
      (Run.run step (setOptions nine .temp noSelection ⟨[], .new .plain ["180", ""] 0⟩)
        [.setEnabled 8 false, .setSelectedIdx 5]).Aligned :=
  ⟨by decide +kernel,
    aligned_after_every_call LvBtnmatrix.documented_plain _ nine .temp noSelection _⟩

end Options

end GuppyScreen.ExtruderLimits
