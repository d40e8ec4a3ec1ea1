import GuppyScreen.Lib.Counter
import GuppyScreen.PrintPanel.FileList
import Mathlib.Data.Int.Order.Basic
import Mathlib.Data.List.Basic
import Mathlib.Tactic.Linarith
import Mathlib.Tactic.Ring

/-!
# The view on the list (print_panel.cpp)

What `show_dir` does with the table widget. The row counter, the row count of the
table and the number of the top row are `uint16_t`. Coordinates are exact.
-/

namespace GuppyScreen.PrintPanel
open Lib

/-- The calls on the table. `rows` stands for `lv_table_get_row_cnt` and
`lv_table_get_cell_value`. -/
structure LvTable where
  Obj : Type
  rows : Obj → List Row
  setCellValue : ℕ → Row → Obj → Obj
  setRowCnt : ℕ → Obj → Obj
  updateLayout : Obj → Obj
  scrollY : Obj → ℤ
  contentHeight : Obj → ℤ
  scrollBottom : Obj → ℤ
  scrollBy : ℤ → Obj → Obj
  scrollToY : ℤ → Obj → Obj

namespace LvTable

/-- What is assumed of LVGL: rows of one height, and the scroll calls as documented. -/
structure Uniform (t : LvTable) (h : ℤ) : Prop where
  rowCnt_lt : ∀ o, (t.rows o).length < 2 ^ 16
  total : ∀ o, t.scrollY o + t.contentHeight o + t.scrollBottom o = (t.rows o).length * h
  contentHeight_nonneg : ∀ o, 0 ≤ t.contentHeight o
  rows_set : ∀ o r x, r < (t.rows o).length → t.rows (t.setCellValue r x o) = (t.rows o).set r x
  rows_append : ∀ o r x, r = (t.rows o).length → r + 1 < 2 ^ 16 →
    t.rows (t.setCellValue r x o) = t.rows o ++ [x]
  rows_setRowCnt : ∀ o n, n ≤ (t.rows o).length → t.rows (t.setRowCnt n o) = (t.rows o).take n
  rows_updateLayout : ∀ o, t.rows (t.updateLayout o) = t.rows o
  rows_scrollBy : ∀ o dy, t.rows (t.scrollBy dy o) = t.rows o
  rows_scrollToY : ∀ o y, t.rows (t.scrollToY y o) = t.rows o
  scrollY_set : ∀ o r x, t.scrollY (t.setCellValue r x o) = t.scrollY o
  scrollY_setRowCnt : ∀ o n, t.scrollY (t.setRowCnt n o) = t.scrollY o
  scrollY_updateLayout : ∀ o, t.scrollY (t.updateLayout o) = t.scrollY o
  scrollY_scrollBy : ∀ o dy, t.scrollY (t.scrollBy dy o) = t.scrollY o - dy
  contentHeight_set : ∀ o r x, t.contentHeight (t.setCellValue r x o) = t.contentHeight o
  contentHeight_setRowCnt : ∀ o n, t.contentHeight (t.setRowCnt n o) = t.contentHeight o
  contentHeight_updateLayout : ∀ o, t.contentHeight (t.updateLayout o) = t.contentHeight o
  contentHeight_scrollBy : ∀ o dy, t.contentHeight (t.scrollBy dy o) = t.contentHeight o

/-- The part of it that is about the rows. -/
structure Tabular (t : LvTable) : Prop where
  rowCnt_lt : ∀ o, (t.rows o).length < 2 ^ 16
  rows_set : ∀ o r x, r < (t.rows o).length → t.rows (t.setCellValue r x o) = (t.rows o).set r x
  rows_append : ∀ o r x, r = (t.rows o).length → r + 1 < 2 ^ 16 →
    t.rows (t.setCellValue r x o) = t.rows o ++ [x]
  rows_setRowCnt : ∀ o n, n ≤ (t.rows o).length → t.rows (t.setRowCnt n o) = (t.rows o).take n
  rows_updateLayout : ∀ o, t.rows (t.updateLayout o) = t.rows o
  rows_scrollBy : ∀ o dy, t.rows (t.scrollBy dy o) = t.rows o
  rows_scrollToY : ∀ o y, t.rows (t.scrollToY y o) = t.rows o

theorem Uniform.tabular {t : LvTable} {h : ℤ} (lv : t.Uniform h) : t.Tabular where
  rowCnt_lt := lv.rowCnt_lt
  rows_set := lv.rows_set
  rows_append := lv.rows_append
  rows_setRowCnt := lv.rows_setRowCnt
  rows_updateLayout := lv.rows_updateLayout
  rows_scrollBy := lv.rows_scrollBy
  rows_scrollToY := lv.rows_scrollToY

/-! ### `show_dir` -/

section
variable (t : LvTable) (rows : List Row)

/-- `same_rows`, as the first loop leaves it after at most `fuel` tests. -/
def sameRows (fuel : ℕ) (o : t.Obj) : Option Bool :=
  Counter.loop (2 ^ 16) (fun r same => same && decide (r < rows.length))
    (fun r _ => decide (rows[r]? = (t.rows o)[r]?)) fuel 0
    (decide ((t.rows o).length = rows.length))

/-- The second loop. -/
def writeRows (fuel : ℕ) (o : t.Obj) : Option t.Obj :=
  Counter.loop (2 ^ 16) (fun r _ => decide (r < rows.length))
    (fun r o => match rows[r]? with
      | some row => t.setCellValue r row o
      | none => o) fuel 0 o

/-- An empty `anchor` is `none`: no row is the empty text. -/
structure Held where
  anchor : Option Row := none
  rowH : ℤ := 0
  anchorRow : ℕ := 0

def hold (o : t.Obj) : Held :=
  let oldCnt := (t.rows o).length
  let total := t.scrollY o + t.contentHeight o + t.scrollBottom o
  let rowH := if 0 < oldCnt ∧ 0 < total then (total + (oldCnt / 2 : ℕ)).tdiv oldCnt else 0
  if 0 < rowH then
    let anchorRow := ((t.scrollY o).tdiv rowH % 2 ^ 16).toNat
    { anchor := if anchorRow < oldCnt then (t.rows o)[anchorRow]? else none, rowH, anchorRow }
  else {}

def scrollToAnchor (g : Held) (o : t.Obj) : t.Obj :=
  match g.anchor with
  | none => o
  | some anchor =>
    if anchor ∈ rows then
      let moved : ℤ := (rows.idxOf anchor : ℤ) - g.anchorRow
      if moved ≠ 0 then t.scrollBy (-moved * g.rowH) o else o
    else o

def scrollPastEnd (o : t.Obj) : t.Obj :=
  let pastEnd := -t.scrollBottom o
  if 0 < pastEnd then t.scrollBy pastEnd o else o

def scrollAboveStart (o : t.Obj) : t.Obj :=
  let aboveStart := t.scrollY o
  if aboveStart < 0 then t.scrollBy aboveStart o else o

/-- `show_dir` from its row loops to the place of the view. -/
def showDir (why : ListChange) (fuel : ℕ) (o : t.Obj) : Option t.Obj :=
  (t.sameRows rows fuel o).bind fun same =>
    if same = true ∧ why = .refetch then some o
    else
      (t.writeRows rows fuel o).map fun written =>
        let shown := t.updateLayout (t.setRowCnt (rows.length % 2 ^ 16) written)
        match why with
        | .refetch =>
          t.scrollAboveStart (t.scrollPastEnd (t.scrollToAnchor rows (t.hold o) shown))
        | .userAction => t.scrollToY 0 shown

end

variable {t : LvTable} {h : ℤ} {rows : List Row} {o : t.Obj}

/-! ### The loops -/

theorem sameRows_eq (t : LvTable) (o : t.Obj) (hlt : rows.length < 2 ^ 16) :
    t.sameRows rows (rows.length + 1) o = some (decide (rows = t.rows o)) := by
  obtain ⟨k, same, hk, hrun, hinv, hgo⟩ := Counter.loop_inv
    (fun r same => same && decide (r < rows.length))
    (fun r _ => decide (rows[r]? = (t.rows o)[r]?)) hlt
    (fun r same => same = true ↔ (t.rows o).length = rows.length ∧
      ∀ i, i < r → rows[i]? = (t.rows o)[i]?)
    (by simp)
    (by
      intro r same _ hinv hgo
      simp only [Bool.and_eq_true] at hgo
      obtain ⟨hlen, hbefore⟩ := hinv.mp hgo.1
      rw [decide_eq_true_iff]
      constructor
      · intro hr
        refine ⟨hlen, ?_⟩
        intro i hi
        by_cases hir : i = r
        · rw [hir, hr]
        · apply hbefore
          omega
      · intro hall
        apply hall.2
        omega)
    (Nat.zero_le _) (s := decide ((t.rows o).length = rows.length))
    (by simp)
  apply hrun.trans
  congr 1
  cases same with
  | false =>
    symm
    apply decide_eq_false
    intro heq
    have hfalse := hinv.mpr ⟨by rw [heq], fun i _ => by rw [heq]⟩
    cases hfalse
  | true =>
    symm
    apply decide_eq_true
    obtain ⟨hlen, hall⟩ := hinv.mp rfl
    have hend : rows.length ≤ k := by simpa using hgo
    apply List.ext_getElem?
    intro i
    by_cases hi : i < rows.length
    · apply hall
      omega
    · rw [List.getElem?_eq_none (by omega), List.getElem?_eq_none (by omega)]

theorem take_succ_set {α : Type} {l l' : List α} {r : ℕ} {x : α} (hr : r < l.length)
    (ht : l.take r = l'.take r) (hx : l'[r]? = some x) :
      (l.set r x).take (r + 1) = l'.take (r + 1) := by
  rw [List.take_add_one, List.take_add_one, hx, List.take_set_of_le (Nat.le_refl r), ht,
    List.getElem?_set_self hr]

theorem take_succ_append {α : Type} {l l' : List α} {r : ℕ} {x : α} (hr : r = l.length)
    (ht : l.take r = l'.take r) (hx : l'[r]? = some x) :
      (l ++ [x]).take (r + 1) = l'.take (r + 1) := by
  subst hr
  rw [List.take_add_one, List.take_add_one, hx, ← ht]
  simp

/-- `Frame` is what a write leaves alone. -/
theorem writeRows_ok (tab : t.Tabular) (hlt : rows.length < 2 ^ 16) (o : t.Obj)
    (Frame : t.Obj → Prop) (hframe : ∀ s r x, Frame s → Frame (t.setCellValue r x s))
    (ho : Frame o) :
    ∃ o', t.writeRows rows (rows.length + 1) o = some o' ∧ rows.length ≤ (t.rows o').length ∧
      (t.rows o').take rows.length = rows ∧ Frame o' := by
  obtain ⟨k, o', hk, hrun, hinv, hgo⟩ := Counter.loop_inv
    (fun r _ => decide (r < rows.length))
    (fun r o => match rows[r]? with
      | some row => t.setCellValue r row o
      | none => o) hlt
    (fun r (s : t.Obj) => r ≤ (t.rows s).length ∧ (t.rows s).take r = rows.take r ∧ Frame s)
    (by simp)
    (by
      intro r s hr hinv _
      obtain ⟨hle, htake, hs⟩ := hinv
      have hx : rows[r]? = some rows[r] := List.getElem?_eq_getElem hr
      simp only [hx]
      by_cases hlast : r = (t.rows s).length
      · rw [tab.rows_append s r _ hlast (by omega)]
        refine ⟨?_, take_succ_append hlast htake hx, hframe s r _ hs⟩
        rw [List.length_append, List.length_singleton]
        omega
      · rw [tab.rows_set s r _ (by omega)]
        refine ⟨?_, take_succ_set (by omega) htake hx, hframe s r _ hs⟩
        rw [List.length_set]
        omega)
    (Nat.zero_le _) (s := o) ⟨Nat.zero_le _, by simp, ho⟩
  obtain ⟨hle, htake, hs⟩ := hinv
  have hkn : k = rows.length := by
    have : rows.length ≤ k := by simpa using hgo
    omega
  subst hkn
  exact ⟨o', hrun, hle, by rw [htake, List.take_length], hs⟩

theorem writeRows_eq_none (hle : 2 ^ 16 ≤ rows.length) (fuel : ℕ) (o : t.Obj) :
    t.writeRows rows fuel o = none := by
  apply Counter.loop_eq_none
  · intro r hr s
    apply decide_eq_true
    omega
  · omega

theorem showDir_eq_none (hle : 2 ^ 16 ≤ rows.length) (hlt : (t.rows o).length < 2 ^ 16)
    (why : ListChange) (fuel : ℕ) : t.showDir rows why fuel o = none := by
  have hcnt : decide ((t.rows o).length = rows.length) = false := by
    apply decide_eq_false
    omega
  cases fuel with
  | zero => rfl
  | succ fuel =>
    have hsame : t.sameRows rows (fuel + 1) o = some false := by
      rw [sameRows, hcnt]
      rfl
    rw [showDir, hsame, writeRows_eq_none hle]
    rfl

/-! ### The place of the view -/

/-- The nearest position to `y` in a list of `n` rows. -/
def clampY (h view : ℤ) (n : ℕ) (y : ℤ) : ℤ := max 0 (min y (max 0 (n * h - view)))

/-- The old top row where it was in the view, or the old offset when the row is gone. -/
def heldY (old rows : List Row) (h view y : ℤ) : ℤ :=
  let i := (y / h).toNat
  match old[i]? with
  | none => clampY h view rows.length y
  | some row =>
    if row ∈ rows then clampY h view rows.length (y + ((rows.idxOf row : ℤ) - i) * h)
    else clampY h view rows.length y

theorem rowHeight_rounds {n : ℕ} (hn : 0 < n) (hh : 0 < h) :
    (n * h + (n / 2 : ℕ)).tdiv n = h := by
  have hn' : (0 : ℤ) < n := by omega
  have hhalf : ((n / 2 : ℕ) : ℤ) < n := by omega
  have hpos : 0 ≤ n * h := Int.mul_nonneg (by omega) (by omega)
  rw [Int.tdiv_eq_ediv_of_nonneg (by omega), Int.add_comm,
    Int.add_mul_ediv_left _ _ (by omega), Int.ediv_eq_zero_of_lt (by omega) hhalf]
  omega

theorem topRow_le {n : ℕ} {view y : ℤ} (hh : 0 < h) (hview : 0 ≤ view)
    (hy : y ≤ max 0 (n * h - view)) : (y / h).toNat ≤ n := by
  have hnh : 0 ≤ n * h := Int.mul_nonneg (by omega) (by omega)
  have hle : y ≤ n * h := by omega
  have hdiv : y / h ≤ n := Int.ediv_le_of_le_mul hh hle
  omega

/-- The anchor is the row under the top of the view, whatever the rounding. -/
theorem hold_eq (lv : t.Uniform h) (hh : 0 < h) (hy0 : 0 ≤ t.scrollY o)
    (hy : t.scrollY o ≤ max 0 ((t.rows o).length * h - t.contentHeight o)) :
    (t.hold o).anchor = (t.rows o)[(t.scrollY o / h).toNat]? ∧
      ((t.hold o).anchor ≠ none →
        (t.hold o).rowH = h ∧ (t.hold o).anchorRow = (t.scrollY o / h).toNat) := by
  by_cases hn : 0 < (t.rows o).length
  · have htotal : 0 < (t.rows o).length * h := Int.mul_pos (by omega) hh
    have htop := topRow_le hh (lv.contentHeight_nonneg o) hy
    have hlt := lv.rowCnt_lt o
    have hrow : ((t.scrollY o).tdiv h % 2 ^ 16).toNat = (t.scrollY o / h).toNat := by
      have hdiv : 0 ≤ t.scrollY o / h := Int.ediv_nonneg hy0 (by omega)
      rw [Int.tdiv_eq_ediv_of_nonneg hy0, Int.emod_eq_of_lt hdiv (by omega)]
    have hold : t.hold o = ⟨if (t.scrollY o / h).toNat < (t.rows o).length then
        (t.rows o)[(t.scrollY o / h).toNat]? else none, h, (t.scrollY o / h).toNat⟩ := by
      simp only [hold, lv.total, rowHeight_rounds hn hh, hn, htotal, hh, hrow, and_self, if_true]
    rw [hold]
    constructor
    · by_cases hi : (t.scrollY o / h).toNat < (t.rows o).length
      · exact if_pos hi
      · rw [List.getElem?_eq_none (by omega)]
        exact if_neg hi
    · intro _
      exact ⟨rfl, rfl⟩
  · have hold : t.hold o = {} := by
      simp [hold, hn]
    rw [hold, List.getElem?_eq_none (by omega)]
    exact ⟨rfl, fun hne => absurd rfl hne⟩

theorem rows_scrollToAnchor (tab : t.Tabular) (rows : List Row) (g : Held) (o : t.Obj) :
    t.rows (t.scrollToAnchor rows g o) = t.rows o := by
  cases hg : g.anchor with
  | none => simp [scrollToAnchor, hg]
  | some anchor =>
    simp only [scrollToAnchor, hg]
    split_ifs
    · exact tab.rows_scrollBy _ _
    · rfl
    · rfl

theorem contentHeight_scrollToAnchor (lv : t.Uniform h) (rows : List Row) (g : Held) (o : t.Obj) :
    t.contentHeight (t.scrollToAnchor rows g o) = t.contentHeight o := by
  cases hg : g.anchor with
  | none => simp [scrollToAnchor, hg]
  | some anchor =>
    simp only [scrollToAnchor, hg]
    split_ifs
    · exact lv.contentHeight_scrollBy _ _
    · rfl
    · rfl

theorem scrollY_scrollToAnchor (lv : t.Uniform h) {g : Held} {row : Row}
    (hanchor : g.anchor = some row) (hmem : row ∈ rows) (o : t.Obj) :
    t.scrollY (t.scrollToAnchor rows g o) =
      t.scrollY o + ((rows.idxOf row : ℤ) - g.anchorRow) * g.rowH := by
  simp only [scrollToAnchor, hanchor, if_pos hmem]
  split_ifs with hmoved
  · rw [lv.scrollY_scrollBy]
    ring
  · have hzero : (rows.idxOf row : ℤ) - g.anchorRow = 0 := by omega
    rw [hzero]
    omega

theorem rows_ends (tab : t.Tabular) (o : t.Obj) :
    t.rows (t.scrollAboveStart (t.scrollPastEnd o)) = t.rows o := by
  simp only [scrollAboveStart, scrollPastEnd]
  split_ifs <;> simp only [tab.rows_scrollBy]

/-- The two ends in turn are one clamp, also for a list shorter than the view. -/
theorem scrollY_ends (lv : t.Uniform h) (o : t.Obj) :
    t.scrollY (t.scrollAboveStart (t.scrollPastEnd o)) =
      clampY h (t.contentHeight o) (t.rows o).length (t.scrollY o) := by
  have htotal := lv.total o
  have hend : t.scrollY (t.scrollPastEnd o) =
      min (t.scrollY o) ((t.rows o).length * h - t.contentHeight o) := by
    simp only [scrollPastEnd]
    split_ifs with hpast
    · rw [lv.scrollY_scrollBy]
      omega
    · omega
  have hstart : t.scrollY (t.scrollAboveStart (t.scrollPastEnd o)) =
      max 0 (t.scrollY (t.scrollPastEnd o)) := by
    simp only [scrollAboveStart]
    split_ifs with habove
    · rw [lv.scrollY_scrollBy]
      omega
    · omega
  rw [hstart, hend, clampY]
  omega

/-! ### A changed list -/

theorem rows_shown (tab : t.Tabular) {written : t.Obj} (hlt : rows.length < 2 ^ 16)
    (hle : rows.length ≤ (t.rows written).length)
    (htake : (t.rows written).take rows.length = rows) :
    t.rows (t.updateLayout (t.setRowCnt (rows.length % 2 ^ 16) written)) = rows := by
  rw [Nat.mod_eq_of_lt hlt, tab.rows_updateLayout, tab.rows_setRowCnt _ _ hle, htake]

theorem showDir_eq (t : LvTable) {o written : t.Obj} (why : ListChange) (hlt : rows.length < 2 ^ 16)
    (hwritten : t.writeRows rows (rows.length + 1) o = some written) :
    t.showDir rows why (rows.length + 1) o =
      if rows = t.rows o ∧ why = .refetch then some o
      else
        match why with
        | .refetch =>
          some (t.scrollAboveStart (t.scrollPastEnd (t.scrollToAnchor rows (t.hold o)
            (t.updateLayout (t.setRowCnt (rows.length % 2 ^ 16) written)))))
        | .userAction =>
          some (t.scrollToY 0 (t.updateLayout (t.setRowCnt (rows.length % 2 ^ 16) written))) := by
  rw [showDir, sameRows_eq t o hlt, hwritten]
  cases why <;> simp

theorem scrollY_shown (lv : t.Uniform h) (hh : 0 < h) (hy0 : 0 ≤ t.scrollY o)
    (hy : t.scrollY o ≤ max 0 ((t.rows o).length * h - t.contentHeight o)) {shown : t.Obj}
    (hrows : t.rows shown = rows) (hys : t.scrollY shown = t.scrollY o)
    (hcs : t.contentHeight shown = t.contentHeight o) :
    t.scrollY (t.scrollAboveStart (t.scrollPastEnd (t.scrollToAnchor rows (t.hold o) shown))) =
      heldY (t.rows o) rows h (t.contentHeight o) (t.scrollY o) := by
  obtain ⟨hanchor, hheld⟩ := hold_eq lv hh hy0 hy
  rw [scrollY_ends lv, rows_scrollToAnchor lv.tabular, contentHeight_scrollToAnchor lv, hrows, hcs]
  simp only [heldY, ← hanchor]
  cases hg : (t.hold o).anchor with
  | none => simp only [scrollToAnchor, hg, hys]
  | some row =>
    obtain ⟨hrowH, hrow⟩ := hheld (by simp [hg])
    by_cases hmem : row ∈ rows
    · rw [scrollY_scrollToAnchor lv hg hmem, hrowH, hrow, hys]
      simp only [if_pos hmem]
    · simp only [scrollToAnchor, hg, if_neg hmem, hys]

theorem showDir_refetch (lv : t.Uniform h) (hh : 0 < h) (hy0 : 0 ≤ t.scrollY o)
    (hy : t.scrollY o ≤ max 0 ((t.rows o).length * h - t.contentHeight o))
    (hne : rows ≠ t.rows o) (hlt : rows.length < 2 ^ 16) :
    ∃ o', t.showDir rows .refetch (rows.length + 1) o = some o' ∧
      t.scrollY o' = heldY (t.rows o) rows h (t.contentHeight o) (t.scrollY o) := by
  obtain ⟨written, hwritten, hle, htake, hyw, hcw⟩ := writeRows_ok lv.tabular hlt o
    (fun s => t.scrollY s = t.scrollY o ∧ t.contentHeight s = t.contentHeight o)
    (fun s r x hs => ⟨(lv.scrollY_set s r x).trans hs.1, (lv.contentHeight_set s r x).trans hs.2⟩)
    ⟨rfl, rfl⟩
  have hshown := showDir_eq t .refetch hlt hwritten
  rw [if_neg (fun hsame => hne hsame.1)] at hshown
  refine ⟨_, hshown, scrollY_shown lv hh hy0 hy (rows_shown lv.tabular hlt hle htake) ?_ ?_⟩
  · rw [lv.scrollY_updateLayout, lv.scrollY_setRowCnt, hyw]
  · rw [lv.contentHeight_updateLayout, lv.contentHeight_setRowCnt, hcw]

/-- Where both loops end the table has the rows of the list, whatever it had before. -/
theorem showDir_ok (tab : t.Tabular) (why : ListChange) (hlt : rows.length < 2 ^ 16)
    (o : t.Obj) :
    ∃ o', t.showDir rows why (rows.length + 1) o = some o' ∧ t.rows o' = rows := by
  obtain ⟨written, hwritten, hle, htake, _⟩ :=
    writeRows_ok tab hlt o (fun _ => True) (fun _ _ _ _ => trivial) trivial
  have hshown := rows_shown tab hlt hle htake
  rw [showDir_eq t why hlt hwritten]
  by_cases hsame : rows = t.rows o ∧ why = .refetch
  · rw [if_pos hsame]
    exact ⟨o, rfl, hsame.1.symm⟩
  · rw [if_neg hsame]
    cases why with
    | refetch =>
      refine ⟨_, rfl, ?_⟩
      rw [rows_ends tab, rows_scrollToAnchor tab, hshown]
    | userAction =>
      refine ⟨_, rfl, ?_⟩
      rw [tab.rows_scrollToY, hshown]

/-- The table shows what the panel holds of it. -/
theorem rows_showDir (tab : t.Tabular) (std : StdSort) (p : FileList) (why : ListChange)
    (hlt : (p.rows std).length < 2 ^ 16) (o : t.Obj) :
    ∃ o', t.showDir (p.rows std) why ((p.rows std).length + 1) o = some o' ∧
      t.rows o' = (p.showDir std why).fileTable := by
  obtain ⟨o', hrun, ho'⟩ := showDir_ok tab why hlt o
  refine ⟨o', hrun, ?_⟩
  rw [ho', FileList.showDir]
  by_cases hsame : p.fileTable = p.rows std ∧ why = .refetch
  · rw [if_pos hsame]
    exact hsame.1.symm
  · rw [if_neg hsame]

theorem length_rows (std : StdSort) (p : FileList) :
    (p.rows std).length = (FileList.childrenOf p.root p.curDir).length + 1 := by
  rw [FileList.rows, List.length_cons, List.length_map, FileList.entries, (std.perm _ _).length_eq,
    List.length_map]

/-! ### A table of its own

Rows of one height `h` in a view of height `view`, with the offset of the view. -/

/-- The rows, fewer than the row count has values. -/
abbrev Short := { l : List Row // l.length < 2 ^ 16 }

def Short.put (l : Short) (r : ℕ) (x : Row) : Short :=
  if hr : r < l.val.length then ⟨l.val.set r x, by simpa using l.property⟩
  else if hlast : l.val.length + 1 < 2 ^ 16 then ⟨l.val ++ [x], by simpa using hlast⟩
  else l

theorem Short.put_below {l : Short} {r : ℕ} (hr : r < l.val.length) (x : Row) :
    (l.put r x).val = l.val.set r x := by
  rw [Short.put, dif_pos hr]

theorem Short.put_last {l : Short} {r : ℕ} (hr : r = l.val.length) (hlt : r + 1 < 2 ^ 16)
    (x : Row) :
    (l.put r x).val = l.val ++ [x] := by
  rw [Short.put, dif_neg (by omega), dif_pos (by omega)]

def sheet (h view : ℤ) : LvTable where
  Obj := Short × ℤ
  rows o := o.1.val
  setCellValue r x o := (o.1.put r x, o.2)
  setRowCnt n o := (⟨o.1.val.take n, lt_of_le_of_lt (List.length_take_le' n _) o.1.property⟩, o.2)
  updateLayout o := o
  scrollY o := o.2
  contentHeight _ := view
  scrollBottom o := o.1.val.length * h - view - o.2
  scrollBy dy o := (o.1, o.2 - dy)
  scrollToY y o := (o.1, y)

def sheetAt (h view : ℤ) (rows : Short) (y : ℤ) : (sheet h view).Obj := (rows, y)

theorem sheet_uniform (h : ℤ) {view : ℤ} (hview : 0 ≤ view) : (sheet h view).Uniform h where
  rowCnt_lt o := o.1.property
  total o := by
    simp only [sheet]
    omega
  contentHeight_nonneg _ := hview
  rows_set _ _ x hr := Short.put_below hr x
  rows_append _ _ x hr hlt := Short.put_last hr hlt x
  rows_setRowCnt _ _ _ := rfl
  rows_updateLayout _ := rfl
  rows_scrollBy _ _ := rfl
  rows_scrollToY _ _ := rfl
  scrollY_set _ _ _ := rfl
  scrollY_setRowCnt _ _ := rfl
  scrollY_updateLayout _ := rfl
  scrollY_scrollBy _ _ := rfl
  contentHeight_set _ _ _ := rfl
  contentHeight_setRowCnt _ _ := rfl
  contentHeight_updateLayout _ := rfl
  contentHeight_scrollBy _ _ := rfl

/-- Both loops end with a verdict and a table of just these rows, `..` before the children. -/
theorem every_row_written_iff (tab : t.Tabular) (std : StdSort) (p : FileList) (why : ListChange)
    (o : t.Obj) :
    (∃ fuel same o', t.sameRows (p.rows std) fuel o = some same ∧
      t.showDir (p.rows std) why fuel o = some o' ∧
      (∀ r, r < (p.rows std).length → (t.rows o')[r]? = (p.rows std)[r]?) ∧
      (t.rows o').length = (p.rows std).length) ↔
    (FileList.childrenOf p.root p.curDir).length < 65535 := by
  have hlen := length_rows std p
  constructor
  · intro hends
    obtain ⟨fuel, _, o', _, hrun, _⟩ := hends
    by_contra hle
    rw [showDir_eq_none (by omega) (tab.rowCnt_lt o)] at hrun
    cases hrun
  · intro hlt
    have hrows : (p.rows std).length < 2 ^ 16 := by omega
    obtain ⟨o', hrun, ho'⟩ := showDir_ok tab why hrows o
    refine ⟨(p.rows std).length + 1, _, o', sameRows_eq t o hrows, hrun, ?_, ?_⟩
    · intro r _
      rw [ho']
    · rw [ho']

/-- A directory of `n` files, one character each. -/
def crowded (n : ℕ) : FileList where
  root := .node ⟨[], [], 0, none⟩ ((List.range n).map fun i =>
    ([Char.ofNat (65536 + i)], Tree.new [Char.ofNat (65536 + i)] [Char.ofNat (65536 + i)] 0))

theorem length_crowded (n : ℕ) :
    (FileList.childrenOf (crowded n).root (crowded n).curDir).length = n := by
  show ((List.range n).map _).length = n
  rw [List.length_map, List.length_range]

/-- By time these files are equal, so `std::sort` may leave them as they are. -/
def keepOrder : StdSort where
  sort _ l := l
  perm _ l := .refl l

theorem rows_of_three_files :
    (∃ fuel same o', (sheet 58 116).sameRows ((crowded 3).rows keepOrder) fuel
        (sheetAt 58 116 ⟨[], by decide⟩ 0) = some same ∧
      (sheet 58 116).showDir ((crowded 3).rows keepOrder) .userAction fuel
        (sheetAt 58 116 ⟨[], by decide⟩ 0) = some o' ∧
      (∀ r, r < ((crowded 3).rows keepOrder).length →
        ((sheet 58 116).rows o')[r]? = ((crowded 3).rows keepOrder)[r]?) ∧
      ((sheet 58 116).rows o').length = ((crowded 3).rows keepOrder).length) ↔
    (FileList.childrenOf (crowded 3).root (crowded 3).curDir).length < 65535 :=
  every_row_written_iff (sheet_uniform 58 (by decide)).tabular keepOrder (crowded 3) .userAction _

/-- With 65535 files the second loop never ends. -/
theorem crowded_directory_never_written :
    ¬ ∃ fuel o', (sheet 58 116).showDir ((crowded 65535).rows keepOrder) .userAction fuel
        (sheetAt 58 116 ⟨[], by decide⟩ 0) = some o' := by
  intro hends
  obtain ⟨fuel, o', hrun⟩ := hends
  have hle : 2 ^ 16 ≤ ((crowded 65535).rows keepOrder).length := by
    rw [length_rows, length_crowded]
    decide
  rw [showDir_eq_none hle (by decide)] at hrun
  cases hrun

theorem view_held_iff (lv : t.Uniform h) (hh : 0 < h) (hy0 : 0 ≤ t.scrollY o)
    (hy : t.scrollY o ≤ max 0 ((t.rows o).length * h - t.contentHeight o))
    (hne : rows ≠ t.rows o) :
    (∃ fuel o', t.showDir rows .refetch fuel o = some o' ∧
      t.scrollY o' = heldY (t.rows o) rows h (t.contentHeight o) (t.scrollY o)) ↔
    rows.length < 2 ^ 16 := by
  constructor
  · rintro ⟨fuel, o', hrun, _⟩
    by_contra hle
    rw [showDir_eq_none (by omega) (lv.rowCnt_lt o)] at hrun
    cases hrun
  · intro hlt
    exact ⟨_, showDir_refetch lv hh hy0 hy hne hlt⟩

/-- A file was added above the top row of the view. -/
theorem view_held_after_upload :
    (∃ fuel o', (sheet 58 116).showDir [⟨true, ['.', '.']⟩, ⟨false, ['b']⟩, ⟨false, ['a']⟩,
      ⟨false, ['c']⟩]
        .refetch fuel (sheetAt 58 116 ⟨[⟨true, ['.', '.']⟩, ⟨false, ['a']⟩,
          ⟨false, ['c']⟩], by decide⟩ 58) = some o' ∧
      (sheet 58 116).scrollY o' = heldY [⟨true, ['.', '.']⟩, ⟨false, ['a']⟩, ⟨false, ['c']⟩]
        [⟨true, ['.', '.']⟩, ⟨false, ['b']⟩, ⟨false, ['a']⟩, ⟨false, ['c']⟩] 58 116 58) ↔
    4 < 2 ^ 16 :=
  view_held_iff (sheet_uniform 58 (by decide)) (by decide) (by decide) (by decide) (by decide)

/-- A directory of 65535 files. -/
def fullDirectory : List Row :=
  ⟨true, FileList.parentDir⟩ :: (List.range 65535).map fun n => ⟨false, (toString n).toList⟩

theorem length_fullDirectory : fullDirectory.length = 2 ^ 16 := by
  rw [fullDirectory, List.length_cons, List.length_map, List.length_range]
  decide

theorem full_directory_not_shown :
    ¬ ∃ fuel o', (sheet 58 116).showDir fullDirectory .refetch fuel
        (sheetAt 58 116 ⟨[⟨true, FileList.parentDir⟩], by decide⟩ 0) = some o' ∧
      (sheet 58 116).scrollY o' = heldY [⟨true, FileList.parentDir⟩] fullDirectory 58 116 0 := by
  rintro ⟨fuel, o', hrun, _⟩
  rw [showDir_eq_none length_fullDirectory.ge (by decide)] at hrun
  cases hrun

end LvTable
end GuppyScreen.PrintPanel
