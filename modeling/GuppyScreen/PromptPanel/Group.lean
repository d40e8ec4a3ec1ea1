import GuppyScreen.Lib.Run
import GuppyScreen.Lib.Widgets
import GuppyScreen.PromptPanel

/-!
# The button group of a prompt (prompt_panel.cpp)

The widgets the actions make and destroy, and the pointer to the group. Sizes and
styles are left out.
-/

namespace GuppyScreen.PromptPanel
open Lib

/-- A pointer member that the constructor may have left unset. -/
inductive Pointer where
  | indeterminate
  | null
  | to (id : ℕ)
  deriving DecidableEq

structure Panel where
  widgets : Widgets
  header : Text := "HEADER".toList
  shown : Bool := false
  buttonGroupCont : Pointer := .indeterminate

def promptCont : ℕ := 0

def flex : ℕ := 1

def header : ℕ := 2

def footerCont : ℕ := 3

namespace Panel

/-- The constructor, in the order of its initializers. -/
def construct : Panel where
  widgets :=
    let screen : Widgets := ⟨fun i => if i = promptCont then some [] else none, 1, by
      intro i hi
      rw [if_neg (by unfold promptCont; omega)]⟩
    ((screen.create promptCont).create promptCont).create promptCont

def clean (p : Panel) : Panel := { p with widgets := (p.widgets.clean footerCont).clean flex }

/-- Where `lv_btn_create` is asked to put a button. -/
def buttonParent (p : Panel) (footer : Bool) : Option ℕ :=
  if footer then some footerCont
  else
    match p.buttonGroupCont with
    | .indeterminate => none
    | .null => some flex
    | .to group => some group

-- The button and its two labels.
def createButton (p : Panel) : Option ℕ → Panel
  | none => p
  | some parent =>
    let btn := p.widgets.next
    { p with widgets := ((p.widgets.create parent).create btn).create btn }

def act (p : Panel) : Action → Panel
  | .promptBegin text => { p.clean with header := labelText text }
  | .promptText _ => { p with widgets := p.widgets.create flex }
  | .promptButtonGroupStart =>
    { p with widgets := p.widgets.create flex, buttonGroupCont := .to p.widgets.next }
  | .promptButtonGroupEnd => { p with buttonGroupCont := .null }
  | .promptButton footer _ => p.createButton (p.buttonParent footer)
  | .promptShow => { p with shown := true }
  | .promptEnd => { p.clean with shown := false }
  | .notSupported => p

/-- The handler for one action text. Where it throws nothing was done yet. -/
def step (p : Panel) (command : Text) : Panel :=
  match parseAction command with
  | none => p
  | some a => p.act a

def done (_ : Panel) (command : Text) : List Action := (parseAction command).toList

end Panel

/-! ### Groups, from the actions so far

The latest action comes first. -/

/-- A group of the current prompt has been started and not ended. -/
def inGroup : List Action → Bool
  | [] => false
  | .promptButtonGroupStart :: _ => true
  | .promptButtonGroupEnd :: _ => false
  | .promptBegin _ :: _ => false
  | .promptEnd :: _ => false
  | _ :: log => inGroup log

inductive Stage where
  | never
  | opened
  | ended
  | lost
  deriving DecidableEq

/-- What became of the group started last: a prompt that begins or ends over an open
group loses it. -/
def stage : List Action → Stage
  | [] => .never
  | .promptButtonGroupStart :: _ => .opened
  | .promptButtonGroupEnd :: _ => .ended
  | .promptBegin _ :: log => if stage log = .opened then .lost else stage log
  | .promptEnd :: log => if stage log = .opened then .lost else stage log
  | _ :: log => stage log

theorem inGroup_iff (log : List Action) : inGroup log = true ↔ stage log = .opened := by
  induction log with
  | nil => simp [inGroup, stage]
  | cons a log ih =>
    cases a with
    | promptBegin text =>
      rw [inGroup, stage]
      split_ifs with h <;> simp [h]
    | promptEnd =>
      rw [inGroup, stage]
      split_ifs with h <;> simp [h]
    | promptButtonGroupStart => simp [inGroup, stage]
    | promptButtonGroupEnd => simp [inGroup, stage]
    | _ => exact ih

/-! ### Safe buttons -/

/-- The button of this action, if it is one, finds no destroyed group, and outside a
group it is created in `flex`. -/
def Safe (t : Panel × List Action) (command : Text) : Prop :=
  ∀ footer btn, parseAction command = some (.promptButton footer btn) →
    (t.1.buttonGroupCont = .null ∨
      ∃ group, t.1.buttonGroupCont = .to group ∧ t.1.widgets.ChildOf group flex) ∧
    (footer = false → inGroup t.2 = false →
      (t.1.step command).widgets.ChildOf t.1.widgets.next flex)

/-- Some group was started or ended before the button, and the one started last was
ended or is a group of the prompt the button is for. -/
def Grouped (t : Panel × List Action) (command : Text) : Prop :=
  ∀ footer btn, parseAction command = some (.promptButton footer btn) →
    stage t.2 = .ended ∨ stage t.2 = .opened

/-- What a stage says of the pointer. -/
def Panel.At (p : Panel) : Stage → Prop
  | .never => p.buttonGroupCont = .indeterminate
  | .opened => ∃ group, p.buttonGroupCont = .to group ∧ p.widgets.ChildOf group flex
  | .ended => p.buttonGroupCont = .null
  | .lost => ∃ group, p.buttonGroupCont = .to group ∧ group < p.widgets.next ∧
    ¬ p.widgets.Live group

structure Tracked (t : Panel × List Action) : Prop where
  flex : t.1.widgets.above flex = some [promptCont]
  group : t.1.At (stage t.2)

/-! ### What the actions do to the group -/

section
variable {p : Panel} {s : Stage}

-- The texts do not matter.
theorem at_congr {q : Panel} (hw : q.widgets = p.widgets)
    (hb : q.buttonGroupCont = p.buttonGroupCont)
    (h : p.At s) : q.At s := by
  cases s <;> simpa only [Panel.At, hw, hb] using h

theorem at_create (h : p.At s) (q : ℕ) : { p with widgets := p.widgets.create q }.At s := by
  cases s with
  | never => exact h
  | ended => exact h
  | opened =>
    obtain ⟨group, hto, hchild⟩ := h
    exact ⟨group, hto, (Widgets.childOf_create_of_lt _ q hchild.live.lt_next).mpr hchild⟩
  | lost =>
    obtain ⟨group, hto, hlt, hdead⟩ := h
    refine ⟨group, hto, Nat.lt_succ_of_lt hlt, ?_⟩
    rw [Widgets.live_create_of_lt _ q hlt]
    exact hdead

theorem at_clean (h : p.At s) : p.clean.At (if s = .opened then .lost else s) := by
  cases s with
  | never => exact h
  | ended => exact h
  | opened =>
    obtain ⟨group, hto, hchild⟩ := h
    refine ⟨group, hto, hchild.live.lt_next, ?_⟩
    exact Widgets.not_live_clean_clean hchild footerCont
  | lost =>
    obtain ⟨group, hto, hlt, hdead⟩ := h
    exact ⟨group, hto, hlt, Widgets.not_live_clean (Widgets.not_live_clean hdead _) _⟩

variable (hflex : p.widgets.above flex = some [promptCont])
include hflex

theorem live_flex : p.widgets.Live flex := by
  intro hnone
  rw [hflex] at hnone
  cases hnone

theorem flex_create (q : ℕ) : (p.widgets.create q).above flex = some [promptCont] := by
  rw [Widgets.above_create_of_lt _ q (live_flex hflex).lt_next]
  exact hflex

theorem flex_clean : p.clean.widgets.above flex = some [promptCont] :=
  Widgets.above_clean (Widgets.above_clean hflex (by decide)) (by decide)

theorem flex_createButton (parent : Option ℕ) :
    (p.createButton parent).widgets.above flex = some [promptCont] := by
  cases parent with
  | none => exact hflex
  | some parent =>
    have hbtn := flex_create hflex parent
    have hlabel := flex_create (p := { p
        with widgets := p.widgets.create parent }) hbtn p.widgets.next
    exact flex_create (p := { p with widgets :=
      (p.widgets.create parent).create p.widgets.next }) hlabel
      p.widgets.next

end

theorem at_createButton {p : Panel} {s : Stage} (h : p.At s) (parent : Option ℕ) :
    (p.createButton parent).At s := by
  cases parent with
  | none => exact h
  | some parent => exact at_create (at_create (at_create h parent) p.widgets.next) p.widgets.next

theorem tracked_act {p : Panel} {log : List Action} (h : Tracked (p, log)) (a : Action) :
    Tracked (p.act a, a :: log) := by
  obtain ⟨hflex, hgroup⟩ := h
  cases a with
  | promptBegin text => exact ⟨flex_clean hflex, at_congr rfl rfl (at_clean hgroup)⟩
  | promptText text => exact ⟨flex_create hflex flex, at_create hgroup flex⟩
  | promptButtonGroupStart =>
    exact ⟨flex_create hflex flex, p.widgets.next, rfl, Widgets.childOf_create (live_flex hflex)⟩
  | promptButtonGroupEnd => exact ⟨hflex, rfl⟩
  | promptButton footer btn => exact ⟨flex_createButton hflex _, at_createButton hgroup _⟩
  | promptShow => exact ⟨hflex, at_congr rfl rfl hgroup⟩
  | promptEnd => exact ⟨flex_clean hflex, at_congr rfl rfl (at_clean hgroup)⟩
  | notSupported => exact ⟨hflex, hgroup⟩

theorem tracked_step {t : Panel × List Action} (h : Tracked t) (command : Text) :
    Tracked (Run.logged Panel.step Panel.done t command) := by
  unfold Run.logged Panel.step Panel.done
  cases parseAction command with
  | none => exact h
  | some a => exact tracked_act h a

theorem button_in_flex {p : Panel} (hflex : p.widgets.above flex = some [promptCont])
    (hnull : p.buttonGroupCont = .null) {command : Text} {btn : Button}
    (hparse : parseAction command = some (.promptButton false btn)) :
    (p.step command).widgets.ChildOf p.widgets.next flex := by
  have hstep : (p.step command).widgets =
      ((p.widgets.create flex).create p.widgets.next).create p.widgets.next := by
    simp [Panel.step, hparse, Panel.act, Panel.buttonParent, hnull, Panel.createButton]
  have hbtn := Widgets.childOf_create (live_flex hflex)
  have hlt : p.widgets.next < (p.widgets.create flex).next := Nat.lt_succ_self _
  rw [hstep, Widgets.childOf_create_of_lt _ _ (Nat.lt_succ_of_lt hlt),
    Widgets.childOf_create_of_lt _ _ hlt]
  exact hbtn

theorem safe_iff {t : Panel × List Action} (h : Tracked t) (command : Text) :
    Safe t command ↔ Grouped t command := by
  obtain ⟨hflex, hgroup⟩ := h
  constructor
  · intro hsafe footer btn hparse
    obtain ⟨hpointer, -⟩ := hsafe footer btn hparse
    cases hs : stage t.2 with
    | opened => exact Or.inr rfl
    | ended => exact Or.inl rfl
    | never =>
      rw [hs] at hgroup
      rcases hpointer with hnull | ⟨group, hto, -⟩
      · cases hgroup.symm.trans hnull
      · cases hgroup.symm.trans hto
    | lost =>
      rw [hs] at hgroup
      obtain ⟨group, hto, -, hdead⟩ := hgroup
      rcases hpointer with hnull | ⟨other, hother, hchild⟩
      · cases hto.symm.trans hnull
      · cases hto.symm.trans hother
        exact absurd hchild.live hdead
  · intro hgrouped footer btn hparse
    rcases hgrouped footer btn hparse with hs | hs
    · rw [hs] at hgroup
      refine ⟨Or.inl hgroup, ?_⟩
      rintro rfl -
      exact button_in_flex hflex hgroup hparse
    · rw [hs] at hgroup
      refine ⟨Or.inr hgroup, ?_⟩
      intro _ hout
      rw [(inGroup_iff t.2).mpr hs] at hout
      cases hout

/-- In every run from construction on, the buttons are safe exactly when each finds
its group ended or open. -/
theorem buttons_safe_iff (commands : List Text) :
    Run.Along (Run.logged Panel.step Panel.done) Safe (Panel.construct, []) commands ↔
      Run.Along (Run.logged Panel.step Panel.done) Grouped (Panel.construct, []) commands :=
  Run.along_congr (fun t command h => tracked_step h command)
    (fun t command h => safe_iff h command)
    (Panel.construct, []) commands ⟨by decide, rfl⟩

/-- A prompt ends over an open group, and the next one has a button. -/
theorem button_in_destroyed_group :
    ¬ Run.Along (Run.logged Panel.step Panel.done) Safe (Panel.construct, [])
      ["prompt_begin One".toList, "prompt_button_group_start".toList, "prompt_end".toList,
        "prompt_begin Two".toList, "prompt_button OK|G28".toList] := by
  intro h
  have hparse : parseAction "prompt_button OK|G28".toList =
      some (.promptButton false ⟨" OK".toList, "G28".toList, .darkGrey⟩) := by
    decide
  obtain ⟨hpointer, -⟩ := h.2.2.2.2.1 false _ hparse
  rcases hpointer with hnull | ⟨group, hto, hchild⟩
  · revert hnull
    decide +kernel
  · have hgroup : group = 4 := by
      have hfour : Pointer.to 4 = Pointer.to group := hto
      cases hfour
      rfl
    subst hgroup
    revert hchild
    decide +kernel

end GuppyScreen.PromptPanel
