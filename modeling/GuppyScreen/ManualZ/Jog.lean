import GuppyScreen.ManualZ.Printing

/-!
# Jogging Z against the printer's limits

The panel and the printer it jogs: scripts sent and not yet executed, and
messages sent and not yet arrived. `jog` checks a move against the position last
reported, Klipper against the one the move starts from.
-/

namespace GuppyScreen.ManualZ
open Lib Double KUtils

/-- Where a script of this panel takes Z. In relative positioning Klipper adds the
number it reads in the text to the position. -/
def moved (z : ℚ) : Script → ℚ
  | .jog d => rnd (z + (Double.parse (fixed 3 d)).getD 0)
  | _ => z

structure Bench where
  machine : Machine
  z : ℚ
  queue : List Script
  inFlight : List Message

namespace Bench

def init (z : ℚ) : Bench := ⟨Machine.init, z, [], []⟩

/-- The Z that executing everything sent so far reaches. -/
def goal (b : Bench) : ℚ := b.queue.foldl moved b.z

end Bench

/-- What a message may say of a `toolhead` array: nothing, or `v` for Z. -/
def saysZ (u : Message) (f : String) (v : ℚ) : Bool :=
  match u.reports "toolhead" f with
  | none => true
  | some (.arr l) => (l.get? 2).bind double? = some v
  | some _ => false

inductive Act where
  | press (up : Bool)
  | selectStep (i : ℕ)
  | foreground (invert : Json)
  | back
  | reset
  | objectsReply (j : Json) (wf : j.Wf)
  | execute
  | report (u : Message)
  | arrive

def jogButton (up : Bool) : Button := if up then .zUp else .zDown

-- What the panel makes of an act of its user or of the connection.
def Act.event : Act → Option Event
  | .press up => some (.press (jogButton up))
  | .selectStep i => some (.selectStep i)
  | .foreground invert => some (.foreground invert)
  | .back => some (.press .back)
  | .reset => some .reset
  | .objectsReply j wf => some (.objectsReply j wf)
  | _ => none

section
variable (lo hi : ℚ)

/-- Klipper reports its position as of now, and the limits it has. -/
def truthful (z : ℚ) (u : Message) : Bool :=
  saysZ u "position" z && saysZ u "axis_minimum" lo && saysZ u "axis_maximum" hi

namespace Bench

def handle (b : Bench) (e : Event) : Bench :=
  { b with machine := ManualZ.step b.machine e, queue := b.queue ++ newScripts b.machine e }

-- Klipper refuses a move out of range, and takes the scripts in order.
def execute (b : Bench) : Bench :=
  match b.queue with
  | [] => b
  | s :: rest =>
    let target := moved b.z s
    { b with z := if target < lo ∨ target > hi then b.z else target, queue := rest }

def arrive (b : Bench) : Bench :=
  match b.inFlight with
  | [] => b
  | u :: rest => { b.handle (.update u) with inFlight := rest }

def step (b : Bench) (a : Act) : Bench :=
  match a.event with
  | some e => b.handle e
  | none =>
    match a with
    | .report u => if truthful lo hi b.z u then { b with inFlight := b.inFlight ++ [u] } else b
    | .execute => b.execute lo hi
    | _ => b.arrive

/-- A jog is checked against a position that is not where it will start. -/
def outdated (b : Bench) : Act → Bool
  | .press up =>
    b.machine.panel.shown && b.machine.panel.enabled (jogButton up) &&
      double? (b.machine.state.getData ["printer_state", "toolhead", "position", "2"]) ≠ some b.goal
  | _ => false

/-- Everything sent, executed up to any point, stays within the limits. -/
def InRange (b : Bench) : Prop :=
  ∀ q, q <+: b.queue → lo ≤ q.foldl moved b.z ∧ q.foldl moved b.z ≤ hi

end Bench

/-- What `State` has for the limits of Z, where it has any. -/
def Limits (s : State) : Prop :=
  (∀ v, double? (s.getData ["printer_state", "toolhead", "axis_minimum", "2"]) = some v → v = lo) ∧
  (∀ v, double? (s.getData ["printer_state", "toolhead", "axis_maximum", "2"]) = some v → v = hi)

/-- One number of a `toolhead` array, as `State` has it. -/
theorem getData_index (s : State) (f : String) :
    s.getData ["printer_state", "toolhead", f, "2"] =
      ((s.field "toolhead" f).bind (·.at? ["2"])).getD .null := by
  unfold State.getData State.field Json.valueAt
  rw [← Json.at?_append]
  rfl

theorem at_two (l : Elems) : (Json.arr l).at? ["2"] = l.get? 2 := by
  rw [Json.at?, show arrayIndex "2" = some 2 by decide]
  show (l.get? 2).bind (·.at? []) = l.get? 2
  cases l.get? 2 with
  | none => rfl
  | some v => exact Json.at?_nil v

-- A truthful message leaves `State` with nothing but the truth.
theorem index_deliver {s : State} {u : Message} (hs : s.Mirror) {f : String} {v : ℚ}
    (hu : saysZ u f v = true)
    (hold : ∀ w, double? (s.getData ["printer_state", "toolhead", f, "2"]) = some w → w = v) :
    ∀ w, double? ((s.deliver u).getData ["printer_state", "toolhead", f, "2"]) = some w →
      w = v := by
  intro w hw
  have hfield := State.field_deliver s u hs "toolhead" f
  rw [getData_index, hfield] at hw
  unfold saysZ at hu
  cases hr : u.reports "toolhead" f with
  | none =>
    rw [hr] at hw
    rw [getData_index] at hold
    exact hold w hw
  | some j =>
    rw [hr] at hu hw
    cases j with
    | arr l =>
      have hz : (l.get? 2).bind double? = some v := by simpa using hu
      rw [Fields.merged_some (by simp), Option.bind_some] at hw
      rw [show Json.mergePatch _ (.arr l) = .arr l from rfl, at_two] at hw
      cases hl : l.get? 2 with
      | none => rw [hl] at hz; cases hz
      | some x =>
        rw [hl] at hz hw
        exact Option.some.inj (hw.symm.trans hz)
    | _ => cases hu

theorem limits_reset (s : State) : Limits lo hi s.reset := by
  have hnone : ∀ f, double? (s.reset.getData ["printer_state", "toolhead", f, "2"]) = none := by
    intro f
    unfold State.getData State.reset
    cases s.data <;> rfl
  refine ⟨fun v hv => ?_, fun v hv => ?_⟩
  · rw [hnone] at hv
    cases hv
  · rw [hnone] at hv
    cases hv

/-! ### What a press sends -/

-- The texts of the steps are read back as the distances they were made from.
theorem steps_exact : ∀ text ∈ steps, ∀ sign ∈ [(1 : ℚ), -1],
    Double.parse (fixed 3 (sign * parseDouble text 0)) = some (sign * parseDouble text 0) := by
  decide +kernel

theorem moved_step {text : String} (ht : text ∈ steps) {sign : ℚ} (hs : sign ∈ [(1 : ℚ), -1])
    (z : ℚ) : moved z (.jog (sign * parseDouble text 0)) = rnd (z + sign * parseDouble text 0) := by
  show rnd (z + (Double.parse (fixed 3 (sign * parseDouble text 0))).getD 0) = _
  rw [steps_exact text ht sign hs, Option.getD_some]

theorem jog_state (m : Machine) (d : ℚ) : (m.jog d).state = m.state := by
  unfold Machine.jog
  split
  · dsimp only
    split_ifs <;> rfl
  · rfl

/-- `jog` sends its move exactly where it found the target within the limits. -/
theorem jog_log (m : Machine) (d : ℚ) : (m.jog d).log = m.log ∨
    ((m.jog d).log = m.log ++ [.script (.jog d)] ∧ ∃ pos zmin zmax,
      double? (m.state.getData ["printer_state", "toolhead", "position", "2"]) = some pos ∧
      double? (m.state.getData ["printer_state", "toolhead", "axis_minimum", "2"]) = some zmin ∧
      double? (m.state.getData ["printer_state", "toolhead", "axis_maximum", "2"]) = some zmax ∧
      zmin ≤ rnd (pos + d) ∧ rnd (pos + d) ≤ zmax) := by
  unfold Machine.jog
  split
  · rename_i pos zmin zmax hpos hmin hmax
    dsimp only
    split_ifs with hout
    · exact Or.inl rfl
    · push Not at hout
      exact Or.inr ⟨rfl, pos, zmin, zmax, hpos, hmin, hmax, hout.1, hout.2⟩
  · exact Or.inl rfl

theorem jogStep_log (m : Machine) (sign : ℚ) : (m.jogStep sign).log = m.log ∨
    ∃ text ∈ steps, m.jogStep sign = m.jog (sign * parseDouble text 0) := by
  unfold Machine.jogStep
  cases ht : steps[m.panel.stepIdx]? with
  | none => exact Or.inl rfl
  | some text => exact Or.inr ⟨text, List.mem_of_getElem? ht, rfl⟩

theorem jogStep_state (m : Machine) (sign : ℚ) : (m.jogStep sign).state = m.state := by
  unfold Machine.jogStep
  split
  · rfl
  · exact jog_state m _

theorem press_jog {m : Machine} {up : Bool}
    (hon : (m.panel.shown && m.panel.enabled (jogButton up)) = true) :
    ∃ sign ∈ [(1 : ℚ), -1], ManualZ.step m (.press (jogButton up)) = m.jogStep sign := by
  have hpress : ManualZ.step m (.press (jogButton up)) = handleCallback m (jogButton up) :=
    if_pos hon
  cases up with
  | true => exact ⟨1, by simp, hpress⟩
  | false => exact ⟨-1, by simp, hpress⟩

-- A press sends nothing, or one move that ends within the limits if it starts
-- at the reported position.
theorem press_sends {m : Machine} (hl : Limits lo hi m.state) (up : Bool) :
    newScripts m (.press (jogButton up)) = [] ∨
    ∃ s pos, newScripts m (.press (jogButton up)) = [s] ∧
      (m.panel.shown && m.panel.enabled (jogButton up)) = true ∧
      double? (m.state.getData ["printer_state", "toolhead", "position", "2"]) = some pos ∧
      lo ≤ moved pos s ∧ moved pos s ≤ hi := by
  by_cases hon : (m.panel.shown && m.panel.enabled (jogButton up)) = true
  swap
  · exact Or.inl (newScripts_nil (by rw [ManualZ.step, if_neg hon]))
  obtain ⟨sign, hsign, hpress⟩ := press_jog hon
  rcases jogStep_log m sign with hnone | ⟨text, htext, hjog⟩
  · exact Or.inl (newScripts_nil (by rw [hpress, hnone]))
  rcases jog_log m (sign * parseDouble text 0) with hnone |
    ⟨hlog, pos, zmin, zmax, hpos, hmin, hmax, hin⟩
  · exact Or.inl (newScripts_nil (by rw [hpress, hjog, hnone]))
  refine Or.inr ⟨.jog (sign * parseDouble text 0), pos, ?_, hon, hpos, ?_⟩
  · unfold newScripts
    rw [hpress, hjog, hlog]
    simp [Entry.script?]
  · rw [moved_step htext hsign, ← hl.1 zmin hmin, ← hl.2 zmax hmax]
    exact hin

/-! ### Runs -/

namespace Bench

structure Sound (b : Bench) : Prop where
  mirror : b.machine.state.Mirror
  limits : Limits lo hi b.machine.state
  told : ∀ u ∈ b.inFlight,
    saysZ u "axis_minimum" lo = true ∧ saysZ u "axis_maximum" hi = true
  inRange : b.InRange lo hi

variable {lo hi}

theorem InRange.snoc {b : Bench} (h : b.InRange lo hi) {s : Script}
    (hlo : lo ≤ moved b.goal s) (hhi : moved b.goal s ≤ hi) (m : Machine) :
    { b with machine := m, queue := b.queue ++ [s] }.InRange lo hi := by
  intro q hq
  rcases List.prefix_concat_iff.mp hq with rfl | hq
  · simpa [goal] using And.intro hlo hhi
  · exact h q hq

-- An event at which the panel sends nothing.
theorem Sound.handle {b : Bench} (h : b.Sound lo hi) {e : Event}
    (hnew : newScripts b.machine e = []) (hm : (ManualZ.step b.machine e).state.Mirror)
    (hl : Limits lo hi (ManualZ.step b.machine e).state) : (b.handle e).Sound lo hi := by
  refine ⟨hm, hl, h.told, ?_⟩
  unfold InRange Bench.handle
  rw [hnew, List.append_nil]
  exact h.inRange

theorem Sound.press {b : Bench} (h : b.Sound lo hi) (up : Bool)
    (hc : b.outdated (.press up) = false) : (b.handle (.press (jogButton up))).Sound lo hi := by
  have hstate : (ManualZ.step b.machine (.press (jogButton up))).state = b.machine.state := by
    by_cases hon : (b.machine.panel.shown && b.machine.panel.enabled (jogButton up)) = true
    · obtain ⟨sign, -, hpress⟩ := press_jog hon
      rw [hpress, jogStep_state]
    · rw [ManualZ.step, if_neg hon]
  have hm : (ManualZ.step b.machine (.press (jogButton up))).state.Mirror := hstate ▸ h.mirror
  have hl : Limits lo hi (ManualZ.step b.machine (.press (jogButton up))).state :=
    hstate ▸ h.limits
  rcases press_sends lo hi h.limits up with hnone | ⟨s, pos, hnew, hon, hpos, hlo, hhi⟩
  · exact h.handle hnone hm hl
  -- the position the check used is where the moves sent before this one end
  have hgoal : pos = b.goal := by simpa [outdated, hon, hpos] using hc
  rw [hgoal] at hlo hhi
  refine ⟨hm, hl, h.told, ?_⟩
  unfold Bench.handle
  rw [hnew]
  exact h.inRange.snoc hlo hhi _

theorem Sound.execute {b : Bench} (h : b.Sound lo hi) : (b.execute lo hi).Sound lo hi := by
  unfold Bench.execute
  split
  · exact h
  · rename_i s rest hq
    have hfirst := h.inRange [s] (by rw [hq]; simp)
    have hin : ¬ (moved b.z s < lo ∨ moved b.z s > hi) := by
      push Not
      exact hfirst
    refine ⟨h.mirror, h.limits, h.told, fun q hpre => ?_⟩
    dsimp only
    rw [if_neg hin]
    exact h.inRange (s :: q) (by rw [hq]; exact List.prefix_cons_inj s |>.mpr hpre)

theorem Sound.report {b : Bench} (h : b.Sound lo hi) {u : Message}
    (hu : truthful lo hi b.z u = true) :
    { b with inFlight := b.inFlight ++ [u] }.Sound lo hi := by
  refine ⟨h.mirror, h.limits, fun w hw => ?_, h.inRange⟩
  rcases List.mem_append.mp hw with hold | hnew
  · exact h.told w hold
  · rw [List.mem_singleton.mp hnew]
    have hparts : (saysZ u "position" b.z = true ∧ saysZ u "axis_minimum" lo = true) ∧
        saysZ u "axis_maximum" hi = true := by
      simpa [truthful] using hu
    exact ⟨hparts.1.2, hparts.2⟩

theorem Sound.arrive {b : Bench} (h : b.Sound lo hi) : b.arrive.Sound lo hi := by
  unfold Bench.arrive
  split
  · exact h
  · rename_i u rest hf
    have hstate : (ManualZ.step b.machine (.update u)).state = b.machine.state.deliver u := by
      simp only [ManualZ.step, ManualZ.update]
      cases u.via <;> rfl
    obtain ⟨hmin, hmax⟩ := h.told u (by rw [hf]; simp)
    have hsound : (b.handle (.update u)).Sound lo hi := by
      refine h.handle (newScripts_update b.machine u) ?_ ?_
      · rw [hstate]
        exact State.mirror_deliver _ u h.mirror
      · rw [hstate]
        exact ⟨index_deliver h.mirror hmin h.limits.1, index_deliver h.mirror hmax h.limits.2⟩
    refine ⟨hsound.mirror, hsound.limits, fun w hw => h.told w ?_, hsound.inRange⟩
    rw [hf]
    exact List.mem_cons_of_mem u hw

theorem sound_step (b : Bench) (a : Act) (h : b.Sound lo hi) (hc : b.outdated a = false) :
    (b.step lo hi a).Sound lo hi := by
  cases a with
  | press up => exact h.press up hc
  | selectStep i => exact h.handle (newScripts_nil rfl) h.mirror h.limits
  | foreground invert =>
    have hstate : (b.machine.foreground invert).state = b.machine.state := by
      cases invert <;> rfl
    refine h.handle (newScripts_nil (foreground_log b.machine invert)) ?_ ?_
    · exact hstate ▸ h.mirror
    · exact hstate ▸ h.limits
  | back =>
    have hstate : (ManualZ.step b.machine (.press .back)).state = b.machine.state ∧
        (ManualZ.step b.machine (.press .back)).log = b.machine.log := by
      rw [ManualZ.step]
      split_ifs <;> exact ⟨rfl, rfl⟩
    refine h.handle (newScripts_nil hstate.2) ?_ ?_
    · exact hstate.1 ▸ h.mirror
    · exact hstate.1 ▸ h.limits
  | reset =>
    exact h.handle (newScripts_snoc rfl rfl) (State.mirror_reset _) (limits_reset lo hi _)
  | objectsReply j wf =>
    have hsame : ∀ f, (ManualZ.step b.machine (.objectsReply j wf)).state.getData
        ["printer_state", "toolhead", f, "2"] =
        b.machine.state.getData ["printer_state", "toolhead", f, "2"] := by
      intro f
      have hfield : (b.machine.state.setData "printer_objs" j ["result"]).field "toolhead" f =
          b.machine.state.field "toolhead" f :=
        State.field_setData_ne h.mirror wf (by decide) "toolhead" f
      rw [getData_index, getData_index]
      exact congrArg (fun x => (x.bind (·.at? ["2"])).getD .null) hfield
    refine h.handle (newScripts_nil rfl) (State.mirror_setData h.mirror wf (by decide)) ?_
    unfold Limits
    rw [hsame, hsame]
    exact h.limits
  | execute => exact h.execute
  | report u =>
    show Sound lo hi (if truthful lo hi b.z u then _ else b)
    split_ifs with hu
    · exact h.report hu
    · exact h
  | arrive => exact h.arrive

/-- In every run in which each jog is checked against the position it starts from,
executing what was sent never leaves the limits, so that Klipper refuses no jog. -/
theorem jog_stays_in_range (z : ℚ) (hz : lo ≤ z ∧ z ≤ hi) (as : List Act)
    (hc : Run.Along (step lo hi) (fun b a => b.outdated a = false) (init z) as) :
    (Run.run (step lo hi) (init z) as).InRange lo hi := by
  have hinit : (init z).Sound lo hi := by
    refine ⟨State.mirror_reset ⟨.null⟩, limits_reset lo hi ⟨.null⟩, ?_, ?_⟩
    · intro u hu
      cases hu
    · intro q hq
      rw [List.prefix_nil.mp hq]
      exact hz
  exact (Run.invariant sound_step (init z) as hinit hc).inRange

-- `notify_status_update` with the position after a jog.
def reportZ (z : ℤ) : Json :=
  .obj (.cons "params" (.arr (.cons (.obj (.cons "toolhead" (.obj (.cons "position"
    (.arr (.cons (.int 150) (.cons (.int 150) (.cons (.int z) .nil)))) .nil)) .nil)) .nil)) .nil)

-- The panel is open on a printer with Z at 12, its step 10 mm.
def opened : List Act :=
  [.objectsReply printerObjects printerObjects_wf,
    .report ⟨.reply, printer, printer_wf, printer_update⟩,
    .arrive, .foreground .null, .selectStep 0]

theorem jog_stays_in_range_with_reports :
    (Run.run (step 0 310) (init 12) (opened ++ [.press false, .execute,
      .report ⟨.notification, reportZ 2, by decide, by decide⟩, .arrive, .press true])).InRange
        0 310 :=
  jog_stays_in_range 12 (by norm_num) _ (by decide +kernel)

/-- A second press before the first move is reported. -/
theorem jog_twice_leaves_range :
    ¬ ∀ (lo hi z : ℚ) (as : List Act), lo ≤ z ∧ z ≤ hi →
      lo ≤ (Run.run (step lo hi) (init z) as).goal ∧
        (Run.run (step lo hi) (init z) as).goal ≤ hi := by
  intro h
  have hrun := (h 0 310 12 (opened ++ [.press false, .press false]) (by norm_num)).1
  have hgoal : (Run.run (step 0 310) (init 12) (opened ++ [.press false, .press false])).goal =
      -8 := by
    decide +kernel
  rw [hgoal] at hrun
  norm_num at hrun

end Bench

end

end GuppyScreen.ManualZ
