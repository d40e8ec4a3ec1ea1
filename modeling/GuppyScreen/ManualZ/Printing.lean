import GuppyScreen.ManualZ

/-!
# Manual Z while a print runs

"Not while a print is running." stands in the panel, and the buttons are disabled
for it. What is sent is decided by the buttons alone: nothing looks at the print
again when a prompt is confirmed, and the buttons follow `State` only where a
refresh follows the change.
-/

namespace GuppyScreen.ManualZ
open Lib KUtils

def Entry.script? : Entry → Option Script
  | .script s => some s
  | _ => none

/-- The scripts a step sends. Every one of them moves the printer, declares where
it is or prepares the next print. -/
def newScripts (m : Machine) (e : Event) : List Script :=
  ((step m e).log.drop m.log.length).filterMap Entry.script?

theorem newScripts_nil {m : Machine} {e : Event} (h : (step m e).log = m.log) :
    newScripts m e = [] := by
  simp [newScripts, h]

theorem newScripts_snoc {m : Machine} {e : Event} {x : Entry} (h : (step m e).log = m.log ++ [x])
    (hx : x.script? = none) : newScripts m e = [] := by
  simp [newScripts, h, hx]

-- A button that sends as soon as it is pressed.
def Panel.armed (p : Panel) : Bool := p.homeXyBtn || p.zupBtn || p.zdownBtn || p.prepareBtn

/-- The limits Start reads are there, and are numbers. -/
def startSends (s : State) : Bool :=
  match Machine.limits s with
  | none => false
  | some (lo, hi) =>
    ((hi.get? 2).bind double?).isSome && (Machine.centre lo hi 0).isSome &&
      (Machine.centre lo hi 1).isSome

/-- The steps nothing guards: a prompt confirmed while a print runs, and an update
that starts a print while the panel is up and armed, where no refresh follows: a
subscription reply, or a notification with the macro list unreadable. -/
def unguarded (m : Machine) : Event → Bool
  | .confirm i =>
    printing m.state &&
      match m.prompts[i]? with
      | none => false
      | some .start => startSends m.state
      | some .zero => true
  | .update u =>
    printing (m.state.deliver u) && m.panel.shown && m.panel.armed &&
      (u.via = .reply || (hasGcodeMacro (m.state.deliver u) "PRINT_PREPARED").isNone)
  | _ => false

/-- A shown panel has nothing armed while a print runs. -/
structure Locked (m : Machine) : Prop where
  mirror : m.state.Mirror
  off : printing m.state = true → m.panel.shown = true → m.panel.armed = false

theorem printing_of_field {s t : State}
    (h : s.field "print_stats" "state" = t.field "print_stats" "state") :
    printing s = printing t := by
  have hget : ∀ r : State, r.getData ["printer_state", "print_stats", "state"] =
      (r.field "print_stats" "state").getD .null := fun _ => rfl
  unfold printing
  rw [hget s, hget t, h]

theorem printing_reset (s : State) : printing s.reset = false := by
  have hget : s.reset.getData ["printer_state", "print_stats", "state"] = .null := by
    unfold State.getData State.reset
    cases s.data <;> rfl
  unfold printing
  rw [hget]

-- A notification the panel ignores cannot have started the print.
theorem printing_of_unwatched {s : State} {u : Message} (hs : s.Mirror)
    (hv : u.via = .notification)
    (hw : (watched.any fun ptr => u.body.valueAt ptr ≠ .null) = false)
    (hp : printing (s.deliver u) = true) : printing s = true := by
  have hfield := State.field_deliver s u hs "print_stats" "state"
  have hnull : u.body.valueAt ["params", "0", "print_stats", "state"] = .null := by
    have hall := List.any_eq_false.mp hw ["params", "0", "print_stats", "state"] (by decide)
    simpa using hall
  cases hr : u.reports "print_stats" "state" with
  | none =>
    rw [hr] at hfield
    rwa [printing_of_field hfield] at hp
  | some v =>
    have hv : v = .null := (State.valueAt_of_reports hv hr).symm.trans hnull
    rw [hr, hv] at hfield
    have hget : (s.deliver u).getData ["printer_state", "print_stats", "state"] = .null :=
      congrArg (Option.getD · Json.null) hfield
    unfold printing at hp
    rw [hget] at hp
    cases hp

/-! ### What a refresh leaves enabled -/

theorem refresh_shown (s : State) (p : Panel) : (p.refresh s).shown = p.shown := by
  unfold Panel.refresh
  cases hasGcodeMacro s "PRINT_PREPARED" <;> rfl

theorem refresh_armed_of_isSome {s : State} (p : Panel) (hp : printing s = true)
    (hm : (hasGcodeMacro s "PRINT_PREPARED").isSome = true) : (p.refresh s).armed = false := by
  obtain ⟨named, hnamed⟩ := Option.isSome_iff_exists.mp hm
  unfold Panel.refresh Panel.armed
  simp [hnamed, hp]

theorem refresh_armed {s : State} {p : Panel} (hp : printing s = true)
    (ha : p.armed = false) : (p.refresh s).armed = false := by
  cases hm : hasGcodeMacro s "PRINT_PREPARED" with
  | some named => exact refresh_armed_of_isSome p hp (by rw [hm]; rfl)
  | none =>
    unfold Panel.refresh
    rw [hm]
    exact ha

theorem consume_shown (s : State) (p : Panel) (j : Json) : (p.consume s j).shown = p.shown := by
  unfold Panel.consume
  split_ifs
  · rw [refresh_shown]
  · rfl

/-! ### The steps -/

theorem Locked.of_panel {m : Machine} (h : Locked m) {m' : Machine} (hs : m'.state = m.state)
    (hp : m'.panel.shown = true → m.panel.shown = true)
    (ha : m'.panel.armed = m.panel.armed) : Locked m' := by
  refine ⟨hs ▸ h.mirror, fun hprint hshown => ?_⟩
  rw [hs] at hprint
  rw [ha]
  exact h.off hprint (hp hshown)

theorem Locked.refresh {m : Machine} (h : Locked m) : Locked m.refresh := by
  refine ⟨h.mirror, fun hprint hshown => ?_⟩
  have hshown : (m.panel.refresh m.state).shown = true := hshown
  rw [refresh_shown] at hshown
  exact refresh_armed hprint (h.off hprint hshown)

theorem Locked.jogStep {m : Machine} (h : Locked m) (sign : ℚ) : Locked (m.jogStep sign) := by
  unfold Machine.jogStep
  split
  · exact h
  · unfold Machine.jog
    split
    · dsimp only
      split_ifs
      · exact Locked.refresh (h.of_panel rfl id rfl)
      · exact h.of_panel rfl id rfl
    · exact h

theorem Locked.start {m : Machine} (h : Locked m) : Locked m.start := by
  unfold Machine.start
  split
  · exact h
  · dsimp only
    split <;> exact h.of_panel rfl id rfl

theorem Locked.setZero {m : Machine} (h : Locked m) : Locked m.setZero :=
  Locked.refresh (h.of_panel rfl id rfl)

theorem Locked.confirm {m : Machine} (h : Locked m) (prompt : Prompt) :
    Locked (m.confirm prompt) := by
  cases prompt with
  | start => exact h.start
  | zero => exact h.setZero

theorem Locked.press {m : Machine} (h : Locked m) (b : Button) : Locked (handleCallback m b) := by
  cases b with
  | zUp => exact h.jogStep 1
  | zDown => exact h.jogStep (-1)
  | back => exact h.of_panel rfl (fun hoff => nomatch hoff) rfl
  | _ => exact h.of_panel rfl id rfl

-- The panel is only put up by a refresh that ran to its end.
theorem Locked.foreground {m : Machine} (h : Locked m) (invert : Json) :
    Locked (m.foreground invert) := by
  have hshow : Locked (m.foreground (.bool true)) := by
    refine ⟨h.mirror, fun hprint hshown => ?_⟩
    show ({ m.panel with jogRefusal := "" }.refresh m.state).armed = false
    cases hm : (hasGcodeMacro m.state "PRINT_PREPARED").isSome with
    | true => exact refresh_armed_of_isSome _ hprint hm
    | false =>
      have hup : (({ m.panel with jogRefusal := "" }.refresh m.state).shown ||
          (hasGcodeMacro m.state "PRINT_PREPARED").isSome) = true := hshown
      rw [hm, Bool.or_false, refresh_shown] at hup
      exact refresh_armed hprint (h.off hprint hup)
  cases invert with
  | null => exact hshow
  | bool b => exact hshow
  | _ => exact h

theorem Locked.update {m : Machine} (h : Locked m) (u : Message)
    (hc : unguarded m (.update u) = false) : Locked (ManualZ.update m u) := by
  have hmirror := State.mirror_deliver m.state u h.mirror
  unfold ManualZ.update
  cases hv : u.via with
  | reply =>
    refine ⟨hmirror, fun hprint hshown => ?_⟩
    have hprint : printing (m.state.deliver u) = true := hprint
    have hshown : m.panel.shown = true := hshown
    simpa [unguarded, hprint, hshown, hv] using hc
  | notification =>
    refine ⟨hmirror, fun hprint hshown => ?_⟩
    have hprint : printing (m.state.deliver u) = true := hprint
    have hshown : (m.panel.consume (m.state.deliver u) u.body).shown = true := hshown
    rw [consume_shown] at hshown
    show (m.panel.consume (m.state.deliver u) u.body).armed = false
    unfold Panel.consume
    split_ifs with hw
    · cases hm : (hasGcodeMacro (m.state.deliver u) "PRINT_PREPARED").isSome with
      | true => exact refresh_armed_of_isSome _ hprint hm
      | false =>
        have harmed : m.panel.armed = false := by
          simpa [unguarded, hprint, hshown, hv, Option.isSome_eq_false_iff.mp hm] using hc
        exact refresh_armed hprint harmed
    · exact h.off (printing_of_unwatched h.mirror hv (by simpa using hw) hprint) hshown

theorem locked_step (m : Machine) (e : Event) (h : Locked m) (hc : unguarded m e = false) :
    Locked (step m e) := by
  cases e with
  | press b =>
    simp only [step]
    split_ifs
    · exact h.press b
    · exact h
  | selectStep i => exact h.of_panel rfl id rfl
  | confirm i =>
    simp only [step]
    split
    · exact h
    · have hpop : Locked { m with prompts := m.prompts.eraseIdx i } := h.of_panel rfl id rfl
      exact hpop.confirm _
  | cancel i => exact h.of_panel rfl id rfl
  | foreground invert => exact h.foreground invert
  | reset =>
    refine ⟨State.mirror_reset m.state, fun hprint _ => ?_⟩
    rw [show printing (step m .reset).state = false from printing_reset m.state] at hprint
    cases hprint
  | objectsReply j wf =>
    refine ⟨State.mirror_setData h.mirror wf (by decide), fun hprint hshown => ?_⟩
    have hsame : printing (m.state.setData "printer_objs" j ["result"]) = printing m.state :=
      printing_of_field (State.field_setData_ne h.mirror wf (by decide) _ _)
    exact h.off (hsame.symm.trans hprint) hshown
  | update u => exact h.update u hc

/-! ### What is sent -/

theorem start_log {m : Machine} (h : startSends m.state = false) : m.start.log = m.log := by
  unfold startSends at h
  unfold Machine.start
  cases hl : Machine.limits m.state with
  | none => rfl
  | some box =>
    rw [hl] at h
    dsimp only at h ⊢
    split
    · rename_i hz hx hy
      simp [hz, hx, hy] at h
    · rfl

theorem foreground_log (m : Machine) (invert : Json) : (m.foreground invert).log = m.log := by
  cases invert <;> rfl

theorem newScripts_update (m : Machine) (u : Message) : newScripts m (.update u) = [] := by
  have hlog : (step m (.update u)).log =
      if reportsUnhomed u then m.log ++ [.unhomed] else m.log := by
    simp only [step, ManualZ.update]
    cases u.via <;> rfl
  split_ifs at hlog
  · exact newScripts_snoc hlog rfl
  · exact newScripts_nil hlog

theorem press_quiet {m : Machine} {b : Button} (ha : m.panel.armed = false)
    (hon : (m.panel.shown && m.panel.enabled b) = true) : newScripts m (.press b) = [] := by
  have hpress : step m (.press b) = handleCallback m b := if_pos hon
  have henabled : m.panel.enabled b = true := (Bool.and_eq_true_iff.mp hon).2
  have hoff : m.panel.homeXyBtn = false ∧ m.panel.zupBtn = false ∧ m.panel.zdownBtn = false ∧
      m.panel.prepareBtn = false := by
    simpa [Panel.armed, and_assoc] using ha
  obtain ⟨hxy, hup, hdown, hprepare⟩ := hoff
  cases b with
  | homeXY => exact absurd henabled (by simp [Panel.enabled, hxy])
  | zUp => exact absurd henabled (by simp [Panel.enabled, hup])
  | zDown => exact absurd henabled (by simp [Panel.enabled, hdown])
  | skipHoming => exact absurd henabled (by simp [Panel.enabled, hprepare])
  | start => exact newScripts_nil (by rw [hpress]; rfl)
  | setZero => exact newScripts_nil (by rw [hpress]; rfl)
  | stop => exact newScripts_snoc (by rw [hpress]; rfl) rfl
  | back => exact newScripts_nil (by rw [hpress]; rfl)

theorem confirm_quiet {m : Machine} {i : ℕ} (hprint : printing m.state = true)
    (hc : unguarded m (.confirm i) = false) : newScripts m (.confirm i) = [] := by
  refine newScripts_nil ?_
  simp only [unguarded, hprint, Bool.true_and] at hc
  simp only [step]
  cases hi : m.prompts[i]? with
  | none => rfl
  | some prompt =>
    rw [hi] at hc
    cases prompt with
    | start => exact start_log (m := { m with prompts := m.prompts.eraseIdx i }) hc
    | zero => cases hc

theorem quiet_step (m : Machine) (e : Event) (h : Locked m) (hc : unguarded m e = false) :
    printing m.state = true → newScripts m e = [] := by
  intro hprint
  cases e with
  | press b =>
    by_cases hon : (m.panel.shown && m.panel.enabled b) = true
    · exact press_quiet (h.off hprint (Bool.and_eq_true_iff.mp hon).1) hon
    · exact newScripts_nil (by rw [step, if_neg hon])
  | confirm i => exact confirm_quiet hprint hc
  | foreground invert => exact newScripts_nil (foreground_log m invert)
  | reset => exact newScripts_snoc rfl rfl
  | update u => exact newScripts_update m u
  | _ => exact newScripts_nil rfl

/-- In every run whose steps are guarded, the panel sends nothing while a print
runs or is paused. -/
theorem nothing_sent_while_printing (es : List Event)
    (hc : Run.Along step (fun m e => unguarded m e = false) Machine.init es) :
    Run.Along step (fun m e => printing m.state = true → newScripts m e = []) Machine.init es := by
  have hinit : Locked Machine.init := by
    refine ⟨State.mirror_reset ⟨.null⟩, fun hprint => ?_⟩
    cases hprint
  exact Run.along_of_invariant locked_step quiet_step Machine.init es hinit hc

-- `notify_status_update` as Moonraker sends it when a print starts.
def printStarts : Message :=
  ⟨.notification, .obj (.cons "params" (.arr (.cons (.obj (.cons "print_stats"
    (.obj (.cons "state" (.str "printing") .nil)) .nil)) .nil)) .nil), by decide, by decide⟩

-- The panel is open on an idle printer, and a print is started elsewhere.
def printRun : List Event :=
  [.objectsReply printerObjects printerObjects_wf,
    .update ⟨.reply, printer, printer_wf, printer_update⟩,
    .foreground .null, .update printStarts, .press .homeXY, .press .zDown]

theorem nothing_sent_in_printRun :
    Run.Along step (fun m e => printing m.state = true → newScripts m e = []) Machine.init
      printRun ∧ printing (Run.run step Machine.init printRun).state = true :=
  ⟨nothing_sent_while_printing printRun (by decide +kernel), by decide +kernel⟩

/-- The prompt of Start outlives the start of a print. -/
theorem start_confirmed_while_printing :
    ¬ ∀ es : List Event,
      Run.Along step (fun m e => printing m.state = true → newScripts m e = []) Machine.init
        es := by
  intro h
  have hrun := h [.objectsReply printerObjects printerObjects_wf,
    .update ⟨.reply, printer, printer_wf, printer_update⟩, .foreground .null, .press .start,
    .update printStarts, .confirm 0]
  revert hrun
  decide +kernel

end GuppyScreen.ManualZ
