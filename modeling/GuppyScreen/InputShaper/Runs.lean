import GuppyScreen.InputShaper.Panel
import GuppyScreen.Lib.History

/-!
# Runs of the two axes

Most of the panel's code only draws: it may throw, but it touches neither the
runs, nor the watchdog, nor what is sent (`Steady`). What is left are a few
transitions, and the run invariant is kept by each.
-/

namespace GuppyScreen.InputShaper
open Lib Text Double KUtils Outcome History Panel

/-! ### Drawing -/

/-- The part of an axis, and of the panel, that drawing leaves alone. -/
structure AxisCore where
  run : RunState
  pending : Bool
  result : Json

structure Core where
  x : AxisCore
  y : AxisCore
  watchdog : Bool
  log : List Entry
  produced : Bool

def Axis.core (a : Axis) : AxisCore := ⟨a.run, a.pending, a.result⟩

def Panel.core (p : Panel) : Core :=
  ⟨p.x.core, p.y.core, p.watchdog, p.log, p.analysisProducedResult⟩

def Steady (p q : Panel) : Prop := q.core = p.core

theorem Steady.trans {p q r : Panel} (h : Steady p q) (k : Steady q r) : Steady p r := Eq.trans k h

theorem Steady.axis {p q : Panel} (h : Steady p q) (i : AxisId) :
    (q.get i).core = (p.get i).core := by
  cases i with
  | x => exact congrArg Core.x h
  | y => exact congrArg Core.y h

theorem steady_modify (p : Panel) (i : AxisId) (f : Axis → Axis)
    (hf : ∀ a, (f a).core = a.core) : Steady p (p.modify i f) := by
  unfold Steady Panel.core
  cases i with
  | x => simp only [Panel.modify, hf]
  | y => simp only [Panel.modify, hf]

-- Both outcomes of a drawing step.
abbrev Drawn (p : Panel) (o : Except Panel Panel) : Prop := Post (Steady p) (Steady p) o

theorem Drawn.trans {p q : Panel} {o : Except Panel Panel} (h : Steady p q) (k : Drawn q o) :
    Drawn p o := post_mono k (fun _ hs => h.trans hs) (fun _ hs => h.trans hs)

theorem Drawn.bind {p : Panel} {o : Except Panel Panel} {f : Panel → Except Panel Panel}
    (h : Drawn p o) (hf : ∀ q, Drawn q (f q)) : Drawn p (o >>= f) :=
  post_bind h fun q hq => Drawn.trans hq (hf q)

theorem steady_selectShaper (p : Panel) (s : String) : Steady p (p.selectShaper s) := by
  unfold Panel.selectShaper
  split_ifs
  · rfl
  · rfl

theorem drawn_refreshHeadline (p : Panel) : Drawn p p.refreshHeadline := by
  unfold Panel.refreshHeadline
  split_ifs
  · exact rfl
  · split
    · exact rfl
    · exact rfl

theorem drawn_setStatus (p : Panel) (text : String) : Drawn p (p.setStatus text) :=
  have hset : Steady p { p with statusText := text } := rfl
  Drawn.trans hset (drawn_refreshHeadline _)

theorem drawn_showResult (p : Panel) (i : AxisId) : Drawn p (p.showResult i) := by
  simp only [Panel.showResult]
  split
  · exact rfl
  · exact rfl

theorem steady_frame (h : Host) (p : Panel) (i : AxisId) :
    Steady p ((({ p with shown := i } : Panel).selectShaper (p.get i).shaper).setFrequency h
      (p.get i).freq) := by
  exact steady_selectShaper { p with shown := i } (p.get i).shaper

theorem selectShaper_get (p : Panel) (s : String) (i : AxisId) :
    (p.selectShaper s).get i = p.get i := by
  unfold Panel.selectShaper
  split_ifs <;> cases i <;> rfl

theorem showAxis_eq (h : Host) (p : Panel) (i : AxisId) :
    p.showAxis h i = ((({ p with shown := i } : Panel).selectShaper (p.get i).shaper).setFrequency h
      (p.get i).freq).refreshHeadline >>= fun q => q.showResult i := by
  have hget : ({ p with shown := i } : Panel).get i = p.get i := by cases i <;> rfl
  unfold Panel.showAxis
  simp only [hget, selectShaper_get]

theorem drawn_showAxis (h : Host) (p : Panel) (i : AxisId) : Drawn p (p.showAxis h i) := by
  rw [showAxis_eq]
  exact (Drawn.trans (steady_frame h p i) (drawn_refreshHeadline _)).bind
    fun q => drawn_showResult q i

theorem updateAvailable_eq (w : World) (p : Panel) : ∃ c a s text, p.updateAvailable w =
    ({ p with calibrateBtn := c, applyBtn := a, saveBtn := s } : Panel).setStatus text := by
  unfold Panel.updateAvailable
  dsimp only
  split_ifs
  · exact ⟨_, _, _, _, rfl⟩
  · exact ⟨_, _, _, _, rfl⟩
  · exact ⟨_, _, _, _, rfl⟩

theorem drawn_updateAvailable (w : World) (p : Panel) : Drawn p (p.updateAvailable w) := by
  obtain ⟨c, a, s, text, heq⟩ := updateAvailable_eq w p
  rw [heq]
  exact drawn_setStatus { p with calibrateBtn := c, applyBtn := a, saveBtn := s } text

theorem steady_configure (p : Panel) (j : Json) : Steady p (p.configure j) := by
  have haxis : ∀ a freq type, (configureAxis a freq type).core = a.core := by
    intro a freq type
    unfold configureAxis
    dsimp only
    split_ifs <;> rfl
  unfold Panel.configure
  split_ifs
  · rfl
  · unfold Steady Panel.core
    simp only [haxis]

theorem steady_configureRange (h : Host) (p : Panel) (j : Json) :
    Steady p (p.configureRange h j) := by
  unfold Panel.configureRange
  dsimp only
  split_ifs <;> rfl

theorem drawn_foreground (h : Host) (w : World) (p : Panel) : Drawn p (p.foreground h w) := by
  have hconf := (steady_configure p
    (w.state.getData ["printer_state", "configfile", "config", "input_shaper"])).trans
    (steady_configureRange h _
      (w.state.getData ["printer_state", "configfile", "settings", "resonance_tester"]))
  exact (Drawn.trans hconf (drawn_showAxis h _ _)).bind fun q => drawn_updateAvailable w q

theorem drawn_selectAxis (h : Host) (p : Panel) (t : Target) : Drawn p (p.selectAxis h t) := by
  have hall : ∀ i, Drawn p (({ p with target := t } : Panel).showAxis h i) := fun i =>
    drawn_showAxis h { p with target := t } i
  cases t with
  | both => exact hall _
  | x => exact hall _
  | y => exact hall _

theorem drawn_chooseShaper (w : World) (p : Panel) (idx : ℕ) : Drawn p (p.chooseShaper w idx) := by
  unfold Panel.chooseShaper
  split
  · exact rfl
  · rename_i name _
    have hset : Steady p ((({ p with shaperIdx := idx } : Panel)).modify p.shown fun a =>
        { a with shaper := name, shaperKnown := true }) :=
      steady_modify { p with shaperIdx := idx } p.shown _ fun a => rfl
    exact Drawn.trans hset (drawn_updateAvailable w _)

/-! ### Payloads that can be drawn -/

def wellFormedEntry (entry : Json) : Bool :=
  ["freq", "vib", "smooth", "max_acel"].all fun key => (number entry key).isSome

/-- A payload as calibrate_shaper.py prints it, for any file. -/
def wellFormed (res : Json) : Bool :=
  match res.get? "best", res.get? "shapers", res.get? "logfile" with
  | some (.str _), some (.obj entries), some (.str _) => entries.values.all wellFormedEntry
  | _, _, _ => false

def Renders (result : Json) : Prop := result = .null ∨ wellFormed result = true

theorem wellFormed_parts {res : Json} (h : wellFormed res = true) :
    ∃ best entries, res.get? "best" = some (.str best) ∧
      res.get? "shapers" = some (.obj entries) ∧
      ∀ name entry, entries.find? name = some entry → wellFormedEntry entry = true := by
  unfold wellFormed at h
  split at h
  · rename_i best entries fn hb hs hl
    refine ⟨best, entries, hb, hs, fun name entry he => ?_⟩
    exact List.all_eq_true.mp h entry (Fields.mem_values_of_find? he)
  · cases h

theorem wellFormedEntry_numbers {entry : Json} (h : wellFormedEntry entry = true) :
    ∃ freq vib smooth accel, number entry "freq" = some freq ∧ number entry "vib" = some vib ∧
      number entry "smooth" = some smooth ∧ number entry "max_acel" = some accel := by
  have hall := List.all_eq_true.mp h
  have hfreq := Option.isSome_iff_exists.mp (hall "freq" (by simp))
  have hvib := Option.isSome_iff_exists.mp (hall "vib" (by simp))
  have hsmooth := Option.isSome_iff_exists.mp (hall "smooth" (by simp))
  have haccel := Option.isSome_iff_exists.mp (hall "max_acel" (by simp))
  obtain ⟨freq, hf⟩ := hfreq
  obtain ⟨vib, hv⟩ := hvib
  obtain ⟨smooth, hs⟩ := hsmooth
  obtain ⟨accel, ha⟩ := haccel
  exact ⟨freq, vib, smooth, accel, hf, hv, hs, ha⟩

theorem renderHeadline_some (i : AxisId) {a : Axis} (h : Renders a.result) :
    ∃ text, renderHeadline i a = some text := by
  unfold renderHeadline
  rcases h with hnull | hwf
  · rw [if_pos hnull]
    exact ⟨_, rfl⟩
  obtain ⟨best, entries, hb, hs, hall⟩ := wellFormed_parts hwf
  have hnn : a.result ≠ .null := by
    intro hn
    rw [hn] at hb
    cases hb
  rw [if_neg hnn, hb, hs]
  dsimp only
  cases he : (Json.obj entries).get? best with
  | none => exact ⟨_, rfl⟩
  | some entry =>
    obtain ⟨freq, vib, smooth, accel, hf, hv, _, ha⟩ := wellFormedEntry_numbers (hall best entry he)
    simp only [headlineOf, hf, hv, ha]
    exact ⟨_, rfl⟩

theorem tableRows_some {entries : Fields}
    (hall : ∀ name entry, entries.find? name = some entry → wellFormedEntry entry = true)
    (names : List String) : ∃ rows, tableRows (.obj entries) names = some rows := by
  induction names with
  | nil => exact ⟨[], rfl⟩
  | cons name names ih =>
    obtain ⟨rows, hrows⟩ := ih
    unfold tableRows
    cases he : (Json.obj entries).get? name with
    | none => exact ⟨rows, hrows⟩
    | some entry =>
      obtain ⟨freq, vib, smooth, accel, hf, hv, hs, ha⟩ :=
        wellFormedEntry_numbers (hall name entry he)
      simp only [tableRow, hf, hv, hs, ha, hrows]
      exact ⟨_, rfl⟩

theorem renderTable_some {res : Json} (h : wellFormed res = true) :
    ∃ text, renderTable res = some text := by
  obtain ⟨best, entries, _, hs, hall⟩ := wellFormed_parts h
  obtain ⟨rows, hrows⟩ := tableRows_some hall shapers
  unfold renderTable
  rw [hs]
  simp only [hrows]
  exact ⟨_, rfl⟩

def Core.renders (c : Core) : Prop := Renders c.x.result ∧ Renders c.y.result

theorem renders_get {p : Panel} (h : p.core.renders) (i : AxisId) : Renders (p.get i).result := by
  cases i with
  | x => exact h.1
  | y => exact h.2

theorem renders_steady {p q : Panel} (hs : Steady p q) (h : p.core.renders) : q.core.renders := by
  unfold Steady at hs
  rw [hs]
  exact h

theorem refreshHeadline_ok {p : Panel} (h : p.core.renders) :
    ∃ q, p.refreshHeadline = .ok q ∧ Steady p q := by
  unfold Panel.refreshHeadline
  split_ifs
  · exact ⟨_, rfl, rfl⟩
  · obtain ⟨text, ht⟩ := renderHeadline_some p.shown (renders_get h p.shown)
    rw [ht]
    exact ⟨_, rfl, rfl⟩

theorem setStatus_ok {p : Panel} (h : p.core.renders) (text : String) :
    ∃ q, p.setStatus text = .ok q ∧ Steady p q :=
  refreshHeadline_ok (p := { p with statusText := text }) h

theorem setStatus_bind (p : Panel) {text : String} (h : text ≠ "")
    (f : Panel → Except Panel Panel) :
    (p.setStatus text >>= f) = f { p with statusText := text, headline := text } := by
  unfold Panel.setStatus Panel.refreshHeadline
  rw [if_pos h]
  rfl

theorem showAxis_ok (h : Host) {p : Panel} (hr : p.core.renders) (i : AxisId) :
    ∃ q, p.showAxis h i = .ok q ∧ Steady p q := by
  have hframe := steady_frame h p i
  obtain ⟨q, hq, hsq⟩ := refreshHeadline_ok (renders_steady hframe hr)
  have hpq : Steady p q := hframe.trans hsq
  have hdraw : ∃ r, q.showResult i = .ok r ∧ Steady q r := by
    unfold Panel.showResult
    dsimp only
    rcases renders_get (renders_steady hpq hr) i with hnull | hwf
    · rw [if_pos hnull]
      exact ⟨_, rfl, rfl⟩
    · by_cases hnull : (q.get i).result = .null
      · rw [if_pos hnull]
        exact ⟨_, rfl, rfl⟩
      · obtain ⟨text, ht⟩ := renderTable_some hwf
        rw [if_neg hnull, ht]
        exact ⟨_, rfl, rfl⟩
  obtain ⟨r, hqr, hsr⟩ := hdraw
  refine ⟨r, ?_, hpq.trans hsr⟩
  rw [showAxis_eq, hq]
  exact hqr

theorem updateAvailable_ok (w : World) {p : Panel} (hr : p.core.renders) :
    ∃ q, p.updateAvailable w = .ok q ∧ Steady p q := by
  obtain ⟨c, a, s, text, heq⟩ := updateAvailable_eq w p
  rw [heq]
  exact setStatus_ok (p := { p with calibrateBtn := c, applyBtn := a, saveBtn := s }) hr text

/-! ### The run invariant -/

def sentIdle : Entry → Prop
  | .script x y (.test _ _) => x = .idle ∧ y = .idle
  | _ => True

structure Inv (c : Core) : Prop where
  one : c.x.run = .idle ∨ c.y.run = .idle
  pendingX : c.x.pending = true → c.y.run ≠ .idle
  pendingY : c.y.pending = true → c.x.run ≠ .idle
  watch : c.watchdog = true ↔ c.x.run ≠ .idle ∨ c.y.run ≠ .idle
  renders : c.renders
  sent : ∀ e ∈ c.log, sentIdle e

/-- Between two runs: nothing is running, but an axis may be queued. -/
structure Between (c : Core) : Prop where
  x : c.x.run = .idle
  y : c.y.run = .idle
  watch : c.watchdog = false
  renders : c.renders
  sent : ∀ e ∈ c.log, sentIdle e

theorem Inv.of_steady {p q : Panel} (h : Inv p.core) (hs : Steady p q) : Inv q.core := by
  unfold Steady at hs
  rw [hs]
  exact h

theorem Between.of_steady {p q : Panel} (h : Between p.core) (hs : Steady p q) :
    Between q.core := by
  unfold Steady at hs
  rw [hs]
  exact h

theorem Inv.of_drawn {p : Panel} {o : Except Panel Panel} (h : Inv p.core) (hd : Drawn p o) :
    Inv (final o).core := h.of_steady (post_final hd)

theorem sent_append {log : List Entry} (h : ∀ e ∈ log, sentIdle e) {e : Entry} (he : sentIdle e) :
    ∀ d ∈ log ++ [e], sentIdle d := by
  intro d hd
  rcases List.mem_append.mp hd with hd | hd
  · exact h d hd
  · rw [List.mem_singleton.mp hd]
    exact he

theorem Inv.emit {p : Panel} (h : Inv p.core) {e : Entry} (he : sentIdle e) :
    Inv (p.emit e).core :=
  ⟨h.one, h.pendingX, h.pendingY, h.watch, h.renders, sent_append h.sent he⟩

theorem Between.inv {c : Core} (h : Between c) (hx : c.x.pending = false)
    (hy : c.y.pending = false) : Inv c := by
  refine ⟨Or.inl h.x, ?_, ?_, ?_, h.renders, h.sent⟩
  · rw [hx]
    exact fun hp => nomatch hp
  · rw [hy]
    exact fun hp => nomatch hp
  · rw [h.watch, h.x, h.y]
    simp

def started (w : World) (p : Panel) (homed : Bool) (i : AxisId) : Panel :=
  ((p.modify i fun a => { a with pending := false }).send (.test homed i)).startRun w i

theorem nextPending_none {p : Panel} (h : p.nextPending = none) :
    p.x.pending = false ∧ p.y.pending = false := by
  unfold Panel.nextPending at h
  cases hx : p.x.pending with
  | true => simp [hx] at h
  | false =>
    cases hy : p.y.pending with
    | true => simp [hx, hy] at h
    | false => exact ⟨rfl, rfl⟩

theorem steady_startRun (w : World) (i : AxisId) {p q : Panel} (h : Steady p q) :
    Steady (p.startRun w i) (q.startRun w i) := by
  have hx : q.x.core = p.x.core := congrArg Core.x h
  have hy : q.y.core = p.y.core := congrArg Core.y h
  have hlog : q.log = p.log := congrArg Core.log h
  have hres : q.analysisProducedResult = p.analysisProducedResult := congrArg Core.produced h
  simp only [Axis.core, AxisCore.mk.injEq] at hx hy
  unfold Steady Panel.core
  cases i with
  | x => simp [Panel.startRun, Panel.modify, Axis.core, hx, hy, hlog, hres]
  | y => simp [Panel.startRun, Panel.modify, Axis.core, hx, hy, hlog, hres]

/-- What `start_next_axis` does to the runs, whether its drawing throws or not. -/
theorem startNextAxis_spec (h : Host) (w : World) (p : Panel) :
    (p.nextPending = none ∧ Drawn p (p.startNextAxis h w)) ∨
    ∃ i homed, p.nextPending = some i ∧ Drawn (started w p homed i) (p.startNextAxis h w) := by
  unfold Panel.startNextAxis
  cases hn : p.nextPending with
  | none =>
    refine Or.inl ⟨rfl, ?_⟩
    dsimp only
    split_ifs
    · exact drawn_setStatus p ""
    · exact rfl
  | some i =>
    obtain ⟨homed, hh⟩ := Option.isSome_iff_exists.mp w.homed
    refine Or.inr ⟨i, homed, rfl, ?_⟩
    have htext : "Testing " ++ i.name ++ " resonances. This takes a few minutes." ≠ "" := by
      cases i <;> decide
    dsimp only
    rw [hh]
    dsimp only
    rw [setStatus_bind _ htext]
    refine Drawn.trans ?_ (drawn_showAxis h _ i)
    exact steady_startRun w i rfl

theorem inv_started (w : World) {p : Panel} (hb : Between p.core) (homed : Bool) (i : AxisId) :
    Inv (started w p homed i).core := by
  have hidle : sentIdle (.script p.x.run p.y.run (.test homed i)) := ⟨hb.x, hb.y⟩
  cases i with
  | x =>
    refine ⟨Or.inr hb.y, ?_, fun _ => RunState.noConfusion, ?_, hb.renders,
      sent_append hb.sent hidle⟩
    · intro hp
      cases hp
    · exact ⟨fun _ => Or.inl RunState.noConfusion, fun _ => rfl⟩
  | y =>
    refine ⟨Or.inl hb.x, fun _ => RunState.noConfusion, ?_, ?_, hb.renders,
      sent_append hb.sent hidle⟩
    · intro hp
      cases hp
    · exact ⟨fun _ => Or.inr RunState.noConfusion, fun _ => rfl⟩

theorem inv_startNextAxis (h : Host) (w : World) {p : Panel} (hb : Between p.core) :
    Inv (final (p.startNextAxis h w)).core := by
  rcases startNextAxis_spec h w p with ⟨hn, hd⟩ | ⟨i, homed, _, hd⟩
  · obtain ⟨hx, hy⟩ := nextPending_none hn
    exact (hb.inv hx hy).of_drawn hd
  · exact (inv_started w hb homed i).of_drawn hd

theorem between_finishRun {p : Panel} (hi : Inv p.core) {i : AxisId}
    (hrun : (p.get i).run ≠ .idle) : Between (p.finishRun i).core := by
  cases i with
  | x =>
    have hy : p.y.run = .idle := hi.one.resolve_left hrun
    have hf : p.finishRun .x = { p with x := { p.x with run := .idle }, watchdog := false } := by
      simp [Panel.finishRun, Panel.modify, hy]
    rw [hf]
    exact ⟨rfl, hy, rfl, hi.renders, hi.sent⟩
  | y =>
    have hx : p.x.run = .idle := hi.one.resolve_right hrun
    have hf : p.finishRun .y = { p with y := { p.y with run := .idle }, watchdog := false } := by
      simp [Panel.finishRun, Panel.modify, hx]
    rw [hf]
    exact ⟨hx, rfl, rfl, hi.renders, hi.sent⟩

theorem abandonAxis_idle {only : Bool} {a : Axis} (h : a.run = .idle ∨ doomed only a = true) :
    (abandonAxis only a).run = .idle := by
  unfold abandonAxis
  rcases h with h | h
  · dsimp only
    split_ifs
    · rfl
    · exact h
  · simp [h]

theorem doomed_running {only : Bool} {a : Axis} (h : doomed only a = true) : a.run ≠ .idle := by
  unfold doomed at h
  simpa using (Bool.and_eq_true_iff.mp h).1

def abandoned (p : Panel) (only : Bool) : Panel :=
  { p with x := abandonAxis only p.x, y := abandonAxis only p.y, watchdog := false }

theorem abandonRuns_spec (p : Panel) (why : String) (only : Bool) :
    (doomed only p.x = false ∧ doomed only p.y = false ∧ p.abandonRuns why only = .ok p) ∨
    ((doomed only p.x = true ∨ doomed only p.y = true) ∧
      Drawn (abandoned p only) (p.abandonRuns why only)) := by
  unfold Panel.abandonRuns
  cases hx : doomed only p.x with
  | true =>
    exact Or.inr ⟨Or.inl rfl, (drawn_setStatus (abandoned p only) why).bind fun q => rfl⟩
  | false =>
    cases hy : doomed only p.y with
    | true =>
      exact Or.inr ⟨Or.inr rfl, (drawn_setStatus (abandoned p only) why).bind fun q => rfl⟩
    | false => exact Or.inl ⟨rfl, rfl, rfl⟩

theorem inv_abandonRuns {p : Panel} (hi : Inv p.core) (why : String) (only : Bool) :
    Inv (final (p.abandonRuns why only)).core := by
  rcases abandonRuns_spec p why only with ⟨_, _, heq⟩ | ⟨hsome, hd⟩
  · rw [heq]
    exact hi
  -- Something is doomed, and nothing but it was running.
  have hidle : (abandonAxis only p.x).run = .idle ∧ (abandonAxis only p.y).run = .idle := by
    rcases hsome with hx | hy
    · have hy := hi.one.resolve_left (doomed_running hx)
      exact ⟨abandonAxis_idle (Or.inr hx), abandonAxis_idle (Or.inl hy)⟩
    · have hx := hi.one.resolve_right (doomed_running hy)
      exact ⟨abandonAxis_idle (Or.inl hx), abandonAxis_idle (Or.inr hy)⟩
  have hb : Between (abandoned p only).core := ⟨hidle.1, hidle.2, rfl, hi.renders, hi.sent⟩
  exact (hb.inv rfl rfl).of_drawn hd

theorem inv_checkTimeouts {p : Panel} (hi : Inv p.core) (w : World) :
    Inv (final (p.checkTimeouts w)).core := by
  unfold Panel.checkTimeouts
  split_ifs
  · exact inv_abandonRuns hi _ _
  · exact hi

theorem inv_requestAnalysis {p : Panel} (hi : Inv p.core) (w : World) {i : AxisId}
    (hrun : (p.get i).run = .testing) : Inv (final (p.requestAnalysis w i)).core := by
  unfold Panel.requestAnalysis
  cases plotDirectory w with
  | none => exact hi
  | some dir =>
    have htext : "Analysing " ++ i.name ++ " resonance data." ≠ "" := by cases i <;> decide
    dsimp only
    rw [setStatus_bind _ htext]
    cases i with
    | x =>
      have hne : p.core.x.run ≠ .idle := by
        rw [show p.core.x.run = .testing from hrun]
        exact RunState.noConfusion
      have hy := hi.one.resolve_left hne
      refine ⟨Or.inr hy, hi.pendingX, fun _ => RunState.noConfusion, ?_, hi.renders,
        sent_append hi.sent trivial⟩
      exact ⟨fun _ => Or.inl RunState.noConfusion, fun _ => hi.watch.mpr (Or.inl hne)⟩
    | y =>
      have hne : p.core.y.run ≠ .idle := by
        rw [show p.core.y.run = .testing from hrun]
        exact RunState.noConfusion
      have hx := hi.one.resolve_right hne
      refine ⟨Or.inl hx, fun _ => RunState.noConfusion, hi.pendingY, ?_, hi.renders,
        sent_append hi.sent trivial⟩
      exact ⟨fun _ => Or.inr RunState.noConfusion, fun _ => hi.watch.mpr (Or.inr hne)⟩

theorem inv_handleCalibrate {p : Panel} (hi : Inv p.core) (h : Host) (w : World) :
    Inv (final (p.handleCalibrate h w)).core := by
  unfold Panel.handleCalibrate
  split_ifs with hbusy
  · exact hi
  have hx : p.x.run = .idle := by
    by_contra hx
    exact hbusy (Or.inl hx)
  have hy : p.y.run = .idle := by
    by_contra hy
    exact hbusy (Or.inr hy)
  have hqueue : ∀ t i a, (queueAxis t i a).run = a.run ∧
      (Renders a.result → Renders (queueAxis t i a).result) := by
    intro t i a
    unfold queueAxis
    split_ifs
    · exact ⟨rfl, fun _ => Or.inl rfl⟩
    · exact ⟨rfl, id⟩
  refine inv_startNextAxis h w ⟨?_, ?_, ?_, ?_, hi.sent⟩
  · exact (hqueue _ _ _).1.trans hx
  · exact (hqueue _ _ _).1.trans hy
  · have hw : ¬ p.watchdog = true := by
      intro hw
      rcases hi.watch.mp hw with hr | hr
      · exact hr hx
      · exact hr hy
    show p.watchdog = false
    simpa using hw
  · exact ⟨(hqueue _ _ _).2 hi.renders.1, (hqueue _ _ _).2 hi.renders.2⟩

theorem drawn_applyBest (p : Panel) (i : AxisId) (res : Json) : Drawn p (p.applyBest i res) := by
  have hname : ∀ name, Steady p ((p.selectShaper name).modify i fun a =>
      { a with shaper := name, shaperKnown := name ∈ shapers }) := fun name =>
    (steady_selectShaper p name).trans (steady_modify _ i _ fun _ => rfl)
  unfold Panel.applyBest
  split
  · split
    · exact rfl
    · dsimp only
      split
      · exact hname _
      · exact (hname _).trans (steady_modify _ i _ fun _ => rfl)
  · exact rfl
  · exact rfl

theorem drawn_applyPlot (w : World) (p : Panel) (i : AxisId) (res : Json) :
    Drawn p (p.applyPlot w i res) := by
  unfold Panel.applyPlot
  split
  · split
    · exact rfl
    · split
      · exact rfl
      · exact steady_modify p i _ fun _ => rfl
  · exact rfl

theorem inv_result {p : Panel} (hi : Inv p.core) (i : AxisId) {res : Json}
    (hres : wellFormed res = true) : Inv (p.modify i fun a => { a with result := res }).core := by
  cases i with
  | x =>
    exact ⟨hi.one, hi.pendingX, hi.pendingY, hi.watch, ⟨Or.inr hres, hi.renders.2⟩, hi.sent⟩
  | y =>
    exact ⟨hi.one, hi.pendingX, hi.pendingY, hi.watch, ⟨hi.renders.1, Or.inr hres⟩, hi.sent⟩

theorem drawn_applyResult (w : World) (p : Panel) (i : AxisId) (res : Json) :
    Drawn (p.modify i fun a => { a with result := res }) (p.applyResult w i res) :=
  (drawn_applyBest _ i res).bind fun q => drawn_applyPlot w q i res

def conclude (h : Host) (w : World) (p : Panel) (i : AxisId) : Except Panel Panel := do
  let p := p.finishRun i
  let p ← p.showAxis h i
  let p ← p.updateAvailable w
  p.startNextAxis h w

/-- Drawing may end it before the next axis is started. -/
theorem conclude_steady (h : Host) (w : World) (p : Panel) (i : AxisId) :
    ∃ q, Steady (p.finishRun i) q ∧
      (final (conclude h w p i) = q ∨ final (conclude h w p i) = final (q.startNextAxis h w)) := by
  have hshow := drawn_showAxis h (p.finishRun i) i
  unfold conclude
  dsimp only
  cases hq : (p.finishRun i).showAxis h i with
  | error q =>
    rw [hq] at hshow
    exact ⟨q, hshow, Or.inl rfl⟩
  | ok q =>
    rw [hq] at hshow
    have hupd := drawn_updateAvailable w q
    show ∃ r, Steady (p.finishRun i) r ∧
      (final (q.updateAvailable w >>= fun p => p.startNextAxis h w) = r ∨
        final (q.updateAvailable w >>= fun p => p.startNextAxis h w) = final (r.startNextAxis h w))
    cases hr : q.updateAvailable w with
    | error r =>
      rw [hr] at hupd
      exact ⟨r, Steady.trans hshow hupd, Or.inl rfl⟩
    | ok r =>
      rw [hr] at hupd
      exact ⟨r, Steady.trans hshow hupd, Or.inr rfl⟩

theorem handlePayload_eq (h : Host) (w : World) (p : Panel) {i : AxisId} {res : Json}
    (hi : axisOf res = some i) (hrun : (p.get i).run = .analysing) :
    p.handlePayload h w res = p.applyResult w i res >>= fun q => conclude h w q i := by
  unfold Panel.handlePayload
  rw [hi]
  dsimp only
  rw [if_neg (by simp [hrun])]
  rfl

theorem inv_conclude {p : Panel} (hi : Inv p.core) (h : Host) (w : World) {i : AxisId}
    (hrun : (p.get i).run ≠ .idle) : Inv (final (conclude h w p i)).core := by
  -- The axis is finished, then everything up to the next axis is drawing.
  have hbetween := between_finishRun hi hrun
  obtain ⟨q, hq, hsq⟩ := showAxis_ok h hbetween.renders i
  have hbq := hbetween.of_steady hsq
  obtain ⟨r, hr, hsr⟩ := updateAvailable_ok w hbq.renders
  have heq : conclude h w p i = r.startNextAxis h w := by
    unfold conclude
    dsimp only
    rw [hq]
    show (q.updateAvailable w >>= fun p => p.startNextAxis h w) = _
    rw [hr]
    rfl
  rw [heq]
  exact inv_startNextAxis h w (hbq.of_steady hsr)

theorem inv_handlePayload {p : Panel} (hi : Inv p.core) (h : Host) (w : World) {res : Json}
    (hres : wellFormed res = true) : Inv (final (p.handlePayload h w res)).core := by
  cases hax : axisOf res with
  | none =>
    unfold Panel.handlePayload
    rw [hax]
    exact hi
  | some i =>
    by_cases hrun : (p.get i).run = .analysing
    · rw [handlePayload_eq h w p hax hrun]
      have hset := inv_result hi i hres
      have hget : ((p.modify i fun a => { a with result := res }).get i).run = .analysing := by
        cases i <;> exact hrun
      have happly := drawn_applyResult w p i res
      cases ha : p.applyResult w i res with
      | error q =>
        rw [ha] at happly
        exact hset.of_steady happly
      | ok q =>
        rw [ha] at happly
        have hs : Steady (p.modify i fun a => { a with result := res }) q := happly
        have hrunq : (q.get i).run = .analysing :=
          (congrArg AxisCore.run (hs.axis i)).trans hget
        refine inv_conclude (hset.of_steady hs) h w ?_
        rw [hrunq]
        exact RunState.noConfusion
    · unfold Panel.handlePayload
      rw [hax]
      dsimp only
      rw [if_pos hrun]
      exact hi

def carriesPayload (h : Host) (resp : String) : Bool :=
  !startsWith payloadLine resp ||
    match h.parse (substr resp 3) with
    | some res => wellFormed res
    | none => false

theorem kind_payload {resp : String} (h : kind resp = .payload) :
    startsWith payloadLine resp = true := by
  unfold kind at h
  split_ifs at h
  assumption

theorem inv_handleResponse {p : Panel} (hi : Inv p.core) (h : Host) (w : World) (resp : String)
    (hc : carriesPayload h resp = true) : Inv (final (p.handleResponse h w resp)).core := by
  unfold Panel.handleResponse
  cases hk : kind resp with
  | error => exact inv_abandonRuns hi _ _
  | running => exact ⟨hi.one, hi.pendingX, hi.pendingY, hi.watch, hi.renders, hi.sent⟩
  | timedOut => exact inv_abandonRuns hi _ _
  | finished =>
    dsimp only
    split_ifs
    · exact inv_abandonRuns hi _ _
    · exact hi
  | payload =>
    have hflag : Inv ({ p with analysisProducedResult := true } : Panel).core :=
      ⟨hi.one, hi.pendingX, hi.pendingY, hi.watch, hi.renders, hi.sent⟩
    unfold carriesPayload at hc
    rw [kind_payload hk] at hc
    dsimp only [Panel.handlePayloadLine]
    cases hp : h.parse (substr resp 3) with
    | none => exact hflag
    | some res =>
      rw [hp] at hc
      exact inv_handlePayload hflag h w (by simpa using hc)
  | written i =>
    dsimp only
    split_ifs with hrun
    · exact inv_requestAnalysis hi w hrun
    · exact hi
  | other => exact hi

def ordinary (h : Host) : Event → Bool
  | .gcodeResponse _ j =>
    match j.valueAt ["params", "0"] with
    | .str resp => carriesPayload h resp
    | _ => true
  | _ => true

theorem inv_locked {p : Panel} (hi : Inv p.core) (f : Panel → Except Panel Panel)
    (hf : ∀ q, Inv q.core → Inv (final (f q)).core) : Inv (p.locked f).core := by
  have hlock : Inv (p.emit .lock).core := hi.emit trivial
  exact (hf _ hlock).emit trivial

theorem inv_step (h : Host) (p : Panel) (e : Event) (hi : Inv p.core) (hc : ordinary h e = true) :
    Inv (step h p e).core := by
  cases e with
  | foreground w => exact hi.of_drawn (drawn_foreground h w p)
  | calibrate w =>
    simp only [step]
    split_ifs
    · exact inv_handleCalibrate hi h w
    · exact hi
  | apply =>
    simp only [step]
    split_ifs
    · have hsend : Inv (p.send (.setInputShaper (p.setting .x) (p.setting .y))).core :=
        hi.emit trivial
      exact hsend.of_drawn (drawn_setStatus _ _)
    · exact hi
  | save =>
    simp only [step]
    split_ifs
    · exact hi.of_steady rfl
    · exact hi
  | confirmSave =>
    simp only [step]
    split_ifs
    · exact hi
    · have hsend : Inv (p.send (.saveInputShaper (p.setting .x) (p.setting .y))).core :=
        hi.emit trivial
      exact hsend
  | cancelSave => exact hi.of_steady rfl
  | emergencyStop => exact hi.emit trivial
  | selectAxis t => exact hi.of_drawn (drawn_selectAxis h p t)
  | selectView idx => exact hi.of_steady rfl
  | selectShaper w idx => exact hi.of_drawn (drawn_chooseShaper w p idx)
  | selectSmoothing idx => exact hi.of_steady rfl
  | slider value =>
    exact hi.of_steady (steady_modify _ p.shown (fun a => { a with freq := _ }) fun _ => rfl)
  | gcodeResponse w j =>
    simp only [step, Panel.handleMacroResponse]
    split
    · rename_i resp hresp
      have hcarry : carriesPayload h resp = true := by simpa only [ordinary, hresp] using hc
      exact inv_locked hi _ fun q hq => inv_handleResponse hq h w resp hcarry
    · exact hi
  | klippyGone => exact inv_locked hi _ fun q hq => inv_abandonRuns hq _ _
  | watchdog w =>
    simp only [step]
    split_ifs
    · exact inv_checkTimeouts hi w
    · exact hi

theorem inv_init (h : Host) : Inv (Panel.init h).core := by
  have hbuilt : Inv Panel.built.core := by
    refine ⟨Or.inl rfl, ?_, ?_, ?_, ⟨Or.inl rfl, Or.inl rfl⟩, ?_⟩
    · intro hp
      cases hp
    · intro hp
      cases hp
    · simp [Panel.core, Panel.built, Axis.core, Axis.init]
    · intro e he
      cases he
  exact hbuilt.of_drawn ((drawn_showAxis h _ .x).bind fun q => drawn_setStatus q "")

/-- In every state reached with payload lines that carry well formed payloads, one
axis at most is running, an axis is queued only behind the other, the watchdog
follows the runs, and every test was sent with both axes idle. -/
theorem runs_one_axis_at_a_time (h : Host) (es : List Event)
    (hc : ∀ e ∈ es, ordinary h e = true) :
    let p := Run.run (step h) (Panel.init h) es
    (p.x.run = .idle ∨ p.y.run = .idle) ∧
    (p.x.pending = true → p.y.run ≠ .idle) ∧
    (p.y.pending = true → p.x.run ≠ .idle) ∧
    (p.watchdog = true ↔ p.x.run ≠ .idle ∨ p.y.run ≠ .idle) ∧
    ∀ x y homed i, Entry.script x y (.test homed i) ∈ p.log → x = .idle ∧ y = .idle := by
  have hi : Inv (Run.run (step h) (Panel.init h) es).core :=
    Run.invariant (I := fun p => Inv p.core) (C := fun _ e => ordinary h e = true) (inv_step h)
      (Panel.init h) es (inv_init h) (Run.along_of_forall _ hc)
  refine ⟨hi.one, hi.pendingX, hi.pendingY, hi.watch, ?_⟩
  intro x y homed i hmem
  exact hi.sent _ hmem

-- A printer with everything the panel needs, homed, driven on the printer itself.
def printerWith (inputShaper : Fields) : State :=
  ⟨.obj (.cons "printer_state" (.obj
    (.cons "configfile" (.obj
      (.cons "config" (.obj (.cons "input_shaper" (.obj inputShaper) .nil))
      (.cons "settings" (.obj
        (.cons "calibrate_shaper_config" (.obj .nil)
        (.cons "gcode_shell_command guppy_input_shaper" (.obj .nil)
        (.cons "input_shaper" (.obj .nil)
        (.cons "resonance_tester" (.obj .nil) .nil))))) .nil)))
    (.cons "toolhead" (.obj (.cons "homed_axes" (.str "xyz") .nil)) .nil))) .nil)⟩

def tunedPrinter : State :=
  printerWith (.cons "shaper_freq_x" (.str "62.2") (.cons "shaper_freq_y" (.str "41")
    (.cons "shaper_type" (.str "mzv") .nil)))

def tunedWorld : World := ⟨tunedPrinter, by decide, 0, 500, 300, 800, 480, some true, fun _ => none⟩

def response (text : String) : Json := .obj (.cons "params" (.arr (.cons (.str text) .nil)) .nil)

def samplePayload : Json :=
  .obj (.cons "best" (.str "ei") (.cons "logfile" (.str "/tmp/resonances_x_x.csv")
    (.cons "shapers" (.obj (.cons "ei" (.obj (.cons "freq" (.float 48) (.cons "max_acel" (.int 5100)
      (.cons "smooth" (.float (1 / 8)) (.cons "vib" (.float (1 / 2)) .nil)))))
        .nil)) .nil)))

def sampleText : String :=
  "\x7b\"shapers\": \x7b\"ei\": \x7b\"freq\": 48.0, \"max_acel\": 5100, \"smooth\": 0.125, " ++
    "\"vib\": 0.5\x7d\x7d, \"best\": \"ei\", \"logfile\": \"/tmp/resonances_x_x.csv\"\x7d"

-- `json::parse` on the one text that is read below.
def sampleHost : Host := ⟨fun text => if text = sampleText then some samplePayload else none, id⟩

-- Both axes are queued, X is tested and analysed, and Y is on its way.
def bothAxes : List Event :=
  [.foreground tunedWorld, .calibrate tunedWorld,
    .gcodeResponse tunedWorld (response (written .x)),
    .gcodeResponse tunedWorld (response ("// " ++ sampleText))]

theorem runs_one_axis_through_bothAxes :
    (Run.run (step sampleHost) (Panel.init sampleHost) bothAxes).y.run = .testing ∧
    ((Run.run (step sampleHost) (Panel.init sampleHost) bothAxes).x.run = .idle ∨
      (Run.run (step sampleHost) (Panel.init sampleHost) bothAxes).y.run = .idle) := by
  have hcond : ∀ e ∈ bothAxes, ordinary sampleHost e = true := by decide +kernel
  obtain ⟨hone, _⟩ := runs_one_axis_at_a_time sampleHost bothAxes hcond
  exact ⟨by decide +kernel, hone⟩

end GuppyScreen.InputShaper
