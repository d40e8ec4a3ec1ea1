import GuppyScreen.InputShaper.Runs

/-!
# How an analysis ends

gcode_shell_command brackets an analysis with a running line and a finished line
(or a timed out one). The flag that the finished line is judged by is set as soon
as a line looks like a payload, before it is parsed, matched to an axis or
applied; this module says exactly when an axis is left analysing.
-/

namespace GuppyScreen.InputShaper
open Lib Text Double KUtils Outcome Panel

/-- What an axis is doing, and whether it is queued. -/
def track (p : Panel) (i : AxisId) : RunState × Bool := ((p.get i).run, (p.get i).pending)

theorem Steady.track {p q : Panel} (h : Steady p q) (i : AxisId) :
    InputShaper.track q i = InputShaper.track p i := by
  have hrun := congrArg AxisCore.run (h.axis i)
  have hpending := congrArg AxisCore.pending (h.axis i)
  exact Prod.ext hrun hpending

theorem Steady.flag {p q : Panel} (h : Steady p q) :
    q.analysisProducedResult = p.analysisProducedResult := congrArg Core.produced h

theorem track_result (p : Panel) (k i : AxisId) (res : Json) :
    track (p.modify k fun a => { a with result := res }) i = track p i := by
  cases k <;> cases i <;> rfl

theorem track_finishRun_self (p : Panel) (i : AxisId) :
    track (p.finishRun i) i = (.idle, (p.get i).pending) := by
  unfold Panel.finishRun
  dsimp only
  split_ifs <;> cases i <;> rfl

theorem track_finishRun_ne (p : Panel) {k i : AxisId} (hne : i ≠ k) :
    track (p.finishRun k) i = track p i := by
  unfold Panel.finishRun
  dsimp only
  split_ifs <;> cases k <;> cases i <;> first | rfl | exact absurd rfl hne

theorem flag_finishRun (p : Panel) (k : AxisId) :
    (p.finishRun k).analysisProducedResult = p.analysisProducedResult := by
  unfold Panel.finishRun
  dsimp only
  split_ifs <;> cases k <;> rfl

theorem track_started_self (w : World) (p : Panel) (homed : Bool) (i : AxisId) :
    track (started w p homed i) i = (.testing, false) := by
  cases i <;> rfl

theorem track_started_ne (w : World) (p : Panel) (homed : Bool) {k i : AxisId} (hne : i ≠ k) :
    track (started w p homed k) i = track p i := by
  cases k <;> cases i <;> first | rfl | exact absurd rfl hne

theorem flag_started (w : World) (p : Panel) (homed : Bool) (k : AxisId) :
    (started w p homed k).analysisProducedResult = p.analysisProducedResult := by
  cases k <;> rfl

theorem nextPending_some {p : Panel} {k : AxisId} (h : p.nextPending = some k) :
    (p.get k).pending = true := by
  unfold Panel.nextPending at h
  split_ifs at h with hx hy
  · cases h
    exact hx
  · cases h
    exact hy

theorem startNextAxis_track (h : Host) (w : World) {p : Panel} {i : AxisId}
    (hp : (p.get i).pending = false) :
    track (final (p.startNextAxis h w)) i = track p i := by
  rcases startNextAxis_spec h w p with ⟨_, hd⟩ | ⟨k, homed, hn, hd⟩
  · exact (post_final hd).track i
  · have hne : i ≠ k := by
      intro hik
      rw [hik, nextPending_some hn] at hp
      cases hp
    exact ((post_final hd).track i).trans (track_started_ne w p homed hne)

theorem startNextAxis_flag (h : Host) (w : World) (p : Panel) :
    (final (p.startNextAxis h w)).analysisProducedResult = p.analysisProducedResult := by
  rcases startNextAxis_spec h w p with ⟨_, hd⟩ | ⟨k, homed, _, hd⟩
  · exact (post_final hd).flag
  · exact (post_final hd).flag.trans (flag_started w p homed k)

theorem track_abandoned (p : Panel) (only : Bool) (i : AxisId) :
    track (abandoned p only) i =
      (if doomed only (p.get i) then .idle else (p.get i).run, false) := by
  cases i <;> rfl

theorem abandonRuns_flag (p : Panel) (why : String) (only : Bool) :
    (final (p.abandonRuns why only)).analysisProducedResult = p.analysisProducedResult := by
  rcases abandonRuns_spec p why only with ⟨_, _, heq⟩ | ⟨_, hd⟩
  · rw [heq]
    rfl
  · exact (post_final hd).flag

theorem abandonRuns_analysing {p : Panel} {i : AxisId} (ha : (p.get i).run = .analysing)
    (why : String) (only : Bool) :
    track (final (p.abandonRuns why only)) i = (.idle, false) := by
  have hdoom : doomed only (p.get i) = true := by simp [doomed, ha]
  rcases abandonRuns_spec p why only with ⟨hx, hy, _⟩ | ⟨_, hd⟩
  · cases i with
    | x => rw [show doomed only p.x = true from hdoom] at hx; cases hx
    | y => rw [show doomed only p.y = true from hdoom] at hy; cases hy
  · rw [(post_final hd).track i, track_abandoned, hdoom]
    rfl

theorem abandonRuns_idle {p : Panel} {i : AxisId} (hi : track p i = (.idle, false))
    (why : String) (only : Bool) :
    track (final (p.abandonRuns why only)) i = (.idle, false) := by
  have hrun : (p.get i).run = .idle := congrArg Prod.fst hi
  rcases abandonRuns_spec p why only with ⟨_, _, heq⟩ | ⟨_, hd⟩
  · rw [heq]
    exact hi
  · rw [(post_final hd).track i, track_abandoned, hrun]
    split_ifs <;> rfl

/-! ### A running axis is not queued -/

def Unqueued (p : Panel) : Prop := ∀ i, (p.get i).run ≠ .idle → (p.get i).pending = false

theorem Unqueued.of_track {p q : Panel} (h : Unqueued p) (ht : ∀ i, track q i = track p i) :
    Unqueued q := by
  intro i hrun
  have hr : (q.get i).run = (p.get i).run := congrArg Prod.fst (ht i)
  have hp : (q.get i).pending = (p.get i).pending := congrArg Prod.snd (ht i)
  rw [hp]
  exact h i (by rwa [← hr])

theorem Unqueued.of_drawn {p : Panel} {o : Except Panel Panel} (h : Unqueued p) (hd : Drawn p o) :
    Unqueued (final o) := h.of_track fun i => (post_final hd).track i

theorem unqueued_startNextAxis (h : Host) (w : World) {p : Panel} (hu : Unqueued p) :
    Unqueued (final (p.startNextAxis h w)) := by
  rcases startNextAxis_spec h w p with ⟨_, hd⟩ | ⟨k, homed, _, hd⟩
  · exact hu.of_drawn hd
  · refine Unqueued.of_drawn (fun i hrun => ?_) hd
    by_cases hik : i = k
    · rw [hik]
      exact congrArg Prod.snd (track_started_self w p homed k)
    · have ht := track_started_ne w p homed hik
      have hr := congrArg Prod.fst ht
      rw [show ((started w p homed k).get i).pending = (p.get i).pending from congrArg Prod.snd ht]
      exact hu i (by rwa [show ((started w p homed k).get i).run = (p.get i).run from hr] at hrun)

theorem unqueued_abandonRuns {p : Panel} (hu : Unqueued p) (why : String) (only : Bool) :
    Unqueued (final (p.abandonRuns why only)) := by
  rcases abandonRuns_spec p why only with ⟨_, _, heq⟩ | ⟨_, hd⟩
  · rw [heq]
    exact hu
  · refine Unqueued.of_drawn (fun i _ => ?_) hd
    exact congrArg Prod.snd (track_abandoned p only i)

theorem unqueued_finishRun {p : Panel} (hu : Unqueued p) (k : AxisId) :
    Unqueued (p.finishRun k) := by
  intro i hrun
  by_cases hik : i = k
  · rw [hik] at hrun
    exact absurd (congrArg Prod.fst (track_finishRun_self p k)) hrun
  · have ht := track_finishRun_ne p hik
    rw [show ((p.finishRun k).get i).pending = (p.get i).pending from congrArg Prod.snd ht]
    exact hu i (by
      rwa [show ((p.finishRun k).get i).run = (p.get i).run from congrArg Prod.fst ht] at hrun)

theorem unqueued_conclude (h : Host) (w : World) {p : Panel} (hu : Unqueued p) (k : AxisId) :
    Unqueued (final (conclude h w p k)) := by
  have hfin := unqueued_finishRun hu k
  obtain ⟨q, hq, hend⟩ := conclude_steady h w p k
  have hquq : Unqueued q := hfin.of_drawn (o := .ok q) hq
  rcases hend with hend | hend
  · rw [hend]
    exact hquq
  · rw [hend]
    exact unqueued_startNextAxis h w hquq

theorem unqueued_handlePayload (h : Host) (w : World) {p : Panel} (hu : Unqueued p) (res : Json) :
    Unqueued (final (p.handlePayload h w res)) := by
  cases hax : axisOf res with
  | none =>
    unfold Panel.handlePayload
    rw [hax]
    exact hu
  | some k =>
    by_cases hrun : (p.get k).run = .analysing
    · rw [handlePayload_eq h w p hax hrun]
      have hset : Unqueued (p.modify k fun a => { a with result := res }) :=
        hu.of_track fun i => track_result p k i res
      have happly := drawn_applyResult w p k res
      cases ha : p.applyResult w k res with
      | error q =>
        rw [ha] at happly
        exact hset.of_drawn happly
      | ok q =>
        rw [ha] at happly
        exact unqueued_conclude h w (hset.of_drawn happly) k
    · unfold Panel.handlePayload
      rw [hax]
      dsimp only
      rw [if_pos hrun]
      exact hu

theorem unqueued_requestAnalysis (w : World) {p : Panel} (hu : Unqueued p) {k : AxisId}
    (hrun : (p.get k).run = .testing) : Unqueued (final (p.requestAnalysis w k)) := by
  unfold Panel.requestAnalysis
  cases plotDirectory w with
  | none => exact hu
  | some dir =>
    have htext : "Analysing " ++ k.name ++ " resonance data." ≠ "" := by cases k <;> decide
    have hk : (p.get k).pending = false := hu k (by rw [hrun]; exact RunState.noConfusion)
    dsimp only
    rw [setStatus_bind _ htext]
    intro i hi
    by_cases hik : i = k
    · rw [hik]
      cases k <;> exact hk
    · have hget : ∀ q : Panel, ((q.modify k fun a =>
          { a with run := .analysing, since := w.tick }).get i) = q.get i := by
        intro q
        cases k <;> cases i <;> first | rfl | exact absurd rfl hik
      have hp := hu i
      rw [← hget p] at hp
      exact hp hi

theorem unqueued_handleResponse (h : Host) (w : World) {p : Panel} (hu : Unqueued p)
    (resp : String) : Unqueued (final (p.handleResponse h w resp)) := by
  unfold Panel.handleResponse
  cases kind resp with
  | error => exact unqueued_abandonRuns hu _ _
  | running => exact hu
  | timedOut => exact unqueued_abandonRuns hu _ _
  | finished =>
    dsimp only
    split_ifs
    · exact unqueued_abandonRuns hu _ _
    · exact hu
  | payload =>
    have hflag : Unqueued { p with analysisProducedResult := true } := hu
    dsimp only [Panel.handlePayloadLine]
    cases h.parse (substr resp 3) with
    | none => exact hflag
    | some res => exact unqueued_handlePayload h w hflag res
  | written i =>
    dsimp only
    split_ifs with hrun
    · exact unqueued_requestAnalysis w hu hrun
    · exact hu
  | other => exact hu

theorem unqueued_step (h : Host) (p : Panel) (e : Event) (hu : Unqueued p) :
    Unqueued (step h p e) := by
  cases e with
  | foreground w => exact hu.of_drawn (drawn_foreground h w p)
  | calibrate w =>
    simp only [step, Panel.handleCalibrate]
    split_ifs with hon hbusy
    · exact hu
    · refine unqueued_startNextAxis h w fun i hrun => ?_
      -- Nothing is running here, so nothing running is queued.
      have hidle : p.x.run = .idle ∧ p.y.run = .idle := by
        constructor
        · by_contra hx
          exact hbusy (Or.inl hx)
        · by_contra hy
          exact hbusy (Or.inr hy)
      have hqueue : ∀ t k a, (queueAxis t k a).run = a.run := by
        intro t k a
        unfold queueAxis
        split_ifs <;> rfl
      cases i with
      | x => exact absurd ((hqueue _ _ _).trans hidle.1) hrun
      | y => exact absurd ((hqueue _ _ _).trans hidle.2) hrun
    · exact hu
  | apply =>
    simp only [step]
    split_ifs
    · exact Unqueued.of_drawn (p := p.send _) hu (drawn_setStatus _ _)
    · exact hu
  | save =>
    simp only [step]
    split_ifs <;> exact hu
  | confirmSave =>
    simp only [step]
    split_ifs <;> exact hu
  | cancelSave => exact hu
  | emergencyStop => exact hu
  | selectAxis t => exact hu.of_drawn (drawn_selectAxis h p t)
  | selectView idx => exact hu
  | selectShaper w idx => exact hu.of_drawn (drawn_chooseShaper w p idx)
  | selectSmoothing idx => exact hu
  | slider value =>
    refine hu.of_track fun i => Steady.track (p := p) ?_ i
    exact steady_modify _ p.shown (fun a => { a with freq := _ }) fun _ => rfl
  | gcodeResponse w j =>
    simp only [step, Panel.handleMacroResponse]
    split
    · exact unqueued_handleResponse h w (p := p.emit .lock) hu _
    · exact hu
  | klippyGone => exact unqueued_abandonRuns (p := p.emit .lock) hu _ _
  | watchdog w =>
    simp only [step, Panel.checkTimeouts]
    split_ifs
    · exact unqueued_abandonRuns hu _ _
    · exact hu
    · exact hu

theorem unqueued_run (h : Host) (es : List Event) :
    Unqueued (Run.run (step h) (Panel.init h) es) := by
  have hbuilt : Unqueued Panel.built := by
    intro i _
    cases i <;> rfl
  have hinit : Unqueued (Panel.init h) :=
    hbuilt.of_drawn ((drawn_showAxis h _ .x).bind fun q => drawn_setStatus q "")
  exact Run.invariant_always (unqueued_step h) _ es hinit

/-! ### One response -/

/-- `apply_result` comes to its end: the best shaper can be read. -/
def bestApplies (res : Json) : Bool :=
  match res.get? "best", res.get? "shapers" with
  | some (.str name), some entries =>
    match entries.get? name with
    | none => true
    | some entry => (number entry "freq").isSome
  | some _, some _ => false
  | _, _ => true

def plotApplies (w : World) (i : AxisId) (res : Json) : Bool :=
  match res.get? "png" with
  | some (.str png) =>
    match w.isRunningLocal with
    | none => false
    | some isLocal => (if isLocal then some png else w.downloadFile i.png).isSome
  | _ => true

theorem applyBest_ok_iff (p : Panel) (i : AxisId) (res : Json) :
    (∃ q, p.applyBest i res = .ok q) ↔ bestApplies res = true := by
  unfold Panel.applyBest bestApplies
  cases res.get? "best" with
  | none => simp
  | some best =>
    cases res.get? "shapers" with
    | none => cases best <;> simp
    | some entries =>
      cases best with
      | str name =>
        dsimp only
        cases entries.get? name with
        | none => simp
        | some entry =>
          dsimp only
          cases number entry "freq" <;> simp
      | _ => simp

theorem applyPlot_ok_iff (w : World) (p : Panel) (i : AxisId) (res : Json) :
    (∃ q, p.applyPlot w i res = .ok q) ↔ plotApplies w i res = true := by
  unfold Panel.applyPlot plotApplies
  cases res.get? "png" with
  | none => simp
  | some v =>
    cases v with
    | str png =>
      dsimp only
      cases w.isRunningLocal with
      | none => simp
      | some isLocal =>
        dsimp only
        cases (if isLocal then some png else w.downloadFile i.png) <;> simp
    | _ => simp

def applies (w : World) (i : AxisId) (res : Json) : Bool := bestApplies res && plotApplies w i res

theorem applyResult_ok_iff (w : World) (p : Panel) (i : AxisId) (res : Json) :
    (∃ q, p.applyResult w i res = .ok q) ↔ applies w i res = true := by
  unfold Panel.applyResult applies
  dsimp only
  have hbest := applyBest_ok_iff (p.modify i fun a => { a with result := res }) i res
  cases hb : (p.modify i fun a => { a with result := res }).applyBest i res with
  | error q =>
    rw [hb] at hbest
    have hno : bestApplies res = false := by
      by_contra hyes
      obtain ⟨r, hr⟩ := hbest.mpr (by simpa using hyes)
      cases hr
    rw [hno]
    constructor
    · intro hex
      obtain ⟨r, hr⟩ := hex
      cases hr
    · intro hf
      cases hf
  | ok q =>
    rw [hb] at hbest
    rw [hbest.mp ⟨q, rfl⟩, Bool.true_and]
    exact applyPlot_ok_iff w q i res

theorem conclude_track (h : Host) (w : World) {p : Panel} {i : AxisId}
    (hp : (p.get i).pending = false) (k : AxisId) :
    track (final (conclude h w p k)) i = track (p.finishRun k) i := by
  have hpf : ((p.finishRun k).get i).pending = false := by
    by_cases hik : i = k
    · rw [hik] at hp ⊢
      exact (congrArg Prod.snd (track_finishRun_self p k)).trans hp
    · exact (congrArg Prod.snd (track_finishRun_ne p hik)).trans hp
  obtain ⟨q, hq, hend⟩ := conclude_steady h w p k
  have htq := Steady.track hq i
  rcases hend with hend | hend
  · rw [hend]
    exact htq
  · rw [hend]
    exact (startNextAxis_track h w ((congrArg Prod.snd htq).trans hpf)).trans htq

theorem conclude_flag (h : Host) (w : World) (p : Panel) (k : AxisId) :
    (final (conclude h w p k)).analysisProducedResult = p.analysisProducedResult := by
  obtain ⟨q, hq, hend⟩ := conclude_steady h w p k
  have hfq := (Steady.flag hq).trans (flag_finishRun p k)
  rcases hend with hend | hend
  · rw [hend]
    exact hfq
  · rw [hend]
    exact (startNextAxis_flag h w q).trans hfq

/-- A payload ends the analysis of the axis it names, if it can be applied; any
other axis that is not queued stays as it is. -/
theorem handlePayload_track (h : Host) (w : World) {p : Panel} {i : AxisId}
    (hp : (p.get i).pending = false) (res : Json) :
    track (final (p.handlePayload h w res)) i =
      if axisOf res = some i ∧ (p.get i).run = .analysing ∧ applies w i res = true
      then (.idle, false) else track p i := by
  cases hax : axisOf res with
  | none =>
    unfold Panel.handlePayload
    rw [hax, if_neg (by simp)]
    rfl
  | some k =>
    by_cases hrun : (p.get k).run = .analysing
    · rw [handlePayload_eq h w p hax hrun]
      have happly := drawn_applyResult w p k res
      have hok := applyResult_ok_iff w p k res
      cases ha : p.applyResult w k res with
      | error q =>
        rw [ha] at happly hok
        have hno : ¬ applies w k res = true := by
          intro hyes
          obtain ⟨r, hr⟩ := hok.mpr hyes
          cases hr
        rw [if_neg]
        · exact (Steady.track happly i).trans (track_result p k i res)
        · intro hc
          rw [Option.some.inj hc.1] at hno
          exact hno hc.2.2
      | ok q =>
        rw [ha] at happly hok
        have htq := (Steady.track happly i).trans (track_result p k i res)
        have hpq : (q.get i).pending = false := (congrArg Prod.snd htq).trans hp
        show track (final (conclude h w q k)) i = _
        rw [conclude_track h w hpq k]
        by_cases hik : i = k
        · rw [if_pos ⟨congrArg some hik.symm, hik ▸ hrun, hik ▸ hok.mp ⟨q, rfl⟩⟩, hik,
            track_finishRun_self, ← hik, hpq]
        · rw [if_neg fun hc => hik (Option.some.inj hc.1).symm, track_finishRun_ne q hik]
          exact htq
    · unfold Panel.handlePayload
      rw [hax]
      dsimp only
      rw [if_pos hrun, if_neg]
      · rfl
      · intro hc
        rw [← Option.some.inj hc.1] at hc
        exact hrun hc.2.1

theorem handlePayload_flag (h : Host) (w : World) (p : Panel) (res : Json) :
    (final (p.handlePayload h w res)).analysisProducedResult = p.analysisProducedResult := by
  cases hax : axisOf res with
  | none =>
    unfold Panel.handlePayload
    rw [hax]
    rfl
  | some k =>
    by_cases hrun : (p.get k).run = .analysing
    · rw [handlePayload_eq h w p hax hrun]
      have hset : (p.modify k fun a => { a with result := res }).analysisProducedResult =
          p.analysisProducedResult := by cases k <;> rfl
      have happly := drawn_applyResult w p k res
      cases ha : p.applyResult w k res with
      | error q =>
        rw [ha] at happly
        exact (Steady.flag happly).trans hset
      | ok q =>
        rw [ha] at happly
        exact (conclude_flag h w q k).trans ((Steady.flag happly).trans hset)
    · unfold Panel.handlePayload
      rw [hax]
      dsimp only
      rw [if_pos hrun]
      rfl

/-! ### Sequences of responses -/

def text? (j : Json) : Option String := (j.valueAt ["params", "0"]).str?

def lineKind (j : Json) : Kind := ((text? j).map kind).getD .other

def endsPayload (h : Host) (i : AxisId) (w : World) (resp : String) : Bool :=
  match h.parse (substr resp 3) with
  | some res => axisOf res = some i && applies w i res
  | none => false

/-- A response that ends the analysis of axis `i`; `seen` says whether a payload
line came since the running line. -/
def ends (h : Host) (i : AxisId) (seen : Bool) (l : World × Json) : Bool :=
  match lineKind l.2 with
  | .error => true
  | .timedOut => true
  | .finished => !seen
  | .payload => endsPayload h i l.1 ((text? l.2).getD "")
  | _ => false

def ended (h : Host) (i : AxisId) : Bool → List (World × Json) → Bool
  | _, [] => false
  | seen, l :: ls => ends h i seen l || ended h i (seen || lineKind l.2 = .payload) ls

theorem handlePayloadLine_track (h : Host) (w : World) {p : Panel} {i : AxisId}
    (hp : (p.get i).pending = false) (resp : String) :
    track (final (p.handlePayloadLine h w resp)) i =
      if (p.get i).run = .analysing ∧ endsPayload h i w resp = true then (.idle, false)
      else track p i := by
  unfold Panel.handlePayloadLine endsPayload
  dsimp only
  cases h.parse (substr resp 3) with
  | none =>
    rw [if_neg (by simp)]
    rfl
  | some res =>
    have hpay := handlePayload_track h w (p := { p with analysisProducedResult := true }) hp res
    refine hpay.trans ?_
    by_cases hc : axisOf res = some i ∧ (p.get i).run = .analysing ∧ applies w i res = true
    · have hc' : (p.get i).run = .analysing ∧ (axisOf res = some i && applies w i res) = true :=
        ⟨hc.2.1, by simp [hc.1, hc.2.2]⟩
      exact (if_pos hc).trans (if_pos hc').symm
    · have hc' : ¬ ((p.get i).run = .analysing ∧
          (axisOf res = some i && applies w i res) = true) := by
        intro hall
        have hand := Bool.and_eq_true_iff.mp hall.2
        exact hc ⟨by simpa using hand.1, hall.1, hand.2⟩
      exact (if_neg hc).trans (if_neg hc').symm

theorem handlePayloadLine_flag (h : Host) (w : World) (p : Panel) (resp : String) :
    (final (p.handlePayloadLine h w resp)).analysisProducedResult = true := by
  unfold Panel.handlePayloadLine
  dsimp only
  cases h.parse (substr resp 3) with
  | none => rfl
  | some res => exact handlePayload_flag h w { p with analysisProducedResult := true } res

theorem requestAnalysis_other (w : World) (p : Panel) {k i : AxisId} (hne : i ≠ k) :
    track (final (p.requestAnalysis w k)) i = track p i ∧
    (final (p.requestAnalysis w k)).analysisProducedResult = p.analysisProducedResult := by
  unfold Panel.requestAnalysis
  cases plotDirectory w with
  | none => exact ⟨rfl, rfl⟩
  | some dir =>
    have htext : "Analysing " ++ k.name ++ " resonance data." ≠ "" := by cases k <;> decide
    dsimp only
    rw [setStatus_bind _ htext]
    cases k <;> cases i <;> first | exact ⟨rfl, rfl⟩ | exact absurd rfl hne

theorem handleResponse_idle (h : Host) (w : World) {p : Panel} {i : AxisId}
    (hi : track p i = (.idle, false)) (resp : String) :
    track (final (p.handleResponse h w resp)) i = (.idle, false) := by
  have hrun : (p.get i).run = .idle := congrArg Prod.fst hi
  unfold Panel.handleResponse
  cases kind resp with
  | error => exact abandonRuns_idle hi _ _
  | running => exact hi
  | timedOut => exact abandonRuns_idle hi _ _
  | finished =>
    dsimp only
    split_ifs
    · exact abandonRuns_idle hi _ _
    · exact hi
  | payload =>
    refine (handlePayloadLine_track h w (congrArg Prod.snd hi) resp).trans ?_
    split_ifs
    · rfl
    · exact hi
  | written k =>
    dsimp only
    split_ifs with htest
    · have hne : i ≠ k := by
        intro hik
        rw [← hik, hrun] at htest
        cases htest
      exact (requestAnalysis_other w p hne).1.trans hi
    · exact hi
  | other => exact hi

theorem handleResponse_analysing (h : Host) (w : World) {p : Panel} {i : AxisId}
    (ha : track p i = (.analysing, false)) {j : Json} {resp : String} (hj : text? j = some resp)
    (hr : lineKind j ≠ .running) :
    track (final (p.handleResponse h w resp)) i =
      (if ends h i p.analysisProducedResult (w, j) then .idle else .analysing, false) ∧
    (final (p.handleResponse h w resp)).analysisProducedResult =
      (p.analysisProducedResult || lineKind j = .payload) := by
  have hrun : (p.get i).run = .analysing := congrArg Prod.fst ha
  have hkind : lineKind j = kind resp := by simp [lineKind, hj]
  rw [hkind] at hr ⊢
  unfold Panel.handleResponse ends
  dsimp only
  rw [hkind, hj, Option.getD_some]
  cases hk : kind resp with
  | error => exact ⟨abandonRuns_analysing hrun _ _, by simp [abandonRuns_flag]⟩
  | running => exact absurd hk hr
  | timedOut => exact ⟨abandonRuns_analysing hrun _ _, by simp [abandonRuns_flag]⟩
  | finished =>
    dsimp only
    cases hf : p.analysisProducedResult with
    | true => exact ⟨ha, hf⟩
    | false => exact ⟨abandonRuns_analysing hrun _ _, (abandonRuns_flag p _ _).trans hf⟩
  | payload =>
    refine ⟨(handlePayloadLine_track h w (congrArg Prod.snd ha) resp).trans ?_, ?_⟩
    · cases hc : endsPayload h i w resp with
      | true =>
        rw [if_pos ⟨hrun, rfl⟩]
        simp
      | false =>
        rw [if_neg fun hall => nomatch hall.2]
        simpa [hc] using ha
    · exact (handlePayloadLine_flag h w p resp).trans (by simp)
  | written k =>
    by_cases htest : (p.get k).run = .testing
    · have hne : i ≠ k := by
        intro hik
        rw [← hik, hrun] at htest
        cases htest
      obtain ⟨ht, hf⟩ := requestAnalysis_other w p hne
      dsimp only
      rw [if_pos htest]
      exact ⟨ht.trans ha, hf.trans (by simp)⟩
    · dsimp only
      rw [if_neg htest]
      exact ⟨ha, by simp [final]⟩
  | other => exact ⟨ha, by simp [final]⟩

def respond (h : Host) (p : Panel) (l : World × Json) : Panel :=
  step h p (.gcodeResponse l.1 l.2)

theorem respond_text (h : Host) (p : Panel) {l : World × Json} {resp : String}
    (hl : text? l.2 = some resp) :
    respond h p l = (final ((p.emit .lock).handleResponse h l.1 resp)).emit .unlock := by
  unfold respond
  unfold text? at hl
  simp only [step, Panel.handleMacroResponse]
  cases hv : l.2.valueAt ["params", "0"] with
  | str text =>
    rw [hv] at hl
    cases hl
    rfl
  | _ => rw [hv] at hl; cases hl

theorem respond_none (h : Host) (p : Panel) {l : World × Json} (hl : text? l.2 = none) :
    respond h p l = p := by
  unfold respond
  unfold text? at hl
  simp only [step, Panel.handleMacroResponse]
  cases hv : l.2.valueAt ["params", "0"] with
  | str text => rw [hv] at hl; cases hl
  | _ => rfl

theorem respond_idle (h : Host) {p : Panel} {i : AxisId} (hi : track p i = (.idle, false))
    (l : World × Json) : track (respond h p l) i = (.idle, false) := by
  cases hl : text? l.2 with
  | none => rw [respond_none h p hl]; exact hi
  | some resp =>
    rw [respond_text h p hl]
    exact handleResponse_idle h l.1 (p := p.emit .lock) hi resp

theorem respond_analysing (h : Host) {p : Panel} {i : AxisId}
    (ha : track p i = (.analysing, false)) (l : World × Json) (hr : lineKind l.2 ≠ .running) :
    track (respond h p l) i =
      (if ends h i p.analysisProducedResult l then .idle else .analysing, false) ∧
    (respond h p l).analysisProducedResult =
      (p.analysisProducedResult || lineKind l.2 = .payload) := by
  cases hl : text? l.2 with
  | none =>
    have hk : lineKind l.2 = .other := by simp [lineKind, hl]
    rw [respond_none h p hl]
    simp [ends, hk, ha]
  | some resp =>
    rw [respond_text h p hl]
    exact handleResponse_analysing h l.1 (p := p.emit .lock) ha hl hr

theorem respondAll_idle (h : Host) {p : Panel} {i : AxisId} (hi : track p i = (.idle, false))
    (ls : List (World × Json)) : track (Run.run (respond h) p ls) i = (.idle, false) :=
  Run.invariant_always (I := fun q => track q i = (.idle, false))
    (fun _ l hq => respond_idle h hq l) p ls hi

/-- By induction on the responses between the brackets: the axis goes on
analysing until one of them ends it, and the flag remembers the payload lines. -/
theorem respondAll_analysing (h : Host) {p : Panel} {i : AxisId}
    (ha : track p i = (.analysing, false)) (ls : List (World × Json))
    (hr : ∀ l ∈ ls, lineKind l.2 ≠ .running) :
    (ended h i p.analysisProducedResult ls = true →
      track (Run.run (respond h) p ls) i = (.idle, false)) ∧
    (ended h i p.analysisProducedResult ls = false →
      track (Run.run (respond h) p ls) i = (.analysing, false) ∧
      (Run.run (respond h) p ls).analysisProducedResult =
        (p.analysisProducedResult || ls.any fun l => lineKind l.2 = .payload)) := by
  induction ls generalizing p with
  | nil => exact ⟨(fun hf => nomatch hf), fun _ => ⟨ha, by simp⟩⟩
  | cons l ls ih =>
    obtain ⟨ht, hf⟩ := respond_analysing h ha l (hr l (List.mem_cons_self ..))
    have hrest : ∀ m ∈ ls, lineKind m.2 ≠ .running := fun m hm => hr m (List.mem_cons_of_mem _ hm)
    simp only [ended, Run.run_cons]
    cases he : ends h i p.analysisProducedResult l with
    | true =>
      rw [he] at ht
      refine ⟨fun _ => respondAll_idle h ht ls, fun hf => ?_⟩
      simp at hf
    | false =>
      rw [he] at ht
      rw [Bool.false_or, ← hf]
      obtain ⟨hyes, hno⟩ := ih ht hrest
      refine ⟨hyes, fun hn => ?_⟩
      obtain ⟨h1, h2⟩ := hno hn
      refine ⟨h1, ?_⟩
      rw [h2, hf, List.any_cons, Bool.or_assoc]

/-- From any reachable state: a running line, any responses without another one,
then a terminal line. An axis that was analysing is still analysing exactly when
the terminal line is a finished line, a payload line came in between, and no
response in between ended that axis. -/
theorem analysing_after_terminal_iff (h : Host) (es : List Event) (i : AxisId)
    (first last : World × Json) (ls : List (World × Json))
    (ha : ((Run.run (step h) (Panel.init h) es).get i).run = .analysing)
    (hfirst : lineKind first.2 = .running) (hls : ∀ l ∈ ls, lineKind l.2 ≠ .running)
    (hlast : lineKind last.2 = .finished ∨ lineKind last.2 = .timedOut ∨
      lineKind last.2 = .error) :
    ((Run.run (respond h) (Run.run (step h) (Panel.init h) es) (first :: ls ++ [last])).get i).run ≠
        .analysing ↔
      lineKind last.2 ≠ .finished ∨ (∀ l ∈ ls, lineKind l.2 ≠ .payload) ∨
        ended h i false ls = true := by
  set p := Run.run (step h) (Panel.init h) es with hp
  have hpending : (p.get i).pending = false :=
    unqueued_run h es i (by rw [← hp, ha]; exact RunState.noConfusion)
  have htrack : track p i = (.analysing, false) := Prod.ext ha hpending
  -- The running line only clears the flag.
  have hrunning : track (respond h p first) i = (.analysing, false) ∧
      (respond h p first).analysisProducedResult = false := by
    cases hl : text? first.2 with
    | none => simp [lineKind, hl] at hfirst
    | some resp =>
      have hk : kind resp = .running := by simpa [lineKind, hl] using hfirst
      rw [respond_text h p hl]
      unfold Panel.handleResponse
      rw [hk]
      exact ⟨htrack, rfl⟩
  have hmid := respondAll_analysing h hrunning.1 ls hls
  rw [hrunning.2] at hmid
  rw [List.cons_append, Run.run_cons, Run.run_append]
  set q := Run.run (respond h) (respond h p first) ls with hq
  show (track (respond h q last) i).1 ≠ .analysing ↔ _
  have hlastne : lineKind last.2 ≠ .running := by
    rcases hlast with hk | hk | hk <;> rw [hk] <;> exact Kind.noConfusion
  cases hend : ended h i false ls with
  | true =>
    rw [respond_idle h (hmid.1 hend) last]
    simp
  | false =>
    obtain ⟨hqt, hqf⟩ := hmid.2 hend
    obtain ⟨ht, _⟩ := respond_analysing h hqt last hlastne
    have hends : ends h i q.analysisProducedResult last = true ↔
        lineKind last.2 ≠ .finished ∨ ∀ l ∈ ls, lineKind l.2 ≠ .payload := by
      unfold ends
      rw [hqf, Bool.false_or]
      rcases hlast with hk | hk | hk
      · rw [hk]
        simp
      · rw [hk]
        simp
      · rw [hk]
        simp
    rw [ht, ← or_assoc, ← hends]
    cases ends h i q.analysisProducedResult last <;> simp

-- X alone is calibrated, and its capture is handed to the analysis.
def analysingX : List Event :=
  [.foreground tunedWorld, .selectAxis .x, .calibrate tunedWorld,
    .gcodeResponse tunedWorld (response (written .x))]

def runningX : World × Json :=
  (tunedWorld, response "// Running Command \x7bguppy_input_shaper\x7d...:")

def finishedX : World × Json :=
  (tunedWorld, response "// Command \x7bguppy_input_shaper\x7d finished")

theorem analysing_after_sample_payload :
    ((Run.run (respond sampleHost) (Run.run (step sampleHost) (Panel.init sampleHost) analysingX)
      (runningX :: [(tunedWorld, response ("// " ++ sampleText))] ++ [finishedX])).get .x).run ≠
        .analysing :=
  (analysing_after_terminal_iff sampleHost analysingX .x runningX finishedX
    [(tunedWorld, response ("// " ++ sampleText))] (by decide +kernel) (by decide +kernel)
    (by decide +kernel) (by decide +kernel)).mpr (by decide +kernel)

/-- A payload cut short on its way, which `json::parse` throws on, followed by the
finished line: X stays analysing. -/
theorem truncated_payload_leaves_analysing :
    ¬ ∀ (h : Host) (es : List Event) (i : AxisId) (first last : World × Json)
      (ls : List (World × Json)),
      ((Run.run (step h) (Panel.init h) es).get i).run = .analysing →
      lineKind first.2 = .running → (∀ l ∈ ls, lineKind l.2 ≠ .running) →
      lineKind last.2 = .finished ∨ lineKind last.2 = .timedOut ∨ lineKind last.2 = .error →
      ((Run.run (respond h) (Run.run (step h) (Panel.init h) es)
        (first :: ls ++ [last])).get i).run ≠ .analysing := by
  intro hall
  have hbad := hall sampleHost analysingX .x runningX finishedX
    [(tunedWorld, response "// \x7b\"shapers\": \x7b\"ei\": \x7b\"freq\"")] (by decide +kernel)
    (by decide +kernel) (by decide +kernel) (by decide +kernel)
  exact hbad (by decide +kernel)

end GuppyScreen.InputShaper
