import GuppyScreen.InputShaper.Runs

/-!
# Apply and Save against what is shown

Apply and Save send the axis; the selector and the slider show it. The type
agrees with its flag in every reachable state, and the slider's range stays an
`int` range, which is all that the comparison of the two needs.
-/

namespace GuppyScreen.InputShaper
open Lib Text Double KUtils Outcome Panel

structure AxisDials where
  shaper : String
  known : Bool

structure Dials where
  x : AxisDials
  y : AxisDials
  lo : ℤ
  hi : ℤ

def Axis.dials (a : Axis) : AxisDials := ⟨a.shaper, a.shaperKnown⟩

def Panel.dials (p : Panel) : Dials := ⟨p.x.dials, p.y.dials, p.sliderMin, p.sliderMax⟩

/-- The flag tells the truth about every name but the empty one. -/
def AxisDials.Honest (a : AxisDials) : Prop := a.shaper ≠ "" → (a.known = true ↔ a.shaper ∈ shapers)

structure Sound (d : Dials) : Prop where
  x : d.x.Honest
  y : d.y.Honest
  low : -2 ^ 31 ≤ d.lo
  order : d.lo ≤ d.hi
  high : d.hi < 2 ^ 31

theorem Sound.get {p : Panel} (hs : Sound p.dials) (i : AxisId) : (p.get i).dials.Honest := by
  cases i with
  | x => exact hs.x
  | y => exact hs.y

theorem honest_member (name : String) : AxisDials.Honest ⟨name, name ∈ shapers⟩ := by
  intro _
  simp

theorem Sound.modify {p : Panel} (hs : Sound p.dials) (i : AxisId) {f : Axis → Axis}
    (hf : (f (p.get i)).dials.Honest) : Sound (p.modify i f).dials := by
  cases i with
  | x => exact ⟨hf, hs.y, hs.low, hs.order, hs.high⟩
  | y => exact ⟨hs.x, hf, hs.low, hs.order, hs.high⟩

theorem tenths_mem (h : Host) (hz : ℚ) : -2 ^ 31 ≤ tenths h hz ∧ tenths h hz < 2 ^ 31 := by
  unfold tenths toInt32
  split_ifs with hfit
  · exact hfit
  · have hlow := Int.le_bmod (x := h.wild (Rounding.lround (rnd (hz * 10)))) (m := 2 ^ 32)
      (by norm_num)
    have hhigh := Int.bmod_lt (x := h.wild (Rounding.lround (rnd (hz * 10)))) (m := 2 ^ 32)
      (by norm_num)
    norm_num at hlow hhigh ⊢
    omega

/-! ### Every handler keeps the dials sound -/

-- Whether a handler ends or throws.
abbrev Keeps (o : Except Panel Panel) : Prop :=
  Post (fun p => Sound p.dials) (fun p => Sound p.dials) o

theorem Keeps.bind {o : Except Panel Panel} {f : Panel → Except Panel Panel} (h : Keeps o)
    (hf : ∀ q, Sound q.dials → Keeps (f q)) : Keeps (o >>= f) := post_bind h hf

theorem sound_selectShaper {p : Panel} (hs : Sound p.dials) (name : String) :
    Sound (p.selectShaper name).dials := by
  unfold Panel.selectShaper
  split_ifs
  · exact hs
  · exact hs

theorem keeps_refreshHeadline {p : Panel} (hs : Sound p.dials) : Keeps p.refreshHeadline := by
  unfold Panel.refreshHeadline
  split_ifs
  · exact hs
  · split
    · exact hs
    · exact hs

theorem keeps_setStatus {p : Panel} (hs : Sound p.dials) (text : String) :
    Keeps (p.setStatus text) :=
  keeps_refreshHeadline (p := { p with statusText := text }) hs

theorem keeps_showResult {p : Panel} (hs : Sound p.dials) (i : AxisId) :
    Keeps (p.showResult i) := by
  simp only [Panel.showResult]
  split
  · exact hs
  · exact hs

theorem keeps_showAxis (h : Host) {p : Panel} (hs : Sound p.dials) (i : AxisId) :
    Keeps (p.showAxis h i) := by
  have hsel : Sound (({ p with shown := i } : Panel).selectShaper (p.get i).shaper).dials :=
    sound_selectShaper (p := { p with shown := i }) hs _
  rw [showAxis_eq]
  refine (keeps_refreshHeadline ?_).bind fun q hq => keeps_showResult hq i
  exact hsel

theorem keeps_updateAvailable (w : World) {p : Panel} (hs : Sound p.dials) :
    Keeps (p.updateAvailable w) := by
  obtain ⟨c, a, s, text, heq⟩ := updateAvailable_eq w p
  rw [heq]
  exact keeps_setStatus (p := { p with calibrateBtn := c, applyBtn := a, saveBtn := s }) hs text

theorem honest_configureAxis {a : Axis} (ha : a.dials.Honest) (freq : ℚ) (type : String) :
    (configureAxis a freq type).dials.Honest := by
  unfold configureAxis
  dsimp only
  split_ifs
  · exact ha
  · exact honest_member type

theorem sound_configure {p : Panel} (hs : Sound p.dials) (j : Json) :
    Sound (p.configure j).dials := by
  unfold Panel.configure
  split_ifs
  · exact hs
  · exact ⟨honest_configureAxis hs.x _ _, honest_configureAxis hs.y _ _, hs.low, hs.order, hs.high⟩

theorem sound_configureRange (h : Host) {p : Panel} (hs : Sound p.dials) (j : Json) :
    Sound (p.configureRange h j).dials := by
  unfold Panel.configureRange
  dsimp only
  split_ifs with _ hlt
  · exact hs
  · exact ⟨hs.x, hs.y, (tenths_mem h _).1, hlt.le, (tenths_mem h _).2⟩
  · exact hs

theorem keeps_foreground (h : Host) (w : World) {p : Panel} (hs : Sound p.dials) :
    Keeps (p.foreground h w) := by
  have hconf := sound_configureRange h (sound_configure hs
    (w.state.getData ["printer_state", "configfile", "config", "input_shaper"]))
    (w.state.getData ["printer_state", "configfile", "settings", "resonance_tester"])
  exact (keeps_showAxis h hconf _).bind fun q hq => keeps_updateAvailable w hq

theorem keeps_startNextAxis (h : Host) (w : World) {p : Panel} (hs : Sound p.dials) :
    Keeps (p.startNextAxis h w) := by
  unfold Panel.startNextAxis
  split
  · split_ifs
    · exact keeps_setStatus hs ""
    · exact hs
  · rename_i i _
    have hpend : Sound (p.modify i fun a => { a with pending := false }).dials :=
      hs.modify i (hs.get i)
    dsimp only
    split
    · exact hpend
    · refine (keeps_setStatus ?_ _).bind fun q hq => keeps_showAxis h ?_ i
      · exact hpend
      · exact hq.modify i (f := fun a => { a with run := .testing, since := w.tick }) (hq.get i)

theorem keeps_abandonRuns {p : Panel} (hs : Sound p.dials) (why : String) (only : Bool) :
    Keeps (p.abandonRuns why only) := by
  unfold Panel.abandonRuns
  split_ifs
  · exact hs
  · refine (keeps_setStatus (p := abandoned p only) hs why).bind fun q hq => ?_
    exact hq

theorem keeps_requestAnalysis {p : Panel} (hs : Sound p.dials) (w : World) (i : AxisId) :
    Keeps (p.requestAnalysis w i) := by
  unfold Panel.requestAnalysis
  split
  · exact hs
  · refine (keeps_setStatus ?_ _).bind fun q hq => ?_
    · exact hs.modify i (hs.get i)
    · exact hq

theorem keeps_applyBest {p : Panel} (hs : Sound p.dials) (i : AxisId) (res : Json) :
    Keeps (p.applyBest i res) := by
  unfold Panel.applyBest
  split
  · split
    · exact hs
    · rename_i name _ _ _ _ _ _
      have hname : Sound ((p.selectShaper name).modify i fun a =>
          { a with shaper := name, shaperKnown := name ∈ shapers }).dials :=
        (sound_selectShaper hs name).modify i (honest_member name)
      dsimp only
      split
      · exact hname
      · exact hname.modify i (hname.get i)
  · exact hs
  · exact hs

theorem keeps_applyPlot {p : Panel} (hs : Sound p.dials) (w : World) (i : AxisId) (res : Json) :
    Keeps (p.applyPlot w i res) := by
  unfold Panel.applyPlot
  split
  · split
    · exact hs
    · split
      · exact hs
      · exact hs.modify i (hs.get i)
  · exact hs

theorem sound_finishRun {p : Panel} (hs : Sound p.dials) (i : AxisId) :
    Sound (p.finishRun i).dials := by
  have hidle : Sound (p.modify i fun a => { a with run := .idle }).dials := hs.modify i (hs.get i)
  unfold Panel.finishRun
  dsimp only
  split_ifs
  · exact hidle
  · exact hidle

theorem keeps_handlePayload {p : Panel} (hs : Sound p.dials) (h : Host) (w : World) (res : Json) :
    Keeps (p.handlePayload h w res) := by
  unfold Panel.handlePayload
  split
  · exact hs
  · rename_i i _
    split_ifs
    · exact hs
    · have hres : Sound (p.modify i fun a => { a with result := res }).dials :=
        hs.modify i (hs.get i)
      have happly : Keeps (p.applyResult w i res) :=
        (keeps_applyBest hres i res).bind fun q hq => keeps_applyPlot hq w i res
      exact happly.bind fun q hq => (keeps_showAxis h (sound_finishRun hq i) i).bind fun q hq =>
        (keeps_updateAvailable w hq).bind fun q hq => keeps_startNextAxis h w hq

theorem keeps_handleResponse {p : Panel} (hs : Sound p.dials) (h : Host) (w : World)
    (resp : String) : Keeps (p.handleResponse h w resp) := by
  unfold Panel.handleResponse
  cases kind resp with
  | error => exact keeps_abandonRuns hs _ _
  | running => exact hs
  | timedOut => exact keeps_abandonRuns hs _ _
  | finished =>
    dsimp only
    split_ifs
    · exact keeps_abandonRuns hs _ _
    · exact hs
  | payload =>
    dsimp only [Panel.handlePayloadLine]
    split
    · exact hs
    · exact keeps_handlePayload (p := { p with analysisProducedResult := true }) hs h w _
  | written i =>
    dsimp only
    split_ifs
    · exact keeps_requestAnalysis hs w i
    · exact hs
  | other => exact hs

theorem sound_locked {p : Panel} (hs : Sound p.dials) {f : Panel → Except Panel Panel}
    (hf : ∀ q, Sound q.dials → Keeps (f q)) : Sound (p.locked f).dials :=
  post_final (hf (p.emit .lock) hs)

theorem keeps_handleCalibrate {p : Panel} (hs : Sound p.dials) (h : Host) (w : World) :
    Keeps (p.handleCalibrate h w) := by
  have hqueue : ∀ t i a, (queueAxis t i a).dials = a.dials := by
    intro t i a
    unfold queueAxis
    split_ifs <;> rfl
  unfold Panel.handleCalibrate
  split_ifs
  · exact hs
  · refine keeps_startNextAxis h w ⟨?_, ?_, hs.low, hs.order, hs.high⟩
    · show (queueAxis p.target .x p.x).dials.Honest
      rw [hqueue]
      exact hs.x
    · show (queueAxis p.target .y p.y).dials.Honest
      rw [hqueue]
      exact hs.y

theorem keeps_chooseShaper {p : Panel} (hs : Sound p.dials) (w : World) (idx : ℕ) :
    Keeps (p.chooseShaper w idx) := by
  unfold Panel.chooseShaper
  split
  · exact hs
  · rename_i name hname
    have hmem : name ∈ shapers := List.mem_of_getElem? hname
    refine keeps_updateAvailable w ?_
    refine Sound.modify (p := { p with shaperIdx := idx }) hs p.shown fun _ => ?_
    exact ⟨fun _ => hmem, fun _ => rfl⟩

theorem sound_step (h : Host) (p : Panel) (e : Event) (hs : Sound p.dials) :
    Sound (step h p e).dials := by
  cases e with
  | foreground w => exact post_final (keeps_foreground h w hs)
  | calibrate w =>
    simp only [step]
    split_ifs
    · exact post_final (keeps_handleCalibrate hs h w)
    · exact hs
  | apply =>
    simp only [step]
    split_ifs
    · exact post_final (keeps_setStatus (p := p.send _) hs _)
    · exact hs
  | save =>
    simp only [step]
    split_ifs
    · exact hs
    · exact hs
  | confirmSave =>
    simp only [step]
    split_ifs
    · exact hs
    · exact hs
  | cancelSave => exact hs
  | emergencyStop => exact hs
  | selectAxis t =>
    have hshow : ∀ i, Keeps (({ p with target := t } : Panel).showAxis h i) := fun i =>
      keeps_showAxis h (p := { p with target := t }) hs i
    cases t with
    | both => exact post_final (hshow _)
    | x => exact post_final (hshow _)
    | y => exact post_final (hshow _)
  | selectView idx => exact hs
  | selectShaper w idx => exact post_final (keeps_chooseShaper hs w idx)
  | selectSmoothing idx => exact hs
  | slider value =>
    simp only [step, Panel.handleUpdateSlider]
    have hmoved : ∀ v text, Sound ({ p with sliderValue := v, freqLabel := text } : Panel).dials :=
      fun _ _ => hs
    exact (hmoved _ _).modify p.shown ((hmoved _ _).get p.shown)
  | gcodeResponse w j =>
    simp only [step, Panel.handleMacroResponse]
    split
    · exact sound_locked hs fun q hq => keeps_handleResponse hq h w _
    · exact hs
  | klippyGone => exact sound_locked hs fun q hq => keeps_abandonRuns hq _ _
  | watchdog w =>
    simp only [step, Panel.checkTimeouts]
    split_ifs
    · exact post_final (keeps_abandonRuns hs _ _)
    · exact hs
    · exact hs

theorem sound_init (h : Host) : Sound (Panel.init h).dials := by
  have hbuilt : Sound Panel.built.dials := by
    refine ⟨?_, ?_, ?_, ?_, ?_⟩
    · intro hne
      exact absurd rfl hne
    · intro hne
      exact absurd rfl hne
    · norm_num [Panel.dials, Panel.built]
    · norm_num [Panel.dials, Panel.built]
    · norm_num [Panel.dials, Panel.built]
  exact post_final ((keeps_showAxis h hbuilt .x).bind fun q hq => keeps_setStatus hq "")

/-! ### Sent and shown -/

/-- What `show_axis` puts on the shaper row and next to the slider. -/
structure Sight where
  row : Option String
  label : String

def Panel.sight (p : Panel) : Sight := ⟨shapers[p.shaperIdx]?, p.freqLabel⟩

def shownTenths (h : Host) (p : Panel) (i : AxisId) : ℤ :=
  clamp p.sliderMin p.sliderMax (tenths h (p.get i).freq)

theorem sight_refreshHeadline (p : Panel) :
    Post (fun q => q.sight = p.sight) (fun q => q.sight = p.sight) p.refreshHeadline := by
  unfold Panel.refreshHeadline
  split_ifs
  · exact rfl
  · split
    · exact rfl
    · exact rfl

theorem sight_showResult {p : Panel} {s : Sight} (hs : p.sight = s) (i : AxisId) :
    Post (fun q => q.sight = s) (fun q => q.sight = s) (p.showResult i) := by
  simp only [Panel.showResult]
  split
  · exact hs
  · exact hs

theorem sight_showAxis (h : Host) (p : Panel) (i : AxisId) :
    (final (p.showAxis h i)).sight =
      ⟨shapers[(p.selectShaper (p.get i).shaper).shaperIdx]?,
        frequencyText (shownTenths h p i)⟩ := by
  have hrange : ∀ s, ((({ p with shown := i } : Panel).selectShaper s).sliderMin = p.sliderMin) ∧
      (({ p with shown := i } : Panel).selectShaper s).sliderMax = p.sliderMax ∧
      (({ p with shown := i } : Panel).selectShaper s).shaperIdx =
        (p.selectShaper s).shaperIdx := by
    intro s
    unfold Panel.selectShaper
    split_ifs
    · exact ⟨rfl, rfl, rfl⟩
    · exact ⟨rfl, rfl, rfl⟩
  obtain ⟨hlo, hhi, hidx⟩ := hrange (p.get i).shaper
  rw [showAxis_eq]
  have hpost := post_bind (sight_refreshHeadline _) fun q (hq : q.sight =
    ((({ p with shown := i } : Panel).selectShaper (p.get i).shaper).setFrequency h
      (p.get i).freq).sight) => sight_showResult hq i
  rw [post_final hpost]
  simp only [Panel.sight, Panel.setFrequency, shownTenths, hlo, hhi, hidx]

def ShownAs (h : Host) (p : Panel) (i : AxisId) (s : Setting) : Prop :=
  s.type ∈ shapers ∧ (final (p.showAxis h i)).sight = ⟨some s.type, s.freq ++ " Hz"⟩

theorem shownTenths_abs_le {h : Host} {p : Panel} (hs : Sound p.dials) (i : AxisId) :
    |shownTenths h p i| ≤ 2 ^ 31 := by
  have hlow : -2 ^ 31 ≤ p.sliderMin := hs.low
  have horder : p.sliderMin ≤ p.sliderMax := hs.order
  have hhigh : p.sliderMax < 2 ^ 31 := hs.high
  unfold shownTenths clamp
  rw [abs_le]
  omega

/-- The tenths `{:.1f}` writes. -/
def sentTenths (p : Panel) (i : AxisId) : ℤ :=
  let digits := roundHalfEven (|(p.get i).freq| * 10)
  if (p.get i).freq < 0 then -digits else digits

/-- The frequency lies in the slider's range as it is sent, a nonzero one below
zero, and `lround` and `{:.1f}` do not settle a tie differently, unless the
slider's end takes in what `lround` makes of it. -/
structure SameTenths (h : Host) (p : Panel) (i : AxisId) : Prop where
  inRange : p.sliderMin ≤ sentTenths p i ∧ sentTenths p i ≤ p.sliderMax
  signed : (p.get i).freq < 0 → sentTenths p i ≠ 0
  noTie : tenths h (p.get i).freq = sentTenths p i ∨
    (sentTenths p i = p.sliderMax ∧ p.sliderMax < tenths h (p.get i).freq) ∨
    (sentTenths p i = p.sliderMin ∧ tenths h (p.get i).freq < p.sliderMin)

theorem sameTenths_iff {h : Host} {p : Panel} (hs : Sound p.dials) (i : AxisId) :
    SameTenths h p i ↔ ((p.get i).freq < 0 ↔ shownTenths h p i < 0) ∧
      roundHalfEven (|(p.get i).freq| * 10) = |shownTenths h p i| := by
  have horder : p.sliderMin ≤ p.sliderMax := hs.order
  have hdigits : 0 ≤ roundHalfEven (|(p.get i).freq| * 10) :=
    roundHalfEven_nonneg (by positivity)
  -- both sides say that the slider holds what is sent, and is below zero with it
  have hclamp : (p.sliderMin ≤ sentTenths p i ∧ sentTenths p i ≤ p.sliderMax) ∧
      (tenths h (p.get i).freq = sentTenths p i ∨
        (sentTenths p i = p.sliderMax ∧ p.sliderMax < tenths h (p.get i).freq) ∨
        (sentTenths p i = p.sliderMin ∧ tenths h (p.get i).freq < p.sliderMin)) ↔
      shownTenths h p i = sentTenths p i := by
    unfold shownTenths clamp
    omega
  have hsign : ((p.get i).freq < 0 → sentTenths p i ≠ 0) ∧ shownTenths h p i = sentTenths p i ↔
      ((p.get i).freq < 0 ↔ shownTenths h p i < 0) ∧
        roundHalfEven (|(p.get i).freq| * 10) = |shownTenths h p i| := by
    simp only [sentTenths, Int.abs_eq_natAbs (shownTenths h p i)]
    split_ifs with hneg
    · simp only [hneg, true_iff, true_implies]
      omega
    · simp only [hneg, false_iff, false_implies, true_and]
      omega
  rw [← hsign, ← hclamp]
  exact ⟨fun ⟨hrange, hsgn, htie⟩ => ⟨hsgn, hrange, htie⟩,
    fun ⟨hsgn, hrange, htie⟩ => ⟨hrange, hsgn, htie⟩⟩

theorem frequencyText_eq_iff {h : Host} {p : Panel} (hs : Sound p.dials) (i : AxisId) :
    frequencyText (shownTenths h p i) = (p.setting i).freq ++ " Hz" ↔ SameTenths h p i := by
  obtain ⟨hsign, htenths⟩ := rnd_tenth (shownTenths_abs_le (h := h) hs i)
  unfold frequencyText Panel.setting
  rw [sameTenths_iff hs, String.append_left_inj, fixed_one_eq_iff, hsign, htenths]
  constructor
  · exact fun ⟨h1, h2⟩ => ⟨h1.symm, h2.symm⟩
  · exact fun ⟨h1, h2⟩ => ⟨h1.symm, h2.symm⟩

theorem shaper_mem_iff {p : Panel} (hs : Sound p.dials) (i : AxisId) :
    (p.get i).shaper ∈ shapers ↔ (p.get i).shaperKnown = true ∧ (p.get i).shaper ≠ "" := by
  have hhonest := hs.get i
  constructor
  · intro hmem
    have hne : (p.get i).shaper ≠ "" := by
      intro he
      rw [he] at hmem
      exact absurd hmem (by decide)
    exact ⟨(hhonest hne).mpr hmem, hne⟩
  · exact fun ⟨hknown, hne⟩ => (hhonest hne).mp hknown

theorem selectShaper_row {p : Panel} {name : String} (h : name ∈ shapers) :
    shapers[(p.selectShaper name).shaperIdx]? = some name := by
  unfold Panel.selectShaper
  rw [if_pos h]
  exact List.getElem?_idxOf h

theorem shownAs_setting_iff {h : Host} {p : Panel} (hs : Sound p.dials) (i : AxisId) :
    ShownAs h p i (p.setting i) ↔
      (p.get i).shaperKnown = true ∧ (p.get i).shaper ≠ "" ∧ SameTenths h p i := by
  unfold ShownAs
  rw [sight_showAxis, ← frequencyText_eq_iff hs i, ← and_assoc, ← shaper_mem_iff hs i,
    Sight.mk.injEq]
  constructor
  · exact fun ⟨hmem, _, hfreq⟩ => ⟨hmem, hfreq⟩
  · exact fun ⟨hmem, hfreq⟩ => ⟨hmem, selectShaper_row hmem, hfreq⟩

def used (p : Panel) : Event → Option (Setting → Setting → Script)
  | .apply => if p.applyBtn then some .setInputShaper else none
  | .confirmSave => if p.savePrompts = 0 then none else some .saveInputShaper
  | _ => none

theorem log_setStatus (p : Panel) (text : String) : (final (p.setStatus text)).log = p.log := by
  have hsteady : Steady p (final (p.setStatus text)) := post_final (drawn_setStatus p text)
  exact congrArg Core.log hsteady

theorem log_of_used {h : Host} {p : Panel} {e : Event} {script : Setting → Setting → Script}
    (he : used p e = some script) : (step h p e).log =
      p.log ++ [.script p.x.run p.y.run (script (p.setting .x) (p.setting .y))] := by
  cases e with
  | apply =>
    simp only [used] at he
    split_ifs at he with hbtn
    cases he
    simp only [step, if_pos hbtn]
    exact log_setStatus _ _
  | confirmSave =>
    simp only [used] at he
    split_ifs at he with hnone
    cases he
    simp only [step, if_neg hnone]
    rfl
  | _ => cases he

/-- The press sends one script, and both its settings are as shown. -/
def SentAsShown (h : Host) (p : Panel) (e : Event) (script : Setting → Setting → Script) : Prop :=
  ∃ x y, (step h p e).log = p.log ++ [.script p.x.run p.y.run (script x y)] ∧
    ShownAs h p .x x ∧ ShownAs h p .y y

/-- In every reachable state, Apply and Save send what is shown exactly when both
types are known and not empty, and each frequency lies in the slider's range as
it is sent and is not a tie that `lround` and `{:.1f}` settle differently. -/
theorem settings_sent_as_shown_iff (h : Host) (es : List Event) (e : Event)
    (script : Setting → Setting → Script)
    (he : used (Run.run (step h) (Panel.init h) es) e = some script) :
    let p := Run.run (step h) (Panel.init h) es
    SentAsShown h p e script ↔
      ∀ i, (p.get i).shaperKnown = true ∧ (p.get i).shaper ≠ "" ∧ SameTenths h p i := by
  intro p
  have hs : Sound p.dials := Run.invariant_always (I := fun q => Sound q.dials) (sound_step h)
    (Panel.init h) es (sound_init h)
  have hlog := log_of_used (h := h) he
  have hinj : ∀ x y, script x y = script (p.setting .x) (p.setting .y) →
      x = p.setting .x ∧ y = p.setting .y := by
    intro x y heq
    cases e with
    | apply =>
      simp only [used] at he
      split_ifs at he
      cases he
      exact ⟨(Script.setInputShaper.inj heq).1, (Script.setInputShaper.inj heq).2⟩
    | confirmSave =>
      simp only [used] at he
      split_ifs at he
      cases he
      exact ⟨(Script.saveInputShaper.inj heq).1, (Script.saveInputShaper.inj heq).2⟩
    | _ => cases he
  constructor
  · rintro ⟨x, y, hsent, hx, hy⟩ i
    have hlast := List.append_cancel_left (hlog.symm.trans hsent)
    injection hlast with hentry
    injection hentry with _ _ hscript
    obtain ⟨rfl, rfl⟩ := hinj x y hscript.symm
    cases i with
    | x => exact (shownAs_setting_iff hs .x).mp hx
    | y => exact (shownAs_setting_iff hs .y).mp hy
  · intro hall
    exact ⟨_, _, hlog, (shownAs_setting_iff hs .x).mpr (hall .x),
      (shownAs_setting_iff hs .y).mpr (hall .y)⟩

-- X at 62.25 Hz, a tie between two tenths, and Y with no type of its own.
def tiedPrinter : State :=
  printerWith (.cons "shaper_freq_x" (.str "62.25") (.cons "shaper_freq_y" (.str "41")
    (.cons "shaper_type_x" (.str "mzv") .nil)))

def tiedWorld : World := { tunedWorld with state := tiedPrinter, homed := by decide }

def openedPanel (w : World) : Panel :=
  Run.run (step sampleHost) (Panel.init sampleHost) [.foreground w]

/-- Apply is enabled on it, shows X at 62.3 Hz and sends 62.2, and sends an empty
type for Y. -/
theorem apply_differs_from_shown :
    used (openedPanel tiedWorld) .apply = some .setInputShaper ∧
    (openedPanel tiedWorld).freqLabel = "62.3 Hz" ∧
    (openedPanel tiedWorld).setting .x = ⟨"mzv", "62.2"⟩ ∧
    (openedPanel tiedWorld).setting .y = ⟨"", "41.0"⟩ ∧
    ¬ SentAsShown sampleHost (openedPanel tiedWorld) .apply .setInputShaper := by
  have hused : used (openedPanel tiedWorld) .apply = some .setInputShaper := by
    simp only [used]
    rw [if_pos (by decide +kernel)]
  have hy : (openedPanel tiedWorld).setting .y = ⟨"", "41.0"⟩ := by decide +kernel
  refine ⟨hused, by decide +kernel, by decide +kernel, hy, ?_⟩
  rintro ⟨x, y, hsent, _, hshown, _⟩
  have hlast := List.append_cancel_left ((log_of_used hused).symm.trans hsent)
  injection hlast with hentry
  injection hentry with _ _ hscript
  rw [← (Script.setInputShaper.inj hscript).2, hy] at hshown
  exact absurd hshown (by decide)

theorem tuned_settings_sent_as_shown :
    (openedPanel tunedWorld).setting .x = ⟨"mzv", "62.2"⟩ ∧
    SentAsShown sampleHost (openedPanel tunedWorld) .apply .setInputShaper := by
  refine ⟨by decide +kernel, ?_⟩
  refine (settings_sent_as_shown_iff sampleHost [.foreground tunedWorld] .apply .setInputShaper
    ?_).mpr ?_
  · simp only [used]
    rw [if_pos (by decide +kernel)]
  · intro i
    cases i with
    | x =>
      exact ⟨by decide +kernel, by decide +kernel,
        ⟨by decide +kernel, by decide +kernel, .inl (by decide +kernel)⟩⟩
    | y =>
      exact ⟨by decide +kernel, by decide +kernel,
        ⟨by decide +kernel, by decide +kernel, .inl (by decide +kernel)⟩⟩

end GuppyScreen.InputShaper
