import GuppyScreen.Lib.Fgets
import GuppyScreen.Lib.Heap
import GuppyScreen.Lib.Run

/-!
# The update dialog (update_dialog.cpp)

A press of Update starts `update.sh` on a thread of its own, unless the last one still
runs. The thread reads the script's output into a job; a dialog draws the job from a
timer and can be closed while the script runs on. Texts are lists of bytes. `lock` makes
each look at a job one step, so a run is any interleaving of the parts of the LVGL
thread's handlers with the steps of the workers.
-/

namespace GuppyScreen.UpdateDialog
open Lib Lib.Run

structure Job where
  output : List Char := []
  done : Bool := false
  rc : Int := 0
  deriving DecidableEq

namespace Job

def append (job : Job) (s : List Char) : Job := { job with output := job.output ++ s }

def finish (job : Job) (rc : Int) : Job :=
  { job with
    rc := rc
    done := true }

end Job

/-! ### The worker -/

/-- Where `run_script` stands. In `finishing` its `rc` is settled. -/
inductive Phase where
  | launching
  | reading
  | waiting
  | finishing (rc : Int)
  | ended
  deriving DecidableEq

/-- A job with its thread and the script's pipe. `written` is all the script ever wrote
and `heading` what the job said before. -/
structure Work where
  job : Job
  script : List Char
  phase : Phase
  pipe : List Char := []
  closed : Bool := false
  heading : List Char := []
  written : List Char := []
  deriving DecidableEq

/-- `none` as a text is the exception that `catch (...)` gets. -/
inductive WorkerEvent where
  | launched (thrown : Option (Option (List Char)))
  | write (bytes : List Char)
  | close
  | fgets
  | wait (result : Except (Option (List Char)) Int)
  | finish

/-- The room `fgets` has in `char buf[256]`, less the one byte `text` adds. -/
def room : ℕ := 254

def couldNotRun (script : List Char) : Option (List Char) → List Char
  | some what => "\nCould not run ".toList ++ script ++ ": ".toList ++ what ++ "\n".toList
  | none => "\nCould not run ".toList ++ script ++ "\n".toList

namespace Work

/-- What `catch` does, with `rc` still at 1. -/
def caught (w : Work) (what : Option (List Char)) : Work :=
  { w with
    job := w.job.append (couldNotRun w.script what)
    phase := .finishing 1 }

/-- One `fgets`, which waits until it has a line, a full buffer or the end of the pipe. -/
def fgets (w : Work) : Work :=
  let piece := Fgets.fgets (room + 1) w.pipe
  if Fgets.complete (room + 1) w.pipe || w.closed && w.pipe ≠ [] then
    { w with
      job := w.job.append (Fgets.cstr piece.1)
      pipe := piece.2 }
  else if w.closed then { w with phase := .waiting }
  else w

def step (w : Work) : WorkerEvent → Work
  | .launched thrown =>
    match w.phase, thrown with
    | .launching, none => { w with phase := .reading }
    | .launching, some what => w.caught what
    | _, _ => w
  | .write bytes =>
    if w.phase = .reading ∧ w.closed = false then
      { w with
        pipe := w.pipe ++ bytes
        written := w.written ++ bytes }
    else w
  | .close => if w.phase = .reading then { w with closed := true } else w
  | .fgets => if w.phase = .reading then w.fgets else w
  | .wait result =>
    match w.phase, result with
    | .waiting, .ok rc => { w with phase := .finishing rc }
    | .waiting, .error what => w.caught what
    | _, _ => w
  | .finish =>
    match w.phase with
    | .finishing rc =>
      { w with
        job := w.job.finish rc
        phase := .ended }
    | _ => w

end Work

/-! ### The dialogs -/

structure Dialog where
  job : ℕ
  text : List Char
  title : String := "Updating Guppy"
  spinnerHidden : Bool := false
  timer : ℕ
  shown : ℕ := 0
  shownDone : Bool := false
  closing : Bool := false
  deriving DecidableEq

structure Timer where
  userData : ℕ
  paused : Bool := false
  deriving DecidableEq

def outcome (rc : Int) : List Char :=
  if rc = 0 then "\nUpdate finished.".toList
  else "\nUpdate failed, exit code ".toList ++ (toString rc).toList ++ ".".toList

/-- What a dialog drawn from nothing would say of the job. -/
def Job.drawn (job : Job) : List Char :=
  if job.done then job.output ++ outcome job.rc else job.output

def Dialog.upToDate (d : Dialog) (job : Job) : Bool :=
  job.output.length == d.shown && job.done == d.shownDone

/-- The part of `refresh` that draws. -/
def Dialog.draw (d : Dialog) (job : Job) : Dialog :=
  { d with
    shown := job.output.length
    shownDone := job.done
    text := job.drawn
    title := if job.done then (if job.rc = 0 then "Update finished" else "Update failed")
      else d.title
    spinnerHidden := job.done || d.spinnerHidden }

/-- What `show` finds: the directory of the program, or the exception of `canonical`. -/
inductive Look where
  | found (dir : List Char)
  | missing (dir : List Char)
  | threw (what : List Char)

/-- `dir / "update.sh"`. -/
def updateScript (dir : List Char) : List Char :=
  if dir = [] ∨ dir.getLast? = some '/' then dir ++ "update.sh".toList
  else dir ++ "/update.sh".toList

def noScript (path : List Char) : List Char :=
  "No update script at ".toList ++ path ++
    ".\n\nGuppy updates itself with the update.sh installed beside it.\n".toList

def whereScript (what : List Char) : List Char :=
  "Could not work out where the update script is: ".toList ++ what ++ "\n".toList

def running : List Char :=
  "Running update.sh. Guppy restarts itself if it installs a new version.\n\n".toList

/-- The script of a new press and what its job says first. -/
def lookFor : Look → List Char × List Char
  | .found dir => (updateScript dir, [])
  | .missing dir => ([], noScript (updateScript dir))
  | .threw what => ([], whereScript what)

/-- The job of a new press and its thread, if it gets one. -/
def newWork (look : Look) : Work :=
  let job := ({} : Job).append (lookFor look).2
  if (lookFor look).1 = [] then
    { job := job.finish 1
      script := (lookFor look).1
      phase := .ended
      heading := (lookFor look).2 }
  else
    { job := job.append running
      script := (lookFor look).1
      phase := .launching
      heading := (lookFor look).2 ++ running }

/-! ### The system -/

/-- The part of `show` the LVGL thread has still to do. -/
inductive Pc where
  | idle
  | opening (job : ℕ)
  | refreshing (dialog : ℕ)
  deriving DecidableEq

/-- `fault` is set by an access to freed memory. -/
structure World where
  jobs : List Work := []
  runningJob : Option ℕ := none
  pc : Pc := .idle
  dialogs : Heap Dialog := {}
  timers : Heap Timer := {}
  fault : Bool := false
  deriving DecidableEq

inductive Event where
  | press (look : Look)
  | openDialog
  | refreshDialog
  | poll (timer : ℕ)
  | close (dialog : ℕ)
  | delete (dialog : ℕ)
  | worker (job : ℕ) (e : WorkerEvent)

namespace World

def isRunning (s : World) : Bool :=
  match s.runningJob.bind (s.jobs[·]?) with
  | some w => !w.job.done
  | none => false

def press (s : World) (look : Look) : World :=
  match s.runningJob, s.isRunning with
  | some j, true => { s with pc := .opening j }
  | _, _ =>
    { s with
      jobs := s.jobs ++ [newWork look]
      runningJob := some s.jobs.length
      pc := .opening s.jobs.length }

/-- `open_dialog` up to its `refresh`. The text is never empty, see `opening_ne`. -/
def openDialog (s : World) (j : ℕ) : World :=
  match s.jobs[j]? with
  | some w =>
    { s with
      dialogs := s.dialogs.alloc
        { job := j
          text := if w.job.output = [] then "Working".toList else w.job.output
          timer := s.timers.next }
      timers := s.timers.alloc { userData := s.dialogs.next }
      pc := .refreshing s.dialogs.next }
  | none => { s with fault := true }

def refresh (s : World) (i : ℕ) : World :=
  match s.dialogs.at? i with
  | some d =>
    match s.jobs[d.job]? with
    | some w =>
      if d.upToDate w.job then s
      else
        { s with
          dialogs := s.dialogs.modify i (·.draw w.job)
          timers := if w.job.done then s.timers.modify d.timer ({ · with paused := true })
            else s.timers }
    | none => { s with fault := true }
  | none => { s with fault := true }

def poll (s : World) (k : ℕ) : World :=
  match s.timers.at? k with
  | some t => if t.paused then s else s.refresh t.userData
  | none => s

/-- The deletion that `close` left to the next turn of LVGL. -/
def delete (s : World) (i : ℕ) : World :=
  match s.dialogs.at? i with
  | some d =>
    if d.closing then
      { s with
        dialogs := s.dialogs.free i
        timers := s.timers.free d.timer
        fault := s.fault || s.timers.at? d.timer = none }
    else s
  | none => s

/-- A step. Only an idle LVGL thread takes presses and runs timers. -/
def step (s : World) : Event → World
  | .press look => if s.pc = .idle then s.press look else s
  | .openDialog =>
    match s.pc with
    | .opening j => s.openDialog j
    | _ => s
  | .refreshDialog =>
    match s.pc with
    | .refreshing i => { s.refresh i with pc := .idle }
    | _ => s
  | .poll k => if s.pc = .idle then s.poll k else s
  | .close i =>
    if s.pc = .idle then { s with dialogs := s.dialogs.modify i ({ · with closing := true }) }
      else s
  | .delete i => if s.pc = .idle then s.delete i else s
  | .worker j e => { s with jobs := s.jobs.modify j (·.step e) }

end World

/-! ### One job -/

/-- What the job says is its heading, then what was read of what the script wrote, then
perhaps what a caught exception said. -/
def Work.Heard (w : Work) (extra : List Char) : Prop :=
  ∃ said, w.job.output = said ++ extra ∧
    ∀ later, (w.closed = true → later = []) →
      w.heading ++ Fgets.text room (w.written ++ later) = said ++ Fgets.text room (w.pipe ++ later)

structure Work.Ok (w : Work) : Prop where
  done : w.job.done = true ↔ w.phase = .ended
  output_ne : w.job.output ≠ []
  drained : w.phase ≠ .reading → w.pipe = []
  heard : ∃ extra, w.Heard extra ∧
    (extra = [] ∨ (∃ what, extra = couldNotRun w.script what) ∧
      (w.phase = .finishing 1 ∨ w.phase = .ended ∧ w.job.rc = 1))

namespace Work

theorem toList_ne {s : String} (h : s ≠ "") : s.toList ≠ [] := mt String.toList_eq_nil_iff.mp h

theorem running_ne : running ≠ [] := toList_ne (by decide)

theorem said_of_no_script {look : Look} (h : (lookFor look).1 = []) : (lookFor look).2 ≠ [] := by
  cases look with
  | found dir =>
    exfalso
    revert h
    simp only [lookFor, updateScript]
    split_ifs <;> simp
  | missing dir =>
    have hne := toList_ne (s := "No update script at ") (by decide)
    exact List.append_ne_nil_of_left_ne_nil (List.append_ne_nil_of_left_ne_nil hne _) _
  | threw what =>
    have hne := toList_ne (s := "Could not work out where the update script is: ") (by decide)
    exact List.append_ne_nil_of_left_ne_nil (List.append_ne_nil_of_left_ne_nil hne _) _

theorem Heard.fresh {w : Work} (hout : w.job.output = w.heading) (hwritten : w.written = [])
    (hpipe : w.pipe = []) : w.Heard [] := by
  refine ⟨w.heading, by rw [hout, List.append_nil], fun later _ => ?_⟩
  rw [hwritten, hpipe]

theorem ok_newWork (look : Look) : (newWork look).Ok := by
  unfold newWork
  dsimp only
  split_ifs with hscript
  · have hsaid := said_of_no_script hscript
    refine ⟨by simp [Job.finish], ?_, fun _ => rfl, [], Heard.fresh rfl rfl rfl, Or.inl rfl⟩
    simpa only [Job.finish, Job.append, List.nil_append] using hsaid
  · refine ⟨by simp [Job.append], ?_, fun _ => rfl, [], Heard.fresh ?_ rfl rfl, Or.inl rfl⟩
    · simp only [Job.append]
      exact List.append_ne_nil_of_right_ne_nil _ running_ne
    · simp only [Job.append, List.nil_append]

/-- While the thread reads or waits nothing was caught. -/
theorem Ok.heard_nil {w : Work} (h : w.Ok) (hfin : w.phase ≠ .finishing 1)
    (hend : w.phase ≠ .ended) : w.Heard [] := by
  obtain ⟨extra, hheard, rfl | ⟨-, hphase | hphase⟩⟩ := h.heard
  · exact hheard
  · exact absurd hphase hfin
  · exact absurd hphase.1 hend

theorem Ok.caught {w : Work} (h : w.Ok) (hread : w.phase ≠ .reading) (hfin : w.phase ≠ .finishing 1)
    (hend : w.phase ≠ .ended) (what : Option (List Char)) : (w.caught what).Ok := by
  have hdone : w.job.done = false := by
    rw [← Bool.not_eq_true, h.done]
    exact hend
  obtain ⟨said, hout, hsame⟩ := h.heard_nil hfin hend
  refine ⟨?_, ?_, fun _ => h.drained hread, couldNotRun w.script what, ⟨said, ?_, hsame⟩,
    Or.inr ⟨⟨what, rfl⟩, Or.inl rfl⟩⟩
  · simp [Work.caught, Job.append, hdone]
  · simp [Work.caught, Job.append, h.output_ne]
  · simp only [Work.caught, Job.append, hout, List.append_nil]

theorem Ok.fgets {w : Work} (h : w.Ok) (hread : w.phase = .reading) : w.fgets.Ok := by
  have hdone : w.job.done = false := by
    rw [← Bool.not_eq_true, h.done, hread]
    simp
  obtain ⟨said, hout, hsame⟩ := h.heard_nil (by simp [hread]) (by simp [hread])
  rw [List.append_nil] at hout
  unfold Work.fgets
  dsimp only
  split_ifs with hready hclosed
  · refine ⟨by simp [Job.append, hdone, hread], by simp [Job.append, h.output_ne], ?_, [], ?_,
      Or.inl rfl⟩
    · intro hne
      exact absurd hread hne
    · refine ⟨said ++ Fgets.cstr (Fgets.fgets (room + 1) w.pipe).1, ?_, fun later hlater => ?_⟩
      · simp only [Job.append, hout, List.append_nil]
      · rw [hsame later hlater, List.append_assoc]
        congr 1
        by_cases hcomplete : Fgets.complete (room + 1) w.pipe
        · exact Fgets.text_append hcomplete later
        · -- a piece cut short by the end of the pipe is the last one
          have hend : w.closed = true ∧ w.pipe ≠ [] := by simpa [hcomplete] using hready
          rw [hlater hend.1, List.append_nil, List.append_nil]
          exact Fgets.text_of_ne hend.2
  · have hempty : w.pipe = [] := by
      by_contra hne
      apply hready
      simp [hclosed, hne]
    refine ⟨by simp [hdone], h.output_ne, fun _ => hempty, [], ⟨said, ?_, hsame⟩, Or.inl rfl⟩
    rw [List.append_nil]
    exact hout
  · exact h

theorem Ok.step {w : Work} (h : w.Ok) (e : WorkerEvent) : (w.step e).Ok := by
  cases e with
  | launched thrown =>
    unfold Work.step
    cases hphase : w.phase with
    | launching =>
      cases thrown with
      | none =>
        have hdone : w.job.done = false := by
          rw [← Bool.not_eq_true, h.done, hphase]
          simp
        have hheard := h.heard_nil (by simp [hphase]) (by simp [hphase])
        exact ⟨by simp [hdone], h.output_ne, fun _ => h.drained (by simp [hphase]), [], hheard,
          Or.inl rfl⟩
      | some what => exact h.caught (by simp [hphase]) (by simp [hphase]) (by simp [hphase]) what
    | _ => exact h
  | write bytes =>
    unfold Work.step
    dsimp only
    split_ifs with hcond
    · obtain ⟨hread, hopen⟩ := hcond
      obtain ⟨said, hout, hsame⟩ := h.heard_nil (by simp [hread]) (by simp [hread])
      refine ⟨h.done, h.output_ne, fun hne => absurd hread hne, [], ⟨said, hout, ?_⟩, Or.inl rfl⟩
      intro later _
      have hmore := hsame (bytes ++ later) (by simp [hopen])
      simpa only [List.append_assoc] using hmore
    · exact h
  | close =>
    unfold Work.step
    dsimp only
    split_ifs with hread
    · obtain ⟨said, hout, hsame⟩ := h.heard_nil (by simp [hread]) (by simp [hread])
      refine ⟨h.done, h.output_ne, fun hne => absurd hread hne, [], ⟨said, hout, ?_⟩, Or.inl rfl⟩
      intro later hlater
      rw [hlater rfl]
      exact hsame [] fun _ => rfl
    · exact h
  | fgets =>
    unfold Work.step
    dsimp only
    split_ifs with hread
    · exact h.fgets hread
    · exact h
  | wait result =>
    unfold Work.step
    cases hphase : w.phase with
    | waiting =>
      cases result with
      | ok rc =>
        have hdone : w.job.done = false := by
          rw [← Bool.not_eq_true, h.done, hphase]
          simp
        have hheard := h.heard_nil (by simp [hphase]) (by simp [hphase])
        exact ⟨by simp [hdone], h.output_ne, fun _ => h.drained (by simp [hphase]), [], hheard,
          Or.inl rfl⟩
      | error what => exact h.caught (by simp [hphase]) (by simp [hphase]) (by simp [hphase]) what
    | _ => exact h
  | finish =>
    unfold Work.step
    cases hphase : w.phase with
    | finishing rc =>
      obtain ⟨extra, hheard, hextra⟩ := h.heard
      refine ⟨by simp [Job.finish], h.output_ne, fun _ => h.drained (by simp [hphase]), extra,
        hheard, hextra.imp_right (And.imp_right fun hend => Or.inr ⟨rfl, ?_⟩)⟩
      rcases hend with hfin | hend
      · rw [hphase] at hfin
        injection hfin
      · rw [hphase] at hend
        cases hend.1
    | _ => exact h

/-- Nothing a job said is taken back, and a job that is done stays as it is. -/
theorem output_step (w : Work) (e : WorkerEvent) : w.job.output <+: (w.step e).job.output := by
  have hmore : ∀ s, w.job.output <+: (w.job.append s).output := fun s => List.prefix_append _ _
  cases e with
  | launched thrown =>
    simp only [Work.step]
    split
    · exact List.prefix_rfl
    · exact hmore _
    · exact List.prefix_rfl
  | write bytes =>
    simp only [Work.step]
    split_ifs <;> exact List.prefix_rfl
  | close =>
    simp only [Work.step]
    split_ifs <;> exact List.prefix_rfl
  | fgets =>
    simp only [Work.step, Work.fgets]
    split_ifs
    · exact hmore _
    all_goals exact List.prefix_rfl
  | wait result =>
    simp only [Work.step]
    split
    · exact List.prefix_rfl
    · exact hmore _
    · exact List.prefix_rfl
  | finish =>
    simp only [Work.step]
    split <;> exact List.prefix_rfl

theorem Ok.step_of_done {w : Work} (h : w.Ok) (hdone : w.job.done = true) (e : WorkerEvent) :
    w.step e = w := by
  have hphase := h.done.mp hdone
  cases e <;> simp [Work.step, hphase]

end Work

/-! ### One dialog -/

/-- What a dialog shows of its job: what it said up to some moment, or all of it and how
it ended. -/
structure Dialog.Shows (d : Dialog) (job : Job) : Prop where
  unfinished : d.shownDone = false → d.text <+: job.output ∧
    (d.shown = 0 ∨ d.shown = d.text.length) ∧ d.title = "Updating Guppy" ∧ d.spinnerHidden = false
  finished : d.shownDone = true → job.done = true ∧ d.shown = job.output.length ∧
    d.text = job.drawn ∧ d.title = (if job.rc = 0 then "Update finished" else "Update failed") ∧
    d.spinnerHidden = true

namespace Dialog

theorem Shows.draw {d : Dialog} {job : Job} (h : d.Shows job) : (d.draw job).Shows job := by
  constructor
  · intro hdone
    have hdone' : job.done = false := hdone
    have hbefore : d.shownDone = false := by
      by_contra hshown
      have hfin := h.finished (Bool.not_eq_false _ ▸ hshown)
      rw [hdone'] at hfin
      exact absurd hfin.1 Bool.false_ne_true
    obtain ⟨-, -, htitle, hspinner⟩ := h.unfinished hbefore
    refine ⟨?_, Or.inr ?_, ?_, ?_⟩
    · simp [Dialog.draw, Job.drawn, hdone']
    · simp [Dialog.draw, Job.drawn, hdone']
    · simp [Dialog.draw, hdone', htitle]
    · simp [Dialog.draw, hdone', hspinner]
  · intro hdone
    have hdone' : job.done = true := hdone
    exact ⟨hdone', rfl, rfl, by simp [Dialog.draw, hdone'], by simp [Dialog.draw, hdone']⟩

/-- The early return of `refresh` leaves what a new drawing would show. -/
theorem Shows.text_of_upToDate {d : Dialog} {job : Job} (h : d.Shows job) (hne : job.output ≠ [])
    (hup : d.upToDate job = true) : d.text = job.drawn := by
  simp only [upToDate, Bool.and_eq_true, beq_iff_eq] at hup
  cases hshown : d.shownDone with
  | false =>
    obtain ⟨⟨rest, hrest⟩, hlength, -⟩ := h.unfinished hshown
    have hdone : job.done = false := hup.2.trans hshown
    have hpos : 0 < job.output.length := List.length_pos_iff.mpr hne
    have hcount := congrArg List.length hrest
    rw [List.length_append] at hcount
    have hnil : rest = [] := List.length_eq_zero_iff.mp (by omega)
    rw [hnil, List.append_nil] at hrest
    simp [Job.drawn, hdone, hrest]
  | true => exact (h.finished hshown).2.2.1

/-- A job that goes on talking does not make a dialog wrong. -/
theorem Shows.mono {d : Dialog} {job job' : Job} (h : d.Shows job)
    (hgrow : job.output <+: job'.output) (hkeep : job.done = true → job' = job) :
    d.Shows job' := by
  constructor
  · intro hshown
    obtain ⟨hpre, hrest⟩ := h.unfinished hshown
    exact ⟨hpre.trans hgrow, hrest⟩
  · intro hshown
    have hfin := h.finished hshown
    rw [hkeep hfin.1]
    exact hfin

end Dialog

/-! ### The system -/

namespace World

structure Inv (s : World) : Prop where
  work : ∀ (j : ℕ) (w : Work), s.jobs[j]? = some w → w.Ok
  single : ∀ (j : ℕ) (w : Work), s.jobs[j]? = some w → w.phase ≠ .ended → s.runningJob = some j
  opening : ∀ j, s.pc = .opening j → j < s.jobs.length
  refreshing : ∀ i, s.pc = .refreshing i → ∃ d, s.dialogs.at? i = some d
  dialog : ∀ i d, s.dialogs.at? i = some d → ∃ w, s.jobs[d.job]? = some w ∧ d.Shows w.job ∧
    ∃ t, s.timers.at? d.timer = some t ∧ t.userData = i ∧ t.paused = d.shownDone
  timer : ∀ k t, s.timers.at? k = some t →
    ∃ d, s.dialogs.at? t.userData = some d ∧ d.timer = k
  fault : s.fault = false

theorem inv_init : Inv {} := by
  constructor <;> simp

theorem inv_of_pc {s : World} (h : s.Inv) : Inv { s with pc := .idle } :=
  ⟨h.work, h.single, by simp, by simp, h.dialog, h.timer, h.fault⟩

theorem isRunning_of_unfinished {s : World} (h : s.Inv) {j : ℕ} {w : Work}
    (hw : s.jobs[j]? = some w) (hphase : w.phase ≠ .ended) :
    s.runningJob = some j ∧ s.isRunning = true := by
  have hrun := h.single j w hw hphase
  have hdone : w.job.done = false := by
    rw [← Bool.not_eq_true, (h.work j w hw).done]
    exact hphase
  refine ⟨hrun, ?_⟩
  simp [isRunning, hrun, hw, hdone]

theorem inv_press {s : World} (h : s.Inv) (look : Look) :
    (s.press look).Inv := by
  have hnew : (!s.isRunning) = true → Inv { s with
      jobs := s.jobs ++ [newWork look]
      runningJob := some s.jobs.length
      pc := .opening s.jobs.length } := by
    intro hrun
    have hget : ∀ (j : ℕ) (w : Work), (s.jobs ++ [newWork look])[j]? = some w →
        s.jobs[j]? = some w ∨ j = s.jobs.length ∧ w = newWork look := by
      intro j w hw
      rw [List.getElem?_append] at hw
      split_ifs at hw with hlt
      · exact Or.inl hw
      · have hlast := List.getElem?_eq_some_iff.mp hw
        obtain ⟨hj, hw'⟩ := hlast
        have hj' : j - s.jobs.length = 0 := by simpa using hj
        right
        refine ⟨by omega, ?_⟩
        simpa [hj'] using hw'.symm
    refine ⟨?_, ?_, ?_, by simp, ?_, h.timer, h.fault⟩
    · intro j w hw
      rcases hget j w hw with hold | ⟨-, rfl⟩
      · exact h.work j w hold
      · exact Work.ok_newWork look
    · intro j w hw hphase
      rcases hget j w hw with hold | ⟨rfl, -⟩
      · have hrunning := (isRunning_of_unfinished h hold hphase).2
        rw [hrunning] at hrun
        cases hrun
      · rfl
    · intro j hj
      injection hj with hj
      simp only [List.length_append, List.length_singleton]
      omega
    · intro i d hd
      obtain ⟨w, hw, hrest⟩ := h.dialog i d hd
      refine ⟨w, ?_, hrest⟩
      have hlt := (List.getElem?_eq_some_iff.mp hw).1
      rw [List.getElem?_append_left hlt, hw]
  unfold press
  split
  · rename_i j hj hrunning
    refine ⟨h.work, h.single, ?_, by simp, h.dialog, h.timer, h.fault⟩
    intro i hi
    injection hi with hi
    subst hi
    unfold isRunning at hrunning
    split at hrunning
    · rename_i w hw
      rw [hj, Option.bind_some] at hw
      exact (List.getElem?_eq_some_iff.mp hw).1
    · cases hrunning
  · rename_i hcases
    apply hnew
    cases hrun : s.isRunning with
    | false => rfl
    | true =>
      have hsome := hrun
      unfold isRunning at hsome
      split at hsome
      · rename_i w hw
        obtain ⟨j, hj, -⟩ := Option.bind_eq_some_iff.mp hw
        exact (hcases j hj hrun).elim
      · cases hsome

theorem inv_openDialog {s : World} (h : s.Inv) {j : ℕ} (hpc : s.pc = .opening j) :
    (s.openDialog j).Inv := by
  have hlt := h.opening j hpc
  have hw : s.jobs[j]? = some s.jobs[j] := List.getElem?_eq_getElem hlt
  have hok := h.work j _ hw
  unfold openDialog
  rw [hw]
  dsimp only
  rw [if_neg hok.output_ne]
  refine ⟨h.work, h.single, by simp, ?_, ?_, ?_, h.fault⟩
  · intro i hi
    injection hi with hi
    subst hi
    rw [Heap.at?_alloc, if_pos rfl]
    exact ⟨_, rfl⟩
  · intro i d hd
    rw [Heap.at?_alloc] at hd
    split_ifs at hd with hi
    · cases hd
      refine ⟨_, hw, ?_, { userData := s.dialogs.next }, ?_, hi.symm, rfl⟩
      · constructor
        · intro _
          exact ⟨List.prefix_rfl, Or.inl rfl, rfl, rfl⟩
        · intro hdone
          cases hdone
      · rw [Heap.at?_alloc, if_pos rfl]
    · obtain ⟨w, hw', hshows, t, ht, hrest⟩ := h.dialog i d hd
      exact ⟨w, hw', hshows, t, Heap.at?_alloc_of_some ht _, hrest⟩
  · intro k t ht
    rw [Heap.at?_alloc] at ht
    split_ifs at ht with hk
    · cases ht
      exact ⟨_, (Heap.at?_alloc _ _ _).trans (if_pos rfl), hk.symm⟩
    · obtain ⟨d, hd, htimer⟩ := h.timer k t ht
      exact ⟨d, Heap.at?_alloc_of_some hd _, htimer⟩

/-- Writing one dialog and its timer. Two dialogs never share a timer. -/
theorem inv_write {s : World} (h : s.Inv) {i : ℕ} {d d' : Dialog} {u : Timer}
    {dialogs : Heap Dialog} {timers : Heap Timer} (hd : s.dialogs.at? i = some d)
    (hdialogs : ∀ j, dialogs.at? j = if j = i then some d' else s.dialogs.at? j)
    (htimers : ∀ k, timers.at? k = if k = d.timer then some u else s.timers.at? k)
    (hjob : d'.job = d.job) (htimer : d'.timer = d.timer) (hback : u.userData = i)
    (hpaused : u.paused = d'.shownDone)
    (hshows : ∀ w, s.jobs[d.job]? = some w → d'.Shows w.job) :
    Inv { s with
      dialogs := dialogs
      timers := timers } := by
  refine ⟨h.work, h.single, h.opening, ?_, ?_, ?_, h.fault⟩
  · intro j hj
    obtain ⟨e, he⟩ := h.refreshing j hj
    rw [hdialogs]
    split_ifs
    · exact ⟨d', rfl⟩
    · exact ⟨e, he⟩
  · intro j e he
    rw [hdialogs] at he
    split_ifs at he with hj
    · cases he
      obtain ⟨w, hw, -⟩ := h.dialog i d hd
      refine ⟨w, by rw [hjob, hw], hshows w hw, u, ?_, by rw [hback, hj], hpaused⟩
      rw [htimer, htimers, if_pos rfl]
    · obtain ⟨w, hw, he', t, ht, hto, hrest⟩ := h.dialog j e he
      refine ⟨w, hw, he', t, ?_, hto, hrest⟩
      have hother : e.timer ≠ d.timer := by
        intro hsame
        obtain ⟨-, -, -, u, hu, hui, -⟩ := h.dialog i d hd
        rw [hsame, hu] at ht
        cases ht
        exact hj (hto.symm.trans hui)
      rw [htimers, if_neg hother, ht]
  · intro k t ht
    rw [htimers] at ht
    split_ifs at ht with hk
    · cases ht
      exact ⟨d', by rw [hdialogs, if_pos hback], by rw [htimer, hk]⟩
    · obtain ⟨e, he, hek⟩ := h.timer k t ht
      have hother : t.userData ≠ i := by
        intro hsame
        rw [hsame, hd] at he
        cases he
        exact hk hek.symm
      exact ⟨e, by rw [hdialogs, if_neg hother, he], hek⟩

theorem at?_modify_of_some {α : Type} {l : Heap α} {i : ℕ} {a : α} (h : l.at? i = some a)
    (f : α → α) (j : ℕ) : (l.modify i f).at? j = if j = i then some (f a) else l.at? j := by
  rw [Heap.at?_modify]
  split_ifs with hj
  · rw [hj, h, Option.map_some]
  · rfl

theorem inv_refresh {s : World} (h : s.Inv) {i : ℕ} {d : Dialog} (hd : s.dialogs.at? i = some d) :
    (s.refresh i).Inv := by
  obtain ⟨w, hw, hshows, t, ht, hback, hpaused⟩ := h.dialog i d hd
  have hdraw : ∀ w', s.jobs[d.job]? = some w' → (d.draw w.job).Shows w'.job := by
    intro w' hw'
    rw [hw] at hw'
    cases hw'
    exact hshows.draw
  unfold refresh
  rw [hd]
  dsimp only
  rw [hw]
  dsimp only
  split_ifs with hup hdone
  · exact h
  · exact inv_write h hd (at?_modify_of_some hd _) (at?_modify_of_some ht _) rfl rfl hback
      hdone.symm hdraw
  · refine inv_write (u := t) h hd (at?_modify_of_some hd _) ?_ rfl rfl hback ?_ hdraw
    · intro k
      split_ifs with hk
      · rw [hk, ht]
      · rfl
    · have hrunning : w.job.done = false := Bool.not_eq_true _ ▸ hdone
      have hbefore : d.shownDone = false := by
        rw [← Bool.not_eq_true]
        exact fun hshown => hdone (hshows.finished hshown).1
      rw [hpaused, hbefore]
      exact hrunning.symm

theorem inv_close {s : World} (h : s.Inv) (i : ℕ) :
    Inv { s with dialogs := s.dialogs.modify i ({ · with closing := true }) } := by
  cases hd : s.dialogs.at? i with
  | none =>
    have hsame : ∀ j, (s.dialogs.modify i ({ · with closing := true })).at? j =
        s.dialogs.at? j := by
      intro j
      rw [Heap.at?_modify]
      split_ifs with hj
      · rw [hj, hd, Option.map_none]
      · rfl
    refine ⟨h.work, h.single, h.opening, ?_, ?_, ?_, h.fault⟩ <;> simp only [hsame]
    · exact h.refreshing
    · exact h.dialog
    · exact h.timer
  | some d =>
    obtain ⟨w, hw, hshows, t, ht, hback, hpaused⟩ := h.dialog i d hd
    refine inv_write (u := t) h hd (at?_modify_of_some hd _) ?_ rfl rfl hback hpaused ?_
    · intro k
      split_ifs with hk
      · rw [hk, ht]
      · rfl
    · intro w' hw'
      rw [hw] at hw'
      cases hw'
      exact ⟨hshows.unfinished, hshows.finished⟩

theorem inv_delete {s : World} (h : s.Inv) (hidle : s.pc = .idle) (i : ℕ) : (s.delete i).Inv := by
  unfold delete
  cases hd : s.dialogs.at? i with
  | none => exact h
  | some d =>
    obtain ⟨w, hw, hshows, t, ht, hback, hpaused⟩ := h.dialog i d hd
    dsimp only
    split_ifs
    · refine ⟨h.work, h.single, h.opening, by simp [hidle], ?_, ?_, by simp [h.fault, ht]⟩
      · intro j e he
        rw [Heap.at?_free] at he
        split_ifs at he with hj
        obtain ⟨w', hw', hshows', u, hu, hto, hrest⟩ := h.dialog j e he
        refine ⟨w', hw', hshows', u, ?_, hto, hrest⟩
        have hother : e.timer ≠ d.timer := by
          intro hsame
          rw [hsame, ht] at hu
          cases hu
          exact hj (hto.symm.trans hback)
        rw [Heap.at?_free, if_neg hother, hu]
      · intro k u hu
        rw [Heap.at?_free] at hu
        split_ifs at hu with hk
        obtain ⟨e, he, hek⟩ := h.timer k u hu
        have hother : u.userData ≠ i := by
          intro hsame
          rw [hsame, hd] at he
          cases he
          exact hk hek.symm
        exact ⟨e, by rw [Heap.at?_free, if_neg hother, he], hek⟩
    · exact h

theorem inv_worker {s : World} (h : s.Inv) (j : ℕ) (e : WorkerEvent) :
    Inv { s with jobs := s.jobs.modify j (·.step e) } := by
  have hget : ∀ (i : ℕ) (w : Work), (s.jobs.modify j (·.step e))[i]? = some w →
      ∃ v, s.jobs[i]? = some v ∧ (w = v ∨ w = v.step e) := by
    intro i w hw
    rw [List.getElem?_modify] at hw
    split_ifs at hw with hij
    · obtain ⟨v, hv, rfl⟩ := Option.map_eq_some_iff.mp hw
      exact ⟨v, hv, Or.inr rfl⟩
    · exact ⟨w, by simpa using hw, Or.inl rfl⟩
  refine ⟨?_, ?_, ?_, h.refreshing, ?_, h.timer, h.fault⟩
  · intro i w hw
    obtain ⟨v, hv, rfl | rfl⟩ := hget i w hw
    · exact h.work i w hv
    · exact (h.work i v hv).step e
  · intro i w hw hphase
    obtain ⟨v, hv, rfl | rfl⟩ := hget i w hw
    · exact h.single i w hv hphase
    · apply h.single i v hv
      intro hend
      have hok := h.work i v hv
      rw [hok.step_of_done (hok.done.mpr hend)] at hphase
      exact hphase hend
  · intro i hi
    rw [List.length_modify]
    exact h.opening i hi
  · intro i d hd
    obtain ⟨w, hw, hshows, hrest⟩ := h.dialog i d hd
    have hok := h.work d.job w hw
    by_cases hij : j = d.job
    · subst hij
      refine ⟨w.step e, by simp [hw], ?_, hrest⟩
      refine hshows.mono (Work.output_step w e) fun hdone => ?_
      rw [hok.step_of_done hdone]
    · refine ⟨w, ?_, hshows, hrest⟩
      simpa [List.getElem?_modify, hij] using hw

theorem inv_step {s : World} (h : s.Inv) (e : Event) : (s.step e).Inv := by
  cases e with
  | press look =>
    unfold step
    split_ifs
    · exact inv_press h look
    · exact h
  | openDialog =>
    simp only [step]
    split
    · rename_i j hpc
      exact inv_openDialog h hpc
    · exact h
  | refreshDialog =>
    simp only [step]
    split
    · rename_i i hpc
      obtain ⟨d, hd⟩ := h.refreshing i hpc
      exact inv_of_pc (inv_refresh h hd)
    · exact h
  | poll k =>
    simp only [step, poll]
    split_ifs with hidle
    · split
      · rename_i t ht
        obtain ⟨d, hd, -⟩ := h.timer k t ht
        split_ifs
        · exact h
        · exact inv_refresh h hd
      · exact h
    · exact h
  | close i =>
    simp only [step]
    split_ifs
    · exact inv_close h i
    · exact h
  | delete i =>
    simp only [step]
    split_ifs with hidle
    · exact inv_delete h hidle i
    · exact h
  | worker j e => exact inv_worker h j e

theorem inv_run (es : List Event) : (run step {} es).Inv :=
  invariant_always (I := Inv) (fun _ e h => inv_step h e) {} es inv_init

/-! ### A finished dialog -/

/-- What the reader sees of `d` is what there was of `d₀`, and it is final. -/
structure Frozen (d₀ d : Dialog) : Prop where
  shownDone : d.shownDone = true
  text : d.text = d₀.text
  title : d.title = d₀.title
  spinnerHidden : d.spinnerHidden = d₀.spinnerHidden

/-- Dialog `i` is gone, or shows what `d₀` did. -/
def Settled (i : ℕ) (d₀ : Dialog) (s : World) : Prop :=
  s.Inv ∧ i < s.dialogs.next ∧ ∀ d, s.dialogs.at? i = some d → Frozen d₀ d

theorem settled_of_next {i : ℕ} {d₀ : Dialog} {s s' : World} (h : Settled i d₀ s) (hinv : s'.Inv)
    (hnext : s.dialogs.next ≤ s'.dialogs.next)
    (hat : ∀ d, s'.dialogs.at? i = some d → s.dialogs.at? i = some d) : Settled i d₀ s' :=
  ⟨hinv, Nat.lt_of_lt_of_le h.2.1 hnext, fun d hd => h.2.2 d (hat d hd)⟩

theorem settled_refresh {i : ℕ} {d₀ : Dialog} {s : World} (h : Settled i d₀ s) {j : ℕ} {e : Dialog}
    (he : s.dialogs.at? j = some e) : Settled i d₀ (s.refresh j) := by
  obtain ⟨hinv, hlt, hfrozen⟩ := h
  refine ⟨inv_refresh hinv he, ?_, ?_⟩
  · obtain ⟨w, hw, -⟩ := hinv.dialog j e he
    simp only [refresh, he, hw]
    split_ifs <;> simpa using hlt
  · obtain ⟨w, hw, hshows, -⟩ := hinv.dialog j e he
    intro d hd
    simp only [refresh, he, hw] at hd
    split_ifs at hd with hup
    · exact hfrozen d hd
    all_goals
      rw [at?_modify_of_some he] at hd
      split_ifs at hd with hij
      · subst hij
        -- a finished dialog is up to date
        have hfin := hshows.finished (hfrozen e he).shownDone
        exfalso
        apply hup
        simp [Dialog.upToDate, hfin.1, hfin.2.1, (hfrozen e he).shownDone]
      · exact hfrozen d hd

theorem settled_step {i : ℕ} {d₀ : Dialog} {s : World} (h : Settled i d₀ s) (e : Event) :
    Settled i d₀ (s.step e) := by
  have hinv := inv_step h.1 e
  cases e with
  | press look =>
    refine settled_of_next h hinv ?_ ?_ <;> simp only [step, press]
    · split_ifs
      · split <;> exact le_rfl
      · exact le_rfl
    · intro d hd
      split_ifs at hd
      · split at hd <;> exact hd
      · exact hd
  | openDialog =>
    simp only [step]
    split
    · rename_i j hpc
      have hw := List.getElem?_eq_getElem (h.1.opening j hpc)
      refine settled_of_next h (inv_openDialog h.1 hpc) ?_ ?_ <;> simp only [openDialog, hw]
      · simp
      · intro d hd
        have hlt := h.2.1
        rwa [Heap.at?_alloc, if_neg (by omega)] at hd
    · exact h
  | refreshDialog =>
    simp only [step]
    split
    · rename_i j hpc
      obtain ⟨d, hd⟩ := h.1.refreshing j hpc
      have hset := settled_refresh h hd
      exact ⟨inv_of_pc hset.1, hset.2⟩
    · exact h
  | poll k =>
    simp only [step, poll]
    split_ifs with hidle
    · split
      · rename_i t ht
        obtain ⟨d, hd, -⟩ := h.1.timer k t ht
        split_ifs
        · exact h
        · exact settled_refresh h hd
      · exact h
    · exact h
  | close j =>
    simp only [step]
    split_ifs with hidle
    · refine ⟨inv_close h.1 j, by simpa using h.2.1, fun d hd => ?_⟩
      rw [Heap.at?_modify] at hd
      split_ifs at hd
      · obtain ⟨d', hd', rfl⟩ := Option.map_eq_some_iff.mp hd
        have hf := h.2.2 d' hd'
        exact ⟨hf.shownDone, hf.text, hf.title, hf.spinnerHidden⟩
      · exact h.2.2 d hd
    · exact h
  | delete j =>
    refine settled_of_next h hinv ?_ ?_ <;> simp only [step, delete]
    · split_ifs
      · split
        · split_ifs <;> simp
        · exact le_rfl
      · exact le_rfl
    · intro d hd
      split_ifs at hd
      · split at hd
        · split_ifs at hd
          · rw [Heap.at?_free] at hd
            split_ifs at hd
            exact hd
          · exact hd
        · exact hd
      · exact hd
  | worker j e => exact ⟨hinv, h.2⟩

theorem settled_run {i : ℕ} {d₀ : Dialog} {s : World} (h : Settled i d₀ s) (es : List Event) :
    Settled i d₀ (run step s es) :=
  invariant_always (I := Settled i d₀) (fun _ e h => settled_step h e) s es h

/-! ### Every interleaving -/

theorem runs_exclusive (es : List Event) : 
    (∀ (j k : ℕ) (w v : Work), (run step {} es).jobs[j]? = some w →
      (run step {} es).jobs[k]? = some v →
      w.phase ≠ .ended → v.phase ≠ .ended → j = k) ∧
    ∀ (look : Look) (j : ℕ) (w : Work), (run step {} es).jobs[j]? = some w → w.phase ≠ .ended →
      (run step {} es).pc = .idle →
      (step (run step {} es) (.press look)).jobs = (run step {} es).jobs ∧
        (step (run step {} es) (.press look)).pc = .opening j := by
  have h := inv_run es
  constructor
  · intro j k w v hw hv hj hk
    have hrun := h.single j w hw hj
    rw [h.single k v hv hk] at hrun
    injection hrun with hrun
    exact hrun.symm
  · intro look j w hw hj hidle
    obtain ⟨hrun, hrunning⟩ := isRunning_of_unfinished h hw hj
    simp only [step, if_pos hidle, press, hrun, hrunning]
    exact ⟨trivial, trivial⟩

/-- A poll never reaches a dialog that was freed, and every dialog is polled by one timer. -/
theorem timers_alive (es : List Event) :
    (run step {} es).fault = false ∧
      (∀ k t, (run step {} es).timers.at? k = some t →
        ∃ d, (run step {} es).dialogs.at? t.userData = some d ∧ d.timer = k) ∧
      ∀ i d, (run step {} es).dialogs.at? i = some d →
        ∃ t, (run step {} es).timers.at? d.timer = some t ∧ t.userData = i := by
  have h := inv_run es
  refine ⟨h.fault, h.timer, fun i d hd => ?_⟩
  obtain ⟨-, -, -, t, ht, hback, -⟩ := h.dialog i d hd
  exact ⟨t, ht, hback⟩

theorem text_after_refresh {s : World} (h : s.Inv) {i : ℕ} {d : Dialog}
    (hd : s.dialogs.at? i = some d) :
    ∃ d' w, (s.refresh i).dialogs.at? i = some d' ∧ s.jobs[d.job]? = some w ∧
      d'.text = w.job.drawn := by
  obtain ⟨w, hw, hshows, -⟩ := h.dialog i d hd
  have hne := (h.work d.job w hw).output_ne
  simp only [refresh, hd, hw]
  split_ifs with hup
  · exact ⟨d, w, hd, rfl, hshows.text_of_upToDate hne hup⟩
  all_goals
    refine ⟨d.draw w.job, w, ?_, rfl, rfl⟩
    rw [at?_modify_of_some hd, if_pos rfl]

/-- What a dialog shows was said; a poll brings it up to date; and once its timer stands,
it shows the whole of a finished run, and goes on to. -/
theorem dialog_shows (es : List Event) {i : ℕ} {d : Dialog}
    (hd : (run step {} es).dialogs.at? i = some d) :
    ∃ w t, (run step {} es).jobs[d.job]? = some w ∧ d.Shows w.job ∧
      (run step {} es).timers.at? d.timer = some t ∧
      ((run step {} es).pc = .idle → ∃ d',
        (step (run step {} es) (.poll d.timer)).dialogs.at? i = some d' ∧ d'.text = w.job.drawn) ∧
      (t.paused = true → w.job.done = true ∧ d.text = w.job.output ++ outcome w.job.rc ∧
        ∀ more d', (run step (run step {} es) more).dialogs.at? i = some d' → Frozen d d') := by
  have h := inv_run es
  obtain ⟨w, hw, hshows, t, ht, hback, hpaused⟩ := h.dialog i d hd
  have hne := (h.work d.job w hw).output_ne
  refine ⟨w, t, hw, hshows, ht, fun hidle => ?_, fun hpause => ?_⟩
  · simp only [step, if_pos hidle, poll, ht, hback]
    split_ifs with hpause
    · have hfin := hshows.finished (hpaused.symm.trans hpause)
      exact ⟨d, hd, hfin.2.2.1⟩
    · obtain ⟨d', w', hd', hw', htext⟩ := text_after_refresh h hd
      rw [hw] at hw'
      cases hw'
      exact ⟨d', hd', htext⟩
  · have hdone := hpaused.symm.trans hpause
    have hfin := hshows.finished hdone
    refine ⟨hfin.1, ?_, fun more d' hd' => ?_⟩
    · rw [hfin.2.2.1, Job.drawn, if_pos hfin.1]
    · have hsettled : Settled i d (run step {} es) := by
        refine ⟨h, Heap.lt_next_of_at? hd, fun e he => ?_⟩
        rw [hd] at he
        cases he
        exact ⟨hdone, rfl, rfl, rfl⟩
      exact (settled_run hsettled more).2.2 d' hd'

-- A script that says "ok", leaves a line open and exits with 0.
def session : List Event :=
  [.press (.found "/root".toList), .openDialog, .refreshDialog, .worker 0 (.launched none),
    .worker 0 (.write "ok\nby".toList), .worker 0 .fgets, .poll 0, .worker 0 .fgets,
    .worker 0 (.write "e".toList), .worker 0 .close, .worker 0 .fgets, .worker 0 .fgets,
    .worker 0 (.wait (.ok 0)), .worker 0 .finish, .poll 0]

theorem session_shown :
    ∃ d, (run step {} session).dialogs.at? 0 = some d ∧
      ∃ w : Work, d.text = w.job.output ++ outcome w.job.rc ∧
        ∀ more d', (run step (run step {} session) more).dialogs.at? 0 = some d' → Frozen d d' := by
  have hsome : ((run step {} session).dialogs.at? 0).isSome := by decide +kernel
  have htimer : ((run step {} session).dialogs.at? 0).map (·.timer) = some 0 := by decide +kernel
  have hpaused : ((run step {} session).timers.at? 0).map (·.paused) = some true := by
    decide +kernel
  obtain ⟨d, hd⟩ := Option.isSome_iff_exists.mp hsome
  obtain ⟨w, t, -, -, ht, -, hfinal⟩ := dialog_shows session hd
  rw [hd, Option.map_some, Option.some_inj] at htimer
  rw [htimer] at ht
  rw [ht, Option.map_some, Option.some_inj] at hpaused
  exact ⟨d, hd, w, (hfinal hpaused).2⟩

/-- What a finished job holds of what its script wrote. -/
theorem job_output (es : List Event) {j : ℕ} {w : Work} (hw : (run step {} es).jobs[j]? = some w)
    (hdone : w.job.done = true) :
    ∃ extra, w.job.output = w.heading ++ Fgets.text room w.written ++ extra ∧
      (extra = [] ∨ w.job.rc = 1 ∧ ∃ what, extra = couldNotRun w.script what) ∧
      (w.job.output = w.heading ++ w.written ++ extra ↔ '\x00' ∉ w.written) := by
  have hok := (inv_run es).work j w hw
  have hphase := hok.done.mp hdone
  have hpipe := hok.drained (by simp [hphase])
  obtain ⟨extra, ⟨said, hout, hsame⟩, hextra⟩ := hok.heard
  have htext := hsame [] fun _ => rfl
  rw [List.append_nil, List.append_nil, hpipe, Fgets.text_nil, List.append_nil] at htext
  have hsaid : w.job.output = w.heading ++ Fgets.text room w.written ++ extra := by
    rw [hout, ← htext]
  refine ⟨extra, hsaid, ?_, ?_⟩
  · rcases hextra with hnil | ⟨hwhat, hend | hend⟩
    · exact Or.inl hnil
    · rw [hphase] at hend
      cases hend
    · exact Or.inr ⟨hend.2, hwhat⟩
  · rw [← Fgets.text_eq_self_iff room, hsaid]
    constructor
    · intro heq
      exact List.append_cancel_left (List.append_cancel_right heq)
    · intro heq
      rw [heq]

theorem session_output :
    ∃ w : Work, (run step {} session).jobs[0]? = some w ∧ w.written = "ok\nbye".toList ∧
      w.job.output = w.heading ++ w.written := by
  have hsome : ((run step {} session).jobs[0]?).isSome := by decide +kernel
  have hfacts : ((run step {} session).jobs[0]?).map
      (fun w => (w.job.done, w.job.rc, decide (w.written = "ok\nbye".toList))) =
        some (true, 0, true) := by decide +kernel
  obtain ⟨w, hw⟩ := Option.isSome_iff_exists.mp hsome
  rw [hw, Option.map_some, Option.some_inj, Prod.mk.injEq, Prod.mk.injEq] at hfacts
  obtain ⟨hdone, hrc, hwritten⟩ := hfacts
  rw [decide_eq_true_iff] at hwritten
  obtain ⟨extra, -, hextra, hclean⟩ := job_output session hw hdone
  have hnil : extra = [] := by
    rcases hextra with hnil | ⟨hone, -⟩
    · exact hnil
    · omega
  have hout := hclean.mpr (by rw [hwritten]; decide +kernel)
  rw [hnil, List.append_nil] at hout
  exact ⟨w, hw, hwritten, hout⟩

end World

end GuppyScreen.UpdateDialog
