import Mathlib.Data.List.DropRight
import Mathlib.Logic.Function.Basic
import GuppyScreen.Lib.Run
import GuppyScreen.Utils

/-!
# The update check (update_check.cpp)

A check runs `update.sh --check` on a detached thread, which writes the answer into
a `Check` it shares with the LVGL thread. A timer collects the answer. Disabling the
setting drops the check in flight and three minutes of silence abandon it; its thread
goes on in both cases and may still write. Everything but the write of a thread runs
on the LVGL thread, and the write is under the lock of its `Check`, so a run is a
sequence of whole callbacks and writes.
-/

namespace GuppyScreen.UpdateCheck
open Lib Function

/-! ### One check -/

structure Check where
  done : Bool := false
  status : String := ""
  latest : String := ""
  deriving DecidableEq

/-- The status and the version after one line of the output. -/
def readLine (found : String × String) (line : List Char) : String × String :=
  if '=' ∈ line then
    let key := String.ofList (line.takeWhile (· ≠ '='))
    let value := String.ofList
      (((line.dropWhile (· ≠ '=')).drop 1).rdropWhile fun c => c = '\r' || c = ' ')
    if key = "status" then (value, found.2)
    else if key = "latest" then (found.1, value)
    else found
  else found

/-- What the thread leaves behind when its process printed `out`. -/
def runCheck (out : String) : Check :=
  let found := (out.toList.splitOn '\n').foldl readLine ("", "")
  ⟨true, found.1, found.2⟩

example : runCheck "current=1.2\nstatus=available\r\nlatest=v1.3 \n" =
    ⟨true, "available", "v1.3"⟩ := by
  decide +kernel

/-! ### The timers of LVGL -/

inductive Callback where
  | poll
  | collect
  deriving DecidableEq

structure Timer where
  cb : Callback
  period : UInt32
  deriving DecidableEq

/-- The timers LVGL runs, by a number that is not used again, and the two pointers
the code keeps to them. -/
structure Timers where
  live : ℕ → Option Timer := fun _ => none
  next : ℕ := 0
  pollTimer : Option ℕ := none
  collectTimer : Option ℕ := none

namespace Timers

def pointer (t : Timers) : Callback → Option ℕ
  | .poll => t.pollTimer
  | .collect => t.collectTimer

def point (t : Timers) : Callback → Option ℕ → Timers
  | .poll, p => { t with pollTimer := p }
  | .collect, p => { t with collectTimer := p }

/-- `lv_timer_del`. -/
def del (t : Timers) (i : ℕ) : Timers := { t with live := update t.live i none }

/-- `lv_timer_create`, the result kept in the pointer. -/
def create (t : Timers) (cb : Callback) (period : UInt32) : Timers :=
  point { t with
    live := update t.live t.next (some ⟨cb, period⟩)
    next := t.next + 1 } cb (some t.next)

/-- The timer a pointer has is deleted and the pointer cleared. -/
def stop (t : Timers) (cb : Callback) : Timers :=
  match t.pointer cb with
  | none => t
  | some i => (t.del i).point cb none

def runs (t : Timers) (i : ℕ) : Option Callback := (t.live i).map (·.cb)

end Timers

/-! ### The state -/

def collectMs : ℕ := 500
def abandonMs : ℕ := 3 * 60 * 1000

/-- What became of a check, and the runs of the listener. -/
inductive Mark where
  | abandoned (check : ℕ)
  | dropped (check : ℕ)
  | published (check : ℕ)
  | listened
  deriving DecidableEq

/-- `checks` has every `Check` that was made, as the threads keep theirs. -/
structure World where
  checks : List Check := []
  inFlight : Option ℕ := none
  timers : Timers := {}
  waitedMs : ℕ := 0
  available : Bool := false
  availableVersion : String := ""
  listener : Bool := false
  log : List Mark := []

/-- The settings are as the configuration has them; `script` says whether
`script_path` finds `update.sh`, which `reconfigure` asks twice. -/
inductive Event where
  | setListener
  | reconfigure (enabled hours : Json) (script again : Bool)
  | pollTick (timer : ℕ) (script : Bool)
  | collectTick (timer : ℕ)
  | complete (check : ℕ) (out : String)

/-- `check_enabled`, `none` where the value is neither missing nor a boolean. -/
def checkEnabled : Json → Option Bool
  | .null => some true
  | .bool b => some b
  | _ => none

/-- Whether a `reconfigure` saw the setting off, `none` for the other events. -/
def Event.off : Event → Option Bool
  | .reconfigure enabled _ _ _ => some (checkEnabled enabled = some false)
  | _ => none

def intervalHours (v : Json) : ℤ :=
  let hours := if v.isNumber then KUtils.toInt v else 24
  if hours < 1 then 1 else hours

def periodMs (hours : Json) : UInt32 := UInt32.ofInt (intervalHours hours) * 60 * 60 * 1000

namespace World

def offer (w : World) : Bool × String := (w.available, w.availableVersion)

def mark (w : World) (m : Mark) : World := { w with log := m :: w.log }

def callListener (w : World) : World := if w.listener then w.mark .listened else w

def setAvailable (w : World) (nowAvailable : Bool) (version : String) : World :=
  if w.available = nowAvailable ∧ w.availableVersion = version then w
  else { w with
    available := nowAvailable
    availableVersion := version }.callListener

/-- Only "available" is an offer. -/
def publish (w : World) (check : Check) : World :=
  w.setAvailable (check.status = "available")
    (if check.status = "available" then check.latest else "")

def checkNow (w : World) (script : Bool) : World :=
  if w.inFlight.isSome then w
  else if !script then w
  else { w with
    checks := w.checks ++ [{}]
    inFlight := some w.checks.length
    waitedMs := 0
    timers :=
      if w.timers.collectTimer = none then w.timers.create .collect (.ofNat collectMs)
      else w.timers }

/-- `collect` without the check in flight: it ends with the timer that ran it. -/
def endCollect (w : World) (timer : ℕ) : World :=
  { w with
    inFlight := none
    timers := (w.timers.del timer).point .collect none }

def wait (w : World) : World := { w with waitedMs := w.waitedMs + collectMs }

def collect (w : World) (timer : ℕ) : World :=
  match w.inFlight with
  | none => w.endCollect timer
  | some id =>
    let check := w.checks.getD id {}
    if check.done then ((w.endCollect timer).mark (.published id)).publish check
    else if abandonMs ≤ w.wait.waitedMs then (w.wait.endCollect timer).mark (.abandoned id)
    else w.wait

def drop (w : World) : World :=
  match w.inFlight with
  | none => w
  | some id => { w with inFlight := none }.mark (.dropped id)

/-- The disabled branch of `reconfigure`. -/
def disable (w : World) : World :=
  { w.drop with timers := w.timers.stop .collect }.setAvailable false ""

def reconfigure (w : World) (enabled hours : Json) (script again : Bool) : World :=
  let w := { w with timers := w.timers.stop .poll }
  match checkEnabled enabled with
  | none => w
  | some false => w.disable
  | some true =>
    if !script then w
    else { w with timers := w.timers.create .poll (periodMs hours) }.checkNow again

/-- The write of the thread of `check`, which it does once. -/
def complete (w : World) (check : ℕ) (out : String) : World :=
  if (w.checks.getD check {}).done then w
  else { w with checks := w.checks.set check (runCheck out) }

/-- LVGL runs the callback of a timer that is live. -/
def step (w : World) : Event → World
  | .setListener => { w with listener := true }
  | .reconfigure enabled hours script again => w.reconfigure enabled hours script again
  | .pollTick timer script =>
    if w.timers.runs timer = some .poll then w.checkNow script else w
  | .collectTick timer =>
    if w.timers.runs timer = some .collect then w.collect timer else w
  | .complete check out => w.complete check out

end World

/-! ### Every live timer has its pointer -/

namespace Timers

structure Ok (t : Timers) : Prop where
  bound : ∀ i, t.next ≤ i → t.live i = none
  pointed : ∀ cb i, t.pointer cb = some i ↔ t.runs i = some cb

theorem pointer_point (t : Timers) (cb d : Callback) (p : Option ℕ) :
    (t.point cb p).pointer d = if d = cb then p else t.pointer d := by
  cases cb <;> cases d <;> rfl

@[simp] theorem runs_point (t : Timers) (cb : Callback) (p : Option ℕ) (i : ℕ) :
    (t.point cb p).runs i = t.runs i := by
  cases cb <;> rfl

@[simp] theorem live_point (t : Timers) (cb : Callback) (p : Option ℕ) :
    (t.point cb p).live = t.live := by
  cases cb <;> rfl

@[simp] theorem next_point (t : Timers) (cb : Callback) (p : Option ℕ) :
    (t.point cb p).next = t.next := by
  cases cb <;> rfl

theorem ok_empty : Ok {} := by
  constructor
  · intro i _
    rfl
  · intro cb i
    cases cb <;> simp [pointer, runs]

theorem ok_create {t : Timers} (h : t.Ok) {cb : Callback} (hp : t.pointer cb = none)
    (period : UInt32) : (t.create cb period).Ok := by
  have hruns : ∀ i, (t.create cb period).runs i = if i = t.next then some cb else t.runs i := by
    intro i
    unfold create
    rw [runs_point]
    by_cases hi : i = t.next
    · simp [runs, hi]
    · simp [runs, hi]
  constructor
  · intro i hi
    have hle : t.next + 1 ≤ i := by simpa [create] using hi
    have hne : i ≠ t.next := by omega
    simpa [create, hne] using h.bound i (by omega)
  · intro d i
    have hfresh : t.runs t.next = none := by simp [runs, h.bound t.next (le_refl _)]
    rw [hruns i, create, pointer_point]
    by_cases hd : d = cb
    · -- the pointer had nothing before, so nothing else runs this callback
      subst hd
      have hnone : t.runs i ≠ some d := by
        rw [Ne, ← h.pointed d i, hp]
        simp
      by_cases hi : i = t.next
      · simp [hi]
      · simp [hi, hnone, Ne.symm hi]
    · have hold : t.pointer d = some i ↔ t.runs i = some d := h.pointed d i
      rw [if_neg hd]
      by_cases hi : i = t.next
      · subst hi
        rw [hfresh] at hold
        simpa [Ne.symm hd, pointer] using hold
      · simpa [hi, pointer] using hold

theorem ok_del {t : Timers} (h : t.Ok) {cb : Callback} {i : ℕ} (hp : t.pointer cb = some i) :
    ((t.del i).point cb none).Ok := by
  have hruns : ∀ j, ((t.del i).point cb none).runs j = if j = i then none else t.runs j := by
    intro j
    rw [runs_point]
    by_cases hj : j = i
    · simp [runs, del, hj]
    · simp [runs, del, hj]
  constructor
  · intro j hj
    have hold : t.live j = none := h.bound j (by simpa [del] using hj)
    by_cases hji : j = i
    · simp [del, hji]
    · simp [del, hji, hold]
  · intro d j
    have hcb : t.runs i = some cb := (h.pointed cb i).mp hp
    have hold : t.pointer d = some j ↔ t.runs j = some d := h.pointed d j
    rw [hruns j, pointer_point]
    by_cases hd : d = cb
    · subst hd
      by_cases hj : j = i
      · simp [hj]
      · have hne : t.runs j ≠ some d := by
          rw [Ne, ← hold, hp]
          simpa using Ne.symm hj
        simp [hj, hne]
    · rw [if_neg hd]
      by_cases hj : j = i
      · subst hj
        have hne : t.runs j ≠ some d := by
          rw [hcb]
          simpa using Ne.symm hd
        simpa [hne, pointer, del] using hold
      · simpa [hj, pointer, del] using hold

theorem ok_stop {t : Timers} (h : t.Ok) (cb : Callback) : (t.stop cb).Ok := by
  unfold stop
  cases hp : t.pointer cb with
  | none => exact h
  | some i => exact ok_del h hp

theorem pointer_stop (t : Timers) (cb d : Callback) :
    (t.stop cb).pointer d = if d = cb then none else t.pointer d := by
  unfold stop
  cases hp : t.pointer cb with
  | none =>
    by_cases hd : d = cb
    · simp [hd, hp]
    · simp [hd]
  | some i =>
    rw [pointer_point]
    cases d <;> rfl

theorem pointer_create (t : Timers) (cb d : Callback) (period : UInt32) :
    (t.create cb period).pointer d = if d = cb then some t.next else t.pointer d := by
  unfold create
  rw [pointer_point]
  cases d <;> rfl

theorem pointer_endCollect (t : Timers) (i : ℕ) (d : Callback) :
    ((t.del i).point .collect none).pointer d = if d = .collect then none else t.pointer d := by
  rw [pointer_point]
  cases d <;> rfl

end Timers

/-! ### What became of the checks -/

def Mark.check : Mark → Option ℕ
  | .abandoned id => some id
  | .dropped id => some id
  | .published id => some id
  | .listened => none

namespace World

/-- A check that has a mark is not in flight any more and has only that one. -/
structure Inv (w : World) : Prop where
  timers : w.timers.Ok
  collecting : w.timers.pointer .collect = none ↔ w.inFlight = none
  started : ∀ id, w.inFlight = some id → id < w.checks.length
  marked : ∀ m ∈ w.log, ∀ id, m.check = some id → id < w.checks.length ∧ w.inFlight ≠ some id
  once : ∀ id, .published id ∈ w.log → ∀ m ∈ w.log, m.check = some id → m = .published id
  offered : w.available = true → ∃ id, .published id ∈ w.log ∧
    w.checks[id]? = some ⟨true, "available", w.availableVersion⟩

theorem inv_init : Inv {} where
  timers := Timers.ok_empty
  collecting := by simp [Timers.pointer]
  started := by simp
  marked := by simp
  once := by simp
  offered := by simp

theorem inv_callListener {w : World} (h : w.Inv) : w.callListener.Inv := by
  unfold callListener
  split_ifs
  · refine ⟨h.timers, h.collecting, h.started, ?_, ?_, ?_⟩
    · intro m hm id hid
      rcases List.mem_cons.mp hm with rfl | hm
      · cases hid
      · exact h.marked m hm id hid
    · intro id hid m hm hcheck
      have hold : .published id ∈ w.log := by simpa [mark] using hid
      rcases List.mem_cons.mp hm with rfl | hm
      · cases hcheck
      · exact h.once id hold m hm hcheck
    · intro hav
      obtain ⟨id, hid, hcheck⟩ := h.offered hav
      exact ⟨id, List.mem_cons_of_mem _ hid, hcheck⟩
  · exact h

theorem inv_setAvailable {w : World} (h : w.Inv) (nowAvailable : Bool) (version : String)
    (hoffer : nowAvailable = true → ∃ id, .published id ∈ w.log ∧
      w.checks[id]? = some ⟨true, "available", version⟩) :
    (w.setAvailable nowAvailable version).Inv := by
  unfold setAvailable
  split_ifs
  · exact h
  · exact inv_callListener ⟨h.timers, h.collecting, h.started, h.marked, h.once, hoffer⟩

theorem inv_settle {w : World} (h : w.Inv) {id : ℕ} (hid : w.inFlight = some id) {m : Mark}
    (hm : m.check = some id) {t : Timers} (ht : t.Ok) (hc : t.pointer .collect = none) :
    Inv { w with
      inFlight := none
      timers := t
      log := m :: w.log } := by
  have hfree : ∀ k ∈ w.log, k.check ≠ some id := by
    intro k hk hcheck
    exact (h.marked k hk id hcheck).2 hid
  refine ⟨ht, by simp [hc], by simp, ?_, ?_, ?_⟩
  · intro k hk i hi
    refine ⟨?_, by simp⟩
    rcases List.mem_cons.mp hk with rfl | hk
    · rw [hm] at hi
      cases hi
      exact h.started id hid
    · exact (h.marked k hk i hi).1
  · intro i hi k hk hcheck
    rcases List.mem_cons.mp hk with rfl | hk
    · rcases List.mem_cons.mp hi with hi | hi
      · exact hi.symm
      · have hsame : some i = some id := hcheck.symm.trans hm
        exact absurd hsame (hfree (.published i) hi)
    · rcases List.mem_cons.mp hi with hi | hi
      · have hsame : some i = some id := by
          rw [← hm, ← hi]
          rfl
        rw [hsame] at hcheck
        exact absurd hcheck (hfree k hk)
      · exact h.once i hi k hk hcheck
  · intro hav
    obtain ⟨i, hi, hcheck⟩ := h.offered hav
    exact ⟨i, List.mem_cons_of_mem _ hi, hcheck⟩

theorem inv_publish {w : World} (h : w.Inv) {id : ℕ} {check : Check} (hdone : check.done = true)
    (hid : .published id ∈ w.log) (hcheck : w.checks[id]? = some check) :
    (w.publish check).Inv := by
  refine inv_setAvailable h _ _ ?_
  intro hav
  have hstatus : check.status = "available" := of_decide_eq_true hav
  refine ⟨id, hid, ?_⟩
  rw [if_pos hstatus, ← hstatus, ← hdone]
  exact hcheck

theorem inv_timers {w : World} (h : w.Inv) {t : Timers} (ht : t.Ok)
    (hc : t.pointer .collect = w.timers.pointer .collect) : Inv { w with timers := t } := by
  refine ⟨ht, ?_, h.started, h.marked, h.once, h.offered⟩
  rw [hc]
  exact h.collecting

theorem inv_checkNow {w : World} (h : w.Inv) (script : Bool) : (w.checkNow script).Inv := by
  unfold checkNow
  cases hf : w.inFlight with
  | some id => exact h
  | none =>
    have hc : w.timers.pointer .collect = none := h.collecting.mpr hf
    cases script with
    | false => exact h
    | true =>
      have hcollect : w.timers.collectTimer = none := hc
      simp only [Option.isSome_none, Bool.false_eq_true, if_false, Bool.not_true, hcollect, if_true]
      refine ⟨Timers.ok_create h.timers hc _, ?_, ?_, ?_, h.once, ?_⟩
      · simp [Timers.pointer_create]
      · intro id hid
        cases hid
        simp
      · intro m hm id hid
        have hlt := (h.marked m hm id hid).1
        simp only [List.length_append, List.length_singleton, ne_eq, Option.some.injEq]
        omega
      · intro hav
        obtain ⟨id, hid, hcheck⟩ := h.offered hav
        exact ⟨id, hid, List.getElem?_append_left (h.marked _ hid id rfl).1 ▸ hcheck⟩

theorem inv_collect {w : World} (h : w.Inv) {timer : ℕ}
    (ht : w.timers.runs timer = some .collect) : (w.collect timer).Inv := by
  have hp : w.timers.pointer .collect = some timer := (h.timers.pointed .collect timer).mpr ht
  have hok : ((w.timers.del timer).point .collect none).Ok := Timers.ok_del h.timers hp
  have hend : ((w.timers.del timer).point .collect none).pointer .collect = none := by
    simp [Timers.pointer_endCollect]
  have hwait : w.wait.Inv :=
    ⟨h.timers, h.collecting, h.started, h.marked, h.once, h.offered⟩
  unfold collect
  cases hf : w.inFlight with
  | none =>
    rw [h.collecting.mpr hf] at hp
    cases hp
  | some id =>
    have hlt : id < w.checks.length := h.started id hf
    simp only
    split_ifs with hdone habandon
    · refine inv_publish (inv_settle h hf (m := .published id) rfl hok hend) hdone
        (List.mem_cons_self ..) ?_
      exact (List.getElem?_eq_getElem hlt).trans (by simp [List.getD, hlt])
    · exact inv_settle hwait hf (m := .abandoned id) rfl hok hend
    · exact hwait

theorem inv_disable {w : World} (h : w.Inv) : w.disable.Inv := by
  have hok : (w.timers.stop .collect).Ok := Timers.ok_stop h.timers .collect
  have hend : (w.timers.stop .collect).pointer .collect = none := by
    simp [Timers.pointer_stop]
  refine inv_setAvailable ?_ _ _ (by simp)
  unfold drop
  cases hf : w.inFlight with
  | none =>
    refine inv_timers h hok ?_
    rw [hend, h.collecting.mpr hf]
  | some id => exact inv_settle h hf (m := .dropped id) rfl hok hend

theorem inv_reconfigure {w : World} (h : w.Inv) (enabled hours : Json) (script again : Bool) :
    (w.reconfigure enabled hours script again).Inv := by
  have hstop : Inv { w with timers := w.timers.stop .poll } :=
    inv_timers h (Timers.ok_stop h.timers .poll) (by simp [Timers.pointer_stop])
  have hpoll : (w.timers.stop .poll).pointer .poll = none := by simp [Timers.pointer_stop]
  unfold reconfigure
  simp only
  cases checkEnabled enabled with
  | none => exact hstop
  | some b =>
    cases b with
    | false => exact inv_disable hstop
    | true =>
      cases script with
      | false => exact hstop
      | true =>
        exact inv_checkNow (inv_timers hstop (Timers.ok_create hstop.timers hpoll _)
          (by simp [Timers.pointer_create])) again

theorem inv_complete {w : World} (h : w.Inv) (check : ℕ) (out : String) :
    (w.complete check out).Inv := by
  unfold complete
  split_ifs with hdone
  · exact h
  · refine ⟨h.timers, h.collecting, ?_, ?_, h.once, ?_⟩
    · simpa using h.started
    · simpa using h.marked
    · intro hav
      obtain ⟨id, hid, hcheck⟩ := h.offered hav
      refine ⟨id, hid, ?_⟩
      have hne : check ≠ id := by
        rintro rfl
        simp [List.getD, hcheck] at hdone
      simpa [List.getElem?_set_ne hne] using hcheck

theorem inv_step (w : World) (e : Event) (h : w.Inv) : (w.step e).Inv := by
  cases e with
  | setListener => exact ⟨h.timers, h.collecting, h.started, h.marked, h.once, h.offered⟩
  | reconfigure enabled hours script again => exact inv_reconfigure h enabled hours script again
  | pollTick timer script =>
    simp only [step]
    split_ifs
    · exact inv_checkNow h script
    · exact h
  | collectTick timer =>
    simp only [step]
    split_ifs with ht
    · exact inv_collect h ht
    · exact h
  | complete check out => exact inv_complete h check out

theorem inv_run (es : List Event) : (Run.run step {} es).Inv :=
  Run.invariant_always inv_step {} es inv_init

/-! ### The setting switched off -/

@[simp] theorem callListener_timers (w : World) : w.callListener.timers = w.timers := by
  unfold callListener
  split_ifs <;> rfl

@[simp] theorem callListener_inFlight (w : World) : w.callListener.inFlight = w.inFlight := by
  unfold callListener
  split_ifs <;> rfl

@[simp] theorem callListener_checks (w : World) : w.callListener.checks = w.checks := by
  unfold callListener
  split_ifs <;> rfl

@[simp] theorem callListener_offer (w : World) : w.callListener.offer = w.offer := by
  unfold callListener
  split_ifs <;> rfl

@[simp] theorem setAvailable_timers (w : World) (b : Bool) (v : String) :
    (w.setAvailable b v).timers = w.timers := by
  unfold setAvailable
  split_ifs <;> simp

@[simp] theorem setAvailable_inFlight (w : World) (b : Bool) (v : String) :
    (w.setAvailable b v).inFlight = w.inFlight := by
  unfold setAvailable
  split_ifs <;> simp

@[simp] theorem setAvailable_checks (w : World) (b : Bool) (v : String) :
    (w.setAvailable b v).checks = w.checks := by
  unfold setAvailable
  split_ifs <;> simp

theorem setAvailable_offer (w : World) (b : Bool) (v : String) :
    (w.setAvailable b v).offer = (b, v) := by
  unfold setAvailable
  split_ifs with h
  · simp [offer, h]
  · rw [callListener_offer]
    rfl

theorem drop_inFlight (w : World) : w.drop.inFlight = none := by
  unfold drop
  cases hf : w.inFlight with
  | none => exact hf
  | some id => rfl

/-- Nothing runs and nothing is offered. -/
structure Quiet (w : World) : Prop where
  inFlight : w.inFlight = none
  pollTimer : w.timers.pointer .poll = none
  available : w.available = false

theorem quiet_disable {w : World} (h : w.timers.pointer .poll = none) : w.disable.Quiet := by
  unfold disable
  refine ⟨?_, ?_, ?_⟩
  · simp [drop_inFlight]
  · simp [Timers.pointer_stop, h]
  · exact congrArg Prod.fst (setAvailable_offer _ false "")

theorem quiet_of_off (w : World) {e : Event} (he : e.off = some true) : (w.step e).Quiet := by
  cases e with
  | reconfigure enabled hours script again =>
    have hoff : checkEnabled enabled = some false := by simpa [Event.off] using he
    simp only [step, reconfigure, hoff]
    exact quiet_disable (by simp [Timers.pointer_stop])
  | setListener => cases he
  | pollTick timer script => cases he
  | collectTick timer => cases he
  | complete check out => cases he

/-- Without a live timer only the threads go on. -/
theorem quiet_step {w : World} (h : w.Inv) (hq : w.Quiet) {e : Event} (he : e.off = none) :
    (w.step e).Quiet := by
  have hpoll : ∀ i, w.timers.runs i ≠ some .poll := by
    intro i hi
    have hp := (h.timers.pointed .poll i).mpr hi
    rw [hq.pollTimer] at hp
    cases hp
  have hcollect : ∀ i, w.timers.runs i ≠ some .collect := by
    intro i hi
    have hp := (h.timers.pointed .collect i).mpr hi
    rw [h.collecting.mpr hq.inFlight] at hp
    cases hp
  cases e with
  | setListener => exact ⟨hq.inFlight, hq.pollTimer, hq.available⟩
  | reconfigure enabled hours script again => cases he
  | pollTick timer script =>
    simp only [step, if_neg (hpoll timer)]
    exact hq
  | collectTick timer =>
    simp only [step, if_neg (hcollect timer)]
    exact hq
  | complete check out =>
    simp only [step, complete]
    split_ifs
    · exact hq
    · exact ⟨hq.inFlight, hq.pollTimer, hq.available⟩

end World

/-- Whether the last `reconfigure` of a run saw the setting off. -/
def disabled (es : List Event) : Bool := es.foldl (fun off e => e.off.getD off) false

namespace World

theorem quiet_run (es : List Event) (h : disabled es = true) : (Run.run step {} es).Quiet := by
  induction es using List.reverseRecOn with
  | nil => cases h
  | append_singleton es e ih =>
    rw [Run.run_append]
    simp only [disabled, List.foldl_append, List.foldl_cons, List.foldl_nil] at h
    cases he : e.off with
    | none =>
      rw [he] at h
      exact quiet_step (inv_run es) (ih h) he
    | some b =>
      rw [he] at h
      cases h
      exact quiet_of_off _ he

/-! ### Which checks can still be published -/

/-- A check that was started, is not in flight and was not published. -/
structure Past (id : ℕ) (w : World) : Prop where
  started : id < w.checks.length
  gone : w.inFlight ≠ some id
  unpublished : .published id ∉ w.log

theorem past_callListener {id : ℕ} {w : World} (h : Past id w) : Past id w.callListener := by
  refine ⟨by simpa using h.started, by simpa using h.gone, ?_⟩
  have hlog := h.unpublished
  unfold callListener
  split_ifs
  · simpa [mark] using hlog
  · exact hlog

theorem past_setAvailable {id : ℕ} {w : World} (h : Past id w) (b : Bool) (v : String) :
    Past id (w.setAvailable b v) := by
  unfold setAvailable
  split_ifs
  · exact h
  · exact past_callListener ⟨h.started, h.gone, h.unpublished⟩

theorem past_timers {id : ℕ} {w : World} (h : Past id w) (t : Timers) :
    Past id { w with timers := t } :=
  ⟨h.started, h.gone, h.unpublished⟩

theorem past_checkNow {id : ℕ} {w : World} (h : Past id w) (script : Bool) :
    Past id (w.checkNow script) := by
  unfold checkNow
  split_ifs
  · exact h
  · exact h
  all_goals
    have hlt := h.started
    refine ⟨?_, ?_, h.unpublished⟩
    · simp only [List.length_append, List.length_singleton]
      omega
    · simp only [ne_eq, Option.some.injEq]
      omega

theorem past_collect {id : ℕ} {w : World} (h : Past id w) (timer : ℕ) :
    Past id (w.collect timer) := by
  have hlog := h.unpublished
  unfold collect
  cases hf : w.inFlight with
  | none => exact ⟨h.started, by simp [endCollect], h.unpublished⟩
  | some j =>
    have hj : id ≠ j := by
      rintro rfl
      exact h.gone hf
    simp only
    split_ifs
    · have hend : Past id ((w.endCollect timer).mark (.published j)) := by
        refine ⟨h.started, by simp [endCollect, mark], ?_⟩
        simpa [endCollect, mark, hj] using hlog
      exact past_setAvailable hend _ _
    · refine ⟨h.started, by simp [endCollect, mark], ?_⟩
      simpa [endCollect, mark, wait] using hlog
    · exact ⟨h.started, h.gone, h.unpublished⟩

theorem past_disable {id : ℕ} {w : World} (h : Past id w) : Past id w.disable := by
  refine past_setAvailable ?_ false ""
  have hlog := h.unpublished
  refine ⟨?_, by simp [drop_inFlight], ?_⟩
  · have hstarted := h.started
    unfold drop
    cases w.inFlight <;> exact hstarted
  · unfold drop
    cases w.inFlight with
    | none => exact hlog
    | some j => simpa [mark] using hlog

theorem past_step (id : ℕ) (w : World) (e : Event) (h : Past id w) : Past id (w.step e) := by
  have hstop : Past id { w with timers := w.timers.stop .poll } := past_timers h _
  cases e with
  | setListener => exact ⟨h.started, h.gone, h.unpublished⟩
  | reconfigure enabled hours script again =>
    simp only [step, reconfigure]
    cases checkEnabled enabled with
    | none => exact hstop
    | some b =>
      cases b with
      | false => exact past_disable hstop
      | true =>
        cases script with
        | false => exact hstop
        | true => exact past_checkNow (past_timers hstop _) again
  | pollTick timer script =>
    simp only [step]
    split_ifs
    · exact past_checkNow h script
    · exact h
  | collectTick timer =>
    simp only [step]
    split_ifs
    · exact past_collect h timer
    · exact h
  | complete check out =>
    simp only [step, complete]
    split_ifs
    · exact h
    · exact ⟨by simpa using h.started, h.gone, h.unpublished⟩

/-- A started check whose result some run from here publishes. -/
def Collectable (w : World) (id : ℕ) : Prop :=
  id < w.checks.length ∧ .published id ∉ w.log ∧
    ∃ es, .published id ∈ (Run.run step w es).log

theorem inFlight_of_collectable {w : World} {id : ℕ} (h : w.Collectable id) :
    w.inFlight = some id := by
  obtain ⟨hstarted, hnew, es, hes⟩ := h
  by_contra hgone
  have hpast : Past id (Run.run step w es) :=
    Run.invariant_always (past_step id) w es ⟨hstarted, hgone, hnew⟩
  exact hpast.unpublished hes

theorem Inv.collecting_of_inFlight {w : World} (h : w.Inv) {id : ℕ} (hf : w.inFlight = some id) :
    ∃ t, w.timers.pointer .collect = some t := by
  cases hp : w.timers.pointer .collect with
  | none =>
    rw [h.collecting.mp hp] at hf
    cases hf
  | some t => exact ⟨t, rfl⟩

theorem mem_log_setAvailable {w : World} {m : Mark} (h : m ∈ w.log) (b : Bool) (v : String) :
    m ∈ (w.setAvailable b v).log := by
  unfold setAvailable callListener
  split_ifs
  · exact h
  · exact List.mem_cons_of_mem _ h
  · exact h

theorem collectable_of_inFlight {w : World} (h : w.Inv) {id : ℕ} (hf : w.inFlight = some id) :
    w.Collectable id := by
  have hlt : id < w.checks.length := h.started id hf
  obtain ⟨t, ht⟩ := h.collecting_of_inFlight hf
  have hruns : w.timers.runs t = some .collect := (h.timers.pointed .collect t).mp ht
  refine ⟨hlt, fun hin => (h.marked _ hin id rfl).2 hf, [.complete id "", .collectTick t], ?_⟩
  -- the thread answers, unless it has, and the timer ticks
  have hanswered : ∀ v : World, v.inFlight = some id → v.timers.runs t = some .collect →
      (v.checks.getD id {}).done = true → .published id ∈ (v.step (.collectTick t)).log := by
    intro v hv hvruns hdone
    simp only [step, if_pos hvruns, collect, hv, if_pos hdone]
    exact mem_log_setAvailable (List.mem_cons_self ..) _ _
  simp only [Run.run_cons, Run.run_nil]
  by_cases hdone : (w.checks.getD id {}).done = true
  · have hsame : w.step (.complete id "") = w := by simp only [step, complete, if_pos hdone]
    rw [hsame]
    exact hanswered w hf hruns hdone
  · refine hanswered _ ?_ ?_ ?_
    all_goals simp only [step, complete, if_neg hdone]
    · exact hf
    · exact hruns
    · simp [List.getD, hlt, runCheck]

/-! ### The listener -/

def listened (w : World) : ℕ := w.log.count .listened

/-- From one state to another the listener ran once if the offer changed, else not. -/
def Announced (w v : World) : Prop :=
  v.listened = w.listened + if w.listener = true ∧ v.offer ≠ w.offer then 1 else 0

theorem announced_same {w v : World} (hl : v.listened = w.listened) (ho : v.offer = w.offer) :
    Announced w v := by
  simp [Announced, hl, ho]

theorem announced_setAvailable {w v : World} (hl : v.listened = w.listened)
    (ho : v.offer = w.offer) (hlistener : v.listener = w.listener) (b : Bool) (version : String) :
    Announced w (v.setAvailable b version) := by
  unfold Announced
  rw [setAvailable_offer, ← hlistener, ← hl, ← ho]
  unfold setAvailable
  split_ifs with hsame hcalled hcalled
  · exact absurd (by simp [offer, hsame]) hcalled.2
  · rfl
  · simp [callListener, hcalled.1, listened, mark]
  · have hquiet : v.listener = false := by
      simp only [offer, ne_eq, Prod.mk.injEq, not_and] at hcalled
      simp only [not_and] at hsame
      by_contra hon
      simp only [Bool.not_eq_false] at hon
      refine hcalled hon (fun h1 h2 => ?_)
      exact hsame h1.symm h2.symm
    simp [callListener, hquiet, listened]

theorem announced_checkNow (w : World) (script : Bool) : Announced w (w.checkNow script) := by
  unfold checkNow
  split_ifs <;> exact announced_same rfl rfl

theorem announced_collect (w : World) (timer : ℕ) : Announced w (w.collect timer) := by
  unfold collect
  cases w.inFlight with
  | none => exact announced_same rfl rfl
  | some id =>
    simp only
    split_ifs
    · exact announced_setAvailable (by simp [listened, mark, endCollect]) rfl rfl _ _
    · exact announced_same (by simp [listened, mark, endCollect, wait]) rfl
    · exact announced_same rfl rfl

theorem announced_disable (w : World) : Announced w w.disable := by
  unfold disable drop
  cases w.inFlight with
  | none => exact announced_setAvailable rfl rfl rfl _ _
  | some id => exact announced_setAvailable (by simp [listened, mark]) rfl rfl _ _

theorem announced_step (w : World) (e : Event) : Announced w (w.step e) := by
  cases e with
  | setListener => exact announced_same rfl rfl
  | reconfigure enabled hours script again =>
    simp only [step, reconfigure]
    cases checkEnabled enabled with
    | none => exact announced_same rfl rfl
    | some b =>
      cases b with
      | false => exact announced_disable { w with timers := w.timers.stop .poll }
      | true =>
        cases script with
        | false => exact announced_same rfl rfl
        | true =>
          exact announced_checkNow
            { w with timers := (w.timers.stop .poll).create .poll (periodMs hours) } again
  | pollTick timer script =>
    simp only [step]
    split_ifs
    · exact announced_checkNow w script
    · exact announced_same rfl rfl
  | collectTick timer =>
    simp only [step]
    split_ifs
    · exact announced_collect w timer
    · exact announced_same rfl rfl
  | complete check out =>
    simp only [step, complete]
    split_ifs <;> exact announced_same rfl rfl

end World

/-! ### Every run -/

theorem only_live_results_published (es : List Event) :
    let w := Run.run World.step {} es
    (∀ id, .published id ∈ w.log → .abandoned id ∉ w.log ∧ .dropped id ∉ w.log) ∧
      (w.available = true → ∃ id, .published id ∈ w.log ∧
        w.checks[id]? = some ⟨true, "available", w.availableVersion⟩) ∧
      (disabled es = true → w.available = false) ∧
      (∀ i j, w.Collectable i → w.Collectable j → i = j) ∧
      (∀ id, w.inFlight = some id → w.Collectable id ∧
        ∃ t, w.timers.collectTimer = some t ∧ w.timers.runs t = some .collect) ∧
      Run.Along World.step (fun v e => World.Announced v (v.step e)) {} es := by
  have h := World.inv_run es
  refine ⟨?_, h.offered, ?_, ?_, ?_, ?_⟩
  · intro id hid
    constructor
    · intro hgone
      cases h.once id hid _ hgone rfl
    · intro hgone
      cases h.once id hid _ hgone rfl
  · intro hoff
    exact (World.quiet_run es hoff).available
  · intro i j hi hj
    have hij := (World.inFlight_of_collectable hi).symm.trans (World.inFlight_of_collectable hj)
    exact Option.some.inj hij
  · intro id hid
    refine ⟨World.collectable_of_inFlight h hid, ?_⟩
    obtain ⟨t, ht⟩ := h.collecting_of_inFlight hid
    exact ⟨t, ht, (h.timers.pointed .collect t).mp ht⟩
  · exact Run.along_of_step World.announced_step {} es

-- A first check is abandoned, its late answer is not seen, the second one is published.
example :
    let es := [.setListener, .reconfigure .null (.int 24) true true] ++
      List.replicate 360 (.collectTick 1) ++
      [.complete 0 "status=available\nlatest=v1", .pollTick 0 true, .collectTick 2,
        .complete 1 "status=available\nlatest=v2", .collectTick 2]
    let w := Run.run World.step {} es
    w.offer = (true, "v2") ∧ w.log = [.listened, .published 1, .abandoned 0] := by
  decide +kernel

end GuppyScreen.UpdateCheck
