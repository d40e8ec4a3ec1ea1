import GuppyScreen.UpdateCheck
import Mathlib.Algebra.Order.Field.Rat
import Mathlib.Tactic.Linarith

/-!
# The tick and the configured durations (guppyscreen.cpp, update_check.cpp)

`custom_tick_get` is LVGL's clock, the milliseconds since its first call modulo 2^32.
The loop blanks the display once the inactive time, a difference of two ticks, passes
`display_sleep_sec`; the poll timer of the update check runs every
`update_check_interval_hours`.
-/

namespace GuppyScreen
open Lib

/-! ### The period of the poll timer -/

namespace UpdateCheck

def World.pollPeriod (w : World) : Option UInt32 :=
  (w.timers.pollTimer.bind w.timers.live).map (·.period)

theorem pollPeriod_checkNow (w : World) (script : Bool) (i : ℕ) (t : Timer)
    (hp : w.timers.pollTimer = some i) (hl : w.timers.live i = some t)
    (hn : i < w.timers.next) : (w.checkNow script).pollPeriod = some t.period := by
  unfold World.checkNow
  split_ifs
  · simp [World.pollPeriod, hp, hl]
  · simp [World.pollPeriod, hp, hl]
  · simp [World.pollPeriod, Timers.create, Timers.point, hp, hl, Function.update_of_ne hn.ne]
  · simp [World.pollPeriod, hp, hl]

theorem pollPeriod_reconfigure (w : World) (hours : Json) (again : Bool) :
    (w.reconfigure (.bool true) hours true again).pollPeriod = some (periodMs hours) := by
  apply pollPeriod_checkNow _ again (w.timers.stop .poll).next ⟨.poll, periodMs hours⟩
  · rfl
  · simp [Timers.create, Timers.point]
  · simp [Timers.create, Timers.point]

theorem intervalHours_int (hours : Int32) :
    intervalHours (.int hours.toInt) = max 1 hours.toInt := by
  have hlo := hours.le_toInt
  have hhi := hours.toInt_lt
  have hb : Int.bmod hours.toInt (2 ^ 32) = hours.toInt := by
    rw [Int.bmod_eq_of_le] <;> omega
  simp only [intervalHours, Json.isNumber, KUtils.toInt, hb, if_true]
  split_ifs <;> omega

theorem toNat_periodMs (hours : Int32) :
    ((periodMs (.int hours.toInt)).toNat : ℤ) = max 1 hours.toInt * 3600000 % 2 ^ 32 := by
  have hlo := hours.le_toInt
  have hhi := hours.toInt_lt
  rw [periodMs, intervalHours_int]
  simp only [UInt32.toNat_mul, UInt32.ofInt, UInt32.toNat_ofNat', UInt32.reduceToNat]
  omega

/-- An hour count is kept or the period is the longest there is. -/
def PeriodLaw (hours : Int32) : Prop :=
  ∀ (w : World) (again : Bool), ∃ p,
    (w.reconfigure (.bool true) (.int hours.toInt) true again).pollPeriod = some p ∧
      ((p.toNat : ℤ) = max 1 hours.toInt * 3600000 ∨ p.toNat = 2 ^ 32 - 1) ∧ 3600000 ≤ p.toNat

-- The product is even, so it never comes out as the longest period by wrapping.
theorem periodLaw_iff (hours : Int32) : PeriodLaw hours ↔ hours.toInt ≤ 1193 := by
  have hp := toNat_periodMs hours
  constructor
  · intro h
    obtain ⟨p, hp', hlaw, hmin⟩ := h {} true
    rw [pollPeriod_reconfigure, Option.some.injEq] at hp'
    rw [← hp'] at hlaw hmin
    omega
  · intro h w again
    have hmod : max 1 hours.toInt * 3600000 % 2 ^ 32 = max 1 hours.toInt * 3600000 := by
      apply Int.emod_eq_of_lt <;> omega
    rw [hmod] at hp
    refine ⟨periodMs (.int hours.toInt), pollPeriod_reconfigure w _ again, .inl hp, ?_⟩
    omega

end UpdateCheck

/-! ### The display sleep -/

namespace Display

/-- `sleep_sec < 0 ? -1 : sleep_sec * 1000`. A product that `int32_t` cannot hold is
undefined; `overflow` is what it comes out as. -/
def displaySleep (overflow : Int32 → Int32) (sleepSec : Int32) : Int32 :=
  if sleepSec < 0 then -1
  else if sleepSec.toInt * 1000 < 2 ^ 31 then sleepSec * 1000
  else overflow sleepSec

/-- `is_sleeping`, the framebuffer and the screen saver. -/
structure State where
  isSleeping : Bool
  blanked : Bool
  screenSaverInFront : Bool
  deriving DecidableEq

def State.all (b : Bool) : State := ⟨b, b, b⟩

/-- One pass of the loop, with `lv_disp_get_inactive_time`. The comparison is one of
`uint32_t`. -/
def pass (displaySleep : Int32) (s : State) (inactive : UInt32) : State :=
  if displaySleep = -1 then s
  else if displaySleep.toUInt32 < inactive then
    if s.isSleeping then s else ⟨true, true, true⟩
  else if s.isSleeping then ⟨false, false, false⟩
  else s

def passes (displaySleep : Int32) (inactive : List UInt32) : State :=
  Run.run (pass displaySleep) (.all false) inactive

theorem passes_never (inactive : List UInt32) : passes (-1) inactive = .all false := by
  induction inactive with
  | nil => rfl
  | cons i is ih => exact ih

theorem pass_all {threshold : Int32} (h : threshold ≠ -1) (b : Bool) (inactive : UInt32) :
    pass threshold (.all b) inactive = .all (decide (threshold.toUInt32 < inactive)) := by
  unfold pass
  rw [if_neg h]
  by_cases hlt : threshold.toUInt32 < inactive <;> cases b <;> simp [hlt, State.all]

theorem passes_all {threshold : Int32} (h : threshold ≠ -1) (inactive : List UInt32) :
    ∃ b, passes threshold inactive = .all b := by
  induction inactive using List.reverseRecOn with
  | nil => exact ⟨false, rfl⟩
  | append_singleton is i ih =>
    obtain ⟨b, hb⟩ := ih
    rw [passes, Run.run_append, ← passes, hb]
    exact ⟨_, pass_all h b i⟩

theorem passes_concat {threshold : Int32} (h : threshold ≠ -1) (before : List UInt32)
    (inactive : UInt32) :
    passes threshold (before ++ [inactive]) =
      .all (decide (threshold.toUInt32 < inactive)) := by
  obtain ⟨b, hb⟩ := passes_all h before
  rw [passes, Run.run_append, ← passes, hb]
  exact pass_all h b inactive

/-- After every pass the display sleeps exactly when a timeout is configured and the
inactive time exceeds it. -/
def SleepLaw (overflow : Int32 → Int32) (sleepSec : Int32) : Prop :=
  ∀ (before : List UInt32) (inactive : UInt32),
    passes (displaySleep overflow sleepSec) (before ++ [inactive]) =
      .all (decide (0 ≤ sleepSec.toInt ∧ sleepSec.toInt * 1000 < (inactive.toNat : ℤ)))

theorem displaySleep_neg (overflow : Int32 → Int32) {sleepSec : Int32} (h : sleepSec.toInt < 0) :
    displaySleep overflow sleepSec = -1 := by
  have hlt : sleepSec < 0 := by rw [Int32.lt_iff_toInt_lt]; exact h
  rw [displaySleep, if_pos hlt]

theorem displaySleep_nonneg (overflow : Int32 → Int32) {sleepSec : Int32}
    (h : 0 ≤ sleepSec.toInt) : displaySleep overflow sleepSec =
      if sleepSec.toInt * 1000 < 2 ^ 31 then sleepSec * 1000 else overflow sleepSec := by
  have hlt : ¬ sleepSec < 0 := by
    rw [Int32.lt_iff_toInt_lt]
    exact not_lt.mpr h
  rw [displaySleep, if_neg hlt]

/-- The product as the two's complement machine forms it. -/
def wrapped (sleepSec : Int32) : Int32 := sleepSec * 1000

theorem toNat_wrapped {sleepSec : Int32} (h : 0 ≤ sleepSec.toInt) :
    ((wrapped sleepSec).toUInt32.toNat : ℤ) = sleepSec.toInt * 1000 % 2 ^ 32 := by
  have hle : 0 ≤ sleepSec := by rw [Int32.le_iff_toInt_le]; exact h
  have hnat : sleepSec.toUInt32.toNat = sleepSec.toInt.toNat := Int32.toNat_toUInt32_of_le hle
  rw [wrapped, Int32.toUInt32_mul, UInt32.toNat_mul, hnat]
  have hk : (1000 : Int32).toUInt32.toNat = 1000 := rfl
  rw [hk]
  omega

theorem sleepLaw_neg (overflow : Int32 → Int32) {sleepSec : Int32} (h : sleepSec.toInt < 0) :
    SleepLaw overflow sleepSec := by
  intro before inactive
  rw [displaySleep_neg overflow h, passes_never]
  rw [decide_eq_false]
  omega

-- What a run shows of a threshold that is not the sentinel.
theorem sleepLaw_iff_threshold {overflow : Int32 → Int32} {sleepSec : Int32}
    (h : 0 ≤ sleepSec.toInt) (hne : displaySleep overflow sleepSec ≠ -1) :
    SleepLaw overflow sleepSec ↔ ∀ inactive : UInt32,
      (displaySleep overflow sleepSec).toUInt32 < inactive ↔
        sleepSec.toInt * 1000 < (inactive.toNat : ℤ) := by
  have hone : ∀ (before : List UInt32) (inactive : UInt32),
      passes (displaySleep overflow sleepSec) (before ++ [inactive]) =
        .all (decide (0 ≤ sleepSec.toInt ∧ sleepSec.toInt * 1000 < (inactive.toNat : ℤ))) ↔
      ((displaySleep overflow sleepSec).toUInt32 < inactive ↔
        sleepSec.toInt * 1000 < (inactive.toNat : ℤ)) := by
    intro before inactive
    rw [passes_concat hne]
    simp [State.all, h]
  constructor
  · intro hlaw inactive
    exact (hone [] inactive).mp (hlaw [] inactive)
  · intro hlaw before inactive
    exact (hone before inactive).mpr (hlaw inactive)

theorem wrapped_ne {sleepSec : Int32} (h : 0 ≤ sleepSec.toInt) : wrapped sleepSec ≠ -1 := by
  intro heq
  have hnat := toNat_wrapped h
  rw [heq] at hnat
  have hone : ((-1 : Int32).toUInt32.toNat : ℤ) = 4294967295 := by decide
  omega

theorem sleepLaw_of_wrapped {overflow : Int32 → Int32} {sleepSec : Int32}
    (h : 0 ≤ sleepSec.toInt) (heq : displaySleep overflow sleepSec = wrapped sleepSec) :
    SleepLaw overflow sleepSec ↔ sleepSec.toInt ≤ 4294967 := by
  have hne : displaySleep overflow sleepSec ≠ -1 := by
    rw [heq]
    exact wrapped_ne h
  have hnat := toNat_wrapped h
  rw [sleepLaw_iff_threshold h hne, heq]
  constructor
  · intro hlaw
    have hmax := (hlaw 4294967295).mp
    rw [UInt32.lt_iff_toNat_lt] at hmax
    simp only [UInt32.reduceToNat] at hmax
    omega
  · intro hle inactive
    have hmod : sleepSec.toInt * 1000 % 2 ^ 32 = sleepSec.toInt * 1000 := by
      apply Int.emod_eq_of_lt <;> omega
    rw [UInt32.lt_iff_toNat_lt, ← hmod, ← hnat]
    omega

theorem sleepLaw_wrapped_iff (sleepSec : Int32) :
    SleepLaw wrapped sleepSec ↔ sleepSec.toInt ≤ 4294967 := by
  by_cases h : sleepSec.toInt < 0
  · exact iff_of_true (sleepLaw_neg wrapped h) (by omega)
  · apply sleepLaw_of_wrapped (not_lt.mp h)
    rw [displaySleep_nonneg wrapped (not_lt.mp h)]
    split_ifs <;> rfl

theorem sleepLaw_iff (sleepSec : Int32) :
    (∀ overflow, SleepLaw overflow sleepSec) ↔ sleepSec.toInt ≤ 2147483 := by
  by_cases hneg : sleepSec.toInt < 0
  · exact iff_of_true (fun overflow => sleepLaw_neg overflow hneg) (by omega)
  · have h : 0 ≤ sleepSec.toInt := not_lt.mp hneg
    constructor
    · intro hlaw
      by_contra hbig
      -- A product out of range may come out as 0.
      have hzero : displaySleep (fun _ => 0) sleepSec = 0 := by
        rw [displaySleep_nonneg _ h, if_neg (by omega)]
      have hone := (sleepLaw_iff_threshold h (by rw [hzero]; decide)).mp (hlaw fun _ => 0) 1
      rw [hzero] at hone
      have hlt := hone.mp (by decide)
      simp only [UInt32.toNat_one] at hlt
      omega
    · intro hle overflow
      apply (sleepLaw_of_wrapped h _).mpr (by omega)
      rw [displaySleep_nonneg overflow h, if_pos (by omega)]
      rfl

end Display

theorem durations_iff (hours sleepSec : Int32) :
    ((UpdateCheck.PeriodLaw hours ∧ ∀ overflow, Display.SleepLaw overflow sleepSec) ↔
        hours.toInt ≤ 1193 ∧ sleepSec.toInt ≤ 2147483) ∧
      ((UpdateCheck.PeriodLaw hours ∧ Display.SleepLaw Display.wrapped sleepSec) ↔
        hours.toInt ≤ 1193 ∧ sleepSec.toInt ≤ 4294967) := by
  constructor
  · rw [UpdateCheck.periodLaw_iff, Display.sleepLaw_iff]
  · rw [UpdateCheck.periodLaw_iff, Display.sleepLaw_wrapped_iff]

/-- 1194 hours come out as 57 minutes, and 4294968 seconds as 704 ms. -/
theorem long_durations_wrap :
    (UpdateCheck.periodMs (.int (1194 : Int32).toInt)).toNat = 3432704 ∧
      ¬ UpdateCheck.PeriodLaw 1194 ∧
      Display.passes (Display.displaySleep Display.wrapped 4294968) [705] = .all true ∧
      ¬ Display.SleepLaw Display.wrapped 4294968 := by
  refine ⟨by decide, ?_, by decide, ?_⟩
  · rw [UpdateCheck.periodLaw_iff]
    decide
  · rw [Display.sleepLaw_wrapped_iff]
    decide

/-! ### The tick -/

/-- A reading of `CLOCK_MONOTONIC`. -/
structure Timespec where
  sec : ℤ
  nsec : ℕ
  nsec_lt : nsec < 10 ^ 9
  deriving DecidableEq

namespace Timespec

instance : LE Timespec := ⟨fun a b => a.sec < b.sec ∨ a.sec = b.sec ∧ a.nsec ≤ b.nsec⟩

/-- `{0, 0}`, which `start` has before its first reading. -/
def zero : Timespec := ⟨0, 0, by decide⟩

def nanoseconds (t : Timespec) : ℤ := t.sec * 10 ^ 9 + t.nsec

/-- The milliseconds from `s` to `t`, exactly. -/
def elapsed (s t : Timespec) : ℚ := (t.nanoseconds - s.nanoseconds : ℚ) / 10 ^ 6

end Timespec

namespace Tick

/-- What `custom_tick_get` reduces modulo 2^32. -/
def value (start now : Timespec) : ℤ :=
  (now.sec - start.sec) * 1000 + ((now.nsec : ℤ) - start.nsec).tdiv 1000000

/-- What the clock reads in one call: for `start`, should it be set, and for `now`. -/
structure Readings where
  start : Timespec
  now : Timespec

def latch (start : Timespec) (c : Readings) : Timespec :=
  if start.sec = 0 ∧ start.nsec = 0 then c.start else start

/-- The tick of a call, where `time_t` has `w` bits. -/
def customTickGet (w : ℕ) (start : Timespec) (c : Readings) : UInt32 :=
  let seconds := Int.bmod (c.now.sec - (latch start c).sec) (2 ^ w)
  let nanoseconds := (c.now.nsec : ℤ) - (latch start c).nsec
  UInt32.ofInt (Int.bmod (Int.bmod (seconds * 1000) (2 ^ w) + nanoseconds.tdiv 1000000) (2 ^ w))

/-- The readings and the tick of each call of a run. -/
def ticks (w : ℕ) : Timespec → List Readings → List (Timespec × UInt32)
  | _, [] => []
  | start, c :: cs => (c.now, customTickGet w start c) :: ticks w (latch start c) cs

theorem ofInt_bmod {w : ℕ} (hw : 32 ≤ w) (x : ℤ) :
    UInt32.ofInt (Int.bmod x (2 ^ w)) = UInt32.ofInt x := by
  have hdvd : (2 : ℤ) ^ 32 ∣ 2 ^ w := pow_dvd_pow 2 hw
  have hsub : ((2 ^ w : ℕ) : ℤ) ∣ x - Int.bmod x (2 ^ w) := by
    rw [Int.bmod_eq_self_sub_mul_bdiv, sub_sub_cancel]
    exact dvd_mul_right _ _
  rw [Nat.cast_pow, Nat.cast_ofNat] at hsub
  have hmod : Int.bmod x (2 ^ w) % 2 ^ 32 = x % 2 ^ 32 :=
    Int.emod_eq_emod_iff_emod_sub_eq_zero.mpr
      (Int.emod_eq_zero_of_dvd (dvd_sub_comm.mp (hdvd.trans hsub)))
  unfold UInt32.ofInt
  rw [hmod]

theorem customTickGet_eq {w : ℕ} (hw : 32 ≤ w) (start : Timespec) (c : Readings) :
    customTickGet w start c = UInt32.ofInt (value (latch start c) c.now) := by
  simp only [customTickGet, value, UInt32.ofInt_add, UInt32.ofInt_mul, ofInt_bmod hw]

-- Truncation: the remainder has the sign of the dividend.
theorem tdiv_million (x : ℤ) : ∃ r, x = 1000000 * x.tdiv 1000000 + r ∧
    (0 ≤ x → 0 ≤ r ∧ r < 1000000) ∧ (x ≤ 0 → -1000000 < r ∧ r ≤ 0) := by
  refine ⟨x.tmod 1000000, (Int.mul_tdiv_add_tmod x 1000000).symm, ?_, ?_⟩
  · intro h
    exact ⟨Int.tmod_nonneg _ h, Int.tmod_lt_of_pos x (by decide)⟩
  · intro h
    have hneg := Int.tmod_lt_of_pos (-x) (show (0 : ℤ) < 1000000 by decide)
    have hsign := Int.tmod_nonneg 1000000 (show 0 ≤ -x by omega)
    rw [Int.neg_tmod] at hneg hsign
    omega

theorem value_close (s t : Timespec) : |(value s t : ℚ) - s.elapsed t| < 1 := by
  obtain ⟨r, hr, hpos, hneg⟩ := tdiv_million ((t.nsec : ℤ) - s.nsec)
  have hlo : -1000000 < r := by omega
  have hhi : r < 1000000 := by omega
  have hnano : t.nanoseconds - s.nanoseconds = 1000000 * value s t + r := by
    unfold Timespec.nanoseconds value
    omega
  have hdiff : (value s t : ℚ) - s.elapsed t = -(r / 10 ^ 6) := by
    have hq : (t.nanoseconds - s.nanoseconds : ℚ) = 1000000 * value s t + r := by
      exact_mod_cast hnano
    rw [Timespec.elapsed, hq]
    ring
  have hlo' : (-1000000 : ℚ) < r := by exact_mod_cast hlo
  have hhi' : (r : ℚ) < 1000000 := by exact_mod_cast hhi
  rw [hdiff, abs_neg, abs_lt]
  constructor <;> linarith

theorem value_mono (s : Timespec) {t₁ t₂ : Timespec} (h : t₁ ≤ t₂) : value s t₁ ≤ value s t₂ := by
  obtain ⟨r₁, hr₁, hpos₁, hneg₁⟩ := tdiv_million ((t₁.nsec : ℤ) - s.nsec)
  obtain ⟨r₂, hr₂, hpos₂, hneg₂⟩ := tdiv_million ((t₂.nsec : ℤ) - s.nsec)
  have hs := s.nsec_lt
  have h₁ := t₁.nsec_lt
  have h₂ := t₂.nsec_lt
  unfold value
  -- Over a second boundary the quotients fall by at most 1000, which the seconds make up for.
  rcases h with hlt | ⟨heq, hle⟩
  · omega
  · omega

theorem ofInt_sub (x y : ℤ) : UInt32.ofInt x - UInt32.ofInt y = UInt32.ofInt (x - y) := by
  rw [sub_eq_add_neg x y, UInt32.ofInt_add, UInt32.ofInt_neg, UInt32.sub_eq_add_neg]

theorem latch_of_ne {start : Timespec} (h : start ≠ .zero) (c : Readings) :
    latch start c = start := by
  rw [latch, if_neg]
  rintro ⟨hsec, hnsec⟩
  apply h
  cases start
  simp only [Timespec.zero, Timespec.mk.injEq]
  exact ⟨hsec, hnsec⟩

-- Once `start` is set it stays.
theorem ticks_latched {w : ℕ} (hw : 32 ≤ w) {start : Timespec} (h : start ≠ .zero)
    (cs : List Readings) {t : Timespec} {k : UInt32} (hm : (t, k) ∈ ticks w start cs) :
    k = UInt32.ofInt (value start t) := by
  induction cs with
  | nil => cases hm
  | cons c cs ih =>
    rw [ticks, latch_of_ne h, List.mem_cons] at hm
    rcases hm with heq | hm
    · have htick := customTickGet_eq hw start c
      rw [latch_of_ne h] at htick
      rw [Prod.mk.injEq] at heq
      rw [heq.1, heq.2, htick]
    · exact ih hm

theorem latch_zero (c : Readings) : latch .zero c = c.start := rfl

theorem ticks_first {w : ℕ} (hw : 32 ≤ w) {first : Readings} (h : first.start ≠ .zero)
    (later : List Readings) {t : Timespec} {k : UInt32}
    (hm : (t, k) ∈ ticks w .zero (first :: later)) :
    k = UInt32.ofInt (value first.start t) := by
  rw [ticks, latch_zero, List.mem_cons] at hm
  rcases hm with heq | hm
  · rw [Prod.mk.injEq] at heq
    rw [heq.1, heq.2, customTickGet_eq hw, latch_zero]
  · exact ticks_latched hw h later hm

/-- Any two calls of a run, by the order of their readings: the values are within 1 ms
of the time since the first reading of `start` and in order, and the difference of the
ticks is that of the values modulo 2^32. -/
def Follows (w : ℕ) (first : Readings) (later : List Readings) : Prop :=
  ∀ t₁ k₁ t₂ k₂, (t₁, k₁) ∈ ticks w .zero (first :: later) →
    (t₂, k₂) ∈ ticks w .zero (first :: later) → t₁ ≤ t₂ →
    k₁ = UInt32.ofInt (value first.start t₁) ∧ k₂ = UInt32.ofInt (value first.start t₂) ∧
      |(value first.start t₁ : ℚ) - first.start.elapsed t₁| < 1 ∧
      |(value first.start t₂ : ℚ) - first.start.elapsed t₂| < 1 ∧
      value first.start t₁ ≤ value first.start t₂ ∧
      k₂ - k₁ = UInt32.ofInt (value first.start t₂ - value first.start t₁)

theorem tick_follows_clock (w : ℕ) (hw : 32 ≤ w) (first : Readings)
    (hfirst : first.start ≠ .zero) (later : List Readings) : Follows w first later := by
  intro t₁ k₁ t₂ k₂ hm₁ hm₂ hle
  have hk₁ := ticks_first hw hfirst later hm₁
  have hk₂ := ticks_first hw hfirst later hm₂
  refine ⟨hk₁, hk₂, value_close _ t₁, value_close _ t₂, value_mono _ hle, ?_⟩
  rw [hk₁, hk₂, ofInt_sub]

def atMs (ms : ℕ) : Timespec := ⟨(ms / 1000 : ℕ), ms % 1000 * 1000000, by omega⟩

/-- Over second boundaries, and where the product of a 32-bit `time_t` has wrapped. -/
theorem tick_over_second :
    ticks 32 .zero [⟨atMs 5900, atMs 5900⟩, ⟨atMs 6300, atMs 6300⟩,
          ⟨atMs 2147490000, atMs 2147490000⟩] =
        [(atMs 5900, 0), (atMs 6300, 400), (atMs 2147490000, 2147484100)] ∧
      Follows 32 ⟨atMs 5900, atMs 5900⟩ [⟨atMs 6300, atMs 6300⟩,
        ⟨atMs 2147490000, atMs 2147490000⟩] :=
  ⟨by decide, tick_follows_clock 32 (by decide) _ (by decide) _⟩

/-- A first reading of exactly 0 s 0 ns looks like none: the next call, 1 s later, sets
`start` once more and its tick is 0. -/
theorem zero_start_read_again :
    ticks 64 .zero [⟨.zero, .zero⟩, ⟨atMs 1000, atMs 1000⟩] = [(.zero, 0), (atMs 1000, 0)] ∧
      ¬ Follows 64 ⟨.zero, .zero⟩ [⟨atMs 1000, atMs 1000⟩] := by
  have hticks : ticks 64 .zero [⟨.zero, .zero⟩, ⟨atMs 1000, atMs 1000⟩] =
      [(.zero, 0), (atMs 1000, 0)] := by decide
  refine ⟨hticks, ?_⟩
  intro h
  have hlast := (h .zero 0 (atMs 1000) 0 (by rw [hticks]; simp) (by rw [hticks]; simp)
    (.inl (by decide))).2.1
  revert hlast
  decide

end Tick

end GuppyScreen
