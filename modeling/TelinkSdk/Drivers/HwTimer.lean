import Mathlib.Logic.Function.Basic

/-! The hardware timers of `drv_timer.c`. The expiry has two words, of which the high one counts
whole periods of the timer.
-/

namespace TelinkSdk.HwTimer

-----------------------------------------------------------------------------------------
-- The driver
-----------------------------------------------------------------------------------------

abbrev timerIdx3 : Nat := 3

abbrev timerNum : Nat := 4

abbrev timerOverflowValue : UInt32 := 0xFFFFFFFE

/-- `TIMER_IDLE`, `TIMER_WOF` (waiting for overflow) and `TIMER_WTO` (waiting for timeout). -/
inductive TimerStatus where
  | idle
  | wof
  | wto
deriving DecidableEq

/-- `hw_timer_sts_t` -/
inductive HwTimerSts where
  | hwTimerSucc
  | hwTimerIsRunning
  | hwTimerInvalid
deriving DecidableEq

/-- `ext_clk_t` -/
structure ExtClk where
  low : UInt32 := 0
  high : UInt32 := 0

/-- `hwTmr_info_t`. A callback is named by its address, and NULL is none. -/
structure HwTmrInfo where
  expireInfo : ExtClk := {}
  cb : Option Nat := none
  arg : Nat := 0
  status : TimerStatus := .idle

/-- `hwTmr_vars` -/
structure HwTmrCtrl where
  timerInfo : Nat → HwTmrInfo

def HwTmrCtrl.update (ctrl : HwTmrCtrl) (tmrIdx : Nat) (info : HwTmrInfo) : HwTmrCtrl where
  timerInfo := Function.update ctrl.timerInfo tmrIdx info

/-- What the driver does to a timer: `tick` is how many ticks from now the next interrupt comes. -/
inductive HwTmrAct where
  | hwTimerSet (tick : UInt32)
  | hwTimerStart
  | hwTimerStop
  | callback (cb arg : Nat)
deriving DecidableEq

/-- `H_TIMER_CLOCK_1US` and `S_TIMER_CLOCK_1US`. No timer makes so many ticks in a microsecond that
ten of them are more than a word can count.
-/
structure TimerClock where
  hTimerClock1us : UInt32
  sTimerClock1us : UInt32
  hTicks : 0 < hTimerClock1us.toNat ∧ 10 * hTimerClock1us.toNat < 4294967296
  sTicks : 0 < sTimerClock1us.toNat ∧ 10 * sTimerClock1us.toNat < 4294967296

/-- `TIMER_TICK_1US_GET` -/
def TimerClock.timerTick1usGet (clock : TimerClock) (idx : Nat) : UInt32 :=
  if idx < timerIdx3 then clock.hTimerClock1us else clock.sTimerClock1us

def timerSafeBoundaryInUs (v : UInt32) : UInt32 := 10 * v

/-- What a state sets the timer to. -/
def HwTmrInfo.period (info : HwTmrInfo) : UInt32 :=
  if info.expireInfo.high ≠ 0 then timerOverflowValue else info.expireInfo.low

def hwTmrSetAbs (clock : TimerClock) (ctrl : HwTmrCtrl) (tmrIdx : Nat) (absTimer : ExtClk)
    (func : Option Nat) (arg : Nat)
    : HwTimerSts × HwTmrCtrl × List HwTmrAct :=
  if (ctrl.timerInfo tmrIdx).status ≠ .idle then (.hwTimerIsRunning, ctrl, [])
  else
    let pTimer : HwTmrInfo :=
      { expireInfo := absTimer
        cb := func
        arg := arg
        status := if absTimer.high ≠ 0 then .wof else .wto }
    if pTimer.expireInfo.high = 0
        ∧ pTimer.expireInfo.low < timerSafeBoundaryInUs (clock.timerTick1usGet tmrIdx) then
      (.hwTimerSucc, ctrl.update tmrIdx {}, (func.map (HwTmrAct.callback · arg)).toList)
    else (.hwTimerSucc, ctrl.update tmrIdx pTimer, [.hwTimerSet pTimer.period, .hwTimerStart])

/-- `t` is what the callback returns, if there is one. -/
def drvHwTmrIrqProcess (clock : TimerClock) (ctrl : HwTmrCtrl) (tmrIdx : Nat) (t : Int32)
    : HwTmrCtrl × List HwTmrAct :=
  let pTimer := ctrl.timerInfo tmrIdx
  if pTimer.status = .wto then
    match pTimer.cb with
    | none => (ctrl, [])
    | some cb =>
        if t < 0 then (ctrl.update tmrIdx {}, [.callback cb pTimer.arg, .hwTimerStop])
        else if t = 0 then
          if tmrIdx < timerIdx3 then (ctrl, [.callback cb pTimer.arg])
          else (ctrl, [.callback cb pTimer.arg, .hwTimerSet pTimer.period])
        else
          let pTimer :=
            { pTimer with
              expireInfo :=
                { pTimer.expireInfo with low := t.toUInt32 * clock.timerTick1usGet tmrIdx } }
          (ctrl.update tmrIdx pTimer, [.callback cb pTimer.arg, .hwTimerSet pTimer.period])
  else
    let high := pTimer.expireInfo.high - 1
    let pTimer := { pTimer with expireInfo := { pTimer.expireInfo with high } }
    if high ≠ 0 then (ctrl.update tmrIdx pTimer, [.hwTimerSet timerOverflowValue])
    else
      (ctrl.update tmrIdx { pTimer with status := .wto }, [.hwTimerSet pTimer.expireInfo.low])

def drvHwTmrSet (clock : TimerClock) (ctrl : HwTmrCtrl) (tmrIdx : Nat) (tUs : UInt32)
    (func : Option Nat) (arg : Nat)
    : HwTimerSts × HwTmrCtrl × List HwTmrAct :=
  if tmrIdx ≥ timerNum then (.hwTimerInvalid, ctrl, [])
  else
    let t : ExtClk := { high := 0, low := tUs * clock.timerTick1usGet tmrIdx }
    hwTmrSetAbs clock ctrl tmrIdx t func arg

/-- One interrupt after another, with what the callback returns in each. Those that only count an
overflow would call nothing.
-/
def hwTmrIrqs (clock : TimerClock) (tmrIdx : Nat) : HwTmrCtrl → List Int32 → List HwTmrAct
  | _, [] => []
  | ctrl, t :: rest =>
      let (ctrl, acts) := drvHwTmrIrqProcess clock ctrl tmrIdx t
      acts ++ hwTmrIrqs clock tmrIdx ctrl rest

-----------------------------------------------------------------------------------------
-- Intervals
-----------------------------------------------------------------------------------------

/-- The ticks that are programmed before the first callback, between one callback and the next, and
after the last one. `ticks` are those since the last callback.
-/
def tickIntervals : Nat → List HwTmrAct → List Nat
  | ticks, [] => [ticks]
  | ticks, .hwTimerSet tick :: rest => tickIntervals (ticks + tick.toNat) rest
  | ticks, .callback _ _ :: rest => ticks :: tickIntervals 0 rest
  | ticks, _ :: rest => tickIntervals ticks rest

/-- Below ten microseconds the callback runs at once. Otherwise every interval has as many ticks as
its microseconds ask for, those between callbacks, too.
-/
def IntervalsExact (clock : TimerClock) (ctrl : HwTmrCtrl) (tmrIdx : Nat) (tUs : UInt32)
    (func arg : Nat) (returns : List Int32) : Prop :=
  let ticks := (clock.timerTick1usGet tmrIdx).toNat
  let (sts, after, acts) := drvHwTmrSet clock ctrl tmrIdx tUs (some func) arg
  sts = .hwTimerSucc
  ∧ if tUs.toNat < 10 then acts = [.callback func arg]
    else
      tickIntervals 0 (acts ++ hwTmrIrqs clock tmrIdx after returns)
      = tUs.toNat * ticks :: returns.map fun t => t.toInt.toNat * ticks

/-- The products fit in the low word of the expiry. -/
def ProductsFit (clock : TimerClock) (tmrIdx : Nat) (tUs : UInt32) (returns : List Int32) : Prop :=
  let ticks := (clock.timerTick1usGet tmrIdx).toNat
  tUs.toNat < 10
  ∨ tUs.toNat * ticks < 4294967296 ∧ ∀ t ∈ returns, t.toInt.toNat * ticks < 4294967296

variable {clock : TimerClock} {ctrl : HwTmrCtrl} {tmrIdx func arg : Nat} {tUs : UInt32}
  {returns : List Int32}

theorem TimerClock.ticks_bounds (clock : TimerClock) (tmrIdx : Nat)
    : 0 < (clock.timerTick1usGet tmrIdx).toNat
      ∧ 10 * (clock.timerTick1usGet tmrIdx).toNat < 4294967296 := by
  unfold TimerClock.timerTick1usGet
  split
  · exact clock.hTicks
  · exact clock.sTicks

/-- A timer that waits for its timeout, with nothing in the high word. -/
structure Waits (ctrl : HwTmrCtrl) (tmrIdx func arg : Nat) : Prop where
  status : (ctrl.timerInfo tmrIdx).status = .wto
  cb : (ctrl.timerInfo tmrIdx).cb = some func
  arg : (ctrl.timerInfo tmrIdx).arg = arg
  high : (ctrl.timerInfo tmrIdx).expireInfo.high = 0

/-- A callback that asks for more time gets the low word of its product. -/
theorem Waits.irq (clock : TimerClock) (waits : Waits ctrl tmrIdx func arg) {t : Int32}
    (positive : 0 < t)
    : ∃ after, drvHwTmrIrqProcess clock ctrl tmrIdx t
        = (after, [.callback func arg, .hwTimerSet (t.toUInt32 * clock.timerTick1usGet tmrIdx)])
      ∧ Waits after tmrIdx func arg := by
  have not_negative : ¬t < 0 := Int32.not_lt.mpr (Int32.le_of_lt positive)
  have not_zero : ¬t = 0 := fun zero => Int32.lt_irrefl (zero ▸ positive)
  refine ⟨ctrl.update tmrIdx
    { ctrl.timerInfo tmrIdx with
      expireInfo :=
        { (ctrl.timerInfo tmrIdx).expireInfo with
          low := t.toUInt32 * clock.timerTick1usGet tmrIdx } }, ?_, ?_⟩
  · simp [drvHwTmrIrqProcess, waits.status, waits.cb, waits.arg, waits.high, not_negative, not_zero,
      HwTmrInfo.period]
  · constructor
    · simpa [HwTmrCtrl.update] using waits.status
    · simpa [HwTmrCtrl.update] using waits.cb
    · simpa [HwTmrCtrl.update] using waits.arg
    · simpa [HwTmrCtrl.update] using waits.high

/-- Each interrupt adds an interval, by induction over them. -/
theorem Waits.intervals (clock : TimerClock) (waits : Waits ctrl tmrIdx func arg)
    (positive : ∀ t ∈ returns, 0 < t) (ticks : Nat)
    : tickIntervals ticks (hwTmrIrqs clock tmrIdx ctrl returns)
      = ticks :: returns.map fun t => (t.toUInt32 * clock.timerTick1usGet tmrIdx).toNat := by
  induction returns generalizing ctrl ticks with
  | nil => rfl
  | cons t rest ih =>
      obtain ⟨after, irq, later⟩ := waits.irq clock (positive t (by simp))
      have rest_positive : ∀ t ∈ rest, 0 < t := fun t member => positive t (by simp [member])
      simp only [hwTmrIrqs, irq, List.cons_append, List.nil_append, tickIntervals, Nat.zero_add,
        ih later rest_positive, List.map_cons]

theorem product_toNat (x k : UInt32) : (x * k).toNat = x.toNat * k.toNat % 4294967296 :=
  UInt32.toNat_mul x k

/-- The boundary itself does not overflow. -/
theorem lt_timerSafeBoundary (clock : TimerClock) (tmrIdx : Nat) (tUs : UInt32)
    : tUs * clock.timerTick1usGet tmrIdx < timerSafeBoundaryInUs (clock.timerTick1usGet tmrIdx)
      ↔ tUs.toNat * (clock.timerTick1usGet tmrIdx).toNat % 4294967296
        < 10 * (clock.timerTick1usGet tmrIdx).toNat := by
  have bounds := clock.ticks_bounds tmrIdx
  have boundary : (timerSafeBoundaryInUs (clock.timerTick1usGet tmrIdx)).toNat
      = 10 * (clock.timerTick1usGet tmrIdx).toNat := by
    rw [timerSafeBoundaryInUs, product_toNat]
    exact Nat.mod_eq_of_lt bounds.2
  rw [UInt32.lt_iff_toNat_lt, boundary, product_toNat]

/-- Below the safety boundary the callback runs, and nothing is programmed. -/
theorem drvHwTmrSet_atOnce (func arg : Nat) (idle : (ctrl.timerInfo tmrIdx).status = .idle)
    (valid : tmrIdx < timerNum)
    (soon : tUs.toNat * (clock.timerTick1usGet tmrIdx).toNat % 4294967296
      < 10 * (clock.timerTick1usGet tmrIdx).toNat)
    : drvHwTmrSet clock ctrl tmrIdx tUs (some func) arg
      = (.hwTimerSucc, ctrl.update tmrIdx {}, [.callback func arg]) := by
  have within := (lt_timerSafeBoundary clock tmrIdx tUs).mpr soon
  rw [drvHwTmrSet, if_neg (by omega)]
  simp [hwTmrSetAbs, idle, within]

theorem drvHwTmrSet_waits (func arg : Nat) (idle : (ctrl.timerInfo tmrIdx).status = .idle)
    (valid : tmrIdx < timerNum)
    (late : ¬tUs.toNat * (clock.timerTick1usGet tmrIdx).toNat % 4294967296
      < 10 * (clock.timerTick1usGet tmrIdx).toNat)
    : ∃ after, drvHwTmrSet clock ctrl tmrIdx tUs (some func) arg
        = (.hwTimerSucc, after,
          [.hwTimerSet (tUs * clock.timerTick1usGet tmrIdx), .hwTimerStart])
      ∧ Waits after tmrIdx func arg := by
  have beyond := (lt_timerSafeBoundary clock tmrIdx tUs).not.mpr late
  refine ⟨ctrl.update tmrIdx
    { expireInfo := { low := tUs * clock.timerTick1usGet tmrIdx, high := 0 }
      cb := some func
      arg := arg
      status := .wto }, ?_, ?_⟩
  · rw [drvHwTmrSet, if_neg (by omega)]
    simp [hwTmrSetAbs, idle, beyond, HwTmrInfo.period]
  · constructor <;> simp [HwTmrCtrl.update]

/-- A product is programmed as it is when it fits, and only then. -/
theorem product_exact_iff (x : Nat) (k : UInt32) (asked : UInt32) (same : asked.toNat = x)
    : (asked * k).toNat = x * k.toNat ↔ x * k.toNat < 4294967296 := by
  rw [product_toNat, same]
  constructor
  · intro exact_
    have bounded := Nat.mod_lt (x * k.toNat) (show 0 < 4294967296 by decide)
    omega
  · exact Nat.mod_eq_of_lt

theorem toUInt32_toNat {t : Int32} (positive : 0 < t) : t.toUInt32.toNat = t.toInt.toNat :=
  Int32.toNat_toUInt32_of_le (Int32.le_of_lt positive)

/-- Every interval is exact in exactly the runs whose products fit in 32 bits. -/
theorem hwTmr_intervals_iff (clock : TimerClock) (ctrl : HwTmrCtrl) (tmrIdx : Nat) (tUs : UInt32)
    (func arg : Nat) (returns : List Int32) (valid : tmrIdx < timerNum)
    (idle : (ctrl.timerInfo tmrIdx).status = .idle) (positive : ∀ t ∈ returns, 0 < t)
    : IntervalsExact clock ctrl tmrIdx tUs func arg returns
      ↔ ProductsFit clock tmrIdx tUs returns := by
  have bounds := clock.ticks_bounds tmrIdx
  by_cases soon : tUs.toNat < 10
  · have small : tUs.toNat * (clock.timerTick1usGet tmrIdx).toNat
        < 10 * (clock.timerTick1usGet tmrIdx).toNat :=
      Nat.mul_lt_mul_of_pos_right soon bounds.1
    have within : tUs.toNat * (clock.timerTick1usGet tmrIdx).toNat % 4294967296
        < 10 * (clock.timerTick1usGet tmrIdx).toNat := by
      rw [Nat.mod_eq_of_lt (by omega)]
      exact small
    have at_once := drvHwTmrSet_atOnce func arg idle valid within
    refine iff_of_true ?_ (.inl soon)
    simp [IntervalsExact, at_once, soon]
  · have large : 10 * (clock.timerTick1usGet tmrIdx).toNat
        ≤ tUs.toNat * (clock.timerTick1usGet tmrIdx).toNat :=
      Nat.mul_le_mul_right _ (by omega)
    by_cases wrapped : tUs.toNat * (clock.timerTick1usGet tmrIdx).toNat % 4294967296
        < 10 * (clock.timerTick1usGet tmrIdx).toNat
    · -- the wrapped product looks like an interval that is over already
      have at_once := drvHwTmrSet_atOnce func arg idle valid wrapped
      refine iff_of_false (fun holds => ?_) (fun fit => ?_)
      · simp only [IntervalsExact, at_once, if_neg soon, List.cons_append, tickIntervals,
          List.cons.injEq] at holds
        omega
      · have fits := (fit.resolve_left soon).1
        rw [Nat.mod_eq_of_lt fits] at wrapped
        omega
    · obtain ⟨after, set, waits⟩ := drvHwTmrSet_waits func arg idle valid wrapped
      have intervals := waits.intervals clock positive
        (tUs * clock.timerTick1usGet tmrIdx).toNat
      simp only [IntervalsExact, ProductsFit, set, soon, if_false, false_or, List.cons_append,
        List.nil_append, tickIntervals, Nat.zero_add, intervals, true_and, List.cons.injEq]
      rw [product_exact_iff _ _ _ rfl, List.map_inj_left]
      refine and_congr_right fun _ => forall₂_congr fun t member => ?_
      exact product_exact_iff _ _ _ (toUInt32_toNat (positive t member))

/-- The system timer at 16 ticks, and the others at 32. -/
def clock16 : TimerClock where
  hTimerClock1us := 32
  sTimerClock1us := 16
  hTicks := by decide
  sTicks := by decide

def idleTimers : HwTmrCtrl := { timerInfo := fun _ => {} }

/-- A second, two milliseconds, and twenty microseconds. -/
theorem hwTmr_intervals_iff_seconds
    : IntervalsExact clock16 idleTimers 3 1000000 1 0 [2000, 20] :=
  have positive : ∀ t ∈ [(2000 : Int32), 20], 0 < t :=
    List.forall_mem_cons.mpr ⟨by decide, List.forall_mem_singleton.mpr (by decide)⟩
  have products : ∀ t ∈ [(2000 : Int32), 20], t.toInt.toNat * 16 < 4294967296 :=
    List.forall_mem_cons.mpr ⟨by decide, List.forall_mem_singleton.mpr (by decide)⟩
  (hwTmr_intervals_iff clock16 idleTimers 3 1000000 1 0 [2000, 20] (by decide) rfl
    positive).mpr (.inr ⟨by decide, products⟩)

/-- Five minutes, for which the system timer is set to 505032704 ticks, half a minute. -/
theorem hwTmr_set_wraps
    : (drvHwTmrSet clock16 idleTimers 3 300000000 (some 1) 0).2.2
        = [.hwTimerSet 505032704, .hwTimerStart]
      ∧ ¬IntervalsExact clock16 idleTimers 3 300000000 1 0 [] := by
  refine ⟨rfl, fun holds => ?_⟩
  have intervals : [505032704] = [4800000000] := holds.2
  exact absurd intervals (by decide)

end TelinkSdk.HwTimer
