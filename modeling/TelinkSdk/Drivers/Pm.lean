import Mathlib.Algebra.GroupWithZero.Nat
import TelinkSdk.Os.Timer
import TelinkSdk.Platform.FlashPage

/-! Power management, `drv_pm.c`: what `drv_pm_lowPowerEnter` asks the library of the chip for, and
the hand-over of the sleep time to the software timers.
-/

namespace TelinkSdk

-----------------------------------------------------------------------------------------
-- Chips
-----------------------------------------------------------------------------------------

/-- The clock of an 826x, `CLOCK_SYS_CLOCK_HZ`. -/
inductive SysClk826x where
  | pll16M
  | pll32M
deriving DecidableEq, Repr

/-- A chip; the clock matters on the 826x only. -/
structure Chip where
  core : McuCore
  clock : SysClk826x := .pll32M
deriving DecidableEq, Repr

/-- `S_TIMER_CLOCK_1US`. The 826x counts the ticks of its system clock. -/
def Chip.sTimerClock1us (chip : Chip) : UInt32 :=
  match chip.core, chip.clock with
  | .mcu826x, .pll16M => 16
  | .mcu826x, .pll32M => 32
  | .mcu8258, _ => 16
  | .mcu8278, _ => 16
  | .mcuB91, _ => 16

/-- In milliseconds. -/
def Chip.pmNormalSleepMax (chip : Chip) : UInt32 :=
  match chip.core with
  | .mcu826x => 100 * 1000
  | .mcu8258 => 230 * 1000
  | .mcu8278 => 230 * 1000
  | .mcuB91 => 230 * 1000

/-- `drv_pm_sleep_mode_e` -/
inductive PmSleepMode where
  | suspend
  | deepSleep
  | deepWithRetention
  | mcuStall
deriving DecidableEq, Repr

/-- `drv_pm_wakeup_src_e`, one bit each. -/
structure PmWakeupSrc where
  pad : Bool
  timer : Bool
deriving DecidableEq, Repr

/-- The modes that the sleep functions pass on; with another one they return at once. -/
def Chip.sleeps (chip : Chip) : PmSleepMode → Bool
  | .suspend => true
  | .deepSleep => true
  | .deepWithRetention => chip.core != .mcu826x
  | .mcuStall => false

-----------------------------------------------------------------------------------------
-- Sleeping
-----------------------------------------------------------------------------------------

/-- When the library is to wake the chip: at a tick of the system timer, or after a number of
32k ticks.
-/
inductive PmWakeup where
  | atTick (tick : UInt32)
  | after32k (ticks : UInt32)
deriving DecidableEq, Repr

/-- A call of `pm_sleep_wakeup`, `cpu_sleep_wakeup` or `pm_long_sleep_wakeup`. -/
structure PmSleepCall where
  mode : PmSleepMode
  src : PmWakeupSrc
  wakeup : PmWakeup
deriving DecidableEq, Repr

def drvPmSleep (chip : Chip) (clockTime : UInt32) (mode : PmSleepMode) (src : PmWakeupSrc)
    (durationMs : UInt32) : Option PmSleepCall :=
  if chip.sleeps mode then
    some { mode, src, wakeup := .atTick (clockTime + durationMs * 1000 * chip.sTimerClock1us) }
  else none

def drvPmLongSleep (chip : Chip) (mode : PmSleepMode) (src : PmWakeupSrc) (durationMs : UInt32)
    : Option PmSleepCall :=
  if chip.sleeps mode then some { mode, src, wakeup := .after32k (durationMs * 32) } else none

/-- What `drv_pm_lowPowerEnter` does: the frame counter is kept for a deep sleep, and the chip is
put to sleep.
-/
structure PmLowPower where
  frameCntSet : Bool
  sleep : Option PmSleepCall
deriving DecidableEq, Repr

/-- The mode: without a timer to wake it the chip sleeps deeply. -/
def drvPmLowPowerEnter.mode (chip : Chip) (timer : Bool) : PmSleepMode :=
  if timer then
    match chip.core with
    | .mcu826x => .suspend
    | _ => .deepWithRetention
  else .deepSleep

/-- `nearest` is the timeout of the timer that `ev_timer_nearestGet` returns. Nothing is done while
the stack is busy or a task is waiting.
-/
def drvPmLowPowerEnter (chip : Chip) (stackBusy taskDone : Bool) (clockTime : UInt32)
    (nearest : Option UInt32) : Option PmLowPower :=
  if stackBusy || !taskDone then none
  else
    let wakeupSrc : PmWakeupSrc := { pad := true, timer := nearest.isSome }
    let sleepTime := nearest.getD 0
    let sleepMode := drvPmLowPowerEnter.mode chip wakeupSrc.timer
    let longSleep := sleepTime ≠ 0 ∧ sleepTime > chip.pmNormalSleepMax
    some
      {
        frameCntSet := sleepMode = .deepSleep
        sleep :=
          if longSleep then drvPmLongSleep chip sleepMode wakeupSrc sleepTime
          else drvPmSleep chip clockTime sleepMode wakeupSrc sleepTime
      }

-----------------------------------------------------------------------------------------
-- Sleep times
-----------------------------------------------------------------------------------------

/-- The ticks from the call to the wake-up, of the clock that counts them. -/
def PmWakeup.ticks (clockTime : UInt32) : PmWakeup → Nat
  | .atTick tick => (tick - clockTime).toNat
  | .after32k ticks => ticks.toNat

/-- The ticks that the sleep for a timer is to take. -/
def Chip.sleepTicks (chip : Chip) (t : UInt32) : Nat :=
  if t ≤ chip.pmNormalSleepMax then t.toNat * 1000 * chip.sTimerClock1us.toNat else t.toNat * 32

/-- In the short sleep nothing wraps. -/
theorem Chip.short_exact (chip : Chip) {t : UInt32} (short : t ≤ chip.pmNormalSleepMax)
    : (t * 1000 * chip.sTimerClock1us).toNat = t.toNat * 1000 * chip.sTimerClock1us.toNat := by
  have bound : t.toNat ≤ chip.pmNormalSleepMax.toNat := UInt32.le_iff_toNat_le.mp short
  have small : t.toNat * 1000 * chip.sTimerClock1us.toNat < 2 ^ 32 := by
    rcases chip with ⟨_ | _ | _ | _, _ | _⟩ <;>
      simp [Chip.pmNormalSleepMax, Chip.sTimerClock1us] at bound ⊢ <;> omega
  simp only [UInt32.toNat_mul, UInt32.reduceToNat, Nat.mod_mul_mod]
  exact Nat.mod_eq_of_lt small

/-- The long sleep wraps from 2^27 ms on. -/
theorem long_exact_iff (t : UInt32) : (t * 32).toNat = t.toNat * 32 ↔ t.toNat < 2 ^ 27 := by
  simp only [UInt32.toNat_mul, UInt32.reduceToNat]
  omega

/-- The sleep for the nearest timer is as long as its timeout exactly for timeouts of less than
2^27 ms.
-/
theorem drvPmLowPowerEnter_exact (chip : Chip) (clockTime t : UInt32)
    : ((drvPmLowPowerEnter chip false true clockTime (some t)).bind PmLowPower.sleep).map
        (fun call => call.wakeup.ticks clockTime) = some (chip.sleepTicks t)
      ↔ t.toNat < 2 ^ 27 := by
  have sleeps : chip.sleeps (drvPmLowPowerEnter.mode chip true) = true := by
    rcases chip with ⟨_ | _ | _ | _, _ | _⟩ <;> rfl
  by_cases short : t ≤ chip.pmNormalSleepMax
  case pos =>
      have admitted : t.toNat < 2 ^ 27 := by
        have bound : t.toNat ≤ chip.pmNormalSleepMax.toNat := UInt32.le_iff_toNat_le.mp short
        rcases chip with ⟨_ | _ | _ | _, _ | _⟩ <;>
          simp [Chip.pmNormalSleepMax] at bound <;> omega
      have notLong : ¬(t ≠ 0 ∧ t > chip.pmNormalSleepMax) :=
        fun both => UInt32.not_lt.mpr short both.2
      have waits : ∀ d : UInt32, clockTime + d - clockTime = d := fun d => by
        rw [UInt32.add_comm, UInt32.add_sub_cancel]
      refine iff_of_true ?_ admitted
      simp [drvPmLowPowerEnter, notLong, drvPmSleep, sleeps, PmWakeup.ticks, Chip.sleepTicks,
        short, waits, chip.short_exact short]
  case neg =>
      have long : t > chip.pmNormalSleepMax := UInt32.not_le.mp short
      have positive : t ≠ 0 := by
        rintro rfl
        exact short (UInt32.zero_le)
      rw [← long_exact_iff]
      simp [drvPmLowPowerEnter, long, positive, drvPmLongSleep, sleeps, PmWakeup.ticks,
        Chip.sleepTicks, short]

/-- A timer of 2^27 ms, about 37 hours: the chip is to wake at once. -/
theorem long_sleep_wraps
    : ((drvPmLowPowerEnter { core := .mcu8258 } false true 0 (some 134217728)).bind PmLowPower.sleep).map
        (fun call => call.wakeup) = some (.after32k 0)
      ∧ Chip.sleepTicks { core := .mcu8258 } 134217728 = 2 ^ 32 := by
  decide

-----------------------------------------------------------------------------------------
-- Waking up
-----------------------------------------------------------------------------------------

/-- The milliseconds since the sleep functions read the 32k timer. -/
def drvPmSleepTimeGet (tick32k prevSleepTick : UInt32) : UInt32 := (tick32k - prevSleepTick) / 32

/-- The two ticks are what the clock returns in `ev_timer_update` and behind it. -/
def drvPmWakeupTimeUpdate {statics : Nat} (sTimerClock1us tick32k prevSleepTick curSysTick
    clockTime : UInt32) (s : EvTimer statics) : Option (EvTimer statics) :=
  let sleepTime := drvPmSleepTimeGet tick32k prevSleepTick
  if sleepTime ≠ 0 then
    (evTimerUpdate sTimerClock1us sleepTime curSysTick s).map fun s =>
      { s with prevSysTick := clockTime }
  else some s

end TelinkSdk
