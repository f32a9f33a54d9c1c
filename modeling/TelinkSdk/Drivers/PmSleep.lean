import TelinkSdk.Drivers.Pm
import TelinkSdk.Os.TimerRearm

/-! The time that the timers are credited with over any number of sleeps. The hand-over of a sleep
time sets the previous tick to that of the wake-up, so whatever had passed since the last call of
`ev_timer_process` and is not in the sleep time is lost.
-/

namespace TelinkSdk

open Links LinkView LinkStore

variable {statics : Nat} {l l' : List (TimerRef statics)} {r : TimerRef statics} {rate : TickRate}
  {st st' : TimedSys statics} {notes : List (TimerNote statics)} {phase32k : Nat}

-----------------------------------------------------------------------------------------
-- Sleeps
-----------------------------------------------------------------------------------------

/-- What the 32k counter shows after `t` ticks of the system timer: 32 of its ticks are a
millisecond. It may begin anywhere between two of its ticks.
-/
def tick32kAt (rate : TickRate) (phase32k t : Nat) : UInt32 :=
  .ofNat ((t * 32 + phase32k) / rate.ms)

/-- The milliseconds that a sleep is taken to last. -/
def sleepMs (rate : TickRate) (phase32k asleep awake : Nat) : UInt32 :=
  drvPmSleepTimeGet (tick32kAt rate phase32k awake) (tick32kAt rate phase32k asleep)

/-- A sleep from `asleep` to the time of the new state, and the hand-over behind it. -/
structure SleepStep (rate : TickRate) (phase32k : Nat) (st : TimedSys statics) (asleep : Nat)
    (st' : TimedSys statics) : Prop where
  later : st.now ≤ asleep
  sleeps : asleep ≤ st'.now
  idle : st.sys.phase = .idle
  update : drvPmWakeupTimeUpdate rate.sTimerClock1us (tick32kAt rate phase32k st'.now)
    (tick32kAt rate phase32k asleep) (tickAt st'.now) (tickAt st'.now) st.sys.timer
      = some st'.sys.timer
  stays : st'.sys.phase = .idle
  last : st'.last = if sleepMs rate phase32k asleep st'.now ≠ 0 then st'.now else st.last

/-- Runs of the timers with sleeps between the steps. -/
inductive SleepyRun (rate : TickRate) (phase32k : Nat) : TimedSys statics → Prop where
  | boot (events : Fin statics → EvTimerEvent statics) (now : Nat)
      : SleepyRun rate phase32k
          { sys := { timer := evTimerInit events 0 0, phase := .idle }, now, last := 0 }
  | awake {st st' : TimedSys statics} {action : TimerAction statics}
      {notes : List (TimerNote statics)} (before : SleepyRun rate phase32k st)
      (static : StaticCalls [] st.sys action) (step : TimedStep rate st action notes st')
      : SleepyRun rate phase32k st'
  | sleep {st st' : TimedSys statics} {asleep : Nat} (before : SleepyRun rate phase32k st)
      (step : SleepStep rate phase32k st asleep st') : SleepyRun rate phase32k st'

/-- The milliseconds that a timer was credited with, the ticks that the sleeps lost, and whether
every sleep was exact.
-/
structure SleepLedger where
  credited : Nat := 0
  lost : Int := 0
  exact : Bool := true
deriving DecidableEq, Repr

/-- The milliseconds that `ev_timer_update` takes off timer `r`; it does nothing for 0. -/
def creditOf (rate : TickRate) (r : TimerRef statics) (updateTime : UInt32) (now : Nat)
    (s : EvTimer statics) : Nat :=
  if updateTime = 0 then 0
  else (evTimerUpdate.chargeMs rate.sTimerClock1us updateTime (tickAt now) (s.data r)).toNat

/-- A step that is awake. -/
def SleepLedger.awake (rate : TickRate) (r : TimerRef statics) (st : TimedSys statics) (now : Nat)
    (ledger : SleepLedger) : TimerAction statics → SleepLedger
  | .process sTimerClock1us currSysTick _ =>
      { ledger with
        credited := ledger.credited + creditOf rate r
          (evTimerProcess.updateTime sTimerClock1us currSysTick st.sys.timer) now st.sys.timer }
  | _ => ledger

/-- A sleep that leaves nothing behind: it begins in the tick of the last update and lasts a whole
number of milliseconds, or it is too short to be noticed.
-/
def ExactSleep (rate : TickRate) (phase32k : Nat) (st : TimedSys statics) (asleep awake : Nat)
    : Prop :=
  sleepMs rate phase32k asleep awake = 0
    ∨ asleep = st.last ∧ (awake - asleep) % rate.ms = 0 ∧ awake - asleep < 134217728 * rate.ms

instance (rate : TickRate) (phase32k : Nat) (st : TimedSys statics) (asleep awake : Nat)
    : Decidable (ExactSleep rate phase32k st asleep awake) :=
  inferInstanceAs (Decidable (_ ∨ _))

/-- A sleep. -/
def SleepLedger.sleep (rate : TickRate) (phase32k : Nat) (r : TimerRef statics)
    (st : TimedSys statics) (asleep awake : Nat) (ledger : SleepLedger) : SleepLedger :=
  let sleepTime := sleepMs rate phase32k asleep awake
  {
    credited := ledger.credited + creditOf rate r sleepTime awake st.sys.timer
    lost := ledger.lost
      + if sleepTime ≠ 0 then (awake : Int) - st.last - sleepTime.toNat * rate.ms else 0
    exact := ledger.exact && decide (ExactSleep rate phase32k st asleep awake)
  }

/-- Runs from `start` that spare timer `r`. -/
inductive Slept (rate : TickRate) (phase32k : Nat) (r : TimerRef statics) (start : TimedSys statics)
    : SleepLedger → TimedSys statics → Prop where
  | start : Slept rate phase32k r start {} start
  | awake {ledger : SleepLedger} {st st' : TimedSys statics} {action : TimerAction statics}
      {notes : List (TimerNote statics)} (before : Slept rate phase32k r start ledger st)
      (static : StaticCalls [] st.sys action) (spares : Spares r st.sys action)
      (step : TimedStep rate st action notes st')
      : Slept rate phase32k r start (ledger.awake rate r st st'.now action) st'
  | sleep {ledger : SleepLedger} {st st' : TimedSys statics} {asleep : Nat}
      (before : Slept rate phase32k r start ledger st)
      (step : SleepStep rate phase32k st asleep st')
      : Slept rate phase32k r start (ledger.sleep rate phase32k r st asleep st'.now) st'

-----------------------------------------------------------------------------------------
-- One step
-----------------------------------------------------------------------------------------

/-- A sleep of whole milliseconds is measured exactly. -/
theorem sleepMs_whole {asleep k : Nat} (short : k < 134217728)
    : (sleepMs rate phase32k asleep (asleep + k * rate.ms)).toNat = k := by
  have whole : ((asleep + k * rate.ms) * 32 + phase32k) / rate.ms
      = (asleep * 32 + phase32k) / rate.ms + k * 32 := by
    have split : (asleep + k * rate.ms) * 32 + phase32k
        = asleep * 32 + phase32k + rate.ms * (k * 32) := by
      rw [Nat.add_mul, Nat.mul_assoc, Nat.mul_left_comm]
      omega
    rw [split, Nat.add_mul_div_left _ _ rate.ms_pos]
  have thirtyTwo : (32 : UInt32).toNat = 32 := rfl
  simp only [sleepMs, drvPmSleepTimeGet, tick32kAt, UInt32.toNat_div, UInt32.toNat_sub,
    UInt32.toNat_ofNat', thirtyTwo, whole]
  omega

/-- The hand-over charges every timer and moves the previous tick. -/
theorem TimedState.sleep {asleep : Nat} (state : TimedState rate st l)
    (step : SleepStep rate phase32k st asleep st')
    : TimedState rate st' l ∧ st'.sys.timer.remSysTick = st.sys.timer.remSysTick
      ∧ ∀ x ∈ l, (st.sys.timer.data x).isRunning = true
        → (st'.sys.timer.data x).isRunning = true := by
  have later := Nat.le_trans step.later step.sleeps
  have last := step.last
  have update := step.update
  rw [drvPmWakeupTimeUpdate, ← sleepMs] at update
  by_cases slept : sleepMs rate phase32k asleep st'.now ≠ 0
  case neg =>
      rw [if_neg slept] at last
      rw [if_neg slept, Option.some.injEq] at update
      have kept := state.keep later last (update ▸ state.timers) (update ▸ ⟨rfl, rfl⟩) (by rw [update])
      exact ⟨kept, by rw [update], fun x _ running => by rw [← update]; exact running⟩
  case pos =>
      rw [if_pos slept] at last
      rw [if_pos slept] at update
      obtain ⟨after, run, moved⟩ := Option.map_eq_some_iff.mp update
      obtain ⟨again, same, list, -, used⟩ := state.timers.update rate.sTimerClock1us
        (sleepMs rate phase32k asleep st'.now) (tickAt st'.now)
      have charged := state.timers.update_data slept run
      have same : again = after := Option.some.inj (same.symm.trans run)
      subst same
      have timers : TimerList st'.sys.timer l := by
        rw [← moved]
        exact list.congr (list.list.congr fun _ _ => rfl) (fun _ => rfl) rfl
      have data : st'.sys.timer.data = again.data := by rw [← moved]; rfl
      have running : ∀ x ∈ l, (st'.sys.timer.data x).isRunning = true := fun x inside => by
        rw [data, charged.listed x inside]
        rfl
      have rem : st'.sys.timer.remSysTick = st.sys.timer.remSysTick := by
        rw [← moved]
        exact charged.ticks.remSysTick
      refine ⟨⟨timers, fun i => ?_, ⟨?_, ?_⟩, Nat.le_of_eq last, fun i absent => ?_,
        fun x inside stopped => ?_⟩, rem, fun x inside _ => running x inside⟩
      · rw [← moved, ← state.listed i]
        exact Bool.coe_iff_coe.mpr (used i)
      · rw [last, ← moved]
      · rw [rem]
        exact state.clocked.remSysTick
      · rw [data, charged.others _ absent]
        exact state.rested i absent
      · rw [running x inside] at stopped
        cases stopped

/-- A step that spares a running timer leaves it in the list and running. -/
theorem TimedState.spared {action : TimerAction statics} (state : TimedState rate st l)
    (inside : r ∈ l) (running : (st.sys.timer.data r).isRunning = true)
    (static : StaticCalls [] st.sys action) (spares : Spares r st.sys action)
    (step : TimedStep rate st action notes st')
    : ∃ l', TimedState rate st' l' ∧ r ∈ l' ∧ (st'.sys.timer.data r).isRunning = true := by
  obtain ⟨l', after⟩ := state.step static step
  refine ⟨l', after, ?_⟩
  cases action with
  | call c =>
      obtain ⟨l₁, timers, data⟩ := state.timers.call_data (TimerAction.step_call step.step).1
      cases after.timers.unique timers
      obtain ⟨same, stays, -⟩ := state.call_spares inside spares data
      exact ⟨stays, by rw [same]; exact running⟩
  | process sTimerClock1us currSysTick curSysTick =>
      obtain ⟨-, expired, process, -⟩ := TimerAction.step_process step.step
      obtain ⟨rfl, rfl, rfl⟩ := step.reads
      have processed := state.timers.process_data state.clocked
        (Nat.le_trans state.order step.later) (step.soon rfl) process
      obtain ⟨again, expired', same, timers, -⟩ :=
        state.timers.process rate.sTimerClock1us (tickAt st'.now) (tickAt st'.now)
      rw [process, Option.some.injEq, Prod.mk.injEq] at same
      obtain ⟨rfl, rfl⟩ := same
      cases after.timers.unique timers
      refine ⟨inside, ?_⟩
      cases expired with
      | true => rw [processed.charged rfl r inside]; rfl
      | false => rw [processed.others r (Or.inl rfl)]; exact running
  | walk =>
      obtain ⟨timerEvt, prevHead, -, ⟨-, nearest, -⟩ | ⟨x, -, same, -⟩⟩ :=
        TimerAction.step_walk step.step
      · obtain ⟨data, -⟩ := evTimerNearestUpdate_data state.timers.list nearest
        obtain ⟨n, again, timers⟩ := state.timers.nearest
        rw [nearest, Option.some.injEq] at again
        cases after.timers.unique (again ▸ timers)
        exact ⟨inside, by rw [data]; exact running⟩
      · have timers := after.timers
        rw [same] at timers
        cases timers.unique state.timers
        exact ⟨inside, by rw [same]; exact running⟩
  | ret t =>
      obtain ⟨x, prevHead, place, returned, -⟩ := TimerAction.step_ret step.step
      obtain ⟨l₁, timers, -, outcome⟩ := state.timers.returned_data returned
      cases after.timers.unique timers
      obtain ⟨stays, still, -⟩ := outcome.spares inside spares place
      exact ⟨stays, still.trans running⟩

/-- The books of a running timer: credited, carried over or lost. -/
structure SleepState (rate : TickRate) (r : TimerRef statics) (start : TimedSys statics)
    (ledger : SleepLedger) (st : TimedSys statics) (l : List (TimerRef statics)) : Prop where
  state : TimedState rate st l
  inside : r ∈ l
  running : (st.sys.timer.data r).isRunning = true
  books : (ledger.credited * rate.ms + st.sys.timer.remSysTick.toNat + start.last : Int)
    + ledger.lost = start.sys.timer.remSysTick.toNat + st.last
  exact : ledger.exact = true → ledger.lost = 0

variable {start : TimedSys statics} {ledger : SleepLedger}

theorem creditOf_running {s : EvTimer statics} {updateTime : UInt32} {now : Nat}
    (running : (s.data r).isRunning = true)
    : creditOf rate r updateTime now s = updateTime.toNat := by
  rw [creditOf]
  split
  case isTrue none => rw [none]; rfl
  case isFalse => rw [evTimerUpdate.chargeMs, if_pos running]

theorem SleepState.awake {action : TimerAction statics}
    (sleepy : SleepState rate r start ledger st l) (static : StaticCalls [] st.sys action)
    (spares : Spares r st.sys action) (step : TimedStep rate st action notes st')
    : ∃ l', SleepState rate r start (ledger.awake rate r st st'.now action) st' l' := by
  obtain ⟨l', state, inside, running⟩ :=
    sleepy.state.spared sleepy.inside sleepy.running static spares step
  have sum := sleepy.state.sum step
  have credit : (ledger.awake rate r st st'.now action).credited
      = ledger.credited + action.updateTime st.sys.timer := by
    cases action with
    | process sTimerClock1us currSysTick curSysTick =>
        rw [SleepLedger.awake, creditOf_running sleepy.running]
        rfl
    | call c => rfl
    | walk => rfl
    | ret t => rfl
  have same : (ledger.awake rate r st st'.now action).lost = ledger.lost
      ∧ (ledger.awake rate r st st'.now action).exact = ledger.exact := by
    cases action <;> exact ⟨rfl, rfl⟩
  refine ⟨l', state, inside, running, ?_, ?_⟩
  · have books := sleepy.books
    rw [credit, same.1]
    push_cast
    rw [Int.add_mul]
    omega
  · rw [same.1, same.2]
    exact sleepy.exact

theorem SleepState.sleep {asleep : Nat} (sleepy : SleepState rate r start ledger st l)
    (step : SleepStep rate phase32k st asleep st')
    : SleepState rate r start (ledger.sleep rate phase32k r st asleep st'.now) st' l := by
  obtain ⟨state, rem, stays⟩ := sleepy.state.sleep step
  have books := sleepy.books
  have last := step.last
  refine ⟨state, sleepy.inside, stays r sleepy.inside sleepy.running, ?_, fun exact => ?_⟩
  · simp only [SleepLedger.sleep, creditOf_running sleepy.running, rem]
    by_cases slept : sleepMs rate phase32k asleep st'.now ≠ 0
    · rw [if_pos slept] at last ⊢
      rw [last]
      push_cast
      rw [Int.add_mul]
      omega
    · rw [if_neg slept] at last ⊢
      rw [ne_eq, not_not] at slept
      rw [last, slept]
      simpa using books
  · simp only [SleepLedger.sleep, Bool.and_eq_true, decide_eq_true_eq] at exact ⊢
    obtain ⟨before, none | ⟨rfl, whole, short⟩⟩ := exact
    · rw [sleepy.exact before, if_neg (not_not.mpr none), Int.zero_add]
    · obtain ⟨k, awake⟩ : ∃ k, st'.now - st.last = k * rate.ms :=
        ⟨_, (Nat.div_mul_cancel (Nat.dvd_of_mod_eq_zero whole)).symm⟩
      have now : st'.now = st.last + k * rate.ms := by
        have order := step.sleeps
        omega
      rw [awake] at short
      have measured : (sleepMs rate phase32k st.last st'.now).toNat = k := by
        rw [now]
        exact sleepMs_whole (Nat.lt_of_mul_lt_mul_right short)
      rw [sleepy.exact before, measured]
      split
      · rw [now]
        push_cast
        omega
      · rfl

-----------------------------------------------------------------------------------------
-- Whole runs
-----------------------------------------------------------------------------------------

theorem SleepyRun.state (run : SleepyRun rate phase32k st) : ∃ l, TimedState rate st l := by
  induction run with
  | boot events now => exact ⟨[], .boot rate events now⟩
  | awake _ static step ih =>
      obtain ⟨l, state⟩ := ih
      exact state.step static step
  | sleep _ step ih =>
      obtain ⟨l, state⟩ := ih
      exact ⟨l, (state.sleep step).1⟩

/-- Every run keeps the books, by induction on the run. -/
theorem Slept.state (slept : Slept rate phase32k r start ledger st)
    (began : TimedState rate start l) (inside : r ∈ l)
    (running : (start.sys.timer.data r).isRunning = true)
    : ∃ l', SleepState rate r start ledger st l' := by
  induction slept with
  | start => exact ⟨l, began, inside, running, by simp, fun _ => rfl⟩
  | awake before static spares step ih =>
      obtain ⟨l₁, sleepy⟩ := ih
      exact sleepy.awake static spares step
  | sleep before step ih =>
      obtain ⟨l₁, sleepy⟩ := ih
      exact ⟨l₁, sleepy.sleep step⟩

/-- What a running timer is credited with follows the real time but for what the sleeps lose, and
exact sleeps lose nothing.
-/
theorem drvPmWakeupTimeUpdate_drift (run : SleepyRun rate phase32k start)
    (registered : listExist start.sys.timer r = some (some r))
    (running : (start.sys.timer.data r).isRunning = true)
    (slept : Slept rate phase32k r start ledger st)
    : (ledger.exact = true
        → -(rate.ms : Int) < (st.last - start.last : Int) - ledger.credited * rate.ms
          ∧ (st.last - start.last : Int) - ledger.credited * rate.ms < rate.ms)
      ∧ -(rate.ms : Int) < (st.last - start.last : Int) - ledger.credited * rate.ms - ledger.lost
      ∧ (st.last - start.last : Int) - ledger.credited * rate.ms - ledger.lost < rate.ms := by
  obtain ⟨l, began⟩ := run.state
  have inside : r ∈ l := by
    rw [listExist_eq began.timers.list] at registered
    by_contra absent
    simp [absent] at registered
  obtain ⟨l', sleepy⟩ := slept.state began inside running
  have books := sleepy.books
  have first := began.clocked.remSysTick
  have rest := sleepy.state.clocked.remSysTick
  refine ⟨fun exact => ?_, by omega, by omega⟩
  have lost := sleepy.exact exact
  constructor <;> omega

-----------------------------------------------------------------------------------------
-- Sleeps that lose time
-----------------------------------------------------------------------------------------

/-- The main loop can always put the chip to sleep. -/
theorem TimedState.falls_asleep {asleep awake : Nat} (state : TimedState rate st l)
    (idle : st.sys.phase = .idle) (later : st.now ≤ asleep) (sleeps : asleep ≤ awake)
    : ∃ st', SleepStep rate phase32k st asleep st' ∧ st'.now = awake := by
  have updates : ∃ s', drvPmWakeupTimeUpdate rate.sTimerClock1us (tick32kAt rate phase32k awake)
      (tick32kAt rate phase32k asleep) (tickAt awake) (tickAt awake) st.sys.timer = some s' := by
    rw [drvPmWakeupTimeUpdate]
    obtain ⟨s', run, -⟩ := state.timers.update rate.sTimerClock1us
      (drvPmSleepTimeGet (tick32kAt rate phase32k awake) (tick32kAt rate phase32k asleep))
      (tickAt awake)
    split
    · exact ⟨_, Option.map_eq_some_iff.mpr ⟨s', run, rfl⟩⟩
    · exact ⟨_, rfl⟩
  obtain ⟨s', update⟩ := updates
  let last := if sleepMs rate phase32k asleep awake ≠ 0 then awake else st.last
  exact ⟨⟨{ timer := s', phase := .idle }, awake, last⟩, ⟨later, sleeps, idle, update, rfl, rfl⟩, rfl⟩

theorem TimedRun.sleepy (run : TimedRun rate st) : SleepyRun rate phase32k st := by
  induction run with
  | boot events now => exact .boot events now
  | step _ static step ih => exact ih.awake static step

/-- The state after a sleep. -/
def TimedSys.afterSleep (rate : TickRate) (phase32k : Nat) (st : TimedSys statics)
    (asleep awake : Nat) : TimedSys statics where
  sys :=
    {
      timer := (drvPmWakeupTimeUpdate rate.sTimerClock1us (tick32kAt rate phase32k awake)
        (tick32kAt rate phase32k asleep) (tickAt awake) (tickAt awake) st.sys.timer).getD
          st.sys.timer
      phase := .idle
    }
  now := awake
  last := if sleepMs rate phase32k asleep awake ≠ 0 then awake else st.last

theorem SleepStep.after {asleep awake : Nat} (later : st.now ≤ asleep) (sleeps : asleep ≤ awake)
    (idle : st.sys.phase = .idle)
    (updates : (drvPmWakeupTimeUpdate rate.sTimerClock1us (tick32kAt rate phase32k awake)
      (tick32kAt rate phase32k asleep) (tickAt awake) (tickAt awake) st.sys.timer).isSome)
    : SleepStep rate phase32k st asleep (st.afterSleep rate phase32k asleep awake) := by
  obtain ⟨timer, update⟩ := Option.isSome_iff_exists.mp updates
  refine ⟨later, sleeps, idle, ?_, rfl, rfl⟩
  rw [TimedSys.afterSleep, update]
  rfl

namespace SleptEvent

/-- The event is running; half a millisecond later `ev_timer_process` is called again. -/
def halfway : TimedSys 1 := RearmedEvent.running.after 24000 (.processAt .sixteen 24000)

/-- Two milliseconds of sleep. -/
def woken : TimedSys 1 := halfway.afterSleep .sixteen 0 24000 56000

/-- The half a millisecond carried over and 8500 ticks are one millisecond and a rest. -/
def processed : TimedSys 1 := woken.after 64500 (.processAt .sixteen 64500)

def walked : TimedSys 1 := processed.after 64500 .walk

def passed : TimedSys 1 := walked.after 64500 .walk

/-- Three milliseconds of sleep. -/
def wokenAgain : TimedSys 1 := passed.afterSleep .sixteen 0 64500 112500

theorem slept
    : ∃ ledger, Slept .sixteen 0 (.event 0) RearmedEvent.running ledger wokenAgain
      ∧ ledger = { credited := 6, lost := 0, exact := true } := by
  have half : TimedStep .sixteen RearmedEvent.running (.processAt .sixteen 24000) [] halfway :=
    .after (by decide) ⟨rfl, rfl, rfl⟩ (by decide) rfl
  have sleep : SleepStep .sixteen 0 halfway 24000 woken :=
    .after (by decide) (by decide) rfl (by decide +kernel)
  have process : TimedStep .sixteen woken (.processAt .sixteen 64500) [.passBegan] processed :=
    .after (by decide) ⟨rfl, rfl, rfl⟩ (by decide) rfl
  have first : TimedStep .sixteen processed .walk [] walked :=
    .after (by decide) trivial (by decide) rfl
  have last : TimedStep .sixteen walked .walk [.passEnded] passed :=
    .after (by decide) trivial (by decide) rfl
  have sleepAgain : SleepStep .sixteen 0 passed 64500 wokenAgain :=
    .after (by decide) (by decide) rfl (by decide +kernel)
  have awake := (Slept.start.awake (r := .event 0) (by trivial) (by trivial) half).sleep sleep
  have pass := ((awake.awake (by trivial) (by trivial) process).awake (by trivial) (by trivial)
    first).awake (by trivial) (by trivial) last
  exact ⟨_, pass.sleep sleepAgain, by decide +kernel⟩

end SleptEvent

/-- Two exact sleeps with a pass between them: six milliseconds and a rest of 500 ticks. -/
theorem drvPmWakeupTimeUpdate_drift_exact
    : ∃ ledger st, Slept .sixteen 0 (.event 0) RearmedEvent.running ledger st
      ∧ ledger.credited = 6 ∧ st.last = 112500
      ∧ -(TickRate.sixteen.ms : Int)
        < (st.last - 16000 : Int) - ledger.credited * TickRate.sixteen.ms
      ∧ (st.last - 16000 : Int) - ledger.credited * TickRate.sixteen.ms < TickRate.sixteen.ms := by
  obtain ⟨ledger, slept, rfl⟩ := SleptEvent.slept
  have drift := drvPmWakeupTimeUpdate_drift RearmedEvent.reached.sleepy rfl rfl slept
  exact ⟨_, _, slept, rfl, rfl, drift.1 rfl⟩

/-- A call of `ev_timer_process` in the tick of the last one. -/
theorem TimedState.processes_nothing (state : TimedState rate st l) (idle : st.sys.phase = .idle)
    (fresh : st.last = st.now)
    : TimedStep rate st (.processAt rate st.now) [] st := by
  refine ⟨Nat.le_refl _, ⟨rfl, rfl, rfl⟩, fun _ => by omega, fresh, ?_⟩
  have same : ¬tickAt st.now ≠ st.sys.timer.prevSysTick := by
    rw [state.clocked.prevSysTick, fresh, not_not]
  rcases st with ⟨⟨s, phase⟩, now, last⟩
  cases idle
  simp only [TimerAction.processAt, TimerAction.step, evTimerProcess]
  rw [if_neg same]
  rfl

/-- A period of just under a millisecond awake, after a call of `ev_timer_process`, and a millisecond
of sleep: the timer is credited with the sleep alone.
-/
theorem SleepState.naps {ledger : SleepLedger} {start : TimedSys statics}
    (sleepy : SleepState .sixteen r start ledger st l)
    (slept : Slept .sixteen 0 r start ledger st) (idle : st.sys.phase = .idle)
    (fresh : st.last = st.now)
    : ∃ ledger' st', Slept .sixteen 0 r start ledger' st' ∧ SleepState .sixteen r start ledger' st' l
      ∧ st'.sys.phase = .idle ∧ st'.last = st'.now ∧ st'.last = st.last + 31999
      ∧ ledger'.credited = ledger.credited + 1 := by
  have process := sleepy.state.processes_nothing idle fresh
  have static : StaticCalls [] st.sys (.processAt .sixteen st.now : TimerAction statics) := trivial
  have spares : Spares r st.sys (.processAt .sixteen st.now) := trivial
  have awake := slept.awake static spares process
  have nothing : evTimerProcess.updateTime TickRate.sixteen.sTimerClock1us (tickAt st.now) st.sys.timer
      = 0 := by
    rw [evTimerProcess.updateTime, if_neg]
    rw [sleepy.state.clocked.prevSysTick, fresh, not_not]
  have unchanged : ledger.awake .sixteen r st st.now (.processAt .sixteen st.now) = ledger := by
    simp [TimerAction.processAt, SleepLedger.awake, creditOf, nothing]
  rw [unchanged] at awake
  obtain ⟨st', step, now⟩ : ∃ st', SleepStep .sixteen 0 st (st.now + 15999) st'
      ∧ st'.now = st.now + 15999 + 1 * TickRate.sixteen.ms :=
    sleepy.state.falls_asleep idle (Nat.le_add_right _ _) (Nat.le_add_right _ _)
  have measured : (sleepMs .sixteen 0 (st.now + 15999) st'.now).toNat = 1 := by
    rw [now]
    exact sleepMs_whole (by decide)
  have slept : sleepMs .sixteen 0 (st.now + 15999) st'.now ≠ 0 := fun zero => by
    rw [zero] at measured
    cases measured
  have last := step.last
  rw [if_pos slept] at last
  have ms : TickRate.sixteen.ms = 16000 := rfl
  refine ⟨_, st', awake.sleep step, sleepy.sleep step, step.stays, last, by omega, ?_⟩
  simp only [SleepLedger.sleep, creditOf_running sleepy.running, measured]

/-- Naps one after the other: no constant bounds what the timer has missed. -/
theorem naps_drift
    : SleepyRun .sixteen 0 RearmedEvent.running
      ∧ listExist RearmedEvent.running.sys.timer (.event 0) = some (some (.event 0))
      ∧ (RearmedEvent.running.sys.timer.data (.event 0)).isRunning = true
      ∧ ∀ bound : Nat, ∃ ledger st, Slept .sixteen 0 (.event 0) RearmedEvent.running ledger st
        ∧ bound ≤ (st.last - RearmedEvent.running.last) - ledger.credited * TickRate.sixteen.ms := by
  refine ⟨RearmedEvent.reached.sleepy, rfl, rfl, fun bound => ?_⟩
  obtain ⟨l, began⟩ := RearmedEvent.reached.state
  have inside : TimerRef.event 0 ∈ l := by
    have registered : listExist RearmedEvent.running.sys.timer (.event 0)
        = some (some (.event 0)) := rfl
    rw [listExist_eq began.timers.list] at registered
    by_contra absent
    simp [absent] at registered
  have naps n : ∃ ledger st, Slept .sixteen 0 (.event 0) RearmedEvent.running ledger st
      ∧ SleepState .sixteen (.event 0) RearmedEvent.running ledger st l
      ∧ st.sys.phase = .idle ∧ st.last = st.now
      ∧ st.last = RearmedEvent.running.last + n * 31999 ∧ ledger.credited = n := by
    induction n with
    | zero =>
        exact ⟨_, _, .start, ⟨began, inside, rfl, by simp, fun _ => rfl⟩, rfl, rfl, by simp, rfl⟩
    | succ n ih =>
        obtain ⟨ledger, st, slept, sleepy, idle, fresh, last, credited⟩ := ih
        obtain ⟨ledger', st', slept', sleepy', idle', fresh', last', credited'⟩ :=
          sleepy.naps slept idle fresh
        exact ⟨ledger', st', slept', sleepy', idle', fresh', by omega, by omega⟩
  obtain ⟨ledger, st, slept, -, -, -, last, credited⟩ := naps bound
  refine ⟨ledger, st, slept, ?_⟩
  have ms : TickRate.sixteen.ms = 16000 := rfl
  rw [last, credited, ms]
  omega

end TelinkSdk
