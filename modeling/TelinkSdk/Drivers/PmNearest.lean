import TelinkSdk.Drivers.Pm
import TelinkSdk.Os.TimerClock

/-! The timer that power management sleeps for. The timer operations look for the nearest timer
again where they change a timeout; `drv_pm_wakeupTimeUpdate` changes them all and does not.
-/

namespace TelinkSdk

open Links LinkView LinkStore

variable {statics : Nat} {s s' : EvTimer statics} {l l' : List (TimerRef statics)}
  {sys sys' : TimerSys statics}

-----------------------------------------------------------------------------------------
-- Steps
-----------------------------------------------------------------------------------------

def evTimerNearestGet (s : EvTimer statics) : Option (TimerRef statics) := s.timerNearest

/-- A step of the timers, or the hand-over of a sleep time to them. -/
inductive PmAction (statics : Nat) where
  | timer (action : TimerAction statics)
  | wakeupTimeUpdate (sTimerClock1us tick32k prevSleepTick curSysTick clockTime : UInt32)

/-- The chip sleeps in the main loop. -/
def PmAction.step (sys : TimerSys statics) : PmAction statics → Option (TimerSys statics)
  | .timer action => (action.step sys).map Prod.fst
  | .wakeupTimeUpdate sTimerClock1us tick32k prevSleepTick curSysTick clockTime =>
      match sys.phase with
      | .idle =>
          (drvPmWakeupTimeUpdate sTimerClock1us tick32k prevSleepTick curSysTick clockTime
            sys.timer).map ({ sys with timer := · })
      | _ => none

/-- The whole milliseconds since the timer was registered. -/
def evTimerAge (sTimerClock1us curSysTick : UInt32) (e : EvTimerEvent statics) : Nat :=
  ((curSysTick - e.curSysTick) / (sTimerClock1us * 1000)).toNat

/-- A running timer loses the sleep time and a new one its age. So the nearest timer stays in front
if it ends, or if what another timer loses beyond it is no more than the distance between them.
-/
def drvPmWakeupTimeUpdate.KeepsNearest (sTimerClock1us sleepTime curSysTick : UInt32)
    (s : EvTimer statics) (l : List (TimerRef statics)) : Prop :=
  ∀ n x, s.timerNearest = some n → x ∈ l
    → let nearest := (s.data n).timeout.toNat
      let other := (s.data x).timeout.toNat
      let slept := sleepTime.toNat
      let age := fun r => evTimerAge sTimerClock1us curSysTick (s.data r)
      match (s.data n).isRunning, (s.data x).isRunning with
      | true, true => True
      | true, false => nearest ≤ slept ∨ nearest + age x ≤ other + slept
      | false, true => nearest ≤ age n ∨ nearest + slept ≤ other + age n
      | false, false => nearest ≤ age n ∨ nearest + age x ≤ other + age n

/-- The steps that leave the nearest timer known: no call in a callback is refused, and a sleep
time is handed over only where the nearest timer stays in front.
-/
def PmAction.Orderly (sys : TimerSys statics) : PmAction statics → Prop
  | .timer (.call c) => sys.phase ≠ .idle → ¬c.Refused sys.timer
  | .timer _ => True
  | .wakeupTimeUpdate sTimerClock1us tick32k prevSleepTick curSysTick _ =>
      let sleepTime := drvPmSleepTimeGet tick32k prevSleepTick
      sleepTime ≠ 0
        → ∀ l, ListAt sys.timer sys.timer.timerHead l
        → drvPmWakeupTimeUpdate.KeepsNearest sTimerClock1us sleepTime curSysTick sys.timer l

/-- The states that orderly steps reach. -/
inductive PmRun : TimerSys statics → Prop where
  | boot (events : Fin statics → EvTimerEvent statics) (prevSysTick remSysTick : UInt32)
      : PmRun { timer := evTimerInit events prevSysTick remSysTick, phase := .idle }
  | step {sys sys' : TimerSys statics} {action : PmAction statics} (before : PmRun sys)
      (orderly : action.Orderly sys) (step : action.step sys = some sys') : PmRun sys'

/-- The step is the whole of an operation, or its end. -/
def PmAction.Returns (sys' : TimerSys statics) (action : PmAction statics) : Prop :=
  sys'.phase = .idle ∨ ∃ c, action = .timer (.call c)

-----------------------------------------------------------------------------------------
-- One step
-----------------------------------------------------------------------------------------

theorem Nearest.congr (nearest : Nearest s l) (same : s'.timerNearest = s.timerNearest)
    (data : s'.data = s.data)
    : Nearest s' l := by
  refine ⟨by rw [same]; exact nearest.none_iff, fun n points => ?_⟩
  rw [same] at points
  rw [data]
  exact nearest.least n points

/-- A call that is not refused looks for the nearest timer again. -/
theorem CallData.nearest {c : TimerCall statics} (data : CallData s s' l l' c)
    (effective : ¬c.Refused s)
    : Nearest s' l' := by
  cases data with
  | refused refused same list => exact absurd refused effective
  | posts i clockTime func arg tMs free data list ticks nearest => exact nearest
  | arms r clockTime timeout data list ticks nearest => exact nearest
  | stops r call inside data list ticks nearest => exact nearest

/-- What is left of a timeout is at most what is left of another exactly if the first runs out or
the second loses no more beyond the first than the distance between them.
-/
theorem evTimerUpdate.charge_le_iff {sTimerClock1us updateTime curSysTick : UInt32}
    {a b : EvTimerEvent statics} {passed : EvTimerEvent statics → Nat}
    (charged : ∀ e, (chargeMs sTimerClock1us updateTime curSysTick e).toNat = passed e)
    : (charge sTimerClock1us updateTime curSysTick a).timeout
        ≤ (charge sTimerClock1us updateTime curSysTick b).timeout
      ↔ a.timeout.toNat ≤ passed a
        ∨ a.timeout.toNat + passed b ≤ b.timeout.toNat + passed a := by
  rw [UInt32.le_iff_toNat_le, charge_timeout, charge_timeout, charged, charged]
  omega

theorem evTimerUpdate.chargeMs_eq (sTimerClock1us updateTime curSysTick : UInt32)
    (e : EvTimerEvent statics)
    : (chargeMs sTimerClock1us updateTime curSysTick e).toNat
      = if e.isRunning then updateTime.toNat else evTimerAge sTimerClock1us curSysTick e := by
  rw [chargeMs, evTimerAge]
  split <;> rfl

/-- The condition is what keeps the charged timers behind the charged nearest one. -/
theorem drvPmWakeupTimeUpdate.keepsNearest_iff (sTimerClock1us sleepTime curSysTick : UInt32)
    (nearest : Nearest s l)
    : KeepsNearest sTimerClock1us sleepTime curSysTick s l
      ↔ ∀ n x, s.timerNearest = some n → x ∈ l
        → (evTimerUpdate.charge sTimerClock1us sleepTime curSysTick (s.data n)).timeout
          ≤ (evTimerUpdate.charge sTimerClock1us sleepTime curSysTick (s.data x)).timeout := by
  refine forall_congr' fun n => forall_congr' fun x => ?_
  refine forall_congr' fun points => forall_congr' fun inside => ?_
  have least := UInt32.le_iff_toNat_le.mp ((nearest.least n points).2 x inside)
  rw [evTimerUpdate.charge_le_iff (evTimerUpdate.chargeMs_eq _ _ _)]
  cases (s.data n).isRunning <;> cases (s.data x).isRunning
  case true.true =>
      -- both lose the sleep, and the nearest one is in front already
      refine iff_of_true trivial (Or.inr ?_)
      simp only [if_true]
      omega
  all_goals simp

/-- The hand-over of a sleep time leaves `timer_nearest` where it was, so the nearest timer stays
known exactly if its lead outlasts the charge.
-/
theorem drvPmWakeupTimeUpdate_nearest
    {sTimerClock1us tick32k prevSleepTick curSysTick clockTime : UInt32}
    (timers : TimerList s l) (nearest : Nearest s l)
    (run : drvPmWakeupTimeUpdate sTimerClock1us tick32k prevSleepTick curSysTick clockTime s
      = some s')
    : TimerList s' l
      ∧ (Nearest s' l ↔ (drvPmSleepTimeGet tick32k prevSleepTick ≠ 0
        → drvPmWakeupTimeUpdate.KeepsNearest sTimerClock1us
          (drvPmSleepTimeGet tick32k prevSleepTick) curSysTick s l)) := by
  rw [drvPmWakeupTimeUpdate] at run
  by_cases slept : drvPmSleepTimeGet tick32k prevSleepTick ≠ 0
  case neg =>
      rw [if_neg slept] at run
      cases run
      exact ⟨timers, iff_of_true nearest fun passed => absurd passed slept⟩
  case pos =>
      rw [if_pos slept] at run
      obtain ⟨after, update, rfl⟩ := Option.map_eq_some_iff.mp run
      obtain ⟨again, same, list, -⟩ := timers.update sTimerClock1us
        (drvPmSleepTimeGet tick32k prevSleepTick) curSysTick
      rw [update, Option.some.injEq] at same
      subst same
      have charged := timers.update_data slept update
      have data : ∀ x ∈ l, { after with prevSysTick := clockTime }.data x
          = evTimerUpdate.charge sTimerClock1us (drvPmSleepTimeGet tick32k prevSleepTick) curSysTick
            (s.data x) := charged.listed
      have pointer : { after with prevSysTick := clockTime }.timerNearest = s.timerNearest :=
        charged.timerNearest
      refine ⟨list.congr (list.list.congr fun _ _ => rfl) (fun _ => rfl) rfl, ?_⟩
      have exact := drvPmWakeupTimeUpdate.keepsNearest_iff sTimerClock1us
        (drvPmSleepTimeGet tick32k prevSleepTick) curSysTick nearest
      constructor
      · intro later _
        refine exact.mpr fun n x points inside => ?_
        obtain ⟨member, least⟩ := later.least n (pointer.trans points)
        rw [← data n member, ← data x inside]
        exact least x inside
      · intro keeps
        refine ⟨pointer ▸ nearest.none_iff, fun n points => ?_⟩
        rw [pointer] at points
        have member := (nearest.least n points).1
        refine ⟨member, fun x inside => ?_⟩
        rw [data n member, data x inside]
        exact exact.mp (keeps slept) n x points inside

/-- What holds of every state. -/
structure PmState (sys : TimerSys statics) (l : List (TimerRef statics)) : Prop where
  timers : TimerList sys.timer l
  nearest : sys.phase = .idle → Nearest sys.timer l

/-- An orderly step leaves the nearest timer known where an operation returns. -/
theorem PmState.step {action : PmAction statics} (state : PmState sys l)
    (orderly : action.Orderly sys) (step : action.step sys = some sys')
    : ∃ l', TimerList sys'.timer l' ∧ (action.Returns sys' → Nearest sys'.timer l') := by
  cases action with
  | wakeupTimeUpdate sTimerClock1us tick32k prevSleepTick curSysTick clockTime =>
      rw [PmAction.step] at step
      split at step
      case h_1 idle =>
        obtain ⟨s', run, rfl⟩ := Option.map_eq_some_iff.mp step
        obtain ⟨timers, exact⟩ :=
          drvPmWakeupTimeUpdate_nearest state.timers (state.nearest idle) run
        exact ⟨l, timers, fun _ => exact.mpr fun slept => orderly slept l state.timers.list⟩
      case h_2 => cases step
  | timer action =>
      obtain ⟨⟨after, notes⟩, run, rfl⟩ := Option.map_eq_some_iff.mp step
      obtain ⟨l', effect⟩ := state.timers.step run
      refine ⟨l', effect.timers, fun returns => ?_⟩
      cases action with
      | call c =>
          obtain ⟨exec, phase, -⟩ := TimerAction.step_call run
          obtain ⟨l₁, timers, data⟩ := state.timers.call_data exec
          cases effect.timers.list.unique timers.list
          by_cases idle : sys.phase = .idle
          · cases data with
            | refused refused same list =>
                rw [same, list]
                exact state.nearest idle
            | posts i clockTime func arg tMs free data list ticks nearest => exact nearest
            | arms r clockTime timeout data list ticks nearest => exact nearest
            | stops r call inside data list ticks nearest => exact nearest
          · exact data.nearest (orderly idle)
      | process sTimerClock1us currSysTick curSysTick =>
          obtain ⟨idle, expired, process, phase, -⟩ := TimerAction.step_process run
          obtain ⟨again, expired', same, timers, -⟩ :=
            state.timers.process sTimerClock1us currSysTick curSysTick
          rw [process, Option.some.injEq, Prod.mk.injEq] at same
          obtain ⟨rfl, rfl⟩ := same
          cases effect.timers.list.unique timers.list
          rcases returns with returned | ⟨c, call⟩
          · cases expired with
            | true =>
                rw [phase] at returned
                cases returned
            | false =>
                obtain ⟨data, pointer⟩ := evTimerProcess_quiet process
                exact (state.nearest idle).congr pointer data
          · cases call
      | walk =>
          obtain ⟨timerEvt, prevHead, -, outcome⟩ := TimerAction.step_walk run
          rcases returns with returned | ⟨c, call⟩
          · rcases outcome with ⟨-, update, -⟩ | ⟨r, -, -, ⟨-, phase, -⟩ | ⟨-, phase, -⟩⟩
            · obtain ⟨-, -, nearest⟩ := evTimerNearestUpdate_data state.timers.list update
              obtain ⟨n, same, timers⟩ := state.timers.nearest
              rw [update, Option.some.injEq] at same
              cases effect.timers.list.unique (same ▸ timers).list
              exact nearest
            · rw [phase] at returned
              cases returned
            · rw [phase] at returned
              cases returned
          · cases call
      | ret t =>
          obtain ⟨r, prevHead, -, -, phase, -⟩ := TimerAction.step_ret run
          rcases returns with returned | ⟨c, call⟩
          · rw [phase, evTimerExecuteCB.next] at returned
            split at returned <;> cases returned
          · cases call

/-- Every orderly run knows its nearest timer in the main loop, by induction on the run. -/
theorem PmRun.state (run : PmRun sys) : ∃ l, PmState sys l := by
  induction run with
  | boot events prevSysTick remSysTick =>
      exact ⟨[], timerList_init events prevSysTick remSysTick, fun _ => ⟨by simp [evTimerInit],
        fun n points => by cases points⟩⟩
  | step before orderly step ih =>
      obtain ⟨l, state⟩ := ih
      obtain ⟨l', timers, nearest⟩ := state.step orderly step
      exact ⟨l', timers, fun idle => nearest (Or.inl idle)⟩

-----------------------------------------------------------------------------------------
-- Sleeping
-----------------------------------------------------------------------------------------

/-- The chip never sleeps longer than the timeout; a product that wraps only wakes it earlier. -/
theorem drvPmLowPowerEnter_within {chip : Chip} {stackBusy taskDone : Bool} {clockTime t : UInt32}
    {low : PmLowPower} {call : PmSleepCall}
    (enters : drvPmLowPowerEnter chip stackBusy taskDone clockTime (some t) = some low)
    (sleeps : low.sleep = some call)
    : call.src.timer = true ∧ call.wakeup.ticks clockTime ≤ chip.sleepTicks t := by
  have awake : ¬(stackBusy || !taskDone) = true := fun busy => by
    rw [drvPmLowPowerEnter, if_pos busy] at enters
    cases enters
  rw [drvPmLowPowerEnter, if_neg awake, Option.some.injEq] at enters
  subst enters
  dsimp only at sleeps
  split at sleeps
  case isTrue long =>
    rw [drvPmLongSleep] at sleeps
    split at sleeps
    · cases sleeps
      have notShort : ¬t ≤ chip.pmNormalSleepMax := UInt32.not_le.mpr long.2
      refine ⟨rfl, ?_⟩
      rw [Chip.sleepTicks, if_neg notShort, PmWakeup.ticks, Option.getD_some, UInt32.toNat_mul]
      exact Nat.mod_le _ _
    · cases sleeps
  case isFalse notLong =>
    rw [drvPmSleep] at sleeps
    split at sleeps
    · cases sleeps
      have short : t ≤ chip.pmNormalSleepMax := by
        by_contra long
        refine notLong ⟨?_, UInt32.not_le.mp long⟩
        rintro rfl
        exact long UInt32.zero_le
      refine ⟨rfl, Nat.le_of_eq ?_⟩
      rw [Chip.sleepTicks, if_pos short, PmWakeup.ticks, Option.getD_some, UInt32.add_comm,
        UInt32.add_sub_cancel]
      exact chip.short_exact short
    · cases sleeps

/-- No sleep that `drv_pm_lowPowerEnter` asks for is longer than a timer of the list allows. -/
def SleepsWithin (s : EvTimer statics) (l : List (TimerRef statics)) : Prop :=
  ∀ chip stackBusy taskDone clockTime low call,
    drvPmLowPowerEnter chip stackBusy taskDone clockTime
        ((evTimerNearestGet s).map fun n => (s.data n).timeout) = some low
    → low.sleep = some call
    → ∀ x ∈ l, call.src.timer = true
      ∧ ∃ t ≤ (s.data x).timeout, call.wakeup.ticks clockTime ≤ chip.sleepTicks t

theorem Nearest.sleepsWithin (nearest : Nearest s l) : SleepsWithin s l := by
  intro chip stackBusy taskDone clockTime low call enters sleeps x inside
  cases points : s.timerNearest with
  | none =>
      rw [nearest.none_iff.mp points] at inside
      contradiction
  | some n =>
      rw [evTimerNearestGet, points] at enters
      obtain ⟨timer, within⟩ := drvPmLowPowerEnter_within enters sleeps
      exact ⟨timer, _, (nearest.least n points).2 x inside, within⟩

/-- `ev_timer_nearestGet` returns a least timer of the list, and NULL for the empty list. -/
def NearestKnown (s : EvTimer statics) : Prop :=
  ∃ l, ListAt s s.timerHead l
    ∧ (evTimerNearestGet s = none ↔ l = [])
    ∧ (∀ n, evTimerNearestGet s = some n
      → n ∈ l ∧ ∀ x ∈ l, (s.data n).timeout ≤ (s.data x).timeout)
    ∧ SleepsWithin s l

theorem NearestKnown.iff (timers : TimerList s l) : NearestKnown s ↔ Nearest s l := by
  constructor
  · rintro ⟨l', list, empty, least, -⟩
    cases timers.list.unique list
    exact ⟨empty, least⟩
  · intro nearest
    exact ⟨l, timers.list, nearest.none_iff, nearest.least, nearest.sleepsWithin⟩

/-- In an orderly run the nearest timer is known wherever an operation returns, and a hand-over of
a sleep time that is not orderly loses it.
-/
theorem evTimerNearestGet_known {action : PmAction statics} (run : PmRun sys)
    (step : action.step sys = some sys') (returns : action.Returns sys')
    : (action.Orderly sys → NearestKnown sys'.timer)
      ∧ ∀ sTimerClock1us tick32k prevSleepTick curSysTick clockTime,
        action = .wakeupTimeUpdate sTimerClock1us tick32k prevSleepTick curSysTick clockTime
        → NearestKnown sys'.timer → action.Orderly sys := by
  obtain ⟨l, state⟩ := run.state
  constructor
  · intro orderly
    obtain ⟨l', timers, nearest⟩ := state.step orderly step
    exact (NearestKnown.iff timers).mpr (nearest returns)
  · rintro sTimerClock1us tick32k prevSleepTick curSysTick clockTime rfl known slept l' list
    cases state.timers.list.unique list
    rw [PmAction.step] at step
    split at step
    case h_1 idle =>
      obtain ⟨s', update, rfl⟩ := Option.map_eq_some_iff.mp step
      obtain ⟨timers, exact⟩ :=
        drvPmWakeupTimeUpdate_nearest state.timers (state.nearest idle) update
      exact exact.mp ((NearestKnown.iff timers).mp known) slept
    case h_2 => cases step

-----------------------------------------------------------------------------------------
-- A new timer that overtakes the nearest one
-----------------------------------------------------------------------------------------

namespace Overtaken

def after (sys : TimerSys 0) (action : PmAction 0) : TimerSys 0 := (action.step sys).getD sys

theorem step {sys : TimerSys 0} {action : PmAction 0} (runs : (action.step sys).isSome = true)
    : action.step sys = some (after sys action) := by
  obtain ⟨sys', run⟩ := Option.isSome_iff_exists.mp runs
  rw [after, run]
  rfl

def booted : TimerSys 0 := { timer := evTimerInit Fin.elim0 0 0, phase := .idle }

def posted : TimerSys 0 := after booted (.timer (.call (.taskPost 0 0 0 1000)))

def charged : TimerSys 0 := after posted (.timer (.process 16 16000 16000))

def walked : TimerSys 0 := after charged (.timer .walk)

/-- The first timer runs, with 999 milliseconds left. -/
def running : TimerSys 0 := after walked (.timer .walk)

/-- The second one has 1005 milliseconds, and is 100 of them old when the chip goes to sleep. -/
def asleep : TimerSys 0 := after running (.timer (.call (.taskPost 16000 0 0 1005)))

/-- After 10 milliseconds of sleep it has 895 left, the first one 989. -/
def awake : TimerSys 0 := after asleep (.wakeupTimeUpdate 16 320 0 1776000 1776000)

/-- Had it gone to sleep at once, the second timer would have 990 milliseconds left. -/
def inTime : TimerSys 0 := after asleep (.wakeupTimeUpdate 16 320 0 256000 256000)

theorem both : ListAt asleep.timer asleep.timer.timerHead [.slot 1, .slot 0] := ⟨rfl, rfl, rfl⟩

theorem reached : PmRun asleep := by
  have post : (PmAction.timer (.call (.taskPost 0 0 0 1000))).Orderly booted :=
    fun other => absurd rfl other
  have again : (PmAction.timer (.call (.taskPost 16000 0 0 1005))).Orderly running :=
    fun other => absurd rfl other
  have first : PmRun posted := .step (.boot _ _ _) post (step rfl)
  have second : PmRun charged := first.step (by trivial) (step rfl)
  have third : PmRun walked := second.step (by trivial) (step rfl)
  have fourth : PmRun running := third.step (by trivial) (step rfl)
  exact fourth.step again (step rfl)

end Overtaken

/-- The same sleep right after the second post: it is 15 milliseconds old, and 6 behind. -/
theorem evTimerNearestGet_known_wakeup
    : evTimerNearestGet Overtaken.inTime.timer = some (.slot 0)
      ∧ (Overtaken.inTime.timer.data (.slot 0)).timeout = 989
      ∧ (Overtaken.inTime.timer.data (.slot 1)).timeout = 990
      ∧ NearestKnown Overtaken.inTime.timer := by
  have wakes : (PmAction.wakeupTimeUpdate 16 320 0 256000 256000).step Overtaken.asleep
      = some Overtaken.inTime :=
    Overtaken.step rfl
  refine ⟨rfl, rfl, rfl,
    (evTimerNearestGet_known Overtaken.reached wakes (Or.inl rfl)).1 ?_⟩
  intro slept l list n x points inside
  cases Overtaken.both.unique list
  cases points
  rcases List.mem_cons.mp inside with rfl | inside
  · exact Or.inr (by decide)
  · cases List.mem_singleton.mp inside
    trivial

/-- The chip would sleep for the first timer, past the second one. -/
theorem nearest_overtaken
    : PmRun Overtaken.asleep
      ∧ (PmAction.wakeupTimeUpdate 16 320 0 1776000 1776000).step Overtaken.asleep
        = some Overtaken.awake
      ∧ evTimerNearestGet Overtaken.awake.timer = some (.slot 0)
      ∧ (Overtaken.awake.timer.data (.slot 0)).timeout = 989
      ∧ (Overtaken.awake.timer.data (.slot 1)).timeout = 895
      ∧ ¬NearestKnown Overtaken.awake.timer := by
  refine ⟨Overtaken.reached, Overtaken.step rfl, rfl, rfl, rfl, ?_⟩
  rintro ⟨l, list, -, least, -⟩
  have both : ListAt Overtaken.awake.timer Overtaken.awake.timer.timerHead [.slot 1, .slot 0] :=
    ⟨rfl, rfl, rfl⟩
  cases both.unique list
  have less := (least (.slot 0) rfl).2 (.slot 1) (by simp)
  revert less
  decide

end TelinkSdk
