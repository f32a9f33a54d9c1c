import TelinkSdk.Os.TimerAccuracy

/-! `ev_on_timer` on an event that is registered already. It sets the timeout but not the clock of
the event, so what has passed since the last charge is taken off the new timeout.
-/

namespace TelinkSdk

open Links LinkView LinkStore

variable {statics : Nat} {r : TimerRef statics} {timer : EvTimer statics} {rate : TickRate}
  {st st' : TimedSys statics} {tMs : UInt32} {t t₀ : Nat} {ledger : Ledger}
  {l : List (TimerRef statics)}

/-- The ticks before `t₀` that the next charge takes off an event. A running one is charged with the
remainder and the ticks since the last call of `ev_timer_process`, and a new one with its age and
the part of a millisecond that its age leaves of them.
-/
def evOnTimer.pending (rate : TickRate) (st : TimedSys statics) (t₀ : Nat) (r : TimerRef statics)
    : Nat :=
  let ticks := st.sys.timer.remSysTick.toNat + (t₀ - st.last)
  if (st.sys.timer.data r).isRunning then ticks
  else
    let age := (tickAt t₀ - (st.sys.timer.data r).curSysTick).toNat
    (ticks - age) % rate.ms + age

/-- The event stays in the list, keeps its clock, and takes the new timeout. -/
theorem TimedState.rearmed (state : TimedState rate st l) (later : st.now ≤ t₀) (inside : r ∈ l)
    (arm : evOnTimer (tickAt t₀) (some r) tMs st.sys.timer = some timer)
    : TimedState rate (st.called timer t₀) l ∧ (timer.data r).timeout = tMs
      ∧ (timer.data r).isRunning = (st.sys.timer.data r).isRunning
      ∧ (timer.data r).curSysTick = (st.sys.timer.data r).curSysTick
      ∧ timer.remSysTick = st.sys.timer.remSysTick := by
  obtain ⟨again, run, timers, links, used⟩ := state.timers.onTimer (tickAt t₀) r tMs
  rw [arm, Option.some.injEq] at run
  subst run
  obtain ⟨data, ticks, -⟩ := state.timers.onTimer_data arm
  rw [if_pos inside] at timers
  have own : timer.data r = evOnTimer.armed (r ∈ l) (tickAt t₀) tMs (st.sys.timer.data r) := by
    rw [data, Function.update_self]
  have listed : SlotsListed timer l := fun i => by rw [used]; exact state.listed i
  refine ⟨state.change later rfl timers listed ticks data (fun _ _ => Iff.rfl)
    (fun absent => absurd inside absent) fun _ => ?_, ?_⟩
  · exact (state.waiting r inside).mono later rfl (by simp [evOnTimer.armed, inside])
  · rw [own]
    exact ⟨rfl, rfl, by simp [evOnTimer.armed, inside], ticks.remSysTick⟩

/-- The ticks that a timer is credited with begin at most `pending` before `t₀`. -/
theorem Ledger.Right.notEarly {start : TimedSys statics} {since : Nat}
    (right : ledger.Right rate r start st since)
    (updates : ledger.updates * rate.ms + st.sys.timer.remSysTick.toNat + start.last
      = start.sys.timer.remSysTick.toNat + st.last)
    (registered : (start.sys.timer.data r).isRunning = false
      → (start.sys.timer.data r).curSysTick = tickAt since ∧ since ≤ start.now
        ∧ start.last ≤ since + start.sys.timer.remSysTick.toNat)
    (order : start.last ≤ start.now)
    (short : evOnTimer.pending rate start start.now r ≤ rate.ms)
    : ledger.credited * rate.ms ≤ st.last - start.now + rate.ms := by
  have positive := rate.ms_pos
  rw [Ledger.Right] at right
  cases first : ledger.first with
  | none =>
      simp only [first] at right
      simp [right.1]
  | some t₁ =>
      simp only [first] at right
      obtain ⟨-, after, before, close, credit⟩ := right
      cases running : (start.sys.timer.data r).isRunning with
      | true =>
          rw [evOnTimer.pending, if_pos running] at short
          rw [if_pos running] at credit
          rw [credit]
          omega
      | false =>
          obtain ⟨tick, past, waited⟩ := registered running
          rw [evOnTimer.pending, if_neg (by simp [running]), tick, tickAt_sub past] at short
          rw [if_neg (by simp [running])] at credit
          have ticks := congrArg (· * rate.ms) credit
          simp only [Nat.add_mul] at ticks
          have whole :=
            Nat.div_add_mod' (start.sys.timer.remSysTick.toNat + (t₁ - start.last)) rate.ms
          have own := Nat.div_add_mod' ((t₁ - since) % 4294967296) rate.ms
          have rest := Nat.mod_lt (start.sys.timer.remSysTick.toNat + (t₁ - start.last)) positive
          by_cases wraps : t₁ - since < 4294967296
          · -- the remainder and the age share at most the part that the age leaves of the remainder
            have split : start.sys.timer.remSysTick.toNat + (t₁ - start.last)
                = (t₁ - since) + (start.sys.timer.remSysTick.toNat + since - start.last) := by
              omega
            have shared : (start.sys.timer.remSysTick.toNat + (t₁ - start.last)) % rate.ms
                ≤ (t₁ - since) % rate.ms
                  + (start.sys.timer.remSysTick.toNat + since - start.last) % rate.ms := by
              rw [split, Nat.add_mod]
              exact Nat.mod_le _ _
            rw [Nat.mod_eq_of_lt wraps] at own ticks
            rw [Nat.mod_eq_of_lt (by omega)] at short
            have age : start.sys.timer.remSysTick.toNat + (start.now - start.last)
                - (start.now - since)
                = start.sys.timer.remSysTick.toNat + since - start.last := by
              omega
            dsimp only at short
            rw [age] at short
            omega
          · -- the tick counter has gone round since the registration, and the first credit is nothing
            have small : (t₁ - since) % 4294967296 < rate.ms := by
              have below := rate.ms_small
              omega
            rw [Nat.div_eq_of_lt small, Nat.zero_mul] at ticks
            omega

theorem evOnTimer_rearm_notEarly (run : TimedRun rate st) (idle : st.sys.phase = .idle)
    (later : st.now ≤ t₀) (registered : listExist st.sys.timer r = some (some r))
    (arm : evOnTimer (tickAt t₀) (some r) tMs st.sys.timer = some timer)
    (driven : Driven rate r (st.called timer t₀) ledger st')
    (short : tMs.toNat ≤ 1 ∨ evOnTimer.pending rate st t₀ r ≤ rate.ms)
    (fired : ledger.fired = some t)
    : (tMs.toNat - 1) * rate.ms ≤ t - t₀ := by
  obtain ⟨l, state⟩ := run.state
  have inside : r ∈ l := by
    rw [listExist_eq state.timers.list] at registered
    by_contra absent
    simp [absent] at registered
  rcases short with one | short
  · simp [Nat.sub_eq_zero_of_le one]
  obtain ⟨began, timeout, running, tick, rem⟩ := state.rearmed later inside arm
  obtain ⟨since, waits⟩ : ∃ since, (timer.data r).isRunning = false
      → (timer.data r).curSysTick = tickAt since ∧ since ≤ t₀
        ∧ st.last ≤ since + timer.remSysTick.toNat := by
    cases stopped : (timer.data r).isRunning with
    | true => exact ⟨0, fun never => by cases never⟩
    | false =>
        obtain ⟨since, own, past, close⟩ := began.waiting r inside stopped
        exact ⟨since, fun _ => ⟨own, past, close⟩⟩
  have short : evOnTimer.pending rate (st.called timer t₀) t₀ r ≤ rate.ms := by
    rw [evOnTimer.pending] at short ⊢
    simp only [running, tick, rem]
    exact short
  obtain ⟨ledger₀, st₀, before, unfired, due, past, -⟩ := driven.due fired
  obtain ⟨l₀, book⟩ := before.state began inside (fun rests => ⟨(waits rests).1, (waits rests).2.1⟩)
    (by simp [idle]) (by simp [idle])
  have credit : ledger₀.credited * rate.ms ≤ st₀.last - t₀ + rate.ms :=
    book.right.notEarly book.updates waits (Nat.le_trans state.order later) short
  have spent := book.timeout unfired
  rw [due, timeout] at spent
  have enough : tMs.toNat ≤ ledger₀.credited := Nat.sub_eq_zero_iff_le.mp spent.symm
  have ticks := Nat.mul_le_mul_right rate.ms enough
  have past : st₀.last ≤ t := Nat.le_trans book.state.order past
  rw [Nat.sub_mul]
  omega

-----------------------------------------------------------------------------------------
-- A new timeout after a long task
-----------------------------------------------------------------------------------------

namespace RearmedEvent

/-- A system with one statically allocated event. -/
def started : TimedSys 1 :=
  { sys := { timer := evTimerInit (fun _ => {}) 0 0, phase := .idle }, now := 0, last := 0 }

def registered : TimedSys 1 := started.after 0 (.call (.onTimer (tickAt 0) (some (.event 0)) 1000))

def processed : TimedSys 1 := registered.after 16000 (.processAt .sixteen 16000)

def walked : TimedSys 1 := processed.after 16000 .walk

/-- The event runs, with 999 milliseconds left. -/
def running : TimedSys 1 := walked.after 16000 .walk

theorem reached : TimedRun .sixteen running := by
  have arm : TimedStep .sixteen started (.call (.onTimer (tickAt 0) (some (.event 0)) 1000))
      [.armed (.event 0)] registered :=
    .after (by decide) rfl (by decide) rfl
  have process : TimedStep .sixteen registered (.processAt .sixteen 16000) [.passBegan] processed :=
    .after (by decide) ⟨rfl, rfl, rfl⟩ (by decide) rfl
  have first : TimedStep .sixteen processed .walk [] walked :=
    .after (by decide) trivial (by decide) rfl
  have last : TimedStep .sixteen walked .walk [.passEnded] running :=
    .after (by decide) trivial (by decide) rfl
  have static : StaticCalls [] started.sys
      (.call (.onTimer (tickAt 0) (some (.event 0)) 1000) : TimerAction 1) := fun i => by simp
  have charged := ((TimedRun.boot _ _).step static arm).step (by trivial) process
  exact (charged.step (by trivial) first).step (by trivial) last

/-- It is given 2 milliseconds, right after a pass. -/
def soon : TimedSys 1 := running.after 16000 (.call (.onTimer (tickAt 16000) (some (.event 0)) 2))

def soonDue : TimedSys 1 := soon.after 48000 (.processAt .sixteen 48000)

def soonCalled : TimedSys 1 := soonDue.after 48000 .walk

theorem firesInTime : Driven .sixteen (.event 0) (running.called soon.sys.timer 16000)
    { updates := 2, credited := 2, first := some 48000, fired := some 48000 } soonCalled := by
  have process : TimedStep .sixteen soon (.processAt .sixteen 48000) [.passBegan] soonDue :=
    .after (by decide) ⟨rfl, rfl, rfl⟩ (by decide) rfl
  have walk : TimedStep .sixteen soonDue .walk [.fired (.event 0) 0 0] soonCalled :=
    .after (by decide) trivial (by decide) rfl
  have began : Driven .sixteen (.event 0) (running.called soon.sys.timer 16000) {} soon := .start
  exact (began.step (by trivial) (by trivial) process).step (by trivial) (by trivial) walk

/-- It is given 100 milliseconds, 500 milliseconds after a pass. -/
def late : TimedSys 1 :=
  running.after 8016000 (.call (.onTimer (tickAt 8016000) (some (.event 0)) 100))

def lateDue : TimedSys 1 := late.after 8016000 (.processAt .sixteen 8016000)

def lateCalled : TimedSys 1 := lateDue.after 8016000 .walk

/-- The next pass runs its callback. -/
theorem firesAtOnce : Driven .sixteen (.event 0) (running.called late.sys.timer 8016000)
    { updates := 500, credited := 500, first := some 8016000, fired := some 8016000 }
    lateCalled := by
  have process : TimedStep .sixteen late (.processAt .sixteen 8016000) [.passBegan] lateDue :=
    .after (by decide) ⟨rfl, rfl, rfl⟩ (by decide) rfl
  have walk : TimedStep .sixteen lateDue .walk [.fired (.event 0) 0 0] lateCalled :=
    .after (by decide) trivial (by decide) rfl
  have began : Driven .sixteen (.event 0) (running.called late.sys.timer 8016000) {} late := .start
  exact (began.step (by trivial) (by trivial) process).step (by trivial) (by trivial) walk

end RearmedEvent

theorem evOnTimer_rearm_notEarly_short
    : ∃ ledger st', Driven .sixteen (.event 0)
          (RearmedEvent.running.called RearmedEvent.soon.sys.timer 16000) ledger st'
        ∧ ledger.fired = some 48000 ∧ (2 - 1) * TickRate.sixteen.ms ≤ 48000 - 16000 := by
  have bound := evOnTimer_rearm_notEarly RearmedEvent.reached rfl (by decide : 16000 ≤ 16000) rfl
    rfl RearmedEvent.firesInTime (.inr (by decide)) rfl
  exact ⟨_, _, RearmedEvent.firesInTime, rfl, bound⟩

/-- An event that is given 100 milliseconds fires in the same tick. -/
theorem evOnTimer_rearm_early
    : ∃ (st : TimedSys 1) (timer : EvTimer 1) (ledger : Ledger) (st' : TimedSys 1),
      TimedRun .sixteen st ∧ st.sys.phase = .idle ∧ st.now ≤ 8016000
      ∧ listExist st.sys.timer (.event 0) = some (some (.event 0))
      ∧ evOnTimer (tickAt 8016000) (some (.event 0)) 100 st.sys.timer = some timer
      ∧ Driven .sixteen (.event 0) (st.called timer 8016000) ledger st'
      ∧ ledger.fired = some 8016000
      ∧ ¬(100 - 1) * TickRate.sixteen.ms ≤ 8016000 - 8016000 :=
  ⟨_, _, _, _, RearmedEvent.reached, rfl, by decide, rfl, rfl, RearmedEvent.firesAtOnce, rfl,
    by decide⟩

end TelinkSdk
