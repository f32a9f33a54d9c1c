import TelinkSdk.Os.TimerDriven

/-! A timer that is posted once fires neither early nor late: the milliseconds it is credited with
stay within two of the ticks that have passed, over any number of calls.
-/

namespace TelinkSdk

open Links LinkView LinkStore

variable {statics : Nat} {r : TimerRef statics} {timer : EvTimer statics} {rate : TickRate}
  {st st' : TimedSys statics} {func arg tMs : UInt32} {t₀ : Nat} {ledger : Ledger}

/-- A posted timer enters the list with its timeout and the tick of its posting. -/
theorem TimedState.posted {l : List (TimerRef statics)} (state : TimedState rate st l)
    (later : st.now ≤ t₀)
    (post : evTimerTaskPost (tickAt t₀) func arg tMs st.sys.timer = some (some r, timer))
    (aside : ∀ timerEvt prevHead, st.sys.phase ≠ .walking timerEvt prevHead)
    : ∃ l', TimedState rate (st.called timer t₀) l' ∧ r ∈ l'
      ∧ (timer.data r).timeout = tMs ∧ (timer.data r).isRunning = false
      ∧ (timer.data r).curSysTick = tickAt t₀ := by
  have exec : (TimerCall.taskPost (tickAt t₀) func arg tMs).exec st.sys.timer
      = some (timer, [.posted r tMs]) := by
    rw [TimerCall.exec, post]
    rfl
  have step : TimedStep rate st (.call (.taskPost (tickAt t₀) func arg tMs)) [.posted r tMs]
      (st.called timer t₀) :=
    .call later rfl exec aside
  have static : StaticCalls [] st.sys
      (.call (.taskPost (tickAt t₀) func arg tMs) : TimerAction statics) := trivial
  obtain ⟨l', posted⟩ := state.step static step
  refine ⟨l', posted, ?_⟩
  rcases state.timers.taskPost (tickAt t₀) func arg tMs
    with ⟨refused, -⟩ | ⟨i, after, taken, free, list, -⟩
  · rw [refused] at post
    cases post
  · rw [taken] at post
    cases post
    have absent : TimerRef.slot i ∉ l := fun inside => by
      rw [(state.listed i).mpr inside] at free
      cases free
    obtain ⟨data, -⟩ := state.timers.taskPost_data taken
    have filled : timer.data (.slot i) = evTimerTaskPost.filled (.slot i ∈ l) (tickAt t₀) func arg
        tMs (st.sys.timer.data (.slot i)) := by
      rw [data, Function.update_self]
    have rests := state.rested i absent
    rw [if_neg absent] at list
    cases posted.timers.unique list
    rw [filled]
    refine ⟨List.mem_cons_self, rfl, rests, ?_⟩
    simp [evTimerTaskPost.filled, evOnTimer.armed, absent, rests]

/-- What a timer has been credited with once its first credit came in time. -/
theorem Ledger.Right.credit {start : TimedSys statics} (right : ledger.Right rate r start st t₀)
    (updates : ledger.updates * rate.ms + st.sys.timer.remSysTick.toNat + start.last
      = start.sys.timer.remSysTick.toNat + st.last)
    (rests : (start.sys.timer.data r).isRunning = false) (order : start.last ≤ t₀)
    (posted : start.now = t₀) (below : st.sys.timer.remSysTick.toNat < rate.ms)
    (soon : ∀ t₁, ledger.first = some t₁ → t₁ < t₀ + 4294967296)
    : st.last - t₀ < (ledger.credited + 2) * rate.ms
      ∧ ledger.credited * rate.ms < st.last - t₀ + rate.ms := by
  have positive := rate.ms_pos
  rw [Ledger.Right] at right
  cases first : ledger.first with
  | none =>
      simp only [first] at right
      obtain ⟨credited, none, -⟩ := right
      rw [none, Nat.zero_mul] at updates
      rw [credited]
      constructor <;> omega
  | some t₁ =>
      simp only [first, rests, Bool.false_eq_true, if_false] at right
      obtain ⟨-, after, before, -, credit⟩ := right
      have close := soon t₁ first
      rw [Nat.mod_eq_of_lt (by omega)] at credit
      -- both sides in ticks: the whole milliseconds before the first credit cancel
      have ticks := congrArg (· * rate.ms) credit
      simp only [Nat.add_mul] at ticks
      have whole := Nat.div_add_mod' (start.sys.timer.remSysTick.toNat + (t₁ - start.last)) rate.ms
      have own := Nat.div_add_mod' (t₁ - t₀) rate.ms
      have rest := Nat.mod_lt (start.sys.timer.remSysTick.toNat + (t₁ - start.last)) positive
      have ownRest := Nat.mod_lt (t₁ - t₀) positive
      rw [Nat.add_mul]
      constructor <;> omega

theorem evTimerTaskPost_accurate (run : TimedRun rate st) (later : st.now ≤ t₀)
    (post : evTimerTaskPost (tickAt t₀) func arg tMs st.sys.timer = some (some r, timer))
    (aside : ∀ timerEvt prevHead, st.sys.phase ≠ .walking timerEvt prevHead)
    (other : ∀ prevHead, st.sys.phase ≠ .calling r prevHead)
    (driven : Driven rate r (st.called timer t₀) ledger st')
    (soon : ∀ t₁, ledger.first = some t₁ → t₁ < t₀ + 4294967296)
    : (st'.last - t₀ < (ledger.credited + 2) * rate.ms
        ∧ ledger.credited * rate.ms < st'.last - t₀ + rate.ms)
      ∧ (∀ t, ledger.fired = some t → tMs.toNat * rate.ms < t - t₀ + rate.ms)
      ∧ (st'.sys.phase = .idle → (tMs.toNat + 2) * rate.ms ≤ st'.last - t₀ → ledger.fired ≠ none)
      ∧ ∀ total st₁, Summed rate st total st₁
        → total * rate.ms + st₁.sys.timer.remSysTick.toNat + st.last
          = st.sys.timer.remSysTick.toNat + st₁.last := by
  obtain ⟨l, state⟩ := run.state
  obtain ⟨l₀, posted, inside, timeout, rests, tick⟩ := state.posted later post aside
  have order : st.last ≤ t₀ := Nat.le_trans state.order later
  have books {ledger : Ledger} {st' : TimedSys statics}
      (driven : Driven rate r (st.called timer t₀) ledger st')
      : ∃ l', DrivenState rate r (st.called timer t₀) t₀ ledger st' l' :=
    driven.state posted inside (fun _ => ⟨tick, Nat.le_refl _⟩) aside other
  obtain ⟨l', book⟩ := books driven
  have credit := book.right.credit book.updates rests order rfl book.state.clocked.remSysTick soon
  refine ⟨credit, fun t fired => ?_, fun idle late unfired => ?_, fun total st₁ summed => ?_⟩
  · obtain ⟨ledger₀, st₀, before, unfired, due, past, first⟩ := driven.due fired
    obtain ⟨l₁, book⟩ := books before
    have spent := book.timeout unfired
    rw [due, timeout] at spent
    have enough : tMs.toNat ≤ ledger₀.credited := Nat.sub_eq_zero_iff_le.mp spent.symm
    have credit := (book.right.credit book.updates rests order rfl
      book.state.clocked.remSysTick fun t₁ set => soon t₁ (first t₁ set)).2
    have past : st₀.last ≤ t := Nat.le_trans book.state.order past
    have ticks := Nat.mul_le_mul_right rate.ms enough
    omega
  · have enough := Nat.lt_of_mul_lt_mul_right (Nat.lt_of_le_of_lt late credit.1)
    have spent : (st'.sys.timer.data r).timeout = 0 := by
      apply UInt32.toNat_inj.mp
      rw [book.timeout unfired, timeout]
      exact Nat.sub_eq_zero_of_le (by omega)
    have ahead := book.ahead unfired
    rw [idle] at ahead
    have right := book.right
    rw [Ledger.Right] at right
    cases first : ledger.first with
    | none =>
        simp only [first] at right
        omega
    | some t₁ => exact ahead (by rw [first]; rfl) spent
  · exact (summed.total state).2

-----------------------------------------------------------------------------------------
-- Where the bounds end
-----------------------------------------------------------------------------------------

/-- The timers after `ev_timer_init`. -/
def booted : TimedSys 0 :=
  { sys := { timer := evTimerInit Fin.elim0 0 0, phase := .idle }, now := 0, last := 0 }

namespace PostedAtOne

def posted : TimedSys 0 := booted.after 1 (.call (.taskPost (tickAt 1) 0 0 1))

def due : TimedSys 0 := posted.after 16001 (.processAt .sixteen 16001)

def called : TimedSys 0 := due.after 16001 .walk

/-- A timer of one millisecond, posted at tick 1, fires at tick 16001. -/
theorem fires : Driven .sixteen (.slot 0) (booted.called posted.sys.timer 1)
    { updates := 1, credited := 1, first := some 16001, fired := some 16001 } called := by
  have process : TimedStep .sixteen posted (.processAt .sixteen 16001) [.passBegan] due :=
    .after (by decide) ⟨rfl, rfl, rfl⟩ (by decide) rfl
  have walk : TimedStep .sixteen due .walk [.fired (.slot 0) 0 0] called :=
    .after (by decide) trivial (by decide) rfl
  have began : Driven .sixteen (.slot 0) (booted.called posted.sys.timer 1) {} posted := .start
  have processed := began.step (by trivial) (by trivial) process
  exact processed.step (by trivial) (by trivial) walk

/-- A call at tick 2 that processes no whole millisecond. -/
def early : TimedSys 0 := posted.after 2 (.processAt .sixteen 2)

def wrapped : TimedSys 0 := early.after 4294967297 (.processAt .sixteen 4294967297)

/-- The next call comes 2^32 ticks after the posting, and the tick counter shows no difference. -/
theorem wraps : Driven .sixteen (.slot 0) (booted.called posted.sys.timer 1)
    { updates := 268435, credited := 0, first := some 4294967297 } wrapped := by
  have small : TimedStep .sixteen posted (.processAt .sixteen 2) [] early :=
    .after (by decide) ⟨rfl, rfl, rfl⟩ (by decide) rfl
  have late : TimedStep .sixteen early (.processAt .sixteen 4294967297) [.passBegan] wrapped :=
    .after (by decide) ⟨rfl, rfl, rfl⟩ (by decide) rfl
  have began : Driven .sixteen (.slot 0) (booted.called posted.sys.timer 1) {} posted := .start
  have processed := began.step (by trivial) (by trivial) small
  exact processed.step (by trivial) (by trivial) late

end PostedAtOne

namespace PostedInOwnSlot

def armed : TimedSys 0 := booted.after 0 (.call (.taskPost (tickAt 0) 0 0 1))

def due : TimedSys 0 := armed.after 16000 (.processAt .sixteen 16000)

def called : TimedSys 0 := due.after 16000 .walk

/-- The callback cancels its own timer. -/
def cancelled : TimedSys 0 := called.after 16000 (.call (.taskCancel (some (.slot 0))))

theorem reached : TimedRun .sixteen cancelled := by
  have post : TimedStep .sixteen booted (.call (.taskPost (tickAt 0) 0 0 1)) [.posted (.slot 0) 1]
      armed :=
    .after (by decide) rfl (by decide) rfl
  have process : TimedStep .sixteen armed (.processAt .sixteen 16000) [.passBegan] due :=
    .after (by decide) ⟨rfl, rfl, rfl⟩ (by decide) rfl
  have walk : TimedStep .sixteen due .walk [.fired (.slot 0) 0 0] called :=
    .after (by decide) trivial (by decide) rfl
  have cancel : TimedStep .sixteen called (.call (.taskCancel (some (.slot 0))))
      [.cancelled (.slot 0)] cancelled :=
    .after (by decide) trivial (by decide) rfl
  have processed := ((TimedRun.boot _ _).step (by trivial) post).step (by trivial) process
  exact (processed.step (by trivial) walk).step (by trivial) cancel

/-- It posts another one, and returns 1. -/
def posted : TimedSys 0 := cancelled.after 16000 (.call (.taskPost (tickAt 16000) 0 0 1000))

def returned : TimedSys 0 := posted.after 16000 (.ret 1)

def walked : TimedSys 0 := returned.after 16000 .walk

def dueAgain : TimedSys 0 := walked.after 32000 (.processAt .sixteen 32000)

def calledAgain : TimedSys 0 := dueAgain.after 32000 .walk

/-- What the callback returns becomes the timeout of the timer that took its slot. -/
theorem fires : Driven .sixteen (.slot 0) (cancelled.called posted.sys.timer 16000)
    { updates := 1, credited := 1, first := some 32000, fired := some 32000 } calledAgain := by
  have ret : TimedStep .sixteen posted (.ret 1) [.returned (.slot 0) 1] returned :=
    .after (by decide) trivial (by decide) rfl
  have walk : TimedStep .sixteen returned .walk [.passEnded] walked :=
    .after (by decide) trivial (by decide) rfl
  have process : TimedStep .sixteen walked (.processAt .sixteen 32000) [.passBegan] dueAgain :=
    .after (by decide) ⟨rfl, rfl, rfl⟩ (by decide) rfl
  have again : TimedStep .sixteen dueAgain .walk [.fired (.slot 0) 0 0] calledAgain :=
    .after (by decide) trivial (by decide) rfl
  have spares : Spares (.slot 0) posted.sys (.ret 1) := by simp [Spares]
  have began : Driven .sixteen (.slot 0) (cancelled.called posted.sys.timer 16000) {} posted :=
    .start
  have ended := (began.step (by trivial) spares ret).step (by trivial) (by trivial) walk
  have processed := ended.step (by trivial) (by trivial) process
  exact processed.step (by trivial) (by trivial) again

end PostedInOwnSlot

theorem evTimerTaskPost_accurate_fires
    : ∃ ledger st', Driven .sixteen (.slot 0) (booted.called PostedAtOne.posted.sys.timer 1) ledger st'
      ∧ ledger.fired = some 16001
      ∧ st'.last - 1 < (ledger.credited + 2) * TickRate.sixteen.ms
      ∧ ledger.credited * TickRate.sixteen.ms < st'.last - 1 + TickRate.sixteen.ms := by
  have accurate := evTimerTaskPost_accurate (.boot Fin.elim0 0) (by decide : 0 ≤ 1) rfl
    (by simp) (by simp) PostedAtOne.fires (by simp)
  exact ⟨_, _, PostedAtOne.fires, rfl, accurate.1⟩

/-- The bounds do not hold for a timer whose first credit comes too late, and not for a timer that
a callback posts into its own slot.
-/
theorem evTimerTaskPost_inaccurate
    : (∃ (timer : EvTimer 0) (ledger : Ledger) (st' : TimedSys 0), TimedRun .sixteen booted
        ∧ evTimerTaskPost (tickAt 1) 0 0 1 booted.sys.timer = some (some (.slot 0), timer)
        ∧ Driven .sixteen (.slot 0) (booted.called timer 1) ledger st'
        ∧ ¬st'.last - 1 < (ledger.credited + 2) * TickRate.sixteen.ms)
      ∧ ∃ (st : TimedSys 0) (timer : EvTimer 0) (ledger : Ledger) (st' : TimedSys 0) (t : Nat),
        TimedRun .sixteen st ∧ st.sys.phase = .calling (.slot 0) (some (.slot 0))
        ∧ evTimerTaskPost (tickAt st.now) 0 0 1000 st.sys.timer = some (some (.slot 0), timer)
        ∧ Driven .sixteen (.slot 0) (st.called timer st.now) ledger st'
        ∧ ledger.fired = some t ∧ ¬1000 * TickRate.sixteen.ms < t - st.now + TickRate.sixteen.ms := by
  refine ⟨⟨_, _, _, .boot _ _, rfl, PostedAtOne.wraps, by decide⟩, ?_⟩
  exact ⟨_, _, _, _, _, PostedInOwnSlot.reached, rfl, rfl, PostedInOwnSlot.fires, rfl, by decide⟩

end TelinkSdk
