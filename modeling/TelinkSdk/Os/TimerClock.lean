import TelinkSdk.Os.TimerData

/-! The timers and the clock: the 32-bit tick counter is the true number of ticks cut to 32 bits,
and what `ev_timer_process` makes of two reads of it depends on the ticks in between.
-/

namespace TelinkSdk

open Links LinkView LinkStore

variable {statics : Nat} {s s' : EvTimer statics} {l l' : List (TimerRef statics)}
  {r : TimerRef statics}

-----------------------------------------------------------------------------------------
-- Ticks
-----------------------------------------------------------------------------------------

/-- A value of `S_TIMER_CLOCK_1US` with which two milliseconds are less than 2^32 ticks. -/
structure TickRate where
  sTimerClock1us : UInt32
  positive : 0 < sTimerClock1us.toNat
  small : sTimerClock1us.toNat * 2000 < 4294967296

/-- A system timer of 16 MHz. -/
def TickRate.sixteen : TickRate := ⟨16, by decide, by decide⟩

/-- The ticks of a millisecond. -/
def TickRate.ms (rate : TickRate) : Nat := rate.sTimerClock1us.toNat * 1000

theorem TickRate.ms_pos (rate : TickRate) : 0 < rate.ms :=
  Nat.mul_pos rate.positive (by decide)

theorem TickRate.ms_small (rate : TickRate) : 2 * rate.ms < 4294967296 := by
  have small := rate.small
  simp only [TickRate.ms]
  omega

@[simp]
theorem TickRate.toNat_ms (rate : TickRate) : (rate.sTimerClock1us * 1000).toNat = rate.ms := by
  have thousand : (1000 : UInt32).toNat = 1000 := rfl
  rw [UInt32.toNat_mul, thousand]
  exact Nat.mod_eq_of_lt
    (Nat.lt_of_le_of_lt (Nat.mul_le_mul_left _ (by decide : 1000 ≤ 2000)) rate.small)

/-- What the tick counter shows after `t` ticks. -/
def tickAt (t : Nat) : UInt32 := .ofNat t

/-- Two reads of the counter give the ticks between them, modulo 2^32. -/
theorem tickAt_sub {t₀ t : Nat} (later : t₀ ≤ t)
    : (tickAt t - tickAt t₀).toNat = (t - t₀) % 4294967296 := by
  simp only [tickAt, UInt32.toNat_sub, UInt32.toNat_ofNat']
  omega

theorem tickAt_inj {t₀ t : Nat} (later : t₀ ≤ t) (soon : t < t₀ + 4294967296)
    : tickAt t = tickAt t₀ ↔ t = t₀ := by
  constructor
  · intro same
    have ticks := tickAt_sub later
    rw [same, UInt32.sub_self] at ticks
    simp at ticks
    omega
  · rintro rfl
    rfl

-----------------------------------------------------------------------------------------
-- One call of ev_timer_process
-----------------------------------------------------------------------------------------

/-- The milliseconds that `ev_timer_update` takes off a timer. -/
def evTimerUpdate.chargeMs (sTimerClock1us updateTime curSysTick : UInt32)
    (e : EvTimerEvent statics) : UInt32 :=
  if e.isRunning then updateTime
  else (curSysTick - e.curSysTick) / (sTimerClock1us * 1000)

theorem evTimerUpdate.charge_timeout (sTimerClock1us updateTime curSysTick : UInt32)
    (e : EvTimerEvent statics)
    : (charge sTimerClock1us updateTime curSysTick e).timeout.toNat
      = e.timeout.toNat - (chargeMs sTimerClock1us updateTime curSysTick e).toNat := by
  change (if e.timeout > chargeMs sTimerClock1us updateTime curSysTick e then
    e.timeout - chargeMs sTimerClock1us updateTime curSysTick e else 0).toNat = _
  split
  case isTrue more => exact UInt32.toNat_sub_of_le _ _ (UInt32.le_of_lt more)
  case isFalse less =>
    have bound := UInt32.le_iff_toNat_le.mp (UInt32.not_lt.mp less)
    simp only [UInt32.toNat_zero]
    omega

/-- The timers know when they were processed last. -/
structure Clocked (rate : TickRate) (s : EvTimer statics) (last : Nat) : Prop where
  prevSysTick : s.prevSysTick = tickAt last
  remSysTick : s.remSysTick.toNat < rate.ms

theorem Clocked.congr {rate : TickRate} {last : Nat} (clocked : Clocked rate s last)
    (ticks : SameTicks s s')
    : Clocked rate s' last :=
  ⟨ticks.prevSysTick.trans clocked.prevSysTick, ticks.remSysTick ▸ clocked.remSysTick⟩

/-- The value of `updateTime`. -/
def evTimerProcess.updateTime (sTimerClock1us currSysTick : UInt32) (s : EvTimer statics)
    : UInt32 :=
  if currSysTick ≠ s.prevSysTick then
    let sysTicks := currSysTick - s.prevSysTick
    sysTicks / (sTimerClock1us * 1000)
      + (s.remSysTick + sysTicks % (sTimerClock1us * 1000)) / (sTimerClock1us * 1000)
  else 0

/-- It is the number of whole milliseconds in the remainder and the ticks since the last call. -/
def Clocked.updateTime (rate : TickRate) (s : EvTimer statics) (last t : Nat) : Nat :=
  (s.remSysTick.toNat + (t - last)) / rate.ms

/-- A call of `ev_timer_process` at `t`, up to the callbacks. -/
structure Processed (rate : TickRate) (s s' : EvTimer statics) (l : List (TimerRef statics))
    (last t : Nat) (expired : Bool) : Prop where
  clocked : Clocked rate s' t
  remSysTick : s'.remSysTick.toNat = (s.remSysTick.toNat + (t - last)) % rate.ms
  updateTime : (evTimerProcess.updateTime rate.sTimerClock1us (tickAt t) s).toNat
    = Clocked.updateTime rate s last t
  passed : expired = true ↔ Clocked.updateTime rate s last t ≠ 0
  charged : expired = true → ∀ x ∈ l, s'.data x
    = evTimerUpdate.charge rate.sTimerClock1us (.ofNat (Clocked.updateTime rate s last t)) (tickAt t)
      (s.data x)
  others : ∀ x, expired = false ∨ x ∉ l → s'.data x = s.data x
  timerNearest : s'.timerNearest = s.timerNearest
  timerHead : s'.timerHead = s.timerHead

/-- No tick is lost. -/
theorem Processed.sum {rate : TickRate} {last t : Nat} {expired : Bool}
    (processed : Processed rate s s' l last t expired)
    : Clocked.updateTime rate s last t * rate.ms + s'.remSysTick.toNat
        = s.remSysTick.toNat + (t - last) := by
  rw [processed.remSysTick, Clocked.updateTime, Nat.mul_comm]
  exact Nat.div_add_mod _ _

/-- The divisions of the source, without their wraps. -/
theorem process_divisions {ms rem ticks : Nat} (positive : 0 < ms) (small : 2 * ms < 4294967296)
    (below : rem < ms) (soon : ticks < 4294967296)
    : (rem + ticks % ms) % 4294967296 = rem + ticks % ms
      ∧ (ticks / ms + (rem + ticks % ms) / ms) % 4294967296 = (rem + ticks) / ms
      ∧ (rem + ticks % ms) % ms = (rem + ticks) % ms := by
  have inside := Nat.mod_lt ticks positive
  have parts : rem + ticks = rem + ticks % ms + ms * (ticks / ms) := by
    have split := Nat.mod_add_div ticks ms
    omega
  have quotient : ticks / ms + (rem + ticks % ms) / ms = (rem + ticks) / ms := by
    rw [parts, Nat.add_mul_div_left _ _ positive, Nat.add_comm]
  refine ⟨Nat.mod_eq_of_lt (by omega), ?_, ?_⟩
  · rw [quotient]
    apply Nat.mod_eq_of_lt
    have bound : (rem + ticks) / ms ≤ rem + ticks := Nat.div_le_self _ _
    by_cases one : ms = 1
    · have none : rem = 0 := by omega
      omega
    · have half : (rem + ticks) / ms ≤ (rem + ticks) / 2 :=
        Nat.div_le_div_left (by omega) (by decide)
      omega
  · conv_rhs => rw [parts, Nat.add_mul_mod_self_left]

theorem TimerList.process_data {rate : TickRate} {last t : Nat} {expired : Bool}
    (timers : TimerList s l) (clocked : Clocked rate s last) (later : last ≤ t)
    (soon : t < last + 4294967296)
    (run : evTimerProcess rate.sTimerClock1us (tickAt t) (tickAt t) s = some (s', expired))
    : Processed rate s s' l last t expired := by
  have ticks : (tickAt t - s.prevSysTick).toNat = t - last := by
    rw [clocked.prevSysTick, tickAt_sub later]
    omega
  rw [evTimerProcess] at run
  by_cases same : t = last
  · -- the counter has not moved
    subst same
    rw [if_neg (by simp [clocked.prevSysTick])] at run
    cases run
    have small : Clocked.updateTime rate s t t = 0 := by
      simp [Clocked.updateTime, Nat.div_eq_of_lt clocked.remSysTick]
    refine ⟨clocked, ?_, ?_, by simp [small], by simp, fun _ _ => rfl, rfl, rfl⟩
    · simp [Nat.mod_eq_of_lt clocked.remSysTick]
    · rw [small, evTimerProcess.updateTime, if_neg (by simp [clocked.prevSysTick])]
      rfl
  · have moved : tickAt t ≠ s.prevSysTick := by
      rw [clocked.prevSysTick]
      exact fun equal => same ((tickAt_inj later soon).mp equal)
    obtain ⟨carry, quotient, rest⟩ := process_divisions rate.ms_pos rate.ms_small
      clocked.remSysTick (show t - last < 4294967296 by omega)
    have remEq : (s.remSysTick + (tickAt t - s.prevSysTick) % (rate.sTimerClock1us * 1000)).toNat
        = s.remSysTick.toNat + (t - last) % rate.ms := by
      rw [UInt32.toNat_add, UInt32.toNat_mod, rate.toNat_ms, ticks]
      exact carry
    have updateEq : ((tickAt t - s.prevSysTick) / (rate.sTimerClock1us * 1000)
          + (s.remSysTick + (tickAt t - s.prevSysTick) % (rate.sTimerClock1us * 1000))
            / (rate.sTimerClock1us * 1000)).toNat
        = Clocked.updateTime rate s last t := by
      rw [UInt32.toNat_add, UInt32.toNat_div, UInt32.toNat_div, remEq, rate.toNat_ms, ticks]
      exact quotient
    have leftEq : ((s.remSysTick + (tickAt t - s.prevSysTick) % (rate.sTimerClock1us * 1000))
          % (rate.sTimerClock1us * 1000)).toNat
        = (s.remSysTick.toNat + (t - last)) % rate.ms := by
      rw [UInt32.toNat_mod, remEq, rate.toNat_ms]
      exact rest
    have below := Nat.mod_lt (s.remSysTick.toNat + (t - last)) rate.ms_pos
    have value : evTimerProcess.updateTime rate.sTimerClock1us (tickAt t) s
        = (tickAt t - s.prevSysTick) / (rate.sTimerClock1us * 1000)
          + (s.remSysTick + (tickAt t - s.prevSysTick) % (rate.sTimerClock1us * 1000))
            / (rate.sTimerClock1us * 1000) :=
      if_pos moved
    rw [← value] at updateEq
    rw [if_pos moved] at run
    dsimp only at run
    rw [← value] at run
    have updateIs : evTimerProcess.updateTime rate.sTimerClock1us (tickAt t) s
        = .ofNat (Clocked.updateTime rate s last t) := by
      rw [← updateEq, UInt32.ofNat_toNat]
    have zero : evTimerProcess.updateTime rate.sTimerClock1us (tickAt t) s = 0
        ↔ Clocked.updateTime rate s last t = 0 := by
      rw [← updateEq, ← UInt32.toNat_inj]
      rfl
    split at run
    case isTrue passed =>
      obtain ⟨after, update, result⟩ := Option.map_eq_some_iff.mp run
      cases result
      have list : TimerList { s with
          prevSysTick := tickAt t
          remSysTick := (s.remSysTick
            + (tickAt t - s.prevSysTick) % (rate.sTimerClock1us * 1000))
              % (rate.sTimerClock1us * 1000) } l :=
        timers.congr (timers.list.congr fun _ _ => rfl) (fun _ => rfl) rfl
      have charged := list.update_data passed update
      refine ⟨⟨charged.ticks.prevSysTick, ?_⟩, ?_, updateEq, ?_, fun _ x inside => ?_, fun x absent => ?_,
        charged.timerNearest, charged.timerHead⟩
      · rw [charged.ticks.remSysTick, leftEq]
        exact below
      · rw [charged.ticks.remSysTick, leftEq]
      · simp only [true_iff]
        exact zero.not.mp passed
      · rw [← updateIs]
        exact charged.listed x inside
      · exact charged.others x (absent.resolve_left (by simp))
    case isFalse kept =>
      cases run
      rw [ne_eq, not_not] at kept
      refine ⟨⟨rfl, ?_⟩, leftEq, updateEq, ?_, by simp, fun _ _ => rfl, rfl, rfl⟩
      · rw [leftEq]
        exact below
      · simp [zero.mp kept]

-----------------------------------------------------------------------------------------
-- Timed runs
-----------------------------------------------------------------------------------------

/-- The true time in ticks, and when `ev_timer_process` was called last. -/
structure TimedSys (statics : Nat) where
  sys : TimerSys statics
  now : Nat
  last : Nat

/-- Every read of the clock returns `tick`. -/
def TimerAction.Reads (rate : TickRate) (tick : UInt32) : TimerAction statics → Prop
  | .call (.taskPost clockTime ..) => clockTime = tick
  | .call (.onTimer clockTime ..) => clockTime = tick
  | .process sTimerClock1us currSysTick curSysTick =>
      sTimerClock1us = rate.sTimerClock1us ∧ currSysTick = tick ∧ curSysTick = tick
  | _ => True

def TimerAction.processes : TimerAction statics → Bool
  | .process .. => true
  | _ => false

/-- A step that begins at the time of the new state. Calls of `ev_timer_process` follow each other
in fewer than 2^32 ticks.
-/
structure TimedStep (rate : TickRate) (st : TimedSys statics) (action : TimerAction statics)
    (notes : List (TimerNote statics)) (st' : TimedSys statics) : Prop where
  later : st.now ≤ st'.now
  reads : action.Reads rate (tickAt st'.now)
  soon : action.processes = true → st'.now < st.last + 4294967296
  last : st'.last = if action.processes then st'.now else st.last
  step : action.step st.sys = some (st'.sys, notes)

/-- The state after an action at `now`. -/
def TimedSys.after (st : TimedSys statics) (now : Nat) (action : TimerAction statics)
    : TimedSys statics :=
  {
    sys := ((action.step st.sys).map Prod.fst).getD st.sys
    now
    last := if action.processes then now else st.last
  }

theorem TimedStep.after {rate : TickRate} {st : TimedSys statics} {action : TimerAction statics}
    {notes : List (TimerNote statics)} {now : Nat} (later : st.now ≤ now)
    (reads : action.Reads rate (tickAt now))
    (soon : action.processes = true → now < st.last + 4294967296)
    (step : (action.step st.sys).map Prod.snd = some notes)
    : TimedStep rate st action notes (st.after now action) := by
  obtain ⟨⟨sys, noted⟩, run, rfl⟩ := Option.map_eq_some_iff.mp step
  exact ⟨later, reads, soon, rfl, by simp [TimedSys.after, run]⟩

/-- A call of `ev_timer_process` at `now`. -/
def TimerAction.processAt (rate : TickRate) (now : Nat) : TimerAction statics :=
  .process rate.sTimerClock1us (tickAt now) (tickAt now)

/-- The state after a call at `t₀`. -/
abbrev TimedSys.called (st : TimedSys statics) (timer : EvTimer statics) (t₀ : Nat)
    : TimedSys statics :=
  { sys := { st.sys with timer }, now := t₀, last := st.last }

theorem TimedStep.call {rate : TickRate} {st : TimedSys statics} {c : TimerCall statics} {t₀ : Nat}
    {notes : List (TimerNote statics)} (later : st.now ≤ t₀)
    (reads : (TimerAction.call c).Reads rate (tickAt t₀))
    (run : c.exec st.sys.timer = some (s', notes))
    (aside : ∀ timerEvt prevHead, st.sys.phase ≠ .walking timerEvt prevHead)
    : TimedStep rate st (.call c) notes (st.called s' t₀) where
  later := later
  reads := reads
  soon := fun time => by contradiction
  last := rfl
  step := TimerAction.call_step run aside

/-- The states that a run from `ev_timer_init` reaches. -/
inductive TimedRun (rate : TickRate) : TimedSys statics → Prop where
  | boot (events : Fin statics → EvTimerEvent statics) (now : Nat)
      : TimedRun rate { sys := { timer := evTimerInit events 0 0, phase := .idle }, now, last := 0 }
  | step {st st' : TimedSys statics} {action : TimerAction statics}
      {notes : List (TimerNote statics)} (before : TimedRun rate st)
      (static : StaticCalls [] st.sys action) (step : TimedStep rate st action notes st')
      : TimedRun rate st'

/-- A timer that is not running was registered at a time since which `updateTime` was 0. -/
def Waiting (last now rem : Nat) (e : EvTimerEvent statics) : Prop :=
  e.isRunning = false → ∃ since, e.curSysTick = tickAt since ∧ since ≤ now ∧ last ≤ since + rem

/-- What holds of every state of a run. -/
structure TimedState (rate : TickRate) (st : TimedSys statics) (l : List (TimerRef statics))
    : Prop where
  timers : TimerList st.sys.timer l
  listed : SlotsListed st.sys.timer l
  clocked : Clocked rate st.sys.timer st.last
  order : st.last ≤ st.now
  rested : ∀ i, .slot i ∉ l → (st.sys.timer.data (.slot i)).isRunning = false
  waiting : ∀ x ∈ l,
    Waiting st.last st.now st.sys.timer.remSysTick.toNat (st.sys.timer.data x)

section Runs

variable {rate : TickRate} {st st' : TimedSys statics} {action : TimerAction statics}
  {notes : List (TimerNote statics)} {last now rem : Nat}

theorem Waiting.mono {e e' : EvTimerEvent statics} {now' : Nat} (waiting : Waiting last now rem e)
    (later : now ≤ now') (running : e'.isRunning = e.isRunning)
    (same : e'.curSysTick = e.curSysTick)
    : Waiting last now' rem e' := by
  intro stopped
  rw [running] at stopped
  obtain ⟨since, tick, before, close⟩ := waiting stopped
  exact ⟨since, same.trans tick, Nat.le_trans before later, close⟩

/-- A timer that enters the list. -/
theorem Waiting.armed (e : EvTimerEvent statics) (order : last ≤ now)
    (timeout : UInt32)
    : Waiting last now rem (evOnTimer.armed False (tickAt now) timeout e) := by
  intro stopped
  have rests : e.isRunning = false := stopped
  exact ⟨now, by simp [evOnTimer.armed, rests], Nat.le_refl _, Nat.le_add_right_of_le order⟩

theorem TimedState.boot (rate : TickRate) (events : Fin statics → EvTimerEvent statics) (now : Nat)
    : TimedState rate
        { sys := { timer := evTimerInit events 0 0, phase := .idle }, now, last := 0 } [] where
  timers := timerList_init events 0 0
  listed := fun i => by simp [evTimerInit]
  clocked := ⟨rfl, rate.ms_pos⟩
  order := Nat.zero_le _
  rested := fun _ _ => rfl
  waiting := fun _ inside => absurd inside List.not_mem_nil

/-- The lists that the effect and the data of a step speak of are one. -/
theorem TimerList.unique (timers : TimerList s l) (again : TimerList s l') : l' = l :=
  again.list.unique timers.list

/-- A step in which no time is processed and only timer `r` changes. -/
theorem TimedState.change {e : EvTimerEvent statics} (state : TimedState rate st l)
    (later : st.now ≤ st'.now) (last : st'.last = st.last)
    (timers : TimerList st'.sys.timer l') (listed : SlotsListed st'.sys.timer l')
    (ticks : SameTicks st.sys.timer st'.sys.timer)
    (data : st'.sys.timer.data = Function.update st.sys.timer.data r e)
    (members : ∀ x ≠ r, x ∈ l' ↔ x ∈ l)
    (rested : r ∉ l' → (∃ i, r = .slot i) → e.isRunning = false)
    (waiting : r ∈ l' → Waiting st.last st'.now st.sys.timer.remSysTick.toNat e)
    : TimedState rate st' l' := by
  refine ⟨timers, listed, ?_, ?_, fun i absent => ?_, fun x inside => ?_⟩
  · rw [last]
    exact state.clocked.congr ticks
  · rw [last]
    exact Nat.le_trans state.order later
  · rw [data]
    by_cases same : r = .slot i
    · subst same
      rw [Function.update_self]
      exact rested absent ⟨i, rfl⟩
    · rw [Function.update_of_ne (Ne.symm same)]
      exact state.rested i ((members _ (Ne.symm same)).not.mp absent)
  · rw [last, ticks.remSysTick, data]
    by_cases same : x = r
    · subst same
      rw [Function.update_self]
      exact waiting inside
    · rw [Function.update_of_ne same]
      exact (state.waiting x ((members x same).mp inside)).mono later rfl rfl

/-- A step that changes no timer. -/
theorem TimedState.keep (state : TimedState rate st l) (later : st.now ≤ st'.now)
    (last : st'.last = st.last) (timers : TimerList st'.sys.timer l)
    (ticks : SameTicks st.sys.timer st'.sys.timer)
    (data : st'.sys.timer.data = st.sys.timer.data)
    : TimedState rate st' l := by
  refine ⟨timers, fun i => ?_, ?_, ?_, fun i absent => ?_, fun x inside => ?_⟩
  · have used := congrArg EvTimerEvent.used (congrFun data (.slot i))
    rw [← state.listed i]
    exact Bool.coe_iff_coe.mpr used
  · rw [last]
    exact state.clocked.congr ticks
  · rw [last]
    exact Nat.le_trans state.order later
  · rw [data]
    exact state.rested i absent
  · rw [last, ticks.remSysTick, data]
    exact (state.waiting x inside).mono later rfl rfl

theorem TimedState.call {c : TimerCall statics} (state : TimedState rate st l)
    (later : st.now ≤ st'.now) (last : st'.last = st.last)
    (timers : TimerList st'.sys.timer l') (listed : SlotsListed st'.sys.timer l')
    (static : StaticCalls [] st.sys (.call c))
    (reads : (TimerAction.call c).Reads rate (tickAt st'.now))
    (data : CallData st.sys.timer st'.sys.timer l l' c)
    : TimedState rate st' l' := by
  have order := Nat.le_trans state.order later
  cases data with
  | refused refused same list =>
      subst list
      exact state.keep later last timers (same ▸ ⟨rfl, rfl⟩) (by rw [same])
  | posts i clockTime func arg tMs free data list ticks nearest =>
      have absent : TimerRef.slot i ∉ l := fun inside => by
        have used : (st.sys.timer.data (.slot i)).used = true := (state.listed i).mpr inside
        simp [free] at used
      obtain rfl : clockTime = tickAt st'.now := reads
      rw [if_neg absent] at list
      refine state.change later last timers listed ticks data (fun x other => by simp [list, other])
        (fun gone => absurd (by simp [list]) gone) fun _ => ?_
      have armed : Waiting st.last st'.now st.sys.timer.remSysTick.toNat
          (evOnTimer.armed False (tickAt st'.now) tMs (st.sys.timer.data (.slot i))) :=
        .armed _ order tMs
      exact armed.mono (Nat.le_refl _) (by simp [evTimerTaskPost.filled, evOnTimer.armed])
        (by simp [evTimerTaskPost.filled, evOnTimer.armed, absent])
  | arms r clockTime timeout data list ticks nearest =>
      obtain rfl : clockTime = tickAt st'.now := reads
      have event : ¬∃ i, r = .slot i := by
        rintro ⟨i, rfl⟩
        exact static i rfl
      refine state.change later last timers listed ticks data ?_ (fun _ slot => absurd slot event)
        fun _ => ?_
      · intro x other
        rw [list]
        split <;> simp [other]
      · by_cases inside : r ∈ l
        · exact (state.waiting r inside).mono later rfl (by simp [evOnTimer.armed, inside])
        · have armed : Waiting st.last st'.now st.sys.timer.remSysTick.toNat
              (evOnTimer.armed False (tickAt st'.now) timeout (st.sys.timer.data r)) :=
            .armed _ order timeout
          exact armed.mono (Nat.le_refl _) rfl (by simp [evOnTimer.armed, inside])
  | stops r call inside data list ticks nearest =>
      have gone : r ∉ l' := list ▸ state.timers.list.nodup.not_mem_erase
      exact state.change later last timers listed ticks data
        (fun x other => by rw [list]; exact List.mem_erase_of_ne other) (fun _ _ => rfl)
        fun again => absurd again gone

/-- A call of `ev_timer_process`. -/
theorem TimedState.process {expired : Bool} (state : TimedState rate st l)
    (later : st.now ≤ st'.now) (last : st'.last = st'.now) (timers : TimerList st'.sys.timer l)
    (listed : SlotsListed st'.sys.timer l) (before : st.last ≤ st'.now)
    (processed : Processed rate st.sys.timer st'.sys.timer l st.last st'.now expired)
    : TimedState rate st' l := by
  refine ⟨timers, listed, ?_, Nat.le_of_eq last, fun i absent => ?_, fun x inside => ?_⟩
  · rw [last]
    exact processed.clocked
  · rw [processed.others _ (Or.inr absent)]
    exact state.rested i absent
  · cases expired with
    | true =>
        rw [processed.charged rfl x inside]
        intro stopped
        cases stopped
    | false =>
        have small : Clocked.updateTime rate st.sys.timer st.last st'.now = 0 := by
          simpa using processed.passed
        have short := (Nat.div_eq_zero_iff_lt rate.ms_pos).mp small
        rw [processed.others x (Or.inl rfl), last, processed.remSysTick, Nat.mod_eq_of_lt short]
        intro stopped
        obtain ⟨since, tick, past, close⟩ := state.waiting x inside stopped
        exact ⟨since, tick, Nat.le_trans past later, by omega⟩

/-- The return of a callback. -/
theorem TimedState.ret {t : Int32} (state : TimedState rate st l) (later : st.now ≤ st'.now)
    (last : st'.last = st.last) (timers : TimerList st'.sys.timer l')
    (listed : SlotsListed st'.sys.timer l')
    (returned : evTimerExecuteCB.returned r t st.sys.timer = some st'.sys.timer)
    : TimedState rate st' l' := by
  obtain ⟨l₁, list, ticks, outcome⟩ := state.timers.returned_data returned
  cases list.unique timers
  cases outcome with
  | stops negative inside data =>
      have gone : r ∉ l.erase r := state.timers.list.nodup.not_mem_erase
      exact state.change later last timers listed ticks data
        (fun x other => List.mem_erase_of_ne other) (fun _ _ => rfl) fun again => absurd again gone
  | gone negative absent same => exact state.keep later last timers ticks (by rw [same])
  | arms stays data =>
      obtain ⟨running, tick⟩ := evTimerExecuteCB.rearmed_clock t (st.sys.timer.data r)
      refine state.change later last timers listed ticks data (fun _ _ => Iff.rfl) ?_
        fun inside => (state.waiting r inside).mono later running tick
      rintro absent ⟨i, rfl⟩
      rw [running]
      exact state.rested i absent

theorem TimedState.step (state : TimedState rate st l) (static : StaticCalls [] st.sys action)
    (step : TimedStep rate st action notes st')
    : ∃ l', TimedState rate st' l' := by
  obtain ⟨l', effect⟩ := state.timers.step step.step
  have listed := effect.moves.slotsListed state.timers.list.nodup state.listed static
  have run := step.step
  have last := step.last
  cases action with
  | call c =>
      obtain ⟨exec, -⟩ := TimerAction.step_call run
      obtain ⟨l₁, timers, data⟩ := state.timers.call_data exec
      cases effect.timers.unique timers
      exact ⟨l', state.call step.later last timers listed static step.reads data⟩
  | process sTimerClock1us currSysTick curSysTick =>
      obtain ⟨-, expired, process, -⟩ := TimerAction.step_process run
      obtain ⟨rfl, rfl, rfl⟩ := step.reads
      have soon := step.soon rfl
      have before := Nat.le_trans state.order step.later
      have processed := state.timers.process_data state.clocked before soon process
      obtain ⟨s', expired', again, timers, -⟩ :=
        state.timers.process rate.sTimerClock1us (tickAt st'.now) (tickAt st'.now)
      rw [process, Option.some.injEq, Prod.mk.injEq] at again
      obtain ⟨rfl, rfl⟩ := again
      cases effect.timers.unique timers
      exact ⟨l, state.process step.later last timers listed before processed⟩
  | walk =>
      obtain ⟨timerEvt, prevHead, -, ⟨-, nearest, -⟩ | ⟨r, -, same, -⟩⟩ := TimerAction.step_walk run
      · obtain ⟨data, ticks, -⟩ := evTimerNearestUpdate_data state.timers.list nearest
        obtain ⟨n, again, timers⟩ := state.timers.nearest
        rw [nearest, Option.some.injEq] at again
        exact ⟨l, state.keep step.later last (again ▸ timers) ticks data⟩
      · exact ⟨l, state.keep step.later last (same ▸ state.timers) (same ▸ ⟨rfl, rfl⟩) (by rw [same])⟩
  | ret t =>
      obtain ⟨r, prevHead, -, returned, -⟩ := TimerAction.step_ret run
      exact ⟨l', state.ret step.later last effect.timers listed returned⟩

theorem TimedRun.state (run : TimedRun rate st) : ∃ l, TimedState rate st l := by
  induction run with
  | boot events now => exact ⟨[], .boot rate events now⟩
  | step _ static step ih =>
      obtain ⟨l, state⟩ := ih
      exact state.step static step

/-- The value of `updateTime` in a step; a step that processes no time has none. -/
def TimerAction.updateTime (s : EvTimer statics) : TimerAction statics → Nat
  | .process sTimerClock1us currSysTick _ =>
      (evTimerProcess.updateTime sTimerClock1us currSysTick s).toNat
  | _ => 0

/-- Runs from `start`, with the sum of the values of `updateTime`. -/
inductive Summed (rate : TickRate) (start : TimedSys statics) : Nat → TimedSys statics → Prop where
  | start : Summed rate start 0 start
  | step {total : Nat} {st st' : TimedSys statics} {action : TimerAction statics}
      {notes : List (TimerNote statics)} (before : Summed rate start total st)
      (static : StaticCalls [] st.sys action) (step : TimedStep rate st action notes st')
      : Summed rate start (total + action.updateTime st.sys.timer) st'

theorem TimedState.sum (state : TimedState rate st l) (step : TimedStep rate st action notes st')
    : action.updateTime st.sys.timer * rate.ms + st'.sys.timer.remSysTick.toNat + st.last
        = st.sys.timer.remSysTick.toNat + st'.last := by
  have last := step.last
  have run := step.step
  cases action with
  | call c =>
      obtain ⟨l₁, -, data⟩ := state.timers.call_data (TimerAction.step_call run).1
      rw [last, data.ticks.remSysTick]
      simp [TimerAction.updateTime, TimerAction.processes]
  | process sTimerClock1us currSysTick curSysTick =>
      obtain ⟨-, expired, process, -⟩ := TimerAction.step_process run
      obtain ⟨rfl, rfl, rfl⟩ := step.reads
      have before := Nat.le_trans state.order step.later
      have processed := state.timers.process_data state.clocked before (step.soon rfl) process
      have sum := processed.sum
      rw [last, TimerAction.updateTime, processed.updateTime]
      simp only [TimerAction.processes, if_true]
      omega
  | walk =>
      obtain ⟨timerEvt, prevHead, -, ⟨-, nearest, -⟩ | ⟨r, -, same, -⟩⟩ := TimerAction.step_walk run
      · obtain ⟨-, ticks, -⟩ := evTimerNearestUpdate_data state.timers.list nearest
        rw [last, ticks.remSysTick]
        simp [TimerAction.updateTime, TimerAction.processes]
      · rw [last, same]
        simp [TimerAction.updateTime, TimerAction.processes]
  | ret t =>
      obtain ⟨r, prevHead, -, returned, -⟩ := TimerAction.step_ret run
      obtain ⟨l₁, -, ticks, -⟩ := state.timers.returned_data returned
      rw [last, ticks.remSysTick]
      simp [TimerAction.updateTime, TimerAction.processes]

/-- The sum follows the ticks, by induction on the run. -/
theorem Summed.total {start : TimedSys statics} {total : Nat} (summed : Summed rate start total st)
    (began : TimedState rate start l)
    : (∃ l', TimedState rate st l')
      ∧ total * rate.ms + st.sys.timer.remSysTick.toNat + start.last
        = start.sys.timer.remSysTick.toNat + st.last := by
  induction summed with
  | start => exact ⟨⟨l, began⟩, by simp⟩
  | step before static step ih =>
      obtain ⟨⟨l₁, state⟩, sum⟩ := ih
      refine ⟨state.step static step, ?_⟩
      have next := state.sum step
      rw [Nat.add_mul]
      omega

end Runs

end TelinkSdk
