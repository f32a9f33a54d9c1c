import TelinkSdk.Os.TimerClock

/-! How exactly a timer runs. Whatever the other timers and their callbacks do, the milliseconds
that a timer is credited with follow the clock, and an expired timer fires in the pass that finds
it expired.
-/

namespace TelinkSdk

open Links LinkView LinkStore

variable {statics : Nat} {s s' : EvTimer statics} {l l' : List (TimerRef statics)}
  {r x : TimerRef statics} {notes : List (TimerNote statics)} {action : TimerAction statics}

-----------------------------------------------------------------------------------------
-- The way of a pass to a timer
-----------------------------------------------------------------------------------------

/-- Links lead from `p` to `r`, past timers outside the list and then along the list. -/
inductive LeadsTo (s : EvTimer statics) (l : List (TimerRef statics)) (r : TimerRef statics)
    : Option (TimerRef statics) → Prop where
  | listed {a : TimerRef statics} {front rest : List (TimerRef statics)}
      (split : l = front ++ a :: rest) (ahead : r ∈ a :: rest)
      : LeadsTo s l r (some a)
  | stale {a : TimerRef statics} (out : a ∉ l) (later : LeadsTo s l r (next s a))
      : LeadsTo s l r (some a)

/-- The head leads to every timer of the list. -/
theorem TimerList.leads (timers : TimerList s l) (inside : r ∈ l) : LeadsTo s l r s.timerHead := by
  rw [ListAt.head timers.list]
  cases l with
  | nil => contradiction
  | cons a rest => exact .listed (List.nil_append _).symm inside

/-- Behind another timer the way goes on. -/
theorem LeadsTo.next (leads : LeadsTo s l r (some x)) (timers : TimerList s l) (other : x ≠ r)
    : LeadsTo s l r (next s x) := by
  cases leads with
  | stale out later => exact later
  | @listed _ front rest split ahead =>
      subst split
      have suffix : ListAt s (some x) (x :: rest) := timers.list.suffix front
      have behind := List.mem_of_ne_of_mem (Ne.symm other) ahead
      rw [ListAt.head suffix.2]
      cases rest with
      | nil => contradiction
      | cons b rest => exact .listed (List.append_cons front x (b :: rest)) behind

/-- A step leaves the list as it is, puts a timer in front, or takes one out. -/
theorem Moves.shape (moves : Moves action s s' l l' notes)
    : l' = l ∨ (∃ y, y ∉ l ∧ l' = y :: l) ∨ ∃ y, l' = l.erase y := by
  cases moves with
  | keeps list used => exact Or.inl list
  | passes own quiet list used => exact Or.inl list
  | posts i timeout free list used =>
      split at list
      case isTrue => exact Or.inl list
      case isFalse absent => exact Or.inr (Or.inl ⟨_, absent, list⟩)
  | arms r clockTime timeout call list used =>
      split at list
      case isTrue => exact Or.inl list
      case isFalse absent => exact Or.inr (Or.inl ⟨_, absent, list⟩)
  | stops r noted list used => exact Or.inr (Or.inr ⟨r, list⟩)

/-- A step that leaves the timer in the list leaves a way to it. -/
theorem LeadsTo.step {p : Option (TimerRef statics)} (leads : LeadsTo s l r p)
    (timers : TimerList s l) (effect : Effect action s s' l l' notes) (stays : r ∈ l')
    : LeadsTo s' l' r p := by
  have shape := effect.moves.shape
  induction leads with
  | @listed a front rest split ahead =>
      rcases shape with rfl | ⟨y, fresh, rfl⟩ | ⟨y, rfl⟩
      · exact .listed split ahead
      · exact .listed (by rw [split, List.cons_append]) ahead
      · have nodup := timers.list.nodup
        have other : r ≠ y := (nodup.mem_erase_iff.mp stays).1
        have link : LinkView.next s a = rest.head? := by
          have suffix : ListAt s (some a) (a :: rest) := (split ▸ timers.list).suffix front
          exact ListAt.head suffix.2
        by_cases here : a = y
        · -- the timer the way came to is taken out, and its link leads on
          subst here
          have gone : a ∉ l.erase a := nodup.not_mem_erase
          have behind := List.mem_of_ne_of_mem other ahead
          refine .stale gone ?_
          rw [effect.links a gone, link]
          cases rest with
          | nil => contradiction
          | cons b rest =>
              refine @LeadsTo.listed _ _ _ r b front rest ?_ behind
              have absent : a ∉ front := by
                rw [split] at nodup
                exact fun again => List.disjoint_of_nodup_append nodup again (by simp)
              rw [split, List.erase_append_right _ absent, List.erase_cons_head]
        · have ahead' : r ∈ a :: rest.erase y := by
            rcases List.mem_cons.mp ahead with rfl | later
            · simp
            · exact List.mem_cons_of_mem _ ((List.mem_erase_of_ne other).mpr later)
          by_cases before : y ∈ front
          · refine @LeadsTo.listed _ _ _ r a (front.erase y) rest ?_ ahead
            rw [split, List.erase_append_left _ before]
          · refine @LeadsTo.listed _ _ _ r a front (rest.erase y) ?_ ahead'
            rw [split, List.erase_append_right _ before, List.erase_cons_tail (by simpa using here)]
  | @stale a out later ih =>
      by_cases again : a ∈ l'
      · -- only a timer that is put in front comes back
        rcases shape with rfl | ⟨y, fresh, rfl⟩ | ⟨y, rfl⟩
        · exact absurd again out
        · rcases List.mem_cons.mp again with rfl | inside
          · exact .listed (List.nil_append _).symm stays
          · exact absurd inside out
        · exact absurd (List.mem_of_mem_erase again) out
      · refine .stale again ?_
        rw [effect.links a again]
        exact ih

-----------------------------------------------------------------------------------------
-- Runs with one timer in view
-----------------------------------------------------------------------------------------

/-- The step does not arm or cancel the timer, and its callback does not end it. -/
def Spares (r : TimerRef statics) (sys : TimerSys statics) : TimerAction statics → Prop
  | .call (.taskCancel evt) => evt ≠ some r
  | .call (.unonTimer evt) => evt ≠ some r
  | .call (.onTimer _ evt _) => evt ≠ some r
  | .ret t => t < 0 → ∀ prevHead, sys.phase ≠ .calling r prevHead
  | _ => True

/-- The callback of the timer is called. -/
def TimerNote.fires (r : TimerRef statics) : TimerNote statics → Bool
  | .fired x _ _ => x == r
  | _ => false

/-- What a run has added up: the values of `updateTime`, the milliseconds that the timer was
credited with, when it was first, and when its callback first ran.
-/
structure Ledger where
  updates : Nat := 0
  credited : Nat := 0
  first : Option Nat := none
  fired : Option Nat := none
deriving DecidableEq, Repr

/-- The ledger after a step at `now`. -/
def Ledger.after (r : TimerRef statics) (s : EvTimer statics) (now : Nat)
    (notes : List (TimerNote statics)) (ledger : Ledger) : TimerAction statics → Ledger
  | .process sTimerClock1us currSysTick curSysTick =>
      let updateTime := evTimerProcess.updateTime sTimerClock1us currSysTick s
      if updateTime = 0 then ledger
      else
        { ledger with
          updates := ledger.updates + updateTime.toNat
          credited := ledger.credited
            + (evTimerUpdate.chargeMs sTimerClock1us updateTime curSysTick (s.data r)).toNat
          first := ledger.first.or (some now) }
  | _ =>
      { ledger with
        fired := ledger.fired.or (if notes.any (TimerNote.fires r) then some now else none) }

/-- Runs from `start` that spare timer `r`. -/
inductive Driven (rate : TickRate) (r : TimerRef statics) (start : TimedSys statics)
    : Ledger → TimedSys statics → Prop where
  | start : Driven rate r start {} start
  | step {ledger : Ledger} {st st' : TimedSys statics} {action : TimerAction statics}
      {notes : List (TimerNote statics)} (before : Driven rate r start ledger st)
      (static : StaticCalls [] st.sys action) (spares : Spares r st.sys action)
      (step : TimedStep rate st action notes st')
      : Driven rate r start (ledger.after r st.sys.timer st'.now notes action) st'

/-- What the ledger says of the timer: before it was credited, and after that. `since` is the time
of its registration, which counts for a timer that was not running.
-/
def Ledger.Right (rate : TickRate) (r : TimerRef statics) (start st : TimedSys statics)
    (since : Nat) (ledger : Ledger) : Prop :=
  match ledger.first with
  | none =>
      ledger.credited = 0 ∧ ledger.updates = 0
      ∧ (st.sys.timer.data r).isRunning = (start.sys.timer.data r).isRunning
      ∧ (st.sys.timer.data r).curSysTick = (start.sys.timer.data r).curSysTick
  | some t =>
      (st.sys.timer.data r).isRunning = true ∧ start.now ≤ t ∧ t ≤ st.last
      ∧ t + start.sys.timer.remSysTick.toNat < start.last + rate.ms + 4294967296
      ∧ if (start.sys.timer.data r).isRunning then ledger.credited = ledger.updates
        else
          ledger.credited + (start.sys.timer.remSysTick.toNat + (t - start.last)) / rate.ms
            = ledger.updates + (t - since) % 4294967296 / rate.ms

/-- Where the pass is while the timer has not fired. -/
def Ahead (r : TimerRef statics) (s : EvTimer statics) (l : List (TimerRef statics))
    (credited : Bool) : TimerPhase statics → Prop
  | .idle => credited → (s.data r).timeout ≠ 0
  | .walking p _ => credited → (s.data r).timeout = 0 → LeadsTo s l r p
  | .calling x _ => x ≠ r ∧ (credited → (s.data r).timeout = 0 → LeadsTo s l r (some x))

structure DrivenState (rate : TickRate) (r : TimerRef statics) (start : TimedSys statics)
    (since : Nat) (ledger : Ledger) (st : TimedSys statics) (l : List (TimerRef statics))
    : Prop where
  state : TimedState rate st l
  inside : r ∈ l
  later : start.now ≤ st.now
  called : start.last ≤ st.last
  updates : ledger.updates * rate.ms + st.sys.timer.remSysTick.toNat + start.last
    = start.sys.timer.remSysTick.toNat + st.last
  right : ledger.Right rate r start st since
  timeout : ledger.fired = none
    → (st.sys.timer.data r).timeout.toNat
      = (start.sys.timer.data r).timeout.toNat - ledger.credited
  ahead : ledger.fired = none → Ahead r st.sys.timer l ledger.first.isSome st.sys.phase

section Runs

variable {rate : TickRate} {start st st' : TimedSys statics} {since : Nat} {ledger : Ledger}

/-- A call that spares the timer leaves its data alone. -/
theorem TimedState.call_spares {c : TimerCall statics} (state : TimedState rate st l)
    (inside : r ∈ l) (spares : Spares r st.sys (.call c))
    (data : CallData st.sys.timer s' l l' c)
    : s'.data r = st.sys.timer.data r ∧ r ∈ l' ∧ SameTicks st.sys.timer s' := by
  cases data with
  | refused refused same list => exact ⟨by rw [same], list ▸ inside, same ▸ ⟨rfl, rfl⟩⟩
  | posts i clockTime func arg tMs free data list ticks nearest =>
      have other : r ≠ .slot i := by
        rintro rfl
        have used : (st.sys.timer.data (.slot i)).used = true := (state.listed i).mpr inside
        simp [free] at used
      refine ⟨by rw [data, Function.update_of_ne other], ?_, ticks⟩
      rw [list]
      split <;> simp [inside]
  | arms x clockTime timeout data list ticks nearest =>
      have other : r ≠ x := fun same => spares (by rw [same])
      refine ⟨by rw [data, Function.update_of_ne other], ?_, ticks⟩
      rw [list]
      split <;> simp [inside]
  | stops x call gone data list ticks nearest =>
      have other : r ≠ x := by
        rintro rfl
        rcases call with rfl | rfl <;> exact spares rfl
      refine ⟨by rw [data, Function.update_of_ne other], ?_, ticks⟩
      rw [list]
      exact (List.mem_erase_of_ne other).mpr inside

/-- A step that processes no time and leaves the timer's clock alone. -/
theorem DrivenState.keep {ledger' : Ledger} (driven : DrivenState rate r start since ledger st l)
    (state : TimedState rate st' l') (inside : r ∈ l') (later : st.now ≤ st'.now)
    (last : st'.last = st.last) (ticks : SameTicks st.sys.timer st'.sys.timer)
    (running : (st'.sys.timer.data r).isRunning = (st.sys.timer.data r).isRunning)
    (tick : (st'.sys.timer.data r).curSysTick = (st.sys.timer.data r).curSysTick)
    (updates : ledger'.updates = ledger.updates) (credited : ledger'.credited = ledger.credited)
    (first : ledger'.first = ledger.first)
    (timeout : ledger'.fired = none → ledger.fired = none
      ∧ (st'.sys.timer.data r).timeout = (st.sys.timer.data r).timeout
      ∧ Ahead r st'.sys.timer l' ledger.first.isSome st'.sys.phase)
    : DrivenState rate r start since ledger' st' l' := by
  refine {
    state
    inside
    later := Nat.le_trans driven.later later
    called := last ▸ driven.called
    updates := ?_
    right := ?_
    timeout := ?_
    ahead := ?_
  }
  · rw [updates, ticks.remSysTick, last]
    exact driven.updates
  · have right := driven.right
    simp only [Ledger.Right, first, credited, updates, running, tick, last] at right ⊢
    exact right
  · intro silent
    obtain ⟨before, same, -⟩ := timeout silent
    rw [same, credited]
    exact driven.timeout before
  · intro silent
    rw [first]
    exact (timeout silent).2.2

/-- No call runs a callback. -/
theorem TimerCall.exec_silent {c : TimerCall statics} (run : c.exec s = some (s', notes))
    : notes.any (TimerNote.fires r) = false := by
  cases c with
  | taskPost clockTime func arg tMs =>
      obtain ⟨⟨handle, after⟩, -, result⟩ := Option.bind_eq_some_iff.mp run
      cases result
      cases handle <;> rfl
  | taskCancel evt =>
      obtain ⟨⟨status, handle, after⟩, -, result⟩ := Option.bind_eq_some_iff.mp run
      cases result
      split <;> cases evt <;> rfl
  | onTimer clockTime evt timeout =>
      obtain ⟨after, -, result⟩ := Option.bind_eq_some_iff.mp run
      cases result
      cases evt <;> rfl
  | unonTimer evt =>
      obtain ⟨after, -, result⟩ := Option.bind_eq_some_iff.mp run
      cases result
      cases evt <;> rfl

theorem DrivenState.call {c : TimerCall statics}
    (driven : DrivenState rate r start since ledger st l) (static : StaticCalls [] st.sys (.call c))
    (spares : Spares r st.sys (.call c)) (step : TimedStep rate st (.call c) notes st')
    : ∃ l', DrivenState rate r start since
        (ledger.after r st.sys.timer st'.now notes (.call c)) st' l' := by
  have timers := driven.state.timers
  obtain ⟨l', state⟩ := driven.state.step static step
  obtain ⟨l₁, effect⟩ := timers.step step.step
  cases state.timers.unique effect.timers
  obtain ⟨exec, phase, outside⟩ := TimerAction.step_call step.step
  obtain ⟨l₂, list, data⟩ := timers.call_data exec
  cases state.timers.unique list
  obtain ⟨same, inside, ticks⟩ := driven.state.call_spares driven.inside spares data
  have silent : notes.any (TimerNote.fires r) = false := TimerCall.exec_silent exec
  refine ⟨l', driven.keep state inside step.later step.last ticks (by rw [same]) (by rw [same]) rfl
    rfl rfl fun unfired => ?_⟩
  have before : ledger.fired = none := by simpa [Ledger.after, silent] using unfired
  have ahead := driven.ahead before
  refine ⟨before, by rw [same], ?_⟩
  rw [phase]
  cases place : st.sys.phase with
  | walking timerEvt prevHead => exact absurd place (outside _ _)
  | idle =>
      rw [place] at ahead
      simpa [Ahead, same] using ahead
  | calling x prevHead =>
      rw [place] at ahead
      refine ⟨ahead.1, fun credited due => ?_⟩
      rw [same] at due
      exact (ahead.2 credited due).step timers effect inside

theorem DrivenState.walk (driven : DrivenState rate r start since ledger st l)
    (step : TimedStep rate st .walk notes st')
    : ∃ l', DrivenState rate r start since
        (ledger.after r st.sys.timer st'.now notes .walk) st' l' := by
  have timers := driven.state.timers
  have static : StaticCalls [] st.sys (.walk : TimerAction statics) := trivial
  obtain ⟨l', state⟩ := driven.state.step static step
  obtain ⟨timerEvt, prevHead, place, outcome⟩ := TimerAction.step_walk step.step
  rcases outcome with ⟨rfl, nearest, phase, rfl⟩ | ⟨x, rfl, same, outcome⟩
  · obtain ⟨data, ticks, -⟩ := evTimerNearestUpdate_data timers.list nearest
    obtain ⟨n, again, list⟩ := timers.nearest
    rw [nearest, Option.some.injEq] at again
    cases state.timers.unique (again ▸ list)
    refine ⟨l, driven.keep state driven.inside step.later step.last ticks (by rw [data])
      (by rw [data]) rfl rfl rfl fun unfired => ?_⟩
    have before : ledger.fired = none := by simpa [Ledger.after, TimerNote.fires] using unfired
    have ahead := driven.ahead before
    rw [place] at ahead
    refine ⟨before, by rw [data], ?_⟩
    rw [phase]
    -- a timer that has expired would still be ahead of the end of the list
    intro credited due
    rw [data] at due
    cases ahead credited due
  · have list := state.timers
    rw [same] at list
    cases list.unique timers
    have ticks : SameTicks st.sys.timer st'.sys.timer := same ▸ ⟨rfl, rfl⟩
    refine ⟨l, driven.keep state driven.inside step.later step.last ticks (by rw [same])
      (by rw [same]) rfl rfl rfl fun unfired => ?_⟩
    have before : ledger.fired = none := by
      cases fired : ledger.fired with
      | none => rfl
      | some t => simp [Ledger.after, fired] at unfired
    have ahead := driven.ahead before
    rw [place] at ahead
    rcases outcome with ⟨due, phase, rfl⟩ | ⟨running, phase, rfl⟩
    · have other : x ≠ r := by
        rintro rfl
        simp [Ledger.after, TimerNote.fires, before] at unfired
      rw [phase, same]
      exact ⟨before, rfl, other, fun credited expired => ahead credited expired⟩
    · rw [phase, same]
      refine ⟨before, rfl, fun credited expired => ?_⟩
      have other : x ≠ r := by
        rintro rfl
        exact running expired
      exact (ahead credited expired).next timers other

/-- So does the return of a callback, whose own timer keeps its clock. -/
theorem ReturnData.spares {sys : TimerSys statics} {t : Int32} {prevHead : Option (TimerRef statics)}
    (outcome : ReturnData sys.timer s' x t l l') (inside : r ∈ l) (spares : Spares r sys (.ret t))
    (place : sys.phase = .calling x prevHead)
    : r ∈ l' ∧ (s'.data r).isRunning = (sys.timer.data r).isRunning
      ∧ (s'.data r).curSysTick = (sys.timer.data r).curSysTick
      ∧ (x ≠ r → s'.data r = sys.timer.data r) := by
  cases outcome with
  | stops negative listed data =>
      have other : r ≠ x := fun same => spares negative prevHead (same ▸ place)
      have kept : s'.data r = sys.timer.data r := by rw [data, Function.update_of_ne other]
      exact ⟨(List.mem_erase_of_ne other).mpr inside, by rw [kept], by rw [kept], fun _ => kept⟩
  | gone negative absent same => exact ⟨inside, by rw [same], by rw [same], fun _ => by rw [same]⟩
  | arms stays data =>
      by_cases same : r = x
      · subst same
        have own : s'.data r = evTimerExecuteCB.rearmed t (sys.timer.data r) := by
          rw [data, Function.update_self]
        obtain ⟨running, tick⟩ := evTimerExecuteCB.rearmed_clock t (sys.timer.data r)
        rw [own]
        exact ⟨inside, running, tick, fun other => absurd rfl other⟩
      · have kept : s'.data r = sys.timer.data r := by rw [data, Function.update_of_ne same]
        exact ⟨inside, by rw [kept], by rw [kept], fun _ => kept⟩

theorem DrivenState.ret {t : Int32} (driven : DrivenState rate r start since ledger st l)
    (spares : Spares r st.sys (.ret t)) (step : TimedStep rate st (.ret t) notes st')
    : ∃ l', DrivenState rate r start since
        (ledger.after r st.sys.timer st'.now notes (.ret t)) st' l' := by
  have timers := driven.state.timers
  have static : StaticCalls [] st.sys (.ret t : TimerAction statics) := trivial
  obtain ⟨l', state⟩ := driven.state.step static step
  obtain ⟨l₁, effect⟩ := timers.step step.step
  cases state.timers.unique effect.timers
  obtain ⟨x, prevHead, place, returned, phase, rfl⟩ := TimerAction.step_ret step.step
  obtain ⟨l₂, list, ticks, outcome⟩ := timers.returned_data returned
  cases state.timers.unique list
  obtain ⟨inside, running, tick, kept⟩ := outcome.spares driven.inside spares place
  refine ⟨l', driven.keep state inside step.later step.last ticks running tick rfl rfl rfl
    fun unfired => ?_⟩
  have before : ledger.fired = none := by simpa [Ledger.after, TimerNote.fires] using unfired
  have ahead := driven.ahead before
  rw [place] at ahead
  obtain ⟨other, ahead⟩ := ahead
  have same := kept other
  refine ⟨before, by rw [same], ?_⟩
  rw [phase, evTimerExecuteCB.next]
  split
  case isTrue => exact fun _ _ => state.timers.leads inside
  case isFalse =>
    intro credited due
    rw [same] at due
    exact ((ahead credited due).step timers effect inside).next state.timers other

/-- The ledger after all timers were charged `updateTime` milliseconds at `now`. -/
def Ledger.charged (rate : TickRate) (r : TimerRef statics) (s : EvTimer statics)
    (updateTime : UInt32) (now : Nat) (ledger : Ledger) : Ledger :=
  { ledger with
    updates := ledger.updates + updateTime.toNat
    credited := ledger.credited
      + (evTimerUpdate.chargeMs rate.sTimerClock1us updateTime (tickAt now) (s.data r)).toNat
    first := ledger.first.or (some now) }

/-- A call of `ev_timer_process` that finds no whole millisecond. -/
theorem DrivenState.waits (driven : DrivenState rate r start since ledger st l)
    (state : TimedState rate st' l) (later : st.now ≤ st'.now) (last : st'.last = st'.now)
    (processed : Processed rate st.sys.timer st'.sys.timer l st.last st'.now false)
    (place : st.sys.phase = .idle) (phase : st'.sys.phase = .idle)
    : DrivenState rate r start since ledger st' l := by
  have none : Clocked.updateTime rate st.sys.timer st.last st'.now = 0 := by
    simpa using processed.passed
  have same := processed.others r (Or.inl rfl)
  have order := Nat.le_trans driven.state.order later
  have called := driven.called
  have updates := driven.updates
  have division := processed.sum
  rw [none, Nat.zero_mul] at division
  refine {
    state
    inside := driven.inside
    later := Nat.le_trans driven.later later
    called := by omega
    updates := by omega
    right := ?_
    timeout := fun unfired => by rw [same]; exact driven.timeout unfired
    ahead := fun unfired => ?_
  }
  · have right := driven.right
    simp only [Ledger.Right, same] at right ⊢
    split at right
    case h_1 => exact right
    case h_2 => exact ⟨right.1, right.2.1, by omega, right.2.2.2⟩
  · have ahead := driven.ahead unfired
    rw [place] at ahead
    rw [phase]
    intro credited
    rw [same]
    exact ahead credited

/-- The first charge takes the time since the registration off a timer that was not running. -/
theorem DrivenState.right_first (driven : DrivenState rate r start since ledger st l)
    (registered : (start.sys.timer.data r).isRunning = false
      → (start.sys.timer.data r).curSysTick = tickAt since ∧ since ≤ start.now)
    (later : st.now ≤ st'.now) (last : st'.last = st'.now)
    (soon : st'.now < st.last + 4294967296) {updateTime : UInt32}
    (value : updateTime.toNat = Clocked.updateTime rate st.sys.timer st.last st'.now)
    (runs : (st'.sys.timer.data r).isRunning = true) (first : ledger.first = none)
    : (ledger.charged rate r st.sys.timer updateTime st'.now).Right rate r start st' since := by
  have right := driven.right
  have updates := driven.updates
  have called := driven.called
  have before := Nat.le_trans driven.state.order later
  have below := driven.state.clocked.remSysTick
  simp only [Ledger.charged, Ledger.Right, first, Option.none_or] at right ⊢
  obtain ⟨uncredited, none, running, tick⟩ := right
  rw [none, Nat.zero_mul] at updates
  refine ⟨runs, Nat.le_trans driven.later later, Nat.le_of_eq last.symm, by omega, ?_⟩
  rw [uncredited, none, evTimerUpdate.chargeMs, running]
  cases began : (start.sys.timer.data r).isRunning with
  | true => simp
  | false =>
      obtain ⟨registered, past⟩ := registered began
      have whole : start.sys.timer.remSysTick.toNat + (st'.now - start.last)
          = st.sys.timer.remSysTick.toNat + (st'.now - st.last) := by omega
      have age : (tickAt st'.now - (st.sys.timer.data r).curSysTick).toNat
          = (st'.now - since) % 4294967296 := by
        have span := Nat.le_trans past (Nat.le_trans driven.later later)
        rw [tick, registered]
        exact tickAt_sub span
      simp only [Bool.false_eq_true, if_false, UInt32.toNat_div, rate.toNat_ms, age, whole,
        value, Clocked.updateTime]
      omega

/-- Every later charge takes the same off the timer as it adds to the books. -/
theorem DrivenState.right_again (driven : DrivenState rate r start since ledger st l)
    (later : st.now ≤ st'.now) (last : st'.last = st'.now) {updateTime : UInt32} {t : Nat}
    (runs : (st'.sys.timer.data r).isRunning = true) (first : ledger.first = some t)
    : (ledger.charged rate r st.sys.timer updateTime st'.now).Right rate r start st' since := by
  have right := driven.right
  have before := Nat.le_trans driven.state.order later
  simp only [Ledger.charged, Ledger.Right, first, Option.some_or] at right ⊢
  obtain ⟨running, low, high, close, credit⟩ := right
  rw [evTimerUpdate.chargeMs, if_pos running]
  refine ⟨runs, low, by omega, close, ?_⟩
  split at credit
  case isTrue began =>
    rw [if_pos began]
    omega
  case isFalse began =>
    rw [if_neg began]
    omega

/-- A call of `ev_timer_process` that charges the timers. -/
theorem DrivenState.charges (driven : DrivenState rate r start since ledger st l)
    (registered : (start.sys.timer.data r).isRunning = false
      → (start.sys.timer.data r).curSysTick = tickAt since ∧ since ≤ start.now)
    (state : TimedState rate st' l) (later : st.now ≤ st'.now) (last : st'.last = st'.now)
    (soon : st'.now < st.last + 4294967296)
    (processed : Processed rate st.sys.timer st'.sys.timer l st.last st'.now true)
    {updateTime : UInt32}
    (value : updateTime.toNat = Clocked.updateTime rate st.sys.timer st.last st'.now)
    (phase : st'.sys.phase = .walking st'.sys.timer.timerHead st'.sys.timer.timerHead)
    : DrivenState rate r start since
        (ledger.charged rate r st.sys.timer updateTime st'.now) st' l := by
  have charged := processed.charged rfl r driven.inside
  rw [← value, UInt32.ofNat_toNat] at charged
  have runs : (st'.sys.timer.data r).isRunning = true := by rw [charged]; rfl
  have timeout := evTimerUpdate.charge_timeout rate.sTimerClock1us updateTime (tickAt st'.now)
    (st.sys.timer.data r)
  rw [← charged] at timeout
  have before := Nat.le_trans driven.state.order later
  have called := driven.called
  have updates := driven.updates
  have division := processed.sum
  rw [← value] at division
  exact {
    state
    inside := driven.inside
    later := Nat.le_trans driven.later later
    called := by omega
    updates := by rw [Ledger.charged, Nat.add_mul]; omega
    right := by
      cases first : ledger.first with
      | none => exact driven.right_first registered later last soon value runs first
      | some t => exact driven.right_again later last runs first
    timeout := fun unfired => by rw [timeout, driven.timeout unfired, Nat.sub_sub]; rfl
    ahead := fun unfired => by
      rw [phase]
      exact fun _ _ => state.timers.leads driven.inside
  }

theorem DrivenState.process {sTimerClock1us currSysTick curSysTick : UInt32}
    (driven : DrivenState rate r start since ledger st l)
    (registered : (start.sys.timer.data r).isRunning = false
      → (start.sys.timer.data r).curSysTick = tickAt since ∧ since ≤ start.now)
    (step : TimedStep rate st (.process sTimerClock1us currSysTick curSysTick) notes st')
    : ∃ l', DrivenState rate r start since
        (ledger.after r st.sys.timer st'.now notes
          (.process sTimerClock1us currSysTick curSysTick)) st' l' := by
  have timers := driven.state.timers
  have static : StaticCalls [] st.sys
      (.process sTimerClock1us currSysTick curSysTick : TimerAction statics) := trivial
  obtain ⟨l', state⟩ := driven.state.step static step
  obtain ⟨place, expired, run, phase, -⟩ := TimerAction.step_process step.step
  obtain ⟨rfl, rfl, rfl⟩ := step.reads
  have last : st'.last = st'.now := step.last
  have processed := timers.process_data driven.state.clocked
    (Nat.le_trans driven.state.order step.later) (step.soon rfl) run
  obtain ⟨after, again, process, list, -⟩ :=
    timers.process rate.sTimerClock1us (tickAt st'.now) (tickAt st'.now)
  rw [run, Option.some.injEq, Prod.mk.injEq] at process
  obtain ⟨rfl, rfl⟩ := process
  cases state.timers.unique list
  have zero := UInt32.toNat_inj
    (a := evTimerProcess.updateTime rate.sTimerClock1us (tickAt st'.now) st.sys.timer) (b := 0)
  rw [processed.updateTime] at zero
  refine ⟨l, ?_⟩
  cases expired with
  | false =>
      have none : Clocked.updateTime rate st.sys.timer st.last st'.now = 0 := by
        simpa using processed.passed
      rw [Ledger.after, if_pos (zero.mp none)]
      exact driven.waits state step.later last processed place phase
  | true =>
      have positive : Clocked.updateTime rate st.sys.timer st.last st'.now ≠ 0 := by
        simpa using processed.passed
      rw [Ledger.after, if_neg (fun none => positive (zero.mpr none))]
      exact driven.charges registered state step.later last (step.soon rfl) processed
        processed.updateTime phase

/-- Every run keeps the books, by induction on the run. -/
theorem Driven.state (driven : Driven rate r start ledger st) (began : TimedState rate start l)
    (inside : r ∈ l)
    (registered : (start.sys.timer.data r).isRunning = false
      → (start.sys.timer.data r).curSysTick = tickAt since ∧ since ≤ start.now)
    (aside : ∀ timerEvt prevHead, start.sys.phase ≠ .walking timerEvt prevHead)
    (other : ∀ prevHead, start.sys.phase ≠ .calling r prevHead)
    : ∃ l', DrivenState rate r start since ledger st l' := by
  induction driven with
  | start =>
      refine ⟨l, {
        state := began
        inside
        later := Nat.le_refl _
        called := Nat.le_refl _
        updates := by simp
        right := ⟨rfl, rfl, rfl, rfl⟩
        timeout := fun _ => rfl
        ahead := fun _ => ?_
      }⟩
      cases place : start.sys.phase with
      | idle => exact fun credited => by cases credited
      | walking timerEvt prevHead => exact absurd place (aside _ _)
      | calling x prevHead =>
          refine ⟨?_, fun credited => by cases credited⟩
          rintro rfl
          exact other _ place
  | @step ledger st st' action notes before static spares step ih =>
      obtain ⟨l₁, driven⟩ := ih
      cases action with
      | call c => exact driven.call static spares step
      | process sTimerClock1us currSysTick curSysTick =>
          exact driven.process registered step
      | walk => exact driven.walk step
      | ret t => exact driven.ret spares step

/-- The first credit stands. -/
theorem Ledger.after_first {now t : Nat} (first : ledger.first = some t)
    : (ledger.after r s now notes action).first = some t := by
  cases action with
  | process sTimerClock1us currSysTick curSysTick =>
      rw [Ledger.after]
      split
      case isTrue => exact first
      case isFalse => simp [first]
  | call c => exact first
  | walk => exact first
  | ret t => exact first

/-- A timer that fired had run down before. -/
theorem Driven.due {t : Nat} (driven : Driven rate r start ledger st)
    (fired : ledger.fired = some t)
    : ∃ ledger₀ st₀, Driven rate r start ledger₀ st₀ ∧ ledger₀.fired = none
      ∧ (st₀.sys.timer.data r).timeout = 0 ∧ st₀.now ≤ t
      ∧ ∀ t₁, ledger₀.first = some t₁ → ledger.first = some t₁ := by
  induction driven with
  | start => cases fired
  | @step ledger st st' action notes before static spares step ih =>
      cases already : ledger.fired with
      | some t₀ =>
          have same : t₀ = t := by
            cases action with
            | process sTimerClock1us currSysTick curSysTick =>
                rw [Ledger.after] at fired
                split at fired <;> simpa [already] using fired
            | call c => simpa [Ledger.after, already] using fired
            | walk => simpa [Ledger.after, already] using fired
            | ret t => simpa [Ledger.after, already] using fired
          obtain ⟨ledger₀, st₀, run, unfired, due, past, first⟩ := ih (same ▸ already)
          exact ⟨ledger₀, st₀, run, unfired, due, past, fun t₁ set => Ledger.after_first (first t₁ set)⟩
      | none =>
          have first t₁ (set : ledger.first = some t₁)
              : (ledger.after r st.sys.timer st'.now notes action).first = some t₁ :=
            Ledger.after_first set
          refine ⟨ledger, st, before, already, ?_⟩
          cases action with
          | process sTimerClock1us currSysTick curSysTick =>
              rw [Ledger.after] at fired
              split at fired <;> simp [already] at fired
          | call c =>
              have silent : notes.any (TimerNote.fires r) = false :=
                TimerCall.exec_silent (TimerAction.step_call step.step).1
              simp [Ledger.after, already, silent] at fired
          | ret t' =>
              obtain ⟨x, prevHead, -, -, -, rfl⟩ := TimerAction.step_ret step.step
              simp [Ledger.after, already, TimerNote.fires] at fired
          | walk =>
              obtain ⟨timerEvt, prevHead, -, outcome⟩ := TimerAction.step_walk step.step
              rcases outcome with ⟨-, -, -, rfl⟩ | ⟨x, -, -, ⟨due, -, rfl⟩ | ⟨-, -, rfl⟩⟩
              · simp [Ledger.after, already, TimerNote.fires] at fired
              · simp only [Ledger.after, already, TimerNote.fires, List.any_cons, List.any_nil,
                  Bool.or_false, Option.none_or, beq_iff_eq] at fired
                split at fired
                case isTrue same =>
                  cases fired
                  exact ⟨same ▸ due, step.later, first⟩
                case isFalse => cases fired
              · simp [Ledger.after, already] at fired

end Runs

end TelinkSdk
