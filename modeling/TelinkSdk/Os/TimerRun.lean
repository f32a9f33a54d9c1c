import TelinkSdk.Os.TimerList

/-! Runs of the timers: calls from the main loop, passes of `ev_timer_process`, and calls from
inside the callbacks. Every step moves timers into the list or out of it in one of four ways.
-/

namespace TelinkSdk

open Links LinkView LinkStore

variable {statics : Nat} {s s' : EvTimer statics} {l l' : List (TimerRef statics)}
  {r : TimerRef statics} {notes : List (TimerNote statics)}

-----------------------------------------------------------------------------------------
-- Steps
-----------------------------------------------------------------------------------------

/-- The note puts the timer into the list. -/
def TimerNote.starts (r : TimerRef statics) : TimerNote statics → Bool
  | .posted x _ => x == r
  | .armed x => x == r
  | _ => false

/-- The note takes the timer out of the list. -/
def TimerNote.stops (r : TimerRef statics) : TimerNote statics → Bool
  | .cancelled x => x == r
  | .returned x t => x == r && t < 0
  | _ => false

/-- The step stops the timer: by a call, or by a negative return. -/
inductive StopNote (action : TimerAction statics) (r : TimerRef statics)
    : TimerNote statics → Prop where
  | cancel : StopNote action r (.cancelled r)
  | ret (t : Int32) (negative : t < 0) (returns : action = .ret t)
      : StopNote action r (.returned r t)

/-- What a step does to the list and to the marks of the slots, and what it notes. -/
inductive Moves (action : TimerAction statics) (s s' : EvTimer statics)
    (l l' : List (TimerRef statics)) : List (TimerNote statics) → Prop where
  | keeps (list : l' = l) (used : ∀ i, (s'.evt (.slot i)).used = (s.evt (.slot i)).used)
      : Moves action s s' l l' []
  | passes {note : TimerNote statics} (own : ∀ c, action ≠ .call c)
      (quiet : ∀ r, note.starts r = false ∧ note.stops r = false) (list : l' = l)
      (used : ∀ i, (s'.evt (.slot i)).used = (s.evt (.slot i)).used)
      : Moves action s s' l l' [note]
  | posts (i : Fin timerEventNum) (timeout : UInt32) (free : (s.evt (.slot i)).used = false)
      (list : l' = if .slot i ∈ l then l else .slot i :: l)
      (used : ∀ j, (s'.evt (.slot j)).used = if j = i then true else (s.evt (.slot j)).used)
      : Moves action s s' l l' [.posted (.slot i) timeout]
  | arms (r : TimerRef statics) (clockTime timeout : UInt32)
      (call : action = .call (.onTimer clockTime (some r) timeout))
      (list : l' = if r ∈ l then l else r :: l)
      (used : ∀ i, (s'.evt (.slot i)).used = (s.evt (.slot i)).used)
      : Moves action s s' l l' [.armed r]
  | stops (r : TimerRef statics) {note : TimerNote statics} (noted : StopNote action r note)
      (list : l' = l.erase r)
      (used : ∀ i, (s'.evt (.slot i)).used
        = if r ∈ l ∧ r = .slot i then false else (s.evt (.slot i)).used)
      : Moves action s s' l l' [note]

/-- The effect of a step. Links of timers that are not in the list are not touched. -/
structure Effect (action : TimerAction statics) (s s' : EvTimer statics)
    (l l' : List (TimerRef statics)) (notes : List (TimerNote statics)) : Prop where
  timers : TimerList s' l'
  links : ∀ x ∉ l', next s' x = next s x
  moves : Moves action s s' l l' notes

theorem TimerList.nothing (timers : TimerList s l) (action : TimerAction statics)
    : Effect action s s l l [] :=
  ⟨timers, fun _ _ => rfl, .keeps rfl fun _ => rfl⟩

/-- A timer is stopped, whether it is in the list or not. -/
theorem TimerList.stop (timers : TimerList s l) (action : TimerAction statics)
    (r : TimerRef statics) {note : TimerNote statics} (noted : StopNote action r note)
    : ∃ s' l', evUnonTimer (some r) s = some s' ∧ Effect action s s' l l' [note] := by
  by_cases inside : r ∈ l
  · obtain ⟨s', run, list, links, -, used⟩ := timers.unonTimer inside
    refine ⟨s', _, run, list, links, .stops r noted rfl fun i => ?_⟩
    simp only [used, inside, true_and]
  · refine ⟨s, l, evUnonTimer_absent timers.list inside, timers, fun _ _ => rfl,
      .stops r noted ?_ fun i => ?_⟩
    · rw [List.erase_of_not_mem inside]
    · simp [inside]

/-- A timer that enters the list is the only one outside of it whose link changes. -/
theorem links_entered {r : TimerRef statics} (links : ∀ x ≠ r, next s' x = next s x)
    (x : TimerRef statics) (absent : x ∉ if r ∈ l then l else r :: l)
    : next s' x = next s x := by
  refine links x fun same => absent ?_
  subst same
  split <;> simp_all

/-- Every call ends. -/
theorem TimerList.call (timers : TimerList s l) (c : TimerCall statics)
    : ∃ s' notes l', c.exec s = some (s', notes) ∧ Effect (.call c) s s' l l' notes := by
  cases c with
  | taskPost clockTime func arg tMs =>
      rcases timers.taskPost clockTime func arg tMs
        with ⟨run, -⟩ | ⟨i, s', run, free, list, links, used⟩
      · exact ⟨s, [], l, by rw [TimerCall.exec, run]; rfl, timers.nothing _⟩
      · exact ⟨s', _, _, by rw [TimerCall.exec, run]; rfl, list, links_entered links,
          .posts i tMs free rfl used⟩
  | taskCancel evt =>
      cases evt with
      | none => exact ⟨s, [], l, rfl, timers.nothing _⟩
      | some r =>
          by_cases used : (s.evt r).used
          · obtain ⟨s', l', run, effect⟩ :=
              timers.stop (.call (.taskCancel (some r))) r .cancel
            refine ⟨s', [.cancelled r], l', ?_, effect⟩
            simp [TimerCall.exec, evTimerTaskCancel, used, run]
          · refine ⟨s, [], l, ?_, timers.nothing _⟩
            simp [TimerCall.exec, evTimerTaskCancel, used, noTimerAvail, timerSuccess]
  | onTimer clockTime evt timeout =>
      cases evt with
      | none => exact ⟨s, [], l, rfl, timers.nothing _⟩
      | some r =>
          obtain ⟨s', run, list, links, used⟩ := timers.onTimer clockTime r timeout
          exact ⟨s', _, _, by rw [TimerCall.exec, run]; rfl, list, links_entered links,
            .arms r clockTime timeout rfl rfl used⟩
  | unonTimer evt =>
      cases evt with
      | none => exact ⟨s, [], l, rfl, timers.nothing _⟩
      | some r =>
          obtain ⟨s', l', run, effect⟩ :=
            timers.stop (.call (.unonTimer (some r))) r .cancel
          exact ⟨s', _, l', by rw [TimerCall.exec, run]; rfl, effect⟩

/-- The phases in which an action can be taken. -/
def TimerAction.Enabled : TimerAction statics → TimerPhase statics → Prop
  | .call _, .idle => True
  | .call _, .calling .. => True
  | .process .., .idle => True
  | .walk, .walking .. => True
  | .ret _, .calling .. => True
  | _, _ => False

theorem TimerAction.step_enabled {sys sys' : TimerSys statics} {action : TimerAction statics}
    (step : action.step sys = some (sys', notes))
    : action.Enabled sys.phase := by
  rcases sys with ⟨s, phase⟩
  cases action <;> cases phase <;> simp [TimerAction.step, TimerAction.Enabled] at step ⊢

/-- The step of a callback that returns. -/
theorem TimerList.ret (timers : TimerList s l) (r : TimerRef statics) (t : Int32)
    : ∃ s' l', evTimerExecuteCB.returned r t s = some s'
      ∧ Effect (.ret t) s s' l l' [.returned r t] := by
  by_cases negative : t < 0
  · obtain ⟨s', l', run, effect⟩ := timers.stop (.ret t) r (.ret t negative rfl)
    exact ⟨s', l', by rw [evTimerExecuteCB.returned, if_pos negative, run], effect⟩
  · obtain ⟨s', run, list, links, -, -, used⟩ := timers.rearmed r negative
    exact ⟨s', l, run, list, fun x _ => links x,
      .passes (by simp) (by simp [TimerNote.starts, TimerNote.stops, negative]) rfl used⟩

/-- An action that the phase allows always comes to its end. -/
theorem TimerList.progress {sys : TimerSys statics} {action : TimerAction statics}
    (timers : TimerList sys.timer l) (enabled : action.Enabled sys.phase)
    : ∃ sys' notes l', action.step sys = some (sys', notes)
      ∧ Effect action sys.timer sys'.timer l l' notes := by
  rcases sys with ⟨s, phase⟩
  cases action with
  | call c =>
      obtain ⟨s', notes, l', run, effect⟩ := timers.call c
      cases phase with
      | walking timerEvt prevHead => exact enabled.elim
      | idle => exact ⟨_, notes, l', by simp only [TimerAction.step, run]; rfl, effect⟩
      | calling timerEvt prevHead =>
          exact ⟨_, notes, l', by simp only [TimerAction.step, run]; rfl, effect⟩
  | process sTimerClock1us currSysTick curSysTick =>
      obtain ⟨s', expired, run, list, links, used⟩ :=
        timers.process sTimerClock1us currSysTick curSysTick
      cases phase with
      | walking timerEvt prevHead => exact enabled.elim
      | calling timerEvt prevHead => exact enabled.elim
      | idle =>
          cases expired with
          | false =>
              exact ⟨⟨s', .idle⟩, [], l, by simp only [TimerAction.step, run]; rfl, list,
                fun x _ => links x, .keeps rfl used⟩
          | true =>
              exact ⟨⟨s', .walking s'.timerHead s'.timerHead⟩, [.passBegan], l,
                by simp only [TimerAction.step, run]; rfl, list, fun x _ => links x,
                .passes (by simp) (by simp [TimerNote.starts, TimerNote.stops]) rfl used⟩
  | walk =>
      cases phase with
      | idle => exact enabled.elim
      | calling timerEvt prevHead => exact enabled.elim
      | walking timerEvt prevHead =>
          cases timerEvt with
          | none =>
              obtain ⟨n, run, list⟩ := timers.nearest
              exact ⟨⟨{ s with timerNearest := n }, .idle⟩, [.passEnded], l,
                by simp only [TimerAction.step, run]; rfl, list, fun _ _ => rfl,
                .passes (by simp) (by simp [TimerNote.starts, TimerNote.stops]) rfl fun _ => rfl⟩
          | some r =>
              by_cases expired : (s.evt r).timeout = 0
              · exact ⟨⟨s, .calling r prevHead⟩, [.fired r (s.evt r).cb (s.evt r).data], l,
                  by simp [TimerAction.step, expired], timers, fun _ _ => rfl,
                  .passes (by simp) (by simp [TimerNote.starts, TimerNote.stops]) rfl fun _ => rfl⟩
              · exact ⟨⟨s, .walking (s.evt r).next prevHead⟩, [], l,
                  by simp [TimerAction.step, expired], timers.nothing _⟩
  | ret t =>
      cases phase with
      | idle => exact enabled.elim
      | walking timerEvt prevHead => exact enabled.elim
      | calling r prevHead =>
          obtain ⟨s', l', returned, effect⟩ := timers.ret r t
          exact ⟨_, _, l', by simp only [TimerAction.step, returned]; rfl, effect⟩

theorem TimerList.step {sys sys' : TimerSys statics} {action : TimerAction statics}
    (timers : TimerList sys.timer l) (step : action.step sys = some (sys', notes))
    : ∃ l', Effect action sys.timer sys'.timer l l' notes := by
  obtain ⟨_, _, l', run, effect⟩ := timers.progress (TimerAction.step_enabled step)
  rw [step, Option.some.injEq, Prod.mk.injEq] at run
  obtain ⟨rfl, rfl⟩ := run
  exact ⟨l', effect⟩

-----------------------------------------------------------------------------------------
-- Runs
-----------------------------------------------------------------------------------------

/-- Runs from `ev_timer_init`, with the notes of all steps, oldest first. Every step is one that
`Ok` admits.
-/
inductive TimerRun (Ok : List (TimerNote statics) → TimerSys statics → TimerAction statics → Prop)
    : List (TimerNote statics) → TimerSys statics → Prop where
  | boot (events : Fin statics → EvTimerEvent statics) (prevSysTick remSysTick : UInt32)
      : TimerRun Ok [] { timer := evTimerInit events prevSysTick remSysTick, phase := .idle }
  | step {history notes : List (TimerNote statics)} {sys sys' : TimerSys statics}
      {action : TimerAction statics} (before : TimerRun Ok history sys)
      (ok : Ok history sys action) (step : action.step sys = some (sys', notes))
      : TimerRun Ok (history ++ notes) sys'

theorem timerList_init (events : Fin statics → EvTimerEvent statics) (prevSysTick remSysTick : UInt32)
    : TimerList (evTimerInit events prevSysTick remSysTick) [] := by
  refine ⟨rfl, ?_⟩
  simp [usedSlots, evTimerInit]

-----------------------------------------------------------------------------------------
-- The pool and the list
-----------------------------------------------------------------------------------------

/-- `ev_on_timer` and `ev_unon_timer` are for statically allocated events; slots of the pool are
handled through `ev_timer_taskPost` and `ev_timer_taskCancel`.
-/
def StaticCalls (_ : List (TimerNote statics)) (_ : TimerSys statics)
    : TimerAction statics → Prop
  | .call (.onTimer _ evt _) => ∀ i, evt ≠ some (.slot i)
  | .call (.unonTimer evt) => ∀ i, evt ≠ some (.slot i)
  | _ => True

/-- A slot is marked used exactly while it is in the list. -/
def SlotsListed (s : EvTimer statics) (l : List (TimerRef statics)) : Prop :=
  ∀ i, (s.evt (.slot i)).used = true ↔ .slot i ∈ l

theorem Moves.slotsListed {history : List (TimerNote statics)} {sys : TimerSys statics}
    {action : TimerAction statics} (moves : Moves action s s' l l' notes) (nodup : l.Nodup)
    (listed : SlotsListed s l) (static : StaticCalls history sys action)
    : SlotsListed s' l' := by
  intro j
  have before := listed j
  cases moves with
  | keeps list used => rw [list, used, before]
  | passes own quiet list used => rw [list, used, before]
  | posts i timeout free list used =>
      have absent : TimerRef.slot i ∉ l := fun inside => by
        simpa [free] using (listed i).mpr inside
      rw [list, used, if_neg absent]
      by_cases same : j = i
      · simp [same]
      · simp [same, before]
  | arms r clockTime timeout call list used =>
      subst call
      have other : TimerRef.slot j ≠ r := fun same => static j (by rw [same])
      rw [list, used, before]
      split <;> simp [other]
  | stops r noted list used =>
      rw [list, used, nodup.mem_erase_iff]
      by_cases same : r = .slot j
      · subst same
        by_cases inside : TimerRef.slot j ∈ l
        · simp [inside]
        · simp [inside, before]
      · simp [same, before, Ne.symm same]

theorem TimerRun.slotsListed {history : List (TimerNote statics)} {sys : TimerSys statics}
    (run : TimerRun StaticCalls history sys)
    : ∃ l, TimerList sys.timer l ∧ SlotsListed sys.timer l := by
  induction run with
  | boot events prevSysTick remSysTick =>
      exact ⟨[], timerList_init events prevSysTick remSysTick, fun i => by simp [evTimerInit]⟩
  | step _ ok step ih =>
      obtain ⟨l, timers, listed⟩ := ih
      obtain ⟨l', effect⟩ := timers.step step
      exact ⟨l', effect.timers, effect.moves.slotsListed timers.list.nodup listed ok⟩

/-- Between any two list operations the list is acyclic, the marks and the count of the pool agree
with it, every operation comes to its end, and a post fails only when every slot holds a timer
of the list.
-/
theorem evTimer_pool_listed {statics : Nat} {history : List (TimerNote statics)}
    {sys : TimerSys statics} (run : TimerRun StaticCalls history sys)
    : ∃ l, ListAt sys.timer sys.timer.timerHead l ∧ l.Nodup
      ∧ (∀ i, (sys.timer.evt (.slot i)).used = true ↔ .slot i ∈ l)
      ∧ sys.timer.usedNum.toNat = (usedSlots sys.timer).card
      ∧ sys.timer.usedNum ≤ gEvTimerMaxNum
      ∧ (∀ action : TimerAction statics, action.Enabled sys.phase
        → ∃ sys' notes, action.step sys = some (sys', notes))
      ∧ ∀ clockTime func arg tMs, ∃ handle s',
        evTimerTaskPost clockTime func arg tMs sys.timer = some (handle, s')
          ∧ (handle = none ↔ ∀ i, .slot i ∈ l) := by
  obtain ⟨l, timers, listed⟩ := run.slotsListed
  refine ⟨l, timers.list, timers.list.nodup, listed, timers.counted, ?_, ?_, ?_⟩
  · rw [UInt32.le_iff_toNat_le, timers.counted]
    have bound := Finset.card_le_univ (usedSlots sys.timer)
    rw [Fintype.card_fin] at bound
    exact bound
  · intro action enabled
    obtain ⟨sys', notes, -, step, -⟩ := timers.progress enabled
    exact ⟨sys', notes, step⟩
  · intro clockTime func arg tMs
    rcases timers.taskPost clockTime func arg tMs with ⟨post, full⟩ | ⟨i, s', post, free, -⟩
    · exact ⟨none, sys.timer, post, by simpa using fun i => (listed i).mp (full i)⟩
    · refine ⟨some (.slot i), s', post, by simp, fun all => ?_⟩
      simpa [free] using (listed i).mpr (all i)

/-- A timer of the pool and a statically allocated one. -/
theorem evTimer_pool_listed_two
    : ∃ (sys : TimerSys 1) (history : List (TimerNote 1)), TimerRun StaticCalls history sys
      ∧ history = [.posted (.slot 0) 5, .armed (.event 0)]
      ∧ ∃ l, ListAt sys.timer sys.timer.timerHead l ∧ l.Nodup := by
  have boot : TimerRun StaticCalls [] _ := TimerRun.boot (fun _ : Fin 1 => {}) 0 0
  have posted := boot.step (show StaticCalls _ _ (.call (.taskPost 0 1 2 5)) from trivial) rfl
  have armed := posted.step
    (show StaticCalls _ _ (.call (.onTimer 0 (some (.event 0)) 7)) from fun i => by simp) rfl
  obtain ⟨l, list, nodup, -⟩ := evTimer_pool_listed armed
  exact ⟨_, _, armed, rfl, l, list, nodup⟩

end TelinkSdk
