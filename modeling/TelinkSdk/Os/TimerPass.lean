import TelinkSdk.Os.TimerRun

/-! What a pass of `ev_timer_executeCB` may rely on while its callbacks cancel and post timers. The
pass holds a pointer to the timer whose callback is running, also when that timer has left the
list or its slot has a new owner.
-/

namespace TelinkSdk

open Links LinkView LinkStore

variable {statics : Nat} {s s' : EvTimer statics} {l l' : List (TimerRef statics)}
  {r x : TimerRef statics} {history notes : List (TimerNote statics)}
  {sys sys' : TimerSys statics} {action : TimerAction statics}

-----------------------------------------------------------------------------------------
-- Cancelled timers
-----------------------------------------------------------------------------------------

/-- The timer was cancelled, and not posted or armed since. -/
def cancelledBy (r : TimerRef statics) (history : List (TimerNote statics)) : Bool :=
  history.foldl (fun cancelled note => !note.starts r && (note.stops r || cancelled)) false

theorem cancelledBy_snoc (r : TimerRef statics) (history : List (TimerNote statics))
    (note : TimerNote statics)
    : cancelledBy r (history ++ [note])
      = (!note.starts r && (note.stops r || cancelledBy r history)) := by
  simp [cancelledBy]

/-- No callback has run while its timer was cancelled. -/
def OnlyLiveFired (history : List (TimerNote statics)) : Prop :=
  ∀ before r cb data after, history = before ++ .fired r cb data :: after
    → cancelledBy r before = false

theorem OnlyLiveFired.snoc {note : TimerNote statics} (live : OnlyLiveFired history)
    (fired : ∀ r cb data, note = .fired r cb data → cancelledBy r history = false)
    : OnlyLiveFired (history ++ [note]) := by
  intro before r cb data after split
  rcases List.eq_nil_or_concat after with rfl | ⟨rest, last, rfl⟩
  · obtain ⟨rfl, same⟩ := List.append_inj' split rfl
    exact fired r cb data (by simpa using same)
  · rw [List.concat_eq_append, ← List.cons_append, ← List.append_assoc] at split
    exact live before r cb data rest (List.append_inj' split rfl).1

/-- A cancelled timer is not in the list. -/
def CancelledOut (history : List (TimerNote statics)) (l : List (TimerRef statics)) : Prop :=
  ∀ r, cancelledBy r history = true → r ∉ l

theorem StopNote.stops_iff {note : TimerNote statics} (noted : StopNote action r note)
    (x : TimerRef statics)
    : note.stops x = true ↔ r = x := by
  cases noted with
  | cancel => simp [TimerNote.stops]
  | ret t negative returns => simp [TimerNote.stops, negative]

theorem Moves.cancelledOut (moves : Moves action s s' l l' notes) (nodup : l.Nodup)
    (out : CancelledOut history l)
    : CancelledOut (history ++ notes) l' := by
  intro x cancelled
  have before := out x
  cases moves with
  | keeps list used =>
      rw [List.append_nil] at cancelled
      rw [list]
      exact before cancelled
  | passes own quiet list used =>
      rw [cancelledBy_snoc, (quiet x).1, (quiet x).2] at cancelled
      rw [list]
      exact before (by simpa using cancelled)
  | posts i timeout free list used =>
      simp only [cancelledBy_snoc, TimerNote.starts, TimerNote.stops, Bool.and_eq_true,
        Bool.not_eq_true', beq_eq_false_iff_ne, ne_eq, Bool.false_or] at cancelled
      have absent := before cancelled.2
      rw [list]
      split <;> simp_all [Ne.symm cancelled.1]
  | arms r clockTime timeout call list used =>
      simp only [cancelledBy_snoc, TimerNote.starts, TimerNote.stops, Bool.and_eq_true,
        Bool.not_eq_true', beq_eq_false_iff_ne, ne_eq, Bool.false_or] at cancelled
      have absent := before cancelled.2
      rw [list]
      split <;> simp_all [Ne.symm cancelled.1]
  | stops r noted list used =>
      rw [list, nodup.mem_erase_iff]
      rintro ⟨other, inside⟩
      rw [cancelledBy_snoc, Bool.and_eq_true, Bool.or_eq_true, noted.stops_iff] at cancelled
      rcases cancelled.2 with same | earlier
      · exact other same.symm
      · exact before earlier inside

-----------------------------------------------------------------------------------------
-- Stale links
-----------------------------------------------------------------------------------------

/-- Links lead from `p` through timers outside the list to `x`, which is outside too. -/
inductive StaleFrom (s : EvTimer statics) (l : List (TimerRef statics))
    : Option (TimerRef statics) → TimerRef statics → Prop where
  | here {a : TimerRef statics} (out : a ∉ l) : StaleFrom s l (some a) a
  | next {a x : TimerRef statics} (out : a ∉ l) (later : StaleFrom s l (next s a) x)
      : StaleFrom s l (some a) x

/-- Links lead from `p` through timers outside the list into it, or end. -/
inductive Settles (s : EvTimer statics) (l : List (TimerRef statics))
    : Option (TimerRef statics) → Prop where
  | ended : Settles s l none
  | listed {a : TimerRef statics} (inside : a ∈ l) : Settles s l (some a)
  | stale {a : TimerRef statics} (out : a ∉ l) (later : Settles s l (next s a))
      : Settles s l (some a)

theorem StaleFrom.not_mem {p : Option (TimerRef statics)} (stale : StaleFrom s l p x)
    : ∃ a, p = some a ∧ a ∉ l := by
  cases stale with
  | here out => exact ⟨_, rfl, out⟩
  | next out later => exact ⟨_, rfl, out⟩

/-- No timer is stale where a walk is in the list. -/
theorem not_staleFrom {p : Option (TimerRef statics)} (inside : ∀ a, p = some a → a ∈ l)
    : ¬StaleFrom s l p x := by
  intro stale
  obtain ⟨a, here, out⟩ := stale.not_mem
  exact out (inside a here)

theorem TimerList.head_mem (timers : TimerList s l) (a : TimerRef statics)
    (head : s.timerHead = some a)
    : a ∈ l := by
  rw [ListAt.head timers.list] at head
  exact List.mem_of_head? head

/-- Stale timers are those that left the list, so that their links lead back to it. -/
theorem Settles.step {p : Option (TimerRef statics)} (settles : Settles s l p)
    (links : ∀ x ∉ l', next s' x = next s x)
    (gone : ∀ x ∈ l, x ∉ l' → ∀ b, next s x = some b → b ∈ l')
    : Settles s' l' p := by
  induction settles with
  | ended => exact .ended
  | @listed a inside =>
      by_cases stays : a ∈ l'
      · exact .listed stays
      · refine .stale stays ?_
        rw [links a stays]
        cases link : next s a with
        | none => exact .ended
        | some b => exact .listed (gone a inside stays b link)
  | @stale a out later ih =>
      by_cases back : a ∈ l'
      · exact .listed back
      · refine .stale back ?_
        rw [links a back]
        exact ih

/-- The links from a timer end, and so does the way back into the list. -/
theorem Settles.ends {p : Option (TimerRef statics)} (settles : Settles s l p)
    (timers : TimerList s l)
    : ∃ rest, ListAt s p rest ∧ ∀ x, StaleFrom s l p x → x ∈ rest := by
  induction settles with
  | ended => exact ⟨[], rfl, fun x stale => by cases stale⟩
  | @listed a inside =>
      obtain ⟨before, after, rfl⟩ := List.append_of_mem inside
      exact ⟨a :: after, timers.list.suffix before,
        fun x stale => absurd stale (not_staleFrom (by simp))⟩
  | @stale a out later ih =>
      obtain ⟨rest, list, every⟩ := ih
      refine ⟨a :: rest, ⟨rfl, list⟩, fun x stale => ?_⟩
      cases stale with
      | here _ => simp
      | next _ later => simp [every x later]

/-- The way from a timer never comes back to it. -/
theorem Settles.not_stale_self (settles : Settles s l (some r)) (timers : TimerList s l)
    (out : r ∉ l)
    : ¬StaleFrom s l (next s r) r := by
  intro back
  cases settles with
  | listed inside => exact out inside
  | stale _ later =>
      obtain ⟨rest, list, every⟩ := later.ends timers
      have whole : ListAt s (some r) (r :: rest) := ⟨rfl, list⟩
      exact (List.nodup_cons.mp whole.nodup).1 (every r back)

theorem StaleFrom.congr {p : Option (TimerRef statics)} (stale : StaleFrom s' l p x)
    (links : ∀ x, LinkView.next s' x = LinkView.next s x)
    : StaleFrom s l p x := by
  induction stale with
  | here out => exact .here out
  | @next a x out later ih =>
      rw [links] at ih
      exact .next out ih

/-- A timer that leaves the list points into it. -/
theorem Moves.gone (moves : Moves action s s' l l' notes) (timers : TimerList s l)
    (x : TimerRef statics) (inside : x ∈ l) (out : x ∉ l') (b : TimerRef statics)
    (link : next s x = some b)
    : b ∈ l' := by
  have nodup := timers.list.nodup
  cases moves with
  | keeps list used => exact absurd (list ▸ inside) out
  | passes own quiet list used => exact absurd (list ▸ inside) out
  | posts i timeout free list used =>
      rw [list] at out
      split at out <;> simp_all
  | arms r clockTime timeout call list used =>
      rw [list] at out
      split at out <;> simp_all
  | stops r noted list used =>
      obtain ⟨behind, other⟩ := timers.list.next_mem inside link
      rw [list, nodup.mem_erase_iff] at out ⊢
      have same : x = r := by
        by_contra differs
        exact out ⟨differs, inside⟩
      exact ⟨same ▸ other, behind⟩

-----------------------------------------------------------------------------------------
-- A cancelled timer does not fire
-----------------------------------------------------------------------------------------

/-- When a callback returns whose timer is out of the list, and the head is the one the pass
remembers, the pass goes on along the links of that timer. No timer that it meets before it is
in the list again has expired.
-/
def CleanReturn (_ : List (TimerNote statics)) (sys : TimerSys statics)
    : TimerAction statics → Prop
  | .ret _ =>
      ∀ timerEvt prevHead l, sys.phase = .calling timerEvt prevHead
        → sys.timer.timerHead = prevHead → ListAt sys.timer sys.timer.timerHead l → timerEvt ∉ l
        → ∀ x, StaleFrom sys.timer l (next sys.timer timerEvt) x
          → (sys.timer.evt x).timeout ≠ 0
  | _ => True

/-- Where the pass stands with respect to the list. -/
def PassAt (s : EvTimer statics) (l : List (TimerRef statics)) : TimerPhase statics → Prop
  | .idle => True
  | .walking p _ => ∀ x, StaleFrom s l p x → (s.evt x).timeout ≠ 0
  | .calling timerEvt _ => Settles s l (some timerEvt)

/-- The return of a callback whose timer is out of the list changes at most that timer. -/
theorem TimerList.returned_absent {t : Int32} (timers : TimerList s l) (out : r ∉ l)
    (returned : evTimerExecuteCB.returned r t s = some s')
    : (∀ x, next s' x = next s x) ∧ s'.timerHead = s.timerHead
      ∧ ∀ x ≠ r, (s'.evt x).timeout = (s.evt x).timeout := by
  by_cases negative : t < 0
  · rw [evTimerExecuteCB.returned, if_pos negative, evUnonTimer_absent timers.list out] at returned
    cases returned
    exact ⟨fun _ => rfl, rfl, fun _ _ => rfl⟩
  · obtain ⟨s₂, run, -, links, head, timeouts, -⟩ := timers.rearmed r negative
    rw [returned] at run
    cases run
    exact ⟨links, head, timeouts⟩

/-- A pass goes on in the list or past timers that have not expired. -/
theorem TimerList.passAt_ret {prevHead : Option (TimerRef statics)} {t : Int32}
    (timers : TimerList s l) (settles : Settles s l (some r))
    (clean : CleanReturn history ⟨s, .calling r prevHead⟩ (.ret t))
    (returned : evTimerExecuteCB.returned r t s = some s')
    (effect : Effect (.ret t) s s' l l' [.returned r t])
    : PassAt s' l' (evTimerExecuteCB.next r prevHead s') := by
  rw [evTimerExecuteCB.next]
  split
  · intro x stale
    exact absurd stale (not_staleFrom effect.timers.head_mem)
  · rename_i same
    rw [not_not] at same
    by_cases listed : r ∈ l
    · intro x stale
      refine absurd stale (not_staleFrom fun b link => ?_)
      by_cases stays : r ∈ l'
      · exact (effect.timers.list.next_mem stays link).1
      · rw [effect.links r stays] at link
        exact effect.moves.gone timers r listed stays b link
    · obtain ⟨links, head, timeouts⟩ := timers.returned_absent listed returned
      have unchanged : l' = l := by
        have list := effect.timers.list
        rw [head] at list
        exact list.unique (timers.list.congr fun x _ => links x)
      subst unchanged
      intro x stale
      have before := stale.congr links
      rw [links] at before
      have other : x ≠ r := by
        rintro rfl
        exact settles.not_stale_self timers listed before
      rw [timeouts x other]
      exact clean r prevHead l' rfl (head.symm.trans same.symm) timers.list listed x before

/-- The invariant of a run that returns cleanly. -/
structure LivePass (history : List (TimerNote statics)) (sys : TimerSys statics)
    (l : List (TimerRef statics)) : Prop where
  timers : TimerList sys.timer l
  out : CancelledOut history l
  live : OnlyLiveFired history
  pass : PassAt sys.timer l sys.phase

/-- Calls run no callback. -/
theorem Moves.live {c : TimerCall statics} (moves : Moves (.call c) s s' l l' notes)
    (live : OnlyLiveFired history)
    : OnlyLiveFired (history ++ notes) := by
  cases moves with
  | keeps list used =>
      rw [List.append_nil]
      exact live
  | passes own quiet list used => exact absurd rfl (own c)
  | posts i timeout free list used => exact live.snoc (by simp)
  | arms r clockTime timeout call list used => exact live.snoc (by simp)
  | stops r noted list used =>
      cases noted with
      | cancel => exact live.snoc (by simp)
      | ret t negative returns => exact live.snoc (by simp)

theorem LivePass.call {c : TimerCall statics} (pass : LivePass history sys l)
    (step : (TimerAction.call c).step sys = some (sys', notes))
    : ∃ l', LivePass (history ++ notes) sys' l' := by
  obtain ⟨timers, out, live, at_phase⟩ := pass
  obtain ⟨l', effect⟩ := timers.step step
  refine ⟨l', effect.timers, effect.moves.cancelledOut timers.list.nodup out,
    effect.moves.live live, ?_⟩
  rcases sys with ⟨s, phase⟩
  cases phase with
  | walking timerEvt prevHead => exact (TimerAction.step_enabled step).elim
  | idle =>
      obtain ⟨_, -, result⟩ := Option.map_eq_some_iff.mp step
      cases result
      exact trivial
  | calling timerEvt prevHead =>
      obtain ⟨_, -, result⟩ := Option.map_eq_some_iff.mp step
      cases result
      exact Settles.step at_phase effect.links (effect.moves.gone timers)

theorem LivePass.process {sTimerClock1us currSysTick curSysTick : UInt32}
    (pass : LivePass history sys l)
    (step : (TimerAction.process sTimerClock1us currSysTick curSysTick).step sys
      = some (sys', notes))
    : ∃ l', LivePass (history ++ notes) sys' l' := by
  obtain ⟨timers, out, live, -⟩ := pass
  obtain ⟨l', effect⟩ := timers.step step
  have cancelled := effect.moves.cancelledOut timers.list.nodup out
  rcases sys with ⟨s, phase⟩
  cases phase with
  | walking timerEvt prevHead => exact (TimerAction.step_enabled step).elim
  | calling timerEvt prevHead => exact (TimerAction.step_enabled step).elim
  | idle =>
      obtain ⟨⟨s', expired⟩, -, result⟩ := Option.map_eq_some_iff.mp step
      cases expired with
      | false =>
          cases result
          rw [List.append_nil] at cancelled ⊢
          exact ⟨l', effect.timers, cancelled, live, trivial⟩
      | true =>
          cases result
          exact ⟨l', effect.timers, cancelled, live.snoc (by simp),
            fun x stale => absurd stale (not_staleFrom effect.timers.head_mem)⟩

theorem LivePass.walk (pass : LivePass history sys l)
    (step : TimerAction.walk.step sys = some (sys', notes))
    : ∃ l', LivePass (history ++ notes) sys' l' := by
  obtain ⟨timers, out, live, at_phase⟩ := pass
  rcases sys with ⟨s, phase⟩
  cases phase with
  | idle => exact (TimerAction.step_enabled step).elim
  | calling timerEvt prevHead => exact (TimerAction.step_enabled step).elim
  | walking timerEvt prevHead =>
      cases timerEvt with
      | none =>
          obtain ⟨l', effect⟩ := timers.step step
          have cancelled := effect.moves.cancelledOut timers.list.nodup out
          obtain ⟨s', -, result⟩ := Option.map_eq_some_iff.mp step
          cases result
          exact ⟨l', effect.timers, cancelled, live.snoc (by simp), trivial⟩
      | some r =>
          by_cases expired : (s.evt r).timeout = 0
          · -- an expired timer here is in the list, since those outside it have not expired
            have inside : r ∈ l := by
              by_contra absent
              exact at_phase r (.here absent) expired
            have result : TimerAction.walk.step ⟨s, .walking (some r) prevHead⟩
                = some (⟨s, .calling r prevHead⟩, [.fired r (s.evt r).cb (s.evt r).data]) := by
              simp [TimerAction.step, expired]
            rw [result] at step
            cases step
            refine ⟨l, timers, fun x cancelled => ?_, live.snoc ?_, .listed inside⟩
            · exact out x (by simpa [cancelledBy_snoc, TimerNote.starts, TimerNote.stops]
                using cancelled)
            · rintro _ _ _ ⟨⟩
              by_contra cancelled
              exact out r (by simpa using cancelled) inside
          · have result : TimerAction.walk.step ⟨s, .walking (some r) prevHead⟩
                = some (⟨s, .walking (s.evt r).next prevHead⟩, []) := by
              simp [TimerAction.step, expired]
            rw [result] at step
            cases step
            rw [List.append_nil]
            refine ⟨l, timers, out, live, fun x stale => ?_⟩
            by_cases inside : r ∈ l
            · exact absurd stale
                (not_staleFrom fun b link => (timers.list.next_mem inside link).1)
            · exact at_phase x (.next inside stale)

theorem LivePass.ret {t : Int32} (pass : LivePass history sys l)
    (clean : CleanReturn history sys (.ret t))
    (step : (TimerAction.ret t).step sys = some (sys', notes))
    : ∃ l', LivePass (history ++ notes) sys' l' := by
  obtain ⟨timers, out, live, at_phase⟩ := pass
  rcases sys with ⟨s, phase⟩
  cases phase with
  | idle => exact (TimerAction.step_enabled step).elim
  | walking timerEvt prevHead => exact (TimerAction.step_enabled step).elim
  | calling r prevHead =>
      obtain ⟨s', l', returned, effect⟩ := timers.ret r t
      have cancelled := effect.moves.cancelledOut timers.list.nodup out
      obtain ⟨_, run, result⟩ := Option.map_eq_some_iff.mp step
      rw [returned] at run
      cases run
      cases result
      exact ⟨l', effect.timers, cancelled, live.snoc (by simp),
        timers.passAt_ret at_phase clean returned effect⟩

theorem LivePass.step (pass : LivePass history sys l) (clean : CleanReturn history sys action)
    (step : action.step sys = some (sys', notes))
    : ∃ l', LivePass (history ++ notes) sys' l' := by
  cases action with
  | call c => exact pass.call step
  | process sTimerClock1us currSysTick curSysTick => exact pass.process step
  | walk => exact pass.walk step
  | ret t => exact pass.ret clean step

theorem TimerRun.livePass (run : TimerRun CleanReturn history sys)
    : ∃ l, LivePass history sys l := by
  induction run with
  | boot events prevSysTick remSysTick =>
      exact ⟨[], timerList_init events prevSysTick remSysTick, by simp [CancelledOut],
        by simp [OnlyLiveFired], trivial⟩
  | step _ ok step ih =>
      obtain ⟨l, pass⟩ := ih
      exact pass.step ok step

/-- In a run whose callbacks leave no expired timer on their way back to the list, no callback of
a cancelled timer runs before that timer is posted or armed again.
-/
theorem evTimer_cancelled_silent {statics : Nat} {history : List (TimerNote statics)}
    {sys : TimerSys statics} (run : TimerRun CleanReturn history sys)
    : ∀ before r cb data after, history = before ++ .fired r cb data :: after
      → cancelledBy r before = false := by
  obtain ⟨l, pass⟩ := run.livePass
  exact pass.live

/-- The notes of a list of actions, and where they lead. -/
def TimerSys.exec : List (TimerAction statics) → List (TimerNote statics) → TimerSys statics
    → Option (List (TimerNote statics) × TimerSys statics)
  | [], history, sys => some (history, sys)
  | action :: rest, history, sys =>
      (action.step sys).bind fun (sys, notes) => TimerSys.exec rest (history ++ notes) sys

theorem TimerRun.exec
    {Ok : List (TimerNote statics) → TimerSys statics → TimerAction statics → Prop}
    {actions : List (TimerAction statics)} {history history' : List (TimerNote statics)}
    {sys sys' : TimerSys statics} (run : TimerRun Ok history sys)
    (easy : ∀ action ∈ actions, ∀ history sys, Ok history sys action)
    (result : sys.exec actions history = some (history', sys'))
    : TimerRun Ok history' sys' := by
  induction actions generalizing history sys with
  | nil =>
      cases result
      exact run
  | cons action rest ih =>
      obtain ⟨⟨later, notes⟩, step, result⟩ := Option.bind_eq_some_iff.mp result
      exact ih (run.step (easy action (by simp) history sys) step)
        (fun action inside => easy action (by simp [inside])) result

theorem TimerSys.exec_append (first second : List (TimerAction statics))
    (history : List (TimerNote statics)) (sys : TimerSys statics)
    : sys.exec (first ++ second) history
      = (sys.exec first history).bind fun (history, sys) => sys.exec second history := by
  induction first generalizing history sys with
  | nil => rfl
  | cons action rest ih =>
      simp only [List.cons_append, TimerSys.exec, Option.bind_assoc, ih]

def timersBooted : TimerSys 0 := { timer := evTimerInit (fun i => i.elim0) 0 0, phase := .idle }

theorem timersBooted_run
    (Ok : List (TimerNote 0) → TimerSys 0 → TimerAction 0 → Prop)
    : TimerRun Ok [] timersBooted :=
  .boot (fun i => i.elim0) 0 0

/-- Slot 1 expires between slot 2, the head, and slot 0, which have time left. Its callback cancels
its own timer and slot 0.
-/
def cancelsNext : List (TimerAction 0) :=
  [
    .call (.taskPost 0 1 0 50),
    .call (.taskPost 0 2 0 1),
    .call (.taskPost 0 3 0 100),
    .process 16 16000 16000,
    .walk,
    .walk,
    .call (.taskCancel (some (.slot 1))),
    .call (.taskCancel (some (.slot 0)))
  ]

/-- The pass goes on past slot 0, which is then posted again and expires. -/
def firesAgain : List (TimerAction 0) :=
  cancelsNext
    ++ .ret 0 :: [.walk, .walk, .call (.taskPost 16000 7 0 1), .process 16 32000 32000, .walk]

/-- A cancelled timer is met by the pass and fires when it has been posted again. -/
theorem evTimer_cancelled_silent_reposted
    : ∃ (before : List (TimerNote 0)) (sys : TimerSys 0),
      TimerRun CleanReturn (before ++ [.fired (.slot 0) 7 0]) sys
        ∧ .cancelled (.slot 0) ∈ before ∧ cancelledBy (.slot 0) before = false := by
  obtain ⟨⟨history₁, sys₁⟩, result₁⟩ :=
    Option.isSome_iff_exists.mp (by decide +kernel : (timersBooted.exec cancelsNext []).isSome)
  obtain ⟨⟨history, sys⟩, result⟩ :=
    Option.isSome_iff_exists.mp (by decide +kernel : (timersBooted.exec firesAgain []).isSome)
  have calling : (timersBooted.exec cancelsNext []).map (fun after => after.2.phase)
      = some (.calling (.slot 1) (some (.slot 2))) := by
    decide +kernel
  have stale : (timersBooted.exec cancelsNext []).map (fun after =>
        (next after.2.timer (.slot 1), next after.2.timer (.slot 0),
          (after.2.timer.evt (.slot 0)).timeout))
      = some (some (.slot 0), none, 49) := by
    decide +kernel
  have notes : (timersBooted.exec firesAgain []).map Prod.fst
      = some ([.posted (.slot 0) 50, .posted (.slot 1) 1, .posted (.slot 2) 100, .passBegan,
          .fired (.slot 1) 2 0, .cancelled (.slot 1), .cancelled (.slot 0), .returned (.slot 1) 0,
          .passEnded, .posted (.slot 0) 1, .passBegan] ++ [.fired (.slot 0) 7 0]) := by
    decide +kernel
  rw [result₁, Option.map_some, Option.some.injEq] at calling
  rw [result₁, Option.map_some, Option.some.injEq, Prod.mk.injEq, Prod.mk.injEq] at stale
  rw [result, Option.map_some, Option.some.injEq] at notes
  obtain ⟨first, second, left⟩ := stale
  have run₁ : TimerRun CleanReturn history₁ sys₁ :=
    (timersBooted_run CleanReturn).exec (by simp [cancelsNext, CleanReturn]) result₁
  have clean : CleanReturn history₁ sys₁ (.ret 0) := by
    intro timerEvt prevHead l phase _ _ _ x met
    rw [calling] at phase
    cases phase
    rw [first] at met
    cases met with
    | here out =>
        rw [left]
        decide
    | next out later =>
        rw [second] at later
        cases later
  rw [firesAgain, TimerSys.exec_append, result₁, Option.bind_some] at result
  obtain ⟨⟨sys₂, notes₂⟩, step, rest⟩ := Option.bind_eq_some_iff.mp result
  have run := (run₁.step clean step).exec (by simp [CleanReturn]) rest
  have same : history = _ := notes
  subst same
  exact ⟨_, sys, run, by simp, evTimer_cancelled_silent run _ _ _ _ _ rfl⟩

/-- Slots 0 and 1 expire, slot 2 at the head of the list does not. The callback of slot 1 cancels
its own timer and slot 0.
-/
def cancelBoth : List (TimerAction 0) :=
  [
    .call (.taskPost 0 1 0 1),
    .call (.taskPost 0 2 0 1),
    .call (.taskPost 0 3 0 100),
    .process 16 16000 16000,
    .walk,
    .walk,
    .call (.taskCancel (some (.slot 1))),
    .call (.taskCancel (some (.slot 0))),
    .ret 0,
    .walk
  ]

/-- The pass follows the link of the cancelled slot 1 to the cancelled slot 0. -/
theorem cancelled_timer_fires
    : ∃ (history : List (TimerNote 0)) (sys : TimerSys 0), TimerRun (fun _ _ _ => True) history sys
      ∧ ∃ before r cb data after, history = before ++ .fired r cb data :: after
        ∧ cancelledBy r before = true := by
  obtain ⟨⟨history, sys⟩, result⟩ :=
    Option.isSome_iff_exists.mp (by decide +kernel : (timersBooted.exec cancelBoth []).isSome)
  have last : (timersBooted.exec cancelBoth []).map (fun (notes, _) =>
      (notes.getLast?, cancelledBy (.slot 0) notes.dropLast))
        = some (some (.fired (.slot 0) 1 0), true) := by
    decide +kernel
  rw [result, Option.map_some, Option.some.injEq, Prod.mk.injEq] at last
  exact ⟨history, sys, (timersBooted_run _).exec (fun _ _ _ _ => trivial) result,
    history.dropLast, .slot 0, 1, 0, [], (List.dropLast_append_getLast? _ last.1).symm, last.2⟩

-----------------------------------------------------------------------------------------
-- A posted timer stays
-----------------------------------------------------------------------------------------

/-- Whether a timer counts as posted in this pass after a note, if it did before as `posted` says. -/
def TimerNote.postedAfter (r : TimerRef statics) (posted : Bool) : TimerNote statics → Bool
  | .passBegan => false
  | .posted x timeout => posted || x == r && 0 < timeout
  | .cancelled x => posted && x != r
  | _ => posted

/-- `ev_timer_taskPost` returned the timer since the pass began, with a timeout other than 0, and
no call has cancelled it since.
-/
def postedInPass (r : TimerRef statics) (history : List (TimerNote statics)) : Bool :=
  history.foldl (TimerNote.postedAfter r) false

theorem postedInPass_snoc (r : TimerRef statics) (history : List (TimerNote statics))
    (note : TimerNote statics)
    : postedInPass r (history ++ [note]) = note.postedAfter r (postedInPass r history) := by
  simp [postedInPass]

/-- A callback that returns a negative value leaves a slot alone that was posted again in this
pass.
-/
def OwnReturn (history : List (TimerNote statics)) (sys : TimerSys statics)
    : TimerAction statics → Prop
  | .ret t =>
      ∀ timerEvt prevHead, sys.phase = .calling timerEvt prevHead → t < 0
        → postedInPass timerEvt history = false
  | _ => True

/-- The timers posted in this pass are in the list, in used slots. -/
def PostedStay (history : List (TimerNote statics)) (s : EvTimer statics)
    (l : List (TimerRef statics)) : Prop :=
  ∀ r, postedInPass r history = true → ∃ i, r = .slot i ∧ .slot i ∈ l ∧ (s.evt (.slot i)).used = true

/-- The timer of the callback that returns. -/
theorem ret_phase {t : Int32} (step : (TimerAction.ret t).step sys = some (sys', notes))
    : ∃ timerEvt prevHead, sys.phase = .calling timerEvt prevHead
      ∧ notes = [.returned timerEvt t] := by
  rcases sys with ⟨s, phase⟩
  cases phase with
  | idle => exact (TimerAction.step_enabled step).elim
  | walking timerEvt prevHead => exact (TimerAction.step_enabled step).elim
  | calling timerEvt prevHead =>
      obtain ⟨_, -, result⟩ := Option.map_eq_some_iff.mp step
      cases result
      exact ⟨timerEvt, prevHead, rfl, rfl⟩

theorem PostedStay.step (stay : PostedStay history sys.timer l) (timers : TimerList sys.timer l)
    (own : OwnReturn history sys action) (step : action.step sys = some (sys', notes))
    (moves : Moves action sys.timer sys'.timer l l' notes)
    : PostedStay (history ++ notes) sys'.timer l' := by
  intro x posted
  cases moves with
  | keeps list used =>
      rw [List.append_nil] at posted
      obtain ⟨i, rfl, inside, mark⟩ := stay x posted
      exact ⟨i, rfl, list ▸ inside, (used i).trans mark⟩
  | @passes note outside quiet list used =>
      have before : postedInPass x history = true := by
        rw [postedInPass_snoc] at posted
        cases note with
        | posted y timeout => simpa [TimerNote.starts] using (quiet y).1
        | cancelled y => simpa [TimerNote.stops] using (quiet y).2
        | passBegan => simp [TimerNote.postedAfter] at posted
        | armed y => exact posted
        | fired y cb data => exact posted
        | returned y t => exact posted
        | passEnded => exact posted
      obtain ⟨i, rfl, inside, mark⟩ := stay x before
      exact ⟨i, rfl, list ▸ inside, (used i).trans mark⟩
  | posts i timeout free list used =>
      by_cases same : x = .slot i
      · refine ⟨i, same, ?_, by simp [used]⟩
        rw [list]
        split <;> simp_all
      · have before : postedInPass x history = true := by
          simpa [postedInPass_snoc, TimerNote.postedAfter, Ne.symm same] using posted
        obtain ⟨j, rfl, inside, mark⟩ := stay x before
        refine ⟨j, rfl, ?_, ?_⟩
        · rw [list]
          split <;> simp [inside]
        · rw [used, if_neg (by simpa using same)]
          exact mark
  | arms r clockTime timeout call list used =>
      rw [postedInPass_snoc] at posted
      obtain ⟨i, rfl, inside, mark⟩ := stay x posted
      refine ⟨i, rfl, ?_, (used i).trans mark⟩
      rw [list]
      split <;> simp [inside]
  | stops r noted list used =>
      have before : postedInPass x history = true ∧ x ≠ r := by
        rw [postedInPass_snoc] at posted
        cases noted with
        | cancel =>
            rw [TimerNote.postedAfter, Bool.and_eq_true, bne_iff_ne] at posted
            exact ⟨posted.1, posted.2.symm⟩
        | ret t negative returns =>
            subst returns
            obtain ⟨timerEvt, prevHead, phase, same⟩ := ret_phase step
            have free := own timerEvt prevHead phase negative
            refine ⟨posted, ?_⟩
            rintro rfl
            simp only [List.cons.injEq, TimerNote.returned.injEq] at same
            rw [← same.1.1] at free
            simp [TimerNote.postedAfter, free] at posted
      obtain ⟨i, rfl, inside, mark⟩ := stay x before.1
      refine ⟨i, rfl, ?_, ?_⟩
      · rw [list, timers.list.nodup.mem_erase_iff]
        exact ⟨before.2, inside⟩
      · rw [used, if_neg fun both => before.2 both.2.symm]
        exact mark

/-- In a run whose callbacks return a negative value only while their own slot has no new timer of
the pass, every timer that a callback posted and no call cancelled is in the list, in a used slot;
so also when the pass ends.
-/
theorem evTimer_posted_stays {statics : Nat} {history : List (TimerNote statics)}
    {sys : TimerSys statics} (run : TimerRun OwnReturn history sys)
    : ∃ l, ListAt sys.timer sys.timer.timerHead l
      ∧ ∀ r, postedInPass r history = true → r ∈ l ∧ (sys.timer.evt r).used = true := by
  have invariant : ∃ l, TimerList sys.timer l ∧ PostedStay history sys.timer l := by
    induction run with
    | boot events prevSysTick remSysTick =>
        exact ⟨[], timerList_init events prevSysTick remSysTick, by simp [PostedStay, postedInPass]⟩
    | step _ ok step ih =>
        obtain ⟨l, timers, stay⟩ := ih
        obtain ⟨l', effect⟩ := timers.step step
        exact ⟨l', effect.timers, stay.step timers ok step effect.moves⟩
  obtain ⟨l, timers, stay⟩ := invariant
  refine ⟨l, timers.list, fun r posted => ?_⟩
  obtain ⟨i, rfl, inside, mark⟩ := stay r posted
  exact ⟨inside, mark⟩

/-- A timer of 1 ms that has expired for the first time. -/
def firstExpiry : List (TimerAction 0) :=
  [.call (.taskPost 0 1 0 1), .process 16 16000 16000, .walk]

/-- A callback posts a timer of 5 ms and ends its own. -/
def replaceTimer : List (TimerAction 0) := firstExpiry ++ [.call (.taskPost 16000 2 0 5)]

/-- The new timer has a slot of its own. -/
theorem evTimer_posted_stays_replaced
    : ∃ (history : List (TimerNote 0)) (sys : TimerSys 0), TimerRun OwnReturn history sys
      ∧ sys.phase = .idle ∧ postedInPass (.slot 1) history = true
      ∧ (sys.timer.evt (.slot 1)).used = true := by
  obtain ⟨⟨history₁, sys₁⟩, result₁⟩ :=
    Option.isSome_iff_exists.mp (by decide +kernel : (timersBooted.exec replaceTimer []).isSome)
  obtain ⟨⟨history, sys⟩, result⟩ := Option.isSome_iff_exists.mp
    (by decide +kernel : (timersBooted.exec (replaceTimer ++ .ret (-1) :: [.walk, .walk]) []).isSome)
  have firing : (timersBooted.exec replaceTimer []).map (fun (history, sys) =>
      (sys.phase, postedInPass (.slot 0) history))
        = some (.calling (.slot 0) (some (.slot 0)), false) := by
    decide +kernel
  have ended : (timersBooted.exec (replaceTimer ++ .ret (-1) :: [.walk, .walk]) []).map
      (fun (history, sys) => (sys.phase, postedInPass (.slot 1) history)) = some (.idle, true) := by
    decide +kernel
  rw [result₁, Option.map_some, Option.some.injEq, Prod.mk.injEq] at firing
  rw [result, Option.map_some, Option.some.injEq, Prod.mk.injEq] at ended
  have run₁ : TimerRun OwnReturn history₁ sys₁ :=
    (timersBooted_run OwnReturn).exec (by simp [replaceTimer, firstExpiry, OwnReturn]) result₁
  have own : OwnReturn history₁ sys₁ (.ret (-1)) := by
    intro timerEvt prevHead phase _
    rw [firing.1] at phase
    cases phase
    exact firing.2
  rw [TimerSys.exec_append, result₁, Option.bind_some] at result
  obtain ⟨⟨sys₂, notes₂⟩, step, rest⟩ := Option.bind_eq_some_iff.mp result
  have run := (run₁.step own step).exec (by simp [OwnReturn]) rest
  obtain ⟨l, -, stays⟩ := evTimer_posted_stays run
  exact ⟨history, sys, run, ended.1, ended.2, (stays _ ended.2).2⟩

/-- A callback cancels its own timer, posts a new one and returns a negative value. -/
def replaceOwn : List (TimerAction 0) :=
  firstExpiry
    ++ [.call (.taskCancel (some (.slot 0))), .call (.taskPost 16000 2 0 5), .ret (-1), .walk]

/-- The new timer gets the slot of the old one, and the return takes it out. -/
theorem replacement_timer_lost
    : ∃ (history : List (TimerNote 0)) (sys : TimerSys 0), TimerRun (fun _ _ _ => True) history sys
      ∧ history.getLast? = some .passEnded ∧ postedInPass (.slot 0) history = true
      ∧ ListAt sys.timer sys.timer.timerHead [] ∧ (sys.timer.evt (.slot 0)).used = false := by
  obtain ⟨⟨history, sys⟩, result⟩ :=
    Option.isSome_iff_exists.mp (by decide +kernel : (timersBooted.exec replaceOwn []).isSome)
  have lost : (timersBooted.exec replaceOwn []).map (fun (history, sys) =>
      (history.getLast?, postedInPass (.slot 0) history, sys.timer.timerHead,
        (sys.timer.evt (.slot 0)).used))
      = some (some .passEnded, true, none, false) := by
    decide +kernel
  rw [result, Option.map_some, Option.some.injEq] at lost
  simp only [Prod.mk.injEq] at lost
  exact ⟨history, sys, (timersBooted_run _).exec (fun _ _ _ _ => trivial) result, lost.1, lost.2.1,
    lost.2.2.1, lost.2.2.2⟩

end TelinkSdk
