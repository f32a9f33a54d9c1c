import Mathlib.Algebra.GroupWithZero.Nat
import TelinkSdk.Os.TimerRun

/-! What the calls of `ev_timer.c` do to the data of the timers, to the tick counters and to
`timer_nearest`.
-/

namespace TelinkSdk

open Links LinkView LinkStore

variable {statics : Nat} {s s' : EvTimer statics} {l : List (TimerRef statics)}
  {r x : TimerRef statics} {f : EvTimerEvent statics → EvTimerEvent statics}

-----------------------------------------------------------------------------------------
-- Data
-----------------------------------------------------------------------------------------

/-- What a timer holds apart from its link. -/
def EvTimer.data (s : EvTimer statics) (r : TimerRef statics) : EvTimerEvent statics :=
  (s.evt r).unlinked

/-- The tick counters of the module. -/
structure SameTicks (s s' : EvTimer statics) : Prop where
  prevSysTick : s'.prevSysTick = s.prevSysTick
  remSysTick : s'.remSysTick = s.remSysTick

theorem SameTicks.trans {s'' : EvTimer statics} (first : SameTicks s s')
    (second : SameTicks s' s'')
    : SameTicks s s'' :=
  ⟨second.prevSysTick.trans first.prevSysTick, second.remSysTick.trans first.remSysTick⟩

/-- A change that is not about the link changes the data the same way. -/
theorem EvTimer.modify_data (s : EvTimer statics) (r : TimerRef statics)
    (apart : ∀ e, (f e).unlinked = f e.unlinked)
    : (s.modify r f).data = Function.update s.data r (f (s.data r)) := by
  funext x
  by_cases same : x = r
  · subst same
    simp [EvTimer.data, apart]
  · simp [EvTimer.data, same]

theorem SameTimers.data_eq (same : SameTimers s s') : s'.data = s.data := funext same.data

-----------------------------------------------------------------------------------------
-- The nearest timer
-----------------------------------------------------------------------------------------

/-- `timer_nearest` points to no timer of the list that another one undercuts, and to NULL only if
the list is empty.
-/
structure Nearest (s : EvTimer statics) (l : List (TimerRef statics)) : Prop where
  none_iff : s.timerNearest = none ↔ l = []
  least : ∀ n, s.timerNearest = some n → n ∈ l ∧ ∀ x ∈ l, (s.data n).timeout ≤ (s.data x).timeout

/-- The loop keeps the least timer it has met, by induction on the rest of the list. -/
theorem evTimerNearestUpdate.loop_least {p : Option (TimerRef statics)} {fuel : Nat}
    {nearest n : TimerRef statics} (list : ListAt s p l)
    (run : evTimerNearestUpdate.loop s fuel p nearest = some n)
    : n ∈ nearest :: l ∧ ∀ x ∈ nearest :: l, (s.evt n).timeout ≤ (s.evt x).timeout := by
  induction l generalizing p fuel nearest with
  | nil =>
      have ended : p = none := list
      subst ended
      have same : nearest = n := by cases fuel <;> exact Option.some.inj run
      subst same
      simp
  | cons a rest ih =>
      obtain ⟨rfl, behind⟩ := list
      cases fuel with
      | zero => contradiction
      | succ fuel =>
          obtain ⟨member, least⟩ := ih behind run
          have kept : (s.evt n).timeout ≤ (s.evt a).timeout
              ∧ (s.evt n).timeout ≤ (s.evt nearest).timeout := by
            have first := least _ List.mem_cons_self
            split at first
            case isTrue less => exact ⟨first, UInt32.le_trans first (UInt32.le_of_lt less)⟩
            case isFalse notLess => exact ⟨UInt32.le_trans first (UInt32.not_lt.mp notLess), first⟩
          refine ⟨?_, ?_⟩
          · rcases List.mem_cons.mp member with same | later
            · split at same <;> simp [same]
            · simp [later]
          · intro x inside
            simp only [List.mem_cons] at inside
            rcases inside with rfl | rfl | later
            · exact kept.2
            · exact kept.1
            · exact least x (List.mem_cons_of_mem _ later)

theorem evTimerNearestUpdate_data (list : ListAt s s.timerHead l)
    (run : evTimerNearestUpdate s = some s')
    : s'.data = s.data ∧ SameTicks s s' ∧ Nearest s' l := by
  cases head : s.timerHead with
  | none =>
      rw [evTimerNearestUpdate, head] at run
      cases run
      have empty : l = [] := by
        have first := ListAt.head list
        rw [head] at first
        exact List.head?_eq_none_iff.mp first.symm
      exact ⟨rfl, ⟨rfl, rfl⟩, by simp [empty], by simp⟩
  | some first =>
      rw [evTimerNearestUpdate, head] at run
      obtain ⟨n, loop, rfl⟩ := Option.map_eq_some_iff.mp run
      rw [head] at list
      obtain ⟨member, least⟩ := evTimerNearestUpdate.loop_least list loop
      have inside : first ∈ l := List.mem_of_head? (ListAt.head list).symm
      have smaller : n ∈ l := by
        rcases List.mem_cons.mp member with same | later
        · exact same ▸ inside
        · exact later
      refine ⟨rfl, ⟨rfl, rfl⟩, ⟨?_, ?_⟩⟩
      · simp [List.ne_nil_of_mem inside]
      · intro n' same
        cases same
        exact ⟨smaller, fun x listed => least x (List.mem_cons_of_mem _ listed)⟩

-----------------------------------------------------------------------------------------
-- Calls
-----------------------------------------------------------------------------------------

/-- A timer after `ev_on_timer`; one that is registered keeps its tick. -/
def evOnTimer.armed (listed : Prop) [Decidable listed] (clockTime timeout : UInt32)
    (e : EvTimerEvent statics) : EvTimerEvent statics :=
  { e with
    period := timeout
    timeout
    curSysTick := if listed ∨ e.isRunning then e.curSysTick else clockTime }

theorem TimerList.onTimer_data {clockTime timeout : UInt32} (timers : TimerList s l)
    (run : evOnTimer clockTime (some r) timeout s = some s')
    : s'.data = Function.update s.data r (evOnTimer.armed (r ∈ l) clockTime timeout (s.data r))
      ∧ SameTicks s s' ∧ Nearest s' (if r ∈ l then l else r :: l) := by
  let armed := s.modify r ({ · with period := timeout })
  have list : TimerList armed l := timers.modify rfl rfl
  have armedData : armed.data = Function.update s.data r { s.data r with period := timeout } :=
    EvTimer.modify_data s r fun _ => rfl
  simp only [evOnTimer] at run
  rw [listExist_eq list.list] at run
  by_cases inside : r ∈ l
  · rw [if_pos inside] at run ⊢
    let again := armed.modify r fun e => { e with timeout := e.period }
    have later : TimerList again l := list.modify rfl rfl
    have againData : again.data
        = Function.update armed.data r { armed.data r with timeout := (armed.data r).period } :=
      EvTimer.modify_data armed r fun _ => rfl
    obtain ⟨data, ticks, nearest⟩ := evTimerNearestUpdate_data (s := again) later.list run
    refine ⟨?_, ⟨ticks.prevSysTick, ticks.remSysTick⟩, nearest⟩
    rw [data, againData, armedData, Function.update_idem]
    simp [evOnTimer.armed, inside]
  · rw [if_neg inside] at run ⊢
    let started := armed.modify r fun e =>
      if e.isRunning then e else { e with curSysTick := clockTime }
    let set := started.modify r fun e => { e with timeout := e.period }
    have startedList : TimerList started l := list.modify (by split <;> rfl) (by split <;> rfl)
    have setList : TimerList set l := startedList.modify rfl rfl
    have added : TimerList (listAdd set r) (r :: l) :=
      setList.congr ((setList.list.push inside).congr fun _ _ => rfl)
        (fun i => (sameTimers_setNext set r set.timerHead).used _) rfl
    have startedData : started.data = Function.update armed.data r
        (if (armed.data r).isRunning then armed.data r
          else { armed.data r with curSysTick := clockTime }) :=
      EvTimer.modify_data armed r fun e => by
        cases running : e.isRunning <;> simp [EvTimerEvent.unlinked, running]
    have setData : set.data
        = Function.update started.data r { started.data r with timeout := (started.data r).period } :=
      EvTimer.modify_data started r fun _ => rfl
    have addedData : (listAdd set r).data = set.data :=
      (sameTimers_setNext set r set.timerHead).data_eq
    obtain ⟨data, ticks, nearest⟩ := evTimerNearestUpdate_data (s := listAdd set r) added.list run
    refine ⟨?_, ⟨ticks.prevSysTick, ticks.remSysTick⟩, nearest⟩
    rw [data, addedData, setData, startedData, armedData, Function.update_idem,
      Function.update_idem]
    congr 1
    cases running : (s.data r).isRunning <;> simp [evOnTimer.armed, inside, running]

/-- A timer after `ev_timer_poolDelUpdate`. -/
def evUnonTimer.stopped (r : TimerRef statics) (e : EvTimerEvent statics) : EvTimerEvent statics :=
  { e with
    isRunning := false
    curSysTick := 0
    used := match r with
      | .slot _ => false
      | .event _ => e.used }

theorem evTimerPoolDelUpdate_data (s : EvTimer statics) (r : TimerRef statics)
    : (evTimerPoolDelUpdate s r).data
        = Function.update s.data r (evUnonTimer.stopped r (s.data r))
      ∧ SameTicks s (evTimerPoolDelUpdate s r) := by
  let stopped := s.modify r ({ · with isRunning := false, curSysTick := 0 })
  have stoppedData : stopped.data
      = Function.update s.data r { s.data r with isRunning := false, curSysTick := 0 } :=
    EvTimer.modify_data s r fun _ => rfl
  cases r with
  | event n => exact ⟨stoppedData, rfl, rfl⟩
  | slot i =>
      by_cases taken : (stopped.evt (.slot i)).used
      · let freed := stopped.modify (.slot i) ({ · with used := false })
        have run : evTimerPoolDelUpdate s (.slot i)
            = { freed with usedNum := stopped.usedNum - 1 } := if_pos taken
        have freedData : freed.data
            = Function.update stopped.data (.slot i) { stopped.data (.slot i) with used := false } :=
          EvTimer.modify_data stopped _ fun _ => rfl
        rw [run]
        refine ⟨?_, rfl, rfl⟩
        change freed.data = _
        rw [freedData, stoppedData, Function.update_idem, Function.update_self]
        rfl
      · have run : evTimerPoolDelUpdate s (.slot i) = stopped := if_neg taken
        rw [run, stoppedData]
        refine ⟨?_, rfl, rfl⟩
        congr 1
        have free : (s.data (.slot i)).used = false := by
          simpa [stopped, EvTimer.data, EvTimerEvent.unlinked] using taken
        simp [evUnonTimer.stopped, ← free]

theorem listDelete_ticks (run : listDelete s r = some s') : SameTicks s s' := by
  rw [listDelete] at run
  obtain ⟨head, -, run⟩ := Option.bind_eq_some_iff.mp run
  split at run
  · cases run
    exact ⟨rfl, rfl⟩
  · obtain ⟨⟨lst, found⟩, -, run⟩ := Option.bind_eq_some_iff.mp run
    cases lst <;> cases found <;> cases run <;> exact ⟨rfl, rfl⟩

theorem TimerList.unonTimer_data (timers : TimerList s l) (inside : r ∈ l)
    (run : evUnonTimer (some r) s = some s')
    : s'.data = Function.update s.data r (evUnonTimer.stopped r (s.data r))
      ∧ SameTicks s s' ∧ Nearest s' (l.erase r) := by
  obtain ⟨pooled, -⟩ := timers.poolDelUpdate r
  obtain ⟨pooledData, pooledTicks⟩ := evTimerPoolDelUpdate_data s r
  obtain ⟨deleted, delete, list, same, -⟩ := listDelete_eq pooled.list inside
  have deletedTicks := listDelete_ticks delete
  simp only [evUnonTimer] at run
  rw [listExist_eq timers.list, if_pos inside] at run
  simp only [Option.bind_eq_bind, Option.bind_some, delete] at run
  obtain ⟨data, ticks, nearest⟩ := evTimerNearestUpdate_data list run
  exact ⟨by rw [data, same.data_eq, pooledData],
    (pooledTicks.trans deletedTicks).trans ticks, nearest⟩

/-- A slot after `ev_timer_taskPost`. -/
def evTimerTaskPost.filled (listed : Prop) [Decidable listed] (clockTime func arg tMs : UInt32)
    (e : EvTimerEvent statics) : EvTimerEvent statics :=
  { evOnTimer.armed listed clockTime tMs e with used := true, cb := func, data := arg }

theorem TimerList.taskPost_data {clockTime func arg tMs : UInt32} {i : Fin timerEventNum}
    (timers : TimerList s l)
    (run : evTimerTaskPost clockTime func arg tMs s = some (some (.slot i), s'))
    : s'.data = Function.update s.data (.slot i)
          (evTimerTaskPost.filled (.slot i ∈ l) clockTime func arg tMs (s.data (.slot i)))
      ∧ SameTicks s s' ∧ Nearest s' (if .slot i ∈ l then l else .slot i :: l) := by
  rcases timers.freeGet with ⟨full, -⟩ | ⟨j, free, taken, list⟩
  · rw [evTimerTaskPost, evTimerAdd, full] at run
    cases run
  · let marked : EvTimer statics :=
      { s.modify (.slot j) ({ · with used := true }) with usedNum := s.usedNum + 1 }
    let filled := marked.modify (.slot j) ({ · with cb := func, data := arg })
    have filledList : TimerList filled l := TimerList.modify list rfl rfl
    have markedData : marked.data
        = Function.update s.data (.slot j) { s.data (.slot j) with used := true } :=
      EvTimer.modify_data (f := ({ · with used := true })) s (.slot j) fun _ => rfl
    have filledData : filled.data = Function.update marked.data (.slot j)
        { marked.data (.slot j) with cb := func, data := arg } :=
      EvTimer.modify_data marked _ fun _ => rfl
    rw [evTimerTaskPost, evTimerAdd, taken] at run
    obtain ⟨after, armed, same⟩ := Option.bind_eq_some_iff.mp run
    simp only [Option.pure_def, Option.some.injEq, Prod.mk.injEq, TimerRef.slot.injEq] at same
    obtain ⟨rfl, rfl⟩ := same
    obtain ⟨data, ticks, nearest⟩ := filledList.onTimer_data armed
    refine ⟨?_, ⟨ticks.prevSysTick, ticks.remSysTick⟩, nearest⟩
    rw [data, filledData, markedData, Function.update_idem, Function.update_idem]
    simp [evTimerTaskPost.filled, evOnTimer.armed]

/-- A call that finds nothing to do: the pool is full, or the handle is NULL or not in use, or the
timer is not in the list.
-/
def TimerCall.Refused (s : EvTimer statics) : TimerCall statics → Prop
  | .taskPost .. => ∀ i, (s.evt (.slot i)).used = true
  | .taskCancel evt => ∀ r, evt = some r → (s.evt r).used = false ∨ listExist s r = some none
  | .onTimer _ evt _ => evt = none
  | .unonTimer evt => ∀ r, evt = some r → listExist s r = some none

/-- What a call does to the data of the timers. It is refused, or changes one timer. -/
inductive CallData (s s' : EvTimer statics) (l l' : List (TimerRef statics))
    : TimerCall statics → Prop where
  | refused {c : TimerCall statics} (refused : c.Refused s) (same : s' = s) (list : l' = l)
      : CallData s s' l l' c
  | posts (i : Fin timerEventNum) (clockTime func arg tMs : UInt32)
      (free : (s.data (.slot i)).used = false)
      (data : s'.data = Function.update s.data (.slot i)
        (evTimerTaskPost.filled (.slot i ∈ l) clockTime func arg tMs (s.data (.slot i))))
      (list : l' = if .slot i ∈ l then l else .slot i :: l)
      (ticks : SameTicks s s') (nearest : Nearest s' l')
      : CallData s s' l l' (.taskPost clockTime func arg tMs)
  | arms (r : TimerRef statics) (clockTime timeout : UInt32)
      (data : s'.data
        = Function.update s.data r (evOnTimer.armed (r ∈ l) clockTime timeout (s.data r)))
      (list : l' = if r ∈ l then l else r :: l)
      (ticks : SameTicks s s') (nearest : Nearest s' l')
      : CallData s s' l l' (.onTimer clockTime (some r) timeout)
  | stops {c : TimerCall statics} (r : TimerRef statics)
      (call : c = .taskCancel (some r) ∨ c = .unonTimer (some r)) (inside : r ∈ l)
      (data : s'.data = Function.update s.data r (evUnonTimer.stopped r (s.data r)))
      (list : l' = l.erase r)
      (ticks : SameTicks s s') (nearest : Nearest s' l')
      : CallData s s' l l' c

theorem CallData.ticks {c : TimerCall statics} {l' : List (TimerRef statics)}
    (data : CallData s s' l l' c)
    : SameTicks s s' := by
  cases data with
  | refused refused same list => exact same ▸ ⟨rfl, rfl⟩
  | posts i clockTime func arg tMs free data list ticks nearest => exact ticks
  | arms r clockTime timeout data list ticks nearest => exact ticks
  | stops r call inside data list ticks nearest => exact ticks

/-- A timer is stopped, if it is in the list. -/
theorem TimerList.stop_data {c : TimerCall statics} (timers : TimerList s l)
    (call : c = .taskCancel (some r) ∨ c = .unonTimer (some r))
    (run : evUnonTimer (some r) s = some s')
    : ∃ l', TimerList s' l' ∧ CallData s s' l l' c := by
  by_cases inside : r ∈ l
  · obtain ⟨after, stop, list, -⟩ := timers.unonTimer inside
    obtain ⟨data, ticks, nearest⟩ := timers.unonTimer_data inside run
    rw [stop, Option.some.injEq] at run
    subst run
    exact ⟨_, list, .stops r call inside data rfl ticks nearest⟩
  · have missing : listExist s r = some none := by
      rw [listExist_eq timers.list, if_neg inside]
    rw [evUnonTimer_absent timers.list inside] at run
    cases run
    refine ⟨l, timers, .refused ?_ rfl rfl⟩
    rcases call with rfl | rfl
    · rintro x ⟨⟩
      exact Or.inr missing
    · rintro x ⟨⟩
      exact missing

theorem TimerList.call_data {c : TimerCall statics} {notes : List (TimerNote statics)}
    (timers : TimerList s l) (run : c.exec s = some (s', notes))
    : ∃ l', TimerList s' l' ∧ CallData s s' l l' c := by
  cases c with
  | taskPost clockTime func arg tMs =>
      obtain ⟨⟨handle, after⟩, post, result⟩ := Option.bind_eq_some_iff.mp run
      cases result
      rcases timers.taskPost clockTime func arg tMs
        with ⟨refused, full⟩ | ⟨i, after, taken, free, list, -⟩
      · rw [refused] at post
        cases post
        exact ⟨l, timers, .refused full rfl rfl⟩
      · rw [taken] at post
        cases post
        obtain ⟨data, ticks, nearest⟩ := timers.taskPost_data taken
        exact ⟨_, list, .posts i clockTime func arg tMs free data rfl ticks nearest⟩
  | taskCancel evt =>
      cases evt with
      | none =>
          cases run
          exact ⟨l, timers, .refused (fun x same => by cases same) rfl rfl⟩
      | some r =>
          by_cases used : (s.evt r).used
          · simp only [TimerCall.exec, evTimerTaskCancel, used, if_true] at run
            obtain ⟨⟨status, handle, after⟩, cancel, result⟩ := Option.bind_eq_some_iff.mp run
            obtain ⟨stopped, stop, same⟩ := Option.bind_eq_some_iff.mp cancel
            cases same
            cases result
            exact timers.stop_data (.inl rfl) stop
          · simp only [TimerCall.exec, evTimerTaskCancel, used] at run
            cases run
            refine ⟨l, timers, .refused ?_ rfl rfl⟩
            rintro x ⟨⟩
            exact Or.inl (Bool.eq_false_iff.mpr used)
  | onTimer clockTime evt timeout =>
      cases evt with
      | none =>
          cases run
          exact ⟨l, timers, .refused (Eq.refl none) rfl rfl⟩
      | some r =>
          obtain ⟨after, armed, result⟩ := Option.bind_eq_some_iff.mp run
          cases result
          obtain ⟨data, ticks, nearest⟩ := timers.onTimer_data armed
          obtain ⟨again, same, list, -⟩ := timers.onTimer clockTime r timeout
          rw [armed, Option.some.injEq] at same
          subst same
          exact ⟨_, list, .arms r clockTime timeout data rfl ticks nearest⟩
  | unonTimer evt =>
      cases evt with
      | none =>
          cases run
          exact ⟨l, timers, .refused (fun x same => by cases same) rfl rfl⟩
      | some r =>
          obtain ⟨after, stop, result⟩ := Option.bind_eq_some_iff.mp run
          cases result
          exact timers.stop_data (.inr rfl) stop

-----------------------------------------------------------------------------------------
-- Passing time
-----------------------------------------------------------------------------------------

/-- Nothing but the data of the timers in the list differs. -/
structure Charged (s s' : EvTimer statics) (l : List (TimerRef statics))
    (f : EvTimerEvent statics → EvTimerEvent statics) : Prop where
  listed : ∀ x ∈ l, s'.data x = f (s.data x)
  others : ∀ x ∉ l, s'.data x = s.data x
  ticks : SameTicks s s'
  timerNearest : s'.timerNearest = s.timerNearest
  timerHead : s'.timerHead = s.timerHead

/-- The walk charges every timer once, by induction on the rest of the list. -/
theorem evTimerUpdate.loop_data {sTimerClock1us updateTime curSysTick : UInt32}
    {p : Option (TimerRef statics)} {fuel : Nat} (list : ListAt s p l)
    (run : evTimerUpdate.loop sTimerClock1us updateTime curSysTick fuel p s = some s')
    : Charged s s' l (evTimerUpdate.charge sTimerClock1us updateTime curSysTick) := by
  induction l generalizing p fuel s with
  | nil =>
      have ended : p = none := list
      subst ended
      have same : s = s' := by cases fuel <;> exact Option.some.inj run
      subst same
      exact ⟨by simp, fun _ _ => rfl, ⟨rfl, rfl⟩, rfl, rfl⟩
  | cons a rest ih =>
      have nodup := List.nodup_cons.mp list.nodup
      obtain ⟨rfl, behind⟩ := list
      cases fuel with
      | zero => contradiction
      | succ fuel =>
          let charged := s.modify a (evTimerUpdate.charge sTimerClock1us updateTime curSysTick)
          have chargedData : charged.data = Function.update s.data a
              (evTimerUpdate.charge sTimerClock1us updateTime curSysTick (s.data a)) :=
            EvTimer.modify_data s a fun _ => rfl
          have links : ∀ x, (charged.evt x).next = (s.evt x).next :=
            EvTimer.modify_field EvTimerEvent.next rfl
          have next : ListAt charged (next charged a) rest := by
            have link : next charged a = next s a := links a
            rw [link]
            exact Segment.congr behind fun x _ => links x
          have later := ih next run
          refine ⟨?_, ?_, ⟨later.ticks.prevSysTick, later.ticks.remSysTick⟩, later.timerNearest,
            later.timerHead⟩
          · intro x inside
            rcases List.mem_cons.mp inside with rfl | inside
            · rw [later.others x nodup.1, chargedData, Function.update_self]
            · have other : x ≠ a := fun same => nodup.1 (same ▸ inside)
              rw [later.listed x inside, chargedData, Function.update_of_ne other]
          · intro x absent
            rw [List.mem_cons, not_or] at absent
            rw [later.others x absent.2, chargedData, Function.update_of_ne absent.1]

theorem TimerList.update_data {sTimerClock1us updateTime curSysTick : UInt32}
    (timers : TimerList s l) (passed : updateTime ≠ 0)
    (run : evTimerUpdate sTimerClock1us updateTime curSysTick s = some s')
    : Charged s s' l (evTimerUpdate.charge sTimerClock1us updateTime curSysTick) := by
  rw [evTimerUpdate, if_neg passed] at run
  exact evTimerUpdate.loop_data timers.list run

/-- Without an expired millisecond only the tick counters change. -/
theorem evTimerProcess_quiet {sTimerClock1us currSysTick curSysTick : UInt32}
    (run : evTimerProcess sTimerClock1us currSysTick curSysTick s = some (s', false))
    : s'.data = s.data ∧ s'.timerNearest = s.timerNearest := by
  rw [evTimerProcess] at run
  dsimp only at run
  split at run
  · split at run
    · obtain ⟨after, -, result⟩ := Option.map_eq_some_iff.mp run
      cases result
    · cases run
      exact ⟨rfl, rfl⟩
  · cases run
    exact ⟨rfl, rfl⟩

/-- A timer whose callback returns a value that is not negative. -/
def evTimerExecuteCB.rearmed (t : Int32) (e : EvTimerEvent statics) : EvTimerEvent statics :=
  if t = 0 then { e with timeout := e.period }
  else { e with period := t.toUInt32, timeout := t.toUInt32 }

theorem evTimerExecuteCB.returned_data {t : Int32} (stays : ¬t < 0)
    (run : evTimerExecuteCB.returned r t s = some s')
    : s'.data = Function.update s.data r (evTimerExecuteCB.rearmed t (s.data r))
      ∧ SameTicks s s' ∧ s'.timerNearest = s.timerNearest := by
  rw [evTimerExecuteCB.returned, if_neg stays] at run
  have same : s' = s.modify r (evTimerExecuteCB.rearmed t) := by
    by_cases zero : t = 0
    · rw [if_pos zero] at run
      cases run
      simp [EvTimer.modify, evTimerExecuteCB.rearmed, zero]
    · rw [if_neg zero] at run
      cases run
      simp [EvTimer.modify, evTimerExecuteCB.rearmed, zero]
  subst same
  refine ⟨EvTimer.modify_data s r fun e => ?_, ⟨rfl, rfl⟩, rfl⟩
  rw [evTimerExecuteCB.rearmed, evTimerExecuteCB.rearmed]
  split <;> rfl

/-- The return of a callback stops its timer or arms it again. -/
inductive ReturnData (s s' : EvTimer statics) (r : TimerRef statics) (t : Int32)
    (l : List (TimerRef statics)) : List (TimerRef statics) → Prop where
  | stops (negative : t < 0) (inside : r ∈ l)
      (data : s'.data = Function.update s.data r (evUnonTimer.stopped r (s.data r)))
      : ReturnData s s' r t l (l.erase r)
  | gone (negative : t < 0) (absent : r ∉ l) (same : s' = s) : ReturnData s s' r t l l
  | arms (stays : ¬t < 0)
      (data : s'.data = Function.update s.data r (evTimerExecuteCB.rearmed t (s.data r)))
      : ReturnData s s' r t l l

theorem TimerList.returned_data {t : Int32} (timers : TimerList s l)
    (run : evTimerExecuteCB.returned r t s = some s')
    : ∃ l', TimerList s' l' ∧ SameTicks s s' ∧ ReturnData s s' r t l l' := by
  by_cases negative : t < 0
  · have stop := run
    rw [evTimerExecuteCB.returned, if_pos negative] at stop
    by_cases inside : r ∈ l
    · obtain ⟨data, ticks, -⟩ := timers.unonTimer_data inside stop
      obtain ⟨after, again, list, -⟩ := timers.unonTimer inside
      rw [stop, Option.some.injEq] at again
      subst again
      exact ⟨_, list, ticks, .stops negative inside data⟩
    · rw [evUnonTimer_absent timers.list inside] at stop
      cases stop
      exact ⟨l, timers, ⟨rfl, rfl⟩, .gone negative inside rfl⟩
  · obtain ⟨data, ticks, -⟩ := evTimerExecuteCB.returned_data negative run
    obtain ⟨after, again, list, -⟩ := timers.rearmed r negative
    rw [run, Option.some.injEq] at again
    subst again
    exact ⟨l, list, ticks, .arms negative data⟩

theorem evTimerExecuteCB.rearmed_clock (t : Int32) (e : EvTimerEvent statics)
    : (rearmed t e).isRunning = e.isRunning ∧ (rearmed t e).curSysTick = e.curSysTick := by
  rw [rearmed]
  split <;> exact ⟨rfl, rfl⟩

-----------------------------------------------------------------------------------------
-- Steps
-----------------------------------------------------------------------------------------

section Steps

variable {sys sys' : TimerSys statics} {notes : List (TimerNote statics)}

theorem TimerAction.step_call {c : TimerCall statics}
    (step : (TimerAction.call c).step sys = some (sys', notes))
    : c.exec sys.timer = some (sys'.timer, notes) ∧ sys'.phase = sys.phase
      ∧ ∀ timerEvt prevHead, sys.phase ≠ .walking timerEvt prevHead := by
  rcases sys with ⟨s, phase⟩
  cases phase with
  | walking timerEvt prevHead => contradiction
  | idle =>
      obtain ⟨⟨after, later⟩, run, result⟩ := Option.map_eq_some_iff.mp step
      cases result
      exact ⟨run, rfl, by simp⟩
  | calling timerEvt prevHead =>
      obtain ⟨⟨after, later⟩, run, result⟩ := Option.map_eq_some_iff.mp step
      cases result
      exact ⟨run, rfl, by simp⟩

/-- Calls are made outside the loop of `ev_timer_executeCB`. -/
theorem TimerAction.call_step {c : TimerCall statics} (run : c.exec sys.timer = some (s', notes))
    (aside : ∀ timerEvt prevHead, sys.phase ≠ .walking timerEvt prevHead)
    : (TimerAction.call c).step sys = some ({ sys with timer := s' }, notes) := by
  rcases sys with ⟨s, phase⟩
  cases phase with
  | walking timerEvt prevHead => exact absurd rfl (aside _ _)
  | idle => simp [TimerAction.step, run]
  | calling timerEvt prevHead => simp [TimerAction.step, run]

theorem TimerAction.step_process {sTimerClock1us currSysTick curSysTick : UInt32}
    (step : (TimerAction.process sTimerClock1us currSysTick curSysTick).step sys
      = some (sys', notes))
    : sys.phase = .idle ∧ ∃ expired,
      evTimerProcess sTimerClock1us currSysTick curSysTick sys.timer = some (sys'.timer, expired)
      ∧ sys'.phase = (if expired then .walking sys'.timer.timerHead sys'.timer.timerHead else .idle)
      ∧ notes = (if expired then [.passBegan] else []) := by
  rcases sys with ⟨s, phase⟩
  cases phase with
  | walking timerEvt prevHead => contradiction
  | calling timerEvt prevHead => contradiction
  | idle =>
      obtain ⟨⟨after, expired⟩, run, result⟩ := Option.map_eq_some_iff.mp step
      cases expired <;> cases result <;> exact ⟨rfl, _, run, rfl, rfl⟩

/-- One turn of the loop of `ev_timer_executeCB`. -/
theorem TimerAction.step_walk (step : TimerAction.walk.step sys = some (sys', notes))
    : ∃ timerEvt prevHead, sys.phase = .walking timerEvt prevHead
      ∧ ((timerEvt = none ∧ evTimerNearestUpdate sys.timer = some sys'.timer ∧ sys'.phase = .idle
          ∧ notes = [.passEnded])
        ∨ ∃ r, timerEvt = some r ∧ sys'.timer = sys.timer
          ∧ ((sys.timer.data r).timeout = 0 ∧ sys'.phase = .calling r prevHead
              ∧ notes = [.fired r (sys.timer.data r).cb (sys.timer.data r).data]
            ∨ (sys.timer.data r).timeout ≠ 0
              ∧ sys'.phase = .walking (next sys.timer r) prevHead ∧ notes = [])) := by
  rcases sys with ⟨s, phase⟩
  cases phase with
  | idle => contradiction
  | calling timerEvt prevHead => contradiction
  | walking timerEvt prevHead =>
      refine ⟨timerEvt, prevHead, rfl, ?_⟩
      cases timerEvt with
      | none =>
          obtain ⟨after, run, result⟩ := Option.map_eq_some_iff.mp step
          cases result
          exact Or.inl ⟨rfl, run, rfl, rfl⟩
      | some r =>
          refine Or.inr ⟨r, rfl, ?_⟩
          by_cases expired : (s.data r).timeout = 0
          · have fired : TimerAction.walk.step ⟨s, .walking (some r) prevHead⟩
                = some (⟨s, .calling r prevHead⟩, [.fired r (s.data r).cb (s.data r).data]) :=
              if_pos expired
            rw [fired] at step
            cases step
            exact ⟨rfl, Or.inl ⟨expired, rfl, rfl⟩⟩
          · have passed : TimerAction.walk.step ⟨s, .walking (some r) prevHead⟩
                = some (⟨s, .walking (next s r) prevHead⟩, []) :=
              if_neg expired
            rw [passed] at step
            cases step
            exact ⟨rfl, Or.inr ⟨expired, rfl, rfl⟩⟩

theorem TimerAction.step_ret {t : Int32}
    (step : (TimerAction.ret t).step sys = some (sys', notes))
    : ∃ timerEvt prevHead, sys.phase = .calling timerEvt prevHead
      ∧ evTimerExecuteCB.returned timerEvt t sys.timer = some sys'.timer
      ∧ sys'.phase = evTimerExecuteCB.next timerEvt prevHead sys'.timer
      ∧ notes = [.returned timerEvt t] := by
  rcases sys with ⟨s, phase⟩
  cases phase with
  | idle => contradiction
  | walking timerEvt prevHead => contradiction
  | calling timerEvt prevHead =>
      obtain ⟨after, run, result⟩ := Option.map_eq_some_iff.mp step
      cases result
      exact ⟨timerEvt, prevHead, rfl, run, rfl, rfl⟩

end Steps

end TelinkSdk
