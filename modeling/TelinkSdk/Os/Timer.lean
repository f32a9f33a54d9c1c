import Mathlib.Algebra.GroupWithZero.Nat
import TelinkSdk.Links.ListAt

/-! The software timers of `ev_timer.c`: a pool of slots and any number of statically allocated
events, linked into one list that `ev_timer_process` walks while the callbacks edit it.
-/

namespace TelinkSdk

open Links LinkView LinkStore

abbrev timerEventNum : Nat := 24

instance : NeZero timerEventNum := ⟨Nat.succ_ne_zero 23⟩

/-- `g_ev_timer_maxNum`, which nothing changes. -/
abbrev gEvTimerMaxNum : UInt32 := 24

abbrev noTimerAvail : UInt8 := 0x08

abbrev timerSuccess : UInt8 := 0

-----------------------------------------------------------------------------------------
-- Data
-----------------------------------------------------------------------------------------

/-- The address of a timer: a slot of the pool or a statically allocated event. -/
inductive TimerRef (statics : Nat) where
  | slot (i : Fin timerEventNum)
  | event (n : Fin statics)
deriving DecidableEq, Repr

/-- `ev_timer_event_t` -/
structure EvTimerEvent (statics : Nat) where
  next : Option (TimerRef statics) := none
  cb : UInt32 := 0
  data : UInt32 := 0
  timeout : UInt32 := 0
  period : UInt32 := 0
  curSysTick : UInt32 := 0
  isRunning : Bool := false
  used : Bool := false
deriving DecidableEq, Repr

/-- `ev_timer_ctrl_t` with the events it links, and the two tick counters of the module. -/
structure EvTimer (statics : Nat) where
  timerHead : Option (TimerRef statics) := none
  timerNearest : Option (TimerRef statics) := none
  evt : TimerRef statics → EvTimerEvent statics
  usedNum : UInt32 := 0
  prevSysTick : UInt32 := 0
  remSysTick : UInt32 := 0

/-- `ev_timer_init` clears the pool; statically allocated events keep what they hold. -/
def evTimerInit {statics : Nat} (events : Fin statics → EvTimerEvent statics)
    (prevSysTick remSysTick : UInt32) : EvTimer statics :=
  {
    evt := fun
      | .slot _ => {}
      | .event n => events n
    prevSysTick
    remSysTick
  }

section Operations

variable {statics : Nat}

def EvTimer.modify (s : EvTimer statics) (r : TimerRef statics)
    (f : EvTimerEvent statics → EvTimerEvent statics) : EvTimer statics :=
  { s with evt := Function.update s.evt r (f (s.evt r)) }

instance : LinkStore (EvTimer statics) (TimerRef statics) where
  next s r := (s.evt r).next
  setNext s r p := s.modify r ({ · with next := p })
  next_setNext s r p := by simp [EvTimer.modify]
  next_setNext_of_ne s _ _ p other := by simp [EvTimer.modify, other]

/-- A walk that takes more steps than there are timers never ends. -/
abbrev walkFuel (statics : Nat) : Nat := timerEventNum + statics

-----------------------------------------------------------------------------------------
-- The list
-----------------------------------------------------------------------------------------

/-- `LIST_ADD` -/
def listAdd (s : EvTimer statics) (ele : TimerRef statics) : EvTimer statics :=
  { setNext s ele s.timerHead with timerHead := some ele }

/-- `LIST_EXIST`; no result if the walk does not end. -/
def listExist (s : EvTimer statics) (ele : TimerRef statics) : Option (Option (TimerRef statics)) :=
  (walkUntil s (· == ele) (walkFuel statics) none s.timerHead).map Prod.snd

/-- `LIST_DELETE`; no result if the list is empty, where NULL is dereferenced, or if the walk
does not end.
-/
def listDelete (s : EvTimer statics) (ele : TimerRef statics) : Option (EvTimer statics) := do
  let head ← s.timerHead
  if head = ele then pure { s with timerHead := next s head }
  else
    let (lst, found) ← walkUntil s (· == ele) (walkFuel statics) (some head) (next s head)
    match lst, found with
    | some lst, some _ => pure (setNext s lst (next s ele))
    | _, _ => pure s

-----------------------------------------------------------------------------------------
-- The pool
-----------------------------------------------------------------------------------------

def evTimerFreeGet (s : EvTimer statics) : Option (Fin timerEventNum × EvTimer statics) :=
  if s.usedNum ≥ gEvTimerMaxNum then none
  else
    ((List.finRange timerEventNum).find? fun i => !(s.evt (.slot i)).used).map fun i =>
      (i, { s.modify (.slot i) ({ · with used := true }) with usedNum := s.usedNum + 1 })

/-- Only a slot lies between the first and the last element of the pool. -/
def evTimerPoolDelUpdate (s : EvTimer statics) (evt : TimerRef statics) : EvTimer statics :=
  let s := s.modify evt ({ · with isRunning := false, curSysTick := 0 })
  match evt with
  | .slot i =>
      if (s.evt (.slot i)).used then
        { s.modify (.slot i) ({ · with used := false }) with usedNum := s.usedNum - 1 }
      else s
  | .event _ => s

def evTimerNearestUpdate.loop (s : EvTimer statics)
    : Nat → Option (TimerRef statics) → TimerRef statics → Option (TimerRef statics)
  | _, none, nearest => some nearest
  | 0, some _, _ => none
  | fuel + 1, some timerEvt, nearest =>
      let nearest :=
        if (s.evt timerEvt).timeout < (s.evt nearest).timeout then timerEvt else nearest
      loop s fuel (next s timerEvt) nearest

def evTimerNearestUpdate (s : EvTimer statics) : Option (EvTimer statics) :=
  match s.timerHead with
  | none => some { s with timerNearest := none }
  | some head =>
      (evTimerNearestUpdate.loop s (walkFuel statics) (some head) head).map fun nearest =>
        { s with timerNearest := some nearest }

-----------------------------------------------------------------------------------------
-- The interface
-----------------------------------------------------------------------------------------

/-- On NULL the exception hook is called and nothing changes. -/
def evOnTimer (clockTime : UInt32) (evt : Option (TimerRef statics)) (timeout : UInt32)
    (s : EvTimer statics) : Option (EvTimer statics) := do
  match evt with
  | none => pure s
  | some evt =>
      let s := s.modify evt ({ · with period := timeout })
      match ← listExist s evt with
      | some out => evTimerNearestUpdate (s.modify out fun e => { e with timeout := e.period })
      | none =>
          let s := s.modify evt fun e =>
            if e.isRunning then e else { e with curSysTick := clockTime }
          let s := s.modify evt fun e => { e with timeout := e.period }
          evTimerNearestUpdate (listAdd s evt)

def evUnonTimer (evt : Option (TimerRef statics)) (s : EvTimer statics)
    : Option (EvTimer statics) := do
  match evt with
  | none => pure s
  | some evt =>
      match ← listExist s evt with
      | none => pure s
      | some _ =>
          let s ← listDelete (evTimerPoolDelUpdate s evt) evt
          evTimerNearestUpdate s

def evTimerAdd (clockTime func arg timeout : UInt32) (s : EvTimer statics)
    : Option (Option (TimerRef statics) × EvTimer statics) := do
  match evTimerFreeGet s with
  | none => pure (none, s)
  | some (i, s) =>
      let s := s.modify (.slot i) ({ · with cb := func, data := arg })
      let s ← evOnTimer clockTime (some (.slot i)) timeout s
      pure (some (.slot i), s)

def evTimerTaskPost (clockTime func arg tMs : UInt32) (s : EvTimer statics)
    : Option (Option (TimerRef statics) × EvTimer statics) :=
  evTimerAdd clockTime func arg tMs s

/-- The status, the new value of the handle, and the timers. -/
def evTimerTaskCancel (evt : Option (TimerRef statics)) (s : EvTimer statics)
    : Option (UInt8 × Option (TimerRef statics) × EvTimer statics) := do
  match evt with
  | none => pure (noTimerAvail, evt, s)
  | some timerEvt =>
      if (s.evt timerEvt).used then
        let s ← evUnonTimer (some timerEvt) s
        pure (timerSuccess, none, s)
      else pure (noTimerAvail, evt, s)

-----------------------------------------------------------------------------------------
-- Passing time
-----------------------------------------------------------------------------------------

/-- A timer that is already running is charged `updateTime`; a new one the time since it was
registered.
-/
def evTimerUpdate.charge (sTimerClock1us updateTime curSysTick : UInt32) (e : EvTimerEvent statics)
    : EvTimerEvent statics :=
  let updateTimeMs :=
    if e.isRunning then updateTime
    else (curSysTick - e.curSysTick) / (sTimerClock1us * 1000)
  { e with
    isRunning := true
    timeout := if e.timeout > updateTimeMs then e.timeout - updateTimeMs else 0 }

def evTimerUpdate.loop (sTimerClock1us updateTime curSysTick : UInt32)
    : Nat → Option (TimerRef statics) → EvTimer statics → Option (EvTimer statics)
  | _, none, s => some s
  | 0, some _, _ => none
  | fuel + 1, some timerEvt, s =>
      let s := s.modify timerEvt (charge sTimerClock1us updateTime curSysTick)
      loop sTimerClock1us updateTime curSysTick fuel (next s timerEvt) s

def evTimerUpdate (sTimerClock1us updateTime curSysTick : UInt32) (s : EvTimer statics)
    : Option (EvTimer statics) :=
  if updateTime = 0 then some s
  else
    evTimerUpdate.loop sTimerClock1us updateTime curSysTick (walkFuel statics) s.timerHead s

/-- `ev_timer_process` up to `ev_timer_executeCB`, and whether that is called. The two ticks are
what the two reads of the clock return.
-/
def evTimerProcess (sTimerClock1us currSysTick curSysTick : UInt32) (s : EvTimer statics)
    : Option (EvTimer statics × Bool) :=
  if currSysTick ≠ s.prevSysTick then
    let sysTicks := currSysTick - s.prevSysTick
    let remSysTick := s.remSysTick + sysTicks % (sTimerClock1us * 1000)
    let updateTime := sysTicks / (sTimerClock1us * 1000) + remSysTick / (sTimerClock1us * 1000)
    let s :=
      { s with prevSysTick := currSysTick, remSysTick := remSysTick % (sTimerClock1us * 1000) }
    if updateTime ≠ 0 then
      (evTimerUpdate sTimerClock1us updateTime curSysTick s).map fun s => (s, true)
    else some (s, false)
  else some (s, false)

end Operations

-----------------------------------------------------------------------------------------
-- Passes
-----------------------------------------------------------------------------------------

/-- Where the code is: in the main loop, at the head of the loop of `ev_timer_executeCB`, or in
the callback of `timerEvt`.
-/
inductive TimerPhase (statics : Nat) where
  | idle
  | walking (timerEvt prevHead : Option (TimerRef statics))
  | calling (timerEvt : TimerRef statics) (prevHead : Option (TimerRef statics))
deriving DecidableEq, Repr

structure TimerSys (statics : Nat) where
  timer : EvTimer statics
  phase : TimerPhase statics

/-- The calls that the main loop and the callbacks make. -/
inductive TimerCall (statics : Nat) where
  | taskPost (clockTime func arg tMs : UInt32)
  | taskCancel (evt : Option (TimerRef statics))
  | onTimer (clockTime : UInt32) (evt : Option (TimerRef statics)) (timeout : UInt32)
  | unonTimer (evt : Option (TimerRef statics))

/-- What happened to a timer. -/
inductive TimerNote (statics : Nat) where
  | posted (r : TimerRef statics) (timeout : UInt32)
  | armed (r : TimerRef statics)
  | cancelled (r : TimerRef statics)
  | fired (r : TimerRef statics) (cb data : UInt32)
  | returned (r : TimerRef statics) (t : Int32)
  | passBegan
  | passEnded
deriving DecidableEq, Repr

/-- What the system does next. -/
inductive TimerAction (statics : Nat) where
  | call (c : TimerCall statics)
  | process (sTimerClock1us currSysTick curSysTick : UInt32)
  | walk
  | ret (t : Int32)

section Passes

variable {statics : Nat}

def TimerCall.exec (s : EvTimer statics)
    : TimerCall statics → Option (EvTimer statics × List (TimerNote statics))
  | .taskPost clockTime func arg tMs => do
      let (handle, s) ← evTimerTaskPost clockTime func arg tMs s
      pure (s, handle.toList.map (.posted · tMs))
  | .taskCancel evt => do
      let (status, _, after) ← evTimerTaskCancel evt s
      pure (after, if status = timerSuccess then evt.toList.map .cancelled else [])
  | .onTimer clockTime evt timeout => do
      let s ← evOnTimer clockTime evt timeout s
      pure (s, evt.toList.map .armed)
  | .unonTimer evt => do
      let s ← evUnonTimer evt s
      pure (s, evt.toList.map .cancelled)

/-- `ev_timer_executeCB` between the return of a callback and the next turn of the loop. -/
def evTimerExecuteCB.returned (timerEvt : TimerRef statics) (t : Int32) (s : EvTimer statics)
    : Option (EvTimer statics) :=
  if t < 0 then evUnonTimer (some timerEvt) s
  else if t = 0 then some (s.modify timerEvt fun e => { e with timeout := e.period })
  else some (s.modify timerEvt fun e => { e with period := t.toUInt32, timeout := t.toUInt32 })

/-- The next timer of the pass; it starts again where the head has changed. -/
def evTimerExecuteCB.next (timerEvt : TimerRef statics) (prevHead : Option (TimerRef statics))
    (s : EvTimer statics) : TimerPhase statics :=
  if prevHead ≠ s.timerHead then .walking s.timerHead s.timerHead
  else .walking (LinkView.next s timerEvt) prevHead

/-- One step. It has no result where the phase does not allow the action, and where the source
dereferences NULL or does not end.
-/
def TimerAction.step (sys : TimerSys statics)
    : TimerAction statics → Option (TimerSys statics × List (TimerNote statics))
  | .call c =>
      match sys.phase with
      | .walking .. => none
      | _ => (c.exec sys.timer).map fun (s, notes) => ({ sys with timer := s }, notes)
  | .process sTimerClock1us currSysTick curSysTick =>
      match sys.phase with
      | .idle =>
          (evTimerProcess sTimerClock1us currSysTick curSysTick sys.timer).map fun (s, expired) =>
            if expired then
              ({ timer := s, phase := .walking s.timerHead s.timerHead }, [.passBegan])
            else ({ timer := s, phase := .idle }, [])
      | _ => none
  | .walk =>
      match sys.phase with
      | .walking none _ =>
          (evTimerNearestUpdate sys.timer).map fun s =>
            ({ timer := s, phase := .idle }, [.passEnded])
      | .walking (some timerEvt) prevHead =>
          let e := sys.timer.evt timerEvt
          if e.timeout = 0 then
            some ({ sys with phase := .calling timerEvt prevHead }, [.fired timerEvt e.cb e.data])
          else some ({ sys with phase := .walking e.next prevHead }, [])
      | _ => none
  | .ret t =>
      match sys.phase with
      | .calling timerEvt prevHead =>
          (evTimerExecuteCB.returned timerEvt t sys.timer).map fun s =>
            ({ timer := s, phase := evTimerExecuteCB.next timerEvt prevHead s },
              [.returned timerEvt t])
      | _ => none

end Passes

end TelinkSdk
