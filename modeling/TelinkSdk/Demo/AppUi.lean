import Mathlib.Data.List.Chain
import Mathlib.Data.List.Induction
import TelinkSdk.Drivers.KeyboardPins

/-! The keys of the demos, `app_ui.c` of the coordinator and of the device, on a board with two
keys. A factory reset takes a first key that has been held for five seconds.
-/

namespace TelinkSdk.AppUi

open Keyboard

-----------------------------------------------------------------------------------------
-- The application
-----------------------------------------------------------------------------------------

/-- `APP_STATE_NORMAL` and so on. -/
inductive AppState
  | appStateNormal
  | appFactoryNewSetCheck
  | appFactoryNewDoing
  deriving DecidableEq

/-- What the keys have the application do. -/
inductive UiAction
  | appDataTxTest
  | localPermitJoinState
  | appDataTransmitToggle
  | nvResetToFactoryNew
  deriving DecidableEq

/-- What the two files do not have in common: the short presses of both keys, with `newDev`, and the
long press of the second one.
-/
structure Ui where
  shortSw1 : Bool → List UiAction
  shortSw2 : List UiAction
  keepSw2 : List UiAction

/-- `associate_dev/app_ui.c` -/
def deviceUi : Ui where
  shortSw1 newDev := if newDev then [] else [.appDataTxTest]
  shortSw2 := []
  keepSw2 := []

/-- `associate_coor/app_ui.c` -/
def coorUi : Ui where
  shortSw1 _ := [.localPermitJoinState]
  shortSw2 := [.appDataTransmitToggle]
  keepSw2 := [.appDataTransmitToggle]

/-- One pass of the main loop: what the pins read, the ticks since power-up at the two calls of
`clock_time`, and `newDev` as the rest of the application has left it.
-/
structure Pass where
  gpio : Nat → Gpio
  checkTick : Nat
  pressTick : Nat
  newDev : Bool

/-- The part of `app_ctx_t` that the keys use, the static variable of `app_key_handler` and the
keyboard driver.
-/
structure AppCtx where
  state : AppState := .appStateNormal
  keyPressedTime : UInt32 := 0
  keyPressed : Bool := false
  validKeyCode : UInt8 := 0xff
  driver : KbDriver 1 := {}

/-- `clock_time_exceed`, at a tick. -/
def clockTimeExceed (tick : Nat) (ref us : UInt32) : Bool :=
  UInt32.ofNat tick - ref > us * 16

/-- Nothing runs after `SYSTEM_RESET`, and `APP_FACTORY_NEW_DOING` is lost with it. -/
def buttonKeepPressed (ui : Ui) (btNum : UInt8) (s : AppCtx) : List UiAction × Option AppCtx :=
  if btNum = vkSw1 then ([.nvResetToFactoryNew], none)
  else if btNum = vkSw2 then (ui.keepSw2, some s)
  else ([], some s)

def buttonShortPressed (ui : Ui) (newDev : Bool) (btNum : UInt8) : List UiAction :=
  if btNum = vkSw1 then ui.shortSw1 newDev
  else if btNum = vkSw2 then ui.shortSw2
  else []

/-- `keyScan_keyPressedCB` -/
def keyScanKeyPressedCB (ui : Ui) (pass : Pass) (keycode : List UInt8) (s : AppCtx)
    : List UiAction × AppCtx :=
  let keyCode := keycode.headD 0
  (buttonShortPressed ui pass.newDev keyCode,
    if keyCode = vkSw1 then
      { s with
        keyPressedTime := UInt32.ofNat pass.pressTick
        state := .appFactoryNewSetCheck }
    else s)

/-- `keyScan_keyReleasedCB` -/
def keyScanKeyReleasedCB (s : AppCtx) : AppCtx := { s with state := .appStateNormal }

/-- What `app_key_handler` does with a `kb_event`. -/
def keyEvent (ui : Ui) (pass : Pass) (keycode : List UInt8) (s : AppCtx)
    : List UiAction × AppCtx :=
  if keycode.length ≠ 0 then
    let (actions, s) := keyScanKeyPressedCB ui pass keycode { s with keyPressed := true }
    (actions, if keycode.length = 1 then { s with validKeyCode := keycode.headD 0 } else s)
  else ([], { keyScanKeyReleasedCB s with validKeyCode := 0xff, keyPressed := false })

/-- The second half of `app_key_handler`. -/
def scanKeys (ui : Ui) (kbLineHighValid : Bool) (pass : Pass) (s : AppCtx)
    : List UiAction × AppCtx :=
  let (result, driver) := s.driver.scanKey twoKeyBoard kbLineHighValid pass.gpio
  if result ≠ 0 then keyEvent ui pass driver.scan.kbEvent.keycode { s with driver }
  else ([], { s with driver })

/-- `app_key_handler`, with what it has done and the state, unless it has reset the system. -/
def appKeyHandler (ui : Ui) (kbLineHighValid : Bool) (pass : Pass) (s : AppCtx)
    : List UiAction × Option AppCtx :=
  let (kept, s) :=
    if s.state = .appFactoryNewSetCheck
        ∧ clockTimeExceed pass.checkTick s.keyPressedTime (5 * 1000 * 1000) then
      buttonKeepPressed ui s.validKeyCode s
    else ([], some s)
  match s with
  | none => (kept, none)
  | some s =>
      let (actions, s) := scanKeys ui kbLineHighValid pass s
      (kept ++ actions, some s)

/-- One pass after another, until the system is reset. -/
def appKeyHandlers (ui : Ui) (kbLineHighValid : Bool)
    : List Pass → AppCtx → List UiAction × Option AppCtx
  | [], s => ([], some s)
  | pass :: rest, s =>
      match appKeyHandler ui kbLineHighValid pass s with
      | (actions, none) => (actions, none)
      | (actions, some s) =>
          let (more, s) := appKeyHandlers ui kbLineHighValid rest s
          (actions ++ more, s)

-----------------------------------------------------------------------------------------
-- Five seconds
-----------------------------------------------------------------------------------------

/-- Sixteen ticks are a microsecond. The counter of the ticks wraps, which can make a time look
shorter and never longer.
-/
theorem late_of_exceed {tick ref : Nat} (ordered : ref ≤ tick)
    (exceed : clockTimeExceed tick (UInt32.ofNat ref) (5 * 1000 * 1000) = true)
    : ref + 80000000 < tick := by
  simp only [clockTimeExceed, decide_eq_true_eq, gt_iff_lt, UInt32.lt_iff_toNat_lt,
    UInt32.toNat_sub, UInt32.toNat_ofNat', UInt32.toNat_mul, UInt32.reduceToNat, Nat.reducePow]
    at exceed
  omega

theorem exceed_of_late {tick ref : Nat} (late : ref + 80000000 < tick)
    (once : tick < ref + 4294967296)
    : clockTimeExceed tick (UInt32.ofNat ref) (5 * 1000 * 1000) = true := by
  simp only [clockTimeExceed, decide_eq_true_eq, gt_iff_lt, UInt32.lt_iff_toNat_lt,
    UInt32.toNat_sub, UInt32.toNat_ofNat', UInt32.toNat_mul, UInt32.reduceToNat, Nat.reducePow]
  omega

-----------------------------------------------------------------------------------------
-- One pass
-----------------------------------------------------------------------------------------

variable {ui : Ui} {kbLineHighValid : Bool}

/-- The keys that are down in a pass. -/
def Pass.keys (kbLineHighValid : Bool) (pass : Pass) : Keys :=
  keysDown kbLineHighValid (pass.gpio 0)

/-- What a change of the filtered keys does to the state. -/
def AppCtx.changed (pass : Pass) (keys : Keys) (s : AppCtx) : AppCtx :=
  match keys with
  | ⟨false, false⟩ =>
      { s with state := .appStateNormal, validKeyCode := 0xff, keyPressed := false }
  | ⟨true, false⟩ =>
      { s with
        state := .appFactoryNewSetCheck
        keyPressedTime := UInt32.ofNat pass.pressTick
        validKeyCode := vkSw1
        keyPressed := true }
  | ⟨false, true⟩ => { s with validKeyCode := vkSw2, keyPressed := true }
  | ⟨true, true⟩ =>
      { s with
        state := .appFactoryNewSetCheck
        keyPressedTime := UInt32.ofNat pass.pressTick
        keyPressed := true }

theorem keyEvent_keys (pass : Pass) (keys : Keys) (s : AppCtx)
    : (keyEvent ui pass keys.codes s).2 = s.changed pass keys := by
  induction keys using Keys.cases <;> rfl

/-- The state follows the filtered keys. -/
theorem scanKeys_tracks {s : AppCtx} {d next : Debounce} (tracks : s.driver.Tracks d) {pass : Pass}
    (steady : Steady pass.gpio) (step : d.next (pass.keys kbLineHighValid) = next)
    : ∃ driver : KbDriver 1, driver.Tracks next
      ∧ (scanKeys ui kbLineHighValid pass s).2
        = if next.filtered = d.filtered then { s with driver }
          else AppCtx.changed pass next.filtered { s with driver } := by
  subst step
  obtain ⟨result, codes, tracks⟩ := tracks.scanKey kbLineHighValid steady
  refine ⟨_, tracks, ?_⟩
  by_cases kept : (d.next (keysDown kbLineHighValid (pass.gpio 0))).filtered = d.filtered
  · rw [if_pos kept] at result
    simp only [scanKeys, result]
    exact (if_pos kept).symm
  · rw [if_neg kept] at result
    simp only [scanKeys, result, codes kept]
    exact (keyEvent_keys ..).trans (if_neg kept).symm

-----------------------------------------------------------------------------------------
-- Runs
-----------------------------------------------------------------------------------------

/-- The filter behind the passes. -/
def debounced (kbLineHighValid : Bool) (passes : List Pass) : Debounce :=
  passes.foldl (fun d pass => d.next (pass.keys kbLineHighValid)) {}

/-- The first key is down in one of two passes. -/
def DownInOne (kbLineHighValid : Bool) (before after : Pass) : Prop :=
  (before.keys kbLineHighValid).sw1 ∨ (after.keys kbLineHighValid).sw1

/-- The scan of the pass returns a key event that has the first key. -/
def AppCtx.ReportsFirst (s : AppCtx) (kbLineHighValid : Bool) (pass : Pass) : Prop :=
  let after := s.driver.scanKey twoKeyBoard kbLineHighValid pass.gpio
  after.1 ≠ 0 ∧ vkSw1 ∈ after.2.scan.kbEvent.keycode

/-- The report that started the five seconds had the first key, and the key has been down ever
since.
-/
def HeldSince (ui : Ui) (kbLineHighValid : Bool) (passes : List Pass) (keyPressedTime : UInt32)
    : Prop :=
  ∃ earlier press held before, passes = earlier ++ press :: held
    ∧ (appKeyHandlers ui kbLineHighValid earlier {}).2 = some before
    ∧ before.ReportsFirst kbLineHighValid press
    ∧ keyPressedTime = UInt32.ofNat press.pressTick
    ∧ (press :: held).IsChain (DownInOne kbLineHighValid)

/-- A state that the passes lead to. -/
structure AppCtx.After (s : AppCtx) (ui : Ui) (kbLineHighValid : Bool) (passes : List Pass)
    : Prop where
  tracks : s.driver.Tracks (debounced kbLineHighValid passes)
  held : s.state = .appFactoryNewSetCheck → s.validKeyCode = vkSw1
    → (debounced kbLineHighValid passes).filtered.sw1
      ∧ HeldSince ui kbLineHighValid passes s.keyPressedTime

theorem AppCtx.after_nil : AppCtx.After {} ui kbLineHighValid [] where
  tracks := kbStart_tracks
  held checking := nomatch checking

theorem debounced_append (passes : List Pass) (pass : Pass)
    : debounced kbLineHighValid (passes ++ [pass])
      = (debounced kbLineHighValid passes).next (pass.keys kbLineHighValid) := by
  simp [debounced]

/-- The raw keys are those of the last pass. -/
theorem debounced_raw (passes : List Pass) (pass : Pass)
    : (debounced kbLineHighValid (passes ++ [pass])).raw = pass.keys kbLineHighValid := by
  rw [debounced_append]
  rfl

/-- A key that stays filtered is down in this pass or was in the last one. -/
theorem HeldSince.append {passes : List Pass} {pass : Pass} {keyPressedTime : UInt32}
    (held : HeldSince ui kbLineHighValid passes keyPressedTime)
    (filtered : (debounced kbLineHighValid passes).filtered.sw1)
    (stays : (debounced kbLineHighValid (passes ++ [pass])).filtered.sw1)
    : HeldSince ui kbLineHighValid (passes ++ [pass]) keyPressedTime := by
  obtain ⟨earlier, press, held, before, rfl, run, reports, time, chain⟩ := held
  refine ⟨earlier, press, held ++ [pass], before, by simp, run, reports, time, ?_⟩
  rw [← List.cons_append, List.isChain_append]
  refine ⟨chain, List.isChain_singleton pass, ?_⟩
  intro last is_last after is_after
  obtain rfl : pass = after := by simpa using is_after
  obtain ⟨start, split⟩ := List.getLast?_eq_some_iff.mp is_last
  have raw : (debounced kbLineHighValid (earlier ++ press :: held)).raw
      = last.keys kbLineHighValid := by
    rw [split, ← List.append_assoc, debounced_raw]
  rw [debounced_append] at stays
  simp only [Debounce.next, Keys.majority, filtered, raw] at stays
  cases down : (last.keys kbLineHighValid).sw1 with
  | true => exact .inl down
  | false =>
      right
      simpa [down, Bool.atLeastTwo] using stays

/-- The check for a long press finds the first key. -/
def AppCtx.Resets (s : AppCtx) (pass : Pass) : Prop :=
  (s.state = .appFactoryNewSetCheck
    ∧ clockTimeExceed pass.checkTick s.keyPressedTime (5 * 1000 * 1000) = true)
  ∧ s.validKeyCode = vkSw1

theorem appKeyHandler_resets {pass : Pass} {s : AppCtx} (resets : s.Resets pass)
    : appKeyHandler ui kbLineHighValid pass s = ([.nvResetToFactoryNew], none) := by
  obtain ⟨long, first⟩ := resets
  simp only [appKeyHandler]
  rw [if_pos long]
  simp only [buttonKeepPressed, if_pos first]

/-- A handler that does not reset the system leaves the state to the scan. -/
theorem appKeyHandler_goes_on {pass : Pass} {s : AppCtx} (goes_on : ¬s.Resets pass)
    : (appKeyHandler ui kbLineHighValid pass s).2
      = some (scanKeys ui kbLineHighValid pass s).2 := by
  simp only [appKeyHandler]
  split_ifs with long
  · have other : s.validKeyCode ≠ vkSw1 := fun first => goes_on ⟨long, first⟩
    simp only [buttonKeepPressed, if_neg other]
    split_ifs <;> rfl
  · rfl

theorem appKeyHandler_eq_none_iff {pass : Pass} {s : AppCtx}
    : (appKeyHandler ui kbLineHighValid pass s).2 = none ↔ s.Resets pass := by
  constructor
  · intro reset
    by_contra goes_on
    cases (appKeyHandler_goes_on goes_on).symm.trans reset
  · intro resets
    rw [appKeyHandler_resets resets]

/-- A change of the filtered keys to some with the first one is reported. -/
theorem AppCtx.reportsFirst {s : AppCtx} {d : Debounce} (tracks : s.driver.Tracks d) {pass : Pass}
    (steady : Steady pass.gpio)
    (changed : (d.next (pass.keys kbLineHighValid)).filtered ≠ d.filtered)
    (first : (d.next (pass.keys kbLineHighValid)).filtered.sw1)
    : s.ReportsFirst kbLineHighValid pass := by
  obtain ⟨result, codes, -⟩ := tracks.scanKey kbLineHighValid steady
  have code : vkSw1 ∈ (d.next (pass.keys kbLineHighValid)).filtered.codes := by
    simp [Keys.codes, first]
  have one := result.trans (if_neg changed)
  simp only [AppCtx.ReportsFirst]
  rw [one, codes changed]
  exact ⟨by decide, code⟩

/-- A report of the first key starts the five seconds anew. -/
theorem HeldSince.start {passes : List Pass} {press : Pass} {before : AppCtx}
    (run : (appKeyHandlers ui kbLineHighValid passes {}).2 = some before)
    (reports : before.ReportsFirst kbLineHighValid press)
    : HeldSince ui kbLineHighValid (passes ++ [press]) (UInt32.ofNat press.pressTick) :=
  ⟨passes, press, [], before, rfl, run, reports, rfl, List.isChain_singleton press⟩

theorem AppCtx.After.scan {s : AppCtx} {passes : List Pass}
    (after : s.After ui kbLineHighValid passes)
    (run : (appKeyHandlers ui kbLineHighValid passes {}).2 = some s)
    {pass : Pass} (steady : Steady pass.gpio)
    : (scanKeys ui kbLineHighValid pass s).2.After ui kbLineHighValid (passes ++ [pass]) := by
  obtain ⟨driver, tracks, result⟩ :=
    scanKeys_tracks after.tracks steady (debounced_append passes pass).symm
  rw [result]
  have reports (changed : ¬(debounced kbLineHighValid (passes ++ [pass])).filtered
        = (debounced kbLineHighValid passes).filtered)
      (first : (debounced kbLineHighValid (passes ++ [pass])).filtered.sw1)
      : s.ReportsFirst kbLineHighValid pass := by
    rw [debounced_append] at changed first
    exact AppCtx.reportsFirst after.tracks steady changed first
  split_ifs with kept
  · refine ⟨tracks, fun checking first => ?_⟩
    obtain ⟨filtered, held⟩ := after.held checking first
    have stays : (debounced kbLineHighValid (passes ++ [pass])).filtered.sw1 := kept ▸ filtered
    exact ⟨stays, held.append filtered stays⟩
  · generalize down : (debounced kbLineHighValid (passes ++ [pass])).filtered = keys
    induction keys using Keys.cases with
    | none => exact ⟨tracks, fun checking => nomatch checking⟩
    | first =>
        have filtered : (debounced kbLineHighValid (passes ++ [pass])).filtered.sw1 := by rw [down]
        exact ⟨tracks, fun _ _ => ⟨filtered, .start run (reports kept filtered)⟩⟩
    | second =>
        exact ⟨tracks, fun _ (first : vkSw2 = vkSw1) => absurd first (by decide)⟩
    | both =>
        have filtered : (debounced kbLineHighValid (passes ++ [pass])).filtered.sw1 := by rw [down]
        exact ⟨tracks, fun _ _ => ⟨filtered, .start run (reports kept filtered)⟩⟩

/-- More passes go on from the state that the first ones have left. -/
theorem appKeyHandlers_append (passes more : List Pass) (s : AppCtx)
    : (appKeyHandlers ui kbLineHighValid (passes ++ more) s).2
      = (appKeyHandlers ui kbLineHighValid passes s).2.bind fun s =>
          (appKeyHandlers ui kbLineHighValid more s).2 := by
  induction passes generalizing s with
  | nil => rfl
  | cons first rest ih =>
      simp only [List.cons_append, appKeyHandlers]
      cases appKeyHandler ui kbLineHighValid first s with
      | mk actions after =>
          cases after with
          | none => rfl
          | some s => exact ih s

theorem appKeyHandlers_singleton (pass : Pass) (s : AppCtx)
    : (appKeyHandlers ui kbLineHighValid [pass] s).2
      = (appKeyHandler ui kbLineHighValid pass s).2 := by
  simp only [appKeyHandlers]
  cases appKeyHandler ui kbLineHighValid pass s with
  | mk actions after => cases after <;> rfl

/-- By induction over the passes, from the last one. -/
theorem appKeyHandlers_after (passes : List Pass) (steady : ∀ pass ∈ passes, Steady pass.gpio)
    {s : AppCtx} (running : (appKeyHandlers ui kbLineHighValid passes {}).2 = some s)
    : s.After ui kbLineHighValid passes := by
  induction passes using List.reverseRecOn generalizing s with
  | nil =>
      obtain rfl := Option.some.inj running
      exact AppCtx.after_nil
  | append_singleton passes pass ih =>
      rw [appKeyHandlers_append] at running
      obtain ⟨before, earlier, step⟩ := Option.bind_eq_some_iff.mp running
      rw [appKeyHandlers_singleton] at step
      have goes_on : ¬before.Resets pass := by
        rw [← appKeyHandler_eq_none_iff, step]
        exact Option.some_ne_none s
      obtain rfl := Option.some.inj ((appKeyHandler_goes_on goes_on).symm.trans step)
      exact (ih (fun pass mem => steady pass (List.mem_append_left _ mem)) earlier).scan earlier
        (steady pass (List.mem_append_right _ (List.mem_singleton_self pass)))

/-- In any run the system is only reset to factory new when the first key has been held for more
than five seconds: since a pass more than five seconds ago that reported it, no two passes in a row
have found it up.
-/
theorem appKeyHandler_nvReset_held {before : List Pass} {pass : Pass} {s : AppCtx}
    (steady : ∀ pass ∈ before, Steady pass.gpio)
    (ordered : (before ++ [pass]).Pairwise fun p q => p.pressTick ≤ q.checkTick)
    (running : (appKeyHandlers ui kbLineHighValid before {}).2 = some s)
    (reset : (appKeyHandler ui kbLineHighValid pass s).2 = none)
    : ∃ earlier press held s₁,
      before = earlier ++ press :: held
      ∧ (appKeyHandlers ui kbLineHighValid earlier {}).2 = some s₁
      ∧ s₁.ReportsFirst kbLineHighValid press
      ∧ press.pressTick + 80000000 < pass.checkTick
      ∧ (press :: held).IsChain (DownInOne kbLineHighValid) := by
  obtain ⟨⟨checking, exceed⟩, first⟩ := appKeyHandler_eq_none_iff.mp reset
  obtain ⟨earlier, press, held, s₁, rfl, run, reports, time, chain⟩ :=
    ((appKeyHandlers_after before steady running).held checking first).2
  refine ⟨earlier, press, held, s₁, rfl, run, reports, ?_, chain⟩
  have pressed_before : press.pressTick ≤ pass.checkTick :=
    (List.pairwise_append.mp ordered).2.2 press (by simp) pass (List.mem_singleton_self pass)
  exact late_of_exceed pressed_before (time ▸ exceed)

/-- Pins that are low for a key that is down. -/
def Pass.firstDown (tick : Nat) : Pass := ⟨fun _ i => i ≠ 0, tick, tick, true⟩

def Pass.allUp (tick : Nat) : Pass := ⟨fun _ _ => true, tick, tick, true⟩

/-- The first key goes down and bounces once. -/
theorem appKeyHandler_nvReset_held_bounce
    : let passes := [Pass.allUp 0, .firstDown 1, .firstDown 2, .allUp 3, .firstDown 4]
      ∃ earlier press held s₁,
        passes = earlier ++ press :: held
        ∧ (appKeyHandlers deviceUi false earlier {}).2 = some s₁
        ∧ s₁.ReportsFirst false press
        ∧ press.pressTick + 80000000 < 80000003
        ∧ (press :: held).IsChain (DownInOne false) := by
  refine @appKeyHandler_nvReset_held deviceUi false _ (Pass.firstDown 80000003) _ ?_ (by decide)
    rfl rfl
  simp only [List.forall_mem_cons, List.not_mem_nil, false_implies, implies_true, and_true]
  exact ⟨fun _ => rfl, fun _ => rfl, fun _ => rfl, fun _ => rfl, fun _ => rfl⟩

/-- The five seconds of a first key that is down are running. -/
structure AppCtx.Holding (s : AppCtx) (tick : Nat) : Prop where
  tracks : s.driver.Tracks ⟨⟨true, false⟩, ⟨true, false⟩⟩
  checking : s.state = .appFactoryNewSetCheck
  time : s.keyPressedTime = UInt32.ofNat tick
  first : s.validKeyCode = vkSw1

/-- A pass that finds the key still down changes nothing, or resets the system. -/
theorem AppCtx.Holding.pass {s : AppCtx} {tick : Nat} (holding : s.Holding tick) {pass : Pass}
    (steady : Steady pass.gpio) (down : pass.keys kbLineHighValid = ⟨true, false⟩)
    : (appKeyHandler ui kbLineHighValid pass s).2 = none
      ∨ ∃ s', (appKeyHandler ui kbLineHighValid pass s).2 = some s' ∧ s'.Holding tick := by
  by_cases resets : s.Resets pass
  · exact .inl (appKeyHandler_eq_none_iff.mpr resets)
  obtain ⟨driver, tracks, result⟩ :=
    @scanKeys_tracks ui kbLineHighValid _ _ _ holding.tracks _ steady
      (congrArg (Debounce.next · _) down)
  refine .inr ⟨_, appKeyHandler_goes_on resets, ?_⟩
  rw [result]
  exact ⟨tracks, holding.checking, holding.time, holding.first⟩

/-- By induction over the passes that find the key still down. -/
theorem AppCtx.Holding.passes {s : AppCtx} {tick : Nat} (holding : s.Holding tick)
    {held : List Pass}
    (down : ∀ pass ∈ held, Steady pass.gpio ∧ pass.keys kbLineHighValid = ⟨true, false⟩)
    : (appKeyHandlers ui kbLineHighValid held s).2 = none
      ∨ ∃ s', (appKeyHandlers ui kbLineHighValid held s).2 = some s' ∧ s'.Holding tick := by
  induction held generalizing s with
  | nil => exact .inr ⟨s, rfl, holding⟩
  | cons pass rest ih =>
      obtain ⟨first, later⟩ := List.forall_mem_cons.mp down
      rw [← List.singleton_append, appKeyHandlers_append, appKeyHandlers_singleton]
      obtain reset | ⟨s', goes_on, still⟩ :=
        @AppCtx.Holding.pass ui _ _ _ holding _ first.1 first.2
      · rw [reset]
        exact .inl rfl
      · rw [goes_on]
        exact ih still later

/-- The first pass that finds the key down only tells the filter. -/
theorem scanKeys_first {s : AppCtx} (idle : s.driver.Tracks {}) {pass : Pass}
    (steady : Steady pass.gpio) (down : pass.keys kbLineHighValid = ⟨true, false⟩)
    : (scanKeys ui kbLineHighValid pass s).2.driver.Tracks ⟨{}, ⟨true, false⟩⟩ := by
  obtain ⟨driver, tracks, result⟩ :=
    @scanKeys_tracks ui kbLineHighValid _ _ _ idle _ steady (congrArg (Debounce.next · _) down)
  rw [result]
  exact tracks

/-- The second one starts the five seconds. -/
theorem scanKeys_second {s : AppCtx} (once : s.driver.Tracks ⟨{}, ⟨true, false⟩⟩) {pass : Pass}
    (steady : Steady pass.gpio) (down : pass.keys kbLineHighValid = ⟨true, false⟩)
    : (scanKeys ui kbLineHighValid pass s).2.Holding pass.pressTick := by
  obtain ⟨driver, tracks, result⟩ :=
    @scanKeys_tracks ui kbLineHighValid _ _ _ once _ steady (congrArg (Debounce.next · _) down)
  rw [result]
  exact ⟨tracks, rfl, rfl, rfl⟩

/-- A pass that only scans, or has reset the system. -/
theorem appKeyHandlers_cons (pass : Pass) (rest : List Pass) (s : AppCtx)
    : (appKeyHandlers ui kbLineHighValid (pass :: rest) s).2 = none
      ∨ (appKeyHandlers ui kbLineHighValid (pass :: rest) s).2
        = (appKeyHandlers ui kbLineHighValid rest (scanKeys ui kbLineHighValid pass s).2).2 := by
  rw [← List.singleton_append, appKeyHandlers_append, appKeyHandlers_singleton]
  by_cases resets : s.Resets pass
  · rw [appKeyHandler_eq_none_iff.mpr resets]
    exact .inl rfl
  · rw [appKeyHandler_goes_on resets]
    exact .inr rfl

/-- A first key alone that is held for more than five seconds resets the system to factory new, in
any state of the application: two passes have found no key down, then it is down in every pass, and
some pass comes more than five seconds after the second of these and before the counter of the ticks
is back.
-/
theorem appKeyHandlers_held_nvReset {before : List Pass} {up up' first second pass : Pass}
    {held : List Pass}
    (steady : ∀ p ∈ before ++ [up, up', first, second] ++ held, Steady p.gpio)
    (none_down : up.keys kbLineHighValid = {} ∧ up'.keys kbLineHighValid = {})
    (first_down : ∀ p ∈ [first, second] ++ held, p.keys kbLineHighValid = ⟨true, false⟩)
    (late : second.pressTick + 80000000 < pass.checkTick)
    (once : pass.checkTick < second.pressTick + 4294967296)
    : (appKeyHandlers ui kbLineHighValid
        (before ++ [up, up', first, second] ++ held ++ [pass]) {}).2 = none := by
  have steady_of : ∀ p ∈ [up, up', first, second] ++ held, Steady p.gpio := fun p mem =>
    steady p (by rw [List.append_assoc]; exact List.mem_append_right _ mem)
  have idle : debounced kbLineHighValid (before ++ [up, up']) = {} := by
    simp [debounced, none_down, Debounce.next, Keys.majority_none]
  have regroup : before ++ [up, up', first, second] ++ held ++ [pass]
      = (before ++ [up, up']) ++ first :: second :: (held ++ [pass]) := by
    simp
  rw [regroup, appKeyHandlers_append]
  cases running : (appKeyHandlers ui kbLineHighValid (before ++ [up, up']) {}).2 with
  | none => rfl
  | some s =>
      have after := appKeyHandlers_after _
        (fun p mem => steady p (by simp only [List.mem_append, List.mem_cons] at mem ⊢; tauto))
        running
      have tracks := idle ▸ after.tracks
      rw [Option.bind_some]
      obtain reset | scanned :=
        @appKeyHandlers_cons ui kbLineHighValid first (second :: (held ++ [pass])) s
      · exact reset
      have told := @scanKeys_first ui _ _ tracks _ (steady_of first (by simp))
        (first_down first (by simp))
      rw [scanned]
      generalize (scanKeys ui kbLineHighValid first s).2 = s at told
      obtain reset | scanned := @appKeyHandlers_cons ui kbLineHighValid second (held ++ [pass]) s
      · exact reset
      have holding := @scanKeys_second ui _ _ told _ (steady_of second (by simp))
        (first_down second (by simp))
      rw [scanned, appKeyHandlers_append]
      obtain reset | ⟨s', goes_on, still⟩ :=
        @AppCtx.Holding.passes ui kbLineHighValid _ _ holding held
          fun p mem => ⟨steady_of p (by simp [mem]), first_down p (by simp [mem])⟩
      · rw [reset]
        rfl
      · rw [goes_on, Option.bind_some, appKeyHandlers_singleton, appKeyHandler_eq_none_iff]
        exact ⟨⟨still.checking, still.time ▸ exceed_of_late late once⟩, still.first⟩

/-- The key is held after a run in which the second key came and went. -/
theorem appKeyHandlers_held_nvReset_passes
    : let second : Pass := ⟨fun _ i => i ≠ 1, 1, 2, false⟩
      (appKeyHandlers coorUi false
        ([.allUp 0, second, second] ++ [.allUp 5, .allUp 6, .firstDown 7, .firstDown 8]
          ++ [.firstDown 9] ++ [.allUp 80000009]) {}).2 = none := by
  refine appKeyHandlers_held_nvReset ?_ (by decide) (by decide) (by decide) (by decide)
  simp only [List.cons_append, List.nil_append, List.forall_mem_cons, List.not_mem_nil,
    false_implies, implies_true, and_true]
  exact ⟨fun _ => rfl, fun _ => rfl, fun _ => rfl, fun _ => rfl, fun _ => rfl, fun _ => rfl,
    fun _ => rfl, fun _ => rfl⟩

end TelinkSdk.AppUi
