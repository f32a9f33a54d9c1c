import TelinkSdk.Drivers.Keyboard

/-! The pins behind the keyboard scan of `drv_keyboard.c`, and what the scan comes to on a board
with two keys on one line: a change of the filtered keys is reported in the pass that finds it.
-/

namespace TelinkSdk.Keyboard

open Rings

-----------------------------------------------------------------------------------------
-- The driver
-----------------------------------------------------------------------------------------

/-- The level of each scan pin, as one `drv_gpio_read_all` finds it. -/
abbrev Gpio := Nat → Bool

/-- The static variables of `kb_key_pressed`. -/
structure KbPins where
  releaseCnt : UInt8 := 0
  retLast : UInt32 := 0

/-- `KB_LINE_HIGH_VALID != !gpio_read_cache(scan_pins[i], gpio)` -/
def pinPressed (kbLineHighValid : Bool) (gpio : Gpio) (i : Nat) : Bool :=
  kbLineHighValid != !gpio i

def kbKeyPressed {n : Nat} (board : KbBoard n) (kbLineHighValid : Bool) (gpio : Gpio) (s : KbPins)
    : UInt32 × KbPins :=
  let (ret, s) :=
    (List.range board.scanPins).foldl
      (fun (state : UInt32 × KbPins) i =>
        if pinPressed kbLineHighValid gpio i then
          let ret := state.1 ||| 1 <<< UInt32.ofNat i
          (ret, { releaseCnt := 6, retLast := ret })
        else state)
      (0, s)
  if s.releaseCnt ≠ 0 then (s.retLast, { s with releaseCnt := s.releaseCnt - 1 }) else (ret, s)

def kbScanRow {n : Nat} (board : KbBoard n) (kbLineHighValid : Bool) (scanPinNeed : UInt32)
    (gpio : Gpio)
    : UInt32 :=
  (List.range board.scanPins).foldl
    (fun matrix j =>
      if scanPinNeed &&& 1 <<< UInt32.ofNat j ≠ 0 ∧ pinPressed kbLineHighValid gpio j then
        matrix ||| 1 <<< UInt32.ofNat j
      else matrix)
    0

/-- The part of `kb_scan_key(0, 1)` that reads the pins, from the readings of the pass in their
order. Each call of `kb_scan_row` decodes the reading that the call before it has left behind, and
the first two calls are for nothing, so that the row of drive pin `i` is in reading `i + 2`.
-/
def kbReadPins {n : Nat} (board : KbBoard n) (kbLineHighValid : Bool) (gpio : Nat → Gpio)
    (s : KbPins)
    : KbScan n × KbPins :=
  let (scanPinNeed, s) := kbKeyPressed board kbLineHighValid (gpio 0) s
  ({ scanPinNeed
     rows i := kbScanRow board kbLineHighValid scanPinNeed (gpio (i + 2))
     numlockStatus := 0
     readKey := true },
   s)

/-- The scan with the static variables of both parts. -/
structure KbDriver (n : Nat) where
  pins : KbPins := {}
  scan : KbState n := kbStart n

def KbDriver.scanKey {n : Nat} (board : KbBoard n) (kbLineHighValid : Bool) (gpio : Nat → Gpio)
    (s : KbDriver n)
    : UInt32 × KbDriver n :=
  let (scan, pins) := kbReadPins board kbLineHighValid gpio s.pins
  let (result, scan) := kbScanKey board scan s.scan
  (result.1, { pins, scan })

-----------------------------------------------------------------------------------------
-- Two keys
-----------------------------------------------------------------------------------------

abbrev vkSw1 : UInt8 := 1
abbrev vkSw2 : UInt8 := 2

/-- `KB_DRIVE_PINS {0}`, `KB_SCAN_PINS {BUTTON1, BUTTON2}` and `KB_MAP_NORMAL`. -/
def twoKeyBoard : KbBoard 1 where
  scanPins := 2
  kbMapNormal i _ := if i = 0 then vkSw1 else vkSw2

structure Keys where
  sw1 : Bool := false
  sw2 : Bool := false
  deriving DecidableEq

/-- The keys that one reading finds down. -/
def keysDown (kbLineHighValid : Bool) (gpio : Gpio) : Keys where
  sw1 := pinPressed kbLineHighValid gpio 0
  sw2 := pinPressed kbLineHighValid gpio 1

def Keys.mask (keys : Keys) : UInt32 :=
  (if keys.sw1 then 1 else 0) ||| if keys.sw2 then 2 else 0

def Keys.matrix (keys : Keys) : KbMatrix 1 := fun _ => keys.mask

def Keys.codes (keys : Keys) : List UInt8 :=
  (if keys.sw1 then [vkSw1] else []) ++ if keys.sw2 then [vkSw2] else []

def Keys.majority (a b c : Keys) : Keys where
  sw1 := Bool.atLeastTwo a.sw1 b.sw1 c.sw1
  sw2 := Bool.atLeastTwo a.sw2 b.sw2 c.sw2

/-- The filtered keys, and the ones that were down in the last pass. -/
structure Debounce where
  filtered : Keys := {}
  raw : Keys := {}

def Debounce.next (keys : Keys) (d : Debounce) : Debounce where
  filtered := d.filtered.majority d.raw keys
  raw := keys

/-- A property of all keys, over the values of both. -/
theorem Keys.cases {P : Keys → Prop} (none : P ⟨false, false⟩) (first : P ⟨true, false⟩)
    (second : P ⟨false, true⟩) (both : P ⟨true, true⟩) (keys : Keys)
    : P keys := by
  obtain ⟨sw1, sw2⟩ := keys
  cases sw1 <;> cases sw2 <;> assumption

theorem Keys.mask_injective {a b : Keys} (same : a.mask = b.mask) : a = b := by
  revert same
  induction a using Keys.cases <;> induction b using Keys.cases <;> decide

theorem Keys.matrix_eq_iff {a b : Keys} : a.matrix = b.matrix ↔ a = b :=
  ⟨fun same => Keys.mask_injective (congrFun same 0), fun same => same ▸ rfl⟩

theorem Keys.mask_eq_zero_iff {keys : Keys} : keys.mask = 0 ↔ keys = {} :=
  ⟨fun zero => Keys.mask_injective zero, fun none => none ▸ rfl⟩

theorem Keys.mask_majority (a b c : Keys)
    : Keyboard.majority a.mask b.mask c.mask = (a.majority b c).mask := by
  induction a using Keys.cases <;> induction b using Keys.cases <;> induction c using Keys.cases
    <;> decide

theorem Keys.majority_none (keys : Keys) : keys.majority {} {} = {} := by
  induction keys using Keys.cases <;> decide

theorem kbReadOut_keys (keys : Keys)
    : (kbReadOut twoKeyBoard keys.matrix {}).keycode = keys.codes := by
  induction keys using Keys.cases <;> decide

-----------------------------------------------------------------------------------------
-- One pass
-----------------------------------------------------------------------------------------

theorem range_scanPins : List.range twoKeyBoard.scanPins = [0, 1] := rfl

theorem second_pin : (1 : UInt32) <<< (1 : UInt32) = 2 := rfl

/-- Keys that are down are asked for. When there are none, what was down last is asked for again,
for the passes that are left.
-/
theorem kbKeyPressed_keys (kbLineHighValid : Bool) (gpio : Gpio) (s : KbPins)
    : kbKeyPressed twoKeyBoard kbLineHighValid gpio s
      = if keysDown kbLineHighValid gpio = {} then
          if s.releaseCnt ≠ 0 then (s.retLast, { s with releaseCnt := s.releaseCnt - 1 })
          else (0, s)
        else
          ((keysDown kbLineHighValid gpio).mask,
            { releaseCnt := 5, retLast := (keysDown kbLineHighValid gpio).mask }) := by
  cases first : pinPressed kbLineHighValid gpio 0
    <;> cases second : pinPressed kbLineHighValid gpio 1
    <;> simp [kbKeyPressed, range_scanPins, second_pin, keysDown, first, second, Keys.mask]

theorem kbScanRow_none {kbLineHighValid : Bool} {gpio : Gpio}
    (up : keysDown kbLineHighValid gpio = {}) (scanPinNeed : UInt32)
    : kbScanRow twoKeyBoard kbLineHighValid scanPinNeed gpio = 0 := by
  obtain ⟨first, second⟩ := Keys.mk.inj up
  simp [kbScanRow, range_scanPins, first, second]

theorem kbScanRow_down (kbLineHighValid : Bool) (gpio : Gpio)
    : kbScanRow twoKeyBoard kbLineHighValid (keysDown kbLineHighValid gpio).mask gpio
      = (keysDown kbLineHighValid gpio).mask := by
  cases first : pinPressed kbLineHighValid gpio 0
    <;> cases second : pinPressed kbLineHighValid gpio 1
    <;> simp only [kbScanRow, range_scanPins, keysDown, first, second, Keys.mask, List.foldl_cons,
      List.foldl_nil]
    <;> rfl

/-- The pins do not change while a pass reads them. -/
def Steady (gpio : Nat → Gpio) : Prop := ∀ r, gpio r = gpio 0

/-- The driver holds the filtered keys, and has reported all of their changes. -/
def Reported (s : KbState 1) (d : Debounce) : Prop :=
  ∃ ring t, Refines s ring t
    ∧ t.filtered = d.filtered.matrix ∧ t.raw = d.raw.matrix ∧ t.pending = []

/-- The driver goes on scanning until the filter has settled. -/
structure KbDriver.Tracks (s : KbDriver 1) (d : Debounce) : Prop where
  reported : Reported s.scan d
  scanning : s.pins.releaseCnt ≠ 0 → s.pins.retLast ≠ 0
  settling : s.pins.releaseCnt ≤ 4 → d.raw = {}
  settled : s.pins.releaseCnt ≤ 3 → d.filtered = {}

theorem kbStart_tracks : KbDriver.Tracks {} {} where
  reported := ⟨_, _, kbStart_refines 1, rfl, rfl, rfl⟩
  scanning impossible := absurd rfl impossible
  settling _ := rfl
  settled _ := rfl

/-- A scan that reads out has the key codes of what it reads out. -/
theorem kbScanKey_readOut {n : Nat} {board : KbBoard n} {scan : KbScan n} {s : KbState n}
    {pd : KbMatrix n} (readOut : (kbScanKey board scan s).1 = (1, some pd))
    : (kbScanKey board scan s).2.kbEvent = kbReadOut board pd {} := by
  have pushed (m : KbMatrix n) (s : KbState n) : (kbPush m s).kbEvent = s.kbEvent := by
    simp only [kbPush]
    split <;> rfl
  revert readOut
  simp only [kbScanKey, keyDebounceFilter_eq]
  split_ifs <;> intro readOut <;> cases readOut <;> simp only [pushed]

/-- The scan of one pass, for the matrix that is filtered. -/
theorem KbSpec.scan_keys {t : KbSpec 1} {d : Debounce} (filtered : t.filtered = d.filtered.matrix)
    (raw : t.raw = d.raw.matrix) (reported : t.pending = []) {scan : KbScan 1} {keys : Keys}
    (rows : scan.rows = keys.matrix) (asked : scan.scanPinNeed ≠ 0)
    (numlock : scan.numlockStatus = 0) (reading : scan.readKey = true)
    : (t.scan twoKeyBoard scan).1
        = (if (d.next keys).filtered = d.filtered then (0, none)
          else (1, some (d.next keys).filtered.matrix))
      ∧ (t.scan twoKeyBoard scan).2.filtered = (d.next keys).filtered.matrix
      ∧ (t.scan twoKeyBoard scan).2.raw = (d.next keys).raw.matrix
      ∧ (t.scan twoKeyBoard scan).2.pending = [] := by
  obtain ⟨_, _, changes, _⟩ := t
  subst filtered raw reported
  have pressed : scan.pressedMatrix twoKeyBoard = keys.matrix := rows
  have majority
      : (fun i => Keyboard.majority (d.filtered.matrix i) (d.raw.matrix i) (keys.matrix i))
        = (d.next keys).filtered.matrix := by
    funext i
    exact Keys.mask_majority ..
  simp only [KbSpec.scan, if_neg asked, KbSpec.filter, pressed, majority, Keys.matrix_eq_iff,
    numlock, reading]
  by_cases kept : (d.next keys).filtered = d.filtered
  · simp only [if_pos kept]
    exact ⟨rfl, kept ▸ rfl, rfl, rfl⟩
  · simp only [if_neg kept]
    exact ⟨rfl, rfl, rfl, rfl⟩

/-- A scan returns one for a change of the filtered keys, and has their codes. -/
theorem Reported.scanKey {s : KbState 1} {d : Debounce} (reported : Reported s d)
    {scan : KbScan 1} {keys : Keys} (rows : scan.rows = keys.matrix) (asked : scan.scanPinNeed ≠ 0)
    (numlock : scan.numlockStatus = 0) (reading : scan.readKey = true)
    : (kbScanKey twoKeyBoard scan s).1.1 = (if (d.next keys).filtered = d.filtered then 0 else 1)
      ∧ ((d.next keys).filtered ≠ d.filtered
        → (kbScanKey twoKeyBoard scan s).2.kbEvent.keycode = (d.next keys).filtered.codes)
      ∧ Reported (kbScanKey twoKeyBoard scan s).2 (d.next keys) := by
  obtain ⟨ring, t, refines, filtered, raw, pending⟩ := reported
  obtain ⟨result, after⟩ := KbSpec.scan_keys filtered raw pending rows asked numlock reading
  obtain ⟨agrees, ring', refines'⟩ := refines.scan twoKeyBoard scan
  refine ⟨?_, ?_, ring', _, refines', after⟩
  · rw [agrees, result]
    split_ifs <;> rfl
  · intro changed
    have readOut := kbScanKey_readOut (agrees.trans (result.trans (if_neg changed)))
    exact (congrArg KbData.keycode readOut).trans (kbReadOut_keys _)

/-- A pass whose reading asks for the keys. -/
theorem KbDriver.Tracks.scanKey_asked {s : KbDriver 1} {d : Debounce} (tracks : s.Tracks d)
    {kbLineHighValid : Bool} {gpio : Nat → Gpio} (steady : Steady gpio) {need : UInt32}
    {pins : KbPins} {keys : Keys}
    (pressed : kbKeyPressed twoKeyBoard kbLineHighValid (gpio 0) s.pins = (need, pins))
    (asked : need ≠ 0) (row : kbScanRow twoKeyBoard kbLineHighValid need (gpio 0) = keys.mask)
    : let after := s.scanKey twoKeyBoard kbLineHighValid gpio
      after.1 = (if (d.next keys).filtered = d.filtered then 0 else 1)
      ∧ ((d.next keys).filtered ≠ d.filtered
        → after.2.scan.kbEvent.keycode = (d.next keys).filtered.codes)
      ∧ Reported after.2.scan (d.next keys)
      ∧ after.2.pins = pins := by
  have rows : (fun i : Fin 1 => kbScanRow twoKeyBoard kbLineHighValid need (gpio (i + 2)))
      = keys.matrix := by
    funext i
    rw [steady, row]
    rfl
  simp only [KbDriver.scanKey, kbReadPins, pressed, rows, and_true]
  exact tracks.reported.scanKey rfl asked rfl rfl

/-- A pass returns one for a change of the filtered keys, and has their codes. -/
theorem KbDriver.Tracks.scanKey {s : KbDriver 1} {d : Debounce} (tracks : s.Tracks d)
    (kbLineHighValid : Bool) {gpio : Nat → Gpio} (steady : Steady gpio)
    : let next := d.next (keysDown kbLineHighValid (gpio 0))
      let after := s.scanKey twoKeyBoard kbLineHighValid gpio
      after.1 = (if next.filtered = d.filtered then 0 else 1)
      ∧ (next.filtered ≠ d.filtered → after.2.scan.kbEvent.keycode = next.filtered.codes)
      ∧ after.2.Tracks next := by
  have pressed := kbKeyPressed_keys kbLineHighValid (gpio 0) s.pins
  by_cases up : keysDown kbLineHighValid (gpio 0) = {}
  · rw [if_pos up] at pressed
    by_cases settled : s.pins.releaseCnt = 0
    · -- nothing is scanned, and nothing has to be
      rw [if_neg (not_not_intro settled)] at pressed
      have low : s.pins.releaseCnt ≤ 3 := by rw [settled]; decide
      have filtered := tracks.settled low
      have raw := tracks.settling (by rw [settled]; decide)
      have same : d.next (keysDown kbLineHighValid (gpio 0)) = d := by
        obtain ⟨_, _⟩ := d
        subst filtered raw
        rw [up]
        rfl
      have idle : s.scanKey twoKeyBoard kbLineHighValid gpio = (0, s) := by
        simp only [KbDriver.scanKey, kbReadPins, pressed, kbScanKey, if_pos]
      simp only [idle, same, if_true, ne_eq, not_true_eq_false, false_implies, true_and]
      exact tracks
    · rw [if_pos settled] at pressed
      have row : kbScanRow twoKeyBoard kbLineHighValid s.pins.retLast (gpio 0) = Keys.mask {} :=
        kbScanRow_none up _
      obtain ⟨result, codes, reported, pins⟩ := tracks.scanKey_asked steady pressed
        (tracks.scanning settled) row
      rw [up]
      refine ⟨result, codes, reported, ?_, fun _ => rfl, ?_⟩
      · rw [pins]
        exact fun _ => tracks.scanning settled
      · rw [pins]
        intro low
        have four : s.pins.releaseCnt ≤ 4 := by
          have bound := s.pins.releaseCnt.toNat_lt
          simp only [UInt8.le_iff_toNat_le, UInt8.toNat_sub, ← UInt8.toNat_inj, UInt8.reduceToNat]
            at low settled ⊢
          omega
        simp only [Debounce.next, tracks.settling four]
        exact Keys.majority_none _
  · rw [if_neg up] at pressed
    have asked := Keys.mask_eq_zero_iff.not.mpr up
    obtain ⟨result, codes, reported, pins⟩ := tracks.scanKey_asked steady pressed asked
      (kbScanRow_down kbLineHighValid _)
    refine ⟨result, codes, reported, ?_, ?_, ?_⟩ <;> rw [pins]
    · exact fun _ => asked
    · exact fun (impossible : (5 : UInt8) ≤ 4) => absurd impossible (by decide)
    · exact fun (impossible : (5 : UInt8) ≤ 3) => absurd impossible (by decide)

end TelinkSdk.Keyboard
