import Mathlib.Data.Fintype.Pi
import TelinkSdk.Rings.Overwriting

/-! The keyboard scan of `drv_keyboard.c`. The scanned matrix is filtered, and changes of the
filtered matrix wait in a ring of four until they are read out as key codes.
-/

namespace TelinkSdk.Keyboard

open Rings

-----------------------------------------------------------------------------------------
-- The driver
-----------------------------------------------------------------------------------------

abbrev kbReturnKeyMax : Nat := 6

/-- `BIT(7)` -/
abbrev kbNumlockStatusInvalid : UInt32 := 128

/-- The rows of the keyboard, one for each of the `n` drive pins, with a bit for each scan pin. -/
abbrev KbMatrix (n : Nat) := Fin n → UInt32

/-- What a board defines: the number of its scan pins, the key codes by scan pin and drive pin, and
the two switches. The board has no control keys.
-/
structure KbBoard (n : Nat) where
  scanPins : Nat
  kbMapNormal : Nat → Fin n → UInt8
  kbRmGhostKeyEn : Bool := false
  kbOnlySinglekeySupp : Bool := false

/-- `kb_data_t`; `cnt` is the number of key codes. -/
structure KbData where
  ctrlKey : UInt8 := 0
  keycode : List UInt8 := []

/-- The static variables of the driver. -/
structure KbState (n : Nat) where
  mtrxPre : KbMatrix n
  mtrxLast : KbMatrix n
  matrixBuff : Nat → KbMatrix n
  matrixWptr : Int32
  matrixRptr : Int32
  kbEvent : KbData

def bitIsPow2 (x : UInt32) : Bool := x &&& (x - 1) == 0

/-- The inner loop of `kb_rmv_ghost_key`, for row `i`. -/
def kbRmvGhostKey.row {n : Nat} (matrix : KbMatrix n) (mixFinal : UInt32) (i : Fin n) : UInt32 :=
  (List.finRange n).foldl
    (fun mixFinal j =>
      let mix := matrix i &&& matrix j
      if i < j ∧ mix ≠ 0 ∧ (!bitIsPow2 mix ∨ matrix i ^^^ matrix j ≠ 0) then mixFinal ||| mix
      else mixFinal)
    mixFinal

def kbRmvGhostKey {n : Nat} (pressedMatrix : KbMatrix n) : KbMatrix n :=
  ((List.finRange n).foldl
    (fun (state : KbMatrix n × UInt32) i =>
      let mixFinal := kbRmvGhostKey.row state.1 state.2 i
      (Function.update state.1 i (state.1 i &&& ~~~mixFinal), mixFinal))
    (pressedMatrix, 0)).1

/-- `key_debounce_filter`, with the filtered matrix and whether it has changed. -/
def keyDebounceFilter {n : Nat} (mtrxCur : KbMatrix n) (filtEn : Bool) (s : KbState n)
    : Bool × KbMatrix n × KbState n :=
  let cur : KbMatrix n := fun i =>
    if filtEn then
      (~~~s.mtrxLast i &&& (s.mtrxPre i &&& mtrxCur i))
        ||| (s.mtrxLast i &&& (s.mtrxPre i ||| mtrxCur i))
    else mtrxCur i
  let kc := (List.finRange n).any fun i => cur i != s.mtrxLast i
  (kc, cur, { s with mtrxPre := mtrxCur, mtrxLast := cur })

/-- The loop of `kb_remap_key_row`, with the scan pins left and the next one. -/
def kbRemapKeyRow {n : Nat} (board : KbBoard n) (drvInd : Fin n) (keyMax : Nat)
    : Nat → Nat → UInt32 → KbData → KbData
  | 0, _, _, kbData => kbData
  | left + 1, i, m, kbData =>
      let kbData :=
        if m &&& 1 ≠ 0 then
          { kbData with keycode := kbData.keycode ++ [board.kbMapNormal i drvInd] }
        else kbData
      if m &&& 1 ≠ 0 ∧ kbData.keycode.length ≥ keyMax then kbData
      else
        let m := m >>> 1
        if m = 0 then kbData else kbRemapKeyRow board drvInd keyMax left (i + 1) m kbData

/-- The loop of `kb_remap_key_code`, with the rows left. -/
def kbRemapKeyCode {n : Nat} (board : KbBoard n) (pressedMatrix : KbMatrix n) (keyMax : Nat)
    : List (Fin n) → KbData → KbData
  | [], kbData => kbData
  | i :: rest, kbData =>
      if pressedMatrix i = 0 then kbRemapKeyCode board pressedMatrix keyMax rest kbData
      else
        let kbData := kbRemapKeyRow board i keyMax board.scanPins 0 (pressedMatrix i) kbData
        if kbData.keycode.length ≥ keyMax then kbData
        else kbRemapKeyCode board pressedMatrix keyMax rest kbData

/-- What one scan finds, and the arguments of `kb_scan_key`: the indication of `kb_key_pressed`, and
the rows that `kb_scan_row` returns.
-/
structure KbScan (n : Nat) where
  scanPinNeed : UInt32
  rows : KbMatrix n
  numlockStatus : UInt32
  readKey : Bool

/-- The matrix that is filtered. -/
def KbScan.pressedMatrix {n : Nat} (board : KbBoard n) (scan : KbScan n) : KbMatrix n :=
  if board.kbRmGhostKeyEn then kbRmvGhostKey scan.rows else scan.rows

/-- `matrix_buff[ptr & 3]` -/
def matrixSlot (ptr : Int32) : Nat := (ptr &&& 3).toInt.toNat

/-- The key codes of a matrix that is read out. -/
def kbReadOut {n : Nat} (board : KbBoard n) (pd : KbMatrix n) (kbEvent : KbData) : KbData :=
  if board.kbOnlySinglekeySupp then
    let kbEvent := kbRemapKeyCode board pd 2 (List.finRange n) kbEvent
    if kbEvent.keycode.length > 1 then { kbEvent with keycode := [] } else kbEvent
  else kbRemapKeyCode board pd kbReturnKeyMax (List.finRange n) kbEvent

/-- The part of `kb_scan_key` that pushes to the matrix buffer. -/
def kbPush {n : Nat} (pressedMatrix : KbMatrix n) (s : KbState n) : KbState n :=
  let s :=
    { s with
      matrixBuff := Function.update s.matrixBuff (matrixSlot s.matrixWptr) pressedMatrix
      matrixWptr := (s.matrixWptr + 1) &&& 7 }
  if (s.matrixWptr - s.matrixRptr) &&& 7 > 4 then
    { s with matrixRptr := (s.matrixWptr - 4) &&& 7 }
  else s

/-- `kb_scan_key`, with what it returns and the matrix that is read out. -/
def kbScanKey {n : Nat} (board : KbBoard n) (scan : KbScan n) (s : KbState n)
    : (UInt32 × Option (KbMatrix n)) × KbState n :=
  if scan.scanPinNeed = 0 then ((0, none), s)
  else
    let s := { s with kbEvent := {} }
    let (keyChanged, pressedMatrix, s) := keyDebounceFilter (scan.pressedMatrix board) true s
    let s := if keyChanged then kbPush pressedMatrix s else s
    if scan.numlockStatus &&& kbNumlockStatusInvalid ≠ 0 then ((1, none), s)
    else if s.matrixWptr = s.matrixRptr ∨ !scan.readKey then ((0, none), s)
    else
      let pd := s.matrixBuff (matrixSlot s.matrixRptr)
      ((1, some pd),
        { s with
          matrixRptr := (s.matrixRptr + 1) &&& 7
          kbEvent := kbReadOut board pd s.kbEvent })

/-- The static variables at the start. -/
def kbStart (n : Nat) : KbState n where
  mtrxPre _ := 0
  mtrxLast _ := 0
  matrixBuff _ _ := 0
  matrixWptr := 0
  matrixRptr := 0
  kbEvent := {}

/-- One scan after another, with what each returns and reads out. -/
def kbScans {n : Nat} (board : KbBoard n)
    : List (KbScan n) → KbState n → List (UInt32 × Option (KbMatrix n)) × KbState n
  | [], s => ([], s)
  | scan :: rest, s =>
      let (result, s) := kbScanKey board scan s
      let (results, s) := kbScans board rest s
      (result :: results, s)

-----------------------------------------------------------------------------------------
-- What a scan is for
-----------------------------------------------------------------------------------------

/-- The bits that two of three words have at least. -/
def majority (a b c : UInt32) : UInt32 := a &&& b ||| a &&& c ||| b &&& c

/-- The filtered matrix and the raw one before, the changes of the filtered matrix, and those of
them that have not been read out.
-/
structure KbSpec (n : Nat) where
  filtered : KbMatrix n
  raw : KbMatrix n
  changes : List (KbMatrix n) := []
  pending : List (KbMatrix n) := []

/-- A new change waits, and pushes out the oldest one when four are waiting already. -/
def KbSpec.filter {n : Nat} (raw : KbMatrix n) (t : KbSpec n) : KbSpec n :=
  let filtered : KbMatrix n := fun i => majority (t.filtered i) (t.raw i) (raw i)
  if filtered = t.filtered then { t with raw }
  else
    { filtered
      raw
      changes := t.changes ++ [filtered]
      pending := (t.pending ++ [filtered]).drop (t.pending.length + 1 - 4) }

/-- The oldest change that waits is read out, when there is one. -/
def KbSpec.scan {n : Nat} (board : KbBoard n) (scan : KbScan n) (t : KbSpec n)
    : (UInt32 × Option (KbMatrix n)) × KbSpec n :=
  if scan.scanPinNeed = 0 then ((0, none), t)
  else
    let t := t.filter (scan.pressedMatrix board)
    if scan.numlockStatus &&& kbNumlockStatusInvalid ≠ 0 then ((1, none), t)
    else
      match t.pending, scan.readKey with
      | oldest :: rest, true => ((1, some oldest), { t with pending := rest })
      | _, _ => ((0, none), t)

def KbSpec.scans {n : Nat} (board : KbBoard n)
    : List (KbScan n) → KbSpec n → List (UInt32 × Option (KbMatrix n)) × KbSpec n
  | [], t => ([], t)
  | scan :: rest, t =>
      let (result, t) := t.scan board scan
      let (results, t) := KbSpec.scans board rest t
      (result :: results, t)

/-- What the driver starts with. -/
def KbSpec.start (n : Nat) : KbSpec n where
  filtered _ := 0
  raw _ := 0

-----------------------------------------------------------------------------------------
-- The filter
-----------------------------------------------------------------------------------------

def bitOf (x : UInt32) (k : Nat) : Bool := x.toBitVec.getLsbD k

theorem bitOf_majority (a b c : UInt32) (k : Nat)
    : bitOf (majority a b c) k = Bool.atLeastTwo (bitOf a k) (bitOf b k) (bitOf c k) := by
  simp [bitOf, majority, Bool.atLeastTwo]

theorem atLeastTwo_agree : ∀ last pre cur : Bool,
    pre = last ∨ cur = last → Bool.atLeastTwo last pre cur = last := by
  decide

/-- Every bit of the filter, by cases on the two that came before. -/
theorem filter_eq_majority (last pre cur : UInt32)
    : (~~~last &&& (pre &&& cur)) ||| (last &&& (pre ||| cur)) = majority last pre cur := by
  apply UInt32.eq_of_toBitVec_eq
  apply BitVec.eq_of_getLsbD_eq
  intro k inside
  simp only [majority, UInt32.toBitVec_or, UInt32.toBitVec_and, UInt32.toBitVec_not,
    BitVec.getLsbD_or, BitVec.getLsbD_and, BitVec.getLsbD_not, inside, decide_true, Bool.true_and]
  cases last.toBitVec.getLsbD k <;> cases pre.toBitVec.getLsbD k <;> simp

variable {n : Nat} {s : KbState n} {t : KbSpec n} {ring : OverwritingRing (KbMatrix n)}

theorem keyDebounceFilter_eq (raw : KbMatrix n) (s : KbState n)
    : keyDebounceFilter raw true s
      = (decide ((fun i => majority (s.mtrxLast i) (s.mtrxPre i) (raw i)) ≠ s.mtrxLast),
        fun i => majority (s.mtrxLast i) (s.mtrxPre i) (raw i),
        { s with
          mtrxPre := raw
          mtrxLast := fun i => majority (s.mtrxLast i) (s.mtrxPre i) (raw i) }) := by
  have changed : ((List.finRange n).any fun i =>
        majority (s.mtrxLast i) (s.mtrxPre i) (raw i) != s.mtrxLast i)
      = decide ((fun i => majority (s.mtrxLast i) (s.mtrxPre i) (raw i)) ≠ s.mtrxLast) := by
    rw [Bool.eq_iff_iff]
    simp [funext_iff]
  simp only [keyDebounceFilter, if_true, filter_eq_majority, changed]

-----------------------------------------------------------------------------------------
-- The ring
-----------------------------------------------------------------------------------------

def pointer (p : Nat) : Int32 := Int32.ofNat p

/-- The arithmetic of the pointers, for all of their values. -/
theorem pointer_write : ∀ w < 8,
    matrixSlot (pointer w) = w % 4
    ∧ (pointer w + 1) &&& 7 = pointer ((w + 1) % 8)
    ∧ (pointer w - 4) &&& 7 = pointer ((w + 8 - 4) % 8) := by
  decide

theorem pointer_distance : ∀ w < 8, ∀ r < 8,
    (pointer w - pointer r) &&& 7 = pointer ((w + 8 - r) % 8)
    ∧ ((pointer w - pointer r) &&& 7 > 4 ↔ (w + 8 - r) % 8 > 4)
    ∧ (pointer w = pointer r ↔ w = r) := by
  decide

/-- The filter holds what it should, and the ring the changes that have not been read. -/
structure Refines (s : KbState n) (ring : OverwritingRing (KbMatrix n)) (t : KbSpec n) : Prop where
  filtered : s.mtrxLast = t.filtered
  raw : s.mtrxPre = t.raw
  slots : s.matrixBuff = ring.slots
  write : s.matrixWptr = pointer ring.write
  read : s.matrixRptr = pointer ring.read
  valid : ring.Valid 4
  pending : ring.contents 4 = t.pending

theorem Refines.push (refines : Refines s ring t) (m : KbMatrix n)
    : Refines (kbPush m s) (ring.push 4 m)
        { t with pending := (t.pending ++ [m]).drop (t.pending.length + 1 - 4) } := by
  obtain ⟨valid, contents⟩ := refines.valid.push m
  obtain ⟨slot, next, -⟩ := pointer_write ring.write refines.valid.write
  have stored : (ring.store 4 m).write < 8 := Nat.mod_lt _ (by decide)
  have read : (ring.store 4 m).read < 8 := refines.valid.read
  obtain ⟨-, -, four⟩ := pointer_write _ stored
  obtain ⟨-, full, -⟩ := pointer_distance _ stored _ read
  have write : (pointer ring.write + 1) &&& 7 = pointer (ring.store 4 m).write := next
  have pending : (ring.push 4 m).contents 4
      = (t.pending ++ [m]).drop (t.pending.length + 1 - 4) := by
    rw [contents, ← refines.pending, OverwritingRing.length_contents]
  have pushed : kbPush m s
      = { s with
          matrixBuff := (ring.push 4 m).slots
          matrixWptr := pointer (ring.push 4 m).write
          matrixRptr := pointer (ring.push 4 m).read } := by
    simp only [kbPush, refines.write, refines.read, refines.slots, slot, write]
    by_cases passed : (ring.store 4 m).waiting 4 > 4
    · have beyond := full.mpr passed
      rw [OverwritingRing.push, if_pos passed]
      exact (if_pos beyond).trans (by rw [four]; rfl)
    · have within := full.not.mpr passed
      rw [OverwritingRing.push, if_neg passed]
      exact if_neg within
  rw [pushed]
  exact ⟨refines.filtered, refines.raw, rfl, rfl, rfl, valid, pending⟩

/-- The filter, and the push that follows a change. -/
def kbFilter (raw : KbMatrix n) (s : KbState n) : KbState n :=
  let (keyChanged, pressedMatrix, s) := keyDebounceFilter raw true s
  if keyChanged then kbPush pressedMatrix s else s

theorem Refines.filter (refines : Refines s ring t) (raw : KbMatrix n)
    : ∃ ring', Refines (kbFilter raw s) ring' (t.filter raw) := by
  simp only [kbFilter, KbSpec.filter, keyDebounceFilter_eq, refines.filtered, refines.raw]
  by_cases kept : (fun i => majority (t.filtered i) (t.raw i) (raw i)) = t.filtered
  · simp only [kept, ne_eq, not_true_eq_false, decide_false, Bool.false_eq_true, if_false, if_true]
    exact ⟨ring, rfl, rfl, refines.slots, refines.write, refines.read, refines.valid,
      refines.pending⟩
  · simp only [kept, ne_eq, not_false_eq_true, decide_true, if_false, if_true]
    have filtered : Refines
        { s with
          mtrxPre := raw
          mtrxLast := fun i => majority (t.filtered i) (t.raw i) (raw i) } ring
        { t with
          filtered := fun i => majority (t.filtered i) (t.raw i) (raw i)
          raw
          changes := t.changes ++ [fun i => majority (t.filtered i) (t.raw i) (raw i)] } :=
      ⟨rfl, rfl, refines.slots, refines.write, refines.read, refines.valid, refines.pending⟩
    exact ⟨_, filtered.push _⟩

/-- The oldest change is read out. -/
theorem Refines.read_oldest (refines : Refines s ring t) {oldest : KbMatrix n}
    {rest : List (KbMatrix n)} (busy : t.pending = oldest :: rest) (kbEvent : KbData)
    : s.matrixBuff (matrixSlot s.matrixRptr) = oldest
      ∧ Refines { s with matrixRptr := (s.matrixRptr + 1) &&& 7, kbEvent } (ring.pop 4).2
        { t with pending := rest } := by
  obtain ⟨first, valid, contents⟩ := refines.valid.pop (refines.pending.trans busy)
  obtain ⟨slot, next, -⟩ := pointer_write ring.read refines.valid.read
  refine ⟨?_, refines.filtered, refines.raw, refines.slots, refines.write, ?_, valid, contents⟩
  · rw [refines.read, slot, refines.slots]
    exact first
  · rw [refines.read, next]
    rfl

/-- Equal pointers stand for an empty ring. -/
theorem Refines.empty_iff (refines : Refines s ring t)
    : s.matrixWptr = s.matrixRptr ↔ t.pending = [] := by
  obtain ⟨-, -, same⟩ :=
    pointer_distance _ refines.valid.write _ refines.valid.read
  rw [refines.write, refines.read, same, ← refines.valid.waiting_eq_zero_iff,
    ← OverwritingRing.length_contents, refines.pending, List.length_eq_zero_iff]

/-- One scan returns what it should. -/
theorem Refines.scan (refines : Refines s ring t) (board : KbBoard n) (scan : KbScan n)
    : (kbScanKey board scan s).1 = (t.scan board scan).1
      ∧ ∃ ring', Refines (kbScanKey board scan s).2 ring' (t.scan board scan).2 := by
  by_cases none : scan.scanPinNeed = 0
  · simp only [kbScanKey, KbSpec.scan, if_pos none]
    exact ⟨trivial, ring, refines⟩
  have cleared : Refines { s with kbEvent := {} } ring t :=
    ⟨refines.filtered, refines.raw, refines.slots, refines.write, refines.read, refines.valid,
      refines.pending⟩
  obtain ⟨ring', filtered⟩ := cleared.filter (scan.pressedMatrix board)
  generalize after : kbFilter (scan.pressedMatrix board) { s with kbEvent := {} } = s' at filtered
  simp only [kbFilter] at after
  simp only [kbScanKey, KbSpec.scan, if_neg none, after]
  by_cases invalid : scan.numlockStatus &&& kbNumlockStatusInvalid ≠ 0
  · simp only [if_pos invalid]
    exact ⟨trivial, ring', filtered⟩
  simp only [if_neg invalid]
  cases waiting : (t.filter (scan.pressedMatrix board)).pending with
  | nil =>
      rw [if_pos (.inl (filtered.empty_iff.mpr waiting))]
      exact ⟨rfl, ring', filtered⟩
  | cons oldest rest =>
      have some_waiting : s'.matrixWptr ≠ s'.matrixRptr := by
        rw [ne_eq, filtered.empty_iff, waiting]
        exact List.cons_ne_nil oldest rest
      cases reading : scan.readKey with
      | false =>
          rw [if_pos (.inr rfl)]
          exact ⟨rfl, ring', filtered⟩
      | true =>
          obtain ⟨first, after⟩ := filtered.read_oldest waiting
            (kbReadOut board (s'.matrixBuff (matrixSlot s'.matrixRptr)) s'.kbEvent)
          rw [if_neg (by simp [some_waiting])]
          refine ⟨?_, _, after⟩
          rw [first]

-----------------------------------------------------------------------------------------
-- Runs
-----------------------------------------------------------------------------------------

/-- By induction over the scans. -/
theorem Refines.scans (refines : Refines s ring t) (board : KbBoard n) (scans : List (KbScan n))
    : (kbScans board scans s).1 = (KbSpec.scans board scans t).1
      ∧ ∃ ring', Refines (kbScans board scans s).2 ring' (KbSpec.scans board scans t).2 := by
  induction scans generalizing s t ring with
  | nil => exact ⟨rfl, ring, refines⟩
  | cons scan rest ih =>
      obtain ⟨result, ring', after⟩ := refines.scan board scan
      obtain ⟨results, last⟩ := ih after
      exact ⟨by simp only [kbScans, KbSpec.scans, result, results], last⟩

theorem kbStart_refines (n : Nat)
    : Refines (kbStart n) (.empty fun _ => 0) (KbSpec.start n) where
  filtered := rfl
  raw := rfl
  slots := rfl
  write := rfl
  read := rfl
  valid := OverwritingRing.empty_valid (by decide) _
  pending := OverwritingRing.empty_contents 4 _

/-- The changes that wait are the last ones, four at most, and those that have been read out came
before them in this order.
-/
def KbSpec.Ordered (t : KbSpec n) (read : List (KbMatrix n)) : Prop :=
  t.pending.length ≤ 4 ∧ ∃ gone, t.changes = gone ++ t.pending ∧ read.Sublist gone

theorem KbSpec.Ordered.filter {read : List (KbMatrix n)} (ordered : t.Ordered read)
    (raw : KbMatrix n)
    : (t.filter raw).Ordered read := by
  obtain ⟨four, gone, changes, sublist⟩ := ordered
  simp only [KbSpec.filter]
  generalize (fun i => majority (t.filtered i) (t.raw i) (raw i)) = filtered
  split
  · exact ⟨four, gone, changes, sublist⟩
  · refine ⟨?_, gone ++ (t.pending ++ [filtered]).take (t.pending.length + 1 - 4), ?_, ?_⟩
    · simp only [List.length_drop, List.length_append, List.length_singleton]
      omega
    · rw [changes, List.append_assoc, List.append_assoc, List.take_append_drop]
    · exact sublist.trans (List.sublist_append_left _ _)

theorem KbSpec.Ordered.scan {read : List (KbMatrix n)} (ordered : t.Ordered read)
    (board : KbBoard n) (scan : KbScan n)
    : (t.scan board scan).2.Ordered (read ++ (t.scan board scan).1.2.toList) := by
  simp only [KbSpec.scan]
  by_cases none : scan.scanPinNeed = 0
  · simpa only [if_pos none, Option.toList_none, List.append_nil] using ordered
  have filtered := ordered.filter (scan.pressedMatrix board)
  simp only [if_neg none]
  split
  · simpa using filtered
  · split
    · next oldest rest waiting reading =>
        obtain ⟨four, gone, changes, sublist⟩ := filtered
        rw [waiting] at four changes
        refine ⟨Nat.le_of_succ_le four, gone ++ [oldest], ?_, sublist.append (.refl _)⟩
        rw [changes, List.append_assoc, List.singleton_append]
    · simpa using filtered

theorem KbSpec.Ordered.scans {read : List (KbMatrix n)} (ordered : t.Ordered read)
    (board : KbBoard n) (scans : List (KbScan n))
    : (KbSpec.scans board scans t).2.Ordered
        (read ++ (KbSpec.scans board scans t).1.filterMap Prod.snd) := by
  induction scans generalizing t read with
  | nil => simpa [KbSpec.scans] using ordered
  | cons scan rest ih =>
      have after := ih (ordered.scan board scan)
      have readOut : ((t.scan board scan).1 ::
            (KbSpec.scans board rest (t.scan board scan).2).1).filterMap Prod.snd
          = (t.scan board scan).1.2.toList
            ++ (KbSpec.scans board rest (t.scan board scan).2).1.filterMap Prod.snd := by
        rw [List.filterMap_cons]
        cases (t.scan board scan).1.2 <;> rfl
      simpa only [KbSpec.scans, readOut, List.append_assoc] using after

/-- The scan leaves the filter alone behind the filter. -/
theorem kbScanKey_filter (board : KbBoard n) (scan : KbScan n) (pressed : scan.scanPinNeed ≠ 0)
    (s : KbState n)
    : (kbScanKey board scan s).2.mtrxPre = scan.pressedMatrix board
      ∧ (kbScanKey board scan s).2.mtrxLast
        = fun i => majority (s.mtrxLast i) (s.mtrxPre i) (scan.pressedMatrix board i) := by
  have pushed (m : KbMatrix n) (s : KbState n)
      : (kbPush m s).mtrxPre = s.mtrxPre ∧ (kbPush m s).mtrxLast = s.mtrxLast := by
    simp only [kbPush]
    split <;> exact ⟨rfl, rfl⟩
  simp only [kbScanKey, if_neg pressed, keyDebounceFilter_eq]
  split_ifs <;> simp only [pushed, and_self]

/-- The filter takes the majority of each bit. The driver returns and reads out what it should: the
changes of the filtered matrix in their order, of which the oldest is lost when a fifth one waits.
-/
theorem kbScanKey_events (board : KbBoard n) (scans : List (KbScan n))
    : let (results, s) := kbScans board scans (kbStart n)
      let (expected, t) := KbSpec.scans board scans (KbSpec.start n)
      results = expected
      ∧ s.mtrxLast = t.filtered
      ∧ s.mtrxPre = t.raw
      ∧ (s.matrixWptr - s.matrixRptr) &&& 7 = Int32.ofNat t.pending.length
      ∧ t.pending.length ≤ 4
      ∧ (∃ gone,
        t.changes = gone ++ t.pending ∧ (results.filterMap Prod.snd).Sublist gone)
      ∧ ∀ scan : KbScan n, scan.scanPinNeed ≠ 0
        → let after := (kbScanKey board scan s).2
          after.mtrxPre = scan.pressedMatrix board
          ∧ ∀ i k,
            let last := bitOf (s.mtrxLast i) k
            let pre := bitOf (s.mtrxPre i) k
            let cur := bitOf (scan.pressedMatrix board i) k
            bitOf (after.mtrxLast i) k = Bool.atLeastTwo last pre cur
            ∧ (pre = last ∨ cur = last → bitOf (after.mtrxLast i) k = last) := by
  obtain ⟨results, ring, refines⟩ := (kbStart_refines n).scans board scans
  have start : (KbSpec.start n).Ordered [] := ⟨Nat.zero_le 4, [], rfl, .refl []⟩
  obtain ⟨four, gone, changes, sublist⟩ := start.scans board scans
  have distance := (pointer_distance _ refines.valid.write _ refines.valid.read).1
  refine ⟨results, refines.filtered, refines.raw, ?_, four, ⟨gone, changes, ?_⟩, ?_⟩
  · rw [refines.write, refines.read, distance, ← refines.pending, OverwritingRing.length_contents]
    rfl
  · rw [results]
    exact sublist
  · intro scan pressed
    obtain ⟨pre, last⟩ := kbScanKey_filter board scan pressed (kbScans board scans (kbStart n)).2
    refine ⟨pre, fun i k => ?_⟩
    rw [last, bitOf_majority]
    exact ⟨rfl, atLeastTwo_agree _ _ _⟩

end TelinkSdk.Keyboard
