import Mathlib.Data.Finset.Max

/-! The energy detection of `mac_phy.c`. Samples are summed up until the scan stops, and from time
to time the sum is replaced by its average.
-/

namespace TelinkSdk

-----------------------------------------------------------------------------------------
-- The scan
-----------------------------------------------------------------------------------------

/-- A result of type `s32`. There is none where the arithmetic would overflow. -/
def s32 (x : Int) : Option Int := if -2147483648 ≤ x ∧ x < 2147483648 then some x else none

/-- `a / b` for `s32`, cut towards zero. There is no result for a division by zero. -/
def s32Div (a b : Int) : Option Int := if b = 0 then none else s32 (a.tdiv b)

/-- `soft_rssi`, `sum_rssi` and `cnt_rssi`. -/
structure EdScan where
  softRssi : Int8
  sumRssi : Int
  cntRssi : Int

inductive RfChip where
  | mcu826x
  | mcu8258
  | mcu8278
  | b91
deriving DecidableEq

inductive RfRxGainMode where
  | auto
  | manuMax
deriving DecidableEq

/-- `minEd` and `maxEd` in `ZB_RADIO_RSSI_TO_LQI`. -/
def RfChip.edRange (mode : RfRxGainMode) : RfChip → Int × Int
  | .mcu826x => (-106, if mode = .auto then -6 else -58)
  | .mcu8258 | .mcu8278 | .b91 => (-99, -15)

/-- `ZB_RADIO_RSSI_TO_LQI` -/
def zbRadioRssiToLqi (chip : RfChip) (mode : RfRxGainMode) (rssi : Int8) : UInt8 :=
  let (minEd, maxEd) := chip.edRange mode
  let rssi := if rssi.toInt > maxEd then maxEd else rssi.toInt
  let rssi := if rssi < minEd then minEd else rssi
  UInt8.ofInt ((255 * (rssi - minEd)).tdiv (maxEd - minEd))

/-- `rf_getLqi`; `activeScan` tells whether the status of the MAC is `ZB_MAC_STATE_ACTIVE_SCAN`. -/
def rfGetLqi (chip : RfChip) (activeScan : Bool) (rssi : Int8) : UInt8 :=
  zbRadioRssiToLqi chip (if activeScan then .auto else .manuMax) rssi

/-- `rf_edDetect`, for the sample that the radio gives. -/
def rfEdDetect (scan : EdScan) (rssi : Int8) : Option EdScan := do
  let sumRssi ← s32 (scan.sumRssi + rssi.toInt)
  let cntRssi ← s32 (scan.cntRssi + 1)
  if cntRssi ≥ 0xfffffe then
    let sumRssi ← s32Div sumRssi cntRssi
    some { scan with sumRssi, cntRssi := 1 }
  else some { scan with sumRssi, cntRssi }

def rfStartEDScan (_ : EdScan) : EdScan := { softRssi := -110, sumRssi := 0, cntRssi := 0 }

def rfStopEDScan (chip : RfChip) (activeScan : Bool) (scan : EdScan) : Option (UInt8 × EdScan) := do
  let cntRssi := if scan.cntRssi = 0 then 1 else scan.cntRssi
  let softRssi ← s32Div scan.sumRssi cntRssi
  let scan : EdScan := { scan with softRssi := Int8.ofInt softRssi, cntRssi }
  some (rfGetLqi chip activeScan scan.softRssi, scan)

-----------------------------------------------------------------------------------------
-- The average
-----------------------------------------------------------------------------------------

/-- The sum is that of `cnt_rssi` numbers between `low` and `high`. -/
structure EdScan.Between (scan : EdScan) (low high : Int) : Prop where
  positive : 0 ≤ scan.cntRssi
  counted : scan.cntRssi < 0xfffffe
  above : low * scan.cntRssi ≤ scan.sumRssi
  below : scan.sumRssi ≤ high * scan.cntRssi

variable {scan : EdScan} {low high : Int}

/-- A truncated average stays between the bounds, since these are whole numbers. -/
theorem tdiv_between {sum count : Int} (positive : 0 < count) (above : low * count ≤ sum)
    (below : sum ≤ high * count)
    : low ≤ sum.tdiv count ∧ sum.tdiv count ≤ high := by
  have least := Int.tdiv_le_tdiv positive above
  have most := Int.tdiv_le_tdiv positive below
  rw [Int.mul_tdiv_cancel low (by omega)] at least
  rw [Int.mul_tdiv_cancel high (by omega)] at most
  exact ⟨least, most⟩

/-- A sum of up to `0xfffffe` samples fits, with 256 to spare. -/
theorem sum_fits {sum count : Int} (minimal : -128 ≤ low) (maximal : high ≤ 127)
    (positive : 0 ≤ count) (counted : count ≤ 0xfffffe) (above : low * count ≤ sum)
    (below : sum ≤ high * count)
    : s32 sum = some sum := by
  have least : -128 * count ≤ low * count := Int.mul_le_mul_of_nonneg_right minimal positive
  have most : high * count ≤ 127 * count := Int.mul_le_mul_of_nonneg_right maximal positive
  exact if_pos (by omega)

/-- One sample. When the sum is replaced by its average, this counts as one sample again. -/
theorem EdScan.Between.detect (between : scan.Between low high) (minimal : -128 ≤ low)
    (maximal : high ≤ 127) {rssi : Int8} (least : low ≤ rssi.toInt) (most : rssi.toInt ≤ high)
    : ∃ after, rfEdDetect scan rssi = some after ∧ after.Between low high
      ∧ 0 < after.cntRssi := by
  have positive := between.positive
  have counted := between.counted
  have above : low * (scan.cntRssi + 1) ≤ scan.sumRssi + rssi.toInt := by
    have before := between.above
    rw [Int.mul_add, Int.mul_one]
    omega
  have below : scan.sumRssi + rssi.toInt ≤ high * (scan.cntRssi + 1) := by
    have before := between.below
    rw [Int.mul_add, Int.mul_one]
    omega
  have sum := sum_fits minimal maximal (by omega) (by omega) above below
  have count : s32 (scan.cntRssi + 1) = some (scan.cntRssi + 1) := if_pos (by omega)
  by_cases full : scan.cntRssi + 1 ≥ 0xfffffe
  · have average := tdiv_between (by omega) above below
    have divided : s32Div (scan.sumRssi + rssi.toInt) (scan.cntRssi + 1)
        = some ((scan.sumRssi + rssi.toInt).tdiv (scan.cntRssi + 1)) := by
      rw [s32Div, if_neg (by omega)]
      exact if_pos (by omega)
    refine ⟨{ scan with
        sumRssi := (scan.sumRssi + rssi.toInt).tdiv (scan.cntRssi + 1), cntRssi := 1 },
      ?_, ⟨by simp, by simp, ?_, ?_⟩, by simp⟩
    · simp only [rfEdDetect, sum, count, Option.bind_eq_bind, Option.bind_some, if_pos full,
        divided]
    · simpa using average.1
    · simpa using average.2
  · refine ⟨{ scan with
        sumRssi := scan.sumRssi + rssi.toInt, cntRssi := scan.cntRssi + 1 },
      ?_, ⟨by simp only; omega, by simp only; omega, above, below⟩, by simp only; omega⟩
    simp only [rfEdDetect, sum, count, Option.bind_eq_bind, Option.bind_some, if_neg full]

/-- By induction over the samples. -/
theorem EdScan.Between.run (between : scan.Between low high) (minimal : -128 ≤ low)
    (maximal : high ≤ 127) (samples : List Int8)
    (inside : ∀ rssi ∈ samples, low ≤ rssi.toInt ∧ rssi.toInt ≤ high)
    : ∃ after, samples.foldlM rfEdDetect scan = some after ∧ after.Between low high
      ∧ (samples ≠ [] ∨ 0 < scan.cntRssi → 0 < after.cntRssi) := by
  induction samples generalizing scan with
  | nil => exact ⟨scan, rfl, between, fun busy => busy.resolve_left (by simp)⟩
  | cons rssi rest ih =>
      obtain ⟨least, most⟩ := inside rssi (by simp)
      obtain ⟨middle, detected, first, busy⟩ := between.detect minimal maximal least most
      obtain ⟨after, run, last, counted⟩ := ih first fun rssi member => inside rssi (by simp [member])
      refine ⟨after, ?_, last, fun _ => counted (.inr busy)⟩
      rw [List.foldlM_cons, detected]
      exact run

/-- The division at the end of a scan. -/
theorem EdScan.Between.stop (between : scan.Between low high) (minimal : -128 ≤ low)
    (maximal : high ≤ 127) (chip : RfChip) (activeScan : Bool)
    : ∃ ed after, rfStopEDScan chip activeScan scan = some (ed, after)
      ∧ (0 < scan.cntRssi → low ≤ after.softRssi.toInt ∧ after.softRssi.toInt ≤ high) := by
  by_cases empty : scan.cntRssi = 0
  · have above := between.above
    have below := between.below
    rw [empty, Int.mul_zero] at above below
    have divided : s32Div scan.sumRssi 1 = some 0 := by
      rw [show scan.sumRssi = 0 by omega]
      rfl
    refine ⟨rfGetLqi chip activeScan (Int8.ofInt 0),
      { scan with softRssi := Int8.ofInt 0, cntRssi := 1 }, ?_, fun busy => absurd busy (by omega)⟩
    simp only [rfStopEDScan, if_pos empty, divided, Option.bind_eq_bind, Option.bind_some]
  · have positive := between.positive
    have average := tdiv_between (by omega) between.above between.below
    have divided : s32Div scan.sumRssi scan.cntRssi
        = some (scan.sumRssi.tdiv scan.cntRssi) := by
      rw [s32Div, if_neg empty]
      exact if_pos (by omega)
    refine ⟨rfGetLqi chip activeScan (Int8.ofInt (scan.sumRssi.tdiv scan.cntRssi)),
      { scan with softRssi := Int8.ofInt (scan.sumRssi.tdiv scan.cntRssi) }, ?_, fun _ => ?_⟩
    · simp only [rfStopEDScan, if_neg empty, divided, Option.bind_eq_bind, Option.bind_some]
    · rw [Int8.toInt_ofInt_of_le (by omega) (by omega)]
      exact average

/-- A scan starts with no numbers at all. -/
theorem rfStartEDScan_between (scan : EdScan) (low high : Int)
    : (rfStartEDScan scan).Between low high := by
  constructor <;> simp [rfStartEDScan]

theorem exists_extreme_samples {samples : List Int8} (busy : samples ≠ [])
    : ∃ weakest ∈ samples, ∃ strongest ∈ samples,
      ∀ rssi ∈ samples, weakest.toInt ≤ rssi.toInt ∧ rssi.toInt ≤ strongest.toInt := by
  have nonempty : samples.toFinset.Nonempty := List.toFinset_nonempty_iff _ |>.mpr busy
  obtain ⟨weakest, low, least⟩ := Finset.exists_min_image _ Int8.toInt nonempty
  obtain ⟨strongest, high, most⟩ := Finset.exists_max_image _ Int8.toInt nonempty
  simp only [List.mem_toFinset] at low least high most
  exact ⟨weakest, low, strongest, high, fun rssi member => ⟨least rssi member, most rssi member⟩⟩

/-- Over every scan the sum fits and there is no division by zero. With one sample at least, the
result is between the weakest and the strongest of them.
-/
theorem rfEdScan_average (chip : RfChip) (activeScan : Bool) (scan : EdScan) (samples : List Int8)
    : ∃ before ed after, samples.foldlM rfEdDetect (rfStartEDScan scan) = some before
      ∧ rfStopEDScan chip activeScan before = some (ed, after)
      ∧ (samples ≠ [] → ∃ weakest ∈ samples, ∃ strongest ∈ samples,
        (∀ rssi ∈ samples, weakest.toInt ≤ rssi.toInt ∧ rssi.toInt ≤ strongest.toInt)
        ∧ weakest.toInt ≤ after.softRssi.toInt ∧ after.softRssi.toInt ≤ strongest.toInt) := by
  by_cases busy : samples = []
  · subst busy
    obtain ⟨ed, after, stopped, -⟩ :=
      (rfStartEDScan_between scan 0 0).stop (by decide) (by decide) chip activeScan
    exact ⟨_, ed, after, rfl, stopped, fun other => absurd rfl other⟩
  · obtain ⟨weakest, low, strongest, high, inside⟩ := exists_extreme_samples busy
    have minimal := weakest.le_toInt
    have maximal := strongest.toInt_lt
    have start := rfStartEDScan_between scan weakest.toInt strongest.toInt
    obtain ⟨before, run, between, counted⟩ :=
      start.run (by omega) (by omega) samples inside
    obtain ⟨ed, after, stopped, average⟩ := between.stop (by omega) (by omega) chip activeScan
    refine ⟨before, ed, after, run, stopped, fun _ => ?_⟩
    exact ⟨weakest, low, strongest, high, inside, average (counted (.inl busy))⟩

end TelinkSdk
