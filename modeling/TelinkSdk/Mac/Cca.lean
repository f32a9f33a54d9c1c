import Mathlib.Order.Nat
import TelinkSdk.Mac.EnergyDetect

/-! The clear channel assessment of `mac_phy.c`, which averages the energy of 128 microseconds. -/

namespace TelinkSdk.Cca

-----------------------------------------------------------------------------------------
-- The assessment
-----------------------------------------------------------------------------------------

inductive PhyCca where
  | busy
  | idle
deriving DecidableEq

/-- `clock_time_exceed(ref, us)` at the reading `now`. Sixteen ticks are a microsecond. -/
def clockTimeExceed (now ref us : UInt32) : Bool := now - ref > us * 16

/-- The loop of `rf_performCCA` from round `k` on. Each round reads the clock and takes a sample;
there is no result when the arithmetic would overflow, nor after `fuel` rounds.
-/
def rfPerformCCA.loop (clock : Nat → UInt32) (rssi : Nat → Int8) (t1 : UInt32)
    : Nat → Nat → Int → Int → Option (Int × Int)
  | 0, _, _, _ => none
  | fuel + 1, k, rssiSum, cnt =>
      if clockTimeExceed (clock k) t1 128 then some (rssiSum, cnt)
      else do
        let rssiSum ← s32 (rssiSum + (rssi k).toInt)
        let cnt ← s32 (cnt + 1)
        rfPerformCCA.loop clock rssi t1 fuel (k + 1) rssiSum cnt

/-- `rf_performCCA`, for what `clock_time` and `ZB_RADIO_RSSI_GET` return one call after another;
`txBusy` tells whether `rf_busyFlag` has `TX_BUSY`.
-/
def rfPerformCCA (fuel : Nat) (clock : Nat → UInt32) (rssi : Nat → Int8) (ccaThres : Int8)
    (txBusy : Bool)
    : Option PhyCca := do
  let t1 := clock 0
  let rssiSum ← s32 (0 + (rssi 0).toInt)
  let (rssiSum, cnt) ← rfPerformCCA.loop clock rssi t1 fuel 1 rssiSum 1
  let mean ← s32Div rssiSum cnt
  let rssiPeak := Int8.ofInt mean
  if rssiPeak > ccaThres ∨ txBusy then some .busy else some .idle

-----------------------------------------------------------------------------------------
-- The clock
-----------------------------------------------------------------------------------------

/-- The readings of a clock that goes on and is read again before it has wrapped. -/
structure Readings (time : Nat → Nat) : Prop where
  later : ∀ k, time k < time (k + 1)
  soon : ∀ k, time (k + 1) ≤ time k + 2147483648

variable {time : Nat → Nat} {rssi : Nat → Int8} {k n : Nat}

theorem Readings.grows (readings : Readings time) (k : Nat) : time 0 + k ≤ time k := by
  induction k with
  | zero => exact Nat.le_refl _
  | succ k ih =>
      have step := readings.later k
      omega

/-- The test of the loop, while less than a turn of the counter has gone by. -/
theorem clockTimeExceed_iff (ordered : time 0 ≤ time k) (once : time k < time 0 + 4294967296)
    : clockTimeExceed (UInt32.ofNat (time k)) (UInt32.ofNat (time 0)) 128 = true
      ↔ time 0 + 2048 < time k := by
  simp only [clockTimeExceed, decide_eq_true_eq, gt_iff_lt, UInt32.lt_iff_toNat_lt,
    UInt32.toNat_sub, UInt32.toNat_ofNat', UInt32.toNat_mul, UInt32.reduceToNat, Nat.reducePow]
  omega

/-- The first reading that is late: every one before it is within the time, and itself no more than
half a turn of the counter behind.
-/
theorem Readings.first_late (readings : Readings time)
    : ∃ n, 1 ≤ n ∧ n ≤ 2049 ∧ (∀ k < n, time k ≤ time 0 + 2048) ∧ time 0 + 2048 < time n
      ∧ time n < time 0 + 4294967296 := by
  have late : ∃ k, time 0 + 2048 < time k := ⟨2049, by have grows := readings.grows 2049; omega⟩
  have found := Nat.find_spec late
  have before : ∀ k < Nat.find late, time k ≤ time 0 + 2048 :=
    fun k early => Nat.le_of_not_lt (Nat.find_min late early)
  have positive : Nat.find late ≠ 0 := by
    intro zero
    rw [zero] at found
    omega
  obtain ⟨last, previous⟩ := Nat.exists_eq_succ_of_ne_zero positive
  have inTime := before last (by omega)
  have step := readings.soon last
  have grows := readings.grows last
  rw [previous] at found before
  exact ⟨last + 1, by omega, by omega, before, found, by omega⟩

-----------------------------------------------------------------------------------------
-- The average
-----------------------------------------------------------------------------------------

/-- The sum of the first `n` samples. -/
def sampleSum (rssi : Nat → Int8) : Nat → Int
  | 0 => 0
  | n + 1 => sampleSum rssi n + (rssi n).toInt

theorem sampleSum_succ (rssi : Nat → Int8) (n : Nat)
    : sampleSum rssi (n + 1) = sampleSum rssi n + (rssi n).toInt := rfl

theorem sampleSum_bounds (rssi : Nat → Int8) (n : Nat)
    : -128 * (n : Int) ≤ sampleSum rssi n ∧ sampleSum rssi n ≤ 127 * (n : Int) := by
  induction n with
  | zero => simp [sampleSum]
  | succ n ih =>
      have least := (rssi n).le_toInt
      have most := (rssi n).toInt_lt
      rw [sampleSum_succ]
      omega

theorem s32_sampleSum (small : n ≤ 2049) : s32 (sampleSum rssi n) = some (sampleSum rssi n) := by
  have bounds := sampleSum_bounds rssi n
  exact if_pos (by omega)

/-- Round by round up to the late reading, by induction on how many are left. -/
theorem loop_average (rssi : Nat → Int8) (fuel : Nat) (small : n ≤ 2049)
    (inTime : ∀ k < n, time 0 ≤ time k ∧ time k ≤ time 0 + 2048)
    (late : time 0 + 2048 < time n) (once : time n < time 0 + 4294967296) (positive : 1 ≤ k)
    (rest : k ≤ n) (enough : n - k < fuel)
    : rfPerformCCA.loop (fun k => UInt32.ofNat (time k)) rssi (UInt32.ofNat (time 0)) fuel k
        (sampleSum rssi k) (k : Int)
      = some (sampleSum rssi n, (n : Int)) := by
  induction fuel generalizing k with
  | zero => omega
  | succ fuel ih =>
      rw [rfPerformCCA.loop]
      by_cases last : k = n
      · subst last
        rw [if_pos ((clockTimeExceed_iff (by omega) once).mpr late)]
      · have now := inTime k (by omega)
        have goes_on := (clockTimeExceed_iff now.1 (by omega)).not.mpr (Nat.not_lt.mpr now.2)
        have count : s32 ((k : Int) + 1) = some ((k + 1 : Nat) : Int) := if_pos (by omega)
        rw [if_neg goes_on, ← sampleSum_succ, s32_sampleSum (by omega), count]
        exact ih (by omega) (by omega) (by omega)

/-- Whatever the clock starts at, and however long the rounds take, the assessment ends after at
most 2049 samples. Nothing overflows, and the channel is busy exactly when the radio is sending or
the mean of the samples that were taken in the 128 microseconds, cut towards zero, is above the
threshold.
-/
theorem rfPerformCCA_average (readings : Readings time) (rssi : Nat → Int8) (ccaThres : Int8)
    (txBusy : Bool) {fuel : Nat} (enough : 2049 ≤ fuel)
    : ∃ n, 1 ≤ n ∧ n ≤ 2049 ∧ (∀ k < n, time k ≤ time 0 + 2048) ∧ time 0 + 2048 < time n
      ∧ rfPerformCCA fuel (fun k => UInt32.ofNat (time k)) rssi ccaThres txBusy
        = some (if ccaThres.toInt < (sampleSum rssi n).tdiv n ∨ txBusy then .busy else .idle) := by
  obtain ⟨n, positive, small, inTime, late, once⟩ := readings.first_late
  refine ⟨n, positive, small, inTime, late, ?_⟩
  have ordered : ∀ k < n, time 0 ≤ time k ∧ time k ≤ time 0 + 2048 :=
    fun k early => ⟨by have grows := readings.grows k; omega, inTime k early⟩
  have first : 0 + (rssi 0).toInt = sampleSum rssi 1 := by simp [sampleSum]
  have average := loop_average rssi fuel small ordered late once (Nat.le_refl 1) positive (by omega)
  have bounds := sampleSum_bounds rssi n
  have mean := tdiv_between (by omega) bounds.1 bounds.2
  have divided : s32Div (sampleSum rssi n) n = some ((sampleSum rssi n).tdiv n) := by
    rw [s32Div, if_neg (by omega)]
    exact if_pos (by omega)
  have peak : (Int8.ofInt ((sampleSum rssi n).tdiv n)).toInt = (sampleSum rssi n).tdiv n :=
    Int8.toInt_ofInt_of_le (by omega) (by omega)
  have one : ((1 : Nat) : Int) = 1 := rfl
  rw [one] at average
  rw [rfPerformCCA]
  simp only [first, s32_sampleSum (by omega : 1 ≤ 2049), Option.bind_eq_bind, Option.bind_some,
    average, divided, gt_iff_lt, Int8.lt_iff_toInt_lt, peak]
  by_cases busy : ccaThres.toInt < (sampleSum rssi n).tdiv n ∨ txBusy = true
  · rw [if_pos busy, if_pos busy]
  · rw [if_neg busy, if_neg busy]

/-- Samples of -80, -79 and -60 while the clock wraps between the second and the third. -/
def wrappingTime (k : Nat) : Nat := 4294965756 + 1000 * k

def threeSamples (k : Nat) : Int8 := if k = 0 then -80 else if k = 1 then -79 else -60

/-- Their mean is -73. -/
theorem rfPerformCCA_average_wrap
    : rfPerformCCA 2049 (fun k => UInt32.ofNat (wrappingTime k)) threeSamples (-74) false
      = some .busy := by
  have readings : Readings wrappingTime := by
    constructor <;> intro k <;> simp only [wrappingTime] <;> omega
  obtain ⟨n, -, -, inTime, late, result⟩ :=
    rfPerformCCA_average readings threeSamples (-74) false (Nat.le_refl 2049)
  simp only [wrappingTime] at inTime late
  have three : n = 3 := by
    have early := inTime 3
    omega
  subst three
  exact result

end TelinkSdk.Cca
