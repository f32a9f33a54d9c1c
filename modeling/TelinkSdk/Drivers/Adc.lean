import TelinkSdk.Sorts.Insertion

/-! The voltage of the ADC driver for the B91, `drv_adc.c`. Eight samples are sorted, and the middle
four are averaged.
-/

namespace TelinkSdk.Adc

open Sorts

abbrev adcSampleNum : Nat := 8

instance uint16Order : LinearOrder UInt16 where
  le_refl := UInt16.le_refl
  le_trans _ _ _ := UInt16.le_trans
  le_antisymm _ _ := UInt16.le_antisymm
  le_total := UInt16.le_total
  lt_iff_le_not_ge a b := by
    simp only [UInt16.lt_iff_toNat_lt, UInt16.le_iff_toNat_le]
    omega
  toDecidableLE := UInt16.decLe
  toDecidableLT := UInt16.decLt

/-- The sum of `adc_get_voltage_dma`, of the values that are left when a quarter of the smallest and
a quarter of the biggest ones are abandoned.
-/
def adcCodeAverage (adcSampleBuffer : Nat → UInt16) : UInt16 :=
  let first := adcSampleNum >>> 2
  (List.range' first (adcSampleNum - 2 * first)).foldl
    (fun average i => average + adcSampleBuffer i / UInt16.ofNat (adcSampleNum >>> 1)) 0

/-- `adc_get_voltage_dma`, from what `adc_get_code_dma` fills the buffer with. The counters of its
loops stay between -1 and 8.
-/
def adcGetVoltageDma (adcCalculateVoltage : UInt16 → UInt16) (adcSampleBuffer : Nat → UInt16)
    : UInt16 :=
  adcCalculateVoltage (adcCodeAverage (insertionSort adcSampleNum adcSampleBuffer))

/-- The sum of the quarters is below the largest word. -/
theorem adcCodeAverage_toNat (buf : Nat → UInt16)
    : (adcCodeAverage buf).toNat
      = (buf 2).toNat / 4 + (buf 3).toNat / 4 + (buf 4).toNat / 4 + (buf 5).toNat / 4 := by
  have sum : adcCodeAverage buf = 0 + buf 2 / 4 + buf 3 / 4 + buf 4 / 4 + buf 5 / 4 := rfl
  have second := (buf 2).toNat_lt
  have third := (buf 3).toNat_lt
  have fourth := (buf 4).toNat_lt
  have fifth := (buf 5).toNat_lt
  simp only [sum, UInt16.toNat_add, UInt16.toNat_div, UInt16.reduceToNat, Nat.reducePow]
  omega

/-- The number of samples outside of a range. -/
def wild (adcSampleBuffer : Nat → UInt16) (lo hi : UInt16) : Nat :=
  (front adcSampleBuffer adcSampleNum).countP fun sample => sample < lo ∨ hi < sample

/-- Two wild samples of the eight do not move the voltage: its code is within every range that the
other six are in, but for three steps that the divisions may lose. The order of the samples does not
matter.
-/
theorem adcGetVoltageDma_robust (adcCalculateVoltage : UInt16 → UInt16)
    (samples : Nat → UInt16)
    : (∀ lo hi, wild samples lo hi ≤ 2
        → ∃ code, adcGetVoltageDma adcCalculateVoltage samples = adcCalculateVoltage code
          ∧ lo.toNat ≤ code.toNat + 3 ∧ code ≤ hi)
      ∧ ∀ others, (front others adcSampleNum).Perm (front samples adcSampleNum)
        → adcGetVoltageDma adcCalculateVoltage others
          = adcGetVoltageDma adcCalculateVoltage samples := by
  obtain ⟨sorted, perm⟩ := insertionSort_spec adcSampleNum samples
  refine ⟨fun lo hi few => ⟨_, rfl, ?_⟩, fun others same => ?_⟩
  · have counted : (front (insertionSort adcSampleNum samples) adcSampleNum).countP
        (fun sample => sample < lo ∨ hi < sample) ≤ 2 := (perm.countP_eq _).trans_le few
    generalize insertionSort adcSampleNum samples = buf at sorted counted
    have low : (front buf adcSampleNum).countP (· < lo) ≤ 2 :=
      (List.countP_mono_left fun a _ below => by simp_all).trans counted
    have high : (front buf adcSampleNum).countP (hi < ·) ≤ 2 :=
      (List.countP_mono_left fun a _ above => by simp_all).trans counted
    have above_low (i : Nat) (place : 2 ≤ i) (inside : i < 8) : lo.toNat ≤ (buf i).toNat := by
      have bound := le_getElem_of_countP sorted low place (by simpa using inside)
      rwa [front_getElem, UInt16.le_iff_toNat_le] at bound
    have below_high (i : Nat) (inside : i + 2 < 8) : (buf i).toNat ≤ hi.toNat := by
      have bound := getElem_le_of_countP sorted high (i := i) (by simpa using inside)
      rwa [front_getElem, UInt16.le_iff_toNat_le] at bound
    have two := above_low 2 (by decide) (by decide)
    have three := above_low 3 (by decide) (by decide)
    have four := above_low 4 (by decide) (by decide)
    have five := above_low 5 (by decide) (by decide)
    have two' := below_high 2 (by decide)
    have three' := below_high 3 (by decide)
    have four' := below_high 4 (by decide)
    have five' := below_high 5 (by decide)
    rw [UInt16.le_iff_toNat_le, adcCodeAverage_toNat]
    omega
  · obtain ⟨sorted', perm'⟩ := insertionSort_spec adcSampleNum others
    have equal := (perm'.trans (same.trans perm.symm)).eq_of_pairwise
      (fun a b _ _ => le_antisymm) sorted' sorted
    have place (i : Nat) (inside : i < 8)
        : insertionSort adcSampleNum others i = insertionSort adcSampleNum samples i := by
      have here := congrArg (fun l => l[i]?) equal
      simpa [front, inside] using here
    refine congrArg adcCalculateVoltage (UInt16.toNat_inj.mp ?_)
    simp only [adcCodeAverage_toNat, place 2 (by decide), place 3 (by decide),
      place 4 (by decide), place 5 (by decide)]

/-- One sample that is far too low and one that is far too high. -/
example : wild (fun i => [2000, 2001, 0, 2003, 65535, 2002, 2000, 2004].getD i 0) 2000 2004 = 2 := by
  decide

end TelinkSdk.Adc
