import Mathlib.Data.List.Range

/-! Reflected cyclic redundancy checks over any width and polynomial: the register that takes one
bit at a time, and the steps that take several bits at once.
-/

namespace Crc

variable {w : Nat} (poly : BitVec w)

-----------------------------------------------------------------------------------------
-- The register
-----------------------------------------------------------------------------------------

/-- One shift of the register; a bit that leaves it folds the polynomial in. -/
def shift (crc : BitVec w) : BitVec w :=
  if crc.getLsbD 0 then crc >>> 1 ^^^ poly else crc >>> 1

def shifts : Nat → BitVec w → BitVec w
  | 0, crc => crc
  | count + 1, crc => shifts count (shift poly crc)

/-- Take one bit of the message. -/
def feed (crc : BitVec w) (bit : Bool) : BitVec w :=
  shift poly (crc ^^^ (BitVec.ofBool bit).setWidth w)

/-- Take the bits of a message, the first one first. -/
def serial (crc : BitVec w) (message : List Bool) : BitVec w := message.foldl (feed poly) crc

/-- The low `count` bits of a word, the least significant first. -/
def lowBits (count : Nat) (word : BitVec w) : List Bool := (List.range count).map word.getLsbD

-----------------------------------------------------------------------------------------
-- Several bits at once
-----------------------------------------------------------------------------------------

variable {poly} {count : Nat} {crc word : BitVec w}

/-- The register is linear: the two words fold the polynomial in where exactly one of them does. -/
theorem shift_xor (crc word : BitVec w)
    : shift poly (crc ^^^ word) = shift poly crc ^^^ shift poly word := by
  unfold shift
  rw [BitVec.getLsbD_xor, BitVec.ushiftRight_xor_distrib]
  cases crc.getLsbD 0 <;> cases word.getLsbD 0
  · rfl
  · simp [BitVec.xor_assoc]
  · simp only [Bool.xor_false, if_true, Bool.false_eq_true, if_false]
    rw [BitVec.xor_assoc, BitVec.xor_assoc, BitVec.xor_comm poly]
  · simp only [Bool.xor_self, Bool.false_eq_true, if_false, if_true]
    rw [BitVec.xor_comm (word >>> 1), BitVec.xor_assoc, ← BitVec.xor_assoc poly, BitVec.xor_self,
      BitVec.zero_xor]

theorem shifts_xor (count : Nat) (crc word : BitVec w)
    : shifts poly count (crc ^^^ word) = shifts poly count crc ^^^ shifts poly count word := by
  induction count generalizing crc word with
  | zero => rfl
  | succ count ih =>
      rw [shifts, shift_xor, ih]
      rfl

/-- Nothing is folded in while zeros leave the register. -/
theorem shifts_zeros (zeros : ∀ i < count, crc.getLsbD i = false)
    : shifts poly count crc = crc >>> count := by
  induction count generalizing crc with
  | zero => simp [shifts]
  | succ count ih =>
      have plain : shift poly crc = crc >>> 1 := if_neg (by simp [zeros 0 (by omega)])
      rw [shifts, plain, ih, ← BitVec.shiftRight_add, Nat.add_comm]
      intro i inside
      rw [BitVec.getLsbD_ushiftRight]
      exact zeros (1 + i) (by omega)

/-- A word is its low part over its high part. -/
theorem split_low (count : Nat) (crc : BitVec w)
    : crc = (crc >>> count) <<< count ^^^ (crc.setWidth count).setWidth w := by
  apply BitVec.eq_of_getLsbD_eq
  intro i inside
  rw [BitVec.getLsbD_xor, BitVec.getLsbD_shiftLeft, BitVec.getLsbD_ushiftRight,
    BitVec.getLsbD_setWidth, BitVec.getLsbD_setWidth]
  by_cases low : i < count
  · simp [low, inside]
  · simp [low, inside, Nat.add_sub_cancel' (Nat.not_lt.mp low)]

/-- The step of a table: `count` shifts at once, by the shifts of the low part alone. -/
theorem shifts_table (count : Nat) (crc : BitVec w)
    : shifts poly count crc
      = crc >>> count ^^^ shifts poly count ((crc.setWidth count).setWidth w) := by
  have high : shifts poly count ((crc >>> count) <<< count) = crc >>> count := by
    rw [shifts_zeros]
    · apply BitVec.eq_of_getLsbD_eq
      intro i inside
      rw [BitVec.getLsbD_ushiftRight, BitVec.getLsbD_shiftLeft, BitVec.getLsbD_ushiftRight]
      by_cases fits : count + i < w
      · simp [fits]
      · simp [fits, BitVec.getLsbD_of_ge crc (count + i) (by omega)]
    · intro i low
      simp [BitVec.getLsbD_shiftLeft, low]
  conv_lhs => rw [split_low count crc]
  rw [shifts_xor, high]

theorem lowBits_succ (count : Nat) (word : BitVec w)
    : lowBits (count + 1) word = word.getLsbD 0 :: lowBits count (word >>> 1) := by
  rw [lowBits, List.range_succ_eq_map, List.map_cons, List.map_map, lowBits]
  congr 1
  apply List.map_congr_left
  intro i _
  rw [Function.comp_apply, BitVec.getLsbD_ushiftRight, Nat.succ_eq_one_add]

/-- A word leaves the register as its last bit and the rest of it. -/
theorem shift_split (word : BitVec w)
    : shift poly word
      = shift poly ((BitVec.ofBool (word.getLsbD 0)).setWidth w) ^^^ word >>> 1 := by
  have gone (bit : Bool) : (BitVec.ofBool bit).setWidth w >>> 1 = 0#w := by
    apply BitVec.eq_of_getLsbD_eq
    intro i _
    simp
  have last : ((BitVec.ofBool (word.getLsbD 0)).setWidth w).getLsbD 0 = word.getLsbD 0 := by
    rw [BitVec.getLsbD_setWidth]
    by_cases inside : 0 < w
    · simp [inside]
    · simp [inside, BitVec.getLsbD_of_ge word 0 (by omega)]
  unfold shift
  rw [last, gone]
  cases word.getLsbD 0
  · simp
  · simp [BitVec.xor_comm]

/-- Bits taken one by one are a word taken at once, by induction on the bits. -/
theorem serial_lowBits (small : word >>> count = 0#w) (crc : BitVec w)
    : serial poly crc (lowBits count word) = shifts poly count (crc ^^^ word) := by
  induction count generalizing crc word with
  | zero =>
      have zero : word = 0#w := by simpa using small
      rw [zero, BitVec.xor_zero]
      rfl
  | succ count ih =>
      have rest : word >>> 1 >>> count = 0#w := by
        rw [← BitVec.shiftRight_add, Nat.add_comm]
        exact small
      rw [lowBits_succ]
      change serial poly (feed poly crc (word.getLsbD 0)) (lowBits count (word >>> 1)) = _
      rw [ih rest, shifts, shift_xor, shift_split word, feed, shift_xor, BitVec.xor_assoc]

end Crc
