import TelinkSdk.Crc.Reflected
import TelinkSdk.Ota.Crc

/-! The table-driven `xcrc32` is the reflected CRC-32 of the message, bit by bit. -/

namespace TelinkSdk

open Crc

/-- The polynomial of the CRC-32, reflected. -/
abbrev crc32Poly : BitVec 32 := 0xEDB88320#32

/-- The bits of a byte in the order in which a reflected check takes them. -/
def byteBits (byte : UInt8) : List Bool := lowBits 8 byte.toBitVec

/-- What `xcrc32` is to compute: the register after the bits of the message, without a final
inversion.
-/
def crc32Bitwise (buf : List UInt8) (init : UInt32) : UInt32 :=
  ⟨serial crc32Poly init.toBitVec (buf.flatMap byteBits)⟩

/-- Every word of the table holds eight shifts of its index. -/
theorem crc32Table_shifts
    : ∀ i < 256, (crc32Table.getD i 0).toBitVec = shifts crc32Poly 8 (BitVec.ofNat 32 i) := by
  decide +kernel

theorem byteBits_eq (byte : UInt8) : byteBits byte = lowBits 8 (byte.toBitVec.setWidth 32) := by
  rw [byteBits, lowBits, lowBits]
  apply List.map_congr_left
  intro i inside
  have small : i < 32 := by
    have := List.mem_range.mp inside
    omega
  simp [small]

/-- Masking with `0xff` cuts a register to its low byte. -/
theorem and_ff (crc : UInt32) : (crc &&& 0xff).toBitVec = (crc.toBitVec.setWidth 8).setWidth 32 := by
  apply BitVec.eq_of_toNat_eq
  have masked : (crc &&& 0xff).toNat = crc.toNat % 256 := by
    rw [UInt32.toNat_and]
    exact Nat.and_two_pow_sub_one_eq_mod crc.toNat 8
  rw [UInt32.toNat_toBitVec, masked, BitVec.toNat_setWidth, BitVec.toNat_setWidth,
    UInt32.toNat_toBitVec]
  omega

/-- One round of the loop takes the eight bits of its byte. -/
theorem xcrc32.byte_serial (crc : UInt32) (buf : UInt8)
    : (xcrc32.byte crc buf).toBitVec = serial crc32Poly crc.toBitVec (byteBits buf) := by
  have small : buf.toBitVec.setWidth 32 >>> 8 = 0#32 := by
    apply BitVec.eq_of_getLsbD_eq
    intro i _
    simp
  have low := and_ff (crc ^^^ buf.toUInt32)
  have index : ((crc ^^^ buf.toUInt32) &&& 0xff).toNat < 256 := by
    rw [← UInt32.toNat_toBitVec, low, BitVec.toNat_setWidth, BitVec.toNat_setWidth]
    omega
  have entry := crc32Table_shifts _ index
  rw [← UInt32.toNat_toBitVec, BitVec.ofNat_toNat, BitVec.setWidth_eq, low] at entry
  rw [byteBits_eq, serial_lowBits small, shifts_table, BitVec.ushiftRight_xor_distrib, small,
    BitVec.xor_zero, xcrc32.byte, UInt32.toBitVec_xor, ← UInt32.toNat_toBitVec, low, entry]
  rfl

theorem xcrc32_eq_crc32Bitwise (buf : List UInt8) (init : UInt32)
    : xcrc32 buf init = crc32Bitwise buf init := by
  have serials : (xcrc32 buf init).toBitVec
      = serial crc32Poly init.toBitVec (buf.flatMap byteBits) := by
    induction buf generalizing init with
    | nil => rfl
    | cons byte rest ih =>
        rw [List.flatMap_cons, serial, List.foldl_append, ← serial, ← serial,
          ← xcrc32.byte_serial, ← ih]
        rfl
  exact UInt32.toBitVec_inj.mp serials

/-- `xcrc32` is the reflected CRC-32 of its message, started from `init`, and the check of a split
message goes on from the check of its first part.
-/
theorem xcrc32_crc32
    : (∀ (buf : List UInt8) (init : UInt32), xcrc32 buf init = crc32Bitwise buf init)
      ∧ ∀ (a b : List UInt8) (init : UInt32), xcrc32 (a ++ b) init = xcrc32 b (xcrc32 a init) :=
  ⟨xcrc32_eq_crc32Bitwise, xcrc32_append⟩

/-- The check value of the nine digits, before the final inversion. -/
example : xcrc32 "123456789".toUTF8.toList 0xffffffff = ~~~0xCBF43926 := by decide +kernel

end TelinkSdk
