import Mathlib.Tactic.Common

/-! Contents of a NOR flash array. Programming can only clear bits, so writing bytes is a
bytewise AND; erasing sets one whole sector to 0xFF. Nothing here knows what is stored.
-/

namespace Nor

/-- The contents of the array, one byte for each address. -/
abbrev Mem := Nat → UInt8

/-- The value of every byte of a freshly erased sector. -/
abbrev blankByte : UInt8 := 0xFF

/-- The array after a mass erase. -/
def Mem.blank : Mem := fun _ => blankByte

/-- The `count` bytes from `addr` on. -/
def Mem.read (m : Mem) (addr count : Nat) : List UInt8 :=
  (List.range count).map (fun i => m (addr + i))

/-- Program `bytes` at `addr`: each addressed byte keeps only the bits set in both. -/
def Mem.program (m : Mem) (addr : Nat) (bytes : List UInt8) : Mem := fun x =>
  if addr ≤ x ∧ x < addr + bytes.length then
    m x &&& bytes.getD (x - addr) blankByte
  else
    m x

/-- Erase the sector of `sectorSize` bytes that contains `addr`. -/
def Mem.erase (m : Mem) (sectorSize addr : Nat) : Mem := fun x =>
  if x / sectorSize = addr / sectorSize then blankByte else m x

/-- The bytes of `[lo, hi)` are all blank. -/
def Mem.BlankOn (m : Mem) (lo hi : Nat) : Prop :=
  ∀ x, lo ≤ x → x < hi → m x = blankByte

-----------------------------------------------------------------------------------------
-- Reading
-----------------------------------------------------------------------------------------

@[simp]
theorem Mem.read_length (m : Mem) (addr count : Nat) : (m.read addr count).length = count := by
  simp [Mem.read]

@[simp]
theorem Mem.read_zero (m : Mem) (addr : Nat) : m.read addr 0 = [] := rfl

/-- A byte of a read is the byte at its address. -/
theorem Mem.read_getD (m : Mem) {addr count i : Nat} (inside : i < count) (fill : UInt8)
    : (m.read addr count).getD i fill = m (addr + i) := by
  simp [Mem.read, List.getD_eq_getElem?_getD, inside]

/-- A read splits at any point, by splitting its index range. -/
theorem Mem.read_add (m : Mem) (addr first second : Nat)
    : m.read addr (first + second) = m.read addr first ++ m.read (addr + first) second := by
  simp only [Mem.read, List.range_add, List.map_append, List.map_map]
  congr 1
  apply List.map_congr_left
  intro i _
  simp [Nat.add_assoc]

/-- A range is read block by block, by induction on the number of blocks. -/
theorem Mem.read_blocks (m : Mem) (addr width size count : Nat)
    : (List.range count).flatMap
        (fun n => m.read (addr + width * n) (min width (size - width * n)))
      = m.read addr (min (width * count) size) := by
  induction count with
  | zero => simp
  | succ count ih =>
      rw [List.range_succ, List.flatMap_append, ih, List.flatMap_singleton]
      by_cases short : width * count ≤ size
      · have split : min (width * (count + 1)) size
            = min (width * count) size + min width (size - width * count) := by
          rw [Nat.mul_succ]
          omega
        rw [split, Mem.read_add, Nat.min_eq_left short]
      · have full : min (width * (count + 1)) size = min (width * count) size := by
          rw [Nat.mul_succ]
          omega
        have empty : size - width * count = 0 := by omega
        rw [full, empty, Nat.min_zero, Mem.read_zero, List.append_nil]

/-- Reads agree where the two arrays do. -/
theorem Mem.read_congr {m m' : Mem} {addr addr' count : Nat}
    (same : ∀ i < count, m' (addr' + i) = m (addr + i))
    : m'.read addr' count = m.read addr count := by
  apply List.map_congr_left
  intro i member
  exact same i (List.mem_range.mp member)

/-- A list is read back exactly when each byte of it is in place. -/
theorem Mem.read_eq_iff {m : Mem} {addr : Nat} {bytes : List UInt8}
    : m.read addr bytes.length = bytes
      ↔ ∀ i < bytes.length, m (addr + i) = bytes.getD i blankByte := by
  constructor
  · intro same i inside
    rw [← m.read_getD inside blankByte, same]
  · intro placed
    apply List.ext_getElem (by simp)
    intro i _ inside
    have byte := placed i inside
    simpa [Mem.read, List.getD_eq_getElem?_getD, inside] using byte

-----------------------------------------------------------------------------------------
-- Programming
-----------------------------------------------------------------------------------------

/-- Programming leaves every byte outside the written range alone. -/
theorem Mem.program_outside {m : Mem} {addr x : Nat} {bytes : List UInt8}
    (outside : x < addr ∨ addr + bytes.length ≤ x)
    : m.program addr bytes x = m x := by
  unfold Mem.program
  rw [if_neg (by omega)]

/-- Programming a written byte masks it with the byte written there. -/
theorem Mem.program_inside {m : Mem} {addr i : Nat} {bytes : List UInt8}
    (inside : i < bytes.length)
    : m.program addr bytes (addr + i) = m (addr + i) &&& bytes.getD i blankByte := by
  unfold Mem.program
  rw [if_pos (by omega), Nat.add_sub_cancel_left]

/-- Masking a blank byte stores the written value. -/
@[simp]
theorem blankByte_and (value : UInt8) : blankByte &&& value = value := by
  apply UInt8.toBitVec_inj.mp
  simp only [UInt8.toBitVec_and]
  exact BitVec.allOnes_and

/-- Masking with a blank byte changes nothing. -/
@[simp]
theorem and_blankByte (value : UInt8) : value &&& blankByte = value := by
  rw [UInt8.and_comm, blankByte_and]

/-- Programming a blank byte stores the written value. -/
theorem Mem.program_blank {m : Mem} {addr i : Nat} {bytes : List UInt8}
    (inside : i < bytes.length) (blank : m (addr + i) = blankByte)
    : m.program addr bytes (addr + i) = bytes.getD i blankByte := by
  rw [Mem.program_inside inside, blank, blankByte_and]

/-- A range that was blank reads back as the bytes programmed into it. -/
theorem Mem.program_read_blank {m : Mem} {addr : Nat} {bytes : List UInt8}
    (blank : m.BlankOn addr (addr + bytes.length))
    : (m.program addr bytes).read addr bytes.length = bytes := by
  apply Mem.read_eq_iff.mpr
  intro i inside
  exact Mem.program_blank inside (blank _ (by omega) (by omega))

@[simp]
theorem Mem.program_nil (m : Mem) (addr : Nat) : m.program addr [] = m := by
  funext x
  exact Mem.program_outside (by simp; omega)

/-- Programming one byte touches only its address. -/
theorem Mem.program_byte (m : Mem) (addr x : Nat) (value : UInt8)
    : m.program addr [value] x = if x = addr then m addr &&& value else m x := by
  by_cases same : x = addr
  · subst x
    have byte : m.program addr [value] (addr + 0) = m (addr + 0) &&& value :=
      Mem.program_inside (by simp)
    simpa using byte
  · rw [if_neg same]
    exact Mem.program_outside (by simp; omega)

-----------------------------------------------------------------------------------------
-- Erasing
-----------------------------------------------------------------------------------------

/-- The sector of an aligned address is the range that starts there. -/
theorem sector_iff {sectorSize addr x : Nat} (positive : 0 < sectorSize)
    (aligned : addr % sectorSize = 0)
    : x / sectorSize = addr / sectorSize ↔ addr ≤ x ∧ x < addr + sectorSize := by
  have split := Nat.div_add_mod addr sectorSize
  rw [Nat.div_eq_iff positive, Nat.mul_comm]
  omega

/-- Erasing at an aligned address blanks exactly the sector that starts there. -/
theorem Mem.erase_aligned (m : Mem) {sectorSize addr : Nat} (positive : 0 < sectorSize)
    (aligned : addr % sectorSize = 0) (x : Nat)
    : m.erase sectorSize addr x
      = if addr ≤ x ∧ x < addr + sectorSize then blankByte else m x := by
  unfold Mem.erase
  simp only [sector_iff positive aligned]

-----------------------------------------------------------------------------------------
-- Little-endian numbers
-----------------------------------------------------------------------------------------

/-- The little-endian 16-bit number stored at `addr`. -/
def Mem.le16 (m : Mem) (addr : Nat) : Nat := (m addr).toNat + 256 * (m (addr + 1)).toNat

/-- The little-endian 32-bit number stored at `addr`. -/
def Mem.le32 (m : Mem) (addr : Nat) : Nat := m.le16 addr + 65536 * m.le16 (addr + 2)

/-- The two bytes of a 16-bit number, low byte first. -/
def bytes16 (value : Nat) : List UInt8 := [UInt8.ofNat value, UInt8.ofNat (value / 256)]

/-- The four bytes of a 32-bit number, low byte first. -/
def bytes32 (value : Nat) : List UInt8 := bytes16 value ++ bytes16 (value / 65536)

@[simp]
theorem bytes16_length (value : Nat) : (bytes16 value).length = 2 := rfl

@[simp]
theorem bytes32_length (value : Nat) : (bytes32 value).length = 4 := rfl

theorem Mem.le16_lt (m : Mem) (addr : Nat) : m.le16 addr < 65536 := by
  have low := (m addr).toNat_lt
  have high := (m (addr + 1)).toNat_lt
  unfold Mem.le16
  omega

theorem Mem.le32_lt (m : Mem) (addr : Nat) : m.le32 addr < 4294967296 := by
  have low := m.le16_lt addr
  have high := m.le16_lt (addr + 2)
  unfold Mem.le32
  omega

/-- Numbers agree where the arrays do. -/
theorem Mem.le16_congr {m m' : Mem} {addr addr' : Nat}
    (same : ∀ i < 2, m' (addr' + i) = m (addr + i))
    : m'.le16 addr' = m.le16 addr := by
  have first := same 0 (by omega)
  rw [Nat.add_zero, Nat.add_zero] at first
  rw [Mem.le16, Mem.le16, first, same 1 (by omega)]

theorem Mem.le32_congr {m m' : Mem} {addr addr' : Nat}
    (same : ∀ i < 4, m' (addr' + i) = m (addr + i))
    : m'.le32 addr' = m.le32 addr := by
  have low := Mem.le16_congr (fun i inside => same i (by omega : i < 4))
  have high : m'.le16 (addr' + 2) = m.le16 (addr + 2) := by
    apply Mem.le16_congr
    intro i inside
    rw [Nat.add_assoc, Nat.add_assoc]
    exact same (2 + i) (by omega)
  rw [Mem.le32, Mem.le32, low, high]

/-- A stored 16-bit number is read back, by recombining its two bytes. -/
theorem Mem.le16_of_bytes {m : Mem} {addr value : Nat} (small : value < 65536)
    (stored : ∀ i < 2, m (addr + i) = (bytes16 value).getD i blankByte)
    : m.le16 addr = value := by
  have low := stored 0 (by omega)
  have high := stored 1 (by omega)
  simp only [bytes16, List.getD_cons_zero, List.getD_cons_succ, Nat.add_zero] at low high
  rw [Mem.le16, low, high]
  simp only [UInt8.toNat_ofNat']
  omega

/-- A stored 32-bit number is read back, by recombining its two halves. -/
theorem Mem.le32_of_bytes {m : Mem} {addr value : Nat} (small : value < 4294967296)
    (stored : ∀ i < 4, m (addr + i) = (bytes32 value).getD i blankByte)
    : m.le32 addr = value := by
  have low : m.le16 addr = value % 65536 := by
    apply Mem.le16_of_bytes (by omega)
    intro i inside
    rw [stored i (by omega)]
    have cases : i = 0 ∨ i = 1 := by omega
    rcases cases with rfl | rfl <;>
      simp only [bytes32, bytes16, List.cons_append, List.getD_cons_zero, List.getD_cons_succ] <;>
      apply UInt8.toNat_inj.mp <;> simp only [UInt8.toNat_ofNat'] <;> omega
  have high : m.le16 (addr + 2) = value / 65536 := by
    apply Mem.le16_of_bytes (by omega)
    intro i inside
    rw [Nat.add_assoc, stored (2 + i) (by omega)]
    have cases : i = 0 ∨ i = 1 := by omega
    rcases cases with rfl | rfl <;> rfl
  rw [Mem.le32, low, high]
  omega

/-- Four blank bytes read as the largest 32-bit number. -/
theorem Mem.le32_blank {m : Mem} {addr : Nat} (blank : m.BlankOn addr (addr + 4))
    : m.le32 addr = 4294967295 := by
  apply Mem.le32_of_bytes (by omega)
  intro i inside
  rw [blank _ (by omega) (by omega)]
  have cases : i = 0 ∨ i = 1 ∨ i = 2 ∨ i = 3 := by omega
  rcases cases with rfl | rfl | rfl | rfl <;> rfl

end Nor
