import TelinkSdk.Nor.Memory

/-! Bytes behind 32-bit addresses. Stepping over the last address leads back to the first one. -/

namespace Nor

/-- The contents, one byte for each address. -/
abbrev WordMem := UInt32 → UInt8

/-- The `count` addresses from `addr` on. -/
def span (addr : UInt32) (count : Nat) : List UInt32 :=
  (List.range count).map fun i => addr + UInt32.ofNat i

def WordMem.read (m : WordMem) (addr : UInt32) (count : Nat) : List UInt8 :=
  (span addr count).map m

/-- The same bytes behind numbers, repeated after the last address. -/
def WordMem.mem (m : WordMem) : Mem := fun x => m (UInt32.ofNat x)

/-- The part of an array that has an address. -/
def Mem.words (m : Mem) : WordMem := fun a => m a.toNat

-----------------------------------------------------------------------------------------
-- Spans
-----------------------------------------------------------------------------------------

@[simp]
theorem length_span (addr : UInt32) (count : Nat) : (span addr count).length = count := by
  simp [span]

@[simp]
theorem span_zero (addr : UInt32) : span addr 0 = [] := rfl

/-- A span splits at any point. -/
theorem span_add (addr : UInt32) (first second : Nat)
    : span addr (first + second) = span addr first ++ span (addr + UInt32.ofNat first) second := by
  simp only [span, List.range_add, List.map_append, List.map_map]
  congr 1
  apply List.map_congr_left
  intro i _
  simp [UInt32.add_assoc]

@[simp]
theorem WordMem.length_read (m : WordMem) (addr : UInt32) (count : Nat)
    : (m.read addr count).length = count := by
  simp [WordMem.read]

theorem WordMem.read_add (m : WordMem) (addr : UInt32) (first second : Nat)
    : m.read addr (first + second)
      = m.read addr first ++ m.read (addr + UInt32.ofNat first) second := by
  rw [WordMem.read, span_add, List.map_append]
  rfl

-----------------------------------------------------------------------------------------
-- Numbers as addresses
-----------------------------------------------------------------------------------------

/-- An address and a number that it stands for have the same bytes. -/
theorem WordMem.mem_add (m : WordMem) {addr : UInt32} {x : Nat} (same : addr = UInt32.ofNat x)
    (i : Nat)
    : m.mem (addr.toNat + i) = m.mem (x + i) := by
  rw [WordMem.mem, WordMem.mem, UInt32.ofNat_add, UInt32.ofNat_add, UInt32.ofNat_toNat, same]

/-- In front of the last address nothing is repeated. -/
theorem Mem.words_mem {m : Mem} {x : Nat} (fits : x < 4294967296) : m.words.mem x = m x := by
  rw [WordMem.mem, Mem.words, UInt32.toNat_ofNat_of_lt' fits]

theorem Mem.words_read {m : Mem} {addr : UInt32} {count : Nat}
    (fits : addr.toNat + count ≤ 4294967296)
    : m.words.read addr count = m.read addr.toNat count := by
  rw [WordMem.read, span, Mem.read, List.map_map]
  apply List.map_congr_left
  intro i member
  have inside := List.mem_range.mp member
  have small : (UInt32.ofNat i).toNat = i :=
    UInt32.toNat_ofNat_of_lt' (show i < 4294967296 by omega)
  show m (addr + UInt32.ofNat i).toNat = m (addr.toNat + i)
  rw [UInt32.toNat_add, small, Nat.mod_eq_of_lt (by omega)]

end Nor
