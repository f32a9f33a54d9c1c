import TelinkSdk.Nor.Memory
import TelinkSdk.Links.ListAt

/-! Byte-addressed memory with little-endian words. A word links its address to the address it
holds, and a zero word links to nothing.
-/

namespace Links

open Nor LinkView

/-- The contents of the memory, one byte for each address. -/
abbrev Ram := Mem

/-- Store a 32-bit number in the four bytes at `addr`. -/
def Ram.store32 (ram : Ram) (addr value : Nat) : Ram := fun x =>
  if addr ≤ x ∧ x < addr + 4 then (bytes32 value).getD (x - addr) blankByte else ram x

/-- Store bytes from `addr` on. -/
def Ram.storeBytes (ram : Ram) (addr : Nat) (bytes : List UInt8) : Ram := fun x =>
  if addr ≤ x ∧ x < addr + bytes.length then bytes.getD (x - addr) blankByte else ram x

/-- The node that a word points to. -/
def pointer (word : Nat) : Option Nat := if word = 0 then none else some word

/-- The word that points to a node. -/
def pointerWord (p : Option Nat) : Nat := p.getD 0

instance : LinkView Ram Nat where
  next ram addr := pointer (ram.le32 addr)

/-- Storing a word leaves every other byte alone. -/
theorem Ram.store32_outside {ram : Ram} {addr value x : Nat} (outside : x < addr ∨ addr + 4 ≤ x)
    : ram.store32 addr value x = ram x := by
  unfold Ram.store32
  rw [if_neg (by omega)]

/-- A stored word is read back. -/
theorem Ram.store32_le32 {ram : Ram} {addr value : Nat} (small : value < 4294967296)
    : (ram.store32 addr value).le32 addr = value := by
  apply Mem.le32_of_bytes small
  intro i inside
  unfold Ram.store32
  rw [if_pos (by omega), Nat.add_sub_cancel_left]

/-- Two words are apart when neither starts inside the other. -/
theorem Ram.store32_le32_apart {ram : Ram} {addr other value : Nat}
    (apart : other + 4 ≤ addr ∨ addr + 4 ≤ other)
    : (ram.store32 addr value).le32 other = ram.le32 other := by
  apply Mem.le32_congr
  intro i inside
  exact Ram.store32_outside (by omega)

theorem Ram.storeBytes_outside {ram : Ram} {addr x : Nat} {bytes : List UInt8}
    (outside : x < addr ∨ addr + bytes.length ≤ x)
    : ram.storeBytes addr bytes x = ram x :=
  if_neg (by omega)

/-- Stored bytes are read back. -/
theorem Ram.storeBytes_read (ram : Ram) (addr : Nat) (bytes : List UInt8)
    : (ram.storeBytes addr bytes).read addr bytes.length = bytes := by
  rw [Mem.read_eq_iff]
  intro i inside
  rw [Ram.storeBytes, if_pos (by omega), Nat.add_sub_cancel_left]

theorem Ram.next_congr {ram ram' : Ram} {addr : Nat}
    (same : ∀ x, addr ≤ x → x < addr + 4 → ram' x = ram x)
    : next ram' addr = next ram addr := by
  have word : ram'.le32 addr = ram.le32 addr := by
    apply Mem.le32_congr
    intro i inside
    exact same _ (by omega) (by omega)
  exact congrArg pointer word

theorem Ram.next_store32 {ram : Ram} {addr value : Nat} (small : value < 4294967296)
    : next (ram.store32 addr value) addr = pointer value :=
  congrArg pointer (Ram.store32_le32 small)

theorem pointer_of_pos {word : Nat} (positive : 0 < word) : pointer word = some word :=
  if_neg (by omega)

/-- The pointer to a node of a list is stored as its address. -/
theorem pointer_pointerWord {p : Option Nat} (valid : ∀ a ∈ p, 0 < a)
    : pointer (pointerWord p) = p := by
  cases p with
  | none => rfl
  | some a => exact pointer_of_pos (valid a rfl)

end Links
