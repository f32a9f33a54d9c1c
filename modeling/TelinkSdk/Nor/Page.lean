import TelinkSdk.Nor.Memory

/-! The page-program command of a NOR chip. The address counter of the command runs inside one
page: behind the last byte of the page it goes on with the first.
-/

namespace Nor

/-- Program bytes one after the other from `page + offset` on, the offset counting modulo the
page size.
-/
def Mem.programWrapped (pageSize page : Nat) : Mem → Nat → List UInt8 → Mem
  | m, _, [] => m
  | m, offset, byte :: rest =>
      programWrapped pageSize page (m.program (page + offset) [byte]) ((offset + 1) % pageSize) rest

/-- The page-program command at `addr`. -/
def Mem.pageProgram (m : Mem) (pageSize addr : Nat) (bytes : List UInt8) : Mem :=
  m.programWrapped pageSize (addr / pageSize * pageSize) (addr % pageSize) bytes

/-- Programming a list is programming its first byte and then the others. -/
theorem Mem.program_cons (m : Mem) (addr : Nat) (byte : UInt8) (rest : List UInt8)
    : m.program addr (byte :: rest) = (m.program addr [byte]).program (addr + 1) rest := by
  funext x
  by_cases outside : x < addr ∨ addr + 1 + rest.length ≤ x
  · rw [Mem.program_outside (by simp; omega), Mem.program_outside (by omega),
      Mem.program_outside (by simp; omega)]
  · obtain ⟨i, rfl⟩ : ∃ i, x = addr + i := ⟨x - addr, by omega⟩
    rw [Mem.program_inside (by simp; omega)]
    cases i with
    | zero =>
        rw [Mem.program_outside (by omega), Mem.program_inside (by simp)]
        rfl
    | succ i =>
        have later : addr + (i + 1) = addr + 1 + i := by omega
        rw [later, Mem.program_inside (by omega), Mem.program_outside (by simp)]
        rfl

/-- Programming a list is programming its parts one behind the other. -/
theorem Mem.program_append (m : Mem) (addr : Nat) (first second : List UInt8)
    : m.program addr (first ++ second)
      = (m.program addr first).program (addr + first.length) second := by
  induction first generalizing m addr with
  | nil => simp
  | cons byte rest ih =>
      have after : addr + (byte :: rest).length = addr + 1 + rest.length := by
        simp only [List.length_cons]
        omega
      rw [List.cons_append, Mem.program_cons, Mem.program_cons m addr byte rest, ih, after]

/-- A blank byte programs nothing. -/
theorem Mem.program_blank_byte (m : Mem) (addr : Nat) : m.program addr [blankByte] = m := by
  funext x
  rw [Mem.program_byte]
  split
  · subst x
    exact and_blankByte _
  · rfl

theorem Mem.program_blanks {m : Mem} {addr : Nat} {bytes : List UInt8}
    (blank : ∀ byte ∈ bytes, byte = blankByte)
    : m.program addr bytes = m := by
  induction bytes generalizing m addr with
  | nil => exact Mem.program_nil m addr
  | cons byte rest ih =>
      rw [Mem.program_cons, blank byte (by simp), Mem.program_blank_byte]
      exact ih (fun later member => blank later (by simp [member]))

variable {pageSize page offset : Nat} {m : Mem} {bytes : List UInt8}

/-- Bytes that end inside the page are programmed in place. -/
theorem Mem.programWrapped_inside (room : offset + bytes.length ≤ pageSize)
    : m.programWrapped pageSize page offset bytes = m.program (page + offset) bytes := by
  induction bytes generalizing m offset with
  | nil => exact (Mem.program_nil m _).symm
  | cons byte rest ih =>
      rw [Mem.programWrapped, Mem.program_cons m _ byte rest]
      cases rest with
      | nil => exact (Mem.program_nil _ _).symm
      | cons following others =>
          simp only [List.length_cons] at room ih
          rw [Nat.mod_eq_of_lt (by omega), ih (by omega), Nat.add_assoc]

/-- Bytes outside the page stay as they are. -/
theorem Mem.programWrapped_outside {x : Nat} (inPage : offset < pageSize)
    (outside : x < page ∨ page + pageSize ≤ x)
    : m.programWrapped pageSize page offset bytes x = m x := by
  induction bytes generalizing m offset with
  | nil => rfl
  | cons byte rest ih =>
      rw [Mem.programWrapped, ih (Nat.mod_lt _ (by omega))]
      exact Mem.program_outside (by simp; omega)

theorem Mem.programWrapped_blanks (blank : ∀ byte ∈ bytes, byte = blankByte)
    : m.programWrapped pageSize page offset bytes = m := by
  induction bytes generalizing m offset with
  | nil => rfl
  | cons byte rest ih =>
      rw [Mem.programWrapped, blank byte (by simp), Mem.program_blank_byte]
      exact ih (fun later member => blank later (by simp [member]))

/-- The command goes on behind the first bytes at some offset. -/
theorem Mem.programWrapped_append (m : Mem) (pageSize page offset : Nat)
    (first second : List UInt8)
    : ∃ offset', m.programWrapped pageSize page offset (first ++ second)
      = (m.programWrapped pageSize page offset first).programWrapped pageSize page offset'
          second := by
  induction first generalizing m offset with
  | nil => exact ⟨offset, rfl⟩
  | cons byte rest ih => exact ih _ _

/-- A command that ends inside its page programs its bytes in place. -/
theorem Mem.pageProgram_inside {addr : Nat} (room : addr % pageSize + bytes.length ≤ pageSize)
    : m.pageProgram pageSize addr bytes = m.program addr bytes := by
  rw [Mem.pageProgram, Mem.programWrapped_inside room, Nat.mul_comm, Nat.div_add_mod]

/-- A command programs its bytes in place, whatever the memory holds, exactly when those behind
the end of the page are blank.
-/
theorem Mem.pageProgram_iff {addr : Nat} (positive : 0 < pageSize)
    : (∀ m : Mem, m.pageProgram pageSize addr bytes = m.program addr bytes)
      ↔ ∀ byte ∈ bytes.drop (pageSize - addr % pageSize), byte = blankByte := by
  have small : addr % pageSize < pageSize := Nat.mod_lt _ positive
  have start : addr / pageSize * pageSize + addr % pageSize = addr := by
    rw [Nat.mul_comm]
    exact Nat.div_add_mod addr pageSize
  constructor
  · intro correct byte member
    obtain ⟨i, inside, rfl⟩ := List.mem_iff_getElem.mp member
    rw [List.length_drop] at inside
    -- on blank memory the byte behind the page shows what should have been programmed there
    have place := congrFun (correct Mem.blank) (addr + (pageSize - addr % pageSize + i))
    rw [Mem.pageProgram, Mem.programWrapped_outside small (by omega),
      Mem.program_inside (by omega)] at place
    simp only [Mem.blank, blankByte_and] at place
    rw [place, List.getElem_drop, List.getD_eq_getElem?_getD,
      List.getElem?_eq_getElem (by omega), Option.getD_some]
  · intro blank m
    have split := List.take_append_drop (pageSize - addr % pageSize) bytes
    have room : addr % pageSize + (bytes.take (pageSize - addr % pageSize)).length ≤ pageSize := by
      rw [List.length_take]
      omega
    obtain ⟨offset', behind⟩ := m.programWrapped_append pageSize (addr / pageSize * pageSize)
      (addr % pageSize) (bytes.take (pageSize - addr % pageSize))
      (bytes.drop (pageSize - addr % pageSize))
    rw [split] at behind
    rw [Mem.pageProgram, behind, Mem.programWrapped_blanks blank, Mem.programWrapped_inside room,
      start]
    conv_rhs => rw [← split, Mem.program_append, Mem.program_blanks blank]

end Nor
