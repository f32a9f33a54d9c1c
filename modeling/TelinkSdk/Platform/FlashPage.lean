import TelinkSdk.Nor.Page

/-! The page writers of the four chips. Three of them cut a write at the page boundaries, the
one of the 8258 sends it as a single command.
-/

namespace TelinkSdk

open Nor

/-- `PAGE_SIZE` of the chips. -/
abbrev pageSize : Nat := 256

inductive McuCore where
  | mcu8258
  | mcu8278
  | mcu826x
  | mcuB91
  deriving DecidableEq, Repr

namespace Platform

/-- `flash_write_page` of the 8258. -/
def flashWritePage8258 (m : Mem) (addr : Nat) (buf : List UInt8) : Mem :=
  m.pageProgram pageSize addr buf

/-- The `do` loop shared by the writers of the 8278 and the 826x: `ns` bytes are left in the
page. The fuel bounds the rounds; each that is followed by another takes at least one byte.
-/
def writePages : Nat → Nat → Mem → Nat → List UInt8 → Mem
  | 0, _, m, _, _ => m
  | fuel + 1, ns, m, addr, buf =>
      let nw := if buf.length > ns then ns else buf.length
      let m := m.pageProgram pageSize addr (buf.take nw)
      if buf.length - nw > 0 then writePages fuel pageSize m (addr + nw) (buf.drop nw) else m

/-- `flash_write_page` of the 8278. -/
def flashWritePage8278 (m : Mem) (addr : Nat) (buf : List UInt8) : Mem :=
  writePages (buf.length + 1) (pageSize - addr % pageSize) m addr buf

/-- `flash_write_page` of the 826x. -/
def flashWritePage826x (m : Mem) (addr : Nat) (buf : List UInt8) : Mem :=
  writePages (buf.length + 1) (pageSize - addr % pageSize) m addr buf

/-- The `while` loop of `flash_write` of the B91. -/
def flashWriteB91.loop : Nat → Nat → Mem → Nat → List UInt8 → Mem
  | 0, _, m, _, _ => m
  | fuel + 1, ns, m, addr, buf =>
      if buf.length > 0 then
        let nw := if buf.length > ns then ns else buf.length
        flashWriteB91.loop fuel pageSize (m.pageProgram pageSize addr (buf.take nw)) (addr + nw)
          (buf.drop nw)
      else m

/-- `flash_page_program` of the B91, which `flash_write_page` points to. -/
def flashPageProgramB91 (m : Mem) (addr : Nat) (buf : List UInt8) : Mem :=
  flashWriteB91.loop (buf.length + 1) (pageSize - addr % pageSize) m addr buf

def flashWritePage : McuCore → Mem → Nat → List UInt8 → Mem
  | .mcu8258 => flashWritePage8258
  | .mcu8278 => flashWritePage8278
  | .mcu826x => flashWritePage826x
  | .mcuB91 => flashPageProgramB91

/-- One round programs its part of the buffer in place and the next one starts on a page. -/
theorem pageProgram_take (m : Mem) {ns addr : Nat} {buf : List UInt8}
    (left : ns = pageSize - addr % pageSize)
    : m.pageProgram pageSize addr (buf.take (if buf.length > ns then ns else buf.length))
      = m.program addr (buf.take ns) := by
  have small : addr % pageSize < pageSize := Nat.mod_lt _ (by decide)
  have same : buf.take (if buf.length > ns then ns else buf.length) = buf.take ns := by
    split
    · rfl
    · rw [List.take_of_length_le (Nat.le_refl _), List.take_of_length_le (by omega)]
  rw [same]
  apply Mem.pageProgram_inside
  rw [List.length_take]
  omega

theorem following_page {ns addr : Nat} (left : ns = pageSize - addr % pageSize)
    : pageSize = pageSize - (addr + ns) % pageSize := by
  simp only [pageSize] at left ⊢
  omega

theorem writePages_program {fuel ns addr : Nat} {m : Mem} {buf : List UInt8}
    (left : ns = pageSize - addr % pageSize) (enough : buf.length < fuel)
    : writePages fuel ns m addr buf = m.program addr buf := by
  induction fuel generalizing ns addr m buf with
  | zero => omega
  | succ fuel ih =>
      have positive : 0 < ns := by
        simp only [pageSize] at left
        omega
      rw [writePages]
      simp only [pageProgram_take m left]
      by_cases more : buf.length > ns
      · rw [if_pos more, if_pos (by omega), ih (following_page left) (by simp; omega)]
        conv_rhs => rw [← List.take_append_drop ns buf, Mem.program_append]
        rw [List.length_take, Nat.min_eq_left (by omega)]
      · rw [if_neg more, if_neg (by omega), List.take_of_length_le (by omega)]

theorem flashWriteB91.loop_program {fuel ns addr : Nat} {m : Mem} {buf : List UInt8}
    (left : ns = pageSize - addr % pageSize) (enough : buf.length < fuel)
    : flashWriteB91.loop fuel ns m addr buf = m.program addr buf := by
  induction fuel generalizing ns addr m buf with
  | zero => omega
  | succ fuel ih =>
      have positive : 0 < ns := by
        simp only [pageSize] at left
        omega
      rw [flashWriteB91.loop]
      simp only [pageProgram_take m left]
      by_cases more : buf.length > ns
      · rw [if_pos (by omega), if_pos more, ih (following_page left) (by simp; omega)]
        conv_rhs => rw [← List.take_append_drop ns buf, Mem.program_append]
        rw [List.length_take, Nat.min_eq_left (by omega)]
      · rw [if_neg more, List.drop_length, List.take_of_length_le (by omega)]
        split
        · cases fuel with
          | zero => omega
          | succ fuel => rfl
        · have empty : buf = [] := List.length_eq_zero_iff.mp (by omega)
          rw [empty, Mem.program_nil]

/-- The chips that cut a write at the page boundaries. -/
theorem flashWritePage_program {core : McuCore} (splits : core ≠ .mcu8258) (m : Mem) (addr : Nat)
    (buf : List UInt8)
    : flashWritePage core m addr buf = m.program addr buf := by
  cases core with
  | mcu8258 => exact absurd rfl splits
  | mcu8278 => exact writePages_program rfl (Nat.lt_succ_self _)
  | mcu826x => exact writePages_program rfl (Nat.lt_succ_self _)
  | mcuB91 => exact flashWriteB91.loop_program rfl (Nat.lt_succ_self _)

/-- The four writers program a buffer in place, whatever the flash holds, exactly when its bytes
behind the first page boundary are 0xFF; all but the one of the 8258 always do.
-/
theorem flashWritePage_agree (addr : Nat) (buf : List UInt8)
    : ((∀ core m, flashWritePage core m addr buf = m.program addr buf)
        ↔ ∀ byte ∈ buf.drop (pageSize - addr % pageSize), byte = blankByte)
      ∧ ∀ core ≠ .mcu8258, ∀ m, flashWritePage core m addr buf = m.program addr buf := by
  refine ⟨?_, fun core splits m => flashWritePage_program splits m addr buf⟩
  constructor
  · intro correct
    exact (Mem.pageProgram_iff (by decide)).mp (correct .mcu8258)
  · intro blank core m
    by_cases single : core = .mcu8258
    · subst single
      exact (Mem.pageProgram_iff (by decide)).mpr blank m
    · exact flashWritePage_program single m addr buf

/-- The index entry in slot 31 of module 0 lies over a page boundary. On the 8258 its last byte,
the state of the entry, is not programmed.
-/
theorem straddling_entry_torn
    : flashWritePage .mcu8258 Mem.blank 0x800FC [0, 2, 8, 0, 9, 0, 1, 0xFA] 0x80103 = 0xFF
      ∧ Mem.blank.program 0x800FC [0, 2, 8, 0, 9, 0, 1, 0xFA] 0x80103 = 0xFA := by
  decide

end Platform

end TelinkSdk
