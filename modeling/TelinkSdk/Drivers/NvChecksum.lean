import Mathlib.Data.List.Forall2
import TelinkSdk.Drivers.NvItem

/-! The checksum of `nv_write_item`. A sum of bytes misses many errors; behind a program command
it misses none, because the command can only lower bytes.
-/

namespace TelinkSdk

open Nor

-----------------------------------------------------------------------------------------
-- Sums
-----------------------------------------------------------------------------------------

/-- The sum loops of the source, in 32 bits. -/
def checkSum32 (buf : List UInt8) : UInt32 :=
  buf.foldl (fun checkSum value => checkSum + value.toUInt32) 0

theorem checkSum32_fold (buf : List UInt8) (start : UInt32)
    (room : start.toNat + 255 * buf.length < u32Mod)
    : (buf.foldl (fun checkSum value => checkSum + value.toUInt32) start).toNat
      = start.toNat + checkSum buf := by
  induction buf generalizing start with
  | nil => simp [checkSum]
  | cons value rest ih =>
      have byte := value.toNat_lt
      simp only [List.length_cons, u32Mod] at room ih
      have step : (start + value.toUInt32).toNat = start.toNat + value.toNat := by
        rw [UInt32.toNat_add, UInt8.toNat_toUInt32]
        exact Nat.mod_eq_of_lt (by omega)
      rw [List.foldl_cons, ih _ (by omega), step]
      simp only [checkSum, List.map_cons, List.sum_cons]
      omega

/-- The 32-bit sum of a payload does not wrap. -/
theorem checkSum32_toNat {buf : List UInt8} (short : buf.length < u16Mod)
    : (checkSum32 buf).toNat = checkSum buf := by
  simp only [u16Mod] at short
  rw [checkSum32, checkSum32_fold buf 0 (by simp only [UInt32.toNat_zero, u32Mod]; omega)]
  simp

/-- Lower bytes have a lower sum, and the same sum only if they are the same bytes. -/
theorem checkSum_of_le {stored buf : List UInt8}
    (below : List.Forall₂ (fun kept value => kept.toNat ≤ value.toNat) stored buf)
    : checkSum stored ≤ checkSum buf ∧ (checkSum stored = checkSum buf → stored = buf) := by
  induction below with
  | nil => exact ⟨Nat.le_refl _, fun _ => rfl⟩
  | @cons kept value stored buf le _ ih =>
      obtain ⟨lower, exact_⟩ := ih
      have first : checkSum (kept :: stored) = kept.toNat + checkSum stored := by simp [checkSum]
      have second : checkSum (value :: buf) = value.toNat + checkSum buf := by simp [checkSum]
      rw [first, second]
      refine ⟨by omega, fun same => ?_⟩
      have head : kept = value := UInt8.toNat_inj.mp (by omega)
      rw [head, exact_ (by omega)]

/-- A program command leaves no byte above the one it wrote. -/
theorem program_below (m : Mem) (addr : Nat) (buf : List UInt8)
    : List.Forall₂ (fun kept value => kept.toNat ≤ value.toNat)
        ((m.program addr buf).read addr buf.length) buf := by
  rw [List.forall₂_iff_get]
  refine ⟨Mem.read_length _ _ _, ?_⟩
  intro i inside below
  have byte : ((m.program addr buf).read addr buf.length).get ⟨i, inside⟩
      = m (addr + i) &&& buf.get ⟨i, below⟩ := by
    have written := @Mem.program_inside m addr i buf below
    rw [List.getD_eq_getElem?_getD, List.getElem?_eq_getElem below, Option.getD_some] at written
    simpa [Mem.read] using written
  rw [byte, UInt8.toNat_and]
  exact Nat.and_le_right

/-- Where the sums agree, the programmed bytes read back as written. -/
theorem program_exact {m : Mem} {addr : Nat} {buf : List UInt8}
    (same : checkSum ((m.program addr buf).read addr buf.length) = checkSum buf)
    : (m.program addr buf).read addr buf.length = buf :=
  (checkSum_of_le (program_below m addr buf)).2 same

-----------------------------------------------------------------------------------------
-- The item write
-----------------------------------------------------------------------------------------

section Write

variable {env : Env} {b : Build} {id opSect opItemIdx : Nat} {itemId : UInt8} {buf : List UInt8}
  {d : Dev}

/-- The index entry that the item write programs first. -/
def nvWriteItem.newIdx (b : Build) (id : Nat) (itemId : UInt8) (opSect opItemIdx len : Nat)
    (m : Mem) : InfoIdx :=
  {
    offset := nvWriteItem.offset b id opSect opItemIdx m
    size := itemTotalLen len % u16Mod
    itemId
    usedState := itemFieldOperation
  }

/-- The device when the payload is due. -/
def nvWriteItem.indexed (env : Env) (b : Build) (id : Nat) (itemId : UInt8)
    (opSect opItemIdx len : Nat) (d : Dev) : Dev :=
  (lockTo env false d).issue env
    (.program (moduleIdxStart b id opSect + opItemIdx * sizeofInfoIdx)
      (newIdx b id itemId opSect opItemIdx len d.mem).bytes)

theorem nvWriteItem.run_eq (env : Env) (b : Build) (id : Nat) (itemId : UInt8)
    (opSect opItemIdx : Nat) (source : ItemSource) (d : Dev)
    : Prog.run env (nvWriteItem b id itemId opSect opItemIdx source) d
      = Prog.run env (do
          let ret ← nvWriteItem.content (newIdx b id itemId opSect opItemIdx source.len d.mem) source
          nvWriteItem.markValid ret
            (moduleIdxStart b id opSect + opItemIdx * sizeofInfoIdx + 7)
          flashLock
          pure ret) (indexed env b id itemId opSect opItemIdx source.len d) := by
  unfold nvWriteItem
  rw [Prog.run_bind, Prog.run_view, Prog.run_bind, run_flashUnlock, Prog.run_bind, run_flashWrite]
  rfl

/-- The payload is the second command of the item write. -/
theorem nvWriteItem.trace_payload (env : Env) (b : Build) (id : Nat) (itemId : UInt8)
    (opSect opItemIdx : Nat) (buf : List UInt8) (d : Dev)
    : (Prog.trace env (nvWriteItem b id itemId opSect opItemIdx (.ram buf)) d)[1]?
      = some ((indexed env b id itemId opSect opItemIdx buf.length d).step env
          (.program (nvWriteItem.offset b id opSect opItemIdx d.mem + 8) buf)) := by
  unfold nvWriteItem nvWriteItem.content
  simp only [Prog.trace_bind, Prog.run_bind, Prog.trace_view, Prog.run_view, trace_flashUnlock,
    run_flashUnlock, trace_flashWrite, run_flashWrite, List.nil_append, List.cons_append,
    List.getElem?_cons_succ, List.getElem?_cons_zero]
  rfl

/-- If `nv_write_item` reports success and its payload write was not skipped, the payload in
flash is the buffer byte for byte, whatever was in flash before, as long as the payload range
does not hold the state byte of the item's own index slot. The two 32-bit sums do not wrap, so
that they agree only where the bytes do.
-/
theorem nvWriteItem_exact (env : Env) (b : Build) (id : Nat) (itemId : UInt8)
    (opSect opItemIdx : Nat) (buf : List UInt8) (d : Dev) (short : buf.length < u16Mod)
    (sent : (Prog.trace env (nvWriteItem b id itemId opSect opItemIdx (.ram buf)) d)[1]?.map
      Step.done = some true)
    (good : (Prog.run env (nvWriteItem b id itemId opSect opItemIdx (.ram buf)) d).1 = .succ)
    : let payloadAddr := nvWriteItem.offset b id opSect opItemIdx d.mem + sizeofItemHdr
      let stateAddr := moduleIdxStart b id opSect + opItemIdx * sizeofInfoIdx + 7
      (stateAddr < payloadAddr ∨ payloadAddr + buf.length ≤ stateAddr
        → (Prog.run env (nvWriteItem b id itemId opSect opItemIdx (.ram buf)) d).2.mem.read
            payloadAddr buf.length = buf)
      ∧ ∀ m : Mem, ∀ addr,
          checkSum32 ((m.program addr buf).read addr buf.length) = checkSum32 buf
          → (m.program addr buf).read addr buf.length = buf := by
  intro payloadAddr stateAddr
  refine ⟨?_, ?_⟩
  · intro apart
    rw [nvWriteItem.trace_payload, Option.map_some, Option.some.injEq] at sent
    have length : (ItemSource.ram buf).len = buf.length := rfl
    rw [nvWriteItem.run_eq, length] at good ⊢
    generalize nvWriteItem.indexed env b id itemId opSect opItemIdx buf.length d = d' at sent good ⊢
    have written : (d'.issue env (.program payloadAddr buf)).mem = d'.mem.program payloadAddr buf := by
      have accepted : env.accepts d' = true := sent
      simp [Dev.issue, Step.apply, Dev.step, accepted, Cmd.apply]
    have payload : nvWriteItem.offset b id opSect opItemIdx d.mem + 8 = payloadAddr := rfl
    rw [Prog.run_bind, nvWriteItem.run_content_ram, nvWriteItem.newIdx, payload, written] at good ⊢
    split at good
    case isFalse =>
        rw [Prog.run_bind, Prog.run_bind, Prog.run_pure] at good
        contradiction
    case isTrue agreed =>
        rw [if_pos agreed, Prog.run_bind, Prog.run_bind, Prog.run_pure, run_flashLock, lockTo_mem]
        conv_rhs => rw [← program_exact agreed.symm, ← written]
        apply Mem.read_congr
        intro i inside
        simp only [nvWriteItem.markValid, if_true, run_flashWrite]
        rw [Dev.issue_untouched, Dev.issue_untouched]
        · simp only [Cmd.Touches, ItemHdr.bytes_length]
          omega
        · simp only [Cmd.Touches, List.length_singleton]
          omega
  · intro m addr same
    apply program_exact
    rw [← checkSum32_toNat short, ← same, checkSum32_toNat]
    simpa using short

end Write

/-- An item in an erased sector whose index write is skipped. -/
theorem nvWriteItem_exact_skipped
    : let env : Env := { lowVoltage := fun n => n == 0 }
      let d : Dev := { mem := Mem.blank, locked := true }
      (Prog.run env (nvWriteItem ⟨true, false⟩ 0 1 0 0 (.ram [1, 2, 3, 4])) d).2.mem.read
          (moduleContextStart ⟨true, false⟩ 0 0 + 8) 4
        = [1, 2, 3, 4] := by
  intro env d
  exact (nvWriteItem_exact env ⟨true, false⟩ 0 1 0 0 [1, 2, 3, 4] d (by decide)
    (by decide +kernel) (by decide +kernel)).1 (by decide +kernel)

/-- The entry in front claims an item inside the index table, so that the payload lies on the
slot that is being written. The last command clears bits of the payload.
-/
theorem payload_over_own_slot
    : let entry : InfoIdx :=
        {
          offset := moduleSectStart ⟨true, false⟩ 0 0 + 8
          size := 0
          itemId := 2
          usedState := itemFieldValid
        }
      let d : Dev :=
        {
          mem := Mem.blank.program (moduleIdxStart ⟨true, false⟩ 0 0) entry.bytes
          locked := true
        }
      let p := nvWriteItem ⟨true, false⟩ 0 1 0 1 (.ram [12, 0, 1, 0xFA])
      let payloadAddr := nvWriteItem.offset ⟨true, false⟩ 0 0 1 d.mem + sizeofItemHdr
      (Prog.trace {} p d)[1]?.map Step.done = some true
        ∧ (Prog.run {} p d).1 = .succ
        ∧ (Prog.run {} p d).2.mem.read payloadAddr 4 = [12, 0, 1, 0x5A] := by
  decide +kernel

end TelinkSdk
