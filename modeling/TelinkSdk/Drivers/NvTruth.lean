import TelinkSdk.Nor.Skips
import TelinkSdk.Drivers.NvRefinement

/-! What `NV_SUCC` is worth when the low-voltage test of `drv_flash.c` skips commands of a call.
The store reads back the new payload alone, so the other skips go unnoticed.
-/

namespace TelinkSdk

open Nor

-----------------------------------------------------------------------------------------
-- The store does not ask whether a command was sent
-----------------------------------------------------------------------------------------

section Blind

theorem flashWrite_blind (addr : Nat) (buf : List UInt8) : (flashWrite addr buf).Blind :=
  ⟨rfl, trivial⟩

theorem flashErase_blind (addr : Nat) : (flashErase addr).Blind := ⟨rfl, trivial⟩

theorem flashLock_blind : flashLock.Blind := by
  intro locked
  cases locked <;> trivial

theorem flashUnlock_blind : flashUnlock.Blind := by
  intro locked
  cases locked <;> trivial

theorem nvWriteItem.copy_blind (fuel toalLen sAddr dAddr : Nat)
    : (nvWriteItem.copy fuel toalLen sAddr dAddr).Blind := by
  induction fuel generalizing toalLen sAddr dAddr with
  | zero => exact .pure ()
  | succ fuel ih =>
      unfold nvWriteItem.copy
      split
      · exact .bind (.view _) (fun _ => .bind (flashWrite_blind _ _) (fun _ => ih _ _ _))
      · exact .pure ()

theorem nvWriteItem.content_blind (idxInfo : InfoIdx) (source : ItemSource)
    : (nvWriteItem.content idxInfo source).Blind := by
  cases source with
  | flash addr len =>
      have asks : evBufAllocate.Blind := fun _ => trivial
      apply Prog.Blind.bind asks
      intro granted
      cases granted with
      | false => exact .pure _
      | true => exact .bind (nvWriteItem.copy_blind _ _ _ _) (fun _ => .pure _)
  | ram buf =>
      apply Prog.Blind.bind (flashWrite_blind _ _)
      intro _
      apply Prog.Blind.bind (.view _)
      intro read
      split
      · exact .bind (flashWrite_blind _ _) (fun _ => .pure _)
      · exact .pure _

theorem nvWriteItem_blind (b : Build) (id : Nat) (itemId : UInt8) (opSect opItemIdx : Nat)
    (source : ItemSource)
    : (nvWriteItem b id itemId opSect opItemIdx source).Blind := by
  apply Prog.Blind.bind (.view _)
  intro offset
  apply Prog.Blind.bind flashUnlock_blind
  intro _
  apply Prog.Blind.bind (flashWrite_blind _ _)
  intro _
  apply Prog.Blind.bind (nvWriteItem.content_blind _ _)
  intro ret
  refine .bind ?_ (fun _ => .bind flashLock_blind (fun _ => .pure ret))
  unfold nvWriteItem.markValid
  split
  · exact flashWrite_blind _ _
  · exact .pure ()

theorem flashEraseSectors_blind (count eraseAddr : Nat)
    : (flashEraseSectors count eraseAddr).Blind := by
  induction count generalizing eraseAddr with
  | zero => exact .pure ()
  | succ count ih => exact .bind (flashErase_blind _) (fun _ => ih _)

variable (b : Build) (single : Bool) (id : Nat) (itemId : UInt8) (opSect : Nat)

theorem nvFlashWriteNew.copyRead_blind (idxInfo : List InfoIdx) (copied : NvCopied)
    : (nvFlashWriteNew.copyRead b single id itemId opSect idxInfo copied).Blind := by
  induction idxInfo generalizing copied with
  | nil => exact .pure _
  | cons e rest ih =>
      unfold nvFlashWriteNew.copyRead
      split
      · apply Prog.Blind.bind (nvWriteItem_blind _ _ _ _ _ _)
        intro ret
        split
        · exact ih _
        · exact .pure _
      · exact ih _

theorem nvFlashWriteNew.copyLive_blind (fuel idxTotalNum idxStartAddr : Nat) (copied : NvCopied)
    : (nvFlashWriteNew.copyLive b single id itemId opSect fuel idxTotalNum idxStartAddr
        copied).Blind := by
  induction fuel generalizing idxTotalNum idxStartAddr copied with
  | zero => exact .pure _
  | succ fuel ih =>
      unfold nvFlashWriteNew.copyLive
      split
      · apply Prog.Blind.bind (.view _)
        intro idxInfo
        apply Prog.Blind.bind (nvFlashWriteNew.copyRead_blind b single id itemId opSect _ _)
        intro result
        cases result with
        | ok copied => exact ih _ _ _
        | error ret => exact .pure _
      · exact .pure _

theorem nvFlashWriteNew.update_blind (len oldSect : Nat)
    : (nvFlashWriteNew.update b single id itemId len oldSect opSect).Blind := by
  apply Prog.Blind.bind (flashEraseSectors_blind _ _)
  intro _
  apply Prog.Blind.bind (nvFlashWriteNew.copyLive_blind b single id itemId opSect _ _ _ _)
  intro result
  cases result with
  | error ret => exact .pure _
  | ok copied =>
      simp only
      split
      · exact .pure _
      · exact .pure _

theorem nvFlashWriteNew.markSectors_blind (oldSect wItemIdx : Nat) (sectorUpdate : Bool)
    (ret : NvSts)
    : (nvFlashWriteNew.markSectors b id oldSect opSect wItemIdx sectorUpdate ret).Blind := by
  unfold nvFlashWriteNew.markSectors
  split
  · split
    · exact .bind (flashWrite_blind _ _) (fun _ => flashWrite_blind _ _)
    · split
      · exact flashWrite_blind _ _
      · exact .pure ()
  · exact .pure ()

end Blind

-----------------------------------------------------------------------------------------
-- The read-back of the payload
-----------------------------------------------------------------------------------------

/-- Only blank bytes have the greatest byte sum. -/
theorem checkSum_full {buf : List UInt8} (full : checkSum buf = 255 * buf.length)
    : ∀ value ∈ buf, value = blankByte := by
  induction buf with
  | nil => exact fun value member => absurd member List.not_mem_nil
  | cons first rest ih =>
      have bound := checkSum_lt rest
      have byte := first.toNat_lt
      simp only [checkSum, List.map_cons, List.sum_cons, List.length_cons] at full bound
      have whole : first.toNat = 255 ∧ (rest.map UInt8.toNat).sum = 255 * rest.length := by omega
      intro value member
      rcases List.mem_cons.mp member with rfl | later
      · exact UInt8.toNat_inj.mp whole.1
      · exact ih whole.2 value later

theorem checkSum_blank {m : Mem} {addr len : Nat} (blank : m.BlankOn addr (addr + len))
    : checkSum (m.read addr len) = 255 * len := by
  have bytes : m.read addr len = List.replicate len blankByte := by
    apply List.eq_replicate_iff.mpr
    refine ⟨Mem.read_length m addr len, ?_⟩
    intro value member
    obtain ⟨i, inside, rfl⟩ := List.mem_map.mp member
    have small := List.mem_range.mp inside
    exact blank _ (by omega) (by omega)
  rw [bytes, checkSum, List.map_replicate, List.sum_replicate_nat]
  exact Nat.mul_comm len 255

section Payload

variable {env : Env} {b : Build} {id : Fin nvMaxModuls} {k : Fin 2} {es : List InfoIdx}
  {d : Dev} {itemId : UInt8} {buf : List UInt8}

/-- The parts of writing a RAM item behind the chain `es`: the entry, the contents and the mark
on the entry.
-/
theorem nvWriteItem_ram_continues (chain : Chain (moduleSector b id k) es d.mem)
    (fits : nextFree (moduleSector b id k).ctx es + (buf.length + 8)
      ≤ (moduleSector b id k).limit)
    : Prog.Continues env (nvWriteItem b id itemId k es.length (.ram buf)) d
        (flashWrite ((moduleSector b id k).idxAddr es.length)
            ((moduleSector b id k).nextEntry es itemId buf.length itemFieldOperation).bytes
          >>= fun _ => nvWriteItem.content
              ((moduleSector b id k).nextEntry es itemId buf.length itemFieldOperation) (.ram buf)
            >>= fun ret => nvWriteItem.markValid ret ((moduleSector b id k).idxAddr es.length + 7)
              >>= fun _ => flashLock >>= fun _ => pure ret)
        (lockTo env false d) :=
  chain.nvWriteItem_continues itemId (.ram buf) ((moduleSector b id k).item_short fits)

/-- An item that passes its read-back although the payload was skipped has a blank payload. -/
theorem nvWriteItem_payload_skipped (chain : Chain (moduleSector b id k) es d.mem)
    (room : es.length < (moduleSector b id k).slots)
    (fits : nextFree (moduleSector b id k).ctx es + (buf.length + 8)
      ≤ (moduleSector b id k).limit)
    (skipped : env.lowVoltage (d.issued + 1) = true)
    (good : (Prog.run env (nvWriteItem b id itemId k es.length (.ram buf)) d).1 = .succ)
    : ∀ value ∈ buf, value = blankByte := by
  obtain ⟨first, last, context⟩ := (moduleSector b id k).idxAddr_bounds room
  have area := le_nextFree (moduleSector b id k).ctx es
  rw [(nvWriteItem_ram_continues chain fits).run] at good
  simp only [Prog.run_bind, run_flashWrite, Prog.run_pure] at good
  have index := @Dev.issue_untouched env (lockTo env false d)
    (.program ((moduleSector b id k).idxAddr es.length)
      ((moduleSector b id k).nextEntry es itemId buf.length itemFieldOperation).bytes)
  generalize entered : (lockTo env false d).issue env
    (.program ((moduleSector b id k).idxAddr es.length)
      ((moduleSector b id k).nextEntry es itemId buf.length itemFieldOperation).bytes) = d'
    at good index
  have issued : d'.issued = d.issued + 1 := by rw [← entered]; rfl
  have lost : (d'.issue env (.program
      (((moduleSector b id k).nextEntry es itemId buf.length itemFieldOperation).offset + 8)
        buf)).mem = d'.mem := by
    simp [Dev.issue, Step.apply, Dev.step, Env.accepts, issued, skipped]
  have blank : d'.mem.BlankOn
      (((moduleSector b id k).nextEntry es itemId buf.length itemFieldOperation).offset + 8)
      (((moduleSector b id k).nextEntry es itemId buf.length itemFieldOperation).offset + 8
        + buf.length) := by
    simp only [Sector.nextEntry]
    intro x low high
    rw [index, lockTo_mem]
    · exact chain.blank x (by omega) (by omega)
    · simp only [Cmd.Touches, InfoIdx.bytes_length]
      omega
  rw [nvWriteItem.run_content_ram, lost, checkSum_blank blank] at good
  split at good
  case isTrue same => exact checkSum_full same
  case isFalse => cases good

theorem nvWriteItem.trace_content_ram (env : Env) (e : InfoIdx) (buf : List UInt8) (d : Dev)
    : Prog.trace env (nvWriteItem.content e (.ram buf)) d
      = d.step env (.program (e.offset + 8) buf)
        :: if checkSum buf
              = checkSum ((d.issue env (.program (e.offset + 8) buf)).mem.read
                  (e.offset + 8) buf.length) then
            [(d.issue env (.program (e.offset + 8) buf)).step env
              (.program e.offset (payloadHdr e.itemId buf).bytes)]
          else [] := by
  rw [← checkSumRead_eq _ buf.length _ _ (Nat.le_refl _)]
  change d.step env (.program (e.offset + 8) buf) :: Prog.trace env
      (if checkSum buf
          = checkSumRead (d.issue env (.program (e.offset + 8) buf)).mem buf.length
              (e.offset + 8) buf.length then _ else _) _ = _
  split <;> rfl

/-- The four commands of an item that is written without faults. -/
theorem trace_nvWriteItem (steady : env.Steady) (chain : Chain (moduleSector b id k) es d.mem)
    (room : es.length < (moduleSector b id k).slots)
    (fits : nextFree (moduleSector b id k).ctx es + (buf.length + 8)
      ≤ (moduleSector b id k).limit)
    : ∃ entry payload header mark : Step,
        Prog.trace env (nvWriteItem b id itemId k es.length (.ram buf)) d
          = [entry, payload, header, mark]
        ∧ payload.cmd
          = .program (nextFree (moduleSector b id k).ctx es + 8) buf := by
  obtain ⟨first, last, context⟩ := (moduleSector b id k).idxAddr_bounds room
  have area := le_nextFree (moduleSector b id k).ctx es
  rw [(nvWriteItem_ram_continues chain fits).trace, Prog.trace_bind, trace_flashWrite,
    run_flashWrite, Prog.trace_bind]
  generalize entered : (lockTo env false d).issue env _ = d'
  have memory : d'.mem = d.mem.program ((moduleSector b id k).idxAddr es.length)
      ((moduleSector b id k).nextEntry es itemId buf.length itemFieldOperation).bytes := by
    rw [← entered, steady.issue_mem]
    rfl
  have payload := @Mem.program_read_blank d'.mem
    (nextFree (moduleSector b id k).ctx es + 8) buf (by
      intro x low high
      rw [memory, Mem.program_outside (by simp only [InfoIdx.bytes_length]; omega)]
      exact chain.blank x (by omega) (by omega))
  have content := nvWriteItem.run_content_ram env
    ((moduleSector b id k).nextEntry es itemId buf.length itemFieldOperation) buf d'
  have commands := nvWriteItem.trace_content_ram env
    ((moduleSector b id k).nextEntry es itemId buf.length itemFieldOperation) buf d'
  have offset : ((moduleSector b id k).nextEntry es itemId buf.length itemFieldOperation).offset
    = nextFree (moduleSector b id k).ctx es := rfl
  rw [offset, steady.issue_mem, Cmd.apply, payload, if_pos rfl] at content commands
  rw [content, commands, Prog.trace_bind, nvWriteItem.markValid, if_pos rfl, trace_flashWrite,
    Prog.trace_bind, trace_flashLock]
  exact ⟨_, _, _, _, rfl, rfl⟩

end Payload

-----------------------------------------------------------------------------------------
-- Skips that do no harm
-----------------------------------------------------------------------------------------

namespace NvCall

variable (b : Build) (id : Fin nvMaxModuls) (c : NvCall) (m : Mem)

/-- The same call with a good supply. -/
def undisturbed : NvCall := { c with skipped := fun _ => false }

/-- The commands that the call issues with a good supply. -/
def plan : List Step := c.undisturbed.steps b id m

/-- The number of commands with which the call prepares the other sector. -/
def prepared : Nat :=
  if (nvFlashWriteNew.place b m id c.buf.length).sectorUpdate then
    (Prog.trace c.undisturbed.env
      (nvFlashWriteNew.update b c.single id c.itemId c.buf.length (nvOpSect b m id)
        ((nvOpSect b m id + 1) % moduleSectorNum))
      (lockTo c.undisturbed.env false (Dev.ready m))).length
  else 0

/-- The commands that may be skipped although they are due: the payload, which is read back; the
mark on the previous value, which the search does not reach; and the flag that takes the old
sector out of operation, if the new one comes first in address order.
-/
def Tolerated (n : Nat) : Prop :=
  n = c.prepared b id m + 1
    ∨ n = c.prepared b id m + 4
      ∧ (¬c.Rolls b id m
          ∧ (nvIndexRead b m id c.itemId c.buf.length (nvOpSect b m id)
              (moduleIdxNum id)).isSome = true
        ∨ c.Rolls b id m ∧ nvOpSect b m id = 1)

/-- Every skipped command would have changed nothing or is tolerated. -/
def HarmlessSkips : Prop :=
  ∀ n s, (c.plan b id m)[n]? = some s → c.skipped n = true
    → s.cmd.apply (replay m ((c.plan b id m).take n)) = replay m ((c.plan b id m).take n)
      ∨ c.Tolerated b id m n

end NvCall

section Harmless

variable {b : Build} {id : Fin nvMaxModuls} {k : Fin 2} {es : List InfoIdx} {m : Mem}
  {c : NvCall}

theorem NvCall.undisturbed_steady (c : NvCall) : c.undisturbed.env.Steady := ⟨fun _ => rfl, rfl⟩

/-- In a part of the plan whose tolerated commands change nothing either, all skips are void. -/
theorem NvCall.HarmlessSkips.voids (harmless : c.HarmlessSkips b id m) (before : List Step)
    {part after : List Step} (split : c.plan b id m = before ++ part ++ after)
    (tolerated : ∀ i s, part[i]? = some s → c.skipped (before.length + i) = true
      → c.Tolerated b id m (before.length + i)
      → s.cmd.apply (replay (replay m before) (part.take i))
        = replay (replay m before) (part.take i))
    : VoidSkips c.skipped before.length (replay m before) part := by
  rw [voidSkips_iff]
  intro i s found skipped
  have inside : i < part.length := (List.getElem?_eq_some_iff.mp found).1
  have taken : (c.plan b id m).take (before.length + i) = before ++ part.take i := by
    rw [split, List.append_assoc, List.take_length_add_append, List.take_append_of_le_length]
    omega
  have planned : (c.plan b id m)[before.length + i]? = some s := by
    rw [split, List.append_assoc, List.getElem?_append_right (by omega),
      Nat.add_sub_cancel_left, List.getElem?_append_left inside]
    exact found
  have done : s.done = true :=
    Prog.trace_done c.undisturbed_steady _ _ s (List.mem_of_getElem? planned)
  have void : s.cmd.apply (replay (replay m before) (part.take i))
      = replay (replay m before) (part.take i) := by
    rcases harmless _ s planned skipped with same | exempt
    · rwa [taken, replay_append] at same
    · exact tolerated i s found skipped exempt
  rw [Step.apply, if_pos done]
  exact void

/-- The item that a call writes: all skips are void if the payload is blank or was sent. -/
theorem NvCall.HarmlessSkips.item (harmless : c.HarmlessSkips b id m) (before : List Step)
    {d : Dev} (chain : Chain (moduleSector b id k) es d.mem)
    (room : es.length < (moduleSector b id k).slots)
    (fits : nextFree (moduleSector b id k).ctx es + (c.buf.length + 8)
      ≤ (moduleSector b id k).limit)
    {after : List Step} (number : before.length = c.prepared b id m) (issued : d.issued = before.length)
    (memory : d.mem = replay m before)
    (split : c.plan b id m = before
      ++ Prog.trace c.undisturbed.env (nvWriteItem b id c.itemId k es.length (.ram c.buf)) d
      ++ after)
    (good : (Prog.run c.env (nvWriteItem b id c.itemId k es.length (.ram c.buf)) d).1 = .succ)
    : Prog.run c.env (nvWriteItem b id c.itemId k es.length (.ram c.buf)) d
      = Prog.run c.undisturbed.env (nvWriteItem b id c.itemId k es.length (.ram c.buf)) d := by
  obtain ⟨entry, payload, header, mark, trace, command⟩ := @trace_nvWriteItem _ b id k es d
    c.itemId c.buf c.undisturbed_steady chain room fits
  have voids := harmless.voids before split (by
    intro i s found skipped exempt
    rw [trace] at found
    have inside := (List.getElem?_eq_some_iff.mp found).1
    simp only [List.length_cons, List.length_nil] at inside
    -- of the four commands only the payload is tolerated
    have second : i = 1 := by
      rcases exempt with isPayload | ⟨last, _⟩
      · omega
      · omega
    subst i
    obtain rfl : payload = s := by simpa using found
    rw [← issued] at skipped
    have blank := nvWriteItem_payload_skipped chain room fits skipped good
    rw [command, Cmd.apply, Mem.program_blankBytes blank])
  apply Prog.run_voidSkips (nvWriteItem_blind _ _ _ _ _ _)
  rw [issued, memory]
  exact voids

/-- The end of a call: the mark on the previous value, the sector flags and the lock. -/
def nvFlashWriteNew.finish (b : Build) (id oldSect opSect wItemIdx : Nat) (sectorUpdate : Bool)
    (deleteIdx : Option Nat) (ret : NvSts) : Prog NvSts := do
  nvFlashWriteNew.markDeleted b id opSect deleteIdx
  nvFlashWriteNew.markSectors b id oldSect opSect wItemIdx sectorUpdate ret
  flashLock
  pure ret

theorem nvFlashWriteNew.finish_blind (id oldSect opSect wItemIdx : Nat) (sectorUpdate : Bool)
    (deleteIdx : Option Nat) (ret : NvSts)
    : (nvFlashWriteNew.finish b id oldSect opSect wItemIdx sectorUpdate deleteIdx ret).Blind := by
  have marks : (nvFlashWriteNew.markDeleted b id opSect deleteIdx).Blind := by
    cases deleteIdx with
    | none => exact .pure ()
    | some deleteIdx => exact flashWrite_blind _ _
  exact .bind marks (fun _ => .bind (nvFlashWriteNew.markSectors_blind b id opSect _ _ _ _)
    (fun _ => .bind flashLock_blind (fun _ => .pure ret)))

/-- The device once a call has unlocked the chip. -/
def Dev.opened (m : Mem) : Dev := { mem := m, locked := false }

theorem lockTo_ready {env : Env} (known : env.knownChip = true) (m : Mem)
    : lockTo env false (Dev.ready m) = Dev.opened m := by
  simp [lockTo, known, Dev.ready, Dev.opened]

/-- A call that stays in its sector writes the item and finishes. -/
theorem nvFlashWriteNew_stays_eq {env : Env} (known : env.knownChip = true) {itemId : UInt8}
    {buf : List UInt8} (single : Bool) (store : Store b id k es m)
    (admitted : Admitted id buf.length)
    (plain : (nvFlashWriteNew.place b m id buf.length).sectorUpdate = false)
    : Prog.run env (nvFlashWriteNew b single id itemId buf) (Dev.ready m)
        = Prog.run env
            (nvWriteItem b id itemId k es.length (.ram buf) >>=
              nvFlashWriteNew.finish b id k k es.length false
                (previousSlot b single id itemId buf.length k m))
            (Dev.opened m)
      ∧ Prog.trace env (nvFlashWriteNew b single id itemId buf) (Dev.ready m)
        = Prog.trace env
            (nvWriteItem b id itemId k es.length (.ram buf) >>=
              nvFlashWriteNew.finish b id k k es.length false
                (previousSlot b single id itemId buf.length k m))
            (Dev.opened m) := by
  have continues := @Store.stays_continues env b id k es (Dev.ready m) buf store single itemId
    admitted plain
  rw [lockTo_ready known] at continues
  exact ⟨continues.run, continues.trace⟩

@[simp]
theorem nvFlashWriteNew.run_finish {env : Env} {d : Dev} (id oldSect opSect wItemIdx : Nat)
    (sectorUpdate : Bool) (deleteIdx : Option Nat) (ret : NvSts)
    : (Prog.run env
        (nvFlashWriteNew.finish b id oldSect opSect wItemIdx sectorUpdate deleteIdx ret) d).1
      = ret := by
  simp only [nvFlashWriteNew.finish, Prog.run_bind, Prog.run_pure]

/-- Behind a chain in use the end of a call is the mark on the previous value. -/
theorem nvFlashWriteNew.finish_mem_previous {env : Env} {d : Dev} {wItemIdx i : Nat}
    {ret : NvSts} (used : 0 < wItemIdx)
    : (Prog.run env (nvFlashWriteNew.finish b id k k wItemIdx false (some i) ret) d).2.mem
      = (d.issue env
          (.program ((moduleSector b id k).idxAddr i + 7) [itemFieldInvalid])).mem := by
  have flags : nvFlashWriteNew.markSectors b id k k wItemIdx false ret = pure () := by
    unfold nvFlashWriteNew.markSectors
    split
    · rw [if_neg Bool.false_ne_true, if_neg (by omega)]
    · rfl
  simp only [nvFlashWriteNew.finish, flags, nvFlashWriteNew.markDeleted, Prog.run_bind,
    Prog.run_pure, run_flashWrite, run_flashLock]
  rfl

/-- What a success is to mean: the item reads as written and the others as before. -/
structure Truthful (b : Build) (id : Fin nvMaxModuls) (c : NvCall) (m m' : Mem) : Prop where
  itself : nvFlashReadNew b m' id c.itemId c.buf.length = some c.buf
  others : ∀ other, other ≠ c.itemId → other ≠ itemFieldIdle → ∀ len < u16Mod,
    nvFlashReadNew b m' id other len = nvFlashReadNew b m id other len

/-- A call that runs as with a good supply keeps its word. -/
theorem NvCall.truthful_of_undisturbed (settled : Settled b id k es m) (whole : c.cut = none)
    (fits : Fits b id c.buf.length m) (good : c.status b id m = .succ)
    (same : Prog.run c.env (nvFlashWriteNew b c.single id c.itemId c.buf) (Dev.ready m)
      = Prog.run c.undisturbed.env (nvFlashWriteNew b c.single id c.itemId c.buf) (Dev.ready m))
    : Truthful b id c m (c.after b id m) := by
  have status : c.undisturbed.status b id m = .succ := by
    rw [← good]
    exact congrArg Prod.fst same.symm
  have after : c.after b id m = c.undisturbed.after b id m := by
    rw [NvCall.after_uncut whole, @NvCall.after_uncut b id c.undisturbed m whole, same]
    rfl
  obtain ⟨i, l, done⟩ := @NvCall.completed b id c.undisturbed m k es settled whole (fun _ => rfl)
    fits
  rw [after]
  exact ⟨done.written status, done.others⟩

/-- The item of a call that stays, written without faults. -/
theorem Store.written {env : Env} (steady : env.Steady) {d : Dev} {itemId : UInt8}
    {buf : List UInt8} (store : Store b id k es d.mem)
    (room : es.length < (moduleSector b id k).slots)
    (fits : nextFree (moduleSector b id k).ctx es + (buf.length + 8)
      ≤ (moduleSector b id k).limit)
    : ∃ d', Prog.run env (nvWriteItem b id itemId k es.length (.ram buf)) d = (.succ, d')
      ∧ Pending env b id k es itemId buf d.mem .succ none es itemFieldValid d'.mem := by
  obtain ⟨_, ⟨state, appended⟩, status, _⟩ :=
    (nvWriteItem_meets itemId (.ram buf) store.chain room fits).steady steady
  have good := status (Or.inl steady.unguarded) (Or.inl (steady.supplied _))
  obtain ⟨valid, _⟩ := appended.complete good steady
  subst state
  have pending := store.pending room fits appended
  rw [good] at pending
  exact ⟨_, Prod.ext good rfl, pending⟩

/-- A call that stays in its sector. -/
theorem NvCall.HarmlessSkips.stays (harmless : c.HarmlessSkips b id m)
    (settled : Settled b id k es m) (single : c.single = true) (whole : c.cut = none)
    (admitted : Admitted id c.buf.length) (fits : Fits b id c.buf.length m)
    (plain : (nvFlashWriteNew.place b m id c.buf.length).sectorUpdate = false)
    (good : c.status b id m = .succ)
    : Truthful b id c m (c.after b id m) := by
  obtain ⟨_, room, inside⟩ := settled.store.stays admitted fits plain
  obtain ⟨runs, _⟩ := @nvFlashWriteNew_stays_eq b id k es m c.env rfl c.itemId c.buf c.single
    settled.store admitted plain
  obtain ⟨calm, plan⟩ := @nvFlashWriteNew_stays_eq b id k es m c.undisturbed.env rfl c.itemId
    c.buf c.single settled.store admitted plain
  have unprepared : c.prepared b id m = 0 := by
    unfold NvCall.prepared
    rw [plain]
    rfl
  have stays : ¬c.Rolls b id m := by
    rintro ⟨_, rolls⟩
    rw [plain] at rolls
    contradiction
  obtain ⟨d', written, pending⟩ := @Store.written b id k es c.undisturbed.env
    c.undisturbed_steady (Dev.opened m) c.itemId c.buf settled.store room inside
  obtain ⟨entry, payload, header, mark, trace, _⟩ := @trace_nvWriteItem _ b id k es (Dev.opened m)
    c.itemId c.buf c.undisturbed_steady settled.store.chain room inside
  have issued := Prog.run_issued c.undisturbed.env
    (nvWriteItem b id c.itemId k es.length (.ram c.buf)) (Dev.opened m)
  have memory := Prog.run_mem c.undisturbed.env
    (nvWriteItem b id c.itemId k es.length (.ram c.buf)) (Dev.opened m)
  rw [written, trace] at issued memory
  rw [Prog.trace_bind, written] at plan
  have item : Prog.run c.env (nvWriteItem b id c.itemId k es.length (.ram c.buf)) (Dev.opened m)
      = (.succ, d') := by
    have status := good
    rw [NvCall.status, runs, Prog.run_bind, nvFlashWriteNew.run_finish] at status
    rw [← written]
    exact harmless.item [] settled.store.chain room inside unprepared.symm rfl rfl plan status
  rw [trace] at plan
  cases found : previousSlot b c.single id c.itemId c.buf.length k m with
  | none =>
      -- nothing is tolerated behind the item, so the call runs as with a good supply
      rw [found] at runs calm plan
      have voids := harmless.voids [entry, payload, header, mark]
        (plan.trans (List.append_nil _).symm) (by
        intro i s _ _ exempt
        rcases exempt with isPayload | ⟨_, ⟨_, previous⟩ | ⟨rolls, _⟩⟩
        · simp only [unprepared, List.length_cons, List.length_nil] at isPayload
          omega
        · rw [previousSlot, if_pos single] at found
          rw [settled.store.opSect, found] at previous
          contradiction
        · exact absurd rolls stays)
      have finish : Prog.run c.env (nvFlashWriteNew.finish b id k k es.length false none .succ) d'
          = Prog.run c.undisturbed.env
            (nvFlashWriteNew.finish b id k k es.length false none .succ) d' := by
        apply Prog.run_voidSkips (nvFlashWriteNew.finish_blind _ _ _ _ _ _ _)
        rw [issued, memory]
        exact voids
      apply NvCall.truthful_of_undisturbed settled whole fits good
      rw [runs, calm, Prog.run_bind, Prog.run_bind, item, written]
      exact finish
  | some i =>
      -- only the mark on the previous value follows, and it may be skipped
      have search := (previousSlot_some found).2
      obtain ⟨below, name⟩ := settled.store.chain.previous c.real search
      have used : es ≠ [] := fun empty => absurd below (by simp [empty])
      have marked := settled.marked used
      have short := admitted.total_short
      have result : ∃ previous front,
          Pending c.undisturbed.env b id k es c.itemId c.buf m .succ previous front itemFieldValid
            (c.after b id m) := by
        rw [NvCall.after_uncut whole, runs, Prog.run_bind, item, found,
          nvFlashWriteNew.finish_mem_previous (List.length_pos_iff.mpr used)]
        unfold Dev.issue Step.apply Dev.step
        cases c.env.accepts d' with
        | true => exact ⟨some i, _, pending.delete below name⟩
        | false => exact ⟨none, es, pending⟩
      obtain ⟨previous, front, final⟩ := result
      refine ⟨?_, ?_⟩
      · rw [final.reads c.real short rfl c.undisturbed_steady, if_pos marked]
      · exact (final.cut settled.store c.real short (fun _ => rfl)).others

/-- A call that leaves its sector prepares the other one and proceeds. -/
theorem nvFlashWriteNew_leaves_eq {env : Env} (known : env.knownChip = true) {itemId : UInt8}
    {buf : List UInt8} (single : Bool) (store : Store b id k es m)
    (admitted : Admitted id buf.length)
    (rolls : (nvFlashWriteNew.place b m id buf.length).sectorUpdate = true)
    : Prog.run env (nvFlashWriteNew b single id itemId buf) (Dev.ready m)
        = Prog.run env
            (nvFlashWriteNew.update b single id itemId buf.length k (otherSect k) >>=
              nvFlashWriteNew.proceed b single id itemId buf k (otherSect k))
            (Dev.opened m)
      ∧ Prog.trace env (nvFlashWriteNew b single id itemId buf) (Dev.ready m)
        = Prog.trace env
            (nvFlashWriteNew.update b single id itemId buf.length k (otherSect k) >>=
              nvFlashWriteNew.proceed b single id itemId buf k (otherSect k))
            (Dev.opened m) := by
  have continues := @Store.leaves_continues env b id k es (Dev.ready m) buf store single itemId
    admitted rolls
  rw [lockTo_ready known] at continues
  exact ⟨continues.run, continues.trace⟩

/-- If the new sector comes first, it is in operation although the old one is still marked. -/
theorem Ready.switched {env : Env} {j : Fin 2} {itemId : UInt8} {buf : List UInt8} {m' : Mem}
    {entries : List InfoIdx} {single : Bool} (store : Store b id k es m) (different : j ≠ k)
    (ready : Ready env b id k j es single itemId buf m .succ entries m') (used : es ≠ [])
    (first : j = 0) (steady : env.Steady) (real : itemId ≠ itemFieldIdle)
    (short : buf.length < u16Mod)
    : nvFlashReadNew b (m'.program (moduleSector b id j).base (headBytes id nvSectorValid j)) id
          itemId buf.length = some buf
      ∧ ∀ other, other ≠ itemId → other ≠ itemFieldIdle → ∀ len < u16Mod,
        nvFlashReadNew b (m'.program (moduleSector b id j).base (headBytes id nvSectorValid j)) id
          other len = stored m es other len := by
  have both := (ready.both store different used).valid ready.blank
  obtain ⟨marked, _⟩ := marked_of_valid ready.blank
  have operation : InOperation b id
      (m'.program (moduleSector b id j).base (headBytes id nvSectorValid j)) j := by
    subst j
    simpa [InOperation] using Or.inl marked
  have store' : Store b id j entries
      (m'.program (moduleSector b id j).base (headBytes id nvSectorValid j)) :=
    ⟨both.own, operation, both.new, fun empty => absurd empty both.newUsed⟩
  have answers {other : UInt8} (realOther : other ≠ itemFieldIdle) {len : Nat}
      (shortOther : len < u16Mod)
      : stored (m'.program (moduleSector b id j).base (headBytes id nvSectorValid j)) entries other
          len = stored m' entries other len := by
    have context := (moduleSector b id j).idxAddr_bounds (moduleSector b id j).slots_pos
    have fits := ready.chain.fits
    apply stored_congr realOther shortOther ready.chain.linked
    intro x low high
    exact @head_apart b id _ j j _ rfl x (by omega) (by omega)
  refine ⟨?_, ?_⟩
  · rw [store'.read real, if_pos marked, answers real short]
    exact ready.itself rfl steady
  · intro other foreign realOther len shortOther
    rw [store'.read realOther, if_pos marked, answers realOther shortOther]
    exact ready.others rfl steady other foreign realOther len shortOther

theorem NvCall.prepared_eq (store : Store b id k es m)
    (rolls : (nvFlashWriteNew.place b m id c.buf.length).sectorUpdate = true)
    : c.prepared b id m
      = (Prog.trace c.undisturbed.env
          (nvFlashWriteNew.update b c.single id c.itemId c.buf.length k (otherSect k))
          (Dev.opened m)).length := by
  unfold NvCall.prepared
  rw [if_pos rolls, store.opSect, otherSect_val]
  rfl

/-- Nothing is tolerated while the other sector is prepared. -/
theorem NvCall.HarmlessSkips.update (harmless : c.HarmlessSkips b id m)
    (store : Store b id k es m)
    (rolls : (nvFlashWriteNew.place b m id c.buf.length).sectorUpdate = true)
    {after : List Step}
    (split : c.plan b id m
      = Prog.trace c.undisturbed.env
          (nvFlashWriteNew.update b c.single id c.itemId c.buf.length k (otherSect k))
          (Dev.opened m) ++ after)
    : Prog.run c.env
        (nvFlashWriteNew.update b c.single id c.itemId c.buf.length k (otherSect k)) (Dev.opened m)
      = Prog.run c.undisturbed.env
        (nvFlashWriteNew.update b c.single id c.itemId c.buf.length k (otherSect k))
        (Dev.opened m) := by
  apply Prog.run_voidSkips (nvFlashWriteNew.update_blind b c.single id c.itemId _ _ _)
  apply harmless.voids [] split
  intro i s found _ exempt
  have inside := (List.getElem?_eq_some_iff.mp found).1
  have number := NvCall.prepared_eq store rolls
  rw [List.length_nil, Nat.zero_add] at exempt
  rcases exempt with isPayload | ⟨isFlag, _⟩
  · omega
  · omega

/-- The two flags at the end of a call that moved to sector `j`. -/
theorem finish_leaves {env : Env} {d : Dev} {j : Fin 2} {wItemIdx : Nat}
    : Prog.trace env (nvFlashWriteNew.finish b id k j wItemIdx true none .succ) d
        = [d.step env (.program (moduleSector b id k).base (headBytes id nvSectorInvalid j)),
            (d.issue env
              (.program (moduleSector b id k).base (headBytes id nvSectorInvalid j))).step env
              (.program (moduleSector b id j).base (headBytes id nvSectorValid j))]
      ∧ (Prog.run env (nvFlashWriteNew.finish b id k j wItemIdx true none .succ) d).2.mem
        = ((d.issue env
            (.program (moduleSector b id k).base (headBytes id nvSectorInvalid j))).issue env
            (.program (moduleSector b id j).base (headBytes id nvSectorValid j))).mem := by
  simp only [nvFlashWriteNew.finish, nvFlashWriteNew.markDeleted, nvFlashWriteNew.markSectors,
    nvFlashWriteNew.markSector, if_true, Prog.run_bind, Prog.trace_bind, Prog.run_pure,
    Prog.trace_pure, run_flashWrite, trace_flashWrite, run_flashLock, trace_flashLock,
    List.nil_append, List.append_nil, List.cons_append]
  exact ⟨rfl, rfl⟩

/-- The call proceeds with the item and the flags, since there is no previous value. -/
theorem proceed_eq {env : Env} {d' erased : Dev} {itemId : UInt8} {buf : List UInt8}
    {single : Bool} {j : Fin 2} {entries : List InfoIdx} {env' : Env}
    (moved : Moved env' (moduleSector b id j) erased
      (es.filter (nvFlashWriteNew.keeps single itemId)) entries d')
    (real : itemId ≠ itemFieldIdle)
    : Prog.run env (nvFlashWriteNew.proceed b single id itemId buf k j (.ok entries.length)) d'
        = Prog.run env
            (nvWriteItem b id itemId j entries.length (.ram buf) >>=
              nvFlashWriteNew.finish b id k j entries.length true none) d'
      ∧ Prog.trace env
          (nvFlashWriteNew.proceed b single id itemId buf k j (.ok entries.length)) d'
        = Prog.trace env
            (nvWriteItem b id itemId j entries.length (.ram buf) >>=
              nvFlashWriteNew.finish b id k j entries.length true none) d' := by
  have search := moved.noPrevious rfl real buf.length
  rw [← search]
  exact ⟨rfl, rfl⟩

/-- A flag that puts a sector with a blank head in operation changes the array. -/
theorem switch_not_void {j : Fin 2} {m' : Mem}
    (blank : m'.BlankOn (moduleSector b id j).base ((moduleSector b id j).base + 4))
    : m'.program (moduleSector b id j).base (headBytes id nvSectorValid j) ≠ m' := by
  intro same
  have marked := (marked_of_valid blank).1
  rw [same] at marked
  exact not_marked_of_blank blank marked

/-- Taking the old sector out of operation leaves the head of the new one blank. -/
theorem Ready.blank_invalid {env : Env} {j : Fin 2} {itemId : UInt8} {buf : List UInt8}
    {m' : Mem} {entries : List InfoIdx} {single : Bool} {ret : NvSts} (different : j ≠ k)
    (ready : Ready env b id k j es single itemId buf m ret entries m')
    : (m'.program (moduleSector b id k).base (headBytes id nvSectorInvalid j)).BlankOn
        (moduleSector b id j).base ((moduleSector b id j).base + 4) := by
  have bounds := (moduleSector b id j).idxAddr_bounds (moduleSector b id j).slots_pos
  have boundsOld := (moduleSector b id k).idxAddr_bounds (moduleSector b id k).slots_pos
  have apart := @moduleSector_apart b id j k different
  intro x low high
  rw [Mem.program_outside (by simp only [headBytes_length]; omega)]
  exact ready.blank x low high

/-- The skips leave the flags alone, unless the first one is skipped while sector 1 is in operation.
-/
theorem NvCall.HarmlessSkips.flags (harmless : c.HarmlessSkips b id m) (rolls : c.Rolls b id m)
    {written : List Step} {d : Dev} {wItemIdx : Nat}
    (number : written.length = c.prepared b id m + 4) (issued : d.issued = written.length)
    (memory : d.mem = replay m written)
    (plan : c.plan b id m = written ++ Prog.trace c.undisturbed.env
      (nvFlashWriteNew.finish b id k (otherSect k) wItemIdx true none .succ) d)
    (first : ¬(c.skipped (c.prepared b id m + 4) = true ∧ nvOpSect b m id = 1))
    : Prog.run c.env (nvFlashWriteNew.finish b id k (otherSect k) wItemIdx true none .succ) d
      = Prog.run c.undisturbed.env
        (nvFlashWriteNew.finish b id k (otherSect k) wItemIdx true none .succ) d := by
  have voids := harmless.voids written (plan.trans (List.append_nil _).symm) (by
    intro i s _ skipped exempt
    rw [number] at skipped exempt
    rcases exempt with isPayload | ⟨isFlag, ⟨stays, _⟩ | ⟨_, sector⟩⟩
    · omega
    · exact absurd rolls stays
    · rw [isFlag] at skipped
      exact absurd ⟨skipped, sector⟩ first)
  apply Prog.run_voidSkips (nvFlashWriteNew.finish_blind _ _ _ _ _ _ _)
  rw [issued, memory]
  exact voids

/-- The flag that puts a blank sector in operation is not skipped. -/
theorem NvCall.HarmlessSkips.switch (harmless : c.HarmlessSkips b id m) {written : List Step}
    {d : Dev} {wItemIdx : Nat} (number : written.length = c.prepared b id m + 4)
    (memory : d.mem = replay m written)
    (plan : c.plan b id m = written ++ Prog.trace c.undisturbed.env
      (nvFlashWriteNew.finish b id k (otherSect k) wItemIdx true none .succ) d)
    (blank : (d.mem.program (moduleSector b id k).base
      (headBytes id nvSectorInvalid (otherSect k))).BlankOn
        (moduleSector b id (otherSect k)).base ((moduleSector b id (otherSect k)).base + 4))
    : c.skipped (c.prepared b id m + 5) = false := by
  obtain ⟨flags, _⟩ := @finish_leaves b id k c.undisturbed.env d (otherSect k) wItemIdx
  have split : c.plan b id m
      = (written ++ [d.step c.undisturbed.env (.program (moduleSector b id k).base
          (headBytes id nvSectorInvalid (otherSect k)))])
        ++ [(d.issue c.undisturbed.env (.program (moduleSector b id k).base
          (headBytes id nvSectorInvalid (otherSect k)))).step c.undisturbed.env
          (.program (moduleSector b id (otherSect k)).base
            (headBytes id nvSectorValid (otherSect k)))] ++ [] := by
    rw [plan, flags]
    simp
  have voids := harmless.voids _ split (by
    intro i s _ _ exempt
    simp only [List.length_append, List.length_cons, List.length_nil, number] at exempt
    rcases exempt with isPayload | ⟨isFlag, _⟩
    · omega
    · omega)
  rw [List.length_append, number, replay_append, ← memory] at voids
  by_contra low
  have void := voids.1 (by simpa using low)
  simp only [replay_cons, replay_nil, Step.apply, Dev.step, c.undisturbed_steady.accepts, if_true,
    Cmd.apply] at void
  exact switch_not_void blank void

/-- When the first flag is skipped and the second one takes effect, both sectors are marked. -/
theorem NvCall.finish_kept {d : Dev} {wItemIdx : Nat} (first : c.skipped d.issued = true)
    (second : c.skipped (d.issued + 1) = false)
    : (Prog.run c.env (nvFlashWriteNew.finish b id k (otherSect k) wItemIdx true none .succ)
          d).2.mem
      = d.mem.program (moduleSector b id (otherSect k)).base
          (headBytes id nvSectorValid (otherSect k)) := by
  obtain ⟨_, final⟩ := @finish_leaves b id k c.env d (otherSect k) wItemIdx
  have lost : (d.issue c.env (.program (moduleSector b id k).base
      (headBytes id nvSectorInvalid (otherSect k)))).mem = d.mem := by
    have low : c.env.lowVoltage d.issued = true := first
    simp [Dev.issue, Step.apply, Dev.step, Env.accepts, low]
  have accepted : c.env.accepts (d.issue c.env (.program (moduleSector b id k).base
      (headBytes id nvSectorInvalid (otherSect k)))) = true := by
    have low : c.env.lowVoltage (d.issued + 1) = false := second
    have unguarded : c.env.lockGuards = false := rfl
    simp [Env.accepts, Dev.issue, low, unguarded]
  rw [final, Dev.issue, Dev.step, Step.apply]
  simp only [accepted, if_true, Cmd.apply, lost]

/-- The end of a call that moves to the other sector: the item and the flags. -/
theorem NvCall.HarmlessSkips.proceeds (harmless : c.HarmlessSkips b id m)
    (settled : Settled b id k es m) (whole : c.cut = none) (rolls : c.Rolls b id m)
    (fits : Fits b id c.buf.length m) (good : c.status b id m = .succ)
    {prepared : List Step} {d' erased : Dev} {entries : List InfoIdx}
    (number : prepared.length = c.prepared b id m) (issued : d'.issued = c.prepared b id m)
    (memory : d'.mem = replay m prepared)
    (blanked : Erased (moduleSector b id (otherSect k)) (Dev.opened m) erased)
    (moved : Moved c.undisturbed.env (moduleSector b id (otherSect k)) erased
      (es.filter (nvFlashWriteNew.keeps c.single c.itemId)) entries d')
    (room : entries.length < (moduleSector b id (otherSect k)).slots)
    (inside : nextFree (moduleSector b id (otherSect k)).ctx entries + (c.buf.length + 8)
      ≤ (moduleSector b id (otherSect k)).limit)
    (plan : c.plan b id m = prepared ++ Prog.trace c.undisturbed.env
      (nvFlashWriteNew.proceed b c.single id c.itemId c.buf k (otherSect k) (.ok entries.length)) d')
    (runs : Prog.run c.env (nvFlashWriteNew b c.single id c.itemId c.buf) (Dev.ready m)
      = Prog.run c.env (nvFlashWriteNew.proceed b c.single id c.itemId c.buf k (otherSect k)
          (.ok entries.length)) d')
    (calm : Prog.run c.undisturbed.env (nvFlashWriteNew b c.single id c.itemId c.buf) (Dev.ready m)
      = Prog.run c.undisturbed.env (nvFlashWriteNew.proceed b c.single id c.itemId c.buf k
          (otherSect k) (.ok entries.length)) d')
    : Truthful b id c m (c.after b id m) := by
  have different := otherSect_ne k
  have store : Store b id k es (Dev.opened m).mem := settled.store
  obtain ⟨_, used⟩ := settled.store.leaves rolls.1.short rolls.2
  rw [(proceed_eq moved c.real).1] at runs calm
  rw [(proceed_eq moved c.real).2, Prog.trace_bind] at plan
  obtain ⟨_, ⟨l, ready⟩, status⟩ := (@fill_meets c.undisturbed.env b id k (otherSect k) es
    c.single c.itemId c.buf (Dev.opened m) d' erased entries store different blanked moved c.real
    room inside).steady c.undisturbed_steady
  have succ := status (Or.inl rfl) (Or.inl rfl)
  obtain ⟨entry, payload, header, mark, trace, _⟩ := @trace_nvWriteItem _ b id (otherSect k)
    entries d' c.itemId c.buf c.undisturbed_steady moved.chain room inside
  have item := harmless.item prepared moved.chain room inside number (issued.trans number.symm)
    memory (plan.trans (List.append_assoc _ _ _).symm) (by
      rw [NvCall.status, runs, Prog.run_bind, nvFlashWriteNew.run_finish] at good
      exact good)
  have count := Prog.run_issued c.undisturbed.env
    (nvWriteItem b id c.itemId (otherSect k) entries.length (.ram c.buf)) d'
  have contents := Prog.run_mem c.undisturbed.env
    (nvWriteItem b id c.itemId (otherSect k) entries.length (.ram c.buf)) d'
  rw [trace, issued] at count
  rw [trace, memory, ← replay_append] at contents
  rw [Prog.run_bind, item] at runs
  rw [Prog.run_bind] at calm
  rw [trace] at plan
  generalize Prog.run c.undisturbed.env
    (nvWriteItem b id c.itemId (otherSect k) entries.length (.ram c.buf)) d' = written
    at runs calm plan ready succ count contents
  obtain ⟨ret, d''⟩ := written
  obtain rfl : ret = .succ := succ
  have length : (prepared ++ [entry, payload, header, mark]).length = c.prepared b id m + 4 := by
    rw [List.length_append, number]
    rfl
  have finish := plan.trans (List.append_assoc _ _ _).symm
  by_cases kept : c.skipped (c.prepared b id m + 4) = true ∧ nvOpSect b m id = 1
  case neg =>
      -- neither flag is tolerated, so the call runs as with a good supply
      apply NvCall.truthful_of_undisturbed settled whole fits good
      rw [runs, calm]
      exact harmless.flags rolls length (count.trans length.symm) contents finish kept
  case pos =>
      -- the old sector stays marked, and the new one comes first
      obtain ⟨skipped, sector⟩ := kept
      have second : k = 1 := by
        rw [settled.store.opSect] at sector
        exact Fin.ext sector
      have first : otherSect k = 0 := by
        rw [second]
        rfl
      have sent := harmless.switch length contents finish (ready.blank_invalid different)
      have after : c.after b id m = d''.mem.program (moduleSector b id (otherSect k)).base
          (headBytes id nvSectorValid (otherSect k)) := by
        rw [NvCall.after_uncut whole, runs]
        exact NvCall.finish_kept (by rw [count]; exact skipped) (by rw [count]; exact sent)
      obtain ⟨itself, others⟩ := ready.switched settled.store different used first
        c.undisturbed_steady c.real rolls.1.short
      rw [after]
      refine ⟨itself, ?_⟩
      intro other foreign real len shortOther
      rw [others other foreign real len shortOther, settled.store.read real,
        if_pos (settled.marked used)]

/-- A call that moves to the other sector. -/
theorem NvCall.HarmlessSkips.leaves (harmless : c.HarmlessSkips b id m)
    (settled : Settled b id k es m) (whole : c.cut = none)
    (admitted : Admitted id c.buf.length) (fits : Fits b id c.buf.length m)
    (rolls : (nvFlashWriteNew.place b m id c.buf.length).sectorUpdate = true)
    (good : c.status b id m = .succ)
    : Truthful b id c m (c.after b id m) := by
  obtain ⟨_, used⟩ := settled.store.leaves admitted.short rolls
  have marked := settled.marked used
  obtain ⟨runs, _⟩ := @nvFlashWriteNew_leaves_eq b id k es m c.env rfl c.itemId c.buf c.single
    settled.store admitted rolls
  obtain ⟨calm, plan⟩ := @nvFlashWriteNew_leaves_eq b id k es m c.undisturbed.env rfl c.itemId
    c.buf c.single settled.store admitted rolls
  have number := @NvCall.prepared_eq b id k es m c settled.store rolls
  rw [Prog.trace_bind] at plan
  have update := harmless.update settled.store rolls plan
  obtain ⟨_, outcome⟩ := (@Store.prepare_meets c.undisturbed.env b id k es (Dev.opened m)
    settled.store c.single c.itemId c.buf.length admitted.short).steady c.undisturbed_steady
  have issued := Prog.run_issued c.undisturbed.env
    (nvFlashWriteNew.update b c.single id c.itemId c.buf.length k (otherSect k)) (Dev.opened m)
  have memory := Prog.run_mem c.undisturbed.env
    (nvFlashWriteNew.update b c.single id c.itemId c.buf.length k (otherSect k)) (Dev.opened m)
  rw [Prog.run_bind, update] at runs
  rw [Prog.run_bind] at calm
  rw [← number] at issued
  generalize Prog.trace c.undisturbed.env
    (nvFlashWriteNew.update b c.single id c.itemId c.buf.length k (otherSect k)) (Dev.opened m)
    = prepared at plan memory number
  generalize Prog.run c.undisturbed.env
    (nvFlashWriteNew.update b c.single id c.itemId c.buf.length k (otherSect k)) (Dev.opened m)
    = result at runs calm plan outcome issued memory
  obtain ⟨result, d'⟩ := result
  cases result with
  | error ret =>
      -- the sector could not be prepared, which the call reports
      obtain ⟨status, _⟩ := outcome
      have failed : c.status b id m = ret := by
        rw [NvCall.status, runs]
        simp only [nvFlashWriteNew.proceed, Prog.run_bind, Prog.run_pure]
      rw [failed, status] at good
      contradiction
  | ok wItemIdx =>
      obtain ⟨erased, entries, blanked, moved, rfl, room, inside⟩ := outcome
      exact harmless.proceeds settled whole ⟨admitted, rolls⟩ fits good number.symm
        (issued.trans (Nat.zero_add _)) memory blanked moved room inside plan runs calm

end Harmless

-----------------------------------------------------------------------------------------
-- Success after any fault-free history
-----------------------------------------------------------------------------------------

/-- A complete call without skipped commands whose length is a multiple of four. -/
structure RoundedWrite (c : NvCall) : Prop where
  single : c.single = true
  whole : c.cut = none
  unskipped : ∀ n, c.skipped n = false
  rounded : c.buf.length % 4 = 0

section Runs

variable {b : Build} {id : Fin nvMaxModuls} {m : Mem}

/-- Such calls keep the module settled with rounded sizes, by induction on the run. -/
theorem NvReached.rounded (reached : NvReached b id (fun _ c => RoundedWrite c) m)
    : ∃ k es, Settled b id k es m ∧ ∀ e ∈ es, e.size % 4 = 0 := by
  induction reached with
  | erased blank =>
      refine ⟨0, [], Settled.erased blank, ?_⟩
      intro e member
      exact absurd member List.not_mem_nil
  | @call m c _ step ih =>
      obtain ⟨k, es, settled, sizes⟩ := ih
      obtain ⟨i, l, done⟩ := NvCall.completed settled step.whole step.unskipped
        (settled.store.fits_rounded sizes c.buf.length)
      refine ⟨i, l, done.settled, ?_⟩
      intro e member
      rcases done.sizes e member with new | ⟨e', member', same⟩
      · have rounded := step.rounded
        rw [new]
        omega
      · rw [same]
        exact sizes e' member'

end Runs

end TelinkSdk
