import TelinkSdk.Drivers.NvCall

/-! What reported successes and failures of `nv_flashWriteNew` are worth after a history of
power cuts and skipped commands.
-/

namespace TelinkSdk

open Nor

-----------------------------------------------------------------------------------------
-- Success
-----------------------------------------------------------------------------------------

/-- A call with `single` set whose item fits behind the last one. It may be cut anywhere and
lose any command, but after a skipped index entry no later command of it takes effect.
-/
structure OrderlyCall (b : Build) (id : Fin nvMaxModuls) (m : Mem) (c : NvCall) : Prop where
  single : c.single = true
  fits : Fits b id c.buf.length m
  orderly : Orderly (Structural b id) (c.steps b id m)

/-- The driver finds a sector marked valid, or it is about to fill an empty one, or it moves
to the other sector.
-/
def SectorUsable (b : Build) (id : Fin nvMaxModuls) (m : Mem) (len : Nat) : Prop :=
  (nvSectorRead b m id moduleSectorNum).isSome = true
    ∨ (nvFlashWriteNew.place b m id len).wItemIdx = 0
    ∨ (nvFlashWriteNew.place b m id len).sectorUpdate = true

section Durability

variable {b : Build} {id : Fin nvMaxModuls} {c : NvCall} {m : Mem}

/-- Whatever happened to the calls before, a fault-free call that reports success can be
read back exactly when a sector was usable for it. An unmarked sector with entries is not:
the driver appends to it but sets its flag only with the first entry.
-/
theorem nvFlashWriteNew_readback (b : Build) (id : Fin nvMaxModuls) {m : Mem}
    (reached : NvReached b id (OrderlyCall b id) m) (c : NvCall) (call : OrderlyCall b id m c)
    (whole : c.cut = none) (unskipped : ∀ n, c.skipped n = false)
    (good : c.status b id m = .succ)
    : nvFlashReadNew b (c.after b id m) id c.itemId c.buf.length = some c.buf
      ↔ SectorUsable b id m c.buf.length := by
  obtain ⟨k, es, store⟩ := reached.store (fun m c call => ⟨call.fits, call.orderly⟩)
  have steady := c.steady unskipped
  rw [NvCall.after_uncut whole]
  by_cases admitted : Admitted id c.buf.length
  · by_cases rolls : (nvFlashWriteNew.place b m id c.buf.length).sectorUpdate = true
    · have rolled := ((@nvFlashWriteNew_leaves_meets c.env b id k es (Dev.ready m) c.itemId c.buf
        c.single store c.real admitted rolls).steady steady).2
      obtain ⟨l, store', marked, _, _, itself⟩ := rolled.written steady good
      rw [store'.read c.real, if_pos marked, itself]
      exact iff_of_true rfl (Or.inr (Or.inr rolls))
    · have plain : (nvFlashWriteNew.place b m id c.buf.length).sectorUpdate = false := by
        simpa using rolls
      obtain ⟨place, _, _⟩ := store.stays admitted call.fits plain
      have stayed := ((@nvFlashWriteNew_stays_meets c.env b id k es (Dev.ready m) c.itemId c.buf
        c.single store c.real admitted call.fits plain).steady steady).2.1
      obtain ⟨_, readable, lost⟩ := stayed.written steady
      have usable : SectorUsable b id m c.buf.length ↔ Marked b id m k ∨ es = [] := by
        have found : (nvSectorRead b m id moduleSectorNum).isSome = true ↔ Marked b id m k := by
          rw [store.sectorRead]
          by_cases marked : Marked b id m k <;> simp [marked]
        rw [SectorUsable, found, place]
        simp
      rw [usable]
      constructor
      · intro read
        by_cases ready : Marked b id m k ∨ es = []
        · exact ready
        · rw [lost ready] at read
          contradiction
      · intro ready
        exact (readable ready).2
  · rw [NvCall.status, (nvFlashWriteNew_refused c.single admitted).2] at good
    contradiction

-----------------------------------------------------------------------------------------
-- Failure
-----------------------------------------------------------------------------------------

/-- A complete call whose item fits behind the last one. Payloads, heads, marks and flags may
be skipped, index entries and erases are not.
-/
structure IndexedCall (b : Build) (id : Fin nvMaxModuls) (m : Mem) (c : NvCall) : Prop where
  whole : c.cut = none
  fits : Fits b id c.buf.length m
  unbroken : ¬Broken (Structural b id) (c.steps b id m)

/-- The call appends to a sector that holds a valid copy of the item with the same length,
which it marks invalid after the write, and the write of the payload, its second command, is
skipped and missed.
-/
def DropsCopy (b : Build) (id : Fin nvMaxModuls) (m : Mem) (c : NvCall) : Prop :=
  c.single = true ∧ ¬c.Rolls b id m
    ∧ (nvIndexRead b m id c.itemId c.buf.length (nvOpSect b m id) (moduleIdxNum id)).isSome = true
    ∧ c.skipped 1 = true ∧ ∃ value ∈ c.buf, value ≠ blankByte

theorem Orderly.of_unbroken {critical : Cmd → Prop} {steps : List Step}
    (unbroken : ¬Broken critical steps)
    : Orderly critical steps := by
  induction steps with
  | nil => exact trivial
  | cons s rest ih =>
      refine ⟨fun isCritical lost => ?_, ih ?_⟩
      · exact absurd ⟨s, List.mem_cons_self, isCritical, lost⟩ unbroken
      · rintro ⟨later, member, lost⟩
        exact unbroken ⟨later, List.mem_cons_of_mem s member, lost⟩

/-- A call that reports a failure loses nothing, in every state that calls reach, unless it
gives up the previous copy of its item although the new one is incomplete.
-/
theorem nvFlashWriteNew_failure_keeps (b : Build) (id : Fin nvMaxModuls) {m : Mem}
    (reached : NvReached b id (IndexedCall b id) m) (c : NvCall) (call : IndexedCall b id m c)
    (bad : c.status b id m ≠ .succ) (keeps : ¬DropsCopy b id m c) (itemId : UInt8)
    (real : itemId ≠ itemFieldIdle) (len : Nat) (short : len < u16Mod)
    : nvFlashReadNew b (c.after b id m) id itemId len = nvFlashReadNew b m id itemId len := by
  obtain ⟨k, es, store⟩ := reached.store
    (fun m c call => ⟨call.fits, Orderly.of_unbroken call.unbroken⟩)
  have orderly := Orderly.of_unbroken call.unbroken
  rw [NvCall.after_uncut call.whole]
  by_cases admitted : Admitted id c.buf.length
  · by_cases rolls : (nvFlashWriteNew.place b m id c.buf.length).sectorUpdate = true
    · obtain ⟨_, outcome⟩ := @nvFlashWriteNew_leaves_meets c.env b id k es (Dev.ready m) c.itemId
        c.buf c.single store c.real admitted rolls orderly
      have rolled := outcome.resolve_right call.unbroken
      exact (rolled.failed bad).reads store (otherSect_ne k) real short
    · have plain : (nvFlashWriteNew.place b m id c.buf.length).sectorUpdate = false := by
        simpa using rolls
      obtain ⟨_, outcome⟩ := @nvFlashWriteNew_stays_meets c.env b id k es (Dev.ready m) c.itemId
        c.buf c.single store c.real admitted call.fits plain orderly
      obtain ⟨stayed, status⟩ := outcome.resolve_right call.unbroken
      apply stayed.failed bad _ itemId real len short
      cases found : previousSlot b c.single id c.itemId c.buf.length k m with
      | none => exact found
      | some i =>
          -- A failure means that the payload was lost, so the call drops the copy.
          obtain ⟨single, search⟩ := previousSlot_some found
          refine absurd ⟨single, fun rolling => rolls rolling.2, ?_, ?_⟩ keeps
          · rw [store.opSect, search]
            rfl
          · by_contra arrived
            refine bad (status (Or.inl rfl) ?_)
            by_cases skipped : c.skipped 1 = true
            · right
              intro value member
              by_contra visible
              exact arrived ⟨skipped, value, member, visible⟩
            · have supplied : c.skipped 1 = false := by simpa using skipped
              exact Or.inl supplied
  · rw [(nvFlashWriteNew_refused c.single admitted).2]
    rfl

end Durability

/-- A step that arrives, or that neither erases nor writes as many bytes as an index entry has. -/
def sparesEntries (s : Step) : Bool :=
  s.done || match s.cmd with
    | .program _ bytes => bytes.length != 8
    | .erase _ _ => false

theorem unbroken_of_spares {b : Build} {id : Fin nvMaxModuls} {steps : List Step}
    (spares : steps.all sparesEntries = true)
    : ¬Broken (Structural b id) steps := by
  rintro ⟨s, member, structural, lost⟩
  have spared := List.all_eq_true.mp spares s member
  rw [sparesEntries, lost, Bool.false_or] at spared
  cases cmd : s.cmd with
  | program addr bytes =>
      rw [cmd] at spared structural
      simp [structural.1] at spared
  | erase sectorSize addr =>
      rw [cmd] at spared
      cases spared

theorem OrderlyCall.of_spares {b : Build} {id : Fin nvMaxModuls} {m : Mem} {c : NvCall}
    (single : c.single = true) (fits : Fits b id c.buf.length m)
    (spares : (c.steps b id m).all sparesEntries = true)
    : OrderlyCall b id m c :=
  ⟨single, fits, Orderly.of_unbroken (unbroken_of_spares spares)⟩

theorem OrderlyCall.of_unskipped {b : Build} {id : Fin nvMaxModuls} {m : Mem} {c : NvCall}
    (single : c.single = true) (fits : Fits b id c.buf.length m)
    (unskipped : ∀ n, c.skipped n = false)
    : OrderlyCall b id m c :=
  ⟨single, fits, NvCall.orderly_steady unskipped⟩

-----------------------------------------------------------------------------------------
-- A write after a cut and a skipped payload
-----------------------------------------------------------------------------------------

namespace AfterFaults

open SampleCall (build first again)

def cut : NvCall := { SampleCall.second with cut := some 1 }

def skipped : NvCall := { SampleCall.again with skipped := (· == 1) }

def stored : Mem := cut.after build macModule (first.after build macModule Mem.blank)

def faulty : Mem := skipped.after build macModule stored

theorem reached : NvReached build macModule (OrderlyCall build macModule) faulty := by
  have one : OrderlyCall build macModule Mem.blank first :=
    .of_unskipped rfl (by decide +kernel) (fun _ => rfl)
  have two : OrderlyCall build macModule (first.after build macModule Mem.blank) cut :=
    .of_unskipped rfl (by decide +kernel) (fun _ => rfl)
  have three : OrderlyCall build macModule stored skipped :=
    .of_spares rfl (by decide +kernel) (by decide +kernel)
  exact .call (.call (.call (.erased (fun _ _ _ => rfl)) one) two) three

end AfterFaults

/-- The sector was marked before a call was cut and another one lost its payload. -/
theorem nvFlashWriteNew_readback_faults
    : nvFlashReadNew SampleCall.build AfterFaults.faulty macModule 1 4 = none
      ∧ nvFlashReadNew SampleCall.build
          (SampleCall.again.after SampleCall.build macModule AfterFaults.faulty) macModule 1 4
        = some [9, 9, 9, 9] := by
  have call : OrderlyCall SampleCall.build macModule AfterFaults.faulty SampleCall.again :=
    .of_unskipped rfl (by decide +kernel) (fun _ => rfl)
  refine ⟨by decide +kernel, ?_⟩
  exact (nvFlashWriteNew_readback SampleCall.build macModule AfterFaults.reached SampleCall.again
    call rfl (fun _ => rfl) (by decide +kernel)).mpr (Or.inl (by decide +kernel))

/-- The first write is cut after its index entry, so the sector is never marked: the next
write reports success and cannot be read.
-/
theorem unmarked_sector_swallows_writes
    : let b : Build := ⟨true, false⟩
      let first : NvCall := { itemId := 1, buf := [7], cut := some 1 }
      let second : NvCall := { itemId := 1, buf := [7] }
      let m := first.after b 0 Mem.blank
      NvReached b 0 (fun _ c => c.single = true) m
        ∧ second.status b 0 m = .succ
        ∧ nvFlashReadNew b (second.after b 0 m) (0 : Fin nvMaxModuls) 1 1 = none :=
  ⟨.call (.erased (fun _ _ _ => rfl)) rfl, by decide +kernel, by decide +kernel⟩

-----------------------------------------------------------------------------------------
-- A rollover that loses its payload
-----------------------------------------------------------------------------------------

namespace LostPayload

open SampleCall (build first second twoItems)

/-- It takes what is left of the sector, and its payload is skipped. -/
def third : NvCall := { SampleCall.third with skipped := (· == 1) }

/-- It moves the second item to the other sector, and then its own payload is skipped. -/
def again : NvCall := { SampleCall.again with skipped := (· == 5) }

/-- Only the index entry of the third item arrives. -/
def full : Mem := twoItems.program 0x80014 [0x18, 0x02, 0x08, 0x00, 0xE4, 0x0D, 3, 0xFA]

set_option maxRecDepth 10000 in
theorem third_steps
    : third.steps build macModule twoItems
      = [⟨.program 0x80014 [0x18, 0x02, 0x08, 0x00, 0xE4, 0x0D, 3, 0xFA], false, true⟩,
        ⟨.program 0x80220 third.buf, false, false⟩] := by
  decide +kernel

theorem third_after : third.after build macModule twoItems = full := by
  have whole : third.after build macModule twoItems
      = replay twoItems (third.steps build macModule twoItems) := by
    rw [NvCall.after, NvCall.count]
    exact congrArg (replay twoItems) List.take_length
  rw [whole, third_steps, replay_cons, replay_cons, replay_nil, Step.apply, if_neg (by decide),
    Step.apply, if_pos rfl]
  rfl

theorem reached : NvReached build macModule (IndexedCall build macModule) full := by
  have one : IndexedCall build macModule Mem.blank first :=
    ⟨rfl, by decide +kernel, unbroken_of_spares (by decide +kernel)⟩
  have two : IndexedCall build macModule (first.after build macModule Mem.blank) second :=
    ⟨rfl, by decide +kernel, unbroken_of_spares (by decide +kernel)⟩
  have three : IndexedCall build macModule twoItems third := by
    refine ⟨rfl, by decide +kernel, unbroken_of_spares ?_⟩
    rw [third_steps]
    decide +kernel
  rw [← third_after]
  exact .call (.call (.call (.erased (fun _ _ _ => rfl)) one) two) three

theorem indexed : IndexedCall build macModule full again :=
  ⟨rfl, by decide +kernel, unbroken_of_spares (by decide +kernel)⟩

theorem rolls : again.Rolls build macModule full := ⟨by decide, by decide +kernel⟩

end LostPayload

/-- The first of two items is rewritten in the other sector, and its payload is skipped: the call
reports the checksum error, and both items read as before.
-/
theorem nvFlashWriteNew_failure_keeps_rollover
    : LostPayload.again.status SampleCall.build macModule LostPayload.full = .checkSumError
      ∧ nvFlashReadNew SampleCall.build
          (LostPayload.again.after SampleCall.build macModule LostPayload.full) macModule 1 4
        = some [1, 2, 3, 4]
      ∧ nvFlashReadNew SampleCall.build
          (LostPayload.again.after SampleCall.build macModule LostPayload.full) macModule 2 4
        = some [5, 6, 7, 8] := by
  have status : LostPayload.again.status SampleCall.build macModule LostPayload.full
      = .checkSumError := by
    decide +kernel
  have failed : LostPayload.again.status SampleCall.build macModule LostPayload.full ≠ .succ := by
    rw [status]
    decide
  have keeps := nvFlashWriteNew_failure_keeps SampleCall.build macModule LostPayload.reached
    LostPayload.again LostPayload.indexed failed (fun drops => drops.2.1 LostPayload.rolls)
  refine ⟨status, ?_, ?_⟩
  · rw [keeps 1 (by decide) 4 (by decide)]
    decide +kernel
  · rw [keeps 2 (by decide) 4 (by decide)]
    decide +kernel

/-- The payload of a rewrite is skipped: the call reports the checksum error, and the old
value is gone.
-/
theorem checksum_error_drops_old_value
    : let b : Build := ⟨true, false⟩
      let first : NvCall := { itemId := 1, buf := [7] }
      let second : NvCall := { itemId := 1, buf := [9], skipped := fun n => n == 1 }
      let m := first.after b 0 Mem.blank
      NvReached b 0 (fun _ c => c.cut = none ∧ ∀ n, c.skipped n = false) m
        ∧ second.status b 0 m = .checkSumError
        ∧ nvFlashReadNew b m (0 : Fin nvMaxModuls) 1 1 = some [7]
        ∧ nvFlashReadNew b (second.after b 0 m) (0 : Fin nvMaxModuls) 1 1 = none :=
  ⟨.call (.erased (fun _ _ _ => rfl)) ⟨rfl, fun _ => rfl⟩, by decide +kernel, by decide +kernel,
    by decide +kernel⟩

end TelinkSdk
