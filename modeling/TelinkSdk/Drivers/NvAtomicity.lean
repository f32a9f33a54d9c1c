import TelinkSdk.Drivers.NvCall

/-! Power cuts during `nv_flashWriteNew`. -/

namespace TelinkSdk

open Nor

namespace NvCall

variable (b : Build) (id : Fin nvMaxModuls) (c : NvCall) (m : Mem)

/-- The command that marks the other sector valid. -/
def switchCmd : Cmd :=
  let opSect := (nvOpSect b m id + 1) % moduleSectorNum
  .program (moduleSectStart b id opSect)
    (SectInfo.bytes { usedFlag := nvSectorValid, idName := .ofNat id, opSect := .ofNat opSect })

/-- The items that a rollover copies. -/
def live : List InfoIdx :=
  (readIndexes m (moduleIdxStart b id (nvOpSect b m id)) (moduleIdxNum id)).filter
    (nvFlashWriteNew.keeps c.single c.itemId)

end NvCall

/-- No item of the module can be read. -/
def NothingReadable (b : Build) (id : Fin nvMaxModuls) (m : Mem) : Prop :=
  ∀ itemId, itemId ≠ itemFieldIdle → ∀ len < u16Mod, nvFlashReadNew b m id itemId len = none

/-- A call with `single` set, hit by nothing but a power cut, for which the cut is harmless:
the item fits behind the last one, and a rollover is not cut between its two flags. The
rollover of a sector that was never marked must not get to its last flag, unless it has no
item to revive.
-/
structure AtomicCall (b : Build) (id : Fin nvMaxModuls) (m : Mem) (c : NvCall) : Prop where
  single : c.single = true
  unskipped : ∀ n, c.skipped n = false
  fits : Fits b id c.buf.length m
  marked : c.Rolls b id m → (nvSectorRead b m id moduleSectorNum).isSome = true
    → (∀ s, (c.steps b id m)[c.count b id m]? = some s → s.cmd ≠ NvCall.switchCmd b id m)
      ∨ NothingReadable b id m
  unmarked : c.Rolls b id m → nvSectorRead b m id moduleSectorNum = none
    → (∀ s ∈ (c.steps b id m).take (c.count b id m), s.cmd ≠ NvCall.switchCmd b id m)
      ∨ c.live b id m = []

section Atomicity

variable {b : Build} {id : Fin nvMaxModuls} {c : NvCall} {m : Mem} {k : Fin 2}
  {es : List InfoIdx}

theorem Store.switchCmd (store : Store b id k es m)
    : NvCall.switchCmd b id m = switchOver b id (otherSect k) := by
  rw [NvCall.switchCmd, store.opSect, otherSect_val]
  rfl

theorem Store.live (store : Store b id k es m)
    : c.live b id m = es.filter (nvFlashWriteNew.keeps c.single c.itemId) := by
  rw [NvCall.live, store.opSect]
  exact store.chain.liveItems c.single c.itemId

/-- Without a sector marked valid nothing is read. -/
theorem read_unmarked (unmarked : ∀ j, ¬Marked b id m j) (itemId : UInt8) (len : Nat)
    : nvFlashReadNew b m id itemId len = none := by
  rw [nvFlashReadNew, nvSectorRead_eq]
  simp [unmarked]

/-- The other items read as before the call, and its own as before it or as it writes it. -/
def Atomic (b : Build) (id : Fin nvMaxModuls) (c : NvCall) (m m' : Mem) : Prop :=
  (∀ other, other ≠ c.itemId → other ≠ itemFieldIdle → ∀ len < u16Mod,
      nvFlashReadNew b m' id other len = nvFlashReadNew b m id other len)
    ∧ (nvFlashReadNew b m' id c.itemId c.buf.length = nvFlashReadNew b m id c.itemId c.buf.length
      ∨ nvFlashReadNew b m' id c.itemId c.buf.length = some c.buf)

theorem Spare.atomic {m' : Mem} (spare : Spare b id (otherSect k) m m')
    (store : Store b id k es m)
    : Atomic b id c m m' :=
  ⟨fun _ _ real _ short => spare.reads store (otherSect_ne k) real short,
    Or.inl (spare.reads store (otherSect_ne k) c.real c.short)⟩

/-- Between the two flags no sector is marked. -/
theorem Ready.between {ret : NvSts} {l : List InfoIdx} {m' : Mem} {single : Bool}
    {itemId : UInt8} {buf : List UInt8}
    (ready : Ready c.env b id k (otherSect k) es single itemId buf m ret l m')
    : ∀ j, ¬Marked b id (m'.program (moduleSector b id k).base
        (headBytes id nvSectorInvalid (otherSect k))) j := by
  intro j
  by_cases old : j = k
  · subst j
    exact not_marked_of_invalid (otherSect k)
  · have new : j = otherSect k := by
      have different := otherSect_ne k
      omega
    subst j
    rw [marked_congr (head_other (otherSect_ne k).symm rfl)]
    exact not_marked_of_blank ready.blank

/-- A rollover that is cut at a harmless place. -/
theorem AtomicCall.leaves (store : Store b id k es m) (call : AtomicCall b id m c)
    (rolls : c.Rolls b id m)
    : Atomic b id c m (c.after b id m) := by
  have steady := c.steady call.unskipped
  have admitted := rolls.1
  have update := rolls.2
  obtain ⟨_, used⟩ := store.leaves admitted.short update
  obtain ⟨steps, cuts, whole⟩ := @leaves_trace c.env b id k es (Dev.ready m) c.itemId c.buf steady
    c.single store c.real admitted update
  have all : c.steps b id m = steps ∨ ∃ off on l, c.steps b id m = steps ++ [off, on]
      ∧ off.cmd = .program (moduleSector b id k).base (headBytes id nvSectorInvalid (otherSect k))
      ∧ on.cmd = switchOver b id (otherSect k)
      ∧ Ready c.env b id k (otherSect k) es c.single c.itemId c.buf m .succ l (replay m steps) :=
    whole
  have done : ∀ s ∈ c.steps b id m, s.done = true := Prog.trace_done steady _ _
  unfold NvCall.after
  generalize counted : c.count b id m = count
  rcases all with same | ⟨off, on, l, same, offCmd, onCmd, ready⟩
  · rw [same]
    exact (cuts count).atomic store
  · rw [same] at done ⊢
    have offDone := done off (by simp)
    have onDone := done on (by simp)
    have cases : count ≤ steps.length ∨ count = steps.length + 1 ∨ steps.length + 2 ≤ count := by
      omega
    rcases cases with early | between | late
    · rw [List.take_append_of_le_length early]
      exact (cuts count).atomic store
    · -- Power fails when the old sector is out of operation and the new one not yet in.
      have cutSteps : (steps ++ [off, on]).take count = steps ++ [off] := by
        rw [between, List.take_append, List.take_of_length_le (by omega)]
        simp
      have memory : replay m (steps ++ [off]) = (replay m steps).program
          (moduleSector b id k).base (headBytes id nvSectorInvalid (otherSect k)) := by
        simp [Step.apply, offDone, offCmd, Cmd.apply]
      have silent : NothingReadable b id (replay m (steps ++ [off])) := by
        intro itemId _ len _
        rw [memory]
        exact read_unmarked ready.between itemId len
      have before : NothingReadable b id m := by
        by_cases marked : Marked b id m k
        · have found : (nvSectorRead b m id moduleSectorNum).isSome = true := by
            rw [store.sectorRead, if_pos marked]
            rfl
          apply (call.marked rolls found).resolve_left
          intro harmless
          apply harmless on
          · rw [same, counted, between]
            simp
          · rw [onCmd, store.switchCmd]
        · intro itemId _ len _
          exact read_unmarked (store.unmarked marked).2 itemId len
      rw [cutSteps]
      refine ⟨?_, Or.inl ?_⟩
      · intro other _ real len short
        rw [silent other real len short, before other real len short]
      · rw [silent _ c.real _ c.short, before _ c.real _ c.short]
    · have allSteps : (steps ++ [off, on]).take count = steps ++ [off, on] :=
        List.take_of_length_le (by simpa using late)
      have memory : replay m (steps ++ [off, on])
          = ((replay m steps).program (moduleSector b id k).base
              (headBytes id nvSectorInvalid (otherSect k))).program
            (moduleSector b id (otherSect k)).base
            (headBytes id nvSectorValid (otherSect k)) := by
        simp [Step.apply, offDone, onDone, offCmd, onCmd, switchOver, Cmd.apply]
      obtain ⟨entries, moved, marked', _, others, itself⟩ :=
        (ready.rolled store (otherSect_ne k) used c.real c.short).written steady rfl
      rw [← memory] at moved marked' others itself
      -- The items read as in the old chain; without a mark there must have been none.
      have old {other : UInt8} (different : other ≠ c.itemId) (real : other ≠ itemFieldIdle)
          (len : Nat)
          : stored m es other len = nvFlashReadNew b m id other len := by
        by_cases marked : Marked b id m k
        · rw [store.read real, if_pos marked]
        · have missing : nvSectorRead b m id moduleSectorNum = none := by
            rw [store.sectorRead, if_neg marked]
          have none : c.live b id m = [] := by
            apply (call.unmarked rolls missing).resolve_left
            intro harmless
            apply harmless on
            · rw [same, counted, allSteps]
              simp
            · rw [onCmd, store.switchCmd]
          rw [store.read real, if_neg marked]
          rw [store.live] at none
          have kept := @stored_keeps es m c.single c.itemId other different real len
          rw [← kept, none]
          rfl
      rw [allSteps]
      refine ⟨?_, Or.inr ?_⟩
      · intro other different real len short
        rw [moved.read real, if_pos marked', others other different real len short]
        exact old different real len
      · rw [moved.read c.real, if_pos marked', itself]

/-- A call that stays in its sector is atomic at every cut. -/
theorem AtomicCall.stays (store : Store b id k es m) (call : AtomicCall b id m c)
    (admitted : Admitted id c.buf.length)
    (plain : (nvFlashWriteNew.place b m id c.buf.length).sectorUpdate = false)
    : Atomic b id c m (c.after b id m) := by
  have steady := c.steady call.unskipped
  have cut := ((@nvFlashWriteNew_stays_meets c.env b id k es (Dev.ready m) c.itemId c.buf c.single
    store c.real admitted call.fits plain).steady steady).1 (c.count b id m)
  exact ⟨cut.others, cut.itself steady⟩

/-- Calls of `nv_flashWriteNew` that are cut at harmless places are atomic, in every state
that such calls reach: the other items read as before, and the item itself reads as before
or as the new value.
-/
theorem nvFlashWriteNew_atomic (b : Build) (id : Fin nvMaxModuls) {m : Mem}
    (reached : NvReached b id (AtomicCall b id) m) (c : NvCall) (call : AtomicCall b id m c)
    : (∀ other, other ≠ c.itemId → other ≠ itemFieldIdle → ∀ len < u16Mod,
        nvFlashReadNew b (c.after b id m) id other len = nvFlashReadNew b m id other len)
      ∧ (nvFlashReadNew b (c.after b id m) id c.itemId c.buf.length
            = nvFlashReadNew b m id c.itemId c.buf.length
        ∨ nvFlashReadNew b (c.after b id m) id c.itemId c.buf.length = some c.buf) := by
  obtain ⟨k, es, store⟩ := reached.store
    (fun m c call => ⟨call.fits, c.orderly_steady call.unskipped⟩)
  by_cases admitted : Admitted id c.buf.length
  · by_cases rolls : (nvFlashWriteNew.place b m id c.buf.length).sectorUpdate = true
    · exact call.leaves store ⟨admitted, rolls⟩
    · exact call.stays store admitted (by simpa using rolls)
  · have none : c.steps b id m = [] := (nvFlashWriteNew_refused c.single admitted).1
    have unchanged : c.after b id m = m := by
      rw [NvCall.after, none, List.take_nil, replay_nil]
    rw [unchanged]
    exact ⟨fun _ _ _ _ _ => rfl, Or.inl rfl⟩

end Atomicity

theorem AtomicCall.of_stays {b : Build} {id : Fin nvMaxModuls} {m : Mem} {c : NvCall}
    (single : c.single = true) (unskipped : ∀ n, c.skipped n = false)
    (fits : Fits b id c.buf.length m)
    (stays : (nvFlashWriteNew.place b m id c.buf.length).sectorUpdate = false)
    : AtomicCall b id m c where
  single := single
  unskipped := unskipped
  fits := fits
  marked := fun rolls => absurd (stays.symm.trans rolls.2) Bool.false_ne_true
  unmarked := fun rolls => absurd (stays.symm.trans rolls.2) Bool.false_ne_true

-----------------------------------------------------------------------------------------
-- Cut rollovers
-----------------------------------------------------------------------------------------

namespace CutRollover

open SampleCall (build first second twoItems)

/-- Its entry is written and takes what is left of the sector. -/
def third : NvCall := { SampleCall.third with cut := some 1 }

/-- It moves to the other sector and is cut in front of the two flags. -/
def again : NvCall := { SampleCall.again with cut := some 8 }

def full : Mem := third.after build macModule twoItems

set_option maxRecDepth 10000 in
theorem reached : NvReached build macModule (AtomicCall build macModule) full := by
  have one : AtomicCall build macModule Mem.blank first :=
    .of_stays rfl (fun _ => rfl) (by decide +kernel) (by decide +kernel)
  have two : AtomicCall build macModule (first.after build macModule Mem.blank) second :=
    .of_stays rfl (fun _ => rfl) (by decide +kernel) (by decide +kernel)
  have three : AtomicCall build macModule twoItems third :=
    .of_stays rfl (fun _ => rfl) (by decide +kernel) (by decide +kernel)
  exact .call (.call (.call (.erased (fun _ _ _ => rfl)) one) two) three

theorem rolls : again.Rolls build macModule full := ⟨by decide, by decide +kernel⟩

theorem atomic : AtomicCall build macModule full again where
  single := rfl
  unskipped := fun _ => rfl
  fits := by decide +kernel
  marked := fun _ _ => by
    have next : ((again.steps build macModule full)[again.count build macModule full]?).map Step.cmd
        ≠ some (NvCall.switchCmd build macModule full) := by
      decide +kernel
    refine Or.inl fun s here same => next ?_
    rw [here, Option.map_some, same]
  unmarked := fun _ unmarked => by
    have marked : (nvSectorRead build full macModule moduleSectorNum).isSome
        = true := by
      decide +kernel
    rw [unmarked] at marked
    cases marked

end CutRollover

/-- A rewrite of the first of two items moves to the other sector and is cut in front of the flags:
the second item reads as before.
-/
theorem nvFlashWriteNew_atomic_rollover
    : CutRollover.again.Rolls SampleCall.build macModule CutRollover.full
      ∧ nvFlashReadNew SampleCall.build CutRollover.full macModule 2 4
        = some [5, 6, 7, 8]
      ∧ nvFlashReadNew SampleCall.build
          (CutRollover.again.after SampleCall.build macModule CutRollover.full) macModule 2 4
        = some [5, 6, 7, 8] := by
  have before : nvFlashReadNew SampleCall.build CutRollover.full macModule 2 4
      = some [5, 6, 7, 8] := by
    decide +kernel
  refine ⟨CutRollover.rolls, before, ?_⟩
  rw [(nvFlashWriteNew_atomic SampleCall.build macModule CutRollover.reached CutRollover.again
    CutRollover.atomic).1 2 (by decide) (by decide) 4 (by decide)]
  exact before

set_option maxRecDepth 10000 in
/-- A rollover that is cut between its two flags loses every item: item 1 is written, the
entry of a large second item fills the sector, and the rewrite of item 1 moves to the other
sector. The cut falls after its sixth command, in front of the valid flag.
-/
theorem rollover_cut_loses_items
    : let b : Build := ⟨true, false⟩
      let first : NvCall := { itemId := 1, buf := [] }
      let second : NvCall :=
        {
          itemId := 2
          buf := List.replicate 3566 0
          cut := some 1
          short := by rw [List.length_replicate]; decide
        }
      let third : NvCall := { itemId := 1, buf := [], cut := some 6 }
      let m := second.after b 0 (first.after b 0 Mem.blank)
      NvReached b 0 (fun _ c => c.single = true ∧ ∀ n, c.skipped n = false) m
        ∧ nvFlashReadNew b m (0 : Fin nvMaxModuls) 1 0 = some []
        ∧ nvFlashReadNew b (third.after b 0 m) (0 : Fin nvMaxModuls) 1 0 = none := by
  refine ⟨?_, by decide +kernel, by decide +kernel⟩
  exact .call (.call (.erased (fun _ _ _ => rfl)) ⟨rfl, fun _ => rfl⟩) ⟨rfl, fun _ => rfl⟩

end TelinkSdk
