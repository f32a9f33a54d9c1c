import TelinkSdk.Drivers.FrameCountRun
import TelinkSdk.Drivers.NvReset

/-! The bytes that the NV driver addresses: every command of an operation on a module stays
inside the area that the macros give to the module.
-/

namespace TelinkSdk

open Nor

/-- A step that addresses only bytes of the module. -/
def OwnStep (b : Build) (id : Fin nvMaxModuls) (s : Step) : Prop :=
  s.cmd.Within (modulesStartAddr b id) (moduleEnd b id)

section Items

variable {env : Env} {b : Build} {id : Fin nvMaxModuls} {k j : Fin 2} {es : List InfoIdx}
  {d : Dev}

/-- Writes inside one of the two sectors. -/
theorem flashWrite_own (k : Fin 2) {addr : Nat} {bytes : List UInt8}
    (low : (moduleSector b id k).base ≤ addr)
    (high : addr + bytes.length ≤ (moduleSector b id k).limit)
    : Prog.Emits (OwnStep b id) env (flashWrite addr bytes) d := by
  obtain ⟨first, last⟩ := moduleSector_within b id k
  exact flashWrite_emits (Cmd.within_program (by omega) (by omega))

theorem flashEraseSectors_own (count : Nat) {addr : Nat} (aligned : addr % 4096 = 0)
    (low : modulesStartAddr b id ≤ addr) (high : addr + count * 4096 ≤ moduleEnd b id)
    : Prog.Emits (OwnStep b id) env (flashEraseSectors count addr) d := by
  apply flashEraseSectors_emits
  intro i inside d' _
  apply Cmd.within_erase (by decide) <;> simp only [flashSectorSize] <;> omega

/-- The copy loop writes the bytes of the copy, by induction on the bytes left. -/
theorem nvWriteItem.copy_own (k : Fin 2) (fuel total sAddr dAddr : Nat) (d : Dev)
    (low : (moduleSector b id k).base ≤ dAddr)
    (high : dAddr + total ≤ (moduleSector b id k).limit)
    : Prog.Emits (OwnStep b id) env (nvWriteItem.copy fuel total sAddr dAddr) d := by
  induction fuel generalizing total sAddr dAddr d with
  | zero => exact .silent rfl
  | succ fuel ih =>
      rw [nvWriteItem.copy]
      by_cases more : total > 0
      · have width : (if total > 48 then 48 else total) ≤ total := by split <;> omega
        rw [if_pos more]
        generalize (if total > 48 then 48 else total) = wLen at width
        refine Prog.Emits.skip rfl (Prog.Emits.bind (flashWrite_own k low ?_) ?_)
        · rw [Prog.run_view, Mem.read_length]
          omega
        · exact ih _ _ _ _ (by omega) (by omega)
      · rw [if_neg more]
        exact .silent rfl

theorem nvWriteItem.content_own (k : Fin 2) {e : InfoIdx} {source : ItemSource} (d : Dev)
    (low : (moduleSector b id k).base ≤ e.offset)
    (high : e.offset + (source.len + 8) ≤ (moduleSector b id k).limit)
    (size : e.size ≤ source.len + 8)
    : Prog.Emits (OwnStep b id) env (nvWriteItem.content e source) d := by
  cases source with
  | flash addr len =>
      refine Prog.Emits.skip rfl ?_
      split
      · refine Prog.Emits.bind (nvWriteItem.copy_own k _ _ _ _ _ low ?_) (.silent rfl)
        simp only [ItemSource.len] at *
        omega
      · exact .silent rfl
  | ram buf =>
      simp only [ItemSource.len] at high
      refine Prog.Emits.bind (flashWrite_own k ?_ ?_) (Prog.Emits.skip rfl ?_)
      · omega
      · simp only [sizeofItemHdr]
        omega
      · split
        · refine Prog.Emits.bind (flashWrite_own k low ?_) (.silent rfl)
          rw [ItemHdr.bytes_length]
          omega
        · exact .silent rfl

/-- Writing an item behind a chain that has room for it. -/
theorem nvWriteItem_own (itemId : UInt8) (source : ItemSource)
    (chain : Chain (moduleSector b id k) es d.mem)
    (room : es.length < (moduleSector b id k).slots)
    (fits : nextFree (moduleSector b id k).ctx es + (source.len + 8)
      ≤ (moduleSector b id k).limit)
    : Prog.Emits (OwnStep b id) env (nvWriteItem b id itemId k es.length source) d := by
  obtain ⟨first, last, context⟩ := (moduleSector b id k).idxAddr_bounds room
  have area := le_nextFree (moduleSector b id k).ctx es
  have low : (moduleSector b id k).base ≤ nextFree (moduleSector b id k).ctx es := by omega
  refine (chain.nvWriteItem_continues itemId source
    ((moduleSector b id k).item_short fits)).emits_iff.mpr ?_
  refine Prog.Emits.bind (flashWrite_own k (by omega) (by rw [InfoIdx.bytes_length]; omega))
    (Prog.Emits.bind (nvWriteItem.content_own k _ low fits (Nat.le_refl _)) ?_)
  refine Prog.Emits.bind ?_ (Prog.Emits.skip (trace_flashLock env _) (.silent rfl))
  unfold nvWriteItem.markValid
  split
  · exact flashWrite_own k (by omega) (by simp; omega)
  · exact .silent rfl

/-- The sector flags, whichever of them are set. -/
theorem markSectors_own (k j : Fin 2) (wItemIdx : Nat) (sectorUpdate : Bool) (ret : NvSts)
    (d : Dev)
    : Prog.Emits (OwnStep b id) env
        (nvFlashWriteNew.markSectors b id k j wItemIdx sectorUpdate ret) d := by
  have head (i : Fin 2) (usedFlag opSect : Nat) (d' : Dev)
      : Prog.Emits (OwnStep b id) env
          (nvFlashWriteNew.markSector b id i usedFlag opSect) d' := by
    have bounds := (moduleSector b id i).idxAddr_bounds (moduleSector b id i).slots_pos
    apply flashWrite_own i
    · exact Nat.le_refl _
    · rw [SectInfo.bytes_length]
      change (moduleSector b id i).base + 4 ≤ _
      omega
  unfold nvFlashWriteNew.markSectors
  split
  · split
    · refine Prog.Emits.bind (head k _ _ _) ?_
      exact head j _ _ _
    · split
      · exact head j _ _ _
      · exact .silent rfl
  · exact .silent rfl

/-- The mark of the previous value. -/
theorem markDeleted_own (j : Fin 2) (previous : Option Nat)
    (inside : ∀ i, previous = some i → i < moduleIdxNum id) (d : Dev)
    : Prog.Emits (OwnStep b id) env (nvFlashWriteNew.markDeleted b id j previous) d := by
  cases previous with
  | none => exact .silent rfl
  | some i =>
      obtain ⟨first, last, context⟩ := (moduleSector b id j).idxAddr_bounds (inside i rfl)
      have slot : moduleIdxStart b id j + i * sizeofInfoIdx
          = (moduleSector b id j).idxAddr i := rfl
      rw [nvFlashWriteNew.markDeleted, slot]
      exact flashWrite_own j (by omega) (by simp; omega)

theorem previousSlot_inside {single : Bool} {itemId : UInt8} {len opSect i : Nat} {m : Mem}
    (found : previousSlot b single id itemId len opSect m = some i)
    : i < moduleIdxNum id := by
  have search := (previousSlot_some found).2
  rw [nvIndexRead_eq] at search
  exact (lastBelow_some search).1

/-- Writing an item, the mark of its previous value and the sector flags. -/
theorem commit_own (k : Fin 2) (single : Bool) (itemId : UInt8) (buf : List UInt8)
    (sectorUpdate : Bool) (chain : Chain (moduleSector b id j) es d.mem)
    (room : es.length < (moduleSector b id j).slots)
    (fits : nextFree (moduleSector b id j).ctx es + (buf.length + 8)
      ≤ (moduleSector b id j).limit)
    : Prog.Emits (OwnStep b id) env
        (nvFlashWriteNew.commit b single id itemId buf k j es.length sectorUpdate) d := by
  refine Prog.Emits.skip rfl (Prog.Emits.bind (nvWriteItem_own itemId (.ram buf) chain room fits)
    (Prog.Emits.bind (markDeleted_own j _ (fun i found => ?_) _)
      (Prog.Emits.bind (markSectors_own k j _ _ _ _)
        (Prog.Emits.skip (trace_flashLock env _) (.silent rfl)))))
  exact previousSlot_inside found

-----------------------------------------------------------------------------------------
-- The rollover
-----------------------------------------------------------------------------------------

/-- Copying the slots of one read, by induction on the slots. -/
theorem copyRead_own (steady : env.Steady) (single : Bool) (itemId : UInt8)
    (l live es : List InfoIdx) (d' : Dev) (moved : Moved env (moduleSector b id j) d live es d')
    (copies : Copies (moduleSector b id j) live (l.filter (nvFlashWriteNew.keeps single itemId)))
    : Prog.Emits (OwnStep b id) env
        (nvFlashWriteNew.copyRead b single id itemId j l
          { wItemIdx := es.length, sizeusedAddr := nextFree (moduleSector b id j).ctx es }) d' := by
  induction l generalizing live es d' with
  | nil => exact .silent rfl
  | cons e rest ih =>
      rw [nvFlashWriteNew.copyRead]
      by_cases keep : nvFlashWriteNew.keeps single itemId e = true
      · rw [List.filter_cons_of_pos keep] at copies
        rw [if_pos keep]
        obtain ⟨len, source, lenEq, room, place, progress⟩ := moved.place copies
        rw [source]
        refine Prog.Emits.bind
          (nvWriteItem_own e.itemId (.flash e.offset len) moved.chain room place) ?_
        obtain ⟨-, ⟨state, appended⟩, status, allocs⟩ := (@nvWriteItem_meets env b id j es d'
          e.itemId (.flash e.offset len) moved.chain room place).steady steady
        simp only [ItemStatus] at status
        cases refused : env.noBuffer d'.allocs with
        | true =>
            rw [refused, if_pos rfl] at status
            rw [if_neg (by simp [status])]
            exact .silent rfl
        | false =>
            rw [refused] at status
            simp only [Bool.false_eq_true, if_false] at status
            rw [if_pos status, progress state]
            have next := moved.append rfl lenEq.symm room place (status ▸ appended) allocs refused
            have later := ih (live ++ [e]) _ _ next (@Copies.rest _ live [e] _ copies)
            simpa using later
      · rw [List.filter_cons_of_neg keep] at copies
        rw [if_neg keep]
        exact ih live es d' moved copies

/-- The rounds over the old table, by induction on the slots left. -/
theorem copyLive_own (steady : env.Steady) (single : Bool) (itemId : UInt8)
    (fuel total start : Nat) (live es : List InfoIdx) (d' : Dev) (enough : total ≤ fuel)
    (moved : Moved env (moduleSector b id j) d live es d')
    (apart : start + total * 8 ≤ (moduleSector b id j).base
      ∨ (moduleSector b id j).limit ≤ start)
    (copies : Copies (moduleSector b id j) live
      ((readIndexes d.mem start total).filter (nvFlashWriteNew.keeps single itemId)))
    : Prog.Emits (OwnStep b id) env
        (nvFlashWriteNew.copyLive b single id itemId j fuel total start
          { wItemIdx := es.length, sizeusedAddr := nextFree (moduleSector b id j).ctx es }) d' := by
  induction fuel generalizing total start live es d' with
  | zero => exact .silent rfl
  | succ fuel ih =>
      rw [nvFlashWriteNew.copyLive]
      by_cases more : total > 0
      · have width : (if total > 4 then 4 else total) ≤ total := by split <;> omega
        have positive : 0 < (if total > 4 then 4 else total) := by split <;> omega
        rw [if_pos more]
        generalize (if total > 4 then 4 else total) = taken at width positive
        obtain ⟨rest, rfl⟩ := Nat.exists_eq_add_of_le width
        rw [readIndexes_add, List.filter_append] at copies
        dsimp only
        rw [Nat.add_sub_cancel_left]
        have table : readIndexes d'.mem start taken = readIndexes d.mem start taken :=
          readIndexes_congr (fun x low high => moved.outside x (by omega))
        refine Prog.Emits.skip rfl ?_
        simp only [Prog.run_view, table]
        refine Prog.Emits.bind
          (copyRead_own steady single itemId _ live es d' moved copies.front) ?_
        obtain ⟨-, outcome⟩ :=
          (copyRead_meets single itemId _ live es d' moved copies.front).steady steady
        generalize Prog.run env (nvFlashWriteNew.copyRead b single id itemId j
          (readIndexes d.mem start taken)
          { wItemIdx := es.length, sizeusedAddr := nextFree (moduleSector b id j).ctx es }) d'
          = result at outcome
        obtain ⟨copied, d''⟩ := result
        cases copied with
        | error ret => exact .silent rfl
        | ok copied =>
            obtain ⟨es', moved', rfl⟩ := outcome
            exact ih rest (start + taken * sizeofInfoIdx) _ es' d'' (by omega) moved'
              (by simp only [sizeofInfoIdx]; omega) copies.rest
      · rw [if_neg more]
        exact .silent rfl

/-- Preparing the other sector. -/
theorem update_own (steady : env.Steady) (single : Bool) (itemId : UInt8) (len : Nat)
    (different : j ≠ k) (sizes : ∀ e ∈ liveItems b single id itemId k d.mem, 8 ≤ e.size)
    (fits : nextFree (moduleSector b id j).ctx (liveItems b single id itemId k d.mem)
      ≤ (moduleSector b id j).limit)
    : Prog.Emits (OwnStep b id) env (nvFlashWriteNew.update b single id itemId len k j) d := by
  have aligned := (moduleSector b id j).size_aligned
  have limitEq : (moduleSector b id j).limit
    = (moduleSector b id j).base + (moduleSector b id j).size := rfl
  have sizeEq : nvSectorSize id = (moduleSector b id j).size := rfl
  obtain ⟨low, high⟩ := moduleSector_within b id j
  have erased := ((eraseSector_meets env b id j d).steady steady).2
  have live := erased.live different single itemId
  have few := liveItems_count b single id itemId k j d.mem
  unfold nvFlashWriteNew.update
  refine Prog.Emits.bind (flashEraseSectors_own _ (moduleSector b id j).base_aligned low ?_)
    (Prog.Emits.bind (copyLive_own steady single itemId _ _ _ [] [] _ (Nat.le_refl _) erased.moved
      (table_apart different) ?_) ?_)
  · rw [sizeEq]
    simp only [flashSectorSize]
    change (moduleSector b id j).base + _ ≤ _
    omega
  · rw [← liveItems, live]
    exact ⟨sizes, by simpa using few, fits⟩
  · split
    · exact .silent rfl
    · split
      · exact .silent rfl
      · exact .silent rfl

-----------------------------------------------------------------------------------------
-- Whole operations
-----------------------------------------------------------------------------------------

/-- A call whose item fits addresses its own module only. -/
theorem nvFlashWriteNew_own (steady : env.Steady) (single : Bool) {itemId : UInt8}
    {buf : List UInt8} (store : Store b id k es d.mem) (fits : Fits b id buf.length d.mem)
    : Prog.Emits (OwnStep b id) env (nvFlashWriteNew b single id itemId buf) d := by
  by_cases admitted : Admitted id buf.length
  · by_cases rolls : (nvFlashWriteNew.place b d.mem id buf.length).sectorUpdate = true
    · have different := otherSect_ne k
      obtain ⟨liveFits, liveSizes⟩ := store.chain.live_fits single itemId (otherSect k)
      refine (store.leaves_continues single itemId admitted rolls).emits_iff.mpr ?_
      refine Prog.Emits.bind (update_own steady single itemId buf.length different liveSizes
        liveFits) ?_
      obtain ⟨-, outcome⟩ := (@Store.prepare_meets env b id k es (lockTo env false d) store single
        itemId buf.length admitted.short).steady steady
      generalize Prog.run env
        (nvFlashWriteNew.update b single id itemId buf.length k (otherSect k))
        (lockTo env false d) = result at outcome
      obtain ⟨slot, d'⟩ := result
      cases slot with
      | error ret => exact .skip (trace_flashLock env d') (.silent rfl)
      | ok wItemIdx =>
          obtain ⟨_, entries, _, moved, rfl, room, inside⟩ := outcome
          exact commit_own k single itemId buf true moved.chain room inside
    · have plain : (nvFlashWriteNew.place b d.mem id buf.length).sectorUpdate = false := by
        simpa using rolls
      obtain ⟨_, room, inside⟩ := store.stays admitted fits plain
      refine (store.stays_continues single itemId admitted plain).emits_iff.mpr ?_
      exact commit_own k single itemId buf false store.chain room inside
  · exact .silent (nvFlashWriteNew_refused single admitted).1

theorem nvItemDeleteByIndex_own (k : Fin 2) {opIdx : Nat} (inside : opIdx < moduleIdxNum id)
    : Prog.Emits (OwnStep b id) env (nvItemDeleteByIndex b id k opIdx) d := by
  obtain ⟨first, last, context⟩ := (moduleSector b id k).idxAddr_bounds inside
  have slot : moduleIdxStart b id k + opIdx * sizeofInfoIdx
      = (moduleSector b id k).idxAddr opIdx := rfl
  unfold nvItemDeleteByIndex
  rw [slot]
  refine Prog.Emits.skip (trace_flashUnlock env d) (Prog.Emits.bind
    (flashWrite_own k (by omega) (by simp; omega))
    (Prog.Emits.skip (trace_flashLock env _) (.silent rfl)))

/-- The sectors that a reset erases are those of the module. -/
theorem resetModule_area (b : Build) (id : Fin nvMaxModuls)
    : modulesStartAddr b id % 4096 = 0
      ∧ modulesStartAddr b id + moduleSectorNum * (nvSectorSize id / flashSectorSize) * 4096
        = moduleEnd b id := by
  have aligned := (moduleSector b id 0).base_aligned
  have start : (moduleSector b id 0).base = modulesStartAddr b id := by
    simp [moduleSector, moduleSectStart]
  rw [start] at aligned
  refine ⟨aligned, ?_⟩
  rcases nvSectorSize_cases id with ⟨size, -⟩ | ⟨size, -⟩ <;>
    simp only [moduleEnd, size, moduleSectorNum, flashSectorSize]

theorem nvResetModule_own (b : Build) (id : Fin nvMaxModuls) (d : Dev)
    : Prog.Emits (OwnStep b id) env (nvResetModule b id) d := by
  obtain ⟨aligned, area⟩ := resetModule_area b id
  unfold nvResetModule
  rw [nvResetModule.sectors_eq]
  refine Prog.Emits.skip (trace_flashUnlock env d) (Prog.Emits.bind
    (flashEraseSectors_own _ aligned (Nat.le_refl _) (Nat.le_of_eq area))
    (Prog.Emits.skip (trace_flashLock env _) (.silent rfl)))

end Items

-----------------------------------------------------------------------------------------
-- The frame counter
-----------------------------------------------------------------------------------------

section Frame

variable {env : Env} {b : Build} {k : Fin 2} {vs : List Nat} {d : Dev} {v : Nat}

theorem frameWord_own (k : Fin 2) {i : Nat} (inside : i < 1023) (v : Nat) (d : Dev)
    : Prog.Emits (OwnStep b frameModule) env (flashWrite (frameAddr b k i) (bytes32 v)) d := by
  have limit := @frameSector_limit b k
  apply flashWrite_own k <;> simp only [frameAddr, bytes32_length] <;> omega

theorem frameErase_own (k : Fin 2) (d : Dev)
    : Prog.Emits (OwnStep b frameModule) env (flashErase (moduleSector b frameModule k).base) d := by
  have limit := @frameSector_limit b k
  obtain ⟨low, high⟩ := moduleSector_within b frameModule k
  refine flashErase_emits (Cmd.within_erase (by decide)
    (moduleSector b frameModule k).base_aligned low ?_)
  simp only [flashSectorSize]
  omega

theorem frameFlags_own (k j : Fin 2) (wAddr : Nat) (sectorUpdate : Bool) (d : Dev)
    : Prog.Emits (OwnStep b frameModule) env
        (nvNwkFrameCountSaveToFlash.markSectors b k { opSect := j, wAddr, sectorUpdate }) d := by
  have head (i : Fin 2) (usedFlag opSect : Nat) (d' : Dev)
      : Prog.Emits (OwnStep b frameModule) env
          (nvNwkFrameCountSaveToFlash.markSector b i usedFlag opSect) d' := by
    have limit := @frameSector_limit b i
    apply flashWrite_own i
    · exact Nat.le_refl _
    · rw [SectInfo.bytes_length]
      change (moduleSector b frameModule i).base + 4 ≤ _
      omega
  unfold nvNwkFrameCountSaveToFlash.markSectors
  split
  · refine Prog.Emits.bind (head j _ _ _) ?_
    split
    · exact head k _ _ _
    · exact .silent rfl
  · exact .silent rfl

/-- A save from its place on. -/
theorem Poised.own {A : Option Nat → Prop} {place : FramePlace} (poised : Poised b A k place d.mem)
    : Prog.Emits (OwnStep b frameModule) env
        (flashWrite place.wAddr (bytes32 v) >>= fun _ =>
          nvNwkFrameCountSaveToFlash.markSectors b k place) d := by
  rcases poised with ⟨_, _, _, _, rfl⟩ | ⟨vs, _, _, room, rfl⟩ | ⟨vs, last, _, _, _, rfl⟩
  · exact .bind (frameWord_own k (by omega) v d) (frameFlags_own k k _ _ _)
  · exact .bind (frameWord_own k room v d) (frameFlags_own k k _ _ _)
  · exact .bind (frameWord_own _ (by omega) v d) (frameFlags_own k _ _ _ _)

/-- The search for the place only touches the other sector. -/
theorem Holds.place_own (holds : Holds b k vs d.mem)
    : Prog.Emits (OwnStep b frameModule) env (nvNwkFrameCountSaveToFlash.place b k) d := by
  unfold nvNwkFrameCountSaveToFlash.place
  refine Prog.Emits.skip rfl ?_
  rw [Prog.run_view, holds.counted.search, List.getLast?_eq_some_getLast holds.used]
  dsimp only
  split
  · rw [otherSect_val, framecountPayloadStart_eq]
    exact .bind (frameErase_own (otherSect k) d)
      (.bind (frameWord_own (otherSect k) (by omega) _ _) (.silent rfl))
  · exact .silent rfl

theorem nvNwkFrameCountSaveToFlash_own (steady : env.Steady)
    (restarts : Restarts b (fun _ => True) d.mem)
    : Prog.Emits (OwnStep b frameModule) env (nvNwkFrameCountSaveToFlash b v) d := by
  have finish (found : Option SectInfo) (oldSect : Fin 2) (d' : Dev)
      (own : Prog.Emits (OwnStep b frameModule) env
        (nvNwkFrameCountSaveToFlash.place b oldSect) d')
      (poised : Poised b (fun _ => True) oldSect
        (Prog.run env (nvNwkFrameCountSaveToFlash.place b oldSect) d').1
        (Prog.run env (nvNwkFrameCountSaveToFlash.place b oldSect) d').2.mem)
      : Prog.Emits (OwnStep b frameModule) env
          (nvNwkFrameCountSaveToFlash.place b oldSect >>= fun place =>
            flashWrite place.wAddr (bytes32 v) >>= fun _ =>
              nvNwkFrameCountSaveToFlash.markSectors b oldSect place >>= fun _ =>
                flashLock >>= fun _ =>
                  pure (if found.isSome then NvSts.succ else .itemNotFound)) d' := by
    refine Prog.Emits.bind own ?_
    rw [← Prog.bind_assoc]
    exact .bind poised.own (.skip (trace_flashLock env _) (.silent rfl))
  unfold nvNwkFrameCountSaveToFlash
  refine Prog.Emits.skip (trace_flashUnlock env d) (Prog.Emits.skip rfl ?_)
  rw [run_flashUnlock, Prog.run_view, lockTo_mem]
  rcases restarts with ⟨unmarked, nothing⟩ | ⟨k, vs, holds, found⟩
  · rw [unmarked_sectorRead unmarked]
    obtain ⟨-, zero, absent, fresh⟩ := (@eraseModule_meets env b (lockTo env false d) v
      (fun _ => True) unmarked nothing).steady steady
    refine Prog.Emits.bind ?_ ?_
    · exact .bind (frameErase_own 0 _) (.bind (frameErase_own 1 _) (.silent rfl))
    · rw [zero]
      refine finish none 0 _ ?_ ?_
      · unfold nvNwkFrameCountSaveToFlash.place
        refine Prog.Emits.skip rfl ?_
        rw [Prog.run_view, fresh.counted.search]
        exact .silent rfl
      · exact ((@Poised.first env b _ v (fun _ => True) absent nothing fresh).steady steady).2
  · rw [holds.sectorRead]
    refine Prog.Emits.skip rfl ?_
    simp only [nvNwkFrameCountSaveToFlash.opSect, Prog.run_pure, holds.own]
    exact finish _ k _ (Holds.place_own holds)
      ((@nextPlace_meets env b k vs (lockTo env false d) v (fun _ => True) holds found).steady
        steady).2

end Frame

end TelinkSdk
