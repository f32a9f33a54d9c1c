import TelinkSdk.Drivers.NvCompaction

/-! What a call of `nv_flashWriteNew` that moves to the other sector makes of the live items: when it
refuses for want of space, and what the new sector holds when it succeeds.
-/

namespace TelinkSdk

open Nor

-----------------------------------------------------------------------------------------
-- The two ways of a call
-----------------------------------------------------------------------------------------

section Call

variable {env : Env} {b : Build} {id : Fin nvMaxModuls} {k : Fin 2} {single : Bool}
  {itemId : UInt8} {buf : List UInt8} {d : Dev}

/-- Writing a RAM item fails only at its checksum. -/
theorem nvWriteItem.ram_status (itemId : UInt8) (id opSect opItemIdx : Nat) (buf : List UInt8)
    (d : Dev)
    : (Prog.run env (nvWriteItem b id itemId opSect opItemIdx (.ram buf)) d).1 = .succ
      ∨ (Prog.run env (nvWriteItem b id itemId opSect opItemIdx (.ram buf)) d).1
        = .checkSumError := by
  rw [nvWriteItem.run_eq, Prog.run_bind, nvWriteItem.run_content_ram]
  simp only [Prog.run_bind, Prog.run_pure]
  split
  · exact Or.inl rfl
  · exact Or.inr rfl

/-- The status of a call that has found a place is the one of its item write. -/
theorem nvFlashWriteNew.commit_status (single : Bool) (id : Nat) (itemId : UInt8)
    (buf : List UInt8) (oldSect opSect wItemIdx : Nat) (sectorUpdate : Bool) (d : Dev)
    : (Prog.run env (nvFlashWriteNew.commit b single id itemId buf oldSect opSect wItemIdx
          sectorUpdate) d).1
      = (Prog.run env (nvWriteItem b id itemId opSect wItemIdx (.ram buf)) d).1 := by
  rw [nvFlashWriteNew.commit]
  simp only [Prog.run_bind, Prog.run_view, Prog.run_pure]

theorem nvFlashWriteNew.commit_space (single : Bool) (id : Nat) (itemId : UInt8)
    (buf : List UInt8) (oldSect opSect wItemIdx : Nat) (sectorUpdate : Bool) (d : Dev)
    : (Prog.run env (nvFlashWriteNew.commit b single id itemId buf oldSect opSect wItemIdx
          sectorUpdate) d).1 ≠ .notEnoughSapce := by
  rw [nvFlashWriteNew.commit_status]
  rcases @nvWriteItem.ram_status env b itemId id opSect wItemIdx buf d with status | status <;>
    rw [status] <;> exact NvSts.noConfusion

/-- The sector that a rollover prepares. -/
def spareSect (opSect : Nat) : Fin 2 := ⟨(opSect + 1) % moduleSectorNum, Nat.mod_lt _ (by decide)⟩

/-- A call that the length check admits. -/
theorem nvFlashWriteNew.run_admitted (admitted : Admitted id buf.length)
    : Prog.run env (nvFlashWriteNew b single id itemId buf) d
      = Prog.run env
        (if (nvFlashWriteNew.place b d.mem id buf.length).sectorUpdate then do
          match ← nvFlashWriteNew.update b single id itemId buf.length (nvOpSect b d.mem id)
              (spareSect (nvOpSect b d.mem id)) with
          | .error ret => do
              flashLock
              pure ret
          | .ok wItemIdx =>
              nvFlashWriteNew.commit b single id itemId buf (nvOpSect b d.mem id)
                (spareSect (nvOpSect b d.mem id)) wItemIdx true
        else
          nvFlashWriteNew.commit b single id itemId buf (nvOpSect b d.mem id)
            (nvOpSect b d.mem id) (nvFlashWriteNew.place b d.mem id buf.length).wItemIdx false)
        (lockTo env false d) := by
  have sect : (nvFlashWriteNew.place b d.mem id buf.length).opSect = nvOpSect b d.mem id := by
    unfold nvFlashWriteNew.place
    dsimp only
    split
    · rfl
    · split <;> rfl
  rw [(nvFlashWriteNew_continues env b single itemId admitted d).run, nvFlashWriteNew.placed, sect]
  rfl

/-- With every size in 16 bits, the driver's rounding is the exact one. -/
theorem sum_roundUp4 {es : List InfoIdx} (sizes : ∀ e ∈ es, e.size < u16Mod)
    : (es.map (fun e => roundUp4 e.size)).sum = (es.map (fun e => alignUp e.size)).sum := by
  congr 1
  apply List.map_congr_left
  intro e member
  have narrow := sizes e member
  exact roundUp4_eq_alignUp (by simp only [u16Mod, u32Mod] at *; omega)

/-- A steady single write refuses for want of space only if the length check fails, or the valid
items of the other ids fill the table, or their rounded sizes leave too little room. Entries in
any other state do not count, and nothing is asked of how the sector was filled.
-/
theorem nvFlashWriteNew_notEnough (env : Env) (steady : env.Steady)
    (granted : ∀ n, env.noBuffer n = false) (b : Build) (id : Fin nvMaxModuls) (itemId : UInt8)
    (buf : List UInt8) (d : Dev)
    (refused : (Prog.run env (nvFlashWriteNew b true id itemId buf) d).1 = .notEnoughSapce)
    : let others :=
        (readIndexes d.mem (moduleIdxStart b id (nvOpSect b d.mem id)) (moduleIdxNum id)).filter
          fun e => e.usedState == itemFieldValid && e.itemId != itemId
      nvSectorSize id < itemTotalLen buf.length + moduleInfoSize id
      ∨ others.length = moduleIdxNum id
      ∨ nvSectorSize id - moduleInfoSize id
        < (others.map (fun e => roundUp4 e.size)).sum + (buf.length + sizeofItemHdr) := by
  intro others
  by_cases admitted : Admitted id buf.length
  case neg => exact Or.inl (Nat.not_le.mp admitted)
  have same : moving b true id itemId (nvOpSect b d.mem id) d.mem = others := by
    apply List.filter_congr
    intro e _
    simp [nvFlashWriteNew.keeps]
  rw [nvFlashWriteNew.run_admitted admitted] at refused
  split at refused
  case isFalse => exact absurd refused (nvFlashWriteNew.commit_space _ _ _ _ _ _ _ _ _)
  obtain ⟨erased, d', _, outcome⟩ := @update_run env b id (spareSect (nvOpSect b d.mem id)) steady
    granted true itemId buf.length (nvOpSect b d.mem id) admitted.short rfl
    (lockTo env false d)
  rw [lockTo_mem, same] at outcome
  rcases outcome with ⟨crowded, _⟩ | ⟨_, run, _⟩
  case inr =>
    rw [Prog.run_bind, run] at refused
    exact absurd refused (nvFlashWriteNew.commit_space _ _ _ _ _ _ _ _ _)
  rcases crowded with full | beyond
  · exact Or.inr (Or.inl full)
  · have narrow : ∀ e ∈ others, e.size < u16Mod :=
      fun e member => readIndexes_narrow e (List.mem_filter.mp member).1
    have context : (moduleSector b id (spareSect (nvOpSect b d.mem id))).limit
        = (moduleSector b id (spareSect (nvOpSect b d.mem id))).ctx
          + (nvSectorSize id - moduleInfoSize id) := by
      have fit := (moduleSector b id (spareSect (nvOpSect b d.mem id))).info_fit
      simp only [Sector.limit, Sector.ctx, moduleSector] at *
      omega
    rw [nextFree_eq_sum _ (Sector.ctx_aligned _), context] at beyond
    rw [sum_roundUp4 narrow]
    simp only [sizeofItemHdr]
    exact Or.inr (Or.inr (by omega))

end Call

-----------------------------------------------------------------------------------------
-- The new sector
-----------------------------------------------------------------------------------------

section Table

variable {env : Env} {b : Build} {id : Fin nvMaxModuls} {k : Fin 2} {es : List InfoIdx}
  {m : Mem} {d : Dev} {buf : List UInt8}

/-- The valid entries of sector `opSect`, in table order. -/
def validEntries (b : Build) (id opSect : Nat) (m : Mem) : List InfoIdx :=
  (readIndexes m (moduleIdxStart b id opSect) (moduleIdxNum id)).filter
    fun e => e.usedState == itemFieldValid

/-- A steady write of a RAM item behind the entries. -/
theorem Laid.write_ram (steady : env.Steady) (laid : Laid (moduleSector b id k) es d.mem)
    (room : es.length < (moduleSector b id k).slots)
    (fits : nextFree (moduleSector b id k).ctx es + (buf.length + 8)
      ≤ (moduleSector b id k).limit) (itemId : UInt8)
    : ∃ d', Prog.run env (nvWriteItem b id itemId k es.length (.ram buf)) d = (.succ, d')
      ∧ Laid (moduleSector b id k)
          (es ++ [(moduleSector b id k).placeEntry es itemId (buf.length + 8) itemFieldValid])
          d'.mem
      ∧ (∀ x, (x < (moduleSector b id k).idxAddr es.length
            ∨ (moduleSector b id k).idxAddr es.length + 8 ≤ x)
          → (x < nextFree (moduleSector b id k).ctx es
            ∨ nextFree (moduleSector b id k).ctx es + (buf.length + 8) ≤ x)
          → d'.mem x = d.mem x)
      ∧ itemAt d'.mem itemId buf.length
          ((moduleSector b id k).placeEntry es itemId (buf.length + 8) itemFieldValid)
        = some buf := by
  have area := le_nextFree (moduleSector b id k).ctx es
  obtain ⟨first, last, context⟩ := (moduleSector b id k).idxAddr_bounds room
  have small := (moduleSector b id k).size_small
  have limitEq : (moduleSector b id k).limit
    = (moduleSector b id k).base + (moduleSector b id k).size := rfl
  have ctxEq : (moduleSector b id k).ctx
    = (moduleSector b id k).base + (moduleSector b id k).info := rfl
  have sized : itemTotalLen (ItemSource.ram buf).len % u16Mod = buf.length + 8 := by
    simp only [ItemSource.len, itemTotalLen, sizeofItemHdr, u16Mod]
    omega
  let entry := (moduleSector b id k).placeEntry es itemId (buf.length + 8) itemFieldOperation
  let indexed := nvWriteItem.indexed env b id itemId k es.length buf.length d
  have blank : indexed.mem.BlankOn entry.offset (entry.offset + entry.size) := by
    intro x low high
    simp only [entry, Sector.placeEntry] at low high
    rw [nvWriteItem.indexed_untouched (Or.inr (by rw [← moduleSector_idxAddr]; omega))]
    exact laid.blank x low (by omega)
  have good : (Prog.run env (nvWriteItem.content entry (.ram buf)) indexed).1 = .succ := by
    apply nvWriteItem.content_succ
    · intro x low high
      simp only [entry, Sector.placeEntry] at low high
      exact blank x (by simp only [entry, Sector.placeEntry]; omega)
        (by simp only [entry, Sector.placeEntry]; omega)
    · exact Or.inl (steady.accepts _)
  have placed : (ItemSource.ram buf).Placed (moduleSector b id k) indexed.mem entry
      (Prog.run env (nvWriteItem.content entry (.ram buf)) indexed).2.mem :=
    nvWriteItem.content_steady steady indexed rfl
      (by simp only [entry, Sector.placeEntry, u16Mod]; omega)
      (by simp only [entry, Sector.placeEntry]; omega)
      (by simp only [entry, Sector.placeEntry]; omega) blank (fun _ _ => rfl) good
  have kept (x : Nat) (apart : x < nextFree (moduleSector b id k).ctx es
      ∨ nextFree (moduleSector b id k).ctx es + (buf.length + 8) ≤ x)
      : (Prog.run env (nvWriteItem.content entry (.ram buf)) indexed).2.mem x
        = indexed.mem x := by
    rw [nvWriteItem.run_content_ram] at good ⊢
    split at good
    case isFalse => contradiction
    case isTrue agreed =>
      rw [if_pos agreed, steady.issue_mem, steady.issue_mem]
      simp only [Cmd.apply, entry, Sector.placeEntry]
      rw [Mem.program_outside (by simp only [ItemHdr.bytes_length]; omega),
        Mem.program_outside (by omega)]
  obtain ⟨d', written, laid', around, items⟩ := laid.write steady room sized fits
    (Prod.ext good rfl) kept
  refine ⟨d', written, laid', around, ?_⟩
  rw [← placed]
  apply itemAt_congr
  intro i inside
  exact items _ (Nat.le_add_right _ _)

/-- The valid entries of a table that holds valid entries only. -/
theorem Laid.validEntries (laid : Laid (moduleSector b id k) es m)
    (valid : ∀ e ∈ es, e.usedState = itemFieldValid)
    : validEntries b id k m = compacted (moduleContextStart b id k) es := by
  obtain ⟨rest, slots⟩ := Nat.exists_eq_add_of_le laid.count
  rw [moduleSector_slots] at slots
  have start : moduleIdxStart b id k = (moduleSector b id k).idxAddr 0 := by
    rw [moduleSector_idxAddr, Nat.zero_mul, Nat.add_zero]
  have front : (compacted (moduleSector b id k).ctx es).filter
        (fun e => e.usedState == itemFieldValid)
      = compacted (moduleSector b id k).ctx es := by
    rw [List.filter_eq_self]
    intro e member
    obtain ⟨origin, inside, same⟩ := compacted_origin member
    rw [same]
    exact beq_iff_eq.mpr (valid origin inside)
  have back : (readIndexes m ((moduleSector b id k).idxAddr 0 + es.length * sizeofInfoIdx)
        rest).filter (fun e => e.usedState == itemFieldValid) = [] := by
    rw [List.filter_eq_nil_iff]
    intro e member
    obtain ⟨i, inside, rfl⟩ := List.mem_map.mp member
    have below := List.mem_range.mp inside
    have blank := laid.idle (es.length + i) (Nat.le_add_right _ _)
      (by rw [moduleSector_slots]; omega)
    have address : (moduleSector b id k).idxAddr 0 + es.length * sizeofInfoIdx
        + i * sizeofInfoIdx = (moduleSector b id k).idxAddr (es.length + i) := by
      simp only [Sector.idxAddr, sizeofInfoIdx]
      omega
    rw [address, InfoIdx.load_blank blank]
    decide
  rw [TelinkSdk.validEntries, slots, start, readIndexes_add, laid.table, List.filter_append,
    front, back, List.append_nil]
  rfl

/-- The search for a previous value of an item that no entry has. -/
theorem Laid.search_none {itemId : UInt8} (laid : Laid (moduleSector b id k) es m)
    (real : itemId ≠ itemFieldIdle) (foreign : ∀ e ∈ es, e.itemId ≠ itemId) (len : Nat)
    : nvIndexRead b m id itemId len k (moduleIdxNum id) = none := by
  rw [nvIndexRead_eq]
  apply lastBelow_none
  intro i inside
  rw [← moduleSector_idxAddr]
  by_cases used : i < es.length
  · have member : InfoIdx.load m ((moduleSector b id k).idxAddr i)
        ∈ compacted (moduleSector b id k).ctx es := by
      rw [← laid.table, moduleSector_idxAddr]
      refine List.mem_map.mpr ⟨i, List.mem_range.mpr used, ?_⟩
      simp [moduleSector_idxAddr]
    obtain ⟨origin, old, same⟩ := compacted_origin member
    rw [same]
    simp [nvIndexRead.hit, real, foreign origin old]
  · rw [InfoIdx.load_blank (laid.idle i (Nat.le_of_not_lt used) inside), hit_idle_false]

end Table

-----------------------------------------------------------------------------------------
-- A rollover that succeeds
-----------------------------------------------------------------------------------------

section Rollover

variable {env : Env} {b : Build} {id : Fin nvMaxModuls} {k new : Fin 2} {m : Mem} {d : Dev}
  {itemId : UInt8} {buf : List UInt8} {es : List InfoIdx}

/-- The array after the two heads of a rollover were written. -/
def headsSwitched (b : Build) (id : Fin nvMaxModuls) (old new : Fin 2) (m : Mem) : Mem :=
  (m.program (moduleSector b id old).base (headBytes id nvSectorInvalid new)).program
    (moduleSector b id new).base (headBytes id nvSectorValid new)

theorem headsSwitched_outside {x : Nat}
    (old : x < (moduleSector b id k).base ∨ (moduleSector b id k).base + 4 ≤ x)
    (fresh : x < (moduleSector b id new).base ∨ (moduleSector b id new).base + 4 ≤ x)
    : headsSwitched b id k new m x = m x := by
  rw [headsSwitched, Mem.program_outside (by rw [headBytes_length]; exact fresh),
    Mem.program_outside (by rw [headBytes_length]; exact old)]

/-- Reading the sector heads then selects the new sector. -/
theorem headsSwitched_read (different : new ≠ k)
    (blank : m.BlankOn (moduleSector b id new).base ((moduleSector b id new).base + 4))
    : (nvSectorRead b (headsSwitched b id k new m) id moduleSectorNum).map
        (fun sectInfo => sectInfo.opSect.toNat) = some new.val := by
  have apart := @moduleSector_apart b id new k different
  have boundsNew := (moduleSector b id new).idxAddr_bounds (moduleSector b id new).slots_pos
  have boundsOld := (moduleSector b id k).idxAddr_bounds (moduleSector b id k).slots_pos
  obtain ⟨marked, own⟩ := @marked_of_valid b id
    (m.program (moduleSector b id k).base (headBytes id nvSectorInvalid new)) new (by
      intro x low high
      rw [Mem.program_outside (by rw [headBytes_length]; omega)]
      exact blank x low high)
  have unmarked : ¬Marked b id (headsSwitched b id k new m) k := by
    have same : sectHead b id (headsSwitched b id k new m) k
        = sectHead b id
          (m.program (moduleSector b id k).base (headBytes id nvSectorInvalid new)) k :=
      sectHead_congr
        (fun x low high => Mem.program_outside (by rw [headBytes_length]; omega))
    rw [marked_congr same]
    exact not_marked_of_invalid new
  rw [← headsSwitched] at marked own
  rw [nvSectorRead_eq]
  by_cases first : new = 0
  · subst first
    rw [if_pos marked, Option.map_some, own]
  · have zero : k = 0 := by omega
    have one : new = 1 := by omega
    subst zero one
    rw [if_neg unmarked, if_pos marked, Option.map_some, own]

/-- What a steady commit of a rollover leaves, if it has no previous value to mark. -/
theorem nvFlashWriteNew.commit_run (single : Bool)
    (none : previousSlot b single id itemId buf.length new d.mem = none)
    {d' : Dev} (steady : env.Steady)
    (written : Prog.run env (nvWriteItem b id itemId new es.length (.ram buf)) d = (.succ, d'))
    : (Prog.run env (nvFlashWriteNew.commit b single id itemId buf k new es.length true) d).2.mem
      = headsSwitched b id k new d'.mem := by
  change (Prog.run env (nvWriteItem b id itemId new es.length (.ram buf) >>= fun ret =>
      nvFlashWriteNew.markDeleted b id new
          (previousSlot b single id itemId buf.length new d.mem) >>= fun _ =>
        nvFlashWriteNew.markSectors b id k new es.length true ret >>= fun _ =>
          flashLock >>= fun _ => pure ret) d).2.mem = _
  simp only [none, Prog.run_bind, written, nvFlashWriteNew.markDeleted,
    nvFlashWriteNew.markSectors, nvFlashWriteNew.markSector, if_true, Prog.run_pure,
    run_flashWrite, run_flashLock, lockTo_mem, steady.issue_mem]
  rfl

theorem spareSect_ne (k : Fin 2) : spareSect k ≠ k := by
  revert k
  decide

/-- The items that move are the valid entries without the item that is replaced. -/
theorem moving_eq (b : Build) (single : Bool) (id : Nat) (itemId : UInt8) (old : Nat) (m : Mem)
    : moving b single id itemId old m
      = (validEntries b id old m).filter fun e => !(single && e.itemId == itemId) := by
  rw [moving, validEntries, List.filter_filter]
  apply List.filter_congr
  intro e _
  rw [nvFlashWriteNew.keeps, Bool.and_comm]
  cases single <;> cases same : e.itemId == itemId <;> simp [bne, same]

theorem Compacted.noPrevious {live : List InfoIdx} {single : Bool} {old : Nat} {m₀ : Mem}
    (done : Compacted (moduleSector b id new) live m d.mem)
    (moves : live = moving b single id itemId old m₀)
    (named : single = true → itemId ≠ itemFieldIdle) (len : Nat)
    : previousSlot b single id itemId len new d.mem = none := by
  rw [previousSlot]
  split
  case isFalse => rfl
  case isTrue alone =>
    apply done.laid.search_none (named alone)
    intro e member same
    rw [moves, moving_eq, alone] at member
    simpa [same] using (List.mem_filter.mp member).2

/-- What a steady commit makes of the sector that has been prepared. -/
structure Committed (b : Build) (id : Fin nvMaxModuls) (k new : Fin 2) (live : List InfoIdx)
    (itemId : UInt8) (buf : List UInt8) (m m' : Mem) : Prop where
  laid : Laid (moduleSector b id new)
    (live ++ [(moduleSector b id new).placeEntry live itemId (buf.length + 8) itemFieldValid]) m'
  copies : List.Forall₂ (Copied (moduleSector b id new) m m') live
    (compacted (moduleSector b id new).ctx live)
  item : itemAt m' itemId buf.length
    ((moduleSector b id new).placeEntry live itemId (buf.length + 8) itemFieldValid) = some buf
  selected : (nvSectorRead b m' id moduleSectorNum).map (fun sectInfo => sectInfo.opSect.toNat)
    = some new.val

theorem Compacted.commit {live : List InfoIdx} {erased : Dev} {single : Bool}
    (steady : env.Steady) (different : new ≠ k)
    (done : Compacted (moduleSector b id new) live erased.mem d.mem)
    (blank : erased.mem.BlankOn (moduleSector b id new).base (moduleSector b id new).limit)
    (none : previousSlot b single id itemId buf.length new d.mem = none)
    (roomy : ¬Crowded (moduleSector b id new) live buf.length)
    : Committed b id k new live itemId buf erased.mem
        (Prog.run env (nvFlashWriteNew.commit b single id itemId buf k new live.length true)
          d).2.mem := by
  have apart := @moduleSector_apart b id new k different
  have boundsNew := (moduleSector b id new).idxAddr_bounds (moduleSector b id new).slots_pos
  have boundsOld := (moduleSector b id k).idxAddr_bounds (moduleSector b id k).slots_pos
  have area := le_nextFree (moduleSector b id new).ctx live
  have count := done.laid.count
  rw [Crowded, not_or, Nat.not_lt] at roomy
  have room : live.length < (moduleSector b id new).slots := Nat.lt_of_le_of_ne count roomy.1
  obtain ⟨first, last, context⟩ := (moduleSector b id new).idxAddr_bounds room
  obtain ⟨d', written, laid, around, item⟩ :=
    done.laid.write_ram steady room roomy.2 itemId
  rw [nvFlashWriteNew.commit_run single none steady written]
  -- past its head, the new sector keeps what the item write left
  have kept (x : Nat) (low : (moduleSector b id new).base + 4 ≤ x)
      (high : x < (moduleSector b id new).limit)
      : headsSwitched b id k new d'.mem x = d'.mem x :=
    headsSwitched_outside (by omega) (by omega)
  have fits := laid.fits
  rw [nextFree_append] at fits
  have ends := le_alignUp (nextFree (moduleSector b id new).ctx live + (buf.length + 8))
  refine {
    laid := laid.congr kept
    copies := ?_
    item := ?_
    selected := ?_
  }
  · apply forall₂_imp_mem done.copies
    intro e _ e' member copied
    obtain ⟨low, high⟩ := compacted_inside member
    have size := copied.size
    refine { copied with bytes := ?_ }
    intro i inside outside
    rw [kept _ (by omega) (by omega), around _ (by omega) (by omega)]
    exact copied.bytes i inside outside
  · rw [← item]
    apply itemAt_congr
    intro i inside
    exact kept _ (by simp only [Sector.placeEntry]; omega)
      (by simp only [Sector.placeEntry] at *; omega)
  · apply headsSwitched_read different
    intro x low high
    rw [around x (by omega) (by omega), done.outside x (by omega)]
    exact blank x low (by omega)

/-- A steady call that moves to the other sector and succeeds leaves there exactly the valid
entries of the old sector, without the item that is replaced, in their order and with their
bytes, and behind them the new item; the other sector is then the one in operation. Item id 0xFF
is no id that a single write may replace: the search for its previous value finds any slot in use.
-/
theorem nvFlashWriteNew_live (env : Env) (steady : env.Steady)
    (granted : ∀ n, env.noBuffer n = false) (b : Build) (id : Fin nvMaxModuls) (k : Fin 2)
    (single : Bool) (itemId : UInt8) (buf : List UInt8) (d : Dev)
    (named : single = true → itemId ≠ itemFieldIdle)
    (operation : nvOpSect b d.mem id = k)
    (ranges : ∀ e ∈ validEntries b id k d.mem,
      moduleSectStart b id k ≤ e.offset ∧ e.offset + e.size ≤ moduleSectEnd b id k)
    (rolls : (nvFlashWriteNew.place b d.mem id buf.length).sectorUpdate = true)
    (good : (Prog.run env (nvFlashWriteNew b single id itemId buf) d).1 = .succ)
    : let m' := (Prog.run env (nvFlashWriteNew b single id itemId buf) d).2.mem
      let new := spareSect k
      let start := moduleContextStart b id new
      let live := (validEntries b id k d.mem).filter fun e => !(single && e.itemId == itemId)
      let entry : InfoIdx :=
        {
          offset := nextFree start live
          size := buf.length + sizeofItemHdr
          itemId
          usedState := itemFieldValid
        }
      validEntries b id new m' = compacted start live ++ [entry]
      ∧ List.Forall₂ (fun e e' => e'.itemId = e.itemId ∧ e'.size = e.size
          ∧ ∀ i < e.size, m' (e'.offset + i) = d.mem (e.offset + i)) live (compacted start live)
      ∧ itemAt m' itemId buf.length entry = some buf
      ∧ (nvSectorRead b m' id moduleSectorNum).map (fun sectInfo => sectInfo.opSect.toNat)
        = some new.val := by
  intro m' new start live entry
  have admitted : Admitted id buf.length := by
    by_contra refused
    rw [(nvFlashWriteNew_refused single refused).2] at good
    contradiction
  have run := @nvFlashWriteNew.run_admitted env b id single itemId buf d admitted
  rw [if_pos rolls, operation, Prog.run_bind] at run
  obtain ⟨erased, d', blanked, outcome⟩ := @update_run env b id new steady granted single itemId
    buf.length k admitted.short rfl (lockTo env false d)
  rw [lockTo_mem, moving_eq] at outcome
  change (Crowded _ live _ ∧ _) ∨ _ at outcome
  rcases outcome with ⟨_, failed⟩ | ⟨roomy, updated, done⟩
  · rw [failed] at run
    rw [run, Prog.run_bind] at good
    simp only [Prog.run_pure] at good
    contradiction
  · rw [updated] at run
    have none := done.noPrevious (moving_eq b single id itemId k d.mem).symm named buf.length
    have final := done.commit (k := k) steady (spareSect_ne k) blanked.blank none roomy
    have memory : m' = (Prog.run env
        (nvFlashWriteNew.commit b single id itemId buf k new live.length true) d').2.mem :=
      congrArg (fun result => result.2.mem) run
    rw [← memory] at final
    have apart := @moduleSector_apart b id new k (spareSect_ne k)
    have valid : ∀ e ∈ live, e.usedState = itemFieldValid := by
      intro e member
      have old := (List.mem_filter.mp (List.mem_filter.mp member).1).2
      exact beq_iff_eq.mp old
    refine ⟨?_, ?_, final.item, final.selected⟩
    · rw [final.laid.validEntries, compacted_append]
      · rfl
      · intro e member
        rcases List.mem_append.mp member with old | last
        · exact valid e old
        · rw [List.mem_singleton.mp last]
          rfl
    · apply forall₂_imp_mem final.copies
      intro e member e' _ copied
      obtain ⟨low, high⟩ := ranges e (List.mem_filter.mp member).1
      rw [← moduleSector_base] at low
      rw [← moduleSector_limit] at high
      refine ⟨copied.itemId, copied.size, ?_⟩
      intro i inside
      have outside : e.offset + i < (moduleSector b id new).base
          ∨ (moduleSector b id new).limit ≤ e.offset + i := by omega
      rw [copied.bytes i inside outside, blanked.outside _ outside, lockTo_mem]

end Rollover

/-- Sector 0 of a module with one valid item in front of a stale one that ends with the sector. -/
def fullSector : Dev :=
  let table : List InfoIdx :=
    [
      {
        offset := moduleContextStart ⟨true, false⟩ 0 0
        size := 12
        itemId := 1
        usedState := itemFieldValid
      },
      {
        offset := moduleContextStart ⟨true, false⟩ 0 0 + 12
        size := 3572
        itemId := 2
        usedState := itemFieldInvalid
      }
    ]
  {
    mem := Mem.blank.program (moduleIdxStart ⟨true, false⟩ 0 0) (table.flatMap InfoIdx.bytes)
    locked := true
  }

/-- Another item is written to the full sector. -/
theorem nvFlashWriteNew_live_full
    : validEntries ⟨true, false⟩ 0 1
        (Prog.run {} (nvFlashWriteNew ⟨true, false⟩ true 0 3 [7]) fullSector).2.mem
      = [{ offset := 0x81200, size := 12, itemId := 1, usedState := itemFieldValid },
        { offset := 0x8120C, size := 9, itemId := 3, usedState := itemFieldValid }] := by
  have live := (nvFlashWriteNew_live {} ⟨fun _ => rfl, rfl⟩ (fun _ => rfl) ⟨true, false⟩ 0 0 true 3
    [7] fullSector (by decide) (by decide +kernel) (by decide +kernel) (by decide +kernel)
    (by decide +kernel)).1
  exact live.trans (by decide +kernel)

/-- Written as a single item, id 0xFF takes the item that was copied last for its previous
value and marks it invalid.
-/
theorem idle_id_drops_last_copy
    : let p := nvFlashWriteNew ⟨true, false⟩ true 0 itemFieldIdle [7]
      (nvFlashWriteNew.place ⟨true, false⟩ fullSector.mem 0 1).sectorUpdate = true
        ∧ (Prog.run {} p fullSector).1 = .succ
        ∧ validEntries ⟨true, false⟩ 0 0 fullSector.mem
          = [{ offset := 0x80200, size := 12, itemId := 1, usedState := itemFieldValid }]
        ∧ validEntries ⟨true, false⟩ 0 1 (Prog.run {} p fullSector).2.mem
          = [{ offset := 0x8120C, size := 9, itemId := 0xFF, usedState := itemFieldValid }] := by
  decide +kernel

/-- A sector whose context area is one valid item. -/
def crowdedSector : Dev :=
  let entry : InfoIdx :=
    {
      offset := moduleContextStart ⟨true, false⟩ 0 0
      size := 3584
      itemId := 1
      usedState := itemFieldValid
    }
  {
    mem := Mem.blank.program (moduleIdxStart ⟨true, false⟩ 0 0) entry.bytes
    locked := true
  }

/-- The crowded sector has no room for another item. -/
theorem nvFlashWriteNew_notEnough_crowded
    : nvSectorSize 0 - moduleInfoSize 0
      < (((readIndexes crowdedSector.mem (moduleIdxStart ⟨true, false⟩ 0 0)
          (moduleIdxNum 0)).filter fun e => e.usedState == itemFieldValid && e.itemId != 2).map
            (fun e => roundUp4 e.size)).sum + (1 + sizeofItemHdr) := by
  rcases nvFlashWriteNew_notEnough {} ⟨fun _ => rfl, rfl⟩ (fun _ => rfl) ⟨true, false⟩ 0 2 [7]
    crowdedSector (by decide +kernel) with long | full | wide
  · exact absurd long (by decide)
  · exact absurd full (by decide +kernel)
  · exact wide

end TelinkSdk
