import TelinkSdk.Drivers.NvRollover

/-! A whole call of `nv_flashWriteNew`: what it can leave at every cut, and what it has
done when it returns.
-/

namespace TelinkSdk

open Nor

-----------------------------------------------------------------------------------------
-- The two ways of a call
-----------------------------------------------------------------------------------------

/-- The length check at the head of `nv_flashWriteNew` lets the item pass. -/
def Admitted (id len : Nat) : Prop := itemTotalLen len + moduleInfoSize id ≤ nvSectorSize id

instance (id len : Nat) : Decidable (Admitted id len) := inferInstanceAs (Decidable (_ ≤ _))

/-- Where the call stays in its sector, the item ends inside it. The driver tests the end of
the last item before rounding, so this is not what it tests.
-/
def Fits (b : Build) (id len : Nat) (m : Mem) : Prop :=
  Admitted id len → (nvFlashWriteNew.place b m id len).sectorUpdate = false
    → nvWriteItem.offset b id (nvFlashWriteNew.place b m id len).opSect
        (nvFlashWriteNew.place b m id len).wItemIdx m + itemTotalLen len
      ≤ moduleSectEnd b id (nvFlashWriteNew.place b m id len).opSect

instance (b : Build) (id len : Nat) (m : Mem) : Decidable (Fits b id len m) :=
  inferInstanceAs (Decidable (_ → _ → _))

section Cases

variable {b : Build} {id : Fin nvMaxModuls} {k : Fin 2} {es : List InfoIdx} {m : Mem}
  {len : Nat}

theorem Admitted.small (admitted : Admitted id len) : len + 8 ≤ 16384 := by
  rcases nvSectorSize_cases id with ⟨size, info, _⟩ | ⟨size, info, _⟩ <;>
    simp only [Admitted, itemTotalLen, sizeofItemHdr, size, info] at * <;> omega

theorem Admitted.total_short (admitted : Admitted id len) : len + 8 < u16Mod :=
  Nat.lt_of_le_of_lt admitted.small (by decide)

theorem Admitted.short (admitted : Admitted id len) : len < u16Mod :=
  Nat.lt_of_le_of_lt (Nat.le_add_right ..) admitted.total_short

/-- A call that stays in a sector in use found a free slot and, by its own measure, room. -/
theorem Store.place_behind (store : Store b id k es m) (short : len < u16Mod) (used : es ≠ [])
    (plain : (nvFlashWriteNew.place b m id len).sectorUpdate = false)
    : nvFlashWriteNew.place b m id len
        = { opSect := k, wItemIdx := es.length, sectorUpdate := false }
      ∧ es.length ≠ (moduleSector b id k).slots
      ∧ ((moduleSector b id k).entry m (es.length - 1)).offset
          + ((moduleSector b id k).entry m (es.length - 1)).size + (len + 8)
        ≤ (moduleSector b id k).limit := by
  have place := store.place short
  rw [if_neg used] at place
  by_cases full : es.length = (moduleSector b id k).slots
      ∨ ((moduleSector b id k).entry m (es.length - 1)).offset
          + ((moduleSector b id k).entry m (es.length - 1)).size + (len + 8)
        > (moduleSector b id k).limit
  · rw [if_pos full] at place
    rw [place] at plain
    contradiction
  · rw [if_neg full] at place
    rw [not_or, Nat.not_lt] at full
    exact ⟨place, full⟩

/-- A call that stays in its sector takes the next slot. -/
theorem Store.appends (store : Store b id k es m) (short : len < u16Mod)
    (plain : (nvFlashWriteNew.place b m id len).sectorUpdate = false)
    : nvFlashWriteNew.place b m id len
        = { opSect := k, wItemIdx := es.length, sectorUpdate := false }
      ∧ es.length < (moduleSector b id k).slots := by
  have count := store.chain.count
  by_cases empty : es = []
  · have place := store.place short
    subst es
    rw [if_pos rfl] at place
    exact ⟨place, (moduleSector b id k).slots_pos⟩
  · obtain ⟨place, notFull, -⟩ := store.place_behind short empty plain
    exact ⟨place, by omega⟩

/-- Its item goes behind the chain, and inside the sector if it fits there. -/
theorem Store.fits_iff (store : Store b id k es m) (admitted : Admitted id len)
    (plain : (nvFlashWriteNew.place b m id len).sectorUpdate = false)
    : Fits b id len m
      ↔ nextFree (moduleSector b id k).ctx es + (len + 8) ≤ (moduleSector b id k).limit := by
  have place := (store.appends admitted.short plain).1
  rw [Fits, place, moduleSector_limit.symm, store.chain.offset]
  exact ⟨fun fits => fits admitted rfl, fun inside _ _ => inside⟩

theorem Store.stays (store : Store b id k es m) (admitted : Admitted id len)
    (fits : Fits b id len m)
    (plain : (nvFlashWriteNew.place b m id len).sectorUpdate = false)
    : nvFlashWriteNew.place b m id len
        = { opSect := k, wItemIdx := es.length, sectorUpdate := false }
      ∧ es.length < (moduleSector b id k).slots
      ∧ nextFree (moduleSector b id k).ctx es + (len + 8) ≤ (moduleSector b id k).limit :=
  ⟨(store.appends admitted.short plain).1, (store.appends admitted.short plain).2,
    (store.fits_iff admitted plain).mp fits⟩

/-- The first item of a sector always fits, by the length check. -/
theorem Store.fits_empty (store : Store b id k [] m) (len : Nat) : Fits b id len m := by
  intro admitted _
  have place := store.place admitted.short
  rw [if_pos rfl] at place
  rw [place]
  have limit := @moduleSector_limit b id k
  simp only [Admitted] at admitted
  simp only [Sector.limit, moduleSector] at limit
  simp only [nvWriteItem.offset, if_true, moduleContextStart, ← limit]
  omega

/-- A call that leaves its sector finds a used one. -/
theorem Store.leaves (store : Store b id k es m) (short : len < u16Mod)
    (rolls : (nvFlashWriteNew.place b m id len).sectorUpdate = true)
    : (nvFlashWriteNew.place b m id len).opSect = k ∧ es ≠ [] := by
  have place := store.place short
  by_cases empty : es = []
  · rw [if_pos empty] at place
    rw [place] at rolls
    contradiction
  · rw [if_neg empty] at place
    refine ⟨?_, empty⟩
    rw [place]
    split <;> rfl

/-- How a call goes on once the other sector is prepared. -/
def nvFlashWriteNew.proceed (b : Build) (single : Bool) (id : Nat) (itemId : UInt8)
    (buf : List UInt8) (oldSect opSect : Nat) : Except NvSts Nat → Prog NvSts
  | .error ret => do
      flashLock
      pure ret
  | .ok wItemIdx => nvFlashWriteNew.commit b single id itemId buf oldSect opSect wItemIdx true

/-- What a call does once the lock is open and its place is known. -/
def nvFlashWriteNew.placed (b : Build) (single : Bool) (id : Nat) (itemId : UInt8)
    (buf : List UInt8) (place : NvPlace) : Prog NvSts :=
  if place.sectorUpdate then
    nvFlashWriteNew.update b single id itemId buf.length place.opSect
        ((place.opSect + 1) % moduleSectorNum) >>=
      nvFlashWriteNew.proceed b single id itemId buf place.opSect
        ((place.opSect + 1) % moduleSectorNum)
  else
    nvFlashWriteNew.commit b single id itemId buf place.opSect place.opSect place.wItemIdx false

/-- An item that is too long is refused before the flash is touched. -/
theorem nvFlashWriteNew_refused {env : Env} {id : Nat} {itemId : UInt8} {buf : List UInt8} {d : Dev}
    (single : Bool) (tooLong : ¬Admitted id buf.length)
    : Prog.trace env (nvFlashWriteNew b single id itemId buf) d = []
      ∧ Prog.run env (nvFlashWriteNew b single id itemId buf) d = (.notEnoughSapce, d) := by
  rw [nvFlashWriteNew, if_pos (Nat.not_le.mp tooLong)]
  exact ⟨rfl, rfl⟩

/-- The start of a call that the length check admits. -/
theorem nvFlashWriteNew_continues (env : Env) (b : Build) (single : Bool) {id : Nat} (itemId : UInt8)
    {buf : List UInt8} (admitted : Admitted id buf.length) (d : Dev)
    : Prog.Continues env (nvFlashWriteNew b single id itemId buf) d
        (nvFlashWriteNew.placed b single id itemId buf
          (nvFlashWriteNew.place b d.mem id buf.length))
        (lockTo env false d) := by
  rw [nvFlashWriteNew, if_neg (Nat.not_lt.mpr admitted)]
  refine (Prog.Continues.skip rfl).trans ((Prog.Continues.skip (trace_flashUnlock env _)).trans ?_)
  rw [Prog.run_view, run_flashUnlock, nvFlashWriteNew.placed]
  split
  · exact .refl _ _
  · exact .refl _ _

/-- The live items are the kept entries of the chain. -/
theorem Chain.liveItems (chain : Chain (moduleSector b id k) es m) (single : Bool)
    (itemId : UInt8)
    : liveItems b single id itemId k m = es.filter (nvFlashWriteNew.keeps single itemId) := by
  have count := chain.count
  obtain ⟨extra, slots⟩ := Nat.exists_eq_add_of_le count
  have table : readIndexes m (moduleIdxStart b id k) (moduleIdxNum id)
      = readIndexes m (moduleIdxStart b id k) es.length
        ++ readIndexes m (moduleIdxStart b id k + es.length * sizeofInfoIdx) extra := by
    rw [← readIndexes_add, ← slots, moduleSector_slots]
  have used : readIndexes m (moduleIdxStart b id k) es.length = es := by
    apply List.ext_getElem (by simp [readIndexes])
    intro i _ inside
    simp only [readIndexes, List.getElem_map, List.getElem_range]
    exact chain.slot i inside
  have idle : (readIndexes m (moduleIdxStart b id k + es.length * sizeofInfoIdx) extra).filter
      (nvFlashWriteNew.keeps single itemId) = [] := by
    apply List.filter_eq_nil_iff.mpr
    intro e member
    obtain ⟨i, inside, rfl⟩ := List.mem_map.mp member
    have blank := chain.idle (es.length + i) (by omega)
      (by have bound := List.mem_range.mp inside; omega)
    have loaded := InfoIdx.load_blank blank
    have address : (moduleSector b id k).idxAddr (es.length + i)
        = moduleIdxStart b id k + es.length * sizeofInfoIdx + i * sizeofInfoIdx := by
      rw [moduleSector_idxAddr, Nat.add_mul, Nat.add_assoc]
    have state : (InfoIdx.idle.usedState == itemFieldValid) = false := by decide
    rw [← address, loaded]
    simp [nvFlashWriteNew.keeps, state]
  rw [TelinkSdk.liveItems, table, List.filter_append, used, idle, List.append_nil]

/-- The live items of a chain fit into the other sector. -/
theorem Chain.live_fits (chain : Chain (moduleSector b id k) es m) (single : Bool)
    (itemId : UInt8) (j : Fin 2)
    : nextFree (moduleSector b id j).ctx (TelinkSdk.liveItems b single id itemId k m)
        ≤ (moduleSector b id j).limit
      ∧ ∀ e ∈ TelinkSdk.liveItems b single id itemId k m, 8 ≤ e.size := by
  rw [chain.liveItems]
  have shape := @moduleSector_shape b id j k
  have room := nextFree_sublist
    (List.filter_sublist (p := nvFlashWriteNew.keeps single itemId) (l := es))
    (moduleSector b id k).ctx_aligned (moduleSector b id j).ctx_aligned
  have fits := chain.fits
  obtain ⟨_, _, context⟩ :=
    (moduleSector b id j).idxAddr_bounds (moduleSector b id j).slots_pos
  refine ⟨by omega, ?_⟩
  intro e member
  exact (chain.linked.inside (List.mem_filter.mp member).1).2.1

end Cases

-----------------------------------------------------------------------------------------
-- Staying in the sector
-----------------------------------------------------------------------------------------

/-- What a call that writes `buf` as item `itemId` may leave at a cut. The other items read
as before; without faults the item itself reads as before or as `buf`.
-/
structure CallCut (env : Env) (b : Build) (id : Fin nvMaxModuls) (itemId : UInt8)
    (buf : List UInt8) (m m' : Mem) : Prop where
  store : ∃ k es, Store b id k es m'
  others : ∀ other, other ≠ itemId → other ≠ itemFieldIdle → ∀ len < u16Mod,
    nvFlashReadNew b m' id other len = nvFlashReadNew b m id other len
  itself : env.Steady
    → nvFlashReadNew b m' id itemId buf.length = nvFlashReadNew b m id itemId buf.length
      ∨ nvFlashReadNew b m' id itemId buf.length = some buf

section Plain

variable {env : Env} {b : Build} {id : Fin nvMaxModuls} {k : Fin 2} {es : List InfoIdx}
  {m m' : Mem} {itemId : UInt8} {buf : List UInt8}

/-- Both reads of a module go through the same sector, so they compare chain by chain. -/
theorem Store.read_congr {es' : List InfoIdx} (store : Store b id k es m)
    (store' : Store b id k es' m') (marks : Marked b id m' k ↔ Marked b id m k)
    {other : UInt8} (real : other ≠ itemFieldIdle) {len : Nat}
    (same : stored m' es' other len = stored m es other len)
    : nvFlashReadNew b m' id other len = nvFlashReadNew b m id other len := by
  rw [store.read real, store'.read real, same]
  simp only [marks]

/-- Item writes leave the heads of both sectors alone. -/
theorem marked_outside (outside : ∀ x, (x < (moduleSector b id k).base + 4
      ∨ (moduleSector b id k).limit ≤ x) → m' x = m x)
    : Marked b id m' k ↔ Marked b id m k :=
  marked_congr (sectHead_congr (fun x _ high => outside x (Or.inl high)))

/-- An appended entry with a foreign id or not marked valid answers no request. -/
theorem nextEntry_miss {s : Sector} {len : Nat} {state other : UInt8} {otherLen : Nat}
    (real : other ≠ itemFieldIdle) (foreign : other ≠ itemId ∨ state = itemFieldOperation)
    : nvIndexRead.hit other otherLen (s.nextEntry es itemId len state) = false := by
  rw [Bool.eq_false_iff]
  intro hit
  obtain ⟨valid, _, name⟩ := (hit_iff real).mp hit
  simp only [Sector.nextEntry] at valid name
  rcases foreign with different | operating
  · exact different name.symm
  · rw [operating] at valid
    exact absurd valid (by decide)

/-- An appended valid entry answers the request for its item. -/
theorem nextEntry_hit {s : Sector} {len : Nat} (real : itemId ≠ itemFieldIdle)
    (short : len + 8 < u16Mod)
    : nvIndexRead.hit itemId len (s.nextEntry es itemId len itemFieldValid) = true := by
  refine (hit_iff real).mpr ⟨rfl, ?_, rfl⟩
  simp only [Sector.nextEntry, itemTotalLen, sizeofItemHdr]
  exact (Nat.mod_eq_of_lt short).symm

/-- The chain behind the appended entry answers as before. -/
theorem Appends.stored {s : Sector} {len : Nat} (frame : Appends s es len m m')
    (linked : Linked s.ctx es) (room : es.length < s.slots) {other : UInt8}
    (real : other ≠ itemFieldIdle) {otherLen : Nat} (short : otherLen < u16Mod)
    : stored m' es other otherLen = stored m es other otherLen := by
  obtain ⟨first, last, context⟩ := s.idxAddr_bounds room
  apply stored_congr real short linked
  intro x low high
  exact frame x (by omega) (by omega)

theorem Store.appended {state : UInt8} {len : Nat} (store : Store b id k es m)
    (room : es.length < (moduleSector b id k).slots)
    (fits : nextFree (moduleSector b id k).ctx es + (len + 8) ≤ (moduleSector b id k).limit)
    (frame : Appends (moduleSector b id k) es len m m')
    (chain : Chain (moduleSector b id k)
      (es ++ [(moduleSector b id k).nextEntry es itemId len state]) m')
    : Store b id k (es ++ [(moduleSector b id k).nextEntry es itemId len state]) m' :=
  store.inside (frame.outside room fits) chain (fun empty => absurd empty (by simp))

/-- A valid last entry decides the read of its item. -/
theorem Store.read_last {s : Sector} {len : Nat}
    (store : Store b id k (es ++ [s.nextEntry es itemId len itemFieldValid]) m)
    (real : itemId ≠ itemFieldIdle) (short : len + 8 < u16Mod)
    : nvFlashReadNew b m id itemId len
      = if Marked b id m k then
          itemAt m itemId len (s.nextEntry es itemId len itemFieldValid)
        else none := by
  rw [store.read real, stored_append_hit (nextEntry_hit real short)]

/-- A cut inside the item write of a call that stays in its sector. -/
theorem Store.cut_appending (store : Store b id k es m) (real : itemId ≠ itemFieldIdle)
    (room : es.length < (moduleSector b id k).slots)
    (fits : nextFree (moduleSector b id k).ctx es + (buf.length + 8)
      ≤ (moduleSector b id k).limit)
    (cut : Appending env (moduleSector b id k) es itemId (.ram buf) m m')
    : CallCut env b id itemId buf m m' := by
  have short := (moduleSector b id k).item_short fits
  obtain ⟨frame, old | ⟨state, longer, states⟩⟩ := cut
  · have outside := frame.outside room fits
    have store' : Store b id k es m' := store.inside outside old (fun empty => empty)
    have same {other : UInt8} (real : other ≠ itemFieldIdle) {len : Nat} (short : len < u16Mod)
        : nvFlashReadNew b m' id other len = nvFlashReadNew b m id other len :=
      store.read_congr store' (marked_outside outside) real
        (frame.stored store.chain.linked room real short)
    exact {
      store := ⟨k, es, store'⟩
      others := fun _ _ realOther _ shortOther => same realOther shortOther
      itself := fun _ => Or.inl (same real (by omega))
    }
  · have outside := frame.outside room fits
    have store' := store.appended room fits frame longer
    have marks := marked_outside outside
    have unseen {other : UInt8} (real : other ≠ itemFieldIdle) {len : Nat}
        (short : len < u16Mod) (foreign : other ≠ itemId ∨ state = itemFieldOperation)
        : nvFlashReadNew b m' id other len = nvFlashReadNew b m id other len := by
      apply store.read_congr store' marks real
      rw [stored_append_miss (nextEntry_miss real foreign)]
      exact frame.stored store.chain.linked room real short
    refine {
      store := ⟨k, _, store'⟩
      others := fun _ different realOther _ shortOther =>
        unseen realOther shortOther (Or.inl different)
      itself := ?_
    }
    intro steady
    rcases states with operating | ⟨valid, placed⟩
    · exact Or.inl (unseen real (by omega) (Or.inr operating))
    · subst state
      by_cases marked : Marked b id m' k
      · right
        rw [store'.read_last real short, if_pos marked]
        exact placed steady
      · left
        rw [store'.read real, store.read real, if_neg marked, if_neg (mt marks.mpr marked)]

/-- The search for the previous value finds an entry of that item. -/
theorem Chain.previous {len i : Nat} (chain : Chain (moduleSector b id k) es m)
    (real : itemId ≠ itemFieldIdle)
    (found : nvIndexRead b m id itemId len k (moduleIdxNum id) = some i)
    : ∃ inside : i < es.length, es[i].itemId = itemId := by
  rw [indexRead_eq, chain.scan] at found
  obtain ⟨inside, hit⟩ := lastBelow_some found
  refine ⟨inside, ?_⟩
  rw [← chain.slot i inside]
  exact ((hit_iff real).mp hit).2.2

/-- The module between the item write and the sector flags of a call that stays in its
sector: the chain `front` answers for the other items like the old one, and the new entry
follows it. `previous` is the slot of the previous value, if it was marked.
-/
structure Pending (env : Env) (b : Build) (id : Fin nvMaxModuls) (k : Fin 2)
    (es : List InfoIdx) (itemId : UInt8) (buf : List UInt8) (m : Mem) (ret : NvSts)
    (previous : Option Nat) (front : List InfoIdx) (state : UInt8) (m' : Mem) : Prop where
  store : Store b id k
    (front ++ [(moduleSector b id k).nextEntry es itemId buf.length state]) m'
  sizes : front.map InfoIdx.size = es.map InfoIdx.size
  marks : Marked b id m' k ↔ Marked b id m k
  others : ∀ other, other ≠ itemId → other ≠ itemFieldIdle → ∀ len < u16Mod,
    stored m' front other len = stored m es other len
  complete : ret = .succ → env.Steady → state = itemFieldValid
    ∧ itemAt m' itemId buf.length
        ((moduleSector b id k).nextEntry es itemId buf.length state) = some buf
  failed : ret ≠ .succ → previous = none → ∀ other, other ≠ itemFieldIdle → ∀ len < u16Mod,
    nvFlashReadNew b m' id other len = nvFlashReadNew b m id other len
  head : es = []
    → m'.BlankOn (moduleSector b id k).base ((moduleSector b id k).base + 4)

theorem Store.pending {state : UInt8} {ret : NvSts} (store : Store b id k es m)
    (room : es.length < (moduleSector b id k).slots)
    (fits : nextFree (moduleSector b id k).ctx es + (buf.length + 8)
      ≤ (moduleSector b id k).limit)
    (appended : Appended env (moduleSector b id k) es itemId (.ram buf) ret m state m')
    : Pending env b id k es itemId buf m ret none es state m' := by
  have outside := appended.frame.outside room fits
  have store' := store.appended room fits appended.frame appended.chain
  have marks := marked_outside outside
  refine {
    store := store'
    sizes := rfl
    marks
    others := fun _ _ real _ short => appended.frame.stored store.chain.linked room real short
    complete := appended.complete
    failed := ?_
    head := ?_
  }
  · intro bad _ other real len short
    apply store.read_congr store' marks real
    rw [stored_append_miss (nextEntry_miss real (Or.inr (appended.failed bad)))]
    exact appended.frame.stored store.chain.linked room real short
  · intro empty x low high
    rw [outside x (Or.inl high)]
    exact store.fresh empty x low high

/-- Marking the slot of the previous value. -/
theorem Pending.delete {state : UInt8} {ret : NvSts} {i : Nat}
    (pending : Pending env b id k es itemId buf m ret none es state m')
    (inside : i < es.length) (name : es[i].itemId = itemId)
    : Pending env b id k es itemId buf m ret (some i) (markEntry es i itemFieldInvalid) state
        (m'.program ((moduleSector b id k).idxAddr i + 7) [itemFieldInvalid]) := by
  have longer : i < (es ++ [(moduleSector b id k).nextEntry es itemId buf.length state]).length := by
    rw [List.length_append]
    omega
  have count := pending.store.chain.count
  obtain ⟨first, last, context⟩ :=
    (moduleSector b id k).idxAddr_bounds (Nat.lt_of_lt_of_le longer count)
  have elsewhere {x : Nat} (apart : x ≠ (moduleSector b id k).idxAddr i + 7)
      : m'.program ((moduleSector b id k).idxAddr i + 7) [itemFieldInvalid] x = m' x := by
    rw [Mem.program_byte, if_neg apart]
  have outside : ∀ x, (x < (moduleSector b id k).base + 4 ∨ (moduleSector b id k).limit ≤ x)
      → m'.program ((moduleSector b id k).idxAddr i + 7) [itemFieldInvalid] x = m' x :=
    fun x apart => elsewhere (by omega)
  have chain := pending.store.chain.mark longer itemFieldInvalid
  rw [markEntry_append _ inside] at chain
  have linked : Linked (moduleSector b id k).ctx (markEntry es i itemFieldInvalid) :=
    (linked_append.mp chain.linked).1
  have low := le_nextFree (moduleSector b id k).ctx es
  refine {
    store := pending.store.inside outside chain (by simp)
    sizes := markEntry_sizes es i itemFieldInvalid
    marks := (marked_outside outside).trans pending.marks
    others := ?_
    complete := ?_
    failed := fun _ none => absurd none (by simp)
    head := fun empty => absurd inside (by simp [empty])
  }
  · intro other different real len short
    rw [stored_congr real short linked (fun x low high => elsewhere (by omega)),
      stored_markEntry inside real (by rw [name]; exact different.symm)]
    exact pending.others other different real len short
  · intro good steady
    obtain ⟨valid, written⟩ := pending.complete good steady
    refine ⟨valid, ?_⟩
    rw [← written]
    apply itemAt_congr
    intro j small
    exact elsewhere (by simp only [Sector.nextEntry]; omega)

/-- A mark that was lost changes nothing. -/
theorem Pending.undeleted {state : UInt8} {ret : NvSts} {front : List InfoIdx}
    (pending : Pending env b id k es itemId buf m ret none front state m')
    (previous : Option Nat)
    : Pending env b id k es itemId buf m ret previous front state m' :=
  { pending with failed := fun bad _ => pending.failed bad rfl }

/-- What a call that stays in its sector has done when it returns. A sector that was neither
marked nor empty stays unmarked, so the item cannot be read.
-/
structure Stayed (env : Env) (b : Build) (id : Fin nvMaxModuls) (k : Fin 2)
    (es : List InfoIdx) (itemId : UInt8) (buf : List UInt8) (m : Mem) (ret : NvSts)
    (previous : Option Nat) (m' : Mem) : Prop where
  cut : CallCut env b id itemId buf m m'
  store : ∃ es', Store b id k es' m' ∧ es'.map InfoIdx.size = es.map InfoIdx.size ++ [buf.length + 8]
  written : env.Steady → ret = .succ
    ∧ (Marked b id m k ∨ es = []
      → Marked b id m' k ∧ nvFlashReadNew b m' id itemId buf.length = some buf)
    ∧ (¬(Marked b id m k ∨ es = []) → nvFlashReadNew b m' id itemId buf.length = none)
  failed : ret ≠ .succ → previous = none → ∀ other, other ≠ itemFieldIdle → ∀ len < u16Mod,
    nvFlashReadNew b m' id other len = nvFlashReadNew b m id other len

section Flags

variable {state : UInt8} {ret : NvSts} {previous : Option Nat} {front : List InfoIdx}

theorem Pending.reads (pending : Pending env b id k es itemId buf m ret previous front state m')
    (real : itemId ≠ itemFieldIdle) (short : buf.length + 8 < u16Mod) (good : ret = .succ)
    (steady : env.Steady)
    : nvFlashReadNew b m' id itemId buf.length = if Marked b id m k then some buf else none := by
  obtain ⟨valid, written⟩ := pending.complete good steady
  subst state
  rw [pending.store.read real, stored_append_hit (nextEntry_hit real short), written]
  simp only [pending.marks]

theorem Pending.cut (store : Store b id k es m)
    (pending : Pending env b id k es itemId buf m ret previous front state m')
    (real : itemId ≠ itemFieldIdle) (short : buf.length + 8 < u16Mod)
    (good : env.Steady → ret = .succ)
    : CallCut env b id itemId buf m m' := by
  refine {
    store := ⟨k, _, pending.store⟩
    others := ?_
    itself := ?_
  }
  · intro other different realOther len shortOther
    apply store.read_congr pending.store pending.marks realOther
    rw [stored_append_miss (nextEntry_miss realOther (Or.inl different))]
    exact pending.others other different realOther len shortOther
  · intro steady
    rw [pending.reads real short (good steady) steady, store.read real]
    by_cases marked : Marked b id m k
    · exact Or.inr (if_pos marked)
    · exact Or.inl (by rw [if_neg marked, if_neg marked])

/-- No flag is due: the sector was in use before, or the write failed, or the flag was
lost.
-/
theorem Pending.stayed (store : Store b id k es m)
    (pending : Pending env b id k es itemId buf m ret previous front state m')
    (real : itemId ≠ itemFieldIdle) (short : buf.length + 8 < u16Mod)
    (good : env.Steady → ret = .succ ∧ es ≠ [])
    : Stayed env b id k es itemId buf m ret previous m' := by
  refine {
    cut := pending.cut store real short (fun steady => (good steady).1)
    store := ⟨_, pending.store, by simp [pending.sizes, Sector.nextEntry]⟩
    written := ?_
    failed := pending.failed
  }
  intro steady
  obtain ⟨succ, used⟩ := good steady
  have read := pending.reads real short succ steady
  refine ⟨succ, ?_, ?_⟩
  · intro marked
    have was := marked.resolve_right used
    exact ⟨pending.marks.mpr was, by rw [read, if_pos was]⟩
  · intro unmarked
    rw [read, if_neg (fun marked => unmarked (Or.inl marked))]

/-- A flag over the blank head of the sector in operation marks that sector. -/
theorem Store.flagged (store : Store b id k es m) (used : es ≠ [])
    (blank : m.BlankOn (moduleSector b id k).base ((moduleSector b id k).base + 4))
    : Store b id k es
        (m.program (moduleSector b id k).base (headBytes id nvSectorValid k))
      ∧ Marked b id (m.program (moduleSector b id k).base (headBytes id nvSectorValid k)) k := by
  obtain ⟨marked, named⟩ := marked_of_valid blank
  obtain ⟨zero, none⟩ := store.unmarked (not_marked_of_blank blank)
  subst k
  have elsewhere {x : Nat} (apart : (moduleSector b id 0).base + 4 ≤ x)
      : m.program (moduleSector b id 0).base (headBytes id nvSectorValid 0) x = m x :=
    Mem.program_outside (by simp only [headBytes_length]; omega)
  have other : ¬Marked b id
      (m.program (moduleSector b id 0).base (headBytes id nvSectorValid 0)) 1 := by
    have apart := @moduleSector_apart b id 0 1 (by decide)
    have order : (moduleSector b id 0).base < (moduleSector b id 1).base := by
      simp only [moduleSector, moduleSectStart]
      rcases nvSectorSize_cases id with ⟨size, -⟩ | ⟨size, -⟩ <;> rw [size] <;> simp
    have size : (moduleSector b id 0).base + 4 ≤ (moduleSector b id 0).limit := by
      have bounds := (moduleSector b id 0).idxAddr_bounds (moduleSector b id 0).slots_pos
      omega
    have limitOne : (moduleSector b id 1).base ≤ (moduleSector b id 1).limit := by
      simp only [Sector.limit]
      omega
    have same := @sectHead_congr b id m
      (m.program (moduleSector b id 0).base (headBytes id nvSectorValid 0)) 1
      (fun x low _ => elsewhere (by omega))
    rw [marked_congr same]
    exact none 1
  refine ⟨?_, marked⟩
  exact {
    own := fun j here => by
      have cases : j = 0 ∨ j = 1 := by omega
      rcases cases with rfl | rfl
      · exact named
      · exact absurd here other
    operation := by simpa [InOperation] using Or.inl marked
    chain := store.chain.congr (fun x low _ => elsewhere low)
    fresh := fun empty => absurd empty used
  }

/-- The first item of a sector puts it in operation. -/
theorem Pending.flagged (store : Store b id k [] m)
    (pending : Pending env b id k [] itemId buf m ret previous front state m')
    (real : itemId ≠ itemFieldIdle) (short : buf.length + 8 < u16Mod) (good : ret = .succ)
    : Stayed env b id k [] itemId buf m ret previous
        (m'.program (moduleSector b id k).base (headBytes id nvSectorValid k)) := by
  have empty : front = [] := by simpa using pending.sizes
  subst front
  obtain ⟨store', marked⟩ := pending.store.flagged (by simp) (pending.head rfl)
  have context := (moduleSector b id k).idxAddr_bounds (moduleSector b id k).slots_pos
  have answer {other : UInt8} (realOther : other ≠ itemFieldIdle) (len : Nat)
      : nvFlashReadNew b m id other len = none := by
    rw [store.read realOther]
    simp [stored, lastEntry]
  have read (steady : env.Steady)
      : nvFlashReadNew b
          (m'.program (moduleSector b id k).base (headBytes id nvSectorValid k)) id itemId
          buf.length = some buf := by
    obtain ⟨valid, written⟩ := pending.complete good steady
    subst state
    rw [store'.read real, if_pos marked, stored_append_hit (nextEntry_hit real short), ← written]
    apply itemAt_congr
    intro i small
    exact Mem.program_outside (by
      simp only [headBytes_length, Sector.nextEntry, nextFree]
      omega)
  refine {
    cut := ?_
    store := ⟨_, store', by simp [Sector.nextEntry]⟩
    written := fun steady => ⟨good, fun _ => ⟨marked, read steady⟩, fun absent => absurd (Or.inr rfl) absent⟩
    failed := fun bad => absurd good bad
  }
  refine {
    store := ⟨k, _, store'⟩
    others := ?_
    itself := fun steady => Or.inr (read steady)
  }
  intro other different realOther len shortOther
  rw [answer realOther, store'.read realOther, if_pos marked,
    stored_append_miss (nextEntry_miss realOther (Or.inl different))]
  simp [stored, lastEntry]

end Flags

/-- The slot that `nv_flashWriteNew` marks after the write. -/
def previousSlot (b : Build) (single : Bool) (id : Nat) (itemId : UInt8) (len opSect : Nat)
    (m : Mem) : Option Nat :=
  if single then nvIndexRead b m id itemId len opSect (moduleIdxNum id) else none

theorem previousSlot_some {single : Bool} {id : Nat} {len opSect i : Nat}
    (found : previousSlot b single id itemId len opSect m = some i)
    : single = true ∧ nvIndexRead b m id itemId len opSect (moduleIdxNum id) = some i := by
  unfold previousSlot at found
  split at found
  case isTrue alone => exact ⟨alone, found⟩
  case isFalse => contradiction

/-- A call that stays in its sector, at every cut and at its end. -/
theorem commit_stays_meets {d : Dev} (single : Bool) (store : Store b id k es d.mem)
    (real : itemId ≠ itemFieldIdle) (room : es.length < (moduleSector b id k).slots)
    (fits : nextFree (moduleSector b id k).ctx es + (buf.length + 8)
      ≤ (moduleSector b id k).limit)
    : Prog.Meets (Structural b id) env (CallCut env b id itemId buf d.mem)
        (nvFlashWriteNew.commit b single id itemId buf k k es.length false) d
        (fun ret d' =>
          Stayed env b id k es itemId buf d.mem ret
              (previousSlot b single id itemId buf.length k d.mem) d'.mem
            ∧ ItemStatus env d ret (.ram buf)) := by
  have short := (moduleSector b id k).item_short fits
  unfold nvFlashWriteNew.commit
  apply Prog.Meets.read
  apply Prog.Meets.bind ((nvWriteItem_meets itemId (.ram buf) store.chain room fits).mono
    (fun m' cut => store.cut_appending real room fits cut) (fun _ _ post => post))
  rintro ret d' ⟨⟨state, appended⟩, status, _⟩
  have good (steady : env.Steady) : ret = .succ :=
    status (Or.inl steady.unguarded) (Or.inl (steady.supplied _))
  have pending := store.pending room fits appended
  -- The previous value is marked next, if there is one.
  have deleted : Prog.Meets (Structural b id) env (CallCut env b id itemId buf d.mem)
      (nvFlashWriteNew.markDeleted b id k
        (previousSlot b single id itemId buf.length k d.mem)) d'
      (fun _ d'' => ∃ front,
        Pending env b id k es itemId buf d.mem ret
          (previousSlot b single id itemId buf.length k d.mem) front state d''.mem) := by
    cases found : previousSlot b single id itemId buf.length k d.mem with
    | none => exact .silent (pending.cut store real short good) rfl ⟨es, pending⟩
    | some i =>
        obtain ⟨inside, name⟩ := store.chain.previous real (previousSlot_some found).2
        have marked := pending.delete inside name
        apply (flashWrite_meets (pending.cut store real short good)
          (marked.cut store real short good)).mono (fun _ cut => cut)
        rintro _ d'' ⟨_, reached | ⟨_, lost⟩⟩
        · refine ⟨markEntry es i itemFieldInvalid, ?_⟩
          rw [reached]
          exact marked
        · refine ⟨es, ?_⟩
          rw [lost]
          exact pending.undeleted (some i)
  apply Prog.Meets.bind deleted
  rintro _ d'' ⟨front, pending'⟩
  -- The first item of a sector also sets the sector's flag.
  have flags : Prog.Meets (Structural b id) env (CallCut env b id itemId buf d.mem)
      (nvFlashWriteNew.markSectors b id k k es.length false ret) d''
      (fun _ d₃ => Stayed env b id k es itemId buf d.mem ret
        (previousSlot b single id itemId buf.length k d.mem) d₃.mem) := by
    have start := pending'.cut store real short good
    unfold nvFlashWriteNew.markSectors
    by_cases succ : ret = .succ
    · by_cases empty : es.length = 0
      · have nil : es = [] := List.length_eq_zero_iff.mp empty
        subst es
        have flagged := pending'.flagged store real short succ
        simp only [succ, if_true, Bool.false_eq_true, if_false, List.length_nil]
        apply (flashWrite_meets start flagged.cut).mono (fun _ cut => cut)
        rintro _ d₃ ⟨_, reached | ⟨refused, lost⟩⟩
        · rw [reached, ← succ]
          exact flagged
        · rw [lost, ← succ]
          apply pending'.stayed store real short
          intro steady
          rw [steady.accepts] at refused
          contradiction
      · simp only [succ, if_true, Bool.false_eq_true, if_false, empty]
        have used : es ≠ [] := fun nil => empty (List.length_eq_zero_iff.mpr nil)
        rw [← succ]
        exact .silent start rfl
          (pending'.stayed store real short (fun steady => ⟨good steady, used⟩))
    · simp only [succ, if_false]
      exact .silent start rfl
        (pending'.stayed store real short (fun steady => absurd (good steady) succ))
  apply Prog.Meets.bind flags
  rintro _ d₃ stayed
  apply Prog.Meets.skip (trace_flashLock env d₃)
  rw [run_flashLock]
  exact .silent stayed.cut rfl ⟨stayed, status⟩

end Plain

-----------------------------------------------------------------------------------------
-- Moving to the other sector
-----------------------------------------------------------------------------------------

section Rollover

variable {env : Env} {b : Build} {id : Fin nvMaxModuls} {k j : Fin 2} {es : List InfoIdx}
  {m m' : Mem} {single : Bool} {itemId : UInt8} {buf : List UInt8} {ret : NvSts}

/-- Some sector is always in operation. -/
theorem inOperation_exists (b : Build) (id : Fin nvMaxModuls) (m : Mem)
    : ∃ i, InOperation b id m i := by
  by_cases first : Marked b id m 0 ∨ ¬Marked b id m 1
  · exact ⟨0, by simpa [InOperation] using first⟩
  · refine ⟨1, ?_⟩
    rw [not_or, not_not] at first
    simpa [InOperation] using first

/-- Where both sectors hold chains in use, the one in operation makes a store. -/
theorem Store.of_chains {es' : List InfoIdx} (different : j ≠ k) (own : HeadsOwn b id m)
    (chain : Chain (moduleSector b id k) es m) (used : es ≠ [])
    (chain' : Chain (moduleSector b id j) es' m) (used' : es' ≠ [])
    : ∃ i entries, Store b id i entries m := by
  obtain ⟨i, operation⟩ := inOperation_exists b id m
  by_cases old : i = k
  · subst i
    exact ⟨k, es, own, operation, chain, fun empty => absurd empty used⟩
  · have new : i = j := by omega
    subst i
    exact ⟨j, es', own, operation, chain', fun empty => absurd empty used'⟩

theorem Spare.store (spare : Spare b id j m m') (store : Store b id k es m) (different : j ≠ k)
    : Store b id k es m' :=
  store.spare different spare.1 spare.2

/-- Nothing of the sector in operation changes, so every read gives the same. -/
theorem Spare.reads (spare : Spare b id j m m') (store : Store b id k es m) (different : j ≠ k)
    {other : UInt8} (real : other ≠ itemFieldIdle) {len : Nat} (short : len < u16Mod)
    : nvFlashReadNew b m' id other len = nvFlashReadNew b m id other len := by
  have apart := @moduleSector_apart b id j k different
  have fits := store.chain.fits
  have bounds := (moduleSector b id k).idxAddr_bounds (moduleSector b id k).slots_pos
  have otherBounds := (moduleSector b id j).idxAddr_bounds (moduleSector b id j).slots_pos
  apply store.read_congr (spare.store store different)
  · exact marked_congr (sectHead_congr (fun x low high => spare.1 x (by omega)))
  · exact real
  · exact stored_congr real short store.chain.linked (fun x low high => spare.1 x (by omega))

/-- The new sector is filled and only the flags are left to set. -/
structure Ready (env : Env) (b : Build) (id : Fin nvMaxModuls) (k j : Fin 2)
    (es : List InfoIdx) (single : Bool) (itemId : UInt8) (buf : List UInt8) (m : Mem)
    (ret : NvSts) (entries : List InfoIdx) (m' : Mem) : Prop where
  spare : Spare b id j m m'
  blank : m'.BlankOn (moduleSector b id j).base ((moduleSector b id j).base + 4)
  chain : Chain (moduleSector b id j) entries m'
  sizes : entries.map InfoIdx.size
    = (es.filter (nvFlashWriteNew.keeps single itemId)).map InfoIdx.size ++ [buf.length + 8]
  others : ret = .succ → env.Steady → ∀ other, other ≠ itemId → other ≠ itemFieldIdle
    → ∀ len < u16Mod, stored m' entries other len = stored m es other len
  itself : ret = .succ → env.Steady → stored m' entries itemId buf.length = some buf

/-- Requests for other items only ever end at kept entries. -/
theorem stored_keeps {other : UInt8} (different : other ≠ itemId) (real : other ≠ itemFieldIdle)
    (len : Nat)
    : stored m (es.filter (nvFlashWriteNew.keeps single itemId)) other len
      = stored m es other len := by
  unfold stored lastEntry
  rw [List.filter_filter]
  congr 2
  apply List.filter_congr
  intro e _
  cases hit : nvIndexRead.hit other len e with
  | false => simp
  | true =>
      obtain ⟨valid, _, name⟩ := (hit_iff real).mp hit
      simp [nvFlashWriteNew.keeps, valid, name, different]

/-- With `single` set no entry of the written item moves, so the new sector has no previous
value to mark.
-/
theorem Moved.noPrevious {d d' : Dev} {live entries : List InfoIdx}
    (moved : Moved env (moduleSector b id j) d live entries d')
    (kept : live = es.filter (nvFlashWriteNew.keeps single itemId))
    (real : itemId ≠ itemFieldIdle) (len : Nat)
    : previousSlot b single id itemId len j d'.mem = none := by
  cases found : previousSlot b single id itemId len j d'.mem with
  | none => rfl
  | some i =>
      obtain ⟨rfl, search⟩ := previousSlot_some found
      obtain ⟨inside, name⟩ := moved.chain.previous real search
      have member : itemId ∈ entries.map InfoIdx.itemId :=
        List.mem_map.mpr ⟨entries[i], List.getElem_mem inside, name⟩
      rw [moved.itemIds, kept] at member
      obtain ⟨e, inList, same⟩ := List.mem_map.mp member
      have keep := (List.mem_filter.mp inList).2
      simp [nvFlashWriteNew.keeps, same] at keep

/-- Writing the new item completes the new sector. -/
theorem Moved.ready {d d' d'' : Dev} {entries : List InfoIdx} {state : UInt8}
    (store : Store b id k es m) (different : j ≠ k) (memory : d.mem = m) {erased : Dev}
    (blanked : Erased (moduleSector b id j) d erased)
    (moved : Moved env (moduleSector b id j) erased
      (es.filter (nvFlashWriteNew.keeps single itemId)) entries d')
    (real : itemId ≠ itemFieldIdle)
    (room : entries.length < (moduleSector b id j).slots)
    (fits : nextFree (moduleSector b id j).ctx entries + (buf.length + 8)
      ≤ (moduleSector b id j).limit)
    (appended : Appended env (moduleSector b id j) entries itemId (.ram buf) ret d'.mem state
      d''.mem)
    : Ready env b id k j es single itemId buf m ret
        (entries ++ [(moduleSector b id j).nextEntry entries itemId buf.length state]) d''.mem := by
  subst m
  have short := (moduleSector b id j).item_short fits
  have outside := appended.frame.outside room fits
  have filling : Filling (moduleSector b id j) erased.mem d''.mem :=
    ⟨⟨_, appended.chain⟩, fun x apart => by rw [outside x apart]; exact moved.outside x apart⟩
  obtain ⟨spare, blank⟩ := filling.spare blanked
  refine {
    spare
    blank
    chain := appended.chain
    sizes := by simp [moved.sizes, Sector.nextEntry]
    others := ?_
    itself := ?_
  }
  · intro good steady other foreign realOther len shortOther
    have apart := @moduleSector_apart b id j k different
    have fitsOld := store.chain.fits
    have bounds := (moduleSector b id k).idxAddr_bounds (moduleSector b id k).slots_pos
    have kept : stored d.mem (es.filter (nvFlashWriteNew.keeps single itemId)) other len
      = stored d.mem es other len := stored_keeps foreign realOther len
    rw [stored_append_miss (nextEntry_miss realOther (Or.inl foreign)),
      appended.frame.stored moved.chain.linked room realOther shortOther, ← kept]
    apply stored_rel realOther shortOther
    · intro e member
      exact (store.chain.linked.inside (List.mem_filter.mp member).1).2.1
    · -- The sources lie in the old sector, which the erase left alone.
      apply forall₂_imp_mem (moved.copies steady)
      intro e member copy _ copied
      obtain ⟨inChain, keep⟩ := List.mem_filter.mp member
      obtain ⟨low, _, high⟩ := store.chain.linked.inside inChain
      have valid : e.usedState = itemFieldValid := by
        simp only [nvFlashWriteNew.keeps, Bool.and_eq_true, beq_iff_eq] at keep
        exact keep.1
      refine ⟨copied.size, copied.itemId, copied.usedState.trans valid.symm, ?_⟩
      intro i inside
      rw [copied.bytes i inside (by omega)]
      exact blanked.outside _ (by omega)
  · intro good steady
    obtain ⟨valid, placed⟩ := appended.complete good steady
    subst state
    rw [stored_append_hit (nextEntry_hit real short)]
    exact placed

/-- Both sectors hold chains in use. -/
structure Both (b : Build) (id : Fin nvMaxModuls) (k j : Fin 2) (es entries : List InfoIdx)
    (m : Mem) : Prop where
  own : HeadsOwn b id m
  old : Chain (moduleSector b id k) es m
  new : Chain (moduleSector b id j) entries m
  oldUsed : es ≠ []
  newUsed : entries ≠ []

theorem Both.store {entries : List InfoIdx} (both : Both b id k j es entries m)
    (different : j ≠ k)
    : ∃ i l, Store b id i l m :=
  Store.of_chains different both.own both.old both.oldUsed both.new both.newUsed

/-- A head write changes no table and no context area of the module. -/
theorem head_apart (i l : Fin 2) {bytes : List UInt8} (width : bytes.length = 4) {x : Nat}
    (low : (moduleSector b id l).base + 4 ≤ x) (high : x < (moduleSector b id l).limit)
    : m.program (moduleSector b id i).base bytes x = m x := by
  have bounds := (moduleSector b id i).idxAddr_bounds (moduleSector b id i).slots_pos
  by_cases same : i = l
  · subst i
    exact Mem.program_outside (by omega)
  · have apart := @moduleSector_apart b id i l same
    exact Mem.program_outside (by omega)

/-- A head write leaves the head of the other sector alone. -/
theorem head_other {i l : Fin 2} (different : i ≠ l) {bytes : List UInt8}
    (width : bytes.length = 4)
    : sectHead b id (m.program (moduleSector b id i).base bytes) l = sectHead b id m l := by
  have bounds := (moduleSector b id i).idxAddr_bounds (moduleSector b id i).slots_pos
  have boundsOther := (moduleSector b id l).idxAddr_bounds (moduleSector b id l).slots_pos
  have apart := @moduleSector_apart b id i l different
  apply sectHead_congr
  intro x low high
  exact Mem.program_outside (by omega)

theorem Both.head {entries : List InfoIdx} (both : Both b id k j es entries m) (i : Fin 2)
    {bytes : List UInt8} (width : bytes.length = 4)
    (own : HeadsOwn b id (m.program (moduleSector b id i).base bytes))
    : Both b id k j es entries (m.program (moduleSector b id i).base bytes) :=
  { both with
    own
    old := both.old.congr (fun _ low high => head_apart i k width low high)
    new := both.new.congr (fun _ low high => head_apart i j width low high) }

/-- Taking the old sector out of operation. -/
theorem Both.invalid {entries : List InfoIdx} (both : Both b id k j es entries m)
    : Both b id k j es entries
        (m.program (moduleSector b id k).base (headBytes id nvSectorInvalid j)) := by
  apply both.head k rfl
  intro i marked
  by_cases old : k = i
  · subst i
    exact absurd marked (not_marked_of_invalid j)
  · have same := @head_other b id m k i old (headBytes id nvSectorInvalid j) rfl
    rw [same]
    exact both.own i ((marked_congr same).mp marked)

/-- Taking the new sector, whose head is blank, into operation. -/
theorem Both.valid {entries : List InfoIdx} (both : Both b id k j es entries m)
    (blank : m.BlankOn (moduleSector b id j).base ((moduleSector b id j).base + 4))
    : Both b id k j es entries
        (m.program (moduleSector b id j).base (headBytes id nvSectorValid j)) := by
  apply both.head j rfl
  intro i marked
  by_cases new : j = i
  · subst i
    exact (marked_of_valid blank).2
  · have same := @head_other b id m j i new (headBytes id nvSectorValid j) rfl
    rw [same]
    exact both.own i ((marked_congr same).mp marked)

/-- What a call that moves to sector `j` has done when it returns. -/
structure Rolled (env : Env) (b : Build) (id : Fin nvMaxModuls) (k j : Fin 2)
    (es : List InfoIdx) (single : Bool) (itemId : UInt8) (buf : List UInt8) (m : Mem)
    (ret : NvSts) (m' : Mem) : Prop where
  store : ∃ i l, Store b id i l m'
  failed : ret ≠ .succ → Spare b id j m m'
  written : env.Steady → ret = .succ → ∃ entries, Store b id j entries m'
    ∧ Marked b id m' j
    ∧ entries.map InfoIdx.size
      = (es.filter (nvFlashWriteNew.keeps single itemId)).map InfoIdx.size ++ [buf.length + 8]
    ∧ (∀ other, other ≠ itemId → other ≠ itemFieldIdle → ∀ len < u16Mod,
      stored m' entries other len = stored m es other len)
    ∧ stored m' entries itemId buf.length = some buf

theorem Ready.both {entries : List InfoIdx} (store : Store b id k es m) (different : j ≠ k)
    (ready : Ready env b id k j es single itemId buf m ret entries m') (used : es ≠ [])
    : Both b id k j es entries m' := by
  have store' := ready.spare.store store different
  refine ⟨store'.own, store'.chain, ready.chain, used, ?_⟩
  intro empty
  have sizes := ready.sizes
  simp [empty] at sizes

/-- Setting both flags puts the new sector in operation. -/
theorem Ready.rolled {entries : List InfoIdx} (store : Store b id k es m) (different : j ≠ k)
    (ready : Ready env b id k j es single itemId buf m .succ entries m') (used : es ≠ [])
    (real : itemId ≠ itemFieldIdle) (short : buf.length < u16Mod)
    : Rolled env b id k j es single itemId buf m .succ
        ((m'.program (moduleSector b id k).base (headBytes id nvSectorInvalid j)).program
          (moduleSector b id j).base (headBytes id nvSectorValid j)) := by
  have bounds := (moduleSector b id j).idxAddr_bounds (moduleSector b id j).slots_pos
  have boundsOld := (moduleSector b id k).idxAddr_bounds (moduleSector b id k).slots_pos
  have apart := @moduleSector_apart b id j k different
  have blank : (m'.program (moduleSector b id k).base (headBytes id nvSectorInvalid j)).BlankOn
      (moduleSector b id j).base ((moduleSector b id j).base + 4) := by
    intro x low high
    rw [Mem.program_outside (by simp only [headBytes_length]; omega)]
    exact ready.blank x low high
  have both := (ready.both store different used).invalid.valid blank
  obtain ⟨marked, _⟩ := marked_of_valid blank
  have unmarked : ¬Marked b id
      ((m'.program (moduleSector b id k).base (headBytes id nvSectorInvalid j)).program
        (moduleSector b id j).base (headBytes id nvSectorValid j)) k := by
    rw [marked_congr (head_other different rfl)]
    exact not_marked_of_invalid j
  have operation : InOperation b id
      ((m'.program (moduleSector b id k).base (headBytes id nvSectorInvalid j)).program
        (moduleSector b id j).base (headBytes id nvSectorValid j)) j := by
    by_cases zero : j = 0
    · subst j
      simpa [InOperation] using Or.inl marked
    · have one : j = 1 := by omega
      have null : k = 0 := by omega
      subst j k
      simpa [InOperation] using And.intro unmarked marked
  have answers {other : UInt8} (realOther : other ≠ itemFieldIdle) {len : Nat}
      (shortOther : len < u16Mod)
      : stored ((m'.program (moduleSector b id k).base (headBytes id nvSectorInvalid j)).program
          (moduleSector b id j).base (headBytes id nvSectorValid j)) entries other len
        = stored m' entries other len := by
    have fits := ready.chain.fits
    apply stored_congr realOther shortOther ready.chain.linked
    intro x low high
    rw [@head_apart b id _ j j _ rfl x (by omega) (by omega),
      @head_apart b id _ k j _ rfl x (by omega) (by omega)]
  refine {
    store := both.store different
    failed := fun bad => absurd rfl bad
    written := ?_
  }
  intro steady good
  refine ⟨entries, ⟨both.own, operation, both.new, fun empty => absurd empty both.newUsed⟩,
    marked, ready.sizes, ?_, ?_⟩
  · intro other foreign realOther len shortOther
    rw [answers realOther shortOther]
    exact ready.others good steady other foreign realOther len shortOther
  · rw [answers real short]
    exact ready.itself good steady

/-- Writing the new item into the prepared sector touches nothing else. -/
theorem fill_meets {d d' erased : Dev} {entries : List InfoIdx} (store : Store b id k es d.mem)
    (different : j ≠ k) (blanked : Erased (moduleSector b id j) d erased)
    (moved : Moved env (moduleSector b id j) erased
      (es.filter (nvFlashWriteNew.keeps single itemId)) entries d')
    (real : itemId ≠ itemFieldIdle) (room : entries.length < (moduleSector b id j).slots)
    (fits : nextFree (moduleSector b id j).ctx entries + (buf.length + 8)
      ≤ (moduleSector b id j).limit)
    : Prog.Meets (Structural b id) env (Spare b id j d.mem)
        (nvWriteItem b id itemId j entries.length (.ram buf)) d'
        (fun ret d'' => (∃ l, Ready env b id k j es single itemId buf d.mem ret l d''.mem)
          ∧ ItemStatus env d' ret (.ram buf)) := by
  apply (nvWriteItem_meets itemId (.ram buf) moved.chain room fits).mono
  · intro m' cut
    exact ((cut.filling room fits moved.outside).spare blanked).1
  · rintro ret d'' ⟨⟨state, appended⟩, status, _⟩
    exact ⟨⟨_, moved.ready store different rfl blanked real room fits appended⟩, status⟩

/-- Switching over: the flags of both sectors, in the order the driver sets them. -/
theorem markSectors_leaves_meets {d' : Dev} {entries : List InfoIdx} {wItemIdx : Nat}
    (store : Store b id k es m) (different : j ≠ k)
    (ready : Ready env b id k j es single itemId buf m ret entries d'.mem) (used : es ≠ [])
    (real : itemId ≠ itemFieldIdle) (short : buf.length < u16Mod)
    : Prog.Meets (Structural b id) env (fun m' => ∃ i l, Store b id i l m')
        (nvFlashWriteNew.markSectors b id k j wItemIdx true ret) d'
        (fun _ d'' => Rolled env b id k j es single itemId buf m ret d''.mem) := by
  have both := ready.both store different used
  unfold nvFlashWriteNew.markSectors
  by_cases good : ret = .succ
  · subst ret
    have rolled := ready.rolled store different used real short
    simp only [if_true]
    apply Prog.Meets.bind (flashWrite_meets (both.store different) (both.invalid.store different))
    rintro _ d₂ ⟨_, first⟩
    have bounds := (moduleSector b id j).idxAddr_bounds (moduleSector b id j).slots_pos
    have boundsOld := (moduleSector b id k).idxAddr_bounds (moduleSector b id k).slots_pos
    have apart := @moduleSector_apart b id j k different
    have middle : Both b id k j es entries d₂.mem
        ∧ d₂.mem.BlankOn (moduleSector b id j).base ((moduleSector b id j).base + 4) := by
      rcases first with reached | ⟨_, lost⟩
      · rw [reached]
        refine ⟨both.invalid, fun x low high => ?_⟩
        rw [Mem.program_outside]
        · exact ready.blank x low high
        · change x < (moduleSector b id k).base ∨ (moduleSector b id k).base + 4 ≤ x
          omega
      · rw [lost]
        exact ⟨both, ready.blank⟩
    apply (flashWrite_meets (middle.1.store different)
      ((middle.1.valid middle.2).store different)).mono (fun _ held => held)
    rintro _ d₃ ⟨_, second⟩
    refine {
      store := ?_
      failed := fun bad => absurd rfl bad
      written := ?_
    }
    · rcases second with reached | ⟨_, lost⟩
      · rw [reached]
        exact (middle.1.valid middle.2).store different
      · rw [lost]
        exact middle.1.store different
    · intro steady
      have flagged : d₃.mem
          = (d'.mem.program (moduleSector b id k).base (headBytes id nvSectorInvalid j)).program
              (moduleSector b id j).base (headBytes id nvSectorValid j) := by
        rcases second with reached | ⟨refused, _⟩
        · rcases first with reachedFirst | ⟨refused, _⟩
          · rw [reached, reachedFirst]
            rfl
          · rw [steady.accepts] at refused
            contradiction
        · rw [steady.accepts] at refused
          contradiction
      rw [flagged]
      exact rolled.written steady
  · simp only [good, if_false]
    exact .silent (both.store different) rfl
      {
        store := both.store different
        failed := fun _ => ready.spare
        written := fun _ yes => absurd yes good
      }

/-- A call that moves to the other sector, once that sector is prepared. -/
theorem commit_leaves_meets {d d' erased : Dev} {entries : List InfoIdx}
    (store : Store b id k es d.mem) (different : j ≠ k) (used : es ≠ [])
    (blanked : Erased (moduleSector b id j) d erased)
    (moved : Moved env (moduleSector b id j) erased
      (es.filter (nvFlashWriteNew.keeps single itemId)) entries d')
    (real : itemId ≠ itemFieldIdle) (room : entries.length < (moduleSector b id j).slots)
    (fits : nextFree (moduleSector b id j).ctx entries + (buf.length + 8)
      ≤ (moduleSector b id j).limit)
    : Prog.Meets (Structural b id) env (fun m' => ∃ i l, Store b id i l m')
        (nvFlashWriteNew.commit b single id itemId buf k j entries.length true) d'
        (fun ret d'' => Rolled env b id k j es single itemId buf d.mem ret d''.mem) := by
  have small := (moduleSector b id j).size_small
  have area := le_nextFree (moduleSector b id j).ctx entries
  have short : buf.length < u16Mod := by
    simp only [Sector.ctx, Sector.limit, u16Mod] at *
    omega
  unfold nvFlashWriteNew.commit
  apply Prog.Meets.read
  change Prog.Meets _ _ _ (nvWriteItem b id itemId j entries.length (.ram buf) >>= fun ret =>
    nvFlashWriteNew.markDeleted b id j (previousSlot b single id itemId buf.length j d'.mem)
      >>= _) _ _
  rw [moved.noPrevious rfl real]
  apply Prog.Meets.bind ((fill_meets store different blanked moved real room fits).mono
    (fun m' spare => ⟨k, es, spare.store store different⟩) (fun _ _ post => post))
  rintro ret d₂ ⟨⟨l, ready⟩, _⟩
  apply Prog.Meets.skip rfl
  apply Prog.Meets.bind (markSectors_leaves_meets store different ready used real short)
  rintro _ d₃ rolled
  apply Prog.Meets.skip (trace_flashLock env d₃)
  rw [run_flashLock]
  exact .silent rolled.store rfl rolled

end Rollover

end TelinkSdk
