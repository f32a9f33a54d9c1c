import TelinkSdk.Drivers.NvCall

/-! Without faults a module of the NV store is a finite map from item ids to values. -/

namespace TelinkSdk

open Nor

/-- The map that a module stands for. -/
abbrev ItemMap := UInt8 → Option (List UInt8)

def ItemMap.empty : ItemMap := fun _ => none

def ItemMap.put (f : ItemMap) (itemId : UInt8) (buf : List UInt8) : ItemMap :=
  fun other => if other = itemId then some buf else f other

/-- The array after a sequence of calls. -/
def NvCall.runAll (b : Build) (id : Fin nvMaxModuls) : List NvCall → Mem → Mem
  | [], m => m
  | c :: rest, m => NvCall.runAll b id rest (c.after b id m)

/-- The map after a sequence of calls: every call that reports success puts its value. -/
def NvCall.mapAll (b : Build) (id : Fin nvMaxModuls) : List NvCall → Mem → ItemMap → ItemMap
  | [], _, f => f
  | c :: rest, m, f =>
      NvCall.mapAll b id rest (c.after b id m)
        (if c.status b id m = .succ then f.put c.itemId c.buf else f)

/-- A fixed length for every item, a 16-bit multiple of four. -/
structure ItemLengths where
  len : UInt8 → Nat
  short : ∀ itemId, len itemId < u16Mod
  rounded : ∀ itemId, len itemId % 4 = 0

/-- A complete call without faults that writes an item with its own length. -/
structure PlainWrite (lens : ItemLengths) (c : NvCall) : Prop where
  single : c.single = true
  whole : c.cut = none
  unskipped : ∀ n, c.skipped n = false
  granted : ∀ n, c.noBuffer n = false
  length : c.buf.length = lens.len c.itemId

section Refinement

variable {b : Build} {id : Fin nvMaxModuls} {k : Fin 2} {es : List InfoIdx} {m : Mem}
  {lens : ItemLengths} {c : NvCall} {f : ItemMap}

/-- The module stands for the map `f`, and all its items have rounded sizes. -/
structure Represents (b : Build) (id : Fin nvMaxModuls) (lens : ItemLengths) (m : Mem)
    (f : ItemMap) : Prop where
  settled : ∃ k es, Settled b id k es m ∧ ∀ e ∈ es, e.size % 4 = 0
  reads : ∀ itemId, itemId ≠ itemFieldIdle → nvFlashReadNew b m id itemId (lens.len itemId) = f itemId

/-- Between rounded sizes nothing is lost to rounding, so the driver's test is exact. -/
theorem Store.fits_rounded (store : Store b id k es m) (rounded : ∀ e ∈ es, e.size % 4 = 0)
    (len : Nat)
    : Fits b id len m := by
  cases count : es.length with
  | zero =>
      have empty : es = [] := List.length_eq_zero_iff.mp count
      subst es
      exact store.fits_empty len
  | succ n =>
      intro admitted plain
      have used : es ≠ [] := List.ne_nil_of_length_eq_add_one count
      obtain ⟨place, -, inside⟩ := store.place_behind admitted.short used plain
      rw [place, store.chain.offset, ← moduleSector_limit]
      obtain ⟨aligned, _, finish⟩ := store.chain.lastEnd count
      have size : ((moduleSector b id k).entry m n).size % 4 = 0 := by
        rw [store.chain.slot n (by omega)]
        exact rounded _ (List.getElem_mem _)
      rw [count, Nat.add_sub_cancel] at inside
      rw [finish, alignUp_of_aligned (by omega)]
      simp only [itemTotalLen, sizeofItemHdr]
      omega

theorem Represents.fits (represents : Represents b id lens m f) (len : Nat)
    : Fits b id len m := by
  obtain ⟨k, es, settled, rounded⟩ := represents.settled
  exact settled.store.fits_rounded rounded len

/-- One call takes the map to the one with its value put, or leaves it on failure. -/
theorem Represents.step (represents : Represents b id lens m f) (write : PlainWrite lens c)
    : Represents b id lens (c.after b id m)
        (if c.status b id m = .succ then f.put c.itemId c.buf else f) := by
  obtain ⟨k, es, settled, sizes⟩ := represents.settled
  obtain ⟨i, l, done⟩ := NvCall.completed settled write.whole write.unskipped
    (represents.fits c.buf.length)
  refine { settled := ⟨i, l, done.settled, ?_⟩, reads := ?_ }
  · intro e member
    rcases done.sizes e member with new | ⟨e', member', same⟩
    · have rounded := lens.rounded c.itemId
      rw [new, write.length]
      omega
    · rw [same]
      exact sizes e' member'
  · intro other real
    by_cases here : other = c.itemId
    · subst other
      rw [← write.length]
      by_cases good : c.status b id m = .succ
      · rw [if_pos good, done.written good]
        simp [ItemMap.put]
      · rw [if_neg good, done.failed good _ c.short, write.length]
        exact represents.reads _ real
    · have same : (if c.status b id m = .succ then f.put c.itemId c.buf else f) other = f other := by
        split
        · exact if_neg here
        · rfl
      rw [same, ← represents.reads other real]
      exact done.others other here real _ (lens.short other)

/-- A run takes the map along, by induction on the calls. -/
theorem Represents.run (represents : Represents b id lens m f) {calls : List NvCall}
    (writes : ∀ c ∈ calls, PlainWrite lens c)
    : Represents b id lens (NvCall.runAll b id calls m) (NvCall.mapAll b id calls m f) := by
  induction calls generalizing m f with
  | nil => exact represents
  | cons c rest ih =>
      exact ih (represents.step (writes c List.mem_cons_self))
        (fun later member => writes later (List.mem_cons_of_mem c member))

/-- An erased module stands for the empty map. -/
theorem Represents.erased (blank : m.BlankOn (modulesStartAddr b id) (moduleEnd b id))
    : Represents b id lens m ItemMap.empty := by
  refine { settled := ⟨0, [], Settled.erased blank, by simp⟩, reads := ?_ }
  intro itemId real
  rw [(Store.erased blank).read real]
  simp [stored, lastEntry, ItemMap.empty]

/-- From its erased area on, a module refines a finite map: after any sequence of complete
calls every item reads as the value of the last call on it that reported success, and is
not found where there was none.
-/
theorem nvFlashWriteNew_refines_map (b : Build) (id : Fin nvMaxModuls) (lens : ItemLengths)
    (m : Mem) (blank : m.BlankOn (modulesStartAddr b id) (moduleEnd b id)) (calls : List NvCall)
    (writes : ∀ c ∈ calls, PlainWrite lens c) (itemId : UInt8) (real : itemId ≠ itemFieldIdle)
    : nvFlashReadNew b (NvCall.runAll b id calls m) id itemId (lens.len itemId)
      = NvCall.mapAll b id calls m ItemMap.empty itemId :=
  ((Represents.erased blank).run writes).reads itemId real

end Refinement

/-- Two items of four bytes, the first of them written twice. -/
theorem nvFlashWriteNew_refines_map_twice
    : let lens : ItemLengths := ⟨fun _ => 4, fun _ => by decide, fun _ => by decide⟩
      let calls : List NvCall :=
        [
          { itemId := 1, buf := [1, 2, 3, 4] },
          { itemId := 2, buf := [5, 6, 7, 8] },
          { itemId := 1, buf := [9, 9, 9, 9] }
        ]
      nvFlashReadNew ⟨true, false⟩ (NvCall.runAll ⟨true, false⟩ 0 calls Mem.blank)
          (0 : Fin nvMaxModuls) 1 (lens.len 1)
        = NvCall.mapAll ⟨true, false⟩ 0 calls Mem.blank ItemMap.empty 1
        ∧ NvCall.mapAll ⟨true, false⟩ 0 calls Mem.blank ItemMap.empty 1 = some [9, 9, 9, 9] := by
  intro lens calls
  refine ⟨?_, by decide +kernel⟩
  apply nvFlashWriteNew_refines_map ⟨true, false⟩ 0 lens Mem.blank (fun _ _ _ => rfl) calls
  · intro c member
    simp only [calls, List.mem_cons, List.not_mem_nil, or_false] at member
    rcases member with rfl | rfl | rfl <;>
      exact ⟨rfl, rfl, fun _ => rfl, fun _ => rfl, rfl⟩
  · decide

end TelinkSdk
