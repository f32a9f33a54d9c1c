import Mathlib.Data.List.Forall2
import TelinkSdk.Drivers.NvModule

/-! What `nv_flashReadNew` returns and where `nv_flashWriteNew` is about to write, as
functions of the chain in the sector in operation.
-/

namespace TelinkSdk

open Nor

-----------------------------------------------------------------------------------------
-- Stored items
-----------------------------------------------------------------------------------------

/-- The payload an entry points to, if the head stored there agrees with the request. -/
def itemAt (m : Mem) (itemId : UInt8) (len : Nat) (e : InfoIdx) : Option (List UInt8) :=
  let hdr := ItemHdr.load m e.offset
  if hdr.size = len ∧ hdr.used = itemFieldValid ∧ hdr.itemId = itemId then
    some (m.read (e.offset + sizeofItemHdr) len)
  else none

/-- What a chain answers to a request: the payload behind the last matching entry. -/
def stored (m : Mem) (es : List InfoIdx) (itemId : UInt8) (len : Nat) : Option (List UInt8) :=
  (lastEntry es itemId len).bind (itemAt m itemId len)

theorem ItemHdr.load_congr {m m' : Mem} {addr addr' : Nat}
    (same : ∀ i < 8, m' (addr' + i) = m (addr + i))
    : ItemHdr.load m' addr' = ItemHdr.load m addr := by
  have entry : InfoIdx.load m' addr' = InfoIdx.load m addr := InfoIdx.load_congr same
  simp only [InfoIdx.load, InfoIdx.mk.injEq] at entry
  simp only [ItemHdr.load, entry]

/-- A head is read back once its eight bytes are in place. -/
theorem ItemHdr.load_of_bytes {m : Mem} {addr : Nat} {h : ItemHdr} (sum : h.checkSum < u32Mod)
    (size : h.size < u16Mod) (placed : ∀ i < 8, m (addr + i) = h.bytes.getD i blankByte)
    : ItemHdr.load m addr = h := by
  have entry : InfoIdx.load m addr
      = { offset := h.checkSum, size := h.size, itemId := h.itemId, usedState := h.used } :=
    InfoIdx.load_of_bytes sum size placed
  simp only [InfoIdx.load, InfoIdx.mk.injEq] at entry
  simp only [ItemHdr.load, entry]

/-- Items agree where the arrays do, also when the item moved. -/
theorem itemAt_congr {m m' : Mem} {itemId : UInt8} {len : Nat} {e e' : InfoIdx}
    (same : ∀ i < len + 8, m' (e'.offset + i) = m (e.offset + i))
    : itemAt m' itemId len e' = itemAt m itemId len e := by
  have head : ItemHdr.load m' e'.offset = ItemHdr.load m e.offset :=
    ItemHdr.load_congr (fun i inside => same i (by omega))
  have body : m'.read (e'.offset + 8) len = m.read (e.offset + 8) len := by
    apply Mem.read_congr
    intro i inside
    rw [Nat.add_assoc, Nat.add_assoc]
    exact same (8 + i) (by omega)
  simp only [itemAt, head, sizeofItemHdr, body]

-----------------------------------------------------------------------------------------
-- Searching for an item
-----------------------------------------------------------------------------------------

/-- A slot answers a request for an item exactly if it is valid and has its id and size. -/
theorem hit_iff {itemId : UInt8} (real : itemId ≠ itemFieldIdle) {len : Nat} {e : InfoIdx}
    : nvIndexRead.hit itemId len e = true
      ↔ e.usedState = itemFieldValid ∧ e.size = itemTotalLen len % u16Mod
        ∧ e.itemId = itemId := by
  simp [nvIndexRead.hit, real, and_assoc]

theorem lastEntry_mem {es : List InfoIdx} {itemId : UInt8} {len : Nat} {e : InfoIdx}
    (found : lastEntry es itemId len = some e)
    : e ∈ es ∧ nvIndexRead.hit itemId len e = true := by
  have member := List.mem_of_getLast? found
  rwa [List.mem_filter] at member

theorem lastEntry_append (es : List InfoIdx) (e : InfoIdx) (itemId : UInt8) (len : Nat)
    : lastEntry (es ++ [e]) itemId len
      = if nvIndexRead.hit itemId len e then some e else lastEntry es itemId len := by
  unfold lastEntry
  rw [List.filter_append, List.getLast?_append]
  cases hit : nvIndexRead.hit itemId len e <;> simp [hit]

/-- An appended entry that is no hit changes no answer. -/
theorem stored_append_miss {m : Mem} {es : List InfoIdx} {e : InfoIdx} {itemId : UInt8}
    {len : Nat} (miss : nvIndexRead.hit itemId len e = false)
    : stored m (es ++ [e]) itemId len = stored m es itemId len := by
  simp [stored, lastEntry_append, miss]

theorem stored_append_hit {m : Mem} {es : List InfoIdx} {e : InfoIdx} {itemId : UInt8}
    {len : Nat} (hit : nvIndexRead.hit itemId len e = true)
    : stored m (es ++ [e]) itemId len = itemAt m itemId len e := by
  simp [stored, lastEntry_append, hit]

/-- Two chains that match slot by slot give the same last entry, up to the match. -/
theorem last_filter_rel {α : Type} {R : α → α → Prop} {p : α → Bool} {l l' : List α}
    (related : List.Forall₂ R l l') (agree : ∀ a a', R a a' → p a = p a')
    : Option.Rel R (l.filter p).getLast? (l'.filter p).getLast? := by
  have filtered : List.Forall₂ R (l.filter p) (l'.filter p) := by
    induction related with
    | nil => exact .nil
    | @cons a a' rest rest' head _ ih =>
        rw [List.filter_cons, List.filter_cons, agree a a' head]
        split
        · exact .cons head ih
        · exact ih
  generalize l.filter p = kept, l'.filter p = kept' at filtered
  induction filtered with
  | nil => exact .none
  | @cons a a' rest rest' head _ ih =>
      rw [List.getLast?_cons, List.getLast?_cons]
      generalize rest.getLast? = last, rest'.getLast? = last' at ih
      cases ih with
      | none => exact .some head
      | some here => exact .some here

/-- Chains whose entries match slot by slot in id, size and state, and whose items have the
same bytes, give the same answers.
-/
theorem stored_rel {m m' : Mem} {es es' : List InfoIdx} {itemId : UInt8} {len : Nat}
    (real : itemId ≠ itemFieldIdle) (short : len < u16Mod)
    (sizes : ∀ e ∈ es, 8 ≤ e.size)
    (related : List.Forall₂ (fun e e' => e'.size = e.size ∧ e'.itemId = e.itemId
      ∧ e'.usedState = e.usedState ∧ ∀ i < e.size, m' (e'.offset + i) = m (e.offset + i)) es es')
    : stored m' es' itemId len = stored m es itemId len := by
  have hits : ∀ e e' : InfoIdx, (e'.size = e.size ∧ e'.itemId = e.itemId
      ∧ e'.usedState = e.usedState ∧ ∀ i < e.size, m' (e'.offset + i) = m (e.offset + i))
      → nvIndexRead.hit itemId len e = nvIndexRead.hit itemId len e' := by
    rintro e e' ⟨size, name, state, _⟩
    simp [nvIndexRead.hit, real, size, name, state]
  have last := last_filter_rel related hits
  unfold stored lastEntry
  cases found : (es.filter (nvIndexRead.hit itemId len)).getLast? with
  | none =>
      rw [found] at last
      cases missing : (es'.filter (nvIndexRead.hit itemId len)).getLast? with
      | none => rfl
      | some e' =>
          rw [missing] at last
          cases last
  | some e =>
      rw [found] at last
      cases there : (es'.filter (nvIndexRead.hit itemId len)).getLast? with
      | none =>
          rw [there] at last
          cases last
      | some e' =>
          rw [there] at last
          cases last with
          | some match_ =>
              obtain ⟨member, hit⟩ := lastEntry_mem found
              have wide := sizes e member
              have width := ((hit_iff real).mp hit).2.1
              simp only [itemTotalLen, sizeofItemHdr, u16Mod] at width short
              exact itemAt_congr (fun i inside => match_.2.2.2 i (by omega))

/-- A chain answers the same as long as its items keep their bytes. -/
theorem stored_congr {s : Sector} {m m' : Mem} {es : List InfoIdx} {itemId : UInt8} {len : Nat}
    (real : itemId ≠ itemFieldIdle) (short : len < u16Mod) (linked : Linked s.ctx es)
    (same : ∀ x, s.ctx ≤ x → x < nextFree s.ctx es → m' x = m x)
    : stored m' es itemId len = stored m es itemId len := by
  apply stored_rel real short (fun e member => (linked.inside member).2.1)
  rw [List.forall₂_same]
  intro e member
  obtain ⟨low, _, high⟩ := linked.inside member
  exact ⟨rfl, rfl, rfl, fun i inside => same _ (by omega) (by omega)⟩

/-- Marking an entry invalid hides only the requests that entry could answer. -/
theorem stored_markEntry {m : Mem} {es : List InfoIdx} {i : Nat} (inside : i < es.length)
    {itemId : UInt8} (real : itemId ≠ itemFieldIdle) {len : Nat} (other : es[i].itemId ≠ itemId)
    (value : UInt8)
    : stored m (markEntry es i value) itemId len = stored m es itemId len := by
  have same : (markEntry es i value).filter (nvIndexRead.hit itemId len)
      = es.filter (nvIndexRead.hit itemId len) := by
    have parts : es = es.take i ++ es[i] :: es.drop (i + 1) := by simp
    have marked : markEntry es i value
        = es.take i ++ { es[i] with usedState := es[i].usedState &&& value }
          :: es.drop (i + 1) := by
      rw [markEntry, List.modify_eq_take_cons_drop inside]
    have miss (e : InfoIdx) (name : e.itemId = es[i].itemId)
        : nvIndexRead.hit itemId len e = false := by
      rw [Bool.eq_false_iff]
      intro hit
      exact other (name ▸ ((hit_iff real).mp hit).2.2)
    rw [marked]
    conv_rhs => rw [parts]
    rw [List.filter_append, List.filter_append, List.filter_cons_of_neg (by simp [miss]),
      List.filter_cons_of_neg (by simp [miss])]
  simp only [stored, lastEntry, same]

-----------------------------------------------------------------------------------------
-- The answers of a module
-----------------------------------------------------------------------------------------

section Answers

variable {b : Build} {id : Fin nvMaxModuls} {k : Fin 2} {es : List InfoIdx} {m : Mem}

theorem indexRead_eq (m : Mem) (itemId : UInt8) (len : Nat)
    : nvIndexRead b m id itemId len k (moduleIdxNum id)
      = lastBelow (moduleSector b id k).slots
          (fun i => nvIndexRead.hit itemId len ((moduleSector b id k).entry m i)) :=
  nvIndexRead_eq b m id itemId len k (moduleIdxNum id)

/-- A read finds nothing without a sector marked valid, and else what the chain holds. -/
theorem Store.read (store : Store b id k es m) {itemId : UInt8} (real : itemId ≠ itemFieldIdle)
    (len : Nat)
    : nvFlashReadNew b m id itemId len
      = if Marked b id m k then stored m es itemId len else none := by
  rw [nvFlashReadNew, store.sectorRead]
  by_cases marked : Marked b id m k
  · simp only [marked, if_true, store.own k marked, indexRead_eq]
    rw [stored, ← store.chain.scan_entry itemId len]
    cases found : lastBelow (moduleSector b id k).slots
        (fun i => nvIndexRead.hit itemId len ((moduleSector b id k).entry m i)) with
    | none => rfl
    | some i =>
        have hit := (lastBelow_some found).2
        have valid := ((hit_iff real).mp hit).1
        simp only [Option.map_some, Option.bind_some, nvFlashReadByIndex]
        change (if (((moduleSector b id k).entry m i).usedState ≠ itemFieldValid) then none else _)
          = _
        rw [if_neg (by simp [valid])]
        rfl
  · simp [marked]

/-- The place after the chain, as the driver reads it off the last slot in use. -/
theorem Chain.lastEnd {s : Sector} {es : List InfoIdx} {m : Mem} (chain : Chain s es m)
    {n : Nat} (last : es.length = n + 1)
    : (s.entry m n).offset % 4 = 0
      ∧ (s.entry m n).offset + (s.entry m n).size ≤ nextFree s.ctx es
      ∧ nextFree s.ctx es = alignUp ((s.entry m n).offset + (s.entry m n).size) := by
  have split : es = es.dropLast ++ [es[n]] := by
    have concat := List.dropLast_concat_getLast (List.ne_nil_of_length_eq_add_one last)
    have final : es.getLast (List.ne_nil_of_length_eq_add_one last) = es[n] := by
      simp [List.getLast_eq_getElem, last]
    rw [final] at concat
    exact concat.symm
  have linked := chain.linked
  rw [chain.slot n (by omega)]
  rw [split] at linked
  have place := (linked_append.mp linked).2.1
  have finish : nextFree s.ctx es = alignUp (es[n].offset + es[n].size) := by
    conv_lhs => rw [split]
    rw [nextFree_append, place]
  have aligned : es[n].offset % 4 = 0 := by
    rw [place]
    exact nextFree_aligned _ s.ctx_aligned
  exact ⟨aligned, finish ▸ le_alignUp _, finish⟩

/-- The offset of the next item is the place after the chain. -/
theorem Chain.offset {es : List InfoIdx} {m : Mem} (chain : Chain (moduleSector b id k) es m)
    : nvWriteItem.offset b id k es.length m = nextFree (moduleSector b id k).ctx es := by
  unfold nvWriteItem.offset
  cases count : es.length with
  | zero =>
      have empty : es = [] := List.length_eq_zero_iff.mp count
      rw [empty, if_pos rfl]
      rfl
  | succ n =>
      obtain ⟨_, low, finish⟩ := chain.lastEnd count
      have fits := chain.fits
      have bounded := (moduleSector b id k).bounded
      rw [if_neg (by omega), Nat.add_sub_cancel, finish]
      apply roundUp4_eq_alignUp
      change ((moduleSector b id k).entry m n).offset + ((moduleSector b id k).entry m n).size + 3
        < u32Mod
      simp only [Sector.limit] at fits
      simp only [u32Mod]
      omega

/-- Where the next write of an item goes: to the next slot, unless the table is full or the
unrounded end of the last item leaves too little room.
-/
theorem Store.place (store : Store b id k es m) {len : Nat} (short : len < u16Mod)
    : nvFlashWriteNew.place b m id len
      = if es = [] then { opSect := k, wItemIdx := 0, sectorUpdate := false }
        else if es.length = (moduleSector b id k).slots
            ∨ ((moduleSector b id k).entry m (es.length - 1)).offset
                + ((moduleSector b id k).entry m (es.length - 1)).size + (len + 8)
              > (moduleSector b id k).limit then
          { opSect := k, wItemIdx := es.length - 1, sectorUpdate := true }
        else { opSect := k, wItemIdx := es.length, sectorUpdate := false } := by
  unfold nvFlashWriteNew.place
  simp only [store.opSect, indexRead_eq, store.chain.scan_used]
  cases count : es.length with
  | zero =>
      have empty : es = [] := List.length_eq_zero_iff.mp count
      simp [empty]
  | succ n =>
      have used : es ≠ [] := List.ne_nil_of_length_eq_add_one count
      obtain ⟨_, low, finish⟩ := store.chain.lastEnd count
      have fits := store.chain.fits
      have bounded := (moduleSector b id k).bounded
      have slots := (moduleSector b id k).slots_pos
      simp only [if_neg used, Nat.add_one_ne_zero, if_false, Nat.add_sub_cancel]
      have small : ((moduleSector b id k).entry m n).offset
          + ((moduleSector b id k).entry m n).size + itemTotalLen len < u32Mod := by
        simp only [Sector.limit] at fits
        simp only [itemTotalLen, sizeofItemHdr, u32Mod, u16Mod] at *
        omega
      change (if n = (moduleSector b id k).slots - 1
          ∨ (((moduleSector b id k).entry m n).offset
              + ((moduleSector b id k).entry m n).size + itemTotalLen len) % u32Mod
            > moduleSectEnd b id k then _ else _) = _
      rw [Nat.mod_eq_of_lt small, ← moduleSector_limit]
      have full : n = (moduleSector b id k).slots - 1 ↔ n + 1 = (moduleSector b id k).slots := by
        omega
      simp only [full, itemTotalLen, sizeofItemHdr]

end Answers

end TelinkSdk
