import TelinkSdk.Drivers.NvChecksum
import TelinkSdk.Drivers.NvWrite

/-! The compaction of `nv_flashWriteNew`, from any old sector. Nothing is asked of the old table:
its valid entries are copied one behind the other, and if they do not fit, the room that the
loop has counted says so.
-/

namespace TelinkSdk

open Nor

-----------------------------------------------------------------------------------------
-- Compacted entries
-----------------------------------------------------------------------------------------

/-- Where compaction puts entries from `start` on: in order, each behind the one before. -/
def compacted (start : Nat) : List InfoIdx → List InfoIdx
  | [] => []
  | e :: rest => { e with offset := start } :: compacted (alignUp (start + e.size)) rest

theorem compacted_append (start : Nat) (es : List InfoIdx) (e : InfoIdx)
    : compacted start (es ++ [e])
      = compacted start es ++ [{ e with offset := nextFree start es }] := by
  induction es generalizing start with
  | nil => rfl
  | cons first rest ih => exact congrArg (List.cons _) (ih _)

/-- A compacted entry lies between the start and the place behind. -/
theorem compacted_inside {start : Nat} {es : List InfoIdx} {e : InfoIdx}
    (member : e ∈ compacted start es)
    : start ≤ e.offset ∧ e.offset + e.size ≤ nextFree start es := by
  induction es generalizing start with
  | nil => contradiction
  | cons first rest ih =>
      have ends := le_alignUp (start + first.size)
      have grows := le_nextFree (alignUp (start + first.size)) rest
      rcases List.mem_cons.mp member with rfl | later
      · simp only [nextFree]
        omega
      · obtain ⟨low, high⟩ := ih later
        simp only [nextFree]
        omega

/-- A compacted entry differs from the entry it stands for only in its offset. -/
theorem compacted_origin {start : Nat} {es : List InfoIdx} {e : InfoIdx}
    (member : e ∈ compacted start es)
    : ∃ origin ∈ es, e = { origin with offset := e.offset } := by
  induction es generalizing start with
  | nil => contradiction
  | cons first rest ih =>
      rcases List.mem_cons.mp member with rfl | later
      · exact ⟨first, List.mem_cons_self, rfl⟩
      · obtain ⟨origin, inside, same⟩ := ih later
        exact ⟨origin, List.mem_cons_of_mem _ inside, same⟩

theorem nextFree_mono (start : Nat) (front more : List InfoIdx)
    : nextFree start front ≤ nextFree start (front ++ more) := by
  rw [nextFree_append_list]
  exact le_nextFree _ _

-----------------------------------------------------------------------------------------
-- A table of compacted entries
-----------------------------------------------------------------------------------------

/-- The table of the sector holds exactly the entries of `es`, compacted; every other slot and the
context area behind them are blank.
-/
structure Laid (s : Sector) (es : List InfoIdx) (m : Mem) : Prop where
  count : es.length ≤ s.slots
  table : readIndexes m (s.idxAddr 0) es.length = compacted s.ctx es
  idle : ∀ i, es.length ≤ i → i < s.slots → m.BlankOn (s.idxAddr i) (s.idxAddr i + 8)
  fits : nextFree s.ctx es ≤ s.limit
  blank : m.BlankOn (nextFree s.ctx es) s.limit

section Laid

variable {s : Sector} {es : List InfoIdx} {m m' : Mem}

theorem Laid.empty (blank : m.BlankOn (s.base + 4) s.limit) : Laid s [] m := by
  have chain := Chain.empty blank
  exact ⟨chain.count, rfl, chain.idle, chain.fits, chain.blank⟩

theorem Laid.congr (laid : Laid s es m) (same : ∀ x, s.base + 4 ≤ x → x < s.limit → m' x = m x)
    : Laid s es m' := by
  have area := le_nextFree s.ctx es
  obtain ⟨first, last, context⟩ := s.idxAddr_bounds s.slots_pos
  refine { laid with table := ?_, idle := ?_, blank := ?_ }
  · rw [← laid.table]
    apply readIndexes_congr
    intro x low high
    have count := laid.count
    have slots := s.slots_fit
    simp only [Sector.idxAddr, Sector.ctx] at low high context
    exact same x (by omega) (by omega)
  · intro i low inside x start finish
    obtain ⟨begin_, end_, _⟩ := s.idxAddr_bounds inside
    rw [same x (by omega) (by omega)]
    exact laid.idle i low inside x start finish
  · intro x low high
    rw [same x (by omega) high]
    exact laid.blank x low high

/-- The last entry that was put down. -/
theorem Laid.last (laid : Laid s es m) {front : List InfoIdx} {e : InfoIdx}
    (split : es = front ++ [e])
    : InfoIdx.load m (s.idxAddr front.length) = { e with offset := nextFree s.ctx front } := by
  have table := laid.table
  rw [split, compacted_append, List.length_append, List.length_singleton, readIndexes_add] at table
  have last := List.append_inj' table rfl
  simpa [readIndexes, Sector.idxAddr] using last.2

/-- The next item goes behind the entries. -/
theorem Laid.offset {b : Build} {id : Fin nvMaxModuls} {k : Fin 2}
    (laid : Laid (moduleSector b id k) es m)
    : nvWriteItem.offset b id k es.length m = nextFree (moduleSector b id k).ctx es := by
  rcases List.eq_nil_or_concat es with rfl | ⟨front, e, split⟩
  · rfl
  · rw [List.concat_eq_append] at split
    have loaded := laid.last split
    have fits := laid.fits
    have bounded := (moduleSector b id k).bounded
    rw [split, nextFree_append] at fits ⊢
    have slot : moduleIdxStart b id k + ((front ++ [e]).length - 1) * sizeofInfoIdx
        = (moduleSector b id k).idxAddr front.length := by
      simp [moduleSector_idxAddr]
    have finish := le_alignUp (nextFree (moduleSector b id k).ctx front + e.size)
    rw [nvWriteItem.offset, if_neg (by simp), slot, loaded]
    apply roundUp4_eq_alignUp
    simp only [Sector.limit, u32Mod] at *
    omega

/-- Putting down one more entry: its slot reads back, its item takes blank bytes, and the bytes
around slot and item stay.
-/
theorem Laid.append (laid : Laid s es m) {e : InfoIdx} (room : es.length < s.slots)
    (fits : nextFree s.ctx es + e.size ≤ s.limit)
    (slot : InfoIdx.load m' (s.idxAddr es.length) = { e with offset := nextFree s.ctx es })
    (outside : ∀ x, (x < s.idxAddr es.length ∨ s.idxAddr es.length + 8 ≤ x)
      → (x < nextFree s.ctx es ∨ nextFree s.ctx es + e.size ≤ x) → m' x = m x)
    : Laid s (es ++ [e]) m' := by
  have area := le_nextFree s.ctx es
  obtain ⟨first, last, context⟩ := s.idxAddr_bounds room
  refine {
    count := ?_
    table := ?_
    idle := ?_
    fits := ?_
    blank := ?_
  }
  · rw [List.length_append, List.length_singleton]
    exact room
  · rw [List.length_append, List.length_singleton, readIndexes_add, compacted_append, ← laid.table]
    congr 1
    · apply readIndexes_congr
      intro x low high
      simp only [Sector.idxAddr] at low high last
      exact outside x (Or.inl (by simp only [Sector.idxAddr]; omega)) (Or.inl (by omega))
    · have address : s.idxAddr 0 + es.length * sizeofInfoIdx = s.idxAddr es.length := by
        simp [Sector.idxAddr]
      rw [address, ← slot]
      simp [readIndexes]
  · intro i low inside x start finish
    rw [List.length_append, List.length_singleton] at low
    obtain ⟨begin_, end_, _⟩ := s.idxAddr_bounds inside
    have apart := s.idxAddr_apart (show i ≠ es.length by omega)
    rw [outside x (by omega) (Or.inl (by omega))]
    exact laid.idle i (by omega) inside x start finish
  · rw [nextFree_append]
    exact alignUp_le fits s.limit_aligned
  · intro x low high
    have ends := le_alignUp (nextFree s.ctx es + e.size)
    rw [nextFree_append] at low
    rw [outside x (by omega) (by omega)]
    exact laid.blank x (by omega) high

end Laid

-----------------------------------------------------------------------------------------
-- Writing behind the entries
-----------------------------------------------------------------------------------------

section Writing

variable {env : Env} {b : Build} {id : Fin nvMaxModuls} {k : Fin 2} {es : List InfoIdx}
  {d d₂ : Dev} {itemId : UInt8} {source : ItemSource} {size : Nat}

/-- The entry of the item that is put down next. -/
def Sector.placeEntry (s : Sector) (es : List InfoIdx) (itemId : UInt8) (size : Nat)
    (usedState : UInt8) : InfoIdx :=
  { offset := nextFree s.ctx es, size, itemId, usedState }

/-- A steady item write whose contents succeed inside the item puts down one more entry. -/
theorem Laid.write (steady : env.Steady) (laid : Laid (moduleSector b id k) es d.mem)
    (room : es.length < (moduleSector b id k).slots)
    (sized : itemTotalLen source.len % u16Mod = size)
    (fits : nextFree (moduleSector b id k).ctx es + size ≤ (moduleSector b id k).limit)
    (content : Prog.run env (nvWriteItem.content
        ((moduleSector b id k).placeEntry es itemId size itemFieldOperation) source)
        (nvWriteItem.indexed env b id itemId k es.length source.len d) = (.succ, d₂))
    (kept : ∀ x, (x < nextFree (moduleSector b id k).ctx es
        ∨ nextFree (moduleSector b id k).ctx es + size ≤ x)
      → d₂.mem x = (nvWriteItem.indexed env b id itemId k es.length source.len d).mem x)
    : ∃ d', Prog.run env (nvWriteItem b id itemId k es.length source) d = (.succ, d')
      ∧ Laid (moduleSector b id k)
          (es ++ [(moduleSector b id k).placeEntry es itemId size itemFieldValid]) d'.mem
      ∧ (∀ x, (x < (moduleSector b id k).idxAddr es.length
            ∨ (moduleSector b id k).idxAddr es.length + 8 ≤ x)
          → (x < nextFree (moduleSector b id k).ctx es
            ∨ nextFree (moduleSector b id k).ctx es + size ≤ x) → d'.mem x = d.mem x)
      ∧ ∀ x, nextFree (moduleSector b id k).ctx es ≤ x → d'.mem x = d₂.mem x := by
  have area := le_nextFree (moduleSector b id k).ctx es
  obtain ⟨first, last, context⟩ := (moduleSector b id k).idxAddr_bounds room
  have bounded := (moduleSector b id k).bounded
  have small := (moduleSector b id k).size_small
  have limitEq : (moduleSector b id k).limit
    = (moduleSector b id k).base + (moduleSector b id k).size := rfl
  have ctxEq : (moduleSector b id k).ctx
    = (moduleSector b id k).base + (moduleSector b id k).info := rfl
  have entry : nvWriteItem.newIdx b id itemId k es.length source.len d.mem
      = (moduleSector b id k).placeEntry es itemId size itemFieldOperation := by
    rw [nvWriteItem.newIdx, laid.offset, sized]
    rfl
  have indexed : (nvWriteItem.indexed env b id itemId k es.length source.len d).mem
      = d.mem.program ((moduleSector b id k).idxAddr es.length)
          ((moduleSector b id k).placeEntry es itemId size itemFieldOperation).bytes := by
    rw [nvWriteItem.indexed, steady.issue_mem, entry]
    rfl
  have slotAddr : moduleIdxStart b id k + es.length * sizeofInfoIdx
    = (moduleSector b id k).idxAddr es.length := rfl
  have marked : (d₂.issue env
        (.program ((moduleSector b id k).idxAddr es.length + 7) [itemFieldValid])).mem
      = d₂.mem.program ((moduleSector b id k).idxAddr es.length + 7) [itemFieldValid] := by
    rw [steady.issue_mem]
    rfl
  -- the slot is programmed first and its state byte last
  have behind (x : Nat) (apart : x < (moduleSector b id k).idxAddr es.length
      ∨ (moduleSector b id k).idxAddr es.length + 8 ≤ x)
      : d₂.mem.program ((moduleSector b id k).idxAddr es.length + 7) [itemFieldValid] x
        = d₂.mem x :=
    Mem.program_outside (by simp only [List.length_singleton]; omega)
  have around (x : Nat) (slot : x < (moduleSector b id k).idxAddr es.length
      ∨ (moduleSector b id k).idxAddr es.length + 8 ≤ x)
      (item : x < nextFree (moduleSector b id k).ctx es
        ∨ nextFree (moduleSector b id k).ctx es + size ≤ x)
      : d₂.mem x = d.mem x := by
    rw [kept x item, indexed]
    exact Mem.program_outside (by simp only [InfoIdx.bytes_length]; omega)
  have slot : InfoIdx.load d₂.mem ((moduleSector b id k).idxAddr es.length)
      = (moduleSector b id k).placeEntry es itemId size itemFieldOperation := by
    apply InfoIdx.load_of_bytes
    · simp only [Sector.placeEntry, u32Mod]
      omega
    · simp only [Sector.placeEntry, u16Mod]
      omega
    · intro i inside
      rw [kept _ (Or.inl (by omega)), indexed]
      exact Mem.program_blank (by simpa using inside)
        (laid.idle es.length (Nat.le_refl _) room _ (by omega) (by omega))
  refine ⟨lockTo env true (d₂.issue env
    (.program ((moduleSector b id k).idxAddr es.length + 7) [itemFieldValid])), ?_, ?_, ?_, ?_⟩
  · rw [nvWriteItem.run_eq, entry, slotAddr, Prog.run_bind, content]
    simp only [nvWriteItem.markValid, if_true, Prog.run_bind, run_flashWrite, run_flashLock,
      Prog.run_pure]
  · rw [lockTo_mem, marked]
    apply laid.append room fits
    · have state : d₂.mem ((moduleSector b id k).idxAddr es.length + 7) = itemFieldOperation :=
        congrArg InfoIdx.usedState slot
      have masked : itemFieldOperation &&& itemFieldValid = itemFieldValid := by decide
      rw [InfoIdx.load_mark, slot, state, masked]
      rfl
    · intro x slotApart itemApart
      rw [behind x slotApart, around x slotApart itemApart]
  · intro x slotApart itemApart
    rw [lockTo_mem, marked, behind x slotApart, around x slotApart itemApart]
  · intro x low
    rw [lockTo_mem, marked, behind x (Or.inr (by omega))]

end Writing

-----------------------------------------------------------------------------------------
-- Copying
-----------------------------------------------------------------------------------------

/-- The entries `live` have been copied into the erased sector. -/
structure Compacted (s : Sector) (live : List InfoIdx) (m m' : Mem) : Prop where
  laid : Laid s live m'
  outside : ∀ x, (x < s.base + 4 ∨ s.limit ≤ x) → m' x = m x
  copies : List.Forall₂ (Copied s m m') live (compacted s.ctx live)

section Copying

variable {env : Env} {b : Build} {id : Fin nvMaxModuls} {k : Fin 2} {live : List InfoIdx}
  {m : Mem} {d : Dev} {e : InfoIdx}

theorem Laid.place {s : Sector} {es : List InfoIdx} {m : Mem} {state : UInt8}
    (valid : e.usedState = state)
    (laid : Laid s (es ++ [s.placeEntry es e.itemId e.size state]) m)
    : Laid s (es ++ [e]) m := by
  have count := laid.count
  have table := laid.table
  have idle := laid.idle
  have fits := laid.fits
  have blank := laid.blank
  simp only [compacted_append, nextFree_append, List.length_append, List.length_singleton,
    Sector.placeEntry, ← valid] at count table idle fits blank
  refine ⟨?_, ?_, ?_, ?_, ?_⟩ <;>
    simp only [compacted_append, nextFree_append, List.length_append, List.length_singleton]
  · exact count
  · exact table
  · exact idle
  · exact fits
  · exact blank

/-- The copy of an entry always reports success, wherever it goes. -/
theorem nvWriteItem.copy_succ (granted : ∀ n, env.noBuffer n = false) (itemId : UInt8)
    (id opSect opItemIdx addr len : Nat) (d : Dev)
    : (Prog.run env (nvWriteItem b id itemId opSect opItemIdx (.flash addr len)) d).1
      = .succ := by
  rw [nvWriteItem.run_eq, Prog.run_bind, nvWriteItem.run_content_flash, granted, if_neg (by simp)]
  simp only [Prog.run_bind, Prog.run_pure]

theorem nvWriteItem.indexed_untouched {itemId : UInt8} {id opSect opItemIdx len x : Nat}
    (apart : x < moduleIdxStart b id opSect + opItemIdx * sizeofInfoIdx
      ∨ moduleIdxStart b id opSect + opItemIdx * sizeofInfoIdx + 8 ≤ x)
    : (nvWriteItem.indexed env b id itemId opSect opItemIdx len d).mem x = d.mem x :=
  Dev.issue_untouched (by simp only [Cmd.Touches, InfoIdx.bytes_length]; omega)

/-- A copy that fits is put down behind the others. -/
theorem Compacted.copy (steady : env.Steady) (granted : ∀ n, env.noBuffer n = false)
    (done : Compacted (moduleSector b id k) live m d.mem) (valid : e.usedState = itemFieldValid)
    (narrow : e.size < u16Mod) (room : live.length < (moduleSector b id k).slots)
    (fits : nextFree (moduleSector b id k).ctx live + e.size ≤ (moduleSector b id k).limit)
    : ∃ d', Prog.run env (nvWriteItem b id e.itemId k live.length
          (.flash e.offset ((e.size + u16Mod - sizeofItemHdr) % u16Mod))) d = (.succ, d')
      ∧ Compacted (moduleSector b id k) (live ++ [e]) m d'.mem := by
  have area := le_nextFree (moduleSector b id k).ctx live
  obtain ⟨first, last, context⟩ := (moduleSector b id k).idxAddr_bounds room
  have sized : itemTotalLen
      (ItemSource.flash e.offset ((e.size + u16Mod - sizeofItemHdr) % u16Mod)).len % u16Mod
      = e.size := by
    simp only [ItemSource.len, itemTotalLen, sizeofItemHdr, u16Mod] at *
    omega
  let entry := (moduleSector b id k).placeEntry live e.itemId e.size itemFieldOperation
  let indexed := nvWriteItem.indexed env b id e.itemId k live.length
    ((e.size + u16Mod - sizeofItemHdr) % u16Mod) d
  have untouched (x : Nat) (apart : x < (moduleSector b id k).idxAddr live.length
      ∨ (moduleSector b id k).idxAddr live.length + 8 ≤ x)
      : indexed.mem x = d.mem x :=
    nvWriteItem.indexed_untouched apart
  obtain ⟨copied, kept⟩ := nvWriteItem.copy_steady steady e.size e.size e.offset entry.offset
    { indexed with allocs := indexed.allocs + 1 } (Nat.le_refl _) (by
      intro x low high
      simp only [entry, Sector.placeEntry] at low high
      exact (untouched x (Or.inr (by omega))).trans (done.laid.blank x low (by omega)))
  have content := nvWriteItem.run_content_flash env entry e.offset
    ((e.size + u16Mod - sizeofItemHdr) % u16Mod) indexed
  rw [granted, if_neg (by simp)] at content
  obtain ⟨d', written, laid, around, items⟩ :=
    done.laid.write steady room sized fits content kept
  refine ⟨d', written, laid.place valid, ?_, ?_⟩
  · intro x apart
    rw [around x (by omega) (by omega)]
    exact done.outside x apart
  · rw [compacted_append]
    apply List.rel_append
    · -- the items copied before lie below the new one
      apply forall₂_imp_mem done.copies
      intro old _ old' member held
      obtain ⟨low, high⟩ := compacted_inside member
      have size := held.size
      refine { held with bytes := ?_ }
      intro i inside apart
      rw [around _ (by omega) (by omega)]
      exact held.bytes i inside apart
    · refine .cons { size := rfl, itemId := rfl, usedState := valid, bytes := ?_ } .nil
      intro i inside apart
      have target := items (nextFree (moduleSector b id k).ctx live + i) (by omega)
      have origin : indexed.mem (e.offset + i) = m (e.offset + i) :=
        (untouched _ (by omega)).trans (done.outside _ (by omega))
      exact (target.trans (copied i inside (by simp only [entry, Sector.placeEntry]; omega))).trans
        origin

end Copying

-----------------------------------------------------------------------------------------
-- The copy loops
-----------------------------------------------------------------------------------------

/-- Inside the loops: the entries so far have been copied, or they do not fit and the room that
was counted is too large, whatever the copies have overwritten.
-/
def Compacting (s : Sector) (live : List InfoIdx) (m : Mem) (d : Dev) (copied : NvCopied) : Prop :=
  (Compacted s live m d.mem
      ∧ copied = { wItemIdx := live.length, sizeusedAddr := nextFree s.ctx live })
    ∨ (s.limit < nextFree s.ctx live ∧ s.limit < copied.sizeusedAddr)

theorem Compacting.beyond {s : Sector} {live more : List InfoIdx} {m : Mem} {d : Dev}
    {copied : NvCopied} (compacting : Compacting s (live ++ more) m d copied)
    (beyond : s.limit < nextFree s.ctx live)
    : s.limit < copied.sizeusedAddr := by
  rcases compacting with ⟨done, _⟩ | ⟨_, counted⟩
  · have fits := done.laid.fits
    have mono := nextFree_mono s.ctx live more
    omega
  · exact counted

section Loops

variable {env : Env} {b : Build} {id : Fin nvMaxModuls} {k : Fin 2} {m : Mem}

/-- Rounding within 32 bits. -/
theorem roundUp4_bounds {used size count : Nat} (narrow : size < u16Mod)
    (bound : used + (count + 1) * 65540 < 4294967296)
    : roundUp4 (used + size) = alignUp (used + size)
      ∧ roundUp4 (used + size) + count * 65540 ≤ used + (count + 1) * 65540 := by
  have rounded : roundUp4 (used + size) = alignUp (used + size) :=
    roundUp4_eq_alignUp (by simp only [u32Mod, u16Mod] at *; omega)
  refine ⟨rounded, ?_⟩
  simp only [rounded, alignUp, u16Mod] at *
  omega

/-- One read of slots, by induction on the slots. -/
theorem copyRead_run (steady : env.Steady) (granted : ∀ n, env.noBuffer n = false)
    (single : Bool) (itemId : UInt8) (l : List InfoIdx) (live : List InfoIdx) (d : Dev)
    (copied : NvCopied) (compacting : Compacting (moduleSector b id k) live m d copied)
    (sizes : ∀ e ∈ l, e.size < u16Mod)
    (room : live.length + l.length ≤ (moduleSector b id k).slots)
    (bound : copied.sizeusedAddr + l.length * 65540 < 4294967296)
    : ∃ copied' d',
        Prog.run env (nvFlashWriteNew.copyRead b single id itemId k l copied) d = (.ok copied', d')
        ∧ Compacting (moduleSector b id k)
            (live ++ l.filter (nvFlashWriteNew.keeps single itemId)) m d' copied'
        ∧ copied'.sizeusedAddr ≤ copied.sizeusedAddr + l.length * 65540 := by
  induction l generalizing live d copied with
  | nil =>
      rw [List.filter_nil, List.append_nil]
      exact ⟨copied, d, rfl, compacting, by simp⟩
  | cons e rest ih =>
      have narrow := sizes e List.mem_cons_self
      have later := fun e' member => sizes e' (List.mem_cons_of_mem e member)
      rw [List.length_cons] at room bound
      rw [nvFlashWriteNew.copyRead, List.length_cons]
      have shorter : copied.sizeusedAddr + rest.length * 65540
          ≤ copied.sizeusedAddr + (rest.length + 1) * 65540 :=
        Nat.add_le_add_left (Nat.mul_le_mul_right _ (Nat.le_succ _)) _
      have tail := Nat.lt_of_le_of_lt shorter bound
      by_cases keep : nvFlashWriteNew.keeps single itemId e = true
      case neg =>
          rw [if_neg keep, List.filter_cons_of_neg keep]
          obtain ⟨copied', d', run, next, used⟩ :=
            ih live d copied compacting later (by omega) tail
          exact ⟨copied', d', run, next, Nat.le_trans used shorter⟩
      case pos =>
          obtain ⟨rounded, grows⟩ := roundUp4_bounds narrow bound
          have valid : e.usedState = itemFieldValid := by
            simp only [nvFlashWriteNew.keeps, Bool.and_eq_true, beq_iff_eq] at keep
            exact keep.1
          have split : live ++ (e :: rest.filter (nvFlashWriteNew.keeps single itemId))
              = live ++ [e] ++ rest.filter (nvFlashWriteNew.keeps single itemId) := by simp
          rw [if_pos keep, List.filter_cons_of_pos keep, split, Prog.run_bind]
          have status := @nvWriteItem.copy_succ env b granted e.itemId id k copied.wItemIdx e.offset
            ((e.size + u16Mod - sizeofItemHdr) % u16Mod) d
          have step : Compacting (moduleSector b id k) (live ++ [e]) m
              (Prog.run env (nvWriteItem b id e.itemId k copied.wItemIdx
                (.flash e.offset ((e.size + u16Mod - sizeofItemHdr) % u16Mod))) d).2
              {
                wItemIdx := copied.wItemIdx + 1
                sizeusedAddr := roundUp4 (copied.sizeusedAddr + e.size)
              } := by
            rcases compacting with ⟨done, rfl⟩ | ⟨beyond, counted⟩
            · have room' : live.length < (moduleSector b id k).slots := by omega
              have free := nextFree_append (moduleSector b id k).ctx live e
              dsimp only at rounded
              by_cases fits : nextFree (moduleSector b id k).ctx live + e.size
                  ≤ (moduleSector b id k).limit
              · obtain ⟨d', written, next⟩ := done.copy steady granted valid narrow room' fits
                refine Or.inl ⟨?_, ?_⟩
                · rw [written]
                  exact next
                · rw [rounded, free, List.length_append, List.length_singleton]
              · have ends := le_alignUp (nextFree (moduleSector b id k).ctx live + e.size)
                refine Or.inr ⟨?_, ?_⟩
                · rw [free]
                  omega
                · dsimp only
                  rw [rounded]
                  omega
            · have mono := nextFree_mono (moduleSector b id k).ctx live [e]
              have ends := le_alignUp (copied.sizeusedAddr + e.size)
              refine Or.inr ⟨by omega, ?_⟩
              dsimp only
              rw [rounded]
              omega
          rw [if_pos status]
          obtain ⟨copied', d', run, next, used⟩ := ih (live ++ [e]) _ _ step later
            (by rw [List.length_append, List.length_singleton]; omega) (by dsimp only; omega)
          exact ⟨copied', d', run, next, by dsimp only at used; omega⟩

theorem readIndexes_narrow {m : Mem} {addr count : Nat}
    : ∀ e ∈ readIndexes m addr count, e.size < u16Mod := by
  intro e member
  obtain ⟨i, _, rfl⟩ := List.mem_map.mp member
  exact Mem.le16_lt _ _

/-- The whole table, four slots at a time, by induction on the slots left. As long as the copies
fit, the rounds read what was there at the start.
-/
theorem copyLive_run (steady : env.Steady) (granted : ∀ n, env.noBuffer n = false)
    (single : Bool) (itemId : UInt8) (fuel total start : Nat) (live : List InfoIdx) (d : Dev)
    (copied : NvCopied) (enough : total ≤ fuel)
    (compacting : Compacting (moduleSector b id k) live m d copied)
    (apart : start + total * 8 ≤ (moduleSector b id k).base
      ∨ (moduleSector b id k).limit ≤ start)
    (room : live.length + total ≤ (moduleSector b id k).slots)
    (bound : copied.sizeusedAddr + total * 65540 < 4294967296)
    : ∃ copied' d',
        Prog.run env (nvFlashWriteNew.copyLive b single id itemId k fuel total start copied) d
          = (.ok copied', d')
        ∧ Compacting (moduleSector b id k) (live
            ++ (readIndexes m start total).filter (nvFlashWriteNew.keeps single itemId)) m d'
            copied'
        ∧ copied'.sizeusedAddr ≤ copied.sizeusedAddr + total * 65540 := by
  induction fuel generalizing total start live d copied with
  | zero =>
      obtain rfl : total = 0 := by omega
      have none : (readIndexes m start 0).filter (nvFlashWriteNew.keeps single itemId) = [] := rfl
      rw [none, List.append_nil]
      exact ⟨copied, d, rfl, compacting, Nat.le_add_right _ _⟩
  | succ fuel ih =>
      rw [nvFlashWriteNew.copyLive]
      by_cases empty : total > 0
      case neg =>
          obtain rfl : total = 0 := by omega
          have none : (readIndexes m start 0).filter (nvFlashWriteNew.keeps single itemId) = [] := rfl
          rw [if_neg empty, none, List.append_nil]
          exact ⟨copied, d, rfl, compacting, Nat.le_add_right _ _⟩
      case pos =>
          have width : (if total > 4 then 4 else total) ≤ total := by split <;> omega
          have positive : 0 < (if total > 4 then 4 else total) := by split <;> omega
          rw [if_pos empty]
          generalize (if total > 4 then 4 else total) = taken at width positive
          obtain ⟨rest, rfl⟩ := Nat.exists_eq_add_of_le width
          have length (m : Mem) : (readIndexes m start taken).length = taken := by
            simp [readIndexes]
          have split : (taken + rest) * 65540 = taken * 65540 + rest * 65540 := Nat.add_mul _ _ _
          dsimp only
          rw [Nat.add_sub_cancel_left, Prog.run_bind, Prog.run_view, Prog.run_bind]
          obtain ⟨copied₁, d₁, run₁, next₁, used⟩ :=
            copyRead_run steady granted single itemId (readIndexes d.mem start taken) live d copied
              compacting readIndexes_narrow (by rw [length]; omega)
              (by rw [length]; exact Nat.lt_of_le_of_lt (by rw [split]; omega) bound)
          rw [length] at used
          have next : Compacting (moduleSector b id k) (live
              ++ (readIndexes m start taken).filter (nvFlashWriteNew.keeps single itemId)) m d₁
              copied₁ := by
            rcases compacting with ⟨done, _⟩ | ⟨beyond, _⟩
            · have table : readIndexes d.mem start taken = readIndexes m start taken :=
                readIndexes_congr (fun x low high => done.outside x (by omega))
              rwa [table] at next₁
            · exact Or.inr ⟨Nat.lt_of_lt_of_le beyond (nextFree_mono _ _ _), next₁.beyond beyond⟩
          have few : ((readIndexes m start taken).filter
              (nvFlashWriteNew.keeps single itemId)).length ≤ taken :=
            Nat.le_trans (List.length_filter_le _ _) (Nat.le_of_eq (length m))
          rw [run₁]
          dsimp only
          obtain ⟨copied', d', run, final, used'⟩ := ih rest (start + taken * sizeofInfoIdx) _ d₁ copied₁
            (by omega) next (by simp only [sizeofInfoIdx]; omega)
            (by rw [List.length_append]; omega)
            (Nat.lt_of_le_of_lt (by rw [split]; omega) bound)
          refine ⟨copied', d', run, ?_, by rw [split]; omega⟩
          rwa [readIndexes_add, List.filter_append, ← List.append_assoc]

/-- Which sector's table lies apart from the sector that is prepared. -/
theorem other_table_apart (b : Build) (id : Fin nvMaxModuls) {old : Nat} (k : Fin 2)
    (other : k.val = (old + 1) % moduleSectorNum)
    : moduleIdxStart b id old + moduleIdxNum id * 8 ≤ (moduleSector b id k).base
      ∨ (moduleSector b id k).limit ≤ moduleIdxStart b id old := by
  have slots := (moduleSector b id k).slots_fit
  have info := (moduleSector b id k).info_fit
  simp only [moduleSector] at slots info
  have different : old < k.val ∨ k.val < old := by
    simp only [moduleSectorNum] at other
    omega
  simp only [Sector.limit, moduleSector, moduleIdxStart, moduleSectStart, sizeofSectInfo]
  rcases different with below | above
  · have order := Nat.mul_le_mul_right (nvSectorSize id) (show old + 1 ≤ k.val from below)
    rw [Nat.add_mul] at order
    omega
  · have order := Nat.mul_le_mul_right (nvSectorSize id) (show k.val + 1 ≤ old from above)
    rw [Nat.add_mul] at order
    omega

/-- The items that move when the sector in operation is `old`. -/
def moving (b : Build) (single : Bool) (id : Nat) (itemId : UInt8) (old : Nat) (m : Mem)
    : List InfoIdx :=
  (readIndexes m (moduleIdxStart b id old) (moduleIdxNum id)).filter
    (nvFlashWriteNew.keeps single itemId)

/-- There is no room for the items that move and a new one of `len` bytes. -/
def Crowded (s : Sector) (live : List InfoIdx) (len : Nat) : Prop :=
  live.length = s.slots ∨ s.limit < nextFree s.ctx live + (len + 8)

/-- A steady rollover copies the items that move, or reports that they are too many. -/
theorem update_run (steady : env.Steady) (granted : ∀ n, env.noBuffer n = false)
    (single : Bool) (itemId : UInt8) {len old : Nat} (short : len < u16Mod)
    (other : k.val = (old + 1) % moduleSectorNum) (d : Dev)
    : ∃ erased d', Erased (moduleSector b id k) d erased
      ∧ ((Crowded (moduleSector b id k) (moving b single id itemId old d.mem) len
          ∧ Prog.run env (nvFlashWriteNew.update b single id itemId len old k) d
            = (.error .notEnoughSapce, d'))
        ∨ (¬Crowded (moduleSector b id k) (moving b single id itemId old d.mem) len
          ∧ Prog.run env (nvFlashWriteNew.update b single id itemId len old k) d
            = (.ok (moving b single id itemId old d.mem).length, d')
          ∧ Compacted (moduleSector b id k) (moving b single id itemId old d.mem) erased.mem
            d'.mem)) := by
  have limitEq : (moduleSector b id k).limit
    = (moduleSector b id k).base + (moduleSector b id k).size := rfl
  have ctxEq : (moduleSector b id k).ctx
    = (moduleSector b id k).base + (moduleSector b id k).info := rfl
  have slotsEq : (moduleSector b id k).slots = moduleIdxNum id := rfl
  have bounded := (moduleSector b id k).bounded
  have small := (moduleSector b id k).size_small
  have infoFit := (moduleSector b id k).info_fit
  have slotsFit := (moduleSector b id k).slots_fit
  have apart := other_table_apart b id k other
  obtain ⟨_, erased⟩ := (eraseSector_meets env b id k d).steady steady
  generalize eraseRun : Prog.run env (flashEraseSectors (nvSectorSize id / flashSectorSize)
    (moduleSector b id k).base) d = erase at erased
  have start : Compacted (moduleSector b id k) [] erase.2.mem erase.2.mem :=
    ⟨.empty (fun x low high => erased.blank x (by omega) high), fun _ _ => rfl, .nil⟩
  obtain ⟨copied, d', run, done, used⟩ := copyLive_run steady granted single itemId
    (moduleIdxNum id) (moduleIdxNum id) (moduleIdxStart b id old) [] erase.2
    { wItemIdx := 0, sizeusedAddr := (moduleSector b id k).ctx } (Nat.le_refl _)
    (Or.inl ⟨start, rfl⟩) apart (by simp [slotsEq])
    (by dsimp only; omega)
  have table : readIndexes erase.2.mem (moduleIdxStart b id old) (moduleIdxNum id)
      = readIndexes d.mem (moduleIdxStart b id old) (moduleIdxNum id) :=
    readIndexes_congr (fun x low high => erased.outside x (by omega))
  rw [table, List.nil_append, ← moving] at done
  refine ⟨erase.2, d', erased, ?_⟩
  have whole : Prog.run env (nvFlashWriteNew.update b single id itemId len old k) d
      = Prog.run env (if copied.wItemIdx = (moduleSector b id k).slots
          ∨ (copied.sizeusedAddr + itemTotalLen len) % u32Mod > (moduleSector b id k).limit then
            pure (.error .notEnoughSapce)
          else pure (.ok copied.wItemIdx)) d' := by
    have base : modulesStartAddr b id + k * nvSectorSize id = (moduleSector b id k).base := rfl
    have ctx : moduleContextStart b id k = (moduleSector b id k).ctx := rfl
    rw [nvFlashWriteNew.update, base, ctx, Prog.run_bind, eraseRun, Prog.run_bind, run,
      slotsEq, moduleSector_limit]
  rw [whole]
  rcases done with ⟨fitting, rfl⟩ | ⟨beyond, counted⟩
  · have fits := fitting.laid.fits
    have unwrapped : (nextFree (moduleSector b id k).ctx (moving b single id itemId old d.mem)
          + itemTotalLen len) % u32Mod
        = nextFree (moduleSector b id k).ctx (moving b single id itemId old d.mem) + (len + 8) := by
      simp only [itemTotalLen, sizeofItemHdr, u32Mod, u16Mod] at *
      omega
    simp only [unwrapped]
    by_cases full : Crowded (moduleSector b id k) (moving b single id itemId old d.mem) len
    · refine Or.inl ⟨full, ?_⟩
      rw [Crowded] at full
      rw [if_pos full, Prog.run_pure]
    · refine Or.inr ⟨full, ?_, fitting⟩
      rw [Crowded] at full
      rw [if_neg full, Prog.run_pure]
  · have unwrapped : (copied.sizeusedAddr + itemTotalLen len) % u32Mod
        = copied.sizeusedAddr + (len + 8) := by
      simp only [itemTotalLen, sizeofItemHdr, u32Mod, u16Mod] at *
      omega
    refine Or.inl ⟨Or.inr (by omega), ?_⟩
    rw [unwrapped, if_pos (Or.inr (by omega)), Prog.run_pure]

end Loops

end TelinkSdk
