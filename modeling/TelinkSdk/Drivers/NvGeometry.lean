import TelinkSdk.Drivers.NvCall

/-! Where the items of a module lie. -/

namespace TelinkSdk

open Nor

/-- Index slot `i` of sector `opSect` as the driver reads it. -/
def indexSlot (b : Build) (id opSect : Nat) (m : Mem) (i : Nat) : InfoIdx :=
  InfoIdx.load m (moduleIdxStart b id opSect + i * sizeofInfoIdx)

/-- The slot is not idle, by the test of `nv_index_read`. -/
def InfoIdx.InUse (e : InfoIdx) : Prop := nvIndexRead.hit itemFieldIdle 0 e = true

/-- In the sector that `nv_sector_read` selects, the slots in use describe disjoint ranges
of the context area.
-/
def LayoutOk (b : Build) (id : Fin nvMaxModuls) (m : Mem) : Prop :=
  ∀ sectInfo, nvSectorRead b m id moduleSectorNum = some sectInfo
    → ∀ i < moduleIdxNum id, (indexSlot b id sectInfo.opSect.toNat m i).InUse
      → moduleContextStart b id sectInfo.opSect.toNat
          ≤ (indexSlot b id sectInfo.opSect.toNat m i).offset
        ∧ (indexSlot b id sectInfo.opSect.toNat m i).offset
            + (indexSlot b id sectInfo.opSect.toNat m i).size
          ≤ moduleSectEnd b id sectInfo.opSect.toNat
        ∧ ∀ j < moduleIdxNum id, j ≠ i → (indexSlot b id sectInfo.opSect.toNat m j).InUse
          → (indexSlot b id sectInfo.opSect.toNat m i).offset
                + (indexSlot b id sectInfo.opSect.toNat m i).size
              ≤ (indexSlot b id sectInfo.opSect.toNat m j).offset
            ∨ (indexSlot b id sectInfo.opSect.toNat m j).offset
                + (indexSlot b id sectInfo.opSect.toNat m j).size
              ≤ (indexSlot b id sectInfo.opSect.toNat m i).offset

section Layout

variable {env : Env} {b : Build} {id : Fin nvMaxModuls} {k : Fin 2} {es : List InfoIdx}
  {m m' : Mem} {itemId : UInt8} {buf : List UInt8}

/-- Earlier entries of a chain lie below later ones. -/
theorem Linked.ordered {start : Nat} {es : List InfoIdx} (linked : Linked start es) {i j : Nat}
    (order : i < j) (inside : j < es.length)
    : es[i].offset + es[i].size ≤ es[j].offset := by
  induction es generalizing start i j with
  | nil => simp at inside
  | cons first rest ih =>
      obtain ⟨offset, _, tail⟩ := linked
      cases j with
      | zero => omega
      | succ j =>
          have within : j < rest.length := by simpa using inside
          cases i with
          | zero =>
              have later := (tail.inside (List.getElem_mem within)).1
              have step := le_alignUp (start + first.size)
              simp only [List.getElem_cons_zero, List.getElem_cons_succ]
              omega
          | succ i => exact ih tail (by omega) within

/-- A slot in use belongs to the chain. -/
theorem Chain.inUse {i : Nat} (chain : Chain (moduleSector b id k) es m)
    (inside : i < moduleIdxNum id) (used : (indexSlot b id k m i).InUse)
    : ∃ within : i < es.length, indexSlot b id k m i = es[i] := by
  by_cases within : i < es.length
  · exact ⟨within, chain.slot i within⟩
  · have idle : indexSlot b id k m i = InfoIdx.idle :=
      InfoIdx.load_blank (chain.idle i (by omega) inside)
    rw [InfoIdx.InUse, idle, hit_idle_false] at used
    contradiction

theorem Store.layout (store : Store b id k es m) : LayoutOk b id m := by
  intro sectInfo found i inside used
  rw [store.sectorRead] at found
  split at found
  · rename_i marked
    have sect : sectInfo.opSect.toNat = k := by
      rw [← Option.some.inj found]
      exact store.own k marked
    rw [sect] at used ⊢
    obtain ⟨within, entry⟩ := store.chain.inUse inside used
    obtain ⟨low, _, high⟩ := store.chain.linked.inside (List.getElem_mem within)
    have fits := store.chain.fits
    rw [entry, ← moduleSector_limit]
    refine ⟨low, by omega, ?_⟩
    intro j insideJ different usedJ
    obtain ⟨withinJ, entryJ⟩ := store.chain.inUse insideJ usedJ
    rw [entryJ]
    rcases Nat.lt_or_gt_of_ne different with before | after
    · exact Or.inr (store.chain.linked.ordered before within)
    · exact Or.inl (store.chain.linked.ordered after withinJ)
  · contradiction

-----------------------------------------------------------------------------------------
-- Items that do not fit
-----------------------------------------------------------------------------------------

/-- The next slot names the place after the chain, and nothing below the sector's table has
changed.
-/
structure SlotTaken (s : Sector) (es : List InfoIdx) (len : Nat) (m m' : Mem) : Prop where
  below : ∀ x < s.base + 4, m' x = m x
  offset : (s.entry m' es.length).offset = nextFree s.ctx es
  size : (s.entry m' es.length).size = len + 8

/-- Later writes that miss the first six bytes of the slot do not change it. -/
theorem SlotTaken.program {s : Sector} {len addr : Nat} {bytes : List UInt8}
    (taken : SlotTaken s es len m m') (above : s.base + 4 ≤ addr)
    (apart : addr + bytes.length ≤ s.idxAddr es.length ∨ s.idxAddr es.length + 6 ≤ addr)
    : SlotTaken s es len m (m'.program addr bytes) := by
  have same (i : Nat) (inside : i < 6)
      : m'.program addr bytes (s.idxAddr es.length + i) = m' (s.idxAddr es.length + i) :=
    Mem.program_outside (by omega)
  refine {
    below := ?_
    offset := ?_
    size := ?_
  }
  · intro x low
    rw [Mem.program_outside (by omega)]
    exact taken.below x low
  · rw [← taken.offset]
    exact Mem.le32_congr (fun i inside => same i (by omega))
  · rw [← taken.size]
    apply Mem.le16_congr
    intro i inside
    rw [Nat.add_assoc]
    exact same (4 + i) (by omega)

/-- The entry goes to its slot whether or not the item fits. -/
theorem nvWriteItem_slot {critical : Cmd → Prop} {d : Dev} (steady : env.Steady)
    (chain : Chain (moduleSector b id k) es d.mem)
    (room : es.length < (moduleSector b id k).slots) (short : buf.length + 8 < u16Mod)
    : Prog.Meets critical env (fun _ => True) (nvWriteItem b id itemId k es.length (.ram buf)) d
        (fun _ d' => SlotTaken (moduleSector b id k) es buf.length d.mem d'.mem) := by
  have bounded := (moduleSector b id k).bounded
  have fits := chain.fits
  have area := le_nextFree (moduleSector b id k).ctx es
  obtain ⟨first, last, context⟩ := (moduleSector b id k).idxAddr_bounds room
  apply (chain.nvWriteItem_continues itemId (.ram buf) short).meets
  apply Prog.Meets.bind (flashWrite_meets trivial trivial)
  rintro _ d' ⟨_, reached | ⟨refused, _⟩⟩
  · have taken : SlotTaken (moduleSector b id k) es buf.length d.mem d'.mem := by
      have loaded : (moduleSector b id k).entry d'.mem es.length
          = (moduleSector b id k).nextEntry es itemId buf.length itemFieldOperation := by
        rw [reached]
        apply InfoIdx.load_of_bytes
        · simp only [Sector.nextEntry, Sector.limit, u32Mod] at *
          omega
        · exact short
        · intro i inside
          exact Mem.program_blank (by simpa using inside)
            (chain.idle es.length (Nat.le_refl _) room _ (by omega) (by omega))
      refine { below := ?_, offset := by rw [loaded]; rfl, size := by rw [loaded]; rfl }
      intro x low
      rw [reached]
      exact Mem.program_outside (by omega)
    have content := @nvWriteItem.content_meets critical env
      (SlotTaken (moduleSector b id k) es buf.length d.mem)
      ((moduleSector b id k).nextEntry es itemId buf.length itemFieldOperation) (.ram buf) rfl
      (fun m' addr bytes held low _ => by
        have start : nextFree (moduleSector b id k).ctx es ≤ addr := low
        exact held.program (by omega) (by omega)) d' taken
    apply Prog.Meets.bind (content.mono (fun _ _ => trivial) (fun _ _ post => post))
    rintro ret d'' ⟨held, _⟩
    have marked : SlotTaken (moduleSector b id k) es buf.length d.mem
        (d''.mem.program ((moduleSector b id k).idxAddr es.length + 7) [itemFieldValid]) :=
      held.program (by omega) (by omega)
    by_cases good : ret = .succ
    · simp only [nvWriteItem.markValid, good, if_true]
      apply Prog.Meets.bind (flashWrite_meets trivial trivial)
      rintro _ d₃ ⟨_, reachedMark | ⟨_, lostMark⟩⟩
      · exact .silent trivial (by simp) (by simpa [reachedMark] using marked)
      · exact .silent trivial (by simp) (by simpa [lostMark] using held)
    · simp only [nvWriteItem.markValid, good, if_false]
      exact .silent trivial (by simp) (by simpa using held)
  · rw [steady.accepts] at refused
    contradiction

/-- So does the entry of a whole call that stays in a used sector. -/
theorem nvFlashWriteNew_slot {d : Dev} (steady : env.Steady) (single : Bool)
    (store : Store b id k es d.mem) (used : es ≠ []) (real : itemId ≠ itemFieldIdle)
    (admitted : Admitted id buf.length)
    (plain : (nvFlashWriteNew.place b d.mem id buf.length).sectorUpdate = false)
    : es.length < (moduleSector b id k).slots
      ∧ SlotTaken (moduleSector b id k) es buf.length d.mem
          (Prog.run env (nvFlashWriteNew b single id itemId buf) d).2.mem := by
  obtain ⟨_, room⟩ := store.appends admitted.short plain
  have short := admitted.total_short
  refine ⟨room, ?_⟩
  suffices meets : Prog.Meets (Structural b id) env (fun _ => True)
      (nvFlashWriteNew b single id itemId buf) d
      (fun _ d' => SlotTaken (moduleSector b id k) es buf.length d.mem d'.mem) by
    exact (meets.steady steady).2
  apply (store.stays_continues single itemId admitted plain).meets
  unfold nvFlashWriteNew.commit
  apply Prog.Meets.read
  change Prog.Meets _ _ _ (nvWriteItem b id itemId k es.length (.ram buf) >>= fun ret =>
    nvFlashWriteNew.markDeleted b id k (previousSlot b single id itemId buf.length k d.mem)
      >>= _) _ _
  apply Prog.Meets.bind
    (@nvWriteItem_slot env b id k es itemId buf _ (lockTo env false d) steady store.chain room short)
  rintro ret d' taken
  have deleted : Prog.Meets (Structural b id) env (fun _ => True)
      (nvFlashWriteNew.markDeleted b id k
        (previousSlot b single id itemId buf.length k d.mem)) d'
      (fun _ d'' => SlotTaken (moduleSector b id k) es buf.length d.mem d''.mem) := by
    cases found : previousSlot b single id itemId buf.length k d.mem with
    | none => exact .silent trivial rfl taken
    | some i =>
        obtain ⟨inside, _⟩ := store.chain.previous real (previousSlot_some found).2
        obtain ⟨first, _, _⟩ := (moduleSector b id k).idxAddr_bounds (Nat.lt_trans inside room)
        have before : (moduleSector b id k).idxAddr i + 8
            ≤ (moduleSector b id k).idxAddr es.length := by
          simp only [Sector.idxAddr]
          omega
        apply (flashWrite_meets trivial trivial).mono (fun _ held => held)
        rintro _ d'' ⟨_, reached | ⟨_, lost⟩⟩
        · rw [reached]
          exact taken.program (by rw [← moduleSector_idxAddr]; omega)
            (by rw [← moduleSector_idxAddr]; simp only [List.length_singleton]; omega)
        · rw [lost]
          exact taken
  apply Prog.Meets.bind deleted
  rintro _ d'' taken'
  have count : es.length ≠ 0 := fun empty => used (List.length_eq_zero_iff.mp empty)
  have quiet : nvFlashWriteNew.markSectors b id k k es.length false ret = pure () := by
    simp [nvFlashWriteNew.markSectors, count]
  rw [quiet]
  exact .silent trivial (by simp) (by simpa using taken')

/-- A marked sector whose next slot names a place behind the sector's end breaks the
layout.
-/
theorem SlotTaken.overrun (store : Store b id k es m) (marked : Marked b id m k)
    (room : es.length < (moduleSector b id k).slots) {len : Nat}
    (taken : SlotTaken (moduleSector b id k) es len m m') (small : len + 8 ≤ 16384)
    (beyond : nextFree (moduleSector b id k).ctx es + (len + 8) > (moduleSector b id k).limit)
    : ¬LayoutOk b id m' := by
  have bounds := (moduleSector b id k).idxAddr_bounds room
  have head : sectHead b id m' k = sectHead b id m k :=
    sectHead_congr (fun x _ high => taken.below x high)
  have marked' : Marked b id m' k := (marked_congr head).mpr marked
  have selected : nvSectorRead b m' id moduleSectorNum = some (sectHead b id m' k) := by
    rw [nvSectorRead_eq]
    by_cases zero : k = 0
    · subst k
      rw [if_pos marked']
    · have one : k = 1 := by omega
      subst k
      have first : sectHead b id m' 0 = sectHead b id m 0 := by
        apply sectHead_congr
        intro x _ high
        apply taken.below
        have order : (moduleSector b id 0).base ≤ (moduleSector b id 1).base := by
          simp only [moduleSector, moduleSectStart]
          simp
        omega
      have absent : ¬Marked b id m' 0 := by
        rw [marked_congr first]
        have operation := store.operation
        simp only [InOperation, zero, if_false] at operation
        exact operation.1
      rw [if_neg absent, if_pos marked']
  intro layout
  have sect : (sectHead b id m' k).opSect.toNat = k := by
    rw [head]
    exact store.own k marked
  have slot : indexSlot b id k m' es.length = (moduleSector b id k).entry m' es.length := rfl
  have used : (indexSlot b id (sectHead b id m' k).opSect.toNat m' es.length).InUse := by
    rw [sect, slot, InfoIdx.InUse]
    have size : ((moduleSector b id k).entry m' es.length).size ≠ 0xffff := by
      rw [taken.size]
      omega
    simp [nvIndexRead.hit, size]
  have inside := (layout _ selected es.length room used).2.1
  rw [sect, slot, taken.offset, taken.size, ← moduleSector_limit] at inside
  omega

/-- A complete call without faults keeps the layout exactly if its item fits. -/
theorem NvCall.layout_iff {c : NvCall} (settled : Settled b id k es m) (whole : c.cut = none)
    (unskipped : ∀ n, c.skipped n = false)
    : LayoutOk b id (c.after b id m) ↔ Fits b id c.buf.length m := by
  constructor
  · intro layout
    by_contra unfit
    have used : es ≠ [] := by
      intro empty
      subst es
      exact unfit (settled.store.fits_empty _)
    have admitted : Admitted id c.buf.length := by
      by_contra refused
      exact unfit (fun admitted => absurd admitted refused)
    have plain : (nvFlashWriteNew.place b m id c.buf.length).sectorUpdate = false := by
      by_contra rolls
      exact unfit (fun _ stays => absurd stays rolls)
    obtain ⟨room, taken⟩ := @nvFlashWriteNew_slot c.env b id k es c.itemId c.buf (Dev.ready m)
      (c.steady unskipped) c.single settled.store used c.real admitted plain
    have beyond := (not_congr (settled.store.fits_iff admitted plain)).mp unfit
    rw [NvCall.after_uncut whole] at layout
    exact taken.overrun settled.store (settled.marked used) room admitted.small (by omega)
      layout
  · intro fits
    obtain ⟨_, _, done⟩ := NvCall.completed settled whole unskipped fits
    exact done.settled.store.layout

/-- A complete call without faults whose item fits behind the last one. -/
structure FittingCall (b : Build) (id : Fin nvMaxModuls) (m : Mem) (c : NvCall) : Prop where
  whole : c.cut = none
  unskipped : ∀ n, c.skipped n = false
  fits : Fits b id c.buf.length m

theorem NvReached.settled (reached : NvReached b id (FittingCall b id) m)
    : ∃ k es, Settled b id k es m := by
  induction reached with
  | erased blank => exact ⟨0, [], Settled.erased blank⟩
  | call _ step ih =>
      obtain ⟨k, es, settled⟩ := ih
      obtain ⟨i, l, done⟩ := NvCall.completed settled step.whole step.unskipped step.fits
      exact ⟨i, l, done.settled⟩

/-- Runs of complete calls keep the layout as long as every item fits where it goes, and the
first item that does not fit breaks it.
-/
theorem nvFlashWriteNew_layout (b : Build) (id : Fin nvMaxModuls) {m : Mem}
    (reached : NvReached b id (FittingCall b id) m)
    : LayoutOk b id m
      ∧ ∀ c : NvCall, c.cut = none → (∀ n, c.skipped n = false)
        → (LayoutOk b id (c.after b id m) ↔ Fits b id c.buf.length m) := by
  obtain ⟨k, es, settled⟩ := reached.settled
  exact ⟨settled.store.layout,
    fun _ whole unskipped => NvCall.layout_iff settled whole unskipped⟩

/-- The chain after the first item of a module. -/
theorem NvCall.first {c : NvCall} (whole : c.cut = none) (unskipped : ∀ n, c.skipped n = false)
    (admitted : Admitted id c.buf.length)
    (blank : m.BlankOn (modulesStartAddr b id) (moduleEnd b id))
    : ∃ e, Settled b id 0 [e] (c.after b id m) ∧ e.size = c.buf.length + 8 := by
  have store : Store b id 0 [] m := Store.erased blank
  have plain : (nvFlashWriteNew.place b m id c.buf.length).sectorUpdate = false := by
    rw [store.place admitted.short, if_pos rfl]
  have steady := c.steady unskipped
  have stayed := ((@nvFlashWriteNew_stays_meets c.env b id 0 [] (Dev.ready m) c.itemId c.buf
    c.single store c.real admitted (store.fits_empty _) plain).steady steady).2.1
  rw [← NvCall.after_uncut whole] at stayed
  obtain ⟨l, store', sizes⟩ := stayed.store
  have marked := ((stayed.written steady).2.1 (Or.inr rfl)).1
  cases l with
  | nil => simp at sizes
  | cons e rest =>
      simp only [List.map_nil, List.map_cons, List.nil_append, List.cons.injEq,
        List.map_eq_nil_iff] at sizes
      obtain ⟨size, rfl⟩ := sizes
      exact ⟨e, ⟨store', fun _ => marked⟩, size⟩

end Layout

namespace UnevenItems

open SampleCall (build)

def three : NvCall := { SampleCall.first with buf := [7, 8, 9], short := by decide }

def one : NvCall := { SampleCall.second with buf := [5], short := by decide }

def six : NvCall := { SampleCall.third with buf := [1, 2, 3, 4, 5, 6], short := by decide }

def two : Mem := one.after build macModule (three.after build macModule Mem.blank)

def stored : Mem := six.after build macModule two

theorem reached : NvReached build macModule (FittingCall build macModule) stored := by
  have first : FittingCall build macModule Mem.blank three := ⟨rfl, fun _ => rfl, by decide +kernel⟩
  have second : FittingCall build macModule (three.after build macModule Mem.blank) one :=
    ⟨rfl, fun _ => rfl, by decide +kernel⟩
  have third : FittingCall build macModule two six := ⟨rfl, fun _ => rfl, by decide +kernel⟩
  exact .call (.call (.call (.erased (fun _ _ _ => rfl)) first) second) third

end UnevenItems

/-- Items whose ends have to be rounded, and one that is placed behind them. -/
theorem nvFlashWriteNew_layout_uneven
    : LayoutOk SampleCall.build macModule UnevenItems.stored
      ∧ LayoutOk SampleCall.build macModule
          (SampleCall.second.after SampleCall.build macModule UnevenItems.stored) := by
  have layout := nvFlashWriteNew_layout SampleCall.build macModule UnevenItems.reached
  exact ⟨layout.1, (layout.2 SampleCall.second rfl (fun _ => rfl)).mpr (by decide +kernel)⟩

/-- An item of 3565 bytes ends eleven bytes before the end of its sector, which is what the
driver compares with the eleven bytes of the next item. That item starts at the next
multiple of four and ends three bytes behind the sector.
-/
theorem rounding_overruns_sector
    : let b : Build := ⟨true, false⟩
      let first : NvCall :=
        {
          itemId := 1
          buf := List.replicate 3565 0
          short := by rw [List.length_replicate]; decide
        }
      let second : NvCall := { itemId := 2, buf := [0, 0, 0] }
      NvReached b 0 (fun _ c => c.cut = none ∧ ∀ n, c.skipped n = false)
          (second.after b 0 (first.after b 0 Mem.blank))
        ∧ ¬LayoutOk b 0 (second.after b 0 (first.after b 0 Mem.blank)) := by
  intro b first second
  refine ⟨.call (.call (.erased (fun _ _ _ => rfl)) ⟨rfl, fun _ => rfl⟩) ⟨rfl, fun _ => rfl⟩, ?_⟩
  have length : first.buf.length = 3565 := List.length_replicate
  obtain ⟨e, settled, size⟩ := @NvCall.first b 0 Mem.blank first rfl (fun _ => rfl)
    (by rw [length]; decide) (fun _ _ _ => rfl)
  rw [length] at size
  have offset : e.offset = (moduleSector b 0 0).ctx := settled.store.chain.linked.1
  have slot : (moduleSector b 0 0).entry (first.after b 0 Mem.blank) 0 = e :=
    settled.store.chain.slot 0 (by simp)
  have context : (moduleSector b 0 0).ctx = 524800 := by decide
  have limit : (moduleSector b 0 0).limit = 528384 := by decide
  have slots : (moduleSector b 0 0).slots = 63 := by decide
  have admitted : Admitted (0 : Fin nvMaxModuls) second.buf.length := by decide
  have plain : (nvFlashWriteNew.place b (first.after b 0 Mem.blank) (0 : Fin nvMaxModuls)
      second.buf.length).sectorUpdate = false := by
    rw [settled.store.place admitted.short, if_neg (by simp)]
    simp [slot, slots, offset, context, limit, size, second]
  rw [NvCall.layout_iff settled rfl (fun _ => rfl), settled.store.fits_iff admitted plain]
  simp [nextFree, alignUp, context, limit, size, second]

end TelinkSdk
