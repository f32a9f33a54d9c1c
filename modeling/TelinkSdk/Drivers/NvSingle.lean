import TelinkSdk.Drivers.NvTruth

/-! One live value for each item. The search for the previous value looks for the id and the
length, the filter of a rollover for the id alone. So the store keeps one value for each item as
long as an item changes its length only in calls that move to the other sector.
-/

namespace TelinkSdk

open Nor

-----------------------------------------------------------------------------------------
-- Valid entries
-----------------------------------------------------------------------------------------

/-- The ids and sizes of the valid entries. -/
def validItems (es : List InfoIdx) : List (UInt8 × Nat) :=
  (es.filter (fun e => e.usedState == itemFieldValid)).map (fun e => (e.itemId, e.size))

/-- The ids and sizes of the valid entries of the sector in operation. -/
def nvValidItems (b : Build) (id : Nat) (m : Mem) : List (UInt8 × Nat) :=
  validItems (readIndexes m (moduleIdxStart b id (nvOpSect b m id)) (moduleIdxNum id))

theorem validItems_append (first second : List InfoIdx)
    : validItems (first ++ second) = validItems first ++ validItems second := by
  simp [validItems]

theorem mem_validItems {es : List InfoIdx} {itemId : UInt8} {size : Nat}
    : (itemId, size) ∈ validItems es
      ↔ ∃ e ∈ es, e.usedState = itemFieldValid ∧ e.itemId = itemId ∧ e.size = size := by
  simp [validItems, and_assoc]

theorem validItems_nextEntry (s : Sector) (es : List InfoIdx) (itemId : UInt8) (len : Nat)
    : validItems [s.nextEntry es itemId len itemFieldValid] = [(itemId, len + 8)] := by
  simp [validItems, Sector.nextEntry]

/-- A copied entry is as valid as its source. -/
theorem validItems_copied {s : Sector} {m m' : Mem} {live entries : List InfoIdx}
    (copies : List.Forall₂ (Copied s m m') live entries)
    (valid : ∀ e ∈ live, e.usedState = itemFieldValid)
    : validItems entries = validItems live := by
  induction copies with
  | nil => rfl
  | @cons e e' live entries copied _ ih =>
      have head : validItems [e'] = validItems [e] := by
        simp [validItems, copied.usedState, valid e List.mem_cons_self, copied.itemId,
          copied.size]
      rw [← List.singleton_append, validItems_append, head,
        ih (fun e member => valid e (List.mem_cons_of_mem _ member)), ← validItems_append,
        List.singleton_append]

/-- A rollover keeps the valid entries of the other items. -/
theorem validItems_keeps (es : List InfoIdx) (itemId : UInt8)
    : validItems (es.filter (nvFlashWriteNew.keeps true itemId))
      = (validItems es).filter (fun e => e.1 != itemId) := by
  unfold validItems
  rw [List.filter_map, List.filter_filter, List.filter_filter]
  congr 1
  apply List.filter_congr
  intro e _
  cases valid : e.usedState == itemFieldValid <;>
    simp [nvFlashWriteNew.keeps, valid, Function.comp]

/-- Marking the one valid entry of an item takes the item out. -/
theorem validItems_markEntry {es : List InfoIdx} {i : Nat} (inside : i < es.length)
    (valid : es[i].usedState = itemFieldValid)
    (once : ((validItems es).map Prod.fst).Nodup)
    : validItems (markEntry es i itemFieldInvalid)
      = (validItems es).filter (fun e => e.1 != es[i].itemId) := by
  have split : es = es.take i ++ es[i] :: es.drop (i + 1) := by
    rw [List.getElem_cons_drop, List.take_append_drop]
  have marked : markEntry es i itemFieldInvalid
      = es.take i ++ { es[i] with usedState := es[i].usedState &&& itemFieldInvalid }
        :: es.drop (i + 1) := by
    unfold markEntry
    rw [List.modify_eq_take_cons_drop inside]
  have gone : validItems [{ es[i] with usedState := es[i].usedState &&& itemFieldInvalid }]
      = [] := by
    have state : (itemFieldValid &&& itemFieldInvalid == itemFieldValid) = false := by decide
    simp [validItems, valid, state]
  have items : validItems es = validItems (es.take i)
      ++ (es[i].itemId, es[i].size) :: validItems (es.drop (i + 1)) := by
    have entry : validItems [es[i]] = [(es[i].itemId, es[i].size)] := by simp [validItems, valid]
    conv_lhs => rw [split, ← List.singleton_append, validItems_append, validItems_append, entry]
    rfl
  rw [items, List.map_append, List.map_cons, List.nodup_append] at once
  obtain ⟨_, later, apart⟩ := once
  have others (rest : List (UInt8 × Nat)) (absent : es[i].itemId ∉ rest.map Prod.fst)
      : rest.filter (fun e => e.1 != es[i].itemId) = rest := by
    apply List.filter_eq_self.mpr
    intro e member
    rw [bne_iff_ne]
    intro same
    exact absent (same ▸ List.mem_map_of_mem member)
  have before : es[i].itemId ∉ (validItems (es.take i)).map Prod.fst :=
    fun member => apart _ member _ List.mem_cons_self rfl
  have after : es[i].itemId ∉ (validItems (es.drop (i + 1))).map Prod.fst :=
    (List.nodup_cons.mp later).1
  rw [marked, items, ← List.singleton_append, validItems_append, validItems_append, gone,
    List.nil_append, List.filter_append, List.filter_cons_of_neg (by simp), others _ before,
    others _ after]

/-- The table of the sector in operation and its chain have the same valid entries. -/
theorem Store.validItems {b : Build} {id : Fin nvMaxModuls} {k : Fin 2} {es : List InfoIdx}
    {m : Mem} (store : Store b id k es m)
    : nvValidItems b id m = validItems es := by
  have live := store.chain.liveItems false 0
  have every (e : InfoIdx)
      : nvFlashWriteNew.keeps false 0 e = (e.usedState == itemFieldValid) := by
    by_cases zero : e.itemId = 0 <;> simp [nvFlashWriteNew.keeps, zero]
  rw [liveItems, List.filter_congr (fun e _ => every e), List.filter_congr (fun e _ => every e)]
    at live
  rw [nvValidItems, store.opSect, TelinkSdk.validItems, live]
  rfl

-----------------------------------------------------------------------------------------
-- What a call does to the valid entries
-----------------------------------------------------------------------------------------

/-- A table holds one chain only: what follows the shorter of two would be idle. -/
theorem Chain.unique {s : Sector} {es l : List InfoIdx} {m : Mem} (chain : Chain s es m)
    (chain' : Chain s l m)
    : es = l := by
  have shorter {es l : List InfoIdx} (chain : Chain s es m) (chain' : Chain s l m)
      : l.length ≤ es.length := by
    by_contra longer
    have inside : es.length < l.length := by omega
    have idle := InfoIdx.load_blank (chain.idle es.length (Nat.le_refl _)
      (Nat.lt_of_lt_of_le inside chain'.count))
    have used := chain'.hit_used (List.getElem_mem inside) 0
    have slot : s.entry m es.length = l[es.length] := chain'.slot es.length inside
    rw [← slot, Sector.entry, idle, hit_idle_false] at used
    contradiction
  have count : es.length = l.length :=
    Nat.le_antisymm (shorter chain' chain) (shorter chain chain')
  apply List.ext_getElem count
  intro i inside inside'
  rw [← chain.slot i inside, chain'.slot i inside']

section Call

variable {b : Build} {id : Fin nvMaxModuls} {k : Fin 2} {es : List InfoIdx} {m : Mem}
  {c : NvCall}

theorem Store.unique {j : Fin 2} {l : List InfoIdx} (store : Store b id k es m)
    (store' : Store b id j l m)
    : k = j ∧ es = l := by
  have same : k = j := Fin.ext (store.opSect.symm.trans store'.opSect)
  subst j
  exact ⟨rfl, store.chain.unique store'.chain⟩

/-- Without a previous value the end of a call is the flag of a sector that was empty. -/
theorem nvFlashWriteNew.finish_mem_fresh {env : Env} {d : Dev} {wItemIdx : Nat}
    : (Prog.run env (nvFlashWriteNew.finish b id k k wItemIdx false none .succ) d).2.mem
      = if wItemIdx = 0 then
          (d.issue env
            (.program (moduleSector b id k).base (headBytes id nvSectorValid k))).mem
        else d.mem := by
  simp only [nvFlashWriteNew.finish, nvFlashWriteNew.markDeleted, nvFlashWriteNew.markSectors,
    Bool.false_eq_true, if_true, if_false, Prog.run_bind, Prog.run_pure, run_flashLock]
  by_cases first : wItemIdx = 0
  · rw [if_pos first, if_pos first]
    rfl
  · rw [if_neg first, if_neg first]
    rfl

/-- How the entries in front of the new one come out of the old chain: all of them are there, or
the last with the id and the length of the item is marked invalid.
-/
def Replaced (es : List InfoIdx) (itemId : UInt8) (len : Nat) (front : List InfoIdx) : Prop :=
  (front = es ∧ ∀ e ∈ es, nvIndexRead.hit itemId len e = false)
    ∨ ∃ (i : Nat) (inside : i < es.length), nvIndexRead.hit itemId len es[i] = true
      ∧ front = markEntry es i itemFieldInvalid

/-- The entries after a call that stays in its sector. -/
theorem NvCall.stays_entries (settled : Settled b id k es m) (single : c.single = true)
    (whole : c.cut = none) (unskipped : ∀ n, c.skipped n = false)
    (admitted : Admitted id c.buf.length) (fits : Fits b id c.buf.length m)
    (plain : (nvFlashWriteNew.place b m id c.buf.length).sectorUpdate = false)
    : c.status b id m = .succ
      ∧ ∃ front, Replaced es c.itemId c.buf.length front
        ∧ Store b id k (front ++ [(moduleSector b id k).nextEntry es c.itemId c.buf.length
            itemFieldValid]) (c.after b id m) := by
  have steady := c.steady unskipped
  obtain ⟨_, room, inside⟩ := settled.store.stays admitted fits plain
  obtain ⟨runs, _⟩ := @nvFlashWriteNew_stays_eq b id k es m c.env rfl c.itemId c.buf c.single
    settled.store admitted plain
  obtain ⟨d', written, pending⟩ := @Store.written b id k es c.env steady (Dev.opened m) c.itemId
    c.buf settled.store room inside
  rw [Prog.run_bind, written] at runs
  refine ⟨by rw [NvCall.status, runs, nvFlashWriteNew.run_finish], ?_⟩
  rw [NvCall.after_uncut whole, runs]
  cases found : previousSlot b c.single id c.itemId c.buf.length k m with
  | none =>
      rw [previousSlot, if_pos single, indexRead_eq, settled.store.chain.scan] at found
      refine ⟨es, .inl ⟨rfl, ?_⟩, ?_⟩
      · intro e member
        obtain ⟨i, below, rfl⟩ := List.getElem_of_mem member
        rw [← settled.store.chain.slot i below]
        exact lastBelow_eq_none_iff.mp found i below
      · rw [nvFlashWriteNew.finish_mem_fresh]
        split
        case isTrue empty =>
            obtain rfl := List.length_eq_zero_iff.mp empty
            rw [steady.issue_mem]
            exact (pending.store.flagged (by simp) (pending.head rfl)).1
        case isFalse => exact pending.store
  | some i =>
      have search := (previousSlot_some found).2
      obtain ⟨below, name⟩ := settled.store.chain.previous c.real search
      rw [indexRead_eq, settled.store.chain.scan] at search
      have hit := (lastBelow_some search).2
      rw [settled.store.chain.slot i below] at hit
      refine ⟨markEntry es i itemFieldInvalid, .inr ⟨i, below, hit, rfl⟩, ?_⟩
      rw [nvFlashWriteNew.finish_mem_previous (by omega), steady.issue_mem]
      exact (pending.delete below name).store

/-- The entries after a call that moves to the other sector. -/
theorem NvCall.leaves_entries (settled : Settled b id k es m) (whole : c.cut = none)
    (unskipped : ∀ n, c.skipped n = false) (admitted : Admitted id c.buf.length)
    (rolls : (nvFlashWriteNew.place b m id c.buf.length).sectorUpdate = true)
    (good : c.status b id m = .succ)
    : ∃ entries copied m',
        List.Forall₂ (Copied (moduleSector b id (otherSect k)) copied m')
          (es.filter (nvFlashWriteNew.keeps c.single c.itemId)) entries
        ∧ Store b id (otherSect k)
          (entries ++ [(moduleSector b id (otherSect k)).nextEntry entries c.itemId c.buf.length
            itemFieldValid]) (c.after b id m) := by
  have steady := c.steady unskipped
  obtain ⟨runs, _⟩ := @nvFlashWriteNew_leaves_eq b id k es m c.env rfl c.itemId c.buf c.single
    settled.store admitted rolls
  obtain ⟨_, outcome⟩ := (@Store.prepare_meets c.env b id k es (Dev.opened m) settled.store c.single
    c.itemId c.buf.length admitted.short).steady steady
  have rolled := ((@nvFlashWriteNew_leaves_meets c.env b id k es (Dev.ready m) c.itemId c.buf
    c.single settled.store c.real admitted rolls).steady steady).2
  rw [Prog.run_bind] at runs
  generalize Prog.run c.env
    (nvFlashWriteNew.update b c.single id c.itemId c.buf.length k (otherSect k)) (Dev.opened m)
    = result at runs outcome
  obtain ⟨result, d'⟩ := result
  cases result with
  | error ret =>
      obtain ⟨status, _⟩ := outcome
      have failed : c.status b id m = ret := by
        rw [NvCall.status, runs]
        simp only [nvFlashWriteNew.proceed, Prog.run_bind, Prog.run_pure]
      rw [failed, status] at good
      contradiction
  | ok wItemIdx =>
      obtain ⟨erased, entries, blanked, moved, rfl, room, inside⟩ := outcome
      rw [(proceed_eq moved c.real).1, Prog.run_bind] at runs
      obtain ⟨_, ⟨state, appended⟩, status, _⟩ :=
        (nvWriteItem_meets c.itemId (.ram c.buf) moved.chain room inside).steady steady
      have succ := status (Or.inl steady.unguarded) (Or.inl (steady.supplied _))
      obtain ⟨valid, _⟩ := appended.complete succ steady
      subst state
      generalize Prog.run c.env
        (nvWriteItem b id c.itemId (otherSect k) entries.length (.ram c.buf)) d' = written
        at runs appended succ
      obtain ⟨ret, d''⟩ := written
      obtain rfl : ret = .succ := succ
      obtain ⟨l, store, _⟩ := rolled.written steady good
      rw [← NvCall.after_uncut whole] at store
      -- the flags lie outside the table and the items, so the chain is the one just filled
      have chain : Chain (moduleSector b id (otherSect k))
          (entries ++ [(moduleSector b id (otherSect k)).nextEntry entries c.itemId c.buf.length
            itemFieldValid]) (c.after b id m) := by
        rw [NvCall.after_uncut whole, runs, finish_leaves.2, steady.issue_mem, steady.issue_mem]
        apply appended.chain.congr
        intro x low high
        exact (@head_apart b id _ (otherSect k) (otherSect k) _ rfl x low high).trans
          (@head_apart b id _ k (otherSect k) _ rfl x low high)
      obtain rfl := store.chain.unique chain
      exact ⟨entries, erased.mem, d'.mem, moved.copies steady, store⟩

/-- What the call must not meet: an entry of its item with another length in the sector that it
stays in.
-/
def SameLength (b : Build) (id : Fin nvMaxModuls) (m : Mem) (c : NvCall) : Prop :=
  ∀ size, (c.itemId, size) ∈ nvValidItems b id m → size = itemTotalLen c.buf.length

/-- A complete call without skipped commands. It fits behind the last item, and if it stays in
its sector, no valid entry there has the item's id and another length.
-/
structure OneLengthCall (b : Build) (id : Fin nvMaxModuls) (m : Mem) (c : NvCall) : Prop where
  single : c.single = true
  whole : c.cut = none
  unskipped : ∀ n, c.skipped n = false
  fits : Fits b id c.buf.length m
  sameLength : Admitted id c.buf.length
    → (nvFlashWriteNew.place b m id c.buf.length).sectorUpdate = false → SameLength b id m c

/-- With one valid entry for each item and an unchanged length, the old entry is replaced. -/
theorem Replaced.validItems {front : List InfoIdx} {itemId : UInt8} {len : Nat}
    (replaced : Replaced es itemId len front) (real : itemId ≠ itemFieldIdle)
    (short : len + 8 < u16Mod) (once : ((validItems es).map Prod.fst).Nodup)
    (same : ∀ size, (itemId, size) ∈ TelinkSdk.validItems es → size = itemTotalLen len)
    : TelinkSdk.validItems front = (TelinkSdk.validItems es).filter (fun e => e.1 != itemId) := by
  have unwrapped : itemTotalLen len % u16Mod = itemTotalLen len := Nat.mod_eq_of_lt short
  rcases replaced with ⟨rfl, none⟩ | ⟨i, inside, hit, rfl⟩
  · symm
    apply List.filter_eq_self.mpr
    rintro ⟨other, size⟩ member
    rw [bne_iff_ne]
    rintro rfl
    obtain ⟨e, listed, valid, name, sized⟩ := mem_validItems.mp member
    have hit := (hit_iff real).mpr ⟨valid, by rw [sized, same size member, unwrapped], name⟩
    rw [none e listed] at hit
    contradiction
  · obtain ⟨valid, _, name⟩ := (hit_iff real).mp hit
    rw [validItems_markEntry inside valid once, name]

/-- What a call makes of the valid entries: a success replaces those of its item by the new one,
a failure changes none.
-/
theorem OneLengthCall.validItems (call : OneLengthCall b id m c) (settled : Settled b id k es m)
    (once : ((validItems es).map Prod.fst).Nodup)
    : ∃ i l, Completed b id c es m (c.status b id m) i l (c.after b id m)
      ∧ TelinkSdk.validItems l
        = if c.status b id m = .succ then
            (TelinkSdk.validItems es).filter (fun e => e.1 != c.itemId)
              ++ [(c.itemId, c.buf.length + 8)]
          else TelinkSdk.validItems es := by
  obtain ⟨i, l, done⟩ := NvCall.completed settled call.whole call.unskipped call.fits
  refine ⟨i, l, done, ?_⟩
  by_cases admitted : Admitted id c.buf.length
  case pos =>
      have short := admitted.total_short
      cases rolls : (nvFlashWriteNew.place b m id c.buf.length).sectorUpdate with
      | false =>
          obtain ⟨good, front, replaced, store⟩ := NvCall.stays_entries settled call.single
            call.whole call.unskipped admitted call.fits rolls
          obtain ⟨rfl, rfl⟩ := store.unique done.settled.store
          have same := call.sameLength admitted rolls
          rw [SameLength, settled.store.validItems] at same
          rw [if_pos good, validItems_append, validItems_nextEntry,
            replaced.validItems c.real short once same]
      | true =>
          have steady := c.steady call.unskipped
          by_cases good : c.status b id m = .succ
          case pos =>
              obtain ⟨entries, _, _, copies, store⟩ := NvCall.leaves_entries settled call.whole
                call.unskipped admitted rolls good
              obtain ⟨rfl, rfl⟩ := store.unique done.settled.store
              have valid : ∀ e ∈ es.filter (nvFlashWriteNew.keeps c.single c.itemId),
                  e.usedState = itemFieldValid := by
                intro e member
                have keep := (List.mem_filter.mp member).2
                simp only [nvFlashWriteNew.keeps, Bool.and_eq_true, beq_iff_eq] at keep
                exact keep.1
              rw [if_pos good, validItems_append, validItems_nextEntry,
                validItems_copied copies valid, call.single, validItems_keeps]
          case neg =>
              have spare := ((@nvFlashWriteNew_leaves_meets c.env b id k es (Dev.ready m) c.itemId
                c.buf c.single settled.store c.real admitted rolls).steady steady).2.failed good
              have store := spare.store settled.store (otherSect_ne k)
              rw [← NvCall.after_uncut call.whole] at store
              obtain ⟨rfl, rfl⟩ := store.unique done.settled.store
              rw [if_neg good]
  case neg =>
      have refused := (@nvFlashWriteNew_refused b c.env id c.itemId c.buf (Dev.ready m) c.single
        admitted).2
      have store : Store b id k es (c.after b id m) := by
        rw [NvCall.after_uncut call.whole, refused]
        exact settled.store
      have bad : c.status b id m ≠ .succ := by
        rw [NvCall.status, refused]
        exact NvSts.noConfusion
      obtain ⟨rfl, rfl⟩ := store.unique done.settled.store
      rw [if_neg bad]

end Call

-----------------------------------------------------------------------------------------
-- Runs
-----------------------------------------------------------------------------------------

/-- All calls of a run are ones that `allowed` admits where they are made. -/
def NvCall.AllMeet (b : Build) (id : Fin nvMaxModuls) (allowed : Mem → NvCall → Prop)
    : List NvCall → Mem → Prop
  | [], _ => True
  | c :: rest, m => allowed m c ∧ NvCall.AllMeet b id allowed rest (c.after b id m)

section Runs

variable {b : Build} {id : Fin nvMaxModuls} {m : Mem} {c : NvCall} {f : ItemMap}

/-- The module holds the values of the map `f`, one valid entry for each item. -/
structure OneValue (b : Build) (id : Fin nvMaxModuls) (m : Mem) (f : ItemMap) : Prop where
  entries : ∃ k es, Settled b id k es m ∧ ((validItems es).map Prod.fst).Nodup
    ∧ ∀ itemId size, (itemId, size) ∈ validItems es
      ↔ ∃ buf, f itemId = some buf ∧ size = buf.length + 8
  reads : ∀ itemId, itemId ≠ itemFieldIdle → ∀ len < u16Mod,
    nvFlashReadNew b m id itemId len = (f itemId).filter (fun buf => buf.length == len)

/-- A length without a valid entry of the item is not found. -/
theorem Store.read_none {k : Fin 2} {es : List InfoIdx} (store : Store b id k es m)
    {itemId : UInt8} (real : itemId ≠ itemFieldIdle) {len : Nat}
    (absent : (itemId, itemTotalLen len % u16Mod) ∉ TelinkSdk.validItems es)
    : nvFlashReadNew b m id itemId len = none := by
  have missing : lastEntry es itemId len = none := by
    cases found : lastEntry es itemId len with
    | none => rfl
    | some e =>
        obtain ⟨member, hit⟩ := lastEntry_mem found
        obtain ⟨valid, size, name⟩ := (hit_iff real).mp hit
        exact absurd (mem_validItems.mpr ⟨e, member, valid, name, size⟩) absent
  rw [store.read real, stored, missing]
  simp

theorem nodup_replaced {items : List (UInt8 × Nat)} (once : (items.map Prod.fst).Nodup)
    {itemId : UInt8} {size : Nat}
    : ((items.filter (fun e => e.1 != itemId) ++ [(itemId, size)]).map Prod.fst).Nodup := by
  have kept : ((items.filter (fun e => e.1 != itemId)).map Prod.fst).Nodup :=
    once.sublist (List.filter_sublist.map Prod.fst)
  rw [List.map_append, List.nodup_append]
  refine ⟨kept, by simp, ?_⟩
  intro first member second last
  obtain ⟨e, listed, rfl⟩ := List.mem_map.mp member
  obtain rfl : second = itemId := by simpa using last
  simpa using (List.mem_filter.mp listed).2

/-- With one entry for each id, the entries of an id are the one entry found. -/
theorem filter_of_nodup {items : List (UInt8 × Nat)} (once : (items.map Prod.fst).Nodup)
    {itemId : UInt8} {size : Nat} (member : (itemId, size) ∈ items)
    : items.filter (fun e => e.1 == itemId) = [(itemId, size)] := by
  induction items with
  | nil => contradiction
  | cons e rest ih =>
      rw [List.map_cons, List.nodup_cons] at once
      rw [List.filter_cons]
      rcases List.mem_cons.mp member with rfl | later
      · have none : rest.filter (fun e => e.1 == itemId) = [] := by
          rw [List.filter_eq_nil_iff]
          intro other listed same
          exact once.1 (List.mem_map.mpr ⟨other, listed, eq_of_beq same⟩)
        rw [if_pos (beq_self_eq_true _), none]
      · have different : ¬ (e.1 == itemId) = true := by
          intro same
          exact once.1 (eq_of_beq same ▸ List.mem_map_of_mem later)
        rw [if_neg different]
        exact ih once.2 later

theorem mem_replaced {items : List (UInt8 × Nat)} {itemId other : UInt8} {size total : Nat}
    : (other, size) ∈ items.filter (fun e => e.1 != itemId) ++ [(itemId, total)]
      ↔ other ≠ itemId ∧ (other, size) ∈ items ∨ other = itemId ∧ size = total := by
  simp [and_comm]

/-- The u16 total of a length cannot equal the one of another entry by wrapping. -/
theorem itemTotalLen_inj {len other : Nat} (short : len < u16Mod)
    (same : itemTotalLen len % u16Mod = other + 8)
    : len = other := by
  simp only [itemTotalLen, sizeofItemHdr, u16Mod] at *
  omega

theorem OneValue.step (one : OneValue b id m f) (call : OneLengthCall b id m c)
    : OneValue b id (c.after b id m)
        (if c.status b id m = .succ then f.put c.itemId c.buf else f) := by
  obtain ⟨k, es, settled, once, sizes⟩ := one.entries
  obtain ⟨i, l, done, items⟩ := call.validItems settled once
  by_cases good : c.status b id m = .succ
  case neg =>
      rw [if_neg good] at items ⊢
      refine ⟨⟨i, l, done.settled, by rw [items]; exact once, by rw [items]; exact sizes⟩, ?_⟩
      intro itemId real len short
      rw [← one.reads itemId real len short]
      by_cases here : itemId = c.itemId
      · rw [here]
        exact done.failed good len short
      · exact done.others itemId here real len short
  case pos =>
      rw [if_pos good] at items ⊢
      refine ⟨⟨i, l, done.settled, ?_, ?_⟩, ?_⟩
      · rw [items]
        exact nodup_replaced once
      · intro itemId size
        rw [items, mem_replaced, sizes]
        by_cases here : itemId = c.itemId
        · simp [here, ItemMap.put]
        · simp [here, ItemMap.put]
      · intro itemId real len short
        by_cases here : itemId = c.itemId
        · subst itemId
          have value : (f.put c.itemId c.buf) c.itemId = some c.buf := if_pos rfl
          rw [value]
          by_cases same : len = c.buf.length
          · subst len
            rw [done.written good, Option.filter_some, if_pos (beq_self_eq_true _)]
          · have absent : (c.itemId, itemTotalLen len % u16Mod) ∉ validItems l := by
              rw [items, mem_replaced]
              rintro (⟨other, _⟩ | ⟨_, size⟩)
              · exact other rfl
              · exact same (itemTotalLen_inj short size)
            rw [done.settled.store.read_none real absent, Option.filter_some,
              if_neg (by simpa using fun eq => same eq.symm)]
        · have value : (f.put c.itemId c.buf) itemId = f itemId := if_neg here
          rw [value, ← one.reads itemId real len short]
          exact done.others itemId here real len short

/-- A run keeps one value for each item, by induction on the calls. -/
theorem OneValue.run (one : OneValue b id m f) {calls : List NvCall}
    (meets : NvCall.AllMeet b id (OneLengthCall b id) calls m)
    : OneValue b id (NvCall.runAll b id calls m) (NvCall.mapAll b id calls m f) := by
  induction calls generalizing m f with
  | nil => exact one
  | cons c rest ih => exact ih (one.step meets.1) meets.2

theorem OneValue.erased (blank : m.BlankOn (modulesStartAddr b id) (moduleEnd b id))
    : OneValue b id m ItemMap.empty := by
  refine { entries := ⟨0, [], Settled.erased blank, by simp [validItems], ?_⟩, reads := ?_ }
  · simp [validItems, ItemMap.empty]
  · intro itemId real len _
    rw [(Store.erased blank).read real]
    simp [stored, lastEntry, ItemMap.empty]

theorem OneValue.valid (one : OneValue b id m f) {buf : List UInt8} {itemId : UInt8}
    (value : f itemId = some buf)
    : (nvValidItems b id m).filter (fun e => e.1 == itemId) = [(itemId, buf.length + 8)] := by
  obtain ⟨k, es, settled, once, sizes⟩ := one.entries
  rw [settled.store.validItems]
  exact filter_of_nodup once ((sizes itemId _).mpr ⟨buf, value, rfl⟩)

end Runs

end TelinkSdk
