import TelinkSdk.Drivers.NvRead

/-! What `nv_write_item` does to a sector: it appends one entry to the chain and fills the
bytes behind it, under every fault that does not lose the entry itself.
-/

namespace TelinkSdk

open Nor

-----------------------------------------------------------------------------------------
-- Checksums
-----------------------------------------------------------------------------------------

theorem checkSum_append (first second : List UInt8)
    : checkSum (first ++ second) = checkSum first + checkSum second := by
  simp [checkSum]

theorem checkSum_lt (buf : List UInt8) : checkSum buf ≤ 255 * buf.length := by
  induction buf with
  | nil => exact Nat.le_refl _
  | cons value rest ih =>
      have byte := value.toNat_lt
      simp only [checkSum, List.map_cons, List.sum_cons, List.length_cons] at ih ⊢
      omega

/-- The 16-byte rounds sum up the whole range, by induction on the bytes left. -/
theorem checkSumRead_eq (m : Mem) (fuel addr len : Nat) (enough : len ≤ fuel)
    : checkSumRead m fuel addr len = checkSum (m.read addr len) := by
  induction fuel generalizing addr len with
  | zero =>
      have empty : len = 0 := by omega
      subst len
      rfl
  | succ fuel ih =>
      rw [checkSumRead]
      by_cases empty : len = 0
      · subst len
        rfl
      · have width : (if len > 16 then 16 else len) ≤ len := by split <;> omega
        have positive : 0 < (if len > 16 then 16 else len) := by split <;> omega
        rw [if_pos (Nat.pos_of_ne_zero empty)]
        generalize (if len > 16 then 16 else len) = unitLen at width positive
        obtain ⟨rest, rfl⟩ := Nat.exists_eq_add_of_le width
        simp only [Nat.add_sub_cancel_left]
        rw [ih (addr + unitLen) rest (by omega), Mem.read_add, checkSum_append]

-----------------------------------------------------------------------------------------
-- Appending an item
-----------------------------------------------------------------------------------------

/-- The index entry of an item that is appended to a chain. -/
def Sector.nextEntry (s : Sector) (es : List InfoIdx) (itemId : UInt8) (len : Nat)
    (usedState : UInt8) : InfoIdx :=
  {
    offset := nextFree s.ctx es
    size := len + 8
    itemId
    usedState
  }

/-- Only the slot and the bytes of an item that is appended to the chain may differ. -/
def Appends (s : Sector) (es : List InfoIdx) (len : Nat) (m m' : Mem) : Prop :=
  ∀ x, (x < s.idxAddr es.length ∨ s.idxAddr es.length + 8 ≤ x)
    → (x < nextFree s.ctx es ∨ nextFree s.ctx es + (len + 8) ≤ x) → m' x = m x

/-- The item behind entry `e` is complete: it holds the buffer, or the bytes of its source
as far as they lie outside the sector.
-/
def ItemSource.Placed (s : Sector) (m : Mem) (e : InfoIdx) (m' : Mem) : ItemSource → Prop
  | .ram buf => itemAt m' e.itemId buf.length e = some buf
  | .flash addr len =>
      ∀ i < len + 8, (addr + i < s.base ∨ s.limit ≤ addr + i)
        → m' (e.offset + i) = m (addr + i)

theorem ItemSource.Placed.congr {s : Sector} {m m' m'' : Mem} {e e' : InfoIdx}
    {source : ItemSource} (placed : source.Placed s m e m') (offset : e'.offset = e.offset)
    (itemId : e'.itemId = e.itemId)
    (same : ∀ i < source.len + 8, m'' (e.offset + i) = m' (e.offset + i))
    : source.Placed s m e' m'' := by
  cases source with
  | ram buf =>
      simp only [ItemSource.Placed, itemId] at placed ⊢
      rw [← placed]
      exact itemAt_congr (fun i inside => by rw [offset]; exact same i inside)
  | flash addr len =>
      intro i inside apart
      rw [offset, same i inside]
      exact placed i inside apart

/-- The commands that the chain of entries rests on: the writes of index entries and the
erases.
-/
def Structural (b : Build) (id : Fin nvMaxModuls) : Cmd → Prop
  | .program addr bytes =>
      bytes.length = 8 ∧ ∃ k i, i < (moduleSector b id k).slots
        ∧ addr = (moduleSector b id k).idxAddr i
  | .erase _ _ => True

/-- The copy loop only programs its target range. -/
theorem nvWriteItem.copy_meets {critical : Cmd → Prop} {env : Env} {I : Mem → Prop}
    {low high : Nat}
    (stable : ∀ m addr bytes, I m → low ≤ addr → addr + bytes.length ≤ high
      → I (m.program addr bytes))
    (fuel toalLen sAddr dAddr : Nat) (d : Dev) (start : I d.mem) (after : low ≤ dAddr)
    (before : dAddr + toalLen ≤ high)
    : Prog.Meets critical env I (nvWriteItem.copy fuel toalLen sAddr dAddr) d
        (fun _ d' => I d'.mem ∧ d'.allocs = d.allocs) := by
  induction fuel generalizing toalLen sAddr dAddr d with
  | zero => exact .silent start rfl ⟨start, rfl⟩
  | succ fuel ih =>
      rw [nvWriteItem.copy]
      by_cases empty : toalLen > 0
      · have width : (if toalLen > 48 then 48 else toalLen) ≤ toalLen := by split <;> omega
        rw [if_pos empty]
        generalize (if toalLen > 48 then 48 else toalLen) = wLen at width
        apply Prog.Meets.read
        have kept : I (d.mem.program dAddr (d.mem.read sAddr wLen)) :=
          stable _ _ _ start after (by simp only [Mem.read_length]; omega)
        apply Prog.Meets.bind (flashWrite_keeps start kept)
        rintro _ d' ⟨same, next⟩
        have allocs : d'.allocs = d.allocs := by rw [same]; rfl
        rw [← allocs]
        exact ih _ _ _ d' next (by omega) (by omega)
      · rw [if_neg empty]
        exact .silent start rfl ⟨start, rfl⟩

/-- The buffers an item write asks for. -/
def ItemSource.buffers : ItemSource → Nat
  | .ram _ => 0
  | .flash _ _ => 1

/-- Writing the contents only programs the bytes behind the entry. -/
theorem nvWriteItem.content_meets {critical : Cmd → Prop} {env : Env} {I : Mem → Prop}
    {e : InfoIdx} {source : ItemSource} (size : e.size = source.len + 8)
    (stable : ∀ m addr bytes, I m → e.offset ≤ addr → addr + bytes.length ≤ e.offset + e.size
      → I (m.program addr bytes))
    (d : Dev) (start : I d.mem)
    : Prog.Meets critical env I (nvWriteItem.content e source) d
        (fun _ d' => I d'.mem ∧ d'.allocs = d.allocs + source.buffers) := by
  cases source with
  | ram buf =>
      simp only [ItemSource.len] at size
      have kept : I (d.mem.program (e.offset + sizeofItemHdr) buf) :=
        stable _ _ _ start (by omega) (by simp only [sizeofItemHdr]; omega)
      apply Prog.Meets.bind (flashWrite_keeps start kept)
      rintro _ d' ⟨same, next⟩
      have allocs : d'.allocs = d.allocs := by rw [same]; rfl
      apply Prog.Meets.read
      by_cases agreed : checkSum buf
          = checkSumRead d'.mem buf.length (e.offset + sizeofItemHdr) buf.length
      · rw [if_pos agreed]
        have headed (bytes : List UInt8) (length : bytes.length = 8)
            : I (d'.mem.program e.offset bytes) :=
          stable d'.mem e.offset bytes next (Nat.le_refl _) (by omega)
        apply Prog.Meets.bind (flashWrite_keeps next (headed _ rfl))
        rintro _ d'' ⟨same', final⟩
        exact .silent final rfl ⟨final, by rw [Prog.run_pure, same']; exact allocs⟩
      · rw [if_neg agreed]
        exact .silent next rfl ⟨next, allocs⟩
  | flash addr len =>
      apply Prog.Meets.skip rfl
      simp only [evBufAllocate, Prog.run]
      cases refused : env.noBuffer d.allocs with
      | true =>
          exact .silent start rfl ⟨start, rfl⟩
      | false =>
          apply Prog.Meets.bind
            (nvWriteItem.copy_meets stable e.size e.size addr e.offset
              { d with allocs := d.allocs + 1 } start (Nat.le_refl _) (Nat.le_refl _))
          rintro _ d' ⟨next, allocs⟩
          exact .silent next rfl ⟨next, allocs⟩

-----------------------------------------------------------------------------------------
-- The contents of a steady run
-----------------------------------------------------------------------------------------

/-- A steady copy into blank bytes moves every byte whose source is not part of the target,
by induction on the bytes left.
-/
theorem nvWriteItem.copy_steady {env : Env} (steady : env.Steady)
    (fuel toalLen sAddr dAddr : Nat) (d : Dev) (enough : toalLen ≤ fuel)
    (blank : d.mem.BlankOn dAddr (dAddr + toalLen))
    : (∀ i < toalLen, (sAddr + i < dAddr ∨ dAddr + toalLen ≤ sAddr + i)
        → (Prog.run env (nvWriteItem.copy fuel toalLen sAddr dAddr) d).2.mem (dAddr + i)
          = d.mem (sAddr + i))
      ∧ ∀ x, (x < dAddr ∨ dAddr + toalLen ≤ x)
        → (Prog.run env (nvWriteItem.copy fuel toalLen sAddr dAddr) d).2.mem x = d.mem x := by
  induction fuel generalizing toalLen sAddr dAddr d with
  | zero =>
      have empty : toalLen = 0 := by omega
      subst toalLen
      exact ⟨fun i inside => absurd inside (Nat.not_lt_zero i), fun x _ => rfl⟩
  | succ fuel ih =>
      rw [nvWriteItem.copy]
      by_cases empty : toalLen > 0
      · have width : (if toalLen > 48 then 48 else toalLen) ≤ toalLen := by split <;> omega
        have positive : 0 < (if toalLen > 48 then 48 else toalLen) := by split <;> omega
        rw [if_pos empty]
        generalize (if toalLen > 48 then 48 else toalLen) = wLen at width positive
        simp only [Prog.run_bind, Prog.run_view, run_flashWrite]
        have memory := steady.issue_mem d (.program dAddr (d.mem.read sAddr wLen))
        simp only [Cmd.apply] at memory
        have elsewhere {x : Nat} (outside : x < dAddr ∨ dAddr + wLen ≤ x)
            : (d.issue env (.program dAddr (d.mem.read sAddr wLen))).mem x = d.mem x := by
          rw [memory]
          exact Mem.program_outside (by simpa using outside)
        have later := ih (toalLen - wLen) (sAddr + wLen) (dAddr + wLen)
          (d.issue env (.program dAddr (d.mem.read sAddr wLen))) (by omega)
          (fun x low high => by
            rw [elsewhere (by omega)]
            exact blank x (by omega) (by omega))
        obtain ⟨copied, kept⟩ := later
        refine ⟨?_, ?_⟩
        · intro i inside apart
          by_cases first : i < wLen
          · rw [kept _ (by omega), memory, Mem.program_blank (by simpa using first)
              (blank _ (by omega) (by omega)), Mem.read_getD d.mem first]
          · have shifted := copied (i - wLen) (by omega) (by omega)
            have target : dAddr + wLen + (i - wLen) = dAddr + i := by omega
            have origin : sAddr + wLen + (i - wLen) = sAddr + i := by omega
            rw [target, origin] at shifted
            rw [shifted, elsewhere (by omega)]
        · intro x outside
          rw [kept x (by omega), elsewhere (by omega)]
      · rw [if_neg empty]
        exact ⟨fun i inside => absurd inside (by omega), fun x _ => rfl⟩

/-- The header that is written in front of a payload. -/
def payloadHdr (itemId : UInt8) (buf : List UInt8) : ItemHdr :=
  {
    checkSum := checkSum buf
    size := buf.length
    itemId
    used := itemFieldValid
  }

/-- Once its header and payload are in place, an item is read back. -/
theorem itemAt_written {m : Mem} {e : InfoIdx} {buf : List UInt8}
    (short : buf.length + 8 < u16Mod)
    (header : ∀ i < 8, m (e.offset + i) = (payloadHdr e.itemId buf).bytes.getD i blankByte)
    (payload : m.read (e.offset + 8) buf.length = buf)
    : itemAt m e.itemId buf.length e = some buf := by
  have sum := checkSum_lt buf
  have loaded := ItemHdr.load_of_bytes
    (show checkSum buf < u32Mod by simp only [u32Mod, u16Mod] at *; omega)
    (show buf.length < u16Mod by omega) header
  simp [itemAt, loaded, payloadHdr, sizeofItemHdr, payload]

/-- Writing a RAM item: the payload, then the header unless the checksum disagrees. -/
theorem nvWriteItem.run_content_ram (env : Env) (e : InfoIdx) (buf : List UInt8) (d : Dev)
    : Prog.run env (nvWriteItem.content e (.ram buf)) d
      = if checkSum buf
            = checkSum ((d.issue env (.program (e.offset + 8) buf)).mem.read
                (e.offset + 8) buf.length) then
          (.succ,
            (d.issue env (.program (e.offset + 8) buf)).issue env
              (.program e.offset (payloadHdr e.itemId buf).bytes))
        else (.checkSumError, d.issue env (.program (e.offset + 8) buf)) := by
  rw [← checkSumRead_eq _ buf.length _ _ (Nat.le_refl _)]
  change Prog.run env
      (if checkSum buf
          = checkSumRead (d.issue env (.program (e.offset + 8) buf)).mem buf.length
              (e.offset + 8) buf.length then _ else _) _ = _
  split <;> rfl

/-- Copying an item takes one allocation. -/
theorem nvWriteItem.run_content_flash (env : Env) (e : InfoIdx) (addr len : Nat) (d : Dev)
    : Prog.run env (nvWriteItem.content e (.flash addr len)) d
      = if env.noBuffer d.allocs then (.notEnoughSapce, { d with allocs := d.allocs + 1 })
        else
          (.succ,
            (Prog.run env (nvWriteItem.copy e.size e.size addr e.offset)
              { d with allocs := d.allocs + 1 }).2) := by
  change Prog.run env (if (!env.noBuffer d.allocs) = true then _ else _) _ = _
  cases env.noBuffer d.allocs with
  | true => rfl
  | false => exact Prog.run_bind env _ _ _

/-- A RAM item whose payload reached blank bytes passes its checksum. -/
theorem nvWriteItem.content_succ {env : Env} {e : InfoIdx} {buf : List UInt8} (d : Dev)
    (blank : d.mem.BlankOn (e.offset + 8) (e.offset + 8 + buf.length))
    (reached : env.accepts d = true ∨ ∀ value ∈ buf, value = blankByte)
    : (Prog.run env (nvWriteItem.content e (.ram buf)) d).1 = .succ := by
  have payload : (d.issue env (.program (e.offset + 8) buf)).mem.read (e.offset + 8) buf.length
      = buf := by
    by_cases accepted : env.accepts d = true
    · simp only [Dev.issue, Step.apply, Dev.step, accepted, if_true, Cmd.apply]
      exact Mem.program_read_blank blank
    · have allBlank := reached.resolve_left accepted
      simp only [Dev.issue, Step.apply, Dev.step, accepted, Bool.false_eq_true, if_false]
      apply Mem.read_eq_iff.mpr
      intro i inside
      rw [blank _ (by omega) (by omega), List.getD_eq_getElem?_getD,
        List.getElem?_eq_getElem inside, Option.getD_some]
      exact (allBlank _ (List.getElem_mem _)).symm
  rw [nvWriteItem.run_content_ram, payload, if_pos rfl]

/-- A steady run completes the item whenever it reports success. -/
theorem nvWriteItem.content_steady {env : Env} (steady : env.Steady) {s : Sector} {m : Mem}
    {e : InfoIdx} {source : ItemSource} (d : Dev) (size : e.size = source.len + 8)
    (short : e.size < u16Mod) (above : s.base ≤ e.offset) (below : e.offset + e.size ≤ s.limit)
    (blank : d.mem.BlankOn e.offset (e.offset + e.size))
    (outside : ∀ x, (x < s.base ∨ s.limit ≤ x) → d.mem x = m x)
    (good : (Prog.run env (nvWriteItem.content e source) d).1 = .succ)
    : source.Placed s m e (Prog.run env (nvWriteItem.content e source) d).2.mem := by
  cases source with
  | ram buf =>
      simp only [ItemSource.len] at size
      have payload := @Mem.program_read_blank d.mem (e.offset + 8) buf
        (fun x low high => blank x (by omega) (by omega))
      rw [nvWriteItem.run_content_ram, steady.issue_mem, Cmd.apply, payload, if_pos rfl]
      simp only [steady.issue_mem, Cmd.apply]
      apply itemAt_written (by omega)
      · intro i inside
        apply Mem.program_blank (by simpa using inside)
        rw [Mem.program_outside (by omega)]
        exact blank _ (by omega) (by omega)
      · conv_rhs => rw [← payload]
        apply Mem.read_congr
        intro i inside
        exact Mem.program_outside (by simp only [ItemHdr.bytes_length]; omega)
  | flash addr len =>
      simp only [ItemSource.len] at size
      rw [nvWriteItem.run_content_flash] at good ⊢
      cases refused : env.noBuffer d.allocs with
      | true => simp [refused] at good
      | false =>
          have copied := nvWriteItem.copy_steady steady e.size e.size addr e.offset
            { d with allocs := d.allocs + 1 } (Nat.le_refl _) blank
          intro i inside apart
          rw [if_neg (by simp), copied.1 i (by omega) (by omega)]
          exact outside _ (by omega)

-----------------------------------------------------------------------------------------
-- Writing an item
-----------------------------------------------------------------------------------------

/-- What may be found at a cut while an item is appended to the chain `es`: the old chain,
or the longer one. A steady run marks the entry valid only when the item is complete.
-/
def Appending (env : Env) (s : Sector) (es : List InfoIdx) (itemId : UInt8)
    (source : ItemSource) (m m' : Mem) : Prop :=
  Appends s es source.len m m'
    ∧ (Chain s es m'
      ∨ ∃ state, Chain s (es ++ [s.nextEntry es itemId source.len state]) m'
        ∧ (state = itemFieldOperation ∨ state = itemFieldValid
          ∧ (env.Steady → source.Placed s m (s.nextEntry es itemId source.len state) m')))

/-- What an item write leaves behind: the longer chain, whose last entry is valid only
after a success and, in a steady run, always then.
-/
structure Appended (env : Env) (s : Sector) (es : List InfoIdx) (itemId : UInt8)
    (source : ItemSource) (ret : NvSts) (m : Mem) (state : UInt8) (m' : Mem) : Prop where
  frame : Appends s es source.len m m'
  chain : Chain s (es ++ [s.nextEntry es itemId source.len state]) m'
  failed : ret ≠ .succ → state = itemFieldOperation
  states : state = itemFieldOperation ∨ state = itemFieldValid
  complete : ret = .succ → env.Steady
    → state = itemFieldValid
      ∧ source.Placed s m (s.nextEntry es itemId source.len state) m'

/-- The status of an item write: copies need a buffer, RAM items fail only when the payload
was lost, the second command of the write.
-/
def ItemStatus (env : Env) (d : Dev) (ret : NvSts) : ItemSource → Prop
  | .ram buf =>
      (env.lockGuards = false ∨ env.knownChip = true)
        → (env.lowVoltage (d.issued + 1) = false ∨ ∀ value ∈ buf, value = blankByte)
        → ret = .succ
  | .flash _ _ => ret = if env.noBuffer d.allocs then .notEnoughSapce else .succ

theorem Appends.refl (s : Sector) (es : List InfoIdx) (len : Nat) (m : Mem)
    : Appends s es len m m :=
  fun _ _ _ => rfl

/-- Programming inside the slot or inside the item stays within the frame. -/
theorem Appends.program {s : Sector} {es : List InfoIdx} {len : Nat} {m m' : Mem}
    (frame : Appends s es len m m') {addr : Nat} {bytes : List UInt8}
    (inside : (s.idxAddr es.length ≤ addr ∧ addr + bytes.length ≤ s.idxAddr es.length + 8)
      ∨ (nextFree s.ctx es ≤ addr
        ∧ addr + bytes.length ≤ nextFree s.ctx es + (len + 8)))
    : Appends s es len m (m'.program addr bytes) := by
  intro x slot item
  rw [Mem.program_outside (by omega)]
  exact frame x slot item

/-- Programming inside the last item of a chain keeps the chain. -/
theorem Chain.programItem {s : Sector} {es : List InfoIdx} {m : Mem} {itemId state : UInt8}
    {len : Nat} (chain : Chain s (es ++ [s.nextEntry es itemId len state]) m)
    {addr : Nat} {bytes : List UInt8} (low : nextFree s.ctx es ≤ addr)
    (high : addr + bytes.length ≤ nextFree s.ctx es + (len + 8))
    : Chain s (es ++ [s.nextEntry es itemId len state]) (m.program addr bytes) := by
  have start := le_nextFree s.ctx es
  have finish := le_alignUp (nextFree s.ctx es + (len + 8))
  apply chain.data
  intro x _ _ outside
  simp only [nextFree_append, Sector.nextEntry] at outside
  exact Mem.program_outside (by omega)

/-- Masking the state of the last entry. -/
theorem Chain.markLast {s : Sector} {es : List InfoIdx} {m : Mem} {itemId state : UInt8}
    {len : Nat} (chain : Chain s (es ++ [s.nextEntry es itemId len state]) m) (value : UInt8)
    : Chain s (es ++ [s.nextEntry es itemId len (state &&& value)])
        (m.program (s.idxAddr es.length + 7) [value]) := by
  have marked := chain.mark (show es.length < _ by simp) value
  have last : markEntry (es ++ [s.nextEntry es itemId len state]) es.length value
      = es ++ [s.nextEntry es itemId len (state &&& value)] := by
    rw [markEntry, List.modify_eq_take_cons_drop (by simp)]
    simp [Sector.nextEntry]
  rwa [last] at marked

/-- The array right after an entry was put into the next slot. -/
structure Indexed (s : Sector) (es : List InfoIdx) (itemId : UInt8) (len : Nat) (m m' : Mem)
    : Prop where
  frame : Appends s es len m m'
  chain : Chain s (es ++ [s.nextEntry es itemId len itemFieldOperation]) m'
  blank : m'.BlankOn (nextFree s.ctx es) (nextFree s.ctx es + (len + 8))

theorem Chain.indexed {s : Sector} {es : List InfoIdx} {m : Mem} (chain : Chain s es m)
    (itemId : UInt8) {len : Nat} (room : es.length < s.slots)
    (fits : nextFree s.ctx es + (len + 8) ≤ s.limit)
    : Indexed s es itemId len m
        (m.program (s.idxAddr es.length)
          (s.nextEntry es itemId len itemFieldOperation).bytes) := by
  have area := le_nextFree s.ctx es
  obtain ⟨first, last, context⟩ := s.idxAddr_bounds room
  refine {
    frame := ?_
    chain := chain.append room rfl (show 8 ≤ len + 8 by omega) fits
    blank := ?_
  }
  · exact (Appends.refl _ _ _ _).program
      (Or.inl ⟨Nat.le_refl _, by simp only [InfoIdx.bytes_length]; omega⟩)
  · intro x low high
    rw [Mem.program_outside (by simp only [InfoIdx.bytes_length]; omega)]
    exact chain.blank x low (by omega)

/-- What the contents of an item leave: the entry in operation and, where every command takes
effect, the whole item if they were stored.
-/
structure Filled (env : Env) (s : Sector) (es : List InfoIdx) (itemId : UInt8)
    (source : ItemSource) (ret : NvSts) (m m' : Mem) : Prop where
  frame : Appends s es source.len m m'
  chain : Chain s (es ++ [s.nextEntry es itemId source.len itemFieldOperation]) m'
  complete : ret = .succ → env.Steady
    → source.Placed s m (s.nextEntry es itemId source.len itemFieldOperation) m'

section Filled

variable {env : Env} {s : Sector} {es : List InfoIdx} {itemId : UInt8} {source : ItemSource}
  {ret : NvSts} {m m' : Mem}

theorem Filled.appending (filled : Filled env s es itemId source ret m m')
    : Appending env s es itemId source m m' :=
  ⟨filled.frame, .inr ⟨_, filled.chain, .inl rfl⟩⟩

/-- An entry that is not marked stays in operation. -/
theorem Filled.unmarked (filled : Filled env s es itemId source ret m m')
    (lost : ret = .succ → ¬env.Steady)
    : Appended env s es itemId source ret m itemFieldOperation m' where
  frame := filled.frame
  chain := filled.chain
  failed _ := rfl
  states := .inl rfl
  complete good steady := absurd steady (lost good)

/-- The mark makes the entry valid and leaves the item as it is. -/
theorem Filled.marked (filled : Filled env s es itemId source .succ m m')
    (room : es.length < s.slots)
    : Appended env s es itemId source .succ m itemFieldValid
        (m'.program (s.idxAddr es.length + 7) [itemFieldValid]) := by
  have area := le_nextFree s.ctx es
  obtain ⟨first, last, context⟩ := s.idxAddr_bounds room
  have state : itemFieldOperation &&& itemFieldValid = itemFieldValid := by decide
  have marked := filled.chain.markLast itemFieldValid
  rw [state] at marked
  refine {
    frame := filled.frame.program
      (.inl ⟨by omega, by simp only [List.length_singleton]; omega⟩)
    chain := marked
    failed := fun bad => absurd rfl bad
    states := .inr rfl
    complete := fun _ steady => ⟨rfl, ?_⟩
  }
  apply (filled.complete rfl steady).congr rfl rfl
  intro i inside
  exact Mem.program_outside (by
    simp only [List.length_singleton, Sector.nextEntry]
    omega)

theorem Appended.appending (appended : Appended env s es itemId source .succ m itemFieldValid m')
    : Appending env s es itemId source m m' :=
  ⟨appended.frame, .inr ⟨_, appended.chain, .inr ⟨rfl, fun steady =>
    (appended.complete rfl steady).2⟩⟩⟩

/-- The mark and the lock at the end of an item write. -/
theorem nvWriteItem.markValid_meets {critical : Cmd → Prop} {d : Dev}
    (filled : Filled env s es itemId source ret m d.mem) (room : es.length < s.slots)
    : Prog.Meets critical env (Appending env s es itemId source m)
        (do
          nvWriteItem.markValid ret (s.idxAddr es.length + 7)
          flashLock
          pure ret)
        d
        (fun ret' d' =>
          (∃ state, Appended env s es itemId source ret' m state d'.mem)
            ∧ ret' = ret ∧ d'.allocs = d.allocs) := by
  have start := filled.appending
  by_cases good : ret = .succ
  · subst good
    have marked := filled.marked room
    simp only [nvWriteItem.markValid, if_true]
    apply Prog.Meets.bind (flashWrite_meets start marked.appending)
    rintro _ d' ⟨same, memory⟩
    have allocs : d'.allocs = d.allocs := by rw [same]; rfl
    apply Prog.Meets.skip (trace_flashLock env d')
    rw [run_flashLock]
    rcases memory with reached | ⟨refused, lost⟩
    · rw [← reached] at marked
      exact .silent marked.appending rfl ⟨⟨_, marked⟩, rfl, allocs⟩
    · rw [← lost] at start filled
      have unsteady : ¬env.Steady := fun steady => by
        rw [steady.accepts] at refused
        contradiction
      exact .silent start rfl ⟨⟨_, filled.unmarked fun _ => unsteady⟩, rfl, allocs⟩
  · simp only [nvWriteItem.markValid, good, if_false]
    apply Prog.Meets.skip rfl
    rw [Prog.run_pure]
    apply Prog.Meets.skip (trace_flashLock env d)
    rw [run_flashLock]
    exact .silent start rfl ⟨⟨_, filled.unmarked fun yes => absurd yes good⟩, rfl, rfl⟩

end Filled

/-- The rest of an item write, once its entry is in place. The contents keep the entry in
operation; the state byte is masked last and only after a success.
-/
theorem nvWriteItem.finish_meets {critical : Cmd → Prop} {env : Env} {s : Sector}
    {es : List InfoIdx} {m : Mem} {d : Dev} {itemId : UInt8} {source : ItemSource}
    (indexed : Indexed s es itemId source.len m d.mem) (room : es.length < s.slots)
    (fits : nextFree s.ctx es + (source.len + 8) ≤ s.limit)
    : Prog.Meets critical env (Appending env s es itemId source m)
        (do
          let ret ← nvWriteItem.content
            (s.nextEntry es itemId source.len itemFieldOperation) source
          nvWriteItem.markValid ret (s.idxAddr es.length + 7)
          flashLock
          pure ret)
        d
        (fun ret d' =>
          (∃ state, Appended env s es itemId source ret m state d'.mem)
            ∧ ret = (Prog.run env (nvWriteItem.content
                (s.nextEntry es itemId source.len itemFieldOperation) source) d).1
            ∧ d'.allocs = d.allocs + source.buffers) := by
  have small := s.size_small
  have limitEq : s.limit = s.base + s.size := rfl
  have ctxEq : s.ctx = s.base + s.info := rfl
  have area := le_nextFree s.ctx es
  obtain ⟨first, last, context⟩ := s.idxAddr_bounds room
  have content := @nvWriteItem.content_meets critical env
    (fun m' => Appends s es source.len m m'
      ∧ Chain s (es ++ [s.nextEntry es itemId source.len itemFieldOperation]) m')
    (s.nextEntry es itemId source.len itemFieldOperation) source rfl
    (fun m' addr bytes held low high =>
      ⟨held.1.program (Or.inr ⟨low, high⟩), held.2.programItem low high⟩)
    d ⟨indexed.frame, indexed.chain⟩
  have placed := fun steady => @nvWriteItem.content_steady env steady s m
    (s.nextEntry es itemId source.len itemFieldOperation) source d rfl
    (show source.len + 8 < u16Mod by simp only [u16Mod]; omega)
    (show s.base ≤ nextFree s.ctx es by omega) fits indexed.blank
    (fun x outside => indexed.frame x (by omega) (by omega))
  have both := content.outcome
    (R := fun ret d' => ret = (Prog.run env (nvWriteItem.content
        (s.nextEntry es itemId source.len itemFieldOperation) source) d).1
      ∧ (ret = .succ → env.Steady
        → source.Placed s m (s.nextEntry es itemId source.len itemFieldOperation) d'.mem))
    ⟨rfl, fun good steady => placed steady good⟩
  apply Prog.Meets.bind (both.mono
    (fun m' held => ⟨held.1, Or.inr ⟨_, held.2, Or.inl rfl⟩⟩) (fun _ _ post => post))
  rintro ret d' ⟨⟨⟨frame, chain⟩, allocs⟩, status, complete⟩
  have filled : Filled env s es itemId source ret m d'.mem := ⟨frame, chain, complete⟩
  apply (nvWriteItem.markValid_meets filled room).mono (fun _ held => held)
  rintro ret' d'' ⟨appended, rfl, kept⟩
  exact ⟨appended, status, kept.trans allocs⟩

/-- The total length of an item that fits is a 16-bit number. -/
theorem Sector.item_short (s : Sector) {es : List InfoIdx} {len : Nat}
    (fits : nextFree s.ctx es + (len + 8) ≤ s.limit)
    : len + 8 < u16Mod := by
  have small := s.size_small
  have area := le_nextFree s.ctx es
  simp only [Sector.limit, Sector.ctx] at fits area
  simp only [u16Mod]
  omega

/-- The parts of writing an item behind a chain: the entry, the contents and the mark on the entry.
-/
theorem Chain.nvWriteItem_continues {env : Env} {b : Build} {id : Fin nvMaxModuls} {k : Fin 2}
    {es : List InfoIdx} {d : Dev} (chain : Chain (moduleSector b id k) es d.mem) (itemId : UInt8)
    (source : ItemSource) (short : source.len + 8 < u16Mod)
    : Prog.Continues env (nvWriteItem b id itemId k es.length source) d
        (flashWrite ((moduleSector b id k).idxAddr es.length)
            ((moduleSector b id k).nextEntry es itemId source.len itemFieldOperation).bytes
          >>= fun _ => nvWriteItem.content
              ((moduleSector b id k).nextEntry es itemId source.len itemFieldOperation) source
            >>= fun ret => nvWriteItem.markValid ret ((moduleSector b id k).idxAddr es.length + 7)
              >>= fun _ => flashLock >>= fun _ => pure ret)
        (lockTo env false d) := by
  have size : itemTotalLen source.len % u16Mod = source.len + 8 := Nat.mod_eq_of_lt short
  rw [nvWriteItem]
  refine (Prog.Continues.skip rfl).trans ((Prog.Continues.skip (trace_flashUnlock env _)).trans ?_)
  rw [Prog.run_view, run_flashUnlock, chain.offset, size]
  exact .refl _ _

/-- `nv_write_item` appends one entry to the chain, whatever the faults, as long as the
entry itself is not lost.
Witness: the bytes behind the chain are blank, so the entry is stored as written; the later
commands stay inside the item and the state byte of the new slot.
-/
theorem nvWriteItem_meets {env : Env} {b : Build} {id : Fin nvMaxModuls} {k : Fin 2}
    {es : List InfoIdx} {d : Dev} (itemId : UInt8) (source : ItemSource)
    (chain : Chain (moduleSector b id k) es d.mem)
    (room : es.length < (moduleSector b id k).slots)
    (fits : nextFree (moduleSector b id k).ctx es + (source.len + 8)
      ≤ (moduleSector b id k).limit)
    : Prog.Meets (Structural b id) env
        (Appending env (moduleSector b id k) es itemId source d.mem)
        (nvWriteItem b id itemId k es.length source) d
        (fun ret d' =>
          (∃ state, Appended env (moduleSector b id k) es itemId source ret d.mem state d'.mem)
            ∧ ItemStatus env d ret source ∧ d'.allocs = d.allocs + source.buffers) := by
  have indexed := chain.indexed itemId room fits
  apply (chain.nvWriteItem_continues itemId source ((moduleSector b id k).item_short fits)).meets
  apply Prog.Meets.bind (flashWrite_essential
    ⟨rfl, k, es.length, room, rfl⟩ ⟨Appends.refl _ _ _ _, Or.inl chain⟩
    ⟨indexed.frame, Or.inr ⟨_, indexed.chain, Or.inl rfl⟩⟩)
  rintro _ d' ⟨same, memory⟩
  have placed : Indexed (moduleSector b id k) es itemId source.len d.mem d'.mem := by
    rw [memory]
    exact indexed
  have issued : d'.issued = d.issued + 1 := by rw [same]; rfl
  have allocs : d'.allocs = d.allocs := by rw [same]; rfl
  have lock : d'.locked = if env.knownChip then false else d.locked := by rw [same]; rfl
  apply (nvWriteItem.finish_meets placed room fits).mono (fun _ cut => cut)
  rintro ret d'' ⟨appended, status, buffers⟩
  refine ⟨appended, ?_, by rw [buffers, allocs]⟩
  rw [status]
  cases source with
  | ram buf =>
      intro opens reached
      have unguarded : (env.lockGuards && d'.locked) = false := by
        rw [lock]
        rcases opens with unguarded | known
        · rw [unguarded, Bool.false_and]
        · rw [known, if_pos rfl, Bool.and_false]
      apply nvWriteItem.content_succ d'
      · intro x low high
        exact placed.blank x (by simp only [Sector.nextEntry] at low; omega)
          (by simp only [Sector.nextEntry, ItemSource.len] at high ⊢; omega)
      · exact reached.imp_left (fun supplied => by simp [Env.accepts, issued, supplied, unguarded])
  | flash addr len =>
      rw [ItemStatus, nvWriteItem.run_content_flash, allocs]
      split <;> rfl

end TelinkSdk
