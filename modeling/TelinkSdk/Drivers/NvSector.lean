import TelinkSdk.Drivers.Nv

/-! One NV sector as an append-only chain of index entries.
The chain invariant says which slots are in use, where the items lie and which bytes are
still blank. Each kind of write the driver makes inside a sector has one lemma here.
-/

namespace TelinkSdk

open Nor

-----------------------------------------------------------------------------------------
-- Rounding
-----------------------------------------------------------------------------------------

/-- Round up to a multiple of four, without the 32-bit wrap of `roundUp4`. -/
def alignUp (x : Nat) : Nat := (x + 3) / 4 * 4

theorem roundUp4_eq_alignUp {x : Nat} (small : x + 3 < u32Mod) : roundUp4 x = alignUp x := by
  rw [roundUp4, alignUp, Nat.mod_eq_of_lt small]

theorem le_alignUp (x : Nat) : x ≤ alignUp x := by unfold alignUp; omega

theorem alignUp_aligned (x : Nat) : alignUp x % 4 = 0 := by unfold alignUp; omega

theorem alignUp_of_aligned {x : Nat} (aligned : x % 4 = 0) : alignUp x = x := by
  unfold alignUp
  omega

theorem alignUp_add {x : Nat} (y : Nat) (aligned : x % 4 = 0)
    : alignUp (x + y) = x + alignUp y := by
  unfold alignUp
  omega

theorem alignUp_le {x limit : Nat} (le : x ≤ limit) (aligned : limit % 4 = 0)
    : alignUp x ≤ limit := by
  unfold alignUp
  omega

-----------------------------------------------------------------------------------------
-- Stored index entries
-----------------------------------------------------------------------------------------

@[simp]
theorem InfoIdx.bytes_length (e : InfoIdx) : e.bytes.length = 8 := rfl

@[simp]
theorem ItemHdr.bytes_length (h : ItemHdr) : h.bytes.length = 8 := rfl

@[simp]
theorem SectInfo.bytes_length (s : SectInfo) : s.bytes.length = 4 := rfl

theorem InfoIdx.load_congr {m m' : Mem} {addr addr' : Nat}
    (same : ∀ i < 8, m' (addr' + i) = m (addr + i))
    : InfoIdx.load m' addr' = InfoIdx.load m addr := by
  have offset : m'.le32 addr' = m.le32 addr := Mem.le32_congr fun i inside => same i (by omega)
  have size : m'.le16 (addr' + 4) = m.le16 (addr + 4) := by
    apply Mem.le16_congr
    intro i inside
    rw [Nat.add_assoc, Nat.add_assoc]
    exact same (4 + i) (by omega)
  simp only [InfoIdx.load, offset, size, same 6 (by omega), same 7 (by omega)]

/-- An entry is read back once its eight bytes are in place. -/
theorem InfoIdx.load_of_bytes {m : Mem} {addr : Nat} {e : InfoIdx} (offset : e.offset < u32Mod)
    (size : e.size < u16Mod) (stored : ∀ i < 8, m (addr + i) = e.bytes.getD i blankByte)
    : InfoIdx.load m addr = e := by
  have offsetRead : m.le32 addr = e.offset := by
    apply Mem.le32_of_bytes offset
    intro i inside
    rw [stored i (by omega)]
    have cases : i = 0 ∨ i = 1 ∨ i = 2 ∨ i = 3 := by omega
    rcases cases with rfl | rfl | rfl | rfl <;> rfl
  have sizeRead : m.le16 (addr + 4) = e.size := by
    apply Mem.le16_of_bytes size
    intro i inside
    rw [Nat.add_assoc, stored (4 + i) (by omega)]
    have cases : i = 0 ∨ i = 1 := by omega
    rcases cases with rfl | rfl <;> rfl
  have idRead : m (addr + 6) = e.itemId := stored 6 (by omega)
  have stateRead : m (addr + 7) = e.usedState := stored 7 (by omega)
  simp only [InfoIdx.load, offsetRead, sizeRead, idRead, stateRead]

/-- Masking the state byte of a slot changes only that field. -/
theorem InfoIdx.load_mark (m : Mem) (addr : Nat) (value : UInt8)
    : InfoIdx.load (m.program (addr + 7) [value]) addr
      = { InfoIdx.load m addr with usedState := m (addr + 7) &&& value } := by
  have other : ∀ i, i ≠ 7 → m.program (addr + 7) [value] (addr + i) = m (addr + i) := by
    intro i different
    rw [Mem.program_byte, if_neg (by omega)]
  have offset : (m.program (addr + 7) [value]).le32 addr = m.le32 addr :=
    Mem.le32_congr (fun i inside => other i (by omega))
  have size : (m.program (addr + 7) [value]).le16 (addr + 4) = m.le16 (addr + 4) := by
    apply Mem.le16_congr
    intro i inside
    rw [Nat.add_assoc]
    exact other (4 + i) (by omega)
  have state : m.program (addr + 7) [value] (addr + 7) = m (addr + 7) &&& value := by
    rw [Mem.program_byte, if_pos rfl]
  simp only [InfoIdx.load, offset, size, other 6 (by omega), state]

/-- A slot of eight blank bytes. -/
def InfoIdx.idle : InfoIdx :=
  {
    offset := 4294967295
    size := 65535
    itemId := blankByte
    usedState := blankByte
  }

theorem InfoIdx.load_blank {m : Mem} {addr : Nat} (blank : m.BlankOn addr (addr + 8))
    : InfoIdx.load m addr = InfoIdx.idle := by
  apply InfoIdx.load_of_bytes (by decide) (by decide)
  intro i inside
  rw [blank _ (by omega) (by omega)]
  have cases : i = 0 ∨ i = 1 ∨ i = 2 ∨ i = 3 ∨ i = 4 ∨ i = 5 ∨ i = 6 ∨ i = 7 := by omega
  rcases cases with rfl | rfl | rfl | rfl | rfl | rfl | rfl | rfl <;> rfl

-----------------------------------------------------------------------------------------
-- Sectors
-----------------------------------------------------------------------------------------

/-- A region with a 4-byte head, a table of `slots` index entries and, from `info` on, the
context area that holds the items.
-/
structure Sector where
  base : Nat
  info : Nat
  size : Nat
  slots : Nat
  slots_pos : 0 < slots
  slots_fit : 4 + slots * 8 ≤ info
  info_fit : info + 8 ≤ size
  info_aligned : info % 4 = 0
  base_aligned : base % 4096 = 0
  size_aligned : size % 4096 = 0
  size_small : size ≤ 16384
  bounded : base + size < 16777216

/-- The address of index slot `i`. -/
def Sector.idxAddr (s : Sector) (i : Nat) : Nat := s.base + 4 + i * 8

/-- The start of the context area. -/
def Sector.ctx (s : Sector) : Nat := s.base + s.info

/-- The first address after the sector. -/
def Sector.limit (s : Sector) : Nat := s.base + s.size

/-- The entry in index slot `i`. -/
def Sector.entry (s : Sector) (m : Mem) (i : Nat) : InfoIdx := InfoIdx.load m (s.idxAddr i)

theorem Sector.ctx_aligned (s : Sector) : s.ctx % 4 = 0 := by
  have base := s.base_aligned
  have info := s.info_aligned
  unfold Sector.ctx
  omega

theorem Sector.limit_aligned (s : Sector) : s.limit % 4 = 0 := by
  have base := s.base_aligned
  have size := s.size_aligned
  unfold Sector.limit
  omega

/-- The geometry of a sector as linear facts about slot `i`. -/
theorem Sector.idxAddr_bounds (s : Sector) {i : Nat} (inside : i < s.slots)
    : s.base + 4 ≤ s.idxAddr i ∧ s.idxAddr i + 8 ≤ s.ctx ∧ s.ctx + 8 ≤ s.limit := by
  have slots := s.slots_fit
  have info := s.info_fit
  simp only [Sector.idxAddr, Sector.ctx, Sector.limit]
  omega

theorem Sector.idxAddr_apart (s : Sector) {i j : Nat} (different : i ≠ j)
    : s.idxAddr i + 8 ≤ s.idxAddr j ∨ s.idxAddr j + 8 ≤ s.idxAddr i := by
  unfold Sector.idxAddr
  omega

-----------------------------------------------------------------------------------------
-- Chains of entries
-----------------------------------------------------------------------------------------

/-- Each entry starts where the one before ended, rounded up to four. -/
def Linked (start : Nat) : List InfoIdx → Prop
  | [] => True
  | e :: rest => e.offset = start ∧ 8 ≤ e.size ∧ Linked (alignUp (start + e.size)) rest

/-- The place after a chain that begins at `start`. -/
def nextFree (start : Nat) : List InfoIdx → Nat
  | [] => start
  | e :: rest => nextFree (alignUp (start + e.size)) rest

@[simp]
theorem nextFree_append (start : Nat) (es : List InfoIdx) (e : InfoIdx)
    : nextFree start (es ++ [e]) = alignUp (nextFree start es + e.size) := by
  induction es generalizing start with
  | nil => rfl
  | cons first rest ih => exact ih _

theorem linked_append {start : Nat} {es : List InfoIdx} {e : InfoIdx}
    : Linked start (es ++ [e])
      ↔ Linked start es ∧ e.offset = nextFree start es ∧ 8 ≤ e.size := by
  induction es generalizing start with
  | nil => simp [Linked, nextFree]
  | cons first rest ih => simp only [List.cons_append, Linked, nextFree, ih, and_assoc]

theorem le_nextFree (start : Nat) (es : List InfoIdx) : start ≤ nextFree start es := by
  induction es generalizing start with
  | nil => exact Nat.le_refl _
  | cons e rest ih =>
      have first := le_alignUp (start + e.size)
      have later := ih (alignUp (start + e.size))
      simp only [nextFree]
      omega

theorem nextFree_aligned {start : Nat} (es : List InfoIdx) (aligned : start % 4 = 0)
    : nextFree start es % 4 = 0 := by
  induction es generalizing start with
  | nil => exact aligned
  | cons e rest ih => exact ih (alignUp_aligned _)

/-- Every entry of a chain lies between its start and the place after it. -/
theorem Linked.inside {start : Nat} {es : List InfoIdx} (linked : Linked start es)
    {e : InfoIdx} (member : e ∈ es)
    : start ≤ e.offset ∧ 8 ≤ e.size ∧ e.offset + e.size ≤ nextFree start es := by
  induction es generalizing start with
  | nil => simp at member
  | cons first rest ih =>
      obtain ⟨offset, size, tail⟩ := linked
      have ends := le_alignUp (start + first.size)
      rcases List.mem_cons.mp member with same | later
      · subst e
        have grows := le_nextFree (alignUp (start + first.size)) rest
        simp only [nextFree]
        omega
      · obtain ⟨low, positive, high⟩ := ih tail later
        simp only [nextFree]
        omega

/-- Chains and the place after them depend only on offsets and sizes. -/
theorem linked_congr {start : Nat} {es es' : List InfoIdx}
    (offsets : es'.map InfoIdx.offset = es.map InfoIdx.offset)
    (sizes : es'.map InfoIdx.size = es.map InfoIdx.size)
    : (Linked start es' ↔ Linked start es) ∧ nextFree start es' = nextFree start es := by
  induction es generalizing start es' with
  | nil =>
      have empty : es' = [] := by simpa using offsets
      simp [empty]
  | cons e rest ih =>
      cases es' with
      | nil => simp at offsets
      | cons e' rest' =>
          simp only [List.map_cons, List.cons.injEq] at offsets sizes
          obtain ⟨link, free⟩ := @ih (alignUp (start + e.size)) rest' offsets.2 sizes.2
          simp only [Linked, nextFree, offsets.1, sizes.1, link, free, and_self]

/-- The sector's index table holds exactly the chain `es`, in order from slot 0; its items
lie one after the other in the context area, and every byte of the remaining slots and of
the remaining context area is blank.
-/
structure Chain (s : Sector) (es : List InfoIdx) (m : Mem) : Prop where
  count : es.length ≤ s.slots
  slot : ∀ i (inside : i < es.length), s.entry m i = es[i]
  idle : ∀ i, es.length ≤ i → i < s.slots → m.BlankOn (s.idxAddr i) (s.idxAddr i + 8)
  linked : Linked s.ctx es
  fits : nextFree s.ctx es ≤ s.limit
  blank : m.BlankOn (nextFree s.ctx es) s.limit

/-- An erased sector is the empty chain. -/
theorem Chain.empty {s : Sector} {m : Mem} (blank : m.BlankOn (s.base + 4) s.limit)
    : Chain s [] m := by
  have info := s.info_fit
  refine {
    count := Nat.zero_le _
    slot := fun i inside => absurd inside (Nat.not_lt_zero i)
    idle := ?_
    linked := trivial
    fits := ?_
    blank := ?_
  }
  · intro i _ inside x low high
    obtain ⟨start, finish, area⟩ := s.idxAddr_bounds inside
    exact blank x (by omega) (by omega)
  · simp only [nextFree, Sector.ctx, Sector.limit]
    omega
  · intro x low high
    have slots := s.slots_fit
    simp only [nextFree, Sector.ctx] at low
    exact blank x (by omega) high

/-- A write into the items of the chain leaves its table and its blank bytes alone. -/
theorem Chain.data {s : Sector} {es : List InfoIdx} {m m' : Mem} (chain : Chain s es m)
    (same : ∀ x, s.base + 4 ≤ x → x < s.limit → (x < s.ctx ∨ nextFree s.ctx es ≤ x) → m' x = m x)
    : Chain s es m' := by
  refine {
    count := chain.count
    slot := ?_
    idle := ?_
    linked := chain.linked
    fits := chain.fits
    blank := ?_
  }
  · intro i inside
    obtain ⟨start, finish, area⟩ := s.idxAddr_bounds (Nat.lt_of_lt_of_le inside chain.count)
    rw [← chain.slot i inside]
    exact InfoIdx.load_congr
      (fun j small => same _ (by omega) (by omega) (Or.inl (by omega)))
  · intro i low high x start finish
    obtain ⟨first, last, area⟩ := s.idxAddr_bounds high
    rw [same x (by omega) (by omega) (Or.inl (by omega))]
    exact chain.idle i low high x start finish
  · intro x low high
    have area := le_nextFree s.ctx es
    obtain ⟨first, last, _⟩ := s.idxAddr_bounds s.slots_pos
    rw [same x (by omega) high (Or.inr low)]
    exact chain.blank x low high

/-- A chain survives every change outside the table and the context area. -/
theorem Chain.congr {s : Sector} {es : List InfoIdx} {m m' : Mem} (chain : Chain s es m)
    (same : ∀ x, s.base + 4 ≤ x → x < s.limit → m' x = m x)
    : Chain s es m' :=
  chain.data (fun x low high _ => same x low high)

/-- Programming a fitting entry into the first idle slot extends the chain.
Witness: the slot was blank, every other slot is elsewhere, and the new item takes the
blank bytes from the place after the chain on.
-/
theorem Chain.append {s : Sector} {es : List InfoIdx} {m : Mem} (chain : Chain s es m)
    {e : InfoIdx} (room : es.length < s.slots) (offset : e.offset = nextFree s.ctx es)
    (size : 8 ≤ e.size) (fits : e.offset + e.size ≤ s.limit)
    : Chain s (es ++ [e]) (m.program (s.idxAddr es.length) e.bytes) := by
  have bounded := s.bounded
  have small := s.size_small
  have area := le_nextFree s.ctx es
  obtain ⟨first, last, context⟩ := s.idxAddr_bounds room
  have limitEq : s.limit = s.base + s.size := rfl
  have outside {x : Nat} (apart : x < s.idxAddr es.length ∨ s.idxAddr es.length + 8 ≤ x)
      : m.program (s.idxAddr es.length) e.bytes x = m x :=
    Mem.program_outside (by simpa using apart)
  have placed : nextFree s.ctx (es ++ [e]) = alignUp (e.offset + e.size) := by
    rw [nextFree_append, ← offset]
  refine {
    count := ?_
    slot := ?_
    idle := ?_
    linked := linked_append.mpr ⟨chain.linked, offset, size⟩
    fits := ?_
    blank := ?_
  }
  · simp only [List.length_append, List.length_singleton]
    omega
  · intro i inside
    simp only [List.length_append, List.length_singleton] at inside
    by_cases old : i < es.length
    · rw [List.getElem_append_left old, ← chain.slot i old]
      rcases s.idxAddr_apart (show i ≠ es.length by omega) with apart | apart
      · exact InfoIdx.load_congr (fun j inside => outside (by omega))
      · exact InfoIdx.load_congr (fun j inside => outside (by omega))
    · have new : i = es.length := by omega
      subst i
      rw [List.getElem_concat_length rfl]
      apply InfoIdx.load_of_bytes (by simp only [u32Mod]; omega) (by simp only [u16Mod]; omega)
      intro j inside
      exact Mem.program_blank (by simpa using inside)
        (chain.idle es.length (Nat.le_refl _) room _ (by omega) (by omega))
  · intro i low high x start finish
    simp only [List.length_append, List.length_singleton] at low
    have apart := s.idxAddr_apart (show i ≠ es.length by omega)
    rw [outside (by omega)]
    exact chain.idle i (by omega) high x start finish
  · rw [placed]
    exact alignUp_le fits s.limit_aligned
  · intro x low high
    have ends := le_alignUp (e.offset + e.size)
    rw [placed] at low
    rw [outside (by omega)]
    exact chain.blank x (by omega) high

/-- The chain with the state byte of slot `i` masked by `value`. -/
def markEntry (es : List InfoIdx) (i : Nat) (value : UInt8) : List InfoIdx :=
  es.modify i (fun e => { e with usedState := e.usedState &&& value })

@[simp]
theorem markEntry_length (es : List InfoIdx) (i : Nat) (value : UInt8)
    : (markEntry es i value).length = es.length := by
  simp [markEntry]

theorem markEntry_offsets (es : List InfoIdx) (i : Nat) (value : UInt8)
    : (markEntry es i value).map InfoIdx.offset = es.map InfoIdx.offset := by
  apply List.ext_getElem (by simp)
  intro j _ _
  simp only [markEntry, List.getElem_map, List.getElem_modify]
  split <;> rfl

theorem markEntry_sizes (es : List InfoIdx) (i : Nat) (value : UInt8)
    : (markEntry es i value).map InfoIdx.size = es.map InfoIdx.size := by
  apply List.ext_getElem (by simp)
  intro j _ _
  simp only [markEntry, List.getElem_map, List.getElem_modify]
  split <;> rfl

theorem markEntry_append {es : List InfoIdx} (e : InfoIdx) {i : Nat} (inside : i < es.length)
    (value : UInt8)
    : markEntry (es ++ [e]) i value = markEntry es i value ++ [e] := by
  unfold markEntry
  induction es generalizing i with
  | nil => simp at inside
  | cons first rest ih =>
      cases i with
      | zero => rfl
      | succ i =>
          simp only [List.cons_append, List.modify_succ_cons]
          rw [ih (by simpa using inside)]

/-- Masking the state byte of a slot in use keeps the chain. -/
theorem Chain.mark {s : Sector} {es : List InfoIdx} {m : Mem} (chain : Chain s es m)
    {i : Nat} (used : i < es.length) (value : UInt8)
    : Chain s (markEntry es i value) (m.program (s.idxAddr i + 7) [value]) := by
  have inside := Nat.lt_of_lt_of_le used chain.count
  obtain ⟨first, last, context⟩ := s.idxAddr_bounds inside
  have same := @linked_congr s.ctx _ _ (markEntry_offsets es i value)
    (markEntry_sizes es i value)
  have other {x : Nat} (different : x ≠ s.idxAddr i + 7)
      : m.program (s.idxAddr i + 7) [value] x = m x := by
    rw [Mem.program_byte, if_neg different]
  refine {
    count := by simpa using chain.count
    slot := ?_
    idle := ?_
    linked := same.1.mpr chain.linked
    fits := same.2 ▸ chain.fits
    blank := ?_
  }
  · intro j within
    simp only [markEntry_length] at within
    simp only [markEntry, List.getElem_modify]
    rw [← chain.slot j within]
    by_cases this : i = j
    · subst j
      rw [if_pos rfl]
      exact InfoIdx.load_mark m (s.idxAddr i) value
    · rw [if_neg this]
      have apart := s.idxAddr_apart this
      exact InfoIdx.load_congr (fun k small => other (by omega))
  · intro j low high x start finish
    simp only [markEntry_length] at low
    have apart := s.idxAddr_apart (show i ≠ j by omega)
    rw [other (by omega)]
    exact chain.idle j low high x start finish
  · intro x low high
    rw [same.2] at low
    have area := le_nextFree s.ctx es
    rw [other (by omega)]
    exact chain.blank x low high

end TelinkSdk
