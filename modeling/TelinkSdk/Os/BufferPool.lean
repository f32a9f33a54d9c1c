import Mathlib.Data.List.Nodup
import TelinkSdk.Os.Buffer

/-! Every block of the event buffers is either on the free list of its group or held by one
caller, over every run of calls.
-/

namespace TelinkSdk.EvBuffer

open Links LinkView

-----------------------------------------------------------------------------------------
-- Blocks
-----------------------------------------------------------------------------------------

/-- The addresses of the blocks of a group. -/
def EvBufLayout.blocks (layout : EvBufLayout) (g : Nat) : List Nat :=
  List.range' (layout.mem g) (bufferNumInGroup g) (bufferBlockSize g)

/-- A block has room for the item header and some data, its size is the item size, and a group
has some blocks but fewer than a byte can count.
-/
theorem bufferGroup_facts {g : Nat} (inside : g < defaultBufferGroupNum)
    : g < 4 ∧ bufferBlockSize g = bufferGroup g ∧ 8 < bufferGroup g ∧ bufferGroup g ≤ 1024
      ∧ 0 < bufferNumInGroup g ∧ bufferNumInGroup g < 255 := by
  revert g
  decide

variable {layout : EvBufLayout} {g h a b : Nat}

theorem EvBufLayout.nodup_blocks (inside : g < defaultBufferGroupNum)
    : (layout.blocks g).Nodup := by
  have facts := bufferGroup_facts inside
  exact List.nodup_range' _ (by omega)

/-- A block lies inside the memory of its group. -/
theorem EvBufLayout.block_bounds (block : a ∈ layout.blocks g)
    : layout.mem g ≤ a
      ∧ a + bufferBlockSize g ≤ layout.mem g + bufferBlockSize g * bufferNumInGroup g := by
  obtain ⟨i, counted, rfl⟩ := List.mem_range'.mp block
  have step : bufferBlockSize g * (i + 1) ≤ bufferBlockSize g * bufferNumInGroup g :=
    Nat.mul_le_mul_left _ counted
  rw [Nat.mul_succ] at step
  omega

/-- Two blocks do not overlap, in one group because they are whole multiples of the block size
apart, in two groups because the arrays are apart.
-/
theorem EvBufLayout.blocks_apart (inG : g < defaultBufferGroupNum) (inH : h < defaultBufferGroupNum)
    (blockA : a ∈ layout.blocks g) (blockB : b ∈ layout.blocks h) (other : b ≠ a)
    : a + bufferBlockSize g ≤ b ∨ b + bufferBlockSize h ≤ a := by
  have boundsA := EvBufLayout.block_bounds blockA
  have boundsB := EvBufLayout.block_bounds blockB
  by_cases same : g = h
  · subst same
    obtain ⟨i, -, rfl⟩ := List.mem_range'.mp blockA
    obtain ⟨j, -, rfl⟩ := List.mem_range'.mp blockB
    rcases Nat.lt_trichotomy i j with before | rfl | behind
    · left
      have step : bufferBlockSize g * (i + 1) ≤ bufferBlockSize g * j :=
        Nat.mul_le_mul_left _ before
      rw [Nat.mul_succ] at step
      omega
    · exact absurd rfl other
    · right
      have step : bufferBlockSize g * (j + 1) ≤ bufferBlockSize g * i :=
        Nat.mul_le_mul_left _ behind
      rw [Nat.mul_succ] at step
      omega
  · have arrays := layout.apart g inG h inH same
    omega

theorem EvBufLayout.block_group (inG : g < defaultBufferGroupNum) (inH : h < defaultBufferGroupNum)
    (blockG : a ∈ layout.blocks g) (blockH : a ∈ layout.blocks h)
    : g = h := by
  by_contra other
  have arrays := layout.apart g inG h inH other
  have boundsG := EvBufLayout.block_bounds blockG
  have boundsH := EvBufLayout.block_bounds blockH
  have factsG := bufferGroup_facts inG
  have factsH := bufferGroup_facts inH
  omega

theorem EvBufLayout.block_valid (inside : g < defaultBufferGroupNum) (block : a ∈ layout.blocks g)
    : 0 < a ∧ a < 4294967296 := by
  have bounds := EvBufLayout.block_bounds block
  have positive := layout.positive g inside
  have bounded := layout.bounded g inside
  have facts := bufferGroup_facts inside
  omega

/-- A block's data lies in the memory of the pools. -/
theorem EvBufLayout.isEvBuf_block (inside : g < defaultBufferGroupNum)
    (block : a ∈ layout.blocks g)
    : isEvBuf layout (a + evBufItemData) = true := by
  have facts := bufferGroup_facts inside
  have bounds := EvBufLayout.block_bounds block
  simp only [isEvBuf, List.any_eq_true, List.mem_range, Bool.and_eq_true, decide_eq_true_eq,
    evBufItemData]
  exact ⟨g, inside, by omega, by omega⟩

/-- A change inside one block leaves every other block alone. -/
theorem EvBufLayout.other_block (inG : g < defaultBufferGroupNum) (inH : h < defaultBufferGroupNum)
    (blockA : a ∈ layout.blocks g) (blockB : b ∈ layout.blocks h) (other : b ≠ a) {ram ram' : Ram}
    (same : ∀ x, x < a ∨ a + bufferBlockSize g ≤ x → ram' x = ram x)
    : ∀ x, b ≤ x → x < b + bufferBlockSize h → ram' x = ram x := by
  intro x low high
  have apart := EvBufLayout.blocks_apart inG inH blockA blockB other
  exact same x (by omega)

/-- The link of a block is among its bytes. -/
theorem free_congr (inside : g < defaultBufferGroupNum) {pool : MemPool} {ram ram' : Ram}
    {l : List Nat} (listed : pool.Free ram l)
    (same : ∀ b ∈ l, ∀ x, b ≤ x → x < b + bufferBlockSize g → ram' x = ram x)
    : pool.Free ram' l := by
  have facts := bufferGroup_facts inside
  apply listed.congr
  intro b member x low high
  exact same b member x low (by omega)

/-- The group of a block is among its bytes. -/
theorem groupIndex_congr (inside : g < defaultBufferGroupNum) {ram ram' : Ram}
    (same : ∀ x, b ≤ x → x < b + bufferBlockSize g → ram' x = ram x)
    : ram'.le32 (b + evBufItemGroupIndex) = ram.le32 (b + evBufItemGroupIndex) := by
  have facts := bufferGroup_facts inside
  apply Nor.Mem.le32_congr
  intro i small
  simp only [evBufItemGroupIndex]
  exact same _ (by omega) (by omega)

-----------------------------------------------------------------------------------------
-- Held buffers
-----------------------------------------------------------------------------------------

/-- A buffer in the hands of a caller, with the size it asked for. -/
structure Buffer where
  data : Nat
  size : UInt16
deriving DecidableEq

def Buffer.block (buffer : Buffer) : Nat := evBufGetHead buffer.data

/-- The blocks of a group that are held. -/
def EvBufLayout.heldIn (layout : EvBufLayout) (held : List Buffer) (g : Nat) : List Nat :=
  (held.map Buffer.block).filter (fun a => decide (a ∈ layout.blocks g))

/-- The state of the pools when `free` are the free blocks of each group. -/
structure PoolState (layout : EvBufLayout) (sys : EvBufSys) (held : List Buffer)
    (free : Nat → List Nat) : Prop where
  group : ∀ g < defaultBufferGroupNum, sys.bufGroups g
    = { qHead := some g, size := bufferGroup g, availBufNum := (free g).length }
  listed : ∀ g < defaultBufferGroupNum, (sys.pools g).Free sys.ram (free g)
  split : ∀ g < defaultBufferGroupNum,
    (free g ++ layout.heldIn held g).Perm (layout.blocks g)
  owned : ∀ buffer ∈ held, ∃ g < defaultBufferGroupNum, ∃ a ∈ layout.blocks g,
    buffer.data = a + evBufItemData
    ∧ sys.ram.le32 (a + evBufItemGroupIndex) = g
    ∧ buffer.size.toNat ≤ bufferGroup g - evBufItemData

variable {sys sys' : EvBufSys} {held : List Buffer} {buffer : Buffer} {free : Nat → List Nat}

theorem EvBufLayout.mem_heldIn
    : a ∈ layout.heldIn held g
      ↔ (∃ buffer ∈ held, buffer.block = a) ∧ a ∈ layout.blocks g := by
  simp [EvBufLayout.heldIn]

theorem EvBufLayout.heldIn_cons (block : buffer.block ∈ layout.blocks g)
    : layout.heldIn (buffer :: held) g = buffer.block :: layout.heldIn held g := by
  simp [EvBufLayout.heldIn, block]

theorem EvBufLayout.heldIn_cons_other (block : buffer.block ∉ layout.blocks g)
    : layout.heldIn (buffer :: held) g = layout.heldIn held g := by
  simp [EvBufLayout.heldIn, block]

theorem EvBufLayout.heldIn_erase (layout : EvBufLayout) (g : Nat) (member : buffer ∈ held)
    : (layout.heldIn held g).Perm (layout.heldIn (buffer :: held.erase buffer) g) :=
  ((List.perm_cons_erase member).map Buffer.block).filter _

namespace PoolState

theorem nodup (state : PoolState layout sys held free) (inside : g < defaultBufferGroupNum)
    : (free g ++ layout.heldIn held g).Nodup :=
  (state.split g inside).nodup_iff.mpr (EvBufLayout.nodup_blocks inside)

/-- A free block is a block of its group. -/
theorem free_block (state : PoolState layout sys held free) (inside : g < defaultBufferGroupNum)
    (member : a ∈ free g)
    : a ∈ layout.blocks g :=
  (state.split g inside).mem_iff.mp (List.mem_append_left _ member)

/-- A free block is not held. -/
theorem free_not_held (state : PoolState layout sys held free)
    (inside : g < defaultBufferGroupNum) (member : a ∈ free g) (buffer : Buffer)
    (holds : buffer ∈ held)
    : buffer.block ≠ a := by
  intro same
  have block := state.free_block inside member
  have heldHere : a ∈ layout.heldIn held g :=
    EvBufLayout.mem_heldIn.mpr ⟨⟨buffer, holds, same⟩, block⟩
  exact List.disjoint_of_nodup_append (state.nodup inside) member heldHere

theorem length_le (state : PoolState layout sys held free) (inside : g < defaultBufferGroupNum)
    : (free g).length ≤ bufferNumInGroup g := by
  have lengths := (state.split g inside).length_eq
  simp only [List.length_append, EvBufLayout.blocks, List.length_range'] at lengths
  omega

/-- A block of one group changes hands, and memory changes inside of it only. The other groups keep
their lists, and the other held buffers their group words.
-/
theorem change (state : PoolState layout sys held free) (inside : g < defaultBufferGroupNum)
    (block : a ∈ layout.blocks g) {ram : Ram}
    (outside : ∀ x, x < a ∨ a + bufferBlockSize g ≤ x → ram x = sys.ram x)
    {held' : List Buffer} {list : List Nat} {pool : MemPool} {count : Nat}
    (listed : pool.Free ram list) (counted : count = list.length)
    (split : (list ++ layout.heldIn held' g).Perm (layout.blocks g))
    (others : ∀ k, a ∉ layout.blocks k → (layout.heldIn held' k).Perm (layout.heldIn held k))
    (owned : ∀ buffer ∈ held', buffer ∈ held ∧ buffer.block ≠ a
      ∨ buffer.data = a + evBufItemData ∧ ram.le32 (a + evBufItemGroupIndex) = g
        ∧ buffer.size.toNat ≤ bufferGroup g - evBufItemData)
    : PoolState layout
        { sys with
          ram := ram
          pools := Function.update sys.pools g pool
          bufGroups := Function.update sys.bufGroups g
            { sys.bufGroups g with availBufNum := count } }
        held' (Function.update free g list) := by
  refine ⟨?_, ?_, ?_, ?_⟩
  · intro k inK
    by_cases same : k = g
    · subst same
      simp only [Function.update_self, state.group k inside, counted]
    · simp only [Function.update_of_ne same]
      exact state.group k inK
  · intro k inK
    by_cases same : k = g
    · subst same
      simp only [Function.update_self]
      exact listed
    · simp only [Function.update_of_ne same]
      refine free_congr inK (state.listed k inK) (fun b among => ?_)
      have blockB := state.free_block inK among
      have other : b ≠ a := fun again =>
        same (EvBufLayout.block_group inK inside (again ▸ blockB) block)
      exact EvBufLayout.other_block inside inK block blockB other outside
  · intro k inK
    by_cases same : k = g
    · subst same
      rw [Function.update_self]
      exact split
    · have absent : a ∉ layout.blocks k := fun again =>
        same (EvBufLayout.block_group inK inside again block)
      rw [Function.update_of_ne same]
      exact ((others k absent).append_left _).trans (state.split k inK)
  · intro buffer holds
    rcases owned buffer holds with ⟨earlier, apart⟩ | ⟨data, word, room⟩
    · obtain ⟨k, inK, b, blockB, data, word, room⟩ := state.owned buffer earlier
      have other : b ≠ a := by
        simpa [Buffer.block, evBufGetHead, data] using apart
      refine ⟨k, inK, b, blockB, data, ?_, room⟩
      rw [groupIndex_congr inK (EvBufLayout.other_block inside inK block blockB other outside)]
      exact word
    · exact ⟨g, inside, a, block, data, word, room⟩

-----------------------------------------------------------------------------------------
-- Allocation
-----------------------------------------------------------------------------------------

/-- The first free block of a group goes to a caller. Only its group word is stored, so the
lists and the other groups stay as they are.
-/
theorem take (state : PoolState layout sys held free) (inside : g < defaultBufferGroupNum)
    {rest : List Nat} (first : free g = a :: rest) {size : UInt16}
    (fits : size.toNat ≤ bufferGroup g - evBufItemData) {pool : MemPool}
    (listed : pool.Free sys.ram rest)
    : PoolState layout
        { sys with
          ram := sys.ram.store32 (a + evBufItemGroupIndex) g
          pools := Function.update sys.pools g pool
          bufGroups := Function.update sys.bufGroups g
            { sys.bufGroups g with
              availBufNum := ((sys.bufGroups g).availBufNum + 255) % 256 } }
        ({ data := a + evBufItemData, size := size } :: held) (Function.update free g rest) := by
  have facts := bufferGroup_facts inside
  have member : a ∈ free g := by simp [first]
  have block := state.free_block inside member
  have outside : ∀ x, x < a ∨ a + bufferBlockSize g ≤ x →
      sys.ram.store32 (a + evBufItemGroupIndex) g x = sys.ram x := by
    intro x apart
    simp only [evBufItemGroupIndex]
    exact Ram.store32_outside (by omega)
  have nodup : (free g).Nodup := (List.nodup_append.mp (state.nodup inside)).1
  rw [first, List.nodup_cons] at nodup
  have blockOf : Buffer.block { data := a + evBufItemData, size := size } = a := by
    simp [Buffer.block, evBufGetHead]
  have number : (free g).length = rest.length + 1 := by rw [first, List.length_cons]
  have most := state.length_le inside
  have counted : ((sys.bufGroups g).availBufNum + 255) % 256 = rest.length := by
    rw [state.group g inside]
    simp only
    omega
  refine state.change inside block outside ?_ counted ?_ ?_ ?_
  · refine free_congr inside listed (fun b among => ?_)
    have among' : b ∈ free g := by simp [first, among]
    exact EvBufLayout.other_block inside inside block (state.free_block inside among')
      (fun again => nodup.1 (again ▸ among)) outside
  · rw [EvBufLayout.heldIn_cons (by rwa [blockOf]), blockOf]
    have split := state.split g inside
    rw [first] at split
    exact List.perm_middle.trans split
  · intro k absent
    rw [EvBufLayout.heldIn_cons_other (by rwa [blockOf])]
  · intro buffer holds
    rcases List.mem_cons.mp holds with rfl | earlier
    · exact .inr ⟨rfl, Ram.store32_le32 (by omega), fits⟩
    · exact .inl ⟨earlier, state.free_not_held inside member buffer earlier⟩

/-- A group serves a request that leaves room for the header, while it has a free block. -/
theorem fits_iff (state : PoolState layout sys held free) (inside : g < defaultBufferGroupNum)
    (size : UInt16)
    : evBufFits sys size g = true ↔ size.toNat ≤ bufferGroup g - evBufItemData ∧ free g ≠ [] := by
  have facts := bufferGroup_facts inside
  have capacity : (bufferGroup g + 4294967296 - evBufItemData) % 4294967296
      = bufferGroup g - evBufItemData := by
    simp only [evBufItemData]
    omega
  simp only [evBufFits, state.group g inside, capacity, Bool.and_eq_true, decide_eq_true_eq,
    bne_iff_ne, ne_eq, List.length_eq_zero_iff]

/-- The group that the search stops at hands out its first free block. -/
theorem allocate_from (state : PoolState layout sys held free) {size : UInt16}
    (right : ¬(size.toNat = 0 ∨ maxBufferSize < size.toNat))
    (found : (List.range defaultBufferGroupNum).find? (evBufFits sys size) = some g)
    : ∃ a rest sys', free g = a :: rest
      ∧ evBufAllocate sys size = some (some (a + evBufItemData), sys')
      ∧ sys'.ram = sys.ram.store32 (a + evBufItemGroupIndex) g
      ∧ PoolState layout sys' ({ data := a + evBufItemData, size := size } :: held)
        (Function.update free g rest) := by
  have inside : g < defaultBufferGroupNum :=
    List.mem_range.mp (List.mem_of_find?_eq_some found)
  obtain ⟨small, some_free⟩ := (state.fits_iff inside size).mp (List.find?_some found)
  obtain ⟨a, rest, first⟩ := List.exists_cons_of_ne_nil some_free
  have listed := state.listed g inside
  rw [first] at listed
  obtain ⟨pool, taken, remaining⟩ := mempoolAlloc_cons listed
  refine ⟨a, rest, _, first, ?_, ?_, state.take inside first small remaining⟩
  · rw [evBufAllocate, if_neg right, found]
    simp only [state.group g inside, taken, first, List.length_cons, Nat.add_one_ne_zero,
      if_false, Nat.add_sub_cancel]
  · rfl

/-- `ev_buf_allocate` refuses and changes nothing, or hands out the first free block of a group
that has room for the request.
-/
theorem allocate (state : PoolState layout sys held free) (size : UInt16)
    : evBufAllocate sys size = some (none, sys)
      ∨ ∃ p sys' free', evBufAllocate sys size = some (some p, sys')
        ∧ PoolState layout sys' ({ data := p, size := size } :: held) free' := by
  by_cases wrong : size.toNat = 0 ∨ maxBufferSize < size.toNat
  · exact .inl (if_pos wrong)
  cases found : (List.range defaultBufferGroupNum).find? (evBufFits sys size) with
  | none =>
      left
      rw [evBufAllocate, if_neg wrong, found]
  | some g =>
      obtain ⟨a, rest, sys', -, granted, -, after⟩ := state.allocate_from wrong found
      exact .inr ⟨_, sys', _, granted, after⟩

-----------------------------------------------------------------------------------------
-- Release
-----------------------------------------------------------------------------------------

/-- A block is held once, so without one buffer nobody holds its block. -/
theorem erase_not_held (state : PoolState layout sys held free)
    (inside : g < defaultBufferGroupNum) (holds : buffer ∈ held)
    (block : buffer.block ∈ layout.blocks g) (other : Buffer) (left : other ∈ held.erase buffer)
    : other.block ≠ buffer.block := by
  intro same
  have nodup := (List.nodup_append.mp (state.nodup inside)).2.1
  rw [(layout.heldIn_erase g holds).nodup_iff, EvBufLayout.heldIn_cons block,
    List.nodup_cons] at nodup
  exact nodup.1 (EvBufLayout.mem_heldIn.mpr ⟨⟨other, left, same⟩, block⟩)

/-- A block goes back in front of the free list of its group. Only its link is stored. -/
theorem giveBack (state : PoolState layout sys held free) (inside : g < defaultBufferGroupNum)
    (holds : buffer ∈ held) (block : buffer.block ∈ layout.blocks g) {word : Nat} {pool : MemPool}
    (listed : pool.Free (sys.ram.store32 buffer.block word) (buffer.block :: free g))
    : PoolState layout
        { sys with
          ram := sys.ram.store32 buffer.block word
          pools := Function.update sys.pools g pool
          bufGroups := Function.update sys.bufGroups g
            { sys.bufGroups g with
              availBufNum := ((sys.bufGroups g).availBufNum + 1) % 256 } }
        (held.erase buffer) (Function.update free g (buffer.block :: free g)) := by
  have facts := bufferGroup_facts inside
  have outside : ∀ x, x < buffer.block ∨ buffer.block + bufferBlockSize g ≤ x →
      sys.ram.store32 buffer.block word x = sys.ram x := by
    intro x apart
    exact Ram.store32_outside (by omega)
  have shared := layout.heldIn_erase g holds
  rw [EvBufLayout.heldIn_cons block] at shared
  have most := state.length_le inside
  have counted : ((sys.bufGroups g).availBufNum + 1) % 256
      = (buffer.block :: free g).length := by
    rw [state.group g inside, List.length_cons]
    exact Nat.mod_eq_of_lt (show (free g).length + 1 < 256 by omega)
  refine state.change inside block outside listed counted ?_ ?_ ?_
  · have moved : (buffer.block :: free g ++ layout.heldIn (held.erase buffer) g).Perm
        (free g ++ layout.heldIn held g) :=
      List.perm_middle.symm.trans (shared.symm.append_left _)
    exact moved.trans (state.split g inside)
  · intro k absent
    have kept := layout.heldIn_erase k holds
    rw [EvBufLayout.heldIn_cons_other absent] at kept
    exact kept.symm
  · intro other left
    exact .inl ⟨List.mem_of_mem_erase left, state.erase_not_held inside holds block other left⟩

/-- `ev_buf_free` of a held buffer succeeds, stores the link of its block and reports nothing. The
block is the first to be handed out again.
-/
theorem release_to (state : PoolState layout sys held free) (holds : buffer ∈ held)
    : ∃ g < defaultBufferGroupNum, ∃ sys', buffer.block ∈ layout.blocks g
      ∧ evBufFree layout sys buffer.data = some (.bufferSucc, sys')
      ∧ PoolState layout sys' (held.erase buffer) (Function.update free g (buffer.block :: free g))
      ∧ sys'.exceptions = sys.exceptions
      ∧ ∃ word, sys'.ram = sys.ram.store32 buffer.block word := by
  obtain ⟨g, inside, a, block, data, word, -⟩ := state.owned buffer holds
  have facts := bufferGroup_facts inside
  have blockOf : buffer.block = a := by simp [Buffer.block, evBufGetHead, data]
  have absent : a ∉ free g := fun member =>
    state.free_not_held inside member buffer holds blockOf
  have valid : ∀ b ∈ free g, 0 < b ∧ b < 4294967296 := fun b among =>
    EvBufLayout.block_valid inside (state.free_block inside among)
  have apart : ∀ b ∈ free g, b + 4 ≤ a ∨ a + 4 ≤ b := by
    intro b among
    have blocks := EvBufLayout.blocks_apart inside inside block (state.free_block inside among)
      (fun again => absent (again ▸ among))
    omega
  obtain ⟨pool, stored, listed⟩ := mempoolFree_free (state.listed g inside)
    (EvBufLayout.block_valid inside block).1 valid apart
  have own := EvBufLayout.isEvBuf_block inside block
  have walked : evBufIsExisted sys (g % 256) a = some false := by
    have enough : (free g).length ≤ 4294967296 := by
      have counted := state.length_le inside
      omega
    have byte : g % 256 = g := by omega
    rw [evBufIsExisted, byte, if_pos inside, state.group g inside]
    simp only [walkUntil_not_mem none (state.listed g inside) enough absent]
    rfl
  rw [← blockOf] at block listed
  have after := state.giveBack inside holds block listed
  refine ⟨g, inside, _, block, ?_, after, rfl, _, rfl⟩
  have kept : (sys.ram.store32 a (pointerWord (sys.pools g).freeList)).le32
      (a + evBufItemGroupIndex) = g := by
    rw [Ram.store32_le32_apart (by simp only [evBufItemGroupIndex]; omega), word]
  rw [blockOf]
  have head : evBufGetHead (a + evBufItemData) = a := by simp [evBufGetHead]
  have header : evBufRetrieveMempoolHeader (a + evBufItemData) = a + memBlockData := by
    simp only [evBufRetrieveMempoolHeader, evBufItemData, memBlockData]
    omega
  simp only [evBufFree, evBufRelease, data, own, if_true, head, header, word, walked, inside,
    state.group g inside, stored, kept]

theorem release (state : PoolState layout sys held free) (holds : buffer ∈ held)
    : ∃ sys' free', evBufFree layout sys buffer.data = some (.bufferSucc, sys')
      ∧ PoolState layout sys' (held.erase buffer) free'
      ∧ ∃ word, sys'.ram = sys.ram.store32 buffer.block word := by
  obtain ⟨g, -, sys', -, freed, pools, -, ram⟩ := state.release_to holds
  exact ⟨sys', _, freed, pools, ram⟩

end PoolState

-----------------------------------------------------------------------------------------
-- Initialization
-----------------------------------------------------------------------------------------

/-- The groups below `count` have all their blocks free. -/
def ResetBelow (layout : EvBufLayout) (sys : EvBufSys) (count : Nat) : Prop :=
  ∀ g < count,
    sys.bufGroups g
      = { qHead := some g, size := bufferGroup g, availBufNum := bufferNumInGroup g }
    ∧ (sys.pools g).Free sys.ram (layout.blocks g)

/-- One round sets up its group, and the rounds before keep their lists because the arrays do
not overlap.
-/
theorem evBufResetGroup_below {count : Nat} (inside : count < defaultBufferGroupNum)
    (below : ResetBelow layout sys count)
    : ResetBelow layout (evBufResetGroup layout sys count) (count + 1) := by
  have facts := bufferGroup_facts inside
  obtain ⟨ram, pool, made, listed, outside⟩ := mempoolInit_free sys.ram
    (show 0 < bufferGroup count by omega) (layout.positive count inside)
    (show 0 < bufferNumInGroup count by omega) (layout.bounded count inside)
  unfold evBufResetGroup
  rw [made]
  intro g under
  by_cases same : g = count
  · subst same
    refine ⟨Function.update_self .., ?_⟩
    simp only [Function.update_self]
    exact listed
  · have earlier : g < count := by omega
    have inG : g < defaultBufferGroupNum := by omega
    simp only [Function.update_of_ne same]
    refine ⟨(below g earlier).1, free_congr inG (below g earlier).2 ?_⟩
    intro b block x low high
    have bounds := EvBufLayout.block_bounds block
    have arrays := layout.apart g inG count inside same
    simp only [bufferBlockSize] at bounds arrays high
    exact outside x (by omega)

theorem evBufResetGroups_below (count : Nat) (inside : count ≤ defaultBufferGroupNum)
    : ResetBelow layout (evBufResetGroups layout sys count) count := by
  induction count with
  | zero => exact fun g under => absurd under (by omega)
  | succ count ih => exact evBufResetGroup_below inside (ih (by omega))

/-- After `ev_buf_init` every block is free. -/
theorem evBufInit_state : PoolState layout (evBufInit layout sys) [] layout.blocks := by
  have below : ResetBelow layout (evBufInit layout sys) defaultBufferGroupNum :=
    evBufResetGroups_below _ (Nat.le_refl _)
  refine ⟨?_, ?_, ?_, ?_⟩
  · intro g inside
    rw [(below g inside).1, EvBufLayout.blocks, List.length_range']
  · intro g inside
    exact (below g inside).2
  · intro g _
    simp [EvBufLayout.heldIn]
  · intro buffer holds
    exact absurd holds (by simp)

-----------------------------------------------------------------------------------------
-- Runs
-----------------------------------------------------------------------------------------

inductive EvBufCall where
  | allocate (size : UInt16)
  | free (buffer : Buffer)

/-- One call, with the buffers held before and after it. Only held buffers are freed. -/
def evBufCall (layout : EvBufLayout) (sys : EvBufSys) (held : List Buffer)
    : EvBufCall → Option (EvBufSys × List Buffer)
  | .allocate size =>
      (evBufAllocate sys size).map (fun result =>
        match result.1 with
        | none => (result.2, held)
        | some p => (result.2, { data := p, size := size } :: held))
  | .free buffer =>
      if buffer ∈ held then
        (evBufFree layout sys buffer.data).map (fun result => (result.2, held.erase buffer))
      else
        none

/-- What callers may do to the memory between two calls: they leave the free blocks alone, and of
a held block they change the link and the data but not the group.
-/
def CallerWrites (layout : EvBufLayout) (held : List Buffer) (ram ram' : Ram) : Prop :=
  ∀ g < defaultBufferGroupNum, ∀ a ∈ layout.blocks g, ∀ x, a ≤ x → x < a + bufferBlockSize g →
    (∀ buffer ∈ held, buffer.block ≠ a)
    ∨ (a + evBufItemGroupIndex ≤ x ∧ x < a + evBufItemData) →
    ram' x = ram x

/-- Callers write no group word, whether the block is free or held. -/
theorem CallerWrites.groupIndex {ram ram' : Ram} (allowed : CallerWrites layout held ram ram')
    (inside : g < defaultBufferGroupNum) (block : a ∈ layout.blocks g)
    : ram'.le32 (a + evBufItemGroupIndex) = ram.le32 (a + evBufItemGroupIndex) := by
  have facts := bufferGroup_facts inside
  apply Nor.Mem.le32_congr
  intro i small
  simp only [evBufItemGroupIndex]
  exact allowed g inside a block _ (by omega) (by omega)
    (.inr ⟨by simp only [evBufItemGroupIndex]; omega, by simp only [evBufItemData]; omega⟩)

/-- The states after `ev_buf_init` and any calls and writes of the callers. -/
inductive EvBufRun (layout : EvBufLayout) : EvBufSys → List Buffer → Prop where
  | init (sys : EvBufSys) : EvBufRun layout (evBufInit layout sys) []
  | call {sys sys' : EvBufSys} {held held' : List Buffer} (call : EvBufCall)
      (run : EvBufRun layout sys held)
      (returned : evBufCall layout sys held call = some (sys', held'))
      : EvBufRun layout sys' held'
  | write {sys : EvBufSys} {held : List Buffer} (ram : Ram) (run : EvBufRun layout sys held)
      (allowed : CallerWrites layout held sys.ram ram)
      : EvBufRun layout { sys with ram := ram } held

namespace PoolState

/-- Every call on a held buffer and every request returns. -/
theorem call_returns (state : PoolState layout sys held free) (call : EvBufCall)
    (allowed : ∀ buffer, call = .free buffer → buffer ∈ held)
    : ∃ sys' held' free', evBufCall layout sys held call = some (sys', held')
      ∧ PoolState layout sys' held' free' := by
  cases call with
  | allocate size =>
      rcases state.allocate size with refused | ⟨p, sys', free', granted, after⟩
      · exact ⟨sys, held, free, by rw [evBufCall, refused]; rfl, state⟩
      · exact ⟨sys', _, free', by rw [evBufCall, granted]; rfl, after⟩
  | free buffer =>
      have holds := allowed buffer rfl
      obtain ⟨sys', free', freed, after, -⟩ := state.release holds
      exact ⟨sys', _, free', by rw [evBufCall, if_pos holds, freed]; rfl, after⟩

theorem call (state : PoolState layout sys held free) {call : EvBufCall} {held' : List Buffer}
    (returned : evBufCall layout sys held call = some (sys', held'))
    : ∃ free', PoolState layout sys' held' free' := by
  have allowed : ∀ buffer, call = .free buffer → buffer ∈ held := by
    rintro buffer rfl
    by_contra absent
    simp [evBufCall, absent] at returned
  obtain ⟨_, _, free', same, after⟩ := state.call_returns call allowed
  rw [returned] at same
  cases same
  exact ⟨free', after⟩

/-- Writes of the callers reach neither a link of a free block nor a group word. -/
theorem write (state : PoolState layout sys held free) {ram : Ram}
    (allowed : CallerWrites layout held sys.ram ram)
    : PoolState layout { sys with ram := ram } held free := by
  refine ⟨state.group, ?_, state.split, ?_⟩
  · intro g inside
    refine free_congr inside (state.listed g inside) (fun a among x low high => ?_)
    exact allowed g inside a (state.free_block inside among) x low high
      (.inl (state.free_not_held inside among))
  · intro buffer holds
    obtain ⟨g, inside, a, block, data, word, room⟩ := state.owned buffer holds
    exact ⟨g, inside, a, block, data, (allowed.groupIndex inside block).trans word, room⟩

end PoolState

/-- Every state of a run has its blocks split between the free lists and the callers, by
induction over the run.
-/
theorem EvBufRun.state (run : EvBufRun layout sys held)
    : ∃ free, PoolState layout sys held free := by
  induction run with
  | init sys => exact ⟨_, evBufInit_state⟩
  | call call _ returned ih =>
      obtain ⟨free, state⟩ := ih
      exact state.call returned
  | write ram _ allowed ih =>
      obtain ⟨free, state⟩ := ih
      exact ⟨free, state.write allowed⟩

/-- The bytes of a buffer, from its data up to the end of its block. -/
def Buffer.Occupies (layout : EvBufLayout) (buffer : Buffer) (x : Nat) : Prop :=
  ∃ g < defaultBufferGroupNum, ∃ a ∈ layout.blocks g,
    buffer.data = a + evBufItemData ∧ buffer.data ≤ x ∧ x < a + bufferBlockSize g

/-- The bytes of the headers of all blocks. -/
def EvBufLayout.Header (layout : EvBufLayout) (x : Nat) : Prop :=
  ∃ g < defaultBufferGroupNum, ∃ a ∈ layout.blocks g, a ≤ x ∧ x < a + evBufItemData

/-- How the blocks of one group are shared out. The nodes of the free list are all different, so
the list does not come back to one of them.
-/
def EvBufLayout.Shared (layout : EvBufLayout) (sys : EvBufSys) (held : List Buffer) (g : Nat)
    : Prop :=
  ∃ free : List Nat, ListAt sys.ram (sys.pools g).freeList free
    ∧ free.Nodup
    ∧ free.length = (sys.bufGroups g).availBufNum
    ∧ (∀ a ∈ free, a ∈ layout.blocks g)
    ∧ ∀ a ∈ layout.blocks g,
      (a ∈ free ∧ ∀ buffer ∈ held, buffer.block ≠ a)
      ∨ (a ∉ free ∧ (held.map Buffer.block).count a = 1)

namespace PoolState

/-- Of the free list and the callers exactly one has a block, counted over both. -/
theorem shared (state : PoolState layout sys held free) (inside : g < defaultBufferGroupNum)
    : layout.Shared sys held g := by
  refine ⟨free g, state.listed g inside, (List.nodup_append.mp (state.nodup inside)).1, ?_,
    fun a => state.free_block inside, ?_⟩
  · rw [state.group g inside]
  · intro a block
    by_cases member : a ∈ free g
    · exact .inl ⟨member, state.free_not_held inside member⟩
    · refine .inr ⟨member, ?_⟩
      have once : (layout.blocks g).count a = 1 :=
        List.count_eq_one_of_mem (EvBufLayout.nodup_blocks inside) block
      rw [← (state.split g inside).count_eq, List.count_append,
        List.count_eq_zero_of_not_mem member, EvBufLayout.heldIn,
        List.count_filter (by simpa using block)] at once
      omega

/-- No two held buffers share a block. -/
theorem nodup_held (state : PoolState layout sys held free) : (held.map Buffer.block).Nodup := by
  rw [List.nodup_iff_count_le_one]
  intro a
  by_cases member : a ∈ held.map Buffer.block
  · obtain ⟨buffer, holds, rfl⟩ := List.mem_map.mp member
    obtain ⟨g, inside, a, block, data, -⟩ := state.owned buffer holds
    have blockOf : buffer.block = a := by simp [Buffer.block, evBufGetHead, data]
    obtain ⟨free, -, -, -, -, split⟩ := state.shared inside
    rcases split a block with ⟨-, unheld⟩ | ⟨-, once⟩
    · exact absurd blockOf (unheld buffer holds)
    · rw [blockOf, once]
  · rw [List.count_eq_zero_of_not_mem member]
    omega

theorem occupies_apart (state : PoolState layout sys held free)
    : held.Pairwise (fun left right =>
        ∀ x, left.Occupies layout x → ¬ right.Occupies layout x) := by
  have different := List.pairwise_map.mp state.nodup_held
  apply different.imp
  intro left right other x occupiesLeft occupiesRight
  obtain ⟨g, inG, a, blockA, dataA, lowA, highA⟩ := occupiesLeft
  obtain ⟨h, inH, b, blockB, dataB, lowB, highB⟩ := occupiesRight
  have ne : b ≠ a := by
    rintro rfl
    exact other (by simp [Buffer.block, evBufGetHead, dataA, dataB])
  have apart := EvBufLayout.blocks_apart inG inH blockA blockB ne
  omega

theorem fits (state : PoolState layout sys held free) (holds : buffer ∈ held)
    : ∀ i < buffer.size.toNat, buffer.Occupies layout (buffer.data + i) := by
  intro i small
  obtain ⟨g, inside, a, block, data, -, room⟩ := state.owned buffer holds
  have facts := bufferGroup_facts inside
  simp only [evBufItemData] at data room
  exact ⟨g, inside, a, block, data, by omega, by omega⟩

end PoolState

/-- The data of a buffer lies behind the header of its own block and outside the others. -/
theorem Buffer.occupies_not_header {x : Nat} (occupies : buffer.Occupies layout x)
    : ¬ layout.Header x := by
  rintro ⟨h, inH, b, blockB, lowB, highB⟩
  obtain ⟨g, inG, a, blockA, data, lowA, highA⟩ := occupies
  have facts := bufferGroup_facts inH
  simp only [evBufItemData] at data highB
  by_cases same : b = a
  · omega
  · have apart := EvBufLayout.blocks_apart inG inH blockA blockB same
    omega

/-- Over every run, each block is on the free list of its group or held by one caller, held
buffers keep clear of each other and of all headers, and each has the bytes that were asked for.
No call of a run is left without a result.
-/
theorem evBuf_blocks_shared (layout : EvBufLayout) {sys : EvBufSys} {held : List Buffer}
    (run : EvBufRun layout sys held)
    : (∀ g < defaultBufferGroupNum, layout.Shared sys held g)
      ∧ held.Pairwise (fun left right =>
        ∀ x, left.Occupies layout x → ¬ right.Occupies layout x)
      ∧ (∀ buffer ∈ held, ∀ x, buffer.Occupies layout x → ¬ layout.Header x)
      ∧ (∀ buffer ∈ held, ∀ i < buffer.size.toNat, buffer.Occupies layout (buffer.data + i))
      ∧ (∀ size, ∃ result, evBufAllocate sys size = some result)
      ∧ (∀ buffer ∈ held, ∃ sys', evBufFree layout sys buffer.data = some (.bufferSucc, sys')) := by
  obtain ⟨free, state⟩ := run.state
  refine ⟨fun g => state.shared, state.occupies_apart, ?_, fun _ => state.fits, ?_, ?_⟩
  · intro buffer _ x occupies
    exact Buffer.occupies_not_header occupies
  · intro size
    rcases state.allocate size with refused | ⟨p, sys', _, granted, _⟩
    · exact ⟨_, refused⟩
    · exact ⟨_, granted⟩
  · intro buffer holds
    obtain ⟨sys', _, freed, _⟩ := state.release holds
    exact ⟨sys', freed⟩

/-- The arrays one after another, each on a page of its own. -/
def pagedLayout : EvBufLayout where
  mem g := 4096 * (g + 1)
  positive := by decide
  bounded := by decide
  apart := by decide

/-- Calls made one after another. -/
def evBufCalls (layout : EvBufLayout) (state : EvBufSys × List Buffer) (calls : List EvBufCall)
    : Option (EvBufSys × List Buffer) :=
  calls.foldlM (fun state call => evBufCall layout state.1 state.2 call) state

theorem EvBufRun.calls {calls : List EvBufCall} (before : EvBufSys × List Buffer)
    {after : EvBufSys × List Buffer} (run : EvBufRun layout before.1 before.2)
    (returned : evBufCalls layout before calls = some after)
    : EvBufRun layout after.1 after.2 := by
  induction calls generalizing before with
  | nil =>
      cases returned
      exact run
  | cons call rest ih =>
      rw [evBufCalls, List.foldlM_cons] at returned
      obtain ⟨middle, first, others⟩ := Option.bind_eq_some_iff.mp returned
      exact ih middle (EvBufRun.call call run first) others

/-- Nine small requests, of which the ninth spills over to the next group, and a release. -/
theorem evBuf_blocks_shared_spill
    : ∃ sys held, EvBufRun pagedLayout sys held
      ∧ held.map Buffer.data = [8200, 4272, 4248, 4224, 4200, 4176, 4152, 4128]
      ∧ ∀ g < defaultBufferGroupNum, pagedLayout.Shared sys held g := by
  let start := evBufInit pagedLayout
    { ram := fun _ => 0, pools := fun _ => { freeList := none },
      bufGroups := fun _ => { qHead := none, size := 0, availBufNum := 0 }, exceptions := [] }
  let calls := List.replicate 9 (EvBufCall.allocate 10) ++ [.free { data := 4104, size := 10 }]
  have result : (evBufCalls pagedLayout (start, []) calls).map (fun s => s.2.map Buffer.data)
      = some [8200, 4272, 4248, 4224, 4200, 4176, 4152, 4128] := by
    decide +kernel
  obtain ⟨after, returned, data⟩ := Option.map_eq_some_iff.mp result
  have run : EvBufRun pagedLayout after.1 after.2 :=
    EvBufRun.calls (start, []) (EvBufRun.init _) returned
  exact ⟨after.1, after.2, run, data, (evBuf_blocks_shared pagedLayout run).1⟩

end TelinkSdk.EvBuffer
