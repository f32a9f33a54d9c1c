import Mathlib.Data.List.Range
import TelinkSdk.Links.Ram

/-! Pools of equally sized memory blocks. A free block holds the link to the next free block in
its first word.
-/

namespace TelinkSdk

open Links LinkView

-----------------------------------------------------------------------------------------
-- Model
-----------------------------------------------------------------------------------------

/-- The offset of `data` in `mem_block_t`, behind the link. -/
abbrev memBlockData : Nat := 4

/-- `mem_pool_t`, with the head of its list of free blocks. -/
structure MemPool where
  freeList : Option Nat

/-- `MEMPOOL_ITEMSIZE_2_BLOCKSIZE`, the item size rounded up to the alignment of 4. -/
def mempoolItemsize2Blocksize (itemsize : Nat) : Nat := (itemsize + 3) / 4 * 4

/-- The loop of `mempool_init`, with `count` links still to store from block `tmp` on. -/
def mempoolLink (blockSize : Nat) : Nat → Ram → Nat → Ram
  | 0, ram, tmp => ram.store32 tmp 0
  | count + 1, ram, tmp =>
      let following := (tmp + blockSize) % 4294967296
      mempoolLink blockSize count (ram.store32 tmp following) following

/-- `mempool_init`; without memory it touches nothing and returns a null pool. -/
def mempoolInit (ram : Ram) (mem itemsize itemcount : Nat) : Option (Ram × MemPool) :=
  if mem = 0 then
    none
  else
    let blockSize := mempoolItemsize2Blocksize itemsize
    some (mempoolLink blockSize (itemcount - 1) ram mem, { freeList := pointer mem })

/-- `mempool_header`, the block that a data pointer belongs to. -/
def mempoolHeader (pd : Nat) : Nat := pd - memBlockData

/-- `mempool_alloc`, with the data pointer of the first free block. -/
def mempoolAlloc (ram : Ram) (pool : MemPool) : Option Nat × MemPool :=
  match pool.freeList with
  | none => (none, pool)
  | some tmp => (some (tmp + memBlockData), { freeList := next ram tmp })

/-- `mempool_free`, which puts the block of `p` in front of the free blocks. -/
def mempoolFree (ram : Ram) (pool : MemPool) (p : Nat) : Ram × MemPool :=
  let tmp := mempoolHeader p
  (ram.store32 tmp (pointerWord pool.freeList), { freeList := pointer tmp })

-----------------------------------------------------------------------------------------
-- The free blocks of a pool
-----------------------------------------------------------------------------------------

/-- The free blocks of the pool, in the order they will be handed out. -/
def MemPool.Free (pool : MemPool) (ram : Ram) (blocks : List Nat) : Prop :=
  ListAt ram pool.freeList blocks

variable {ram ram' : Ram} {pool : MemPool} {blocks : List Nat}

theorem MemPool.Free.congr (free : pool.Free ram blocks)
    (same : ∀ a ∈ blocks, ∀ x, a ≤ x → x < a + 4 → ram' x = ram x)
    : pool.Free ram' blocks :=
  Segment.congr free (fun a inside => Ram.next_congr (same a inside))

/-- The loop stores nothing outside the blocks it links. -/
theorem mempoolLink_outside {blockSize count tmp x : Nat} (room : 4 ≤ blockSize)
    (bounded : tmp + blockSize * count < 4294967296)
    (outside : x < tmp ∨ tmp + blockSize * (count + 1) ≤ x)
    : mempoolLink blockSize count ram tmp x = ram x := by
  induction count generalizing ram tmp with
  | zero =>
      rw [Nat.mul_succ] at outside
      exact Ram.store32_outside (by omega)
  | succ count ih =>
      simp only [Nat.mul_succ] at bounded outside ih
      have following : (tmp + blockSize) % 4294967296 = tmp + blockSize :=
        Nat.mod_eq_of_lt (by omega)
      simp only [mempoolLink, following]
      rw [ih (by omega) (by omega)]
      exact Ram.store32_outside (by omega)

/-- The loop links the blocks in the order of their addresses. -/
theorem mempoolLink_free {blockSize count tmp : Nat} (room : 4 ≤ blockSize) (positive : 0 < tmp)
    (bounded : tmp + blockSize * count < 4294967296)
    : ListAt (mempoolLink blockSize count ram tmp) (some tmp)
        (List.range' tmp (count + 1) blockSize) := by
  induction count generalizing ram tmp with
  | zero =>
      refine ⟨rfl, ?_⟩
      rw [mempoolLink, Ram.next_store32 (by omega)]
      rfl
  | succ count ih =>
      rw [Nat.mul_succ] at bounded
      have following : (tmp + blockSize) % 4294967296 = tmp + blockSize :=
        Nat.mod_eq_of_lt (by omega)
      simp only [mempoolLink, following]
      rw [List.range'_succ]
      refine ⟨rfl, ?_⟩
      -- the rest of the loop stays behind the link just stored
      have kept : next (mempoolLink blockSize count (ram.store32 tmp (tmp + blockSize))
          (tmp + blockSize)) tmp = some (tmp + blockSize) := by
        rw [Ram.next_congr (fun x _ _ => mempoolLink_outside room (by omega) (by omega)),
          Ram.next_store32 (by omega), pointer_of_pos (by omega)]
      rw [kept]
      exact ih (by omega) (by omega)

/-- A new pool has every block of its memory free, and nothing else is stored. -/
theorem mempoolInit_free (ram : Ram) {mem itemsize itemcount : Nat} (room : 0 < itemsize)
    (positive : 0 < mem) (some_items : 0 < itemcount)
    (bounded : mem + mempoolItemsize2Blocksize itemsize * itemcount < 4294967296)
    : ∃ ram' pool, mempoolInit ram mem itemsize itemcount = some (ram', pool)
      ∧ pool.Free ram' (List.range' mem itemcount (mempoolItemsize2Blocksize itemsize))
      ∧ ∀ x, x < mem ∨ mem + mempoolItemsize2Blocksize itemsize * itemcount ≤ x → ram' x = ram x
    := by
  obtain ⟨count, rfl⟩ : ∃ count, itemcount = count + 1 := ⟨itemcount - 1, by omega⟩
  have blockRoom : 4 ≤ mempoolItemsize2Blocksize itemsize := by
    unfold mempoolItemsize2Blocksize
    omega
  rw [Nat.mul_succ] at bounded
  refine ⟨mempoolLink (mempoolItemsize2Blocksize itemsize) count ram mem,
    { freeList := pointer mem }, if_neg (by omega), ?_, ?_⟩
  · rw [MemPool.Free, pointer_of_pos positive]
    exact mempoolLink_free blockRoom positive (by omega)
  · intro x outside
    exact mempoolLink_outside blockRoom (by omega) outside

/-- The first free block is handed out. -/
theorem mempoolAlloc_cons {a : Nat} (free : pool.Free ram (a :: blocks))
    : ∃ pool', mempoolAlloc ram pool = (some (a + memBlockData), pool')
      ∧ pool'.Free ram blocks := by
  obtain ⟨first, rest⟩ := free
  unfold mempoolAlloc
  rw [first]
  exact ⟨_, rfl, rest⟩

/-- A returned block is the next to be handed out, when no free block overlaps its link. -/
theorem mempoolFree_free {a : Nat} (free : pool.Free ram blocks) (positive : 0 < a)
    (valid : ∀ b ∈ blocks, 0 < b ∧ b < 4294967296)
    (apart : ∀ b ∈ blocks, b + 4 ≤ a ∨ a + 4 ≤ b)
    : ∃ pool', mempoolFree ram pool (a + memBlockData)
        = (ram.store32 a (pointerWord pool.freeList), pool')
      ∧ pool'.Free (ram.store32 a (pointerWord pool.freeList)) (a :: blocks) := by
  have head : pool.freeList = blocks.head? := ListAt.head free
  have members : ∀ b ∈ pool.freeList, 0 < b ∧ b < 4294967296 := by
    intro b first
    rw [head] at first
    exact valid b (List.mem_of_mem_head? first)
  have small : pointerWord pool.freeList < 4294967296 := by
    cases first : pool.freeList with
    | none => simp [pointerWord]
    | some b => exact (members b first).2
  refine ⟨{ freeList := some a }, ?_, ?_⟩
  · simp [mempoolFree, mempoolHeader, pointer_of_pos positive]
  · apply ListAt.cons free
    · intro b inside
      apply Ram.next_congr
      intro x _ _
      exact Ram.store32_outside (by have := apart b inside; omega)
    · rw [Ram.next_store32 small]
      exact pointer_pointerWord (fun b first => (members b first).1)

end TelinkSdk
