import TelinkSdk.Os.BufferPool

/-! One user of the pools beside the others. Whatever these do, the buffers that they do not hold
and the memory outside the pools stay as they are.
-/

namespace TelinkSdk.EvBuffer

open Links

/-- A byte of one of the blocks. -/
def EvBufLayout.InPools (layout : EvBufLayout) (x : Nat) : Prop :=
  ∃ g < defaultBufferGroupNum, ∃ a ∈ layout.blocks g, a ≤ x ∧ x < a + bufferBlockSize g

/-- The memory outside the pools is as it was. -/
def EvBufLayout.Kept (layout : EvBufLayout) (ram ram' : Ram) : Prop :=
  ∀ x, ¬ layout.InPools x → ram' x = ram x

/-- Only headers of blocks have been written. -/
def EvBufLayout.KeptData (layout : EvBufLayout) (ram ram' : Ram) : Prop :=
  ∀ x, ¬ layout.Header x → ram' x = ram x

variable {layout : EvBufLayout} {sys sys' : EvBufSys} {held : List Buffer}
  {free : Nat → List Nat} {own : Buffer} {g a x : Nat} {ram ram' : Ram}

-----------------------------------------------------------------------------------------
-- Blocks, headers and data
-----------------------------------------------------------------------------------------

theorem inPools_of_occupies (occupies : own.Occupies layout x) : layout.InPools x := by
  obtain ⟨g, inside, a, block, data, low, high⟩ := occupies
  exact ⟨g, inside, a, block, by omega, high⟩

theorem inPools_of_header (header : layout.Header x) : layout.InPools x := by
  obtain ⟨g, inside, a, block, low, high⟩ := header
  have facts := bufferGroup_facts inside
  simp only [evBufItemData] at high
  exact ⟨g, inside, a, block, low, by omega⟩

theorem EvBufLayout.KeptData.kept (kept : layout.KeptData ram ram') : layout.Kept ram ram' :=
  fun x off => kept x (fun header => off (inPools_of_header header))

theorem EvBufLayout.KeptData.occupied (kept : layout.KeptData ram ram')
    (occupies : own.Occupies layout x)
    : ram' x = ram x :=
  kept x (Buffer.occupies_not_header occupies)

/-- A word at the front of a block lies in its header. -/
theorem EvBufLayout.KeptData.store32 {addr word : Nat} (inside : g < defaultBufferGroupNum)
    (block : a ∈ layout.blocks g) (low : a ≤ addr) (high : addr + 4 ≤ a + evBufItemData)
    : layout.KeptData ram (ram.store32 addr word) := by
  intro x off
  apply Ram.store32_outside
  by_contra among
  exact off ⟨g, inside, a, block, by omega, by omega⟩

/-- The only block that a buffer has bytes of is its own, behind the header. -/
theorem block_of_occupies (occupies : own.Occupies layout x)
    (inside : g < defaultBufferGroupNum) (block : a ∈ layout.blocks g) (low : a ≤ x)
    (high : x < a + bufferBlockSize g)
    : own.block = a ∧ a + evBufItemData ≤ x := by
  obtain ⟨h, inH, b, blockB, data, lowB, highB⟩ := occupies
  have ownBlock : own.block = b := by simp [Buffer.block, evBufGetHead, data]
  have same : b = a := by
    by_contra other
    have apart := EvBufLayout.blocks_apart inside inH block blockB other
    omega
  subst same
  exact ⟨ownBlock, by omega⟩

/-- What differs only in the data of held buffers has been written by their holders. -/
theorem callerWrites_of_occupied
    (same : ∀ x, (∀ own ∈ held, ¬ own.Occupies layout x) → ram' x = ram x)
    : CallerWrites layout held ram ram' := by
  intro g inside a block x low high clear
  apply same
  intro own holds ours
  obtain ⟨ownBlock, behind⟩ := block_of_occupies ours inside block low high
  rcases clear with unheld | ⟨-, header⟩
  · exact unheld own holds ownBlock
  · omega

-----------------------------------------------------------------------------------------
-- Calls
-----------------------------------------------------------------------------------------

namespace PoolState

/-- The bytes that were asked for, by their addresses. -/
theorem occupies (state : PoolState layout sys held free) (holds : own ∈ held)
    (low : own.data ≤ x) (high : x < own.data + own.size.toNat)
    : own.Occupies layout x := by
  have fits := state.fits holds (x - own.data) (by omega)
  rwa [Nat.add_sub_cancel' low] at fits

/-- The pools do not depend on the order in which buffers are listed. -/
theorem perm {held' : List Buffer} (state : PoolState layout sys held free)
    (same : held.Perm held')
    : PoolState layout sys held' free where
  group := state.group
  listed := state.listed
  split g inside :=
    ((((same.map Buffer.block).filter _).symm).append_left (free g)).trans (state.split g inside)
  owned buffer holds := state.owned buffer (same.mem_iff.mpr holds)

/-- A request takes at most one block, and writes nothing but the header of a block. -/
theorem allocated {size : UInt16} {granted : Option Nat} (state : PoolState layout sys held free)
    (returned : evBufAllocate sys size = some (granted, sys'))
    : (∃ free', PoolState layout sys'
        (granted.toList.map (fun p => { data := p, size := size }) ++ held) free')
      ∧ layout.KeptData sys.ram sys'.ram := by
  by_cases wrong : size.toNat = 0 ∨ maxBufferSize < size.toNat
  · rw [evBufAllocate, if_pos wrong] at returned
    cases returned
    exact ⟨⟨free, state⟩, fun _ _ => rfl⟩
  cases found : (List.range defaultBufferGroupNum).find? (evBufFits sys size) with
  | none =>
      rw [evBufAllocate, if_neg wrong, found] at returned
      cases returned
      exact ⟨⟨free, state⟩, fun _ _ => rfl⟩
  | some g =>
      have inside : g < defaultBufferGroupNum :=
        List.mem_range.mp (List.mem_of_find?_eq_some found)
      obtain ⟨a, rest, after, first, taken, stored, pools⟩ := state.allocate_from wrong found
      rw [taken] at returned
      cases returned
      have block : a ∈ layout.blocks g := state.free_block inside (by simp [first])
      refine ⟨⟨_, pools⟩, ?_⟩
      rw [stored]
      exact EvBufLayout.KeptData.store32 inside block (Nat.le_add_right _ _)
        (by simp only [evBufItemGroupIndex, evBufItemData]; omega)

theorem released (state : PoolState layout sys held free) (holds : own ∈ held)
    : ∃ after free', evBufFree layout sys own.data = some (.bufferSucc, after)
      ∧ PoolState layout after (held.erase own) free' ∧ layout.KeptData sys.ram after.ram := by
  obtain ⟨g, inside, after, block, freed, pools, -, word, stored⟩ := state.release_to holds
  refine ⟨after, _, freed, pools, ?_⟩
  rw [stored]
  exact EvBufLayout.KeptData.store32 inside block (Nat.le_refl _)
    (by simp only [evBufItemData]; omega)

variable {mine held' : List Buffer}

theorem mine_not_held (state : PoolState layout sys (mine ++ held) free) (ours : own ∈ mine)
    : ∀ buffer ∈ held, buffer.block ≠ own.block := by
  intro buffer holds same
  have nodup := state.nodup_held
  rw [List.map_append, List.nodup_append] at nodup
  exact nodup.2.2 _ (List.mem_map_of_mem ours) _ (List.mem_map_of_mem holds) same.symm

/-- A call of the others, who free no buffer of ours. -/
theorem others_call {call : EvBufCall} (state : PoolState layout sys (mine ++ held) free)
    (returned : evBufCall layout sys held call = some (sys', held'))
    : (∃ free', PoolState layout sys' (mine ++ held') free')
      ∧ layout.KeptData sys.ram sys'.ram := by
  cases call with
  | allocate size =>
      obtain ⟨⟨granted, after⟩, taken, result⟩ := Option.map_eq_some_iff.mp returned
      obtain ⟨⟨free', pools⟩, kept⟩ := state.allocated taken
      cases granted with
      | none =>
          cases result
          exact ⟨⟨free', pools⟩, kept⟩
      | some p =>
          cases result
          have moved : List.Perm ({ data := p, size := size } :: (mine ++ held))
              (mine ++ { data := p, size := size } :: held) :=
            List.perm_middle.symm
          exact ⟨⟨free', pools.perm moved⟩, kept⟩
  | free buffer =>
      rw [evBufCall] at returned
      split at returned
      case isFalse absent => cases returned
      case isTrue holds =>
        have other : buffer ∉ mine :=
          fun ours => state.mine_not_held ours buffer holds rfl
        obtain ⟨after, free', freed, pools, kept⟩ :=
          state.released (List.mem_append_right mine holds)
        rw [freed] at returned
        cases returned
        rw [List.erase_append_right _ other] at pools
        exact ⟨⟨free', pools⟩, kept⟩

/-- A write of the others, to whom our buffers are like free blocks. -/
theorem others_write (state : PoolState layout sys (mine ++ held) free)
    (allowed : CallerWrites layout held sys.ram ram)
    : PoolState layout { sys with ram := ram } (mine ++ held) free
      ∧ ∀ own ∈ mine, ∀ x, own.Occupies layout x → ram x = sys.ram x := by
  constructor
  · apply state.write
    intro g inside a block x low high clear
    refine allowed g inside a block x low high (clear.imp_left ?_)
    exact fun unheld buffer holds => unheld buffer (List.mem_append_right mine holds)
  · rintro own ours x ⟨g, inside, a, block, data, low, high⟩
    have ownBlock : own.block = a := by simp [Buffer.block, evBufGetHead, data]
    refine allowed g inside a block x (by omega) high (.inl ?_)
    rw [← ownBlock]
    exact state.mine_not_held ours

end PoolState

end TelinkSdk.EvBuffer
