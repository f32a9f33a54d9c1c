import TelinkSdk.Os.BufferPool

/-! Runs in which a buffer may also be freed when it is free already. The group word of a block
outlives its release, so the walk that looks for a repeated release takes the right list.
-/

namespace TelinkSdk.EvBuffer

open Links LinkView

variable {layout : EvBufLayout} {sys sys' : EvBufSys} {held : List Buffer} {ever : List Nat}
  {free : Nat → List Nat} {g a p : Nat}

/-- The states after `ev_buf_init` and any calls and writes of the callers, with the pointers that
`ev_buf_allocate` has returned so far. Any of them may be freed at any time.
-/
inductive EvBufHistory (layout : EvBufLayout) : EvBufSys → List Buffer → List Nat → Prop where
  | init (sys : EvBufSys) : EvBufHistory layout (evBufInit layout sys) [] []
  | granted {sys sys' : EvBufSys} {held : List Buffer} {ever : List Nat} {size : UInt16} {p : Nat}
      (run : EvBufHistory layout sys held ever)
      (returned : evBufAllocate sys size = some (some p, sys'))
      : EvBufHistory layout sys' ({ data := p, size := size } :: held) (p :: ever)
  | refused {sys sys' : EvBufSys} {held : List Buffer} {ever : List Nat} {size : UInt16}
      (run : EvBufHistory layout sys held ever)
      (returned : evBufAllocate sys size = some (none, sys'))
      : EvBufHistory layout sys' held ever
  | free {sys sys' : EvBufSys} {held : List Buffer} {ever : List Nat} {buffer : Buffer}
      {status : BufSts} (run : EvBufHistory layout sys held ever) (holds : buffer ∈ held)
      (returned : evBufFree layout sys buffer.data = some (status, sys'))
      : EvBufHistory layout sys' (held.erase buffer) ever
  | freeAgain {sys sys' : EvBufSys} {held : List Buffer} {ever : List Nat} {p : Nat}
      {status : BufSts} (run : EvBufHistory layout sys held ever) (known : p ∈ ever)
      (unheld : ∀ buffer ∈ held, buffer.data ≠ p)
      (returned : evBufFree layout sys p = some (status, sys'))
      : EvBufHistory layout sys' held ever
  | write {sys : EvBufSys} {held : List Buffer} {ever : List Nat} (ram : Ram)
      (run : EvBufHistory layout sys held ever) (allowed : CallerWrites layout held sys.ram ram)
      : EvBufHistory layout { sys with ram := ram } held ever

/-- The block behind a data pointer names its group. -/
def Named (layout : EvBufLayout) (ram : Ram) (p : Nat) : Prop :=
  ∃ g < defaultBufferGroupNum, ∃ a ∈ layout.blocks g,
    p = a + evBufItemData ∧ ram.le32 (a + evBufItemGroupIndex) = g

-----------------------------------------------------------------------------------------
-- Group words
-----------------------------------------------------------------------------------------

/-- Naming the group of a block does not disturb the others. -/
theorem Named.allocated {ram : Ram} (named : Named layout ram p) (inside : g < defaultBufferGroupNum)
    (block : a ∈ layout.blocks g)
    : Named layout (ram.store32 (a + evBufItemGroupIndex) g) p := by
  obtain ⟨h, inH, b, blockB, data, word⟩ := named
  have facts := bufferGroup_facts inside
  refine ⟨h, inH, b, blockB, data, ?_⟩
  by_cases same : b = a
  · subst same
    rw [EvBufLayout.block_group inH inside blockB block]
    exact Ram.store32_le32 (by omega)
  · rw [groupIndex_congr inH (EvBufLayout.other_block inside inH block blockB same ?_), word]
    intro x apart
    simp only [evBufItemGroupIndex]
    exact Ram.store32_outside (by omega)

/-- The link of a block lies in front of its group word. -/
theorem Named.linked {ram : Ram} {value : Nat} (named : Named layout ram p)
    (inside : g < defaultBufferGroupNum) (block : a ∈ layout.blocks g)
    : Named layout (ram.store32 a value) p := by
  obtain ⟨h, inH, b, blockB, data, word⟩ := named
  have facts := bufferGroup_facts inside
  refine ⟨h, inH, b, blockB, data, ?_⟩
  by_cases same : b = a
  · subst same
    rw [Ram.store32_le32_apart (by simp only [evBufItemGroupIndex]; omega), word]
  · rw [groupIndex_congr inH (EvBufLayout.other_block inside inH block blockB same ?_), word]
    intro x apart
    exact Ram.store32_outside (by omega)

theorem Named.written {ram ram' : Ram} (named : Named layout ram p)
    (allowed : CallerWrites layout held ram ram')
    : Named layout ram' p := by
  obtain ⟨g, inside, a, block, data, word⟩ := named
  exact ⟨g, inside, a, block, data, (allowed.groupIndex inside block).trans word⟩

/-- What is known of every state of a history. -/
structure HistoryState (layout : EvBufLayout) (sys : EvBufSys) (held : List Buffer)
    (ever : List Nat) (free : Nat → List Nat) : Prop extends PoolState layout sys held free where
  named : ∀ p ∈ ever, Named layout sys.ram p
  known : ∀ buffer ∈ held, buffer.data ∈ ever

namespace HistoryState

-----------------------------------------------------------------------------------------
-- A repeated release
-----------------------------------------------------------------------------------------

/-- A block that nobody holds is on the free list of its group. -/
theorem free_of_unheld (state : PoolState layout sys held free) (inside : g < defaultBufferGroupNum)
    (block : a ∈ layout.blocks g) (unheld : ∀ buffer ∈ held, buffer.data ≠ a + evBufItemData)
    : a ∈ free g := by
  have member := (state.split g inside).mem_iff.mpr block
  rcases List.mem_append.mp member with listed | taken
  · exact listed
  · obtain ⟨⟨buffer, holds, same⟩, -⟩ := EvBufLayout.mem_heldIn.mp taken
    obtain ⟨h, inH, b, blockB, data, -⟩ := state.owned buffer holds
    refine absurd ?_ (unheld buffer holds)
    rw [data, ← same, Buffer.block, evBufGetHead, data, Nat.add_sub_cancel]

/-- The walk finds the block, wherever it is in the list. -/
theorem freeAgain (state : HistoryState layout sys held ever free) (known : p ∈ ever)
    (unheld : ∀ buffer ∈ held, buffer.data ≠ p)
    : evBufFree layout sys p
      = some (.bufferDuplicateFree, sys.exceptionPost .evBufferExceptionFreeMulti) := by
  obtain ⟨g, inside, a, block, rfl, word⟩ := state.named p known
  have facts := bufferGroup_facts inside
  have listed := free_of_unheld state.toPoolState inside block unheld
  have enough : (free g).length ≤ 4294967296 := by
    have counted := state.length_le inside
    omega
  have walked : evBufIsExisted sys (g % 256) a = some true := by
    have byte : g % 256 = g := by omega
    rw [evBufIsExisted, byte, if_pos inside, state.group g inside]
    obtain ⟨before, behind, -, found⟩ := walkUntil_mem none (state.listed g inside) enough listed
    simp only [found]
    rfl
  have head : evBufGetHead (a + evBufItemData) = a := by simp [evBufGetHead]
  simp only [evBufFree, EvBufLayout.isEvBuf_block inside block, if_true, head, word, walked]

-----------------------------------------------------------------------------------------
-- Steps
-----------------------------------------------------------------------------------------

theorem init : HistoryState layout (evBufInit layout sys) [] [] layout.blocks where
  toPoolState := evBufInit_state
  named := fun _ member => absurd member List.not_mem_nil
  known := fun _ holds => absurd holds List.not_mem_nil

theorem granted (state : HistoryState layout sys held ever free) {size : UInt16}
    (returned : evBufAllocate sys size = some (some p, sys'))
    : ∃ free', HistoryState layout sys' ({ data := p, size := size } :: held) (p :: ever) free' := by
  have right : ¬(size.toNat = 0 ∨ maxBufferSize < size.toNat) := by
    intro wrong
    rw [evBufAllocate, if_pos wrong] at returned
    cases returned
  cases found : (List.range defaultBufferGroupNum).find? (evBufFits sys size) with
  | none =>
      rw [evBufAllocate, if_neg right, found] at returned
      cases returned
  | some g =>
      have inside : g < defaultBufferGroupNum :=
        List.mem_range.mp (List.mem_of_find?_eq_some found)
      obtain ⟨a, rest, after, first, granted, ram, pools⟩ :=
        state.toPoolState.allocate_from right found
      rw [granted, Option.some.injEq, Prod.mk.injEq, Option.some.injEq] at returned
      obtain ⟨rfl, rfl⟩ := returned
      have block := state.free_block inside (first ▸ List.mem_cons_self)
      refine ⟨_, pools, ?_, ?_⟩
      · intro q member
        rw [ram]
        rcases List.mem_cons.mp member with rfl | earlier
        · have facts := bufferGroup_facts inside
          exact ⟨g, inside, a, block, rfl, Ram.store32_le32 (by omega)⟩
        · exact (state.named q earlier).allocated inside block
      · intro buffer holds
        rcases List.mem_cons.mp holds with rfl | earlier
        · exact List.mem_cons_self
        · exact List.mem_cons_of_mem _ (state.known buffer earlier)

theorem refused (state : HistoryState layout sys held ever free) {size : UInt16}
    (returned : evBufAllocate sys size = some (none, sys'))
    : sys' = sys := by
  rcases state.toPoolState.allocate size with refused | ⟨p, _, _, granted, -⟩
  · rw [refused] at returned
    cases returned
    rfl
  · rw [granted] at returned
    cases returned

theorem freed (state : HistoryState layout sys held ever free) {buffer : Buffer}
    (holds : buffer ∈ held) {status : BufSts}
    (returned : evBufFree layout sys buffer.data = some (status, sys'))
    : ∃ free', HistoryState layout sys' (held.erase buffer) ever free' := by
  obtain ⟨after, free', freed, pools, word, ram⟩ := state.toPoolState.release holds
  rw [freed, Option.some.injEq, Prod.mk.injEq] at returned
  obtain ⟨-, rfl⟩ := returned
  obtain ⟨g, inside, a, block, data, -⟩ := state.owned buffer holds
  have blockOf : buffer.block = a := by simp [Buffer.block, evBufGetHead, data]
  refine ⟨free', pools, ?_, ?_⟩
  · intro q member
    rw [ram, blockOf]
    exact (state.named q member).linked inside block
  · intro other left
    exact state.known other (List.mem_of_mem_erase left)

theorem write (state : HistoryState layout sys held ever free) {ram : Ram}
    (allowed : CallerWrites layout held sys.ram ram)
    : HistoryState layout { sys with ram := ram } held ever free where
  toPoolState := state.toPoolState.write allowed
  named := fun q member => (state.named q member).written allowed
  known := state.known

end HistoryState

/-- Every state of a history, by induction over its calls. -/
theorem EvBufHistory.state (run : EvBufHistory layout sys held ever)
    : ∃ free, HistoryState layout sys held ever free := by
  induction run with
  | init sys => exact ⟨_, .init⟩
  | granted _ returned ih =>
      obtain ⟨free, state⟩ := ih
      exact state.granted returned
  | refused _ returned ih =>
      obtain ⟨free, state⟩ := ih
      rw [state.refused returned]
      exact ⟨free, state⟩
  | free _ holds returned ih =>
      obtain ⟨free, state⟩ := ih
      exact state.freed holds returned
  | freeAgain _ known unheld returned ih =>
      obtain ⟨free, state⟩ := ih
      rw [state.freeAgain known unheld] at returned
      cases returned
      -- only an exception has been posted
      exact ⟨free, { state with }⟩
  | write ram _ allowed ih =>
      obtain ⟨free, state⟩ := ih
      exact ⟨free, state.write allowed⟩

/-- A buffer that is freed again while it is free is reported, and the pools stay as they are. -/
theorem evBufFree_again (run : EvBufHistory layout sys held ever) (known : p ∈ ever)
    (unheld : ∀ buffer ∈ held, buffer.data ≠ p)
    : ∃ sys', evBufFree layout sys p = some (.bufferDuplicateFree, sys')
      ∧ sys'.ram = sys.ram ∧ sys'.pools = sys.pools ∧ sys'.bufGroups = sys.bufGroups := by
  obtain ⟨free, state⟩ := run.state
  exact ⟨_, state.freeAgain known unheld, rfl, rfl, rfl⟩

-----------------------------------------------------------------------------------------
-- Calls on held buffers
-----------------------------------------------------------------------------------------

/-- A call on a held buffer, or a request, continues a history. -/
theorem EvBufHistory.call {held' : List Buffer} (run : EvBufHistory layout sys held ever)
    (call : EvBufCall) (returned : evBufCall layout sys held call = some (sys', held'))
    : ∃ ever', EvBufHistory layout sys' held' ever' ∧ ∀ p ∈ ever, p ∈ ever' := by
  cases call with
  | allocate size =>
      obtain ⟨⟨p, after⟩, allocated, same⟩ := Option.map_eq_some_iff.mp returned
      cases p with
      | none =>
          cases same
          exact ⟨ever, run.refused allocated, fun _ member => member⟩
      | some p =>
          cases same
          exact ⟨p :: ever, run.granted allocated, fun _ => List.mem_cons_of_mem p⟩
  | free buffer =>
      rw [evBufCall] at returned
      split at returned
      · rename_i holds
        obtain ⟨⟨status, after⟩, freed, same⟩ := Option.map_eq_some_iff.mp returned
        cases same
        exact ⟨ever, run.free holds freed, fun _ member => member⟩
      · cases returned

theorem EvBufHistory.calls {calls : List EvBufCall} (before : EvBufSys × List Buffer)
    {after : EvBufSys × List Buffer} (run : EvBufHistory layout before.1 before.2 ever)
    (returned : evBufCalls layout before calls = some after)
    : ∃ ever', EvBufHistory layout after.1 after.2 ever' ∧ ∀ p ∈ ever, p ∈ ever' := by
  induction calls generalizing before ever with
  | nil =>
      cases returned
      exact ⟨ever, run, fun _ member => member⟩
  | cons call rest ih =>
      rw [evBufCalls, List.foldlM_cons] at returned
      obtain ⟨middle, first, others⟩ := Option.bind_eq_some_iff.mp returned
      obtain ⟨ever₁, run₁, more₁⟩ := run.call call first
      obtain ⟨ever₂, run₂, more₂⟩ := ih middle run₁ others
      exact ⟨ever₂, run₂, fun p member => more₂ p (more₁ p member)⟩

/-- The first of two buffers, freed again when it is the second in the free list. -/
theorem evBufFree_again_behind
    : ∃ sys sys', evBufFree pagedLayout sys 4104 = some (.bufferDuplicateFree, sys')
      ∧ sys'.pools = sys.pools := by
  let start := evBufInit pagedLayout
    { ram := fun _ => 0, pools := fun _ => { freeList := none },
      bufGroups := fun _ => { qHead := none, size := 0, availBufNum := 0 }, exceptions := [] }
  let requests := [EvBufCall.allocate 10, .allocate 10]
  let frees := [EvBufCall.free { data := 4104, size := 10 }, .free { data := 4128, size := 10 }]
  have taken : (evBufCalls pagedLayout (start, []) requests).map (fun s => s.2.map Buffer.data)
      = some [4128, 4104] := by
    decide +kernel
  have given : ((evBufCalls pagedLayout (start, []) requests).bind
        fun s => evBufCalls pagedLayout s frees).map (fun s => s.2)
      = some [] := by
    decide +kernel
  obtain ⟨after, requested, data⟩ := Option.map_eq_some_iff.mp taken
  obtain ⟨ever, run, -⟩ := EvBufHistory.calls (start, []) (.init _) requested
  obtain ⟨_, state⟩ := run.state
  have known : 4104 ∈ ever := by
    have member : 4104 ∈ after.2.map Buffer.data := by simp [data]
    obtain ⟨buffer, holds, same⟩ := List.mem_map.mp member
    exact same ▸ state.known buffer holds
  rw [requested, Option.bind_some] at given
  obtain ⟨last, released, none_held⟩ := Option.map_eq_some_iff.mp given
  obtain ⟨ever', run', more⟩ := EvBufHistory.calls after run released
  obtain ⟨sys', again, -, pools, -⟩ :=
    evBufFree_again run' (more _ known) (by simp [none_held])
  exact ⟨last.1, sys', again, pools⟩

end TelinkSdk.EvBuffer
