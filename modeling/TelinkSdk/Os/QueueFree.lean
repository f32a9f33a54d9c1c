import TelinkSdk.Os.BufferPool
import TelinkSdk.Os.Queue

/-! Queues of event buffers. The link of a queued buffer is the first word of its block, where the
free list of its group will have its own link.
-/

namespace TelinkSdk.EvBuffer

open Links LinkView LinkStore

-----------------------------------------------------------------------------------------
-- The memory of a queue
-----------------------------------------------------------------------------------------

/-- The address of a queue item. -/
@[ext] structure EvItem where
  val : Nat
  valid : 0 < val ∧ val < 4294967296
deriving DecidableEq

/-- The item that a link points to. -/
def itemAt (word : Nat) : Option EvItem :=
  if valid : 0 < word ∧ word < 4294967296 then some ⟨word, valid⟩ else none

/-- The link to an item. -/
def itemWord (p : Option EvItem) : Nat := pointerWord (p.map EvItem.val)

def EvBufLayout.IsBlock (layout : EvBufLayout) (a : Nat) : Prop :=
  ∃ g, g < defaultBufferGroupNum ∧ a ∈ layout.blocks g

instance (layout : EvBufLayout) (a : Nat) : Decidable (layout.IsBlock a) :=
  inferInstanceAs (Decidable (∃ g, g < defaultBufferGroupNum ∧ a ∈ layout.blocks g))

/-- The memory of the blocks, and the links of items that are no blocks. -/
structure EvMem (layout : EvBufLayout) where
  ram : Ram
  elsewhere : EvItem → Option EvItem

variable {layout : EvBufLayout}

def EvMem.next (m : EvMem layout) (a : EvItem) : Option EvItem :=
  if layout.IsBlock a.val then itemAt (m.ram.le32 a.val) else m.elsewhere a

def EvMem.setNext (m : EvMem layout) (a : EvItem) (p : Option EvItem) : EvMem layout :=
  if layout.IsBlock a.val then { m with ram := m.ram.store32 a.val (itemWord p) }
  else { m with elsewhere := Function.update m.elsewhere a p }

theorem itemWord_small (p : Option EvItem) : itemWord p < 4294967296 := by
  cases p with
  | none => decide
  | some a => exact a.valid.2

/-- A stored link is read back. -/
theorem itemAt_itemWord (p : Option EvItem) : itemAt (itemWord p) = p := by
  cases p with
  | none => rfl
  | some a => exact dif_pos a.valid

/-- The links of two blocks are different words, and so are a link and the group of a block. -/
theorem EvBufLayout.IsBlock.link_apart {a b : Nat} (blockA : layout.IsBlock a)
    (blockB : layout.IsBlock b) (other : b ≠ a)
    : b + 8 ≤ a ∨ a + 8 ≤ b := by
  obtain ⟨g, inG, inA⟩ := blockA
  obtain ⟨h, inH, inB⟩ := blockB
  have apart := EvBufLayout.blocks_apart inG inH inA inB other
  have factsG := bufferGroup_facts inG
  have factsH := bufferGroup_facts inH
  omega

instance (layout : EvBufLayout) : LinkStore (EvMem layout) EvItem where
  next := EvMem.next
  setNext := EvMem.setNext
  next_setNext m a p := by
    by_cases block : layout.IsBlock a.val
    · simp only [EvMem.next, EvMem.setNext, if_pos block]
      rw [Ram.store32_le32 (itemWord_small p), itemAt_itemWord]
    · simp only [EvMem.next, EvMem.setNext, if_neg block, Function.update_self]
  next_setNext_of_ne m a b p other := by
    by_cases blockA : layout.IsBlock a.val
    · by_cases blockB : layout.IsBlock b.val
      · have apart := blockA.link_apart blockB (fun same => other (EvItem.ext same))
        simp only [EvMem.next, EvMem.setNext, if_pos blockA, if_pos blockB]
        rw [Ram.store32_le32_apart (by omega)]
      · simp only [EvMem.next, EvMem.setNext, if_pos blockA, if_neg blockB]
    · simp only [EvMem.next, EvMem.setNext, if_neg blockA, Function.update_of_ne other]

-----------------------------------------------------------------------------------------
-- A queue over the event buffers
-----------------------------------------------------------------------------------------

/-- The event buffers with one queue. -/
structure EvQueueSys (layout : EvBufLayout) where
  sys : EvBufSys
  elsewhere : EvItem → Option EvItem
  q : EvQueue (EvMem layout) EvItem

namespace EvQueueSys

def mem (s : EvQueueSys layout) : EvMem layout := { ram := s.sys.ram, elsewhere := s.elsewhere }

/-- The state after an operation on the queue. -/
def after (s : EvQueueSys layout) (q : EvQueue (EvMem layout) EvItem) (m : EvMem layout)
    : EvQueueSys layout where
  sys := { s.sys with ram := m.ram }
  elsewhere := m.elsewhere
  q := q

end EvQueueSys

/-- The loop of `ev_queue_freeQ`; there is no result when it goes on for `fuel` rounds. -/
def evQueueFreeQ.loop (layout : EvBufLayout) : Nat → EvQueueSys layout → Option (EvQueueSys layout)
  | 0, _ => none
  | fuel + 1, s =>
      match evQueuePop s.q s.mem with
      | (none, q) => some { s with q }
      | (some bufferPtr, q) => do
          let (_, sys) ← evBufFree layout s.sys (bufferPtr.item.val + evBufItemData)
          evQueueFreeQ.loop layout fuel { s with sys, q }

/-- `ev_queue_freeQ`, for a queue that is not NULL. -/
def evQueueFreeQ (layout : EvBufLayout) (fuel : Nat) (s : EvQueueSys layout)
    : Option (EvQueueSts × EvQueueSys layout) :=
  (evQueueFreeQ.loop layout fuel s).map fun s => (.queueSucc, s)

/-- Runs of the event buffers and one queue, with the buffers that callers hold and those of them
that are in the queue. A buffer in the queue is not freed by others nor pushed again, and its link
is not written by others.
-/
inductive EvQueueRun (layout : EvBufLayout) (fuel : Nat)
    (priFunc : Option (EvPriFunc (EvMem layout) EvItem))
    : EvQueueSys layout → List Buffer → List Buffer → Prop where
  | init (sys : EvBufSys) (elsewhere : EvItem → Option EvItem)
      : EvQueueRun layout fuel priFunc
          { sys := evBufInit layout sys, elsewhere, q := evQueueInit priFunc } [] []
  | call {s : EvQueueSys layout} {held held' queued : List Buffer} {sys' : EvBufSys}
      (call : EvBufCall) (run : EvQueueRun layout fuel priFunc s held queued)
      (apart : ∀ buffer ∈ queued, call ≠ .free buffer)
      (returned : evBufCall layout s.sys held call = some (sys', held'))
      : EvQueueRun layout fuel priFunc { s with sys := sys' } held' queued
  | push {s : EvQueueSys layout} {held queued : List Buffer} {sts : EvQueueSts}
      {q' : EvQueue (EvMem layout) EvItem} {m' : EvMem layout} (buffer : Buffer) (item : EvItem)
      (run : EvQueueRun layout fuel priFunc s held queued) (holds : buffer ∈ held)
      (fresh : buffer ∉ queued) (block : item.val = buffer.block)
      (returned : evQueuePush fuel s.q { item } s.mem = some (sts, q', m'))
      : EvQueueRun layout fuel priFunc (s.after q' m') held (buffer :: queued)
  | pop {s : EvQueueSys layout} {held queued : List Buffer}
      (run : EvQueueRun layout fuel priFunc s held queued)
      : EvQueueRun layout fuel priFunc { s with q := (evQueuePop s.q s.mem).2 } held
          (queued.filter fun buffer =>
            (evQueuePop s.q s.mem).1.map (fun payload => payload.item.val) ≠ some buffer.block)
  | delete {s : EvQueueSys layout} {held queued : List Buffer} {sts : EvQueueSts}
      {q' : EvQueue (EvMem layout) EvItem} {m' : EvMem layout} (item : EvItem)
      (run : EvQueueRun layout fuel priFunc s held queued)
      (returned : evQueueDelete fuel s.q { item } s.mem = some (sts, q', m'))
      : EvQueueRun layout fuel priFunc (s.after q' m') held
          (queued.filter fun buffer => buffer.block ≠ item.val)
  | write {s : EvQueueSys layout} {held queued : List Buffer} (ram : Ram)
      (elsewhere : EvItem → Option EvItem) (run : EvQueueRun layout fuel priFunc s held queued)
      (allowed : CallerWrites layout held s.sys.ram ram)
      (links : ∀ buffer ∈ queued, ram.le32 buffer.block = s.sys.ram.le32 buffer.block)
      : EvQueueRun layout fuel priFunc
          { s with sys := { s.sys with ram }, elsewhere } held queued

-----------------------------------------------------------------------------------------
-- Links of blocks
-----------------------------------------------------------------------------------------

variable {s : EvQueueSys layout} {m : EvMem layout} {sys' : EvBufSys}
  {held held' queued : List Buffer} {free free' : Nat → List Nat} {l : List EvItem}
  {buffer : Buffer}

theorem EvMem.next_block {a : EvItem} (block : layout.IsBlock a.val)
    : next m a = itemAt (m.ram.le32 a.val) :=
  if_pos block

theorem EvMem.next_congr {m' : EvMem layout} {a : EvItem} (block : layout.IsBlock a.val)
    (same : m'.ram.le32 a.val = m.ram.le32 a.val)
    : next m' a = next m a := by
  rw [EvMem.next_block block, EvMem.next_block block, same]

/-- A word in the header of one block is none of the links of the others. -/
theorem EvBufLayout.IsBlock.link_kept {ram : Ram} {a b offset value : Nat}
    (blockA : layout.IsBlock a) (blockB : layout.IsBlock b) (other : b ≠ a) (header : offset ≤ 4)
    : (ram.store32 (a + offset) value).le32 b = ram.le32 b := by
  have apart := blockA.link_apart blockB other
  exact Ram.store32_le32_apart (by omega)

/-- The first word of a block is such a header word. -/
theorem EvBufLayout.IsBlock.link_kept_first {ram : Ram} {a b value : Nat}
    (blockA : layout.IsBlock a) (blockB : layout.IsBlock b) (other : b ≠ a)
    : (ram.store32 a value).le32 b = ram.le32 b := by
  have kept : (ram.store32 (a + 0) value).le32 b = ram.le32 b :=
    blockA.link_kept blockB other (Nat.zero_le 4)
  rw [Nat.add_zero] at kept
  exact kept

theorem PoolState.held_block {sys : EvBufSys} (state : PoolState layout sys held free)
    (holds : buffer ∈ held)
    : layout.IsBlock buffer.block ∧ buffer.data = buffer.block + evBufItemData := by
  obtain ⟨g, inside, a, block, data, -⟩ := state.owned buffer holds
  have blockOf : buffer.block = a := by simp [Buffer.block, evBufGetHead, data]
  rw [blockOf]
  exact ⟨⟨g, inside, block⟩, data⟩

/-- Callers may write the links of held blocks. -/
theorem CallerWrites.setNext {ram : Ram} (allowed : CallerWrites layout held ram m.ram)
    {a : EvItem} (holds : a.val ∈ held.map Buffer.block) (p : Option EvItem)
    : CallerWrites layout held ram (setNext m a p).ram := by
  intro g inside b block x low high untouched
  rw [← allowed g inside b block x low high untouched]
  have blockB : layout.IsBlock b := ⟨g, inside, block⟩
  show (EvMem.setNext m a p).ram x = m.ram x
  unfold EvMem.setNext
  split
  · next blockA =>
      apply Ram.store32_outside
      by_cases same : b = a.val
      · rcases untouched with unheld | group
        · obtain ⟨buffer, holds, here⟩ := List.mem_map.mp holds
          exact absurd (here.trans same.symm) (unheld buffer holds)
        · simp only [evBufItemGroupIndex] at group
          omega
      · obtain ⟨h, inH, blockH⟩ := blockA
        have apart := EvBufLayout.blocks_apart inH inside blockH block same
        have facts := bufferGroup_facts inH
        omega
  · rfl

-----------------------------------------------------------------------------------------
-- The invariant
-----------------------------------------------------------------------------------------

/-- The items of the queue, in the order of `l`, are the blocks of the queued buffers, which their
callers still hold.
-/
structure QueueState (layout : EvBufLayout) (s : EvQueueSys layout) (held queued : List Buffer)
    (free : Nat → List Nat) (l : List EvItem) : Prop extends PoolState layout s.sys held free where
  inQueue : Queued s.q s.mem l
  items : (l.map EvItem.val).Perm (queued.map Buffer.block)
  holds : ∀ buffer ∈ queued, buffer ∈ held

namespace QueueState

theorem item (state : QueueState layout s held queued free l) {a : EvItem} (inside : a ∈ l)
    : ∃ buffer ∈ queued, buffer.block = a.val :=
  List.mem_map.mp (state.items.mem_iff.mp (List.mem_map_of_mem inside))

theorem item_block (state : QueueState layout s held queued free l) {a : EvItem} (inside : a ∈ l)
    : layout.IsBlock a.val := by
  obtain ⟨buffer, member, same⟩ := state.item inside
  rw [← same]
  exact (state.held_block (state.holds buffer member)).1

/-- A change of the pools and of memory that leaves the links of the queue alone. -/
theorem keep (state : QueueState layout s held queued free l)
    (pools : PoolState layout sys' held' free')
    (links : ∀ buffer ∈ queued, sys'.ram.le32 buffer.block = s.sys.ram.le32 buffer.block)
    (holds : ∀ buffer ∈ queued, buffer ∈ held') (elsewhere : EvItem → Option EvItem)
    : QueueState layout { s with sys := sys', elsewhere } held' queued free' l where
  toPoolState := pools
  inQueue := by
    apply state.inQueue.congr
    intro a inside
    apply EvMem.next_congr (state.item_block inside)
    obtain ⟨buffer, member, same⟩ := state.item inside
    rw [← same]
    exact links buffer member
  items := state.items
  holds := holds

/-- There are fewer blocks than the count of a queue can hold. -/
theorem room (state : QueueState layout s held queued free l) : l.length < 255 := by
  have nodup : (l.map EvItem.val).Nodup :=
    state.inQueue.chain.nodup.map (fun _ _ => EvItem.ext)
  have within : l.map EvItem.val ⊆ (List.range defaultBufferGroupNum).flatMap layout.blocks := by
    intro a member
    obtain ⟨item, inside, rfl⟩ := List.mem_map.mp member
    obtain ⟨g, inG, block⟩ := state.item_block inside
    exact List.mem_flatMap.mpr ⟨g, List.mem_range.mpr inG, block⟩
  have total : ((List.range defaultBufferGroupNum).flatMap layout.blocks).length = 37 := by
    simp [EvBufLayout.blocks, List.range_succ, bufferNumInGroup]
  have counted := nodup.length_le_of_subset within
  rw [total, List.length_map] at counted
  omega

-----------------------------------------------------------------------------------------
-- Steps
-----------------------------------------------------------------------------------------

theorem init (sys : EvBufSys) (elsewhere : EvItem → Option EvItem)
    (priFunc : Option (EvPriFunc (EvMem layout) EvItem))
    : QueueState layout { sys := evBufInit layout sys, elsewhere, q := evQueueInit priFunc } [] []
        layout.blocks [] where
  toPoolState := evBufInit_state
  inQueue := ⟨rfl, rfl, rfl⟩
  items := .refl []
  holds := fun _ member => absurd member List.not_mem_nil

theorem write (state : QueueState layout s held queued free l) {ram : Ram}
    (allowed : CallerWrites layout held s.sys.ram ram)
    (links : ∀ buffer ∈ queued, ram.le32 buffer.block = s.sys.ram.le32 buffer.block)
    (elsewhere : EvItem → Option EvItem)
    : QueueState layout { s with sys := { s.sys with ram }, elsewhere } held queued free l :=
  state.keep (state.toPoolState.write allowed) links state.holds elsewhere

/-- The group word of the new buffer is stored, or the link of the one that is freed. Neither is in
the queue.
-/
theorem call (state : QueueState layout s held queued free l) {call : EvBufCall}
    (apart : ∀ buffer ∈ queued, call ≠ .free buffer)
    (returned : evBufCall layout s.sys held call = some (sys', held'))
    : ∃ free', QueueState layout { s with sys := sys' } held' queued free' l := by
  cases call with
  | allocate size =>
      obtain ⟨⟨p, after⟩, allocated, same⟩ := Option.map_eq_some_iff.mp returned
      by_cases wrong : size.toNat = 0 ∨ maxBufferSize < size.toNat
      · rw [evBufAllocate, if_pos wrong] at allocated
        cases allocated
        cases same
        exact ⟨free, state⟩
      cases found : (List.range defaultBufferGroupNum).find? (evBufFits s.sys size) with
      | none =>
          rw [evBufAllocate, if_neg wrong, found] at allocated
          cases allocated
          cases same
          exact ⟨free, state⟩
      | some g =>
          have inside : g < defaultBufferGroupNum :=
            List.mem_range.mp (List.mem_of_find?_eq_some found)
          obtain ⟨a, rest, sys'', first, granted, ram, pools⟩ :=
            state.toPoolState.allocate_from wrong found
          rw [granted] at allocated
          cases allocated
          cases same
          have member : a ∈ free g := first ▸ List.mem_cons_self
          have blockA : layout.IsBlock a := ⟨g, inside, state.free_block inside member⟩
          refine ⟨_, state.keep pools ?_ ?_ s.elsewhere⟩
          · intro buffer inQueue
            have holds := state.holds buffer inQueue
            rw [ram]
            exact blockA.link_kept (state.held_block holds).1
              (state.free_not_held inside member buffer holds) (Nat.le_refl 4)
          · exact fun buffer inQueue => List.mem_cons_of_mem _ (state.holds buffer inQueue)
  | free buffer =>
      rw [evBufCall] at returned
      split at returned
      · next holds =>
          obtain ⟨⟨status, after⟩, freed, same⟩ := Option.map_eq_some_iff.mp returned
          obtain ⟨sys'', free', released, pools, word, ram⟩ := state.toPoolState.release holds
          rw [released] at freed
          cases freed
          cases same
          have other : ∀ b ∈ queued, b ≠ buffer := fun b inQueue again =>
            apart b inQueue (again ▸ rfl)
          have left : ∀ b ∈ queued, b ∈ held.erase buffer := fun b inQueue =>
            (List.mem_erase_of_ne (other b inQueue)).mpr (state.holds b inQueue)
          refine ⟨free', state.keep pools ?_ left s.elsewhere⟩
          intro b inQueue
          obtain ⟨g, inside, block⟩ := (state.held_block holds).1
          rw [ram]
          exact EvBufLayout.IsBlock.link_kept_first ⟨g, inside, block⟩
            (state.held_block (state.holds b inQueue)).1
            (state.erase_not_held inside holds block b (left b inQueue))
      · cases returned

/-- A push or a removal writes links of held blocks. -/
theorem relink (state : QueueState layout s held queued free l)
    {q' : EvQueue (EvMem layout) EvItem} {m' : EvMem layout} {l' : List EvItem}
    {queued' : List Buffer} (after : Queued q' m' l')
    (allowed : CallerWrites layout held s.sys.ram m'.ram)
    (items : (l'.map EvItem.val).Perm (queued'.map Buffer.block))
    (holds : ∀ buffer ∈ queued', buffer ∈ held)
    : QueueState layout (s.after q' m') held queued' free l' where
  toPoolState := state.toPoolState.write allowed
  inQueue := after
  items := items
  holds := holds

theorem item_held (state : QueueState layout s held queued free l) {a : EvItem} (inside : a ∈ l)
    : a.val ∈ held.map Buffer.block := by
  obtain ⟨buffer, member, same⟩ := state.item inside
  exact List.mem_map.mpr ⟨buffer, state.holds buffer member, same⟩

theorem push (state : QueueState layout s held queued free l) {fuel : Nat} (enough : 255 ≤ fuel)
    {item : EvItem} (holds : buffer ∈ held) (fresh : buffer ∉ queued)
    (block : item.val = buffer.block) {sts : EvQueueSts} {q' : EvQueue (EvMem layout) EvItem}
    {m' : EvMem layout} (returned : evQueuePush fuel s.q { item } s.mem = some (sts, q', m'))
    : ∃ l', QueueState layout (s.after q' m') held (buffer :: queued) free l' := by
  have room := state.room
  have absent : item ∉ l := by
    intro again
    obtain ⟨other, member, same⟩ := state.item again
    have one : other = buffer :=
      List.inj_on_of_nodup_map state.nodup_held (state.holds other member) holds
        (same.trans block)
    exact fresh (one ▸ member)
  have allowed : CallerWrites layout held s.sys.ram m'.ram := by
    refine state.inQueue.push_keeps (P := fun m => CallerWrites layout held s.sys.ram m.ram) ?_
      returned (fun _ _ _ _ _ _ _ _ => rfl)
    rintro m a p (rfl | inside) before
    · exact before.setNext (block ▸ List.mem_map_of_mem holds) p
    · exact before.setNext (state.item_held inside) p
  have still : ∀ b ∈ buffer :: queued, b ∈ held := by
    simpa using ⟨holds, state.holds⟩
  have items (l₁ l₂ : List EvItem) (split : l = l₁ ++ l₂)
      : ((l₁ ++ item :: l₂).map EvItem.val).Perm ((buffer :: queued).map Buffer.block) := by
    refine (List.perm_middle.map EvItem.val).trans ?_
    rw [List.map_cons, List.map_cons, block, ← split]
    exact state.items.cons _
  cases pri : s.q.priFunc with
  | none =>
      have pushed : ∃ q' m', evQueueRawPush fuel s.q (some item) s.mem = some (.queueSucc, q', m')
          ∧ Leaves s.q s.mem q' m' (l ++ [item]) :=
        state.inQueue.push_fifo room pri absent
      obtain ⟨q'', m'', run, leaves⟩ := pushed
      rw [evQueuePush, TelinkSdk.evBufGetHead, run] at returned
      cases returned
      exact ⟨_, state.relink leaves.queued allowed (items l [] (by simp)) still⟩
  | some f =>
      have short : l.length ≤ fuel := by omega
      obtain ⟨q'', m'', run, leaves⟩ := state.inQueue.push_pri room short pri absent
      rw [evQueuePush, TelinkSdk.evBufGetHead, run] at returned
      cases returned
      exact ⟨_, state.relink leaves.queued allowed
        (items _ _ (List.takeWhile_append_dropWhile).symm) still⟩

/-- Without an item, and without the buffer of its block. -/
theorem items_erase (state : QueueState layout s held queued free l) (a : EvItem)
    : ((l.erase a).map EvItem.val).Perm
        ((queued.filter fun buffer => buffer.block ≠ a.val).map Buffer.block) := by
  have erased : (l.erase a).map EvItem.val = (l.map EvItem.val).filter (· ≠ a.val) := by
    rw [state.inQueue.chain.nodup.erase_eq_filter, List.filter_map]
    congr 1
    apply List.filter_congr
    intro b _
    rw [Bool.eq_iff_iff]
    simp [EvItem.ext_iff]
  have filtered : (queued.filter fun buffer => buffer.block ≠ a.val).map Buffer.block
      = (queued.map Buffer.block).filter (· ≠ a.val) := by
    rw [List.filter_map]
    rfl
  rw [erased, filtered]
  exact state.items.filter _

theorem delete (state : QueueState layout s held queued free l) {fuel : Nat} (enough : 255 ≤ fuel)
    {item : EvItem} {sts : EvQueueSts} {q' : EvQueue (EvMem layout) EvItem} {m' : EvMem layout}
    (returned : evQueueDelete fuel s.q { item } s.mem = some (sts, q', m'))
    : ∃ l', QueueState layout (s.after q' m') held
        (queued.filter fun buffer => buffer.block ≠ item.val) free l' := by
  have room := state.room
  have short : l.length ≤ fuel := by omega
  have still : ∀ b ∈ queued.filter fun buffer => buffer.block ≠ item.val, b ∈ held := fun b member =>
    state.holds b (List.mem_of_mem_filter member)
  have allowed : CallerWrites layout held s.sys.ram m'.ram := by
    refine state.inQueue.delete_keeps (P := fun m => CallerWrites layout held s.sys.ram m.ram) ?_
      returned (fun _ _ _ _ _ _ _ _ => rfl)
    intro m a p inside before
    exact before.setNext (state.item_held inside) p
  have items := state.items_erase item
  by_cases inside : item ∈ l
  · obtain ⟨q'', m'', run, leaves⟩ := state.inQueue.delete_mem short inside
    rw [evQueueDelete, TelinkSdk.evBufGetHead, run] at returned
    cases returned
    exact ⟨_, state.relink leaves.queued allowed items still⟩
  · have run := state.inQueue.delete_not_mem short inside
    rw [evQueueDelete, TelinkSdk.evBufGetHead, run] at returned
    cases returned
    rw [List.erase_of_not_mem inside] at items
    exact ⟨l, state.relink state.inQueue allowed items still⟩

/-- The first item leaves the queue; nothing is written. -/
theorem pop_cons (state : QueueState layout s held queued free l) {a : EvItem} {rest : List EvItem}
    (first : l = a :: rest)
    : evQueuePop s.q s.mem = (some { item := a }, (evQueuePop s.q s.mem).2)
      ∧ QueueState layout { s with q := (evQueuePop s.q s.mem).2 } held
          (queued.filter fun buffer => buffer.block ≠ a.val) free rest := by
  obtain ⟨popped, leaves⟩ := state.inQueue.pop
  have items := state.items_erase a
  subst first
  rw [List.erase_cons_head] at items
  have returned : (evQueuePop s.q s.mem).1 = some { item := a } :=
    congrArg (Option.map EvPayload.mk) popped
  refine ⟨Prod.ext returned rfl,
    state.relink leaves.queued (fun _ _ _ _ _ _ _ _ => rfl) items ?_⟩
  exact fun b member => state.holds b (List.mem_of_mem_filter member)

/-- An empty queue has no buffers. -/
theorem pop_nil (state : QueueState layout s held queued free l) (none_left : l = [])
    : evQueuePop s.q s.mem = (none, (evQueuePop s.q s.mem).2)
      ∧ queued = []
      ∧ QueueState layout { s with q := (evQueuePop s.q s.mem).2 } held [] free [] := by
  obtain ⟨popped, leaves⟩ := state.inQueue.pop
  have items := state.items
  subst none_left
  have empty : queued = [] := by simpa using items.length_eq.symm
  subst empty
  have returned : (evQueuePop s.q s.mem).1 = none :=
    congrArg (Option.map EvPayload.mk) popped
  exact ⟨Prod.ext returned rfl, rfl,
    state.relink leaves.queued (fun _ _ _ _ _ _ _ _ => rfl) items state.holds⟩

theorem held_nodup (state : QueueState layout s held queued free l) : held.Nodup :=
  state.nodup_held.of_map Buffer.block

theorem held_inj (state : QueueState layout s held queued free l) {left right : Buffer}
    (holdsLeft : left ∈ held) (holdsRight : right ∈ held) (same : left.block = right.block)
    : left = right :=
  List.inj_on_of_nodup_map state.nodup_held holdsLeft holdsRight same

/-- Without the buffer of the first item, and then without those of the others. -/
theorem held_without (state : QueueState layout s held queued free l) (member : buffer ∈ queued)
    : (held.erase buffer).filter
          (fun b => b ∉ queued.filter fun other => other.block ≠ buffer.block)
        = held.filter fun b => b ∉ queued := by
  rw [state.held_nodup.erase_eq_filter, List.filter_filter]
  apply List.filter_congr
  intro b holds
  have here : b.block = buffer.block → b = buffer :=
    state.held_inj holds (state.holds buffer member)
  rw [Bool.eq_iff_iff]
  simp only [List.mem_filter, Bool.and_eq_true, decide_eq_true_eq, bne_iff_ne]
  constructor
  · intro both inside
    exact both.1 ⟨inside, fun same => both.2 (here same)⟩
  · intro outside
    exact ⟨fun inside => outside inside.1, fun same => outside (same ▸ member)⟩

/-- The round that frees the first item. Its link now belongs to the free list of its group, and
the links behind it are still those of the queue.
-/
theorem free_first (state : QueueState layout s held queued free l) {a : EvItem}
    {rest : List EvItem} (first : l = a :: rest)
    : ∃ g < defaultBufferGroupNum, ∃ buffer ∈ queued, ∃ sys', a.val ∈ layout.blocks g
      ∧ buffer.block = a.val
      ∧ evBufFree layout s.sys (a.val + evBufItemData) = some (.bufferSucc, sys')
      ∧ sys'.exceptions = s.sys.exceptions
      ∧ QueueState layout { s with sys := sys', q := (evQueuePop s.q s.mem).2 }
          (held.erase buffer) (queued.filter fun other => other.block ≠ buffer.block)
          (Function.update free g (a.val :: free g)) rest := by
  obtain ⟨buffer, member, same⟩ := state.item (first ▸ List.mem_cons_self)
  have holds := state.holds buffer member
  obtain ⟨g, inside, sys', block, freed, pools, exceptions, word, ram⟩ :=
    state.toPoolState.release_to holds
  obtain ⟨-, popped⟩ := state.pop_cons first
  rw [(state.held_block holds).2, same] at freed
  rw [← same] at popped
  refine ⟨g, inside, buffer, member, sys', same ▸ block, same, freed, exceptions, ?_⟩
  rw [← same]
  have left : ∀ b ∈ queued.filter fun other => other.block ≠ buffer.block,
      b ∈ held.erase buffer := by
    intro b inQueue
    obtain ⟨inQueue, other⟩ := List.mem_filter.mp inQueue
    rw [decide_eq_true_eq] at other
    have different : b ≠ buffer := fun again => other (congrArg Buffer.block again)
    exact (List.mem_erase_of_ne different).mpr (state.holds b inQueue)
  refine popped.keep pools ?_ left s.elsewhere
  intro b inQueue
  obtain ⟨-, other⟩ := List.mem_filter.mp inQueue
  rw [decide_eq_true_eq] at other
  rw [ram]
  exact EvBufLayout.IsBlock.link_kept_first (state.held_block holds).1
    (state.held_block (popped.holds b inQueue)).1 other

/-- The loop frees one item after another, by induction over the items of the queue. -/
theorem free_all (state : QueueState layout s held queued free l) {fuel : Nat}
    (enough : l.length < fuel)
    : ∃ s' free', evQueueFreeQ.loop layout fuel s = some s'
      ∧ QueueState layout s' (held.filter fun b => b ∉ queued) [] free' []
      ∧ s'.sys.exceptions = s.sys.exceptions
      ∧ ∀ g < defaultBufferGroupNum,
        free' g = ((l.map EvItem.val).filter fun a => a ∈ layout.blocks g).reverse ++ free g := by
  obtain ⟨fuel, rfl⟩ : ∃ more, fuel = more + 1 := ⟨fuel - 1, by omega⟩
  induction l generalizing s held queued free fuel with
  | nil =>
      obtain ⟨popped, rfl, after⟩ := state.pop_nil rfl
      refine ⟨{ s with q := (evQueuePop s.q s.mem).2 }, free, ?_, ?_, rfl, fun g _ => rfl⟩
      · rw [evQueueFreeQ.loop, popped]
      · simpa using after
  | cons a rest ih =>
      obtain ⟨h, inH, buffer, member, sys', block, same, freed, exceptions, after⟩ :=
        state.free_first rfl
      obtain ⟨popped, -⟩ := state.pop_cons rfl
      rw [List.length_cons] at enough
      obtain ⟨less, rfl⟩ : ∃ less, fuel = less + 1 := ⟨fuel - 1, by omega⟩
      obtain ⟨s', free', run, last, silent, lists⟩ := ih after less (by omega)
      rw [state.held_without member] at last
      refine ⟨s', free', ?_, last, silent.trans exceptions, ?_⟩
      · rw [evQueueFreeQ.loop, popped]
        simp only [freed]
        exact run
      · intro g inside
        rw [lists g inside, List.map_cons]
        by_cases own : g = h
        · subst own
          rw [Function.update_self, List.filter_cons_of_pos (by simpa using block),
            List.reverse_cons, List.append_assoc, List.singleton_append]
        · have elsewhere : a.val ∉ layout.blocks g := fun again =>
            own (EvBufLayout.block_group inside inH again block)
          rw [Function.update_of_ne own, List.filter_cons_of_neg (by simpa using elsewhere)]

theorem pop (state : QueueState layout s held queued free l)
    : ∃ l', QueueState layout { s with q := (evQueuePop s.q s.mem).2 } held
        (queued.filter fun buffer =>
          (evQueuePop s.q s.mem).1.map (fun payload => payload.item.val) ≠ some buffer.block)
        free l' := by
  cases items : l with
  | nil =>
      obtain ⟨popped, rfl, after⟩ := state.pop_nil items
      exact ⟨[], after⟩
  | cons a rest =>
      obtain ⟨popped, after⟩ := state.pop_cons items
      refine ⟨rest, ?_⟩
      rw [popped]
      simpa [eq_comm] using after

end QueueState

/-- Every state of a run, by induction over the run. -/
theorem EvQueueRun.state {fuel : Nat} {priFunc : Option (EvPriFunc (EvMem layout) EvItem)}
    (run : EvQueueRun layout fuel priFunc s held queued) (enough : 255 ≤ fuel)
    : ∃ free l, QueueState layout s held queued free l := by
  induction run with
  | init sys elsewhere => exact ⟨_, _, .init sys elsewhere priFunc⟩
  | call call _ apart returned ih =>
      obtain ⟨free, l, state⟩ := ih
      obtain ⟨free', after⟩ := state.call apart returned
      exact ⟨free', l, after⟩
  | push buffer item _ holds fresh block returned ih =>
      obtain ⟨free, l, state⟩ := ih
      obtain ⟨l', after⟩ := state.push enough holds fresh block returned
      exact ⟨free, l', after⟩
  | pop _ ih =>
      obtain ⟨free, l, state⟩ := ih
      obtain ⟨l', after⟩ := state.pop
      exact ⟨free, l', after⟩
  | delete item _ returned ih =>
      obtain ⟨free, l, state⟩ := ih
      obtain ⟨l', after⟩ := state.delete enough returned
      exact ⟨free, l', after⟩
  | write ram elsewhere _ allowed links ih =>
      obtain ⟨free, l, state⟩ := ih
      exact ⟨free, l, state.write allowed links elsewhere⟩

/-- In every state of every run, freeing the queue ends with the queue empty. Each of its buffers is
then once in the free list of its group, in front of the blocks that were free before, and counted
there; nothing is reported, and the callers still hold the other buffers.
-/
theorem evQueueFreeQ_returns_all {fuel : Nat} {priFunc : Option (EvPriFunc (EvMem layout) EvItem)}
    (run : EvQueueRun layout fuel priFunc s held queued) (enough : 255 ≤ fuel)
    : ∃ s', evQueueFreeQ layout fuel s = some (.queueSucc, s')
      ∧ s'.q.head = none ∧ s'.q.tail = none ∧ s'.q.curNum = 0
      ∧ s'.sys.exceptions = s.sys.exceptions
      ∧ ∀ g < defaultBufferGroupNum,
        (∃ free returned, ListAt s.sys.ram (s.sys.pools g).freeList free
          ∧ ListAt s'.sys.ram (s'.sys.pools g).freeList (returned ++ free)
          ∧ returned.Perm (layout.heldIn queued g))
        ∧ (s'.sys.bufGroups g).availBufNum
          = (s.sys.bufGroups g).availBufNum + (layout.heldIn queued g).length
        ∧ layout.Shared s'.sys (held.filter fun buffer => buffer ∉ queued) g := by
  obtain ⟨free, l, state⟩ := run.state enough
  have room := state.room
  obtain ⟨s', free', freed, after, silent, lists⟩ := state.free_all (show l.length < fuel by omega)
  have empty := after.inQueue
  have curNum : s'.q.curNum = 0 := UInt32.toNat_inj.mp empty.curNum
  refine ⟨s', ?_, empty.head, empty.tail, curNum, silent, fun g inside => ?_⟩
  · rw [evQueueFreeQ, freed]
    rfl
  have back : (((l.map EvItem.val).filter fun a => a ∈ layout.blocks g).reverse).Perm
      (layout.heldIn queued g) :=
    (List.reverse_perm _).trans (state.items.filter _)
  have listed := after.listed g inside
  rw [lists g inside] at listed
  refine ⟨⟨free g, _, state.listed g inside, listed, back⟩, ?_, after.shared inside⟩
  rw [after.group g inside, state.group g inside, lists g inside, List.length_append,
    back.length_eq, Nat.add_comm]

-----------------------------------------------------------------------------------------
-- A queue of three buffers from two groups
-----------------------------------------------------------------------------------------

/-- Calls made one after another while nothing is queued. -/
theorem EvQueueRun.calls {fuel : Nat} {priFunc : Option (EvPriFunc (EvMem layout) EvItem)}
    {calls : List EvBufCall} (run : EvQueueRun layout fuel priFunc s held [])
    {after : EvBufSys × List Buffer}
    (returned : evBufCalls layout (s.sys, held) calls = some after)
    : EvQueueRun layout fuel priFunc { s with sys := after.1 } after.2 [] := by
  induction calls generalizing s held with
  | nil =>
      cases returned
      exact run
  | cons call rest ih =>
      rw [evBufCalls, List.foldlM_cons] at returned
      obtain ⟨middle, first, others⟩ := Option.bind_eq_some_iff.mp returned
      have called : EvQueueRun layout fuel priFunc { s with sys := middle.1 } middle.2 [] :=
        .call call run (fun _ member => absurd member List.not_mem_nil) first
      have whole := ih called others
      exact whole

namespace QueuedBuffers

def blank : EvBufSys where
  ram := fun _ => 0
  pools := fun _ => { freeList := none }
  bufGroups := fun _ => { qHead := none, size := 0, availBufNum := 0 }
  exceptions := []

def calls : List EvBufCall := [.allocate 10, .allocate 10, .allocate 100, .allocate 10]

theorem allocates : (evBufCalls pagedLayout (evBufInit pagedLayout blank, []) calls).isSome := by
  decide +kernel

def allocated : EvBufSys × List Buffer :=
  (evBufCalls pagedLayout (evBufInit pagedLayout blank, []) calls).get allocates

def idle : EvQueueSys pagedLayout where
  sys := allocated.1
  elsewhere := fun _ => none
  q := evQueueInit none

/-- What `ev_queue_push` leaves when it adds a block. -/
def push (s : EvQueueSys pagedLayout) (item : EvItem) : Option (EvQueueSys pagedLayout) :=
  (evQueuePush 255 s.q { item } s.mem).map fun result => s.after result.2.1 result.2.2

def one : EvQueueSys pagedLayout := (push idle ⟨4120, by decide⟩).get (by decide +kernel)

def two : EvQueueSys pagedLayout := (push one ⟨12288, by decide⟩).get (by decide +kernel)

def three : EvQueueSys pagedLayout := (push two ⟨4096, by decide⟩).get (by decide +kernel)

theorem allocated_held
    : allocated.2 = [{ data := 4152, size := 10 }, { data := 12296, size := 100 },
        { data := 4128, size := 10 }, { data := 4104, size := 10 }] := by
  decide +kernel

theorem run_push {s s' : EvQueueSys pagedLayout} {buffer : Buffer} {item : EvItem}
    (run : EvQueueRun pagedLayout 255 none s allocated.2 queued) (holds : buffer ∈ allocated.2)
    (fresh : buffer ∉ queued) (block : item.val = buffer.block)
    (pushed : push s item = some s')
    : EvQueueRun pagedLayout 255 none s' allocated.2 (buffer :: queued) := by
  obtain ⟨⟨sts, q', m'⟩, returned, rfl⟩ := Option.map_eq_some_iff.mp pushed
  exact run.push buffer item holds fresh block returned

theorem run
    : EvQueueRun pagedLayout 255 none three allocated.2
        [{ data := 4104, size := 10 }, { data := 12296, size := 100 },
          { data := 4128, size := 10 }] := by
  have start : EvQueueRun pagedLayout 255 none idle allocated.2 [] :=
    (EvQueueRun.init blank fun _ => none).calls (Option.some_get allocates).symm
  have first : EvQueueRun pagedLayout 255 none one allocated.2 [{ data := 4128, size := 10 }] :=
    run_push start (by rw [allocated_held]; decide) (by decide) rfl (Option.some_get _).symm
  have second : EvQueueRun pagedLayout 255 none two allocated.2
      [{ data := 12296, size := 100 }, { data := 4128, size := 10 }] :=
    run_push first (by rw [allocated_held]; decide) (by decide) rfl (Option.some_get _).symm
  exact run_push second (by rw [allocated_held]; decide) (by decide) rfl
    (Option.some_get _).symm

end QueuedBuffers

open QueuedBuffers in
/-- Two buffers of the first group and one of the third are queued, a fourth stays held. -/
theorem evQueueFreeQ_returns_all_groups
    : ∃ s', evQueueFreeQ pagedLayout 255 three = some (.queueSucc, s')
      ∧ s'.q.head = none
      ∧ (three.sys.bufGroups 0).availBufNum = 5 ∧ (s'.sys.bufGroups 0).availBufNum = 7
      ∧ (three.sys.bufGroups 2).availBufNum = 15 ∧ (s'.sys.bufGroups 2).availBufNum = 16
      ∧ pagedLayout.Shared s'.sys [{ data := 4152, size := 10 }] 0 := by
  obtain ⟨s', freed, head, -, -, -, groups⟩ := evQueueFreeQ_returns_all run (Nat.le_refl 255)
  have before₀ : (three.sys.bufGroups 0).availBufNum = 5 := by decide +kernel
  have before₂ : (three.sys.bufGroups 2).availBufNum = 15 := by decide +kernel
  have after₀ := (groups 0 (by decide)).2.1
  have after₂ := (groups 2 (by decide)).2.1
  have shared := (groups 0 (by decide)).2.2
  rw [allocated_held] at shared
  rw [before₀] at after₀
  rw [before₂] at after₂
  exact ⟨s', freed, head, before₀, after₀, before₂, after₂, shared⟩

end TelinkSdk.EvBuffer
