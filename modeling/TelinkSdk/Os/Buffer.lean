import Mathlib.Logic.Function.Basic
import TelinkSdk.Common.Mempool

/-! The event buffers. Requests are served from four groups of equal blocks, each with its own
pool and its own counter of free blocks. The first word of a block links it into a free list or
into a queue, and the second word names the group it goes back to.
-/

namespace TelinkSdk.EvBuffer

open Links LinkView

abbrev defaultBufferGroupNum : Nat := 4

/-- `BUFFER_GROUP_0` to `BUFFER_GROUP_3`, the item size of each group. -/
def bufferGroup (group : Nat) : Nat := [24, 60, 200, 1024].getD group 0

/-- `BUFFER_NUM_IN_GROUP0` to `BUFFER_NUM_IN_GROUP3`. -/
def bufferNumInGroup (group : Nat) : Nat := [8, 12, 16, 1].getD group 0

abbrev maxBufferSize : Nat := 1024

/-- The offset of `groupIndex` in `ev_bufItem_t`, behind the link. -/
abbrev evBufItemGroupIndex : Nat := 4

/-- The offset of `data` in `ev_bufItem_t`, behind the link and the group. -/
abbrev evBufItemData : Nat := 8

/-- The distance between two blocks of a group. -/
def bufferBlockSize (group : Nat) : Nat := mempoolItemsize2Blocksize (bufferGroup group)

/-- Where the arrays `size_0_mem` to `size_3_mem` lie. They are four objects of one program, so
none is at address zero, none reaches the end of the address space and no two overlap.
-/
structure EvBufLayout where
  mem : Nat → Nat
  positive : ∀ g < defaultBufferGroupNum, 0 < mem g
  bounded : ∀ g < defaultBufferGroupNum,
    mem g + bufferBlockSize g * bufferNumInGroup g < 4294967296
  apart : ∀ g < defaultBufferGroupNum, ∀ h < defaultBufferGroupNum, g ≠ h →
    mem g + bufferBlockSize g * bufferNumInGroup g ≤ mem h
    ∨ mem h + bufferBlockSize h * bufferNumInGroup h ≤ mem g

/-- `ev_buf_groups_t`; `qHead` names the pool it points to. -/
structure EvBufGroup where
  qHead : Option Nat
  size : Nat
  availBufNum : Nat

inductive SysException where
  | evBufferExceptionFreeOverflow
  | evBufferExceptionFreeMulti
deriving DecidableEq

/-- The memory, the pools `size_0_pool` to `size_3_pool`, the groups of `ev_buf_vs`, and the
exceptions posted so far.
-/
structure EvBufSys where
  ram : Ram
  pools : Nat → MemPool
  bufGroups : Nat → EvBufGroup
  exceptions : List SysException

inductive BufSts where
  | bufferSucc
  | bufferInvalidParameter
  | bufferDuplicateFree
deriving DecidableEq

/-- The body of the loop of `ev_buf_reset`. -/
def evBufResetGroup (layout : EvBufLayout) (sys : EvBufSys) (i : Nat) : EvBufSys :=
  match mempoolInit sys.ram (layout.mem i) (bufferGroup i) (bufferNumInGroup i) with
  | some (ram, pool) =>
      { sys with
        ram := ram
        pools := Function.update sys.pools i pool
        bufGroups := Function.update sys.bufGroups i
          { qHead := some i, size := bufferGroup i, availBufNum := bufferNumInGroup i } }
  | none =>
      { sys with
        bufGroups := Function.update sys.bufGroups i
          { qHead := none, size := bufferGroup i, availBufNum := bufferNumInGroup i } }

/-- The first `count` rounds of the loop of `ev_buf_reset`. -/
def evBufResetGroups (layout : EvBufLayout) (sys : EvBufSys) : Nat → EvBufSys
  | 0 => sys
  | count + 1 => evBufResetGroup layout (evBufResetGroups layout sys count) count

def evBufReset (layout : EvBufLayout) (sys : EvBufSys) : EvBufSys :=
  evBufResetGroups layout
    { sys with bufGroups := fun _ => { qHead := none, size := 0, availBufNum := 0 } }
    defaultBufferGroupNum

def evBufInit (layout : EvBufLayout) (sys : EvBufSys) : EvBufSys := evBufReset layout sys

/-- The test in the loop of `ev_buf_allocate`. The offset is unsigned, and so is the difference. -/
def evBufFits (sys : EvBufSys) (size : UInt16) (i : Nat) : Bool :=
  decide (size.toNat ≤ ((sys.bufGroups i).size + 4294967296 - evBufItemData) % 4294967296)
  && (sys.bufGroups i).availBufNum != 0

/-- `ev_buf_allocate`. There is no result when a null pool would be followed. -/
def evBufAllocate (sys : EvBufSys) (size : UInt16) : Option (Option Nat × EvBufSys) :=
  if size.toNat = 0 ∨ maxBufferSize < size.toNat then
    some (none, sys)
  else
    match (List.range defaultBufferGroupNum).find? (evBufFits sys size) with
    | none => some (none, sys)
    | some index =>
        let group := sys.bufGroups index
        if group.availBufNum = 0 then
          some (none, sys)
        else
          match group.qHead with
          | none => none
          | some poolIndex =>
              match mempoolAlloc sys.ram (sys.pools poolIndex) with
              | (none, _) => some (none, sys)
              | (some temp, pool) =>
                  let pNewBuf := temp - 4
                  some (some (pNewBuf + evBufItemData),
                    { sys with
                      ram := sys.ram.store32 (pNewBuf + evBufItemGroupIndex) index
                      pools := Function.update sys.pools poolIndex pool
                      bufGroups := Function.update sys.bufGroups index
                        { group with availBufNum := (group.availBufNum + 255) % 256 } })

def longEvBufGet (sys : EvBufSys) : Option (Option Nat × EvBufSys) :=
  evBufAllocate sys (.ofNat maxBufferSize)

/-- `ev_buf_isExisted`. There is no result for a group that does not exist, nor when the walk
goes on for ever: with more steps than addresses it has come back to a block.
-/
def evBufIsExisted (sys : EvBufSys) (index block : Nat) : Option Bool :=
  if index < defaultBufferGroupNum then
    match (sys.bufGroups index).qHead with
    | none => none
    | some poolIndex =>
        (walkUntil sys.ram (· == block) 4294967296 none (sys.pools poolIndex).freeList).map
          (fun stopped => stopped.2.isSome)
  else
    none

/-- `is_ev_buf`, for an address. -/
def isEvBuf (layout : EvBufLayout) (arg : Nat) : Bool :=
  (List.range defaultBufferGroupNum).any (fun g =>
    decide (layout.mem g ≤ arg)
    && decide (arg ≤ layout.mem g + bufferBlockSize g * bufferNumInGroup g))

/-- `ev_buf_getHead`, for an address. -/
def evBufGetHead (pd : Nat) : Nat := pd - evBufItemData

def evBufRetrieveMempoolHeader (pd : Nat) : Nat := pd - (evBufItemData - memBlockData)

/-- `ZB_EXCEPTION_POST`; what the registered callback does is not part of the pool. -/
def EvBufSys.exceptionPost (sys : EvBufSys) (evt : SysException) : EvBufSys :=
  { sys with exceptions := sys.exceptions ++ [evt] }

/-- The part of `ev_buf_free` behind the test for a repeated release. The group is read again
after the pool has stored its link.
-/
def evBufRelease (sys : EvBufSys) (pBuf : Nat) : Option (BufSts × EvBufSys) :=
  let pDelBuf := evBufGetHead pBuf
  let index := sys.ram.le32 (pDelBuf + evBufItemGroupIndex)
  if index < defaultBufferGroupNum then
    match (sys.bufGroups index).qHead with
    | none => none
    | some poolIndex =>
        let (ram, pool) :=
          mempoolFree sys.ram (sys.pools poolIndex) (evBufRetrieveMempoolHeader pBuf)
        let counted := ram.le32 (pDelBuf + evBufItemGroupIndex)
        let group := sys.bufGroups counted
        some (.bufferSucc,
          { sys with
            ram := ram
            pools := Function.update sys.pools poolIndex pool
            bufGroups := Function.update sys.bufGroups counted
              { group with availBufNum := (group.availBufNum + 1) % 256 } })
  else
    none

/-- `ev_buf_free`. A pointer that is not into the pools is reported and then treated like any
other; the group handed to `ev_buf_isExisted` is cut to a byte.
-/
def evBufFree (layout : EvBufLayout) (sys : EvBufSys) (pBuf : Nat)
    : Option (BufSts × EvBufSys) :=
  let sys := if isEvBuf layout pBuf then sys else sys.exceptionPost .evBufferExceptionFreeOverflow
  let pDelBuf := evBufGetHead pBuf
  let index := sys.ram.le32 (pDelBuf + evBufItemGroupIndex)
  match evBufIsExisted sys (index % 256) pDelBuf with
  | none => none
  | some true => some (.bufferDuplicateFree, sys.exceptionPost .evBufferExceptionFreeMulti)
  | some false => evBufRelease sys pBuf

/-- The body of the loop of `ev_buf_getFreeMaxSize`. The difference is unsigned, and `size` takes
its low 16 bits.
-/
def evBufGetFreeMaxSize.round (sys : EvBufSys) (size i : Nat) : Nat :=
  if (sys.bufGroups i).availBufNum ≠ 0 then
    if ((sys.bufGroups i).size + 4294967296 - evBufItemData) % 4294967296 > size then
      ((sys.bufGroups i).size + 4294967296 - evBufItemData) % 4294967296 % 65536
    else size
  else size

def evBufGetFreeMaxSize (sys : EvBufSys) : Nat :=
  (List.range defaultBufferGroupNum).foldl (evBufGetFreeMaxSize.round sys) 0

/-- The table in `ev_buf_getTail`, which names three sizes for its four entries. -/
def evBufGetTail.size : List Nat := [bufferGroup 0, bufferGroup 1, bufferGroup 2, 0]

/-- The assertion of `ev_buf_getTail`. -/
def evBufGetTail.asserted (ram : Ram) (pd : Nat) : Bool := decide (ram.le32 (pd - 4) < 3)

/-- `ev_buf_getTail`, with or without `ASSERT_DEBUG_MODE`. There is no result when a failed
assertion stops the program, nor for an index behind the table.
-/
def evBufGetTail (assertDebugMode : Bool) (ram : Ram) (pd : Nat) (offsetToTail : Int)
    : Option Nat :=
  if assertDebugMode && !evBufGetTail.asserted ram pd then none
  else
    evBufGetTail.size[ram.le32 (pd - 4)]?.map fun (size : Nat) =>
      ((pd - 8 + size - offsetToTail) % 4294967296).toNat

/-- `get_ev_buf_size`, for an address. -/
def getEvBufSize (layout : EvBufLayout) (arg : Nat) : Nat :=
  if layout.mem 0 ≤ arg ∧ arg ≤ layout.mem 0 + bufferBlockSize 0 * bufferNumInGroup 0 then
    bufferGroup 0 - evBufItemData
  else if layout.mem 1 ≤ arg ∧ arg ≤ layout.mem 1 + bufferBlockSize 1 * bufferNumInGroup 1 then
    bufferGroup 1 - evBufItemData
  else if layout.mem 2 ≤ arg ∧ arg ≤ layout.mem 2 + bufferBlockSize 2 * bufferNumInGroup 2 then
    bufferGroup 2 - evBufItemData
  else if layout.mem 3 ≤ arg ∧ arg ≤ layout.mem 3 + bufferBlockSize 3 * bufferNumInGroup 3 then
    bufferGroup 3 - evBufItemData
  else 0

end TelinkSdk.EvBuffer
