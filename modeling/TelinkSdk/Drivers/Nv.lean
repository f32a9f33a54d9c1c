import Mathlib.Algebra.GroupWithZero.Nat
import TelinkSdk.Drivers.NvLayout

/-! The non-volatile item store of `drv_nv.c`.
Routines that only read the array are functions of its contents; the others are programs.
-/

namespace TelinkSdk

open Nor

-----------------------------------------------------------------------------------------
-- Searching
-----------------------------------------------------------------------------------------

/-- The comparison of `nv_index_read` for one index slot. With item id 0xFF the search is
for a slot that is not idle.
-/
def nvIndexRead.hit (itemId : UInt8) (len : Nat) (e : InfoIdx) : Bool :=
  if itemId = itemFieldIdle then
    e.usedState != itemFieldIdle || e.size != 0xffff || e.itemId != itemId
  else
    e.usedState == itemFieldValid && e.size == itemTotalLen len % u16Mod && e.itemId == itemId

/-- The inner loop of `nv_index_read`: the last hit among `count` slots read at `addr`. -/
def nvIndexRead.chunk (m : Mem) (hit : InfoIdx → Bool) (addr : Nat) : Nat → Option Nat
  | 0 => none
  | i + 1 =>
      if hit (InfoIdx.load m (addr + i * sizeofInfoIdx)) then some i
      else nvIndexRead.chunk m hit addr i

/-- The outer loop of `nv_index_read`, from the end of the table, four slots at a time. The
fuel bounds the rounds; each takes at least one slot.
-/
def nvIndexRead.loop (m : Mem) (hit : InfoIdx → Bool)
    : Nat → Nat → Nat → Nat → Option Nat
  | 0, _, _, _ => none
  | fuel + 1, idxTotalNum, idxStartAddr, opItemIdx =>
      if idxTotalNum > 0 then
        let readIdxNum := if idxTotalNum > 4 then 4 else idxTotalNum
        let idxStartAddr := idxStartAddr - readIdxNum * sizeofInfoIdx
        let opItemIdx := opItemIdx - readIdxNum
        match nvIndexRead.chunk m hit idxStartAddr readIdxNum with
        | some i => some (opItemIdx + i)
        | none =>
            nvIndexRead.loop m hit fuel (idxTotalNum - readIdxNum) idxStartAddr opItemIdx
      else none

/-- The index slot that holds an item, or with id 0xFF the last slot in use; `none` stands
for `NV_ITEM_NOT_FOUND`.
-/
def nvIndexRead (b : Build) (m : Mem) (id : Nat) (itemId : UInt8) (len opSect totalItemNum : Nat)
    : Option Nat :=
  nvIndexRead.loop m (nvIndexRead.hit itemId len) totalItemNum totalItemNum
    (moduleIdxStart b id opSect + totalItemNum * sizeofInfoIdx) totalItemNum

/-- The head of the first sector, in address order, that is marked valid for the module. -/
def nvSectorRead (b : Build) (m : Mem) (id sectTotalNum : Nat) : Option SectInfo :=
  (List.range sectTotalNum).findSome? fun i =>
    let s := SectInfo.load m (modulesStartAddr b id + i * nvSectorSize id)
    if s.usedFlag = nvSectorValid ∧ s.idName.toNat = id then some s else none

-----------------------------------------------------------------------------------------
-- Writing one item
-----------------------------------------------------------------------------------------

/-- Where the bytes of an item come from: a RAM buffer, or with `isFlashCopy` the `len`
payload bytes of an item that starts at a flash address.
-/
inductive ItemSource where
  | ram (buf : List UInt8)
  | flash (addr len : Nat)
  deriving DecidableEq, Repr

def ItemSource.len : ItemSource → Nat
  | .ram buf => buf.length
  | .flash _ len => len

/-- The byte sum that guards a payload. At most 65535 bytes are added, so the 32-bit sum of
the source cannot wrap.
-/
def checkSum (buf : List UInt8) : Nat := (buf.map UInt8.toNat).sum

/-- The read-back sum, 16 bytes at a time; the fuel is the number of bytes left. -/
def checkSumRead (m : Mem) : Nat → Nat → Nat → Nat
  | 0, _, _ => 0
  | fuel + 1, payloadAddr, tLen =>
      if tLen > 0 then
        let unitLen := if tLen > 16 then 16 else tLen
        checkSum (m.read payloadAddr unitLen)
          + checkSumRead m fuel (payloadAddr + unitLen) (tLen - unitLen)
      else 0

/-- Copy `toalLen` bytes inside the array through a 48-byte buffer; the fuel is the number
of bytes left.
-/
def nvWriteItem.copy : Nat → Nat → Nat → Nat → Prog Unit
  | 0, _, _, _ => pure ()
  | fuel + 1, toalLen, sAddr, dAddr =>
      if toalLen > 0 then do
        let wLen := if toalLen > 48 then 48 else toalLen
        let pTemp ← Prog.view (fun m => m.read sAddr wLen)
        flashWrite dAddr pTemp
        nvWriteItem.copy fuel (toalLen - wLen) (sAddr + wLen) (dAddr + wLen)
      else pure ()

/-- Ask `ev_buf_allocate` for the copy buffer. -/
def evBufAllocate : Prog Bool := .alloc .done

/-- Write the contents of an item whose index slot is `idxInfo`. -/
def nvWriteItem.content (idxInfo : InfoIdx) : ItemSource → Prog NvSts
  | .flash addr _ => do
      if ← evBufAllocate then
        nvWriteItem.copy idxInfo.size idxInfo.size addr idxInfo.offset
        pure .succ
      else pure .notEnoughSapce
  | .ram buf => do
      let payloadAddr := idxInfo.offset + sizeofItemHdr
      flashWrite payloadAddr buf
      let read ← Prog.view (fun m => checkSumRead m buf.length payloadAddr buf.length)
      if checkSum buf = read then
        flashWrite idxInfo.offset
          (ItemHdr.bytes
            {
              checkSum := checkSum buf
              size := buf.length
              itemId := idxInfo.itemId
              used := itemFieldValid
            })
        pure .succ
      else pure .checkSumError

/-- The start of the next item: the context area for slot 0, else the end of the item in
the slot before, rounded up to four.
-/
def nvWriteItem.offset (b : Build) (id opSect opItemIdx : Nat) (m : Mem) : Nat :=
  if opItemIdx = 0 then moduleContextStart b id opSect
  else
    let idxInfo := InfoIdx.load m
      (moduleIdxStart b id opSect + (opItemIdx - 1) * sizeofInfoIdx)
    roundUp4 (idxInfo.offset + idxInfo.size)

/-- Once the contents are in place, the state byte of the index slot becomes valid. -/
def nvWriteItem.markValid (ret : NvSts) (stateAddr : Nat) : Prog Unit :=
  if ret = .succ then flashWrite stateAddr [itemFieldValid] else pure ()

def nvWriteItem (b : Build) (id : Nat) (itemId : UInt8) (opSect opItemIdx : Nat)
    (source : ItemSource) : Prog NvSts := do
  let idxStartAddr := moduleIdxStart b id opSect
  let offset ← Prog.view (nvWriteItem.offset b id opSect opItemIdx)
  let idxInfo : InfoIdx :=
    {
      offset
      size := itemTotalLen source.len % u16Mod
      itemId
      usedState := itemFieldOperation
    }
  flashUnlock
  flashWrite (idxStartAddr + opItemIdx * sizeofInfoIdx) idxInfo.bytes
  let ret ← nvWriteItem.content idxInfo source
  nvWriteItem.markValid ret (idxStartAddr + opItemIdx * sizeofInfoIdx + 7)
  flashLock
  pure ret

-----------------------------------------------------------------------------------------
-- Reading and deleting one item
-----------------------------------------------------------------------------------------

/-- The payload of the item in an index slot; `none` stands for `NV_ITEM_NOT_FOUND`. -/
def nvFlashReadByIndex (b : Build) (m : Mem) (id : Nat) (itemId : UInt8) (opSect opIdx len : Nat)
    : Option (List UInt8) :=
  let idx := InfoIdx.load m (moduleIdxStart b id opSect + opIdx * sizeofInfoIdx)
  if idx.usedState ≠ itemFieldValid then none
  else
    let hdr := ItemHdr.load m idx.offset
    if hdr.size = len ∧ hdr.used = itemFieldValid ∧ hdr.itemId = itemId then
      some (m.read (idx.offset + sizeofItemHdr) len)
    else none

def nvItemDeleteByIndex (b : Build) (id opSect opIdx : Nat) : Prog NvSts := do
  flashUnlock
  flashWrite (moduleIdxStart b id opSect + opIdx * sizeofInfoIdx + 7) [itemFieldInvalid]
  flashLock
  pure .succ

/-- `nv_flashReadNew` with `single` set: the payload stored for an item, `none` standing for
`NV_ITEM_NOT_FOUND`, the only other status.
-/
def nvFlashReadNew (b : Build) (m : Mem) (id : Nat) (itemId : UInt8) (len : Nat)
    : Option (List UInt8) :=
  match nvSectorRead b m id moduleSectorNum with
  | none => none
  | some sectInfo =>
      match nvIndexRead b m id itemId len sectInfo.opSect.toNat (moduleIdxNum id) with
      | none => none
      | some opIdx => nvFlashReadByIndex b m id itemId sectInfo.opSect.toNat opIdx len

/-- `nv_flashReadNew` with `single` clear: the slot and the sector of an item. -/
def nvFlashReadNewIndex (b : Build) (m : Mem) (id : Nat) (itemId : UInt8) (len : Nat)
    : Option (Nat × Nat) :=
  match nvSectorRead b m id moduleSectorNum with
  | none => none
  | some sectInfo =>
      (nvIndexRead b m id itemId len sectInfo.opSect.toNat (moduleIdxNum id)).map
        fun opIdx => (opIdx, sectInfo.opSect.toNat)

-----------------------------------------------------------------------------------------
-- Writing an item of a module
-----------------------------------------------------------------------------------------

/-- Where `nv_flashWriteNew` is about to write. -/
structure NvPlace where
  opSect : Nat
  wItemIdx : Nat
  sectorUpdate : Bool
  deriving DecidableEq, Repr

/-- The sector in operation: the one marked valid, else sector 0. -/
def nvOpSect (b : Build) (m : Mem) (id : Nat) : Nat :=
  match nvSectorRead b m id moduleSectorNum with
  | none => 0
  | some sectInfo => sectInfo.opSect.toNat

/-- The search for a free place: after the last slot in use, unless the index table or the
sector is full.
-/
def nvFlashWriteNew.place (b : Build) (m : Mem) (id len : Nat) : NvPlace :=
  let opSect := nvOpSect b m id
  let idxTotalNum := moduleIdxNum id
  match nvIndexRead b m id itemFieldIdle len opSect idxTotalNum with
  | none => { opSect, wItemIdx := 0, sectorUpdate := false }
  | some wItemIdx =>
      let idxInfo := InfoIdx.load m (moduleIdxStart b id opSect + wItemIdx * sizeofInfoIdx)
      if wItemIdx = idxTotalNum - 1
          ∨ (idxInfo.offset + idxInfo.size + itemTotalLen len) % u32Mod
            > moduleSectEnd b id opSect then
        { opSect, wItemIdx, sectorUpdate := true }
      else
        { opSect, wItemIdx := wItemIdx + 1, sectorUpdate := false }

/-- Erase `count` flash sectors from `eraseAddr` on. -/
def flashEraseSectors : Nat → Nat → Prog Unit
  | 0, _ => pure ()
  | count + 1, eraseAddr => do
      flashErase eraseAddr
      flashEraseSectors count (eraseAddr + flashSectorSize)

/-- The progress of copying valid items to a new sector: the next slot and the next free
address.
-/
structure NvCopied where
  wItemIdx : Nat
  sizeusedAddr : Nat
  deriving DecidableEq, Repr

/-- An index slot whose item moves to the new sector when item `itemId` is written. -/
def nvFlashWriteNew.keeps (single : Bool) (itemId : UInt8) (e : InfoIdx) : Bool :=
  e.usedState == itemFieldValid && (e.itemId != itemId || (e.itemId == itemId && !single))

/-- Copy the kept items among `readIdxNum` slots that were read together; the slots are
given as a list. An item that cannot be copied ends the loop with its status.
-/
def nvFlashWriteNew.copyRead (b : Build) (single : Bool) (id : Nat) (itemId : UInt8)
    (opSect : Nat) : List InfoIdx → NvCopied → Prog (Except NvSts NvCopied)
  | [], copied => pure (.ok copied)
  | e :: rest, copied =>
      if nvFlashWriteNew.keeps single itemId e then do
        let ret ← nvWriteItem b id e.itemId opSect copied.wItemIdx
          (.flash e.offset ((e.size + u16Mod - sizeofItemHdr) % u16Mod))
        if ret = .succ then
          nvFlashWriteNew.copyRead b single id itemId opSect rest
            {
              wItemIdx := copied.wItemIdx + 1
              sizeusedAddr := roundUp4 (copied.sizeusedAddr + e.size)
            }
        else pure (.error ret)
      else nvFlashWriteNew.copyRead b single id itemId opSect rest copied

/-- Read `count` index slots from `addr` on. -/
def readIndexes (m : Mem) (addr count : Nat) : List InfoIdx :=
  (List.range count).map fun i => InfoIdx.load m (addr + i * sizeofInfoIdx)

/-- The loop over the old sector's index table, four slots at a time. The fuel bounds the
rounds; each takes at least one slot.
-/
def nvFlashWriteNew.copyLive (b : Build) (single : Bool) (id : Nat) (itemId : UInt8)
    (opSect : Nat) : Nat → Nat → Nat → NvCopied → Prog (Except NvSts NvCopied)
  | 0, _, _, copied => pure (.ok copied)
  | fuel + 1, idxTotalNum, idxStartAddr, copied =>
      if idxTotalNum > 0 then do
        let readIdxNum := if idxTotalNum > 4 then 4 else idxTotalNum
        let idxInfo ← Prog.view (fun m => readIndexes m idxStartAddr readIdxNum)
        match ← nvFlashWriteNew.copyRead b single id itemId opSect idxInfo copied with
        | .ok copied =>
            nvFlashWriteNew.copyLive b single id itemId opSect fuel (idxTotalNum - readIdxNum)
              (idxStartAddr + readIdxNum * sizeofInfoIdx) copied
        | .error ret => pure (.error ret)
      else pure (.ok copied)

/-- Prepare the other sector: erase it and copy the valid items. The result is the slot for
the new item.
-/
def nvFlashWriteNew.update (b : Build) (single : Bool) (id : Nat) (itemId : UInt8)
    (len oldSect opSect : Nat) : Prog (Except NvSts Nat) := do
  flashEraseSectors (nvSectorSize id / flashSectorSize)
    (modulesStartAddr b id + opSect * nvSectorSize id)
  match ← nvFlashWriteNew.copyLive b single id itemId opSect (moduleIdxNum id)
      (moduleIdxNum id) (moduleIdxStart b id oldSect)
      { wItemIdx := 0, sizeusedAddr := moduleContextStart b id opSect } with
  | .error ret => pure (.error ret)
  | .ok copied =>
      if copied.wItemIdx = moduleIdxNum id
          ∨ (copied.sizeusedAddr + itemTotalLen len) % u32Mod > moduleSectEnd b id opSect then
        pure (.error .notEnoughSapce)
      else pure (.ok copied.wItemIdx)

/-- Mark the slot of the previous value invalid, if there is one. -/
def nvFlashWriteNew.markDeleted (b : Build) (id opSect : Nat) : Option Nat → Prog Unit
  | none => pure ()
  | some deleteIdx =>
      flashWrite (moduleIdxStart b id opSect + deleteIdx * sizeofInfoIdx + 7) [itemFieldInvalid]

/-- Write the head of sector `sectNo`; the head names `opSect` as the sector in operation. -/
def nvFlashWriteNew.markSector (b : Build) (id sectNo usedFlag opSect : Nat) : Prog Unit :=
  flashWrite (moduleSectStart b id sectNo)
    (SectInfo.bytes { usedFlag, idName := .ofNat id, opSect := .ofNat opSect })

/-- Set the sector flags after a successful write: the old sector goes out of operation
before the new one goes in, and the first item of a sector puts it in operation.
-/
def nvFlashWriteNew.markSectors (b : Build) (id oldSect opSect wItemIdx : Nat)
    (sectorUpdate : Bool) (ret : NvSts) : Prog Unit :=
  if ret = .succ then
    if sectorUpdate then do
      nvFlashWriteNew.markSector b id oldSect nvSectorInvalid opSect
      nvFlashWriteNew.markSector b id opSect nvSectorValid opSect
    else if wItemIdx = 0 then nvFlashWriteNew.markSector b id opSect nvSectorValid opSect
    else pure ()
  else pure ()

/-- Write the new item, mark the slot of its previous value and set the sector flags. -/
def nvFlashWriteNew.commit (b : Build) (single : Bool) (id : Nat) (itemId : UInt8)
    (buf : List UInt8) (oldSect opSect wItemIdx : Nat) (sectorUpdate : Bool) : Prog NvSts := do
  let deleteIdx ← Prog.view fun m =>
    if single then nvIndexRead b m id itemId buf.length opSect (moduleIdxNum id) else none
  let ret ← nvWriteItem b id itemId opSect wItemIdx (.ram buf)
  nvFlashWriteNew.markDeleted b id opSect deleteIdx
  nvFlashWriteNew.markSectors b id oldSect opSect wItemIdx sectorUpdate ret
  flashLock
  pure ret

def nvFlashWriteNew (b : Build) (single : Bool) (id : Nat) (itemId : UInt8) (buf : List UInt8)
    : Prog NvSts := do
  if nvSectorSize id < itemTotalLen buf.length + moduleInfoSize id then
    pure .notEnoughSapce
  else do
    let place ← Prog.view (fun m => nvFlashWriteNew.place b m id buf.length)
    flashUnlock
    if place.sectorUpdate then do
      let opSect := (place.opSect + 1) % moduleSectorNum
      match ← nvFlashWriteNew.update b single id itemId buf.length place.opSect opSect with
      | .error ret => do
          flashLock
          pure ret
      | .ok wItemIdx =>
          nvFlashWriteNew.commit b single id itemId buf place.opSect opSect wItemIdx true
    else
      nvFlashWriteNew.commit b single id itemId buf place.opSect place.opSect place.wItemIdx false

end TelinkSdk
