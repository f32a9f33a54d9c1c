import TelinkSdk.Drivers.Flash

/-! The address map and the stored records of `drv_nv.h`. -/

namespace TelinkSdk

open Nor

/-- The build switches the address map depends on. -/
structure Build where
  flashCapSize1M : Bool
  bootLoaderMode : Bool
  deriving DecidableEq, Repr

def nvBaseAddress (b : Build) : Nat :=
  match b.bootLoaderMode, b.flashCapSize1M with
  | false, true => 0x80000
  | false, false => 0x34000
  | true, true => 0xE6000
  | true, false => 0x6A000

def nvBaseAddress2 : Nat := 0x7A000

def cfgFactoryRstCnt (b : Build) : Nat := if b.flashCapSize1M then 0xFC000 else 0x79000

-- nv_module_t
def nvModuleMacInfo : Nat := 0
def nvModuleNwkFrameCount : Nat := 1
def nvModuleUserInfo1 : Nat := 2
def nvModuleUserInfo2 : Nat := 3
abbrev nvMaxModuls : Nat := 4

/-- The status codes `nv_sts_t`, under the source's spelling. -/
inductive NvSts where
  | succ
  | invalidModuls
  | invalidId
  | itemNotFound
  | notEnoughSapce
  | itemLenNotMatch
  | checkSumError
  | enableProtectError
  | noMedia
  deriving DecidableEq, Repr

def nvSectorValid : Nat := 0x5A5A
def nvSectorInvalid : Nat := 0x5050

def itemFieldValid : UInt8 := 0x5A
def itemFieldInvalid : UInt8 := 0x50
def itemFieldOperation : UInt8 := 0xFA
def itemFieldIdle : UInt8 := 0xFF

def modulesStartAddr (b : Build) (id : Nat) : Nat :=
  if b.flashCapSize1M then nvBaseAddress b + flashSectorSize * (2 * id)
  else if id < 6 then nvBaseAddress b + flashSectorSize * (2 * id)
  else nvBaseAddress2 + flashSectorSize * (2 * (id - 6))

def nvSectorSize (id : Nat) : Nat :=
  if id = nvModuleUserInfo1 then 4 * flashSectorSize else flashSectorSize

def moduleInfoSize (id : Nat) : Nat :=
  if id = nvModuleUserInfo1 then 4 * flashPageSize else 2 * flashPageSize

abbrev moduleSectorNum : Nat := 2

abbrev sizeofSectInfo : Nat := 4
abbrev sizeofInfoIdx : Nat := 8
abbrev sizeofItemHdr : Nat := 8

def moduleIdxSize (id : Nat) : Nat := moduleInfoSize id - sizeofSectInfo

def moduleSectStart (b : Build) (id sectNo : Nat) : Nat :=
  modulesStartAddr b id + sectNo * nvSectorSize id

def moduleSectEnd (b : Build) (id sectNo : Nat) : Nat :=
  modulesStartAddr b id + (sectNo + 1) * nvSectorSize id

def moduleIdxStart (b : Build) (id sectNo : Nat) : Nat :=
  moduleSectStart b id sectNo + sizeofSectInfo

def moduleIdxNum (id : Nat) : Nat := moduleIdxSize id / sizeofInfoIdx

def moduleContextStart (b : Build) (id sectNo : Nat) : Nat :=
  moduleSectStart b id sectNo + moduleInfoSize id

def itemTotalLen (len : Nat) : Nat := len + sizeofItemHdr

/-- Round a 32-bit address up to a multiple of four: `(x + 3) & ~3`. -/
def roundUp4 (x : Nat) : Nat := (x + 3) % u32Mod / 4 * 4

def framecountPayloadStart (b : Build) (opSect : Nat) : Nat :=
  roundUp4 (moduleSectStart b nvModuleNwkFrameCount opSect + sizeofSectInfo)

def framecountNumPerSect : Nat := (flashSectorSize - sizeofSectInfo) / 4 * 4 / 4

-----------------------------------------------------------------------------------------
-- Stored records
-----------------------------------------------------------------------------------------

/-- The head of a sector, `nv_sect_info_t`. -/
structure SectInfo where
  usedFlag : Nat
  idName : UInt8
  opSect : UInt8
  deriving DecidableEq, Repr

def SectInfo.load (m : Mem) (addr : Nat) : SectInfo :=
  { usedFlag := m.le16 addr, idName := m (addr + 2), opSect := m (addr + 3) }

def SectInfo.bytes (s : SectInfo) : List UInt8 := bytes16 s.usedFlag ++ [s.idName, s.opSect]

/-- One slot of a sector's index table, `nv_info_idx_t`. -/
structure InfoIdx where
  offset : Nat
  size : Nat
  itemId : UInt8
  usedState : UInt8
  deriving DecidableEq, Repr

def InfoIdx.load (m : Mem) (addr : Nat) : InfoIdx :=
  {
    offset := m.le32 addr
    size := m.le16 (addr + 4)
    itemId := m (addr + 6)
    usedState := m (addr + 7)
  }

def InfoIdx.bytes (e : InfoIdx) : List UInt8 :=
  bytes32 e.offset ++ bytes16 e.size ++ [e.itemId, e.usedState]

/-- The head of a stored item, `itemHdr_t`. -/
structure ItemHdr where
  checkSum : Nat
  size : Nat
  itemId : UInt8
  used : UInt8
  deriving DecidableEq, Repr

def ItemHdr.load (m : Mem) (addr : Nat) : ItemHdr :=
  {
    checkSum := m.le32 addr
    size := m.le16 (addr + 4)
    itemId := m (addr + 6)
    used := m (addr + 7)
  }

def ItemHdr.bytes (h : ItemHdr) : List UInt8 :=
  bytes32 h.checkSum ++ bytes16 h.size ++ [h.itemId, h.used]

end TelinkSdk
