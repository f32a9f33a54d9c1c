import TelinkSdk.Nor.Memory
import TelinkSdk.Layout.Struct
import TelinkSdk.Mac.TnList

/-! The PAN information base of the MAC, `mac_pib.c`. The attributes are the bytes of one C
structure; a table gives the place and the length of each attr.
-/

namespace TelinkSdk

open Nor

-----------------------------------------------------------------------------------------
-- The structure
-----------------------------------------------------------------------------------------

/-- The members of `tl_zb_mac_pib_t`. -/
inductive PibField where
  | beaconTxTime | coordExtAddress | extAddress | ackWaitDuration | coordShortAddress | panId
  | shortAddress | superframeOrder | transactionPersistenceTime | frameTotalWaitTime
  | syncSymbolOffset | beaconPayload | beaconPayloadLen | associationPermit | associatedPanCoord
  | autoReq | battLifeExt | battLifeExtPeriods | beaconOrder | beaconSeqNum | seqNum
  | frameRetryNum | respWaitTime | maxCsmaBackoffs | promiscuousMode | timeStampSupported
  | securityEnabled | gtsPermit | minBe | maxBe | phyPageCur | phyChannelCur | rxOnWhenIdle
  | txPower | resv | keyTable | devTable | secLvlTable | keyTableEntries | devTableEntries
  | secLvlTableEntries | autoReqSecLvl | frameCounter | autoReqKeySource | autoReqKeyIdMode
  | autoReqKeyIndex | panCoordShortAddr | defaultKeySource | panCoordExtAddr
  deriving DecidableEq, Repr

/-- The members in their order, with their sizes. Every member that needs an alignment has it
without padding.
-/
def pibStruct : List (PibField × Nat) :=
  [
    (.beaconTxTime, 4), (.coordExtAddress, 8), (.extAddress, 8), (.ackWaitDuration, 2),
    (.coordShortAddress, 2), (.panId, 2), (.shortAddress, 2), (.superframeOrder, 2),
    (.transactionPersistenceTime, 2), (.frameTotalWaitTime, 2), (.syncSymbolOffset, 2),
    (.beaconPayload, 15), (.beaconPayloadLen, 1), (.associationPermit, 1),
    (.associatedPanCoord, 1), (.autoReq, 1), (.battLifeExt, 1), (.battLifeExtPeriods, 1),
    (.beaconOrder, 1), (.beaconSeqNum, 1), (.seqNum, 1), (.frameRetryNum, 1), (.respWaitTime, 1),
    (.maxCsmaBackoffs, 1), (.promiscuousMode, 1), (.timeStampSupported, 1), (.securityEnabled, 1),
    (.gtsPermit, 1), (.minBe, 1), (.maxBe, 1), (.phyPageCur, 1), (.phyChannelCur, 1),
    (.rxOnWhenIdle, 1), (.txPower, 1), (.resv, 3), (.keyTable, 4), (.devTable, 4),
    (.secLvlTable, 4), (.keyTableEntries, 1), (.devTableEntries, 1), (.secLvlTableEntries, 1),
    (.autoReqSecLvl, 1), (.frameCounter, 4), (.autoReqKeySource, 8), (.autoReqKeyIdMode, 1),
    (.autoReqKeyIndex, 1), (.panCoordShortAddr, 2), (.defaultKeySource, 8), (.panCoordExtAddr, 8)
  ]

/-- `OFFSETOF(tl_zb_mac_pib_t, field)`. -/
def PibField.offset (field : PibField) : Nat := Layout.offsetOf pibStruct field

/-- `sizeof(tl_zb_mac_pib_t)`. -/
def sizeofMacPib : Nat := Layout.sizeOf pibStruct

/-- `mac_pibTbl_t`: the member of an entry stands for its offset. No function reads the bounds
of an entry.
-/
structure MacPibTbl where
  field : PibField
  len : Nat
  deriving DecidableEq, Repr

def MacPibTbl.offset (entry : MacPibTbl) : Nat := entry.field.offset

/-- `g_zbMacPibTbl`. -/
def zbMacPibTbl : List MacPibTbl :=
  [
    ⟨.ackWaitDuration, 1⟩, ⟨.associationPermit, 1⟩, ⟨.autoReq, 1⟩, ⟨.battLifeExt, 1⟩,
    ⟨.battLifeExtPeriods, 1⟩, ⟨.beaconPayload, 15⟩, ⟨.beaconPayloadLen, 1⟩, ⟨.beaconOrder, 1⟩,
    ⟨.beaconTxTime, 4⟩, ⟨.beaconSeqNum, 1⟩, ⟨.coordExtAddress, 8⟩, ⟨.coordShortAddress, 2⟩,
    ⟨.seqNum, 1⟩, ⟨.gtsPermit, 1⟩, ⟨.maxCsmaBackoffs, 1⟩, ⟨.minBe, 1⟩, ⟨.panId, 2⟩,
    ⟨.promiscuousMode, 1⟩, ⟨.rxOnWhenIdle, 1⟩, ⟨.shortAddress, 2⟩, ⟨.superframeOrder, 1⟩,
    ⟨.transactionPersistenceTime, 2⟩, ⟨.associatedPanCoord, 1⟩, ⟨.maxBe, 1⟩,
    ⟨.frameTotalWaitTime, 2⟩, ⟨.frameRetryNum, 1⟩, ⟨.respWaitTime, 1⟩, ⟨.syncSymbolOffset, 1⟩,
    ⟨.timeStampSupported, 1⟩, ⟨.securityEnabled, 1⟩, ⟨.extAddress, 8⟩, ⟨.txPower, 1⟩,
    -- security related attributes
    ⟨.keyTable, 4⟩, ⟨.keyTableEntries, 1⟩, ⟨.devTable, 4⟩, ⟨.devTableEntries, 1⟩,
    ⟨.secLvlTable, 4⟩, ⟨.secLvlTableEntries, 1⟩, ⟨.frameCounter, 4⟩, ⟨.autoReqSecLvl, 1⟩,
    ⟨.autoReqKeyIdMode, 1⟩, ⟨.autoReqKeySource, 8⟩, ⟨.autoReqKeyIndex, 1⟩,
    ⟨.defaultKeySource, 8⟩, ⟨.panCoordExtAddr, 8⟩, ⟨.panCoordShortAddr, 2⟩
  ]

-- the sizes of the security tables in tl_zb_mac_pib.h
abbrev macDevTableMaxLen : Nat := 16
abbrev macKeyTableMaxLen : Nat := 16
abbrev macSecLvlTableMaxLen : Nat := 6

-- attribute identifiers of tl_zb_mac.h
abbrev macPhyAttrCurrentChannel : UInt8 := 0x00
abbrev macPhyAttrModeCca : UInt8 := 0x03
abbrev macPhyAttrCurrentPage : UInt8 := 0x04
abbrev macPibAttributeStart : UInt8 := 0x40
abbrev macAttrBeaconPayload : UInt8 := 0x45
abbrev macAttrBeaconPayloadLength : UInt8 := 0x46
abbrev macConstExtAddr : UInt8 := 0x5E
abbrev macTxPower : UInt8 := 0x5F
abbrev macKeyTable : UInt8 := 0x71
abbrev macDeviceTable : UInt8 := 0x73
abbrev macSecurityLevelTable : UInt8 := 0x75
abbrev macPibAttributeStop : UInt8 := 0x7F

/-- The identifiers that `tl_zb_mac.h` defines: three of the PHY, and two blocks of the MAC with
a gap between them.
-/
def macAttrDefined (attr : UInt8) : Bool :=
  attr == macPhyAttrCurrentChannel || attr == macPhyAttrModeCca
  || attr == macPhyAttrCurrentPage
  || decide (macPibAttributeStart ≤ attr) && decide (attr ≤ macTxPower)
  || decide (macKeyTable ≤ attr) && decide (attr ≤ macPibAttributeStop)

-----------------------------------------------------------------------------------------
-- The state
-----------------------------------------------------------------------------------------

/-- The pools that descriptors are taken from. -/
inductive MacMem where
  | keyId | device | keyUsage | secLvl | key | keyDev
  deriving DecidableEq, Repr

/-- The part of `mac_keyDesc_t` that `mac_key_free` reads: its lists and their lengths. -/
structure KeyDesc where
  keyIdLookupList : Nat
  keyDeviceList : Nat
  keyUsageList : Nat
  keyIdLookupListEntries : UInt8
  keyDeviceListEntries : UInt8
  keyUsageListEntries : UInt8
  deriving DecidableEq, Repr

/-- The PIB bytes, the memory of the lists, the key descriptors, the blocks of every pool that
are in use, those given back in order, those given back that were not in use, and the power level
of the radio.
-/
structure MacSys (σ : Type) where
  pib : Mem
  lists : σ
  keys : Nat → KeyDesc
  allocated : MacMem → List Nat
  freed : List (MacMem × Option Nat)
  strayFrees : List (MacMem × Option Nat)
  radioTxPower : UInt8

/-- The state at boot, with sequences for the lists. -/
def MacSys.boot : MacSys ListMem where
  pib := fun _ => 0
  lists := { lists := fun _ => [], next := fun _ => none }
  keys := fun _ => ⟨0, 0, 0, 0, 0, 0⟩
  allocated := fun _ => []
  freed := []
  strayFrees := []
  radioTxPower := 0

inductive MacSts where
  | success
  | invalidParameter
  deriving DecidableEq, Repr

/-- A `u8 *value`: the address, which for a table is the one of a descriptor, and the bytes
there.
-/
structure MacValue where
  addr : Nat
  bytes : Nat → UInt8

variable {σ : Type} [TnList σ]

/-- `tn_mem_free`, which gives a block back to its pool. -/
def MacSys.tnMemFree (sys : MacSys σ) (mem : MacMem) (item : Option Nat) : MacSys σ :=
  { sys with
    allocated := Function.update sys.allocated mem
      ((sys.allocated mem).filter (fun block => item ≠ some block))
    freed := sys.freed ++ [(mem, item)]
    strayFrees := sys.strayFrees
      ++ (if item.any (fun block => block ∈ sys.allocated mem) then [] else [(mem, item)]) }

/-- One of the three loops of `mac_key_free`, with `count` rounds to go. -/
def macKeyFree.loop (mem : MacMem) (list : Nat) : Nat → MacSys σ → MacSys σ
  | 0, sys => sys
  | count + 1, sys =>
      let popped := TnList.pop sys.lists list
      macKeyFree.loop mem list count ({ sys with lists := popped.2 }.tnMemFree mem popped.1)

/-- `mac_key_free`. The loops count the numbers of the key down until they wrap. -/
def macKeyFree (sys : MacSys σ) (key : Nat) : MacSys σ :=
  let desc := sys.keys key
  let sys := macKeyFree.loop .keyId desc.keyIdLookupList desc.keyIdLookupListEntries.toNat sys
  let sys := macKeyFree.loop .keyDev desc.keyDeviceList desc.keyDeviceListEntries.toNat sys
  let sys := macKeyFree.loop .keyUsage desc.keyUsageList desc.keyUsageListEntries.toNat sys
  let sys := { sys with
    keys := Function.update sys.keys key
      { desc with
        keyIdLookupListEntries := 255
        keyDeviceListEntries := 255
        keyUsageListEntries := 255 } }
  sys.tnMemFree .key (some key)

/-- The three tables of the security attributes. -/
inductive SecTable where
  | key | device | secLvl
  deriving DecidableEq, Repr

def SecTable.pointer : SecTable → PibField
  | .key => .keyTable
  | .device => .devTable
  | .secLvl => .secLvlTable

def SecTable.entries : SecTable → PibField
  | .key => .keyTableEntries
  | .device => .devTableEntries
  | .secLvl => .secLvlTableEntries

/-- The list that the table pointer in the PIB leads to. -/
def MacSys.table (sys : MacSys σ) (table : SecTable) : Nat := sys.pib.le32 table.pointer.offset

def MacSys.entries (sys : MacSys σ) (table : SecTable) : UInt8 := sys.pib table.entries.offset

def MacSys.setEntries (sys : MacSys σ) (table : SecTable) (count : UInt8) : MacSys σ :=
  { sys with pib := Function.update sys.pib table.entries.offset count }

/-- Give a descriptor of a table back, a key with all that is linked to it. -/
def MacSys.freeItem (sys : MacSys σ) (table : SecTable) (item : Nat) : MacSys σ :=
  match table with
  | .key => macKeyFree sys item
  | .device => sys.tnMemFree .device (some item)
  | .secLvl => sys.tnMemFree .secLvl (some item)

/-- The loop `while (pibIndex--)`, which remembers the item before. There is no result when it
would step from a null item.
-/
def pibWalk (m : σ) : Nat → Option Nat → Option Nat → Option (Option Nat × Option Nat)
  | 0, previous, item => some (previous, item)
  | _ + 1, _, none => none
  | count + 1, _, some item => pibWalk m count (some item) (TnList.itemNext m item)

-----------------------------------------------------------------------------------------
-- Access
-----------------------------------------------------------------------------------------

/-- The result of `tl_zbMacAttrSet`; the value is what the caller's buffer holds afterwards. -/
structure AttrSet (σ : Type) where
  status : MacSts
  value : MacValue
  sys : MacSys σ

/-- The branch of `tl_zbMacAttrSet` for a table: append at the end, or put the new descriptor in
the place of an old one.
-/
def attrSetTable (sys : MacSys σ) (table : SecTable) (value : Nat) (pibIndex : UInt8)
    : Option (MacSts × MacSys σ) :=
  let list := sys.table table
  if sys.entries table < pibIndex then
    some (.invalidParameter, sys)
  else if pibIndex = sys.entries table then
    some (.success,
      ({ sys with lists := TnList.add sys.lists list value }).setEntries table
        (sys.entries table + 1))
  else
    match pibWalk sys.lists pibIndex.toNat none (TnList.head sys.lists list) with
    | none | some (_, none) => none
    | some (tmpItem2, some tmpItem) =>
        let lists := TnList.remove sys.lists list tmpItem
        let lists := match tmpItem2 with
          | some previous => TnList.insert lists list previous value
          | none => TnList.push lists list value
        some (.success, ({ sys with lists := lists }).freeItem table tmpItem)

/-- The branch of `tl_zbMacAttrGet` for a table. -/
def attrGetTable (sys : MacSys σ) (table : SecTable) (pibIndex : UInt8)
    : Option (MacSts × Option Nat) :=
  if sys.entries table ≤ pibIndex then
    some (.invalidParameter, none)
  else
    (pibWalk sys.lists pibIndex.toNat none (TnList.head sys.lists (sys.table table))).map
      (fun walked => (.success, walked.2))

/-- The index into `g_zbMacPibTbl` that `tl_zbMacAttrSet` computes, with its correction for the
gap between the two blocks.
-/
def attrSetIndex (attr : UInt8) : Nat :=
  let offset : UInt8 := if macKeyTable ≤ attr then macKeyTable - macTxPower - 1 else 0
  attr.toNat - macPibAttributeStart.toNat - offset.toNat

/-- The index into `g_zbMacPibTbl` that `tl_zbMacAttrGet` computes. -/
def attrGetIndex (attr : UInt8) : Nat := attr.toNat - macPibAttributeStart.toNat

/-- The table that an attribute stands for. -/
def secTable (attr : UInt8) : Option SecTable :=
  if attr = macKeyTable then some .key
  else if attr = macDeviceTable then some .device
  else if attr = macSecurityLevelTable then some .secLvl
  else none

def attrOutOfRange (attr : UInt8) : Bool :=
  decide (macPibAttributeStop < attr) || decide (attr < macPibAttributeStart)

/-- `memcpy` of `len` bytes into the PIB. -/
def pibCopy (pib : Mem) (offset len : Nat) (bytes : Nat → UInt8) : Mem := fun x =>
  if offset ≤ x ∧ x < offset + len then bytes (x - offset) else pib x

/-- `tl_zbMacAttrSet`. There is no result when it reads behind the end of `g_zbMacPibTbl`. -/
def tlZbMacAttrSet (sys : MacSys σ) (attr : UInt8) (value : MacValue) (index : UInt8)
    : Option (AttrSet σ) :=
  if attr = macTxPower then
    let level := if 11 < value.bytes 0 then 11 else value.bytes 0
    some
      {
        status := .success
        value := { value with bytes := Function.update value.bytes 0 level }
        sys := { sys with radioTxPower := level }
      }
  else if attr = macPhyAttrCurrentChannel then
    some
      {
        status := .success
        value
        sys := { sys with
          pib := Function.update sys.pib PibField.phyChannelCur.offset (value.bytes 0) }
      }
  else if attrOutOfRange attr then
    some { status := .invalidParameter, value, sys }
  else
    match secTable attr with
    | some table =>
        (attrSetTable sys table value.addr index).map
          (fun result => { status := result.1, value, sys := result.2 })
    | none =>
        match zbMacPibTbl[attrSetIndex attr]? with
        | none => none
        | some entry =>
            if entry.len < index.toNat then
              some { status := .invalidParameter, value, sys }
            else
              some
                {
                  status := .success
                  value
                  sys := { sys with pib := pibCopy sys.pib entry.offset index.toNat value.bytes }
                }

/-- What `tl_zbMacAttrGet` stores: bytes with their reported number, or a descriptor. -/
inductive AttrGet where
  | invalidParameter
  | bytes (value : List UInt8) (len : UInt8)
  | item (descriptor : Option Nat)
  deriving DecidableEq, Repr

/-- `tl_zbMacAttrGet`. There is no result when it reads behind the end of `g_zbMacPibTbl`. -/
def tlZbMacAttrGet (sys : MacSys σ) (attr index : UInt8) : Option AttrGet :=
  if attr = macPhyAttrCurrentChannel then
    some (.bytes [sys.pib PibField.phyChannelCur.offset] 1)
  else if attrOutOfRange attr then
    some .invalidParameter
  else
    match secTable attr with
    | some table =>
        (attrGetTable sys table index).map (fun result =>
          match result.1 with
          | .success => .item result.2
          | .invalidParameter => .invalidParameter)
    | none =>
        match zbMacPibTbl[attrGetIndex attr]? with
        | none => none
        | some entry =>
            let len := if attr = macAttrBeaconPayload
                ∧ (sys.pib PibField.beaconPayloadLen.offset).toNat ≤ entry.len
              then sys.pib PibField.beaconPayloadLen.offset else .ofNat entry.len
            some (.bytes (sys.pib.read entry.offset entry.len) len)

/-- The branch of `tl_zbMacSecAttrDel` for a table. -/
def secAttrDelTable (sys : MacSys σ) (table : SecTable) (pibIndex : UInt8)
    : Option (MacSts × MacSys σ) :=
  if sys.entries table ≤ pibIndex then
    some (.invalidParameter, sys)
  else
    let list := sys.table table
    match pibWalk sys.lists pibIndex.toNat none (TnList.head sys.lists list) with
    | none | some (_, none) => none
    | some (_, some tmpItem) =>
        let sys := { sys with lists := TnList.remove sys.lists list tmpItem }
        some (.success, (sys.setEntries table (sys.entries table - 1)).freeItem table tmpItem)

/-- `tl_zbMacSecAttrDel`. -/
def tlZbMacSecAttrDel (sys : MacSys σ) (attr pibIndex : UInt8) : Option (MacSts × MacSys σ) :=
  match secTable attr with
  | some table => secAttrDelTable sys table pibIndex
  | none => some (.invalidParameter, sys)

end TelinkSdk
