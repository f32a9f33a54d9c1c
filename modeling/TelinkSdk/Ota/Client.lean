import TelinkSdk.Drivers.Nv
import TelinkSdk.Ota.Crc

/-! The OTA client of `tl_specific_data_ota.c`, role `ZB_ED_ROLE`.
The handlers are programs that pass the client's variables along. Frames handed to the MAC
layer are kept in the order in which they were sent; poll rates are left out.
-/

namespace TelinkSdk

open Nor

-----------------------------------------------------------------------------------------
-- Data
-----------------------------------------------------------------------------------------

/-- The build switches of the client, and `CHIP_ID` of its version. -/
structure OtaBuild where
  mcuCoreB91 : Bool
  chipId : Nat
  deriving DecidableEq, Repr

def otaTlnkKeywordAddroffset (k : OtaBuild) : Nat := if k.mcuCoreB91 then 0x20 else 8

abbrev flashOtaNewimageAddr : Nat := 0x40000
abbrev otaMaxImageSize : Nat := 0x30000
def otaMaxImageBlockRetries : Nat := 10

def manufacturerCode : Nat := 0x1141
def imageType (k : OtaBuild) : Nat := k.chipId * 256 + 0x52
def fileVersion : Nat := 0x10400000

/-- The end device on an 8258. -/
abbrev build8258 : OtaBuild := { mcuCoreB91 := false, chipId := 0x58 }

/-- The byte that makes a slot bootable. -/
abbrev otaKeyword : UInt8 := 0x4b

/-- The states `tl_otaState_e`. -/
inductive OtaSta where
  | staIdle
  | staStarting
  | staDataing
  | staEnd
  deriving DecidableEq, Repr

-- tl_otaHeaderLocation_e
abbrev otaHeadLength : Nat := 0x06
abbrev otaHeadMauncode : Nat := 0x0a
abbrev otaHeadImagetype : Nat := 0x0c
abbrev otaHeadFilever : Nat := 0x0e
abbrev otaHeadImagesize : Nat := 0x3a

structure OtaPreamble where
  fileVer : Nat := 0
  imageType : Nat := 0
  manufaurerCode : Nat := 0
  imageSize : Nat := 0
  deriving DecidableEq, Repr

/-- A received block. Nothing checks `payloadSize` against the 48 bytes of the array, so the
payload is given as the bytes in memory from its start on.
-/
structure OtaDataFrame extends OtaPreamble where
  payloadSize : UInt8
  payload : Mem

/-- The requests of the client. -/
inductive OtaReq where
  | startReq
  | dataReq
  | stopReq
  deriving DecidableEq, Repr

structure OtaCmd where
  cmdId : OtaReq
  seqNo : UInt8
  pay : OtaPreamble
  deriving DecidableEq, Repr

/-- The client's variables, with the values they have before `ota_init`. -/
structure OtaClient where
  devOtaInfo : OtaPreamble := {}
  binInfo : OtaPreamble := {}
  /-- The running slot is the one at `FLASH_OTA_NEWIMAGE_ADDR`. -/
  mcuBootAddr : Bool := false
  otaState : OtaSta := .staIdle
  otaReqRetryCnt : Nat := 0
  blockDataCount : Nat := 0
  otaHeadercnt : Nat := 0
  otaHeadersize : Nat := 0
  crcValue : UInt32 := 0
  flashOffsetAddr : Nat := 0
  otaDataCb : Option OtaReq := none
  otaDataReqTimer : Bool := false
  otaQueryTimer : Bool := false
  tlAppDataSeqNo : UInt8 := 0
  sent : List OtaCmd := []
  deriving DecidableEq, Repr

/-- The base of the slot that receives a new image. -/
def OtaClient.newAddr (s : OtaClient) : Nat := if s.mcuBootAddr then 0 else flashOtaNewimageAddr

/-- The base of the running slot. -/
def OtaClient.baseAddr (s : OtaClient) : Nat := if s.mcuBootAddr then flashOtaNewimageAddr else 0

-----------------------------------------------------------------------------------------
-- Requests and timers
-----------------------------------------------------------------------------------------

def otaSend (cmdId : OtaReq) (pay : OtaPreamble) (s : OtaClient) : OtaClient :=
  { s with
    sent := s.sent ++ [{ cmdId, seqNo := s.tlAppDataSeqNo, pay }]
    tlAppDataSeqNo := s.tlAppDataSeqNo + 1 }

def otaStartReq (k : OtaBuild) (s : OtaClient) : OtaClient :=
  otaSend .startReq
    {
      fileVer := fileVersion
      imageType := imageType k
      manufaurerCode := manufacturerCode
      imageSize := 0
    } s

def otaDataReq (s : OtaClient) : OtaClient :=
  otaSend .dataReq { s.devOtaInfo with imageSize := s.blockDataCount } s

def otaStopReq (s : OtaClient) : OtaClient :=
  otaSend .stopReq
    { s.binInfo with imageSize := (s.binInfo.imageSize + s.otaHeadersize) % u32Mod } s

def otaDataReqRetry (s : OtaClient) : OtaClient :=
  { s with otaReqRetryCnt := 0, otaDataReqTimer := true }

/-- The running slot, read off the keyword of the slot at address 0. -/
def mcuBootAddrGet (k : OtaBuild) (m : Mem) : Bool := m (otaTlnkKeywordAddroffset k) != otaKeyword

/-- The position in the header survives, whatever session it belongs to. -/
def otaInit (k : OtaBuild) (m : Mem) (s : OtaClient) : OtaClient :=
  { s with
    devOtaInfo := {}
    binInfo := {}
    crcValue := 0xffffffff
    flashOffsetAddr := 0
    blockDataCount := 0
    mcuBootAddr := mcuBootAddrGet k m }

def otaQueryStart (k : OtaBuild) (m : Mem) (s : OtaClient) : OtaClient :=
  { otaInit k m s with otaState := .staIdle, otaQueryTimer := true }

/-- Give up a session: the sequence that every error path of the handlers shares. -/
def otaAbort (k : OtaBuild) (m : Mem) (s : OtaClient) : OtaClient :=
  otaQueryStart k m { s with otaState := .staIdle, otaDataReqTimer := false }

/-- The client after a reset, as `user_init` leaves it. -/
def otaPowerUp (k : OtaBuild) (m : Mem) : OtaClient := otaInit k m {}

def otaPeriodicQueryServerCb (k : OtaBuild) (s : OtaClient) : OtaClient := otaStartReq k s

/-- The retry timer. -/
def otaPeriodicDataServerCb (k : OtaBuild) (m : Mem) (s : OtaClient) : OtaClient :=
  let s := { s with otaReqRetryCnt := (s.otaReqRetryCnt + 1) % 256 }
  if s.otaReqRetryCnt ≥ otaMaxImageBlockRetries then
    { otaQueryStart k m { s with otaReqRetryCnt := 0 } with otaDataReqTimer := false }
  else
    match s.otaDataCb with
    | some .dataReq => otaDataReq s
    | some .stopReq => otaStopReq s
    | some .startReq => otaStartReq k s
    | none => s

-----------------------------------------------------------------------------------------
-- Handlers
-----------------------------------------------------------------------------------------

/-- Switch the boot keyword over and reset. -/
def otaMcuReboot (k : OtaBuild) (s : OtaClient) : Prog OtaClient := do
  flashUnlock
  flashWrite (s.newAddr + otaTlnkKeywordAddroffset k) [otaKeyword]
  flashWrite (s.baseAddr + otaTlnkKeywordAddroffset k) [0]
  flashLock
  Prog.view (otaPowerUp k)

/-- The test of `ota_startRspHandler`. -/
def otaStartRspHandler.accepts (k : OtaBuild) (s : OtaClient) (pHdr : OtaPreamble) : Bool :=
  pHdr.manufaurerCode == manufacturerCode && pHdr.imageType == imageType k
    && pHdr.fileVer > fileVersion && s.otaState == .staIdle
    && pHdr.imageSize > 0 && pHdr.imageSize < otaMaxImageSize

def otaStartRspHandler (k : OtaBuild) (pHdr : OtaPreamble) (s : OtaClient) : Prog OtaClient :=
  if otaStartRspHandler.accepts k s pHdr then do
    let sectorNumUsed := pHdr.imageSize / flashSectorSize + 1
    flashEraseSectors sectorNumUsed s.newAddr
    let s := { s with devOtaInfo := pHdr, otaState := .staStarting, otaQueryTimer := false }
    pure (otaDataReqRetry { otaDataReq s with otaDataCb := some .dataReq })
  else pure s

/-- The test of `ota_stopRspHandler`, in state `OTA_STA_END`. -/
def otaStopRspHandler.accepts (s : OtaClient) (pHdr : OtaPreamble) : Bool :=
  pHdr.manufaurerCode == s.binInfo.manufaurerCode && pHdr.imageType == s.binInfo.imageType
    && pHdr.fileVer == s.binInfo.fileVer
    && pHdr.imageSize == (s.binInfo.imageSize + s.otaHeadersize) % u32Mod

def otaStopRspHandler (k : OtaBuild) (pHdr : OtaPreamble) (s : OtaClient) : Prog OtaClient :=
  if s.otaState ≠ .staEnd then pure s
  else if otaStopRspHandler.accepts s pHdr then
    otaMcuReboot k { s with otaState := .staIdle }
  else Prog.view fun m => otaAbort k m s

/-- The effect of header byte `i` of the payload. Fields are read where they start, also
beyond the end of the block.
-/
def otaDataProcess.field (payload : Mem) (i : Nat) (s : OtaClient) : OtaClient :=
  if s.otaHeadercnt = otaHeadLength then { s with otaHeadersize := payload.le16 i + 6 }
  else if s.otaHeadercnt = otaHeadMauncode then
    { s with binInfo := { s.binInfo with manufaurerCode := payload.le16 i } }
  else if s.otaHeadercnt = otaHeadImagetype then
    { s with binInfo := { s.binInfo with imageType := payload.le16 i } }
  else if s.otaHeadercnt = otaHeadFilever then
    { s with binInfo := { s.binInfo with fileVer := payload.le32 i } }
  else { s with binInfo := { s.binInfo with imageSize := payload.le32 i } }

/-- A byte of the header that starts a field. -/
def otaDataProcess.startsField (s : OtaClient) : Bool :=
  s.otaHeadercnt == otaHeadLength || s.otaHeadercnt == otaHeadMauncode
    || s.otaHeadercnt == otaHeadImagetype || s.otaHeadercnt == otaHeadFilever
    || s.otaHeadercnt == otaHeadImagesize

/-- The loop of `ota_DataProcess` over the header, with the number of bytes left and the
index of the next one. It stops at the first byte of the image.
-/
def otaDataProcess.header (payload : Mem) : Nat → Nat → OtaClient → Nat × OtaClient
  | 0, i, s => (i, s)
  | left + 1, i, s =>
      if otaDataProcess.startsField s then
        let s := otaDataProcess.field payload i s
        otaDataProcess.header payload left (i + 1)
          { s with otaHeadercnt := (s.otaHeadercnt + 1) % u32Mod }
      else if s.otaHeadercnt = s.otaHeadersize ∧ s.otaHeadersize ≠ 0 then
        (i, { s with otaState := .staDataing })
      else
        otaDataProcess.header payload left (i + 1)
          { s with otaHeadercnt := (s.otaHeadercnt + 1) % u32Mod }

/-- The number of bytes of a block that count for the checksum: none of the last four bytes
of the image.
-/
def otaDataProcess.crcLen (s : OtaClient) (otaHeaderbuf datalen : Nat) : Nat :=
  let crcStart := (s.binInfo.imageSize + s.otaHeadersize + (u32Mod - 4)) % u32Mod
  if s.otaHeadercnt ≥ crcStart then
    if otaHeaderbuf ≥ crcStart then 0
    else
      let offset := (s.otaHeadercnt - crcStart) % u16Mod
      if datalen > offset then datalen - offset else 0
  else datalen

/-- The block covers the keyword of the image, or ends right in front of it. -/
def otaDataProcess.flag (k : OtaBuild) (s : OtaClient) (datalen : Nat) : Bool :=
  s.flashOffsetAddr ≤ otaTlnkKeywordAddroffset k
    && (datalen + s.flashOffsetAddr) % u32Mod ≥ otaTlnkKeywordAddroffset k && datalen > 0

/-- The part of `ota_DataProcess` that stores the bytes from index `i` on. The keyword is
masked while they are written, so that the slot does not become bootable.
-/
def otaDataProcess.store (k : OtaBuild) (payload : Mem) (datalen i : Nat) (s : OtaClient)
    : Prog OtaClient := do
  let otaHeaderbuf := s.otaHeadercnt
  let s := { s with otaHeadercnt := (s.otaHeadercnt + datalen) % u32Mod }
  let flag := otaDataProcess.flag k s datalen
  let keywordIdx := i + otaTlnkKeywordAddroffset k - s.flashOffsetAddr
  let masked : Mem := if flag then Function.update payload keywordIdx 0xff else payload
  if ← flashWriteWithCheck (s.newAddr + s.flashOffsetAddr) (masked.read i datalen) then
    let restored : Mem := if flag then Function.update payload keywordIdx otaKeyword else payload
    let crcLen := otaDataProcess.crcLen s otaHeaderbuf datalen
    pure { s with
      flashOffsetAddr := (s.flashOffsetAddr + datalen) % u32Mod
      crcValue := xcrc32 (restored.read i crcLen) s.crcValue }
  else Prog.view fun m => otaAbort k m s

def otaDataProcess (k : OtaBuild) (len : Nat) (payload : Mem) (s : OtaClient)
    : Prog OtaClient := do
  let (i, s) :=
    if s.otaState = .staStarting then otaDataProcess.header payload len 0 s else (0, s)
  if s.otaState = .staDataing ∧ len > 0 then otaDataProcess.store k payload (len - i) i s
  else pure s

/-- The test of `ota_dataRspHandler`. -/
def otaDataRspHandler.accepts (s : OtaClient) (pHdr : OtaDataFrame) : Bool :=
  pHdr.manufaurerCode == s.devOtaInfo.manufaurerCode && pHdr.imageType == s.devOtaInfo.imageType
    && pHdr.fileVer == s.devOtaInfo.fileVer && pHdr.imageSize == s.blockDataCount

/-- The address of the checksum in the new slot. -/
def OtaClient.crcAddr (s : OtaClient) : Nat :=
  (s.newAddr + s.devOtaInfo.imageSize + (u32Mod - s.otaHeadersize % u32Mod) + (u32Mod - 4)) % u32Mod

/-- What `ota_dataRspHandler` does after a block: compare the checksums of a complete image,
or ask for the next block.
-/
def otaDataRspHandler.next (k : OtaBuild) (s : OtaClient) (m : Mem) : OtaClient :=
  if s.otaHeadercnt ≥ s.devOtaInfo.imageSize then
    if m.le32 s.crcAddr = s.crcValue.toNat then
      otaDataReqRetry
        { otaStopReq { s with otaState := .staEnd } with otaDataCb := some .stopReq }
    else otaAbort k m { s with devOtaInfo := { s.devOtaInfo with imageSize := 0 } }
  else otaDataReqRetry { otaDataReq s with otaDataCb := some .dataReq }

def otaDataRspHandler (k : OtaBuild) (pHdr : OtaDataFrame) (s : OtaClient) : Prog OtaClient :=
  if s.otaState = .staIdle then pure s
  else if otaDataRspHandler.accepts s pHdr then
    if pHdr.payloadSize = 0 then Prog.view fun m => otaAbort k m s
    else do
      flashUnlock
      let s ← otaDataProcess k pHdr.payloadSize.toNat pHdr.payload s
      flashLock
      Prog.view (otaDataRspHandler.next k
        { s with blockDataCount := (s.blockDataCount + 1) % u32Mod })
  else pure s

end TelinkSdk
