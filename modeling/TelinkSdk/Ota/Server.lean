import Mathlib.Data.List.Basic
import TelinkSdk.Ota.Client

/-! The OTA server of `tl_specific_data_ota.c`, roles `ZB_COORDINATOR_ROLE` and
`ZB_ROUTER_ROLE`. It serves the file in its new slot in blocks of `OTA_FRAMESIZE` bytes. Frames
handed to the MAC layer are kept in the order in which they were sent; addresses and security
settings are left out.
-/

namespace TelinkSdk

open Nor

-----------------------------------------------------------------------------------------
-- Data
-----------------------------------------------------------------------------------------

abbrev otaFramesize : Nat := 0x30
def otaUpgradeFileId : Nat := 0x0BEEF11E

/-- The states `tl_otabin_e`. -/
inductive OtaBin where
  | binValid
  | binInvalid
  deriving DecidableEq, Repr

/-- The fields of `ota_hdrFields_t` that the server uses. -/
structure OtaHdrFields where
  otaUpgradeFileID : Nat
  otaHdrLen : Nat
  manufaurerCode : Nat
  imageType : Nat
  fileVer : Nat
  totalImageSize : Nat
  deriving DecidableEq, Repr

def OtaHdrFields.load (m : Mem) (addr : Nat) : OtaHdrFields :=
  {
    otaUpgradeFileID := m.le32 addr
    otaHdrLen := m.le16 (addr + 6)
    manufaurerCode := m.le16 (addr + 10)
    imageType := m.le16 (addr + 12)
    fileVer := m.le32 (addr + 14)
    totalImageSize := m.le32 (addr + 52)
  }

/-- The responses of the server. A data frame is cut behind its last payload byte. -/
inductive OtaRsp where
  | startRsp (pay : OtaPreamble)
  | dataRsp (pay : OtaPreamble) (payloadSize : UInt8) (payload : List UInt8)
  | stopRsp (pay : OtaPreamble)
  deriving DecidableEq, Repr

structure OtaRspCmd where
  seqNo : UInt8
  len : Nat
  rsp : OtaRsp
  deriving DecidableEq, Repr

/-- The server's variables, with the values they have before `ota_init`. -/
structure OtaServer where
  devOtaInfo : OtaPreamble := {}
  mcuBootAddr : Bool := false
  otaBinState : OtaBin := .binValid
  otaHeadersize : Nat := 0
  seqNumber : Nat := 0
  tlAppDataSeqNo : UInt8 := 0
  sent : List OtaRspCmd := []
  deriving DecidableEq, Repr

/-- The base of the slot that holds the file. -/
def OtaServer.fileAddr (s : OtaServer) : Nat := if s.mcuBootAddr then 0 else flashOtaNewimageAddr

abbrev sizeofOtaPreamble : Nat := 12
abbrev sizeofOtaDataFrame : Nat := 61

-----------------------------------------------------------------------------------------
-- Handlers
-----------------------------------------------------------------------------------------

/-- `ota_init` of the server. A file of the wrong kind or size leaves `dev_otaInfo` empty. -/
def otaServerInit (k : OtaBuild) (m : Mem) (s : OtaServer) : OtaServer :=
  let s := { s with
    mcuBootAddr := mcuBootAddrGet k m
    otaBinState := .binInvalid
    devOtaInfo := {}
    otaHeadersize := 0 }
  let headinfo := OtaHdrFields.load m s.fileAddr
  if headinfo.otaUpgradeFileID = otaUpgradeFileId then
    if headinfo.totalImageSize ≥ otaMaxImageSize then s
    else if headinfo.otaHdrLen < headinfo.totalImageSize then
      { s with
        devOtaInfo :=
          {
            fileVer := headinfo.fileVer
            imageType := headinfo.imageType
            manufaurerCode := headinfo.manufaurerCode
            imageSize := headinfo.totalImageSize
          }
        otaHeadersize := headinfo.totalImageSize
        otaBinState := .binValid }
    else s
  else s

def otaRspSend (len : Nat) (rsp : OtaRsp) (s : OtaServer) : OtaServer :=
  { s with
    sent := s.sent ++ [{ seqNo := s.tlAppDataSeqNo, len, rsp }]
    tlAppDataSeqNo := s.tlAppDataSeqNo + 1 }

def otaStartReqHandler (pHdr : OtaPreamble) (s : OtaServer) : OtaServer :=
  if pHdr.manufaurerCode ≠ s.devOtaInfo.manufaurerCode then s
  else otaRspSend sizeofOtaPreamble (.startRsp s.devOtaInfo) s

def otaStopReqHandler (pHdr : OtaPreamble) (s : OtaServer) : OtaServer :=
  if pHdr.fileVer = s.devOtaInfo.fileVer ∧ pHdr.imageType = s.devOtaInfo.imageType
      ∧ pHdr.manufaurerCode = s.devOtaInfo.manufaurerCode
      ∧ pHdr.imageSize = s.devOtaInfo.imageSize then
    otaRspSend sizeofOtaPreamble (.stopRsp s.devOtaInfo) s
  else s

/-- The number of bytes that `ota_dataReqHandler` reads for a block. -/
def otaDataReqHandler.readLen (s : OtaServer) (otaHeadercnt : Nat) : Nat :=
  if (otaHeadercnt + otaFramesize) % u32Mod < s.otaHeadersize then otaFramesize
  else s.otaHeadersize % otaFramesize

/-- The block number comes in the field `imageSize`. -/
def otaDataReqHandler (m : Mem) (pdHdr : OtaPreamble) (s : OtaServer) : OtaServer :=
  if pdHdr.fileVer = s.devOtaInfo.fileVer ∧ pdHdr.imageType = s.devOtaInfo.imageType
      ∧ pdHdr.manufaurerCode = s.devOtaInfo.manufaurerCode ∧ s.otaBinState = .binValid then
    let otaHeadercnt := pdHdr.imageSize * otaFramesize % u32Mod
    let readLen := otaDataReqHandler.readLen s otaHeadercnt
    otaRspSend (sizeofOtaDataFrame - otaFramesize + readLen)
      (.dataRsp { s.devOtaInfo with imageSize := pdHdr.imageSize } (UInt8.ofNat readLen)
        (m.read ((s.fileAddr + otaHeadercnt) % u32Mod) readLen)) s
  else s

/-- The server's part of `tl_appOtaCmdHandler`. A `DATA_REQ` with the sequence number of the
one before is dropped.
-/
def tlAppOtaCmdHandler (m : Mem) (cmd : OtaCmd) (s : OtaServer) : OtaServer :=
  match cmd.cmdId with
  | .startReq => { otaStartReqHandler cmd.pay s with seqNumber := 0x100 }
  | .stopReq => otaStopReqHandler cmd.pay s
  | .dataReq =>
      if s.seqNumber ≠ cmd.seqNo.toNat then
        otaDataReqHandler m cmd.pay { s with seqNumber := cmd.seqNo.toNat }
      else s

/-- The states of a server that has started with flash contents `m` and got any frames. -/
inductive ServerReached (k : OtaBuild) (m : Mem) : OtaServer → Prop where
  | init : ServerReached k m (otaServerInit k m {})
  | frame {s : OtaServer} (before : ServerReached k m s) (cmd : OtaCmd)
      : ServerReached k m (tlAppOtaCmdHandler m cmd s)

-----------------------------------------------------------------------------------------
-- The file
-----------------------------------------------------------------------------------------

/-- The base of the slot with the file, read off the keyword of the slot at address 0. -/
def otaFileAddr (k : OtaBuild) (m : Mem) : Nat :=
  if mcuBootAddrGet k m then 0 else flashOtaNewimageAddr

/-- A byte of the file in the server's slot. -/
def otaFile (k : OtaBuild) (m : Mem) : Mem := fun i => m (otaFileAddr k m + i)

/-- The server's slot holds an OTA file of `size` bytes, as its header says. -/
structure HoldsFile (k : OtaBuild) (m : Mem) (size : Nat) : Prop where
  fileId : (OtaHdrFields.load m (otaFileAddr k m)).otaUpgradeFileID = otaUpgradeFileId
  total : (OtaHdrFields.load m (otaFileAddr k m)).totalImageSize = size
  header : (OtaHdrFields.load m (otaFileAddr k m)).otaHdrLen < size
  small : size < otaMaxImageSize

/-- What the server announces about its file. -/
def otaFileInfo (k : OtaBuild) (m : Mem) : OtaPreamble :=
  let headinfo := OtaHdrFields.load m (otaFileAddr k m)
  {
    fileVer := headinfo.fileVer
    imageType := headinfo.imageType
    manufaurerCode := headinfo.manufaurerCode
    imageSize := headinfo.totalImageSize
  }

/-- A server that has the file loaded. -/
structure Loaded (k : OtaBuild) (m : Mem) (s : OtaServer) : Prop where
  boot : s.mcuBootAddr = mcuBootAddrGet k m
  info : s.devOtaInfo = otaFileInfo k m
  bin : s.otaBinState = .binValid
  size : s.otaHeadersize = (otaFileInfo k m).imageSize

section Loaded

variable {k : OtaBuild} {m : Mem} {size : Nat} {s : OtaServer}

theorem HoldsFile.init (holds : HoldsFile k m size) : Loaded k m (otaServerInit k m s) := by
  obtain ⟨fileId, total, header, small⟩ := holds
  have known : otaServerInit k m s
      = { s with
          mcuBootAddr := mcuBootAddrGet k m
          devOtaInfo := otaFileInfo k m
          otaHeadersize := (otaFileInfo k m).imageSize
          otaBinState := .binValid } := by
    rw [← total] at header small
    have fits : ¬(OtaHdrFields.load m (otaFileAddr k m)).totalImageSize ≥ otaMaxImageSize :=
      Nat.not_le.mpr small
    unfold otaFileAddr at fileId header fits
    unfold otaServerInit
    dsimp only [OtaServer.fileAddr]
    rw [if_pos fileId, if_neg fits, if_pos header]
    rfl
  rw [known]
  exact ⟨rfl, rfl, rfl, rfl⟩

theorem Loaded.send (loaded : Loaded k m s) (len : Nat) (rsp : OtaRsp)
    : Loaded k m (otaRspSend len rsp s) :=
  { loaded with }

theorem Loaded.dataReq (loaded : Loaded k m s) (pdHdr : OtaPreamble)
    : Loaded k m (otaDataReqHandler m pdHdr s) := by
  unfold otaDataReqHandler
  split
  · exact loaded.send _ _
  · exact loaded

/-- Frames do not change the file. -/
theorem Loaded.frame (loaded : Loaded k m s) (cmd : OtaCmd)
    : Loaded k m (tlAppOtaCmdHandler m cmd s) := by
  unfold tlAppOtaCmdHandler
  split
  · have answered : Loaded k m (otaStartReqHandler cmd.pay s) := by
      unfold otaStartReqHandler
      split
      · exact loaded
      · exact loaded.send _ _
    exact { answered with }
  · unfold otaStopReqHandler
    split
    · exact loaded.send _ _
    · exact loaded
  · split
    · have taken : Loaded k m { s with seqNumber := cmd.seqNo.toNat } := { loaded with }
      exact taken.dataReq cmd.pay
    · exact loaded

theorem ServerReached.loaded (reached : ServerReached k m s) (holds : HoldsFile k m size)
    : Loaded k m s := by
  induction reached with
  | init => exact holds.init
  | frame _ cmd ih => exact ih.frame cmd

end Loaded

-----------------------------------------------------------------------------------------
-- Blocks
-----------------------------------------------------------------------------------------

/-- The payload that the server sends for block `n`. -/
def servedPayload (m : Mem) (s : OtaServer) (n : Nat) : List UInt8 :=
  match (otaDataReqHandler m { s.devOtaInfo with imageSize := n } s).sent.getLast? with
  | some { rsp := .dataRsp _ _ payload, .. } => payload
  | _ => []

/-- The server answers a request for block `n` with the right bytes of the file. -/
def ServesBlock (k : OtaBuild) (m : Mem) (size : Nat) (s : OtaServer) (n : Nat) : Prop :=
  let readLen := min otaFramesize (size - otaFramesize * n)
  otaDataReqHandler m { otaFileInfo k m with imageSize := n } s
    = otaRspSend (sizeofOtaDataFrame - otaFramesize + readLen)
        (.dataRsp { otaFileInfo k m with imageSize := n } (UInt8.ofNat readLen)
          ((otaFile k m).read (otaFramesize * n) readLen)) s

/-- The file is served whole: every block is right, the blocks together are the file, and
none of them is empty as long as bytes are missing.
-/
structure ServedWhole (k : OtaBuild) (m : Mem) (size : Nat) (s : OtaServer) : Prop where
  blocks : ∀ n, otaFramesize * n < size → ServesBlock k m size s n
  whole : (List.range ((size + otaFramesize - 1) / otaFramesize)).flatMap (servedPayload m s)
    = (otaFile k m).read 0 size
  nonempty : ∀ n, ((List.range n).flatMap (servedPayload m s)).length < size
    → servedPayload m s n ≠ []

section Blocks

variable {k : OtaBuild} {m : Mem} {size : Nat} {s : OtaServer}

theorem otaFileAddr_le (k : OtaBuild) (m : Mem) : otaFileAddr k m ≤ flashOtaNewimageAddr := by
  unfold otaFileAddr
  split <;> simp

/-- The response to a request for block `n`, in terms of the file. -/
theorem Loaded.dataReq_eq (loaded : Loaded k m s) (holds : HoldsFile k m size) {n : Nat}
    (inside : otaFramesize * n < size)
    : otaDataReqHandler m { otaFileInfo k m with imageSize := n } s
      = otaRspSend
          (sizeofOtaDataFrame - otaFramesize + otaDataReqHandler.readLen s (otaFramesize * n))
          (.dataRsp { otaFileInfo k m with imageSize := n }
            (UInt8.ofNat (otaDataReqHandler.readLen s (otaFramesize * n)))
            ((otaFile k m).read (otaFramesize * n)
              (otaDataReqHandler.readLen s (otaFramesize * n)))) s := by
  have small := holds.small
  have base := otaFileAddr_le k m
  have file : s.fileAddr = otaFileAddr k m := by
    rw [OtaServer.fileAddr, loaded.boot, otaFileAddr]
  simp only [otaMaxImageSize, flashOtaNewimageAddr, otaFramesize] at small base inside
  have position : n * otaFramesize % u32Mod = otaFramesize * n := by
    simp only [u32Mod, otaFramesize]
    omega
  have address : (otaFileAddr k m + otaFramesize * n) % u32Mod
      = otaFileAddr k m + otaFramesize * n := by
    simp only [u32Mod, otaFramesize]
    omega
  have bytes (count : Nat) : m.read (otaFileAddr k m + otaFramesize * n) count
      = (otaFile k m).read (otaFramesize * n) count := by
    apply Mem.read_congr
    intro i _
    rw [otaFile, Nat.add_assoc]
  unfold otaDataReqHandler
  dsimp only
  rw [loaded.info, if_pos ⟨rfl, rfl, rfl, loaded.bin⟩, position, file, address, bytes]

theorem Loaded.readLen_eq (loaded : Loaded k m s) (holds : HoldsFile k m size) {n : Nat}
    (inside : otaFramesize * n < size)
    : otaDataReqHandler.readLen s (otaFramesize * n)
      = if otaFramesize * n + otaFramesize < size then otaFramesize else size % otaFramesize := by
  have small := holds.small
  have total : s.otaHeadersize = size := loaded.size.trans holds.total
  simp only [otaMaxImageSize, otaFramesize] at small inside
  have position : (otaFramesize * n + otaFramesize) % u32Mod = otaFramesize * n + otaFramesize := by
    simp only [u32Mod, otaFramesize]
    omega
  rw [otaDataReqHandler.readLen, position, total]

/-- A block has the right length unless it is a full one at the end of the file. -/
theorem Loaded.servesBlock (loaded : Loaded k m s) (holds : HoldsFile k m size) {n : Nat}
    (inside : otaFramesize * n < size) (uneven : size % otaFramesize ≠ 0)
    : ServesBlock k m size s n := by
  have length : otaDataReqHandler.readLen s (otaFramesize * n)
      = min otaFramesize (size - otaFramesize * n) := by
    rw [loaded.readLen_eq holds inside]
    simp only [otaFramesize] at *
    split <;> omega
  rw [ServesBlock, loaded.dataReq_eq holds inside, length]

theorem Loaded.servedPayload_eq (loaded : Loaded k m s) {n : Nat}
    (serves : ServesBlock k m size s n)
    : servedPayload m s n
      = (otaFile k m).read (0 + otaFramesize * n) (min otaFramesize (size - otaFramesize * n)) := by
  unfold ServesBlock at serves
  rw [servedPayload, loaded.info, serves, Nat.zero_add]
  simp only [otaRspSend, List.getLast?_append, List.getLast?_singleton, Option.some_or]

theorem Loaded.firstBlocks (loaded : Loaded k m s)
    (blocks : ∀ n, otaFramesize * n < size → ServesBlock k m size s n) {count : Nat}
    (needed : otaFramesize * count < size + otaFramesize)
    : (List.range count).flatMap (servedPayload m s)
      = (otaFile k m).read 0 (min (otaFramesize * count) size) := by
  rw [← Mem.read_blocks]
  have each : ∀ n ∈ List.range count, servedPayload m s n
      = (otaFile k m).read (0 + otaFramesize * n) (min otaFramesize (size - otaFramesize * n)) := by
    intro n member
    apply loaded.servedPayload_eq
    apply blocks
    have before := List.mem_range.mp member
    simp only [otaFramesize] at *
    omega
  exact List.flatMap_congr each

end Blocks

/-- A file is served whole exactly if its size is no multiple of the block size. -/
theorem otaServer_servedWhole {k : OtaBuild} {m : Mem} {size : Nat} {s : OtaServer}
    (holds : HoldsFile k m size) (reached : ServerReached k m s)
    : ServedWhole k m size s ↔ size % otaFramesize ≠ 0 := by
  have loaded := reached.loaded holds
  have header := holds.header
  constructor
  · intro served even
    -- The last block is full, so its length is taken to be the remainder 0.
    have last : otaFramesize * (size / otaFramesize - 1) < size := by
      simp only [otaFramesize] at *
      omega
    have right := loaded.servedPayload_eq (served.blocks _ last)
    have empty : otaDataReqHandler.readLen s (otaFramesize * (size / otaFramesize - 1)) = 0 := by
      rw [loaded.readLen_eq holds last, if_neg, even]
      simp only [otaFramesize] at *
      omega
    rw [servedPayload, loaded.info, loaded.dataReq_eq holds last, empty] at right
    have length := congrArg List.length right
    simp only [otaRspSend, List.getLast?_append, List.getLast?_singleton, Option.some_or,
      Mem.read_length] at length
    simp only [otaFramesize] at *
    omega
  · intro uneven
    have blocks (n : Nat) (inside : otaFramesize * n < size) : ServesBlock k m size s n :=
      loaded.servesBlock holds inside uneven
    have whole : (List.range ((size + otaFramesize - 1) / otaFramesize)).flatMap (servedPayload m s)
        = (otaFile k m).read 0 size := by
      rw [loaded.firstBlocks blocks, Nat.min_eq_right]
      · simp only [otaFramesize]
        omega
      · simp only [otaFramesize]
        omega
    refine ⟨blocks, whole, ?_⟩
    intro n missing empty
    by_cases inside : otaFramesize * n < size
    · rw [loaded.servedPayload_eq (blocks n inside)] at empty
      have length := congrArg List.length empty
      simp only [Mem.read_length, List.length_nil] at length
      simp only [otaFramesize] at *
      omega
    · -- All blocks of the file are among the first `n`.
      obtain ⟨more, count⟩ := Nat.exists_eq_add_of_le
        (show (size + otaFramesize - 1) / otaFramesize ≤ n by simp only [otaFramesize] at *; omega)
      rw [count, List.range_add, List.flatMap_append, whole, List.length_append,
        Mem.read_length] at missing
      omega

/-- A flash whose second slot holds an OTA file of `size` bytes for the client `k`. All bytes of
the image are the keyword.
-/
def sampleFileMem (k : OtaBuild) (size : Nat) : Mem :=
  let header : List UInt8 :=
    bytes32 otaUpgradeFileId ++ bytes16 0x100 ++ bytes16 56 ++ bytes16 0
      ++ bytes16 manufacturerCode ++ bytes16 (imageType k) ++ bytes32 (fileVersion + 1)
      ++ List.replicate 34 0 ++ bytes32 size ++ bytes16 0 ++ bytes32 (size - 62)
  fun x =>
    if flashOtaNewimageAddr ≤ x then header.getD (x - flashOtaNewimageAddr) otaKeyword
    else if x = otaTlnkKeywordAddroffset k then otaKeyword
    else blankByte

theorem sampleFileMem_holds {size : Nat} (mem : size ∈ [96, 100])
    : HoldsFile build8258 (sampleFileMem build8258 size) size := by
  simp only [List.mem_cons, List.not_mem_nil, or_false] at mem
  rcases mem with rfl | rfl <;>
    exact ⟨by decide +kernel, by decide +kernel, by decide +kernel, by decide⟩

theorem otaServer_servedWhole_uneven
    : ServedWhole build8258 (sampleFileMem build8258 100) 100
        (otaServerInit build8258 (sampleFileMem build8258 100) {}) :=
  (otaServer_servedWhole (sampleFileMem_holds (by decide)) .init).mpr (by decide)

/-- The second block of a file of 96 bytes is empty. -/
theorem full_last_block_empty
    : HoldsFile build8258 (sampleFileMem build8258 96) 96
      ∧ ¬ServedWhole build8258 (sampleFileMem build8258 96) 96
        (otaServerInit build8258 (sampleFileMem build8258 96) {}) := by
  refine ⟨sampleFileMem_holds (by decide), fun served => ?_⟩
  have second := served.blocks 1 (by decide)
  revert second
  unfold ServesBlock
  decide +kernel

end TelinkSdk
