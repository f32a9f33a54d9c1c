import Mathlib.Data.List.GetD
import TelinkSdk.Hci.UsbCdc

/-! The frames of the USB-CDC host interface, as `zbhci_usb_cdc.c` takes them out of a receive
buffer and as it builds them.
-/

namespace TelinkSdk.ZbhciUsbCdc

-----------------------------------------------------------------------------------------
-- The handler
-----------------------------------------------------------------------------------------

abbrev rxNdataLen : Nat := 7

abbrev rxBufLen : Nat := 64

abbrev zbhciMsgHdrLen : Nat := 7

abbrev zbhciMsgStartFlag : UInt8 := 0x55

abbrev zbhciMsgEndFlag : UInt8 := 0xAA

abbrev success : UInt8 := 0x00

abbrev zbhciMsgStatusErrorStartChar : UInt8 := 0xE0

abbrev zbhciMsgStatusMsgOverflow : UInt8 := 0xE1

abbrev zbhciMsgStatusErrorEndChar : UInt8 := 0xE2

abbrev zbhciMsgStatusUartExcept : UInt8 := 0xE4

abbrev zbhciCmdAcknowledge : UInt16 := 0x8000

/-- What the handler calls, with the bytes behind the pointers it passes on. -/
inductive HciCall where
  | hciTestCmdHandler (msgType pktLen : UInt16) (pData : List UInt8)
  | zbhciTx (u16Type : UInt16) (pu8Data : List UInt8)
  | evBufFree
deriving DecidableEq

/-- The calls in their order, and the offsets from the start of the buffer that are read. -/
structure HandlerRun where
  reads : List Int
  calls : List HciCall

/-- The memory around a receive buffer, by the offset from its start. -/
abbrev RxMem := Int → UInt8

/-- `GET_RXPACKETLEN` -/
def getRxPacketLen (p : RxMem) : Nat := (p 3).toNat <<< 8 ||| (p 4).toNat

/-- `usbcdc_data_handler`. The length of the whole frame is cut to a byte, and the end flag is read
before anything is checked.
-/
def usbcdcDataHandler (p : RxMem) : HandlerRun :=
  let len := UInt8.ofNat (getRxPacketLen p + rxNdataLen)
  let endChar := p (len.toNat - 1)
  let pktLen := UInt16.ofNat ((p 3).toNat <<< 8 ||| (p 4).toNat)
  let st :=
    if p 0 = zbhciMsgStartFlag then
      if pktLen.toNat + zbhciMsgHdrLen < rxBufLen then
        if endChar ≠ zbhciMsgEndFlag then zbhciMsgStatusErrorEndChar else success
      else zbhciMsgStatusMsgOverflow
    else zbhciMsgStatusErrorStartChar
  let reads := [3, 4, (len.toNat : Int) - 1, 0, 1, 2]
  let msgType := UInt16.ofNat ((p 1).toNat <<< 8 + (p 2).toNat)
  if st = success then
    { reads
      calls :=
        [.hciTestCmdHandler msgType pktLen
          ((List.range pktLen.toNat).map fun (i : Nat) => p (6 + (i : Int))), .evBufFree] }
  else
    let unknown :=
      st = zbhciMsgStatusUartExcept ∨ st = zbhciMsgStatusMsgOverflow
      ∨ st = zbhciMsgStatusErrorStartChar
    let msgType16H := if unknown then 0xff else p 1
    let msgType16L := if unknown then 0xff else p 2
    { reads
      calls := [.zbhciTx zbhciCmdAcknowledge [msgType16H, msgType16L, st, 0], .evBufFree] }

-----------------------------------------------------------------------------------------
-- Accepted frames
-----------------------------------------------------------------------------------------

/-- The big-endian numbers in the header of a frame. -/
def frameType (p : RxMem) : Nat := 256 * (p 1).toNat + (p 2).toNat

def frameLen (p : RxMem) : Nat := 256 * (p 3).toNat + (p 4).toNat

/-- The start flag, room for the frame in the buffer, and the end flag behind the payload. -/
def FrameAccepted (p : RxMem) : Prop :=
  p 0 = 0x55 ∧ frameLen p + 7 < 64 ∧ p (frameLen p + 6) = 0xAA

instance (p : RxMem) : Decidable (FrameAccepted p) := inferInstanceAs (Decidable (_ ∧ _ ∧ _))

/-- The error of a frame that is not accepted. -/
def frameError (p : RxMem) : UInt8 :=
  if p 0 ≠ 0x55 then zbhciMsgStatusErrorStartChar
  else if 64 ≤ frameLen p + 7 then zbhciMsgStatusMsgOverflow
  else zbhciMsgStatusErrorEndChar

/-- The type that an error is reported for, unknown when the frame has no header or no end. -/
def frameErrorType (p : RxMem) : List UInt8 :=
  if frameError p = zbhciMsgStatusErrorEndChar then [p 1, p 2] else [0xff, 0xff]

/-- The calls of a handler: the command of an accepted frame, or else one acknowledge with the
error, and the buffer is freed once.
-/
def FrameHandled (p : RxMem) (calls : List HciCall) : Prop :=
  if FrameAccepted p then
    calls
      = [.hciTestCmdHandler (UInt16.ofNat (frameType p)) (UInt16.ofNat (frameLen p))
          ((List.range (frameLen p)).map fun (i : Nat) => p (6 + (i : Int))), .evBufFree]
  else
    calls = [.zbhciTx zbhciCmdAcknowledge (frameErrorType p ++ [frameError p, 0]), .evBufFree]

variable {p : RxMem}

theorem be16_shift (high low : UInt8)
    : high.toNat <<< 8 ||| low.toNat = 256 * high.toNat + low.toNat := by
  rw [← Nat.shiftLeft_add_eq_or_of_lt low.toNat_lt, Nat.shiftLeft_eq]
  omega

theorem frameLen_lt (p : RxMem) : frameLen p < 65536 := by
  have high := (p 3).toNat_lt
  have low := (p 4).toNat_lt
  unfold frameLen
  omega

theorem pktLen_toNat (p : RxMem) : (UInt16.ofNat (frameLen p)).toNat = frameLen p :=
  UInt16.toNat_ofNat_of_lt' (frameLen_lt p)

/-- Where the handler looks for the end flag. -/
def endCharOffset (p : RxMem) : Int := ((frameLen p + 7) % 256 : Nat) - 1

theorem handler_len (p : RxMem)
    : ((UInt8.ofNat (getRxPacketLen p + rxNdataLen)).toNat : Int) - 1 = endCharOffset p := by
  rw [getRxPacketLen, be16_shift, UInt8.toNat_ofNat']
  rfl

/-- The check of the length makes the cut harmless. -/
theorem endCharOffset_eq (short : frameLen p + 7 < 64) : endCharOffset p = frameLen p + 6 := by
  unfold endCharOffset
  omega

/-- The handler over the numbers in the header. -/
theorem usbcdcDataHandler_eq (p : RxMem)
    : usbcdcDataHandler p
      = { reads := [3, 4, endCharOffset p, 0, 1, 2]
          calls :=
            if FrameAccepted p then
              [.hciTestCmdHandler (UInt16.ofNat (frameType p)) (UInt16.ofNat (frameLen p))
                ((List.range (frameLen p)).map fun (i : Nat) => p (6 + (i : Int))), .evBufFree]
            else
              [.zbhciTx zbhciCmdAcknowledge (frameErrorType p ++ [frameError p, 0]), .evBufFree] }
    := by
  have type : (p 1).toNat <<< 8 + (p 2).toNat = frameType p := by
    rw [Nat.shiftLeft_eq, frameType, Nat.mul_comm]
  have length : (p 3).toNat <<< 8 ||| (p 4).toNat = frameLen p := be16_shift _ _
  simp only [usbcdcDataHandler, handler_len, type, length, pktLen_toNat]
  by_cases start : p 0 = 0x55
  · by_cases short : frameLen p + 7 < 64
    · have trailer := endCharOffset_eq short
      have room : ¬57 ≤ frameLen p := by omega
      by_cases ended : p (frameLen p + 6) = 0xAA
      · simp +decide [FrameAccepted, start, short, trailer, ended]
      · simp +decide [FrameAccepted, frameErrorType, frameError, start, short, room, trailer, ended]
    · have long : 57 ≤ frameLen p := by omega
      simp +decide [FrameAccepted, frameErrorType, frameError, start, short, long]
  · simp +decide [FrameAccepted, frameErrorType, frameError, start]

-----------------------------------------------------------------------------------------
-- Frames of the transmitter
-----------------------------------------------------------------------------------------

/-- The buffer starts with these bytes. -/
def RxHolds (p : RxMem) (bytes : List UInt8) : Prop := ∀ i < bytes.length, p i = bytes.getD i 0

variable {u16Type : UInt16} {pu8Data : List UInt8}

theorem be16_split (x : UInt16) : 256 * (x >>> 8).toUInt8.toNat + x.toUInt8.toNat = x.toNat := by
  have bounded := x.toNat_lt
  rw [UInt16.toNat_toUInt8, UInt16.toNat_toUInt8, UInt16.toNat_shiftRight]
  simp [Nat.shiftRight_eq_div_pow]
  omega

/-- A built frame, with the payload and the end flag behind the header. -/
theorem usbCdcFrame_eq (fits : pu8Data.length < 65536)
    : usbCdcFrame u16Type (UInt16.ofNat pu8Data.length) pu8Data
      = [(0x55 : UInt8), (u16Type >>> 8).toUInt8, u16Type.toUInt8,
          (UInt16.ofNat pu8Data.length >>> 8).toUInt8, (UInt16.ofNat pu8Data.length).toUInt8,
          crc8Calculate u16Type (UInt16.ofNat pu8Data.length) pu8Data]
        ++ (pu8Data ++ [0xAA]) := by
  have length : (UInt16.ofNat pu8Data.length).toNat = pu8Data.length :=
    UInt16.toNat_ofNat_of_lt' fits
  rw [usbCdcFrame, length, List.take_length, List.append_assoc]

/-- The handler finds in a built frame what has been put into it. -/
theorem frame_fields (short : pu8Data.length ≤ 56)
    (holds : RxHolds p (usbCdcFrame u16Type (UInt16.ofNat pu8Data.length) pu8Data))
    : FrameAccepted p ∧ frameType p = u16Type.toNat ∧ frameLen p = pu8Data.length
      ∧ (List.range pu8Data.length).map (fun (i : Nat) => p (6 + (i : Int))) = pu8Data := by
  have length : (UInt16.ofNat pu8Data.length).toNat = pu8Data.length :=
    UInt16.toNat_ofNat_of_lt' (show _ < 65536 by omega)
  rw [usbCdcFrame_eq (by omega)] at holds
  have byte : ∀ i < pu8Data.length + 7, p i
      = ([(0x55 : UInt8), (u16Type >>> 8).toUInt8, u16Type.toUInt8,
          (UInt16.ofNat pu8Data.length >>> 8).toUInt8, (UInt16.ofNat pu8Data.length).toUInt8,
          crc8Calculate u16Type (UInt16.ofNat pu8Data.length) pu8Data]
        ++ (pu8Data ++ [0xAA])).getD i 0 := by
    intro i inside
    apply holds i
    simp
    omega
  have behind : ∀ i ≤ pu8Data.length, p (6 + (i : Int)) = (pu8Data ++ [0xAA]).getD i 0 := by
    intro i inside
    have found := byte (6 + i) (by omega)
    rw [List.getD_append_right _ _ _ _ (by simp)] at found
    simpa using found
  have type : frameType p = u16Type.toNat := by
    have high : p 1 = (u16Type >>> 8).toUInt8 := byte 1 (by omega)
    have low : p 2 = u16Type.toUInt8 := byte 2 (by omega)
    rw [frameType, high, low, be16_split]
  have len : frameLen p = pu8Data.length := by
    have high : p 3 = (UInt16.ofNat pu8Data.length >>> 8).toUInt8 := byte 3 (by omega)
    have low : p 4 = (UInt16.ofNat pu8Data.length).toUInt8 := byte 4 (by omega)
    rw [frameLen, high, low, be16_split, length]
  refine ⟨⟨?_, by omega, ?_⟩, type, len, ?_⟩
  · simpa using byte 0 (by omega)
  · have last := behind pu8Data.length (Nat.le_refl _)
    rw [List.getD_append_right _ _ _ _ (Nat.le_refl _)] at last
    rw [len, Int.add_comm]
    simpa using last
  · apply List.ext_getElem
    · simp
    · intro i counted inside
      rw [List.getElem_map, List.getElem_range, behind i (by omega),
        List.getD_append _ _ _ _ inside, List.getD_eq_getElem _ _ inside]

-----------------------------------------------------------------------------------------
-- The contract
-----------------------------------------------------------------------------------------

/-- Only bytes of the buffer are read, and the frame is handled. -/
structure FrameContract (p : RxMem) : Prop where
  reads : ∀ i ∈ (usbcdcDataHandler p).reads, 0 ≤ i ∧ i < rxBufLen
  handled : FrameHandled p (usbcdcDataHandler p).calls

theorem frameContract_iff (p : RxMem)
    : FrameContract p ↔ 1 ≤ (frameLen p + 7) % 256 ∧ (frameLen p + 7) % 256 ≤ 64 := by
  have handled : FrameHandled p (usbcdcDataHandler p).calls := by
    rw [usbcdcDataHandler_eq, FrameHandled]
    split <;> rfl
  have reads : (usbcdcDataHandler p).reads = [3, 4, endCharOffset p, 0, 1, 2] := by
    rw [usbcdcDataHandler_eq]
  constructor
  · intro contract
    have offset := contract.reads (endCharOffset p) (by simp [reads])
    simp only [endCharOffset, rxBufLen] at offset
    omega
  · intro within
    refine ⟨fun i member => ?_, handled⟩
    rw [reads] at member
    simp only [List.mem_cons, List.not_mem_nil, or_false, endCharOffset] at member
    simp only [rxBufLen]
    omega

/-- The handler keeps to the buffer in exactly the cases where the length of the whole frame, cut to
a byte, does. It always accepts what it should, and what the transmitter builds in particular.
-/
theorem usbcdcDataHandler_contract_iff (p : RxMem) (u16Type : UInt16) (pu8Data : List UInt8)
    : FrameHandled p (usbcdcDataHandler p).calls
      ∧ (FrameContract p ↔ 1 ≤ (frameLen p + 7) % 256 ∧ (frameLen p + 7) % 256 ≤ 64)
      ∧ (pu8Data.length ≤ 56
        → RxHolds p (usbCdcFrame u16Type (UInt16.ofNat pu8Data.length) pu8Data)
        → FrameContract p
          ∧ (usbcdcDataHandler p).calls
            = [.hciTestCmdHandler u16Type (UInt16.ofNat pu8Data.length) pu8Data, .evBufFree]) := by
  refine ⟨?_, frameContract_iff p, fun short holds => ?_⟩
  · rw [usbcdcDataHandler_eq, FrameHandled]
    split <;> rfl
  · obtain ⟨accepted, type, len, payload⟩ := frame_fields short holds
    refine ⟨(frameContract_iff p).mpr (by omega), ?_⟩
    rw [usbcdcDataHandler_eq, type, len, payload, UInt16.ofNat_toNat]
    exact if_pos accepted

/-- A length of 58, where the end flag would be the first byte behind the buffer, and a length of
249, where the cut leaves the byte in front of it.
-/
theorem usbcdcDataHandler_reads_outside
    : 64 ∈ (usbcdcDataHandler fun i => if i = 4 then 58 else 0).reads
      ∧ -1 ∈ (usbcdcDataHandler fun i => if i = 4 then 249 else 0).reads
      ∧ ¬FrameContract (fun i => if i = 4 then 58 else 0) := by
  refine ⟨by decide, by decide, fun contract => ?_⟩
  exact absurd (contract.reads 64 (by decide)) (by decide)

end TelinkSdk.ZbhciUsbCdc
