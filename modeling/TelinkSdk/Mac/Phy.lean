import TelinkSdk.Links.Ram

/-! The transceiver of `mac_phy.c` over the radio interfaces of `drv_radio.h`. The channel, the
gain, the transmit power and the waits do not bear on the buffers and are left out.
-/

namespace TelinkSdk

open Nor Links

-----------------------------------------------------------------------------------------
-- The radio interface of a chip
-----------------------------------------------------------------------------------------

/-- `RF_MODE_TX`, `RF_MODE_RX` and `RF_MODE_OFF`. -/
inductive RfMode where
  | tx
  | rx
  | off
  deriving DecidableEq, Repr

/-- `RF_STATE_TX` and the other transceiver states. -/
inductive RfState where
  | tx
  | rx
  | ed
  | off
  deriving DecidableEq, Repr

-- `RF_PKT_BUFF_LEN`
abbrev rfPktBuffLen : Nat := 144

/-- The macros of `drv_radio.h` that one chip defines for the receive path. A register value of
the receive DMA stands for an address of the RAM, where the DMA stores a frame.
-/
structure RadioPort where
  -- whether `RF_DMA_BUSY` looks at the radio at all
  dmaBusy : Bool → Bool
  -- the RAM that buffers lie in
  ramStart : Nat
  ramEnd : Nat
  -- what `ZB_RADIO_RX_BUF_SET` stores for a buffer, and the address that this value stands for
  rxBufReg : Nat → Nat
  rxTarget : Nat → Nat
  -- the bytes of a buffer before the ones that the DMA stores
  rxSkip : Nat
  -- the bytes that `ZB_RADIO_RX_BUF_CLEAR` zeroes
  rxBufClear : List Nat
  rxHdrLen : Nat
  crcOk : Ram → Nat → Bool
  lengthOk : Ram → Nat → Bool
  payloadLen : Ram → Nat → UInt8
  timestamp : Ram → Nat → Nat
  rssi : Ram → Nat → UInt8
  -- the header that `ZB_RADIO_DMA_HDR_BUILD` puts before a frame
  dmaHdrBuild : UInt8 → List UInt8
  rxTarget_rxBufReg : ∀ b, ramStart ≤ b → b + rfPktBuffLen ≤ ramEnd
    → rxTarget (rxBufReg b) = b + rxSkip
  ramStart_pos : 0 < ramStart
  rxBufClear_inside : ∀ i ∈ rxBufClear, i < rfPktBuffLen
  rxHdrLen_inside : rxHdrLen < rfPktBuffLen

-- `(p[p[0]+3] & 0x51) == 0x10`, the check of the 826x, the 8258 and the 8278
def rfPacketCrcOk (ram : Ram) (p : Nat) : Bool :=
  ram (p + ((ram p).toNat + 3)) &&& 0x51 == 0x10

def radio826x : RadioPort where
  dmaBusy _ := false
  ramStart := 0x808000
  ramEnd := 0x810000
  rxBufReg b := b % 65536
  rxTarget reg := 0x800000 + reg
  rxSkip := 0
  rxBufClear := [12, 0, 1, 2, 3]
  rxHdrLen := 13
  crcOk := rfPacketCrcOk
  lengthOk ram p :=
    (ram p).toNat == (ram (p + 12)).toNat + 13 && decide ((ram p).toNat ≤ 127 + 13)
  payloadLen ram p := ram (p + 12)
  timestamp ram p := ram.le32 (p + 8)
  rssi ram p := ram (p + 4)
  dmaHdrBuild len := [len + 1, 0, 0, 0]
  rxTarget_rxBufReg b start inside := by simp only [rfPktBuffLen] at inside; omega
  ramStart_pos := by decide
  rxBufClear_inside := by decide
  rxHdrLen_inside := by decide

/-- The 8258 and the 8278 define the same macros. -/
def radio82x8 : RadioPort where
  dmaBusy busy := busy
  ramStart := 0x840000
  ramEnd := 0x850000
  rxBufReg b := b % 65536
  rxTarget reg := 0x840000 + reg
  rxSkip := 0
  rxBufClear := [0, 4]
  rxHdrLen := 5
  crcOk := rfPacketCrcOk
  lengthOk ram p := (ram p).toNat == (ram (p + 4)).toNat + 9
  payloadLen ram p := ram (p + 4)
  timestamp ram p := ram.le32 (p + ((ram p).toNat - 4))
  rssi ram p := ram (p + ((ram p).toNat + 2))
  dmaHdrBuild len := [len + 1, 0, 0, 0]
  rxTarget_rxBufReg b start inside := by simp only [rfPktBuffLen] at inside; omega
  ramStart_pos := by decide
  rxBufClear_inside := by decide
  rxHdrLen_inside := by decide

-- `convert_ram_addr_cpu2bus`
def convertRamAddrCpu2bus (addr : Nat) : Nat :=
  if addr < 0xa0000 then addr + 0xc0180000 else addr

-- `rf_tx_packet_dma_len`
def rfTxPacketDmaLen (rfDataLen : Nat) : Nat := ((rfDataLen + 3) / 4) ||| ((rfDataLen % 4) <<< 22)

/-- The DMA of the B91 leaves the first four bytes of a buffer alone. Its timestamp is the
disjunction of four bytes, as the macro has it.
-/
def radioB91 : RadioPort where
  dmaBusy busy := busy
  ramStart := 0x80000
  ramEnd := 0xa0000
  rxBufReg b := convertRamAddrCpu2bus (b + 4)
  rxTarget reg := reg - 0xc0180000
  rxSkip := 4
  rxBufClear := [0, 4]
  rxHdrLen := 5
  crcOk ram p := ram (p + ((ram (p + 4)).toNat + 9 + 3)) &&& 0x51 == 0x0
  lengthOk _ _ := true
  payloadLen ram p := ram (p + 4)
  timestamp ram p :=
    let offset := p + ((ram (p + 4)).toNat + 5)
    (ram offset ||| ram (offset + 1) ||| ram (offset + 2) ||| ram (offset + 3)).toNat
  rssi ram p := ram (p + ((ram (p + 4)).toNat + 11))
  dmaHdrBuild len := bytes32 (rfTxPacketDmaLen (len.toNat + 1))
  rxTarget_rxBufReg b start inside := by
    simp only [rfPktBuffLen] at inside
    rw [convertRamAddrCpu2bus, if_pos (by omega), Nat.add_sub_cancel]
  ramStart_pos := by decide
  rxBufClear_inside := by decide
  rxHdrLen_inside := by decide

-----------------------------------------------------------------------------------------
-- The transceiver
-----------------------------------------------------------------------------------------

/-- The arguments of a call of `zb_macDataRecvHandler`. -/
structure RxHandover where
  rxBuf : Nat
  data : Nat
  len : UInt8
  ackPkt : UInt8
  timestamp : Nat
  rssi : UInt8
  deriving DecidableEq, Repr

/-- The globals of `mac_phy.c` and the registers that it sets. The frames that the MAC layer got
and has not given back are `held`, and `sent` are the buffers given to `ZB_RADIO_TX_START`.
-/
structure PhySys where
  rxBuf : Nat := 0
  rfMode : RfState := .tx
  busyFlag : UInt8 := 0
  ackBuf : List UInt8 := List.replicate 12 0
  paEn : Bool := false
  macRxIrqCnt : UInt8 := 0
  macRxCrcFail : UInt32 := 0
  phyToMacQueueLimitReached : UInt16 := 0
  ram : Ram
  rxEnabled : Bool := false
  dmaReg : Nat := 0
  irqEnabled : Bool := false
  mode : RfMode := .off
  paTxen : Bool := false
  paRxen : Bool := false
  sent : List (List UInt8) := []
  held : List RxHandover := []

-- `TX_BUSY`
abbrev txBusy : UInt8 := 0x02

/-- `ZB_SWITCH_TO_TXMODE`. -/
def PhySys.switchToTxMode (s : PhySys) : PhySys :=
  let s := if s.paEn then { s with paTxen := true, paRxen := false } else s
  { s with mode := .tx }

/-- `ZB_SWITCH_TO_RXMODE`. -/
def PhySys.switchToRxMode (s : PhySys) : PhySys :=
  let s := if s.paEn then { s with paTxen := false, paRxen := true } else s
  { s with mode := .rx }

/-- `rf_paShutDown`. -/
def PhySys.rfPaShutDown (s : PhySys) : PhySys :=
  if s.paEn then { s with paTxen := false, paRxen := false } else s

/-- `rf_setTrxState`. -/
def rfSetTrxState (s : PhySys) : RfState → PhySys
  | .rx | .ed => { s.switchToRxMode with rfMode := .rx }
  | .tx => { s.switchToTxMode with rfMode := .tx }
  | .off => { s.rfPaShutDown with mode := .off, rfMode := .off }

/-- `ZB_RADIO_RX_BUF_CLEAR` of `rf_rxBuf`. -/
def PhySys.rxBufClear (port : RadioPort) (s : PhySys) : PhySys :=
  { s with ram := fun x => if x ∈ port.rxBufClear.map (s.rxBuf + ·) then 0 else s.ram x }

/-- `ZB_RADIO_RX_BUF_SET` of `rf_rxBuf`. -/
def PhySys.rxBufSet (port : RadioPort) (s : PhySys) : PhySys :=
  { s with dmaReg := port.rxBufReg s.rxBuf }

/-- `rf_setRxBuf`. -/
def rfSetRxBuf (port : RadioPort) (s : PhySys) (pBuf : Nat) : PhySys :=
  ({ s with rxBuf := pBuf }.rxBufClear port).rxBufSet port

/-- `rf_reset`, for which `tl_getRxBuf` returns `got`. -/
def rfReset (port : RadioPort) (s : PhySys) (got : Nat) : PhySys :=
  let s := rfSetTrxState s .tx
  let s := if s.rxBuf ≠ 0 then rfSetRxBuf port s s.rxBuf else rfSetRxBuf port s got
  { s with irqEnabled := true, rxEnabled := true }

/-- `rf_init`, which also builds the acknowledgement. -/
def rfInit (port : RadioPort) (s : PhySys) (got : Nat) : PhySys :=
  { rfReset port s got with ackBuf := port.dmaHdrBuild 3 ++ [5, 0x02, 0, 0, 0, 0, 0, 0] }

/-- `rf802154_tx`. -/
def rf802154Tx (s : PhySys) (txBuf : List UInt8) : PhySys :=
  let s := rfSetTrxState s .tx
  { s with sent := s.sent ++ [txBuf] }

/-- `rf_tx_irq_handler`. -/
def rfTxIrqHandler (s : PhySys) : PhySys :=
  { s with busyFlag := s.busyFlag &&& ~~~txBusy, rfMode := .rx }.switchToRxMode

-----------------------------------------------------------------------------------------
-- The receive interrupt
-----------------------------------------------------------------------------------------

/-- The binary library's `tl_zbMacHdrSize` and `mac_getAuxSecurityHeaderLen`, and whether the
stack is built for a coordinator or a router.
-/
structure MacBuild where
  tlZbMacHdrSize : UInt16 → UInt8
  macGetAuxSecurityHeaderLen : UInt8 → UInt8
  coordinatorOrRouter : Bool

/-- What one receive interrupt finds: the bytes that the DMA stored for it, the radio's busy
state, `rf_busyFlag`, what `zb_macDataFilter` reports and returns, the result of `tl_getRxBuf`
and whether `tl_zbMacPendingDataCheck` succeeds.
-/
structure RxEvent where
  received : List UInt8
  dmaBusy : Bool := false
  busyFlag : UInt8 := 0
  fDrop : UInt8 := 0
  fAck : UInt8 := 0
  pSrcAddr : Nat := 0
  rxNextBuf : Nat
  pendingData : UInt8 → Nat → Bool := fun _ _ => false

/-- `macPld[0] & MAC_FCF_ACK_REQ_BIT`. -/
def ackRequested (ram : Ram) (macPld : Nat) : Bool := ram macPld &&& 0x20 != 0

/-- The source address mode that the frame pending test reads out of the frame control field. -/
def rxSrcAddrMode (ram : Ram) (macPld : Nat) : UInt8 :=
  if ram (macPld + 1) &&& 0xc0 = 0x80 then 2
  else if ram (macPld + 1) &&& 0xc0 = 0xc0 then 3
  else 0

/-- `cmdDataReq`: the frame is a command frame with a data request. -/
def rxDataRequest (build : MacBuild) (ram : Ram) (macPld : Nat) : Bool :=
  let fcf : UInt16 := (ram (macPld + 1)).toUInt16 <<< 8 ||| (ram macPld).toUInt16
  let pldOft := build.tlZbMacHdrSize fcf
  let pldOft :=
    if fcf &&& 0x0008 ≠ 0 then
      pldOft + build.macGetAuxSecurityHeaderLen ((ram (macPld + pldOft.toNat) &&& 0x18) >>> 3)
    else pldOft
  fcf &&& 0x0007 == 3 && ram (macPld + pldOft.toNat) == 4

/-- The frame control byte of the acknowledgement, with the frame pending bit. -/
def ackFrameControl (build : MacBuild) (event : RxEvent) (ram : Ram) (macPld : Nat) : UInt8 :=
  let srcAddrMode := rxSrcAddrMode ram macPld
  if build.coordinatorOrRouter ∧ rxDataRequest build ram macPld ∧ srcAddrMode ≠ 0
      ∧ event.pendingData srcAddrMode event.pSrcAddr then
    0x02 ||| 0x10
  else 0x02

/-- The acknowledgement is sent with the radio's interrupts masked, and the radio goes back to
receiving.
-/
def PhySys.sendAck (build : MacBuild) (event : RxEvent) (macPld : Nat) (s : PhySys) : PhySys :=
  let ackBuf := (s.ackBuf.set 7 (s.ram (macPld + 2))).set 5 (ackFrameControl build event s.ram macPld)
  let s := { s with ackBuf, irqEnabled := false }
  let s := { s with sent := s.sent ++ [s.ackBuf] }
  { s with irqEnabled := true }.switchToRxMode

/-- A frame is dropped: its buffer goes back to the DMA. -/
def PhySys.dropFrame (port : RadioPort) (s : PhySys) : PhySys :=
  { s.rxBufClear port with rxEnabled := true }

/-- Without a next buffer the handler drops the frame, and the radio leaves TX again. -/
def PhySys.dropForBuffers (port : RadioPort) (macPld : Nat) (s : PhySys) : PhySys :=
  let s := if ackRequested s.ram macPld then s.switchToRxMode else s
  { s with phyToMacQueueLimitReached := s.phyToMacQueueLimitReached + 1 }.dropFrame port

/-- The handler's way with a next buffer: the DMA gets it, the frame is acknowledged, and the
MAC layer gets the buffer `p` that the frame lies in.
-/
def PhySys.handOver (port : RadioPort) (build : MacBuild) (event : RxEvent) (p macPld : Nat)
    (len : UInt8) (s : PhySys)
    : PhySys :=
  let s := ({ s with rxBuf := event.rxNextBuf }.rxBufClear port).rxBufSet port
  let s := if ackRequested s.ram macPld then s.sendAck build event macPld else s
  let s := { s with rxEnabled := true }
  { s with held := s.held ++ [{
      rxBuf := p, data := macPld, len, ackPkt := event.fAck
      timestamp := port.timestamp s.ram p, rssi := port.rssi s.ram p - 110 }] }

/-- `rf_rx_irq_handler`. -/
def rfRxIrqHandler (port : RadioPort) (build : MacBuild) (event : RxEvent) (s : PhySys)
    : PhySys :=
  let p := s.rxBuf
  if port.dmaBusy event.dmaBusy then s
  else
    let s := { s with rxEnabled := false, macRxIrqCnt := s.macRxIrqCnt + 1 }
    if !port.crcOk s.ram p || !port.lengthOk s.ram p || s.busyFlag &&& txBusy != 0 then
      { s with macRxCrcFail := s.macRxCrcFail + 1 }.dropFrame port
    else
      let len := port.payloadLen s.ram p
      let macPld := p + port.rxHdrLen
      if event.fDrop ≠ 0 then s.dropFrame port
      else
        -- the radio goes to TX in advance, so that the PLL is stable
        let s := if ackRequested s.ram macPld then s.switchToTxMode else s
        if event.rxNextBuf = 0 then s.dropForBuffers port macPld
        else s.handOver port build event p macPld len

/-- The DMA stores the bytes of a frame where its register points, and the interrupt follows. -/
def PhySys.receive (port : RadioPort) (event : RxEvent) (s : PhySys) : PhySys :=
  { s with
    busyFlag := event.busyFlag
    ram := fun x =>
      if port.rxTarget s.dmaReg ≤ x ∧ x < port.rxTarget s.dmaReg + event.received.length
      then event.received.getD (x - port.rxTarget s.dmaReg) 0 else s.ram x }

end TelinkSdk
