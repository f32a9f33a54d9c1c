import TelinkSdk.Mac.RxOwnership

/-! What `mac_phy.c` puts on the air. Two buffers are given to the radio: `rf_tx_buf`, which
`rf802154_tx_ready` fills, and `rf_ack_buf`, which is built once and patched in the receive
interrupt. The radio sends what the header of a buffer counts.
-/

namespace TelinkSdk

open Nor Links

-----------------------------------------------------------------------------------------
-- The radio's side
-----------------------------------------------------------------------------------------

/-- A chip with what its transmit DMA makes of a header: the number of bytes behind it that
`ZB_RADIO_TX_START` sends.
-/
structure TxRadio where
  port : RadioPort
  dmaCount : List UInt8 → Nat
  header : ∀ len, (port.dmaHdrBuild len).length = 4
  counts : ∀ len : UInt8, len.toNat < 255 → dmaCount (port.dmaHdrBuild len) = len.toNat + 1

/-- What the radio sends for a buffer, before the checksum that it appends itself. -/
def TxRadio.onAir (radio : TxRadio) (buf : List UInt8) : List UInt8 :=
  (buf.drop 4).take (radio.dmaCount (buf.take 4))

/-- The first byte on the air is the length of the frame with its checksum. -/
def phyFrame (mpdu : List UInt8) : List UInt8 := (mpdu.length + 2).toUInt8 :: mpdu

/-- The DMA of the 826x and the 8258 counts bytes in the first byte of the header. -/
def txRadio82x8 : TxRadio where
  port := radio82x8
  dmaCount header := (header.headD 0).toNat
  header _ := rfl
  counts len small := by
    change (len + 1).toNat = _
    rw [UInt8.toNat_add]
    exact Nat.mod_eq_of_lt (by simpa using Nat.succ_lt_succ small)

-----------------------------------------------------------------------------------------
-- The two buffers
-----------------------------------------------------------------------------------------

-- the bytes of `rf_tx_buf` behind its header, `ZB_RADIO_TX_HDR_LEN` being 5
abbrev rfTxBufLen : Nat := 127

/-- `rf802154_tx_ready`: the header, the length and a copy of the frame. The rest of the buffer
keeps what it held.
-/
def rf802154TxReady (port : RadioPort) (txBuf buf : List UInt8) : List UInt8 :=
  let len := buf.length.toUInt8
  port.dmaHdrBuild len ++ [len + 2] ++ buf ++ txBuf.drop (5 + buf.length)

/-- The transceiver with `rf_tx_buf`. -/
structure AirPhy where
  phy : PhySys
  txBuf : List UInt8 := List.replicate 132 0

/-- `rf_ack_buf` after its build, but for the two bytes that every acknowledgement sets. -/
def AckBuilt (radio : TxRadio) (ackBuf : List UInt8) : Prop :=
  ∃ control seq, ackBuf = radio.port.dmaHdrBuild 3 ++ [5, control, 0, seq, 0, 0, 0, 0]

section Buffers

variable {radio : TxRadio} {buf txBuf : List UInt8}

theorem onAir_header (radio : TxRadio) {len : UInt8} (small : len.toNat < 255)
    (rest : List UInt8)
    : radio.onAir (radio.port.dmaHdrBuild len ++ rest) = rest.take (len.toNat + 1) := by
  have header := radio.header len
  rw [TxRadio.onAir, ← header, List.drop_left, List.take_left, radio.counts len small]

/-- A frame that fits the buffer goes out as it is, whatever the buffer held before. -/
theorem onAir_txReady (fits : buf.length ≤ rfTxBufLen)
    : radio.onAir (rf802154TxReady radio.port txBuf buf) = phyFrame buf := by
  have len : buf.length.toUInt8.toNat = buf.length :=
    UInt8.toNat_ofNat_of_lt (Nat.lt_of_le_of_lt fits (by decide))
  rw [rf802154TxReady, List.append_assoc, List.append_assoc,
    onAir_header radio (by rw [len]; exact Nat.lt_of_le_of_lt fits (by decide)), len,
    List.singleton_append, List.take_succ_cons, List.take_left, phyFrame]
  congr 1
  simp

/-- The patched buffer is the acknowledgement with these two bytes. -/
theorem AckBuilt.patch {ackBuf : List UInt8} (built : AckBuilt radio ackBuf) (control seq : UInt8)
    : (ackBuf.set 7 seq).set 5 control
      = radio.port.dmaHdrBuild 3 ++ [5, control, 0, seq, 0, 0, 0, 0] := by
  obtain ⟨_, _, rfl⟩ := built
  have header := radio.header 3
  rw [List.set_append_right _ _ (by omega), List.set_append_right _ _ (by omega), header]
  rfl

theorem onAir_ack (radio : TxRadio) (control seq : UInt8)
    : radio.onAir (radio.port.dmaHdrBuild 3 ++ [5, control, 0, seq, 0, 0, 0, 0])
      = phyFrame [control, 0, seq] :=
  onAir_header radio (by decide) _

end Buffers

-----------------------------------------------------------------------------------------
-- One acknowledgement
-----------------------------------------------------------------------------------------

instance (port : RadioPort) (event : RxEvent) (s : PhySys) : Decidable (event.Passes port s) :=
  decidable_of_iff (port.crcOk s.ram s.rxBuf = true ∧ port.lengthOk s.ram s.rxBuf = true
      ∧ s.busyFlag &&& txBusy = 0 ∧ event.fDrop = 0)
    ⟨fun ⟨crc, length, idle, filter⟩ => ⟨crc, length, idle, filter⟩,
      fun passes => ⟨passes.crc, passes.length, passes.idle, passes.filter⟩⟩

instance (port : RadioPort) (s : PhySys) : Decidable (RequestsAck port s) :=
  inferInstanceAs (Decidable (_ = true))

/-- The interrupt takes the frame in and has to answer it. -/
def SendsAck (port : RadioPort) (event : RxEvent) (s : PhySys) : Prop :=
  port.dmaBusy event.dmaBusy = false ∧ event.Passes port s ∧ event.rxNextBuf ≠ 0
    ∧ RequestsAck port s

instance (port : RadioPort) (event : RxEvent) (s : PhySys) : Decidable (SendsAck port event s) :=
  inferInstanceAs (Decidable (_ ∧ _))

/-- The acknowledgement of the frame in `rf_rxBuf`: its sequence number, and whether data is
pending for the sender.
-/
def acknowledgement (port : RadioPort) (build : MacBuild) (event : RxEvent) (s : PhySys)
    : List UInt8 :=
  let macPld := s.rxBuf + port.rxHdrLen
  [ackFrameControl build event s.ram macPld, 0, s.ram (macPld + 2)]

/-- What an interrupt should put on the air. -/
def answers (port : RadioPort) (build : MacBuild) (event : RxEvent) (s : PhySys)
    : List (List UInt8) :=
  if SendsAck port event s then [acknowledgement port build event s] else []

/-- The headers that the library measures end inside a receive buffer, with a byte behind them. -/
structure ShortHeaders (build : MacBuild) (port : RadioPort) : Prop where
  control : port.rxHdrLen + 2 < rfPktBuffLen
  header : ∀ fcf, port.rxHdrLen + (build.tlZbMacHdrSize fcf).toNat < rfPktBuffLen
  secured : ∀ fcf mode, port.rxHdrLen
    + (build.tlZbMacHdrSize fcf + build.macGetAuxSecurityHeaderLen mode).toNat < rfPktBuffLen

section Answer

variable {radio : TxRadio} {port : RadioPort} {build : MacBuild} {event : RxEvent} {s t : PhySys}

/-- The frame pending bit only depends on the frame's own buffer. -/
theorem ackFrameControl_congr (short : ShortHeaders build port) {ram ram' : Ram} {rxBuf : Nat}
    (same : ∀ i < rfPktBuffLen, ram' (rxBuf + i) = ram (rxBuf + i))
    : ackFrameControl build event ram' (rxBuf + port.rxHdrLen)
      = ackFrameControl build event ram (rxBuf + port.rxHdrLen) := by
  have byte (i : Nat) (inside : port.rxHdrLen + i < rfPktBuffLen)
      : ram' (rxBuf + port.rxHdrLen + i) = ram (rxBuf + port.rxHdrLen + i) := by
    rw [Nat.add_assoc]
    exact same _ inside
  have control := short.control
  have first : ram' (rxBuf + port.rxHdrLen) = ram (rxBuf + port.rxHdrLen) :=
    byte 0 (by omega)
  have second := byte 1 (by omega)
  have request : rxDataRequest build ram' (rxBuf + port.rxHdrLen)
      = rxDataRequest build ram (rxBuf + port.rxHdrLen) := by
    simp only [rxDataRequest, first, second]
    split
    · rw [byte _ (short.header _), byte _ (short.secured _ _)]
    · rw [byte _ (short.header _)]
  have mode : rxSrcAddrMode ram' (rxBuf + port.rxHdrLen)
      = rxSrcAddrMode ram (rxBuf + port.rxHdrLen) := by
    simp only [rxSrcAddrMode, second]
  unfold ackFrameControl
  simp only [mode, request]

theorem switchToTxMode_air (s : PhySys)
    : s.switchToTxMode.sent = s.sent ∧ s.switchToTxMode.ackBuf = s.ackBuf := by
  unfold PhySys.switchToTxMode
  cases s.paEn <;> exact ⟨rfl, rfl⟩

theorem switchToRxMode_air (s : PhySys)
    : s.switchToRxMode.sent = s.sent ∧ s.switchToRxMode.ackBuf = s.ackBuf := by
  unfold PhySys.switchToRxMode
  cases s.paEn <;> exact ⟨rfl, rfl⟩

/-- Nothing is sent, and the acknowledgement is as it was. -/
def Quiet (before after : PhySys) : Prop :=
  after.sent = before.sent ∧ after.ackBuf = before.ackBuf

theorem Quiet.trans {u : PhySys} (first : Quiet s t) (second : Quiet t u) : Quiet s u :=
  ⟨second.1.trans first.1, second.2.trans first.2⟩

/-- The state in which the handler asks for the next buffer. -/
def PhySys.taking (port : RadioPort) (s : PhySys) : PhySys :=
  let entered := { s with rxEnabled := false, macRxIrqCnt := s.macRxIrqCnt + 1 }
  if ackRequested s.ram (s.rxBuf + port.rxHdrLen) then entered.switchToTxMode else entered

/-- The DMA has got the next buffer. -/
def PhySys.swapped (port : RadioPort) (event : RxEvent) (s : PhySys) : PhySys :=
  ({ s with rxBuf := event.rxNextBuf }.rxBufClear port).rxBufSet port

theorem taking_quiet (port : RadioPort) (s : PhySys) : Quiet s (s.taking port) := by
  unfold PhySys.taking
  split
  · exact switchToTxMode_air _
  · exact ⟨rfl, rfl⟩

theorem taking_ram (port : RadioPort) (s : PhySys) : (s.taking port).ram = s.ram := by
  unfold PhySys.taking
  split
  · exact (switchToTxMode_buffers _).ram
  · rfl

theorem rfRxIrqHandler_taking (ready : port.dmaBusy event.dmaBusy = false)
    (passes : event.Passes port s)
    : rfRxIrqHandler port build event s
      = if event.rxNextBuf = 0 then (s.taking port).dropForBuffers port (s.rxBuf + port.rxHdrLen)
        else (s.taking port).handOver port build event s.rxBuf (s.rxBuf + port.rxHdrLen)
          (port.payloadLen s.ram s.rxBuf) := by
  unfold rfRxIrqHandler PhySys.taking
  simp only [ready, passes.checks, passes.filter, Bool.false_eq_true, if_false, ne_eq, not_true]

/-- The answer is built when the next buffer has been cleared, which leaves the frame alone. -/
theorem swapped_frame (apart : BuffersApart event.rxNextBuf s.rxBuf) {i : Nat}
    (inside : i < rfPktBuffLen)
    : ((s.taking port).swapped port event).ram (s.rxBuf + i) = s.ram (s.rxBuf + i) := by
  have kept := rxBufClear_outside port { s.taking port with rxBuf := event.rxNextBuf } apart inside
  exact kept.trans (congrFun (taking_ram port s) _)

theorem handOver_eq (macPld p : Nat) (len : UInt8) (t : PhySys)
    : ∃ held, t.handOver port build event p macPld len
      = { (if ackRequested (t.swapped port event).ram macPld then
            (t.swapped port event).sendAck build event macPld
          else t.swapped port event) with
          rxEnabled := true, held } :=
  ⟨_, rfl⟩

/-- The frame asks for an answer just as much when its buffer is about to be handed over. -/
theorem swapped_asks (apart : BuffersApart event.rxNextBuf s.rxBuf)
    : ackRequested ((s.taking port).swapped port event).ram (s.rxBuf + port.rxHdrLen)
      = ackRequested s.ram (s.rxBuf + port.rxHdrLen) :=
  congrArg (fun b : UInt8 => b &&& 0x20 != 0) (swapped_frame apart port.rxHdrLen_inside)

/-- A frame that is not taken in, or that wants no answer, gets none. -/
theorem rfRxIrqHandler_quiet (gets : GetsRxBuf port s event.rxNextBuf)
    (unanswered : ¬SendsAck port event s)
    : Quiet s (rfRxIrqHandler port build event s) := by
  by_cases busy : port.dmaBusy event.dmaBusy = true
  case pos =>
      unfold rfRxIrqHandler
      rw [if_pos busy]
      exact ⟨rfl, rfl⟩
  case neg =>
      have ready : port.dmaBusy event.dmaBusy = false := by simpa using busy
      by_cases passes : event.Passes port s
      case neg =>
          unfold rfRxIrqHandler
          simp only [ready, Bool.false_eq_true, if_false]
          split
          case isTrue => exact ⟨rfl, rfl⟩
          case isFalse checks =>
              split
              case isTrue => exact ⟨rfl, rfl⟩
              case isFalse kept =>
                  simp only [Bool.or_eq_true, Bool.not_eq_true', bne_iff_ne, not_or, ne_eq,
                    Bool.not_eq_false, Decidable.not_not] at checks kept
                  exact absurd ⟨checks.1.1, checks.1.2, checks.2, kept⟩ passes
      case pos =>
          rw [rfRxIrqHandler_taking ready passes]
          refine (taking_quiet port s).trans ?_
          split
          case isTrue =>
              unfold PhySys.dropForBuffers
              simp only
              split
              · exact switchToRxMode_air (s.taking port)
              · exact ⟨rfl, rfl⟩
          case isFalse supplied =>
              have silent : ¬ackRequested s.ram (s.rxBuf + port.rxHdrLen) = true := fun asks =>
                unanswered ⟨ready, passes, supplied, asks⟩
              have asks := @swapped_asks port event s (gets.resolve_left supplied).notDriver
              obtain ⟨held, handed⟩ := @handOver_eq port build event (s.rxBuf + port.rxHdrLen)
                s.rxBuf (port.payloadLen s.ram s.rxBuf) (s.taking port)
              rw [handed, asks, if_neg silent]
              exact ⟨rfl, rfl⟩

/-- A frame that is taken in and wants an answer gets its acknowledgement. -/
theorem rfRxIrqHandler_answers (gets : GetsRxBuf port s event.rxNextBuf)
    (answered : SendsAck port event s) (short : ShortHeaders build port)
    : (rfRxIrqHandler port build event s).ackBuf
        = (s.ackBuf.set 7 (s.ram (s.rxBuf + port.rxHdrLen + 2))).set 5
          (ackFrameControl build event s.ram (s.rxBuf + port.rxHdrLen))
      ∧ (rfRxIrqHandler port build event s).sent
        = s.sent ++ [(rfRxIrqHandler port build event s).ackBuf] := by
  obtain ⟨ready, passes, supplied, asked⟩ := answered
  replace asked : ackRequested s.ram (s.rxBuf + port.rxHdrLen) = true := asked
  have apart := (gets.resolve_left supplied).notDriver
  have asks := @swapped_asks port event s apart
  have frame := fun i => @swapped_frame port event s apart i
  have control := @ackFrameControl_congr port build event short _ _ s.rxBuf frame
  have seq := frame _ short.control
  have start := taking_quiet port s
  obtain ⟨held, handed⟩ := @handOver_eq port build event (s.rxBuf + port.rxHdrLen)
    s.rxBuf (port.payloadLen s.ram s.rxBuf) (s.taking port)
  rw [rfRxIrqHandler_taking ready passes, if_neg supplied, handed, asks, if_pos asked]
  have radio := switchToRxMode_air
  simp only [PhySys.sendAck, radio, control]
  rw [Nat.add_assoc, seq]
  have same : ((s.taking port).swapped port event).ackBuf = s.ackBuf := start.2
  have log : ((s.taking port).swapped port event).sent = s.sent := start.1
  rw [same, log]
  exact ⟨rfl, rfl⟩

end Answer

-----------------------------------------------------------------------------------------
-- Runs
-----------------------------------------------------------------------------------------

/-- The states of the driver with its frame buffer after `rf_init`, the frame that was made ready
last, and the log of what should have gone out: each frame that was ready when it was sent, and an
acknowledgement for each frame that was answered.
-/
inductive AirReaches (radio : TxRadio) (build : MacBuild) (boot : PhySys) (got : Nat)
    : AirPhy → Option (List UInt8) → List (List UInt8) → Prop where
  | init : AirReaches radio build boot got { phy := rfInit radio.port boot got } none []
  | txReady {s : AirPhy} {ready : Option (List UInt8)} {log : List (List UInt8)}
      (frame : List UInt8) (reaches : AirReaches radio build boot got s ready log)
      (fits : frame.length ≤ rfTxBufLen)
      : AirReaches radio build boot got
          { s with txBuf := rf802154TxReady radio.port s.txBuf frame } (some frame) log
  | tx {s : AirPhy} {frame : List UInt8} {log : List (List UInt8)}
      (reaches : AirReaches radio build boot got s (some frame) log)
      : AirReaches radio build boot got { s with phy := rf802154Tx s.phy s.txBuf } (some frame)
          (log ++ [frame])
  | rxIrq {s : AirPhy} {ready : Option (List UInt8)} {log : List (List UInt8)} (event : RxEvent)
      (reaches : AirReaches radio build boot got s ready log)
      (gets : GetsRxBuf radio.port s.phy event.rxNextBuf)
      : AirReaches radio build boot got
          { s with
            phy := rfRxIrqHandler radio.port build event (s.phy.receive radio.port event) }
          ready (log ++ answers radio.port build event (s.phy.receive radio.port event))
  | txIrq {s : AirPhy} {ready : Option (List UInt8)} {log : List (List UInt8)}
      (reaches : AirReaches radio build boot got s ready log)
      : AirReaches radio build boot got { s with phy := rfTxIrqHandler s.phy } ready log
  | setTrxState {s : AirPhy} {ready : Option (List UInt8)} {log : List (List UInt8)}
      (state : RfState) (reaches : AirReaches radio build boot got s ready log)
      : AirReaches radio build boot got { s with phy := rfSetTrxState s.phy state } ready log
  | reset {s : AirPhy} {ready : Option (List UInt8)} {log : List (List UInt8)} (got' : Nat)
      (reaches : AirReaches radio build boot got s ready log)
      : AirReaches radio build boot got { s with phy := rfReset radio.port s.phy got' } ready log
  | macFrees {s : AirPhy} {ready : Option (List UInt8)} {log : List (List UInt8)} (b : Nat)
      (reaches : AirReaches radio build boot got s ready log)
      : AirReaches radio build boot got
          { s with phy := { s.phy with held := s.phy.held.filter (·.rxBuf ≠ b) } } ready log

section Runs

variable {radio : TxRadio} {build : MacBuild} {boot : PhySys} {got : Nat} {s : AirPhy}
  {ready : Option (List UInt8)} {log : List (List UInt8)}

/-- What the driver reaches with its frame buffer it also reaches without. -/
theorem AirReaches.phy (reaches : AirReaches radio build boot got s ready log)
    : PhyReaches radio.port build boot got s.phy := by
  induction reaches with
  | init => exact .init
  | txReady frame _ _ ih => exact ih
  | tx _ ih => exact ih.tx _
  | rxIrq event _ gets ih => exact ih.rxIrq event gets
  | txIrq _ ih => exact ih.txIrq
  | setTrxState state _ ih => exact ih.setTrxState state
  | reset got' _ ih => exact ih.reset got'
  | macFrees b _ ih => exact ih.macFrees b

/-- What goes out is what is in the log, and both buffers are ready to be sent. -/
structure Airs (radio : TxRadio) (s : AirPhy) (ready : Option (List UInt8))
    (log : List (List UInt8))
    : Prop where
  sent : s.phy.sent.map radio.onAir = log.map phyFrame
  ack : AckBuilt radio s.phy.ackBuf
  ready : ∀ frame ∈ ready, radio.onAir s.txBuf = phyFrame frame

theorem Airs.quiet (airs : Airs radio s ready log) {phy : PhySys} (quiet : Quiet s.phy phy)
    : Airs radio { s with phy } ready log where
  sent := by
    rw [quiet.1]
    exact airs.sent
  ack := by
    rw [quiet.2]
    exact airs.ack
  ready := airs.ready

theorem rfSetTrxState_quiet (s : PhySys) (state : RfState) : Quiet s (rfSetTrxState s state) := by
  cases state with
  | rx => exact switchToRxMode_air s
  | ed => exact switchToRxMode_air s
  | tx => exact switchToTxMode_air s
  | off =>
      unfold rfSetTrxState PhySys.rfPaShutDown
      cases s.paEn <;> exact ⟨rfl, rfl⟩

theorem rfReset_quiet (port : RadioPort) (s : PhySys) (got : Nat)
    : Quiet s (rfReset port s got) := by
  refine (rfSetTrxState_quiet s .tx).trans ?_
  unfold rfReset
  simp only
  split <;> exact ⟨rfl, rfl⟩

/-- By induction on the run. -/
theorem AirReaches.airs (short : ShortHeaders build radio.port) (silent : boot.sent = [])
    (reaches : AirReaches radio build boot got s ready log)
    : Airs radio s ready log := by
  induction reaches with
  | init =>
      refine ⟨?_, ⟨0x02, 0, rfl⟩, fun frame none => by cases none⟩
      have quiet := rfReset_quiet radio.port boot got
      change ((rfReset radio.port boot got).sent).map radio.onAir = _
      rw [quiet.1, silent]
      rfl
  | txReady frame _ fits ih =>
      refine ⟨ih.sent, ih.ack, ?_⟩
      rintro _ ⟨⟩
      exact onAir_txReady fits
  | @tx s frame log _ ih =>
      obtain ⟨sent, ack⟩ := rfSetTrxState_quiet s.phy .tx
      refine ⟨?_, ?_, ih.ready⟩
      · simp only [rf802154Tx, sent, List.map_append, ih.sent, List.map_singleton,
          ih.ready _ rfl]
      · simp only [rf802154Tx, ack]
        exact ih.ack
  | @rxIrq s ready log event _ gets ih =>
      have gets' := gets.receive event
      have stored : Airs radio { s with phy := s.phy.receive radio.port event } ready log :=
        ih.quiet ⟨rfl, rfl⟩
      unfold answers
      split
      case isTrue answered =>
          obtain ⟨ackBuf, sent⟩ := rfRxIrqHandler_answers gets' answered short
          rw [stored.ack.patch] at ackBuf
          refine ⟨?_, ⟨_, _, ackBuf⟩, ih.ready⟩
          rw [sent, List.map_append, List.map_append, stored.sent, List.map_singleton, ackBuf,
            onAir_ack]
          rfl
      case isFalse unanswered =>
          rw [List.append_nil]
          exact stored.quiet (rfRxIrqHandler_quiet gets' unanswered)
  | txIrq _ ih => exact ih.quiet (switchToRxMode_air _)
  | setTrxState state _ ih => exact ih.quiet (rfSetTrxState_quiet _ state)
  | reset got' _ ih => exact ih.quiet (rfReset_quiet _ _ got')
  | macFrees b _ ih => exact ih.quiet ⟨rfl, rfl⟩

end Runs

/-- In every run what the radio sends is, in order, each frame that was ready when it was sent and
one acknowledgement for each frame that was taken in and asked for it, with the sequence number
under which that frame came in. Neither buffer ever carries anything of the other or of an earlier
frame, and the frame lies where the handler looks for it.
-/
theorem onAir_log {radio : TxRadio} {build : MacBuild} (short : ShortHeaders build radio.port)
    {boot : PhySys} {got : Nat} (silent : boot.sent = []) (nothingHeld : boot.held = [])
    (buffer : radio.port.InRam (if boot.rxBuf ≠ 0 then boot.rxBuf else got)) {s : AirPhy}
    {ready : Option (List UInt8)} {log : List (List UInt8)}
    (reaches : AirReaches radio build boot got s ready log)
    : s.phy.sent.map radio.onAir = log.map phyFrame
      ∧ ∀ event : RxEvent, ∀ i < event.received.length,
        (s.phy.receive radio.port event).ram (s.phy.rxBuf + radio.port.rxSkip + i)
          = event.received.getD i 0 := by
  refine ⟨(reaches.airs short silent).sent, fun event i inside => ?_⟩
  have owns := reaches.phy.owns build nothingHeld buffer
  simp only [PhySys.receive, owns.target]
  rw [if_pos (by omega)]
  congr 1
  omega

-- a data frame that asks for an acknowledgement, as the 8258 stores it
private def dataFrame : RxEvent where
  received := [14, 0, 0, 0, 5, 0x61, 0x88, 7, 0, 0, 0, 0, 0, 0, 0, 0, 0, 0x10]
  rxNextBuf := 0x842000

/-- A frame is made ready, another one is received and acknowledged, and the first one goes out. -/
theorem onAir_log_both
    : let build : MacBuild := ⟨fun _ => 9, fun _ => 5, true⟩
      let init := rfInit radio82x8 { ram := fun _ => 0 } 0x841000
      let txBuf := rf802154TxReady radio82x8 (List.replicate 132 0) [0x41, 0x88, 3]
      let phy := rf802154Tx
        (rfRxIrqHandler radio82x8 build dataFrame (init.receive radio82x8 dataFrame)) txBuf
      phy.sent.map txRadio82x8.onAir = [[5, 0x02, 0, 7], [5, 0x41, 0x88, 3]] := by
  intro build init txBuf phy
  have short : ShortHeaders build txRadio82x8.port :=
    ⟨by decide, fun _ => (by decide : 5 + (9 : UInt8).toNat < rfPktBuffLen),
      fun _ _ => (by decide : 5 + (9 + 5 : UInt8).toNat < rfPktBuffLen)⟩
  have gets : GetsRxBuf txRadio82x8.port init dataFrame.rxNextBuf :=
    .inr ⟨by decide, by decide, by decide⟩
  have start : AirReaches txRadio82x8 build { ram := fun _ => 0 } 0x841000 ⟨init, txBuf⟩
      (some [0x41, 0x88, 3]) [] :=
    AirReaches.init.txReady _ (by decide)
  have received := start.rxIrq dataFrame gets
  refine (onAir_log short rfl rfl (by decide) received.tx).1.trans ?_
  decide

end TelinkSdk
