import TelinkSdk.Mac.Phy

/-! Who owns a receive buffer. The driver owns `rf_rxBuf`, which the DMA fills, and the MAC layer
owns the buffers that it was handed; a receive interrupt swaps the driver's buffer for one that
nobody owned, or keeps it.
-/

namespace TelinkSdk

open Nor Links

variable {port : RadioPort} (build : MacBuild) {event : RxEvent} {s : PhySys}

/-- The two receive buffers share no byte. -/
def BuffersApart (a b : Nat) : Prop := a + rfPktBuffLen ≤ b ∨ b + rfPktBuffLen ≤ a

instance (a b : Nat) : Decidable (BuffersApart a b) :=
  inferInstanceAs (Decidable (_ ∨ _))

/-- A whole receive buffer fits into the RAM at this address. -/
def RadioPort.InRam (port : RadioPort) (b : Nat) : Prop :=
  port.ramStart ≤ b ∧ b + rfPktBuffLen ≤ port.ramEnd

instance (port : RadioPort) (b : Nat) : Decidable (port.InRam b) :=
  inferInstanceAs (Decidable (_ ∧ _))

/-- Neither the driver nor the MAC layer owns the buffer. -/
structure OwnedByNobody (port : RadioPort) (s : PhySys) (b : Nat) : Prop where
  inRam : port.InRam b
  notDriver : BuffersApart b s.rxBuf
  notMac : ∀ h ∈ s.held, BuffersApart h.rxBuf b

/-- What the driver relies on: `tl_getRxBuf` returns no buffer or one that nobody owns. -/
def GetsRxBuf (port : RadioPort) (s : PhySys) (b : Nat) : Prop :=
  b = 0 ∨ OwnedByNobody port s b

/-- The frame that lies in `rf_rxBuf` passes the checks and the filter. -/
structure RxEvent.Passes (port : RadioPort) (event : RxEvent) (s : PhySys) : Prop where
  crc : port.crcOk s.ram s.rxBuf = true
  length : port.lengthOk s.ram s.rxBuf = true
  idle : s.busyFlag &&& txBusy = 0
  filter : event.fDrop = 0

/-- The frame that lies in `rf_rxBuf` asks for an acknowledgement. -/
def RequestsAck (port : RadioPort) (s : PhySys) : Prop :=
  ackRequested s.ram (s.rxBuf + port.rxHdrLen) = true

/-- The radio listens, and so does the power amplifier if there is one. -/
def PhySys.InRxMode (s : PhySys) : Prop :=
  s.mode = .rx ∧ (s.paEn = true → s.paTxen = false ∧ s.paRxen = true)

/-- The radio and the power amplifier are in the same mode. -/
def PhySys.SameMode (before after : PhySys) : Prop :=
  after.mode = before.mode ∧ after.paTxen = before.paTxen ∧ after.paRxen = before.paRxen

-----------------------------------------------------------------------------------------
-- What one interrupt can do
-----------------------------------------------------------------------------------------

/-- The radio listens if the frame was acknowledged, and keeps its mode if not. -/
structure RadioRestored (port : RadioPort) (event : RxEvent) (before after : PhySys) : Prop where
  acked : event.Passes port before → RequestsAck port before → after.InRxMode
  silent : ¬(event.Passes port before ∧ RequestsAck port before) → before.SameMode after

/-- A dropped frame: the driver keeps its buffer. -/
structure RxKept (port : RadioPort) (event : RxEvent) (before after : PhySys) : Prop where
  rxBuf : after.rxBuf = before.rxBuf
  dmaReg : after.dmaReg = before.dmaReg
  held : after.held = before.held
  enabled : after.rxEnabled = true
  radio : RadioRestored port event before after

/-- An accepted frame: its buffer goes to the MAC layer, and the DMA gets the new one. -/
structure RxSwapped (port : RadioPort) (event : RxEvent) (before after : PhySys) : Prop where
  passes : event.Passes port before
  supplied : event.rxNextBuf ≠ 0
  rxBuf : after.rxBuf = event.rxNextBuf
  dmaReg : after.dmaReg = port.rxBufReg event.rxNextBuf
  held : ∃ h, after.held = before.held ++ [h] ∧ h.rxBuf = before.rxBuf
  enabled : after.rxEnabled = true
  radio : RadioRestored port event before after

/-- The step is about the radio alone: it touches neither the buffers nor the RAM. -/
structure SameBuffers (before after : PhySys) : Prop where
  ram : after.ram = before.ram
  rxBuf : after.rxBuf = before.rxBuf
  dmaReg : after.dmaReg = before.dmaReg
  held : after.held = before.held
  rxEnabled : after.rxEnabled = before.rxEnabled

theorem SameBuffers.trans {s t u : PhySys} (first : SameBuffers s t) (second : SameBuffers t u)
    : SameBuffers s u :=
  ⟨second.ram.trans first.ram, second.rxBuf.trans first.rxBuf,
    second.dmaReg.trans first.dmaReg, second.held.trans first.held,
    second.rxEnabled.trans first.rxEnabled⟩

theorem switchToTxMode_buffers (s : PhySys) : SameBuffers s s.switchToTxMode := by
  unfold PhySys.switchToTxMode
  cases s.paEn <;> exact ⟨rfl, rfl, rfl, rfl, rfl⟩

theorem switchToRxMode_buffers (s : PhySys) : SameBuffers s s.switchToRxMode := by
  unfold PhySys.switchToRxMode
  cases s.paEn <;> exact ⟨rfl, rfl, rfl, rfl, rfl⟩

theorem switchToRxMode_inRxMode (s : PhySys) : s.switchToRxMode.InRxMode := by
  unfold PhySys.switchToRxMode PhySys.InRxMode
  cases amp : s.paEn <;> simp [amp]

theorem sendAck_buffers (event : RxEvent) (s : PhySys) (macPld : Nat)
    : SameBuffers s (s.sendAck build event macPld) := by
  unfold PhySys.sendAck
  refine SameBuffers.trans ?_ (switchToRxMode_buffers _)
  exact ⟨rfl, rfl, rfl, rfl, rfl⟩

/-- Clearing a buffer leaves the bytes of the buffers apart from it alone. -/
theorem rxBufClear_outside (port : RadioPort) (s : PhySys) {i b : Nat}
    (apart : BuffersApart s.rxBuf b) (inside : i < rfPktBuffLen)
    : (s.rxBufClear port).ram (b + i) = s.ram (b + i) := by
  apply if_neg
  intro cleared
  obtain ⟨j, listed, at_⟩ := List.mem_map.mp cleared
  have short : j < rfPktBuffLen := port.rxBufClear_inside j listed
  unfold BuffersApart at apart
  omega

/-- A frame that a check or the filter rejects is dropped. -/
theorem rfRxIrqHandler_rejects (ready : port.dmaBusy event.dmaBusy = false)
    (rejected : ¬event.Passes port s)
    : RxKept port event s (rfRxIrqHandler port build event s) := by
  have radio {after : PhySys} (same : s.SameMode after) : RadioRestored port event s after :=
    ⟨fun passes => absurd passes rejected, fun _ => same⟩
  unfold rfRxIrqHandler
  simp only [ready, Bool.false_eq_true, if_false]
  split
  case isTrue =>
      exact ⟨rfl, rfl, rfl, rfl, radio ⟨rfl, rfl, rfl⟩⟩
  case isFalse checks =>
      have filtered : event.fDrop ≠ 0 := by
        intro kept
        simp only [Bool.or_eq_true, Bool.not_eq_true', bne_iff_ne, not_or, ne_eq,
          Bool.not_eq_false, Decidable.not_not] at checks
        exact rejected ⟨checks.1.1, checks.1.2, checks.2, kept⟩
      rw [if_pos filtered]
      exact ⟨rfl, rfl, rfl, rfl, radio ⟨rfl, rfl, rfl⟩⟩

/-- The checks and the filter let a frame through to the point where the next buffer is needed. -/
theorem RxEvent.Passes.checks (passes : event.Passes port s)
    : (!port.crcOk s.ram s.rxBuf || !port.lengthOk s.ram s.rxBuf
        || s.busyFlag &&& txBusy != 0) = false := by
  rw [passes.crc, passes.length, passes.idle]
  rfl

/-- A frame that passes gets to the point where the handler asks for the next buffer. -/
theorem rfRxIrqHandler_passes (ready : port.dmaBusy event.dmaBusy = false)
    (passes : event.Passes port s)
    : ∃ t : PhySys,
        SameBuffers { s with rxEnabled := false, macRxIrqCnt := s.macRxIrqCnt + 1 } t
        ∧ (¬RequestsAck port s → s.SameMode t)
        ∧ rfRxIrqHandler port build event s
          = if event.rxNextBuf = 0 then t.dropForBuffers port (s.rxBuf + port.rxHdrLen)
            else t.handOver port build event s.rxBuf (s.rxBuf + port.rxHdrLen)
              (port.payloadLen s.ram s.rxBuf) := by
  unfold rfRxIrqHandler
  simp only [ready, passes.checks, passes.filter, Bool.false_eq_true, if_false, ne_eq, not_true]
  by_cases ack : ackRequested s.ram (s.rxBuf + port.rxHdrLen) = true
  case pos =>
      rw [if_pos ack]
      have buffers := switchToTxMode_buffers
        { s with rxEnabled := false, macRxIrqCnt := s.macRxIrqCnt + 1 }
      exact ⟨_, buffers, fun silent => absurd ack silent, rfl⟩
  case neg =>
      rw [if_neg ack]
      exact ⟨{ s with rxEnabled := false, macRxIrqCnt := s.macRxIrqCnt + 1 },
        ⟨rfl, rfl, rfl, rfl, rfl⟩, fun _ => ⟨rfl, rfl, rfl⟩, rfl⟩

/-- Without a next buffer the frame is dropped, and the radio listens again if it was about to
answer.
-/
theorem rfRxIrqHandler_starves (ready : port.dmaBusy event.dmaBusy = false)
    (passes : event.Passes port s) (none : event.rxNextBuf = 0)
    : RxKept port event s (rfRxIrqHandler port build event s) := by
  obtain ⟨t, same, quiet, eq⟩ := rfRxIrqHandler_passes build ready passes
  rw [eq, if_pos none]
  unfold PhySys.dropForBuffers
  simp only [same.ram]
  by_cases ack : ackRequested s.ram (s.rxBuf + port.rxHdrLen) = true
  case pos =>
      rw [if_pos ack]
      have buffers := same.trans (switchToRxMode_buffers t)
      exact ⟨buffers.rxBuf, buffers.dmaReg, buffers.held, rfl,
        fun _ _ => switchToRxMode_inRxMode t, fun silent => absurd ⟨passes, ack⟩ silent⟩
  case neg =>
      rw [if_neg ack]
      exact ⟨same.rxBuf, same.dmaReg, same.held, rfl, fun _ asked => absurd asked ack,
        fun _ => quiet ack⟩

/-- With a next buffer the frame goes to the MAC layer, after its acknowledgement. -/
theorem rfRxIrqHandler_accepts (ready : port.dmaBusy event.dmaBusy = false)
    (passes : event.Passes port s) (supplied : event.rxNextBuf ≠ 0)
    (apart : BuffersApart event.rxNextBuf s.rxBuf)
    : RxSwapped port event s (rfRxIrqHandler port build event s) := by
  obtain ⟨t, same, quiet, eq⟩ := rfRxIrqHandler_passes build ready passes
  rw [eq, if_neg supplied]
  unfold PhySys.handOver
  -- the new buffer is cleared before the frame control field is read again
  have asksStill
      : ackRequested ((({ t with rxBuf := event.rxNextBuf } : PhySys).rxBufClear port).rxBufSet
          port).ram (s.rxBuf + port.rxHdrLen)
        = ackRequested s.ram (s.rxBuf + port.rxHdrLen) := by
    have byte := rxBufClear_outside port { t with rxBuf := event.rxNextBuf } apart
      port.rxHdrLen_inside
    have frame : t.ram (s.rxBuf + port.rxHdrLen) = s.ram (s.rxBuf + port.rxHdrLen) :=
      congrFun same.ram _
    exact congrArg (fun b : UInt8 => b &&& 0x20 != 0) (byte.trans frame)
  simp only [asksStill]
  by_cases ack : ackRequested s.ram (s.rxBuf + port.rxHdrLen) = true
  case pos =>
      rw [if_pos ack]
      have buffers := sendAck_buffers build event
        ((({ t with rxBuf := event.rxNextBuf } : PhySys).rxBufClear port).rxBufSet port)
        (s.rxBuf + port.rxHdrLen)
      refine ⟨passes, supplied, buffers.rxBuf, buffers.dmaReg, ?_, rfl, ?_, ?_⟩
      · exact ⟨_, congrArg (· ++ [_]) (buffers.held.trans same.held), rfl⟩
      · exact fun _ _ => switchToRxMode_inRxMode _
      · exact fun silent => absurd ⟨passes, ack⟩ silent
  case neg =>
      rw [if_neg ack]
      refine ⟨passes, supplied, rfl, rfl, ?_, rfl, ?_, ?_⟩
      · exact ⟨_, congrArg (· ++ [_]) same.held, rfl⟩
      · exact fun _ asked => absurd asked ack
      · exact fun _ => quiet ack

-----------------------------------------------------------------------------------------
-- Runs
-----------------------------------------------------------------------------------------

/-- The states of the driver after `rf_init`: receive interrupts in any order with frames that go
out, changes of the transceiver state, resets and buffers that the MAC layer gives back.
-/
inductive PhyReaches (port : RadioPort) (build : MacBuild) (boot : PhySys) (got : Nat)
    : PhySys → Prop where
  | init : PhyReaches port build boot got (rfInit port boot got)
  | rxIrq {s : PhySys} (event : RxEvent) (reaches : PhyReaches port build boot got s)
      (gets : GetsRxBuf port s event.rxNextBuf)
      : PhyReaches port build boot got
          (rfRxIrqHandler port build event (s.receive port event))
  | macFrees {s : PhySys} (b : Nat) (reaches : PhyReaches port build boot got s)
      : PhyReaches port build boot got { s with held := s.held.filter (·.rxBuf ≠ b) }
  | setTrxState {s : PhySys} (state : RfState) (reaches : PhyReaches port build boot got s)
      : PhyReaches port build boot got (rfSetTrxState s state)
  | reset {s : PhySys} (got' : Nat) (reaches : PhyReaches port build boot got s)
      : PhyReaches port build boot got (rfReset port s got')
  | tx {s : PhySys} (txBuf : List UInt8) (reaches : PhyReaches port build boot got s)
      : PhyReaches port build boot got (rf802154Tx s txBuf)
  | txIrq {s : PhySys} (reaches : PhyReaches port build boot got s)
      : PhyReaches port build boot got (rfTxIrqHandler s)

/-- The driver owns a buffer apart from those of the MAC layer, and the DMA fills it. -/
structure DriverOwns (port : RadioPort) (s : PhySys) : Prop where
  inRam : port.InRam s.rxBuf
  apart : ∀ h ∈ s.held, BuffersApart h.rxBuf s.rxBuf
  dmaReg : s.dmaReg = port.rxBufReg s.rxBuf
  enabled : s.rxEnabled = true

theorem DriverOwns.sameBuffers {s t : PhySys} (owns : DriverOwns port s)
    (same : SameBuffers s t)
    : DriverOwns port t := by
  refine ⟨?_, ?_, ?_, ?_⟩
  · rw [same.rxBuf]; exact owns.inRam
  · rw [same.rxBuf, same.held]; exact owns.apart
  · rw [same.rxBuf, same.dmaReg]; exact owns.dmaReg
  · rw [same.rxEnabled]; exact owns.enabled

theorem DriverOwns.rxBuf_ne_zero (owns : DriverOwns port s) : s.rxBuf ≠ 0 := by
  have positive := port.ramStart_pos
  have start := owns.inRam.1
  omega

/-- The buffer that the DMA fills is `rf_rxBuf`. -/
theorem DriverOwns.target (owns : DriverOwns port s)
    : port.rxTarget s.dmaReg = s.rxBuf + port.rxSkip := by
  rw [owns.dmaReg]
  exact port.rxTarget_rxBufReg _ owns.inRam.1 owns.inRam.2

theorem rfSetTrxState_buffers (s : PhySys) (state : RfState)
    : SameBuffers s (rfSetTrxState s state) := by
  have listens : SameBuffers s { s.switchToRxMode with rfMode := .rx } :=
    (switchToRxMode_buffers s).trans ⟨rfl, rfl, rfl, rfl, rfl⟩
  cases state with
  | rx => exact listens
  | ed => exact listens
  | tx => exact (switchToTxMode_buffers s).trans ⟨rfl, rfl, rfl, rfl, rfl⟩
  | off =>
      unfold rfSetTrxState PhySys.rfPaShutDown
      cases s.paEn <;> exact ⟨rfl, rfl, rfl, rfl, rfl⟩

/-- `rf_reset` keeps the buffer that the driver has, and gets one if it has none. -/
theorem rfReset_owns {got : Nat}
    (inRam : port.InRam (if s.rxBuf ≠ 0 then s.rxBuf else got))
    (apart : ∀ h ∈ s.held, BuffersApart h.rxBuf (if s.rxBuf ≠ 0 then s.rxBuf else got))
    : DriverOwns port (rfReset port s got) := by
  have same := rfSetTrxState_buffers s .tx
  unfold rfReset
  simp only [same.rxBuf]
  by_cases given : s.rxBuf ≠ 0
  case pos =>
      rw [if_pos given] at inRam apart
      rw [if_pos given]
      refine ⟨inRam, ?_, rfl, rfl⟩
      intro h mem
      exact apart h (same.held ▸ mem)
  case neg =>
      rw [if_neg given] at inRam apart
      rw [if_neg given]
      refine ⟨inRam, ?_, rfl, rfl⟩
      intro h mem
      exact apart h (same.held ▸ mem)

/-- An interrupt is rejected as busy, keeps the driver's buffer or swaps it. -/
theorem rfRxIrqHandler_cases (gets : GetsRxBuf port s event.rxNextBuf)
    : (port.dmaBusy event.dmaBusy = true ∧ rfRxIrqHandler port build event s = s)
      ∨ port.dmaBusy event.dmaBusy = false
        ∧ (RxKept port event s (rfRxIrqHandler port build event s)
            ∧ (¬event.Passes port s ∨ event.rxNextBuf = 0)
          ∨ RxSwapped port event s (rfRxIrqHandler port build event s)
            ∧ OwnedByNobody port s event.rxNextBuf) := by
  cases busy : port.dmaBusy event.dmaBusy with
  | true =>
      refine .inl ⟨rfl, ?_⟩
      unfold rfRxIrqHandler
      rw [if_pos busy]
  | false =>
      refine .inr ⟨rfl, ?_⟩
      by_cases passes : event.Passes port s
      case neg => exact .inl ⟨rfRxIrqHandler_rejects build busy passes, .inl passes⟩
      case pos =>
          rcases gets with none | nobodys
          · exact .inl ⟨rfRxIrqHandler_starves build busy passes none, .inr none⟩
          · have supplied : event.rxNextBuf ≠ 0 := by
              have positive := port.ramStart_pos
              have start := nobodys.inRam.1
              omega
            exact .inr ⟨rfRxIrqHandler_accepts build busy passes supplied nobodys.notDriver, nobodys⟩

theorem rfRxIrqHandler_owns (owns : DriverOwns port s)
    (gets : GetsRxBuf port s event.rxNextBuf)
    : DriverOwns port (rfRxIrqHandler port build event s) := by
  rcases rfRxIrqHandler_cases build gets
    with ⟨_, same⟩ | ⟨_, ⟨kept, _⟩ | ⟨swapped, nobodys⟩⟩
  · rw [same]
    exact owns
  · refine ⟨?_, ?_, ?_, kept.enabled⟩
    · rw [kept.rxBuf]; exact owns.inRam
    · rw [kept.rxBuf, kept.held]; exact owns.apart
    · rw [kept.rxBuf, kept.dmaReg]; exact owns.dmaReg
  · refine ⟨?_, ?_, ?_, swapped.enabled⟩
    · rw [swapped.rxBuf]; exact nobodys.inRam
    · obtain ⟨handed, held, filled⟩ := swapped.held
      intro h mem
      rw [held, List.mem_append, List.mem_singleton] at mem
      rw [swapped.rxBuf]
      rcases mem with old | rfl
      · exact nobodys.notMac h old
      · rw [filled]
        exact nobodys.notDriver.symm
    · rw [swapped.rxBuf, swapped.dmaReg]

/-- The DMA's stores change the RAM alone. -/
theorem DriverOwns.receive (owns : DriverOwns port s) (event : RxEvent)
    : DriverOwns port (s.receive port event) :=
  ⟨owns.inRam, owns.apart, owns.dmaReg, owns.enabled⟩

theorem GetsRxBuf.receive {b : Nat} (gets : GetsRxBuf port s b) (event : RxEvent)
    : GetsRxBuf port (s.receive port event) b :=
  gets.imp id (fun nobodys => ⟨nobodys.inRam, nobodys.notDriver, nobodys.notMac⟩)

theorem PhyReaches.owns {boot : PhySys} {got : Nat} (nothingHeld : boot.held = [])
    (inRam : port.InRam (if boot.rxBuf ≠ 0 then boot.rxBuf else got))
    (reaches : PhyReaches port build boot got s)
    : DriverOwns port s := by
  induction reaches with
  | init =>
      have reset : DriverOwns port (rfReset port boot got) :=
        rfReset_owns inRam (by simp [nothingHeld])
      exact ⟨reset.inRam, reset.apart, reset.dmaReg, reset.enabled⟩
  | rxIrq event _ gets ih => exact rfRxIrqHandler_owns build (ih.receive event) (gets.receive event)
  | macFrees b _ ih =>
      exact ⟨ih.inRam, fun h mem => ih.apart h (List.mem_of_mem_filter mem), ih.dmaReg, ih.enabled⟩
  | setTrxState state _ ih => exact ih.sameBuffers (rfSetTrxState_buffers _ state)
  | reset got' _ ih =>
      apply rfReset_owns
      · rw [if_pos ih.rxBuf_ne_zero]; exact ih.inRam
      · rw [if_pos ih.rxBuf_ne_zero]; exact ih.apart
  | tx txBuf _ ih =>
      exact ih.sameBuffers ((rfSetTrxState_buffers _ .tx).trans ⟨rfl, rfl, rfl, rfl, rfl⟩)
  | @txIrq s _ ih =>
      have buffers := switchToRxMode_buffers
        { s with busyFlag := s.busyFlag &&& ~~~txBusy, rfMode := .rx }
      exact ih.sameBuffers ⟨buffers.ram, buffers.rxBuf, buffers.dmaReg, buffers.held,
        buffers.rxEnabled⟩

-----------------------------------------------------------------------------------------
-- Ownership along every run
-----------------------------------------------------------------------------------------

/-- What an interrupt may do with the buffers and the radio. The frame lies in the buffer that
the DMA pointed at, and `before` is the state in which the handler is entered.
-/
structure RxIrqCorrect (port : RadioPort) (event : RxEvent) (before after : PhySys) : Prop where
  handsOver : after.held = before.held
    ∨ ∃ h, after.held = before.held ++ [h]
      ∧ h.rxBuf = before.rxBuf ∧ port.rxTarget before.dmaReg = h.rxBuf + port.rxSkip
  enabled : port.dmaBusy event.dmaBusy = false → after.rxEnabled = true
  dma : port.dmaBusy event.dmaBusy = false → after.dmaReg = port.rxBufReg after.rxBuf
  radio : port.dmaBusy event.dmaBusy = false → RadioRestored port event before after
  dropped : ¬event.Passes port before ∨ event.rxNextBuf = 0 → after.rxBuf = before.rxBuf

/-- In every state that the driver reaches it owns a buffer that the MAC layer does not, and
every receive interrupt hands over at most the filled buffer and restores what it changed.
-/
theorem rfRxIrqHandler_ownership {boot : PhySys} {got : Nat} (nothingHeld : boot.held = [])
    (buffer : port.InRam (if boot.rxBuf ≠ 0 then boot.rxBuf else got))
    (reaches : PhyReaches port build boot got s)
    : s.rxBuf ≠ 0 ∧ (∀ h ∈ s.held, BuffersApart h.rxBuf s.rxBuf)
      ∧ ∀ event, GetsRxBuf port s event.rxNextBuf
        → RxIrqCorrect port event (s.receive port event)
            (rfRxIrqHandler port build event (s.receive port event)) := by
  have owns := reaches.owns build nothingHeld buffer
  refine ⟨owns.rxBuf_ne_zero, owns.apart, ?_⟩
  intro event gets
  have filled := owns.receive event
  have after := rfRxIrqHandler_owns build filled (gets.receive event)
  refine ⟨?_, fun _ => after.enabled, fun _ => after.dmaReg, ?_, ?_⟩
  · rcases rfRxIrqHandler_cases build (gets.receive event)
      with ⟨_, same⟩ | ⟨_, ⟨kept, _⟩ | ⟨swapped, _⟩⟩
    · exact .inl (by rw [same])
    · exact .inl kept.held
    · obtain ⟨h, held, buf⟩ := swapped.held
      exact .inr ⟨h, held, buf, buf ▸ filled.target⟩
  · intro ready
    rcases rfRxIrqHandler_cases build (gets.receive event)
      with ⟨busy, _⟩ | ⟨_, ⟨kept, _⟩ | ⟨swapped, _⟩⟩
    · rw [ready] at busy
      cases busy
    · exact kept.radio
    · exact swapped.radio
  · intro drops
    rcases rfRxIrqHandler_cases build (gets.receive event)
      with ⟨_, same⟩ | ⟨_, ⟨kept, _⟩ | ⟨swapped, _⟩⟩
    · rw [same]
    · exact kept.rxBuf
    · rcases drops with rejected | none
      · exact absurd swapped.passes rejected
      · exact absurd none swapped.supplied

-- a data frame that asks for an acknowledgement, as the 8258 stores it
private def ackedFrame : RxEvent where
  received := [14, 0, 0, 0, 5, 0x61, 0x88, 7, 0, 0, 0, 0, 0, 0, 0, 0, 0, 0x10]
  rxNextBuf := 0x842000

theorem rfRxIrqHandler_ownership_two
    : let s := rfInit radio82x8 { ram := fun _ => 0 } 0x841000
      let s' := rfRxIrqHandler radio82x8 ⟨fun _ => 9, fun _ => 5, true⟩ ackedFrame
        (s.receive radio82x8 ackedFrame)
      s'.held.map (·.rxBuf) = [0x841000] ∧ s'.rxBuf ≠ 0 := by
  refine ⟨by decide, ?_⟩
  have gets : GetsRxBuf radio82x8 (rfInit radio82x8 { ram := fun _ => 0 } 0x841000)
      ackedFrame.rxNextBuf :=
    .inr ⟨by decide, by decide, by decide⟩
  exact (rfRxIrqHandler_ownership ⟨fun _ => 9, fun _ => 5, true⟩ rfl (by decide)
    (.rxIrq ackedFrame .init gets)).1

end TelinkSdk
