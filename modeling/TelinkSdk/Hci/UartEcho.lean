import TelinkSdk.Drivers.Uart

/-! The UART of the host interface, `hci_uart.c`, which sends back every packet that it receives.
The packet stays in `uartRxBuf` until the task queue has come to its handler.
-/

namespace TelinkSdk.Uart

open EvBuffer Links Nor

-----------------------------------------------------------------------------------------
-- The application
-----------------------------------------------------------------------------------------

abbrev uartRxBufSize : Nat := 64

/-- The driver, how many bytes the controller has stored since `uart_receive_dma`, and the calls
of `uart_data_handler` in the task queue.
-/
structure UartEcho where
  uart : DrvUart
  arrived : Nat
  posted : Nat

def DrvUart.setRam (uart : DrvUart) (ram : Ram) : DrvUart :=
  { uart with sys := { uart.sys with ram := ram } }

/-- The controller stores a byte behind the length. -/
def rxMove (uartRxBuf : Nat) (byte : UInt8) (echo : UartEcho) : UartEcho :=
  { echo with
    uart := echo.uart.setRam
      (echo.uart.sys.ram.storeBytes (uartRxBuf + 4 + echo.arrived) [byte])
    arrived := echo.arrived + 1 }

/-- `drv_uart_rx_irq_handler` with `uartRcvHandler` for its callback; `taken` tells whether the
task queue has room.
-/
def drvUartRxIrqHandler (uartRxBuf : Nat) (uartRxErr taken : Bool) (echo : UartEcho) : UartEcho :=
  if uartRxErr then { echo with arrived := 0 }
  else
    -- `UART_RCV_DMA_LEN_FIX`
    { uart := echo.uart.setRam (echo.uart.sys.ram.store32 uartRxBuf echo.arrived)
      arrived := 0
      posted := if taken then echo.posted + 1 else echo.posted }

/-- `uart_data_handler`, taken from the queue, with what `drv_uart_tx_start` returns. -/
def uartDataHandler (uartRxBuf : Nat) (echo : UartEcho) : Option (Option UInt8 × UartEcho) :=
  let dataLen := echo.uart.sys.ram.le32 uartRxBuf
  let echo := { echo with posted := echo.posted - 1 }
  if dataLen > 0 ∧ dataLen < 64 then
    (drvUartTxStart echo.uart (uartRxBuf + 4) dataLen).map fun result =>
      (some result.1, { echo with uart := result.2 })
  else
    some (none, echo)

-----------------------------------------------------------------------------------------
-- Runs
-----------------------------------------------------------------------------------------

/-- The packets that have been received and those that have been handled, with whether they were
sent back.
-/
structure EchoLog where
  arriving : List UInt8
  received : List (List UInt8)
  handled : List (List UInt8 × Bool)

/-- The data of the calls that returned 1. -/
def EchoLog.echoed (log : EchoLog) : List (List UInt8) :=
  (log.handled.filter Prod.snd).map Prod.fst

/-- The states after power-up when the peer sends packets that fit in `uartRxBuf`, and none before
the last one has been handled. The driver sends, and the other users of the pools go on, in any
order with this.
-/
inductive EchoRun (layout : EvBufLayout) (uartRxBuf : Nat)
    : UartEcho → List Buffer → EchoLog → Prop where
  | init {uart : DrvUart} (status : UartSta) (sys : EvBufSys)
      (started : drvUartInit layout (poweredUart status (evBufInit layout sys)) = some uart)
      : EchoRun layout uartRxBuf { uart := uart, arrived := 0, posted := 0 } []
        { arriving := [], received := [], handled := [] }
  | arrive {echo : UartEcho} {held : List Buffer} {log : EchoLog} (byte : UInt8)
      (run : EchoRun layout uartRxBuf echo held log) (waits : echo.posted = 0)
      (fits : log.arriving.length < uartRxBufSize - 4)
      : EchoRun layout uartRxBuf (rxMove uartRxBuf byte echo) held
        { log with arriving := log.arriving ++ [byte] }
  | rxIrq {echo : UartEcho} {held : List Buffer} {log : EchoLog} (uartRxErr taken : Bool)
      (run : EchoRun layout uartRxBuf echo held log) (waits : echo.posted = 0)
      : EchoRun layout uartRxBuf (drvUartRxIrqHandler uartRxBuf uartRxErr taken echo) held
        { log with
          arriving := []
          received :=
            if uartRxErr = false ∧ taken = true then log.received ++ [log.arriving]
            else log.received }
  | handle {echo echo' : UartEcho} {held : List Buffer} {log : EchoLog} {packet : List UInt8}
      {result : Option UInt8} (run : EchoRun layout uartRxBuf echo held log)
      (posted : 0 < echo.posted) (latest : log.received.getLast? = some packet)
      (returned : uartDataHandler uartRxBuf echo = some (result, echo'))
      : EchoRun layout uartRxBuf echo' held
        { log with handled := log.handled ++ [(packet, result == some 1)] }
  | move {echo : UartEcho} {uart : DrvUart} {held : List Buffer} {log : EchoLog}
      (run : EchoRun layout uartRxBuf echo held log) (moved : dmaMove echo.uart = some uart)
      : EchoRun layout uartRxBuf { echo with uart := uart } held log
  | txIrq {echo : UartEcho} {uart : DrvUart} {held : List Buffer} {log : EchoLog}
      (run : EchoRun layout uartRxBuf echo held log)
      (handled : txDoneIrq layout echo.uart = some uart)
      : EchoRun layout uartRxBuf { echo with uart := uart } held log
  | call {echo : UartEcho} {sys : EvBufSys} {held held' : List Buffer} {log : EchoLog}
      (call : EvBufCall) (run : EchoRun layout uartRxBuf echo held log)
      (returned : evBufCall layout echo.uart.sys held call = some (sys, held'))
      : EchoRun layout uartRxBuf { echo with uart := { echo.uart with sys := sys } } held' log
  | write {echo : UartEcho} {held : List Buffer} {log : EchoLog} (ram : Ram)
      (run : EchoRun layout uartRxBuf echo held log)
      (allowed : CallerWrites layout held echo.uart.sys.ram ram)
      (outside : ∀ x, uartRxBuf ≤ x → x < uartRxBuf + uartRxBufSize →
        ram x = echo.uart.sys.ram x)
      : EchoRun layout uartRxBuf { echo with uart := echo.uart.setRam ram } held log

-----------------------------------------------------------------------------------------
-- The receive buffer
-----------------------------------------------------------------------------------------

variable {layout : EvBufLayout} {uartRxBuf : Nat} {echo echo' : UartEcho} {held : List Buffer}
  {log : EchoLog} {ram ram' : Ram} {uart : DrvUart}

/-- `uartRxBuf` is a variable of its own, outside the pools. -/
def RxBufApart (layout : EvBufLayout) (uartRxBuf : Nat) : Prop :=
  ∀ x, uartRxBuf ≤ x → x < uartRxBuf + uartRxBufSize → ¬ layout.InPools x

/-- The bytes of `uartRxBuf` are the same. -/
def SameRx (uartRxBuf : Nat) (ram ram' : Ram) : Prop :=
  ∀ x, uartRxBuf ≤ x → x < uartRxBuf + uartRxBufSize → ram' x = ram x

/-- A packet lies behind its length. -/
structure HoldsPacket (ram : Ram) (uartRxBuf : Nat) (packet : List UInt8) : Prop where
  fits : packet.length ≤ uartRxBufSize - 4
  length : ram.le32 uartRxBuf = packet.length
  bytes : ram.read (uartRxBuf + 4) packet.length = packet

theorem RxBufApart.same (apart : RxBufApart layout uartRxBuf) (kept : layout.Kept ram ram')
    : SameRx uartRxBuf ram ram' :=
  fun x low high => kept x (apart x low high)

/-- The controller's writes leave the pools alone. -/
theorem RxBufApart.writes (apart : RxBufApart layout uartRxBuf)
    (outside : ∀ x, (x < uartRxBuf ∨ uartRxBuf + uartRxBufSize ≤ x) → ram' x = ram x)
    : CallerWrites layout held ram ram' := by
  intro g inside a block x low high _
  apply outside
  by_contra among
  exact apart x (by omega) (by omega) ⟨g, inside, a, block, low, high⟩

theorem SameRx.read {packet : List UInt8} (same : SameRx uartRxBuf ram ram')
    (fits : packet.length ≤ uartRxBufSize - 4)
    (bytes : ram.read (uartRxBuf + 4) packet.length = packet)
    : ram'.read (uartRxBuf + 4) packet.length = packet := by
  have unchanged : ram'.read (uartRxBuf + 4) packet.length
      = ram.read (uartRxBuf + 4) packet.length := by
    apply Mem.read_congr
    intro i inside
    simp only [uartRxBufSize] at fits
    exact same _ (by omega) (by simp only [uartRxBufSize]; omega)
  exact unchanged.trans bytes

theorem HoldsPacket.congr {packet : List UInt8} (holds : HoldsPacket ram uartRxBuf packet)
    (same : SameRx uartRxBuf ram ram')
    : HoldsPacket ram' uartRxBuf packet where
  fits := holds.fits
  length := by
    rw [← holds.length]
    apply Mem.le32_congr
    intro i inside
    exact same _ (by omega) (by simp only [uartRxBufSize]; omega)
  bytes := same.read holds.fits holds.bytes

theorem EchoLog.echoed_handled (log : EchoLog) (packet : List UInt8) (sent : Bool)
    : ({ log with handled := log.handled ++ [(packet, sent)] } : EchoLog).echoed
      = if sent then log.echoed ++ [packet] else log.echoed := by
  cases sent <;> simp [EchoLog.echoed]

/-- Packets are handled in the order in which they come, and the buffer holds the one that waits. -/
structure Echoing (layout : EvBufLayout) (uartRxBuf : Nat) (echo : UartEcho) (held : List Buffer)
    (log : EchoLog) : Prop where
  sending : Sending layout echo.uart held log.echoed
  arrived : echo.arrived = log.arriving.length
  fits : log.arriving.length ≤ uartRxBufSize - 4
  bytes : echo.uart.sys.ram.read (uartRxBuf + 4) log.arriving.length = log.arriving
  waiting : ∃ pending, log.received = log.handled.map Prod.fst ++ pending
    ∧ pending.length = echo.posted
    ∧ (pending = [] ∨ ∃ packet, pending = [packet] ∧ log.arriving = []
      ∧ HoldsPacket echo.uart.sys.ram uartRxBuf packet)

/-- What does not touch the buffer and sends nothing new. -/
theorem Echoing.others {held' : List Buffer} (echoing : Echoing layout uartRxBuf echo held log)
    (sending : Sending layout uart held' log.echoed)
    (same : SameRx uartRxBuf echo.uart.sys.ram uart.sys.ram)
    : Echoing layout uartRxBuf { echo with uart := uart } held' log where
  sending := sending
  arrived := echoing.arrived
  fits := echoing.fits
  bytes := same.read echoing.fits echoing.bytes
  waiting := by
    obtain ⟨pending, received, counted, rest⟩ := echoing.waiting
    refine ⟨pending, received, counted, rest.imp_right ?_⟩
    rintro ⟨packet, one, idle, holds⟩
    exact ⟨packet, one, idle, holds.congr same⟩

/-- Nothing waits while nothing is posted. -/
theorem Echoing.idle (echoing : Echoing layout uartRxBuf echo held log) (waits : echo.posted = 0)
    : log.received = log.handled.map Prod.fst := by
  obtain ⟨pending, received, counted, -⟩ := echoing.waiting
  rw [waits, List.length_eq_zero_iff] at counted
  rw [received, counted, List.append_nil]

theorem Echoing.arrive (apart : RxBufApart layout uartRxBuf)
    (echoing : Echoing layout uartRxBuf echo held log) (byte : UInt8) (waits : echo.posted = 0)
    (fits : log.arriving.length < uartRxBufSize - 4)
    : Echoing layout uartRxBuf (rxMove uartRxBuf byte echo) held
        { log with arriving := log.arriving ++ [byte] } := by
  have arrived := echoing.arrived
  simp only [uartRxBufSize] at fits
  obtain ⟨ram, stored⟩ : ∃ ram, ram
      = echo.uart.sys.ram.storeBytes (uartRxBuf + 4 + log.arriving.length) [byte] := ⟨_, rfl⟩
  have outside : ∀ x, (x < uartRxBuf + 4 + log.arriving.length
      ∨ uartRxBuf + 4 + log.arriving.length + 1 ≤ x) → ram x = echo.uart.sys.ram x := by
    intro x off
    rw [stored]
    exact Ram.storeBytes_outside off
  have writes : CallerWrites layout held echo.uart.sys.ram ram :=
    apart.writes (fun x off => outside x (by simp only [uartRxBufSize] at off; omega))
  have front : ram.read (uartRxBuf + 4) log.arriving.length = log.arriving := by
    refine Eq.trans ?_ echoing.bytes
    apply Mem.read_congr
    intro i inside
    exact outside _ (by omega)
  have last : ram.read (uartRxBuf + 4 + log.arriving.length) 1 = [byte] := by
    rw [stored]
    exact Ram.storeBytes_read echo.uart.sys.ram _ [byte]
  rw [rxMove, arrived, ← stored]
  refine ⟨echoing.sending.write writes, ?_, ?_, ?_, [], ?_, waits.symm, .inl rfl⟩
  · rw [List.length_append]
    rfl
  · simp only [List.length_append, List.length_singleton, uartRxBufSize]
    omega
  · change ram.read _ _ = _
    rw [List.length_append, List.length_singleton, Mem.read_add, front, last]
  · rw [List.append_nil]
    exact echoing.idle waits

theorem Echoing.rxIrq (apart : RxBufApart layout uartRxBuf)
    (echoing : Echoing layout uartRxBuf echo held log) (uartRxErr taken : Bool)
    (waits : echo.posted = 0)
    : Echoing layout uartRxBuf (drvUartRxIrqHandler uartRxBuf uartRxErr taken echo) held
        { log with
          arriving := []
          received :=
            if uartRxErr = false ∧ taken = true then log.received ++ [log.arriving]
            else log.received } := by
  have idle := echoing.idle waits
  cases uartRxErr with
  | true =>
      refine ⟨echoing.sending, rfl, Nat.zero_le _, rfl, [], ?_, waits.symm, .inl rfl⟩
      simpa using idle
  | false =>
      have fits := echoing.fits
      simp only [uartRxBufSize] at fits
      obtain ⟨ram, stored⟩ : ∃ ram, ram
          = echo.uart.sys.ram.store32 uartRxBuf log.arriving.length := ⟨_, rfl⟩
      have writes : CallerWrites layout held echo.uart.sys.ram ram := by
        apply apart.writes
        intro x off
        rw [stored]
        apply Ram.store32_outside
        simp only [uartRxBufSize] at off
        omega
      have holds : HoldsPacket ram uartRxBuf log.arriving := by
        refine ⟨echoing.fits, ?_, ?_⟩
        · rw [stored, Ram.store32_le32 (by omega)]
        · refine Eq.trans ?_ echoing.bytes
          apply Mem.read_congr
          intro i inside
          rw [stored, Ram.store32_outside (by omega)]
      simp only [drvUartRxIrqHandler, echoing.arrived, ← stored]
      cases taken with
      | true =>
          refine ⟨echoing.sending.write writes, rfl, Nat.zero_le _, rfl, [log.arriving], ?_, ?_,
            .inr ⟨_, rfl, rfl, holds⟩⟩
          · simp [idle]
          · simp [waits]
      | false =>
          refine ⟨echoing.sending.write writes, rfl, Nat.zero_le _, rfl, [], ?_, ?_, .inl rfl⟩
          · simpa using idle
          · simp [waits]

theorem RxBufApart.readable (apart : RxBufApart layout uartRxBuf) {len : Nat} (fits : len ≤ 60)
    : Readable layout held (uartRxBuf + 4) len := by
  intro x low high inside
  exact absurd inside (apart x (by omega) (by simp only [uartRxBufSize]; omega))

/-- The packet that waits is the last one. -/
theorem Echoing.holds (echoing : Echoing layout uartRxBuf echo held log) {packet : List UInt8}
    (posted : 0 < echo.posted) (latest : log.received.getLast? = some packet)
    : (echo.posted = 1 ∧ log.arriving = []
        ∧ log.received = log.handled.map Prod.fst ++ [packet])
      ∧ HoldsPacket echo.uart.sys.ram uartRxBuf packet := by
  obtain ⟨pending, received, counted, rest⟩ := echoing.waiting
  rcases rest with rfl | ⟨waiting, rfl, still, holds⟩
  · simp only [List.length_nil] at counted
    omega
  · obtain rfl : waiting = packet := by
      rw [received] at latest
      simpa using latest
    exact ⟨⟨counted.symm, still, received⟩, holds⟩

theorem Echoing.handle (apart : RxBufApart layout uartRxBuf)
    (echoing : Echoing layout uartRxBuf echo held log) {packet : List UInt8}
    {result : Option UInt8} (posted : 0 < echo.posted)
    (latest : log.received.getLast? = some packet)
    (returned : uartDataHandler uartRxBuf echo = some (result, echo'))
    : Echoing layout uartRxBuf echo' held
        { log with handled := log.handled ++ [(packet, result == some 1)] } := by
  obtain ⟨⟨one, still, received⟩, holds⟩ := echoing.holds posted latest
  have fits := holds.fits
  simp only [uartRxBufSize] at fits
  have after : log.received = (log.handled ++ [(packet, result == some 1)]).map Prod.fst ++ [] := by
    rw [received]
    simp
  rw [uartDataHandler] at returned
  simp only [holds.length] at returned
  split at returned
  case isTrue some_bytes =>
    obtain ⟨⟨status, uart⟩, started, result⟩ := Option.map_eq_some_iff.mp returned
    cases result
    obtain ⟨sending, kept⟩ := echoing.sending.txStart (apart.readable fits) (by omega) started
    rw [holds.bytes] at sending
    have same := apart.same kept
    refine ⟨?_, echoing.arrived, echoing.fits, same.read echoing.fits echoing.bytes, [], after, ?_,
      .inl rfl⟩
    · rw [EchoLog.echoed_handled]
      simpa only [Option.some_beq_some, beq_iff_eq] using sending
    · simp [one]
  case isFalse empty =>
    cases returned
    refine ⟨?_, echoing.arrived, echoing.fits, echoing.bytes, [], after, ?_, .inl rfl⟩
    · rw [EchoLog.echoed_handled]
      exact echoing.sending
    · simp [one]

/-- By induction over the run. -/
theorem EchoRun.echoing (apart : RxBufApart layout uartRxBuf)
    (run : EchoRun layout uartRxBuf echo held log)
    : Echoing layout uartRxBuf echo held log := by
  induction run with
  | init status sys started =>
      have sending : Sending layout _ [] [] := (UartRun.init status sys started).sending
      exact ⟨sending, rfl, Nat.zero_le _, rfl, [], rfl, rfl, .inl rfl⟩
  | arrive byte _ waits fits ih => exact ih.arrive apart byte waits fits
  | rxIrq uartRxErr taken _ waits ih => exact ih.rxIrq apart uartRxErr taken waits
  | handle _ posted latest returned ih => exact ih.handle apart posted latest returned
  | move _ moved ih =>
      obtain ⟨sending, sys⟩ := ih.sending.move moved
      exact ih.others sending (fun x _ _ => by rw [sys])
  | txIrq _ handled ih =>
      obtain ⟨sending, kept⟩ := ih.sending.irq handled
      exact ih.others sending (apart.same kept)
  | call call _ returned ih =>
      obtain ⟨sending, kept⟩ := ih.sending.call returned
      exact ih.others sending (apart.same kept)
  | write ram _ allowed outside ih => exact ih.others (ih.sending.write allowed) outside

end TelinkSdk.Uart
