import TelinkSdk.Os.BufferUsers

/-! The transmitting half of the UART driver. It copies what it is given into a buffer of the pools
and the DMA controller reads it from there, while the other users of the pools go on.
-/

namespace TelinkSdk.Uart

open EvBuffer Links Nor

-----------------------------------------------------------------------------------------
-- The driver
-----------------------------------------------------------------------------------------

inductive UartSta where
  | idle
  | txDoing
  | txDone
  | rxDone
deriving DecidableEq

/-- A transfer on the TX channel: where the controller reads next and how many bytes are left. -/
structure DmaTransfer where
  next : Nat
  left : Nat

/-- `myUartDriver` and `uartDrvTxBuf`, with the memory and the pools, the transfer that the
controller has been given and what the line has carried.
-/
structure DrvUart where
  status : UartSta
  uartDrvTxBuf : Option Nat
  sys : EvBufSys
  transfer : Option DmaTransfer
  line : List UInt8

/-- `ev_buf_free(uartDrvTxBuf)` when there is one. -/
def freeTxBuf (layout : EvBufLayout) (uart : DrvUart) : Option DrvUart :=
  match uart.uartDrvTxBuf with
  | none => some uart
  | some pBuf =>
      (evBufFree layout uart.sys pBuf).map
        (fun result => { uart with uartDrvTxBuf := none, sys := result.2 })

/-- `drv_uart_init`; the registers it sets are not part of the model. -/
def drvUartInit (layout : EvBufLayout) (uart : DrvUart) : Option DrvUart :=
  freeTxBuf layout { uart with status := .idle }

def drvUartTxIrqHandler (layout : EvBufLayout) (uart : DrvUart) : Option DrvUart :=
  (freeTxBuf layout uart).map (fun uart => { uart with status := .txDone })

/-- `uart_send_dma` of the chip library, as `uart.h` of the B91 describes it: it takes lengths
from 1 to 0xFFFFFC and starts the DMA.
-/
def uartSendDma (uart : DrvUart) (addr len : Nat) : Option DrvUart :=
  if 1 ≤ len ∧ len ≤ 0xFFFFFC then
    some { uart with transfer := some { next := addr, left := len } }
  else
    none

def uartDmaSend (uart : DrvUart) (pBuf : Nat) : Option DrvUart :=
  let len := uart.sys.ram.le32 pBuf
  uartSendDma uart (pBuf + 4) len

/-- `drv_uart_tx_start`. There is no result while the first loop waits for the interrupt, nor when
the second has a length that is never taken. The pools take the low 16 bits of a size.
-/
def drvUartTxStart (uart : DrvUart) (data len : Nat) : Option (UInt8 × DrvUart) :=
  if uart.status = .idle ∨ uart.status = .txDone then
    match uart.uartDrvTxBuf with
    | some _ => some (0, uart)
    | none =>
        match EvBuffer.evBufAllocate uart.sys (.ofNat (len + 4)) with
        | none => none
        | some (none, sys) => some (0, { uart with sys := sys })
        | some (some pBuf, sys) =>
            let ram := sys.ram.store32 pBuf len
            let ram := ram.storeBytes (pBuf + 4) (ram.read data len)
            let uart :=
              { uart with
                status := .txDoing
                uartDrvTxBuf := some pBuf
                sys := { sys with ram := ram } }
            (uartDmaSend uart pBuf).map (1, ·)
  else
    none

/-- The controller reads a byte and shifts it out. -/
def dmaMove (uart : DrvUart) : Option DrvUart :=
  match uart.transfer with
  | some { next := next, left := left + 1 } =>
      some
        { uart with
          transfer := some { next := next + 1, left := left }
          line := uart.line ++ [uart.sys.ram next] }
  | _ => none

/-- The interrupt that follows the last byte. -/
def txDoneIrq (layout : EvBufLayout) (uart : DrvUart) : Option DrvUart :=
  match uart.transfer with
  | some { next := _, left := 0 } => drvUartTxIrqHandler layout { uart with transfer := none }
  | _ => none

-----------------------------------------------------------------------------------------
-- Runs
-----------------------------------------------------------------------------------------

/-- What a caller may hand over: nothing inside the pools but the data of buffers that are held. -/
def Readable (layout : EvBufLayout) (held : List Buffer) (data len : Nat) : Prop :=
  ∀ x, data ≤ x → x < data + len → layout.InPools x →
    ∃ buffer ∈ held, buffer.Occupies layout x

/-- The driver before its initialization. `uartDrvTxBuf` starts out null, the status is any. -/
def poweredUart (status : UartSta) (sys : EvBufSys) : DrvUart where
  status := status
  uartDrvTxBuf := none
  sys := sys
  transfer := none
  line := []

theorem drvUartInit_powered (layout : EvBufLayout) (status : UartSta) (sys : EvBufSys)
    : drvUartInit layout (poweredUart status sys) = some (poweredUart .idle sys) := rfl

/-- The states after power-up, with the buffers that the other users of the pools hold and the data
of the calls that have returned 1. Calls of the driver, bytes read by the controller, the
interrupt, and calls and writes of the other users come in any order.
-/
inductive UartRun (layout : EvBufLayout) : DrvUart → List Buffer → List (List UInt8) → Prop where
  | init {uart : DrvUart} (status : UartSta) (sys : EvBufSys)
      (started : drvUartInit layout (poweredUart status (evBufInit layout sys)) = some uart)
      : UartRun layout uart [] []
  | txStart {uart uart' : DrvUart} {held : List Buffer} {sent : List (List UInt8)}
      {data len : Nat} {result : UInt8} (run : UartRun layout uart held sent)
      (readable : Readable layout held data len) (short : len + 4 < 65536)
      (returned : drvUartTxStart uart data len = some (result, uart'))
      : UartRun layout uart' held
        (if result = 1 then sent ++ [uart.sys.ram.read data len] else sent)
  | move {uart uart' : DrvUart} {held : List Buffer} {sent : List (List UInt8)}
      (run : UartRun layout uart held sent) (moved : dmaMove uart = some uart')
      : UartRun layout uart' held sent
  | irq {uart uart' : DrvUart} {held : List Buffer} {sent : List (List UInt8)}
      (run : UartRun layout uart held sent) (handled : txDoneIrq layout uart = some uart')
      : UartRun layout uart' held sent
  | call {uart : DrvUart} {sys : EvBufSys} {held held' : List Buffer} {sent : List (List UInt8)}
      (call : EvBufCall) (run : UartRun layout uart held sent)
      (returned : evBufCall layout uart.sys held call = some (sys, held'))
      : UartRun layout { uart with sys := sys } held' sent
  | write {uart : DrvUart} {held : List Buffer} {sent : List (List UInt8)} (ram : Ram)
      (run : UartRun layout uart held sent)
      (allowed : CallerWrites layout held uart.sys.ram ram)
      : UartRun layout { uart with sys := { uart.sys with ram := ram } } held sent

-----------------------------------------------------------------------------------------
-- Loading a buffer
-----------------------------------------------------------------------------------------

/-- The memory that `drv_uart_tx_start` hands to the controller. -/
def loaded (ram : Ram) (pBuf data len : Nat) : Ram :=
  let ram := ram.store32 pBuf len
  ram.storeBytes (pBuf + 4) (ram.read data len)

variable {layout : EvBufLayout} {sys : EvBufSys} {held : List Buffer} {free : Nat → List Nat}
  {ram : Ram} {pBuf data len : Nat}

theorem loaded_outside {x : Nat} (outside : x < pBuf ∨ pBuf + (len + 4) ≤ x)
    : loaded ram pBuf data len x = ram x := by
  rw [loaded, Ram.storeBytes_outside (by rw [Mem.read_length]; omega),
    Ram.store32_outside (by omega)]

theorem loaded_len (small : len < 4294967296) : (loaded ram pBuf data len).le32 pBuf = len := by
  have kept : (loaded ram pBuf data len).le32 pBuf = (ram.store32 pBuf len).le32 pBuf := by
    apply Mem.le32_congr
    intro i inside
    exact Ram.storeBytes_outside (by omega)
  rw [kept, Ram.store32_le32 small]

theorem loaded_read (apart : ∀ x, data ≤ x → x < data + len → x < pBuf ∨ pBuf + 4 ≤ x)
    : (loaded ram pBuf data len).read (pBuf + 4) len = ram.read data len := by
  have source : (ram.store32 pBuf len).read data len = ram.read data len := by
    apply Mem.read_congr
    intro i inside
    exact Ram.store32_outside (apart _ (by omega) (by omega))
  have copied := Ram.storeBytes_read (ram.store32 pBuf len) (pBuf + 4)
    ((ram.store32 pBuf len).read data len)
  rw [Mem.read_length] at copied
  exact copied.trans source

-----------------------------------------------------------------------------------------
-- At rest and in flight
-----------------------------------------------------------------------------------------

variable {uart uart' : DrvUart} {sent : List (List UInt8)} {own : Buffer} {bytes : List UInt8}
  {k : Nat}

/-- Nothing is being sent, and the driver holds no buffer. -/
structure AtRest (layout : EvBufLayout) (uart : DrvUart) (held : List Buffer)
    (sent : List (List UInt8)) : Prop where
  pools : ∃ free, PoolState layout uart.sys held free
  noBuf : uart.uartDrvTxBuf = none
  noTransfer : uart.transfer = none
  ready : uart.status = .idle ∨ uart.status = .txDone
  line : uart.line = sent.flatten

/-- The controller has read `k` of the bytes in the driver's buffer. -/
structure InFlight (layout : EvBufLayout) (uart : DrvUart) (held : List Buffer)
    (sent : List (List UInt8)) (own : Buffer) (bytes : List UInt8) (k : Nat) : Prop where
  pools : ∃ free, PoolState layout uart.sys (own :: held) free
  buf : uart.uartDrvTxBuf = some own.data
  doing : uart.status = .txDoing
  moved : k ≤ bytes.length
  transfer : uart.transfer = some { next := own.data + 4 + k, left := bytes.length - k }
  room : own.size.toNat = bytes.length + 4
  loaded : uart.sys.ram.read (own.data + 4) bytes.length = bytes
  line : ∃ before, sent = before ++ [bytes] ∧ uart.line = before.flatten ++ bytes.take k

/-- What a caller hands over is in no header, and not in a buffer that is none of its own. -/
theorem Readable.apart (readable : Readable layout held data len)
    (state : PoolState layout sys (own :: held) free) {x : Nat} (low : data ≤ x)
    (high : x < data + len)
    : ¬ layout.Header x ∧ ¬ own.Occupies layout x := by
  constructor
  · intro header
    obtain ⟨buffer, -, occupies⟩ := readable x low high (inPools_of_header header)
    exact Buffer.occupies_not_header occupies header
  · intro ours
    obtain ⟨buffer, holds, occupies⟩ := readable x low high (inPools_of_occupies ours)
    exact (List.pairwise_cons.mp state.occupies_apart).1 buffer holds x ours occupies

/-- Loading a buffer of the right size writes nothing but the buffer, which holds the data then. -/
theorem load (readable : Readable layout held data len)
    (state : PoolState layout sys (own :: held) free) (room : own.size.toNat = len + 4)
    : PoolState layout { sys with ram := loaded sys.ram own.data data len } (own :: held) free
      ∧ (loaded sys.ram own.data data len).read (own.data + 4) len = sys.ram.read data len
      ∧ layout.Kept sys.ram (loaded sys.ram own.data data len) := by
  have fits : ∀ x, own.data ≤ x → x < own.data + (len + 4) → own.Occupies layout x :=
    fun x low high => state.occupies (List.mem_cons_self ..) low (by omega)
  have outside : ∀ x, ¬ own.Occupies layout x → loaded sys.ram own.data data len x = sys.ram x := by
    intro x off
    apply loaded_outside
    by_contra among
    exact off (fits x (by omega) (by omega))
  have writes : CallerWrites layout (own :: held) sys.ram (loaded sys.ram own.data data len) :=
    callerWrites_of_occupied (fun x off => outside x (off own (List.mem_cons_self ..)))
  refine ⟨state.write writes, loaded_read ?_, ?_⟩
  · intro x low high
    by_contra among
    exact (readable.apart state low high).2 (fits x (by omega) (by omega))
  · intro x off
    exact outside x (fun ours => off (inPools_of_occupies ours))

/-- A call that finds the driver at rest sends the data unless the pools have no buffer for it. -/
theorem drvUartTxStart_atRest (rest : AtRest layout uart held sent)
    (readable : Readable layout held data len) (short : len + 4 < 65536)
    : (EvBuffer.evBufAllocate uart.sys (.ofNat (len + 4)) = some (none, uart.sys)
        ∧ drvUartTxStart uart data len = some (0, uart))
      ∨ ∃ own uart', EvBuffer.evBufAllocate uart.sys (.ofNat (len + 4)) ≠ some (none, uart.sys)
        ∧ drvUartTxStart uart data len = (if 1 ≤ len then some (1, uart') else none)
        ∧ InFlight layout uart' held (sent ++ [uart.sys.ram.read data len]) own
          (uart.sys.ram.read data len) 0
        ∧ layout.Kept uart.sys.ram uart'.sys.ram := by
  obtain ⟨free, pools⟩ := rest.pools
  rcases pools.allocate (.ofNat (len + 4)) with refused | ⟨p, sys, free', granted, after⟩
  case inl =>
    refine .inl ⟨refused, ?_⟩
    rw [drvUartTxStart, if_pos rest.ready]
    simp only [rest.noBuf, refused]
    rw [← rest.noBuf]
  case inr =>
    right
    have kept := (pools.allocated granted).2
    obtain ⟨own, named⟩ : ∃ own : Buffer, own = { data := p, size := .ofNat (len + 4) } := ⟨_, rfl⟩
    have block : own.data = p := by rw [named]
    have room : own.size.toNat = len + 4 := by
      rw [named]
      simp only [UInt16.toNat_ofNat']
      omega
    rw [← named] at after
    rw [← block] at granted
    obtain ⟨pools', copied, elsewhere⟩ := load readable after room
    have source : sys.ram.read data len = uart.sys.ram.read data len := by
      apply Mem.read_congr
      intro i inside
      exact kept _ (readable.apart after (by omega) (by omega)).1
    refine ⟨own,
      { uart with
        status := .txDoing
        uartDrvTxBuf := some own.data
        sys := { sys with ram := loaded sys.ram own.data data len }
        transfer := some { next := own.data + 4, left := len } },
      ?_, ?_,
      ⟨⟨_, pools'⟩, rfl, rfl, Nat.zero_le _, ?_, ?_, ?_, _, rfl, ?_⟩, ?_⟩
    · rw [granted]
      nofun
    · rw [drvUartTxStart, if_pos rest.ready]
      simp only [rest.noBuf, granted]
      rw [← loaded, uartDmaSend]
      simp only [loaded_len (by omega : len < 4294967296)]
      rw [uartSendDma]
      by_cases some_bytes : 1 ≤ len
      · rw [if_pos ⟨some_bytes, by omega⟩, if_pos some_bytes, Option.map_some]
      · rw [if_neg (fun taken => some_bytes taken.1), if_neg some_bytes, Option.map_none]
    · simp
    · simpa using room
    · rw [Mem.read_length]
      exact copied.trans source
    · simpa using rest.line
    · intro x off
      exact (elsewhere x off).trans (kept.kept x off)

/-- A call that finds a transfer in flight waits. -/
theorem InFlight.waits (flight : InFlight layout uart held sent own bytes k)
    : drvUartTxStart uart data len = none := by
  rw [drvUartTxStart, if_neg]
  simp [flight.doing]

theorem InFlight.move (flight : InFlight layout uart held sent own bytes k)
    (more : k < bytes.length)
    : ∃ uart', dmaMove uart = some uart' ∧ uart'.sys = uart.sys
      ∧ InFlight layout uart' held sent own bytes (k + 1) := by
  obtain ⟨before, all, line⟩ := flight.line
  have left : bytes.length - k = (bytes.length - (k + 1)) + 1 := by omega
  have byte : uart.sys.ram (own.data + 4 + k) = bytes[k] := by
    have placed := Mem.read_eq_iff.mp flight.loaded k more
    simpa [List.getD_eq_getElem?_getD, more] using placed
  refine ⟨{ uart with
      transfer := some { next := own.data + 4 + k + 1, left := bytes.length - (k + 1) }
      line := uart.line ++ [uart.sys.ram (own.data + 4 + k)] }, ?_, rfl,
    ⟨flight.pools, flight.buf, flight.doing, more, rfl, flight.room, flight.loaded,
      before, all, ?_⟩⟩
  · rw [dmaMove, flight.transfer, left]
  · rw [line, byte, List.append_assoc, List.take_append_getElem more]

/-- The interrupt frees the buffer that has been sent. -/
theorem InFlight.txDoneIrq (flight : InFlight layout uart held sent own bytes bytes.length)
    : ∃ uart', txDoneIrq layout uart = some uart' ∧ AtRest layout uart' held sent
      ∧ layout.Kept uart.sys.ram uart'.sys.ram := by
  obtain ⟨free, pools⟩ := flight.pools
  obtain ⟨before, all, line⟩ := flight.line
  obtain ⟨sys, free', freed, after, kept⟩ := pools.released (List.mem_cons_self ..)
  rw [List.erase_cons_head] at after
  refine ⟨{ uart with transfer := none, uartDrvTxBuf := none, sys := sys, status := .txDone }, ?_,
    ⟨⟨free', after⟩, rfl, rfl, .inr rfl, ?_⟩, kept.kept⟩
  · rw [Uart.txDoneIrq, flight.transfer, Nat.sub_self]
    simp only [drvUartTxIrqHandler, freeTxBuf, flight.buf, freed, Option.map_some]
  · rw [line, all, List.take_length]
    simp

/-- What a run keeps: the driver is at rest or in flight. -/
def Sending (layout : EvBufLayout) (uart : DrvUart) (held : List Buffer)
    (sent : List (List UInt8)) : Prop :=
  AtRest layout uart held sent ∨ ∃ own bytes k, InFlight layout uart held sent own bytes k

theorem Sending.txStart {result : UInt8} (sending : Sending layout uart held sent)
    (readable : Readable layout held data len) (short : len + 4 < 65536)
    (returned : drvUartTxStart uart data len = some (result, uart'))
    : Sending layout uart' held
        (if result = 1 then sent ++ [uart.sys.ram.read data len] else sent)
      ∧ layout.Kept uart.sys.ram uart'.sys.ram := by
  rcases sending with rest | ⟨own, bytes, k, flight⟩
  case inr =>
    rw [flight.waits] at returned
    cases returned
  case inl =>
    rcases drvUartTxStart_atRest rest readable short
      with ⟨-, refused⟩ | ⟨own, after, -, taken, flight, kept⟩
    · rw [refused] at returned
      cases returned
      exact ⟨.inl rest, fun _ _ => rfl⟩
    · rw [taken] at returned
      split at returned
      · cases returned
        exact ⟨.inr ⟨own, _, 0, flight⟩, kept⟩
      · cases returned

theorem Sending.move (sending : Sending layout uart held sent) (moved : dmaMove uart = some uart')
    : Sending layout uart' held sent ∧ uart'.sys = uart.sys := by
  rcases sending with rest | ⟨own, bytes, k, flight⟩
  · rw [dmaMove, rest.noTransfer] at moved
    cases moved
  · by_cases more : k < bytes.length
    · obtain ⟨after, same, kept, next⟩ := flight.move more
      rw [same] at moved
      cases moved
      exact ⟨.inr ⟨own, bytes, k + 1, next⟩, kept⟩
    · rw [dmaMove, flight.transfer, Nat.sub_eq_zero_of_le (by omega)] at moved
      cases moved

theorem Sending.irq (sending : Sending layout uart held sent)
    (handled : txDoneIrq layout uart = some uart')
    : Sending layout uart' held sent ∧ layout.Kept uart.sys.ram uart'.sys.ram := by
  rcases sending with rest | ⟨own, bytes, k, flight⟩
  · rw [txDoneIrq, rest.noTransfer] at handled
    cases handled
  · by_cases more : k < bytes.length
    · obtain ⟨left, some_left⟩ : ∃ left, bytes.length - k = left + 1 :=
        ⟨bytes.length - k - 1, by omega⟩
      rw [txDoneIrq, flight.transfer, some_left] at handled
      cases handled
    · obtain rfl : k = bytes.length := le_antisymm flight.moved (by omega)
      obtain ⟨after, same, rest, kept⟩ := flight.txDoneIrq
      rw [same] at handled
      cases handled
      exact ⟨.inl rest, kept⟩

/-- A change of the memory and the pools that leaves the driver's buffer alone. -/
theorem InFlight.others {held' : List Buffer}
    (flight : InFlight layout uart held sent own bytes k)
    (pools : ∃ free, PoolState layout sys (own :: held') free)
    (same : ∀ x, own.Occupies layout x → sys.ram x = uart.sys.ram x)
    : InFlight layout { uart with sys := sys } held' sent own bytes k where
  pools := pools
  buf := flight.buf
  doing := flight.doing
  moved := flight.moved
  transfer := flight.transfer
  room := flight.room
  loaded := by
    obtain ⟨free, state⟩ := flight.pools
    rw [← flight.loaded, Mem.read_length]
    apply Mem.read_congr
    intro i inside
    have fits := state.fits (List.mem_cons_self ..) (4 + i) (by rw [flight.room]; omega)
    rw [Nat.add_assoc]
    exact same _ fits
  line := flight.line

theorem AtRest.others {held' : List Buffer} (rest : AtRest layout uart held sent)
    (pools : ∃ free, PoolState layout sys held' free)
    : AtRest layout { uart with sys := sys } held' sent where
  pools := pools
  noBuf := rest.noBuf
  noTransfer := rest.noTransfer
  ready := rest.ready
  line := rest.line

theorem Sending.call {held' : List Buffer} {call : EvBufCall}
    (sending : Sending layout uart held sent)
    (returned : evBufCall layout uart.sys held call = some (sys, held'))
    : Sending layout { uart with sys := sys } held' sent ∧ layout.Kept uart.sys.ram sys.ram := by
  rcases sending with rest | ⟨own, bytes, k, flight⟩
  · obtain ⟨free, state⟩ := rest.pools
    have alone : PoolState layout uart.sys ([] ++ held) free := state
    obtain ⟨pools, kept⟩ := alone.others_call returned
    exact ⟨.inl (rest.others pools), kept.kept⟩
  · obtain ⟨free, state⟩ := flight.pools
    have beside : PoolState layout uart.sys ([own] ++ held) free := state
    obtain ⟨pools, kept⟩ := beside.others_call returned
    exact ⟨.inr ⟨own, bytes, k, flight.others pools fun _ => kept.occupied⟩, kept.kept⟩

/-- Nobody else writes to the driver's buffer, which to the others is like a free block. -/
theorem Sending.write (sending : Sending layout uart held sent)
    (allowed : CallerWrites layout held uart.sys.ram ram)
    : Sending layout { uart with sys := { uart.sys with ram := ram } } held sent := by
  rcases sending with rest | ⟨own, bytes, k, flight⟩
  · obtain ⟨free, state⟩ := rest.pools
    exact .inl (rest.others ⟨free, state.write allowed⟩)
  · obtain ⟨free, state⟩ := flight.pools
    have beside : PoolState layout uart.sys ([own] ++ held) free := state
    obtain ⟨pools, same⟩ := beside.others_write allowed
    exact .inr ⟨own, bytes, k, flight.others ⟨free, pools⟩ (same own (by simp))⟩

/-- The driver is at rest or in flight throughout, by induction over the run. -/
theorem UartRun.sending (run : UartRun layout uart held sent) : Sending layout uart held sent := by
  induction run with
  | init status sys started =>
      rw [drvUartInit_powered] at started
      cases started
      exact .inl ⟨⟨_, evBufInit_state⟩, rfl, rfl, .inl rfl, rfl⟩
  | txStart _ readable short returned ih => exact (ih.txStart readable short returned).1
  | move _ moved ih => exact (ih.move moved).1
  | irq _ handled ih => exact (ih.irq handled).1
  | call call _ returned ih => exact (ih.call returned).1
  | write ram _ allowed ih => exact ih.write allowed

-----------------------------------------------------------------------------------------
-- What the line carries
-----------------------------------------------------------------------------------------

/-- What the controller has still to read, as the memory stands. -/
def DrvUart.unsent (uart : DrvUart) : List UInt8 :=
  match uart.transfer with
  | none => []
  | some transfer => uart.sys.ram.read transfer.next transfer.left

/-- The controller finishes its transfer, and the interrupt is handled. -/
inductive Drains (layout : EvBufLayout) : DrvUart → DrvUart → Prop where
  | rest {uart : DrvUart} (noTransfer : uart.transfer = none) : Drains layout uart uart
  | irq {uart uart' : DrvUart} (handled : txDoneIrq layout uart = some uart')
      : Drains layout uart uart'
  | move {uart uart' uart'' : DrvUart} (moved : dmaMove uart = some uart')
      (drains : Drains layout uart' uart'')
      : Drains layout uart uart''

theorem InFlight.unsent (flight : InFlight layout uart held sent own bytes k)
    : uart.unsent = bytes.drop k := by
  have split := flight.loaded
  obtain ⟨left, total⟩ := Nat.exists_eq_add_of_le flight.moved
  rw [total, Mem.read_add] at split
  have behind : (uart.sys.ram.read (own.data + 4) k
      ++ uart.sys.ram.read (own.data + 4 + k) left).drop k
      = uart.sys.ram.read (own.data + 4 + k) left :=
    List.drop_left' (Mem.read_length _ _ _)
  rw [split] at behind
  rw [DrvUart.unsent, flight.transfer, total, Nat.add_sub_cancel_left]
  exact behind.symm

theorem InFlight.drains (flight : InFlight layout uart held sent own bytes k)
    : ∃ uart', Drains layout uart uart' ∧ AtRest layout uart' held sent := by
  obtain ⟨left, total⟩ := Nat.exists_eq_add_of_le flight.moved
  induction left generalizing uart k with
  | zero =>
      obtain rfl : k = bytes.length := total.symm
      obtain ⟨uart', handled, rest, -⟩ := flight.txDoneIrq
      exact ⟨uart', .irq handled, rest⟩
  | succ left ih =>
      obtain ⟨uart', moved, -, next⟩ := flight.move (by omega)
      obtain ⟨uart'', drains, rest⟩ := ih next (by omega)
      exact ⟨uart'', .move moved drains, rest⟩

theorem Sending.drains (sending : Sending layout uart held sent)
    : ∃ uart', Drains layout uart uart' ∧ AtRest layout uart' held sent := by
  rcases sending with rest | ⟨own, bytes, k, flight⟩
  · exact ⟨uart, .rest rest.noTransfer, rest⟩
  · exact flight.drains

/-- What has been sent is on the line or still to be read. -/
theorem Sending.line (sending : Sending layout uart held sent)
    : uart.line ++ uart.unsent = sent.flatten := by
  rcases sending with rest | ⟨own, bytes, k, flight⟩
  · rw [DrvUart.unsent, rest.noTransfer, List.append_nil, rest.line]
  · obtain ⟨before, all, line⟩ := flight.line
    rw [flight.unsent, line, List.append_assoc, List.take_append_drop, all]
    simp

/-- The driver's part in the pools: one buffer while it sends, none otherwise. -/
theorem Sending.pools (sending : Sending layout uart held sent)
    : (uart.transfer = none ↔ uart.uartDrvTxBuf = none)
      ∧ ∃ own : List Buffer, own.map Buffer.data = uart.uartDrvTxBuf.toList
        ∧ ∀ g < defaultBufferGroupNum, layout.Shared uart.sys (own ++ held) g := by
  rcases sending with rest | ⟨own, bytes, k, flight⟩
  · obtain ⟨free, state⟩ := rest.pools
    refine ⟨by simp [rest.noTransfer, rest.noBuf], [], by simp [rest.noBuf], ?_⟩
    exact fun g inside => state.shared inside
  · obtain ⟨free, state⟩ := flight.pools
    refine ⟨by simp [flight.transfer, flight.buf], [own], by simp [flight.buf], ?_⟩
    exact fun g inside => state.shared inside

/-- In every run, what the line has carried and what the controller has still to read is the data
of the calls that returned 1, one after another, whatever the other users of the pools do in
between. Every block of the pools is free, held by one of the others, or in flight. A transfer
in flight comes to its end, and then a call returns, with 0 only when the pools have no buffer.
-/
theorem drvUart_line (run : UartRun layout uart held sent)
    : uart.line ++ uart.unsent = sent.flatten
      ∧ (uart.transfer = none ↔ uart.uartDrvTxBuf = none)
      ∧ (∃ own : List Buffer, own.map Buffer.data = uart.uartDrvTxBuf.toList
        ∧ ∀ g < defaultBufferGroupNum, layout.Shared uart.sys (own ++ held) g)
      ∧ ∃ uart', Drains layout uart uart' ∧ uart'.line = sent.flatten
        ∧ ∀ data len, Readable layout held data len → 1 ≤ len → len + 4 < 65536 →
          ∃ result uart'', drvUartTxStart uart' data len = some (result, uart'')
            ∧ (result = 0
              ↔ EvBuffer.evBufAllocate uart'.sys (.ofNat (len + 4)) = some (none, uart'.sys)) := by
  have sending := run.sending
  obtain ⟨shared, own⟩ := sending.pools
  obtain ⟨uart', drains, rest⟩ := sending.drains
  refine ⟨sending.line, shared, own, uart', drains, rest.line, ?_⟩
  intro data len readable some_bytes short
  rcases drvUartTxStart_atRest rest readable short
    with ⟨refused, returned⟩ | ⟨own, after, granted, returned, -⟩
  · exact ⟨0, uart', returned, fun _ => refused, fun _ => rfl⟩
  · rw [if_pos some_bytes] at returned
    exact ⟨1, after, returned, fun no => absurd no (by decide), fun no => absurd no granted⟩

/-- Memory in front of the pools may be handed over. -/
theorem readable_low (below : data + len ≤ 4096) : Readable pagedLayout held data len := by
  rintro x low high ⟨g, inside, a, block, lowA, -⟩
  have bounds := (EvBufLayout.block_bounds block).1
  simp only [pagedLayout] at bounds
  omega

/-- Every byte is the low byte of its address. -/
def numberedSys : EvBufSys where
  ram x := .ofNat x
  pools _ := { freeList := none }
  bufGroups _ := { qHead := none, size := 0, availBufNum := 0 }
  exceptions := []

/-- Another user takes a buffer while two bytes are being sent, of which one is out. -/
theorem drvUart_line_moving
    : ∃ uart held sent, UartRun pagedLayout uart held sent ∧ uart.line = [100]
      ∧ uart.unsent = [101] ∧ uart.uartDrvTxBuf = some 4104 ∧ held.map Buffer.data = [4128]
      ∧ uart.line ++ uart.unsent = sent.flatten := by
  let start := poweredUart .idle (evBufInit pagedLayout numberedSys)
  have result : ((drvUartTxStart start 100 2).bind fun sent =>
      (evBufCall pagedLayout sent.2.sys [] (.allocate 10)).bind fun taken =>
        (dmaMove { sent.2 with sys := taken.1 }).map fun uart =>
          (sent.1, uart.line, uart.unsent, uart.uartDrvTxBuf, taken.2.map Buffer.data))
      = some (1, [100], [101], some 4104, [4128]) := by
    decide +kernel
  obtain ⟨⟨result, first⟩, started, result⟩ := Option.bind_eq_some_iff.mp result
  obtain ⟨⟨sys, held⟩, taken, result⟩ := Option.bind_eq_some_iff.mp result
  obtain ⟨uart, moved, result⟩ := Option.map_eq_some_iff.mp result
  simp only [Prod.mk.injEq] at result
  obtain ⟨rfl, line, unsent, buf, data⟩ := result
  have powered := UartRun.init .idle numberedSys (drvUartInit_powered pagedLayout .idle _)
  have sending := powered.txStart (readable_low (by decide)) (by decide) started
  have run := (sending.call _ taken).move moved
  exact ⟨uart, held, _, run, line, unsent, buf, data, (drvUart_line run).1⟩

end TelinkSdk.Uart
