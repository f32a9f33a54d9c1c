import TelinkSdk.Os.Queue

/-! The transmitter of the USB-CDC host interface, `zbhci_usb_cdc.c` over `usbcdc.c`: messages that
find the endpoint taken wait in a queue, and the end of a transfer is to start the next one.
-/

namespace TelinkSdk

open Links LinkView LinkStore

-----------------------------------------------------------------------------------------
-- Buffers
-----------------------------------------------------------------------------------------

/-- The blocks of the four groups of `ev_buf.c`. -/
abbrev evBufNum : Nat := 8 + 12 + 16 + 1

abbrev TxRef := Fin evBufNum

/-- `usbcdc_txBuf_t`, with the link of its block. -/
structure UsbcdcTxBuf where
  next : Option TxRef := none
  len : UInt16 := 0
  data : List UInt8 := []
deriving DecidableEq, Repr

structure TxBufs where
  block : TxRef → UsbcdcTxBuf

instance : LinkStore TxBufs TxRef where
  next m b := (m.block b).next
  setNext m b p := { block := Function.update m.block b { m.block b with next := p } }
  next_setNext m b p := by simp
  next_setNext_of_ne m b c p other := by simp [other]

/-- What a buffer holds behind its link. -/
def TxBufs.content (m : TxBufs) (b : TxRef) : UInt16 × List UInt8 :=
  ((m.block b).len, (m.block b).data)

theorem TxBufs.content_setNext (m : TxBufs) (b : TxRef) (p : Option TxRef)
    : (setNext m b p).content = m.content := by
  funext c
  by_cases same : c = b
  · subst same
    simp [TxBufs.content, setNext]
  · simp [TxBufs.content, setNext, same]

-----------------------------------------------------------------------------------------
-- The transmitter
-----------------------------------------------------------------------------------------

/-- `cdc_ctrl_t` as far as it transmits, and `usbcdc_txPendingQ`. `held` are the buffers that the
transmitter has not given back; `fifo` collects what is written to the endpoint, and `freed` the
buffers that are given back.
-/
structure UsbCdc where
  bufs : TxBufs
  held : TxRef → Bool := fun _ => false
  txPendingQ : EvQueue TxBufs TxRef
  txBuf : Option TxRef := none
  lenToSend : UInt16 := 0
  lastSendIndex : UInt16 := 0
  fifo : List UInt8 := []
  freed : List TxRef := []

/-- `usbcdc_sts_t` -/
inductive UsbcdcSts where
  | usbCdcSuccess
  | usbCdcBusy
  | usbCdcMultiblock
deriving DecidableEq, Repr

/-- `zbhciTx_e` -/
inductive ZbhciTx where
  | zbhciTxSuccess
  | zbhciTxBufferFull
  | zbhciTxBusy
  | zbhciTxFailed
  | zbhciTxTooLong
deriving DecidableEq, Repr

abbrev cdcTxrxEpsize : UInt16 := 64

abbrev txBufLen : UInt16 := 64

def usbCdcInit (bufs : TxBufs) : UsbCdc := { bufs, txPendingQ := evQueueInit none }

/-- `ev_buf_free`; a buffer that is free already raises an exception. -/
def UsbCdc.evBufFree (b : TxRef) (s : UsbCdc) : Option UsbCdc :=
  if s.held b then
    some { s with held := Function.update s.held b false, freed := s.freed ++ [b] }
  else none

def usbcdcIsAvailable (s : UsbCdc) : Bool := s.txBuf.isNone

/-- `epBusy` is what `usbhw_is_ep_busy` returns first. There is no result where the source would
follow NULL or read behind the buffer.
-/
def usbcdcSendBulkData (txCb : TxRef → UsbCdc → Option UsbCdc) (epBusy : Bool) (s : UsbCdc)
    : Option (UInt8 × UsbCdc) := do
  if epBusy then pure (0, s)
  else
    let len := if s.lenToSend > cdcTxrxEpsize then cdcTxrxEpsize else s.lenToSend
    let s := { s with lenToSend := s.lenToSend - len }
    if len = 0 then pure (0, s)
    else
      let txBuf ← s.txBuf
      let data := (s.bufs.block txBuf).data
      if s.lastSendIndex.toNat + len.toNat ≤ data.length then
        let s :=
          { s with
            fifo := s.fifo ++ (data.drop s.lastSendIndex.toNat).take len.toNat
            lastSendIndex := s.lastSendIndex + len }
        if s.lenToSend = 0 then
          let s ← txCb txBuf { s with lastSendIndex := 0 }
          pure (len.toUInt8, { s with txBuf := none })
        else pure (len.toUInt8, s)
      else none

def usbcdcSendData (txCb : TxRef → UsbCdc → Option UsbCdc) (epBusy : Bool) (txBuf : TxRef)
    (s : UsbCdc) : Option (UsbcdcSts × UsbCdc) := do
  if s.txBuf.isSome then pure (.usbCdcBusy, s)
  else
    let s :=
      { s with
        lenToSend := (s.bufs.block txBuf).len
        txBuf := some txBuf
        lastSendIndex := 0 }
    let (_, s) ← usbcdcSendBulkData txCb epBusy s
    pure (.usbCdcSuccess, s)

/-- `send` is `usb_cdc_send`. -/
def usbcdcTxFinishCb (send : TxRef → UsbCdc → Option UsbCdc) (pData : TxRef) (s : UsbCdc)
    : Option UsbCdc := do
  let s ← s.evBufFree pData
  if s.txPendingQ.curNum ≠ 0 then
    let (payload, txPendingQ) := evQueuePop s.txPendingQ s.bufs
    let pTxBuf ← payload
    send pTxBuf.item { s with txPendingQ }
  else pure s

/-- The registered callback may come back here; more nested calls than there are buffers never end.
The endpoint is free in them, as the driver has just waited for it.
-/
def usbCdcSend : Nat → Bool → TxRef → UsbCdc → Option UsbCdc
  | 0, _, _, _ => none
  | fuel + 1, epBusy, pTxBuf, s =>
      if usbcdcIsAvailable s then
        (usbcdcSendData (usbcdcTxFinishCb (usbCdcSend fuel false)) epBusy pTxBuf s).map Prod.snd
      else
        (evQueuePush evBufNum s.txPendingQ ⟨pTxBuf⟩ s.bufs).map fun (_, txPendingQ, bufs) =>
          { s with txPendingQ, bufs }

/-- The callback that `usb_cdc_init` registers. -/
abbrev usbCdcTxCb : TxRef → UsbCdc → Option UsbCdc :=
  usbcdcTxFinishCb (usbCdcSend evBufNum false)

/-- `usbcdc_dataHandler` for the interrupt of the TX endpoint. -/
def usbcdcDataHandler (epBusy : Bool) (s : UsbCdc) : Option UsbCdc :=
  (usbcdcSendBulkData usbCdcTxCb epBusy s).map Prod.snd

def crc8Calculate (type length : UInt16) (data : List UInt8) : UInt8 :=
  (data.take length.toNat).foldl (· ^^^ ·)
    (type.toUInt8 ^^^ (type >>> 8).toUInt8 ^^^ length.toUInt8 ^^^ (length >>> 8).toUInt8)

/-- The encoded message. -/
def usbCdcFrame (u16Type u16Length : UInt16) (pu8Data : List UInt8) : List UInt8 :=
  [(0x55 : UInt8), (u16Type >>> 8).toUInt8, u16Type.toUInt8, (u16Length >>> 8).toUInt8, u16Length.toUInt8,
    crc8Calculate u16Type u16Length pu8Data]
    ++ pu8Data.take u16Length.toNat ++ [0xAA]

/-- `buf` is what `ev_buf_allocate` returns: NULL or a buffer that is not in use. -/
def usbCdcTxMsg (buf : Option TxRef) (epBusy : Bool) (u16Type u16Length : UInt16)
    (pu8Data : List UInt8) (s : UsbCdc) : Option (ZbhciTx × UsbCdc) := do
  if u16Length > txBufLen then pure (.zbhciTxTooLong, s)
  else
    match buf with
    | none => pure (.zbhciTxFailed, s)
    | some pTxBuf =>
        if s.held pTxBuf ∨ pu8Data.length < u16Length.toNat then none
        else
          let filled : UsbcdcTxBuf :=
            { s.bufs.block pTxBuf with
              len := u16Length + 7
              data := usbCdcFrame u16Type u16Length pu8Data }
          let s :=
            { s with
              bufs := { block := Function.update s.bufs.block pTxBuf filled }
              held := Function.update s.held pTxBuf true }
          let s ← usbCdcSend (evBufNum + 1) epBusy pTxBuf s
          pure (.zbhciTxSuccess, s)

-----------------------------------------------------------------------------------------
-- Runs
-----------------------------------------------------------------------------------------

/-- What happens to the transmitter: a message, a TX interrupt, or other users of the buffers, who
write what they like into those that the transmitter does not hold.
-/
inductive UsbCdcEvent where
  | txMsg (buf : Option TxRef) (epBusy : Bool) (u16Type u16Length : UInt16) (pu8Data : List UInt8)
  | txIrq (epBusy : Bool)
  | others (block : TxRef → UsbcdcTxBuf)

/-- A message that was taken: its buffer and its bytes. -/
abbrev TxMessage := TxRef × List UInt8

/-- The state afterwards, and the message if the call returned `ZBHCI_TX_SUCCESS`. -/
def UsbCdcEvent.step (s : UsbCdc) : UsbCdcEvent → Option (UsbCdc × Option TxMessage)
  | .txMsg buf epBusy u16Type u16Length pu8Data =>
      (usbCdcTxMsg buf epBusy u16Type u16Length pu8Data s).map fun (sts, s) =>
        (s, if sts = .zbhciTxSuccess then buf.map (·, usbCdcFrame u16Type u16Length pu8Data)
          else none)
  | .txIrq epBusy => (usbcdcDataHandler epBusy s).map (·, none)
  | .others block =>
      some ({ s with
        bufs := { block := fun b => if s.held b then s.bufs.block b else block b } }, none)

/-- The caller's data is there, and `ev_buf_allocate` hands out no buffer that is held. -/
def UsbCdcEvent.Legal (s : UsbCdc) : UsbCdcEvent → Prop
  | .txMsg buf _ _ u16Length pu8Data =>
      u16Length.toNat ≤ pu8Data.length ∧ ∀ b, buf = some b → s.held b = false
  | _ => True

/-- An interrupt that sends the last bytes of a message finds no other message waiting. -/
def UsbCdcEvent.Alone (s : UsbCdc) : UsbCdcEvent → Prop
  | .txIrq epBusy =>
      epBusy = false → s.lenToSend ≠ 0 → s.lenToSend ≤ cdcTxrxEpsize → s.txPendingQ.curNum = 0
  | _ => True

/-- The messages that were taken so far, and the state, in a run in which every message ends alone. -/
inductive UsbCdcRun : List TxMessage → UsbCdc → Prop where
  | init (bufs : TxBufs) : UsbCdcRun [] (usbCdcInit bufs)
  | step {messages : List TxMessage} {s s' : UsbCdc} {event : UsbCdcEvent}
      {taken : Option TxMessage} (before : UsbCdcRun messages s) (alone : event.Alone s)
      (step : event.step s = some (s', taken)) : UsbCdcRun (messages ++ taken.toList) s'

/-- The endpoint has been given whole messages in the order of the calls and a part of the next one,
exactly the buffers of the whole ones are free again, each once, and an idle transmitter has
nothing left to send.
-/
def InOrder (messages : List TxMessage) (s : UsbCdc) : Prop :=
  ∃ done todo part, messages = done ++ todo
    ∧ s.fifo = (done.map Prod.snd).flatten ++ part
    ∧ (part = [] ∨ ∃ m rest, todo = m :: rest ∧ part <+: m.2 ∧ part ≠ m.2)
    ∧ s.freed = done.map Prod.fst
    ∧ (s.txBuf = none → todo = [] ∧ part = [] ∧ s.txPendingQ.curNum = 0)

end TelinkSdk
