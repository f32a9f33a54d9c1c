import Mathlib.Data.Fintype.Card
import TelinkSdk.Hci.UsbCdc

/-! The order of the messages. The end of a transfer hands the next message to `usb_cdc_send` before
the driver is marked free, so the message goes back into the queue and nothing sends it any more: the
endpoint is given all messages in order exactly as long as none ends while another one waits.
-/

namespace TelinkSdk

open Links LinkView LinkStore

variable {s s' : UsbCdc} {messages done rest : List TxMessage} {cur : Option TxMessage}
  {m : TxMessage}

-----------------------------------------------------------------------------------------
-- The invariant
-----------------------------------------------------------------------------------------

/-- The buffer of a message that is not yet sent holds its bytes. -/
structure LoadedMsg (s : UsbCdc) (m : TxMessage) : Prop where
  held : s.held m.1 = true
  content : s.bufs.content m.1 = (.ofNat m.2.length, m.2)
  nonempty : m.2 ≠ []
  short : m.2.length < 65536

/-- `done` is sent, `cur` is on its way and `rest` waits in the queue. -/
structure Transmitting (messages : List TxMessage) (s : UsbCdc) (done : List TxMessage)
    (cur : Option TxMessage) (rest : List TxMessage) : Prop where
  split : messages = done ++ (cur.toList ++ rest)
  txBuf : s.txBuf = cur.map Prod.fst
  idle : cur = none → rest = [] ∧ s.lenToSend = 0
  queued : Queued s.txPendingQ s.bufs (rest.map Prod.fst)
  priFunc : s.txPendingQ.priFunc = none
  loaded : ∀ m ∈ cur.toList ++ rest, LoadedMsg s m
  nodup : ((cur.toList ++ rest).map Prod.fst).Nodup
  fifo : s.fifo = (done.map Prod.snd).flatten
    ++ (cur.map fun m => m.2.take s.lastSendIndex.toNat).getD []
  left : ∀ m, cur = some m
    → 0 < s.lenToSend.toNat ∧ s.lastSendIndex.toNat + s.lenToSend.toNat = m.2.length
  freed : s.freed = done.map Prod.fst

theorem Transmitting.inOrder (t : Transmitting messages s done cur rest) : InOrder messages s := by
  refine ⟨done, cur.toList ++ rest, _, t.split, t.fifo, ?_, t.freed, fun idle => ?_⟩
  · cases cur with
    | none => exact Or.inl rfl
    | some m =>
        obtain ⟨positive, total⟩ := t.left m rfl
        refine Or.inr ⟨m, rest, rfl, List.take_prefix _ _, fun whole => ?_⟩
        have length := congrArg List.length whole
        simp only [Option.map_some, Option.getD_some, List.length_take] at length
        omega
  · rw [t.txBuf, Option.map_eq_none_iff] at idle
    subst idle
    obtain ⟨rfl, -⟩ := t.idle rfl
    refine ⟨rfl, rfl, ?_⟩
    have count := t.queued.curNum
    exact UInt32.toNat_inj.mp count

theorem Transmitting.init (bufs : TxBufs) : Transmitting [] (usbCdcInit bufs) [] none [] where
  split := rfl
  txBuf := rfl
  idle := fun _ => ⟨rfl, rfl⟩
  queued := ⟨rfl, rfl, rfl⟩
  priFunc := rfl
  loaded := by simp
  nodup := by simp
  fifo := rfl
  left := by simp
  freed := rfl

/-- There are fewer buffers than the queue can count. -/
theorem room_of_nodup {l : List TxRef} (nodup : l.Nodup) : l.length < 255 := by
  have bound : l.length ≤ 37 := by simpa using nodup.length_le_card
  omega

-----------------------------------------------------------------------------------------
-- The end of a transfer
-----------------------------------------------------------------------------------------

/-- Without another message the callback only gives the buffer back. -/
theorem usbCdcTxCb_alone {b : TxRef} (held : s.held b = true) (alone : s.txPendingQ.curNum = 0)
    : usbCdcTxCb b s
        = some { s with held := Function.update s.held b false, freed := s.freed ++ [b] } := by
  simp [usbCdcTxCb, usbcdcTxFinishCb, UsbCdc.evBufFree, held, alone]

/-- The driver is not free yet, so the next message goes to the end of the queue. -/
theorem usbCdcSend_waits (fuel : Nat) (epBusy : Bool) {b : TxRef} {l : List TxRef}
    (taken : s.txBuf ≠ none) (queued : Queued s.txPendingQ s.bufs l)
    (priFunc : s.txPendingQ.priFunc = none) (nodup : (b :: l).Nodup)
    : ∃ txPendingQ bufs, usbCdcSend (fuel + 1) epBusy b s = some { s with txPendingQ, bufs }
      ∧ Queued txPendingQ bufs (l ++ [b]) ∧ txPendingQ.priFunc = none
      ∧ bufs.content = s.bufs.content := by
  obtain ⟨fresh, others⟩ := List.nodup_cons.mp nodup
  obtain ⟨q, bufs, push, leaves⟩ : ∃ q bufs,
      evQueueRawPush evBufNum s.txPendingQ (some b) s.bufs = some (.queueSucc, q, bufs)
        ∧ Leaves s.txPendingQ s.bufs q bufs (l ++ [b]) :=
    queued.push_fifo (room_of_nodup others) priFunc fresh
  have busy : ¬usbcdcIsAvailable s = true := by
    simpa [usbcdcIsAvailable] using taken
  refine ⟨q, bufs, ?_, leaves.queued, leaves.priFunc.trans priFunc,
    evQueueRawPush_fixed TxBufs.content_setNext push⟩
  rw [usbCdcSend, if_neg busy, evQueuePush, evBufGetHead, push]
  rfl

theorem usbCdcTxCb_waiting {b x : TxRef} {l : List TxRef} (held : s.held b = true)
    (taken : s.txBuf ≠ none) (queued : Queued s.txPendingQ s.bufs (x :: l))
    (priFunc : s.txPendingQ.priFunc = none) (nodup : (x :: l).Nodup)
    : ∃ s', usbCdcTxCb b s = some s' ∧ s'.txPendingQ.curNum ≠ 0 := by
  have waiting : s.txPendingQ.curNum ≠ 0 := fun zero => by
    have count := queued.curNum
    rw [zero] at count
    cases count
  obtain ⟨first, leaves⟩ := queued.pop
  let popped : UsbCdc :=
    { s with
      held := Function.update s.held b false
      freed := s.freed ++ [b]
      txPendingQ := (evQueueRawPop s.txPendingQ s.bufs).2 }
  obtain ⟨q, bufs, send, back, -⟩ :=
    usbCdcSend_waits (s := popped) 36 false taken leaves.queued (leaves.priFunc.trans priFunc) nodup
  refine ⟨{ popped with txPendingQ := q, bufs }, ?_, ?_⟩
  · simp only [usbCdcTxCb, usbcdcTxFinishCb, UsbCdc.evBufFree, held, if_true, Option.bind_eq_bind,
      Option.bind_some, evQueuePop, first]
    rw [if_pos waiting]
    exact send
  · intro zero
    have count := back.curNum
    rw [zero] at count
    simp at count

-----------------------------------------------------------------------------------------
-- One transaction
-----------------------------------------------------------------------------------------

section Bulk

variable {txCb : TxRef → UsbCdc → Option UsbCdc} {b : TxRef}

/-- A full packet, with more to come. -/
theorem usbcdcSendBulkData_part (txBuf : s.txBuf = some b) (more : s.lenToSend > cdcTxrxEpsize)
    (inside : s.lastSendIndex.toNat + 64 ≤ (s.bufs.block b).data.length)
    : usbcdcSendBulkData txCb false s
        = some (64,
            { s with
              lenToSend := s.lenToSend - 64
              fifo := s.fifo ++ ((s.bufs.block b).data.drop s.lastSendIndex.toNat).take 64
              lastSendIndex := s.lastSendIndex + 64 }) := by
  have left : s.lenToSend - 64 ≠ 0 := fun none => by
    rw [UInt16.sub_eq_iff_eq_add] at none
    rw [none] at more
    exact absurd more (by decide)
  have packet : cdcTxrxEpsize ≠ 0 := by decide
  have size : cdcTxrxEpsize.toNat = 64 := rfl
  simp only [usbcdcSendBulkData, if_pos more, if_neg packet, txBuf, Option.bind_eq_bind,
    Option.bind_some, size, if_pos inside, if_neg left]
  rfl

/-- The state in which the callback is called behind the last packet. -/
abbrev UsbCdc.flushed (s : UsbCdc) (b : TxRef) : UsbCdc :=
  { s with
    lenToSend := 0
    fifo := s.fifo ++ ((s.bufs.block b).data.drop s.lastSendIndex.toNat).take s.lenToSend.toNat
    lastSendIndex := 0 }

/-- The last packet. -/
theorem usbcdcSendBulkData_last {after : UsbCdc} (txBuf : s.txBuf = some b)
    (nonzero : s.lenToSend ≠ 0) (few : ¬s.lenToSend > cdcTxrxEpsize)
    (inside : s.lastSendIndex.toNat + s.lenToSend.toNat ≤ (s.bufs.block b).data.length)
    (finish : txCb b (s.flushed b) = some after)
    : usbcdcSendBulkData txCb false s
        = some (s.lenToSend.toUInt8, { after with txBuf := none }) := by
  simp only [UsbCdc.flushed, txBuf] at finish
  simp only [usbcdcSendBulkData, if_neg few, if_neg nonzero, txBuf, Option.bind_eq_bind,
    Option.bind_some, if_pos inside, UInt16.sub_self, if_true, finish]
  rfl

end Bulk

/-- The bytes up to the next packet. -/
theorem take_packet {α : Type*} (f : List α) (i n : Nat)
    : f.take i ++ (f.drop i).take n = f.take (i + n) :=
  (List.take_add ..).symm

/-- A part of a message is sent. -/
theorem Transmitting.part (t : Transmitting messages s done (some m) rest)
    (more : s.lenToSend > cdcTxrxEpsize)
    : ∃ n s', usbcdcSendBulkData usbCdcTxCb false s = some (n, s')
      ∧ Transmitting messages s' done (some m) rest := by
  have loaded := t.loaded m (by simp)
  have data : (s.bufs.block m.1).data = m.2 := congrArg Prod.snd loaded.content
  obtain ⟨positive, total⟩ := t.left m rfl
  have packet : 64 < s.lenToSend.toNat := UInt16.lt_iff_toNat_lt.mp more
  have less : (s.lenToSend - 64).toNat = s.lenToSend.toNat - 64 :=
    UInt16.toNat_sub_of_le _ _ (UInt16.le_iff_toNat_le.mpr (Nat.le_of_lt packet))
  have short := loaded.short
  have index : (s.lastSendIndex + 64).toNat = s.lastSendIndex.toNat + 64 := by
    rw [UInt16.toNat_add]
    exact Nat.mod_eq_of_lt (by simp; omega)
  have run := @usbcdcSendBulkData_part s usbCdcTxCb m.1 t.txBuf more (by rw [data]; omega)
  refine ⟨_, _, run, t.split, t.txBuf, nofun, t.queued, t.priFunc,
    fun x inside => ?_, t.nodup, ?_, ?_, t.freed⟩
  · obtain ⟨held, content, nonempty, short⟩ := t.loaded x inside
    exact ⟨held, content, nonempty, short⟩
  · have fifo := t.fifo
    simp only [Option.map_some, Option.getD_some] at fifo ⊢
    rw [fifo, data, List.append_assoc, take_packet, index]
  · rintro x ⟨⟩
    rw [less, index]
    omega

/-- The rest of a message is sent. -/
theorem Transmitting.flush (t : Transmitting messages s done (some m) rest)
    (few : ¬s.lenToSend > cdcTxrxEpsize) {after : UsbCdc}
    (finish : usbCdcTxCb m.1 (s.flushed m.1) = some after)
    : usbcdcSendBulkData usbCdcTxCb false s
        = some (s.lenToSend.toUInt8, { after with txBuf := none }) := by
  have data : (s.bufs.block m.1).data = m.2 := congrArg Prod.snd (t.loaded m (by simp)).content
  obtain ⟨positive, total⟩ := t.left m rfl
  have nonzero : s.lenToSend ≠ 0 := fun zero => by
    rw [zero] at positive
    cases positive
  exact usbcdcSendBulkData_last t.txBuf nonzero few (by rw [data]; omega) finish

/-- It was the only message. -/
theorem Transmitting.last (t : Transmitting messages s done (some m) [])
    (few : ¬s.lenToSend > cdcTxrxEpsize)
    : ∃ n s', usbcdcSendBulkData usbCdcTxCb false s = some (n, s')
      ∧ Transmitting messages s' (done ++ [m]) none [] := by
  obtain ⟨held, content, -, -⟩ := t.loaded m (by simp)
  have data : (s.bufs.block m.1).data = m.2 := congrArg Prod.snd content
  obtain ⟨positive, total⟩ := t.left m rfl
  have alone : (s.flushed m.1).txPendingQ.curNum = 0 :=
    UInt32.toNat_inj.mp t.queued.curNum
  have run := t.flush few (usbCdcTxCb_alone (s := s.flushed m.1) held alone)
  refine ⟨_, _, run, ?_, rfl, fun _ => ⟨rfl, rfl⟩, t.queued, t.priFunc, nofun, by simp, ?_, nofun, ?_⟩
  · simpa using t.split
  · have fifo := t.fifo
    simp only [Option.map_some, Option.getD_some] at fifo
    simp [fifo, data, take_packet, total]
  · simp [t.freed]

/-- Another message waits: it stays in the queue, and the driver is free. -/
theorem Transmitting.strand {x : TxMessage} (t : Transmitting messages s done (some m) (x :: rest))
    (few : ¬s.lenToSend > cdcTxrxEpsize)
    : ∃ n s', usbcdcSendBulkData usbCdcTxCb false s = some (n, s')
      ∧ s'.txBuf = none ∧ s'.txPendingQ.curNum ≠ 0 := by
  obtain ⟨held, -, -, -⟩ := t.loaded m (by simp)
  have taken : (s.flushed m.1).txBuf ≠ none := by simp [t.txBuf]
  have nodup : (x.1 :: rest.map Prod.fst).Nodup := (List.nodup_cons.mp t.nodup).2
  obtain ⟨after, finish, waiting⟩ :=
    usbCdcTxCb_waiting (s := s.flushed m.1) held taken t.queued t.priFunc nodup
  exact ⟨_, _, t.flush few finish, rfl, waiting⟩

-----------------------------------------------------------------------------------------
-- Events
-----------------------------------------------------------------------------------------

theorem usbcdcSendBulkData_busy (txCb : TxRef → UsbCdc → Option UsbCdc) (s : UsbCdc)
    : usbcdcSendBulkData txCb true s = some (0, s) :=
  rfl

theorem usbcdcSendBulkData_nothing (txCb : TxRef → UsbCdc → Option UsbCdc) (nothing : s.lenToSend = 0)
    : usbcdcSendBulkData txCb false s = some (0, s) := by
  rcases s with ⟨bufs, held, txPendingQ, txBuf, lenToSend, lastSendIndex, fifo, freed⟩
  obtain rfl : lenToSend = 0 := nothing
  have few : ¬(0 : UInt16) > cdcTxrxEpsize := by decide
  simp [usbcdcSendBulkData, few]

/-- What a transaction does to the messages. The third case is that of a message that does not end
alone.
-/
inductive Sends (messages : List TxMessage) (s' : UsbCdc) (done : List TxMessage)
    (cur : Option TxMessage) (rest : List TxMessage) (alone : Prop) : Prop where
  | keeps (t : Transmitting messages s' done cur rest) (alone : alone)
  | ends (m : TxMessage) (last : cur = some m ∧ rest = [])
      (t : Transmitting messages s' (done ++ [m]) none []) (alone : alone)
  | strands (idle : s'.txBuf = none) (waiting : s'.txPendingQ.curNum ≠ 0) (apart : ¬alone)

theorem Transmitting.bulk (t : Transmitting messages s done cur rest) (epBusy : Bool)
    : ∃ n s', usbcdcSendBulkData usbCdcTxCb epBusy s = some (n, s')
      ∧ Sends messages s' done cur rest ((UsbCdcEvent.txIrq epBusy).Alone s) := by
  cases epBusy with
  | true =>
      exact ⟨0, s, usbcdcSendBulkData_busy _ s, .keeps t nofun⟩
  | false =>
      cases cur with
      | none =>
          obtain ⟨-, nothing⟩ := t.idle rfl
          exact ⟨0, s, usbcdcSendBulkData_nothing _ nothing, .keeps t fun _ some => absurd nothing some⟩
      | some m =>
          by_cases more : s.lenToSend > cdcTxrxEpsize
          · obtain ⟨n, s', run, t'⟩ := t.part more
            exact ⟨n, s', run, .keeps t' fun _ _ few => absurd more (UInt16.not_lt.mpr few)⟩
          · cases rest with
            | nil =>
                obtain ⟨n, s', run, t'⟩ := t.last more
                exact ⟨n, s', run, .ends m ⟨rfl, rfl⟩ t' fun _ _ _ =>
                  UInt32.toNat_inj.mp t.queued.curNum⟩
            | cons x rest =>
                obtain ⟨n, s', run, idle, waiting⟩ := t.strand more
                refine ⟨n, s', run, .strands idle waiting fun alone => ?_⟩
                obtain ⟨positive, -⟩ := t.left m rfl
                have nonzero : s.lenToSend ≠ 0 := fun zero => by
                  rw [zero] at positive
                  cases positive
                have none := alone rfl nonzero (UInt16.not_lt.mp more)
                have count := t.queued.curNum
                rw [none] at count
                cases count

/-- What the transmitter holds is not written by others. -/
theorem Transmitting.others (t : Transmitting messages s done cur rest)
    (block : TxRef → UsbcdcTxBuf)
    : Transmitting messages
        { s with bufs := { block := fun b => if s.held b then s.bufs.block b else block b } }
        done cur rest := by
  have kept : ∀ m ∈ cur.toList ++ rest, (if s.held m.1 then s.bufs.block m.1 else block m.1)
      = s.bufs.block m.1 := fun m inside => if_pos (t.loaded m inside).held
  refine ⟨t.split, t.txBuf, t.idle, t.queued.congr fun b inside => ?_, t.priFunc, fun m inside => ?_,
    t.nodup, t.fifo, t.left, t.freed⟩
  · obtain ⟨m, waits, rfl⟩ := List.mem_map.mp inside
    exact congrArg UsbcdcTxBuf.next (kept m (List.mem_append_right _ waits))
  · obtain ⟨held, content, nonempty, short⟩ := t.loaded m inside
    refine ⟨held, ?_, nonempty, short⟩
    simp only [TxBufs.content, kept m inside]
    exact content

/-- A message is at most 71 bytes long. -/
theorem usbCdcFrame_length (u16Type : UInt16) {u16Length : UInt16} {pu8Data : List UInt8}
    (short : u16Length ≤ txBufLen) (there : u16Length.toNat ≤ pu8Data.length)
    : (usbCdcFrame u16Type u16Length pu8Data).length = u16Length.toNat + 7
      ∧ (u16Length + 7).toNat = u16Length.toNat + 7 := by
  have bound : u16Length.toNat ≤ 64 := UInt16.le_iff_toNat_le.mp short
  constructor
  · simp [usbCdcFrame]
    omega
  · rw [UInt16.toNat_add]
    exact Nat.mod_eq_of_lt (by simp; omega)

/-- The state in which `usb_cdc_txMsg` hands the filled buffer to `usb_cdc_send`. -/
abbrev UsbCdc.filled (s : UsbCdc) (b : TxRef) (len : UInt16) (data : List UInt8) : UsbCdc :=
  { s with
    bufs := { block := Function.update s.bufs.block b { s.bufs.block b with len, data } }
    held := Function.update s.held b true }

theorem LoadedMsg.filled {b : TxRef} {len : UInt16} {data : List UInt8} (loaded : LoadedMsg s m)
    (other : m.1 ≠ b)
    : LoadedMsg (s.filled b len data) m := by
  obtain ⟨held, content, nonempty, short⟩ := loaded
  refine ⟨by simp [other, held], ?_, nonempty, short⟩
  simpa [TxBufs.content, other] using content

/-- The new message is loaded, and the others stay so. -/
theorem Transmitting.load {b : TxRef} {len : UInt16} {data : List UInt8}
    (t : Transmitting messages s done cur rest) (free : s.held b = false)
    (length : len.toNat = data.length) (nonempty : data ≠ [])
    : (∀ m ∈ cur.toList ++ (rest ++ [(b, data)]), LoadedMsg (s.filled b len data) m)
      ∧ ((cur.toList ++ (rest ++ [(b, data)])).map Prod.fst).Nodup := by
  have other : ∀ m ∈ cur.toList ++ rest, m.1 ≠ b := by
    rintro m inside rfl
    rw [(t.loaded m inside).held] at free
    cases free
  have len' : len = .ofNat data.length := by
    rw [← length, UInt16.ofNat_toNat]
  have own : LoadedMsg (s.filled b len data) (b, data) := by
    have short : data.length < 65536 := length ▸ len.toNat_lt
    exact ⟨by simp, by simp [TxBufs.content, len'], nonempty, short⟩
  rw [← List.append_assoc]
  constructor
  · intro m inside
    rcases List.mem_append.mp inside with before | last
    · exact (t.loaded m before).filled (other m before)
    · rw [List.mem_singleton] at last
      exact last ▸ own
  · rw [List.map_append, List.nodup_append]
    refine ⟨t.nodup, by simp, ?_⟩
    intro c before d last
    obtain ⟨m, inside, rfl⟩ := List.mem_map.mp before
    simp only [List.map_cons, List.map_nil, List.mem_singleton] at last
    rw [last]
    exact other m inside

/-- A message that finds the driver free goes out at once. -/
theorem Transmitting.startMsg {b : TxRef} {len : UInt16} {data : List UInt8} (epBusy : Bool)
    (t : Transmitting messages s done none rest) (free : s.held b = false)
    (length : len.toNat = data.length) (nonempty : data ≠ [])
    : ∃ s' done' cur', usbCdcSend (evBufNum + 1) epBusy b (s.filled b len data) = some s'
      ∧ Transmitting (messages ++ [(b, data)]) s' done' cur' [] := by
  obtain ⟨rfl, -⟩ := t.idle rfl
  obtain ⟨loaded, nodup⟩ := t.load free length nonempty
  let started : UsbCdc :=
    { s.filled b len data with lenToSend := len, txBuf := some b, lastSendIndex := 0 }
  have empty : Queued s.txPendingQ (s.filled b len data).bufs [] := t.queued.congr nofun
  have first : Transmitting (messages ++ [(b, data)]) started done (some (b, data)) [] := by
    refine ⟨?_, rfl, nofun, empty, t.priFunc, fun m inside => ?_, nodup, ?_, ?_, t.freed⟩
    · rw [t.split]
      simp
    · obtain ⟨held, content, nonempty, short⟩ := loaded m inside
      exact ⟨held, content, nonempty, short⟩
    · simpa [started] using t.fifo
    · rintro m ⟨⟩
      have positive := List.length_pos_iff.mpr nonempty
      simp only [started, UInt16.toNat_zero, Nat.zero_add]
      omega
  obtain ⟨n, s', run, sends⟩ := first.bulk epBusy
  have available : usbcdcIsAvailable (s.filled b len data) = true := by
    simp [usbcdcIsAvailable, t.txBuf]
  have idle : ¬(s.filled b len data).txBuf.isSome = true := by simp [t.txBuf]
  have send : usbCdcSend (evBufNum + 1) epBusy b (s.filled b len data) = some s' := by
    have own : ((s.filled b len data).bufs.block b).len = len := by simp
    have sent : usbcdcSendData usbCdcTxCb epBusy b (s.filled b len data)
        = some (.usbCdcSuccess, s') := by
      rw [usbcdcSendData, if_neg idle, own]
      exact congrArg (Option.bind · fun p => some (UsbcdcSts.usbCdcSuccess, p.2)) run
    rw [usbCdcSend, if_pos available, sent]
    rfl
  cases sends with
  | keeps t' _ => exact ⟨s', done, _, send, t'⟩
  | ends m last t' _ => exact ⟨s', _, _, send, t'⟩
  | strands _ _ apart => exact absurd (fun _ _ _ => UInt32.toNat_inj.mp empty.curNum) apart

/-- A message that does not waits behind the others. -/
theorem Transmitting.queueMsg {b : TxRef} {len : UInt16} {data : List UInt8} (epBusy : Bool)
    (t : Transmitting messages s done (some m) rest) (free : s.held b = false)
    (length : len.toNat = data.length) (nonempty : data ≠ [])
    : ∃ s', usbCdcSend (evBufNum + 1) epBusy b (s.filled b len data) = some s'
      ∧ Transmitting (messages ++ [(b, data)]) s' done (some m) (rest ++ [(b, data)]) := by
  obtain ⟨loaded, nodup⟩ := t.load free length nonempty
  have apart : (b :: rest.map Prod.fst).Nodup := by
    have behind : (rest.map Prod.fst ++ [b]).Nodup := by
      simpa using (List.nodup_cons.mp nodup).2
    exact List.nodup_append_comm.mp behind
  have fresh := (List.nodup_cons.mp apart).1
  have queued : Queued s.txPendingQ (s.filled b len data).bufs (rest.map Prod.fst) :=
    t.queued.congr fun c inside => by
      have other : c ≠ b := fun same => fresh (same ▸ inside)
      simp [LinkView.next, other]
  have taken : (s.filled b len data).txBuf ≠ none := by simp [t.txBuf]
  obtain ⟨q, bufs, send, later, priFunc, content⟩ :=
    usbCdcSend_waits (s := s.filled b len data) evBufNum epBusy taken queued t.priFunc apart
  refine ⟨_, send, ?_, t.txBuf, nofun, ?_, priFunc, fun x inside => ?_, nodup, t.fifo, t.left, t.freed⟩
  · rw [t.split]
    simp
  · simpa using later
  · obtain ⟨held, kept, nonempty, short⟩ := loaded x inside
    exact ⟨held, (congrFun content x.1).trans kept, nonempty, short⟩

/-- A taken message goes out at once or waits behind the others. -/
theorem Transmitting.txMsg {b : TxRef} {u16Length : UInt16} {pu8Data : List UInt8}
    (t : Transmitting messages s done cur rest) (epBusy : Bool) (u16Type : UInt16)
    (short : u16Length ≤ txBufLen)
    (there : u16Length.toNat ≤ pu8Data.length) (free : s.held b = false)
    : ∃ s' done' cur' rest', usbCdcTxMsg (some b) epBusy u16Type u16Length pu8Data s
        = some (.zbhciTxSuccess, s')
      ∧ Transmitting (messages ++ [(b, usbCdcFrame u16Type u16Length pu8Data)]) s' done' cur'
          rest' := by
  obtain ⟨frameLength, len⟩ := usbCdcFrame_length u16Type short there
  have length : (u16Length + 7).toNat = (usbCdcFrame u16Type u16Length pu8Data).length :=
    len.trans frameLength.symm
  have nonempty : usbCdcFrame u16Type u16Length pu8Data ≠ [] := by simp [usbCdcFrame]
  have handed {s' : UsbCdc}
      (send : usbCdcSend (evBufNum + 1) epBusy b
        (s.filled b (u16Length + 7) (usbCdcFrame u16Type u16Length pu8Data)) = some s')
      : usbCdcTxMsg (some b) epBusy u16Type u16Length pu8Data s = some (.zbhciTxSuccess, s') := by
    have fits : ¬u16Length > txBufLen := UInt16.not_lt.mpr short
    have usable : ¬(s.held b = true ∨ pu8Data.length < u16Length.toNat) := by
      simpa [free] using there
    simp only [usbCdcTxMsg, if_neg fits, if_neg usable]
    exact congrArg (Option.bind · fun s => some (ZbhciTx.zbhciTxSuccess, s)) send
  cases cur with
  | none =>
      obtain ⟨s', done', cur', send, t'⟩ := t.startMsg epBusy free length nonempty
      exact ⟨s', done', cur', [], handed send, t'⟩
  | some m =>
      obtain ⟨s', send, t'⟩ := t.queueMsg epBusy free length nonempty
      exact ⟨s', done, some m, _, handed send, t'⟩

/-- A call that takes no message changes nothing. -/
theorem usbCdcTxMsg_cases {buf : Option TxRef} {epBusy : Bool} {u16Type u16Length : UInt16}
    {pu8Data : List UInt8} {sts : ZbhciTx}
    (run : usbCdcTxMsg buf epBusy u16Type u16Length pu8Data s = some (sts, s'))
    : (s' = s ∧ sts ≠ .zbhciTxSuccess)
      ∨ ∃ b, buf = some b ∧ u16Length ≤ txBufLen ∧ u16Length.toNat ≤ pu8Data.length
        ∧ s.held b = false := by
  by_cases long : u16Length > txBufLen
  · simp only [usbCdcTxMsg, if_pos long] at run
    cases run
    exact Or.inl ⟨rfl, nofun⟩
  · cases buf with
    | none =>
        simp only [usbCdcTxMsg, if_neg long] at run
        cases run
        exact Or.inl ⟨rfl, nofun⟩
    | some b =>
        by_cases unusable : s.held b = true ∨ pu8Data.length < u16Length.toNat
        · simp only [usbCdcTxMsg, if_neg long, if_pos unusable] at run
          cases run
        · rw [not_or, Bool.not_eq_true, Nat.not_lt] at unusable
          exact Or.inr ⟨b, rfl, UInt16.not_lt.mp long, unusable.2, unusable.1⟩

theorem Transmitting.event {event : UsbCdcEvent} {taken : Option TxMessage}
    (t : Transmitting messages s done cur rest) (step : event.step s = some (s', taken))
    : (event.Alone s
        ∧ ∃ done' cur' rest', Transmitting (messages ++ taken.toList) s' done' cur' rest')
      ∨ (¬event.Alone s ∧ s'.txBuf = none ∧ s'.txPendingQ.curNum ≠ 0) := by
  cases event with
  | others block =>
      cases step
      rw [Option.toList_none, List.append_nil]
      exact Or.inl ⟨trivial, _, _, _, t.others block⟩
  | txIrq epBusy =>
      obtain ⟨after, run, result⟩ := Option.map_eq_some_iff.mp step
      obtain ⟨⟨n, after'⟩, bulk, rfl⟩ := Option.map_eq_some_iff.mp run
      cases result
      obtain ⟨n', s', same, sends⟩ := t.bulk epBusy
      rw [bulk, Option.some.injEq, Prod.mk.injEq] at same
      obtain ⟨rfl, rfl⟩ := same
      rw [Option.toList_none, List.append_nil]
      cases sends with
      | keeps t' alone => exact Or.inl ⟨alone, _, _, _, t'⟩
      | ends m last t' alone => exact Or.inl ⟨alone, _, _, _, t'⟩
      | strands idle waiting apart => exact Or.inr ⟨apart, idle, waiting⟩
  | txMsg buf epBusy u16Type u16Length pu8Data =>
      obtain ⟨⟨sts, after⟩, run, result⟩ := Option.map_eq_some_iff.mp step
      cases result
      refine Or.inl ⟨trivial, ?_⟩
      rcases usbCdcTxMsg_cases run with ⟨rfl, other⟩ | ⟨b, rfl, short, there, free⟩
      · rw [if_neg other, Option.toList_none, List.append_nil]
        exact ⟨_, _, _, t⟩
      · obtain ⟨s', done', cur', rest', sent, t'⟩ := t.txMsg epBusy u16Type short there free
        rw [run, Option.some.injEq, Prod.mk.injEq] at sent
        obtain ⟨rfl, rfl⟩ := sent
        exact ⟨done', cur', rest', t'⟩

theorem UsbCdcRun.transmitting (run : UsbCdcRun messages s)
    : ∃ done cur rest, Transmitting messages s done cur rest := by
  induction run with
  | init bufs => exact ⟨[], none, [], .init bufs⟩
  | step _ alone step ih =>
      obtain ⟨done, cur, rest, t⟩ := ih
      rcases t.event step with ⟨-, later⟩ | ⟨apart, -⟩
      · exact later
      · exact absurd alone apart

/-- Every legal event has a result. -/
theorem Transmitting.proceeds (t : Transmitting messages s done cur rest) (event : UsbCdcEvent)
    (legal : event.Legal s)
    : ∃ s' taken, event.step s = some (s', taken) := by
  cases event with
  | others block => exact ⟨_, _, rfl⟩
  | txIrq epBusy =>
      obtain ⟨n, s', run, -⟩ := t.bulk epBusy
      exact ⟨s', none, by rw [UsbCdcEvent.step, usbcdcDataHandler, run]; rfl⟩
  | txMsg buf epBusy u16Type u16Length pu8Data =>
      obtain ⟨there, free⟩ := legal
      by_cases long : u16Length > txBufLen
      · exact ⟨s, none, by simp [UsbCdcEvent.step, usbCdcTxMsg, if_pos long]⟩
      · cases buf with
        | none => exact ⟨s, none, by simp [UsbCdcEvent.step, usbCdcTxMsg, if_neg long]⟩
        | some b =>
            obtain ⟨s', -, -, -, sent, -⟩ :=
              t.txMsg epBusy u16Type (UInt16.not_lt.mp long) there (free b rfl)
            exact ⟨s', _, by rw [UsbCdcEvent.step, sent]; rfl⟩

/-- The messages go out in the order of the calls up to the first one that ends while another one
waits.
-/
theorem usbCdc_inOrder (run : UsbCdcRun messages s)
    : InOrder messages s
      ∧ (∀ event : UsbCdcEvent, event.Legal s → ∃ s' taken, event.step s = some (s', taken))
      ∧ ∀ (event : UsbCdcEvent) s' taken, event.step s = some (s', taken)
        → (InOrder (messages ++ taken.toList) s' ↔ event.Alone s) := by
  obtain ⟨done, cur, rest, t⟩ := run.transmitting
  refine ⟨t.inOrder, t.proceeds, fun event s' taken step => ?_⟩
  rcases t.event step with ⟨alone, _, _, _, t'⟩ | ⟨apart, idle, waiting⟩
  · exact iff_of_true t'.inOrder alone
  · refine iff_of_false ?_ apart
    rintro ⟨_, _, _, -, -, -, -, rests⟩
    exact waiting (rests idle).2.2

-----------------------------------------------------------------------------------------
-- Two messages
-----------------------------------------------------------------------------------------

namespace TwoMessages

/-- The state after an event. -/
def after (s : UsbCdc) (event : UsbCdcEvent) : UsbCdc := ((event.step s).map Prod.fst).getD s

theorem step {s : UsbCdc} {event : UsbCdcEvent} {taken : Option TxMessage}
    (runs : (event.step s).map Prod.snd = some taken)
    : event.step s = some (after s event, taken) := by
  obtain ⟨⟨s', taken'⟩, run, rfl⟩ := Option.map_eq_some_iff.mp runs
  rw [after, run]
  rfl

def booted : UsbCdc := usbCdcInit { block := fun _ => {} }

/-- The endpoint is busy when the first message comes. -/
def first : UsbCdc := after booted (.txMsg (some 0) true 1 1 [7])

def second : UsbCdc := after first (.txMsg (some 1) true 2 1 [8])

/-- The interrupt sends the first one. -/
def sent : UsbCdc := after second (.txIrq false)

/-- A third one goes out at once. -/
def third : UsbCdc := after sent (.txMsg (some 2) false 3 1 [9])

def message (b : TxRef) (u16Type : UInt16) (byte : UInt8) : TxMessage :=
  (b, usbCdcFrame u16Type 1 [byte])

theorem reached : UsbCdcRun [message 0 1 7, message 1 2 8] second := by
  have takes : (UsbCdcEvent.txMsg (some 0) true 1 1 [7]).step booted
      = some (first, some (message 0 1 7)) :=
    step (by rfl)
  have takesToo : (UsbCdcEvent.txMsg (some 1) true 2 1 [8]).step first
      = some (second, some (message 1 2 8)) :=
    step (by rfl)
  have one : UsbCdcRun [message 0 1 7] first := .step (.init _) (by trivial) takes
  exact .step one (by trivial) takesToo

end TwoMessages

namespace MessageEnded

open TwoMessages

/-- The interrupt ends the first message while no other one waits. -/
def ended : UsbCdc := after first (.txIrq false)

/-- The second one goes out at once, and the third is on its way. -/
def next : UsbCdc := after ended (.txMsg (some 1) false 2 1 [8])

def onItsWay : UsbCdc := after next (.txMsg (some 2) true 3 1 [9])

theorem reached : UsbCdcRun [message 0 1 7, message 1 2 8, message 2 3 9] onItsWay := by
  have takes : (UsbCdcEvent.txMsg (some 0) true 1 1 [7]).step booted
      = some (first, some (message 0 1 7)) :=
    step (by rfl)
  have ends : (UsbCdcEvent.txIrq false).step first = some (ended, none) :=
    step (by rfl)
  have sends : (UsbCdcEvent.txMsg (some 1) false 2 1 [8]).step ended
      = some (next, some (message 1 2 8)) :=
    step (by rfl)
  have starts : (UsbCdcEvent.txMsg (some 2) true 3 1 [9]).step next
      = some (onItsWay, some (message 2 3 9)) :=
    step (by rfl)
  have one : UsbCdcRun [message 0 1 7] first := .step (.init _) (by trivial) takes
  have alone : (UsbCdcEvent.txIrq false).Alone first := fun _ _ _ => rfl
  have first : UsbCdcRun [message 0 1 7] ended := .step one alone ends
  have two : UsbCdcRun [message 0 1 7, message 1 2 8] next := .step first (by trivial) sends
  exact .step two (by trivial) starts

end MessageEnded

/-- One message is ended by the interrupt, a second one sent at once and a third taken. -/
theorem usbCdc_inOrder_ended
    : InOrder
        [TwoMessages.message 0 1 7, TwoMessages.message 1 2 8, TwoMessages.message 2 3 9]
        MessageEnded.onItsWay
      ∧ MessageEnded.onItsWay.fifo = usbCdcFrame 1 1 [7] ++ usbCdcFrame 2 1 [8]
      ∧ MessageEnded.onItsWay.freed = [0, 1] :=
  ⟨(usbCdc_inOrder MessageEnded.reached).1, by decide, by decide⟩

/-- The second message stays in the queue of an idle transmitter, and the third one overtakes it. -/
theorem second_message_stranded
    : UsbCdcRun [TwoMessages.message 0 1 7, TwoMessages.message 1 2 8] TwoMessages.second
      ∧ (UsbCdcEvent.txIrq false).step TwoMessages.second = some (TwoMessages.sent, none)
      ∧ TwoMessages.sent.txBuf = none ∧ TwoMessages.sent.txPendingQ.curNum = 1
      ∧ (UsbCdcEvent.txMsg (some 2) false 3 1 [9]).step TwoMessages.sent
        = some (TwoMessages.third, some (TwoMessages.message 2 3 9))
      ∧ TwoMessages.third.fifo = usbCdcFrame 1 1 [7] ++ usbCdcFrame 3 1 [9]
      ∧ ¬InOrder [TwoMessages.message 0 1 7, TwoMessages.message 1 2 8] TwoMessages.sent := by
  refine ⟨TwoMessages.reached, TwoMessages.step (by rfl), by rfl, by rfl, TwoMessages.step (by rfl),
    by decide, ?_⟩
  rintro ⟨_, _, _, -, -, -, -, rests⟩
  have none := (rests rfl).2.2
  revert none
  decide

end TelinkSdk
