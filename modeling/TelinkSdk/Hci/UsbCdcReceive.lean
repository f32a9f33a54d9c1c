import TelinkSdk.Hci.UsbCdc

/-! The receiver of the USB-CDC host interface. The packets of a transfer are collected in one
buffer until a packet that is not full ends it, or until none has come for a while.
-/

namespace TelinkSdk

-----------------------------------------------------------------------------------------
-- The receiver
-----------------------------------------------------------------------------------------

abbrev rxBufLen : Nat := 64

/-- What the host sends at once. -/
structure UsbPacket where
  data : List UInt8
  fits : data.length ≤ cdcTxrxEpsize.toNat

/-- `cdc_ctrl_t` as far as it receives. `rxBuf` has the bytes of the buffer, `timer` is set while
the timeout is pending, and `hung` in the endless loops. `writes` collects the indices into `rxBuf`
that are written, and `handed` the buffers that the callback gets.
-/
structure CdcRx where
  rxBuf : Option (List UInt8) := none
  timer : Bool := false
  lastIndex : UInt8 := 0
  hung : Bool := false
  writes : List Nat := []
  handed : List (List UInt8) := []

def usbcdcSetRxBuf (buf : List UInt8) (s : CdcRx) : CdcRx := { s with rxBuf := some buf }

/-- The callback that `usb_cdc_init` registers; `allocated` tells whether there is a new buffer. -/
def usbcdcRxCb (allocated : Bool) (pData : Option (List UInt8)) (s : CdcRx) : CdcRx :=
  let s := { s with handed := s.handed ++ pData.toList }
  if allocated then usbcdcSetRxBuf (List.replicate rxBufLen 0) s else { s with hung := true }

def usbcdcRecvTimeoutCb (allocated : Bool) (s : CdcRx) : CdcRx :=
  let s := { s with lastIndex := 0 }
  let p := s.rxBuf
  let s := usbcdcRxCb allocated p { s with rxBuf := none }
  if s.hung then s else { s with timer := false }

/-- `cdc_v->rxBuf[cdc_v->lastIndex++] = b`; behind the buffer the byte goes elsewhere. -/
def CdcRx.store (s : CdcRx) (b : UInt8) : CdcRx :=
  { s with
    rxBuf := s.rxBuf.map fun buf => buf.set s.lastIndex.toNat b
    lastIndex := s.lastIndex + 1
    writes := s.writes ++ [s.lastIndex.toNat] }

/-- `usbcdc_recvData`; `scheduled` tells whether there is a timer for the timeout. -/
def usbcdcRecvData (allocated scheduled : Bool) (packet : UsbPacket) (s : CdcRx) : CdcRx :=
  match s.rxBuf with
  | none => { s with hung := true }
  | some _ =>
      let s := { s with timer := false }
      let fEnd := packet.data.length ≠ cdcTxrxEpsize.toNat
      let s := packet.data.foldl CdcRx.store s
      if fEnd then
        let s := { s with lastIndex := 0 }
        let p := s.rxBuf
        usbcdcRxCb allocated p { s with rxBuf := none }
      else { s with timer := scheduled }

/-- The receiver after `usb_cdc_init`, which stops like the callback without a buffer. -/
def usbCdcInitRx (allocated : Bool) : CdcRx :=
  if allocated then usbcdcSetRxBuf (List.replicate rxBufLen 0) {} else { hung := true }

-----------------------------------------------------------------------------------------
-- Runs
-----------------------------------------------------------------------------------------

inductive CdcRxEvent where
  | packet (sent : UsbPacket) (allocated scheduled : Bool)
  | timeout (allocated : Bool)

def CdcRxEvent.data : CdcRxEvent → List UInt8
  | .packet sent _ _ => sent.data
  | .timeout _ => []

/-- The timeout expires only while it is pending. -/
def CdcRxEvent.step (s : CdcRx) (event : CdcRxEvent) : CdcRx :=
  if s.hung then s
  else
    match event with
    | .packet sent allocated scheduled => usbcdcRecvData allocated scheduled sent s
    | .timeout allocated => if s.timer then usbcdcRecvTimeoutCb allocated s else s

/-- The receiver, with the bytes of the packets since the last hand-over, and those of the packets
before each earlier one.
-/
structure CdcRxTrace where
  rx : CdcRx
  received : List UInt8 := []
  expected : List (List UInt8) := []

def CdcRxTrace.step (t : CdcRxTrace) (event : CdcRxEvent) : CdcRxTrace :=
  let rx := event.step t.rx
  if t.rx.hung then t
  else if t.rx.handed.length < rx.handed.length then
    { rx, received := [], expected := t.expected ++ [t.received ++ event.data] }
  else { t with rx, received := t.received ++ event.data }

def cdcRxRun (allocated : Bool) (events : List CdcRxEvent) : CdcRxTrace :=
  events.foldl CdcRxTrace.step { rx := usbCdcInitRx allocated }

/-- A buffer that starts with these bytes and is zero behind them. -/
def rxBufWith (data : List UInt8) : List UInt8 := data ++ List.replicate (rxBufLen - data.length) 0

/-- Every write is inside the buffer, `lastIndex` does not wrap, and the buffers that are handed
over hold the packets that came before.
-/
structure CdcRxTrace.Sound (t : CdcRxTrace) : Prop where
  inside : ∀ i ∈ t.rx.writes, i < rxBufLen
  unwrapped : 255 ∉ t.rx.writes
  handed : t.rx.handed = t.expected.map rxBufWith
  whole : ∀ data ∈ t.expected, data.length ≤ rxBufLen

/-- Behind a full packet that has not been handed over, nothing but an empty packet comes. -/
def EmptyBehindFull (s : CdcRx) (event : CdcRxEvent) : Prop :=
  s.hung = true ∨ s.lastIndex = 0 ∨ event.data = []

def EmptyBehindFullAlong : CdcRxTrace → List CdcRxEvent → Prop
  | _, [] => True
  | t, event :: rest => EmptyBehindFull t.rx event ∧ EmptyBehindFullAlong (t.step event) rest

-----------------------------------------------------------------------------------------
-- Storing a packet
-----------------------------------------------------------------------------------------

variable {s : CdcRx} {t : CdcRxTrace} {data received : List UInt8}

theorem rxBufWith_set (b : UInt8) (room : received.length < rxBufLen)
    : (rxBufWith received).set received.length b = rxBufWith (received ++ [b]) := by
  obtain ⟨more, counted⟩ : ∃ more, rxBufLen - received.length = more + 1 :=
    ⟨rxBufLen - received.length - 1, by omega⟩
  have less : rxBufLen - (received ++ [b]).length = more := by
    rw [List.length_append, List.length_singleton]
    omega
  rw [rxBufWith, rxBufWith, counted, less, List.replicate_succ]
  simp

/-- A packet that finds room goes behind what is there already. -/
theorem store_packet (filled : s.rxBuf = some (rxBufWith received))
    (index : s.lastIndex.toNat = received.length) (room : received.length + data.length ≤ rxBufLen)
    : ∃ lastIndex, data.foldl CdcRx.store s
        = { s with
            rxBuf := some (rxBufWith (received ++ data))
            lastIndex
            writes := s.writes ++ List.range' received.length data.length }
      ∧ lastIndex.toNat = received.length + data.length := by
  induction data generalizing s received with
  | nil => exact ⟨s.lastIndex, by simp [← filled], index⟩
  | cons b rest ih =>
      rw [List.length_cons] at room
      have stored : s.store b
          = { s with
              rxBuf := some (rxBufWith (received ++ [b]))
              lastIndex := s.lastIndex + 1
              writes := s.writes ++ [received.length] } := by
        rw [CdcRx.store, filled, index, Option.map_some, rxBufWith_set b (by omega)]
      have next : (s.lastIndex + 1).toNat = (received ++ [b]).length := by
        simp only [rxBufLen] at room
        rw [UInt8.toNat_add, index]
        simp
        omega
      have filled' : (s.store b).rxBuf = some (rxBufWith (received ++ [b])) := by rw [stored]
      have index' : (s.store b).lastIndex.toNat = (received ++ [b]).length := by
        rw [stored]
        exact next
      obtain ⟨lastIndex, run, last⟩ := ih filled' index' (by simp; omega)
      refine ⟨lastIndex, ?_, by rw [last]; simp; omega⟩
      rw [List.foldl_cons, run, stored]
      simp [List.range'_succ]

/-- Writes are not forgotten. -/
theorem store_writes (data : List UInt8) (s : CdcRx) (i : Nat) (written : i ∈ s.writes)
    : i ∈ (data.foldl CdcRx.store s).writes := by
  induction data generalizing s with
  | nil => exact written
  | cons b rest ih => exact ih (s.store b) (List.mem_append_left _ written)

theorem rxCb_writes (allocated : Bool) (pData : Option (List UInt8))
    : (usbcdcRxCb allocated pData s).writes = s.writes := by
  cases allocated <;> rfl

theorem step_writes (event : CdcRxEvent) (i : Nat) (written : i ∈ s.writes)
    : i ∈ (event.step s).writes := by
  unfold CdcRxEvent.step
  split
  · exact written
  · cases event with
    | packet sent allocated scheduled =>
        simp only [usbcdcRecvData]
        split
        · exact written
        · have stored := store_writes sent.data { s with timer := false } i written
          split
          · rw [rxCb_writes]
            exact stored
          · exact stored
    | timeout allocated =>
        simp only [usbcdcRecvTimeoutCb]
        split
        · split <;> (simp only [rxCb_writes]; exact written)
        · exact written

theorem trace_step_rx (event : CdcRxEvent) (running : t.rx.hung = false)
    : (t.step event).rx = event.step t.rx := by
  simp only [CdcRxTrace.step, running, Bool.false_eq_true, if_false]
  split <;> rfl

theorem trace_run_writes (events : List CdcRxEvent) (i : Nat) (written : i ∈ t.rx.writes)
    : i ∈ (events.foldl CdcRxTrace.step t).rx.writes := by
  induction events generalizing t with
  | nil => exact written
  | cons event rest ih =>
      apply ih
      cases running : t.rx.hung with
      | true =>
          rw [CdcRxTrace.step, if_pos running]
          exact written
      | false =>
          rw [trace_step_rx event running]
          exact step_writes event i written

-----------------------------------------------------------------------------------------
-- The invariant
-----------------------------------------------------------------------------------------

/-- A sound receiver, which unless it hangs has the bytes since the last hand-over in its buffer:
none, or those of one full packet.
-/
structure CdcRxTrace.Collects (t : CdcRxTrace) : Prop where
  inside : ∀ i ∈ t.rx.writes, i < rxBufLen
  handed : t.rx.handed = t.expected.map rxBufWith
  whole : ∀ data ∈ t.expected, data.length ≤ rxBufLen
  filled : t.rx.hung = false → t.rx.rxBuf = some (rxBufWith t.received)
  index : t.rx.hung = false → t.rx.lastIndex.toNat = t.received.length
  packets : t.rx.hung = false → t.received.length = 0 ∨ t.received.length = rxBufLen

theorem CdcRxTrace.Collects.sound (collects : t.Collects) : t.Sound :=
  ⟨collects.inside, fun last => absurd (collects.inside 255 last) (by decide), collects.handed,
    collects.whole⟩

/-- The buffer with everything received so far is handed over. -/
theorem CdcRxTrace.Collects.handOver (collects : t.Collects) (rx : CdcRx)
    (inside : ∀ i ∈ rx.writes, i < rxBufLen) (handed : rx.handed = t.rx.handed)
    (short : data.length ≤ rxBufLen) (allocated : Bool) (index : rx.lastIndex = 0)
    (timer : Bool)
    : CdcRxTrace.Collects
        { rx := { usbcdcRxCb allocated (some (rxBufWith data)) rx with timer }
          received := []
          expected := t.expected ++ [data] } where
  inside := by
    intro i written
    apply inside i
    rw [← rxCb_writes allocated (some (rxBufWith data))]
    exact written
  handed := by
    cases allocated <;> simp [usbcdcRxCb, usbcdcSetRxBuf, handed, collects.handed]
  whole := by
    intro old member
    rcases List.mem_append.mp member with earlier | last
    · exact collects.whole old earlier
    · rw [List.mem_singleton.mp last]
      exact short
  filled := by
    cases allocated <;> simp [usbcdcRxCb, usbcdcSetRxBuf, rxBufWith]
  index := by
    cases allocated <;> simp [usbcdcRxCb, usbcdcSetRxBuf, index]
  packets := by simp

theorem CdcRxTrace.Collects.start (allocated : Bool)
    : CdcRxTrace.Collects { rx := usbCdcInitRx allocated } := by
  cases allocated <;> constructor <;> simp [usbCdcInitRx, usbcdcSetRxBuf, rxBufWith]

/-- A packet that is not full ends the transfer. -/
theorem recvData_ends {sent : UsbPacket} (allocated scheduled : Bool)
    (filled : s.rxBuf = some (rxBufWith received)) (index : s.lastIndex.toNat = received.length)
    (room : received.length + sent.data.length ≤ rxBufLen)
    (short : sent.data.length ≠ cdcTxrxEpsize.toNat)
    : usbcdcRecvData allocated scheduled sent s
      = usbcdcRxCb allocated (some (rxBufWith (received ++ sent.data)))
          { s with
            rxBuf := none
            timer := false
            lastIndex := 0
            writes := s.writes ++ List.range' received.length sent.data.length } := by
  obtain ⟨lastIndex, stored, -⟩ := store_packet (s := { s with timer := false }) filled index room
  simp only [filled] at stored
  simp only [usbcdcRecvData, filled, stored, if_pos short]

/-- A full packet stays in the buffer. -/
theorem recvData_waits {sent : UsbPacket} (allocated scheduled : Bool)
    (filled : s.rxBuf = some (rxBufWith received)) (index : s.lastIndex.toNat = received.length)
    (room : received.length + sent.data.length ≤ rxBufLen)
    (full : sent.data.length = cdcTxrxEpsize.toNat)
    : ∃ lastIndex, usbcdcRecvData allocated scheduled sent s
        = { s with
            rxBuf := some (rxBufWith (received ++ sent.data))
            timer := scheduled
            lastIndex
            writes := s.writes ++ List.range' received.length sent.data.length }
      ∧ lastIndex.toNat = received.length + sent.data.length := by
  obtain ⟨lastIndex, stored, last⟩ :=
    store_packet (s := { s with timer := false }) filled index room
  refine ⟨lastIndex, ?_, last⟩
  simp only [filled] at stored
  simp only [usbcdcRecvData, filled, stored, if_neg (not_not.mpr full)]

theorem recvTimeoutCb_eq (allocated : Bool) (pending : s.timer = true) (running : s.hung = false)
    : usbcdcRecvTimeoutCb allocated s
      = { usbcdcRxCb allocated s.rxBuf { s with lastIndex := 0, rxBuf := none } with
          timer := !allocated } := by
  cases allocated <;>
    simp [usbcdcRecvTimeoutCb, usbcdcRxCb, usbcdcSetRxBuf, pending, running]

/-- What is written for a packet that has room is inside the buffer. -/
theorem CdcRxTrace.Collects.inside_packet (collects : t.Collects) {first count : Nat}
    (room : first + count ≤ rxBufLen)
    : ∀ i ∈ t.rx.writes ++ List.range' first count, i < rxBufLen := by
  intro i written
  rcases List.mem_append.mp written with earlier | now
  · exact collects.inside i earlier
  · have bounds := List.mem_range'_1.mp now
    omega

theorem CdcRxTrace.Collects.packet (collects : t.Collects) (running : t.rx.hung = false)
    (sent : UsbPacket) (allocated scheduled : Bool)
    (allowed : EmptyBehindFull t.rx (.packet sent allocated scheduled))
    : (t.step (.packet sent allocated scheduled)).Collects := by
  have filled := collects.filled running
  have index := collects.index running
  have fits : sent.data.length ≤ rxBufLen := sent.fits
  have room : t.received.length + sent.data.length ≤ rxBufLen := by
    rcases allowed with hangs | first | empty
    · rw [running] at hangs
      cases hangs
    · rw [first] at index
      have none_yet : t.received.length = 0 := index.symm
      omega
    · have nothing : sent.data = [] := empty
      have packets := collects.packets running
      rw [nothing, List.length_nil]
      omega
  have inside := collects.inside_packet room
  by_cases full : sent.data.length = cdcTxrxEpsize.toNat
  · obtain ⟨lastIndex, received, last⟩ :=
      recvData_waits allocated scheduled filled index room full
    have step : t.step (.packet sent allocated scheduled)
        = { t with
            rx :=
              { t.rx with
                rxBuf := some (rxBufWith (t.received ++ sent.data))
                timer := scheduled
                lastIndex
                writes := t.rx.writes ++ List.range' t.received.length sent.data.length }
            received := t.received ++ sent.data } := by
      simp [CdcRxTrace.step, CdcRxEvent.step, running, received, CdcRxEvent.data]
    rw [step]
    have whole : sent.data.length = rxBufLen := full
    refine ⟨inside, collects.handed, collects.whole, fun _ => rfl, fun _ => ?_, fun _ => .inr ?_⟩
    · rw [last, List.length_append]
    · rw [List.length_append]
      omega
  · have ends := recvData_ends allocated scheduled filled index room full
    have step : t.step (.packet sent allocated scheduled)
        = { rx := usbcdcRecvData allocated scheduled sent t.rx
            received := []
            expected := t.expected ++ [t.received ++ sent.data] } := by
      cases allocated <;>
        simp [CdcRxTrace.step, CdcRxEvent.step, running, ends, CdcRxEvent.data, usbcdcRxCb,
          usbcdcSetRxBuf]
    rw [step, ends]
    refine collects.handOver _ inside ?_ ?_ allocated ?_ _
    · rfl
    · rw [List.length_append]
      exact room
    · rfl

theorem CdcRxTrace.Collects.timeout (collects : t.Collects) (running : t.rx.hung = false)
    (allocated : Bool)
    : (t.step (.timeout allocated)).Collects := by
  by_cases pending : t.rx.timer = true
  · have short : t.received.length ≤ rxBufLen := by
      have packets := collects.packets running
      omega
    have step : t.step (.timeout allocated)
        = { rx := usbcdcRecvTimeoutCb allocated t.rx
            received := []
            expected := t.expected ++ [t.received] } := by
      cases allocated <;>
        simp [CdcRxTrace.step, CdcRxEvent.step, running, pending, CdcRxEvent.data,
          recvTimeoutCb_eq, usbcdcRxCb, usbcdcSetRxBuf, collects.filled running]
    rw [step, recvTimeoutCb_eq allocated pending running, collects.filled running]
    refine collects.handOver _ ?_ ?_ short allocated ?_ _
    · exact collects.inside
    · rfl
    · rfl
  · have step : t.step (.timeout allocated) = t := by
      simp [CdcRxTrace.step, CdcRxEvent.step, running, pending, CdcRxEvent.data]
    rw [step]
    exact collects

/-- One event, unless bytes come behind a full packet. -/
theorem CdcRxTrace.Collects.step (collects : t.Collects) {event : CdcRxEvent}
    (allowed : EmptyBehindFull t.rx event)
    : (t.step event).Collects := by
  cases running : t.rx.hung with
  | true =>
      rw [CdcRxTrace.step, if_pos running]
      exact collects
  | false =>
      cases event with
      | packet sent allocated scheduled => exact collects.packet running sent allocated scheduled allowed
      | timeout allocated => exact collects.timeout running allocated

/-- Bytes behind a full packet go behind the buffer. -/
theorem CdcRxTrace.Collects.overrun (collects : t.Collects) {event : CdcRxEvent}
    (late : ¬EmptyBehindFull t.rx event)
    : rxBufLen ∈ (t.step event).rx.writes := by
  simp only [EmptyBehindFull, not_or, Bool.not_eq_true] at late
  obtain ⟨running, waiting, busy⟩ := late
  have index := collects.index running
  have full : t.rx.lastIndex.toNat = rxBufLen := by
    rcases collects.packets running with empty | full
    · have zero : t.rx.lastIndex.toNat = (0 : UInt8).toNat := index.trans empty
      exact absurd (UInt8.toNat_inj.mp zero) waiting
    · exact index.trans full
  cases event with
  | timeout allocated => exact absurd rfl busy
  | packet sent allocated scheduled =>
      obtain ⟨b, rest, split⟩ := List.exists_cons_of_ne_nil busy
      have stored : rxBufLen ∈ (sent.data.foldl CdcRx.store { t.rx with timer := false }).writes := by
        have bytes : sent.data = b :: rest := split
        rw [bytes, List.foldl_cons]
        apply store_writes
        simp [CdcRx.store, full]
      have received : rxBufLen ∈ (usbcdcRecvData allocated scheduled sent t.rx).writes := by
        have filled := collects.filled running
        simp only [usbcdcRecvData, filled] at stored ⊢
        split
        · rw [rxCb_writes]
          exact stored
        · exact stored
      rw [trace_step_rx _ running, CdcRxEvent.step, if_neg (by simp [running])]
      exact received

/-- By induction over the events. -/
theorem CdcRxTrace.Collects.run (collects : t.Collects) (events : List CdcRxEvent)
    : (events.foldl CdcRxTrace.step t).Sound ↔ EmptyBehindFullAlong t events := by
  induction events generalizing t with
  | nil => exact iff_of_true collects.sound trivial
  | cons event rest ih =>
      rw [List.foldl_cons, EmptyBehindFullAlong]
      by_cases allowed : EmptyBehindFull t.rx event
      · rw [ih (collects.step allowed)]
        exact ⟨fun along => ⟨allowed, along⟩, fun along => along.2⟩
      · refine iff_of_false (fun sound => ?_) (fun along => allowed along.1)
        have outside := sound.inside rxBufLen (trace_run_writes rest _ (collects.overrun allowed))
        omega

/-- The receiver stays in its buffer in exactly the runs in which nothing but an empty packet comes
behind a full one before this has been handed over.
-/
theorem usbcdcRecvData_sound_iff (allocated : Bool) (events : List CdcRxEvent)
    : (cdcRxRun allocated events).Sound
      ↔ EmptyBehindFullAlong { rx := usbCdcInitRx allocated } events :=
  (CdcRxTrace.Collects.start allocated).run events

/-- A full packet and one byte more. -/
theorem usbcdcRecvData_overrun
    : 64 ∈ (cdcRxRun true [.packet ⟨List.replicate 64 0, by decide⟩ true true,
        .packet ⟨[1], by decide⟩ true true]).rx.writes
      ∧ ¬(cdcRxRun true [.packet ⟨List.replicate 64 0, by decide⟩ true true,
        .packet ⟨[1], by decide⟩ true true]).Sound := by
  have written : 64 ∈ (cdcRxRun true [.packet ⟨List.replicate 64 0, by decide⟩ true true,
      .packet ⟨[1], by decide⟩ true true]).rx.writes := by decide
  exact ⟨written, fun sound => absurd (sound.inside 64 written) (by decide)⟩

end TelinkSdk
