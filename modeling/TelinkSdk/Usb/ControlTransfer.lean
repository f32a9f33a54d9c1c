import Mathlib.Data.List.Induction
import TelinkSdk.Transfers.Packets
import TelinkSdk.Usb.Control

/-! Transfers on the control endpoint. What is left of a response is cut into packets, one for each
data stage, until the next SETUP packet brings another request.
-/

namespace TelinkSdk.Usb

open Transfers

variable {u16 : ReadU16} {s s' t : UsbControl} {irq : CtrlIrq}

-----------------------------------------------------------------------------------------
-- The buffer of the endpoint
-----------------------------------------------------------------------------------------

/-- The same variables, and `bytes` written behind what was in the buffer. -/
structure Writes (s : UsbControl) (bytes : List UInt8) (s' : UsbControl) : Prop where
  rest : s' = { s with ep := s'.ep }
  ptr : s'.ep.ptr = s.ep.ptr + bytes.length
  packet : s'.ep.packet = s.ep.packet ++ bytes

theorem CtrlEp.packet_set (ep : CtrlEp) (data : UInt8) (inside : ep.ptr < 8)
    : ({ dat := ep.dat.set ep.ptr data, ptr := ep.ptr + 1 } : CtrlEp).packet
      = ep.packet ++ [data] := by
  have long : ep.ptr < (ep.dat.toList.set ep.ptr data).length := by simpa using inside
  simp only [CtrlEp.packet, Vector.toList_set]
  rw [List.take_succ_eq_append_getElem long, List.take_set_of_le (Nat.le_refl _),
    List.getElem_set_self]

theorem UsbControl.write_writes (data : UInt8) (inside : s.ep.ptr < 8)
    : ∃ s', s.write data = some s' ∧ Writes s [data] s' := by
  refine ⟨{ s with ep := { dat := s.ep.dat.set s.ep.ptr data, ptr := s.ep.ptr + 1 } }, ?_,
    rfl, rfl, s.ep.packet_set data inside⟩
  rw [UsbControl.write, CtrlEp.writeData, dif_pos inside]
  rfl

theorem Writes.trans {first second : List UInt8} (early : Writes s first s')
    (late : Writes s' second t)
    : Writes s (first ++ second) t := by
  refine ⟨?_, ?_, ?_⟩
  · rw [late.rest, early.rest]
  · rw [late.ptr, early.ptr, List.length_append, Nat.add_assoc]
  · rw [late.packet, early.packet, List.append_assoc]

theorem CtrlEp.readData_eq {ep : CtrlEp} (inside : ep.ptr < 8)
    : ep.readData = some (ep.dat[ep.ptr], { ep with ptr := ep.ptr + 1 }) :=
  dif_pos inside

theorem UsbControl.read_eq (inside : s.ep.ptr < 8)
    : s.read = some (s.ep.dat[s.ep.ptr], { s with ep := { s.ep with ptr := s.ep.ptr + 1 } }) := by
  rw [UsbControl.read, CtrlEp.readData_eq inside]
  rfl

-----------------------------------------------------------------------------------------
-- Responses
-----------------------------------------------------------------------------------------

/-- What is left of the response. -/
def UsbControl.left (s : UsbControl) : List UInt8 :=
  (s.gResponse.getD []).take s.gResponseLen.toNat

/-- The response ends inside its descriptor, and there is none behind NULL. -/
def Answers (s : UsbControl) : Prop := s.gResponseLen.toNat ≤ (s.gResponse.getD []).length

theorem Answers.congr (answers : Answers s) (response : s'.gResponse = s.gResponse)
    (length : s'.gResponseLen = s.gResponseLen)
    : Answers s' := by
  rw [Answers, response, length]
  exact answers

theorem usbSendResponse.loop_eq {n : Nat} (there : n ≤ (s.gResponse.getD []).length)
    (room : s.ep.ptr + n ≤ 8)
    : ∃ s', usbSendResponse.loop n s = some s'
      ∧ Writes { s with gResponse := s.gResponse.map (·.drop n) }
        ((s.gResponse.getD []).take n) s' := by
  induction n generalizing s with
  | zero =>
      refine ⟨s, rfl, ?_, rfl, ?_⟩
      · cases s with
        | mk ep controlRequest gResponse => cases gResponse <;> rfl
      · exact (List.append_nil _).symm
  | succ n ih =>
      match response : s.gResponse with
      | none => simp [response] at there
      | some [] => simp [response] at there
      | some (byte :: rest) =>
          obtain ⟨t, write, writes⟩ := s.write_writes byte (by omega)
          have later : n ≤ ((some rest).getD []).length := by
            rw [response] at there
            simpa using there
          obtain ⟨s', loop, sent⟩ := ih (s := { t with gResponse := some rest }) later (by
            rw [writes.ptr, List.length_singleton]
            omega)
          refine ⟨s', ?_, ?_⟩
          · rw [usbSendResponse.loop]
            simp only [response, write, Option.bind_eq_bind, Option.bind_some]
            exact loop
          · refine ⟨?_, ?_, ?_⟩
            · rw [sent.rest, writes.rest]
              simp
            · rw [sent.ptr, writes.ptr]
              simp only [Option.getD_some, List.take_succ_cons, List.length_cons, List.length_nil]
              omega
            · rw [sent.packet, writes.packet]
              simp

/-- A data stage takes the next packet of the response. -/
theorem usbSendResponse_eq (answers : Answers s)
    : ∃ s', usbSendResponse s = some s' ∧ s'.ep.packet = s.left.take 8 ∧ s'.left = s.left.drop 8
      ∧ Answers s'
      ∧ s' = { s with ep := s'.ep, gResponse := s'.gResponse, gResponseLen := s'.gResponseLen } := by
  unfold usbSendResponse
  generalize width : (if s.gResponseLen < 8 then s.gResponseLen else 8) = n
  have n_eq : n.toNat = min s.gResponseLen.toNat 8 := by
    rw [← width]
    split <;> rename_i below <;> rw [UInt16.lt_iff_toNat_lt] at below
    · exact (Nat.min_eq_left (Nat.le_of_lt below)).symm
    · exact (Nat.min_eq_right (Nat.le_of_not_lt below)).symm
  have less : (s.gResponseLen - n).toNat = s.gResponseLen.toNat - n.toNat := by
    apply UInt16.toNat_sub_of_le
    rw [UInt16.le_iff_toNat_le, n_eq]
    exact Nat.min_le_left _ _
  unfold Answers at answers
  obtain ⟨s', loop, sent⟩ := usbSendResponse.loop_eq
    (s := { s with gResponseLen := s.gResponseLen - n }.resetPtr) (n := n.toNat)
    (by rw [n_eq]; exact Nat.le_trans (Nat.min_le_left _ _) answers)
    (by rw [n_eq]; exact Nat.le_trans (Nat.le_of_eq (Nat.zero_add _)) (Nat.min_le_right _ _))
  have response : s'.gResponse.getD [] = (s.gResponse.getD []).drop n.toNat := by
    rw [sent.rest]
    change (s.gResponse.map _).getD [] = _
    cases s.gResponse <;> simp
  have length : s'.gResponseLen = s.gResponseLen - n := by rw [sent.rest]; rfl
  refine ⟨s', loop, ?_, ?_, ?_, ?_⟩
  · rw [sent.packet, UsbControl.left, List.take_take, n_eq, Nat.min_comm 8]
    exact List.nil_append _
  · rw [UsbControl.left, UsbControl.left, response, length, less, List.drop_take]
    by_cases short : s.gResponseLen.toNat ≤ 8
    · rw [n_eq, Nat.min_eq_left short, Nat.sub_self, Nat.sub_eq_zero_of_le short]
      rfl
    · rw [n_eq, Nat.min_eq_right (by omega)]
  · rw [Answers, response, length, less, List.length_drop]
    omega
  · rw [sent.rest]
    rfl

-----------------------------------------------------------------------------------------
-- Requests
-----------------------------------------------------------------------------------------

/-- A byte of a packet. -/
def byteAt (dat : Vector UInt8 8) (i : Nat) : UInt8 :=
  if inside : i < 8 then dat[i] else 0

/-- The request that a SETUP packet carries. -/
def UsbRequestHeader.ofPacket (u16 : ReadU16) (dat : Vector UInt8 8) : UsbRequestHeader where
  bmRequestType := byteAt dat 0
  bRequest := byteAt dat 1
  wValue := u16 (byteAt dat 2) (byteAt dat 3)
  wIndex := u16 (byteAt dat 4) (byteAt dat 5)
  wLength := u16 (byteAt dat 6) (byteAt dat 7)

/-- The host sets the line encoding of the virtual serial port. -/
def UsbRequestHeader.SetsLine (r : UsbRequestHeader) : Prop :=
  r.bmRequestType = typeOutClassIntf ∧ r.bRequest = cdcReqSetLineEncoding
    ∧ r.wIndex = controlInterfaceNumber

/-- The line encoding as it goes over the bus. -/
def CdcLineEncoding.bytes (e : CdcLineEncoding) : List UInt8 :=
  [(e.baudRateBPS &&& 0xff).toUInt8, ((e.baudRateBPS >>> 8) &&& 0xff).toUInt8,
    ((e.baudRateBPS >>> 16) &&& 0xff).toUInt8, ((e.baudRateBPS >>> 24) &&& 0xff).toUInt8,
    e.charFormat, e.parityType, e.dataBits]

/-- The line encoding that a packet carries. -/
def CdcLineEncoding.ofPacket (dat : Vector UInt8 8) : CdcLineEncoding where
  baudRateBPS :=
    ((byteAt dat 3).toUInt32 <<< 24) ||| (((byteAt dat 2).toUInt32 <<< 16)
      ||| (((byteAt dat 1).toUInt32 <<< 8) ||| (byteAt dat 0).toUInt32))
  charFormat := byteAt dat 4
  parityType := byteAt dat 5
  dataBits := byteAt dat 6

/-- What every handler leaves as it was, and whether it makes the endpoint stall. -/
structure Handled (stalled : Bool) (s s' : UsbControl) : Prop where
  request : s'.controlRequest = s.controlRequest
  acts : s'.acts = s.acts
  stall : s'.gStall = (stalled || s.gStall)
  answers : Answers s → Answers s'
  line : ¬s.controlRequest.SetsLine → s'.lineEncoding = s.lineEncoding

theorem Handled.of_same (request : s'.controlRequest = s.controlRequest) (acts : s'.acts = s.acts)
    (stall : s'.gStall = s.gStall) (response : s'.gResponse = s.gResponse)
    (length : s'.gResponseLen = s.gResponseLen) (line : s'.lineEncoding = s.lineEncoding)
    : Handled false s s' :=
  ⟨request, acts, stall, fun answers => answers.congr response length, fun _ => line⟩

theorem Handled.trans {stalled : Bool} (first : Handled stalled s s') (second : Handled false s' t)
    : Handled stalled s t := by
  refine ⟨second.request.trans first.request, second.acts.trans first.acts,
    second.stall.trans first.stall, fun answers => second.answers (first.answers answers),
    fun other => ?_⟩
  rw [second.line (by rw [first.request]; exact other), first.line other]

theorem Writes.handled {bytes : List UInt8} (writes : Writes s bytes s') : Handled false s s' := by
  rw [writes.rest]
  exact .of_same rfl rfl rfl rfl rfl rfl

/-- The class requests of the host that the device does not know. -/
def UsbRequestHeader.outStalls (r : UsbRequestHeader) : Bool :=
  r.bRequest ∉ [hidReqSetReport, hidReqSetIdle, hidReqSetProtocol, cdcReqSetControlLineState,
    cdcReqSetLineEncoding]
  ∨ r.bRequest = hidReqSetReport
    ∧ r.valueH ∉ [hidReportItemIn, hidReportItemOut, hidReportItemFeature, hidReportCustom]

/-- The class requests for data that the device does not know. -/
def UsbRequestHeader.inStalls (r : UsbRequestHeader) : Bool :=
  r.bRequest ∉ [cdcReqSendEncapsulatedCommand, hidReqGetReport, hidReqGetIdle, hidReqGetProtocol,
    cdcReqGetLineEncoding]

theorem usbcdcWrite32_writes (value : UInt32) (room : s.ep.ptr + 4 ≤ 8)
    : ∃ s', usbcdcWrite32 s value = some s'
      ∧ Writes s [(value &&& 0xff).toUInt8, ((value >>> 8) &&& 0xff).toUInt8,
          ((value >>> 16) &&& 0xff).toUInt8, ((value >>> 24) &&& 0xff).toUInt8] s' := by
  obtain ⟨s₁, write₁, writes₁⟩ := s.write_writes (value &&& 0xff).toUInt8 (by omega)
  have ptr₁ := writes₁.ptr
  obtain ⟨s₂, write₂, writes₂⟩ := s₁.write_writes ((value >>> 8) &&& 0xff).toUInt8
    (by simp at ptr₁; omega)
  have ptr₂ := writes₂.ptr
  obtain ⟨s₃, write₃, writes₃⟩ := s₂.write_writes ((value >>> 16) &&& 0xff).toUInt8
    (by simp at ptr₁ ptr₂; omega)
  have ptr₃ := writes₃.ptr
  obtain ⟨s₄, write₄, writes₄⟩ := s₃.write_writes ((value >>> 24) &&& 0xff).toUInt8
    (by simp at ptr₁ ptr₂ ptr₃; omega)
  refine ⟨s₄, ?_, ((writes₁.trans writes₂).trans writes₃).trans writes₄⟩
  simp only [usbcdcWrite32, write₁, write₂, write₃, write₄, Option.bind_eq_bind, Option.bind_some]

/-- `CDC_REQ_GetLineEncoding` -/
theorem usbcdcProcessControlRequest_get (start : s.ep.ptr = 0)
    (intf : s.controlRequest.wIndex = controlInterfaceNumber)
    (get : s.controlRequest.bRequest = cdcReqGetLineEncoding)
    : ∃ s', usbcdcProcessControlRequest s = some s' ∧ Writes s s.lineEncoding.bytes s' := by
  obtain ⟨s₁, write₁, writes₁⟩ := usbcdcWrite32_writes (s := s) s.lineEncoding.baudRateBPS
    (by omega)
  have ptr₁ := writes₁.ptr
  obtain ⟨s₂, write₂, writes₂⟩ := s₁.write_writes s.lineEncoding.charFormat
    (by simp at ptr₁; omega)
  have ptr₂ := writes₂.ptr
  obtain ⟨s₃, write₃, writes₃⟩ := s₂.write_writes s.lineEncoding.parityType
    (by simp at ptr₁ ptr₂; omega)
  have ptr₃ := writes₃.ptr
  obtain ⟨s₄, write₄, writes₄⟩ := s₃.write_writes s.lineEncoding.dataBits
    (by simp at ptr₁ ptr₂ ptr₃; omega)
  refine ⟨s₄, ?_, ((writes₁.trans writes₂).trans writes₃).trans writes₄⟩
  have line₁ : s₁.lineEncoding = s.lineEncoding := by rw [writes₁.rest]
  have line₂ : s₂.lineEncoding = s.lineEncoding := by rw [writes₂.rest, line₁]
  have line₃ : s₃.lineEncoding = s.lineEncoding := by rw [writes₃.rest, line₂]
  rw [usbcdcProcessControlRequest, if_neg (not_not.mpr intf), if_pos get]
  simp only [write₁, line₁, write₂, line₂, write₃, line₃, write₄, Option.bind_eq_bind,
    Option.bind_some]

/-- `CDC_REQ_SetLineEncoding` -/
theorem usbcdcProcessControlRequest_set (start : s.ep.ptr = 0)
    (intf : s.controlRequest.wIndex = controlInterfaceNumber)
    (set : s.controlRequest.bRequest = cdcReqSetLineEncoding)
    : usbcdcProcessControlRequest s
      = some { s with
          ep := { s.ep with ptr := 7 }
          lineEncoding := .ofPacket s.ep.dat } := by
  obtain ⟨⟨dat, ptr⟩, r, response, length, stall, rate, proto, status, lines, line, acts⟩ := s
  simp only at start intf set
  subst start
  have other : ¬r.bRequest = cdcReqGetLineEncoding := by rw [set]; decide
  rw [usbcdcProcessControlRequest, if_neg (not_not.mpr intf), if_neg other, if_pos set]
  rfl

/-- Whatever the request is, it does not leave the buffer of the endpoint. -/
theorem usbcdcProcessControlRequest_handled (start : s.ep.ptr = 0)
    (type : s.controlRequest.bmRequestType = typeOutClassIntf
      ∨ s.controlRequest.bRequest = cdcReqGetLineEncoding)
    : ∃ s', usbcdcProcessControlRequest s = some s' ∧ Handled false s s' := by
  by_cases intf : s.controlRequest.wIndex = controlInterfaceNumber
  case neg =>
      refine ⟨s, ?_, .of_same rfl rfl rfl rfl rfl rfl⟩
      rw [usbcdcProcessControlRequest]
      exact if_pos intf
  case pos =>
      by_cases get : s.controlRequest.bRequest = cdcReqGetLineEncoding
      case pos =>
          obtain ⟨s', process, writes⟩ := usbcdcProcessControlRequest_get start intf get
          exact ⟨s', process, writes.handled⟩
      case neg =>
          by_cases set : s.controlRequest.bRequest = cdcReqSetLineEncoding
          case pos =>
              refine ⟨_, usbcdcProcessControlRequest_set start intf set, rfl, rfl, rfl,
                fun answers => answers.congr rfl rfl, fun other => ?_⟩
              exact absurd ⟨type.resolve_right get, set, intf⟩ other
          case neg =>
              simp only [usbcdcProcessControlRequest, intf, get, set, ne_eq, not_true, if_false]
              split
              · exact ⟨_, rfl, .of_same rfl rfl rfl rfl rfl rfl⟩
              · exact ⟨_, rfl, .of_same rfl rfl rfl rfl rfl rfl⟩

theorem usbHandleOutClassIntfReq_handled (stage : Stage) (start : s.ep.ptr = 0)
    (type : s.controlRequest.bmRequestType = typeOutClassIntf)
    : ∃ s', usbHandleOutClassIntfReq stage s = some s'
      ∧ Handled s.controlRequest.outStalls s s' := by
  have read := s.read_eq (by rw [start]; decide)
  have stalled : Handled true s s.stall :=
    ⟨rfl, rfl, rfl, fun answers => answers.congr rfl rfl, fun _ => rfl⟩
  have knows (known : s.controlRequest.bRequest ≠ hidReqSetReport)
      (listed : s.controlRequest.bRequest ∈ [hidReqSetIdle, hidReqSetProtocol,
        cdcReqSetControlLineState, cdcReqSetLineEncoding])
      : s.controlRequest.outStalls = false :=
    decide_eq_false fun stalls =>
      stalls.elim (fun unknown => unknown (List.mem_cons_of_mem _ listed))
        (fun asked => known asked.1)
  unfold usbHandleOutClassIntfReq
  dsimp only
  split_ifs with report feature item idle protocol cdc
  · have known : s.controlRequest.outStalls = false := by
      simp [UsbRequestHeader.outStalls, report, feature]
    rw [known]
    cases stage with
    | setup => exact ⟨_, rfl, .of_same rfl rfl rfl rfl rfl rfl⟩
    | data => simp only [read]; exact ⟨_, rfl, .of_same rfl rfl rfl rfl rfl rfl⟩
  · have known : s.controlRequest.outStalls = false := by
      rcases item with item | item | item <;> simp [UsbRequestHeader.outStalls, report, item]
    rw [known]
    exact ⟨_, rfl, .of_same rfl rfl rfl rfl rfl rfl⟩
  · have unknown : s.controlRequest.outStalls = true := by
      simp only [not_or] at item
      simp [UsbRequestHeader.outStalls, report, feature, item]
    rw [unknown]
    exact ⟨_, rfl, stalled⟩
  · rw [knows report (by simp [idle])]
    cases stage with
    | setup => exact ⟨_, rfl, .of_same rfl rfl rfl rfl rfl rfl⟩
    | data => simp only [read]; exact ⟨_, rfl, .of_same rfl rfl rfl rfl rfl rfl⟩
  · rw [knows report (by simp [protocol])]
    cases stage with
    | setup => exact ⟨_, rfl, .of_same rfl rfl rfl rfl rfl rfl⟩
    | data => simp only [read]; exact ⟨_, rfl, .of_same rfl rfl rfl rfl rfl rfl⟩
  · rw [knows report (by rcases cdc with cdc | cdc <;> simp [cdc])]
    exact usbcdcProcessControlRequest_handled start (.inl type)
  · have unknown : s.controlRequest.outStalls = true := by
      simp only [not_or] at cdc
      simp [UsbRequestHeader.outStalls, report, idle, protocol, cdc]
    rw [unknown]
    exact ⟨_, rfl, stalled⟩

theorem usbHandleInClassIntfReq_handled (start : s.ep.ptr = 0)
    : ∃ s', usbHandleInClassIntfReq s = some s' ∧ Handled s.controlRequest.inStalls s s' := by
  have write (data : UInt8) : ∃ s', s.write data = some s' ∧ Handled false s s' :=
    (s.write_writes data (by rw [start]; decide)).imp fun _ wrote => wrote.imp_right Writes.handled
  have knows (known : s.controlRequest.bRequest ∈ [cdcReqSendEncapsulatedCommand, hidReqGetReport,
      hidReqGetIdle, hidReqGetProtocol, cdcReqGetLineEncoding])
      : s.controlRequest.inStalls = false :=
    decide_eq_false (not_not.mpr known)
  unfold usbHandleInClassIntfReq
  dsimp only
  split_ifs with command report idle protocol get
  · rw [knows (by simp [command])]
    exact write _
  · rw [knows (by simp [report])]
    exact ⟨_, rfl, .of_same rfl rfl rfl rfl rfl rfl⟩
  · rw [knows (by simp [idle])]
    exact write _
  · rw [knows (by simp [protocol])]
    exact write _
  · rw [knows (by simp [get])]
    exact usbcdcProcessControlRequest_handled start (.inr get)
  · have unknown : s.controlRequest.inStalls = true := by
      simp [UsbRequestHeader.inStalls, command, report, idle, protocol, get]
    rw [unknown]
    exact ⟨_, rfl, rfl, rfl, rfl, fun answers => answers.congr rfl rfl, fun _ => rfl⟩

/-- The descriptor that `usb_prepare_desc_data` answers with, as long as it says. -/
def UsbRequestHeader.descriptor? (r : UsbRequestHeader) : Option (List UInt8) :=
  if r.valueH = dtypeDevice then some deviceDesc
  else if r.valueH = dtypeConfiguration then some configurationDesc
  else if r.valueH = dtypeString then
    if usbStringLanguage = r.valueL then some languageDesc
    else if usbStringVendor = r.valueL then some (vendorDesc.take stringVendor.length)
    else if usbStringProduct = r.valueL then some (productDesc.take stringProduct.length)
    else if usbStringSerial = r.valueL then some (serialDesc.take stringSerial.length)
    else none
  else none

theorem UsbControl.respond_handled (response : Option (List UInt8)) (length : UInt16)
    (inside : length.toNat ≤ (response.getD []).length)
    : Answers (s.respond response length)
      ∧ (s.respond response length).left
        = ((response.getD []).take length.toNat).take s.controlRequest.wLength.toNat := by
  unfold Answers UsbControl.left UsbControl.respond
  dsimp only
  rw [List.take_take]
  split
  case isTrue less =>
      rw [UInt16.lt_iff_toNat_lt] at less
      exact ⟨by omega, by rw [Nat.min_eq_left (by omega)]⟩
  case isFalse less =>
      rw [UInt16.lt_iff_toNat_lt] at less
      exact ⟨inside, by rw [Nat.min_eq_right (by omega)]⟩

/-- The response is the descriptor, cut to what the host asks for, or there is none and the
endpoint stalls.
-/
theorem usbPrepareDescData_left (s : UsbControl)
    : Answers (usbPrepareDescData s)
      ∧ (usbPrepareDescData s).left
        = (s.controlRequest.descriptor?.getD []).take s.controlRequest.wLength.toNat
      ∧ usbPrepareDescData s
        = { s with
            gResponse := (usbPrepareDescData s).gResponse
            gResponseLen := (usbPrepareDescData s).gResponseLen
            gStall := s.gStall || s.controlRequest.descriptor?.isNone } := by
  have whole (desc : List UInt8) (length : UInt16) (size : length.toNat = desc.length)
      : Answers (s.respond (some desc) length)
        ∧ (s.respond (some desc) length).left = desc.take s.controlRequest.wLength.toNat := by
    obtain ⟨answers, left⟩ := s.respond_handled (some desc) length (Nat.le_of_eq size)
    refine ⟨answers, left.trans ?_⟩
    rw [size, Option.getD_some, List.take_length]
  have part (string : List UInt8) (size : string.length < 65536)
      : Answers (s.respond (some (stringDesc string)) string.length.toUInt16)
        ∧ (s.respond (some (stringDesc string)) string.length.toUInt16).left
          = ((stringDesc string).take string.length).take s.controlRequest.wLength.toNat := by
    have small : string.length.toUInt16.toNat = string.length := UInt16.toNat_ofNat_of_lt size
    obtain ⟨answers, left⟩ := s.respond_handled (some (stringDesc string)) string.length.toUInt16
      (by rw [small]; exact Nat.le_trans (Nat.le_add_left _ _) (Nat.le_of_eq
        (@List.length_append _ [(2 + string.length - 2).toUInt8, dtypeString] _).symm))
    exact ⟨answers, left.trans (by rw [small]; rfl)⟩
  have none : Answers (s.stall.respond none 0)
      ∧ (s.stall.respond none 0).left = ([] : List UInt8).take s.controlRequest.wLength.toNat :=
    s.stall.respond_handled none 0 (Nat.le_refl _)
  unfold usbPrepareDescData UsbRequestHeader.descriptor?
  dsimp only
  split_ifs <;> simp only [Option.getD_some, Option.isNone_some, Bool.or_false, Option.getD_none,
    Option.isNone_none, Bool.or_true]
  · exact and_assoc.mp ⟨whole deviceDesc _ (by decide), rfl⟩
  · exact and_assoc.mp ⟨whole configurationDesc _ (by decide), rfl⟩
  · exact and_assoc.mp ⟨whole languageDesc _ (by decide), rfl⟩
  · exact and_assoc.mp ⟨part stringVendor (by decide), rfl⟩
  · exact and_assoc.mp ⟨part stringProduct (by decide), rfl⟩
  · exact and_assoc.mp ⟨part stringSerial (by decide), rfl⟩
  · exact and_assoc.mp ⟨none, rfl⟩
  · exact and_assoc.mp ⟨none, rfl⟩

theorem usbSendResponse_handled (answers : Answers s)
    : ∃ s', usbSendResponse s = some s' ∧ Handled false s s' := by
  obtain ⟨s', send, _, _, still, rest⟩ := usbSendResponse_eq answers
  refine ⟨s', send, ?_, ?_, ?_, fun _ => still, fun _ => ?_⟩ <;> rw [rest]
  rfl

theorem usbPrepareDescData_handled (s : UsbControl)
    : Handled s.controlRequest.descriptor?.isNone s (usbPrepareDescData s) := by
  obtain ⟨answers, _, rest⟩ := usbPrepareDescData_left s
  refine ⟨?_, ?_, ?_, fun _ => answers, fun _ => ?_⟩ <;> rw [rest]
  exact Bool.or_comm _ _

/-- The device is asked for a descriptor. -/
def UsbRequestHeader.GetsDescriptor (r : UsbRequestHeader) : Prop :=
  r.bmRequestType = typeInStdDevice ∧ r.bRequest = reqGetDescriptor

/-- The requests at which the endpoint stalls. For a descriptor that there is not, this is in the
SETUP stage alone.
-/
def UsbRequestHeader.stalls (stage : Stage) (r : UsbRequestHeader) : Bool :=
  if r.bmRequestType = typeInStdDevice then
    r.bRequest = reqGetDescriptor ∧ stage = .setup ∧ r.descriptor? = none
  else if r.bmRequestType = typeOutClassIntf then r.outStalls
  else if r.bmRequestType = typeInClassIntf then r.inStalls
  else r.bmRequestType ∉ [typeInStdIntf, typeOutClassEndp, typeInClassEndp, typeOutStdIntf]

/-- A request is handled without leaving the buffer of the endpoint and without reading behind the
response.
-/
theorem usbHandleRequest_handled (stage : Stage) (answers : Answers s)
    : ∃ s', usbHandleRequest stage s = some s'
      ∧ Handled (s.controlRequest.stalls stage) s s' := by
  have nothing : ∃ s', some s.resetPtr = some s' ∧ Handled false s s' :=
    ⟨_, rfl, .of_same rfl rfl rfl rfl rfl rfl⟩
  have enter {stalled : Bool} {result : Option UsbControl}
      (handled : ∃ s', result = some s' ∧ Handled stalled s.resetPtr s')
      : ∃ s', result = some s' ∧ Handled stalled s s' :=
    handled.imp fun _ handled => handled.imp_right fun h =>
      ⟨h.request, h.acts, h.stall, fun ready => h.answers (ready.congr rfl rfl), h.line⟩
  have response {stalled : Bool} {prepared : UsbControl}
      (handled : Handled stalled s.resetPtr prepared)
      : ∃ s', usbSendResponse prepared = some s' ∧ Handled stalled s s' :=
    enter ((usbSendResponse_handled (handled.answers (answers.congr rfl rfl))).imp
      fun _ sent => sent.imp_right handled.trans)
  have same : Handled false s.resetPtr s.resetPtr := .of_same rfl rfl rfl rfl rfl rfl
  have plain (known : s.controlRequest.bmRequestType
      ∈ [typeInStdIntf, typeOutClassEndp, typeInClassEndp, typeOutStdIntf])
      : s.controlRequest.stalls stage = false := by
    simp only [List.mem_cons, List.not_mem_nil, or_false] at known
    rcases known with known | known | known | known <;>
      simp [UsbRequestHeader.stalls, known, typeInStdIntf, typeOutClassEndp, typeInClassEndp,
        typeOutStdIntf, typeInStdDevice, typeOutClassIntf, typeInClassIntf]
  have request : s.resetPtr.controlRequest = s.controlRequest := rfl
  unfold usbHandleRequest
  simp only [request]
  split_ifs with device gets setup interface gets setup out outEndp in_ inEndp set
  · have stalls : s.controlRequest.stalls stage = s.controlRequest.descriptor?.isNone := by
      cases known : s.controlRequest.descriptor? <;>
        simp [UsbRequestHeader.stalls, device, gets, setup, known]
    rw [stalls]
    exact response (usbPrepareDescData_handled s.resetPtr)
  · have knows : s.controlRequest.stalls stage = false := by
      simp [UsbRequestHeader.stalls, device, setup]
    rw [knows]
    exact response same
  · have knows : s.controlRequest.stalls stage = false := by
      simp only [UsbRequestHeader.stalls, if_pos device]
      exact decide_eq_false fun asked => gets asked.1
    rw [knows]
    exact nothing
  · rw [plain (by simp [interface])]
    exact response ⟨rfl, rfl, rfl, fun _ => Nat.zero_le _, fun _ => rfl⟩
  · rw [plain (by simp [interface])]
    exact response same
  · rw [plain (by simp [interface])]
    exact nothing
  · have stalls : s.controlRequest.stalls stage = s.controlRequest.outStalls := by
      rw [UsbRequestHeader.stalls, if_neg device, if_pos out]
    rw [stalls]
    exact enter (usbHandleOutClassIntfReq_handled (s := s.resetPtr) stage rfl out)
  · rw [plain (by simp [outEndp])]
    exact nothing
  · have stalls : s.controlRequest.stalls stage = s.controlRequest.inStalls := by
      rw [UsbRequestHeader.stalls, if_neg device, if_neg out, if_pos in_]
    rw [stalls]
    exact enter (usbHandleInClassIntfReq_handled (s := s.resetPtr) rfl)
  · rw [plain (by simp [inEndp])]
    exact nothing
  · rw [plain (by simp [set])]
    exact nothing
  · have unknown : s.controlRequest.stalls stage = true := by
      simp [UsbRequestHeader.stalls, device, interface, out, outEndp, in_, inEndp, set]
    rw [unknown]
    exact ⟨_, rfl, rfl, rfl, rfl, fun ready => ready.congr rfl rfl, fun _ => rfl⟩

-----------------------------------------------------------------------------------------
-- Interrupts
-----------------------------------------------------------------------------------------

/-- The state in which a SETUP packet is handled. -/
def UsbControl.requested (u16 : ReadU16) (s : UsbControl) : UsbControl :=
  { s with
    ep := { s.ep with ptr := 8 }
    controlRequest := .ofPacket u16 s.ep.dat
    gStall := false }

theorem usbHandleCtlEpSetup_eq (u16 : ReadU16) (s : UsbControl)
    : usbHandleCtlEpSetup u16 s
      = (usbHandleRequest .setup (s.requested u16)).map UsbControl.answer := by
  cases handled : usbHandleRequest .setup (s.requested u16) <;>
    exact congrArg (· >>= fun s => pure s.answer) handled

/-- The state in which a data stage is handled. -/
def UsbControl.resumed (s : UsbControl) : UsbControl := { s.resetPtr with gStall := false }

theorem usbHandleCtlEpData_eq (s : UsbControl)
    : usbHandleCtlEpData s = (usbHandleRequest .data s.resumed).map UsbControl.answer := by
  cases handled : usbHandleRequest .data s.resumed <;>
    exact congrArg (· >>= fun s => pure s.answer) handled

/-- The status stage and the bus reset of an interrupt. -/
def usbHandleEnd (irq : CtrlIrq) (s : UsbControl) : UsbControl :=
  let s := if irq.sta then usbHandleCtlEpStatus s else s
  let s := if irq.reset then usbReset s else s
  { s with gStall := false }

/-- The packet that an interrupt finds in the buffer. -/
def UsbControl.receive (irq : CtrlIrq) (s : UsbControl) : UsbControl :=
  { s with ep := { s.ep with dat := irq.dat } }

/-- An interrupt goes through its stages. -/
theorem usbHandleIrq_stages (setup : onFlag irq.setup (usbHandleCtlEpSetup u16) (s.receive irq) = some s')
    (data : onFlag irq.data usbHandleCtlEpData s' = some t)
    : usbHandleIrq u16 irq s = some (usbHandleEnd irq t) := by
  unfold usbHandleIrq
  unfold UsbControl.receive at setup
  simp only [setup, data, Option.bind_eq_bind, Option.bind_some]
  rfl

/-- What the end of an interrupt leaves as it was. -/
structure Ended (s s' : UsbControl) : Prop where
  ep : s'.ep = s.ep
  request : s'.controlRequest = s.controlRequest
  calm : s'.gStall = false
  response : s'.gResponse = s.gResponse
  length : s'.gResponseLen = s.gResponseLen
  line : s'.lineEncoding = s.lineEncoding

theorem usbHandleEnd_ended (irq : CtrlIrq) (s : UsbControl) : Ended s (usbHandleEnd irq s) := by
  unfold usbHandleEnd usbHandleCtlEpStatus usbReset
  cases irq.sta <;> cases irq.reset <;> exact ⟨rfl, rfl, rfl, rfl, rfl, rfl⟩

/-- An answer without the bytes of its packet. -/
def CtrlAct.outline : CtrlAct → CtrlAct
  | .datAck _ => .datAck []
  | act => act

theorem usbHandleEnd_outline (irq : CtrlIrq) (s : UsbControl)
    : (usbHandleEnd irq s).acts.map CtrlAct.outline
      = s.acts.map CtrlAct.outline
        ++ ((if irq.sta then [if s.gStall then .staStall else .staAck] else [])
          ++ if irq.reset then [.resetEps] else []) := by
  unfold usbHandleEnd usbHandleCtlEpStatus usbReset
  cases irq.sta <;> cases irq.reset <;> cases s.gStall <;> simp [CtrlAct.outline]

/-- The request that an interrupt is about. -/
def UsbControl.current (u16 : ReadU16) (irq : CtrlIrq) (s : UsbControl) : UsbRequestHeader :=
  if irq.setup then .ofPacket u16 irq.dat else s.controlRequest

/-- The answer to a data stage, without the bytes of its packet. -/
def stageOutline (stalled : Bool) : CtrlAct := if stalled then .datStall else .datAck []

/-- The answers to an interrupt about a request, without the bytes of the packets. A status stage
is refused if it comes in one interrupt with a stage that was.
-/
def CtrlIrq.outlines (irq : CtrlIrq) (r : UsbRequestHeader) : List CtrlAct :=
  (if irq.setup then [stageOutline (r.stalls .setup)] else [])
    ++ (if irq.data then [stageOutline (r.stalls .data)] else [])
    ++ (if irq.sta then
        [if (if irq.data then r.stalls .data else irq.setup && r.stalls .setup) then .staStall
          else .staAck]
      else [])
    ++ if irq.reset then [.resetEps] else []

theorem UsbControl.answer_outline (s : UsbControl)
    : s.answer.acts.map CtrlAct.outline
      = s.acts.map CtrlAct.outline ++ [stageOutline s.gStall] := by
  rw [UsbControl.answer, List.map_append]
  cases s.gStall <;> rfl

/-- What a data stage does, that of a SETUP packet or another. -/
structure Staged (stage : Stage) (s s' : UsbControl) : Prop where
  request : s'.controlRequest = s.controlRequest
  stall : s'.gStall = s.controlRequest.stalls stage
  answers : Answers s'
  outline : s'.acts.map CtrlAct.outline
    = s.acts.map CtrlAct.outline ++ [stageOutline (s.controlRequest.stalls stage)]
  line : ¬s.controlRequest.SetsLine → s'.lineEncoding = s.lineEncoding

theorem usbHandleRequest_staged (stage : Stage) (answers : Answers s) (calm : s.gStall = false)
    : ∃ t, usbHandleRequest stage s = some t ∧ Staged stage s t.answer := by
  obtain ⟨t, handle, handled⟩ := usbHandleRequest_handled stage answers
  have stall : t.gStall = s.controlRequest.stalls stage := by
    rw [handled.stall, calm, Bool.or_false]
  refine ⟨t, handle, handled.request, stall, (handled.answers answers).congr rfl rfl, ?_,
    handled.line⟩
  rw [t.answer_outline, handled.acts, stall]

theorem usbHandleCtlEpSetup_staged (u16 : ReadU16) (answers : Answers s)
    : ∃ s', usbHandleCtlEpSetup u16 s = some s' ∧ Staged .setup (s.requested u16) s' := by
  obtain ⟨t, handle, staged⟩ := usbHandleRequest_staged (s := s.requested u16) .setup
    (answers.congr rfl rfl) rfl
  exact ⟨t.answer, by rw [usbHandleCtlEpSetup_eq, handle]; rfl, staged⟩

theorem usbHandleCtlEpData_staged (answers : Answers s)
    : ∃ s', usbHandleCtlEpData s = some s' ∧ Staged .data s s' := by
  obtain ⟨t, handle, staged⟩ := usbHandleRequest_staged (s := s.resumed) .data
    (answers.congr rfl rfl) rfl
  exact ⟨t.answer, by rw [usbHandleCtlEpData_eq, handle]; rfl, staged.request, staged.stall,
    staged.answers, staged.outline, staged.line⟩

/-- What any interrupt does. -/
structure Stepped (u16 : ReadU16) (irq : CtrlIrq) (s s' : UsbControl) : Prop where
  answers : Answers s'
  calm : s'.gStall = false
  request : s'.controlRequest = s.current u16 irq
  outline : s'.acts.map CtrlAct.outline
    = s.acts.map CtrlAct.outline ++ irq.outlines (s.current u16 irq)
  line : (irq.setup ∨ irq.data → ¬(s.current u16 irq).SetsLine)
    → s'.lineEncoding = s.lineEncoding

/-- No interrupt makes the driver leave the buffer of the endpoint or read behind a descriptor, and
the answers are as the request asks for.
-/
theorem usbHandleIrq_stepped (u16 : ReadU16) (irq : CtrlIrq) (answers : Answers s)
    (calm : s.gStall = false)
    : ∃ s', usbHandleIrq u16 irq s = some s' ∧ Stepped u16 irq s s' := by
  have received : Answers (s.receive irq) := answers.congr rfl rfl
  obtain ⟨t, setup, ready, request, stall, outline, line⟩
      : ∃ t, onFlag irq.setup (usbHandleCtlEpSetup u16) (s.receive irq) = some t ∧ Answers t
        ∧ t.controlRequest = s.current u16 irq
        ∧ t.gStall = (irq.setup && (s.current u16 irq).stalls .setup)
        ∧ t.acts.map CtrlAct.outline = s.acts.map CtrlAct.outline
          ++ (if irq.setup then [stageOutline ((s.current u16 irq).stalls .setup)] else [])
        ∧ ((irq.setup → ¬(s.current u16 irq).SetsLine) → t.lineEncoding = s.lineEncoding) := by
    unfold onFlag UsbControl.current
    cases irq.setup with
    | false => exact ⟨_, rfl, received, rfl, calm, (List.append_nil _).symm, fun _ => rfl⟩
    | true =>
        obtain ⟨t, setup, staged⟩ := usbHandleCtlEpSetup_staged u16 received
        exact ⟨t, setup, staged.answers, staged.request, staged.stall, staged.outline,
          fun other => staged.line (other rfl)⟩
  obtain ⟨t', data, done, request', stall', outline', line'⟩
      : ∃ t', onFlag irq.data usbHandleCtlEpData t = some t' ∧ Answers t'
        ∧ t'.controlRequest = s.current u16 irq
        ∧ t'.gStall = (if irq.data then (s.current u16 irq).stalls .data else t.gStall)
        ∧ t'.acts.map CtrlAct.outline = t.acts.map CtrlAct.outline
          ++ (if irq.data then [stageOutline ((s.current u16 irq).stalls .data)] else [])
        ∧ ((irq.data → ¬(s.current u16 irq).SetsLine) → t'.lineEncoding = t.lineEncoding) := by
    unfold onFlag
    cases irq.data with
    | false => exact ⟨_, rfl, ready, request, rfl, (List.append_nil _).symm, fun _ => rfl⟩
    | true =>
        obtain ⟨t', data, staged⟩ := usbHandleCtlEpData_staged ready
        rw [← request]
        exact ⟨t', data, staged.answers, staged.request, staged.stall, staged.outline,
          fun other => staged.line (other rfl)⟩
  have ended := usbHandleEnd_ended irq t'
  refine ⟨_, usbHandleIrq_stages setup data, done.congr ended.response ended.length, ended.calm,
    ended.request.trans request', ?_, ?_⟩
  · rw [usbHandleEnd_outline, outline', outline, stall', stall]
    simp only [CtrlIrq.outlines, List.append_assoc]
  · intro other
    rw [ended.line, line' (fun flag => other (.inr flag)), line (fun flag => other (.inl flag))]

theorem usbHandleIrqs_append (u16 : ReadU16) (first later : List CtrlIrq) (s : UsbControl)
    : usbHandleIrqs u16 (first ++ later) s
      = usbHandleIrqs u16 first s >>= usbHandleIrqs u16 later := by
  induction first generalizing s with
  | nil => rfl
  | cons irq rest ih =>
      simp only [List.cons_append, usbHandleIrqs, Option.bind_eq_bind, Option.bind_assoc]
      congr 1
      funext t
      exact ih t

/-- The driver after its start, whatever lies in the buffer of the endpoint. -/
def usbPowerUp (dat : Vector UInt8 8) : UsbControl := usbcdcInit { ep := { dat } }

/-- No run of interrupts leads out of the model, by induction over them. -/
theorem usbHandleIrqs_answers (u16 : ReadU16) (irqs : List CtrlIrq) (answers : Answers s)
    (calm : s.gStall = false)
    : ∃ s', usbHandleIrqs u16 irqs s = some s' ∧ Answers s' ∧ s'.gStall = false := by
  induction irqs generalizing s with
  | nil => exact ⟨s, rfl, answers, calm⟩
  | cons irq rest ih =>
      obtain ⟨t, step, stepped⟩ := usbHandleIrq_stepped u16 irq answers calm
      obtain ⟨s', run, done⟩ := ih stepped.answers stepped.calm
      refine ⟨s', ?_, done⟩
      rw [usbHandleIrqs, step]
      exact run

theorem usbPowerUp_answers (dat : Vector UInt8 8) : Answers (usbPowerUp dat) := Nat.zero_le _

-----------------------------------------------------------------------------------------
-- Reading a descriptor
-----------------------------------------------------------------------------------------

/-- The packets of the data stages that were acknowledged. -/
def sentPackets (acts : List CtrlAct) : List (List UInt8) :=
  acts.filterMap fun
    | .datAck packet => some packet
    | _ => none

/-- The host reads a descriptor, of which `data` is left. -/
structure Sends (data : List UInt8) (s : UsbControl) : Prop where
  request : s.controlRequest.GetsDescriptor
  answers : Answers s
  left : s.left = data

theorem Sends.congr {data : List UInt8} (sends : Sends data s)
    (request : s'.controlRequest = s.controlRequest) (response : s'.gResponse = s.gResponse)
    (length : s'.gResponseLen = s.gResponseLen)
    : Sends data s' := by
  refine ⟨by rw [request]; exact sends.request, sends.answers.congr response length, ?_⟩
  rw [← sends.left, UsbControl.left, UsbControl.left, response, length]

/-- A response goes out with the next packet. -/
theorem usbSendResponse_sends {data : List UInt8} (sends : Sends data s)
    (calm : s.gStall = false)
    : ∃ s', usbSendResponse s = some s' ∧ Sends (data.drop 8) s'.answer
      ∧ s'.answer.acts = s.acts ++ [.datAck (data.take 8)] := by
  obtain ⟨s', send, packet, left, answers, rest⟩ := usbSendResponse_eq sends.answers
  refine ⟨s', send, ⟨?_, answers, ?_⟩, ?_⟩
  · rw [UsbControl.answer, rest]
    exact sends.request
  · exact left.trans (by rw [sends.left])
  · have acts : s'.acts = s.acts := by rw [rest]
    have stall : s'.gStall = false := by rw [rest]; exact calm
    rw [UsbControl.answer, acts, stall, packet, sends.left]
    rfl

theorem usbHandleRequest_getsDescriptor (stage : Stage)
    (request : s.controlRequest.GetsDescriptor)
    : usbHandleRequest stage s
      = usbSendResponse (if stage = .setup then usbPrepareDescData s.resetPtr else s.resetPtr) := by
  unfold usbHandleRequest
  exact (if_pos request.1).trans (if_pos request.2)

theorem sentPackets_append (first later : List CtrlAct)
    : sentPackets (first ++ later) = sentPackets first ++ sentPackets later :=
  List.filterMap_append

/-- A SETUP packet that asks for a descriptor brings the first packet of it. -/
theorem usbHandleCtlEpSetup_sends {desc : List UInt8} {r : UsbRequestHeader}
    (carried : .ofPacket u16 s.ep.dat = r) (gets : r.GetsDescriptor)
    (known : r.descriptor? = some desc)
    : ∃ s', usbHandleCtlEpSetup u16 s = some s'
      ∧ Sends ((desc.take r.wLength.toNat).drop 8) s'
      ∧ sentPackets s'.acts = sentPackets s.acts ++ [(desc.take r.wLength.toNat).take 8] := by
  subst carried
  obtain ⟨answers, left, rest⟩ := usbPrepareDescData_left (s.requested u16).resetPtr
  have sends : Sends (desc.take (UsbRequestHeader.ofPacket u16 s.ep.dat).wLength.toNat)
      (usbPrepareDescData (s.requested u16).resetPtr) := by
    refine ⟨by rw [rest]; exact gets, answers, left.trans ?_⟩
    change ((UsbRequestHeader.ofPacket u16 s.ep.dat).descriptor?.getD []).take _ = _
    rw [known]
    rfl
  have calm : (usbPrepareDescData (s.requested u16).resetPtr).gStall = false := by
    rw [rest]
    change (false || (UsbRequestHeader.ofPacket u16 s.ep.dat).descriptor?.isNone) = false
    rw [known]
    rfl
  obtain ⟨t, send, sent, acts⟩ := usbSendResponse_sends sends calm
  refine ⟨t.answer, ?_, sent, ?_⟩
  · rw [usbHandleCtlEpSetup_eq, usbHandleRequest_getsDescriptor .setup gets, if_pos rfl, send]
    rfl
  · rw [acts, sentPackets_append, rest]
    rfl

/-- A data stage brings the next packet. -/
theorem usbHandleCtlEpData_sends {data : List UInt8} (sends : Sends data s)
    : ∃ s', usbHandleCtlEpData s = some s' ∧ Sends (data.drop 8) s'
      ∧ sentPackets s'.acts = sentPackets s.acts ++ [data.take 8] := by
  have ready : Sends data s.resumed.resetPtr := sends.congr rfl rfl rfl
  obtain ⟨t, send, sent, acts⟩ := usbSendResponse_sends ready rfl
  refine ⟨t.answer, ?_, sent, ?_⟩
  · rw [usbHandleCtlEpData_eq, usbHandleRequest_getsDescriptor (s := s.resumed) .data sends.request,
      if_neg (by decide), send]
    rfl
  · rw [acts, sentPackets_append]
    rfl

/-- The end of an interrupt sends nothing. -/
theorem usbHandleEnd_sent (irq : CtrlIrq) (s : UsbControl)
    : sentPackets (usbHandleEnd irq s).acts = sentPackets s.acts := by
  unfold usbHandleEnd usbHandleCtlEpStatus usbReset
  cases irq.sta <;> cases irq.reset <;> cases s.gStall <;> simp [sentPackets]

theorem usbHandleEnd_sends {data : List UInt8} (irq : CtrlIrq) (sends : Sends data s)
    : Sends data (usbHandleEnd irq s) := by
  have ended := usbHandleEnd_ended irq s
  exact sends.congr ended.request ended.response ended.length

/-- The data stage of an interrupt, if there is one. -/
theorem onFlag_data_sends {data : List UInt8} (irq : CtrlIrq) (sends : Sends data s)
    : ∃ s', onFlag irq.data usbHandleCtlEpData s = some s'
      ∧ Sends (data.drop (8 * irq.data.toNat)) s'
      ∧ sentPackets s'.acts = sentPackets s.acts ++ packets 8 data irq.data.toNat := by
  unfold onFlag
  cases irq.data with
  | false => exact ⟨s, rfl, sends, (List.append_nil _).symm⟩
  | true =>
      obtain ⟨t, handle, sent, acts⟩ := usbHandleCtlEpData_sends sends
      exact ⟨t, handle, sent, by rw [acts]; exact congrArg _ (packets_succ 8 data 0).symm⟩

/-- Interrupts without a SETUP packet send the packets that are next, one for each data stage, by
induction over them.
-/
theorem usbHandleIrqs_sends {data : List UInt8} {irqs : List CtrlIrq}
    (quiet : ∀ irq ∈ irqs, irq.setup = false) (sends : Sends data s)
    : ∃ s', usbHandleIrqs u16 irqs s = some s'
      ∧ sentPackets s'.acts
        = sentPackets s.acts ++ packets 8 data (irqs.countP (·.data)) := by
  induction irqs generalizing s data with
  | nil => exact ⟨s, rfl, (List.append_nil _).symm⟩
  | cons irq rest ih =>
      have setup : onFlag irq.setup (usbHandleCtlEpSetup u16) (s.receive irq)
          = some (s.receive irq) := by
        rw [onFlag, quiet irq List.mem_cons_self]
        rfl
      have received : Sends data (s.receive irq) := sends.congr rfl rfl rfl
      obtain ⟨t, staged, sent, acts⟩ := onFlag_data_sends irq received
      obtain ⟨s', run, done⟩ := ih (fun i member => quiet i (List.mem_cons_of_mem irq member))
        (usbHandleEnd_sends irq sent)
      refine ⟨s', ?_, ?_⟩
      · rw [usbHandleIrqs, usbHandleIrq_stages setup staged]
        exact run
      · have counted : irq.data.toNat + rest.countP (·.data) = (irq :: rest).countP (·.data) := by
          rw [List.countP_cons, Nat.add_comm]
          cases irq.data <;> rfl
        rw [done, usbHandleEnd_sent, acts, List.append_assoc, ← packets_add, counted]
        rfl

/-- After any interrupts, a SETUP packet that asks for a descriptor starts a transfer of it: however
the later interrupts come, the host takes the descriptor from their packets, cut to the length that
it asked for.
-/
theorem usbGetDescriptor_delivers (u16 : ReadU16) (dat : Vector UInt8 8) (before : List CtrlIrq)
    (irq : CtrlIrq) (later : List CtrlIrq) {desc : List UInt8} {r : UsbRequestHeader}
    (setup : irq.setup = true) (carried : .ofPacket u16 irq.dat = r) (gets : r.GetsDescriptor)
    (known : r.descriptor? = some desc) (quiet : ∀ i ∈ later, i.setup = false)
    (enough : desc.length < 8 * (1 + (irq :: later).countP (·.data))
      ∨ r.wLength.toNat ≤ 8 * (1 + (irq :: later).countP (·.data)))
    : ∃ s s' sent, usbHandleIrqs u16 before (usbPowerUp dat) = some s
      ∧ usbHandleIrqs u16 (before ++ irq :: later) (usbPowerUp dat) = some s'
      ∧ sentPackets s'.acts = sentPackets s.acts ++ sent
      ∧ receive 8 r.wLength.toNat sent = desc.take r.wLength.toNat := by
  obtain ⟨s, start, _⟩ := usbHandleIrqs_answers u16 before (usbPowerUp_answers dat) rfl
  obtain ⟨t, handle, first, acts⟩ := usbHandleCtlEpSetup_sends (s := s.receive irq) carried gets known
  have staged : onFlag irq.setup (usbHandleCtlEpSetup u16) (s.receive irq) = some t := by
    rw [onFlag, setup]
    exact handle
  obtain ⟨t', data, second, acts'⟩ := onFlag_data_sends irq first
  obtain ⟨s', run, done⟩ := usbHandleIrqs_sends quiet (usbHandleEnd_sends irq second)
  have whole : sentPackets s'.acts
      = sentPackets s.acts
        ++ packets 8 (desc.take r.wLength.toNat) (1 + (irq :: later).countP (·.data)) := by
    have counted : irq.data.toNat + later.countP (·.data) = (irq :: later).countP (·.data) := by
      rw [List.countP_cons, Nat.add_comm]
      cases irq.data <;> rfl
    rw [done, usbHandleEnd_sent, acts', acts, List.append_assoc, List.append_assoc, ← packets_add, counted,
      Nat.add_comm 1, packets_succ]
    rfl
  refine ⟨s, s', _, start, ?_, whole, receive_packets ?_ ?_⟩
  · rw [usbHandleIrqs_append, start]
    change usbHandleIrq u16 irq s >>= usbHandleIrqs u16 later = _
    rw [usbHandleIrq_stages staged data]
    exact run
  · exact List.length_take_le _ _
  · refine enough.imp_left fun short => ?_
    rw [List.length_take]
    omega

/-- The low byte comes first. -/
def readU16Le : ReadU16 := fun low high => low.toUInt16 ||| (high.toUInt16 <<< 8)

def quietDat : Vector UInt8 8 := #v[0, 0, 0, 0, 0, 0, 0, 0]

/-- A SETUP packet for the device descriptor. -/
def getDevice : CtrlIrq :=
  { setup := true, dat := #v[0x80, 0x06, 0x00, 0x01, 0x00, 0x00, 0x12, 0x00] }

def nextData : CtrlIrq := { data := true, dat := quietDat }

/-- The device descriptor in three packets. -/
theorem usbGetDescriptor_delivers_device
    : ∃ s s' sent, usbHandleIrqs readU16Le [nextData] (usbPowerUp quietDat) = some s
      ∧ usbHandleIrqs readU16Le ([nextData] ++ getDevice :: [nextData, nextData])
        (usbPowerUp quietDat) = some s'
      ∧ sentPackets s'.acts = sentPackets s.acts ++ sent
      ∧ receive 8 18 sent = deviceDesc.take 18 :=
  have quiet : ∀ irq ∈ [nextData, nextData], irq.setup = false :=
    List.forall_mem_cons.mpr ⟨rfl, List.forall_mem_singleton.mpr rfl⟩
  usbGetDescriptor_delivers readU16Le quietDat [nextData] getDevice [nextData, nextData] rfl rfl
    ⟨rfl, rfl⟩ (show _ = some deviceDesc from rfl) quiet (.inr (by decide))

-----------------------------------------------------------------------------------------
-- What the host sees
-----------------------------------------------------------------------------------------

/-- The answers to a run of interrupts, without the bytes of the packets. `r` is the last request
before it.
-/
def usbOutlines (u16 : ReadU16) : UsbRequestHeader → List CtrlIrq → List CtrlAct
  | _, [] => []
  | r, irq :: rest =>
      let r := if irq.setup then .ofPacket u16 irq.dat else r
      irq.outlines r ++ usbOutlines u16 r rest

theorem usbHandleIrqs_outlines_from (u16 : ReadU16) (irqs : List CtrlIrq) (answers : Answers s)
    (calm : s.gStall = false)
    : ∃ s', usbHandleIrqs u16 irqs s = some s'
      ∧ s'.acts.map CtrlAct.outline
        = s.acts.map CtrlAct.outline ++ usbOutlines u16 s.controlRequest irqs := by
  induction irqs generalizing s with
  | nil => exact ⟨s, rfl, (List.append_nil _).symm⟩
  | cons irq rest ih =>
      obtain ⟨t, step, stepped⟩ := usbHandleIrq_stepped u16 irq answers calm
      obtain ⟨s', run, outline⟩ := ih stepped.answers stepped.calm
      refine ⟨s', ?_, ?_⟩
      · rw [usbHandleIrqs, step]
        exact run
      · rw [outline, stepped.outline, stepped.request, List.append_assoc]
        rfl

/-- Whatever packets arrive in whatever order, the driver stays inside the buffer of the endpoint
and inside its descriptors, and gives to each stage of a request the one answer that the request
asks for.
-/
theorem usbHandleIrqs_outlines (u16 : ReadU16) (dat : Vector UInt8 8) (irqs : List CtrlIrq)
    : ∃ s, usbHandleIrqs u16 irqs (usbPowerUp dat) = some s
      ∧ s.acts.map CtrlAct.outline = usbOutlines u16 {} irqs :=
  usbHandleIrqs_outlines_from u16 irqs (usbPowerUp_answers dat) rfl

-----------------------------------------------------------------------------------------
-- The line encoding
-----------------------------------------------------------------------------------------

instance (r : UsbRequestHeader) : Decidable r.SetsLine := inferInstanceAs (Decidable (_ ∧ _ ∧ _))

/-- What an interrupt adds to the request and the last packet that came for a line encoding. -/
def lineStep (u16 : ReadU16) (history : UsbRequestHeader × Option (Vector UInt8 8)) (irq : CtrlIrq)
    : UsbRequestHeader × Option (Vector UInt8 8) :=
  let r := if irq.setup then .ofPacket u16 irq.dat else history.1
  (r, if (irq.setup ∨ irq.data) ∧ r.SetsLine then some irq.dat else history.2)

/-- The request that a run of interrupts ends with, and the last packet that came while the request
was to set the line encoding.
-/
def lineHistory (u16 : ReadU16) (irqs : List CtrlIrq) : UsbRequestHeader × Option (Vector UInt8 8) :=
  irqs.foldl (lineStep u16) ({}, none)

/-- The request sets the line encoding from the packet in the buffer, in either stage. -/
theorem usbHandleRequest_setsLine (stage : Stage) (sets : s.controlRequest.SetsLine)
    : usbHandleRequest stage s
      = some { s with
          ep := { s.ep with ptr := 7 }
          lineEncoding := .ofPacket s.ep.dat } := by
  obtain ⟨type, request, intf⟩ := sets
  have out : usbHandleRequest stage s = usbHandleOutClassIntfReq stage s.resetPtr := by
    unfold usbHandleRequest
    have same : s.resetPtr.controlRequest = s.controlRequest := rfl
    simp only [same, type]
    rfl
  have process : usbHandleOutClassIntfReq stage s.resetPtr
      = usbcdcProcessControlRequest s.resetPtr := by
    unfold usbHandleOutClassIntfReq
    have same : s.resetPtr.controlRequest = s.controlRequest := rfl
    simp only [same, request]
    rfl
  rw [out, process]
  exact usbcdcProcessControlRequest_set (s := s.resetPtr) rfl intf request

/-- An interrupt about a line encoding takes it from its packet. -/
theorem usbHandleIrq_setsLine (irq : CtrlIrq) (staged : irq.setup ∨ irq.data)
    (sets : (s.current u16 irq).SetsLine)
    : ∃ s', usbHandleIrq u16 irq s = some s' ∧ s'.lineEncoding = .ofPacket irq.dat := by
  obtain ⟨t, setup, request, dat, line⟩
      : ∃ t, onFlag irq.setup (usbHandleCtlEpSetup u16) (s.receive irq) = some t
        ∧ t.controlRequest = s.current u16 irq ∧ t.ep.dat = irq.dat
        ∧ (irq.setup → t.lineEncoding = .ofPacket irq.dat) := by
    unfold onFlag UsbControl.current at *
    cases setup : irq.setup with
    | false => exact ⟨_, rfl, rfl, rfl, fun no => absurd no (by decide)⟩
    | true =>
        rw [setup] at sets
        refine ⟨({ (s.receive irq).requested u16 with
            ep := { dat := irq.dat, ptr := 7 }
            lineEncoding := .ofPacket irq.dat } : UsbControl).answer, ?_, rfl, rfl, fun _ => rfl⟩
        rw [if_pos rfl, usbHandleCtlEpSetup_eq,
          usbHandleRequest_setsLine (s := (s.receive irq).requested u16) .setup sets]
        rfl
  rw [← request] at sets
  obtain ⟨t', data, line'⟩
      : ∃ t', onFlag irq.data usbHandleCtlEpData t = some t'
        ∧ t'.lineEncoding = .ofPacket irq.dat := by
    unfold onFlag
    cases data : irq.data with
    | false =>
        exact ⟨_, rfl, line (staged.resolve_right (by rw [data]; decide))⟩
    | true =>
        refine ⟨({ t.resumed with
            ep := { dat := irq.dat, ptr := 7 }
            lineEncoding := .ofPacket irq.dat } : UsbControl).answer, ?_, rfl⟩
        rw [if_pos rfl, usbHandleCtlEpData_eq,
          usbHandleRequest_setsLine (s := t.resumed) .data sets]
        simp only [Option.map_some, UsbControl.resumed, UsbControl.resetPtr, CtrlEp.resetPtr, dat]
  exact ⟨_, usbHandleIrq_stages setup data, (usbHandleEnd_ended irq t').line.trans line'⟩

/-- The line encoding is that of the last packet that came for it, by induction over the run. -/
theorem usbHandleIrqs_line (u16 : ReadU16) (dat : Vector UInt8 8) (irqs : List CtrlIrq)
    : ∃ s, usbHandleIrqs u16 irqs (usbPowerUp dat) = some s ∧ Answers s ∧ s.gStall = false
      ∧ s.controlRequest = (lineHistory u16 irqs).1
      ∧ s.lineEncoding = ((lineHistory u16 irqs).2.map CdcLineEncoding.ofPacket).getD
        (usbPowerUp dat).lineEncoding := by
  induction irqs using List.reverseRecOn with
  | nil => exact ⟨_, rfl, usbPowerUp_answers dat, rfl, rfl, rfl⟩
  | append_singleton irqs irq ih =>
      obtain ⟨s, run, answers, calm, request, line⟩ := ih
      obtain ⟨s', step, stepped⟩ := usbHandleIrq_stepped u16 irq answers calm
      have history : lineHistory u16 (irqs ++ [irq]) = lineStep u16 (lineHistory u16 irqs) irq :=
        List.foldl_append
      have current : s.current u16 irq = (lineStep u16 (lineHistory u16 irqs) irq).1 := by
        rw [UsbControl.current, request]
        rfl
      refine ⟨s', ?_, stepped.answers, stepped.calm, ?_, ?_⟩
      · rw [usbHandleIrqs_append, run]
        exact congrArg (· >>= usbHandleIrqs u16 []) step
      · rw [history, stepped.request, current]
      · rw [history]
        by_cases took : (irq.setup ∨ irq.data)
          ∧ (lineStep u16 (lineHistory u16 irqs) irq).1.SetsLine
        · obtain ⟨t, step', line'⟩ := usbHandleIrq_setsLine irq took.1 (current ▸ took.2)
          obtain rfl : t = s' := Option.some.inj (step'.symm.trans step)
          have last : (lineStep u16 (lineHistory u16 irqs) irq).2 = some irq.dat :=
            if_pos took
          rw [line', last]
          rfl
        · have last : (lineStep u16 (lineHistory u16 irqs) irq).2 = (lineHistory u16 irqs).2 :=
            if_neg took
          rw [last, stepped.line (fun staged sets => took ⟨staged, current ▸ sets⟩), line]

/-- A byte of a word that is put together from four. -/
theorem word_byte (b₀ b₁ b₂ b₃ : UInt8) (word : UInt32)
    (eq : word = (b₃.toUInt32 <<< 24) ||| ((b₂.toUInt32 <<< 16) ||| ((b₁.toUInt32 <<< 8)
      ||| b₀.toUInt32)))
    : (word &&& 0xff).toUInt8 = b₀ ∧ ((word >>> 8) &&& 0xff).toUInt8 = b₁
      ∧ ((word >>> 16) &&& 0xff).toUInt8 = b₂ ∧ ((word >>> 24) &&& 0xff).toUInt8 = b₃ := by
  subst eq
  refine ⟨?_, ?_, ?_, ?_⟩ <;>
    refine UInt8.eq_of_toBitVec_eq (BitVec.eq_of_getLsbD_eq fun i inside => ?_)
  all_goals
    have bit : i = 0 ∨ i = 1 ∨ i = 2 ∨ i = 3 ∨ i = 4 ∨ i = 5 ∨ i = 6 ∨ i = 7 := by omega
    rcases bit with rfl | rfl | rfl | rfl | rfl | rfl | rfl | rfl <;> simp

theorem CdcLineEncoding.bytes_ofPacket (dat : Vector UInt8 8)
    : (CdcLineEncoding.ofPacket dat).bytes = dat.toList.take 7 := by
  obtain ⟨b₀, b₁, b₂, b₃⟩ :=
    word_byte (byteAt dat 0) (byteAt dat 1) (byteAt dat 2) (byteAt dat 3) _ rfl
  rw [CdcLineEncoding.bytes, CdcLineEncoding.ofPacket, b₀, b₁, b₂, b₃]
  apply List.ext_getElem
  · simp
  · intro i inside _
    have place : i = 0 ∨ i = 1 ∨ i = 2 ∨ i = 3 ∨ i = 4 ∨ i = 5 ∨ i = 6 := by
      simp only [List.length_cons, List.length_nil] at inside
      omega
    rcases place with rfl | rfl | rfl | rfl | rfl | rfl | rfl <;> simp [byteAt]

/-- The host reads the line encoding. -/
def UsbRequestHeader.GetsLine (r : UsbRequestHeader) : Prop :=
  r.bmRequestType = typeInClassIntf ∧ r.bRequest = cdcReqGetLineEncoding
    ∧ r.wIndex = controlInterfaceNumber

/-- SETUP packets for the line encoding. -/
def setLine : CtrlIrq :=
  { setup := true, dat := #v[0x21, 0x20, 0x00, 0x00, 0x00, 0x00, 0x07, 0x00] }

def getLine : CtrlIrq :=
  { setup := true, dat := #v[0xA1, 0x21, 0x00, 0x00, 0x00, 0x00, 0x07, 0x00] }

/-- 9600 bits in a second. -/
def lineData : CtrlIrq :=
  { data := true, dat := #v[0x80, 0x25, 0x00, 0x00, 0x00, 0x00, 0x08, 0x00] }

/-- After any run of interrupts a host that reads the line encoding gets the first seven bytes of the
last packet that came while a request was to set it, or 115200 bits in a second, one stop bit, no
parity and eight data bits.
-/
theorem usbGetLineEncoding_answers (u16 : ReadU16) (dat : Vector UInt8 8) (irqs : List CtrlIrq)
    (irq : CtrlIrq) (setup : irq.setup = true) (alone : irq.data = false)
    (gets : (UsbRequestHeader.ofPacket u16 irq.dat).GetsLine)
    : ∃ s s', usbHandleIrqs u16 irqs (usbPowerUp dat) = some s
      ∧ usbHandleIrqs u16 (irqs ++ [irq]) (usbPowerUp dat) = some s'
      ∧ sentPackets s'.acts = sentPackets s.acts
        ++ [((lineHistory u16 irqs).2.map (·.toList.take 7)).getD
          [0x00, 0xC2, 0x01, 0x00, 0x00, 0x00, 0x08]] := by
  obtain ⟨s, run, answers, calm, request, line⟩ := usbHandleIrqs_line u16 dat irqs
  obtain ⟨type, get, intf⟩ := gets
  have process : usbHandleRequest .setup ((s.receive irq).requested u16)
      = usbcdcProcessControlRequest ((s.receive irq).requested u16).resetPtr := by
    unfold usbHandleRequest usbHandleInClassIntfReq
    simp only [UsbControl.resetPtr, UsbControl.requested, UsbControl.receive, type, get]
    rfl
  obtain ⟨t, got, writes⟩ := usbcdcProcessControlRequest_get
    (s := ((s.receive irq).requested u16).resetPtr) rfl intf get
  have answered : t.answer.acts = s.acts ++ [.datAck s.lineEncoding.bytes] := by
    have acts : t.acts = s.acts := by rw [writes.rest]; rfl
    have stall : t.gStall = false := by rw [writes.rest]; rfl
    rw [UsbControl.answer, acts, stall, writes.packet]
    rfl
  have setup' : onFlag irq.setup (usbHandleCtlEpSetup u16) (s.receive irq) = some t.answer := by
    rw [onFlag, setup, if_pos rfl, usbHandleCtlEpSetup_eq, process, got]
    rfl
  have data' : onFlag irq.data usbHandleCtlEpData t.answer = some t.answer := by
    rw [onFlag, alone]
    rfl
  refine ⟨s, usbHandleEnd irq t.answer, run, ?_, ?_⟩
  · rw [usbHandleIrqs_append, run]
    exact congrArg (· >>= usbHandleIrqs u16 []) (usbHandleIrq_stages setup' data')
  · rw [usbHandleEnd_sent, answered, sentPackets_append, line]
    refine congrArg (sentPackets s.acts ++ [·]) ?_
    cases (lineHistory u16 irqs).2 with
    | none =>
        change CdcLineEncoding.bytes ⟨115200, 0, 0, 8⟩ = [0x00, 0xC2, 0x01, 0x00, 0x00, 0x00, 0x08]
        decide
    | some last => exact CdcLineEncoding.bytes_ofPacket last

/-- The encoding of 9600 bits in a second, cut off behind the SETUP packet of another transfer for
it: the next reader gets the SETUP packet.
-/
theorem usbGetLineEncoding_answers_cut
    : ∃ s s', usbHandleIrqs readU16Le [setLine, lineData, setLine] (usbPowerUp quietDat) = some s
      ∧ usbHandleIrqs readU16Le ([setLine, lineData, setLine] ++ [getLine]) (usbPowerUp quietDat)
        = some s'
      ∧ sentPackets s'.acts
        = sentPackets s.acts ++ [[0x21, 0x20, 0x00, 0x00, 0x00, 0x00, 0x07]] :=
  usbGetLineEncoding_answers readU16Le quietDat [setLine, lineData, setLine] getLine rfl rfl
    ⟨rfl, rfl, rfl⟩

end TelinkSdk.Usb
