import TelinkSdk.Usb.Descriptors

/-! The control endpoint of the USB device, `usb.c` with the class requests of `usbcdc.c`, in the
build with the USB-CDC host interface. A request comes in a SETUP packet of eight bytes; its answer
leaves in packets of at most eight bytes, one for each interrupt.
-/

namespace TelinkSdk.Usb

-----------------------------------------------------------------------------------------
-- The endpoint
-----------------------------------------------------------------------------------------

/-- The buffer of the control endpoint and `reg_ctrl_ep_ptr`, which each access to
`reg_ctrl_ep_dat` moves on. Behind the buffer there is nothing to access.
-/
structure CtrlEp where
  dat : Vector UInt8 8
  ptr : Nat := 0

def CtrlEp.resetPtr (ep : CtrlEp) : CtrlEp := { ep with ptr := 0 }

/-- `usbhw_read_ctrl_ep_data` -/
def CtrlEp.readData (ep : CtrlEp) : Option (UInt8 × CtrlEp) :=
  if inside : ep.ptr < 8 then some (ep.dat[ep.ptr], { ep with ptr := ep.ptr + 1 }) else none

/-- `usbhw_write_ctrl_ep_data` -/
def CtrlEp.writeData (ep : CtrlEp) (data : UInt8) : Option CtrlEp :=
  if inside : ep.ptr < 8 then some { dat := ep.dat.set ep.ptr data, ptr := ep.ptr + 1 } else none

/-- What an acknowledged endpoint sends. -/
def CtrlEp.packet (ep : CtrlEp) : List UInt8 := ep.dat.toList.take ep.ptr

/-- `usbhw_read_ctrl_ep_u16` comes with the library. It reads two bytes, and this is the number
that it makes from them.
-/
abbrev ReadU16 := UInt8 → UInt8 → UInt16

def CtrlEp.readU16 (u16 : ReadU16) (ep : CtrlEp) : Option (UInt16 × CtrlEp) := do
  let (first, ep) ← ep.readData
  let (second, ep) ← ep.readData
  pure (u16 first second, ep)

-----------------------------------------------------------------------------------------
-- The driver
-----------------------------------------------------------------------------------------

/-- `USB_Request_Header_t` -/
structure UsbRequestHeader where
  bmRequestType : UInt8 := 0
  bRequest : UInt8 := 0
  wValue : UInt16 := 0
  wIndex : UInt16 := 0
  wLength : UInt16 := 0
deriving DecidableEq, Repr

def UsbRequestHeader.valueL (r : UsbRequestHeader) : UInt8 := (r.wValue &&& 0xff).toUInt8

def UsbRequestHeader.valueH (r : UsbRequestHeader) : UInt8 := ((r.wValue >>> 8) &&& 0xff).toUInt8

/-- `CDC_LineEncoding_t` -/
structure CdcLineEncoding where
  baudRateBPS : UInt32 := 0
  charFormat : UInt8 := 0
  parityType : UInt8 := 0
  dataBits : UInt8 := 0
deriving DecidableEq, Repr

/-- What the driver tells the host: the packet of an acknowledged data stage, a stall, the answer
to a status stage, and the endpoints that a bus reset disables.
-/
inductive CtrlAct where
  | datAck (packet : List UInt8)
  | datStall
  | staAck
  | staStall
  | resetEps
deriving DecidableEq, Repr

/-- The variables of `usb.c` and `CDCInterfaceInfo`. `gResponse` shows the bytes from the pointer
to the end of its descriptor, and NULL is none.
-/
structure UsbControl where
  ep : CtrlEp
  controlRequest : UsbRequestHeader := {}
  gResponse : Option (List UInt8) := none
  gResponseLen : UInt16 := 0
  gStall : Bool := false
  gRate : UInt8 := 0
  usbMouseReportProto : UInt8 := 0
  hostKeyboardStatus : UInt8 := 0
  hostToDevice : UInt16 := 0
  lineEncoding : CdcLineEncoding := {}
  acts : List CtrlAct := []

/-- `CDCInterfaceInfo->Config.ControlInterfaceNumber` -/
abbrev controlInterfaceNumber : UInt16 := 0

/-- `usbcdc_init` as far as the control endpoint sees it. -/
def usbcdcInit (s : UsbControl) : UsbControl :=
  { s with lineEncoding := { baudRateBPS := 115200, charFormat := 0, parityType := 0, dataBits := 8 } }

def UsbControl.read (s : UsbControl) : Option (UInt8 × UsbControl) :=
  s.ep.readData.map fun (data, ep) => (data, { s with ep })

def UsbControl.write (s : UsbControl) (data : UInt8) : Option UsbControl :=
  (s.ep.writeData data).map fun ep => { s with ep }

def UsbControl.resetPtr (s : UsbControl) : UsbControl := { s with ep := s.ep.resetPtr }

def UsbControl.stall (s : UsbControl) : UsbControl := { s with gStall := true }

/-- The loop of `usb_send_response`. -/
def usbSendResponse.loop : Nat → UsbControl → Option UsbControl
  | 0, s => some s
  | n + 1, s =>
      match s.gResponse with
      | some (byte :: rest) => do
          let s ← s.write byte
          usbSendResponse.loop n { s with gResponse := some rest }
      | _ => none

def usbSendResponse (s : UsbControl) : Option UsbControl :=
  let n := if s.gResponseLen < 8 then s.gResponseLen else 8
  usbSendResponse.loop n.toNat { s with gResponseLen := s.gResponseLen - n }.resetPtr

/-- A response of `length` bytes, or of as many as the host asks for. -/
def UsbControl.respond (s : UsbControl) (response : Option (List UInt8)) (length : UInt16)
    : UsbControl :=
  { s with
    gResponse := response
    gResponseLen :=
      if s.controlRequest.wLength < length then s.controlRequest.wLength else length }

def usbPrepareDescData (s : UsbControl) : UsbControl :=
  let valueL := s.controlRequest.valueL
  let valueH := s.controlRequest.valueH
  if valueH = dtypeDevice then s.respond (some deviceDesc) deviceDesc.length.toUInt16
  else if valueH = dtypeConfiguration then s.respond (some configurationDesc) sizeofConfiguration
  else if valueH = dtypeString then
    if usbStringLanguage = valueL then s.respond (some languageDesc) sizeofLanguageIdEng
    else if usbStringVendor = valueL then
      s.respond (some vendorDesc) stringVendor.length.toUInt16
    else if usbStringProduct = valueL then
      s.respond (some productDesc) stringProduct.length.toUInt16
    else if usbStringSerial = valueL then
      s.respond (some serialDesc) stringSerial.length.toUInt16
    else s.stall.respond none 0
  else s.stall.respond none 0

/-- Without a mouse, a keyboard and a vendor interface there is no descriptor to answer with. -/
def usbHandleStdIntfReq (s : UsbControl) : UsbControl := s.respond none 0

abbrev cdcReqSetLineEncoding : UInt8 := 0x20

abbrev cdcReqGetLineEncoding : UInt8 := 0x21

abbrev cdcReqSetControlLineState : UInt8 := 0x22

def usbcdcWrite32 (s : UsbControl) (value : UInt32) : Option UsbControl := do
  let s ← s.write (value &&& 0xff).toUInt8
  let s ← s.write ((value >>> 8) &&& 0xff).toUInt8
  let s ← s.write ((value >>> 16) &&& 0xff).toUInt8
  s.write ((value >>> 24) &&& 0xff).toUInt8

def usbcdcRead32 (s : UsbControl) : Option (UInt32 × UsbControl) := do
  let (temp, s) ← s.read
  let value := temp.toUInt32
  let (temp, s) ← s.read
  let value := (temp.toUInt32 <<< 8) ||| value
  let (temp, s) ← s.read
  let value := (temp.toUInt32 <<< 16) ||| value
  let (temp, s) ← s.read
  pure ((temp.toUInt32 <<< 24) ||| value, s)

/-- The requests are those of `control_request`. -/
def usbcdcProcessControlRequest (s : UsbControl) : Option UsbControl :=
  let r := s.controlRequest
  if r.wIndex ≠ controlInterfaceNumber then some s
  else if r.bRequest = cdcReqGetLineEncoding then do
    let s ← usbcdcWrite32 s s.lineEncoding.baudRateBPS
    let s ← s.write s.lineEncoding.charFormat
    let s ← s.write s.lineEncoding.parityType
    s.write s.lineEncoding.dataBits
  else if r.bRequest = cdcReqSetLineEncoding then do
    let (baudRateBPS, s) ← usbcdcRead32 s
    let (charFormat, s) ← s.read
    let (parityType, s) ← s.read
    let (dataBits, s) ← s.read
    pure { s with lineEncoding := { baudRateBPS, charFormat, parityType, dataBits } }
  else if r.bRequest = cdcReqSetControlLineState then some { s with hostToDevice := r.wValue }
  else some s

/-- The stage of a request that an interrupt is for. -/
inductive Stage where
  | setup
  | data
deriving DecidableEq, Repr

abbrev hidReqGetReport : UInt8 := 0x01

abbrev hidReqGetIdle : UInt8 := 0x02

abbrev hidReqGetProtocol : UInt8 := 0x03

abbrev hidReqSetReport : UInt8 := 0x09

abbrev hidReqSetIdle : UInt8 := 0x0A

abbrev hidReqSetProtocol : UInt8 := 0x0B

abbrev cdcReqSendEncapsulatedCommand : UInt8 := 0x00

abbrev hidReportItemIn : UInt8 := 0

abbrev hidReportItemOut : UInt8 := 1

abbrev hidReportItemFeature : UInt8 := 2

abbrev hidReportCustom : UInt8 := 3

def usbHandleOutClassIntfReq (dataRequest : Stage) (s : UsbControl) : Option UsbControl :=
  let property := s.controlRequest.bRequest
  let valueL := s.controlRequest.valueL
  let valueH := s.controlRequest.valueH
  if property = hidReqSetReport then
    if valueH = hidReportItemFeature then
      match dataRequest with
      | .data => do
          let (status, s) ← s.read
          pure { s with hostKeyboardStatus := status }
      | .setup => some s
    else if valueH = hidReportItemIn ∨ valueH = hidReportItemOut ∨ valueH = hidReportCustom then
      some s
    else some s.stall
  else if property = hidReqSetIdle then do
    let s ← match dataRequest with
      | .data => do
          let (rate, s) ← s.read
          pure { s with gRate := rate }
      | .setup => some s
    pure { s with gRate := valueH }
  else if property = hidReqSetProtocol then do
    let s ← match dataRequest with
      | .data => do
          let (proto, s) ← s.read
          pure { s with usbMouseReportProto := proto }
      | .setup => some s
    pure { s with usbMouseReportProto := valueL }
  else if property = cdcReqSetControlLineState ∨ property = cdcReqSetLineEncoding then
    usbcdcProcessControlRequest s
  else some s.stall

def usbHandleInClassIntfReq (s : UsbControl) : Option UsbControl :=
  let property := s.controlRequest.bRequest
  if property = cdcReqSendEncapsulatedCommand then s.write 0x00
  else if property = hidReqGetReport then some s
  else if property = hidReqGetIdle then s.write s.gRate
  else if property = hidReqGetProtocol then s.write s.usbMouseReportProto
  else if property = cdcReqGetLineEncoding then usbcdcProcessControlRequest s
  else some s.stall

abbrev reqGetDescriptor : UInt8 := 6

/-- `REQDIR_DEVICETOHOST | REQTYPE_STANDARD | REQREC_DEVICE` -/
abbrev typeInStdDevice : UInt8 := 0x80

/-- `REQDIR_DEVICETOHOST | REQTYPE_STANDARD | REQREC_INTERFACE` -/
abbrev typeInStdIntf : UInt8 := 0x81

/-- `REQDIR_HOSTTODEVICE | REQTYPE_CLASS | REQREC_INTERFACE` -/
abbrev typeOutClassIntf : UInt8 := 0x21

/-- `REQDIR_HOSTTODEVICE | REQTYPE_CLASS | REQREC_ENDPOINT` -/
abbrev typeOutClassEndp : UInt8 := 0x22

/-- `REQDIR_DEVICETOHOST | REQTYPE_CLASS | REQREC_INTERFACE` -/
abbrev typeInClassIntf : UInt8 := 0xA1

/-- `REQDIR_DEVICETOHOST | REQTYPE_CLASS | REQREC_ENDPOINT` -/
abbrev typeInClassEndp : UInt8 := 0xA2

/-- `REQDIR_HOSTTODEVICE | REQTYPE_STANDARD | REQREC_INTERFACE` -/
abbrev typeOutStdIntf : UInt8 := 0x01

/-- The handlers that do nothing in the source do nothing here. -/
def usbHandleRequest (dataRequest : Stage) (s : UsbControl) : Option UsbControl :=
  let s := s.resetPtr
  let bmRequestType := s.controlRequest.bmRequestType
  let bRequest := s.controlRequest.bRequest
  if bmRequestType = typeInStdDevice then
    if bRequest = reqGetDescriptor then
      usbSendResponse (if dataRequest = .setup then usbPrepareDescData s else s)
    else some s
  else if bmRequestType = typeInStdIntf then
    if bRequest = reqGetDescriptor then
      usbSendResponse (if dataRequest = .setup then usbHandleStdIntfReq s else s)
    else some s
  else if bmRequestType = typeOutClassIntf then usbHandleOutClassIntfReq dataRequest s
  else if bmRequestType = typeOutClassEndp then some s
  else if bmRequestType = typeInClassIntf then usbHandleInClassIntfReq s
  else if bmRequestType = typeInClassEndp then some s
  else if bmRequestType = typeOutStdIntf then some s
  else some s.stall

/-- The answer to a data stage. -/
def UsbControl.answer (s : UsbControl) : UsbControl :=
  { s with acts := s.acts ++ [if s.gStall then .datStall else .datAck s.ep.packet] }

def usbHandleCtlEpSetup (u16 : ReadU16) (s : UsbControl) : Option UsbControl := do
  let (bmRequestType, ep) ← s.ep.resetPtr.readData
  let (bRequest, ep) ← ep.readData
  let (wValue, ep) ← ep.readU16 u16
  let (wIndex, ep) ← ep.readU16 u16
  let (wLength, ep) ← ep.readU16 u16
  let s :=
    { s with
      ep
      controlRequest := { bmRequestType, bRequest, wValue, wIndex, wLength }
      gStall := false }
  let s ← usbHandleRequest .setup s
  pure s.answer

def usbHandleCtlEpData (s : UsbControl) : Option UsbControl := do
  let s ← usbHandleRequest .data { s.resetPtr with gStall := false }
  pure s.answer

def usbHandleCtlEpStatus (s : UsbControl) : UsbControl :=
  { s with acts := s.acts ++ [if s.gStall then .staStall else .staAck] }

/-- An interrupt: the flags that are set, and what lies in the buffer of the endpoint by then. -/
structure CtrlIrq where
  setup : Bool := false
  data : Bool := false
  sta : Bool := false
  reset : Bool := false
  dat : Vector UInt8 8

def usbReset (s : UsbControl) : UsbControl :=
  { s with usbMouseReportProto := 1, acts := s.acts ++ [.resetEps] }

/-- What runs if a flag of the interrupt is set. -/
def onFlag (flag : Bool) (handler : UsbControl → Option UsbControl) (s : UsbControl)
    : Option UsbControl :=
  if flag then handler s else some s

/-- `usb_handle_irq` as far as the control endpoint goes. The data endpoints are handled last. -/
def usbHandleIrq (u16 : ReadU16) (irq : CtrlIrq) (s : UsbControl) : Option UsbControl := do
  let s ← onFlag irq.setup (usbHandleCtlEpSetup u16) { s with ep := { s.ep with dat := irq.dat } }
  let s ← onFlag irq.data usbHandleCtlEpData s
  let s := if irq.sta then usbHandleCtlEpStatus s else s
  let s := if irq.reset then usbReset s else s
  pure { s with gStall := false }

/-- One interrupt after another. -/
def usbHandleIrqs (u16 : ReadU16) : List CtrlIrq → UsbControl → Option UsbControl
  | [], s => some s
  | irq :: rest, s => do
      let s ← usbHandleIrq u16 irq s
      usbHandleIrqs u16 rest s

end TelinkSdk.Usb
