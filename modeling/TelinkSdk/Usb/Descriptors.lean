import Mathlib.Tactic.Common

/-! The descriptors of `usbdesc.c` in the build with the USB-CDC host interface, in which the
device has no mouse, no keyboard and no vendor interface. Structures are packed, and a wide
character has two bytes.
-/

namespace TelinkSdk.Usb

abbrev dtypeDevice : UInt8 := 0x01

abbrev dtypeConfiguration : UInt8 := 0x02

abbrev dtypeString : UInt8 := 0x03

abbrev dtypeInterface : UInt8 := 0x04

abbrev dtypeEndpoint : UInt8 := 0x05

abbrev dtypeInterfaceAssociation : UInt8 := 0x0B

abbrev dtypeCsInterface : UInt8 := 0x24

abbrev usbStringLanguage : UInt8 := 0

abbrev usbStringVendor : UInt8 := 1

abbrev usbStringProduct : UInt8 := 2

abbrev usbStringSerial : UInt8 := 3

abbrev cdcNotificationEpnum : UInt8 := 2

abbrev usbEdpCdcIn : UInt8 := 4

abbrev usbEdpCdcOut : UInt8 := 5

/-- The two bytes of a `u16` member. -/
def u16Bytes (v : UInt16) : List UInt8 := [v.toUInt8, (v >>> 8).toUInt8]

-----------------------------------------------------------------------------------------
-- Strings
-----------------------------------------------------------------------------------------

/-- A wide string literal with its terminator, as it lies in memory. -/
def wideString (chars : List UInt8) : List UInt8 :=
  (chars ++ [0]).flatMap fun c => [c, 0]

/-- `"Telink"` -/
def stringVendor : List UInt8 := wideString [0x54, 0x65, 0x6C, 0x69, 0x6E, 0x6B]

/-- `"TelinkUSBDongle"` -/
def stringProduct : List UInt8 :=
  wideString [0x54, 0x65, 0x6C, 0x69, 0x6E, 0x6B, 0x55, 0x53, 0x42, 0x44, 0x6F, 0x6E, 0x67, 0x6C,
    0x65]

/-- `"TLSR82xx"` -/
def stringSerial : List UInt8 := wideString [0x54, 0x4C, 0x53, 0x52, 0x38, 0x32, 0x78, 0x78]

/-- A `USB_Descriptor_String_t`, whose header leaves the terminator of the string out. -/
def stringDesc (string : List UInt8) : List UInt8 :=
  [(2 + string.length - 2).toUInt8, dtypeString] ++ string

def vendorDesc : List UInt8 := stringDesc stringVendor

def productDesc : List UInt8 := stringDesc stringProduct

def serialDesc : List UInt8 := stringDesc stringSerial

/-- `LANGUAGE_ID_ENG` is an `int` constant. -/
def sizeofLanguageIdEng : UInt16 := 4

def languageDesc : List UInt8 := [4, dtypeString] ++ u16Bytes 0x0409

-----------------------------------------------------------------------------------------
-- The device and its configuration
-----------------------------------------------------------------------------------------

/-- A descriptor of a kind, whose first byte is its size. -/
def descriptor (type : UInt8) (members : List UInt8) : List UInt8 :=
  [(2 + members.length).toUInt8, type] ++ members

/-- `ID_PRODUCT_BASE` with the bit of `USB_CDC_ENABLE`. -/
def idProduct : UInt16 := 0x8800 ||| 0x0040

def deviceDesc : List UInt8 :=
  descriptor dtypeDevice
    (u16Bytes 0x0110 ++ [0xEF, 0x02, 0x01] ++ [8] ++ u16Bytes 0x248A ++ u16Bytes idProduct
      ++ u16Bytes 0x0100 ++ [usbStringVendor, usbStringProduct, usbStringSerial, 1])

def interfaceDesc (number alternate endpoints cls subClass protocol : UInt8) : List UInt8 :=
  descriptor dtypeInterface [number, alternate, endpoints, cls, subClass, protocol, 0]

def endpointDesc (address attributes : UInt8) (size : UInt16) (interval : UInt8) : List UInt8 :=
  descriptor dtypeEndpoint ([address, attributes] ++ u16Bytes size ++ [interval])

/-- What follows the header of the configuration, in order. -/
def configurationParts : List (List UInt8) :=
  [ descriptor dtypeInterfaceAssociation [0, 2, 0x02, 0x02, 0x01, 0],
    interfaceDesc 0 0 1 0x02 0x02 0x01,
    descriptor dtypeCsInterface ([0x00] ++ u16Bytes 0x0110),
    descriptor dtypeCsInterface [0x02, 0x02],
    descriptor dtypeCsInterface [0x06, 0, 1],
    descriptor dtypeCsInterface [0x01, 0, 1],
    endpointDesc (0x80 ||| cdcNotificationEpnum) 0x03 8 0x40,
    interfaceDesc 1 0 2 0x0A 0x00 0x00,
    endpointDesc (0x00 ||| usbEdpCdcOut) 0x02 64 0x00,
    endpointDesc (0x80 ||| usbEdpCdcIn) 0x02 64 0x00 ]

/-- `sizeof(USB_Descriptor_Configuration_t)` -/
def sizeofConfiguration : UInt16 := (9 + configurationParts.flatten.length).toUInt16

def configurationDesc : List UInt8 :=
  descriptor dtypeConfiguration (u16Bytes sizeofConfiguration ++ [2, 1, 0, 0x80, 25])
    ++ configurationParts.flatten

-----------------------------------------------------------------------------------------
-- Well-formedness
-----------------------------------------------------------------------------------------

/-- A host that goes from one descriptor to the next by their first bytes, as often as `fuel`
allows, comes to the end exactly.
-/
def WalksExactly : Nat → List UInt8 → Prop
  | _, [] => True
  | 0, _ :: _ => False
  | fuel + 1, size :: rest =>
      2 ≤ size.toNat ∧ size.toNat ≤ (size :: rest).length
        ∧ WalksExactly fuel ((size :: rest).drop size.toNat)

theorem walksExactly_append {fuel : Nat} {first rest : List UInt8}
    (walks : WalksExactly fuel rest) (nonempty : 2 ≤ first.length)
    (states : first.head? = some first.length.toUInt8) (small : first.length < 256)
    : WalksExactly (fuel + 1) (first ++ rest) := by
  cases first with
  | nil => exact absurd nonempty (by decide)
  | cons size more =>
      have size_eq : size.toNat = (size :: more).length := by
        have head : size = (size :: more).length.toUInt8 := by simpa using states
        rw [head]
        exact UInt8.toNat_ofNat_of_lt small
      rw [List.cons_append, WalksExactly, size_eq]
      refine ⟨nonempty, ?_, ?_⟩
      · rw [← List.cons_append, List.length_append]
        omega
      · rw [← List.cons_append, List.drop_left]
        exact walks

/-- Each part of the configuration states its own size, and its header states the size of all. -/
theorem configurationDesc_walks : WalksExactly 11 configurationDesc := by
  have parts {fuel : Nat} {l : List (List UInt8)} (few : l.length ≤ fuel)
      (each : ∀ p ∈ l, 2 ≤ p.length ∧ p.head? = some p.length.toUInt8 ∧ p.length < 256)
      : WalksExactly fuel l.flatten := by
    induction l generalizing fuel with
    | nil => cases fuel <;> trivial
    | cons p rest ih =>
        obtain ⟨fuel, rfl⟩ : ∃ n, fuel = n + 1 := ⟨fuel - 1, by
          simp only [List.length_cons] at few
          omega⟩
        obtain ⟨nonempty, states, small⟩ := each p List.mem_cons_self
        rw [List.flatten_cons]
        exact walksExactly_append
          (ih (by simp only [List.length_cons] at few; omega)
            (fun q member => each q (List.mem_cons_of_mem p member)))
          nonempty states small
  exact walksExactly_append (parts (by decide) (by decide)) (by decide) (by decide) (by decide)

end TelinkSdk.Usb
