import Mathlib.Data.List.Find
import Mathlib.Data.List.TakeWhile
import TelinkSdk.Os.BufferUsers

/-! The interrupts of the GPIO driver. Their handlers are registered in a list whose nodes are
buffers of the pools, and their polarities lie in a register that all modes share.
-/

namespace TelinkSdk.Gpio

open EvBuffer Links LinkView Nor

-----------------------------------------------------------------------------------------
-- Ports
-----------------------------------------------------------------------------------------

/-- `drv_gpioIrqMode_t` -/
inductive DrvGpioIrqMode where
  | invalid
  | irq
  | irqRisc0
  | irqRisc1
deriving DecidableEq

/-- `drv_gpioPoll_e` -/
inductive DrvGpioPoll where
  | risingEdge
  | fallingEdge
  | highLevel
  | lowLevel
deriving DecidableEq

/-- The number that an enumerator stands for. -/
def DrvGpioIrqMode.code : DrvGpioIrqMode → Nat
  | .invalid => 0
  | .irq => 1
  | .irqRisc0 => 2
  | .irqRisc1 => 3

def DrvGpioPoll.code : DrvGpioPoll → Nat
  | .risingEdge => 0
  | .fallingEdge => 1
  | .highLevel => 2
  | .lowLevel => 3

/-- The registers that setting an interrupt up writes. A pin is a bit of its group, `pin >> 8`. -/
structure GpioRegs where
  regGpioPol : UInt32 → BitVec 8
  regGpioWakeupIrq : BitVec 8
  regIrqSrc : UInt32
  regIrqMask : UInt32

/-- The chips with a TC32 core, or the B91 with the three functions of its driver library. -/
inductive GpioPort where
  | tc32
  | b91 (gpioSetIrq gpioSetGpio2risc0Irq gpioSetGpio2risc1Irq
      : GpioRegs → UInt32 → Nat → GpioRegs)

abbrev fldGpioCoreInterruptEn : BitVec 8 := 8

abbrev fldIrqGpioEn : UInt32 := 262144

abbrev fldIrqGpioRisc0En : UInt32 := 2097152

abbrev fldIrqGpioRisc1En : UInt32 := 4194304

/-- `BM_SET(reg_gpio_pol(pin), bit)` for what falls and `BM_CLR` for what rises. -/
def GpioRegs.setPol (regs : GpioRegs) (pin : UInt32) (falling : Nat) : GpioRegs :=
  let bit : BitVec 8 := pin.toBitVec.setWidth 8
  { regs with
    regGpioPol := fun group =>
      if group ≠ pin >>> 8 then regs.regGpioPol group
      else if falling ≠ 0 then regs.regGpioPol group ||| bit
      else regs.regGpioPol group &&& ~~~bit }

/-- A flag that is written to `reg_irq_src` is cleared there. -/
def GpioRegs.enable (regs : GpioRegs) (flag : UInt32) : GpioRegs :=
  { regs with
    regIrqSrc := regs.regIrqSrc &&& ~~~flag
    regIrqMask := regs.regIrqMask ||| flag }

def gpioSetInterrupt (regs : GpioRegs) (pin : UInt32) (falling : Nat) : GpioRegs :=
  let regs := { regs with regGpioWakeupIrq := regs.regGpioWakeupIrq ||| fldGpioCoreInterruptEn }
  (regs.setPol pin falling).enable fldIrqGpioEn

def gpioSetInterruptRisc0 (regs : GpioRegs) (pin : UInt32) (falling : Nat) : GpioRegs :=
  (regs.setPol pin falling).enable fldIrqGpioRisc0En

def gpioSetInterruptRisc1 (regs : GpioRegs) (pin : UInt32) (falling : Nat) : GpioRegs :=
  (regs.setPol pin falling).enable fldIrqGpioRisc1En

def drvGpioIrqSet (port : GpioPort) (regs : GpioRegs) (pin : UInt32) (polarity : DrvGpioPoll)
    : GpioRegs :=
  match port with
  | .tc32 => gpioSetInterrupt regs pin polarity.code
  | .b91 gpioSetIrq _ _ => gpioSetIrq regs pin polarity.code

def drvGpioIrqRisc0Set (port : GpioPort) (regs : GpioRegs) (pin : UInt32)
    (polarity : DrvGpioPoll)
    : GpioRegs :=
  match port with
  | .tc32 => gpioSetInterruptRisc0 regs pin polarity.code
  | .b91 _ gpioSetGpio2risc0Irq _ => gpioSetGpio2risc0Irq regs pin polarity.code

def drvGpioIrqRisc1Set (port : GpioPort) (regs : GpioRegs) (pin : UInt32)
    (polarity : DrvGpioPoll)
    : GpioRegs :=
  match port with
  | .tc32 => gpioSetInterruptRisc1 regs pin polarity.code
  | .b91 _ _ gpioSetGpio2risc1Irq => gpioSetGpio2risc1Irq regs pin polarity.code

/-- The TC32 compiler packs structures and makes an enumeration a byte. -/
def GpioPort.enumBytes : GpioPort → Nat
  | .tc32 => 1
  | .b91 .. => 4

/-- Where the fields of `gpio_conf_list` lie behind the link, which is its first word. -/
abbrev gpioIrqCallbackAt : Nat := 4

abbrev pinAt : Nat := 8

abbrev modeAt : Nat := 12

def GpioPort.polarityAt (port : GpioPort) : Nat := modeAt + port.enumBytes

def GpioPort.sizeofGpioConfList (port : GpioPort) : Nat := port.polarityAt + port.enumBytes

abbrev gpioIrqHandlerQNum : Nat := 3

/-- An enumeration in memory. -/
def GpioPort.load (port : GpioPort) (ram : Ram) (addr : Nat) : Nat :=
  match port with
  | .tc32 => (ram addr).toNat
  | .b91 .. => ram.le32 addr

def GpioPort.store (port : GpioPort) (ram : Ram) (addr code : Nat) : Ram :=
  match port with
  | .tc32 => ram.storeBytes addr [.ofNat code]
  | .b91 .. => ram.store32 addr code

-----------------------------------------------------------------------------------------
-- The driver
-----------------------------------------------------------------------------------------

/-- The memory and the pools, the list `gpioIrqHandlerQ`, and the registers. -/
structure GpioIrq where
  sys : EvBufSys
  gpioIrqHandlerQ : Option Nat
  regs : GpioRegs

/-- A walk of more steps than there are addresses has no end. -/
abbrev walkSteps : Nat := 4294967296

/-- `listLength` over bytes. -/
def listLength (ram : Ram) : Nat → Option Nat → Option Nat
  | _, none => some 0
  | 0, some _ => none
  | fuel + 1, some l => (listLength ram fuel (next ram l)).map (· + 1)

/-- `listAdd` over bytes. -/
def listAdd (ram : Ram) (list : Option Nat) (item : Nat) : Option (Ram × Option Nat) :=
  let ram := ram.store32 item 0
  (walkUntil ram (fun l => (next ram l).isNone) walkSteps none list).map fun
    | (_, none) => (ram, some item)
    | (_, some l) => (ram.store32 l item, list)

/-- What the search has found gets the polarity and the callback where they differ. -/
def nodeUpdated (port : GpioPort) (ram : Ram) (pList : Nat) (polarity : DrvGpioPoll)
    (gpioIrqCallback : UInt32)
    : Ram :=
  let ram :=
    if port.load ram (pList + port.polarityAt) ≠ polarity.code then
      port.store ram (pList + port.polarityAt) polarity.code
    else ram
  if ram.le32 (pList + gpioIrqCallbackAt) ≠ gpioIrqCallback.toNat then
    ram.store32 (pList + gpioIrqCallbackAt) gpioIrqCallback.toNat
  else ram

/-- The test of the search in `drv_gpio_irq_config`. -/
def configured (port : GpioPort) (ram : Ram) (mode : DrvGpioIrqMode) (pin : UInt32) (pList : Nat)
    : Bool :=
  port.load ram (pList + modeAt) == mode.code && ram.le32 (pList + pinAt) == pin.toNat

/-- The end of `drv_gpio_irq_config`. -/
def GpioIrq.set (port : GpioPort) (gpio : GpioIrq) (mode : DrvGpioIrqMode) (pin : UInt32)
    (polarity : DrvGpioPoll)
    : GpioIrq :=
  match mode with
  | .invalid => gpio
  | .irq => { gpio with regs := drvGpioIrqSet port gpio.regs pin polarity }
  | .irqRisc0 => { gpio with regs := drvGpioIrqRisc0Set port gpio.regs pin polarity }
  | .irqRisc1 => { gpio with regs := drvGpioIrqRisc1Set port gpio.regs pin polarity }

/-- A new node with its fields. -/
def nodeStored (port : GpioPort) (ram : Ram) (node : Nat) (mode : DrvGpioIrqMode) (pin : UInt32)
    (polarity : DrvGpioPoll) (gpioIrqCallback : UInt32)
    : Ram :=
  let ram := ram.storeBytes node (List.replicate port.sizeofGpioConfList 0)
  let ram := port.store ram (node + modeAt) mode.code
  let ram := ram.store32 (node + pinAt) pin.toNat
  let ram := port.store ram (node + port.polarityAt) polarity.code
  ram.store32 (node + gpioIrqCallbackAt) gpioIrqCallback.toNat

/-- `drv_gpio_irq_config`. There is no result where a walk has no end. -/
def drvGpioIrqConfig (port : GpioPort) (gpio : GpioIrq) (mode : DrvGpioIrqMode) (pin : UInt32)
    (polarity : DrvGpioPoll) (gpioIrqCallback : UInt32)
    : Option (Int × GpioIrq) := do
  let (_, searched) ←
    walkUntil gpio.sys.ram (configured port gpio.sys.ram mode pin) walkSteps none
      gpio.gpioIrqHandlerQ
  match searched with
  | some pList =>
      let ram := nodeUpdated port gpio.sys.ram pList polarity gpioIrqCallback
      some (0, ({ gpio with sys := { gpio.sys with ram := ram } }).set port mode pin polarity)
  | none =>
      let length ← listLength gpio.sys.ram walkSteps gpio.gpioIrqHandlerQ
      if length ≥ gpioIrqHandlerQNum then some (-1, gpio)
      else
        let (listNode, sys) ← EvBuffer.evBufAllocate gpio.sys (.ofNat port.sizeofGpioConfList)
        match listNode with
        | none => some (-1, { gpio with sys := sys })
        | some listNode =>
            let ram := nodeStored port sys.ram listNode mode pin polarity gpioIrqCallback
            let (ram, list) ← listAdd ram gpio.gpioIrqHandlerQ listNode
            some (0,
              ({ gpio with sys := { sys with ram := ram }, gpioIrqHandlerQ := list }).set port mode
                pin polarity)

/-- The test of the search in `drv_gpio_irq_process`. -/
def callable (port : GpioPort) (ram : Ram) (mode : DrvGpioIrqMode) (pList : Nat) : Bool :=
  port.load ram (pList + modeAt) == mode.code && ram.le32 (pList + gpioIrqCallbackAt) != 0

/-- `drv_gpio_irq_process`, with the address of the callback that it calls. -/
def drvGpioIrqProcess (port : GpioPort) (gpio : GpioIrq) (mode : DrvGpioIrqMode)
    : Option (Option UInt32) :=
  (walkUntil gpio.sys.ram (callable port gpio.sys.ram mode) walkSteps none
      gpio.gpioIrqHandlerQ).map
    fun stopped =>
      stopped.2.map fun pList => .ofNat (gpio.sys.ram.le32 (pList + gpioIrqCallbackAt))

def drvGpioIrqHandler (port : GpioPort) (gpio : GpioIrq) : Option (Option UInt32) :=
  drvGpioIrqProcess port gpio .irq

def drvGpioIrqRisc0Handler (port : GpioPort) (gpio : GpioIrq) : Option (Option UInt32) :=
  drvGpioIrqProcess port gpio .irqRisc0

def drvGpioIrqRisc1Handler (port : GpioPort) (gpio : GpioIrq) : Option (Option UInt32) :=
  drvGpioIrqProcess port gpio .irqRisc1

-----------------------------------------------------------------------------------------
-- The fields of a node
-----------------------------------------------------------------------------------------

/-- What a node is about. A callback is its address, and zero is none. -/
structure GpioConf where
  mode : DrvGpioIrqMode
  pin : UInt32
  polarity : DrvGpioPoll
  gpioIrqCallback : UInt32

structure NodeHolds (port : GpioPort) (ram : Ram) (node : Nat) (conf : GpioConf) : Prop where
  mode : port.load ram (node + modeAt) = conf.mode.code
  pin : ram.le32 (node + pinAt) = conf.pin.toNat
  polarity : port.load ram (node + port.polarityAt) = conf.polarity.code
  gpioIrqCallback : ram.le32 (node + gpioIrqCallbackAt) = conf.gpioIrqCallback.toNat

variable {port : GpioPort} {ram ram' : Ram} {node : Nat} {conf : GpioConf}

theorem DrvGpioIrqMode.code_inj (mode other : DrvGpioIrqMode)
    : mode.code = other.code ↔ mode = other := by
  cases mode <;> cases other <;> decide

theorem DrvGpioIrqMode.code_lt (mode : DrvGpioIrqMode) : mode.code < 256 := by
  cases mode <;> decide

theorem DrvGpioPoll.code_lt (polarity : DrvGpioPoll) : polarity.code < 256 := by
  cases polarity <;> decide

namespace GpioPort

theorem enumBytes_pos (port : GpioPort) : 0 < port.enumBytes := by
  cases port with
  | tc32 => exact Nat.zero_lt_one
  | b91 _ _ _ => exact Nat.zero_lt_succ 3

theorem polarityAt_eq (port : GpioPort) : port.polarityAt = 12 + port.enumBytes := rfl

theorem sizeofGpioConfList_eq (port : GpioPort)
    : port.sizeofGpioConfList = 12 + port.enumBytes + port.enumBytes :=
  rfl

theorem sizeofGpioConfList_toNat (port : GpioPort)
    : (UInt16.ofNat port.sizeofGpioConfList).toNat = port.sizeofGpioConfList := by
  cases port <;> rfl

theorem load_congr {addr : Nat}
    (same : ∀ x, addr ≤ x → x < addr + port.enumBytes → ram' x = ram x)
    : port.load ram' addr = port.load ram addr := by
  cases port with
  | tc32 => exact congrArg UInt8.toNat (same addr (Nat.le_refl _) (Nat.lt_succ_self _))
  | b91 _ _ _ =>
      apply Mem.le32_congr
      intro i inside
      exact same _ (Nat.le_add_right _ _) (Nat.add_lt_add_left inside _)

theorem store_outside {addr code x : Nat} (outside : x < addr ∨ addr + port.enumBytes ≤ x)
    : port.store ram addr code x = ram x := by
  cases port with
  | tc32 => exact Ram.storeBytes_outside outside
  | b91 _ _ _ => exact Ram.store32_outside outside

theorem load_store {addr code : Nat} (small : code < 256)
    : port.load (port.store ram addr code) addr = code := by
  cases port with
  | tc32 =>
      rw [load, store, Ram.storeBytes, if_pos ⟨Nat.le_refl _, Nat.lt_succ_self _⟩, Nat.sub_self]
      exact UInt8.toNat_ofNat_of_lt' small
  | b91 _ _ _ => exact Ram.store32_le32 (small.trans (by decide))

end GpioPort

/-- The fields lie behind the link, which may change. -/
theorem NodeHolds.congr (holds : NodeHolds port ram node conf)
    (same : ∀ x, node + 4 ≤ x → x < node + port.sizeofGpioConfList → ram' x = ram x)
    : NodeHolds port ram' node conf := by
  have layout := port.sizeofGpioConfList_eq
  have offset := port.polarityAt_eq
  constructor
  · rw [← holds.mode]
    apply GpioPort.load_congr
    intro x low high
    exact same x (by simp only [modeAt] at low; omega) (by simp only [modeAt] at high; omega)
  · rw [← holds.pin]
    apply Mem.le32_congr
    intro i inside
    exact same _ (by simp only [pinAt]; omega) (by simp only [pinAt]; omega)
  · rw [← holds.polarity]
    apply GpioPort.load_congr
    intro x low high
    exact same x (by omega) (by omega)
  · rw [← holds.gpioIrqCallback]
    apply Mem.le32_congr
    intro i inside
    exact same _ (by simp only [gpioIrqCallbackAt]; omega)
      (by simp only [gpioIrqCallbackAt]; omega)

/-- The search stops at the node of the pin. -/
theorem NodeHolds.configured (holds : NodeHolds port ram node conf) (mode : DrvGpioIrqMode)
    (pin : UInt32)
    : configured port ram mode pin node = decide (conf.mode = mode ∧ conf.pin = pin) := by
  rw [Gpio.configured, holds.mode, holds.pin, Bool.eq_iff_iff]
  simp only [Bool.and_eq_true, beq_iff_eq, decide_eq_true_eq, DrvGpioIrqMode.code_inj,
    UInt32.toNat_inj]

theorem NodeHolds.callable (holds : NodeHolds port ram node conf) (mode : DrvGpioIrqMode)
    : callable port ram mode node = decide (conf.mode = mode ∧ conf.gpioIrqCallback ≠ 0) := by
  have null : conf.gpioIrqCallback.toNat = 0 ↔ conf.gpioIrqCallback = 0 := by
    rw [← UInt32.toNat_inj]
    rfl
  rw [Gpio.callable, holds.mode, holds.gpioIrqCallback, Bool.eq_iff_iff]
  simp only [Bool.and_eq_true, beq_iff_eq, bne_iff_ne, ne_eq, decide_eq_true_eq,
    DrvGpioIrqMode.code_inj, null]

-----------------------------------------------------------------------------------------
-- Stores to nodes
-----------------------------------------------------------------------------------------

section Stores

variable {mode : DrvGpioIrqMode} {pin : UInt32} {polarity : DrvGpioPoll}
  {gpioIrqCallback : UInt32} {x : Nat}

theorem nodeStored_outside (outside : x < node ∨ node + port.sizeofGpioConfList ≤ x)
    : nodeStored port ram node mode pin polarity gpioIrqCallback x = ram x := by
  have layout := port.sizeofGpioConfList_eq
  have offset := port.polarityAt_eq
  have cleared : ram.storeBytes node (List.replicate port.sizeofGpioConfList 0) x = ram x :=
    Ram.storeBytes_outside (by rwa [List.length_replicate])
  rw [nodeStored, Ram.store32_outside, GpioPort.store_outside, Ram.store32_outside,
    GpioPort.store_outside, cleared]
  all_goals
    try simp only [modeAt, pinAt, gpioIrqCallbackAt]
    omega

/-- A store beside a field leaves it. -/
theorem load_store32_apart {addr other value : Nat}
    (apart : other + port.enumBytes ≤ addr ∨ addr + 4 ≤ other)
    : port.load (ram.store32 addr value) other = port.load ram other := by
  apply GpioPort.load_congr
  intro x low high
  exact Ram.store32_outside (by omega)

theorem load_store_apart {addr other code : Nat}
    (apart : other + port.enumBytes ≤ addr ∨ addr + port.enumBytes ≤ other)
    : port.load (port.store ram addr code) other = port.load ram other := by
  apply GpioPort.load_congr
  intro x low high
  exact GpioPort.store_outside (by omega)

theorem le32_store_apart {addr other code : Nat}
    (apart : other + 4 ≤ addr ∨ addr + port.enumBytes ≤ other)
    : (port.store ram addr code).le32 other = ram.le32 other := by
  apply Mem.le32_congr
  intro i inside
  exact GpioPort.store_outside (by omega)

theorem nodeStored_holds (port : GpioPort) (ram : Ram) (node : Nat) (conf : GpioConf)
    : NodeHolds port
        (nodeStored port ram node conf.mode conf.pin conf.polarity conf.gpioIrqCallback) node
        conf := by
  have some := port.enumBytes_pos
  have offset := port.polarityAt_eq
  constructor
  · rw [nodeStored, load_store32_apart, load_store_apart, load_store32_apart,
      GpioPort.load_store conf.mode.code_lt] <;>
      simp only [modeAt, pinAt, gpioIrqCallbackAt] <;> omega
  · rw [nodeStored, Ram.store32_le32_apart, le32_store_apart,
      Ram.store32_le32 conf.pin.toNat_lt] <;>
      simp only [pinAt, gpioIrqCallbackAt] <;> omega
  · rw [nodeStored, load_store32_apart, GpioPort.load_store conf.polarity.code_lt]
    simp only [gpioIrqCallbackAt]
    omega
  · rw [nodeStored, Ram.store32_le32 conf.gpioIrqCallback.toNat_lt]

/-- A value that is only stored where it differs is there afterwards. -/
theorem stored_if_ne {value : Nat} (load : Ram → Nat) {stored : Ram} (loaded : load stored = value)
    : load (if load ram ≠ value then stored else ram) = value := by
  split
  case isTrue different => exact loaded
  case isFalse same => exact not_not.mp same

theorem kept_if {α : Type} {test : Prop} [Decidable test] (load : Ram → α) {stored : Ram}
    (kept : load stored = load ram)
    : load (if test then stored else ram) = load ram := by
  split
  · exact kept
  · rfl

theorem nodeUpdated_outside
    (outside : x < node + 4 ∨ node + port.sizeofGpioConfList ≤ x)
    : nodeUpdated port ram node polarity gpioIrqCallback x = ram x := by
  have layout := port.sizeofGpioConfList_eq
  have offset := port.polarityAt_eq
  rw [nodeUpdated]
  refine (kept_if ((· x)) (Ram.store32_outside ?_)).trans
    (kept_if ((· x)) (GpioPort.store_outside ?_))
  · simp only [gpioIrqCallbackAt]
    omega
  · omega

/-- Only the polarity and the callback change. -/
theorem nodeUpdated_holds {old : GpioConf} (holds : NodeHolds port ram node old)
    (mode : old.mode = conf.mode) (pin : old.pin = conf.pin)
    : NodeHolds port (nodeUpdated port ram node conf.polarity conf.gpioIrqCallback) node conf := by
  have some := port.enumBytes_pos
  have offset := port.polarityAt_eq
  rw [nodeUpdated]
  constructor
  · rw [← mode, ← holds.mode]
    refine (kept_if ((port.load · _)) (load_store32_apart ?_)).trans
      (kept_if ((port.load · _)) (load_store_apart ?_)) <;>
      simp only [modeAt, gpioIrqCallbackAt] <;> omega
  · rw [← pin, ← holds.pin]
    refine (kept_if ((Mem.le32 · _)) (Ram.store32_le32_apart ?_)).trans
      (kept_if ((Mem.le32 · _)) (le32_store_apart ?_)) <;>
      simp only [pinAt, gpioIrqCallbackAt] <;> omega
  · refine (kept_if ((port.load · _)) (load_store32_apart ?_)).trans
      (stored_if_ne ((port.load · _)) (GpioPort.load_store conf.polarity.code_lt))
    simp only [gpioIrqCallbackAt]
    omega
  · exact stored_if_ne ((Mem.le32 · _)) (Ram.store32_le32 conf.gpioIrqCallback.toNat_lt)

end Stores

-----------------------------------------------------------------------------------------
-- The polarity register
-----------------------------------------------------------------------------------------

/-- The call sets the polarity of a bit of a group. -/
def GpioConf.Covers (conf : GpioConf) (group : UInt32) (i : Nat) : Prop :=
  conf.mode ≠ .invalid ∧ conf.pin >>> 8 = group ∧ conf.pin.toBitVec.getLsbD i = true

instance GpioConf.decidableCovers (conf : GpioConf) (group : UInt32) (i : Nat)
    : Decidable (conf.Covers group i) :=
  inferInstanceAs (Decidable (_ ∧ _ ∧ _))

/-- The polarity that the last of the calls for the bit has set. -/
def lastPolarity (done : List GpioConf) (group : UInt32) (i : Nat) : Option DrvGpioPoll :=
  (done.reverse.find? fun conf => conf.Covers group i).map GpioConf.polarity

/-- The register after the calls. A level counts as falling. -/
def PolarityAfter (start : GpioRegs) (done : List GpioConf) (regs : GpioRegs) : Prop :=
  ∀ group, ∀ i < 8, (regs.regGpioPol group).getLsbD i
    = ((lastPolarity done group i).map fun polarity => decide (polarity.code ≠ 0)).getD
      ((start.regGpioPol group).getLsbD i)

theorem lastPolarity_concat (done : List GpioConf) (conf : GpioConf) (group : UInt32) (i : Nat)
    : lastPolarity (done ++ [conf]) group i
      = if conf.Covers group i then some conf.polarity else lastPolarity done group i := by
  rw [lastPolarity, List.reverse_append, List.reverse_singleton, List.singleton_append,
    List.find?_cons]
  split <;> simp_all [lastPolarity]

theorem GpioRegs.setPol_bit (regs : GpioRegs) (pin : UInt32) (falling : Nat) (group : UInt32)
    {i : Nat} (inside : i < 8)
    : ((regs.setPol pin falling).regGpioPol group).getLsbD i
      = if pin >>> 8 = group ∧ pin.toBitVec.getLsbD i = true then decide (falling ≠ 0)
        else (regs.regGpioPol group).getLsbD i := by
  by_cases here : pin >>> 8 = group
  · by_cases falls : falling = 0 <;> cases bit : pin.toBitVec.getLsbD i <;>
      simp [setPol, here, falls, bit, inside]
  · simp [setPol, here, Ne.symm here]

/-- On a TC32 chip a call sets the bits of its pin, in whichever mode. -/
theorem GpioIrq.set_pol (gpio : GpioIrq) (conf : GpioConf)
    : (gpio.set .tc32 conf.mode conf.pin conf.polarity).regs.regGpioPol
      = if conf.mode = .invalid then gpio.regs.regGpioPol
        else (gpio.regs.setPol conf.pin conf.polarity.code).regGpioPol := by
  cases conf.mode <;> rfl

theorem PolarityAfter.set {start : GpioRegs} {done : List GpioConf} {gpio : GpioIrq}
    (after : PolarityAfter start done gpio.regs) (conf : GpioConf)
    : PolarityAfter start (done ++ [conf])
        (gpio.set .tc32 conf.mode conf.pin conf.polarity).regs := by
  intro group i inside
  rw [GpioIrq.set_pol, lastPolarity_concat]
  by_cases invalid : conf.mode = .invalid
  · have other : ¬ conf.Covers group i := fun covers => covers.1 invalid
    rw [if_pos invalid, if_neg other]
    exact after group i inside
  · rw [if_neg invalid, GpioRegs.setPol_bit _ _ _ _ inside]
    by_cases here : conf.pin >>> 8 = group ∧ conf.pin.toBitVec.getLsbD i = true
    · rw [if_pos here, if_pos (show conf.Covers group i from ⟨invalid, here⟩)]
      rfl
    · have other : ¬ conf.Covers group i := fun covers => here covers.2
      rw [if_neg here, if_neg other]
      exact after group i inside

end TelinkSdk.Gpio
