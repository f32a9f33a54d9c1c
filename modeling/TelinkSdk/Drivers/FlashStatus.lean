import TelinkSdk.Drivers.Flash

/-! The write protection of the flash chips: the status register that `flash_mid*.c` reads and
writes, the table of chips and the flag of `drv_flash.c`. A flash program that runs on these
registers behaves as one that runs on a chip with a lock.
-/

namespace TelinkSdk.FlashStatus

open Nor

-----------------------------------------------------------------------------------------
-- The chips
-----------------------------------------------------------------------------------------

/-- `FLASH_TYPE_8BIT_STATUS`, `FLASH_TYPE_16BIT_STATUS_ONE_CMD`, `FLASH_TYPE_16BIT_STATUS_TWO_CMD`:
how a chip takes its status.
-/
inductive StatusType where
  | bit8
  | bit16OneCmd
  | bit16TwoCmd
  deriving DecidableEq, Repr

/-- The bits that can be read. -/
def StatusType.readable : StatusType → UInt16
  | .bit8 => 0x00FF
  | _ => 0xFFFF

/-- An entry of `c_flashOptList`, with what its `unlock` and `lock` pass on: the mask
`FLASH_WRITE_STATUS_BP_*`, the mask `FLASH_WRITE_STATUS_OTP_*` where there is one, and whether they
clear `FLASH_WRITE_CONFIGURE_WPS_*` first.
-/
structure FlashOpt where
  mid : Nat
  type : StatusType
  bpMask : UInt16
  otpMask : UInt16 := 0
  blockSize : UInt16
  wps : Bool := false
  block_bp : blockSize &&& ~~~bpMask = 0 := by decide
  bp_readable : bpMask &&& ~~~type.readable = 0 := by decide
  bp_otp : bpMask &&& otpMask = 0 := by decide

def mid13325e : FlashOpt := { mid := 0x13325e, type := .bit8, bpMask := 0x1c, blockSize := 0x1c }
def mid134051 : FlashOpt := { mid := 0x134051, type := .bit8, bpMask := 0x1c, blockSize := 0x1c }
def mid1360c8 : FlashOpt := { mid := 0x1360c8, type := .bit8, bpMask := 0x1c, blockSize := 0x1c }
def mid14325e : FlashOpt := { mid := 0x14325e, type := .bit8, bpMask := 0x1c, blockSize := 0x1c }
def mid1460c8 : FlashOpt := { mid := 0x1460c8, type := .bit8, bpMask := 0x1c, blockSize := 0x1c }

def mid136085 : FlashOpt :=
  { mid := 0x136085, type := .bit16OneCmd, bpMask := 0x407c, otpMask := 0x3800, blockSize := 0x7c }

def mid1360eb : FlashOpt :=
  { mid := 0x1360eb, type := .bit16OneCmd, bpMask := 0x407c, otpMask := 0x3800, blockSize := 0x7c }

def mid011460c8 : FlashOpt :=
  { mid := 0x11460c8, type := .bit16OneCmd, bpMask := 0x407c, otpMask := 0x3800, blockSize := 0x7c }

def mid146085 : FlashOpt :=
  { mid := 0x146085, type := .bit16OneCmd, bpMask := 0x407c, otpMask := 0x3800, blockSize := 0x7c }

/-- Its block size is `FLASH_LOCK_LOW_512K_MID1570CD`, a quarter of the chip. -/
def mid1570cd : FlashOpt :=
  { mid := 0x1570cd, type := .bit16OneCmd, bpMask := 0x407c, otpMask := 0x0400, blockSize := 0x30 }

def mid156085 : FlashOpt :=
  {
    mid := 0x156085
    type := .bit16OneCmd
    bpMask := 0x407c
    otpMask := 0x3800
    blockSize := 0x7c
    wps := true
  }

def mid166085 : FlashOpt :=
  {
    mid := 0x166085
    type := .bit16TwoCmd
    bpMask := 0x407c
    otpMask := 0x3800
    blockSize := 0x4000
    wps := true
  }

inductive McuCore where
  | core8258
  | core8278
  | b91
  deriving DecidableEq, Repr

def cFlashOptList : McuCore → List FlashOpt
  | .core8258 =>
      [mid13325e, mid134051, mid136085, mid1360c8, mid1360eb, mid14325e, mid1460c8, mid011460c8]
  | .core8278 => [mid13325e, mid1360c8, mid14325e, mid1460c8, mid146085, mid1570cd]
  | .b91 => [mid146085, mid156085, mid166085]

-----------------------------------------------------------------------------------------
-- The registers
-----------------------------------------------------------------------------------------

structure FlashRegs where
  status : UInt16
  config : UInt8

/-- Which of the commands to a register reach the chip: the configuration, the status or its low
byte, and its high byte.
-/
structure Taken where
  config : Bool := true
  low : Bool := true
  high : Bool := true

def flashWriteConfigureWps : UInt8 := 0x04

/-- The bits that a `flash_write_status` of this type changes. -/
def StatusType.written (taken : Taken) : StatusType → UInt16
  | .bit8 => if taken.low then 0x00FF else 0
  | .bit16OneCmd => if taken.low then 0xFFFF else 0
  | .bit16TwoCmd => (if taken.low then 0x00FF else 0) ||| (if taken.high then 0xFF00 else 0)

/-- The register after a write of `data`: it replaces the bits written. -/
def flashWriteStatus (type : StatusType) (taken : Taken) (data : UInt16) (regs : FlashRegs)
    : FlashRegs :=
  { regs with
    status := (regs.status &&& ~~~type.written taken) ||| (data &&& type.written taken) }

/-- `flash_read_status_mid*` -/
def flashReadStatusMid (opt : FlashOpt) (regs : FlashRegs) : UInt16 :=
  regs.status &&& opt.type.readable

/-- `flash_write_status_mid*`: 1 for success, 0 for an error and 2 for a wrong parameter. -/
def flashWriteStatusMid (opt : FlashOpt) (taken : Taken) (data mask : UInt16) (regs : FlashRegs)
    : Nat × FlashRegs :=
  if data &&& ~~~mask ≠ 0 then (2, regs)
  else
    let status := flashReadStatusMid opt regs
    let regs :=
      if data ≠ status &&& mask then
        flashWriteStatus opt.type taken (data ||| (status &&& ~~~mask)) regs
      else regs
    if data = flashReadStatusMid opt regs &&& mask then (1, regs) else (0, regs)

/-- `flash_write_config_mid*` with the data 0 -/
def flashWriteConfigMid (taken : Taken) (regs : FlashRegs) : FlashRegs :=
  if taken.config then { regs with config := 0x00 ||| (regs.config &&& ~~~flashWriteConfigureWps) }
  else regs

/-- `flash_lock_mid*`, and with the data `FLASH_LOCK_NONE_*` `flash_unlock_mid*`. -/
def flashLockMid (opt : FlashOpt) (taken : Taken) (data : UInt16) (regs : FlashRegs)
    : Nat × FlashRegs :=
  flashWriteStatusMid opt taken data opt.bpMask
    (if opt.wps then flashWriteConfigMid taken regs else regs)

def flashLockNone : UInt16 := 0

-----------------------------------------------------------------------------------------
-- The driver
-----------------------------------------------------------------------------------------

/-- The chip's registers, `pFlashOpt` and `g_flashLocked`. -/
structure FlashDriver where
  regs : FlashRegs
  pFlashOpt : Option FlashOpt := none
  flashLocked : Bool := false

/-- `mid` is what `flash_read_mid` reads. -/
def flashLoadOpt (core : McuCore) (mid : Nat) (drv : FlashDriver) : FlashDriver :=
  match (cFlashOptList core).find? (fun opt => mid == opt.mid) with
  | some opt => { drv with pFlashOpt := some opt }
  | none => drv

/-- The call through `pFlashOpt`, which sets the flag if it succeeds. -/
def FlashDriver.setLock (taken : Taken) (value : Bool) (drv : FlashDriver) : FlashDriver :=
  match drv.pFlashOpt with
  | none => drv
  | some opt =>
      let (ret, regs) := flashLockMid opt taken (if value then opt.blockSize else flashLockNone)
        drv.regs
      if ret = 1 then { drv with regs, flashLocked := value } else { drv with regs }

def flashLock (taken : Taken) (drv : FlashDriver) : FlashDriver :=
  if drv.flashLocked then drv else drv.setLock taken true

def flashUnlock (taken : Taken) (drv : FlashDriver) : FlashDriver :=
  if drv.flashLocked then drv.setLock taken false else drv

/-- A cold start, with the part of `drv_platform_init` that is about the flash. -/
def drvPlatformInit (core : McuCore) (mid : Nat) (taken : Taken) (regs : FlashRegs)
    : FlashDriver :=
  flashLock taken (flashLoadOpt core mid { regs })

-----------------------------------------------------------------------------------------
-- Bits under a mask
-----------------------------------------------------------------------------------------

section Bits

variable {a b old data mask readable written : UInt16}

theorem eq_of_bits (same : ∀ i < 16, a.toBitVec.getLsbD i = b.toBitVec.getLsbD i) : a = b :=
  UInt16.toBitVec_inj.mp (BitVec.eq_of_getLsbD_eq same)

theorem bit_of_masked (within : a &&& ~~~mask = 0) {i : Nat} (inside : i < 16)
    : a.toBitVec.getLsbD i = true → mask.toBitVec.getLsbD i = true := by
  intro set
  have bit := congrArg (fun value : UInt16 => value.toBitVec.getLsbD i) within
  simpa [set, inside] using bit

/-- A write of masked data leaves the bits outside of the mask alone, whatever of it is taken. -/
theorem written_outside (within : data &&& ~~~mask = 0) (known : written &&& ~~~readable = 0)
    : ((old &&& ~~~written) ||| ((data ||| (old &&& readable &&& ~~~mask)) &&& written))
        &&& ~~~mask
      = old &&& ~~~mask := by
  apply eq_of_bits
  intro i inside
  have data_mask := bit_of_masked within inside
  have written_readable := bit_of_masked known inside
  simp only [UInt16.toBitVec_and, UInt16.toBitVec_or, UInt16.toBitVec_not, BitVec.getLsbD_and,
    BitVec.getLsbD_or, BitVec.getLsbD_not, inside, decide_true, Bool.true_and]
  grind

/-- A whole write puts the data under the mask. -/
theorem written_inside (within : data &&& ~~~mask = 0) (known : mask &&& ~~~readable = 0)
    : ((old &&& ~~~readable) ||| ((data ||| (old &&& readable &&& ~~~mask)) &&& readable))
        &&& mask
      = data := by
  apply eq_of_bits
  intro i inside
  have data_mask := bit_of_masked within inside
  have mask_readable := bit_of_masked known inside
  simp only [UInt16.toBitVec_and, UInt16.toBitVec_or, UInt16.toBitVec_not, BitVec.getLsbD_and,
    BitVec.getLsbD_or, BitVec.getLsbD_not, inside, decide_true, Bool.true_and]
  grind

theorem readable_masked (known : mask &&& ~~~readable = 0)
    : a &&& readable &&& mask = a &&& mask := by
  apply eq_of_bits
  intro i inside
  have mask_readable := bit_of_masked known inside
  simp only [UInt16.toBitVec_and, BitVec.getLsbD_and]
  grind

/-- Values that agree outside of a mask agree under one that is apart from it. -/
theorem masked_apart {apart : UInt16} (disjoint : mask &&& apart = 0)
    (outside : a &&& ~~~mask = b &&& ~~~mask)
    : a &&& apart = b &&& apart := by
  apply eq_of_bits
  intro i inside
  have never := congrArg (fun value : UInt16 => value.toBitVec.getLsbD i) disjoint
  have same := congrArg (fun value : UInt16 => value.toBitVec.getLsbD i) outside
  simp only [UInt16.toBitVec_and, UInt16.toBitVec_not, UInt16.toBitVec_zero, BitVec.getLsbD_and,
    BitVec.getLsbD_not, BitVec.getLsbD_zero, inside, decide_true, Bool.true_and] at never same ⊢
  grind

end Bits

-----------------------------------------------------------------------------------------
-- Locking and unlocking
-----------------------------------------------------------------------------------------

section Lock

variable {opt : FlashOpt} {taken : Taken} {data : UInt16} {regs : FlashRegs}
  {drv : FlashDriver} {value : Bool}

theorem StatusType.written_readable (type : StatusType) (taken : Taken)
    : type.written taken &&& ~~~type.readable = 0 := by
  obtain ⟨config, low, high⟩ := taken
  cases type <;> cases config <;> cases low <;> cases high <;> decide

theorem StatusType.written_all (type : StatusType) : type.written {} = type.readable := by
  cases type <;> decide

theorem flashReadStatusMid_bp (opt : FlashOpt) (regs : FlashRegs)
    : flashReadStatusMid opt regs &&& opt.bpMask = regs.status &&& opt.bpMask :=
  readable_masked opt.bp_readable

/-- A status write changes no bit outside of the mask, whatever it returns. -/
theorem flashWriteStatusMid_outside
    : (flashWriteStatusMid opt taken data opt.bpMask regs).2.status &&& ~~~opt.bpMask
      = regs.status &&& ~~~opt.bpMask := by
  unfold flashWriteStatusMid
  by_cases within : data &&& ~~~opt.bpMask = 0
  · rw [if_neg (not_not_intro within)]
    dsimp only
    generalize written : (if data ≠ flashReadStatusMid opt regs &&& opt.bpMask then
      flashWriteStatus opt.type taken
        (data ||| (flashReadStatusMid opt regs &&& ~~~opt.bpMask)) regs
      else regs) = after
    have kept : after.status &&& ~~~opt.bpMask = regs.status &&& ~~~opt.bpMask := by
      rw [← written]
      split
      · exact written_outside within (opt.type.written_readable taken)
      · rfl
    split <;> exact kept
  · rw [if_pos within]

/-- It returns 1 only with the data in the register. -/
theorem flashWriteStatusMid_ret
    (success : (flashWriteStatusMid opt taken data opt.bpMask regs).1 = 1)
    : (flashWriteStatusMid opt taken data opt.bpMask regs).2.status &&& opt.bpMask = data := by
  unfold flashWriteStatusMid at *
  by_cases within : data &&& ~~~opt.bpMask = 0
  · rw [if_neg (not_not_intro within)] at *
    dsimp only at *
    generalize (if data ≠ flashReadStatusMid opt regs &&& opt.bpMask then
      flashWriteStatus opt.type taken
        (data ||| (flashReadStatusMid opt regs &&& ~~~opt.bpMask)) regs
      else regs) = after at *
    by_cases same : data = flashReadStatusMid opt after &&& opt.bpMask
    · rw [if_pos same, ← flashReadStatusMid_bp]
      exact same.symm
    · rw [if_neg same] at success
      cases success
  · rw [if_pos within] at success
    cases success

/-- A write that is taken succeeds. -/
theorem flashWriteStatusMid_taken (within : data &&& ~~~opt.bpMask = 0)
    : (flashWriteStatusMid opt {} data opt.bpMask regs).1 = 1 := by
  unfold flashWriteStatusMid
  rw [if_neg (not_not_intro within)]
  dsimp only
  rw [if_pos]
  rw [flashReadStatusMid_bp]
  split
  · rw [flashWriteStatus, opt.type.written_all]
    exact (written_inside within opt.bp_readable).symm
  · rename_i same
    rw [not_not.mp same, flashReadStatusMid_bp]

theorem flashWriteStatusMid_config
    : (flashWriteStatusMid opt taken data opt.bpMask regs).2.config = regs.config := by
  unfold flashWriteStatusMid
  split
  · rfl
  · dsimp only
    split <;> split <;> rfl

/-- What the registers of a chip and the driver's flag have to do with each other. -/
structure Agrees (opt : FlashOpt) (drv : FlashDriver) : Prop where
  loaded : drv.pFlashOpt = some opt
  config : opt.wps = true → drv.regs.config &&& flashWriteConfigureWps = 0
  block : drv.regs.status &&& opt.bpMask = if drv.flashLocked then opt.blockSize else flashLockNone

/-- The data of a call, and the registers when it gets to the status. -/
def lockData (opt : FlashOpt) (value : Bool) : UInt16 :=
  if value then opt.blockSize else flashLockNone

def lockRegs (opt : FlashOpt) (taken : Taken) (regs : FlashRegs) : FlashRegs :=
  if opt.wps then flashWriteConfigMid taken regs else regs

theorem lockData_bp (opt : FlashOpt) (value : Bool) : lockData opt value &&& ~~~opt.bpMask = 0 := by
  cases value
  · exact UInt16.zero_and
  · exact opt.block_bp

theorem lockRegs_status (opt : FlashOpt) (taken : Taken) (regs : FlashRegs)
    : (lockRegs opt taken regs).status = regs.status := by
  unfold lockRegs flashWriteConfigMid
  split
  · split <;> rfl
  · rfl

theorem lockRegs_config (uses : opt.wps = true)
    : (lockRegs opt {} regs).config &&& flashWriteConfigureWps = 0 := by
  have cleared (config : UInt8)
      : (0x00 ||| (config &&& ~~~flashWriteConfigureWps)) &&& flashWriteConfigureWps = 0 := by
    rw [UInt8.zero_or, UInt8.and_assoc]
    exact UInt8.and_zero
  unfold lockRegs
  rw [if_pos uses]
  exact cleared regs.config

/-- The driver after a call through the table. -/
theorem FlashDriver.setLock_eq (loaded : drv.pFlashOpt = some opt)
    : drv.setLock taken value
      = if (flashWriteStatusMid opt taken (lockData opt value) opt.bpMask
            (lockRegs opt taken drv.regs)).1 = 1 then
          { drv with
            regs := (flashWriteStatusMid opt taken (lockData opt value) opt.bpMask
              (lockRegs opt taken drv.regs)).2
            flashLocked := value }
        else
          { drv with
            regs := (flashWriteStatusMid opt taken (lockData opt value) opt.bpMask
              (lockRegs opt taken drv.regs)).2 } := by
  unfold FlashDriver.setLock
  rw [loaded]
  rfl

/-- No call of the driver changes a bit outside of the chip's mask. -/
theorem FlashDriver.setLock_outside (loaded : drv.pFlashOpt = some opt) (taken : Taken)
    (value : Bool)
    : (drv.setLock taken value).regs.status &&& ~~~opt.bpMask
      = drv.regs.status &&& ~~~opt.bpMask := by
  have outside := @flashWriteStatusMid_outside opt taken (lockData opt value)
    (lockRegs opt taken drv.regs)
  rw [lockRegs_status] at outside
  rw [FlashDriver.setLock_eq loaded]
  split <;> exact outside

/-- A call that is taken leaves the flag and the registers in agreement. -/
theorem FlashDriver.setLock_agrees (loaded : drv.pFlashOpt = some opt) (value : Bool)
    : Agrees opt (drv.setLock {} value) ∧ (drv.setLock {} value).flashLocked = value := by
  have success := @flashWriteStatusMid_taken opt (lockData opt value) (lockRegs opt {} drv.regs)
    (lockData_bp opt value)
  rw [FlashDriver.setLock_eq loaded, if_pos success]
  refine ⟨⟨loaded, fun uses => ?_, ?_⟩, rfl⟩
  · rw [flashWriteStatusMid_config]
    exact lockRegs_config uses
  · exact flashWriteStatusMid_ret success

/-- A cold start with a chip of the table locks it, whatever was in its registers. -/
theorem drvPlatformInit_agrees {core : McuCore} {mid : Nat}
    (listed : (cFlashOptList core).find? (fun opt => mid == opt.mid) = some opt)
    (regs : FlashRegs)
    : Agrees opt (drvPlatformInit core mid {} regs)
      ∧ (drvPlatformInit core mid {} regs).flashLocked = true := by
  have loaded : flashLoadOpt core mid { regs } = { regs, pFlashOpt := some opt } := by
    rw [flashLoadOpt, listed]
  rw [drvPlatformInit, loaded, flashLock, if_neg Bool.false_ne_true]
  exact FlashDriver.setLock_agrees rfl true

theorem drvPlatformInit_outside {core : McuCore} {mid : Nat}
    (listed : (cFlashOptList core).find? (fun opt => mid == opt.mid) = some opt)
    (regs : FlashRegs)
    : (drvPlatformInit core mid {} regs).regs.status &&& ~~~opt.bpMask
      = regs.status &&& ~~~opt.bpMask := by
  have loaded : flashLoadOpt core mid { regs } = { regs, pFlashOpt := some opt } := by
    rw [flashLoadOpt, listed]
  rw [drvPlatformInit, loaded, flashLock, if_neg Bool.false_ne_true]
  exact FlashDriver.setLock_outside rfl {} true

end Lock

-----------------------------------------------------------------------------------------
-- Flash programs on the registers
-----------------------------------------------------------------------------------------

/-- The flash with its registers, and the driver. -/
structure FlashDev where
  mem : Mem
  drv : FlashDriver
  issued : Nat := 0
  allocs : Nat := 0

/-- The chip ignores a command while its registers guard it. -/
def FlashDev.issue (guards : FlashRegs → Bool) (env : Env) (cmd : Cmd) (chip : FlashDev)
    : FlashDev :=
  { chip with
    mem :=
      if !env.lowVoltage chip.issued && !guards chip.drv.regs then cmd.apply chip.mem else chip.mem
    issued := chip.issued + 1 }

def FlashDev.setLock (taken : Taken) (value : Bool) (chip : FlashDev) : FlashDev :=
  { chip with drv := chip.drv.setLock taken value }

section Run

variable {α : Type}

/-- Run a program on the registers. -/
def runChip (guards : FlashRegs → Bool) (env : Env) : Prog α → FlashDev → α × FlashDev
  | .done value, chip => (value, chip)
  | .look next, chip => runChip guards env (next chip.mem) chip
  | .issue cmd next, chip =>
      runChip guards env (next (!env.lowVoltage chip.issued)) (chip.issue guards env cmd)
  | .lockState next, chip => runChip guards env (next chip.drv.flashLocked) chip
  | .setLock value next, chip => runChip guards env next (chip.setLock {} value)
  | .alloc next, chip =>
      runChip guards env (next (!env.noBuffer chip.allocs))
        { chip with allocs := chip.allocs + 1 }

/-- What a program leaves when the power goes after `count` commands to the array or the registers.
Of the call that comes next `taken` has reached the registers.
-/
def cutChip (guards : FlashRegs → Bool) (env : Env) (taken : Taken)
    : Nat → Prog α → FlashDev → FlashDev
  | _, .done _, chip => chip
  | count, .look next, chip => cutChip guards env taken count (next chip.mem) chip
  | 0, .issue _ _, chip => chip
  | count + 1, .issue cmd next, chip =>
      cutChip guards env taken count (next (!env.lowVoltage chip.issued))
        (chip.issue guards env cmd)
  | count, .lockState next, chip => cutChip guards env taken count (next chip.drv.flashLocked) chip
  | 0, .setLock value _, chip => chip.setLock taken value
  | count + 1, .setLock value next, chip =>
      cutChip guards env taken count next (chip.setLock {} value)
  | count, .alloc next, chip =>
      cutChip guards env taken count (next (!env.noBuffer chip.allocs))
        { chip with allocs := chip.allocs + 1 }

/-- The programs that lock and unlock are the driver's functions. -/
theorem runChip_flashLock (guards : FlashRegs → Bool) (env : Env) (chip : FlashDev)
    : runChip guards env TelinkSdk.flashLock chip
      = ((), { chip with drv := flashLock {} chip.drv }) := by
  obtain ⟨mem, ⟨regs, opt, locked⟩, issued, allocs⟩ := chip
  cases locked <;> rfl

theorem runChip_flashUnlock (guards : FlashRegs → Bool) (env : Env) (chip : FlashDev)
    : runChip guards env TelinkSdk.flashUnlock chip
      = ((), { chip with drv := flashUnlock {} chip.drv }) := by
  obtain ⟨mem, ⟨regs, opt, locked⟩, issued, allocs⟩ := chip
  cases locked <;> rfl

end Run

-----------------------------------------------------------------------------------------
-- The registers refine the lock
-----------------------------------------------------------------------------------------

/-- What `mid*_lock_block_e` says about a chip whose block is all of it: with no block protection
every command is taken, and with this one none.
-/
structure ProtectsAll (opt : FlashOpt) (guards : FlashRegs → Bool) : Prop where
  none
    : ∀ regs,
        (opt.wps = true → regs.config &&& flashWriteConfigureWps = 0)
        → regs.status &&& opt.bpMask = flashLockNone
        → guards regs = false
  all
    : ∀ regs,
        (opt.wps = true → regs.config &&& flashWriteConfigureWps = 0)
        → regs.status &&& opt.bpMask = opt.blockSize
        → guards regs = true

/-- The device as the lock makes it: the driver's flag says whether the chip is locked. -/
def FlashDev.dev (chip : FlashDev) : Dev where
  mem := chip.mem
  locked := chip.drv.flashLocked
  issued := chip.issued
  allocs := chip.allocs

/-- The same supply, with a chip that can be locked and then ignores commands. -/
def lockingEnv (env : Env) : Env := { env with knownChip := true, lockGuards := true }

section Refines

variable {α : Type} {opt : FlashOpt} {guards : FlashRegs → Bool} {env : Env} {chip : FlashDev}

theorem Agrees.guarded (agrees : Agrees opt chip.drv) (protects : ProtectsAll opt guards)
    : guards chip.drv.regs = chip.drv.flashLocked := by
  have block := agrees.block
  cases locked : chip.drv.flashLocked with
  | true =>
      rw [locked, if_pos rfl] at block
      exact protects.all chip.drv.regs agrees.config block
  | false =>
      rw [locked, if_neg Bool.false_ne_true] at block
      exact protects.none chip.drv.regs agrees.config block

theorem Agrees.issue (agrees : Agrees opt chip.drv) (protects : ProtectsAll opt guards)
    (env : Env) (cmd : Cmd)
    : (chip.issue guards env cmd).dev = chip.dev.issue (lockingEnv env) cmd := by
  simp only [FlashDev.issue, FlashDev.dev, Dev.issue, Dev.step, Step.apply, Env.accepts, lockingEnv,
    agrees.guarded protects, Bool.true_and]

theorem Agrees.setLock (agrees : Agrees opt chip.drv) (value : Bool)
    : Agrees opt (chip.setLock {} value).drv
      ∧ (chip.setLock {} value).dev = { chip.dev with locked := value } := by
  obtain ⟨after, flag⟩ := @FlashDriver.setLock_agrees opt chip.drv agrees.loaded value
  refine ⟨after, ?_⟩
  simp only [FlashDev.dev, FlashDev.setLock, flag]

/-- A program gives the same on the registers as with the lock. By induction on the program. -/
theorem Agrees.run (agrees : Agrees opt chip.drv) (protects : ProtectsAll opt guards)
    (env : Env) (p : Prog α)
    : ((runChip guards env p chip).1, (runChip guards env p chip).2.dev)
        = Prog.run (lockingEnv env) p chip.dev
      ∧ Agrees opt (runChip guards env p chip).2.drv
      ∧ (runChip guards env p chip).2.drv.regs.status &&& ~~~opt.bpMask
        = chip.drv.regs.status &&& ~~~opt.bpMask := by
  induction p generalizing chip with
  | done value => exact ⟨rfl, agrees, rfl⟩
  | look next ih => exact ih chip.mem agrees
  | issue cmd next ih =>
      have later := @ih (!env.lowVoltage chip.issued) (chip.issue guards env cmd) agrees
      rw [agrees.issue protects] at later
      exact later
  | lockState next ih => exact ih chip.drv.flashLocked agrees
  | setLock value next ih =>
      obtain ⟨after, dev⟩ := agrees.setLock value
      obtain ⟨result, kept, outside⟩ := ih after
      rw [dev] at result
      exact ⟨result, kept, outside.trans (FlashDriver.setLock_outside agrees.loaded {} value)⟩
  | alloc next ih =>
      exact @ih (!env.noBuffer chip.allocs) { chip with allocs := chip.allocs + 1 } agrees

/-- So does one that is cut, in the array. -/
theorem Agrees.cut (agrees : Agrees opt chip.drv) (protects : ProtectsAll opt guards)
    (env : Env) (taken : Taken) (count : Nat) (p : Prog α)
    : (∃ n, (cutChip guards env taken count p chip).mem
        = Prog.crash (lockingEnv env) p chip.dev n)
      ∧ (cutChip guards env taken count p chip).drv.regs.status &&& ~~~opt.bpMask
        = chip.drv.regs.status &&& ~~~opt.bpMask := by
  induction p generalizing chip count with
  | done value => exact ⟨⟨0, rfl⟩, rfl⟩
  | look next ih => exact ih chip.mem agrees count
  | issue cmd next ih =>
      cases count with
      | zero => exact ⟨⟨0, rfl⟩, rfl⟩
      | succ count =>
          obtain ⟨⟨n, mem⟩, outside⟩ :=
            @ih (!env.lowVoltage chip.issued) (chip.issue guards env cmd) agrees count
          rw [agrees.issue protects] at mem
          exact ⟨⟨n + 1, mem⟩, outside⟩
  | lockState next ih => exact ih chip.drv.flashLocked agrees count
  | setLock value next ih =>
      cases count with
      | zero => exact ⟨⟨0, rfl⟩, FlashDriver.setLock_outside agrees.loaded taken value⟩
      | succ count =>
          obtain ⟨after, dev⟩ := agrees.setLock value
          obtain ⟨⟨n, mem⟩, outside⟩ := ih after count
          rw [dev] at mem
          exact ⟨⟨n, mem⟩, outside.trans (FlashDriver.setLock_outside agrees.loaded {} value)⟩
  | alloc next ih =>
      exact @ih (!env.noBuffer chip.allocs) { chip with allocs := chip.allocs + 1 } agrees count

/-- The devices that programs reach after a cold start, with further cold starts where the power
was lost.
-/
inductive ChipReached (core : McuCore) (mid : Nat) (guards : FlashRegs → Bool) (m₀ : Mem)
    (regs₀ : FlashRegs)
    : FlashDev → Prop where
  | start : ChipReached core mid guards m₀ regs₀
      { mem := m₀, drv := drvPlatformInit core mid {} regs₀ }
  | run {α : Type} {chip : FlashDev} (before : ChipReached core mid guards m₀ regs₀ chip)
      (env : Env) (p : Prog α)
      : ChipReached core mid guards m₀ regs₀ (runChip guards env p chip).2
  | cut {α : Type} {chip : FlashDev} (before : ChipReached core mid guards m₀ regs₀ chip)
      (env : Env) (taken : Taken) (count : Nat) (p : Prog α)
      : ChipReached core mid guards m₀ regs₀
          {
            mem := (cutChip guards env taken count p chip).mem
            drv :=
              drvPlatformInit core mid {} (cutChip guards env taken count p chip).drv.regs
          }

variable {core : McuCore} {mid : Nat} {m₀ : Mem} {regs₀ : FlashRegs}

/-- In every run flag and registers agree, and the other bits are as in the beginning. -/
theorem ChipReached.agrees
    (listed : (cFlashOptList core).find? (fun opt => mid == opt.mid) = some opt)
    (protects : ProtectsAll opt guards) (reached : ChipReached core mid guards m₀ regs₀ chip)
    : Agrees opt chip.drv
      ∧ chip.drv.regs.status &&& ~~~opt.bpMask = regs₀.status &&& ~~~opt.bpMask := by
  induction reached with
  | start => exact ⟨(drvPlatformInit_agrees listed regs₀).1, drvPlatformInit_outside listed regs₀⟩
  | run before env p ih =>
      obtain ⟨-, agrees, outside⟩ := ih.1.run protects env p
      exact ⟨agrees, outside.trans ih.2⟩
  | cut before env taken count p ih =>
      have outside := (ih.1.cut protects env taken count p).2
      exact ⟨(drvPlatformInit_agrees listed _).1,
        (drvPlatformInit_outside listed _).trans (outside.trans ih.2)⟩

end Refines

/-- In every run of flash programs on a chip of the table that is locked as a whole, with power cuts
between any two commands to its array or its registers, a program gives the same as with a plain
lock, where it is complete and where it is cut; the driver's flag says whether the chip is locked;
and the bits outside of the block protection, those that lock the security registers for good among
them, are as they were delivered.
-/
theorem flashStatus_refines {core : McuCore} {mid : Nat} {opt : FlashOpt}
    (listed : (cFlashOptList core).find? (fun opt => mid == opt.mid) = some opt)
    {guards : FlashRegs → Bool} (protects : ProtectsAll opt guards) {m₀ : Mem}
    {regs₀ : FlashRegs} {chip : FlashDev}
    (reached : ChipReached core mid guards m₀ regs₀ chip) {α : Type} (env : Env) (p : Prog α)
    : ((runChip guards env p chip).1, (runChip guards env p chip).2.dev)
        = Prog.run (lockingEnv env) p chip.dev
      ∧ (∀ taken count, ∃ n, (cutChip guards env taken count p chip).mem
        = Prog.crash (lockingEnv env) p chip.dev n)
      ∧ guards chip.drv.regs = chip.drv.flashLocked
      ∧ chip.drv.regs.status &&& ~~~opt.bpMask = regs₀.status &&& ~~~opt.bpMask
      ∧ chip.drv.regs.status &&& opt.otpMask = regs₀.status &&& opt.otpMask := by
  obtain ⟨agrees, outside⟩ := reached.agrees listed protects
  refine ⟨(agrees.run protects env p).1,
    fun taken count => (agrees.cut protects env taken count p).1, agrees.guarded protects,
    outside, ?_⟩
  exact masked_apart opt.bp_otp outside

/-- A chip that is guarded by the complement bit alone, and was delivered with it cleared, one
security register locked and the protection by single blocks. A byte is written.
-/
theorem flashStatus_refines_write
    : let guards : FlashRegs → Bool := fun regs => regs.status &&& 0x407c == 0x4000
      let p : Prog Unit :=
        Prog.bind TelinkSdk.flashUnlock fun _ =>
          Prog.bind (flashWrite 5 [1]) fun _ => TelinkSdk.flashLock
      let start : FlashDev :=
        {
          mem := Mem.blank
          drv := drvPlatformInit .b91 0x166085 {} { status := 0x0800, config := 0x04 }
        }
      (runChip guards {} p start).2.dev.mem 5 = 1
        ∧ (runChip guards {} p start).2.dev.locked = true
        ∧ start.drv.regs.status &&& 0x3800 = 0x0800 := by
  intro guards p start
  have protects : ProtectsAll mid166085 guards := by
    constructor
    · intro regs _ none
      exact beq_eq_false_iff_ne.mpr (fun all => absurd (none.symm.trans all) (by decide))
    · intro regs _ all
      exact beq_iff_eq.mpr all
  have listed : (cFlashOptList .b91).find? (fun opt => 0x166085 == opt.mid) = some mid166085 := rfl
  have reached
      : ChipReached .b91 0x166085 guards Mem.blank { status := 0x0800, config := 0x04 } start :=
    .start
  have stored : (Prog.run (lockingEnv {}) p start.dev).2.mem 5 = 1
      ∧ (Prog.run (lockingEnv {}) p start.dev).2.locked = true := by decide
  obtain ⟨same, -, -, -, otp⟩ := flashStatus_refines listed protects reached {} p
  rw [← same] at stored
  exact ⟨stored.1, stored.2, otp⟩

end TelinkSdk.FlashStatus
