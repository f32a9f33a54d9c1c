import TelinkSdk.Drivers.NvModule

/-! Erasing modules: the reset functions of `drv_nv.c` and the flag of a factory reset. -/

namespace TelinkSdk

open Nor

/-- The two nested loops of `nv_resetModule`; the argument is the number of module sectors
left.
-/
def nvResetModule.sectors (sectNumber : Nat) : Nat → Nat → Prog Unit
  | 0, _ => pure ()
  | left + 1, eraseAddr => do
      flashEraseSectors sectNumber eraseAddr
      nvResetModule.sectors sectNumber left (eraseAddr + sectNumber * flashSectorSize)

def nvResetModule (b : Build) (modules : Nat) : Prog NvSts := do
  flashUnlock
  nvResetModule.sectors (nvSectorSize modules / flashSectorSize) moduleSectorNum
    (modulesStartAddr b modules)
  flashLock
  pure .succ

/-- Reset a list of modules, one after the other. -/
def nvResetModules (b : Build) : List Nat → Prog Unit
  | [] => pure ()
  | modules :: rest => do
      let _ ← nvResetModule b modules
      nvResetModules b rest

def nvResetAll (b : Build) : Prog NvSts := do
  nvResetModules b (List.range nvMaxModuls)
  pure .succ

def nvInit (b : Build) (rst : Bool) : Prog NvSts := do
  if rst then
    let _ ← nvResetAll b
    pure .succ
  else pure .succ

def nvFacrotyNewRstFlagCheck (b : Build) (m : Mem) : Bool := m (cfgFactoryRstCnt b) != 0xff

def nvFacrotyNewRstFlagSet (b : Build) : Prog Unit := do
  flashUnlock
  flashWrite (cfgFactoryRstCnt b) [itemFieldValid]
  flashLock

def nvFacrotyNewRstFlagClear (b : Build) : Prog Unit := do
  flashUnlock
  flashErase (cfgFactoryRstCnt b)
  flashLock

/-- The modules that a factory reset erases: all but the frame counter. -/
def factoryModules : List Nat :=
  (List.range nvMaxModuls).filter (fun i => i != nvModuleNwkFrameCount)

def nvResetToFactoryNew (b : Build) : Prog NvSts := do
  let flag ← Prog.view (nvFacrotyNewRstFlagCheck b)
  if flag then pure () else nvFacrotyNewRstFlagSet b
  nvResetModules b factoryModules
  nvFacrotyNewRstFlagClear b
  pure .succ

-----------------------------------------------------------------------------------------
-- What a reset erases
-----------------------------------------------------------------------------------------

section Reset

variable {env : Env} {b : Build} {d : Dev}

theorem flashEraseSectors_emits {ok : Step → Prop} (count addr : Nat) (d : Dev)
    (kind : ∀ i < count, ∀ d' : Dev, d'.locked = d.locked
      → ok (d'.step env (.erase flashSectorSize (addr + i * flashSectorSize))))
    : Prog.Emits ok env (flashEraseSectors count addr) d := by
  induction count generalizing addr d with
  | zero => exact .silent rfl
  | succ count ih =>
      refine Prog.Emits.bind (flashErase_emits (by simpa using kind 0 (by omega) d rfl)) ?_
      apply ih
      intro i inside d' same
      have step := kind (i + 1) (by omega) d' same
      rwa [Nat.add_mul, Nat.one_mul, Nat.add_comm (i * flashSectorSize), ← Nat.add_assoc] at step

theorem flashEraseSectors_locked (count addr : Nat) (d : Dev)
    : (Prog.run env (flashEraseSectors count addr) d).2.locked = d.locked := by
  induction count generalizing addr d with
  | zero => rfl
  | succ count ih =>
      simp only [flashEraseSectors, Prog.run_bind, run_flashErase]
      rw [ih]
      rfl

/-- Sectors that are erased one after the other become one blank range. -/
theorem flashEraseSectors_mem (steady : env.Steady) (count : Nat) {addr : Nat}
    (aligned : addr % flashSectorSize = 0) (d : Dev) (x : Nat)
    : (Prog.run env (flashEraseSectors count addr) d).2.mem x
      = if addr ≤ x ∧ x < addr + count * flashSectorSize then blankByte else d.mem x := by
  induction count generalizing addr d with
  | zero => rw [if_neg (by omega)]; rfl
  | succ count ih =>
      have next : (addr + flashSectorSize) % flashSectorSize = 0 := by
        rw [Nat.add_mod_right, aligned]
      simp only [flashEraseSectors, Prog.run_bind, run_flashErase]
      rw [ih next, steady.issue_mem, Cmd.apply, Mem.erase_aligned _ (by decide) aligned]
      simp only [flashSectorSize]
      split <;> split <;> (try split) <;> first | rfl | omega

/-- The nested loops erase one run of sectors. -/
theorem nvResetModule.sectors_eq (sectNumber left addr : Nat)
    : nvResetModule.sectors sectNumber left addr = flashEraseSectors (left * sectNumber) addr := by
  have split (first second addr : Nat)
      : (flashEraseSectors first addr >>= fun _ =>
          flashEraseSectors second (addr + first * flashSectorSize))
        = flashEraseSectors (first + second) addr := by
    induction first generalizing addr with
    | zero =>
        rw [Nat.zero_add, Nat.zero_mul, Nat.add_zero]
        rfl
    | succ first ih =>
        have next : addr + (first + 1) * flashSectorSize
            = addr + flashSectorSize + first * flashSectorSize := by
          rw [Nat.add_mul, Nat.one_mul]
          omega
        rw [Nat.add_right_comm, flashEraseSectors, flashEraseSectors, Prog.bind_assoc, next]
        simp only [ih]
  induction left generalizing addr with
  | zero =>
      rw [Nat.zero_mul]
      rfl
  | succ left ih => rw [nvResetModule.sectors, ih, split, Nat.succ_mul, Nat.add_comm sectNumber]

end Reset

end TelinkSdk
