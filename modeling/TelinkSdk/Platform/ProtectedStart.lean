import TelinkSdk.Drivers.FlashStatus
import TelinkSdk.Platform.IeeeAddr

/-! Starts of a device whose flash is protected. A cold start locks the chip, and the code that
makes an address up does not unlock it, so its writes are lost.
-/

namespace TelinkSdk.FlashStatus

open Nor

/-- A cold start on what the flash and its registers hold, and the call for the address. -/
def protectedStart (core : McuCore) (mid : Nat) (guards : FlashRegs → Bool) (cfg : Nat) (env : Env)
    (rand : Nat → UInt32) (mem : Mem) (regs : FlashRegs)
    : List UInt8 × FlashDev :=
  runChip guards env (generateIEEEAddr cfg rand)
    { mem, drv := drvPlatformInit core mid {} regs }

/-- No command of the program is for the eight bytes of the address. -/
def LeavesAddress (cfg : Nat) {α : Type} (env : Env) (p : Prog α) (d : Dev) : Prop :=
  Prog.Emits (fun step => ∀ x, step.cmd.Touches x → x < cfg ∨ cfg + 8 ≤ x) env p d

/-- The devices that starts and other flash programs reach, with power cuts in the programs, and the
addresses that the starts returned for the numbers of their generators.
-/
inductive ProtectedReached (core : McuCore) (mid : Nat) (guards : FlashRegs → Bool) (cfg : Nat)
    (m₀ : Mem) (regs₀ : FlashRegs)
    : FlashDev → List ((Nat → UInt32) × List UInt8) → Prop where
  | first (env : Env) (rand : Nat → UInt32)
      : ProtectedReached core mid guards cfg m₀ regs₀
          (protectedStart core mid guards cfg env rand m₀ regs₀).2
          [(rand, (protectedStart core mid guards cfg env rand m₀ regs₀).1)]
  | work {α : Type} {chip : FlashDev} {log : List ((Nat → UInt32) × List UInt8)}
      (before : ProtectedReached core mid guards cfg m₀ regs₀ chip log) (env : Env) (p : Prog α)
      (leaves : LeavesAddress cfg (lockingEnv env) p chip.dev)
      : ProtectedReached core mid guards cfg m₀ regs₀ (runChip guards env p chip).2 log
  | again {α : Type} {chip cut : FlashDev} {log : List ((Nat → UInt32) × List UInt8)}
      (before : ProtectedReached core mid guards cfg m₀ regs₀ chip log) (env : Env) (p : Prog α)
      (leaves : LeavesAddress cfg (lockingEnv env) p chip.dev) (taken : Taken) (count : Nat)
      (lost : cut = cutChip guards env taken count p chip) (next : Env) (rand : Nat → UInt32)
      : ProtectedReached core mid guards cfg m₀ regs₀
          (protectedStart core mid guards cfg next rand cut.mem cut.drv.regs).2
          (log ++ [(rand, (protectedStart core mid guards cfg next rand cut.mem cut.drv.regs).1)])

section Protected

variable {core : McuCore} {mid cfg : Nat} {opt : FlashOpt} {guards : FlashRegs → Bool}
  {m₀ m : Mem} {regs₀ : FlashRegs} {chip : FlashDev}
  {log : List ((Nat → UInt32) × List UInt8)} {env : Env} {rand : Nat → UInt32}

/-- On a locked chip an address is made up and lost. -/
theorem generateIEEEAddr_locked {d : Dev} (locked : d.locked = true)
    (empty : d.mem.read cfg 8 = invalidAddr)
    : (Prog.run (lockingEnv env) (generateIEEEAddr cfg rand) d).1 = freshAddr rand
      ∧ (Prog.run (lockingEnv env) (generateIEEEAddr cfg rand) d).2.mem = d.mem := by
  have ignored (d : Dev) (cmd : Cmd) (locked : d.locked = true)
      : (d.issue (lockingEnv env) cmd).mem = d.mem := by
    simp only [Dev.issue, Dev.step, Step.apply, Env.accepts, lockingEnv, locked, Bool.and_true,
      Bool.not_true, Bool.and_false, Bool.false_eq_true, if_false]
  rw [(generateIEEEAddr_fresh empty).1]
  refine ⟨rfl, ?_⟩
  have second := ignored (d.issue (lockingEnv env) (firstWrite cfg rand)) (secondWrite cfg rand)
    locked
  exact second.trans (ignored d (firstWrite cfg rand) locked)

/-- A start leaves the flash empty, and its address comes from the generator. -/
theorem protectedStart_lost
    (listed : (cFlashOptList core).find? (fun opt => mid == opt.mid) = some opt)
    (protects : ProtectsAll opt guards) (empty : m.read cfg 8 = invalidAddr) (regs : FlashRegs)
    : (protectedStart core mid guards cfg env rand m regs).1 = freshAddr rand
      ∧ (protectedStart core mid guards cfg env rand m regs).2.mem = m
      ∧ Agrees opt (protectedStart core mid guards cfg env rand m regs).2.drv := by
  obtain ⟨agrees, locked⟩ := drvPlatformInit_agrees listed regs
  have start : Agrees opt ({ mem := m, drv := drvPlatformInit core mid {} regs } : FlashDev).drv :=
    agrees
  obtain ⟨same, after, -⟩ := start.run protects env (generateIEEEAddr cfg rand)
  obtain ⟨made, kept⟩ := @generateIEEEAddr_locked cfg env rand
    ({ mem := m, drv := drvPlatformInit core mid {} regs } : FlashDev).dev locked empty
  rw [← same] at made kept
  exact ⟨made, kept, after⟩

theorem LeavesAddress.read {α : Type} {p : Prog α} {d : Dev} (leaves : LeavesAddress cfg env p d)
    (count : Nat)
    : (Prog.crash env p d count).read cfg 8 = d.mem.read cfg 8 := by
  refine Mem.read_congr (fun i inside => replay_untouched ?_)
  intro step member _ touched
  have beside := leaves step (List.mem_of_mem_take member) (cfg + i) touched
  omega

end Protected

/-- On a chip of the table that is locked as a whole, an address that is made up is lost in every
run: whatever other programs store and wherever the power goes, the eight bytes stay empty, and
every start makes up another address from its generator.
-/
theorem ieeeAddr_protected_lost {core : McuCore} {mid cfg : Nat} {opt : FlashOpt}
    (listed : (cFlashOptList core).find? (fun opt => mid == opt.mid) = some opt)
    {guards : FlashRegs → Bool} (protects : ProtectsAll opt guards) {m₀ : Mem}
    (empty : m₀.read cfg 8 = invalidAddr) {regs₀ : FlashRegs} {chip : FlashDev}
    {log : List ((Nat → UInt32) × List UInt8)}
    (reached : ProtectedReached core mid guards cfg m₀ regs₀ chip log)
    : chip.mem.read cfg 8 = invalidAddr ∧ ∀ start ∈ log, start.2 = freshAddr start.1 := by
  have holds : Agrees opt chip.drv ∧ chip.mem.read cfg 8 = invalidAddr
      ∧ ∀ start ∈ log, start.2 = freshAddr start.1 := by
    induction reached with
    | first env rand =>
        obtain ⟨made, kept, agrees⟩ := @protectedStart_lost core mid cfg opt guards m₀ env rand
          listed protects empty regs₀
        refine ⟨agrees, by rw [kept, empty], fun start member => ?_⟩
        rw [List.mem_singleton.mp member]
        exact made
    | @work _ chip _ _ env p leaves ih =>
        obtain ⟨agrees, blank, fresh⟩ := ih
        obtain ⟨same, after, -⟩ := agrees.run protects env p
        refine ⟨after, ?_, fresh⟩
        have mem := congrArg (fun result => result.2.mem) same
        have kept := leaves.read (Prog.trace (lockingEnv env) p chip.dev).length
        rw [Prog.crash, List.take_length, ← Prog.run_mem] at kept
        rw [← blank]
        exact (congrArg (fun m => m.read cfg 8) mem).trans kept
    | @again _ _ cut _ _ env p leaves taken count lost next rand ih =>
        obtain ⟨agrees, blank, fresh⟩ := ih
        obtain ⟨n, mem⟩ := (agrees.cut protects env taken count p).1
        rw [← lost] at mem
        have still : cut.mem.read cfg 8 = invalidAddr := by
          rw [mem, leaves.read n]
          exact blank
        obtain ⟨made, kept, after⟩ := @protectedStart_lost core mid cfg opt guards cut.mem next rand
          listed protects still cut.drv.regs
        refine ⟨after, by rw [kept, still], fun start member => ?_⟩
        rcases List.mem_append.mp member with earlier | last
        · exact fresh start earlier
        · rw [List.mem_singleton.mp last]
          exact made
  exact holds.2

/-- Two starts, with a loss of power in between. -/
theorem ieeeAddr_protected_lost_twice
    : let guards : FlashRegs → Bool := fun regs => regs.status &&& 0x1c == 0x1c
      let first := protectedStart .core8258 0x13325e guards 0x76000 {} (fun _ => 0x04030201)
        Mem.blank { status := 0, config := 0 }
      let second := protectedStart .core8258 0x13325e guards 0x76000 {} (fun _ => 7)
        first.2.mem first.2.drv.regs
      first.1 = [1, 2, 3, 4, 1, 0x38, 0xc1, 0xa4] ∧ second.1 = [7, 0, 0, 0, 7, 0x38, 0xc1, 0xa4]
        ∧ second.2.mem.read 0x76000 8 = invalidAddr := by
  intro guards first second
  have protects : ProtectsAll mid13325e guards := by
    constructor
    · intro regs _ none
      exact beq_eq_false_iff_ne.mpr (fun all => absurd (none.symm.trans all) (by decide))
    · intro regs _ all
      exact beq_iff_eq.mpr all
  have listed : (cFlashOptList .core8258).find? (fun opt => 0x13325e == opt.mid)
      = some mid13325e := rfl
  have start : ProtectedReached .core8258 0x13325e guards 0x76000 Mem.blank
      { status := 0, config := 0 } first.2 [(fun _ => 0x04030201, first.1)] :=
    .first {} (fun _ => 0x04030201)
  have leaves : LeavesAddress 0x76000 (lockingEnv {}) (.done () : Prog Unit) first.2.dev :=
    Prog.Emits.silent rfl
  have reached : ProtectedReached .core8258 0x13325e guards 0x76000 Mem.blank
      { status := 0, config := 0 } second.2
      [(fun _ => 0x04030201, first.1), (fun _ => 7, second.1)] :=
    start.again {} (.done ()) leaves {} 0 rfl {} (fun _ => 7)
  obtain ⟨empty, made⟩ := ieeeAddr_protected_lost listed protects (by decide) reached
  have firstMade := made _ List.mem_cons_self
  have secondMade := made _ (List.mem_cons_of_mem _ List.mem_cons_self)
  have bytes : freshAddr (fun _ => 0x04030201) = [1, 2, 3, 4, 1, 0x38, 0xc1, 0xa4]
      ∧ freshAddr (fun _ => 7) = [7, 0, 0, 0, 7, 0x38, 0xc1, 0xa4] := by decide
  exact ⟨firstMade.trans bytes.1, secondMade.trans bytes.2, empty⟩

end TelinkSdk.FlashStatus
