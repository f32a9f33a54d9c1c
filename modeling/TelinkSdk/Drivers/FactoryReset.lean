import TelinkSdk.Drivers.NvConfined

/-! A factory reset that is cut off and run again. The flag is set before the first erase and
goes away with the last one, so a reset that was begun is never taken for finished.
-/

namespace TelinkSdk

open Nor

variable {env : Env} {b : Build} {m₀ m m' : Mem} {d : Dev}

/-- The byte belongs to the area of a module. -/
def InModule (b : Build) (id x : Nat) : Prop := modulesStartAddr b id ≤ x ∧ x < moduleEnd b id

/-- The modules that a factory reset erases are blank. -/
def FactoryNew (b : Build) (m : Mem) : Prop :=
  ∀ id ∈ factoryModules, m.BlankOn (modulesStartAddr b id) (moduleEnd b id)

/-- What holds of the memory `m` of an interrupted reset that began with `m₀`. -/
structure Resetting (b : Build) (m₀ m : Mem) : Prop where
  frameCount : ∀ x, InModule b nvModuleNwkFrameCount x → m x = m₀ x
  begun : nvFacrotyNewRstFlagCheck b m = true ∨ FactoryNew b m
    ∨ ∀ id ∈ factoryModules, ∀ x, InModule b id x → m x = m₀ x

theorem mem_factoryModules {id : Nat}
    : id ∈ factoryModules ↔ id < nvMaxModuls ∧ id ≠ nvModuleNwkFrameCount := by
  simp [factoryModules]

/-- A module that is erased lies apart from the frame counter and from the flag. -/
theorem factoryModules_apart {id : Nat} (erased : id ∈ factoryModules)
    : (moduleEnd b id ≤ modulesStartAddr b nvModuleNwkFrameCount
        ∨ moduleEnd b nvModuleNwkFrameCount ≤ modulesStartAddr b id)
      ∧ moduleEnd b id ≤ cfgFactoryRstCnt b
      ∧ moduleEnd b nvModuleNwkFrameCount ≤ cfgFactoryRstCnt b := by
  obtain ⟨cap, boot⟩ := b
  have cases : id = 0 ∨ id = 2 ∨ id = 3 := by
    obtain ⟨small, other⟩ := mem_factoryModules.mp erased
    simp only [nvMaxModuls, nvModuleNwkFrameCount] at small other
    omega
  rcases cases with rfl | rfl | rfl <;> cases cap <;> cases boot <;> decide

theorem cfgFactoryRstCnt_aligned (b : Build) : cfgFactoryRstCnt b % 4096 = 0 := by
  unfold cfgFactoryRstCnt
  split <;> rfl

/-- The flag is set and the frame counter is as it was: what an erase of another module keeps. -/
structure Flagged (b : Build) (m₀ m : Mem) : Prop where
  frameCount : ∀ x, InModule b nvModuleNwkFrameCount x → m x = m₀ x
  flag : nvFacrotyNewRstFlagCheck b m = true

theorem Flagged.resetting (flagged : Flagged b m₀ m) : Resetting b m₀ m :=
  ⟨flagged.frameCount, .inl flagged.flag⟩

theorem Flagged.erase {id addr : Nat} (flagged : Flagged b m₀ m) (erased : id ∈ factoryModules)
    (aligned : addr % 4096 = 0) (low : modulesStartAddr b id ≤ addr)
    (high : addr + 4096 ≤ moduleEnd b id)
    : Flagged b m₀ (m.erase flashSectorSize addr) := by
  obtain ⟨apart, below, -⟩ := @factoryModules_apart b id erased
  refine ⟨?_, ?_⟩
  · intro x inside
    rw [Mem.erase_aligned m (by decide) aligned, if_neg]
    · exact flagged.frameCount x inside
    · obtain ⟨first, last⟩ := inside
      omega
  · have kept : m.erase flashSectorSize addr (cfgFactoryRstCnt b) = m (cfgFactoryRstCnt b) := by
      rw [Mem.erase_aligned m (by decide) aligned, if_neg (by omega)]
    rw [nvFacrotyNewRstFlagCheck, kept]
    exact flagged.flag

theorem nvResetModule_meets {id : Nat} (flagged : Flagged b m₀ d.mem)
    (erased : id ∈ factoryModules)
    : Prog.Meets (Structural b 0) env (Flagged b m₀) (nvResetModule b id) d
        (fun _ d' => Flagged b m₀ d'.mem
          ∧ d'.mem.BlankOn (modulesStartAddr b id) (moduleEnd b id)
          ∧ ∀ x, d.mem x = blankByte → d'.mem x = blankByte) := by
  obtain ⟨aligned, area⟩ := resetModule_area b ⟨id, (mem_factoryModules.mp erased).1⟩
  unfold nvResetModule
  rw [nvResetModule.sectors_eq]
  refine Prog.Meets.skip (trace_flashUnlock env d) (Prog.Meets.bind
    (flashEraseSectors_meets (fun m addr held low high place => held.erase erased place low high)
      _ _ _ (by simpa using flagged) aligned (Nat.le_refl _) (Nat.le_of_eq area)) ?_)
  rintro _ d' ⟨held, blank, outside, -⟩
  simp only [area] at blank outside
  refine Prog.Meets.skip (trace_flashLock env d') (.silent (by simpa using held) rfl ?_)
  simp only [run_flashLock, Prog.run_pure, lockTo_mem]
  refine ⟨held, blank, fun x before => ?_⟩
  by_cases inside : modulesStartAddr b id ≤ x ∧ x < moduleEnd b id
  · exact blank x inside.1 inside.2
  · rw [outside x (by omega)]
    simpa using before

/-- The modules are erased one after the other, and what is blank stays blank. -/
theorem nvResetModules_meets (ids : List Nat) (flagged : Flagged b m₀ d.mem)
    (erased : ∀ id ∈ ids, id ∈ factoryModules)
    : Prog.Meets (Structural b 0) env (Flagged b m₀) (nvResetModules b ids) d
        (fun _ d' => Flagged b m₀ d'.mem
          ∧ (∀ id ∈ ids, d'.mem.BlankOn (modulesStartAddr b id) (moduleEnd b id))
          ∧ ∀ x, d.mem x = blankByte → d'.mem x = blankByte) := by
  induction ids generalizing d with
  | nil => exact .silent flagged rfl ⟨flagged, by simp, fun x before => before⟩
  | cons id rest ih =>
      apply Prog.Meets.bind (nvResetModule_meets flagged (erased id (by simp)))
      rintro _ d' ⟨held, blank, kept⟩
      apply (ih held (fun other member => erased other (by simp [member]))).mono
        (fun _ held => held)
      rintro _ d'' ⟨final, others, kept'⟩
      refine ⟨final, ?_, fun x before => kept' x (kept x before)⟩
      intro other member
      rcases List.mem_cons.mp member with rfl | later
      · intro x low high
        exact kept' x (blank x low high)
      · exact others other later

/-- Setting the flag takes effect at once, since the byte was blank. -/
theorem nvFacrotyNewRstFlagSet_meets (steady : env.Steady) (start : Resetting b m₀ d.mem)
    (clear : nvFacrotyNewRstFlagCheck b d.mem = false)
    : Prog.Meets (Structural b 0) env (Resetting b m₀) (nvFacrotyNewRstFlagSet b) d
        (fun _ d' => Flagged b m₀ d'.mem) := by
  have below := (@factoryModules_apart b 0 (by decide)).2.2
  have blank : d.mem (cfgFactoryRstCnt b) = blankByte := by
    simpa [nvFacrotyNewRstFlagCheck] using clear
  have flagged : Flagged b m₀ (d.mem.program (cfgFactoryRstCnt b) [itemFieldValid]) := by
    refine ⟨?_, ?_⟩
    · intro x inside
      have apart : x < cfgFactoryRstCnt b := Nat.lt_of_lt_of_le inside.2 below
      rw [Mem.program_outside (.inl apart)]
      exact start.frameCount x inside
    · rw [nvFacrotyNewRstFlagCheck, Mem.program_byte, if_pos rfl, blank]
      decide
  refine Prog.Meets.skip (trace_flashUnlock env d) (Prog.Meets.bind
    (flashWrite_meets (by simpa using start) (by simpa using flagged.resetting)) ?_)
  rintro _ d' ⟨-, stored | ⟨refused, -⟩⟩
  · simp only [run_flashUnlock, lockTo_mem] at stored
    rw [← stored] at flagged
    exact .silent flagged.resetting (trace_flashLock env d') (by simpa using flagged)
  · rw [steady.accepts] at refused
    contradiction

/-- Clearing the flag is safe once every module is blank. -/
theorem nvFacrotyNewRstFlagClear_meets (start : Flagged b m₀ d.mem) (erased : FactoryNew b d.mem)
    : Prog.Meets (Structural b 0) env (Resetting b m₀) (nvFacrotyNewRstFlagClear b) d
        (fun _ d' => Resetting b m₀ d'.mem ∧ FactoryNew b d'.mem
          ∧ nvFacrotyNewRstFlagCheck b d'.mem = false) := by
  have below := (@factoryModules_apart b 0 (by decide)).2.2
  have bytes (x : Nat) := Mem.erase_aligned d.mem (by decide) (cfgFactoryRstCnt_aligned b) x
  have after : Resetting b m₀ (d.mem.erase flashSectorSize (cfgFactoryRstCnt b))
      ∧ FactoryNew b (d.mem.erase flashSectorSize (cfgFactoryRstCnt b)) := by
    have blank : FactoryNew b (d.mem.erase flashSectorSize (cfgFactoryRstCnt b)) := by
      intro id member x low high
      rw [bytes]
      split
      · rfl
      · exact erased id member x low high
    refine ⟨⟨fun x inside => ?_, .inr (.inl blank)⟩, blank⟩
    have apart : x < cfgFactoryRstCnt b := Nat.lt_of_lt_of_le inside.2 below
    rw [bytes, if_neg (by omega)]
    exact start.frameCount x inside
  refine Prog.Meets.skip (trace_flashUnlock env d) (Prog.Meets.bind
    (flashErase_essential trivial (by simpa using start.resetting) (by simpa using after.1)) ?_)
  rintro _ d' ⟨-, stored⟩
  simp only [run_flashUnlock, lockTo_mem] at stored
  refine .silent (by rw [stored]; exact after.1) (trace_flashLock env d') ?_
  simp only [run_flashLock, lockTo_mem]
  rw [stored]
  refine ⟨after.1, after.2, ?_⟩
  rw [nvFacrotyNewRstFlagCheck, bytes, if_pos (by omega)]
  rfl

/-- The whole reset, from any state that interrupted resets can leave. -/
theorem nvResetToFactoryNew_meets (steady : env.Steady) (start : Resetting b m₀ d.mem)
    : Prog.Meets (Structural b 0) env (Resetting b m₀) (nvResetToFactoryNew b) d
        (fun _ d' => Resetting b m₀ d'.mem ∧ FactoryNew b d'.mem
          ∧ nvFacrotyNewRstFlagCheck b d'.mem = false) := by
  have rest {d₁ : Dev} (held : Flagged b m₀ d₁.mem)
      : Prog.Meets (Structural b 0) env (Resetting b m₀)
          (do nvResetModules b factoryModules; nvFacrotyNewRstFlagClear b; pure NvSts.succ) d₁
          (fun _ d' => Resetting b m₀ d'.mem ∧ FactoryNew b d'.mem
            ∧ nvFacrotyNewRstFlagCheck b d'.mem = false) := by
    refine Prog.Meets.bind ((nvResetModules_meets factoryModules held
      (fun _ member => member)).mono (fun _ held => held.resetting) (fun _ _ post => post)) ?_
    rintro _ d₂ ⟨held', erased, -⟩
    refine Prog.Meets.bind (nvFacrotyNewRstFlagClear_meets held' erased) (fun _ d₃ post => ?_)
    exact .silent post.1 rfl post
  apply Prog.Meets.read
  by_cases set : nvFacrotyNewRstFlagCheck b d.mem = true
  · simp only [set, if_true]
    exact rest ⟨start.frameCount, set⟩
  · simp only [set, Bool.false_eq_true, if_false]
    exact Prog.Meets.bind (nvFacrotyNewRstFlagSet_meets steady start (by simpa using set))
      (fun _ _ held => rest held)

/-- The memories that factory resets leave which began with `m₀`, each cut off after any number
of its steps.
-/
inductive FactoryRuns (b : Build) (m₀ : Mem) : Mem → Prop where
  | start : FactoryRuns b m₀ m₀
  | run {env : Env} {d : Dev} (steady : env.Steady) (before : FactoryRuns b m₀ d.mem) (count : Nat)
      : FactoryRuns b m₀ ((nvResetToFactoryNew b).crash env d count)

theorem FactoryRuns.resetting (runs : FactoryRuns b m₀ m) : Resetting b m₀ m := by
  induction runs with
  | start => exact ⟨fun _ _ => rfl, .inr (.inr fun _ _ _ _ => rfl)⟩
  | run steady _ count ih => exact ((nvResetToFactoryNew_meets steady ih).steady steady).1 count

/-- However often a factory reset is cut off and run again, the frame counter keeps its bytes, a
module that lost a byte is still under reset or every module is erased, and a reset that gets
through leaves them erased with the flag clear.
-/
theorem nvResetToFactoryNew_survives (b : Build) {m₀ m : Mem} (runs : FactoryRuns b m₀ m)
    : (∀ x, InModule b nvModuleNwkFrameCount x → m x = m₀ x)
      ∧ ((∃ id ∈ factoryModules, ∃ x, InModule b id x ∧ m x ≠ m₀ x)
        → nvFacrotyNewRstFlagCheck b m = true ∨ FactoryNew b m)
      ∧ ∀ (env : Env) (d : Dev), env.Steady → d.mem = m →
        FactoryNew b (Prog.run env (nvResetToFactoryNew b) d).2.mem
        ∧ nvFacrotyNewRstFlagCheck b (Prog.run env (nvResetToFactoryNew b) d).2.mem = false := by
  have state := runs.resetting
  refine ⟨state.frameCount, ?_, ?_⟩
  · rintro ⟨id, erased, x, inside, changed⟩
    rcases state.begun with flag | blank | same
    · exact .inl flag
    · exact .inr blank
    · exact absurd (same id erased x inside) changed
  · rintro env d steady rfl
    exact ((nvResetToFactoryNew_meets steady state).steady steady).2.2

/-- One byte of module 0 is in use. -/
def oneByteUsed : Mem := fun x => if x = 0x80000 then 0 else blankByte

/-- A reset that is cut off behind its first erase. -/
theorem nvResetToFactoryNew_survives_cut
    : ∃ m, FactoryRuns { flashCapSize1M := true, bootLoaderMode := false } oneByteUsed m
      ∧ m 0x80000 = blankByte
      ∧ (nvFacrotyNewRstFlagCheck { flashCapSize1M := true, bootLoaderMode := false } m = true
        ∨ FactoryNew { flashCapSize1M := true, bootLoaderMode := false } m) := by
  have runs := FactoryRuns.run (d := { mem := oneByteUsed, locked := true })
    (⟨fun _ => rfl, rfl⟩ : ({} : Env).Steady)
    (FactoryRuns.start (b := { flashCapSize1M := true, bootLoaderMode := false })) 2
  have lost : (nvResetToFactoryNew { flashCapSize1M := true, bootLoaderMode := false }).crash {}
      { mem := oneByteUsed, locked := true } 2 0x80000 = blankByte := by
    decide +kernel
  refine ⟨_, runs, lost, (nvResetToFactoryNew_survives _ runs).2.1 ?_⟩
  refine ⟨0, by decide, 0x80000, ⟨by decide, by decide⟩, ?_⟩
  rw [lost]
  decide

end TelinkSdk
