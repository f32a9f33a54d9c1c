import TelinkSdk.Drivers.FrameCountRun

/-! What `nv_nwkFrameCountSaveToFlash` reports, against what it has stored. -/

namespace TelinkSdk

open Nor

variable {env : Env} {b : Build} {m : Mem} {d : Dev} {v : Nat}

/-- The status is that of the search at the start, whatever happens after it. -/
theorem nvNwkFrameCountSaveToFlash_status (env : Env) (b : Build) (v : Nat) (d : Dev)
    : (Prog.run env (nvNwkFrameCountSaveToFlash b v) d).1
      = if (nvSectorRead b d.mem nvModuleNwkFrameCount moduleSectorNum).isSome then .succ
        else .itemNotFound := by
  simp only [nvNwkFrameCountSaveToFlash, Prog.run_bind, run_flashUnlock, Prog.run_view,
    lockTo_mem, Prog.run_pure]
  rfl

theorem nvSectorRead_isSome (b : Build) (m : Mem)
    : (nvSectorRead b m nvModuleNwkFrameCount moduleSectorNum).isSome = true
      ↔ ∃ k, Marked b frameModule m k := by
  have found := nvSectorRead_eq b frameModule m
  have eq : nvSectorRead b m nvModuleNwkFrameCount moduleSectorNum
      = nvSectorRead b m frameModule moduleSectorNum := rfl
  rw [eq, found]
  constructor
  · intro some_sector
    by_cases first : Marked b frameModule m 0
    · exact ⟨0, first⟩
    · by_cases second : Marked b frameModule m 1
      · exact ⟨1, second⟩
      · simp [first, second] at some_sector
  · rintro ⟨k, marked⟩
    have cases : k = 0 ∨ k = 1 := by omega
    rcases cases with rfl | rfl
    · simp [marked]
    · by_cases first : Marked b frameModule m 0
      · simp [first]
      · simp [first, marked]

/-- A complete save after any saves, each cut anywhere, is read back. It reports `NV_SUCC` exactly
if a sector was marked valid when it started.
-/
theorem nvNwkFrameCountSaveToFlash_reports
    (blank : m.BlankOn (modulesStartAddr b frameModule) (moduleEnd b frameModule))
    (saves : List FrameSave) (memory : d.mem = frameRun b m saves) (steady : env.Steady)
    (small : v < u32Mod) (real : v ≠ frameCountIdle)
    : nvNwkFrameCountFromFlash b (Prog.run env (nvNwkFrameCountSaveToFlash b v) d).2.mem = some v
      ∧ ((Prog.run env (nvNwkFrameCountSaveToFlash b v) d).1 = .succ
        ↔ ∃ k, Marked b frameModule (frameRun b m saves) k) := by
  have before : Restarts b (Recent saves) d.mem := memory ▸ (Restarts.erased blank).run saves
  obtain ⟨-, saved⟩ := (nvNwkFrameCountSaveToFlash_meets small real before).steady steady
  refine ⟨saved.read, ?_⟩
  rw [nvNwkFrameCountSaveToFlash_status, memory, ← nvSectorRead_isSome]
  split
  · rename_i found
    simp [found]
  · rename_i nothing
    simp [nothing]

/-- The second save of an erased module. -/
theorem nvNwkFrameCountSaveToFlash_reports_second
    : (Prog.run {} (nvNwkFrameCountSaveToFlash ⟨true, false⟩ 8)
        (Dev.ready (frameRun ⟨true, false⟩ Mem.blank [{ value := 7 }]))).1 = .succ := by
  have steady : ({} : Env).Steady := ⟨fun _ => rfl, rfl⟩
  refine (nvNwkFrameCountSaveToFlash_reports (fun _ _ _ => rfl) _ rfl steady (by decide)
    (by decide)).2.mpr ⟨0, ?_⟩
  decide +kernel

/-- The first save of an erased module stores its value, but reports that there is none. -/
theorem first_save_unreported
    : (Prog.run {} (nvNwkFrameCountSaveToFlash ⟨true, false⟩ 7) (Dev.ready Mem.blank)).1
        = .itemNotFound
      ∧ nvNwkFrameCountFromFlash ⟨true, false⟩
          (Prog.run {} (nvNwkFrameCountSaveToFlash ⟨true, false⟩ 7) (Dev.ready Mem.blank)).2.mem
        = some 7 := by
  decide +kernel

end TelinkSdk
