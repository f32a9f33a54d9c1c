import TelinkSdk.Drivers.NvConfined
import TelinkSdk.Drivers.NvGeometry

/-! Modules of the NV store next to each other. Sector sizes depend on the module, but the
start addresses do not take them into account: user module 1 covers all of user module 2.
Runs that leave one of the two alone keep their modules apart.
-/

namespace TelinkSdk

open Nor

-----------------------------------------------------------------------------------------
-- Operations on modules
-----------------------------------------------------------------------------------------

/-- An operation on one module. -/
inductive NvOp where
  | write (id : Fin nvMaxModuls) (call : NvCall)
  | delete (id : Fin nvMaxModuls) (opSect opIdx : Nat)
  | reset (id : Fin nvMaxModuls)
  | save (frameCount : Nat)

namespace NvOp

/-- The module that the operation is for. -/
def module : NvOp → Fin nvMaxModuls
  | .write id _ => id
  | .delete id _ _ => id
  | .reset id => id
  | .save _ => frameModule

/-- The commands of the operation. -/
def steps (b : Build) (m : Mem) : NvOp → List Step
  | .write id call => call.steps b id m
  | .delete id opSect opIdx =>
      Prog.trace {} (nvItemDeleteByIndex b id opSect opIdx) (Dev.ready m)
  | .reset id => Prog.trace {} (nvResetModule b id) (Dev.ready m)
  | .save frameCount => Prog.trace {} (nvNwkFrameCountSaveToFlash b frameCount) (Dev.ready m)

/-- The array after the operation. -/
def after (b : Build) (m : Mem) (op : NvOp) : Mem := replay m (op.steps b m)

end NvOp

/-- The arrays that operations reach from an erased NV area. -/
inductive NvHistory (b : Build) (allowed : Mem → NvOp → Prop) : Mem → Prop where
  | erased {m : Mem}
      (blank : ∀ id : Fin nvMaxModuls, m.BlankOn (modulesStartAddr b id) (moduleEnd b id))
      : NvHistory b allowed m
  | step {m : Mem} {op : NvOp} (before : NvHistory b allowed m) (next : allowed m op)
      : NvHistory b allowed (op.after b m)

/-- An operation of a run that leaves the module `idle` alone. Items fit behind the last one,
slots that are deleted are in use, and no counter value looks like a blank word.
-/
def SeparateOp (b : Build) (idle : Fin nvMaxModuls) (m : Mem) : NvOp → Prop
  | .write id call =>
      id ≠ frameModule ∧ id ≠ idle ∧ (∀ n, call.skipped n = false)
        ∧ Fits b id call.buf.length m
  | .delete id opSect opIdx =>
      id ≠ frameModule ∧ id ≠ idle ∧ opSect < moduleSectorNum ∧ opIdx < moduleIdxNum id
        ∧ (indexSlot b id opSect m opIdx).InUse
  | .reset id => id ≠ idle
  | .save frameCount => frameCount < u32Mod ∧ frameCount ≠ frameCountIdle

-----------------------------------------------------------------------------------------
-- Areas
-----------------------------------------------------------------------------------------

section Areas

variable {b : Build} {id other idle : Fin nvMaxModuls} {k : Fin 2} {es : List InfoIdx}
  {m m' : Mem}

/-- Without one of the two user modules the areas of the modules are disjoint. -/
theorem moduleArea_apart (user : idle = 2 ∨ idle = 3) (different : id ≠ other)
    (first : id ≠ idle) (second : other ≠ idle)
    : moduleEnd b id ≤ modulesStartAddr b other ∨ moduleEnd b other ≤ modulesStartAddr b id := by
  have size (i : Fin nvMaxModuls)
      : i.val = 2 ∧ nvSectorSize i = 16384 ∨ i.val ≠ 2 ∧ nvSectorSize i = 4096 := by
    revert i
    decide
  have firstSize := size id
  have secondSize := size other
  have left : idle.val = 2 ∨ idle.val = 3 := user.imp (congrArg Fin.val) (congrArg Fin.val)
  have apart := Fin.val_ne_of_ne different
  have firstUsed := Fin.val_ne_of_ne first
  have secondUsed := Fin.val_ne_of_ne second
  have firstSmall : id.val < 4 := id.isLt
  have secondSmall : other.val < 4 := other.isLt
  simp only [moduleEnd, modulesStartAddr_eq b id.isLt, modulesStartAddr_eq b other.isLt]
  omega

/-- The module invariant only looks at the module's area. -/
theorem Store.congr (store : Store b id k es m)
    (same : ∀ x, modulesStartAddr b id ≤ x → x < moduleEnd b id → m' x = m x)
    : Store b id k es m' := by
  have sector (j : Fin 2) (x : Nat) (low : (moduleSector b id j).base ≤ x)
      (high : x < (moduleSector b id j).limit) : m' x = m x := by
    obtain ⟨first, last⟩ := moduleSector_within b id j
    exact same x (by omega) (by omega)
  have heads (j : Fin 2) : sectHead b id m' j = sectHead b id m j := by
    have bounds := (moduleSector b id j).idxAddr_bounds (moduleSector b id j).slots_pos
    exact sectHead_congr (fun x low high => sector j x low (by omega))
  have marks (j : Fin 2) : Marked b id m' j ↔ Marked b id m j := marked_congr (heads j)
  have bounds := (moduleSector b id k).idxAddr_bounds (moduleSector b id k).slots_pos
  exact {
    own := fun j marked => by
      rw [heads j]
      exact store.own j ((marks j).mp marked)
    operation := by
      have operation := store.operation
      simpa only [InOperation, marks] using operation
    chain := store.chain.congr (fun x low high => sector k x (by omega) high)
    fresh := fun empty x low high => by
      rw [sector k x low (by omega)]
      exact store.fresh empty x low high
  }

/-- So do its reads. -/
theorem Store.read_area (store : Store b id k es m)
    (same : ∀ x, modulesStartAddr b id ≤ x → x < moduleEnd b id → m' x = m x)
    {itemId : UInt8} (real : itemId ≠ itemFieldIdle) {len : Nat} (short : len < u16Mod)
    : nvFlashReadNew b m' id itemId len = nvFlashReadNew b m id itemId len := by
  obtain ⟨first, last⟩ := moduleSector_within b id k
  have bounds := (moduleSector b id k).idxAddr_bounds (moduleSector b id k).slots_pos
  have fits := store.chain.fits
  apply store.read_congr (store.congr same) _ real
  · apply stored_congr real short store.chain.linked
    intro x low high
    exact same x (by omega) (by omega)
  · exact marked_congr (sectHead_congr (fun x low high => same x (by omega) (by omega)))

/-- What the frame counter holds only depends on its own area. -/
theorem Restarts.congr {A : Option Nat → Prop} (restarts : Restarts b A m)
    (same : ∀ x, modulesStartAddr b frameModule ≤ x → x < moduleEnd b frameModule → m' x = m x)
    : Restarts b A m' := by
  have heads (j : Fin 2) : sectHead b frameModule m' j = sectHead b frameModule m j := by
    obtain ⟨first, last⟩ := moduleSector_within b frameModule j
    have limit := @frameSector_limit b j
    exact sectHead_congr (fun x low high => same x (by omega) (by omega))
  have marks (j : Fin 2) : Marked b frameModule m' j ↔ Marked b frameModule m j :=
    marked_congr (heads j)
  rcases restarts with ⟨unmarked, nothing⟩ | ⟨k, vs, holds, found⟩
  · exact Or.inl ⟨fun j => (marks j).not.mpr (unmarked j), nothing⟩
  · obtain ⟨first, last⟩ := moduleSector_within b frameModule k
    refine Or.inr ⟨k, vs, ?_, found⟩
    exact {
      marked := (marks k).mpr holds.marked
      own := (heads k) ▸ holds.own
      first := fun second => (marks 0).not.mpr (holds.first second)
      counted := holds.counted.congr (fun x low high => same x (by omega) (by omega))
      used := holds.used
    }

theorem Restarts.here {A : Option Nat → Prop} (restarts : Restarts b A m)
    : Restarts b (· = nvNwkFrameCountFromFlash b m) m := by
  rcases restarts with ⟨unmarked, nothing⟩ | ⟨k, vs, holds, found⟩
  · refine Or.inl ⟨unmarked, ?_⟩
    rw [nvNwkFrameCountFromFlash, unmarked_sectorRead unmarked]
  · refine Or.inr ⟨k, vs, holds, ?_⟩
    rw [nvNwkFrameCountFromFlash, holds.sectorRead]
    simp only [holds.own, holds.counted.search]

theorem Restarts.read_area {A : Option Nat → Prop} (restarts : Restarts b A m)
    (same : ∀ x, modulesStartAddr b frameModule ≤ x → x < moduleEnd b frameModule → m' x = m x)
    : nvNwkFrameCountFromFlash b m' = nvNwkFrameCountFromFlash b m :=
  (restarts.here.congr same).read

end Areas

-----------------------------------------------------------------------------------------
-- One operation
-----------------------------------------------------------------------------------------

/-- Every module but `idle` is in order. -/
structure Separate (b : Build) (idle : Fin nvMaxModuls) (m : Mem) : Prop where
  items : ∀ id, id ≠ frameModule → id ≠ idle → ∃ k es, Store b id k es m
  frame : Restarts b (fun _ => True) m

section Operation

variable {b : Build} {id idle : Fin nvMaxModuls} {k : Fin 2} {es : List InfoIdx} {m : Mem}
  {op : NvOp}

/-- No driver command is lost. -/
theorem steady_default : ({} : Env).Steady := ⟨fun _ => rfl, rfl⟩

theorem SeparateOp.used (allowed : SeparateOp b idle m op) (user : idle = 2 ∨ idle = 3)
    : op.module ≠ idle := by
  cases op with
  | write id call => exact allowed.2.1
  | delete id opSect opIdx => exact allowed.2.1
  | reset id => exact allowed
  | save frameCount =>
      change frameModule ≠ idle
      rcases user with rfl | rfl <;> decide

/-- The commands of an operation address its own module only. -/
theorem Separate.own (separate : Separate b idle m) (allowed : SeparateOp b idle m op)
    : ∀ s ∈ op.steps b m, OwnStep b op.module s := by
  cases op with
  | write id call =>
      obtain ⟨notFrame, used, unskipped, fits⟩ := allowed
      obtain ⟨k, es, store⟩ := separate.items id notFrame used
      exact @nvFlashWriteNew_own call.env b id k es (Dev.ready m) (call.steady unskipped)
        call.single call.itemId call.buf store fits
  | delete id opSect opIdx =>
      obtain ⟨_, _, sector, inside, _⟩ := allowed
      exact @nvItemDeleteByIndex_own {} b id (Dev.ready m) ⟨opSect, sector⟩ opIdx inside
  | reset id => exact nvResetModule_own b id (Dev.ready m)
  | save frameCount =>
      exact @nvNwkFrameCountSaveToFlash_own {} b (Dev.ready m) frameCount steady_default
        separate.frame

/-- So it leaves the areas of the other modules alone. -/
theorem Separate.outside (separate : Separate b idle m) (allowed : SeparateOp b idle m op)
    {x : Nat} (outside : x < modulesStartAddr b op.module ∨ moduleEnd b op.module ≤ x)
    : op.after b m x = m x := by
  apply replay_untouched
  intro s member _ touched
  have within := separate.own allowed s member x touched
  omega

/-- A deleted slot of the sector in operation stays in the chain. -/
theorem Store.delete (store : Store b id k es m) (j : Fin 2) {opIdx : Nat}
    (inside : opIdx < moduleIdxNum id) (used : (indexSlot b id j m opIdx).InUse)
    : ∃ l, Store b id k l
        (m.program ((moduleSector b id j).idxAddr opIdx + 7) [itemFieldInvalid]) := by
  obtain ⟨first, last, context⟩ := (moduleSector b id j).idxAddr_bounds inside
  have outside {x : Nat} (apart : x < (moduleSector b id j).base + 4
      ∨ (moduleSector b id j).limit ≤ x)
      : m.program ((moduleSector b id j).idxAddr opIdx + 7) [itemFieldInvalid] x = m x :=
    Mem.program_outside (by simp; omega)
  by_cases here : j = k
  · subst j
    obtain ⟨within, _⟩ := store.chain.inUse inside used
    refine ⟨_, store.inside (fun x apart => outside apart)
      (store.chain.mark within itemFieldInvalid) ?_⟩
    intro empty
    exact List.length_eq_zero_iff.mp (by simpa using congrArg List.length empty)
  · refine ⟨es, store.spare here (fun x apart => outside (by omega)) (Or.inl ?_)⟩
    exact sectHead_congr (fun x _ high => outside (Or.inl high))

/-- A reset leaves the module erased. -/
theorem nvResetModule_blank (b : Build) (id : Fin nvMaxModuls) (m : Mem)
    : (NvOp.after b m (.reset id)).BlankOn (modulesStartAddr b id) (moduleEnd b id) := by
  obtain ⟨aligned, area⟩ := resetModule_area b id
  have commands : (NvOp.reset id).steps b m
      = Prog.trace {} (flashEraseSectors (moduleSectorNum * (nvSectorSize id / flashSectorSize))
          (modulesStartAddr b id)) (lockTo {} false (Dev.ready m)) := by
    simp only [NvOp.steps, nvResetModule, nvResetModule.sectors_eq, Prog.trace_bind,
      trace_flashUnlock, run_flashUnlock, trace_flashLock, Prog.trace_pure, List.nil_append,
      List.append_nil]
  obtain ⟨-, -, blank, -, -⟩ := (@flashEraseSectors_meets {} b id (fun _ => True) 0
    (moduleEnd b id) (fun _ _ _ _ _ _ => trivial)
    (moduleSectorNum * (nvSectorSize id / flashSectorSize)) (modulesStartAddr b id)
    (lockTo {} false (Dev.ready m)) trivial aligned (Nat.zero_le _)
    (Nat.le_of_eq area)).steady steady_default
  rw [area, Prog.run_mem, ← commands] at blank
  exact blank

/-- The module of an operation on items stays in order. -/
theorem Separate.store_after (separate : Separate b idle m) (allowed : SeparateOp b idle m op)
    (notFrame : op.module ≠ frameModule)
    : ∃ k es, Store b op.module k es (op.after b m) := by
  cases op with
  | write id call =>
      obtain ⟨_, used, unskipped, fits⟩ := allowed
      obtain ⟨k, es, store⟩ := separate.items id notFrame used
      have cut := @nvFlashWriteNew_cut call.env b id k es (Dev.ready m) call.itemId call.buf
        call.single store call.real fits (call.orderly_steady unskipped)
        (call.steps b id m).length
      rw [Prog.crash, ← NvCall.steps, List.take_length] at cut
      exact cut
  | delete id opSect opIdx =>
      obtain ⟨_, used, sector, inside, slot⟩ := allowed
      obtain ⟨k, es, store⟩ := separate.items id notFrame used
      obtain ⟨l, marked⟩ := store.delete ⟨opSect, sector⟩ inside slot
      exact ⟨k, l, marked⟩
  | reset id => exact ⟨0, [], Store.erased (nvResetModule_blank b id m)⟩
  | save frameCount => exact absurd rfl notFrame

/-- The frame counter stays in order under its own operations. -/
theorem Separate.frame_after (separate : Separate b idle m) (allowed : SeparateOp b idle m op)
    (frame : op.module = frameModule)
    : Restarts b (fun _ => True) (op.after b m) := by
  cases op with
  | write id call => exact absurd frame allowed.1
  | delete id opSect opIdx => exact absurd frame allowed.1
  | reset id =>
      have module : id = frameModule := frame
      subst module
      exact (Restarts.erased (nvResetModule_blank b frameModule m)).mono (fun _ _ => trivial)
  | save frameCount =>
      obtain ⟨small, real⟩ := allowed
      obtain ⟨-, saved⟩ := (@nvNwkFrameCountSaveToFlash_meets {} b (Dev.ready m) frameCount _
        small real separate.frame).steady steady_default
      rw [Prog.run_mem] at saved
      exact saved.mono (fun _ _ => trivial)

/-- Operations keep the modules apart, -/
theorem Separate.step (user : idle = 2 ∨ idle = 3) (separate : Separate b idle m)
    (allowed : SeparateOp b idle m op)
    : Separate b idle (op.after b m) := by
  have used := allowed.used user
  have frameUsed : frameModule ≠ idle := by rcases user with rfl | rfl <;> decide
  have elsewhere (id : Fin nvMaxModuls) (different : id ≠ op.module) (alive : id ≠ idle) (x : Nat)
      (low : modulesStartAddr b id ≤ x) (high : x < moduleEnd b id)
      : op.after b m x = m x := by
    have apart := @moduleArea_apart b id op.module idle user different alive used
    exact separate.outside allowed (by omega)
  refine ⟨fun id notFrame alive => ?_, ?_⟩
  · by_cases here : id = op.module
    · subst here
      exact separate.store_after allowed notFrame
    · obtain ⟨k, es, store⟩ := separate.items id notFrame alive
      exact ⟨k, es, store.congr (elsewhere id here alive)⟩
  · by_cases here : frameModule = op.module
    · exact separate.frame_after allowed here.symm
    · exact separate.frame.congr (elsewhere frameModule here frameUsed)

/-- and so do runs of them, by induction on the run. -/
theorem NvHistory.separate (user : idle = 2 ∨ idle = 3)
    (history : NvHistory b (SeparateOp b idle) m)
    : Separate b idle m := by
  induction history with
  | erased blank =>
      exact {
        items := fun id _ _ => ⟨0, [], Store.erased (blank id)⟩
        frame := (Restarts.erased (blank frameModule)).mono (fun _ _ => trivial)
      }
  | step _ next ih => exact ih.step user next

end Operation

-----------------------------------------------------------------------------------------
-- Isolation
-----------------------------------------------------------------------------------------

/-- As long as one of the two user modules is left alone, an operation on a module addresses
no byte of another one, and what the other one holds reads as before.
-/
theorem nvOp_isolated (b : Build) {idle : Fin nvMaxModuls} (user : idle = 2 ∨ idle = 3)
    {m : Mem} (history : NvHistory b (SeparateOp b idle) m) (op : NvOp)
    (allowed : SeparateOp b idle m op) (other : Fin nvMaxModuls) (different : other ≠ op.module)
    (used : other ≠ idle)
    : (∀ s ∈ op.steps b m, ∀ x, modulesStartAddr b other ≤ x → x < moduleEnd b other
        → ¬s.cmd.Touches x)
      ∧ (other ≠ frameModule → ∀ itemId, itemId ≠ itemFieldIdle → ∀ len < u16Mod,
        nvFlashReadNew b (op.after b m) other itemId len = nvFlashReadNew b m other itemId len)
      ∧ (other = frameModule
        → nvNwkFrameCountFromFlash b (op.after b m) = nvNwkFrameCountFromFlash b m) := by
  have separate := history.separate user
  have apart := @moduleArea_apart b other op.module idle user different used (allowed.used user)
  have same (x : Nat) (low : modulesStartAddr b other ≤ x) (high : x < moduleEnd b other)
      : op.after b m x = m x :=
    separate.outside allowed (by omega)
  refine ⟨?_, ?_, ?_⟩
  · intro s member x low high touched
    have within := separate.own allowed s member x touched
    omega
  · intro notFrame itemId real len short
    obtain ⟨k, es, store⟩ := separate.items other notFrame used
    exact store.read_area same real short
  · rintro rfl
    exact separate.frame.read_area same

namespace TwoModules

open SampleCall (build)

def userModule : Fin nvMaxModuls := ⟨nvModuleUserInfo1, by decide⟩

/-- An item of user module 1, a saved counter, and an item of module 0 that is deleted. -/
def item : Mem := NvOp.after build Mem.blank (.write userModule SampleCall.first)

def counted : Mem := NvOp.after build item (.save 5)

def other : Mem := NvOp.after build counted (.write macModule SampleCall.second)

def stored : Mem := NvOp.after build other (.delete macModule 0 0)

theorem history : NvHistory build (SeparateOp build 3) stored := by
  have blank : NvHistory build (SeparateOp build 3) Mem.blank := .erased (fun _ _ _ _ => rfl)
  have first : NvHistory build (SeparateOp build 3) item :=
    blank.step ⟨by decide, by decide, fun _ => rfl, by decide +kernel⟩
  have second : NvHistory build (SeparateOp build 3) counted := first.step ⟨by decide, by decide⟩
  have third : NvHistory build (SeparateOp build 3) other :=
    second.step ⟨by decide, by decide, fun _ => rfl, by decide +kernel⟩
  refine third.step ⟨by decide, by decide, by decide, by decide, ?_⟩
  rw [InfoIdx.InUse]
  decide +kernel

def write : NvOp := .write macModule SampleCall.again

theorem separate : SeparateOp build 3 stored write :=
  ⟨by decide, by decide, fun _ => rfl, by decide +kernel⟩

end TwoModules

/-- Another write to module 0: the item of user module 1 and the counter read as before. -/
theorem nvOp_isolated_user
    : nvFlashReadNew SampleCall.build (TwoModules.write.after SampleCall.build TwoModules.stored)
        TwoModules.userModule 1 4
        = some [1, 2, 3, 4]
      ∧ nvNwkFrameCountFromFlash SampleCall.build
          (TwoModules.write.after SampleCall.build TwoModules.stored)
        = some 5 := by
  have isolated (other : Fin nvMaxModuls) (different : other ≠ macModule) (used : other ≠ 3) :=
    (nvOp_isolated SampleCall.build (Or.inr rfl) TwoModules.history TwoModules.write
      TwoModules.separate other different used).2
  constructor
  · rw [(isolated TwoModules.userModule (by decide) (by decide)).1 (by decide) 1 (by decide) 4
      (by decide)]
    decide +kernel
  · rw [(isolated frameModule (by decide) (by decide)).2 rfl]
    decide +kernel

/-- User module 1 has sectors of 16 KiB, and user module 2 starts 8 KiB behind it: resetting
the first erases an item of the second.
-/
theorem user_modules_overlap
    : let b : Build := ⟨true, false⟩
      let write : NvOp := .write 3 { itemId := 1, buf := [7] }
      let m := write.after b Mem.blank
      NvHistory b (fun _ _ => True) m
        ∧ nvFlashReadNew b m (3 : Fin nvMaxModuls) 1 1 = some [7]
        ∧ nvFlashReadNew b (NvOp.after b m (.reset 2)) (3 : Fin nvMaxModuls) 1 1 = none :=
  ⟨.step (.erased (fun _ _ _ _ => rfl)) trivial, by decide +kernel, by decide +kernel⟩

end TelinkSdk
