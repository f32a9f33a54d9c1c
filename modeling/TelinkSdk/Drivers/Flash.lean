import TelinkSdk.Nor.Triple

/-! The flash driver `drv_flash.c`: the supply check in front of every program and erase
command, the read-back of checked writes, and the software view of the chip's lock.
-/

namespace TelinkSdk

open Nor

/-- Words of the machine count modulo these. -/
abbrev u16Mod : Nat := 65536
abbrev u32Mod : Nat := 4294967296

abbrev flashPageSize : Nat := 256
abbrev flashSectorSize : Nat := 4096

/-- Lock the chip unless `g_flashLocked` says that it is locked. -/
def flashLock : Prog Unit :=
  .lockState fun locked => if locked then .done () else .setLock true (.done ())

/-- Unlock the chip unless `g_flashLocked` says that it is unlocked. -/
def flashUnlock : Prog Unit :=
  .lockState fun locked => if locked then .setLock false (.done ()) else .done ()

/-- Program `buf` at `addr`; with a low supply the call returns without a command. -/
def flashWrite (addr : Nat) (buf : List UInt8) : Prog Unit :=
  .issue (.program addr buf) fun _ => .done ()

/-- Erase the sector at `addr`; with a low supply the call returns without a command. -/
def flashErase (addr : Nat) : Prog Unit :=
  .issue (.erase flashSectorSize addr) fun _ => .done ()

/-- The read-back of `flash_writeWithCheck`, 48 bytes at a time. The fuel is the number of
bytes left, which every round lowers.
-/
def flashWriteWithCheck.matches (m : Mem) : Nat → Nat → List UInt8 → Bool
  | 0, _, _ => true
  | fuel + 1, sAddr, pSrc =>
      let wLen := if pSrc.length > 48 then 48 else pSrc.length
      if pSrc.length = 0 then true
      else if m.read sAddr wLen = pSrc.take wLen then
        flashWriteWithCheck.matches m fuel (sAddr + wLen) (pSrc.drop wLen)
      else false

/-- Program `buf` at `addr` and read it back. A low supply is reported as a failure. -/
def flashWriteWithCheck (addr : Nat) (buf : List UInt8) : Prog Bool :=
  .issue (.program addr buf) fun sent =>
    if sent then .look fun m => .done (flashWriteWithCheck.matches m buf.length addr buf)
    else .done false

-----------------------------------------------------------------------------------------
-- Running the driver
-----------------------------------------------------------------------------------------

@[simp]
theorem run_flashWrite (env : Env) (addr : Nat) (buf : List UInt8) (d : Dev)
    : Prog.run env (flashWrite addr buf) d = ((), d.issue env (.program addr buf)) := rfl

@[simp]
theorem trace_flashWrite (env : Env) (addr : Nat) (buf : List UInt8) (d : Dev)
    : Prog.trace env (flashWrite addr buf) d = [d.step env (.program addr buf)] := rfl

@[simp]
theorem run_flashErase (env : Env) (addr : Nat) (d : Dev)
    : Prog.run env (flashErase addr) d = ((), d.issue env (.erase flashSectorSize addr)) := rfl

@[simp]
theorem trace_flashErase (env : Env) (addr : Nat) (d : Dev)
    : Prog.trace env (flashErase addr) d = [d.step env (.erase flashSectorSize addr)] := rfl

/-- The device once the driver asked for the lock value `value`. -/
def lockTo (env : Env) (value : Bool) (d : Dev) : Dev :=
  { d with locked := if env.knownChip then value else d.locked }

@[simp]
theorem lockTo_mem (env : Env) (value : Bool) (d : Dev) : (lockTo env value d).mem = d.mem := rfl

@[simp]
theorem lockTo_issued (env : Env) (value : Bool) (d : Dev)
    : (lockTo env value d).issued = d.issued := rfl

@[simp]
theorem lockTo_allocs (env : Env) (value : Bool) (d : Dev)
    : (lockTo env value d).allocs = d.allocs := rfl

/-- Locking is idempotent, so a chip that is already locked needs no command. -/
@[simp]
theorem run_flashLock (env : Env) (d : Dev)
    : Prog.run env flashLock d = ((), lockTo env true d) := by
  obtain ⟨mem, locked, issued, allocs⟩ := d
  cases locked <;> cases known : env.knownChip <;> simp [flashLock, Prog.run, lockTo, known]

@[simp]
theorem trace_flashLock (env : Env) (d : Dev) : Prog.trace env flashLock d = [] := by
  obtain ⟨mem, locked, issued, allocs⟩ := d
  cases locked <;> rfl

@[simp]
theorem run_flashUnlock (env : Env) (d : Dev)
    : Prog.run env flashUnlock d = ((), lockTo env false d) := by
  obtain ⟨mem, locked, issued, allocs⟩ := d
  cases locked <;> cases known : env.knownChip <;> simp [flashUnlock, Prog.run, lockTo, known]

@[simp]
theorem trace_flashUnlock (env : Env) (d : Dev) : Prog.trace env flashUnlock d = [] := by
  obtain ⟨mem, locked, issued, allocs⟩ := d
  cases locked <;> rfl

-----------------------------------------------------------------------------------------
-- Triples for the driver
-----------------------------------------------------------------------------------------

section Triples

variable {critical : Cmd → Prop} {env : Env} {I : Mem → Prop} {d : Dev} {addr : Nat}
  {buf : List UInt8}

theorem flashWrite_emits {ok : Step → Prop} (kind : ok (d.step env (.program addr buf)))
    : Prog.Emits ok env (flashWrite addr buf) d := by
  intro s member
  rw [List.mem_singleton.mp member]
  exact kind

theorem flashErase_emits {ok : Step → Prop}
    (kind : ok (d.step env (.erase flashSectorSize addr)))
    : Prog.Emits ok env (flashErase addr) d := by
  intro s member
  rw [List.mem_singleton.mp member]
  exact kind

theorem flashWriteWithCheck_emits {ok : Step → Prop} (kind : ok (d.step env (.program addr buf)))
    : Prog.Emits ok env (flashWriteWithCheck addr buf) d := by
  intro s member
  rcases List.mem_cons.mp member with same | later
  · rw [same]
    exact kind
  · dsimp only at later
    split at later <;> cases later

theorem flashWrite_meets (start : I d.mem) (kept : I (d.mem.program addr buf))
    : Prog.Meets critical env I (flashWrite addr buf) d
        (fun _ d' => d' = d.issue env (.program addr buf)
          ∧ (d'.mem = d.mem.program addr buf ∨ env.accepts d = false ∧ d'.mem = d.mem)) :=
  Prog.Meets.command start kept

/-- A write that keeps the invariant where it is done keeps it also where it is lost. -/
theorem flashWrite_keeps (start : I d.mem) (kept : I (d.mem.program addr buf))
    : Prog.Meets critical env I (flashWrite addr buf) d
        (fun _ d' => d' = d.issue env (.program addr buf) ∧ I d'.mem) := by
  apply (flashWrite_meets start kept).mono (fun _ same => same)
  rintro _ d' ⟨same, reached | ⟨_, lost⟩⟩
  · exact ⟨same, reached ▸ kept⟩
  · exact ⟨same, lost ▸ start⟩

theorem flashWrite_essential (isCritical : critical (.program addr buf)) (start : I d.mem)
    (kept : I (d.mem.program addr buf))
    : Prog.Meets critical env I (flashWrite addr buf) d
        (fun _ d' => d' = d.issue env (.program addr buf) ∧ d'.mem = d.mem.program addr buf) :=
  Prog.Meets.essential isCritical start kept

theorem flashErase_essential (isCritical : critical (.erase flashSectorSize addr))
    (start : I d.mem) (kept : I (d.mem.erase flashSectorSize addr))
    : Prog.Meets critical env I (flashErase addr) d
        (fun _ d' => d' = d.issue env (.erase flashSectorSize addr)
          ∧ d'.mem = d.mem.erase flashSectorSize addr) :=
  Prog.Meets.essential isCritical start kept

end Triples

/-- The 48-byte rounds compare the whole range, by induction on the bytes left. -/
theorem flashWriteWithCheck.matches_iff (m : Mem) (fuel addr : Nat) (buf : List UInt8)
    (enough : buf.length ≤ fuel)
    : flashWriteWithCheck.matches m fuel addr buf = true
      ↔ m.read addr buf.length = buf := by
  induction fuel generalizing addr buf with
  | zero =>
      have empty : buf = [] := List.length_eq_zero_iff.mp (by omega)
      simp [flashWriteWithCheck.matches, empty]
  | succ fuel ih =>
      unfold flashWriteWithCheck.matches
      by_cases empty : buf.length = 0
      · have nil : buf = [] := List.length_eq_zero_iff.mp empty
        simp [nil]
      · have width : (if buf.length > 48 then 48 else buf.length) ≤ buf.length := by
          split <;> omega
        have positive : 0 < (if buf.length > 48 then 48 else buf.length) := by
          split <;> omega
        generalize (if buf.length > 48 then 48 else buf.length) = wLen at width positive
        have split : m.read addr buf.length
            = m.read addr wLen ++ m.read (addr + wLen) (buf.length - wLen) := by
          rw [← Mem.read_add, Nat.add_sub_cancel' width]
        have rest := ih (addr + wLen) (buf.drop wLen) (by simp; omega)
        rw [List.length_drop] at rest
        simp only [empty, if_false]
        rw [split]
        conv_rhs => rhs; rw [← List.take_append_drop wLen buf]
        constructor
        · intro accepted
          split at accepted
          · rename_i first
            rw [first, rest.mp accepted]
          · contradiction
        · intro same
          have parts := List.append_inj same (by simp [width])
          rw [if_pos parts.1]
          exact rest.mpr parts.2

/-- A checked write succeeds exactly if it is sent and its bytes are in place. -/
theorem flashWriteWithCheck_iff (env : Env) (addr : Nat) (buf : List UInt8) (d : Dev)
    : (Prog.run env (flashWriteWithCheck addr buf) d).1 = true
      ↔ env.lowVoltage d.issued = false
        ∧ (d.issue env (.program addr buf)).mem.read addr buf.length = buf := by
  simp only [flashWriteWithCheck, Prog.run]
  cases low : env.lowVoltage d.issued with
  | true => simp [Prog.run]
  | false =>
      simp only [Bool.not_false, if_true, Prog.run, true_and]
      exact flashWriteWithCheck.matches_iff _ _ _ _ (Nat.le_refl _)

/-- A checked write changes nothing else, and it succeeds only if its bytes are in place. -/
theorem run_flashWriteWithCheck (env : Env) (addr : Nat) (buf : List UInt8) (d : Dev)
    : (Prog.run env (flashWriteWithCheck addr buf) d).2 = d.issue env (.program addr buf)
      ∧ ((Prog.run env (flashWriteWithCheck addr buf) d).1 = true
        → (d.issue env (.program addr buf)).mem.read addr buf.length = buf) := by
  refine ⟨?_, fun succeeded => ((flashWriteWithCheck_iff env addr buf d).mp succeeded).2⟩
  simp only [flashWriteWithCheck, Prog.run]
  split <;> rfl

/-- A checked write to blank flash succeeds where commands take effect. -/
theorem flashWriteWithCheck_blank {env : Env} {addr : Nat} {buf : List UInt8} {d : Dev}
    (steady : env.Steady) (blank : d.mem.BlankOn addr (addr + buf.length))
    : Prog.run env (flashWriteWithCheck addr buf) d = (true, d.issue env (.program addr buf)) := by
  have sent : (!env.lowVoltage d.issued) = true := by simp [steady.supplied]
  have stored : flashWriteWithCheck.matches (d.issue env (.program addr buf)).mem buf.length addr buf
      = true := by
    apply (flashWriteWithCheck.matches_iff _ _ _ _ (Nat.le_refl _)).mpr
    rw [steady.issue_mem]
    exact Mem.program_read_blank blank
  simp only [flashWriteWithCheck, Prog.run, sent, if_true, stored]

end TelinkSdk
