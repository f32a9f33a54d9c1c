import TelinkSdk.Nor.Memory

/-! Programs that drive a NOR chip, and what they do under faults.
A program is a tree of chip accesses. Running it needs an environment that decides when
the supply is too low for a command, when an allocation fails and whether a locked chip
ignores commands. The trace of a run lists its commands in order, so a power cut is a
prefix of the trace.
-/

namespace Nor

-----------------------------------------------------------------------------------------
-- Commands
-----------------------------------------------------------------------------------------

/-- A command that changes the array: a byte program or the erase of the sector of
`sectorSize` bytes around an address.
-/
inductive Cmd where
  | program (addr : Nat) (bytes : List UInt8)
  | erase (sectorSize addr : Nat)
  deriving DecidableEq, Repr

/-- The array after an accepted command. -/
def Cmd.apply : Cmd → Mem → Mem
  | .program addr bytes, m => m.program addr bytes
  | .erase sectorSize addr, m => m.erase sectorSize addr

/-- The command addresses byte `x`. -/
def Cmd.Touches : Cmd → Nat → Prop
  | .program addr bytes, x => addr ≤ x ∧ x < addr + bytes.length
  | .erase sectorSize addr, x => x / sectorSize = addr / sectorSize

/-- A command leaves every byte alone that it does not address. -/
theorem Cmd.apply_untouched {c : Cmd} {m : Mem} {x : Nat} (untouched : ¬c.Touches x)
    : c.apply m x = m x := by
  cases c with
  | program addr bytes =>
      have outside : x < addr ∨ addr + bytes.length ≤ x := by
        simp only [Cmd.Touches] at untouched
        omega
      exact Mem.program_outside outside
  | erase sectorSize addr => exact if_neg untouched

/-- One issued command: whether the lock flag was set when it was issued, and whether it
reached the array.
-/
structure Step where
  cmd : Cmd
  locked : Bool
  done : Bool
  deriving DecidableEq, Repr

/-- The array after a step; a lost command changes nothing. -/
def Step.apply (s : Step) (m : Mem) : Mem := if s.done then s.cmd.apply m else m

/-- The array after a list of steps. -/
def replay (m : Mem) (steps : List Step) : Mem := steps.foldl (fun m s => s.apply m) m

@[simp]
theorem replay_nil (m : Mem) : replay m [] = m := rfl

@[simp]
theorem replay_cons (m : Mem) (s : Step) (rest : List Step)
    : replay m (s :: rest) = replay (s.apply m) rest := rfl

@[simp]
theorem replay_append (m : Mem) (first second : List Step)
    : replay m (first ++ second) = replay (replay m first) second :=
  List.foldl_append

/-- Steps leave every byte alone that no accepted command addresses. -/
theorem replay_untouched {m : Mem} {steps : List Step} {x : Nat}
    (untouched : ∀ s ∈ steps, s.done = true → ¬s.cmd.Touches x)
    : replay m steps x = m x := by
  induction steps generalizing m with
  | nil => rfl
  | cons s rest ih =>
      rw [replay_cons, ih (fun later member => untouched later (List.mem_cons_of_mem s member))]
      unfold Step.apply
      split
      · exact Cmd.apply_untouched (untouched s List.mem_cons_self ‹_›)
      · rfl

/-- Lost commands change nothing. -/
theorem replay_lost {m : Mem} {steps : List Step} (lost : ∀ s ∈ steps, s.done = false)
    : replay m steps = m := by
  induction steps generalizing m with
  | nil => rfl
  | cons s rest ih =>
      have first : s.apply m = m := by simp [Step.apply, lost s List.mem_cons_self]
      rw [replay_cons, first]
      exact ih (fun later member => lost later (List.mem_cons_of_mem s member))

-----------------------------------------------------------------------------------------
-- Cutting a list of steps anywhere
-----------------------------------------------------------------------------------------

/-- `P` holds of the array after every prefix of the steps, the empty and the full one
included: it holds wherever power is cut.
-/
def AtEveryCut (P : Mem → Prop) (m : Mem) (steps : List Step) : Prop :=
  ∀ count, P (replay m (steps.take count))

theorem AtEveryCut.nil {P : Mem → Prop} {m : Mem} (start : P m) : AtEveryCut P m [] := by
  intro count
  simpa using start

theorem AtEveryCut.cons {P : Mem → Prop} {m : Mem} {s : Step} {rest : List Step}
    (start : P m) (later : AtEveryCut P (s.apply m) rest)
    : AtEveryCut P m (s :: rest) := by
  intro count
  cases count with
  | zero => exact start
  | succ count => exact later count

/-- Cuts of a concatenation fall into the first or the second part. -/
theorem AtEveryCut.append {P : Mem → Prop} {m : Mem} {first second : List Step}
    (early : AtEveryCut P m first) (late : AtEveryCut P (replay m first) second)
    : AtEveryCut P m (first ++ second) := by
  intro count
  rw [List.take_append, replay_append]
  by_cases short : count ≤ first.length
  · rw [Nat.sub_eq_zero_of_le short]
    exact early count
  · rw [List.take_of_length_le (by omega)]
    exact late (count - first.length)

/-- What holds at every cut holds at the end. -/
theorem AtEveryCut.finish {P : Mem → Prop} {m : Mem} {steps : List Step}
    (cuts : AtEveryCut P m steps)
    : P (replay m steps) := by
  simpa using cuts steps.length

theorem AtEveryCut.mono {P Q : Mem → Prop} {m : Mem} {steps : List Step}
    (cuts : AtEveryCut P m steps) (weaker : ∀ m', P m' → Q m')
    : AtEveryCut Q m steps :=
  fun count => weaker _ (cuts count)

/-- Lost steps cut nowhere else than at the start. -/
theorem AtEveryCut.lost {P : Mem → Prop} {m : Mem} {steps : List Step} (start : P m)
    (lost : ∀ s ∈ steps, s.done = false)
    : AtEveryCut P m steps := by
  intro count
  rw [replay_lost (fun s member => lost s (List.mem_of_mem_take member))]
  exact start

/-- A property that every accepted command of the list keeps holds at every cut. -/
theorem AtEveryCut.of_kept {P : Mem → Prop} {m : Mem} {steps : List Step} (start : P m)
    (kept : ∀ s ∈ steps, s.done = true → ∀ m', P m' → P (s.cmd.apply m'))
    : AtEveryCut P m steps := by
  induction steps generalizing m with
  | nil => exact .nil start
  | cons s rest ih =>
      have next : P (s.apply m) := by
        unfold Step.apply
        split
        · exact kept s List.mem_cons_self ‹_› m start
        · exact start
      exact .cons start
        (ih next (fun later member => kept later (List.mem_cons_of_mem s member)))

-----------------------------------------------------------------------------------------
-- Programs
-----------------------------------------------------------------------------------------

/-- The world around one run. Commands and allocations are numbered from the start of the
run: `lowVoltage n` makes the driver skip command `n`, `noBuffer n` refuses allocation `n`.
-/
structure Env where
  lowVoltage : Nat → Bool := fun _ => false
  noBuffer : Nat → Bool := fun _ => false
  /-- The lock and unlock commands of the chip are known and succeed. -/
  knownChip : Bool := true
  /-- The chip ignores program and erase commands while it is locked. -/
  lockGuards : Bool := false

/-- The chip and the driver's view of it, with the counters the environment is asked by. -/
structure Dev where
  mem : Mem
  locked : Bool
  issued : Nat := 0
  allocs : Nat := 0

/-- A command issued now reaches the array. -/
def Env.accepts (env : Env) (d : Dev) : Bool :=
  !env.lowVoltage d.issued && !(env.lockGuards && d.locked)

/-- The step that issuing `c` now makes. -/
def Dev.step (env : Env) (d : Dev) (c : Cmd) : Step :=
  { cmd := c, locked := d.locked, done := env.accepts d }

/-- The device after issuing `c`. -/
def Dev.issue (env : Env) (d : Dev) (c : Cmd) : Dev :=
  { d with mem := (d.step env c).apply d.mem, issued := d.issued + 1 }

/-- Issuing a command leaves every byte alone that it does not address. -/
theorem Dev.issue_untouched {env : Env} {d : Dev} {c : Cmd} {x : Nat} (untouched : ¬c.Touches x)
    : (d.issue env c).mem x = d.mem x := by
  unfold Dev.issue Step.apply Dev.step
  dsimp only
  split
  · exact Cmd.apply_untouched untouched
  · rfl

/-- A program that drives the chip. `issue` also tells the program whether the supply was
good enough for the command to be sent.
-/
inductive Prog (α : Type) : Type where
  | done (value : α)
  | look (next : Mem → Prog α)
  | issue (cmd : Cmd) (next : Bool → Prog α)
  | lockState (next : Bool → Prog α)
  | setLock (value : Bool) (next : Prog α)
  | alloc (next : Bool → Prog α)

namespace Prog

variable {α β : Type}

/-- Run `p`, then the program chosen by its result. -/
protected def bind : Prog α → (α → Prog β) → Prog β
  | .done value, f => f value
  | .look next, f => .look (fun m => (next m).bind f)
  | .issue cmd next, f => .issue cmd (fun sent => (next sent).bind f)
  | .lockState next, f => .lockState (fun locked => (next locked).bind f)
  | .setLock value next, f => .setLock value (next.bind f)
  | .alloc next, f => .alloc (fun granted => (next granted).bind f)

instance : Monad Prog where
  pure := .done
  bind := Prog.bind

/-- Read the array without changing it. -/
def view (f : Mem → α) : Prog α := .look (fun m => .done (f m))

/-- The result of a run and the device after it. -/
def run (env : Env) : Prog α → Dev → α × Dev
  | .done value, d => (value, d)
  | .look next, d => (next d.mem).run env d
  | .issue cmd next, d => (next (!env.lowVoltage d.issued)).run env (d.issue env cmd)
  | .lockState next, d => (next d.locked).run env d
  | .setLock value next, d =>
      next.run env { d with locked := if env.knownChip then value else d.locked }
  | .alloc next, d => (next (!env.noBuffer d.allocs)).run env { d with allocs := d.allocs + 1 }

/-- The steps of a run, in order. -/
def trace (env : Env) : Prog α → Dev → List Step
  | .done _, _ => []
  | .look next, d => (next d.mem).trace env d
  | .issue cmd next, d =>
      d.step env cmd :: (next (!env.lowVoltage d.issued)).trace env (d.issue env cmd)
  | .lockState next, d => (next d.locked).trace env d
  | .setLock value next, d =>
      next.trace env { d with locked := if env.knownChip then value else d.locked }
  | .alloc next, d =>
      (next (!env.noBuffer d.allocs)).trace env { d with allocs := d.allocs + 1 }

/-- The array left by a run whose power is cut after `count` steps. -/
def crash (env : Env) (p : Prog α) (d : Dev) (count : Nat) : Mem :=
  replay d.mem ((p.trace env d).take count)

-----------------------------------------------------------------------------------------
-- Running composed programs
-----------------------------------------------------------------------------------------

@[simp]
theorem run_pure (env : Env) (value : α) (d : Dev)
    : run env (pure value) d = (value, d) := rfl

@[simp]
theorem trace_pure (env : Env) (value : α) (d : Dev)
    : trace env (pure value) d = [] := rfl

/-- A sequence threads the device through both parts, by induction on the first. -/
@[simp]
theorem run_bind (env : Env) (p : Prog α) (f : α → Prog β) (d : Dev)
    : run env (p >>= f) d = run env (f (run env p d).1) (run env p d).2 := by
  change run env (p.bind f) d = _
  induction p generalizing d with
  | done value => rfl
  | look next ih => exact ih d.mem d
  | issue cmd next ih => exact ih _ (d.issue env cmd)
  | lockState next ih => exact ih d.locked d
  | setLock value next ih => exact ih _
  | alloc next ih => exact ih _ _

/-- A sequence traces the first part and then the second, by induction on the first. -/
@[simp]
theorem trace_bind (env : Env) (p : Prog α) (f : α → Prog β) (d : Dev)
    : trace env (p >>= f) d
      = trace env p d ++ trace env (f (run env p d).1) (run env p d).2 := by
  change trace env (p.bind f) d = _
  induction p generalizing d with
  | done value => rfl
  | look next ih => exact ih d.mem d
  | issue cmd next ih => exact congrArg (List.cons _) (ih _ (d.issue env cmd))
  | lockState next ih => exact ih d.locked d
  | setLock value next ih => exact ih _
  | alloc next ih => exact ih _ _

/-- Sequencing is associative, by induction on the first program. -/
theorem bind_assoc {γ : Type} (p : Prog α) (f : α → Prog β) (g : β → Prog γ)
    : (p >>= f) >>= g = p >>= fun value => f value >>= g := by
  change (p.bind f).bind g = p.bind (fun value => (f value).bind g)
  induction p with
  | done value => rfl
  | look next ih => simp only [Prog.bind, ih]
  | issue cmd next ih => simp only [Prog.bind, ih]
  | lockState next ih => simp only [Prog.bind, ih]
  | setLock value next ih => simp only [Prog.bind, ih]
  | alloc next ih => simp only [Prog.bind, ih]

@[simp]
theorem run_view (env : Env) (f : Mem → α) (d : Dev)
    : run env (view f) d = (f d.mem, d) := rfl

@[simp]
theorem trace_view (env : Env) (f : Mem → α) (d : Dev)
    : trace env (view f) d = [] := rfl

/-- The array after a run is the replay of its trace, by induction on the program. -/
theorem run_mem (env : Env) (p : Prog α) (d : Dev)
    : (run env p d).2.mem = replay d.mem (trace env p d) := by
  induction p generalizing d with
  | done value => rfl
  | look next ih => exact ih d.mem d
  | issue cmd next ih => exact ih _ (d.issue env cmd)
  | lockState next ih => exact ih d.locked d
  | setLock value next ih => exact ih _
  | alloc next ih => exact ih _ _

/-- Every step counts once towards the number of issued commands. -/
theorem run_issued (env : Env) (p : Prog α) (d : Dev)
    : (run env p d).2.issued = d.issued + (trace env p d).length := by
  induction p generalizing d with
  | done value => rfl
  | look next ih => exact ih d.mem d
  | issue cmd next ih =>
      have later := ih (!env.lowVoltage d.issued) (d.issue env cmd)
      have counted : (d.issue env cmd).issued = d.issued + 1 := rfl
      simp only [run, trace, List.length_cons, later, counted]
      omega
  | lockState next ih => exact ih d.locked d
  | setLock value next ih => exact ih _
  | alloc next ih => exact ih _ _

end Prog

end Nor
