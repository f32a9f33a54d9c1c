import TelinkSdk.Nor.Program

/-! Triples for chip programs with an invariant that holds wherever power is cut.
Some commands are critical: a program can only be trusted as long as none of them is lost
while later commands still reach the chip. A triple assumes that and nothing else about
the faults of a run.
-/

namespace Nor

-----------------------------------------------------------------------------------------
-- Orderly faults
-----------------------------------------------------------------------------------------

/-- Once a critical command is lost, every later command is lost. -/
def Orderly (critical : Cmd → Prop) : List Step → Prop
  | [] => True
  | s :: rest =>
      (critical s.cmd → s.done = false → ∀ later ∈ rest, later.done = false)
        ∧ Orderly critical rest

/-- A critical command of the list was lost. -/
def Broken (critical : Cmd → Prop) (steps : List Step) : Prop :=
  ∃ s ∈ steps, critical s.cmd ∧ s.done = false

theorem Orderly.append {critical : Cmd → Prop} {first second : List Step}
    (orderly : Orderly critical (first ++ second))
    : Orderly critical first ∧ Orderly critical second
      ∧ (Broken critical first → ∀ later ∈ second, later.done = false) := by
  induction first with
  | nil =>
      refine ⟨trivial, orderly, ?_⟩
      rintro ⟨s, member, _⟩
      simp at member
  | cons s rest ih =>
      obtain ⟨head, tail⟩ := orderly
      obtain ⟨firstOrderly, secondOrderly, rest_broken⟩ := ih tail
      refine ⟨⟨?_, firstOrderly⟩, secondOrderly, ?_⟩
      · intro isCritical lost later member
        exact head isCritical lost later (List.mem_append_left second member)
      · rintro ⟨t, member, isCritical, lost⟩ later memberLater
        rcases List.mem_cons.mp member with same | inRest
        · subst t
          exact head isCritical lost later (List.mem_append_right rest memberLater)
        · exact rest_broken ⟨t, inRest, isCritical, lost⟩ later memberLater

theorem Orderly.of_done {critical : Cmd → Prop} {steps : List Step}
    (done : ∀ s ∈ steps, s.done = true)
    : Orderly critical steps ∧ ¬Broken critical steps := by
  refine ⟨?_, ?_⟩
  · induction steps with
    | nil => exact trivial
    | cons s rest ih =>
        refine ⟨?_, ih (fun t member => done t (List.mem_cons_of_mem s member))⟩
        intro _ lost
        rw [done s List.mem_cons_self] at lost
        contradiction
  · rintro ⟨s, member, _, lost⟩
    rw [done s member] at lost
    contradiction

/-- The environment loses no command. -/
structure Env.Steady (env : Env) : Prop where
  supplied : ∀ n, env.lowVoltage n = false
  unguarded : env.lockGuards = false

theorem Env.Steady.accepts {env : Env} (steady : env.Steady) (d : Dev) : env.accepts d = true := by
  simp [Env.accepts, steady.supplied, steady.unguarded]

theorem Env.Steady.issue_mem {env : Env} (steady : env.Steady) (d : Dev) (cmd : Cmd)
    : (d.issue env cmd).mem = cmd.apply d.mem := by
  simp [Dev.issue, Step.apply, Dev.step, steady.accepts]

/-- Every step of a steady run reaches the chip, by induction on the program. -/
theorem Prog.trace_done {α : Type} {env : Env} (steady : env.Steady) (p : Prog α) (d : Dev)
    : ∀ s ∈ p.trace env d, s.done = true := by
  induction p generalizing d with
  | done value => simp [Prog.trace]
  | look next ih => exact ih d.mem d
  | issue cmd next ih =>
      intro s member
      rcases List.mem_cons.mp member with same | later
      · rw [same]
        exact steady.accepts d
      · exact ih _ _ s later
  | lockState next ih => exact ih d.locked d
  | setLock value next ih => exact ih _
  | alloc next ih => exact ih _ _

/-- With a good supply only the lock stops a command, by induction on the program. -/
theorem Prog.trace_open {α : Type} {env : Env} (supplied : ∀ n, env.lowVoltage n = false)
    (p : Prog α) (d : Dev)
    : ∀ s ∈ p.trace env d, s.locked = false → s.done = true := by
  induction p generalizing d with
  | done value => simp [Prog.trace]
  | look next ih => exact ih d.mem d
  | issue cmd next ih =>
      intro s member opened
      rcases List.mem_cons.mp member with same | later
      · subst same
        simp only [Dev.step] at opened
        simp [Dev.step, Env.accepts, supplied, opened]
      · exact ih _ _ s later opened
  | lockState next ih => exact ih d.locked d
  | setLock value next ih => exact ih _
  | alloc next ih => exact ih _ _

-----------------------------------------------------------------------------------------
-- Silent starts
-----------------------------------------------------------------------------------------

namespace Prog

variable {α β : Type} {env : Env}

/-- From `d` on `p` issues nothing until it goes on as `q` from `d'`. -/
structure Continues (env : Env) (p : Prog α) (d : Dev) (q : Prog α) (d' : Dev) : Prop where
  run : p.run env d = q.run env d'
  trace : p.trace env d = q.trace env d'
  mem : d'.mem = d.mem

theorem Continues.refl (p : Prog α) (d : Dev) : Continues env p d p d := ⟨rfl, rfl, rfl⟩

theorem Continues.trans {p q r : Prog α} {d d' d'' : Dev} (first : Continues env p d q d')
    (second : Continues env q d' r d'')
    : Continues env p d r d'' :=
  ⟨first.run.trans second.run, first.trace.trans second.trace, second.mem.trans first.mem⟩

/-- A part that issues nothing can be run in front. -/
theorem Continues.skip {p : Prog α} {f : α → Prog β} {d : Dev} (quiet : p.trace env d = [])
    : Continues env (p >>= f) d (f (p.run env d).1) (p.run env d).2 where
  run := run_bind env p f d
  trace := by rw [trace_bind, quiet, List.nil_append]
  mem := by rw [run_mem, quiet, replay_nil]

end Prog

-----------------------------------------------------------------------------------------
-- Kinds of commands
-----------------------------------------------------------------------------------------

/-- The command addresses only bytes of `[lo, hi)`. -/
def Cmd.Within (lo hi : Nat) (c : Cmd) : Prop := ∀ x, c.Touches x → lo ≤ x ∧ x < hi

theorem Cmd.within_program {lo hi addr : Nat} {bytes : List UInt8} (low : lo ≤ addr)
    (high : addr + bytes.length ≤ hi)
    : (Cmd.program addr bytes).Within lo hi := by
  rintro x ⟨first, last⟩
  omega

theorem Cmd.within_erase {lo hi sectorSize addr : Nat} (positive : 0 < sectorSize)
    (aligned : addr % sectorSize = 0) (low : lo ≤ addr) (high : addr + sectorSize ≤ hi)
    : (Cmd.erase sectorSize addr).Within lo hi := by
  intro x touched
  obtain ⟨first, last⟩ := (sector_iff positive aligned).mp touched
  omega

namespace Prog

variable {α β : Type} {env : Env} {ok : Step → Prop}

/-- Every step of the run is of the kind `ok`. -/
def Emits (ok : Step → Prop) (env : Env) (p : Prog α) (d : Dev) : Prop :=
  ∀ s ∈ p.trace env d, ok s

theorem Emits.silent {p : Prog α} {d : Dev} (quiet : p.trace env d = []) : Emits ok env p d := by
  intro s member
  rw [quiet] at member
  contradiction

theorem Emits.bind {p : Prog α} {f : α → Prog β} {d : Dev} (first : Emits ok env p d)
    (second : Emits ok env (f (p.run env d).1) (p.run env d).2)
    : Emits ok env (p >>= f) d := by
  intro s member
  rw [trace_bind] at member
  rcases List.mem_append.mp member with early | late
  · exact first s early
  · exact second s late

/-- The steps of a sequence are those of its parts. -/
theorem emits_bind {p : Prog α} {f : α → Prog β} {d : Dev}
    : Emits ok env (p >>= f) d
      ↔ Emits ok env p d ∧ Emits ok env (f (p.run env d).1) (p.run env d).2 := by
  refine ⟨fun emits => ⟨fun s member => emits s ?_, fun s member => emits s ?_⟩,
    fun parts => parts.1.bind parts.2⟩
  · rw [trace_bind]
    exact List.mem_append_left _ member
  · rw [trace_bind]
    exact List.mem_append_right _ member

theorem Continues.emits_iff {p q : Prog α} {d d' : Dev} (continues : Continues env p d q d')
    : Emits ok env p d ↔ Emits ok env q d' := by
  rw [Emits, Emits, continues.trace]

/-- A part that issues nothing can be run in front. -/
theorem Emits.skip {p : Prog α} {f : α → Prog β} {d : Dev} (quiet : p.trace env d = [])
    (rest : Emits ok env (f (p.run env d).1) (p.run env d).2)
    : Emits ok env (p >>= f) d :=
  (Continues.skip quiet).emits_iff.mpr rest

theorem Emits.mono {ok' : Step → Prop} {p : Prog α} {d : Dev} (emits : Emits ok env p d)
    (weaker : ∀ s, ok s → ok' s)
    : Emits ok' env p d :=
  fun s member => weaker s (emits s member)

end Prog

-----------------------------------------------------------------------------------------
-- Triples
-----------------------------------------------------------------------------------------

namespace Prog

variable {α β : Type} {critical : Cmd → Prop} {env : Env} {I J : Mem → Prop}

/-- Under orderly faults the run keeps `I` at every cut, and it ends with `Q` unless a
critical command was lost.
-/
def Meets (critical : Cmd → Prop) (env : Env) (I : Mem → Prop) (p : Prog α) (d : Dev)
    (Q : α → Dev → Prop) : Prop :=
  Orderly critical (p.trace env d)
    → AtEveryCut I d.mem (p.trace env d)
      ∧ (Q (p.run env d).1 (p.run env d).2 ∨ Broken critical (p.trace env d))

/-- A program that issues nothing only has to end right. -/
theorem Meets.silent {p : Prog α} {d : Dev} {Q : α → Dev → Prop} (start : I d.mem)
    (quiet : p.trace env d = []) (result : Q (p.run env d).1 (p.run env d).2)
    : Meets critical env I p d Q := by
  intro _
  rw [quiet]
  exact ⟨.nil start, Or.inl result⟩

theorem Meets.mono {p : Prog α} {d : Dev} {Q R : α → Dev → Prop}
    (meets : Meets critical env I p d Q) (weaker : ∀ m, I m → J m)
    (implied : ∀ value d', Q value d' → R value d')
    : Meets critical env J p d R := by
  intro orderly
  obtain ⟨cuts, result⟩ := meets orderly
  exact ⟨cuts.mono weaker, result.imp_left (implied _ _)⟩

/-- The sequencing rule. After a lost critical command the second part changes nothing, so
only the start of that part matters.
-/
theorem Meets.bind {p : Prog α} {f : α → Prog β} {d : Dev} {Q : α → Dev → Prop}
    {R : β → Dev → Prop} (first : Meets critical env I p d Q)
    (second : ∀ value d', Q value d' → Meets critical env I (f value) d' R)
    : Meets critical env I (p >>= f) d R := by
  intro orderly
  rw [trace_bind] at orderly ⊢
  obtain ⟨firstOrderly, secondOrderly, frozen⟩ := orderly.append
  obtain ⟨cuts, result⟩ := first firstOrderly
  have finish := cuts.finish
  have memory := run_mem env p d
  by_cases broken : Broken critical (p.trace env d)
  · refine ⟨cuts.append (.lost finish (frozen broken)), Or.inr ?_⟩
    obtain ⟨s, member, lost⟩ := broken
    exact ⟨s, List.mem_append_left _ member, lost⟩
  · have post := result.resolve_right broken
    obtain ⟨laterCuts, laterResult⟩ := second _ _ post secondOrderly
    rw [memory] at laterCuts
    refine ⟨cuts.append laterCuts, ?_⟩
    rw [run_bind]
    rcases laterResult with good | ⟨s, member, lost⟩
    · exact Or.inl good
    · exact Or.inr ⟨s, List.mem_append_right _ member, lost⟩

theorem Continues.meets {p q : Prog α} {d d' : Dev} {Q : α → Dev → Prop}
    (continues : Continues env p d q d') (rest : Meets critical env I q d' Q)
    : Meets critical env I p d Q := by
  rw [Meets, continues.trace, continues.run, ← continues.mem]
  exact rest

/-- A part that issues nothing can be run in front. -/
theorem Meets.skip {p : Prog α} {f : α → Prog β} {d : Dev} {R : β → Dev → Prop}
    (quiet : p.trace env d = [])
    (rest : Meets critical env I (f (p.run env d).1) (p.run env d).2 R)
    : Meets critical env I (p >>= f) d R :=
  (Continues.skip quiet).meets rest

theorem Meets.read {f : Mem → α} {g : α → Prog β} {d : Dev} {R : β → Dev → Prop}
    (rest : Meets critical env I (g (f d.mem)) d R)
    : Meets critical env I (view f >>= g) d R :=
  .skip rfl rest

/-- Facts about the outcome of this very run may be added. -/
theorem Meets.outcome {p : Prog α} {d : Dev} {Q R : α → Dev → Prop}
    (meets : Meets critical env I p d Q) (fact : R (p.run env d).1 (p.run env d).2)
    : Meets critical env I p d (fun value d' => Q value d' ∧ R value d') := by
  intro orderly
  obtain ⟨cuts, result⟩ := meets orderly
  exact ⟨cuts, result.imp_left (fun post => ⟨post, fact⟩)⟩

/-- A single command. It either reaches the array, or it is lost; a lost critical command
needs no postcondition.
-/
theorem Meets.issue {cmd : Cmd} {next : Bool → Prog α} {d : Dev} {Q : α → Dev → Prop}
    (start : I d.mem)
    (reached : env.accepts d = true
      → Meets critical env I (next (!env.lowVoltage d.issued)) (d.issue env cmd) Q)
    (lost : env.accepts d = false → ¬critical cmd
      → Meets critical env I (next (!env.lowVoltage d.issued)) (d.issue env cmd) Q)
    : Meets critical env I (.issue cmd next) d Q := by
  intro orderly
  obtain ⟨frozen, later⟩ := orderly
  have memory : (d.issue env cmd).mem = (d.step env cmd).apply d.mem := rfl
  by_cases accepted : env.accepts d = true
  · obtain ⟨cuts, result⟩ := reached accepted later
    rw [memory] at cuts
    refine ⟨.cons start cuts, result.imp_right ?_⟩
    rintro ⟨s, member, gone⟩
    exact ⟨s, List.mem_cons_of_mem _ member, gone⟩
  · have refused : env.accepts d = false := by simpa using accepted
    have unchanged : (d.step env cmd).apply d.mem = d.mem := by
      simp [Step.apply, Dev.step, refused]
    by_cases isCritical : critical cmd
    · refine ⟨.cons start ?_, Or.inr ⟨_, List.mem_cons_self, isCritical, refused⟩⟩
      rw [unchanged]
      exact .lost start (frozen isCritical refused)
    · obtain ⟨cuts, result⟩ := lost refused isCritical later
      rw [memory] at cuts
      refine ⟨.cons start cuts, result.imp_right ?_⟩
      rintro ⟨s, member, gone⟩
      exact ⟨s, List.mem_cons_of_mem _ member, gone⟩

/-- A critical command is taken to reach the array. -/
theorem Meets.essential {cmd : Cmd} {d : Dev} (isCritical : critical cmd) (start : I d.mem)
    (kept : I (cmd.apply d.mem))
    : Meets critical env I (.issue cmd fun _ => .done ()) d
        (fun _ d' => d' = d.issue env cmd ∧ d'.mem = cmd.apply d.mem) := by
  apply Meets.issue start
  · intro accepted
    have memory : (d.issue env cmd).mem = cmd.apply d.mem := by
      simp [Dev.issue, Step.apply, Dev.step, accepted]
    exact .silent (by rwa [memory]) rfl ⟨rfl, memory⟩
  · intro _ notCritical
    exact absurd isCritical notCritical

/-- Any other command may be lost. -/
theorem Meets.command {cmd : Cmd} {d : Dev} (start : I d.mem) (kept : I (cmd.apply d.mem))
    : Meets critical env I (.issue cmd fun _ => .done ()) d
        (fun _ d' => d' = d.issue env cmd
          ∧ (d'.mem = cmd.apply d.mem ∨ env.accepts d = false ∧ d'.mem = d.mem)) := by
  apply Meets.issue start
  · intro accepted
    have memory : (d.issue env cmd).mem = cmd.apply d.mem := by
      simp [Dev.issue, Step.apply, Dev.step, accepted]
    exact .silent (by rwa [memory]) rfl ⟨rfl, Or.inl memory⟩
  · intro refused _
    have memory : (d.issue env cmd).mem = d.mem := by
      simp [Dev.issue, Step.apply, Dev.step, refused]
    exact .silent (by rwa [memory]) rfl ⟨rfl, Or.inr ⟨refused, memory⟩⟩

/-- Steady runs lose nothing, so a triple holds of them outright. -/
theorem Meets.steady {p : Prog α} {d : Dev} {Q : α → Dev → Prop}
    (meets : Meets critical env I p d Q) (steady : env.Steady)
    : AtEveryCut I d.mem (p.trace env d) ∧ Q (p.run env d).1 (p.run env d).2 := by
  obtain ⟨orderly, whole⟩ := @Orderly.of_done critical _ (trace_done steady p d)
  obtain ⟨cuts, result⟩ := meets orderly
  exact ⟨cuts, result.resolve_right whole⟩

/-- With a good supply, a run that only issues commands while the lock is open loses none of
them, so a triple holds of it outright.
-/
theorem Meets.opened {p : Prog α} {d : Dev} {Q : α → Dev → Prop}
    (meets : Meets critical env I p d Q) (supplied : ∀ n, env.lowVoltage n = false)
    (opened : Emits (fun s => s.locked = false) env p d)
    : AtEveryCut I d.mem (p.trace env d) ∧ Q (p.run env d).1 (p.run env d).2 := by
  have done (s : Step) (member : s ∈ p.trace env d) : s.done = true :=
    trace_open supplied p d s member (opened s member)
  obtain ⟨orderly, whole⟩ := @Orderly.of_done critical _ done
  obtain ⟨cuts, result⟩ := meets orderly
  exact ⟨cuts, result.resolve_right whole⟩

end Prog

end Nor
