import TelinkSdk.Nor.Triple

/-! Skipped commands that do no harm. A program that does not ask whether its commands were sent
runs as with a good supply as long as every skipped command would have changed nothing.
-/

namespace Nor

variable {α β : Type}

/-- The program does not look at whether a command was sent. -/
def Prog.Blind : Prog α → Prop
  | .done _ => True
  | .look next => ∀ m, (next m).Blind
  | .issue _ next => next true = next false ∧ (next true).Blind
  | .lockState next => ∀ locked, (next locked).Blind
  | .setLock _ next => next.Blind
  | .alloc next => ∀ granted, (next granted).Blind

theorem Prog.Blind.pure (value : α) : (Pure.pure value : Prog α).Blind := trivial

theorem Prog.Blind.view (f : Mem → α) : (Prog.view f).Blind := fun _ => trivial

/-- Sequencing keeps a program blind, by induction on the first part. -/
theorem Prog.Blind.bind {p : Prog α} {f : α → Prog β} (first : p.Blind)
    (second : ∀ value, (f value).Blind)
    : (p >>= f).Blind := by
  change (p.bind f).Blind
  induction p with
  | done value => exact second value
  | look next ih => exact fun m => ih m (first m)
  | issue cmd next ih =>
      obtain ⟨same, rest⟩ := first
      refine ⟨?_, ih true rest⟩
      change (next true).bind f = (next false).bind f
      rw [same]
  | lockState next ih => exact fun locked => ih locked (first locked)
  | setLock value next ih => exact ih first
  | alloc next ih => exact fun granted => ih granted (first granted)

/-- The same world with a good supply. -/
def Env.supplied (env : Env) : Env := { env with lowVoltage := fun _ => false }

/-- Among the commands, the first of which has number `n`, those that the supply skips would
leave the array alone where they are due.
-/
def VoidSkips (low : Nat → Bool) : Nat → Mem → List Step → Prop
  | _, _, [] => True
  | n, m, s :: rest => (low n = true → s.apply m = m) ∧ VoidSkips low (n + 1) (s.apply m) rest

/-- The skips are void one by one. -/
theorem voidSkips_iff {low : Nat → Bool} {n : Nat} {m : Mem} {steps : List Step}
    : VoidSkips low n m steps
      ↔ ∀ i s, steps[i]? = some s → low (n + i) = true
        → s.apply (replay m (steps.take i)) = replay m (steps.take i) := by
  induction steps generalizing n m with
  | nil => simp [VoidSkips]
  | cons s rest ih =>
      rw [VoidSkips, ih]
      constructor
      · rintro ⟨head, tail⟩ i t found skipped
        cases i with
        | zero =>
            obtain rfl : s = t := by simpa using found
            exact head skipped
        | succ i =>
            rw [List.take_succ_cons, replay_cons]
            exact tail i t (by simpa using found) (by rwa [Nat.add_assoc, Nat.add_comm 1])
      · intro each
        refine ⟨fun skipped => each 0 s rfl skipped, ?_⟩
        intro i t found skipped
        have later := each (i + 1) t (by simpa using found)
          (by rwa [Nat.add_assoc, Nat.add_comm 1] at skipped)
        rwa [List.take_succ_cons, replay_cons] at later

/-- Void skips leave no trace in a run, by induction on the program. -/
theorem Prog.run_voidSkips {env : Env} {p : Prog α} (blind : p.Blind) {d : Dev}
    (voids : VoidSkips env.lowVoltage d.issued d.mem (p.trace env.supplied d))
    : p.run env d = p.run env.supplied d := by
  induction p generalizing d with
  | done value => rfl
  | look next ih => exact ih d.mem (blind d.mem) voids
  | issue cmd next ih =>
      obtain ⟨same, rest⟩ := blind
      obtain ⟨head, tail⟩ := voids
      have issued : d.issue env cmd = d.issue env.supplied cmd := by
        cases low : env.lowVoltage d.issued with
        | true =>
            have lost : (d.step env cmd).apply d.mem = d.mem := by
              simp [Step.apply, Dev.step, Env.accepts, low]
            simp only [Dev.issue, lost, head low]
        | false => simp [Dev.issue, Step.apply, Dev.step, Env.accepts, Env.supplied, low]
      have continues : next (!env.lowVoltage d.issued) = next true := by
        cases env.lowVoltage d.issued with
        | true => exact same.symm
        | false => rfl
      change (next (!env.lowVoltage d.issued)).run env (d.issue env cmd)
        = (next true).run env.supplied (d.issue env.supplied cmd)
      rw [continues, issued]
      exact ih true rest tail
  | lockState next ih => exact ih d.locked (blind d.locked) voids
  | setLock value next ih => exact ih blind voids
  | alloc next ih => exact ih _ (blind _) voids

/-- Programming blank bytes changes nothing. -/
theorem Mem.program_blankBytes {m : Mem} {addr : Nat} {bytes : List UInt8}
    (blank : ∀ value ∈ bytes, value = blankByte)
    : m.program addr bytes = m := by
  funext x
  unfold Mem.program
  split
  case isTrue inside =>
      have at_ : x - addr < bytes.length := by omega
      rw [List.getD_eq_getElem?_getD, List.getElem?_eq_getElem at_, Option.getD_some,
        blank _ (List.getElem_mem at_), and_blankByte]
  case isFalse => rfl

end Nor
