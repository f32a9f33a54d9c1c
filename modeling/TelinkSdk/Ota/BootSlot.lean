import TelinkSdk.Ota.NewSlot

/-! The two boot slots under lost writes and power cuts. A session only touches the slot that
is not running; only the switch-over of `ota_mcuReboot` can leave both slots without keyword.
-/

namespace TelinkSdk

open Nor

-----------------------------------------------------------------------------------------
-- Bootable flash
-----------------------------------------------------------------------------------------

/-- A slot carries the keyword, and so does the slot that the boot selects. -/
def Bootable (k : OtaBuild) (m : Mem) : Prop :=
  (m (otaTlnkKeywordAddroffset k) = otaKeyword
    ∨ m (flashOtaNewimageAddr + otaTlnkKeywordAddroffset k) = otaKeyword)
  ∧ m ((if mcuBootAddrGet k m then flashOtaNewimageAddr else 0) + otaTlnkKeywordAddroffset k)
      = otaKeyword

instance (k : OtaBuild) (m : Mem) : Decidable (Bootable k m) :=
  inferInstanceAs (Decidable (_ ∧ _))

/-- The slot that the client takes for the running one carries the keyword. -/
def Anchored (k : OtaBuild) (s : OtaClient) (m : Mem) : Prop :=
  m (s.baseAddr + otaTlnkKeywordAddroffset k) = otaKeyword

section Slots

variable {k : OtaBuild} {s : OtaClient} {m : Mem}

theorem bootable_iff
    : Bootable k m ↔ m (otaTlnkKeywordAddroffset k) = otaKeyword
      ∨ m (flashOtaNewimageAddr + otaTlnkKeywordAddroffset k) = otaKeyword := by
  refine ⟨And.left, fun carried => ⟨carried, ?_⟩⟩
  by_cases first : m (otaTlnkKeywordAddroffset k) = otaKeyword
  · simp [mcuBootAddrGet, first]
  · simpa [mcuBootAddrGet, first] using carried.resolve_left first

theorem Anchored.bootable (anchored : Anchored k s m) : Bootable k m := by
  apply bootable_iff.mpr
  unfold Anchored OtaClient.baseAddr at anchored
  split at anchored
  · exact Or.inr anchored
  · exact Or.inl (by simpa using anchored)

/-- A client that has just looked at the flash takes the right slot for the running one. -/
theorem Bootable.anchored (bootable : Bootable k m) (boot : s.mcuBootAddr = mcuBootAddrGet k m)
    : Anchored k s m := by
  unfold Anchored OtaClient.baseAddr
  rw [boot]
  exact bootable.2

theorem Anchored.congr {s' : OtaClient} (anchored : Anchored k s m)
    (boot : s'.mcuBootAddr = s.mcuBootAddr)
    : Anchored k s' m := by
  unfold Anchored OtaClient.baseAddr at *
  rwa [boot]

end Slots

-----------------------------------------------------------------------------------------
-- Sessions keep the running slot
-----------------------------------------------------------------------------------------

/-- A run that leaves the keyword of the running slot alone, and the client it ends in. -/
structure Keeps (k : OtaBuild) (env : Env) (p : Prog OtaClient) (s : OtaClient) (d : Dev) : Prop where
  apart : Prog.Emits (fun step => ¬step.cmd.Touches (s.baseAddr + otaTlnkKeywordAddroffset k)) env p d
  boot : (p.run env d).1.mcuBootAddr = s.mcuBootAddr
    ∨ (p.run env d).1.mcuBootAddr = mcuBootAddrGet k (p.run env d).2.mem

section Keeps

variable {k : OtaBuild} {env : Env} {s : OtaClient} {d : Dev} {m : Mem}

theorem Keeps.cuts {p : Prog OtaClient} (keeps : Keeps k env p s d) (anchored : Anchored k s d.mem)
    : AtEveryCut (Anchored k s) d.mem (p.trace env d) := by
  apply AtEveryCut.of_kept anchored
  intro step member _ m' before
  exact (Cmd.apply_untouched (keeps.apart step member)).trans before

theorem Keeps.anchored {p : Prog OtaClient} (keeps : Keeps k env p s d)
    (anchored : Anchored k s d.mem)
    : Anchored k (p.run env d).1 (p.run env d).2.mem := by
  have finish : Anchored k s (p.run env d).2.mem := by
    rw [Prog.run_mem]
    exact (keeps.cuts anchored).finish
  rcases keeps.boot with same | looked
  · exact finish.congr same
  · exact finish.bootable.anchored looked

/-- Every event but the switch-over keeps the running slot. -/
theorem Session.keeps {w : OtaWorld} (session : Session k w.client w.mem) {e : OtaEvent}
    (stays : w.reboots e = false)
    : Keeps k env (e.handler k w.client) w.client w.dev := by
  obtain ⟨steps, boot⟩ := @Session.fills k env w session e stays
  exact ⟨steps.mono (fun step fills => fills.running), boot⟩

end Keeps

-----------------------------------------------------------------------------------------
-- The switch-over
-----------------------------------------------------------------------------------------

/-- The write that enables the new slot reaches the chip. -/
def OtaWorld.enables (w : OtaWorld) (env : Env) : Bool :=
  env.accepts (lockTo env false w.dev)

/-- The write that disables the running slot reaches the chip. -/
def OtaWorld.disables (w : OtaWorld) (env : Env) : Bool :=
  env.accepts { lockTo env false w.dev with issued := 1 }

/-- A switch-over that disables the running slot also leaves the keyword in the new one: the
enabling write is done on a byte that can still take the keyword, or the keyword was there.
-/
def SwitchSafe (k : OtaBuild) (w : OtaWorld) (env : Env) (e : OtaEvent) : Prop :=
  w.reboots e = true → w.disables env = true
    → if w.enables env
      then w.mem (w.client.newAddr + otaTlnkKeywordAddroffset k) &&& otaKeyword = otaKeyword
      else w.mem (w.client.newAddr + otaTlnkKeywordAddroffset k) = otaKeyword

section Switch

variable {k : OtaBuild} {env : Env} {w : OtaWorld} {e : OtaEvent}

theorem trace_reboot (k : OtaBuild) (env : Env) (w : OtaWorld) (state : OtaSta)
    : Prog.trace env (otaMcuReboot k { w.client with otaState := state }) w.dev
      = [
          {
            cmd := .program (w.client.newAddr + otaTlnkKeywordAddroffset k) [otaKeyword]
            locked := (lockTo env false w.dev).locked
            done := w.enables env
          },
          {
            cmd := .program (w.client.baseAddr + otaTlnkKeywordAddroffset k) [0]
            locked := (lockTo env false w.dev).locked
            done := w.disables env
          }
        ] := by
  unfold otaMcuReboot
  simp only [Prog.trace_bind, trace_flashUnlock, run_flashUnlock, trace_flashWrite, run_flashWrite,
    trace_flashLock, run_flashLock, Prog.trace_view, List.nil_append, List.append_nil]
  rfl

theorem bootable_slots (s : OtaClient) {m : Mem}
    : Bootable k m ↔ m (s.newAddr + otaTlnkKeywordAddroffset k) = otaKeyword
      ∨ m (s.baseAddr + otaTlnkKeywordAddroffset k) = otaKeyword := by
  rw [bootable_iff]
  rcases @slots_apart s with ⟨new, base⟩ | ⟨new, base⟩
  · rw [new, base, Nat.zero_add]
  · rw [new, base, Nat.zero_add, or_comm]

/-- The keyword of the new slot after the first write of the switch-over. -/
theorem enable_new {m : Mem} {addr : Nat} {step : Step}
    (cmd : step.cmd = .program addr [otaKeyword])
    : step.apply m addr = if step.done then m addr &&& otaKeyword else m addr := by
  unfold Step.apply
  split
  · rw [cmd, Cmd.apply, Mem.program_byte, if_pos rfl]
  · rfl

/-- A write of one byte leaves every other byte alone. -/
theorem byte_other {m : Mem} {addr x : Nat} {value : UInt8} {step : Step}
    (cmd : step.cmd = .program addr [value]) (other : x ≠ addr)
    : step.apply m x = m x := by
  unfold Step.apply
  split
  · rw [cmd, Cmd.apply, Mem.program_byte, if_neg other]
  · rfl

/-- The switch-over is safe at every cut exactly if it ends with a keyword. -/
theorem Anchored.reboot (anchored : Anchored k w.client w.mem) (reboots : w.reboots e = true)
    : AtEveryCut (Bootable k) w.mem (Prog.trace env (e.handler k w.client) w.dev)
      ↔ SwitchSafe k w env e := by
  have other : w.client.baseAddr + otaTlnkKeywordAddroffset k
      ≠ w.client.newAddr + otaTlnkKeywordAddroffset k := by
    have slots := @slots_apart w.client
    simp only [flashOtaNewimageAddr] at slots
    omega
  rw [reboots_handler reboots, trace_reboot]
  generalize firstEq : Step.mk (.program _ [otaKeyword]) _ _ = first
  generalize secondEq : Step.mk (.program _ [0]) _ _ = second
  have firstCmd : first.cmd
      = .program (w.client.newAddr + otaTlnkKeywordAddroffset k) [otaKeyword] := by rw [← firstEq]
  have secondCmd : second.cmd
      = .program (w.client.baseAddr + otaTlnkKeywordAddroffset k) [0] := by rw [← secondEq]
  have firstDone : first.done = w.enables env := by rw [← firstEq]
  have secondDone : second.done = w.disables env := by rw [← secondEq]
  have after : Anchored k w.client (first.apply w.mem) := (byte_other firstCmd other).trans anchored
  have new := @enable_new w.mem _ _ firstCmd
  rw [firstDone] at new
  constructor
  · intro cuts _ disables
    have last := (bootable_slots w.client).mp cuts.finish
    simp only [replay_cons, replay_nil] at last
    rw [byte_other secondCmd other.symm, new] at last
    have gone : second.apply (first.apply w.mem)
        (w.client.baseAddr + otaTlnkKeywordAddroffset k) ≠ otaKeyword := by
      rw [Step.apply, if_pos (secondDone.trans disables), secondCmd, Cmd.apply, Mem.program_byte,
        if_pos rfl, after]
      decide
    have carried := last.resolve_right gone
    split <;> rename_i enables
    · rwa [if_pos enables] at carried
    · rwa [if_neg enables] at carried
  · intro safe
    refine .cons anchored.bootable (.cons after.bootable (.nil ?_))
    by_cases disables : w.disables env = true
    · apply (bootable_slots w.client).mpr
      left
      rw [byte_other secondCmd other.symm, new]
      have carried := safe reboots disables
      split at carried
      · rename_i enables
        rwa [if_pos enables]
      · rename_i enables
        rwa [if_neg enables]
    · rw [Step.apply, if_neg (by rw [secondDone]; exact disables)]
      exact after.bootable

/-- Every event is safe at every cut exactly if its switch-over is. -/
theorem Anchored.event (anchored : Anchored k w.client w.mem) (session : Session k w.client w.mem)
    : AtEveryCut (Bootable k) w.mem (Prog.trace env (e.handler k w.client) w.dev)
      ↔ SwitchSafe k w env e := by
  by_cases reboots : w.reboots e = true
  · exact anchored.reboot reboots
  · have stays : w.reboots e = false := by simpa using reboots
    refine ⟨fun _ no => absurd no reboots, fun _ => ?_⟩
    exact ((session.keeps stays).cuts anchored).mono (fun _ kept => kept.bootable)

theorem Anchored.step (anchored : Anchored k w.client w.mem) (session : Session k w.client w.mem)
    (safe : SwitchSafe k w env e)
    : Anchored k (w.step k env e).client (w.step k env e).mem := by
  by_cases reboots : w.reboots e = true
  · have finish := ((anchored.reboot reboots).mpr safe).finish
    rw [show w.mem = w.dev.mem from rfl, ← Prog.run_mem] at finish
    apply Bootable.anchored finish
    simp only [OtaWorld.step, reboots_handler reboots, otaMcuReboot, Prog.run_bind, Prog.run_view]
    rfl
  · exact (session.keeps (by simpa using reboots)).anchored anchored

end Switch

-----------------------------------------------------------------------------------------
-- Runs
-----------------------------------------------------------------------------------------

/-- The worlds that safe events reach from a bootable flash. Power may be cut inside an event;
the client then starts again.
-/
inductive BootReached (k : OtaBuild) : OtaWorld → Prop where
  | boot (m : Mem) (locked : Bool) (bootable : Bootable k m)
      : BootReached k { client := otaPowerUp k m, mem := m, locked }
  | event {w : OtaWorld} (before : BootReached k w) (env : Env) (e : OtaEvent)
      (safe : SwitchSafe k w env e)
      : BootReached k (w.step k env e)
  | cut {w : OtaWorld} (before : BootReached k w) (env : Env) (e : OtaEvent)
      (safe : SwitchSafe k w env e) (count : Nat) (locked : Bool)
      : BootReached k
          {
            client := otaPowerUp k (Prog.crash env (e.handler k w.client) w.dev count)
            mem := Prog.crash env (e.handler k w.client) w.dev count
            locked
          }

/-- By induction on the run: the running slot of every reached world carries the keyword. -/
theorem BootReached.anchored {k : OtaBuild} {w : OtaWorld} (reached : BootReached k w)
    : Anchored k w.client w.mem ∧ Session k w.client w.mem := by
  induction reached with
  | boot m locked bootable => exact ⟨bootable.anchored rfl, Session.powerUp k m m⟩
  | event _ env e safe ih => exact ⟨ih.1.step ih.2 safe, ih.2.step env e⟩
  | cut _ env e safe count locked ih =>
      have bootable := (ih.1.event ih.2).mpr safe count
      exact ⟨bootable.anchored rfl, Session.powerUp k _ _⟩

/-- The flash stays bootable at every point of an event exactly if its switch-over is safe. -/
theorem otaClient_bootable {k : OtaBuild} {w : OtaWorld} (reached : BootReached k w) (env : Env)
    (e : OtaEvent)
    : AtEveryCut (Bootable k) w.mem (Prog.trace env (e.handler k w.client) w.dev)
      ↔ SwitchSafe k w env e :=
  reached.anchored.1.event reached.anchored.2

/-- The world before the switch-over of `smallTransfer`. -/
theorem smallTransfer_reached
    : BootReached build8258
        (otaRun build8258 (firstSlotMem build8258) (smallTransfer build8258)) := by
  have start : BootReached build8258 _ :=
    .boot (firstSlotMem build8258) true (by decide +kernel)
  exact ((start.event {} _ (fun no => by cases no)).event {} _ (fun no => by cases no)).event {} _
    (fun no => by cases no)

theorem otaClient_bootable_switch
    : AtEveryCut (Bootable build8258)
        (otaRun build8258 (firstSlotMem build8258) (smallTransfer build8258)).mem
        (Prog.trace {}
          (OtaEvent.handler build8258
            (otaRun build8258 (firstSlotMem build8258) (smallTransfer build8258)).client
            (.stopRsp { imageSize := 70 }))
          (otaRun build8258 (firstSlotMem build8258) (smallTransfer build8258)).dev) := by
  apply (otaClient_bootable smallTransfer_reached {} (.stopRsp { imageSize := 70 })).mpr
  unfold SwitchSafe
  decide +kernel

/-- The supply is too low for the first write of the switch-over and good for the second. -/
theorem lost_enable_write_bricks
    : ∃ w env e, BootReached build8258 w ∧ ¬Bootable build8258 (w.step build8258 env e).mem :=
  ⟨_, { lowVoltage := fun n => n == 0 }, .stopRsp { imageSize := 70 }, smallTransfer_reached,
    by decide +kernel⟩

end TelinkSdk
