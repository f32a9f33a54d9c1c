import TelinkSdk.Drivers.NvReset
import TelinkSdk.Ota.Session

/-! The commands that a session sends to the flash. All of them stay in the slot that is not
running, and none of them writes the keyword that makes this slot bootable.
-/

namespace TelinkSdk

open Nor

-----------------------------------------------------------------------------------------
-- The slots
-----------------------------------------------------------------------------------------

section Slots

variable {k : OtaBuild} {s : OtaClient}

theorem slots_apart : s.newAddr = 0 ∧ s.baseAddr = flashOtaNewimageAddr
    ∨ s.newAddr = flashOtaNewimageAddr ∧ s.baseAddr = 0 := by
  unfold OtaClient.newAddr OtaClient.baseAddr
  split <;> simp

theorem newAddr_aligned : s.newAddr % flashSectorSize = 0 := by
  have slots := @slots_apart s
  simp only [flashSectorSize, flashOtaNewimageAddr] at *
  omega

theorem keyword_offset_small (k : OtaBuild) : otaTlnkKeywordAddroffset k < flashSectorSize := by
  unfold otaTlnkKeywordAddroffset
  split <;> decide

/-- The keyword of the running slot is outside the part of the new slot that is used. -/
theorem running_outside {x : Nat} (low : s.newAddr ≤ x)
    (high : x < s.newAddr + flashOtaNewimageAddr)
    : x ≠ s.baseAddr + otaTlnkKeywordAddroffset k := by
  have small := keyword_offset_small k
  have apart := @slots_apart s
  simp only [flashSectorSize, flashOtaNewimageAddr] at *
  omega

end Slots

/-- The sectors of the new slot that an accepted `START_RSP` erases. -/
def erasedSize (size : Nat) : Nat := (size / flashSectorSize + 1) * flashSectorSize

theorem erasedSize_ge (size : Nat) : size < erasedSize size := by
  simp only [erasedSize, flashSectorSize]
  omega

/-- A step of a session. What it does to the keyword of the new slot is said for any contents
of the flash.
-/
structure SlotStep (k : OtaBuild) (s : OtaClient) (step : Step) : Prop where
  within : step.cmd.Within s.newAddr (s.newAddr + otaMaxImageSize + 255)
  erases : ∀ sectorSize addr, step.cmd = .erase sectorSize addr
    → step.cmd.Within s.newAddr (s.newAddr + otaMaxImageSize)
  keyword : ∀ m, step.cmd.apply m (s.newAddr + otaTlnkKeywordAddroffset k) = blankByte
    ∨ step.cmd.apply m (s.newAddr + otaTlnkKeywordAddroffset k)
      = m (s.newAddr + otaTlnkKeywordAddroffset k)

theorem SlotStep.running {k : OtaBuild} {s : OtaClient} {step : Step} (slot : SlotStep k s step)
    : ¬step.cmd.Touches (s.baseAddr + otaTlnkKeywordAddroffset k) := by
  intro touched
  obtain ⟨low, high⟩ := slot.within _ touched
  simp only [otaMaxImageSize] at high
  exact running_outside low (by simp only [flashOtaNewimageAddr]; omega) rfl

/-- A run whose steps stay in the new slot, and the slot of the client it ends in. -/
structure Fills (k : OtaBuild) (env : Env) (p : Prog OtaClient) (s : OtaClient) (d : Dev)
    : Prop where
  steps : Prog.Emits (SlotStep k s) env p d
  boot : (p.run env d).1.mcuBootAddr = s.mcuBootAddr
    ∨ (p.run env d).1.mcuBootAddr = mcuBootAddrGet k (p.run env d).2.mem

section Fills

variable {k : OtaBuild} {env : Env} {s : OtaClient} {d : Dev} {m : Mem}

theorem Fills.pure {s' : OtaClient} (boot : s'.mcuBootAddr = s.mcuBootAddr)
    : Fills k env (pure s') s d :=
  ⟨.silent rfl, Or.inl boot⟩

theorem Fills.view {f : Mem → OtaClient}
    (boot : (f d.mem).mcuBootAddr = s.mcuBootAddr
      ∨ (f d.mem).mcuBootAddr = mcuBootAddrGet k d.mem)
    : Fills k env (Prog.view f) s d :=
  ⟨.silent rfl, boot⟩

theorem Fills.congr {p : Prog OtaClient} {s' : OtaClient} (fills : Fills k env p s' d)
    (boot : s'.mcuBootAddr = s.mcuBootAddr)
    : Fills k env p s d := by
  have slot : s'.newAddr = s.newAddr := by rw [OtaClient.newAddr, OtaClient.newAddr, boot]
  refine ⟨fills.steps.mono ?_, boot ▸ fills.boot⟩
  rintro step ⟨within, erases, keyword⟩
  rw [slot] at within erases keyword
  exact ⟨within, erases, keyword⟩

theorem otaPeriodicDataServerCb_boot
    : (otaPeriodicDataServerCb k m s).mcuBootAddr = s.mcuBootAddr
      ∨ (otaPeriodicDataServerCb k m s).mcuBootAddr = mcuBootAddrGet k m := by
  unfold otaPeriodicDataServerCb
  dsimp only
  split
  · exact Or.inr rfl
  · left
    split <;> rfl

/-- A sector of the new slot that belongs to an image of the largest size. -/
theorem SlotStep.erase {i : Nat} (inside : i ≤ (otaMaxImageSize - 1) / flashSectorSize)
    : SlotStep k s (d.step env (.erase flashSectorSize (s.newAddr + i * flashSectorSize))) := by
  have aligned : (s.newAddr + i * flashSectorSize) % flashSectorSize = 0 := by
    rw [Nat.add_mul_mod_self_right, newAddr_aligned]
  have sector : (Cmd.erase flashSectorSize (s.newAddr + i * flashSectorSize)).Within s.newAddr
      (s.newAddr + otaMaxImageSize) := by
    apply Cmd.within_erase (by decide) aligned
    · omega
    · simp only [otaMaxImageSize, flashSectorSize] at *
      omega
  refine ⟨?_, fun _ _ _ => sector, ?_⟩
  · intro x touched
    obtain ⟨low, high⟩ := sector x touched
    exact ⟨low, by omega⟩
  · intro before
    simp only [Dev.step, Cmd.apply, Mem.erase]
    split
    · exact Or.inl rfl
    · exact Or.inr rfl

theorem Fills.startRsp (pHdr : OtaPreamble)
    : Fills k env (otaStartRspHandler k pHdr s) s d := by
  unfold otaStartRspHandler
  split
  · rename_i accepted
    simp only [otaStartRspHandler.accepts, Bool.and_eq_true, decide_eq_true_eq] at accepted
    have small := accepted.2
    refine ⟨Prog.Emits.bind (flashEraseSectors_emits _ _ _ ?_) (.silent rfl), ?_⟩
    · intro i inside d' _
      apply SlotStep.erase
      simp only [otaMaxImageSize, flashSectorSize] at *
      omega
    · simp only [Prog.run_bind, Prog.run_pure]
      exact Or.inl rfl
  · exact .pure rfl

/-- A block is one checked write with the keyword masked, and a new look at the flash where
it fails.
-/
theorem otaDataProcess.store_eq (payload : Mem) (datalen i : Nat)
    : ∃ bytes crcValue, bytes.length = datalen
      ∧ (s.flashOffsetAddr + datalen < u32Mod
        → ∀ j < datalen, bytes.getD j blankByte
          = if s.flashOffsetAddr + j = otaTlnkKeywordAddroffset k then blankByte
            else payload (i + j))
      ∧ otaDataProcess.store k payload datalen i s
        = (flashWriteWithCheck (s.newAddr + s.flashOffsetAddr) bytes >>= fun written =>
            if written then
              pure { s with
                otaHeadercnt := (s.otaHeadercnt + datalen) % u32Mod
                flashOffsetAddr := (s.flashOffsetAddr + datalen) % u32Mod
                crcValue }
            else Prog.view fun m =>
              otaAbort k m { s with otaHeadercnt := (s.otaHeadercnt + datalen) % u32Mod }) := by
  refine ⟨_, _, ?_, ?_, rfl⟩
  · exact Mem.read_length _ _ _
  · intro small j inside
    have whole : (datalen + s.flashOffsetAddr) % u32Mod = datalen + s.flashOffsetAddr :=
      Nat.mod_eq_of_lt (by omega)
    rw [Mem.read_getD _ inside]
    by_cases keyword : s.flashOffsetAddr + j = otaTlnkKeywordAddroffset k
    · have covered (otaHeadercnt : Nat)
          : otaDataProcess.flag k { s with otaHeadercnt } datalen = true := by
        simp only [otaDataProcess.flag, whole, Bool.and_eq_true, decide_eq_true_eq]
        omega
      have index : i + j = i + otaTlnkKeywordAddroffset k - s.flashOffsetAddr := by omega
      rw [if_pos keyword, index, if_pos (covered _), Function.update_self]
    · rw [if_neg keyword]
      split
      · rename_i covered
        simp only [otaDataProcess.flag, whole, Bool.and_eq_true, decide_eq_true_eq] at covered
        have away : i + j ≠ i + otaTlnkKeywordAddroffset k - s.flashOffsetAddr := by omega
        rw [Function.update_of_ne away]
      · rfl

/-- A block goes to the part of the new slot behind the blocks before it. -/
theorem Storing.fills (storing : Storing k s m) (payload : Mem) {datalen : Nat}
    (short : datalen < 256) (i : Nat)
    : Fills k env (otaDataProcess.store k payload datalen i s) s d := by
  have small := storing.small
  have count := storing.count
  simp only [otaMaxImageSize] at small
  obtain ⟨bytes, crcValue, length, masked, shape⟩ := @otaDataProcess.store_eq k s payload datalen i
  have masked := masked (by simp only [u32Mod]; omega)
  rw [shape]
  refine ⟨Prog.Emits.bind (flashWriteWithCheck_emits ⟨?_, ?_, ?_⟩) ?_, ?_⟩
  · apply Cmd.within_program
    · omega
    · simp only [otaMaxImageSize]
      omega
  · intro sectorSize addr no
    cases no
  · intro before
    simp only [Dev.step, Cmd.apply]
    by_cases covered : s.flashOffsetAddr ≤ otaTlnkKeywordAddroffset k
        ∧ otaTlnkKeywordAddroffset k < s.flashOffsetAddr + datalen
    · obtain ⟨j, keyword⟩ := Nat.exists_eq_add_of_le covered.1
      have address : s.newAddr + otaTlnkKeywordAddroffset k
          = s.newAddr + s.flashOffsetAddr + j := by omega
      right
      rw [address, Mem.program_inside (by omega), masked j (by omega), if_pos keyword.symm,
        and_blankByte]
    · exact Or.inr (Mem.program_outside (by omega))
  · split <;> exact .silent rfl
  · rw [Prog.run_bind]
    split
    · exact Or.inl rfl
    · exact Or.inr rfl

theorem Session.fills_process (session : Session k s m) (payload : Mem) {len : Nat}
    (positive : 0 < len) (short : len < 256)
    : Fills k env (otaDataProcess k len payload s) s d := by
  rcases @Session.process_eq k s m session payload len positive with
    ⟨s', shape, same, -, -⟩ | ⟨i, s', shape, same, storing⟩
  · rw [shape]
    exact .pure same.boot
  · rw [shape]
    exact (storing.fills payload (by omega) i).congr same.boot

theorem otaDataRspHandler.next_boot
    : (otaDataRspHandler.next k s m).mcuBootAddr = s.mcuBootAddr
      ∨ (otaDataRspHandler.next k s m).mcuBootAddr = mcuBootAddrGet k m := by
  unfold otaDataRspHandler.next
  split
  · split
    · exact Or.inl rfl
    · exact Or.inr rfl
  · exact Or.inl rfl

theorem Session.fills_dataRsp (session : Session k s m) (pHdr : OtaDataFrame)
    : Fills k env (otaDataRspHandler k pHdr s) s d := by
  unfold otaDataRspHandler
  split
  · exact .pure rfl
  · split
    · split
      · exact .view (Or.inr rfl)
      · rename_i nonempty
        have positive : 0 < pHdr.payloadSize.toNat :=
          Nat.pos_of_ne_zero (fun zero => nonempty (UInt8.toNat_inj.mp zero))
        have process : Fills k env (otaDataProcess k pHdr.payloadSize.toNat pHdr.payload s) s
            (lockTo env false d) :=
          session.fills_process pHdr.payload positive pHdr.payloadSize.toNat_lt
        refine ⟨?_, ?_⟩
        · refine Prog.Emits.bind (.silent (trace_flashUnlock env d)) ?_
          rw [run_flashUnlock]
          refine Prog.Emits.bind process.steps ?_
          refine Prog.Emits.bind (.silent (trace_flashLock env _)) ?_
          exact .silent rfl
        · simp only [Prog.run_bind, run_flashUnlock, run_flashLock, Prog.run_view, lockTo_mem]
          rcases otaDataRspHandler.next_boot with same | looked
          · rw [same]
            exact process.boot
          · exact Or.inr looked
    · exact .pure rfl

/-- Every event but the switch-over stays in the new slot. -/
theorem Session.fills {w : OtaWorld} (session : Session k w.client w.mem) {e : OtaEvent}
    (stays : w.reboots e = false)
    : Fills k env (e.handler k w.client) w.client w.dev := by
  cases e with
  | startRsp pHdr => exact Fills.startRsp pHdr
  | dataRsp pHdr => exact session.fills_dataRsp pHdr
  | stopRsp pHdr =>
      simp only [OtaWorld.reboots, Bool.and_eq_false_iff, beq_eq_false_iff_ne] at stays
      simp only [OtaEvent.handler, otaStopRspHandler]
      split
      · exact .pure rfl
      · rename_i ended
        rcases stays with other | refused
        · exact absurd other ended
        · rw [if_neg (by simp [refused])]
          exact .view (Or.inr rfl)
  | retryTimer => exact .view otaPeriodicDataServerCb_boot
  | queryTimer => exact .pure rfl

end Fills

-----------------------------------------------------------------------------------------
-- The slot that is not running
-----------------------------------------------------------------------------------------

/-- The client takes the slot for the running one that a reset would start. -/
def Agrees (k : OtaBuild) (s : OtaClient) (m : Mem) : Prop := s.mcuBootAddr = mcuBootAddrGet k m

section Agrees

variable {k : OtaBuild} {env : Env} {s : OtaClient} {d : Dev} {m : Mem}

/-- A slot at address 0 that is not running gets no keyword, and one that is keeps it. -/
theorem SlotStep.agrees {step : Step} (slot : SlotStep k s step) (agrees : Agrees k s m)
    : Agrees k s (step.cmd.apply m) := by
  have running := @Cmd.apply_untouched _ m _ slot.running
  have keyword := slot.keyword m
  unfold Agrees mcuBootAddrGet OtaClient.newAddr OtaClient.baseAddr at *
  cases boot : s.mcuBootAddr with
  | true =>
      simp only [boot, if_true, Nat.zero_add] at *
      rcases keyword with blank | same
      · rw [blank]
        decide
      · rw [same]
        exact agrees
  | false =>
      simp only [boot, Bool.false_eq_true, if_false, Nat.zero_add] at *
      rw [running]
      exact agrees

theorem Fills.agrees_cuts {p : Prog OtaClient} (fills : Fills k env p s d)
    (agrees : Agrees k s d.mem)
    : AtEveryCut (Agrees k s) d.mem (p.trace env d) :=
  .of_kept agrees (fun step member _ _ => (fills.steps step member).agrees)

/-- A session keeps to its slot, also where it looks at the flash again. -/
theorem Fills.same_slot {p : Prog OtaClient} (fills : Fills k env p s d)
    (agrees : Agrees k s d.mem)
    : (p.run env d).1.mcuBootAddr = s.mcuBootAddr := by
  rcases fills.boot with same | looked
  · exact same
  · rw [looked, Prog.run_mem]
    exact (fills.agrees_cuts agrees).finish.symm

theorem Fills.agrees {p : Prog OtaClient} (fills : Fills k env p s d) (agrees : Agrees k s d.mem)
    : Agrees k (p.run env d).1 (p.run env d).2.mem := by
  rw [Agrees, fills.same_slot agrees, Prog.run_mem]
  exact (fills.agrees_cuts agrees).finish

theorem reboots_handler {w : OtaWorld} {e : OtaEvent} (reboots : w.reboots e = true)
    : e.handler k w.client = otaMcuReboot k { w.client with otaState := .staIdle } := by
  cases e with
  | stopRsp pHdr =>
      simp only [OtaWorld.reboots, Bool.and_eq_true, beq_iff_eq] at reboots
      simp [OtaEvent.handler, otaStopRspHandler, reboots.1, reboots.2]
  | _ => simp [OtaWorld.reboots] at reboots

theorem Agrees.step {w : OtaWorld} (agrees : Agrees k w.client w.mem)
    (session : Session k w.client w.mem) (env : Env) (e : OtaEvent)
    : Agrees k (w.step k env e).client (w.step k env e).mem := by
  cases reboots : w.reboots e with
  | true =>
      simp only [OtaWorld.step, reboots_handler reboots, otaMcuReboot, Prog.run_bind,
        Prog.run_view]
      rfl
  | false => exact (session.fills reboots).agrees agrees

theorem OtaReached.agrees {w : OtaWorld} (reached : OtaReached k w)
    : Agrees k w.client w.mem := by
  induction reached with
  | boot m locked => rfl
  | event before env e ih => exact ih.step before.session env e

end Agrees

-----------------------------------------------------------------------------------------
-- Confinement
-----------------------------------------------------------------------------------------

/-- The start of the factory data in the flash map, with the user configuration and what
lies behind them.
-/
def factoryDataAddr (b : Build) : Nat := if b.flashCapSize1M then 0xFC000 else 0x76000

/-- The flash that an update must leave alone: the half of the running image, the modules of
the NV area and the factory data.
-/
def Reserved (b : Build) (s : OtaClient) (x : Nat) : Prop :=
  s.baseAddr ≤ x ∧ x < s.baseAddr + flashOtaNewimageAddr
    ∨ (∃ id < nvMaxModuls, moduleSectStart b id 0 ≤ x ∧ x < moduleSectEnd b id 1)
    ∨ factoryDataAddr b ≤ x

/-- The NV modules lie between the halves or behind both. -/
theorem module_outside {b : Build} (plain : b.bootLoaderMode = false) {id : Nat}
    (known : id < nvMaxModuls)
    : 0x34000 ≤ moduleSectStart b id 0
      ∧ (moduleSectEnd b id 1 ≤ flashOtaNewimageAddr
        ∨ 2 * flashOtaNewimageAddr ≤ moduleSectStart b id 0) := by
  obtain ⟨cap, boot⟩ := b
  subst plain
  have cases : id = 0 ∨ id = 1 ∨ id = 2 ∨ id = 3 := by
    simp only [nvMaxModuls] at known
    omega
  rcases cases with rfl | rfl | rfl | rfl <;> cases cap <;> decide

/-- The part of the new slot that an image can take is free for it. -/
theorem reserved_outside {b : Build} {s : OtaClient} (plain : b.bootLoaderMode = false) {x : Nat}
    (low : s.newAddr ≤ x) (high : x < s.newAddr + otaMaxImageSize + 255)
    : ¬Reserved b s x := by
  have slots := @slots_apart s
  simp only [otaMaxImageSize, flashOtaNewimageAddr] at slots high
  rintro (⟨first, last⟩ | ⟨id, known, first, last⟩ | factory)
  · simp only [flashOtaNewimageAddr] at last
    omega
  · have module := module_outside plain known
    simp only [flashOtaNewimageAddr] at module
    omega
  · unfold factoryDataAddr at factory
    split at factory <;> omega

/-- Every command of an event other than the switch-over is in the slot that is not running,
behind it by less than one frame, and away from everything reserved.
-/
theorem otaClient_confined {k : OtaBuild} {w : OtaWorld} {e : OtaEvent} (reached : OtaReached k w)
    (stays : w.reboots e = false) (env : Env)
    : w.client.mcuBootAddr = mcuBootAddrGet k w.mem
      ∧ Prog.Emits
        (fun step => step.cmd.Within w.client.newAddr (w.client.newAddr + otaMaxImageSize + 255)
          ∧ (∀ sectorSize addr, step.cmd = .erase sectorSize addr
            → step.cmd.Within w.client.newAddr (w.client.newAddr + otaMaxImageSize))
          ∧ ∀ b : Build, b.bootLoaderMode = false
            → ∀ x, step.cmd.Touches x → ¬Reserved b w.client x)
        env (e.handler k w.client) w.dev := by
  refine ⟨reached.agrees, (reached.session.fills stays).steps.mono ?_⟩
  rintro step ⟨within, erases, -⟩
  refine ⟨within, erases, fun b plain x touched => ?_⟩
  obtain ⟨low, high⟩ := within x touched
  exact reserved_outside plain low high

/-- The second block claims to have 255 bytes. -/
theorem otaClient_confined_long_block
    : let w := otaRun build8258 (firstSlotMem build8258) ((smallTransfer build8258).take 2)
      (∀ step ∈ Prog.trace {} (OtaEvent.handler build8258 w.client
          (.dataRsp
            {
              toOtaPreamble := { w.client.devOtaInfo with imageSize := 1 }
              payloadSize := 255
              payload := fun _ => 0
            })) w.dev,
        step.cmd.Within flashOtaNewimageAddr (flashOtaNewimageAddr + otaMaxImageSize + 255)) := by
  intro w step member
  have reached : OtaReached build8258 w := OtaReached.run _ _ _
  have slot : w.client.newAddr = flashOtaNewimageAddr := by decide +kernel
  rw [← slot]
  exact ((otaClient_confined reached rfl {}).2 step member).1

-----------------------------------------------------------------------------------------
-- Unfinished images
-----------------------------------------------------------------------------------------

/-- The new slot carries no keyword. -/
def KeywordBlank (k : OtaBuild) (s : OtaClient) (m : Mem) : Prop :=
  m (s.newAddr + otaTlnkKeywordAddroffset k) = blankByte

/-- The worlds from an accepted `START_RSP` on, up to the switch-over. The erase of the new
slot takes effect; the events after it may lose commands.
-/
inductive Downloading (k : OtaBuild) : OtaWorld → Prop where
  | start {w : OtaWorld} (reached : OtaReached k w) {env : Env} (steady : env.Steady)
      (pHdr : OtaPreamble) (accepted : otaStartRspHandler.accepts k w.client pHdr = true)
      : Downloading k (w.step k env (.startRsp pHdr))
  | event {w : OtaWorld} (before : Downloading k w) (env : Env) (e : OtaEvent)
      (stays : w.reboots e = false)
      : Downloading k (w.step k env e)

section Downloading

variable {k : OtaBuild} {env : Env} {s : OtaClient} {d : Dev} {w : OtaWorld}

theorem Downloading.reached (downloading : Downloading k w) : OtaReached k w := by
  induction downloading with
  | start reached _ pHdr _ => exact reached.event _ _
  | event _ env e _ ih => exact ih.event env e

theorem Fills.keyword {p : Prog OtaClient} (fills : Fills k env p s d)
    (blank : KeywordBlank k s d.mem)
    : AtEveryCut (KeywordBlank k s) d.mem (p.trace env d) := by
  apply AtEveryCut.of_kept blank
  intro step member _ before kept
  rcases (fills.steps step member).keyword before with erased | same
  · exact erased
  · exact same.trans kept

/-- An accepted `START_RSP` erases the sector of the keyword. -/
theorem keywordBlank_start (steady : env.Steady) {pHdr : OtaPreamble}
    (accepted : otaStartRspHandler.accepts k w.client pHdr = true)
    : KeywordBlank k (w.step k env (.startRsp pHdr)).client (w.step k env (.startRsp pHdr)).mem := by
  have small := keyword_offset_small k
  have slot : (w.step k env (.startRsp pHdr)).client.newAddr = w.client.newAddr := by
    simp only [OtaWorld.step, OtaEvent.handler, otaStartRspHandler, accepted, if_true,
      Prog.run_bind, Prog.run_pure]
    rfl
  rw [KeywordBlank, slot]
  simp only [OtaWorld.step, OtaEvent.handler, otaStartRspHandler, accepted, if_true,
    Prog.run_bind, Prog.run_pure]
  rw [flashEraseSectors_mem steady _ newAddr_aligned, if_pos]
  simp only [flashSectorSize] at *
  omega

theorem KeywordBlank.step (blank : KeywordBlank k w.client w.mem) (reached : OtaReached k w)
    (env : Env) {e : OtaEvent} (stays : w.reboots e = false)
    : KeywordBlank k (w.step k env e).client (w.step k env e).mem := by
  have fills := @Session.fills k env w reached.session e stays
  have same : (w.step k env e).client.mcuBootAddr = w.client.mcuBootAddr :=
    fills.same_slot reached.agrees
  have finish := (fills.keyword blank).finish
  rw [← Prog.run_mem] at finish
  rw [KeywordBlank, OtaClient.newAddr, same]
  exact finish

theorem Downloading.keywordBlank (downloading : Downloading k w)
    : KeywordBlank k w.client w.mem := by
  induction downloading with
  | start _ steady pHdr accepted => exact keywordBlank_start steady accepted
  | event before env e stays ih => exact ih.step before.reached env stays

end Downloading

/-- From an accepted `START_RSP` to the switch-over, the new slot has no keyword, wherever an
event is cut.
-/
theorem otaClient_unbootable {k : OtaBuild} {w : OtaWorld} (downloading : Downloading k w)
    : w.mem (w.client.newAddr + otaTlnkKeywordAddroffset k) = 0xff
      ∧ ∀ env e, w.reboots e = false
        → AtEveryCut (fun m => m (w.client.newAddr + otaTlnkKeywordAddroffset k) = 0xff) w.mem
            (Prog.trace env (e.handler k w.client) w.dev) := by
  refine ⟨downloading.keywordBlank, fun env e stays => ?_⟩
  exact (downloading.reached.session.fills stays).keyword downloading.keywordBlank

/-- A block that covers the keyword arrives with every byte equal to it. -/
theorem otaClient_unbootable_covered
    : let w := otaRun build8258 (firstSlotMem build8258)
        ((smallTransfer build8258).take 2
          ++ [
            .dataRsp
              {
                fileVer := 0x10400001
                imageType := imageType build8258
                manufaurerCode := manufacturerCode
                imageSize := 1
                payloadSize := 48
                payload := fun _ => otaKeyword
              }
          ])
      w.mem (flashOtaNewimageAddr + 7) = otaKeyword ∧ w.mem (flashOtaNewimageAddr + 8) = 0xff := by
  intro w
  have steady : Env.Steady {} := ⟨fun _ => rfl, rfl⟩
  have downloading : Downloading build8258 w :=
    ((Downloading.start (.boot _ true) steady _ (by decide +kernel)).event {} _ rfl).event {} _ rfl
  have slot : w.client.newAddr = flashOtaNewimageAddr := by decide +kernel
  refine ⟨by decide +kernel, ?_⟩
  rw [← slot]
  exact (otaClient_unbootable downloading).1

end TelinkSdk
