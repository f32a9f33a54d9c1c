import TelinkSdk.Drivers.NvConfined
import TelinkSdk.Ota.BootSlot

/-! The write protection of the flash. Every operation opens the lock before its first command
and closes it at its end; the lock is not nested, so what follows an inner operation that
closed it is issued to a locked chip.
-/

namespace TelinkSdk

open Nor

-----------------------------------------------------------------------------------------
-- Programs and the lock
-----------------------------------------------------------------------------------------

/-- A command that is issued while the lock is open. -/
abbrev OpenStep (s : Step) : Prop := s.locked = false

/-- Every command is issued while the lock is open, and the lock ends up as `after`. -/
structure Opened {α : Type} (after : Bool) (env : Env) (p : Prog α) (d : Dev) : Prop where
  emits : Prog.Emits OpenStep env p d
  lock : (p.run env d).2.locked = after

section Rules

variable {α β : Type} {after : Bool} {env : Env} {d : Dev}

theorem Opened.result {value : α} (lock : d.locked = after) : Opened after env (pure value) d :=
  ⟨.silent rfl, lock⟩

theorem Opened.view {f : Mem → α} (lock : d.locked = after) : Opened after env (Prog.view f) d :=
  ⟨.silent rfl, lock⟩

theorem Opened.bind {p : Prog α} {f : α → Prog β} {between : Bool} (first : Opened between env p d)
    (second : ∀ value d', d'.locked = between → Opened after env (f value) d')
    : Opened after env (p >>= f) d := by
  obtain ⟨emits, lock⟩ := second (p.run env d).1 (p.run env d).2 first.lock
  exact ⟨first.emits.bind emits, by rwa [Prog.run_bind]⟩

theorem Opened.write (opened : d.locked = false) (addr : Nat) (buf : List UInt8)
    : Opened false env (flashWrite addr buf) d :=
  ⟨flashWrite_emits opened, opened⟩

theorem Opened.erase (opened : d.locked = false) (addr : Nat)
    : Opened false env (flashErase addr) d :=
  ⟨flashErase_emits opened, opened⟩

theorem Opened.eraseSectors (opened : d.locked = false) (count addr : Nat)
    : Opened false env (flashEraseSectors count addr) d := by
  refine ⟨flashEraseSectors_emits count addr d ?_, ?_⟩
  · intro i _ d' same
    exact same.trans opened
  · rw [flashEraseSectors_locked]
    exact opened

theorem Opened.unlock (known : env.knownChip = true) (d : Dev)
    : Opened false env flashUnlock d := by
  refine ⟨.silent (trace_flashUnlock env d), ?_⟩
  rw [run_flashUnlock, lockTo, known]
  rfl

theorem Opened.lockIt (known : env.knownChip = true) (d : Dev)
    : Opened true env flashLock d := by
  refine ⟨.silent (trace_flashLock env d), ?_⟩
  rw [run_flashLock, lockTo, known]
  rfl

/-- An operation that opens the lock, works and closes it. -/
theorem Opened.session {work : Prog α} {f : α → β} (known : env.knownChip = true)
    (inside : ∀ d', d'.locked = false → Opened false env work d')
    : Opened true env (do flashUnlock; let value ← work; flashLock; pure (f value)) d := by
  refine .bind (.unlock known d) fun _ d' opened => ?_
  refine .bind (inside d' opened) fun value d'' _ => ?_
  exact .bind (.lockIt known d'') fun _ _ closed => .result closed

end Rules

-----------------------------------------------------------------------------------------
-- Operations that keep the discipline
-----------------------------------------------------------------------------------------

section Operations

variable {env : Env} {b : Build}

theorem nvWriteItem.copy_opened (fuel total sAddr dAddr : Nat) (d : Dev)
    (opened : d.locked = false)
    : Opened false env (nvWriteItem.copy fuel total sAddr dAddr) d := by
  induction fuel generalizing total sAddr dAddr d with
  | zero => exact .result opened
  | succ fuel ih =>
      rw [nvWriteItem.copy]
      split
      · refine .bind (.view opened) fun pTemp d' opened => ?_
        exact .bind (.write opened _ _) fun _ d'' opened => ih _ _ _ d'' opened
      · exact .result opened

theorem nvWriteItem.content_opened (e : InfoIdx) (source : ItemSource) (d : Dev)
    (opened : d.locked = false)
    : Opened false env (nvWriteItem.content e source) d := by
  cases source with
  | flash addr len =>
      have buffer : Opened false env evBufAllocate d := ⟨.silent rfl, opened⟩
      refine .bind buffer fun granted d' opened => ?_
      split
      · exact .bind (nvWriteItem.copy_opened _ _ _ _ d' opened) fun _ _ opened => .result opened
      · exact .result opened
  | ram buf =>
      refine .bind (.write opened _ _) fun _ d' opened => ?_
      refine .bind (.view opened) fun sum d'' opened => ?_
      split
      · exact .bind (.write opened _ _) fun _ _ opened => .result opened
      · exact .result opened

theorem nvWriteItem_opened (known : env.knownChip = true) (id : Nat) (itemId : UInt8)
    (opSect opItemIdx : Nat) (source : ItemSource) (d : Dev)
    : Opened true env (nvWriteItem b id itemId opSect opItemIdx source) d := by
  refine .bind (.view rfl) fun offset d' _ => ?_
  refine .bind (.unlock known d') fun _ d' opened => ?_
  refine .bind (.write opened _ _) fun _ d' opened => ?_
  refine .bind (nvWriteItem.content_opened _ source d' opened) fun ret d' opened => ?_
  have valid (addr : Nat) : Opened false env (nvWriteItem.markValid ret addr) d' := by
    unfold nvWriteItem.markValid
    split
    · exact .write opened _ _
    · exact .result opened
  refine .bind (valid _) fun _ d' _ => ?_
  exact .bind (.lockIt known d') fun _ _ closed => .result closed

theorem nvItemDeleteByIndex_opened (known : env.knownChip = true) (id opSect opIdx : Nat)
    (d : Dev)
    : Opened true env (nvItemDeleteByIndex b id opSect opIdx) d :=
  .session known fun _ opened => .write opened _ _

theorem nvResetModule_opened (known : env.knownChip = true) (modules : Nat) (d : Dev)
    : Opened true env (nvResetModule b modules) d := by
  unfold nvResetModule
  rw [nvResetModule.sectors_eq]
  exact .session known fun _ opened => .eraseSectors opened _ _

/-- A list of resets, by induction on it. -/
theorem nvResetModules_opened (known : env.knownChip = true) (modules : List Nat) (d : Dev)
    (closed : d.locked = true)
    : Opened true env (nvResetModules b modules) d := by
  induction modules generalizing d with
  | nil => exact .result closed
  | cons id rest ih => exact .bind (nvResetModule_opened known id d) fun _ d' closed => ih d' closed

theorem nvResetToFactoryNew_opened (known : env.knownChip = true) (d : Dev)
    (closed : d.locked = true)
    : Opened true env (nvResetToFactoryNew b) d := by
  have cleared (d' : Dev) : Opened true env (nvFacrotyNewRstFlagClear b) d' := by
    refine .bind (.unlock known d') fun _ d' opened => ?_
    exact .bind (.erase opened _) fun _ d' _ => .lockIt known d'
  have resets (d' : Dev) (closed : d'.locked = true)
      : Opened true env
          (do nvResetModules b factoryModules; nvFacrotyNewRstFlagClear b; pure NvSts.succ) d' := by
    refine .bind (nvResetModules_opened known factoryModules d' closed) fun _ d' _ => ?_
    exact .bind (cleared d') fun _ _ closed => .result closed
  refine .bind (.view closed) fun flag d' closed => ?_
  split
  · exact resets d' closed
  · refine .bind ?_ fun _ d' closed => resets d' closed
    refine .bind (.unlock known d') fun _ d' opened => ?_
    exact .bind (.write opened _ _) fun _ d' _ => .lockIt known d'

theorem nvNwkFrameCountSaveToFlash_opened (known : env.knownChip = true) (frameCount : Nat)
    (d : Dev)
    : Opened true env (nvNwkFrameCountSaveToFlash b frameCount) d := by
  refine .bind (.unlock known d) fun _ d' opened => ?_
  refine .bind (.view opened) fun found d' opened => ?_
  have sector : Opened false env (nvNwkFrameCountSaveToFlash.opSect b found) d' := by
    cases found with
    | some sectInfo => exact .result opened
    | none =>
        refine .bind (.erase opened _) fun _ d' opened => ?_
        exact .bind (.erase opened _) fun _ _ opened => .result opened
  refine .bind sector fun oldSect d' opened => ?_
  have next : Opened false env (nvNwkFrameCountSaveToFlash.place b oldSect) d' := by
    refine .bind (.view opened) fun found d' opened => ?_
    obtain ⟨lastFrmCnt, wAddr⟩ := found
    cases lastFrmCnt with
    | none => exact .result opened
    | some lastFrmCnt =>
        dsimp only
        split
        · refine .bind (.erase opened _) fun _ d' opened => ?_
          exact .bind (.write opened _ _) fun _ _ opened => .result opened
        · exact .result opened
  refine .bind next fun place d' opened => ?_
  refine .bind (.write opened _ _) fun _ d' opened => ?_
  have flags : Opened false env (nvNwkFrameCountSaveToFlash.markSectors b oldSect place) d' := by
    unfold nvNwkFrameCountSaveToFlash.markSectors
    split
    · refine .bind (.write opened _ _) fun _ d' opened => ?_
      split
      · exact .write opened _ _
      · exact .result opened
    · exact .result opened
  refine .bind flags fun _ d' _ => ?_
  exact .bind (.lockIt known d') fun _ _ closed => .result closed

end Operations

-----------------------------------------------------------------------------------------
-- The OTA client
-----------------------------------------------------------------------------------------

section Ota

variable {env : Env} {k : OtaBuild} {s : OtaClient} {d : Dev}

theorem flashWriteWithCheck_opened (opened : d.locked = false) (addr : Nat) (buf : List UInt8)
    : Opened false env (flashWriteWithCheck addr buf) d := by
  refine ⟨flashWriteWithCheck_emits opened, ?_⟩
  rw [(run_flashWriteWithCheck env addr buf d).1]
  exact opened

theorem otaDataProcess_opened (len : Nat) (payload : Mem) (opened : d.locked = false)
    : Opened false env (otaDataProcess k len payload s) d := by
  unfold otaDataProcess
  generalize (if s.otaState = .staStarting then otaDataProcess.header payload len 0 s
    else (0, s)) = r
  obtain ⟨i, s'⟩ := r
  dsimp only
  split
  · obtain ⟨bytes, crcValue, -, -, shape⟩ :=
      @otaDataProcess.store_eq k s' payload (len - i) i
    rw [shape]
    refine .bind (flashWriteWithCheck_opened opened _ _) fun written d' opened => ?_
    split
    · exact .result opened
    · exact .view opened
  · exact .result opened

theorem otaDataRspHandler_opened (known : env.knownChip = true) (pHdr : OtaDataFrame)
    (closed : d.locked = true)
    : Opened true env (otaDataRspHandler k pHdr s) d := by
  unfold otaDataRspHandler
  split
  · exact .result closed
  · split
    · split
      · exact .view closed
      · refine .bind (.unlock known d) fun _ d' opened => ?_
        refine .bind (otaDataProcess_opened _ _ opened) fun s' d' _ => ?_
        exact .bind (.lockIt known d') fun _ _ closed => .view closed
    · exact .result closed

theorem otaMcuReboot_opened (known : env.knownChip = true)
    : Opened true env (otaMcuReboot k s) d := by
  refine .bind (.unlock known d) fun _ d' opened => ?_
  refine .bind (.write opened _ _) fun _ d' opened => ?_
  refine .bind (.write opened _ _) fun _ d' _ => ?_
  exact .bind (.lockIt known d') fun _ _ closed => .view closed

theorem otaStopRspHandler_opened (known : env.knownChip = true) (pHdr : OtaPreamble)
    (closed : d.locked = true)
    : Opened true env (otaStopRspHandler k pHdr s) d := by
  unfold otaStopRspHandler
  split
  · exact .result closed
  · split
    · exact otaMcuReboot_opened known
    · exact .view closed

/-- An accepted START erases at least one sector, without opening the lock. -/
theorem otaStartRspHandler_emits (pHdr : OtaPreamble) (closed : d.locked = true)
    : Prog.Emits OpenStep env (otaStartRspHandler k pHdr s) d
      ↔ otaStartRspHandler.accepts k s pHdr = false := by
  unfold otaStartRspHandler
  constructor
  · intro emits
    by_contra accepted
    rw [if_pos (by simpa using accepted)] at emits
    obtain ⟨erases, -⟩ := Prog.emits_bind.mp emits
    rw [flashEraseSectors] at erases
    have first := (Prog.emits_bind.mp erases).1 _ (List.mem_singleton.mpr rfl)
    rw [OpenStep, Dev.step, closed] at first
    contradiction
  · intro refused
    rw [refused, if_neg Bool.false_ne_true]
    exact .silent rfl

theorem otaStartRspHandler_lock (pHdr : OtaPreamble)
    : (Prog.run env (otaStartRspHandler k pHdr s) d).2.locked = d.locked := by
  unfold otaStartRspHandler
  split
  · simp only [Prog.run_bind, Prog.run_pure]
    exact flashEraseSectors_locked _ _ d
  · rfl

end Ota

-----------------------------------------------------------------------------------------
-- Writing an item
-----------------------------------------------------------------------------------------

/-- The payload that `nv_write_item` programs passes its checksum. -/
def nvWriteItem.readsBack (b : Build) (id : Nat) (itemId : UInt8) (opSect opItemIdx : Nat)
    (buf : List UInt8) (env : Env) (d : Dev) : Prop :=
  let offset := nvWriteItem.offset b id opSect opItemIdx d.mem
  let idxInfo : InfoIdx :=
    {
      offset
      size := itemTotalLen buf.length % u16Mod
      itemId
      usedState := itemFieldOperation
    }
  let indexed := (lockTo env false d).issue env
    (.program (moduleIdxStart b id opSect + opItemIdx * sizeofInfoIdx) idxInfo.bytes)
  checkSum buf = checkSum ((indexed.issue env (.program (offset + 8) buf)).mem.read
    (offset + 8) buf.length)

section Write

variable {env : Env} {b : Build} {id : Nat} {itemId : UInt8}

theorem nvWriteItem_succ_iff (opSect opItemIdx : Nat) (buf : List UInt8) (d : Dev)
    : (Prog.run env (nvWriteItem b id itemId opSect opItemIdx (.ram buf)) d).1 = .succ
      ↔ nvWriteItem.readsBack b id itemId opSect opItemIdx buf env d := by
  unfold nvWriteItem nvWriteItem.readsBack
  simp only [Prog.run_bind, Prog.run_view, run_flashUnlock, run_flashWrite, run_flashLock,
    Prog.run_pure, nvWriteItem.run_content_ram, ItemSource.len]
  split <;> simp_all

/-- A command at a closed lock. -/
theorem not_emits_closed {addr : Nat} {buf : List UInt8} {d : Dev} (closed : d.locked = true)
    : ¬Prog.Emits OpenStep env (flashWrite addr buf) d := by
  intro emits
  have first := emits _ (List.mem_singleton.mpr rfl)
  rw [OpenStep, Dev.step, closed] at first
  contradiction

theorem markDeleted_emits {previous : Option Nat} {opSect : Nat} {d : Dev}
    (closed : d.locked = true)
    : Prog.Emits OpenStep env (nvFlashWriteNew.markDeleted b id opSect previous) d
      ↔ previous = none := by
  cases previous with
  | none => exact ⟨fun _ => rfl, fun _ => .silent rfl⟩
  | some i => exact ⟨fun emits => absurd emits (not_emits_closed closed), fun no => by cases no⟩

theorem markDeleted_lock (opSect : Nat) (previous : Option Nat) (d : Dev)
    : (Prog.run env (nvFlashWriteNew.markDeleted b id opSect previous) d).2.locked = d.locked := by
  cases previous <;> rfl

theorem markSectors_emits {oldSect opSect wItemIdx : Nat} {sectorUpdate : Bool} {ret : NvSts}
    {d : Dev} (closed : d.locked = true)
    : Prog.Emits OpenStep env
        (nvFlashWriteNew.markSectors b id oldSect opSect wItemIdx sectorUpdate ret) d
      ↔ ¬(ret = .succ ∧ (sectorUpdate = true ∨ wItemIdx = 0)) := by
  unfold nvFlashWriteNew.markSectors
  by_cases good : ret = .succ
  · rw [if_pos good]
    by_cases rolls : sectorUpdate = true
    · rw [if_pos rolls]
      refine ⟨fun emits => ?_, fun no => absurd ⟨good, Or.inl rolls⟩ no⟩
      exact absurd (Prog.emits_bind.mp emits).1 (not_emits_closed closed)
    · rw [if_neg rolls]
      by_cases first : wItemIdx = 0
      · rw [if_pos first]
        refine ⟨fun emits => absurd emits (not_emits_closed closed), fun no => ?_⟩
        exact absurd ⟨good, Or.inr first⟩ no
      · rw [if_neg first]
        refine ⟨fun _ wrong => ?_, fun _ => .silent rfl⟩
        exact wrong.2.elim rolls first
  · rw [if_neg good]
    exact ⟨fun _ wrong => good wrong.1, fun _ => .silent rfl⟩

/-- After the item itself the lock is closed, so the marks that follow it are lost. -/
theorem commit_emits (known : env.knownChip = true) {single : Bool} {buf : List UInt8}
    {oldSect opSect wItemIdx : Nat} {sectorUpdate : Bool} {d : Dev}
    : Prog.Emits OpenStep env
        (nvFlashWriteNew.commit b single id itemId buf oldSect opSect wItemIdx sectorUpdate) d
      ↔ previousSlot b single id itemId buf.length opSect d.mem = none
        ∧ ¬(nvWriteItem.readsBack b id itemId opSect wItemIdx buf env d
          ∧ (sectorUpdate = true ∨ wItemIdx = 0)) := by
  obtain ⟨item, closed⟩ := nvWriteItem_opened (b := b) known id itemId opSect wItemIdx (.ram buf) d
  rw [← nvWriteItem_succ_iff]
  unfold nvFlashWriteNew.commit
  rw [Prog.emits_bind, Prog.emits_bind, Prog.emits_bind, Prog.emits_bind, Prog.run_view,
    markDeleted_emits closed, markSectors_emits (by rw [markDeleted_lock]; exact closed)]
  have finish (ret : NvSts) (d' : Dev)
      : Prog.Emits OpenStep env (flashLock >>= fun _ => pure ret) d' :=
    .skip (trace_flashLock env d') (.silent rfl)
  constructor
  · rintro ⟨-, -, previous, flags, -⟩
    exact ⟨previous, flags⟩
  · rintro ⟨previous, flags⟩
    exact ⟨.silent rfl, item, previous, flags, finish _ _⟩

/-- Copying opens the lock for each item, by induction on the slots. -/
theorem copyRead_emits (known : env.knownChip = true) (single : Bool) (opSect : Nat)
    (l : List InfoIdx) (copied : NvCopied) (d : Dev)
    : Prog.Emits OpenStep env (nvFlashWriteNew.copyRead b single id itemId opSect l copied) d := by
  induction l generalizing copied d with
  | nil => exact .silent rfl
  | cons e rest ih =>
      rw [nvFlashWriteNew.copyRead]
      split
      · refine Prog.Emits.bind (nvWriteItem_opened known _ _ _ _ _ d).emits ?_
        split
        · exact ih _ _
        · exact .silent rfl
      · exact ih _ _

theorem copyLive_emits (known : env.knownChip = true) (single : Bool) (opSect fuel total start : Nat)
    (copied : NvCopied) (d : Dev)
    : Prog.Emits OpenStep env
        (nvFlashWriteNew.copyLive b single id itemId opSect fuel total start copied) d := by
  induction fuel generalizing total start copied d with
  | zero => exact .silent rfl
  | succ fuel ih =>
      rw [nvFlashWriteNew.copyLive]
      split
      · refine Prog.Emits.skip rfl (Prog.Emits.bind (copyRead_emits known single opSect _ _ _) ?_)
        split
        · exact ih _ _ _ _
        · exact .silent rfl
      · exact .silent rfl

theorem update_emits (known : env.knownChip = true) (single : Bool) (len oldSect opSect : Nat)
    {d : Dev} (opened : d.locked = false)
    : Prog.Emits OpenStep env (nvFlashWriteNew.update b single id itemId len oldSect opSect) d := by
  refine Prog.Emits.bind (Opened.eraseSectors opened _ _).emits
    (Prog.Emits.bind (copyLive_emits known single opSect _ _ _ _ _) ?_)
  split
  · exact .silent rfl
  · split <;> exact .silent rfl

theorem commit_lock (known : env.knownChip = true) {single : Bool} {buf : List UInt8}
    {oldSect opSect wItemIdx : Nat} {sectorUpdate : Bool} {d : Dev}
    : (Prog.run env (nvFlashWriteNew.commit b single id itemId buf oldSect opSect wItemIdx
        sectorUpdate) d).2.locked = true := by
  unfold nvFlashWriteNew.commit
  simp only [Prog.run_bind, run_flashLock, Prog.run_pure]
  rw [lockTo, known]
  rfl

theorem proceed_lock (known : env.knownChip = true) {single : Bool} {buf : List UInt8}
    {oldSect opSect : Nat} (prepared : Except NvSts Nat) {d : Dev}
    : (Prog.run env (nvFlashWriteNew.proceed b single id itemId buf oldSect opSect prepared)
        d).2.locked = true := by
  cases prepared with
  | error ret =>
      simp only [nvFlashWriteNew.proceed, Prog.run_bind, run_flashLock, Prog.run_pure]
      rw [lockTo, known]
      rfl
  | ok wItemIdx => exact commit_lock known

/-- Every exit of `nv_flashWriteNew` leaves the lock closed. -/
theorem nvFlashWriteNew_lock (known : env.knownChip = true) (single : Bool) (buf : List UInt8)
    {d : Dev} (closed : d.locked = true)
    : (Prog.run env (nvFlashWriteNew b single id itemId buf) d).2.locked = true := by
  by_cases admitted : Admitted id buf.length
  · rw [(nvFlashWriteNew_continues env b single itemId admitted d).run, nvFlashWriteNew.placed]
    split
    · rw [Prog.run_bind]
      exact proceed_lock known _
    · exact commit_lock known
  · rw [(nvFlashWriteNew_refused single admitted).2]
    exact closed

end Write

/-- The items that move when the sector `oldSect` rolls over. -/
def nvFlashWriteNew.moves (b : Build) (single : Bool) (id : Nat) (itemId : UInt8) (oldSect : Nat)
    (m : Mem) : List InfoIdx :=
  (readIndexes m (moduleIdxStart b id oldSect) (moduleIdxNum id)).filter
    (nvFlashWriteNew.keeps single itemId)

/-- A rollover gives up before the new item: a buffer is refused, or the items that move leave
no slot or no room.
-/
def nvFlashWriteNew.GivesUp (b : Build) (single : Bool) (id : Nat) (itemId : UInt8)
    (len oldSect : Nat) (env : Env) (d : Dev) : Prop :=
  let opSect := (oldSect + 1) % moduleSectorNum
  let moves := nvFlashWriteNew.moves b single id itemId oldSect d.mem
  (∃ i < moves.length, env.noBuffer (d.allocs + i) = true)
    ∨ moves.length = moduleIdxNum id
    ∨ nextFree (moduleContextStart b id opSect) moves + (len + 8) > moduleSectEnd b id opSect

/-- A rollover whose commands are not skipped, out of a table whose valid entries are items that
fit into a sector.
-/
structure RegularRollover (b : Build) (single : Bool) (id : Nat) (itemId : UInt8) (oldSect : Nat)
    (env : Env) (m : Mem) : Prop where
  supplied : ∀ n, env.lowVoltage n = false
  module : id < nvMaxModuls
  sector : oldSect < moduleSectorNum
  sizes : ∀ e ∈ nvFlashWriteNew.moves b single id itemId oldSect m, 8 ≤ e.size
  fits : nextFree (moduleContextStart b id ((oldSect + 1) % moduleSectorNum))
    (nvFlashWriteNew.moves b single id itemId oldSect m)
      ≤ moduleSectEnd b id ((oldSect + 1) % moduleSectorNum)

section Rollover

variable {env : Env} {b : Build} {single : Bool} {id oldSect : Nat} {itemId : UInt8} {d : Dev}

/-- A regular rollover gives up, or it leaves a chain with room for the new item. -/
theorem RegularRollover.outcome
    (regular : RegularRollover b single id itemId oldSect env d.mem) (known : env.knownChip = true)
    (opened : d.locked = false) {buf : List UInt8} (short : buf.length < u16Mod)
    : match (Prog.run env (nvFlashWriteNew.update b single id itemId buf.length oldSect
          ((oldSect + 1) % moduleSectorNum)) d) with
      | (.error _, _) => nvFlashWriteNew.GivesUp b single id itemId buf.length oldSect env d
      | (.ok wItemIdx, d') =>
          ¬nvFlashWriteNew.GivesUp b single id itemId buf.length oldSect env d
            ∧ nvWriteItem.readsBack b id itemId ((oldSect + 1) % moduleSectorNum) wItemIdx buf
              env d' := by
  obtain ⟨supplied, module, sector, sizes, fits⟩ := regular
  obtain ⟨id, rfl⟩ : ∃ i : Fin nvMaxModuls, id = i := ⟨⟨id, module⟩, rfl⟩
  obtain ⟨k, rfl⟩ : ∃ k : Fin 2, oldSect = k := ⟨⟨oldSect, sector⟩, rfl⟩
  have newSect : (k.val + 1) % moduleSectorNum = (otherSect k).val := otherSect_val k
  have limit := @moduleSector_limit b id (otherSect k)
  have context := @moduleSector_ctx b id (otherSect k)
  simp only [nvFlashWriteNew.GivesUp, newSect, ← limit, ← context] at fits ⊢
  have emits := @update_emits env b id itemId known single buf.length k (otherSect k) d opened
  obtain ⟨-, outcome⟩ := (update_meets single itemId buf.length (otherSect_ne k) short sizes
    fits).opened supplied emits
  generalize Prog.run env (nvFlashWriteNew.update b single id itemId buf.length k (otherSect k)) d
    = result at outcome
  obtain ⟨ret, d'⟩ := result
  cases ret with
  | error ret => exact outcome.2.2
  | ok wItemIdx =>
      obtain ⟨erased, es, blank, moved, rfl, room, place⟩ := outcome
      refine ⟨?_, ?_⟩
      · rintro (⟨i, inside, refused⟩ | full | tight)
        · have granted := moved.granted i inside
          rw [blank.allocs, refused] at granted
          contradiction
        · have count := moved.length
          have slots : moduleIdxNum id = (moduleSector b id (otherSect k)).slots := rfl
          have moves : (nvFlashWriteNew.moves b single id itemId k d.mem)
            = liveItems b single id itemId k d.mem := rfl
          rw [moves] at full
          omega
        · rw [moved.free] at place
          exact absurd place (Nat.not_le.mpr tight)
      · obtain ⟨-, -, status, -⟩ := (nvWriteItem_meets itemId (.ram buf) moved.chain room
          place).opened supplied (nvWriteItem_opened known _ _ _ _ _ d').emits
        rw [← nvWriteItem_succ_iff]
        exact status (Or.inr known) (Or.inl (supplied _))

theorem lockTo_lockTo (env : Env) (value : Bool) (d : Dev)
    : lockTo env value (lockTo env value d) = lockTo env value d := by
  unfold lockTo
  split <;> rfl

end Rollover

/-- A write that marks nothing after its item: it is refused, it gives up in the rollover, or it
adds an item without previous value behind the first slot or with a checksum error.
-/
def nvFlashWriteNew.MarksNothing (b : Build) (single : Bool) (id : Nat) (itemId : UInt8)
    (buf : List UInt8) (env : Env) (d : Dev) : Prop :=
  nvSectorSize id < itemTotalLen buf.length + moduleInfoSize id
    ∨ let place := nvFlashWriteNew.place b d.mem id buf.length
      if place.sectorUpdate
      then nvFlashWriteNew.GivesUp b single id itemId buf.length place.opSect env d
      else previousSlot b single id itemId buf.length place.opSect d.mem = none
        ∧ (place.wItemIdx = 0
          → ¬nvWriteItem.readsBack b id itemId place.opSect place.wItemIdx buf env d)

/-- An item without previous value behind the first slot needs no mark. -/
theorem nvFlashWriteNew.marksNothing_behind {b : Build} {single : Bool} {id : Nat} {itemId : UInt8}
    {buf : List UInt8} {env : Env} {d : Dev}
    (stays : ¬(nvFlashWriteNew.place b d.mem id buf.length).sectorUpdate = true)
    (fresh : previousSlot b single id itemId buf.length
      (nvFlashWriteNew.place b d.mem id buf.length).opSect d.mem = none)
    (behind : (nvFlashWriteNew.place b d.mem id buf.length).wItemIdx ≠ 0)
    : nvFlashWriteNew.MarksNothing b single id itemId buf env d := by
  right
  dsimp only
  rw [if_neg stays]
  exact ⟨fresh, fun first => absurd first behind⟩

/-- The rollover of a write, if it makes one, is a regular one. -/
def nvFlashWriteNew.Regular (b : Build) (single : Bool) (id : Nat) (itemId : UInt8)
    (buf : List UInt8) (env : Env) (m : Mem) : Prop :=
  buf.length < u16Mod
    ∧ ((nvFlashWriteNew.place b m id buf.length).sectorUpdate = true
      → RegularRollover b single id itemId (nvFlashWriteNew.place b m id buf.length).opSect env m)

theorem nvFlashWriteNew_emits {env : Env} {b : Build} {single : Bool} {id : Nat} {itemId : UInt8}
    {buf : List UInt8} {d : Dev} (known : env.knownChip = true)
    (regular : nvFlashWriteNew.Regular b single id itemId buf env d.mem)
    : Prog.Emits OpenStep env (nvFlashWriteNew b single id itemId buf) d
      ↔ nvFlashWriteNew.MarksNothing b single id itemId buf env d := by
  obtain ⟨short, rollover⟩ := regular
  unfold nvFlashWriteNew.MarksNothing
  by_cases long : nvSectorSize id < itemTotalLen buf.length + moduleInfoSize id
  · have refused := (@nvFlashWriteNew_refused b env id itemId buf d single (Nat.not_le.mpr long)).1
    exact ⟨fun _ => Or.inl long, fun _ => .silent refused⟩
  · have opened := (Opened.unlock known d).2
    rw [run_flashUnlock] at opened
    rw [(nvFlashWriteNew_continues env b single itemId (Nat.not_lt.mp long) d).emits_iff,
      nvFlashWriteNew.placed, or_iff_right long]
    dsimp only at opened ⊢
    by_cases rolls : (nvFlashWriteNew.place b d.mem id buf.length).sectorUpdate = true
    · have outcome := @RegularRollover.outcome env b single id _ itemId (lockTo env false d)
        (rollover rolls) known opened buf short
      have emits := @update_emits env b id itemId known single buf.length
        (nvFlashWriteNew.place b d.mem id buf.length).opSect
        (((nvFlashWriteNew.place b d.mem id buf.length).opSect + 1) % moduleSectorNum) _ opened
      rw [if_pos rolls, if_pos rolls, Prog.emits_bind, and_iff_right emits]
      generalize Prog.run env (nvFlashWriteNew.update b single id itemId buf.length _ _)
        (lockTo env false d) = result at outcome
      obtain ⟨ret, d'⟩ := result
      cases ret with
      | error ret => exact ⟨fun _ => outcome, fun _ => .skip (trace_flashLock env d') (.silent rfl)⟩
      | ok wItemIdx =>
          refine ⟨fun commits => ?_, fun gives => absurd gives outcome.1⟩
          exact absurd ⟨outcome.2, Or.inl rfl⟩ ((commit_emits known).mp commits).2
    · rw [if_neg rolls, if_neg rolls, commit_emits known]
      have same (opSect wItemIdx : Nat)
          : nvWriteItem.readsBack b id itemId opSect wItemIdx buf env (lockTo env false d)
            ↔ nvWriteItem.readsBack b id itemId opSect wItemIdx buf env d := by
        unfold nvWriteItem.readsBack
        rw [lockTo_lockTo, lockTo_mem]
      rw [same, lockTo_mem]
      refine and_congr_right fun _ => ⟨fun marks first back => marks ⟨back, Or.inr first⟩, ?_⟩
      rintro marks ⟨back, no | first⟩
      · cases no
      · exact marks first back

-----------------------------------------------------------------------------------------
-- Runs
-----------------------------------------------------------------------------------------

/-- The calls that drive the flash. The OTA handlers are called with the events of the client,
`ota_mcuReboot` by the handler of an accepted STOP.
-/
inductive FlashCall where
  | writeNew (single : Bool) (id : Nat) (itemId : UInt8) (buf : List UInt8)
  | deleteByIndex (id opSect opIdx : Nat)
  | resetModule (modules : Nat)
  | saveFrameCount (frameCount : Nat)
  | resetToFactoryNew
  | ota (e : OtaEvent)

def FlashCall.prog (k : OtaBuild) (b : Build) (s : OtaClient) : FlashCall → Prog OtaClient
  | .writeNew single id itemId buf => do let _ ← nvFlashWriteNew b single id itemId buf; pure s
  | .deleteByIndex id opSect opIdx => do let _ ← nvItemDeleteByIndex b id opSect opIdx; pure s
  | .resetModule modules => do let _ ← nvResetModule b modules; pure s
  | .saveFrameCount frameCount => do let _ ← nvNwkFrameCountSaveToFlash b frameCount; pure s
  | .resetToFactoryNew => do let _ ← nvResetToFactoryNew b; pure s
  | .ota e => e.handler k s

def OtaWorld.call (k : OtaBuild) (b : Build) (env : Env) (w : OtaWorld) (c : FlashCall)
    : OtaWorld :=
  let (client, d) := Prog.run env (c.prog k b w.client) w.dev
  { client, mem := d.mem, locked := d.locked }

/-- The worlds that calls reach from a start with a closed lock, on a chip with a lock that
works.
-/
inductive CallReached (k : OtaBuild) (b : Build) : OtaWorld → Prop where
  | boot (m : Mem) : CallReached k b { client := otaPowerUp k m, mem := m, locked := true }
  | call {w : OtaWorld} (before : CallReached k b w) (env : Env) (known : env.knownChip = true)
      (c : FlashCall)
      : CallReached k b (w.call k b env c)

/-- A call that issues nothing behind a closed lock. -/
def FlashCall.Safe (k : OtaBuild) (b : Build) (env : Env) (w : OtaWorld) : FlashCall → Prop
  | .writeNew single id itemId buf => nvFlashWriteNew.MarksNothing b single id itemId buf env w.dev
  | .ota (.startRsp pHdr) => otaStartRspHandler.accepts k w.client pHdr = false
  | _ => True

def FlashCall.Regular (b : Build) (env : Env) (w : OtaWorld) : FlashCall → Prop
  | .writeNew single id itemId buf => nvFlashWriteNew.Regular b single id itemId buf env w.mem
  | _ => True

section Runs

variable {k : OtaBuild} {b : Build} {env : Env} {w : OtaWorld}

/-- Every call closes the lock again. -/
theorem FlashCall.closes (known : env.knownChip = true) (closed : w.locked = true) (c : FlashCall)
    : (w.call k b env c).locked = true := by
  have start : w.dev.locked = true := closed
  cases c with
  | writeNew single id itemId buf =>
      simp only [OtaWorld.call, FlashCall.prog, Prog.run_bind, Prog.run_pure]
      exact nvFlashWriteNew_lock known single buf start
  | deleteByIndex id opSect opIdx =>
      simp only [OtaWorld.call, FlashCall.prog, Prog.run_bind, Prog.run_pure]
      exact (nvItemDeleteByIndex_opened known id opSect opIdx w.dev).lock
  | resetModule modules =>
      simp only [OtaWorld.call, FlashCall.prog, Prog.run_bind, Prog.run_pure]
      exact (nvResetModule_opened known modules w.dev).lock
  | saveFrameCount frameCount =>
      simp only [OtaWorld.call, FlashCall.prog, Prog.run_bind, Prog.run_pure]
      exact (nvNwkFrameCountSaveToFlash_opened known frameCount w.dev).lock
  | resetToFactoryNew =>
      simp only [OtaWorld.call, FlashCall.prog, Prog.run_bind, Prog.run_pure]
      exact (nvResetToFactoryNew_opened known w.dev start).lock
  | ota e =>
      cases e with
      | startRsp pHdr => exact (otaStartRspHandler_lock pHdr).trans start
      | dataRsp pHdr => exact (otaDataRspHandler_opened known pHdr start).lock
      | stopRsp pHdr => exact (otaStopRspHandler_opened known pHdr start).lock
      | retryTimer => exact start
      | queryTimer => exact start

/-- The lock is closed between the calls of a run, by induction on the run. -/
theorem CallReached.closed (reached : CallReached k b w) : w.locked = true := by
  induction reached with
  | boot m => rfl
  | call _ env known c ih => exact FlashCall.closes known ih c

theorem FlashCall.emits (known : env.knownChip = true) (closed : w.locked = true) {c : FlashCall}
    (regular : c.Regular b env w)
    : Prog.Emits OpenStep env (c.prog k b w.client) w.dev ↔ c.Safe k b env w := by
  have start : w.dev.locked = true := closed
  have nv {α : Type} {p : Prog α} (emits : Prog.Emits OpenStep env p w.dev)
      : Prog.Emits OpenStep env (p >>= fun _ => pure w.client) w.dev ↔ True :=
    iff_true_intro (emits.bind (.silent rfl))
  cases c with
  | writeNew single id itemId buf =>
      refine Iff.trans ?_ (nvFlashWriteNew_emits known regular)
      exact ⟨fun emits => (Prog.emits_bind.mp emits).1, fun emits => emits.bind (.silent rfl)⟩
  | deleteByIndex id opSect opIdx => exact nv (nvItemDeleteByIndex_opened known _ _ _ _).emits
  | resetModule modules => exact nv (nvResetModule_opened known _ _).emits
  | saveFrameCount frameCount => exact nv (nvNwkFrameCountSaveToFlash_opened known _ _).emits
  | resetToFactoryNew => exact nv (nvResetToFactoryNew_opened known _ start).emits
  | ota e =>
      cases e with
      | startRsp pHdr => exact otaStartRspHandler_emits pHdr start
      | dataRsp pHdr => exact iff_true_intro (otaDataRspHandler_opened known pHdr start).emits
      | stopRsp pHdr => exact iff_true_intro (otaStopRspHandler_opened known pHdr start).emits
      | retryTimer => exact iff_true_intro (.silent rfl)
      | queryTimer => exact iff_true_intro (.silent rfl)

end Runs

/-- In every run the lock is closed after each call, and a call issues all its commands while it
is open exactly if it marks nothing behind an item and accepts no START.
-/
theorem flash_protected {k : OtaBuild} {b : Build} {w : OtaWorld} (reached : CallReached k b w)
    {env : Env} (known : env.knownChip = true) {c : FlashCall} (regular : c.Regular b env w)
    : (w.call k b env c).locked = true
      ∧ (Prog.Emits OpenStep env (c.prog k b w.client) w.dev ↔ c.Safe k b env w) :=
  ⟨FlashCall.closes known reached.closed c, FlashCall.emits known reached.closed regular⟩

/-- An erased flash on a chip that ignores commands while it is locked, after a first write. -/
def guardedFirstWrite : OtaWorld :=
  OtaWorld.call build8258 ⟨false, false⟩ { lockGuards := true }
    { client := otaPowerUp build8258 Mem.blank, mem := Mem.blank, locked := true }
    (.writeNew true 0 1 [7])

/-- The second item of a module needs no mark. -/
theorem flash_protected_second
    : Prog.Emits OpenStep { lockGuards := true }
        (FlashCall.prog build8258 ⟨false, false⟩ guardedFirstWrite.client
          (.writeNew true 0 2 [9]))
        guardedFirstWrite.dev := by
  have reached : CallReached build8258 ⟨false, false⟩ guardedFirstWrite :=
    (CallReached.boot Mem.blank).call { lockGuards := true } rfl (.writeNew true 0 1 [7])
  refine (flash_protected reached (c := .writeNew true 0 2 [9]) rfl ⟨by decide, ?_⟩).2.mpr
    (nvFlashWriteNew.marksNothing_behind ?_ ?_ ?_)
  · exact fun rolls => absurd rolls (by decide +kernel)
  · decide +kernel
  · decide +kernel
  · decide +kernel

/-- The flag of the first sector is written to a locked chip, so the item is not found. -/
theorem first_write_loses_sector_flag
    : ¬Prog.Emits OpenStep { lockGuards := true }
        (FlashCall.prog build8258 ⟨false, false⟩ (otaPowerUp build8258 Mem.blank)
          (.writeNew true 0 1 [7]))
        { mem := Mem.blank, locked := true }
      ∧ nvFlashReadNew ⟨false, false⟩ guardedFirstWrite.mem 0 1 1 = none := by
  unfold Prog.Emits
  decide +kernel

end TelinkSdk
