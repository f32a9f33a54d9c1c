import TelinkSdk.Ota.BootSlot

/-! Two runs of the client that go on from `OTA_STA_IDLE` with the same events. What earlier
sessions leave behind is the position in the header, and what is stored behind the sectors that
`START_RSP` erases; where these agree, the runs cannot be told apart.
-/

namespace TelinkSdk

open Nor

-----------------------------------------------------------------------------------------
-- Idle clients
-----------------------------------------------------------------------------------------

/-- The variables of an idle client that every error path sets to the same values. -/
structure Cleared (s : OtaClient) : Prop where
  info : s.devOtaInfo = {}
  bin : s.binInfo = {}
  block : s.blockDataCount = 0
  crc : s.crcValue = 0xffffffff
  offset : s.flashOffsetAddr = 0
  timer : s.otaDataReqTimer = false

/-- A client that is idle is cleared. -/
abbrev ClearedIdle (s : OtaClient) : Prop := s.otaState = .staIdle → Cleared s

section Cleared

variable {k : OtaBuild} {env : Env} {s : OtaClient} {m : Mem} {d : Dev}

theorem Cleared.abort : Cleared (otaAbort k m s) := ⟨rfl, rfl, rfl, rfl, rfl, rfl⟩

theorem ClearedIdle.send (cleared : ClearedIdle s) (cmdId : OtaReq) (pay : OtaPreamble)
    : ClearedIdle (otaSend cmdId pay s) :=
  fun idle => { cleared idle with }

theorem ClearedIdle.timer (cleared : ClearedIdle s)
    : ClearedIdle (otaPeriodicDataServerCb k m s) := by
  have counted : ClearedIdle { s with otaReqRetryCnt := (s.otaReqRetryCnt + 1) % 256 } :=
    fun idle => { cleared idle with }
  unfold otaPeriodicDataServerCb
  dsimp only
  split
  · exact fun _ => ⟨rfl, rfl, rfl, rfl, rfl, rfl⟩
  · split
    · exact counted.send _ _
    · exact counted.send _ _
    · exact counted.send _ _
    · exact counted

/-- A block that could not be stored leaves an empty session, which has no next block. -/
theorem ClearedIdle.next (aborted : s.otaState = .staIdle → s.devOtaInfo.imageSize = 0)
    : ClearedIdle (otaDataRspHandler.next k s m) := by
  unfold otaDataRspHandler.next
  split
  · split
    · exact fun no => by cases no
    · exact fun _ => Cleared.abort
  · rename_i missing
    intro idle
    have empty := aborted idle
    omega

/-- A session goes on with the announced size, or it is given up. -/
theorem Session.process_info (session : Session k s m) (busy : s.otaState ≠ .staIdle)
    (payload : Mem) {len : Nat} (positive : 0 < len)
    : (Prog.run env (otaDataProcess k len payload s) d).1.otaState ≠ .staIdle
        ∧ (Prog.run env (otaDataProcess k len payload s) d).1.devOtaInfo = s.devOtaInfo
      ∨ (Prog.run env (otaDataProcess k len payload s) d).1.devOtaInfo.imageSize = 0 := by
  rcases @Session.process_eq k s m session payload len positive with
    ⟨s', shape, same, -, quiet⟩ | ⟨i, s', shape, same, storing⟩
  · rw [shape]
    exact Or.inl ⟨fun idle => busy (quiet idle), same.info⟩
  · obtain ⟨bytes, crcValue, -, -, write⟩ := @otaDataProcess.store_eq k s' payload (len - i) i
    rw [shape, write, Prog.run_bind]
    split
    · exact Or.inl ⟨(fun idle => by cases storing.state.symm.trans idle), same.info⟩
    · exact Or.inr rfl

/-- Every event leaves an idle client cleared. -/
theorem ClearedIdle.step {w : OtaWorld} (cleared : ClearedIdle w.client)
    (session : Session k w.client w.mem) (env : Env) (e : OtaEvent)
    : ClearedIdle (w.step k env e).client := by
  cases e with
  | startRsp pHdr =>
      simp only [OtaWorld.step, OtaEvent.handler, otaStartRspHandler]
      split
      · simp only [Prog.run_bind, Prog.run_pure]
        exact fun no => by cases no
      · exact cleared
  | dataRsp pHdr =>
      simp only [OtaWorld.step, OtaEvent.handler, otaDataRspHandler]
      split
      · exact cleared
      · rename_i busy
        split
        · split
          · exact fun _ => Cleared.abort
          · rename_i nonempty
            have positive : 0 < pHdr.payloadSize.toNat :=
              Nat.pos_of_ne_zero (fun zero => nonempty (UInt8.toNat_inj.mp zero))
            simp only [Prog.run_bind, run_flashUnlock, run_flashLock, Prog.run_view, lockTo_mem]
            apply ClearedIdle.next
            intro idle
            rcases session.process_info busy pHdr.payload positive with ⟨going, -⟩ | empty
            · exact absurd idle going
            · exact empty
        · exact cleared
  | stopRsp pHdr =>
      simp only [OtaWorld.step, OtaEvent.handler, otaStopRspHandler]
      split
      · exact cleared
      · split
        · simp only [otaMcuReboot, Prog.run_bind, Prog.run_view]
          exact fun _ => ⟨rfl, rfl, rfl, rfl, rfl, rfl⟩
        · exact fun _ => Cleared.abort
  | retryTimer => exact cleared.timer
  | queryTimer => exact cleared.send _ _

theorem OtaReached.cleared {w : OtaWorld} (reached : OtaReached k w) : ClearedIdle w.client := by
  induction reached with
  | boot m locked => exact fun _ => ⟨rfl, rfl, rfl, rfl, rfl, rfl⟩
  | event before env e ih => exact ih.step before.session env e

end Cleared

-----------------------------------------------------------------------------------------
-- Twins
-----------------------------------------------------------------------------------------

/-- The variables in which two clients may differ all the time: the frame counter, the frames
sent so far, and what the timers of earlier sessions left behind.
-/
structure Labels where
  otaReqRetryCnt : Nat
  otaDataCb : Option OtaReq
  otaQueryTimer : Bool
  tlAppDataSeqNo : UInt8
  sent : List OtaCmd

def OtaClient.labels (s : OtaClient) : Labels :=
  {
    otaReqRetryCnt := s.otaReqRetryCnt
    otaDataCb := s.otaDataCb
    otaQueryTimer := s.otaQueryTimer
    tlAppDataSeqNo := s.tlAppDataSeqNo
    sent := s.sent
  }

def OtaClient.relabel (s : OtaClient) (l : Labels) : OtaClient :=
  { s with
    otaReqRetryCnt := l.otaReqRetryCnt
    otaDataCb := l.otaDataCb
    otaQueryTimer := l.otaQueryTimer
    tlAppDataSeqNo := l.tlAppDataSeqNo
    sent := l.sent }

/-- What a request says, without its sequence number. -/
def OtaCmd.content (cmd : OtaCmd) : OtaReq × OtaPreamble := (cmd.cmdId, cmd.pay)

/-- Two clients have sent the same requests since they had sent `p₁` and `p₂`. -/
def SameRequests (p₁ p₂ : List (OtaReq × OtaPreamble)) (sent₁ sent₂ : List OtaCmd) : Prop :=
  ∃ since, sent₁.map OtaCmd.content = p₁ ++ since ∧ sent₂.map OtaCmd.content = p₂ ++ since

/-- Two clients that differ in their labels have sent the same requests, and in a session their
retry timers do the same.
-/
structure Matched (p₁ p₂ : List (OtaReq × OtaPreamble)) (s : OtaClient) (l : Labels) : Prop where
  requests : SameRequests p₁ p₂ s.sent l.sent
  busy : s.otaState ≠ .staIdle
    → l.otaReqRetryCnt = s.otaReqRetryCnt ∧ l.otaDataCb = s.otaDataCb

/-- The second client is the first one with other labels. -/
def Twin (p₁ p₂ : List (OtaReq × OtaPreamble)) (s₁ s₂ : OtaClient) : Prop :=
  ∃ l, s₂ = s₁.relabel l ∧ Matched p₁ p₂ s₁ l

/-- The two runs issue the same commands, keep every byte equal that was, and end in twins. -/
structure TwinRuns (p₁ p₂ : List (OtaReq × OtaPreamble)) (env : Env) (first second : Prog OtaClient)
    (d₁ d₂ : Dev) : Prop where
  twin : Twin p₁ p₂ (first.run env d₁).1 (second.run env d₂).1
  cmds : (first.trace env d₁).map Step.cmd = (second.trace env d₂).map Step.cmd
  mem : ∀ x, d₁.mem x = d₂.mem x → (first.run env d₁).2.mem x = (second.run env d₂).2.mem x

section Twins

variable {k : OtaBuild} {env : Env} {p₁ p₂ : List (OtaReq × OtaPreamble)} {s s₁ s₂ : OtaClient}
  {l : Labels} {d₁ d₂ : Dev} {m₁ m₂ : Mem}

theorem TwinRuns.pure (twin : Twin p₁ p₂ s₁ s₂)
    : TwinRuns p₁ p₂ env (pure s₁) (pure s₂) d₁ d₂ :=
  ⟨twin, rfl, fun _ same => same⟩

theorem TwinRuns.view {f₁ f₂ : Mem → OtaClient} (twin : Twin p₁ p₂ (f₁ d₁.mem) (f₂ d₂.mem))
    : TwinRuns p₁ p₂ env (Prog.view f₁) (Prog.view f₂) d₁ d₂ :=
  ⟨twin, rfl, fun _ same => same⟩

theorem SameRequests.send {sent₁ sent₂ : List OtaCmd} (same : SameRequests p₁ p₂ sent₁ sent₂)
    {cmd₁ cmd₂ : OtaCmd} (content : cmd₁.content = cmd₂.content)
    : SameRequests p₁ p₂ (sent₁ ++ [cmd₁]) (sent₂ ++ [cmd₂]) := by
  obtain ⟨since, first, second⟩ := same
  refine ⟨since ++ [cmd₁.content], ?_, ?_⟩
  · rw [List.map_append, first, List.append_assoc]
    rfl
  · rw [List.map_append, second, List.append_assoc, content]
    rfl

/-- A request that both clients send. -/
theorem Twin.send (twin : Twin p₁ p₂ s₁ s₂) (cmdId : OtaReq) (pay : OtaPreamble)
    : Twin p₁ p₂ (otaSend cmdId pay s₁) (otaSend cmdId pay s₂) := by
  obtain ⟨l, rfl, requests, busy⟩ := twin
  exact ⟨(otaSend cmdId pay (s₁.relabel l)).labels, rfl, requests.send rfl, busy⟩

/-- A session that is given up leaves nothing of its retries. -/
theorem Twin.abort (twin : Twin p₁ p₂ s₁ s₂) (boot : mcuBootAddrGet k m₁ = mcuBootAddrGet k m₂)
    : Twin p₁ p₂ (otaAbort k m₁ s₁) (otaAbort k m₂ s₂) := by
  obtain ⟨l, rfl, requests, -⟩ := twin
  refine ⟨(otaAbort k m₂ (s₁.relabel l)).labels, ?_, requests, fun no => absurd rfl no⟩
  simp only [otaAbort, otaQueryStart, otaInit, OtaClient.relabel, OtaClient.labels, boot]

/-- Both clients send a request and start the retry timer again, which repeats it. -/
theorem Twin.ask (twin : Twin p₁ p₂ s₁ s₂) (otaState : OtaSta) (cmdId : OtaReq)
    (pay : OtaPreamble)
    : Twin p₁ p₂
        (otaDataReqRetry { otaSend cmdId pay { s₁ with otaState } with otaDataCb := some cmdId })
        (otaDataReqRetry
          { otaSend cmdId pay { s₂ with otaState } with otaDataCb := some cmdId }) := by
  obtain ⟨l, rfl, requests, -⟩ := twin
  exact ⟨OtaClient.labels (otaDataReqRetry
      { otaSend cmdId pay { s₁.relabel l with otaState } with otaDataCb := some cmdId }),
    rfl, requests.send rfl, fun _ => ⟨rfl, rfl⟩⟩

/-- The retry timers of two clients in a session do the same. -/
theorem Twin.timer (twin : Twin p₁ p₂ s₁ s₂) (busy : s₁.otaState ≠ .staIdle)
    (boot : mcuBootAddrGet k m₁ = mcuBootAddrGet k m₂)
    : Twin p₁ p₂ (otaPeriodicDataServerCb k m₁ s₁) (otaPeriodicDataServerCb k m₂ s₂) := by
  obtain ⟨⟨retries, cb, query, seqNo, sent⟩, rfl, requests, same⟩ := twin
  obtain ⟨rfl, rfl⟩ := same busy
  have counted (otaReqRetryCnt : Nat) : Twin p₁ p₂ { s₁ with otaReqRetryCnt }
      { s₁ with
        otaReqRetryCnt
        otaQueryTimer := query
        tlAppDataSeqNo := seqNo
        sent } :=
    ⟨⟨otaReqRetryCnt, s₁.otaDataCb, query, seqNo, sent⟩, rfl, requests, fun _ => ⟨rfl, rfl⟩⟩
  unfold otaPeriodicDataServerCb
  dsimp only [OtaClient.relabel]
  split
  · have given := (counted 0).abort boot
    exact given
  · generalize (s₁.otaReqRetryCnt + 1) % 256 = otaReqRetryCnt
    split
    · exact (counted otaReqRetryCnt).send .dataReq _
    · exact (counted otaReqRetryCnt).send .stopReq _
    · exact (counted otaReqRetryCnt).send .startReq _
    · exact counted otaReqRetryCnt

/-- Both clients read the header alike, by induction on the bytes left. -/
theorem otaDataProcess.header_relabel (payload : Mem) (left i : Nat) (s : OtaClient) (l : Labels)
    : otaDataProcess.header payload left i (s.relabel l)
      = ((otaDataProcess.header payload left i s).1,
          (otaDataProcess.header payload left i s).2.relabel l) := by
  induction left generalizing s i with
  | zero => rfl
  | succ left ih =>
      have starts : otaDataProcess.startsField (s.relabel l) = otaDataProcess.startsField s := rfl
      have field : otaDataProcess.field payload i (s.relabel l)
          = (otaDataProcess.field payload i s).relabel l := by
        unfold otaDataProcess.field
        change (if s.otaHeadercnt = _ then _ else _) = _
        split
        · rfl
        · change (if s.otaHeadercnt = _ then _ else _) = _
          split
          · rfl
          · change (if s.otaHeadercnt = _ then _ else _) = _
            split
            · rfl
            · change (if s.otaHeadercnt = _ then _ else _) = _
              split <;> rfl
      rw [otaDataProcess.header, otaDataProcess.header, starts]
      split
      · rw [field]
        exact ih (i + 1)
          { otaDataProcess.field payload i s with
            otaHeadercnt := ((otaDataProcess.field payload i s).otaHeadercnt + 1) % u32Mod }
      · change (if s.otaHeadercnt = s.otaHeadersize ∧ s.otaHeadersize ≠ 0 then _ else _) = _
        split
        · rfl
        · exact ih (i + 1) { s with otaHeadercnt := (s.otaHeadercnt + 1) % u32Mod }

theorem crcLen_relabel (s : OtaClient) (l : Labels) (otaHeaderbuf datalen : Nat)
    : otaDataProcess.crcLen (s.relabel l) otaHeaderbuf datalen
      = otaDataProcess.crcLen s otaHeaderbuf datalen := by
  have same {s' : OtaClient} (count : s'.otaHeadercnt = s.otaHeadercnt)
      (size : s'.otaHeadersize = s.otaHeadersize) (bin : s'.binInfo = s.binInfo)
      : otaDataProcess.crcLen s' otaHeaderbuf datalen
        = otaDataProcess.crcLen s otaHeaderbuf datalen := by
    unfold otaDataProcess.crcLen
    rw [count, size, bin]
  exact same rfl rfl rfl

/-- Both clients send the same bytes of a block to the flash. -/
theorem otaDataProcess.store_relabel (payload : Mem) (datalen i : Nat) (s : OtaClient) (l : Labels)
    : ∃ bytes stored failed, bytes.length = datalen
      ∧ (stored.labels = s.labels ∧ stored.otaState = s.otaState) ∧ failed.labels = s.labels
      ∧ otaDataProcess.store k payload datalen i s
        = (flashWriteWithCheck (s.newAddr + s.flashOffsetAddr) bytes >>= fun written =>
            if written then pure stored else Prog.view fun m => otaAbort k m failed)
      ∧ otaDataProcess.store k payload datalen i (s.relabel l)
        = (flashWriteWithCheck (s.newAddr + s.flashOffsetAddr) bytes >>= fun written =>
            if written then pure (stored.relabel l)
            else Prog.view fun m => otaAbort k m (failed.relabel l)) := by
  have addr : OtaClient.newAddr
        { s.relabel l with otaHeadercnt := ((s.relabel l).otaHeadercnt + datalen) % u32Mod }
      = s.newAddr := rfl
  have flag : otaDataProcess.flag k
        { s.relabel l with otaHeadercnt := ((s.relabel l).otaHeadercnt + datalen) % u32Mod } datalen
      = otaDataProcess.flag k
        { s with otaHeadercnt := (s.otaHeadercnt + datalen) % u32Mod } datalen := rfl
  have crcLen : otaDataProcess.crcLen
        { s.relabel l with otaHeadercnt := ((s.relabel l).otaHeadercnt + datalen) % u32Mod }
        (s.relabel l).otaHeadercnt datalen
      = otaDataProcess.crcLen { s with otaHeadercnt := (s.otaHeadercnt + datalen) % u32Mod }
        s.otaHeadercnt datalen :=
    crcLen_relabel { s with otaHeadercnt := (s.otaHeadercnt + datalen) % u32Mod } l _ _
  refine ⟨_, _, _, ?_, ?_, ?_, rfl, ?_⟩
  · exact Mem.read_length _ _ _
  · exact ⟨rfl, rfl⟩
  · rfl
  · unfold otaDataProcess.store
    dsimp only at addr flag crcLen ⊢
    rw [addr, flag, crcLen]
    simp only [OtaClient.relabel]

/-- A client keeps its twin when nothing but other variables change. -/
theorem Matched.congr (matched : Matched p₁ p₂ s l) (labels : s₁.labels = s.labels)
    (idle : s₁.otaState ≠ .staIdle → s.otaState ≠ .staIdle)
    : Matched p₁ p₂ s₁ l := by
  have fields := congrArg Labels.sent labels
  have retries := congrArg Labels.otaReqRetryCnt labels
  have cbs := congrArg Labels.otaDataCb labels
  simp only [OtaClient.labels] at fields retries cbs
  obtain ⟨requests, busy⟩ := matched
  refine ⟨fields ▸ requests, fun state => ?_⟩
  rw [retries, cbs]
  exact busy (idle state)

/-- A checked write has the same outcome where the flashes agree. -/
theorem flashWriteWithCheck_twin {addr : Nat} {buf : List UInt8} (unguarded : env.lockGuards = false)
    (issued : d₁.issued = d₂.issued)
    (agree : ∀ x, addr ≤ x → x < addr + buf.length → d₁.mem x = d₂.mem x)
    : (Prog.run env (flashWriteWithCheck addr buf) d₁).1
        = (Prog.run env (flashWriteWithCheck addr buf) d₂).1
      ∧ ∀ x, d₁.mem x = d₂.mem x
        → (d₁.issue env (.program addr buf)).mem x = (d₂.issue env (.program addr buf)).mem x := by
  have kept : ∀ x, d₁.mem x = d₂.mem x
      → (d₁.issue env (.program addr buf)).mem x = (d₂.issue env (.program addr buf)).mem x := by
    intro x same
    simp only [Dev.issue, Step.apply, Dev.step, Env.accepts, unguarded, issued, Bool.false_and]
    split
    · simp only [Cmd.apply, Mem.program, same]
    · exact same
  refine ⟨?_, kept⟩
  simp only [flashWriteWithCheck, Prog.run, issued]
  split
  · apply Bool.eq_iff_iff.mpr
    simp only [Prog.run]
    rw [flashWriteWithCheck.matches_iff _ _ _ _ (Nat.le_refl _),
      flashWriteWithCheck.matches_iff _ _ _ _ (Nat.le_refl _),
      Mem.read_congr (fun i inside => kept (addr + i) (agree _ (by omega) (by omega)))]
  · rfl

/-- Twins store a block alike. -/
theorem TwinRuns.store (twin : Twin p₁ p₂ s₁ s₂) (unguarded : env.lockGuards = false)
    (issued : d₁.issued = d₂.issued) (payload : Mem) {datalen : Nat} (i : Nat)
    (agree : ∀ x, s₁.newAddr + s₁.flashOffsetAddr ≤ x
      → x < s₁.newAddr + s₁.flashOffsetAddr + datalen → d₁.mem x = d₂.mem x)
    (keyword : d₁.mem (otaTlnkKeywordAddroffset k) = d₂.mem (otaTlnkKeywordAddroffset k))
    : TwinRuns p₁ p₂ env (otaDataProcess.store k payload datalen i s₁)
        (otaDataProcess.store k payload datalen i s₂) d₁ d₂ := by
  obtain ⟨l, rfl, matched⟩ := twin
  obtain ⟨bytes, stored, failed, length, ⟨labels, state⟩, aborted, first, second⟩ :=
    @otaDataProcess.store_relabel k payload datalen i s₁ l
  rw [← length] at agree
  obtain ⟨outcome, kept⟩ := flashWriteWithCheck_twin unguarded issued agree
  obtain ⟨device₁, -⟩ := run_flashWriteWithCheck env (s₁.newAddr + s₁.flashOffsetAddr) bytes d₁
  obtain ⟨device₂, -⟩ := run_flashWriteWithCheck env (s₁.newAddr + s₁.flashOffsetAddr) bytes d₂
  have commands (d : Dev) : (Prog.trace env
      (flashWriteWithCheck (s₁.newAddr + s₁.flashOffsetAddr) bytes) d).map Step.cmd
      = [.program (s₁.newAddr + s₁.flashOffsetAddr) bytes] := by
    simp only [flashWriteWithCheck, Prog.trace]
    split <;> rfl
  have boot : mcuBootAddrGet k (d₁.issue env (.program (s₁.newAddr + s₁.flashOffsetAddr) bytes)).mem
      = mcuBootAddrGet k (d₂.issue env (.program (s₁.newAddr + s₁.flashOffsetAddr) bytes)).mem := by
    rw [mcuBootAddrGet, mcuBootAddrGet, kept _ keyword]
  rw [first, second]
  refine ⟨?_, ?_, ?_⟩
  · simp only [Prog.run_bind, outcome, device₁, device₂]
    split
    · exact ⟨l, rfl, matched.congr labels (fun busy => state ▸ busy)⟩
    · have given
          : Twin p₁ p₂ { failed with otaState := s₁.otaState }
              ({ failed with otaState := s₁.otaState }.relabel l) :=
        ⟨l, rfl, matched.congr aborted id⟩
      exact given.abort boot
  · simp only [Prog.trace_bind, List.map_append, commands, outcome]
    split <;> rfl
  · intro x same
    simp only [Prog.run_bind, outcome, device₁, device₂]
    split <;> exact kept x same

/-- Reading the header does not change the labels. -/
theorem otaDataProcess.header_labels (payload : Mem) (left i : Nat) (s : OtaClient)
    : (otaDataProcess.header payload left i s).2.labels = s.labels := by
  have same := otaDataProcess.header_relabel payload left i s s.labels
  have self : s.relabel s.labels = s := rfl
  rw [self] at same
  exact congrArg (fun r => OtaClient.labels r.2) same

/-- The flashes agree but for the part of the new slot behind its first `e` bytes. -/
def SlotAgree (s : OtaClient) (e : Nat) (m₁ m₂ : Mem) : Prop :=
  ∀ x, x < s.newAddr + e ∨ s.newAddr + otaMaxImageSize + 255 ≤ x → m₁ x = m₂ x

theorem SlotAgree.keyword {e : Nat} (agree : SlotAgree s e m₁ m₂) (wide : flashSectorSize ≤ e)
    : m₁ (otaTlnkKeywordAddroffset k) = m₂ (otaTlnkKeywordAddroffset k) := by
  have small := keyword_offset_small k
  exact agree _ (Or.inl (by omega))

/-- The checksum of an image is read from the erased sectors or from outside the slot. -/
theorem SlotAgree.crc {e : Nat} (agree : SlotAgree s e m₁ m₂)
    (wide : erasedSize s.devOtaInfo.imageSize ≤ e)
    (announced : s.devOtaInfo.imageSize < otaMaxImageSize)
    (sized : s.otaHeadersize = 0 ∨ otaHeadLength ≤ s.otaHeadersize ∧ s.otaHeadersize < u16Mod + 6)
    : m₁.le32 s.crcAddr = m₂.le32 s.crcAddr := by
  have slots := @slots_apart s
  have erased := erasedSize_ge s.devOtaInfo.imageSize
  apply Mem.le32_congr
  intro i inside
  apply agree
  simp only [otaMaxImageSize, flashOtaNewimageAddr, u16Mod, otaHeadLength] at *
  simp only [OtaClient.crcAddr, u32Mod]
  omega

/-- Twins take the same bytes of a block for the header and store the rest alike. -/
theorem TwinRuns.process {m : Mem} (twin : Twin p₁ p₂ s₁ s₂) (session : Session k s₁ m)
    (unguarded : env.lockGuards = false) (issued : d₁.issued = d₂.issued) (payload : Mem)
    {len : Nat} (positive : 0 < len) (short : len < 256) {e : Nat} (wide : flashSectorSize ≤ e)
    (agree : SlotAgree s₁ e d₁.mem d₂.mem)
    (inside : s₁.otaState = .staDataing → s₁.flashOffsetAddr + len ≤ e)
    : TwinRuns p₁ p₂ env (otaDataProcess k len payload s₁) (otaDataProcess k len payload s₂)
        d₁ d₂ := by
  have keyword := @SlotAgree.keyword k s₁ d₁.mem d₂.mem e agree wide
  obtain ⟨l, rfl, matched⟩ := twin
  have state' : (s₁.relabel l).otaState = s₁.otaState := rfl
  unfold otaDataProcess
  rw [state']
  by_cases state : s₁.otaState = .staStarting
  · obtain ⟨same, outcome⟩ := (session.reading state).header payload len 0
    have labels := otaDataProcess.header_labels payload len 0 s₁
    rw [if_pos state, if_pos state, otaDataProcess.header_relabel]
    generalize otaDataProcess.header payload len 0 s₁ = r at same outcome labels
    obtain ⟨i, s'⟩ := r
    dsimp only at *
    have twin : Twin p₁ p₂ s' (s'.relabel l) :=
      ⟨l, rfl, matched.congr labels (fun _ idle => by rw [state] at idle; cases idle)⟩
    have relabelled : (s'.relabel l).otaState = s'.otaState := rfl
    rw [relabelled]
    rcases outcome with reading | atImage
    · have going : ¬(s'.otaState = .staDataing ∧ len > 0) := by
        rintro ⟨no, _⟩
        cases reading.state.symm.trans no
      rw [if_neg going, if_neg going]
      exact .pure twin
    · rw [if_pos ⟨atImage.state, positive⟩, if_pos ⟨atImage.state, positive⟩]
      have slot : s'.newAddr = s₁.newAddr := by rw [OtaClient.newAddr, OtaClient.newAddr, same.boot]
      have first := atImage.offset
      refine TwinRuns.store twin unguarded issued payload i (fun x low high => agree x ?_) keyword
      simp only [flashSectorSize] at wide
      omega
  · rw [if_neg state, if_neg state]
    dsimp only
    rw [state']
    split
    · rename_i going
      have fits := inside going.1
      refine TwinRuns.store ⟨l, rfl, matched⟩ unguarded issued payload 0
        (fun x low high => agree x ?_) keyword
      omega
    · exact .pure ⟨l, rfl, matched⟩

/-- Twins go on alike after a block. -/
theorem Twin.next (twin : Twin p₁ p₂ s₁ s₂) (boot : mcuBootAddrGet k m₁ = mcuBootAddrGet k m₂)
    (crc : m₁.le32 s₁.crcAddr = m₂.le32 s₁.crcAddr)
    : Twin p₁ p₂ (otaDataRspHandler.next k s₁ m₁) (otaDataRspHandler.next k s₂ m₂) := by
  obtain ⟨l, rfl, matched⟩ := twin
  have twin : Twin p₁ p₂ s₁ (s₁.relabel l) := ⟨l, rfl, matched⟩
  have addr : (s₁.relabel l).crcAddr = s₁.crcAddr := by
    simp only [OtaClient.crcAddr]
    rfl
  unfold otaDataRspHandler.next
  rw [addr, ← crc]
  change Twin _ _ _ (if s₁.otaHeadercnt ≥ s₁.devOtaInfo.imageSize then
    if m₁.le32 s₁.crcAddr = s₁.crcValue.toNat then _ else _ else _)
  split
  · split
    · exact twin.ask .staEnd .stopReq _
    · have empty : Twin p₁ p₂ { s₁ with devOtaInfo := { s₁.devOtaInfo with imageSize := 0 } }
          { s₁.relabel l with devOtaInfo := { s₁.devOtaInfo with imageSize := 0 } } :=
        ⟨l, rfl, matched.requests, matched.busy⟩
      exact empty.abort boot
  · exact twin.ask s₁.otaState .dataReq _

end Twins

-----------------------------------------------------------------------------------------
-- Pairs of runs
-----------------------------------------------------------------------------------------

/-- The part of the new slot that the session has erased. -/
def OtaClient.erased (s : OtaClient) : Nat :=
  if s.otaState = .staIdle then 0 else erasedSize s.devOtaInfo.imageSize

/-- An event under which a client does not depend on what lies behind the erased sectors. The
retry timer fires only while it runs, and an erase takes effect.
-/
structure SettledEvent (s : OtaClient) (env : Env) (e : OtaEvent) : Prop where
  running : e = .retryTimer → s.otaDataReqTimer = true
  unguarded : env.lockGuards = false
  erases : ∀ pHdr, e = .startRsp pHdr → ∀ n, env.lowVoltage n = false
  inside : ∀ pHdr, e = .dataRsp pHdr → s.otaState = .staDataing
    → s.flashOffsetAddr + pHdr.payloadSize.toNat ≤ erasedSize s.devOtaInfo.imageSize

/-- Two worlds that cannot be told apart by the events to come. -/
structure Pair (k : OtaBuild) (p₁ p₂ : List (OtaReq × OtaPreamble)) (w₁ w₂ : OtaWorld)
    : Prop where
  reached₁ : OtaReached k w₁
  reached₂ : OtaReached k w₂
  twin : Twin p₁ p₂ w₁.client w₂.client
  agree : SlotAgree w₁.client w₁.client.erased w₁.mem w₂.mem

section Pairs

variable {k : OtaBuild} {env : Env} {p₁ p₂ : List (OtaReq × OtaPreamble)} {w₁ w₂ : OtaWorld}
  {e : OtaEvent}

theorem erasedSize_sector (size : Nat) : flashSectorSize ≤ erasedSize size := by
  simp only [erasedSize, flashSectorSize]
  omega

theorem erasedSize_mono {size size' : Nat} (le : size ≤ size')
    : erasedSize size ≤ erasedSize size' := by
  simp only [erasedSize, flashSectorSize]
  omega

/-- A block that both clients accept. -/
theorem Pair.block (pair : Pair k p₁ p₂ w₁ w₂) {pHdr : OtaDataFrame}
    (settled : SettledEvent w₁.client env (.dataRsp pHdr)) (busy : w₁.client.otaState ≠ .staIdle)
    (positive : 0 < pHdr.payloadSize.toNat)
    : TwinRuns p₁ p₂ env
        (do
          flashUnlock
          let s ← otaDataProcess k pHdr.payloadSize.toNat pHdr.payload w₁.client
          flashLock
          Prog.view (otaDataRspHandler.next k
            { s with blockDataCount := (s.blockDataCount + 1) % u32Mod }))
        (do
          flashUnlock
          let s ← otaDataProcess k pHdr.payloadSize.toNat pHdr.payload w₂.client
          flashLock
          Prog.view (otaDataRspHandler.next k
            { s with blockDataCount := (s.blockDataCount + 1) % u32Mod }))
        w₁.dev w₂.dev := by
  have session := pair.reached₁.session
  have agree := pair.agree
  have short : pHdr.payloadSize.toNat < 256 := pHdr.payloadSize.toNat_lt
  rw [OtaClient.erased, if_neg busy] at agree
  have wide := erasedSize_sector w₁.client.devOtaInfo.imageSize
  have runs := @TwinRuns.process k env p₁ p₂ w₁.client w₂.client (lockTo env false w₁.dev)
    (lockTo env false w₂.dev) _ pair.twin session settled.unguarded rfl pHdr.payload _ positive
    short _ wide agree (settled.inside pHdr rfl)
  have slot := (@Session.fills_process k env w₁.client (lockTo env false w₁.dev) _ session
    pHdr.payload _ positive short).same_slot pair.reached₁.agrees
  have tracked := @Session.process k w₁.client _ session env pHdr.payload _ positive short
    (lockTo env false w₁.dev) rfl
  have info := @Session.process_info k env w₁.client _ (lockTo env false w₁.dev) session busy
    pHdr.payload _ positive
  generalize firstEq : Prog.run env (otaDataProcess k pHdr.payloadSize.toNat pHdr.payload w₁.client)
    (lockTo env false w₁.dev) = r₁ at *
  generalize secondEq : Prog.run env (otaDataProcess k pHdr.payloadSize.toNat pHdr.payload w₂.client)
    (lockTo env false w₂.dev) = r₂ at *
  obtain ⟨twin, cmds, kept⟩ := runs
  rw [firstEq, secondEq] at twin kept
  have later : SlotAgree r₁.1 (erasedSize w₁.client.devOtaInfo.imageSize) r₁.2.mem r₂.2.mem := by
    have addr : r₁.1.newAddr = w₁.client.newAddr := by
      rw [OtaClient.newAddr, OtaClient.newAddr, slot]
    intro x place
    rw [addr] at place
    exact kept x (agree x place)
  have narrow : erasedSize r₁.1.devOtaInfo.imageSize
      ≤ erasedSize w₁.client.devOtaInfo.imageSize := by
    apply erasedSize_mono
    rcases info with ⟨-, info⟩ | empty
    · exact Nat.le_of_eq (by rw [info])
    · rw [empty]
      exact Nat.zero_le _
  refine ⟨?_, ?_, ?_⟩
  · simp only [Prog.run_bind, run_flashUnlock, run_flashLock, Prog.run_view, lockTo_mem, firstEq,
      secondEq]
    obtain ⟨l, same, matched⟩ := twin
    have block : (r₁.1.relabel l).blockDataCount = r₁.1.blockDataCount := rfl
    rw [same, block]
    generalize (r₁.1.blockDataCount + 1) % u32Mod = blockDataCount
    have counted : Twin p₁ p₂ { r₁.1 with blockDataCount } { r₁.1.relabel l with blockDataCount } :=
      ⟨l, rfl, matched.requests, matched.busy⟩
    refine counted.next ?_ ?_
    · rw [mcuBootAddrGet, mcuBootAddrGet, later.keyword wide]
    · exact later.crc narrow tracked.announced tracked.sized
  · simp only [Prog.trace_bind, trace_flashUnlock, run_flashUnlock, trace_flashLock, Prog.trace_view,
      List.nil_append, List.append_nil]
    exact cmds
  · simp only [Prog.run_bind, run_flashUnlock, run_flashLock, Prog.run_view, lockTo_mem, firstEq,
      secondEq]
    exact kept

/-- The two clients get a block. -/
theorem Pair.dataRsp (pair : Pair k p₁ p₂ w₁ w₂) {pHdr : OtaDataFrame}
    (settled : SettledEvent w₁.client env (.dataRsp pHdr))
    : TwinRuns p₁ p₂ env (otaDataRspHandler k pHdr w₁.client) (otaDataRspHandler k pHdr w₂.client)
        w₁.dev w₂.dev := by
  have agree := pair.agree
  have twin := pair.twin
  have state : w₂.client.otaState = w₁.client.otaState := by
    obtain ⟨l, same, -⟩ := twin
    rw [same]
    rfl
  have accepts : otaDataRspHandler.accepts w₂.client pHdr
      = otaDataRspHandler.accepts w₁.client pHdr := by
    obtain ⟨l, same, -⟩ := twin
    rw [same]
    rfl
  unfold otaDataRspHandler
  rw [state, accepts]
  split
  · exact .pure twin
  · rename_i busy
    split
    · split
      · rw [OtaClient.erased, if_neg busy] at agree
        have boot : mcuBootAddrGet k w₁.mem = mcuBootAddrGet k w₂.mem := by
          rw [mcuBootAddrGet, mcuBootAddrGet, agree.keyword (erasedSize_sector _)]
        exact .view (twin.abort boot)
      · rename_i nonempty
        exact pair.block settled busy
          (Nat.pos_of_ne_zero (fun zero => nonempty (UInt8.toNat_inj.mp zero)))
    · exact .pure twin

theorem flashEraseSectors_cmds (count addr : Nat) (d₁ d₂ : Dev)
    : (Prog.trace env (flashEraseSectors count addr) d₁).map Step.cmd
      = (Prog.trace env (flashEraseSectors count addr) d₂).map Step.cmd := by
  induction count generalizing addr d₁ d₂ with
  | zero => rfl
  | succ count ih =>
      simp only [flashEraseSectors, Prog.trace_bind, trace_flashErase, run_flashErase,
        List.map_append]
      rw [ih _ (d₁.issue env _) (d₂.issue env _)]
      rfl

/-- The two clients get a `START_RSP`. -/
theorem Pair.startRsp (pair : Pair k p₁ p₂ w₁ w₂) {pHdr : OtaPreamble}
    (settled : SettledEvent w₁.client env (.startRsp pHdr))
    : TwinRuns p₁ p₂ env (otaStartRspHandler k pHdr w₁.client) (otaStartRspHandler k pHdr w₂.client)
        w₁.dev w₂.dev := by
  obtain ⟨l, same, matched⟩ := pair.twin
  rw [same]
  have accepts : otaStartRspHandler.accepts k (w₁.client.relabel l) pHdr
      = otaStartRspHandler.accepts k w₁.client pHdr := rfl
  have slot : (w₁.client.relabel l).newAddr = w₁.client.newAddr := rfl
  have steady : env.Steady := ⟨settled.erases pHdr rfl, settled.unguarded⟩
  unfold otaStartRspHandler
  rw [accepts, slot]
  split
  · have announced : Twin p₁ p₂ { w₁.client with devOtaInfo := pHdr, otaQueryTimer := false }
        { w₁.client.relabel l with devOtaInfo := pHdr, otaQueryTimer := false } :=
      ⟨{ l with otaQueryTimer := false }, rfl, matched.requests, matched.busy⟩
    refine ⟨?_, ?_, ?_⟩
    · simp only [Prog.run_bind, Prog.run_pure]
      exact announced.ask .staStarting .dataReq _
    · simp only [Prog.trace_bind, Prog.trace_pure, List.append_nil]
      exact flashEraseSectors_cmds _ _ _ _
    · intro x equal
      simp only [Prog.run_bind, Prog.run_pure]
      rw [flashEraseSectors_mem steady _ newAddr_aligned, flashEraseSectors_mem steady _ newAddr_aligned,
        equal]
  · exact .pure ⟨l, rfl, matched⟩

/-- The two clients get a `STOP_RSP` that does not make them switch over. -/
theorem Pair.stopRsp (pair : Pair k p₁ p₂ w₁ w₂) {pHdr : OtaPreamble}
    (stays : w₁.reboots (.stopRsp pHdr) = false)
    : TwinRuns p₁ p₂ env (otaStopRspHandler k pHdr w₁.client) (otaStopRspHandler k pHdr w₂.client)
        w₁.dev w₂.dev := by
  have agree := pair.agree
  obtain ⟨l, same, matched⟩ := pair.twin
  rw [same]
  have twin : Twin p₁ p₂ w₁.client (w₁.client.relabel l) := ⟨l, rfl, matched⟩
  have state : (w₁.client.relabel l).otaState = w₁.client.otaState := rfl
  have accepts : otaStopRspHandler.accepts (w₁.client.relabel l) pHdr
      = otaStopRspHandler.accepts w₁.client pHdr := rfl
  unfold otaStopRspHandler
  rw [state, accepts]
  split
  · exact .pure twin
  · rename_i ended
    have ended : w₁.client.otaState = .staEnd := not_not.mp ended
    simp only [OtaWorld.reboots, Bool.and_eq_false_iff, beq_eq_false_iff_ne] at stays
    rcases stays with other | refused
    · exact absurd ended other
    · rw [if_neg (by simp [refused]), if_neg (by simp [refused])]
      rw [OtaClient.erased, if_neg (by rw [ended]; decide)] at agree
      refine .view (twin.abort ?_)
      change mcuBootAddrGet k w₁.mem = mcuBootAddrGet k w₂.mem
      rw [mcuBootAddrGet, mcuBootAddrGet, agree.keyword (erasedSize_sector _)]

/-- The retry timers of the two clients fire. -/
theorem Pair.timer (pair : Pair k p₁ p₂ w₁ w₂) (settled : SettledEvent w₁.client env .retryTimer)
    : Twin p₁ p₂ (otaPeriodicDataServerCb k w₁.mem w₁.client)
        (otaPeriodicDataServerCb k w₂.mem w₂.client) := by
  have busy : w₁.client.otaState ≠ .staIdle := by
    intro idle
    have stopped := (pair.reached₁.cleared idle).timer
    rw [settled.running rfl] at stopped
    cases stopped
  have agree := pair.agree
  rw [OtaClient.erased, if_neg busy] at agree
  apply pair.twin.timer busy
  rw [mcuBootAddrGet, mcuBootAddrGet, agree.keyword (erasedSize_sector _)]

/-- The two clients do the same, but for a switch-over. -/
theorem Pair.runs (pair : Pair k p₁ p₂ w₁ w₂) (settled : SettledEvent w₁.client env e)
    (stays : w₁.reboots e = false)
    : TwinRuns p₁ p₂ env (e.handler k w₁.client) (e.handler k w₂.client) w₁.dev w₂.dev := by
  cases e with
  | startRsp pHdr => exact pair.startRsp settled
  | dataRsp pHdr => exact pair.dataRsp settled
  | stopRsp pHdr => exact pair.stopRsp stays
  | retryTimer => exact .view (pair.timer settled)
  | queryTimer => exact .pure (pair.twin.send _ _)

theorem OtaClient.erased_le {s s' : OtaClient}
    (shrinks : s'.otaState ≠ .staIdle
      → s.otaState ≠ .staIdle ∧ s'.devOtaInfo.imageSize ≤ s.devOtaInfo.imageSize)
    : s'.erased ≤ s.erased := by
  unfold OtaClient.erased
  by_cases idle : s'.otaState = .staIdle
  · rw [if_pos idle]
    exact Nat.zero_le _
  · obtain ⟨busy, le⟩ := shrinks idle
    rw [if_neg idle, if_neg busy]
    exact erasedSize_mono le

theorem otaDataRspHandler.next_info {s : OtaClient} {m : Mem}
    (busy : (otaDataRspHandler.next k s m).otaState ≠ .staIdle)
    : (otaDataRspHandler.next k s m).devOtaInfo = s.devOtaInfo := by
  rcases otaDataRspHandler.next_busy busy with ⟨_, shape⟩ | ⟨_, shape⟩
  · rw [shape]
    rfl
  · rw [shape]
    rfl

/-- A session does not claim more of the slot than it has erased. -/
theorem OtaReached.erased_le (reached : OtaReached k w₁)
    (plain : ∀ pHdr, e = .startRsp pHdr → otaStartRspHandler.accepts k w₁.client pHdr = false)
    : (w₁.step k env e).client.erased ≤ w₁.client.erased := by
  cases e with
  | startRsp pHdr =>
      simp only [OtaWorld.step, OtaEvent.handler, otaStartRspHandler, plain pHdr rfl]
      exact Nat.le_refl _
  | dataRsp pHdr =>
      simp only [OtaWorld.step, OtaEvent.handler, otaDataRspHandler]
      split
      · exact Nat.le_refl _
      · rename_i busy
        split
        · split
          · exact OtaClient.erased_le (fun no => absurd rfl no)
          · rename_i nonempty
            have positive : 0 < pHdr.payloadSize.toNat :=
              Nat.pos_of_ne_zero (fun zero => nonempty (UInt8.toNat_inj.mp zero))
            have info := @Session.process_info k env w₁.client _ (lockTo env false w₁.dev)
              reached.session busy pHdr.payload _ positive
            simp only [Prog.run_bind, run_flashUnlock, run_flashLock, Prog.run_view, lockTo_mem]
            apply OtaClient.erased_le
            intro going
            refine ⟨busy, ?_⟩
            rw [otaDataRspHandler.next_info going]
            rcases info with ⟨-, info⟩ | empty
            · exact Nat.le_of_eq (by rw [info])
            · exact Nat.le_trans (Nat.le_of_eq empty) (Nat.zero_le _)
        · exact Nat.le_refl _
  | stopRsp pHdr =>
      simp only [OtaWorld.step, OtaEvent.handler, otaStopRspHandler]
      split
      · exact Nat.le_refl _
      · split
        · simp only [otaMcuReboot, Prog.run_bind, Prog.run_view]
          exact OtaClient.erased_le (fun no => absurd rfl no)
        · exact OtaClient.erased_le (fun no => absurd rfl no)
  | retryTimer =>
      simp only [OtaWorld.step, OtaEvent.handler, Prog.run_view, otaPeriodicDataServerCb]
      split
      · exact OtaClient.erased_le (fun no => absurd rfl no)
      · split <;> exact Nat.le_refl _
  | queryTimer => exact Nat.le_refl _

/-- A `START_RSP` that is accepted makes the slots equal as far as it erases them. -/
theorem Pair.opened (pair : Pair k p₁ p₂ w₁ w₂) {pHdr : OtaPreamble}
    (settled : SettledEvent w₁.client env (.startRsp pHdr))
    (accepts : otaStartRspHandler.accepts k w₁.client pHdr = true)
    : SlotAgree (w₁.step k env (.startRsp pHdr)).client
        (w₁.step k env (.startRsp pHdr)).client.erased
        (w₁.step k env (.startRsp pHdr)).mem (w₂.step k env (.startRsp pHdr)).mem := by
  have steady : env.Steady := ⟨settled.erases pHdr rfl, settled.unguarded⟩
  have agree := pair.agree
  obtain ⟨l, same, -⟩ := pair.twin
  have accepts' : otaStartRspHandler.accepts k w₂.client pHdr = true := by
    rw [same]
    exact accepts
  have slot : w₂.client.newAddr = w₁.client.newAddr := by
    rw [same]
    rfl
  have later : (w₁.step k env (.startRsp pHdr)).client.newAddr = w₁.client.newAddr
      ∧ (w₁.step k env (.startRsp pHdr)).client.erased
        = (pHdr.imageSize / flashSectorSize + 1) * flashSectorSize := by
    simp only [OtaWorld.step, OtaEvent.handler, otaStartRspHandler, accepts, if_true,
      Prog.run_bind, Prog.run_pure]
    exact ⟨rfl, rfl⟩
  intro x place
  rw [later.1, later.2] at place
  simp only [OtaWorld.step, OtaEvent.handler, otaStartRspHandler, accepts, accepts', if_true,
    Prog.run_bind, Prog.run_pure, slot]
  have memory₂ := @flashEraseSectors_mem env steady (pHdr.imageSize / flashSectorSize + 1)
    w₁.client.newAddr newAddr_aligned w₂.dev x
  have memory₁ := @flashEraseSectors_mem env steady (pHdr.imageSize / flashSectorSize + 1)
    w₁.client.newAddr newAddr_aligned w₁.dev x
  rw [memory₁, memory₂]
  split
  · rfl
  · rename_i outside
    apply agree
    omega

/-- Events keep the pair. -/
theorem Pair.step (pair : Pair k p₁ p₂ w₁ w₂) (settled : SettledEvent w₁.client env e)
    (stays : w₁.reboots e = false)
    : Pair k p₁ p₂ (w₁.step k env e) (w₂.step k env e) := by
  have runs := pair.runs settled stays
  refine ⟨pair.reached₁.event env e, pair.reached₂.event env e, runs.twin, ?_⟩
  have kept (smaller : (w₁.step k env e).client.erased ≤ w₁.client.erased)
      : SlotAgree (w₁.step k env e).client (w₁.step k env e).client.erased (w₁.step k env e).mem
        (w₂.step k env e).mem := by
    have slot : (w₁.step k env e).client.newAddr = w₁.client.newAddr := by
      rw [OtaClient.newAddr, OtaClient.newAddr]
      congr 1
      exact congrArg (· = true)
        ((pair.reached₁.session.fills stays).same_slot pair.reached₁.agrees)
    intro x place
    rw [slot] at place
    exact runs.mem x (pair.agree x (by omega))
  by_cases opens : ∃ pHdr, e = .startRsp pHdr
      ∧ otaStartRspHandler.accepts k w₁.client pHdr = true
  · obtain ⟨pHdr, rfl, accepts⟩ := opens
    exact pair.opened settled accepts
  · apply kept
    apply pair.reached₁.erased_le
    intro pHdr start
    rw [Bool.eq_false_iff]
    intro accepts
    exact opens ⟨pHdr, start, accepts⟩

/-- The two clients issue the same commands, also where they switch over. -/
theorem Pair.cmds (pair : Pair k p₁ p₂ w₁ w₂) (settled : SettledEvent w₁.client env e)
    : w₁.reboots e = w₂.reboots e
      ∧ (Prog.trace env (e.handler k w₁.client) w₁.dev).map Step.cmd
        = (Prog.trace env (e.handler k w₂.client) w₂.dev).map Step.cmd := by
  obtain ⟨l, same, -⟩ := pair.twin
  have alike : w₂.reboots e = w₁.reboots e := by
    cases e with
    | stopRsp pHdr =>
        simp only [OtaWorld.reboots, same]
        rfl
    | _ => rfl
  refine ⟨alike.symm, ?_⟩
  cases reboots : w₁.reboots e with
  | true =>
      have slots : w₂.client.newAddr = w₁.client.newAddr ∧ w₂.client.baseAddr = w₁.client.baseAddr := by
        rw [same]
        exact ⟨rfl, rfl⟩
      rw [reboots_handler reboots, reboots_handler (alike.trans reboots), trace_reboot, trace_reboot]
      simp only [List.map_cons, List.map_nil, slots.1, slots.2]
  | false => exact (pair.runs settled reboots).cmds

end Pairs

-----------------------------------------------------------------------------------------
-- Independence
-----------------------------------------------------------------------------------------

/-- Two idle clients with the same running slot, on flashes that differ only in the other
slot.
-/
structure BothIdle (w₁ w₂ : OtaWorld) : Prop where
  idle₁ : w₁.client.otaState = .staIdle
  idle₂ : w₂.client.otaState = .staIdle
  slot : w₁.client.mcuBootAddr = w₂.client.mcuBootAddr
  rest : SlotAgree w₁.client 0 w₁.mem w₂.mem

/-- The earlier sessions of the two clients ended at the same byte of a header of the same
length.
-/
structure SamePosition (s₁ s₂ : OtaClient) : Prop where
  count : s₁.otaHeadercnt = s₂.otaHeadercnt
  header : s₁.otaHeadersize = s₂.otaHeadersize

/-- Both clients get the same events, up to a switch-over. -/
inductive Followed (k : OtaBuild) (a₁ a₂ : OtaWorld) : OtaWorld → OtaWorld → Prop where
  | start : Followed k a₁ a₂ a₁ a₂
  | event {w₁ w₂ : OtaWorld} (before : Followed k a₁ a₂ w₁ w₂) {env : Env} {e : OtaEvent}
      (settled : SettledEvent w₁.client env e) (stays : w₁.reboots e = false)
      : Followed k a₁ a₂ (w₁.step k env e) (w₂.step k env e)

section Independence

variable {k : OtaBuild} {a₁ a₂ w₁ w₂ : OtaWorld}

theorem BothIdle.pair (both : BothIdle a₁ a₂) (position : SamePosition a₁.client a₂.client)
    (reached₁ : OtaReached k a₁) (reached₂ : OtaReached k a₂)
    : Pair k (a₁.client.sent.map OtaCmd.content) (a₂.client.sent.map OtaCmd.content) a₁ a₂ := by
  obtain ⟨idle₁, idle₂, slot, rest⟩ := both
  obtain ⟨count, header⟩ := position
  obtain ⟨info₁, bin₁, block₁, crc₁, offset₁, timer₁⟩ := reached₁.cleared idle₁
  obtain ⟨info₂, bin₂, block₂, crc₂, offset₂, timer₂⟩ := reached₂.cleared idle₂
  refine ⟨reached₁, reached₂, ⟨a₂.client.labels, ?_, ?_⟩, ?_⟩
  · rw [OtaClient.relabel, info₁.trans info₂.symm, bin₁.trans bin₂.symm, slot,
      idle₁.trans idle₂.symm, block₁.trans block₂.symm, count, header, crc₁.trans crc₂.symm,
      offset₁.trans offset₂.symm, timer₁.trans timer₂.symm]
    rfl
  · exact ⟨⟨[], by simp, by simp [OtaClient.labels]⟩, fun no => absurd idle₁ no⟩
  · rw [OtaClient.erased, if_pos idle₁]
    exact rest

/-- By induction on the events: the two clients stay a pair. -/
theorem Followed.pair (followed : Followed k a₁ a₂ w₁ w₂)
    (start : Pair k (a₁.client.sent.map OtaCmd.content) (a₂.client.sent.map OtaCmd.content) a₁ a₂)
    : Pair k (a₁.client.sent.map OtaCmd.content) (a₂.client.sent.map OtaCmd.content) w₁ w₂ := by
  induction followed with
  | start => exact start
  | event _ settled stays ih => exact ih.step settled stays

end Independence

/-- From the same position in the header, two idle clients with any histories go through the
same states, send the same requests and fill the slot with the same bytes.
-/
theorem otaSessions_independent {k : OtaBuild} {a₁ a₂ w₁ w₂ : OtaWorld}
    (reached₁ : OtaReached k a₁) (reached₂ : OtaReached k a₂) (both : BothIdle a₁ a₂)
    (position : SamePosition a₁.client a₂.client) (followed : Followed k a₁ a₂ w₁ w₂)
    : w₁.client.otaState = w₂.client.otaState
      ∧ SameRequests (a₁.client.sent.map OtaCmd.content) (a₂.client.sent.map OtaCmd.content)
        w₁.client.sent w₂.client.sent
      ∧ (w₁.client.otaState ≠ .staIdle
        → ∀ i < erasedSize w₁.client.devOtaInfo.imageSize,
          w₁.mem (w₁.client.newAddr + i) = w₂.mem (w₂.client.newAddr + i))
      ∧ ∀ env e, SettledEvent w₁.client env e
        → w₁.reboots e = w₂.reboots e
          ∧ (Prog.trace env (e.handler k w₁.client) w₁.dev).map Step.cmd
            = (Prog.trace env (e.handler k w₂.client) w₂.dev).map Step.cmd := by
  have pair := followed.pair (both.pair position reached₁ reached₂)
  have agree := pair.agree
  obtain ⟨l, same, matched⟩ := pair.twin
  have slot : w₂.client.newAddr = w₁.client.newAddr := by
    rw [same]
    rfl
  refine ⟨?_, ?_, ?_, fun env e settled => pair.cmds settled⟩
  · rw [same]
    rfl
  · rw [same]
    exact matched.requests
  · intro busy i inside
    rw [OtaClient.erased, if_neg busy] at agree
    rw [slot]
    exact agree _ (Or.inl (by omega))

/-- The first two events of a transfer. -/
def transferStart : List OtaEvent := (smallTransfer build8258).take 2

/-- A session that ends at the retry limit. -/
def retriedSession : List OtaEvent :=
  (smallTransfer build8258).take 1 ++ List.replicate 10 .retryTimer

theorem retryTimer_mem (k : OtaBuild) (n : Nat) (w : OtaWorld)
    : ((List.replicate n OtaEvent.retryTimer).foldl (fun w e => w.step k {} e) w).mem = w.mem := by
  induction n generalizing w with
  | zero => rfl
  | succ n ih => exact ih (w.step k {} .retryTimer)

/-- The session erased one sector of the slot. -/
theorem retriedSession_mem (x : Nat)
    : (otaRun build8258 (firstSlotMem build8258) retriedSession).mem x
      = if flashOtaNewimageAddr ≤ x ∧ x < flashOtaNewimageAddr + 1 * flashSectorSize then blankByte
        else firstSlotMem build8258 x := by
  have start : ∃ info, (smallTransfer build8258).take 1 = [.startRsp info] ∧ info.imageSize = 70
      ∧ otaStartRspHandler.accepts build8258
        (otaPowerUp build8258 (firstSlotMem build8258)) info = true :=
    ⟨_, rfl, rfl, by decide +kernel⟩
  obtain ⟨info, only, size, accepted⟩ := start
  have steady : Env.Steady {} := ⟨fun _ => rfl, rfl⟩
  have slot : (otaPowerUp build8258 (firstSlotMem build8258)).newAddr
      = flashOtaNewimageAddr := by
    decide +kernel
  rw [otaRun, retriedSession, List.foldl_append, retryTimer_mem, only, List.foldl_cons,
    List.foldl_nil, OtaWorld.step, OtaEvent.handler, otaStartRspHandler, if_pos accepted, size, slot]
  exact flashEraseSectors_mem steady 1 rfl _ x

/-- The retry limit leaves the client where it was. -/
theorem otaSessions_independent_retried
    : (otaRun build8258 (firstSlotMem build8258) transferStart).client.otaState
      = (otaRun build8258 (firstSlotMem build8258)
        (retriedSession ++ transferStart)).client.otaState := by
  have both : BothIdle (otaRun build8258 (firstSlotMem build8258) [])
      (otaRun build8258 (firstSlotMem build8258) retriedSession) := by
    refine ⟨rfl, by decide +kernel, by decide +kernel, fun x outside => ?_⟩
    have slot : (otaRun build8258 (firstSlotMem build8258) []).client.newAddr
        = flashOtaNewimageAddr := by
      decide +kernel
    have apart : ¬(flashOtaNewimageAddr ≤ x ∧ x < flashOtaNewimageAddr + 1 * flashSectorSize) := by
      rw [slot] at outside
      simp only [otaMaxImageSize, flashSectorSize] at *
      omega
    rw [retriedSession_mem, if_neg apart]
    rfl
  have position : SamePosition (otaRun build8258 (firstSlotMem build8258) []).client
      (otaRun build8258 (firstSlotMem build8258) retriedSession).client :=
    ⟨by decide +kernel, by decide +kernel⟩
  have settled (w : OtaWorld) (e : OtaEvent) (running : e = .retryTimer → w.client.otaDataReqTimer = true)
      (inside : ∀ pHdr, e = .dataRsp pHdr → pHdr.payloadSize.toNat ≤ flashSectorSize
        ∧ w.client.flashOffsetAddr = 0)
      : SettledEvent w.client {} e :=
    ⟨running, rfl, fun _ _ _ => rfl, fun pHdr data _ => by
      obtain ⟨small, first⟩ := inside pHdr data
      have sector := erasedSize_sector w.client.devOtaInfo.imageSize
      omega⟩
  have followed : Followed build8258 (otaRun build8258 (firstSlotMem build8258) [])
      (otaRun build8258 (firstSlotMem build8258) retriedSession)
      (otaRun build8258 (firstSlotMem build8258) transferStart)
      (otaRun build8258 (firstSlotMem build8258) (retriedSession ++ transferStart)) := by
    rw [otaRun, otaRun, otaRun, otaRun, List.foldl_append]
    refine .event (.event .start (settled _ _ (by simp) (by simp)) rfl)
      (settled _ _ (by simp) ?_) rfl
    intro pHdr same
    cases same
    decide +kernel
  exact (otaSessions_independent (OtaReached.run _ _ _) (OtaReached.run _ _ _) both position
    followed).1

/-- A session of 11 bytes that a zero-length block aborts after 10 of them. -/
def abortedSession : List OtaEvent :=
  let info : OtaPreamble :=
    {
      fileVer := 0x10400001
      imageType := imageType build8258
      manufaurerCode := manufacturerCode
    }
  [
    .startRsp { info with imageSize := 11 },
    .dataRsp { toOtaPreamble := info, payloadSize := 10, payload := fun _ => 0 },
    .dataRsp { toOtaPreamble := { info with imageSize := 1 }, payloadSize := 0, payload := fun _ => 0 }
  ]

/-- The start of a session of 11 bytes, with a first block of one byte. -/
def shortSession : List OtaEvent :=
  let info : OtaPreamble :=
    {
      fileVer := 0x10400001
      imageType := imageType build8258
      manufaurerCode := manufacturerCode
    }
  [
    .startRsp { info with imageSize := 11 },
    .dataRsp { toOtaPreamble := info, payloadSize := 1, payload := fun _ => 0 }
  ]

/-- After an aborted session the client counts on from the header byte where that session
stopped: one byte ends a transfer that a client after a reset goes on with.
-/
theorem aborted_session_moves_header
    : ∃ a₁ a₂ : OtaWorld,
      OtaReached build8258 a₁ ∧ OtaReached build8258 a₂
        ∧ a₁.client.otaState = .staIdle ∧ a₂.client.otaState = .staIdle
        ∧ a₁.client.mcuBootAddr = a₂.client.mcuBootAddr
        ∧ (shortSession.foldl (fun w e => w.step build8258 {} e) a₁).client.otaState = .staStarting
        ∧ (shortSession.foldl (fun w e => w.step build8258 {} e) a₂).client.otaState = .staEnd :=
  ⟨otaRun build8258 (firstSlotMem build8258) [],
    otaRun build8258 (firstSlotMem build8258) abortedSession,
    OtaReached.run _ _ _, OtaReached.run _ _ _, rfl, by decide +kernel, by decide +kernel,
    by decide +kernel, by decide +kernel⟩

end TelinkSdk
