import TelinkSdk.Ota.Client

/-! Sessions of the OTA client: what its variables say about the slot it fills, over runs of
frames and timers with any flash faults.
-/

namespace TelinkSdk

open Nor

-----------------------------------------------------------------------------------------
-- Runs
-----------------------------------------------------------------------------------------

/-- What can happen to the client. -/
inductive OtaEvent where
  | startRsp (pHdr : OtaPreamble)
  | dataRsp (pHdr : OtaDataFrame)
  | stopRsp (pHdr : OtaPreamble)
  | retryTimer
  | queryTimer

def OtaEvent.handler (k : OtaBuild) (s : OtaClient) : OtaEvent → Prog OtaClient
  | .startRsp pHdr => otaStartRspHandler k pHdr s
  | .dataRsp pHdr => otaDataRspHandler k pHdr s
  | .stopRsp pHdr => otaStopRspHandler k pHdr s
  | .retryTimer => Prog.view fun m => otaPeriodicDataServerCb k m s
  | .queryTimer => pure (otaPeriodicQueryServerCb k s)

/-- The client and its flash. -/
structure OtaWorld where
  client : OtaClient
  mem : Mem
  locked : Bool := true

def OtaWorld.dev (w : OtaWorld) : Dev := { mem := w.mem, locked := w.locked }

def OtaWorld.step (k : OtaBuild) (env : Env) (w : OtaWorld) (e : OtaEvent) : OtaWorld :=
  let (client, d) := Prog.run env (e.handler k w.client) w.dev
  { client, mem := d.mem, locked := d.locked }

/-- The worlds that events reach from a reset, each event under flash faults of its own. -/
inductive OtaReached (k : OtaBuild) : OtaWorld → Prop where
  | boot (m : Mem) (locked : Bool) : OtaReached k { client := otaPowerUp k m, mem := m, locked }
  | event {w : OtaWorld} (before : OtaReached k w) (env : Env) (e : OtaEvent)
      : OtaReached k (w.step k env e)

-----------------------------------------------------------------------------------------
-- The image in the new slot
-----------------------------------------------------------------------------------------

/-- The new slot as it will be once its keyword is set. -/
def slotImage (k : OtaBuild) (s : OtaClient) (m : Mem) : Mem :=
  Function.update (fun i => m (s.newAddr + i)) (otaTlnkKeywordAddroffset k) otaKeyword

/-- The image announced by the server has a checksum in its last four bytes, and it is the
checksum of the bytes in front of it.
-/
def ImageChecked (k : OtaBuild) (s : OtaClient) (m : Mem) : Prop :=
  s.otaHeadersize + 4 ≤ s.devOtaInfo.imageSize
    ∧ (xcrc32 ((slotImage k s m).read 0 (s.devOtaInfo.imageSize - s.otaHeadersize - 4))
        0xffffffff).toNat
      = (slotImage k s m).le32 (s.devOtaInfo.imageSize - s.otaHeadersize - 4)

/-- The announced size is that of the parsed header and of the image it describes, the
header has all its fields in front of the image, and the checksum of the image does not lie
over its keyword.
-/
def Consistent (k : OtaBuild) (s : OtaClient) : Prop :=
  s.devOtaInfo.imageSize = s.binInfo.imageSize + s.otaHeadersize
    ∧ 4 ≤ s.binInfo.imageSize
    ∧ otaHeadImagesize < s.otaHeadersize
    ∧ (otaTlnkKeywordAddroffset k + 4 < s.binInfo.imageSize
      ∨ s.binInfo.imageSize ≤ otaTlnkKeywordAddroffset k)

/-- What the client's variables say about its slot while a frame is handled. -/
structure Tracked (k : OtaBuild) (s : OtaClient) (m : Mem) : Prop where
  wide : s.otaHeadercnt < u32Mod
  sized : s.otaHeadersize = 0 ∨ otaHeadLength ≤ s.otaHeadersize ∧ s.otaHeadersize < u16Mod + 6
  announced : s.devOtaInfo.imageSize < otaMaxImageSize
  idle : s.otaState = .staIdle
    → s.crcValue = 0xffffffff ∧ s.flashOffsetAddr = 0 ∧ s.binInfo.imageSize = 0
  starting : s.otaState = .staStarting
    → s.crcValue = 0xffffffff ∧ s.flashOffsetAddr = 0
      ∧ (otaHeadImagesize < s.otaHeadersize
        → s.otaHeadercnt ≤ s.otaHeadersize ∨ s.binInfo.imageSize = 0)
  dataing : s.otaState = .staDataing
    → s.otaHeadercnt = s.otaHeadersize + s.flashOffsetAddr
      ∧ (Consistent k s → s.crcValue = xcrc32
        ((slotImage k s m).read 0 (min s.flashOffsetAddr (s.binInfo.imageSize - 4))) 0xffffffff)
  finished : s.otaState = .staEnd → Consistent k s → ImageChecked k s m

/-- Between frames, an image that is being stored is not complete. -/
structure Session (k : OtaBuild) (s : OtaClient) (m : Mem) : Prop extends Tracked k s m where
  pending : s.otaState = .staDataing → s.otaHeadercnt < s.devOtaInfo.imageSize

section Idle

variable {k : OtaBuild} {s : OtaClient} {m m' : Mem}

/-- An aborted session leaves only the position in the header. -/
theorem Session.queryStart (wide : s.otaHeadercnt < u32Mod)
    (sized : s.otaHeadersize = 0
      ∨ otaHeadLength ≤ s.otaHeadersize ∧ s.otaHeadersize < u16Mod + 6)
    : Session k (otaQueryStart k m s) m' where
  wide := wide
  sized := sized
  announced := Nat.zero_lt_succ _
  idle := fun _ => ⟨rfl, rfl, rfl⟩
  starting := fun no => by cases no
  dataing := fun no => by cases no
  finished := fun no => by cases no
  pending := fun no => by cases no

theorem Session.abort {earlier : Mem} (tracked : Tracked k s earlier)
    : Session k (otaAbort k m s) m' :=
  Session.queryStart tracked.wide tracked.sized

theorem Session.powerUp (k : OtaBuild) (m m' : Mem) : Session k (otaPowerUp k m) m' where
  wide := Nat.zero_lt_succ _
  sized := Or.inl rfl
  announced := Nat.zero_lt_succ _
  idle := fun _ => ⟨rfl, rfl, rfl⟩
  starting := fun no => by cases no
  dataing := fun no => by cases no
  finished := fun no => by cases no
  pending := fun no => by cases no

/-- Requests do not matter. -/
theorem Session.send (session : Session k s m) (cmdId : OtaReq) (pay : OtaPreamble)
    : Session k (otaSend cmdId pay s) m where
  wide := session.wide
  sized := session.sized
  announced := session.announced
  idle := session.idle
  starting := session.starting
  dataing := session.dataing
  finished := session.finished
  pending := session.pending

theorem Session.retry (session : Session k s m) (otaDataCb : Option OtaReq)
    : Session k (otaDataReqRetry { s with otaDataCb }) m where
  wide := session.wide
  sized := session.sized
  announced := session.announced
  idle := session.idle
  starting := session.starting
  dataing := session.dataing
  finished := session.finished
  pending := session.pending

theorem Session.timer (session : Session k s m)
    : Session k (otaPeriodicDataServerCb k m s) m := by
  have counted : Session k { s with otaReqRetryCnt := (s.otaReqRetryCnt + 1) % 256 } m :=
    { session with }
  unfold otaPeriodicDataServerCb
  dsimp only
  split
  · have aborted := @Session.queryStart k
      { s with otaReqRetryCnt := 0 } m m session.wide session.sized
    exact { aborted with }
  · split
    · exact counted.send _ _
    · exact counted.send _ _
    · exact counted.send _ _
    · exact counted

end Idle

-----------------------------------------------------------------------------------------
-- The header
-----------------------------------------------------------------------------------------

/-- A client in the middle of the header. -/
structure Reading (s : OtaClient) : Prop where
  state : s.otaState = .staStarting
  crc : s.crcValue = 0xffffffff
  offset : s.flashOffsetAddr = 0
  wide : s.otaHeadercnt < u32Mod
  sized : s.otaHeadersize = 0 ∨ otaHeadLength ≤ s.otaHeadersize ∧ s.otaHeadersize < u16Mod + 6
  inside : otaHeadImagesize < s.otaHeadersize
    → s.otaHeadercnt ≤ s.otaHeadersize ∨ s.binInfo.imageSize = 0

/-- A client at the first byte of the image. -/
structure AtImage (s : OtaClient) : Prop where
  state : s.otaState = .staDataing
  crc : s.crcValue = 0xffffffff
  offset : s.flashOffsetAddr = 0
  nonzero : otaHeadLength ≤ s.otaHeadersize
  sized : s.otaHeadersize < u16Mod + 6
  ends : s.otaHeadercnt = s.otaHeadersize

/-- The part of the variables that the header does not change. -/
structure SameSession (s s' : OtaClient) : Prop where
  info : s'.devOtaInfo = s.devOtaInfo
  boot : s'.mcuBootAddr = s.mcuBootAddr

section Header

variable {s : OtaClient}

/-- The counter moves on by one byte, or starts again at 0. -/
theorem headercnt_next (wide : s.otaHeadercnt < u32Mod)
    : (s.otaHeadercnt + 1) % u32Mod < u32Mod
      ∧ ((s.otaHeadercnt + 1) % u32Mod = s.otaHeadercnt + 1
        ∨ (s.otaHeadercnt + 1) % u32Mod = 0) := by
  simp only [u32Mod] at *
  omega

/-- A byte that starts a field. -/
theorem Reading.field (reading : Reading s) (payload : Mem) (i : Nat)
    (starts : otaDataProcess.startsField s = true)
    : Reading
        { otaDataProcess.field payload i s with
          otaHeadercnt := ((otaDataProcess.field payload i s).otaHeadercnt + 1) % u32Mod }
      ∧ SameSession s (otaDataProcess.field payload i s) := by
  obtain ⟨state, crc, offset, wide, sized, inside⟩ := reading
  have length := payload.le16_lt i
  obtain ⟨wide', next⟩ := headercnt_next wide
  simp only [otaDataProcess.startsField, Bool.or_eq_true, beq_iff_eq] at starts
  unfold otaDataProcess.field
  split
  · refine ⟨⟨state, crc, offset, wide', ?_, ?_⟩, ⟨rfl, rfl⟩⟩
    · simp only [otaHeadLength, u16Mod]
      omega
    · simp only [otaHeadLength, otaHeadImagesize] at *
      omega
  · simp only [otaHeadLength, otaHeadMauncode, otaHeadImagetype, otaHeadFilever,
      otaHeadImagesize] at *
    split <;> (try split) <;> (try split) <;>
      refine ⟨⟨state, crc, offset, wide', sized, ?_⟩, ⟨rfl, rfl⟩⟩ <;>
      simp only [otaHeadImagesize] <;> omega

/-- A byte that is neither the start of a field nor the end of the header. -/
theorem Reading.skip (reading : Reading s)
    (other : ¬(s.otaHeadercnt = s.otaHeadersize ∧ s.otaHeadersize ≠ 0))
    : Reading { s with otaHeadercnt := (s.otaHeadercnt + 1) % u32Mod } := by
  obtain ⟨state, crc, offset, wide, sized, inside⟩ := reading
  obtain ⟨wide', next⟩ := headercnt_next wide
  refine ⟨state, crc, offset, wide', sized, ?_⟩
  simp only [otaHeadImagesize] at *
  omega

/-- The loop over the header, by induction on the bytes left. -/
theorem Reading.header (reading : Reading s) (payload : Mem) (left i : Nat)
    : SameSession s (otaDataProcess.header payload left i s).2
      ∧ (Reading (otaDataProcess.header payload left i s).2
        ∨ AtImage (otaDataProcess.header payload left i s).2) := by
  induction left generalizing s i with
  | zero => exact ⟨⟨rfl, rfl⟩, Or.inl reading⟩
  | succ left ih =>
      rw [otaDataProcess.header]
      by_cases starts : otaDataProcess.startsField s = true
      · obtain ⟨next, same⟩ := reading.field payload i starts
        obtain ⟨same', outcome⟩ := ih next (i + 1)
        rw [if_pos starts]
        exact ⟨⟨same'.info.trans same.info, same'.boot.trans same.boot⟩, outcome⟩
      · rw [if_neg starts]
        by_cases ends : s.otaHeadercnt = s.otaHeadersize ∧ s.otaHeadersize ≠ 0
        · obtain ⟨nonzero, sized⟩ := reading.sized.resolve_left ends.2
          rw [if_pos ends]
          exact ⟨⟨rfl, rfl⟩, Or.inr ⟨rfl, reading.crc, reading.offset, nonzero, sized, ends.1⟩⟩
        · obtain ⟨same', outcome⟩ := ih (reading.skip ends) (i + 1)
          rw [if_neg ends]
          exact ⟨⟨same'.info, same'.boot⟩, outcome⟩

end Header

-----------------------------------------------------------------------------------------
-- Storing a block
-----------------------------------------------------------------------------------------

/-- A client that is about to store bytes of the image. -/
structure Storing (k : OtaBuild) (s : OtaClient) (m : Mem) : Prop where
  state : s.otaState = .staDataing
  sized : s.otaHeadersize = 0 ∨ otaHeadLength ≤ s.otaHeadersize ∧ s.otaHeadersize < u16Mod + 6
  small : s.otaHeadercnt < otaMaxImageSize
  announced : s.devOtaInfo.imageSize < otaMaxImageSize
  count : s.otaHeadercnt = s.otaHeadersize + s.flashOffsetAddr
  crc : Consistent k s → s.crcValue = xcrc32
    ((slotImage k s m).read 0 (min s.flashOffsetAddr (s.binInfo.imageSize - 4))) 0xffffffff

section Storing

variable {k : OtaBuild} {s : OtaClient} {m m' : Mem}

/-- The checksum takes the part of a block that lies in front of the stored checksum. -/
theorem otaDataProcess.crcLen_count {off otaHeaderbuf datalen : Nat}
    (checked : 4 ≤ s.binInfo.imageSize)
    (narrow : s.binInfo.imageSize + s.otaHeadersize < u32Mod) (short : datalen < 256)
    (begins : otaHeaderbuf = s.otaHeadersize + off)
    (count : s.otaHeadercnt = otaHeaderbuf + datalen)
    : otaDataProcess.crcLen s otaHeaderbuf datalen
      = min (off + datalen) (s.binInfo.imageSize - 4) - min off (s.binInfo.imageSize - 4) := by
  have start : (s.binInfo.imageSize + s.otaHeadersize + (u32Mod - 4)) % u32Mod
      = s.binInfo.imageSize + s.otaHeadersize - 4 := by
    simp only [u32Mod] at *
    omega
  unfold otaDataProcess.crcLen
  simp only [start, count, begins]
  have offset (past : s.binInfo.imageSize - 4 ≤ off + datalen)
      (before : off < s.binInfo.imageSize - 4)
      : (s.otaHeadersize + off + datalen - (s.binInfo.imageSize + s.otaHeadersize - 4)) % u16Mod
        = off + datalen - (s.binInfo.imageSize - 4) := by
    simp only [u16Mod]
    omega
  split
  · split
    · omega
    · rw [offset (by omega) (by omega)]
      split <;> omega
  · omega

theorem otaDataProcess.crcLen_eq {off otaHeaderbuf datalen : Nat} (consistent : Consistent k s)
    (announced : s.devOtaInfo.imageSize < otaMaxImageSize) (short : datalen < 256)
    (begins : otaHeaderbuf = s.otaHeadersize + off)
    (count : s.otaHeadercnt = otaHeaderbuf + datalen)
    : otaDataProcess.crcLen s otaHeaderbuf datalen
      = min (off + datalen) (s.binInfo.imageSize - 4) - min off (s.binInfo.imageSize - 4) := by
  obtain ⟨size, checked, -, -⟩ := consistent
  refine otaDataProcess.crcLen_count checked ?_ short begins count
  rw [← size]
  simp only [otaMaxImageSize, u32Mod] at *
  omega

/-- A block in the slot is the block that the checksum is taken of. -/
theorem slotImage_block {payload masked restored : Mem} {datalen i : Nat}
    (small : s.flashOffsetAddr + datalen < u32Mod)
    (maskedEq : masked = if otaDataProcess.flag k s datalen
      then Function.update payload (i + otaTlnkKeywordAddroffset k - s.flashOffsetAddr) 0xff
      else payload)
    (restoredEq : restored = if otaDataProcess.flag k s datalen
      then Function.update payload (i + otaTlnkKeywordAddroffset k - s.flashOffsetAddr) otaKeyword
      else payload)
    (stored : m'.read (s.newAddr + s.flashOffsetAddr) datalen = masked.read i datalen)
    : ∀ j < datalen, slotImage k s m' (s.flashOffsetAddr + j) = restored (i + j) := by
  intro j inside
  have byte : m' (s.newAddr + s.flashOffsetAddr + j) = masked (i + j) := by
    rw [← Mem.read_getD m' inside blankByte, stored, Mem.read_getD masked inside]
  have whole : (datalen + s.flashOffsetAddr) % u32Mod = datalen + s.flashOffsetAddr :=
    Nat.mod_eq_of_lt (by omega)
  by_cases keyword : s.flashOffsetAddr + j = otaTlnkKeywordAddroffset k
  · have covered : otaDataProcess.flag k s datalen = true := by
      simp only [otaDataProcess.flag, whole, Bool.and_eq_true, decide_eq_true_eq]
      omega
    have index : i + otaTlnkKeywordAddroffset k - s.flashOffsetAddr = i + j := by omega
    rw [restoredEq, if_pos covered, index, slotImage, keyword]
    simp only [Function.update_self]
  · rw [slotImage, Function.update_of_ne keyword, ← Nat.add_assoc, byte, maskedEq, restoredEq]
    split
    · rename_i covered
      simp only [otaDataProcess.flag, whole, Bool.and_eq_true, decide_eq_true_eq] at covered
      have other : i + j ≠ i + otaTlnkKeywordAddroffset k - s.flashOffsetAddr := by omega
      rw [Function.update_of_ne other, Function.update_of_ne other]
    · rfl

/-- The checksum of the bytes up to the end of a stored block. -/
theorem Storing.checksum (storing : Storing k s m) (consistent : Consistent k s)
    {restored : Mem} {datalen i : Nat}
    (kept : ∀ x < s.newAddr + s.flashOffsetAddr, m' x = m x)
    (block : ∀ j < datalen, slotImage k s m' (s.flashOffsetAddr + j) = restored (i + j))
    {crcLen : Nat}
    (counted : crcLen = min (s.flashOffsetAddr + datalen) (s.binInfo.imageSize - 4)
      - min s.flashOffsetAddr (s.binInfo.imageSize - 4))
    : xcrc32 (restored.read i crcLen) s.crcValue
      = xcrc32 ((slotImage k s m').read 0
          (min (s.flashOffsetAddr + datalen) (s.binInfo.imageSize - 4))) 0xffffffff := by
  have before : (slotImage k s m').read 0 (min s.flashOffsetAddr (s.binInfo.imageSize - 4))
      = (slotImage k s m).read 0 (min s.flashOffsetAddr (s.binInfo.imageSize - 4)) := by
    apply Mem.read_congr
    intro j inside
    have same := kept (s.newAddr + (0 + j)) (by omega)
    simp only [slotImage, Function.update_apply, same]
  have fresh : (slotImage k s m').read (min s.flashOffsetAddr (s.binInfo.imageSize - 4)) crcLen
      = restored.read i crcLen := by
    apply Mem.read_congr
    intro j inside
    have offset : min s.flashOffsetAddr (s.binInfo.imageSize - 4) = s.flashOffsetAddr := by omega
    rw [offset]
    exact block j (by omega)
  have split : min (s.flashOffsetAddr + datalen) (s.binInfo.imageSize - 4)
      = min s.flashOffsetAddr (s.binInfo.imageSize - 4) + crcLen := by omega
  rw [storing.crc consistent, split, Mem.read_add, xcrc32_append, Nat.zero_add, before, fresh]

/-- A client after a block of `datalen` bytes. -/
structure Advanced (s s' : OtaClient) (datalen : Nat) : Prop extends SameSession s s' where
  state : s'.otaState = s.otaState
  bin : s'.binInfo = s.binInfo
  size : s'.otaHeadersize = s.otaHeadersize
  count : s'.otaHeadercnt = s.otaHeadercnt + datalen
  offset : s'.flashOffsetAddr = s.flashOffsetAddr + datalen

/-- A stored block continues the checksum. -/
theorem Storing.tracked (storing : Storing k s m) {s' : OtaClient} {datalen : Nat}
    (advanced : Advanced s s' datalen) (short : datalen < 256)
    (crc : Consistent k s → s'.crcValue = xcrc32 ((slotImage k s m').read 0
      (min (s.flashOffsetAddr + datalen) (s.binInfo.imageSize - 4))) 0xffffffff)
    : Tracked k s' m' := by
  obtain ⟨⟨info, boot⟩, state, bin, size, count, offset⟩ := advanced
  have isDataing : s'.otaState = .staDataing := state.trans storing.state
  have small := storing.small
  have begins := storing.count
  have image : slotImage k s' m' = slotImage k s m' := by
    simp only [slotImage, OtaClient.newAddr, boot]
  simp only [otaMaxImageSize] at small
  refine {
    wide := ?_
    sized := size ▸ storing.sized
    announced := info ▸ storing.announced
    idle := fun no => ?_
    starting := fun no => ?_
    dataing := fun _ => ⟨by omega, fun consistent => ?_⟩
    finished := fun no => ?_
  }
  · simp only [u32Mod]
    omega
  · cases isDataing.symm.trans no
  · cases isDataing.symm.trans no
  · rw [image, offset, bin]
    apply crc
    simpa only [Consistent, info, bin, size] using consistent
  · cases isDataing.symm.trans no

/-- A block is stored, or the session ends. -/
theorem Storing.store (storing : Storing k s m) (env : Env) (payload : Mem) {datalen : Nat}
    (short : datalen < 256) (i : Nat) {d : Dev} (memory : d.mem = m)
    : Tracked k (Prog.run env (otaDataProcess.store k payload datalen i s) d).1
        (Prog.run env (otaDataProcess.store k payload datalen i s) d).2.mem := by
  have small := storing.small
  have begins := storing.count
  simp only [otaMaxImageSize] at small
  have counted : (s.otaHeadercnt + datalen) % u32Mod = s.otaHeadercnt + datalen :=
    Nat.mod_eq_of_lt (by simp only [u32Mod]; omega)
  have moved : (s.flashOffsetAddr + datalen) % u32Mod = s.flashOffsetAddr + datalen :=
    Nat.mod_eq_of_lt (by simp only [u32Mod]; omega)
  have wide : s.otaHeadercnt + datalen < u32Mod := by simp only [u32Mod]; omega
  unfold otaDataProcess.store
  simp only [counted, moved, Prog.run_bind]
  obtain ⟨s₁, named⟩ : ∃ s₁, s₁ = { s with otaHeadercnt := s.otaHeadercnt + datalen } := ⟨_, rfl⟩
  have addr : s₁.newAddr = s.newAddr := by rw [named, OtaClient.newAddr, OtaClient.newAddr]
  have flag : otaDataProcess.flag k s₁ datalen = otaDataProcess.flag k s datalen := by
    rw [named, otaDataProcess.flag, otaDataProcess.flag]
  rw [← named]
  simp only [addr, flag]
  generalize maskedEq : (if otaDataProcess.flag k s datalen = true
    then Function.update payload (i + otaTlnkKeywordAddroffset k - s.flashOffsetAddr) 0xff
    else payload) = masked
  generalize restoredEq : (if otaDataProcess.flag k s datalen = true
    then Function.update payload (i + otaTlnkKeywordAddroffset k - s.flashOffsetAddr) otaKeyword
    else payload) = restored
  generalize lenEq : otaDataProcess.crcLen s₁ s.otaHeadercnt datalen = crcLen
  obtain ⟨device, success⟩ :=
    run_flashWriteWithCheck env (s.newAddr + s.flashOffsetAddr) (Mem.read masked i datalen) d
  split
  · rename_i written
    have stored := success written
    rw [Mem.read_length] at stored
    simp only [Prog.run_pure, device]
    refine storing.tracked ⟨⟨rfl, rfl⟩, rfl, rfl, rfl, rfl, rfl⟩ short ?_
    intro consistent
    refine storing.checksum consistent ?_
      (slotImage_block (by omega) maskedEq.symm restoredEq.symm stored) ?_
    · intro x before
      rw [← memory]
      apply Dev.issue_untouched
      simp only [Cmd.Touches]
      omega
    · rw [← lenEq]
      subst named
      exact otaDataProcess.crcLen_eq consistent storing.announced short begins rfl
  · have aborted := @Session.queryStart k
      { s₁ with otaState := .staIdle, otaDataReqTimer := false }
    subst named
    exact (aborted wide storing.sized).toTracked

end Storing

-----------------------------------------------------------------------------------------
-- Handlers
-----------------------------------------------------------------------------------------

section Handlers

variable {k : OtaBuild} {s : OtaClient} {m m' : Mem}

/-- A number of the image that does not lie over the keyword is the one in the slot. -/
theorem slotImage_le32 {off : Nat}
    (apart : otaTlnkKeywordAddroffset k < off ∨ off + 4 ≤ otaTlnkKeywordAddroffset k)
    : (slotImage k s m).le32 off = m.le32 (s.newAddr + off) := by
  apply Mem.le32_congr
  intro i inside
  rw [slotImage, Function.update_of_ne (by omega), Nat.add_assoc]

theorem crcAddr_eq (consistent : Consistent k s)
    (announced : s.devOtaInfo.imageSize < otaMaxImageSize)
    : s.crcAddr = s.newAddr + (s.devOtaInfo.imageSize - s.otaHeadersize - 4) := by
  obtain ⟨size, checked, -, -⟩ := consistent
  have slot : s.newAddr ≤ flashOtaNewimageAddr := by
    unfold OtaClient.newAddr
    split <;> simp
  simp only [otaMaxImageSize, flashOtaNewimageAddr] at announced slot
  simp only [OtaClient.crcAddr, u32Mod]
  omega

/-- A complete image whose checksum is the accumulated one. -/
theorem Tracked.complete (tracked : Tracked k s m) (state : s.otaState = .staDataing)
    (consistent : Consistent k s) (full : s.devOtaInfo.imageSize ≤ s.otaHeadercnt)
    (equal : m.le32 s.crcAddr = s.crcValue.toNat)
    : ImageChecked k s m := by
  obtain ⟨count, crc⟩ := tracked.dataing state
  have addr := crcAddr_eq consistent tracked.announced
  have checksum := crc consistent
  obtain ⟨size, checked, -, keyword⟩ := consistent
  have length : min s.flashOffsetAddr (s.binInfo.imageSize - 4)
      = s.devOtaInfo.imageSize - s.otaHeadersize - 4 := by omega
  refine ⟨by omega, ?_⟩
  rw [length] at checksum
  rw [← checksum, ← equal, addr]
  exact (slotImage_le32 (by omega)).symm

/-- An accepted complete image is one that came through the checksum. -/
theorem Tracked.accepted (tracked : Tracked k s m) (consistent : Consistent k s)
    (full : s.devOtaInfo.imageSize ≤ s.otaHeadercnt)
    (equal : m.le32 s.crcAddr = s.crcValue.toNat)
    : ImageChecked k s m := by
  cases state : s.otaState with
  | staIdle =>
      obtain ⟨-, -, empty⟩ := tracked.idle state
      obtain ⟨-, checked, -, -⟩ := consistent
      omega
  | staStarting =>
      -- A header that has been read to its end is not in this state, so its bytes are missing.
      obtain ⟨-, -, inside⟩ := tracked.starting state
      obtain ⟨size, checked, header, -⟩ := consistent
      have position := inside header
      omega
  | staDataing => exact tracked.complete state consistent full equal
  | staEnd => exact tracked.finished state consistent

/-- A session that goes on after a block is complete, or it asks for the next block. -/
theorem otaDataRspHandler.next_busy (busy : (otaDataRspHandler.next k s m).otaState ≠ .staIdle)
    : (s.devOtaInfo.imageSize ≤ s.otaHeadercnt
        ∧ otaDataRspHandler.next k s m
          = otaDataReqRetry
              { otaStopReq { s with otaState := .staEnd } with otaDataCb := some .stopReq })
      ∨ (s.otaHeadercnt < s.devOtaInfo.imageSize
        ∧ otaDataRspHandler.next k s m
          = otaDataReqRetry { otaDataReq s with otaDataCb := some .dataReq }) := by
  unfold otaDataRspHandler.next at *
  split
  · rename_i full
    rw [if_pos full] at busy
    split
    · exact Or.inl ⟨full, rfl⟩
    · rename_i wrong
      rw [if_neg wrong] at busy
      exact absurd rfl busy
  · rename_i missing
    exact Or.inr ⟨Nat.not_le.mp missing, rfl⟩

theorem Tracked.next (tracked : Tracked k s m) : Session k (otaDataRspHandler.next k s m) m := by
  unfold otaDataRspHandler.next
  split
  · rename_i full
    split
    · rename_i equal
      have done : Session k { s with otaState := .staEnd } m := {
        wide := tracked.wide
        sized := tracked.sized
        announced := tracked.announced
        idle := fun no => by cases no
        starting := fun no => by cases no
        dataing := fun no => by cases no
        finished := fun _ consistent => tracked.accepted consistent full equal
        pending := fun no => by cases no
      }
      exact (done.send _ _).retry _
    · have aborted := @Session.queryStart k
        { s with
          devOtaInfo := { s.devOtaInfo with imageSize := 0 }
          otaState := .staIdle
          otaDataReqTimer := false }
      exact aborted tracked.wide tracked.sized
  · have pending : Session k s m := { tracked with pending := fun _ => by omega }
    exact (pending.send _ _).retry _

theorem Session.reading (session : Session k s m) (state : s.otaState = .staStarting)
    : Reading s := by
  obtain ⟨crc, offset, inside⟩ := session.starting state
  exact ⟨state, crc, offset, session.wide, session.sized, inside⟩

theorem Reading.tracked (reading : Reading s)
    (announced : s.devOtaInfo.imageSize < otaMaxImageSize)
    : Tracked k s m where
  wide := reading.wide
  sized := reading.sized
  announced := announced
  idle := fun no => by cases reading.state.symm.trans no
  starting := fun _ => ⟨reading.crc, reading.offset, reading.inside⟩
  dataing := fun no => by cases reading.state.symm.trans no
  finished := fun no => by cases reading.state.symm.trans no

theorem AtImage.storing (atImage : AtImage s)
    (announced : s.devOtaInfo.imageSize < otaMaxImageSize)
    : Storing k s m := by
  obtain ⟨state, crc, offset, nonzero, sized, ends⟩ := atImage
  refine ⟨state, Or.inr ⟨nonzero, sized⟩, ?_, announced, by omega, ?_⟩
  · simp only [otaMaxImageSize, u16Mod] at *
    omega
  · intro _
    rw [offset, Nat.zero_min, Mem.read_zero, crc, xcrc32_nil]

theorem Session.storing (session : Session k s m) (state : s.otaState = .staDataing)
    : Storing k s m := by
  obtain ⟨count, crc⟩ := session.dataing state
  have pending := session.pending state
  have announced := session.announced
  exact ⟨state, session.sized, by omega, announced, count, crc⟩

/-- A block is read as a part of the header, or it is stored from some byte on. -/
theorem Session.process_eq (session : Session k s m) (payload : Mem) {len : Nat}
    (positive : 0 < len)
    : (∃ s', otaDataProcess k len payload s = pure s' ∧ SameSession s s' ∧ Tracked k s' m
        ∧ (s'.otaState = .staIdle → s.otaState = .staIdle))
      ∨ ∃ i s', otaDataProcess k len payload s = otaDataProcess.store k payload (len - i) i s'
        ∧ SameSession s s' ∧ Storing k s' m := by
  unfold otaDataProcess
  by_cases state : s.otaState = .staStarting
  · obtain ⟨same, outcome⟩ := (session.reading state).header payload len 0
    rw [if_pos state]
    generalize otaDataProcess.header payload len 0 s = r at same outcome
    obtain ⟨i, s'⟩ := r
    have announced : s'.devOtaInfo.imageSize < otaMaxImageSize := same.info ▸ session.announced
    dsimp only
    rcases outcome with reading | atImage
    · have going : ¬(s'.otaState = .staDataing ∧ len > 0) := by
        rintro ⟨no, _⟩
        cases reading.state.symm.trans no
      rw [if_neg going]
      exact Or.inl ⟨s', rfl, same, reading.tracked announced,
        fun no => by cases reading.state.symm.trans no⟩
    · rw [if_pos ⟨atImage.state, positive⟩]
      exact Or.inr ⟨i, s', rfl, same, atImage.storing announced⟩
  · rw [if_neg state]
    dsimp only
    split
    · rename_i going
      exact Or.inr ⟨0, s, rfl, ⟨rfl, rfl⟩, session.storing going.1⟩
    · exact Or.inl ⟨s, rfl, ⟨rfl, rfl⟩, session.toTracked, id⟩

theorem Session.process (session : Session k s m) (env : Env) (payload : Mem) {len : Nat}
    (positive : 0 < len) (short : len < 256) {d : Dev} (memory : d.mem = m)
    : Tracked k (Prog.run env (otaDataProcess k len payload s) d).1
        (Prog.run env (otaDataProcess k len payload s) d).2.mem := by
  rcases @Session.process_eq k s m session payload len positive with
    ⟨s', shape, -, tracked, -⟩ | ⟨i, s', shape, -, storing⟩
  · rw [shape, Prog.run_pure, memory]
    exact tracked
  · rw [shape]
    exact storing.store env payload (by omega) i memory

theorem Session.dataRsp (session : Session k s m) (env : Env) (pHdr : OtaDataFrame) {d : Dev}
    (memory : d.mem = m)
    : Session k (Prog.run env (otaDataRspHandler k pHdr s) d).1
        (Prog.run env (otaDataRspHandler k pHdr s) d).2.mem := by
  unfold otaDataRspHandler
  split
  · rw [Prog.run_pure, memory]
    exact session
  · split
    · split
      · exact Session.abort session.toTracked
      · rename_i nonempty
        have positive : 0 < pHdr.payloadSize.toNat :=
          Nat.pos_of_ne_zero (fun zero => nonempty (UInt8.toNat_inj.mp zero))
        have tracked := session.process env pHdr.payload positive pHdr.payloadSize.toNat_lt
          (show (lockTo env false d).mem = m from memory)
        simp only [Prog.run_bind, run_flashUnlock, run_flashLock, Prog.run_view, lockTo_mem]
        exact Tracked.next { tracked with }
    · rw [Prog.run_pure, memory]
      exact session

theorem Session.startRsp (session : Session k s m) (env : Env) (pHdr : OtaPreamble) {d : Dev}
    (memory : d.mem = m)
    : Session k (Prog.run env (otaStartRspHandler k pHdr s) d).1
        (Prog.run env (otaStartRspHandler k pHdr s) d).2.mem := by
  unfold otaStartRspHandler
  split
  · rename_i accepted
    simp only [otaStartRspHandler.accepts, Bool.and_eq_true, beq_iff_eq, decide_eq_true_eq]
      at accepted
    obtain ⟨⟨⟨-, state⟩, -⟩, small⟩ := accepted
    obtain ⟨crc, offset, empty⟩ := session.idle state
    have started (m' : Mem) : Session k
        { s with devOtaInfo := pHdr, otaState := .staStarting, otaQueryTimer := false } m' := {
      wide := session.wide
      sized := session.sized
      announced := small
      idle := fun no => by cases no
      starting := fun _ => ⟨crc, offset, fun _ => Or.inr empty⟩
      dataing := fun no => by cases no
      finished := fun no => by cases no
      pending := fun no => by cases no
    }
    simp only [Prog.run_bind, Prog.run_pure]
    exact ((started _).send _ _).retry _
  · rw [Prog.run_pure, memory]
    exact session

theorem Session.stopRsp (session : Session k s m) (env : Env) (pHdr : OtaPreamble) {d : Dev}
    (memory : d.mem = m)
    : Session k (Prog.run env (otaStopRspHandler k pHdr s) d).1
        (Prog.run env (otaStopRspHandler k pHdr s) d).2.mem := by
  unfold otaStopRspHandler
  split
  · rw [Prog.run_pure, memory]
    exact session
  · split
    · unfold otaMcuReboot
      simp only [Prog.run_bind, Prog.run_view]
      exact Session.powerUp _ _ _
    · exact Session.abort session.toTracked

end Handlers

/-- Every event keeps the session. -/
theorem Session.step {k : OtaBuild} {w : OtaWorld} (session : Session k w.client w.mem) (env : Env)
    (e : OtaEvent)
    : Session k (w.step k env e).client (w.step k env e).mem := by
  cases e with
  | startRsp pHdr => exact session.startRsp env pHdr rfl
  | dataRsp pHdr => exact session.dataRsp env pHdr rfl
  | stopRsp pHdr => exact session.stopRsp env pHdr rfl
  | retryTimer => exact session.timer
  | queryTimer => exact session.send _ _

/-- Every run of the client keeps the session, by induction on its events. -/
theorem OtaReached.session {k : OtaBuild} {w : OtaWorld} (reached : OtaReached k w)
    : Session k w.client w.mem := by
  induction reached with
  | boot m locked => exact Session.powerUp k m m
  | event _ env e ih => exact ih.step env e

-----------------------------------------------------------------------------------------
-- Reboots
-----------------------------------------------------------------------------------------

/-- The event makes the client switch to the new slot. -/
def OtaWorld.reboots (w : OtaWorld) : OtaEvent → Bool
  | .stopRsp pHdr => w.client.otaState == .staEnd && otaStopRspHandler.accepts w.client pHdr
  | _ => false

/-- A client reboots into a slot whose checksum is right, if the sizes it was told agree. -/
theorem otaMcuReboot_checked {k : OtaBuild} {w : OtaWorld} {e : OtaEvent}
    (reached : OtaReached k w) (reboots : w.reboots e = true) (consistent : Consistent k w.client)
    : ImageChecked k w.client w.mem := by
  cases e with
  | stopRsp pHdr =>
      simp only [OtaWorld.reboots, Bool.and_eq_true, beq_iff_eq] at reboots
      exact reached.session.finished reboots.1 consistent
  | _ => simp [OtaWorld.reboots] at reboots

/-- A run on a chip that works. -/
def otaRun (k : OtaBuild) (m : Mem) (events : List OtaEvent) : OtaWorld :=
  events.foldl (fun w e => w.step k {} e) { client := otaPowerUp k m, mem := m }

theorem OtaReached.run (k : OtaBuild) (m : Mem) (events : List OtaEvent)
    : OtaReached k (otaRun k m events) := by
  have later (w : OtaWorld) (reached : OtaReached k w)
      : OtaReached k (events.foldl (fun w e => w.step k {} e) w) := by
    induction events generalizing w with
    | nil => exact reached
    | cons e rest ih => exact ih _ (reached.event {} e)
  exact later _ (.boot m true)

/-- A blank flash whose first slot is running. -/
def firstSlotMem (k : OtaBuild) : Mem :=
  Function.update Mem.blank (otaTlnkKeywordAddroffset k) otaKeyword

/-- A transfer of an image of 8 bytes behind a header of 62 bytes, in two blocks. -/
def smallTransfer (k : OtaBuild) : List OtaEvent :=
  let info : OtaPreamble :=
    { fileVer := 0x10400001, imageType := imageType k, manufaurerCode := manufacturerCode }
  let bytes : List UInt8 :=
    [0, 0, 0, 0, 0, 0, 56, 0] ++ List.replicate 50 0 ++ bytes32 8 ++ bytes32 0
      ++ bytes32 0xDEBB20E3
  [
    .startRsp { info with imageSize := 70 },
    .dataRsp
      {
        toOtaPreamble := { info with imageSize := 0 }
        payloadSize := 48
        payload := fun i => bytes.getD i 0
      },
    .dataRsp
      {
        toOtaPreamble := { info with imageSize := 1 }
        payloadSize := 22
        payload := fun i => bytes.getD (48 + i) 0
      }
  ]

theorem otaMcuReboot_checked_small
    : ImageChecked build8258
        (otaRun build8258 (firstSlotMem build8258) (smallTransfer build8258)).client
        (otaRun build8258 (firstSlotMem build8258) (smallTransfer build8258)).mem := by
  have reboots : (otaRun build8258 (firstSlotMem build8258) (smallTransfer build8258)).reboots
      (.stopRsp { imageSize := 70 }) = true := by decide +kernel
  refine otaMcuReboot_checked (OtaReached.run _ _ _) reboots ?_
  unfold Consistent
  decide +kernel

/-- An image of one byte is accepted without a header: the client reboots into a blank slot. -/
theorem headerless_image_reboots
    : ∃ w, OtaReached build8258 w ∧ w.reboots (.stopRsp {}) = true
      ∧ ¬ImageChecked build8258 w.client w.mem := by
  let info : OtaPreamble :=
    { fileVer := 0x10400001, imageType := imageType build8258, manufaurerCode := manufacturerCode }
  refine ⟨otaRun build8258 (firstSlotMem build8258)
    [
      .startRsp { info with imageSize := 1 },
      .dataRsp { toOtaPreamble := info, payloadSize := 1, payload := fun _ => 0 }
    ], OtaReached.run _ _ _, ?_, ?_⟩
  · decide +kernel
  · rintro ⟨size, -⟩
    revert size
    decide +kernel

end TelinkSdk
