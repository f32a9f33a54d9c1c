import TelinkSdk.Ota.Frame

/-! A checked write that fails inside `ota_DataProcess`. The session is given up there, but the
caller does not learn of it and goes on with the variables that `ota_init` has cleared.
-/

namespace TelinkSdk

open Nor

variable {k : OtaBuild} {env : Env} {s : OtaClient} {d : Dev} {m : Mem} {pHdr : OtaDataFrame}

/-- The client has left its session: it is in the state that `ota_init` makes, it has sent nothing
and its data-request timer is off.
-/
structure GivenUp (s s' : OtaClient) : Prop where
  idle : s'.otaState = .staIdle
  info : s'.devOtaInfo = {} ∧ s'.binInfo = {}
  block : s'.blockDataCount = 0
  offset : s'.flashOffsetAddr = 0
  crc : s'.crcValue = 0xffffffff
  silent : s'.sent = s.sent
  timer : s'.otaDataReqTimer = false

/-- The index of the first byte of the image in a frame, and the client at that byte. -/
def OtaDataFrame.parsed (pHdr : OtaDataFrame) (s : OtaClient) : Nat × OtaClient :=
  otaDataProcess.parsed pHdr.payloadSize.toNat pHdr.payload s

/-- The bytes of the image in a frame, with the keyword masked. -/
def OtaDataFrame.bytes (k : OtaBuild) (pHdr : OtaDataFrame) (s : OtaClient) : List UInt8 :=
  let datalen := pHdr.payloadSize.toNat - (pHdr.parsed s).1
  (otaDataProcess.masked k pHdr.payload datalen (pHdr.parsed s).1 (pHdr.parsed s).2).read
    (pHdr.parsed s).1 datalen

/-- Where the bytes of the image in a frame go. -/
def OtaDataFrame.addr (pHdr : OtaDataFrame) (s : OtaClient) : Nat :=
  (pHdr.parsed s).2.newAddr + (pHdr.parsed s).2.flashOffsetAddr

/-- The frame has bytes of the image, and `flash_writeWithCheck` fails on them. -/
structure OtaDataFrame.WriteFails (k : OtaBuild) (env : Env) (pHdr : OtaDataFrame) (s : OtaClient)
    (d : Dev) : Prop where
  nonempty : pHdr.payloadSize ≠ 0
  stores : (pHdr.parsed s).2.otaState = .staDataing
  fails : (Prog.run env (flashWriteWithCheck (pHdr.addr s) (pHdr.bytes k s)) d).1 = false

/-- The flash after the failed write. -/
def OtaDataFrame.flash (k : OtaBuild) (env : Env) (pHdr : OtaDataFrame) (s : OtaClient) (d : Dev)
    : Mem :=
  (d.issue env (.program (pHdr.addr s) (pHdr.bytes k s))).mem

/-- Where the caller looks for the checksum once `ota_init` has cleared the announced size: in
front of the slot, by the size of the header and of the checksum.
-/
def OtaDataFrame.clearedCrcAddr (k : OtaBuild) (pHdr : OtaDataFrame) (s : OtaClient) (m : Mem)
    : Nat :=
  (otaInit k m (pHdr.parsed s).2).crcAddr

theorem OtaDataFrame.nonempty_toNat (nonempty : pHdr.payloadSize ≠ 0)
    : 0 < pHdr.payloadSize.toNat :=
  Nat.pos_of_ne_zero fun zero => nonempty (UInt8.toNat_inj.mp zero)

/-- The session is given up inside `ota_DataProcess`. -/
theorem OtaDataFrame.WriteFails.process (failed : pHdr.WriteFails k env s d)
    : Prog.run env (otaDataProcess k pHdr.payloadSize.toNat pHdr.payload s) d
      = (otaAbort k (pHdr.flash k env s d)
          (otaDataProcess.counted (pHdr.payloadSize.toNat - (pHdr.parsed s).1) (pHdr.parsed s).2),
        d.issue env (.program (pHdr.addr s) (pHdr.bytes k s))) := by
  obtain ⟨nonempty, stores, fails⟩ := failed
  have device := (run_flashWriteWithCheck env (pHdr.addr s) (pHdr.bytes k s) d).1
  rw [otaDataProcess_store ⟨stores, OtaDataFrame.nonempty_toNat nonempty⟩,
    otaDataProcess.store_shape, Prog.run_bind]
  change Prog.run env
    (if (Prog.run env (flashWriteWithCheck (pHdr.addr s) (pHdr.bytes k s)) d).1 then _ else _)
    (Prog.run env (flashWriteWithCheck (pHdr.addr s) (pHdr.bytes k s)) d).2 = _
  rw [fails, device]
  rfl

/-- What the caller makes of a client whose session was given up: it is complete with the cleared
size, so the word that lies where its checksum should be decides.
-/
theorem otaDataRspHandler.next_cleared (s s' : OtaClient) (m m' : Mem) (silent : s'.sent = s.sent)
    : GivenUp s
        (otaDataRspHandler.next k
          { otaAbort k m s' with
            blockDataCount := ((otaAbort k m s').blockDataCount + 1) % u32Mod } m')
      ↔ m'.le32 (otaInit k m s').crcAddr ≠ 0xffffffff := by
  have complete : (otaAbort k m s').otaHeadercnt ≥ (otaAbort k m s').devOtaInfo.imageSize :=
    Nat.zero_le _
  have crc : (otaAbort k m s').crcValue.toNat = 0xffffffff := rfl
  have addr : { otaAbort k m s' with
      blockDataCount := ((otaAbort k m s').blockDataCount + 1) % u32Mod }.crcAddr
      = (otaInit k m s').crcAddr := rfl
  unfold otaDataRspHandler.next
  rw [if_pos complete, addr]
  by_cases found : m'.le32 (otaInit k m s').crcAddr = 0xffffffff
  · rw [if_pos (found.trans crc.symm)]
    constructor
    · intro given
      cases given.idle
    · intro other
      exact absurd found other
  · rw [if_neg fun same => found (same.trans crc)]
    exact ⟨fun _ => found, fun _ => ⟨rfl, ⟨rfl, rfl⟩, rfl, rfl, rfl, silent, rfl⟩⟩

section Reached

/-- A client that has come to the image in a session is about to store it. -/
theorem Session.parsed_storing (session : Session k s m)
    (stores : (pHdr.parsed s).2.otaState = .staDataing)
    : Storing k (pHdr.parsed s).2 m := by
  have same := (otaDataProcess.parsed_kept pHdr.payloadSize.toNat pHdr.payload s).info
  unfold OtaDataFrame.parsed at stores ⊢
  unfold otaDataProcess.parsed at stores same ⊢
  split at stores
  · rename_i starting
    rw [if_pos starting] at same ⊢
    rcases ((session.reading starting).header pHdr.payload pHdr.payloadSize.toNat 0).2 with
      reading | atImage
    · cases stores.symm.trans reading.state
    · exact atImage.storing (same ▸ session.announced)
  · rename_i other
    rw [if_neg other]
    exact session.storing stores

/-- In a run of the client the checksum is looked for outside the block that was just written, and
in front of the slot that the client has used.
-/
theorem OtaDataFrame.clearedCrc_reached {w : OtaWorld} (reached : OtaReached k w)
    (stores : (pHdr.parsed w.client).2.otaState = .staDataing) (memory : d.mem = w.mem)
    : (pHdr.flash k env w.client d).le32
        (pHdr.clearedCrcAddr k w.client (pHdr.flash k env w.client d))
      = w.mem.le32 (pHdr.clearedCrcAddr k w.client w.mem) := by
  have storing := reached.session.parsed_storing stores
  have kept := otaDataProcess.parsed_kept pHdr.payloadSize.toNat pHdr.payload w.client
  have agrees : Agrees k (pHdr.parsed w.client).2 w.mem := kept.boot.trans reached.agrees
  have short : pHdr.payloadSize.toNat - (pHdr.parsed w.client).1 < 256 := by
    have byte := pHdr.payloadSize.toNat_lt
    omega
  have slot : SlotStep k (pHdr.parsed w.client).2
      (d.step env (.program (pHdr.addr w.client) (pHdr.bytes k w.client))) := by
    have fills := @Storing.fills k env (pHdr.parsed w.client).2 d w.mem storing pHdr.payload _ short
      (pHdr.parsed w.client).1
    apply fills.steps
    rw [otaDataProcess.store_shape, Prog.trace_bind]
    exact List.mem_append_left _ List.mem_cons_self
  -- the client looks at the keyword again and finds the same slot
  have still : Agrees k (pHdr.parsed w.client).2 (pHdr.flash k env w.client d) := by
    unfold OtaDataFrame.flash Dev.issue Step.apply
    dsimp only
    split
    · exact slot.agrees (memory ▸ agrees)
    · exact memory ▸ agrees
  have same : pHdr.clearedCrcAddr k w.client (pHdr.flash k env w.client d)
      = pHdr.clearedCrcAddr k w.client w.mem := by
    have looks : mcuBootAddrGet k (pHdr.flash k env w.client d) = mcuBootAddrGet k w.mem :=
      still.symm.trans agrees
    simp only [OtaDataFrame.clearedCrcAddr, otaInit, OtaClient.crcAddr, OtaClient.newAddr, looks]
    rfl
  have away : ∀ j < 4,
      pHdr.clearedCrcAddr k w.client w.mem + j < (pHdr.parsed w.client).2.newAddr
      ∨ (pHdr.parsed w.client).2.newAddr + otaMaxImageSize + 255
        ≤ pHdr.clearedCrcAddr k w.client w.mem + j := by
    intro j inside
    have sized := storing.sized
    have slots := @slots_apart (pHdr.parsed w.client).2
    have addr : pHdr.clearedCrcAddr k w.client w.mem
        = ((pHdr.parsed w.client).2.newAddr
            + (u32Mod - (pHdr.parsed w.client).2.otaHeadersize % u32Mod) + (u32Mod - 4))
          % u32Mod := by
      simp only [OtaDataFrame.clearedCrcAddr, otaInit, OtaClient.crcAddr, OtaClient.newAddr,
        ← show (pHdr.parsed w.client).2.mcuBootAddr = mcuBootAddrGet k w.mem from agrees,
        Nat.add_zero]
    rw [addr]
    simp only [flashOtaNewimageAddr, otaMaxImageSize, otaHeadLength, u16Mod, u32Mod] at *
    omega
  rw [same]
  apply Mem.le32_congr
  intro j inside
  refine (Dev.issue_untouched ?_).trans (congrFun memory _)
  intro touched
  obtain ⟨low, high⟩ := slot.within _ touched
  have apart := away j inside
  omega

end Reached

/-- After a failed write the session is given up exactly if the flash does not hold `0xffffffff`
where the caller looks for a checksum. In a run of the client that is a condition on the flash
before the frame.
-/
theorem otaDataRspHandler_givesUp_iff (accepted : otaDataRspHandler.accepts s pHdr = true)
    (failed : pHdr.WriteFails k env s (lockTo env false d))
    : (GivenUp s (Prog.run env (otaDataRspHandler k pHdr s) d).1
        ↔ (pHdr.flash k env s (lockTo env false d)).le32
            (pHdr.clearedCrcAddr k s (pHdr.flash k env s (lockTo env false d)))
          ≠ 0xffffffff)
      ∧ ∀ w, OtaReached k w → w.client = s → w.mem = d.mem
        → (pHdr.flash k env s (lockTo env false d)).le32
            (pHdr.clearedCrcAddr k s (pHdr.flash k env s (lockTo env false d)))
          = d.mem.le32 (pHdr.clearedCrcAddr k s d.mem) := by
  have busy : s.otaState ≠ .staIdle := by
    intro idle
    have stores := failed.stores
    have passed : pHdr.parsed s = (0, s) :=
      otaDataProcess.parsed_past (by rw [idle]; decide)
    rw [passed, idle] at stores
    cases stores
  constructor
  · rw [otaDataRspHandler, if_neg busy, if_pos accepted, if_neg failed.nonempty]
    simp only [Prog.run_bind, run_flashUnlock, failed.process, run_flashLock, Prog.run_view,
      lockTo_mem]
    have silent : (otaDataProcess.counted (pHdr.payloadSize.toNat - (pHdr.parsed s).1)
        (pHdr.parsed s).2).sent = s.sent :=
      (otaDataProcess.parsed_kept pHdr.payloadSize.toNat pHdr.payload s).sent
    exact otaDataRspHandler.next_cleared s _ _ _ silent
  · rintro w reached rfl memory
    rw [← memory]
    exact OtaDataFrame.clearedCrc_reached reached failed.stores memory.symm

/-- The second block of the small transfer, whose image bytes come behind the end of the header. -/
def smallTail : OtaDataFrame where
  fileVer := 0x10400001
  imageType := imageType build8258
  manufaurerCode := manufacturerCode
  imageSize := 1
  payloadSize := 22
  payload := fun i => (List.replicate 10 0 ++ bytes32 8 ++ bytes32 0 ++ bytes32 0xDEBB20E3).getD i 0

/-- The client in front of that block, with flash contents `m`. -/
def atSmallTail (m : Mem) : OtaWorld := otaRun build8258 m ((smallTransfer build8258).take 2)

/-- The supply is too low for the block, and the slot in front is in use up to its end. -/
theorem otaDataRspHandler_givesUp_full
    : ∃ s',
        GivenUp (atSmallTail (Function.update (firstSlotMem build8258) 0x3ffbe 0)).client s' := by
  obtain ⟨w, named⟩ : ∃ w, w = atSmallTail (Function.update (firstSlotMem build8258) 0x3ffbe 0) :=
    ⟨_, rfl⟩
  have accepted : otaDataRspHandler.accepts w.client smallTail = true := by
    subst named
    decide +kernel
  have failed : smallTail.WriteFails build8258 { lowVoltage := fun _ => true } w.client
      (lockTo { lowVoltage := fun _ => true } false w.dev) := by
    subst named
    exact ⟨by decide, by decide +kernel, by decide +kernel⟩
  have reached : OtaReached build8258 w := named ▸ OtaReached.run _ _ _
  obtain ⟨given, before⟩ := otaDataRspHandler_givesUp_iff accepted failed
  rw [← named]
  refine ⟨_, given.mpr ?_⟩
  rw [before w reached rfl rfl, named]
  decide +kernel

/-- Here the slot in front is blank at its end. The client takes the checksum of its cleared image
for right, and asks the server to end a transfer that has failed.
-/
theorem failed_write_accepted
    : let env : Env := { lowVoltage := fun _ => true }
      let w := atSmallTail (firstSlotMem build8258)
      let s' := (w.step build8258 env (.dataRsp smallTail)).client
      OtaReached build8258 w ∧ w.client.otaState = .staStarting
        ∧ otaDataRspHandler.accepts w.client smallTail = true
        ∧ smallTail.WriteFails build8258 env w.client (lockTo env false w.dev)
        ∧ s'.otaState = .staEnd ∧ s'.blockDataCount = 1
        ∧ s'.otaDataReqTimer = true ∧ s'.sent.getLast?.map OtaCmd.cmdId = some .stopReq := by
  refine ⟨OtaReached.run _ _ _, ?_, ?_, ⟨by decide, ?_, ?_⟩, ?_⟩
  · decide +kernel
  · decide +kernel
  · decide +kernel
  · decide +kernel
  · decide +kernel

end TelinkSdk
