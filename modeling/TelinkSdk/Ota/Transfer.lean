import TelinkSdk.Ota.NewSlot
import TelinkSdk.Ota.Server

/-! A transfer between one client and one server. The network may lose, repeat, delay and
reorder frames: any frame that was ever sent can arrive at any time. The blocks reach the new
slot of the client in order and once each all the same.
-/

namespace TelinkSdk

open Nor

-----------------------------------------------------------------------------------------
-- The system
-----------------------------------------------------------------------------------------

/-- The client with its flash and the server. The frames of the network are those that the two
have sent so far.
-/
structure OtaNet where
  server : OtaServer
  world : OtaWorld
  /-- The numbers of the blocks that passed the test of `ota_dataRspHandler`, in order. -/
  applied : List Nat := []

/-- A response as it arrives. The client may look behind the last byte of the payload, where it
finds whatever is in its memory.
-/
def OtaRsp.event (rest : Mem) : OtaRsp → OtaEvent
  | .startRsp pay => .startRsp pay
  | .stopRsp pay => .stopRsp pay
  | .dataRsp pay payloadSize payload =>
      .dataRsp { toOtaPreamble := pay, payloadSize, payload := fun i => payload.getD i (rest i) }

/-- The block that an event applies. -/
def OtaWorld.applies (w : OtaWorld) : OtaEvent → List Nat
  | .dataRsp pHdr =>
      if w.client.otaState ≠ .staIdle ∧ otaDataRspHandler.accepts w.client pHdr = true then
        [pHdr.imageSize]
      else []
  | _ => []

/-- What can happen to the client in a network with a server. -/
def OtaNet.Delivers (n : OtaNet) (e : OtaEvent) : Prop :=
  e = .retryTimer ∨ e = .queryTimer
    ∨ ∃ frame ∈ n.server.sent, ∃ rest, e = frame.rsp.event rest

def OtaNet.event (k : OtaBuild) (env : Env) (n : OtaNet) (e : OtaEvent) : OtaNet :=
  { n with world := n.world.step k env e, applied := n.applied ++ n.world.applies e }

/-- The states from the start of the client and the server on, until the client returns to
`OTA_STA_IDLE`. The client starts with flash contents `m`, the server with `file`.
-/
inductive Transfer (ks k : OtaBuild) (file m : Mem) : OtaNet → Prop where
  | boot (locked : Bool)
      : Transfer ks k file m
          {
            server := otaServerInit ks file {}
            world := { client := otaPowerUp k m, mem := m, locked }
          }
  | request {n : OtaNet} (before : Transfer ks k file m n) {cmd : OtaCmd}
      (sent : cmd ∈ n.world.client.sent)
      : Transfer ks k file m { n with server := tlAppOtaCmdHandler file cmd n.server }
  | event {n : OtaNet} (before : Transfer ks k file m n) {env : Env} (steady : env.Steady)
      {e : OtaEvent} (delivers : n.Delivers e)
      (busy : n.world.client.otaState ≠ .staIdle
        → (n.event k env e).world.client.otaState ≠ .staIdle)
      : Transfer ks k file m (n.event k env e)

/-- The length of the OTA header in front of the image, with the tag of the image. -/
abbrev fileHeadersize : Nat := 62

/-- A file that can be served whole and has a header of 56 bytes. -/
structure Servable (ks : OtaBuild) (file : Mem) (size : Nat) : Prop extends HoldsFile ks file size where
  uneven : size % otaFramesize ≠ 0
  headerLen : (OtaHdrFields.load file (otaFileAddr ks file)).otaHdrLen = 56
  image : fileHeadersize < size

/-- The file without its header, as it is stored: its keyword is masked. -/
def storedImage (ks k : OtaBuild) (file : Mem) (otaHeadersize : Nat) : Mem :=
  Function.update (fun i => otaFile ks file (otaHeadersize + i)) (otaTlnkKeywordAddroffset k)
    blankByte

-----------------------------------------------------------------------------------------
-- The header
-----------------------------------------------------------------------------------------

/-- A client at byte `c` of the header. -/
structure HeaderAt (s : OtaClient) (c : Nat) : Prop where
  state : s.otaState = .staStarting
  count : s.otaHeadercnt = c
  size : s.otaHeadersize = if c ≤ otaHeadLength then 0 else fileHeadersize

/-- The part of the variables that parsing and storing a block leave alone. -/
structure SameTransfer (s s' : OtaClient) : Prop extends SameSession s s' where
  block : s'.blockDataCount = s.blockDataCount
  cb : s'.otaDataCb = s.otaDataCb
  sent : s'.sent = s.sent

theorem SameTransfer.trans {s s' s'' : OtaClient} (first : SameTransfer s s')
    (second : SameTransfer s' s'')
    : SameTransfer s s'' where
  info := second.info.trans first.info
  boot := second.boot.trans first.boot
  block := second.block.trans first.block
  cb := second.cb.trans first.cb
  sent := second.sent.trans first.sent

section Header

variable {s : OtaClient} {payload : Mem} {c i : Nat}

/-- A byte of the header moves the position on and leaves the rest alone. -/
structure HeaderNext (s s' : OtaClient) (c : Nat) : Prop extends SameTransfer s s', HeaderAt s' c where
  offset : s'.flashOffsetAddr = s.flashOffsetAddr

theorem HeaderAt.field (position : HeaderAt s c) (inside : c < fileHeadersize)
    (length : c = otaHeadLength → payload.le16 i = 56)
    : HeaderNext s
        { otaDataProcess.field payload i s with
          otaHeadercnt := ((otaDataProcess.field payload i s).otaHeadercnt + 1) % u32Mod }
        (c + 1) := by
  obtain ⟨state, count, size⟩ := position
  have next : (s.otaHeadercnt + 1) % u32Mod = c + 1 := by
    rw [count]
    simp only [u32Mod, fileHeadersize] at *
    omega
  unfold otaDataProcess.field
  simp only [otaHeadLength, otaHeadMauncode, otaHeadImagetype, otaHeadFilever, fileHeadersize,
    count] at *
  by_cases isLength : c = 6
  · rw [if_pos isLength]
    refine ⟨⟨⟨rfl, rfl⟩, rfl, rfl, rfl⟩, ⟨state, next, ?_⟩, rfl⟩
    rw [length isLength, if_neg]
    simp only [otaHeadLength]
    omega
  · rw [if_neg isLength]
    have same : s.otaHeadersize = if c + 1 ≤ otaHeadLength then 0 else fileHeadersize := by
      rw [size]
      simp only [otaHeadLength, fileHeadersize]
      split <;> split <;> omega
    split <;> (try split) <;> (try split) <;>
      exact ⟨⟨⟨rfl, rfl⟩, rfl, rfl, rfl⟩, ⟨state, next, same⟩, rfl⟩

/-- The loop takes one byte of the header. -/
theorem HeaderAt.byte (position : HeaderAt s c) (inside : c < fileHeadersize)
    (length : c = otaHeadLength → payload.le16 i = 56) (left : Nat)
    : ∃ s', otaDataProcess.header payload (left + 1) i s
          = otaDataProcess.header payload left (i + 1) s'
      ∧ HeaderNext s s' (c + 1) := by
  rw [otaDataProcess.header]
  by_cases starts : otaDataProcess.startsField s = true
  · rw [if_pos starts]
    exact ⟨_, rfl, position.field inside length⟩
  · obtain ⟨state, count, size⟩ := position
    have next : (s.otaHeadercnt + 1) % u32Mod = c + 1 := by
      rw [count]
      simp only [u32Mod, fileHeadersize] at *
      omega
    have other : c ≠ otaHeadLength := by
      rintro rfl
      simp [otaDataProcess.startsField, count] at starts
    have goes : ¬(s.otaHeadercnt = s.otaHeadersize ∧ s.otaHeadersize ≠ 0) := by
      rw [count, size]
      simp only [otaHeadLength, fileHeadersize] at *
      split <;> omega
    rw [if_neg starts, if_neg goes]
    refine ⟨_, rfl, ⟨⟨rfl, rfl⟩, rfl, rfl, rfl⟩, ⟨state, next, ?_⟩, rfl⟩
    rw [size]
    simp only [otaHeadLength, fileHeadersize] at *
    split <;> split <;> omega

/-- A block that ends inside the header, by induction on its bytes. -/
theorem HeaderAt.within (position : HeaderAt s c) {left : Nat} (inside : c + left ≤ fileHeadersize)
    (length : c ≤ otaHeadLength → otaHeadLength < c + left
      → payload.le16 (i + (otaHeadLength - c)) = 56)
    : (otaDataProcess.header payload left i s).1 = i + left
      ∧ HeaderNext s (otaDataProcess.header payload left i s).2 (c + left) := by
  induction left generalizing s c i with
  | zero => exact ⟨rfl, ⟨⟨rfl, rfl⟩, rfl, rfl, rfl⟩, position, rfl⟩
  | succ left ih =>
      have first : c = otaHeadLength → payload.le16 i = 56 := by
        rintro rfl
        simpa using length (Nat.le_refl _) (by omega)
      obtain ⟨s', shape, next⟩ := position.byte (by omega) first left
      have later : c + 1 ≤ otaHeadLength → otaHeadLength < c + 1 + left
          → payload.le16 (i + 1 + (otaHeadLength - (c + 1))) = 56 := by
        intro before after
        have index : i + 1 + (otaHeadLength - (c + 1)) = i + (otaHeadLength - c) := by omega
        rw [index]
        exact length (by omega) (by omega)
      obtain ⟨index, rest⟩ := ih next.toHeaderAt (by omega) later
      have count : c + 1 + left = c + (left + 1) := by omega
      rw [shape, index, ← count]
      exact ⟨by omega, next.toSameTransfer.trans rest.toSameTransfer, rest.toHeaderAt,
        rest.offset.trans next.offset⟩

/-- The client has come to the first byte of the image. -/
structure ImageNext (s s' : OtaClient) : Prop extends SameTransfer s s' where
  state : s'.otaState = .staDataing
  count : s'.otaHeadercnt = fileHeadersize
  size : s'.otaHeadersize = fileHeadersize
  offset : s'.flashOffsetAddr = s.flashOffsetAddr

/-- A block that reaches the image stops there, by induction on the bytes in front of it. -/
theorem HeaderAt.reaches (position : HeaderAt s c) (past : otaHeadLength < c) {ahead left : Nat}
    (ends : c + ahead = fileHeadersize)
    : (otaDataProcess.header payload (ahead + (left + 1)) i s).1 = i + ahead
      ∧ ImageNext s (otaDataProcess.header payload (ahead + (left + 1)) i s).2 := by
  induction ahead generalizing s c i with
  | zero =>
      obtain ⟨state, count, size⟩ := position
      rw [if_neg (by omega)] at size
      have last : c = fileHeadersize := ends
      have plain : otaDataProcess.startsField s ≠ true := by
        rw [otaDataProcess.startsField, count, last]
        decide
      have image : s.otaHeadercnt = s.otaHeadersize ∧ s.otaHeadersize ≠ 0 := by
        rw [count, size, last]
        exact ⟨rfl, by decide⟩
      rw [Nat.zero_add, otaDataProcess.header, if_neg plain, if_pos image]
      exact ⟨rfl, ⟨⟨rfl, rfl⟩, rfl, rfl, rfl⟩, rfl, count.trans last, size, rfl⟩
  | succ ahead ih =>
      have other : c = otaHeadLength → payload.le16 i = 56 := by
        intro no
        omega
      obtain ⟨s', shape, next⟩ := position.byte (by omega) other (ahead + (left + 1))
      obtain ⟨index, rest⟩ := ih next.toHeaderAt (i := i + 1) (by omega) (by omega)
      rw [Nat.add_right_comm, shape, index]
      exact ⟨by omega, next.toSameTransfer.trans rest.toSameTransfer, rest.state, rest.count,
        rest.size, rest.offset.trans next.offset⟩

end Header

-----------------------------------------------------------------------------------------
-- Storing
-----------------------------------------------------------------------------------------

section Storing

variable {k : OtaBuild} {env : Env} {s : OtaClient} {d : Dev}

/-- The client after a block of `datalen` bytes of the image. -/
structure StoredNext (s s' : OtaClient) (datalen : Nat) : Prop extends SameTransfer s s' where
  state : s'.otaState = s.otaState
  size : s'.otaHeadersize = s.otaHeadersize
  count : s'.otaHeadercnt = s.otaHeadercnt + datalen
  offset : s'.flashOffsetAddr = s.flashOffsetAddr + datalen

/-- A block that is stored on blank flash is in place. -/
theorem run_store_blank (steady : env.Steady) (payload : Mem) {datalen : Nat} (i : Nat)
    (small : s.otaHeadercnt + datalen < u32Mod ∧ s.flashOffsetAddr + datalen < u32Mod)
    (blank : d.mem.BlankOn (s.newAddr + s.flashOffsetAddr)
      (s.newAddr + s.flashOffsetAddr + datalen))
    : StoredNext s (Prog.run env (otaDataProcess.store k payload datalen i s) d).1 datalen
      ∧ ∀ x, (Prog.run env (otaDataProcess.store k payload datalen i s) d).2.mem x
        = if s.newAddr + s.flashOffsetAddr ≤ x ∧ x < s.newAddr + s.flashOffsetAddr + datalen then
            if x = s.newAddr + otaTlnkKeywordAddroffset k then blankByte
            else payload (i + (x - s.newAddr - s.flashOffsetAddr))
          else d.mem x := by
  obtain ⟨bytes, crcValue, length, masked, shape⟩ := @otaDataProcess.store_eq k s payload datalen i
  have masked := masked small.2
  rw [← length] at blank
  have written := flashWriteWithCheck_blank steady blank
  rw [shape, Prog.run_bind, written]
  simp only [if_true, Prog.run_pure]
  refine ⟨⟨⟨⟨rfl, rfl⟩, rfl, rfl, rfl⟩, rfl, rfl, ?_, ?_⟩, ?_⟩
  · exact Nat.mod_eq_of_lt small.1
  · exact Nat.mod_eq_of_lt small.2
  · intro x
    rw [steady.issue_mem, Cmd.apply, ← length]
    split
    · rename_i inside
      obtain ⟨j, rfl⟩ := Nat.exists_eq_add_of_le inside.1
      rw [Mem.program_blank (by omega) (blank _ (by omega) (by omega)), masked j (by omega)]
      have same : s.flashOffsetAddr + j = otaTlnkKeywordAddroffset k
          ↔ s.newAddr + s.flashOffsetAddr + j = s.newAddr + otaTlnkKeywordAddroffset k := by
        omega
      simp only [same]
      congr 3
      omega
    · exact Mem.program_outside (by omega)

end Storing

-----------------------------------------------------------------------------------------
-- The invariant
-----------------------------------------------------------------------------------------

/-- A response that carries what the file says. -/
def Genuine (ks : OtaBuild) (file : Mem) (size : Nat) : OtaRsp → Prop
  | .startRsp pay => pay = otaFileInfo ks file
  | .stopRsp _ => True
  | .dataRsp pay payloadSize payload => ∃ n, otaFramesize * n < size
      ∧ pay = { otaFileInfo ks file with imageSize := n }
      ∧ payloadSize = UInt8.ofNat (min otaFramesize (size - otaFramesize * n))
      ∧ payload
        = (otaFile ks file).read (otaFramesize * n) (min otaFramesize (size - otaFramesize * n))

/-- The new slot with the first `off` bytes of the image. -/
structure SlotHolds (ks k : OtaBuild) (file m : Mem) (size : Nat) (s : OtaClient) (mem : Mem)
    : Prop where
  stored : ∀ i < s.flashOffsetAddr,
    mem (s.newAddr + i) = storedImage ks k file fileHeadersize i
  blank : mem.BlankOn (s.newAddr + s.flashOffsetAddr) (s.newAddr + erasedSize size)
  outside : ∀ x, x < s.newAddr ∨ s.newAddr + erasedSize size ≤ x → mem x = m x

/-- A client that has applied `blockDataCount` blocks in its first session. -/
structure InSession (ks : OtaBuild) (file : Mem) (size : Nat) (s : OtaClient) : Prop where
  busy : s.otaState ≠ .staIdle
  info : s.devOtaInfo = otaFileInfo ks file
  count : s.otaHeadercnt = min (otaFramesize * s.blockDataCount) size
  header : s.otaHeadersize = if s.blockDataCount = 0 then 0 else fileHeadersize
  offset : s.flashOffsetAddr = s.otaHeadercnt - fileHeadersize
  starting : s.otaState = .staStarting ↔ s.blockDataCount ≤ 1
  finished : s.otaState = .staEnd ↔ size ≤ s.otaHeadercnt
  asks : s.otaState = .staEnd → s.otaDataCb = some .stopReq

/-- A client that has not started its first session. -/
structure Unstarted (s : OtaClient) : Prop where
  idle : s.otaState = .staIdle
  count : s.otaHeadercnt = 0
  header : s.otaHeadersize = 0
  block : s.blockDataCount = 0
  offset : s.flashOffsetAddr = 0
  cb : s.otaDataCb = none

/-- The invariant of a transfer. -/
structure Agreed (ks k : OtaBuild) (file m : Mem) (size : Nat) (n : OtaNet) : Prop where
  loaded : Loaded ks file n.server
  genuine : ∀ frame ∈ n.server.sent, Genuine ks file size frame.rsp
  asked : ∀ cmd ∈ n.world.client.sent, cmd.cmdId = .dataReq
    → otaFramesize * cmd.pay.imageSize < size
  applied : n.applied = List.range n.world.client.blockDataCount
  client : Unstarted n.world.client ∧ n.world.mem = m
    ∨ InSession ks file size n.world.client
      ∧ SlotHolds ks k file m size n.world.client n.world.mem

section Blocks

variable {ks k : OtaBuild} {env : Env} {file m mem mem' : Mem} {size : Nat} {s s' : OtaClient} {d : Dev}

theorem newAddr_congr (boot : s'.mcuBootAddr = s.mcuBootAddr) : s'.newAddr = s.newAddr := by
  rw [OtaClient.newAddr, OtaClient.newAddr, boot]

theorem SlotHolds.congr (holds : SlotHolds ks k file m size s mem)
    (boot : s'.mcuBootAddr = s.mcuBootAddr) (offset : s'.flashOffsetAddr = s.flashOffsetAddr)
    : SlotHolds ks k file m size s' mem := by
  obtain ⟨stored, blank, outside⟩ := holds
  have slot := newAddr_congr boot
  refine ⟨?_, ?_, ?_⟩
  · rwa [slot, offset]
  · rwa [slot, offset]
  · rwa [slot]

/-- The next bytes of the image continue the prefix. -/
theorem SlotHolds.store (holds : SlotHolds ks k file m size s mem) {payload : Mem}
    {datalen i : Nat} (boot : s'.mcuBootAddr = s.mcuBootAddr)
    (offset : s'.flashOffsetAddr = s.flashOffsetAddr + datalen)
    (fits : s.flashOffsetAddr + datalen ≤ erasedSize size)
    (bytes : ∀ j < datalen, payload (i + j)
      = otaFile ks file (fileHeadersize + (s.flashOffsetAddr + j)))
    (written : ∀ x, mem' x
      = if s.newAddr + s.flashOffsetAddr ≤ x ∧ x < s.newAddr + s.flashOffsetAddr + datalen then
          if x = s.newAddr + otaTlnkKeywordAddroffset k then blankByte
          else payload (i + (x - s.newAddr - s.flashOffsetAddr))
        else mem x)
    : SlotHolds ks k file m size s' mem' := by
  obtain ⟨stored, blank, outside⟩ := holds
  have slot := newAddr_congr boot
  refine ⟨?_, ?_, ?_⟩
  · intro j inside
    rw [slot, written]
    by_cases old : j < s.flashOffsetAddr
    · rw [if_neg (by omega)]
      exact stored j old
    · obtain ⟨l, rfl⟩ := Nat.exists_eq_add_of_le (Nat.not_lt.mp old)
      have index : s.newAddr + (s.flashOffsetAddr + l) - s.newAddr - s.flashOffsetAddr = l := by
        omega
      rw [if_pos (by omega), index, bytes l (by omega), storedImage, Function.update_apply]
      simp only [Nat.add_right_inj]
  · intro x low high
    rw [slot, offset] at low
    rw [slot] at high
    rw [written, if_neg (by omega)]
    exact blank x (by omega) high
  · intro x beyond
    rw [slot] at beyond
    rw [written, if_neg (by omega)]
    exact outside x beyond

/-- The client once a block is parsed and stored, before it asks for the next one. -/
structure BlockDone (ks k : OtaBuild) (file m : Mem) (size : Nat) (s s' : OtaClient) (mem : Mem)
    : Prop extends SameTransfer s s' where
  count : s'.otaHeadercnt = min (otaFramesize * (s.blockDataCount + 1)) size
  header : s'.otaHeadersize = fileHeadersize
  offset : s'.flashOffsetAddr = s'.otaHeadercnt - fileHeadersize
  state : s'.otaState = if s.blockDataCount = 0 then .staStarting else .staDataing
  holds : SlotHolds ks k file m size s' mem

/-- The first block is the start of the header. -/
theorem InSession.firstBlock (session : InSession ks file size s)
    (holds : SlotHolds ks k file m size s d.mem) (servable : Servable ks file size)
    (first : s.blockDataCount = 0) {payload : Mem}
    (bytes : ∀ j < otaFramesize, payload j = otaFile ks file j)
    : BlockDone ks k file m size s
        (Prog.run env (otaDataProcess k otaFramesize payload s) d).1
        (Prog.run env (otaDataProcess k otaFramesize payload s) d).2.mem := by
  have image := servable.image
  have starting := session.starting.mpr (by omega)
  have position : HeaderAt s 0 := by
    refine ⟨starting, ?_, ?_⟩
    · rw [session.count, first]
      simp
    · rw [session.header, if_pos first]
      rfl
  have length : payload.le16 (0 + (otaHeadLength - 0)) = 56 := by
    rw [← servable.headerLen]
    apply Mem.le16_congr
    intro i inside
    have place : 0 + (otaHeadLength - 0) + i = 6 + i := by simp only [otaHeadLength]
    rw [place, bytes (6 + i) (by simp only [otaFramesize]; omega), otaFile, ← Nat.add_assoc]
  obtain ⟨index, next⟩ := @HeaderAt.within s payload 0 0 position otaFramesize (by decide)
    (fun _ _ => length)
  unfold otaDataProcess
  rw [if_pos starting]
  generalize otaDataProcess.header payload otaFramesize 0 s = r at index next
  obtain ⟨i, s'⟩ := r
  dsimp only at *
  have stays : ¬(s'.otaState = .staDataing ∧ otaFramesize > 0) := by
    rintro ⟨no, _⟩
    cases next.state.symm.trans no
  rw [if_neg stays]
  have start : s.flashOffsetAddr = 0 := by
    rw [session.offset, session.count, first]
    simp
  refine ⟨next.toSameTransfer, ?_, ?_, ?_, ?_, holds.congr next.boot next.offset⟩
  · rw [Prog.run_pure, next.count, first]
    simp only [otaFramesize, fileHeadersize] at *
    omega
  · rw [Prog.run_pure, next.size]
    rfl
  · rw [Prog.run_pure, next.offset, next.count, start]
    rfl
  · rw [Prog.run_pure, next.state, if_pos first]

/-- Bytes of the image that fit into the slot are stored. -/
theorem SlotHolds.storeBlock (holds : SlotHolds ks k file m size s d.mem)
    (small : size < otaMaxImageSize) (steady : env.Steady)
    (count : s.otaHeadercnt = fileHeadersize + s.flashOffsetAddr) {payload : Mem} {datalen i : Nat}
    (fits : s.otaHeadercnt + datalen ≤ size)
    (bytes : ∀ j < datalen, payload (i + j)
      = otaFile ks file (fileHeadersize + (s.flashOffsetAddr + j)))
    : StoredNext s (Prog.run env (otaDataProcess.store k payload datalen i s) d).1 datalen
      ∧ SlotHolds ks k file m size (Prog.run env (otaDataProcess.store k payload datalen i s) d).1
          (Prog.run env (otaDataProcess.store k payload datalen i s) d).2.mem := by
  have erased := erasedSize_ge size
  have narrow : s.otaHeadercnt + datalen < u32Mod ∧ s.flashOffsetAddr + datalen < u32Mod := by
    simp only [otaMaxImageSize, u32Mod, fileHeadersize] at *
    omega
  have blank : d.mem.BlankOn (s.newAddr + s.flashOffsetAddr)
      (s.newAddr + s.flashOffsetAddr + datalen) :=
    fun x low high => holds.blank x low (by omega)
  obtain ⟨next, written⟩ := @run_store_blank k env s d steady payload datalen i narrow blank
  exact ⟨next, holds.store next.boot next.offset (by omega) bytes written⟩

/-- The second block has the rest of the header and the first bytes of the image. -/
theorem InSession.secondBlock (session : InSession ks file size s)
    (holds : SlotHolds ks k file m size s d.mem) (servable : Servable ks file size)
    (steady : env.Steady) (second : s.blockDataCount = 1) {payload : Mem} {len : Nat}
    (length : len = min otaFramesize (size - otaFramesize))
    (bytes : ∀ j < len, payload j = otaFile ks file (otaFramesize + j))
    : BlockDone ks k file m size s (Prog.run env (otaDataProcess k len payload s) d).1
        (Prog.run env (otaDataProcess k len payload s) d).2.mem := by
  have image := servable.image
  have starting := session.starting.mpr (by omega)
  have counted : s.otaHeadercnt = otaFramesize := by
    rw [session.count, second]
    simp only [otaFramesize, fileHeadersize] at *
    omega
  have start : s.flashOffsetAddr = 0 := by
    rw [session.offset, counted]
    rfl
  have position : HeaderAt s otaFramesize := by
    refine ⟨starting, counted, ?_⟩
    rw [session.header, if_neg (by omega), if_neg (by decide)]
  obtain ⟨left, long⟩ : ∃ left, len = (fileHeadersize - otaFramesize) + (left + 1) := by
    refine ⟨len - (fileHeadersize - otaFramesize) - 1, ?_⟩
    simp only [otaFramesize, fileHeadersize] at *
    omega
  obtain ⟨index, next⟩ := @HeaderAt.reaches s payload otaFramesize 0 position (by decide)
    (fileHeadersize - otaFramesize) left (by decide)
  rw [← long] at index next
  unfold otaDataProcess
  rw [if_pos starting]
  generalize otaDataProcess.header payload len 0 s = r at index next
  obtain ⟨i, s'⟩ := r
  dsimp only at *
  rw [if_pos ⟨next.state, by omega⟩]
  have empty : s'.flashOffsetAddr = 0 := next.offset.trans start
  have image' := next.count
  have fits : s'.otaHeadercnt + (len - i) ≤ size := by
    simp only [otaFramesize, fileHeadersize] at *
    omega
  have block : ∀ j < len - i, payload (i + j)
      = otaFile ks file (fileHeadersize + (s'.flashOffsetAddr + j)) := by
    intro j inside
    have position : otaFramesize + (i + j) = fileHeadersize + (s'.flashOffsetAddr + j) := by
      simp only [otaFramesize, fileHeadersize] at *
      omega
    rw [bytes (i + j) (by omega), position]
  obtain ⟨stored, kept⟩ := (holds.congr next.boot next.offset).storeBlock servable.small steady
    (by omega) fits block
  have parsed := next.toSameTransfer.trans stored.toSameTransfer
  refine ⟨parsed, ?_, stored.size.trans next.size, ?_, ?_, kept⟩
  · rw [stored.count, second]
    simp only [otaFramesize, fileHeadersize] at *
    omega
  · rw [stored.offset, stored.count]
    omega
  · rw [stored.state, next.state, if_neg (by omega)]

/-- Every later block is a part of the image. -/
theorem InSession.laterBlock (session : InSession ks file size s)
    (holds : SlotHolds ks k file m size s d.mem) (servable : Servable ks file size)
    (steady : env.Steady) (later : 2 ≤ s.blockDataCount)
    (missing : otaFramesize * s.blockDataCount < size) {payload : Mem} {len : Nat}
    (length : len = min otaFramesize (size - otaFramesize * s.blockDataCount))
    (bytes : ∀ j < len, payload j = otaFile ks file (otaFramesize * s.blockDataCount + j))
    : BlockDone ks k file m size s (Prog.run env (otaDataProcess k len payload s) d).1
        (Prog.run env (otaDataProcess k len payload s) d).2.mem := by
  have count := session.count
  have offset := session.offset
  have state : s.otaState = .staDataing := by
    cases state : s.otaState with
    | staIdle => exact absurd state session.busy
    | staStarting =>
        have early := session.starting.mp state
        omega
    | staDataing => rfl
    | staEnd =>
        have complete := session.finished.mp state
        omega
  have going : s.otaState ≠ .staStarting := by
    rw [state]
    decide
  unfold otaDataProcess
  rw [if_neg going]
  dsimp only
  rw [if_pos ⟨state, by simp only [otaFramesize] at *; omega⟩]
  have fits : s.otaHeadercnt + (len - 0) ≤ size := by omega
  have block : ∀ j < len - 0, payload (0 + j)
      = otaFile ks file (fileHeadersize + (s.flashOffsetAddr + j)) := by
    intro j inside
    have position : otaFramesize * s.blockDataCount + j
        = fileHeadersize + (s.flashOffsetAddr + j) := by
      simp only [otaFramesize, fileHeadersize] at *
      omega
    rw [Nat.zero_add, bytes j (by omega), position]
  obtain ⟨stored, kept⟩ := holds.storeBlock servable.small steady
    (by simp only [otaFramesize, fileHeadersize] at *; omega) fits block
  refine ⟨stored.toSameTransfer, ?_, ?_, ?_, ?_, kept⟩
  · rw [stored.count, count]
    simp only [otaFramesize] at *
    omega
  · rw [stored.size, session.header, if_neg (by omega)]
  · rw [stored.offset, stored.count]
    simp only [otaFramesize, fileHeadersize] at *
    omega
  · rw [stored.state, state, if_neg (by omega)]

/-- A genuine block with the next number is parsed and stored. -/
theorem InSession.block (session : InSession ks file size s)
    (holds : SlotHolds ks k file m size s d.mem) (servable : Servable ks file size)
    (steady : env.Steady) (missing : otaFramesize * s.blockDataCount < size) {payload : Mem}
    {len : Nat} (length : len = min otaFramesize (size - otaFramesize * s.blockDataCount))
    (bytes : ∀ j < len, payload j = otaFile ks file (otaFramesize * s.blockDataCount + j))
    : BlockDone ks k file m size s (Prog.run env (otaDataProcess k len payload s) d).1
        (Prog.run env (otaDataProcess k len payload s) d).2.mem := by
  have image := servable.image
  by_cases first : s.blockDataCount = 0
  · have whole : len = otaFramesize := by
      rw [length, first]
      simp only [otaFramesize, fileHeadersize] at *
      omega
    subst whole
    apply session.firstBlock holds servable first
    intro j inside
    rw [bytes j inside, first, Nat.mul_zero, Nat.zero_add]
  · by_cases second : s.blockDataCount = 1
    · rw [second, Nat.mul_one] at length bytes
      exact session.secondBlock holds servable steady second length bytes
    · exact session.laterBlock holds servable steady (by omega) missing length bytes

end Blocks

-----------------------------------------------------------------------------------------
-- Steps
-----------------------------------------------------------------------------------------

section Server

variable {ks : OtaBuild} {file : Mem} {size : Nat} {s : OtaServer}

theorem genuine_send (genuine : ∀ frame ∈ s.sent, Genuine ks file size frame.rsp) (len : Nat)
    {rsp : OtaRsp} (new : Genuine ks file size rsp)
    : ∀ frame ∈ (otaRspSend len rsp s).sent, Genuine ks file size frame.rsp := by
  intro frame member
  rcases List.mem_append.mp member with old | last
  · exact genuine frame old
  · rw [List.mem_singleton.mp last]
    exact new

theorem genuine_dataReq (genuine : ∀ frame ∈ s.sent, Genuine ks file size frame.rsp)
    (loaded : Loaded ks file s) (servable : Servable ks file size) {pdHdr : OtaPreamble}
    (inside : otaFramesize * pdHdr.imageSize < size)
    : ∀ frame ∈ (otaDataReqHandler file pdHdr s).sent, Genuine ks file size frame.rsp := by
  by_cases known : pdHdr.fileVer = s.devOtaInfo.fileVer ∧ pdHdr.imageType = s.devOtaInfo.imageType
      ∧ pdHdr.manufaurerCode = s.devOtaInfo.manufaurerCode ∧ s.otaBinState = .binValid
  · have same : pdHdr = { otaFileInfo ks file with imageSize := pdHdr.imageSize } := by
      rw [loaded.info] at known
      obtain ⟨ver, type, code, -⟩ := known
      dsimp only
      rw [← ver, ← type, ← code]
    have serves := loaded.servesBlock servable.toHoldsFile inside servable.uneven
    rw [ServesBlock, ← same] at serves
    rw [serves]
    exact genuine_send genuine _ ⟨_, inside, same, rfl, rfl⟩
  · rw [otaDataReqHandler, if_neg known]
    exact genuine

/-- A frame of the client is answered from the file. -/
theorem genuine_frame (genuine : ∀ frame ∈ s.sent, Genuine ks file size frame.rsp)
    (loaded : Loaded ks file s) (servable : Servable ks file size) {cmd : OtaCmd}
    (asked : cmd.cmdId = .dataReq → otaFramesize * cmd.pay.imageSize < size)
    : ∀ frame ∈ (tlAppOtaCmdHandler file cmd s).sent, Genuine ks file size frame.rsp := by
  unfold tlAppOtaCmdHandler
  cases kind : cmd.cmdId with
  | startReq =>
      dsimp only
      unfold otaStartReqHandler
      split
      · exact genuine
      · exact genuine_send genuine _ loaded.info
  | stopReq =>
      dsimp only
      unfold otaStopReqHandler
      split
      · exact genuine_send genuine _ trivial
      · exact genuine
  | dataReq =>
      dsimp only
      split
      · have taken : Loaded ks file { s with seqNumber := cmd.seqNo.toNat } := { loaded with }
        exact @genuine_dataReq ks file size { s with seqNumber := cmd.seqNo.toNat } genuine taken
          servable _ (asked kind)
      · exact genuine

end Server

section Client

variable {ks k : OtaBuild} {env : Env} {file m mem : Mem} {size : Nat} {s s' : OtaClient} {d : Dev}

/-- The client's requests ask for blocks of the file. -/
def Asked (size : Nat) (s : OtaClient) : Prop :=
  ∀ cmd ∈ s.sent, cmd.cmdId = .dataReq → otaFramesize * cmd.pay.imageSize < size

theorem Asked.send (asked : Asked size s) {cmdId : OtaReq} {pay : OtaPreamble}
    (inside : cmdId = .dataReq → otaFramesize * pay.imageSize < size)
    : Asked size (otaSend cmdId pay s) := by
  intro cmd member
  rcases List.mem_append.mp member with old | last
  · exact asked cmd old
  · rw [List.mem_singleton.mp last]
    exact inside

/-- What an event leaves of a client in its first session. -/
structure Continues (ks k : OtaBuild) (file m : Mem) (size : Nat) (s : OtaClient) (mem : Mem)
    : Prop where
  session : InSession ks file size s
  holds : SlotHolds ks k file m size s mem
  asked : Asked size s

theorem Continues.send (going : Continues ks k file m size s mem) {cmdId : OtaReq}
    {pay : OtaPreamble} (inside : cmdId = .dataReq → otaFramesize * pay.imageSize < size)
    : Continues ks k file m size (otaSend cmdId pay s) mem :=
  ⟨{ going.session with }, going.holds.congr rfl rfl, going.asked.send inside⟩

/-- The retry timer of a session that goes on repeats the last request. -/
theorem Continues.timer (going : Continues ks k file m size s mem)
    (busy : (otaPeriodicDataServerCb k mem s).otaState ≠ .staIdle)
    : Continues ks k file m size (otaPeriodicDataServerCb k mem s) mem
      ∧ (otaPeriodicDataServerCb k mem s).blockDataCount = s.blockDataCount := by
  have counted : Continues ks k file m size
      { s with otaReqRetryCnt := (s.otaReqRetryCnt + 1) % 256 } mem :=
    ⟨{ going.session with }, going.holds.congr rfl rfl, going.asked⟩
  unfold otaPeriodicDataServerCb at *
  dsimp only at *
  split at busy
  · exact absurd rfl busy
  · rename_i tries
    rw [if_neg tries]
    split
    · rename_i isData
      refine ⟨counted.send fun _ => ?_, rfl⟩
      have open' : s.otaState ≠ .staEnd := by
        intro ended
        cases isData.symm.trans (going.session.asks ended)
      have missing := mt going.session.finished.mpr open'
      have count := going.session.count
      change otaFramesize * s.blockDataCount < size
      omega
    · exact ⟨counted.send (fun no => by cases no), rfl⟩
    · exact ⟨counted.send (fun no => by cases no), rfl⟩
    · exact ⟨counted, rfl⟩

/-- A client that has just counted a block. -/
structure BlockCounted (ks k : OtaBuild) (file m : Mem) (size : Nat) (s : OtaClient) (mem : Mem)
    : Prop where
  info : s.devOtaInfo = otaFileInfo ks file
  block : 0 < s.blockDataCount
  count : s.otaHeadercnt = min (otaFramesize * s.blockDataCount) size
  header : s.otaHeadersize = fileHeadersize
  offset : s.flashOffsetAddr = s.otaHeadercnt - fileHeadersize
  state : s.otaState = if s.blockDataCount ≤ 1 then .staStarting else .staDataing
  holds : SlotHolds ks k file m size s mem
  asked : Asked size s

theorem BlockDone.counted (done : BlockDone ks k file m size s s' mem)
    (session : InSession ks file size s) (asked : Asked size s)
    : BlockCounted ks k file m size { s' with blockDataCount := s.blockDataCount + 1 } mem where
  info := done.info.trans session.info
  block := Nat.succ_pos _
  count := done.count
  header := done.header
  offset := done.offset
  state := by
    rw [done.state]
    by_cases first : s.blockDataCount = 0
    · rw [if_pos first, if_pos (by dsimp only; omega)]
    · rw [if_neg first, if_neg (by dsimp only; omega)]
  holds := done.holds.congr rfl rfl
  asked := by
    rw [Asked, done.sent]
    exact asked

theorem BlockCounted.ended (counted : BlockCounted ks k file m size s mem) (servable : Servable ks file size)
    (full : size ≤ s.otaHeadercnt)
    : Continues ks k file m size
        (otaDataReqRetry
          { otaStopReq { s with otaState := .staEnd } with otaDataCb := some .stopReq }) mem := by
  obtain ⟨info, block, count, header, offset, state, holds, asked⟩ := counted
  have image := servable.image
  have few : ¬s.blockDataCount ≤ 1 := by
    simp only [otaFramesize, fileHeadersize] at *
    omega
  refine ⟨?_, holds.congr rfl rfl, asked.send (fun no => by cases no)⟩
  exact {
    busy := fun no => by cases no
    info := info
    count := count
    header := header.trans (if_neg (Nat.ne_of_gt block)).symm
    offset := offset
    starting := ⟨(fun no => by cases no), fun early => absurd early few⟩
    finished := ⟨fun _ => full, fun _ => rfl⟩
    asks := fun _ => rfl
  }

theorem BlockCounted.asking (counted : BlockCounted ks k file m size s mem)
    (missing : s.otaHeadercnt < size)
    : Continues ks k file m size
        (otaDataReqRetry { otaDataReq s with otaDataCb := some .dataReq }) mem := by
  obtain ⟨info, block, count, header, offset, state, holds, asked⟩ := counted
  have inside : otaFramesize * s.blockDataCount < size := by omega
  have open' : s.otaState ≠ .staEnd := by
    rw [state]
    split <;> simp
  refine ⟨?_, holds.congr rfl rfl, asked.send (fun _ => inside)⟩
  refine {
    busy := ?_
    info := info
    count := count
    header := header.trans (if_neg (Nat.ne_of_gt block)).symm
    offset := offset
    starting := ?_
    finished := ⟨fun no => absurd no open', fun full => absurd full (Nat.not_le.mpr missing)⟩
    asks := fun no => absurd no open'
  }
  · change s.otaState ≠ .staIdle
    rw [state]
    split <;> simp
  · change s.otaState = .staStarting ↔ s.blockDataCount ≤ 1
    rw [state]
    split <;> simp_all

/-- After a block the client asks for the next one, or it has them all. -/
theorem BlockCounted.next (counted : BlockCounted ks k file m size s mem) (servable : Servable ks file size)
    (busy : (otaDataRspHandler.next k s mem).otaState ≠ .staIdle)
    : Continues ks k file m size (otaDataRspHandler.next k s mem) mem
      ∧ (otaDataRspHandler.next k s mem).blockDataCount = s.blockDataCount := by
  have announced : s.devOtaInfo.imageSize = size := by
    rw [counted.info]
    exact servable.total
  rcases otaDataRspHandler.next_busy busy with ⟨full, shape⟩ | ⟨missing, shape⟩
  · rw [shape]
    exact ⟨counted.ended servable (announced ▸ full), rfl⟩
  · rw [shape]
    exact ⟨counted.asking (announced ▸ missing), rfl⟩

/-- A response with a block, in a session that goes on. -/
theorem Continues.dataRsp (going : Continues ks k file m size s d.mem)
    (servable : Servable ks file size) (steady : env.Steady) {pay : OtaPreamble}
    {payloadSize : UInt8} {payload : List UInt8}
    (genuine : Genuine ks file size (.dataRsp pay payloadSize payload)) (rest : Mem)
    {pHdr : OtaDataFrame}
    (arrives : pHdr
      = { toOtaPreamble := pay, payloadSize, payload := fun i => payload.getD i (rest i) })
    (busy : (Prog.run env (otaDataRspHandler k pHdr s) d).1.otaState ≠ .staIdle)
    : Continues ks k file m size (Prog.run env (otaDataRspHandler k pHdr s) d).1
        (Prog.run env (otaDataRspHandler k pHdr s) d).2.mem
      ∧ (Prog.run env (otaDataRspHandler k pHdr s) d).1.blockDataCount
        = s.blockDataCount + (if otaDataRspHandler.accepts s pHdr = true then 1 else 0) := by
  by_cases accepts : otaDataRspHandler.accepts s pHdr = true
  · obtain ⟨n, inside, info, width, bytes⟩ := genuine
    have small := servable.small
    have length : pHdr.payloadSize.toNat = min otaFramesize (size - otaFramesize * n) := by
      rw [arrives, width, UInt8.toNat_ofNat']
      simp only [otaFramesize]
      omega
    have number : n = s.blockDataCount := by
      simp only [otaDataRspHandler.accepts, Bool.and_eq_true, beq_iff_eq] at accepts
      rw [← accepts.2, arrives, info]
    subst number
    have nonempty : pHdr.payloadSize ≠ 0 := by
      intro zero
      rw [zero, UInt8.toNat_zero] at length
      simp only [otaFramesize] at *
      omega
    have content : ∀ j < pHdr.payloadSize.toNat, pHdr.payload j
        = otaFile ks file (otaFramesize * s.blockDataCount + j) := by
      intro j before
      rw [length] at before
      rw [arrives, bytes]
      exact Mem.read_getD _ before _
    rw [otaDataRspHandler, if_neg going.session.busy, if_pos accepts, if_neg nonempty] at *
    simp only [Prog.run_bind, run_flashUnlock, run_flashLock, Prog.run_view, lockTo_mem] at *
    have done := @InSession.block ks k env file m size s (lockTo env false d) going.session going.holds
      servable steady inside _ _ length content
    generalize Prog.run env (otaDataProcess k pHdr.payloadSize.toNat pHdr.payload s)
      (lockTo env false d) = r at *
    have block : (r.1.blockDataCount + 1) % u32Mod = s.blockDataCount + 1 := by
      rw [done.block]
      simp only [otaFramesize, otaMaxImageSize, u32Mod] at *
      omega
    rw [block] at busy ⊢
    rw [if_pos accepts]
    exact (done.counted going.session going.asked).next servable busy
  · rw [otaDataRspHandler, if_neg going.session.busy, if_neg accepts, if_neg accepts]
    exact ⟨going, rfl⟩

/-- An accepted `START_RSP` opens the first session on an erased slot. -/
theorem Unstarted.startRsp (fresh : Unstarted s) (servable : Servable ks file size) (steady : env.Steady)
    (asked : Asked size s)
    (accepts : otaStartRspHandler.accepts k s (otaFileInfo ks file) = true)
    : Continues ks k file d.mem size
        (Prog.run env (otaStartRspHandler k (otaFileInfo ks file) s) d).1
        (Prog.run env (otaStartRspHandler k (otaFileInfo ks file) s) d).2.mem
      ∧ (Prog.run env (otaStartRspHandler k (otaFileInfo ks file) s) d).1.blockDataCount = 0 := by
  obtain ⟨idle, count, header, block, offset, cb⟩ := fresh
  have image := servable.image
  have total : (otaFileInfo ks file).imageSize = size := servable.total
  have first : otaFramesize * s.blockDataCount < size := by
    rw [block]
    omega
  rw [otaStartRspHandler, if_pos accepts]
  simp only [Prog.run_bind, Prog.run_pure]
  have counted : s.otaHeadercnt = min (otaFramesize * s.blockDataCount) size := by
    rw [count, block]
    simp
  have empty : s.flashOffsetAddr = s.otaHeadercnt - fileHeadersize := by omega
  have missing : ¬size ≤ s.otaHeadercnt := by omega
  refine ⟨⟨?_, ?_, asked.send (fun _ => first)⟩, block⟩
  · exact {
      busy := fun no => by cases no
      info := rfl
      count := counted
      header := header.trans (if_pos block).symm
      offset := empty
      starting := ⟨fun _ => block ▸ Nat.zero_le 1, fun _ => rfl⟩
      finished := ⟨(fun no => by cases no), fun full => absurd full missing⟩
      asks := fun no => by cases no
    }
  · have erased := flashEraseSectors_mem steady ((otaFileInfo ks file).imageSize / flashSectorSize + 1)
      (@newAddr_aligned s) d
    refine ⟨?_, ?_, ?_⟩
    · intro i inside
      exact absurd (offset ▸ inside) (Nat.not_lt_zero i)
    · intro x low high
      rw [erased x, total, if_pos ⟨Nat.le_trans (Nat.le_add_right _ _) low, high⟩]
    · intro x beyond
      rw [erased x, total, if_neg]
      rintro ⟨low, high⟩
      rcases beyond with below | above
      · exact absurd low (Nat.not_le.mpr below)
      · exact absurd high (Nat.not_lt.mpr above)

/-- Timers do not start a session. -/
theorem Unstarted.timer (fresh : Unstarted s)
    : Unstarted (otaPeriodicDataServerCb k mem s)
      ∧ (otaPeriodicDataServerCb k mem s).sent = s.sent := by
  obtain ⟨idle, count, header, block, offset, cb⟩ := fresh
  unfold otaPeriodicDataServerCb
  dsimp only
  split
  · exact ⟨⟨rfl, count, header, rfl, rfl, cb⟩, rfl⟩
  · rw [cb]
    exact ⟨⟨idle, count, header, block, offset, rfl⟩, rfl⟩

end Client

-----------------------------------------------------------------------------------------
-- Runs
-----------------------------------------------------------------------------------------

section Runs

variable {ks k : OtaBuild} {env : Env} {file m : Mem} {size : Nat} {n : OtaNet} {e : OtaEvent}

theorem Agreed.request (agreed : Agreed ks k file m size n) (servable : Servable ks file size)
    {cmd : OtaCmd} (sent : cmd ∈ n.world.client.sent)
    : Agreed ks k file m size { n with server := tlAppOtaCmdHandler file cmd n.server } where
  loaded := agreed.loaded.frame cmd
  genuine := genuine_frame agreed.genuine agreed.loaded servable (agreed.asked cmd sent)
  asked := agreed.asked
  applied := agreed.applied
  client := agreed.client

/-- An event of the client leaves the server alone. -/
theorem Agreed.of_client (agreed : Agreed ks k file m size n)
    (asked : Asked size (n.event k env e).world.client)
    (block : (n.event k env e).world.client.blockDataCount
      = n.world.client.blockDataCount + (n.world.applies e).length)
    (next : n.world.applies e = [] ∨ n.world.applies e = [n.world.client.blockDataCount])
    (client : Unstarted (n.event k env e).world.client ∧ (n.event k env e).world.mem = m
      ∨ InSession ks file size (n.event k env e).world.client
        ∧ SlotHolds ks k file m size (n.event k env e).world.client (n.event k env e).world.mem)
    : Agreed ks k file m size (n.event k env e) where
  loaded := agreed.loaded
  genuine := agreed.genuine
  asked := asked
  applied := by
    change n.applied ++ n.world.applies e = List.range _
    rw [block, agreed.applied]
    rcases next with none | one
    · rw [none, List.append_nil]
      rfl
    · rw [one, List.length_singleton, List.range_succ]
  client := client

/-- A block is applied only if it is the next one. -/
theorem applies_next (w : OtaWorld) (e : OtaEvent)
    : w.applies e = [] ∨ w.applies e = [w.client.blockDataCount] := by
  cases e with
  | dataRsp pHdr =>
      by_cases accepted : w.client.otaState ≠ .staIdle
          ∧ otaDataRspHandler.accepts w.client pHdr = true
      · have number := accepted.2
        simp only [otaDataRspHandler.accepts, Bool.and_eq_true, beq_iff_eq] at number
        right
        rw [OtaWorld.applies, if_pos accepted, number.2]
      · exact Or.inl (if_neg accepted)
  | _ => exact Or.inl rfl

/-- An event that the client drops. -/
theorem Agreed.dropped (agreed : Agreed ks k file m size n)
    (drops : e.handler k n.world.client = pure n.world.client) (nothing : n.world.applies e = [])
    : Agreed ks k file m size (n.event k env e) := by
  have same : n.world.step k env e = n.world := by
    rw [OtaWorld.step, drops]
    rfl
  have unchanged : n.event k env e = n := by
    rw [OtaNet.event, same, nothing, List.append_nil]
  rwa [unchanged]

/-- A client that has not started. -/
theorem Agreed.fresh (agreed : Agreed ks k file m size n) (servable : Servable ks file size)
    (steady : env.Steady) (delivers : n.Delivers e) (fresh : Unstarted n.world.client)
    (untouched : n.world.mem = m)
    : Agreed ks k file m size (n.event k env e) := by
  have idle := fresh.idle
  rcases delivers with rfl | rfl | ⟨frame, member, rest, rfl⟩
  · obtain ⟨later, sent⟩ := @Unstarted.timer k n.world.mem n.world.client fresh
    refine agreed.of_client ?_ (later.block.trans fresh.block.symm) (Or.inl rfl)
      (Or.inl ⟨later, untouched⟩)
    intro cmd listed
    exact agreed.asked cmd (sent ▸ listed)
  · exact agreed.of_client (Asked.send agreed.asked (fun no => by cases no)) rfl (Or.inl rfl)
      (Or.inl ⟨{ fresh with }, untouched⟩)
  · have genuine := agreed.genuine frame member
    generalize frame.rsp = rsp at genuine
    cases rsp with
    | startRsp pay =>
        obtain rfl : pay = otaFileInfo ks file := genuine
        by_cases accepts : otaStartRspHandler.accepts k n.world.client (otaFileInfo ks file) = true
        · obtain ⟨going, block⟩ := @Unstarted.startRsp ks k env file size n.world.client n.world.dev
            fresh servable steady agreed.asked accepts
          have memory : n.world.dev.mem = m := untouched
          rw [memory] at going
          exact agreed.of_client going.asked (block.trans fresh.block.symm) (Or.inl rfl)
            (Or.inr ⟨going.session, going.holds⟩)
        · exact agreed.dropped (if_neg accepts) rfl
    | stopRsp pay =>
        apply agreed.dropped _ rfl
        rw [OtaRsp.event, OtaEvent.handler, otaStopRspHandler, if_pos (by rw [idle]; decide)]
    | dataRsp pay payloadSize payload =>
        apply agreed.dropped
        · exact if_pos idle
        · exact if_neg (fun accepted => accepted.1 idle)

/-- A client in its first session. -/
theorem Agreed.session (agreed : Agreed ks k file m size n) (servable : Servable ks file size)
    (steady : env.Steady) (delivers : n.Delivers e)
    (session : InSession ks file size n.world.client)
    (holds : SlotHolds ks k file m size n.world.client n.world.mem)
    (busy : (n.event k env e).world.client.otaState ≠ .staIdle)
    : Agreed ks k file m size (n.event k env e) := by
  have going : Continues ks k file m size n.world.client n.world.mem :=
    ⟨session, holds, agreed.asked⟩
  rcases delivers with rfl | rfl | ⟨frame, member, rest, rfl⟩
  · obtain ⟨later, block⟩ := going.timer busy
    exact agreed.of_client later.asked block (Or.inl rfl) (Or.inr ⟨later.session, later.holds⟩)
  · have later : Continues ks k file m size (otaStartReq k n.world.client) n.world.mem :=
      going.send (fun no => by cases no)
    exact agreed.of_client later.asked rfl (Or.inl rfl) (Or.inr ⟨later.session, later.holds⟩)
  · have genuine := agreed.genuine frame member
    generalize frame.rsp = rsp at genuine busy
    cases rsp with
    | startRsp pay =>
        apply agreed.dropped _ rfl
        apply if_neg
        intro accepts
        simp only [otaStartRspHandler.accepts, Bool.and_eq_true, beq_iff_eq] at accepts
        exact session.busy accepts.1.1.2
    | stopRsp pay =>
        by_cases ended : n.world.client.otaState = .staEnd
        · -- The session ends here, with a switch-over or without one.
          refine absurd ?_ busy
          simp only [OtaNet.event, OtaWorld.step, OtaRsp.event, OtaEvent.handler, otaStopRspHandler]
          rw [if_neg (fun no => no ended)]
          split
          · simp only [otaMcuReboot, Prog.run_bind, Prog.run_view]
            rfl
          · rfl
        · exact agreed.dropped (if_pos ended) rfl
    | dataRsp pay payloadSize payload =>
        obtain ⟨later, block⟩ := @Continues.dataRsp ks k env file m size n.world.client n.world.dev
          going servable steady pay payloadSize payload genuine rest _ rfl busy
        have next := applies_next n.world (OtaRsp.event rest (.dataRsp pay payloadSize payload))
        refine agreed.of_client later.asked ?_ next (Or.inr ⟨later.session, later.holds⟩)
        refine block.trans ?_
        congr 1
        by_cases accepts : otaDataRspHandler.accepts n.world.client
            { toOtaPreamble := pay, payloadSize, payload := fun i => payload.getD i (rest i) } = true
        · rw [if_pos accepts, OtaRsp.event, OtaWorld.applies, if_pos ⟨session.busy, accepts⟩]
          rfl
        · rw [if_neg accepts, OtaRsp.event, OtaWorld.applies, if_neg (fun both => accepts both.2)]
          rfl

/-- Every state of a transfer keeps the invariant, by induction on its steps. -/
theorem Transfer.agreed (transfer : Transfer ks k file m n) (servable : Servable ks file size)
    : Agreed ks k file m size n := by
  induction transfer with
  | boot locked =>
      have loaded : Loaded ks file (otaServerInit ks file {}) := servable.toHoldsFile.init
      have silent : (otaServerInit ks file {}).sent = [] := by
        unfold otaServerInit
        dsimp only
        split
        · split
          · rfl
          · split <;> rfl
        · rfl
      exact {
        loaded := loaded
        genuine := fun frame member => by rw [silent] at member; cases member
        asked := fun cmd member => by cases member
        applied := rfl
        client := Or.inl ⟨⟨rfl, rfl, rfl, rfl, rfl, rfl⟩, rfl⟩
      }
  | request _ sent ih => exact ih.request servable sent
  | event _ steady delivers busy ih =>
      rcases ih.client with ⟨fresh, untouched⟩ | ⟨session, holds⟩
      · exact ih.fresh servable steady delivers fresh untouched
      · exact ih.session servable steady delivers session holds (busy session.busy)

/-- The slot of a session holds a prefix of the image. -/
theorem SlotHolds.isPrefix {s : OtaClient} {mem : Mem} (holds : SlotHolds ks k file m size s mem)
    (session : InSession ks file size s)
    : mem.read s.newAddr s.flashOffsetAddr
      <+: (storedImage ks k file s.otaHeadersize).read 0 (size - s.otaHeadersize) := by
  have count := session.count
  have offset := session.offset
  by_cases empty : s.flashOffsetAddr = 0
  · rw [empty]
    exact List.nil_prefix
  · have started : s.blockDataCount ≠ 0 := by
      intro none
      rw [none, Nat.mul_zero, Nat.zero_min] at count
      omega
    have header : s.otaHeadersize = fileHeadersize := by rw [session.header, if_neg started]
    have same : mem.read s.newAddr s.flashOffsetAddr
        = (storedImage ks k file fileHeadersize).read 0 s.flashOffsetAddr := by
      apply Mem.read_congr
      intro i inside
      rw [holds.stored i inside, Nat.zero_add]
    have split : size - fileHeadersize
        = s.flashOffsetAddr + (size - fileHeadersize - s.flashOffsetAddr) := by omega
    rw [header, same, split, Mem.read_add]
    exact List.prefix_append _ _

end Runs

/-- Whatever the network does, the new slot of the client holds a prefix of the image in the
file and nothing else, and the blocks were applied in order.
-/
theorem otaTransfer_agrees {ks k : OtaBuild} {file m : Mem} {size : Nat} {n : OtaNet}
    (servable : Servable ks file size) (transfer : Transfer ks k file m n)
    : n.world.mem.read n.world.client.newAddr n.world.client.flashOffsetAddr
        <+: (storedImage ks k file n.world.client.otaHeadersize).read 0
          (size - n.world.client.otaHeadersize)
      ∧ (n.world.client.otaState ≠ .staIdle
        → n.world.mem.BlankOn (n.world.client.newAddr + n.world.client.flashOffsetAddr)
          (n.world.client.newAddr + erasedSize size))
      ∧ (∀ x, x < n.world.client.newAddr ∨ n.world.client.newAddr + erasedSize size ≤ x
        → n.world.mem x = m x)
      ∧ n.applied = List.range n.world.client.blockDataCount := by
  have agreed := transfer.agreed servable
  rcases agreed.client with ⟨fresh, untouched⟩ | ⟨session, holds⟩
  · refine ⟨?_, fun busy => absurd fresh.idle busy, fun x _ => by rw [untouched], agreed.applied⟩
    rw [fresh.offset]
    exact List.nil_prefix
  · exact ⟨holds.isPrefix session, fun _ => holds.blank, holds.outside, agreed.applied⟩

theorem sampleFileMem_servable : Servable build8258 (sampleFileMem build8258 100) 100 where
  toHoldsFile := sampleFileMem_holds (by decide)
  uneven := by decide
  headerLen := by decide +kernel
  image := by decide

section Sample

variable {ks k : OtaBuild} {file m : Mem} {n : OtaNet}

/-- The server gets request `i` of the client. -/
theorem Transfer.ask (transfer : Transfer ks k file m n) (i : Nat)
    (sent : i < n.world.client.sent.length)
    : Transfer ks k file m
        { n with server := tlAppOtaCmdHandler file (n.world.client.sent.get ⟨i, sent⟩) n.server } :=
  transfer.request (List.get_mem _ _)

/-- The client gets response `i` of the server on a chip that works. -/
theorem Transfer.receive (transfer : Transfer ks k file m n) (i : Nat)
    (sent : i < n.server.sent.length)
    (busy : (n.event k {}
      ((n.server.sent.get ⟨i, sent⟩).rsp.event Mem.blank)).world.client.otaState ≠ .staIdle)
    : Transfer ks k file m (n.event k {} ((n.server.sent.get ⟨i, sent⟩).rsp.event Mem.blank)) :=
  transfer.event ⟨fun _ => rfl, rfl⟩ (Or.inr (Or.inr ⟨_, List.get_mem _ _, _, rfl⟩)) (fun _ => busy)

end Sample

/-- Two blocks of a file arrive, the first of them twice. -/
theorem otaTransfer_agrees_repeated
    : ∃ n, Transfer build8258 build8258 (sampleFileMem build8258 100) (firstSlotMem build8258) n
      ∧ n.world.client.flashOffsetAddr = 34 ∧ n.applied = [0, 1]
      ∧ n.world.mem.read n.world.client.newAddr n.world.client.flashOffsetAddr
        <+: (storedImage build8258 build8258 (sampleFileMem build8258 100)
          n.world.client.otaHeadersize).read 0 (100 - n.world.client.otaHeadersize) := by
  have steady : Env.Steady {} := ⟨fun _ => rfl, rfl⟩
  have start : Transfer build8258 build8258 (sampleFileMem build8258 100)
      (firstSlotMem build8258) _ :=
    (Transfer.boot true).event steady (Or.inr (Or.inl rfl)) (fun no => absurd rfl no)
  have opened := (start.ask 0 (by decide +kernel)).receive 0 (by decide +kernel) (by decide +kernel)
  have first := (opened.ask 1 (by decide +kernel)).receive 1 (by decide +kernel) (by decide +kernel)
  have again := first.receive 1 (by decide +kernel) (by decide +kernel)
  have second := (again.ask 2 (by decide +kernel)).receive 2 (by decide +kernel) (by decide +kernel)
  have agrees := otaTransfer_agrees sampleFileMem_servable second
  refine ⟨_, second, by decide +kernel, ?_, agrees.1⟩
  rw [agrees.2.2.2]
  decide +kernel

end TelinkSdk
