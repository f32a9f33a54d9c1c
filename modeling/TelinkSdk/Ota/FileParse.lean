import Mathlib.Data.List.GetD
import TelinkSdk.Ota.FrameBounds

/-! An OTA file that comes to `ota_DataProcess` block by block: what the client has parsed, stored
and checksummed after any number of its bytes.
-/

namespace TelinkSdk

open Nor

-----------------------------------------------------------------------------------------
-- Files and blocks
-----------------------------------------------------------------------------------------

/-- An OTA file: a header that states its own length, and one sub-element with the image. -/
structure OtaFile where
  header : List UInt8
  tag : List UInt8
  image : List UInt8
  long : 56 ≤ header.length
  stated : Mem.le16 (fun i => header.getD i 0) otaHeadLength = header.length
  tagged : tag.length = 2
  fits : header.length + 6 + image.length < u32Mod

def OtaFile.bytes (f : OtaFile) : List UInt8 :=
  f.header ++ f.tag ++ bytes32 f.image.length ++ f.image

def OtaFile.mem (f : OtaFile) : Mem := fun i => f.bytes.getD i 0

def OtaFile.imageMem (f : OtaFile) : Mem := fun j => f.image.getD j 0

/-- The bytes in front of the image. -/
def OtaFile.headersize (f : OtaFile) : Nat := f.header.length + 6

/-- A block as it arrives, with the memory behind it. -/
structure OtaBlock where
  bytes : List UInt8
  behind : Mem

def OtaBlock.payload (b : OtaBlock) : Mem := fun i => b.bytes.getD i (b.behind i)

/-- `ota_DataProcess` for one block after the other. -/
def otaDataProcess.blocks (k : OtaBuild) : List OtaBlock → OtaClient → Prog OtaClient
  | [], s => pure s
  | b :: rest, s => do
      let s ← otaDataProcess k b.bytes.length b.payload s
      otaDataProcess.blocks k rest s

/-- No field of the header is cut by the end of a block. -/
def FieldsIntact : Nat → List OtaBlock → Prop
  | _, [] => True
  | c, b :: rest =>
      (∀ i < b.bytes.length, i + otaFieldWidth (c + i) ≤ b.bytes.length)
        ∧ FieldsIntact (c + b.bytes.length) rest

/-- A way of cutting the file into blocks. -/
structure OtaFile.Cut (f : OtaFile) (blocks : List OtaBlock) : Prop where
  whole : blocks.flatMap OtaBlock.bytes = f.bytes
  sizes : ∀ b ∈ blocks, 1 ≤ b.bytes.length ∧ b.bytes.length ≤ otaFramesize
  intact : FieldsIntact 0 blocks

/-- Block `n` as a server makes it. -/
def OtaFile.block (f : OtaFile) (behind : Mem) (n : Nat) : OtaBlock where
  bytes := f.mem.read (otaFramesize * n) (min otaFramesize (f.bytes.length - otaFramesize * n))
  behind := behind

/-- The file in blocks of `OTA_FRAMESIZE` bytes. -/
def OtaFile.blocks (f : OtaFile) (behind : Nat → Mem) : List OtaBlock :=
  (List.range ((f.bytes.length + otaFramesize - 1) / otaFramesize)).map fun n =>
    f.block (behind n) n

/-- A client that has just started a session after a reset. -/
structure JustStarted (s : OtaClient) : Prop where
  state : s.otaState = .staStarting
  count : s.otaHeadercnt = 0
  size : s.otaHeadersize = 0
  offset : s.flashOffsetAddr = 0
  crc : s.crcValue = 0xffffffff

section File

variable {f : OtaFile}

theorem OtaFile.bytes_length (f : OtaFile)
    : f.bytes.length = f.headersize + f.image.length := by
  simp only [OtaFile.bytes, List.length_append, bytes32_length, f.tagged, OtaFile.headersize]

theorem OtaFile.bytes_small (f : OtaFile) : f.bytes.length < u32Mod := by
  rw [f.bytes_length, OtaFile.headersize]
  exact f.fits

theorem OtaFile.headersize_ge (f : OtaFile) : otaHeadImagesize + 4 ≤ f.headersize := by
  have long := f.long
  simp only [otaHeadImagesize, OtaFile.headersize]
  omega

theorem OtaFile.mem_header {i : Nat} (inside : i < f.header.length)
    : f.mem i = f.header.getD i 0 := by
  rw [OtaFile.mem, OtaFile.bytes, List.append_assoc, List.append_assoc,
    List.getD_append _ _ _ _ inside]

theorem OtaFile.mem_image (f : OtaFile) (j : Nat)
    : f.mem (f.headersize + j) = f.imageMem j := by
  have front : (f.header ++ f.tag ++ bytes32 f.image.length).length = f.headersize := by
    simp only [List.length_append, bytes32_length, f.tagged, OtaFile.headersize]
  rw [OtaFile.mem, OtaFile.bytes, List.getD_append_right _ _ _ _ (by omega), front,
    Nat.add_sub_cancel_left, OtaFile.imageMem]

/-- The length field of the header. -/
theorem OtaFile.mem_length (f : OtaFile) : f.mem.le16 otaHeadLength + 6 = f.headersize := by
  have long := f.long
  rw [OtaFile.headersize, ← f.stated]
  congr 1
  apply Mem.le16_congr
  intro i inside
  exact f.mem_header (by simp only [otaHeadLength]; omega)

/-- The length of the image, behind the header and the tag. -/
theorem OtaFile.mem_imageLength (f : OtaFile)
    : f.mem.le32 (f.header.length + 2) = f.image.length := by
  have fits := f.fits
  apply Mem.le32_of_bytes (by simp only [u32Mod] at fits; omega)
  intro i inside
  have front : (f.header ++ f.tag).length = f.header.length + 2 := by
    rw [List.length_append, f.tagged]
  rw [OtaFile.mem, OtaFile.bytes, List.append_assoc,
    List.getD_append_right _ _ _ _ (by omega), front, Nat.add_sub_cancel_left,
    List.getD_append _ _ _ _ inside, List.getD_eq_getElem _ _ inside,
    List.getD_eq_getElem _ _ inside]

end File

-----------------------------------------------------------------------------------------
-- The header
-----------------------------------------------------------------------------------------

/-- A client that has the first `c` bytes of the file behind it: it knows the fields that start in
them.
-/
structure ParsedUpTo (f : OtaFile) (s : OtaClient) (c : Nat) : Prop where
  count : s.otaHeadercnt = c
  size : s.otaHeadersize = if otaHeadLength < c then f.headersize else 0
  manufaurerCode : otaHeadMauncode < c
    → s.binInfo.manufaurerCode = f.mem.le16 otaHeadMauncode
  imageType : otaHeadImagetype < c → s.binInfo.imageType = f.mem.le16 otaHeadImagetype
  fileVer : otaHeadFilever < c → s.binInfo.fileVer = f.mem.le32 otaHeadFilever
  imageSize : otaHeadImagesize < c → s.binInfo.imageSize = f.mem.le32 otaHeadImagesize

section Header

variable {f : OtaFile} {s s' : OtaClient} {payload : Mem} {c i left : Nat}

theorem JustStarted.parsed (started : JustStarted s) : ParsedUpTo f s 0 where
  count := started.count
  size := started.size
  manufaurerCode := fun no => absurd no (Nat.not_lt_zero _)
  imageType := fun no => absurd no (Nat.not_lt_zero _)
  fileVer := fun no => absurd no (Nat.not_lt_zero _)
  imageSize := fun no => absurd no (Nat.not_lt_zero _)

/-- Behind its fields, only the counter moves. -/
theorem ParsedUpTo.moved {n : Nat} (parsed : ParsedUpTo f s c) (past : otaHeadImagesize < c)
    (count : s'.otaHeadercnt = c + n) (size : s'.otaHeadersize = s.otaHeadersize)
    (bin : s'.binInfo = s.binInfo)
    : ParsedUpTo f s' (c + n) := by
  have known := parsed.size
  simp only [otaHeadImagesize] at past
  refine ⟨count, ?_, fun _ => ?_, fun _ => ?_, fun _ => ?_, fun _ => ?_⟩
  · rw [size, known, if_pos, if_pos] <;> simp only [otaHeadLength] <;> omega
  · rw [bin, parsed.manufaurerCode]
    simp only [otaHeadMauncode]
    omega
  · rw [bin, parsed.imageType]
    simp only [otaHeadImagetype]
    omega
  · rw [bin, parsed.fileVer]
    simp only [otaHeadFilever]
    omega
  · rw [bin, parsed.imageSize]
    simp only [otaHeadImagesize]
    omega

/-- What one byte of the header has to do. -/
theorem ParsedUpTo.next (parsed : ParsedUpTo f s c) (count : s'.otaHeadercnt = c + 1)
    (size : s'.otaHeadersize = if c = otaHeadLength then f.headersize else s.otaHeadersize)
    (manufaurerCode : s'.binInfo.manufaurerCode = if c = otaHeadMauncode
      then f.mem.le16 otaHeadMauncode else s.binInfo.manufaurerCode)
    (imageType : s'.binInfo.imageType = if c = otaHeadImagetype
      then f.mem.le16 otaHeadImagetype else s.binInfo.imageType)
    (fileVer : s'.binInfo.fileVer = if c = otaHeadFilever
      then f.mem.le32 otaHeadFilever else s.binInfo.fileVer)
    (imageSize : s'.binInfo.imageSize = if c = otaHeadImagesize
      then f.mem.le32 otaHeadImagesize else s.binInfo.imageSize)
    : ParsedUpTo f s' (c + 1) := by
  refine ⟨count, ?_, fun inside => ?_, fun inside => ?_, fun inside => ?_, fun inside => ?_⟩
  · rw [size, parsed.size]
    by_cases here : c = otaHeadLength
    · rw [if_pos here, if_pos (by omega)]
    · have same : otaHeadLength < c + 1 ↔ otaHeadLength < c := by omega
      simp only [if_neg here, same]
  · rw [manufaurerCode]
    split
    · rfl
    · exact parsed.manufaurerCode (by omega)
  · rw [imageType]
    split
    · rfl
    · exact parsed.imageType (by omega)
  · rw [fileVer]
    split
    · rfl
    · exact parsed.fileVer (by omega)
  · rw [imageSize]
    split
    · rfl
    · exact parsed.imageSize (by omega)

theorem ParsedUpTo.skip (parsed : ParsedUpTo f s c) (small : c + 1 < u32Mod)
    (plain : ¬otaDataProcess.startsField s = true)
    : ParsedUpTo f s.advance (c + 1) := by
  simp only [otaDataProcess.startsField, Bool.or_eq_true, beq_iff_eq, parsed.count, not_or]
    at plain
  obtain ⟨⟨⟨⟨length, mauncode⟩, imagetype⟩, filever⟩, imagesize⟩ := plain
  apply parsed.next
  · rw [OtaClient.advance, parsed.count]
    exact Nat.mod_eq_of_lt small
  · exact (if_neg length).symm
  · exact (if_neg mauncode).symm
  · exact (if_neg imagetype).symm
  · exact (if_neg filever).symm
  · exact (if_neg imagesize).symm

/-- A field whose bytes are in the block. -/
theorem ParsedUpTo.field (parsed : ParsedUpTo f s c) (small : c + 1 < u32Mod)
    (starts : otaDataProcess.startsField s = true)
    (same : ∀ j < otaFieldWidth c, payload (i + j) = f.mem (c + j))
    : ParsedUpTo f (otaDataProcess.field payload i s).advance (c + 1) := by
  have two (room : 2 ≤ otaFieldWidth c) : payload.le16 i = f.mem.le16 c :=
    Mem.le16_congr fun j inside => same j (by omega)
  have four (room : 4 ≤ otaFieldWidth c) : payload.le32 i = f.mem.le32 c :=
    Mem.le32_congr fun j inside => same j (by omega)
  have moved : (c + 1) % u32Mod = c + 1 := Nat.mod_eq_of_lt small
  have count := parsed.count
  simp only [otaDataProcess.startsField, Bool.or_eq_true, beq_iff_eq, or_assoc, count] at starts
  unfold otaDataProcess.field
  rcases starts with rfl | rfl | rfl | rfl | rfl
  · rw [if_pos count]
    apply parsed.next <;>
      simp [OtaClient.advance, count, moved, two (by decide), f.mem_length, otaHeadLength,
        otaHeadMauncode, otaHeadImagetype, otaHeadFilever, otaHeadImagesize]
  · rw [count, if_neg (by decide), if_pos rfl]
    apply parsed.next <;>
      simp [OtaClient.advance, moved, two (by decide), otaHeadLength, otaHeadMauncode,
        otaHeadImagetype, otaHeadFilever, otaHeadImagesize]
  · rw [count, if_neg (by decide), if_neg (by decide), if_pos rfl]
    apply parsed.next <;>
      simp [OtaClient.advance, moved, two (by decide), otaHeadLength, otaHeadMauncode,
        otaHeadImagetype, otaHeadFilever, otaHeadImagesize]
  · rw [count, if_neg (by decide), if_neg (by decide), if_neg (by decide), if_pos rfl]
    apply parsed.next <;>
      simp [OtaClient.advance, moved, four (by decide), otaHeadLength, otaHeadMauncode,
        otaHeadImagetype, otaHeadFilever, otaHeadImagesize]
  · rw [count, if_neg (by decide), if_neg (by decide), if_neg (by decide), if_neg (by decide)]
    apply parsed.next <;>
      simp [OtaClient.advance, moved, four (by decide), otaHeadLength, otaHeadMauncode,
        otaHeadImagetype, otaHeadFilever, otaHeadImagesize]

/-- The loop over the header, by induction on the bytes left. It stops where the image begins, and
has parsed what is in front.
-/
theorem ParsedUpTo.header (parsed : ParsedUpTo f s c) (starting : s.otaState = .staStarting)
    (inside : c ≤ f.headersize) (small : c + left < u32Mod)
    (same : ∀ j < left, payload (i + j) = f.mem (c + j))
    (whole : ∀ j < left, j + otaFieldWidth (c + j) ≤ left)
    : (otaDataProcess.header payload left i s).1 = i + min left (f.headersize - c)
      ∧ ParsedUpTo f (otaDataProcess.header payload left i s).2 (c + min left (f.headersize - c))
      ∧ (otaDataProcess.header payload left i s).2.otaState
        = if f.headersize < c + left then .staDataing else .staStarting := by
  have long := f.headersize_ge
  simp only [otaHeadImagesize] at long
  induction left generalizing s c i with
  | zero =>
      have ends : ¬f.headersize < c + 0 := by omega
      rw [Nat.zero_min, if_neg ends]
      exact ⟨rfl, parsed, starting⟩
  | succ left ih =>
      have first : otaFieldWidth c ≤ left + 1 := by
        have room := whole 0 (Nat.zero_lt_succ _)
        rwa [Nat.zero_add, Nat.add_zero] at room
      have shift (j : Nat) : c + 1 + j = c + (j + 1) := by omega
      have later : ∀ j < left, j + otaFieldWidth (c + 1 + j) ≤ left := by
        intro j before
        have room := whole (j + 1) (by omega)
        rw [shift]
        omega
      have rest : ∀ j < left, payload (i + 1 + j) = f.mem (c + 1 + j) := by
        intro j before
        rw [shift, Nat.add_assoc, Nat.add_comm 1]
        exact same (j + 1) (by omega)
      have image : s.otaHeadercnt = s.otaHeadersize ∧ s.otaHeadersize ≠ 0 ↔ c = f.headersize := by
        rw [parsed.count, parsed.size]
        simp only [otaHeadLength]
        split <;> omega
      by_cases ends : c = f.headersize
      · have plain : ¬otaDataProcess.startsField s = true := by
          rw [otaFieldWidth_pos, parsed.count,
            otaFieldWidth_image (by simp only [otaHeadImagesize]; omega)]
          exact Nat.lt_irrefl 0
        have none : min (left + 1) (f.headersize - c) = 0 := by omega
        have reached : f.headersize < c + (left + 1) := by omega
        rw [otaDataProcess.header_ends plain (image.mpr ends), none, if_pos reached]
        exact ⟨rfl, { parsed with }, rfl⟩
      · have taken : min (left + 1) (f.headersize - c)
            = min left (f.headersize - (c + 1)) + 1 := by omega
        have moved (x : Nat) : x + (min left (f.headersize - (c + 1)) + 1)
            = x + 1 + min left (f.headersize - (c + 1)) := by omega
        rw [taken, moved, moved, ← shift left]
        by_cases starts : otaDataProcess.startsField s = true
        · have next := parsed.field (by omega) starts fun j inField => same j (by omega)
          have going : (otaDataProcess.field payload i s).advance.otaState = .staStarting := by
            rw [← starting]
            exact otaDataProcess.field_state payload i s
          rw [otaDataProcess.header_field starts]
          exact ih next going (by omega) (by omega) rest later
        · have next := parsed.skip (by omega) starts
          rw [otaDataProcess.header_skip starts (mt image.mp ends)]
          exact ih next starting (by omega) (by omega) rest later

end Header

-----------------------------------------------------------------------------------------
-- The image
-----------------------------------------------------------------------------------------

/-- The image as it is stored: its keyword is masked. -/
def OtaFile.masked (k : OtaBuild) (f : OtaFile) : Mem :=
  Function.update f.imageMem (otaTlnkKeywordAddroffset k) blankByte

/-- The client finds the length of the image, which has a checksum and the keyword. -/
structure OtaFile.Checkable (k : OtaBuild) (f : OtaFile) : Prop where
  sized : f.mem.le32 otaHeadImagesize = f.image.length
  checked : 4 ≤ f.image.length
  keyword : otaTlnkKeywordAddroffset k < f.image.length
    → f.imageMem (otaTlnkKeywordAddroffset k) = otaKeyword

/-- A client that has been given the first `c` bytes of the file since `start`, when the flash
held `m₀`.
-/
structure Fed (k : OtaBuild) (f : OtaFile) (start : OtaClient) (m₀ : Mem) (s : OtaClient) (m : Mem)
    (c : Nat) : Prop extends ParsedUpTo f s c where
  boot : s.mcuBootAddr = start.mcuBootAddr
  offset : s.flashOffsetAddr = c - f.headersize
  crc : f.Checkable k → s.crcValue = xcrc32
    (f.imageMem.read 0 (min (c - f.headersize) (f.image.length - 4))) 0xffffffff
  stored : ∀ j < c - f.headersize, m (start.newAddr + j) = f.masked k j
  outside : ∀ x, x < start.newAddr ∨ start.newAddr + (c - f.headersize) ≤ x → m x = m₀ x

section Image

variable {k : OtaBuild} {f : OtaFile} {start s : OtaClient} {m₀ m : Mem} {c i datalen : Nat}
  {payload : Mem} {env : Env} {d : Dev}

theorem JustStarted.fed (started : JustStarted start) : Fed k f start m start m 0 where
  toParsedUpTo := started.parsed
  boot := rfl
  offset := started.offset.trans (Nat.zero_sub _).symm
  crc := by
    intro _
    rw [Nat.zero_sub, Nat.zero_min, Mem.read_zero, xcrc32_nil]
    exact started.crc
  stored := by
    intro j no
    omega
  outside := fun _ _ => rfl

theorem Fed.newAddr (fed : Fed k f start m₀ s m c) : s.newAddr = start.newAddr := by
  rw [OtaClient.newAddr, OtaClient.newAddr, fed.boot]

/-- A block of the image continues the checksum. -/
theorem Fed.checksum (fed : Fed k f start m₀ s m c) (image : f.headersize ≤ c)
    (short : datalen < 256) (inside : c + datalen ≤ f.bytes.length)
    (same : ∀ j < datalen, payload (i + j) = f.mem (c + j)) (checkable : f.Checkable k)
    : (otaDataProcess.written k payload datalen i s).crcValue
      = xcrc32 (f.imageMem.read 0 (min (c + datalen - f.headersize) (f.image.length - 4)))
          0xffffffff := by
  have long := f.headersize_ge
  have fits := f.bytes_small
  have total := f.bytes_length
  have count := fed.count
  simp only [otaHeadImagesize, u32Mod] at long fits
  have size : s.otaHeadersize = f.headersize := by
    rw [fed.size, if_pos (by simp only [otaHeadLength]; omega)]
  have imageSize : s.binInfo.imageSize = f.image.length := by
    rw [fed.imageSize (by simp only [otaHeadImagesize]; omega), checkable.sized]
  have offset := fed.offset
  obtain ⟨off, named⟩ : ∃ off, c = f.headersize + off := Nat.exists_eq_add_of_le image
  have byte (j : Nat) (inBlock : j < datalen) : payload (i + j) = f.imageMem (off + j) := by
    rw [same j inBlock, named, Nat.add_assoc, f.mem_image]
  have moved : (s.otaHeadercnt + datalen) % u32Mod = s.otaHeadercnt + datalen :=
    Nat.mod_eq_of_lt (by simp only [u32Mod]; omega)
  have counted : otaDataProcess.crcLen (otaDataProcess.counted datalen s) s.otaHeadercnt datalen
      = min (off + datalen) (f.image.length - 4) - min off (f.image.length - 4) := by
    rw [← imageSize]
    apply otaDataProcess.crcLen_count
    · exact imageSize ▸ checkable.checked
    · change s.binInfo.imageSize + s.otaHeadersize < u32Mod
      simp only [u32Mod]
      omega
    · exact short
    · change s.otaHeadercnt = s.otaHeadersize + off
      omega
    · exact moved
  have fresh : (otaDataProcess.restored k payload datalen i s).read i
        (min (off + datalen) (f.image.length - 4) - min off (f.image.length - 4))
      = f.imageMem.read (min off (f.image.length - 4))
        (min (off + datalen) (f.image.length - 4) - min off (f.image.length - 4)) := by
    apply Mem.read_congr
    intro j inRange
    rw [otaDataProcess.restored_byte]
    · have place : off + j = min off (f.image.length - 4) + j := by omega
      rw [byte j (by omega), place]
    · intro keyword
      have place : off + j = otaTlnkKeywordAddroffset k := by omega
      rw [byte j (by omega), place, checkable.keyword (by omega)]
  have before := fed.crc checkable
  have behind : c - f.headersize = off := by omega
  have next : c + datalen - f.headersize = off + datalen := by omega
  have split : min (off + datalen) (f.image.length - 4) = min off (f.image.length - 4)
      + (min (off + datalen) (f.image.length - 4) - min off (f.image.length - 4)) := by omega
  rw [behind] at before
  rw [otaDataProcess.written, counted, fresh, before, next, ← xcrc32_append, split, Mem.read_add,
    Nat.zero_add, ← split]

/-- A block of the image is stored and counted, or the session is given up. -/
theorem Fed.store (fed : Fed k f start m₀ s d.mem c) (env : Env) (image : f.headersize ≤ c)
    (short : datalen < 256) (inside : c + datalen ≤ f.bytes.length)
    (same : ∀ j < datalen, payload (i + j) = f.mem (c + j))
    : (Prog.run env (otaDataProcess.store k payload datalen i s) d).1.otaState = .staIdle
      ∨ (Prog.run env (otaDataProcess.store k payload datalen i s) d).1.otaState = s.otaState
        ∧ Fed k f start m₀ (Prog.run env (otaDataProcess.store k payload datalen i s) d).1
          (Prog.run env (otaDataProcess.store k payload datalen i s) d).2.mem (c + datalen) := by
  have long := f.headersize_ge
  have fits := f.bytes_small
  have total := f.bytes_length
  have count := fed.count
  have offset := fed.offset
  have addr := fed.newAddr
  simp only [otaHeadImagesize, u32Mod] at long fits
  have small : s.flashOffsetAddr + datalen < u32Mod := by
    simp only [u32Mod]
    omega
  obtain ⟨device, success⟩ := run_flashWriteWithCheck env (s.newAddr + s.flashOffsetAddr)
    ((otaDataProcess.masked k payload datalen i s).read i datalen) d
  rw [Mem.read_length] at success
  rw [otaDataProcess.store_shape, Prog.run_bind, device]
  split
  · rename_i written
    have stored := success written
    have untouched (x : Nat) (away : x < s.newAddr + s.flashOffsetAddr
        ∨ s.newAddr + s.flashOffsetAddr + datalen ≤ x)
        : (d.issue env (otaDataProcess.command k payload datalen i s)).mem x = d.mem x := by
      apply Dev.issue_untouched
      simp only [otaDataProcess.command, Cmd.Touches, Mem.read_length]
      omega
    refine Or.inr ⟨rfl, ?_⟩
    refine {
      toParsedUpTo := fed.toParsedUpTo.moved (by simp only [otaHeadImagesize]; omega) ?_ rfl rfl
      boot := fed.boot
      offset := ?_
      crc := fed.checksum image short inside same
      stored := ?_
      outside := ?_
    }
    · change (s.otaHeadercnt + datalen) % u32Mod = c + datalen
      rw [count]
      exact Nat.mod_eq_of_lt (by simp only [u32Mod]; omega)
    · change (s.flashOffsetAddr + datalen) % u32Mod = c + datalen - f.headersize
      rw [Nat.mod_eq_of_lt small]
      omega
    · intro j inSlot
      by_cases old : j < c - f.headersize
      · exact (untouched _ (by omega)).trans (fed.stored j old)
      · obtain ⟨n, rfl⟩ := Nat.exists_eq_add_of_le (Nat.not_lt.mp old)
        have inBlock : n < datalen := by omega
        have place : start.newAddr + (c - f.headersize + n) = s.newAddr + s.flashOffsetAddr + n := by
          omega
        have image : f.mem (c + n) = f.imageMem (c - f.headersize + n) := by
          rw [← f.mem_image]
          congr 1
          omega
        have byte : (d.issue env (otaDataProcess.command k payload datalen i s)).mem
            (s.newAddr + s.flashOffsetAddr + n)
            = ((otaDataProcess.masked k payload datalen i s).read i datalen).getD n blankByte := by
          rw [← stored]
          exact (Mem.read_getD _ inBlock blankByte).symm
        rw [place]
        refine byte.trans ?_
        rw [Mem.read_getD _ inBlock, otaDataProcess.masked_byte small inBlock,
          same n inBlock, image, offset, OtaFile.masked, Function.update_apply]
    · intro x away
      exact (untouched x (by omega)).trans (fed.outside x (by omega))
  · exact Or.inl rfl

/-- On blank flash a block is stored where commands take effect. -/
theorem Fed.store_steady (fed : Fed k f start m₀ s d.mem c) (steady : env.Steady)
    (blank : m₀.BlankOn start.newAddr (start.newAddr + f.image.length))
    (image : f.headersize ≤ c) (inside : c + datalen ≤ f.bytes.length)
    : (Prog.run env (otaDataProcess.store k payload datalen i s) d).1.otaState = s.otaState := by
  have total := f.bytes_length
  have offset := fed.offset
  have addr := fed.newAddr
  have free : d.mem.BlankOn (s.newAddr + s.flashOffsetAddr)
      (s.newAddr + s.flashOffsetAddr
        + ((otaDataProcess.masked k payload datalen i s).read i datalen).length) := by
    rw [Mem.read_length]
    intro x low high
    exact (fed.outside x (by omega)).trans (blank x (by omega) (by omega))
  rw [otaDataProcess.store_shape, Prog.run_bind, flashWriteWithCheck_blank steady free]
  rfl

end Image

-----------------------------------------------------------------------------------------
-- Blocks
-----------------------------------------------------------------------------------------

/-- A client between two blocks. -/
structure Progress (k : OtaBuild) (f : OtaFile) (start : OtaClient) (m₀ : Mem) (s : OtaClient)
    (m : Mem) (c : Nat) : Prop extends Fed k f start m₀ s m c where
  state : s.otaState = if f.headersize < c then .staDataing else .staStarting

section Blocks

variable {k : OtaBuild} {f : OtaFile} {start s : OtaClient} {m₀ m : Mem} {c len : Nat}
  {payload : Mem} {env : Env} {d : Dev}

theorem JustStarted.progress (started : JustStarted start) : Progress k f start m start m 0 where
  toFed := started.fed
  state := by
    rw [if_neg (Nat.not_lt_zero _)]
    exact started.state

/-- The header touches neither the flash nor what is known of the image. -/
theorem Fed.header {s' : OtaClient} {c' : Nat} (fed : Fed k f start m₀ s m c)
    (parsed : ParsedUpTo f s' c') (kept : Kept s s')
    (same : c' - f.headersize = c - f.headersize)
    : Fed k f start m₀ s' m c' where
  toParsedUpTo := parsed
  boot := kept.boot.trans fed.boot
  offset := by
    rw [kept.offset, fed.offset, same]
  crc := by
    intro checkable
    rw [kept.crc, fed.crc checkable, same]
  stored := by
    rw [same]
    exact fed.stored
  outside := by
    rw [same]
    exact fed.outside

/-- A block up to the first byte of the image in it. -/
theorem Progress.parsed (progress : Progress k f start m₀ s m c)
    (inside : c + len ≤ f.bytes.length) (nonempty : 0 < len)
    (same : ∀ j < len, payload j = f.mem (c + j))
    (whole : ∀ j < len, j + otaFieldWidth (c + j) ≤ len)
    : (otaDataProcess.parsed len payload s).1 = min len (f.headersize - c)
      ∧ Fed k f start m₀ (otaDataProcess.parsed len payload s).2 m
        (c + min len (f.headersize - c))
      ∧ (otaDataProcess.parsed len payload s).2.otaState
        = if f.headersize < c + len then .staDataing else .staStarting := by
  have fits := f.bytes_small
  have kept := otaDataProcess.parsed_kept len payload s
  by_cases image : f.headersize < c
  · have state : s.otaState = .staDataing := progress.state.trans (if_pos image)
    have passed : otaDataProcess.parsed len payload s = (0, s) :=
      otaDataProcess.parsed_past (by rw [state]; decide)
    have none : min len (f.headersize - c) = 0 := by omega
    rw [passed, none, if_pos (by omega)]
    exact ⟨rfl, progress.toFed, state⟩
  · have state : s.otaState = .staStarting := progress.state.trans (if_neg image)
    have shape : otaDataProcess.parsed len payload s = otaDataProcess.header payload len 0 s :=
      if_pos state
    have bytes : ∀ j < len, payload (0 + j) = f.mem (c + j) := by
      intro j before
      rw [Nat.zero_add]
      exact same j before
    obtain ⟨index, parsed, state'⟩ := progress.toParsedUpTo.header state
      (Nat.not_lt.mp image) (by omega) bytes whole
    rw [shape] at kept ⊢
    rw [Nat.zero_add] at index
    exact ⟨index, progress.toFed.header parsed kept (by omega), state'⟩

/-- A block, whatever part of the file it holds. -/
theorem Progress.process (progress : Progress k f start m₀ s d.mem c) (env : Env)
    (inside : c + len ≤ f.bytes.length) (nonempty : 0 < len) (short : len < 256)
    (same : ∀ j < len, payload j = f.mem (c + j))
    (whole : ∀ j < len, j + otaFieldWidth (c + j) ≤ len)
    : ((Prog.run env (otaDataProcess k len payload s) d).1.otaState = .staIdle
        ∨ Progress k f start m₀ (Prog.run env (otaDataProcess k len payload s) d).1
          (Prog.run env (otaDataProcess k len payload s) d).2.mem (c + len))
      ∧ (env.Steady → m₀.BlankOn start.newAddr (start.newAddr + f.image.length)
        → (Prog.run env (otaDataProcess k len payload s) d).1.otaState ≠ .staIdle) := by
  obtain ⟨index, fed, state⟩ := progress.parsed inside nonempty same whole
  by_cases image : f.headersize < c + len
  · rw [if_pos image] at state
    obtain ⟨i, named⟩ : ∃ i, i = min len (f.headersize - c) := ⟨_, rfl⟩
    rw [← named] at index fed
    have rest : ∀ j < len - i, payload (i + j) = f.mem (c + i + j) := by
      intro j before
      rw [Nat.add_assoc]
      exact same (i + j) (by omega)
    have total : c + i + (len - i) = c + len := by omega
    rw [otaDataProcess_store ⟨state, nonempty⟩, index]
    constructor
    · rcases fed.store env (by omega) (by omega) (by omega) rest with failed | ⟨kept, next⟩
      · exact Or.inl failed
      · rw [total] at next
        exact Or.inr { next with state := by rw [kept, state, if_pos image] }
    · intro steady blank
      rw [fed.store_steady steady blank (by omega) (by omega), state]
      decide
  · rw [if_neg image] at state
    have all : min len (f.headersize - c) = len := by omega
    have stays : ¬((otaDataProcess.parsed len payload s).2.otaState = .staDataing ∧ len > 0) := by
      rw [state]
      exact fun no => OtaSta.noConfusion no.1
    rw [all] at fed
    rw [otaDataProcess_header stays, Prog.run_pure]
    refine ⟨Or.inr { fed with state := by rw [state, if_neg image] }, ?_⟩
    intro _ _
    rw [state]
    decide

/-- A client that has given up the session ignores what is left. -/
theorem otaDataProcess.blocks_idle (blocks : List OtaBlock) (idle : s.otaState = .staIdle)
    : otaDataProcess.blocks k blocks s = pure s := by
  induction blocks with
  | nil => rfl
  | cons b rest ih =>
      have passed : otaDataProcess.parsed b.bytes.length b.payload s = (0, s) :=
        otaDataProcess.parsed_past (by rw [idle]; decide)
      have stays : ¬((otaDataProcess.parsed b.bytes.length b.payload s).2.otaState = .staDataing
          ∧ b.bytes.length > 0) := by
        rw [passed, idle]
        exact fun no => OtaSta.noConfusion no.1
      rw [otaDataProcess.blocks, otaDataProcess_header stays, passed]
      exact ih

/-- The first block of what is left of a file has the bytes of the file. -/
theorem OtaBlock.payload_eq {b : OtaBlock} {rest : List UInt8}
    (whole : b.bytes ++ rest = f.bytes.drop c) {j : Nat} (inside : j < b.bytes.length)
    : b.payload j = f.mem (c + j) := by
  have byte : f.bytes[c + j]? = b.bytes[j]? := by
    rw [← List.getElem?_drop, ← whole, List.getElem?_append_left inside]
  rw [OtaBlock.payload, OtaFile.mem, List.getD_eq_getElem?_getD, List.getD_eq_getElem?_getD, byte,
    List.getElem?_eq_getElem inside, Option.getD_some, Option.getD_some]

/-- All blocks of a file, by induction on those that are left. -/
theorem Progress.blocks {blocks : List OtaBlock} (progress : Progress k f start m₀ s d.mem c)
    (env : Env) (inside : c ≤ f.bytes.length) (whole : blocks.flatMap OtaBlock.bytes = f.bytes.drop c)
    (sizes : ∀ b ∈ blocks, 1 ≤ b.bytes.length ∧ b.bytes.length ≤ otaFramesize)
    (intact : FieldsIntact c blocks)
    : ((Prog.run env (otaDataProcess.blocks k blocks s) d).1.otaState = .staIdle
        ∨ Progress k f start m₀ (Prog.run env (otaDataProcess.blocks k blocks s) d).1
          (Prog.run env (otaDataProcess.blocks k blocks s) d).2.mem f.bytes.length)
      ∧ (env.Steady → m₀.BlankOn start.newAddr (start.newAddr + f.image.length)
        → (Prog.run env (otaDataProcess.blocks k blocks s) d).1.otaState ≠ .staIdle) := by
  induction blocks generalizing s d c with
  | nil =>
      have all : c = f.bytes.length :=
        Nat.le_antisymm inside (List.drop_eq_nil_iff.mp whole.symm)
      rw [otaDataProcess.blocks, Prog.run_pure, ← all]
      refine ⟨Or.inr progress, fun _ _ => ?_⟩
      rw [progress.state]
      split <;> decide
  | cons b rest ih =>
      rw [List.flatMap_cons] at whole
      obtain ⟨positive, short⟩ := sizes b (List.mem_cons_self ..)
      obtain ⟨fields, later⟩ := intact
      have total := congrArg List.length whole
      rw [List.length_append, List.length_drop] at total
      have left : rest.flatMap OtaBlock.bytes = f.bytes.drop (c + b.bytes.length) := by
        rw [← List.drop_drop, ← whole, List.drop_left]
      obtain ⟨outcome, succeeds⟩ := progress.process env (by omega) positive
        (by simp only [otaFramesize] at short; omega) (fun j before => OtaBlock.payload_eq whole before)
        fields
      rw [otaDataProcess.blocks, Prog.run_bind]
      rcases outcome with failed | next
      · rw [otaDataProcess.blocks_idle rest failed, Prog.run_pure]
        exact ⟨Or.inl failed, succeeds⟩
      · exact ih next (by omega) left (fun b' member => sizes b' (List.mem_cons_of_mem _ member)) later

/-- A client that starts its first session after a reset. -/
theorem otaStartRspHandler_justStarted {pHdr : OtaPreamble}
    (accepted : otaStartRspHandler.accepts k (otaPowerUp k m) pHdr = true)
    : JustStarted (Prog.run env (otaStartRspHandler k pHdr (otaPowerUp k m)) d).1 := by
  rw [otaStartRspHandler, if_pos accepted, Prog.run_bind, Prog.run_pure]
  exact ⟨rfl, rfl, rfl, rfl, rfl⟩

end Blocks

-----------------------------------------------------------------------------------------
-- Blocks of the server
-----------------------------------------------------------------------------------------

section Served

variable {f : OtaFile}

theorem OtaFile.mem_read (f : OtaFile) : f.mem.read 0 f.bytes.length = f.bytes := by
  apply Mem.read_eq_iff.mpr
  intro i inside
  rw [Nat.zero_add, OtaFile.mem, List.getD_eq_getElem _ _ inside, List.getD_eq_getElem _ _ inside]

/-- No field lies over the end of a block of `OTA_FRAMESIZE` bytes. -/
theorem OtaFile.blocks_field (f : OtaFile) (n : Nat)
    : ∀ i < min otaFramesize (f.bytes.length - otaFramesize * n),
      i + otaFieldWidth (otaFramesize * n + i)
        ≤ min otaFramesize (f.bytes.length - otaFramesize * n) := by
  intro i inside
  have long := f.headersize_ge
  have total := f.bytes_length
  simp only [otaFieldWidth, otaHeadLength, otaHeadMauncode, otaHeadImagetype, otaHeadFilever,
    otaHeadImagesize, otaFramesize] at *
  split <;> (try split) <;> (try split) <;> (try split) <;> (try split) <;> omega

theorem OtaFile.block_length (f : OtaFile) (behind : Mem) (n : Nat)
    : (f.block behind n).bytes.length
      = min otaFramesize (f.bytes.length - otaFramesize * n) :=
  Mem.read_length _ _ _

theorem OtaFile.blocks_intact (f : OtaFile) (behind : Nat → Mem) (n count : Nat)
    (inside : otaFramesize * (n + count) < f.bytes.length + otaFramesize)
    : FieldsIntact (otaFramesize * n)
        ((List.range' n count).map fun n => f.block (behind n) n) := by
  induction count generalizing n with
  | zero => exact trivial
  | succ count ih =>
      rw [List.range'_succ, List.map_cons]
      refine ⟨?_, ?_⟩
      · rw [f.block_length]
        exact f.blocks_field n
      · rw [f.block_length]
        cases count with
        | zero => exact trivial
        | succ count =>
            have full : min otaFramesize (f.bytes.length - otaFramesize * n) = otaFramesize := by
              simp only [otaFramesize] at *
              omega
            rw [full, ← Nat.mul_succ]
            apply ih
            simp only [otaFramesize] at *
            omega

theorem OtaFile.blocks_cut (f : OtaFile) (behind : Nat → Mem) : f.Cut (f.blocks behind) where
  whole := by
    have blocks := Mem.read_blocks f.mem 0 otaFramesize f.bytes.length
      ((f.bytes.length + otaFramesize - 1) / otaFramesize)
    have all : min (otaFramesize * ((f.bytes.length + otaFramesize - 1) / otaFramesize))
        f.bytes.length = f.bytes.length := by
      simp only [otaFramesize]
      omega
    simp only [all, f.mem_read, Nat.zero_add] at blocks
    rw [OtaFile.blocks, List.flatMap_map]
    exact blocks
  sizes := by
    intro b member
    obtain ⟨n, inRange, rfl⟩ := List.mem_map.mp member
    have before := List.mem_range.mp inRange
    rw [f.block_length]
    simp only [otaFramesize] at *
    omega
  intact := by
    have intact := f.blocks_intact behind 0 ((f.bytes.length + otaFramesize - 1) / otaFramesize)
      (by simp only [otaFramesize]; omega)
    rw [OtaFile.blocks, List.range_eq_range']
    exact intact

end Served

-----------------------------------------------------------------------------------------
-- Whole files
-----------------------------------------------------------------------------------------

/-- The client has made of the file what its header says. -/
structure Received (k : OtaBuild) (f : OtaFile) (start : OtaClient) (m₀ : Mem) (s : OtaClient)
    (m : Mem) : Prop where
  headersize : s.otaHeadersize = f.header.length + 6
  manufaurerCode : s.binInfo.manufaurerCode = (OtaHdrFields.load f.mem 0).manufaurerCode
  imageType : s.binInfo.imageType = (OtaHdrFields.load f.mem 0).imageType
  fileVer : s.binInfo.fileVer = (OtaHdrFields.load f.mem 0).fileVer
  imageSize : s.binInfo.imageSize = f.image.length
  stored : m.read start.newAddr f.image.length = (f.masked k).read 0 f.image.length
  outside : ∀ x, x < start.newAddr ∨ start.newAddr + f.image.length ≤ x → m x = m₀ x

section Whole

variable {k : OtaBuild} {f : OtaFile} {s s' : OtaClient} {m₀ m : Mem} {env : Env} {d : Dev}

/-- The client that has the whole file behind it took the size of the image from a fixed place. -/
theorem Progress.received_iff (progress : Progress k f s m₀ s' m f.bytes.length)
    : Received k f s m₀ s' m ↔ f.mem.le32 otaHeadImagesize = f.image.length := by
  have long := f.headersize_ge
  have total := f.bytes_length
  simp only [otaHeadImagesize] at long
  have behind : f.bytes.length - f.headersize = f.image.length := by omega
  have size := progress.imageSize (by simp only [otaHeadImagesize]; omega)
  have stored := progress.stored
  have outside := progress.outside
  rw [behind] at stored outside
  constructor
  · intro received
    exact size.symm.trans received.imageSize
  · intro found
    refine ⟨?_, ?_, ?_, ?_, size.trans found, ?_, outside⟩
    · rw [progress.size, if_pos (by simp only [otaHeadLength]; omega), OtaFile.headersize]
    · exact progress.manufaurerCode (by simp only [otaHeadMauncode]; omega)
    · exact progress.imageType (by simp only [otaHeadImagetype]; omega)
    · exact progress.fileVer (by simp only [otaHeadFilever]; omega)
    · apply Mem.read_congr
      intro j inside
      rw [Nat.zero_add]
      exact stored j inside

/-- The length of the image is found behind the shortest header. -/
theorem OtaFile.sized_of_short (short : f.header.length = 56)
    : f.mem.le32 otaHeadImagesize = f.image.length := by
  have place : otaHeadImagesize = f.header.length + 2 := by rw [short]
  rw [place]
  exact f.mem_imageLength

/-- A client that is fed the blocks of a server makes of the file what its header says exactly if
the number at `OTA_HEAD_IMAGESIZE` happens to be the length of the image. It is fed them without a
failed write where commands take effect and the slot is blank.
-/
theorem otaDataProcess_received_iff (started : JustStarted s) (behind : Nat → Mem)
    : ((Prog.run env (otaDataProcess.blocks k (f.blocks behind) s) d).1.otaState ≠ .staIdle
        → (Received k f s d.mem (Prog.run env (otaDataProcess.blocks k (f.blocks behind) s) d).1
            (Prog.run env (otaDataProcess.blocks k (f.blocks behind) s) d).2.mem
          ↔ f.mem.le32 otaHeadImagesize = f.image.length))
      ∧ (env.Steady → d.mem.BlankOn s.newAddr (s.newAddr + f.image.length)
        → (Prog.run env (otaDataProcess.blocks k (f.blocks behind) s) d).1.otaState ≠ .staIdle) := by
  have cut := f.blocks_cut behind
  have begins : Progress k f s d.mem s d.mem 0 := started.progress
  obtain ⟨outcome, succeeds⟩ := begins.blocks env (Nat.zero_le _) cut.whole cut.sizes cut.intact
  refine ⟨fun going => ?_, succeeds⟩
  exact (outcome.resolve_left going).received_iff

/-- The checksum of a file with the shortest header, cut into blocks in any way, is that of its
image without the last four bytes. The client is left in `OTA_STA_IDLE` by a failed write only.
-/
theorem otaDataProcess_crc {blocks : List OtaBlock} (started : JustStarted s)
    (short : f.header.length = 56) (checked : 4 ≤ f.image.length)
    (keyword : ∀ inside : otaTlnkKeywordAddroffset k < f.image.length,
      f.image.get ⟨_, inside⟩ = otaKeyword)
    (cut : f.Cut blocks)
    (succeeds : (Prog.run env (otaDataProcess.blocks k blocks s) d).1.otaState ≠ .staIdle)
    : (Prog.run env (otaDataProcess.blocks k blocks s) d).1.crcValue
      = xcrc32 (f.image.take (f.image.length - 4)) 0xffffffff := by
  have begins : Progress k f s d.mem s d.mem 0 := started.progress
  have progress := (begins.blocks env (Nat.zero_le _) cut.whole cut.sizes cut.intact).1.resolve_left
    succeeds
  have total := f.bytes_length
  have checkable : f.Checkable k := by
    refine ⟨f.sized_of_short short, checked, fun inside => ?_⟩
    rw [OtaFile.imageMem, List.getD_eq_getElem _ _ inside]
    exact keyword inside
  have length : min (f.bytes.length - f.headersize) (f.image.length - 4)
      = f.image.length - 4 := by omega
  have front : f.imageMem.read 0 (f.image.length - 4) = f.image.take (f.image.length - 4) := by
    have taken : (f.image.take (f.image.length - 4)).length = f.image.length - 4 := by
      rw [List.length_take]
      omega
    have bytes : f.imageMem.read 0 (f.image.take (f.image.length - 4)).length
        = f.image.take (f.image.length - 4) := by
      apply Mem.read_eq_iff.mpr
      intro i inside
      rw [Nat.zero_add, OtaFile.imageMem, List.getD_eq_getElem _ _ inside, List.getElem_take,
        List.getD_eq_getElem]
    rwa [taken] at bytes
  rw [progress.crc checkable, length, front]

/-- A file with 56 bytes of header, an image of 12 bytes and the keyword. -/
def shortHeaderFile : OtaFile where
  header := [0, 0, 0, 0, 0, 0, 56, 0] ++ List.replicate 48 0
  tag := [0, 0]
  image := List.replicate 8 1 ++ [otaKeyword] ++ List.replicate 3 2
  long := by decide
  stated := by decide
  tagged := rfl
  fits := by decide

/-- The same with four optional bytes at the end of the header. -/
def optionalFieldsFile : OtaFile where
  header := [0, 0, 0, 0, 0, 0, 60, 0] ++ List.replicate 52 0
  tag := [0, 0]
  image := List.replicate 8 1 ++ [otaKeyword] ++ List.replicate 3 2
  long := by decide
  stated := by decide
  tagged := rfl
  fits := by decide

/-- A client at the start of a session, whose new slot is the second one. -/
def startedClient : OtaClient := { otaState := .staStarting, crcValue := 0xffffffff }

def blankDev : Dev := { mem := Mem.blank, locked := false }

theorem startedClient_justStarted : JustStarted startedClient := ⟨rfl, rfl, rfl, rfl, rfl⟩

/-- Bytes in blocks of the given sizes. -/
def inBlocks : List UInt8 → List Nat → List OtaBlock
  | _, [] => []
  | bytes, size :: rest =>
      { bytes := bytes.take size, behind := Mem.blank } :: inBlocks (bytes.drop size) rest

theorem otaDataProcess_received_short
    : Received build8258 shortHeaderFile startedClient Mem.blank
        (Prog.run {} (otaDataProcess.blocks build8258 (shortHeaderFile.blocks fun _ => Mem.blank)
          startedClient) blankDev).1
        (Prog.run {} (otaDataProcess.blocks build8258 (shortHeaderFile.blocks fun _ => Mem.blank)
          startedClient) blankDev).2.mem := by
  have steady : Env.Steady {} := ⟨fun _ => rfl, rfl⟩
  obtain ⟨received, succeeds⟩ := @otaDataProcess_received_iff build8258 shortHeaderFile
    startedClient {} blankDev startedClient_justStarted fun _ => Mem.blank
  exact (received (succeeds steady fun _ _ _ => rfl)).mpr (by decide +kernel)

/-- With optional fields the size of the image is taken from the end of the header and the tag. -/
theorem optional_fields_shift_size
    : Env.Steady {} ∧ JustStarted startedClient
      ∧ (Prog.run {} (otaDataProcess.blocks build8258
          (optionalFieldsFile.blocks fun _ => Mem.blank) startedClient)
          blankDev).1.otaState = .staDataing
      ∧ (Prog.run {} (otaDataProcess.blocks build8258
          (optionalFieldsFile.blocks fun _ => Mem.blank) startedClient)
          blankDev).1.binInfo.imageSize = 0
      ∧ ¬Received build8258 optionalFieldsFile startedClient Mem.blank
          (Prog.run {} (otaDataProcess.blocks build8258
            (optionalFieldsFile.blocks fun _ => Mem.blank) startedClient) blankDev).1
          (Prog.run {} (otaDataProcess.blocks build8258
            (optionalFieldsFile.blocks fun _ => Mem.blank) startedClient)
            blankDev).2.mem := by
  have size : (Prog.run {} (otaDataProcess.blocks build8258
      (optionalFieldsFile.blocks fun _ => Mem.blank) startedClient)
      blankDev).1.binInfo.imageSize = 0 := by
    decide +kernel
  refine ⟨⟨fun _ => rfl, rfl⟩, startedClient_justStarted, by decide +kernel, size, ?_⟩
  intro received
  have length := received.imageSize
  rw [size] at length
  revert length
  decide

/-- The image comes in pieces of 1, 3, 1, 4 and 3 bytes, the first behind the end of the header. -/
theorem otaDataProcess_crc_pieces
    : (Prog.run {} (otaDataProcess.blocks build8258
        (inBlocks shortHeaderFile.bytes [48, 15, 3, 1, 4, 3]) startedClient)
        blankDev).1.crcValue
      = xcrc32 (List.replicate 8 1) 0xffffffff := by
  have cut : shortHeaderFile.Cut (inBlocks shortHeaderFile.bytes [48, 15, 3, 1, 4, 3]) := by
    refine ⟨by decide +kernel, by decide +kernel, ?_⟩
    exact ⟨by decide +kernel, by decide +kernel, by decide +kernel, by decide +kernel,
      by decide +kernel, by decide +kernel, trivial⟩
  have front : shortHeaderFile.image.take (shortHeaderFile.image.length - 4)
      = List.replicate 8 1 := by
    decide
  rw [← front]
  exact otaDataProcess_crc startedClient_justStarted rfl (by decide) (fun _ => rfl) cut
    (by decide +kernel)

end Whole

end TelinkSdk
