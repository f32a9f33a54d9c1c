import TelinkSdk.Ota.Frame
import TelinkSdk.Ota.Server

/-! Which bytes of a frame `ota_DataProcess` touches, against the size that the frame states and
the size of its array.
-/

namespace TelinkSdk

open Nor

variable {k : OtaBuild} {s : OtaClient} {payload payload' : Mem} {len left i bound : Nat}

-----------------------------------------------------------------------------------------
-- Touched bytes
-----------------------------------------------------------------------------------------

/-- The width of the header field that starts at a position, 0 where none does. -/
def otaFieldWidth (position : Nat) : Nat :=
  if position = otaHeadLength then 2
  else if position = otaHeadMauncode then 2
  else if position = otaHeadImagetype then 2
  else if position = otaHeadFilever then 4
  else if position = otaHeadImagesize then 4
  else 0

/-- The bytes that the loop over the header reads. Bytes that start no field are counted only. -/
def otaDataProcess.headerReads (payload : Mem) : Nat → Nat → OtaClient → List Nat
  | 0, _, _ => []
  | left + 1, i, s =>
      if otaDataProcess.startsField s then
        List.range' i (otaFieldWidth s.otaHeadercnt)
          ++ otaDataProcess.headerReads payload left (i + 1)
            (otaDataProcess.field payload i s).advance
      else if s.otaHeadercnt = s.otaHeadersize ∧ s.otaHeadersize ≠ 0 then []
      else otaDataProcess.headerReads payload left (i + 1) s.advance

/-- The bytes that a block of the image touches: the keyword that is masked and restored, and the
bytes that are written, compared and checksummed.
-/
def otaDataProcess.storeTouches (k : OtaBuild) (datalen i : Nat) (s : OtaClient) : List Nat :=
  (if otaDataProcess.flag k s datalen then [i + otaTlnkKeywordAddroffset k - s.flashOffsetAddr]
    else [])
  ++ List.range' i datalen

/-- The bytes of the payload that `ota_DataProcess` reads or writes. -/
def otaDataProcess.touches (k : OtaBuild) (len : Nat) (payload : Mem) (s : OtaClient) : List Nat :=
  (if s.otaState = .staStarting then otaDataProcess.headerReads payload len 0 s else [])
  ++ if (otaDataProcess.parsed len payload s).2.otaState = .staDataing ∧ len > 0 then
      otaDataProcess.storeTouches k (len - (otaDataProcess.parsed len payload s).1)
        (otaDataProcess.parsed len payload s).1 (otaDataProcess.parsed len payload s).2
    else []

theorem otaFieldWidth_pos : otaDataProcess.startsField s = true ↔ 0 < otaFieldWidth s.otaHeadercnt := by
  simp only [otaDataProcess.startsField, Bool.or_eq_true, beq_iff_eq]
  unfold otaFieldWidth
  split <;> (try split) <;> (try split) <;> (try split) <;> (try split) <;> simp [*]

/-- A field is made of the bytes it spans. -/
theorem otaDataProcess.field_congr (starts : otaDataProcess.startsField s = true)
    (same : ∀ x ∈ List.range' i (otaFieldWidth s.otaHeadercnt), payload' x = payload x)
    : otaDataProcess.field payload' i s = otaDataProcess.field payload i s := by
  have two (room : 2 ≤ otaFieldWidth s.otaHeadercnt) : payload'.le16 i = payload.le16 i :=
    Mem.le16_congr fun j inside => same _ (List.mem_range'_1.mpr (by omega))
  have four (room : 4 ≤ otaFieldWidth s.otaHeadercnt) : payload'.le32 i = payload.le32 i :=
    Mem.le32_congr fun j inside => same _ (List.mem_range'_1.mpr (by omega))
  simp only [otaDataProcess.startsField, Bool.or_eq_true, beq_iff_eq, or_assoc] at starts
  unfold otaDataProcess.field
  rcases starts with position | position | position | position | position
  · simp only [position, if_true, two (by rw [position]; decide)]
  · simp [position, two (by rw [position]; decide)]
  · simp [position, two (by rw [position]; decide)]
  · simp [position, otaHeadLength, otaHeadMauncode, otaHeadImagetype, otaHeadFilever,
      four (by rw [position]; decide)]
  · simp [position, otaHeadLength, otaHeadMauncode, otaHeadImagetype, otaHeadFilever,
      otaHeadImagesize, four (by rw [position]; decide)]

theorem otaDataProcess.header_congr
    (same : ∀ x ∈ otaDataProcess.headerReads payload left i s, payload' x = payload x)
    : otaDataProcess.header payload' left i s = otaDataProcess.header payload left i s := by
  induction left generalizing i s with
  | zero => rfl
  | succ left ih =>
      rw [otaDataProcess.headerReads] at same
      by_cases starts : otaDataProcess.startsField s = true
      · rw [if_pos starts] at same
        rw [otaDataProcess.header_field starts, otaDataProcess.header_field starts,
          otaDataProcess.field_congr starts fun x member => same x (List.mem_append_left _ member)]
        exact ih fun x member => same x (List.mem_append_right _ member)
      · rw [if_neg starts] at same
        by_cases ends : s.otaHeadercnt = s.otaHeadersize ∧ s.otaHeadersize ≠ 0
        · rw [otaDataProcess.header_ends starts ends, otaDataProcess.header_ends starts ends]
        · rw [if_neg ends] at same
          rw [otaDataProcess.header_skip starts ends, otaDataProcess.header_skip starts ends]
          exact ih same

/-- Storing a block looks at the bytes it touches only. -/
theorem otaDataProcess.store_congr {datalen : Nat}
    (same : ∀ x ∈ otaDataProcess.storeTouches k datalen i s, payload' x = payload x)
    : otaDataProcess.store k payload' datalen i s = otaDataProcess.store k payload datalen i s := by
  have block (j : Nat) (inside : j < datalen) : payload' (i + j) = payload (i + j) :=
    same _ (List.mem_append_right _ (List.mem_range'_1.mpr (by omega)))
  have masked : (otaDataProcess.masked k payload' datalen i s).read i datalen
      = (otaDataProcess.masked k payload datalen i s).read i datalen := by
    apply Mem.read_congr
    intro j inside
    unfold otaDataProcess.masked
    split
    · simp only [Function.update_apply, block j inside]
    · exact block j inside
  have length : otaDataProcess.crcLen (otaDataProcess.counted datalen s) s.otaHeadercnt datalen
      ≤ datalen := by
    unfold otaDataProcess.crcLen
    dsimp only
    split
    · split
      · exact Nat.zero_le _
      · split <;> omega
    · exact Nat.le_refl _
  have restored : (otaDataProcess.restored k payload' datalen i s).read i
        (otaDataProcess.crcLen (otaDataProcess.counted datalen s) s.otaHeadercnt datalen)
      = (otaDataProcess.restored k payload datalen i s).read i
        (otaDataProcess.crcLen (otaDataProcess.counted datalen s) s.otaHeadercnt datalen) := by
    apply Mem.read_congr
    intro j inside
    unfold otaDataProcess.restored
    split
    · simp only [Function.update_apply, block j (by omega)]
    · exact block j (by omega)
  rw [otaDataProcess.store_shape, otaDataProcess.store_shape, masked, otaDataProcess.written,
    otaDataProcess.written, restored]

/-- Nothing else of the payload matters. -/
theorem otaDataProcess_congr
    (same : ∀ x ∈ otaDataProcess.touches k len payload s, payload' x = payload x)
    : otaDataProcess k len payload' s = otaDataProcess k len payload s := by
  have parsed : otaDataProcess.parsed len payload' s = otaDataProcess.parsed len payload s := by
    unfold otaDataProcess.parsed
    split
    · rename_i starting
      apply otaDataProcess.header_congr
      intro x member
      apply same x (List.mem_append_left _ _)
      rwa [if_pos starting]
    · rfl
  by_cases image : (otaDataProcess.parsed len payload s).2.otaState = .staDataing ∧ len > 0
  · rw [otaDataProcess_store image, otaDataProcess_store (parsed ▸ image), parsed]
    apply otaDataProcess.store_congr
    intro x member
    apply same x (List.mem_append_right _ _)
    rwa [if_pos image]
  · rw [otaDataProcess_header image, otaDataProcess_header (parsed ▸ image), parsed]

-----------------------------------------------------------------------------------------
-- Bounds
-----------------------------------------------------------------------------------------

/-- The size of the header as it is known at byte `j` of a frame. -/
def OtaClient.headersizeAt (payload : Mem) (s : OtaClient) (j : Nat) : Nat :=
  let start := (otaHeadLength + (u32Mod - s.otaHeadercnt)) % u32Mod
  if start < j then payload.le16 start + 6 else s.otaHeadersize

/-- The image can begin at byte `j` of a frame: the header ends there and no field starts. -/
def OtaClient.imageAt (payload : Mem) (s : OtaClient) (j : Nat) : Bool :=
  otaFieldWidth ((s.otaHeadercnt + j) % u32Mod) == 0
    && (s.otaHeadercnt + j) % u32Mod == s.headersizeAt payload j && s.headersizeAt payload j != 0

/-- The number of bytes of a frame that belong to the header. -/
def OtaClient.headerLen (len : Nat) (payload : Mem) (s : OtaClient) : Nat :=
  if s.otaState = .staStarting then (List.range' 0 len).findIdx (s.imageAt payload) else 0

/-- A frame brings bytes of the image. -/
def OtaClient.BringsImage (len : Nat) (payload : Mem) (s : OtaClient) : Prop :=
  (s.otaState = .staStarting ∨ s.otaState = .staDataing) ∧ s.headerLen len payload < len

/-- The fields of the header that start in a frame end in front of `bound`. -/
def FieldsWhole (bound len : Nat) (payload : Mem) (s : OtaClient) : Prop :=
  ∀ j < s.headerLen len payload, 0 < otaFieldWidth ((s.otaHeadercnt + j) % u32Mod)
    → j + otaFieldWidth ((s.otaHeadercnt + j) % u32Mod) ≤ bound

/-- The client `s` in the loop over the header, at byte `i` of the frame that `start` was given. -/
structure HeaderPos (payload : Mem) (start s : OtaClient) (i : Nat) : Prop where
  count : s.otaHeadercnt = (start.otaHeadercnt + i) % u32Mod
  size : s.otaHeadersize = start.headersizeAt payload i
  state : s.otaState = start.otaState

theorem otaFieldWidth_of_plain (plain : ¬otaDataProcess.startsField s = true)
    : otaFieldWidth s.otaHeadercnt = 0 := by
  rw [otaFieldWidth_pos] at plain
  omega

theorem otaHeadLength_ne_of_plain (plain : ¬otaDataProcess.startsField s = true)
    : s.otaHeadercnt ≠ otaHeadLength := by
  intro length
  exact plain (by simp [otaDataProcess.startsField, length])

/-- No field starts in the image. -/
theorem otaFieldWidth_image {position : Nat} (past : otaHeadImagesize < position)
    : otaFieldWidth position = 0 := by
  simp only [otaFieldWidth, otaHeadLength, otaHeadMauncode, otaHeadImagetype, otaHeadFilever,
    otaHeadImagesize] at *
  split <;> (try split) <;> (try split) <;> (try split) <;> (try split) <;> omega

theorem range'_lt_iff {width : Nat} (positive : 0 < width)
    : (∀ x ∈ List.range' i width, x < bound) ↔ i + width ≤ bound := by
  constructor
  · intro below
    have last := below (i + (width - 1)) (List.mem_range'_1.mpr (by omega))
    omega
  · intro room x member
    have inside := List.mem_range'_1.mp member
    omega

section Loop

variable {start : OtaClient}

theorem HeaderPos.begin (wide : s.otaHeadercnt < u32Mod) : HeaderPos payload s s 0 where
  count := (Nat.mod_eq_of_lt wide).symm
  size := by
    rw [OtaClient.headersizeAt, if_neg (Nat.not_lt_zero _)]
  state := rfl

/-- The byte at which the field with the size of the header starts. -/
theorem lengthIndex_iff {c : Nat} (wide : c < u32Mod) (short : i < u32Mod)
    : (otaHeadLength + (u32Mod - c)) % u32Mod = i ↔ (c + i) % u32Mod = otaHeadLength := by
  simp only [u32Mod, otaHeadLength] at *
  omega

theorem HeaderPos.skip (pos : HeaderPos payload start s i) (wide : start.otaHeadercnt < u32Mod)
    (short : i < u32Mod) (plain : s.otaHeadercnt ≠ otaHeadLength)
    : HeaderPos payload start s.advance (i + 1) := by
  obtain ⟨count, size, state⟩ := pos
  have other : (otaHeadLength + (u32Mod - start.otaHeadercnt)) % u32Mod ≠ i := by
    rw [Ne, lengthIndex_iff wide short, ← count]
    exact plain
  refine ⟨?_, ?_, state⟩
  · simp only [OtaClient.advance, count, u32Mod]
    omega
  · have later : (otaHeadLength + (u32Mod - start.otaHeadercnt)) % u32Mod < i + 1
        ↔ (otaHeadLength + (u32Mod - start.otaHeadercnt)) % u32Mod < i := by omega
    simp only [OtaClient.advance, size, OtaClient.headersizeAt, later]

theorem HeaderPos.field (pos : HeaderPos payload start s i) (wide : start.otaHeadercnt < u32Mod)
    (short : i < u32Mod)
    : HeaderPos payload start (otaDataProcess.field payload i s).advance (i + 1) := by
  by_cases length : s.otaHeadercnt = otaHeadLength
  · obtain ⟨count, size, state⟩ := pos
    have begins : (otaHeadLength + (u32Mod - start.otaHeadercnt)) % u32Mod = i := by
      rw [lengthIndex_iff wide short, ← count]
      exact length
    have shape : otaDataProcess.field payload i s = { s with otaHeadersize := payload.le16 i + 6 } :=
      if_pos length
    refine ⟨?_, ?_, ?_⟩
    · simp only [OtaClient.advance, shape, count, u32Mod]
      omega
    · simp [OtaClient.advance, shape, OtaClient.headersizeAt, begins]
    · rw [shape]
      exact state
  · have next := pos.skip wide short length
    have same : (otaDataProcess.field payload i s).otaHeadercnt = s.otaHeadercnt
        ∧ (otaDataProcess.field payload i s).otaHeadersize = s.otaHeadersize
        ∧ (otaDataProcess.field payload i s).otaState = s.otaState := by
      unfold otaDataProcess.field
      rw [if_neg length]
      split <;> (try split) <;> (try split) <;> exact ⟨rfl, rfl, rfl⟩
    refine ⟨?_, same.2.1.trans next.size, same.2.2.trans next.state⟩
    rw [← next.count, OtaClient.advance, OtaClient.advance, same.1]

theorem HeaderPos.imageAt_iff (pos : HeaderPos payload start s i)
    : start.imageAt payload i = true
      ↔ ¬otaDataProcess.startsField s = true ∧ s.otaHeadercnt = s.otaHeadersize
        ∧ s.otaHeadersize ≠ 0 := by
  rw [otaFieldWidth_pos, pos.count, pos.size, OtaClient.imageAt]
  simp only [Bool.and_eq_true, beq_iff_eq, bne_iff_ne, and_assoc, Nat.not_lt, Nat.le_zero]

/-- The loop stops at the first byte of the image, by induction on the bytes left. -/
theorem HeaderPos.header (pos : HeaderPos payload start s i) (wide : start.otaHeadercnt < u32Mod)
    (short : i + left < u32Mod)
    : (otaDataProcess.header payload left i s).1
        = i + (List.range' i left).findIdx (start.imageAt payload)
      ∧ (otaDataProcess.header payload left i s).2.otaState
        = if (List.range' i left).findIdx (start.imageAt payload) < left then .staDataing
          else start.otaState := by
  induction left generalizing i s with
  | zero => exact ⟨rfl, pos.state⟩
  | succ left ih =>
      have image := pos.imageAt_iff
      rw [List.range'_succ, List.findIdx_cons]
      by_cases starts : otaDataProcess.startsField s = true
      · have other : start.imageAt payload i = false := by
          rw [← Bool.not_eq_true, image]
          exact fun no => no.1 starts
        obtain ⟨index, state⟩ := ih (pos.field wide (by omega)) (by omega)
        rw [otaDataProcess.header_field starts, index, state, other]
        simp only [cond_false, Nat.add_lt_add_iff_right, and_true]
        omega
      · by_cases ends : s.otaHeadercnt = s.otaHeadersize ∧ s.otaHeadersize ≠ 0
        · rw [otaDataProcess.header_ends starts ends, image.mpr ⟨starts, ends⟩]
          exact ⟨rfl, rfl⟩
        · have other : start.imageAt payload i = false := by
            rw [← Bool.not_eq_true, image]
            exact fun no => ends no.2
          have plain := otaHeadLength_ne_of_plain starts
          obtain ⟨index, state⟩ := ih (pos.skip wide (by omega) plain) (by omega)
          rw [otaDataProcess.header_skip starts ends, index, state, other]
          simp only [cond_false, Nat.add_lt_add_iff_right, and_true]
          omega

/-- The reads of the header stay below a bound exactly if its fields do, by induction on the bytes
left.
-/
theorem HeaderPos.reads_lt_iff (pos : HeaderPos payload start s i)
    (wide : start.otaHeadercnt < u32Mod) (short : i + left < u32Mod)
    : (∀ x ∈ otaDataProcess.headerReads payload left i s, x < bound)
      ↔ ∀ j, i ≤ j → j < (otaDataProcess.header payload left i s).1
        → 0 < otaFieldWidth ((start.otaHeadercnt + j) % u32Mod)
        → j + otaFieldWidth ((start.otaHeadercnt + j) % u32Mod) ≤ bound := by
  induction left generalizing i s with
  | zero =>
      have none (j : Nat) (low : i ≤ j) : ¬j < (otaDataProcess.header payload 0 i s).1 := by
        change ¬j < i
        omega
      constructor
      · intro _ j low high
        exact absurd high (none j low)
      · intro _ x member
        cases member
  | succ left ih =>
      have first (n : Nat) (P : Nat → Prop) (begins : i < n)
          : (∀ j, i ≤ j → j < n → P j) ↔ P i ∧ ∀ j, i + 1 ≤ j → j < n → P j := by
        constructor
        · intro all
          exact ⟨all i (Nat.le_refl _) begins, fun j low high => all j (by omega) high⟩
        · intro all j low high
          rcases Nat.eq_or_lt_of_le low with same | after
          · exact same ▸ all.1
          · exact all.2 j after high
      rw [otaDataProcess.headerReads]
      by_cases starts : otaDataProcess.startsField s = true
      · have index := (otaDataProcess.header_index payload left (i + 1)
          (otaDataProcess.field payload i s).advance).1
        have positive := otaFieldWidth_pos.mp starts
        rw [if_pos starts, otaDataProcess.header_field starts, first _ _ index,
          ← ih (pos.field wide (by omega)) (by omega), List.forall_mem_append,
          range'_lt_iff positive, ← pos.count]
        simp only [positive, true_implies]
      · by_cases ends : s.otaHeadercnt = s.otaHeadersize ∧ s.otaHeadersize ≠ 0
        · rw [if_neg starts, if_pos ends, otaDataProcess.header_ends starts ends]
          constructor
          · intro _ j low high
            exact absurd high (Nat.not_lt.mpr low)
          · intro _ x member
            cases member
        · have plain := otaHeadLength_ne_of_plain starts
          have index := (otaDataProcess.header_index payload left (i + 1) s.advance).1
          have none := otaFieldWidth_of_plain starts
          rw [if_neg starts, if_neg ends, otaDataProcess.header_skip starts ends,
            first _ _ index, ← ih (pos.skip wide (by omega) plain) (by omega), ← pos.count, none]
          simp only [Nat.lt_irrefl, false_implies, true_and]

end Loop

theorem otaDataProcess.parsed_headerLen (payload : Mem) (wide : s.otaHeadercnt < u32Mod)
    (short : len < u32Mod)
    : (otaDataProcess.parsed len payload s).1 = s.headerLen len payload
      ∧ ((otaDataProcess.parsed len payload s).2.otaState = .staDataing ∧ len > 0
        ↔ s.BringsImage len payload) := by
  unfold otaDataProcess.parsed OtaClient.BringsImage OtaClient.headerLen
  by_cases starting : s.otaState = .staStarting
  · have begins : HeaderPos payload s s 0 := .begin wide
    have whole : 0 + len < u32Mod := by omega
    obtain ⟨index, state⟩ := begins.header wide whole
    rw [if_pos starting, if_pos starting, index, state, Nat.zero_add]
    refine ⟨rfl, ?_⟩
    split
    · rename_i image
      exact ⟨fun _ => ⟨Or.inl starting, image⟩, fun _ => ⟨rfl, by omega⟩⟩
    · rename_i header
      rw [starting]
      exact ⟨fun no => OtaSta.noConfusion no.1, fun no => absurd no.2 header⟩
  · rw [if_neg starting, if_neg starting]
    exact ⟨rfl, fun image => ⟨Or.inr image.1, image.2⟩,
      fun image => ⟨image.1.resolve_left starting, image.2⟩⟩

/-- A stored block reaches beyond its end exactly if it ends in front of the keyword. -/
theorem otaDataProcess.storeTouches_lt_iff {datalen : Nat} (positive : 0 < datalen)
    (short : datalen < 256)
    : (∀ x ∈ otaDataProcess.storeTouches k datalen i s, x < bound)
      ↔ i + datalen ≤ bound
        ∧ (i + datalen = bound → s.flashOffsetAddr + datalen ≠ otaTlnkKeywordAddroffset k) := by
  have keyword := keyword_offset_small k
  rw [otaDataProcess.storeTouches, List.forall_mem_append, range'_lt_iff positive]
  split
  · rename_i flag
    simp only [otaDataProcess.flag, Bool.and_eq_true, decide_eq_true_eq] at flag
    simp only [List.mem_singleton, forall_eq, u32Mod, flashSectorSize] at *
    omega
  · rename_i plain
    simp only [otaDataProcess.flag, Bool.and_eq_true, decide_eq_true_eq] at plain
    simp only [List.not_mem_nil, false_implies, implies_true, true_and, u32Mod,
      flashSectorSize] at *
    omega
/-- The reads of the header. -/
theorem otaDataProcess.headerTouches_lt_iff (wide : s.otaHeadercnt < u32Mod) (short : len < u32Mod)
    : (∀ x ∈ if s.otaState = .staStarting then otaDataProcess.headerReads payload len 0 s else [],
        x < bound)
      ↔ FieldsWhole bound len payload s := by
  have begins : HeaderPos payload s s 0 := .begin wide
  have whole : 0 + len < u32Mod := by omega
  by_cases starting : s.otaState = .staStarting
  · rw [if_pos starting, begins.reads_lt_iff wide whole, FieldsWhole, OtaClient.headerLen,
      if_pos starting, (begins.header wide whole).1, Nat.zero_add]
    exact ⟨fun all j inside => all j (Nat.zero_le _) inside,
      fun all j _ inside => all j inside⟩
  · rw [if_neg starting, FieldsWhole, OtaClient.headerLen, if_neg starting]
    constructor
    · intro _ j no
      exact absurd no (Nat.not_lt_zero _)
    · intro _ x member
      cases member

/-- What the image part of a frame touches. -/
theorem otaDataProcess.imageTouches_lt_iff (wide : s.otaHeadercnt < u32Mod) (short : len < 256)
    : (∀ x ∈ if (otaDataProcess.parsed len payload s).2.otaState = .staDataing ∧ len > 0 then
          otaDataProcess.storeTouches k (len - (otaDataProcess.parsed len payload s).1)
            (otaDataProcess.parsed len payload s).1 (otaDataProcess.parsed len payload s).2
        else [], x < min len otaFramesize)
      ↔ (s.BringsImage len payload → len ≤ otaFramesize
        ∧ s.flashOffsetAddr + (len - s.headerLen len payload) ≠ otaTlnkKeywordAddroffset k) := by
  have narrow : len < u32Mod := by
    simp only [u32Mod]
    omega
  obtain ⟨index, image⟩ := otaDataProcess.parsed_headerLen payload wide narrow
  have offset := (otaDataProcess.parsed_kept len payload s).offset
  by_cases brings : s.BringsImage len payload
  · have inside := brings.2
    rw [if_pos (image.mpr brings), index,
      otaDataProcess.storeTouches_lt_iff (by omega) (by omega), offset]
    simp only [brings, true_implies, otaFramesize]
    omega
  · rw [if_neg (fun stores => brings (image.mp stores))]
    constructor
    · intro _ no
      exact absurd no brings
    · intro _ x member
      cases member

/-- In every state that the client can reach, what `ota_DataProcess` touches lies in the received
bytes and in their array exactly if no field of the header is cut off at the end of one of them,
and bytes of the image come in a frame that fits the array and does not end right in front of the
keyword.
-/
theorem otaDataProcess_inBounds_iff {w : OtaWorld} (reached : OtaReached k w)
    (pHdr : OtaDataFrame)
    : (∀ x ∈ otaDataProcess.touches k pHdr.payloadSize.toNat pHdr.payload w.client,
        x < pHdr.payloadSize.toNat ∧ x < otaFramesize)
      ↔ FieldsWhole (min pHdr.payloadSize.toNat otaFramesize) pHdr.payloadSize.toNat pHdr.payload
          w.client
        ∧ (w.client.BringsImage pHdr.payloadSize.toNat pHdr.payload
          → pHdr.payloadSize.toNat ≤ otaFramesize
            ∧ w.client.flashOffsetAddr
                + (pHdr.payloadSize.toNat
                  - w.client.headerLen pHdr.payloadSize.toNat pHdr.payload)
              ≠ otaTlnkKeywordAddroffset k) := by
  have wide := reached.session.wide
  have short : pHdr.payloadSize.toNat < 256 := pHdr.payloadSize.toNat_lt
  have narrow : pHdr.payloadSize.toNat < u32Mod := by
    simp only [u32Mod]
    omega
  simp only [← Nat.lt_min]
  rw [otaDataProcess.touches, List.forall_mem_append,
    otaDataProcess.headerTouches_lt_iff wide narrow, otaDataProcess.imageTouches_lt_iff wide short]

/-- A file whose header is stated to have `otaHdrLen` bytes. -/
def headedFile (otaHdrLen : UInt8) : Mem := fun i =>
  if i = otaHeadLength then otaHdrLen else if i = otaHeadLength + 1 then 0 else 0x11

/-- A block of such a file. -/
def headedBlock (otaHdrLen : UInt8) (n : Nat) : OtaDataFrame where
  fileVer := 0x10400001
  imageType := imageType build8258
  manufaurerCode := manufacturerCode
  imageSize := n
  payloadSize := 48
  payload := fun i => headedFile otaHdrLen (otaFramesize * n + i)

/-- A client that has its first block. -/
def behindFirstBlock (otaHdrLen : UInt8) : OtaWorld :=
  otaRun build8258 (firstSlotMem build8258)
    [
      .startRsp { (headedBlock otaHdrLen 0).toOtaPreamble with imageSize := 200 },
      .dataRsp (headedBlock otaHdrLen 0)
    ]

/-- The second block of a file with the shortest header brings 34 bytes of the image, up to the end
of the array.
-/
theorem otaDataProcess_inBounds_short_header
    : 47 ∈ otaDataProcess.touches build8258 (headedBlock 56 1).payloadSize.toNat
          (headedBlock 56 1).payload (behindFirstBlock 56).client
      ∧ ∀ x ∈ otaDataProcess.touches build8258 (headedBlock 56 1).payloadSize.toNat
          (headedBlock 56 1).payload (behindFirstBlock 56).client,
        x < (headedBlock 56 1).payloadSize.toNat ∧ x < otaFramesize := by
  have reached : OtaReached build8258 (behindFirstBlock 56) := OtaReached.run _ _ _
  have bounds := otaDataProcess_inBounds_iff reached (headedBlock 56 1)
  refine ⟨by decide +kernel, bounds.mpr ⟨?_, ?_⟩⟩
  · unfold FieldsWhole
    decide +kernel
  · intro _
    decide +kernel

/-- The second block of a file with a header of 82 bytes brings 8 bytes of the image. The keyword
is behind them, and the mask goes to the byte behind the array.
-/
theorem mask_behind_payload
    : OtaReached build8258 (behindFirstBlock 82)
      ∧ (behindFirstBlock 82).client.otaState = .staStarting
      ∧ otaDataRspHandler.accepts (behindFirstBlock 82).client (headedBlock 82 1) = true
      ∧ otaFramesize ∈ otaDataProcess.touches build8258 (headedBlock 82 1).payloadSize.toNat
          (headedBlock 82 1).payload (behindFirstBlock 82).client
      ∧ ¬∀ x ∈ otaDataProcess.touches build8258 (headedBlock 82 1).payloadSize.toNat
          (headedBlock 82 1).payload (behindFirstBlock 82).client,
        x < (headedBlock 82 1).payloadSize.toNat ∧ x < otaFramesize := by
  have touched : otaFramesize ∈ otaDataProcess.touches build8258
      (headedBlock 82 1).payloadSize.toNat (headedBlock 82 1).payload
      (behindFirstBlock 82).client := by
    decide +kernel
  refine ⟨OtaReached.run _ _ _, ?_, ?_, touched, ?_⟩
  · decide +kernel
  · decide +kernel
  · intro inside
    exact Nat.lt_irrefl _ (inside _ touched).2

end TelinkSdk
