import TelinkSdk.Drivers.NvCall

/-! The network frame counter of `drv_nv.c`: a module of its own whose sectors hold nothing
but a head and a list of 32-bit values, the last of which counts.
-/

namespace TelinkSdk

open Nor

-----------------------------------------------------------------------------------------
-- The driver
-----------------------------------------------------------------------------------------

abbrev frameCountIdle : Nat := 0xffffffff

/-- The page loop of `nv_nwkFrameCountSearch`, from the last page of the sector down: the
page, the address after its values, and whether the loop was left at a page in use.
-/
def nvNwkFrameCountSearch.pages (m : Mem) : Nat → Nat → Nat → Nat × Nat × Bool
  | 0, opPageAddr, validAddr => (opPageAddr, validAddr, false)
  | left + 1, opPageAddr, validAddr =>
      if m.le32 opPageAddr ≠ frameCountIdle then (opPageAddr, validAddr, true)
      else nvNwkFrameCountSearch.pages m left (opPageAddr - flashPageSize) opPageAddr

/-- The loop over the words of one read whose first word is in use: the last value and the
address after it.
-/
def nvNwkFrameCountSearch.words (m : Mem) (opPageAddr : Nat)
    : Nat → Nat → Nat → Option (Nat × Nat)
  | 0, _, _ => none
  | left + 1, i, frameCount =>
      if m.le32 (opPageAddr + 4 * i) ≠ frameCountIdle then
        if left = 0 then some (m.le32 (opPageAddr + 4 * i), opPageAddr + 4 * (i + 1))
        else
          nvNwkFrameCountSearch.words m opPageAddr left (i + 1) (m.le32 (opPageAddr + 4 * i))
      else some (frameCount, opPageAddr + 4 * i)

/-- The loop over one page, from its end, 16 bytes at a time. The fuel bounds the rounds. -/
def nvNwkFrameCountSearch.units (m : Mem) : Nat → Nat → Nat → Nat → Option Nat × Nat
  | 0, _, _, validAddr => (none, validAddr)
  | fuel + 1, checkSize, opPageAddr, validAddr =>
      if checkSize = 0 then (none, validAddr)
      else
        let readSize := if checkSize > 16 then 16 else checkSize
        let opPageAddr := opPageAddr - readSize
        if m.le32 opPageAddr ≠ frameCountIdle then
          match nvNwkFrameCountSearch.words m opPageAddr (readSize / 4 - 1) 1
              (m.le32 opPageAddr) with
          | some (frameCount, validAddr) => (some frameCount, validAddr)
          | none =>
              nvNwkFrameCountSearch.units m fuel (checkSize - readSize) opPageAddr validAddr
        else nvNwkFrameCountSearch.units m fuel (checkSize - readSize) opPageAddr opPageAddr

/-- The last value of a sector, `none` standing for `NV_ITEM_NOT_FOUND`, and the address of
the first word that is free.
-/
def nvNwkFrameCountSearch (b : Build) (m : Mem) (id opSect : Nat) : Option Nat × Nat :=
  let sizeUsed := framecountNumPerSect * 4
  let pageUsed :=
    if sizeUsed % 256 ≠ 0 then sizeUsed / flashPageSize + 1 else sizeUsed / flashPageSize
  match nvNwkFrameCountSearch.pages m (pageUsed - 1) (moduleSectEnd b id opSect - flashPageSize)
      (framecountPayloadStart b opSect) with
  | (opPageAddr, validAddr, true) =>
      nvNwkFrameCountSearch.units m flashPageSize flashPageSize
        ((opPageAddr + flashPageSize) / flashPageSize * flashPageSize) validAddr
  | (_, validAddr, false) =>
      let checkSize := (flashPageSize - sizeofSectInfo) / 4 * 4
      nvNwkFrameCountSearch.units m checkSize checkSize
        ((framecountPayloadStart b opSect + flashPageSize) / flashPageSize * flashPageSize)
        validAddr

/-- Where `nv_nwkFrameCountSaveToFlash` is about to write. -/
structure FramePlace where
  opSect : Nat
  wAddr : Nat
  sectorUpdate : Bool
  deriving DecidableEq, Repr

/-- The sector in operation. Without one the whole module is erased. -/
def nvNwkFrameCountSaveToFlash.opSect (b : Build) : Option SectInfo → Prog Nat
  | some sectInfo => pure sectInfo.opSect.toNat
  | none => do
      flashErase (modulesStartAddr b nvModuleNwkFrameCount)
      flashErase (modulesStartAddr b nvModuleNwkFrameCount + flashSectorSize)
      pure 0

/-- The next free word; a full sector hands its last value over to the other one. -/
def nvNwkFrameCountSaveToFlash.place (b : Build) (oldSect : Nat) : Prog FramePlace := do
  let (lastFrmCnt, wAddr) ← Prog.view fun m =>
    nvNwkFrameCountSearch b m nvModuleNwkFrameCount oldSect
  match lastFrmCnt with
  | none => pure { opSect := oldSect, wAddr, sectorUpdate := false }
  | some lastFrmCnt =>
      if wAddr = moduleSectEnd b nvModuleNwkFrameCount oldSect then do
        let opSect := (oldSect + 1) % moduleSectorNum
        flashErase (modulesStartAddr b nvModuleNwkFrameCount + opSect * flashSectorSize)
        flashWrite (framecountPayloadStart b opSect) (bytes32 lastFrmCnt)
        pure { opSect, wAddr := framecountPayloadStart b opSect + 4, sectorUpdate := true }
      else pure { opSect := oldSect, wAddr, sectorUpdate := false }

/-- Mark a sector, naming `opSect` as the one in operation. -/
def nvNwkFrameCountSaveToFlash.markSector (b : Build) (sectNo usedFlag opSect : Nat)
    : Prog Unit :=
  flashWrite (moduleSectStart b nvModuleNwkFrameCount sectNo)
    (SectInfo.bytes
      { usedFlag, idName := .ofNat nvModuleNwkFrameCount, opSect := .ofNat opSect })

/-- The sector flags: unlike `nv_flashWriteNew`, the new sector goes in operation first. -/
def nvNwkFrameCountSaveToFlash.markSectors (b : Build) (oldSect : Nat) (place : FramePlace)
    : Prog Unit :=
  if place.sectorUpdate ∨ place.wAddr = framecountPayloadStart b place.opSect then do
    nvNwkFrameCountSaveToFlash.markSector b place.opSect nvSectorValid place.opSect
    if place.sectorUpdate then
      nvNwkFrameCountSaveToFlash.markSector b oldSect nvSectorInvalid place.opSect
    else pure ()
  else pure ()

/-- Store a value of the frame counter. The status is that of the search for a sector, so
the first call reports `NV_ITEM_NOT_FOUND` although it stores the value.
-/
def nvNwkFrameCountSaveToFlash (b : Build) (frameCount : Nat) : Prog NvSts := do
  flashUnlock
  let found ← Prog.view fun m => nvSectorRead b m nvModuleNwkFrameCount moduleSectorNum
  let oldSect ← nvNwkFrameCountSaveToFlash.opSect b found
  let place ← nvNwkFrameCountSaveToFlash.place b oldSect
  flashWrite place.wAddr (bytes32 frameCount)
  nvNwkFrameCountSaveToFlash.markSectors b oldSect place
  flashLock
  pure (if found.isSome then .succ else .itemNotFound)

/-- The stored value of the frame counter; `none` stands for `NV_ITEM_NOT_FOUND`. -/
def nvNwkFrameCountFromFlash (b : Build) (m : Mem) : Option Nat :=
  match nvSectorRead b m nvModuleNwkFrameCount moduleSectorNum with
  | none => none
  | some sectInfo =>
      (nvNwkFrameCountSearch b m nvModuleNwkFrameCount sectInfo.opSect.toNat).1

-----------------------------------------------------------------------------------------
-- Words of a sector
-----------------------------------------------------------------------------------------

/-- The address of word `i` of the sector at `base`. -/
def frameWord (base i : Nat) : Nat := base + 4 + 4 * i

/-- The first `n` words of the sector at `base` are in use, and no other. -/
structure FrameWords (m : Mem) (base n : Nat) : Prop where
  count : n ≤ 1023
  used : ∀ i < n, m.le32 (frameWord base i) ≠ frameCountIdle
  idle : ∀ i, n ≤ i → i < 1023 → m.le32 (frameWord base i) = frameCountIdle

namespace FrameWords

variable {b : Build} {m : Mem} {base n : Nat}

/-- The words of one read, once its first word is in use and the words in use end inside it. -/
theorem unit (words : FrameWords m base n) (first left i : Nat) (some_left : 0 < left)
    (positive : 0 < i) (bound : first + i + left ≤ 1023) (before : first + i ≤ n)
    (ends : n ≤ first + i + left)
    : nvNwkFrameCountSearch.words m (frameWord base first) left i
        (m.le32 (frameWord base (first + i - 1)))
      = some (m.le32 (frameWord base (n - 1)), frameWord base n) := by
  induction left generalizing i with
  | zero => omega
  | succ left ih =>
      have address : frameWord base first + 4 * i = frameWord base (first + i) := by
        simp only [frameWord]
        omega
      have next : frameWord base first + 4 * (i + 1) = frameWord base (first + i + 1) := by
        simp only [frameWord]
        omega
      rw [nvNwkFrameCountSearch.words, address, next]
      by_cases busy : first + i < n
      · rw [if_pos (words.used _ busy)]
        by_cases final : left = 0
        · have count : n = first + i + 1 := by omega
          rw [if_pos final, count, Nat.add_sub_cancel]
        · rw [if_neg final]
          exact ih (i + 1) (by omega) (by omega) (by omega) (by omega) (by omega)
      · have idle := words.idle (first + i) (by omega) (by omega)
        have count : n = first + i := by omega
        rw [if_neg (by simp [idle]), count]

/-- The rounds over one page, by induction on the bytes left. They cover the words from
`first` on, and none that is in use lies behind them.
-/
theorem units (words : FrameWords m base n) (fuel checkSize first validAddr : Nat)
    (enough : checkSize ≤ fuel) (rounded : checkSize % 4 = 0) (unit : checkSize % 16 ≠ 4)
    (bound : first + checkSize / 4 ≤ 1023) (ends : n ≤ first + checkSize / 4)
    : nvNwkFrameCountSearch.units m fuel checkSize (frameWord base (first + checkSize / 4))
        validAddr
      = if first < n then (some (m.le32 (frameWord base (n - 1))), frameWord base n)
        else (none, if checkSize = 0 then validAddr else frameWord base first) := by
  induction fuel generalizing checkSize validAddr with
  | zero =>
      have empty : checkSize = 0 := by omega
      subst checkSize
      have done : ¬first < n := by omega
      simp [nvNwkFrameCountSearch.units, done]
  | succ fuel ih =>
      rw [nvNwkFrameCountSearch.units]
      by_cases empty : checkSize = 0
      · subst checkSize
        have done : ¬first < n := by omega
        simp [done]
      · rw [if_neg empty]
        have size : 8 ≤ (if checkSize > 16 then 16 else checkSize)
            ∧ (if checkSize > 16 then 16 else checkSize) ≤ checkSize
            ∧ (if checkSize > 16 then 16 else checkSize) % 4 = 0
            ∧ (checkSize - (if checkSize > 16 then 16 else checkSize)) % 16 ≠ 4 := by
          split <;> omega
        generalize (if checkSize > 16 then 16 else checkSize) = readSize at size
        obtain ⟨atLeast, atMost, whole, left⟩ := size
        have address : frameWord base (first + checkSize / 4) - readSize
            = frameWord base (first + (checkSize - readSize) / 4) := by
          simp only [frameWord]
          omega
        dsimp only
        rw [address]
        by_cases busy : first + (checkSize - readSize) / 4 < n
        · have found := words.unit (first + (checkSize - readSize) / 4) (readSize / 4 - 1) 1
            (by omega) (by omega) (by omega) (by omega) (by omega)
          rw [Nat.add_sub_cancel] at found
          rw [if_pos (words.used _ busy), found, if_pos (show first < n by omega)]
        · have idle := words.idle (first + (checkSize - readSize) / 4) (by omega) (by omega)
          rw [if_neg (by simp [idle]), ih _ _ (by omega) (by omega) left (by omega) (by omega)]
          by_cases later : first < n
          · rw [if_pos later, if_pos later]
          · rw [if_neg later, if_neg later]
            by_cases final : checkSize - readSize = 0
            · simp [final, empty]
            · simp [final, empty]

/-- The page loop stops at the page where the words in use end, by induction on the pages left. -/
theorem pages (words : FrameWords m base n) (page validAddr : Nat) (bound : page ≤ 15)
    (ends : n ≤ 64 * (page + 1) - 1)
    : (∃ q v, 0 < q ∧ 64 * q ≤ n ∧ n ≤ 64 * (q + 1) - 1
        ∧ nvNwkFrameCountSearch.pages m page (base + 256 * page) validAddr
          = (base + 256 * q, v, true))
      ∨ (n ≤ 63 ∧ ∃ addr v,
        nvNwkFrameCountSearch.pages m page (base + 256 * page) validAddr = (addr, v, false)) := by
  induction page generalizing validAddr with
  | zero => exact Or.inr ⟨by omega, _, _, rfl⟩
  | succ page ih =>
      have address : base + 256 * (page + 1) = frameWord base (64 * (page + 1) - 1) := by
        simp only [frameWord]
        omega
      rw [nvNwkFrameCountSearch.pages]
      by_cases busy : 64 * (page + 1) ≤ n
      · have first := words.used (64 * (page + 1) - 1) (by omega)
        rw [← address] at first
        rw [if_pos first]
        exact Or.inl ⟨page + 1, validAddr, by omega, busy, ends, rfl⟩
      · have idle := words.idle (64 * (page + 1) - 1) (by omega) (by omega)
        rw [← address] at idle
        have previous : base + 256 * (page + 1) - flashPageSize = base + 256 * page := by
          simp only [flashPageSize]
          omega
        rw [if_neg (by simp [idle]), previous]
        exact ih _ (by omega) (by omega)

end FrameWords

section Sectors

variable {b : Build} {m : Mem} {opSect n : Nat}

/-- Every sector number of a byte names a sector of the address space. -/
theorem frameSectStart_aligned (byte : opSect < 256)
    : moduleSectStart b nvModuleNwkFrameCount opSect % 4096 = 0
      ∧ moduleSectStart b nvModuleNwkFrameCount opSect + 4096 < u32Mod := by
  obtain ⟨large, boot⟩ := b
  simp only [moduleSectStart, modulesStartAddr, nvBaseAddress, nvModuleNwkFrameCount, nvSectorSize,
    nvModuleUserInfo1, flashSectorSize, u32Mod]
  cases large <;> cases boot <;> simp <;> omega

theorem frameSectEnd
    : moduleSectEnd b nvModuleNwkFrameCount opSect
      = moduleSectStart b nvModuleNwkFrameCount opSect + 4096 := by
  rw [moduleSectEnd, moduleSectStart, Nat.succ_mul, ← Nat.add_assoc]
  rfl

/-- The values start behind the head of the sector. -/
theorem framePayload_word (byte : opSect < 256)
    : framecountPayloadStart b opSect
      = frameWord (moduleSectStart b nvModuleNwkFrameCount opSect) 0 := by
  obtain ⟨aligned, bounded⟩ := @frameSectStart_aligned b opSect byte
  rw [framecountPayloadStart, roundUp4]
  simp only [frameWord, sizeofSectInfo, u32Mod] at *
  omega

/-- The search finds the last word in use and the address behind it. -/
theorem FrameWords.search (byte : opSect < 256)
    (words : FrameWords m (moduleSectStart b nvModuleNwkFrameCount opSect) n)
    : nvNwkFrameCountSearch b m nvModuleNwkFrameCount opSect
      = (if n = 0 then none
          else some (m.le32 (frameWord (moduleSectStart b nvModuleNwkFrameCount opSect) (n - 1))),
        frameWord (moduleSectStart b nvModuleNwkFrameCount opSect) n) := by
  have count := words.count
  have aligned := (@frameSectStart_aligned b opSect byte).1
  have start := @framePayload_word b opSect byte
  have ends := @frameSectEnd b opSect
  unfold nvNwkFrameCountSearch
  rw [start, ends]
  generalize moduleSectStart b nvModuleNwkFrameCount opSect = base at words aligned
  have lastPage : base + 4096 - flashPageSize = base + 256 * 15 := by
    simp only [flashPageSize]
    omega
  change (match nvNwkFrameCountSearch.pages m 15 _ _ with
    | (opPageAddr, validAddr, true) => _
    | (_, validAddr, false) => _) = _
  rw [lastPage]
  rcases words.pages 15 (frameWord base 0) (Nat.le_refl _) (by omega) with
    ⟨q, v, positive, low, high, found⟩ | ⟨few, addr, v, found⟩
  · rw [found]
    have pageEnd : (base + 256 * q + flashPageSize) / flashPageSize * flashPageSize
        = frameWord base ((64 * q - 1) + flashPageSize / 4) := by
      simp only [flashPageSize, frameWord]
      omega
    simp only [pageEnd]
    rw [words.units flashPageSize flashPageSize (64 * q - 1) v (Nat.le_refl _) (by decide)
      (by decide) (by simp only [flashPageSize]; omega) (by simp only [flashPageSize]; omega),
      if_pos (by omega), if_neg (by omega)]
  · rw [found]
    have pageEnd : (frameWord base 0 + flashPageSize) / flashPageSize * flashPageSize
        = frameWord base (0 + (flashPageSize - sizeofSectInfo) / 4 * 4 / 4) := by
      simp only [flashPageSize, sizeofSectInfo, frameWord]
      omega
    simp only [pageEnd]
    rw [words.units _ _ 0 v (Nat.le_refl _) (by decide) (by decide) (by decide)
      (by simp only [flashPageSize, sizeofSectInfo]; omega)]
    by_cases empty : n = 0
    · subst empty
      rfl
    · rw [if_pos (Nat.pos_of_ne_zero empty), if_neg empty]

/-- Whatever the values are, the search ends where a scan of the words from the start of the sector
would: at the first word that is not in use. The last one in front of it is the counter.
-/
theorem nvNwkFrameCountSearch_linear (b : Build) (m : Mem) (opSect : UInt8) (n : Nat)
    (count : n ≤ framecountNumPerSect)
    (used : ∀ i < n, m.le32 (framecountPayloadStart b opSect.toNat + 4 * i) ≠ frameCountIdle)
    (idle : ∀ i, n ≤ i → i < framecountNumPerSect →
      m.le32 (framecountPayloadStart b opSect.toNat + 4 * i) = frameCountIdle)
    : let start := framecountPayloadStart b opSect.toNat
      nvNwkFrameCountSearch b m nvModuleNwkFrameCount opSect.toNat
        = (if n = 0 then (none, start) else (some (m.le32 (start + 4 * (n - 1))), start + 4 * n))
      ∧ (n = framecountNumPerSect →
        start + 4 * n = moduleSectEnd b nvModuleNwkFrameCount opSect.toNat) := by
  have byte := opSect.toNat_lt
  have start := @framePayload_word b opSect.toNat byte
  have words : FrameWords m (moduleSectStart b nvModuleNwkFrameCount opSect.toNat) n := by
    refine ⟨count, ?_, ?_⟩
    · rw [start] at used
      exact used
    · rw [start] at idle
      exact idle
  have found := words.search byte
  refine ⟨?_, ?_⟩
  · rw [found, start]
    by_cases empty : n = 0
    · subst empty
      rfl
    · rw [if_neg empty, if_neg empty]
      rfl
  · intro full
    rw [start, full, frameSectEnd]
    rfl

/-- The 64th word is the first one of the second page. -/
theorem nvNwkFrameCountSearch_linear_page
    : nvNwkFrameCountSearch ⟨true, false⟩ (fun x => if x < 0x82104 then 0 else blankByte)
        nvModuleNwkFrameCount 0
      = (some 0, 0x82104) := by
  have payload : framecountPayloadStart ⟨true, false⟩ (0 : UInt8).toNat = 0x82004 := by decide
  refine (nvNwkFrameCountSearch_linear ⟨true, false⟩ _ 0 64 (by decide) ?_ ?_).1
  · intro i inside
    have zero (x : Nat) (low : x < 0x82104) : (if x < 0x82104 then 0 else blankByte) = 0 :=
      if_pos low
    rw [payload]
    simp only [Mem.le32, Mem.le16]
    rw [zero _ (by omega), zero _ (by omega), zero _ (by omega), zero _ (by omega)]
    decide
  · intro i after inside
    rw [payload]
    apply Mem.le32_blank
    intro x low high
    exact if_neg (by omega)

end Sectors

-----------------------------------------------------------------------------------------
-- Lists of values
-----------------------------------------------------------------------------------------

/-- The frame-counter module. -/
abbrev frameModule : Fin nvMaxModuls := 1

/-- The address of word `i` of sector `k`. -/
def frameAddr (b : Build) (k : Fin 2) (i : Nat) : Nat :=
  (moduleSector b frameModule k).base + 4 + 4 * i

/-- Sector `k` holds the values `vs`, and every word after them is blank. -/
structure Counted (b : Build) (k : Fin 2) (vs : List Nat) (m : Mem) : Prop where
  count : vs.length ≤ 1023
  word : ∀ i (inside : i < vs.length), m.le32 (frameAddr b k i) = vs[i]
  real : ∀ v ∈ vs, v ≠ frameCountIdle
  blank : m.BlankOn (frameAddr b k vs.length) (moduleSector b frameModule k).limit

section Search

variable {b : Build} {k : Fin 2} {vs : List Nat} {m : Mem}

theorem frameSector_limit
    : (moduleSector b frameModule k).limit = (moduleSector b frameModule k).base + 4096 := rfl

theorem Counted.words (counted : Counted b k vs m)
    : FrameWords m (moduleSectStart b nvModuleNwkFrameCount k) vs.length where
  count := counted.count
  used := by
    intro i inside idle
    have value := counted.word i inside
    exact counted.real _ (List.getElem_mem inside) (value.symm.trans idle)
  idle := by
    intro i after inside
    apply Mem.le32_blank
    intro x low high
    have limit := @frameSector_limit b k
    have base : moduleSectStart b nvModuleNwkFrameCount k = (moduleSector b frameModule k).base :=
      rfl
    apply counted.blank x <;> simp only [frameAddr, frameWord] at * <;> omega

/-- The search finds the last value and the first free word. -/
theorem Counted.search (counted : Counted b k vs m)
    : nvNwkFrameCountSearch b m nvModuleNwkFrameCount k
      = (vs.getLast?, frameAddr b k vs.length) := by
  have few : (k : Nat) < 256 := Nat.lt_trans k.isLt (by decide)
  rw [counted.words.search few, List.getLast?_eq_getElem?]
  by_cases empty : vs.length = 0
  · rw [if_pos empty, List.length_eq_zero_iff.mp empty]
    rfl
  · have last : vs.length - 1 < vs.length := by omega
    rw [if_neg empty, List.getElem?_eq_getElem last, ← counted.word _ last]
    rfl

end Search

end TelinkSdk
