import TelinkSdk.Drivers.FlashWords
import TelinkSdk.Drivers.NvSearch

/-! `nv_index_read` over its own integer types, and the plain scan of the table that it stands for.
The index of a slot and the size of an item are cut to 16 bits.
-/

namespace TelinkSdk.Words

open Nor

-----------------------------------------------------------------------------------------
-- The driver
-----------------------------------------------------------------------------------------

/-- What `nv_index_read` returns, what it stores in `*idxNo`, and its reads in their order. -/
structure IndexScan where
  ret : NvSts
  idxNo : Option UInt16 := none
  reads : List FlashRead := []
deriving DecidableEq

/-- The `while` loop of `nv_index_read`. There is no result after more than `fuel` tests. -/
def nvIndexRead.loop (flash : WordMem) (hit : InfoIdx → Bool)
    : Nat → UInt32 → UInt32 → UInt16 → Option IndexScan
  | 0, _, _, _ => none
  | fuel + 1, idxTotalNum, idxStartAddr, opItemIdx =>
      if idxTotalNum > 0 then
        let readIdxNum : UInt16 := (if idxTotalNum > 4 then 4 else idxTotalNum).toUInt16
        let idxStartAddr := idxStartAddr - readIdxNum.toUInt32 * 8
        let opItemIdx := opItemIdx - readIdxNum
        let idxTotalNum := idxTotalNum - readIdxNum.toUInt32
        let read : FlashRead := { addr := idxStartAddr, len := readIdxNum.toUInt32 * 8 }
        match TelinkSdk.nvIndexRead.chunk flash.mem hit idxStartAddr.toNat readIdxNum.toNat with
        | some i =>
            some { ret := .succ, idxNo := some (opItemIdx + UInt16.ofNat i), reads := [read] }
        | none =>
            (nvIndexRead.loop flash hit fuel idxTotalNum idxStartAddr opItemIdx).map fun scan =>
              { scan with reads := read :: scan.reads }
      else some { ret := .itemNotFound }

/-- `nv_index_read`. The size that is compared is cut to 16 bits like `itemTotalSize`. -/
def nvIndexRead (b : Build) (fuel : Nat) (flash : WordMem) (id : UInt16) (itemId : UInt8)
    (len : UInt16) (opSect : UInt8) (totalItemNum : UInt32)
    : Option IndexScan :=
  nvIndexRead.loop flash (TelinkSdk.nvIndexRead.hit itemId len.toNat) fuel totalItemNum
    (UInt32.ofNat (moduleIdxStart b id.toNat opSect.toNat) + totalItemNum * 8)
    totalItemNum.toUInt16

-----------------------------------------------------------------------------------------
-- The plain scan
-----------------------------------------------------------------------------------------

/-- Entry `i` of the table. -/
def indexEntry (b : Build) (flash : WordMem) (id : UInt16) (opSect : UInt8) (i : Nat) : InfoIdx :=
  InfoIdx.load flash.mem (moduleIdxStart b id.toNat opSect.toNat + i * sizeofInfoIdx)

/-- The entry is the one of a stored item, or for the idle item id it is in use. -/
def EntryMatches (itemId : UInt8) (len : UInt16) (e : InfoIdx) : Prop :=
  if itemId = itemFieldIdle then
    ¬(e.usedState = itemFieldIdle ∧ e.size = 0xffff ∧ e.itemId = itemFieldIdle)
  else e.usedState = itemFieldValid ∧ e.size = len.toNat + sizeofItemHdr ∧ e.itemId = itemId

/-- The result is the largest number below `total` that meets `p`, or that there is none. -/
def IndexScan.Finds (scan : IndexScan) (total : Nat) (p : Nat → Prop) : Prop :=
  match scan.idxNo with
  | some i =>
      scan.ret = .succ ∧ i.toNat < total ∧ p i.toNat ∧ ∀ j, i.toNat < j → j < total → ¬p j
  | none => scan.ret = .itemNotFound ∧ ∀ i < total, ¬p i

/-- The result reports the index that was found, cut to 16 bits. -/
def IndexScan.Reports (scan : IndexScan) (found : Option Nat) : Prop :=
  scan.idxNo = found.map UInt16.ofNat
    ∧ scan.ret = if found.isSome then .succ else .itemNotFound

/-- Whole entries of the table are read, at most four at once. -/
def IndexScan.ReadsBelow (scan : IndexScan) (start : UInt32) (total : Nat) : Prop :=
  ∀ r ∈ scan.reads, ∃ first count, first + count ≤ total ∧ count ≤ 4
    ∧ r.addr = start + UInt32.ofNat (first * sizeofInfoIdx) ∧ r.len.toNat = count * sizeofInfoIdx

/-- No entry is mistaken: none has the size that is left of a length that is cut, and none that
matches lies behind the last index of 16 bits.
-/
structure IndexFits (b : Build) (flash : WordMem) (id : UInt16) (itemId : UInt8) (len : UInt16)
    (opSect : UInt8) (total : Nat) : Prop where
  size : itemId ≠ itemFieldIdle → u16Mod ≤ len.toNat + sizeofItemHdr → ∀ i < total,
    let e := indexEntry b flash id opSect i
    ¬(e.usedState = itemFieldValid ∧ e.size = len.toNat + sizeofItemHdr - u16Mod
      ∧ e.itemId = itemId)
  index : ∀ i, u16Mod ≤ i → i < total →
    ¬EntryMatches itemId len (indexEntry b flash id opSect i)

-----------------------------------------------------------------------------------------
-- The rounds
-----------------------------------------------------------------------------------------

variable {flash : WordMem} {hit : InfoIdx → Bool} {fuel start total : Nat}

/-- An entry at an address and at a number that it stands for. -/
theorem InfoIdx.load_mem {addr : UInt32} {x : Nat} (same : addr = UInt32.ofNat x) (i : Nat)
    : InfoIdx.load flash.mem (addr.toNat + i) = InfoIdx.load flash.mem (x + i) := by
  apply InfoIdx.load_congr
  intro k _
  rw [Nat.add_assoc, Nat.add_assoc]
  exact flash.mem_add same _

/-- The step back of a round, over words. -/
theorem step_back (x n : Nat)
    : UInt32.ofNat (x + n * sizeofInfoIdx) - UInt32.ofNat n * 8 = UInt32.ofNat x := by
  rw [UInt32.ofNat_add, UInt32.ofNat_mul]
  exact UInt32.add_sub_cancel _ _

/-- One round takes the last `n` of the slots left: four of them, or all if there are fewer. -/
theorem nvIndexRead.loop_round {rest n : Nat} (small : rest + n < 4294967296) (positive : 0 < n)
    (atMost : n ≤ 4) (full : n = 4 ∨ rest = 0)
    : nvIndexRead.loop flash hit (fuel + 1) (UInt32.ofNat (rest + n))
        (UInt32.ofNat (start + (rest + n) * sizeofInfoIdx)) (UInt16.ofNat (rest + n))
      = let read : FlashRead :=
          { addr := UInt32.ofNat (start + rest * sizeofInfoIdx), len := UInt32.ofNat n * 8 }
        match lastBelow n fun i =>
          hit (InfoIdx.load flash.mem (start + (rest + i) * sizeofInfoIdx)) with
        | some i =>
            some { ret := .succ, idxNo := some (UInt16.ofNat (rest + i)), reads := [read] }
        | none =>
            (nvIndexRead.loop flash hit fuel (UInt32.ofNat rest)
              (UInt32.ofNat (start + rest * sizeofInfoIdx)) (UInt16.ofNat rest)).map fun scan =>
                { scan with reads := read :: scan.reads } := by
  have size : (UInt32.ofNat (rest + n)).toNat = rest + n := UInt32.toNat_ofNat_of_lt' small
  have more : UInt32.ofNat (rest + n) > 0 := by
    rw [gt_iff_lt, UInt32.lt_iff_toNat_lt, size]
    exact Nat.add_pos_right rest positive
  have four : UInt32.ofNat (rest + n) > 4 ↔ 4 < rest + n := by
    rw [gt_iff_lt, UInt32.lt_iff_toNat_lt, size]
    rfl
  have taken : (if UInt32.ofNat (rest + n) > 4 then 4 else UInt32.ofNat (rest + n))
      = UInt32.ofNat n := by
    by_cases many : 4 < rest + n
    · rw [if_pos (four.mpr many), show n = 4 by omega]
      rfl
    · rw [if_neg (fun more => many (four.mp more)), show rest = 0 by omega, Nat.zero_add]
  have taken32 : (UInt16.ofNat n).toUInt32 = UInt32.ofNat n :=
    UInt16.toUInt32_ofNat' (show n < 65536 by omega)
  have taken16 : (UInt16.ofNat n).toNat = n :=
    UInt16.toNat_ofNat_of_lt' (show n < 65536 by omega)
  have left32 : UInt32.ofNat (rest + n) - UInt32.ofNat n = UInt32.ofNat rest := by
    rw [UInt32.ofNat_add, UInt32.add_sub_cancel]
  have left16 : UInt16.ofNat (rest + n) - UInt16.ofNat n = UInt16.ofNat rest := by
    rw [UInt16.ofNat_add, UInt16.add_sub_cancel]
  have sum16 : ∀ i, UInt16.ofNat rest + UInt16.ofNat i = UInt16.ofNat (rest + i) :=
    fun i => (UInt16.ofNat_add rest i).symm
  have back : UInt32.ofNat (start + (rest + n) * sizeofInfoIdx) - UInt32.ofNat n * 8
      = UInt32.ofNat (start + rest * sizeofInfoIdx) := by
    rw [Nat.add_mul, ← Nat.add_assoc, step_back]
  have slots : lastBelow n (fun i => hit (InfoIdx.load flash.mem
        ((UInt32.ofNat (start + rest * sizeofInfoIdx)).toNat + i * sizeofInfoIdx)))
      = lastBelow n (fun i =>
          hit (InfoIdx.load flash.mem (start + (rest + i) * sizeofInfoIdx))) := by
    apply lastBelow_congr
    intro i _
    rw [InfoIdx.load_mem rfl, Nat.add_mul, Nat.add_assoc]
  rw [nvIndexRead.loop, if_pos more]
  simp only [taken, UInt32.toUInt16_ofNat', taken32, taken16, left32, left16, sum16, back,
    TelinkSdk.nvIndexRead.chunk_eq, slots]

/-- The read of a round lies in the table. -/
theorem below_round {rest n : Nat} (atMost : n ≤ 4)
    : ∃ first count, first + count ≤ rest + n ∧ count ≤ 4
      ∧ UInt32.ofNat (start + rest * sizeofInfoIdx)
        = UInt32.ofNat start + UInt32.ofNat (first * sizeofInfoIdx)
      ∧ (UInt32.ofNat n * 8).toNat = count * sizeofInfoIdx := by
  refine ⟨rest, n, Nat.le_refl _, atMost, UInt32.ofNat_add .., ?_⟩
  rw [UInt32.toNat_mul, UInt32.toNat_ofNat_of_lt' (show n < 4294967296 by omega)]
  exact Nat.mod_eq_of_lt (show n * 8 < 4294967296 by omega)

/-- The rounds find what a scan of the table from its end finds, by induction on their number. -/
theorem nvIndexRead.loop_lastBelow (flash : WordMem) (hit : InfoIdx → Bool) (start left : Nat)
    (small : left < 4294967296) (enough : left < fuel)
    : ∃ scan, nvIndexRead.loop flash hit fuel (UInt32.ofNat left)
          (UInt32.ofNat (start + left * sizeofInfoIdx)) (UInt16.ofNat left) = some scan
      ∧ scan.Reports
          (lastBelow left fun i => hit (InfoIdx.load flash.mem (start + i * sizeofInfoIdx)))
      ∧ scan.ReadsBelow (UInt32.ofNat start) left := by
  induction fuel generalizing left with
  | zero => omega
  | succ fuel ih =>
      by_cases empty : left = 0
      · subst empty
        exact ⟨{ ret := .itemNotFound }, rfl, ⟨rfl, rfl⟩, fun _ member => absurd member (by simp)⟩
      · obtain ⟨rest, n, rfl, positive, atMost, full⟩ : ∃ rest n, left = rest + n ∧ 0 < n ∧ n ≤ 4
            ∧ (n = 4 ∨ rest = 0) := by
          by_cases many : 4 < left
          · exact ⟨left - 4, 4, by omega, by decide, Nat.le_refl 4, Or.inl rfl⟩
          · exact ⟨0, left, by omega, by omega, by omega, Or.inr rfl⟩
        rw [nvIndexRead.loop_round small positive atMost full, lastBelow_add]
        cases lastBelow n
          (fun i => hit (InfoIdx.load flash.mem (start + (rest + i) * sizeofInfoIdx))) with
        | some i =>
            refine ⟨_, rfl, ⟨rfl, rfl⟩, ?_⟩
            intro r member
            obtain rfl := List.mem_singleton.mp member
            exact below_round atMost
        | none =>
            obtain ⟨scan, run, reports, below⟩ := ih rest (by omega) (by omega)
            refine ⟨{ scan with reads := _ :: scan.reads }, by rw [run]; rfl, reports, ?_⟩
            intro r member
            rcases List.mem_cons.mp member with rfl | later
            · exact below_round atMost
            · obtain ⟨first, count, inside, few, addr, len⟩ := below r later
              exact ⟨first, count, Nat.le_trans inside (Nat.le_add_right ..), few, addr, len⟩

/-- The call ends, reads entries of the table only and reports the last one that meets its
comparison.
-/
theorem nvIndexRead_lastBelow (b : Build) (flash : WordMem) (id : UInt16) (itemId : UInt8)
    (len : UInt16) (opSect : UInt8) (totalItemNum : UInt32) (enough : totalItemNum.toNat < fuel)
    : ∃ scan, nvIndexRead b fuel flash id itemId len opSect totalItemNum = some scan
      ∧ scan.Reports (lastBelow totalItemNum.toNat fun i =>
          TelinkSdk.nvIndexRead.hit itemId len.toNat (indexEntry b flash id opSect i))
      ∧ scan.ReadsBelow (UInt32.ofNat (moduleIdxStart b id.toNat opSect.toNat))
          totalItemNum.toNat := by
  obtain ⟨scan, run, reports, below⟩ := nvIndexRead.loop_lastBelow flash
    (TelinkSdk.nvIndexRead.hit itemId len.toNat) (moduleIdxStart b id.toNat opSect.toNat)
    totalItemNum.toNat totalItemNum.toNat_lt enough
  refine ⟨scan, ?_, reports, below⟩
  rw [UInt32.ofNat_add, UInt32.ofNat_mul, UInt32.ofNat_toNat] at run
  exact run

/-- On the device, with a table that ends in front of the last address and whose slots all have a
16-bit index, this is the search of the driver.
-/
theorem nvIndexRead_device (b : Build) (m : Mem) (id : UInt16) (itemId : UInt8) (len : UInt16)
    (opSect : UInt8) (totalItemNum : UInt32)
    (fits : moduleIdxStart b id.toNat opSect.toNat + totalItemNum.toNat * sizeofInfoIdx ≤ u32Mod)
    (narrow : totalItemNum.toNat ≤ u16Mod) (enough : totalItemNum.toNat < fuel)
    : (nvIndexRead b fuel m.words id itemId len opSect totalItemNum).map
        (fun scan => scan.idxNo.map UInt16.toNat)
      = some (TelinkSdk.nvIndexRead b m id.toNat itemId len.toNat opSect.toNat
          totalItemNum.toNat) := by
  obtain ⟨scan, run, ⟨found, _⟩, _⟩ :=
    nvIndexRead_lastBelow b m.words id itemId len opSect totalItemNum enough
  have entries : ∀ i < totalItemNum.toNat, indexEntry b m.words id opSect i
      = InfoIdx.load m (moduleIdxStart b id.toNat opSect.toNat + i * sizeofInfoIdx) := by
    intro i inside
    apply InfoIdx.load_congr
    intro k small
    apply Mem.words_mem
    simp only [sizeofInfoIdx, u32Mod] at *
    omega
  rw [run, Option.map_some, Option.some_inj, found, TelinkSdk.nvIndexRead_eq,
    lastBelow_congr fun i inside => congrArg _ (entries i inside)]
  cases last : lastBelow totalItemNum.toNat (fun i =>
      TelinkSdk.nvIndexRead.hit itemId len.toNat
        (InfoIdx.load m (moduleIdxStart b id.toNat opSect.toNat + i * sizeofInfoIdx))) with
  | none => rfl
  | some i =>
      have inside := (lastBelow_some last).1
      exact congrArg some (UInt16.toNat_ofNat_of_lt' (Nat.lt_of_lt_of_le inside narrow))

-----------------------------------------------------------------------------------------
-- Comparisons and matches
-----------------------------------------------------------------------------------------

/-- Where the comparison of the rounds is the match, the scan is mistaken only about an index that
does not fit.
-/
theorem IndexScan.Reports.finds_iff_index {scan : IndexScan} {test : Nat → Bool} {p : Nat → Prop}
    (reports : scan.Reports (lastBelow total test)) (same : ∀ i < total, test i = true ↔ p i)
    : scan.Finds total p ↔ ∀ i, u16Mod ≤ i → i < total → ¬p i := by
  cases found : lastBelow total test with
  | none =>
      rw [found] at reports
      have missing := lastBelow_eq_none_iff.mp found
      have never : ∀ i < total, ¬p i := fun i inside hit => by
        rw [← same i inside, missing i inside] at hit
        exact absurd hit (by decide)
      rw [IndexScan.Finds, reports.1, reports.2]
      exact ⟨fun _ i _ inside => never i inside, fun _ => ⟨rfl, never⟩⟩
  | some i =>
      rw [found] at reports
      obtain ⟨inside, hit, later⟩ := lastBelow_eq_some_iff.mp found
      have matched : p i := (same i inside).mp hit
      have noneLater : ∀ j, i < j → j < total → ¬p j := fun j after below found => by
        rw [← same j below, later j after below] at found
        exact absurd found (by decide)
      rw [IndexScan.Finds, reports.1, reports.2]
      show _ ∧ (UInt16.ofNat i).toNat < total ∧ p (UInt16.ofNat i).toNat ∧ _ ↔ _
      rw [UInt16.toNat_ofNat']
      constructor
      · rintro ⟨_, _, _, last⟩ j wide below found
        have behind : ¬i < j := fun after => noneLater j after below found
        have cut : i % u16Mod < i :=
          Nat.lt_of_lt_of_le (Nat.mod_lt i (by decide)) (by omega)
        exact last i cut inside matched
      · intro small
        have fits : i < u16Mod := Nat.lt_of_not_le fun wide => small i wide inside matched
        have whole : i % UInt16.size = i := Nat.mod_eq_of_lt fits
        rw [whole]
        exact ⟨rfl, inside, matched, noneLater⟩

/-- Where no entry matches, the scan is mistaken about each entry that its comparison hits. -/
theorem IndexScan.Reports.finds_iff_missing {scan : IndexScan} {test : Nat → Bool}
    {p : Nat → Prop} (reports : scan.Reports (lastBelow total test)) (never : ∀ i < total, ¬p i)
    : scan.Finds total p ↔ ∀ i < total, test i = false := by
  rw [← lastBelow_eq_none_iff]
  cases found : lastBelow total test with
  | none =>
      rw [found] at reports
      rw [IndexScan.Finds, reports.1, reports.2]
      exact ⟨fun _ => rfl, fun _ => ⟨rfl, never⟩⟩
  | some i =>
      rw [found] at reports
      rw [IndexScan.Finds, reports.1]
      constructor
      · rintro ⟨_, inside, matched, _⟩
        exact absurd matched (never _ inside)
      · exact fun missing => nomatch missing

/-- The comparison is the match, unless a length is cut. -/
theorem hit_iff_matches {itemId : UInt8} {len : UInt16}
    (fits : itemId = itemFieldIdle ∨ len.toNat + sizeofItemHdr < u16Mod) (e : InfoIdx)
    : TelinkSdk.nvIndexRead.hit itemId len.toNat e = true ↔ EntryMatches itemId len e := by
  unfold TelinkSdk.nvIndexRead.hit EntryMatches
  by_cases idle : itemId = itemFieldIdle
  · subst idle
    simp only [if_true, Bool.or_eq_true, bne_iff_ne, ne_eq]
    tauto
  · have whole : itemTotalLen len.toNat % u16Mod = len.toNat + sizeofItemHdr :=
      Nat.mod_eq_of_lt (fits.resolve_left idle)
    simp only [if_neg idle, whole, Bool.and_eq_true, beq_iff_eq, and_assoc]

/-- The comparison with a length that is cut. -/
theorem hit_iff_cut {itemId : UInt8} {len : UInt16} (used : itemId ≠ itemFieldIdle)
    (long : u16Mod ≤ len.toNat + sizeofItemHdr) (e : InfoIdx)
    : TelinkSdk.nvIndexRead.hit itemId len.toNat e = true
      ↔ e.usedState = itemFieldValid ∧ e.size = len.toNat + sizeofItemHdr - u16Mod
        ∧ e.itemId = itemId := by
  have cut : itemTotalLen len.toNat % u16Mod = len.toNat + sizeofItemHdr - u16Mod := by
    have small := len.toNat_lt
    rw [itemTotalLen, Nat.mod_eq_sub_mod long, Nat.mod_eq_of_lt]
    simp only [sizeofItemHdr, u16Mod]
    omega
  simp only [TelinkSdk.nvIndexRead.hit, if_neg used, cut, Bool.and_eq_true, beq_iff_eq, and_assoc]

/-- No entry has a size that takes more than 16 bits. -/
theorem not_matches_of_long {itemId : UInt8} {len : UInt16} (used : itemId ≠ itemFieldIdle)
    (long : u16Mod ≤ len.toNat + sizeofItemHdr) (m : Mem) (addr : Nat)
    : ¬EntryMatches itemId len (InfoIdx.load m addr) := by
  rw [EntryMatches, if_neg used]
  rintro ⟨_, size, _⟩
  have half : (InfoIdx.load m addr).size < u16Mod := m.le16_lt (addr + 4)
  exact Nat.not_le_of_lt half (size ▸ long)

/-- A result that reports the comparison is the one of the plain scan exactly if no entry is
mistaken.
-/
theorem IndexScan.Reports.finds_iff_fits {scan : IndexScan} {b : Build} {id : UInt16}
    {itemId : UInt8} {len : UInt16} {opSect : UInt8}
    (reports : scan.Reports (lastBelow total fun i =>
      TelinkSdk.nvIndexRead.hit itemId len.toNat (indexEntry b flash id opSect i)))
    : scan.Finds total (fun i => EntryMatches itemId len (indexEntry b flash id opSect i))
      ↔ IndexFits b flash id itemId len opSect total := by
  by_cases fits : itemId = itemFieldIdle ∨ len.toNat + sizeofItemHdr < u16Mod
  · rw [reports.finds_iff_index fun i _ => hit_iff_matches fits _]
    constructor
    · intro index
      refine ⟨fun used long => ?_, index⟩
      exact absurd long (Nat.not_le_of_lt (fits.resolve_left used))
    · exact IndexFits.index
  · obtain ⟨used, short⟩ := not_or.mp fits
    have long := Nat.le_of_not_lt short
    have never : ∀ i, ¬EntryMatches itemId len (indexEntry b flash id opSect i) :=
      fun _ => not_matches_of_long used long flash.mem _
    rw [reports.finds_iff_missing fun i _ => never i]
    constructor
    · intro missing
      refine ⟨fun _ _ i inside => ?_, fun i _ _ => never i⟩
      show ¬_
      rw [← hit_iff_cut used long, missing i inside]
      decide
    · intro condition i inside
      apply eq_false_of_ne_true
      intro hit
      exact condition.size used long i inside ((hit_iff_cut used long _).mp hit)

/-- The call ends, and reads entries of the table only. It finds the last entry that matches, or
that there is none, exactly if no entry is mistaken.
-/
theorem nvIndexRead_finds_iff (b : Build) (flash : WordMem) (id : UInt16) (itemId : UInt8)
    (len : UInt16) (opSect : UInt8) (totalItemNum : UInt32) (fuel : Nat)
    (enough : totalItemNum.toNat < fuel)
    : ∃ scan, nvIndexRead b fuel flash id itemId len opSect totalItemNum = some scan
      ∧ scan.ReadsBelow (UInt32.ofNat (moduleIdxStart b id.toNat opSect.toNat)) totalItemNum.toNat
      ∧ (scan.Finds totalItemNum.toNat
            (fun i => EntryMatches itemId len (indexEntry b flash id opSect i))
          ↔ IndexFits b flash id itemId len opSect totalItemNum.toNat) := by
  obtain ⟨scan, run, reports, below⟩ :=
    nvIndexRead_lastBelow b flash id itemId len opSect totalItemNum enough
  exact ⟨scan, run, below, reports.finds_iff_fits⟩

/-- Module 0 of the 1M build with one entry, a valid one of item 5, in slot 0. -/
def entryFive (size : UInt8) : WordMem := fun addr =>
  if addr = 0x80008 then size
  else if addr = 0x80009 then 0
  else if addr = 0x8000A then 5
  else if addr = 0x8000B then itemFieldValid
  else 0xFF

theorem nvIndexRead_finds_iff_five
    : ∃ scan, nvIndexRead ⟨true, false⟩ 6 (entryFive 12) 0 5 4 0 5 = some scan
      ∧ scan.Finds 5 (fun i => EntryMatches 5 4 (indexEntry ⟨true, false⟩ (entryFive 12) 0 0 i)) := by
  obtain ⟨scan, run, -, exact⟩ :=
    nvIndexRead_finds_iff ⟨true, false⟩ (entryFive 12) 0 5 4 0 5 6 (by decide)
  refine ⟨scan, run, exact.mpr ⟨fun _ long => absurd long (by decide), fun i wide inside => ?_⟩⟩
  exact absurd (Nat.lt_of_le_of_lt wide inside) (by decide)

/-- With a length of 65530 an entry of two bytes is taken for the item. -/
theorem nvIndexRead_cut_length
    : ∃ scan, nvIndexRead ⟨true, false⟩ 64 (entryFive 2) 0 5 65530 0 63 = some scan
      ∧ scan.ret = .succ ∧ scan.idxNo = some 0
      ∧ ¬scan.Finds 63
          (fun i => EntryMatches 5 65530 (indexEntry ⟨true, false⟩ (entryFive 2) 0 0 i)) := by
  have found : (nvIndexRead ⟨true, false⟩ 64 (entryFive 2) 0 5 65530 0 63).map
      (fun scan => (scan.ret, scan.idxNo)) = some (.succ, some 0) := by decide
  obtain ⟨scan, run, result⟩ := Option.map_eq_some_iff.mp found
  obtain ⟨succ, first⟩ := Prod.mk.inj result
  refine ⟨scan, run, succ, first, fun finds => ?_⟩
  rw [IndexScan.Finds, first] at finds
  exact not_matches_of_long (by decide) (by decide) _ _ finds.2.2.1

-- the only slot in use is number 65536, and slot 0 is reported
example
    : (nvIndexRead ⟨true, false⟩ 65538 (fun addr => if addr = 0x100004 + 7 then 0x5A else 0xFF)
        0 itemFieldIdle 0 0 65537).map IndexScan.idxNo = some (some 0) := by
  decide +kernel

end TelinkSdk.Words
