import TelinkSdk.Drivers.Flash
import TelinkSdk.Nor.Words

/-! The loops of `drv_flash.c` over their own integer types: the read-back of a checked write, and
the split of an operation at the pages.
-/

namespace TelinkSdk.Words

open Nor

-----------------------------------------------------------------------------------------
-- flash_writeWithCheck
-----------------------------------------------------------------------------------------

/-- `memcmp` of two ranges of the same length. -/
def memcmp : List UInt8 → List UInt8 → Int
  | s1 :: m1, s2 :: m2 => if s1 ≠ s2 then (s1.toNat : Int) - s2.toNat else memcmp m1 m2
  | _, _ => 0

/-- What `flash_read` is called with. -/
structure FlashRead where
  addr : UInt32
  len : UInt32
deriving DecidableEq

def FlashRead.span (r : FlashRead) : List UInt32 := Nor.span r.addr r.len.toNat

/-- What a checked write returns, the flash afterwards, and the reads in their order. -/
structure CheckedWrite where
  ret : Bool
  flash : WordMem
  reads : List FlashRead

/-- `copyLen` -/
abbrev copyLen : Int8 := 48

/-- The loop of `flash_writeWithCheck`. There is no result after more than `fuel` tests. -/
def flashWriteWithCheck.loop (flash ram : WordMem)
    : Nat → Int32 → UInt32 → UInt32 → Option (Bool × List FlashRead)
  | 0, _, _, _ => none
  | fuel + 1, toalLen, sAddr, pSrc =>
      if toalLen > 0 then
        let wLen : UInt8 :=
          (if toalLen > copyLen.toInt32 then copyLen.toInt32 else toalLen).toUInt32.toUInt8
        let read : FlashRead := { addr := sAddr, len := wLen.toUInt32 }
        let pTemp := flash.read sAddr wLen.toNat
        if memcmp pTemp (ram.read pSrc wLen.toNat) ≠ 0 then some (false, [read])
        else
          (flashWriteWithCheck.loop flash ram fuel (toalLen - wLen.toUInt32.toInt32)
            (sAddr + wLen.toUInt32) (pSrc + wLen.toUInt32)).map fun (ret, reads) =>
              (ret, read :: reads)
      else some (true, [])

/-- `flash_writeWithCheck`. `supplied` is the result of the supply check, and `flashWritePage` what
`flash_write_page` of the chip makes of the flash.
-/
def flashWriteWithCheck (flashWritePage : UInt32 → List UInt8 → WordMem → WordMem) (supplied : Bool)
    (fuel : Nat) (ram flash : WordMem) (addr len buf : UInt32)
    : Option CheckedWrite :=
  if !supplied then some { ret := false, flash, reads := [] }
  else
    let flash := flashWritePage addr (ram.read buf len.toNat) flash
    (flashWriteWithCheck.loop flash ram fuel len.toInt32 addr buf).map fun (ret, reads) =>
      { ret, flash, reads }

/-- The write succeeds exactly if it took place and the flash holds the bytes. What is read back are
the bytes of the range in their order, 48 at most at once, all of them if the write succeeds.
-/
structure CheckedWrite.Exact (supplied : Bool) (ram : WordMem) (addr len buf : UInt32)
    (run : CheckedWrite) : Prop where
  ret : run.ret = true
    ↔ supplied = true ∧ run.flash.read addr len.toNat = ram.read buf len.toNat
  reads : run.reads.flatMap FlashRead.span <+: span addr len.toNat
  whole : run.ret = true → run.reads.flatMap FlashRead.span = span addr len.toNat
  pieces : ∀ r ∈ run.reads, r.len ≤ 48

theorem memcmp_eq_zero_iff {m1 m2 : List UInt8} (same : m1.length = m2.length)
    : memcmp m1 m2 = 0 ↔ m1 = m2 := by
  induction m1 generalizing m2 with
  | nil =>
      have empty : m2 = [] := List.length_eq_zero_iff.mp same.symm
      simp [memcmp, empty]
  | cons s1 m1 ih =>
      cases m2 with
      | nil => cases same
      | cons s2 m2 =>
          rw [memcmp]
          by_cases equal : s1 = s2
          · rw [if_neg (by simp [equal]), ih (Nat.succ.inj same), List.cons_eq_cons]
            simp [equal]
          · have apart : s1.toNat ≠ s2.toNat := fun again => equal (UInt8.toNat_inj.mp again)
            rw [if_pos equal, List.cons_eq_cons]
            simp only [equal, false_and, iff_false]
            omega

variable {fuel n : Nat} {toalLen : Int32}

theorem toUInt32_nat (left : toalLen.toInt = n) : toalLen.toUInt32.toNat = n := by
  have positive : 0 ≤ toalLen := by
    rw [Int32.le_iff_toInt_le, left]
    exact Int.natCast_nonneg n
  rw [Int32.toNat_toUInt32_of_le positive, Int32.toNatClampNeg, left, Int.toNat_natCast]

theorem toInt32_toInt {w : UInt32} (small : w.toNat < 2147483648) : w.toInt32.toInt = w.toNat := by
  rw [← Int32.toInt_toBitVec, UInt32.toBitVec_toInt32,
    BitVec.toInt_eq_toNat_of_lt (by rw [UInt32.toNat_toBitVec]; omega)]
  rfl

/-- What one round reads. -/
theorem wLen_toNat (left : toalLen.toInt = n)
    : (if toalLen > copyLen.toInt32 then copyLen.toInt32 else toalLen).toUInt32.toUInt8.toNat
      = min n 48 := by
  have most : copyLen.toInt32.toInt = ((48 : Nat) : Int) := rfl
  rw [UInt32.toNat_toUInt8]
  by_cases more : toalLen > copyLen.toInt32
  · have large : 48 < n := by
      have order := Int32.lt_iff_toInt_lt.mp more
      omega
    rw [if_pos more, toUInt32_nat most]
    omega
  · have few : n ≤ 48 := by
      rw [gt_iff_lt, Int32.lt_iff_toInt_lt] at more
      omega
    rw [if_neg more, toUInt32_nat left]
    omega

/-- What is left after a round. -/
theorem toalLen_sub {wLen : UInt8} (left : toalLen.toInt = n) (small : n < 2147483648)
    (read : wLen.toNat ≤ n)
    : (toalLen - wLen.toUInt32.toInt32).toInt = ((n - wLen.toNat : Nat) : Int) := by
  have byte := wLen.toNat_lt
  have width : wLen.toUInt32.toInt32.toInt = wLen.toNat := by
    rw [toInt32_toInt (by rw [UInt8.toNat_toUInt32]; omega), UInt8.toNat_toUInt32]
  rw [Int32.toInt_sub, width, left, Int.bmod_eq_of_le (by omega) (by omega)]
  omega

/-- The rounds compare the range from its start on, by induction on the bytes left. -/
theorem flashWriteWithCheck.loop_exact (flash ram : WordMem) (sAddr pSrc : UInt32)
    (left : toalLen.toInt = n) (small : n < 2147483648) (enough : n < fuel)
    : ∃ ret reads, flashWriteWithCheck.loop flash ram fuel toalLen sAddr pSrc = some (ret, reads)
      ∧ (ret = true ↔ flash.read sAddr n = ram.read pSrc n)
      ∧ reads.flatMap FlashRead.span <+: span sAddr n
      ∧ (ret = true → reads.flatMap FlashRead.span = span sAddr n)
      ∧ ∀ r ∈ reads, r.len ≤ 48 := by
  induction fuel generalizing toalLen n sAddr pSrc with
  | zero => omega
  | succ fuel ih =>
      rw [flashWriteWithCheck.loop]
      by_cases empty : n = 0
      · subst empty
        have done : ¬toalLen > 0 := by
          rw [gt_iff_lt, Int32.lt_iff_toInt_lt, left]
          exact Int.lt_irrefl 0
        rw [if_neg done]
        exact ⟨true, [], rfl, by simp [WordMem.read], by simp, fun _ => rfl, by simp⟩
      · have more : toalLen > 0 := by
          rw [gt_iff_lt, Int32.lt_iff_toInt_lt, left]
          exact Int.natCast_pos.mpr (Nat.pos_of_ne_zero empty)
        have width := wLen_toNat left
        rw [if_pos more]
        generalize (if toalLen > copyLen.toInt32 then copyLen.toInt32 else toalLen).toUInt32.toUInt8
          = wLen at width
        obtain ⟨rest, count⟩ := Nat.exists_eq_add_of_le (show wLen.toNat ≤ n by omega)
        have step : wLen.toUInt32 = UInt32.ofNat wLen.toNat := by
          apply UInt32.toNat_inj.mp
          rw [UInt8.toNat_toUInt32, UInt32.toNat_ofNat_of_lt' (Nat.lt_trans wLen.toNat_lt (by decide))]
        have first : ({ addr := sAddr, len := wLen.toUInt32 } : FlashRead).span
            = span sAddr wLen.toNat := by
          rw [FlashRead.span, UInt8.toNat_toUInt32]
        have short : wLen.toUInt32 ≤ 48 := by
          rw [UInt32.le_iff_toNat_le, UInt8.toNat_toUInt32, width]
          exact Nat.min_le_right _ _
        have compared := memcmp_eq_zero_iff
          (show (flash.read sAddr wLen.toNat).length = (ram.read pSrc wLen.toNat).length by simp)
        rw [count, span_add, WordMem.read_add, WordMem.read_add, ← step]
        by_cases differs : memcmp (flash.read sAddr wLen.toNat) (ram.read pSrc wLen.toNat) ≠ 0
        · have unequal : flash.read sAddr wLen.toNat ≠ ram.read pSrc wLen.toNat :=
            fun same => differs (compared.mpr same)
          simp only [if_pos differs]
          refine ⟨false, _, rfl, ?_, ?_, fun no => absurd no (by decide), by simpa using short⟩
          · refine iff_of_false (by simp) fun same => unequal ?_
            exact (List.append_inj same (by simp)).1
          · simp [first]
        · have equal := compared.mp (not_not.mp differs)
          have rest_left : (toalLen - wLen.toUInt32.toInt32).toInt = (rest : Int) := by
            rw [toalLen_sub left small (by omega)]
            omega
          obtain ⟨ret, reads, run, returned, part, whole, pieces⟩ :=
            ih (sAddr + wLen.toUInt32) (pSrc + wLen.toUInt32) rest_left (by omega) (by omega)
          simp only [if_neg differs, run]
          refine ⟨ret, _, rfl, ?_, ?_, ?_, ?_⟩
          · rw [returned, equal, List.append_cancel_left_eq]
          · rw [List.flatMap_cons, first]
            exact (List.prefix_append_right_inj _).mpr part
          · intro succeeded
            rw [List.flatMap_cons, first, whole succeeded]
          · intro r member
            rcases List.mem_cons.mp member with rfl | later
            · exact short
            · exact pieces r later

theorem flashWriteWithCheck_exact (flashWritePage : UInt32 → List UInt8 → WordMem → WordMem)
    (supplied : Bool) (fuel : Nat) (ram flash : WordMem) (addr len buf : UInt32)
    (small : len.toNat < 2147483648) (enough : len.toNat < fuel)
    : ∃ run, flashWriteWithCheck flashWritePage supplied fuel ram flash addr len buf = some run
      ∧ run.flash
        = (if supplied then flashWritePage addr (ram.read buf len.toNat) flash else flash)
      ∧ run.Exact supplied ram addr len buf := by
  cases supplied with
  | false =>
      refine ⟨{ ret := false, flash, reads := [] }, rfl, rfl, ?_, List.nil_prefix, ?_, ?_⟩
      · simp
      · exact fun no => absurd no Bool.false_ne_true
      · exact fun _ member => absurd member List.not_mem_nil
  | true =>
      obtain ⟨ret, reads, run, returned, part, whole, pieces⟩ :=
        flashWriteWithCheck.loop_exact (flashWritePage addr (ram.read buf len.toNat) flash) ram addr
          buf (toInt32_toInt small) small enough
      refine ⟨{ ret, flash := flashWritePage addr (ram.read buf len.toNat) flash, reads }, ?_, rfl,
        ?_, part, whole, pieces⟩
      · simp [flashWriteWithCheck, run]
      · simpa using returned

/-- On the device, whose flash ends in front of the last address, this is the checked write of the
driver.
-/
theorem flashWriteWithCheck_device (env : Env) (d : Dev) (fuel : Nat) (ram : WordMem)
    (addr len buf : UInt32) (fits : addr.toNat + len.toNat ≤ u32Mod)
    (small : len.toNat < 2147483648) (enough : len.toNat < fuel)
    : (flashWriteWithCheck
        (fun addr bytes _ => (d.issue env (.program addr.toNat bytes)).mem.words)
        (!env.lowVoltage d.issued) fuel ram d.mem.words addr len buf).map CheckedWrite.ret
      = some (Prog.run env
          (TelinkSdk.flashWriteWithCheck addr.toNat (ram.read buf len.toNat)) d).1 := by
  obtain ⟨run, returned, flash, exact⟩ := flashWriteWithCheck_exact
    (fun addr bytes _ => (d.issue env (.program addr.toNat bytes)).mem.words)
    (!env.lowVoltage d.issued) fuel ram d.mem.words addr len buf small enough
  have stored := flashWriteWithCheck_iff env addr.toNat (ram.read buf len.toNat) d
  rw [WordMem.length_read] at stored
  rw [returned, Option.map_some, Option.some_inj, Bool.eq_iff_iff, exact.ret, stored,
    Bool.not_eq_true']
  apply and_congr_right
  intro sent
  rw [flash, sent, Bool.not_false, if_pos rfl, Mem.words_read fits]

-----------------------------------------------------------------------------------------
-- cfs_flash_op
-----------------------------------------------------------------------------------------

/-- A call of `flash_write_page` or of `flash_read_page`. -/
structure PageOp where
  isWrite : Bool
  addr : UInt32
  len : UInt32
  buf : UInt32
deriving DecidableEq

/-- Each address with the address of its byte in the buffer. -/
def PageOp.pairs (op : PageOp) : List (UInt32 × UInt32) :=
  (span op.addr op.len.toNat).zip (span op.buf op.len.toNat)

/-- The loop of `cfs_flash_op`, with its calls. There is no result after more than `fuel` rounds. -/
def cfsFlashOp.loop (opmode : UInt8)
    : Nat → UInt32 → UInt32 → UInt32 → UInt32 → Option (List PageOp)
  | 0, _, _, _, _ => none
  | fuel + 1, pageReLen, remainLen, addr, buf =>
      let (writeLen, remainLen, pageReLen) :=
        if remainLen ≤ pageReLen then (remainLen, 0, pageReLen)
        else (pageReLen, remainLen - pageReLen, 256)
      let op : PageOp := { isWrite := opmode ≠ 0, addr, len := writeLen, buf }
      if remainLen ≠ 0 then
        (cfsFlashOp.loop opmode fuel pageReLen remainLen (addr + writeLen) (buf + writeLen)).map
          (op :: ·)
      else some [op]

def cfsFlashOp (fuel : Nat) (opmode : UInt8) (addr len buf : UInt32) : Option (List PageOp) :=
  let re := addr % 256
  let pageReLen := if re ≠ 0 then 256 - re else 256
  cfsFlashOp.loop opmode fuel pageReLen len addr buf

/-- The operations run through the range and the buffer side by side, each of them inside a page,
and none of them in vain.
-/
structure PageOpsExact (opmode : UInt8) (addr len buf : UInt32) (ops : List PageOp) : Prop where
  pairs : ops.flatMap PageOp.pairs = (span addr len.toNat).zip (span buf len.toNat)
  inPage : ∀ op ∈ ops, op.addr.toNat % 256 + op.len.toNat ≤ 256
  mode : ∀ op ∈ ops, op.isWrite = true ↔ opmode ≠ 0
  positive : len ≠ 0 → ∀ op ∈ ops, op.len ≠ 0

variable {opmode : UInt8} {pageReLen remainLen addr : UInt32}

theorem PageOp.pairs_append (op : PageOp) {len rest : UInt32}
    (split : len.toNat = op.len.toNat + rest.toNat)
    : (span op.addr len.toNat).zip (span op.buf len.toNat)
      = op.pairs ++ (span (op.addr + op.len) rest.toNat).zip (span (op.buf + op.len) rest.toNat) := by
  rw [split, span_add, span_add, UInt32.ofNat_toNat, List.zip_append (by simp)]
  rfl

/-- The rounds run through the range from its start on, by induction on the rounds. -/
theorem cfsFlashOp.loop_exact (buf : UInt32) (page : addr.toNat % 256 + pageReLen.toNat = 256)
    (enough : remainLen.toNat < fuel)
    : ∃ ops, cfsFlashOp.loop opmode fuel pageReLen remainLen addr buf = some ops
      ∧ PageOpsExact opmode addr remainLen buf ops := by
  induction fuel generalizing pageReLen remainLen addr buf with
  | zero => omega
  | succ fuel ih =>
      rw [cfsFlashOp.loop]
      by_cases last : remainLen ≤ pageReLen
      · have fits : remainLen.toNat ≤ pageReLen.toNat := UInt32.le_iff_toNat_le.mp last
        simp only [if_pos last, ne_eq, not_true_eq_false, if_false]
        refine ⟨_, rfl, ?_, ?_, ?_, ?_⟩
        · simp [PageOp.pairs]
        · simp only [List.mem_singleton, forall_eq]
          omega
        · simp
        · simp
      · have beyond : pageReLen.toNat < remainLen.toNat := by
          rw [UInt32.le_iff_toNat_le] at last
          omega
        have size := remainLen.toNat_lt
        have rest : (remainLen - pageReLen).toNat = remainLen.toNat - pageReLen.toNat :=
          UInt32.toNat_sub_of_le _ _ (UInt32.le_iff_toNat_le.mpr (Nat.le_of_lt beyond))
        have more : remainLen - pageReLen ≠ 0 := by
          intro none
          rw [none] at rest
          have zero : (0 : UInt32).toNat = 0 := rfl
          omega
        have next : (addr + pageReLen).toNat % 256 + (256 : UInt32).toNat = 256 := by
          rw [UInt32.toNat_add]
          have whole : (256 : UInt32).toNat = 256 := rfl
          omega
        have fewer : (remainLen - pageReLen).toNat < fuel := by omega
        obtain ⟨ops, run, exact⟩ := ih (buf + pageReLen) next fewer
        simp only [if_neg last, if_pos more, run]
        refine ⟨_, rfl, ?_, ?_, ?_, ?_⟩
        · rw [List.flatMap_cons, exact.pairs]
          have split : remainLen.toNat = pageReLen.toNat + (remainLen - pageReLen).toNat := by omega
          exact (PageOp.pairs_append ⟨opmode ≠ 0, addr, pageReLen, buf⟩ split).symm
        · intro op member
          rcases List.mem_cons.mp member with rfl | later
          · exact Nat.le_of_eq page
          · exact exact.inPage op later
        · intro op member
          rcases List.mem_cons.mp member with rfl | later
          · simp
          · exact exact.mode op later
        · intro _ op member
          rcases List.mem_cons.mp member with rfl | later
          · intro none
            have zero : pageReLen.toNat = 0 := congrArg UInt32.toNat none
            omega
          · exact exact.positive more op later

/-- What is left of the first page. -/
theorem pageReLen_toNat (addr : UInt32)
    : addr.toNat % 256 + (if addr % 256 ≠ 0 then 256 - addr % 256 else 256).toNat = 256 := by
  have rest : (addr % 256).toNat = addr.toNat % 256 := UInt32.toNat_mod _ _
  have small := Nat.mod_lt addr.toNat (show 256 > 0 by decide)
  by_cases aligned : addr % 256 = 0
  · rw [if_neg (by simp [aligned]), ← rest, aligned]
    rfl
  · have less : addr % 256 ≤ 256 := by
      rw [UInt32.le_iff_toNat_le, rest]
      exact Nat.le_of_lt small
    rw [if_pos aligned, UInt32.toNat_sub_of_le _ _ less, rest]
    exact Nat.add_sub_cancel' (Nat.le_of_lt small)

theorem cfsFlashOp_exact (fuel : Nat) (opmode : UInt8) (addr len buf : UInt32)
    (enough : len.toNat < fuel)
    : ∃ ops, cfsFlashOp fuel opmode addr len buf = some ops
      ∧ PageOpsExact opmode addr len buf ops :=
  cfsFlashOp.loop_exact buf (pageReLen_toNat addr) enough

-----------------------------------------------------------------------------------------
-- Both of them
-----------------------------------------------------------------------------------------

/-- A checked write reports whether the flash holds the bytes, and an operation of the file system is
cut at the pages, for every alignment and every length that a signed word can hold.
-/
theorem flashOps_exact (flashWritePage : UInt32 → List UInt8 → WordMem → WordMem) (supplied : Bool)
    (fuel : Nat) (ram flash : WordMem) (opmode : UInt8) (addr len buf : UInt32)
    (small : len.toNat < 2147483648) (enough : len.toNat < fuel)
    : (∃ run, flashWriteWithCheck flashWritePage supplied fuel ram flash addr len buf = some run
        ∧ run.flash
          = (if supplied then flashWritePage addr (ram.read buf len.toNat) flash else flash)
        ∧ run.Exact supplied ram addr len buf)
      ∧ ∃ ops, cfsFlashOp fuel opmode addr len buf = some ops
        ∧ PageOpsExact opmode addr len buf ops :=
  ⟨flashWriteWithCheck_exact flashWritePage supplied fuel ram flash addr len buf small enough,
    cfsFlashOp_exact fuel opmode addr len buf enough⟩

/-- A page write that clears the bits that are clear in the data. -/
def programBytes (addr : UInt32) (data : List UInt8) (flash : WordMem) : WordMem := fun a =>
  match data[(a - addr).toNat]? with
  | some byte => flash a &&& byte
  | none => flash a

/-- A hundred bytes over the end of a page, programmed into erased flash. -/
theorem flashOps_exact_hundred
    : (∃ run, flashWriteWithCheck programBytes true 101 UInt32.toUInt8 (fun _ => 0xFF) 0xF0 100
          0x8000 = some run
        ∧ run.ret = true ∧ run.reads = [⟨0xF0, 48⟩, ⟨0x120, 48⟩, ⟨0x150, 4⟩]
        ∧ run.Exact true UInt32.toUInt8 0xF0 100 0x8000)
      ∧ cfsFlashOp 101 1 0xF0 100 0x8000
        = some [⟨true, 0xF0, 16, 0x8000⟩, ⟨true, 0x100, 84, 0x8010⟩]
      ∧ PageOpsExact 1 0xF0 100 0x8000
        [⟨true, 0xF0, 16, 0x8000⟩, ⟨true, 0x100, 84, 0x8010⟩] := by
  have computed : (flashWriteWithCheck programBytes true 101 UInt32.toUInt8 (fun _ => 0xFF) 0xF0
        100 0x8000).map (fun run => (run.ret, run.reads))
      = some (true, [⟨0xF0, 48⟩, ⟨0x120, 48⟩, ⟨0x150, 4⟩]) := by decide +kernel
  have split : cfsFlashOp 101 1 0xF0 100 0x8000
      = some [⟨true, 0xF0, 16, 0x8000⟩, ⟨true, 0x100, 84, 0x8010⟩] := by decide
  obtain ⟨⟨run, written, -, checked⟩, ops, done, exact⟩ := flashOps_exact programBytes true 101
    UInt32.toUInt8 (fun _ => 0xFF) 1 0xF0 100 0x8000 (by decide) (by decide)
  cases split.symm.trans done
  rw [written] at computed
  obtain ⟨ret, reads⟩ := Prod.mk.inj (Option.some.inj computed)
  exact ⟨⟨run, written, ret, reads, checked⟩, split, exact⟩

end TelinkSdk.Words
