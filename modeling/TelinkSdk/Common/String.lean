import Mathlib.Logic.Function.Basic
import TelinkSdk.Os.BufferPool

/-! The copying functions of `string.c`, over a memory of single bytes. -/

namespace TelinkSdk

/-- An address. Stepping over the last one leads back to the first. -/
abbrev Ptr := BitVec 32

/-- The memory, one `char` for each address. -/
abbrev Chars := Ptr → UInt8

-----------------------------------------------------------------------------------------
-- memmove, bcopy and memcpy
-----------------------------------------------------------------------------------------

/-- `while(n--) *d++ = *s++`. To take one off a counter and to compare it with zero is the same for
an `unsigned int` and a two's-complement `int`. The result is `none` after more than `fuel` tests.
-/
def copyUp : Nat → Chars → Ptr → Ptr → BitVec 32 → Option Chars
  | 0, _, _, _, _ => none
  | fuel + 1, m, d, s, n =>
      if n = 0 then some m else copyUp fuel (Function.update m d (m s)) (d + 1) (s + 1) (n - 1)

/-- `while(n--) *d-- = *s--` -/
def copyDown : Nat → Chars → Ptr → Ptr → BitVec 32 → Option Chars
  | 0, _, _, _, _ => none
  | fuel + 1, m, d, s, n =>
      if n = 0 then some m else copyDown fuel (Function.update m d (m s)) (d - 1) (s - 1) (n - 1)

def memmove (fuel : Nat) (m : Chars) (dest src : Ptr) (n : UInt32) : Option (Ptr × Chars) :=
  let d := dest
  let s := src
  (if d < s then copyUp fuel m d s n.toBitVec
    else
      let d := d + (n - 1).toBitVec
      let s := s + (n - 1).toBitVec
      copyDown fuel m d s n.toBitVec).map (dest, ·)

def bcopy (fuel : Nat) (m : Chars) (src dest : Ptr) (len : Int32) : Option Chars :=
  let s := src
  let d := dest
  if d < s then copyUp fuel m d s len.toBitVec
  else
    let s := s + (len - 1).toBitVec
    let d := d + (len - 1).toBitVec
    copyDown fuel m d s len.toBitVec

abbrev largeBuffer : Nat := EvBuffer.bufferGroup 3 - 8

/-- What `memcpy` returns, the memory, and whether `ZB_EXCEPTION_POST` has reported a bad access. -/
structure MemcpyResult where
  returned : Ptr
  mem : Chars
  memAccess : Bool

def memcpy (layout : EvBuffer.EvBufLayout) (fuel : Nat) (m : Chars) (out src : Ptr)
    (length : UInt32)
    : Option MemcpyResult :=
  if length = 0 then some { returned := 0, mem := m, memAccess := false }
  else if out = 0 then some { returned := 0, mem := m, memAccess := true }
  else if src = 0 then some { returned := 0, mem := m, memAccess := true }
  else if EvBuffer.isEvBuf layout out.toNat ∧ length.toNat > largeBuffer then
    some { returned := 0, mem := m, memAccess := true }
  else
    (bcopy fuel m src out length.toInt32).map
      fun m => { returned := out, mem := m, memAccess := false }

/-- The bytes at `s` copied to `d`, as they were before. -/
def Chars.moved (m : Chars) (d s : Ptr) (n : Nat) : Chars := fun x =>
  if d.toNat ≤ x.toNat ∧ x.toNat < d.toNat + n then m (s + (x - d)) else m x

variable {m : Chars} {d s : Ptr} {n : BitVec 32} {fuel : Nat}

theorem moved_zero : m.moved d s 0 = m := by
  funext x
  exact if_neg (by omega)

/-- The source of a byte lies as far behind `s` as the byte behind `d`. -/
theorem source_toNat {x : Ptr} {k : Nat} (room : s.toNat + k ≤ 4294967296)
    (low : d.toNat ≤ x.toNat) (high : x.toNat < d.toNat + k)
    : (s + (x - d)).toNat = s.toNat + (x.toNat - d.toNat) := by
  rw [BitVec.toNat_add, BitVec.toNat_sub]
  omega

/-- Copying upwards starts with the byte at `s`. -/
theorem moved_up {k : Nat} (below : d < s) (roomS : s.toNat + (k + 1) ≤ 4294967296)
    : Chars.moved (Function.update m d (m s)) (d + 1) (s + 1) k = m.moved d s (k + 1) := by
  have order : d.toNat < s.toNat := below
  have first : (d + 1).toNat = d.toNat + 1 := by
    rw [BitVec.toNat_add]
    exact Nat.mod_eq_of_lt (by simp; omega)
  funext x
  simp only [Chars.moved, first]
  by_cases atD : x = d
  · subst atD
    rw [if_neg (by omega), if_pos (by omega), Function.update_self, BitVec.sub_self,
      BitVec.add_zero]
  · have apart : x.toNat ≠ d.toNat := fun same => atD (BitVec.eq_of_toNat_eq same)
    by_cases inside : d.toNat ≤ x.toNat ∧ x.toNat < d.toNat + (k + 1)
    · have source := source_toNat roomS inside.1 inside.2
      have behind : s + (x - d) ≠ d := by
        intro same
        rw [same] at source
        omega
      have same : s + 1 + (x - (d + 1)) = s + (x - d) := by grind
      rw [if_pos (by omega), if_pos inside, same, Function.update_of_ne behind]
    · rw [if_neg (by omega), if_neg inside, Function.update_of_ne atD]

/-- Copying downwards starts with the last byte. -/
theorem moved_down {k : Nat} {last : Ptr} (above : s ≤ d) (roomD : d.toNat + (k + 1) ≤ 4294967296)
    (offset : last.toNat = k)
    : Chars.moved (Function.update m (d + last) (m (s + last))) d s k = m.moved d s (k + 1) := by
  have order : s.toNat ≤ d.toNat := above
  have top : (d + last).toNat = d.toNat + k := by
    rw [BitVec.toNat_add, offset]
    exact Nat.mod_eq_of_lt (by omega)
  funext x
  simp only [Chars.moved]
  by_cases atTop : x = d + last
  · subst atTop
    have same : s + (d + last - d) = s + last := by grind
    rw [if_neg (by omega), if_pos (by omega), Function.update_self, same]
  · have apart : x.toNat ≠ d.toNat + k := fun same =>
      atTop (BitVec.eq_of_toNat_eq (same.trans top.symm))
    by_cases inside : d.toNat ≤ x.toNat ∧ x.toNat < d.toNat + (k + 1)
    · have source : (s + (x - d)).toNat = s.toNat + (x.toNat - d.toNat) :=
        source_toNat (by omega) inside.1 inside.2
      have below : s + (x - d) ≠ d + last := by
        intro same
        rw [same, top] at source
        omega
      rw [if_pos (by omega), if_pos inside, Function.update_of_ne below]
    · rw [if_neg (by omega), if_neg inside, Function.update_of_ne atTop]

theorem counter_pred (more : n ≠ 0) : (n - 1).toNat + 1 = n.toNat := by
  have positive : n.toNat ≠ 0 := fun zero => more (BitVec.eq_of_toNat_eq zero)
  rw [BitVec.toNat_sub]
  simp
  omega

/-- Going up, no byte is overwritten before it has been copied when `d` is below `s`. -/
theorem copyUp_moved (enough : n.toNat < fuel) (below : n ≠ 0 → d < s)
    (roomS : s.toNat + n.toNat ≤ 4294967296)
    : copyUp fuel m d s n = some (m.moved d s n.toNat) := by
  induction fuel generalizing m d s n with
  | zero => omega
  | succ fuel ih =>
      rw [copyUp]
      by_cases done : n = 0
      · subst done
        exact congrArg some moved_zero.symm
      · have counted := counter_pred done
        have order : d.toNat < s.toNat := below done
        have later : n - 1 ≠ 0 → d + 1 < s + 1 := by
          intro more
          have again := counter_pred more
          rw [BitVec.lt_def, BitVec.toNat_add, BitVec.toNat_add]
          simp
          omega
        have roomLater : (s + 1).toNat + (n - 1).toNat ≤ 4294967296 := by
          rw [BitVec.toNat_add]
          simp
          omega
        rw [if_neg done, ih (by omega) later roomLater, moved_up (below done) (by omega), counted]

/-- Going down, no byte is overwritten before it has been copied when `d` is not below `s`. -/
theorem copyDown_moved (enough : n.toNat < fuel) (above : s ≤ d)
    (roomD : d.toNat + n.toNat ≤ 4294967296)
    : copyDown fuel m (d + (n - 1)) (s + (n - 1)) n = some (m.moved d s n.toNat) := by
  induction fuel generalizing m n with
  | zero => omega
  | succ fuel ih =>
      rw [copyDown]
      by_cases done : n = 0
      · subst done
        exact congrArg some moved_zero.symm
      · have counted := counter_pred done
        have nextD : d + (n - 1) - 1 = d + (n - 1 - 1) := by grind
        have nextS : s + (n - 1) - 1 = s + (n - 1 - 1) := by grind
        rw [if_neg done, nextD, nextS, ih (by omega) (by omega), moved_down above (by omega) rfl,
          counted]

/-- The direction of the copy fits the order of the pointers. -/
theorem copy_moved (enough : n.toNat < fuel) (roomD : d.toNat + n.toNat ≤ 4294967296)
    (roomS : s.toNat + n.toNat ≤ 4294967296)
    : (if d < s then copyUp fuel m d s n else copyDown fuel m (d + (n - 1)) (s + (n - 1)) n)
      = some (m.moved d s n.toNat) := by
  by_cases below : d < s
  · rw [if_pos below, copyUp_moved enough (fun _ => below) roomS]
  · rw [if_neg below, copyDown_moved enough (BitVec.not_lt.mp below) roomD]

theorem memmove_moved {n : UInt32} (enough : n.toNat < fuel)
    (roomD : d.toNat + n.toNat ≤ 4294967296) (roomS : s.toNat + n.toNat ≤ 4294967296)
    : memmove fuel m d s n = some (d, m.moved d s n.toNat) := by
  have copied : (if d < s then copyUp fuel m d s n.toBitVec
      else copyDown fuel m (d + (n - 1).toBitVec) (s + (n - 1).toBitVec) n.toBitVec)
      = some (m.moved d s n.toNat) := copy_moved enough roomD roomS
  rw [memmove, copied, Option.map_some]

/-- The length passes through `int` and keeps its bits. -/
theorem bcopy_moved {n : UInt32} (enough : n.toNat < fuel)
    (roomD : d.toNat + n.toNat ≤ 4294967296) (roomS : s.toNat + n.toNat ≤ 4294967296)
    : bcopy fuel m s d n.toInt32 = some (m.moved d s n.toNat) :=
  copy_moved enough roomD roomS

/-- `memcpy` takes every pair of regions that `memmove` takes. -/
theorem memcpy_moved {layout : EvBuffer.EvBufLayout} {n : UInt32} (enough : n.toNat < fuel)
    (roomD : d.toNat + n.toNat ≤ 4294967296) (roomS : s.toNat + n.toNat ≤ 4294967296)
    (some_bytes : n ≠ 0) (validD : d ≠ 0) (validS : s ≠ 0)
    (guard : EvBuffer.isEvBuf layout d.toNat → n.toNat ≤ largeBuffer)
    : memcpy layout fuel m d s n
      = some { returned := d, mem := m.moved d s n.toNat, memAccess := false } := by
  have passed : ¬(EvBuffer.isEvBuf layout d.toNat ∧ n.toNat > largeBuffer) := by
    intro refused
    have small := guard refused.1
    omega
  rw [memcpy, if_neg some_bytes, if_neg validD, if_neg validS, if_neg passed,
    bcopy_moved enough roomD roomS, Option.map_some]

/-- The bytes at `s` are the bytes at `d` afterwards, and no other byte has changed. -/
structure Chars.CopiedTo (m m' : Chars) (d s : Ptr) (n : Nat) : Prop where
  copied : ∀ i < n, m' (d + BitVec.ofNat 32 i) = m (s + BitVec.ofNat 32 i)
  kept : ∀ x, x.toNat < d.toNat ∨ d.toNat + n ≤ x.toNat → m' x = m x

theorem moved_copiedTo {n : Nat} (room : d.toNat + n ≤ 4294967296)
    : m.CopiedTo (m.moved d s n) d s n where
  copied := by
    intro i inside
    have address : (d + BitVec.ofNat 32 i).toNat = d.toNat + i := by
      rw [BitVec.toNat_add, BitVec.toNat_ofNat]
      omega
    have offset : d + BitVec.ofNat 32 i - d = BitVec.ofNat 32 i := by grind
    rw [Chars.moved, address, if_pos (by omega), offset]
  kept := by
    intro x outside
    exact if_neg (by omega)

/-- `memmove`, and `memcpy` within its guards, copy between any two regions, whichever way they
overlap.
-/
theorem copies_overlap_safe (layout : EvBuffer.EvBufLayout) (m : Chars) (d s : Ptr) (n : UInt32)
    (roomD : d.toNat + n.toNat ≤ 4294967296) (roomS : s.toNat + n.toNat ≤ 4294967296)
    {fuel : Nat} (enough : n.toNat < fuel)
    : (∃ m', memmove fuel m d s n = some (d, m') ∧ m.CopiedTo m' d s n.toNat)
      ∧ (n ≠ 0 → d ≠ 0 → s ≠ 0
        → (EvBuffer.isEvBuf layout d.toNat → n.toNat ≤ largeBuffer)
        → ∃ m', memcpy layout fuel m d s n
            = some { returned := d, mem := m', memAccess := false }
          ∧ m.CopiedTo m' d s n.toNat) := by
  refine ⟨⟨_, memmove_moved enough roomD roomS, moved_copiedTo roomD⟩, ?_⟩
  intro some_bytes validD validS guard
  exact ⟨_, memcpy_moved enough roomD roomS some_bytes validD validS guard, moved_copiedTo roomD⟩

/-- Four bytes moved up by two. -/
theorem copies_overlap_safe_shift
    : ∃ m', memcpy EvBuffer.pagedLayout 5 (fun x => UInt8.ofNat x.toNat) 102 100 4
        = some { returned := 102, mem := m', memAccess := false }
      ∧ m' 105 = 103 ∧ m' 106 = 106 := by
  obtain ⟨m', run, copied⟩ := (copies_overlap_safe EvBuffer.pagedLayout
    (fun x => UInt8.ofNat x.toNat) 102 100 4 (by decide) (by decide) (by decide : _ < 5)).2
    (by decide) (by decide) (by decide) (by decide)
  exact ⟨m', run, copied.copied 3 (by decide), copied.kept 106 (by decide)⟩

-----------------------------------------------------------------------------------------
-- strncpy
-----------------------------------------------------------------------------------------

/-- The memory, with the addresses that have been read and written so far. -/
structure Traced where
  mem : Chars
  reads : List Ptr
  writes : List Ptr

/-- `*s = *t` -/
def Traced.move (run : Traced) (s t : Ptr) : Traced where
  mem := Function.update run.mem s (run.mem t)
  reads := run.reads ++ [t]
  writes := run.writes ++ [s]

/-- `*s = c` -/
def Traced.put (run : Traced) (s : Ptr) (c : UInt8) : Traced where
  mem := Function.update run.mem s c
  reads := run.reads
  writes := run.writes ++ [s]

/-- The first loop of `strncpy`, with what it leaves in `s`, `t` and `i`. It tests the pointer `t`
and not the character it points to.
-/
def strncpy.copy (n : UInt32)
    : Nat → Traced → Ptr → Ptr → UInt32 → Option (Traced × Ptr × Ptr × UInt32)
  | 0, _, _, _, _ => none
  | fuel + 1, run, s, t, i =>
      if t ≠ 0 ∧ i < n then strncpy.copy n fuel (run.move s t) (s + 1) (t + 1) (i + 1)
      else some (run, s, t, i)

/-- The second loop of `strncpy`, which tests the count behind its body. -/
def strncpy.fill (n : UInt32) : Nat → Traced → Ptr → UInt32 → Option Traced
  | 0, _, _, _ => none
  | fuel + 1, run, s, i =>
      let run := run.put s 0
      if i < n then strncpy.fill n fuel run (s + 1) (i + 1) else some run

def strncpy (fuel : Nat) (m : Chars) (s t : Ptr) (n : UInt32) : Option (Ptr × Traced) :=
  let p := s
  let run : Traced := { mem := m, reads := [], writes := [] }
  if s = 0 then some (s, run)
  else do
    let (run, s, t, i) ← strncpy.copy n fuel run s t 0
    let run ← if t = 0 then strncpy.fill n fuel run s i else some run
    some (p, run)

/-- The memory after `k` characters have been copied one after another. -/
def Chars.copyFront (m : Chars) (s t : Ptr) : Nat → Chars
  | 0 => m
  | k + 1 =>
      Function.update (m.copyFront s t k) (s + BitVec.ofNat 32 k)
        (m.copyFront s t k (t + BitVec.ofNat 32 k))

/-- The `k` addresses from `p` on. -/
def addresses (p : Ptr) (k : Nat) : List Ptr := (List.range k).map fun i => p + BitVec.ofNat 32 i

/-- The first loop after `k` rounds. -/
def Traced.front (m : Chars) (s t : Ptr) (k : Nat) : Traced where
  mem := m.copyFront s t k
  reads := addresses t k
  writes := addresses s k

theorem addresses_succ (p : Ptr) (k : Nat)
    : addresses p (k + 1) = addresses p k ++ [p + BitVec.ofNat 32 k] := by
  simp [addresses, List.range_succ]

theorem Traced.front_succ (m : Chars) (s t : Ptr) (k : Nat)
    : Traced.front m s t (k + 1)
      = (Traced.front m s t k).move (s + BitVec.ofNat 32 k) (t + BitVec.ofNat 32 k) := by
  simp only [Traced.front, Traced.move, addresses_succ]
  rfl

variable {t : Ptr} {size : UInt32}

theorem offset_toNat {p : Ptr} {i : Nat} (room : p.toNat + i < 4294967296)
    : (p + BitVec.ofNat 32 i).toNat = p.toNat + i := by
  rw [BitVec.toNat_add, BitVec.toNat_ofNat]
  omega

theorem offset_succ (p : Ptr) (i : Nat)
    : p + BitVec.ofNat 32 i + 1 = p + BitVec.ofNat 32 (i + 1) := by
  rw [BitVec.ofNat_add, BitVec.add_assoc]
  rfl

/-- How many characters the first loop copies: it also stops where `t` steps over the last
address.
-/
def strncpyRounds (t : Ptr) (n : Nat) : Nat := if t = 0 then 0 else min n (4294967296 - t.toNat)

theorem index_toNat {i : Nat} (small : i ≤ size.toNat) : (UInt32.ofNat i).toNat = i := by
  have bounded := size.toNat_lt
  exact UInt32.toNat_ofNat_of_lt' (show i < 4294967296 by omega)

theorem index_succ (i : Nat) : UInt32.ofNat i + 1 = UInt32.ofNat (i + 1) :=
  (UInt32.ofNat_add i 1).symm

theorem strncpy_copy {i : Nat} (inside : i ≤ strncpyRounds t size.toNat)
    (enough : strncpyRounds t size.toNat - i < fuel)
    : strncpy.copy size fuel (Traced.front m s t i) (s + BitVec.ofNat 32 i)
        (t + BitVec.ofNat 32 i) (UInt32.ofNat i)
      = some (Traced.front m s t (strncpyRounds t size.toNat),
          s + BitVec.ofNat 32 (strncpyRounds t size.toNat),
          t + BitVec.ofNat 32 (strncpyRounds t size.toNat),
          UInt32.ofNat (strncpyRounds t size.toNat)) := by
  have positive : t ≠ 0 → 0 < t.toNat := fun valid =>
    Nat.pos_of_ne_zero fun zero => valid (BitVec.eq_of_toNat_eq zero)
  have rounds : strncpyRounds t size.toNat ≤ size.toNat := by
    unfold strncpyRounds
    split <;> omega
  have count : (UInt32.ofNat i).toNat = i := index_toNat (inside.trans rounds)
  induction fuel generalizing i with
  | zero => omega
  | succ fuel ih =>
      rw [strncpy.copy]
      by_cases last : i = strncpyRounds t size.toNat
      · rw [if_neg, last]
        rintro ⟨valid, more⟩
        rw [UInt32.lt_iff_toNat_lt, count] at more
        by_cases null : t = 0
        · simp [last, strncpyRounds, null] at valid
        · have ended : i = 4294967296 - t.toNat := by
            rw [strncpyRounds, if_neg null] at last
            omega
          apply valid
          apply BitVec.eq_of_toNat_eq
          have below := t.isLt
          rw [BitVec.toNat_add, BitVec.toNat_ofNat, ended]
          simp
          omega
      · have null : t ≠ 0 := by
          rintro rfl
          simp [strncpyRounds] at inside last
          omega
        have bound : i < 4294967296 - t.toNat := by
          rw [strncpyRounds, if_neg null] at inside last
          omega
        have room := positive null
        have valid : t + BitVec.ofNat 32 i ≠ 0 := by
          intro zero
          have address : (t + BitVec.ofNat 32 i).toNat = t.toNat + i := offset_toNat (by omega)
          rw [zero] at address
          simp at address
          omega
        have more : UInt32.ofNat i < size := by
          rw [UInt32.lt_iff_toNat_lt, count]
          omega
        rw [if_pos ⟨valid, more⟩, ← Traced.front_succ, offset_succ, offset_succ, index_succ]
        exact ih (by omega) (by omega) (index_toNat (show i + 1 ≤ size.toNat by omega))

theorem strncpy_start (enough : strncpyRounds t size.toNat < fuel)
    : strncpy.copy size fuel { mem := m, reads := [], writes := [] } s t 0
      = some (Traced.front m s t (strncpyRounds t size.toNat),
          s + BitVec.ofNat 32 (strncpyRounds t size.toNat),
          t + BitVec.ofNat 32 (strncpyRounds t size.toNat),
          UInt32.ofNat (strncpyRounds t size.toNat)) := by
  have copied := strncpy_copy (m := m) (s := s) (Nat.zero_le (strncpyRounds t size.toNat))
    (show _ < fuel by omega)
  rw [BitVec.add_zero, BitVec.add_zero] at copied
  exact copied

/-- The second loop reads nothing and writes one byte more than the count leaves. -/
theorem strncpy_fill (run : Traced) (s : Ptr) {i : Nat} (inside : i ≤ size.toNat)
    (enough : size.toNat - i < fuel)
    : ∃ after, strncpy.fill size fuel run s (UInt32.ofNat i) = some after
      ∧ after.reads = run.reads
      ∧ after.writes.length = run.writes.length + (size.toNat - i + 1) := by
  induction fuel generalizing run s i with
  | zero => omega
  | succ fuel ih =>
      have count : (UInt32.ofNat i).toNat = i := index_toNat inside
      rw [strncpy.fill]
      by_cases more : i < size.toNat
      · have again : UInt32.ofNat i < size := by
          rw [UInt32.lt_iff_toNat_lt, count]
          exact more
        obtain ⟨after, filled, reads, writes⟩ := ih (run.put s 0) (s + 1)
          (show i + 1 ≤ size.toNat by omega) (by omega)
        rw [if_pos again, index_succ]
        refine ⟨after, filled, reads, ?_⟩
        simp only [writes, Traced.put, List.length_append, List.length_singleton]
        omega
      · have stops : ¬UInt32.ofNat i < size := by
          rw [UInt32.lt_iff_toNat_lt, count]
          exact more
        rw [if_neg stops]
        refine ⟨_, rfl, rfl, ?_⟩
        simp only [Traced.put, List.length_append, List.length_singleton]
        omega

-----------------------------------------------------------------------------------------
-- Strings
-----------------------------------------------------------------------------------------

/-- A string of `len` characters at `t`. Its terminator is not at the last address, since the
pointer behind a string is a pointer, too.
-/
structure IsString (m : Chars) (t : Ptr) (len : Nat) : Prop where
  chars : ∀ i < len, m (t + BitVec.ofNat 32 i) ≠ 0
  terminated : m (t + BitVec.ofNat 32 len) = 0
  bounded : t.toNat + len + 1 < 4294967296

/-- What `strncpy` is for: it reads the string only, the `n` characters at `s` become the string
with zeros behind it, and nothing else is written. From NULL it writes no more than that.
-/
structure StrncpyContract (m : Chars) (s t : Ptr) (n len : Nat) (after : Traced) : Prop where
  reads : t ≠ 0 → ∀ a ∈ after.reads, t.toNat ≤ a.toNat ∧ a.toNat ≤ t.toNat + len
  written : t ≠ 0 → ∀ i < n, after.mem (s + BitVec.ofNat 32 i)
    = if i < len then m (t + BitVec.ofNat 32 i) else 0
  writes : t ≠ 0 → ∀ a, a ∈ after.writes ↔ s.toNat ≤ a.toNat ∧ a.toNat < s.toNat + n
  null : t = 0 → after.writes.length ≤ n

/-- Where the copies fall on characters that are still to be read, they are the same characters. -/
def Chars.Repeats (m : Chars) (s t : Ptr) (n : Nat) : Prop :=
  s ≤ t ∨ ∀ i < n, s.toNat - t.toNat ≤ i →
    m (t + BitVec.ofNat 32 i) = m (t + BitVec.ofNat 32 (i - (s.toNat - t.toNat)))

theorem mem_addresses {p a : Ptr} {k : Nat} (room : p.toNat + k ≤ 4294967296)
    : a ∈ addresses p k ↔ p.toNat ≤ a.toNat ∧ a.toNat < p.toNat + k := by
  simp only [addresses, List.mem_map, List.mem_range]
  constructor
  · rintro ⟨i, inside, rfl⟩
    rw [offset_toNat (by omega)]
    omega
  · rintro ⟨low, high⟩
    refine ⟨a.toNat - p.toNat, by omega, ?_⟩
    apply BitVec.eq_of_toNat_eq
    rw [offset_toNat (by omega)]
    omega

/-- A copy does not reach the addresses outside its destination. -/
theorem copyFront_outside {k : Nat} {x : Ptr} (room : s.toNat + k ≤ 4294967296)
    (outside : x.toNat < s.toNat ∨ s.toNat + k ≤ x.toNat)
    : m.copyFront s t k x = m x := by
  induction k with
  | zero => rfl
  | succ k ih =>
      have other : x ≠ s + BitVec.ofNat 32 k := by
        rintro rfl
        rw [offset_toNat (by omega)] at outside
        omega
      rw [Chars.copyFront, Function.update_of_ne other, ih (by omega) (by omega)]

/-- A copied character stays as it is. -/
theorem copyFront_copied {k i : Nat} (inside : i < k) (room : s.toNat + k ≤ 4294967296)
    : m.copyFront s t k (s + BitVec.ofNat 32 i)
      = m.copyFront s t i (t + BitVec.ofNat 32 i) := by
  induction k with
  | zero => omega
  | succ k ih =>
      rw [Chars.copyFront]
      by_cases last : i = k
      · rw [last, Function.update_self]
      · have other : s + BitVec.ofNat 32 i ≠ s + BitVec.ofNat 32 k := by
          intro same
          have addresses := congrArg BitVec.toNat same
          rw [offset_toNat (by omega), offset_toNat (by omega)] at addresses
          omega
        rw [Function.update_of_ne other, ih (by omega) (by omega)]

/-- A character that is read after it has been overwritten is the copy of an earlier one. -/
theorem copyFront_read {k i : Nat} (inside : i < k) (roomS : s.toNat + k ≤ 4294967296)
    (roomT : t.toNat + k ≤ 4294967296)
    : m.copyFront s t k (s + BitVec.ofNat 32 i)
      = if s ≤ t ∨ i < s.toNat - t.toNat then m (t + BitVec.ofNat 32 i)
        else m.copyFront s t k (s + BitVec.ofNat 32 (i - (s.toNat - t.toNat))) := by
  rw [copyFront_copied inside roomS]
  have address : (t + BitVec.ofNat 32 i).toNat = t.toNat + i := offset_toNat (by omega)
  split
  · rename_i fresh
    rw [BitVec.le_def] at fresh
    exact copyFront_outside (by omega) (by omega)
  · rename_i overwritten
    rw [BitVec.le_def] at overwritten
    have same : t + BitVec.ofNat 32 i = s + BitVec.ofNat 32 (i - (s.toNat - t.toNat)) := by
      apply BitVec.eq_of_toNat_eq
      rw [address, offset_toNat (by omega)]
      omega
    rw [same, copyFront_copied (by omega) (by omega), copyFront_copied (by omega) roomS]

/-- The copy shows the characters as they were exactly when no overwritten one would differ. -/
theorem copyFront_eq_iff {k : Nat} (roomS : s.toNat + k ≤ 4294967296)
    (roomT : t.toNat + k ≤ 4294967296)
    : (∀ i < k, m.copyFront s t k (s + BitVec.ofNat 32 i) = m (t + BitVec.ofNat 32 i))
      ↔ m.Repeats s t k := by
  constructor
  · intro right
    by_cases below : s ≤ t
    · exact .inl below
    · refine .inr fun i inside late => ?_
      have overwritten : ¬(s ≤ t ∨ i < s.toNat - t.toNat) := not_or.mpr ⟨below, by omega⟩
      have read := copyFront_read (m := m) inside roomS roomT
      rw [if_neg overwritten, right i inside, right _ (by omega)] at read
      exact read
  · rintro repeats i inside
    induction i using Nat.strong_induction_on with
    | _ i ih =>
      rw [copyFront_read inside roomS roomT]
      split
      · rfl
      · rename_i overwritten
        simp only [BitVec.le_def, not_or] at overwritten
        rcases repeats with below | same
        · exact absurd below overwritten.1
        · have earlier : i - (s.toNat - t.toNat) < i := by omega
          rw [ih _ earlier (by omega), same i inside (by omega)]

/-- While the source lies in the address space, the first loop does it all. -/
theorem strncpy_short (dest : s ≠ 0) (valid : t ≠ 0) (short : t.toNat + size.toNat < 4294967296)
    (enough : size.toNat + 1 < fuel)
    : strncpy fuel m s t size = some (s, Traced.front m s t size.toNat) := by
  have rounds : strncpyRounds t size.toNat = size.toNat := by
    rw [strncpyRounds, if_neg valid]
    omega
  have start := strncpy_start (m := m) (s := s) (show strncpyRounds t size.toNat < fuel by omega)
  have more : t + BitVec.ofNat 32 size.toNat ≠ 0 := by
    intro zero
    have address : (t + BitVec.ofNat 32 size.toNat).toNat = t.toNat + size.toNat :=
      offset_toNat short
    have positive : t.toNat ≠ 0 := fun null => valid (BitVec.eq_of_toNat_eq null)
    rw [zero] at address
    simp at address
    omega
  rw [rounds] at start
  simp only [strncpy, if_neg dest, start, Option.bind_eq_bind, Option.bind_some, if_neg more]

/-- The second loop writes, but what has been read is settled before it. -/
theorem strncpy_returns (m : Chars) (t : Ptr) (dest : s ≠ 0) (enough : size.toNat + 1 < fuel)
    : ∃ after, strncpy fuel m s t size = some (s, after)
      ∧ after.reads = addresses t (strncpyRounds t size.toNat)
      ∧ (t = 0 → after.writes.length = size.toNat + 1) := by
  have rounds : strncpyRounds t size.toNat ≤ size.toNat := by
    unfold strncpyRounds
    split <;> omega
  have start := strncpy_start (m := m) (s := s) (show strncpyRounds t size.toNat < fuel by omega)
  obtain ⟨after, filled, reads, writes⟩ := strncpy_fill
    (Traced.front m s t (strncpyRounds t size.toNat))
    (s + BitVec.ofNat 32 (strncpyRounds t size.toNat)) rounds (show _ < fuel by omega)
  by_cases ended : t + BitVec.ofNat 32 (strncpyRounds t size.toNat) = 0
  · refine ⟨after, ?_, reads, ?_⟩
    · simp only [strncpy, if_neg dest, start, Option.bind_eq_bind, Option.bind_some, if_pos ended,
        filled]
    · rintro rfl
      simpa [Traced.front, strncpyRounds, addresses] using writes
  · refine ⟨Traced.front m s t (strncpyRounds t size.toNat), ?_, rfl, ?_⟩
    · simp only [strncpy, if_neg dest, start, Option.bind_eq_bind, Option.bind_some, if_neg ended]
    · rintro rfl
      exact absurd (by simp [strncpyRounds]) ended

/-- Behind the terminator the first loop goes on reading. -/
theorem strncpy_reads_behind {len : Nat} (valid : t ≠ 0) (string : IsString m t len)
    (long : len + 1 < size.toNat)
    : t + BitVec.ofNat 32 (len + 1) ∈ addresses t (strncpyRounds t size.toNat) := by
  have bounded := string.bounded
  simp only [addresses, List.mem_map, List.mem_range]
  refine ⟨len + 1, ?_, rfl⟩
  rw [strncpyRounds, if_neg valid]
  omega

/-- `strncpy` meets its contract in exactly the cases where the count does not go beyond the
terminator, so that neither loop has anything to pad.
-/
theorem strncpy_contract_iff (m : Chars) (s t : Ptr) (n : UInt32) {len : Nat}
    (source : t ≠ 0 → IsString m t len) (room : s.toNat + n.toNat ≤ 4294967296) {fuel : Nat}
    (enough : n.toNat + 1 < fuel)
    : ∃ after, strncpy fuel m s t n = some (s, after)
      ∧ (s = 0 → after = { mem := m, reads := [], writes := [] })
      ∧ (s ≠ 0 → (StrncpyContract m s t n.toNat len after
        ↔ t ≠ 0 ∧ n.toNat ≤ len + 1 ∧ m.Repeats s t n.toNat)) := by
  by_cases dest : s = 0
  · refine ⟨{ mem := m, reads := [], writes := [] }, ?_, fun _ => rfl,
      fun other => absurd dest other⟩
    rw [strncpy, if_pos dest]
  by_cases short : t ≠ 0 ∧ n.toNat ≤ len + 1
  · obtain ⟨valid, short⟩ := short
    have string := source valid
    have bounded := string.bounded
    refine ⟨_, strncpy_short dest valid (by omega) enough, fun null => absurd null dest, fun _ => ?_⟩
    have shown := copyFront_eq_iff (m := m) room (show t.toNat + n.toNat ≤ 4294967296 by omega)
    have terminated : ∀ i < n.toNat, m (t + BitVec.ofNat 32 i)
        = if i < len then m (t + BitVec.ofNat 32 i) else 0 := by
      intro i inside
      split
      · rfl
      · rw [show i = len by omega]
        exact string.terminated
    constructor
    · intro contract
      refine ⟨valid, short, shown.mp fun i inside => ?_⟩
      rw [terminated i inside]
      exact contract.written valid i inside
    · rintro ⟨-, -, repeats⟩
      refine ⟨fun _ a read => ?_, fun _ i inside => ?_, fun _ a => mem_addresses room,
        fun null => absurd null valid⟩
      · have inString := (mem_addresses (show t.toNat + n.toNat ≤ 4294967296 by omega)).mp read
        omega
      · rw [← terminated i inside]
        exact shown.mpr repeats i inside
  · obtain ⟨after, run, reads, writes⟩ := strncpy_returns m t dest enough
    refine ⟨after, run, fun null => absurd null dest, fun _ => ?_⟩
    refine iff_of_false (fun contract => ?_) (fun right => short ⟨right.1, right.2.1⟩)
    by_cases null : t = 0
    · have few := contract.null null
      rw [writes null] at few
      omega
    · have string := source null
      have bounded := string.bounded
      have long : ¬n.toNat ≤ len + 1 := fun few => short ⟨null, few⟩
      have behind := strncpy_reads_behind null string (show len + 1 < n.toNat by omega)
      rw [← reads] at behind
      have inside := contract.reads null _ behind
      rw [offset_toNat (by omega)] at inside
      omega

/-- The string `ab` at 100, with a `c` behind its terminator. -/
def letters : Chars := fun x => if x = 100 then 97 else if x = 101 then 98 else if x = 103 then 99 else 0

theorem letters_string : IsString letters 100 2 := ⟨by decide, by decide, by decide⟩

/-- The string with its terminator. -/
theorem strncpy_contract_iff_letters
    : ∃ after, strncpy 5 letters 200 100 3 = some (200, after)
      ∧ StrncpyContract letters 200 100 3 2 after := by
  obtain ⟨after, run, -, right⟩ := strncpy_contract_iff letters 200 100 3
    (fun _ => letters_string) (by decide) (by decide : _ < 5)
  refine ⟨after, run, (right (by decide)).mpr ⟨by decide, by decide, .inr fun i inside late => ?_⟩⟩
  have few : i < 3 := inside
  have far : 100 ≤ i := late
  omega

/-- One character more is taken from behind the terminator, and from NULL come five zeros. -/
theorem strncpy_overruns
    : (∃ after, strncpy 6 letters 200 100 4 = some (200, after)
        ∧ 103 ∈ after.reads ∧ after.mem 203 = 99 ∧ ¬StrncpyContract letters 200 100 4 2 after)
      ∧ ∃ after, strncpy 6 letters 200 0 4 = some (200, after)
        ∧ after.writes = [200, 201, 202, 203, 204]
        ∧ ¬StrncpyContract letters 200 0 4 2 after := by
  refine ⟨⟨_, rfl, by decide, by decide, fun contract => ?_⟩, ⟨_, rfl, by decide, fun contract => ?_⟩⟩
  · exact absurd (contract.reads (by decide) 103 (by decide)) (by decide)
  · exact absurd (contract.null rfl) (by decide)

end TelinkSdk
