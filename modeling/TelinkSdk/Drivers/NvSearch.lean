import Mathlib.Data.List.Induction
import TelinkSdk.Drivers.NvSector

/-! What the searches of the NV driver find: the four-slot rounds of `nv_index_read` are one
scan of the table, and over a chain that scan is a search in the list of its entries.
-/

namespace TelinkSdk

open Nor

-----------------------------------------------------------------------------------------
-- The last index of a list that meets a test
-----------------------------------------------------------------------------------------

/-- The last number below `n` that meets `p`. -/
def lastBelow (n : Nat) (p : Nat → Bool) : Option Nat := ((List.range n).filter p).getLast?

@[simp]
theorem lastBelow_zero (p : Nat → Bool) : lastBelow 0 p = none := rfl

theorem lastBelow_succ (n : Nat) (p : Nat → Bool)
    : lastBelow (n + 1) p = if p n then some n else lastBelow n p := by
  unfold lastBelow
  rw [List.range_succ, List.filter_append, List.getLast?_append]
  cases hit : p n <;> simp [hit]

/-- A scan of `low + high` numbers looks at the upper ones first. -/
theorem lastBelow_add (low high : Nat) (p : Nat → Bool)
    : lastBelow (low + high) p
      = ((lastBelow high (fun i => p (low + i))).map (low + ·)).or (lastBelow low p) := by
  induction high with
  | zero => simp
  | succ high ih =>
      rw [← Nat.add_assoc, lastBelow_succ, lastBelow_succ, ih]
      cases p (low + high) <;> simp

theorem lastBelow_congr {n : Nat} {p q : Nat → Bool} (same : ∀ i < n, p i = q i)
    : lastBelow n p = lastBelow n q := by
  unfold lastBelow
  rw [List.filter_congr (fun i member => same i (List.mem_range.mp member))]

/-- The number that is found is the last one, by induction on the numbers left. -/
theorem lastBelow_eq_some_iff {n i : Nat} {p : Nat → Bool}
    : lastBelow n p = some i ↔ i < n ∧ p i = true ∧ ∀ j, i < j → j < n → p j = false := by
  induction n with
  | zero => simp
  | succ n ih =>
      rw [lastBelow_succ]
      by_cases last : p n = true
      · rw [if_pos last, Option.some_inj]
        constructor
        · rintro rfl
          exact ⟨Nat.lt_succ_self _, last, fun j _ _ => by omega⟩
        · rintro ⟨inside, _, later⟩
          rcases Nat.lt_or_eq_of_le (Nat.le_of_lt_succ inside) with before | same
          · exact absurd last (by rw [later n before (Nat.lt_succ_self n)]; decide)
          · exact same.symm
      · rw [if_neg last, ih]
        constructor
        · rintro ⟨inside, hit, later⟩
          refine ⟨Nat.lt_succ_of_lt inside, hit, fun j after below => ?_⟩
          rcases Nat.lt_or_eq_of_le (Nat.le_of_lt_succ below) with earlier | rfl
          · exact later j after earlier
          · exact eq_false_of_ne_true last
        · rintro ⟨inside, hit, later⟩
          have before : i < n := by
            rcases Nat.lt_or_eq_of_le (Nat.le_of_lt_succ inside) with before | rfl
            · exact before
            · exact absurd hit last
          exact ⟨before, hit, fun j after below => later j after (Nat.lt_succ_of_lt below)⟩

theorem lastBelow_some {n i : Nat} {p : Nat → Bool} (found : lastBelow n p = some i)
    : i < n ∧ p i = true :=
  have last := lastBelow_eq_some_iff.mp found
  ⟨last.1, last.2.1⟩

theorem lastBelow_eq_none_iff {n : Nat} {p : Nat → Bool}
    : lastBelow n p = none ↔ ∀ i < n, p i = false := by
  simp [lastBelow]

theorem lastBelow_none {n : Nat} {p : Nat → Bool} (missing : ∀ i < n, p i = false)
    : lastBelow n p = none :=
  lastBelow_eq_none_iff.mpr missing

/-- Numbers that fail the test do not matter to the scan. -/
theorem lastBelow_of_le {used n : Nat} {p : Nat → Bool} (le : used ≤ n)
    (rest : ∀ i, used ≤ i → i < n → p i = false)
    : lastBelow n p = lastBelow used p := by
  obtain ⟨extra, rfl⟩ := Nat.exists_eq_add_of_le le
  rw [lastBelow_add, lastBelow_none (fun i small => rest _ (by omega) (by omega))]
  simp

/-- Scanning the positions of a list finds the last element that meets the test. -/
theorem lastBelow_list {α : Type} (l : List α) (p : α → Bool) {q : Nat → Bool}
    (agree : ∀ i (inside : i < l.length), q i = p l[i])
    : (lastBelow l.length q).bind (fun i => l[i]?) = (l.filter p).getLast? := by
  induction l using List.reverseRecOn with
  | nil => rfl
  | append_singleton rest last ih =>
      have final : q rest.length = p last := by
        have here := agree rest.length (by simp)
        rwa [List.getElem_concat_length rfl] at here
      have earlier : ∀ i (inside : i < rest.length), q i = p rest[i] := by
        intro i inside
        have here := agree i (by simp; omega)
        rwa [List.getElem_append_left inside] at here
      rw [List.length_append, List.length_singleton, lastBelow_succ, final, List.filter_append,
        List.getLast?_append]
      cases hit : p last with
      | true => simp [hit]
      | false =>
          have prior := ih earlier
          simp only [List.filter_cons_of_neg, hit, Bool.false_eq_true, not_false_eq_true,
            List.filter_nil, List.getLast?_nil, Option.none_or, if_false]
          rw [← prior]
          cases found : lastBelow rest.length q with
          | none => rfl
          | some i =>
              have inside := (lastBelow_some found).1
              simp only [Option.bind_some]
              exact List.getElem?_append_left inside

-----------------------------------------------------------------------------------------
-- The rounds of nv_index_read
-----------------------------------------------------------------------------------------

theorem nvIndexRead.chunk_eq (m : Mem) (hit : InfoIdx → Bool) (addr count : Nat)
    : nvIndexRead.chunk m hit addr count
      = lastBelow count (fun i => hit (InfoIdx.load m (addr + i * sizeofInfoIdx))) := by
  induction count with
  | zero => rfl
  | succ count ih => rw [nvIndexRead.chunk, ih, lastBelow_succ]

/-- The rounds of four slots scan the whole table, by induction on the slots left. -/
theorem nvIndexRead.loop_eq (m : Mem) (hit : InfoIdx → Bool) (fuel left start : Nat)
    (enough : left ≤ fuel)
    : nvIndexRead.loop m hit fuel left (start + left * sizeofInfoIdx) left
      = lastBelow left (fun i => hit (InfoIdx.load m (start + i * sizeofInfoIdx))) := by
  induction fuel generalizing left with
  | zero =>
      have empty : left = 0 := by omega
      subst left
      rfl
  | succ fuel ih =>
      rw [nvIndexRead.loop]
      by_cases empty : left = 0
      · subst left
        rfl
      · have width : (if left > 4 then 4 else left) ≤ left := by split <;> omega
        have positive : 0 < (if left > 4 then 4 else left) := by split <;> omega
        rw [if_pos (Nat.pos_of_ne_zero empty)]
        generalize (if left > 4 then 4 else left) = taken at width positive
        obtain ⟨rest, rfl⟩ := Nat.exists_eq_add_of_le' width
        have back : start + (rest + taken) * sizeofInfoIdx - taken * sizeofInfoIdx
            = start + rest * sizeofInfoIdx := by
          simp only [sizeofInfoIdx]
          omega
        simp only [back, Nat.add_sub_cancel, nvIndexRead.chunk_eq]
        rw [lastBelow_add, ih rest (by omega)]
        have shifted : lastBelow taken
              (fun i => hit (InfoIdx.load m (start + rest * sizeofInfoIdx + i * sizeofInfoIdx)))
            = lastBelow taken (fun i => hit (InfoIdx.load m (start + (rest + i) * sizeofInfoIdx))) := by
          apply lastBelow_congr
          intro i _
          rw [Nat.add_mul, Nat.add_assoc]
        rw [shifted]
        cases lastBelow taken
          (fun i => hit (InfoIdx.load m (start + (rest + i) * sizeofInfoIdx))) <;> simp

/-- `nv_index_read` finds the last slot of the table that meets its comparison. -/
theorem nvIndexRead_eq (b : Build) (m : Mem) (id : Nat) (itemId : UInt8) (len opSect total : Nat)
    : nvIndexRead b m id itemId len opSect total
      = lastBelow total (fun i =>
          nvIndexRead.hit itemId len
            (InfoIdx.load m (moduleIdxStart b id opSect + i * sizeofInfoIdx))) :=
  nvIndexRead.loop_eq m _ total total _ (Nat.le_refl _)

-----------------------------------------------------------------------------------------
-- Searching a chain
-----------------------------------------------------------------------------------------

theorem hit_idle_false (itemId : UInt8) (len : Nat) : nvIndexRead.hit itemId len InfoIdx.idle = false := by
  unfold nvIndexRead.hit
  split
  · rename_i same
    simp [InfoIdx.idle, same, itemFieldIdle]
  · have state : (InfoIdx.idle.usedState == itemFieldValid) = false := by decide
    simp [state]

/-- Every entry of a chain is in use: its size is no idle one. -/
theorem Chain.hit_used {s : Sector} {es : List InfoIdx} {m : Mem} (chain : Chain s es m)
    {e : InfoIdx} (member : e ∈ es) (len : Nat)
    : nvIndexRead.hit itemFieldIdle len e = true := by
  obtain ⟨low, positive, high⟩ := chain.linked.inside member
  have fits := chain.fits
  have small := s.size_small
  have size : e.size ≠ 0xffff := by
    simp only [Sector.ctx, Sector.limit] at *
    omega
  simp [nvIndexRead.hit, size]

/-- The scan of a sector's table stops at the end of its chain. -/
theorem Chain.scan {s : Sector} {es : List InfoIdx} {m : Mem} (chain : Chain s es m)
    (itemId : UInt8) (len : Nat)
    : lastBelow s.slots (fun i => nvIndexRead.hit itemId len (s.entry m i))
      = lastBelow es.length (fun i => nvIndexRead.hit itemId len (s.entry m i)) := by
  apply lastBelow_of_le chain.count
  intro i low high
  have idle : s.entry m i = InfoIdx.idle := InfoIdx.load_blank (chain.idle i low high)
  rw [idle, hit_idle_false]

/-- The search for a free slot finds the last entry of the chain. -/
theorem Chain.scan_used {s : Sector} {es : List InfoIdx} {m : Mem} (chain : Chain s es m)
    (len : Nat)
    : lastBelow s.slots (fun i => nvIndexRead.hit itemFieldIdle len (s.entry m i))
      = if es.length = 0 then none else some (es.length - 1) := by
  rw [chain.scan]
  cases count : es.length with
  | zero => rfl
  | succ n =>
      have last : nvIndexRead.hit itemFieldIdle len (s.entry m n) = true := by
        rw [chain.slot n (by omega)]
        exact chain.hit_used (List.getElem_mem _) len
      rw [lastBelow_succ, if_pos last]
      simp

/-- The entry an item search over the chain ends at. -/
def lastEntry (es : List InfoIdx) (itemId : UInt8) (len : Nat) : Option InfoIdx :=
  (es.filter (nvIndexRead.hit itemId len)).getLast?

theorem Chain.scan_entry {s : Sector} {es : List InfoIdx} {m : Mem} (chain : Chain s es m)
    (itemId : UInt8) (len : Nat)
    : (lastBelow s.slots (fun i => nvIndexRead.hit itemId len (s.entry m i))).map (s.entry m)
      = lastEntry es itemId len := by
  rw [chain.scan, lastEntry]
  rw [← lastBelow_list es (nvIndexRead.hit itemId len)
    (fun i inside => congrArg (nvIndexRead.hit itemId len) (chain.slot i inside))]
  cases found : lastBelow es.length (fun i => nvIndexRead.hit itemId len (s.entry m i)) with
  | none => rfl
  | some i =>
      have inside := (lastBelow_some found).1
      simp [chain.slot i inside, List.getElem?_eq_getElem inside]

end TelinkSdk
