import Mathlib.Data.List.Count
import Mathlib.Data.List.Sort
import Mathlib.Order.Basic

/-! Insertion sort inside a buffer, and what the order of a buffer says about its middle when some
of its values are wild.
-/

namespace Sorts

variable {α : Type*} [LinearOrder α]

/-- The first values of a buffer. -/
def front (buf : Nat → α) (n : Nat) : List α := (List.range n).map buf

/-- Values that are greater than `temp` move one place up, down from a place, and `temp` goes where
they stop.
-/
def insertDown (temp : α) : Nat → (Nat → α) → Nat → α
  | 0, buf => Function.update buf 0 temp
  | j + 1, buf =>
      if buf j > temp then insertDown temp j (Function.update buf (j + 1) (buf j))
      else Function.update buf (j + 1) temp

/-- One round of the sort: a value that is smaller than the one before it is inserted. -/
def insertRound (buf : Nat → α) (i : Nat) : Nat → α :=
  if buf i < buf (i - 1) then insertDown (buf i) i buf else buf

/-- The rounds for the places `1` to `n - 1`. -/
def insertionSort (n : Nat) (buf : Nat → α) : Nat → α :=
  (List.range (n - 1)).foldl (fun buf i => insertRound buf (i + 1)) buf

section Front

omit [LinearOrder α]

@[simp]
theorem front_length (buf : Nat → α) (n : Nat) : (front buf n).length = n := by simp [front]

theorem front_succ (buf : Nat → α) (n : Nat) : front buf (n + 1) = front buf n ++ [buf n] := by
  simp [front, List.range_succ]

theorem front_congr {buf buf' : Nat → α} {n : Nat} (same : ∀ i < n, buf' i = buf i)
    : front buf' n = front buf n :=
  List.map_congr_left fun i inside => same i (List.mem_range.mp inside)

theorem front_update (buf : Nat → α) {n i : Nat} (behind : n ≤ i) (value : α)
    : front (Function.update buf i value) n = front buf n :=
  front_congr fun j inside => Function.update_of_ne (by omega) _ _

theorem front_getElem (buf : Nat → α) {n i : Nat} (inside : i < (front buf n).length)
    : (front buf n)[i] = buf i := by
  simp [front]

end Front

/-- A sorted list with one more value at its end. -/
theorem pairwise_concat {l : List α} {last : α}
    : (l ++ [last]).Pairwise (· ≤ ·) ↔ l.Pairwise (· ≤ ·) ∧ ∀ a ∈ l, a ≤ last := by
  simp [List.pairwise_append]

/-- Insertion leaves what is behind the place, and adds its value to what is before. By induction on
the places.
-/
theorem insertDown_spec (temp : α) (i : Nat) (buf : Nat → α)
    (sorted : (front buf i).Pairwise (· ≤ ·))
    : (front (insertDown temp i buf) (i + 1)).Pairwise (· ≤ ·)
      ∧ (front (insertDown temp i buf) (i + 1)).Perm (front buf i ++ [temp])
      ∧ ∀ k, i < k → insertDown temp i buf k = buf k := by
  induction i generalizing buf with
  | zero =>
      refine ⟨?_, ?_, fun k behind => Function.update_of_ne (by omega) _ _⟩
      · simp [front]
      · simp [insertDown, front]
  | succ j ih =>
      rw [front_succ, pairwise_concat] at sorted
      rw [insertDown]
      split_ifs with greater
      · have kept := front_update buf (Nat.le_succ j) (buf j)
        obtain ⟨sorted', perm, behind⟩ :=
          ih (Function.update buf (j + 1) (buf j)) (kept.symm ▸ sorted.1)
        rw [kept] at perm
        have last : insertDown temp j (Function.update buf (j + 1) (buf j)) (j + 1) = buf j := by
          rw [behind (j + 1) (Nat.lt_succ_self j), Function.update_self]
        rw [front_succ, last, front_succ buf j]
        refine ⟨pairwise_concat.mpr ⟨sorted', fun a mem => ?_⟩, ?_, fun k after => ?_⟩
        · rcases List.mem_append.mp (perm.mem_iff.mp mem) with old | new
          · exact sorted.2 a old
          · rw [List.mem_singleton.mp new]
            exact le_of_lt greater
        · calc
            (front (insertDown temp j (Function.update buf (j + 1) (buf j))) (j + 1) ++ [buf j]).Perm
                (front buf j ++ [temp] ++ [buf j]) := perm.append_right _
            List.Perm _ (front buf j ++ [buf j] ++ [temp]) := by
              rw [List.append_assoc, List.append_assoc]
              exact (List.Perm.swap _ _ _).append_left _
        · rw [behind k (by omega), Function.update_of_ne (by omega)]
      · rw [front_succ, front_update buf (Nat.le_refl (j + 1)) temp, Function.update_self,
          front_succ buf j]
        refine ⟨pairwise_concat.mpr ⟨pairwise_concat.mpr sorted, fun a mem => ?_⟩, .refl _,
          fun k after => Function.update_of_ne (by omega) _ _⟩
        rcases List.mem_append.mp mem with before | last
        · exact (sorted.2 a before).trans (not_lt.mp greater)
        · rw [List.mem_singleton.mp last]
          exact not_lt.mp greater

/-- A round sorts one more value. -/
theorem insertRound_spec (buf : Nat → α) {i : Nat} (pos : 0 < i)
    (sorted : (front buf i).Pairwise (· ≤ ·))
    : (front (insertRound buf i) (i + 1)).Pairwise (· ≤ ·)
      ∧ (front (insertRound buf i) (i + 1)).Perm (front buf (i + 1))
      ∧ ∀ k, i < k → insertRound buf i k = buf k := by
  rw [insertRound]
  split_ifs with smaller
  · have spec := insertDown_spec (buf i) i buf sorted
    rwa [← front_succ] at spec
  · refine ⟨?_, .refl _, fun _ _ => rfl⟩
    obtain ⟨j, rfl⟩ := Nat.exists_eq_add_of_lt pos
    simp only [Nat.zero_add, Nat.add_sub_cancel, not_lt] at smaller sorted ⊢
    have before := sorted
    rw [front_succ, pairwise_concat] at before
    rw [front_succ, pairwise_concat]
    refine ⟨sorted, fun a mem => ?_⟩
    rw [front_succ] at mem
    rcases List.mem_append.mp mem with earlier | last
    · exact (before.2 a earlier).trans smaller
    · rw [List.mem_singleton.mp last]
      exact smaller

/-- The sort sorts. By induction on the rounds. -/
theorem insertionSort_spec (n : Nat) (buf : Nat → α)
    : (front (insertionSort n buf) n).Pairwise (· ≤ ·)
      ∧ (front (insertionSort n buf) n).Perm (front buf n) := by
  have rounds (m : Nat) :
      let after := (List.range m).foldl (fun buf i => insertRound buf (i + 1)) buf
      (front after (m + 1)).Pairwise (· ≤ ·) ∧ (front after (m + 1)).Perm (front buf (m + 1))
        ∧ ∀ k, m < k → after k = buf k := by
    induction m with
    | zero => exact ⟨by simp [front], .refl _, fun _ _ => rfl⟩
    | succ m ih =>
        obtain ⟨sorted, perm, behind⟩ := ih
        rw [List.range_succ, List.foldl_append, List.foldl_cons, List.foldl_nil]
        obtain ⟨sorted', perm', behind'⟩ := insertRound_spec _ (Nat.succ_pos m) sorted
        refine ⟨sorted', perm'.trans ?_, fun k after => ?_⟩
        · rw [front_succ _ (m + 1), front_succ buf (m + 1), behind (m + 1) (Nat.lt_succ_self m)]
          exact perm.append_right _
        · rw [behind' k after, behind k (by omega)]
  cases n with
  | zero => exact ⟨by simp [front], by simp [front]⟩
  | succ m => exact ⟨(rounds m).1, (rounds m).2.1⟩

-----------------------------------------------------------------------------------------
-- The middle
-----------------------------------------------------------------------------------------

/-- When `k` values at most are below a bound, the ones from place `k` on are not. -/
theorem le_getElem_of_countP {l : List α} (sorted : l.Pairwise (· ≤ ·)) {lo : α} {k : Nat}
    (few : l.countP (· < lo) ≤ k) {i : Nat} (place : k ≤ i) (inside : i < l.length)
    : lo ≤ l[i] := by
  by_contra below
  rw [not_le] at below
  have small : ∀ a ∈ l.take (i + 1), (decide (a < lo)) = true := by
    intro a mem
    obtain ⟨j, bound, rfl⟩ := List.mem_take_iff_getElem.mp mem
    have ordered : l[j] ≤ l[i] := by
      rcases Nat.lt_or_ge j i with before | same
      · exact List.pairwise_iff_getElem.mp sorted j i _ inside before
      · exact le_of_eq (by congr 1; omega)
    exact decide_eq_true (lt_of_le_of_lt ordered below)
  have many : i + 1 ≤ l.countP (· < lo) := by
    calc
      i + 1 = (l.take (i + 1)).length := by rw [List.length_take]; omega
      _ = (l.take (i + 1)).countP (· < lo) := (List.countP_eq_length.mpr small).symm
      _ ≤ l.countP (· < lo) := (List.take_sublist _ _).countP_le
  omega

/-- When `k` values at most are above a bound, the ones before the last `k` are not. -/
theorem getElem_le_of_countP {l : List α} (sorted : l.Pairwise (· ≤ ·)) {hi : α} {k : Nat}
    (few : l.countP (hi < ·) ≤ k) {i : Nat} (place : i + k < l.length)
    : l[i] ≤ hi := by
  by_contra above
  rw [not_le] at above
  have large : ∀ a ∈ l.drop i, (decide (hi < a)) = true := by
    intro a mem
    obtain ⟨j, bound, rfl⟩ := List.mem_drop_iff_getElem.mp mem
    have ordered : l[i] ≤ l[i + j] := by
      rcases Nat.eq_zero_or_pos j with rfl | behind
      · exact le_refl _
      · exact List.pairwise_iff_getElem.mp sorted i (i + j) _ _ (by omega)
    exact decide_eq_true (lt_of_lt_of_le above ordered)
  have many : l.length - i ≤ l.countP (hi < ·) := by
    calc
      l.length - i = (l.drop i).length := List.length_drop.symm
      _ = (l.drop i).countP (hi < ·) := (List.countP_eq_length.mpr large).symm
      _ ≤ l.countP (hi < ·) := (List.drop_sublist _ _).countP_le
  omega

end Sorts
