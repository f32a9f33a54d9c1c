import Mathlib.Data.List.Range
import Mathlib.Logic.Function.Basic

/-! Ring buffers that overwrite their oldest entry when they are full. The pointers run through
twice as many values as there are slots, so that a full ring differs from an empty one.
-/

namespace Rings

/-- The slots, and the pointers to the next entry written and read. -/
structure OverwritingRing (α : Type*) where
  slots : Nat → α
  write : Nat
  read : Nat

variable {α : Type*} {capacity : Nat} {ring : OverwritingRing α} {x : α}

namespace OverwritingRing

/-- How many entries are waiting. -/
def waiting (capacity : Nat) (ring : OverwritingRing α) : Nat :=
  (ring.write + 2 * capacity - ring.read) % (2 * capacity)

/-- The entries from the oldest to the newest. -/
def contents (capacity : Nat) (ring : OverwritingRing α) : List α :=
  (List.range (ring.waiting capacity)).map fun i => ring.slots ((ring.read + i) % capacity)

/-- Two slots at least, pointers in their range, and no more entries than slots. -/
structure Valid (capacity : Nat) (ring : OverwritingRing α) : Prop where
  slots : 1 < capacity
  write : ring.write < 2 * capacity
  read : ring.read < 2 * capacity
  fits : ring.waiting capacity ≤ capacity

def empty (x : α) : OverwritingRing α where
  slots _ := x
  write := 0
  read := 0

/-- The new entry in its slot. -/
def store (capacity : Nat) (ring : OverwritingRing α) (x : α) : OverwritingRing α where
  slots := Function.update ring.slots (ring.write % capacity) x
  write := (ring.write + 1) % (2 * capacity)
  read := ring.read

/-- A new entry. When it is one too many, the read pointer follows the write pointer. -/
def push (capacity : Nat) (ring : OverwritingRing α) (x : α) : OverwritingRing α :=
  let stored := ring.store capacity x
  if stored.waiting capacity > capacity then
    { stored with read := (stored.write + 2 * capacity - capacity) % (2 * capacity) }
  else stored

/-- The oldest entry, and the ring without it. -/
def pop (capacity : Nat) (ring : OverwritingRing α) : α × OverwritingRing α :=
  (ring.slots (ring.read % capacity), { ring with read := (ring.read + 1) % (2 * capacity) })

-----------------------------------------------------------------------------------------
-- Pointers
-----------------------------------------------------------------------------------------

/-- The distance from a pointer to one that is `k` ahead. -/
theorem distance {m r k : Nat} (pointer : r < m) (less : k < m)
    : ((r + k) % m + m - r) % m = k := by
  by_cases wraps : r + k < m
  · rw [Nat.mod_eq_of_lt wraps, show r + k + m - r = k + m by omega, Nat.add_mod_right,
      Nat.mod_eq_of_lt less]
  · have behind : (r + k) % m = r + k - m := by
      rw [Nat.mod_eq_sub_mod (by omega), Nat.mod_eq_of_lt (by omega)]
    rw [behind, show r + k - m + m - r = k by omega, Nat.mod_eq_of_lt less]

/-- A pointer and its slot. -/
theorem slot_of_pointer (r i : Nat) : (r % (2 * capacity) + i) % capacity = (r + i) % capacity := by
  rw [Nat.add_mod, Nat.mod_mod_of_dvd r (Nat.dvd_mul_left capacity 2), ← Nat.add_mod]

/-- Fewer steps than slots do not come back to a slot. -/
theorem slots_apart {r i k : Nat} (before : i < k) (near : k < i + capacity)
    : (r + i) % capacity ≠ (r + k) % capacity := by
  intro same
  have multiple : capacity ∣ r + k - (r + i) :=
    Nat.dvd_of_mod_eq_zero (Nat.sub_mod_eq_zero_of_mod_eq same.symm)
  have least := Nat.le_of_dvd (by omega) multiple
  omega

theorem Valid.write_eq (valid : ring.Valid capacity)
    : ring.write = (ring.read + ring.waiting capacity) % (2 * capacity) := by
  have read := valid.read
  rw [waiting, Nat.add_mod_mod, show ring.read + (ring.write + 2 * capacity - ring.read)
    = ring.write + 2 * capacity by omega, Nat.add_mod_right, Nat.mod_eq_of_lt valid.write]

/-- Equal pointers stand for an empty ring. -/
theorem Valid.waiting_eq_zero_iff (valid : ring.Valid capacity)
    : ring.waiting capacity = 0 ↔ ring.write = ring.read := by
  have slots := valid.slots
  constructor
  · intro none
    rw [valid.write_eq, none, Nat.add_zero, Nat.mod_eq_of_lt valid.read]
  · intro same
    rw [waiting, same, Nat.add_sub_cancel_left, Nat.mod_self]

theorem empty_waiting (capacity : Nat) (x : α) : (empty x).waiting capacity = 0 := by
  simp [waiting, empty]

theorem empty_contents (capacity : Nat) (x : α) : (empty x).contents capacity = [] := by
  rw [contents, empty_waiting, List.range_zero, List.map_nil]

theorem empty_valid (slots : 1 < capacity) (x : α) : (empty x).Valid capacity where
  slots := slots
  write := show 0 < 2 * capacity by omega
  read := show 0 < 2 * capacity by omega
  fits := by simp [empty_waiting]

@[simp] theorem length_contents (capacity : Nat) (ring : OverwritingRing α)
    : (ring.contents capacity).length = ring.waiting capacity := by
  simp [contents]

-----------------------------------------------------------------------------------------
-- Storing and reading
-----------------------------------------------------------------------------------------

theorem Valid.store_write (valid : ring.Valid capacity)
    : (ring.store capacity x).write
      = (ring.read + (ring.waiting capacity + 1)) % (2 * capacity) := by
  rw [store, valid.write_eq, Nat.mod_add_mod, Nat.add_assoc]

theorem Valid.store_waiting (valid : ring.Valid capacity)
    : (ring.store capacity x).waiting capacity = ring.waiting capacity + 1 := by
  have slots := valid.slots
  have fits := valid.fits
  rw [waiting, valid.store_write]
  exact distance valid.read (by omega)

/-- What is found behind the read pointer after a new entry. -/
theorem Valid.store_slot (valid : ring.Valid capacity) {i : Nat}
    (inside : i ≤ ring.waiting capacity) (near : ring.waiting capacity < i + capacity)
    : (ring.store capacity x).slots ((ring.read + i) % capacity)
      = if i = ring.waiting capacity then x else ring.slots ((ring.read + i) % capacity) := by
  have slot : ring.write % capacity = (ring.read + ring.waiting capacity) % capacity := by
    rw [valid.write_eq]
    exact slot_of_pointer (ring.read + ring.waiting capacity) 0
  simp only [store, slot]
  by_cases last : i = ring.waiting capacity
  · rw [if_pos last, last, Function.update_self]
  · rw [if_neg last, Function.update_of_ne (slots_apart (by omega) near)]

theorem contents_append (capacity : Nat) (ring : OverwritingRing α) (x : α)
    : ring.contents capacity ++ [x]
      = (List.range (ring.waiting capacity + 1)).map fun i =>
          if i = ring.waiting capacity then x else ring.slots ((ring.read + i) % capacity) := by
  rw [List.range_succ, List.map_append, List.map_singleton, if_pos rfl, contents]
  congr 1
  apply List.map_congr_left
  intro i inside
  rw [if_neg (by have := List.mem_range.mp inside; omega)]

/-- The newest entries stay, as many as there are slots. -/
theorem Valid.push (valid : ring.Valid capacity) (x : α)
    : (ring.push capacity x).Valid capacity
      ∧ (ring.push capacity x).contents capacity
        = (ring.contents capacity ++ [x]).drop (ring.waiting capacity + 1 - capacity) := by
  have slots := valid.slots
  have fits := valid.fits
  have read := valid.read
  have waiting := valid.store_waiting (x := x)
  rw [contents_append]
  by_cases full : ring.waiting capacity = capacity
  · -- the oldest entry is gone, and the read pointer is one ahead
    have follows : ((ring.store capacity x).write + 2 * capacity - capacity) % (2 * capacity)
        = (ring.read + 1) % (2 * capacity) := by
      rw [valid.store_write, full, Nat.add_sub_assoc (by omega), Nat.mod_add_mod,
        show ring.read + (capacity + 1) + (2 * capacity - capacity)
          = ring.read + 1 + 2 * capacity by omega, Nat.add_mod_right]
    have pushed : ring.push capacity x
        = { ring.store capacity x with read := (ring.read + 1) % (2 * capacity) } := by
      rw [OverwritingRing.push, ← follows]
      exact if_pos (by omega)
    have count : (ring.push capacity x).waiting capacity = capacity := by
      rw [pushed, OverwritingRing.waiting]
      simp only [valid.store_write, full]
      rw [show ring.read + (capacity + 1) = ring.read + 1 + capacity by omega, ← Nat.mod_add_mod]
      exact distance (Nat.mod_lt _ (by omega)) (by omega)
    refine ⟨⟨slots, ?_, ?_, by omega⟩, ?_⟩
    · rw [pushed]
      exact Nat.mod_lt _ (by omega)
    · rw [pushed]
      exact Nat.mod_lt _ (by omega)
    · rw [contents, count, full, show capacity + 1 - capacity = 1 by omega,
        List.range_succ_eq_map, List.map_cons, List.drop_one, List.tail_cons, List.map_map]
      apply List.map_congr_left
      intro i inside
      have inRange := List.mem_range.mp inside
      have slot := valid.store_slot (x := x) (show i + 1 ≤ ring.waiting capacity by omega)
        (by omega)
      rw [pushed, slot_of_pointer, Nat.add_assoc, Nat.add_comm 1]
      rw [full] at slot
      exact slot
  · have pushed : ring.push capacity x = ring.store capacity x := by
      rw [OverwritingRing.push]
      exact if_neg (by omega)
    rw [pushed]
    refine ⟨⟨slots, Nat.mod_lt _ (by omega), valid.read, by omega⟩, ?_⟩
    rw [show ring.waiting capacity + 1 - capacity = 0 by omega, List.drop_zero, contents, waiting]
    apply List.map_congr_left
    intro i inside
    have inRange := List.mem_range.mp inside
    exact valid.store_slot (by omega) (by omega)

/-- The oldest entry is read. -/
theorem Valid.pop (valid : ring.Valid capacity) {oldest : α} {rest : List α}
    (busy : ring.contents capacity = oldest :: rest)
    : (ring.pop capacity).1 = oldest
      ∧ (ring.pop capacity).2.Valid capacity
      ∧ (ring.pop capacity).2.contents capacity = rest := by
  have slots := valid.slots
  have fits := valid.fits
  have counted : ring.waiting capacity = rest.length + 1 := by
    rw [← length_contents, busy, List.length_cons]
  have left : (ring.pop capacity).2.waiting capacity = rest.length := by
    simp only [OverwritingRing.pop, OverwritingRing.waiting]
    rw [valid.write_eq, counted,
      show ring.read + (rest.length + 1) = ring.read + 1 + rest.length by omega, ← Nat.mod_add_mod]
    exact distance (Nat.mod_lt _ (by omega)) (by omega)
  rw [contents, counted, List.range_succ_eq_map, List.map_cons, List.map_map, List.cons.injEq]
    at busy
  refine ⟨busy.1, ⟨slots, valid.write, Nat.mod_lt _ (by omega), by omega⟩, ?_⟩
  rw [contents, left]
  refine Eq.trans ?_ busy.2
  apply List.map_congr_left
  intro i _
  simp only [OverwritingRing.pop, Function.comp_apply]
  rw [slot_of_pointer, Nat.add_assoc, Nat.add_comm 1]

end OverwritingRing

end Rings
