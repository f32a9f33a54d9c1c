import Mathlib.Data.List.Basic

/-! A round robin over places that are added while it goes on. The cursor moves to the next place,
and back to the first one behind the last. The cursor does not notice new places, but they lie
ahead of it, so that no place waits for longer than a turn over all of them.
-/

namespace Rotations

/-- The cursor after a turn, with so many places. -/
def next (cursor count : Nat) : Nat := if cursor + 1 < count then cursor + 1 else 0

/-- The places that are served in turns with these numbers of places. -/
def served : Nat → List Nat → List Nat
  | _, [] => []
  | cursor, count :: counts => cursor :: served (next cursor count) counts

/-- The cursor after the turns. -/
def after : Nat → List Nat → Nat
  | cursor, [] => cursor
  | cursor, count :: counts => after (next cursor count) counts

variable {cursor place count most : Nat} {counts : List Nat}

theorem next_lt (used : 0 < count) : next cursor count < count := by
  unfold next
  split <;> omega

@[simp]
theorem served_length (cursor : Nat) (counts : List Nat)
    : (served cursor counts).length = counts.length := by
  induction counts generalizing cursor with
  | nil => rfl
  | cons count counts ih => simp [served, ih]

theorem served_append (cursor : Nat) (first second : List Nat)
    : served cursor (first ++ second)
      = served cursor first ++ served (after cursor first) second := by
  induction first generalizing cursor with
  | nil => rfl
  | cons count first ih => simp [served, after, ih]

theorem after_append (cursor : Nat) (first second : List Nat)
    : after cursor (first ++ second) = after (after cursor first) second := by
  induction first generalizing cursor with
  | nil => rfl
  | cons count first ih => simp [after, ih]

/-- A place that lies ahead is served when the cursor gets there. -/
theorem served_ahead (ahead : cursor ≤ place) (known : ∀ count ∈ counts, place < count)
    (long : place < cursor + counts.length)
    : place ∈ served cursor counts := by
  induction counts generalizing cursor with
  | nil => simp at long; omega
  | cons count counts ih =>
      rw [served]
      rcases Nat.eq_or_lt_of_le ahead with rfl | later
      · exact List.mem_cons_self
      · have inside : place < count := known count List.mem_cons_self
        have moves : next cursor count = cursor + 1 := if_pos (by omega)
        rw [moves]
        apply List.mem_cons_of_mem
        apply ih later (fun n mem => known n (List.mem_cons_of_mem count mem))
        simp only [List.length_cons] at long
        omega

/-- A place that has been passed is served in the turn after the last place. -/
theorem served_passed (passed : place < cursor) (inside : cursor < most)
    (known : ∀ count ∈ counts, place < count) (bounded : ∀ count ∈ counts, count ≤ most)
    (long : most - cursor + place < counts.length)
    : place ∈ served cursor counts := by
  induction counts generalizing cursor with
  | nil => simp at long
  | cons count counts ih =>
      have later (n : Nat) (mem : n ∈ counts) : place < n :=
        known n (List.mem_cons_of_mem count mem)
      have bound : count ≤ most := bounded count List.mem_cons_self
      simp only [List.length_cons] at long
      rw [served]
      apply List.mem_cons_of_mem
      by_cases moves : cursor + 1 < count
      · rw [next, if_pos moves]
        exact ih (by omega) (by omega) later
          (fun n mem => bounded n (List.mem_cons_of_mem count mem)) (by omega)
      · rw [next, if_neg moves]
        exact served_ahead (Nat.zero_le _) later (by omega)

/-- In as many turns as there are places in the end, every place is served that was there from the
beginning, wherever the cursor stood.
-/
theorem mem_served (inside : cursor < most) (known : ∀ count ∈ counts, place < count)
    (bounded : ∀ count ∈ counts, count ≤ most) (long : most ≤ counts.length)
    : place ∈ served cursor counts := by
  rcases Nat.lt_or_ge place cursor with passed | ahead
  · exact served_passed passed inside known bounded (by omega)
  · have nonempty : counts ≠ [] := fun empty => by simp [empty] at long; omega
    obtain ⟨count, mem⟩ := List.exists_mem_of_ne_nil counts nonempty
    have below := known count mem
    have bound := bounded count mem
    exact served_ahead ahead known (by omega)

end Rotations
