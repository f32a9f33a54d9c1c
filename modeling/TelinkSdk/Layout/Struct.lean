import Mathlib.Tactic.Common
import Mathlib.Data.List.GetD
import Mathlib.Data.List.Nodup

/-! Records laid out member by member without gaps. -/

namespace Layout

variable {α : Type*} [DecidableEq α] {members : List (α × Nat)} {f g : α} {n k : Nat}

/-- The offset of a member: the sizes of the members before it. -/
def offsetOf : List (α × Nat) → α → Nat
  | [], _ => 0
  | (g, size) :: rest, f => if g = f then 0 else size + offsetOf rest f

/-- The size of the whole record. -/
def sizeOf : List (α × Nat) → Nat
  | [] => 0
  | (_, size) :: rest => size + sizeOf rest

/-- A member ends inside the record. -/
theorem offsetOf_add_le (member : (f, n) ∈ members) (names : (members.map Prod.fst).Nodup)
    : offsetOf members f + n ≤ sizeOf members := by
  induction members with
  | nil => simp at member
  | cons first rest ih =>
      obtain ⟨g, size⟩ := first
      simp only [List.map_cons, List.nodup_cons] at names
      simp only [offsetOf, sizeOf]
      rcases List.mem_cons.mp member with here | later
      · cases here
        rw [if_pos rfl]
        omega
      · have other : g ≠ f := by
          rintro rfl
          exact names.1 (List.mem_map.mpr ⟨_, later, rfl⟩)
        have inside := ih later names.2
        rw [if_neg other]
        omega

/-- Two members do not overlap. -/
theorem offsetOf_apart (memberF : (f, n) ∈ members) (memberG : (g, k) ∈ members)
    (names : (members.map Prod.fst).Nodup) (different : f ≠ g)
    : offsetOf members f + n ≤ offsetOf members g ∨ offsetOf members g + k ≤ offsetOf members f := by
  induction members with
  | nil => simp at memberF
  | cons first rest ih =>
      obtain ⟨h, size⟩ := first
      simp only [List.map_cons, List.nodup_cons] at names
      have absent {x : α} {m : Nat} (later : (x, m) ∈ rest) : h ≠ x := by
        rintro rfl
        exact names.1 (List.mem_map.mpr ⟨_, later, rfl⟩)
      rcases List.mem_cons.mp memberF with hereF | laterF
      · cases hereF
        rcases List.mem_cons.mp memberG with hereG | laterG
        · cases hereG
          exact absurd rfl different
        · left
          simp only [offsetOf, if_neg (absent laterG)]
          simp
      · rcases List.mem_cons.mp memberG with hereG | laterG
        · cases hereG
          right
          simp only [offsetOf, if_neg (absent laterF)]
          simp
        · simp only [offsetOf, if_neg (absent laterF), if_neg (absent laterG)]
          have apart := ih laterF laterG names.2
          omega

/-- The bytes of a record whose members have these values, zero behind a value that is too short. -/
def bytesOf {β : Type*} (zero : β) (values : α → List β) : List (α × Nat) → List β
  | [] => []
  | (f, size) :: rest =>
      (List.range size).map (fun i => (values f).getD i zero) ++ bytesOf zero values rest

theorem bytesOf_getD {β : Type*} {zero : β} {values : α → List β} {i : Nat}
    (member : (f, n) ∈ members) (names : (members.map Prod.fst).Nodup) (inside : i < n)
    : (bytesOf zero values members).getD (offsetOf members f + i) zero
      = (values f).getD i zero := by
  induction members with
  | nil => simp at member
  | cons first rest ih =>
      obtain ⟨g, size⟩ := first
      simp only [List.map_cons, List.nodup_cons] at names
      rcases List.mem_cons.mp member with here | later
      · cases here
        rw [offsetOf, if_pos rfl, Nat.zero_add, bytesOf, List.getD_append _ _ _ _ (by simpa)]
        simp [List.getD_eq_getElem?_getD, inside]
      · have other : g ≠ f := by
          rintro rfl
          exact names.1 (List.mem_map.mpr ⟨_, later, rfl⟩)
        rw [offsetOf, if_neg other, bytesOf, List.getD_append_right _ _ _ _ (by simp; omega),
          ← ih later names.2, List.length_map, List.length_range,
          show size + offsetOf rest f + i - size = offsetOf rest f + i by omega]

end Layout
