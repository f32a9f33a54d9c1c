import Mathlib.Data.List.TakeWhile
import Mathlib.Data.List.Nodup

/-! Singly linked lists whose links lie in a store. Walks, insertions and removals are described
by what they do to the list of nodes that the links lead through.
-/

namespace Links

/-- A store that holds one link for each node. -/
class LinkView (σ : Type*) (α : outParam (Type*)) where
  next : σ → α → Option α

/-- A store whose links can be changed one at a time. -/
class LinkStore (σ : Type*) (α : outParam (Type*)) extends LinkView σ α where
  setNext : σ → α → Option α → σ
  next_setNext (m : σ) (a : α) (p : Option α) : next (setNext m a p) a = p
  next_setNext_of_ne (m : σ) {a b : α} (p : Option α) (other : b ≠ a)
    : next (setNext m a p) b = next m b

open LinkView LinkStore

attribute [simp] LinkStore.next_setNext

section View

variable {σ : Type*} {α : Type*} [LinkView σ α] {m m' : σ}

-----------------------------------------------------------------------------------------
-- Segments
-----------------------------------------------------------------------------------------

/-- The links lead from `p` through the nodes of the list to `q`. -/
def Segment (m : σ) : Option α → List α → Option α → Prop
  | p, [], q => p = q
  | p, a :: rest, q => p = some a ∧ Segment m (next m a) rest q

/-- The links lead from `p` through the nodes of the list and end. -/
abbrev ListAt (m : σ) (p : Option α) (l : List α) : Prop := Segment m p l none

theorem segment_append {p q : Option α} (l₁ l₂ : List α)
    : Segment m p (l₁ ++ l₂) q ↔ ∃ r, Segment m p l₁ r ∧ Segment m r l₂ q := by
  induction l₁ generalizing p with
  | nil => simp [Segment]
  | cons a rest ih => simp [Segment, ih, and_assoc]

/-- A segment depends on the links of its own nodes only. -/
theorem Segment.congr {p q : Option α} {l : List α} (segment : Segment m p l q)
    (kept : ∀ a ∈ l, next m' a = next m a)
    : Segment m' p l q := by
  induction l generalizing p with
  | nil => exact segment
  | cons a rest ih =>
      obtain ⟨first, rest⟩ := segment
      refine ⟨first, ?_⟩
      rw [kept a (by simp)]
      exact ih rest (fun b inside => kept b (by simp [inside]))

-----------------------------------------------------------------------------------------
-- Lists
-----------------------------------------------------------------------------------------

theorem ListAt.head {p : Option α} {l : List α} (list : ListAt m p l) : p = l.head? := by
  cases l with
  | nil => exact list
  | cons a rest => exact list.1

/-- The links determine the list. -/
theorem ListAt.unique {p : Option α} {l₁ l₂ : List α} (first : ListAt m p l₁)
    (second : ListAt m p l₂)
    : l₁ = l₂ := by
  induction l₁ generalizing p l₂ with
  | nil =>
      cases l₂ with
      | nil => rfl
      | cons b rest => exact absurd (first.symm.trans second.1) (by simp)
  | cons a rest ih =>
      cases l₂ with
      | nil => exact absurd (first.1.symm.trans second) (by simp)
      | cons b others =>
          have same : a = b := Option.some.inj (first.1.symm.trans second.1)
          subst same
          rw [ih first.2 second.2]

theorem ListAt.suffix {p : Option α} (l₁ : List α) {l₂ : List α} (list : ListAt m p (l₁ ++ l₂))
    : ListAt m l₂.head? l₂ := by
  obtain ⟨r, -, rest⟩ := (segment_append l₁ l₂).mp list
  rw [← ListAt.head rest]
  exact rest

/-- A node of a list links to the node behind it. -/
theorem ListAt.next_eq {p : Option α} {l₁ l₂ : List α} {a : α} (list : ListAt m p (l₁ ++ a :: l₂))
    : next m a = l₂.head? :=
  ListAt.head (list.suffix l₁).2

/-- A list that came back to a node would never end. -/
theorem ListAt.nodup {p : Option α} {l : List α} (list : ListAt m p l) : l.Nodup := by
  induction l generalizing p with
  | nil => exact List.nodup_nil
  | cons a rest ih =>
      refine List.nodup_cons.mpr ⟨fun again => ?_, ih list.2⟩
      obtain ⟨before, after, rfl⟩ := List.append_of_mem again
      have back : ListAt m (some a) (a :: after) := ListAt.suffix (a :: before) list
      have start : ListAt m (some a) (a :: (before ++ a :: after)) := ⟨rfl, list.2⟩
      have lengths := congrArg List.length (start.unique back)
      simp at lengths
      omega

/-- The node behind a node of the list is another node of the list. -/
theorem ListAt.next_mem {p : Option α} {l : List α} {a b : α} (list : ListAt m p l)
    (inside : a ∈ l) (link : next m a = some b)
    : b ∈ l ∧ b ≠ a := by
  obtain ⟨before, after, rfl⟩ := List.append_of_mem inside
  have suffix := list.suffix before
  cases after with
  | nil =>
      have ended : next m a = none := suffix.2
      exact absurd (link.symm.trans ended) (by simp)
  | cons c rest =>
      have behind : next m a = some c := suffix.2.1
      have same : b = c := Option.some.inj (link.symm.trans behind)
      subst same
      have nodup := ListAt.nodup suffix
      refine ⟨by simp, fun again => ?_⟩
      simp [again] at nodup

/-- A list depends on the links of its own nodes, with a node that leads to it in front. -/
theorem ListAt.cons {p : Option α} {l : List α} {x : α} (list : ListAt m p l)
    (kept : ∀ a ∈ l, next m' a = next m a) (link : next m' x = p)
    : ListAt m' (some x) (x :: l) := by
  refine ⟨rfl, ?_⟩
  rw [link]
  exact Segment.congr list kept

-----------------------------------------------------------------------------------------
-- Walks
-----------------------------------------------------------------------------------------

/-- Walk along the links to the first node where `stop` holds, with the node before it. A walk
that takes more than `fuel` steps has no result.
-/
def walkUntil (m : σ) (stop : α → Bool)
    : Nat → Option α → Option α → Option (Option α × Option α)
  | _, previous, none => some (previous, none)
  | 0, _, some _ => none
  | fuel + 1, previous, some a =>
      if stop a then some (previous, some a) else walkUntil m stop fuel (some a) (next m a)

/-- A walk along a list splits it where it stops. -/
theorem walkUntil_list {p : Option α} {l : List α} (stop : α → Bool) {fuel : Nat}
    (previous : Option α) (list : ListAt m p l) (enough : l.length ≤ fuel)
    : walkUntil m stop fuel previous p
      = some ((l.takeWhile (fun a => !stop a)).getLast?.or previous,
          (l.dropWhile (fun a => !stop a)).head?) := by
  induction l generalizing p previous fuel with
  | nil =>
      have ended : p = none := list
      subst ended
      cases fuel <;> rfl
  | cons a rest ih =>
      obtain ⟨rfl, behind⟩ := list
      cases fuel with
      | zero => simp at enough
      | succ fuel =>
          rw [walkUntil]
          by_cases here : stop a
          · simp [here]
          · rw [if_neg here, ih (some a) behind (by simpa using enough)]
            simp only [Bool.not_eq_true] at here
            simp only [List.takeWhile_cons, List.dropWhile_cons, here, Bool.not_false, if_true,
              List.getLast?_cons]
            cases (rest.takeWhile fun a => !stop a).getLast? <;> rfl

/-- A walk passes the nodes in front of the first one where it stops. -/
theorem walkUntil_append {p : Option α} {l₁ l₂ : List α} {x : α} (stop : α → Bool) {fuel : Nat}
    (previous : Option α) (list : ListAt m p (l₁ ++ x :: l₂))
    (enough : (l₁ ++ x :: l₂).length ≤ fuel) (passes : ∀ a ∈ l₁, stop a = false)
    (stops : stop x = true)
    : walkUntil m stop fuel previous p = some (l₁.getLast?.or previous, some x) := by
  have passed : ∀ a ∈ l₁, (!stop a) = true := by simpa using passes
  rw [walkUntil_list stop previous list enough, List.takeWhile_append_of_pos passed,
    List.dropWhile_append_of_pos passed]
  simp [stops]

/-- The node in front of the one where a walk stops is on its way. -/
theorem walkUntil_previous {p : Option α} {l : List α} {stop : α → Bool} {fuel : Nat}
    {before : Option α} {previous : α} {current : Option α} (list : ListAt m p l)
    (walk : walkUntil m stop fuel before p = some (some previous, current))
    : before = some previous ∨ previous ∈ l := by
  induction l generalizing p before fuel with
  | nil =>
      have ended : p = none := list
      subst ended
      cases fuel <;> (cases walk; exact .inl rfl)
  | cons a rest ih =>
      obtain ⟨rfl, behind⟩ := list
      cases fuel with
      | zero => cases walk
      | succ fuel =>
          rw [walkUntil] at walk
          split at walk
          · cases walk
            exact .inl rfl
          · rcases ih behind walk with here | later
            · cases here
              exact .inr List.mem_cons_self
            · exact .inr (List.mem_cons_of_mem a later)

variable [DecidableEq α]

/-- A walk to a node of the list finds it. -/
theorem walkUntil_mem {p : Option α} {l : List α} {x : α} {fuel : Nat} (previous : Option α)
    (list : ListAt m p l) (enough : l.length ≤ fuel) (inside : x ∈ l)
    : ∃ l₁ l₂, l = l₁ ++ x :: l₂
      ∧ walkUntil m (· == x) fuel previous p = some (l₁.getLast?.or previous, some x) := by
  have walk := walkUntil_list (· == x) previous list enough
  have split := List.takeWhile_append_dropWhile (p := fun a => !(a == x)) (l := l)
  cases back : l.dropWhile (fun a => !(a == x)) with
  | nil =>
      rw [back, List.append_nil] at split
      rw [← split] at inside
      simpa using List.mem_takeWhile_imp inside
  | cons b rest =>
      have found : b = x := by
        have stopped := List.head?_dropWhile_not (fun a => !(a == x)) l
        simpa [back] using stopped
      subst found
      rw [back] at split walk
      exact ⟨_, rest, split.symm, walk⟩

/-- A walk to a node outside the list reaches its end. -/
theorem walkUntil_not_mem {p : Option α} {l : List α} {x : α} {fuel : Nat}
    (previous : Option α) (list : ListAt m p l) (enough : l.length ≤ fuel) (absent : x ∉ l)
    : walkUntil m (· == x) fuel previous p = some (l.getLast?.or previous, none) := by
  have passes : ∀ a ∈ l, (!(a == x)) = true := by
    intro a inside
    have other : a ≠ x := fun same => absent (same ▸ inside)
    simpa using other
  rw [walkUntil_list (· == x) previous list enough, List.takeWhile_eq_self_iff.mpr passes,
    List.dropWhile_eq_nil_iff.mpr passes]
  rfl

end View

-----------------------------------------------------------------------------------------
-- Insertion and removal
-----------------------------------------------------------------------------------------

variable {σ : Type*} {α : Type*} [LinkStore σ α] {m : σ}

theorem Segment.setNext {p q r : Option α} {l : List α} {a : α} (segment : Segment m p l q)
    (apart : a ∉ l)
    : Segment (setNext m a r) p l q := by
  apply segment.congr
  intro b inside
  apply next_setNext_of_ne
  rintro rfl
  exact apart inside

/-- A node put in front of a list. -/
theorem ListAt.push {p : Option α} {l : List α} {x : α} (list : ListAt m p l) (fresh : x ∉ l)
    : ListAt (LinkStore.setNext m x p) (some x) (x :: l) := by
  refine list.cons ?_ (next_setNext m x p)
  intro a inside
  apply next_setNext_of_ne
  rintro rfl
  exact fresh inside

/-- A node put behind `b`. -/
theorem ListAt.insert {p : Option α} {l₁ l₂ : List α} {b x : α} (list : ListAt m p (l₁ ++ b :: l₂))
    (fresh : x ∉ l₁ ++ b :: l₂)
    : ListAt (LinkStore.setNext (LinkStore.setNext m b (some x)) x l₂.head?) p
        (l₁ ++ b :: x :: l₂) := by
  have nodup := List.nodup_middle.mp list.nodup
  have apart : b ∉ l₁ ++ l₂ := (List.nodup_cons.mp nodup).1
  simp only [List.mem_append, List.mem_cons, not_or] at fresh apart
  obtain ⟨r, front, here⟩ := (segment_append l₁ _).mp list
  have back : ListAt m l₂.head? l₂ := ListAt.suffix (l₁ ++ [b]) (by simpa using list)
  refine (segment_append l₁ _).mpr ⟨r, (front.setNext apart.1).setNext fresh.1, here.1, ?_⟩
  rw [next_setNext_of_ne _ _ (Ne.symm fresh.2.1), next_setNext]
  refine ⟨rfl, ?_⟩
  rw [next_setNext]
  exact (Segment.setNext back apart.2).setNext fresh.2.2

theorem nodup_behind [DecidableEq α] {l₁ l₂ : List α} {b x : α}
    (nodup : (l₁ ++ b :: x :: l₂).Nodup)
    : x ≠ b ∧ (l₁ ++ b :: x :: l₂).erase x = l₁ ++ b :: l₂ := by
  rw [← List.singleton_append, ← List.append_assoc] at nodup ⊢
  have fresh : x ∉ l₁ ++ [b] := fun again =>
    List.disjoint_of_nodup_append nodup again (by simp)
  refine ⟨fun same => fresh (by simp [same]), ?_⟩
  rw [List.erase_append_right _ fresh]
  simp

/-- The node behind `b` taken out. -/
theorem ListAt.remove [DecidableEq α] {p : Option α} {l₁ l₂ : List α} {b x : α}
    (list : ListAt m p (l₁ ++ b :: x :: l₂))
    : ListAt (LinkStore.setNext m b (next m x)) p ((l₁ ++ b :: x :: l₂).erase x) := by
  have nodup := List.nodup_middle.mp list.nodup
  have apart : b ∉ l₁ ++ x :: l₂ := (List.nodup_cons.mp nodup).1
  simp only [List.mem_append, List.mem_cons, not_or] at apart
  obtain ⟨r, front, here⟩ := (segment_append l₁ _).mp list
  obtain ⟨first, second, back⟩ := here
  rw [(nodup_behind list.nodup).2]
  refine (segment_append l₁ _).mpr ⟨r, front.setNext apart.1, first, ?_⟩
  rw [next_setNext]
  exact back.setNext apart.2.2

/-- The list cut behind `b`. -/
theorem ListAt.cut {p : Option α} {l₁ l₂ : List α} {b : α} (list : ListAt m p (l₁ ++ b :: l₂))
    : ListAt (LinkStore.setNext m b none) p (l₁ ++ [b]) := by
  have nodup := List.nodup_middle.mp list.nodup
  have apart : b ∉ l₁ ++ l₂ := (List.nodup_cons.mp nodup).1
  simp only [List.mem_append, not_or] at apart
  obtain ⟨r, front, here, -⟩ := (segment_append l₁ _).mp list
  exact (segment_append l₁ _).mpr ⟨r, front.setNext apart.1, here, next_setNext m b none⟩

/-- The plain store, a link for each node. -/
instance [DecidableEq α] : LinkStore (α → Option α) α where
  next m a := m a
  setNext m a p := Function.update m a p
  next_setNext m a p := Function.update_self a p m
  next_setNext_of_ne m _ _ p other := Function.update_of_ne other p m

end Links
