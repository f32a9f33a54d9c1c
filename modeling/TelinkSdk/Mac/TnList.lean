import Mathlib.Data.List.Nodup
import Mathlib.Logic.Function.Basic

/-! The linked lists of the MAC library, which is delivered as a binary. Its header `tn_list.h`
names the operations; here they are taken to act on sequences of items as these names say. The
link is kept in the item, so an operation that relinks a list needs items that no other list
shares.
-/

namespace TelinkSdk

/-- No item of a list is in another one. -/
def Unshared (s : Nat → List Nat) (list : Nat) : Prop :=
  ∀ other, other ≠ list → ∀ item ∈ s list, item ∉ s other

/-- The list operations over a memory `σ`. Lists and items are given by their addresses. -/
class TnList (σ : Type) where
  head : σ → Nat → Option Nat
  itemNext : σ → Nat → Option Nat
  init : σ → Nat → σ
  push : σ → Nat → Nat → σ
  pop : σ → Nat → Option Nat × σ
  add : σ → Nat → Nat → σ
  remove : σ → Nat → Nat → σ
  insert : σ → Nat → Nat → Nat → σ
  /-- The memory holds the sequence `s list` in every list. -/
  Holds : σ → (Nat → List Nat) → Prop
  head_eq {m : σ} {s : Nat → List Nat} (list : Nat) (holds : Holds m s)
    : head m list = (s list).head?
  itemNext_eq {m : σ} {s : Nat → List Nat} (list : Nat) {item : Nat} {before after : List Nat}
    (holds : Holds m s) (place : s list = before ++ item :: after)
    : itemNext m item = after.head?
  init_holds {m : σ} {s : Nat → List Nat} (list : Nat) (holds : Holds m s)
    : Holds (init m list) (Function.update s list [])
  push_holds {m : σ} {s : Nat → List Nat} (list : Nat) {item : Nat} (holds : Holds m s)
    (unshared : Unshared s list) (loose : ∀ other, item ∉ s other)
    : Holds (push m list item) (Function.update s list (item :: s list))
  pop_cons {m : σ} {s : Nat → List Nat} (list : Nat) {item : Nat} {rest : List Nat}
    (holds : Holds m s) (place : s list = item :: rest)
    : (pop m list).1 = some item ∧ Holds (pop m list).2 (Function.update s list rest)
  add_holds {m : σ} {s : Nat → List Nat} (list : Nat) {item : Nat} (holds : Holds m s)
    (unshared : Unshared s list) (loose : ∀ other, item ∉ s other)
    : Holds (add m list item) (Function.update s list (s list ++ [item]))
  remove_holds {m : σ} {s : Nat → List Nat} (list : Nat) {item : Nat} {before after : List Nat}
    (holds : Holds m s) (unshared : Unshared s list) (place : s list = before ++ item :: after)
    : Holds (remove m list item) (Function.update s list (before ++ after))
  insert_holds {m : σ} {s : Nat → List Nat} (list : Nat) {previtem newitem : Nat}
    {before after : List Nat} (holds : Holds m s) (unshared : Unshared s list)
    (place : s list = before ++ previtem :: after) (loose : ∀ other, newitem ∉ s other)
    : Holds (insert m list previtem newitem)
        (Function.update s list (before ++ previtem :: newitem :: after))

/-- Sequences by their addresses, with the link of each item. -/
structure ListMem where
  lists : Nat → List Nat
  next : Nat → Option Nat

namespace ListMem

/-- The rest of a sequence behind an item. -/
def behind (item : Nat) : List Nat → List Nat
  | [] => []
  | first :: rest => if first = item then rest else behind item rest

/-- Put an item into a sequence behind another one. -/
def insertBehind (previtem newitem : Nat) : List Nat → List Nat
  | [] => []
  | first :: rest =>
      if first = previtem then first :: newitem :: rest
      else first :: insertBehind previtem newitem rest

def set (m : ListMem) (list : Nat) (items : List Nat) : ListMem :=
  { m with lists := Function.update m.lists list items }

/-- Make a list hold the items, each linked to the one behind it. -/
def link (m : ListMem) (list : Nat) (items : List Nat) : ListMem where
  lists := Function.update m.lists list items
  next item := if item ∈ items then (behind item items).head? else m.next item

/-- Every item is linked to the one behind it. -/
structure Holding (m : ListMem) (s : Nat → List Nat) : Prop where
  lists : m.lists = s
  next : ∀ list before item after, s list = before ++ item :: after
    → m.next item = after.head?
  once : ∀ list, (s list).Nodup

variable {m : ListMem} {s : Nat → List Nat} {item previtem newitem list : Nat}
  {before after items : List Nat}

theorem behind_append (absent : item ∉ before)
    : behind item (before ++ item :: after) = after := by
  induction before with
  | nil => simp [behind]
  | cons first rest ih =>
      rw [List.mem_cons, not_or] at absent
      simp only [List.cons_append, behind, if_neg (Ne.symm absent.1)]
      exact ih absent.2

theorem insertBehind_append (absent : previtem ∉ before)
    : insertBehind previtem newitem (before ++ previtem :: after)
        = before ++ previtem :: newitem :: after := by
  induction before with
  | nil => simp [insertBehind]
  | cons first rest ih =>
      rw [List.mem_cons, not_or] at absent
      simp only [List.cons_append, insertBehind, if_neg (Ne.symm absent.1)]
      rw [ih absent.2]

theorem nodup_split (once : (before ++ item :: after).Nodup)
    : item ∉ before ∧ (before ++ after).Nodup := by
  have parts := List.nodup_append.mp once
  refine ⟨fun inside => parts.2.2 item inside item List.mem_cons_self rfl, ?_⟩
  exact once.sublist (List.Sublist.append_left (List.sublist_cons_self item after) before)

/-- A list gives up items at its front. -/
theorem Holding.shrink (holding : Holding m s) (front : List Nat)
    (split : s list = front ++ items)
    : Holding (m.set list items) (Function.update s list items) := by
  refine ⟨by simp only [set, holding.lists], ?_, ?_⟩
  · intro other before item after place
    by_cases here : other = list
    · subst here
      rw [Function.update_self] at place
      exact holding.next other (front ++ before) item after (by rw [split, place]; simp)
    · rw [Function.update_of_ne here] at place
      exact holding.next other before item after place
  · intro other
    by_cases here : other = list
    · subst here
      rw [Function.update_self]
      exact (holding.once other).sublist (split ▸ List.sublist_append_right front items)
    · rw [Function.update_of_ne here]
      exact holding.once other

/-- A list gets new contents; another list has none of them or all in the same order. -/
theorem Holding.link (holding : Holding m s) (once : items.Nodup)
    (agree : ∀ other, other ≠ list → (∀ item ∈ items, item ∉ s other) ∨ s other = items)
    : Holding (m.link list items) (Function.update s list items) := by
  have linked (before after : List Nat) (item : Nat) (place : items = before ++ item :: after)
      : (m.link list items).next item = after.head? := by
    have split := nodup_split (place ▸ once)
    simp only [ListMem.link]
    rw [if_pos (by simp [place]), place, behind_append split.1]
  refine ⟨by simp only [ListMem.link, holding.lists], ?_, ?_⟩
  · intro other before item after place
    by_cases here : other = list
    · subst here
      rw [Function.update_self] at place
      exact linked before after item place
    · rw [Function.update_of_ne here] at place
      rcases agree other here with apart | same
      · have absent : item ∉ items := fun inside => apart item inside (by simp [place])
        simp only [ListMem.link]
        rw [if_neg absent]
        exact holding.next other before item after place
      · exact linked before after item (same ▸ place)
  · intro other
    by_cases here : other = list
    · subst here
      rw [Function.update_self]
      exact once
    · rw [Function.update_of_ne here]
      exact holding.once other

/-- Relinking an unshared list, with at most one loose item added. -/
theorem Holding.relink (holding : Holding m s) (unshared : Unshared s list)
    (loose : ∀ other, newitem ∉ s other) (once : items.Nodup)
    (origin : ∀ item ∈ items, item = newitem ∨ item ∈ s list)
    : Holding (m.link list items) (Function.update s list items) := by
  apply holding.link once
  intro other different
  left
  intro item inside
  rcases origin item inside with new | old
  · exact new ▸ loose other
  · exact unshared other different item old

theorem Holding.once_cons (holding : Holding m s) (list : Nat) (loose : ∀ other, item ∉ s other)
    : (item :: s list).Nodup := List.nodup_cons.mpr ⟨loose list, holding.once list⟩

/-- The operations on sequences do what is asked of the list library. -/
instance : TnList ListMem where
  head m list := (m.lists list).head?
  itemNext m item := m.next item
  init m list := m.set list []
  push m list item := m.link list (item :: m.lists list)
  pop m list := ((m.lists list).head?, m.set list (m.lists list).tail)
  add m list item := m.link list (m.lists list ++ [item])
  remove m list item := m.link list ((m.lists list).erase item)
  insert m list previtem newitem :=
    m.link list (insertBehind previtem newitem (m.lists list))
  Holds := Holding
  head_eq list holding := by rw [holding.lists]
  itemNext_eq list item before after holding place := holding.next list before item after place
  init_holds list holding := holding.shrink _ (List.append_nil _).symm
  push_holds list item holding unshared loose := by
    rw [holding.lists]
    exact holding.relink unshared loose (holding.once_cons list loose)
      (fun x inside => List.mem_cons.mp inside)
  pop_cons list item rest holding place := by
    rw [holding.lists, place]
    exact ⟨rfl, holding.shrink [item] place⟩
  add_holds list item holding unshared loose := by
    rw [holding.lists]
    have same := List.perm_append_singleton item
    exact holding.relink unshared loose ((same _).nodup_iff.mpr (holding.once_cons list loose))
      (fun x inside => List.mem_cons.mp ((same _).subset inside))
  remove_holds list item before after holding unshared place := by
    have split := nodup_split (place ▸ holding.once list)
    rw [holding.lists, place, List.erase_append_right _ split.1, List.erase_cons_head]
    apply holding.link split.2
    intro other different
    left
    intro x inside
    apply unshared other different x
    rw [place]
    exact List.mem_append.mpr ((List.mem_append.mp inside).imp id (List.mem_cons_of_mem _))
  insert_holds list previtem newitem before after holding unshared place loose := by
    have split := nodup_split (place ▸ holding.once list)
    have same : (before ++ previtem :: newitem :: after).Perm
        (newitem :: (before ++ previtem :: after)) := by
      calc before ++ previtem :: newitem :: after
        _ = (before ++ [previtem]) ++ newitem :: after := by simp
        List.Perm _ (newitem :: ((before ++ [previtem]) ++ after)) := List.perm_middle
        _ = newitem :: (before ++ previtem :: after) := by simp
    rw [← place] at same
    rw [holding.lists, place, insertBehind_append split.1]
    exact holding.relink unshared loose (same.nodup_iff.mpr (holding.once_cons list loose))
      (fun x inside => List.mem_cons.mp (same.subset inside))

end ListMem

end TelinkSdk
