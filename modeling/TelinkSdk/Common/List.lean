import TelinkSdk.Links.ListAt

/-! The linked lists of `list.c`. The first word of an item links it, and a list is the pointer to
its first item.
-/

namespace TelinkSdk.CommonList

open Links LinkView LinkStore

-----------------------------------------------------------------------------------------
-- The list module
-----------------------------------------------------------------------------------------

/-- The pointer `*list`, and the memory with the links of all items. -/
structure ListVar (σ α : Type) where
  head : Option α
  mem : σ

section Operations

variable {σ α : Type} [LinkStore σ α]

def listInit (list : ListVar σ α) : ListVar σ α := { list with head := none }

def listHead (list : ListVar σ α) : Option α := list.head

/-- Here and below the result is `none` where a loop goes on for more than `fuel` rounds. -/
def listTail (fuel : Nat) (list : ListVar σ α) : Option (Option α) :=
  match list.head with
  | none => some none
  | some first =>
      (walkUntil list.mem (fun l => (next list.mem l).isNone) fuel none (some first)).map Prod.snd

def listAdd (fuel : Nat) (list : ListVar σ α) (item : α) : Option (ListVar σ α) :=
  let list := { list with mem := setNext list.mem item none }
  (listTail fuel list).map fun
    | none => { list with head := some item }
    | some l => { list with mem := setNext list.mem l (some item) }

def listPush (list : ListVar σ α) (item : α) : ListVar σ α :=
  { head := some item, mem := setNext list.mem item list.head }

/-- The walk looks two links ahead. -/
def listChop (fuel : Nat) (list : ListVar σ α) : Option (Option α × ListVar σ α) :=
  match list.head with
  | none => some (none, list)
  | some first =>
      match next list.mem first with
      | none => some (some first, { list with head := none })
      | some _ => do
          let (_, l) ← walkUntil list.mem
            (fun l => ((next list.mem l).bind (next list.mem)).isNone) fuel none (some first)
          let l ← l
          some (next list.mem l, { list with mem := setNext list.mem l none })

/-- The pointer is returned after it has moved on. -/
def listPop (list : ListVar σ α) : Option α × ListVar σ α :=
  let list :=
    match list.head with
    | none => list
    | some first => { list with head := next list.mem first }
  (list.head, list)

def listRemove [DecidableEq α] (fuel : Nat) (list : ListVar σ α) (item : α)
    : Option (ListVar σ α) :=
  match list.head with
  | none => some list
  | some first =>
      (walkUntil list.mem (· == item) fuel none (some first)).map fun
        | (_, none) => list
        | (none, some l) => { head := next list.mem l, mem := setNext list.mem l none }
        | (some p, some l) =>
            { list with mem := setNext (setNext list.mem p (next list.mem l)) l none }

/-- The loop of `listLength`. There is no room for more items than an `int` can count. -/
def listLength.loop (mem : σ) : Nat → Nat → Option α → Option Nat
  | _, num, none => some num
  | 0, _, some _ => none
  | fuel + 1, num, some l => listLength.loop mem fuel (num + 1) (next mem l)

def listLength (fuel : Nat) (list : ListVar σ α) : Option Nat :=
  listLength.loop list.mem fuel 0 list.head

def listInsert (list : ListVar σ α) (prevItem : Option α) (newItem : α) : ListVar σ α :=
  match prevItem with
  | none => listPush list newItem
  | some prevItem =>
      { list with
        mem := setNext (setNext list.mem newItem (next list.mem prevItem)) prevItem
          (some newItem) }

end Operations

-----------------------------------------------------------------------------------------
-- Lists as sequences
-----------------------------------------------------------------------------------------

section Sequences

variable {σ α : Type} [LinkStore σ α] {list : ListVar σ α} {items : List α} {fuel : Nat}

/-- The links lead from the first item through all of them. -/
def ListVar.Holds (list : ListVar σ α) (items : List α) : Prop := ListAt list.mem list.head items

/-- The link of an item outside the list does not matter to it. -/
theorem ListVar.Holds.relink (holds : list.Holds items) {item : α} (fresh : item ∉ items)
    (p : Option α)
    : ({ list with mem := setNext list.mem item p } : ListVar σ α).Holds items :=
  Segment.setNext holds fresh

theorem ListVar.Holds.listTail (holds : list.Holds items) (enough : items.length ≤ fuel)
    : listTail fuel list = some items.getLast? := by
  rcases List.eq_nil_or_concat items with rfl | ⟨front, last, rfl⟩
  · have empty : list.head = none := holds
    simp [CommonList.listTail, empty]
  · rw [List.concat_eq_append] at holds enough ⊢
    obtain ⟨first, found⟩ : ∃ first, list.head = some first := by
      rw [ListAt.head holds]
      cases front <;> simp
    have walk := walkUntil_append (fun l => (next list.mem l).isNone) none holds enough ?_ ?_
    · rw [found] at walk
      simp [CommonList.listTail, found, walk]
    · intro a inside
      obtain ⟨before, behind, rfl⟩ := List.append_of_mem inside
      rw [List.append_assoc, List.cons_append] at holds
      rw [ListAt.next_eq holds]
      cases behind <;> rfl
    · rw [ListAt.next_eq holds]
      rfl

theorem ListVar.Holds.push (holds : list.Holds items) {item : α} (fresh : item ∉ items)
    : (listPush list item).Holds (item :: items) :=
  ListAt.push holds fresh

/-- An item put behind `b`, its own link first. -/
theorem ListVar.Holds.insert {l₁ l₂ : List α} {b item : α} (holds : list.Holds (l₁ ++ b :: l₂))
    (fresh : item ∉ l₁ ++ b :: l₂)
    : (listInsert list (some b) item).Holds (l₁ ++ b :: item :: l₂) := by
  have other : b ≠ item := by
    rintro rfl
    exact fresh (by simp)
  have linked : ListAt (setNext (setNext list.mem b (some item)) item l₂.head?) list.head
      (l₁ ++ b :: item :: l₂) := ListAt.insert holds fresh
  refine linked.congr fun a _ => ?_
  simp only [listInsert, ListAt.next_eq holds]
  by_cases atB : a = b
  · subst atB
    rw [next_setNext, next_setNext_of_ne _ _ other, next_setNext]
  · rw [next_setNext_of_ne _ _ atB]
    by_cases atItem : a = item
    · subst atItem
      rw [next_setNext, next_setNext]
    · rw [next_setNext_of_ne _ _ atItem, next_setNext_of_ne _ _ atItem,
        next_setNext_of_ne _ _ atB]

theorem ListVar.Holds.add (holds : list.Holds items) (enough : items.length ≤ fuel) {item : α}
    (fresh : item ∉ items)
    : ∃ list', listAdd fuel list item = some list' ∧ list'.Holds (items ++ [item]) := by
  have tail := (holds.relink fresh none).listTail enough
  rcases List.eq_nil_or_concat items with rfl | ⟨front, last, rfl⟩
  · refine ⟨{ head := some item, mem := setNext list.mem item none }, ?_, rfl, ?_⟩
    · simp [listAdd, tail]
    · exact next_setNext _ _ _
  · rw [List.concat_eq_append] at holds fresh tail ⊢
    have chain : (listInsert list (some last) item).Holds (front ++ last :: item :: []) :=
      holds.insert fresh
    have ended : next list.mem last = none := ListAt.next_eq holds
    refine ⟨{ list with mem := setNext (setNext list.mem item none) last (some item) }, ?_, ?_⟩
    · simp [listAdd, tail]
    · simpa [listInsert, ended] using chain

/-- The list behind the first item is right, whatever is returned. -/
theorem ListVar.Holds.pop (holds : list.Holds items)
    : (listPop list).1 = items.tail.head? ∧ (listPop list).2.Holds items.tail := by
  cases items with
  | nil =>
      have empty : list.head = none := holds
      simpa [listPop, empty] using holds
  | cons a rest =>
      obtain ⟨first, behind⟩ := holds
      simp only [listPop, first]
      exact ⟨ListAt.head behind, behind⟩

/-- A list that ends in two items starts with two. -/
theorem exists_cons_cons (front : List α) (b last : α)
    : ∃ c d rest, front ++ [b, last] = c :: d :: rest := by
  rcases front with _ | ⟨c, _ | ⟨d, rest⟩⟩
  · exact ⟨b, last, [], rfl⟩
  · exact ⟨c, b, [last], rfl⟩
  · exact ⟨c, d, rest ++ [b, last], rfl⟩

/-- The walk stops at the item in front of the last one. -/
theorem ListVar.Holds.chop_behind {front : List α} {b last : α}
    (holds : list.Holds (front ++ [b, last])) (enough : (front ++ [b, last]).length ≤ fuel)
    : listChop fuel list = some (some last, { list with mem := setNext list.mem b none }) := by
  have chain : ListAt list.mem list.head (front ++ [b, last]) := holds
  have behind : next list.mem b = some last := chain.next_eq
  have atLast : ListAt list.mem list.head ((front ++ [b]) ++ [last]) := by simpa using chain
  have ended : next list.mem last = none := atLast.next_eq
  have ahead : ∀ l₁ a l₂, front ++ [b, last] = l₁ ++ a :: (l₂ ++ [b, last])
      → ((next list.mem a).bind (next list.mem)).isNone = false := by
    intro l₁ a l₂ split
    obtain ⟨c, d, rest, two⟩ := exists_cons_cons l₂ b last
    rw [two] at split
    rw [split] at chain
    have first : next list.mem a = some c := chain.next_eq
    have behind : ListAt list.mem list.head ((l₁ ++ [a]) ++ c :: d :: rest) := by
      simpa using chain
    have second : next list.mem c = some d := behind.next_eq
    simp [first, second]
  have walk := walkUntil_append
    (fun l => ((next list.mem l).bind (next list.mem)).isNone) none chain enough ?_ ?_
  · obtain ⟨first, second, rest, two⟩ := exists_cons_cons front b last
    rw [two] at chain
    have found : list.head = some first := chain.head
    have linked : next list.mem first = some second := chain.2.1
    rw [found] at walk
    simp [listChop, found, linked, walk, behind]
  · intro a inside
    obtain ⟨l₁, l₂, rfl⟩ := List.append_of_mem inside
    exact ahead l₁ a l₂ (by simp)
  · simp [behind, ended]

theorem ListVar.Holds.chop (holds : list.Holds items) (enough : items.length ≤ fuel)
    : ∃ list', listChop fuel list = some (items.getLast?, list')
      ∧ list'.Holds items.dropLast := by
  rcases List.eq_nil_or_concat items with rfl | ⟨rest, last, rfl⟩
  · have empty : list.head = none := holds
    exact ⟨list, by simp [listChop, empty], holds⟩
  rcases List.eq_nil_or_concat rest with rfl | ⟨front, b, rfl⟩
  · have found : list.head = some last := ListAt.head holds
    have ended : next list.mem last = none := holds.2
    exact ⟨{ list with head := none }, by simp [listChop, found, ended], rfl⟩
  · simp only [List.concat_eq_append, List.append_assoc, List.cons_append, List.nil_append]
      at holds enough ⊢
    refine ⟨{ list with mem := setNext list.mem b none }, ?_, ?_⟩
    · rw [holds.chop_behind enough]
      simp [List.getLast?_append]
    · rw [show (front ++ [b, last]).dropLast = front ++ [b] by simp]
      exact ListAt.cut holds

theorem listLength_loop {mem : σ} {p : Option α} (num : Nat) (chain : ListAt mem p items)
    (enough : items.length ≤ fuel)
    : listLength.loop mem fuel num p = some (num + items.length) := by
  induction items generalizing p num fuel with
  | nil =>
      have ended : p = none := chain
      subst ended
      cases fuel <;> rfl
  | cons a rest ih =>
      obtain ⟨rfl, behind⟩ := chain
      cases fuel with
      | zero => simp at enough
      | succ fuel =>
          rw [listLength.loop, ih (num + 1) behind (by simpa using enough), List.length_cons,
            Nat.add_assoc, Nat.add_comm 1]

theorem ListVar.Holds.listLength (holds : list.Holds items) (enough : items.length ≤ fuel)
    : listLength fuel list = some items.length := by
  rw [CommonList.listLength, listLength_loop 0 holds enough, Nat.zero_add]

variable [DecidableEq α]

/-- The item taken out links to nothing. -/
theorem ListVar.Holds.remove (holds : list.Holds items) (enough : items.length ≤ fuel) (item : α)
    : ∃ list', listRemove fuel list item = some list' ∧ list'.Holds (items.erase item) := by
  have chain : ListAt list.mem list.head items := holds
  cases found : list.head with
  | none =>
      have empty : items = [] := List.head?_eq_none_iff.mp (chain.head.symm.trans found)
      subst empty
      exact ⟨list, by simp [listRemove, found], holds⟩
  | some first =>
      by_cases inside : item ∈ items
      · have absent : item ∉ items.erase item := chain.nodup.not_mem_erase
        obtain ⟨before, behind, rfl, walk⟩ := walkUntil_mem none chain enough inside
        rw [found] at walk
        rcases List.eq_nil_or_concat before with rfl | ⟨front, p, rfl⟩
        · simp only [List.nil_append, List.erase_cons_head] at chain absent ⊢
          refine ⟨{ head := next list.mem item, mem := setNext list.mem item none }, ?_, ?_⟩
          · simp [listRemove, found, walk]
          · exact Segment.setNext chain.2 absent
        · simp only [List.concat_eq_append, List.append_assoc, List.cons_append, List.nil_append]
            at chain absent ⊢
          refine ⟨{ list with
              mem := setNext (setNext list.mem p (next list.mem item)) item none }, ?_, ?_⟩
          · simp [listRemove, found, walk]
          · exact Segment.setNext chain.remove absent
      · have walk := walkUntil_not_mem none chain enough inside
        rw [found] at walk
        rw [List.erase_of_not_mem inside]
        exact ⟨list, by simp [listRemove, found, walk], holds⟩

end Sequences

-----------------------------------------------------------------------------------------
-- Histories
-----------------------------------------------------------------------------------------

inductive ListOp (α : Type) where
  | push (item : α)
  | add (item : α)
  | insert (prevItem : Option α) (newItem : α)
  | pop
  | chop
  | remove (item : α)

section Histories

variable {σ α : Type} [LinkStore σ α] [DecidableEq α]

/-- The operation in memory, with what it returns. -/
def ListOp.exec (fuel : Nat) (list : ListVar σ α) : ListOp α → Option (Option α × ListVar σ α)
  | .push item => some (none, listPush list item)
  | .add item => (listAdd fuel list item).map (none, ·)
  | .insert prevItem newItem => some (none, listInsert list prevItem newItem)
  | .pop => some (listPop list)
  | .chop => listChop fuel list
  | .remove item => (listRemove fuel list item).map (none, ·)

def insertAfter (prevItem newItem : α) : List α → List α
  | [] => []
  | a :: rest =>
      if a = prevItem then a :: newItem :: rest else a :: insertAfter prevItem newItem rest

/-- The operation on a sequence: `pop` takes and returns the first item, `chop` the last. -/
def ListOp.spec (items : List α) : ListOp α → Option α × List α
  | .push item => (none, item :: items)
  | .add item => (none, items ++ [item])
  | .insert none newItem => (none, newItem :: items)
  | .insert (some prevItem) newItem => (none, insertAfter prevItem newItem items)
  | .pop => (items.head?, items.tail)
  | .chop => (items.getLast?, items.dropLast)
  | .remove item => (none, items.erase item)

/-- A new item is in no list yet, and an item goes behind one that is in the list. -/
def ListOp.Allowed (items : List α) : ListOp α → Prop
  | .push item | .add item => item ∉ items
  | .insert prevItem newItem => newItem ∉ items ∧ ∀ b ∈ prevItem, b ∈ items
  | _ => True

def listRun (fuel : Nat) : List (ListOp α) → ListVar σ α → Option (List (Option α) × ListVar σ α)
  | [], list => some ([], list)
  | op :: rest, list => do
      let (result, list) ← op.exec fuel list
      let (results, list) ← listRun fuel rest list
      some (result :: results, list)

def sequenceRun : List (ListOp α) → List α → List (Option α) × List α
  | [], items => ([], items)
  | op :: rest, items =>
      let (result, items) := op.spec items
      let (results, items) := sequenceRun rest items
      (result :: results, items)

/-- `P` holds of each operation and the sequence in front of it. -/
def ListOp.Along (P : List α → ListOp α → Prop) : List α → List (ListOp α) → Prop
  | _, [] => True
  | items, op :: rest => P items op ∧ ListOp.Along P (op.spec items).2 rest

/-- A `pop` finds the list empty. -/
def ListOp.PopsEmpty (items : List α) (op : ListOp α) : Prop := op = .pop → items = []

variable {list : ListVar σ α} {items : List α} {fuel : Nat}

theorem insertAfter_append {l₁ l₂ : List α} {b : α} (item : α) (fresh : b ∉ l₁)
    : insertAfter b item (l₁ ++ b :: l₂) = l₁ ++ b :: item :: l₂ := by
  induction l₁ with
  | nil => simp [insertAfter]
  | cons a rest ih =>
      simp only [List.mem_cons, not_or] at fresh
      rw [List.cons_append, insertAfter, if_neg (Ne.symm fresh.1), ih fresh.2, List.cons_append]

/-- Every operation does to the list what it should. What it returns is right too, unless it takes
the first item of a list that has one.
-/
theorem ListVar.Holds.step (holds : list.Holds items) (enough : items.length ≤ fuel)
    {op : ListOp α} (allowed : op.Allowed items)
    : ∃ result list', op.exec fuel list = some (result, list')
      ∧ list'.Holds (op.spec items).2
      ∧ (result = (op.spec items).1 ↔ op.PopsEmpty items) := by
  cases op with
  | push item =>
      exact ⟨none, _, rfl, holds.push allowed, by simp [ListOp.spec, ListOp.PopsEmpty]⟩
  | add item =>
      obtain ⟨list', added, after⟩ := holds.add enough allowed
      exact ⟨none, list', by simp [ListOp.exec, added], after,
        by simp [ListOp.spec, ListOp.PopsEmpty]⟩
  | insert prevItem newItem =>
      obtain ⟨fresh, inside⟩ := allowed
      refine ⟨none, _, rfl, ?_, ?_⟩
      · cases prevItem with
        | none => exact holds.push fresh
        | some b =>
            obtain ⟨l₁, l₂, rfl⟩ := List.append_of_mem (inside b rfl)
            have nodup := List.nodup_middle.mp (ListAt.nodup holds)
            have first : b ∉ l₁ := fun again =>
              (List.nodup_cons.mp nodup).1 (List.mem_append_left _ again)
            rw [ListOp.spec, insertAfter_append newItem first]
            exact holds.insert fresh
      · cases prevItem <;> simp [ListOp.spec, ListOp.PopsEmpty]
  | pop =>
      obtain ⟨returned, after⟩ := holds.pop
      refine ⟨(listPop list).1, (listPop list).2, rfl, after, ?_⟩
      rw [returned]
      cases items with
      | nil => simp [ListOp.spec, ListOp.PopsEmpty]
      | cons a rest =>
          have fresh : a ∉ rest := (List.nodup_cons.mp (ListAt.nodup holds)).1
          have other : rest.head? ≠ some a := fun same => fresh (List.mem_of_head? same)
          simpa [ListOp.spec, ListOp.PopsEmpty] using other
  | chop =>
      obtain ⟨list', chopped, after⟩ := holds.chop enough
      exact ⟨_, list', chopped, after, by simp [ListOp.spec, ListOp.PopsEmpty]⟩
  | remove item =>
      obtain ⟨list', removed, after⟩ := holds.remove enough item
      exact ⟨none, list', by simp [ListOp.exec, removed], after,
        by simp [ListOp.spec, ListOp.PopsEmpty]⟩

theorem ListOp.spec_length (items : List α) (op : ListOp α)
    : (op.spec items).2.length ≤ items.length + 1 := by
  cases op with
  | insert prevItem newItem =>
      cases prevItem with
      | none => exact Nat.le_refl _
      | some b =>
          rw [ListOp.spec]
          induction items with
          | nil => simp [insertAfter]
          | cons a rest ih =>
              rw [insertAfter]
              split
              · exact Nat.le_refl _
              · simpa using ih
  | remove item =>
      have shorter := List.length_erase_le (a := item) (l := items)
      simp only [ListOp.spec]
      omega
  | _ => simp [ListOp.spec] <;> omega

/-- By induction over the operations. -/
theorem ListVar.Holds.run (holds : list.Holds items) (ops : List (ListOp α))
    (allowed : ListOp.Along ListOp.Allowed items ops) (enough : items.length + ops.length ≤ fuel)
    : ∃ results list', listRun fuel ops list = some (results, list')
      ∧ list'.Holds (sequenceRun ops items).2
      ∧ (sequenceRun ops items).2.length ≤ fuel
      ∧ (results = (sequenceRun ops items).1 ↔ ListOp.Along ListOp.PopsEmpty items ops) := by
  induction ops generalizing list items with
  | nil =>
      exact ⟨[], list, rfl, holds, by simpa [sequenceRun] using enough,
        by simp [sequenceRun, ListOp.Along]⟩
  | cons op rest ih =>
      obtain ⟨first, later⟩ := allowed
      have grown := op.spec_length items
      rw [List.length_cons] at enough
      have room : items.length ≤ fuel := by omega
      obtain ⟨result, middle, exec, after, right⟩ := holds.step room first
      obtain ⟨results, list', run, last, short, rights⟩ := ih after later (by omega)
      refine ⟨result :: results, list', by simp [listRun, exec, run], last, short, ?_⟩
      simp only [sequenceRun, ListOp.Along, List.cons.injEq, right, rights]

end Histories

/-- Over every history the list holds the items of the sequence. What the operations return is
right in exactly the histories where no `listPop` takes an item.
-/
theorem list_refines_sequence {σ α : Type} [LinkStore σ α] [DecidableEq α] {fuel : Nat}
    (list : ListVar σ α) (ops : List (ListOp α)) (allowed : ListOp.Along ListOp.Allowed [] ops)
    (enough : ops.length ≤ fuel)
    : ∃ results list', listRun fuel ops (listInit list) = some (results, list')
      ∧ ListAt list'.mem list'.head (sequenceRun ops []).2
      ∧ (sequenceRun ops []).2.Nodup
      ∧ listLength fuel list' = some (sequenceRun ops []).2.length
      ∧ listHead list' = (sequenceRun ops []).2.head?
      ∧ listTail fuel list' = some (sequenceRun ops []).2.getLast?
      ∧ (results = (sequenceRun ops []).1 ↔ ListOp.Along ListOp.PopsEmpty [] ops) := by
  have start : (listInit list).Holds [] := rfl
  obtain ⟨results, list', run, holds, short, right⟩ := start.run ops allowed (by simpa using enough)
  exact ⟨results, list', run, holds, ListAt.nodup holds, holds.listLength short,
    ListAt.head holds, holds.listTail short, right⟩

/-- An item put in the middle, the one in front of it taken out, and the last one chopped off. -/
theorem list_refines_sequence_chop
    : ∃ results list',
      listRun 5 [.push 2, .add 3, .insert (some 2) 1, .remove 2, .chop]
          (listInit { head := none, mem := fun _ : Nat => (none : Option Nat) })
        = some (results, list')
      ∧ results = [none, none, none, none, some 3] ∧ ListAt list'.mem list'.head [1] := by
  obtain ⟨results, list', run, chain, -, -, -, -, right⟩ :=
    list_refines_sequence { head := none, mem := fun _ : Nat => (none : Option Nat) }
      [.push 2, .add 3, .insert (some 2) 1, .remove 2, .chop]
      (by simp [ListOp.Along, ListOp.Allowed, ListOp.spec]) (Nat.le_refl 5)
  exact ⟨results, list', run, right.mpr (by simp [ListOp.Along, ListOp.PopsEmpty]), chain⟩

/-- Of the items 1 and 2, `listPop` takes the first and returns the second. -/
theorem listPop_returns_second
    : ∃ list',
      listRun 3 [.push 2, .push 1, .pop]
          (listInit { head := none, mem := fun _ : Nat => (none : Option Nat) })
        = some ([none, none, some 2], list')
      ∧ sequenceRun [.push 2, .push 1, .pop] [] = ([none, none, some 1], [2])
      ∧ ListAt list'.mem list'.head [2] :=
  ⟨_, rfl, rfl, rfl, rfl⟩

end TelinkSdk.CommonList
