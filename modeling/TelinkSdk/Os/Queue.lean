import TelinkSdk.Links.ListAt

/-! The queues of `ev_queue.c`: items linked through their first word, with a head, a tail and a
count that the operations keep by hand. A queue refines a list.
-/

namespace TelinkSdk

open Links LinkView LinkStore

-----------------------------------------------------------------------------------------
-- The queue
-----------------------------------------------------------------------------------------

/-- `ev_queue_sts_t` -/
inductive EvQueueSts where
  | queueSucc
  | queueInvalidParameter
  | queueEmpty
  | queueNotFound
  | queueOverflow
deriving DecidableEq, Repr

/-- A priority function reads the payload of an item, never the links of the queue. -/
structure EvPriFunc (σ : Type) (α : Type) [LinkStore σ α] where
  value : σ → α → UInt32
  fixed : ∀ (m : σ) (b : α) (p : Option α) (a : α), value (setNext m b p) a = value m a

/-- `ev_queue_t` -/
structure EvQueue (σ : Type) (α : Type) [LinkStore σ α] where
  head : Option α := none
  tail : Option α := none
  priFunc : Option (EvPriFunc σ α)
  curNum : UInt32 := 0

/-- The address of the data part of an item. -/
structure EvPayload (α : Type) where
  item : α

section Operations

variable {σ α : Type} [LinkStore σ α] [DecidableEq α]

def evQueueInit (priFunc : Option (EvPriFunc σ α)) : EvQueue σ α := { priFunc }

/-- The result is `none` where the source dereferences NULL or loops for more than `fuel` steps. -/
def evQueueRawPush (fuel : Nat) (q : EvQueue σ α) (newElement : Option α) (m : σ)
    : Option (EvQueueSts × EvQueue σ α × σ) := do
  match newElement with
  | none => pure (.queueInvalidParameter, q, m)
  | some newElement =>
      match q.head, q.priFunc with
      | none, _ =>
          pure (.queueSucc,
            { q with head := some newElement, tail := some newElement, curNum := q.curNum + 1 },
            setNext m newElement none)
      | some _, none =>
          let tail ← q.tail
          pure (.queueSucc, { q with tail := some newElement, curNum := q.curNum + 1 },
            setNext (setNext m tail (some newElement)) newElement none)
      | some head, some priFunc =>
          -- a small value is a high priority
          let (previous, current) ← walkUntil m
            (fun current => priFunc.value m newElement < priFunc.value m current) fuel none
            (some head)
          let tail := if current.isNone then some newElement else q.tail
          match previous with
          | none =>
              pure (.queueSucc,
                { q with head := some newElement, tail, curNum := q.curNum + 1 },
                setNext m newElement current)
          | some previous =>
              pure (.queueSucc, { q with tail, curNum := q.curNum + 1 },
                setNext (setNext m previous (some newElement)) newElement current)

def evQueueRawPop (q : EvQueue σ α) (m : σ) : Option α × EvQueue σ α :=
  let popped : EvQueue σ α :=
    match q.head with
    | none => q
    | some oldHead =>
        { q with
          tail := if q.tail = some oldHead then none else q.tail
          head := next m oldHead
          curNum := q.curNum - 1 }
  (q.head, if popped.curNum = 0 then { popped with head := none, tail := none } else popped)

/-- The result is `none` where the source dereferences NULL or loops for more than `fuel` steps. -/
def evQueueRawDelete (fuel : Nat) (q : EvQueue σ α) (delElement : Option α) (m : σ)
    : Option (EvQueueSts × EvQueue σ α × σ) := do
  match delElement, q.head with
  | none, _ => pure (.queueInvalidParameter, q, m)
  | some _, none => pure (.queueEmpty, q, m)
  | some delElement, some head =>
      if head = delElement then
        let tail := if (next m head).isNone then none else q.tail
        pure (.queueSucc, { q with head := next m head, tail, curNum := q.curNum - 1 }, m)
      else
        let (previous, current) ← walkUntil m (· == delElement) fuel none (some head)
        match current with
        | none => pure (.queueNotFound, q, m)
        | some current =>
            let previous ← previous
            let tail := if (next m current).isNone then some previous else q.tail
            pure (.queueSucc, { q with tail, curNum := q.curNum - 1 },
              setNext m previous (next m current))

def evBufGetHead (pd : EvPayload α) : α := pd.item

def evQueuePush (fuel : Nat) (q : EvQueue σ α) (payload : EvPayload α) (m : σ)
    : Option (EvQueueSts × EvQueue σ α × σ) :=
  evQueueRawPush fuel q (some (evBufGetHead payload)) m

def evQueuePop (q : EvQueue σ α) (m : σ) : Option (EvPayload α) × EvQueue σ α :=
  let (oneItem, q) := evQueueRawPop q m
  (oneItem.map EvPayload.mk, q)

def evQueueDelete (fuel : Nat) (q : EvQueue σ α) (payload : EvPayload α) (m : σ)
    : Option (EvQueueSts × EvQueue σ α × σ) :=
  evQueueRawDelete fuel q (some (evBufGetHead payload)) m

end Operations

-----------------------------------------------------------------------------------------
-- Queues as lists
-----------------------------------------------------------------------------------------

section Lists

variable {σ α : Type} [LinkStore σ α] {m m' : σ} {q q' : EvQueue σ α} {l : List α}

/-- The queue holds the items of the list, in this order. -/
structure Queued (q : EvQueue σ α) (m : σ) (l : List α) : Prop where
  chain : ListAt m q.head l
  tail : q.tail = l.getLast?
  curNum : q.curNum.toNat = l.length

theorem Queued.head (queued : Queued q m l) : q.head = l.head? := ListAt.head queued.chain

theorem Queued.congr (queued : Queued q m l) (kept : ∀ a ∈ l, next m' a = next m a)
    : Queued q m' l :=
  ⟨queued.chain.congr kept, queued.tail, queued.curNum⟩

/-- NULL for `head`, NULL for `tail` and 0 for `curNum` stand for the same queue. -/
theorem Queued.empty (queued : Queued q m l)
    : (q.head = none ↔ q.tail = none) ∧ (q.tail = none ↔ q.curNum = 0) := by
  have count : q.curNum = 0 ↔ l = [] := by
    rw [← UInt32.toNat_inj, queued.curNum]
    simp
  rw [queued.head, queued.tail, count]
  simp

variable {fuel : Nat}

/-- An operation leaves the items of `l` in the queue, having written nothing but links. -/
structure Leaves (q : EvQueue σ α) (m : σ) (q' : EvQueue σ α) (m' : σ) (l : List α) : Prop where
  queued : Queued q' m' l
  priFunc : q'.priFunc = q.priFunc
  priorities : ∀ (f : EvPriFunc σ α) (a : α), f.value m' a = f.value m a

/-- A push writes links only. -/
theorem evQueueRawPush_fixed {γ : Type*} {φ : σ → γ}
    (fixed : ∀ (m : σ) (a : α) (p : Option α), φ (setNext m a p) = φ m) {x : Option α}
    {sts : EvQueueSts} (run : evQueueRawPush fuel q x m = some (sts, q', m'))
    : φ m' = φ m := by
  cases x with
  | none =>
      cases run
      rfl
  | some x =>
      simp only [evQueueRawPush] at run
      split at run
      · cases run
        exact fixed _ _ _
      · obtain ⟨tail, -, result⟩ := Option.bind_eq_some_iff.mp run
        cases result
        rw [fixed, fixed]
      · obtain ⟨⟨previous, current⟩, -, result⟩ := Option.bind_eq_some_iff.mp run
        cases previous with
        | none =>
            cases result
            exact fixed _ _ _
        | some previous =>
            cases result
            rw [fixed, fixed]

/-- A push changes the links of the new item and of items in the queue. -/
theorem Queued.push_keeps {P : σ → Prop} {x : α} {sts : EvQueueSts} (queued : Queued q m l)
    (keeps : ∀ (m : σ) (a : α) (p : Option α), a = x ∨ a ∈ l → P m → P (setNext m a p))
    (run : evQueueRawPush fuel q (some x) m = some (sts, q', m')) (before : P m)
    : P m' := by
  simp only [evQueueRawPush] at run
  split at run
  · cases run
    exact keeps _ _ _ (.inl rfl) before
  · obtain ⟨tail, last, result⟩ := Option.bind_eq_some_iff.mp run
    have inside : tail ∈ l := List.mem_of_getLast? (queued.tail.symm.trans last)
    cases result
    exact keeps _ _ _ (.inl rfl) (keeps _ _ _ (.inr inside) before)
  · rename_i head priFunc first pri
    obtain ⟨⟨previous, current⟩, walk, result⟩ := Option.bind_eq_some_iff.mp run
    cases previous with
    | none =>
        cases result
        exact keeps _ _ _ (.inl rfl) before
    | some previous =>
        have chain := queued.chain
        rw [first] at chain
        have inside : previous ∈ l := by simpa using walkUntil_previous chain walk
        cases result
        exact keeps _ _ _ (.inl rfl) (keeps _ _ _ (.inr inside) before)

theorem Queued.count_succ (queued : Queued q m l) (room : l.length < 255)
    : (q.curNum + 1).toNat = l.length + 1 := by
  rw [UInt32.toNat_add, queued.curNum]
  simp
  omega

theorem Queued.count_pred (queued : Queued q m l) (busy : l ≠ [])
    : (q.curNum - 1).toNat = l.length - 1 := by
  have positive : 0 < l.length := List.length_pos_iff.mpr busy
  rw [UInt32.toNat_sub_of_le]
  · rw [queued.curNum]
    rfl
  · rw [UInt32.le_iff_toNat_le, queued.curNum]
    exact positive

theorem Queued.push_first (queued : Queued q m []) (x : α)
    : ∃ q' m', evQueueRawPush fuel q (some x) m = some (.queueSucc, q', m')
      ∧ Leaves q m q' m' [x] := by
  have empty : q.head = none := queued.head
  have run : evQueueRawPush fuel q (some x) m
      = some (.queueSucc, { q with head := some x, tail := some x, curNum := q.curNum + 1 },
          setNext m x none) := by
    rw [evQueueRawPush, empty]
    rfl
  have list : ListAt m none ([] : List α) := rfl
  exact ⟨_, _, run, ⟨list.push (by simp), rfl, queued.count_succ (by simp)⟩, rfl,
    fun f => f.fixed m x none⟩

/-- Behind `b`, where the walk of a push found its place. -/
theorem Queued.insert {l₁ l₂ : List α} {b x : α} (queued : Queued q m (l₁ ++ b :: l₂))
    (room : (l₁ ++ b :: l₂).length < 255) (fresh : x ∉ l₁ ++ b :: l₂)
    (tail : Option α) (last : tail = (b :: x :: l₂).getLast?)
    : Leaves q m { q with tail, curNum := q.curNum + 1 }
        (setNext (setNext m b (some x)) x l₂.head?) (l₁ ++ b :: x :: l₂) := by
  refine ⟨⟨queued.chain.insert fresh, ?_, ?_⟩, rfl, fun f a => by rw [f.fixed, f.fixed]⟩
  · simp [last, List.getLast?_append, List.getLast?_cons]
  · simp [queued.count_succ room]
    omega

theorem Queued.push_fifo (queued : Queued q m l) (room : l.length < 255)
    (fifo : q.priFunc = none) {x : α} (fresh : x ∉ l)
    : ∃ q' m', evQueueRawPush fuel q (some x) m = some (.queueSucc, q', m')
      ∧ Leaves q m q' m' (l ++ [x]) := by
  rcases List.eq_nil_or_concat l with rfl | ⟨front, last, split⟩
  · exact queued.push_first x
  rw [List.concat_eq_append] at split
  subst split
  have tail : q.tail = some last := by simp [queued.tail]
  obtain ⟨head, found⟩ : ∃ head, q.head = some head := by
    rw [queued.head]
    cases front <;> simp
  have run : evQueueRawPush fuel q (some x) m
      = some (.queueSucc, { q with tail := some x, curNum := q.curNum + 1 },
          setNext (setNext m last (some x)) x none) := by
    rw [evQueueRawPush, found, fifo, tail]
    rfl
  have leaves := queued.insert room fresh (some x) rfl
  rw [List.append_assoc]
  exact ⟨_, _, run, leaves⟩

/-- The walk passes the items that are not behind the new one in priority. -/
theorem Queued.push_pri (queued : Queued q m l) (room : l.length < 255)
    (enough : l.length ≤ fuel) {f : EvPriFunc σ α} (pri : q.priFunc = some f) {x : α}
    (fresh : x ∉ l)
    : ∃ q' m', evQueueRawPush fuel q (some x) m = some (.queueSucc, q', m')
      ∧ Leaves q m q' m' (l.takeWhile (fun a => !decide (f.value m x < f.value m a))
        ++ x :: l.dropWhile (fun a => !decide (f.value m x < f.value m a))) := by
  by_cases busy : l = []
  · subst busy
    exact queued.push_first x
  obtain ⟨head, found⟩ : ∃ head, q.head = some head := by
    rw [queued.head]
    cases l <;> simp at busy ⊢
  have walk := walkUntil_list (fun a => decide (f.value m x < f.value m a)) none queued.chain enough
  have split := List.takeWhile_append_dropWhile
    (p := fun a => !decide (f.value m x < f.value m a)) (l := l)
  revert walk split
  generalize l.takeWhile (fun a => !decide (f.value m x < f.value m a)) = l₁
  generalize l.dropWhile (fun a => !decide (f.value m x < f.value m a)) = l₂
  intro walk split
  subst split
  rw [found] at walk
  rcases List.eq_nil_or_concat l₁ with rfl | ⟨front, previous, ended⟩
  · have first : l₂.head? = some head := by rw [← queued.head.symm.trans found]; rfl
    have run : evQueueRawPush fuel q (some x) m
        = some (.queueSucc, { q with head := some x, curNum := q.curNum + 1 },
            setNext m x q.head) := by
      simp only [evQueueRawPush, found, pri, walk, first]
      rfl
    refine ⟨_, _, run, ⟨queued.chain.push fresh, ?_, ?_⟩, rfl, fun g => g.fixed m x _⟩
    · rw [queued.tail]
      cases l₂ <;> simp [List.getLast?_cons] at busy ⊢
    · simpa using queued.count_succ room
  · rw [List.concat_eq_append] at ended
    subst ended
    have run : evQueueRawPush fuel q (some x) m
        = some (.queueSucc,
            { q with
              tail := if l₂.head?.isNone then some x else q.tail
              curNum := q.curNum + 1 },
            setNext (setNext m previous (some x)) x l₂.head?) := by
      simp only [evQueueRawPush, found, pri, walk]
      simp
    rw [List.append_assoc] at queued room fresh
    have leaves := queued.insert room fresh (if l₂.head?.isNone then some x else q.tail) ?_
    · rw [List.append_assoc]
      exact ⟨_, _, run, leaves⟩
    · cases l₂ <;> simp [queued.tail, List.getLast?_append, List.getLast?_cons]

variable [DecidableEq α]

/-- A last item other than the first one is also last behind the first one. -/
theorem Queued.tail_cons {a : α} {rest : List α} (queued : Queued q m (a :: rest))
    : (if q.tail = some a then none else q.tail) = rest.getLast? := by
  have fresh : a ∉ rest := (List.nodup_cons.mp queued.chain.nodup).1
  rw [queued.tail, List.getLast?_cons]
  cases last : rest.getLast? with
  | none => simp
  | some b =>
      have other : b ≠ a := by
        rintro rfl
        exact fresh (List.mem_of_getLast? last)
      simp [other]

theorem Queued.pop (queued : Queued q m l)
    : (evQueueRawPop q m).1 = l.head? ∧ Leaves q m (evQueueRawPop q m).2 m l.tail := by
  refine ⟨queued.head, ?_⟩
  cases l with
  | nil =>
      have empty : q.head = none := queued.head
      have zero : q.curNum = 0 := (queued.empty.1.trans queued.empty.2).mp empty
      simp only [evQueueRawPop, empty, zero, if_true]
      exact ⟨⟨rfl, rfl, by simp⟩, rfl, fun f a => rfl⟩
  | cons a rest =>
      have first : q.head = some a := queued.head
      have count := queued.count_pred (by simp)
      have behind : ListAt m (next m a) rest := queued.chain.2
      have tail := queued.tail_cons
      simp only [evQueueRawPop, first]
      split
      · rename_i zero
        have ended : rest = [] := by
          rw [zero] at count
          simpa using count.symm
        subst ended
        exact ⟨⟨rfl, rfl, by simpa using count⟩, rfl, fun f a => rfl⟩
      · exact ⟨⟨behind, tail, by simpa using count⟩, rfl, fun f a => rfl⟩

/-- The item behind `previous` taken out. -/
theorem Queued.unlink {front l₂ : List α} {a previous x : α}
    (queued : Queued q m (front ++ previous :: x :: l₂)) (other : a ≠ x) (first : q.head = some a)
    (walk : walkUntil m (· == x) fuel none (some a) = some (some previous, some x))
    : ∃ q' m', evQueueRawDelete fuel q (some x) m = some (.queueSucc, q', m')
      ∧ Leaves q m q' m' ((front ++ previous :: x :: l₂).erase x) := by
  have run : evQueueRawDelete fuel q (some x) m
      = some (.queueSucc,
          { q with
            tail := if (next m x).isNone then some previous else q.tail
            curNum := q.curNum - 1 }, setNext m previous (next m x)) := by
    simp [evQueueRawDelete, first, other, walk]
  have behind : ListAt m (next m x) l₂ :=
    (ListAt.suffix (front ++ [previous]) (by simpa using queued.chain) : ListAt m (some x) (x :: l₂)).2
  have count := queued.count_pred (by simp)
  refine ⟨_, _, run, ⟨queued.chain.remove, ?_, ?_⟩, rfl, fun f b => f.fixed m previous _ b⟩
  all_goals rw [(nodup_behind queued.chain.nodup).2]
  · rw [ListAt.head behind, queued.tail]
    cases l₂ <;> simp [List.getLast?_append, List.getLast?_cons]
  · simp only [count, List.length_append, List.length_cons]
    omega

theorem Queued.delete_mem (queued : Queued q m l) (enough : l.length ≤ fuel) {x : α}
    (inside : x ∈ l)
    : ∃ q' m', evQueueRawDelete fuel q (some x) m = some (.queueSucc, q', m')
      ∧ Leaves q m q' m' (l.erase x) := by
  cases l with
  | nil => simp at inside
  | cons a rest =>
      have first : q.head = some a := queued.head
      have behind : ListAt m (next m a) rest := queued.chain.2
      have count := queued.count_pred (by simp)
      by_cases here : a = x
      · subst here
        have run : evQueueRawDelete fuel q (some a) m
            = some (.queueSucc,
                { q with
                  head := next m a
                  tail := if (next m a).isNone then none else q.tail
                  curNum := q.curNum - 1 }, m) := by
          simp [evQueueRawDelete, first]
        refine ⟨_, _, run, ⟨?_, ?_, ?_⟩, rfl, fun f b => rfl⟩
        · simpa using behind
        · rw [ListAt.head behind, queued.tail]
          cases rest <;> simp [List.getLast?_cons]
        · simpa using count
      · obtain ⟨l₁, l₂, split, walk⟩ := walkUntil_mem none queued.chain enough inside
        rcases List.eq_nil_or_concat l₁ with rfl | ⟨front, previous, ended⟩
        · exact absurd (List.cons.inj split).1 here
        rw [first, ended] at walk
        rw [ended, List.concat_eq_append, List.append_assoc] at split
        rw [split] at queued ⊢
        exact queued.unlink here first (by simpa using walk)

/-- A removal changes the links of items in the queue. -/
theorem Queued.delete_keeps {P : σ → Prop} {x : α} {sts : EvQueueSts} (queued : Queued q m l)
    (keeps : ∀ (m : σ) (a : α) (p : Option α), a ∈ l → P m → P (setNext m a p))
    (run : evQueueRawDelete fuel q (some x) m = some (sts, q', m')) (before : P m)
    : P m' := by
  simp only [evQueueRawDelete] at run
  split at run
  · cases run
    exact before
  · cases run
    exact before
  · next delElement head same first =>
      split at run
      · cases run
        exact before
      · obtain ⟨⟨previous, current⟩, walk, result⟩ := Option.bind_eq_some_iff.mp run
        cases current with
        | none =>
            cases result
            exact before
        | some current =>
            obtain ⟨b, found, result⟩ := Option.bind_eq_some_iff.mp result
            cases result
            have chain := queued.chain
            rw [first] at chain
            dsimp only at found
            rw [found] at walk
            have inside : b ∈ l := by simpa using walkUntil_previous chain walk
            exact keeps _ _ _ inside before

theorem Queued.delete_not_mem (queued : Queued q m l) (enough : l.length ≤ fuel) {x : α}
    (absent : x ∉ l)
    : evQueueRawDelete fuel q (some x) m
      = some (if l = [] then .queueEmpty else .queueNotFound, q, m) := by
  have walk := walkUntil_not_mem none queued.chain enough absent
  cases l with
  | nil =>
      have empty : q.head = none := queued.head
      simp [evQueueRawDelete, empty]
  | cons a rest =>
      have first : q.head = some a := queued.head
      have other : a ≠ x := fun same => absent (by simp [same])
      rw [first] at walk
      simp [evQueueRawDelete, first, other, walk]

end Lists

-----------------------------------------------------------------------------------------
-- The abstract queue
-----------------------------------------------------------------------------------------

/-- The operations of a queue. -/
inductive QueueOp (α : Type) where
  | push (payload : EvPayload α)
  | pop
  | delete (payload : EvPayload α)

/-- What an operation returns. -/
inductive QueueResult (α : Type) where
  | status (sts : EvQueueSts)
  | payload (payload : Option (EvPayload α))

/-- An item in an abstract queue, with the number of the operation that pushed it. -/
structure QueueEntry (α : Type) where
  item : α
  stamp : Nat

section Abstract

variable {σ α : Type} [LinkStore σ α] [DecidableEq α]

/-- The operation on a queue in memory. -/
def QueueOp.exec (fuel : Nat) (q : EvQueue σ α) (m : σ)
    : QueueOp α → Option (QueueResult α × EvQueue σ α × σ)
  | .push payload => (evQueuePush fuel q payload m).map fun (sts, q, m) => (.status sts, q, m)
  | .pop => some (.payload (evQueuePop q m).1, (evQueuePop q m).2, m)
  | .delete payload => (evQueueDelete fuel q payload m).map fun (sts, q, m) => (.status sts, q, m)

/-- The operation on a list: a push goes behind everything, or behind every item whose value is
not greater.
-/
def QueueOp.spec (pri : Option (α → UInt32)) (stamp : Nat) (l : List (QueueEntry α))
    : QueueOp α → QueueResult α × List (QueueEntry α)
  | .push payload =>
      let entry := ⟨payload.item, stamp⟩
      (.status .queueSucc,
        match pri with
        | none => l ++ [entry]
        | some f =>
            l.takeWhile (fun e => !decide (f payload.item < f e.item))
              ++ entry :: l.dropWhile (fun e => !decide (f payload.item < f e.item)))
  | .pop => (.payload (l.head?.map fun e => ⟨e.item⟩), l.tail)
  | .delete payload =>
      if l.any (·.item == payload.item) then
        (.status .queueSucc, l.eraseP (·.item == payload.item))
      else (.status (if l.isEmpty then .queueEmpty else .queueNotFound), l)

/-- What the callers promise: an item is pushed while it is in no queue, and there are at most
255 items.
-/
def QueueOp.Allowed (l : List (QueueEntry α)) : QueueOp α → Prop
  | .push payload => payload.item ∉ l.map QueueEntry.item ∧ l.length < 255
  | _ => True

/-- The order in which items leave: by push, or by value and among equals by push. -/
def Precedes (pri : Option (α → UInt32)) (a b : QueueEntry α) : Prop :=
  match pri with
  | none => a.stamp < b.stamp
  | some f => f a.item < f b.item ∨ f a.item = f b.item ∧ a.stamp < b.stamp

/-- The current value of the priority function on every item. -/
def EvQueue.pri (q : EvQueue σ α) (m : σ) : Option (α → UInt32) := q.priFunc.map (·.value m)

/-- Runs of a queue. Between two operations other code may write anything but the links of the
queued items and what their priorities depend on.
-/
inductive QueueRun (fuel : Nat) (priFunc : Option (EvPriFunc σ α))
    : EvQueue σ α → σ → List (QueueEntry α) → Nat → Prop where
  | init (m : σ) : QueueRun fuel priFunc (evQueueInit priFunc) m [] 0
  | op {q q' : EvQueue σ α} {m m' : σ} {l : List (QueueEntry α)} {stamp : Nat}
      {result : QueueResult α} (before : QueueRun fuel priFunc q m l stamp) {op : QueueOp α}
      (allowed : op.Allowed l) (exec : op.exec fuel q m = some (result, q', m'))
      : QueueRun fuel priFunc q' m' (op.spec (q.pri m) stamp l).2 (stamp + 1)
  | other {q : EvQueue σ α} {m m' : σ} {l : List (QueueEntry α)} {stamp : Nat}
      (before : QueueRun fuel priFunc q m l stamp)
      (links : ∀ e ∈ l, next m' e.item = next m e.item)
      (values : ∀ f, q.priFunc = some f → ∀ e ∈ l, f.value m' e.item = f.value m e.item)
      : QueueRun fuel priFunc q m' l stamp

end Abstract

-----------------------------------------------------------------------------------------
-- Refinement
-----------------------------------------------------------------------------------------

section Refinement

variable {σ α : Type} [LinkStore σ α] {fuel : Nat} {m m' : σ} {q q' : EvQueue σ α}
  {l : List (QueueEntry α)} {stamp : Nat}

/-- The queue in memory stands for the abstract one. -/
structure Tracks (q : EvQueue σ α) (m : σ) (l : List (QueueEntry α)) (stamp : Nat) : Prop where
  queued : Queued q m (l.map QueueEntry.item)
  ordered : l.Pairwise (Precedes (q.pri m))
  stamps : ∀ e ∈ l, e.stamp < stamp
  room : l.length ≤ 255

theorem Leaves.pri {l : List α} (leaves : Leaves q m q' m' l) : q'.pri m' = q.pri m := by
  rw [EvQueue.pri, EvQueue.pri, leaves.priFunc]
  cases q.priFunc with
  | none => rfl
  | some f => exact congrArg some (funext (leaves.priorities f))

theorem Leaves.tracks {l' : List (QueueEntry α)}
    (leaves : Leaves q m q' m' (l'.map QueueEntry.item))
    (ordered : l'.Pairwise (Precedes (q.pri m))) (stamps : ∀ e ∈ l', e.stamp < stamp)
    (room : l'.length ≤ 255)
    : Tracks q' m' l' stamp := by
  rw [← leaves.pri] at ordered
  exact ⟨leaves.queued, ordered, stamps, room⟩

/-- A removal keeps the order of the rest. -/
theorem Tracks.sublist {l' : List (QueueEntry α)} (tracks : Tracks q m l stamp)
    (leaves : Leaves q m q' m' (l'.map QueueEntry.item)) (sub : l'.Sublist l)
    : Tracks q' m' l' (stamp + 1) := by
  have room := tracks.room
  have short := sub.length_le
  refine leaves.tracks (tracks.ordered.sublist sub) (fun e inside => ?_) (by omega)
  have before := tracks.stamps e (sub.subset inside)
  omega

/-- A new item goes between those that are not behind it and those that are. -/
theorem pairwise_insert {f : α → UInt32} {x : α} (ordered : l.Pairwise (Precedes (some f)))
    (stamps : ∀ e ∈ l, e.stamp < stamp)
    : (l.takeWhile (fun e => !decide (f x < f e.item))
        ++ ⟨x, stamp⟩ :: l.dropWhile (fun e => !decide (f x < f e.item))).Pairwise
      (Precedes (some f)) := by
  induction l with
  | nil => simp
  | cons e rest ih =>
      obtain ⟨first, later⟩ := List.pairwise_cons.mp ordered
      by_cases behind : f x < f e.item
      · simp only [behind, decide_true, Bool.not_true, List.takeWhile_cons, List.dropWhile_cons,
          Bool.false_eq_true, if_false, List.nil_append]
        refine List.pairwise_cons.mpr ⟨fun b inside => Or.inl ?_, ordered⟩
        rcases List.mem_cons.mp inside with rfl | inside
        · exact behind
        · rcases first b inside with less | ⟨same, -⟩
          · exact UInt32.lt_trans behind less
          · exact same ▸ behind
      · simp only [behind, decide_false, Bool.not_false, List.takeWhile_cons, List.dropWhile_cons,
          if_true, List.cons_append]
        refine List.pairwise_cons.mpr
          ⟨fun b inside => ?_, ih later (fun b inside => stamps b (by simp [inside]))⟩
        rcases List.mem_append.mp inside with inside | inside
        · exact first b (List.takeWhile_subset _ inside)
        · rcases List.mem_cons.mp inside with rfl | inside
          · rcases UInt32.lt_or_eq_of_le (UInt32.not_lt.mp behind) with less | same
            · exact Or.inl less
            · exact Or.inr ⟨same, stamps e (by simp)⟩
          · exact first b (List.dropWhile_subset _ inside)

variable [DecidableEq α]

theorem Tracks.push (tracks : Tracks q m l stamp) (enough : 255 ≤ fuel) {payload : EvPayload α}
    (allowed : (QueueOp.push payload).Allowed l)
    : ∃ q' m', evQueuePush fuel q payload m = some (.queueSucc, q', m')
      ∧ Tracks q' m' ((QueueOp.push payload).spec (q.pri m) stamp l).2 (stamp + 1) := by
  obtain ⟨fresh, room⟩ := allowed
  have queued := tracks.queued
  have ordered := tracks.ordered
  have stamps := tracks.stamps
  have short : (l.map QueueEntry.item).length < 255 := by simpa using room
  have later : ∀ e ∈ l, e.stamp < stamp + 1 := fun e inside => Nat.lt_succ_of_lt (stamps e inside)
  cases fifo : q.priFunc with
  | none =>
      have pri : q.pri m = none := by rw [EvQueue.pri, fifo]; rfl
      obtain ⟨q', m', run, leaves⟩ := queued.push_fifo short fifo fresh
      rw [pri] at ordered ⊢
      refine ⟨q', m', run, Leaves.tracks (by simpa [QueueOp.spec] using leaves) ?_ ?_ ?_⟩
      · rw [pri]
        refine List.pairwise_append.mpr ⟨ordered, by simp, fun a inside b last => ?_⟩
        rw [List.mem_singleton.mp last]
        exact stamps a inside
      · simpa [QueueOp.spec, or_imp, forall_and] using later
      · simp only [QueueOp.spec, List.length_append, List.length_singleton]
        exact room
  | some f =>
      have pri : q.pri m = some (f.value m) := by rw [EvQueue.pri, fifo]; rfl
      have walks : (l.map QueueEntry.item).length ≤ fuel := by omega
      obtain ⟨q', m', run, leaves⟩ := queued.push_pri short walks fifo fresh
      rw [pri] at ordered ⊢
      have placed : Leaves q m q' m'
          (((QueueOp.push payload).spec (some (f.value m)) stamp l).2.map QueueEntry.item) := by
        simp only [QueueOp.spec, List.map_append, List.map_cons]
        rw [List.takeWhile_map, List.dropWhile_map] at leaves
        exact leaves
      refine ⟨q', m', run, placed.tracks ?_ ?_ ?_⟩
      · rw [pri]
        exact pairwise_insert ordered stamps
      · intro e inside
        simp only [QueueOp.spec, List.mem_append, List.mem_cons] at inside
        rcases inside with inside | rfl | inside
        · exact later e (List.takeWhile_subset _ inside)
        · exact Nat.lt_succ_self stamp
        · exact later e (List.dropWhile_subset _ inside)
      · have split := congrArg List.length (List.takeWhile_append_dropWhile
          (p := fun e => !decide (f.value m payload.item < f.value m e.item)) (l := l))
        simp only [QueueOp.spec, List.length_append, List.length_cons] at split ⊢
        omega

theorem Tracks.pop (tracks : Tracks q m l stamp)
    : (evQueuePop q m).1 = l.head?.map (fun e => ⟨e.item⟩)
      ∧ Tracks (evQueuePop q m).2 m l.tail (stamp + 1) := by
  obtain ⟨first, leaves⟩ := tracks.queued.pop
  refine ⟨?_, tracks.sublist ?_ (List.tail_sublist l)⟩
  · have popped : (evQueuePop q m).1 = (evQueueRawPop q m).1.map EvPayload.mk := rfl
    rw [popped, first, List.head?_map, Option.map_map]
    rfl
  · rw [List.map_tail]
    exact leaves

theorem Tracks.delete_mem (tracks : Tracks q m l stamp) (enough : 255 ≤ fuel)
    {payload : EvPayload α} (inside : payload.item ∈ l.map QueueEntry.item)
    : ∃ q' m', evQueueDelete fuel q payload m = some (.queueSucc, q', m')
      ∧ Tracks q' m' (l.eraseP (·.item == payload.item)) (stamp + 1) := by
  have walks : (l.map QueueEntry.item).length ≤ fuel := by
    rw [List.length_map]
    exact tracks.room.trans enough
  obtain ⟨q', m', run, leaves⟩ := tracks.queued.delete_mem walks inside
  refine ⟨q', m', run, tracks.sublist ?_ List.eraseP_sublist⟩
  rw [List.erase_eq_eraseP', List.eraseP_map] at leaves
  exact leaves

theorem Tracks.delete_not_mem (tracks : Tracks q m l stamp) (enough : 255 ≤ fuel)
    {payload : EvPayload α} (absent : payload.item ∉ l.map QueueEntry.item)
    : evQueueDelete fuel q payload m
      = some (if l.isEmpty then .queueEmpty else .queueNotFound, q, m) := by
  have walks : (l.map QueueEntry.item).length ≤ fuel := by
    rw [List.length_map]
    exact tracks.room.trans enough
  rw [evQueueDelete, evBufGetHead, tracks.queued.delete_not_mem walks absent]
  cases l <;> simp

/-- One operation, on the queue in memory and on the list. -/
theorem Tracks.step (tracks : Tracks q m l stamp) (enough : 255 ≤ fuel) {op : QueueOp α}
    (allowed : op.Allowed l)
    : ∃ q' m', op.exec fuel q m = some ((op.spec (q.pri m) stamp l).1, q', m')
      ∧ Tracks q' m' (op.spec (q.pri m) stamp l).2 (stamp + 1)
      ∧ ∀ payload, op = .delete payload → payload.item ∉ l.map QueueEntry.item
        → q' = q ∧ m' = m := by
  cases op with
  | push payload =>
      obtain ⟨q', m', run, after⟩ := tracks.push enough allowed
      exact ⟨q', m', by rw [QueueOp.exec, run]; rfl, after, by simp⟩
  | pop =>
      obtain ⟨first, after⟩ := tracks.pop
      exact ⟨_, _, by rw [QueueOp.exec, first]; rfl, after, by simp⟩
  | delete payload =>
      by_cases inside : payload.item ∈ l.map QueueEntry.item
      · obtain ⟨q', m', run, after⟩ := tracks.delete_mem enough inside
        have any : l.any (·.item == payload.item) = true := by simpa using inside
        refine ⟨q', m', ?_, ?_, ?_⟩
        · rw [QueueOp.exec, run, QueueOp.spec, if_pos any]
          rfl
        · rw [QueueOp.spec, if_pos any]
          exact after
        · rintro _ ⟨⟩ absent
          exact absurd inside absent
      · have run := tracks.delete_not_mem enough inside
        have none : ¬l.any (·.item == payload.item) = true := by simpa using inside
        refine ⟨q, m, ?_, ?_, fun _ _ _ => ⟨rfl, rfl⟩⟩
        · rw [QueueOp.exec, run, QueueOp.spec, if_neg none]
          rfl
        · rw [QueueOp.spec, if_neg none]
          exact { tracks with stamps := fun e inside => Nat.lt_succ_of_lt (tracks.stamps e inside) }

/-- By induction on the run. -/
theorem QueueRun.tracks {priFunc : Option (EvPriFunc σ α)} (enough : 255 ≤ fuel)
    (run : QueueRun fuel priFunc q m l stamp)
    : Tracks q m l stamp := by
  induction run with
  | init m => exact ⟨⟨rfl, rfl, rfl⟩, by simp, by simp, by simp⟩
  | op _ allowed exec ih =>
      obtain ⟨q', m', run, after, -⟩ := ih.step enough allowed
      rw [run, Option.some.injEq, Prod.mk.injEq, Prod.mk.injEq] at exec
      obtain ⟨-, rfl, rfl⟩ := exec
      exact after
  | @other q m m' l stamp _ links values ih =>
      refine ⟨ih.queued.congr ?_, ?_, ih.stamps, ih.room⟩
      · simpa using links
      · refine ih.ordered.imp_of_mem fun {a b} first second before => ?_
        rw [EvQueue.pri] at before ⊢
        cases fifo : q.priFunc with
        | none =>
            rw [fifo] at before
            exact before
        | some f =>
            rw [fifo] at before
            simp only [Option.map_some, Precedes] at before ⊢
            rw [values f fifo a first, values f fifo b second]
            exact before

end Refinement

/-- A queue refines the list of its items, in the order in which they leave. -/
theorem evQueue_refines_list {σ α : Type} [LinkStore σ α] [DecidableEq α] {fuel : Nat}
    {priFunc : Option (EvPriFunc σ α)} {q : EvQueue σ α} {m : σ} {l : List (QueueEntry α)}
    {stamp : Nat} (enough : 255 ≤ fuel) (run : QueueRun fuel priFunc q m l stamp)
    : Queued q m (l.map QueueEntry.item) ∧ (l.map QueueEntry.item).Nodup
      ∧ (q.head = none ↔ q.tail = none) ∧ (q.tail = none ↔ q.curNum = 0)
      ∧ l.Pairwise (Precedes (q.pri m))
      ∧ ∀ op : QueueOp α, op.Allowed l
        → ∃ q' m', op.exec fuel q m = some ((op.spec (q.pri m) stamp l).1, q', m')
          ∧ QueueRun fuel priFunc q' m' (op.spec (q.pri m) stamp l).2 (stamp + 1)
          ∧ ∀ payload, op = .delete payload → payload.item ∉ l.map QueueEntry.item
            → q' = q ∧ m' = m := by
  have tracks := run.tracks enough
  refine ⟨tracks.queued, tracks.queued.chain.nodup, tracks.queued.empty.1, tracks.queued.empty.2,
    tracks.ordered, fun op allowed => ?_⟩
  obtain ⟨q', m', exec, -, kept⟩ := tracks.step enough allowed
  exact ⟨q', m', exec, run.op allowed exec, kept⟩

/-- The last digit as a priority. -/
def lastDigit : EvPriFunc (Nat → Option Nat) Nat where
  value _ a := UInt32.ofNat (a % 10)
  fixed _ _ _ _ := rfl

/-- Equal priorities keep the order of their pushes. -/
theorem evQueue_refines_list_digits
    : ∃ q m, QueueRun 255 (some lastDigit) q m [⟨21, 1⟩, ⟨11, 2⟩, ⟨12, 0⟩] 3
      ∧ Queued q m [21, 11, 12] := by
  have empty : QueueRun 255 (some lastDigit) (evQueueInit (some lastDigit)) (fun _ => none) [] 0 :=
    .init _
  have first := empty.op (show (QueueOp.push ⟨12⟩).Allowed _ from ⟨by decide, by decide⟩) rfl
  have second := first.op (show (QueueOp.push ⟨21⟩).Allowed _ from ⟨by decide, by decide⟩) rfl
  have third := second.op (show (QueueOp.push ⟨11⟩).Allowed _ from ⟨by decide, by decide⟩) rfl
  exact ⟨_, _, third, (evQueue_refines_list (by decide) third).1⟩

end TelinkSdk
