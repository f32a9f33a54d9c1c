import Mathlib.Data.Fintype.Sum
import Mathlib.Data.Finset.Card
import TelinkSdk.Os.Timer

/-! What the calls of `ev_timer.c` do to the list and to the pool. Every call ends, whatever
timers it is made for.
-/

namespace TelinkSdk

open Links LinkView LinkStore

variable {statics : Nat} {s s' : EvTimer statics} {l : List (TimerRef statics)}
  {r x : TimerRef statics} {f : EvTimerEvent statics → EvTimerEvent statics}

-----------------------------------------------------------------------------------------
-- Fields
-----------------------------------------------------------------------------------------

@[simp]
theorem EvTimer.modify_self : (s.modify r f).evt r = f (s.evt r) := by simp [EvTimer.modify]

@[simp]
theorem EvTimer.modify_of_ne (other : x ≠ r) : (s.modify r f).evt x = s.evt x := by
  simp [EvTimer.modify, other]

/-- A field that the change keeps is kept for every timer. -/
theorem EvTimer.modify_field {β : Type} (field : EvTimerEvent statics → β)
    (keeps : field (f (s.evt r)) = field (s.evt r)) (x : TimerRef statics)
    : field ((s.modify r f).evt x) = field (s.evt x) := by
  by_cases same : x = r
  · subst same
    rw [EvTimer.modify_self, keeps]
  · rw [EvTimer.modify_of_ne same]

/-- The place of a timer among the slots of the pool and the static events. -/
def TimerRef.place : TimerRef statics → Fin timerEventNum ⊕ Fin statics
  | .slot i => .inl i
  | .event n => .inr n

theorem TimerRef.length_le (nodup : l.Nodup) : l.length ≤ walkFuel statics := by
  have injective : Function.Injective (@TimerRef.place statics) := by
    intro a b same
    cases a <;> cases b <;> simp_all [TimerRef.place]
  have bound := (nodup.map injective).length_le_card
  simpa [timerEventNum] using bound

/-- A list fits into the fuel of a walk. -/
theorem listAt_walks {p : Option (TimerRef statics)} (list : ListAt s p l)
    : l.length ≤ walkFuel statics :=
  TimerRef.length_le list.nodup

-----------------------------------------------------------------------------------------
-- Walks
-----------------------------------------------------------------------------------------

theorem listExist_eq (list : ListAt s s.timerHead l) (r : TimerRef statics)
    : listExist s r = some (if r ∈ l then some r else none) := by
  by_cases inside : r ∈ l
  · obtain ⟨l₁, l₂, -, walk⟩ := walkUntil_mem none list (listAt_walks list) inside
    rw [listExist, walk, if_pos inside]
    rfl
  · rw [listExist, walkUntil_not_mem none list (listAt_walks list) inside, if_neg inside]
    rfl

theorem evTimerNearestUpdate.loop_ends {p : Option (TimerRef statics)} {fuel : Nat}
    (list : ListAt s p l) (enough : l.length ≤ fuel) (nearest : TimerRef statics)
    : ∃ n, evTimerNearestUpdate.loop s fuel p nearest = some n := by
  induction l generalizing p fuel nearest with
  | nil =>
      have ended : p = none := list
      subst ended
      exact ⟨nearest, by cases fuel <;> rfl⟩
  | cons a rest ih =>
      obtain ⟨rfl, behind⟩ := list
      cases fuel with
      | zero => simp at enough
      | succ fuel => exact ih behind (by simpa using enough) _

theorem evTimerNearestUpdate_eq (list : ListAt s s.timerHead l)
    : ∃ n, evTimerNearestUpdate s = some { s with timerNearest := n } := by
  cases head : s.timerHead with
  | none => exact ⟨none, by rw [evTimerNearestUpdate, head]⟩
  | some first =>
      rw [head] at list
      obtain ⟨n, run⟩ := evTimerNearestUpdate.loop_ends list (listAt_walks list) first
      refine ⟨some n, ?_⟩
      rw [evTimerNearestUpdate, head]
      simp only [run, Option.map_some]

def EvTimerEvent.unlinked (e : EvTimerEvent statics) : EvTimerEvent statics :=
  { e with next := none }

/-- Nothing but links differs. -/
structure SameTimers (s s' : EvTimer statics) : Prop where
  data : ∀ x, (s'.evt x).unlinked = (s.evt x).unlinked
  usedNum : s'.usedNum = s.usedNum

theorem SameTimers.used (same : SameTimers s s') (x : TimerRef statics)
    : (s'.evt x).used = (s.evt x).used := by
  have fields := congrArg EvTimerEvent.used (same.data x)
  exact fields

theorem SameTimers.timeout (same : SameTimers s s') (x : TimerRef statics)
    : (s'.evt x).timeout = (s.evt x).timeout := by
  have fields := congrArg EvTimerEvent.timeout (same.data x)
  exact fields

theorem sameTimers_setNext (s : EvTimer statics) (r : TimerRef statics)
    (p : Option (TimerRef statics))
    : SameTimers s (setNext s r p) :=
  ⟨EvTimer.modify_field EvTimerEvent.unlinked rfl, rfl⟩

/-- The timer taken out keeps its own link, like all that are not in the list. -/
theorem listDelete_eq (list : ListAt s s.timerHead l) (inside : r ∈ l)
    : ∃ s', listDelete s r = some s' ∧ ListAt s' s'.timerHead (l.erase r) ∧ SameTimers s s'
      ∧ ∀ x ∉ l.erase r, next s' x = next s x := by
  cases l with
  | nil => simp at inside
  | cons a rest =>
      have first : s.timerHead = some a := list.1
      have behind : ListAt s (next s a) rest := list.2
      by_cases here : a = r
      · subst here
        refine ⟨{ s with timerHead := next s a }, ?_, ?_, ⟨fun _ => rfl, rfl⟩, fun _ _ => rfl⟩
        · simp [listDelete, first]
        · rw [List.erase_cons_head]
          exact behind.congr (fun _ _ => rfl)
      · have later : r ∈ rest := by simpa [Ne.symm here] using inside
        obtain ⟨l₁, l₂, rfl, walk⟩ :=
          walkUntil_mem (some a) behind (listAt_walks behind) later
        obtain ⟨front, lst, split⟩ : ∃ front lst, a :: l₁ = front ++ [lst] :=
          ⟨_, _, (List.dropLast_append_getLast (List.cons_ne_nil a l₁)).symm⟩
        have last : l₁.getLast?.or (some a) = some lst := by
          have ended := congrArg List.getLast? split
          rw [List.getLast?_cons, List.getLast?_append] at ended
          cases found : l₁.getLast? <;> simp [found] at ended ⊢ <;> exact ended
        have whole : a :: (l₁ ++ r :: l₂) = front ++ lst :: r :: l₂ := by
          rw [← List.cons_append, split]
          simp
        rw [whole] at list ⊢
        refine ⟨setNext s lst (next s r), ?_, list.remove, sameTimers_setNext s lst _, ?_⟩
        · simp [listDelete, first, here, walk, last]
        · intro x absent
          rw [(nodup_behind list.nodup).2] at absent
          exact next_setNext_of_ne _ _ fun same => absent (by simp [same])

-----------------------------------------------------------------------------------------
-- The pool
-----------------------------------------------------------------------------------------

def usedSlots (s : EvTimer statics) : Finset (Fin timerEventNum) :=
  Finset.univ.filter fun i => (s.evt (.slot i)).used

/-- The list of the timers, and a count of the used slots that is right. -/
structure TimerList (s : EvTimer statics) (l : List (TimerRef statics)) : Prop where
  list : ListAt s s.timerHead l
  counted : s.usedNum.toNat = (usedSlots s).card

theorem usedSlots_congr (same : ∀ i, (s'.evt (.slot i)).used = (s.evt (.slot i)).used)
    : usedSlots s' = usedSlots s :=
  Finset.filter_congr fun i _ => by rw [same i]

theorem TimerList.congr {l' : List (TimerRef statics)} (timers : TimerList s l)
    (list : ListAt s' s'.timerHead l')
    (used : ∀ i, (s'.evt (.slot i)).used = (s.evt (.slot i)).used) (usedNum : s'.usedNum = s.usedNum)
    : TimerList s' l' := by
  refine ⟨list, ?_⟩
  rw [usedNum, usedSlots_congr used]
  exact timers.counted

/-- A change of a timer that keeps its link and its mark. -/
theorem TimerList.modify (timers : TimerList s l) (link : (f (s.evt r)).next = (s.evt r).next)
    (used : (f (s.evt r)).used = (s.evt r).used)
    : TimerList (s.modify r f) l :=
  timers.congr (timers.list.congr fun x _ => EvTimer.modify_field EvTimerEvent.next link x)
    (fun i => EvTimer.modify_field EvTimerEvent.used used (.slot i)) rfl

theorem TimerList.nearest (timers : TimerList s l)
    : ∃ n, evTimerNearestUpdate s = some { s with timerNearest := n }
      ∧ TimerList { s with timerNearest := n } l := by
  obtain ⟨n, run⟩ := evTimerNearestUpdate_eq timers.list
  exact ⟨n, run, timers.congr (timers.list.congr fun _ _ => rfl) (fun _ => rfl) rfl⟩

/-- The mark of a slot set to `b`. -/
theorem usedSlots_mark (i : Fin timerEventNum) (b : Bool)
    : usedSlots (s.modify (.slot i) ({ · with used := b }))
      = if b then insert i (usedSlots s) else (usedSlots s).erase i := by
  ext j
  by_cases same : j = i
  · subst same
    cases b <;> simp [usedSlots]
  · cases b <;> simp [usedSlots, same]

theorem TimerList.mark (timers : TimerList s l) {i : Fin timerEventNum} {b : Bool} {n : UInt32}
    (count : n.toNat = (if b then insert i (usedSlots s) else (usedSlots s).erase i).card)
    : TimerList { s.modify (.slot i) ({ · with used := b }) with usedNum := n } l := by
  have links := EvTimer.modify_field (s := s) (r := .slot i) (f := ({ · with used := b }))
    EvTimerEvent.next rfl
  refine ⟨timers.list.congr fun x _ => links x, ?_⟩
  rw [← usedSlots_mark] at count
  exact count

/-- A slot that is free is taken, and there is one as long as not all are used. -/
theorem TimerList.freeGet (timers : TimerList s l)
    : (evTimerFreeGet s = none ∧ ∀ i, (s.evt (.slot i)).used = true)
      ∨ ∃ i, (s.evt (.slot i)).used = false
        ∧ evTimerFreeGet s = some (i,
          { s.modify (.slot i) ({ · with used := true }) with usedNum := s.usedNum + 1 })
        ∧ TimerList
          { s.modify (.slot i) ({ · with used := true }) with usedNum := s.usedNum + 1 } l := by
  have counted := timers.counted
  by_cases full : s.usedNum ≥ gEvTimerMaxNum
  · have many : timerEventNum ≤ (usedSlots s).card := by
      rw [← counted]
      exact UInt32.le_iff_toNat_le.mp full
    have all : usedSlots s = Finset.univ := Finset.eq_univ_of_card _ (by
      have bound := Finset.card_le_univ (usedSlots s)
      simp only [Fintype.card_fin] at bound ⊢
      omega)
    refine Or.inl ⟨by rw [evTimerFreeGet, if_pos full], fun i => ?_⟩
    have inside : i ∈ usedSlots s := by simp [all]
    simpa [usedSlots] using inside
  · cases found : (List.finRange timerEventNum).find? fun i => !(s.evt (.slot i)).used with
    | none =>
        refine Or.inl ⟨by rw [evTimerFreeGet, if_neg full, found]; rfl, fun i => ?_⟩
        simpa using List.find?_eq_none.mp found i (List.mem_finRange i)
    | some i =>
        have free : (s.evt (.slot i)).used = false := by simpa using List.find?_some found
        have room : s.usedNum.toNat < 24 :=
          Nat.lt_of_not_le fun high => full (UInt32.le_iff_toNat_le.mpr high)
        refine Or.inr ⟨i, free, by rw [evTimerFreeGet, if_neg full, found]; rfl,
          timers.mark ?_⟩
        rw [if_pos rfl, Finset.card_insert_of_notMem (by simp [usedSlots, free]), ← counted,
          UInt32.toNat_add]
        simp
        omega

/-- What `ev_timer_poolDelUpdate` leaves of the timers. -/
structure Released (s : EvTimer statics) (r : TimerRef statics) (s' : EvTimer statics) : Prop where
  links : ∀ x, next s' x = next s x
  timeouts : ∀ x, (s'.evt x).timeout = (s.evt x).timeout
  used : ∀ i, (s'.evt (.slot i)).used = if r = .slot i then false else (s.evt (.slot i)).used

theorem TimerList.poolDelUpdate (timers : TimerList s l) (r : TimerRef statics)
    : TimerList (evTimerPoolDelUpdate s r) l ∧ Released s r (evTimerPoolDelUpdate s r) := by
  let stopped := s.modify r ({ · with isRunning := false, curSysTick := 0 })
  have list : TimerList stopped l := timers.modify rfl rfl
  have links : ∀ x, (stopped.evt x).next = (s.evt x).next :=
    EvTimer.modify_field EvTimerEvent.next rfl
  have timeouts : ∀ x, (stopped.evt x).timeout = (s.evt x).timeout :=
    EvTimer.modify_field EvTimerEvent.timeout rfl
  have used : ∀ x, (stopped.evt x).used = (s.evt x).used :=
    EvTimer.modify_field EvTimerEvent.used rfl
  cases r with
  | event n => exact ⟨list, links, timeouts, fun i => by rw [if_neg (by simp)]; exact used _⟩
  | slot i =>
      by_cases taken : (stopped.evt (.slot i)).used
      · let freed := stopped.modify (.slot i) ({ · with used := false })
        have run : evTimerPoolDelUpdate s (.slot i)
            = { freed with usedNum := stopped.usedNum - 1 } := if_pos taken
        have freedLinks : ∀ x, (freed.evt x).next = (stopped.evt x).next :=
          EvTimer.modify_field EvTimerEvent.next rfl
        have freedTimeouts : ∀ x, (freed.evt x).timeout = (stopped.evt x).timeout :=
          EvTimer.modify_field EvTimerEvent.timeout rfl
        have inside : i ∈ usedSlots stopped := by simpa [usedSlots] using taken
        have positive := Finset.card_pos.mpr ⟨i, inside⟩
        have counted := list.counted
        rw [run]
        refine ⟨list.mark ?_, fun x => (freedLinks x).trans (links x),
          fun x => (freedTimeouts x).trans (timeouts x), fun j => ?_⟩
        · rw [if_neg (by simp), Finset.card_erase_of_mem inside, UInt32.toNat_sub_of_le, counted]
          · rfl
          · rw [UInt32.le_iff_toNat_le, counted]
            exact positive
        · by_cases same : i = j
          · subst same
            simp [freed]
          · have other : (TimerRef.slot j : TimerRef statics) ≠ .slot i := by
              simpa using Ne.symm same
            have kept : freed.evt (.slot j) = stopped.evt (.slot j) := EvTimer.modify_of_ne other
            rw [if_neg (by simpa using same), ← used, ← kept]
      · have run : evTimerPoolDelUpdate s (.slot i) = stopped := if_neg taken
        rw [run]
        refine ⟨list, links, timeouts, fun j => ?_⟩
        rw [used]
        by_cases same : i = j
        · subst same
          rw [if_pos rfl, ← used]
          simpa using taken
        · rw [if_neg (by simpa using same)]

-----------------------------------------------------------------------------------------
-- Calls
-----------------------------------------------------------------------------------------

theorem TimerList.onTimer (timers : TimerList s l) (clockTime : UInt32) (r : TimerRef statics)
    (timeout : UInt32)
    : ∃ s', evOnTimer clockTime (some r) timeout s = some s'
      ∧ TimerList s' (if r ∈ l then l else r :: l)
      ∧ (∀ x ≠ r, next s' x = next s x)
      ∧ ∀ i, (s'.evt (.slot i)).used = (s.evt (.slot i)).used := by
  let armed := s.modify r ({ · with period := timeout })
  have list : TimerList armed l := timers.modify rfl rfl
  have links : ∀ x ≠ r, armed.evt x = s.evt x := fun x other => EvTimer.modify_of_ne other
  have used : ∀ x, (armed.evt x).used = (s.evt x).used :=
    EvTimer.modify_field EvTimerEvent.used rfl
  by_cases inside : r ∈ l
  · let again := armed.modify r fun e => { e with timeout := e.period }
    have kept : ∀ x, (again.evt x).used = (armed.evt x).used :=
      EvTimer.modify_field EvTimerEvent.used rfl
    have later : TimerList again l := list.modify rfl rfl
    obtain ⟨n, run, nearest⟩ := later.nearest
    refine ⟨{ again with timerNearest := n }, ?_, ?_, fun x other => ?_,
      fun i => (kept _).trans (used _)⟩
    · simp only [evOnTimer]
      rw [listExist_eq list.list, if_pos inside]
      exact run
    · rw [if_pos inside]
      exact nearest
    · have later : again.evt x = armed.evt x := EvTimer.modify_of_ne other
      exact congrArg EvTimerEvent.next (later.trans (links x other))
  · let started := armed.modify r fun e => if e.isRunning then e else { e with curSysTick := clockTime }
    let set := started.modify r fun e => { e with timeout := e.period }
    have started_list : TimerList started l := list.modify (by split <;> rfl) (by split <;> rfl)
    have started_used : ∀ x, (started.evt x).used = (armed.evt x).used :=
      EvTimer.modify_field EvTimerEvent.used (by split <;> rfl)
    have set_list : TimerList set l := started_list.modify rfl rfl
    have set_used : ∀ x, (set.evt x).used = (started.evt x).used :=
      EvTimer.modify_field EvTimerEvent.used rfl
    have added_used : ∀ x, ((listAdd set r).evt x).used = (set.evt x).used :=
      (sameTimers_setNext set r set.timerHead).used
    have added : TimerList (listAdd set r) (r :: l) :=
      set_list.congr ((set_list.list.push inside).congr fun _ _ => rfl) (fun i => added_used _) rfl
    obtain ⟨n, run, nearest⟩ := added.nearest
    refine ⟨{ listAdd set r with timerNearest := n }, ?_, ?_, fun x other => ?_, fun i =>
      (added_used _).trans ((set_used _).trans ((started_used _).trans (used _)))⟩
    · simp only [evOnTimer]
      rw [listExist_eq list.list, if_neg inside]
      exact run
    · rw [if_neg inside]
      exact nearest
    · have later : set.evt x = started.evt x := EvTimer.modify_of_ne other
      have first : started.evt x = armed.evt x := EvTimer.modify_of_ne other
      have added : next (listAdd set r) x = next set x :=
        next_setNext_of_ne set set.timerHead other
      exact added.trans (congrArg EvTimerEvent.next (later.trans (first.trans (links x other))))

theorem evUnonTimer_absent (list : ListAt s s.timerHead l) (absent : r ∉ l)
    : evUnonTimer (some r) s = some s := by
  simp only [evUnonTimer]
  rw [listExist_eq list, if_neg absent]
  rfl

/-- The timer leaves the list; its own link still leads where it led. -/
theorem TimerList.unonTimer (timers : TimerList s l) (inside : r ∈ l)
    : ∃ s', evUnonTimer (some r) s = some s' ∧ TimerList s' (l.erase r)
      ∧ (∀ x ∉ l.erase r, next s' x = next s x)
      ∧ (∀ x, (s'.evt x).timeout = (s.evt x).timeout)
      ∧ ∀ i, (s'.evt (.slot i)).used = if r = .slot i then false else (s.evt (.slot i)).used := by
  obtain ⟨pooled, released⟩ := timers.poolDelUpdate r
  obtain ⟨s', deleted, list, same, links⟩ := listDelete_eq pooled.list inside
  have later : TimerList s' (l.erase r) := pooled.congr list (fun i => same.used _) same.usedNum
  obtain ⟨n, run, nearest⟩ := later.nearest
  refine ⟨{ s' with timerNearest := n }, ?_, nearest,
    fun x absent => (links x absent).trans (released.links x),
    fun x => (same.timeout x).trans (released.timeouts x),
    fun i => (same.used _).trans (released.used i)⟩
  simp only [evUnonTimer]
  rw [listExist_eq timers.list, if_pos inside]
  simp only [Option.bind_eq_bind, Option.bind_some, deleted, run]

/-- A post takes a free slot, or fails because there is none. -/
theorem TimerList.taskPost (timers : TimerList s l) (clockTime func arg tMs : UInt32)
    : (evTimerTaskPost clockTime func arg tMs s = some (none, s)
        ∧ ∀ i, (s.evt (.slot i)).used = true)
      ∨ ∃ i s', evTimerTaskPost clockTime func arg tMs s = some (some (.slot i), s')
        ∧ (s.evt (.slot i)).used = false
        ∧ TimerList s' (if .slot i ∈ l then l else .slot i :: l)
        ∧ (∀ x ≠ .slot i, next s' x = next s x)
        ∧ ∀ j, (s'.evt (.slot j)).used = if j = i then true else (s.evt (.slot j)).used := by
  rcases timers.freeGet with ⟨full, all⟩ | ⟨i, free, taken, list⟩
  · refine Or.inl ⟨?_, all⟩
    rw [evTimerTaskPost, evTimerAdd, full]
    rfl
  · let marked : EvTimer statics :=
      { s.modify (.slot i) ({ · with used := true }) with usedNum := s.usedNum + 1 }
    let filled := marked.modify (.slot i) ({ · with cb := func, data := arg })
    have filled_list : TimerList filled l := TimerList.modify list rfl rfl
    have filled_used : ∀ x, (filled.evt x).used = (marked.evt x).used :=
      EvTimer.modify_field EvTimerEvent.used rfl
    obtain ⟨s', run, posted, links, used⟩ := filled_list.onTimer clockTime (.slot i) tMs
    refine Or.inr ⟨i, s', ?_, free, posted, fun x other => ?_, fun j => ?_⟩
    · have added : evTimerTaskPost clockTime func arg tMs s
          = (evOnTimer clockTime (some (.slot i)) tMs filled).bind
              fun s => some (some (.slot i), s) := by
        rw [evTimerTaskPost, evTimerAdd, taken]
        rfl
      rw [added, run]
      rfl
    · have kept : filled.evt x = marked.evt x := EvTimer.modify_of_ne other
      have before : marked.evt x = s.evt x := by simp [marked, EvTimer.modify_of_ne other]
      exact (links x other).trans (congrArg EvTimerEvent.next (kept.trans before))
    · rw [used, filled_used]
      by_cases same : j = i
      · subst same
        simp [marked]
      · simp [marked, same]

/-- Time passes: the links, the marks and the list stay. -/
theorem TimerList.update (timers : TimerList s l) (sTimerClock1us updateTime curSysTick : UInt32)
    : ∃ s', evTimerUpdate sTimerClock1us updateTime curSysTick s = some s' ∧ TimerList s' l
      ∧ (∀ x, next s' x = next s x)
      ∧ ∀ i, (s'.evt (.slot i)).used = (s.evt (.slot i)).used := by
  have loop (rest : List (TimerRef statics)) (fuel : Nat) (p : Option (TimerRef statics))
      (s : EvTimer statics) (timers : TimerList s l) (here : ListAt s p rest)
      (enough : rest.length ≤ fuel)
      : ∃ s', evTimerUpdate.loop sTimerClock1us updateTime curSysTick fuel p s = some s'
        ∧ TimerList s' l ∧ (∀ x, next s' x = next s x)
        ∧ ∀ i, (s'.evt (.slot i)).used = (s.evt (.slot i)).used := by
    induction rest generalizing fuel p s with
    | nil =>
        have ended : p = none := here
        subst ended
        exact ⟨s, by cases fuel <;> rfl, timers, fun _ => rfl, fun _ => rfl⟩
    | cons a rest ih =>
        obtain ⟨rfl, behind⟩ := here
        cases fuel with
        | zero => simp at enough
        | succ fuel =>
            let charged := s.modify a
              (evTimerUpdate.charge sTimerClock1us updateTime curSysTick)
            have links : ∀ x, (charged.evt x).next = (s.evt x).next :=
              EvTimer.modify_field EvTimerEvent.next rfl
            have used : ∀ x, (charged.evt x).used = (s.evt x).used :=
              EvTimer.modify_field EvTimerEvent.used rfl
            have next : ListAt charged (next charged a) rest := by
              have link : next charged a = next s a := links a
              rw [link]
              exact Segment.congr behind fun x _ => links x
            obtain ⟨s', run, list, same, kept⟩ :=
              ih fuel _ charged (timers.modify rfl rfl) next (by simpa using enough)
            exact ⟨s', run, list, fun x => (same x).trans (links x),
              fun i => (kept i).trans (used _)⟩
  rw [evTimerUpdate]
  split
  · exact ⟨s, rfl, timers, fun _ => rfl, fun _ => rfl⟩
  · exact loop l _ _ s timers timers.list (listAt_walks timers.list)

theorem TimerList.process (timers : TimerList s l) (sTimerClock1us currSysTick curSysTick : UInt32)
    : ∃ s' expired, evTimerProcess sTimerClock1us currSysTick curSysTick s = some (s', expired)
      ∧ TimerList s' l ∧ (∀ x, next s' x = next s x)
      ∧ ∀ i, (s'.evt (.slot i)).used = (s.evt (.slot i)).used := by
  have ticked (prevSysTick remSysTick : UInt32) : TimerList { s with prevSysTick, remSysTick } l :=
    timers.congr (timers.list.congr fun _ _ => rfl) (fun _ => rfl) rfl
  rw [evTimerProcess]
  split
  · dsimp only
    split
    · obtain ⟨s', run, list, links, used⟩ :=
        (ticked currSysTick _).update sTimerClock1us _ curSysTick
      exact ⟨s', true, by rw [run]; rfl, list, links, used⟩
    · exact ⟨_, false, rfl, ticked _ _, fun _ => rfl, fun _ => rfl⟩
  · exact ⟨s, false, rfl, timers, fun _ => rfl, fun _ => rfl⟩

/-- A callback that is not negative keeps its timer where it is. -/
theorem TimerList.rearmed (timers : TimerList s l) (r : TimerRef statics) {t : Int32}
    (stays : ¬t < 0)
    : ∃ s', evTimerExecuteCB.returned r t s = some s' ∧ TimerList s' l
      ∧ (∀ x, next s' x = next s x) ∧ s'.timerHead = s.timerHead
      ∧ (∀ x ≠ r, (s'.evt x).timeout = (s.evt x).timeout)
      ∧ ∀ i, (s'.evt (.slot i)).used = (s.evt (.slot i)).used := by
  rw [evTimerExecuteCB.returned, if_neg stays]
  split
  · exact ⟨_, rfl, timers.modify rfl rfl, EvTimer.modify_field EvTimerEvent.next rfl, rfl,
      fun x other => congrArg EvTimerEvent.timeout (EvTimer.modify_of_ne other),
      fun i => EvTimer.modify_field EvTimerEvent.used rfl _⟩
  · exact ⟨_, rfl, timers.modify rfl rfl, EvTimer.modify_field EvTimerEvent.next rfl, rfl,
      fun x other => congrArg EvTimerEvent.timeout (EvTimer.modify_of_ne other),
      fun i => EvTimer.modify_field EvTimerEvent.used rfl _⟩

end TelinkSdk
