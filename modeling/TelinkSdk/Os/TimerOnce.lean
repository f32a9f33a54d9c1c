import TelinkSdk.Os.TimerData

/-! One pass of `ev_timer_executeCB` whose callbacks post new timers and do not touch the timers
that are registered: every timer that has expired fires once, and nothing else does.
-/

namespace TelinkSdk

open Links LinkView LinkStore

variable {statics : Nat}

-----------------------------------------------------------------------------------------
-- Callbacks that only post
-----------------------------------------------------------------------------------------

/-- A new timer: a task, or a statically allocated event that is not registered. -/
inductive TimerPost (statics : Nat) where
  | task (clockTime func arg tMs : UInt32) (positive : tMs ≠ 0)
  | event (clockTime : UInt32) (n : Fin statics) (timeout : UInt32) (positive : timeout ≠ 0)

/-- An event is armed unless `ev_timer_exist` finds it. -/
def TimerPost.exec (s : EvTimer statics)
    : TimerPost statics → Option (EvTimer statics × List (TimerNote statics))
  | .task clockTime func arg tMs _ => (TimerCall.taskPost clockTime func arg tMs).exec s
  | .event clockTime n timeout _ => do
      match ← listExist s (.event n) with
      | some _ => pure (s, [])
      | none =>
          let s ← evOnTimer clockTime (some (.event n)) timeout s
          pure (s, [.posted (.event n) timeout])

def TimerPost.execAll
    : List (TimerPost statics) → EvTimer statics
      → Option (EvTimer statics × List (TimerNote statics))
  | [], s => some (s, [])
  | post :: rest, s => do
      let (s, notes) ← post.exec s
      let (s, later) ← execAll rest s
      pure (s, notes ++ later)

/-- What a callback does: the timers it posts, and the value it returns. -/
structure TimerCallback (statics : Nat) where
  posts : List (TimerPost statics)
  ret : Int32

/-- `ev_timer_executeCB` with callbacks that may depend on all that happened before in the pass. -/
def evTimerExecuteCB (behave : List (TimerNote statics) → TimerCallback statics)
    : Nat → List (TimerNote statics) → TimerSys statics
      → Option (List (TimerNote statics) × EvTimer statics)
  | 0, _, _ => none
  | fuel + 1, history, sys =>
      match sys.phase with
      | .idle => some (history, sys.timer)
      | .walking .. => do
          let (sys, notes) ← TimerAction.walk.step sys
          evTimerExecuteCB behave fuel (history ++ notes) sys
      | .calling .. => do
          let callback := behave history
          let (s, posted) ← TimerPost.execAll callback.posts sys.timer
          let (sys, notes) ← (TimerAction.ret callback.ret).step { sys with timer := s }
          evTimerExecuteCB behave fuel (history ++ posted ++ notes) sys

/-- The start of the loop. -/
def evTimerExecuteCB.start (s : EvTimer statics) : TimerSys statics :=
  { timer := s, phase := .walking s.timerHead s.timerHead }

-----------------------------------------------------------------------------------------
-- Posting
-----------------------------------------------------------------------------------------

/-- New timers have been put in front of the list, each with its full timeout; nothing else has
changed.
-/
structure Posted (s s' : EvTimer statics) (l added : List (TimerRef statics))
    (notes : List (TimerNote statics)) : Prop where
  timers : TimerList s' (added ++ l)
  listed : SlotsListed s' (added ++ l)
  full : ∀ r ∈ added, (s'.data r).timeout ≠ 0 ∧ (s'.data r).period ≠ 0
  others : ∀ x ∉ added, s'.data x = s.data x
  links : ∀ x ∉ added, next s' x = next s x
  noted : notes = added.reverse.map fun r => .posted r (s'.data r).timeout

section Posting

variable {s s' : EvTimer statics} {l added : List (TimerRef statics)} {r : TimerRef statics}
  {notes later : List (TimerNote statics)}

theorem Posted.refl (timers : TimerList s l) (listed : SlotsListed s l) : Posted s s l [] [] :=
  ⟨timers, listed, by simp, by simp, by simp, rfl⟩

/-- One timer that was not in the list. -/
theorem Posted.single {e : EvTimerEvent statics} {timeout : UInt32} (positive : timeout ≠ 0)
    (timers : TimerList s' (r :: l)) (listed : SlotsListed s' (r :: l))
    (data : s'.data = Function.update s.data r e) (armed : e.timeout = timeout ∧ e.period = timeout)
    (links : ∀ x ≠ r, next s' x = next s x)
    : Posted s s' l [r] [.posted r timeout] := by
  have own : s'.data r = e := by rw [data, Function.update_self]
  refine ⟨timers, listed, ?_, ?_, ?_, ?_⟩
  · intro x inside
    rw [List.mem_singleton.mp inside, own, armed.1, armed.2]
    exact ⟨positive, positive⟩
  · intro x absent
    rw [data, Function.update_of_ne (by simpa using absent)]
  · intro x absent
    exact links x (by simpa using absent)
  · rw [List.reverse_singleton, List.map_singleton, own, armed.1]

theorem TimerPost.exec_posted (post : TimerPost statics) (timers : TimerList s l)
    (listed : SlotsListed s l)
    : ∃ s' notes added, post.exec s = some (s', notes) ∧ Posted s s' l added notes := by
  cases post with
  | task clockTime func arg tMs positive =>
      rcases timers.taskPost clockTime func arg tMs
        with ⟨run, -⟩ | ⟨i, s', run, free, list, links, used⟩
      · exact ⟨s, [], [], by rw [TimerPost.exec, TimerCall.exec, run]; rfl, .refl timers listed⟩
      · have absent : TimerRef.slot i ∉ l := fun inside => by
          simpa [free] using (listed i).mpr inside
        obtain ⟨data, -, -⟩ := timers.taskPost_data run
        rw [if_neg absent] at list
        refine ⟨s', [.posted (.slot i) tMs], [.slot i],
          by rw [TimerPost.exec, TimerCall.exec, run]; rfl,
          .single positive list ?_ data ⟨rfl, rfl⟩ links⟩
        intro j
        rw [used]
        by_cases same : j = i
        · simp [same]
        · simp [same, listed j]
  | event clockTime n timeout positive =>
      by_cases inside : TimerRef.event n ∈ l
      · refine ⟨s, [], [], ?_, .refl timers listed⟩
        simp only [TimerPost.exec]
        rw [listExist_eq timers.list, if_pos inside]
        rfl
      · obtain ⟨s', run, list, links, used⟩ := timers.onTimer clockTime (.event n) timeout
        obtain ⟨data, -, -⟩ := timers.onTimer_data run
        rw [if_neg inside] at list
        refine ⟨s', [.posted (.event n) timeout], [.event n], ?_,
          .single positive list ?_ data ⟨rfl, rfl⟩ links⟩
        · simp only [TimerPost.exec]
          rw [listExist_eq timers.list, if_neg inside]
          simp only [Option.bind_eq_bind, Option.bind_some, run]
          rfl
        · intro j
          rw [used, listed j]
          simp

theorem Posted.trans {s'' : EvTimer statics} {more : List (TimerRef statics)}
    (first : Posted s s' l added notes) (second : Posted s' s'' (added ++ l) more later)
    : Posted s s'' l (more ++ added) (notes ++ later) := by
  have nodup := second.timers.list.nodup
  have apart : ∀ r ∈ added, r ∉ more := fun r inside again =>
    List.disjoint_of_nodup_append nodup again (by simp [inside])
  refine ⟨?_, ?_, ?_, ?_, ?_, ?_⟩
  · rw [List.append_assoc]
    exact second.timers
  · rw [List.append_assoc]
    exact second.listed
  · intro r inside
    rcases List.mem_append.mp inside with new | old
    · exact second.full r new
    · rw [second.others r (apart r old)]
      exact first.full r old
  · intro x absent
    rw [List.mem_append, not_or] at absent
    rw [second.others x absent.1, first.others x absent.2]
  · intro x absent
    rw [List.mem_append, not_or] at absent
    rw [second.links x absent.1, first.links x absent.2]
  · rw [List.reverse_append, List.map_append, second.noted, first.noted]
    congr 1
    apply List.map_congr_left
    intro r inside
    rw [second.others r (apart r (List.mem_reverse.mp inside))]

/-- All posts of a callback, by induction on them. -/
theorem TimerPost.execAll_posted (posts : List (TimerPost statics)) (timers : TimerList s l)
    (listed : SlotsListed s l)
    : ∃ s' notes added, TimerPost.execAll posts s = some (s', notes)
      ∧ Posted s s' l added notes := by
  induction posts generalizing s l with
  | nil => exact ⟨s, [], [], rfl, .refl timers listed⟩
  | cons post rest ih =>
      obtain ⟨s', notes, added, run, first⟩ := post.exec_posted timers listed
      obtain ⟨s'', later, more, runs, second⟩ := ih first.timers first.listed
      refine ⟨s'', notes ++ later, more ++ added, ?_, first.trans second⟩
      simp [TimerPost.execAll, run, runs]

end Posting

-----------------------------------------------------------------------------------------
-- The state of a pass
-----------------------------------------------------------------------------------------

/-- The callbacks that have run, with what they were called with. -/
def firings (history : List (TimerNote statics)) : List (TimerRef statics × UInt32 × UInt32) :=
  history.filterMap fun
    | .fired r cb data => some (r, cb, data)
    | _ => none

/-- The callbacks that have returned, with their values. -/
def returns (history : List (TimerNote statics)) : List (TimerRef statics × Int32) :=
  history.filterMap fun
    | .returned r t => some (r, t)
    | _ => none

/-- The timers whose callbacks have returned. -/
def served (history : List (TimerNote statics)) : List (TimerRef statics) :=
  (returns history).map Prod.fst

/-- The call of a timer's callback. -/
def EvTimer.firing (s : EvTimer statics) (r : TimerRef statics)
    : TimerRef statics × UInt32 × UInt32 :=
  (r, (s.data r).cb, (s.data r).data)

/-- What has become of a timer that was served: it left the list, unless it was posted `after`
that, or it is armed again.
-/
def Outcome (start s : EvTimer statics) (l : List (TimerRef statics))
    (after : List (TimerNote statics)) (r : TimerRef statics) (t : Int32) : Prop :=
  if t < 0 then (∃ timeout, .posted r timeout ∈ after) ∨ r ∉ l
  else
    r ∈ l ∧ (s.data r).timeout = (s.data r).period ∧ (s.data r).period ≠ 0
      ∧ (s.data r).period = if t = 0 then (start.data r).period else t.toUInt32

/-- What holds in a pass over the list `l₀` of `start`; `calling` is the timer whose callback is
running.
-/
structure PassState (start : EvTimer statics) (l₀ : List (TimerRef statics))
    (history : List (TimerNote statics)) (calling : Option (TimerRef statics))
    (s : EvTimer statics) (l : List (TimerRef statics)) : Prop where
  timers : TimerList s l
  listed : SlotsListed s l
  positive : ∀ r ∈ l, (s.data r).period ≠ 0
  waiting : ∀ r ∈ l₀, r ∉ served history → r ∈ l ∧ s.data r = start.data r
  expired : ∀ r ∈ l, (s.data r).timeout = 0 → r ∈ l₀ ∧ r ∉ served history
  fired : firings history = (served history ++ calling.toList).map start.firing
  once : (served history).Nodup
  due : ∀ r ∈ served history, r ∈ l₀ ∧ (start.data r).timeout = 0
  outcome : ∀ before r t after, history = before ++ .returned r t :: after
    → Outcome start s l after r t
  posted : ∀ r timeout, .posted r timeout ∈ history
    → timeout ≠ 0 ∧ r ∈ l ∧ (s.data r).timeout = timeout

section Pass

variable {start s s' : EvTimer statics} {l₀ l : List (TimerRef statics)}
  {history notes : List (TimerNote statics)} {r : TimerRef statics}
  {calling : Option (TimerRef statics)}

@[simp]
theorem firings_append (history notes : List (TimerNote statics))
    : firings (history ++ notes) = firings history ++ firings notes :=
  List.filterMap_append

@[simp]
theorem served_append (history notes : List (TimerNote statics))
    : served (history ++ notes) = served history ++ served notes := by
  simp [served, returns, List.filterMap_append]

/-- A return among notes that were added without one was there before. -/
theorem returned_before {before after : List (TimerNote statics)} {t : Int32}
    (split : history ++ notes = before ++ .returned r t :: after) (quiet : served notes = [])
    : ∃ earlier, history = before ++ .returned r t :: earlier ∧ after = earlier ++ notes := by
  have absent : .returned r t ∉ notes := by
    intro inside
    have member : r ∈ served notes :=
      List.mem_map.mpr ⟨(r, t), List.mem_filterMap.mpr ⟨_, inside, rfl⟩, rfl⟩
    simp [quiet] at member
  rcases List.append_eq_append_iff.mp split with ⟨between, -, later⟩ | ⟨between, earlier, later⟩
  · exact absurd (by simp [later]) absent
  · cases between with
    | nil =>
        rw [List.nil_append] at later
        exact (absent (by simp [← later])).elim
    | cons note rest =>
        rw [List.cons_append, List.cons.injEq] at later
        obtain ⟨rfl, rfl⟩ := later
        exact ⟨rest, earlier, rfl⟩

/-- The callback of an expired timer is called. -/
theorem PassState.fire (state : PassState start l₀ history none s l) (inside : r ∈ l)
    (due : (s.data r).timeout = 0)
    : PassState start l₀ (history ++ [.fired r (s.data r).cb (s.data r).data]) (some r) s l := by
  have quiet : served [TimerNote.fired r (s.data r).cb (s.data r).data] = [] := rfl
  obtain ⟨first, unserved⟩ := state.expired r inside due
  have same := (state.waiting r first unserved).2
  refine {
    timers := state.timers
    listed := state.listed
    positive := state.positive
    waiting := ?_
    expired := ?_
    fired := ?_
    once := ?_
    due := ?_
    outcome := ?_
    posted := ?_
  }
  · simpa [quiet] using state.waiting
  · simpa [quiet] using state.expired
  · rw [firings_append, state.fired, served_append, quiet]
    simp [firings, EvTimer.firing, same]
  · simpa [quiet] using state.once
  · simpa [quiet] using state.due
  · intro before x t after split
    obtain ⟨earlier, whole, rfl⟩ := returned_before split quiet
    have outcome := state.outcome before x t earlier whole
    simpa [Outcome] using outcome
  · intro x timeout noted
    exact state.posted x timeout (by simpa using noted)

/-- Callbacks that post leave the timers of the pass alone. -/
theorem PassState.post {added : List (TimerRef statics)}
    (state : PassState start l₀ history calling s l) (posted : Posted s s' l added notes)
    : PassState start l₀ (history ++ notes) calling s' (added ++ l) := by
  have apart : ∀ x ∈ l, x ∉ added := fun x inside again =>
    List.disjoint_of_nodup_append posted.timers.list.nodup again inside
  have kept : ∀ x ∈ l, s'.data x = s.data x := fun x inside => posted.others x (apart x inside)
  have quiet : served notes = [] := by
    rw [posted.noted]
    simp [served, returns, List.filterMap_map]
  have silent : firings notes = [] := by
    rw [posted.noted]
    simp [firings, List.filterMap_map]
  refine {
    timers := posted.timers
    listed := posted.listed
    positive := ?_
    waiting := ?_
    expired := ?_
    fired := ?_
    once := ?_
    due := ?_
    outcome := ?_
    posted := ?_
  }
  · intro x inside
    rcases List.mem_append.mp inside with new | old
    · exact (posted.full x new).2
    · rw [kept x old]
      exact state.positive x old
  · intro x first unserved
    rw [served_append, quiet, List.append_nil] at unserved
    obtain ⟨inside, same⟩ := state.waiting x first unserved
    exact ⟨List.mem_append_right _ inside, (kept x inside).trans same⟩
  · intro x inside due
    rw [served_append, quiet, List.append_nil]
    rcases List.mem_append.mp inside with new | old
    · exact absurd due (posted.full x new).1
    · rw [kept x old] at due
      exact state.expired x old due
  · rw [firings_append, silent, served_append, quiet, List.append_nil, List.append_nil]
    exact state.fired
  · rw [served_append, quiet, List.append_nil]
    exact state.once
  · rw [served_append, quiet, List.append_nil]
    exact state.due
  · intro before x t after split
    obtain ⟨earlier, whole, rfl⟩ := returned_before split quiet
    have outcome := state.outcome before x t earlier whole
    rw [Outcome] at outcome ⊢
    split
    case isTrue negative =>
      rw [if_pos negative] at outcome
      rcases outcome with ⟨timeout, noted⟩ | gone
      · exact Or.inl ⟨timeout, by simp [noted]⟩
      · by_cases again : x ∈ added
        · refine Or.inl ⟨(s'.data x).timeout, List.mem_append_right _ ?_⟩
          rw [posted.noted]
          exact List.mem_map.mpr ⟨x, by simpa using again, rfl⟩
        · exact Or.inr (by simp [again, gone])
    case isFalse stays =>
      rw [if_neg stays] at outcome
      obtain ⟨inside, armed⟩ := outcome
      rw [kept x inside]
      exact ⟨List.mem_append_right _ inside, armed⟩
  · intro x timeout noted
    rcases List.mem_append.mp noted with old | new
    · obtain ⟨positive, inside, same⟩ := state.posted x timeout old
      exact ⟨positive, List.mem_append_right _ inside, by rw [kept x inside, same]⟩
    · rw [posted.noted] at new
      obtain ⟨y, inside, same⟩ := List.mem_map.mp new
      simp only [TimerNote.posted.injEq] at same
      obtain ⟨rfl, rfl⟩ := same
      rw [List.mem_reverse] at inside
      exact ⟨(posted.full y inside).1, List.mem_append_left _ inside, rfl⟩

/-- A callback returns, and nothing but its own timer has changed. -/
theorem PassState.serve {l' : List (TimerRef statics)} {t : Int32}
    (state : PassState start l₀ history (some r) s l) (inside : r ∈ l)
    (due : (s.data r).timeout = 0) (timers : TimerList s' l') (listed : SlotsListed s' l')
    (others : ∀ x ≠ r, s'.data x = s.data x) (members : ∀ x ≠ r, x ∈ l' ↔ x ∈ l)
    (own : r ∈ l' → (s'.data r).timeout ≠ 0 ∧ (s'.data r).period ≠ 0)
    (outcome : Outcome start s' l' [] r t)
    : PassState start l₀ (history ++ [.returned r t]) none s' l' := by
  obtain ⟨first, unserved⟩ := state.expired r inside due
  have last : served [TimerNote.returned r t] = [r] := rfl
  refine {
    timers
    listed
    positive := ?_
    waiting := ?_
    expired := ?_
    fired := ?_
    once := ?_
    due := ?_
    outcome := ?_
    posted := ?_
  }
  · intro x listed
    by_cases same : x = r
    · subst same
      exact (own listed).2
    · rw [others x same]
      exact state.positive x ((members x same).mp listed)
  · intro x old waits
    rw [served_append, last, List.mem_append, not_or, List.mem_singleton] at waits
    obtain ⟨listed, same⟩ := state.waiting x old waits.1
    exact ⟨(members x waits.2).mpr listed, by rw [others x waits.2, same]⟩
  · intro x listed expired
    have other : x ≠ r := by
      rintro rfl
      exact (own listed).1 expired
    rw [others x other] at expired
    obtain ⟨old, waits⟩ := state.expired x ((members x other).mp listed) expired
    refine ⟨old, ?_⟩
    rw [served_append, last, List.mem_append, not_or, List.mem_singleton]
    exact ⟨waits, other⟩
  · have silent : firings [TimerNote.returned r t] = [] := rfl
    rw [firings_append, silent, List.append_nil, served_append, last, state.fired]
    simp
  · rw [served_append, last, ← List.concat_eq_append]
    exact state.once.concat unserved
  · intro x member
    rw [served_append, last, List.mem_append, List.mem_singleton] at member
    rcases member with old | rfl
    · exact state.due x old
    · refine ⟨first, ?_⟩
      rw [← (state.waiting x first unserved).2]
      exact due
  · intro before x t' after split
    rcases List.eq_nil_or_concat after with rfl | ⟨rest, final, rfl⟩
    · obtain ⟨-, same⟩ := List.append_inj' split rfl
      simp only [List.cons.injEq, TimerNote.returned.injEq, and_true] at same
      obtain ⟨rfl, rfl⟩ := same
      exact outcome
    · rw [List.concat_eq_append, ← List.cons_append, ← List.append_assoc] at split
      have whole := (List.append_inj' split rfl).1
      have earlier := state.outcome before x t' rest whole
      have other : x ≠ r := by
        rintro rfl
        apply unserved
        rw [whole]
        simp [served, returns]
      rw [Outcome, members x other, others x other]
      rw [Outcome] at earlier
      rw [List.concat_eq_append]
      split
      case isTrue negative =>
        rw [if_pos negative] at earlier
        rcases earlier with ⟨timeout, noted⟩ | gone
        · exact Or.inl ⟨timeout, List.mem_append_left _ noted⟩
        · exact Or.inr gone
      case isFalse stays =>
        rw [if_neg stays] at earlier
        exact earlier
  · intro x timeout noted
    obtain ⟨positive, listed, same⟩ := state.posted x timeout (by simpa using noted)
    have other : x ≠ r := by
      rintro rfl
      exact positive (same.symm.trans due)
    exact ⟨positive, (members x other).mpr listed, by rw [others x other, same]⟩

theorem int32_toUInt32_zero {t : Int32} (zero : t.toUInt32 = 0) : t = 0 := by
  apply Int32.toBitVec_inj.mp
  exact congrArg UInt32.toBitVec zero

/-- The return of a callback, by its value. -/
theorem PassState.ret (state : PassState start l₀ history (some r) s l) (inside : r ∈ l)
    (due : (s.data r).timeout = 0) (t : Int32)
    : ∃ s' l', evTimerExecuteCB.returned r t s = some s'
      ∧ PassState start l₀ (history ++ [.returned r t]) none s' l'
      ∧ l' = (if t < 0 then l.erase r else l)
      ∧ (∀ x ≠ r, s'.data x = s.data x)
      ∧ (r ∈ l' → (s'.data r).timeout ≠ 0)
      ∧ next s' r = next s r := by
  have nodup := state.timers.list.nodup
  by_cases negative : t < 0
  · obtain ⟨s', run, timers, links, -, used⟩ := state.timers.unonTimer inside
    obtain ⟨data, -, -⟩ := state.timers.unonTimer_data inside run
    have gone : r ∉ l.erase r := nodup.not_mem_erase
    have others : ∀ x ≠ r, s'.data x = s.data x :=
      fun x other => by rw [data, Function.update_of_ne other]
    have listed : SlotsListed s' (l.erase r) := by
      intro i
      rw [used, nodup.mem_erase_iff]
      by_cases same : r = .slot i
      · simp [same]
      · simp [same, state.listed i, Ne.symm same]
    refine ⟨s', l.erase r, by rw [evTimerExecuteCB.returned, if_pos negative, run], ?_,
      by rw [if_pos negative], others, fun again => absurd again gone, links r gone⟩
    exact state.serve inside due timers listed others
      (fun x other => List.mem_erase_of_ne other) (fun again => absurd again gone)
      (by rw [Outcome, if_pos negative]; exact Or.inr gone)
  · obtain ⟨s', run, timers, links, -, -, used⟩ := state.timers.rearmed r negative
    obtain ⟨data, -⟩ := evTimerExecuteCB.returned_data negative run
    have others : ∀ x ≠ r, s'.data x = s.data x :=
      fun x other => by rw [data, Function.update_of_ne other]
    have own : s'.data r = evTimerExecuteCB.rearmed t (s.data r) := by
      rw [data, Function.update_self]
    have armed : (s'.data r).timeout = (s'.data r).period ∧ (s'.data r).period ≠ 0
        ∧ (s'.data r).period = if t = 0 then (s.data r).period else t.toUInt32 := by
      rw [own, evTimerExecuteCB.rearmed]
      by_cases zero : t = 0
      · simp [zero, state.positive r inside]
      · simp only [zero, if_false]
        exact ⟨trivial, fun same => zero (int32_toUInt32_zero same), trivial⟩
    have listed : SlotsListed s' l := fun i => by rw [used, state.listed i]
    obtain ⟨first, unserved⟩ := state.expired r inside due
    refine ⟨s', l, run, ?_, by rw [if_neg negative], others,
      fun _ => by rw [armed.1]; exact armed.2.1, links r⟩
    refine state.serve inside due timers listed others (fun x _ => Iff.rfl)
      (fun _ => ⟨by rw [armed.1]; exact armed.2.1, armed.2.1⟩) ?_
    rw [Outcome, if_neg negative, ← (state.waiting r first unserved).2]
    exact ⟨inside, armed.1, armed.2⟩

/-- The timers of the list that have expired. -/
def EvTimer.due (s : EvTimer statics) (l : List (TimerRef statics)) : List (TimerRef statics) :=
  l.filter fun r => (s.data r).timeout == 0

theorem EvTimer.mem_due : r ∈ s.due l ↔ r ∈ l ∧ (s.data r).timeout = 0 := by
  simp [EvTimer.due]

/-- A list of expired timers that has lost one of them is shorter. -/
theorem EvTimer.due_lt {l' : List (TimerRef statics)} (nodup : l'.Nodup) (inside : r ∈ s.due l)
    (fewer : ∀ x ∈ s'.due l', x ∈ s.due l ∧ x ≠ r)
    : (s'.due l').length < (s.due l).length := by
  have sub : (s'.due l').Subperm ((s.due l).erase r) :=
    (nodup.filter _).subperm fun x member => by
      obtain ⟨old, other⟩ := fewer x member
      exact (List.mem_erase_of_ne other).mpr old
  have shorter := sub.length_le
  have positive := List.length_pos_of_mem inside
  rw [List.length_erase_of_mem inside] at shorter
  omega

theorem PassState.nearest (state : PassState start l₀ history none s l)
    : ∃ s', evTimerNearestUpdate s = some s' ∧ PassState start l₀ history none s' l
      ∧ s'.data = s.data := by
  obtain ⟨n, run, timers⟩ := state.timers.nearest
  exact ⟨_, run, { state with timers := timers }, rfl⟩

/-- A callback with its posts and its return. Its timer is the first one behind `front`. -/
theorem PassState.callback {front rest : List (TimerRef statics)} (callback : TimerCallback statics)
    (state : PassState start l₀ history (some r) s l) (split : l = front ++ r :: rest)
    (quiet : ∀ x ∈ front, (s.data x).timeout ≠ 0) (due : (s.data r).timeout = 0)
    : ∃ s₁ posted s' front' rest', TimerPost.execAll callback.posts s = some (s₁, posted)
      ∧ (TimerAction.ret callback.ret).step ⟨s₁, .calling r s.timerHead⟩
        = some (⟨s', .walking rest'.head? s'.timerHead⟩, [.returned r callback.ret])
      ∧ PassState start l₀ (history ++ posted ++ [.returned r callback.ret]) none s'
        (front' ++ rest')
      ∧ (∀ x ∈ front', (s'.data x).timeout ≠ 0)
      ∧ (s'.due (front' ++ rest')).length < (s.due l).length := by
  have inside : r ∈ l := by simp [split]
  obtain ⟨s₁, notes, added, posts, posted⟩ :=
    TimerPost.execAll_posted callback.posts state.timers state.listed
  have nodup := posted.timers.list.nodup
  have apart : ∀ x ∈ l, x ∉ added := fun x inside again =>
    List.disjoint_of_nodup_append nodup again inside
  have kept : ∀ x ∈ l, s₁.data x = s.data x := fun x inside => posted.others x (apart x inside)
  obtain ⟨s', l', returned, next, list, others, own, link⟩ :=
    (state.post posted).ret (List.mem_append_right _ inside)
      (by rw [kept r inside]; exact due) callback.ret
  have behind : LinkView.next s' r = rest.head? := by
    have suffix : ListAt s (some r) (r :: rest) := (split ▸ state.timers.list).suffix front
    rw [link, posted.links r (apart r inside)]
    exact ListAt.head suffix.2
  have members : ∀ x ∈ l', x ∈ added ++ l := by
    intro x member
    rw [list] at member
    split at member
    · exact List.mem_of_mem_erase member
    · exact member
  -- whatever has expired now had expired before
  have fewer : ∀ x ∈ s'.due l', x ∈ s.due l ∧ x ≠ r := by
    intro x member
    obtain ⟨listed, zero⟩ := EvTimer.mem_due.mp member
    have other : x ≠ r := by
      rintro rfl
      exact own listed zero
    rw [others x other] at zero
    rcases List.mem_append.mp (members x listed) with new | old
    · exact absurd zero (posted.full x new).1
    · rw [kept x old] at zero
      exact ⟨EvTimer.mem_due.mpr ⟨old, zero⟩, other⟩
  have shorter := EvTimer.due_lt next.timers.list.nodup (EvTimer.mem_due.mpr ⟨inside, due⟩) fewer
  have step : (TimerAction.ret callback.ret).step ⟨s₁, .calling r s.timerHead⟩
      = some (⟨s', evTimerExecuteCB.next r s.timerHead s'⟩, [.returned r callback.ret]) := by
    simp only [TimerAction.step, returned, Option.map_some]
  by_cases restart : s.timerHead ≠ s'.timerHead
  · refine ⟨s₁, notes, s', [], l', posts, ?_, next, by simp, shorter⟩
    rw [step, evTimerExecuteCB.next, if_pos restart, ← ListAt.head next.timers.list]
  · rw [not_not] at restart
    -- the head is the same, so that the walk goes on behind the timer
    have parts : ∃ front', l' = front' ++ rest ∧ ∀ x ∈ front', x ∈ added ∨ x ∈ front ∨ x = r := by
      rw [list, split]
      split
      · refine ⟨added ++ front, ?_, fun x member => (List.mem_append.mp member).imp_right Or.inl⟩
        rw [split] at nodup
        have absent : r ∉ added ++ front := by
          rw [← List.append_assoc] at nodup
          exact fun again => List.disjoint_of_nodup_append nodup again (by simp)
        rw [← List.append_assoc, List.erase_append_right _ absent, List.erase_cons_head]
      · exact ⟨added ++ (front ++ [r]), by simp, fun x member => by simpa using member⟩
    obtain ⟨front', rfl, origin⟩ := parts
    refine ⟨s₁, notes, s', front', rest, posts, ?_, next, ?_, shorter⟩
    · rw [step, evTimerExecuteCB.next, if_neg (by simpa using restart), behind, restart]
    · intro x member
      by_cases same : x = r
      · subst same
        exact own (List.mem_append_left _ member)
      · rw [others x same]
        rcases origin x member with new | old | again
        · exact (posted.full x new).1
        · rw [kept x (by simp [split, old])]
          exact quiet x old
        · exact absurd again same

theorem PassState.ended (state : PassState start l₀ history none s l)
    : PassState start l₀ (history ++ [.passEnded]) none s l := by
  have quiet : served [(.passEnded : TimerNote statics)] = [] := rfl
  have silent : firings [(.passEnded : TimerNote statics)] = [] := rfl
  have same : served (history ++ [.passEnded]) = served history := by
    rw [served_append, quiet, List.append_nil]
  refine {
    timers := state.timers
    listed := state.listed
    positive := state.positive
    waiting := by rw [same]; exact state.waiting
    expired := by rw [same]; exact state.expired
    fired := by rw [firings_append, silent, List.append_nil, same]; exact state.fired
    once := by rw [same]; exact state.once
    due := by rw [same]; exact state.due
    outcome := ?_
    posted := fun r timeout noted => state.posted r timeout (by simpa using noted)
  }
  intro before r t after split
  obtain ⟨earlier, whole, rfl⟩ := returned_before split quiet
  have outcome := state.outcome before r t earlier whole
  simpa [Outcome] using outcome

/-- The pass ends behind the last timer. -/
theorem PassState.finish (behave : List (TimerNote statics) → TimerCallback statics)
    (state : PassState start l₀ history none s l)
    (quiet : ∀ x ∈ l, (s.data x).timeout ≠ 0) (prevHead : Option (TimerRef statics))
    : ∃ s', evTimerExecuteCB behave 2 history ⟨s, .walking none prevHead⟩
        = some (history ++ [.passEnded], s')
      ∧ PassState start l₀ (history ++ [.passEnded]) none s' l
      ∧ ∀ x ∈ l, (s'.data x).timeout ≠ 0 := by
  obtain ⟨s', run, next, data⟩ := state.nearest
  exact ⟨s', by simp [evTimerExecuteCB, TimerAction.step, run], next.ended, by rwa [data]⟩

/-- From any place the pass comes to its end, by induction on the callbacks that are due and on
the timers ahead.
-/
theorem PassState.ends (behave : List (TimerNote statics) → TimerCallback statics) (n : Nat)
    {front rest : List (TimerRef statics)}
    (state : PassState start l₀ history none s l) (split : l = front ++ rest)
    (quiet : ∀ x ∈ front, (s.data x).timeout ≠ 0)
    (bound : (s.due l).length * (walkFuel statics + 1) + rest.length ≤ n)
    : ∃ fuel history' s' l',
      evTimerExecuteCB behave fuel history ⟨s, .walking rest.head? s.timerHead⟩
        = some (history', s')
      ∧ PassState start l₀ history' none s' l' ∧ ∀ x ∈ l', (s'.data x).timeout ≠ 0 := by
  induction n generalizing history s l front rest with
  | zero =>
      have empty : rest = [] := List.length_eq_zero_iff.mp (by omega)
      rw [empty, List.append_nil] at split
      obtain ⟨s', run, next, final⟩ := state.finish behave (split ▸ quiet) s.timerHead
      exact ⟨2, _, s', l, by rw [empty]; exact run, next, final⟩
  | succ n ih =>
      cases rest with
      | nil =>
          rw [List.append_nil] at split
          obtain ⟨s', run, next, final⟩ := state.finish behave (split ▸ quiet) s.timerHead
          exact ⟨2, _, s', l, run, next, final⟩
      | cons r rest =>
          have inside : r ∈ l := by simp [split]
          by_cases due : (s.data r).timeout = 0
          · have fired := state.fire inside due
            obtain ⟨s₁, posted, s', front', rest', posts, step, next, quiet', fewer⟩ :=
              fired.callback (behave (history ++ [.fired r (s.data r).cb (s.data r).data])) split
                quiet due
            have short := listAt_walks next.timers.list
            rw [List.length_append] at short
            obtain ⟨fuel, history', s'', l', run, final⟩ := ih next rfl quiet' (by
              have fewer' := Nat.mul_le_mul_right (walkFuel statics + 1) (Nat.succ_le_of_lt fewer)
              rw [Nat.succ_mul] at fewer'
              rw [List.length_cons] at bound
              omega)
            refine ⟨fuel + 2, history', s'', l', ?_, final⟩
            have walk : TimerAction.walk.step ⟨s, .walking (some r) s.timerHead⟩
                = some (⟨s, .calling r s.timerHead⟩, [.fired r (s.data r).cb (s.data r).data]) :=
              if_pos due
            simp only [List.head?_cons, evTimerExecuteCB, walk, Option.bind_eq_bind,
              Option.bind_some, posts, step]
            exact run
          · have link : (s.evt r).next = rest.head? := by
              have suffix : ListAt s (some r) (r :: rest) := (split ▸ state.timers.list).suffix front
              exact ListAt.head suffix.2
            obtain ⟨fuel, history', s', l', run, final⟩ := @ih s l history (front ++ [r]) rest
              state (by simp [split])
              (by
                intro x member
                rcases List.mem_append.mp member with old | last
                · exact quiet x old
                · rwa [List.mem_singleton.mp last])
              (by rw [List.length_cons] at bound; omega)
            refine ⟨fuel + 1, history', s', l', ?_, final⟩
            have walk : TimerAction.walk.step ⟨s, .walking (some r) s.timerHead⟩
                = some (⟨s, .walking rest.head? s.timerHead⟩, []) := by
              rw [← link]
              exact if_neg due
            simp only [List.head?_cons, evTimerExecuteCB, walk, Option.bind_eq_bind,
              Option.bind_some, List.append_nil]
            exact run

theorem PassState.begin (timers : TimerList s l) (listed : SlotsListed s l)
    (positive : ∀ r ∈ l, (s.data r).period ≠ 0)
    : PassState s l [] none s l where
  timers := timers
  listed := listed
  positive := positive
  waiting := fun _ inside _ => ⟨inside, rfl⟩
  expired := fun _ inside _ => ⟨inside, List.not_mem_nil⟩
  fired := rfl
  once := List.nodup_nil
  due := fun _ member => absurd member List.not_mem_nil
  outcome := fun before _ _ _ split => by simp at split
  posted := fun _ _ noted => absurd noted List.not_mem_nil

/-- Once nothing is due any more, the timers that were due at the start have been served. -/
theorem PassState.served_perm (state : PassState start l₀ history none s l)
    (nodup : l₀.Nodup) (quiet : ∀ x ∈ l, (s.data x).timeout ≠ 0)
    : (served history).Perm (start.due l₀) := by
  refine (List.perm_ext_iff_of_nodup state.once (nodup.filter _)).mpr fun r => ?_
  rw [← EvTimer.due, EvTimer.mem_due]
  constructor
  · exact state.due r
  · rintro ⟨first, zero⟩
    by_contra unserved
    obtain ⟨inside, same⟩ := state.waiting r first unserved
    exact quiet r inside (same ▸ zero)

end Pass

/-- A pass over timers with positive periods, with callbacks that only post: it ends, and runs the
callbacks of the timers that had expired, each once, and no other. Each of them that returned a
negative value has left the list, and its slot is free, unless it was posted again after that; the
others are armed with their period, or with the new one. Timers that had not expired are as they
were, and those posted in the pass have their full timeout.
-/
theorem evTimerExecuteCB_once {s : EvTimer statics} {l : List (TimerRef statics)}
    (timers : TimerList s l) (listed : SlotsListed s l)
    (positive : ∀ r ∈ l, (s.data r).period ≠ 0)
    (behave : List (TimerNote statics) → TimerCallback statics)
    : ∃ fuel history s' l',
      evTimerExecuteCB behave fuel [] (evTimerExecuteCB.start s) = some (history, s')
      ∧ TimerList s' l' ∧ SlotsListed s' l'
      ∧ (firings history).Perm ((s.due l).map s.firing)
      ∧ (returns history).map Prod.fst = (firings history).map Prod.fst
      ∧ (∀ before r t after, history = before ++ .returned r t :: after
        → if t < 0 then
            (∃ timeout, .posted r timeout ∈ after)
            ∨ (r ∉ l' ∧ ∀ i, r = .slot i → (s'.data r).used = false)
          else
            r ∈ l' ∧ (s'.data r).timeout = (s'.data r).period ∧ (s'.data r).period ≠ 0
            ∧ (s'.data r).period = if t = 0 then (s.data r).period else t.toUInt32)
      ∧ (∀ r ∈ l, (s.data r).timeout ≠ 0 → r ∈ l' ∧ s'.data r = s.data r)
      ∧ ∀ r timeout, .posted r timeout ∈ history → r ∈ l' ∧ (s'.data r).timeout = timeout := by
  have begins := PassState.begin timers listed positive
  obtain ⟨fuel, history, s', l', run, state, quiet⟩ :=
    begins.ends behave _ (List.nil_append l).symm (by simp) (Nat.le_refl _)
  have served := state.served_perm timers.list.nodup quiet
  have fired := state.fired
  rw [Option.toList_none, List.append_nil] at fired
  rw [← ListAt.head timers.list] at run
  refine ⟨fuel, history, s', l', run, state.timers, state.listed, ?_, ?_, ?_, ?_, ?_⟩
  · rw [fired]
    exact served.map _
  · rw [fired, List.map_map]
    exact (List.map_id _).symm
  · intro before r t after split
    have outcome := state.outcome before r t after split
    rw [Outcome] at outcome
    split
    case isTrue negative =>
      rw [if_pos negative] at outcome
      refine outcome.imp_right fun gone => ⟨gone, ?_⟩
      rintro i rfl
      have free := (state.listed i).not.mpr gone
      rwa [Bool.not_eq_true] at free
    case isFalse stays =>
      rw [if_neg stays] at outcome
      exact outcome
  · intro r inside running
    refine state.waiting r inside fun again => running (state.due r again).2
  · intro r timeout noted
    exact (state.posted r timeout noted).2

/-- One timer that has expired. -/
def expiredTimer : EvTimer 0 :=
  {
    timerHead := some (.slot 0)
    evt := fun r => if r = .slot 0 then { cb := 7, period := 5, used := true } else {}
    usedNum := 1
  }

/-- Its callback posts a timer and ends its own. -/
theorem evTimerExecuteCB_once_expired
    : ∃ fuel history s', evTimerExecuteCB (fun _ => ⟨[.task 0 8 0 5 (by decide)], -1⟩) fuel []
        (evTimerExecuteCB.start expiredTimer) = some (history, s')
      ∧ firings history = [(.slot 0, 7, 0)] := by
  have timers : TimerList expiredTimer [.slot 0] := ⟨⟨rfl, rfl⟩, by decide +kernel⟩
  obtain ⟨fuel, history, s', l', run, -, -, once, -⟩ :=
    evTimerExecuteCB_once timers (fun i => by revert i; decide) (by decide)
      fun _ => ⟨[.task 0 8 0 5 (by decide)], -1⟩
  exact ⟨fuel, history, s', run, List.perm_singleton.mp (once.trans (.of_eq (by decide)))⟩

end TelinkSdk
