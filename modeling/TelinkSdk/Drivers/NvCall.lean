import TelinkSdk.Drivers.NvWrite

/-! Runs of `nv_flashWriteNew` on one module: what any history of faulty calls keeps, and
what the last call of a run has achieved.
-/

namespace TelinkSdk

open Nor

-----------------------------------------------------------------------------------------
-- One call
-----------------------------------------------------------------------------------------

section Call

variable {env : Env} {b : Build} {id : Fin nvMaxModuls} {k : Fin 2} {es : List InfoIdx}
  {d : Dev} {itemId : UInt8} {buf : List UInt8}

/-- The sector that a rollover of sector `k` moves to. -/
def otherSect (k : Fin 2) : Fin 2 := k.rev

theorem otherSect_ne (k : Fin 2) : otherSect k ≠ k := by
  have cases : k = 0 ∨ k = 1 := by omega
  rcases cases with rfl | rfl <;> decide

theorem otherSect_val (k : Fin 2) : (k.val + 1) % moduleSectorNum = (otherSect k).val := by
  have cases : k = 0 ∨ k = 1 := by omega
  rcases cases with rfl | rfl <;> rfl

/-- A call that stays in its sector writes behind the chain. -/
theorem Store.stays_continues (store : Store b id k es d.mem) (single : Bool) (itemId : UInt8)
    (admitted : Admitted id buf.length)
    (plain : (nvFlashWriteNew.place b d.mem id buf.length).sectorUpdate = false)
    : Prog.Continues env (nvFlashWriteNew b single id itemId buf) d
        (nvFlashWriteNew.commit b single id itemId buf k k es.length false) (lockTo env false d) := by
  have start := nvFlashWriteNew_continues env b single itemId admitted d
  rwa [(store.appends admitted.short plain).1] at start

/-- A call that leaves its sector prepares the other one and proceeds. -/
theorem Store.leaves_continues (store : Store b id k es d.mem) (single : Bool) (itemId : UInt8)
    (admitted : Admitted id buf.length)
    (rolls : (nvFlashWriteNew.place b d.mem id buf.length).sectorUpdate = true)
    : Prog.Continues env (nvFlashWriteNew b single id itemId buf) d
        (nvFlashWriteNew.update b single id itemId buf.length k (otherSect k) >>=
          nvFlashWriteNew.proceed b single id itemId buf k (otherSect k))
        (lockTo env false d) := by
  have start := nvFlashWriteNew_continues env b single itemId admitted d
  rwa [nvFlashWriteNew.placed, if_pos rolls, (store.leaves admitted.short rolls).1,
    otherSect_val] at start

/-- The other sector gets the entries of the chain that are kept. -/
theorem Store.prepare_meets (store : Store b id k es d.mem) (single : Bool) (itemId : UInt8)
    {len : Nat} (short : len < u16Mod)
    : Prog.Meets (Structural b id) env (Spare b id (otherSect k) d.mem)
        (nvFlashWriteNew.update b single id itemId len k (otherSect k)) d
        (fun result d' => UpdateOutcome env b id (otherSect k) d
          (es.filter (nvFlashWriteNew.keeps single itemId)) len d' result) := by
  obtain ⟨fits, sizes⟩ := store.chain.live_fits single itemId (otherSect k)
  rw [← store.chain.liveItems]
  exact update_meets single itemId len (otherSect_ne k) short sizes fits

theorem nvFlashWriteNew_stays_meets (single : Bool) (store : Store b id k es d.mem)
    (real : itemId ≠ itemFieldIdle) (admitted : Admitted id buf.length)
    (fits : Fits b id buf.length d.mem)
    (plain : (nvFlashWriteNew.place b d.mem id buf.length).sectorUpdate = false)
    : Prog.Meets (Structural b id) env (CallCut env b id itemId buf d.mem)
        (nvFlashWriteNew b single id itemId buf) d
        (fun ret d' =>
          Stayed env b id k es itemId buf d.mem ret
              (previousSlot b single id itemId buf.length k d.mem) d'.mem
            ∧ ItemStatus env d ret (.ram buf)) := by
  obtain ⟨_, room, inside⟩ := store.stays admitted fits plain
  apply (store.stays_continues single itemId admitted plain).meets
  exact @commit_stays_meets env b id k es itemId buf (lockTo env false d) single store real room
    inside

theorem nvFlashWriteNew_leaves_meets (single : Bool) (store : Store b id k es d.mem)
    (real : itemId ≠ itemFieldIdle) (admitted : Admitted id buf.length)
    (rolls : (nvFlashWriteNew.place b d.mem id buf.length).sectorUpdate = true)
    : Prog.Meets (Structural b id) env (fun m' => ∃ i l, Store b id i l m')
        (nvFlashWriteNew b single id itemId buf) d
        (fun ret d' => Rolled env b id k (otherSect k) es single itemId buf d.mem ret d'.mem) := by
  obtain ⟨_, used⟩ := store.leaves admitted.short rolls
  have different := otherSect_ne k
  apply (store.leaves_continues single itemId admitted rolls).meets
  have update := @Store.prepare_meets env b id k es (lockTo env false d) store single itemId
    buf.length admitted.short
  apply Prog.Meets.bind (update.mono
    (fun m' spare => ⟨k, es, spare.store store different⟩) (fun _ _ post => post))
  intro result d' outcome
  cases result with
  | error ret =>
      obtain ⟨status, spare, _⟩ := outcome
      have kept := spare.store store different
      apply Prog.Meets.skip (trace_flashLock env d')
      rw [run_flashLock]
      refine .silent ⟨k, es, kept⟩ rfl ?_
      exact {
        store := ⟨k, es, kept⟩
        failed := fun _ => spare
        written := fun _ good => absurd (status.symm.trans good) (by decide)
      }
  | ok wItemIdx =>
      obtain ⟨erased, entries, blanked, moved, rfl, room, inside⟩ := outcome
      exact @commit_leaves_meets env b id k (otherSect k) es single itemId buf
        (lockTo env false d) d' erased entries store different used blanked moved real room inside

/-- Under orderly faults a call keeps the module a store, wherever it is cut. -/
theorem nvFlashWriteNew_cut (single : Bool) (store : Store b id k es d.mem)
    (real : itemId ≠ itemFieldIdle) (fits : Fits b id buf.length d.mem)
    (orderly : Orderly (Structural b id)
      (Prog.trace env (nvFlashWriteNew b single id itemId buf) d)) (count : Nat)
    : ∃ i l, Store b id i l (Prog.crash env (nvFlashWriteNew b single id itemId buf) d count) := by
  by_cases admitted : Admitted id buf.length
  · by_cases rolls : (nvFlashWriteNew.place b d.mem id buf.length).sectorUpdate = true
    · exact (nvFlashWriteNew_leaves_meets single store real admitted rolls orderly).1 count
    · have plain : (nvFlashWriteNew.place b d.mem id buf.length).sectorUpdate = false := by
        simpa using rolls
      exact ((nvFlashWriteNew_stays_meets single store real admitted fits plain orderly).1
        count).store
  · rw [Prog.crash, (nvFlashWriteNew_refused single admitted).1]
    exact ⟨k, es, by simpa using store⟩

/-- The last command of a rollover: the valid flag of the new sector. -/
def switchOver (b : Build) (id : Fin nvMaxModuls) (j : Fin 2) : Cmd :=
  .program (moduleSector b id j).base (headBytes id nvSectorValid j)

/-- The commands of a successful commit into the other sector: those of the item, then the
two flags.
-/
theorem trace_commit_leaves {j : Fin 2} {single : Bool} {wItemIdx : Nat}
    (none : previousSlot b single id itemId buf.length j d.mem = none)
    (good : (Prog.run env (nvWriteItem b id itemId j wItemIdx (.ram buf)) d).1 = .succ)
    : ∃ off on : Step,
        Prog.trace env (nvFlashWriteNew.commit b single id itemId buf k j wItemIdx true) d
          = Prog.trace env (nvWriteItem b id itemId j wItemIdx (.ram buf)) d ++ [off, on]
        ∧ off.cmd = .program (moduleSector b id k).base (headBytes id nvSectorInvalid j)
        ∧ on.cmd = switchOver b id j := by
  have program : Prog.trace env
        (nvFlashWriteNew.commit b single id itemId buf k j wItemIdx true) d
      = Prog.trace env
          (nvWriteItem b id itemId j wItemIdx (.ram buf) >>= fun ret =>
            nvFlashWriteNew.markDeleted b id j
                (previousSlot b single id itemId buf.length j d.mem) >>= fun _ =>
              nvFlashWriteNew.markSectors b id k j wItemIdx true ret >>= fun _ =>
                flashLock >>= fun _ => pure ret) d := rfl
  rw [none, Prog.trace_bind, good] at program
  simp only [nvFlashWriteNew.markDeleted, nvFlashWriteNew.markSectors,
    nvFlashWriteNew.markSector, if_true, Prog.trace_bind, Prog.trace_pure, Prog.run_pure,
    trace_flashWrite, run_flashWrite, trace_flashLock, List.nil_append, List.append_nil,
    List.cons_append] at program
  exact ⟨_, _, program, rfl, rfl⟩

/-- The commands of a steady call that moves to the other sector: up to the flags it only
touches that sector, and the two flags come last.
-/
theorem leaves_trace (steady : env.Steady) (single : Bool) (store : Store b id k es d.mem)
    (real : itemId ≠ itemFieldIdle) (admitted : Admitted id buf.length)
    (rolls : (nvFlashWriteNew.place b d.mem id buf.length).sectorUpdate = true)
    : ∃ steps, AtEveryCut (Spare b id (otherSect k) d.mem) d.mem steps
      ∧ (Prog.trace env (nvFlashWriteNew b single id itemId buf) d = steps
        ∨ ∃ off on l, Prog.trace env (nvFlashWriteNew b single id itemId buf) d
            = steps ++ [off, on]
          ∧ off.cmd = .program (moduleSector b id k).base
              (headBytes id nvSectorInvalid (otherSect k))
          ∧ on.cmd = switchOver b id (otherSect k)
          ∧ Ready env b id k (otherSect k) es single itemId buf d.mem .succ l
              (replay d.mem steps)) := by
  have different := otherSect_ne k
  have update := (@Store.prepare_meets env b id k es (lockTo env false d) store single itemId
    buf.length admitted.short).steady steady
  have whole := (@Store.leaves_continues env b id k es d buf store single itemId admitted rolls).trace
  rw [Prog.trace_bind] at whole
  have memory := Prog.run_mem env
    (nvFlashWriteNew.update b single id itemId buf.length k (otherSect k)) (lockTo env false d)
  generalize Prog.run env (nvFlashWriteNew.update b single id itemId buf.length k (otherSect k))
    (lockTo env false d) = result at whole update memory
  generalize Prog.trace env
    (nvFlashWriteNew.update b single id itemId buf.length k (otherSect k))
    (lockTo env false d) = prepared at whole update memory
  obtain ⟨outcome, d'⟩ := result
  obtain ⟨early, post⟩ := update
  rw [lockTo_mem] at early memory
  cases outcome with
  | error ret =>
      refine ⟨prepared, early, Or.inl ?_⟩
      simpa [nvFlashWriteNew.proceed] using whole
  | ok wItemIdx =>
      obtain ⟨erased, entries, blanked, moved, rfl, room, inside⟩ := post
      obtain ⟨late, ⟨⟨l, ready⟩, status⟩⟩ := (@fill_meets env b id k (otherSect k) es single itemId
        buf (lockTo env false d) d' erased entries store different blanked moved real room
        inside).steady steady
      have good := status (Or.inl steady.unguarded) (Or.inl (steady.supplied _))
      have final := Prog.run_mem env
        (nvWriteItem b id itemId (otherSect k) entries.length (.ram buf)) d'
      obtain ⟨off, on, commands, offCmd, onCmd⟩ := @trace_commit_leaves env b id k d' itemId buf
        (otherSect k) single entries.length (moved.noPrevious rfl real buf.length) good
      simp only [nvFlashWriteNew.proceed] at memory whole
      refine ⟨prepared ++ Prog.trace env
        (nvWriteItem b id itemId (otherSect k) entries.length (.ram buf)) d',
        early.append (memory ▸ late), Or.inr ⟨off, on, l, ?_, offCmd, onCmd, ?_⟩⟩
      · rw [whole, commands, List.append_assoc]
      · rw [replay_append, ← memory, ← final, ← good]
        exact ready

end Call

-----------------------------------------------------------------------------------------
-- Runs
-----------------------------------------------------------------------------------------

/-- A call of `nv_flashWriteNew` together with what happens to it: which allocations fail,
which commands the driver skips for a low supply, and after how many commands the power is
cut, if it is. Lengths are 16-bit numbers, and item id 0xFF is not to be used.
-/
structure NvCall where
  single : Bool := true
  itemId : UInt8
  buf : List UInt8
  noBuffer : Nat → Bool := fun _ => false
  skipped : Nat → Bool := fun _ => false
  cut : Option Nat := none
  real : itemId ≠ itemFieldIdle := by decide
  short : buf.length < u16Mod := by decide

/-- Module 0. -/
abbrev macModule : Fin nvMaxModuls := ⟨nvModuleMacInfo, by decide⟩

/-- The device as a call finds it. -/
def Dev.ready (m : Mem) : Dev := { mem := m, locked := true }

namespace NvCall

variable (b : Build) (id : Fin nvMaxModuls) (c : NvCall) (m : Mem)

def env : Env := { lowVoltage := c.skipped, noBuffer := c.noBuffer }

/-- The commands of the call, as if the power stayed on. -/
def steps : List Step :=
  Prog.trace c.env (nvFlashWriteNew b c.single id c.itemId c.buf) (Dev.ready m)

/-- The number of commands before the cut. -/
def count : Nat :=
  match c.cut with
  | none => (c.steps b id m).length
  | some n => n

/-- The array that the call leaves behind. -/
def after : Mem := replay m ((c.steps b id m).take (c.count b id m))

/-- The status of a call that is not cut. -/
def status : NvSts :=
  (Prog.run c.env (nvFlashWriteNew b c.single id c.itemId c.buf) (Dev.ready m)).1

/-- The call moves the module to its other sector. -/
def Rolls : Prop :=
  Admitted id c.buf.length ∧ (nvFlashWriteNew.place b m id c.buf.length).sectorUpdate = true

end NvCall

/-- The arrays that a run of calls on one module can reach from its erased area, where each
call is one that `allowed` admits.
-/
inductive NvReached (b : Build) (id : Fin nvMaxModuls) (allowed : Mem → NvCall → Prop)
    : Mem → Prop where
  | erased {m : Mem} (blank : m.BlankOn (modulesStartAddr b id) (moduleEnd b id))
      : NvReached b id allowed m
  | call {m : Mem} {c : NvCall} (before : NvReached b id allowed m) (step : allowed m c)
      : NvReached b id allowed (c.after b id m)

section Runs

variable {b : Build} {id : Fin nvMaxModuls} {c : NvCall} {m : Mem}

theorem NvCall.after_uncut (whole : c.cut = none)
    : c.after b id m
      = (Prog.run c.env (nvFlashWriteNew b c.single id c.itemId c.buf) (Dev.ready m)).2.mem := by
  rw [Prog.run_mem, NvCall.after, NvCall.count, whole, List.take_length]
  rfl

theorem NvCall.steady (unskipped : ∀ n, c.skipped n = false) : c.env.Steady :=
  ⟨unskipped, rfl⟩

/-- A call keeps the module a store if its items fit and its faults are orderly. -/
theorem NvCall.store_after {k : Fin 2} {es : List InfoIdx} (store : Store b id k es m)
    (fits : Fits b id c.buf.length m) (orderly : Orderly (Structural b id) (c.steps b id m))
    : ∃ i l, Store b id i l (c.after b id m) :=
  @nvFlashWriteNew_cut c.env b id k es (Dev.ready m) c.itemId c.buf c.single store c.real fits
    orderly (c.count b id m)

/-- So does a run of such calls, by induction on the run. -/
theorem NvReached.store {allowed : Mem → NvCall → Prop}
    (sound : ∀ m c, allowed m c
      → Fits b id c.buf.length m ∧ Orderly (Structural b id) (c.steps b id m))
    (reached : NvReached b id allowed m)
    : ∃ k es, Store b id k es m := by
  induction reached with
  | erased blank => exact ⟨0, [], Store.erased blank⟩
  | call _ step ih =>
      obtain ⟨k, es, store⟩ := ih
      obtain ⟨fits, orderly⟩ := sound _ _ step
      exact NvCall.store_after store fits orderly

theorem NvCall.orderly_steady (unskipped : ∀ n, c.skipped n = false)
    : Orderly (Structural b id) (c.steps b id m) :=
  (Orderly.of_done (Prog.trace_done (c.steady unskipped) _ _)).1

/-- A store whose sector in operation is marked as soon as it has an entry, as calls that
run to their end leave it.
-/
structure Settled (b : Build) (id : Fin nvMaxModuls) (k : Fin 2) (es : List InfoIdx) (m : Mem)
    : Prop where
  store : Store b id k es m
  marked : es ≠ [] → Marked b id m k

/-- What a call that runs to its end without a fault does: it replaces the item and nothing
else, or it fails and replaces nothing.
-/
structure Completed (b : Build) (id : Fin nvMaxModuls) (c : NvCall) (es : List InfoIdx)
    (m : Mem) (ret : NvSts) (i : Fin 2) (l : List InfoIdx) (m' : Mem) : Prop where
  settled : Settled b id i l m'
  others : ∀ other, other ≠ c.itemId → other ≠ itemFieldIdle → ∀ len < u16Mod,
    nvFlashReadNew b m' id other len = nvFlashReadNew b m id other len
  written : ret = .succ → nvFlashReadNew b m' id c.itemId c.buf.length = some c.buf
  failed : ret ≠ .succ → ∀ len < u16Mod,
    nvFlashReadNew b m' id c.itemId len = nvFlashReadNew b m id c.itemId len
  sizes : ∀ e ∈ l, e.size = c.buf.length + 8 ∨ ∃ e' ∈ es, e.size = e'.size

theorem Stayed.completed {ret : NvSts} {previous : Option Nat} {m' : Mem}
    {k : Fin 2} {es : List InfoIdx} (settled : Settled b id k es m) (steady : c.env.Steady)
    (stayed : Stayed c.env b id k es c.itemId c.buf m ret previous m')
    : ∃ l, Completed b id c es m ret k l m' := by
  obtain ⟨l, store, sizes⟩ := stayed.store
  obtain ⟨good, written, _⟩ := stayed.written steady
  have ready : Marked b id m k ∨ es = [] := by
    by_cases empty : es = []
    · exact Or.inr empty
    · exact Or.inl (settled.marked empty)
  obtain ⟨marked, read⟩ := written ready
  refine ⟨l, {
    settled := ⟨store, fun _ => marked⟩
    others := stayed.cut.others
    written := fun _ => read
    failed := fun bad => absurd good bad
    sizes := ?_
  }⟩
  intro e member
  have size : e.size ∈ es.map InfoIdx.size ++ [c.buf.length + 8] :=
    sizes ▸ List.mem_map_of_mem member
  rcases List.mem_append.mp size with old | new
  · obtain ⟨e', member', same⟩ := List.mem_map.mp old
    exact Or.inr ⟨e', member', same.symm⟩
  · exact Or.inl (by simpa using new)

theorem Rolled.completed {ret : NvSts} {m' : Mem} {k j : Fin 2} {es : List InfoIdx}
    (settled : Settled b id k es m) (different : j ≠ k) (used : es ≠ []) (steady : c.env.Steady)
    (rolled : Rolled c.env b id k j es c.single c.itemId c.buf m ret m')
    : ∃ i l, Completed b id c es m ret i l m' := by
  have marked := settled.marked used
  by_cases good : ret = .succ
  · obtain ⟨l, store, marked', sizes, others, itself⟩ := rolled.written steady good
    refine ⟨j, l, {
      settled := ⟨store, fun _ => marked'⟩
      others := ?_
      written := fun _ => by rw [store.read c.real, if_pos marked', itself]
      failed := fun bad => absurd good bad
      sizes := ?_
    }⟩
    · intro other foreign real len short
      rw [store.read real, if_pos marked', settled.store.read real, if_pos marked]
      exact others other foreign real len short
    · intro e member
      have size : e.size ∈ (es.filter (nvFlashWriteNew.keeps c.single c.itemId)).map InfoIdx.size
          ++ [c.buf.length + 8] := sizes ▸ List.mem_map_of_mem member
      rcases List.mem_append.mp size with old | new
      · obtain ⟨e', member', same⟩ := List.mem_map.mp old
        exact Or.inr ⟨e', (List.mem_filter.mp member').1, same.symm⟩
      · exact Or.inl (by simpa using new)
  · have spare := rolled.failed good
    have reads {other : UInt8} (real : other ≠ itemFieldIdle) {len : Nat} (short : len < u16Mod)
        : nvFlashReadNew b m' id other len = nvFlashReadNew b m id other len :=
      spare.reads settled.store different real short
    have apart := @moduleSector_apart b id j k different
    have bounds := (moduleSector b id k).idxAddr_bounds (moduleSector b id k).slots_pos
    have boundsOther := (moduleSector b id j).idxAddr_bounds (moduleSector b id j).slots_pos
    refine ⟨k, es, {
      settled := ⟨spare.store settled.store different, fun _ => ?_⟩
      others := fun _ _ real _ short => reads real short
      written := fun yes => absurd yes good
      failed := fun _ _ short => reads c.real short
      sizes := fun e member => Or.inr ⟨e, member, rfl⟩
    }⟩
    exact (marked_congr (sectHead_congr (fun x low high => spare.1 x (by omega)))).mpr marked

/-- A call that is neither cut nor loses a command. -/
theorem NvCall.completed {k : Fin 2} {es : List InfoIdx} (settled : Settled b id k es m)
    (whole : c.cut = none) (unskipped : ∀ n, c.skipped n = false)
    (fits : Fits b id c.buf.length m)
    : ∃ i l, Completed b id c es m (c.status b id m) i l (c.after b id m) := by
  have steady := c.steady unskipped
  rw [NvCall.after_uncut whole]
  by_cases admitted : Admitted id c.buf.length
  · by_cases rolls : (nvFlashWriteNew.place b m id c.buf.length).sectorUpdate = true
    · obtain ⟨_, used⟩ := settled.store.leaves admitted.short rolls
      have rolled := ((@nvFlashWriteNew_leaves_meets c.env b id k es (Dev.ready m) c.itemId c.buf
        c.single settled.store c.real admitted rolls).steady steady).2
      exact rolled.completed settled (otherSect_ne k) used steady
    · have plain : (nvFlashWriteNew.place b m id c.buf.length).sectorUpdate = false := by
        simpa using rolls
      have stayed := ((@nvFlashWriteNew_stays_meets c.env b id k es (Dev.ready m) c.itemId c.buf
        c.single settled.store c.real admitted fits plain).steady steady).2.1
      exact ⟨k, stayed.completed settled steady⟩
  · have refused := (@nvFlashWriteNew_refused b c.env id c.itemId c.buf (Dev.ready m) c.single
      admitted).2
    rw [NvCall.status, refused]
    exact ⟨k, es, {
      settled
      others := fun _ _ _ _ _ => rfl
      written := fun yes => by cases yes
      failed := fun _ _ _ => rfl
      sizes := fun e member => Or.inr ⟨e, member, rfl⟩
    }⟩

theorem Settled.erased (blank : m.BlankOn (modulesStartAddr b id) (moduleEnd b id))
    : Settled b id 0 [] m :=
  ⟨Store.erased blank, fun used => absurd rfl used⟩

end Runs

-----------------------------------------------------------------------------------------
-- Calls for three items
-----------------------------------------------------------------------------------------

namespace SampleCall

def first : NvCall := { itemId := 1, buf := [1, 2, 3, 4] }

def second : NvCall := { itemId := 2, buf := [5, 6, 7, 8] }

/-- It takes what the other two leave of a sector of module 0. -/
def third : NvCall where
  itemId := 3
  buf := List.replicate 3548 0
  short := by rw [List.length_replicate]; decide

def again : NvCall := { itemId := 1, buf := [9, 9, 9, 9] }

/-- A build for a flash of 1 MiB, without boot loader. -/
def build : Build := ⟨true, false⟩

/-- Module 0 after the first two calls. -/
def twoItems : Mem := second.after build macModule (first.after build macModule Mem.blank)

end SampleCall

end TelinkSdk
