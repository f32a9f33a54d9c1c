import TelinkSdk.Drivers.NvItem

/-! Preparing the other sector: erasing it and copying the valid items of the old one. -/

namespace TelinkSdk

open Nor

-----------------------------------------------------------------------------------------
-- The room a list of entries takes
-----------------------------------------------------------------------------------------

theorem nextFree_append_list (start : Nat) (first second : List InfoIdx)
    : nextFree start (first ++ second) = nextFree (nextFree start first) second := by
  induction first generalizing start with
  | nil => rfl
  | cons e rest ih => exact ih _

theorem nextFree_congr {start : Nat} {es es' : List InfoIdx}
    (sizes : es'.map InfoIdx.size = es.map InfoIdx.size)
    : nextFree start es' = nextFree start es := by
  induction es generalizing start es' with
  | nil =>
      have empty : es' = [] := by simpa using sizes
      rw [empty]
  | cons e rest ih =>
      cases es' with
      | nil => simp at sizes
      | cons e' rest' =>
          simp only [List.map_cons, List.cons.injEq] at sizes
          simp only [nextFree, sizes.1]
          exact ih sizes.2

/-- From an aligned start, the room of a chain is the sum of its rounded sizes. -/
theorem nextFree_eq_sum {start : Nat} (es : List InfoIdx) (aligned : start % 4 = 0)
    : nextFree start es = start + (es.map (fun e => alignUp e.size)).sum := by
  induction es generalizing start with
  | nil => rfl
  | cons e rest ih =>
      rw [nextFree, ih (alignUp_aligned _), alignUp_add e.size aligned, List.map_cons,
        List.sum_cons, Nat.add_assoc]

/-- A part of a chain needs no more room than the chain, in any sector. -/
theorem nextFree_sublist {start start' : Nat} {es es' : List InfoIdx}
    (sub : es'.Sublist es) (aligned : start % 4 = 0) (aligned' : start' % 4 = 0)
    : nextFree start' es' - start' ≤ nextFree start es - start := by
  have le : (es'.map (fun e => alignUp e.size)).sum ≤ (es.map (fun e => alignUp e.size)).sum := by
    induction sub with
    | slnil => exact Nat.le_refl _
    | cons e _ ih =>
        simp only [List.map_cons, List.sum_cons]
        omega
    | cons_cons e _ ih =>
        simp only [List.map_cons, List.sum_cons]
        omega
  rw [nextFree_eq_sum es aligned, nextFree_eq_sum es' aligned']
  omega

-----------------------------------------------------------------------------------------
-- Erasing
-----------------------------------------------------------------------------------------

/-- The erase loop blanks its range, sector by sector. -/
theorem flashEraseSectors_meets {env : Env} {b : Build} {id : Fin nvMaxModuls} {I : Mem → Prop}
    {low high : Nat}
    (stable : ∀ m addr, I m → low ≤ addr → addr + 4096 ≤ high → addr % 4096 = 0
      → I (m.erase flashSectorSize addr))
    (count addr : Nat) (d : Dev) (start : I d.mem) (aligned : addr % 4096 = 0)
    (after : low ≤ addr) (before : addr + count * 4096 ≤ high)
    : Prog.Meets (Structural b id) env I (flashEraseSectors count addr) d
        (fun _ d' => I d'.mem
          ∧ d'.mem.BlankOn addr (addr + count * 4096)
          ∧ (∀ x, (x < addr ∨ addr + count * 4096 ≤ x) → d'.mem x = d.mem x)
          ∧ d'.allocs = d.allocs) := by
  induction count generalizing addr d with
  | zero => exact .silent start rfl ⟨start, fun x _ _ => by omega, fun x _ => rfl, rfl⟩
  | succ count ih =>
      have kept := stable d.mem addr start after (by omega) aligned
      apply Prog.Meets.bind (flashErase_essential trivial start kept)
      rintro _ d' ⟨same, memory⟩
      have bytes (x : Nat) : d'.mem x = if addr ≤ x ∧ x < addr + 4096 then blankByte
          else d.mem x := by
        rw [memory]
        exact Mem.erase_aligned d.mem (by decide) aligned x
      have allocs : d'.allocs = d.allocs := by rw [same]; rfl
      have later := ih (addr + flashSectorSize) d' (memory ▸ kept)
        (by simp only [flashSectorSize]; omega) (by simp only [flashSectorSize]; omega)
        (by simp only [flashSectorSize]; omega)
      apply later.mono (fun _ held => held)
      rintro _ d'' ⟨final, blank, outside, allocs'⟩
      simp only [flashSectorSize] at blank outside
      refine ⟨final, ?_, ?_, allocs'.trans allocs⟩
      · intro x first last
        by_cases here : x < addr + 4096
        · rw [outside x (Or.inl here), bytes x, if_pos ⟨first, here⟩]
        · exact blank x (by omega) (by omega)
      · intro x apart
        rw [outside x (by omega), bytes x, if_neg (by omega)]

-----------------------------------------------------------------------------------------
-- Copying the valid items
-----------------------------------------------------------------------------------------

/-- Entry `e'` of the new sector holds the item of entry `e`. -/
structure Copied (s : Sector) (m m' : Mem) (e e' : InfoIdx) : Prop where
  size : e'.size = e.size
  itemId : e'.itemId = e.itemId
  usedState : e'.usedState = itemFieldValid
  bytes : ∀ i < e.size, (e.offset + i < s.base ∨ s.limit ≤ e.offset + i)
    → m' (e'.offset + i) = m (e.offset + i)

/-- At a cut while a sector is filled: it holds some chain, and only its table and its
context area differ from the array `m` after the erase.
-/
def Filling (s : Sector) (m m' : Mem) : Prop :=
  (∃ es, Chain s es m') ∧ ∀ x, (x < s.base + 4 ∨ s.limit ≤ x) → m' x = m x

/-- The items of `live` have been copied to the chain `es`, one allocation each. -/
structure Moved (env : Env) (s : Sector) (d : Dev) (live es : List InfoIdx) (d' : Dev)
    : Prop where
  chain : Chain s es d'.mem
  outside : ∀ x, (x < s.base + 4 ∨ s.limit ≤ x) → d'.mem x = d.mem x
  sizes : es.map InfoIdx.size = live.map InfoIdx.size
  itemIds : es.map InfoIdx.itemId = live.map InfoIdx.itemId
  copies : env.Steady → List.Forall₂ (Copied s d.mem d'.mem) live es
  allocs : d'.allocs = d.allocs + live.length
  granted : ∀ i < live.length, env.noBuffer (d.allocs + i) = false

theorem Moved.filling {env : Env} {s : Sector} {d d' : Dev} {live es : List InfoIdx}
    (moved : Moved env s d live es d')
    : Filling s d.mem d'.mem :=
  ⟨⟨es, moved.chain⟩, moved.outside⟩

theorem Moved.length {env : Env} {s : Sector} {d d' : Dev} {live es : List InfoIdx}
    (moved : Moved env s d live es d')
    : es.length = live.length := by
  simpa using congrArg List.length moved.sizes

theorem Moved.free {env : Env} {s : Sector} {d d' : Dev} {live es : List InfoIdx}
    (moved : Moved env s d live es d') (start : Nat)
    : nextFree start es = nextFree start live :=
  nextFree_congr moved.sizes

/-- An item write stays inside the table and the context area of its sector. -/
theorem Appends.outside {s : Sector} {es : List InfoIdx} {len : Nat} {m m' : Mem}
    (frame : Appends s es len m m') (room : es.length < s.slots)
    (fits : nextFree s.ctx es + (len + 8) ≤ s.limit)
    : ∀ x, (x < s.base + 4 ∨ s.limit ≤ x) → m' x = m x := by
  intro x apart
  have area := le_nextFree s.ctx es
  obtain ⟨first, last, context⟩ := s.idxAddr_bounds room
  exact frame x (by omega) (by omega)

theorem Appending.filling {env : Env} {s : Sector} {es : List InfoIdx} {itemId : UInt8}
    {source : ItemSource} {m m' m'' : Mem} (cut : Appending env s es itemId source m' m'')
    (room : es.length < s.slots) (fits : nextFree s.ctx es + (source.len + 8) ≤ s.limit)
    (outside : ∀ x, (x < s.base + 4 ∨ s.limit ≤ x) → m' x = m x)
    : Filling s m m'' := by
  obtain ⟨frame, chain⟩ := cut
  refine ⟨?_, fun x apart => ?_⟩
  · rcases chain with old | ⟨state, longer, _⟩
    · exact ⟨es, old⟩
    · exact ⟨_, longer⟩
  · rw [frame.outside room fits x apart, outside x apart]

/-- Matched lists stay matched under what their elements guarantee. -/
theorem forall₂_imp_mem {α : Type} {R S : α → α → Prop} {l l' : List α}
    (related : List.Forall₂ R l l') (weaker : ∀ a ∈ l, ∀ a' ∈ l', R a a' → S a a')
    : List.Forall₂ S l l' := by
  induction related with
  | nil => exact .nil
  | cons head _ ih =>
      exact .cons (weaker _ List.mem_cons_self _ List.mem_cons_self head)
        (ih (fun a member a' member' =>
          weaker a (List.mem_cons_of_mem _ member) a' (List.mem_cons_of_mem _ member')))

/-- One more copied item. -/
theorem Moved.append {env : Env} {s : Sector} {d d' d'' : Dev} {live es : List InfoIdx}
    (moved : Moved env s d live es d') {e : InfoIdx} {state : UInt8} {addr len : Nat}
    (origin : e.offset = addr) (size : e.size = len + 8)
    (room : es.length < s.slots) (fits : nextFree s.ctx es + (len + 8) ≤ s.limit)
    (appended : Appended env s es e.itemId (.flash addr len) .succ d'.mem state d''.mem)
    (allocs : d''.allocs = d'.allocs + 1) (granted : env.noBuffer d'.allocs = false)
    : Moved env s d (live ++ [e]) (es ++ [s.nextEntry es e.itemId len state]) d'' := by
  have area := le_nextFree s.ctx es
  obtain ⟨first, last, context⟩ := s.idxAddr_bounds room
  refine {
    chain := appended.chain
    outside := ?_
    sizes := by simp [moved.sizes, Sector.nextEntry, size]
    itemIds := by simp [moved.itemIds, Sector.nextEntry]
    copies := ?_
    allocs := ?_
    granted := ?_
  }
  · intro x apart
    rw [appended.frame.outside room fits x apart]
    exact moved.outside x apart
  · intro steady
    obtain ⟨valid, placed⟩ := appended.complete rfl steady
    apply List.rel_append
    · -- The items copied before lie below the new one.
      apply forall₂_imp_mem (moved.copies steady)
      intro old _ copy member held
      obtain ⟨low, _, high⟩ := moved.chain.linked.inside member
      refine { held with bytes := ?_ }
      intro i inside apart
      have size := held.size
      rw [appended.frame _ (by omega) (by omega)]
      exact held.bytes i inside apart
    · refine .cons ?_ .nil
      refine {
        size := size.symm
        itemId := rfl
        usedState := valid
        bytes := ?_
      }
      intro i inside apart
      have byte : d''.mem ((s.nextEntry es e.itemId len state).offset + i) = d'.mem (addr + i) :=
        placed i (by omega) (by rw [← origin]; exact apart)
      rw [byte, ← origin]
      exact moved.outside _ (by omega)
  · rw [allocs, moved.allocs, List.length_append, List.length_singleton]
    omega
  · intro i inside
    rw [List.length_append, List.length_singleton] at inside
    by_cases old : i < live.length
    · exact moved.granted i old
    · have new : d.allocs + i = d'.allocs := by rw [moved.allocs]; omega
      rw [new]
      exact granted

/-- The size check of the old entry, undone and redone by the copy. -/
theorem copySource_len {size : Nat} (low : 8 ≤ size) (high : size < u16Mod)
    : (size + u16Mod - sizeofItemHdr) % u16Mod + 8 = size := by
  simp only [u16Mod, sizeofItemHdr] at *
  omega

theorem le_nextFree_of_mem {start : Nat} {es : List InfoIdx} {e : InfoIdx} (member : e ∈ es)
    : start + e.size ≤ nextFree start es := by
  induction es generalizing start with
  | nil => simp at member
  | cons first rest ih =>
      have step := le_alignUp (start + first.size)
      rw [nextFree]
      rcases List.mem_cons.mp member with same | later
      · subst e
        have grows := le_nextFree (alignUp (start + first.size)) rest
        omega
      · have bound := @ih (alignUp (start + first.size)) later
        omega

/-- The outcome of copying: all of `live`, or an allocation that failed on the way. -/
def CopyOutcome (env : Env) (s : Sector) (d : Dev) (live : List InfoIdx) (d' : Dev)
    : Except NvSts NvCopied → Prop
  | .ok copied =>
      ∃ es, Moved env s d live es d'
        ∧ copied = { wItemIdx := es.length, sizeusedAddr := nextFree s.ctx es }
  | .error ret =>
      ret = .notEnoughSapce ∧ Filling s d.mem d'.mem
        ∧ ∃ i < live.length, env.noBuffer (d.allocs + i) = true

/-- The entries `more` can be copied behind the copies of `live`: they are entries of items, and
there are slots and room for them.
-/
structure Copies (s : Sector) (live more : List InfoIdx) : Prop where
  sizes : ∀ e ∈ more, 8 ≤ e.size
  count : live.length + more.length ≤ s.slots
  fits : nextFree s.ctx (live ++ more) ≤ s.limit

theorem Copies.front {s : Sector} {live first second : List InfoIdx}
    (copies : Copies s live (first ++ second))
    : Copies s live first where
  sizes e member := copies.sizes e (List.mem_append_left _ member)
  count := by
    have count := copies.count
    rw [List.length_append] at count
    omega
  fits := by
    have fits := copies.fits
    rw [← List.append_assoc, nextFree_append_list] at fits
    exact Nat.le_trans (le_nextFree _ _) fits

theorem Copies.rest {s : Sector} {live first second : List InfoIdx}
    (copies : Copies s live (first ++ second))
    : Copies s (live ++ first) second where
  sizes e member := copies.sizes e (List.mem_append_right _ member)
  count := by
    have count := copies.count
    rw [List.length_append] at count ⊢
    omega
  fits := by
    rw [List.append_assoc]
    exact copies.fits

/-- The next item to copy fits the next slot and the place after the items copied so far. -/
theorem Moved.place {env : Env} {s : Sector} {d d' : Dev} {live es : List InfoIdx} {e : InfoIdx}
    {rest : List InfoIdx} (moved : Moved env s d live es d') (copies : Copies s live (e :: rest))
    : ∃ len, (e.size + u16Mod - sizeofItemHdr) % u16Mod = len ∧ len + 8 = e.size
      ∧ es.length < s.slots ∧ nextFree s.ctx es + (len + 8) ≤ s.limit
      ∧ ∀ state, roundUp4 (nextFree s.ctx es + e.size)
        = nextFree s.ctx (es ++ [s.nextEntry es e.itemId len state]) := by
  have bounded := s.bounded
  have small := s.size_small
  have limitEq : s.limit = s.base + s.size := rfl
  have ctxEq : s.ctx = s.base + s.info := rfl
  have wide := copies.sizes e List.mem_cons_self
  have space : nextFree s.ctx (live ++ [e]) ≤ s.limit := (@Copies.front s live [e] rest copies).fits
  have narrow : e.size < u16Mod := by
    have member := @le_nextFree_of_mem s.ctx (live ++ [e]) e (by simp)
    simp only [u16Mod]
    omega
  have lenEq := copySource_len wide narrow
  have inside : nextFree s.ctx es + e.size ≤ s.limit := by
    rw [moved.free]
    rw [nextFree_append] at space
    exact Nat.le_trans (le_alignUp _) space
  refine ⟨_, rfl, lenEq, ?_, by omega, ?_⟩
  · have count := copies.count
    rw [List.length_cons] at count
    rw [moved.length]
    omega
  · intro state
    rw [nextFree_append, Sector.nextEntry, lenEq]
    exact roundUp4_eq_alignUp (by simp only [u32Mod]; omega)

/-- Copying the slots of one read, by induction on the slots.
Witness: each kept item takes the next slot and the place after the items copied so far.
-/
theorem copyRead_meets {env : Env} {b : Build} {id : Fin nvMaxModuls} {j : Fin 2} {d : Dev}
    (single : Bool) (itemId : UInt8) (l live es : List InfoIdx) (d' : Dev)
    (moved : Moved env (moduleSector b id j) d live es d')
    (copies : Copies (moduleSector b id j) live (l.filter (nvFlashWriteNew.keeps single itemId)))
    : Prog.Meets (Structural b id) env (Filling (moduleSector b id j) d.mem)
        (nvFlashWriteNew.copyRead b single id itemId j l
          { wItemIdx := es.length, sizeusedAddr := nextFree (moduleSector b id j).ctx es }) d'
        (fun result d'' => CopyOutcome env (moduleSector b id j) d
          (live ++ l.filter (nvFlashWriteNew.keeps single itemId)) d'' result) := by
  induction l generalizing live es d' with
  | nil =>
      rw [List.filter_nil, List.append_nil]
      exact .silent moved.filling rfl ⟨es, moved, rfl⟩
  | cons e rest ih =>
      rw [nvFlashWriteNew.copyRead]
      by_cases keep : nvFlashWriteNew.keeps single itemId e = true
      · rw [List.filter_cons_of_pos keep] at copies ⊢
        rw [if_pos keep]
        obtain ⟨len, source, lenEq, room, place, progress⟩ := moved.place copies
        rw [source]
        have written := @nvWriteItem_meets env b id j es d' e.itemId
          (.flash e.offset len) moved.chain room place
        apply Prog.Meets.bind
          (written.mono (fun m' cut => cut.filling room place moved.outside) (fun _ _ post => post))
        rintro ret d'' ⟨⟨state, appended⟩, status, allocs⟩
        simp only [ItemStatus] at status
        cases refused : env.noBuffer d'.allocs with
        | true =>
            rw [refused, if_pos rfl] at status
            rw [if_neg (by simp [status])]
            have filling : Filling (moduleSector b id j) d.mem d''.mem :=
              ⟨⟨_, appended.chain⟩, fun x apart => by
                rw [appended.frame.outside room place x apart]
                exact moved.outside x apart⟩
            have failed : ∃ i < (live ++ e :: rest.filter
                (nvFlashWriteNew.keeps single itemId)).length,
                env.noBuffer (d.allocs + i) = true := by
              refine ⟨live.length, ?_, ?_⟩
              · rw [List.length_append, List.length_cons]
                omega
              · rw [← moved.allocs]
                exact refused
            exact .silent filling rfl ⟨status, filling, failed⟩
        | false =>
            rw [refused] at status
            simp only [Bool.false_eq_true, if_false] at status
            rw [if_pos status]
            subst ret
            have next := moved.append rfl lenEq.symm room place appended allocs refused
            have later := ih (live ++ [e]) _ d'' next (@Copies.rest _ live [e] _ copies)
            rw [progress state]
            rw [List.append_assoc] at later
            simpa using later
      · rw [List.filter_cons_of_neg keep] at copies ⊢
        rw [if_neg keep]
        exact ih live es d' moved copies

-----------------------------------------------------------------------------------------
-- Reading the old table
-----------------------------------------------------------------------------------------

theorem readIndexes_add (m : Mem) (addr first second : Nat)
    : readIndexes m addr (first + second)
      = readIndexes m addr first ++ readIndexes m (addr + first * sizeofInfoIdx) second := by
  simp only [readIndexes, List.range_add, List.map_append, List.map_map]
  congr 1
  apply List.map_congr_left
  intro i _
  simp only [Function.comp_apply, Nat.add_mul, Nat.add_assoc]

theorem readIndexes_congr {m m' : Mem} {addr count : Nat}
    (same : ∀ x, addr ≤ x → x < addr + count * 8 → m' x = m x)
    : readIndexes m' addr count = readIndexes m addr count := by
  apply List.map_congr_left
  intro i member
  have inside := List.mem_range.mp member
  apply InfoIdx.load_congr
  intro byte small
  simp only [sizeofInfoIdx]
  exact same _ (by omega) (by omega)

/-- The items that move to the new sector. -/
def liveItems (b : Build) (single : Bool) (id : Fin nvMaxModuls) (itemId : UInt8) (k : Fin 2)
    (m : Mem) : List InfoIdx :=
  (readIndexes m (moduleIdxStart b id k) (moduleIdxNum id)).filter
    (nvFlashWriteNew.keeps single itemId)

theorem CopyOutcome.extend {env : Env} {s : Sector} {d d' : Dev} {live : List InfoIdx}
    {ret : NvSts} (outcome : CopyOutcome env s d live d' (.error ret)) (more : List InfoIdx)
    : CopyOutcome env s d (live ++ more) d' (.error ret) := by
  obtain ⟨status, filling, i, inside, refused⟩ := outcome
  refine ⟨status, filling, i, ?_, refused⟩
  rw [List.length_append]
  omega

/-- The rounds of four slots copy the kept items of the whole table, by induction on the
slots left. The table lies outside the sector that is filled, so every round still reads
what was there at the start.
-/
theorem copyLive_meets {env : Env} {b : Build} {id : Fin nvMaxModuls} {j : Fin 2} {d : Dev}
    (single : Bool) (itemId : UInt8) (fuel total start : Nat) (live es : List InfoIdx) (d' : Dev)
    (enough : total ≤ fuel) (moved : Moved env (moduleSector b id j) d live es d')
    (apart : start + total * 8 ≤ (moduleSector b id j).base
      ∨ (moduleSector b id j).limit ≤ start)
    (copies : Copies (moduleSector b id j) live
      ((readIndexes d.mem start total).filter (nvFlashWriteNew.keeps single itemId)))
    : Prog.Meets (Structural b id) env (Filling (moduleSector b id j) d.mem)
        (nvFlashWriteNew.copyLive b single id itemId j fuel total start
          { wItemIdx := es.length, sizeusedAddr := nextFree (moduleSector b id j).ctx es }) d'
        (fun result d'' => CopyOutcome env (moduleSector b id j) d
          (live ++ (readIndexes d.mem start total).filter
            (nvFlashWriteNew.keeps single itemId)) d'' result) := by
  induction fuel generalizing total start live es d' with
  | zero =>
      have empty : total = 0 := by omega
      subst total
      have none : (readIndexes d.mem start 0).filter (nvFlashWriteNew.keeps single itemId) = [] :=
        rfl
      rw [none, List.append_nil]
      exact .silent moved.filling rfl ⟨es, moved, rfl⟩
  | succ fuel ih =>
      rw [nvFlashWriteNew.copyLive]
      by_cases empty : total > 0
      · have width : (if total > 4 then 4 else total) ≤ total := by split <;> omega
        have positive : 0 < (if total > 4 then 4 else total) := by split <;> omega
        rw [if_pos empty]
        generalize (if total > 4 then 4 else total) = taken at width positive
        obtain ⟨rest, rfl⟩ := Nat.exists_eq_add_of_le width
        rw [readIndexes_add, List.filter_append] at copies ⊢
        dsimp only
        rw [Nat.add_sub_cancel_left]
        have table : readIndexes d'.mem start taken = readIndexes d.mem start taken :=
          readIndexes_congr (fun x low high => moved.outside x (by omega))
        apply Prog.Meets.read
        rw [table]
        have chunk := copyRead_meets single itemId (readIndexes d.mem start taken) live es d' moved
          copies.front
        apply Prog.Meets.bind chunk
        intro result d'' outcome
        cases result with
        | error ret =>
            have failed := outcome.extend ((readIndexes d.mem (start + taken * sizeofInfoIdx)
              rest).filter (nvFlashWriteNew.keeps single itemId))
            rw [List.append_assoc] at failed
            exact .silent failed.2.1 rfl failed
        | ok copied =>
            obtain ⟨es', moved', rfl⟩ := outcome
            have later := ih rest (start + taken * sizeofInfoIdx) _ es' d'' (by omega) moved'
              (by simp only [sizeofInfoIdx]; omega) copies.rest
            rwa [List.append_assoc] at later
      · have none : total = 0 := by omega
        subst total
        rw [if_neg empty]
        have nothing : (readIndexes d.mem start 0).filter
            (nvFlashWriteNew.keeps single itemId) = [] := rfl
        rw [nothing, List.append_nil]
        exact .silent moved.filling rfl ⟨es, moved, rfl⟩

-----------------------------------------------------------------------------------------
-- Preparing the other sector
-----------------------------------------------------------------------------------------

/-- Sector `j` of the module may differ, but it is not marked anew. -/
def Spare (b : Build) (id : Fin nvMaxModuls) (j : Fin 2) (m m' : Mem) : Prop :=
  (∀ x, (x < (moduleSector b id j).base ∨ (moduleSector b id j).limit ≤ x) → m' x = m x)
    ∧ (sectHead b id m' j = sectHead b id m j ∨ ¬Marked b id m' j)

/-- The sector has been erased. -/
structure Erased (s : Sector) (d d' : Dev) : Prop where
  blank : d'.mem.BlankOn s.base s.limit
  outside : ∀ x, (x < s.base ∨ s.limit ≤ x) → d'.mem x = d.mem x
  allocs : d'.allocs = d.allocs

/-- Erasing one part of the sector leaves its head alone or blanks it. -/
theorem Spare.erase {b : Build} {id : Fin nvMaxModuls} {j : Fin 2} {m m' : Mem} {addr : Nat}
    (spare : Spare b id j m m') (low : (moduleSector b id j).base ≤ addr)
    (high : addr + 4096 ≤ (moduleSector b id j).limit) (aligned : addr % 4096 = 0)
    : Spare b id j m (m'.erase flashSectorSize addr) := by
  have baseAligned := (moduleSector b id j).base_aligned
  have bytes (x : Nat) := Mem.erase_aligned m' (show 0 < flashSectorSize by decide) aligned x
  obtain ⟨outside, head⟩ := spare
  refine ⟨?_, ?_⟩
  · intro x apart
    rw [bytes x, if_neg (by simp only [flashSectorSize]; omega)]
    exact outside x apart
  · by_cases first : addr = (moduleSector b id j).base
    · refine Or.inr (not_marked_of_blank ?_)
      intro x start finish
      rw [bytes x, if_pos (by simp only [flashSectorSize]; omega)]
    · have kept : sectHead b id (m'.erase flashSectorSize addr) j = sectHead b id m' j := by
        apply sectHead_congr
        intro x start finish
        rw [bytes x, if_neg (by omega)]
      rw [kept, marked_congr kept]
      exact head

/-- While the erased sector is filled, its head stays blank. -/
theorem Filling.spare {b : Build} {id : Fin nvMaxModuls} {j : Fin 2} {d d' : Dev} {m' : Mem}
    (filling : Filling (moduleSector b id j) d'.mem m') (erased : Erased (moduleSector b id j) d d')
    : Spare b id j d.mem m'
      ∧ m'.BlankOn (moduleSector b id j).base ((moduleSector b id j).base + 4) := by
  have slots := (moduleSector b id j).slots_fit
  have info := (moduleSector b id j).info_fit
  have limitEq : (moduleSector b id j).limit
    = (moduleSector b id j).base + (moduleSector b id j).size := rfl
  have head : m'.BlankOn (moduleSector b id j).base ((moduleSector b id j).base + 4) := by
    intro x low high
    rw [filling.2 x (Or.inl high)]
    exact erased.blank x low (by omega)
  refine ⟨⟨?_, Or.inr (not_marked_of_blank head)⟩, head⟩
  intro x apart
  rw [filling.2 x (by omega)]
  exact erased.outside x apart

/-- The outcome of preparing sector `j` for an item of `len` bytes: all live items moved
and room left for the new one, or the reason why not.
-/
def UpdateOutcome (env : Env) (b : Build) (id : Fin nvMaxModuls) (j : Fin 2) (d : Dev)
    (live : List InfoIdx) (len : Nat) (d' : Dev) : Except NvSts Nat → Prop
  | .ok wItemIdx =>
      ∃ erased es, Erased (moduleSector b id j) d erased
        ∧ Moved env (moduleSector b id j) erased live es d'
        ∧ wItemIdx = es.length
        ∧ es.length < (moduleSector b id j).slots
        ∧ nextFree (moduleSector b id j).ctx es + (len + 8) ≤ (moduleSector b id j).limit
  | .error ret =>
      ret = .notEnoughSapce ∧ Spare b id j d.mem d'.mem
        ∧ ((∃ i < live.length, env.noBuffer (d.allocs + i) = true)
          ∨ live.length = (moduleSector b id j).slots
          ∨ nextFree (moduleSector b id j).ctx live + (len + 8) > (moduleSector b id j).limit)

section Update

variable {env : Env} {b : Build} {id : Fin nvMaxModuls} {k j : Fin 2} {d d' : Dev}

/-- The sector's erase, wherever it is cut. -/
theorem eraseSector_meets (env : Env) (b : Build) (id : Fin nvMaxModuls) (j : Fin 2) (d : Dev)
    : Prog.Meets (Structural b id) env (Spare b id j d.mem)
        (flashEraseSectors (nvSectorSize id / flashSectorSize) (moduleSector b id j).base) d
        (fun _ d' => Erased (moduleSector b id j) d d') := by
  have limitEq : (moduleSector b id j).limit
    = (moduleSector b id j).base + (moduleSector b id j).size := rfl
  have sizeEq : nvSectorSize id = (moduleSector b id j).size := rfl
  have aligned := (moduleSector b id j).size_aligned
  have whole : nvSectorSize id / flashSectorSize * 4096 = (moduleSector b id j).size := by
    rw [sizeEq]
    simp only [flashSectorSize]
    omega
  have erase := @flashEraseSectors_meets env b id (Spare b id j d.mem)
    (moduleSector b id j).base (moduleSector b id j).limit
    (fun m addr spare low high aligned => spare.erase low high aligned)
    (nvSectorSize id / flashSectorSize) (moduleSector b id j).base d
    ⟨fun x _ => rfl, Or.inl rfl⟩ (moduleSector b id j).base_aligned (Nat.le_refl _) (by omega)
  apply erase.mono (fun _ spare => spare)
  rintro _ d' ⟨_, blank, outside, allocs⟩
  rw [whole, ← limitEq] at blank outside
  exact ⟨blank, outside, allocs⟩

/-- The table of the other sector is apart from sector `j`. -/
theorem table_apart (different : j ≠ k)
    : moduleIdxStart b id k + moduleIdxNum id * 8 ≤ (moduleSector b id j).base
      ∨ (moduleSector b id j).limit ≤ moduleIdxStart b id k := by
  have sectors := @moduleSector_apart b id j k different
  have slots := (moduleSector b id k).slots_fit
  have info := (moduleSector b id k).info_fit
  have limitK : (moduleSector b id k).limit
    = (moduleSector b id k).base + (moduleSector b id k).size := rfl
  have tableStart : moduleIdxStart b id k = (moduleSector b id k).base + 4 := rfl
  have slotsEq : moduleIdxNum id = (moduleSector b id k).slots := rfl
  omega

/-- The old table is still there after the erase, -/
theorem Erased.live (erased : Erased (moduleSector b id j) d d') (different : j ≠ k)
    (single : Bool) (itemId : UInt8)
    : liveItems b single id itemId k d'.mem = liveItems b single id itemId k d.mem := by
  have apart := @table_apart b id k j different
  rw [liveItems, liveItems,
    readIndexes_congr (fun x low high => erased.outside x (by omega))]

/-- and the new sector is ready to take items. -/
theorem Erased.moved (erased : Erased (moduleSector b id j) d d')
    : Moved env (moduleSector b id j) d' [] [] d' :=
  {
    chain := Chain.empty (fun x low high => erased.blank x (by omega) high)
    outside := fun x _ => rfl
    sizes := rfl
    itemIds := rfl
    copies := fun _ => .nil
    allocs := rfl
    granted := fun i inside => absurd inside (Nat.not_lt_zero i)
  }

theorem liveItems_count (b : Build) (single : Bool) (id : Fin nvMaxModuls) (itemId : UInt8)
    (k j : Fin 2) (m : Mem)
    : (liveItems b single id itemId k m).length ≤ (moduleSector b id j).slots := by
  apply Nat.le_trans (List.length_filter_le _ _)
  simp [readIndexes, moduleSector_slots]

/-- Preparing the other sector touches nothing else, wherever it is cut. -/
theorem update_meets (single : Bool) (itemId : UInt8) (len : Nat) (different : j ≠ k)
    (short : len < u16Mod)
    (sizes : ∀ e ∈ liveItems b single id itemId k d.mem, 8 ≤ e.size)
    (fits : nextFree (moduleSector b id j).ctx (liveItems b single id itemId k d.mem)
      ≤ (moduleSector b id j).limit)
    : Prog.Meets (Structural b id) env (Spare b id j d.mem)
        (nvFlashWriteNew.update b single id itemId len k j) d
        (fun result d' => UpdateOutcome env b id j d
          (liveItems b single id itemId k d.mem) len d' result) := by
  have bounded := (moduleSector b id j).bounded
  have limitEq : (moduleSector b id j).limit
    = (moduleSector b id j).base + (moduleSector b id j).size := rfl
  unfold nvFlashWriteNew.update
  apply Prog.Meets.bind (eraseSector_meets env b id j d)
  intro _ d' erased
  have live := erased.live different single itemId
  have few := liveItems_count b single id itemId k j d.mem
  have copy := @copyLive_meets env b id j d' single itemId (moduleIdxNum id) (moduleIdxNum id)
    (moduleIdxStart b id k) [] [] d' (Nat.le_refl _) erased.moved (table_apart different)
    (by rw [← liveItems, live]; exact ⟨sizes, by simpa using few, fits⟩)
  rw [← liveItems, live, List.nil_append] at copy
  apply Prog.Meets.bind (copy.mono (fun m' filling => (filling.spare erased).1)
    (fun _ _ post => post))
  intro result d'' outcome
  cases result with
  | error ret =>
      obtain ⟨status, filling, refused⟩ := outcome
      rw [erased.allocs] at refused
      have spare := (filling.spare erased).1
      exact .silent spare rfl ⟨status, spare, Or.inl refused⟩
  | ok copied =>
      obtain ⟨es, moved, rfl⟩ := outcome
      have spare := (moved.filling.spare erased).1
      have count := moved.length
      have fitsHere := moved.chain.fits
      have unwrapped : (nextFree (moduleSector b id j).ctx es + itemTotalLen len) % u32Mod
          = nextFree (moduleSector b id j).ctx es + (len + 8) := by
        simp only [itemTotalLen, sizeofItemHdr, u32Mod, u16Mod] at *
        omega
      have slotsEq : moduleIdxNum id = (moduleSector b id j).slots := rfl
      simp only
      rw [unwrapped, ← moduleSector_limit, slotsEq]
      by_cases full : es.length = (moduleSector b id j).slots
          ∨ nextFree (moduleSector b id j).ctx es + (len + 8) > (moduleSector b id j).limit
      · rw [if_pos full]
        rw [count, moved.free] at full
        exact .silent spare rfl ⟨rfl, spare, Or.inr full⟩
      · rw [if_neg full]
        rw [not_or] at full
        have room := moved.chain.count
        exact .silent spare rfl
          ⟨d', es, erased, moved, rfl, by omega, by omega⟩

end Update

end TelinkSdk
