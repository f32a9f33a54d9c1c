import TelinkSdk.Drivers.FrameCount

/-! The frame counter across power cuts: which value a restart finds after any run of saves,
each of them cut anywhere.
-/

namespace TelinkSdk

open Nor

-----------------------------------------------------------------------------------------
-- Changing a list of values
-----------------------------------------------------------------------------------------

section Values

variable {b : Build} {k : Fin 2} {vs : List Nat} {m m' : Mem}

theorem Counted.congr (counted : Counted b k vs m)
    (same : ∀ x, (moduleSector b frameModule k).base + 4 ≤ x
      → x < (moduleSector b frameModule k).limit → m' x = m x)
    : Counted b k vs m' := by
  have count := counted.count
  have limit := @frameSector_limit b k
  refine {
    count
    word := ?_
    real := counted.real
    blank := ?_
  }
  · intro i inside
    rw [← counted.word i inside]
    apply Mem.le32_congr
    intro j small
    apply same <;> simp only [frameAddr] at * <;> omega
  · intro x low high
    rw [same x (by simp only [frameAddr] at low; omega) high]
    exact counted.blank x low high

theorem Counted.empty
    (blank : m.BlankOn (moduleSector b frameModule k).base (moduleSector b frameModule k).limit)
    : Counted b k [] m where
  count := Nat.zero_le _
  word := fun i inside => absurd inside (Nat.not_lt_zero i)
  real := fun v member => absurd member List.not_mem_nil
  blank := fun x low high => blank x (by simp only [frameAddr] at low; omega) high

/-- Programming a value into the first free word appends it. -/
theorem Counted.append (counted : Counted b k vs m) (room : vs.length < 1023) {v : Nat}
    (small : v < u32Mod) (real : v ≠ frameCountIdle)
    : Counted b k (vs ++ [v]) (m.program (frameAddr b k vs.length) (bytes32 v)) := by
  have limit := @frameSector_limit b k
  have outside {x : Nat} (apart : x < frameAddr b k vs.length ∨ frameAddr b k vs.length + 4 ≤ x)
      : m.program (frameAddr b k vs.length) (bytes32 v) x = m x :=
    Mem.program_outside (by simpa using apart)
  refine {
    count := ?_
    word := ?_
    real := ?_
    blank := ?_
  }
  · simp only [List.length_append, List.length_singleton]
    omega
  · intro i inside
    simp only [List.length_append, List.length_singleton] at inside
    by_cases old : i < vs.length
    · rw [List.getElem_append_left old, ← counted.word i old]
      apply Mem.le32_congr
      intro j width
      apply outside
      simp only [frameAddr]
      omega
    · have new : i = vs.length := by omega
      subst i
      rw [List.getElem_concat_length rfl]
      apply Mem.le32_of_bytes small
      intro j width
      apply Mem.program_blank (by simpa using width)
      apply counted.blank <;> simp only [frameAddr] <;> omega
  · intro value member
    rcases List.mem_append.mp member with old | new
    · exact counted.real value old
    · rw [List.mem_singleton.mp new]
      exact real
  · intro x low high
    simp only [List.length_append, List.length_singleton, frameAddr] at low
    rw [outside (by simp only [frameAddr]; omega)]
    exact counted.blank x (by simp only [frameAddr]; omega) high

end Values

-----------------------------------------------------------------------------------------
-- The sector in operation
-----------------------------------------------------------------------------------------

/-- Sector `k` is the one that the driver selects, and it holds the values `vs`. The other
sector may be marked valid too, but only if it comes second.
-/
structure Holds (b : Build) (k : Fin 2) (vs : List Nat) (m : Mem) : Prop where
  marked : Marked b frameModule m k
  own : (sectHead b frameModule m k).opSect.toNat = k
  first : k ≠ 0 → ¬Marked b frameModule m 0
  counted : Counted b k vs m
  used : vs ≠ []

/-- What a restart finds satisfies `A`: nothing if no sector is marked valid, else the last
value of the selected sector.
-/
def Restarts (b : Build) (A : Option Nat → Prop) (m : Mem) : Prop :=
  ((∀ k, ¬Marked b frameModule m k) ∧ A none) ∨ ∃ k vs, Holds b k vs m ∧ A vs.getLast?

section State

variable {b : Build} {k j : Fin 2} {vs : List Nat} {m m' : Mem} {A : Option Nat → Prop}

theorem Holds.sectorRead (holds : Holds b k vs m)
    : nvSectorRead b m nvModuleNwkFrameCount moduleSectorNum = some (sectHead b frameModule m k) := by
  have found := nvSectorRead_eq b frameModule m
  have cases : k = 0 ∨ k = 1 := by omega
  rcases cases with rfl | rfl
  · rw [if_pos holds.marked] at found
    exact found
  · rw [if_neg (holds.first (by decide)), if_pos holds.marked] at found
    exact found

theorem unmarked_sectorRead (unmarked : ∀ k, ¬Marked b frameModule m k)
    : nvSectorRead b m nvModuleNwkFrameCount moduleSectorNum = none := by
  have found := nvSectorRead_eq b frameModule m
  rw [if_neg (unmarked 0), if_neg (unmarked 1)] at found
  exact found

theorem Restarts.read (restarts : Restarts b A m) : A (nvNwkFrameCountFromFlash b m) := by
  rcases restarts with ⟨unmarked, none⟩ | ⟨k, vs, holds, last⟩
  · rw [nvNwkFrameCountFromFlash, unmarked_sectorRead unmarked]
    exact none
  · rw [nvNwkFrameCountFromFlash, holds.sectorRead]
    simp only [holds.own, holds.counted.search]
    exact last

theorem Restarts.mono {B : Option Nat → Prop} (restarts : Restarts b A m)
    (weaker : ∀ r, A r → B r)
    : Restarts b B m := by
  rcases restarts with ⟨unmarked, none⟩ | ⟨k, vs, holds, last⟩
  · exact Or.inl ⟨unmarked, weaker _ none⟩
  · exact Or.inr ⟨k, vs, holds, weaker _ last⟩

/-- Changes of the other sector that leave it unmarked do not matter. -/
theorem Holds.spare (holds : Holds b k vs m) (different : j ≠ k)
    (same : ∀ x, x < (moduleSector b frameModule j).base
      ∨ (moduleSector b frameModule j).limit ≤ x → m' x = m x)
    (unmarked : ¬Marked b frameModule m' j)
    : Holds b k vs m' := by
  have apart := @moduleSector_apart b frameModule j k different
  have limit := @frameSector_limit b k
  have head : sectHead b frameModule m' k = sectHead b frameModule m k :=
    sectHead_congr (fun x low high => same x (by omega))
  exact {
    marked := (marked_congr head).mpr holds.marked
    own := head ▸ holds.own
    first := fun second => by
      have zero : j = 0 := by omega
      exact zero ▸ unmarked
    counted := holds.counted.congr (fun x low high => same x (by omega))
    used := holds.used
  }

/-- One more value in the selected sector. -/
theorem Holds.append (holds : Holds b k vs m) (room : vs.length < 1023) {v : Nat}
    (small : v < u32Mod) (real : v ≠ frameCountIdle)
    : Holds b k (vs ++ [v]) (m.program (frameAddr b k vs.length) (bytes32 v)) := by
  have limit := @frameSector_limit b k
  have heads (i : Fin 2)
      : sectHead b frameModule (m.program (frameAddr b k vs.length) (bytes32 v)) i
        = sectHead b frameModule m i := by
    have limitOther := @frameSector_limit b i
    apply sectHead_congr
    intro x low high
    apply Mem.program_outside
    simp only [frameAddr, bytes32_length]
    by_cases here : i = k
    · subst i
      omega
    · have apart := @moduleSector_apart b frameModule i k here
      omega
  exact {
    marked := (marked_congr (heads k)).mpr holds.marked
    own := (heads k) ▸ holds.own
    first := fun second => (marked_congr (heads 0)).not.mpr (holds.first second)
    counted := holds.counted.append room small real
    used := by simp
  }

-----------------------------------------------------------------------------------------
-- A sector being filled
-----------------------------------------------------------------------------------------

/-- Sector `k` was erased and has taken the values `vs`, but has no head yet. -/
structure Fresh (b : Build) (k : Fin 2) (vs : List Nat) (m : Mem) : Prop where
  head : m.BlankOn (moduleSector b frameModule k).base ((moduleSector b frameModule k).base + 4)
  counted : Counted b k vs m

theorem Fresh.unmarked (fresh : Fresh b k vs m) : ¬Marked b frameModule m k :=
  not_marked_of_blank fresh.head

/-- Erasing a sector of the module. -/
theorem erase_frameSector (b : Build) (k : Fin 2) (m : Mem) (x : Nat)
    : m.erase flashSectorSize (moduleSector b frameModule k).base x
      = if (moduleSector b frameModule k).base ≤ x ∧ x < (moduleSector b frameModule k).limit
        then blankByte else m x :=
  Mem.erase_aligned m (by decide) (moduleSector b frameModule k).base_aligned x

theorem Fresh.erase (b : Build) (k : Fin 2) (m : Mem)
    : Fresh b k [] (m.erase flashSectorSize (moduleSector b frameModule k).base) := by
  have limit := @frameSector_limit b k
  refine ⟨?_, Counted.empty ?_⟩
  · intro x low high
    rw [erase_frameSector, if_pos (by omega)]
  · intro x low high
    rw [erase_frameSector, if_pos (by omega)]

/-- A sector being filled does not mind changes elsewhere. -/
theorem Fresh.congr (fresh : Fresh b k vs m)
    (same : ∀ x, (moduleSector b frameModule k).base ≤ x
      → x < (moduleSector b frameModule k).limit → m' x = m x)
    : Fresh b k vs m' := by
  have limit := @frameSector_limit b k
  refine ⟨?_, fresh.counted.congr (fun x low high => same x (by omega) high)⟩
  intro x low high
  rw [same x low (by omega)]
  exact fresh.head x low high

theorem Fresh.append (fresh : Fresh b k vs m) (room : vs.length < 1023) {v : Nat}
    (small : v < u32Mod) (real : v ≠ frameCountIdle)
    : Fresh b k (vs ++ [v]) (m.program (frameAddr b k vs.length) (bytes32 v)) := by
  refine ⟨?_, fresh.counted.append room small real⟩
  intro x low high
  rw [Mem.program_outside (Or.inl (by simp only [frameAddr]; omega))]
  exact fresh.head x low high

/-- A value written to a sector lies inside it. -/
theorem frameAddr_outside (k : Fin 2) {i x v : Nat} (inside : i < 1023)
    (outside : x < (moduleSector b frameModule k).base
      ∨ (moduleSector b frameModule k).limit ≤ x)
    : m.program (frameAddr b k i) (bytes32 v) x = m x := by
  have limit := @frameSector_limit b k
  apply Mem.program_outside
  simp only [frameAddr, bytes32_length]
  omega

/-- The head of a filled sector puts it in operation, if it is not behind another one. -/
theorem Fresh.valid (fresh : Fresh b k vs m) (used : vs ≠ [])
    (first : k ≠ 0 → ¬Marked b frameModule m 0)
    : Holds b k vs
        (m.program (moduleSector b frameModule k).base (headBytes frameModule nvSectorValid k)) := by
  obtain ⟨marked, own⟩ := marked_of_valid fresh.head
  exact {
    marked
    own
    first := fun second => by
      rw [marked_congr (head_other second rfl)]
      exact first second
    counted := fresh.counted.congr (fun _ low high => head_apart k k rfl low high)
    used
  }

end State

-----------------------------------------------------------------------------------------
-- One save
-----------------------------------------------------------------------------------------

/-- Every command counts: a save is only cut, it loses nothing. -/
abbrev everyCmd : Cmd → Prop := fun _ => True

/-- A restart finds the value being saved, or what it found before. -/
def Saving (A : Option Nat → Prop) (v : Nat) : Option Nat → Prop := fun r => r = some v ∨ A r

/-- The three ways a save comes to its place: the first of the module, behind the values of
the selected sector, or in the other sector, which has taken over the last value.
-/
def Poised (b : Build) (A : Option Nat → Prop) (oldSect : Fin 2) (place : FramePlace) (m : Mem)
    : Prop :=
  ((∀ k, ¬Marked b frameModule m k) ∧ A none ∧ Fresh b oldSect [] m ∧ oldSect.val = 0
      ∧ place = { opSect := oldSect, wAddr := frameAddr b oldSect 0, sectorUpdate := false })
    ∨ (∃ vs, Holds b oldSect vs m ∧ A vs.getLast? ∧ vs.length < 1023
      ∧ place
        = { opSect := oldSect, wAddr := frameAddr b oldSect vs.length, sectorUpdate := false })
    ∨ ∃ vs last, Holds b oldSect vs m ∧ A vs.getLast? ∧ Fresh b (otherSect oldSect) [last] m
      ∧ place
        = {
            opSect := otherSect oldSect
            wAddr := frameAddr b (otherSect oldSect) 1
            sectorUpdate := true
          }

section Save

variable {env : Env} {b : Build} {k : Fin 2} {vs : List Nat} {d : Dev} {v last : Nat}
  {A : Option Nat → Prop}

theorem framecountPayloadStart_eq (b : Build) (k : Fin 2)
    : framecountPayloadStart b k = frameAddr b k 0 :=
  framePayload_word (Nat.lt_trans k.isLt (by decide))

theorem Holds.last_mem (holds : Holds b k vs d.mem) (found : vs.getLast? = some last)
    : last < u32Mod ∧ last ≠ frameCountIdle := by
  have member := List.mem_of_getLast? found
  refine ⟨?_, holds.counted.real last member⟩
  obtain ⟨i, inside, rfl⟩ := List.getElem_of_mem member
  rw [← holds.counted.word i inside]
  exact Mem.le32_lt _ _

/-- The first save of a module, from its place on. -/
theorem firstSave_meets (small : v < u32Mod) (real : v ≠ frameCountIdle)
    (unmarked : ∀ k, ¬Marked b frameModule d.mem k) (nothing : A none) (fresh : Fresh b 0 [] d.mem)
    : Prog.Meets everyCmd env (Restarts b (Saving A v))
        (flashWrite (frameAddr b 0 0) (bytes32 v) >>= fun _ =>
          nvNwkFrameCountSaveToFlash.markSectors b (0 : Fin 2)
            { opSect := 0, wAddr := frameAddr b 0 0, sectorUpdate := false })
        d (fun _ d' => Restarts b (· = some v) d'.mem) := by
  have filled := fresh.append (by simp) small real
  have still (j : Fin 2)
      : ¬Marked b frameModule (d.mem.program (frameAddr b 0 0) (bytes32 v)) j := by
    by_cases zero : j = 0
    · subst j
      exact filled.unmarked
    · have apart := @moduleSector_apart b frameModule j 0 zero
      have limit := @frameSector_limit b j
      rw [marked_congr (sectHead_congr (fun x low high =>
        frameAddr_outside 0 (by omega) (by omega)))]
      exact unmarked j
  have holds := filled.valid (by simp) (fun second => absurd rfl second)
  apply Prog.Meets.bind (flashWrite_essential trivial (Or.inl ⟨unmarked, Or.inr nothing⟩)
    (Or.inl ⟨still, Or.inr nothing⟩))
  rintro _ d' ⟨-, memory⟩
  have start : frameAddr b 0 0 = framecountPayloadStart b 0 :=
    (framecountPayloadStart_eq b 0).symm
  simp only [nvNwkFrameCountSaveToFlash.markSectors]
  rw [if_pos (Or.inr start)]
  apply Prog.Meets.bind (flashWrite_essential trivial
    (memory ▸ Or.inl ⟨still, Or.inr nothing⟩)
    (memory ▸ Or.inr ⟨0, [v], holds, Or.inl rfl⟩))
  rintro _ d'' ⟨-, marked⟩
  have done : Holds b 0 [v] d''.mem := by
    rw [marked, memory]
    exact holds
  exact .silent (Or.inr ⟨0, [v], done, Or.inl rfl⟩) rfl (Or.inr ⟨0, [v], done, rfl⟩)

/-- A save behind the values of the selected sector. -/
theorem appendSave_meets (small : v < u32Mod) (real : v ≠ frameCountIdle)
    (holds : Holds b k vs d.mem) (found : A vs.getLast?) (room : vs.length < 1023)
    : Prog.Meets everyCmd env (Restarts b (Saving A v))
        (flashWrite (frameAddr b k vs.length) (bytes32 v) >>= fun _ =>
          nvNwkFrameCountSaveToFlash.markSectors b k
            { opSect := k, wAddr := frameAddr b k vs.length, sectorUpdate := false })
        d (fun _ d' => Restarts b (· = some v) d'.mem) := by
  have longer := holds.append room small real
  have latest : (vs ++ [v]).getLast? = some v := List.getLast?_concat
  apply Prog.Meets.bind (flashWrite_essential trivial (Or.inr ⟨k, vs, holds, Or.inr found⟩)
    (Or.inr ⟨k, _, longer, Or.inl latest⟩))
  rintro _ d' ⟨-, memory⟩
  have behind : frameAddr b k vs.length ≠ framecountPayloadStart b k := by
    have positive := List.length_pos_of_ne_nil holds.used
    rw [framecountPayloadStart_eq]
    simp only [frameAddr]
    omega
  have quiet : nvNwkFrameCountSaveToFlash.markSectors b k
      { opSect := k, wAddr := frameAddr b k vs.length, sectorUpdate := false } = pure () := by
    simp [nvNwkFrameCountSaveToFlash.markSectors, behind]
  rw [quiet]
  exact .silent (memory ▸ Or.inr ⟨k, _, longer, Or.inl latest⟩) rfl
    (memory ▸ Or.inr ⟨k, _, longer, latest⟩)

/-- A save in the other sector. Between its two flags both sectors are marked, and the first
one decides what a restart finds.
-/
theorem rollSave_meets (small : v < u32Mod) (real : v ≠ frameCountIdle)
    (holds : Holds b k vs d.mem) (found : A vs.getLast?)
    (fresh : Fresh b (otherSect k) [last] d.mem)
    : Prog.Meets everyCmd env (Restarts b (Saving A v))
        (flashWrite (frameAddr b (otherSect k) 1) (bytes32 v) >>= fun _ =>
          nvNwkFrameCountSaveToFlash.markSectors b k
            {
              opSect := otherSect k
              wAddr := frameAddr b (otherSect k) 1
              sectorUpdate := true
            })
        d (fun _ d' => Restarts b (· = some v) d'.mem) := by
  have different := otherSect_ne k
  have filled := fresh.append (by simp) small real
  have old : Holds b k vs (d.mem.program (frameAddr b (otherSect k) 1) (bytes32 v)) :=
    holds.spare different (fun x outside => frameAddr_outside _ (by omega) outside)
      filled.unmarked
  apply Prog.Meets.bind (flashWrite_essential trivial (Or.inr ⟨k, vs, holds, Or.inr found⟩)
    (Or.inr ⟨k, vs, old, Or.inr found⟩))
  rintro _ d' ⟨-, memory⟩
  rw [← memory] at old
  have new : Fresh b (otherSect k) [last, v] d'.mem := memory ▸ filled
  obtain ⟨marked, own⟩ := marked_of_valid new.head
  have values : Counted b (otherSect k) [last, v]
      (d'.mem.program (moduleSector b frameModule (otherSect k)).base
        (headBytes frameModule nvSectorValid (otherSect k))) :=
    new.counted.congr (fun _ low high => head_apart _ _ rfl low high)
  -- Both heads are valid now; the sector at the lower address is read.
  have both : Restarts b (Saving A v)
      (d'.mem.program (moduleSector b frameModule (otherSect k)).base
        (headBytes frameModule nvSectorValid (otherSect k))) := by
    by_cases zero : k = 0
    · have head := @head_other b frameModule d'.mem (otherSect k) k different
        (headBytes frameModule nvSectorValid (otherSect k)) rfl
      refine Or.inr ⟨k, vs, ?_, Or.inr found⟩
      exact {
        marked := (marked_congr head).mpr old.marked
        own := head ▸ old.own
        first := fun second => absurd zero second
        counted := old.counted.congr (fun _ low high => head_apart _ _ rfl low high)
        used := old.used
      }
    · have first : otherSect k = 0 := by
        have one : k = 1 := by omega
        subst k
        rfl
      exact Or.inr ⟨otherSect k, [last, v],
        new.valid (by simp) (fun second => absurd first second), Or.inl rfl⟩
  simp only [nvNwkFrameCountSaveToFlash.markSectors, true_or, if_true]
  apply Prog.Meets.bind (flashWrite_essential trivial (Or.inr ⟨k, vs, old, Or.inr found⟩) both)
  rintro _ d'' ⟨-, flagged⟩
  have flags : d''.mem = d'.mem.program (moduleSector b frameModule (otherSect k)).base
      (headBytes frameModule nvSectorValid (otherSect k)) := flagged
  rw [← flags] at marked own values both
  have head := @head_other b frameModule d''.mem k (otherSect k) different.symm
    (headBytes frameModule nvSectorInvalid (otherSect k)) rfl
  have done : Holds b (otherSect k) [last, v]
      (d''.mem.program (moduleSector b frameModule k).base
        (headBytes frameModule nvSectorInvalid (otherSect k))) :=
    {
      marked := (marked_congr head).mpr marked
      own := head ▸ own
      first := fun second => by
        have zero : k = 0 := by
          have cases : k = 0 ∨ k = 1 := by omega
          rcases cases with rfl | rfl
          · rfl
          · exact absurd rfl second
        subst k
        exact not_marked_of_invalid _
      counted := values.congr (fun _ low high => head_apart _ _ rfl low high)
      used := by simp
    }
  refine (flashWrite_essential trivial both (Or.inr ⟨_, _, done, Or.inl rfl⟩)).mono
    (fun _ same => same) ?_
  rintro _ final ⟨-, finished⟩
  exact finished ▸ Or.inr ⟨_, _, done, rfl⟩

theorem Poised.save_meets {place : FramePlace} (small : v < u32Mod) (real : v ≠ frameCountIdle)
    (poised : Poised b A k place d.mem)
    : Prog.Meets everyCmd env (Restarts b (Saving A v))
        (flashWrite place.wAddr (bytes32 v) >>= fun _ =>
          nvNwkFrameCountSaveToFlash.markSectors b k place)
        d (fun _ d' => Restarts b (· = some v) d'.mem) := by
  rcases poised with ⟨unmarked, nothing, fresh, zero, rfl⟩ | ⟨vs, holds, found, room, rfl⟩
    | ⟨vs, last, holds, found, fresh, rfl⟩
  · obtain rfl : k = 0 := Fin.ext zero
    exact firstSave_meets small real unmarked nothing fresh
  · exact appendSave_meets small real holds found room
  · exact rollSave_meets small real holds found fresh

/-- Without a sector marked valid the module is erased. -/
theorem eraseModule_meets (unmarked : ∀ k, ¬Marked b frameModule d.mem k) (nothing : A none)
    : Prog.Meets everyCmd env (Restarts b (Saving A v))
        (nvNwkFrameCountSaveToFlash.opSect b none) d
        (fun oldSect d' => oldSect = 0 ∧ (∀ k, ¬Marked b frameModule d'.mem k)
          ∧ Fresh b 0 [] d'.mem) := by
  have erased (m : Mem) (absent : ∀ k, ¬Marked b frameModule m k) (j : Fin 2)
      : ∀ k, ¬Marked b frameModule (m.erase flashSectorSize (moduleSector b frameModule j).base) k := by
    intro k
    by_cases here : k = j
    · subst k
      exact (Fresh.erase b j m).unmarked
    · have apart := @moduleSector_apart b frameModule k j here
      have limit := @frameSector_limit b k
      rw [marked_congr (sectHead_congr (fun x low high => by
        rw [erase_frameSector, if_neg (by omega)]))]
      exact absent k
  apply Prog.Meets.bind (flashErase_essential trivial (Or.inl ⟨unmarked, Or.inr nothing⟩)
    (Or.inl ⟨erased _ unmarked 0, Or.inr nothing⟩))
  rintro _ d' ⟨-, memory⟩
  have absent : ∀ k, ¬Marked b frameModule d'.mem k := memory ▸ erased _ unmarked 0
  have fresh : Fresh b 0 [] d'.mem := memory ▸ Fresh.erase b 0 _
  apply Prog.Meets.bind (flashErase_essential trivial (Or.inl ⟨absent, Or.inr nothing⟩)
    (Or.inl ⟨erased _ absent 1, Or.inr nothing⟩))
  rintro _ d'' ⟨-, memory'⟩
  have absent' : ∀ k, ¬Marked b frameModule d''.mem k := memory' ▸ erased _ absent 1
  have apart := @moduleSector_apart b frameModule 0 1 (by decide)
  have limit := @frameSector_limit b 0
  have fresh' : Fresh b 0 [] d''.mem := by
    apply fresh.congr
    intro x low high
    have byte := erase_frameSector b 1 d'.mem x
    rw [if_neg (by omega)] at byte
    exact memory' ▸ byte
  exact .silent (Or.inl ⟨absent', Or.inr nothing⟩) rfl ⟨rfl, absent', fresh'⟩

/-- The search for the place, from the selected sector. -/
theorem nextPlace_meets (holds : Holds b k vs d.mem) (found : A vs.getLast?)
    : Prog.Meets everyCmd env (Restarts b (Saving A v))
        (nvNwkFrameCountSaveToFlash.place b k) d
        (fun place d' => Poised b A k place d'.mem) := by
  have start : Restarts b (Saving A v) d.mem := Or.inr ⟨k, vs, holds, Or.inr found⟩
  have latest := List.getLast?_eq_some_getLast holds.used
  have limit : (moduleSector b frameModule k).base + 4096
      = moduleSectEnd b nvModuleNwkFrameCount k := @moduleSector_limit b frameModule k
  have count := holds.counted.count
  unfold nvNwkFrameCountSaveToFlash.place
  apply Prog.Meets.read
  rw [holds.counted.search, latest]
  dsimp only
  by_cases full : frameAddr b k vs.length = moduleSectEnd b nvModuleNwkFrameCount k
  · rw [if_pos full]
    have different := otherSect_ne k
    obtain ⟨small, real⟩ := holds.last_mem latest
    have fresh := Fresh.erase b (otherSect k) d.mem
    have kept := holds.spare different
      (fun x outside => by rw [erase_frameSector, if_neg (by omega)]) fresh.unmarked
    rw [otherSect_val]
    apply Prog.Meets.bind (flashErase_essential trivial start
      (Or.inr ⟨k, vs, kept, Or.inr found⟩))
    rintro _ d' ⟨-, memory⟩
    have fresh' : Fresh b (otherSect k) [] d'.mem := memory ▸ fresh
    have kept' : Holds b k vs d'.mem := memory ▸ kept
    have filled := fresh'.append (by simp) small real
    have still := kept'.spare different
      (fun x outside => frameAddr_outside _ (by simp) outside) filled.unmarked
    rw [framecountPayloadStart_eq]
    apply Prog.Meets.bind (flashWrite_essential trivial (Or.inr ⟨k, vs, kept', Or.inr found⟩)
      (Or.inr ⟨k, vs, still, Or.inr found⟩))
    rintro _ d'' ⟨-, memory'⟩
    have still' : Holds b k vs d''.mem := memory' ▸ still
    have filled' : Fresh b (otherSect k) [vs.getLast holds.used] d''.mem := memory' ▸ filled
    exact .silent (Or.inr ⟨k, vs, still', Or.inr found⟩) rfl
      (Or.inr (Or.inr ⟨vs, _, still', found, filled', rfl⟩))
  · rw [if_neg full]
    refine .silent start rfl (Or.inr (Or.inl ⟨vs, holds, found, ?_, rfl⟩))
    simp only [frameAddr] at full
    omega

theorem Poised.first (unmarked : ∀ k, ¬Marked b frameModule d.mem k) (nothing : A none)
    (fresh : Fresh b 0 [] d.mem)
    : Prog.Meets everyCmd env (Restarts b (Saving A v))
        (nvNwkFrameCountSaveToFlash.place b (0 : Fin 2)) d
        (fun place d' => Poised b A 0 place d'.mem) := by
  unfold nvNwkFrameCountSaveToFlash.place
  apply Prog.Meets.read
  rw [fresh.counted.search]
  exact .silent (Or.inl ⟨unmarked, Or.inr nothing⟩) rfl
    (Or.inl ⟨unmarked, nothing, fresh, rfl, rfl⟩)

/-- The save from its place on, whatever status it reports. -/
theorem finishSave_meets (ret : NvSts) (small : v < u32Mod) (real : v ≠ frameCountIdle)
    (poised : Prog.Meets everyCmd env (Restarts b (Saving A v))
      (nvNwkFrameCountSaveToFlash.place b k) d (fun place d' => Poised b A k place d'.mem))
    : Prog.Meets everyCmd env (Restarts b (Saving A v))
        (nvNwkFrameCountSaveToFlash.place b k >>= fun place =>
          flashWrite place.wAddr (bytes32 v) >>= fun _ =>
            nvNwkFrameCountSaveToFlash.markSectors b k place >>= fun _ =>
              flashLock >>= fun _ => pure ret)
        d (fun _ d' => Restarts b (· = some v) d'.mem) := by
  apply Prog.Meets.bind poised
  intro place d' ready
  rw [← Prog.bind_assoc]
  apply Prog.Meets.bind (ready.save_meets small real)
  intro _ d'' saved
  have cut : Restarts b (Saving A v) d''.mem := saved.mono (fun _ same => Or.inl same)
  apply Prog.Meets.skip (trace_flashLock env d'')
  rw [run_flashLock]
  exact .silent cut rfl saved

/-- A save, cut anywhere, leaves the old answer or the new one, and a complete save leaves
the new one.
-/
theorem nvNwkFrameCountSaveToFlash_meets (small : v < u32Mod) (real : v ≠ frameCountIdle)
    (restarts : Restarts b A d.mem)
    : Prog.Meets everyCmd env (Restarts b (Saving A v)) (nvNwkFrameCountSaveToFlash b v) d
        (fun _ d' => Restarts b (· = some v) d'.mem) := by
  unfold nvNwkFrameCountSaveToFlash
  apply Prog.Meets.skip (trace_flashUnlock env d)
  rw [run_flashUnlock]
  apply Prog.Meets.read
  rw [lockTo_mem]
  rcases restarts with ⟨unmarked, nothing⟩ | ⟨k, vs, holds, found⟩
  · rw [unmarked_sectorRead unmarked]
    apply Prog.Meets.bind (@eraseModule_meets env b (lockTo env false d) v A unmarked nothing)
    rintro _ d' ⟨rfl, absent, fresh⟩
    exact @finishSave_meets env b 0 d' v A .itemNotFound small real
      (Poised.first absent nothing fresh)
  · rw [holds.sectorRead]
    apply Prog.Meets.skip rfl
    simp only [nvNwkFrameCountSaveToFlash.opSect, Prog.run_pure, holds.own]
    exact finishSave_meets _ small real
      (@nextPlace_meets env b k vs (lockTo env false d) v A holds found)

end Save

-----------------------------------------------------------------------------------------
-- Runs
-----------------------------------------------------------------------------------------

/-- A call of `nv_nwkFrameCountSaveToFlash`, with the number of commands after which the
power is cut, if it is.
-/
structure FrameSave where
  value : Nat
  cut : Option Nat := none
  small : value < u32Mod := by decide
  real : value ≠ frameCountIdle := by decide

/-- The commands of the save, as if the power stayed on. -/
def FrameSave.steps (b : Build) (c : FrameSave) (m : Mem) : List Step :=
  Prog.trace {} (nvNwkFrameCountSaveToFlash b c.value) (Dev.ready m)

/-- The array that the save leaves behind. -/
def FrameSave.after (b : Build) (m : Mem) (c : FrameSave) : Mem :=
  match c.cut with
  | none => replay m (c.steps b m)
  | some count => replay m ((c.steps b m).take count)

/-- The array after a run of saves. -/
def frameRun (b : Build) (m : Mem) (saves : List FrameSave) : Mem :=
  saves.foldl (FrameSave.after b) m

/-- What a restart may find: a value that was saved, with nothing but cut saves after it, or
nothing if every save was cut.
-/
def Recent (saves : List FrameSave) : Option Nat → Prop
  | none => ∀ c ∈ saves, c.cut ≠ none
  | some v => ∃ before c after, saves = before ++ c :: after ∧ c.value = v
      ∧ ∀ later ∈ after, later.cut ≠ none

section Runs

variable {b : Build} {m : Mem} {saves : List FrameSave} {c : FrameSave} {r : Option Nat}

theorem Recent.saved (saves : List FrameSave) (c : FrameSave) : Recent (saves ++ [c]) (some c.value) :=
  ⟨saves, c, [], rfl, rfl, fun _ member => absurd member List.not_mem_nil⟩

theorem Recent.cut (recent : Recent saves r) (cut : c.cut ≠ none) : Recent (saves ++ [c]) r := by
  cases r with
  | none =>
      intro other member
      rcases List.mem_append.mp member with old | new
      · exact recent other old
      · rw [List.mem_singleton.mp new]
        exact cut
  | some v =>
      obtain ⟨before, found, after, rfl, value, later⟩ := recent
      refine ⟨before, found, after ++ [c], by simp, value, ?_⟩
      intro other member
      rcases List.mem_append.mp member with old | new
      · exact later other old
      · rw [List.mem_singleton.mp new]
        exact cut

/-- One save keeps the answer recent. -/
theorem Restarts.step (restarts : Restarts b (Recent saves) m)
    : Restarts b (Recent (saves ++ [c])) (c.after b m) := by
  have steady : ({} : Env).Steady := ⟨fun _ => rfl, rfl⟩
  obtain ⟨cuts, saved⟩ := (@nvNwkFrameCountSaveToFlash_meets {} b (Dev.ready m) c.value _
    c.small c.real restarts).steady steady
  unfold FrameSave.after
  cases cut : c.cut with
  | none =>
      rw [Prog.run_mem] at saved
      change Restarts b _ (replay m (c.steps b m)) at saved
      apply saved.mono
      rintro r rfl
      exact Recent.saved saves c
  | some count =>
      apply (cuts count).mono
      rintro r (rfl | recent)
      · exact Recent.saved saves c
      · exact recent.cut (by simp [cut])

/-- So does a run, by induction from its last save. -/
theorem Restarts.run (restarts : Restarts b (Recent []) m) (saves : List FrameSave)
    : Restarts b (Recent saves) (frameRun b m saves) := by
  induction saves using List.reverseRecOn with
  | nil => exact restarts
  | append_singleton saves c ih =>
      rw [frameRun, List.foldl_append]
      exact ih.step

/-- An erased module has nothing to find. -/
theorem Restarts.erased (blank : m.BlankOn (modulesStartAddr b frameModule) (moduleEnd b frameModule))
    : Restarts b (Recent []) m := by
  refine Or.inl ⟨fun k => not_marked_of_blank ?_, fun c member => absurd member List.not_mem_nil⟩
  intro x low high
  obtain ⟨first, last⟩ := moduleSector_within b frameModule k
  have limit := @frameSector_limit b k
  exact blank x (by omega) (by omega)

end Runs

/-- After any run of saves, each of them cut anywhere, a restart finds the value of a save
that only cut saves follow; it finds nothing only if every save was cut.
-/
theorem nvNwkFrameCountFromFlash_recent (b : Build) {m : Mem}
    (blank : m.BlankOn (modulesStartAddr b frameModule) (moduleEnd b frameModule))
    (saves : List FrameSave)
    : (nvNwkFrameCountFromFlash b (frameRun b m saves) = none → ∀ c ∈ saves, c.cut ≠ none)
      ∧ ∀ v, nvNwkFrameCountFromFlash b (frameRun b m saves) = some v
        → ∃ before c after, saves = before ++ c :: after ∧ c.value = v
          ∧ ∀ later ∈ after, later.cut ≠ none := by
  have recent := ((Restarts.erased blank).run saves).read
  refine ⟨fun nothing => ?_, fun v found => ?_⟩
  · rw [nothing] at recent
    exact recent
  · rw [found] at recent
    exact recent

/-- A complete save and a cut one. -/
theorem nvNwkFrameCountFromFlash_recent_cut
    : nvNwkFrameCountFromFlash ⟨true, false⟩
        (frameRun ⟨true, false⟩ Mem.blank [{ value := 7 }, { value := 8, cut := some 0 }])
      ≠ none := by
  intro nothing
  have cut := (nvNwkFrameCountFromFlash_recent ⟨true, false⟩ (fun _ _ _ => rfl) _).1 nothing
  exact cut { value := 7 } (by simp) rfl

end TelinkSdk
