import TelinkSdk.Drivers.NvSearch

/-! A module of the NV store: two sectors, one of them in operation.
`Store` is the invariant of a module. It covers the states that power cuts and skipped
writes can leave, so it does not ask for a sector to be marked valid.
-/

namespace TelinkSdk

open Nor

-----------------------------------------------------------------------------------------
-- The sectors of a module
-----------------------------------------------------------------------------------------

theorem nvSectorSize_cases (id : Nat)
    : (nvSectorSize id = 16384 ∧ moduleInfoSize id = 1024 ∧ moduleIdxNum id = 127)
      ∨ (nvSectorSize id = 4096 ∧ moduleInfoSize id = 512 ∧ moduleIdxNum id = 63) := by
  by_cases user : id = nvModuleUserInfo1
  · subst id
    exact Or.inl ⟨rfl, rfl, rfl⟩
  · have info : moduleInfoSize id = 512 := by simp [moduleInfoSize, user, flashPageSize]
    refine Or.inr ⟨by simp [nvSectorSize, user, flashSectorSize], info, ?_⟩
    simp [moduleIdxNum, moduleIdxSize, info, sizeofSectInfo, sizeofInfoIdx]

theorem nvBaseAddress_bounds (b : Build)
    : nvBaseAddress b % 4096 = 0 ∧ nvBaseAddress b ≤ 942080 := by
  obtain ⟨cap, boot⟩ := b
  cases cap <;> cases boot <;> decide

theorem modulesStartAddr_eq (b : Build) {id : Nat} (small : id < nvMaxModuls)
    : modulesStartAddr b id = nvBaseAddress b + 8192 * id := by
  unfold modulesStartAddr
  simp only [nvMaxModuls, flashSectorSize] at *
  split
  · omega
  · rw [if_pos (by omega)]
    omega

/-- Sector `k` of a module, with the sizes the macros give it. -/
def moduleSector (b : Build) (id : Fin nvMaxModuls) (k : Fin 2) : Sector where
  base := moduleSectStart b id k
  info := moduleInfoSize id
  size := nvSectorSize id
  slots := moduleIdxNum id
  slots_pos := by rcases nvSectorSize_cases id with h | h <;> omega
  slots_fit := by rcases nvSectorSize_cases id with h | h <;> omega
  info_fit := by rcases nvSectorSize_cases id with h | h <;> omega
  info_aligned := by rcases nvSectorSize_cases id with h | h <;> omega
  base_aligned := by
    obtain ⟨aligned, _⟩ := nvBaseAddress_bounds b
    rw [moduleSectStart, modulesStartAddr_eq b id.isLt]
    rcases nvSectorSize_cases id with ⟨size, -⟩ | ⟨size, -⟩ <;> rw [size] <;> omega
  size_aligned := by rcases nvSectorSize_cases id with h | h <;> omega
  size_small := by rcases nvSectorSize_cases id with h | h <;> omega
  bounded := by
    obtain ⟨_, bound⟩ := nvBaseAddress_bounds b
    have idSmall := id.isLt
    have sectSmall := k.isLt
    rw [moduleSectStart, modulesStartAddr_eq b id.isLt]
    simp only [nvMaxModuls] at idSmall
    rcases nvSectorSize_cases id with ⟨size, -⟩ | ⟨size, -⟩ <;> rw [size] <;> omega

section Module

variable {b : Build} {id : Fin nvMaxModuls} {k : Fin 2}

theorem moduleSector_base : (moduleSector b id k).base = moduleSectStart b id k := rfl

theorem moduleSector_ctx : (moduleSector b id k).ctx = moduleContextStart b id k := rfl

theorem moduleSector_slots : (moduleSector b id k).slots = moduleIdxNum id := rfl

theorem moduleSector_idxAddr (i : Nat)
    : (moduleSector b id k).idxAddr i = moduleIdxStart b id k + i * sizeofInfoIdx := rfl

theorem moduleSector_limit : (moduleSector b id k).limit = moduleSectEnd b id k := by
  simp only [Sector.limit, moduleSector, moduleSectStart, moduleSectEnd, Nat.add_mul]
  omega

/-- The two sectors of a module have the same shape, -/
theorem moduleSector_shape (j k : Fin 2)
    : (moduleSector b id j).limit - (moduleSector b id j).ctx
      = (moduleSector b id k).limit - (moduleSector b id k).ctx := by
  simp only [Sector.limit, Sector.ctx, moduleSector]
  omega

/-- and lie next to each other. -/
theorem moduleSector_apart {j k : Fin 2} (different : j ≠ k)
    : (moduleSector b id j).limit ≤ (moduleSector b id k).base
      ∨ (moduleSector b id k).limit ≤ (moduleSector b id j).base := by
  have first := j.isLt
  have second := k.isLt
  have apart : j.val ≠ k.val := fun same => different (Fin.ext same)
  simp only [Sector.limit, moduleSector, moduleSectStart]
  have order : (j.val = 0 ∧ k.val = 1) ∨ (j.val = 1 ∧ k.val = 0) := by omega
  rcases order with ⟨zero, one⟩ | ⟨one, zero⟩ <;> rw [zero, one] <;> omega

end Module

-----------------------------------------------------------------------------------------
-- Sector heads
-----------------------------------------------------------------------------------------

/-- The head of sector `k`. -/
def sectHead (b : Build) (id : Fin nvMaxModuls) (m : Mem) (k : Fin 2) : SectInfo :=
  SectInfo.load m (moduleSector b id k).base

/-- Sector `k` is marked valid for the module. -/
def Marked (b : Build) (id : Fin nvMaxModuls) (m : Mem) (k : Fin 2) : Prop :=
  (sectHead b id m k).usedFlag = nvSectorValid ∧ (sectHead b id m k).idName.toNat = id

instance (b : Build) (id : Fin nvMaxModuls) (m : Mem) (k : Fin 2)
    : Decidable (Marked b id m k) :=
  inferInstanceAs (Decidable (_ ∧ _))

theorem SectInfo.load_congr {m m' : Mem} {addr : Nat}
    (same : ∀ i < 4, m' (addr + i) = m (addr + i))
    : SectInfo.load m' addr = SectInfo.load m addr := by
  have flag := Mem.le16_congr (fun i inside => same i (by omega : i < 4))
  simp only [SectInfo.load, flag, same 2 (by omega), same 3 (by omega)]

/-- A head is read back once its four bytes are in place. -/
theorem SectInfo.load_of_bytes {m : Mem} {addr : Nat} {s : SectInfo} (flag : s.usedFlag < u16Mod)
    (stored : ∀ i < 4, m (addr + i) = s.bytes.getD i blankByte)
    : SectInfo.load m addr = s := by
  have flagRead : m.le16 addr = s.usedFlag := by
    apply Mem.le16_of_bytes flag
    intro i inside
    rw [stored i (by omega)]
    have cases : i = 0 ∨ i = 1 := by omega
    rcases cases with rfl | rfl <;> rfl
  have nameRead : m (addr + 2) = s.idName := stored 2 (by omega)
  have sectRead : m (addr + 3) = s.opSect := stored 3 (by omega)
  simp only [SectInfo.load, flagRead, nameRead, sectRead]

/-- The search for a valid sector looks at sector 0 first. -/
theorem nvSectorRead_eq (b : Build) (id : Fin nvMaxModuls) (m : Mem)
    : nvSectorRead b m id moduleSectorNum
      = if Marked b id m 0 then some (sectHead b id m 0)
        else if Marked b id m 1 then some (sectHead b id m 1)
        else none := by
  have first : modulesStartAddr b id + 0 * nvSectorSize id = (moduleSector b id 0).base := rfl
  have second : modulesStartAddr b id + 1 * nvSectorSize id = (moduleSector b id 1).base := rfl
  have range : List.range moduleSectorNum = [0, 1] := rfl
  rw [nvSectorRead, range]
  simp only [List.findSome?_cons, List.findSome?_nil, first, second]
  by_cases zero : Marked b id m 0
  · have flags := zero
    simp only [Marked, sectHead] at flags
    simp [zero, flags, sectHead]
  · have flags := zero
    simp only [Marked, sectHead] at flags
    by_cases one : Marked b id m 1
    · have oneFlags := one
      simp only [Marked, sectHead] at oneFlags
      simp [zero, flags, one, oneFlags, sectHead]
    · have oneFlags := one
      simp only [Marked, sectHead] at oneFlags
      simp [zero, flags, one, oneFlags]

/-- Every valid head names its own sector. -/
def HeadsOwn (b : Build) (id : Fin nvMaxModuls) (m : Mem) : Prop :=
  ∀ j, Marked b id m j → (sectHead b id m j).opSect.toNat = j

/-- The sector in operation: the first one marked valid, else sector 0. -/
def InOperation (b : Build) (id : Fin nvMaxModuls) (m : Mem) (k : Fin 2) : Prop :=
  if k = 0 then Marked b id m 0 ∨ ¬Marked b id m 1
  else ¬Marked b id m 0 ∧ Marked b id m 1

theorem nvOpSect_eq {b : Build} {id : Fin nvMaxModuls} {m : Mem} {k : Fin 2}
    (own : HeadsOwn b id m) (operation : InOperation b id m k)
    : nvOpSect b m id = k := by
  rw [nvOpSect, nvSectorRead_eq]
  by_cases zero : k = 0
  · subst k
    by_cases marked : Marked b id m 0
    · simpa [marked] using own 0 marked
    · have other : ¬Marked b id m 1 := by
        simpa [InOperation, marked] using operation
      simp [marked, other]
  · have one : k = 1 := by omega
    subst k
    simp only [InOperation, Fin.one_eq_zero_iff, Nat.succ_ne_self, if_false] at operation
    simpa [operation.1, operation.2] using own 1 operation.2

/-- The bytes of a head that a flag write puts in place. -/
def headBytes (id : Fin nvMaxModuls) (usedFlag : Nat) (opSect : Fin 2) : List UInt8 :=
  SectInfo.bytes { usedFlag, idName := .ofNat id, opSect := .ofNat opSect }

@[simp]
theorem headBytes_length (id : Fin nvMaxModuls) (usedFlag : Nat) (opSect : Fin 2)
    : (headBytes id usedFlag opSect).length = 4 := rfl

/-- Both flag bytes of a marked head are those of the valid flag. -/
theorem Marked.flag {b : Build} {id : Fin nvMaxModuls} {m : Mem} {k : Fin 2}
    (marked : Marked b id m k)
    : m (moduleSector b id k).base = 0x5A ∧ m ((moduleSector b id k).base + 1) = 0x5A := by
  have low := (m (moduleSector b id k).base).toNat_lt
  have high := (m ((moduleSector b id k).base + 1)).toNat_lt
  have flag := marked.1
  simp only [sectHead, SectInfo.load, Mem.le16, nvSectorValid] at flag
  constructor <;> apply UInt8.toNat_inj.mp <;> simp <;> omega

theorem not_marked_of_blank {b : Build} {id : Fin nvMaxModuls} {m : Mem} {k : Fin 2}
    (blank : m.BlankOn (moduleSector b id k).base ((moduleSector b id k).base + 4))
    : ¬Marked b id m k := by
  intro marked
  have low := blank (moduleSector b id k).base (by omega) (by omega)
  rw [marked.flag.1] at low
  exact absurd low (by decide)

/-- Marks depend only on the four bytes of the head. -/
theorem sectHead_congr {b : Build} {id : Fin nvMaxModuls} {m m' : Mem} {k : Fin 2}
    (same : ∀ x, (moduleSector b id k).base ≤ x → x < (moduleSector b id k).base + 4
      → m' x = m x)
    : sectHead b id m' k = sectHead b id m k :=
  SectInfo.load_congr (fun i inside => same _ (by omega) (by omega))

theorem marked_congr {b : Build} {id : Fin nvMaxModuls} {m m' : Mem} {k : Fin 2}
    (same : sectHead b id m' k = sectHead b id m k)
    : Marked b id m' k ↔ Marked b id m k := by
  simp only [Marked, same]

/-- No head is marked after the invalid flag was written over it: the valid flag has bits
that the invalid one lacks.
-/
theorem not_marked_of_invalid {b : Build} {id : Fin nvMaxModuls} {m : Mem} {k : Fin 2}
    (opSect : Fin 2)
    : ¬Marked b id
        (m.program (moduleSector b id k).base (headBytes id nvSectorInvalid opSect)) k := by
  intro marked
  have flag := marked.flag.1
  have byte := @Mem.program_inside m (moduleSector b id k).base 0
    (headBytes id nvSectorInvalid opSect) (by simp)
  rw [Nat.add_zero, flag] at byte
  have masked : (0x5A : UInt8) &&& 0x0A
      = m (moduleSector b id k).base &&& ((headBytes id nvSectorInvalid opSect).getD 0 blankByte
        &&& 0x0A) := by
    rw [← UInt8.and_assoc, ← byte]
  have cleared : (headBytes id nvSectorInvalid opSect).getD 0 blankByte &&& 0x0A = 0 := by
    change (UInt8.ofNat nvSectorInvalid) &&& 0x0A = 0
    decide
  rw [cleared, UInt8.and_zero] at masked
  exact absurd masked (by decide)

/-- Writing the valid flag over a blank head marks the sector and names it. -/
theorem marked_of_valid {b : Build} {id : Fin nvMaxModuls} {m : Mem} {k : Fin 2}
    (blank : m.BlankOn (moduleSector b id k).base ((moduleSector b id k).base + 4))
    : Marked b id (m.program (moduleSector b id k).base (headBytes id nvSectorValid k)) k
      ∧ (sectHead b id (m.program (moduleSector b id k).base (headBytes id nvSectorValid k))
          k).opSect.toNat = k := by
  have head : sectHead b id
        (m.program (moduleSector b id k).base (headBytes id nvSectorValid k)) k
      = { usedFlag := nvSectorValid, idName := .ofNat id, opSect := .ofNat k } := by
    apply SectInfo.load_of_bytes (show nvSectorValid < u16Mod by decide)
    intro i inside
    exact Mem.program_blank (by simpa using inside) (blank _ (by omega) (by omega))
  have idSmall := id.isLt
  have sectSmall := k.isLt
  simp only [nvMaxModuls] at idSmall
  simp only [Marked, head, UInt8.toNat_ofNat', true_and]
  omega

-----------------------------------------------------------------------------------------
-- The module invariant
-----------------------------------------------------------------------------------------

/-- The module's area as the macros lay it out. -/
def moduleEnd (b : Build) (id : Nat) : Nat := modulesStartAddr b id + 2 * nvSectorSize id

/-- Sector `k` of the module is in operation and holds the chain `es`. A sector without
entries still has a blank head, so the first item can put it in operation.
-/
structure Store (b : Build) (id : Fin nvMaxModuls) (k : Fin 2) (es : List InfoIdx) (m : Mem)
    : Prop where
  own : HeadsOwn b id m
  operation : InOperation b id m k
  chain : Chain (moduleSector b id k) es m
  fresh : es = [] → m.BlankOn (moduleSector b id k).base ((moduleSector b id k).base + 4)

theorem moduleSector_within (b : Build) (id : Fin nvMaxModuls) (k : Fin 2)
    : modulesStartAddr b id ≤ (moduleSector b id k).base
      ∧ (moduleSector b id k).limit ≤ moduleEnd b id := by
  have sectSmall := k.isLt
  simp only [Sector.limit, moduleSector, moduleSectStart, moduleEnd]
  have cases : k.val = 0 ∨ k.val = 1 := by omega
  rcases cases with zero | one
  · rw [zero]
    omega
  · rw [one]
    omega

/-- An erased module is a store whose sector 0 is empty. -/
theorem Store.erased {b : Build} {id : Fin nvMaxModuls} {m : Mem}
    (blank : m.BlankOn (modulesStartAddr b id) (moduleEnd b id))
    : Store b id 0 [] m := by
  have sector (k : Fin 2)
      : m.BlankOn (moduleSector b id k).base (moduleSector b id k).limit := by
    intro x low high
    obtain ⟨first, last⟩ := moduleSector_within b id k
    exact blank x (by omega) (by omega)
  have head (k : Fin 2)
      : m.BlankOn (moduleSector b id k).base ((moduleSector b id k).base + 4) := by
    intro x low high
    have slots := (moduleSector b id k).slots_fit
    have info := (moduleSector b id k).info_fit
    exact sector k x low (by simp only [Sector.limit]; omega)
  exact {
    own := fun j marked => absurd marked (not_marked_of_blank (head j))
    operation := by simpa [InOperation] using Or.inr (not_marked_of_blank (head 1))
    chain := Chain.empty (fun x low high => sector 0 x (by omega) high)
    fresh := fun _ => head 0
  }

/-- Where the sector in operation is not marked, no sector is. -/
theorem Store.unmarked {b : Build} {id : Fin nvMaxModuls} {k : Fin 2} {es : List InfoIdx}
    {m : Mem} (store : Store b id k es m) (absent : ¬Marked b id m k)
    : k = 0 ∧ ∀ j, ¬Marked b id m j := by
  have operation := store.operation
  by_cases zero : k = 0
  · subst k
    simp only [InOperation, if_true, absent, false_or] at operation
    refine ⟨rfl, fun j => ?_⟩
    have cases : j = 0 ∨ j = 1 := by omega
    rcases cases with rfl | rfl
    · exact absent
    · exact operation
  · have one : k = 1 := by omega
    subst k
    simp only [InOperation, zero, if_false] at operation
    exact absurd operation.2 absent

theorem Store.opSect {b : Build} {id : Fin nvMaxModuls} {k : Fin 2} {es : List InfoIdx}
    {m : Mem} (store : Store b id k es m)
    : nvOpSect b m id = k :=
  nvOpSect_eq store.own store.operation

/-- The driver finds a sector exactly when the one in operation is marked. -/
theorem Store.sectorRead {b : Build} {id : Fin nvMaxModuls} {k : Fin 2} {es : List InfoIdx}
    {m : Mem} (store : Store b id k es m)
    : nvSectorRead b m id moduleSectorNum
      = if Marked b id m k then some (sectHead b id m k) else none := by
  rw [nvSectorRead_eq]
  by_cases marked : Marked b id m k
  · have operation := store.operation
    by_cases zero : k = 0
    · subst k
      simp [marked]
    · have one : k = 1 := by omega
      subst k
      simp only [InOperation, zero, if_false] at operation
      simp [operation.1, operation.2]
  · obtain ⟨_, none⟩ := store.unmarked marked
    simp [marked, none]

/-- The module invariant survives changes of the other sector, as long as they do not mark
that sector.
-/
theorem Store.spare {b : Build} {id : Fin nvMaxModuls} {k j : Fin 2} {es : List InfoIdx}
    {m m' : Mem} (store : Store b id k es m) (other : j ≠ k)
    (same : ∀ x, x < (moduleSector b id j).base ∨ (moduleSector b id j).limit ≤ x → m' x = m x)
    (head : sectHead b id m' j = sectHead b id m j ∨ ¬Marked b id m' j)
    : Store b id k es m' := by
  have apart := @moduleSector_apart b id j k other
  have slots := (moduleSector b id k).slots_fit
  have info := (moduleSector b id k).info_fit
  have limitEq : (moduleSector b id k).limit
    = (moduleSector b id k).base + (moduleSector b id k).size := rfl
  have body : ∀ x, (moduleSector b id k).base ≤ x → x < (moduleSector b id k).limit
      → m' x = m x := by
    intro x low high
    exact same x (by omega)
  have kept : sectHead b id m' k = sectHead b id m k :=
    sectHead_congr (fun x low high => body x low (by omega))
  have marks : Marked b id m' j → Marked b id m j := by
    intro marked
    rcases head with same | absent
    · exact (marked_congr same).mp marked
    · exact absurd marked absent
  refine {
    own := ?_
    operation := ?_
    chain := store.chain.congr (fun x low high => body x (by omega) high)
    fresh := ?_
  }
  · intro i marked
    by_cases here : i = k
    · subst i
      rw [kept]
      exact store.own k ((marked_congr kept).mp marked)
    · have there : i = j := by omega
      subst i
      rcases head with same | absent
      · rw [same]
        exact store.own j (marks marked)
      · exact absurd marked absent
  · have operation := store.operation
    by_cases zero : k = 0
    · have one : j = 1 := by omega
      subst k j
      simp only [InOperation, if_true, marked_congr kept] at operation ⊢
      exact operation.imp_right (fun absent marked => absent (marks marked))
    · have one : k = 1 := by omega
      have null : j = 0 := by omega
      subst k j
      simp only [InOperation, zero, if_false, marked_congr kept] at operation ⊢
      exact ⟨fun marked => operation.1 (marks marked), operation.2⟩
  · intro empty x low high
    rw [body x low (by omega)]
    exact store.fresh empty x low high

/-- Changes inside the table and the items of the sector in operation only have to keep its
chain.
-/
theorem Store.inside {b : Build} {id : Fin nvMaxModuls} {k : Fin 2} {es es' : List InfoIdx}
    {m m' : Mem} (store : Store b id k es m)
    (same : ∀ x, x < (moduleSector b id k).base + 4 ∨ (moduleSector b id k).limit ≤ x → m' x = m x)
    (chain : Chain (moduleSector b id k) es' m') (grows : es' = [] → es = [])
    : Store b id k es' m' := by
  have heads (j : Fin 2) : sectHead b id m' j = sectHead b id m j := by
    apply sectHead_congr
    intro x low high
    by_cases here : j = k
    · subst j
      exact same x (Or.inl high)
    · have apart := @moduleSector_apart b id j k here
      have slots := (moduleSector b id j).slots_fit
      have info := (moduleSector b id j).info_fit
      have limitEq : (moduleSector b id j).limit
        = (moduleSector b id j).base + (moduleSector b id j).size := rfl
      exact same x (by omega)
  have marks (j : Fin 2) : Marked b id m' j ↔ Marked b id m j := marked_congr (heads j)
  exact {
    own := fun j marked => by
      rw [heads j]
      exact store.own j ((marks j).mp marked)
    operation := by
      have operation := store.operation
      simpa only [InOperation, marks] using operation
    chain
    fresh := fun empty x low high => by
      rw [same x (Or.inl high)]
      exact store.fresh (grows empty) x low high
  }

end TelinkSdk
