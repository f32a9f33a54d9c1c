import TelinkSdk.Platform.SharedFlash

/-! The extended address of the device. The factory may have left one in the flash; otherwise the
first start makes one up and stores it, and every later start reads it back. The bytes lie
outside of what the NV store and the OTA client use, so the address survives both.
-/

namespace TelinkSdk

open Nor

-----------------------------------------------------------------------------------------
-- The driver
-----------------------------------------------------------------------------------------

abbrev flashSize512K : Nat := 0x13
abbrev flashSize1M : Nat := 0x14

/-- `g_u32MacFlashAddr` as the build initialises it. -/
def macFlashAddr (b : Build) : Nat := if b.flashCapSize1M then 0xFF000 else 0x76000

/-- The address that is used with a chip of the capacity `mid`; a start with a chip that is too
small for the build hangs.
-/
def internalFlashSizeCheck (b : Build) (mid : Nat) : Option Nat :=
  if mid < flashSize512K ∨ macFlashAddr b = 0xFF000 ∧ mid < flashSize1M then none
  else if macFlashAddr b = 0x76000 ∧ flashSize1M ≤ mid then some 0xFF000
  else some (macFlashAddr b)

def drvGenerateRandomData.loop (rand : Nat → UInt32) : Nat → Nat → UInt32 → List UInt8
  | 0, _, _ => []
  | left + 1, i, randNums =>
      let randNums := if i % 4 = 0 then rand (i / 4) else randNums
      randNums.toUInt8 :: drvGenerateRandomData.loop rand left (i + 1) (randNums >>> 8)

/-- `len` random bytes, four from each word of the generator. -/
def drvGenerateRandomData (rand : Nat → UInt32) (len : Nat) : List UInt8 :=
  drvGenerateRandomData.loop rand len 0 0

def startIEEEAddr : List UInt8 := [0x38, 0xc1, 0xa4]

/-- `g_invalid_addr`. -/
def invalidAddr : List UInt8 := List.replicate 8 0xFF

/-- The layout of the serial chips has the manufacturer in the middle. -/
def serialLayout (addr : List UInt8) : Bool :=
  let oui := (addr.drop 3).take 3
  oui == [0x38, 0xC1, 0xA4] || oui == [0xD1, 0x19, 0xC4] || oui == [0xCB, 0x0B, 0xD8]

/-- What a start copies into the PIB as the extended address. -/
def generateIEEEAddr (cfgMacAddress : Nat) (rand : Nat → UInt32) : Prog (List UInt8) :=
  .look fun m =>
    let addr := m.read cfgMacAddress 8
    if addr = invalidAddr then
      let addr := drvGenerateRandomData rand 5 ++ startIEEEAddr
      Prog.bind (flashWrite cfgMacAddress (addr.drop 2)) fun _ =>
        Prog.bind (flashWrite (cfgMacAddress + 6) (addr.take 2)) fun _ => .done addr
    else if serialLayout addr then
      .look fun m => .done (m.read (cfgMacAddress + 6) 2 ++ m.read cfgMacAddress 6)
    else .done addr

-----------------------------------------------------------------------------------------
-- What one call does
-----------------------------------------------------------------------------------------

/-- The address that eight stored bytes stand for. -/
def addressOf (stored : List UInt8) : List UInt8 :=
  if serialLayout stored then stored.drop 6 ++ stored.take 6 else stored

/-- The address that a start with an empty flash makes up. -/
def freshAddr (rand : Nat → UInt32) : List UInt8 := drvGenerateRandomData rand 5 ++ startIEEEAddr

/-- The bytes in the flash when each of the two writes of a fresh address is done or not. -/
def storedBytes (addr : List UInt8) (first second : Bool) : List UInt8 :=
  (if first then addr.drop 2 else List.replicate 6 0xFF)
    ++ (if second then addr.take 2 else List.replicate 2 0xFF)

/-- The first write of a fresh address. -/
def firstWrite (cfg : Nat) (rand : Nat → UInt32) : Cmd := .program cfg ((freshAddr rand).drop 2)

def secondWrite (cfg : Nat) (rand : Nat → UInt32) : Cmd :=
  .program (cfg + 6) ((freshAddr rand).take 2)

section Call

variable {env : Env} {cfg : Nat} {rand : Nat → UInt32} {d : Dev} {m m' : Mem}

theorem freshAddr_bytes (rand : Nat → UInt32)
    : ∃ a₀ a₁ a₂ a₃ a₄, freshAddr rand = [a₀, a₁, a₂, a₃, a₄, 0x38, 0xc1, 0xa4] :=
  ⟨_, _, _, _, _, rfl⟩

/-- A stored address is read, and the flash stays as it is. -/
theorem generateIEEEAddr_found (found : d.mem.read cfg 8 ≠ invalidAddr)
    : Prog.run env (generateIEEEAddr cfg rand) d = (addressOf (d.mem.read cfg 8), d)
      ∧ Prog.trace env (generateIEEEAddr cfg rand) d = [] := by
  have parts : d.mem.read cfg 8 = d.mem.read cfg 6 ++ d.mem.read (cfg + 6) 2 :=
    d.mem.read_add cfg 6 2
  have shifted : d.mem.read (cfg + 6) 2 ++ d.mem.read cfg 6
      = (d.mem.read cfg 8).drop 6 ++ (d.mem.read cfg 8).take 6 := by
    have left : (d.mem.read cfg 6).length = 6 := d.mem.read_length cfg 6
    rw [parts, List.drop_left' left, List.take_left' left]
  by_cases serial : serialLayout (d.mem.read cfg 8) = true
  · simp only [generateIEEEAddr, Prog.run, Prog.trace, if_neg found, serial, if_true, addressOf,
      shifted, and_self]
  · simp only [generateIEEEAddr, Prog.run, Prog.trace, if_neg found, serial, addressOf,
      Bool.false_eq_true, if_false, and_self]

/-- An empty flash takes the two writes of a fresh address. -/
theorem generateIEEEAddr_fresh (empty : d.mem.read cfg 8 = invalidAddr)
    : Prog.run env (generateIEEEAddr cfg rand) d
        = (freshAddr rand, (d.issue env (firstWrite cfg rand)).issue env (secondWrite cfg rand))
      ∧ Prog.trace env (generateIEEEAddr cfg rand) d
        = [d.step env (firstWrite cfg rand),
          (d.issue env (firstWrite cfg rand)).step env (secondWrite cfg rand)] := by
  simp only [generateIEEEAddr, Prog.run, Prog.trace, if_pos empty]
  exact ⟨rfl, rfl⟩

theorem blankOn_of_read {base count : Nat}
    (empty : m.read base count = List.replicate count blankByte)
    : m.BlankOn base (base + count) := by
  intro x low high
  have byte := @Mem.read_getD m base count (x - base) (by omega) blankByte
  rw [empty, Nat.add_sub_cancel' low] at byte
  rw [← byte, List.getD_eq_getElem?_getD, List.getElem?_replicate]
  split <;> rfl

/-- A blank range after a write that may be lost. -/
theorem read_write {base : Nat} {bytes : List UInt8} (done : Bool)
    (empty : m.read base bytes.length = List.replicate bytes.length blankByte)
    : (if done then (Cmd.program base bytes).apply m else m).read base bytes.length
      = if done then bytes else List.replicate bytes.length blankByte := by
  cases done with
  | false => exact empty
  | true => exact Mem.program_read_blank (blankOn_of_read empty)

/-- The eight bytes after the two writes of a fresh address, of which either may be lost. -/
theorem read_writes (empty : m.read cfg 8 = invalidAddr) (rand : Nat → UInt32)
    (first second : Bool)
    : (if second then
          (secondWrite cfg rand).apply (if first then (firstWrite cfg rand).apply m else m)
        else if first then (firstWrite cfg rand).apply m else m).read cfg 8
      = storedBytes (freshAddr rand) first second := by
  have halves : m.read cfg 6 = List.replicate 6 blankByte
      ∧ m.read (cfg + 6) 2 = List.replicate 2 blankByte := by
    rw [m.read_add cfg 6 2] at empty
    exact List.append_inj empty (m.read_length cfg 6)
  have early := @read_write m cfg ((freshAddr rand).drop 2) first halves.1
  generalize changed : (if first then (firstWrite cfg rand).apply m else m) = m₁ at *
  have behind : m₁.read (cfg + 6) 2 = List.replicate 2 blankByte := by
    rw [← halves.2, ← changed]
    refine Mem.read_congr (fun i inside => ?_)
    split
    · exact Mem.program_outside (Or.inr (Nat.le_add_right (cfg + 6) i))
    · rfl
  have late := @read_write m₁ (cfg + 6) ((freshAddr rand).take 2) second behind
  have front : (if second then (secondWrite cfg rand).apply m₁ else m₁).read cfg 6
      = m₁.read cfg 6 := by
    refine Mem.read_congr (fun i inside => ?_)
    split
    · exact Mem.program_outside (Or.inl (by omega))
    · rfl
  have first6 : m₁.read cfg 6
      = if first then (freshAddr rand).drop 2 else List.replicate 6 blankByte := by
    rw [← changed]
    exact early
  rw [Mem.read_add _ cfg 6 2, front, first6, storedBytes]
  exact congrArg _ late

/-- What a call leaves in an empty flash, wherever it is cut. -/
theorem generateIEEEAddr_cut (empty : d.mem.read cfg 8 = invalidAddr) (count : Nat)
    : ∃ first second, (Prog.crash env (generateIEEEAddr cfg rand) d count).read cfg 8
        = storedBytes (freshAddr rand) first second := by
  rw [Prog.crash, (generateIEEEAddr_fresh empty).2]
  rcases count with _ | _ | count
  · exact ⟨false, false, empty⟩
  · exact ⟨env.accepts d, false, read_writes empty rand (env.accepts d) false⟩
  · refine ⟨env.accepts d, env.accepts (d.issue env (firstWrite cfg rand)), ?_⟩
    rw [List.take_of_length_le (by simp)]
    exact read_writes empty rand _ _

/-- What a complete call leaves there. -/
theorem generateIEEEAddr_stores (empty : d.mem.read cfg 8 = invalidAddr)
    : (Prog.run env (generateIEEEAddr cfg rand) d).2.mem.read cfg 8
      = storedBytes (freshAddr rand) (env.accepts d)
        (env.accepts (d.issue env (firstWrite cfg rand))) := by
  rw [(generateIEEEAddr_fresh empty).1]
  exact read_writes empty rand (env.accepts d) (env.accepts (d.issue env (firstWrite cfg rand)))

/-- A call writes the eight bytes at most. -/
theorem generateIEEEAddr_emits
    : Prog.Emits (fun step => step.cmd.Within cfg (cfg + 8)) env (generateIEEEAddr cfg rand) d := by
  by_cases empty : d.mem.read cfg 8 = invalidAddr
  · intro step member
    rw [(generateIEEEAddr_fresh empty).2] at member
    simp only [List.mem_cons, List.not_mem_nil, or_false] at member
    have widths : ((freshAddr rand).drop 2).length = 6 ∧ ((freshAddr rand).take 2).length = 2 :=
      ⟨rfl, rfl⟩
    rcases member with rfl | rfl
    · exact Cmd.within_program (by omega) (by omega)
    · exact Cmd.within_program (by omega) (by omega)
  · exact Prog.Emits.silent (generateIEEEAddr_found empty).2

theorem generateIEEEAddr_outside (count : Nat) {x : Nat} (outside : x < cfg ∨ cfg + 8 ≤ x)
    : Prog.crash env (generateIEEEAddr cfg rand) d count x = d.mem x := by
  apply replay_untouched
  intro step member _ touched
  have inside := generateIEEEAddr_emits step (List.mem_of_mem_take member) x touched
  omega

end Call

-----------------------------------------------------------------------------------------
-- What the stored bytes stand for
-----------------------------------------------------------------------------------------

/-- Once the first write is done, the flash holds an address with the manufacturer's bytes. -/
theorem addressOf_first (rand : Nat → UInt32) (second : Bool)
    : storedBytes (freshAddr rand) true second ≠ invalidAddr
      ∧ addressOf (storedBytes (freshAddr rand) true second)
        = (if second then (freshAddr rand).take 2 else [0xFF, 0xFF])
          ++ (freshAddr rand).drop 2 := by
  obtain ⟨a₀, a₁, a₂, a₃, a₄, bytes⟩ := freshAddr_bytes rand
  rw [bytes]
  refine ⟨fun same => ?_, ?_⟩
  · have byte := congrArg (fun stored => stored.getD 3 0) same
    exact absurd (show (0x38 : UInt8) = 0xFF from byte) (by decide)
  · cases second <;> rfl

/-- The second write alone leaves bytes that are taken as they are. -/
theorem addressOf_second (rand : Nat → UInt32)
    : addressOf (storedBytes (freshAddr rand) false true)
      = List.replicate 6 0xFF ++ (freshAddr rand).take 2 := by
  obtain ⟨a₀, a₁, a₂, a₃, a₄, bytes⟩ := freshAddr_bytes rand
  rw [bytes]
  rfl

/-- Another state of the generator gives another address. -/
theorem exists_freshAddr_ne (rand : Nat → UInt32) : ∃ rand', freshAddr rand' ≠ freshAddr rand := by
  refine ⟨fun _ => if (rand 0).toUInt8 = 0 then 1 else 0, fun same => ?_⟩
  have byte := List.head_eq_of_cons_eq same
  dsimp only at byte
  by_cases zero : (rand 0).toUInt8 = 0
  · rw [if_pos (by decide), if_pos zero, if_pos (by decide), zero] at byte
    exact absurd byte (by decide)
  · rw [if_pos (by decide), if_neg zero, if_pos (by decide)] at byte
    exact zero byte.symm

/-- A call that stores a fresh address gets its first write done, and its second unless the first
two bytes are those of an empty flash.
-/
def KeepsFresh (env : Env) (cfg : Nat) (rand : Nat → UInt32) (d : Dev) : Prop :=
  env.accepts d = true
    ∧ (env.accepts (d.issue env (firstWrite cfg rand)) = true
      ∨ (freshAddr rand).take 2 = [0xFF, 0xFF])

section Again

variable {env : Env} {cfg : Nat} {rand : Nat → UInt32} {d : Dev}

/-- Such a call leaves the address that it returns. -/
theorem KeepsFresh.stored (keeps : KeepsFresh env cfg rand d)
    (empty : d.mem.read cfg 8 = invalidAddr)
    : (Prog.run env (generateIEEEAddr cfg rand) d).2.mem.read cfg 8 ≠ invalidAddr
      ∧ addressOf ((Prog.run env (generateIEEEAddr cfg rand) d).2.mem.read cfg 8)
        = freshAddr rand := by
  obtain ⟨first, second⟩ := keeps
  rw [generateIEEEAddr_stores empty, first]
  obtain ⟨present, reads⟩ := addressOf_first rand (env.accepts (d.issue env (firstWrite cfg rand)))
  refine ⟨present, reads.trans ?_⟩
  have same : (if env.accepts (d.issue env (firstWrite cfg rand)) = true
      then (freshAddr rand).take 2 else [0xFF, 0xFF]) = (freshAddr rand).take 2 := by
    rcases second with done | blank
    · rw [if_pos done]
    · rw [blank, ite_self]
  rw [same, List.take_append_drop]

/-- Every later call returns what the first one did exactly if that one kept its address. -/
theorem generateIEEEAddr_again_iff (empty : d.mem.read cfg 8 = invalidAddr)
    : (∀ env' rand', (Prog.run env' (generateIEEEAddr cfg rand')
          (Prog.run env (generateIEEEAddr cfg rand) d).2).1
        = (Prog.run env (generateIEEEAddr cfg rand) d).1)
      ↔ KeepsFresh env cfg rand d := by
  have result := congrArg Prod.fst (@generateIEEEAddr_fresh env cfg rand d empty).1
  have stores := @generateIEEEAddr_stores env cfg rand d empty
  rw [result]
  generalize same : (Prog.run env (generateIEEEAddr cfg rand) d).2 = after at stores
  constructor
  · intro again
    have found (present : after.mem.read cfg 8 ≠ invalidAddr)
        : addressOf (after.mem.read cfg 8) = freshAddr rand := by
      have next := again env rand
      rwa [(generateIEEEAddr_found present).1] at next
    have present : after.mem.read cfg 8 ≠ invalidAddr := by
      intro absent
      obtain ⟨rand', different⟩ := exists_freshAddr_ne rand
      have next := again env rand'
      rw [(generateIEEEAddr_fresh absent).1] at next
      exact different next
    have reads := found present
    rw [stores] at reads present
    obtain ⟨a₀, a₁, a₂, a₃, a₄, bytes⟩ := freshAddr_bytes rand
    unfold KeepsFresh
    cases first : env.accepts d with
    | true =>
        cases second : env.accepts (d.issue env (firstWrite cfg rand)) with
        | true => exact ⟨rfl, Or.inl rfl⟩
        | false =>
            refine ⟨rfl, Or.inr ?_⟩
            rw [first, second, (addressOf_first rand false).2] at reads
            have whole := (List.take_append_drop 2 (freshAddr rand)).symm
            exact (List.append_inj_left (reads.trans whole) rfl).symm
    | false =>
        cases second : env.accepts (d.issue env (firstWrite cfg rand)) with
        | true =>
            rw [first, second, addressOf_second] at reads
            have byte := congrArg (fun addr => addr.getD 5 0) reads
            exact absurd (show (0xFF : UInt8) = 0x38 from byte) (by decide)
        | false =>
            rw [first, second] at present
            exact absurd rfl present
  · intro keeps env' rand'
    have kept := keeps.stored empty
    rw [same] at kept
    rw [(generateIEEEAddr_found kept.1).1, kept.2]

end Again

-----------------------------------------------------------------------------------------
-- Runs
-----------------------------------------------------------------------------------------

/-- A use of the flash, or a call for the address, complete or cut by a loss of power. -/
inductive DeviceUse where
  | flash (u : FlashUse)
  | address (env : Env) (rand : Nat → UInt32)
  | addressCut (env : Env) (rand : Nat → UInt32) (count : Nat) (locked : Bool)

def OtaWorld.useDevice (k : OtaBuild) (b : Build) (cfg : Nat) (w : OtaWorld)
    : DeviceUse → OtaWorld
  | .flash u => w.use k b u
  | .address env rand =>
      let (_, d) := Prog.run env (generateIEEEAddr cfg rand) w.dev
      { w with mem := d.mem, locked := d.locked }
  | .addressCut env rand count locked =>
      let mem := Prog.crash env (generateIEEEAddr cfg rand) w.dev count
      { client := otaPowerUp k mem, mem, locked }

/-- The extended addresses that a use puts into the PIB. -/
def DeviceUse.given (cfg : Nat) (w : OtaWorld) : DeviceUse → List (List UInt8)
  | .flash _ => []
  | .address env rand => [(Prog.run env (generateIEEEAddr cfg rand) w.dev).1]
  | .addressCut _ _ _ _ => []

def NvContents.useDevice (b : Build) (m : Mem) (contents : NvContents) : DeviceUse → NvContents
  | .flash u => contents.use b m u
  | .address _ _ => contents
  | .addressCut _ _ _ _ => contents

/-- The worlds that uses reach from `m₀`, with what the store should hold in them and the addresses
that the PIB has got.
-/
inductive DeviceReached (k : OtaBuild) (b : Build) (cfg : Nat)
    (allowed : OtaWorld → DeviceUse → Prop) (m₀ : Mem)
    : OtaWorld → NvContents → List (List UInt8) → Prop where
  | boot (locked : Bool)
      : DeviceReached k b cfg allowed m₀ { client := otaPowerUp k m₀, mem := m₀, locked } {} []
  | use {w : OtaWorld} {contents : NvContents} {given : List (List UInt8)}
      (before : DeviceReached k b cfg allowed m₀ w contents given) (u : DeviceUse)
      (next : allowed w u)
      : DeviceReached k b cfg allowed m₀ (w.useDevice k b cfg u) (contents.useDevice b w.mem u)
          (given ++ u.given cfg w)

/-- The store is used as it is made for, and a complete call keeps an address that it makes up. -/
def DeviceUse.Plain (cfg : Nat) (idle : Fin nvMaxModuls) (lens : Fin nvMaxModuls → ItemLengths)
    (w : OtaWorld)
    : DeviceUse → Prop
  | .flash u => u.Plain idle lens
  | .address env rand => w.mem.read cfg 8 = invalidAddr → KeepsFresh env cfg rand w.dev
  | .addressCut _ _ _ _ => True

/-- Where the eight bytes come from: the factory, or the writes of a fresh address. -/
def FromFactory (factory stored : List UInt8) : Prop :=
  stored = factory
    ∨ factory = invalidAddr
      ∧ ∃ rand first second, stored = storedBytes (freshAddr rand) first second

/-- The flash holds the address that was given every time. -/
structure Addressed (cfg : Nat) (m₀ m : Mem) (given : List (List UInt8)) : Prop where
  same : ∀ a ∈ given, m.read cfg 8 ≠ invalidAddr ∧ a = addressOf (m.read cfg 8)
  origin : FromFactory (m₀.read cfg 8) (m.read cfg 8)

section Runs

variable {k : OtaBuild} {b : Build} {idle : Fin nvMaxModuls}
  {lens : Fin nvMaxModuls → ItemLengths} {mid cfg : Nat} {m₀ m m' : Mem} {w : OtaWorld}
  {contents : NvContents} {given : List (List UInt8)} {x : Nat}

theorem internalFlashSizeCheck_eq (chip : internalFlashSizeCheck b mid = some cfg)
    : cfg = 0xFF000 ∨ cfg = 0x76000 ∧ b.flashCapSize1M = false := by
  have base : macFlashAddr b = 0xFF000 ∨ macFlashAddr b = 0x76000 ∧ b.flashCapSize1M = false := by
    unfold macFlashAddr
    cases b.flashCapSize1M <;> simp
  unfold internalFlashSizeCheck at chip
  split_ifs at chip
  · exact Or.inl (Option.some.inj chip).symm
  · exact Option.some.inj chip ▸ base

theorem modules_beside (plain : b.bootLoaderMode = false) (id : Fin nvMaxModuls)
    : moduleEnd b id ≤ 0xFF000
      ∧ (b.flashCapSize1M = false
        → moduleEnd b id ≤ 0x76000 ∨ 0x77000 ≤ modulesStartAddr b id) := by
  obtain ⟨cap, boot⟩ := b
  subst plain
  revert id
  cases cap <;> decide

/-- The address lies outside of both slots and of all modules. -/
theorem macFlashAddr_apart (plain : b.bootLoaderMode = false)
    (chip : internalFlashSizeCheck b mid = some cfg) (low : cfg ≤ x) (high : x < cfg + 8)
    : ¬InSlots x ∧ ¬InModules b x := by
  constructor
  · intro inSlots
    have place := internalFlashSizeCheck_eq chip
    simp only [InSlots, otaMaxImageSize, flashOtaNewimageAddr] at inSlots
    omega
  · rintro ⟨id, first, last⟩
    have beside := modules_beside plain id
    rcases internalFlashSizeCheck_eq chip with rfl | ⟨rfl, small⟩
    · omega
    · have other := beside.2 small
      omega

/-- Writes to an empty flash put the bytes of a fresh address there. -/
theorem FromFactory.fresh {factory stored : List UInt8} (before : FromFactory factory stored)
    (empty : stored = invalidAddr) (rand : Nat → UInt32) (first second : Bool)
    : FromFactory factory (storedBytes (freshAddr rand) first second) := by
  rcases before with same | ⟨blank, -⟩
  · exact Or.inr ⟨same ▸ empty, rand, first, second, rfl⟩
  · exact Or.inr ⟨blank, rand, first, second, rfl⟩

theorem Addressed.congr (addressed : Addressed cfg m₀ m given)
    (same : ∀ x, cfg ≤ x → x < cfg + 8 → m' x = m x)
    : Addressed cfg m₀ m' given := by
  have bytes : m'.read cfg 8 = m.read cfg 8 :=
    Mem.read_congr (fun i inside => same _ (Nat.le_add_right cfg i) (by omega))
  exact ⟨bytes ▸ addressed.same, bytes ▸ addressed.origin⟩

/-- A use of the flash by the store or the client leaves the address alone. -/
theorem Addressed.flash (addressed : Addressed cfg m₀ w.mem given)
    (plain : b.bootLoaderMode = false) (chip : internalFlashSizeCheck b mid = some cfg)
    (holds : NvHolds b idle lens w.mem contents) (session : Session k w.client w.mem)
    {u : FlashUse} (allowed : u.Plain idle lens)
    : Addressed cfg m₀ (w.use k b u).mem given := by
  refine addressed.congr (fun x low high => ?_)
  obtain ⟨slots, modules⟩ := macFlashAddr_apart plain chip low high
  cases u with
  | nv op =>
      refine holds.separate.outside (holds.separateOp allowed) ?_
      by_contra inside
      exact modules ⟨op.module, by omega, by omega⟩
  | ota env e =>
      have kept := session.outside_kept env e (Prog.trace env (e.handler k w.client) w.dev).length
        slots
      rw [List.take_length] at kept
      exact (congrFun (Prog.run_mem _ _ _) x).trans kept
  | cut env e count locked => exact session.outside_kept env e count slots

/-- A complete call returns the address of all the earlier ones. -/
theorem Addressed.address (addressed : Addressed cfg m₀ w.mem given) {env : Env}
    {rand : Nat → UInt32}
    (keeps : w.mem.read cfg 8 = invalidAddr → KeepsFresh env cfg rand w.dev)
    : Addressed cfg m₀ (Prog.run env (generateIEEEAddr cfg rand) w.dev).2.mem
        (given ++ [(Prog.run env (generateIEEEAddr cfg rand) w.dev).1]) := by
  by_cases empty : w.mem.read cfg 8 = invalidAddr
  · have none : given = [] := List.eq_nil_iff_forall_not_mem.mpr
      (fun a member => (addressed.same a member).1 empty)
    have blank : w.dev.mem.read cfg 8 = invalidAddr := empty
    have kept := (keeps empty).stored blank
    have result := congrArg Prod.fst (@generateIEEEAddr_fresh env cfg rand w.dev blank).1
    refine ⟨fun a member => ?_, ?_⟩
    · rw [none, List.nil_append, List.mem_singleton, result] at member
      rw [member]
      exact ⟨kept.1, kept.2.symm⟩
    · rw [generateIEEEAddr_stores blank]
      exact addressed.origin.fresh empty rand _ _
  · have found : w.dev.mem.read cfg 8 ≠ invalidAddr := empty
    rw [(generateIEEEAddr_found found).1]
    refine ⟨fun a member => ?_, addressed.origin⟩
    rcases List.mem_append.mp member with earlier | last
    · exact addressed.same a earlier
    · rw [List.mem_singleton.mp last]
      exact ⟨empty, rfl⟩

/-- A cut call leaves the address, and in an empty flash nothing was given before. -/
theorem Addressed.addressCut (addressed : Addressed cfg m₀ w.mem given) (env : Env)
    (rand : Nat → UInt32) (count : Nat)
    : Addressed cfg m₀ (Prog.crash env (generateIEEEAddr cfg rand) w.dev count) given := by
  by_cases empty : w.mem.read cfg 8 = invalidAddr
  · have blank : w.dev.mem.read cfg 8 = invalidAddr := empty
    obtain ⟨first, second, stored⟩ := @generateIEEEAddr_cut env cfg rand w.dev blank count
    refine ⟨fun a member => absurd empty (addressed.same a member).1, ?_⟩
    rw [stored]
    exact addressed.origin.fresh empty rand first second
  · have found : w.dev.mem.read cfg 8 ≠ invalidAddr := empty
    rw [Prog.crash, (generateIEEEAddr_found found).2, List.take_nil, replay_nil]
    exact addressed

/-- In every run the flash holds the store's contents, the client's session and the address. By
induction on the uses.
-/
theorem DeviceReached.holds (plain : b.bootLoaderMode = false) (user : idle = 2 ∨ idle = 3)
    (chip : internalFlashSizeCheck b mid = some cfg)
    (blank : ∀ id : Fin nvMaxModuls, m₀.BlankOn (modulesStartAddr b id) (moduleEnd b id))
    (reached : DeviceReached k b cfg (DeviceUse.Plain cfg idle lens) m₀ w contents given)
    : NvHolds b idle lens w.mem contents ∧ Session k w.client w.mem
      ∧ Addressed cfg m₀ w.mem given := by
  induction reached with
  | boot locked =>
      exact ⟨.erased blank, Session.powerUp k m₀ m₀,
        ⟨fun a member => absurd member List.not_mem_nil, Or.inl rfl⟩⟩
  | @use w contents given before u next ih =>
      obtain ⟨holds, session, addressed⟩ := ih
      have apart {x : Nat} (area : InModules b x ∨ InSlots x) : x < cfg ∨ cfg + 8 ≤ x := by
        by_contra inside
        obtain ⟨slots, modules⟩ := @macFlashAddr_apart b mid cfg x plain chip (by omega) (by omega)
        exact area.elim modules slots
      cases u with
      | flash u =>
          obtain ⟨holds', session'⟩ := holds.use session plain user next
          have addressed' := addressed.flash plain chip holds session next
          exact ⟨holds', session', by rwa [DeviceUse.given, List.append_nil]⟩
      | address env rand =>
          have outside {x : Nat} (beside : x < cfg ∨ cfg + 8 ≤ x)
              : (Prog.run env (generateIEEEAddr cfg rand) w.dev).2.mem x = w.mem x := by
            have kept := @generateIEEEAddr_outside env cfg rand w.dev
              (Prog.trace env (generateIEEEAddr cfg rand) w.dev).length x beside
            rw [Prog.crash, List.take_length] at kept
            exact (congrFun (Prog.run_mem _ _ _) x).trans kept
          refine ⟨holds.congr (fun x area => outside (apart (Or.inl area))),
            session.congr (fun x area => outside (apart (Or.inr area))), ?_⟩
          exact addressed.address next
      | addressCut env rand count locked =>
          refine ⟨holds.congr (fun x area => ?_), Session.powerUp k _ _, ?_⟩
          · exact generateIEEEAddr_outside count (apart (Or.inl area))
          · rw [DeviceUse.given, List.append_nil]
            exact addressed.addressCut env rand count

end Runs

-----------------------------------------------------------------------------------------
-- One address for good
-----------------------------------------------------------------------------------------

/-- In every run of the device, with calls for its address between any uses of the flash and power
cuts in both, every call returns the same address and leaves it as it is, the store reads as
without the calls, and the address is the factory's where there is one. A made-up address ends in
the manufacturer's bytes, unless a cut call has lost its first write and not its second. The
condition on a call that makes an address up is exact.
-/
theorem ieeeAddr_permanent (k : OtaBuild) {b : Build} (plain : b.bootLoaderMode = false)
    {idle : Fin nvMaxModuls} (user : idle = 2 ∨ idle = 3) (lens : Fin nvMaxModuls → ItemLengths)
    {mid cfg : Nat} (chip : internalFlashSizeCheck b mid = some cfg) {m₀ : Mem}
    (blank : ∀ id : Fin nvMaxModuls, m₀.BlankOn (modulesStartAddr b id) (moduleEnd b id))
    {w : OtaWorld} {contents : NvContents} {given : List (List UInt8)}
    (reached : DeviceReached k b cfg (DeviceUse.Plain cfg idle lens) m₀ w contents given)
    : (∀ a ∈ given, ∀ env rand, Prog.run env (generateIEEEAddr cfg rand) w.dev = (a, w.dev))
      ∧ (∀ a ∈ given, m₀.read cfg 8 ≠ invalidAddr ∧ a = addressOf (m₀.read cfg 8)
        ∨ m₀.read cfg 8 = invalidAddr
          ∧ (a.drop 5 = startIEEEAddr ∨ a.take 6 = List.replicate 6 0xFF))
      ∧ (w.mem.read cfg 8 = invalidAddr → ∀ env rand,
        (∀ env' rand', (Prog.run env' (generateIEEEAddr cfg rand')
            (Prog.run env (generateIEEEAddr cfg rand) w.dev).2).1
          = (Prog.run env (generateIEEEAddr cfg rand) w.dev).1)
        ↔ KeepsFresh env cfg rand w.dev)
      ∧ (∀ id, id ≠ frameModule → id ≠ idle → ∀ itemId, itemId ≠ itemFieldIdle
        → nvFlashReadNew b w.mem id itemId ((lens id).len itemId) = contents.items id itemId)
      ∧ nvNwkFrameCountFromFlash b w.mem = contents.frameCount := by
  obtain ⟨holds, -, addressed⟩ := reached.holds plain user chip blank
  refine ⟨fun a member env rand => ?_, fun a member => ?_,
    fun empty env rand => generateIEEEAddr_again_iff empty,
    fun id notFrame used => (holds.items id notFrame used).reads, holds.frame.read⟩
  · obtain ⟨found, same⟩ := addressed.same a member
    rw [same]
    exact (@generateIEEEAddr_found env cfg rand w.dev found).1
  · obtain ⟨found, same⟩ := addressed.same a member
    rcases addressed.origin with origin | ⟨none, rand, first, second, stored⟩
    · rw [origin] at found same
      exact Or.inl ⟨found, same⟩
    · refine Or.inr ⟨none, ?_⟩
      rw [stored] at found same
      rw [same]
      cases first with
      | true =>
          rw [(addressOf_first rand second).2]
          cases second <;> exact Or.inl rfl
      | false =>
          cases second with
          | true =>
              rw [addressOf_second]
              exact Or.inr rfl
          | false => exact absurd rfl found

/-- A first start is cut between its two writes; the next one reads what is there, and the counter
that is saved then does not change it.
-/
theorem ieeeAddr_permanent_cut
    : let k : OtaBuild := build8258
      let b : Build := ⟨true, false⟩
      let boot : OtaWorld := { client := otaPowerUp k Mem.blank, mem := Mem.blank }
      let first := boot.useDevice k b 0xFF000 (.addressCut {} (fun _ => 0x04030201) 1 true)
      let next := first.useDevice k b 0xFF000 (.address {} (fun _ => 7))
      let w := next.useDevice k b 0xFF000 (.flash (.nv (.save 5)))
      Prog.run {} (generateIEEEAddr 0xFF000 (fun _ => 0)) w.dev
        = ([0xFF, 0xFF, 3, 4, 1, 0x38, 0xc1, 0xa4], w.dev) := by
  intro k b boot first next w
  let lens : Fin nvMaxModuls → ItemLengths :=
    fun _ => ⟨fun _ => 4, fun _ => by decide, fun _ => by decide⟩
  have stored : first.mem.read 0xFF000 8 ≠ invalidAddr := by decide
  have save : FlashUse.Plain 3 lens (.nv (.save 5)) := ⟨by decide, by decide⟩
  have reached := (((@DeviceReached.boot k b 0xFF000 (DeviceUse.Plain 0xFF000 3 lens) Mem.blank
    true).use (.addressCut {} (fun _ => 0x04030201) 1 true) trivial).use
    (.address {} (fun _ => 7)) (fun empty => absurd empty stored)).use (.flash (.nv (.save 5))) save
  have fixed := (@ieeeAddr_permanent k b rfl 3 (Or.inr rfl) lens 0x14 0xFF000 rfl Mem.blank
    (fun _ _ _ _ => rfl) _ _ _ reached).1
  let a := (Prog.run {} (generateIEEEAddr 0xFF000 (fun _ => 7)) first.dev).1
  have result : a = [0xFF, 0xFF, 3, 4, 1, 0x38, 0xc1, 0xa4] := by decide
  have again := fixed a
    (List.mem_append_left _ (List.mem_append_right _ (List.mem_singleton.mpr rfl))) {} (fun _ => 0)
  exact again.trans (congrArg (fun a => (a, w.dev)) result)

end TelinkSdk
