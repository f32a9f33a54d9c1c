import TelinkSdk.Links.Ram
import TelinkSdk.Mac.Pib

/-! The security material of the MAC: the pools of its descriptors and the lists that a key links
them into.
-/

namespace TelinkSdk

open Nor Links

/-- The number of blocks of a pool, as `tl_zb_mac_pib.h` sets it. -/
def MacMem.num : MacMem → Nat
  | .keyId => 1
  | .device => 16
  | .keyUsage => 2
  | .secLvl => 6
  | .key => 16
  | .keyDev => 16

/-- `sizeof(mac_keyDesc_t)`. -/
abbrev sizeofKeyDesc : Nat := 48

-- the heads of the lists inside a mac_keyDesc_t
abbrev keyIdLookupListOffset : Nat := 4
abbrev keyDeviceListOffset : Nat := 12
abbrev keyUsageListOffset : Nat := 20

/-- Where the linker puts the pools and the heads of the tables. -/
structure SecLayout where
  block : MacMem → List Nat
  keyTable : Nat
  devTable : Nat
  secLvlTable : Nat
  keyDevTable : Nat
  block_length : ∀ mem, (block mem).length = mem.num
  block_nodup : ∀ mem, (block mem).Nodup
  pools_apart : ∀ mem mem' a, a ∈ block mem → a ∈ block mem' → mem = mem'
  keys_apart : ∀ a ∈ block .key, ∀ b ∈ block .key, a < b → a + sizeofKeyDesc ≤ b
  heads_nodup : [keyTable, devTable, secLvlTable, keyDevTable].Nodup
  heads_apart : ∀ head ∈ [keyTable, devTable, secLvlTable, keyDevTable],
    ∀ a ∈ block .key, head < a ∨ a + sizeofKeyDesc ≤ head
  heads_word : ∀ head ∈ [keyTable, devTable, secLvlTable, keyDevTable], head < 4294967296

/-- The pools one after the other, 4096 bytes apart, below them the heads of the tables. -/
def SecLayout.paged : SecLayout where
  block mem := (List.range mem.num).map (fun i => 0x1000 * (mem.ctorIdx + 1) + sizeofKeyDesc * i)
  keyTable := 0x100
  devTable := 0x104
  secLvlTable := 0x108
  keyDevTable := 0x10C
  block_length mem := by simp
  block_nodup mem := by
    refine List.Nodup.map ?_ List.nodup_range
    intro i j same
    simp only [sizeofKeyDesc] at same
    omega
  pools_apart mem mem' a := by
    intro inside inside'
    simp only [List.mem_map, List.mem_range, sizeofKeyDesc] at inside inside'
    obtain ⟨i, small, rfl⟩ := inside
    obtain ⟨j, small', same⟩ := inside'
    have large (mem : MacMem) : mem.num ≤ 16 := by cases mem <;> decide
    have first := large mem
    have second := large mem'
    have number : mem.ctorIdx = mem'.ctorIdx := by omega
    cases mem <;> cases mem' <;> first | rfl | cases number
  keys_apart := by
    simp only [List.mem_map, List.mem_range, sizeofKeyDesc]
    rintro a ⟨i, -, rfl⟩ b ⟨j, -, rfl⟩ low
    omega
  heads_nodup := by decide
  heads_apart := by
    simp only [List.mem_map, List.mem_range, sizeofKeyDesc]
    rintro head inside a ⟨i, -, rfl⟩
    left
    have low : head ≤ 0x10C := by
      simp only [List.mem_cons, List.not_mem_nil, or_false] at inside
      omega
    simp only [MacMem.ctorIdx]
    omega
  heads_word := by decide

/-- The list of a table. -/
def SecLayout.head (layout : SecLayout) : SecTable → Nat
  | .key => layout.keyTable
  | .device => layout.devTable
  | .secLvl => layout.secLvlTable

/-- The pool of the descriptors of a table. -/
def SecTable.mem : SecTable → MacMem
  | .key => .key
  | .device => .device
  | .secLvl => .secLvl

/-- The lists after the descriptors of a key were linked. -/
def keyLinked (s : Nat → List Nat) (key : Nat) (lookups devices usages : List Nat)
    : Nat → List Nat :=
  Function.update
    (Function.update
      (Function.update s (key + keyIdLookupListOffset) lookups)
      (key + keyDeviceListOffset) devices)
    (key + keyUsageListOffset) usages

/-- The heads of the lists of a key. -/
def keyHeads (key : Nat) : List Nat :=
  [key + keyIdLookupListOffset, key + keyDeviceListOffset, key + keyUsageListOffset]

/-- Every list outside a key has none of the items, or just these. -/
def SharedWhole (s : Nat → List Nat) (key : Nat) (items : List Nat) : Prop :=
  ∀ other, other ∉ keyHeads key → (∀ item ∈ items, item ∉ s other) ∨ s other = items

/-- What the MAC library adds to its lists: `mac_keyDesc_set` links given descriptors into the
lists of a key. A list of another key that has some of these descriptors keeps them when it has
the very same ones, since the links in them are set as they were. Left out is `macKeyDevTable`, to
which the library adds the device descriptors through `updateKeyDevTable`.
-/
class MacSecLib (σ : Type) extends TnList σ where
  keyDescSet : σ → Nat → List Nat → List Nat → List Nat → σ
  keyDescSet_holds {m : σ} {s : Nat → List Nat} {key : Nat} {lookups devices usages : List Nat}
    (holds : TnList.Holds m s) (once : (lookups ++ devices ++ usages).Nodup)
    (agrees : ∀ items ∈ [lookups, devices, usages], SharedWhole s key items)
    : TnList.Holds (keyDescSet m key lookups devices usages)
        (keyLinked s key lookups devices usages)

/-- The lists of a key are emptied before anything is linked into them. -/
def ListMem.keyDescSet (m : ListMem) (key : Nat) (lookups devices usages : List Nat) : ListMem :=
  let m := ((m.set (key + keyIdLookupListOffset) []).set (key + keyDeviceListOffset) []).set
    (key + keyUsageListOffset) []
  ((m.link (key + keyIdLookupListOffset) lookups).link (key + keyDeviceListOffset) devices).link
    (key + keyUsageListOffset) usages

variable {σ : Type}

/-- The lists of a key and their lengths. -/
def keyRecord (key : Nat) (lookups devices usages : List Nat) : KeyDesc where
  keyIdLookupList := key + keyIdLookupListOffset
  keyDeviceList := key + keyDeviceListOffset
  keyUsageList := key + keyUsageListOffset
  keyIdLookupListEntries := .ofNat lookups.length
  keyDeviceListEntries := .ofNat devices.length
  keyUsageListEntries := .ofNat usages.length

/-- `mac_keyDesc_set`, without the bytes of the key itself. -/
def macKeyDescSet [MacSecLib σ] (sys : MacSys σ) (key : Nat) (lookups devices usages : List Nat)
    : MacSys σ :=
  { sys with
    lists := MacSecLib.keyDescSet sys.lists key lookups devices usages
    keys := Function.update sys.keys key (keyRecord key lookups devices usages) }

/-- `mac_secMaterial_Init`. -/
def macSecMaterialInit [TnList σ] (layout : SecLayout) (sys : MacSys σ) (coldReset : Bool)
    : MacSys σ :=
  let sys :=
    if coldReset then
      { sys with
        allocated := fun _ => []
        lists :=
          TnList.init
            (TnList.init
              (TnList.init (TnList.init sys.lists layout.keyTable) layout.devTable)
              layout.secLvlTable)
            layout.keyDevTable }
    else sys
  let pib := Ram.store32 sys.pib PibField.keyTable.offset layout.keyTable
  let pib := Ram.store32 pib PibField.devTable.offset layout.devTable
  { sys with pib := Ram.store32 pib PibField.secLvlTable.offset layout.secLvlTable }

/-- `tn_mem_alloc` of the library, given the blocks of a pool and those in use: it finds a block
as long as there is one.
-/
structure TnMemAlloc where
  pick : List Nat → List Nat → Option Nat
  pick_free : ∀ {blocks used a}, pick blocks used = some a → a ∈ blocks ∧ a ∉ used
  pick_finds : ∀ {blocks used a}, a ∈ blocks → a ∉ used → (pick blocks used).isSome

/-- Take the first block that is not in use. -/
def TnMemAlloc.firstFree : TnMemAlloc where
  pick blocks used := blocks.find? (fun a => a ∉ used)
  pick_free found := ⟨List.mem_of_find?_eq_some found, by simpa using List.find?_some found⟩
  pick_finds inside unused := by
    rw [List.find?_isSome]
    exact ⟨_, inside, by simpa using unused⟩

/-- A block of a pool comes into use. -/
def MacSys.take (sys : MacSys σ) (mem : MacMem) (item : Nat) : MacSys σ :=
  { sys with allocated := Function.update sys.allocated mem (item :: sys.allocated mem) }

/-- `mac_secMaterial_alloc`. -/
def macSecMaterialAlloc (layout : SecLayout) (lib : TnMemAlloc) (sys : MacSys σ) (mem : MacMem)
    : Option (Nat × MacSys σ) :=
  (lib.pick (layout.block mem) (sys.allocated mem)).map (fun item => (item, sys.take mem item))

theorem MacSys.take_allocated (sys : MacSys σ) (mem : MacMem) (item : Nat)
    : (sys.take mem item).allocated mem = item :: sys.allocated mem := Function.update_self ..

theorem MacSys.take_other (sys : MacSys σ) {mem mem' : MacMem} (different : mem' ≠ mem) (item : Nat)
    : (sys.take mem item).allocated mem' = sys.allocated mem' := Function.update_of_ne different _ _

end TelinkSdk
