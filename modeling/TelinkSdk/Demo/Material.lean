import TelinkSdk.Mac.PibAccess
import TelinkSdk.Mac.SecTables

/-! The key material of the demo applications `associate_dev` and `associate_coor`. Both allocate
one lookup and two usage descriptors once and link them into every key they install.
-/

namespace TelinkSdk

open TnList

/-- `addrExt_t`. -/
abbrev ExtAddr : Type := Vector UInt8 8

/-- `mac_deviceDesc_t` without its link. -/
structure DeviceDesc where
  frameCounter : UInt32
  panId : UInt16
  shortAddress : UInt16
  longAddress : ExtAddr
  exempt : Bool
  deriving DecidableEq, Repr

/-- The MAC, the contents of the device descriptors, the device that each key-device descriptor
points to, and the globals `pKeyUsgDesc` and `pKeyIDDesc`.
-/
structure Material (σ : Type) where
  sys : MacSys σ
  device : Nat → DeviceDesc
  keyDevice : Nat → Nat
  keyUsgDesc : List Nat
  keyIdDesc : Nat

abbrev macAttrCoordinatorExtendedAddress : UInt8 := 0x4A
abbrev macAttrCoordinatorShortAddress : UInt8 := 0x4B
abbrev macAttrPanId : UInt8 := 0x50
abbrev macAttrShortAddress : UInt8 := 0x53
abbrev macAttrSecurityEnabled : UInt8 := 0x5D
abbrev macDefaultKeySource : UInt8 := 0x7C

/-- `default_key_source`. -/
def defaultKeySource : List UInt8 := [0x00, 0x01, 0x02, 0x03, 0x04, 0x05, 0x06, 0x07]

variable {σ : Type} [MacSecLib σ] (layout : SecLayout) (lib : TnMemAlloc)

/-- A call `tl_zbMacAttrSet` that hands over bytes and ignores the status. -/
def attrStore (sys : MacSys σ) (attr : UInt8) (bytes : List UInt8) : Option (MacSys σ) :=
  (tlZbMacAttrSet sys attr (.ofBytes 0 bytes) (.ofNat bytes.length)).map AttrSet.sys

/-- A call `tl_zbMacAttrSet` that hands over a descriptor and ignores the status. -/
def attrStoreItem (sys : MacSys σ) (attr : UInt8) (item : Nat) (index : UInt8)
    : Option (MacSys σ) :=
  (tlZbMacAttrSet sys attr { addr := item, bytes := fun _ => 0 } index).map AttrSet.sys

/-- A call `tl_zbMacAttrGet` into a 16-bit variable. -/
def attrLoadWord (sys : MacSys σ) (attr : UInt8) (word : UInt16) : Option UInt16 :=
  (tlZbMacAttrGet sys attr 0).map (fun
    | .bytes [low, high] _ => .ofNat (low.toNat + 256 * high.toNat)
    | _ => word)

/-- The common materials: two usage descriptors and a lookup descriptor. There is no result when
an allocation fails and the application stops in a loop.
-/
def commonMaterials (m : Material σ) : Option (Material σ) :=
  (macSecMaterialAlloc layout lib m.sys .keyUsage).bind (fun (first, sys) =>
    (macSecMaterialAlloc layout lib sys .keyUsage).bind (fun (second, sys) =>
      (macSecMaterialAlloc layout lib sys .keyId).map (fun (lookup, sys) =>
        { m with sys, keyUsgDesc := [first, second], keyIdDesc := lookup })))

/-- The part of `add_key_material` that both applications have: a device descriptor goes into the
device table, and a new key for it, with the common materials, into the key table.
-/
def installKey (m : Material σ) (desc : DeviceDesc) (index : UInt8) : Option (Material σ) :=
  (macSecMaterialAlloc layout lib m.sys .device).bind (fun (devDesc, sys) =>
    (attrStoreItem sys macDeviceTable devDesc index).bind (fun sys =>
      (macSecMaterialAlloc layout lib sys .keyDev).bind (fun (keyDevDesc, sys) =>
        (macSecMaterialAlloc layout lib sys .key).bind (fun (keyDesc, sys) =>
          let sys := macKeyDescSet sys keyDesc [m.keyIdDesc] [keyDevDesc] m.keyUsgDesc
          (attrStoreItem sys macKeyTable keyDesc index).map (fun sys =>
            { m with
              sys
              device := Function.update m.device devDesc desc
              keyDevice := Function.update m.keyDevice keyDevDesc devDesc })))))

-----------------------------------------------------------------------------------------
-- The tables while keys are installed
-----------------------------------------------------------------------------------------

/-- The device table holds `devs`, the key table holds `tabled`, and each of the `keys`, given
with its key-device descriptor, links that descriptor and the common materials.
-/
structure TablesHold (layout : SecLayout) (lookup : Nat) (usages : List Nat) (sys : MacSys σ)
    (devs tabled : List Nat) (keys : List (Nat × Nat)) (s : Nat → List Nat) : Prop where
  table : ∀ table, sys.table table = layout.head table
  devEntries : (sys.entries .device).toNat = devs.length
  keyEntries : (sys.entries .key).toNat = tabled.length
  holds : Holds sys.lists s
  devTable : s (layout.head .device) = devs
  keyTable : s (layout.head .key) = tabled
  lists : ∀ p ∈ keys, ∀ q ∈ (SecDesc.key p.1 [lookup] [p.2] usages).lists, s q.1 = q.2
  only : ∀ list, s list ≠ [] → list = layout.head .device ∨ list = layout.head .key
    ∨ ∃ p ∈ keys, list ∈ keyHeads p.1
  devPool : ∀ dev ∈ devs, dev ∈ layout.block .device
  tabledKeys : ∀ key ∈ tabled, ∃ p ∈ keys, p.1 = key
  keyPool : ∀ p ∈ keys, p.1 ∈ layout.block .key ∧ p.2 ∈ layout.block .keyDev
  lookupPool : lookup ∈ layout.block .keyId
  usagePool : ∀ usage ∈ usages, usage ∈ layout.block .keyUsage
  records : ∀ p ∈ keys, sys.keys p.1 = keyRecord p.1 [lookup] [p.2] usages

variable {layout} {sys sys' : MacSys σ} {lookup : Nat} {usages devs tabled : List Nat}
  {keys : List (Nat × Nat)} {s : Nat → List Nat} {index : UInt8}

/-- The lists by the pool of their items. -/
theorem TablesHold.pool (tables : TablesHold layout lookup usages sys devs tabled keys s)
    {list item : Nat} (linked : item ∈ s list)
    : list = layout.head .device ∧ item ∈ layout.block .device
      ∨ list = layout.head .key ∧ item ∈ layout.block .key
      ∨ s list = [lookup] ∧ item ∈ layout.block .keyId
      ∨ (∃ p ∈ keys, s list = [p.2]) ∧ item ∈ layout.block .keyDev
      ∨ s list = usages ∧ item ∈ layout.block .keyUsage := by
  rcases tables.only list (List.ne_nil_of_mem linked) with rfl | rfl | ⟨p, inside, inKey⟩
  · rw [tables.devTable] at linked
    exact .inl ⟨rfl, tables.devPool item linked⟩
  · rw [tables.keyTable] at linked
    obtain ⟨p, inside, rfl⟩ := tables.tabledKeys item linked
    exact .inr (.inl ⟨rfl, (tables.keyPool p inside).1⟩)
  · obtain ⟨q, inLists, rfl⟩ := (keyHeads_iff p.1 [lookup] [p.2] usages).mp inKey
    have contents := tables.lists p inside q inLists
    rw [contents] at linked ⊢
    simp only [SecDesc.lists, List.mem_cons, List.not_mem_nil, or_false] at inLists
    rcases inLists with rfl | rfl | rfl
    · exact .inr (.inr (.inl ⟨rfl, List.mem_singleton.mp linked ▸ tables.lookupPool⟩))
    · exact .inr (.inr (.inr (.inl ⟨⟨p, inside, rfl⟩,
        List.mem_singleton.mp linked ▸ (tables.keyPool p inside).2⟩)))
    · exact .inr (.inr (.inr (.inr ⟨rfl, tables.usagePool item linked⟩)))

/-- The list of an item, by the pool it belongs to. -/
theorem TablesHold.of_pool (tables : TablesHold layout lookup usages sys devs tabled keys s)
    {list item : Nat} (mem : MacMem) (inPool : item ∈ layout.block mem) (linked : item ∈ s list)
    : match mem with
      | .device => list = layout.head .device
      | .key => list = layout.head .key
      | .keyId => s list = [lookup]
      | .keyDev => ∃ p ∈ keys, s list = [p.2]
      | .keyUsage => s list = usages
      | .secLvl => False := by
  have same {mem' : MacMem} (inPool' : item ∈ layout.block mem') : mem' = mem :=
    layout.pools_apart _ _ item inPool' inPool
  rcases tables.pool linked with ⟨h, at'⟩ | ⟨h, at'⟩ | ⟨h, at'⟩ | ⟨h, at'⟩ | ⟨h, at'⟩ <;>
    (cases same at'; exact h)

theorem TablesHold.unshared_device
    (tables : TablesHold layout lookup usages sys devs tabled keys s)
    : Unshared s (layout.head .device) := by
  intro other different dev inTable inOther
  rw [tables.devTable] at inTable
  exact different (tables.of_pool .device (tables.devPool dev inTable) inOther)

theorem TablesHold.unshared_key (tables : TablesHold layout lookup usages sys devs tabled keys s)
    : Unshared s (layout.head .key) := by
  intro other different key inTable inOther
  rw [tables.keyTable] at inTable
  obtain ⟨p, inside, rfl⟩ := tables.tabledKeys key inTable
  exact different (tables.of_pool .key (tables.keyPool p inside).1 inOther)

theorem TablesHold.loose_device (tables : TablesHold layout lookup usages sys devs tabled keys s)
    {dev : Nat} (inPool : dev ∈ layout.block .device) (new : dev ∉ devs)
    : ∀ list, dev ∉ s list := by
  intro list linked
  have here : list = layout.head .device := tables.of_pool .device inPool linked
  rw [here, tables.devTable] at linked
  exact new linked

theorem TablesHold.loose_key (tables : TablesHold layout lookup usages sys devs tabled keys s)
    {key : Nat} (inPool : key ∈ layout.block .key) (new : key ∉ tabled)
    : ∀ list, key ∉ s list := by
  intro list linked
  have here : list = layout.head .key := tables.of_pool .key inPool linked
  rw [here, tables.keyTable] at linked
  exact new linked

omit [MacSecLib σ] in
/-- The lists of a key are not those of the tables. -/
theorem head_not_mem_keyHeads {key : Nat} (inPool : key ∈ layout.block .key) (table : SecTable)
    : layout.head table ∉ keyHeads key := by
  intro inKey
  have apart := layout.heads_apart _ (layout.head_mem table) key inPool
  simp only [keyHeads, List.mem_cons, List.not_mem_nil, or_false, keyIdLookupListOffset,
    keyDeviceListOffset, keyUsageListOffset] at inKey
  simp only [sizeofKeyDesc] at apart
  omega

theorem keyHeads_of_lists {key : Nat} {lookups devices usages : List Nat} {q : Nat × List Nat}
    (inLists : q ∈ (SecDesc.key key lookups devices usages).lists)
    : q.1 ∈ keyHeads key :=
  (keyHeads_iff key lookups devices usages).mpr ⟨q, inLists, rfl⟩

theorem TablesHold.lists_ne_head
    (tables : TablesHold layout lookup usages sys devs tabled keys s) {p : Nat × Nat}
    (inside : p ∈ keys) {q : Nat × List Nat}
    (inLists : q ∈ (SecDesc.key p.1 [lookup] [p.2] usages).lists) (table : SecTable)
    : q.1 ≠ layout.head table := by
  intro same
  exact head_not_mem_keyHeads (tables.keyPool p inside).1 table (same ▸ keyHeads_of_lists inLists)

theorem key_ne_device (layout : SecLayout) : layout.head .key ≠ layout.head .device := by
  intro same
  cases layout.head_inj same

/-- The device table gets new contents. -/
theorem TablesHold.setDevices (tables : TablesHold layout lookup usages sys devs tabled keys s)
    {devs' : List Nat} (pool : ∀ dev ∈ devs', dev ∈ layout.block .device)
    (pointers : ∀ t, sys'.table t = sys.table t)
    (devEntries : (sys'.entries .device).toNat = devs'.length)
    (keyEntries : sys'.entries .key = sys.entries .key) (records : sys'.keys = sys.keys)
    (holds : Holds sys'.lists (Function.update s (layout.head .device) devs'))
    : TablesHold layout lookup usages sys' devs' tabled keys
        (Function.update s (layout.head .device) devs') where
  table t := (pointers t).trans (tables.table t)
  devEntries := devEntries
  keyEntries := keyEntries ▸ tables.keyEntries
  holds := holds
  devTable := Function.update_self ..
  keyTable := by
    rw [Function.update_of_ne (key_ne_device layout)]
    exact tables.keyTable
  lists p inside q inLists := by
    rw [Function.update_of_ne (tables.lists_ne_head inside inLists .device)]
    exact tables.lists p inside q inLists
  only list nonempty := by
    by_cases here : list = layout.head .device
    · exact .inl here
    · rw [Function.update_of_ne here] at nonempty
      exact tables.only list nonempty
  devPool := pool
  tabledKeys := tables.tabledKeys
  keyPool := tables.keyPool
  lookupPool := tables.lookupPool
  usagePool := tables.usagePool
  records p inside := records ▸ tables.records p inside

/-- The key table gets new contents. -/
theorem TablesHold.setTabled (tables : TablesHold layout lookup usages sys devs tabled keys s)
    {tabled' : List Nat} (linked : ∀ key ∈ tabled', ∃ p ∈ keys, p.1 = key)
    (pointers : ∀ t, sys'.table t = sys.table t)
    (keyEntries : (sys'.entries .key).toNat = tabled'.length)
    (devEntries : sys'.entries .device = sys.entries .device) (records : sys'.keys = sys.keys)
    (holds : Holds sys'.lists (Function.update s (layout.head .key) tabled'))
    : TablesHold layout lookup usages sys' devs tabled' keys
        (Function.update s (layout.head .key) tabled') where
  table t := (pointers t).trans (tables.table t)
  devEntries := devEntries ▸ tables.devEntries
  keyEntries := keyEntries
  holds := holds
  devTable := by
    rw [Function.update_of_ne (key_ne_device layout).symm]
    exact tables.devTable
  keyTable := Function.update_self ..
  lists p inside q inLists := by
    rw [Function.update_of_ne (tables.lists_ne_head inside inLists .key)]
    exact tables.lists p inside q inLists
  only list nonempty := by
    by_cases here : list = layout.head .key
    · exact .inr (.inl here)
    · rw [Function.update_of_ne here] at nonempty
      exact tables.only list nonempty
  devPool := tables.devPool
  tabledKeys := linked
  keyPool := tables.keyPool
  lookupPool := tables.lookupPool
  usagePool := tables.usagePool
  records p inside := records ▸ tables.records p inside

/-- Two keys have different lists. -/
theorem keyHeads_apart
    {key other list : Nat} (inPool : key ∈ layout.block .key) (inPool' : other ∈ layout.block .key)
    (different : key ≠ other) (inKey : list ∈ keyHeads key)
    : list ∉ keyHeads other := by
  intro inOther
  simp only [keyHeads, List.mem_cons, List.not_mem_nil, or_false, keyIdLookupListOffset,
    keyDeviceListOffset, keyUsageListOffset] at inKey inOther
  rcases Nat.lt_or_gt_of_ne different with low | high
  · have apart := layout.keys_apart _ inPool _ inPool' low
    simp only [sizeofKeyDesc] at apart
    omega
  · have apart := layout.keys_apart _ inPool' _ inPool high
    simp only [sizeofKeyDesc] at apart
    omega

/-- A new key links its key-device descriptor and the common materials, which other keys link
too.
-/
theorem TablesHold.linkKey (tables : TablesHold layout lookup usages sys devs tabled keys s)
    {key keyDev : Nat} (inKeys : key ∈ layout.block .key) (newKey : ∀ p ∈ keys, p.1 ≠ key)
    (inKeyDevs : keyDev ∈ layout.block .keyDev) (newKeyDev : ∀ p ∈ keys, p.2 ≠ keyDev)
    (onceUsages : usages.Nodup)
    : TablesHold layout lookup usages (macKeyDescSet sys key [lookup] [keyDev] usages) devs tabled
        (keys ++ [(key, keyDev)]) (keyLinked s key [lookup] [keyDev] usages) := by
  have apart {mem mem' : MacMem} {a a' : Nat} (inPool : a ∈ layout.block mem)
      (inPool' : a' ∈ layout.block mem') (different : mem ≠ mem') : a ≠ a' := by
    rintro rfl
    exact different (layout.pools_apart mem mem' a inPool inPool')
  have outside {p : Nat × Nat} (inside : p ∈ keys) {list : Nat} (inKey : list ∈ keyHeads p.1)
      : list ∉ keyHeads key :=
    keyHeads_apart (tables.keyPool p inside).1 inKeys (newKey p inside) inKey
  have headOutside (table : SecTable) : layout.head table ∉ keyHeads key :=
    head_not_mem_keyHeads inKeys table
  refine
    {
      table := tables.table
      devEntries := tables.devEntries
      keyEntries := tables.keyEntries
      holds := MacSecLib.keyDescSet_holds tables.holds ?_ ?_
      devTable := (keyLinked_of_not_mem (headOutside .device)).trans tables.devTable
      keyTable := (keyLinked_of_not_mem (headOutside .key)).trans tables.keyTable
      lists := ?_
      only := ?_
      devPool := tables.devPool
      tabledKeys := ?_
      keyPool := ?_
      lookupPool := tables.lookupPool
      usagePool := tables.usagePool
      records := ?_
    }
  · have lookupKeyDev := apart tables.lookupPool inKeyDevs (by decide)
    have lookupUsages : lookup ∉ usages := fun linked =>
      apart tables.lookupPool (tables.usagePool _ linked) (by decide) rfl
    have keyDevUsages : keyDev ∉ usages := fun linked =>
      apart inKeyDevs (tables.usagePool _ linked) (by decide) rfl
    simp [lookupKeyDev, lookupUsages, keyDevUsages, onceUsages]
  · intro items chosen other _
    simp only [List.mem_cons, List.not_mem_nil, or_false] at chosen
    by_cases meets : ∃ item ∈ items, item ∈ s other
    · obtain ⟨item, inItems, linked⟩ := meets
      rcases chosen with rfl | rfl | rfl
      · cases List.mem_singleton.mp inItems
        exact .inr (tables.of_pool .keyId tables.lookupPool linked)
      · cases List.mem_singleton.mp inItems
        obtain ⟨p, inside, same⟩ := tables.of_pool .keyDev inKeyDevs linked
        rw [same, List.mem_singleton] at linked
        exact absurd linked.symm (newKeyDev p inside)
      · exact .inr (tables.of_pool .keyUsage (tables.usagePool item inItems) linked)
    · exact .inl (fun item inItems linked => meets ⟨item, inItems, linked⟩)
  · intro p inside q inLists
    rcases List.mem_append.mp inside with old | new
    · rw [keyLinked_of_not_mem (outside old (keyHeads_of_lists inLists))]
      exact tables.lists p old q inLists
    · cases List.mem_singleton.mp new
      exact keyLinked_lists inLists
  · intro list nonempty
    by_cases inNew : list ∈ keyHeads key
    · exact .inr (.inr ⟨(key, keyDev), by simp, inNew⟩)
    · rw [keyLinked_of_not_mem inNew] at nonempty
      refine (tables.only list nonempty).imp id (Or.imp id ?_)
      rintro ⟨p, inside, inKey⟩
      exact ⟨p, List.mem_append_left _ inside, inKey⟩
  · intro k listed
    obtain ⟨p, inside, same⟩ := tables.tabledKeys k listed
    exact ⟨p, List.mem_append_left _ inside, same⟩
  · intro p inside
    rcases List.mem_append.mp inside with old | new
    · exact tables.keyPool p old
    · cases List.mem_singleton.mp new
      exact ⟨inKeys, inKeyDevs⟩
  · intro p inside
    rcases List.mem_append.mp inside with old | new
    · exact (Function.update_of_ne (newKey p old) _ _).trans (tables.records p old)
    · cases List.mem_singleton.mp new
      exact Function.update_self ..

-----------------------------------------------------------------------------------------
-- Entries of the tables
-----------------------------------------------------------------------------------------

theorem attrStoreItem_table (sys : MacSys σ) (table : SecTable) (item : Nat) (index : UInt8)
    : attrStoreItem sys table.attr item index
      = (attrSetTable sys table item index).map Prod.snd := by
  rw [attrStoreItem, tlZbMacAttrSet_table, Option.map_map]
  rfl

/-- The pools and the records of the keys are the same. -/
structure SamePools (sys sys' : MacSys σ) : Prop where
  allocated : sys'.allocated = sys.allocated
  freed : sys'.freed = sys.freed
  strayFrees : sys'.strayFrees = sys.strayFrees

/-- A device descriptor is appended to the device table. -/
theorem TablesHold.addDevice (tables : TablesHold layout lookup usages sys devs tabled keys s)
    {dev : Nat} (inPool : dev ∈ layout.block .device) (new : dev ∉ devs)
    (atEnd : index.toNat = devs.length) (short : devs.length < 255)
    : ∃ sys',
        attrStoreItem sys macDeviceTable dev index = some sys'
        ∧ TablesHold layout lookup usages sys' (devs ++ [dev]) tabled keys
            (Function.update s (layout.head .device) (devs ++ [dev]))
        ∧ SamePools sys sys' := by
  have same : index = sys.entries .device :=
    UInt8.toNat_inj.mp (atEnd.trans tables.devEntries.symm)
  have stored : attrStoreItem sys macDeviceTable dev index = _ :=
    (attrStoreItem_table sys .device dev index).trans
      (congrArg _ (attrSetTable_append same))
  refine ⟨_, stored, ?_, rfl, rfl, rfl⟩
  have added := add_holds (layout.head .device) tables.holds tables.unshared_device
    (tables.loose_device inPool new)
  rw [tables.devTable] at added
  refine tables.setDevices ?_ (fun t => setEntries_table _ _ t _) ?_
    (setEntries_other _ (by decide) _) rfl ?_
  · intro dev' inside
    rcases List.mem_append.mp inside with old | here
    · exact tables.devPool dev' old
    · exact List.mem_singleton.mp here ▸ inPool
  · rw [setEntries_entries, UInt8.toNat_add, tables.devEntries, List.length_append,
      List.length_singleton]
    simp only [UInt8.reduceToNat]
    omega
  · rw [tables.table]
    exact added

/-- A linked key is appended to the key table. -/
theorem TablesHold.addKey (tables : TablesHold layout lookup usages sys devs tabled keys s)
    {p : Nat × Nat} (linked : p ∈ keys) (new : p.1 ∉ tabled)
    (atEnd : index.toNat = tabled.length) (short : tabled.length < 255)
    : ∃ sys',
        attrStoreItem sys macKeyTable p.1 index = some sys'
        ∧ TablesHold layout lookup usages sys' devs (tabled ++ [p.1]) keys
            (Function.update s (layout.head .key) (tabled ++ [p.1]))
        ∧ SamePools sys sys' := by
  have same : index = sys.entries .key :=
    UInt8.toNat_inj.mp (atEnd.trans tables.keyEntries.symm)
  have stored : attrStoreItem sys macKeyTable p.1 index = _ :=
    (attrStoreItem_table sys .key p.1 index).trans
      (congrArg _ (attrSetTable_append same))
  refine ⟨_, stored, ?_, rfl, rfl, rfl⟩
  have added := add_holds (layout.head .key) tables.holds tables.unshared_key
    (tables.loose_key (tables.keyPool p linked).1 new)
  rw [tables.keyTable] at added
  refine tables.setTabled ?_ (fun t => setEntries_table _ _ t _) ?_
    (setEntries_other _ (by decide) _) rfl ?_
  · intro key inside
    rcases List.mem_append.mp inside with old | here
    · exact tables.tabledKeys key old
    · exact ⟨p, linked, (List.mem_singleton.mp here).symm⟩
  · rw [setEntries_entries, UInt8.toNat_add, tables.keyEntries, List.length_append,
      List.length_singleton]
    simp only [UInt8.reduceToNat]
    omega
  · rw [tables.table]
    exact added

omit [MacSecLib σ] in
/-- Allocation finds a block that is not in use when the pool is not used up. -/
theorem macSecMaterialAlloc_some (layout : SecLayout) (sys : MacSys σ) (mem : MacMem)
    (used : List Nat) (covers : ∀ a ∈ sys.allocated mem, a ∈ used) (few : used.length < mem.num)
    : ∃ a, macSecMaterialAlloc layout lib sys mem = some (a, sys.take mem a)
        ∧ a ∈ layout.block mem ∧ a ∉ sys.allocated mem := by
  cases found : lib.pick (layout.block mem) (sys.allocated mem) with
  | some a =>
      refine ⟨a, ?_, lib.pick_free found⟩
      rw [macSecMaterialAlloc, found]
      rfl
  | none =>
      have full : layout.block mem ⊆ used := by
        intro a inside
        apply covers
        by_contra unused
        have some := lib.pick_finds inside unused
        rw [found] at some
        cases some
      have count := (layout.block_nodup mem).length_le_of_subset full
      rw [layout.block_length] at count
      omega

theorem TablesHold.take (tables : TablesHold layout lookup usages sys devs tabled keys s)
    (mem : MacMem) (item : Nat)
    : TablesHold layout lookup usages (sys.take mem item) devs tabled keys s where
  table := tables.table
  devEntries := tables.devEntries
  keyEntries := tables.keyEntries
  holds := tables.holds
  devTable := tables.devTable
  keyTable := tables.keyTable
  lists := tables.lists
  only := tables.only
  devPool := tables.devPool
  tabledKeys := tables.tabledKeys
  keyPool := tables.keyPool
  lookupPool := tables.lookupPool
  usagePool := tables.usagePool
  records := tables.records

/-- The blocks in use of the three pools that `add_key_material` allocates from. -/
structure InUse (sys : MacSys σ) (devs : List Nat) (keys : List (Nat × Nat)) : Prop where
  device : ∀ a, a ∈ sys.allocated .device ↔ a ∈ devs
  key : ∀ a, a ∈ sys.allocated .key ↔ ∃ p ∈ keys, p.1 = a
  keyDev : ∀ a, a ∈ sys.allocated .keyDev ↔ ∃ p ∈ keys, p.2 = a

/-- The key tables of an application: every linked key is in the key table. -/
structure Installed (layout : SecLayout) (m : Material σ) (devs : List Nat)
    (keys : List (Nat × Nat)) : Prop where
  tables : ∃ s, TablesHold layout m.keyIdDesc m.keyUsgDesc m.sys devs (keys.map Prod.fst) keys s
  inUse : InUse m.sys devs keys
  onceUsages : m.keyUsgDesc.Nodup
  sameLength : keys.length = devs.length

/-- What `add_key_material` does with a new device: the descriptors it allocates, and what stays
as it was.
-/
structure Installs (m m' : Material σ) (desc : DeviceDesc) (dev key keyDev : Nat) : Prop where
  device : m'.device = Function.update m.device dev desc
  keyDevice : m'.keyDevice = Function.update m.keyDevice keyDev dev
  keyUsgDesc : m'.keyUsgDesc = m.keyUsgDesc
  keyIdDesc : m'.keyIdDesc = m.keyIdDesc

/-- A new device and its key are appended to the tables. -/
theorem installKey_append {m : Material σ} (desc : DeviceDesc) (index : UInt8)
    (installed : Installed layout m devs keys) (room : devs.length < 16)
    (atEnd : index.toNat = devs.length)
    : ∃ m' dev key keyDev,
        installKey layout lib m desc index = some m'
        ∧ Installed layout m' (devs ++ [dev]) (keys ++ [(key, keyDev)])
        ∧ Installs m m' desc dev key keyDev
        ∧ dev ∉ devs ∧ (∀ p ∈ keys, p.2 ≠ keyDev)
        ∧ m'.sys.allocated .keyId = m.sys.allocated .keyId
        ∧ m'.sys.allocated .keyUsage = m.sys.allocated .keyUsage
        ∧ m'.sys.strayFrees = m.sys.strayFrees := by
  obtain ⟨⟨s, tables⟩, inUse, onceUsages, sameLength⟩ := installed
  -- the device descriptor
  obtain ⟨dev, allocDev, inDevs, newDev⟩ := macSecMaterialAlloc_some lib layout m.sys .device
    devs (fun a => (inUse.device a).mp) room
  have newDev' : dev ∉ devs := fun inside => newDev ((inUse.device dev).mpr inside)
  obtain ⟨sys1, storeDev, tables1, pools1⟩ := (tables.take .device dev).addDevice inDevs newDev'
    atEnd (Nat.lt_trans room (by decide))
  have used1 (mem : MacMem) (different : mem ≠ .device)
      : sys1.allocated mem = m.sys.allocated mem := by
    rw [pools1.allocated, MacSys.take_other _ different]
  -- its key-device descriptor and its key
  have roomKeys : keys.length < 16 := by omega
  obtain ⟨keyDev, allocKeyDev, inKeyDevs, newKeyDev⟩ := macSecMaterialAlloc_some lib layout sys1
    .keyDev (keys.map Prod.snd)
    (fun a inside => List.mem_map.mpr ((inUse.keyDev a).mp (used1 .keyDev (by decide) ▸ inside)))
    (by rwa [List.length_map])
  rw [used1 .keyDev (by decide), inUse.keyDev] at newKeyDev
  obtain ⟨key, allocKey, inKeys, newKey⟩ := macSecMaterialAlloc_some lib layout
    (sys1.take .keyDev keyDev) .key (keys.map Prod.fst)
    (by
      intro a inside
      rw [MacSys.take_other _ (by decide), used1 .key (by decide)] at inside
      exact List.mem_map.mpr ((inUse.key a).mp inside))
    (by rwa [List.length_map])
  rw [MacSys.take_other _ (by decide), used1 .key (by decide), inUse.key] at newKey
  have newKey' : ∀ p ∈ keys, p.1 ≠ key := fun p inside same => newKey ⟨p, inside, same⟩
  have newKeyDev' : ∀ p ∈ keys, p.2 ≠ keyDev := fun p inside same => newKeyDev ⟨p, inside, same⟩
  have linked := ((tables1.take .keyDev keyDev).take .key key).linkKey inKeys newKey' inKeyDevs
    newKeyDev' onceUsages
  have notTabled : key ∉ keys.map Prod.fst := by
    intro inside
    obtain ⟨p, inKeys, same⟩ := List.mem_map.mp inside
    exact newKey' p inKeys same
  have count : devs.length = (keys.map Prod.fst).length := by rw [List.length_map, sameLength]
  obtain ⟨sys2, storeKey, tables2, pools2⟩ := linked.addKey (p := (key, keyDev)) (by simp)
    notTabled (atEnd.trans count) (by omega)
  have used2 (mem : MacMem)
      : sys2.allocated mem = ((sys1.take .keyDev keyDev).take .key key).allocated mem := by
    rw [pools2.allocated]
    rfl
  have kept (mem : MacMem) (notDevice : mem ≠ .device) (notKeyDev : mem ≠ .keyDev)
      (notKey : mem ≠ .key) : sys2.allocated mem = m.sys.allocated mem := by
    rw [used2, MacSys.take_other _ notKey, MacSys.take_other _ notKeyDev, used1 mem notDevice]
  have keyTable : keys.map Prod.fst ++ [key] = (keys ++ [(key, keyDev)]).map Prod.fst := by
    rw [List.map_append]
    rfl
  rw [keyTable] at tables2
  have result : installKey layout lib m desc index
      = some { m with
        sys := sys2
        device := Function.update m.device dev desc
        keyDevice := Function.update m.keyDevice keyDev dev } := by
    simp only [installKey, allocDev, Option.bind_some, storeDev, allocKeyDev, allocKey, storeKey,
      Option.map_some]
  refine ⟨_, dev, key, keyDev, result, ⟨⟨_, tables2⟩, ⟨?_, ?_, ?_⟩, onceUsages, ?_⟩, ⟨rfl, rfl, rfl, rfl⟩,
    newDev', newKeyDev', kept .keyId (by decide) (by decide) (by decide),
    kept .keyUsage (by decide) (by decide) (by decide), ?_⟩
  · intro a
    rw [used2, MacSys.take_other _ (by decide), MacSys.take_other _ (by decide), pools1.allocated,
      MacSys.take_allocated, List.mem_cons, inUse.device, List.mem_append, List.mem_singleton,
      or_comm]
  · intro a
    rw [used2, MacSys.take_allocated, List.mem_cons, MacSys.take_other _ (by decide),
      used1 .key (by decide), inUse.key]
    simp [or_and_right, exists_or, eq_comm, or_comm]
  · intro a
    rw [used2, MacSys.take_other _ (by decide), MacSys.take_allocated, List.mem_cons,
      used1 .keyDev (by decide), inUse.keyDev]
    simp [or_and_right, exists_or, eq_comm, or_comm]
  · rw [List.length_append, List.length_append, sameLength]
    rfl
  · exact pools2.strayFrees.trans pools1.strayFrees

-----------------------------------------------------------------------------------------
-- Replacement of the only entry
-----------------------------------------------------------------------------------------

/-- The only device descriptor is replaced and given back. -/
theorem TablesHold.replaceDevice {old : Nat}
    (tables : TablesHold layout lookup usages sys [old] tabled keys s) {dev : Nat}
    (inPool : dev ∈ layout.block .device) (new : dev ≠ old)
    : ∃ sys',
        attrStoreItem sys macDeviceTable dev 0 = some sys'
        ∧ TablesHold layout lookup usages sys' [dev] tabled keys
            (Function.update s (layout.head .device) [dev])
        ∧ GivesBack sys sys' [(.device, old)] := by
  have inList : s (layout.head .device) = [] ++ old :: [] := tables.devTable
  have place : s (sys.table .device) = [] ++ old :: [] := by
    rw [tables.table, inList]
  have below : (0 : UInt8) < sys.entries .device := by
    rw [UInt8.lt_iff_toNat_lt, tables.devEntries]
    exact Nat.one_pos
  have stored : attrStoreItem sys macDeviceTable dev 0 = _ :=
    (attrStoreItem_table sys .device dev 0).trans
      (congrArg _ (attrSetTable_replace tables.holds place rfl below))
  have replaced := replace_holds tables.holds tables.unshared_device
    (tables.loose_device inPool (by simpa using new)) inList
  refine ⟨_, stored, ?_, ?_⟩
  · refine tables.setDevices ?_ (fun t => rfl) ?_ rfl rfl ?_
    · intro dev' inside
      exact List.mem_singleton.mp inside ▸ inPool
    · exact tables.devEntries
    · rw [tables.table]
      exact replaced
  · have gives := tnMemFree_givesBack sys .device old
    exact ⟨gives.pib, gives.freed, gives.allocated, gives.noStray⟩

/-- One of two keys is given back, and its lists are empty then. -/
theorem TablesHold.dropKey {old oldDev key keyDev : Nat}
    (tables : TablesHold layout lookup usages sys devs [key] [(old, oldDev), (key, keyDev)] s)
    (new : key ≠ old) (pib : sys'.pib = sys.pib)
    (records : ∀ other, other ≠ old → sys'.keys other = sys.keys other)
    (holds : Holds sys'.lists (keyLinked s old [] [] []))
    : TablesHold layout lookup usages sys' devs [key] [(key, keyDev)]
        (keyLinked s old [] [] []) := by
  have inPool := tables.keyPool (key, keyDev) (by simp)
  have oldPool := tables.keyPool (old, oldDev) (by simp)
  refine
    {
      table := fun t => ?_
      devEntries := ?_
      keyEntries := ?_
      holds := holds
      devTable := (keyLinked_of_not_mem (head_not_mem_keyHeads oldPool.1 _)).trans tables.devTable
      keyTable := (keyLinked_of_not_mem (head_not_mem_keyHeads oldPool.1 _)).trans tables.keyTable
      lists := ?_
      only := ?_
      devPool := tables.devPool
      tabledKeys := ?_
      keyPool := ?_
      lookupPool := tables.lookupPool
      usagePool := tables.usagePool
      records := ?_
    }
  · rw [MacSys.table, pib]
    exact tables.table t
  · rw [MacSys.entries, pib]
    exact tables.devEntries
  · rw [MacSys.entries, pib]
    exact tables.keyEntries
  · intro p inside q inLists
    cases List.mem_singleton.mp inside
    rw [keyLinked_of_not_mem (keyHeads_apart inPool.1 oldPool.1 new (keyHeads_of_lists inLists))]
    exact tables.lists (key, keyDev) (by simp) q inLists
  · intro list nonempty
    by_cases inOld : list ∈ keyHeads old
    · obtain ⟨q, inLists, rfl⟩ := (keyHeads_iff old [] [] []).mp inOld
      exfalso
      apply nonempty
      rw [keyLinked_lists inLists]
      simp only [SecDesc.lists, List.mem_cons, List.not_mem_nil, or_false] at inLists
      rcases inLists with rfl | rfl | rfl <;> rfl
    · rw [keyLinked_of_not_mem inOld] at nonempty
      refine (tables.only list nonempty).imp id (Or.imp id ?_)
      rintro ⟨p, inside, inKey⟩
      rcases List.mem_cons.mp inside with rfl | rest
      · exact absurd inKey inOld
      · exact ⟨p, rest, inKey⟩
  · intro k inside
    exact ⟨(key, keyDev), by simp, (List.mem_singleton.mp inside).symm⟩
  · intro p inside
    cases List.mem_singleton.mp inside
    exact inPool
  · intro p inside
    cases List.mem_singleton.mp inside
    rw [records key new]
    exact tables.records (key, keyDev) (by simp)

/-- The only key is replaced by a linked one and given back with all that it links. -/
theorem TablesHold.replaceKey {old oldDev key keyDev : Nat}
    (tables : TablesHold layout lookup usages sys devs [old] [(old, oldDev), (key, keyDev)] s)
    (new : key ≠ old) (short : usages.length < 256)
    : ∃ sys' s',
        attrStoreItem sys macKeyTable key 0 = some sys'
        ∧ TablesHold layout lookup usages sys' devs [key] [(key, keyDev)] s'
        ∧ GivesBack sys sys' (keyBlocks old [lookup] [oldDev] usages) := by
  have inList : s (layout.head .key) = [] ++ old :: [] := tables.keyTable
  have place : s (sys.table .key) = [] ++ old :: [] := by
    rw [tables.table, inList]
  have below : (0 : UInt8) < sys.entries .key := by
    rw [UInt8.lt_iff_toNat_lt, tables.keyEntries]
    exact Nat.one_pos
  have stored : attrStoreItem sys macKeyTable key 0 = _ :=
    (attrStoreItem_table sys .key key 0).trans
      (congrArg _ (attrSetTable_replace tables.holds place rfl below))
  have inPool := (tables.keyPool (key, keyDev) (by simp)).1
  have replaced := replace_holds tables.holds tables.unshared_key
    (tables.loose_key inPool (by simpa using new)) inList
  have moved : TablesHold layout lookup usages
      { sys with
        lists := push (remove sys.lists (sys.table .key) old) (sys.table .key) key }
      devs [key] [(old, oldDev), (key, keyDev)] (Function.update s (layout.head .key) [key]) := by
    refine tables.setTabled ?_ (fun t => rfl) tables.keyEntries rfl rfl ?_
    · intro k inside
      exact ⟨(key, keyDev), by simp, (List.mem_singleton.mp inside).symm⟩
    · rw [tables.table]
      exact replaced
  have lists := moved.lists (old, oldDev) (by simp)
  simp only [SecDesc.lists, List.forall_mem_cons] at lists
  obtain ⟨gives, holds, records⟩ := macKeyFree_spec moved.holds
    (moved.records (old, oldDev) (by simp)) lists.1 lists.2.1 lists.2.2.1
    ⟨by simp, by simp, short⟩
  have dropped := moved.dropKey new gives.pib records holds
  exact ⟨_, _, stored, dropped, ⟨gives.pib, gives.freed, gives.allocated, gives.noStray⟩⟩

/-- The key of the only device is replaced, with everything that the old one links. -/
theorem installKey_replace {m : Material σ} (desc : DeviceDesc) {old oldKey oldKeyDev : Nat}
    (installed : Installed layout m [old] [(oldKey, oldKeyDev)])
    (short : m.keyUsgDesc.length < 256)
    : ∃ m' dev key keyDev,
        installKey layout lib m desc 0 = some m'
        ∧ Installed layout m' [dev] [(key, keyDev)]
        ∧ Installs m m' desc dev key keyDev
        ∧ ∀ mem a, mem ≠ .device → mem ≠ .key → mem ≠ .keyDev
          → (a ∈ m'.sys.allocated mem ↔ a ∈ m.sys.allocated mem
            ∧ (mem, a) ∉ keyBlocks oldKey [m.keyIdDesc] [oldKeyDev] m.keyUsgDesc) := by
  obtain ⟨⟨s, tables⟩, inUse, onceUsages, sameLength⟩ := installed
  -- the device descriptor
  obtain ⟨dev, allocDev, inDevs, newDev⟩ := macSecMaterialAlloc_some lib layout m.sys .device
    [old] (fun a => (inUse.device a).mp) (by simp [MacMem.num])
  have newDev' : dev ≠ old := by
    rintro rfl
    exact newDev ((inUse.device dev).mpr (List.mem_singleton_self dev))
  obtain ⟨sys1, storeDev, tables1, gives1⟩ := (tables.take .device dev).replaceDevice inDevs newDev'
  have used1 (mem : MacMem) (different : mem ≠ .device) (a : Nat)
      : a ∈ sys1.allocated mem ↔ a ∈ m.sys.allocated mem := by
    rw [gives1.allocated, MacSys.take_other _ different]
    simp [different]
  -- its key-device descriptor and its key
  obtain ⟨keyDev, allocKeyDev, inKeyDevs, newKeyDev⟩ := macSecMaterialAlloc_some lib layout sys1
    .keyDev [oldKeyDev]
    (by
      intro a inside
      rw [used1 .keyDev (by decide), inUse.keyDev] at inside
      simpa [eq_comm] using inside)
    (by simp [MacMem.num])
  rw [used1 .keyDev (by decide), inUse.keyDev] at newKeyDev
  obtain ⟨key, allocKey, inKeys, newKey⟩ := macSecMaterialAlloc_some lib layout
    (sys1.take .keyDev keyDev) .key [oldKey]
    (by
      intro a inside
      rw [MacSys.take_other _ (by decide), used1 .key (by decide), inUse.key] at inside
      simpa [eq_comm] using inside)
    (by simp [MacMem.num])
  rw [MacSys.take_other _ (by decide), used1 .key (by decide), inUse.key] at newKey
  have newKey' : ∀ p ∈ [(oldKey, oldKeyDev)], p.1 ≠ key :=
    fun p inside same => newKey ⟨p, inside, same⟩
  have newKeyDev' : ∀ p ∈ [(oldKey, oldKeyDev)], p.2 ≠ keyDev :=
    fun p inside same => newKeyDev ⟨p, inside, same⟩
  have linked := ((tables1.take .keyDev keyDev).take .key key).linkKey inKeys newKey' inKeyDevs
    newKeyDev' onceUsages
  have keyNe : key ≠ oldKey := (newKey' (oldKey, oldKeyDev) (List.mem_singleton_self _)).symm
  have keyDevNe : keyDev ≠ oldKeyDev :=
    (newKeyDev' (oldKey, oldKeyDev) (List.mem_singleton_self _)).symm
  obtain ⟨sys2, s2, storeKey, tables2, gives2⟩ := linked.replaceKey keyNe short
  have result : installKey layout lib m desc 0
      = some { m with
        sys := sys2
        device := Function.update m.device dev desc
        keyDevice := Function.update m.keyDevice keyDev dev } := by
    simp only [installKey, allocDev, Option.bind_some, storeDev, allocKeyDev, allocKey, storeKey,
      Option.map_some]
  have used2 (mem : MacMem) (a : Nat)
      : a ∈ sys2.allocated mem
        ↔ a ∈ ((sys1.take .keyDev keyDev).take .key key).allocated mem
          ∧ (mem, a) ∉ keyBlocks oldKey [m.keyIdDesc] [oldKeyDev] m.keyUsgDesc :=
    gives2.allocated mem a
  refine ⟨_, dev, key, keyDev, result, ⟨⟨s2, tables2⟩, ⟨?_, ?_, ?_⟩, onceUsages, rfl⟩,
    ⟨rfl, rfl, rfl, rfl⟩, ?_⟩
  · intro a
    rw [used2, MacSys.take_other _ (by decide), MacSys.take_other _ (by decide), gives1.allocated,
      MacSys.take_allocated, List.mem_cons, inUse.device]
    simp only [keyBlocks, List.mem_append, List.mem_map, List.mem_singleton, Prod.mk.injEq]
    grind
  · intro a
    rw [used2, MacSys.take_allocated, List.mem_cons, MacSys.take_other _ (by decide),
      used1 .key (by decide), inUse.key]
    simp only [keyBlocks, List.mem_append, List.mem_map, List.mem_singleton, Prod.mk.injEq]
    grind
  · intro a
    rw [used2, MacSys.take_other _ (by decide), MacSys.take_allocated, List.mem_cons,
      used1 .keyDev (by decide), inUse.keyDev]
    simp only [keyBlocks, List.mem_append, List.mem_map, List.mem_singleton, Prod.mk.injEq]
    grind
  · intro mem a notDevice notKey notKeyDev
    rw [used2, MacSys.take_other _ notKey, MacSys.take_other _ notKeyDev, used1 mem notDevice]

-----------------------------------------------------------------------------------------
-- Before any key is installed
-----------------------------------------------------------------------------------------

/-- A change of the PIB outside the tables. -/
structure PibOnly (sys sys' : MacSys σ) : Prop where
  table : ∀ table, sys'.table table = sys.table table
  entries : ∀ table, sys'.entries table = sys.entries table
  lists : sys'.lists = sys.lists
  keys : sys'.keys = sys.keys
  allocated : sys'.allocated = sys.allocated
  strayFrees : sys'.strayFrees = sys.strayFrees

/-- An attribute that is stored in a member apart from the tables. -/
theorem attrStore_pibOnly (sys : MacSys σ) (attr : UInt8) (bytes : List UInt8) {i : Nat}
    (entry : MacPibTbl) (access : attrSetAccess attr = some i)
    (found : zbMacPibTbl[i]? = some entry) (fits : bytes.length ≤ entry.len)
    (apart : ∀ table : SecTable, table.pointer ≠ entry.field ∧ table.entries ≠ entry.field)
    : ∃ sys', attrStore sys attr bytes = some sys' ∧ PibOnly sys sys' := by
  have inTable : entry ∈ zbMacPibTbl := List.mem_of_getElem? found
  have short : entry.len ≤ 15 := zbMacPibTbl_len entry inTable
  have len : (UInt8.ofNat bytes.length).toNat = bytes.length :=
    UInt8.toNat_ofNat_of_lt (by simp only [UInt8.size]; omega)
  have stored : attrStore sys attr bytes
      = some { sys with
        pib := pibCopy sys.pib entry.offset bytes.length (MacValue.ofBytes 0 bytes).bytes } := by
    rw [attrStore, tlZbMacAttrSet_access access, found, len]
    simp only [Option.map_some, if_neg (Nat.not_lt.mpr fits)]
  obtain ⟨⟨name, size⟩, member, named, room⟩ := zbMacPibTbl_member entry inTable
  simp only at named room
  subst named
  refine ⟨_, stored, ⟨fun table => ?_, fun table => ?_, rfl, rfl, rfl, rfl⟩⟩
  · exact (pibCopy_sameField size member (Nat.le_trans fits room) (apart table).1).le32
      table.pointer_member
  · exact (pibCopy_sameField size member (Nat.le_trans fits room) (apart table).2).byte
      table.entries_member

theorem TablesHold.pibOnly (tables : TablesHold layout lookup usages sys devs tabled keys s)
    (only : PibOnly sys sys')
    : TablesHold layout lookup usages sys' devs tabled keys s where
  table t := (only.table t).trans (tables.table t)
  devEntries := only.entries .device ▸ tables.devEntries
  keyEntries := only.entries .key ▸ tables.keyEntries
  holds := only.lists ▸ tables.holds
  devTable := tables.devTable
  keyTable := tables.keyTable
  lists := tables.lists
  only := tables.only
  devPool := tables.devPool
  tabledKeys := tables.tabledKeys
  keyPool := tables.keyPool
  lookupPool := tables.lookupPool
  usagePool := tables.usagePool
  records p inside := only.keys ▸ tables.records p inside

theorem Installed.pibOnly {m : Material σ} (installed : Installed layout m devs keys)
    (only : PibOnly m.sys sys')
    : Installed layout { m with sys := sys' } devs keys where
  tables := by
    obtain ⟨s, tables⟩ := installed.tables
    exact ⟨s, tables.pibOnly only⟩
  inUse := by
    refine ⟨fun a => ?_, fun a => ?_, fun a => ?_⟩
    · rw [only.allocated]
      exact installed.inUse.device a
    · rw [only.allocated]
      exact installed.inUse.key a
    · rw [only.allocated]
      exact installed.inUse.keyDev a
  onceUsages := installed.onceUsages
  sameLength := installed.sameLength

/-- The common materials are allocated and no key is installed yet. -/
structure Configured (layout : SecLayout) (m : Material σ) : Prop where
  installed : Installed layout m [] []
  usages : m.keyUsgDesc.length = 2
  lookupInUse : m.keyIdDesc ∈ m.sys.allocated .keyId
  usagesInUse : ∀ usage ∈ m.keyUsgDesc, usage ∈ m.sys.allocated .keyUsage
  noStray : m.sys.strayFrees = []

/-- The MAC after `mac_secMaterial_Init(1)` at boot, before anything is allocated. -/
structure SecReset (layout : SecLayout) (sys : MacSys σ) : Prop where
  table : ∀ table, sys.table table = layout.head table
  entries : ∀ table, sys.entries table = 0
  holds : Holds sys.lists (fun _ => [])
  allocated : ∀ mem, sys.allocated mem = []
  noStray : sys.strayFrees = []

theorem SecReset.pibOnly (reset : SecReset layout sys) (only : PibOnly sys sys')
    : SecReset layout sys' where
  table t := (only.table t).trans (reset.table t)
  entries t := (only.entries t).trans (reset.entries t)
  holds := only.lists ▸ reset.holds
  allocated mem := only.allocated ▸ reset.allocated mem
  noStray := only.strayFrees.trans reset.noStray

theorem macSecMaterialInit_reset (layout : SecLayout) (boot : MacSys σ)
    (noItems : Holds boot.lists (fun _ => [])) (noEntries : ∀ table, boot.entries table = 0)
    (noFrees : boot.freed = []) (noStray : boot.strayFrees = [])
    : SecReset layout (macSecMaterialInit layout boot true) := by
  have stands := macSecMaterialInit_stands layout boot noItems noEntries noFrees noStray
  exact
    {
      table := stands.table
      entries := fun t => UInt8.toNat_inj.mp (stands.entries t)
      holds := stands.holds
      allocated := fun _ => rfl
      noStray := stands.noStray
    }

/-- The pools suffice for the common materials. -/
theorem commonMaterials_configured {m : Material σ} (reset : SecReset layout m.sys)
    : ∃ m', commonMaterials layout lib m = some m' ∧ Configured layout m' := by
  obtain ⟨first, allocFirst, inFirst, -⟩ := macSecMaterialAlloc_some lib layout m.sys .keyUsage []
    (fun a inside => reset.allocated .keyUsage ▸ inside) (by decide)
  obtain ⟨second, allocSecond, inSecond, newSecond⟩ := macSecMaterialAlloc_some lib layout
    (m.sys.take .keyUsage first) .keyUsage [first]
    (fun a inside => by
      rw [MacSys.take_allocated, reset.allocated] at inside
      exact inside)
    (by simp [MacMem.num])
  obtain ⟨lookup, allocLookup, inLookup, -⟩ := macSecMaterialAlloc_some lib layout
    ((m.sys.take .keyUsage first).take .keyUsage second) .keyId []
    (fun a inside => by
      rw [MacSys.take_other _ (by decide), MacSys.take_other _ (by decide), reset.allocated]
        at inside
      exact inside)
    (by decide)
  have different : first ≠ second := by
    rintro rfl
    exact newSecond (by simp [MacSys.take_allocated])
  have result : commonMaterials layout lib m
      = some { m with
        sys := ((m.sys.take .keyUsage first).take .keyUsage second).take .keyId lookup
        keyUsgDesc := [first, second]
        keyIdDesc := lookup } := by
    simp only [commonMaterials, allocFirst, Option.bind_some, allocSecond, allocLookup,
      Option.map_some]
  have unused (mem : MacMem) (notUsage : mem ≠ .keyUsage) (notLookup : mem ≠ .keyId) (a : Nat)
      : a ∉ (((m.sys.take .keyUsage first).take .keyUsage second).take .keyId lookup).allocated
        mem := by
    rw [MacSys.take_other _ notLookup, MacSys.take_other _ notUsage,
      MacSys.take_other _ notUsage, reset.allocated]
    exact List.not_mem_nil
  have tables : TablesHold layout lookup [first, second]
      (((m.sys.take .keyUsage first).take .keyUsage second).take .keyId lookup) [] [] []
      (fun _ => []) :=
    {
      table := reset.table
      devEntries := congrArg UInt8.toNat (reset.entries .device)
      keyEntries := congrArg UInt8.toNat (reset.entries .key)
      holds := reset.holds
      devTable := rfl
      keyTable := rfl
      lists := fun p inside => by cases inside
      only := fun list nonempty => absurd rfl nonempty
      devPool := fun dev inside => by cases inside
      tabledKeys := fun key inside => by cases inside
      keyPool := fun p inside => by cases inside
      lookupPool := inLookup
      usagePool := by simp [inFirst, inSecond]
      records := fun p inside => by cases inside
    }
  refine ⟨_, result, ⟨⟨_, tables⟩, ⟨?_, ?_, ?_⟩, by simpa using different, rfl⟩, rfl, ?_, ?_,
    reset.noStray⟩
  · intro a
    simp [unused .device (by decide) (by decide) a]
  · intro a
    simp [unused .key (by decide) (by decide) a]
  · intro a
    simp [unused .keyDev (by decide) (by decide) a]
  · simp [MacSys.take_allocated]
  · intro usage inside
    rw [MacSys.take_other _ (by decide), MacSys.take_allocated, MacSys.take_allocated]
    simp only [List.mem_cons, List.not_mem_nil, or_false] at inside ⊢
    tauto

/-- A 16-bit attribute of the first block can be read. -/
theorem attrLoadWord_some (sys : MacSys σ) (attr : UInt8) (plain : macAttrPlain attr)
    (word : UInt16)
    : ∃ result, attrLoadWord sys attr word = some result := by
  obtain ⟨entry, found⟩ := macAttrPlain_entry plain
  rw [attrLoadWord, found.get_eq sys (Nor.Mem.read_length _ _ _) rfl]
  exact ⟨_, rfl⟩

end TelinkSdk
