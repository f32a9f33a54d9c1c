import TelinkSdk.Mac.SecLists

/-! The security tables are sequences of descriptors. A descriptor belongs to the caller until it
is put into a table, and is given back with all that is linked to it when it is replaced or
deleted.
-/

namespace TelinkSdk

open TnList Links

-----------------------------------------------------------------------------------------
-- Sequences
-----------------------------------------------------------------------------------------

/-- A descriptor of one of the tables; a key with the descriptors that it links. -/
inductive SecDesc where
  | key (addr : Nat) (lookups devices usages : List Nat)
  | device (addr : Nat)
  | secLvl (addr : Nat)
  deriving DecidableEq, Repr

namespace SecDesc

def table : SecDesc → SecTable
  | .key .. => .key
  | .device _ => .device
  | .secLvl _ => .secLvl

def addr : SecDesc → Nat
  | .key addr _ _ _ => addr
  | .device addr => addr
  | .secLvl addr => addr

/-- The blocks of a descriptor with their pools. -/
def blocks : SecDesc → List (MacMem × Nat)
  | .key addr lookups devices usages => keyBlocks addr lookups devices usages
  | .device addr => [(.device, addr)]
  | .secLvl addr => [(.secLvl, addr)]

/-- The lists inside a descriptor. -/
def lists : SecDesc → List (Nat × List Nat)
  | .key addr lookups devices usages =>
      [(addr + keyIdLookupListOffset, lookups), (addr + keyDeviceListOffset, devices),
        (addr + keyUsageListOffset, usages)]
  | _ => []

end SecDesc

/-- The sequences of the tables, the descriptors that the caller has kept because the table did
not take them, and those replaced or deleted, in order.
-/
structure SecTables where
  seq : SecTable → List SecDesc
  held : List SecDesc
  gone : List SecDesc

namespace SecTables

def empty : SecTables where
  seq := fun _ => []
  held := []
  gone := []

/-- Replace an element, append at the end, refuse beyond it. -/
def set (spec : SecTables) (d : SecDesc) (index : Nat) : SecTables :=
  let items := spec.seq d.table
  if items.length < index then { spec with held := spec.held ++ [d] }
  else
    {
      seq := Function.update spec.seq d.table
        (if index = items.length then items ++ [d] else items.set index d)
      held := spec.held
      gone := spec.gone ++ items[index]?.toList
    }

def del (spec : SecTables) (table : SecTable) (index : Nat) : SecTables where
  seq := Function.update spec.seq table ((spec.seq table).eraseIdx index)
  held := spec.held
  gone := spec.gone ++ (spec.seq table)[index]?.toList

/-- Every descriptor that has not been given back. -/
def all (spec : SecTables) : List SecDesc :=
  spec.seq .key ++ spec.seq .device ++ spec.seq .secLvl ++ spec.held

end SecTables

-----------------------------------------------------------------------------------------
-- Runs
-----------------------------------------------------------------------------------------

variable {σ : Type} [MacSecLib σ] {layout : SecLayout} {sys sys' : MacSys σ} {spec : SecTables}
  {d : SecDesc} {table : SecTable} {index : UInt8}

def SecTable.attr : SecTable → UInt8
  | .key => macKeyTable
  | .device => macDeviceTable
  | .secLvl => macSecurityLevelTable

/-- The caller has the blocks of a descriptor allocated and links those of a key. -/
def SecDesc.prepare (sys : MacSys σ) (d : SecDesc) : MacSys σ :=
  let sys := { sys with
    allocated := fun mem =>
      (d.blocks.filter (fun block => block.1 = mem)).map Prod.snd ++ sys.allocated mem }
  match d with
  | .key addr lookups devices usages => macKeyDescSet sys addr lookups devices usages
  | _ => sys

/-- The blocks of a descriptor are free blocks of their pools, and no two are the same. -/
structure SecDesc.Fresh (layout : SecLayout) (sys : MacSys σ) (d : SecDesc) : Prop where
  inPools : ∀ block ∈ d.blocks, block.2 ∈ layout.block block.1
  unused : ∀ block ∈ d.blocks, block.2 ∉ sys.allocated block.1
  once : d.blocks.Nodup

/-- The value that hands over a descriptor. -/
def SecDesc.value (d : SecDesc) (bytes : Nat → UInt8) : MacValue where
  addr := d.addr
  bytes

/-- The states that calls on the three tables lead to, beside the sequences they stand for. -/
inductive SecRun (layout : SecLayout) (start : MacSys σ) : MacSys σ → SecTables → Prop where
  | start : SecRun layout start start SecTables.empty
  | set {sys : MacSys σ} {spec : SecTables} (run : SecRun layout start sys spec) (d : SecDesc)
      (bytes : Nat → UInt8) (index : UInt8) (fresh : d.Fresh layout sys) {result : AttrSet σ}
      (call : tlZbMacAttrSet (d.prepare sys) d.table.attr (d.value bytes) index = some result)
      : SecRun layout start result.sys (spec.set d index.toNat)
  | del {sys sys' : MacSys σ} {spec : SecTables} (run : SecRun layout start sys spec)
      (table : SecTable) (index : UInt8) {status : MacSts}
      (call : tlZbMacSecAttrDel sys table.attr index = some (status, sys'))
      : SecRun layout start sys' (spec.del table index.toNat)

-----------------------------------------------------------------------------------------
-- The relation between states and sequences
-----------------------------------------------------------------------------------------

/-- The lists of the library as the sequences determine them. -/
structure ListsOf (layout : SecLayout) (spec : SecTables) (s : Nat → List Nat) : Prop where
  tables : ∀ table, s (layout.head table) = (spec.seq table).map SecDesc.addr
  keys : ∀ d ∈ spec.all, ∀ p ∈ d.lists, s p.1 = p.2
  only : ∀ list, s list ≠ [] → (∃ table, list = layout.head table)
    ∨ ∃ d ∈ spec.all, ∃ p ∈ d.lists, list = p.1

/-- The descriptors are made of different blocks of the pools. -/
structure OwnBlocks (layout : SecLayout) (all : List SecDesc) : Prop where
  inPools : ∀ d ∈ all, ∀ block ∈ d.blocks, block.2 ∈ layout.block block.1
  once : (all.flatMap SecDesc.blocks).Nodup

/-- A state stands for sequences, with the lists `s` of the library. -/
structure Stands (layout : SecLayout) (sys : MacSys σ) (spec : SecTables) (s : Nat → List Nat)
    : Prop where
  table : ∀ table, sys.table table = layout.head table
  entries : ∀ table, (sys.entries table).toNat = (spec.seq table).length
  holds : Holds sys.lists s
  lists : ListsOf layout spec s
  typed : ∀ table, ∀ d ∈ spec.seq table, d.table = table
  blocks : OwnBlocks layout spec.all
  allocated : ∀ d ∈ spec.all, ∀ block ∈ d.blocks, block.2 ∈ sys.allocated block.1
  records : ∀ addr lookups devices usages, .key addr lookups devices usages ∈ spec.all
    → sys.keys addr = keyRecord addr lookups devices usages
  freed : sys.freed
    = (spec.gone.flatMap SecDesc.blocks).map (fun block => (block.1, some block.2))
  noStray : sys.strayFrees = []

variable {all all' : List SecDesc} {s s' : Nat → List Nat} {d' : SecDesc}

-----------------------------------------------------------------------------------------
-- Blocks
-----------------------------------------------------------------------------------------

theorem SecDesc.addr_mem_blocks (d : SecDesc) : (d.table.mem, d.addr) ∈ d.blocks := by
  cases d <;> simp [table, addr, blocks, keyBlocks, SecTable.mem]

/-- The items of the lists inside a descriptor are blocks of it, of pools that no table has. -/
theorem SecDesc.lists_blocks {p : Nat × List Nat} {item : Nat} (inside : p ∈ d.lists)
    (linked : item ∈ p.2)
    : ∃ mem, (mem, item) ∈ d.blocks ∧ ∀ table : SecTable, mem ≠ table.mem := by
  cases d with
  | key addr lookups devices usages =>
      simp only [lists, List.mem_cons, List.not_mem_nil, or_false] at inside
      rcases inside with rfl | rfl | rfl
      · exact ⟨.keyId, by simp [blocks, keyBlocks, linked], by rintro (_ | _ | _) <;> decide⟩
      · exact ⟨.keyDev, by simp [blocks, keyBlocks, linked], by rintro (_ | _ | _) <;> decide⟩
      · exact ⟨.keyUsage, by simp [blocks, keyBlocks, linked], by rintro (_ | _ | _) <;> decide⟩
  | device addr => simp [lists] at inside
  | secLvl addr => simp [lists] at inside

/-- A list head inside a descriptor lies in the block of a key. -/
theorem SecDesc.lists_head {p : Nat × List Nat} (inside : p ∈ d.lists)
    : d.table = .key ∧ d.addr < p.1 ∧ p.1 < d.addr + sizeofKeyDesc := by
  cases d with
  | key addr lookups devices usages =>
      simp only [lists, List.mem_cons, List.not_mem_nil, or_false] at inside
      rcases inside with rfl | rfl | rfl <;>
        simp [table, SecDesc.addr, keyIdLookupListOffset, keyDeviceListOffset,
          keyUsageListOffset, sizeofKeyDesc]
  | device addr => simp [lists] at inside
  | secLvl addr => simp [lists] at inside

theorem OwnBlocks.perm (own : OwnBlocks layout all) (same : all'.Perm all)
    : OwnBlocks layout all' where
  inPools d inside := own.inPools d (same.subset inside)
  once := (same.flatMap_right _).nodup_iff.mpr own.once

/-- Descriptors that have an address in common are the same. -/
theorem OwnBlocks.eq_of_block (own : OwnBlocks layout all) (inside : d ∈ all)
    (inside' : d' ∈ all) {mem mem' : MacMem} {a : Nat} (block : (mem, a) ∈ d.blocks)
    (block' : (mem', a) ∈ d'.blocks)
    : d = d' ∧ mem = mem' := by
  have pool : mem = mem' := layout.pools_apart mem mem' a (own.inPools d inside _ block)
    (own.inPools d' inside' _ block')
  subst pool
  refine ⟨?_, rfl⟩
  by_contra different
  obtain ⟨front, rest, rfl⟩ := List.append_of_mem inside
  have once := own.once
  simp only [List.flatMap_append, List.flatMap_cons, List.nodup_append, List.mem_append] at once
  rcases List.mem_append.mp inside' with before | here
  · exact once.2.2 _ (List.mem_flatMap.mpr ⟨d', before, block'⟩) _ (.inl block) rfl
  · rcases List.mem_cons.mp here with same | after
    · exact different same.symm
    · exact once.2.1.2.2 _ block _ (List.mem_flatMap.mpr ⟨d', after, block'⟩) rfl

theorem OwnBlocks.eq_of_addr (own : OwnBlocks layout all) (inside : d ∈ all)
    (inside' : d' ∈ all) (same : d.addr = d'.addr)
    : d = d' :=
  (own.eq_of_block inside inside' (same ▸ d.addr_mem_blocks) d'.addr_mem_blocks).1

/-- Every descriptor is there once. -/
theorem OwnBlocks.nodup (own : OwnBlocks layout all) : all.Nodup := by
  have apart := (List.nodup_flatMap.mp own.once).2
  refine apart.imp ?_
  rintro d d' disjoint rfl
  exact disjoint d.addr_mem_blocks d.addr_mem_blocks

-----------------------------------------------------------------------------------------
-- Lists
-----------------------------------------------------------------------------------------

theorem SecLayout.head_mem (layout : SecLayout) (table : SecTable)
    : layout.head table
      ∈ [layout.keyTable, layout.devTable, layout.secLvlTable, layout.keyDevTable] := by
  cases table <;> simp [head]

theorem SecLayout.head_inj (layout : SecLayout) {table other : SecTable}
    (same : layout.head table = layout.head other)
    : table = other := by
  have apart := layout.heads_nodup
  simp only [List.nodup_cons, List.mem_cons, List.not_mem_nil, not_or, or_false] at apart
  cases table <;> cases other <;> simp_all [head]

/-- The lists inside a descriptor are not those of the tables. -/
theorem SecDesc.lists_ne_head (inPools : ∀ block ∈ d.blocks, block.2 ∈ layout.block block.1)
    {p : Nat × List Nat} (inside : p ∈ d.lists) (table : SecTable)
    : p.1 ≠ layout.head table := by
  obtain ⟨isKey, above, below⟩ := lists_head inside
  have block := d.addr_mem_blocks
  rw [isKey] at block
  have apart := layout.heads_apart _ (layout.head_mem table) d.addr (inPools _ block)
  omega

/-- The lists inside two descriptors are different ones. -/
theorem SecDesc.lists_ne (inPools : ∀ block ∈ d.blocks, block.2 ∈ layout.block block.1)
    (inPools' : ∀ block ∈ d'.blocks, block.2 ∈ layout.block block.1)
    {p p' : Nat × List Nat} (inside : p ∈ d.lists) (inside' : p' ∈ d'.lists)
    (different : d.addr ≠ d'.addr)
    : p.1 ≠ p'.1 := by
  obtain ⟨isKey, above, below⟩ := lists_head inside
  obtain ⟨isKey', above', below'⟩ := lists_head inside'
  have block := d.addr_mem_blocks
  have block' := d'.addr_mem_blocks
  rw [isKey] at block
  rw [isKey'] at block'
  rcases Nat.lt_or_gt_of_ne different with low | high
  · have apart := layout.keys_apart _ (inPools _ block) _ (inPools' _ block') low
    omega
  · have apart := layout.keys_apart _ (inPools' _ block') _ (inPools _ block) high
    omega

theorem SecTables.mem_all_of_seq (inside : d ∈ spec.seq table) : d ∈ spec.all := by
  cases table <;> simp [SecTables.all, inside]

/-- Where an item of a list comes from. -/
theorem ListsOf.origin (lists : ListsOf layout spec s) {list item : Nat} (linked : item ∈ s list)
    : (∃ table, list = layout.head table ∧ ∃ d ∈ spec.seq table, item = d.addr)
      ∨ ∃ d ∈ spec.all, ∃ p ∈ d.lists, list = p.1 ∧ item ∈ p.2 := by
  rcases lists.only list (List.ne_nil_of_mem linked) with ⟨table, rfl⟩ | ⟨d, inside, p, inD, rfl⟩
  · left
    rw [lists.tables] at linked
    obtain ⟨d, inside, rfl⟩ := List.mem_map.mp linked
    exact ⟨table, rfl, d, inside, rfl⟩
  · right
    rw [lists.keys d inside p inD] at linked
    exact ⟨d, inside, p, inD, rfl, linked⟩

/-- Every item of a list is a block of some descriptor. -/
theorem ListsOf.block_of_mem (lists : ListsOf layout spec s) {list item : Nat}
    (linked : item ∈ s list)
    : ∃ d ∈ spec.all, ∃ mem, (mem, item) ∈ d.blocks := by
  rcases lists.origin linked with ⟨table, -, d, inside, rfl⟩ | ⟨d, inside, p, inD, -, inList⟩
  · exact ⟨d, SecTables.mem_all_of_seq inside, _, d.addr_mem_blocks⟩
  · obtain ⟨mem, block, -⟩ := SecDesc.lists_blocks inD inList
    exact ⟨d, inside, mem, block⟩

/-- A descriptor is in a list only when it is in a table. -/
theorem ListsOf.addr_origin (lists : ListsOf layout spec s) (own : OwnBlocks layout spec.all)
    (inside : d ∈ spec.all) {list : Nat} (linked : d.addr ∈ s list)
    : ∃ table, list = layout.head table ∧ d ∈ spec.seq table := by
  rcases lists.origin linked with
    ⟨table, place, d', inside', same⟩ | ⟨d', inside', p, inD, -, inList⟩
  · have both := own.eq_of_addr inside (SecTables.mem_all_of_seq inside') same
    exact ⟨table, place, both ▸ inside'⟩
  · obtain ⟨mem, block, notTable⟩ := SecDesc.lists_blocks inD inList
    have pool := (own.eq_of_block inside inside' d.addr_mem_blocks block).2
    exact absurd pool.symm (notTable d.table)

/-- A table shares no item with another list. -/
theorem Stands.unshared (stands : Stands layout sys spec s) (table : SecTable)
    : Unshared s (layout.head table) := by
  intro other different item inTable inOther
  rw [stands.lists.tables] at inTable
  obtain ⟨d, inside, rfl⟩ := List.mem_map.mp inTable
  obtain ⟨table', rfl, inside'⟩ := stands.lists.addr_origin stands.blocks
    (SecTables.mem_all_of_seq inside) inOther
  have same : table = table' :=
    (stands.typed table d inside).symm.trans (stands.typed table' d inside')
  exact different (same ▸ rfl)

/-- A descriptor that the caller holds is in no list. -/
theorem Stands.loose (stands : Stands layout sys spec s) (held : d ∈ spec.held)
    : ∀ list, d.addr ∉ s list := by
  intro list linked
  have inside : d ∈ spec.all := List.mem_append_right _ held
  obtain ⟨table, -, inTable⟩ := stands.lists.addr_origin stands.blocks inside linked
  have once := stands.blocks.nodup
  unfold SecTables.all at once
  refine (List.nodup_append.mp once).2.2 d ?_ d held rfl
  cases table <;> simp [inTable]

-----------------------------------------------------------------------------------------
-- A new descriptor
-----------------------------------------------------------------------------------------

/-- A fresh descriptor has no block in common with the others. -/
theorem Stands.fresh_apart (stands : Stands layout sys spec s) (fresh : d.Fresh layout sys)
    (inside : d' ∈ spec.all) {mem mem' : MacMem} {a : Nat} (block : (mem, a) ∈ d.blocks)
    : (mem', a) ∉ d'.blocks := by
  intro block'
  have pool : mem = mem' := layout.pools_apart mem mem' a (fresh.inPools _ block)
    (stands.blocks.inPools d' inside _ block')
  subst pool
  exact fresh.unused _ block (stands.allocated d' inside _ block')

theorem Stands.fresh_addr_ne (stands : Stands layout sys spec s) (fresh : d.Fresh layout sys)
    (inside : d' ∈ spec.all)
    : d'.addr ≠ d.addr := by
  intro same
  exact stands.fresh_apart fresh inside d.addr_mem_blocks (same ▸ d'.addr_mem_blocks)

/-- A block of a fresh descriptor is in no list. -/
theorem Stands.fresh_loose (stands : Stands layout sys spec s) (fresh : d.Fresh layout sys)
    {mem : MacMem} {a : Nat} (block : (mem, a) ∈ d.blocks) (list : Nat)
    : a ∉ s list := by
  intro linked
  obtain ⟨d', inside, mem', block'⟩ := stands.lists.block_of_mem linked
  exact stands.fresh_apart fresh inside block block'

omit [MacSecLib σ] in
/-- The addresses of a fresh descriptor are different. -/
theorem SecDesc.Fresh.addrs_nodup (fresh : d.Fresh layout sys)
    : (d.blocks.map Prod.snd).Nodup := by
  refine fresh.once.map_on ?_
  rintro ⟨mem, a⟩ inside ⟨mem', a'⟩ inside' same
  cases same
  exact Prod.ext (layout.pools_apart mem mem' a (fresh.inPools _ inside)
    (fresh.inPools _ inside')) rfl

omit [MacSecLib σ] in
theorem keyBlocks_addrs (key : Nat) (lookups devices usages : List Nat)
    : (keyBlocks key lookups devices usages).map Prod.snd
      = lookups ++ devices ++ usages ++ [key] := by
  simp [keyBlocks, Function.comp_def]

theorem keyLinked_lists {key : Nat} {lookups devices usages : List Nat} {p : Nat × List Nat}
    (inside : p ∈ (SecDesc.key key lookups devices usages).lists)
    : keyLinked s key lookups devices usages p.1 = p.2 := by
  simp only [SecDesc.lists, List.mem_cons, List.not_mem_nil, or_false] at inside
  rcases inside with rfl | rfl | rfl
  · exact keyLinked_lookups key lookups devices usages
  · exact keyLinked_devices key lookups devices usages
  · exact keyLinked_usages key lookups devices usages

theorem keyHeads_iff (key : Nat) (lookups devices usages : List Nat) {list : Nat}
    : list ∈ keyHeads key
      ↔ ∃ p ∈ (SecDesc.key key lookups devices usages).lists, list = p.1 := by
  simp [keyHeads, SecDesc.lists]

theorem SecDesc.prepare_pib (d : SecDesc) : (d.prepare sys).pib = sys.pib := by
  cases d <;> rfl

theorem SecDesc.prepare_freed (d : SecDesc) : (d.prepare sys).freed = sys.freed := by
  cases d <;> rfl

theorem SecDesc.prepare_strayFrees (d : SecDesc)
    : (d.prepare sys).strayFrees = sys.strayFrees := by
  cases d <;> rfl

theorem SecDesc.prepare_allocated (d : SecDesc) {mem : MacMem} {a : Nat}
    : a ∈ (d.prepare sys).allocated mem ↔ (mem, a) ∈ d.blocks ∨ a ∈ sys.allocated mem := by
  have both : (d.prepare sys).allocated mem
      = (d.blocks.filter (fun block => block.1 = mem)).map Prod.snd ++ sys.allocated mem := by
    cases d <;> rfl
  rw [both]
  simp [eq_comm]

/-- The sequences after the caller got a descriptor. -/
def SecTables.hold (spec : SecTables) (d : SecDesc) : SecTables :=
  { spec with held := spec.held ++ [d] }

theorem SecTables.hold_all (spec : SecTables) (d : SecDesc)
    : (spec.hold d).all = spec.all ++ [d] := by
  simp [hold, all]

/-- The lists of the library after the caller linked a descriptor. -/
def SecDesc.linked (s : Nat → List Nat) : SecDesc → Nat → List Nat
  | .key addr lookups devices usages => keyLinked s addr lookups devices usages
  | _ => s

theorem SecDesc.linked_of_not_mem {list : Nat} (outside : ∀ p ∈ d.lists, list ≠ p.1)
    : d.linked s list = s list := by
  cases d with
  | key addr lookups devices usages =>
      apply keyLinked_of_not_mem
      intro inside
      obtain ⟨p, inLists, same⟩ := (keyHeads_iff addr lookups devices usages).mp inside
      exact outside p inLists same
  | device addr => rfl
  | secLvl addr => rfl

theorem SecDesc.linked_lists {p : Nat × List Nat} (inside : p ∈ d.lists)
    : d.linked s p.1 = p.2 := by
  cases d with
  | key addr lookups devices usages => exact keyLinked_lists inside
  | device addr => simp [lists] at inside
  | secLvl addr => simp [lists] at inside

theorem Stands.linked_holds (stands : Stands layout sys spec s) (fresh : d.Fresh layout sys)
    : Holds (d.prepare sys).lists (d.linked s) := by
  cases d with
  | key addr lookups devices usages =>
      have once := fresh.addrs_nodup
      simp only [SecDesc.blocks, keyBlocks_addrs] at once
      refine MacSecLib.keyDescSet_holds stands.holds (List.nodup_append.mp once).1 ?_
      intro items chosen other outside
      left
      intro item inside
      have block : ∃ mem, (mem, item) ∈ (SecDesc.key addr lookups devices usages).blocks := by
        simp only [List.mem_cons, List.not_mem_nil, or_false] at chosen
        rcases chosen with rfl | rfl | rfl
        · exact ⟨.keyId, by simp [SecDesc.blocks, keyBlocks, inside]⟩
        · exact ⟨.keyDev, by simp [SecDesc.blocks, keyBlocks, inside]⟩
        · exact ⟨.keyUsage, by simp [SecDesc.blocks, keyBlocks, inside]⟩
      obtain ⟨mem, block⟩ := block
      exact stands.fresh_loose fresh block other
  | device addr => exact stands.holds
  | secLvl addr => exact stands.holds

theorem Stands.linked_lists (stands : Stands layout sys spec s) (fresh : d.Fresh layout sys)
    : ListsOf layout (spec.hold d) (d.linked s) where
  tables table := by
    rw [SecDesc.linked_of_not_mem
      (fun p inside same => SecDesc.lists_ne_head fresh.inPools inside table same.symm)]
    exact stands.lists.tables table
  keys d' inside p inLists := by
    rw [SecTables.hold_all, List.mem_append, List.mem_singleton] at inside
    rcases inside with old | rfl
    · rw [SecDesc.linked_of_not_mem (fun q inD =>
        SecDesc.lists_ne (stands.blocks.inPools d' old) fresh.inPools inLists inD
          (stands.fresh_addr_ne fresh old))]
      exact stands.lists.keys d' old p inLists
    · exact SecDesc.linked_lists inLists
  only list nonempty := by
    by_cases inNew : ∃ p ∈ d.lists, list = p.1
    · obtain ⟨p, inLists, same⟩ := inNew
      exact .inr ⟨d, by simp [SecTables.hold_all], p, inLists, same⟩
    · simp only [not_exists, not_and] at inNew
      rw [SecDesc.linked_of_not_mem inNew] at nonempty
      refine (stands.lists.only list nonempty).imp id ?_
      rintro ⟨d', inside, rest⟩
      exact ⟨d', by simp [SecTables.hold_all, inside], rest⟩

theorem SecDesc.prepare_keys {key : Nat} (different : d.addr ≠ key)
    : (d.prepare sys).keys key = sys.keys key := by
  cases d with
  | key addr lookups devices usages => exact Function.update_of_ne (Ne.symm different) _ _
  | device addr => rfl
  | secLvl addr => rfl

/-- A fresh descriptor joins those that the caller holds. -/
theorem Stands.prepare (stands : Stands layout sys spec s) (fresh : d.Fresh layout sys)
    : Stands layout (d.prepare sys) (spec.hold d) (d.linked s) where
  table table := by
    rw [MacSys.table, d.prepare_pib]
    exact stands.table table
  entries table := by
    rw [MacSys.entries, d.prepare_pib]
    exact stands.entries table
  holds := stands.linked_holds fresh
  lists := stands.linked_lists fresh
  typed := stands.typed
  blocks := by
    rw [SecTables.hold_all]
    constructor
    · intro d' inside
      rcases List.mem_append.mp inside with old | new
      · exact stands.blocks.inPools d' old
      · exact List.mem_singleton.mp new ▸ fresh.inPools
    · rw [List.flatMap_append, List.nodup_append]
      refine ⟨stands.blocks.once, by simpa using fresh.once, ?_⟩
      rintro block inOld block' inNew rfl
      obtain ⟨d', inside, inD⟩ := List.mem_flatMap.mp inOld
      rw [List.flatMap_singleton] at inNew
      exact stands.fresh_apart fresh inside inNew inD
  allocated d' inside block inD := by
    rw [SecDesc.prepare_allocated]
    rw [SecTables.hold_all, List.mem_append, List.mem_singleton] at inside
    rcases inside with old | rfl
    · exact .inr (stands.allocated d' old block inD)
    · exact .inl inD
  records addr lookups devices usages inside := by
    rw [SecTables.hold_all, List.mem_append, List.mem_singleton] at inside
    rcases inside with old | new
    · have other : d.addr ≠ addr := (stands.fresh_addr_ne fresh old).symm
      rw [SecDesc.prepare_keys other]
      exact stands.records addr lookups devices usages old
    · rw [← new]
      exact Function.update_self ..
  freed := by
    rw [d.prepare_freed]
    exact stands.freed
  noStray := by
    rw [d.prepare_strayFrees]
    exact stands.noStray

-----------------------------------------------------------------------------------------
-- Moves between a table and the caller
-----------------------------------------------------------------------------------------

/-- The elements of the other two tables. -/
def SecTables.others (spec : SecTables) : SecTable → List SecDesc
  | .key => spec.seq .device ++ spec.seq .secLvl
  | .device => spec.seq .key ++ spec.seq .secLvl
  | .secLvl => spec.seq .key ++ spec.seq .device

theorem SecTables.all_perm (spec : SecTables) (table : SecTable)
    : spec.all.Perm (spec.others table ++ (spec.seq table ++ spec.held)) := by
  rw [← List.append_assoc]
  refine List.Perm.append_right _ ?_
  cases table with
  | key => rw [List.append_assoc]; exact List.perm_append_comm
  | device =>
      simp only [others, List.append_assoc]
      exact List.Perm.append_left _ List.perm_append_comm
  | secLvl => exact List.Perm.refl _

/-- One table gets new contents, and the caller holds other descriptors. -/
def SecTables.move (spec : SecTables) (table : SecTable) (items held : List SecDesc)
    : SecTables where
  seq := Function.update spec.seq table items
  held
  gone := spec.gone

/-- A move neither makes nor loses a descriptor when the two parts together keep theirs. -/
theorem SecTables.move_perm {items held : List SecDesc}
    (same : (items ++ held).Perm (spec.seq table ++ spec.held))
    : (spec.move table items held).all.Perm spec.all := by
  have others : (spec.move table items held).others table = spec.others table := by
    cases table <;> rfl
  have seq : (spec.move table items held).seq table = items := Function.update_self ..
  calc (spec.move table items held).all
    List.Perm _ (spec.others table ++ (items ++ held)) := by
      have perm := (spec.move table items held).all_perm table
      rw [others, seq] at perm
      exact perm
    List.Perm _ (spec.others table ++ (spec.seq table ++ spec.held)) := same.append_left _
    List.Perm _ spec.all := (spec.all_perm table).symm

/-- A state stands for the sequences after a move when only the list of the table and its number
have changed.
-/
theorem Stands.move (stands : Stands layout sys spec s) {items held : List SecDesc}
    (same : (items ++ held).Perm (spec.seq table ++ spec.held))
    (typed : ∀ d ∈ items, d.table = table)
    (pointers : ∀ t, sys'.table t = sys.table t)
    (entries : (sys'.entries table).toNat = items.length)
    (otherEntries : ∀ t, t ≠ table → sys'.entries t = sys.entries t)
    (allocated : sys'.allocated = sys.allocated) (keys : sys'.keys = sys.keys)
    (freed : sys'.freed = sys.freed) (stray : sys'.strayFrees = sys.strayFrees)
    (holds : Holds sys'.lists
      (Function.update s (layout.head table) (items.map SecDesc.addr)))
    : Stands layout sys' (spec.move table items held)
        (Function.update s (layout.head table) (items.map SecDesc.addr)) := by
  have perm := SecTables.move_perm same
  have onlyTable {t : SecTable} (different : t ≠ table)
      : (spec.move table items held).seq t = spec.seq t := Function.update_of_ne different _ _
  have here : (spec.move table items held).seq table = items := Function.update_self ..
  refine
    {
      table := fun t => (pointers t).trans (stands.table t)
      entries := fun t => ?_
      holds := holds
      lists := ⟨fun t => ?_, fun d inside p inLists => ?_, fun list nonempty => ?_⟩
      typed := fun t => ?_
      blocks := stands.blocks.perm perm
      allocated := fun d inside => allocated ▸ stands.allocated d (perm.subset inside)
      records := fun addr lookups devices usages inside =>
        keys ▸ stands.records addr lookups devices usages (perm.subset inside)
      freed := freed.trans stands.freed
      noStray := stray.trans stands.noStray
    }
  · by_cases isTable : t = table
    · rw [isTable, here]
      exact entries
    · rw [onlyTable isTable, otherEntries t isTable]
      exact stands.entries t
  · by_cases isTable : t = table
    · rw [isTable, here, Function.update_self]
    · rw [onlyTable isTable,
        Function.update_of_ne (fun same => isTable (layout.head_inj same))]
      exact stands.lists.tables t
  · have old : d ∈ spec.all := perm.subset inside
    rw [Function.update_of_ne
      (SecDesc.lists_ne_head (stands.blocks.inPools d old) inLists table)]
    exact stands.lists.keys d old p inLists
  · by_cases isTable : list = layout.head table
    · exact .inl ⟨table, isTable⟩
    · rw [Function.update_of_ne isTable] at nonempty
      refine (stands.lists.only list nonempty).imp id ?_
      rintro ⟨d, inside, rest⟩
      exact ⟨d, perm.symm.subset inside, rest⟩
  · by_cases isTable : t = table
    · rw [isTable, here]
      exact typed
    · rw [onlyTable isTable]
      exact stands.typed t

-----------------------------------------------------------------------------------------
-- Giving a descriptor back
-----------------------------------------------------------------------------------------

/-- The sequences after the descriptor that the caller got last was given back. -/
def SecTables.retire (spec : SecTables) (held : List SecDesc) (d : SecDesc) : SecTables where
  seq := spec.seq
  held
  gone := spec.gone ++ [d]

/-- The lists of the library after a descriptor was given back. -/
def SecDesc.unlinked (s : Nat → List Nat) : SecDesc → Nat → List Nat
  | .key addr _ _ _ => keyLinked s addr [] [] []
  | _ => s

theorem SecDesc.unlinked_of_not_mem {list : Nat} (outside : ∀ p ∈ d.lists, list ≠ p.1)
    : d.unlinked s list = s list := by
  cases d with
  | key addr lookups devices usages =>
      apply keyLinked_of_not_mem
      intro inside
      obtain ⟨p, inLists, same⟩ := (keyHeads_iff addr lookups devices usages).mp inside
      exact outside p inLists same
  | device addr => rfl
  | secLvl addr => rfl

theorem SecDesc.unlinked_lists {p : Nat × List Nat} (inside : p ∈ d.lists)
    : d.unlinked s p.1 = [] := by
  cases d with
  | key addr lookups devices usages =>
      have head : p.1 ∈ keyHeads addr :=
        (keyHeads_iff addr lookups devices usages).mpr ⟨p, inside, rfl⟩
      obtain ⟨q, inLists, same⟩ := (keyHeads_iff addr [] [] []).mp head
      have empty : q.2 = [] := by
        simp only [lists, List.mem_cons, List.not_mem_nil, or_false] at inLists
        rcases inLists with rfl | rfl | rfl <;> rfl
      rw [same, unlinked, keyLinked_lists inLists, empty]
  | device addr => simp [lists] at inside
  | secLvl addr => simp [lists] at inside

/-- The lists inside a descriptor are no longer than its pools are large. -/
theorem Stands.parts_small (stands : Stands layout sys spec s) (mem : MacMem) {items : List Nat}
    (inside : d ∈ spec.all) (part : items.map (Prod.mk mem) <:+: d.blocks)
    : items.length < 256 := by
  have once : d.blocks.Nodup := (List.nodup_flatMap.mp stands.blocks.once).1 d inside
  have onceItems : items.Nodup := List.Nodup.of_map _ (once.sublist part.sublist)
  have inPool : items ⊆ layout.block mem := by
    intro item linked
    exact stands.blocks.inPools d inside (mem, item)
      (part.subset (List.mem_map.mpr ⟨item, linked, rfl⟩))
  have count := onceItems.length_le_of_subset inPool
  rw [layout.block_length] at count
  have large : mem.num ≤ 16 := by cases mem <;> decide
  omega

/-- A descriptor is given back with all its blocks, and its lists are empty then. -/
theorem Stands.freeItem_spec (stands : Stands layout sys spec s) (inside : d ∈ spec.all)
    : GivesBack sys (sys.freeItem d.table d.addr) d.blocks
      ∧ Holds (sys.freeItem d.table d.addr).lists (d.unlinked s)
      ∧ ∀ key, key ≠ d.addr → (sys.freeItem d.table d.addr).keys key = sys.keys key := by
  cases d with
  | device addr =>
      exact ⟨tnMemFree_givesBack sys .device addr, stands.holds, fun _ _ => rfl⟩
  | secLvl addr =>
      exact ⟨tnMemFree_givesBack sys .secLvl addr, stands.holds, fun _ _ => rfl⟩
  | key addr lookups devices usages =>
      have lists := stands.lists.keys _ inside
      simp only [SecDesc.lists, List.forall_mem_cons] at lists
      refine macKeyFree_spec stands.holds (stands.records _ _ _ _ inside) lists.1 lists.2.1
        lists.2.2.1 ⟨?_, ?_, ?_⟩
      · exact stands.parts_small .keyId inside ⟨[], devices.map (Prod.mk .keyDev)
          ++ usages.map (Prod.mk .keyUsage) ++ [(.key, addr)], by simp [SecDesc.blocks, keyBlocks]⟩
      · exact stands.parts_small .keyDev inside ⟨lookups.map (Prod.mk .keyId),
          usages.map (Prod.mk .keyUsage) ++ [(.key, addr)], by simp [SecDesc.blocks, keyBlocks]⟩
      · exact stands.parts_small .keyUsage inside ⟨lookups.map (Prod.mk .keyId)
          ++ devices.map (Prod.mk .keyDev), [(.key, addr)], rfl⟩

/-- The descriptor that the caller got last is given back. -/
theorem Stands.retire (stands : Stands layout sys spec s) {held : List SecDesc}
    (last : spec.held = held ++ [d])
    : Stands layout (sys.freeItem d.table d.addr) (spec.retire held d) (d.unlinked s) := by
  have split : spec.all = (spec.retire held d).all ++ [d] := by
    simp [SecTables.all, SecTables.retire, last]
  have inside : d ∈ spec.all := by simp [split]
  have stays {d' : SecDesc} (left : d' ∈ (spec.retire held d).all) : d' ∈ spec.all := by
    rw [split]
    exact List.mem_append_left _ left
  have once := stands.blocks.nodup
  rw [split, List.nodup_append] at once
  have different {d' : SecDesc} (left : d' ∈ (spec.retire held d).all) : d'.addr ≠ d.addr := by
    intro same
    have both := stands.blocks.eq_of_addr (stays left) inside same
    exact once.2.2 d' left d (List.mem_singleton_self d) both
  obtain ⟨gives, holds, keys⟩ := stands.freeItem_spec inside
  refine
    {
      table := fun t => ?_
      entries := fun t => ?_
      holds := holds
      lists := ⟨fun t => ?_, fun d' left p inLists => ?_, fun list nonempty => ?_⟩
      typed := stands.typed
      blocks := ⟨fun d' left => stands.blocks.inPools d' (stays left), ?_⟩
      allocated := fun d' left block inD => ?_
      records := fun addr lookups devices usages left => ?_
      freed := ?_
      noStray := ?_
    }
  · rw [MacSys.table, gives.pib]
    exact stands.table t
  · rw [MacSys.entries, gives.pib]
    exact stands.entries t
  · rw [SecDesc.unlinked_of_not_mem (fun p inLists same =>
      SecDesc.lists_ne_head (stands.blocks.inPools d inside) inLists t same.symm)]
    exact stands.lists.tables t
  · rw [SecDesc.unlinked_of_not_mem (fun q inD =>
      SecDesc.lists_ne (stands.blocks.inPools d' (stays left)) (stands.blocks.inPools d inside)
        inLists inD (different left))]
    exact stands.lists.keys d' (stays left) p inLists
  · have outside : ∀ p ∈ d.lists, list ≠ p.1 := by
      rintro p inLists rfl
      exact nonempty (SecDesc.unlinked_lists inLists)
    rw [SecDesc.unlinked_of_not_mem outside] at nonempty
    refine (stands.lists.only list nonempty).imp id ?_
    rintro ⟨d', inAll, p, inLists, rfl⟩
    rw [split, List.mem_append, List.mem_singleton] at inAll
    rcases inAll with left | rfl
    · exact ⟨d', left, p, inLists, rfl⟩
    · exact absurd rfl (outside p inLists)
  · have whole := stands.blocks.once
    rw [split, List.flatMap_append, List.nodup_append] at whole
    exact whole.1
  · refine (gives.allocated _ _).mpr ⟨stands.allocated d' (stays left) block inD, ?_⟩
    intro inOld
    have both := (stands.blocks.eq_of_block (stays left) inside inD inOld).1
    exact different left (congrArg SecDesc.addr both)
  · rw [keys addr (different left)]
    exact stands.records addr lookups devices usages (stays left)
  · rw [gives.freed, stands.freed]
    simp [SecTables.retire]
  · have onceBlocks := (List.nodup_flatMap.mp stands.blocks.once).1 d inside
    rw [gives.noStray (stands.allocated d inside) onceBlocks]
    exact stands.noStray

-----------------------------------------------------------------------------------------
-- The calls
-----------------------------------------------------------------------------------------

omit [MacSecLib σ] in
theorem setEntries_table (sys : MacSys σ) (table t : SecTable) (count : UInt8)
    : (sys.setEntries table count).table t = sys.table t := by
  have apart : t.pointer.offset + 4 ≤ table.entries.offset := by
    cases t <;> cases table <;> decide
  apply Nor.Mem.le32_congr
  intro i inside
  exact Function.update_of_ne (by omega) _ _

omit [MacSecLib σ] in
theorem setEntries_entries (sys : MacSys σ) (table : SecTable) (count : UInt8)
    : (sys.setEntries table count).entries table = count := Function.update_self ..

omit [MacSecLib σ] in
theorem setEntries_other (sys : MacSys σ) {table t : SecTable} (different : t ≠ table)
    (count : UInt8)
    : (sys.setEntries table count).entries t = sys.entries t := by
  have apart : t.entries.offset ≠ table.entries.offset := by
    cases t <;> cases table <;> first | decide | exact absurd rfl different
  exact Function.update_of_ne apart _ _

/-- A table holds no more descriptors than its pool has blocks. -/
theorem Stands.length_le (stands : Stands layout sys spec s) (table : SecTable)
    : (spec.seq table).length ≤ 16 := by
  have onceAll : (spec.all.map SecDesc.addr).Nodup :=
    stands.blocks.nodup.map_on (fun d inside d' inside' same =>
      stands.blocks.eq_of_addr inside inside' same)
  have part : (spec.seq table).Sublist spec.all := by
    have parts := List.sublist_append_left (spec.seq .key ++ spec.seq .device ++ spec.seq .secLvl)
      spec.held
    cases table with
    | key => exact (List.sublist_append_left _ _).trans ((List.sublist_append_left _ _).trans parts)
    | device =>
        exact (List.sublist_append_right _ _).trans ((List.sublist_append_left _ _).trans parts)
    | secLvl => exact (List.sublist_append_right _ _).trans parts
  have once : ((spec.seq table).map SecDesc.addr).Nodup := onceAll.sublist (part.map _)
  have inPool : (spec.seq table).map SecDesc.addr ⊆ layout.block table.mem := by
    intro a listed
    obtain ⟨d, inside, rfl⟩ := List.mem_map.mp listed
    rw [← stands.typed table d inside]
    exact stands.blocks.inPools d (SecTables.mem_all_of_seq inside) _ d.addr_mem_blocks
  have count := once.length_le_of_subset inPool
  rw [layout.block_length, List.length_map] at count
  have large : table.mem.num ≤ 16 := by cases table <;> decide
  omega

/-- A descriptor that the caller holds is linked at the end of its table. -/
theorem Stands.append (stands : Stands layout sys (spec.hold d) s)
    : Stands layout
        (({ sys with lists := TnList.add sys.lists (sys.table d.table) d.addr }).setEntries d.table
          (sys.entries d.table + 1))
        ((spec.hold d).move d.table (spec.seq d.table ++ [d]) spec.held)
        (Function.update s (layout.head d.table)
          ((spec.seq d.table ++ [d]).map SecDesc.addr)) := by
  have held : d ∈ (spec.hold d).held := by simp [SecTables.hold]
  have short := stands.length_le d.table
  have count := stands.entries d.table
  have added := add_holds (layout.head d.table) stands.holds (stands.unshared d.table)
    (stands.loose held)
  rw [stands.lists.tables] at added
  refine stands.move ?_ ?_ (fun t => setEntries_table _ _ t _) ?_
    (fun t different => setEntries_other _ different _) rfl rfl rfl rfl ?_
  · simp only [SecTables.hold, List.append_assoc]
    exact List.Perm.append_left _ List.perm_append_comm
  · intro d' inside
    rcases List.mem_append.mp inside with old | new
    · exact stands.typed d.table d' old
    · rw [List.mem_singleton.mp new]
  · rw [setEntries_entries, UInt8.toNat_add, count]
    simp only [SecTables.hold, List.length_append, List.length_singleton, UInt8.reduceToNat]
      at short ⊢
    omega
  · rw [stands.table, List.map_append]
    exact added

/-- A descriptor that the caller holds takes the place of another one. -/
theorem Stands.replace (stands : Stands layout sys (spec.hold d) s) {before after : List SecDesc}
    {old : SecDesc} (split : spec.seq d.table = before ++ old :: after)
    : Stands layout
        { sys with
          lists :=
            match (before.map SecDesc.addr).getLast? with
            | some previous =>
                TnList.insert (TnList.remove sys.lists (sys.table d.table) old.addr)
                  (sys.table d.table) previous d.addr
            | none =>
                TnList.push (TnList.remove sys.lists (sys.table d.table) old.addr)
                  (sys.table d.table) d.addr }
        ((spec.hold d).move d.table (before ++ d :: after) (spec.held ++ [old]))
        (Function.update s (layout.head d.table)
          ((before ++ d :: after).map SecDesc.addr)) := by
  have held : d ∈ (spec.hold d).held := by simp [SecTables.hold]
  have place : s (layout.head d.table)
      = before.map SecDesc.addr ++ old.addr :: after.map SecDesc.addr := by
    rw [stands.lists.tables, SecTables.hold, split, List.map_append, List.map_cons]
  have replaced := replace_holds stands.holds (stands.unshared d.table) (stands.loose held) place
  refine stands.move ?_ ?_ (fun t => rfl) ?_ (fun t different => rfl) rfl rfl rfl rfl ?_
  · rw [List.perm_iff_count]
    intro x
    simp only [SecTables.hold, split, List.count_append, List.count_cons, List.count_nil]
    omega
  · intro d' inside
    rcases List.mem_append.mp inside with front | rest
    · exact stands.typed d.table d' (by simp [SecTables.hold, split, front])
    · rcases List.mem_cons.mp rest with new | behind
      · rw [new]
      · exact stands.typed d.table d' (by simp [SecTables.hold, split, behind])
  · have count := stands.entries d.table
    simp only [SecTables.hold, split, List.length_append, List.length_cons] at count ⊢
    exact count
  · rw [stands.table, List.map_append, List.map_cons]
    exact replaced

/-- An element of a table goes to the caller. -/
theorem Stands.remove (stands : Stands layout sys spec s) {before after : List SecDesc}
    {old : SecDesc} (split : spec.seq table = before ++ old :: after)
    : Stands layout
        (({ sys with lists := TnList.remove sys.lists (sys.table table) old.addr }).setEntries table
          (sys.entries table - 1))
        (spec.move table (before ++ after) (spec.held ++ [old]))
        (Function.update s (layout.head table) ((before ++ after).map SecDesc.addr)) := by
  have place : s (layout.head table)
      = before.map SecDesc.addr ++ old.addr :: after.map SecDesc.addr := by
    rw [stands.lists.tables, split, List.map_append, List.map_cons]
  have removed := remove_holds (layout.head table) stands.holds (stands.unshared table) place
  refine stands.move ?_ ?_ (fun t => setEntries_table _ _ t _) ?_
    (fun t different => setEntries_other _ different _) rfl rfl rfl rfl ?_
  · rw [List.perm_iff_count]
    intro x
    simp only [split, List.count_append, List.count_cons, List.count_nil]
    omega
  · intro d' inside
    have listed : d' ∈ spec.seq table := by
      rw [split]
      exact List.mem_append.mpr ((List.mem_append.mp inside).imp id (List.mem_cons_of_mem _))
    exact stands.typed table d' listed
  · have count := stands.entries table
    rw [split, List.length_append, List.length_cons] at count
    have positive : 1 ≤ sys.entries table := by
      rw [UInt8.le_iff_toNat_le]
      simp only [UInt8.reduceToNat]
      omega
    rw [setEntries_entries, UInt8.toNat_sub_of_le _ _ positive, count, List.length_append]
    simp only [UInt8.reduceToNat]
    omega
  · rw [stands.table, List.map_append]
    exact removed

theorem SecTables.set_refuse {n : Nat} (above : (spec.seq d.table).length < n)
    : spec.set d n = spec.hold d := by
  rw [set, if_pos above, hold]

theorem SecTables.set_append
    : spec.set d (spec.seq d.table).length
      = (spec.hold d).move d.table (spec.seq d.table ++ [d]) spec.held := by
  simp [set, move, hold]

theorem SecTables.set_replace {before after : List SecDesc} {old : SecDesc}
    (split : spec.seq d.table = before ++ old :: after)
    : spec.set d before.length
      = ((spec.hold d).move d.table (before ++ d :: after) (spec.held ++ [old])).retire spec.held
          old := by
  simp [set, move, hold, retire, split]

theorem SecTables.del_split {before after : List SecDesc} {old : SecDesc}
    (split : spec.seq table = before ++ old :: after)
    : spec.del table before.length
      = (spec.move table (before ++ after) (spec.held ++ [old])).retire spec.held old := by
  simp [del, move, retire, split, List.eraseIdx_append_of_length_le]

theorem SecTables.del_beyond {n : Nat} (beyond : (spec.seq table).length ≤ n)
    : spec.del table n = spec := by
  simp [del, beyond, List.eraseIdx_of_length_le]

/-- A sequence splits at every index inside it. -/
theorem split_at {items : List SecDesc} {n : Nat} (below : n < items.length)
    : ∃ before old after, items = before ++ old :: after ∧ before.length = n :=
  ⟨items.take n, items[n], items.drop (n + 1), by simp, by simp; omega⟩

omit [MacSecLib σ] in
theorem tlZbMacAttrSet_table [TnList σ] (sys : MacSys σ) (table : SecTable) (value : MacValue)
    (index : UInt8)
    : tlZbMacAttrSet sys table.attr value index
      = (attrSetTable sys table value.addr index).map
        (fun result => { status := result.1, value, sys := result.2 }) := by
  cases table <;> rfl

omit [MacSecLib σ] in
theorem tlZbMacAttrGet_table [TnList σ] (sys : MacSys σ) (table : SecTable) (index : UInt8)
    : tlZbMacAttrGet sys table.attr index
      = (attrGetTable sys table index).map (fun result =>
        match result.1 with
        | .success => .item result.2
        | .invalidParameter => .invalidParameter) := by
  cases table <;> rfl

omit [MacSecLib σ] in
theorem tlZbMacSecAttrDel_table [TnList σ] (sys : MacSys σ) (table : SecTable) (index : UInt8)
    : tlZbMacSecAttrDel sys table.attr index = secAttrDelTable sys table index := by
  cases table <;> rfl

/-- A table takes a descriptor that the caller holds at every index up to its length. -/
theorem Stands.attrSetTable (stands : Stands layout sys (spec.hold d) s) (index : UInt8)
    : ∃ sys' s',
        attrSetTable sys d.table d.addr index
          = some (if (spec.seq d.table).length < index.toNat then .invalidParameter else .success,
            sys')
        ∧ ((spec.seq d.table).length < index.toNat → sys' = sys)
        ∧ Stands layout sys' (spec.set d index.toNat) s' := by
  have count : (sys.entries d.table).toNat = (spec.seq d.table).length := stands.entries d.table
  have refuse : sys.entries d.table < index ↔ (spec.seq d.table).length < index.toNat := by
    rw [UInt8.lt_iff_toNat_lt, count]
  have atEnd : index = sys.entries d.table ↔ index.toNat = (spec.seq d.table).length := by
    rw [← UInt8.toNat_inj, count]
  unfold TelinkSdk.attrSetTable
  simp only [refuse, atEnd]
  rcases Nat.lt_trichotomy (spec.seq d.table).length index.toNat with above | same | below
  · simp only [if_pos above]
    refine ⟨sys, s, rfl, fun _ => rfl, ?_⟩
    rw [SecTables.set_refuse above]
    exact stands
  · have notAbove : ¬(spec.seq d.table).length < index.toNat := by omega
    simp only [if_neg notAbove, if_pos same.symm]
    have done := stands.append
    rw [← SecTables.set_append, same] at done
    exact ⟨_, _, rfl, fun above => absurd above notAbove, done⟩
  · have notAbove : ¬(spec.seq d.table).length < index.toNat := by omega
    obtain ⟨before, old, after, split, place⟩ := split_at below
    have oldTable : old.table = d.table := stands.typed d.table old (by simp [SecTables.hold, split])
    have inList : s (sys.table d.table)
        = before.map SecDesc.addr ++ old.addr :: after.map SecDesc.addr := by
      rw [stands.table, stands.lists.tables, SecTables.hold, split, List.map_append, List.map_cons]
    have walk := pibWalk_head stands.holds inList
    rw [List.length_map, place] at walk
    simp only [if_neg notAbove, if_neg (Nat.ne_of_lt below), walk]
    have done := (stands.replace split).retire rfl
    rw [← SecTables.set_replace split, place, oldTable] at done
    exact ⟨_, _, rfl, fun above => absurd above notAbove, done⟩

/-- A table gives the descriptor at an index. -/
theorem Stands.get (stands : Stands layout sys spec s) (table : SecTable) (index : UInt8)
    : tlZbMacAttrGet sys table.attr index
      = some (match (spec.seq table)[index.toNat]? with
        | some d => .item (some d.addr)
        | none => .invalidParameter) := by
  have place : s (sys.table table) = (spec.seq table).map SecDesc.addr := by
    rw [stands.table, stands.lists.tables]
  have count : (sys.entries table).toNat = ((spec.seq table).map SecDesc.addr).length := by
    rw [List.length_map, stands.entries]
  rw [tlZbMacAttrGet_table, attrGetTable_eq stands.holds place count, List.getElem?_map]
  cases (spec.seq table)[index.toNat]? with
  | none => rfl
  | some d => rfl

/-- An element that is deleted is given back. -/
theorem Stands.del (stands : Stands layout sys spec s) (table : SecTable) (index : UInt8)
    : ∃ sys' s',
        tlZbMacSecAttrDel sys table.attr index
          = some (if (spec.seq table).length ≤ index.toNat then .invalidParameter else .success,
            sys')
        ∧ ((spec.seq table).length ≤ index.toNat → sys' = sys)
        ∧ Stands layout sys' (spec.del table index.toNat) s' := by
  have count := stands.entries table
  have beyond : sys.entries table ≤ index ↔ (spec.seq table).length ≤ index.toNat := by
    rw [UInt8.le_iff_toNat_le, count]
  rw [tlZbMacSecAttrDel_table]
  unfold secAttrDelTable
  simp only [beyond]
  rcases Nat.lt_or_ge index.toNat (spec.seq table).length with below | past
  · have notPast : ¬(spec.seq table).length ≤ index.toNat := by omega
    obtain ⟨before, old, after, split, place⟩ := split_at below
    have oldTable : old.table = table := stands.typed table old (by simp [split])
    have inList : s (sys.table table)
        = before.map SecDesc.addr ++ old.addr :: after.map SecDesc.addr := by
      rw [stands.table, stands.lists.tables, split, List.map_append, List.map_cons]
    have walk := pibWalk_head stands.holds inList
    rw [List.length_map, place] at walk
    simp only [if_neg notPast, walk]
    have done := (stands.remove split).retire rfl
    rw [← SecTables.del_split split, place, oldTable] at done
    exact ⟨_, _, rfl, fun past => absurd past notPast, done⟩
  · simp only [if_pos past]
    refine ⟨sys, s, rfl, fun _ => rfl, ?_⟩
    rw [SecTables.del_beyond past]
    exact stands

-----------------------------------------------------------------------------------------
-- Whole runs
-----------------------------------------------------------------------------------------

/-- After `mac_secMaterial_Init(1)` at boot the tables are empty sequences. -/
theorem macSecMaterialInit_stands (layout : SecLayout) (boot : MacSys σ)
    (noItems : Holds boot.lists (fun _ => [])) (noEntries : ∀ table, boot.entries table = 0)
    (noFrees : boot.freed = []) (noStray : boot.strayFrees = [])
    : Stands layout (macSecMaterialInit layout boot true) SecTables.empty (fun _ => []) := by
  have word (table : SecTable) : layout.head table < 4294967296 :=
    layout.heads_word _ (layout.head_mem table)
  have cleared (list : Nat) : Function.update (fun _ : Nat => ([] : List Nat)) list []
      = fun _ => [] := Function.update_eq_self list (fun _ => [])
  have initHolds {m : σ} (list : Nat) (empty : Holds m (fun _ => []))
      : Holds (TnList.init m list) (fun _ => []) := by
    have held := init_holds list empty
    rw [cleared] at held
    exact held
  refine
    {
      table := fun table => ?_
      entries := fun table => ?_
      holds := initHolds _ (initHolds _ (initHolds _ (initHolds _ noItems)))
      lists :=
        ⟨fun _ => rfl, fun d inside => (by cases inside), fun _ nonempty => absurd rfl nonempty⟩
      typed := fun _ d inside => by cases inside
      blocks := ⟨fun d inside => (by cases inside), List.nodup_nil⟩
      allocated := fun d inside => by cases inside
      records := fun _ _ _ _ inside => by cases inside
      freed := noFrees
      noStray := noStray
    }
  · have first : PibField.keyTable.offset + 4 ≤ PibField.devTable.offset := by decide
    have second : PibField.devTable.offset + 4 ≤ PibField.secLvlTable.offset := by decide
    cases table with
    | key =>
        have far := Nat.le_trans first (Nat.le_trans (Nat.le_add_right _ 4) second)
        exact (Ram.store32_le32_apart (.inl far)).trans
          ((Ram.store32_le32_apart (.inl first)).trans (Ram.store32_le32 (word .key)))
    | device => exact (Ram.store32_le32_apart (.inl second)).trans (Ram.store32_le32 (word .device))
    | secLvl => exact Ram.store32_le32 (word .secLvl)
  · have behind : ∀ field ∈ [PibField.keyTable, .devTable, .secLvlTable],
        field.offset + 4 ≤ table.entries.offset := by
      cases table <;> decide
    simp only [List.forall_mem_cons] at behind
    have same : (macSecMaterialInit layout boot true).entries table = boot.entries table := by
      exact (Ram.store32_outside (.inr behind.2.2.1)).trans
        ((Ram.store32_outside (.inr behind.2.1)).trans (Ram.store32_outside (.inr behind.1)))
    rw [same, noEntries]
    rfl

/-- Every state of a run stands for its sequences. -/
theorem SecRun.stands {start : MacSys σ} (run : SecRun layout start sys spec)
    (started : ∃ s, Stands layout start SecTables.empty s)
    : ∃ s, Stands layout sys spec s := by
  induction run with
  | start => exact started
  | set run d bytes index fresh call ih =>
      obtain ⟨s, stands⟩ := ih
      obtain ⟨sys', s', result, -, after⟩ := (stands.prepare fresh).attrSetTable index
      rw [tlZbMacAttrSet_table, SecDesc.value, result] at call
      cases call
      exact ⟨s', after⟩
  | del run table index call ih =>
      obtain ⟨s, stands⟩ := ih
      obtain ⟨sys', s', result, -, after⟩ := stands.del table index
      rw [result] at call
      cases call
      exact ⟨s', after⟩

/-- The tables behave as sequences in a state. -/
structure Sequences (layout : SecLayout) (sys : MacSys σ) (spec : SecTables) : Prop where
  entries : ∀ table, (sys.entries table).toNat = (spec.seq table).length
  lists : ∃ s, Holds sys.lists s
    ∧ (∀ table, s (sys.table table) = (spec.seq table).map SecDesc.addr)
    ∧ ∀ table, ∀ d ∈ spec.seq table, ∀ p ∈ d.lists, s p.1 = p.2
  set : ∀ d bytes index, SecDesc.Fresh layout sys d → ∃ sys',
    tlZbMacAttrSet (d.prepare sys) d.table.attr (d.value bytes) index
      = some
        {
          status :=
            if (spec.seq d.table).length < index.toNat then .invalidParameter else .success
          value := d.value bytes
          sys := sys'
        }
    ∧ ((spec.seq d.table).length < index.toNat → sys' = d.prepare sys)
  get : ∀ table index,
    tlZbMacAttrGet sys table.attr index
      = some (match (spec.seq table)[index.toNat]? with
        | some d => .item (some d.addr)
        | none => .invalidParameter)
  del : ∀ table index, ∃ sys',
    tlZbMacSecAttrDel sys table.attr index
      = some (if (spec.seq table).length ≤ index.toNat then .invalidParameter else .success, sys')
    ∧ ((spec.seq table).length ≤ index.toNat → sys' = sys)
  /-- What was replaced or deleted has been given back, block by block, and nothing else. -/
  freed : sys.freed
    = (spec.gone.flatMap SecDesc.blocks).map (fun block => (block.1, some block.2))
  /-- Every block was in use when it was given back. -/
  noStray : sys.strayFrees = []
  /-- No block of a descriptor in a table is free, and none is in two of them. -/
  allocated : ∀ table, ∀ d ∈ spec.seq table, ∀ block ∈ d.blocks,
    block.2 ∈ sys.allocated block.1
  once : ((spec.seq .key ++ spec.seq .device ++ spec.seq .secLvl).flatMap SecDesc.blocks).Nodup

theorem Stands.sequences (stands : Stands layout sys spec s) : Sequences layout sys spec where
  entries := stands.entries
  lists := by
    refine ⟨s, stands.holds, fun table => ?_, fun table d inside => ?_⟩
    · rw [stands.table]
      exact stands.lists.tables table
    · exact stands.lists.keys d (SecTables.mem_all_of_seq inside)
  set d bytes index fresh := by
    obtain ⟨sys', s', result, refused, -⟩ := (stands.prepare fresh).attrSetTable index
    refine ⟨sys', ?_, refused⟩
    rw [tlZbMacAttrSet_table, SecDesc.value, result]
    rfl
  get := stands.get
  del table index := by
    obtain ⟨sys', s', result, refused, -⟩ := stands.del table index
    exact ⟨sys', result, refused⟩
  freed := stands.freed
  noStray := stands.noStray
  allocated table d inside := stands.allocated d (SecTables.mem_all_of_seq inside)
  once := by
    have whole := stands.blocks.once
    rw [SecTables.all, List.flatMap_append, List.nodup_append] at whole
    exact whole.1

/-- After `mac_secMaterial_Init(1)`, over every run of calls with fresh descriptors, the tables
are the sequences that replacing, appending and deleting give.
-/
theorem secTables_are_sequences (layout : SecLayout) (boot : MacSys σ)
    (noItems : Holds boot.lists (fun _ => [])) (noEntries : ∀ table, boot.entries table = 0)
    (noFrees : boot.freed = []) (noStray : boot.strayFrees = []) {sys : MacSys σ}
    {spec : SecTables}
    (run : SecRun layout (macSecMaterialInit layout boot true) sys spec)
    : Sequences layout sys spec := by
  have started := macSecMaterialInit_stands layout boot noItems noEntries noFrees noStray
  obtain ⟨s, stands⟩ := run.stands ⟨_, started⟩
  exact stands.sequences

theorem MacSys.boot_holds : Holds MacSys.boot.lists (fun _ => []) := by
  constructor
  · rfl
  · intro list before item after place
    simp at place
  · intro list
    exact List.nodup_nil

-----------------------------------------------------------------------------------------
-- A device table that is filled, replaced in and deleted from
-----------------------------------------------------------------------------------------

namespace DeviceTable

/-- `tlZbMacAttrSet` with a device descriptor that the caller has allocated. -/
def set (sys : MacSys ListMem) (addr : Nat) (index : UInt8) : Option (AttrSet ListMem) :=
  tlZbMacAttrSet (SecDesc.prepare sys (.device addr)) SecTable.device.attr
    (SecDesc.value (.device addr) (fun _ => 0)) index

def started : MacSys ListMem := macSecMaterialInit SecLayout.paged MacSys.boot true

def first : AttrSet ListMem := (set started 0x2000 0).get (by decide +kernel)

def appended : AttrSet ListMem := (set first.sys 0x2030 1).get (by decide +kernel)

def replaced : AttrSet ListMem := (set appended.sys 0x2060 0).get (by decide +kernel)

theorem deletes : (tlZbMacSecAttrDel replaced.sys SecTable.device.attr 1).isSome := by
  decide +kernel

def deleted : MacSts × MacSys ListMem :=
  (tlZbMacSecAttrDel replaced.sys SecTable.device.attr 1).get deletes

theorem started_fresh : SecDesc.Fresh SecLayout.paged started (.device 0x2000) := by
  constructor <;> decide +kernel

theorem first_fresh : SecDesc.Fresh SecLayout.paged first.sys (.device 0x2030) := by
  constructor <;> decide +kernel

theorem appended_fresh : SecDesc.Fresh SecLayout.paged appended.sys (.device 0x2060) := by
  constructor <;> decide +kernel

def called : SecTables :=
  (((SecTables.empty.set (.device 0x2000) 0).set (.device 0x2030) 1).set (.device 0x2060) 0).del
    .device 1

theorem run : SecRun SecLayout.paged started deleted.2 called := by
  have one : SecRun SecLayout.paged started first.sys _ :=
    .set .start (.device 0x2000) (fun _ => 0) 0 started_fresh (Option.some_get _).symm
  have two : SecRun SecLayout.paged started appended.sys _ :=
    one.set (.device 0x2030) (fun _ => 0) 1 first_fresh (Option.some_get _).symm
  have three : SecRun SecLayout.paged started replaced.sys _ :=
    two.set (.device 0x2060) (fun _ => 0) 0 appended_fresh (Option.some_get _).symm
  have call : tlZbMacSecAttrDel replaced.sys SecTable.device.attr 1
      = some (deleted.1, deleted.2) := (Option.some_get deletes).symm
  exact three.del .device 1 call

end DeviceTable

/-- Two device descriptors are put in, the first is replaced by a third, the second deleted. -/
theorem secTables_are_sequences_device
    : Sequences SecLayout.paged DeviceTable.deleted.2 DeviceTable.called
        ∧ DeviceTable.called.seq .device = [.device 0x2060]
        ∧ DeviceTable.called.gone = [.device 0x2000, .device 0x2030] :=
  ⟨secTables_are_sequences SecLayout.paged MacSys.boot MacSys.boot_holds (by intro table; rfl)
    rfl rfl DeviceTable.run, by decide +kernel, by decide +kernel⟩

end TelinkSdk
