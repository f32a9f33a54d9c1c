import TelinkSdk.Mac.SecMaterial

/-! What the loops over the lists of the security material do: the walk to an entry, the
replacement of an entry, and the release of a key with all that is linked to it.
-/

namespace TelinkSdk

open TnList

variable {σ : Type} [TnList σ] {m : σ} {s : Nat → List Nat} {list : Nat}

-----------------------------------------------------------------------------------------
-- The lists of a key
-----------------------------------------------------------------------------------------

theorem keyHeads_ne (key : Nat)
    : key + keyDeviceListOffset ≠ key + keyIdLookupListOffset
      ∧ key + keyUsageListOffset ≠ key + keyIdLookupListOffset
      ∧ key + keyUsageListOffset ≠ key + keyDeviceListOffset := by
  simp only [keyDeviceListOffset, keyIdLookupListOffset, keyUsageListOffset]
  omega

/-- The lists outside a key are not changed by linking into it. -/
theorem keyLinked_of_not_mem {key list : Nat} {lookups devices usages : List Nat}
    (outside : list ∉ keyHeads key)
    : keyLinked s key lookups devices usages list = s list := by
  simp only [keyHeads, List.mem_cons, List.not_mem_nil, or_false, not_or] at outside
  simp only [keyLinked, Function.update_of_ne outside.1, Function.update_of_ne outside.2.1,
    Function.update_of_ne outside.2.2]

theorem keyLinked_lookups (key : Nat) (lookups devices usages : List Nat)
    : keyLinked s key lookups devices usages (key + keyIdLookupListOffset) = lookups := by
  obtain ⟨first, second, third⟩ := keyHeads_ne key
  simp only [keyLinked, Function.update_of_ne second.symm, Function.update_of_ne first.symm,
    Function.update_self]

theorem keyLinked_devices (key : Nat) (lookups devices usages : List Nat)
    : keyLinked s key lookups devices usages (key + keyDeviceListOffset) = devices := by
  obtain ⟨first, second, third⟩ := keyHeads_ne key
  simp only [keyLinked, Function.update_of_ne third.symm, Function.update_self]

theorem keyLinked_usages (key : Nat) (lookups devices usages : List Nat)
    : keyLinked s key lookups devices usages (key + keyUsageListOffset) = usages := by
  simp only [keyLinked, Function.update_self]

theorem keyLinked_update_lookups (key : Nat) (lookups lookups' devices usages : List Nat)
    : Function.update (keyLinked s key lookups devices usages) (key + keyIdLookupListOffset)
        lookups'
      = keyLinked s key lookups' devices usages := by
  obtain ⟨first, second, third⟩ := keyHeads_ne key
  rw [keyLinked, Function.update_comm second, Function.update_comm first, Function.update_idem]
  rfl

theorem keyLinked_update_devices (key : Nat) (lookups devices devices' usages : List Nat)
    : Function.update (keyLinked s key lookups devices usages) (key + keyDeviceListOffset) devices'
      = keyLinked s key lookups devices' usages := by
  obtain ⟨first, second, third⟩ := keyHeads_ne key
  rw [keyLinked, Function.update_comm third, Function.update_idem]
  rfl

theorem keyLinked_update_usages (key : Nat) (lookups devices usages usages' : List Nat)
    : Function.update (keyLinked s key lookups devices usages) (key + keyUsageListOffset) usages'
      = keyLinked s key lookups devices usages' := by
  rw [keyLinked, Function.update_idem]
  rfl

/-- Linking one list of a key, when the items are in no other list of the key. -/
theorem ListMem.link_key {m : ListMem} {key : Nat} (list : Nat)
    {items lookups devices usages : List Nat}
    (holding : Holding m (keyLinked s key lookups devices usages)) (once : items.Nodup)
    (inner : ∀ other ∈ keyHeads key, other ≠ list
      → ∀ item ∈ items, item ∉ keyLinked s key lookups devices usages other)
    (agrees : SharedWhole s key items)
    : Holding (m.link list items)
        (Function.update (keyLinked s key lookups devices usages) list items) := by
  apply holding.link once
  intro other different
  by_cases inside : other ∈ keyHeads key
  · exact .inl (inner other inside different)
  · rw [keyLinked_of_not_mem inside]
    exact agrees other inside

/-- The sequences keep what is asked of `mac_keyDesc_set`. -/
theorem ListMem.keyDescSet_holding {m : ListMem} {key : Nat} {lookups devices usages : List Nat}
    (holding : Holding m s) (once : (lookups ++ devices ++ usages).Nodup)
    (agrees : ∀ items ∈ [lookups, devices, usages], SharedWhole s key items)
    : Holding (m.keyDescSet key lookups devices usages)
        (keyLinked s key lookups devices usages) := by
  simp only [List.nodup_append, List.mem_append] at once
  obtain ⟨⟨onceLookups, onceDevices, apartDevices⟩, onceUsages, apartUsages⟩ := once
  have nothing (t : Nat → List Nat) (list : Nat) : t list = t list ++ [] :=
    (List.append_nil _).symm
  have cleared : Holding _ (keyLinked s key [] [] []) :=
    ((holding.shrink _ (nothing s (key + keyIdLookupListOffset))).shrink _
      (nothing _ (key + keyDeviceListOffset))).shrink _ (nothing _ (key + keyUsageListOffset))
  have heads {other : Nat} (inside : other ∈ keyHeads key)
      : other = key + keyIdLookupListOffset ∨ other = key + keyDeviceListOffset
        ∨ other = key + keyUsageListOffset := by
    simpa [keyHeads] using inside
  -- one list after the other; what is linked already has none of the next items
  have linkLookups := ListMem.link_key (key + keyIdLookupListOffset) cleared onceLookups
    (by
      intro other inside different item listed
      rcases heads inside with rfl | rfl | rfl
      · exact absurd rfl different
      · simp [keyLinked_devices]
      · simp [keyLinked_usages])
    (agrees lookups (by simp))
  rw [keyLinked_update_lookups] at linkLookups
  have linkDevices := ListMem.link_key (key + keyDeviceListOffset) linkLookups onceDevices
    (by
      intro other inside different item listed linked
      rcases heads inside with rfl | rfl | rfl
      · rw [keyLinked_lookups] at linked
        exact apartDevices item linked item listed rfl
      · exact different rfl
      · simp [keyLinked_usages] at linked)
    (agrees devices (by simp))
  rw [keyLinked_update_devices] at linkDevices
  have linkUsages := ListMem.link_key (key + keyUsageListOffset) linkDevices onceUsages
    (by
      intro other inside different item listed linked
      rcases heads inside with rfl | rfl | rfl
      · rw [keyLinked_lookups] at linked
        exact apartUsages item (.inl linked) item listed rfl
      · rw [keyLinked_devices] at linked
        exact apartUsages item (.inr linked) item listed rfl
      · exact different rfl)
    (agrees usages (by simp))
  rw [keyLinked_update_usages] at linkUsages
  exact linkUsages

instance : MacSecLib ListMem where
  keyDescSet := ListMem.keyDescSet
  keyDescSet_holds := ListMem.keyDescSet_holding

-----------------------------------------------------------------------------------------
-- Walk and replacement
-----------------------------------------------------------------------------------------

/-- The walk ends at the entry with the given number and remembers the one before. -/
theorem pibWalk_eq (holds : Holds m s) (front : List Nat) {mid after : List Nat} {item : Nat}
    (previous : Option Nat) (place : s list = front ++ (mid ++ item :: after))
    : pibWalk m mid.length previous (mid ++ item :: after).head?
      = some (mid.getLast?.or previous, some item) := by
  induction mid generalizing front previous with
  | nil => rfl
  | cons first rest ih =>
      have next : itemNext m first = (rest ++ item :: after).head? :=
        itemNext_eq list holds place
      have later : s list = (front ++ [first]) ++ (rest ++ item :: after) := by
        rw [place]
        simp
      simp only [List.length_cons, List.cons_append, List.head?_cons, pibWalk, next]
      rw [ih (front ++ [first]) (some first) later]
      cases rest with
      | nil => rfl
      | cons second others => simp [List.getLast?_cons]

/-- Walking from the head of a list. -/
theorem pibWalk_head (holds : Holds m s) {before after : List Nat} {item : Nat}
    (place : s list = before ++ item :: after)
    : pibWalk m before.length none (head m list) = some (before.getLast?, some item) := by
  have walked := pibWalk_eq holds [] none place
  rw [Option.or_none] at walked
  rw [head_eq list holds, place]
  exact walked

theorem unshared_update {items : List Nat} (unshared : Unshared s list)
    (fewer : ∀ item ∈ items, item ∈ s list)
    : Unshared (Function.update s list items) list := by
  intro other different item inside
  rw [Function.update_self] at inside
  rw [Function.update_of_ne different]
  exact unshared other different item (fewer item inside)

/-- Taking an entry out and linking another one behind the remembered one, or at the head when
there is none, replaces the entry.
-/
theorem replace_holds (holds : Holds m s) (unshared : Unshared s list) {before after : List Nat}
    {old new : Nat} (loose : ∀ other, new ∉ s other) (place : s list = before ++ old :: after)
    : Holds
        (match before.getLast? with
          | some previous => insert (remove m list old) list previous new
          | none => push (remove m list old) list new)
        (Function.update s list (before ++ new :: after)) := by
  have removed := remove_holds list holds unshared place
  have fewer : ∀ item ∈ before ++ after, item ∈ s list := by
    intro item inside
    rw [place]
    exact List.mem_append.mpr ((List.mem_append.mp inside).imp id (List.mem_cons_of_mem _))
  have unshared' := unshared_update unshared fewer
  have loose' : ∀ other, new ∉ Function.update s list (before ++ after) other := by
    intro other inside
    by_cases here : other = list
    · subst here
      rw [Function.update_self] at inside
      exact loose other (fewer new inside)
    · rw [Function.update_of_ne here] at inside
      exact loose other inside
  rcases List.eq_nil_or_concat' before with rfl | ⟨front, previous, rfl⟩
  · have pushed := push_holds list removed unshared' loose'
    rw [Function.update_idem, Function.update_self] at pushed
    exact pushed
  · have behind : Function.update s list (front ++ [previous] ++ after) list
        = front ++ previous :: after := by simp
    have inserted := insert_holds list removed unshared' behind loose'
    rw [Function.update_idem] at inserted
    simpa using inserted

/-- Reading a table gives the item at the index. -/
theorem attrGetTable_eq {sys : MacSys σ} {table : SecTable} {items : List Nat} {index : UInt8}
    (holds : Holds sys.lists s) (place : s (sys.table table) = items)
    (count : (sys.entries table).toNat = items.length)
    : attrGetTable sys table index
      = some (match items[index.toNat]? with
        | some item => (.success, some item)
        | none => (.invalidParameter, none)) := by
  have beyond : sys.entries table ≤ index ↔ items.length ≤ index.toNat := by
    rw [UInt8.le_iff_toNat_le, count]
  unfold attrGetTable
  simp only [beyond]
  rcases Nat.lt_or_ge index.toNat items.length with below | past
  · have split : items = items.take index.toNat ++ items[index.toNat] :: items.drop (index.toNat + 1) := by
      simp
    have walk := pibWalk_head holds (place.trans split)
    rw [List.length_take, Nat.min_eq_left (Nat.le_of_lt below)] at walk
    simp only [if_neg (Nat.not_le.mpr below), walk, Option.map_some,
      List.getElem?_eq_getElem below]
  · simp only [if_pos past, List.getElem?_eq_none past]

/-- Setting a table at its length appends. -/
theorem attrSetTable_append {sys : MacSys σ} {table : SecTable} {item : Nat} {index : UInt8}
    (atEnd : index = sys.entries table)
    : attrSetTable sys table item index
      = some (.success,
        ({ sys with lists := add sys.lists (sys.table table) item }).setEntries table
          (sys.entries table + 1)) := by
  have notAbove : ¬sys.entries table < index := by
    rw [atEnd]
    exact UInt8.lt_irrefl _
  simp only [attrSetTable, if_neg notAbove, if_pos atEnd]

/-- Setting a table below its length replaces an entry, which is given back. -/
theorem attrSetTable_replace {sys : MacSys σ} {table : SecTable} {item old : Nat}
    {index : UInt8} {before after : List Nat} (holds : Holds sys.lists s)
    (place : s (sys.table table) = before ++ old :: after) (number : index.toNat = before.length)
    (below : index < sys.entries table)
    : attrSetTable sys table item index
      = some (.success,
        ({ sys with
          lists :=
            match before.getLast? with
            | some previous =>
                insert (remove sys.lists (sys.table table) old) (sys.table table) previous item
            | none => push (remove sys.lists (sys.table table) old) (sys.table table) item }).freeItem
          table old) := by
  have walk := pibWalk_head holds place
  rw [← number] at walk
  have notAbove : ¬sys.entries table < index := UInt8.lt_asymm below
  have notEnd : index ≠ sys.entries table := UInt8.ne_of_lt below
  rw [attrSetTable, if_neg notAbove, if_neg notEnd]
  cases last : before.getLast? with
  | none => simp only [walk, last]
  | some previous => simp only [walk, last]

-----------------------------------------------------------------------------------------
-- Release
-----------------------------------------------------------------------------------------

/-- Blocks are given back to their pools, in this order, and the PIB stays as it is. -/
structure GivesBack (sys sys' : MacSys σ) (blocks : List (MacMem × Nat)) : Prop where
  pib : sys'.pib = sys.pib
  freed : sys'.freed = sys.freed ++ blocks.map (fun block => (block.1, some block.2))
  allocated : ∀ mem a, a ∈ sys'.allocated mem ↔ a ∈ sys.allocated mem ∧ (mem, a) ∉ blocks
  noStray : (∀ block ∈ blocks, block.2 ∈ sys.allocated block.1) → blocks.Nodup
    → sys'.strayFrees = sys.strayFrees

variable {sys sys' sys'' : MacSys σ} {blocks more : List (MacMem × Nat)}

omit [TnList σ] in
theorem GivesBack.trans (first : GivesBack sys sys' blocks) (second : GivesBack sys' sys'' more)
    : GivesBack sys sys'' (blocks ++ more) where
  pib := second.pib.trans first.pib
  freed := by rw [second.freed, first.freed, List.map_append, List.append_assoc]
  allocated mem a := by
    rw [second.allocated, first.allocated, List.mem_append, not_or, and_assoc]
  noStray inUse once := by
    obtain ⟨onceFirst, onceSecond, apart⟩ := List.nodup_append.mp once
    have left : ∀ block ∈ more, block.2 ∈ sys'.allocated block.1 := by
      intro block inside
      refine (first.allocated _ _).mpr ⟨inUse block (List.mem_append_right _ inside), ?_⟩
      intro before
      exact apart block before block inside rfl
    rw [second.noStray left onceSecond,
      first.noStray (fun block inside => inUse block (List.mem_append_left _ inside)) onceFirst]

omit [TnList σ] in
theorem tnMemFree_givesBack (sys : MacSys σ) (mem : MacMem) (item : Nat)
    : GivesBack sys (sys.tnMemFree mem (some item)) [(mem, item)] where
  pib := rfl
  freed := rfl
  allocated other a := by
    by_cases here : other = mem
    · subst here
      simp only [MacSys.tnMemFree, Function.update_self, List.mem_filter, List.mem_singleton,
        Prod.mk.injEq, true_and, decide_eq_true_eq, ne_eq, Option.some.injEq, eq_comm (a := a)]
    · simp [MacSys.tnMemFree, here]
  noStray inUse once := by
    have used : item ∈ sys.allocated mem := inUse (mem, item) (List.mem_singleton_self _)
    simp [MacSys.tnMemFree, used]

/-- A loop of `mac_key_free` empties a list and gives its items back. -/
theorem macKeyFree.loop_spec (mem : MacMem) (list : Nat) (items : List Nat) (sys : MacSys σ)
    (s : Nat → List Nat) (holds : Holds sys.lists s) (place : s list = items)
    : GivesBack sys (macKeyFree.loop mem list items.length sys) (items.map (Prod.mk mem))
      ∧ Holds (macKeyFree.loop mem list items.length sys).lists (Function.update s list [])
      ∧ (macKeyFree.loop mem list items.length sys).keys = sys.keys := by
  induction items generalizing sys s with
  | nil =>
      refine ⟨⟨rfl, by simp [macKeyFree.loop], by simp [macKeyFree.loop], fun _ _ => rfl⟩, ?_, rfl⟩
      have same : Function.update s list [] = s := by rw [← place, Function.update_eq_self]
      rw [same]
      exact holds
  | cons item rest ih =>
      obtain ⟨popped, left⟩ := pop_cons list holds place
      have step := tnMemFree_givesBack { sys with lists := (pop sys.lists list).2 } mem item
      have later := ih ({ sys with lists := (pop sys.lists list).2 }.tnMemFree mem (some item))
        (Function.update s list rest) left (Function.update_self ..)
      simp only [List.length_cons, macKeyFree.loop, popped]
      rw [Function.update_idem] at later
      refine ⟨?_, later.2⟩
      have whole := step.trans later.1
      exact ⟨whole.pib, whole.freed, whole.allocated, whole.noStray⟩

/-- The blocks of a key in the order they are given back. -/
def keyBlocks (key : Nat) (lookups devices usages : List Nat) : List (MacMem × Nat) :=
  lookups.map (Prod.mk .keyId) ++ devices.map (Prod.mk .keyDev)
    ++ usages.map (Prod.mk .keyUsage) ++ [(.key, key)]

/-- A key is given back with all that is linked to it, and its lists are empty then. -/
theorem macKeyFree_spec {key : Nat} {lookups devices usages : List Nat}
    (holds : Holds sys.lists s)
    (desc : sys.keys key = keyRecord key lookups devices usages)
    (lookupList : s (key + keyIdLookupListOffset) = lookups)
    (deviceList : s (key + keyDeviceListOffset) = devices)
    (usageList : s (key + keyUsageListOffset) = usages)
    (small : lookups.length < 256 ∧ devices.length < 256 ∧ usages.length < 256)
    : GivesBack sys (macKeyFree sys key) (keyBlocks key lookups devices usages)
      ∧ Holds (macKeyFree sys key).lists (keyLinked s key [] [] [])
      ∧ ∀ other, other ≠ key → (macKeyFree sys key).keys other = sys.keys other := by
  have counts {items : List Nat} (short : items.length < 256)
      : (UInt8.ofNat items.length).toNat = items.length :=
    UInt8.toNat_ofNat_of_lt short
  unfold macKeyFree
  rw [desc]
  simp only [keyRecord, counts small.1, counts small.2.1, counts small.2.2]
  -- the three loops, each with the lists that the ones before have left
  obtain ⟨freed, held, keys⟩ := macKeyFree.loop_spec .keyId (key + keyIdLookupListOffset)
    lookups sys s holds lookupList
  obtain ⟨freed', held', keys'⟩ := macKeyFree.loop_spec .keyDev (key + keyDeviceListOffset)
    devices _ _ held (by
      rw [Function.update_of_ne (keyHeads_ne key).1]
      exact deviceList)
  obtain ⟨freed'', held'', keys''⟩ := macKeyFree.loop_spec .keyUsage (key + keyUsageListOffset)
    usages _ _ held' (by
      rw [Function.update_of_ne (keyHeads_ne key).2.2, Function.update_of_ne (keyHeads_ne key).2.1]
      exact usageList)
  refine ⟨?_, held'', ?_⟩
  · have whole := ((freed.trans freed').trans freed'').trans (tnMemFree_givesBack _ .key key)
    exact ⟨whole.pib, whole.freed, whole.allocated, whole.noStray⟩
  · intro other different
    simp only [MacSys.tnMemFree, Function.update_of_ne different, keys'', keys', keys]

end TelinkSdk
