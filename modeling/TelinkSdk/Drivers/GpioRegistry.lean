import TelinkSdk.Drivers.Gpio

/-! The registry of GPIO interrupts. In every run the list in the pools is a list of at most three
pins, and the polarity register follows the calls.
-/

namespace TelinkSdk.Gpio

open EvBuffer Links LinkView Nor

-----------------------------------------------------------------------------------------
-- The list
-----------------------------------------------------------------------------------------

variable {ram : Ram} {list : Option Nat} {l : List Nat} {item : Nat}

/-- A walk ends at the first node where its test holds. -/
theorem walkUntil_find (stop : Nat → Bool) (chain : ListAt ram list l)
    (enough : l.length ≤ walkSteps)
    : ∃ previous, walkUntil ram stop walkSteps none list = some (previous, l.find? stop) := by
  have walk := walkUntil_list stop none chain enough
  rw [← List.find?_eq_head?_dropWhile_not] at walk
  exact ⟨_, walk⟩

theorem listLength_at {fuel : Nat} (chain : ListAt ram list l) (enough : l.length ≤ fuel)
    : listLength ram fuel list = some l.length := by
  induction l generalizing list fuel with
  | nil =>
      have ended : list = none := chain
      subst ended
      cases fuel <;> rfl
  | cons a rest ih =>
      obtain ⟨rfl, behind⟩ := chain
      cases fuel with
      | zero => simp at enough
      | succ fuel =>
          rw [listLength, ih behind (by simpa using enough)]
          rfl

/-- The words of two addresses do not overlap. -/
def Apart (a b : Nat) : Prop := a + 4 ≤ b ∨ b + 4 ≤ a

theorem next_store32_apart {a b value : Nat} (apart : Apart a b)
    : next (ram.store32 b value) a = next ram a :=
  congrArg pointer (Ram.store32_le32_apart apart)

/-- An item is put behind the others. Only links are written. -/
theorem listAdd_at (chain : ListAt ram list l) (enough : l.length ≤ walkSteps)
    (apart : l.Pairwise Apart) (fresh : ∀ a ∈ l, Apart a item) (positive : 0 < item)
    (small : item < 4294967296)
    : ∃ ram' list', listAdd ram list item = some (ram', list') ∧ ListAt ram' list' (l ++ [item])
      ∧ ∀ x, (∀ a ∈ l ++ [item], x < a ∨ a + 4 ≤ x) → ram' x = ram x := by
  have cleared : ListAt (ram.store32 item 0) list l :=
    Segment.congr chain (fun a among => next_store32_apart (fresh a among))
  have ended : next (ram.store32 item 0) item = none := Ram.next_store32 (by omega)
  rcases List.eq_nil_or_concat l with rfl | ⟨front, last, rfl⟩
  · have empty : list = none := chain
    subst empty
    refine ⟨ram.store32 item 0, some item, rfl, ⟨rfl, ended⟩, ?_⟩
    intro x outside
    exact Ram.store32_outside (outside item (by simp))
  · rw [List.concat_eq_append] at cleared enough apart fresh ⊢
    have walk := walkUntil_append (fun l => (next (ram.store32 item 0) l).isNone) none cleared
      enough ?_ ?_
    · refine ⟨(ram.store32 item 0).store32 last item, list, ?_, ?_, ?_⟩
      · rw [listAdd]
        simp only [walk, Option.map_some]
      · obtain ⟨r, before, here⟩ := (segment_append front _).mp cleared
        have behind : ∀ a ∈ front, Apart a last := by
          intro a among
          exact (List.pairwise_append.mp apart).2.2 a among last (by simp)
        rw [List.append_assoc]
        refine (segment_append front _).mpr ⟨r, ?_, here.1, ?_⟩
        · exact Segment.congr before (fun a among => next_store32_apart (behind a among))
        · rw [Ram.next_store32 small, pointer_of_pos positive]
          refine ⟨rfl, ?_⟩
          have kept : next ((ram.store32 item 0).store32 last item) item
              = next (ram.store32 item 0) item :=
            next_store32_apart (fresh last (by simp)).symm
          exact kept.trans ended
      · intro x outside
        rw [Ram.store32_outside (outside last (by simp)),
          Ram.store32_outside (outside item (by simp))]
    · intro a inside
      obtain ⟨before, behind, rfl⟩ := List.append_of_mem inside
      rw [List.append_assoc, List.cons_append] at cleared
      rw [ListAt.next_eq cleared]
      cases behind <;> rfl
    · rw [ListAt.next_eq cleared]
      rfl

-----------------------------------------------------------------------------------------
-- The nodes
-----------------------------------------------------------------------------------------

/-- The same pin in the same mode. -/
def GpioConf.Same (conf other : GpioConf) : Prop := conf.mode = other.mode ∧ conf.pin = other.pin

instance GpioConf.decidableSame (conf other : GpioConf) : Decidable (conf.Same other) :=
  inferInstanceAs (Decidable (_ ∧ _))

/-- The list holds the entries, each in a buffer of the pools. -/
structure Registry (layout : EvBufLayout) (port : GpioPort) (sys : EvBufSys) (list : Option Nat)
    (held : List Buffer) (entries : List (Buffer × GpioConf)) : Prop where
  pools : ∃ free, PoolState layout sys (entries.map Prod.fst ++ held) free
  sized : ∀ entry ∈ entries, entry.1.size.toNat = port.sizeofGpioConfList
  listed : ListAt sys.ram list (entries.map (fun entry => entry.1.data))
  stored : ∀ entry ∈ entries, NodeHolds port sys.ram entry.1.data entry.2
  few : entries.length ≤ gpioIrqHandlerQNum
  distinct : entries.Pairwise (fun left right => ¬ left.2.Same right.2)

variable {layout : EvBufLayout} {port : GpioPort} {sys sys' : EvBufSys}
  {held held' : List Buffer} {free : Nat → List Nat} {ram' : Ram} {conf : GpioConf}
  {entries : List (Buffer × GpioConf)} {own : Buffer}

/-- Two nodes do not overlap. -/
def NodesApart (port : GpioPort) (left right : Buffer) : Prop :=
  left.data + port.sizeofGpioConfList ≤ right.data
    ∨ right.data + port.sizeofGpioConfList ≤ left.data

theorem sizeofGpioConfList_gt (port : GpioPort) : 12 < port.sizeofGpioConfList := by
  have layout := port.sizeofGpioConfList_eq
  have some := port.enumBytes_pos
  omega

theorem NodesApart.words {left right : Buffer} (nodes : NodesApart port left right)
    : Apart left.data right.data := by
  have size := sizeofGpioConfList_gt port
  unfold NodesApart at nodes
  unfold Apart
  omega

theorem nodesApart_of_occupies {left right : Buffer}
    (disjoint : ∀ x, left.Occupies layout x → ¬ right.Occupies layout x)
    (leftSize : ∀ x, left.data ≤ x → x < left.data + port.sizeofGpioConfList →
      left.Occupies layout x)
    (rightSize : ∀ x, right.data ≤ x → x < right.data + port.sizeofGpioConfList →
      right.Occupies layout x)
    : NodesApart port left right := by
  by_contra overlap
  simp only [NodesApart, not_or, not_le] at overlap
  have inLeft := leftSize (max left.data right.data) (by omega) (by omega)
  have inRight := rightSize (max left.data right.data) (by omega) (by omega)
  exact disjoint _ inLeft inRight

namespace Registry

/-- The bytes of a node are its buffer's. -/
theorem occupies (registry : Registry layout port sys list held entries)
    {entry : Buffer × GpioConf} (member : entry ∈ entries) {x : Nat} (low : entry.1.data ≤ x)
    (high : x < entry.1.data + port.sizeofGpioConfList)
    : entry.1.Occupies layout x := by
  obtain ⟨free, state⟩ := registry.pools
  have among : entry.1 ∈ entries.map Prod.fst ++ held :=
    List.mem_append_left held (List.mem_map_of_mem member)
  exact state.occupies among low (by rw [registry.sized entry member]; exact high)

theorem apart (registry : Registry layout port sys list held entries)
    : entries.Pairwise (fun left right => NodesApart port left.1 right.1) := by
  obtain ⟨free, state⟩ := registry.pools
  have nodes := (List.pairwise_append.mp state.occupies_apart).1
  refine (List.pairwise_map.mp nodes).imp_of_mem ?_
  intro left right inLeft inRight disjoint
  exact nodesApart_of_occupies disjoint (fun x => registry.occupies inLeft)
    (fun x => registry.occupies inRight)

/-- Another node, or the same entry. -/
theorem apart_or_eq (registry : Registry layout port sys list held entries)
    {entry other : Buffer × GpioConf} (member : entry ∈ entries) (among : other ∈ entries)
    : entry = other ∨ NodesApart port entry.1 other.1 := by
  by_cases same : entry = other
  · exact .inl same
  · have symmetric : Std.Symm
        (fun left right : Buffer × GpioConf => NodesApart port left.1 right.1) :=
      ⟨fun _ _ => Or.symm⟩
    exact .inr (registry.apart.forall member among same)

/-- The pin of an entry is in no other one. -/
theorem unique (registry : Registry layout port sys list held entries)
    {entry other : Buffer × GpioConf} (member : entry ∈ entries) (among : other ∈ entries)
    (same : entry.2.Same conf) (sameOther : other.2.Same conf)
    : entry = other := by
  by_contra different
  have symmetric : Std.Symm (fun left right : Buffer × GpioConf => ¬ left.2.Same right.2) :=
    ⟨fun _ _ apart again => apart ⟨again.1.symm, again.2.symm⟩⟩
  exact registry.distinct.forall member among different
    ⟨same.1.trans sameOther.1.symm, same.2.trans sameOther.2.symm⟩

theorem enough (registry : Registry layout port sys list held entries)
    : (entries.map (fun entry => entry.1.data)).length ≤ walkSteps := by
  have few := registry.few
  rw [List.length_map]
  simp only [gpioIrqHandlerQNum, walkSteps] at few ⊢
  omega

/-- A walk that tests something of the fields finds the first entry that has it. -/
theorem walk (registry : Registry layout port sys list held entries) (stop : Nat → Bool)
    (test : GpioConf → Bool) (agree : ∀ entry ∈ entries, stop entry.1.data = test entry.2)
    : ∃ previous, walkUntil sys.ram stop walkSteps none list
      = some (previous,
        (entries.find? (fun entry => test entry.2)).map (fun entry => entry.1.data)) := by
  obtain ⟨previous, walk⟩ := walkUntil_find stop registry.listed registry.enough
  have found : entries.find? (stop ∘ fun entry => entry.1.data)
      = entries.find? (fun entry => test entry.2) :=
    List.find?_congr agree
  rw [List.find?_map, found] at walk
  exact ⟨previous, walk⟩

/-- The links of the list lie in its nodes. -/
theorem listed_congr (registry : Registry layout port sys list held entries)
    (same : ∀ entry ∈ entries, ∀ x, entry.1.data ≤ x → x < entry.1.data + 4 → ram' x = sys.ram x)
    : ListAt ram' list (entries.map (fun entry => entry.1.data)) := by
  refine Segment.congr registry.listed ?_
  intro a among
  obtain ⟨entry, member, rfl⟩ := List.mem_map.mp among
  exact Ram.next_congr (same entry member)

/-- The registry depends on the bytes of its nodes. -/
theorem others (registry : Registry layout port sys list held entries)
    (pools : ∃ free, PoolState layout sys' (entries.map Prod.fst ++ held') free)
    (same : ∀ entry ∈ entries, ∀ x, entry.1.Occupies layout x → sys'.ram x = sys.ram x)
    : Registry layout port sys' list held' entries where
  pools := pools
  sized := registry.sized
  listed := registry.listed_congr fun entry member x low high =>
    same entry member x
      (registry.occupies member low (by have := sizeofGpioConfList_gt port; omega))
  stored entry member := (registry.stored entry member).congr fun x low high =>
    same entry member x (registry.occupies member (by omega) high)
  few := registry.few
  distinct := registry.distinct

end Registry

-----------------------------------------------------------------------------------------
-- A pin that is there
-----------------------------------------------------------------------------------------

/-- The entries with the fields of one of them replaced. -/
def updated (entries : List (Buffer × GpioConf)) (conf : GpioConf) : List (Buffer × GpioConf) :=
  entries.map (fun entry => if entry.2.Same conf then (entry.1, conf) else entry)

theorem updated_buffers (entries : List (Buffer × GpioConf)) (conf : GpioConf)
    : (updated entries conf).map Prod.fst = entries.map Prod.fst := by
  rw [updated, List.map_map]
  apply List.map_congr_left
  intro entry _
  simp only [Function.comp_apply]
  split <;> rfl

theorem updated_nodes (entries : List (Buffer × GpioConf)) (conf : GpioConf)
    : (updated entries conf).map (fun entry => entry.1.data)
      = entries.map (fun entry => entry.1.data) := by
  have buffers := congrArg (List.map Buffer.data) (updated_buffers entries conf)
  rw [List.map_map, List.map_map] at buffers
  exact buffers

theorem updated_distinct (distinct : entries.Pairwise fun left right => ¬ left.2.Same right.2)
    (conf : GpioConf)
    : (updated entries conf).Pairwise (fun left right => ¬ left.2.Same right.2) := by
  have keys : ∀ entry : Buffer × GpioConf,
      (if entry.2.Same conf then (entry.1, conf) else entry).2.Same entry.2 := by
    intro entry
    split
    case isTrue sameEntry => exact ⟨sameEntry.1.symm, sameEntry.2.symm⟩
    case isFalse other => exact ⟨rfl, rfl⟩
  refine List.pairwise_map.mpr (distinct.imp ?_)
  intro left right different again
  exact different ⟨(keys left).1.symm.trans (again.1.trans (keys right).1),
    (keys left).2.symm.trans (again.2.trans (keys right).2)⟩

/-- What the search has found is changed in its place. -/
theorem Registry.update (registry : Registry layout port sys list held entries) (conf : GpioConf)
    {found : Buffer × GpioConf} (member : found ∈ entries) (same : found.2.Same conf)
    (rewritten : ram = nodeUpdated port sys.ram found.1.data conf.polarity conf.gpioIrqCallback)
    : Registry layout port { sys with ram := ram } list held (updated entries conf) := by
  have outside : ∀ x,
      (x < found.1.data + 4 ∨ found.1.data + port.sizeofGpioConfList ≤ x) → ram x = sys.ram x := by
    intro x apart
    rw [rewritten, nodeUpdated_outside apart]
  have other : ∀ entry ∈ entries, entry ≠ found → ∀ x, entry.1.data ≤ x →
      x < entry.1.data + port.sizeofGpioConfList → ram x = sys.ram x := by
    intro entry before different x low high
    have nodes := (registry.apart_or_eq before member).resolve_left different
    unfold NodesApart at nodes
    exact outside x (by omega)
  have size := sizeofGpioConfList_gt port
  refine ⟨?_, ?_, ?_, ?_, ?_, updated_distinct registry.distinct conf⟩
  · obtain ⟨free, state⟩ := registry.pools
    rw [updated_buffers]
    refine ⟨free, state.write (callerWrites_of_occupied ?_)⟩
    intro x off
    apply outside
    by_contra inside
    exact off found.1 (List.mem_append_left held (List.mem_map_of_mem member))
      (registry.occupies member (by omega) (by omega))
  · intro entry among
    obtain ⟨old, before, rfl⟩ := List.mem_map.mp among
    have sized := registry.sized old before
    split <;> exact sized
  · rw [updated_nodes]
    refine registry.listed_congr fun entry before x low high => ?_
    by_cases different : entry = found
    · exact outside x (.inl (different ▸ high))
    · exact other entry before different x low (by omega)
  · intro entry among
    obtain ⟨old, before, rfl⟩ := List.mem_map.mp among
    split
    case isTrue sameOld =>
      rw [registry.unique before member sameOld same]
      change NodeHolds port ram found.1.data conf
      rw [rewritten]
      exact nodeUpdated_holds (registry.stored found member) same.1 same.2
    case isFalse another =>
      have different : old ≠ found := fun equal => another (equal ▸ same)
      exact (registry.stored old before).congr fun x low high =>
        other old before different x (by omega) high
  · rw [updated, List.length_map]
    exact registry.few

-----------------------------------------------------------------------------------------
-- A new pin
-----------------------------------------------------------------------------------------

theorem held_data_valid (state : PoolState layout sys held free) (holds : own ∈ held)
    : 0 < own.data ∧ own.data < 4294967296 := by
  obtain ⟨g, inside, a, block, data, -⟩ := state.owned own holds
  have facts := bufferGroup_facts inside
  have valid := (EvBufLayout.block_valid inside block).1
  have bounds := (EvBufLayout.block_bounds block).2
  have bounded := layout.bounded g inside
  simp only [evBufItemData] at data
  omega

namespace Registry

/-- A buffer that has just been taken is none of the nodes. -/
theorem apart_new (registry : Registry layout port sys list held entries)
    (size : own.size.toNat = port.sizeofGpioConfList)
    (state : PoolState layout sys' (own :: (entries.map Prod.fst ++ held)) free)
    : ∀ entry ∈ entries, NodesApart port entry.1 own := by
  intro entry member
  have disjoint := (List.pairwise_cons.mp state.occupies_apart).1 entry.1
    (List.mem_append_left held (List.mem_map_of_mem member))
  have ours : ∀ x, own.data ≤ x → x < own.data + port.sizeofGpioConfList →
      own.Occupies layout x :=
    fun x low high => state.occupies (List.mem_cons_self ..) low (by omega)
  exact (nodesApart_of_occupies disjoint ours (fun x => registry.occupies member)).symm

/-- The node gets its fields and is put behind the others, of which only links are written. -/
theorem append_node (registry : Registry layout port sys list held entries)
    (apart : ∀ entry ∈ entries, NodesApart port entry.1 own)
    (valid : 0 < own.data ∧ own.data < 4294967296) (kept : layout.KeptData sys.ram ram)
    (conf : GpioConf)
    : ∃ ram' list',
      listAdd (nodeStored port ram own.data conf.mode conf.pin conf.polarity conf.gpioIrqCallback)
          list own.data
        = some (ram', list')
      ∧ ListAt ram' list' ((entries ++ [(own, conf)]).map (fun entry => entry.1.data))
      ∧ (∀ entry ∈ entries ++ [(own, conf)], NodeHolds port ram' entry.1.data entry.2)
      ∧ ∀ x, (∀ entry ∈ entries, x < entry.1.data ∨ entry.1.data + 4 ≤ x) →
        (x < own.data ∨ own.data + port.sizeofGpioConfList ≤ x) → ram' x = ram x := by
  obtain ⟨filled, stored⟩ : ∃ filled, filled
      = nodeStored port ram own.data conf.mode conf.pin conf.polarity conf.gpioIrqCallback :=
    ⟨_, rfl⟩
  have size := sizeofGpioConfList_gt port
  have outside : ∀ x, (x < own.data ∨ own.data + port.sizeofGpioConfList ≤ x) →
      filled x = ram x := by
    intro x off
    rw [stored, nodeStored_outside off]
  have unchanged : ∀ entry ∈ entries, ∀ x, entry.1.data ≤ x →
      x < entry.1.data + port.sizeofGpioConfList → filled x = sys.ram x := by
    intro entry member x low high
    have nodes := apart entry member
    unfold NodesApart at nodes
    rw [outside x (by omega)]
    exact kept.occupied (registry.occupies member low high)
  have chain : ListAt filled list (entries.map (fun entry => entry.1.data)) :=
    registry.listed_congr fun entry member x low high =>
      unchanged entry member x low (by omega)
  have words : (entries.map (fun entry => entry.1.data)).Pairwise Apart :=
    List.pairwise_map.mpr (registry.apart.imp NodesApart.words)
  have word : ∀ a ∈ entries.map (fun entry => entry.1.data), Apart a own.data := by
    intro a among
    obtain ⟨entry, member, rfl⟩ := List.mem_map.mp among
    exact (apart entry member).words
  obtain ⟨ram', list', added, listed, links⟩ :=
    listAdd_at chain registry.enough words word valid.1 valid.2
  rw [stored] at added
  have link : ∀ x, (∀ entry ∈ entries ++ [(own, conf)], x < entry.1.data ∨ entry.1.data + 4 ≤ x) →
      ram' x = filled x := by
    intro x off
    apply links
    intro a among
    rcases List.mem_append.mp among with before | last
    · obtain ⟨entry, member, rfl⟩ := List.mem_map.mp before
      exact off entry (List.mem_append_left _ member)
    · rw [List.mem_singleton.mp last]
      exact off (own, conf) (List.mem_append_right _ (List.mem_singleton_self _))
  refine ⟨ram', list', added, by rwa [List.map_append], ?_, ?_⟩
  · intro entry member
    have fields : NodeHolds port filled entry.1.data entry.2 := by
      rcases List.mem_append.mp member with before | last
      · exact (registry.stored entry before).congr fun x low high =>
          unchanged entry before x (by omega) high
      · rw [List.mem_singleton.mp last, stored]
        exact nodeStored_holds port ram own.data conf
    -- the fields of a node lie behind its own link and beside the others
    refine fields.congr fun x low high => link x fun other among => ?_
    by_cases same : entry.1 = other.1
    · exact .inr (same ▸ low)
    · have nodes : NodesApart port entry.1 other.1 := by
        rcases List.mem_append.mp member with before | last <;>
          rcases List.mem_append.mp among with beforeToo | lastToo
        · refine (registry.apart_or_eq before beforeToo).resolve_left fun equal => ?_
          exact same (congrArg Prod.fst equal)
        · rw [List.mem_singleton.mp lastToo]
          exact apart entry before
        · rw [List.mem_singleton.mp last]
          exact (apart other beforeToo).symm
        · rw [List.mem_singleton.mp last, List.mem_singleton.mp lastToo] at same
          exact absurd rfl same
      unfold NodesApart at nodes
      omega
  · intro x old new
    rw [link x ?_, outside x new]
    intro entry member
    rcases List.mem_append.mp member with before | last
    · exact old entry before
    · rw [List.mem_singleton.mp last]
      change x < own.data ∨ own.data + 4 ≤ x
      omega

/-- A pin that is new gets the last node. -/
theorem add (registry : Registry layout port sys list held entries)
    (fresh : ∀ entry ∈ entries, ¬ entry.2.Same conf)
    (room : entries.length < gpioIrqHandlerQNum)
    (size : own.size.toNat = port.sizeofGpioConfList)
    (state : PoolState layout sys' (own :: (entries.map Prod.fst ++ held)) free)
    (kept : layout.KeptData sys.ram sys'.ram)
    : ∃ ram list',
      listAdd
          (nodeStored port sys'.ram own.data conf.mode conf.pin conf.polarity
            conf.gpioIrqCallback)
          list own.data
        = some (ram, list')
      ∧ Registry layout port { sys' with ram := ram } list' held (entries ++ [(own, conf)]) := by
  obtain ⟨ram, list', added, listed, stored, outside⟩ :=
    registry.append_node (registry.apart_new size state)
      (held_data_valid state (List.mem_cons_self ..)) kept conf
  have bytes := sizeofGpioConfList_gt port
  refine ⟨ram, list', added, ?_, ?_, listed, stored, ?_, ?_⟩
  · rw [List.map_append, List.append_assoc]
    have order : List.Perm (own :: (entries.map Prod.fst ++ held))
        (entries.map Prod.fst ++ own :: held) :=
      List.perm_middle.symm
    have writes : CallerWrites layout (own :: (entries.map Prod.fst ++ held)) sys'.ram ram := by
      apply callerWrites_of_occupied
      intro x off
      apply outside
      · intro entry member
        by_contra inside
        refine off entry.1 (List.mem_cons_of_mem own ?_) (registry.occupies member ?_ ?_)
        · exact List.mem_append_left held (List.mem_map_of_mem member)
        · omega
        · omega
      · by_contra inside
        refine off own (List.mem_cons_self ..)
          (state.occupies (List.mem_cons_self ..) ?_ ?_) <;> omega
    exact ⟨free, (state.write writes).perm order⟩
  · intro entry member
    rcases List.mem_append.mp member with before | last
    · exact registry.sized entry before
    · rw [List.mem_singleton.mp last]
      exact size
  · rw [List.length_append]
    exact room
  · refine List.pairwise_append.mpr ⟨registry.distinct, List.pairwise_singleton _ _, ?_⟩
    intro entry before last among
    rw [List.mem_singleton.mp among]
    exact fresh entry before

end Registry

-----------------------------------------------------------------------------------------
-- Calls
-----------------------------------------------------------------------------------------

variable {gpio gpio' : GpioIrq}

/-- A pin that is there keeps its place, another one comes last. -/
def registered (confs : List GpioConf) (conf : GpioConf) : List GpioConf :=
  if ∃ old ∈ confs, old.Same conf then
    confs.map (fun old => if old.Same conf then conf else old)
  else
    confs ++ [conf]

/-- The callback of the first pin of the mode that has one. -/
def dispatched (confs : List GpioConf) (mode : DrvGpioIrqMode) : Option UInt32 :=
  (confs.find? (fun conf => conf.mode = mode ∧ conf.gpioIrqCallback ≠ 0)).map
    GpioConf.gpioIrqCallback

@[simp]
theorem GpioIrq.set_sys (gpio : GpioIrq) (mode : DrvGpioIrqMode) (pin : UInt32)
    (polarity : DrvGpioPoll)
    : (gpio.set port mode pin polarity).sys = gpio.sys := by
  cases mode <;> rfl

@[simp]
theorem GpioIrq.set_gpioIrqHandlerQ (gpio : GpioIrq) (mode : DrvGpioIrqMode) (pin : UInt32)
    (polarity : DrvGpioPoll)
    : (gpio.set port mode pin polarity).gpioIrqHandlerQ = gpio.gpioIrqHandlerQ := by
  cases mode <;> rfl

/-- The registers are written last, from what they were. -/
theorem GpioIrq.set_regs (gpio other : GpioIrq) (mode : DrvGpioIrqMode) (pin : UInt32)
    (polarity : DrvGpioPoll) (same : other.regs = gpio.regs)
    : (other.set port mode pin polarity).regs = (gpio.set port mode pin polarity).regs := by
  cases mode <;> simp only [GpioIrq.set, same]

/-- The entries as they are listed. -/
theorem updated_confs (entries : List (Buffer × GpioConf)) (conf : GpioConf)
    : (updated entries conf).map Prod.snd
      = (entries.map Prod.snd).map (fun old => if old.Same conf then conf else old) := by
  rw [updated, List.map_map, List.map_map]
  apply List.map_congr_left
  intro entry _
  simp only [Function.comp_apply]
  split <;> rfl

/-- The registry of the driver's own list. -/
abbrev GpioIrq.Holds (layout : EvBufLayout) (port : GpioPort) (gpio : GpioIrq)
    (held : List Buffer) (entries : List (Buffer × GpioConf)) : Prop :=
  Registry layout port gpio.sys gpio.gpioIrqHandlerQ held entries

/-- A call registers the pin and sets its polarity, or refuses a new pin for want of room and
leaves everything alone.
-/
theorem Registry.config (registry : gpio.Holds layout port held entries) (conf : GpioConf)
    : (∃ gpio' entries',
        drvGpioIrqConfig port gpio conf.mode conf.pin conf.polarity conf.gpioIrqCallback
          = some (0, gpio')
        ∧ gpio'.Holds layout port held entries'
        ∧ entries'.map Prod.snd = registered (entries.map Prod.snd) conf
        ∧ gpio'.regs = (gpio.set port conf.mode conf.pin conf.polarity).regs)
      ∨ (drvGpioIrqConfig port gpio conf.mode conf.pin conf.polarity conf.gpioIrqCallback
          = some (-1, gpio)
        ∧ (∀ entry ∈ entries, ¬ entry.2.Same conf)
        ∧ (entries.length = gpioIrqHandlerQNum
          ∨ EvBuffer.evBufAllocate gpio.sys (.ofNat port.sizeofGpioConfList)
            = some (none, gpio.sys))) := by
  have agree : ∀ entry ∈ entries, configured port gpio.sys.ram conf.mode conf.pin entry.1.data
      = decide (entry.2.Same conf) := by
    intro entry member
    rw [(registry.stored entry member).configured]
    rfl
  obtain ⟨previous, walk⟩ := registry.walk _ (fun old => decide (old.Same conf)) agree
  cases found : entries.find? (fun entry => decide (entry.2.Same conf)) with
  | some entry =>
      have member := List.mem_of_find?_eq_some found
      have same : entry.2.Same conf := by simpa using List.find?_some found
      have done : drvGpioIrqConfig port gpio conf.mode conf.pin conf.polarity conf.gpioIrqCallback
          = some (0, ({ gpio with
              sys := { gpio.sys with
                ram := nodeUpdated port gpio.sys.ram entry.1.data conf.polarity
                  conf.gpioIrqCallback } }).set port conf.mode conf.pin conf.polarity) := by
        rw [drvGpioIrqConfig, walk, found]
        rfl
      refine .inl ⟨_, updated entries conf, done, ?_, ?_, ?_⟩
      · rw [GpioIrq.Holds, GpioIrq.set_sys, GpioIrq.set_gpioIrqHandlerQ]
        exact registry.update conf member same rfl
      · have known : ∃ old ∈ entries.map Prod.snd, old.Same conf :=
          ⟨entry.2, List.mem_map_of_mem member, same⟩
        rw [updated_confs, registered, if_pos known]
      · exact GpioIrq.set_regs gpio _ conf.mode conf.pin conf.polarity rfl
  | none =>
      have fresh : ∀ entry ∈ entries, ¬ entry.2.Same conf := by simpa using found
      have unknown : ¬ ∃ old ∈ entries.map Prod.snd, old.Same conf := by
        rintro ⟨old, among, same⟩
        obtain ⟨entry, member, rfl⟩ := List.mem_map.mp among
        exact fresh entry member same
      have length := listLength_at registry.listed registry.enough
      rw [List.length_map] at length
      by_cases full : entries.length ≥ gpioIrqHandlerQNum
      · refine .inr ⟨?_, fresh, .inl (le_antisymm registry.few full)⟩
        rw [drvGpioIrqConfig, walk, found]
        simp only [Option.map_none, Option.bind_eq_bind, Option.bind_some, length, if_pos full]
      · obtain ⟨free, pools⟩ := registry.pools
        rcases pools.allocate (.ofNat port.sizeofGpioConfList)
          with refused | ⟨p, sys, free', granted, after⟩
        · refine .inr ⟨?_, fresh, .inr refused⟩
          rw [drvGpioIrqConfig, walk, found]
          simp only [Option.map_none, Option.bind_eq_bind, Option.bind_some, length, if_neg full,
            refused]
        · obtain ⟨ram, list, added, next⟩ :=
            registry.add fresh (Nat.lt_of_not_le full) port.sizeofGpioConfList_toNat after
              (pools.allocated granted).2
          have done : drvGpioIrqConfig port gpio conf.mode conf.pin conf.polarity
              conf.gpioIrqCallback
              = some (0, ({ gpio with
                  sys := { sys with ram := ram }, gpioIrqHandlerQ := list }).set port conf.mode
                  conf.pin conf.polarity) := by
            rw [drvGpioIrqConfig, walk, found]
            simp only [Option.map_none, Option.bind_eq_bind, Option.bind_some, length, if_neg full,
              granted, added]
          refine .inl ⟨_, entries ++ [(⟨p, .ofNat port.sizeofGpioConfList⟩, conf)], done, ?_, ?_,
            ?_⟩
          · rw [GpioIrq.Holds, GpioIrq.set_sys, GpioIrq.set_gpioIrqHandlerQ]
            exact next
          · rw [List.map_append, registered, if_neg unknown]
            rfl
          · exact GpioIrq.set_regs gpio _ conf.mode conf.pin conf.polarity rfl

/-- An interrupt calls back the first pin of its mode that has a callback. -/
theorem Registry.process (registry : gpio.Holds layout port held entries) (mode : DrvGpioIrqMode)
    : drvGpioIrqProcess port gpio mode = some (dispatched (entries.map Prod.snd) mode) := by
  have agree : ∀ entry ∈ entries, callable port gpio.sys.ram mode entry.1.data
      = decide (entry.2.mode = mode ∧ entry.2.gpioIrqCallback ≠ 0) :=
    fun entry member => (registry.stored entry member).callable mode
  obtain ⟨previous, walk⟩ := registry.walk _
    (fun conf => decide (conf.mode = mode ∧ conf.gpioIrqCallback ≠ 0)) agree
  rw [drvGpioIrqProcess, walk, dispatched, List.find?_map, Option.map_some, Option.map_map,
    Option.map_map]
  have each : ∀ found, entries.find? (fun entry =>
        decide (entry.2.mode = mode ∧ entry.2.gpioIrqCallback ≠ 0)) = some found →
      UInt32.ofNat (gpio.sys.ram.le32 (found.1.data + gpioIrqCallbackAt))
        = found.2.gpioIrqCallback := by
    intro found first
    rw [(registry.stored found (List.mem_of_find?_eq_some first)).gpioIrqCallback,
      UInt32.ofNat_toNat]
  exact congrArg some (Option.map_congr each)

-----------------------------------------------------------------------------------------
-- Runs
-----------------------------------------------------------------------------------------

/-- The states after power-up, with what the other users of the pools hold and the calls of the
driver that have succeeded. These, and calls and writes of the others, come in any order.
-/
inductive GpioRun (layout : EvBufLayout) (port : GpioPort) (start : GpioRegs)
    : GpioIrq → List Buffer → List GpioConf → Prop where
  | init (sys : EvBufSys)
      : GpioRun layout port start
        { sys := evBufInit layout sys, gpioIrqHandlerQ := none, regs := start } [] []
  | config {gpio gpio' : GpioIrq} {held : List Buffer} {done : List GpioConf} {result : Int}
      (conf : GpioConf) (run : GpioRun layout port start gpio held done)
      (returned : drvGpioIrqConfig port gpio conf.mode conf.pin conf.polarity conf.gpioIrqCallback
        = some (result, gpio'))
      : GpioRun layout port start gpio' held (if result = 0 then done ++ [conf] else done)
  | call {gpio : GpioIrq} {sys : EvBufSys} {held held' : List Buffer} {done : List GpioConf}
      (call : EvBufCall) (run : GpioRun layout port start gpio held done)
      (returned : evBufCall layout gpio.sys held call = some (sys, held'))
      : GpioRun layout port start { gpio with sys := sys } held' done
  | write {gpio : GpioIrq} {held : List Buffer} {done : List GpioConf} (ram : Ram)
      (run : GpioRun layout port start gpio held done)
      (allowed : CallerWrites layout held gpio.sys.ram ram)
      : GpioRun layout port start { gpio with sys := { gpio.sys with ram := ram } } held done

/-- The pins that calls have registered. -/
def registryOf (done : List GpioConf) : List GpioConf := done.foldl registered []

variable {start : GpioRegs} {done : List GpioConf}

/-- The list holds what has been registered, by induction over the run. -/
theorem GpioRun.registry (run : GpioRun layout port start gpio held done)
    : ∃ entries, gpio.Holds layout port held entries
      ∧ entries.map Prod.snd = registryOf done := by
  induction run with
  | init sys =>
      have pools : ∃ free, PoolState layout (evBufInit layout sys) [] free :=
        ⟨_, evBufInit_state⟩
      exact ⟨[], ⟨pools, by simp, rfl, by simp, Nat.zero_le _, .nil⟩, rfl⟩
  | config conf _ returned ih =>
      obtain ⟨entries, registry, confs⟩ := ih
      rcases registry.config conf with ⟨gpio', entries', done, next, more, -⟩ | ⟨refused, -⟩
      · rw [done] at returned
        cases returned
        refine ⟨entries', next, ?_⟩
        rw [more, confs, if_pos rfl, registryOf, registryOf, List.foldl_append]
        rfl
      · rw [refused] at returned
        cases returned
        exact ⟨entries, registry, confs⟩
  | call call _ returned ih =>
      obtain ⟨entries, registry, confs⟩ := ih
      obtain ⟨free, state⟩ := registry.pools
      obtain ⟨pools, kept⟩ := state.others_call returned
      exact ⟨entries, registry.others pools (fun _ _ x => kept.occupied), confs⟩
  | write ram _ allowed ih =>
      obtain ⟨entries, registry, confs⟩ := ih
      obtain ⟨free, state⟩ := registry.pools
      obtain ⟨pools, same⟩ := state.others_write allowed
      refine ⟨entries, registry.others ⟨free, pools⟩ ?_, confs⟩
      intro entry member
      exact same entry.1 (List.mem_map_of_mem member)

/-- On the TC32 chips the polarity register follows the calls, by induction over the run. -/
theorem GpioRun.polarity (run : GpioRun layout .tc32 start gpio held done)
    : PolarityAfter start done gpio.regs := by
  induction run with
  | init sys => exact fun group i inside => rfl
  | config conf before returned ih =>
      obtain ⟨entries, registry, -⟩ := before.registry
      rcases registry.config conf with ⟨gpio', entries', done, -, -, regs⟩ | ⟨refused, -⟩
      · rw [done] at returned
        cases returned
        rw [if_pos rfl, regs]
        exact ih.set conf
      · rw [refused] at returned
        cases returned
        exact ih
  | call call _ returned ih => exact ih
  | write ram _ allowed ih => exact ih

/-- In every run the list in the pools is the registry: at most three pins, none of them twice in
one mode. An interrupt calls back the first pin of its mode that has a callback. On the TC32 chips
each bit of the polarity register has the polarity of the last call for its pin, in any mode. A
call is refused, and then changes nothing, only for a new pin when there are three or no buffer is
left. Each pin has a block of its own.
-/
theorem drvGpio_registry (run : GpioRun layout port start gpio held done)
    : (registryOf done).length ≤ gpioIrqHandlerQNum
      ∧ (registryOf done).Pairwise (fun left right => ¬ left.Same right)
      ∧ (∀ mode, drvGpioIrqProcess port gpio mode = some (dispatched (registryOf done) mode))
      ∧ (port = .tc32 → PolarityAfter start done gpio.regs)
      ∧ (∀ conf : GpioConf,
        (∃ gpio',
          drvGpioIrqConfig port gpio conf.mode conf.pin conf.polarity conf.gpioIrqCallback
            = some (0, gpio'))
        ∨ (drvGpioIrqConfig port gpio conf.mode conf.pin conf.polarity conf.gpioIrqCallback
            = some (-1, gpio)
          ∧ (∀ old ∈ registryOf done, ¬ old.Same conf)
          ∧ ((registryOf done).length = gpioIrqHandlerQNum
            ∨ EvBuffer.evBufAllocate gpio.sys (.ofNat port.sizeofGpioConfList)
              = some (none, gpio.sys))))
      ∧ ∃ nodes : List Buffer, nodes.length = (registryOf done).length
        ∧ ∀ g < defaultBufferGroupNum, layout.Shared gpio.sys (nodes ++ held) g := by
  obtain ⟨entries, registry, confs⟩ := run.registry
  rw [← confs]
  refine ⟨?_, List.pairwise_map.mpr registry.distinct, registry.process, ?_, ?_, ?_⟩
  · rw [List.length_map]
    exact registry.few
  · rintro rfl
    exact run.polarity
  · intro conf
    rcases registry.config conf with ⟨gpio', -, done, -⟩ | ⟨refused, fresh, why⟩
    · exact .inl ⟨gpio', done⟩
    · refine .inr ⟨refused, ?_, by rwa [List.length_map]⟩
      intro old among
      obtain ⟨entry, member, rfl⟩ := List.mem_map.mp among
      exact fresh entry member
  · obtain ⟨free, state⟩ := registry.pools
    exact ⟨entries.map Prod.fst, by simp, fun g inside => state.shared inside⟩

/-- A pin in two modes, with another user's buffer between the nodes. The second call turns the
polarity of the first one round.
-/
theorem drvGpio_registry_shared
    : ∃ gpio held done, GpioRun pagedLayout .tc32 ⟨fun _ => 0, 0, 0, 0⟩ gpio held done
      ∧ done.map GpioConf.polarity = [.risingEdge, .fallingEdge]
      ∧ held.map Buffer.data = [4128]
      ∧ drvGpioIrqProcess .tc32 gpio .irq = some (some 0x1000)
      ∧ drvGpioIrqProcess .tc32 gpio .irqRisc0 = some (some 0x2000)
      ∧ (gpio.regs.regGpioPol 1).getLsbD 4 = true
      ∧ gpio.regs.regIrqMask = fldIrqGpioEn ||| fldIrqGpioRisc0En := by
  let sys : EvBufSys :=
    { ram := fun _ => 0, pools := fun _ => { freeList := none },
      bufGroups := fun _ => { qHead := none, size := 0, availBufNum := 0 }, exceptions := [] }
  let regs : GpioRegs := ⟨fun _ => 0, 0, 0, 0⟩
  let start : GpioIrq :=
    { sys := evBufInit pagedLayout sys, gpioIrqHandlerQ := none, regs := regs }
  let rising : GpioConf :=
    { mode := .irq, pin := 0x110, polarity := .risingEdge, gpioIrqCallback := 0x1000 }
  let falling : GpioConf :=
    { mode := .irqRisc0, pin := 0x110, polarity := .fallingEdge, gpioIrqCallback := 0x2000 }
  have result : ((drvGpioIrqConfig .tc32 start .irq 0x110 .risingEdge 0x1000).bind fun first =>
      (evBufCall pagedLayout first.2.sys [] (.allocate 10)).bind fun taken =>
        (drvGpioIrqConfig .tc32 { first.2 with sys := taken.1 } .irqRisc0 0x110 .fallingEdge
          0x2000).map
          fun second =>
            (first.1, second.1, taken.2.map Buffer.data, second.2.regs.regIrqMask))
      = some (0, 0, [4128], fldIrqGpioEn ||| fldIrqGpioRisc0En) := by
    decide +kernel
  obtain ⟨⟨done, first⟩, configured, result⟩ := Option.bind_eq_some_iff.mp result
  obtain ⟨⟨sys, held⟩, taken, result⟩ := Option.bind_eq_some_iff.mp result
  obtain ⟨⟨again, second⟩, configuredAgain, result⟩ := Option.map_eq_some_iff.mp result
  simp only [Prod.mk.injEq] at result
  obtain ⟨rfl, rfl, data, mask⟩ := result
  have start : GpioRun pagedLayout .tc32 regs start [] [] := .init _
  have beside := (start.config rising configured).call _ taken
  have run : GpioRun pagedLayout .tc32 regs second held [rising, falling] :=
    beside.config falling configuredAgain
  obtain ⟨-, -, process, polarity, -⟩ := drvGpio_registry run
  refine ⟨second, held, _, run, rfl, data, ?_, ?_, ?_, mask⟩
  · rw [process]
    decide
  · rw [process]
    decide
  · rw [polarity rfl 1 4 (by decide)]
    decide

end TelinkSdk.Gpio
