import TelinkSdk.Os.BufferHistory

/-! Which requests the event buffers serve, and what the helpers say about the size of a buffer. -/

namespace TelinkSdk.EvBuffer

open Links LinkView

variable {layout : EvBufLayout} {sys sys' : EvBufSys} {held : List Buffer} {ever : List Nat}
  {free : Nat → List Nat} {g a p : Nat} {size : UInt16}

-----------------------------------------------------------------------------------------
-- Requests
-----------------------------------------------------------------------------------------

/-- The loop keeps the largest capacity among the groups that have a free block. -/
theorem evBufGetFreeMaxSize.round_le {n count : Nat} (state : PoolState layout sys held free)
    (positive : 0 < n) (inside : count ≤ defaultBufferGroupNum)
    : n ≤ (List.range count).foldl (evBufGetFreeMaxSize.round sys) 0
      ↔ ∃ g < count, free g ≠ [] ∧ n ≤ bufferGroup g - evBufItemData := by
  induction count with
  | zero =>
      have nothing : ¬n ≤ 0 := by omega
      simp [nothing]
  | succ count ih =>
      have last : count < defaultBufferGroupNum := by omega
      have facts := bufferGroup_facts last
      have capacity : (bufferGroup count + 4294967296 - evBufItemData) % 4294967296
          = bufferGroup count - evBufItemData := by
        simp only [evBufItemData]
        omega
      have whole : (bufferGroup count - evBufItemData) % 65536
          = bufferGroup count - evBufItemData := by
        simp only [evBufItemData]
        omega
      have earlier := ih (by omega)
      rw [List.range_succ, List.foldl_append, List.foldl_cons, List.foldl_nil]
      generalize (List.range count).foldl (evBufGetFreeMaxSize.round sys) 0 = size at earlier ⊢
      rw [evBufGetFreeMaxSize.round]
      simp only [state.group count last, capacity, whole, ne_eq, List.length_eq_zero_iff]
      have split : (∃ g < count + 1, free g ≠ [] ∧ n ≤ bufferGroup g - evBufItemData)
          ↔ n ≤ size ∨ free count ≠ [] ∧ n ≤ bufferGroup count - evBufItemData := by
        rw [earlier]
        constructor
        · rintro ⟨g, under, serves⟩
          by_cases same : g = count
          · exact .inr (same ▸ serves)
          · exact .inl ⟨g, by omega, serves⟩
        · rintro (⟨g, under, serves⟩ | serves)
          · exact ⟨g, by omega, serves⟩
          · exact ⟨count, by omega, serves⟩
      rw [split]
      by_cases empty : free count = []
      · simp [empty]
      · simp only [ne_eq, empty, not_false_eq_true, true_and, if_true]
        split <;> omega

/-- The advertised size is one that some group serves. -/
theorem PoolState.advertised (state : PoolState layout sys held free) (positive : 0 < size.toNat)
    : size.toNat ≤ evBufGetFreeMaxSize sys
      ↔ ∃ g < defaultBufferGroupNum, evBufFits sys size g = true := by
  rw [evBufGetFreeMaxSize, evBufGetFreeMaxSize.round_le state positive (Nat.le_refl _)]
  constructor
  · rintro ⟨g, inside, some_free, room⟩
    exact ⟨g, inside, (state.fits_iff inside size).mpr ⟨room, some_free⟩⟩
  · rintro ⟨g, inside, serves⟩
    obtain ⟨room, some_free⟩ := (state.fits_iff inside size).mp serves
    exact ⟨g, inside, some_free, room⟩

/-- The groups are in the order of their sizes. -/
theorem bufferGroup_mono {h : Nat} (inside : h < defaultBufferGroupNum) (below : g < h)
    : bufferGroup g < bufferGroup h := by
  have groups : ∀ h < 4, ∀ g < h, bufferGroup g < bufferGroup h := by decide
  exact groups h inside g below

/-- Buffer `p` is the first free block of group `g`, and no smaller group with a free block fits. -/
structure ServedBy (layout : EvBufLayout) (sys : EvBufSys) (size : UInt16) (p g : Nat) : Prop where
  inside : g < defaultBufferGroupNum
  room : size.toNat ≤ bufferGroup g - evBufItemData
  available : (sys.bufGroups g).availBufNum ≠ 0
  smallest : ∀ h < defaultBufferGroupNum, size.toNat ≤ bufferGroup h - evBufItemData
    → (sys.bufGroups h).availBufNum ≠ 0 → bufferGroup g ≤ bufferGroup h
  block : ∃ a ∈ layout.blocks g, p = a + evBufItemData ∧ (sys.pools g).freeList = some a

theorem PoolState.available_iff (state : PoolState layout sys held free)
    (inside : g < defaultBufferGroupNum)
    : (sys.bufGroups g).availBufNum ≠ 0 ↔ free g ≠ [] := by
  rw [state.group g inside]
  simp [List.length_eq_zero_iff]

/-- The search stops at the smallest group that fits. -/
theorem PoolState.served (state : PoolState layout sys held free)
    (right : ¬(size.toNat = 0 ∨ maxBufferSize < size.toNat))
    (found : (List.range defaultBufferGroupNum).find? (evBufFits sys size) = some g)
    : ∃ p sys', evBufAllocate sys size = some (some p, sys') ∧ ServedBy layout sys size p g := by
  obtain ⟨a, rest, sys', first, granted, -, -⟩ := state.allocate_from right found
  have inside : g < defaultBufferGroupNum :=
    List.mem_range.mp (List.mem_of_find?_eq_some found)
  obtain ⟨room, some_free⟩ := (state.fits_iff inside size).mp (List.find?_some found)
  refine ⟨_, sys', granted, {
    inside
    room
    available := (state.available_iff inside).mpr some_free
    smallest := ?_
    block := ⟨a, state.free_block inside (first ▸ List.mem_cons_self), rfl, ?_⟩
  }⟩
  · intro h inH fits available
    by_contra larger
    have below : h < g := by
      by_contra above
      by_cases same : h = g
      · exact larger (same ▸ Nat.le_refl _)
      · have order := bufferGroup_mono inH (show g < h by omega)
        omega
    have passed := List.find?_range_eq_some.mp found
    exact absurd ((state.fits_iff inH size).mpr ⟨fits, (state.available_iff inH).mp available⟩)
      (by simpa using passed.2.2 h below)
  · have head := ListAt.head (state.listed g inside)
    rw [first] at head
    exact head

/-- What `ev_buf_allocate` does with a request: it is served, or it is refused and nothing changes. -/
theorem PoolState.request (state : PoolState layout sys held free) (size : UInt16)
    : (∃ p sys' g, evBufAllocate sys size = some (some p, sys') ∧ ServedBy layout sys size p g
        ∧ 1 ≤ size.toNat ∧ size.toNat ≤ evBufGetFreeMaxSize sys)
      ∨ evBufAllocate sys size = some (none, sys)
        ∧ ¬(1 ≤ size.toNat ∧ size.toNat ≤ evBufGetFreeMaxSize sys) := by
  by_cases wrong : size.toNat = 0 ∨ maxBufferSize < size.toNat
  · refine .inr ⟨if_pos wrong, ?_⟩
    rintro ⟨positive, advertised⟩
    obtain ⟨g, inside, serves⟩ := (state.advertised positive).mp advertised
    have room := ((state.fits_iff inside size).mp serves).1
    have facts := bufferGroup_facts inside
    simp only [evBufItemData, maxBufferSize] at room wrong
    omega
  have positive : 0 < size.toNat := by omega
  cases found : (List.range defaultBufferGroupNum).find? (evBufFits sys size) with
  | none =>
      refine .inr ⟨by rw [evBufAllocate, if_neg wrong, found], ?_⟩
      rintro ⟨-, advertised⟩
      obtain ⟨g, inside, serves⟩ := (state.advertised positive).mp advertised
      exact absurd serves (List.find?_eq_none.mp found g (List.mem_range.mpr inside))
  | some g =>
      obtain ⟨p, sys', granted, served⟩ := state.served wrong found
      refine .inl ⟨p, sys', g, granted, served, positive, (state.advertised positive).mpr ?_⟩
      exact ⟨g, served.inside, List.find?_some found⟩

/-- A request is served exactly if its size is between 1 and the advertised one. It then takes the
first free block of the smallest group that fits; a refused request changes nothing.
-/
theorem evBufAllocate_advertised (run : EvBufHistory layout sys held ever) (size : UInt16)
    : ((∃ p sys', evBufAllocate sys size = some (some p, sys'))
        ↔ 1 ≤ size.toNat ∧ size.toNat ≤ evBufGetFreeMaxSize sys)
      ∧ (∀ p sys', evBufAllocate sys size = some (some p, sys')
        → ∃ g, ServedBy layout sys size p g)
      ∧ (∀ sys', evBufAllocate sys size = some (none, sys') → sys' = sys)
      ∧ ∃ result, evBufAllocate sys size = some result := by
  obtain ⟨free, state⟩ := run.state
  rcases state.toPoolState.request size with
    ⟨p, sys', g, granted, served, advertised⟩ | ⟨refused, beyond⟩
  · rw [granted]
    refine ⟨⟨fun _ => advertised, fun _ => ⟨p, sys', rfl⟩⟩, ?_, ?_, _, rfl⟩
    · intro q after same
      cases same
      exact ⟨g, served⟩
    · intro after same
      cases same
  · rw [refused]
    refine ⟨⟨?_, fun advertised => absurd advertised beyond⟩, ?_, ?_, _, rfl⟩
    · rintro ⟨q, after, same⟩
      cases same
    · intro q after same
      cases same
    · intro after same
      cases same
      rfl

/-- After `ev_buf_init` the last group sets the advertised size. -/
theorem evBufAllocate_advertised_init
    : ∃ sys, evBufGetFreeMaxSize sys = 1016
      ∧ ∃ p sys', evBufAllocate sys 1016 = some (some p, sys') := by
  let start := evBufInit pagedLayout
    { ram := fun _ => 0, pools := fun _ => { freeList := none },
      bufGroups := fun _ => { qHead := none, size := 0, availBufNum := 0 }, exceptions := [] }
  have advertised : evBufGetFreeMaxSize start = 1016 := by decide +kernel
  refine ⟨start, advertised, (evBufAllocate_advertised (.init _) 1016).1.mpr ?_⟩
  exact ⟨by decide, by rw [advertised]; decide⟩

-----------------------------------------------------------------------------------------
-- Large requests
-----------------------------------------------------------------------------------------

/-- While the largest group has a free block, an admitted request is served exactly if it leaves
room for the item header. The parameter check admits eight sizes more, and `long_ev_buf_get` asks
for one of them.
-/
theorem evBufAllocate_servable_iff (run : EvBufHistory layout sys held ever)
    (available : (sys.bufGroups 3).availBufNum ≠ 0)
    : (∀ size : UInt16, 1 ≤ size.toNat → size.toNat ≤ maxBufferSize
        → ((∃ p sys', evBufAllocate sys size = some (some p, sys'))
          ↔ size.toNat ≤ bufferGroup 3 - evBufItemData))
      ∧ longEvBufGet sys = some (none, sys) := by
  obtain ⟨free, state⟩ := run.state
  have largest : (3 : Nat) < defaultBufferGroupNum := by decide
  have some_free := (state.available_iff largest).mp available
  have served (size : UInt16) (positive : 1 ≤ size.toNat)
      : (∃ p sys', evBufAllocate sys size = some (some p, sys'))
        ↔ size.toNat ≤ bufferGroup 3 - evBufItemData := by
    rw [(evBufAllocate_advertised run size).1, state.advertised positive]
    constructor
    · rintro ⟨-, g, inside, serves⟩
      have room := ((state.fits_iff inside size).mp serves).1
      have facts := bufferGroup_facts inside
      have order : bufferGroup 3 = 1024 := rfl
      simp only [evBufItemData] at room ⊢
      omega
    · intro room
      exact ⟨positive, 3, largest, (state.fits_iff largest size).mpr ⟨room, some_free⟩⟩
  refine ⟨fun size positive _ => served size positive, ?_⟩
  rcases state.toPoolState.request (.ofNat maxBufferSize) with
    ⟨p, sys', _, granted, -⟩ | ⟨refused, -⟩
  · have room := (served (.ofNat maxBufferSize) (by decide)).mp ⟨p, sys', granted⟩
    exact absurd room (by decide)
  · exact refused

/-- A request of 1016 bytes after `ev_buf_init`. -/
theorem evBufAllocate_servable_init
    : ∃ sys, longEvBufGet sys = some (none, sys)
      ∧ ∃ p sys', evBufAllocate sys 1016 = some (some p, sys') := by
  let start := evBufInit pagedLayout
    { ram := fun _ => 0, pools := fun _ => { freeList := none },
      bufGroups := fun _ => { qHead := none, size := 0, availBufNum := 0 }, exceptions := [] }
  have run : EvBufHistory pagedLayout start [] [] := .init _
  obtain ⟨served, long⟩ := evBufAllocate_servable_iff run (by decide +kernel)
  exact ⟨start, long, (served 1016 (by decide) (by decide)).mpr (by decide)⟩

/-- `long_ev_buf_get` gets nothing right after `ev_buf_init`, though the largest group is free. -/
theorem longEvBufGet_refused
    : ∃ sys, EvBufHistory pagedLayout sys [] [] ∧ (sys.bufGroups 3).availBufNum = 1
      ∧ (longEvBufGet sys).map Prod.fst = some none := by
  refine ⟨evBufInit pagedLayout
    { ram := fun _ => 0, pools := fun _ => { freeList := none },
      bufGroups := fun _ => { qHead := none, size := 0, availBufNum := 0 }, exceptions := [] },
    .init _, ?_, ?_⟩
  · decide +kernel
  · decide +kernel

-----------------------------------------------------------------------------------------
-- Sizes of buffers
-----------------------------------------------------------------------------------------

/-- The helpers agree on a buffer of group `g`: it is recognised, its size is the capacity of its
group, and every distance from its end is counted from that size.
-/
structure SizesAgree (layout : EvBufLayout) (ram : Ram) (p g : Nat) : Prop where
  buffer : isEvBuf layout p = true
  size : getEvBufSize layout p = bufferGroup g - evBufItemData
  asserted : evBufGetTail.asserted ram p = true
  tail : ∀ assertDebugMode, ∀ offset ≤ bufferGroup g - evBufItemData,
    evBufGetTail assertDebugMode ram p offset = some (p + getEvBufSize layout p - offset)

/-- No other array reaches the data of a block, not even with its end counted in. -/
theorem EvBufLayout.block_in_iff {h : Nat} (inG : g < defaultBufferGroupNum)
    (inH : h < defaultBufferGroupNum) (block : a ∈ layout.blocks g)
    : layout.mem h ≤ a + evBufItemData
        ∧ a + evBufItemData ≤ layout.mem h + bufferBlockSize h * bufferNumInGroup h
      ↔ h = g := by
  have facts := bufferGroup_facts inG
  have bounds := EvBufLayout.block_bounds block
  simp only [evBufItemData]
  constructor
  · rintro ⟨low, high⟩
    by_contra other
    have arrays := layout.apart h inH g inG other
    omega
  · rintro rfl
    omega

/-- `get_ev_buf_size` of a block is the capacity of its group. -/
theorem getEvBufSize_block (inside : g < defaultBufferGroupNum) (block : a ∈ layout.blocks g)
    : getEvBufSize layout (a + evBufItemData) = bufferGroup g - evBufItemData := by
  have within (h : Nat) (inH : h < defaultBufferGroupNum) :=
    EvBufLayout.block_in_iff inside inH block
  rw [getEvBufSize]
  simp only [within 0 (by decide), within 1 (by decide), within 2 (by decide),
    within 3 (by decide)]
  have groups : g = 0 ∨ g = 1 ∨ g = 2 ∨ g = 3 := by
    simp only [defaultBufferGroupNum] at inside
    omega
  rcases groups with rfl | rfl | rfl | rfl <;> rfl

/-- The helpers agree on every buffer of the first three groups and on none of the last one, whose
index fails the assertion of `ev_buf_getTail`.
-/
theorem evBuf_sizes_agree_iff (run : EvBufHistory layout sys held ever) {buffer : Buffer}
    (holds : buffer ∈ held) (inside : g < defaultBufferGroupNum)
    (own : buffer.block ∈ layout.blocks g)
    : (isEvBuf layout buffer.data = true
        ∧ getEvBufSize layout buffer.data = bufferGroup g - evBufItemData)
      ∧ (SizesAgree layout sys.ram buffer.data g ↔ g ≠ 3) := by
  obtain ⟨free, state⟩ := run.state
  obtain ⟨h, inH, a, block, data, word, -⟩ := state.owned buffer holds
  have blockOf : buffer.block = a := by simp [Buffer.block, evBufGetHead, data]
  have same : h = g := EvBufLayout.block_group inH inside block (blockOf ▸ own)
  subst same
  have facts := bufferGroup_facts inside
  have bounds := EvBufLayout.block_bounds block
  have bounded := layout.bounded h inside
  have buf := EvBufLayout.isEvBuf_block inside block
  have size := getEvBufSize_block inside block
  have index : sys.ram.le32 (a + evBufItemData - 4) = h := by
    have address : a + evBufItemData - 4 = a + evBufItemGroupIndex := by
      simp only [evBufItemData, evBufItemGroupIndex]
      omega
    rw [address, word]
  have asserts : evBufGetTail.asserted sys.ram (a + evBufItemData) = decide (h < 3) := by
    rw [evBufGetTail.asserted, index]
  rw [data]
  refine ⟨⟨buf, size⟩, ?_, ?_⟩
  · rintro agree rfl
    have fails := agree.asserted
    rw [asserts] at fails
    cases fails
  · intro other
    have small : h < 3 := by omega
    have holds : evBufGetTail.asserted sys.ram (a + evBufItemData) = true := by
      rw [asserts, decide_eq_true small]
    have listed : evBufGetTail.size[h]? = some (bufferGroup h) := by
      have entries : ∀ i < 3, evBufGetTail.size[i]? = some (bufferGroup i) := by decide
      exact entries h small
    refine ⟨buf, size, holds, ?_⟩
    intro assertDebugMode offset near
    rw [evBufGetTail, holds, index, listed, size]
    simp only [Bool.not_true, Bool.and_false, Bool.false_eq_true, if_false, Option.map_some,
      Option.some.injEq]
    simp only [evBufItemData] at near ⊢
    omega

/-- A small buffer, held after one request. -/
theorem evBuf_sizes_agree_small
    : ∃ (sys : EvBufSys) (p : Nat), isEvBuf pagedLayout p = true
      ∧ SizesAgree pagedLayout sys.ram p 0 := by
  let start := evBufInit pagedLayout
    { ram := fun _ => 0, pools := fun _ => { freeList := none },
      bufGroups := fun _ => { qHead := none, size := 0, availBufNum := 0 }, exceptions := [] }
  have taken : (evBufAllocate start 10).map Prod.fst = some (some 4104) := by decide +kernel
  obtain ⟨⟨p, sys⟩, granted, same⟩ := Option.map_eq_some_iff.mp taken
  cases same
  obtain ⟨⟨buf, -⟩, agree⟩ :=
    evBuf_sizes_agree_iff ((EvBufHistory.init _).granted granted) List.mem_cons_self
      (show 0 < defaultBufferGroupNum by decide) (by decide)
  exact ⟨sys, 4104, buf, agree.mpr (by decide)⟩

/-- A request of 500 bytes gets the block of the last group. Its index fails the assertion, and
without assertions the tail lies in front of the buffer.
-/
theorem large_buffer_asserts
    : ∃ sys, EvBufHistory pagedLayout sys [{ data := 16392, size := 500 }] [16392]
      ∧ evBufGetTail.asserted sys.ram 16392 = false
      ∧ evBufGetTail true sys.ram 16392 0 = none
      ∧ evBufGetTail false sys.ram 16392 0 = some 16384 := by
  let start := evBufInit pagedLayout
    { ram := fun _ => 0, pools := fun _ => { freeList := none },
      bufGroups := fun _ => { qHead := none, size := 0, availBufNum := 0 }, exceptions := [] }
  have taken : (evBufAllocate start 500).map (fun r =>
        (r.1, evBufGetTail.asserted r.2.ram 16392, evBufGetTail true r.2.ram 16392 0,
          evBufGetTail false r.2.ram 16392 0))
      = some (some 16392, false, none, some 16384) := by
    decide +kernel
  obtain ⟨⟨p, sys⟩, granted, same⟩ := Option.map_eq_some_iff.mp taken
  rw [Prod.mk.injEq, Prod.mk.injEq, Prod.mk.injEq] at same
  obtain ⟨rfl, asserted, stopped, tail⟩ := same
  exact ⟨sys, (EvBufHistory.init _).granted granted, asserted, stopped, tail⟩

end TelinkSdk.EvBuffer
