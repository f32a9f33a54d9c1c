import TelinkSdk.Mac.Pib

/-! Which attributes of the PIB can be stored and read back, and which accesses stay inside the
table and the structure. Set and Get compute the table index on their own, and only Set corrects
it for the gap between the two blocks of attributes.
-/

namespace TelinkSdk

open Nor

variable {σ : Type} [TnList σ] {sys sys' : MacSys σ} {attr other index : UInt8}
  {entry : MacPibTbl} {f g : PibField}

/-- The attributes of the first block that are kept in the structure. -/
def macAttrPlain (attr : UInt8) : Bool :=
  decide (macPibAttributeStart ≤ attr) && decide (attr ≤ macConstExtAddr)

/-- The length that the PIB table gives for an attribute. -/
def attrLen (attr : UInt8) : Option Nat :=
  if attr = macPhyAttrCurrentChannel then some 1
  else if macAttrDefined attr ∧ attrOutOfRange attr = false then
    (zbMacPibTbl[attrSetIndex attr]?).map MacPibTbl.len
  else none

/-- The members of the structure that `tl_zbMacAttrGet` reads for an attribute. -/
def attrFields (attr : UInt8) : List PibField :=
  if attr = macPhyAttrCurrentChannel then [.phyChannelCur]
  else if attrOutOfRange attr then []
  else
    match secTable attr with
    | some table => [table.entries, table.pointer]
    | none =>
        ((zbMacPibTbl[attrGetIndex attr]?).map MacPibTbl.field).toList
          ++ (if attr = macAttrBeaconPayload then [.beaconPayloadLen] else [])

-----------------------------------------------------------------------------------------
-- The table and the structure
-----------------------------------------------------------------------------------------

theorem pibStruct_nodup : (pibStruct.map Prod.fst).Nodup := by decide +kernel

theorem zbMacPibTbl_nodup : (zbMacPibTbl.map MacPibTbl.field).Nodup := by decide +kernel

theorem zbMacPibTbl_len : ∀ entry ∈ zbMacPibTbl, entry.len ≤ 15 := by decide +kernel

/-- Every entry of the table stays inside the member it names. -/
theorem zbMacPibTbl_member
    : ∀ entry ∈ zbMacPibTbl, ∃ member ∈ pibStruct, member.1 = entry.field
        ∧ entry.len ≤ member.2 := by
  decide +kernel

/-- The members that are read apart from the table are not those of the first block. -/
theorem zbMacPibTbl_first_block
    : ∀ entry ∈ zbMacPibTbl.take 31, entry.field ≠ .phyChannelCur
        ∧ entry.field ≠ SecTable.key.pointer ∧ entry.field ≠ SecTable.key.entries
        ∧ entry.field ≠ SecTable.device.pointer ∧ entry.field ≠ SecTable.device.entries
        ∧ entry.field ≠ SecTable.secLvl.pointer ∧ entry.field ≠ SecTable.secLvl.entries := by
  decide +kernel

/-- An entry names bytes of the structure. -/
theorem entry_inside (inTable : entry ∈ zbMacPibTbl)
    : entry.offset + entry.len ≤ sizeofMacPib := by
  obtain ⟨⟨name, size⟩, member, rfl, fits⟩ := zbMacPibTbl_member entry inTable
  have inside := Layout.offsetOf_add_le member pibStruct_nodup
  simp only [MacPibTbl.offset, PibField.offset, sizeofMacPib]
  simp only at fits
  omega

/-- Two different entries name the same member only when they stand at the same place. -/
theorem field_ne_of_index_ne {i j : Nat} {first second : MacPibTbl}
    (atFirst : zbMacPibTbl[i]? = some first) (atSecond : zbMacPibTbl[j]? = some second)
    (different : i ≠ j)
    : first.field ≠ second.field := by
  intro same
  have lhs : (zbMacPibTbl.map MacPibTbl.field)[i]? = some first.field := by
    rw [List.getElem?_map, atFirst, Option.map_some]
  have rhs : (zbMacPibTbl.map MacPibTbl.field)[j]? = some first.field := by
    rw [List.getElem?_map, atSecond, Option.map_some, same]
  have inRange : i < (zbMacPibTbl.map MacPibTbl.field).length :=
    (List.getElem?_eq_some_iff.mp lhs).1
  exact different ((List.getElem?_inj inRange zbMacPibTbl_nodup).mp (lhs.trans rhs.symm))

/-- The bytes of a member are the same in two contents of the structure. -/
def SameField (pib pib' : Mem) (f : PibField) : Prop :=
  ∀ size, (f, size) ∈ pibStruct → ∀ i < size, pib' (f.offset + i) = pib (f.offset + i)

/-- Writing into one member leaves every other one. -/
theorem pibCopy_sameField {pib : Mem} (size : Nat) {len : Nat} {bytes : Nat → UInt8}
    (member : (f, size) ∈ pibStruct) (fits : len ≤ size) (different : g ≠ f)
    : SameField pib (pibCopy pib f.offset len bytes) g := by
  intro sizeG memberG i inG
  have apart : g.offset + sizeG ≤ f.offset ∨ f.offset + size ≤ g.offset :=
    Layout.offsetOf_apart memberG member pibStruct_nodup different
  rw [pibCopy, if_neg]
  omega

theorem SameField.byte {pib pib' : Mem} (same : SameField pib pib' f)
    (member : (f, 1) ∈ pibStruct)
    : pib' f.offset = pib f.offset := same 1 member 0 Nat.one_pos

theorem SameField.le32 {pib pib' : Mem} (same : SameField pib pib' f)
    (member : (f, 4) ∈ pibStruct)
    : pib'.le32 f.offset = pib.le32 f.offset :=
  Mem.le32_congr (same 4 member)

theorem SameField.read {pib pib' : Mem} (same : SameField pib pib' entry.field)
    (inTable : entry ∈ zbMacPibTbl)
    : pib'.read entry.offset entry.len = pib.read entry.offset entry.len := by
  obtain ⟨⟨name, size⟩, member, rfl, fits⟩ := zbMacPibTbl_member entry inTable
  exact Mem.read_congr (fun i inside => same size member i (Nat.lt_of_lt_of_le inside fits))

theorem SecTable.entries_member (table : SecTable) : (table.entries, 1) ∈ pibStruct := by
  cases table <;> decide

theorem SecTable.pointer_member (table : SecTable) : (table.pointer, 4) ∈ pibStruct := by
  cases table <;> decide

-----------------------------------------------------------------------------------------
-- Reading
-----------------------------------------------------------------------------------------

theorem attrGetTable_congr {table : SecTable} (lists : sys'.lists = sys.lists)
    (entries : sys'.entries table = sys.entries table)
    (list : sys'.table table = sys.table table)
    : attrGetTable sys' table index = attrGetTable sys table index := by
  simp only [attrGetTable, lists, entries, list]

/-- `tl_zbMacAttrGet` gives the same when the members it reads and the lists are the same. -/
theorem tlZbMacAttrGet_congr (lists : sys'.lists = sys.lists)
    (same : ∀ f ∈ attrFields other, SameField sys.pib sys'.pib f)
    : tlZbMacAttrGet sys' other index = tlZbMacAttrGet sys other index := by
  unfold tlZbMacAttrGet
  unfold attrFields at same
  split
  · next channel =>
      rw [if_pos channel] at same
      rw [(same _ (List.mem_singleton_self _)).byte (by decide)]
  · next notChannel =>
      rw [if_neg notChannel] at same
      split
      · rfl
      · next inRange =>
          rw [if_neg inRange] at same
          cases found : secTable other with
          | some table =>
              simp only [found, List.forall_mem_cons] at same
              simp only [attrGetTable_congr lists (same.1.byte table.entries_member)
                (same.2.1.le32 table.pointer_member)]
          | none =>
              simp only [found] at same
              cases place : zbMacPibTbl[attrGetIndex other]? with
              | none => rfl
              | some entry =>
                  have inTable : entry ∈ zbMacPibTbl := List.mem_of_getElem? place
                  have sameEntry : SameField sys.pib sys'.pib entry.field :=
                    same _ (by simp [place])
                  simp only [sameEntry.read inTable]
                  by_cases payload : other = macAttrBeaconPayload
                  · have sameLen : SameField sys.pib sys'.pib .beaconPayloadLen :=
                      same _ (by simp [payload])
                    rw [sameLen.byte (by decide)]
                  · simp only [payload, false_and, if_false]

-----------------------------------------------------------------------------------------
-- The first block
-----------------------------------------------------------------------------------------

/-- What the functions find for an attribute of the first block. -/
structure PlainEntry (attr : UInt8) (entry : MacPibTbl) : Prop where
  notTxPower : attr ≠ macTxPower
  notChannel : attr ≠ macPhyAttrCurrentChannel
  inRange : attrOutOfRange attr = false
  notTable : secTable attr = none
  set : zbMacPibTbl[attrSetIndex attr]? = some entry
  get : zbMacPibTbl[attrGetIndex attr]? = some entry
  first : entry ∈ zbMacPibTbl.take 31

theorem PlainEntry.inTable (plain : PlainEntry attr entry) : entry ∈ zbMacPibTbl :=
  List.mem_of_mem_take plain.first

theorem macAttrPlain_range (plain : macAttrPlain attr)
    : 64 ≤ attr.toNat ∧ attr.toNat ≤ 94 := by
  simp only [macAttrPlain, Bool.and_eq_true, decide_eq_true_eq, UInt8.le_iff_toNat_le] at plain
  exact plain

theorem attrOutOfRange_low (inRange : attrOutOfRange attr = false) : 64 ≤ attr.toNat := by
  simp only [attrOutOfRange, Bool.or_eq_false_iff, decide_eq_false_iff_not,
    UInt8.lt_iff_toNat_lt, macPibAttributeStart, UInt8.reduceToNat] at inRange
  omega

theorem attr_ne_of_toNat (different : attr.toNat ≠ other.toNat) : attr ≠ other :=
  fun same => different (congrArg UInt8.toNat same)

theorem macAttrPlain_entry (plain : macAttrPlain attr) : ∃ entry, PlainEntry attr entry := by
  obtain ⟨low, high⟩ := macAttrPlain_range plain
  have noGap : ¬macKeyTable ≤ attr := by
    rw [UInt8.le_iff_toNat_le]
    have key : macKeyTable.toNat = 113 := rfl
    omega
  have index : attrGetIndex attr < 31 := by
    have start : macPibAttributeStart.toNat = 64 := rfl
    unfold attrGetIndex
    omega
  have sameIndex : attrSetIndex attr = attrGetIndex attr := by
    simp only [attrSetIndex, attrGetIndex, if_neg noGap]
    rfl
  have inTable : attrGetIndex attr < zbMacPibTbl.length := Nat.lt_trans index (by decide)
  have found : zbMacPibTbl[attrGetIndex attr]? = some zbMacPibTbl[attrGetIndex attr] :=
    List.getElem?_eq_getElem inTable
  refine ⟨_, ?_, ?_, ?_, ?_, by rw [sameIndex, found], found, ?_⟩
  · apply attr_ne_of_toNat
    have power : macTxPower.toNat = 95 := rfl
    omega
  · apply attr_ne_of_toNat
    have channel : macPhyAttrCurrentChannel.toNat = 0 := rfl
    omega
  · have stop : macPibAttributeStop.toNat = 127 := rfl
    have start : macPibAttributeStart.toNat = 64 := rfl
    simp only [attrOutOfRange, Bool.or_eq_false_iff, decide_eq_false_iff_not,
      UInt8.lt_iff_toNat_lt]
    omega
  · have apart (table : UInt8) (above : 113 ≤ table.toNat) : attr ≠ table := by
      apply attr_ne_of_toNat
      omega
    simp only [secTable, if_neg (apart macKeyTable (by decide)),
      if_neg (apart macDeviceTable (by decide)),
      if_neg (apart macSecurityLevelTable (by decide))]
  · apply List.mem_of_getElem?
    rw [List.getElem?_take_of_lt index, found]

/-- `tl_zbMacAttrGet` of another attribute does not read the member of one of the first block,
but for the beacon payload, which is reported with its length.
-/
theorem PlainEntry.field_not_mem (plain : PlainEntry attr entry) (inBlock : macAttrPlain attr)
    (different : other ≠ attr)
    (noLength : ¬(attr = macAttrBeaconPayloadLength ∧ other = macAttrBeaconPayload))
    : entry.field ∉ attrFields other := by
  have apart := zbMacPibTbl_first_block entry plain.first
  unfold attrFields
  split
  · simpa using apart.1
  · split
    · simp
    · next inRange =>
        cases found : secTable other with
        | some table =>
            cases table <;> simp [apart]
        | none =>
            have low := attrOutOfRange_low (Bool.eq_false_iff.mpr inRange)
            have start := (macAttrPlain_range inBlock).1
            simp only [List.mem_append, not_or]
            constructor
            · cases place : zbMacPibTbl[attrGetIndex other]? with
              | none => simp
              | some second =>
                  have apartIndex : attrGetIndex attr ≠ attrGetIndex other := by
                    have apartNat : other.toNat ≠ attr.toNat :=
                      fun same => different (UInt8.toNat_inj.mp same)
                    simp only [attrGetIndex, macPibAttributeStart, UInt8.reduceToNat]
                    omega
                  simpa using field_ne_of_index_ne plain.get place apartIndex
            · split
              · next payload =>
                  have lengthEntry : zbMacPibTbl[6]? = some ⟨.beaconPayloadLen, 1⟩ := rfl
                  have apartIndex : attrGetIndex attr ≠ 6 := by
                    intro same
                    apply noLength
                    refine ⟨UInt8.toNat_inj.mp ?_, payload⟩
                    simp only [attrGetIndex, macPibAttributeStart, UInt8.reduceToNat] at same
                    simp only [macAttrBeaconPayloadLength, UInt8.reduceToNat]
                    omega
                  simpa using field_ne_of_index_ne plain.get lengthEntry apartIndex
              · simp

-----------------------------------------------------------------------------------------
-- A faithful store
-----------------------------------------------------------------------------------------

/-- A buffer that holds the bytes of a value. -/
def MacValue.ofBytes (addr : Nat) (v : List UInt8) : MacValue :=
  { addr, bytes := fun i => v.getD i 0 }

/-- The length that is reported with a value: of the beacon payload, the part in use. -/
def reportedLen (sys : MacSys σ) (attr : UInt8) (v : List UInt8) : UInt8 :=
  if attr = macAttrBeaconPayload ∧ (sys.pib PibField.beaconPayloadLen.offset).toNat ≤ v.length
  then sys.pib PibField.beaconPayloadLen.offset
  else .ofNat v.length

def AttrGet.forgetLen : AttrGet → AttrGet
  | .bytes value _ => .bytes value 0
  | .invalidParameter => .invalidParameter
  | .item descriptor => .item descriptor

/-- What `tl_zbMacAttrGet` says of `other` is the same after `attr` was stored; only the length
of the beacon payload may be another one after it was stored.
-/
def SameReport (attr other : UInt8) (before after : Option AttrGet) : Prop :=
  if attr = macAttrBeaconPayloadLength ∧ other = macAttrBeaconPayload
  then after.map AttrGet.forgetLen = before.map AttrGet.forgetLen
  else after = before

/-- Storing a value succeeds, reading gives it back, and every other attribute is as before. -/
def Faithful (sys : MacSys σ) (attr : UInt8) (addr : Nat) (v : List UInt8) : Prop :=
  ∃ result,
    tlZbMacAttrSet sys attr (.ofBytes addr v) (.ofNat v.length) = some result
    ∧ result.status = .success
    ∧ (∀ index, tlZbMacAttrGet result.sys attr index
        = some (.bytes v (reportedLen sys attr v)))
    ∧ ∀ other, macAttrDefined other → other ≠ attr → ∀ index,
        SameReport attr other (tlZbMacAttrGet sys other index)
          (tlZbMacAttrGet result.sys other index)

theorem sameReport_of_eq {before after : Option AttrGet} (same : after = before)
    : SameReport attr other before after := by
  unfold SameReport
  split
  · rw [same]
  · exact same

theorem pibCopy_read (pib : Mem) (offset addr : Nat) (v : List UInt8)
    : (pibCopy pib offset v.length (MacValue.ofBytes addr v).bytes).read offset v.length = v := by
  apply Mem.read_eq_iff.mpr
  intro i inside
  rw [pibCopy, if_pos ⟨by omega, by omega⟩, Nat.add_sub_cancel_left]
  simp only [MacValue.ofBytes, List.getD_eq_getElem?_getD, List.getElem?_eq_getElem inside,
    Option.getD_some]

/-- An attribute of the first block is stored in its own member. -/
theorem PlainEntry.set_eq (plain : PlainEntry attr entry) {addr : Nat} {v : List UInt8}
    (length : v.length = entry.len)
    : tlZbMacAttrSet sys attr (.ofBytes addr v) (.ofNat v.length)
      = some
        {
          status := .success
          value := .ofBytes addr v
          sys := { sys with
            pib := pibCopy sys.pib entry.offset v.length (MacValue.ofBytes addr v).bytes }
        } := by
  have short : entry.len ≤ 15 := zbMacPibTbl_len entry plain.inTable
  have len : (UInt8.ofNat v.length).toNat = v.length :=
    UInt8.toNat_ofNat_of_lt (by simp only [UInt8.size]; omega)
  have fits : ¬entry.len < v.length := by omega
  simp only [tlZbMacAttrSet, if_neg plain.notTxPower, if_neg plain.notChannel, plain.inRange,
    plain.notTable, plain.set, len, if_neg fits]
  rfl

/-- The value of an attribute of the first block, as `tl_zbMacAttrGet` reads it. -/
theorem PlainEntry.get_eq (plain : PlainEntry attr entry) (sys : MacSys σ) {v : List UInt8}
    (length : v.length = entry.len) (stored : sys.pib.read entry.offset entry.len = v)
    : tlZbMacAttrGet sys attr index = some (.bytes v (reportedLen sys attr v)) := by
  simp only [tlZbMacAttrGet, if_neg plain.notChannel, plain.inRange, plain.notTable, plain.get,
    stored, reportedLen, length]
  rfl

/-- Writing the member of one attribute keeps what is read of the others. -/
theorem tlZbMacAttrGet_pibCopy {size len : Nat} {bytes : Nat → UInt8}
    (member : (f, size) ∈ pibStruct) (fits : len ≤ size) (apart : f ∉ attrFields other)
    : tlZbMacAttrGet { sys with pib := pibCopy sys.pib f.offset len bytes } other index
      = tlZbMacAttrGet sys other index := by
  refine tlZbMacAttrGet_congr ?_ ?_
  · rfl
  intro g reads
  have different : g ≠ f := fun same => apart (same ▸ reads)
  exact pibCopy_sameField size member fits different

/-- The beacon payload is one of the first block. -/
theorem beaconPayload_entry : PlainEntry macAttrBeaconPayload ⟨.beaconPayload, 15⟩ := by
  constructor <;> decide

theorem beaconPayloadLength_entry
    : PlainEntry macAttrBeaconPayloadLength ⟨.beaconPayloadLen, 1⟩ := by
  constructor <;> decide

theorem PlainEntry.unique {entry' : MacPibTbl} (plain : PlainEntry attr entry)
    (plain' : PlainEntry attr entry')
    : entry = entry' := Option.some.inj (plain.get.symm.trans plain'.get)

omit [TnList σ] in
/-- Storing an attribute of the first block leaves the length that is reported with it. -/
theorem PlainEntry.reportedLen_set (plain : PlainEntry attr entry) {v : List UInt8}
    {bytes : Nat → UInt8} (length : v.length = entry.len)
    : reportedLen { sys with pib := pibCopy sys.pib entry.offset v.length bytes } attr v
      = reportedLen sys attr v := by
  by_cases payload : attr = macAttrBeaconPayload
  · subst payload
    cases plain.unique beaconPayload_entry
    have same : SameField sys.pib (pibCopy sys.pib PibField.beaconPayload.offset v.length bytes)
        .beaconPayloadLen :=
      pibCopy_sameField 15 (by decide) (Nat.le_of_eq length) (by decide)
    simp only [reportedLen, MacPibTbl.offset, same.byte (by decide)]
  · simp only [reportedLen, payload, false_and, if_false]

/-- Storing the length of the beacon payload keeps the payload itself. -/
theorem forgetLen_beaconPayload {bytes : Nat → UInt8}
    : (tlZbMacAttrGet
          { sys with pib := pibCopy sys.pib PibField.beaconPayloadLen.offset 1 bytes }
          macAttrBeaconPayload index).map AttrGet.forgetLen
      = (tlZbMacAttrGet sys macAttrBeaconPayload index).map AttrGet.forgetLen := by
  have same : SameField sys.pib (pibCopy sys.pib PibField.beaconPayloadLen.offset 1 bytes)
      .beaconPayload :=
    pibCopy_sameField 1 (by decide) (Nat.le_refl _) (by decide)
  have sameRead := SameField.read same beaconPayload_entry.inTable
  rw [beaconPayload_entry.get_eq sys (Mem.read_length _ _ _) rfl,
    beaconPayload_entry.get_eq _ (Mem.read_length _ _ _) rfl]
  simp only [Option.map_some, AttrGet.forgetLen, sameRead]

theorem PlainEntry.faithful (plain : PlainEntry attr entry) (inBlock : macAttrPlain attr)
    {addr : Nat} {v : List UInt8} (length : v.length = entry.len)
    : Faithful sys attr addr v := by
  refine ⟨_, plain.set_eq length, rfl, ?_, ?_⟩
  · intro index
    have stored := pibCopy_read sys.pib entry.offset addr v
    rw [plain.get_eq _ length (length ▸ stored), plain.reportedLen_set length]
  · intro other defined different index
    by_cases payload : attr = macAttrBeaconPayloadLength ∧ other = macAttrBeaconPayload
    · obtain ⟨rfl, rfl⟩ := payload
      cases plain.unique beaconPayloadLength_entry
      rw [SameReport, if_pos ⟨rfl, rfl⟩, length]
      exact forgetLen_beaconPayload
    · apply sameReport_of_eq
      obtain ⟨⟨name, size⟩, member, named, fits⟩ := zbMacPibTbl_member entry plain.inTable
      simp only at named fits
      subst named
      exact tlZbMacAttrGet_pibCopy member (Nat.le_trans (Nat.le_of_eq length) fits)
        (plain.field_not_mem inBlock different payload)

/-- Only the PHY attribute itself reads the current channel. -/
theorem phyChannelCur_not_mem (different : other ≠ macPhyAttrCurrentChannel)
    : PibField.phyChannelCur ∉ attrFields other := by
  have notInTable : ∀ entry ∈ zbMacPibTbl, PibField.phyChannelCur ≠ entry.field := by
    decide +kernel
  unfold attrFields
  rw [if_neg different]
  split
  · simp
  · cases found : secTable other with
    | some table => cases table <;> simp [SecTable.entries, SecTable.pointer]
    | none =>
        simp only [List.mem_append, not_or]
        constructor
        · cases place : zbMacPibTbl[attrGetIndex other]? with
          | none => simp
          | some entry => simpa using notInTable entry (List.mem_of_getElem? place)
        · split <;> simp

theorem update_eq_pibCopy (pib : Mem) (offset : Nat) (byte : UInt8)
    : Function.update pib offset byte = pibCopy pib offset 1 (fun _ => byte) := by
  funext x
  by_cases here : x = offset
  · rw [here, Function.update_self, pibCopy, if_pos ⟨Nat.le_refl _, by omega⟩]
  · rw [Function.update_of_ne here, pibCopy, if_neg (by omega)]

theorem faithful_channel {addr : Nat} {v : List UInt8} (length : v.length = 1)
    : Faithful sys macPhyAttrCurrentChannel addr v := by
  obtain ⟨byte, rfl⟩ := List.length_eq_one_iff.mp length
  refine ⟨_, rfl, rfl, ?_, ?_⟩
  · intro index
    simp only [tlZbMacAttrGet, Function.update_self, if_true]
    rfl
  · intro other defined different index
    apply sameReport_of_eq
    rw [update_eq_pibCopy]
    exact tlZbMacAttrGet_pibCopy (by decide) (Nat.le_refl 1) (phyChannelCur_not_mem different)

/-- The transmit power goes to the radio and not into the structure, where it is read. -/
theorem faithful_txPower_iff {addr : Nat} {level : UInt8} (small : level ≤ 11)
    : Faithful sys macTxPower addr [level] ↔ sys.pib PibField.txPower.offset = level := by
  have noClamp : ¬11 < level := UInt8.not_lt.mpr small
  have readBack (sys : MacSys σ) (index : UInt8)
      : tlZbMacAttrGet sys macTxPower index
        = some (.bytes [sys.pib PibField.txPower.offset] 1) := rfl
  have setEq : tlZbMacAttrSet sys macTxPower (.ofBytes addr [level]) (.ofNat 1)
      = some
        {
          status := .success
          value := { MacValue.ofBytes addr [level] with
            bytes := Function.update (MacValue.ofBytes addr [level]).bytes 0 level }
          sys := { sys with radioTxPower := level }
        } := by
    have first : (MacValue.ofBytes addr [level]).bytes 0 = level := rfl
    simp only [tlZbMacAttrSet, if_true, first, if_neg noClamp]
  constructor
  · rintro ⟨result, stored, -, readsBack, -⟩
    cases setEq.symm.trans stored
    have read := (readBack _ 0).symm.trans (readsBack 0)
    simp only [Option.some.injEq, AttrGet.bytes.injEq, List.cons.injEq] at read
    exact read.1.1
  · intro same
    refine ⟨_, setEq, rfl, ?_, ?_⟩
    · intro index
      rw [readBack, same]
      rfl
    · intro other defined different index
      apply sameReport_of_eq
      exact tlZbMacAttrGet_congr rfl (fun f reads size member i inside => rfl)

/-- Behind the gap the index that `tl_zbMacAttrGet` computes lies behind the table. -/
theorem get_behind_gap (above : 112 < attr.toNat) (plain : secTable attr = none)
    (inRange : attrOutOfRange attr = false)
    : tlZbMacAttrGet sys attr index = none := by
  have notChannel : attr ≠ macPhyAttrCurrentChannel := by
    apply attr_ne_of_toNat
    simp only [macPhyAttrCurrentChannel, UInt8.reduceToNat]
    omega
  have behind : zbMacPibTbl[attrGetIndex attr]? = none := by
    apply List.getElem?_eq_none
    have length : zbMacPibTbl.length = 46 := rfl
    simp only [attrGetIndex, macPibAttributeStart, UInt8.reduceToNat]
    omega
  simp only [tlZbMacAttrGet, if_neg notChannel, inRange, plain, behind]
  rfl

/-- The blocks that the header defines, by number. -/
theorem macAttrDefined_cases (defined : macAttrDefined attr)
    : attr = macPhyAttrCurrentChannel ∨ attr = macPhyAttrModeCca ∨ attr = macPhyAttrCurrentPage
      ∨ macAttrPlain attr ∨ attr = macTxPower
      ∨ 112 < attr.toNat ∧ attrOutOfRange attr = false := by
  simp only [macAttrDefined, Bool.or_eq_true, Bool.and_eq_true, decide_eq_true_eq, beq_iff_eq,
    UInt8.le_iff_toNat_le, macPibAttributeStart, macTxPower, macKeyTable, macPibAttributeStop,
    UInt8.reduceToNat] at defined
  rcases defined with (((channel | cca) | page) | first) | second
  · exact .inl channel
  · exact .inr (.inl cca)
  · exact .inr (.inr (.inl page))
  · rcases Nat.lt_or_ge attr.toNat 95 with low | high
    · refine .inr (.inr (.inr (.inl ?_)))
      simp only [macAttrPlain, Bool.and_eq_true, decide_eq_true_eq, UInt8.le_iff_toNat_le,
        macPibAttributeStart, macConstExtAddr, UInt8.reduceToNat]
      omega
    · have same : attr.toNat = macTxPower.toNat := Nat.le_antisymm first.2 high
      exact .inr (.inr (.inr (.inr (.inl (UInt8.toNat_inj.mp same)))))
  · refine .inr (.inr (.inr (.inr (.inr ⟨by omega, ?_⟩))))
    simp only [attrOutOfRange, Bool.or_eq_false_iff, decide_eq_false_iff_not,
      UInt8.lt_iff_toNat_lt, macPibAttributeStart, macPibAttributeStop, UInt8.reduceToNat]
    omega

theorem PlainEntry.attrLen_eq (plain : PlainEntry attr entry) (defined : macAttrDefined attr)
    : attrLen attr = some entry.len := by
  simp only [attrLen, if_neg plain.notChannel, defined, plain.inRange, plain.set, and_self,
    if_true, Option.map_some]

/-- Every attribute that the header defines, outside the tables, can be stored and read back
together with all others exactly when it is the channel or one of the first block; the transmit
power only with the value that the structure already holds.
-/
theorem tlZbMacAttr_faithful_iff (sys : MacSys σ) (attr : UInt8) (addr : Nat) (v : List UInt8)
    (defined : macAttrDefined attr) (plain : secTable attr = none)
    (length : ∀ n, attrLen attr = some n → v.length = n)
    (power : attr = macTxPower → ∀ level ∈ v, level ≤ 11)
    : Faithful sys attr addr v
      ↔ attr = macPhyAttrCurrentChannel ∨ macAttrPlain attr
        ∨ attr = macTxPower ∧ v = [sys.pib PibField.txPower.offset] := by
  have powerIff (isPower : attr = macTxPower)
      : Faithful sys attr addr v ↔ v = [sys.pib PibField.txPower.offset] := by
    subst isPower
    obtain ⟨level, rfl⟩ := List.length_eq_one_iff.mp (length 1 rfl)
    rw [faithful_txPower_iff (power rfl level (List.mem_singleton_self _))]
    simp [eq_comm]
  constructor
  · intro faithful
    obtain ⟨result, stored, success, readsBack, -⟩ := id faithful
    rcases macAttrDefined_cases defined with channel | cca | page | first | isPower | second
    · exact .inl channel
    · subst cca
      cases stored
      cases success
    · subst page
      cases stored
      cases success
    · exact .inr (.inl first)
    · exact .inr (.inr ⟨isPower, (powerIff isPower).mp faithful⟩)
    · have reads := readsBack 0
      rw [get_behind_gap second.1 plain second.2] at reads
      cases reads
  · rintro (rfl | first | ⟨isPower, same⟩)
    · exact faithful_channel (length 1 rfl)
    · obtain ⟨entry, found⟩ := macAttrPlain_entry first
      exact found.faithful first (length _ (found.attrLen_eq defined))
    · exact (powerIff isPower).mpr same

/-- The PAN identifier is faithful, the transmit power not when it changes. -/
theorem tlZbMacAttr_faithful_panId
    : Faithful MacSys.boot 0x50 0 [0x34, 0x12] ∧ ¬Faithful MacSys.boot macTxPower 0 [5] := by
  have panId := tlZbMacAttr_faithful_iff MacSys.boot 0x50 0 [0x34, 0x12] (by decide) (by decide)
    (by decide) (by decide)
  have power := tlZbMacAttr_faithful_iff MacSys.boot macTxPower 0 [5] (by decide) (by decide)
    (by decide) (by simp)
  refine ⟨panId.mpr (.inr (.inl (by decide))), fun faithful => ?_⟩
  rcases power.mp faithful with channel | plain | ⟨-, same⟩
  · exact absurd channel (by decide)
  · exact absurd plain (by decide)
  · exact absurd same (by decide)

/-- The frame counter, which the header defines and the table gives four bytes, is stored by Set
and read by Get from behind the table.
-/
theorem frameCounter_not_faithful
    : macAttrDefined 0x77 ∧ secTable 0x77 = none ∧ attrLen 0x77 = some 4
      ∧ (tlZbMacAttrSet MacSys.boot 0x77 (.ofBytes 0 [1, 0, 0, 0]) 4).map AttrSet.status
        = some .success
      ∧ ¬Faithful MacSys.boot 0x77 0 [1, 0, 0, 0] := by
  refine ⟨by decide, by decide, by decide, by decide, ?_⟩
  rintro ⟨result, -, -, readsBack, -⟩
  have reads := readsBack 0
  rw [get_behind_gap (by decide) (by decide) (by decide)] at reads
  cases reads

-----------------------------------------------------------------------------------------
-- Safe accesses
-----------------------------------------------------------------------------------------

/-- The table index that `tl_zbMacAttrSet` uses, when it gets as far as the table. -/
def attrSetAccess (attr : UInt8) : Option Nat :=
  if attr = macTxPower ∨ attr = macPhyAttrCurrentChannel ∨ attrOutOfRange attr
      ∨ (secTable attr).isSome then none
  else some (attrSetIndex attr)

/-- The table index that `tl_zbMacAttrGet` uses, when it gets as far as the table. -/
def attrGetAccess (attr : UInt8) : Option Nat :=
  if attr = macPhyAttrCurrentChannel ∨ attrOutOfRange attr ∨ (secTable attr).isSome then none
  else some (attrGetIndex attr)

/-- `tl_zbMacAttrSet` from the table on. -/
theorem tlZbMacAttrSet_access {i : Nat} {value : MacValue} (access : attrSetAccess attr = some i)
    : tlZbMacAttrSet sys attr value index
      = (zbMacPibTbl[i]?).map (fun entry =>
        if entry.len < index.toNat then { status := .invalidParameter, value, sys }
        else
          {
            status := .success
            value
            sys := { sys with pib := pibCopy sys.pib entry.offset index.toNat value.bytes }
          }) := by
  unfold attrSetAccess at access
  split at access
  · cases access
  · next reached =>
      simp only [not_or, Bool.not_eq_true, Option.isSome_eq_false_iff, Option.isNone_iff_eq_none] at reached
      obtain ⟨notPower, notChannel, inRange, notTable⟩ := reached
      cases access
      simp only [tlZbMacAttrSet, if_neg notPower, if_neg notChannel, inRange,
        notTable, Bool.false_eq_true, if_false]
      cases zbMacPibTbl[attrSetIndex attr]? with
      | none => rfl
      | some entry =>
          simp only [Option.map_some]
          split <;> rfl

/-- `tl_zbMacAttrGet` from the table on. -/
theorem tlZbMacAttrGet_access (sys : MacSys σ) (index : UInt8) {i : Nat}
    (access : attrGetAccess attr = some i)
    : (tlZbMacAttrGet sys attr index).map AttrGet.forgetLen
      = (zbMacPibTbl[i]?).map (fun entry =>
        .bytes (sys.pib.read entry.offset entry.len) 0) := by
  unfold attrGetAccess at access
  split at access
  · cases access
  · next reached =>
      simp only [not_or, Bool.not_eq_true, Option.isSome_eq_false_iff, Option.isNone_iff_eq_none] at reached
      obtain ⟨notChannel, inRange, notTable⟩ := reached
      cases access
      simp only [tlZbMacAttrGet, if_neg notChannel, inRange, notTable, Bool.false_eq_true,
        if_false]
      cases zbMacPibTbl[attrGetIndex attr]? with
      | none => rfl
      | some entry => rfl

/-- Both functions stay inside the table and the structure, and refuse an identifier that the
header does not define.
-/
structure PibSafe (sys : MacSys σ) (attr : UInt8) (value : MacValue) (index : UInt8)
    : Prop where
  setIndex : ∀ i, attrSetAccess attr = some i → i < zbMacPibTbl.length
  getIndex : ∀ i, attrGetAccess attr = some i → i < zbMacPibTbl.length
  setCopy : ∀ i entry, attrSetAccess attr = some i → zbMacPibTbl[i]? = some entry
    → index.toNat ≤ entry.len → entry.offset + index.toNat ≤ sizeofMacPib
  getCopy : ∀ i entry, attrGetAccess attr = some i → zbMacPibTbl[i]? = some entry
    → entry.offset + entry.len ≤ sizeofMacPib
  undefined : ¬macAttrDefined attr
    → tlZbMacAttrSet sys attr value index = some { status := .invalidParameter, value, sys }
      ∧ tlZbMacAttrGet sys attr index = some .invalidParameter

/-- The identifiers that are handled before the table, or with an index that lies in it. -/
def macAttrSafe (attr : UInt8) : Bool :=
  decide (attr ≤ macTxPower) || (secTable attr).isSome || decide (macPibAttributeStop < attr)

theorem attrGetAccess_eq (low : 64 ≤ attr.toNat) (high : attr.toNat ≤ 127)
    (notTable : secTable attr = none)
    : attrGetAccess attr = some (attr.toNat - 64) := by
  unfold attrGetAccess
  rw [if_neg]
  · rfl
  · simp only [not_or, Bool.not_eq_true, Option.isSome_eq_false_iff, Option.isNone_iff_eq_none]
    refine ⟨attr_ne_of_toNat ?_, ?_, notTable⟩
    · simp only [macPhyAttrCurrentChannel, UInt8.reduceToNat]
      omega
    · simp only [attrOutOfRange, Bool.or_eq_false_iff, decide_eq_false_iff_not,
        UInt8.lt_iff_toNat_lt, macPibAttributeStart, macPibAttributeStop, UInt8.reduceToNat]
      omega

/-- A safe identifier is refused, a table, or one of the first block. -/
theorem macAttrSafe_cases (safe : macAttrSafe attr)
    : attrOutOfRange attr ∨ (secTable attr).isSome ∨ 64 ≤ attr.toNat ∧ attr.toNat ≤ 95 := by
  simp only [macAttrSafe, attrOutOfRange, Bool.or_eq_true, decide_eq_true_eq,
    UInt8.le_iff_toNat_le, UInt8.lt_iff_toNat_lt, macTxPower, macPibAttributeStart,
    macPibAttributeStop, UInt8.reduceToNat] at safe ⊢
  rcases safe with (low | table) | high
  · omega
  · exact .inr (.inl table)
  · exact .inl (.inl high)

theorem macAttrDefined_table (isTable : (secTable attr).isSome) : macAttrDefined attr := by
  unfold secTable at isTable
  split at isTable
  · next key => exact key ▸ by decide
  · split at isTable
    · next device => exact device ▸ by decide
    · split at isTable
      · next secLvl => exact secLvl ▸ by decide
      · cases isTable

theorem macAttrDefined_first_block (low : 64 ≤ attr.toNat) (high : attr.toNat ≤ 95)
    : macAttrDefined attr := by
  simp only [macAttrDefined, Bool.or_eq_true, Bool.and_eq_true, decide_eq_true_eq,
    UInt8.le_iff_toNat_le, macPibAttributeStart, macTxPower, UInt8.reduceToNat]
  exact .inl (.inr ⟨low, high⟩)

theorem attrOutOfRange_invalid (out : attrOutOfRange attr) (notPower : attr ≠ macTxPower)
    (notChannel : attr ≠ macPhyAttrCurrentChannel) {value : MacValue}
    : tlZbMacAttrSet sys attr value index = some { status := .invalidParameter, value, sys }
      ∧ tlZbMacAttrGet sys attr index = some .invalidParameter := by
  simp only [tlZbMacAttrSet, tlZbMacAttrGet, if_neg notPower, if_neg notChannel, out, if_true,
    and_self]

/-- No access is made for an identifier outside the range. -/
theorem attrAccess_outOfRange (out : attrOutOfRange attr)
    : attrSetAccess attr = none ∧ attrGetAccess attr = none := by
  simp only [attrSetAccess, attrGetAccess, out, true_or, or_true, if_true, and_self]

/-- In the first block both indices are the distance from its start. -/
theorem attrAccess_first_block {i : Nat} (low : 64 ≤ attr.toNat) (high : attr.toNat ≤ 95)
    (access : attrSetAccess attr = some i ∨ attrGetAccess attr = some i)
    : i < zbMacPibTbl.length := by
  have length : zbMacPibTbl.length = 46 := rfl
  rcases access with set | get
  · unfold attrSetAccess at set
    split at set
    · cases set
    · cases set
      have before : attrSetIndex attr ≤ attr.toNat - 64 := Nat.sub_le _ _
      omega
  · unfold attrGetAccess at get
    split at get
    · cases get
    · cases get
      have same : attrGetIndex attr = attr.toNat - 64 := rfl
      omega

theorem attrAccess_table (isTable : (secTable attr).isSome)
    : attrSetAccess attr = none ∧ attrGetAccess attr = none := by
  simp only [attrSetAccess, attrGetAccess, isTable, or_true, if_true, and_self]

/-- The accesses are safe for exactly these identifiers, in every state and with every value. -/
theorem pibSafe_iff (sys : MacSys σ) (attr : UInt8) (value : MacValue) (index : UInt8)
    : PibSafe sys attr value index ↔ macAttrSafe attr := by
  constructor
  · intro safe
    by_contra outside
    simp only [macAttrSafe, Bool.or_eq_true, decide_eq_true_eq, not_or, Bool.not_eq_true,
      Option.isSome_eq_false_iff, Option.isNone_iff_eq_none, UInt8.le_iff_toNat_le,
      UInt8.lt_iff_toNat_lt, macTxPower, macPibAttributeStop, UInt8.reduceToNat] at outside
    obtain ⟨⟨above, notTable⟩, below⟩ := outside
    have access := attrGetAccess_eq (by omega) (by omega) notTable
    have inTable := safe.getIndex _ access
    have length : zbMacPibTbl.length = 46 := rfl
    -- the index lies in the table, so the identifier lies in the gap and is not defined
    have undefined : ¬macAttrDefined attr := by
      simp only [macAttrDefined, Bool.or_eq_true, Bool.and_eq_true, decide_eq_true_eq,
        beq_iff_eq, UInt8.le_iff_toNat_le, ← UInt8.toNat_inj, macPhyAttrCurrentChannel,
        macPhyAttrModeCca, macPhyAttrCurrentPage, macPibAttributeStart, macTxPower, macKeyTable,
        macPibAttributeStop, UInt8.reduceToNat]
      omega
    have reads := tlZbMacAttrGet_access sys index access
    rw [(safe.undefined undefined).2, List.getElem?_eq_getElem inTable] at reads
    cases reads
  · intro safe
    have inTable (i : Nat) (access : attrSetAccess attr = some i ∨ attrGetAccess attr = some i)
        : i < zbMacPibTbl.length := by
      rcases macAttrSafe_cases safe with out | table | first
      · simp [attrAccess_outOfRange out] at access
      · simp [attrAccess_table table] at access
      · exact attrAccess_first_block first.1 first.2 access
    refine
      {
        setIndex := fun i access => inTable i (.inl access)
        getIndex := fun i access => inTable i (.inr access)
        setCopy := fun i entry _ found fits => ?_
        getCopy := fun i entry _ found => entry_inside (List.mem_of_getElem? found)
        undefined := fun undefined => ?_
      }
    · exact Nat.le_trans (Nat.add_le_add_left fits _)
        (entry_inside (List.mem_of_getElem? found))
    · rcases macAttrSafe_cases safe with out | table | first
      · refine attrOutOfRange_invalid out ?_ ?_
        · rintro rfl
          exact absurd out (by decide)
        · rintro rfl
          exact undefined (by decide)
      · exact absurd (macAttrDefined_table table) undefined
      · exact absurd (macAttrDefined_first_block first.1 first.2) undefined

/-- An identifier in the gap, which the header does not define, overwrites the pointer of the key
table.
-/
theorem gap_overwrites_keyTable
    : macAttrDefined 0x60 = false
      ∧ (tlZbMacAttrSet MacSys.boot 0x60 (.ofBytes 0 [1, 2, 3, 4]) 4).map
          (fun result => (result.status, result.sys.table .key))
        = some (.success, 0x04030201)
      ∧ ¬PibSafe MacSys.boot 0x60 (.ofBytes 0 [1, 2, 3, 4]) 4 := by
  refine ⟨by decide, by decide +kernel, ?_⟩
  intro safe
  have refused := (safe.undefined (by decide)).2
  exact absurd refused (by decide +kernel)

end TelinkSdk
