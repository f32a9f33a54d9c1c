import TelinkSdk.Mac.PibAccess

/-! The bounds of `g_zbMacPibTbl`. No function reads them, so the PIB stays within them only as long
as the callers see to it.
-/

namespace TelinkSdk

open Nor

-----------------------------------------------------------------------------------------
-- Bounds
-----------------------------------------------------------------------------------------

abbrev tlZbMacChannelStart : UInt8 := 11
abbrev tlZbMacChannelNum : UInt8 := 16
abbrev tlZbMacChannelStop : UInt8 := tlZbMacChannelStart + tlZbMacChannelNum - 1

/-- The columns `min` and `max` of `mac_pibTbl_t`. -/
structure PibBounds where
  min : Nat
  max : Nat
deriving DecidableEq

/-- The bounds in `g_zbMacPibTbl`, row by row. -/
def zbMacPibBounds : List PibBounds :=
  [
    ⟨54, 54⟩, ⟨0, 1⟩, ⟨0, 1⟩, ⟨0, 1⟩,
    ⟨6, 6⟩, ⟨0, 0⟩, ⟨0, 52⟩, ⟨0, 15⟩,
    ⟨1, 1⟩, ⟨0x00, 0xFF⟩, ⟨0, 0⟩, ⟨0, 0⟩,
    ⟨0x00, 0xFF⟩, ⟨0, 1⟩, ⟨0, 254⟩, ⟨0, 8⟩, ⟨0, 0⟩,
    ⟨0, 1⟩, ⟨0, 1⟩, ⟨0, 0⟩, ⟨0, 15⟩,
    ⟨0, 0⟩, ⟨0, 1⟩, ⟨0, 8⟩,
    ⟨0x00, 0xFF⟩, ⟨0, 7⟩, ⟨2, 64⟩, ⟨0, 0⟩,
    ⟨0, 1⟩, ⟨0, 1⟩, ⟨0, 1⟩, ⟨0, 11⟩,
    -- security related attributes
    ⟨0, 0⟩, ⟨0, macKeyTableMaxLen⟩, ⟨0, 0⟩, ⟨0, macDevTableMaxLen⟩,
    ⟨0, 0⟩, ⟨0, macSecLvlTableMaxLen⟩, ⟨0, 0xffffffff⟩, ⟨0, 7⟩,
    ⟨0, 3⟩, ⟨0, 0⟩, ⟨1, 0xff⟩,
    ⟨0, 0⟩, ⟨0, 0⟩, ⟨0, 0⟩
  ]

/-- A row of `g_zbMacPibTbl` with all its columns. -/
abbrev PibRow := MacPibTbl × PibBounds

def zbMacPibRows : List PibRow := zbMacPibTbl.zip zbMacPibBounds

/-- A row for a number, with bounds that leave a choice. -/
def PibRow.Checked (row : PibRow) : Prop := row.1.len ≤ 4 ∧ row.2.min < row.2.max

instance (row : PibRow) : Decidable row.Checked :=
  inferInstanceAs (Decidable (row.1.len ≤ 4 ∧ row.2.min < row.2.max))

def PibBounds.Has (bounds : PibBounds) (n : Nat) : Prop := bounds.min ≤ n ∧ n ≤ bounds.max

instance (bounds : PibBounds) (n : Nat) : Decidable (bounds.Has n) :=
  inferInstanceAs (Decidable (bounds.min ≤ n ∧ n ≤ bounds.max))

def ChannelInRange (channel : UInt8) : Prop :=
  tlZbMacChannelStart ≤ channel ∧ channel ≤ tlZbMacChannelStop

/-- The little-endian number of some bytes. -/
def leNumber : List UInt8 → Nat
  | [] => 0
  | b :: rest => b.toNat + 256 * leNumber rest

structure PibInRange (pib : Mem) : Prop where
  rows : ∀ row ∈ zbMacPibRows, row.Checked
    → row.2.Has (leNumber (pib.read row.1.offset row.1.len))
  channel : ChannelInRange (pib PibField.phyChannelCur.offset)

/-- `macPibDefault`, the bytes of the members that it names. -/
def macPibDefault (zbEdRole : Bool) (defaultChannel : UInt8) : PibField → List UInt8
  | .ackWaitDuration => [84, 0]
  | .frameRetryNum => [3]
  | .transactionPersistenceTime => [0xf4, 0x01]
  | .panId => [0xff, 0xff]
  | .shortAddress => [0xff, 0xff]
  | .respWaitTime => [32]
  | .phyChannelCur => [defaultChannel]
  | .minBe => if zbEdRole then [0] else [5]
  | .maxBe => [8]
  | .beaconOrder => [15]
  | .maxCsmaBackoffs => [4]
  | .coordShortAddress => [0xff, 0xff]
  | .rxOnWhenIdle => if zbEdRole then [0] else [1]
  | .autoReqSecLvl => [5]
  | .autoReqKeyIdMode => [1]
  | .autoReqKeySource => [0xff, 0xff, 0xff, 0xff, 0xff, 0xff, 0xff, 0xff]
  | .autoReqKeyIndex => [0x01]
  | .defaultKeySource => [0x00, 0x00, 0x00, 0x00, 0x00, 0x00, 0x00, 0xff]
  | .panCoordExtAddr => [0xff, 0xff, 0xff, 0xff, 0xff, 0xff, 0xff, 0xff]
  | _ => []

/-- The bytes of the PIB when it is a copy of `macPibDefault`. -/
def macPibDefaultMem (zbEdRole : Bool) (defaultChannel : UInt8) : Mem := fun x =>
  (Layout.bytesOf 0 (macPibDefault zbEdRole defaultChannel) pibStruct).getD x 0

-----------------------------------------------------------------------------------------
-- Calls
-----------------------------------------------------------------------------------------

/-- The arguments of `tl_zbMacAttrSet`. -/
structure AttrCall where
  attr : UInt8
  value : MacValue
  index : UInt8

section Calls

variable {σ : Type} [TnList σ]

def AttrCall.set (call : AttrCall) (sys : MacSys σ) : Option (AttrSet σ) :=
  tlZbMacAttrSet sys call.attr call.value call.index

/-- The row that the call reaches. -/
def AttrCall.row (call : AttrCall) : Option PibRow :=
  (attrSetAccess call.attr).bind fun i => zbMacPibRows[i]?

/-- The bytes that the call passes. -/
def AttrCall.bytes (call : AttrCall) : List UInt8 :=
  (List.range call.index.toNat).map call.value.bytes

/-- The call passes a value outside the bounds. -/
def AttrCall.OutOfRange (call : AttrCall) : Prop :=
  if call.attr = macTxPower then 11 < call.value.bytes 0
  else if call.attr = macPhyAttrCurrentChannel then ¬ChannelInRange (call.value.bytes 0)
  else
    ∃ row, call.row = some row ∧ row.Checked ∧ 0 < call.index.toNat
      ∧ ¬row.2.Has (leNumber call.bytes)

/-- The call returns with the PIB in its ranges, and refuses a value outside of them. -/
def AttrCall.Kept (call : AttrCall) (sys : MacSys σ) : Prop :=
  ∃ result, call.set sys = some result
    ∧ PibInRange result.sys.pib
    ∧ (call.OutOfRange → result.status = .invalidParameter ∧ result.sys.pib = sys.pib)

def SecTable.maxLen : SecTable → Nat
  | .key => macKeyTableMaxLen
  | .device => macDevTableMaxLen
  | .secLvl => macSecLvlTableMaxLen

/-- A value outside the bounds is too long to be stored, the row lies in the table, nothing is added
to a table of descriptors that is full, and a descriptor that is replaced is there.
-/
structure AttrCall.Admissible (call : AttrCall) (sys : MacSys σ) : Prop where
  value : call.OutOfRange → ∃ row, call.row = some row ∧ row.1.len < call.index.toNat
  row : ∀ i, attrSetAccess call.attr = some i → i < zbMacPibTbl.length
  room : ∀ table, secTable call.attr = some table → call.index = sys.entries table
    → (sys.entries table).toNat < table.maxLen
  present : ∀ table, secTable call.attr = some table → call.index < sys.entries table
    → ∃ before item,
      pibWalk sys.lists call.index.toNat none (TnList.head sys.lists (sys.table table))
        = some (before, some item)

/-- Every call of the sequence keeps the ranges. -/
def KeptAlong : MacSys σ → List AttrCall → Prop
  | _, [] => True
  | sys, call :: rest =>
      call.Kept sys ∧ ∀ result, call.set sys = some result → KeptAlong result.sys rest

def AdmissibleAlong : MacSys σ → List AttrCall → Prop
  | _, [] => True
  | sys, call :: rest =>
      call.Admissible sys ∧ ∀ result, call.set sys = some result → AdmissibleAlong result.sys rest

end Calls

-----------------------------------------------------------------------------------------
-- Rows
-----------------------------------------------------------------------------------------

variable {σ : Type} [TnList σ] {sys : MacSys σ} {call : AttrCall} {row other : PibRow} {pib : Mem}
  {f : PibField} {i size len : Nat} {bytes : Nat → UInt8}

theorem zbMacPibRows_nodup : (zbMacPibRows.map fun row => row.1.field).Nodup := by decide +kernel

theorem zbMacPibRows_entry (member : row ∈ zbMacPibRows) : row.1 ∈ zbMacPibTbl :=
  (List.of_mem_zip member).1

theorem zbMacPibRows_get (i : Nat)
    : (zbMacPibRows[i]?).map Prod.fst = zbMacPibTbl[i]? := by
  have firsts : zbMacPibRows.map Prod.fst = zbMacPibTbl := by decide +kernel
  rw [← List.getElem?_map, firsts]

theorem phyChannelCur_not_row : ∀ row ∈ zbMacPibRows, row.1.field ≠ .phyChannelCur := by
  decide +kernel

/-- The numbers of more than a byte have bounds that whole bytes have. -/
theorem checked_cases : ∀ row ∈ zbMacPibRows, row.Checked
    → row.1.len = 1 ∨ row.1.len = 2 ∧ row.2 = ⟨0, 255⟩
      ∨ row.1.len = 4 ∧ row.2 = ⟨0, 4294967295⟩ := by
  decide +kernel

theorem leNumber_read_1 (m : Mem) (addr : Nat) : leNumber (m.read addr 1) = (m addr).toNat := by
  simp [Mem.read, leNumber]

theorem leNumber_read_2 (m : Mem) (addr : Nat)
    : leNumber (m.read addr 2) = (m addr).toNat + 256 * (m (addr + 1)).toNat := by
  simp [Mem.read, leNumber, List.range_succ]

theorem leNumber_read_4 (m : Mem) (addr : Nat) : leNumber (m.read addr 4) ≤ 4294967295 := by
  have b₀ := (m addr).toNat_lt
  have b₁ := (m (addr + 1)).toNat_lt
  have b₂ := (m (addr + 2)).toNat_lt
  have b₃ := (m (addr + 3)).toNat_lt
  simp [Mem.read, leNumber, List.range_succ]
  omega

theorem pibCopy_inside (pib : Mem) (offset : Nat) (bytes : Nat → UInt8) (inside : i < len)
    : pibCopy pib offset len bytes (offset + i) = bytes i := by
  rw [pibCopy, if_pos (by omega), Nat.add_sub_cancel_left]

theorem pibCopy_behind (pib : Mem) (offset : Nat) (bytes : Nat → UInt8) (behind : len ≤ i)
    : pibCopy pib offset len bytes (offset + i) = pib (offset + i) := by
  rw [pibCopy, if_neg (by omega)]

/-- A number in the bounds, whose first bytes are replaced by a number in the bounds. -/
theorem PibBounds.Has.replaced (member : row ∈ zbMacPibRows) (checked : row.Checked)
    (has : row.2.Has (leNumber (pib.read row.1.offset row.1.len))) (fits : len ≤ row.1.len)
    (value : 0 < len → row.2.Has (leNumber ((List.range len).map bytes)))
    : row.2.Has
        (leNumber ((pibCopy pib row.1.offset len bytes).read row.1.offset row.1.len)) := by
  by_cases none : len = 0
  · have same : pibCopy pib row.1.offset len bytes = pib := by
      funext x
      rw [pibCopy, if_neg (by omega)]
    rw [same]
    exact has
  have given := value (by omega)
  have first : pibCopy pib row.1.offset len bytes row.1.offset = bytes 0 :=
    pibCopy_inside pib row.1.offset bytes (show 0 < len by omega)
  rcases checked_cases row member checked with one | ⟨two, bounds⟩ | ⟨four, bounds⟩
  · obtain rfl : len = 1 := by omega
    rw [one, leNumber_read_1, first]
    simpa [leNumber] using given
  · rw [two, bounds, leNumber_read_2] at has
    rw [two, bounds, leNumber_read_2, first]
    rw [bounds] at given
    simp only [PibBounds.Has, Nat.zero_le, true_and] at has given ⊢
    by_cases short : len = 1
    · -- the second byte is the old one, which is zero
      have second := pibCopy_behind pib row.1.offset bytes (show len ≤ 1 by omega)
      have small := (bytes 0).toNat_lt
      rw [second]
      omega
    · obtain rfl : len = 2 := by omega
      have second := pibCopy_inside pib row.1.offset bytes (show 1 < 2 by decide)
      rw [second]
      simpa [leNumber, List.range_succ] using given
  · rw [four, bounds]
    exact ⟨Nat.zero_le _, leNumber_read_4 _ _⟩

-----------------------------------------------------------------------------------------
-- Stores
-----------------------------------------------------------------------------------------

/-- A store into a member leaves the rows of the others in their bounds. -/
theorem PibInRange.rows_kept (inRange : PibInRange pib) (member : (f, size) ∈ pibStruct)
    (fits : len ≤ size) (row : PibRow) (inRows : row ∈ zbMacPibRows) (checked : row.Checked)
    (different : row.1.field ≠ f)
    : row.2.Has
        (leNumber ((pibCopy pib f.offset len bytes).read row.1.offset row.1.len)) := by
  have same : SameField pib (pibCopy pib f.offset len bytes) row.1.field :=
    pibCopy_sameField size member fits different
  rw [same.read (zbMacPibRows_entry inRows)]
  exact inRange.rows row inRows checked

theorem PibInRange.set_channel (inRange : PibInRange pib) {channel : UInt8}
    (valid : ChannelInRange channel)
    : PibInRange (Function.update pib PibField.phyChannelCur.offset channel) where
  rows row inRows checked := by
    rw [update_eq_pibCopy]
    exact inRange.rows_kept (by decide) (Nat.le_refl 1) row inRows checked
      (phyChannelCur_not_row row inRows)
  channel := by
    rw [Function.update_self]
    exact valid

/-- `rf_setChannel`, what it does to the PIB. -/
def rfSetChannel (pib : Mem) (chn : UInt8) : Mem :=
  if chn < tlZbMacChannelStart ∨ tlZbMacChannelStop < chn then pib
  else Function.update pib PibField.phyChannelCur.offset chn

/-- The setter of the PHY looks at the channel. -/
theorem PibInRange.rfSetChannel (inRange : PibInRange pib) (chn : UInt8)
    : PibInRange (TelinkSdk.rfSetChannel pib chn) := by
  unfold TelinkSdk.rfSetChannel
  split
  · exact inRange
  · next valid =>
      rw [not_or, UInt8.not_lt, UInt8.not_lt] at valid
      exact inRange.set_channel valid

/-- A store into the member of a row. -/
theorem PibInRange.set_row (inRange : PibInRange pib) (inRows : row ∈ zbMacPibRows)
    (fits : len ≤ row.1.len)
    (value : row.Checked → 0 < len → row.2.Has (leNumber ((List.range len).map bytes)))
    : PibInRange (pibCopy pib row.1.offset len bytes) := by
  obtain ⟨⟨name, size⟩, member, named, room⟩ :=
    zbMacPibTbl_member row.1 (zbMacPibRows_entry inRows)
  simp only at named room
  subst named
  constructor
  · intro other inOther checked
    by_cases same : other.1.field = row.1.field
    · obtain rfl : other = row :=
        List.inj_on_of_nodup_map zbMacPibRows_nodup inOther inRows same
      exact .replaced inOther checked (inRange.rows other inOther checked) fits (value checked)
    · exact inRange.rows_kept member (by omega) other inOther checked same
  · have same : SameField pib (pibCopy pib row.1.offset len bytes) .phyChannelCur :=
      pibCopy_sameField size member (by omega) (phyChannelCur_not_row row inRows).symm
    rw [same.byte (by decide)]
    exact inRange.channel

-----------------------------------------------------------------------------------------
-- Single calls
-----------------------------------------------------------------------------------------

theorem macKeyFree.loop_pib (mem : MacMem) (list count : Nat) (sys : MacSys σ)
    : (macKeyFree.loop mem list count sys).pib = sys.pib := by
  induction count generalizing sys with
  | zero => rfl
  | succ count ih =>
      rw [macKeyFree.loop, ih]
      rfl

/-- The descriptors lie outside the PIB. -/
theorem MacSys.freeItem_pib (sys : MacSys σ) (table : SecTable) (item : Nat)
    : (sys.freeItem table item).pib = sys.pib := by
  cases table with
  | key => simp only [MacSys.freeItem, macKeyFree, MacSys.tnMemFree, macKeyFree.loop_pib]
  | device => rfl
  | secLvl => rfl

namespace AttrCall

/-- Without a row the value of an attribute in the structure has no bounds. -/
theorem not_outOfRange (notPower : call.attr ≠ macTxPower)
    (notChannel : call.attr ≠ macPhyAttrCurrentChannel) (access : attrSetAccess call.attr = none)
    : ¬call.OutOfRange := by
  rw [OutOfRange, if_neg notPower, if_neg notChannel]
  rintro ⟨row, reached, -⟩
  rw [AttrCall.row, access] at reached
  cases reached

/-- Outside the tables of descriptors only the value and the row matter. -/
theorem Admissible.of_noTable (noTable : secTable call.attr = none)
    (value : call.OutOfRange → ∃ row, call.row = some row ∧ row.1.len < call.index.toNat)
    (row : ∀ i, attrSetAccess call.attr = some i → i < zbMacPibTbl.length)
    : call.Admissible sys :=
  ⟨value, row, by simp [noTable], by simp [noTable]⟩

/-- A call that reaches no row, and stores its value if that is in the bounds. -/
theorem kept_iff_of_stored {status : MacSts} {value : MacValue} {sys' : MacSys σ}
    (set : call.set sys = some { status, value, sys := sys' }) (success : status = .success)
    (noAccess : attrSetAccess call.attr = none) (noTable : secTable call.attr = none)
    (inRange : ¬call.OutOfRange → PibInRange sys'.pib)
    : call.Kept sys ↔ call.Admissible sys := by
  constructor
  · rintro ⟨result, stored, -, refused⟩
    cases set.symm.trans stored
    refine .of_noTable noTable (fun outside => ?_) (by simp [noAccess])
    cases success.symm.trans (refused outside).1
  · intro admissible
    have inside : ¬call.OutOfRange := by
      intro outside
      obtain ⟨row, reached, -⟩ := admissible.value outside
      rw [AttrCall.row, noAccess] at reached
      cases reached
    exact ⟨_, set, inRange inside, fun outside => absurd outside inside⟩

theorem kept_txPower_iff (inRange : PibInRange sys.pib) (power : call.attr = macTxPower)
    : call.Kept sys ↔ call.Admissible sys := by
  have set : ∃ value level, call.set sys
      = some { status := .success, value, sys := { sys with radioTxPower := level } } := by
    rw [AttrCall.set, tlZbMacAttrSet, if_pos power]
    exact ⟨_, _, rfl⟩
  obtain ⟨value, level, set⟩ := set
  refine kept_iff_of_stored set rfl ?_ ?_ (fun _ => inRange)
  · rw [power]
    decide
  · rw [power]
    decide

theorem kept_channel_iff (inRange : PibInRange sys.pib)
    (channel : call.attr = macPhyAttrCurrentChannel)
    : call.Kept sys ↔ call.Admissible sys := by
  have notPower : call.attr ≠ macTxPower := by
    rw [channel]
    decide
  have set : call.set sys
      = some
        {
          status := .success
          value := call.value
          sys := { sys with
            pib := Function.update sys.pib PibField.phyChannelCur.offset (call.value.bytes 0) }
        } := by
    rw [AttrCall.set, tlZbMacAttrSet, if_neg notPower, if_pos channel]
  refine kept_iff_of_stored set rfl ?_ ?_ (fun inside => ?_)
  · rw [channel]
    decide
  · rw [channel]
    decide
  · rw [OutOfRange, if_neg notPower, if_pos channel, not_not] at inside
    exact inRange.set_channel inside

/-- A call that is refused changes nothing. -/
theorem kept_of_refused (inRange : PibInRange sys.pib)
    (set : call.set sys = some { status := .invalidParameter, value := call.value, sys })
    : call.Kept sys :=
  ⟨_, set, inRange, fun _ => ⟨rfl, rfl⟩⟩

theorem kept_undefined_iff (inRange : PibInRange sys.pib) (notPower : call.attr ≠ macTxPower)
    (notChannel : call.attr ≠ macPhyAttrCurrentChannel) (undefined : attrOutOfRange call.attr)
    (noTable : secTable call.attr = none)
    : call.Kept sys ↔ call.Admissible sys := by
  have access : attrSetAccess call.attr = none := by
    rw [attrSetAccess, if_pos (.inr (.inr (.inl undefined)))]
  have set : call.set sys
      = some { status := .invalidParameter, value := call.value, sys } := by
    rw [AttrCall.set, tlZbMacAttrSet, if_neg notPower, if_neg notChannel, if_pos undefined]
  refine iff_of_true (kept_of_refused inRange set)
    (.of_noTable noTable (fun outside => ?_) (by simp [access]))
  exact absurd outside (not_outOfRange notPower notChannel access)

/-- What is known of an attribute that stands for a table. -/
theorem table_attr {attr : UInt8} {table : SecTable} (found : secTable attr = some table)
    : attr ≠ macTxPower ∧ attr ≠ macPhyAttrCurrentChannel ∧ attrOutOfRange attr = false
      ∧ attrSetAccess attr = none := by
  have known : attr = macKeyTable ∨ attr = macDeviceTable ∨ attr = macSecurityLevelTable := by
    unfold secTable at found
    split_ifs at found <;> simp [*]
  rcases known with rfl | rfl | rfl <;> decide

theorem entries_row (table : SecTable)
    : ((⟨table.entries, 1⟩, ⟨0, table.maxLen⟩) : PibRow) ∈ zbMacPibRows := by
  cases table <;> decide +kernel

omit [TnList σ] in
theorem entries_le (inRange : PibInRange sys.pib) (table : SecTable)
    : (sys.entries table).toNat ≤ table.maxLen := by
  have has := inRange.rows _ (entries_row table) (by cases table <;> decide)
  rw [leNumber_read_1] at has
  exact has.2

omit [TnList σ] in
/-- One entry more is in the bounds while there is room. -/
theorem entries_succ_iff (inRange : PibInRange sys.pib) (table : SecTable)
    : PibInRange (Function.update sys.pib table.entries.offset (sys.entries table + 1))
      ↔ (sys.entries table).toNat < table.maxLen := by
  have few : table.maxLen ≤ 16 := by cases table <;> decide
  have bound := entries_le inRange table
  have counted : (sys.entries table + 1).toNat = (sys.entries table).toNat + 1 := by
    rw [UInt8.toNat_add]
    simp only [UInt8.reduceToNat]
    omega
  constructor
  · intro after
    have has := after.rows _ (entries_row table) (by cases table <;> decide)
    rw [leNumber_read_1, MacPibTbl.offset, Function.update_self, counted] at has
    exact has.2
  · intro room
    rw [update_eq_pibCopy]
    refine inRange.set_row (entries_row table) (Nat.le_refl 1) (fun _ _ => ?_)
    simp only [List.range_one, List.map_singleton, leNumber, counted, PibBounds.Has]
    omega

/-- The branch for a table. -/
theorem set_table {table : SecTable} (found : secTable call.attr = some table)
    : call.set sys = (attrSetTable sys table call.value.addr call.index).map
        fun result => { status := result.1, value := call.value, sys := result.2 } := by
  obtain ⟨notPower, notChannel, defined, -⟩ := table_attr found
  rw [AttrCall.set, tlZbMacAttrSet, if_neg notPower, if_neg notChannel, defined]
  simp only [Bool.false_eq_true, if_false, found]

theorem table_not_outOfRange {table : SecTable} (found : secTable call.attr = some table)
    : ¬call.OutOfRange := by
  obtain ⟨notPower, notChannel, -, access⟩ := table_attr found
  exact not_outOfRange notPower notChannel access

theorem admissible_table_iff {table : SecTable} (found : secTable call.attr = some table)
    : call.Admissible sys
      ↔ (call.index = sys.entries table → (sys.entries table).toNat < table.maxLen)
        ∧ (call.index < sys.entries table → ∃ before item,
          pibWalk sys.lists call.index.toNat none (TnList.head sys.lists (sys.table table))
            = some (before, some item)) := by
  constructor
  · intro admissible
    exact ⟨admissible.room table found, admissible.present table found⟩
  · rintro ⟨room, present⟩
    refine ⟨fun outside => absurd outside (table_not_outOfRange found), ?_, ?_, ?_⟩
    · simp [(table_attr found).2.2.2]
    · intro other same
      cases found.symm.trans same
      exact room
    · intro other same
      cases found.symm.trans same
      exact present

/-- A new descriptor behind the last one. -/
theorem kept_append_iff (inRange : PibInRange sys.pib) {table : SecTable}
    (found : secTable call.attr = some table) (atEnd : call.index = sys.entries table)
    : call.Kept sys ↔ (sys.entries table).toNat < table.maxLen := by
  have notBeyond : ¬sys.entries table < call.index := atEnd ▸ UInt8.lt_irrefl _
  have added : call.set sys = some
      {
        status := .success
        value := call.value
        sys := ({ sys with
          lists := TnList.add sys.lists (sys.table table) call.value.addr }).setEntries table
            (sys.entries table + 1)
      } := by
    rw [set_table found, attrSetTable, if_neg notBeyond, if_pos atEnd]
    rfl
  rw [← entries_succ_iff inRange table]
  constructor
  · rintro ⟨result, stored, after, -⟩
    cases added.symm.trans stored
    exact after
  · intro after
    exact ⟨_, added, after, fun outside => absurd outside (table_not_outOfRange found)⟩

/-- A descriptor in the place of another one. The PIB stays as it is. -/
theorem kept_replace_iff (inRange : PibInRange sys.pib) {table : SecTable}
    (found : secTable call.attr = some table) (below : call.index < sys.entries table)
    : call.Kept sys ↔ ∃ before item,
        pibWalk sys.lists call.index.toNat none (TnList.head sys.lists (sys.table table))
          = some (before, some item) := by
  have notBeyond : ¬sys.entries table < call.index := UInt8.lt_asymm below
  have notEnd : call.index ≠ sys.entries table := UInt8.ne_of_lt below
  have set : call.set sys = _ := set_table found
  rw [attrSetTable, if_neg notBeyond, if_neg notEnd] at set
  constructor
  · rintro ⟨result, stored, -⟩
    rw [set] at stored
    revert stored
    cases pibWalk sys.lists call.index.toNat none (TnList.head sys.lists (sys.table table)) with
    | none => simp
    | some walked =>
        obtain ⟨before, item⟩ := walked
        cases item with
        | none => simp
        | some item => exact fun _ => ⟨before, item, rfl⟩
  · rintro ⟨before, item, walk⟩
    simp only [walk, Option.map_some] at set
    refine ⟨_, set, ?_, fun outside => absurd outside (table_not_outOfRange found)⟩
    simp only [MacSys.freeItem_pib]
    exact inRange

theorem kept_table_iff (inRange : PibInRange sys.pib) {table : SecTable}
    (found : secTable call.attr = some table)
    : call.Kept sys ↔ call.Admissible sys := by
  rw [admissible_table_iff found]
  by_cases beyond : sys.entries table < call.index
  · have kept : call.Kept sys := by
      refine kept_of_refused inRange ((set_table found).trans ?_)
      rw [attrSetTable, if_pos beyond]
      rfl
    refine iff_of_true kept ⟨fun atEnd => ?_, fun below => ?_⟩
    · exact absurd (atEnd ▸ beyond) (UInt8.lt_irrefl _)
    · exact absurd below (UInt8.lt_asymm beyond)
  by_cases atEnd : call.index = sys.entries table
  · have notBelow : ¬call.index < sys.entries table := atEnd ▸ UInt8.lt_irrefl _
    rw [kept_append_iff inRange found atEnd]
    exact ⟨fun room => ⟨fun _ => room, fun below => absurd below notBelow⟩,
      fun both => both.1 atEnd⟩
  · have below : call.index < sys.entries table :=
      UInt8.lt_of_le_of_ne (UInt8.not_lt.mp beyond) atEnd
    rw [kept_replace_iff inRange found below]
    exact ⟨fun present => ⟨fun same => absurd same atEnd, fun _ => present⟩,
      fun both => both.2 below⟩

theorem access_iff {i : Nat} (access : attrSetAccess call.attr = some i)
    : call.attr ≠ macTxPower ∧ call.attr ≠ macPhyAttrCurrentChannel
      ∧ secTable call.attr = none := by
  unfold attrSetAccess at access
  split at access
  · cases access
  · next reached =>
      simp only [not_or, Bool.not_eq_true, Option.isSome_eq_false_iff,
        Option.isNone_iff_eq_none] at reached
      exact ⟨reached.1, reached.2.1, reached.2.2.2⟩

theorem row_eq {i : Nat} (access : attrSetAccess call.attr = some i)
    : call.row = zbMacPibRows[i]? := by
  rw [AttrCall.row, access, Option.bind_some]

theorem outOfRange_row_iff {i : Nat} (access : attrSetAccess call.attr = some i)
    (found : zbMacPibRows[i]? = some row)
    : call.OutOfRange
      ↔ row.Checked ∧ 0 < call.index.toNat ∧ ¬row.2.Has (leNumber call.bytes) := by
  obtain ⟨notPower, notChannel, -⟩ := access_iff access
  rw [OutOfRange, if_neg notPower, if_neg notChannel, row_eq access, found]
  simp

theorem admissible_row_iff {i : Nat} (access : attrSetAccess call.attr = some i)
    : call.Admissible sys
      ↔ (call.OutOfRange → ∃ row, call.row = some row ∧ row.1.len < call.index.toNat)
        ∧ i < zbMacPibTbl.length := by
  obtain ⟨-, -, noTable⟩ := access_iff access
  constructor
  · intro admissible
    exact ⟨admissible.value, admissible.row i access⟩
  · rintro ⟨value, inTable⟩
    refine .of_noTable noTable value (fun j same => ?_)
    cases access.symm.trans same
    exact inTable

/-- A value that is not too long is stored. -/
theorem kept_store_iff (inRange : PibInRange sys.pib) {i : Nat}
    (access : attrSetAccess call.attr = some i) (found : zbMacPibRows[i]? = some row)
    (entry : zbMacPibTbl[i]? = some row.1) (fits : ¬row.1.len < call.index.toNat)
    : call.Kept sys ↔ ¬call.OutOfRange := by
  have set : call.set sys = _ := tlZbMacAttrSet_access access
  rw [entry, Option.map_some, if_neg fits] at set
  constructor
  · rintro ⟨result, stored, -, refused⟩ outside
    cases set.symm.trans stored
    cases (refused outside).1
  · intro inside
    refine ⟨_, set, ?_, fun outside => absurd outside inside⟩
    refine inRange.set_row (List.mem_of_getElem? found) (by omega) (fun checked some_bytes => ?_)
    by_contra wrong
    exact inside ((outOfRange_row_iff access found).mpr ⟨checked, some_bytes, wrong⟩)

/-- A call that gets as far as the table. -/
theorem kept_row_iff (inRange : PibInRange sys.pib) {i : Nat}
    (access : attrSetAccess call.attr = some i)
    : call.Kept sys ↔ call.Admissible sys := by
  have set : call.set sys = _ := tlZbMacAttrSet_access access
  rw [admissible_row_iff access]
  have entries := zbMacPibRows_get i
  cases found : zbMacPibRows[i]? with
  | none =>
      rw [found, Option.map_none] at entries
      rw [← entries, Option.map_none] at set
      have behind := List.getElem?_eq_none_iff.mp entries.symm
      refine iff_of_false ?_ (fun both => absurd both.2 (by omega))
      rintro ⟨result, stored, -⟩
      cases set.symm.trans stored
  | some row =>
      rw [found, Option.map_some] at entries
      have inTable : i < zbMacPibTbl.length := (List.getElem?_eq_some_iff.mp entries.symm).1
      have reached : call.row = some row := (row_eq access).trans found
      by_cases long : row.1.len < call.index.toNat
      · rw [← entries, Option.map_some, if_pos long] at set
        exact iff_of_true (kept_of_refused inRange set) ⟨fun _ => ⟨row, reached, long⟩, inTable⟩
      · rw [kept_store_iff inRange access found entries.symm long]
        constructor
        · exact fun inside => ⟨fun outside => absurd outside inside, inTable⟩
        · rintro ⟨value, -⟩ outside
          obtain ⟨other, same, tooLong⟩ := value outside
          cases reached.symm.trans same
          exact long tooLong

/-- In a PIB that is in its ranges, the calls that keep it so. -/
theorem kept_iff (inRange : PibInRange sys.pib) : call.Kept sys ↔ call.Admissible sys := by
  by_cases power : call.attr = macTxPower
  · exact kept_txPower_iff inRange power
  by_cases channel : call.attr = macPhyAttrCurrentChannel
  · exact kept_channel_iff inRange channel
  cases table : secTable call.attr with
  | some table => exact kept_table_iff inRange table
  | none =>
      cases undefined : attrOutOfRange call.attr with
      | true => exact kept_undefined_iff inRange power channel undefined table
      | false =>
          apply kept_row_iff inRange
          rw [attrSetAccess, if_neg]
          simp [power, channel, undefined, table]

end AttrCall

-----------------------------------------------------------------------------------------
-- Sequences of calls
-----------------------------------------------------------------------------------------

/-- By induction over the calls. -/
theorem kept_along_iff (inRange : PibInRange sys.pib) (calls : List AttrCall)
    : KeptAlong sys calls ↔ AdmissibleAlong sys calls := by
  induction calls generalizing sys with
  | nil => exact Iff.rfl
  | cons call rest ih =>
      rw [KeptAlong, AdmissibleAlong, ← AttrCall.kept_iff inRange]
      refine and_congr_right fun kept => ?_
      obtain ⟨result, set, after, -⟩ := kept
      simp only [set, Option.some.injEq, forall_eq']
      exact ih after

/-- The values that do not depend on the configuration, and those that do. -/
theorem macPibDefault_rows : ∀ zbEdRole : Bool, ∀ row ∈ zbMacPibRows, row.Checked
    → row.2.Has
      (leNumber ((List.range row.1.len).map
        fun i => (macPibDefault zbEdRole 0 row.1.field).getD i 0)) := by
  decide +kernel

theorem macPibDefault_channel {field : PibField} (other : field ≠ .phyChannelCur)
    (zbEdRole : Bool) (channel : UInt8)
    : macPibDefault zbEdRole channel field = macPibDefault zbEdRole 0 field := by
  cases field with
  | phyChannelCur => exact absurd rfl other
  | _ => rfl

theorem macPibDefaultMem_byte (zbEdRole : Bool) (channel : UInt8)
    (member : (f, size) ∈ pibStruct) (inside : i < size)
    : macPibDefaultMem zbEdRole channel (f.offset + i)
      = (macPibDefault zbEdRole channel f).getD i 0 :=
  Layout.bytesOf_getD member pibStruct_nodup inside

theorem macPibDefault_inRange (zbEdRole : Bool) {channel : UInt8} (valid : ChannelInRange channel)
    : PibInRange (macPibDefaultMem zbEdRole channel) where
  rows row inRows checked := by
    obtain ⟨⟨name, size⟩, member, named, fits⟩ :=
      zbMacPibTbl_member row.1 (zbMacPibRows_entry inRows)
    simp only at named fits
    subst named
    have read : (macPibDefaultMem zbEdRole channel).read row.1.offset row.1.len
        = (List.range row.1.len).map
          fun i => (macPibDefault zbEdRole 0 row.1.field).getD i 0 := by
      rw [Mem.read]
      apply List.map_congr_left
      intro i inside
      have short : i < size := Nat.lt_of_lt_of_le (List.mem_range.mp inside) fits
      rw [MacPibTbl.offset, macPibDefaultMem_byte zbEdRole channel member short,
        macPibDefault_channel (phyChannelCur_not_row row inRows)]
    rw [read]
    exact macPibDefault_rows zbEdRole row inRows checked
  channel := by
    have byte : macPibDefaultMem zbEdRole channel (PibField.phyChannelCur.offset + 0) = channel :=
      macPibDefaultMem_byte zbEdRole channel (show (PibField.phyChannelCur, 1) ∈ pibStruct by decide)
        Nat.zero_lt_one
    rw [Nat.add_zero] at byte
    rw [byte]
    exact valid

/-- Over every sequence of calls from the default PIB, the values stay in their ranges and others
are refused exactly when every call is admissible.
-/
theorem tlZbMacAttrSet_inRange_iff (sys : MacSys σ) (zbEdRole : Bool) (channel : UInt8)
    (valid : ChannelInRange channel) (calls : List AttrCall)
    : KeptAlong { sys with pib := macPibDefaultMem zbEdRole channel } calls
      ↔ AdmissibleAlong { sys with pib := macPibDefaultMem zbEdRole channel } calls :=
  kept_along_iff (macPibDefault_inRange zbEdRole valid) calls

/-- The minimum backoff exponent and the channel. -/
theorem tlZbMacAttrSet_inRange_iff_calls
    : KeptAlong { MacSys.boot with pib := macPibDefaultMem true 24 }
        [⟨0x4F, .ofBytes 0 [3], 1⟩, ⟨macPhyAttrCurrentChannel, .ofBytes 0 [26], 1⟩] := by
  have valid : ChannelInRange 24 := ⟨by decide, by decide⟩
  refine (tlZbMacAttrSet_inRange_iff MacSys.boot true 24 valid _).mpr
    ⟨.of_noTable rfl ?_ ?_, fun result _ => ⟨.of_noTable rfl ?_ ?_, fun _ _ => trivial⟩⟩
  · have access : attrSetAccess 0x4F = some 15 := by decide
    have minBe : zbMacPibRows[15]? = some (⟨.minBe, 1⟩, ⟨0, 8⟩) := rfl
    intro outside
    rw [AttrCall.outOfRange_row_iff access minBe] at outside
    exact absurd outside.2.2 (by decide)
  · intro i access
    cases (show attrSetAccess 0x4F = some 15 by decide).symm.trans access
    decide
  · intro outside
    exact absurd ⟨by decide, by decide⟩ outside
  · intro i access
    cases (show attrSetAccess macPhyAttrCurrentChannel = none by decide).symm.trans access

/-- The channel 0 and the backoff exponent 200 are stored. -/
theorem channel_out_of_range_stored
    : (AttrCall.set ⟨macPhyAttrCurrentChannel, .ofBytes 0 [0], 1⟩
          { MacSys.boot with pib := macPibDefaultMem true 24 }).map
          (fun result => (result.status, result.sys.pib PibField.phyChannelCur.offset))
        = some (.success, 0)
      ∧ (AttrCall.set ⟨0x4F, .ofBytes 0 [200], 1⟩
          { MacSys.boot with pib := macPibDefaultMem true 24 }).map
          (fun result => (result.status, result.sys.pib PibField.minBe.offset))
        = some (.success, 200)
      ∧ ¬KeptAlong { MacSys.boot with pib := macPibDefaultMem true 24 }
          [⟨macPhyAttrCurrentChannel, .ofBytes 0 [0], 1⟩] := by
  refine ⟨by decide +kernel, by decide +kernel, ?_⟩
  rintro ⟨⟨result, set, inRange, -⟩, -⟩
  have channel := inRange.channel
  cases set
  simp only [Function.update_self] at channel
  exact absurd channel.1 (by decide)

end TelinkSdk
