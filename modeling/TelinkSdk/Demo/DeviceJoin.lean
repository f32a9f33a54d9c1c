import Mathlib.Data.List.MinMax
import TelinkSdk.Demo.AssociateDev
import TelinkSdk.Mac.PibRange

/-! How the end device of the association demo finds its coordinator, `associate_dev/app.c`. It
scans until a beacon permits association, asks the strongest coordinator, and polls the one that
has confirmed.
-/

namespace TelinkSdk

open TnList Nor

variable {σ : Type} [MacSecLib σ] (layout : SecLayout) (lib : TnMemAlloc)

-----------------------------------------------------------------------------------------
-- The application
-----------------------------------------------------------------------------------------

abbrev zbAddr16BitDevOrBroadcast : UInt8 := 2
abbrev zbAddr64BitDev : UInt8 := 3

abbrev maxEdScanResultsSupported : UInt8 := 16

/-- `addr_t`: the bytes of the union, of which a short address is the first two. -/
structure AddrT where
  addr : ExtAddr
  addrMode : UInt8
  deriving DecidableEq

/-- The part of `mac_panDesc_t` that the application uses, with the `associatePermit` of its
superframe specification.
-/
structure MacPanDesc where
  coordPanId : UInt16
  associatePermit : Bool
  coordAddr : AddrT
  logicalChannel : UInt8
  gtsPermit : UInt8
  linkQuality : UInt8
  deriving DecidableEq

/-- `my_pan_t`. -/
structure MyPan where
  panId : UInt16
  lqi : UInt8
  channel : UInt8
  coorAddr : AddrT
  permitjoin : UInt8
  deriving DecidableEq

/-- `zb_mlme_associate_req_t`, but for the members that stay zero. -/
structure AssociateReq where
  logicalChannel : UInt8
  coordPanId : UInt16
  coordAddress : AddrT
  rcvOnWhenIdle : Bool
  allocAddr : Bool
  deriving DecidableEq

/-- `mac_mlme_poll_req_t`. -/
structure PollReq where
  coordAddrMode : UInt8
  coordAddr : List UInt8
  coordPanId : UInt16
  deriving DecidableEq

/-- What the application hands on: a scan of the one channel, requests of the MAC, and the device
descriptor of a key.
-/
inductive JoinSend
  | scan
  | associate (req : AssociateReq)
  | poll (req : PollReq)
  | keyMaterial (desc : DeviceDesc)
  deriving DecidableEq

/-- The globals, with `received_coor`, and the timers that are not null. -/
structure DevJoin (σ : Type) where
  app : DevApp σ
  coorBeacon : Nat → MyPan
  coorSize : Nat
  beaconReqTimer : Bool
  pollDataTimer : Bool

/-- The two bytes of a word in memory. -/
def wordBytes (word : UInt16) : List UInt8 := [word.toUInt8, (word >>> 8).toUInt8]

/-- `dev_active_scan`, which `dev_activescan_callback` calls. -/
def devActiveScan (s : DevJoin σ) : List JoinSend × DevJoin σ :=
  ([.scan], { s with coorSize := 0 })

/-- `dev_start_scan`. -/
def devStartScan (s : DevJoin σ) : DevJoin σ := { s with beaconReqTimer := true }

/-- `MyBeaconIndCb`. The last place of the array stays free. -/
def myBeaconIndCb (panDesc : MacPanDesc) (s : DevJoin σ) : DevJoin σ :=
  if panDesc.associatePermit = false then s
  else
    let size := UInt8.ofNat (s.coorSize + 1)
    if size < maxEdScanResultsSupported then
      { s with
        coorBeacon :=
          Function.update s.coorBeacon s.coorSize
            {
              panId := panDesc.coordPanId
              lqi := panDesc.linkQuality
              channel := panDesc.logicalChannel
              coorAddr := panDesc.coordAddr
              permitjoin := panDesc.gtsPermit
            }
        coorSize := s.coorSize + 1 }
    else s

/-- The loop of `dev_start_associate`. -/
def panOfHighestLqi (coorBeacon : Nat → MyPan) (panSize : Nat) : MyPan :=
  (List.range panSize).foldl
    (fun highest i => if (coorBeacon i).lqi > highest.lqi then coorBeacon i else highest)
    (coorBeacon 0)

/-- The address of the request: a short one is copied into zeroes. -/
def AddrT.requested (a : AddrT) : AddrT :=
  if a.addrMode = zbAddr64BitDev then a
  else
    { addr := #v[a.addr[0], a.addr[1], 0, 0, 0, 0, 0, 0]
      addrMode := zbAddr16BitDevOrBroadcast }

/-- `dev_start_associate`. -/
def devStartAssociate (s : DevJoin σ) : Option (List JoinSend × DevJoin σ) :=
  if s.coorSize = 0 then some ([], s)
  else
    let pan := panOfHighestLqi s.coorBeacon s.coorSize
    let req : AssociateReq :=
      {
        logicalChannel := pan.channel
        coordPanId := pan.panId
        coordAddress := pan.coorAddr.requested
        rcvOnWhenIdle := true
        allocAddr := true
      }
    let stored :=
      if pan.coorAddr.addrMode = zbAddr64BitDev then
        attrStore s.app.material.sys macAttrCoordinatorExtendedAddress pan.coorAddr.addr.toList
      else
        attrStore s.app.material.sys macAttrCoordinatorShortAddress
          [pan.coorAddr.addr[0], pan.coorAddr.addr[1]]
    stored.bind fun sys =>
      (attrStore sys macAttrPanId (wordBytes pan.panId)).map fun sys =>
        ([.associate req], { s with app.material.sys := sys })

/-- `MyScanCnfCb`, which does the same for every confirm. -/
def myScanCnfCb (s : DevJoin σ) : Option (List JoinSend × DevJoin σ) :=
  if s.coorSize ≠ 0 then devStartAssociate { s with beaconReqTimer := false }
  else some ([], s)

/-- `mac_set_pollRate` with a rate that is not zero. -/
def macSetPollRate (s : DevJoin σ) : DevJoin σ :=
  if s.app.material.sys.pib PibField.rxOnWhenIdle.offset ≠ 0 then s
  else { s with pollDataTimer := true }

/-- `MyAssocCnfCb`, which adds the key material for every confirm. What follows on success also
saves the network data and starts the query timer.
-/
def myAssocCnf (parentAddress : ExtAddr) (success : Bool) (s : DevJoin σ)
    : Option (List JoinSend × DevJoin σ) :=
  (myAssocCnfCb layout lib s.app parentAddress).map fun app =>
    let desc : DeviceDesc :=
      {
        frameCounter := 0
        panId := app.panId
        shortAddress := app.coorAddrShort
        longAddress := app.coorExtAddr
        exempt := false
      }
    ([.keyMaterial desc],
      if success then macSetPollRate { s with app } else { s with app })

/-- A call `tl_zbMacAttrGet` into the address of a poll request. -/
def attrLoadExt (sys : MacSys σ) (attr : UInt8) : Option (List UInt8) :=
  (tlZbMacAttrGet sys attr 0).map fun
    | .bytes value _ => value
    | _ => List.replicate 8 0

/-- `poll_data_req_send`, which `PollDataTimerCb` calls. -/
def pollDataReqSend (s : DevJoin σ) : Option (List JoinSend × DevJoin σ) :=
  (attrLoadExt s.app.material.sys macAttrCoordinatorExtendedAddress).bind fun coordAddr =>
    (attrLoadWord s.app.material.sys macAttrPanId 0).map fun coordPanId =>
      ([.poll { coordAddrMode := zbAddr64BitDev, coordAddr, coordPanId }], s)

/-- What happens to the device. -/
inductive JoinEvent
  | startScan
  | scanTimer
  | beacon (panDesc : MacPanDesc)
  | scanConfirm
  | associateConfirm (parentAddress : ExtAddr) (success : Bool)
  | pollTimer

def DevJoin.step (s : DevJoin σ) : JoinEvent → Option (List JoinSend × DevJoin σ)
  | .startScan => some ([], devStartScan s)
  | .scanTimer => some (devActiveScan s)
  | .beacon panDesc => some ([], myBeaconIndCb panDesc s)
  | .scanConfirm => myScanCnfCb s
  | .associateConfirm parentAddress success => myAssocCnf layout lib parentAddress success s
  | .pollTimer => pollDataReqSend s

/-- The events of a run, in any order. -/
def DevJoin.run (s : DevJoin σ) : List JoinEvent → Option (List JoinSend × DevJoin σ)
  | [] => some ([], s)
  | event :: rest =>
      (s.step layout lib event).bind fun (sends, s) =>
        (s.run rest).map fun (more, s) => (sends ++ more, s)

-----------------------------------------------------------------------------------------
-- What the application is for
-----------------------------------------------------------------------------------------

/-- The permitting coordinators that the scan has heard, fifteen at most, and the network that the
device has chosen.
-/
structure JoinSpec where
  heard : List MacPanDesc
  coordExt : List UInt8
  coordShort : UInt16
  panId : UInt16

def MacPanDesc.request (panDesc : MacPanDesc) : AssociateReq where
  logicalChannel := panDesc.logicalChannel
  coordPanId := panDesc.coordPanId
  coordAddress := panDesc.coordAddr.requested
  rcvOnWhenIdle := true
  allocAddr := true

/-- A short address as a word. -/
def AddrT.short (a : AddrT) : UInt16 := .ofNat (a.addr[0].toNat + 256 * a.addr[1].toNat)

/-- The network of a coordinator is chosen. -/
def JoinSpec.choose (t : JoinSpec) (panDesc : MacPanDesc) : JoinSpec :=
  if panDesc.coordAddr.addrMode = zbAddr64BitDev then
    { t with
      coordExt := panDesc.coordAddr.addr.toList
      panId := panDesc.coordPanId }
  else
    { t with
      coordShort := panDesc.coordAddr.short
      panId := panDesc.coordPanId }

/-- A confirmed scan asks the strongest coordinator, the first one of several. -/
def JoinSpec.step (t : JoinSpec) : JoinEvent → List JoinSend × JoinSpec
  | .startScan => ([], t)
  | .scanTimer => ([.scan], { t with heard := [] })
  | .beacon panDesc =>
      ([], if panDesc.associatePermit ∧ t.heard.length < 15 then
          { t with heard := t.heard ++ [panDesc] }
        else t)
  | .scanConfirm =>
      match t.heard.argmax (·.linkQuality.toNat) with
      | none => ([], t)
      | some panDesc => ([.associate panDesc.request], t.choose panDesc)
  | .associateConfirm parentAddress _ =>
      ([.keyMaterial ⟨0, t.panId, t.coordShort, parentAddress, false⟩],
        { t with coordExt := parentAddress.toList })
  | .pollTimer => ([.poll ⟨zbAddr64BitDev, t.coordExt, t.panId⟩], t)

def JoinSpec.run (t : JoinSpec) : List JoinEvent → List JoinSend × JoinSpec
  | [] => ([], t)
  | event :: rest =>
      let (sends, t) := t.step event
      let (more, t) := t.run rest
      (sends ++ more, t)

-----------------------------------------------------------------------------------------
-- The beacons
-----------------------------------------------------------------------------------------

/-- The entry of the array for a beacon. -/
def MacPanDesc.entry (panDesc : MacPanDesc) : MyPan where
  panId := panDesc.coordPanId
  lqi := panDesc.linkQuality
  channel := panDesc.logicalChannel
  coorAddr := panDesc.coordAddr
  permitjoin := panDesc.gtsPermit

/-- The array holds what was heard. -/
structure BeaconsKept (coorBeacon : Nat → MyPan) (coorSize : Nat) (heard : List MacPanDesc)
    : Prop where
  size : coorSize = heard.length
  fits : heard.length ≤ 15
  entries : ∀ i, (inside : i < heard.length) → coorBeacon i = heard[i].entry

theorem BeaconsKept.nil (coorBeacon : Nat → MyPan) : BeaconsKept coorBeacon 0 [] where
  size := rfl
  fits := by decide
  entries _ inside := absurd inside (Nat.not_lt_zero _)

theorem BeaconsKept.append {coorBeacon : Nat → MyPan} {coorSize : Nat} {heard : List MacPanDesc}
    (received : BeaconsKept coorBeacon coorSize heard) (room : heard.length < 15)
    (panDesc : MacPanDesc)
    : BeaconsKept (Function.update coorBeacon coorSize panDesc.entry) (coorSize + 1)
        (heard ++ [panDesc]) where
  size := by rw [received.size, List.length_append, List.length_singleton]
  fits := by rw [List.length_append, List.length_singleton]; exact room
  entries := by
    intro i inside
    rw [List.length_append, List.length_singleton] at inside
    by_cases last : i = heard.length
    · subst last
      rw [received.size, Function.update_self]
      simp
    · have before : i < heard.length := by omega
      rw [received.size, Function.update_of_ne last, List.getElem_append_left before]
      exact received.entries i before

/-- The loop finds the entry of the strongest coordinator. By induction over what was heard, from
the last beacon.
-/
theorem panOfHighestLqi_argmax {coorBeacon : Nat → MyPan} (heard : List MacPanDesc)
    (entries : ∀ i, (inside : i < heard.length) → coorBeacon i = heard[i].entry)
    (some_heard : heard ≠ [])
    : ∃ panDesc, heard.argmax (·.linkQuality.toNat) = some panDesc
      ∧ panOfHighestLqi coorBeacon heard.length = panDesc.entry := by
  induction heard using List.reverseRecOn with
  | nil => exact absurd rfl some_heard
  | append_singleton heard last ih =>
      have last_entry : coorBeacon heard.length = last.entry := by
        rw [entries heard.length (by simp)]
        simp
      have length : (heard ++ [last]).length = heard.length + 1 := by simp
      rw [List.argmax_concat, length, panOfHighestLqi, List.range_succ, List.foldl_append,
        List.foldl_cons, List.foldl_nil, last_entry]
      by_cases first : heard = []
      · subst first
        refine ⟨last, rfl, ?_⟩
        have start : coorBeacon 0 = last.entry := last_entry
        simp [start]
      · obtain ⟨best, strongest, loop⟩ := ih (fun i inside => by
          rw [entries i (by simp; omega), List.getElem_append_left inside]) first
        rw [panOfHighestLqi] at loop
        rw [strongest, loop]
        simp only [MacPanDesc.entry, gt_iff_lt, UInt8.lt_iff_toNat_lt]
        split_ifs with stronger
        · exact ⟨last, rfl, rfl⟩
        · exact ⟨best, rfl, rfl⟩

-----------------------------------------------------------------------------------------
-- The PIB
-----------------------------------------------------------------------------------------

/-- The PIB holds the network that the device has chosen. -/
structure PibHolds (sys : MacSys σ) (t : JoinSpec) : Prop where
  coordExt : attrLoadExt sys macAttrCoordinatorExtendedAddress = some t.coordExt
  coordShort : ∀ word, attrLoadWord sys macAttrCoordinatorShortAddress word = some t.coordShort
  panId : ∀ word, attrLoadWord sys macAttrPanId word = some t.panId

variable {layout} {sys sys' : MacSys σ} {t : JoinSpec}

/-- The three attributes are read the same. -/
def SameNetwork (sys sys' : MacSys σ) : Prop :=
  ∀ attr ∈ [macAttrCoordinatorExtendedAddress, macAttrCoordinatorShortAddress, macAttrPanId],
    tlZbMacAttrGet sys' attr 0 = tlZbMacAttrGet sys attr 0

/-- What is heard is not kept in the PIB. -/
theorem PibHolds.hears (holds : PibHolds sys t) (heard : List MacPanDesc)
    : PibHolds sys { t with heard } :=
  ⟨holds.coordExt, holds.coordShort, holds.panId⟩

theorem PibHolds.congr (holds : PibHolds sys t) (same : SameNetwork sys sys')
    : PibHolds sys' t where
  coordExt := by
    rw [attrLoadExt, same _ (by simp)]
    exact holds.coordExt
  coordShort word := by
    rw [attrLoadWord, same _ (by simp)]
    exact holds.coordShort word
  panId word := by
    rw [attrLoadWord, same _ (by simp)]
    exact holds.panId word

/-- An attribute of the first block that stands apart from the tables and the beacon payload. -/
structure NetworkAttr (attr : UInt8) (entry : MacPibTbl) : Prop where
  plain : PlainEntry attr entry
  inBlock : macAttrPlain attr
  noPayload : attr ≠ macAttrBeaconPayload ∧ attr ≠ macAttrBeaconPayloadLength
  access : ∃ i, attrSetAccess attr = some i ∧ zbMacPibTbl[i]? = some entry
  apart : ∀ table : SecTable, table.pointer ≠ entry.field ∧ table.entries ≠ entry.field

theorem coordExtAddress_attr
    : NetworkAttr macAttrCoordinatorExtendedAddress ⟨.coordExtAddress, 8⟩ where
  plain := by constructor <;> decide
  inBlock := rfl
  noPayload := by decide
  access := ⟨10, rfl, rfl⟩
  apart := by rintro (_ | _ | _) <;> decide

theorem coordShortAddress_attr
    : NetworkAttr macAttrCoordinatorShortAddress ⟨.coordShortAddress, 2⟩ where
  plain := by constructor <;> decide
  inBlock := rfl
  noPayload := by decide
  access := ⟨11, rfl, rfl⟩
  apart := by rintro (_ | _ | _) <;> decide

theorem panId_attr : NetworkAttr macAttrPanId ⟨.panId, 2⟩ where
  plain := by constructor <;> decide
  inBlock := rfl
  noPayload := by decide
  access := ⟨16, rfl, rfl⟩
  apart := by rintro (_ | _ | _) <;> decide

/-- A call `tl_zbMacAttrSet` of such an attribute with all of its bytes. -/
theorem NetworkAttr.store {attr : UInt8} {entry : MacPibTbl} (network : NetworkAttr attr entry)
    (sys : MacSys σ) {bytes : List UInt8} (length : bytes.length = entry.len)
    : ∃ sys', attrStore sys attr bytes = some sys' ∧ PibOnly sys sys'
        ∧ tlZbMacAttrGet sys' attr 0 = some (.bytes bytes (.ofNat bytes.length))
        ∧ ∀ other, macAttrDefined other → other ≠ attr
          → tlZbMacAttrGet sys' other 0 = tlZbMacAttrGet sys other 0 := by
  obtain ⟨i, access, found⟩ := network.access
  obtain ⟨sys', store, only⟩ :=
    attrStore_pibOnly sys attr bytes entry access found (Nat.le_of_eq length) network.apart
  obtain ⟨result, stored, -, reads, others⟩ :=
    @PlainEntry.faithful _ _ sys _ _ network.plain network.inBlock 0 _ length
  have same : result.sys = sys' := by
    rw [attrStore, stored] at store
    exact Option.some.inj store
  subst same
  refine ⟨result.sys, store, only, ?_, fun other defined different => ?_⟩
  · rw [reads, reportedLen, if_neg (fun payload => network.noPayload.1 payload.1)]
  · have kept := others other defined different 0
    rwa [SameReport, if_neg (fun payload => network.noPayload.2 payload.1)] at kept

/-- The bytes of a word are read back as the word. -/
theorem ofNat_wordBytes (word : UInt16)
    : UInt16.ofNat (word.toUInt8.toNat + 256 * (word >>> 8).toUInt8.toNat) = word := by
  apply UInt16.toNat_inj.mp
  have bound := word.toNat_lt
  simp only [UInt16.toNat_ofNat', UInt16.toNat_toUInt8, UInt16.toNat_shiftRight,
    UInt16.reduceToNat, Nat.shiftRight_eq_div_pow, Nat.reduceMod, Nat.reducePow]
  omega

-----------------------------------------------------------------------------------------
-- The key material
-----------------------------------------------------------------------------------------

/-- The members of the three attributes are the same. -/
def SameMembers (sys sys' : MacSys σ) : Prop :=
  ∀ f ∈ [PibField.coordExtAddress, .coordShortAddress, .panId], SameField sys.pib sys'.pib f

omit [MacSecLib σ] in
theorem SameMembers.of_pib (same : sys'.pib = sys.pib) : SameMembers sys sys' := by
  intro f _ size _ i _
  rw [same]

omit [MacSecLib σ] in
theorem SameMembers.trans {sys'' : MacSys σ} (first : SameMembers sys sys')
    (second : SameMembers sys' sys'')
    : SameMembers sys sys'' :=
  fun f mem size member i inside =>
    (second f mem size member i inside).trans (first f mem size member i inside)

theorem NetworkAttr.get_congr {attr : UInt8} {entry : MacPibTbl}
    (network : NetworkAttr attr entry) (same : SameField sys.pib sys'.pib entry.field)
    : tlZbMacAttrGet sys' attr 0 = tlZbMacAttrGet sys attr 0 := by
  rw [network.plain.get_eq sys (Mem.read_length _ _ _) rfl,
    network.plain.get_eq sys' (Mem.read_length _ _ _) rfl, same.read network.plain.inTable]
  simp only [reportedLen, network.noPayload.1, false_and, if_false]

theorem SameMembers.network (same : SameMembers sys sys') : SameNetwork sys sys' := by
  intro attr mem
  simp only [List.mem_cons, List.not_mem_nil, or_false] at mem
  rcases mem with rfl | rfl | rfl
  · exact coordExtAddress_attr.get_congr (same _ (by simp))
  · exact coordShortAddress_attr.get_congr (same _ (by simp))
  · exact panId_attr.get_congr (same _ (by simp))

omit [MacSecLib σ] in
theorem MacSys.setEntries_sameMembers (sys : MacSys σ) (table : SecTable) (count : UInt8)
    : SameMembers sys (sys.setEntries table count) := by
  intro f mem size member i inside
  have apart : PibField.offset f + size ≤ table.entries.offset
      ∨ table.entries.offset + 1 ≤ PibField.offset f := by
    apply Layout.offsetOf_apart member table.entries_member pibStruct_nodup
    rintro rfl
    cases table <;> simp [SecTable.entries] at mem
  exact Function.update_of_ne (by omega) _ _

theorem attrSetTable_sameMembers {table : SecTable} {item : Nat} {index : UInt8} {status : MacSts}
    (result : attrSetTable sys table item index = some (status, sys'))
    : SameMembers sys sys' := by
  simp only [attrSetTable] at result
  split_ifs at result
  · cases result
    exact .of_pib rfl
  · cases result
    exact MacSys.setEntries_sameMembers _ table _
  · split at result
    · cases result
    · cases result
    · cases result
      exact .of_pib (MacSys.freeItem_pib _ _ _)

theorem attrStoreItem_sameMembers {table : SecTable} {item : Nat} {index : UInt8}
    (result : attrStoreItem sys table.attr item index = some sys')
    : SameMembers sys sys' := by
  rw [attrStoreItem_table] at result
  obtain ⟨⟨status, _⟩, stored, rfl⟩ := Option.map_eq_some_iff.mp result
  exact attrSetTable_sameMembers stored

omit [MacSecLib σ] in
theorem macSecMaterialAlloc_sameMembers {lib : TnMemAlloc} {mem : MacMem} {item : Nat}
    (result : macSecMaterialAlloc layout lib sys mem = some (item, sys'))
    : SameMembers sys sys' := by
  obtain ⟨picked, -, taken⟩ := Option.map_eq_some_iff.mp result
  cases taken
  exact .of_pib rfl

/-- The key material goes into the tables and the pools. -/
theorem installKey_sameMembers {lib : TnMemAlloc} {m m' : Material σ} {desc : DeviceDesc}
    {index : UInt8} (result : installKey layout lib m desc index = some m')
    : SameMembers m.sys m'.sys := by
  simp only [installKey, Option.bind_eq_some_iff, Option.map_eq_some_iff] at result
  obtain ⟨⟨_, _⟩, device, _, deviceTable, ⟨_, _⟩, keyDev, ⟨_, _⟩, key, _, keyTable, rfl⟩ := result
  refine (macSecMaterialAlloc_sameMembers device).trans ?_
  refine (@attrStoreItem_sameMembers _ _ _ _ .device _ _ deviceTable).trans ?_
  refine (macSecMaterialAlloc_sameMembers keyDev).trans ?_
  refine (macSecMaterialAlloc_sameMembers key).trans ?_
  refine SameMembers.trans ?_ (@attrStoreItem_sameMembers _ _ _ _ .key _ _ keyTable)
  exact .of_pib rfl

-----------------------------------------------------------------------------------------
-- One event
-----------------------------------------------------------------------------------------

/-- The common materials are there, and a key with them when a confirm has come. -/
def ReadyToJoin (layout : SecLayout) (app : DevApp σ) : Prop :=
  Configured layout app.material ∨ Associated layout app

/-- The device is where it should be. -/
structure DevJoin.Follows (layout : SecLayout) (s : DevJoin σ) (t : JoinSpec) : Prop where
  received : BeaconsKept s.coorBeacon s.coorSize t.heard
  pib : PibHolds s.app.material.sys t
  ready : ReadyToJoin layout s.app

theorem Configured.pibOnly {m : Material σ} (configured : Configured layout m)
    (only : PibOnly m.sys sys')
    : Configured layout { m with sys := sys' } where
  installed := configured.installed.pibOnly only
  usages := configured.usages
  lookupInUse := by
    rw [only.allocated]
    exact configured.lookupInUse
  usagesInUse := by
    rw [only.allocated]
    exact configured.usagesInUse
  noStray := only.strayFrees.trans configured.noStray

theorem ReadyToJoin.pibOnly {app : DevApp σ} (ready : ReadyToJoin layout app)
    (only : PibOnly app.material.sys sys')
    : ReadyToJoin layout { app with material.sys := sys' } := by
  rcases ready with configured | associated
  · exact .inl (configured.pibOnly only)
  · obtain ⟨dev, key, keyDev, installed, device⟩ := associated.installed
    exact .inr ⟨⟨dev, key, keyDev, installed.pibOnly only, device⟩, associated.usages⟩

/-- The network of a coordinator goes into the PIB. -/
theorem PibHolds.choose (holds : PibHolds sys t) (panDesc : MacPanDesc)
    : ∃ sys' sys'',
      (if panDesc.coordAddr.addrMode = zbAddr64BitDev then
          attrStore sys macAttrCoordinatorExtendedAddress panDesc.coordAddr.addr.toList
        else
          attrStore sys macAttrCoordinatorShortAddress
            [panDesc.coordAddr.addr[0], panDesc.coordAddr.addr[1]]) = some sys'
      ∧ attrStore sys' macAttrPanId (wordBytes panDesc.coordPanId) = some sys''
      ∧ PibOnly sys sys' ∧ PibOnly sys' sys'' ∧ PibHolds sys'' (t.choose panDesc) := by
  have panBytes : (wordBytes panDesc.coordPanId).length = 2 := rfl
  by_cases long : panDesc.coordAddr.addrMode = zbAddr64BitDev
  · obtain ⟨sys', stored, only, reads, others⟩ :=
      @NetworkAttr.store _ _ _ _ coordExtAddress_attr sys panDesc.coordAddr.addr.toList (by simp)
    obtain ⟨sys'', stored', only', reads', others'⟩ := panId_attr.store sys' panBytes
    refine ⟨sys', sys'', by rw [if_pos long, stored], stored', only, only', ?_⟩
    rw [JoinSpec.choose, if_pos long]
    refine ⟨?_, fun word => ?_, fun word => ?_⟩
    · rw [attrLoadExt, others' _ (by decide) (by decide), reads]
      rfl
    · rw [attrLoadWord, others' _ (by decide) (by decide), others _ (by decide) (by decide)]
      exact holds.coordShort word
    · rw [attrLoadWord, reads']
      exact congrArg some (ofNat_wordBytes _)
  · obtain ⟨sys', stored, only, reads, others⟩ :=
      @NetworkAttr.store _ _ _ _ coordShortAddress_attr sys
        [panDesc.coordAddr.addr[0], panDesc.coordAddr.addr[1]] rfl
    obtain ⟨sys'', stored', only', reads', others'⟩ := panId_attr.store sys' panBytes
    refine ⟨sys', sys'', by rw [if_neg long, stored], stored', only, only', ?_⟩
    rw [JoinSpec.choose, if_neg long]
    refine ⟨?_, fun word => ?_, fun word => ?_⟩
    · rw [attrLoadExt, others' _ (by decide) (by decide), others _ (by decide) (by decide)]
      exact holds.coordExt
    · rw [attrLoadWord, others' _ (by decide) (by decide), reads]
      rfl
    · rw [attrLoadWord, reads']
      exact congrArg some (ofNat_wordBytes _)

variable {s : DevJoin σ}

/-- A confirmed scan asks the strongest coordinator. -/
theorem DevJoin.Follows.scanConfirm (follows : s.Follows layout t)
    : ∃ s', myScanCnfCb s = some ((t.step .scanConfirm).1, s')
      ∧ s'.Follows layout (t.step .scanConfirm).2 := by
  have size := follows.received.size
  by_cases heard : t.heard = []
  · have none_heard : s.coorSize = 0 := by rw [size, heard, List.length_nil]
    simp only [myScanCnfCb, JoinSpec.step, heard, List.argmax_nil, none_heard, ne_eq,
      not_true_eq_false, if_false]
    exact ⟨s, rfl, follows⟩
  · have some_heard : s.coorSize ≠ 0 := by
      rw [size]
      exact fun none => heard (List.length_eq_zero_iff.mp none)
    obtain ⟨panDesc, strongest, loop⟩ :=
      panOfHighestLqi_argmax t.heard follows.received.entries heard
    obtain ⟨sys', sys'', stored, stored', only, only', pib⟩ := follows.pib.choose panDesc
    have entry : panOfHighestLqi s.coorBeacon s.coorSize = panDesc.entry := by
      rw [size]
      exact loop
    simp only [myScanCnfCb, some_heard, ne_eq, not_false_eq_true, if_true, devStartAssociate,
      if_false, entry, MacPanDesc.entry, stored, stored', Option.bind_some, Option.map_some,
      JoinSpec.step, strongest]
    refine ⟨_, rfl, ?_, pib, (follows.ready.pibOnly only).pibOnly only'⟩
    simp only [JoinSpec.choose]
    split_ifs <;> exact follows.received

/-- A confirm puts the parent into the PIB, and the network of the PIB into the key material. -/
theorem myAssocCnfCb_names {lib : TnMemAlloc} {app app' : DevApp σ} {parentAddress : ExtAddr}
    (pib : PibHolds app.material.sys t)
    (result : myAssocCnfCb layout lib app parentAddress = some app')
    : app'.coorExtAddr = parentAddress ∧ app'.coorAddrShort = t.coordShort ∧ app'.panId = t.panId
      ∧ PibHolds app'.material.sys { t with coordExt := parentAddress.toList } := by
  obtain ⟨sys, stored, -, reads, others⟩ :=
    @NetworkAttr.store _ _ _ _ coordExtAddress_attr app.material.sys parentAddress.toList (by simp)
  have confirmed : PibHolds sys { t with coordExt := parentAddress.toList } := by
    refine ⟨?_, fun word => ?_, fun word => ?_⟩
    · rw [attrLoadExt, reads]
      rfl
    · rw [attrLoadWord, others _ (by decide) (by decide)]
      exact pib.coordShort word
    · rw [attrLoadWord, others _ (by decide) (by decide)]
      exact pib.panId word
  simp only [myAssocCnfCb, stored, Option.bind_some, confirmed.panId, confirmed.coordShort,
    DevApp.addKeyMaterial, Option.map_eq_some_iff] at result
  obtain ⟨material, installed, rfl⟩ := result
  exact ⟨rfl, rfl, rfl, confirmed.congr (installKey_sameMembers installed).network⟩

theorem ReadyToJoin.confirm {app : DevApp σ} (ready : ReadyToJoin layout app) (parentAddress : ExtAddr)
    : ∃ app', myAssocCnfCb layout lib app parentAddress = some app' ∧ ReadyToJoin layout app' := by
  rcases ready with configured | associated
  · obtain ⟨app', called, associated, -⟩ := myAssocCnfCb_first lib configured parentAddress
    exact ⟨app', called, .inr associated⟩
  · obtain ⟨app', called, associated, -⟩ := myAssocCnfCb_later lib associated parentAddress
    exact ⟨app', called, .inr associated⟩

theorem DevJoin.Follows.associateConfirm (follows : s.Follows layout t)
    (parentAddress : ExtAddr) (success : Bool)
    : ∃ s', myAssocCnf layout lib parentAddress success s
          = some ((t.step (.associateConfirm parentAddress success)).1, s')
      ∧ s'.Follows layout (t.step (.associateConfirm parentAddress success)).2 := by
  obtain ⟨app', called, ready⟩ := follows.ready.confirm lib parentAddress
  obtain ⟨parent, short, panId, pib⟩ := myAssocCnfCb_names follows.pib called
  refine ⟨if success then macSetPollRate { s with app := app' } else { s with app := app' }, ?_, ?_⟩
  · simp only [myAssocCnf, called, Option.map_some, parent, short, panId]
    rfl
  · cases success with
    | false => exact ⟨follows.received, pib, ready⟩
    | true =>
        simp only [if_true, macSetPollRate]
        split_ifs <;> exact ⟨follows.received, pib, ready⟩

/-- A beacon that permits association is kept while there is room. -/
theorem DevJoin.Follows.beacon (follows : s.Follows layout t) (panDesc : MacPanDesc)
    : (myBeaconIndCb panDesc s).Follows layout (t.step (.beacon panDesc)).2 := by
  have size := follows.received.size
  have fits := follows.received.fits
  have room : UInt8.ofNat (s.coorSize + 1) < maxEdScanResultsSupported ↔ t.heard.length < 15 := by
    have sixteen : maxEdScanResultsSupported.toNat = 16 := rfl
    simp only [UInt8.lt_iff_toNat_lt, UInt8.toNat_ofNat', size, Nat.reducePow, sixteen]
    omega
  cases permit : panDesc.associatePermit with
  | false =>
      simp only [myBeaconIndCb, permit, if_true, JoinSpec.step, Bool.false_eq_true, false_and,
        if_false]
      exact follows
  | true =>
      simp only [myBeaconIndCb, permit, Bool.true_eq_false, if_false, JoinSpec.step, true_and, room]
      by_cases free : t.heard.length < 15
      · rw [if_pos free, if_pos free]
        exact ⟨follows.received.append free panDesc, follows.pib.hears _, follows.ready⟩
      · rw [if_neg free, if_neg free]
        exact follows

/-- Every event is answered as it should be. -/
theorem DevJoin.Follows.step (follows : s.Follows layout t) (event : JoinEvent)
    : ∃ s', s.step layout lib event = some ((t.step event).1, s')
      ∧ s'.Follows layout (t.step event).2 := by
  cases event with
  | startScan => exact ⟨_, rfl, follows.received, follows.pib, follows.ready⟩
  | scanTimer => exact ⟨_, rfl, .nil _, follows.pib.hears [], follows.ready⟩
  | beacon panDesc => exact ⟨_, rfl, follows.beacon panDesc⟩
  | scanConfirm => exact follows.scanConfirm
  | associateConfirm parentAddress success => exact follows.associateConfirm lib _ success
  | pollTimer =>
      refine ⟨s, ?_, follows⟩
      simp only [DevJoin.step, pollDataReqSend, follows.pib.coordExt, follows.pib.panId,
        Option.bind_some, Option.map_some]
      rfl

-----------------------------------------------------------------------------------------
-- Runs
-----------------------------------------------------------------------------------------

/-- By induction over the events. -/
theorem DevJoin.Follows.run (follows : s.Follows layout t) (events : List JoinEvent)
    : ∃ s', s.run layout lib events = some ((t.run events).1, s')
      ∧ s'.Follows layout (t.run events).2 := by
  induction events generalizing s t with
  | nil => exact ⟨s, rfl, follows⟩
  | cons event rest ih =>
      obtain ⟨s', step, follows'⟩ := follows.step lib event
      obtain ⟨s'', run, follows''⟩ := ih follows'
      refine ⟨s'', ?_, follows''⟩
      simp only [DevJoin.run, step, Option.bind_some, run, Option.map_some]
      rfl

/-- The word that stands in a member of the PIB. -/
def pibWord (pib : Mem) (f : PibField) : UInt16 :=
  .ofNat ((pib f.offset).toNat + 256 * (pib (f.offset + 1)).toNat)

/-- The network that the PIB holds at the start. -/
def JoinSpec.of (pib : Mem) : JoinSpec where
  heard := []
  coordExt := pib.read PibField.coordExtAddress.offset 8
  coordShort := pibWord pib .coordShortAddress
  panId := pibWord pib .panId

theorem pibHolds_of (sys : MacSys σ) : PibHolds sys (.of sys.pib) where
  coordExt := by
    rw [attrLoadExt, coordExtAddress_attr.plain.get_eq sys (Mem.read_length _ _ _) rfl]
    rfl
  coordShort word := by
    rw [attrLoadWord, coordShortAddress_attr.plain.get_eq sys (Mem.read_length _ _ _) rfl]
    rfl
  panId word := by
    rw [attrLoadWord, panId_attr.plain.get_eq sys (Mem.read_length _ _ _) rfl]
    rfl

/-- The device after `dev_config`, with whatever the array holds. -/
def DevJoin.start (app : DevApp σ) (coorBeacon : Nat → MyPan) : DevJoin σ where
  app
  coorBeacon
  coorSize := 0
  beaconReqTimer := false
  pollDataTimer := false

/-- From boot, in every order of scans, beacons, confirms and polls, no beacon lands behind the
array and the device sends what it should: it asks the strongest of the first fifteen coordinators
that have permitted association since the last scan began, hands the network that it has asked to
the key material, and polls the stored address, which the end of a scan sets to that of the
coordinator it asks and an association confirm to that of the parent.
-/
theorem devJoin_answers (layout : SecLayout) (lib : TnMemAlloc) (boot : MacSys σ)
    (noItems : Holds boot.lists (fun _ => [])) (noEntries : ∀ table, boot.entries table = 0)
    (noFrees : boot.freed = []) (noStray : boot.strayFrees = []) (app : DevApp σ)
    (initialised : app.material.sys = macSecMaterialInit layout boot true)
    (coorBeacon : Nat → MyPan) (events : List JoinEvent)
    : ∃ ready s', devConfig layout lib app = some ready
        ∧ (DevJoin.start ready coorBeacon).run layout lib events
          = some (((JoinSpec.of ready.material.sys.pib).run events).1, s')
        ∧ s'.coorSize < maxEdScanResultsSupported.toNat := by
  have reset := macSecMaterialInit_reset layout boot noItems noEntries noFrees noStray
  rw [← initialised] at reset
  obtain ⟨ready, config, configured⟩ := devConfig_configured lib reset
  have follows : (DevJoin.start ready coorBeacon).Follows layout (.of ready.material.sys.pib) :=
    ⟨.nil _, pibHolds_of _, .inl configured⟩
  obtain ⟨s', run, after⟩ := follows.run lib events
  refine ⟨ready, s', config, run, ?_⟩
  rw [after.received.size]
  exact Nat.lt_succ_of_le after.received.fits

/-- Of two beacons the stronger one is asked. -/
theorem devJoin_answers_two
    : let weak : MacPanDesc :=
        ⟨0x1111, true, ⟨Vector.replicate 8 1, zbAddr64BitDev⟩, 24, 0, 40⟩
      let strong : MacPanDesc :=
        ⟨0xbeef, true, ⟨#v[0x11, 0x22, 0, 0, 0, 0, 0, 0], zbAddr16BitDevOrBroadcast⟩, 24, 0, 90⟩
      let events : List JoinEvent :=
        [.startScan, .scanTimer, .beacon weak, .beacon strong, .scanConfirm,
          .associateConfirm (Vector.replicate 8 7) true, .pollTimer]
      let coorBeacon (_ : Nat) := weak.entry
      ∃ ready s', devConfig SecLayout.paged .firstFree DevApp.boot = some ready
        ∧ (DevJoin.start ready coorBeacon).run SecLayout.paged .firstFree events
          = some (((JoinSpec.of ready.material.sys.pib).run events).1, s')
        ∧ s'.coorSize < maxEdScanResultsSupported.toNat :=
  devJoin_answers SecLayout.paged .firstFree MacSys.boot MacSys.boot_holds
    (by intro table; rfl) rfl rfl DevApp.boot rfl _ _

/-- The two beacons, as the specification has them. -/
example : ((JoinSpec.of fun _ => 0).run
      [.scanTimer, .beacon ⟨1, true, ⟨Vector.replicate 8 1, 3⟩, 24, 0, 40⟩,
        .beacon ⟨2, true, ⟨Vector.replicate 8 2, 3⟩, 24, 0, 90⟩, .scanConfirm, .pollTimer]).1
    = [.scan, .associate ⟨24, 2, ⟨Vector.replicate 8 2, 3⟩, true, true⟩,
      .poll ⟨3, List.replicate 8 2, 2⟩] := by
  decide +kernel

end TelinkSdk
