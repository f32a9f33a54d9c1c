import Mathlib.Data.List.Dedup
import TelinkSdk.Demo.Material

/-! The coordinator of the association demo, `associate_coor/app.c`. It gives every new device the
next short address and answers a device that it knows with the one it got first.
-/

namespace TelinkSdk

open TnList

variable {σ : Type} [MacSecLib σ] (layout : SecLayout) (lib : TnMemAlloc)

-----------------------------------------------------------------------------------------
-- The application
-----------------------------------------------------------------------------------------

/-- `my_device_t`. -/
structure MyDevice where
  extAddr : ExtAddr
  shortAddr : UInt16
  panId : UInt16
  deriving DecidableEq, Repr

/-- The globals of the application. -/
structure CoorApp (σ : Type) where
  material : Material σ
  -- `END_DEVICE_NUM` is `MAC_DEV_TABLE_MAX_LEN`
  endDevice : Nat → MyDevice
  deviceIndex : UInt8
  deviceAddrShort : UInt16
  deviceExtAddr : ExtAddr

/-- The globals `coor_addr_short` and `pan_id`, which nothing changes, and `ZB_MAC_SECURITY`. -/
def CoorApp.coorAddrShort : UInt16 := 0x2211

def CoorApp.panId : UInt16 := 0xbeef

def CoorApp.zbMacSecurity : UInt8 := 1

/-- `coor_config`. -/
def coorConfig (app : CoorApp σ) : Option (CoorApp σ) :=
  (attrStore app.material.sys macAttrSecurityEnabled [CoorApp.zbMacSecurity]).bind (fun sys =>
    (attrStore sys macAttrShortAddress (Nor.bytes16 CoorApp.coorAddrShort.toNat)).bind (fun sys =>
      (attrStore sys macDefaultKeySource defaultKeySource).bind (fun sys =>
        (commonMaterials layout lib { app.material with sys }).map (fun material =>
          { app with material }))))

/-- The loop of `add_key_material` over the device table, with `count` indices to go. -/
def findDevice (m : Material σ) (extAddr : ExtAddr) : Nat → UInt8 → Option (Option Nat)
  | 0, _ => some none
  | count + 1, index =>
      (tlZbMacAttrGet m.sys macDeviceTable index).bind (fun
        | .item (some devDesc) =>
            if (m.device devDesc).longAddress = extAddr then some (some devDesc)
            else findDevice m extAddr count (index + 1)
        | _ => findDevice m extAddr count (index + 1))

/-- `mac_deviceDesc_reset`, which stores the given fields. -/
def macDeviceDescReset (m : Material σ) (devDesc : Nat) (desc : DeviceDesc) : Material σ :=
  { m with device := Function.update m.device devDesc desc }

/-- The descriptor of the device that is being added. -/
def CoorApp.deviceDesc (app : CoorApp σ) : DeviceDesc where
  frameCounter := 0
  panId := CoorApp.panId
  shortAddress := app.deviceAddrShort
  longAddress := app.deviceExtAddr
  exempt := false

/-- `add_key_material` of the coordinator. -/
def CoorApp.addKeyMaterial (app : CoorApp σ) : Option (Bool × CoorApp σ) :=
  (findDevice app.material app.deviceExtAddr macDevTableMaxLen 0).bind (fun
    | some devDesc =>
        let app := { app with deviceAddrShort := (app.material.device devDesc).shortAddress }
        some (true, { app with material := macDeviceDescReset app.material devDesc app.deviceDesc })
    | none =>
        if macDevTableMaxLen ≤ app.deviceIndex.toNat then some (false, app)
        else
          let app := { app with
            deviceAddrShort := (app.deviceAddrShort &&& 0xfff0) + app.deviceIndex.toUInt16 }
          (installKey layout lib app.material app.deviceDesc app.deviceIndex).map (fun material =>
            (true, { app with material, deviceIndex := app.deviceIndex + 1 })))

/-- The association response: the device and its short address. -/
structure AssociateResp where
  devAddress : ExtAddr
  shortAddress : UInt16
  deriving DecidableEq, Repr

/-- `MyAssociateIndCb` with the response it sends. The timer for indirect data that it starts is
left out.
-/
def myAssociateIndCb (app : CoorApp σ) (devAddress : ExtAddr)
    : Option (CoorApp σ × Option AssociateResp) :=
  (CoorApp.addKeyMaterial layout lib { app with deviceExtAddr := devAddress }).bind
    (fun (added, app) =>
      if added = false then some (app, none)
      else
        let idx := (app.deviceAddrShort &&& 0xf).toNat
        (attrLoadWord app.material.sys macAttrPanId (app.endDevice idx).panId).map (fun panId =>
          ({ app with
              endDevice := Function.update app.endDevice idx
                { extAddr := devAddress, shortAddr := app.deviceAddrShort, panId } },
            some { devAddress, shortAddress := app.deviceAddrShort })))

/-- The indications of a run and the responses to them. -/
def associateInds (app : CoorApp σ)
    : List ExtAddr → Option (CoorApp σ × List (ExtAddr × Option AssociateResp))
  | [] => some (app, [])
  | devAddress :: rest =>
      (myAssociateIndCb layout lib app devAddress).bind (fun (app, resp) =>
        (associateInds app rest).map (fun (app, resps) => (app, (devAddress, resp) :: resps)))

-----------------------------------------------------------------------------------------
-- The search in the device table
-----------------------------------------------------------------------------------------

variable {layout} {m : Material σ} {lookup : Nat} {usages devs tabled : List Nat}
  {keys : List (Nat × Nat)} {s : Nat → List Nat} {app : CoorApp σ} {known : List ExtAddr}
  {x : ExtAddr}

theorem TablesHold.getDevice (tables : TablesHold layout lookup usages m.sys devs tabled keys s)
    (index : UInt8)
    : tlZbMacAttrGet m.sys macDeviceTable index
      = some (match devs[index.toNat]? with
        | some dev => .item (some dev)
        | none => .invalidParameter) := by
  have place : s (m.sys.table .device) = devs := by
    rw [tables.table, tables.devTable]
  have got : tlZbMacAttrGet m.sys macDeviceTable index = _ :=
    tlZbMacAttrGet_table m.sys .device index
  rw [got, attrGetTable_eq tables.holds place tables.devEntries]
  cases devs[index.toNat]? with
  | none => rfl
  | some dev => rfl

/-- The loop finds the first device descriptor with the address, and looks beyond the end of the
table without harm.
-/
theorem TablesHold.findDevice_eq
    (tables : TablesHold layout lookup usages m.sys devs tabled keys s) (extAddr : ExtAddr)
    (count : Nat) (index : UInt8) (small : index.toNat + count < 256)
    : findDevice m extAddr count index
      = some (((devs.drop index.toNat).take count).find?
        (fun dev => (m.device dev).longAddress = extAddr)) := by
  induction count generalizing index with
  | zero => simp [findDevice]
  | succ count ih =>
      have next : (index + 1).toNat = index.toNat + 1 := by
        rw [UInt8.toNat_add]
        simp only [UInt8.reduceToNat]
        omega
      have later := ih (index + 1) (by omega)
      rw [next] at later
      rw [findDevice, tables.getDevice]
      rcases Nat.lt_or_ge index.toNat devs.length with below | past
      · rw [List.getElem?_eq_getElem below, List.drop_eq_getElem_cons below, List.take_succ_cons,
          List.find?_cons]
        simp only [Option.bind_some]
        by_cases same : (m.device devs[index.toNat]).longAddress = extAddr
        · simp [same]
        · simp [same, later]
      · rw [List.getElem?_eq_none past, List.drop_eq_nil_of_le past]
        simp only [Option.bind_some, later]
        rw [List.drop_eq_nil_of_le (by omega)]
        simp

/-- All descriptors of the table are searched. -/
theorem TablesHold.findDevice_all
    (tables : TablesHold layout lookup usages m.sys devs tabled keys s) (extAddr : ExtAddr)
    (bound : devs.length ≤ macDevTableMaxLen)
    : findDevice m extAddr macDevTableMaxLen 0
      = some (devs.find? (fun dev => (m.device dev).longAddress = extAddr)) := by
  rw [tables.findDevice_eq extAddr macDevTableMaxLen 0 (by decide)]
  simp only [UInt8.reduceToNat, List.drop_zero, List.take_of_length_le bound]

-----------------------------------------------------------------------------------------
-- The addresses
-----------------------------------------------------------------------------------------

/-- The short address of the device at an index. -/
def shortOf (index : Nat) : UInt16 := 0x3300 + UInt16.ofNat index

theorem shortOf_facts : ∀ i < 16, shortOf i &&& 0xfff0 = 0x3300 ∧ (shortOf i &&& 0xf).toNat = i := by
  decide

theorem shortOf_inj {i j : Nat} (smallI : i < 16) (smallJ : j < 16) (same : shortOf i = shortOf j)
    : i = j := by
  have first := (shortOf_facts i smallI).2
  have second := (shortOf_facts j smallJ).2
  rw [same] at first
  omega

/-- The coordinator knows the devices `known`, in the order of their first association. -/
structure Knows (layout : SecLayout) (app : CoorApp σ) (known : List ExtAddr) (devs : List Nat)
    (keys : List (Nat × Nat)) : Prop where
  installed : Installed layout app.material devs keys
  onceDevs : devs.Nodup
  length : devs.length = known.length
  descs : ∀ i dev x, devs[i]? = some dev → known[i]? = some x
    → (app.material.device dev).longAddress = x
      ∧ (app.material.device dev).shortAddress = shortOf i
  index : app.deviceIndex.toNat = known.length
  bound : known.length ≤ 16
  once : known.Nodup
  short : app.deviceAddrShort &&& 0xfff0 = 0x3300
  endDevice : ∀ i x, known[i]? = some x
    → (app.endDevice i).extAddr = x ∧ (app.endDevice i).shortAddr = shortOf i

/-- The loop finds the descriptor of a device that is known. -/
theorem Knows.find_known (knows : Knows layout app known devs keys) {i : Nat}
    (place : known[i]? = some x)
    : ∃ dev, devs[i]? = some dev
        ∧ devs.find? (fun dev => (app.material.device dev).longAddress = x) = some dev := by
  have small : i < devs.length := knows.length ▸ (List.getElem?_eq_some_iff.mp place).1
  have atI : devs[i]? = some devs[i] := List.getElem?_eq_getElem small
  refine ⟨devs[i], atI, ?_⟩
  cases found : devs.find? (fun dev => (app.material.device dev).longAddress = x) with
  | none =>
      have all := List.find?_eq_none.mp found devs[i] (List.getElem_mem small)
      exact absurd (knows.descs i devs[i] x atI place).1 (by simpa using all)
  | some dev =>
      have matches' : (app.material.device dev).longAddress = x := by
        simpa using List.find?_some found
      obtain ⟨j, smallJ, same⟩ := List.getElem_of_mem (List.mem_of_find?_eq_some found)
      have atJ : devs[j]? = some dev := by rw [List.getElem?_eq_getElem smallJ, same]
      have smallJ' : j < known.length := knows.length ▸ smallJ
      have knownJ : known[j]? = some known[j] := List.getElem?_eq_getElem smallJ'
      have address := (knows.descs j dev known[j] atJ knownJ).1
      -- both places hold the same address, and every address is there once
      have sameIndex : j = i := by
        refine (List.getElem?_inj smallJ' knows.once).mp ?_
        rw [knownJ, place, ← address, matches']
      subst sameIndex
      rw [same]

/-- The loop finds nothing for a device that is not known. -/
theorem Knows.find_unknown (knows : Knows layout app known devs keys) (unknown : x ∉ known)
    : devs.find? (fun dev => (app.material.device dev).longAddress = x) = none := by
  rw [List.find?_eq_none]
  intro dev inside
  obtain ⟨j, smallJ, same⟩ := List.getElem_of_mem inside
  have atJ : devs[j]? = some dev := by rw [List.getElem?_eq_getElem smallJ, same]
  have smallJ' : j < known.length := knows.length ▸ smallJ
  have knownJ : known[j]? = some known[j] := List.getElem?_eq_getElem smallJ'
  have address := (knows.descs j dev known[j] atJ knownJ).1
  simp only [decide_eq_true_eq]
  rintro rfl
  exact unknown (address ▸ List.getElem_mem smallJ')

theorem Knows.findDevice (knows : Knows layout app known devs keys) (x : ExtAddr)
    : TelinkSdk.findDevice app.material x macDevTableMaxLen 0
      = some (devs.find? (fun dev => (app.material.device dev).longAddress = x)) := by
  obtain ⟨s, tables⟩ := knows.installed.tables
  refine tables.findDevice_all x ?_
  rw [knows.length]
  exact knows.bound

theorem Installed.setDevice (installed : Installed layout m devs keys) (device : Nat → DeviceDesc)
    : Installed layout { m with device } devs keys :=
  ⟨installed.tables, installed.inUse, installed.onceUsages, installed.sameLength⟩

/-- A device that is known gets its address again, and the tables stay as they are. -/
theorem Knows.seen (knows : Knows layout app known devs keys) {i : Nat}
    (place : known[i]? = some x)
    : ∃ app', myAssociateIndCb layout lib app x
          = some (app', some { devAddress := x, shortAddress := shortOf i })
        ∧ Knows layout app' known devs keys := by
  obtain ⟨dev, atI, found⟩ := knows.find_known place
  have small : i < 16 := Nat.lt_of_lt_of_le (List.getElem?_eq_some_iff.mp place).1 knows.bound
  obtain ⟨address, short⟩ := knows.descs i dev x atI place
  obtain ⟨facts, idx⟩ := shortOf_facts i small
  obtain ⟨panId, load⟩ := attrLoadWord_some app.material.sys macAttrPanId (by decide)
    (app.endDevice i).panId
  let desc : DeviceDesc :=
    {
      frameCounter := 0
      panId := CoorApp.panId
      shortAddress := shortOf i
      longAddress := x
      exempt := false
    }
  have result : myAssociateIndCb layout lib app x
      = some (
        {
          material := macDeviceDescReset app.material dev desc
          endDevice := Function.update app.endDevice i
            { extAddr := x, shortAddr := shortOf i, panId }
          deviceIndex := app.deviceIndex
          deviceAddrShort := shortOf i
          deviceExtAddr := x
        }, some { devAddress := x, shortAddress := shortOf i }) := by
    simp only [myAssociateIndCb, CoorApp.addKeyMaterial, knows.findDevice, found, Option.bind_some,
      short, Bool.true_eq_false, if_false, idx, macDeviceDescReset, load, Option.map_some]
    rfl
  refine ⟨_, result, ?_⟩
  exact
    {
      installed := knows.installed.setDevice _
      onceDevs := knows.onceDevs
      length := knows.length
      descs := by
        intro j dev' y atJ knownJ
        by_cases here : dev' = dev
        · subst here
          have sameIndex : j = i := by
            have smallJ : j < devs.length := (List.getElem?_eq_some_iff.mp atJ).1
            exact (List.getElem?_inj smallJ knows.onceDevs).mp (atJ.trans atI.symm)
          subst sameIndex
          cases place.symm.trans knownJ
          simp only [macDeviceDescReset, Function.update_self]
          exact ⟨rfl, rfl⟩
        · simp only [macDeviceDescReset, Function.update_of_ne here]
          exact knows.descs j dev' y atJ knownJ
      index := knows.index
      bound := knows.bound
      once := knows.once
      short := facts
      endDevice := by
        intro j y knownJ
        by_cases here : j = i
        · subst here
          cases place.symm.trans knownJ
          simp
        · simp only [Function.update_of_ne here]
          exact knows.endDevice j y knownJ
    }

/-- An element of a list with one more at the end. -/
theorem getElem?_snoc {α : Type} {items : List α} {item : α} {j : Nat} {y : α}
    (place : (items ++ [item])[j]? = some y)
    : items[j]? = some y ∨ j = items.length ∧ item = y := by
  rcases Nat.lt_or_ge j items.length with below | past
  · rw [List.getElem?_append_left below] at place
    exact .inl place
  · rw [List.getElem?_append_right past] at place
    obtain ⟨small, same⟩ := List.getElem?_eq_some_iff.mp place
    simp only [List.length_singleton] at small
    exact .inr ⟨by omega, by simpa using same⟩

/-- A new device gets the next address. -/
theorem Knows.new (knows : Knows layout app known devs keys) (unknown : x ∉ known)
    (room : known.length < 16)
    : ∃ app' dev p, myAssociateIndCb layout lib app x
          = some (app', some { devAddress := x, shortAddress := shortOf known.length })
        ∧ Knows layout app' (known ++ [x]) (devs ++ [dev]) (keys ++ [p]) := by
  have found := knows.find_unknown unknown
  have notFull : ¬macDevTableMaxLen ≤ app.deviceIndex.toNat := by
    rw [knows.index]
    exact Nat.not_le.mpr room
  have nextShort : (app.deviceAddrShort &&& 0xfff0) + app.deviceIndex.toUInt16
      = shortOf known.length := by
    rw [knows.short, shortOf, ← knows.index]
    congr 1
    rw [UInt8.toNat, ← UInt16.toNat_inj]
    simp
  obtain ⟨facts, idx⟩ := shortOf_facts known.length room
  let desc : DeviceDesc :=
    {
      frameCounter := 0
      panId := CoorApp.panId
      shortAddress := shortOf known.length
      longAddress := x
      exempt := false
    }
  obtain ⟨m', dev, key, keyDev, installs, installed, changes, newDev, -⟩ :=
    installKey_append lib desc app.deviceIndex knows.installed (knows.length ▸ room)
      (knows.index.trans knows.length.symm)
  obtain ⟨panId, load⟩ := attrLoadWord_some m'.sys macAttrPanId (by decide)
    (app.endDevice known.length).panId
  have result : myAssociateIndCb layout lib app x
      = some (
        {
          material := m'
          endDevice := Function.update app.endDevice known.length
            { extAddr := x, shortAddr := shortOf known.length, panId }
          deviceIndex := app.deviceIndex + 1
          deviceAddrShort := shortOf known.length
          deviceExtAddr := x
        }, some { devAddress := x, shortAddress := shortOf known.length }) := by
    have installs' := installs
    simp only [desc] at installs'
    simp only [myAssociateIndCb, CoorApp.addKeyMaterial, knows.findDevice, found, Option.bind_some,
      if_neg notFull, nextShort, CoorApp.deviceDesc, installs', Option.map_some,
      Bool.true_eq_false, if_false, idx, load]
  refine ⟨_, dev, (key, keyDev), result, ?_⟩
  exact
    {
      installed := installed
      onceDevs := by
        rw [← List.concat_eq_append]
        exact knows.onceDevs.concat newDev
      length := by simp [knows.length]
      descs := by
        intro j dev' y atJ knownJ
        rw [changes.device]
        have lengths := knows.length
        rcases getElem?_snoc atJ with oldDev | ⟨rfl, rfl⟩
        · have below := (List.getElem?_eq_some_iff.mp oldDev).1
          rw [List.getElem?_append_left (by omega)] at knownJ
          have different : dev' ≠ dev := by
            rintro rfl
            exact newDev (List.mem_of_getElem? oldDev)
          rw [Function.update_of_ne different]
          exact knows.descs j dev' y oldDev knownJ
        · rw [lengths, List.getElem?_concat_length, Option.some.injEq] at knownJ
          rw [Function.update_self, lengths]
          exact ⟨knownJ, rfl⟩
      index := by
        have count := knows.index
        rw [List.length_append, List.length_singleton, UInt8.toNat_add]
        simp only [UInt8.reduceToNat]
        omega
      bound := by
        rw [List.length_append, List.length_singleton]
        omega
      once := by
        rw [← List.concat_eq_append]
        exact knows.once.concat unknown
      short := facts
      endDevice := by
        intro j y knownJ
        rcases getElem?_snoc knownJ with old | ⟨rfl, rfl⟩
        · have different : j ≠ known.length :=
            Nat.ne_of_lt (List.getElem?_eq_some_iff.mp old).1
          simp only [Function.update_of_ne different]
          exact knows.endDevice j y old
        · simp
    }

/-- With sixteen devices a new one gets no answer, and nothing but the buffer of its address has
changed.
-/
theorem Knows.full (knows : Knows layout app known devs keys) (unknown : x ∉ known)
    (full : known.length = 16)
    : myAssociateIndCb layout lib app x = some ({ app with deviceExtAddr := x }, none) := by
  have found := knows.find_unknown unknown
  have isFull : macDevTableMaxLen ≤ app.deviceIndex.toNat := by
    rw [knows.index, full]
  simp only [myAssociateIndCb, CoorApp.addKeyMaterial, knows.findDevice, found, Option.bind_some,
    if_pos isFull, if_true]

theorem Knows.setExtAddr (knows : Knows layout app known devs keys) (x : ExtAddr)
    : Knows layout { app with deviceExtAddr := x } known devs keys :=
  ⟨knows.installed, knows.onceDevs, knows.length, knows.descs, knows.index, knows.bound,
    knows.once, knows.short, knows.endDevice⟩

-----------------------------------------------------------------------------------------
-- Runs
-----------------------------------------------------------------------------------------

/-- The responses of a run, by the devices that are known before and after it. -/
inductive Answered : List ExtAddr → List (ExtAddr × Option AssociateResp) → List ExtAddr → Prop where
  | nil (known : List ExtAddr) : Answered known [] known
  | seen {known known' : List ExtAddr} {i : Nat} {x : ExtAddr}
      {rest : List (ExtAddr × Option AssociateResp)} (place : known[i]? = some x)
      (later : Answered known rest known')
      : Answered known ((x, some ⟨x, shortOf i⟩) :: rest) known'
  | new {known known' : List ExtAddr} {x : ExtAddr}
      {rest : List (ExtAddr × Option AssociateResp)} (unknown : x ∉ known)
      (room : known.length < 16) (later : Answered (known ++ [x]) rest known')
      : Answered known ((x, some ⟨x, shortOf known.length⟩) :: rest) known'
  | full {known known' : List ExtAddr} {x : ExtAddr}
      {rest : List (ExtAddr × Option AssociateResp)} (unknown : x ∉ known)
      (full : known.length = 16) (later : Answered known rest known')
      : Answered known ((x, none) :: rest) known'

/-- A run of indications always ends, with the responses that the known devices determine. -/
theorem Knows.run (knows : Knows layout app known devs keys) (inds : List ExtAddr)
    : ∃ app' resps known' devs' keys', associateInds layout lib app inds = some (app', resps)
        ∧ resps.map Prod.fst = inds ∧ Answered known resps known'
        ∧ Knows layout app' known' devs' keys' := by
  induction inds generalizing app known devs keys with
  | nil => exact ⟨app, [], known, devs, keys, rfl, rfl, .nil known, knows⟩
  | cons x rest ih =>
      by_cases isKnown : x ∈ known
      · obtain ⟨i, place⟩ := List.mem_iff_getElem?.mp isKnown
        obtain ⟨next, called, knows'⟩ := knows.seen lib place
        obtain ⟨app', resps, known', devs', keys', run, inds, answered, final⟩ := ih knows'
        refine ⟨app', _, known', devs', keys', ?_, ?_, .seen place answered, final⟩
        · simp only [associateInds, called, Option.bind_some, run, Option.map_some]
        · simp only [List.map_cons, inds]
      · rcases Nat.lt_or_ge known.length 16 with room | noRoom
        · obtain ⟨next, dev, p, called, knows'⟩ := knows.new lib isKnown room
          obtain ⟨app', resps, known', devs', keys', run, inds, answered, final⟩ := ih knows'
          refine ⟨app', _, known', devs', keys', ?_, ?_, .new isKnown room answered, final⟩
          · simp only [associateInds, called, Option.bind_some, run, Option.map_some]
          · simp only [List.map_cons, inds]
        · have isFull : known.length = 16 := Nat.le_antisymm knows.bound noRoom
          have called := knows.full lib isKnown isFull
          obtain ⟨app', resps, known', devs', keys', run, inds, answered, final⟩ :=
            ih (knows.setExtAddr x)
          refine ⟨app', _, known', devs', keys', ?_, ?_, .full isKnown isFull answered, final⟩
          · simp only [associateInds, called, Option.bind_some, run, Option.map_some]
          · simp only [List.map_cons, inds]

section Answered

variable {known' : List ExtAddr} {resps : List (ExtAddr × Option AssociateResp)}
  {resp : AssociateResp}

/-- A device that is known stays known, at its place. -/
theorem Answered.keeps (answered : Answered known resps known') {i : Nat}
    (place : known[i]? = some x)
    : known'[i]? = some x := by
  induction answered with
  | nil => exact place
  | seen _ _ ih => exact ih place
  | new _ _ _ ih =>
      apply ih
      rw [List.getElem?_append_left (List.getElem?_eq_some_iff.mp place).1]
      exact place
  | full _ _ _ ih => exact ih place

/-- Every response tells the place of the device. -/
theorem Answered.place (answered : Answered known resps known') (given : (x, some resp) ∈ resps)
    : ∃ i : Nat, known'[i]? = some x ∧ resp = ⟨x, shortOf i⟩ := by
  induction answered with
  | nil => cases given
  | seen here later ih =>
      rcases List.mem_cons.mp given with first | rest
      · cases first
        exact ⟨_, later.keeps here, rfl⟩
      · exact ih rest
  | new unknown room later ih =>
      rcases List.mem_cons.mp given with first | rest
      · cases first
        exact ⟨_, later.keeps List.getElem?_concat_length, rfl⟩
      · exact ih rest
  | full unknown isFull later ih =>
      rcases List.mem_cons.mp given with first | rest
      · cases first
      · exact ih rest

/-- A device that is known at the end was known before or has been answered. -/
theorem Answered.origin (answered : Answered known resps known') (inside : x ∈ known')
    : x ∈ known ∨ ∃ resp, (x, some resp) ∈ resps := by
  induction answered with
  | nil => exact .inl inside
  | seen _ _ ih =>
      refine (ih inside).imp id ?_
      rintro ⟨resp, given⟩
      exact ⟨resp, List.mem_cons_of_mem _ given⟩
  | new _ _ _ ih =>
      rcases ih inside with before | ⟨resp, given⟩
      · rcases List.mem_append.mp before with old | here
        · exact .inl old
        · cases List.mem_singleton.mp here
          exact .inr ⟨_, List.mem_cons_self⟩
      · exact .inr ⟨resp, List.mem_cons_of_mem _ given⟩
  | full _ _ _ ih =>
      refine (ih inside).imp id ?_
      rintro ⟨resp, given⟩
      exact ⟨resp, List.mem_cons_of_mem _ given⟩

/-- A device that is known is always answered, with the address of its place. -/
theorem Answered.again (answered : Answered known resps known') (once : known.Nodup) {i : Nat}
    (place : known[i]? = some x) {r : Option AssociateResp} (given : (x, r) ∈ resps)
    : r = some ⟨x, shortOf i⟩ := by
  induction answered with
  | nil => cases given
  | seen here later ih =>
      rcases List.mem_cons.mp given with first | rest
      · cases first
        have small := (List.getElem?_eq_some_iff.mp place).1
        have sameIndex := (List.getElem?_inj small once).mp (place.trans here.symm)
        rw [sameIndex]
      · exact ih once place rest
  | new unknown room later ih =>
      rcases List.mem_cons.mp given with first | rest
      · cases first
        exact absurd (List.mem_of_getElem? place) unknown
      · refine ih ?_ ?_ rest
        · rw [← List.concat_eq_append]
          exact once.concat unknown
        · rw [List.getElem?_append_left (List.getElem?_eq_some_iff.mp place).1]
          exact place
  | full unknown isFull later ih =>
      rcases List.mem_cons.mp given with first | rest
      · cases first
        exact absurd (List.mem_of_getElem? place) unknown
      · exact ih once place rest

/-- The answer that a device got first is the answer to all that follow. -/
theorem Answered.first (answered : Answered known resps known') (once : known.Nodup)
    {before after : List (ExtAddr × Option AssociateResp)}
    (split : resps = before ++ (x, some resp) :: after) {r : Option AssociateResp}
    (given : (x, r) ∈ after)
    : r = some resp := by
  induction answered generalizing before with
  | nil => simp at split
  | @seen known known' i y rest here later ih =>
      cases before with
      | nil =>
          cases split
          exact later.again once here given
      | cons first others =>
          cases split
          exact ih once rfl
  | @new known known' y rest unknown room later ih =>
      have once' : (known ++ [y]).Nodup := by
        rw [← List.concat_eq_append]
        exact once.concat unknown
      cases before with
      | nil =>
          cases split
          exact later.again once' List.getElem?_concat_length given
      | cons first others =>
          cases split
          exact ih once' rfl
  | full unknown isFull later ih =>
      cases before with
      | nil => cases split
      | cons first others =>
          cases split
          exact ih once rfl

end Answered

/-- The devices that have been answered, in the order of the answers. -/
def answeredAddrs (resps : List (ExtAddr × Option AssociateResp)) : List ExtAddr :=
  (resps.filter (fun p => p.2.isSome)).map Prod.fst

theorem mem_answeredAddrs {resps : List (ExtAddr × Option AssociateResp)}
    : x ∈ answeredAddrs resps ↔ ∃ resp, (x, some resp) ∈ resps := by
  simp [answeredAddrs, Option.isSome_iff_exists]

/-- The responses of a run and the state after it agree. -/
structure AddressesOk (layout : SecLayout) (lib : TnMemAlloc)
    (resps : List (ExtAddr × Option AssociateResp)) (app : CoorApp σ) : Prop where
  /-- A device that was answered is answered with the same address ever after. -/
  repeated : ∀ before x resp after r, resps = before ++ (x, some resp) :: after
    → (x, r) ∈ after → r = some resp
  addressed : ∀ x resp, (x, some resp) ∈ resps → resp.devAddress = x
  distinct : ∀ x resp y resp', (x, some resp) ∈ resps → (y, some resp') ∈ resps
    → resp.shortAddress = resp'.shortAddress → x = y
  endDevice : ∀ x resp, (x, some resp) ∈ resps
    → (app.endDevice (resp.shortAddress &&& 0xf).toNat).extAddr = x
  count : app.deviceIndex.toNat = (answeredAddrs resps).dedup.length
  devEntries : app.material.sys.entries .device = app.deviceIndex
  keyEntries : app.material.sys.entries .key = app.deviceIndex
  lists : ∃ s, Holds app.material.sys.lists s
    ∧ (s (app.material.sys.table .device)).length = app.deviceIndex.toNat
    ∧ (s (app.material.sys.table .key)).length = app.deviceIndex.toNat
  bound : app.deviceIndex.toNat ≤ 16
  /-- As long as there is room, the next indication is answered. -/
  answers : ∀ x, app.deviceIndex.toNat < 16
    → ∃ app' resp, myAssociateIndCb layout lib app x = some (app', some resp)
  /-- Then a new device gets no answer, and nothing but the buffer of its address changes. -/
  full : ∀ x, x ∉ answeredAddrs resps → app.deviceIndex.toNat = 16
    → myAssociateIndCb layout lib app x = some ({ app with deviceExtAddr := x }, none)

theorem Knows.addressesOk {resps : List (ExtAddr × Option AssociateResp)}
    (knows : Knows layout app known devs keys) (answered : Answered [] resps known)
    : AddressesOk layout lib resps app := by
  have mem_known (x : ExtAddr) : x ∈ known ↔ x ∈ answeredAddrs resps := by
    rw [mem_answeredAddrs]
    constructor
    · intro inside
      rcases answered.origin inside with before | given
      · cases before
      · exact given
    · rintro ⟨resp, given⟩
      obtain ⟨i, place, -⟩ := answered.place given
      exact List.mem_of_getElem? place
  have distinctCount : known.length = (answeredAddrs resps).dedup.length := by
    apply List.Perm.length_eq
    rw [List.perm_ext_iff_of_nodup knows.once (List.nodup_dedup _)]
    intro x
    rw [List.mem_dedup]
    exact mem_known x
  have small {i : Nat} {x : ExtAddr} (place : known[i]? = some x) : i < 16 :=
    Nat.lt_of_lt_of_le (List.getElem?_eq_some_iff.mp place).1 knows.bound
  obtain ⟨s, tables⟩ := knows.installed.tables
  have keyCount : (keys.map Prod.fst).length = known.length := by
    rw [List.length_map, knows.installed.sameLength, knows.length]
  refine
    {
      repeated := fun before x resp after r split given =>
        answered.first List.nodup_nil split given
      addressed := fun x resp given => ?_
      distinct := fun x resp y resp' given given' same => ?_
      endDevice := fun x resp given => ?_
      count := knows.index.trans distinctCount
      devEntries := UInt8.toNat_inj.mp ?_
      keyEntries := UInt8.toNat_inj.mp ?_
      lists := ⟨s, tables.holds, ?_, ?_⟩
      bound := knows.index ▸ knows.bound
      answers := fun x room => ?_
      full := fun x unknown isFull => ?_
    }
  · obtain ⟨i, place, rfl⟩ := answered.place given
    rfl
  · obtain ⟨i, place, rfl⟩ := answered.place given
    obtain ⟨j, place', rfl⟩ := answered.place given'
    have sameIndex := shortOf_inj (small place) (small place') same
    subst sameIndex
    exact Option.some.inj (place.symm.trans place')
  · obtain ⟨i, place, rfl⟩ := answered.place given
    rw [(shortOf_facts i (small place)).2]
    exact (knows.endDevice i x place).1
  · rw [tables.devEntries, knows.length, knows.index]
  · rw [tables.keyEntries, keyCount, knows.index]
  · rw [tables.table, tables.devTable, knows.length, knows.index]
  · rw [tables.table, tables.keyTable, keyCount, knows.index]
  · rw [knows.index] at room
    by_cases isKnown : x ∈ known
    · obtain ⟨i, place⟩ := List.mem_iff_getElem?.mp isKnown
      obtain ⟨app', called, -⟩ := knows.seen lib place
      exact ⟨app', _, called⟩
    · obtain ⟨app', dev, p, called, -⟩ := knows.new lib isKnown room
      exact ⟨app', _, called⟩
  · exact knows.full lib (fun inside => unknown ((mem_known x).mp inside))
      (knows.index.symm.trans isFull)

/-- `coor_config` and the associate indications of a run. -/
def associateCoor (layout : SecLayout) (lib : TnMemAlloc) (app : CoorApp σ) (inds : List ExtAddr)
    : Option (CoorApp σ × List (ExtAddr × Option AssociateResp)) :=
  (coorConfig layout lib app).bind (fun app => associateInds layout lib app inds)

theorem coorConfig_knows (reset : SecReset layout app.material.sys)
    (index : app.deviceIndex = 0) (short : app.deviceAddrShort = 0x3300)
    : ∃ app', coorConfig layout lib app = some app' ∧ Knows layout app' [] [] [] := by
  obtain ⟨sys1, store1, only1⟩ := attrStore_pibOnly app.material.sys macAttrSecurityEnabled
    [CoorApp.zbMacSecurity] ⟨.securityEnabled, 1⟩ rfl rfl (by decide)
    (by rintro (_ | _ | _) <;> decide)
  obtain ⟨sys2, store2, only2⟩ := attrStore_pibOnly sys1 macAttrShortAddress
    (Nor.bytes16 CoorApp.coorAddrShort.toNat) ⟨.shortAddress, 2⟩ rfl rfl (by decide)
    (by rintro (_ | _ | _) <;> decide)
  obtain ⟨sys3, store3, only3⟩ := attrStore_pibOnly sys2 macDefaultKeySource defaultKeySource
    ⟨.defaultKeySource, 8⟩ rfl rfl (by decide) (by rintro (_ | _ | _) <;> decide)
  have reset3 : SecReset layout sys3 := ((reset.pibOnly only1).pibOnly only2).pibOnly only3
  obtain ⟨m', common, configured⟩ := commonMaterials_configured lib
    (m := { app.material with sys := sys3 }) reset3
  refine ⟨{ app with material := m' }, ?_, ?_⟩
  · simp only [coorConfig, store1, Option.bind_some, store2, store3, common, Option.map_some]
  · exact
      {
        installed := configured.installed
        onceDevs := List.nodup_nil
        length := rfl
        descs := fun i dev x inDevs => by simp at inDevs
        index := congrArg UInt8.toNat index
        bound := by decide
        once := List.nodup_nil
        short := by
          simp only [short]
          decide
        endDevice := fun i x inKnown => by simp at inKnown
      }

/-- From boot and the initial globals, over every run of associate indications: a device is always
answered with the address it got first, no two devices share one, and the tables count the devices
that were answered, sixteen at most.
-/
theorem associateCoor_addresses (layout : SecLayout) (lib : TnMemAlloc) (boot : MacSys σ)
    (noItems : Holds boot.lists (fun _ => [])) (noEntries : ∀ table, boot.entries table = 0)
    (noFrees : boot.freed = []) (noStray : boot.strayFrees = []) (app : CoorApp σ)
    (initialised : app.material.sys = macSecMaterialInit layout boot true)
    (index : app.deviceIndex = 0) (short : app.deviceAddrShort = 0x3300) (inds : List ExtAddr)
    : ∃ app' resps, associateCoor layout lib app inds = some (app', resps)
        ∧ resps.map Prod.fst = inds ∧ AddressesOk layout lib resps app' := by
  have reset := macSecMaterialInit_reset layout boot noItems noEntries noFrees noStray
  rw [← initialised] at reset
  obtain ⟨ready, config, knows⟩ := coorConfig_knows lib reset index short
  obtain ⟨app', resps, known', devs', keys', run, sameInds, answered, final⟩ := knows.run lib inds
  refine ⟨app', resps, ?_, sameInds, final.addressesOk lib answered⟩
  simp only [associateCoor, config, Option.bind_some, run]

/-- The coordinator at boot. -/
def CoorApp.boot : CoorApp ListMem where
  material :=
    {
      sys := macSecMaterialInit SecLayout.paged MacSys.boot true
      device := fun _ => ⟨0, 0, 0, Vector.replicate 8 0, false⟩
      keyDevice := fun _ => 0
      keyUsgDesc := []
      keyIdDesc := 0
    }
  endDevice := fun _ => ⟨Vector.replicate 8 0, 0, 0⟩
  deviceIndex := 0
  deviceAddrShort := 0x3300
  deviceExtAddr := Vector.replicate 8 0

theorem associateCoor_addresses_rejoin
    : ∃ app' resps, associateCoor SecLayout.paged .firstFree CoorApp.boot
          [Vector.replicate 8 1, Vector.replicate 8 2, Vector.replicate 8 1] = some (app', resps)
        ∧ resps.map Prod.fst
          = [Vector.replicate 8 1, Vector.replicate 8 2, Vector.replicate 8 1]
        ∧ AddressesOk SecLayout.paged .firstFree resps app' :=
  associateCoor_addresses SecLayout.paged .firstFree MacSys.boot MacSys.boot_holds
    (by intro table; rfl) rfl rfl CoorApp.boot rfl rfl rfl _

end TelinkSdk
