import TelinkSdk.Demo.Material

/-! The end device of the association demo, `associate_dev/app.c`. Every association confirm
replaces its only key, which gives the common materials back that the new key links.
-/

namespace TelinkSdk

open TnList

variable {σ : Type} [MacSecLib σ] (layout : SecLayout) (lib : TnMemAlloc)

-----------------------------------------------------------------------------------------
-- The application
-----------------------------------------------------------------------------------------

/-- The globals of the application. -/
structure DevApp (σ : Type) where
  material : Material σ
  coorExtAddr : ExtAddr
  coorAddrShort : UInt16
  panId : UInt16

/-- `ZB_MAC_SECURITY`. -/
def DevApp.zbMacSecurity : UInt8 := 1

/-- `dev_config`. -/
def devConfig (app : DevApp σ) : Option (DevApp σ) :=
  (attrStore app.material.sys macAttrSecurityEnabled [DevApp.zbMacSecurity]).bind (fun sys =>
    (attrStore sys macDefaultKeySource defaultKeySource).bind (fun sys =>
      (commonMaterials layout lib { app.material with sys }).map (fun material =>
        { app with material })))

/-- `add_key_material` of the end device: always the first entry of both tables. -/
def DevApp.addKeyMaterial (app : DevApp σ) : Option (DevApp σ) :=
  (installKey layout lib app.material
    {
      frameCounter := 0
      panId := app.panId
      shortAddress := app.coorAddrShort
      longAddress := app.coorExtAddr
      exempt := false
    } 0).map (fun material => { app with material })

/-- `MyAssocCnfCb` up to the installed key. What follows on success saves the network data and
starts the poll and the query timers.
-/
def myAssocCnfCb (app : DevApp σ) (parentAddress : ExtAddr) : Option (DevApp σ) :=
  (attrStore app.material.sys macAttrCoordinatorExtendedAddress parentAddress.toList).bind
    (fun sys =>
      (attrLoadWord sys macAttrPanId app.panId).bind (fun panId =>
        (attrLoadWord sys macAttrCoordinatorShortAddress app.coorAddrShort).bind
          (fun coorAddrShort =>
            DevApp.addKeyMaterial layout lib
              {
                material := { app.material with sys }
                coorExtAddr := parentAddress
                coorAddrShort
                panId
              })))

/-- The confirms of a run, one after the other. -/
def assocConfirms (app : DevApp σ) : List ExtAddr → Option (DevApp σ)
  | [] => some app
  | parentAddress :: rest =>
      (myAssocCnfCb layout lib app parentAddress).bind (fun app => assocConfirms app rest)

/-- A descriptor that the tables lead to is in use, and none was given back when it was not. -/
def MaterialInUse (m : Material σ) : Prop :=
  (∃ s, Holds m.sys.lists s
    ∧ (∀ dev ∈ s (m.sys.table .device), dev ∈ m.sys.allocated .device)
    ∧ ∀ key ∈ s (m.sys.table .key),
      (∀ lookup ∈ s (m.sys.keys key).keyIdLookupList, lookup ∈ m.sys.allocated .keyId)
      ∧ (∀ keyDev ∈ s (m.sys.keys key).keyDeviceList,
        keyDev ∈ m.sys.allocated .keyDev ∧ m.keyDevice keyDev ∈ m.sys.allocated .device)
      ∧ ∀ usage ∈ s (m.sys.keys key).keyUsageList, usage ∈ m.sys.allocated .keyUsage)
  ∧ m.sys.strayFrees = []

-----------------------------------------------------------------------------------------
-- Runs
-----------------------------------------------------------------------------------------

variable {layout}

theorem devConfig_configured {app : DevApp σ} (reset : SecReset layout app.material.sys)
    : ∃ app', devConfig layout lib app = some app' ∧ Configured layout app'.material := by
  obtain ⟨sys1, store1, only1⟩ := attrStore_pibOnly app.material.sys macAttrSecurityEnabled
    [DevApp.zbMacSecurity] ⟨.securityEnabled, 1⟩ rfl rfl (by decide)
    (by rintro (_ | _ | _) <;> decide)
  obtain ⟨sys2, store2, only2⟩ := attrStore_pibOnly sys1 macDefaultKeySource defaultKeySource
    ⟨.defaultKeySource, 8⟩ rfl rfl (by decide) (by rintro (_ | _ | _) <;> decide)
  have reset2 : SecReset layout sys2 := (reset.pibOnly only1).pibOnly only2
  obtain ⟨m', common, configured⟩ := commonMaterials_configured lib
    (m := { app.material with sys := sys2 }) reset2
  refine ⟨{ app with material := m' }, ?_, configured⟩
  simp only [devConfig, store1, Option.bind_some, store2, common, Option.map_some]

/-- A confirm changes the PIB outside the tables and then installs a key. -/
theorem myAssocCnfCb_installs (layout : SecLayout) (app : DevApp σ) (parentAddress : ExtAddr)
    : ∃ sys' desc, PibOnly app.material.sys sys'
        ∧ ∀ m', installKey layout lib { app.material with sys := sys' } desc 0 = some m'
          → ∃ app', myAssocCnfCb layout lib app parentAddress = some app'
            ∧ app'.material = m' := by
  obtain ⟨sys', store, only⟩ := attrStore_pibOnly app.material.sys
    macAttrCoordinatorExtendedAddress parentAddress.toList ⟨.coordExtAddress, 8⟩ rfl rfl
    (by simp) (by rintro (_ | _ | _) <;> decide)
  obtain ⟨panId, loadPanId⟩ := attrLoadWord_some sys' macAttrPanId (by decide) app.panId
  obtain ⟨short, loadShort⟩ := attrLoadWord_some sys' macAttrCoordinatorShortAddress
    (by decide) app.coorAddrShort
  let desc : DeviceDesc :=
    {
      frameCounter := 0
      panId
      shortAddress := short
      longAddress := parentAddress
      exempt := false
    }
  refine ⟨sys', desc, only, fun m' installs =>
    ⟨{ material := m', coorExtAddr := parentAddress, coorAddrShort := short, panId }, ?_, rfl⟩⟩
  simp only [myAssocCnfCb, store, Option.bind_some, loadPanId, loadShort, DevApp.addKeyMaterial,
    installs, Option.map_some, desc]

/-- One device with its key is installed; the common materials are its last two arguments. -/
structure Associated (layout : SecLayout) (app : DevApp σ) : Prop where
  installed : ∃ dev key keyDev, Installed layout app.material [dev] [(key, keyDev)]
    ∧ app.material.keyDevice keyDev = dev
  usages : app.material.keyUsgDesc.length = 2

/-- The first confirm installs a key of which everything is in use. -/
theorem myAssocCnfCb_first {app : DevApp σ} (configured : Configured layout app.material)
    (parentAddress : ExtAddr)
    : ∃ app', myAssocCnfCb layout lib app parentAddress = some app' ∧ Associated layout app'
        ∧ app'.material.keyIdDesc ∈ app'.material.sys.allocated .keyId
        ∧ (∀ usage ∈ app'.material.keyUsgDesc,
          usage ∈ app'.material.sys.allocated .keyUsage)
        ∧ app'.material.sys.strayFrees = [] := by
  obtain ⟨sys', desc, only, confirm⟩ := myAssocCnfCb_installs lib layout app parentAddress
  obtain ⟨m', dev, key, keyDev, result, installed, installs, -, -, lookups, usages, stray⟩ :=
    installKey_append lib desc 0 (configured.installed.pibOnly only)
      (by decide) rfl
  obtain ⟨app', called, rfl⟩ := confirm m' result
  refine ⟨app', called, ⟨⟨dev, key, keyDev, installed, ?_⟩, ?_⟩, ?_, ?_, ?_⟩
  · rw [installs.keyDevice, Function.update_self]
  · rw [installs.keyUsgDesc]
    exact configured.usages
  · rw [installs.keyIdDesc, lookups, only.allocated]
    exact configured.lookupInUse
  · rw [installs.keyUsgDesc, usages, only.allocated]
    exact configured.usagesInUse
  · rw [stray, only.strayFrees]
    exact configured.noStray

/-- Every later confirm gives the lookup descriptor back that the new key links. -/
theorem myAssocCnfCb_later {app : DevApp σ} (associated : Associated layout app)
    (parentAddress : ExtAddr)
    : ∃ app', myAssocCnfCb layout lib app parentAddress = some app' ∧ Associated layout app'
        ∧ app'.material.keyIdDesc ∉ app'.material.sys.allocated .keyId := by
  obtain ⟨sys', desc, only, confirm⟩ := myAssocCnfCb_installs lib layout app parentAddress
  obtain ⟨⟨old, oldKey, oldKeyDev, installed, -⟩, usages⟩ := associated
  have short : app.material.keyUsgDesc.length < 256 := by omega
  have before := installed.pibOnly only
  obtain ⟨m', dev, key, keyDev, result, installed', installs, kept⟩ :=
    installKey_replace lib desc before short
  obtain ⟨app', called, rfl⟩ := confirm m' result
  refine ⟨app', called, ⟨⟨dev, key, keyDev, installed', ?_⟩, ?_⟩, ?_⟩
  · rw [installs.keyDevice, Function.update_self]
  · rw [installs.keyUsgDesc]
    exact usages
  · intro inUse
    rw [installs.keyIdDesc, kept .keyId _ (by decide) (by decide) (by decide)] at inUse
    exact inUse.2 (by simp [keyBlocks])

/-- The state after the first confirm is as it should be. -/
theorem Associated.inUse {app : DevApp σ} (associated : Associated layout app)
    (lookup : app.material.keyIdDesc ∈ app.material.sys.allocated .keyId)
    (usages : ∀ usage ∈ app.material.keyUsgDesc, usage ∈ app.material.sys.allocated .keyUsage)
    (noStray : app.material.sys.strayFrees = [])
    : MaterialInUse app.material := by
  obtain ⟨⟨dev, key, keyDev, ⟨⟨s, tables⟩, inUse, -, -⟩, device⟩, -⟩ := associated
  refine ⟨⟨s, tables.holds, ?_, ?_⟩, noStray⟩
  · intro dev' inside
    rw [tables.table, tables.devTable] at inside
    exact (inUse.device dev').mpr inside
  · intro key' inside
    rw [tables.table, tables.keyTable] at inside
    cases List.mem_singleton.mp inside
    have lists := tables.lists (key, keyDev) (List.mem_singleton_self _)
    simp only [SecDesc.lists, List.forall_mem_cons] at lists
    rw [tables.records (key, keyDev) (List.mem_singleton_self _)]
    simp only [keyRecord, lists.1, lists.2.1, lists.2.2.1]
    refine ⟨?_, ?_, usages⟩
    · intro lookup' linked
      exact List.mem_singleton.mp linked ▸ lookup
    · intro keyDev' linked
      cases List.mem_singleton.mp linked
      refine ⟨(inUse.keyDev keyDev).mpr ⟨(key, keyDev), List.mem_singleton_self _, rfl⟩, ?_⟩
      rw [device]
      exact (inUse.device dev).mpr (List.mem_singleton_self _)

/-- A free lookup descriptor is still linked by the installed key. -/
theorem Associated.not_inUse {app : DevApp σ} (associated : Associated layout app)
    (lookup : app.material.keyIdDesc ∉ app.material.sys.allocated .keyId)
    : ¬MaterialInUse app.material := by
  obtain ⟨⟨dev, key, keyDev, ⟨⟨s, tables⟩, -, -, -⟩, -⟩, -⟩ := associated
  rintro ⟨⟨s', holds, -, allKeys⟩, -⟩
  -- two sequences that the memory holds begin with the same item
  have sameHead (list : Nat) : (s' list).head? = (s list).head? := by
    rw [← head_eq list holds, ← head_eq list tables.holds]
  have inTable : key ∈ s' (app.material.sys.table .key) := by
    apply List.mem_of_mem_head?
    rw [sameHead, tables.table, tables.keyTable]
    rfl
  have lists := tables.lists (key, keyDev) (List.mem_singleton_self _)
  simp only [SecDesc.lists, List.forall_mem_cons] at lists
  have linked : app.material.keyIdDesc
      ∈ s' (app.material.sys.keys key).keyIdLookupList := by
    apply List.mem_of_mem_head?
    rw [sameHead, tables.records (key, keyDev) (List.mem_singleton_self _), keyRecord, lists.1]
    rfl
  exact lookup ((allKeys key inTable).1 _ linked)

/-- After two confirms or more the lookup descriptor is free. -/
theorem assocConfirms_later {app : DevApp σ} (associated : Associated layout app)
    (freed : app.material.keyIdDesc ∉ app.material.sys.allocated .keyId)
    (parents : List ExtAddr)
    : ∃ app', assocConfirms layout lib app parents = some app' ∧ Associated layout app'
        ∧ app'.material.keyIdDesc ∉ app'.material.sys.allocated .keyId := by
  induction parents generalizing app with
  | nil => exact ⟨app, rfl, associated, freed⟩
  | cons parentAddress rest ih =>
      obtain ⟨next, called, associated', freed'⟩ := myAssocCnfCb_later lib associated parentAddress
      obtain ⟨app', run, result⟩ := ih associated' freed'
      refine ⟨app', ?_, result⟩
      rw [assocConfirms, called]
      exact run

/-- `dev_config` and the association confirms of a run. -/
def associateDev (layout : SecLayout) (lib : TnMemAlloc) (app : DevApp σ)
    (parents : List ExtAddr) : Option (DevApp σ) :=
  (devConfig layout lib app).bind (fun app => assocConfirms layout lib app parents)

/-- One confirm leaves everything in use. -/
theorem associateDev_one {app : DevApp σ} (reset : SecReset layout app.material.sys)
    (first : ExtAddr)
    : ∃ app', associateDev layout lib app [first] = some app' ∧ MaterialInUse app'.material := by
  obtain ⟨ready, config, configured⟩ := devConfig_configured lib reset
  obtain ⟨app', called, associated, lookup, usages, noStray⟩ :=
    myAssocCnfCb_first lib configured first
  refine ⟨app', ?_, associated.inUse lookup usages noStray⟩
  simp only [associateDev, config, Option.bind_some, assocConfirms, called]

/-- From the second confirm on, the installed key links a free descriptor. -/
theorem associateDev_more {app : DevApp σ} (reset : SecReset layout app.material.sys)
    (first second : ExtAddr) (others : List ExtAddr)
    : ∃ app', associateDev layout lib app (first :: second :: others) = some app'
        ∧ ¬MaterialInUse app'.material := by
  obtain ⟨ready, config, configured⟩ := devConfig_configured lib reset
  obtain ⟨app1, called1, associated1, -⟩ := myAssocCnfCb_first lib configured first
  obtain ⟨app2, called2, associated2, freed2⟩ := myAssocCnfCb_later lib associated1 second
  obtain ⟨app', run, associated, freed⟩ := assocConfirms_later lib associated2 freed2 others
  refine ⟨app', ?_, associated.not_inUse freed⟩
  simp only [associateDev, config, Option.bind_some, assocConfirms, called1, called2, run]

/-- From boot, after `dev_config` and any number of association confirms but none, every
descriptor that the tables lead to is in use exactly when there was one confirm.
-/
theorem associateDev_inUse_iff (layout : SecLayout) (lib : TnMemAlloc) (boot : MacSys σ)
    (noItems : Holds boot.lists (fun _ => [])) (noEntries : ∀ table, boot.entries table = 0)
    (noFrees : boot.freed = []) (noStray : boot.strayFrees = []) (app : DevApp σ)
    (initialised : app.material.sys = macSecMaterialInit layout boot true)
    (parents : List ExtAddr) (confirmed : parents ≠ [])
    : ∃ app', associateDev layout lib app parents = some app'
        ∧ (MaterialInUse app'.material ↔ parents.length = 1) := by
  have reset := macSecMaterialInit_reset layout boot noItems noEntries noFrees noStray
  rw [← initialised] at reset
  cases parents with
  | nil => exact absurd rfl confirmed
  | cons first rest =>
      cases rest with
      | nil =>
          obtain ⟨app', run, inUse⟩ := associateDev_one lib reset first
          exact ⟨app', run, by simp [inUse]⟩
      | cons second others =>
          obtain ⟨app', run, notInUse⟩ := associateDev_more lib reset first second others
          exact ⟨app', run, by simp [notInUse]⟩

/-- The application at boot. -/
def DevApp.boot : DevApp ListMem where
  material :=
    {
      sys := macSecMaterialInit SecLayout.paged MacSys.boot true
      device := fun _ => ⟨0, 0, 0, Vector.replicate 8 0, false⟩
      keyDevice := fun _ => 0
      keyUsgDesc := []
      keyIdDesc := 0
    }
  coorExtAddr := Vector.replicate 8 0
  coorAddrShort := 0
  panId := 0

theorem associateDev_inUse_one
    : ∃ app', associateDev SecLayout.paged .firstFree DevApp.boot [Vector.replicate 8 1] = some app'
        ∧ (MaterialInUse app'.material ↔ [Vector.replicate 8 (1 : UInt8)].length = 1) :=
  associateDev_inUse_iff SecLayout.paged .firstFree MacSys.boot MacSys.boot_holds
    (by intro table; rfl) rfl rfl DevApp.boot rfl [Vector.replicate 8 1] (by simp)

/-- A second confirm of the same parent leaves a key that links a free lookup descriptor. -/
theorem associateDev_second_confirm
    : ∃ app', associateDev SecLayout.paged .firstFree DevApp.boot
          [Vector.replicate 8 1, Vector.replicate 8 1] = some app'
        ∧ ¬MaterialInUse app'.material :=
  associateDev_more .firstFree
    (macSecMaterialInit_reset SecLayout.paged MacSys.boot MacSys.boot_holds (by intro table; rfl)
      rfl rfl)
    (Vector.replicate 8 1) (Vector.replicate 8 1) []

end TelinkSdk
