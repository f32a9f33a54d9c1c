import TelinkSdk.Drivers.NvIsolation
import TelinkSdk.Drivers.NvRefinement
import TelinkSdk.Ota.BootSlot

/-! One flash for the NV store and the OTA client. Neither knows of the other: what keeps them
apart is the map of the flash. Runs that interleave both, and that lose power while an image
comes in, keep the contents of the one and the session of the other.
-/

namespace TelinkSdk

open Nor

-----------------------------------------------------------------------------------------
-- Runs
-----------------------------------------------------------------------------------------

/-- A use of the flash. Events of the client come with flash faults of their own, and power may
be cut within one; the device then starts again.
-/
inductive FlashUse where
  | nv (op : NvOp)
  | ota (env : Env) (e : OtaEvent)
  | cut (env : Env) (e : OtaEvent) (count : Nat) (locked : Bool)

/-- The commands of a use. -/
def FlashUse.steps (k : OtaBuild) (b : Build) (w : OtaWorld) : FlashUse → List Step
  | .nv op => op.steps b w.mem
  | .ota env e => Prog.trace env (e.handler k w.client) w.dev
  | .cut env e count _ => (Prog.trace env (e.handler k w.client) w.dev).take count

def OtaWorld.use (k : OtaBuild) (b : Build) (w : OtaWorld) : FlashUse → OtaWorld
  | .nv op => { w with mem := op.after b w.mem }
  | .ota env e => w.step k env e
  | .cut env e count locked =>
      let mem := Prog.crash env (e.handler k w.client) w.dev count
      { client := otaPowerUp k mem, mem, locked }

theorem OtaWorld.use_mem (k : OtaBuild) (b : Build) (w : OtaWorld) (u : FlashUse)
    : (w.use k b u).mem = replay w.mem (u.steps k b w) := by
  cases u with
  | nv op => rfl
  | ota env e => exact Prog.run_mem _ _ _
  | cut env e count locked => rfl

/-- What the NV store is for: a value for each item of each module, and a frame counter. -/
structure NvContents where
  items : Fin nvMaxModuls → ItemMap := fun _ => .empty
  frameCount : Option Nat := none

/-- A call that reports success puts its value. The client is no business of the store. -/
def NvContents.use (b : Build) (m : Mem) (contents : NvContents) : FlashUse → NvContents
  | .nv (.write id call) =>
      if call.status b id m = .succ then
        { contents with
          items := Function.update contents.items id
            ((contents.items id).put call.itemId call.buf) }
      else contents
  | .nv (.reset id) =>
      if id = frameModule then { contents with frameCount := none }
      else { contents with items := Function.update contents.items id .empty }
  | .nv (.save frameCount) => { contents with frameCount := some frameCount }
  | _ => contents

/-- The worlds that uses reach from `m₀`, and what the store should hold in them. -/
inductive SharedReached (k : OtaBuild) (b : Build) (allowed : OtaWorld → FlashUse → Prop)
    (m₀ : Mem)
    : OtaWorld → NvContents → Prop where
  | boot (locked : Bool)
      : SharedReached k b allowed m₀ { client := otaPowerUp k m₀, mem := m₀, locked } {}
  | use {w : OtaWorld} {contents : NvContents}
      (before : SharedReached k b allowed m₀ w contents) (u : FlashUse) (next : allowed w u)
      : SharedReached k b allowed m₀ (w.use k b u) (contents.use b w.mem u)

-----------------------------------------------------------------------------------------
-- The map of the flash
-----------------------------------------------------------------------------------------

/-- The areas of the NV store. -/
def InModules (b : Build) (x : Nat) : Prop :=
  ∃ id : Fin nvMaxModuls, modulesStartAddr b id ≤ x ∧ x < moduleEnd b id

/-- The part of either slot that an image or its keyword can take. -/
def InSlots (x : Nat) : Prop :=
  x < otaMaxImageSize + 255
    ∨ flashOtaNewimageAddr ≤ x ∧ x < flashOtaNewimageAddr + otaMaxImageSize + 255

section Layout

variable {k : OtaBuild} {b : Build} {env : Env} {w : OtaWorld} {e : OtaEvent} {m m' : Mem}
  {x : Nat}

/-- Without a boot loader the modules lie outside of both slots. -/
theorem InModules.outside (inModules : InModules b x) (plain : b.bootLoaderMode = false)
    : ¬InSlots x := by
  obtain ⟨id, low, high⟩ := inModules
  have map := module_outside plain id.isLt
  have start : modulesStartAddr b id = moduleSectStart b id 0 := by simp [moduleSectStart]
  have finish : moduleEnd b id = moduleSectEnd b id 1 := by
    simp only [moduleEnd, moduleSectEnd]
  rw [start] at low
  rw [finish] at high
  simp only [InSlots, otaMaxImageSize, flashOtaNewimageAddr] at *
  omega

theorem inSlots_new {s : OtaClient} (low : s.newAddr ≤ x)
    (high : x < s.newAddr + otaMaxImageSize + 255)
    : InSlots x := by
  have slots := @slots_apart s
  simp only [InSlots, flashOtaNewimageAddr] at *
  omega

theorem inSlots_keyword (k : OtaBuild) (s : OtaClient)
    : InSlots (s.newAddr + otaTlnkKeywordAddroffset k)
      ∧ InSlots (s.baseAddr + otaTlnkKeywordAddroffset k) := by
  have small := keyword_offset_small k
  have slots := @slots_apart s
  simp only [InSlots, flashOtaNewimageAddr, otaMaxImageSize, flashSectorSize] at *
  omega

/-- The client addresses the slots only, whether it stores a block or switches over. -/
theorem Session.inSlots (session : Session k w.client w.mem) (env : Env) (e : OtaEvent)
    : Prog.Emits (fun step => ∀ x, step.cmd.Touches x → InSlots x) env (e.handler k w.client)
        w.dev := by
  by_cases reboots : w.reboots e = true
  · have keywords := inSlots_keyword k w.client
    have byte {addr : Nat} {value : UInt8} (there : InSlots addr) (x : Nat)
        (touched : (Cmd.program addr [value]).Touches x)
        : InSlots x := by
      simp only [Cmd.Touches, List.length_singleton] at touched
      obtain rfl : x = addr := by omega
      exact there
    intro step member
    rw [reboots_handler reboots, trace_reboot] at member
    simp only [List.mem_cons, List.not_mem_nil, or_false] at member
    rcases member with rfl | rfl
    · exact byte keywords.1
    · exact byte keywords.2
  · have fills := @Session.fills k env w session e (by simpa using reboots)
    refine fills.steps.mono ?_
    intro step slot x touched
    obtain ⟨low, high⟩ := slot.within x touched
    exact inSlots_new low high

/-- Whatever lies outside of the slots stays as it is, wherever an event is cut. -/
theorem Session.outside_kept (session : Session k w.client w.mem) (env : Env) (e : OtaEvent)
    (count : Nat) (outside : ¬InSlots x)
    : replay w.mem ((Prog.trace env (e.handler k w.client) w.dev).take count) x = w.mem x := by
  apply replay_untouched
  intro step member _ touched
  exact outside (session.inSlots env e step (List.mem_of_mem_take member) x touched)

/-- So it leaves the NV store alone. -/
theorem Session.modules_kept (session : Session k w.client w.mem) (plain : b.bootLoaderMode = false)
    (env : Env) (e : OtaEvent) (count : Nat) (inModules : InModules b x)
    : replay w.mem ((Prog.trace env (e.handler k w.client) w.dev).take count) x = w.mem x :=
  session.outside_kept env e count (inModules.outside plain)

end Layout

-----------------------------------------------------------------------------------------
-- The contents of the store
-----------------------------------------------------------------------------------------

/-- A use that the store is made for: complete writes of items of fixed lengths to modules other
than `idle`, resets of those, and counter values other than a blank word. The client may do
anything.
-/
def FlashUse.Plain (idle : Fin nvMaxModuls) (lens : Fin nvMaxModuls → ItemLengths)
    : FlashUse → Prop
  | .nv (.write id call) => id ≠ frameModule ∧ id ≠ idle ∧ PlainWrite (lens id) call
  | .nv (.delete _ _ _) => False
  | .nv (.reset id) => id ≠ idle
  | .nv (.save frameCount) => frameCount < u32Mod ∧ frameCount ≠ frameCountIdle
  | _ => True

/-- The flash holds the contents. -/
structure NvHolds (b : Build) (idle : Fin nvMaxModuls) (lens : Fin nvMaxModuls → ItemLengths)
    (m : Mem) (contents : NvContents)
    : Prop where
  items : ∀ id, id ≠ frameModule → id ≠ idle → Represents b id (lens id) m (contents.items id)
  frame : Restarts b (· = contents.frameCount) m

section Contents

variable {k : OtaBuild} {b : Build} {idle : Fin nvMaxModuls}
  {lens : Fin nvMaxModuls → ItemLengths} {m m' : Mem} {contents : NvContents} {op : NvOp}

theorem Settled.congr {id : Fin nvMaxModuls} {i : Fin 2} {es : List InfoIdx}
    (settled : Settled b id i es m)
    (same : ∀ x, modulesStartAddr b id ≤ x → x < moduleEnd b id → m' x = m x)
    : Settled b id i es m' where
  store := settled.store.congr same
  marked := fun used => by
    obtain ⟨first, last⟩ := moduleSector_within b id i
    have bounds := (moduleSector b id i).idxAddr_bounds (moduleSector b id i).slots_pos
    have heads : sectHead b id m' i = sectHead b id m i :=
      sectHead_congr (fun x low high => same x (by omega) (by omega))
    exact (marked_congr heads).mpr (settled.marked used)

/-- What a module stands for depends on its own area only. -/
theorem Represents.congr {id : Fin nvMaxModuls} {lengths : ItemLengths} {f : ItemMap}
    (represents : Represents b id lengths m f)
    (same : ∀ x, modulesStartAddr b id ≤ x → x < moduleEnd b id → m' x = m x)
    : Represents b id lengths m' f := by
  obtain ⟨i, es, settled, rounded⟩ := represents.settled
  refine ⟨⟨i, es, settled.congr same, rounded⟩, fun itemId real => ?_⟩
  rw [settled.store.read_area same real (lengths.short itemId)]
  exact represents.reads itemId real

theorem NvHolds.congr (holds : NvHolds b idle lens m contents)
    (same : ∀ x, InModules b x → m' x = m x)
    : NvHolds b idle lens m' contents where
  items := fun id notFrame used =>
    (holds.items id notFrame used).congr (fun x low high => same x ⟨id, low, high⟩)
  frame := holds.frame.congr (fun x low high => same x ⟨frameModule, low, high⟩)

/-- A blank area restarts without a counter. -/
theorem Restarts.blank
    (blank : m.BlankOn (modulesStartAddr b frameModule) (moduleEnd b frameModule))
    : Restarts b (· = none) m := by
  refine (Restarts.erased blank).mono ?_
  intro found recent
  cases found with
  | none => rfl
  | some v =>
      obtain ⟨before, c, later, eq, -⟩ := recent
      simp at eq

theorem NvHolds.erased
    (blank : ∀ id : Fin nvMaxModuls, m.BlankOn (modulesStartAddr b id) (moduleEnd b id))
    : NvHolds b idle lens m {} where
  items := fun id _ _ => Represents.erased (blank id)
  frame := .blank (blank frameModule)

theorem NvHolds.separate (holds : NvHolds b idle lens m contents) : Separate b idle m where
  items := fun id notFrame used => by
    obtain ⟨i, es, settled, -⟩ := (holds.items id notFrame used).settled
    exact ⟨i, es, settled.store⟩
  frame := holds.frame.mono (fun _ _ => trivial)

theorem NvHolds.separateOp (holds : NvHolds b idle lens m contents)
    (plain : FlashUse.Plain idle lens (.nv op))
    : SeparateOp b idle m op := by
  cases op with
  | write id call =>
      obtain ⟨notFrame, used, write⟩ := plain
      exact ⟨notFrame, used, write.unskipped, (holds.items id notFrame used).fits _⟩
  | delete id opSect opIdx => exact plain.elim
  | reset id => exact plain
  | save frameCount => exact plain

/-- Another module keeps what it holds. -/
theorem NvHolds.other (holds : NvHolds b idle lens m contents) (user : idle = 2 ∨ idle = 3)
    (allowed : SeparateOp b idle m op) {id : Fin nvMaxModuls} (different : id ≠ op.module)
    (alive : id ≠ idle) (x : Nat) (low : modulesStartAddr b id ≤ x) (high : x < moduleEnd b id)
    : op.after b m x = m x := by
  have apart := @moduleArea_apart b id op.module idle user different alive (allowed.used user)
  exact holds.separate.outside allowed (by omega)

/-- An operation of the store does to the flash what it does to the contents. -/
theorem NvHolds.nv (holds : NvHolds b idle lens m contents) (user : idle = 2 ∨ idle = 3)
    (plain : FlashUse.Plain idle lens (.nv op))
    : NvHolds b idle lens (op.after b m) (contents.use b m (.nv op)) := by
  have allowed := holds.separateOp plain
  have frameUsed : frameModule ≠ idle := by rcases user with rfl | rfl <;> decide
  have others (id : Fin nvMaxModuls) (different : id ≠ op.module) (notFrame : id ≠ frameModule)
      (alive : id ≠ idle)
      : Represents b id (lens id) (op.after b m) (contents.items id) :=
    (holds.items id notFrame alive).congr (holds.other user allowed different alive)
  have counter (different : frameModule ≠ op.module)
      : Restarts b (· = contents.frameCount) (op.after b m) :=
    holds.frame.congr (holds.other user allowed different frameUsed)
  cases op with
  | write id call =>
      obtain ⟨notFrame, used, write⟩ := plain
      have own := (holds.items id notFrame used).step write
      have complete : (NvOp.write id call).after b m = call.after b id m := by
        rw [NvCall.after_uncut write.whole, Prog.run_mem]
        rfl
      have shape : (contents.use b m (.nv (.write id call))).frameCount = contents.frameCount
          ∧ (contents.use b m (.nv (.write id call))).items = Function.update contents.items id
            (if call.status b id m = .succ then (contents.items id).put call.itemId call.buf
              else contents.items id) := by
        by_cases good : call.status b id m = .succ
        · simp only [NvContents.use, if_pos good, and_self]
        · simp only [NvContents.use, if_neg good, Function.update_eq_self, and_self]
      refine ⟨fun other otherFrame alive => ?_, ?_⟩
      · rw [shape.2]
        by_cases here : other = id
        · subst here
          rw [Function.update_self, complete]
          exact own
        · rw [Function.update_of_ne here]
          exact others other here otherFrame alive
      · rw [shape.1]
        exact counter notFrame.symm
  | delete id opSect opIdx => exact plain.elim
  | reset id =>
      have blank := nvResetModule_blank b id m
      by_cases frame : id = frameModule
      · subst frame
        simp only [NvContents.use, if_pos]
        exact {
          items := fun other otherFrame alive => others other otherFrame otherFrame alive
          frame := .blank blank
        }
      · simp only [NvContents.use, if_neg frame]
        refine ⟨fun other otherFrame alive => ?_, counter (Ne.symm frame)⟩
        by_cases here : other = id
        · subst here
          simp only [Function.update_self]
          exact Represents.erased blank
        · simp only [Function.update_of_ne here]
          exact others other here otherFrame alive
  | save frameCount =>
      obtain ⟨small, real⟩ := plain
      obtain ⟨-, saved⟩ := (@nvNwkFrameCountSaveToFlash_meets {} b (Dev.ready m) frameCount _
        small real holds.frame).steady steady_default
      rw [Prog.run_mem] at saved
      exact ⟨fun other otherFrame alive => others other otherFrame otherFrame alive, saved⟩

end Contents

section Client

variable {k : OtaBuild} {b : Build} {m m' : Mem} {s : OtaClient}

/-- The client's view of the flash is that of its slot. -/
theorem Session.congr (session : Session k s m)
    (same : ∀ x, InSlots x → m' x = m x)
    : Session k s m' := by
  have image (i : Nat) (inside : i < otaMaxImageSize) : slotImage k s m' i = slotImage k s m i := by
    have slot : m' (s.newAddr + i) = m (s.newAddr + i) :=
      same _ (inSlots_new (Nat.le_add_right _ _) (by omega))
    simp only [slotImage, Function.update_apply, slot]
  have read (count : Nat) (inside : count ≤ otaMaxImageSize)
      : (slotImage k s m').read 0 count = (slotImage k s m).read 0 count :=
    Mem.read_congr (fun i low => by rw [Nat.zero_add]; exact image i (by omega))
  have announced := session.announced
  refine { session with dataing := fun state => ?_, finished := fun state consistent => ?_ }
  · obtain ⟨count, stored⟩ := session.dataing state
    have pending := session.pending state
    refine ⟨count, fun consistent => ?_⟩
    rw [stored consistent, read _ (by omega)]
  · obtain ⟨size, checked⟩ := session.finished state consistent
    refine ⟨size, ?_⟩
    rw [read _ (by omega), checked]
    exact (Mem.le32_congr (fun i inside => image _ (by omega))).symm

/-- So is its idea of the slot that is running. -/
theorem Anchored.kept (anchored : Anchored k s m) (same : ∀ x, InSlots x → m' x = m x)
    : Anchored k s m' :=
  (same _ (inSlots_keyword k s).2).trans anchored

end Client

-----------------------------------------------------------------------------------------
-- Runs keep both
-----------------------------------------------------------------------------------------

section Runs

variable {k : OtaBuild} {b : Build} {idle : Fin nvMaxModuls}
  {lens : Fin nvMaxModuls → ItemLengths} {m₀ : Mem} {w : OtaWorld} {contents : NvContents}
  {op : NvOp}

/-- An operation of the store leaves the slots alone, wherever it is cut. -/
theorem Separate.slots_kept (separate : Separate b idle w.mem) (plain : b.bootLoaderMode = false)
    (allowed : SeparateOp b idle w.mem op) (count : Nat) {x : Nat} (inSlots : InSlots x)
    : replay w.mem ((op.steps b w.mem).take count) x = w.mem x := by
  apply replay_untouched
  intro step member _ touched
  have own := separate.own allowed step (List.mem_of_mem_take member) x touched
  exact InModules.outside ⟨op.module, own.1, own.2⟩ plain inSlots

theorem Separate.slots_after (separate : Separate b idle w.mem) (plain : b.bootLoaderMode = false)
    (allowed : SeparateOp b idle w.mem op) {x : Nat} (inSlots : InSlots x)
    : op.after b w.mem x = w.mem x := by
  have kept := separate.slots_kept plain allowed (op.steps b w.mem).length inSlots
  rwa [List.take_length] at kept

/-- A use of the client leaves the modules alone. -/
theorem Session.modules_after (session : Session k w.client w.mem)
    (plain : b.bootLoaderMode = false) (env : Env) (e : OtaEvent) {x : Nat}
    (inModules : InModules b x)
    : (w.step k env e).mem x = w.mem x := by
  have kept := session.modules_kept plain env e
    (Prog.trace env (e.handler k w.client) w.dev).length inModules
  rw [List.take_length] at kept
  exact (congrFun (Prog.run_mem _ _ _) x).trans kept

/-- A use keeps what the flash holds and what the client knows of its slot. -/
theorem NvHolds.use (holds : NvHolds b idle lens w.mem contents)
    (session : Session k w.client w.mem) (plain : b.bootLoaderMode = false)
    (user : idle = 2 ∨ idle = 3) {u : FlashUse} (allowed : u.Plain idle lens)
    : NvHolds b idle lens (w.use k b u).mem (contents.use b w.mem u)
      ∧ Session k (w.use k b u).client (w.use k b u).mem := by
  cases u with
  | nv op =>
      refine ⟨holds.nv user allowed, session.congr (fun x inSlots => ?_)⟩
      exact holds.separate.slots_after plain (holds.separateOp allowed) inSlots
  | ota env e =>
      refine ⟨holds.congr (fun x inModules => ?_), session.step env e⟩
      exact session.modules_after plain env e inModules
  | cut env e count locked =>
      refine ⟨holds.congr (fun x inModules => ?_), Session.powerUp k _ _⟩
      exact session.modules_kept plain env e count inModules

/-- In every run the flash holds what was stored, and the client knows its slot. By induction on
the uses.
-/
theorem SharedReached.holds (plain : b.bootLoaderMode = false) (user : idle = 2 ∨ idle = 3)
    (blank : ∀ id : Fin nvMaxModuls, m₀.BlankOn (modulesStartAddr b id) (moduleEnd b id))
    (reached : SharedReached k b (fun _ => FlashUse.Plain idle lens) m₀ w contents)
    : NvHolds b idle lens w.mem contents ∧ Session k w.client w.mem := by
  induction reached with
  | boot locked => exact ⟨.erased blank, Session.powerUp k m₀ m₀⟩
  | use before u next ih => exact ih.1.use ih.2 plain user next

/-- A use that keeps the modules apart, with a switch-over that does not lose a keyword. -/
def FlashUse.Safe (k : OtaBuild) (b : Build) (idle : Fin nvMaxModuls) (w : OtaWorld)
    : FlashUse → Prop
  | .nv op => SeparateOp b idle w.mem op
  | .ota env e => SwitchSafe k w env e
  | .cut env e _ _ => SwitchSafe k w env e

theorem Separate.congr {m m' : Mem} (separate : Separate b idle m)
    (same : ∀ x, InModules b x → m' x = m x)
    : Separate b idle m' where
  items := fun id notFrame used => by
    obtain ⟨i, es, store⟩ := separate.items id notFrame used
    exact ⟨i, es, store.congr (fun x low high => same x ⟨id, low, high⟩)⟩
  frame := separate.frame.congr (fun x low high => same x ⟨frameModule, low, high⟩)

/-- Safe runs keep a slot bootable. By induction on the uses. -/
theorem SharedReached.anchored (plain : b.bootLoaderMode = false) (user : idle = 2 ∨ idle = 3)
    (blank : ∀ id : Fin nvMaxModuls, m₀.BlankOn (modulesStartAddr b id) (moduleEnd b id))
    (bootable : Bootable k m₀)
    (reached : SharedReached k b (fun w => FlashUse.Safe k b idle w) m₀ w contents)
    : Separate b idle w.mem ∧ Session k w.client w.mem ∧ Anchored k w.client w.mem := by
  induction reached with
  | boot locked =>
      exact ⟨(NvHistory.erased blank).separate user, Session.powerUp k m₀ m₀,
        bootable.anchored rfl⟩
  | use before u next ih =>
      obtain ⟨separate, session, anchored⟩ := ih
      cases u with
      | nv op =>
          have slots := fun x => @Separate.slots_after b idle _ op separate plain next x
          exact ⟨separate.step user next, session.congr slots, anchored.kept slots⟩
      | ota env e =>
          have modules := fun x => @Session.modules_after k b _ session plain env e x
          exact ⟨separate.congr modules, session.step env e, anchored.step session next⟩
      | cut env e count locked =>
          have modules := fun x => @Session.modules_kept k b _ x session plain env e count
          have cut := (anchored.event session).mpr next count
          exact ⟨separate.congr modules, Session.powerUp k _ _, cut.anchored rfl⟩

end Runs

-----------------------------------------------------------------------------------------
-- Both at once
-----------------------------------------------------------------------------------------

/-- In every run that interleaves the NV store with the OTA client, each item reads as the value
of the last successful write since its module was reset, and the frame counter as the last one
saved: whatever the client is sent, whichever of its flash commands are lost, wherever power is
cut while it works, and however often it switches slots.
-/
theorem sharedFlash_contents (k : OtaBuild) {b : Build} (plain : b.bootLoaderMode = false)
    {idle : Fin nvMaxModuls} (user : idle = 2 ∨ idle = 3) (lens : Fin nvMaxModuls → ItemLengths)
    {m₀ : Mem}
    (blank : ∀ id : Fin nvMaxModuls, m₀.BlankOn (modulesStartAddr b id) (moduleEnd b id))
    {w : OtaWorld} {contents : NvContents}
    (reached : SharedReached k b (fun _ => FlashUse.Plain idle lens) m₀ w contents)
    : (∀ id, id ≠ frameModule → id ≠ idle → ∀ itemId, itemId ≠ itemFieldIdle
        → nvFlashReadNew b w.mem id itemId ((lens id).len itemId) = contents.items id itemId)
      ∧ nvNwkFrameCountFromFlash b w.mem = contents.frameCount := by
  have holds := (reached.holds plain user blank).1
  exact ⟨fun id notFrame used => (holds.items id notFrame used).reads, holds.frame.read⟩

/-- An item, the start of a session that is cut in the middle of its erases, and a counter. -/
theorem sharedFlash_contents_cut
    : let k : OtaBuild := build8258
      let b : Build := ⟨true, false⟩
      let boot : OtaWorld := { client := otaPowerUp k Mem.blank, mem := Mem.blank }
      let start : OtaEvent :=
        .startRsp
          {
            fileVer := 0x10400001
            imageType := imageType k
            manufaurerCode := manufacturerCode
            imageSize := 20000
          }
      let w := ((boot.use k b (.nv (.write 0 { itemId := 1, buf := [1, 2, 3, 4] }))).use k b
        (.cut { lowVoltage := fun n => n == 1 } start 3 true)).use k b (.nv (.save 5))
      nvNwkFrameCountFromFlash b w.mem = some 5 := by
  intro k b boot start w
  let lens : ItemLengths := ⟨fun _ => 4, fun _ => by decide, fun _ => by decide⟩
  have write : FlashUse.Plain 3 (fun _ => lens)
      (.nv (.write 0 { itemId := 1, buf := [1, 2, 3, 4] })) :=
    ⟨by decide, by decide, rfl, rfl, fun _ => rfl, fun _ => rfl, rfl⟩
  have save : FlashUse.Plain 3 (fun _ => lens) (.nv (.save 5)) := ⟨by decide, by decide⟩
  have reached := (((@SharedReached.boot k b (fun _ => FlashUse.Plain 3 (fun _ => lens)) Mem.blank
    true).use _ write).use (.cut { lowVoltage := fun n => n == 1 } start 3 true) trivial).use _ save
  exact (sharedFlash_contents k rfl (Or.inr rfl) (fun _ => lens) (fun _ _ _ _ => rfl) reached).2

/-- In every run that interleaves the NV store with the OTA client, no command of an operation of
the store reaches a slot, and none of the client's a module. The flash stays bootable at every cut
of an event exactly if its switch-over is safe, and the client only switches to an image whose
checksum is right, however much the store has been written to meanwhile.
-/
theorem sharedFlash_bootable {k : OtaBuild} {b : Build} (plain : b.bootLoaderMode = false)
    {idle : Fin nvMaxModuls} (user : idle = 2 ∨ idle = 3) {m₀ : Mem}
    (blank : ∀ id : Fin nvMaxModuls, m₀.BlankOn (modulesStartAddr b id) (moduleEnd b id))
    (bootable : Bootable k m₀) {w : OtaWorld} {contents : NvContents}
    (reached : SharedReached k b (fun w => FlashUse.Safe k b idle w) m₀ w contents)
    : (∀ op, SeparateOp b idle w.mem op
        → AtEveryCut (fun m => Bootable k m ∧ ∀ x, InSlots x → m x = w.mem x) w.mem
          (op.steps b w.mem))
      ∧ ∀ env e,
        AtEveryCut (fun m => ∀ x, InModules b x → m x = w.mem x) w.mem
          (Prog.trace env (e.handler k w.client) w.dev)
        ∧ (AtEveryCut (Bootable k) w.mem (Prog.trace env (e.handler k w.client) w.dev)
          ↔ SwitchSafe k w env e)
        ∧ (w.reboots e = true → Consistent k w.client → ImageChecked k w.client w.mem) := by
  obtain ⟨separate, session, anchored⟩ := reached.anchored plain user blank bootable
  refine ⟨fun op allowed count => ?_, fun env e => ⟨fun count x inModules => ?_, ?_, ?_⟩⟩
  · have slots := fun x => @Separate.slots_kept b idle w op separate plain allowed count x
    exact ⟨(anchored.kept slots).bootable, slots⟩
  · exact session.modules_kept plain env e count inModules
  · exact anchored.event session
  · intro reboots consistent
    cases e with
    | stopRsp pHdr =>
        simp only [OtaWorld.reboots, Bool.and_eq_true, beq_iff_eq] at reboots
        exact session.finished reboots.1 consistent
    | _ => simp [OtaWorld.reboots] at reboots

/-- A module is reset and a session started; then a counter is saved. -/
theorem sharedFlash_bootable_save
    : let k : OtaBuild := build8258
      let b : Build := ⟨true, false⟩
      let boot : OtaWorld := { client := otaPowerUp k (firstSlotMem k), mem := firstSlotMem k }
      let w := (boot.use k b (.nv (.reset 0))).use k b (.ota {} (.startRsp { imageSize := 70 }))
      AtEveryCut (fun m => Bootable k m ∧ ∀ x, InSlots x → m x = w.mem x) w.mem
        (NvOp.steps b w.mem (.save 5)) := by
  intro k b boot w
  have blank (id : Fin nvMaxModuls)
      : (firstSlotMem k).BlankOn (modulesStartAddr b id) (moduleEnd b id) := by
    intro x low high
    have map := @module_outside b rfl id id.isLt
    have start : modulesStartAddr b id = moduleSectStart b id 0 := by simp [moduleSectStart]
    have keyword := keyword_offset_small k
    rw [firstSlotMem, Function.update_of_ne]
    · rfl
    · simp only [flashSectorSize] at keyword
      omega
  have reached := ((@SharedReached.boot k b (fun w => FlashUse.Safe k b 3 w) (firstSlotMem k)
    true).use (.nv (.reset 0)) (by unfold FlashUse.Safe SeparateOp; decide)).use
    (.ota {} (.startRsp { imageSize := 70 })) (fun no => by cases no)
  exact (sharedFlash_bootable rfl (Or.inr rfl) blank (by decide +kernel) reached).1 (.save 5)
    ⟨by decide, by decide⟩

end TelinkSdk
