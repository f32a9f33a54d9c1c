import TelinkSdk.Demo.AssociateCoor
import TelinkSdk.Rotations.RoundRobin

/-! The indirect data of the coordinator, `associate_coor/app.c`. Every association starts a
timer, and each time it fires one of the devices gets a frame. New devices join at any time.
-/

namespace TelinkSdk

open TnList Nor Rotations

variable {σ : Type} [MacSecLib σ] (layout : SecLayout) (lib : TnMemAlloc)

-----------------------------------------------------------------------------------------
-- The traffic
-----------------------------------------------------------------------------------------

/-- The fields of a `zb_mscp_data_req_t` that `mac_send_data_indirect` sets, with its payload. The
others stay zero.
-/
structure IndirectReq where
  dstAddr : UInt16
  dstPanId : UInt16
  txOptions : UInt8
  securityLevel : UInt8
  keyIdMode : UInt8
  keySource : List UInt8
  keyIndex : UInt8
  payload : List UInt8
  deriving DecidableEq, Repr

/-- The application with what its traffic needs: `indirect_device_index`, `test_cnt`, whether
`data_send_indir_timer` is set, and how many tasks the timer has posted that have not run. The
responses and the requests handed to the MAC layer are logged.
-/
structure CoorTraffic (σ : Type) where
  app : CoorApp σ
  indirectDeviceIndex : UInt8 := 0
  testCnt : UInt32 := 0xaa000001
  timer : Bool := false
  posted : Nat := 0
  responses : List AssociateResp := []
  sent : List IndirectReq := []

/-- The end of `MyAssociateIndCb`: a response is sent, and `data_send` sets the timer. -/
def CoorTraffic.respond (s : CoorTraffic σ) (app : CoorApp σ)
    : Option AssociateResp → CoorTraffic σ
  | none => { s with app }
  | some resp => { s with app, responses := s.responses ++ [resp], timer := true }

/-- `MyAssociateIndCb` with `data_send`. -/
def CoorTraffic.associate (s : CoorTraffic σ) (devAddress : ExtAddr) : Option (CoorTraffic σ) :=
  (myAssociateIndCb layout lib s.app devAddress).map (fun called => s.respond called.1 called.2)

/-- `mac_send_data_indirect`. It hangs without a buffer for the payload. -/
def CoorTraffic.macSendDataIndirect (s : CoorTraffic σ) (gotBuffer : Bool)
    : Option (CoorTraffic σ) :=
  if gotBuffer ∧ s.indirectDeviceIndex.toNat < macDevTableMaxLen then
    (attrLoadWord s.app.material.sys macAttrPanId 0).map (fun dstPanId =>
      let req : IndirectReq :=
        {
          dstAddr := (s.app.endDevice s.indirectDeviceIndex.toNat).shortAddr
          dstPanId
          txOptions := 1 ||| 4
          securityLevel := 6
          keyIdMode := 3
          keySource := defaultKeySource
          keyIndex := 0xa5
          payload := bytes32 s.testCnt.toNat
        }
      let index := s.indirectDeviceIndex + 1
      { s with
        sent := s.sent ++ [req]
        testCnt := s.testCnt + 1
        indirectDeviceIndex := if s.app.deviceIndex ≤ index then 0 else index })
  else none

/-- What can happen: a device associates, the timer fires and posts the task, a posted task runs. -/
inductive CoorEvent where
  | associate (devAddress : ExtAddr)
  | timer
  | task (gotBuffer : Bool)

/-- Nothing fires that is not set, and nothing runs that is not posted. -/
def CoorTraffic.step (s : CoorTraffic σ) : CoorEvent → Option (CoorTraffic σ)
  | .associate devAddress => s.associate layout lib devAddress
  | .timer => some (if s.timer then { s with posted := s.posted + 1 } else s)
  | .task gotBuffer =>
      if s.posted = 0 then some s
      else { s with posted := s.posted - 1 }.macSendDataIndirect gotBuffer

def CoorTraffic.run (s : CoorTraffic σ) : List CoorEvent → Option (CoorTraffic σ)
  | [] => some s
  | e :: rest => (s.step layout lib e).bind (fun s => s.run rest)

-----------------------------------------------------------------------------------------
-- Turns
-----------------------------------------------------------------------------------------

/-- A stretch of a run: the frames it has sent went around the devices, whose number never fell
below the one at its start, nor was above the one at its end.
-/
structure Turns {σ : Type} (s s' : CoorTraffic σ) (counts : List Nat) : Prop where
  sent : s'.sent.map (·.dstAddr)
    = s.sent.map (·.dstAddr) ++ (Rotations.served s.indirectDeviceIndex.toNat counts).map shortOf
  cursor : s'.indirectDeviceIndex.toNat = after s.indirectDeviceIndex.toNat counts
  between : ∀ count ∈ counts,
    s.app.deviceIndex.toNat ≤ count ∧ count ≤ s'.app.deviceIndex.toNat
  grows : s.app.deviceIndex.toNat ≤ s'.app.deviceIndex.toNat

theorem Turns.refl {σ : Type} (s : CoorTraffic σ) : Turns s s [] :=
  ⟨by simp [Rotations.served], rfl, by simp, Nat.le_refl _⟩

theorem Turns.trans {σ : Type} {s s' s'' : CoorTraffic σ} {counts counts' : List Nat}
    (first : Turns s s' counts) (second : Turns s' s'' counts')
    : Turns s s'' (counts ++ counts') where
  sent := by
    rw [second.sent, first.sent, first.cursor, Rotations.served_append, List.map_append,
      List.append_assoc]
  cursor := by rw [second.cursor, first.cursor, after_append]
  between := by
    intro count mem
    have early := first.grows
    have late := second.grows
    rcases List.mem_append.mp mem with before | later
    · have bounds := first.between count before
      omega
    · have bounds := second.between count later
      omega
  grows := Nat.le_trans first.grows second.grows

/-- A step that sends nothing and does not move the cursor. -/
theorem Turns.idle {σ : Type} {s s' : CoorTraffic σ} (sent : s'.sent = s.sent)
    (cursor : s'.indirectDeviceIndex = s.indirectDeviceIndex)
    (grows : s.app.deviceIndex.toNat ≤ s'.app.deviceIndex.toNat)
    : Turns s s' [] :=
  ⟨by simp [Rotations.served, sent], by rw [cursor]; rfl, by simp, grows⟩

-----------------------------------------------------------------------------------------
-- Steps
-----------------------------------------------------------------------------------------

variable {layout} {s : CoorTraffic σ} {known : List ExtAddr} {devs : List Nat}
  {keys : List (Nat × Nat)}

/-- The coordinator knows the devices it has answered, and the next frame is for one of them. -/
structure Serving (layout : SecLayout) (s : CoorTraffic σ) (known : List ExtAddr)
    (devs : List Nat) (keys : List (Nat × Nat))
    : Prop where
  knows : Knows layout s.app known devs keys
  cursor : s.indirectDeviceIndex.toNat ≤ known.length - 1
  busy : s.timer = true ∨ 0 < s.posted → known ≠ []
  answered : ∀ resp, resp ∈ s.responses ↔ ∃ i, known[i]? = some resp.devAddress
    ∧ resp.shortAddress = shortOf i
  addressed : ∀ req ∈ s.sent, ∃ resp ∈ s.responses, req.dstAddr = resp.shortAddress
  counted : s.testCnt = 0xaa000001 + UInt32.ofNat s.sent.length
  payloads : s.sent.map (·.payload)
    = (List.range s.sent.length).map (fun i => bytes32 (0xaa000001 + UInt32.ofNat i).toNat)

theorem Serving.addressed_more (serving : Serving layout s known devs keys)
    (more : List AssociateResp)
    : ∀ req ∈ s.sent, ∃ resp ∈ s.responses ++ more, req.dstAddr = resp.shortAddress := by
  intro req mem
  obtain ⟨resp, given, same⟩ := serving.addressed req mem
  exact ⟨resp, List.mem_append_left more given, same⟩

theorem Serving.associate (serving : Serving layout s known devs keys) (x : ExtAddr)
    : ∃ s' known' devs' keys', s.associate layout lib x = some s'
        ∧ Serving layout s' known' devs' keys' ∧ Turns s s' [] := by
  by_cases isKnown : x ∈ known
  · obtain ⟨i, place⟩ := List.mem_iff_getElem?.mp isKnown
    obtain ⟨app', called, knows⟩ := serving.knows.seen lib place
    refine ⟨s.respond app' (some ⟨x, shortOf i⟩), known, devs, keys, ?_, ?_, ?_⟩
    · rw [CoorTraffic.associate, called, Option.map_some]
    · refine ⟨knows, serving.cursor, fun _ => List.ne_nil_of_mem isKnown, fun resp => ?_,
        serving.addressed_more _, serving.counted, serving.payloads⟩
      rw [CoorTraffic.respond, List.mem_append, List.mem_singleton, serving.answered]
      constructor
      · rintro (old | rfl)
        · exact old
        · exact ⟨i, place, rfl⟩
      · exact Or.inl
    · exact .idle rfl rfl (Nat.le_of_eq (serving.knows.index.trans knows.index.symm))
  · rcases Nat.lt_or_ge known.length 16 with room | noRoom
    · obtain ⟨app', dev, p, called, knows⟩ := serving.knows.new lib isKnown room
      refine ⟨s.respond app' (some ⟨x, shortOf known.length⟩), known ++ [x], devs ++ [dev],
        keys ++ [p], ?_, ?_, ?_⟩
      · rw [CoorTraffic.associate, called, Option.map_some]
      · have cursor := serving.cursor
        refine ⟨knows, ?_, fun _ => by simp, fun resp => ?_, serving.addressed_more _,
          serving.counted, serving.payloads⟩
        · rw [List.length_append, List.length_singleton]
          exact Nat.le_trans cursor (by omega)
        · rw [CoorTraffic.respond, List.mem_append, List.mem_singleton, serving.answered]
          constructor
          · rintro (⟨i, place, short⟩ | rfl)
            · have inside := (List.getElem?_eq_some_iff.mp place).1
              exact ⟨i, by rw [List.getElem?_append_left inside, place], short⟩
            · exact ⟨known.length, by simp, rfl⟩
          · rintro ⟨i, place, short⟩
            rcases getElem?_snoc place with old | ⟨rfl, new⟩
            · exact Or.inl ⟨i, old, short⟩
            · right
              obtain ⟨devAddress, shortAddress⟩ := resp
              subst new short
              rfl
      · refine .idle rfl rfl ?_
        change s.app.deviceIndex.toNat ≤ app'.deviceIndex.toNat
        rw [serving.knows.index, knows.index, List.length_append]
        omega
    · have isFull : known.length = 16 := Nat.le_antisymm serving.knows.bound noRoom
      have called := serving.knows.full lib isKnown isFull
      refine ⟨s.respond { s.app with deviceExtAddr := x } none, known, devs, keys, ?_, ?_, ?_⟩
      · rw [CoorTraffic.associate, called, Option.map_some]
      · exact ⟨serving.knows.setExtAddr x, serving.cursor, serving.busy, serving.answered,
          serving.addressed, serving.counted, serving.payloads⟩
      · exact .idle rfl rfl (Nat.le_refl _)

/-- The cursor of the code is the one of a round robin. -/
theorem cursor_next {index count : UInt8} (small : index.toNat < 255)
    : (if count ≤ index + 1 then 0 else index + 1).toNat = next index.toNat count.toNat := by
  have step : (index + 1).toNat = index.toNat + 1 := by
    rw [UInt8.toNat_add]
    exact Nat.mod_eq_of_lt (by simpa using Nat.succ_lt_succ small)
  unfold next
  split
  case isTrue wraps =>
      rw [UInt8.le_iff_toNat_le, step] at wraps
      rw [if_neg (by omega)]
      rfl
  case isFalse moves =>
      rw [UInt8.le_iff_toNat_le, step] at moves
      rw [if_pos (by omega), step]

/-- A posted task sends one frame, to the device under the cursor. -/
theorem Serving.send (serving : Serving layout s known devs keys) (used : known ≠ [])
    : ∃ s', s.macSendDataIndirect true = some s' ∧ Serving layout s' known devs keys
        ∧ Turns s s' [s.app.deviceIndex.toNat] := by
  have count := serving.knows.index
  have bound := serving.knows.bound
  have positive : 0 < known.length := List.length_pos_iff.mpr used
  have cursor := serving.cursor
  have inside : s.indirectDeviceIndex.toNat < known.length := by omega
  obtain ⟨dstPanId, word⟩ := attrLoadWord_some s.app.material.sys macAttrPanId (by decide) 0
  have device := (serving.knows.endDevice _ _ (List.getElem?_eq_getElem inside)).2
  have moved := @cursor_next s.indirectDeviceIndex s.app.deviceIndex (by omega)
  have room : true ∧ s.indirectDeviceIndex.toNat < macDevTableMaxLen :=
    ⟨rfl, Nat.lt_of_lt_of_le inside bound⟩
  refine ⟨_, by rw [CoorTraffic.macSendDataIndirect, if_pos room, word, Option.map_some], ?_, ?_⟩
  · refine ⟨serving.knows, ?_, serving.busy, serving.answered, ?_, ?_, ?_⟩
    · simp only [moved, count]
      have turn := @next_lt s.indirectDeviceIndex.toNat known.length positive
      omega
    · intro req mem
      rcases List.mem_append.mp mem with old | new
      · exact serving.addressed req old
      · rw [List.mem_singleton.mp new]
        refine ⟨⟨known[s.indirectDeviceIndex.toNat], shortOf s.indirectDeviceIndex.toNat⟩, ?_,
          device⟩
        exact (serving.answered _).mpr ⟨_, List.getElem?_eq_getElem inside, rfl⟩
    · simp only [serving.counted, List.length_append, List.length_singleton, UInt32.ofNat_add]
      rw [UInt32.add_assoc]
      rfl
    · simp only [List.map_append, List.length_append, List.length_singleton, List.range_succ,
        serving.payloads, List.map_singleton, serving.counted]
  · refine ⟨?_, moved, ?_, Nat.le_refl _⟩
    · simp only [List.map_append, List.map_singleton, Rotations.served, device]
    · intro turn mem
      rw [List.mem_singleton.mp mem]
      exact ⟨Nat.le_refl _, Nat.le_refl _⟩

/-- What one event does. -/
theorem Serving.step (serving : Serving layout s known devs keys) {e : CoorEvent}
    (supplied : e ≠ .task false)
    : ∃ s' known' devs' keys' counts, s.step layout lib e = some s'
        ∧ Serving layout s' known' devs' keys' ∧ Turns s s' counts := by
  cases e with
  | associate x =>
      obtain ⟨s', known', devs', keys', called, serving', turns⟩ := serving.associate lib x
      exact ⟨s', known', devs', keys', [], called, serving', turns⟩
  | timer =>
      by_cases set : s.timer = true
      · refine ⟨{ s with posted := s.posted + 1 }, known, devs, keys, [],
          by rw [CoorTraffic.step, if_pos set], ?_, .idle rfl rfl (Nat.le_refl _)⟩
        exact ⟨serving.knows, serving.cursor, fun _ => serving.busy (.inl set),
          serving.answered, serving.addressed, serving.counted, serving.payloads⟩
      · exact ⟨s, known, devs, keys, [], by rw [CoorTraffic.step, if_neg set], serving, .refl s⟩
  | task gotBuffer =>
      by_cases none : s.posted = 0
      · exact ⟨s, known, devs, keys, [], by rw [CoorTraffic.step, if_pos none], serving, .refl s⟩
      · have got : gotBuffer = true := by
          cases gotBuffer with
          | true => rfl
          | false => exact absurd rfl supplied
        have used := serving.busy (.inr (Nat.pos_of_ne_zero none))
        have taken : Serving layout { s with posted := s.posted - 1 } known devs keys :=
          ⟨serving.knows, serving.cursor, fun _ => used, serving.answered, serving.addressed,
            serving.counted, serving.payloads⟩
        obtain ⟨s', sent, serving', turns⟩ := taken.send used
        refine ⟨s', known, devs, keys, [s.app.deviceIndex.toNat], ?_, serving', ?_⟩
        · rw [CoorTraffic.step, if_neg none, got, sent]
        · exact ⟨turns.sent, turns.cursor, turns.between, turns.grows⟩

/-- What a run does, by induction on its events. -/
theorem Serving.run (serving : Serving layout s known devs keys) {events : List CoorEvent}
    (supplied : ∀ e ∈ events, e ≠ .task false)
    : ∃ s' known' devs' keys' counts, s.run layout lib events = some s'
        ∧ Serving layout s' known' devs' keys' ∧ Turns s s' counts := by
  induction events generalizing s known devs keys with
  | nil => exact ⟨s, known, devs, keys, [], rfl, serving, .refl s⟩
  | cons e rest ih =>
      obtain ⟨s₁, known₁, devs₁, keys₁, counts₁, step, serving₁, turns₁⟩ :=
        serving.step lib (supplied e List.mem_cons_self)
      obtain ⟨s₂, known₂, devs₂, keys₂, counts₂, run, serving₂, turns₂⟩ :=
        ih serving₁ (fun later mem => supplied later (List.mem_cons_of_mem e mem))
      refine ⟨s₂, known₂, devs₂, keys₂, counts₁ ++ counts₂, ?_, serving₂, turns₁.trans turns₂⟩
      rw [CoorTraffic.run, step, Option.bind_some, run]

-----------------------------------------------------------------------------------------
-- From boot
-----------------------------------------------------------------------------------------

/-- `coor_config` and the events of a run. -/
def coorTraffic (layout : SecLayout) (lib : TnMemAlloc) (app : CoorApp σ)
    (events : List CoorEvent)
    : Option (CoorTraffic σ) :=
  (coorConfig layout lib app).bind (fun app => CoorTraffic.run layout lib { app } events)

/-- In every run of associations, timers and tasks the frames carry consecutive counters and go to
devices that were answered, and no device waits for longer than a turn over all of them: in a
stretch with as many frames as there are devices at its end, each device that was answered before
it gets one, whoever joins or comes back meanwhile.
-/
theorem coorTraffic_fair (layout : SecLayout) (lib : TnMemAlloc) (boot : MacSys σ)
    (noItems : TnList.Holds boot.lists (fun _ => [])) (noEntries : ∀ table, boot.entries table = 0)
    (noFrees : boot.freed = []) (noStray : boot.strayFrees = []) (app : CoorApp σ)
    (initialised : app.material.sys = macSecMaterialInit layout boot true)
    (index : app.deviceIndex = 0) (short : app.deviceAddrShort = 0x3300)
    (before stretch : List CoorEvent) (supplied : ∀ e ∈ before ++ stretch, e ≠ .task false)
    : ∃ s s', coorTraffic layout lib app before = some s ∧ s.run layout lib stretch = some s'
      ∧ s'.sent.map (·.payload)
        = (List.range s'.sent.length).map (fun i => bytes32 (0xaa000001 + UInt32.ofNat i).toNat)
      ∧ (∀ req ∈ s'.sent, ∃ resp ∈ s'.responses, req.dstAddr = resp.shortAddress)
      ∧ ∃ frames, s'.sent.map (·.dstAddr) = s.sent.map (·.dstAddr) ++ frames
        ∧ (s'.app.deviceIndex.toNat ≤ frames.length
          → ∀ resp ∈ s.responses, resp.shortAddress ∈ frames) := by
  have reset := macSecMaterialInit_reset layout boot noItems noEntries noFrees noStray
  rw [← initialised] at reset
  obtain ⟨ready, config, knows⟩ := coorConfig_knows lib reset index short
  have start : Serving layout { app := ready } [] [] [] :=
    ⟨knows, Nat.le_refl _, fun busy => by simp at busy, fun resp => by simp, by simp, rfl, rfl⟩
  obtain ⟨s, known, devs, keys, counts, run, serving, turns⟩ :=
    start.run lib (fun e mem => supplied e (List.mem_append_left _ mem))
  obtain ⟨s', known', devs', keys', counts', run', serving', turns'⟩ :=
    serving.run lib (fun e mem => supplied e (List.mem_append_right _ mem))
  refine ⟨s, s', ?_, run', serving'.payloads, serving'.addressed, _, turns'.sent, ?_⟩
  · rw [coorTraffic, config, Option.bind_some, run]
  · intro long resp given
    rw [List.length_map, served_length] at long
    obtain ⟨i, place, short⟩ := (serving.answered resp).mp given
    have inside := (List.getElem?_eq_some_iff.mp place).1
    have count := serving.knows.index
    have cursor := serving.cursor
    have grows := turns'.grows
    rw [short]
    refine List.mem_map_of_mem (mem_served ?_ ?_ (fun n mem => (turns'.between n mem).2) long)
    · omega
    · intro n mem
      have bounds := turns'.between n mem
      omega

/-- A device joins and gets a frame; then another one joins, and both get one. -/
theorem coorTraffic_fair_join
    : let before : List CoorEvent := [.associate (Vector.replicate 8 1), .timer, .task true]
      let stretch : List CoorEvent :=
        [.associate (Vector.replicate 8 2), .timer, .timer, .task true, .task true]
      ∃ s s', coorTraffic SecLayout.paged .firstFree CoorApp.boot before = some s
        ∧ s.run SecLayout.paged .firstFree stretch = some s'
        ∧ ∃ frames, s'.sent.map (·.dstAddr) = s.sent.map (·.dstAddr) ++ frames
          ∧ (s'.app.deviceIndex.toNat ≤ frames.length
            → ∀ resp ∈ s.responses, resp.shortAddress ∈ frames) := by
  intro before stretch
  have supplied : ∀ e ∈ before ++ stretch, e ≠ .task false := by
    simp only [before, stretch, List.cons_append, List.nil_append, List.forall_mem_cons]
    simp
  obtain ⟨s, s', first, second, -, -, fair⟩ := coorTraffic_fair SecLayout.paged .firstFree
    MacSys.boot MacSys.boot_holds (by intro table; rfl) rfl rfl CoorApp.boot rfl rfl rfl before
    stretch supplied
  exact ⟨s, s', first, second, fair⟩

end TelinkSdk
