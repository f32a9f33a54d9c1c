import TelinkSdk.Ota.NewSlot

/-! One call of `ota_DataProcess` in its two parts: the bytes of the header, and the checked write
of the bytes of the image behind them.
-/

namespace TelinkSdk

open Nor

variable {k : OtaBuild} {s : OtaClient} {payload : Mem} {len datalen i : Nat}

/-- The index of the first byte of the image, and the client at that byte. -/
def otaDataProcess.parsed (len : Nat) (payload : Mem) (s : OtaClient) : Nat × OtaClient :=
  if s.otaState = .staStarting then otaDataProcess.header payload len 0 s else (0, s)

/-- The payload with the keyword masked, as `flash_writeWithCheck` finds it. -/
def otaDataProcess.masked (k : OtaBuild) (payload : Mem) (datalen i : Nat) (s : OtaClient) : Mem :=
  if otaDataProcess.flag k s datalen then
    Function.update payload (i + otaTlnkKeywordAddroffset k - s.flashOffsetAddr) 0xff
  else payload

/-- The payload with the keyword back in place, as `xcrc32` finds it. -/
def otaDataProcess.restored (k : OtaBuild) (payload : Mem) (datalen i : Nat) (s : OtaClient) : Mem :=
  if otaDataProcess.flag k s datalen then
    Function.update payload (i + otaTlnkKeywordAddroffset k - s.flashOffsetAddr) otaKeyword
  else payload

/-- The client behind the bytes of a block, before it has their checksum. -/
def otaDataProcess.counted (datalen : Nat) (s : OtaClient) : OtaClient :=
  { s with otaHeadercnt := (s.otaHeadercnt + datalen) % u32Mod }

/-- The client once the bytes are in the flash. -/
def otaDataProcess.written (k : OtaBuild) (payload : Mem) (datalen i : Nat) (s : OtaClient)
    : OtaClient :=
  { otaDataProcess.counted datalen s with
    flashOffsetAddr := (s.flashOffsetAddr + datalen) % u32Mod
    crcValue := xcrc32
      ((otaDataProcess.restored k payload datalen i s).read i
        (otaDataProcess.crcLen (otaDataProcess.counted datalen s) s.otaHeadercnt datalen))
      s.crcValue }

/-- The command that a block of the image makes of its bytes. -/
def otaDataProcess.command (k : OtaBuild) (payload : Mem) (datalen i : Nat) (s : OtaClient) : Cmd :=
  .program (s.newAddr + s.flashOffsetAddr)
    ((otaDataProcess.masked k payload datalen i s).read i datalen)

theorem otaDataProcess.store_shape
    : otaDataProcess.store k payload datalen i s
      = (flashWriteWithCheck (s.newAddr + s.flashOffsetAddr)
          ((otaDataProcess.masked k payload datalen i s).read i datalen) >>= fun written =>
        if written then pure (otaDataProcess.written k payload datalen i s)
        else Prog.view fun m => otaAbort k m (otaDataProcess.counted datalen s)) := rfl

/-- A block that brings no byte of the image only moves on in the header. -/
theorem otaDataProcess_header
    (none : ¬((otaDataProcess.parsed len payload s).2.otaState = .staDataing ∧ len > 0))
    : otaDataProcess k len payload s = pure (otaDataProcess.parsed len payload s).2 :=
  if_neg none

theorem otaDataProcess_store
    (some : (otaDataProcess.parsed len payload s).2.otaState = .staDataing ∧ len > 0)
    : otaDataProcess k len payload s
      = otaDataProcess.store k payload (len - (otaDataProcess.parsed len payload s).1)
          (otaDataProcess.parsed len payload s).1 (otaDataProcess.parsed len payload s).2 :=
  if_pos some

-----------------------------------------------------------------------------------------
-- The bytes of a block
-----------------------------------------------------------------------------------------

/-- The mask is on the byte of the keyword, and nowhere else in the block. -/
theorem otaDataProcess.masked_byte (small : s.flashOffsetAddr + datalen < u32Mod) {j : Nat}
    (inside : j < datalen)
    : otaDataProcess.masked k payload datalen i s (i + j)
      = if s.flashOffsetAddr + j = otaTlnkKeywordAddroffset k then blankByte
        else payload (i + j) := by
  have whole : (datalen + s.flashOffsetAddr) % u32Mod = datalen + s.flashOffsetAddr :=
    Nat.mod_eq_of_lt (by omega)
  simp only [otaDataProcess.masked, otaDataProcess.flag, whole, Bool.and_eq_true,
    decide_eq_true_eq]
  by_cases keyword : s.flashOffsetAddr + j = otaTlnkKeywordAddroffset k
  · have index : i + otaTlnkKeywordAddroffset k - s.flashOffsetAddr = i + j := by omega
    rw [if_pos keyword, if_pos (by omega), index, Function.update_self]
  · rw [if_neg keyword]
    split
    · rw [Function.update_of_ne (by omega)]
    · rfl

/-- The keyword that is put back is the one that was there. -/
theorem otaDataProcess.restored_byte {j : Nat}
    (keyword : s.flashOffsetAddr + j = otaTlnkKeywordAddroffset k → payload (i + j) = otaKeyword)
    : otaDataProcess.restored k payload datalen i s (i + j) = payload (i + j) := by
  unfold otaDataProcess.restored
  split
  · rename_i covered
    simp only [otaDataProcess.flag, Bool.and_eq_true, decide_eq_true_eq] at covered
    rw [Function.update_apply]
    split
    · rw [keyword (by omega)]
    · rfl
  · rfl

-----------------------------------------------------------------------------------------
-- The header
-----------------------------------------------------------------------------------------

/-- The client one byte of the header further. -/
def OtaClient.advance (s : OtaClient) : OtaClient :=
  { s with otaHeadercnt := (s.otaHeadercnt + 1) % u32Mod }

theorem otaDataProcess.header_field {left : Nat} (starts : otaDataProcess.startsField s = true)
    : otaDataProcess.header payload (left + 1) i s
      = otaDataProcess.header payload left (i + 1) (otaDataProcess.field payload i s).advance :=
  if_pos starts

theorem otaDataProcess.header_ends {left : Nat} (plain : ¬otaDataProcess.startsField s = true)
    (ends : s.otaHeadercnt = s.otaHeadersize ∧ s.otaHeadersize ≠ 0)
    : otaDataProcess.header payload (left + 1) i s = (i, { s with otaState := .staDataing }) := by
  rw [otaDataProcess.header, if_neg plain, if_pos ends]

theorem otaDataProcess.header_skip {left : Nat} (plain : ¬otaDataProcess.startsField s = true)
    (inside : ¬(s.otaHeadercnt = s.otaHeadersize ∧ s.otaHeadersize ≠ 0))
    : otaDataProcess.header payload (left + 1) i s
      = otaDataProcess.header payload left (i + 1) s.advance := by
  rw [otaDataProcess.header, if_neg plain, if_neg inside]
  rfl

/-- The loop over the header stays inside the block, by induction on the bytes left. -/
theorem otaDataProcess.header_index (payload : Mem) (left i : Nat) (s : OtaClient)
    : i ≤ (otaDataProcess.header payload left i s).1
      ∧ (otaDataProcess.header payload left i s).1 ≤ i + left := by
  induction left generalizing i s with
  | zero => exact ⟨Nat.le_refl _, Nat.le_refl _⟩
  | succ left ih =>
      by_cases starts : otaDataProcess.startsField s = true
      · have bounds := ih (i + 1) (otaDataProcess.field payload i s).advance
        rw [otaDataProcess.header_field starts]
        omega
      · by_cases ends : s.otaHeadercnt = s.otaHeadersize ∧ s.otaHeadersize ≠ 0
        · rw [otaDataProcess.header_ends starts ends]
          exact ⟨Nat.le_refl _, Nat.le_add_right _ _⟩
        · have bounds := ih (i + 1) s.advance
          rw [otaDataProcess.header_skip starts ends]
          omega

/-- Behind the header, a block is all image. -/
theorem otaDataProcess.parsed_past (past : s.otaState ≠ .staStarting)
    : otaDataProcess.parsed len payload s = (0, s) :=
  if_neg past

/-- What the header leaves alone: the slot, the position in the image, its checksum, the requests
and the session that the server announced.
-/
structure Kept (s s' : OtaClient) : Prop extends SameSession s s' where
  offset : s'.flashOffsetAddr = s.flashOffsetAddr
  crc : s'.crcValue = s.crcValue
  sent : s'.sent = s.sent

theorem Kept.refl (s : OtaClient) : Kept s s := ⟨⟨rfl, rfl⟩, rfl, rfl, rfl⟩

theorem Kept.trans {s' s'' : OtaClient} (first : Kept s s') (second : Kept s' s'') : Kept s s'' where
  info := second.info.trans first.info
  boot := second.boot.trans first.boot
  offset := second.offset.trans first.offset
  crc := second.crc.trans first.crc
  sent := second.sent.trans first.sent

theorem OtaClient.advance_kept (s : OtaClient) : Kept s s.advance := ⟨⟨rfl, rfl⟩, rfl, rfl, rfl⟩

theorem otaDataProcess.field_kept (payload : Mem) (i : Nat) (s : OtaClient)
    : Kept s (otaDataProcess.field payload i s) := by
  unfold otaDataProcess.field
  split <;> (try split) <;> (try split) <;> (try split) <;>
    exact ⟨⟨rfl, rfl⟩, rfl, rfl, rfl⟩

theorem otaDataProcess.field_state (payload : Mem) (i : Nat) (s : OtaClient)
    : (otaDataProcess.field payload i s).otaState = s.otaState := by
  unfold otaDataProcess.field
  split <;> (try split) <;> (try split) <;> (try split) <;> rfl

/-- So does the loop over the header, by induction on the bytes left. -/
theorem otaDataProcess.header_kept (payload : Mem) (left i : Nat) (s : OtaClient)
    : Kept s (otaDataProcess.header payload left i s).2 := by
  induction left generalizing i s with
  | zero => exact .refl s
  | succ left ih =>
      by_cases starts : otaDataProcess.startsField s = true
      · rw [otaDataProcess.header_field starts]
        exact (otaDataProcess.field_kept payload i s).trans
          ((OtaClient.advance_kept _).trans (ih (i + 1) _))
      · by_cases ends : s.otaHeadercnt = s.otaHeadersize ∧ s.otaHeadersize ≠ 0
        · rw [otaDataProcess.header_ends starts ends]
          exact ⟨⟨rfl, rfl⟩, rfl, rfl, rfl⟩
        · rw [otaDataProcess.header_skip starts ends]
          exact (OtaClient.advance_kept s).trans (ih (i + 1) _)

theorem otaDataProcess.parsed_kept (len : Nat) (payload : Mem) (s : OtaClient)
    : Kept s (otaDataProcess.parsed len payload s).2 := by
  unfold otaDataProcess.parsed
  split
  · exact otaDataProcess.header_kept payload len 0 s
  · exact .refl s

-----------------------------------------------------------------------------------------
-- Failed writes
-----------------------------------------------------------------------------------------

theorem otaDataProcess.header_state (payload : Mem) (left i : Nat) (s : OtaClient)
    : (otaDataProcess.header payload left i s).2.otaState = s.otaState
      ∨ (otaDataProcess.header payload left i s).2.otaState = .staDataing := by
  induction left generalizing i s with
  | zero => exact Or.inl rfl
  | succ left ih =>
      by_cases starts : otaDataProcess.startsField s = true
      · have kept : (otaDataProcess.field payload i s).advance.otaState = s.otaState :=
          otaDataProcess.field_state payload i s
        rw [otaDataProcess.header_field starts, ← kept]
        exact ih (i + 1) (otaDataProcess.field payload i s).advance
      · by_cases ends : s.otaHeadercnt = s.otaHeadersize ∧ s.otaHeadersize ≠ 0
        · rw [otaDataProcess.header_ends starts ends]
          exact Or.inr rfl
        · rw [otaDataProcess.header_skip starts ends]
          exact ih (i + 1) s.advance

/-- A session ends inside `ota_DataProcess` exactly if the write of a block fails. -/
theorem otaDataProcess_idle_iff {env : Env} {d : Dev} (busy : s.otaState ≠ .staIdle)
    : (Prog.run env (otaDataProcess k len payload s) d).1.otaState = .staIdle
      ↔ ((otaDataProcess.parsed len payload s).2.otaState = .staDataing ∧ len > 0)
        ∧ (Prog.run env
            (flashWriteWithCheck
              ((otaDataProcess.parsed len payload s).2.newAddr
                + (otaDataProcess.parsed len payload s).2.flashOffsetAddr)
              ((otaDataProcess.masked k payload (len - (otaDataProcess.parsed len payload s).1)
                  (otaDataProcess.parsed len payload s).1
                  (otaDataProcess.parsed len payload s).2).read
                (otaDataProcess.parsed len payload s).1
                (len - (otaDataProcess.parsed len payload s).1))) d).1 = false := by
  by_cases image : (otaDataProcess.parsed len payload s).2.otaState = .staDataing ∧ len > 0
  · rw [otaDataProcess_store image, otaDataProcess.store_shape, Prog.run_bind]
    split
    · rename_i written
      have going : (otaDataProcess.written k payload (len - (otaDataProcess.parsed len payload s).1)
          (otaDataProcess.parsed len payload s).1
          (otaDataProcess.parsed len payload s).2).otaState = .staDataing := image.1
      rw [Prog.run_pure, going, written]
      simp
    · rename_i failed
      exact ⟨fun _ => ⟨image, Bool.eq_false_iff.mpr failed⟩, fun _ => rfl⟩
  · have state : (otaDataProcess.parsed len payload s).2.otaState ≠ .staIdle := by
      unfold otaDataProcess.parsed
      split
      · rcases otaDataProcess.header_state payload len 0 s with same | reached
        · rwa [same]
        · rw [reached]
          decide
      · exact busy
    rw [otaDataProcess_header image, Prog.run_pure]
    exact ⟨fun idle => absurd idle state, fun failed => absurd failed.1 image⟩

end TelinkSdk
