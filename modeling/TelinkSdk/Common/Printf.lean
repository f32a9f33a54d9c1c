import Mathlib.Data.Nat.Digits.Defs
import Mathlib.Logic.Function.Basic

/-! The formatted output of `tlPrintf.c` over the software UART of `drv_putchar.c`. What the other
end of the line reads is the text that the format and its arguments stand for.
-/

namespace TelinkSdk.Printf

-----------------------------------------------------------------------------------------
-- The output
-----------------------------------------------------------------------------------------

/-- `re`, the digits. -/
def re : List UInt8 := (List.range' 48 10 ++ List.range' 65 6).map .ofNat

/-- The loop of `put_s`, inside a buffer with so many bytes left. -/
def putS (buf : Nat → UInt8) : Nat → Nat → Option (List UInt8)
  | 0, _ => none
  | left + 1, s =>
      if buf s = 0 then some [] else (putS buf left (s + 1)).map (buf s :: ·)

/-- The loop of `puti`, below the place `addr`. There is no result when it leaves the buffer. -/
def puti.loop (base : UInt32) : Nat → UInt32 → (Nat → UInt8) → Option (Nat × (Nat → UInt8))
  | 0, _, _ => none
  | addr + 1, num, buf =>
      let buf := Function.update buf addr (re.getD (num % base).toNat 0)
      let num := num / base
      if num ≠ 0 then puti.loop base addr num buf else some (addr, buf)

/-- `puti`, with what the stack holds where its buffer of fifty characters is. -/
def puti (stack : Nat → UInt8) (num base : UInt32) : Option (List UInt8) :=
  (puti.loop base 49 num (Function.update stack 49 0)).bind fun (addr, buf) =>
    putS buf (50 - addr) addr

abbrev decimalOutput : UInt32 := 10
abbrev octalOutput : UInt32 := 8
abbrev hexOutput : UInt32 := 16

/-- What `va_arg` finds: a word, or a pointer to a string. -/
inductive Arg
  | word (j : UInt32)
  | string (s : List UInt8)

/-- `puti(m, DECIMAL_OUTPUT)` behind the sign. Negation wraps for the least number. -/
def putd (stack : Nat → UInt8) (m : Int32) : Option (List UInt8) :=
  if m < 0 then (puti stack (-m).toUInt32 decimalOutput).map (45 :: ·)
  else puti stack m.toUInt32 decimalOutput

/-- One conversion of `Tl_printf`, with the arguments that are left. There is no result when the
arguments do not go with the format.
-/
def conversion (stack : Nat → UInt8) (span : UInt8) (args : List Arg)
    : Option (List UInt8 × List Arg) :=
  if span = 99 then
    match args with
    | .word j :: args => some ([j.toUInt8], args)
    | _ => none
  else if span = 100 then
    match args with
    | .word m :: args => (putd stack m.toInt32).map (·, args)
    | _ => none
  else if span = 115 then
    match args with
    | .string s :: args => some (s, args)
    | _ => none
  else if span = 111 then
    match args with
    | .word j :: args => (puti stack j octalOutput).map (·, args)
    | _ => none
  else if span = 120 then
    match args with
    | .word j :: args => (puti stack j hexOutput).map (·, args)
    | _ => none
  else some ([span], args)

/-- `Tl_printf`, with the characters that it hands to `drv_putchar`. The end of the format stands
for its terminator.
-/
def tlPrintf (stack : Nat → UInt8) : List UInt8 → List Arg → Option (List UInt8)
  | [], _ => some []
  | [span], _ => some (if span ≠ 37 then [span] else [])
  | span :: next :: format, args =>
      if span ≠ 37 then (tlPrintf stack (next :: format) args).map (span :: ·)
      else
        (conversion stack next args).bind fun (chars, args) =>
          (tlPrintf stack format args).map (chars ++ ·)

/-- `soft_uart_putc`: the values that the output register takes, one for each bit interval. -/
def softUartPutc (pin reg byte : UInt8) : List UInt8 :=
  let tmpBit0 := reg &&& ~~~pin
  let tmpBit1 := reg ||| pin
  [tmpBit0]
    ++ (List.range 8).map (fun i =>
      if (byte >>> .ofNat i) &&& 1 ≠ 0 then tmpBit1 else tmpBit0)
    ++ [tmpBit1]

/-- One character after another, each from the value that the one before has left. -/
def softUartPuts (pin : UInt8) : UInt8 → List UInt8 → List UInt8
  | _, [] => []
  | reg, byte :: rest =>
      softUartPutc pin reg byte
        ++ softUartPuts pin ((softUartPutc pin reg byte).getLastD reg) rest

-----------------------------------------------------------------------------------------
-- What it is for
-----------------------------------------------------------------------------------------

/-- A number in a base. -/
def numeral (base n : Nat) : List UInt8 :=
  if n = 0 then [re.getD 0 0] else (Nat.digits base n).reverse.map fun d => re.getD d 0

/-- A decimal number with its sign. -/
def signed (m : Int) : List UInt8 :=
  if m < 0 then 45 :: numeral 10 m.natAbs else numeral 10 m.natAbs

/-- The conversions. -/
inductive Conversion
  | char
  | decimal
  | string
  | octal
  | hex

def Conversion.of (span : UInt8) : Option Conversion :=
  if span = 99 then some .char
  else if span = 100 then some .decimal
  else if span = 115 then some .string
  else if span = 111 then some .octal
  else if span = 120 then some .hex
  else none

/-- What a conversion makes of its argument. -/
def Conversion.write : Conversion → Arg → Option (List UInt8)
  | .char, .word j => some [j.toUInt8]
  | .decimal, .word m => some (signed m.toInt32.toInt)
  | .string, .string s => some s
  | .octal, .word j => some (numeral 8 j.toNat)
  | .hex, .word j => some (numeral 16 j.toNat)
  | .string, .word _ | .char, .string _ | .decimal, .string _ | .octal, .string _
  | .hex, .string _ => none

/-- The text of a format: plain characters, and what the conversions make of the arguments. -/
def text : List UInt8 → List Arg → Option (List UInt8)
  | [], _ => some []
  | [span], _ => some (if span = 37 then [] else [span])
  | span :: next :: format, args =>
      if span = 37 then
        match Conversion.of next, args with
        | none, args => (text format args).map (next :: ·)
        | some _, [] => none
        | some conversion, arg :: args =>
            (conversion.write arg).bind fun chars => (text format args).map (chars ++ ·)
      else (text (next :: format) args).map (span :: ·)

/-- The value of a digit. -/
def digitValue (c : UInt8) : Nat := re.idxOf c

/-- A number read back. -/
def readNumeral (base : Nat) (chars : List UInt8) : Nat :=
  chars.foldl (fun n c => n * base + digitValue c) 0

def readSigned (chars : List UInt8) : Int :=
  match chars with
  | 45 :: chars => -(readNumeral 10 chars)
  | chars => readNumeral 10 chars

/-- The other end of the line: a start bit that is low, the bits from the lowest one, and a stop bit
that is high.
-/
def hostReads : List Bool → Option (List UInt8)
  | [] => some []
  | false :: b0 :: b1 :: b2 :: b3 :: b4 :: b5 :: b6 :: b7 :: true :: rest =>
      (hostReads rest).map
        (.ofNat ([b7, b6, b5, b4, b3, b2, b1, b0].foldl (fun n b => 2 * n + b.toNat) 0) :: ·)
  | _ => none

/-- The levels of the line while the register takes the values. -/
def levels (pin : UInt8) (values : List UInt8) : List Bool := values.map fun v => v &&& pin ≠ 0

-----------------------------------------------------------------------------------------
-- Numbers
-----------------------------------------------------------------------------------------

/-- The last digit comes off the end. -/
theorem numeral_eq {base : Nat} (one_lt : 1 < base) (n : Nat)
    : numeral base n
      = (if n / base = 0 then [] else numeral base (n / base)) ++ [re.getD (n % base) 0] := by
  rcases Nat.eq_zero_or_pos n with rfl | pos
  · simp [numeral]
  · have digits := Nat.digits_def' one_lt pos
    rw [numeral, if_neg (Nat.ne_of_gt pos), digits, List.reverse_cons, List.map_append]
    split_ifs with small
    · rw [small, Nat.digits_zero]
      rfl
    · rw [numeral, if_neg small]
      rfl

theorem numeral_length_pos (base n : Nat) : 0 < (numeral base n).length := by
  rw [numeral]
  split_ifs with zero
  · exact Nat.one_pos
  · rw [List.length_map, List.length_reverse]
    exact List.length_pos_iff.mpr (Nat.digits_ne_nil_iff_ne_zero.mpr zero)

/-- A number below a power of the base has as many digits as the power at most. -/
theorem numeral_length_le {base : Nat} (one_lt : 1 < base) (k : Nat) (n : Nat)
    (small : n < base ^ (k + 1))
    : (numeral base n).length ≤ k + 1 := by
  induction k generalizing n with
  | zero =>
      rw [numeral_eq one_lt, if_pos (Nat.div_eq_of_lt (by simpa using small))]
      exact Nat.le_refl 1
  | succ k ih =>
      rw [numeral_eq one_lt, List.length_append]
      split_ifs
      · simp
      · have shorter := ih (n / base) (Nat.div_lt_of_lt_mul (by rwa [Nat.pow_succ'] at small))
        simpa using shorter

/-- The digits have their values. -/
theorem re_digits : ∀ d < 16, re.getD d 0 ∈ re ∧ digitValue (re.getD d 0) = d := by decide

/-- No digit is a terminator or a sign. -/
theorem re_ne : ∀ c ∈ re, c ≠ 0 ∧ c ≠ 45 := by
  have checked : re.all (fun c => c != 0 && c != 45) = true := by decide
  simpa only [List.all_eq_true, Bool.and_eq_true, bne_iff_ne] using checked

theorem numeral_mem_re {base : Nat} (one_lt : 1 < base) (hex : base ≤ 16) (n : Nat)
    : ∀ c ∈ numeral base n, c ∈ re := by
  induction n using Nat.strongRecOn with
  | ind n ih =>
      rw [numeral_eq one_lt]
      intro c mem
      rcases List.mem_append.mp mem with before | last
      · split_ifs at before with small
        · cases before
        · have smaller : n / base < n :=
            Nat.div_lt_self (Nat.pos_of_ne_zero fun zero => small (by simp [zero])) one_lt
          exact ih _ smaller c before
      · rw [List.mem_singleton.mp last]
        have digit : n % base < 16 := (Nat.mod_lt n (by omega)).trans_le hex
        exact (re_digits _ digit).1

/-- A number is read back. -/
theorem readNumeral_numeral {base : Nat} (one_lt : 1 < base) (hex : base ≤ 16) (n : Nat)
    : readNumeral base (numeral base n) = n := by
  induction n using Nat.strongRecOn with
  | ind n ih =>
      have digit : n % base < 16 := (Nat.mod_lt n (by omega)).trans_le hex
      rw [numeral_eq one_lt, readNumeral, List.foldl_append, List.foldl_cons, List.foldl_nil,
        (re_digits _ digit).2]
      split_ifs with small
      · have below := Nat.div_add_mod n base
        rw [small] at below
        simpa using below
      · have smaller : n / base < n :=
          Nat.div_lt_self (Nat.pos_of_ne_zero fun zero => small (by simp [zero])) one_lt
        have before := ih _ smaller
        rw [readNumeral] at before
        rw [before, Nat.mul_comm]
        exact Nat.div_add_mod n base

-----------------------------------------------------------------------------------------
-- The buffer
-----------------------------------------------------------------------------------------

/-- The characters stand in the buffer from a place on. -/
def Stands (buf : Nat → UInt8) (addr : Nat) (chars : List UInt8) : Prop :=
  ∀ i, (inside : i < chars.length) → buf (addr + i) = chars[i]

theorem Stands.append {buf : Nat → UInt8} {addr : Nat} {chars : List UInt8}
    (stands : Stands buf addr chars) {c : UInt8} (last : buf (addr + chars.length) = c)
    : Stands buf addr (chars ++ [c]) := by
  intro i inside
  rw [List.length_append, List.length_singleton] at inside
  rcases Nat.lt_or_ge i chars.length with before | behind
  · rw [List.getElem_append_left before]
    exact stands i before
  · obtain rfl : i = chars.length := by omega
    rw [last, List.getElem_append_right (Nat.le_refl _)]
    simp

/-- The string that stands in the buffer before its terminator is put out. -/
theorem putS_stands {buf : Nat → UInt8} {addr : Nat} {chars : List UInt8}
    (stands : Stands buf addr chars) (terminated : buf (addr + chars.length) = 0)
    (no_zero : ∀ c ∈ chars, c ≠ 0)
    : putS buf (chars.length + 1) addr = some chars := by
  induction chars generalizing addr with
  | nil => exact if_pos terminated
  | cons c rest ih =>
      have first : buf addr = c := stands 0 (Nat.succ_pos _)
      have later : Stands buf (addr + 1) rest := by
        intro i inside
        have here := stands (i + 1) (Nat.succ_lt_succ inside)
        rwa [Nat.add_left_comm, Nat.add_comm] at here
      have ends : buf (addr + 1 + rest.length) = 0 := by
        rwa [List.length_cons, ← Nat.add_assoc, Nat.add_right_comm] at terminated
      rw [List.length_cons, putS, first, if_neg (no_zero c List.mem_cons_self),
        ih later ends fun c mem => no_zero c (List.mem_cons_of_mem _ mem)]
      rfl

/-- The loop writes the digits before the place, when they fit. By induction on the place. -/
theorem puti.loop_stands {base : UInt32} (one_lt : 1 < base.toNat) (addr : Nat) (num : UInt32)
    (buf : Nat → UInt8) (fits : (numeral base.toNat num.toNat).length ≤ addr)
    : ∃ start buf', puti.loop base addr num buf = some (start, buf')
      ∧ start + (numeral base.toNat num.toNat).length = addr
      ∧ Stands buf' start (numeral base.toNat num.toNat)
      ∧ ∀ k, addr ≤ k → buf' k = buf k := by
  induction addr generalizing num buf with
  | zero => exact absurd fits (Nat.not_le_of_gt (numeral_length_pos _ _))
  | succ addr ih =>
      have digit : (num % base).toNat = num.toNat % base.toNat := UInt32.toNat_mod ..
      have rest : (num / base).toNat = num.toNat / base.toNat := UInt32.toNat_div ..
      have zero_iff : num / base = 0 ↔ num.toNat / base.toNat = 0 := by
        rw [← rest, ← UInt32.toNat_inj]
        rfl
      rw [puti.loop, numeral_eq one_lt, digit]
      rw [numeral_eq one_lt] at fits
      by_cases small : num / base = 0
      · have small' := zero_iff.mp small
        rw [if_neg (not_not_intro small), if_pos small']
        refine ⟨addr, _, rfl, rfl, ?_, fun k behind => Function.update_of_ne (by omega) _ _⟩
        intro i inside
        obtain rfl : i = 0 := by simpa using inside
        exact Function.update_self ..
      · have small' := zero_iff.not.mp small
        rw [if_pos small, if_neg small', ← rest]
        rw [if_neg small', ← rest, List.length_append, List.length_singleton] at fits
        obtain ⟨start, buf', result, place, stands, behind⟩ :=
          ih (num / base) (Function.update buf addr (re.getD (num.toNat % base.toNat) 0))
            (Nat.le_of_succ_le_succ fits)
        refine ⟨start, buf', result, ?_, stands.append ?_, fun k after => ?_⟩
        · rw [List.length_append, List.length_singleton, ← Nat.add_assoc, place]
        · rw [place, behind addr (Nat.le_refl addr), Function.update_self]
        · rw [behind k (by omega), Function.update_of_ne (by omega)]

/-- Fifty characters are enough for every number, and the number is put out. -/
theorem puti_eq (stack : Nat → UInt8) (num : UInt32) {base : UInt32} (eight : 8 ≤ base.toNat)
    (hex : base.toNat ≤ 16)
    : puti stack num base = some (numeral base.toNat num.toNat) := by
  have one_lt : 1 < base.toNat := by omega
  have short : (numeral base.toNat num.toNat).length ≤ 11 := by
    refine numeral_length_le one_lt 10 _ (num.toNat_lt.trans ?_)
    exact lt_of_lt_of_le (by decide) (Nat.pow_le_pow_left eight 11)
  obtain ⟨start, buf', result, place, stands, behind⟩ :=
    puti.loop_stands one_lt 49 num (Function.update stack 49 0) (by omega)
  have terminated : buf' (start + (numeral base.toNat num.toNat).length) = 0 := by
    rw [place, behind 49 (Nat.le_refl 49), Function.update_self]
  have left : 50 - start = (numeral base.toNat num.toNat).length + 1 := by omega
  have put := putS_stands stands terminated fun c mem =>
    (re_ne c (numeral_mem_re one_lt hex _ c mem)).1
  rw [← left] at put
  rw [puti, result]
  exact put

/-- The sign and the number behind it, for the least number too. -/
theorem putd_eq (stack : Nat → UInt8) (m : Int32) : putd stack m = some (signed m.toInt) := by
  have decimal : decimalOutput.toNat = 10 := rfl
  have bound := m.toUInt32.toNat_lt
  have value : m.toInt = if 2 * m.toUInt32.toNat < 4294967296 then (m.toUInt32.toNat : Int)
      else (m.toUInt32.toNat : Int) - 4294967296 := BitVec.toInt_eq_toNat_cond m.toBitVec
  have negated : (-m).toUInt32.toNat = (4294967296 - m.toUInt32.toNat) % 4294967296 :=
    BitVec.toNat_neg m.toBitVec
  have sign : m < 0 ↔ m.toInt < 0 := Int32.lt_iff_toInt_lt
  rw [putd, signed]
  by_cases negative : m < 0
  · have below := sign.mp negative
    rw [if_pos negative, if_pos below, puti_eq stack _ (by decide) (by decide), decimal]
    have magnitude : (-m).toUInt32.toNat = m.toInt.natAbs := by
      split_ifs at value <;> omega
    rw [magnitude]
    rfl
  · have above := sign.not.mp negative
    rw [if_neg negative, if_neg above, puti_eq stack _ (by decide) (by decide), decimal]
    have magnitude : m.toUInt32.toNat = m.toInt.natAbs := by
      split_ifs at value <;> omega
    rw [magnitude]

/-- A signed number is read back. -/
theorem readSigned_signed (m : Int) : readSigned (signed m) = m := by
  have digits : readNumeral 10 (numeral 10 m.natAbs) = m.natAbs :=
    readNumeral_numeral (by decide) (by decide) _
  rw [signed]
  split_ifs with negative
  · rw [readSigned, digits]
    omega
  · rw [readSigned]
    · rw [digits]
      omega
    · intro rest same
      have sign : 45 ∈ numeral 10 m.natAbs := same ▸ List.mem_cons_self
      exact (re_ne 45 (numeral_mem_re (by decide) (by decide) _ 45 sign)).2 rfl

-----------------------------------------------------------------------------------------
-- The format
-----------------------------------------------------------------------------------------

/-- A conversion takes one argument, when it takes one at all. -/
theorem conversion_eq (stack : Nat → UInt8) (span : UInt8) (args : List Arg)
    : conversion stack span args
      = match Conversion.of span, args with
        | none, args => some ([span], args)
        | some _, [] => none
        | some conversion, arg :: args => (conversion.write arg).map (·, args) := by
  have octal (j : UInt32) : puti stack j octalOutput = some (numeral 8 j.toNat) :=
    puti_eq stack j (by decide) (by decide)
  have hex (j : UInt32) : puti stack j hexOutput = some (numeral 16 j.toNat) :=
    puti_eq stack j (by decide) (by decide)
  simp only [conversion, Conversion.of]
  split_ifs <;> rcases args with _ | ⟨_ | _, args⟩
    <;> simp [Conversion.write, putd_eq, octal, hex]

/-- The characters of `Tl_printf` are the text of the format. By induction over the format, two
characters at a time when the first is a percent sign.
-/
theorem tlPrintf_eq (stack : Nat → UInt8) (format : List UInt8) (args : List Arg)
    : tlPrintf stack format args = text format args := by
  fun_induction text format args with
  | case1 => rfl
  | case2 args span => simp [tlPrintf]
  | case3 next format args plain ih =>
      simp [tlPrintf, conversion_eq, plain, ih]
  | case4 next format conversion convert =>
      simp [tlPrintf, conversion_eq, convert]
  | case5 next format conversion arg args convert ih =>
      simp only [tlPrintf, conversion_eq, convert, ne_eq, not_true_eq_false, if_false,
        Option.bind_map, Function.comp_def, ih]
  | case6 span next format args plain ih =>
      simp only [tlPrintf, ne_eq, plain, not_false_eq_true, if_true, ih]

-----------------------------------------------------------------------------------------
-- The line
-----------------------------------------------------------------------------------------

theorem low_level (pin reg : UInt8) : (reg &&& ~~~pin) &&& pin = 0 := by
  apply UInt8.eq_of_toBitVec_eq
  apply BitVec.eq_of_getLsbD_eq
  intro i inside
  simp [Bool.and_assoc]

theorem high_level (pin reg : UInt8) : (reg ||| pin) &&& pin = pin := by
  apply UInt8.eq_of_toBitVec_eq
  apply BitVec.eq_of_getLsbD_eq
  intro i inside
  simp only [UInt8.toBitVec_and, UInt8.toBitVec_or, BitVec.getLsbD_and, BitVec.getLsbD_or]
  cases reg.toBitVec.getLsbD i <;> simp

theorem low_others (pin reg : UInt8) : (reg &&& ~~~pin) &&& ~~~pin = reg &&& ~~~pin := by
  apply UInt8.eq_of_toBitVec_eq
  apply BitVec.eq_of_getLsbD_eq
  intro i inside
  simp

theorem high_others (pin reg : UInt8) : (reg ||| pin) &&& ~~~pin = reg &&& ~~~pin := by
  apply UInt8.eq_of_toBitVec_eq
  apply BitVec.eq_of_getLsbD_eq
  intro i inside
  simp only [UInt8.toBitVec_and, UInt8.toBitVec_or, UInt8.toBitVec_not, BitVec.getLsbD_and,
    BitVec.getLsbD_or, BitVec.getLsbD_not, inside, decide_true, Bool.true_and]
  cases reg.toBitVec.getLsbD i <;> cases pin.toBitVec.getLsbD i <;> rfl

/-- The bits of a character, from the lowest one. -/
def bitsOf (byte : UInt8) : List Bool := (List.range 8).map fun i => (byte >>> .ofNat i) &&& 1 ≠ 0

/-- The bits make up the character, for all of them. -/
theorem foldl_bitsOf (byte : UInt8)
    : UInt8.ofNat ((bitsOf byte).reverse.foldl (fun n b => 2 * n + b.toNat) 0) = byte := by
  have all : ∀ byte : Fin 256,
      UInt8.ofNat ((bitsOf (.ofNat byte)).reverse.foldl (fun n b => 2 * n + b.toNat) 0)
        = .ofNat byte := by
    decide +kernel
  have here := all ⟨byte.toNat, byte.toNat_lt⟩
  simpa using here

/-- The frame of a character. -/
theorem levels_softUartPutc {pin : UInt8} (wired : pin ≠ 0) (reg byte : UInt8)
    : levels pin (softUartPutc pin reg byte) = false :: bitsOf byte ++ [true] := by
  have low : decide ((reg &&& ~~~pin) &&& pin ≠ 0) = false := by simp [low_level]
  have high : decide ((reg ||| pin) &&& pin ≠ 0) = true := by simp [high_level, wired]
  simp only [levels, softUartPutc, List.map_append, List.map_cons, List.map_nil, low, high,
    List.map_map, bitsOf, List.cons_append, List.nil_append]
  congr 2
  refine List.map_congr_left fun i _ => ?_
  simp only [Function.comp_apply]
  split_ifs with bit
  · rw [high, decide_eq_true bit]
  · rw [low, decide_eq_false bit]

theorem hostReads_frame (byte : UInt8) (rest : List Bool)
    : hostReads (false :: bitsOf byte ++ [true] ++ rest) = (hostReads rest).map (byte :: ·) := by
  conv_rhs => rw [← foldl_bitsOf byte]
  rfl

theorem getLastD_softUartPutc (pin reg byte : UInt8)
    : (softUartPutc pin reg byte).getLastD reg = reg ||| pin :=
  List.getLastD_concat ..

/-- The host reads what was put out. By induction on the characters. -/
theorem hostReads_softUartPuts {pin : UInt8} (wired : pin ≠ 0) (reg : UInt8) (chars : List UInt8)
    : hostReads (levels pin (softUartPuts pin reg chars)) = some chars := by
  induction chars generalizing reg with
  | nil => rfl
  | cons byte rest ih =>
      have split : levels pin (softUartPuts pin reg (byte :: rest))
          = levels pin (softUartPutc pin reg byte)
            ++ levels pin (softUartPuts pin (reg ||| pin) rest) := by
        rw [softUartPuts, getLastD_softUartPutc, levels, List.map_append]
        rfl
      rw [split, levels_softUartPutc wired, hostReads_frame, ih]
      rfl

/-- The other pins of the register stay as they are. -/
theorem softUartPuts_others (pin reg : UInt8) (chars : List UInt8)
    : ∀ value ∈ softUartPuts pin reg chars, value &&& ~~~pin = reg &&& ~~~pin := by
  induction chars generalizing reg with
  | nil => simp [softUartPuts]
  | cons byte rest ih =>
      intro value mem
      rw [softUartPuts, getLastD_softUartPutc] at mem
      rcases List.mem_append.mp mem with frame | later
      · simp only [softUartPutc, List.mem_append, List.mem_singleton, List.mem_map] at frame
        rcases frame with (rfl | ⟨i, -, rfl⟩) | rfl
        · exact low_others pin reg
        · split_ifs
          · exact high_others pin reg
          · exact low_others pin reg
        · exact high_others pin reg
      · rw [ih _ value later, high_others]

/-- `DEBUG_INFO_TX_PIN & 0xff` -/
def debugInfoTxPin (pin : Fin 8) : UInt8 := 1 <<< UInt8.ofNat pin

/-- What `Tl_printf` puts on the line is read as the text of the format, a number in it as the
argument that it stands for, and the other pins of the port stay as they are.
-/
theorem tlPrintf_read (stack : Nat → UInt8) (pin : Fin 8) (reg : UInt8) (format : List UInt8)
    (args : List Arg)
    : let wire := softUartPuts (debugInfoTxPin pin) reg
      (tlPrintf stack format args).map (fun chars =>
          hostReads (levels (debugInfoTxPin pin) (wire chars)))
        = (text format args).map some
      ∧ (∀ chars, ∀ value ∈ wire chars,
        value &&& ~~~debugInfoTxPin pin = reg &&& ~~~debugInfoTxPin pin)
      ∧ (∀ j : UInt32, readNumeral 8 (numeral 8 j.toNat) = j.toNat
        ∧ readNumeral 16 (numeral 16 j.toNat) = j.toNat)
      ∧ ∀ m : Int32, readSigned (signed m.toInt) = m.toInt := by
  intro wire
  have wired : debugInfoTxPin pin ≠ 0 := by
    revert pin
    decide
  refine ⟨?_, fun chars => softUartPuts_others _ reg chars, fun j => ⟨?_, ?_⟩, fun m => ?_⟩
  · rw [tlPrintf_eq]
    congr 1
    funext chars
    exact hostReads_softUartPuts wired reg chars
  · exact readNumeral_numeral (by decide) (by decide) _
  · exact readNumeral_numeral (by decide) (by decide) _
  · exact readSigned_signed _

end TelinkSdk.Printf
