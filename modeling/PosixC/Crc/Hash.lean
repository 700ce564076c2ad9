import Mathlib.Tactic.IntervalCases
import PosixC.Foundation.ShiftRegister

/-! The hash of hw01/crc.c computes CRC-32.

The code keeps the register in natural order and reverses every byte it takes
in, so the bits of a byte enter from the least significant one on.
-/

set_option autoImplicit false

namespace PosixC.Crc

open Foundation Polynomial

structure Crc32 where
  hash : UInt32
  deriving DecidableEq, Repr

def crc32Reverse (x : UInt32) : UInt32 :=
  let x : UInt32 := ((x &&& 0x55555555) <<< 1) ||| ((x >>> 1) &&& 0x55555555)
  let x : UInt32 := ((x &&& 0x33333333) <<< 2) ||| ((x >>> 2) &&& 0x33333333)
  let x : UInt32 := ((x &&& 0x0F0F0F0F) <<< 4) ||| ((x >>> 4) &&& 0x0F0F0F0F)
  let x : UInt32 := (x <<< 24) ||| ((x &&& 0xFF00) <<< 8) ||| ((x >>> 8) &&& (0xFF00 : UInt32)) ||| (x >>> 24)
  x

def crc32Init : Crc32 := ⟨0xffffffff⟩

def crc32Turn (pair : UInt32 × UInt32) : UInt32 × UInt32 :=
  let (crc, byte) := pair
  (if (crc ^^^ byte).toInt32 < 0 then (crc <<< 1) ^^^ 0x4c11db7 else crc <<< 1, byte <<< 1)

def crc32Byte (crc : UInt32) (mem : UInt8) : UInt32 :=
  (crc32Turn^[8] (crc, crc32Reverse mem.toUInt32)).1

/-- `buffer` holds the `size` bytes the loop visits. -/
def crc32Update (context : Crc32) (buffer : List UInt8) : Crc32 := ⟨buffer.foldl crc32Byte context.hash⟩

def crc32Finalize (context : Crc32) : Crc32 := ⟨crc32Reverse (~~~context.hash)⟩

def crc32 (message : List UInt8) : UInt32 := (crc32Finalize (crc32Update crc32Init message)).hash

section Bits

def neighbour (width i : Nat) : Nat := if i / width % 2 = 0 then i + width else i - width

def BlockMask (mask : BitVec 32) (width : Nat) : Prop := ∀ i < 32, mask.getLsbD i = decide (i / width % 2 = 0)

theorem getLsbD_swap {mask : BitVec 32} {width i : Nat} (blocks : BlockMask mask width) (positive : 0 < width)
    (inside : i < 32) (word : BitVec 32) :
    ((word &&& mask) <<< width ||| (word >>> width) &&& mask).getLsbD i = word.getLsbD (neighbour width i) := by
  simp only [BitVec.getLsbD_or, BitVec.getLsbD_and, BitVec.getLsbD_shiftLeft, BitVec.getLsbD_ushiftRight, inside,
    decide_true, Bool.true_and, blocks i inside]
  unfold neighbour
  by_cases lower : i < width
  · have even : i / width % 2 = 0 := by rw [Nat.div_eq_of_lt lower]
    simp [lower, even, Nat.add_comm]
  · have before : i / width = (i - width) / width + 1 := Nat.div_eq_sub_div positive (not_lt.mp lower)
    rw [blocks (i - width) (by omega)]
    by_cases even : i / width % 2 = 0
    · have odd : ¬ (i - width) / width % 2 = 0 := by omega
      simp [lower, even, odd, Nat.add_comm]
    · have below : (i - width) / width % 2 = 0 := by omega
      simp [lower, even, below]

theorem getLsbD_swapBytes {i : Nat} (inside : i < 32) (word : BitVec 32) :
    (word <<< 24 ||| (word &&& 0xFF00#32) <<< 8 ||| (word >>> 8) &&& 0xFF00#32 ||| word >>> 24).getLsbD i =
      word.getLsbD (24 - i / 8 * 8 + i % 8) := by
  interval_cases i <;> simp

theorem toBitVec_crc32Reverse (x : UInt32) : (crc32Reverse x).toBitVec = x.toBitVec.reverse := by
  apply BitVec.eq_of_getLsbD_eq
  intro i inside
  have bits : BlockMask 0x55555555 1 := by unfold BlockMask; decide
  have pairs : BlockMask 0x33333333 2 := by unfold BlockMask; decide
  have nibbles : BlockMask 0x0F0F0F0F 4 := by unfold BlockMask; decide
  have within : ∀ i < 32, 24 - i / 8 * 8 + i % 8 < 32 ∧ neighbour 4 (24 - i / 8 * 8 + i % 8) < 32 ∧
      neighbour 2 (neighbour 4 (24 - i / 8 * 8 + i % 8)) < 32 := by decide
  -- Four exchanges after each other take every bit to the opposite place.
  have opposite : ∀ i < 32, neighbour 1 (neighbour 2 (neighbour 4 (24 - i / 8 * 8 + i % 8))) = 32 - 1 - i := by decide
  obtain ⟨byte, nibble, pair⟩ := within i inside
  rw [BitVec.getLsbD_reverse, BitVec.getMsbD_eq_getLsbD, decide_eq_true inside, Bool.true_and, ← opposite i inside]
  unfold crc32Reverse
  simp only [UInt32.toBitVec_or, UInt32.toBitVec_and, UInt32.toBitVec_shiftLeft, UInt32.toBitVec_shiftRight]
  calc _ = _ := getLsbD_swapBytes inside _
    _ = _ := getLsbD_swap nibbles (by decide) byte _
    _ = _ := getLsbD_swap pairs (by decide) nibble _
    _ = _ := getLsbD_swap bits (by decide) pair _

/-- The sign test looks at the top bit. -/
theorem toInt32_neg (x : UInt32) : x.toInt32 < 0 ↔ x.toBitVec.msb = true := by
  rw [Int32.lt_iff_toBitVec_slt, UInt32.toBitVec_toInt32]
  exact BitVec.slt_zero_iff_msb_cond

/-- The feedback of the register, without the leading coefficient. -/
def taps : BitVec 32 := 0x4c11db7

theorem toBitVec_crc32Turn (crc byte : UInt32) :
    (crc32Turn (crc, byte)).1.toBitVec = ShiftRegister.shift taps crc.toBitVec byte.toBitVec.msb ∧
      (crc32Turn (crc, byte)).2.toBitVec = byte.toBitVec <<< 1 := by
  refine ⟨?_, rfl⟩
  have sign := toInt32_neg (crc ^^^ byte)
  rw [UInt32.toBitVec_xor, BitVec.msb_xor] at sign
  simp only [crc32Turn, ShiftRegister.shift, sign]
  split <;> rfl

/-- The inner loop feeds the bits of its byte from the top one on. -/
theorem toBitVec_crc32Turns (crc byte : UInt32) (count : Nat) :
    (crc32Turn^[count] (crc, byte)).1.toBitVec =
        ((List.range count).map byte.toBitVec.getMsbD).foldl (ShiftRegister.shift taps) crc.toBitVec ∧
      (crc32Turn^[count] (crc, byte)).2.toBitVec = byte.toBitVec <<< count := by
  induction count with
  | zero => exact ⟨rfl, (BitVec.shiftLeft_zero _).symm⟩
  | succ count ih =>
    obtain ⟨register, rest⟩ := ih
    have turn := toBitVec_crc32Turn (crc32Turn^[count] (crc, byte)).1 (crc32Turn^[count] (crc, byte)).2
    rw [register, rest, BitVec.msb_shiftLeft, ← BitVec.shiftLeft_add] at turn
    rw [Function.iterate_succ_apply', List.range_succ, List.map_append, List.foldl_append]
    exact turn

end Bits

section Messages

def byteBits (byte : UInt8) : List Bool := (List.range 8).map byte.toBitVec.getLsbD

def messageBits (message : List UInt8) : List Bool := message.flatMap byteBits

theorem length_messageBits (message : List UInt8) : (messageBits message).length = 8 * message.length := by
  induction message with
  | nil => rfl
  | cons byte rest ih =>
    simp only [messageBits, List.flatMap_cons, List.length_append, List.length_cons] at ih ⊢
    simp only [byteBits, List.length_map, List.length_range, ih]
    omega

theorem toBitVec_crc32Byte (crc : UInt32) (mem : UInt8) :
    (crc32Byte crc mem).toBitVec = (byteBits mem).foldl (ShiftRegister.shift taps) crc.toBitVec := by
  unfold crc32Byte byteBits
  rw [(toBitVec_crc32Turns crc _ 8).1, toBitVec_crc32Reverse]
  congr 1
  apply List.map_congr_left
  intro j member
  -- The byte was reversed into the top of the word, so its lowest bit comes first.
  have inside : j < 8 := List.mem_range.mp member
  simp [BitVec.getMsbD_reverse, show j < 32 by omega]

theorem toBitVec_crc32Update (context : Crc32) (message : List UInt8) :
    (crc32Update context message).hash.toBitVec =
      (messageBits message).foldl (ShiftRegister.shift taps) context.hash.toBitVec := by
  unfold crc32Update messageBits
  induction message generalizing context with
  | nil => rfl
  | cons byte rest ih =>
    rw [List.foldl_cons, List.flatMap_cons, List.foldl_append, ← toBitVec_crc32Byte]
    exact ih ⟨crc32Byte context.hash byte⟩

end Messages

section Remainder

noncomputable def generator : (ZMod 2)[X] :=
  X ^ 32 + X ^ 26 + X ^ 23 + X ^ 22 + X ^ 16 + X ^ 12 + X ^ 11 + X ^ 10 + X ^ 8 + X ^ 7 + X ^ 5 + X ^ 4 + X ^ 2 + X + 1

noncomputable def allOnes : (ZMod 2)[X] := ∑ i ∈ Finset.range 32, X ^ i

/-- The message with 32 zero bits appended and the preset added to its first 32 bits. -/
noncomputable def paddedMessage (message : List UInt8) : (ZMod 2)[X] :=
  ShiftRegister.bitPolynomial (messageBits message) * X ^ 32 + allOnes * X ^ (8 * message.length)

/-- CRC-32 as it is defined over GF(2): the complement of the remainder, read backwards. -/
noncomputable def isoHdlc (message : List UInt8) : Nat :=
  ShiftRegister.value 32 (reflect 31 (paddedMessage message %ₘ generator + allOnes))

theorem divisor_taps : ShiftRegister.divisor taps = generator := by
  unfold ShiftRegister.divisor ShiftRegister.wordPolynomial generator taps
  simp [Finset.sum_range_succ, ShiftRegister.bit]
  ring

theorem wordPolynomial_init : ShiftRegister.wordPolynomial crc32Init.hash.toBitVec = allOnes := by
  have zero : ShiftRegister.wordPolynomial (0 : BitVec 32) = 0 := by
    simp [ShiftRegister.wordPolynomial, ShiftRegister.bit]
  rw [show crc32Init.hash.toBitVec = ~~~(0 : BitVec 32) by decide, ShiftRegister.wordPolynomial_not, zero, zero_add]
  rfl

/-- The register after all bytes of a message holds the remainder. -/
theorem wordPolynomial_crc32Update (message : List UInt8) :
    ShiftRegister.wordPolynomial (crc32Update crc32Init message).hash.toBitVec =
      paddedMessage message %ₘ generator := by
  rw [toBitVec_crc32Update, ShiftRegister.wordPolynomial_shifts, divisor_taps, wordPolynomial_init,
    length_messageBits]
  rw [mul_comm (X ^ (8 * message.length)) allOnes, add_comm]
  rfl

theorem crc32_eq_isoHdlc (message : List UInt8) :
    (crc32Finalize (crc32Update crc32Init message)).hash.toNat = isoHdlc message := by
  have final : ShiftRegister.wordPolynomial (crc32Finalize (crc32Update crc32Init message)).hash.toBitVec =
      reflect 31 (paddedMessage message %ₘ generator + allOnes) := by
    simp only [crc32Finalize]
    rw [toBitVec_crc32Reverse, ShiftRegister.wordPolynomial_reverse, UInt32.toBitVec_not,
      ShiftRegister.wordPolynomial_not, wordPolynomial_crc32Update]
    rfl
  unfold isoHdlc
  rw [← final, ShiftRegister.value_wordPolynomial]
  rfl

-- The check value of the standard: the digits from 1 to 9.
example : crc32 [0x31, 0x32, 0x33, 0x34, 0x35, 0x36, 0x37, 0x38, 0x39] = 0xcbf43926 := by decide +kernel

end Remainder
end PosixC.Crc
