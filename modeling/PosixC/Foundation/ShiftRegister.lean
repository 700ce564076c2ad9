import Mathlib.Algebra.CharP.Two
import Mathlib.Algebra.Field.ZMod
import Mathlib.Algebra.Polynomial.Inductions
import Mathlib.Algebra.Polynomial.RingDivision
import Mathlib.Algebra.Polynomial.Reverse
import Mathlib.Tactic.LinearCombination
import Mathlib.RingTheory.Coprime.Lemmas
import Mathlib.Tactic.IntervalCases

/-! Polynomial division over GF(2) by a shift register.

The register of width `w` holds the coefficients of a remainder, the highest one
in its top bit. One step takes in the next coefficient of the dividend, and a
whole sequence of steps divides by `X ^ w` plus the register's feedback taps.
-/

set_option autoImplicit false

namespace PosixC.Foundation.ShiftRegister

open Polynomial

section Words

variable {w : Nat}

def bit (b : Bool) : ZMod 2 := if b then 1 else 0

@[simp] theorem bit_xor (a b : Bool) : bit (a ^^ b) = bit a + bit b := by
  cases a <;> cases b <;> decide

theorem bit_not (b : Bool) : bit (!b) = bit b + 1 := by
  cases b <;> decide

noncomputable def wordPolynomial (word : BitVec w) : (ZMod 2)[X] :=
  ∑ i ∈ Finset.range w, C (bit (word.getLsbD i)) * X ^ i

@[simp] theorem coeff_wordPolynomial (word : BitVec w) (n : Nat) :
    (wordPolynomial word).coeff n = bit (word.getLsbD n) := by
  unfold wordPolynomial
  rw [finsetSum_coeff]
  simp only [coeff_C_mul_X_pow]
  rw [Finset.sum_ite_eq (Finset.range w) n fun i => bit (word.getLsbD i)]
  by_cases inside : n < w
  · rw [if_pos (Finset.mem_range.mpr inside)]
  · rw [if_neg (by simpa using inside), BitVec.getLsbD_of_ge word n (by omega)]
    rfl

theorem degree_wordPolynomial_lt (word : BitVec w) : (wordPolynomial word).degree < w := by
  apply (degree_lt_iff_coeff_zero _ _).mpr
  intro n above
  rw [coeff_wordPolynomial, BitVec.getLsbD_of_ge word n above]
  rfl

theorem wordPolynomial_xor (first second : BitVec w) :
    wordPolynomial (first ^^^ second) = wordPolynomial first + wordPolynomial second := by
  ext n
  simp

/-- Shifting a word multiplies by `X` and drops the coefficient that leaves the word. -/
theorem wordPolynomial_shiftLeft (word : BitVec (w + 1)) :
    wordPolynomial (word <<< 1) + C (bit word.msb) * X ^ (w + 1) = X * wordPolynomial word := by
  ext n
  cases n with
  | zero => simp only [coeff_add, coeff_wordPolynomial, coeff_C_mul, coeff_X_pow]; simp [bit]
  | succ n =>
    simp only [coeff_add, coeff_wordPolynomial, coeff_C_mul, coeff_X_pow, coeff_X_mul, BitVec.getLsbD_shiftLeft]
    by_cases top : n = w
    · subst n
      simp [bit, BitVec.msb_eq_getLsbD_last]
    · by_cases inside : n < w
      · simp [inside, top]
      · have above : w + 1 ≤ n := by omega
        simp [inside, top, bit, BitVec.getLsbD_of_ge word n above]

theorem wordPolynomial_not (word : BitVec w) :
    wordPolynomial (~~~word) = wordPolynomial word + ∑ i ∈ Finset.range w, X ^ i := by
  ext n
  simp only [coeff_wordPolynomial, coeff_add, finsetSum_coeff, coeff_X_pow, BitVec.getLsbD_not]
  rw [Finset.sum_ite_eq (Finset.range w) n]
  by_cases inside : n < w
  · simp [inside, bit_not]
  · simp [inside, BitVec.getLsbD_of_ge word n (by omega)]

theorem wordPolynomial_reverse (word : BitVec (w + 1)) :
    wordPolynomial word.reverse = reflect w (wordPolynomial word) := by
  ext n
  rw [coeff_reflect, coeff_wordPolynomial, coeff_wordPolynomial, BitVec.getLsbD_reverse, BitVec.getMsbD_eq_getLsbD]
  by_cases inside : n ≤ w
  · rw [revAt_le inside]
    simp [show n < w + 1 by omega]
  · rw [revAt_eq_self_of_lt (by omega), BitVec.getLsbD_of_ge word n (by omega)]
    simp [show ¬ n < w + 1 by omega]

noncomputable def value (w : Nat) (poly : (ZMod 2)[X]) : Nat := ∑ i ∈ Finset.range w, (poly.coeff i).val * 2 ^ i

theorem value_wordPolynomial (word : BitVec w) : value w (wordPolynomial word) = word.toNat := by
  have digits : ∀ n, ∑ i ∈ Finset.range n, (bit (word.toNat.testBit i)).val * 2 ^ i = word.toNat % 2 ^ n := by
    intro n
    induction n with
    | zero => simp [Nat.mod_one]
    | succ n ih =>
      rw [Finset.sum_range_succ, ih, Nat.mod_pow_succ, ← Nat.toNat_testBit]
      cases word.toNat.testBit n <;> simp [bit, ZMod.val_one]
  unfold value
  simp only [coeff_wordPolynomial, BitVec.getLsbD]
  rw [digits w, Nat.mod_eq_of_lt word.isLt]

end Words

section Division

variable {w : Nat}

/-- One step: the top coefficient together with the next one of the dividend
decides whether the divisor is subtracted. -/
def shift (taps : BitVec w) (register : BitVec w) (next : Bool) : BitVec w :=
  if register.msb ^^ next then (register <<< 1) ^^^ taps else register <<< 1

noncomputable def divisor (taps : BitVec w) : (ZMod 2)[X] := X ^ w + wordPolynomial taps

theorem divisor_monic (taps : BitVec w) : (divisor taps).Monic :=
  monic_X_pow_add (degree_wordPolynomial_lt taps)

theorem degree_divisor (taps : BitVec w) : (divisor taps).degree = w := by
  unfold divisor
  rw [degree_add_eq_left_of_degree_lt, degree_X_pow]
  rw [degree_X_pow]
  exact degree_wordPolynomial_lt taps

theorem wordPolynomial_shift (taps register : BitVec (w + 1)) (next : Bool) :
    wordPolynomial (shift taps register next) =
      (X * wordPolynomial register + C (bit next) * X ^ (w + 1)) %ₘ divisor taps := by
  have degree : (wordPolynomial (shift taps register next)).degree < (divisor taps).degree := by
    rw [degree_divisor]
    exact degree_wordPolynomial_lt _
  -- The quotient of one step is the coefficient that leaves the register.
  refine (div_modByMonic_unique (C (bit (register.msb ^^ next))) _ (divisor_monic taps) ⟨?_, degree⟩).2.symm
  rw [← wordPolynomial_shiftLeft, add_assoc, ← add_mul, ← C_add, ← bit_xor]
  unfold shift divisor
  cases register.msb ^^ next with
  | false => simp [bit]
  | true =>
    have cancel := CharTwo.add_self_eq_zero (wordPolynomial taps)
    simp only [if_true, wordPolynomial_xor, bit, C_1, mul_one, one_mul]
    linear_combination cancel

noncomputable def bitPolynomial (bits : List Bool) : (ZMod 2)[X] :=
  bits.foldl (fun poly b => X * poly + C (bit b)) 0

theorem bitPolynomial_append (bits : List Bool) (b : Bool) :
    bitPolynomial (bits ++ [b]) = X * bitPolynomial bits + C (bit b) := by
  simp [bitPolynomial]

theorem modByMonic_congr {p q g : (ZMod 2)[X]} (monic : g.Monic) (same : g ∣ p - q) : p %ₘ g = q %ₘ g := by
  rw [← sub_eq_zero, ← sub_modByMonic]
  exact (modByMonic_eq_zero_iff_dvd monic).mpr same

/-- Feeding a sequence of bits divides the preset, placed above them, and the
bits, placed above the register, by the divisor. -/
theorem wordPolynomial_shifts (taps preset : BitVec (w + 1)) (bits : List Bool) :
    wordPolynomial (bits.foldl (shift taps) preset) =
      (X ^ bits.length * wordPolynomial preset + bitPolynomial bits * X ^ (w + 1)) %ₘ divisor taps := by
  induction bits using List.reverseRecOn with
  | nil =>
    have small : (wordPolynomial preset).degree < (divisor taps).degree := by
      rw [degree_divisor]
      exact degree_wordPolynomial_lt preset
    simpa [bitPolynomial] using ((modByMonic_eq_self_iff (divisor_monic taps)).mpr small).symm
  | append_singleton bits b ih =>
    rw [List.foldl_append, List.foldl_cons, List.foldl_nil, wordPolynomial_shift, ih, bitPolynomial_append]
    apply modByMonic_congr (divisor_monic taps)
    -- The two dividends differ by `X` times what the remainder of the earlier bits left out.
    have rest := dvd_modByMonic_sub
      (X ^ bits.length * wordPolynomial preset + bitPolynomial bits * X ^ (w + 1)) (divisor taps)
    convert rest.mul_left X using 1
    rw [List.length_append, List.length_singleton]
    ring

end Division

section Windows

variable {w : Nat}

theorem bit_injective : Function.Injective bit := by
  intro a b
  cases a <;> cases b <;> decide

theorem coeff_bitPolynomial (bits : List Bool) (n : Nat) :
    (bitPolynomial bits).coeff n = bit (bits.reverse.getD n false) := by
  induction bits using List.reverseRecOn generalizing n with
  | nil => simp [bitPolynomial, bit]
  | append_singleton bits b ih =>
    rw [bitPolynomial_append, List.reverse_append, List.reverse_singleton, List.singleton_append, coeff_add]
    cases n with
    | zero => simp
    | succ n => rw [coeff_X_mul, ih, coeff_C_succ, add_zero, List.getD_cons_succ]

theorem degree_bitPolynomial_lt (bits : List Bool) : (bitPolynomial bits).degree < bits.length := by
  apply (degree_lt_iff_coeff_zero _ _).mpr
  intro n above
  rw [coeff_bitPolynomial, List.getD_eq_getElem?_getD, List.getElem?_eq_none (by simpa using above)]
  rfl

theorem bitPolynomial_injective {first second : List Bool} (same : first.length = second.length)
    (equal : bitPolynomial first = bitPolynomial second) : first = second := by
  apply List.reverse_injective
  apply List.ext_getElem (by simpa using same)
  intro n left right
  have coeffs := congrArg (coeff · n) equal
  simp only [coeff_bitPolynomial] at coeffs
  have bits := bit_injective coeffs
  rwa [List.getD_eq_getElem?_getD, List.getD_eq_getElem?_getD, List.getElem?_eq_getElem left,
    List.getElem?_eq_getElem right] at bits

theorem bitPolynomial_append_list (bits after : List Bool) :
    bitPolynomial (bits ++ after) = X ^ after.length * bitPolynomial bits + bitPolynomial after := by
  induction after using List.reverseRecOn with
  | nil => simp [bitPolynomial]
  | append_singleton after b ih =>
    rw [← List.append_assoc, bitPolynomial_append, bitPolynomial_append, ih, List.length_append, List.length_singleton]
    ring

theorem isCoprime_X_divisor {taps : BitVec (w + 1)} (odd : taps.getLsbD 0 = true) :
    IsCoprime X (divisor taps) := by
  have constant : (divisor taps).coeff 0 = 1 := by
    simp [divisor, coeff_wordPolynomial, odd, bit]
  have split := divX_mul_X_add (divisor taps)
  rw [constant, C_1] at split
  exact ⟨-(divisor taps).divX, 1, by linear_combination -split⟩

/-- Sequences that differ within one window of the register's width leave different remainders. -/
theorem shifts_window {taps preset : BitVec (w + 1)} (odd : taps.getLsbD 0 = true) {before first second after : List Bool}
    (same : first.length = second.length) (short : first.length ≤ w + 1)
    (equal : (before ++ first ++ after).foldl (shift taps) preset = (before ++ second ++ after).foldl (shift taps) preset) :
    first = second := by
  have remainders := congrArg wordPolynomial equal
  rw [wordPolynomial_shifts, wordPolynomial_shifts, ← sub_eq_zero, ← sub_modByMonic,
    modByMonic_eq_zero_iff_dvd (divisor_monic taps)] at remainders
  -- Only the windows are left of the difference, shifted up by what follows and by the register.
  have difference : X ^ (before ++ first ++ after).length * wordPolynomial preset +
        bitPolynomial (before ++ first ++ after) * X ^ (w + 1) -
      (X ^ (before ++ second ++ after).length * wordPolynomial preset +
        bitPolynomial (before ++ second ++ after) * X ^ (w + 1)) =
      X ^ (after.length + (w + 1)) * (bitPolynomial first - bitPolynomial second) := by
    simp only [bitPolynomial_append_list, List.length_append, same]
    ring
  rw [difference] at remainders
  have divides : divisor taps ∣ bitPolynomial first - bitPolynomial second :=
    (isCoprime_X_divisor odd).symm.pow_right.dvd_of_dvd_mul_left remainders
  have degree : (bitPolynomial first - bitPolynomial second).degree < (divisor taps).degree := by
    rw [degree_divisor]
    refine lt_of_le_of_lt (degree_sub_le _ _) (max_lt ?_ ?_)
    · exact lt_of_lt_of_le (degree_bitPolynomial_lt first) (by exact_mod_cast short)
    · exact lt_of_lt_of_le (degree_bitPolynomial_lt second) (by exact_mod_cast same ▸ short)
  have zero := eq_zero_of_dvd_of_degree_lt divides degree
  exact bitPolynomial_injective same (sub_eq_zero.mp zero)

end Windows

end PosixC.Foundation.ShiftRegister
