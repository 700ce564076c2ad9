import Mathlib.Data.Nat.Choose.Basic
import PosixC.Foundation.CPrint

/-! comb and fact of ex02: binomial coefficients by way of factorials.

The largest factorial that is an `int` is 12!.
-/

set_option autoImplicit false

namespace PosixC.Comb

open Foundation CText

section Model

/-- `none` stands for an overflow. -/
def fact (number : Int) : Option Int :=
  if number ≤ 1 then some 1
  else (fact (number - 1)).bind fun below => exactInt (number * below)
termination_by number.toNat
decreasing_by omega

/-- C leaves a division by zero undefined as well. -/
def comb (upper lower : Int) : Option Int := do
  let dividend ← fact upper
  let difference ← exactInt (upper - lower)
  let first ← fact difference
  let second ← fact lower
  let product ← exactInt (first * second)
  if product = 0 then none else exactInt (dividend.tdiv product)

inductive Stop where
  | usage (message : String)
  | undefined
  deriving DecidableEq, Repr

def combMain : List Bytes → Except Stop Bytes
  | [first, second] =>
      let upper := strtolInt first
      let lower := strtolInt second
      if upper < 0 ∨ lower < 0 then .error (.usage "Negative number on input\n")
      else
        match comb upper lower with
        | none => .error .undefined
        | some value => .ok (decimal value ++ [newline])
  | _ => .error (.usage "Wrong amount of arguments\n")

def factMain : List Bytes → Except Stop Bytes
  | [argument] =>
      let inputNumber := strtolInt argument
      if inputNumber < 0 then .error (.usage "Negative number on input\n")
      else
        match fact inputNumber with
        | none => .error .undefined
        | some value => .ok (decimal value ++ [newline])
  | _ => .error (.usage "Wrong amount of arguments\n")

end Model

section Factorials

variable {n upper lower : Nat}

theorem factorial_isInt : IsInt (n.factorial : Int) ↔ n ≤ 12 := by
  have twelve : Nat.factorial 12 = 479001600 := by decide
  have thirteen : Nat.factorial 13 = 6227020800 := by decide
  unfold IsInt intMax
  constructor
  · intro fits
    by_contra large
    have above : Nat.factorial 13 ≤ n.factorial := Nat.factorial_le (not_le.mp large)
    omega
  · intro small
    have below := Nat.factorial_le small
    omega

theorem fact_nonpositive {number : Int} (small : number ≤ 1) : fact number = some 1 := by
  rw [fact, if_pos small]

theorem fact_natural (n : Nat) : fact n = exactInt n.factorial := by
  induction n with
  | zero => exact fact_nonpositive (by decide)
  | succ n ih =>
    by_cases first : n = 0
    · subst first
      exact fact_nonpositive (by decide)
    · have pred : ((n + 1 : Nat) : Int) - 1 = n := by omega
      rw [fact, if_neg (by omega), pred, ih]
      by_cases fits : IsInt (n.factorial : Int)
      · rw [exactInt_some fits, Option.bind_some, Nat.factorial_succ, Int.natCast_mul]
      · have larger : ¬ IsInt ((n + 1).factorial : Int) := by
          rw [factorial_isInt] at fits ⊢
          omega
        rw [exactInt_none fits, exactInt_none larger, Option.bind_none]

theorem fact_fits (small : n ≤ 12) : fact n = some (n.factorial : Int) := by
  rw [fact_natural, exactInt_some (factorial_isInt.mpr small)]

theorem fact_overflows (large : 12 < n) : fact n = none := by
  rw [fact_natural, exactInt_none (mt factorial_isInt.mp (not_le.mpr large))]

theorem factMain_eq {argument : Bytes} (given : strtolInt argument = n) :
    factMain [argument] = if n ≤ 12 then .ok (decimal n.factorial ++ [newline]) else .error .undefined := by
  have natural : ¬ (n : Int) < 0 := by omega
  by_cases small : n ≤ 12
  · simp only [factMain, given, if_neg natural, fact_fits small, if_pos small]
  · simp only [factMain, given, if_neg natural, fact_overflows (not_le.mp small), if_neg small]

end Factorials

section Coefficients

variable {upper lower : Nat}

theorem difference_isInt (small : upper ≤ 12) (small' : lower ≤ 12) :
    exactInt ((upper : Int) - lower) = some ((upper : Int) - lower) :=
  exactInt_some (by unfold IsInt intMax; omega)

theorem comb_upper_overflows {lower : Int} (large : 12 < upper) : comb upper lower = none := by
  rw [comb, fact_overflows large]
  rfl

theorem comb_lower_overflows (large : 12 < lower) : comb upper lower = none := by
  unfold comb
  rw [fact_overflows large]
  cases fact upper with
  | none => rfl
  | some dividend =>
    cases exactInt ((upper : Int) - lower) with
    | none => rfl
    | some difference => simp

/-- The quotient of the factorials, if the product below is an `int`. -/
theorem comb_divides {first : Nat} (small : upper ≤ 12) (small' : lower ≤ 12)
    (computed : fact ((upper : Int) - lower) = some (first : Int)) (positive : 0 < first)
    (fits : IsInt (first * lower.factorial : Nat)) :
    comb upper lower = some ((upper.factorial / (first * lower.factorial) : Nat) : Int) := by
  have nonzero : ((first * lower.factorial : Nat) : Int) ≠ 0 :=
    Int.natCast_ne_zero.mpr (Nat.mul_ne_zero positive.ne' (Nat.factorial_ne_zero lower))
  have quotient : IsInt (upper.factorial / (first * lower.factorial) : Nat) :=
    (factorial_isInt.mpr small).of_le (Nat.div_le_self _ _)
  simp only [comb, fact_fits small, fact_fits small', difference_isInt small small', computed, ← Int.natCast_mul,
    exactInt_some fits, Option.bind_eq_bind, Option.bind_some, if_neg nonzero, ← Int.ofNat_tdiv, exactInt_some quotient]

theorem comb_below (small : upper ≤ 12) (below : lower ≤ upper) : comb upper lower = some (upper.choose lower : Int) := by
  have difference : fact ((upper : Int) - lower) = some ((upper - lower).factorial : Int) := by
    rw [← Int.ofNat_sub below, fact_fits (by omega)]
  have divides : (upper - lower).factorial * lower.factorial ≤ upper.factorial := by
    rw [Nat.mul_comm]
    exact Nat.le_of_dvd (Nat.factorial_pos _) (Nat.factorial_mul_factorial_dvd_factorial below)
  have fits : IsInt ((upper - lower).factorial * lower.factorial : Nat) := (factorial_isInt.mpr small).of_le divides
  rw [comb_divides small (below.trans small) difference (Nat.factorial_pos _) fits,
    Nat.choose_eq_factorial_div_factorial below, Nat.mul_comm]

theorem comb_above (small : lower ≤ 12) (above : upper < lower) :
    comb upper lower = some (if upper = 0 ∧ lower = 1 then 1 else 0) := by
  have negative : fact ((upper : Int) - lower) = some ((1 : Nat) : Int) := fact_nonpositive (by omega)
  have fits : IsInt (1 * lower.factorial : Nat) := by
    rw [Nat.one_mul]
    exact factorial_isInt.mpr small
  rw [comb_divides (by omega) small negative Nat.one_pos fits, Nat.one_mul]
  by_cases ones : upper = 0 ∧ lower = 1
  · obtain ⟨rfl, rfl⟩ := ones
    rfl
  · have less : upper.factorial < lower.factorial := by
      cases upper with
      | zero => exact Nat.one_lt_factorial.mpr (by omega)
      | succ upper => exact (Nat.factorial_lt (Nat.succ_pos upper)).mpr above
    rw [Nat.div_eq_of_lt less, if_neg ones]
    rfl

theorem comb_choose (small : upper ≤ 12) (small' : lower ≤ 12) (ordinary : ¬ (upper = 0 ∧ lower = 1)) :
    comb upper lower = some (upper.choose lower : Int) := by
  rcases Nat.lt_or_ge upper lower with above | below
  · rw [comb_above small' above, Nat.choose_eq_zero_of_lt above, if_neg ordinary]
    rfl
  · exact comb_below small below

/-- The binomial coefficient is computed up to 12, except for 0 over 1. -/
theorem comb_iff : comb upper lower = some (upper.choose lower : Int) ↔
    upper ≤ 12 ∧ lower ≤ 12 ∧ ¬ (upper = 0 ∧ lower = 1) := by
  constructor
  · intro computed
    refine ⟨?_, ?_, ?_⟩
    · by_contra large
      rw [comb_upper_overflows (not_le.mp large)] at computed
      cases computed
    · by_contra large
      rw [comb_lower_overflows (not_le.mp large)] at computed
      cases computed
    · rintro ⟨rfl, rfl⟩
      rw [comb_above (by decide) (by decide)] at computed
      cases computed
  · rintro ⟨small, small', ordinary⟩
    exact comb_choose small small' ordinary

/-- 13! is no `int`, and above the diagonal 0!/1! is not 0. -/
theorem comb_wrong : comb 13 0 ≠ some (Nat.choose 13 0 : Int) ∧ comb 0 1 ≠ some (Nat.choose 0 1 : Int) := by
  have overflows : comb 13 0 = none := comb_upper_overflows (by decide : 12 < 13)
  have one : comb 0 1 = some 1 := comb_above (by decide : 1 ≤ 12) (by decide : 0 < 1)
  rw [overflows, one]
  decide

theorem combMain_prints {first second : Bytes} (given : strtolInt first = upper) (given' : strtolInt second = lower)
    (small : upper ≤ 12) (small' : lower ≤ 12) (ordinary : ¬ (upper = 0 ∧ lower = 1)) :
    combMain [first, second] = .ok (decimal (upper.choose lower) ++ [newline]) := by
  have natural : ¬ ((upper : Int) < 0 ∨ (lower : Int) < 0) := by omega
  simp only [combMain, given, given', if_neg natural, comb_choose small small' ordinary]

example : combMain [literal "4", literal "2"] = .ok (literal "6\n") :=
  @combMain_prints 4 2 _ _ (by decide +kernel) (by decide +kernel) (by decide) (by decide) (by decide)

end Coefficients
end PosixC.Comb
