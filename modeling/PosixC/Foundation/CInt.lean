import Mathlib.Data.Int.Init

/-! The C types `int` and `long`: 32 and 64 bits, two's complement. -/

set_option autoImplicit false

namespace PosixC.Foundation

def intMax : Int := 2147483647

def toInt (value : Int) : Int := (value + 2147483648) % 4294967296 - 2147483648

theorem toInt_exact {value : Int} (above : -2147483648 ≤ value) (below : value ≤ intMax) : toInt value = value := by
  unfold intMax at below
  unfold toInt
  omega

theorem toInt_overflow {value : Int} (above : intMax < value) (below : value ≤ 2 * intMax) :
    toInt value = value - 4294967296 := by
  unfold intMax at above below
  unfold toInt
  omega

theorem toInt_range (value : Int) : -2147483648 ≤ toInt value ∧ toInt value ≤ intMax := by
  unfold toInt intMax
  omega

def IsInt (value : Int) : Prop := -2147483648 ≤ value ∧ value ≤ intMax

instance (value : Int) : Decidable (IsInt value) := inferInstanceAs (Decidable (_ ∧ _))

theorem IsInt.of_le {small large : Nat} (fits : IsInt large) (below : small ≤ large) : IsInt small := by
  unfold IsInt at fits ⊢
  omega

/-- The exact result of an operation on values of type `int`; nothing is defined where
it overflows. -/
def exactInt (value : Int) : Option Int := if IsInt value then some value else none

theorem exactInt_some {value : Int} (fits : IsInt value) : exactInt value = some value := if_pos fits

theorem exactInt_none {value : Int} (overflows : ¬ IsInt value) : exactInt value = none := if_neg overflows

def longMin : Int := -9223372036854775808

def longMax : Int := 9223372036854775807

def toLong (value : Int) : Int := (value + 9223372036854775808) % 18446744073709551616 - 9223372036854775808

theorem toLong_exact {value : Int} (above : longMin ≤ value) (below : value ≤ longMax) : toLong value = value := by
  unfold longMin at above
  unfold longMax at below
  unfold toLong
  omega

end PosixC.Foundation
