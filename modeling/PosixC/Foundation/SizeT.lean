import Mathlib.Data.Nat.ModEq

/-! Unsigned 64-bit arithmetic on natural numbers.

Values of the C type `size_t` are naturals below `2 ^ 64`; the operations reduce
explicitly, so a proof that no operation wraps is a bound on its exact result.
-/

set_option autoImplicit false

namespace PosixC.Foundation.SizeT

def max : Nat := 2 ^ 64 - 1

def add (a b : Nat) : Nat := (a + b) % 2 ^ 64

/-- A difference of two values below `2 ^ 64` borrows at most once. -/
def sub (a b : Nat) : Nat := if b ≤ a then a - b else a + 2 ^ 64 - b

def mul (a b : Nat) : Nat := (a * b) % 2 ^ 64

def ofInt (value : Int) : Nat := (value % 2 ^ 64).toNat

theorem ofInt_le (value : Int) : ofInt value ≤ max := by
  unfold ofInt max
  omega

theorem add_exact {a b : Nat} (fits : a + b < 2 ^ 64) : add a b = a + b := Nat.mod_eq_of_lt fits

theorem mul_exact {a b : Nat} (fits : a * b < 2 ^ 64) : mul a b = a * b := Nat.mod_eq_of_lt fits

theorem sub_exact {a b : Nat} (below : b ≤ a) : sub a b = a - b := if_pos below

theorem add_lt (a b : Nat) : add a b < 2 ^ 64 := Nat.mod_lt _ (by decide)

end PosixC.Foundation.SizeT
