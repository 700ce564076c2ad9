import Mathlib.Data.List.Nodup
import Mathlib.Data.List.Range
import PosixC.Foundation.CInt

/-! The linear strategy of hw02.

The strategy guesses the two ends of what is left of its range by turns, whatever
it is told about its guesses.
-/

set_option autoImplicit false

namespace PosixC.Guessing.Linear

open Foundation

structure Guess where
  min : Int
  max : Int
  state : Bool
  deriving DecidableEq, Repr

def init (allocates : Bool) (min max : Int) : Option Guess :=
  if allocates then some ⟨min, max, false⟩ else none

def guess (lib : Guess) : Int := if lib.state then lib.min else lib.max

/-- The sign is not used. -/
def notify (lib : Guess) (_sign : Int) : Guess :=
  let state := !lib.state
  if !state then { lib with state := state, min := toLong (lib.min + 1) }
  else { lib with state := state, max := toLong (lib.max - 1) }

def after (signs : Nat → Int) (lib : Guess) : Nat → Guess
  | 0 => lib
  | count + 1 => notify (after signs lib count) (signs count)

section Range

variable {min max : Int} (signs : Nat → Int)

theorem after_even (low : longMin ≤ min) (high : max ≤ longMax) (i : Nat) (left : 2 * (i : Int) ≤ max - min) :
    after signs ⟨min, max, false⟩ (2 * i) = ⟨min + i, max - i, false⟩ := by
  induction i with
  | zero => simp [after]
  | succ i ih =>
    have ends : toLong (max - i - 1) = max - i - 1 := by
      apply toLong_exact <;> simp only [longMin, longMax] at * <;> omega
    have starts : toLong (min + i + 1) = min + i + 1 := by
      apply toLong_exact <;> simp only [longMin, longMax] at * <;> omega
    rw [show 2 * (i + 1) = 2 * i + 1 + 1 by omega, after, after, ih (by omega)]
    simp [notify, ends, starts]
    omega

theorem guess_after (low : longMin ≤ min) (high : max ≤ longMax) (k : Nat) (left : (k : Int) ≤ max - min) :
    guess (after signs ⟨min, max, false⟩ k) = if k % 2 = 0 then max - (k / 2 : Nat) else min + (k / 2 : Nat) := by
  obtain ⟨i, rfl | rfl⟩ : ∃ i, k = 2 * i ∨ k = 2 * i + 1 := ⟨k / 2, by omega⟩
  · rw [after_even signs low high i (by omega), if_pos (by omega), show 2 * i / 2 = i by omega]
    rfl
  · rw [after, after_even signs low high i (by omega), if_neg (by omega), show (2 * i + 1) / 2 = i by omega]
    rfl

/-- The first guesses are different numbers of the range, and no number of it is left out. -/
theorem linear_covers (low : longMin ≤ min) (ordered : min ≤ max) (high : max ≤ longMax) {allocates : Bool} {lib : Guess}
    (created : init allocates min max = some lib) :
    (∀ n : Nat, (n : Int) ≤ max - min →
      ((List.range (n + 1)).map fun k => guess (after signs lib k)).Nodup ∧
        ∀ value ∈ (List.range (n + 1)).map fun k => guess (after signs lib k), min ≤ value ∧ value ≤ max) ∧
    ∀ secret, min ≤ secret → secret ≤ max →
      ∃ k : Nat, (k : Int) < max - min + 1 ∧ guess (after signs lib k) = secret := by
  obtain rfl : lib = ⟨min, max, false⟩ := by
    simp only [init, Option.ite_none_right_eq_some, Option.some.injEq] at created
    exact created.2.symm
  have values := guess_after signs low high
  refine ⟨fun n inside => ⟨?_, ?_⟩, fun secret above below => ?_⟩
  · refine List.Nodup.map_on (fun j first k second same => ?_) List.nodup_range
    have bounds : j ≤ n ∧ k ≤ n := ⟨by simpa [Nat.lt_succ_iff] using first, by simpa [Nat.lt_succ_iff] using second⟩
    rw [values j (by omega), values k (by omega)] at same
    split at same <;> split at same <;> omega
  · intro value member
    obtain ⟨k, first, rfl⟩ := List.mem_map.mp member
    have bound : k ≤ n := by simpa [Nat.lt_succ_iff] using first
    rw [values k (by omega)]
    split <;> omega
  -- A number is guessed from the end it is nearer to.
  · by_cases upper : max - secret ≤ secret - min
    · refine ⟨2 * (max - secret).toNat, by omega, ?_⟩
      rw [values _ (by omega), if_pos (by omega)]
      omega
    · refine ⟨2 * (secret - min).toNat + 1, by omega, ?_⟩
      rw [values _ (by omega), if_neg (by omega)]
      omega

theorem linear_covers_five :
    ((List.range 5).map fun k => guess (after (fun _ => 1) ⟨0, 4, false⟩ k)).Nodup :=
  ((linear_covers (fun _ => 1) (by decide) (by decide) (by decide) (show init true 0 4 = _ from rfl)).1 4
    (by decide)).1

end Range
end PosixC.Guessing.Linear
