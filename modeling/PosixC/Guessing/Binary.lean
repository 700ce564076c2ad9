import Mathlib.Tactic.Linarith
import Mathlib.Tactic.Ring
import PosixC.Foundation.CInt

/-! The binary strategy of hw02.

The strategy keeps the midpoint itself as the new bound, so the upper bound is
never guessed, and it adds its bounds in `int`.
-/

set_option autoImplicit false

namespace PosixC.Guessing.Binary

open Foundation

structure Guess where
  min : Int
  max : Int
  deriving DecidableEq, Repr

/-- `none` when there is no memory. -/
def init (allocates : Bool) (min max : Int) : Option Guess :=
  if allocates then some ⟨min, max⟩ else none

theorem eq_of_init {allocates : Bool} {min max : Int} {lib : Guess} (created : init allocates min max = some lib) :
    lib = ⟨min, max⟩ := by
  simp only [init, Option.ite_none_right_eq_some, Option.some.injEq] at created
  exact created.2.symm

def midpoint (lib : Guess) : Int := (toInt (toInt lib.min + toInt lib.max)).tdiv 2

def guess (lib : Guess) : Int := midpoint lib

/-- `none` when the program exits with an internal error. -/
def notify (lib : Guess) (sign : Int) : Option Guess :=
  if sign = 1 then some { lib with min := midpoint lib }
  else if sign = -1 then some { lib with max := midpoint lib }
  else none

/-- The first guesses, up to the secret, when each wrong one is notified. -/
def guesses (secret : Int) : Nat → Guess → List Int
  | 0, _ => []
  | count + 1, lib =>
      guess lib ::
        if guess lib = secret then []
        else
          match notify lib (if guess lib < secret then 1 else -1) with
          | none => []
          | some next => guesses secret count next

section Rounds

variable {secret lo hi : Int}

theorem midpoint_exact (positive : 0 ≤ lo) (ordered : lo ≤ hi) (room : lo + hi ≤ intMax) :
    midpoint ⟨lo, hi⟩ = (lo + hi) / 2 := by
  have low : toInt lo = lo := toInt_exact (by omega) (by omega)
  have high : toInt hi = hi := toInt_exact (by omega) (by omega)
  simp only [midpoint, low, high]
  rw [toInt_exact (by omega) room, Int.tdiv_eq_ediv_of_nonneg (by omega)]

theorem midpoint_overflow (positive : 0 ≤ lo) (ordered : lo ≤ hi) (high : hi ≤ intMax) (exceeds : intMax < lo + hi) :
    midpoint ⟨lo, hi⟩ < 0 := by
  have low : toInt lo = lo := toInt_exact (by omega) (by omega)
  have same : toInt hi = hi := toInt_exact (by omega) high
  simp only [midpoint, low, same]
  rw [toInt_overflow exceeds (by omega), show lo + hi - 4294967296 = -(4294967296 - (lo + hi)) by ring, Int.neg_tdiv]
  unfold intMax at high
  rw [Int.tdiv_eq_ediv_of_nonneg (by omega)]
  omega

theorem guesses_found (found : guess ⟨lo, hi⟩ = secret) (count : Nat) :
    guesses secret (count + 1) ⟨lo, hi⟩ = [guess ⟨lo, hi⟩] := by
  simp only [guesses, found, if_true]

theorem guesses_below (below : guess ⟨lo, hi⟩ < secret) (count : Nat) :
    guesses secret (count + 1) ⟨lo, hi⟩ = guess ⟨lo, hi⟩ :: guesses secret count ⟨guess ⟨lo, hi⟩, hi⟩ := by
  simp only [guesses, below.ne, below, if_true, if_false, notify]
  rfl

theorem guesses_above (above : secret < guess ⟨lo, hi⟩) (count : Nat) :
    guesses secret (count + 1) ⟨lo, hi⟩ = guess ⟨lo, hi⟩ :: guesses secret count ⟨lo, guess ⟨lo, hi⟩⟩ := by
  simp only [guesses, above.ne', above.not_gt, if_true, if_false, notify]
  rfl

end Rounds

section Search

def approach (min max : Int) (k : Nat) : Int := (min + (2 ^ k - 1) * max) / 2 ^ k

variable {secret min max lo hi : Int}

theorem approach_zero (min max : Int) : approach min max 0 = min := by
  simp [approach]

theorem approach_succ (min max : Int) (k : Nat) : approach min max (k + 1) = (approach min max k + max) / 2 := by
  have positive : (0 : Int) < 2 ^ k := by positivity
  have shifted : approach min max k + max = (min + (2 ^ (k + 1) - 1) * max) / 2 ^ k := by
    rw [approach, ← Int.add_mul_ediv_right _ _ positive.ne']
    congr 1
    ring
  rw [shifted, Int.ediv_ediv_of_nonneg positive.le, approach, pow_succ]

structure Searching (min max secret lo hi : Int) : Prop where
  low : min ≤ lo
  high : hi ≤ max
  between : lo ≤ secret ∧ secret < hi
  room : lo + hi ≤ intMax
  next : 2 * hi ≤ intMax + 1 ∨ hi = max ∧ ∃ k, lo = approach min max k

/-- The points that a search for `secret` can use as lower bound are small enough. -/
def Fits (min max secret : Int) : Prop :=
  ∀ k, approach min max k < secret → approach min max k + max ≤ intMax

theorem Searching.guess_eq (positive : 0 ≤ min) (searching : Searching min max secret lo hi) :
    guess ⟨lo, hi⟩ = (lo + hi) / 2 := by
  obtain ⟨low, _, between, room, _⟩ := searching
  exact midpoint_exact (by omega) (by omega) room

theorem Searching.below (positive : 0 ≤ min) (fits : Fits min max secret)
    (searching : Searching min max secret lo hi) (below : guess ⟨lo, hi⟩ < secret) :
    Searching min max secret (guess ⟨lo, hi⟩) hi := by
  have guessed := searching.guess_eq positive
  obtain ⟨low, high, between, room, next⟩ := searching
  rw [guessed] at below ⊢
  rcases next with half | ⟨top, k, same⟩
  · exact ⟨by omega, high, ⟨by omega, between.2⟩, by omega, Or.inl half⟩
  · have reached : (lo + hi) / 2 = approach min max (k + 1) := by rw [approach_succ, ← same, top]
    have room := fits (k + 1) (by rwa [← reached])
    exact ⟨by omega, high, ⟨by omega, between.2⟩, by rwa [reached, top], Or.inr ⟨top, k + 1, reached⟩⟩

theorem Searching.above (positive : 0 ≤ min) (searching : Searching min max secret lo hi)
    (above : secret < guess ⟨lo, hi⟩) : Searching min max secret lo (guess ⟨lo, hi⟩) := by
  have guessed := searching.guess_eq positive
  obtain ⟨low, high, between, room, _⟩ := searching
  rw [guessed] at above ⊢
  exact ⟨low, by omega, ⟨between.1, above⟩, by omega, Or.inl (by omega)⟩

/-- The range shrinks with every wrong guess. -/
theorem Searching.finds (positive : 0 ≤ min) (fits : Fits min max secret) {width : Nat}
    (searching : Searching min max secret lo hi) (narrow : hi - lo ≤ width) :
    ∃ count, secret ∈ guesses secret count ⟨lo, hi⟩ := by
  induction width generalizing lo hi with
  | zero =>
    have between := searching.between
    omega
  | succ width ih =>
    have guessed := searching.guess_eq positive
    have between := searching.between
    rcases lt_trichotomy (guess ⟨lo, hi⟩) secret with below | found | above
    · obtain ⟨count, member⟩ := ih (searching.below positive fits below) (by rw [guessed] at below ⊢; omega)
      exact ⟨count + 1, by rw [guesses_below below]; exact .tail _ member⟩
    · exact ⟨1, by rw [guesses_found found, found]; exact .head _⟩
    · obtain ⟨count, member⟩ := ih (searching.above positive above) (by rw [guessed] at above ⊢; omega)
      exact ⟨count + 1, by rw [guesses_above above]; exact .tail _ member⟩

theorem Searching.stays (positive : 0 ≤ min) (fits : Fits min max secret) (count : Nat)
    (searching : Searching min max secret lo hi) {value : Int} (member : value ∈ guesses secret count ⟨lo, hi⟩) :
    min ≤ value ∧ value ≤ max := by
  induction count generalizing lo hi with
  | zero => cases member
  | succ count ih =>
    have inside : min ≤ guess ⟨lo, hi⟩ ∧ guess ⟨lo, hi⟩ ≤ max := by
      rw [searching.guess_eq positive]
      obtain ⟨low, high, between, _, _⟩ := searching
      omega
    rcases lt_trichotomy (guess ⟨lo, hi⟩) secret with below | found | above
    · rw [guesses_below below, List.mem_cons] at member
      rcases member with rfl | later
      · exact inside
      · exact ih (searching.below positive fits below) later
    · rw [guesses_found found, List.mem_singleton] at member
      rwa [member]
    · rw [guesses_above above, List.mem_cons] at member
      rcases member with rfl | later
      · exact inside
      · exact ih (searching.above positive above) later

/-- While the upper bound is the secret, the guesses stay below it, or leave the
range. -/
theorem top_not_found (positive : 0 ≤ lo) (narrow : lo < max) (high : max ≤ intMax) (count : Nat)
    (inside : ∀ value ∈ guesses max count ⟨lo, max⟩, 0 ≤ value) : max ∉ guesses max count ⟨lo, max⟩ := by
  induction count generalizing lo with
  | zero => exact List.not_mem_nil
  | succ count ih =>
    have room : lo + max ≤ intMax := by
      by_contra exceeds
      have negative := midpoint_overflow positive narrow.le high (by omega)
      have stays := inside (guess ⟨lo, max⟩) (by simp [guesses])
      simp only [guess] at stays
      omega
    have guessed : guess ⟨lo, max⟩ = (lo + max) / 2 := midpoint_exact positive narrow.le room
    have below : guess ⟨lo, max⟩ < max := by omega
    rw [guesses_below below] at inside ⊢
    rw [List.mem_cons, not_or]
    refine ⟨below.ne', ih (by omega) below fun value member => inside value (.tail _ member)⟩

theorem approach_between (ordered : min ≤ max) (k : Nat) : min ≤ approach min max k ∧ approach min max k ≤ max := by
  induction k with
  | zero => rwa [approach_zero, and_iff_right le_rfl]
  | succ k ih =>
    rw [approach_succ]
    omega

theorem approach_mono (ordered : min ≤ max) {j k : Nat} (le : j ≤ k) : approach min max j ≤ approach min max k := by
  induction k, le using Nat.le_induction with
  | base => exact le_rfl
  | succ k _ ih =>
    have between := approach_between ordered k
    rw [approach_succ]
    omega

theorem leaves_at (positive : 0 ≤ lo) (ordered : lo ≤ max) (high : max ≤ intMax) (exceeds : intMax < lo + max) :
    ∃ count, ∃ value ∈ guesses secret count ⟨lo, max⟩, value < 0 :=
  ⟨1, guess ⟨lo, max⟩, by simp [guesses], midpoint_overflow positive ordered high exceeds⟩

/-- A lower bound that is too large is reached, unless a sum overflows before. -/
theorem leaves_range (positive : 0 ≤ min) (ordered : min ≤ max) (high : max ≤ intMax) (j left : Nat)
    (below : approach min max (j + left) < secret) (exceeds : intMax < approach min max (j + left) + max) :
    ∃ count, ∃ value ∈ guesses secret count ⟨approach min max j, max⟩, value < 0 := by
  have between := fun j => approach_between ordered j
  induction left generalizing j with
  | zero => exact leaves_at (positive.trans (between j).1) (between j).2 high exceeds
  | succ left ih =>
    by_cases now : intMax < approach min max j + max
    · exact leaves_at (positive.trans (between j).1) (between j).2 high now
    · have guessed : guess ⟨approach min max j, max⟩ = approach min max (j + 1) := by
        rw [approach_succ]
        exact midpoint_exact (positive.trans (between j).1) (between j).2 (Int.not_lt.mp now)
      have smaller : guess ⟨approach min max j, max⟩ < secret := by
        rw [guessed]
        exact (approach_mono ordered (by omega : j + 1 ≤ j + (left + 1))).trans_lt below
      have index : j + (left + 1) = j + 1 + left := by omega
      rw [index] at below exceeds
      obtain ⟨count, value, member, negative⟩ := ih (j + 1) below exceeds
      refine ⟨count + 1, value, ?_, negative⟩
      rw [guesses_below smaller, guessed]
      exact .tail _ member

/-- The strategy guesses the secret within the range exactly when the secret is
below the upper bound, or alone, and no sum of two bounds on the way to it
overflows. -/
theorem binary_finds_iff (positive : 0 ≤ min) (low : min ≤ secret) (high : secret ≤ max) (room : min + max ≤ intMax)
    {allocates : Bool} {lib : Guess} (created : init allocates min max = some lib) :
    ((∃ count, secret ∈ guesses secret count lib) ∧
      ∀ count, ∀ value ∈ guesses secret count lib, min ≤ value ∧ value ≤ max) ↔
    (min = max ∨ secret < max) ∧ ∀ k, approach min max k < secret → approach min max k + max ≤ intMax := by
  obtain rfl := eq_of_init created
  constructor
  · rintro ⟨⟨count, found⟩, inside⟩
    constructor
    · by_contra missing
      have top : secret = max := by omega
      subst top
      exact top_not_found positive (by omega) (by omega) count
        (fun value member => positive.trans (inside count value member).1) found
    · intro k below
      -- The sum that overflows makes a guess negative, which lies outside of the range.
      by_contra exceeds
      obtain ⟨count, value, member, negative⟩ := leaves_range positive (low.trans high) (by omega) 0 k
        (by rwa [Nat.zero_add]) (by rw [Nat.zero_add]; exact Int.not_le.mp exceeds)
      rw [approach_zero] at member
      have stays := inside count value member
      omega
  · rintro ⟨alone | below, fits⟩
    · subst alone
      have found : guess ⟨min, min⟩ = secret := by
        rw [guess, midpoint_exact positive le_rfl room]
        omega
      refine ⟨⟨1, by rw [guesses_found found, found]; exact .head _⟩, fun count value member => ?_⟩
      cases count with
      | zero => cases member
      | succ count =>
        rw [guesses_found found, List.mem_singleton] at member
        omega
    · have searching : Searching min max secret min max :=
        ⟨le_rfl, le_rfl, ⟨low, below⟩, room, Or.inr ⟨rfl, 0, (approach_zero min max).symm⟩⟩
      exact ⟨searching.finds positive fits (by rw [Int.toNat_of_nonneg (by omega : 0 ≤ max - min)]),
        fun count value member => searching.stays positive fits count member⟩

-- The second sum overflows.
example : guesses 2147483646 2 ⟨0, 2147483647⟩ = [1073741823, -536870913] := by decide

theorem binary_finds_middle :
    (∃ count, 42 ∈ guesses 42 count ⟨0, 100⟩) ∧ ∀ count, ∀ value ∈ guesses 42 count ⟨0, 100⟩, 0 ≤ value ∧ value ≤ 100 := by
  refine (binary_finds_iff (by decide) (by decide) (by decide) (by decide) (show init true 0 100 = _ from rfl)).mpr
    ⟨Or.inr (by decide), fun k below => ?_⟩
  have small : (42 : Int) + 100 ≤ intMax := by decide
  omega

/-- With the range from 0 to 1, the guess stays 0. -/
theorem binary_misses_top : ∃ lib, init true 0 1 = some lib ∧ ∀ count, 1 ∉ guesses 1 count lib := by
  refine ⟨⟨0, 1⟩, rfl, fun count => ?_⟩
  induction count with
  | zero => exact List.not_mem_nil
  | succ count ih =>
    have stuck : guesses 1 (count + 1) ⟨0, 1⟩ = 0 :: guesses 1 count ⟨0, 1⟩ := rfl
    rw [stuck, List.mem_cons]
    rintro (zero | later)
    · cases zero
    · exact ih later

end Search
end PosixC.Guessing.Binary
