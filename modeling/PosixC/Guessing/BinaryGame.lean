import PosixC.Guessing.Binary
import PosixC.Guessing.Verdict

/-! The guessing game with the binary strategy.

Once the number is known to be larger than the lower bound, the strategy may keep
a bound that is a power of two away from the other one.
-/

set_option autoImplicit false

namespace PosixC.Guessing.Binary

open Foundation

def binary : Strategies Guess where
  length := 1
  nonempty := Nat.zero_lt_one
  guess _ lib := (guess lib, lib)
  notify _ lib sign := (notify lib sign).getD lib

theorem notify_signOf (lib : Guess) (number guess : Int) : (notify lib (signOf number guess)).isSome := by
  by_cases below : guess < number <;> simp [signOf, below, notify]

/-- The sum of the bounds is an `int`; another sum is undefined. -/
def SumFits (lib : Guess) : Prop := toInt (toInt lib.min + toInt lib.max) = toInt lib.min + toInt lib.max

instance (lib : Guess) : Decidable (SumFits lib) := inferInstanceAs (Decidable (_ = _))

section Game

variable {number min max : Int}

def libAt (number min max : Int) (k : Nat) : Guess := worldAt binary number toInt ⟨min, max⟩ k

theorem toInt_guess (lib : Guess) : toInt (guess lib) = guess lib := by
  have range := toInt_range (toInt lib.min + toInt lib.max)
  have halved : ((toInt (toInt lib.min + toInt lib.max)).tdiv 2).natAbs =
      (toInt (toInt lib.min + toInt lib.max)).natAbs / 2 := Int.natAbs_tdiv _ 2
  simp only [guess, midpoint]
  apply toInt_exact <;> simp only [intMax] at * <;> omega

theorem libAt_succ (k : Nat) : libAt number min max (k + 1) =
    (notify (libAt number min max k) (signOf number (guess (libAt number min max k)))).getD
      (libAt number min max k) := by
  rw [← toInt_guess]
  rfl

theorem libAt_below {k : Nat} (below : guess (libAt number min max k) < number) :
    libAt number min max (k + 1) = ⟨guess (libAt number min max k), (libAt number min max k).max⟩ := by
  rw [libAt_succ, signOf, if_pos below]
  rfl

theorem libAt_above {k : Nat} (above : number < guess (libAt number min max k)) :
    libAt number min max (k + 1) = ⟨(libAt number min max k).min, guess (libAt number min max k)⟩ := by
  rw [libAt_succ, signOf, if_neg above.not_gt]
  rfl

/-- So near that `left` tries are enough. While the lower bound may be the number, one
number less is allowed. -/
def Near (number : Int) (left : Nat) (lib : Guess) : Prop :=
  lib.max - lib.min < 2 ^ left ∨ lib.min < number ∧ lib.max - lib.min ≤ 2 ^ left

theorem Near.below {left : Nat} {lo hi : Int} (near : Near number (left + 1) ⟨lo, hi⟩)
    (below : (lo + hi) / 2 < number) : Near number left ⟨(lo + hi) / 2, hi⟩ := by
  unfold Near at *
  rw [pow_succ] at near
  dsimp only at near ⊢
  omega

theorem Near.above {left : Nat} {lo hi : Int} (near : Near number (left + 1) ⟨lo, hi⟩) :
    Near number left ⟨lo, (lo + hi) / 2⟩ := by
  unfold Near at *
  rw [pow_succ] at near
  dsimp only at near ⊢
  omega

theorem searching_at (positive : 0 ≤ min) (low : min ≤ number) (high : number < max) (room : min + max ≤ intMax)
    (fits : Fits min max number) (k left : Nat) (width : max - min < 2 ^ (left + k))
    (misses : ∀ j < k, guess (libAt number min max j) ≠ number) :
    Searching min max number (libAt number min max k).min (libAt number min max k).max ∧
      Near number left (libAt number min max k) := by
  induction k generalizing left with
  | zero =>
    exact ⟨⟨le_rfl, le_rfl, ⟨low, high⟩, room, Or.inr ⟨rfl, 0, (approach_zero min max).symm⟩⟩, Or.inl width⟩
  | succ k ih =>
    obtain ⟨searching, near⟩ := ih (left + 1) (by rwa [Nat.add_right_comm]) fun j below => misses j (by omega)
    have guessed := searching.guess_eq positive
    rcases lt_or_gt_of_ne (misses k (Nat.lt_succ_self k)) with below | above
    · rw [libAt_below below]
      refine ⟨searching.below positive fits below, ?_⟩
      rw [guessed] at below ⊢
      exact near.below below
    · rw [libAt_above above]
      refine ⟨searching.above positive above, ?_⟩
      rw [guessed]
      exact near.above

theorem Searching.sumFits {lib : Guess} (positive : 0 ≤ min) (searching : Searching min max number lib.min lib.max) :
    SumFits lib := by
  obtain ⟨above, below, between, room, _⟩ := searching
  have lower : toInt lib.min = lib.min := toInt_exact (by omega) (by omega)
  have upper : toInt lib.max = lib.max := toInt_exact (by omega) (by omega)
  rw [SumFits, lower, upper]
  exact toInt_exact (by omega) room

theorem toInt_width (positive : 0 ≤ min) (ordered : min < max) (room : min + max ≤ intMax) :
    toInt (max - min) = max - min := by
  apply toInt_exact <;> simp only [intMax] at * <;> omega

theorem width_lt_two_pow (ordered : min < max) : max - min < 2 ^ (Nat.log2 (max - min).toNat + 1) := by
  have bound := @Nat.lt_log2_self (max - min).toNat
  zify at bound
  omega

theorem log2_width_lt (positive : 0 ≤ min) (ordered : min < max) (room : min + max ≤ intMax) :
    Nat.log2 (max - min).toNat + 1 < 100 := by
  have small : Nat.log2 (max - min).toNat < 31 :=
    (Nat.log2_lt (by omega)).mpr (by simp only [intMax] at room; omega)
  omega

theorem numberToGuess_range {rand : Int} (random : 0 ≤ rand) (positive : 0 ≤ min) (ordered : min < max)
    (room : min + max ≤ intMax) : min ≤ numberToGuess rand min max ∧ numberToGuess rand min max < max := by
  have width := toInt_width positive ordered room
  have low := Int.emod_nonneg rand (by omega : max - min ≠ 0)
  have high := Int.emod_lt_of_pos rand (by omega : 0 < max - min)
  rw [numberToGuess, width, Int.tmod_eq_emod_of_nonneg random,
    toInt_exact (by omega) (by simp only [intMax] at *; omega)]
  omega

/-- The game stops in time when no sum overflows. -/
theorem found_in_time (positive : 0 ≤ min) (low : min ≤ number) (high : number < max) (room : min + max ≤ intMax)
    (fits : Fits min max number) {count : Nat} (made : Made binary number ⟨min, max⟩ count) :
    count ≤ Nat.log2 (max - min).toNat + 1 := by
  by_contra beyond
  obtain ⟨searching, near⟩ := searching_at positive low high room fits (Nat.log2 (max - min).toNat + 1) 0
    (by rw [Nat.zero_add]; exact width_lt_two_pow (by omega)) fun j below => by
      rw [← toInt_guess]
      exact made.misses j (by omega)
  have between := searching.between
  simp only [Near, pow_zero] at near
  omega

theorem guess_exact {lo hi : Int} (positive : 0 ≤ lo) (ordered : lo ≤ hi) (high : hi ≤ intMax)
    (fits : SumFits ⟨lo, hi⟩) :
    lo + hi ≤ intMax ∧ guess ⟨lo, hi⟩ = (lo + hi) / 2 := by
  have low : toInt lo = lo := toInt_exact (by omega) (by omega)
  have same : toInt hi = hi := toInt_exact (by omega) high
  have room : lo + hi ≤ intMax := by
    have range := (toInt_range (lo + hi)).2
    simp only [SumFits, low, same] at fits
    rwa [fits] at range
  exact ⟨room, midpoint_exact positive ordered room⟩

theorem approach_at (positive : 0 ≤ min) (ordered : min ≤ max) (high : max ≤ intMax) {returned : Nat}
    (started : 0 < returned) (fit : ∀ k < returned, SumFits (libAt number min max k))
    (last : guess (libAt number min max (returned - 1)) = number) {k : Nat} (below : approach min max k < number) :
    k < returned ∧ libAt number min max k = ⟨approach min max k, max⟩ := by
  induction k with
  | zero => exact ⟨started, by rw [approach_zero]; rfl⟩
  | succ k ih =>
    have mono := approach_mono ordered (Nat.le_succ k)
    obtain ⟨reached, same⟩ := ih (mono.trans_lt below)
    have between := approach_between ordered k
    have fitted := fit k reached
    rw [same] at fitted
    have guessed : guess (libAt number min max k) = approach min max (k + 1) := by
      rw [same, (guess_exact (positive.trans between.1) between.2 high fitted).2, approach_succ]
    have smaller : guess (libAt number min max k) < number := by rwa [guessed]
    refine ⟨?_, by rw [libAt_below smaller, guessed, same]⟩
    by_contra beyond
    rw [show returned - 1 = k by omega] at last
    exact smaller.ne last

/-- The game with the binary strategy is logarithmic, and defined, exactly when no lower
bound below the number overflows with the upper bound. -/
theorem binary_game_iff {rand : Int} (random : 0 ≤ rand) (positive : 0 ≤ min) (ordered : min < max)
    (room : min + max ≤ intMax) {allocates : Bool} {lib : Guess} (created : init allocates min max = some lib) :
    ∃ events returned, gameloop binary rand min max lib = some (events, returned) ∧
      (((∀ k < returned, SumFits (worldAt binary (numberToGuess rand min max) toInt lib k) ∧
          (worldAt binary (numberToGuess rand min max) toInt lib k).min ≤ numberToGuess rand min max ∧
          numberToGuess rand min max < (worldAt binary (numberToGuess rand min max) toInt lib k).max) ∧
        .correct ∈ events ∧ .failed ∉ events ∧ returned ≤ Nat.log2 (max - min).toNat + 1) ↔
      ∀ k, approach min max k < numberToGuess rand min max → approach min max k + max ≤ intMax) := by
  obtain rfl := eq_of_init created
  have width := toInt_width positive ordered room
  obtain ⟨events, returned, played⟩ := gameloop_plays (by rw [width]; omega)
  refine ⟨events, returned, played, ?_⟩
  obtain ⟨low, high⟩ := numberToGuess_range random positive ordered room
  obtain ⟨made, rfl⟩ := gameloop_spec played
  generalize numberToGuess rand min max = number at *
  have few := log2_width_lt positive ordered room
  have started := made.positive
  have hit : returned ≠ 100 → guess (libAt number min max (returned - 1)) = number := by
    intro short
    rw [← toInt_guess]
    exact made.last.resolve_right short
  rw [correct_mem_gameEvents, failed_mem_gameEvents]
  constructor
  · rintro ⟨defined, _, _, bound⟩ k below
    -- As no sum has overflowed so far, this bound is one that the game has come to.
    obtain ⟨reached, same⟩ := approach_at positive ordered.le (by omega) started (fun j below => (defined j below).1)
      (hit (by omega)) below
    have between := approach_between ordered.le k
    have fitted : SumFits (libAt number min max k) := (defined k reached).1
    rw [same] at fitted
    exact (guess_exact (positive.trans between.1) between.2 (by omega) fitted).1
  · intro fits
    have bound := found_in_time positive low high room fits made
    refine ⟨fun k below => ?_, ⟨returned - 1, by omega, ?_⟩, by omega, bound⟩
    · obtain ⟨searching, _⟩ := searching_at positive low high room fits k (Nat.log2 (max - min).toNat + 1)
        ((width_lt_two_pow ordered).trans_le (pow_le_pow_right₀ (by decide) (Nat.le_add_right _ k))) fun j earlier => by
          rw [← toInt_guess]
          exact made.misses j (by omega)
      exact ⟨searching.sumFits positive, searching.between⟩
    · exact made.last.resolve_right (by omega)

theorem binary_game_middle : ∃ events returned, gameloop binary 42 0 100 ⟨0, 100⟩ = some (events, returned) ∧
    .correct ∈ events ∧ .failed ∉ events ∧ returned ≤ 7 := by
  obtain ⟨events, returned, played, found⟩ := binary_game_iff (show (0 : Int) ≤ 42 by decide) (by decide) (by decide)
    (by decide) (show init true 0 100 = _ from rfl)
  have number : numberToGuess 42 0 100 = 42 := rfl
  have small : (42 : Int) + 100 ≤ intMax := by decide
  exact ⟨events, returned, played, (found.mpr fun k below => by omega).2⟩

/-- With the largest range and its largest number, the second sum overflows, and the
number is not found. -/
theorem binary_game_overflow : ∃ events, gameloop binary 2147483646 0 2147483647 ⟨0, 2147483647⟩ = some (events, 100) ∧
    .correct ∉ events ∧ .failed ∈ events ∧ Nat.log2 2147483647 + 1 < 100 := by
  have overflows : (gameloop binary 2147483646 0 2147483647 ⟨0, 2147483647⟩).any fun game =>
      decide (.correct ∉ game.1 ∧ .failed ∈ game.1 ∧ game.2 = 100) := by decide +kernel
  obtain ⟨⟨events, returned⟩, same, missed⟩ := (Option.any_eq_true _ _).mp overflows
  obtain ⟨missed, failed, rfl⟩ := of_decide_eq_true missed
  exact ⟨events, same, missed, failed, by decide⟩

end Game
end PosixC.Guessing.Binary
