import PosixC.Guessing.Linear

/-! The guessing game of hw02/utils.c.

The strategies are asked in turn until one of them guesses the number or a
hundred guesses have been made. What they know and how they answer is theirs;
the game sees their answers, converted to `int`, and tells them a sign.
-/

set_option autoImplicit false

namespace PosixC.Guessing

open Foundation

/-- The loaded strategies with everything they remember. A guess is a `long`. -/
structure Strategies (World : Type) where
  length : Nat
  nonempty : 0 < length
  guess : Nat → World → Int × World
  notify : Nat → World → Int → World

inductive Event where
  | number (value : Int)
  | asked (index : Nat) (answer : Int)
  | current (value : Int)
  | notified (index : Nat) (sign : Int)
  | correct
  | failed
  deriving DecidableEq, Repr

section Game

variable {World : Type} (strategies : Strategies World) (number : Int)

def signOf (guess : Int) : Int := if guess < number then 1 else -1

/-- The loop with `left` tries before `rotating_counter` reaches 100. -/
def tries : Nat → Nat → World → List Event × Nat
  | 0, rotatingCounter, _ => ([], rotatingCounter)
  | left + 1, rotatingCounter, world =>
      let index := rotatingCounter % strategies.length
      let (answer, world) := strategies.guess index world
      let currentGuess := toInt answer
      let asked := [.asked index answer, .current currentGuess]
      if currentGuess ≠ number then
        let sign := signOf number currentGuess
        let (events, counter) := tries left (rotatingCounter + 1) (strategies.notify index world sign)
        (asked ++ .notified index sign :: events, counter)
      else (asked ++ [.correct], rotatingCounter + 1)

/-- `rand() % (max - min) + min`, for the value of `rand`. -/
def numberToGuess (rand min max : Int) : Int := toInt (rand.tmod (toInt (max - min)) + min)

/-- The events and the result; a division by zero has none. -/
def gameloop (rand min max : Int) (world : World) : Option (List Event × Nat) :=
  if toInt (max - min) = 0 then none
  else
    let number := numberToGuess rand min max
    let (events, rotatingCounter) := tries strategies number 100 0 world
    some (.number number :: events ++ if rotatingCounter ≥ 100 then [.failed] else [], rotatingCounter)

end Game

section Rounds

variable {World : Type} (strategies : Strategies World) (number : Int) (seen : Int → Int) (world : World)

def worldAt : Nat → World
  | 0 => world
  | k + 1 =>
      let asked := strategies.guess (k % strategies.length) (worldAt k)
      strategies.notify (k % strategies.length) asked.2 (signOf number (seen asked.1))

def answerAt (k : Nat) : Int :=
  (strategies.guess (k % strategies.length) (worldAt strategies number seen world k)).1

def tryEvents (k : Nat) : List Event :=
  let index := k % strategies.length
  let answer := answerAt strategies number toInt world k
  [.asked index answer, .current (toInt answer)] ++
    if toInt answer ≠ number then [.notified index (signOf number (toInt answer))] else [.correct]

def gameEvents (count : Nat) : List Event :=
  .number number :: (List.range count).flatMap (tryEvents strategies number world) ++
    if count ≥ 100 then [.failed] else []

/-- The number of tries the game makes: up to the first hit, or a hundred. -/
structure Made (count : Nat) : Prop where
  positive : 0 < count
  bounded : count ≤ 100
  misses : ∀ k, k + 1 < count → toInt (answerAt strategies number toInt world k) ≠ number
  last : toInt (answerAt strategies number toInt world (count - 1)) = number ∨ count = 100

variable {strategies number world}

theorem tries_miss (left : Nat) {counter : Nat}
    (miss : toInt (answerAt strategies number toInt world counter) ≠ number) :
    tries strategies number (left + 1) counter (worldAt strategies number toInt world counter) =
      (tryEvents strategies number world counter ++
          (tries strategies number left (counter + 1) (worldAt strategies number toInt world (counter + 1))).1,
        (tries strategies number left (counter + 1) (worldAt strategies number toInt world (counter + 1))).2) := by
  simp only [tryEvents, if_pos miss]
  simp only [answerAt] at miss ⊢
  simp only [tries, if_pos miss, worldAt, List.append_assoc, List.singleton_append]

theorem tries_hit (left : Nat) {counter : Nat}
    (hit : toInt (answerAt strategies number toInt world counter) = number) :
    tries strategies number (left + 1) counter (worldAt strategies number toInt world counter) =
      (tryEvents strategies number world counter, counter + 1) := by
  simp only [tryEvents, hit, ne_eq, not_true_eq_false, if_false]
  simp only [answerAt] at hit ⊢
  simp only [tries, hit, ne_eq, not_true_eq_false, if_false]

theorem tries_spec (left counter : Nat) : ∃ made,
    tries strategies number (left + 1) counter (worldAt strategies number toInt world counter) =
      ((List.range' counter (made + 1)).flatMap (tryEvents strategies number world), counter + made + 1) ∧
    made ≤ left ∧ (∀ k < made, toInt (answerAt strategies number toInt world (counter + k)) ≠ number) ∧
    (toInt (answerAt strategies number toInt world (counter + made)) = number ∨ made = left) := by
  induction left generalizing counter with
  | zero =>
    refine ⟨0, ?_, le_rfl, fun k below => absurd below (Nat.not_lt_zero k), Or.inr rfl⟩
    by_cases hit : toInt (answerAt strategies number toInt world counter) = number
    · rw [tries_hit 0 hit]
      simp
    · rw [tries_miss 0 hit]
      simp [tries]
  | succ left ih =>
    by_cases hit : toInt (answerAt strategies number toInt world counter) = number
    · refine ⟨0, ?_, Nat.zero_le _, fun k below => absurd below (Nat.not_lt_zero k), Or.inl hit⟩
      rw [tries_hit _ hit]
      simp
    · obtain ⟨made, same, bound, misses, last⟩ := ih (counter + 1)
      refine ⟨made + 1, ?_, Nat.succ_le_succ bound, fun k below => ?_, ?_⟩
      · rw [tries_miss _ hit, same, List.range'_succ, List.flatMap_cons]
        exact Prod.ext rfl (by dsimp only; omega)
      · cases k with
        | zero => exact hit
        | succ k => exact (show counter + (k + 1) = counter + 1 + k by omega) ▸ misses k (by omega)
      · rw [show counter + (made + 1) = counter + 1 + made by omega]
        exact last.imp_right (congrArg Nat.succ)

/-- What one game does, try by try. -/
theorem gameloop_spec {rand min max : Int} {events : List Event} {returned : Nat}
    (played : gameloop strategies rand min max world = some (events, returned)) :
    Made strategies (numberToGuess rand min max) world returned ∧
      events = gameEvents strategies (numberToGuess rand min max) world returned := by
  simp only [gameloop, Option.ite_none_left_eq_some, Option.some.injEq, Prod.mk.injEq] at played
  obtain ⟨made, same, bound, misses, last⟩ :=
    @tries_spec World strategies (numberToGuess rand min max) world 99 0
  simp only [worldAt, Nat.zero_add, ← List.range_eq_range'] at same misses last
  rw [same] at played
  obtain ⟨_, rfl, rfl⟩ := played
  refine ⟨⟨Nat.succ_pos _, by omega, fun k below => misses k (by omega), ?_⟩, rfl⟩
  exact last.imp_right fun all => by omega

theorem gameloop_plays {rand min max : Int} (nonzero : toInt (max - min) ≠ 0) :
    ∃ events returned, gameloop strategies rand min max world = some (events, returned) :=
  ⟨_, _, if_neg nonzero⟩

end Rounds
end PosixC.Guessing
