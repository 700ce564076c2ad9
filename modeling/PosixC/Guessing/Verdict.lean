import PosixC.Guessing.Game

/-! The verdict of a guessing game.

The game derives its verdict from the number of tries, and it compares the
answers after they have become `int`s.
-/

set_option autoImplicit false

namespace PosixC.Guessing

open Foundation

section Observations

def asked (events : List Event) : List (Nat × Int) :=
  events.filterMap fun
    | .asked index answer => some (index, answer)
    | _ => none

def isAsked : Event → Bool
  | .asked _ _ => true
  | _ => false

def calls (events : List Event) : List Event :=
  events.filter fun
    | .asked _ _ | .notified _ _ => true
    | _ => false

structure Verdict (length : Nat) (number : Int) (seen : Int → Int) (events : List Event) (returned : Nat) : Prop where
  correct : .correct ∈ events ↔ ∃ call ∈ asked events, seen call.2 = number
  failed : .failed ∈ events ↔ ∀ call ∈ asked events, seen call.2 ≠ number
  bounded : (asked events).length ≤ 100
  returned : returned = ((asked events).findIdx? fun call => seen call.2 = number).elim 100 (· + 1)
  rotation : (asked events).map Prod.fst = (List.range (asked events).length).map (· % length)
  notified : calls events = (asked events).flatMap fun call =>
    .asked call.1 call.2 ::
      if seen call.2 = number then [] else [.notified call.1 (signOf number (seen call.2))]

theorem flatMap_pieces {α β : Type} {mark : β → Bool} {first : α → β} {f g : α → List β} (marked : ∀ x, mark (first x))
    (plain : ∀ x, ∀ y ∈ f x, ¬ mark y) (plain' : ∀ x, ∀ y ∈ g x, ¬ mark y) {xs : List α}
    (same : (xs.flatMap fun x => first x :: f x) = xs.flatMap fun x => first x :: g x) : ∀ x ∈ xs, f x = g x := by
  induction xs with
  | nil => exact fun x member => absurd member List.not_mem_nil
  | cons x xs ih =>
    simp only [List.flatMap_cons, List.cons_append, List.cons.injEq, true_and] at same
    have stop : ∀ h : α → List β, (xs.flatMap fun x => first x :: h x).takeWhile (fun y => !mark y) = [] := by
      intro h
      cases xs with
      | nil => rfl
      | cons x xs => rw [List.flatMap_cons, List.cons_append, List.takeWhile_cons_of_neg (by simp [marked])]
    have heads := congrArg (List.takeWhile fun y => !mark y) same
    rw [List.takeWhile_append_of_pos (by simpa using plain x), stop,
      List.takeWhile_append_of_pos (by simpa using plain' x), stop, List.append_nil, List.append_nil] at heads
    rw [heads, List.append_cancel_left_eq] at same
    intro y member
    rcases List.mem_cons.mp member with rfl | later
    · exact heads
    · exact ih same y later

end Observations

section Judged

variable {World : Type} {strategies : Strategies World} {number : Int} {seen : Int → Int} {world : World}

/-- The game reads the answer to the try `k` well: it compares with the number
as it is seen, and it is not a correct one at the last try. -/
structure Judged (number : Int) (seen : Int → Int) (k : Nat) (answer : Int) : Prop where
  below : toInt answer < number ↔ seen answer < number
  hit : toInt answer = number ↔ seen answer = number
  last : k = 99 → seen answer ≠ number

def Fair (strategies : Strategies World) (number : Int) (seen : Int → Int) (world : World) : Prop :=
  ∀ k < 100, (∀ j < k, seen (answerAt strategies number seen world j) ≠ number) →
    Judged number seen k (answerAt strategies number seen world k)

@[simp] theorem asked_gameEvents (count : Nat) : asked (gameEvents strategies number world count) =
    (List.range count).map fun k => (k % strategies.length, answerAt strategies number toInt world k) := by
  have one : ∀ k, asked (tryEvents strategies number world k) =
      [(k % strategies.length, answerAt strategies number toInt world k)] := by
    intro k
    simp only [tryEvents]
    split <;> rfl
  have tries : asked ((List.range count).flatMap (tryEvents strategies number world)) =
      (List.range count).map fun k => (k % strategies.length, answerAt strategies number toInt world k) := by
    calc asked ((List.range count).flatMap (tryEvents strategies number world))
        = (List.range count).flatMap fun k => asked (tryEvents strategies number world k) := List.filterMap_flatMap
      _ = _ := by
        simp only [one]
        exact List.flatMap_pure_eq_map _ _
  rw [← tries]
  by_cases all : count ≥ 100 <;> simp [gameEvents, asked, all]

def told (strategies : Strategies World) (number : Int) (seen : Int → Int) (k : Nat) (answer : Int) : List Event :=
  if seen answer = number then [] else [.notified (k % strategies.length) (signOf number (seen answer))]

theorem calls_gameEvents (count : Nat) : calls (gameEvents strategies number world count) =
    (List.range count).flatMap fun k =>
      .asked (k % strategies.length) (answerAt strategies number toInt world k) ::
        told strategies number toInt k (answerAt strategies number toInt world k) := by
  have one : ∀ k, calls (tryEvents strategies number world k) =
      .asked (k % strategies.length) (answerAt strategies number toInt world k) ::
        told strategies number toInt k (answerAt strategies number toInt world k) := by
    intro k
    simp only [tryEvents, told]
    split <;> simp_all [calls]
  have tries : calls ((List.range count).flatMap (tryEvents strategies number world)) =
      (List.range count).flatMap fun k => calls (tryEvents strategies number world k) :=
    List.filter_flatMap
  simp only [← one, ← tries]
  by_cases all : count ≥ 100 <;> simp [gameEvents, calls, all]

theorem correct_mem_gameEvents (count : Nat) : .correct ∈ gameEvents strategies number world count ↔
    ∃ k < count, toInt (answerAt strategies number toInt world k) = number := by
  have one : ∀ k, .correct ∈ tryEvents strategies number world k ↔
      toInt (answerAt strategies number toInt world k) = number := by
    intro k
    simp only [tryEvents]
    split <;> simp_all
  by_cases all : count ≥ 100 <;> simp [gameEvents, one, all]

theorem failed_mem_gameEvents (count : Nat) : .failed ∈ gameEvents strategies number world count ↔ 100 ≤ count := by
  have one : ∀ k, .failed ∉ tryEvents strategies number world k := by
    intro k
    simp only [tryEvents]
    split <;> simp
  by_cases all : count ≥ 100 <;> simp [gameEvents, one, all]

theorem told_eq_iff (k : Nat) (answer : Int) :
    told strategies number toInt k answer = told strategies number seen k answer ↔
      (toInt answer < number ↔ seen answer < number) ∧ (toInt answer = number ↔ seen answer = number) := by
  unfold told
  by_cases hit : toInt answer = number <;> by_cases same : seen answer = number
  · simp [hit, same]
  · simp [hit, same]
  · simp [hit, same]
  · simp only [hit, same, if_false, iff_self, and_true, List.cons.injEq, Event.notified.injEq, true_and, signOf]
    by_cases below : toInt answer < number <;> by_cases below' : seen answer < number <;> simp [below, below']

/-- A strategy knows of its past only what it has been told. -/
theorem answerAt_congr {k : Nat} (alike : ∀ j < k,
    told strategies number toInt j (answerAt strategies number toInt world j) =
      told strategies number seen j (answerAt strategies number toInt world j)) :
    answerAt strategies number seen world k = answerAt strategies number toInt world k := by
  have worlds : worldAt strategies number seen world k = worldAt strategies number toInt world k := by
    induction k with
    | zero => rfl
    | succ k ih =>
      have before := ih fun j below => alike j (Nat.lt_succ_of_lt below)
      have below := (told_eq_iff k _).mp (alike k (Nat.lt_succ_self k)) |>.1
      simp only [answerAt] at below
      simp only [worldAt, before, signOf, below]
  rw [answerAt, worlds, answerAt]

theorem calls_told_iff (count : Nat) :
    (calls (gameEvents strategies number world count) =
      (asked (gameEvents strategies number world count)).flatMap fun call =>
        .asked call.1 call.2 ::
          if seen call.2 = number then [] else [.notified call.1 (signOf number (seen call.2))]) ↔
      ∀ k < count, told strategies number toInt k (answerAt strategies number toInt world k) =
        told strategies number seen k (answerAt strategies number toInt world k) := by
  rw [calls_gameEvents, asked_gameEvents, List.flatMap_map]
  have plain : ∀ seen k, ∀ event ∈ told strategies number seen k (answerAt strategies number toInt world k),
      ¬ isAsked event := by
    intro seen k event member
    unfold told at member
    split at member
    · cases member
    · rw [List.mem_singleton.mp member]
      exact Bool.false_ne_true
  constructor
  · intro same k below
    exact flatMap_pieces (fun _ => rfl) (plain toInt) (plain seen) same k (List.mem_range.mpr below)
  · intro same
    apply List.flatMap_congr
    intro k member
    rw [same k (List.mem_range.mp member)]
    rfl

theorem verdict_tries {count : Nat} (made : Made strategies number world count) :
    Verdict strategies.length number seen (gameEvents strategies number world count) count ↔
      ((∃ k < count, toInt (answerAt strategies number toInt world k) = number) ↔
        ∃ k < count, seen (answerAt strategies number toInt world k) = number) ∧
      (100 ≤ count ↔ ∀ k < count, seen (answerAt strategies number toInt world k) ≠ number) ∧
      count = ((List.range count).findIdx? fun k =>
        seen (answerAt strategies number toInt world k) = number).elim 100 (· + 1) ∧
      ∀ k < count, told strategies number toInt k (answerAt strategies number toInt world k) =
        told strategies number seen k (answerAt strategies number toInt world k) := by
  constructor
  · rintro ⟨correct, failed, _, returned, _, notified⟩
    refine ⟨?_, ?_, ?_, calls_told_iff count |>.mp notified⟩
    · simpa [correct_mem_gameEvents] using correct
    · simpa [failed_mem_gameEvents] using failed
    · simpa [Function.comp_def] using returned
  · rintro ⟨correct, failed, returned, notified⟩
    refine ⟨?_, ?_, ?_, ?_, ?_, calls_told_iff count |>.mpr notified⟩
    · simpa [correct_mem_gameEvents] using correct
    · simpa [failed_mem_gameEvents] using failed
    · simpa using made.bounded
    · simpa [Function.comp_def] using returned
    · simp [Function.comp_def]

theorem Fair.judged {count : Nat} (fair : Fair strategies number seen world) (made : Made strategies number world count)
    {k : Nat} (below : k < count) : Judged number seen k (answerAt strategies number toInt world k) := by
  induction k using Nat.strong_induction_on with
  | _ k ih =>
    have alike : ∀ j < k, told strategies number toInt j (answerAt strategies number toInt world j) =
        told strategies number seen j (answerAt strategies number toInt world j) := by
      intro j earlier
      have judged := ih j earlier (earlier.trans below)
      exact (told_eq_iff j _).mpr ⟨judged.below, judged.hit⟩
    have judged := fair k (by have := made.bounded; omega) fun j earlier => by
      rw [answerAt_congr fun i first => alike i (first.trans earlier)]
      exact mt (ih j earlier (earlier.trans below)).hit.mpr (made.misses j (by omega))
    rwa [answerAt_congr alike] at judged

theorem findIdx?_range {p : Nat → Prop} [DecidablePred p] {count : Nat} (positive : 0 < count)
    (missed : ∀ k, k + 1 < count → ¬ p k) :
    ((List.range count).findIdx? fun k => p k) = if p (count - 1) then some (count - 1) else none := by
  by_cases hit : p (count - 1)
  · rw [if_pos hit]
    simp only [List.findIdx?_eq_some_iff_getElem, List.length_range, List.getElem_range, decide_eq_true_eq]
    exact ⟨by omega, hit, fun j earlier => missed j (by omega)⟩
  · rw [if_neg hit]
    simp only [List.findIdx?_eq_none_iff, List.mem_range, decide_eq_false_iff_not]
    intro k below
    by_cases last : k = count - 1
    · exact last ▸ hit
    · exact missed k (by omega)

theorem Fair.verdict {count : Nat} (fair : Fair strategies number seen world)
    (made : Made strategies number world count) :
    Verdict strategies.length number seen (gameEvents strategies number world count) count := by
  have judged := fun k (below : k < count) => fair.judged made below
  have missed : ∀ k, k + 1 < count → seen (answerAt strategies number toInt world k) ≠ number :=
    fun k below => mt (judged k (by omega)).hit.mpr (made.misses k below)
  have positive := made.positive
  refine (verdict_tries made).mpr ⟨?_, ⟨fun all k below => ?_, fun none => ?_⟩, ?_, fun k below => ?_⟩
  · exact exists_congr fun k => and_congr_right fun below => (judged k below).hit
  · by_cases last : k = 99
    · exact (judged k below).last last
    · have bounded := made.bounded
      exact missed k (by omega)
  · rcases made.last with hit | all
    · exact absurd ((judged (count - 1) (by omega)).hit.mp hit) (none _ (by omega))
    · exact all.ge
  · rw [findIdx?_range positive missed]
    split
    · rw [Option.elim_some]
      omega
    · next miss => exact made.last.resolve_left (mt (judged (count - 1) (by omega)).hit.mp miss)
  · exact (told_eq_iff k _).mpr ⟨(judged k below).below, (judged k below).hit⟩

theorem fair_of_verdict {count : Nat} (made : Made strategies number world count)
    (verdict : Verdict strategies.length number seen (gameEvents strategies number world count) count) :
    Fair strategies number seen world := by
  obtain ⟨_, failed, _, notified⟩ := (verdict_tries made).mp verdict
  intro k bound misses
  -- The game has not stopped before a try without a correct answer before it.
  have reached : k < count := by
    by_contra beyond
    have positive := made.positive
    rcases made.last with hit | all
    · have alike := notified (count - 1) (by omega)
      apply misses (count - 1) (by omega)
      rw [answerAt_congr fun j earlier => notified j (by omega)]
      exact ((told_eq_iff _ _).mp alike).2.mp hit
    · omega
  rw [answerAt_congr fun j earlier => notified j (earlier.trans reached)]
  obtain ⟨below, hit⟩ := (told_eq_iff k _).mp (notified k reached)
  exact ⟨below, hit, fun last => failed.mp (by omega) k reached⟩

/-- The verdict is right exactly when the first correct answer is not the last one
and the answers compare as they should after they have become `int`s. -/
theorem verdict_iff {rand min max : Int} {events : List Event} {returned : Nat}
    (played : gameloop strategies rand min max world = some (events, returned)) :
    Verdict strategies.length (numberToGuess rand min max) seen events returned ↔
      Fair strategies (numberToGuess rand min max) seen world := by
  obtain ⟨made, rfl⟩ := gameloop_spec played
  constructor
  · intro verdict
    exact fair_of_verdict made verdict
  · intro fair
    exact fair.verdict made

def linear : Strategies Linear.Guess where
  length := 1
  nonempty := Nat.zero_lt_one
  guess _ lib := (Linear.guess lib, lib)
  notify _ lib sign := Linear.notify lib sign

theorem verdict_iff_second :
    Verdict 1 0 id [.number 0, .asked 0 100, .current 100, .notified 0 (-1), .asked 0 0, .current 0, .correct] 2 := by
  have played : gameloop linear 100 0 100 ⟨0, 100, false⟩ = some
      ([.number 0, .asked 0 100, .current 100, .notified 0 (-1), .asked 0 0, .current 0, .correct], 2) := rfl
  apply (verdict_iff played).mpr
  intro k _ misses
  match k with
  | 0 => exact ⟨by decide, by decide, by decide⟩
  | 1 => exact ⟨by decide, by decide, by decide⟩
  | k + 2 => exact absurd (by decide) (misses 1 (by omega))

/-- The linear strategy guesses 49 in the hundredth try, which is reported as correct
and as failed. -/
theorem verdict_wrong : ∃ events, gameloop linear 49 0 100 ⟨0, 100, false⟩ = some (events, 100) ∧
    ¬ Verdict 1 49 id events 100 := by
  have both : (gameloop linear 49 0 100 ⟨0, 100, false⟩).any fun game =>
      decide (.correct ∈ game.1 ∧ .failed ∈ game.1 ∧ game.2 = 100) := by decide +kernel
  obtain ⟨⟨events, returned⟩, same, both⟩ := (Option.any_eq_true _ _).mp both
  obtain ⟨correct, failed, rfl⟩ := of_decide_eq_true both
  refine ⟨events, same, fun verdict => ?_⟩
  obtain ⟨call, member, hit⟩ := verdict.correct.mp correct
  exact verdict.failed.mp failed call member hit

end Judged
end PosixC.Guessing
