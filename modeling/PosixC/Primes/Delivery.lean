import Mathlib.Algebra.BigOperators.Fin
import PosixC.Primes.Shutdown

/-! What the producers put into the list and the consumers take out of it.

The counters balance with the list in every state. Whether anything is left when
`main` has joined everybody depends on the last consumer to give up, which does
not look at the list again.
-/

set_option autoImplicit false

namespace PosixC.Primes

open Foundation Foundation.Monitor

variable {producers consumers : Nat} {allocates : Fin producers → Nat → Bool} {state after : World producers consumers}
  {action : Action (Role producers consumers) Unit} {notes : List (Role producers consumers × Empty)}

section Effects

inductive Turn (state after : World producers consumers) (action : Action (Role producers consumers) Unit)
    (self : Role producers consumers) : Prop where
  | enter : state.threads self = .idle → after.threads self = .running .begin → after.shared = state.shared →
      Turn state after action self
  | wake {cond : Unit} {point : Point producers consumers} : state.threads self = .asleep cond point →
      after.threads self = .woken cond point → after.shared = state.shared → Turn state after action self
  | resume : state.threads self = .woken () .resumed → after.threads self = .running .resumed →
      after.shared = state.shared → Turn state after action self
  | statement {point : Point producers consumers} {chosen : Finset (Role producers consumers)}
      {command : Statement producers consumers} : action = .step self chosen → state.threads self = .running point →
      Does state.shared self point command → command.arrives (after.threads self) →
      after.shared = command.result state.shared → Turn state after action self

theorem turn_of_move (exclusive : Exclusive Holds Parks state)
    (move : Move (primesProgram allocates) state action after notes) {self : Role producers consumers}
    (mover : action.actor = self) : Turn state after action self := by
  subst mover
  obtain ⟨_, _, idle, entered, place, same⟩ | ⟨_, _, asleep, place, same⟩ | ⟨_, _, woken, place, same⟩ |
    ⟨_, _, acts, running, arrives, result⟩ := moves_of_actor move
  · cases entered
    exact .enter idle place same
  · exact .wake asleep place same
  · obtain ⟨_, rfl⟩ := woken ▸ exclusive action.actor
    exact .resume woken place same
  · exact .statement acts running (does_of_next rfl) arrives result

theorem produced_foreign (move : Move (primesProgram allocates) state action after notes) {index : Fin producers}
    (different : .producer index ≠ action.actor) : after.shared.produced index = state.shared.produced index := by
  obtain same | ⟨point, next, written, _, command⟩ := shared_by_actor move
  · rw [same]
  · generalize action.actor = self at different command
    generalize after.shared = shared at command ⊢
    cases does_of_next command with
    | startProducer | count => exact Function.update_of_ne (fun same => different (congrArg Role.producer same)) ..
    | _ => rfl

theorem consumed_foreign (move : Move (primesProgram allocates) state action after notes) {index : Fin consumers}
    (different : .consumer index ≠ action.actor) : after.shared.consumed index = state.shared.consumed index := by
  obtain same | ⟨point, next, written, _, command⟩ := shared_by_actor move
  · rw [same]
  · generalize action.actor = self at different command
    generalize after.shared = shared at command ⊢
    cases does_of_next command with
    | startConsumer | countUp =>
      exact Function.update_of_ne (fun same => different (congrArg Role.consumer same)) ..
    | _ => rfl

theorem exited_move (move : Move (primesProgram allocates) state action after notes) {self : Role producers consumers}
    (exited : state.shared.exited self = true) : after.shared.exited self = true := by
  obtain same | ⟨point, next, written, _, command⟩ := shared_by_actor move
  · rwa [same]
  · generalize action.actor = mover at command
    generalize after.shared = shared at command ⊢
    cases does_of_next command with
    | exit =>
      simp only [leave, Function.update_apply]
      split
      · rfl
      · exact exited
    | _ => exact exited

end Effects

section Balance

def producedAt (counter : Nat) : Thread Unit (Point producers consumers) → Nat
  | .idle | .running .begin => 0
  | .running (.signal _) | .running (.count _) => counter + 1
  | _ => counter

def consumedAt (counter : Nat) : Thread Unit (Point producers consumers) → Nat
  | .idle | .running .begin => 0
  | .running (.release false) | .running (.after false) => counter + 1
  | _ => counter

theorem producedAt_wake (counter : Nat) (thread : Thread Unit (Point producers consumers)) :
    producedAt counter thread.wake = producedAt counter thread := by
  cases thread <;> rfl

theorem consumedAt_wake (counter : Nat) (thread : Thread Unit (Point producers consumers)) :
    consumedAt counter thread.wake = consumedAt counter thread := by
  cases thread <;> rfl

theorem produced_own (exclusive : Exclusive Holds Parks state)
    (move : Move (primesProgram allocates) state action after notes) {index : Fin producers}
    (mover : action.actor = .producer index) :
    producedAt (after.shared.produced index) (after.threads (.producer index)) + state.shared.list.length =
      producedAt (state.shared.produced index) (state.threads (.producer index)) + after.shared.list.length := by
  cases turn_of_move exclusive move mover with
  | enter before place same | wake before place same | resume before place same =>
    rw [before, place, same]
    rfl
  | statement _ running does arrives result =>
    rw [running, result]
    cases does with
    | stay | skip | lockPush | exhausted | exit | pushFails | signal | unlock =>
      rw [arrives]
      rfl
    | startProducer | count =>
      rw [arrives]
      simp [producedAt, Command.result]
    | push =>
      rw [arrives]
      simp only [producedAt, Command.result, List.length_append, List.length_singleton]
      omega

theorem consumed_own (exclusive : Exclusive Holds Parks state)
    (move : Move (primesProgram allocates) state action after notes) {index : Fin consumers}
    (mover : action.actor = .consumer index) :
    consumedAt (after.shared.consumed index) (after.threads (.consumer index)) + after.shared.list.length =
      consumedAt (state.shared.consumed index) (state.threads (.consumer index)) + state.shared.list.length := by
  cases turn_of_move exclusive move mover with
  | enter before place same | wake before place same | resume before place same =>
    rw [before, place, same]
    rfl
  | statement _ running does arrives result =>
    rw [running, result]
    cases does with
    | stay | exit | lock | testEmpty | testFilled | sleep | giveUp | retest | quit | popFails | breakLoop | again =>
      rw [arrives]
      rfl
    | @release _ tmp =>
      rw [arrives]
      cases tmp <;> rfl
    | startConsumer | countUp =>
      rw [arrives]
      simp [consumedAt, Command.result]
    | pop filled =>
      rw [arrives]
      simp only [consumedAt, Command.result, filled, List.length_cons]
      omega

theorem sum_moved {count : Nat} {before now : Fin count → Nat} (index : Fin count)
    (others : ∀ other, other ≠ index → now other = before other) {more less : Nat}
    (moved : now index + less = before index + more) : ∑ i, now i + less = ∑ i, before i + more := by
  have rest : ∑ i ∈ Finset.univ.erase index, now i = ∑ i ∈ Finset.univ.erase index, before i :=
    Finset.sum_congr rfl fun other member => others other (Finset.ne_of_mem_erase member)
  rw [← Finset.add_sum_erase _ now (Finset.mem_univ index),
    ← Finset.add_sum_erase _ before (Finset.mem_univ index), rest]
  omega

def Balanced (state : World producers consumers) : Prop :=
  ∑ index, consumedAt (state.shared.consumed index) (state.threads (.consumer index)) + state.shared.list.length =
    ∑ index, producedAt (state.shared.produced index) (state.threads (.producer index))

theorem producedAt_foreign (move : Move (primesProgram allocates) state action after notes) {index : Fin producers}
    (different : .producer index ≠ action.actor) :
    producedAt (after.shared.produced index) (after.threads (.producer index)) =
      producedAt (state.shared.produced index) (state.threads (.producer index)) := by
  rw [produced_foreign move different]
  exact read_of_foreign (producedAt_wake _) move different

theorem consumedAt_foreign (move : Move (primesProgram allocates) state action after notes) {index : Fin consumers}
    (different : .consumer index ≠ action.actor) :
    consumedAt (after.shared.consumed index) (after.threads (.consumer index)) =
      consumedAt (state.shared.consumed index) (state.threads (.consumer index)) := by
  rw [consumed_foreign move different]
  exact read_of_foreign (consumedAt_wake _) move different

theorem list_of_main (move : Move (primesProgram allocates) state action after notes) (mover : action.actor = .main) :
    after.shared.list = state.shared.list := by
  obtain same | ⟨point, next, written, _, command⟩ := shared_by_actor move
  · rw [same]
  · rw [mover] at command
    generalize after.shared = shared at command ⊢
    cases does_of_next command <;> rfl

theorem balanced_step (exclusive : Exclusive Holds Parks state) (balanced : Balanced state)
    (move : Move (primesProgram allocates) state action after notes) : Balanced after := by
  simp only [Balanced] at balanced ⊢
  cases mover : action.actor with
  | main =>
    rw [list_of_main move mover, Finset.sum_congr rfl fun index _ => consumedAt_foreign move (by simp [mover]),
      Finset.sum_congr rfl fun index _ => producedAt_foreign move (by simp [mover]), balanced]
  | producer index =>
    rw [Finset.sum_congr rfl fun index _ => consumedAt_foreign move (by simp [mover])]
    have moved : ∑ other, producedAt (after.shared.produced other) (after.threads (.producer other)) +
        state.shared.list.length =
        ∑ other, producedAt (state.shared.produced other) (state.threads (.producer other)) +
          after.shared.list.length :=
      sum_moved index (fun other different => producedAt_foreign move (by simpa [mover] using different))
        (produced_own exclusive move mover)
    omega
  | consumer index =>
    rw [Finset.sum_congr rfl fun index _ => producedAt_foreign move (by simp [mover]), ← balanced]
    exact sum_moved index (fun other different => consumedAt_foreign move (by simpa [mover] using different))
      (consumed_own exclusive move mover)

end Balance

section Joins

def leaving : Thread Unit (Point producers consumers) → Bool
  | .running .quit | .running .exit | .running .gone => true
  | _ => false

def MainKnows (shared : Shared producers consumers) : Thread Unit (Point producers consumers) → Prop
  | .idle | .running .begin => shared.finished = false
  | .running (.joinProducers rest _) =>
      shared.finished = false ∧ ∀ index, index ∉ rest → shared.exited (.producer index) = true
  | .running (.setFinished _) => shared.finished = false ∧ ∀ index, shared.exited (.producer index) = true
  | .running (.broadcast _) => shared.finished = true ∧ ∀ index, shared.exited (.producer index) = true
  | .running (.joinConsumers rest _ _) =>
      shared.finished = true ∧ (∀ index, shared.exited (.producer index) = true) ∧
      ∀ index, index ∉ rest → shared.exited (.consumer index) = true
  | .running (.done _ _) => shared.finished = true ∧ ∀ self, self ≠ .main → shared.exited self = true
  | _ => False

structure Joined (state : World producers consumers) : Prop where
  exits : ∀ self, state.shared.exited self = true → state.threads self = .running .gone
  main : MainKnows state.shared (state.threads .main)
  leavers : ∀ index, leaving (state.threads (.consumer index)) = true → state.shared.finished = true

theorem finished_foreign (move : Move (primesProgram allocates) state action after notes)
    (different : action.actor ≠ .main) : after.shared.finished = state.shared.finished := by
  obtain same | ⟨point, next, written, _, command⟩ := shared_by_actor move
  · rw [same]
  · generalize action.actor = mover at different command
    generalize after.shared = shared at command ⊢
    cases does_of_next command with
    | setFinished => exact absurd rfl different
    | _ => rfl

theorem exited_foreign (move : Move (primesProgram allocates) state action after notes)
    {self : Role producers consumers} (different : self ≠ action.actor) :
    after.shared.exited self = state.shared.exited self := by
  obtain same | ⟨point, next, written, _, command⟩ := shared_by_actor move
  · rw [same]
  · generalize action.actor = mover at different command
    generalize after.shared = shared at command ⊢
    cases does_of_next command with
    | exit => exact Function.update_of_ne different ..
    | _ => rfl

theorem exits_step (exclusive : Exclusive Holds Parks state) (joined : Joined state)
    (move : Move (primesProgram allocates) state action after notes) (self : Role producers consumers)
    (exited : after.shared.exited self = true) : after.threads self = .running .gone := by
  by_cases mover : self = action.actor
  · cases turn_of_move exclusive move mover.symm with
    | enter before place same | wake before place same | resume before place same =>
      rw [same] at exited
      cases before.symm.trans (joined.exits _ exited)
    | statement _ running does arrives result =>
      rw [result] at exited
      cases does with
      | exit => exact arrives
      | stay => exact arrives.trans (running.symm.trans (joined.exits _ exited))
      | _ => cases running.symm.trans (joined.exits _ exited)
  · rw [exited_foreign move mover] at exited
    have waking (place : Thread Unit (Point producers consumers)) (gone : place = .running .gone) :
        place.wake = .running .gone := by
      rw [gone]
      rfl
    exact kept_of_foreign waking move mover (joined.exits self exited)

theorem MainKnows.mono {before now : Shared producers consumers} {thread : Thread Unit (Point producers consumers)}
    (knows : MainKnows before thread) (finished : now.finished = before.finished)
    (exited : ∀ self, before.exited self = true → now.exited self = true) : MainKnows now thread := by
  cases thread with
  | running point =>
    cases point <;> simp only [MainKnows] at knows ⊢ <;> grind
  | idle => exact finished.trans knows
  | _ => exact knows

theorem MainKnows.wake {shared : Shared producers consumers} {thread : Thread Unit (Point producers consumers)}
    (knows : MainKnows shared thread) : MainKnows shared thread.wake := by
  cases thread <;> exact knows

theorem leaving_wake (thread : Thread Unit (Point producers consumers)) : leaving thread.wake = leaving thread := by
  cases thread <;> rfl

theorem main_own (exclusive : Exclusive Holds Parks state) (joined : Joined state)
    (move : Move (primesProgram allocates) state action after notes) (mover : action.actor = .main) :
    MainKnows after.shared (after.threads .main) := by
  have knows := joined.main
  cases turn_of_move exclusive move mover with
  | enter idle place same =>
    rw [idle] at knows
    rwa [place, same]
  | wake before | resume before =>
    rw [before] at knows
    exact absurd knows id
  | statement _ running does arrives result =>
    rw [running] at knows
    -- Each loop of joins adds the thread it has waited for to those that are known to have exited.
    cases does with
    | stay =>
      rw [arrives, result]
      exact knows
    | exit => exact absurd knows id
    | startMain =>
      rw [arrives, result]
      exact ⟨knows, fun index missing => absurd (List.mem_finRange index) missing⟩
    | producersJoined =>
      rw [arrives, result]
      exact ⟨knows.1, fun index => knows.2 index List.not_mem_nil⟩
    | @joinProducer joining rest _ exited =>
      rw [arrives, result]
      refine ⟨knows.1, fun index missing => ?_⟩
      by_cases last : index = joining
      · rw [last]
        exact exited
      · exact knows.2 index (by simp [last, missing])
    | setFinished =>
      rw [arrives, result]
      exact ⟨rfl, knows.2⟩
    | broadcast =>
      rw [arrives, result]
      exact ⟨knows.1, knows.2, fun index missing => absurd (List.mem_finRange index) missing⟩
    | consumersJoined =>
      rw [arrives, result]
      refine ⟨knows.1, ?_⟩
      rintro (_ | index | index) other
      · exact absurd rfl other
      · exact knows.2.1 index
      · exact knows.2.2 index List.not_mem_nil
    | @joinConsumer joining rest _ _ exited =>
      rw [arrives, result]
      refine ⟨knows.1, knows.2.1, fun index missing => ?_⟩
      by_cases last : index = joining
      · rw [last]
        exact exited
      · exact knows.2.2 index (by simp [last, missing])

theorem main_step (exclusive : Exclusive Holds Parks state) (joined : Joined state)
    (move : Move (primesProgram allocates) state action after notes) :
    MainKnows after.shared (after.threads .main) := by
  by_cases mover : action.actor = .main
  · exact main_own exclusive joined move mover
  · have kept : MainKnows after.shared (state.threads .main) :=
      joined.main.mono (finished_foreign move mover) fun _ => exited_move move
    exact kept_of_foreign (fun _ knows => knows.wake) move (Ne.symm mover) kept

theorem leaver_own (exclusive : Exclusive Holds Parks state) (joined : Joined state)
    (move : Move (primesProgram allocates) state action after notes) {index : Fin consumers}
    (mover : action.actor = .consumer index) (leaves : leaving (after.threads (.consumer index)) = true) :
    state.shared.finished = true := by
  have before := joined.leavers index
  cases turn_of_move exclusive move mover with
  | enter _ place | wake _ place | resume _ place =>
    rw [place] at leaves
    cases leaves
  | statement _ running does arrives =>
    rw [running] at before
    cases does with
    | giveUp finished => exact finished
    | breakLoop finished => exact finished
    | quit | exit => exact before rfl
    | stay =>
      rw [arrives] at leaves
      exact before leaves
    | _ =>
      rw [arrives] at leaves
      cases leaves

theorem joined_step (exclusive : Exclusive Holds Parks state) (joined : Joined state)
    (move : Move (primesProgram allocates) state action after notes) : Joined after := by
  refine ⟨exits_step exclusive joined move, main_step exclusive joined move, fun index leaves => finished_move move ?_⟩
  by_cases mover : action.actor = .consumer index
  · exact leaver_own exclusive joined move mover leaves
  · apply joined.leavers index
    rwa [read_of_foreign leaving_wake move (Ne.symm mover)] at leaves

end Joins

section Loss

def Filled (point : Point producers consumers) (_ : List (Role producers consumers × Empty))
    (shared : Shared producers consumers) : Prop := point = .pop → shared.list ≠ []

theorem primes_outline (allocates : Fin producers → Nat → Bool) :
    Outline (@primesProgram producers consumers allocates) Holds Parks (fun _ _ => True) Filled where
  lock _ command := by
    cases does_of_next command <;> exact fun same => nomatch same
  tryLock _ command := nomatch does_of_next command
  resume := by
    rintro _ _ _ _ _ rfl
    exact fun same => nomatch same
  unlock _ _ := trivial
  wait _ _ := trivial
  signal _ command := by
    cases does_of_next command
    exact fun same => nomatch same
  broadcast _ command := by
    cases does_of_next command
    exact fun same => nomatch same
  assign inside held command := by
    cases does_of_next command with
    | stay => exact held
    | testFilled filled => exact fun _ => filled
    | _ => exact fun same => nomatch same
  outside outside command := by
    refine ⟨fun _ => trivial, fun other held => ?_⟩
    cases does_of_next command with
    | push | pop => exact absurd trivial outside
    | _ => exact held
  finish command := nomatch does_of_next command

def NeverEmpty (state : World producers consumers) : Prop :=
  ∀ index, state.threads (.consumer index) ≠ .running (.release true) ∧
    state.threads (.consumer index) ≠ .running (.after true)

theorem neverEmpty_step {written : List (Role producers consumers × Empty)}
    (sound : Sound Holds Parks (fun _ _ => True) Filled written state) (never : NeverEmpty state)
    (move : Move (primesProgram allocates) state action after notes) : NeverEmpty after := by
  intro index
  constructor
  · intro running
    rcases running_of_move move running with before | ⟨_, entered⟩ | ⟨_, woken⟩ | ⟨point, _, before, _, leads⟩
    · exact (never index).1 before
    · cases entered
    · obtain ⟨_, same⟩ := woken ▸ sound.exclusive (.consumer index)
      cases same
    · generalize next : (primesProgram allocates).next (.consumer index) point state.shared = command at leads
      cases does_of_next next with
      -- The test has found the list filled, and the mutex has been held since.
      | popFails empty =>
        have own := (sound.exclusive.own before).mpr trivial
        exact sound.held own before rfl empty
      | stay => exact (never index).1 (leads ▸ before)
      | _ => cases leads
  · intro running
    rcases running_of_move move running with before | ⟨_, entered⟩ | ⟨_, woken⟩ | ⟨point, _, before, _, leads⟩
    · exact (never index).2 before
    · cases entered
    · obtain ⟨_, same⟩ := woken ▸ sound.exclusive (.consumer index)
      cases same
    · generalize next : (primesProgram allocates).next (.consumer index) point state.shared = command at leads
      cases does_of_next next with
      | release =>
        cases leads
        exact (never index).1 before
      | stay => exact (never index).2 (leads ▸ before)
      | _ => cases leads

structure Sane (notes : List (Role producers consumers × Empty)) (state : World producers consumers) : Prop where
  sound : Sound Holds Parks (fun _ _ => True) Filled notes state
  balanced : Balanced state
  joined : Joined state
  never : NeverEmpty state

theorem sane_run {produced : Fin producers → Nat} {consumed : Fin consumers → Nat}
    {actions : List (Action (Role producers consumers) Unit)}
    (run : (primesMachine consumers allocates).Run (initial (startShared produced consumed)) actions notes state) :
    Sane notes state := by
  refine run.invariant Sane ⟨⟨fun _ => by simp [initial, Admits], fun _ => trivial, by simp [initial]⟩, ?_, ⟨?_, ?_, ?_⟩,
    fun _ => by simp [initial]⟩ ?_
  · simp [Balanced, initial, startShared, consumedAt, producedAt]
  · intro self exited
    cases exited
  · exact rfl
  · intro index leaves
    cases leaves
  · intro _ _ _ _ _ sane step
    have move := move_of_step step
    exact ⟨sound_step (primes_disciplined allocates) (primes_outline allocates) sane.sound move,
      balanced_step sane.sound.exclusive sane.balanced move, joined_step sane.sound.exclusive sane.joined move,
      neverEmpty_step sane.sound sane.never move⟩

theorem MainKnows.producers_gone {shared : Shared producers consumers}
    {thread : Thread Unit (Point producers consumers)}
    (knows : MainKnows shared thread) (finished : shared.finished = true) (index : Fin producers) :
    shared.exited (.producer index) = true := by
  cases thread with
  | running point => cases point <;> simp only [MainKnows, finished] at knows <;> grind
  | idle =>
    simp only [MainKnows, finished] at knows
    cases knows
  | _ => exact absurd knows id

/-- When the flag is up and every consumer is leaving, nobody touches the list. -/
theorem list_kept (joined : Joined state) (finished : state.shared.finished = true)
    (all : ∀ index, leaving (state.threads (.consumer index)) = true)
    (move : Move (primesProgram allocates) state action after notes) : after.shared.list = state.shared.list := by
  obtain same | ⟨point, next, written, running, command⟩ := shared_by_actor move
  · rw [same]
  · generalize action.actor = mover at running command
    generalize after.shared = shared at command ⊢
    cases does_of_next command with
    | @push index =>
      have gone := joined.exits _ (joined.main.producers_gone finished index)
      cases running.symm.trans gone
    | @pop index =>
      have leaves := all index
      rw [running] at leaves
      cases leaves
    | _ => rfl

theorem leaving_step (move : Move (primesProgram allocates) state action after notes) {index : Fin consumers}
    (leaves : leaving (state.threads (.consumer index)) = true) : leaving (after.threads (.consumer index)) = true := by
  cases own : action.own (.consumer index) with
  | false =>
    rcases thread_of_move move own with ⟨_, _, _, idle, _⟩ | same | same
    · rw [idle] at leaves
      cases leaves
    · rwa [same]
    · rwa [same, leaving_wake]
  | true =>
    cases place : state.threads (.consumer index) with
    | running point =>
      rw [place] at leaves
      have arrives := place_of_own move place own
      generalize next : (primesProgram allocates).next (.consumer index) point state.shared = command at arrives
      cases does_of_next next with
      | stay => rwa [arrives]
      | quit | exit =>
        rw [arrives]
        rfl
      | _ => cases leaves
    | _ =>
      rw [place] at leaves
      cases leaves

/-- The last consumer that gives up finds the list empty; without consumers,
`main` does so when it sets the flag. -/
def lastFindsEmpty (state : World producers consumers) : Action (Role producers consumers) Unit → Bool
  | .step (.consumer index) _ =>
      match state.threads (.consumer index) with
      | .running .resumed =>
          decide (state.shared.finished = true →
            (∀ other, other ≠ index → leaving (state.threads (.consumer other)) = true) → state.shared.list = [])
      | _ => true
  | .step .main _ =>
      match state.threads .main with
      | .running (.setFinished _) => decide (consumers = 0 → state.shared.list = [])
      | _ => true
  | _ => true

structure Lost (state : World producers consumers) : Prop where
  finished : state.shared.finished = true
  all : ∀ index, leaving (state.threads (.consumer index)) = true
  filled : state.shared.list ≠ []

theorem lost_step (joined : Joined state) (lost : Lost state)
    (move : Move (primesProgram allocates) state action after notes) : Lost after :=
  ⟨finished_move move lost.finished, fun index => leaving_step move (lost.all index),
    by rw [list_kept joined lost.finished lost.all move]; exact lost.filled⟩

theorem decides_own (sane : Sane notes state) {written : List (Role producers consumers × Empty)}
    (move : Move (primesProgram allocates) state action after written) {index : Fin consumers}
    (stays : leaving (state.threads (.consumer index)) = false)
    (leaves : leaving (after.threads (.consumer index)) = true) :
    (∃ chosen, action = .step (.consumer index) chosen) ∧ state.threads (.consumer index) = .running .resumed ∧
      state.shared.finished = true ∧ after.shared.list = state.shared.list := by
  by_cases mover : action.actor = .consumer index
  · cases turn_of_move sane.sound.exclusive move mover with
    | enter _ place | wake _ place | resume _ place =>
      rw [place] at leaves
      cases leaves
    | statement acts running does arrives result =>
      rw [running] at stays ⊢
      cases does with
      | giveUp finished => exact ⟨⟨_, acts⟩, rfl, finished, by rw [result]; rfl⟩
      | breakLoop => exact absurd running (sane.never index).2
      | quit | exit => cases stays
      | stay =>
        rw [arrives, stays] at leaves
        cases leaves
      | _ =>
        rw [arrives] at leaves
        cases leaves
  · rw [read_of_foreign leaving_wake move (Ne.symm mover), stays] at leaves
    cases leaves

theorem leaving_of_other (move : Move (primesProgram allocates) state action after notes) {index : Fin consumers}
    {chosen : Finset (Role producers consumers)} (acts : action = .step (.consumer index) chosen)
    {other : Fin consumers}
    (different : other ≠ index) :
    leaving (after.threads (.consumer other)) = leaving (state.threads (.consumer other)) := by
  subst acts
  have foreign : (.consumer other : Role producers consumers) ≠ .consumer index := by simpa using different
  exact read_of_foreign leaving_wake move foreign

theorem raised_by_main (exclusive : Exclusive Holds Parks state)
    (move : Move (primesProgram allocates) state action after notes) (lowered : state.shared.finished = false)
    (raised : after.shared.finished = true) :
    ∃ chosen total, action = .step .main chosen ∧ state.threads .main = .running (.setFinished total) ∧
      after.shared.list = state.shared.list := by
  have mover : action.actor = .main := by
    by_contra other
    rw [finished_foreign move other, lowered] at raised
    cases raised
  cases turn_of_move exclusive move mover with
  | enter _ _ same | wake _ _ same | resume _ _ same =>
    rw [same, lowered] at raised
    cases raised
  | statement acts running does _ result =>
    cases does with
    | setFinished => exact ⟨_, _, acts, running, by rw [result]; rfl⟩
    | _ =>
      rw [result] at raised
      cases lowered.symm.trans raised

def Drained (state : World producers consumers) : Prop :=
  state.shared.finished = true → (∀ index, leaving (state.threads (.consumer index)) = true) → state.shared.list = []

theorem drained_step (sane : Sane notes state) {written : List (Role producers consumers × Empty)}
    (drained : Drained state) (allowed : lastFindsEmpty state action = true)
    (move : Move (primesProgram allocates) state action after written) : Drained after := by
  intro raised all
  by_cases before : ∀ index, leaving (state.threads (.consumer index)) = true
  · cases finished : state.shared.finished with
    | true =>
      rw [list_kept sane.joined finished before move]
      exact drained finished before
    | false =>
      -- A consumer that leaves has seen the flag, so there are none.
      have nobody : consumers = 0 := by
        by_contra some
        cases finished.symm.trans (sane.joined.leavers ⟨0, Nat.pos_of_ne_zero some⟩ (before _))
      obtain ⟨chosen, total, rfl, running, kept⟩ := raised_by_main sane.sound.exclusive move finished raised
      simp only [lastFindsEmpty, running, decide_eq_true_eq] at allowed
      rw [kept]
      exact allowed nobody
  · obtain ⟨index, stays⟩ := not_forall.mp before
    obtain ⟨⟨chosen, acts⟩, resumed, finished, kept⟩ := decides_own sane move (by simpa using stays) (all index)
    have others : ∀ other, other ≠ index → leaving (state.threads (.consumer other)) = true := by
      intro other different
      rw [← leaving_of_other move acts different]
      exact all other
    subst acts
    simp only [lastFindsEmpty, resumed, decide_eq_true_eq] at allowed
    rw [kept]
    exact allowed finished others

theorem lost_of_consumer {index : Fin consumers} {chosen : Finset (Role producers consumers)}
    (resumed : state.threads (.consumer index) = .running .resumed)
    (violated : lastFindsEmpty state (.step (.consumer index) chosen) = false)
    (move : Move (primesProgram allocates) state (.step (.consumer index) chosen) after notes) : Lost after := by
  simp only [lastFindsEmpty, resumed, decide_eq_false_iff_not, Classical.not_imp] at violated
  obtain ⟨finished, others, filled⟩ := violated
  have own : (Action.step (.consumer index) chosen : Action (Role producers consumers) Unit).own (.consumer index) =
      true := by simp [Action.own]
  have next : (primesProgram allocates).next (.consumer index) .resumed state.shared = .assign state.shared .quit [] := by
    simp only [primesProgram, runConsumer, finished, if_true]
  have arrives := place_of_own move resumed own
  have result := shared_of_own move resumed own
  rw [next] at arrives result
  refine ⟨by rw [result]; exact finished, fun other => ?_, by rw [result]; exact filled⟩
  by_cases same : other = index
  · rw [same, arrives]
    rfl
  · rw [leaving_of_other move rfl same]
    exact others other same

theorem lost_of_main {chosen : Finset (Role producers consumers)} {total : Nat}
    (running : state.threads .main = .running (.setFinished total))
    (violated : lastFindsEmpty state (.step .main chosen) = false)
    (move : Move (primesProgram allocates) state (.step .main chosen) after notes) : Lost after := by
  simp only [lastFindsEmpty, running, decide_eq_false_iff_not, Classical.not_imp] at violated
  obtain ⟨rfl, filled⟩ := violated
  have result := shared_of_own move running (by simp [Action.own])
  exact ⟨by rw [result]; rfl, fun index => index.elim0, by rw [result]; exact filled⟩

theorem lost_of_violation (violated : lastFindsEmpty state action = false)
    (move : Move (primesProgram allocates) state action after notes) : Lost after := by
  cases action with
  | step mover chosen =>
    cases mover with
    | consumer index =>
      by_cases resumed : state.threads (.consumer index) = .running .resumed
      · exact lost_of_consumer resumed violated move
      · simp [lastFindsEmpty] at violated
    | main =>
      cases place : state.threads .main with
      | running point =>
        cases point with
        | setFinished total => exact lost_of_main place violated move
        | _ => simp [lastFindsEmpty, place] at violated
      | _ => simp [lastFindsEmpty, place] at violated
    | producer => cases violated
  | _ => cases violated

variable {produced : Fin producers → Nat} {consumed : Fin consumers → Nat}
  {actions : List (Action (Role producers consumers) Unit)}

theorem drained_run
    (run : ((primesMachine consumers allocates).restrict lastFindsEmpty).Run (initial (startShared produced consumed))
      actions notes state) : Drained state := by
  induction run with
  | start =>
    intro raised
    cases raised
  | next before step ih =>
    obtain ⟨allowed, step⟩ := Machine.step_of_restrict step
    exact drained_step (sane_run before.of_restrict) ih allowed (move_of_step step)

theorem restricted_or_lost
    (run : (primesMachine consumers allocates).Run (initial (startShared produced consumed)) actions notes state) :
    ((primesMachine consumers allocates).restrict lastFindsEmpty).Run (initial (startShared produced consumed))
      actions notes state ∨ Lost state := by
  induction run with
  | start => exact Or.inl .start
  | @next _ _ _ state _ action before step ih =>
    have move := move_of_step step
    rcases ih with restricted | lost
    · cases allowed : lastFindsEmpty state action with
      | true => exact Or.inl (restricted.next (by simp only [Machine.restrict, allowed, if_true, step]))
      | false => exact Or.inr (lost_of_violation allowed move)
    · exact Or.inr (lost_step (sane_run before).joined lost move)

/-- When `main` has joined everybody, the counters differ by what is left in the list. -/
theorem totals_of_done (sane : Sane notes state) {total taken : Nat}
    (done : state.threads .main = .running (.done total taken)) :
    state.shared.finished = true ∧ (∀ index, leaving (state.threads (.consumer index)) = true) ∧
    ∑ index, state.shared.consumed index + state.shared.list.length = ∑ index, state.shared.produced index := by
  have knows := sane.joined.main
  rw [done] at knows
  have gone : ∀ self, self ≠ .main → state.threads self = .running .gone :=
    fun self other => sane.joined.exits self (knows.2 self other)
  refine ⟨knows.1, fun index => by rw [gone _ (by simp)]; rfl, ?_⟩
  have balanced := sane.balanced
  simp only [Balanced, gone (.consumer _) (by simp), gone (.producer _) (by simp)] at balanced
  exact balanced

/-- In a final state the counters agree and the list is empty exactly when the
last consumer to give up found it empty. -/
theorem nothing_lost_iff
    (run : (primesMachine consumers allocates).Run (initial (startShared produced consumed)) actions notes state)
    {total taken : Nat} (done : state.threads .main = .running (.done total taken)) :
    (∑ index, state.shared.consumed index = ∑ index, state.shared.produced index ∧ state.shared.list = []) ↔
    ((primesMachine consumers allocates).restrict lastFindsEmpty).Run (initial (startShared produced consumed))
      actions notes state := by
  have sane := sane_run run
  obtain ⟨raised, all, totals⟩ := totals_of_done sane done
  constructor
  · rintro ⟨_, empty⟩
    rcases restricted_or_lost run with restricted | lost
    · exact restricted
    · exact absurd empty lost.filled
  · intro restricted
    have empty : state.shared.list = [] := drained_run restricted raised all
    rw [empty, List.length_nil, Nat.add_zero] at totals
    exact ⟨totals, empty⟩

end Loss

section Schedules

variable (allocates : Fin producers → Nat → Bool)

def alone (shared : Shared producers consumers)
    (others : Role producers consumers → Thread Unit (Point producers consumers)) (index : Fin producers)
    (point : Point producers consumers) : World producers consumers :=
  ⟨shared, none, Function.update others (.producer index) (.running point)⟩

theorem wakes_nobody {others : Role producers consumers → Thread Unit (Point producers consumers)}
    (awake : ∀ self cond point, others self ≠ .asleep cond point) (index : Fin producers)
    (point : Point producers consumers) (owner : Option (Role producers consumers)) (data : Shared producers consumers) :
    State.MayWake (⟨data, owner, Function.update others (.producer index) (.running point)⟩ :
      World producers consumers) () ∅ := by
  refine ⟨Finset.empty_subset _, fun _ => Finset.eq_empty_of_forall_notMem fun self sleeps => ?_⟩
  rw [mem_sleepers] at sleeps
  by_cases same : self = .producer index
  · simp [same, Thread.asleepOn] at sleeps
  · simp only [Function.update_of_ne same] at sleeps
    cases place : others self with
    | asleep cond next => exact awake self cond next place
    | _ =>
      rw [place] at sleeps
      cases sleeps

theorem produce_one (shared : Shared producers consumers)
    {others : Role producers consumers → Thread Unit (Point producers consumers)}
    (awake : ∀ self cond point, others self ≠ .asleep cond point) (index : Fin producers) {k : Nat} (more : k < 5000) :
    ∃ actions list produced, shared.list.length ≤ list.length ∧
      (allocates index k = false → list = shared.list ∧ produced = shared.produced) ∧
      (primesMachine consumers allocates).Run (alone shared others index (.produce k)) actions []
        (alone { shared with list := list, produced := produced } others index (.produce (k + 1))) := by
  by_cases prime : isPrime k = true
  · cases room : allocates index k with
    | false =>
      refine ⟨List.replicate 3 (.step (.producer index) ∅), shared.list, shared.produced, le_rfl, fun _ => ⟨rfl, rfl⟩, ?_⟩
      apply Machine.run_of_exec
      simp [Machine.exec, alone, monitor, primesProgram, runProducer, more, prime, perform, State.setThread, listPush,
        room, List.replicate]
    | true =>
      refine ⟨List.replicate 5 (.step (.producer index) ∅), shared.list ++ [k],
        Function.update shared.produced index (shared.produced index + 1), by simp, fun fails => absurd fails (by decide), ?_⟩
      apply Machine.run_of_exec
      simp [Machine.exec, alone, monitor, primesProgram, runProducer, more, prime, perform, State.setThread, listPush,
        room, List.replicate, wakes_nobody awake, State.wake]
  · refine ⟨[.step (.producer index) ∅], shared.list, shared.produced, le_rfl, fun _ => ⟨rfl, rfl⟩, ?_⟩
    apply Machine.Run.single
    simp [alone, monitor, primesProgram, runProducer, more, prime, perform, State.setThread]

theorem produce_to_end (shared : Shared producers consumers)
    {others : Role producers consumers → Thread Unit (Point producers consumers)}
    (awake : ∀ self cond point, others self ≠ .asleep cond point) (index : Fin producers) {k left : Nat}
    (ends : k + left = 5000) :
    ∃ actions list produced, shared.list.length ≤ list.length ∧
      ((∀ later, k ≤ later → allocates index later = false) → list = shared.list ∧ produced = shared.produced) ∧
      (primesMachine consumers allocates).Run (alone shared others index (.produce k)) actions []
        (alone { shared with list := list, produced := produced } others index .exit) := by
  induction left generalizing k shared with
  | zero =>
    have exhausted : ¬ k < 5000 := by omega
    refine ⟨[.step (.producer index) ∅], shared.list, shared.produced, le_rfl, fun _ => ⟨rfl, rfl⟩, ?_⟩
    apply Machine.Run.single
    simp [alone, monitor, primesProgram, runProducer, exhausted, perform, State.setThread]
  | succ left ih =>
    obtain ⟨first, list, produced, grows, kept, run⟩ := produce_one allocates shared awake index (k := k) (by omega)
    obtain ⟨second, final, counters, more, stay, rest⟩ :=
      ih { shared with list := list, produced := produced } (k := k + 1) (by omega)
    refine ⟨first ++ second, final, counters, grows.trans more, fun fails => ?_, run.append rest⟩
    obtain ⟨same, counted⟩ := stay fun later above => fails later (Nat.le_of_succ_le above)
    obtain ⟨own, counts⟩ := kept (fails k (Nat.le_refl k))
    exact ⟨same.trans own, counted.trans counts⟩

theorem alone_self {state : World producers consumers} {index : Fin producers} {point : Point producers consumers}
    (free : state.owner = none) (running : state.threads (.producer index) = .running point) :
    alone state.shared state.threads index point = state := by
  rw [alone, ← running, Function.update_eq_self, ← free]

def roomForOne (_ : Fin 1) (k : Nat) : Bool := k = 1009

def consumeOne (producer : Fin 1) (consumer : Fin 1) : List (Action (Role 1 1) Unit) :=
  .step (.producer producer) ∅ :: .call (.consumer consumer) () :: List.replicate 9 (.step (.consumer consumer) ∅) ++
    .call .main () :: List.replicate 5 (.step .main ∅) ++ .reacquire (.consumer consumer) ::
    List.replicate 3 (.step (.consumer consumer) ∅) ++ List.replicate 2 (.step .main ∅)

theorem consumeOne_runs (produced consumed : Fin 1 → Nat) :
    ∃ state total taken, (primesMachine 1 roomForOne).Run
        (alone ⟨false, [1009], produced, consumed, fun _ => false⟩ (fun _ => .idle) 0 .exit) (consumeOne 0 0) [] state ∧
      state.threads .main = .running (.done total taken) ∧ state.shared.list = [] ∧ state.shared.produced = produced ∧
      state.shared.consumed 0 = 1 := by
  have executes : ((primesMachine 1 roomForOne).exec
      (alone ⟨false, [1009], produced, consumed, fun _ => false⟩ (fun _ => .idle) 0 .exit) (consumeOne 0 0)).isSome = true := rfl
  exact ⟨_, _, _, Machine.run_of_isSome executes, rfl, rfl, rfl, rfl⟩

theorem nothing_lost_one :
    ∃ actions state total taken, (primesMachine 1 roomForOne).Run (initial (startShared (fun _ => 0) fun _ => 0))
        actions [] state ∧
      state.threads .main = .running (.done total taken) ∧
      ∑ index, state.shared.produced index = 1 ∧ ∑ index, state.shared.consumed index = 1 ∧ state.shared.list = [] ∧
      ((primesMachine 1 roomForOne).restrict lastFindsEmpty).Run (initial (startShared (fun _ => 0) fun _ => 0))
        actions [] state := by
  have reaches : ((primesMachine 1 roomForOne).exec (initial (startShared (fun _ => 0) fun _ => 0))
      (.call (.producer 0) () :: List.replicate 15 (.step (.producer 0) ∅))).any (fun result => decide (result.2 = [] ∧
        result.1.owner = none ∧ result.1.threads (.producer 0) = .running (.produce 1010) ∧
        (∀ self, self ≠ .producer 0 → result.1.threads self = .idle) ∧
        result.1.shared.finished = false ∧ result.1.shared.list = [1009] ∧ result.1.shared.produced 0 = 1 ∧
        ∀ self, result.1.shared.exited self = false)) = true := by decide +kernel
  obtain ⟨world, notes, first, facts⟩ := Machine.exists_run_of_any reaches
  simp only [decide_eq_true_eq] at facts
  obtain ⟨rfl, free, running, others, lowered, list, counted, alive⟩ := facts
  have awake : ∀ self cond point, world.threads self ≠ .asleep cond point := by
    intro self cond point asleep
    by_cases same : self = .producer 0
    · cases (same ▸ running).symm.trans asleep
    · cases (others self same).symm.trans asleep
  obtain ⟨second, primes, counters, _, kept, ends⟩ :=
    produce_to_end roomForOne world.shared awake 0 (show 1010 + 3990 = 5000 from rfl)
  obtain ⟨rfl, rfl⟩ := kept fun later above => decide_eq_false (by omega)
  rw [alone_self free running] at ends
  have same : alone { world.shared with list := world.shared.list, produced := world.shared.produced } world.threads 0 .exit =
      alone ⟨false, [1009], world.shared.produced, world.shared.consumed, fun _ => false⟩ (fun _ => .idle) 0 .exit := by
    have exited : world.shared.exited = fun _ => false := funext alive
    have threads : Function.update world.threads (.producer 0) (.running .exit) =
        Function.update (fun _ => .idle) (.producer 0) (.running .exit) := by
      funext self
      by_cases own : self = .producer 0
      · rw [own, Function.update_self, Function.update_self]
      · rw [Function.update_of_ne own, Function.update_of_ne own, others self own]
    simp only [alone, lowered, list, exited, threads]
  rw [same] at ends
  obtain ⟨state, total, taken, third, done, empty, made, used⟩ := consumeOne_runs world.shared.produced world.shared.consumed
  have run := (first.append ends).append third
  have produced : ∑ index, state.shared.produced index = 1 := by rw [Fin.sum_univ_one, made, counted]
  have consumed : ∑ index, state.shared.consumed index = 1 := by rw [Fin.sum_univ_one, used]
  exact ⟨_, state, total, taken, run, done, produced, consumed, empty,
    (nothing_lost_iff run done).mp ⟨consumed.trans produced.symm, empty⟩⟩

def wakeForFirst (producer : Fin 1) (consumer : Fin 1) : List (Action (Role 1 1) Unit) :=
  .call (.consumer consumer) () :: List.replicate 4 (.step (.consumer consumer) ∅) ++
    .call (.producer producer) () :: List.replicate 12 (.step (.producer producer) ∅) ++
    .step (.producer producer) {.consumer consumer} :: List.replicate 2 (.step (.producer producer) ∅)

def joinAll (producer : Fin 1) (consumer : Fin 1) : List (Action (Role 1 1) Unit) :=
  .step (.producer producer) ∅ :: .call .main () :: List.replicate 5 (.step .main ∅) ++
    .reacquire (.consumer consumer) :: List.replicate 3 (.step (.consumer consumer) ∅) ++
    List.replicate 2 (.step .main ∅)

def waitsForMutex : Role 1 1 → Thread Unit (Point 1 1)
  | .consumer _ => .woken () .resumed
  | _ => .idle

theorem joinAll_runs (list : List Nat) (produced consumed : Fin 1 → Nat) :
    ∃ state total taken, (primesMachine 1 fun _ : Fin 1 => fun _ => true).Run
        (alone ⟨false, list, produced, consumed, fun _ => false⟩ waitsForMutex 0 .exit) (joinAll 0 0) [] state ∧
      state.threads .main = .running (.done total taken) ∧ state.shared.list = list := by
  have executes : ((primesMachine 1 fun _ : Fin 1 => fun _ => true).exec
      (alone ⟨false, list, produced, consumed, fun _ => false⟩ waitsForMutex 0 .exit) (joinAll 0 0)).isSome = true := rfl
  exact ⟨_, _, _, Machine.run_of_isSome executes, rfl, rfl⟩

/-- One producer and one consumer: the consumer was woken for the first prime,
but regains the mutex when the flag is already up, and leaves all primes behind. -/
theorem primes_lost :
    ∃ actions state total taken, (primesMachine 1 fun _ : Fin 1 => fun _ => true).Run
        (initial (startShared (fun _ => 0) fun _ => 0)) actions [] state ∧
      state.threads .main = .running (.done total taken) ∧ state.shared.list ≠ [] ∧
      ∑ index, state.shared.consumed index ≠ ∑ index, state.shared.produced index := by
  have reaches : ((primesMachine 1 fun _ : Fin 1 => fun _ => true).exec
      (initial (startShared (fun _ => 0) fun _ => 0)) (wakeForFirst 0 0)).any (fun result => decide (result.2 = [] ∧
        result.1.owner = none ∧ result.1.threads (.producer 0) = .running (.produce 1010) ∧
        (∀ self, self ≠ .producer 0 → result.1.threads self = waitsForMutex self) ∧
        result.1.shared.finished = false ∧ result.1.shared.list = [1009] ∧
        ∀ self, result.1.shared.exited self = false)) = true := by decide +kernel
  obtain ⟨world, notes, first, facts⟩ := Machine.exists_run_of_any reaches
  simp only [decide_eq_true_eq] at facts
  obtain ⟨rfl, free, running, others, lowered, list, alive⟩ := facts
  -- The producer goes on to its end while the consumer waits for the mutex.
  have awake : ∀ self cond point, world.threads self ≠ .asleep cond point := by
    intro self cond point asleep
    by_cases same : self = .producer 0
    · cases (same ▸ running).symm.trans asleep
    · rw [others self same] at asleep
      cases self <;> cases asleep
  obtain ⟨second, primes, counters, grows, _, ends⟩ :=
    produce_to_end (fun _ _ => true) world.shared awake 0 (show 1010 + 3990 = 5000 from rfl)
  rw [alone_self free running] at ends
  have same : alone { world.shared with list := primes, produced := counters } world.threads 0 .exit =
      alone ⟨false, primes, counters, world.shared.consumed, fun _ => false⟩ waitsForMutex 0 .exit := by
    have exited : world.shared.exited = fun _ => false := funext alive
    have threads : Function.update world.threads (.producer 0) (.running .exit) =
        Function.update waitsForMutex (.producer 0) (.running .exit) := by
      funext self
      by_cases own : self = .producer 0
      · rw [own, Function.update_self, Function.update_self]
      · rw [Function.update_of_ne own, Function.update_of_ne own, others self own]
    simp only [alone, lowered, exited, threads]
  rw [same] at ends
  obtain ⟨state, total, taken, third, done, left⟩ := joinAll_runs primes counters world.shared.consumed
  have run := (first.append ends).append third
  have filled : state.shared.list ≠ [] := by
    rw [left]
    rintro rfl
    rw [list] at grows
    cases grows
  refine ⟨_, state, total, taken, run, done, filled, fun equal => ?_⟩
  have totals := (totals_of_done (sane_run run) done).2.2
  rw [equal] at totals
  exact filled (List.length_eq_zero_iff.mp (by omega))
end Schedules
end PosixC.Primes
