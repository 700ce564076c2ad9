import PosixC.Foundation.MonitorProgress
import PosixC.Primes.Model

/-! Who hears the broadcast that ends the program.

A consumer tests the list and then sleeps without looking at the flag, so the
broadcast reaches exactly those that have already called `pthread_cond_wait`.
-/

set_option autoImplicit false

namespace PosixC.Primes

open Foundation Foundation.Monitor

variable {producers consumers : Nat}

section Discipline

def Holds : Point producers consumers → Prop
  | .push _ | .signal _ | .count _ | .unlock _ => True
  | .test | .sleep | .resumed | .quit | .pop | .release _ => True
  | _ => False

def Parks (_ : Unit) (point : Point producers consumers) : Prop := point = .resumed

theorem primes_disciplined (allocates : Fin producers → Nat → Bool) :
    Disciplined (@primesProgram producers consumers allocates) Holds Parks where
  enter := by
    rintro _ _ _ ⟨rfl⟩
    exact id
  command := by
    intro self point shared
    generalize next : (primesProgram allocates).next self point shared = command
    cases does_of_next next with
    | sleep => exact ⟨trivial, rfl⟩
    | _ => simp [Respects, Holds]
  parked := by
    rintro _ _ rfl
    trivial

end Discipline

section Broadcast

/-- The consumers that a broadcast reaches, or that need none any more: inside
the wait, back from it with the test of the flag ahead, or on the way out. -/
def listening : Thread Unit (Point producers consumers) → Bool
  | .asleep _ _ | .woken _ _ => true
  | .running .resumed | .running .quit | .running .exit | .running .gone => true
  | _ => false

/-- When `main` sends its broadcast, every consumer hears it. -/
def allListen (state : World producers consumers) : Action (Role producers consumers) Unit → Bool
  | .step .main _ =>
      match state.threads .main with
      | .running (.broadcast _) => decide (∀ index, listening (state.threads (.consumer index)) = true)
      | _ => true
  | _ => true

def Sent : Thread Unit (Point producers consumers) → Prop
  | .running (.joinConsumers _ _ _) | .running (.done _ _) => True
  | _ => False

def Raised : Point producers consumers → Prop
  | .broadcast _ | .joinConsumers _ _ _ | .done _ _ => True
  | _ => False

variable {allocates : Fin producers → Nat → Bool}
  {state after : World producers consumers}
  {action : Action (Role producers consumers) Unit} {notes : List (Role producers consumers × Empty)}

theorem finished_move (move : Move (primesProgram allocates) state action after notes)
    (finished : state.shared.finished = true) : after.shared.finished = true := by
  obtain same | ⟨self, point, next, written, command⟩ := shared_of_move move
  · rwa [same]
  · generalize after.shared = shared at command
    cases does_of_next command <;> first | exact finished | rfl

structure Told (state : World producers consumers) : Prop where
  exclusive : Exclusive Holds Parks state
  raised : ∀ point, state.threads .main = .running point → Raised point → state.shared.finished = true
  heard : Sent (state.threads .main) → ∀ index, listening (state.threads (.consumer index)) = true ∧
    ∀ cond point, state.threads (.consumer index) ≠ .asleep cond point

theorem raised_of_leads {shared : Shared producers consumers} {point next : Point producers consumers}
    (leads : ((primesProgram allocates).next .main point shared).leads next) (raised : Raised next) :
    Raised point ∨ ∃ produced, point = .setFinished produced := by
  generalize command : (primesProgram allocates).next .main point shared = statement at leads
  cases does_of_next command with
  | stay => exact Or.inl (leads ▸ raised)
  | setFinished => exact Or.inr ⟨_, rfl⟩
  | broadcast | consumersJoined | joinConsumer => exact Or.inl trivial
  | exit | startMain | producersJoined | joinProducer =>
    cases leads
    exact absurd raised id

theorem raised_step (told : Told state)
    (step : (primesMachine consumers allocates).step state action = some (after, notes))
    {next : Point producers consumers} (running : after.threads .main = .running next) (raised : Raised next) :
    after.shared.finished = true := by
  have move := move_of_step step
  rcases running_of_move move running with before | ⟨_, entered⟩ | ⟨_, woken⟩ | ⟨point, chosen, before, rfl, leads⟩
  · exact finished_move move (told.raised next before raised)
  · cases entered
    exact absurd raised id
  · obtain ⟨_, rfl⟩ := woken ▸ told.exclusive .main
    exact absurd raised id
  · obtain past | ⟨produced, rfl⟩ := raised_of_leads leads raised
    · exact finished_move move (told.raised point before past)
    · rw [step_running before] at step
      cases step
      rfl

/-- A consumer that listens while the flag is up never sleeps again. -/
theorem listening_step (exclusive : Exclusive Holds Parks state) (finished : state.shared.finished = true)
    (move : Move (primesProgram allocates) state action after notes) {index : Fin consumers}
    (listens : listening (state.threads (.consumer index)) = true)
    (awake : ∀ cond point, state.threads (.consumer index) ≠ .asleep cond point) :
    listening (after.threads (.consumer index)) = true ∧
      ∀ cond point, after.threads (.consumer index) ≠ .asleep cond point := by
  cases own : action.own (.consumer index) with
  | false =>
    rcases thread_of_move move own with ⟨_, _, _, idle, _⟩ | same | same
    · rw [idle] at listens
      cases listens
    · rw [same]
      exact ⟨listens, awake⟩
    · rw [same]
      cases place : state.threads (.consumer index) with
      | asleep cond point => exact absurd place (awake cond point)
      | _ =>
        rw [place] at listens
        exact ⟨listens, by simp [Thread.wake]⟩
  | true =>
    cases place : state.threads (.consumer index) with
    | idle =>
      rw [place] at listens
      cases listens
    | asleep cond point => exact absurd place (awake cond point)
    | woken cond point =>
      obtain ⟨_, rfl⟩ := place ▸ exclusive (.consumer index)
      rw [place_of_woken move place own]
      exact ⟨rfl, by simp⟩
    | running point =>
      rw [place] at listens
      have arrives := place_of_own move place own
      generalize next : (primesProgram allocates).next (.consumer index) point state.shared = command at arrives
      cases does_of_next next with
      | stay =>
        rw [arrives]
        exact ⟨listens, by simp⟩
      | exit | giveUp | quit =>
        rw [arrives]
        exact ⟨rfl, by simp⟩
      -- Back from its wait the consumer looks at the flag, which is up.
      | retest lowered =>
        rw [finished] at lowered
        cases lowered
      | _ => cases listens

theorem listening_wake (thread : Thread Unit (Point producers consumers)) :
    listening thread.wake = listening thread := by
  cases thread <;> rfl

theorem raised_of_sent {point : Point producers consumers} (sent : Sent (.running point)) : Raised point := by
  cases point <;> trivial

theorem sent_of_leads {shared : Shared producers consumers} {point next : Point producers consumers}
    (leads : ((primesProgram allocates).next .main point shared).leads next) (sent : Sent (.running next)) :
    Sent (.running point) ∨ ∃ produced, point = .broadcast produced := by
  generalize command : (primesProgram allocates).next .main point shared = statement at leads
  cases does_of_next command with
  | stay => exact Or.inl (leads ▸ sent)
  | broadcast => exact Or.inr ⟨_, rfl⟩
  | consumersJoined | joinConsumer => exact Or.inl trivial
  | exit | startMain | producersJoined | joinProducer | setFinished =>
    cases leads
    exact absurd sent id

/-- The broadcast leaves no listener asleep. -/
theorem heard_broadcast {produced : Nat} {chosen : Finset (Role producers consumers)}
    (running : state.threads .main = .running (.broadcast produced))
    (allowed : allListen state (.step .main chosen) = true)
    (step : (primesMachine consumers allocates).step state (.step .main chosen) = some (after, notes))
    (index : Fin consumers) :
    listening (after.threads (.consumer index)) = true ∧
      ∀ cond point, after.threads (.consumer index) ≠ .asleep cond point := by
  have listens : listening (state.threads (.consumer index)) = true := by
    simp only [allListen, running, decide_eq_true_eq] at allowed
    exact allowed index
  rw [step_running running] at step
  cases step
  refine ⟨?_, fun cond => deserted_broadcast _ _ _ _⟩
  rw [setThread_of_ne _ _ _ (by simp)]
  simp only [State.wake]
  split
  · rwa [listening_wake]
  · exact listens

theorem told_step (told : Told state) (allowed : allListen state action = true)
    (step : (primesMachine consumers allocates).step state action = some (after, notes)) : Told after := by
  have move := move_of_step step
  refine ⟨exclusive_step (primes_disciplined allocates) told.exclusive move,
    fun next running raised => raised_step told step running raised, fun sent index => ?_⟩
  cases place : after.threads .main with
  | running next =>
    rw [place] at sent
    have onwards : ∀ {point}, state.threads .main = .running point → Sent (.running point) →
        listening (after.threads (.consumer index)) = true ∧
          ∀ cond point, after.threads (.consumer index) ≠ .asleep cond point := by
      intro point before past
      obtain ⟨listens, awake⟩ := told.heard (before ▸ past) index
      exact listening_step told.exclusive (told.raised point before (raised_of_sent past)) move listens awake
    rcases running_of_move move place with before | ⟨_, entered⟩ | ⟨_, woken⟩ | ⟨point, chosen, before, rfl, leads⟩
    · exact onwards before sent
    · cases entered
      exact absurd sent id
    · obtain ⟨_, rfl⟩ := woken ▸ told.exclusive .main
      exact absurd sent id
    · obtain past | ⟨produced, rfl⟩ := sent_of_leads leads sent
      · exact onwards before past
      · exact heard_broadcast before allowed step index
  | _ =>
    rw [place] at sent
    exact absurd sent id

/-- In every run in which `main` broadcasts only when all consumers listen, no
consumer is asleep once it has done so. -/
theorem shutdown_reaches_consumers {produced : Fin producers → Nat} {consumed : Fin consumers → Nat}
    {actions : List (Action (Role producers consumers) Unit)}
    (run : ((primesMachine consumers allocates).restrict allListen).Run (initial (startShared produced consumed))
      actions notes state)
    (sent : Sent (state.threads .main)) (index : Fin consumers) (cond : Unit) (point : Point producers consumers) :
    state.threads (.consumer index) ≠ .asleep cond point := by
  have told : Told state := by
    refine run.invariant (fun _ => Told) ⟨fun _ => by simp [initial, Admits], ?_, fun none => absurd none id⟩ ?_
    · intro point running
      cases running
    · intro _ _ _ _ _ told step
      obtain ⟨allowed, step⟩ := Machine.step_of_restrict step
      exact told_step told allowed step
  exact (told.heard sent index).2 cond point

def starts (self : Role 0 1) (count : Nat) : List (Action (Role 0 1) Unit) :=
  .call self () :: List.replicate count (.step self ∅)

theorem shutdown_reaches_sleeper :
    ∃ state, ((primesMachine 1 fun _ : Fin 0 => fun _ => true).restrict allListen).Run
        (initial (startShared (fun _ => 0) fun _ => 0)) (starts (.consumer 0) 4 ++ starts .main 4) [] state ∧
      Sent (state.threads .main) ∧ state.threads (.consumer 0) = .woken () .resumed ∧
      ∀ cond point, state.threads (.consumer 0) ≠ .asleep cond point := by
  have executes : (((primesMachine 1 fun _ : Fin 0 => fun _ => true).restrict allListen).exec
      (initial (startShared (fun _ => 0) fun _ => 0)) (starts (.consumer 0) 4 ++ starts .main 4)).isSome = true := by
    decide +kernel
  have run := Machine.run_of_isSome executes
  exact ⟨_, run, trivial, rfl, shutdown_reaches_consumers run trivial 0⟩

/-- The consumer has found the list empty when `main` sets the flag and
broadcasts, and falls asleep afterwards. -/
theorem shutdown_misses_consumer :
    ∃ state, (primesMachine 1 fun _ : Fin 0 => fun _ => true).Run (initial (startShared (fun _ => 0) fun _ => 0))
        (starts (.consumer 0) 3 ++ starts .main 4 ++ [.step (.consumer 0) ∅]) [] state ∧
      state.shared.finished = true ∧ Sent (state.threads .main) ∧
      state.threads (.consumer 0) = .asleep () .resumed := by
  have executes : ((primesMachine 1 fun _ : Fin 0 => fun _ => true).exec
      (initial (startShared (fun _ => 0) fun _ => 0))
      (starts (.consumer 0) 3 ++ starts .main 4 ++ [.step (.consumer 0) ∅])).isSome = true := by decide +kernel
  exact ⟨_, Machine.run_of_isSome executes, rfl, trivial, rfl⟩

end Broadcast
end PosixC.Primes
