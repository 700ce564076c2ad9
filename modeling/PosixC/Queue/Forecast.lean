import PosixC.Queue.Representation

/-! The forecast of a queue counts the threads that really wait.

Each counter is raised before a wait and lowered after it, inside the mutex on
both sides, so it can differ from the number of waiting threads only while
somebody holds the mutex.
-/

set_option autoImplicit false
set_option linter.dupNamespace false

namespace PosixC.Queue

open Foundation Foundation.Monitor

section Waiting

variable {size : Nat}

def Job.isPush : Job size → Bool
  | .push _ => true
  | .pop _ => false

variable {Tid : Type} [Fintype Tid] (state : State Tid Cond (Queue Tid) (Point size))

def waitingPops : Finset Tid :=
  Finset.univ.filter fun t => (blockedIn (state.threads t)).any (fun job => !job.isPush) = true

def waitingPushes : Finset Tid :=
  Finset.univ.filter fun t => (blockedIn (state.threads t)).any Job.isPush = true

variable {state}

omit [Fintype Tid] in
theorem waitsOn_eq_blockedIn (exclusive : Exclusive Holds Parks state) (thread : Tid) (cond : Cond) :
    (state.threads thread).waitsOn cond =
      (blockedIn (state.threads thread)).any fun job => decide (job.waitsOn = cond) := by
  have admits := exclusive thread
  cases place : state.threads thread with
  | idle => rfl
  | running point => rfl
  | asleep on point =>
    rw [place] at admits
    obtain ⟨_, job, rfl, rfl⟩ := admits
    simp [Thread.waitsOn, Thread.asleepOn, Thread.wokenOn, blockedIn]
  | woken on point =>
    rw [place] at admits
    obtain ⟨_, job, rfl, rfl⟩ := admits
    simp [Thread.waitsOn, Thread.asleepOn, Thread.wokenOn, blockedIn]

theorem waiters_condPop (exclusive : Exclusive Holds Parks state) : state.waiters .condPop = waitingPops state := by
  ext thread
  rw [mem_waiters, waitsOn_eq_blockedIn exclusive, waitingPops, Finset.mem_filter]
  cases blockedIn (state.threads thread) with
  | none => simp
  | some job => cases job <;> simp [Job.waitsOn, Job.isPush]

theorem waiters_condPush (exclusive : Exclusive Holds Parks state) :
    state.waiters .condPush = waitingPushes state := by
  ext thread
  rw [mem_waiters, waitsOn_eq_blockedIn exclusive, waitingPushes, Finset.mem_filter]
  cases blockedIn (state.threads thread) with
  | none => simp
  | some job => cases job <;> simp [Job.waitsOn, Job.isPush]

end Waiting

/-- The wrapping sum, read as a signed number, is the exact one. -/
theorem queueForecast_exact {Tid : Type} {queue : Queue Tid} (stored : queueSize queue < 2 ^ 62)
    (pops : queue.sync.waitingForPop < 2 ^ 62) (pushes : queue.sync.waitingForPush < 2 ^ 62) :
    queueForecast queue = (queueSize queue : Int) - queue.sync.waitingForPop + queue.sync.waitingForPush := by
  simp only [queueForecast, queueSize, SizeT.add, SizeT.sub] at *
  split <;> split <;> omega

section Reachable

variable {Tid : Type} [DecidableEq Tid] [Fintype Tid]

/-- Whenever the mutex is free the counters are the numbers of blocked threads,
and the forecast is the signed number the header promises. A counter of the
width of `size_t` cannot tell more threads apart than it has values. -/
theorem forecast_counts_waiting {attempts : Attempts} {elemSize queueCapacity : UInt64} {queue : Queue Tid}
    {log : List ResourceEvent}
    (created : queueCreate attempts elemSize queueCapacity = (.queueSuccess, some queue, log))
    (threads : Fintype.card Tid < 2 ^ 64)
    {actions : List (Action Tid (Call elemSize.toNat))} {notes : List (Tid × Note)}
    {state : State Tid Cond (Queue Tid) (Point elemSize.toNat)}
    (run : (queueMachine Tid elemSize.toNat).Run (initial queue) actions notes state) (free : state.owner = none) :
    state.shared.sync.waitingForPop = (waitingPops state).card ∧
    state.shared.sync.waitingForPush = (waitingPushes state).card ∧
    (queueSize state.shared < 2 ^ 62 → Fintype.card Tid < 2 ^ 62 →
      queueForecast state.shared =
        (queueSize state.shared : Int) - (waitingPops state).card + (waitingPushes state).card) := by
  have exclusive := (created_sound created run).exclusive
  have counted := fun cond => created_counted created threads cond run
  simp only [State.Counted, credited_free _ _ free] at counted
  have pops : state.shared.sync.waitingForPop = (waitingPops state).card := by
    have := counted .condPop
    rw [waiters_condPop exclusive] at this
    simpa [Queue.waiting] using this
  have pushes : state.shared.sync.waitingForPush = (waitingPushes state).card := by
    have := counted .condPush
    rw [waiters_condPush exclusive] at this
    simpa [Queue.waiting] using this
  refine ⟨pops, pushes, fun stored few => ?_⟩
  have poppers := Finset.card_le_univ (waitingPops state)
  have pushers := Finset.card_le_univ (waitingPushes state)
  rw [queueForecast_exact stored (by omega) (by omega), pops, pushes]

theorem forecast_counts_waiting_popper :
    ∃ state notes, (queueMachine (Fin 1) (1 : UInt64).toNat).Run (initial (freshQueue (Fin 1) 1 2 [0, 0]))
        (alone (.queuePop true) 3) notes state ∧
      state.threads 0 = .asleep .condPop (.resume (.pop true)) ∧ queueForecast state.shared = -1 ∧
      queueForecast state.shared =
        (queueSize state.shared : Int) - (waitingPops state).card + (waitingPushes state).card := by
  have executes : ((queueMachine (Fin 1) (1 : UInt64).toNat).exec (initial (freshQueue (Fin 1) 1 2 [0, 0]))
      (alone (.queuePop true) 3)).isSome = true := by decide
  have negative : queueForecast (State.shared ((Machine.exec _ _ _).get executes).1) = -1 := by decide +kernel +revert
  have created : queueCreate allSucceed 1 2 = (.queueSuccess, some (freshQueue (Fin 1) 1 2 [0, 0]),
      [.acquire .queueBlock, .acquire .bufferBlock, .acquire .key, .acquire .mutex, .acquire .condPop,
        .acquire .condPush]) := rfl
  have run := Machine.run_of_isSome executes
  have counts := forecast_counts_waiting created (by decide) run rfl
  exact ⟨_, _, run, rfl, negative, counts.2.2 (show 0 < 2 ^ 62 by decide) (by decide)⟩

end Reachable
end PosixC.Queue
