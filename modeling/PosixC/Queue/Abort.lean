import PosixC.Foundation.MonitorProgress
import PosixC.Queue.Representation

/-! After an abort nobody sleeps.

The flag is set before both broadcasts and inside the same critical section, so
whoever fell asleep before the abort is woken by it and whoever comes later
finds the flag set.
-/

set_option autoImplicit false

namespace PosixC.Queue

open Foundation Foundation.Monitor

section Aborting

variable {Tid : Type} [DecidableEq Tid] {size : Nat}

theorem aborted_assign {queue after : Queue Tid} {self : Tid} {point next : Point size} {written : List Note}
    (command : (queueProgram Tid size).next self point queue = .assign after next written)
    (aborted : queue.sync.aborted = true) : after.sync.aborted = true := by
  cases statement_of_next command with
  | null | giveUp | proceed | refuse | tryProceed | fail => exact aborted
  | announce => rwa [announce_aborted]
  | withdraw => rwa [withdraw_aborted]
  | @transfer job => cases job <;> simpa only [Job.perform, store_sync, remove_sync] using aborted
  | abortSet => rfl

variable [Fintype Tid] {state after : State Tid Cond (Queue Tid) (Point size)} {action : Action Tid (Call size)}
  {notes : List (Tid × Note)}

theorem aborted_move (move : Move (queueProgram Tid size) state action after notes)
    (aborted : state.shared.sync.aborted = true) : after.shared.sync.aborted = true := by
  obtain same | ⟨_, _, _, _, command⟩ := shared_of_move move
  · rwa [same]
  · exact aborted_assign command aborted

structure Aborting (state : State Tid Cond (Queue Tid) (Point size)) : Prop where
  exclusive : Exclusive Holds Parks state
  flagged : ∀ {self}, state.threads self = .running .abortPop → state.shared.sync.aborted = true
  cleared : ∀ {self}, state.threads self = .running .abortPush →
    state.shared.sync.aborted = true ∧ state.Deserted .condPop

section Arrivals

omit [Fintype Tid]

variable {self : Tid} {queue : Queue Tid} {point : Point size}

theorem leads_abortPop (leads : ((queueProgram Tid size).next self point queue).leads .abortPop) :
    point = .abortSet := by
  generalize next : (queueProgram Tid size).next self point queue = command at leads
  cases statement_of_next next with
  | abortSet => rfl
  | unlock target => rcases target with rfl | rfl <;> cases leads
  | _ => simp [Command.leads] at leads

theorem leads_abortPush (leads : ((queueProgram Tid size).next self point queue).leads .abortPush) :
    point = .abortPop := by
  generalize next : (queueProgram Tid size).next self point queue = command at leads
  cases statement_of_next next with
  | abortPop => rfl
  | unlock target => rcases target with rfl | rfl <;> cases leads
  | _ => simp [Command.leads] at leads

theorem leads_sleep {job : Job size} (leads : ((queueProgram Tid size).next self point queue).leads (.sleep job)) :
    queue.sync.aborted = false := by
  generalize next : (queueProgram Tid size).next self point queue = command at leads
  cases statement_of_next next with
  | announce _ running => exact running
  | unlock target => rcases target with rfl | rfl <;> cases leads
  | _ => simp [Command.leads] at leads

theorem waits_at {cond : Cond} {next : Point size}
    (command : (queueProgram Tid size).next self point queue = .wait cond next) : ∃ job, point = .sleep job := by
  cases statement_of_next command with
  | sleep => exact ⟨_, rfl⟩

end Arrivals

theorem aborting_step (aborting : Aborting state)
    (step : (queueMachine Tid size).step state action = some (after, notes)) : Aborting after := by
  have move := move_of_step step
  refine ⟨exclusive_step (queue_disciplined Tid) aborting.exclusive move, fun {self} running => ?_,
    fun {self} running => ?_⟩
  -- At the first broadcast: the thread stays there or has just set the flag.
  · rcases running_of_move move running with before | ⟨_, entered⟩ | ⟨_, woken⟩ | ⟨point, chosen, before, rfl, leads⟩
    · exact aborted_move move (aborting.flagged before)
    · cases entered
    · obtain ⟨_, _, _, same⟩ := woken ▸ aborting.exclusive self
      cases same
    · obtain rfl := leads_abortPop leads
      rw [step_running before] at step
      cases step
      rfl
  -- At the second one: the thread stays there or has just woken every popper.
  · rcases running_of_move move running with before | ⟨_, entered⟩ | ⟨_, woken⟩ | ⟨point, chosen, before, rfl, leads⟩
    · obtain ⟨aborted, deserted⟩ := aborting.cleared before
      refine ⟨aborted_move move aborted, deserted_move deserted ?_ move⟩
      -- The aborting thread holds the mutex, so no other is about to wait.
      intro other point next own waiting command
      obtain ⟨job, rfl⟩ := waits_at command
      have mine := (aborting.exclusive.own before).mpr trivial
      obtain rfl : other = self := Option.some.inj (own.symm.trans mine)
      cases before.symm.trans waiting
    · cases entered
    · obtain ⟨_, _, _, same⟩ := woken ▸ aborting.exclusive self
      cases same
    · obtain rfl := leads_abortPush leads
      rw [step_running before] at step
      cases step
      exact ⟨aborting.flagged before, deserted_broadcast _ _ _⟩

theorem aborting_run {queue : Queue Tid} {actions : List (Action Tid (Call size))}
    (run : (queueMachine Tid size).Run (initial queue) actions notes state) : Aborting state :=
  run.invariant (fun _ => Aborting)
    ⟨fun _ => by simp [initial, Admits], by simp [initial], by simp [initial]⟩
    fun _ _ _ _ _ => aborting_step

end Aborting

section Quiet

variable {Tid : Type} {size : Nat}

/-- The flag is up, nobody sleeps and nobody is about to. -/
structure Quiet (state : State Tid Cond (Queue Tid) (Point size)) : Prop where
  exclusive : Exclusive Holds Parks state
  aborted : state.shared.sync.aborted = true
  awake : ∀ cond, state.Deserted cond
  stays : ∀ {self job}, state.threads self ≠ .running (.sleep job)

variable [DecidableEq Tid] [Fintype Tid] {state after : State Tid Cond (Queue Tid) (Point size)}
  {action : Action Tid (Call size)} {notes : List (Tid × Note)}

theorem quiet_move (quiet : Quiet state) (move : Move (queueProgram Tid size) state action after notes) :
    Quiet after := by
  refine ⟨exclusive_step (queue_disciplined Tid) quiet.exclusive move, aborted_move move quiet.aborted, ?_, ?_⟩
  · intro cond
    refine deserted_move (quiet.awake cond) ?_ move
    intro self point next _ running command
    obtain ⟨job, rfl⟩ := waits_at command
    exact quiet.stays running
  · intro self job running
    rcases running_of_move move running with before | ⟨_, entered⟩ | ⟨_, woken⟩ | ⟨point, chosen, _, _, leads⟩
    · exact quiet.stays before
    · cases entered
    · obtain ⟨_, _, _, same⟩ := woken ▸ quiet.exclusive self
      cases same
    · have := leads_sleep leads
      rw [quiet.aborted] at this
      cases this

/-- The second broadcast of an abort leaves nobody asleep. -/
theorem quiet_of_abort {self : Tid} {chosen : Finset Tid} (aborting : Aborting state)
    (running : state.threads self = .running .abortPush)
    (step : (queueMachine Tid size).step state (.step self chosen) = some (after, notes)) : Quiet after := by
  obtain ⟨aborted, deserted⟩ := aborting.cleared running
  have mine := (aborting.exclusive.own running).mpr trivial
  have move := move_of_step step
  have exclusive := exclusive_step (queue_disciplined Tid) aborting.exclusive move
  rw [step_running running] at step
  cases step
  refine ⟨exclusive, aborted, fun cond => ?_, fun {other job} sleeping => ?_⟩
  · cases cond with
    | condPush => exact deserted_broadcast _ _ _
    | condPop =>
      intro other point asleep
      obtain ⟨_, same⟩ | before := asleep_setThread asleep
      · cases same
      · exact deserted other point (asleep_of_wake before).2
  -- Whoever is about to sleep holds the mutex, and the aborting thread does.
  · obtain ⟨_, same⟩ | ⟨different, before⟩ := running_setThread sleeping
    · cases same
    · have own := (aborting.exclusive.own (running_of_wake _ _ before)).mpr trivial
      exact different (Option.some.inj (own.symm.trans mine))

def remaining : Thread Cond (Point size) → Nat
  | .idle | .asleep _ _ | .woken _ _ => 8
  | .running (.enter _) | .running (.resume _) => 7
  | .running (.test _) | .running (.tryTest _) | .running .abortSet => 6
  | .running (.transfer _) | .running .abortPop => 5
  | .running (.signal _) | .running .abortPush => 4
  | .running (.unlock _) => 3
  | .running (.fail _) => 2
  | .running (.leave _) => 1
  | .running (.sleep _) => 0

theorem remaining_le (thread : Thread Cond (Point size)) : remaining thread ≤ 8 := by
  cases thread with
  | running point => cases point <;> simp [remaining]
  | _ => exact le_rfl

theorem running_lt_woken (cond : Cond) (point : Point size) :
    remaining (.running point) < remaining (.woken cond point) := by
  cases point <;> simp [remaining]

theorem queue_descending : Descending (queueProgram Tid size) Quiet remaining (∃ code, · = Note.returned code) where
  kept := quiet_move
  enter := by
    rintro _ _ _ ⟨rfl⟩
    simp [remaining]
  command := by
    intro state self point quiet running
    generalize next : (queueProgram Tid size).next self point state.shared = command
    cases statement_of_next next with
    | announce _ lowered =>
      rw [quiet.aborted] at lowered
      cases lowered
    | sleep => exact absurd running quiet.stays
    | unlock target => rcases target with rfl | rfl <;> simp [Lowers, remaining]
    | _ => simp [Lowers, remaining]
  resume := running_lt_woken _ _
  wake := le_rfl

end Quiet

section Reachable

variable {Tid : Type} [DecidableEq Tid] [Fintype Tid]

/-- Once an abort has sent its second broadcast, still inside its critical
section, the flag stays up and nobody sleeps in any later state; whoever is in a
call can move or leaves the mutex to a thread that can, and no call takes more
than eight further steps of its thread. -/
theorem quiet_after_abort {size : Nat} {queue : Queue Tid} {before later : List (Action Tid (Call size))}
    {notes written since : List (Tid × Note)} {aborting aborted state : State Tid Cond (Queue Tid) (Point size)}
    {self : Tid} {chosen : Finset Tid} (reached : (queueMachine Tid size).Run (initial queue) before notes aborting)
    (running : aborting.threads self = .running .abortPush)
    (step : (queueMachine Tid size).step aborting (.step self chosen) = some (aborted, written))
    (run : (queueMachine Tid size).Run aborted later since state) :
    state.shared.sync.aborted = true ∧
    (∀ thread cond point, state.threads thread ≠ .asleep cond point) ∧
    (∀ thread, state.threads thread ≠ .idle → CanMove (queueProgram Tid size) state thread ∨
      ∃ owner, state.owner = some owner ∧ CanMove (queueProgram Tid size) state owner) ∧
    ∀ thread actions further final, (queueMachine Tid size).Run state actions further final →
      (∀ code, (thread, .returned code) ∉ further) → actions.countP (Action.own thread) ≤ 8 := by
  have quiet : Quiet state := run.invariant (fun _ => Quiet) (quiet_of_abort (aborting_run reached) running step)
    fun _ _ _ _ _ calm step => quiet_move calm (move_of_step step)
  refine ⟨quiet.aborted, fun thread cond => quiet.awake cond thread, fun thread busy => ?_, ?_⟩
  · exact canMove_or_owner (queue_disciplined Tid) quiet.exclusive busy fun cond => quiet.awake cond thread
  · intro thread actions further final run silent
    refine (own_steps_bounded queue_descending quiet run thread ?_).trans (remaining_le _)
    rintro _ member ⟨code, rfl⟩
    exact silent code member

def sleepThenAbort : List (Action (Fin 2) (Call 1)) :=
  [.call 0 (.queuePop true), .step 0 ∅, .step 0 ∅, .step 0 ∅, .call 1 .queueAbort, .step 1 ∅, .step 1 ∅, .step 1 ∅]

theorem quiet_after_abort_popper :
    ∃ aborting notes state, (queueMachine (Fin 2) 1).Run (initial (freshQueue (Fin 2) 1 2 [0, 0]))
        sleepThenAbort notes aborting ∧
      (queueMachine (Fin 2) 1).step aborting (.step 1 ∅) = some (state, []) ∧
      state.threads 0 = .woken .condPop (.resume (.pop true)) ∧ state.shared.sync.aborted = true ∧
      ∀ actions further final, (queueMachine (Fin 2) 1).Run state actions further final →
        (∀ code, (0, .returned code) ∉ further) → actions.countP (Action.own 0) ≤ 8 := by
  have executes : ((queueMachine (Fin 2) 1).exec (initial (freshQueue (Fin 2) 1 2 [0, 0])) sleepThenAbort).isSome =
      true := by decide
  have reached := Machine.run_of_isSome executes
  have running : State.threads ((Machine.exec _ _ _).get executes).1 1 = .running .abortPush := rfl
  have step : (queueMachine (Fin 2) 1).step ((Machine.exec _ _ _).get executes).1 (.step 1 ∅) = some (_, []) := rfl
  have quiet := quiet_after_abort reached running step .start
  exact ⟨_, _, _, reached, step, rfl, quiet.1, quiet.2.2.2 0⟩

end Reachable
end PosixC.Queue
