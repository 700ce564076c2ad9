import Mathlib.Data.Finset.Card
import Mathlib.Data.Fintype.Basic
import PosixC.Foundation.Transition

/-! Threads that share one mutex and its condition variables.

The semantics is that of Mesa monitors: waiting releases the mutex and falls
asleep in one step, a signal wakes at least one sleeper when there is one, a
sleeper may also wake without a signal, and whoever was woken competes for the
mutex with newcomers before it runs again.
-/

set_option autoImplicit false

namespace PosixC.Foundation.Monitor

/-- The next atomic statement of a running thread. `assign` covers every
statement that only computes; its notes record what an observer may see. -/
inductive Command (Cond Shared Local Note : Type) where
  | lock (next : Local)
  | tryLock (acquired busy : Local)
  | unlock (next : Local)
  | wait (cond : Cond) (next : Local)
  | signal (cond : Cond) (next : Local)
  | broadcast (cond : Cond) (next : Local)
  | assign (shared : Shared) (next : Local) (notes : List Note)
  | finish (notes : List Note)

/-- A call that its caller is not entitled to make has no entry point. -/
structure Program (Tid Cond Shared Local Call Note : Type) where
  enter : Shared → Call → Option Local
  next : Tid → Local → Shared → Command Cond Shared Local Note

inductive Thread (Cond Local : Type) where
  | idle
  | running (at_ : Local)
  | asleep (cond : Cond) (at_ : Local)
  | woken (cond : Cond) (at_ : Local)
  deriving DecidableEq

structure State (Tid Cond Shared Local : Type) where
  shared : Shared
  owner : Option Tid
  threads : Tid → Thread Cond Local

/-- `step` names the sleepers a signal wakes; other statements ignore them. -/
inductive Action (Tid Call : Type) where
  | call (thread : Tid) (call : Call)
  | step (thread : Tid) (chosen : Finset Tid)
  | spurious (thread : Tid)
  | reacquire (thread : Tid)

section Threads

variable {Tid Cond Shared Local Call Note : Type}

def Thread.wake : Thread Cond Local → Thread Cond Local
  | .asleep cond point => .woken cond point
  | thread => thread

def Thread.asleepOn [DecidableEq Cond] (cond : Cond) : Thread Cond Local → Bool
  | .asleep on _ => decide (on = cond)
  | _ => false

def Thread.wokenOn [DecidableEq Cond] (cond : Cond) : Thread Cond Local → Bool
  | .woken on _ => decide (on = cond)
  | _ => false

def initial (shared : Shared) : State Tid Cond Shared Local := ⟨shared, none, fun _ => .idle⟩

variable [DecidableEq Tid]

def State.setThread (state : State Tid Cond Shared Local) (thread : Tid) (value : Thread Cond Local) :
    State Tid Cond Shared Local :=
  { state with threads := Function.update state.threads thread value }

def State.wake (state : State Tid Cond Shared Local) (chosen : Finset Tid) :
    State Tid Cond Shared Local :=
  { state with threads := fun t => if t ∈ chosen then (state.threads t).wake else state.threads t }

variable [Fintype Tid] [DecidableEq Cond]

def State.sleepers (state : State Tid Cond Shared Local) (cond : Cond) : Finset Tid :=
  Finset.univ.filter fun t => (state.threads t).asleepOn cond = true

def State.wokens (state : State Tid Cond Shared Local) (cond : Cond) : Finset Tid :=
  Finset.univ.filter fun t => (state.threads t).wokenOn cond = true

/-- A signal wakes some of the sleepers, and at least one unless there is none. -/
def State.MayWake (state : State Tid Cond Shared Local) (cond : Cond) (chosen : Finset Tid) : Prop :=
  chosen ⊆ state.sleepers cond ∧ (chosen = ∅ → state.sleepers cond = ∅)

instance (state : State Tid Cond Shared Local) (cond : Cond) (chosen : Finset Tid) :
    Decidable (state.MayWake cond chosen) :=
  inferInstanceAs (Decidable (_ ∧ _))

/-- A statement that cannot proceed (a lock that is taken) has no successor. -/
def perform (thread : Tid) (chosen : Finset Tid) (state : State Tid Cond Shared Local) :
    Command Cond Shared Local Note → Option (State Tid Cond Shared Local × List (Tid × Note))
  | .lock next =>
      if state.owner = none then
        some ({ state.setThread thread (.running next) with owner := some thread }, [])
      else none
  | .tryLock acquired busy =>
      if state.owner = none then
        some ({ state.setThread thread (.running acquired) with owner := some thread }, [])
      else some (state.setThread thread (.running busy), [])
  | .unlock next =>
      if state.owner = some thread then
        some ({ state.setThread thread (.running next) with owner := none }, [])
      else none
  | .wait cond next =>
      if state.owner = some thread then
        some ({ state.setThread thread (.asleep cond next) with owner := none }, [])
      else none
  | .signal cond next =>
      if state.MayWake cond chosen then
        some ((state.wake chosen).setThread thread (.running next), [])
      else none
  -- A broadcast leaves no choice.
  | .broadcast cond next =>
      some ((state.wake (state.sleepers cond)).setThread thread (.running next), [])
  | .assign shared next notes =>
      some ({ state.setThread thread (.running next) with shared := shared },
        notes.map fun note => (thread, note))
  | .finish notes => some (state.setThread thread .idle, notes.map fun note => (thread, note))

def monitor (program : Program Tid Cond Shared Local Call Note) :
    Machine (State Tid Cond Shared Local) (Action Tid Call) (Tid × Note) where
  step state action :=
    match action with
    | .call thread call =>
        match state.threads thread with
        | .idle =>
            match program.enter state.shared call with
            | some point => some (state.setThread thread (.running point), [])
            | none => none
        | _ => none
    | .step thread chosen =>
        match state.threads thread with
        | .running point => perform thread chosen state (program.next thread point state.shared)
        | _ => none
    | .spurious thread =>
        match state.threads thread with
        | .asleep cond point => some (state.setThread thread (.woken cond point), [])
        | _ => none
    -- A woken thread competes for the mutex like any other.
    | .reacquire thread =>
        match state.threads thread with
        | .woken _ point =>
            if state.owner = none then
              some ({ state.setThread thread (.running point) with owner := some thread }, [])
            else none
        | _ => none

end Threads

section Moves

variable {Tid Cond Shared Local Call Note : Type} [DecidableEq Tid] [Fintype Tid] [DecidableEq Cond]

inductive Move (program : Program Tid Cond Shared Local Call Note)
    (state : State Tid Cond Shared Local) :
    Action Tid Call → State Tid Cond Shared Local → List (Tid × Note) → Prop where
  | call {thread : Tid} {call : Call} {point : Local} :
      state.threads thread = .idle → program.enter state.shared call = some point →
      Move program state (.call thread call) (state.setThread thread (.running point)) []
  | lock {thread : Tid} {chosen : Finset Tid} {point next : Local} :
      state.threads thread = .running point →
      program.next thread point state.shared = .lock next → state.owner = none →
      Move program state (.step thread chosen)
        { state.setThread thread (.running next) with owner := some thread } []
  | tryLock {thread : Tid} {chosen : Finset Tid} {point acquired busy : Local} :
      state.threads thread = .running point →
      program.next thread point state.shared = .tryLock acquired busy → state.owner = none →
      Move program state (.step thread chosen)
        { state.setThread thread (.running acquired) with owner := some thread } []
  | busy {thread : Tid} {chosen : Finset Tid} {point acquired busy : Local} :
      state.threads thread = .running point →
      program.next thread point state.shared = .tryLock acquired busy → state.owner ≠ none →
      Move program state (.step thread chosen) (state.setThread thread (.running busy)) []
  | unlock {thread : Tid} {chosen : Finset Tid} {point next : Local} :
      state.threads thread = .running point →
      program.next thread point state.shared = .unlock next → state.owner = some thread →
      Move program state (.step thread chosen)
        { state.setThread thread (.running next) with owner := none } []
  | wait {thread : Tid} {chosen : Finset Tid} {point next : Local} {cond : Cond} :
      state.threads thread = .running point →
      program.next thread point state.shared = .wait cond next → state.owner = some thread →
      Move program state (.step thread chosen)
        { state.setThread thread (.asleep cond next) with owner := none } []
  | signal {thread : Tid} {chosen : Finset Tid} {point next : Local} {cond : Cond} :
      state.threads thread = .running point →
      program.next thread point state.shared = .signal cond next → state.MayWake cond chosen →
      Move program state (.step thread chosen) ((state.wake chosen).setThread thread (.running next)) []
  | broadcast {thread : Tid} {chosen : Finset Tid} {point next : Local} {cond : Cond} :
      state.threads thread = .running point →
      program.next thread point state.shared = .broadcast cond next →
      Move program state (.step thread chosen)
        ((state.wake (state.sleepers cond)).setThread thread (.running next)) []
  | assign {thread : Tid} {chosen : Finset Tid} {point next : Local} {shared : Shared} {notes : List Note} :
      state.threads thread = .running point →
      program.next thread point state.shared = .assign shared next notes →
      Move program state (.step thread chosen)
        { state.setThread thread (.running next) with shared := shared } (notes.map fun note => (thread, note))
  | finish {thread : Tid} {chosen : Finset Tid} {point : Local} {notes : List Note} :
      state.threads thread = .running point →
      program.next thread point state.shared = .finish notes →
      Move program state (.step thread chosen) (state.setThread thread .idle)
        (notes.map fun note => (thread, note))
  | spurious {thread : Tid} {cond : Cond} {point : Local} :
      state.threads thread = .asleep cond point →
      Move program state (.spurious thread) (state.setThread thread (.woken cond point)) []
  | reacquire {thread : Tid} {cond : Cond} {point : Local} :
      state.threads thread = .woken cond point → state.owner = none →
      Move program state (.reacquire thread)
        { state.setThread thread (.running point) with owner := some thread } []

variable {program : Program Tid Cond Shared Local Call Note}
  {state after : State Tid Cond Shared Local} {notes : List (Tid × Note)}

theorem move_of_perform {thread : Tid} {chosen : Finset Tid} {point : Local}
    (running : state.threads thread = .running point)
    (performed : perform thread chosen state (program.next thread point state.shared) = some (after, notes)) :
    Move program state (.step thread chosen) after notes := by
  cases command : program.next thread point state.shared with
  | lock next =>
    simp only [command, perform, Option.ite_none_right_eq_some, Option.some.injEq, Prod.mk.injEq] at performed
    obtain ⟨free, rfl, rfl⟩ := performed
    exact .lock running command free
  | tryLock acquired busy =>
    simp only [command, perform] at performed
    split at performed
    · next free => cases performed; exact .tryLock running command free
    · next taken => cases performed; exact .busy running command taken
  | unlock next =>
    simp only [command, perform, Option.ite_none_right_eq_some, Option.some.injEq, Prod.mk.injEq] at performed
    obtain ⟨own, rfl, rfl⟩ := performed
    exact .unlock running command own
  | wait cond next =>
    simp only [command, perform, Option.ite_none_right_eq_some, Option.some.injEq, Prod.mk.injEq] at performed
    obtain ⟨own, rfl, rfl⟩ := performed
    exact .wait running command own
  | signal cond next =>
    simp only [command, perform, Option.ite_none_right_eq_some, Option.some.injEq, Prod.mk.injEq] at performed
    obtain ⟨may, rfl, rfl⟩ := performed
    exact .signal running command may
  | broadcast cond next =>
    rw [command] at performed
    cases performed
    exact .broadcast running command
  | assign shared next written =>
    rw [command] at performed
    cases performed
    exact .assign running command
  | finish written =>
    rw [command] at performed
    cases performed
    exact .finish running command

theorem step_running {thread : Tid} {chosen : Finset Tid} {point : Local}
    (running : state.threads thread = .running point) :
    (monitor program).step state (.step thread chosen) =
      perform thread chosen state (program.next thread point state.shared) := by
  simp only [monitor, running]

theorem move_of_step {action : Action Tid Call}
    (step : (monitor program).step state action = some (after, notes)) :
    Move program state action after notes := by
  cases action with
  | call thread call =>
    simp only [monitor] at step
    split at step
    · next idle =>
      split at step
      · next point entered => cases step; exact .call idle entered
      · cases step
    · cases step
  | step thread chosen =>
    simp only [monitor] at step
    split at step
    · next point running => exact move_of_perform running step
    · cases step
  | spurious thread =>
    simp only [monitor] at step
    split at step
    · next cond point asleep => cases step; exact .spurious asleep
    · cases step
  | reacquire thread =>
    simp only [monitor] at step
    split at step
    · next cond point woken =>
      split at step
      · next free => cases step; exact .reacquire woken free
      · cases step
    · cases step

end Moves
end PosixC.Foundation.Monitor
