import Mathlib.Data.Finset.Insert
import PosixC.Foundation.Signals
import PosixC.Foundation.Transition

/-! The programs of ex06/signals that wait for a signal and report it.

`await.c` waits in `pause`, with its signal unblocked all the time. `suspend.c` blocks the
signal and waits in `sigsuspend`. The handler of both sets a flag.
-/

set_option autoImplicit false

namespace PosixC.Waiting

open Foundation Foundation.Signals

inductive Source where
  | await | suspend
  deriving DecidableEq, Repr

inductive Signal where
  | sigint
  deriving DecidableEq, Repr

inductive Routine where
  | handler
  deriving DecidableEq, Repr

inductive Point where
  | start
  | block
  | install
  | wait
  | test
  | sleep
  | clear
  -- handler
  | handler
  | handlerEnd
  | killed
  deriving DecidableEq, Repr

/-- What is logged, the calls of the startup, what is sent (and not merged with a pending
signal), and what happens to it: `delivered` says whether the process waited for it. -/
inductive Note where
  | started
  | blocked
  | installed
  | received
  | sent (queued : Bool)
  | delivered (waiting : Bool)
  | ignored
  deriving DecidableEq, Repr

structure State where
  process : Process Signal Unit Routine Point
  oldset : Finset Signal
  sigReceived : Bool

inductive Action where
  | run
  | deliver
  | send
  deriving DecidableEq, Repr

def State.goTo (state : State) (point : Point) : State :=
  { state with process := { state.process with point := point } }

/-- `pause` is `sigsuspend` with the mask that the process has. -/
def waitCall (source : Source) (state : State) : State :=
  let mask := match source with
    | .await => state.process.mask
    | .suspend => state.oldset
  { state with process := { state.process.sigsuspend mask with point := .test } }

/-- The next statement of `main` or of `handler`; `none` while the process waits. A signal
may come during the `sleep` and end it. -/
def statement (source : Source) (state : State) : Option (State × List Note) :=
  if state.process.suspended.isSome then none
  else
    match state.process.point with
    | .start => some (state.goTo (if source = .suspend then .block else .install), [.started])
    | .block =>
        some ({ state with
          oldset := state.process.mask
          process := { state.process with point := .install, mask := insert .sigint state.process.mask } }, [.blocked])
    | .install =>
        some ({ state with process := { state.process.sigaction .sigint .handler ∅ with point := .wait } }, [.installed])
    | .wait => some (waitCall source state, [])
    | .test => some (state.goTo .sleep, if state.sigReceived then [.received] else [])
    | .sleep => some (state.goTo .clear, [])
    | .clear => some ({ state.goTo .wait with sigReceived := false }, [])
    | .handler => some ({ state.goTo .handlerEnd with sigReceived := true }, [])
    | .handlerEnd =>
        match state.process.sigreturn with
        | none => none
        | some process => some ({ state with process := process }, [])
    | .killed => none

def Routine.entry : Routine → Unit → Point
  | .handler, _ => .handler

/-- Without a handler the signal terminates, but for a process that has inherited it as `SIG_IGN`. -/
def deliverStep (ignored : Bool) (state : State) : Option (State × List Note) :=
  if (ignored && (state.process.disposition .sigint).isNone) = true then
    match state.process.discard .sigint with
    | none => none
    | some process => some ({ state with process := process }, [.ignored])
  else
    match state.process.deliver Routine.entry .killed .sigint with
    | none => none
    | some process => some ({ state with process := process }, [.delivered state.process.suspended.isSome])

def waitingMachine (source : Source) (ignored : Bool) : Machine State Action Note where
  step state action :=
    if state.process.point = .killed then none
    else
      match action with
      | .run => statement source state
      | .deliver => deliverStep ignored state
      | .send =>
          some ({ state with process :=
            { state.process with pending := post (fun _ => false) state.process.pending .sigint () } },
            [.sent (decide (Signal.sigint ∉ state.process.pending.map Prod.fst))])

/-- The process has inherited a mask, and nothing is pending. -/
def startState (inherited : Finset Signal) : State := ⟨⟨.start, inherited, none, [], fun _ => none, []⟩, ∅, false⟩

end PosixC.Waiting
