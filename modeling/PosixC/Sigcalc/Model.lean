import Mathlib.Data.Finset.Insert
import PosixC.Foundation.Signals
import PosixC.Foundation.Transition

/-! The signal calculator of ex06/sigcalc.

The server keeps a counter and sleeps in `sigsuspend`; a client sends it one
signal, to add a number or to print the counter. Any number of clients run at
the same time.
-/

set_option autoImplicit false
set_option linter.dupNamespace false

namespace PosixC.Sigcalc

open Foundation Foundation.Signals

inductive Signal where
  | sigusr1 | sigusr2
  | sigrt (offset : Nat)
  deriving DecidableEq, Repr

def realTime : Signal → Bool
  | .sigrt _ => true
  | _ => false

def usrSigAdd : Signal := .sigusr1

def usrSigGet : Signal := .sigusr2

def sigIntset : Finset Signal := {usrSigAdd, usrSigGet}

inductive Routine where
  | usrsigadd | usrsigget
  deriving DecidableEq, Repr

/-- The points between the statements of `server` and of its two handlers.
`counter += value` loads and stores. -/
inductive Point where
  | block
  | installGet
  | installAdd
  | announce
  | loop
  -- usrsigadd
  | addPrint (value : Int)
  | addLoad (value : Int)
  | addStore (value loaded : Int)
  -- usrsigget
  | getPrintValue (value : Int)
  | getPrint
  | handlerEnd
  | killed
  deriving DecidableEq, Repr

/-- A handler starts with its `si_value`. -/
def Routine.entry : Routine → Int → Point
  | .usrsigadd, value => .addPrint value
  | .usrsigget, value => .getPrintValue value

inductive Request where
  | get
  | add (number : Int)
  deriving DecidableEq, Repr

inductive ClientPoint where
  | start | sending
  | exited (status : Nat)
  deriving DecidableEq, Repr

/-- What the processes print, and what `sigqueue` told the client of an addition.
`early` says that no addition was pending when it was called. -/
inductive Note where
  | serverPid
  | callingGet
  | callingAdd (number : Int)
  | addFailed (number : Int)
  | addSent (number : Int) (early : Bool)
  | add (value : Int)
  | getValue (value : Int)
  | get (counter : Int)
  deriving DecidableEq, Repr

/-- `oldset` is `sig_oldset`. The clients learn the process id when it is printed. -/
structure State (Client : Type) where
  process : Process Signal Int Routine Point
  oldset : Finset Signal
  counter : Int
  announced : Bool
  clients : Client → ClientPoint

inductive Action (Client : Type) where
  | server
  | deliver (sig : Signal)
  | client (client : Client) (fails : Bool)

section Machine

variable {Client : Type}

def State.goTo (state : State Client) (point : Point) : State Client :=
  { state with process := { state.process with point := point } }

/-- `none` where the server waits. -/
def serverStep (state : State Client) : Option (State Client × List Note) :=
  if state.process.suspended.isSome then none
  else
    match state.process.point with
    | .block =>
        some ({ state with
          oldset := state.process.mask
          process := { state.process with point := .installGet, mask := state.process.mask ∪ sigIntset } }, [])
    | .installGet =>
        some ({ state with process :=
          { state.process.sigaction usrSigGet .usrsigget sigIntset with point := .installAdd } }, [])
    | .installAdd =>
        some ({ state with process :=
          { state.process.sigaction usrSigAdd .usrsigadd sigIntset with point := .announce } }, [])
    | .announce => some ({ state.goTo .loop with announced := true }, [.serverPid])
    | .loop => some ({ state with process := state.process.sigsuspend state.oldset }, [])
    | .addPrint value => some (state.goTo (.addLoad value), [.add value])
    | .addLoad value => some (state.goTo (.addStore value state.counter), [])
    | .addStore value loaded => some ({ state.goTo .handlerEnd with counter := loaded + value }, [])
    | .getPrintValue value => some (state.goTo .getPrint, [.getValue value])
    | .getPrint => some (state.goTo .handlerEnd, [.get state.counter])
    | .handlerEnd =>
        match state.process.sigreturn with
        | none => none
        | some process => some ({ state with process := process }, [])
    | .killed => none

def sigqueue (state : State Client) (sig : Signal) (value : Int) : State Client :=
  { state with process := { state.process with pending := post realTime state.process.pending sig value } }

variable [DecidableEq Client]

def State.clientTo (state : State Client) (client : Client) (point : ClientPoint) : State Client :=
  { state with clients := Function.update state.clients client point }

/-- `get` and `add`; the environment decides whether `sigqueue` fails. -/
def clientStep (request : Client → Request) (state : State Client) (client : Client) (fails : Bool) :
    Option (State Client × List Note) :=
  match state.clients client with
  | .start =>
      match request client with
      | .get => some (state.clientTo client .sending, [.callingGet])
      | .add number => some (state.clientTo client .sending, [.callingAdd number])
  | .sending =>
      if state.announced then
        match request client with
        | .get =>
            if fails then some (state.clientTo client (.exited 1), [])
            else some (sigqueue (state.clientTo client (.exited 0)) usrSigGet 100, [])
        | .add number =>
            if fails then some (state.clientTo client (.exited 1), [.addFailed number])
            else
              some (sigqueue (state.clientTo client (.exited 0)) usrSigAdd number,
                [.addSent number (decide (usrSigAdd ∉ state.process.pending.map Prod.fst))])
      else none
  | .exited _ => none

def sigcalcMachine (request : Client → Request) : Machine (State Client) (Action Client) Note where
  step state
    | .server => serverStep state
    | .deliver sig =>
        if state.process.point = .killed then none
        else
          match state.process.deliver Routine.entry .killed sig with
          | none => none
          | some process => some ({ state with process := process }, [])
    | .client client fails => clientStep request state client fails

/-- The server is called with the mask it has inherited. -/
def startState (inherited : Finset Signal) : State Client :=
  ⟨⟨.block, inherited, none, [], fun _ => none, []⟩, ∅, 0, false, fun _ => .start⟩

end Machine
end PosixC.Sigcalc
