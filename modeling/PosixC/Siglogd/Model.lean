import Mathlib.Data.Finset.Insert
import PosixC.Foundation.Signals
import PosixC.Foundation.SizeT
import PosixC.Foundation.Transition

/-! The signal logger of hw06.

`logger` installs its handlers with all its signals blocked and then sleeps in
`sigsuspend`. One handler counts, and ends the process with a report; the other one
reports at each alarm of the kernel and sets the next one.
-/

set_option autoImplicit false

namespace PosixC.Siglogd

open Foundation Foundation.Signals

inductive Signal where
  | sigint | sigquit | sigterm | sigusr1 | sigusr2 | sigcont | sigalrm
  deriving DecidableEq, Repr

def signalsToLog : List Signal := [.sigint, .sigquit, .sigterm, .sigusr1, .sigusr2, .sigcont]

def sigIntset : Finset Signal := insert .sigalrm signalsToLog.toFinset

structure Siginfo where
  signo : Signal
  pid : Nat
  deriving DecidableEq, Repr

inductive Routine where
  | signalHandler | alarmHandler
  deriving DecidableEq, Repr

inductive Line where
  | pid
  | addedMask (sig : Signal)
  | addedHandler (sig : Signal)
  | initialized
  | got (sig : Signal)
  | shuttingDown
  | statistics
  | statistic (sig : Signal) (count : Nat)
  deriving DecidableEq, Repr

inductive Point where
  -- logger
  | openlog
  | addMask (rest : List Signal)
  | block
  | install (rest : List Signal)
  | installAlarm
  | initialized
  | alarm
  | loop
  -- signal_handler
  | scan (sig : Signal) (rest : List Signal)
  | count (sig : Signal) (rest : List Signal)
  | scanned (sig : Signal)
  -- alarm_handler
  | checkPid (pid : Nat)
  | rearm
  -- print_statistics
  | statistics (final : Bool)
  | statistic (final : Bool) (rest : List Signal)
  | handlerEnd
  | exited
  | killed
  deriving DecidableEq, Repr

def Routine.entry : Routine → Siginfo → Point
  | .signalHandler, siginfo => .scan siginfo.signo signalsToLog
  | .alarmHandler, siginfo => .checkPid siginfo.pid

/-- A line of the log, or what happens outside. `queued` says that the signal did not
find one like it pending, and `handled` that the kernel has started its handler. -/
inductive Note where
  | line (line : Line)
  | sent (sig : Signal) (queued : Bool)
  | expired (queued : Bool)
  | handled (siginfo : Siginfo)
  | ignored (sig : Signal)
  deriving DecidableEq, Repr

/-- `oldset` is `sig_oldset`, and `armed` says that an alarm is set. -/
structure State where
  process : Process Signal Siginfo Routine Point
  oldset : Finset Signal
  statistics : Signal → Nat
  armed : Bool

inductive Action where
  | run
  | deliver (sig : Signal)
  | send (sig : Signal) (pid : Nat)
  | expire
  deriving DecidableEq, Repr

def State.goTo (state : State) (point : Point) : State :=
  { state with process := { state.process with point := point } }

def fatal (sig : Signal) : Bool := sig = .sigterm || sig = .sigint

def bump (sig : Signal) (statistics : Signal → Nat) : Signal → Nat :=
  Function.update statistics sig (SizeT.add (statistics sig) 1)

def statement (timerSeconds : Int) (state : State) : Option (State × List Note) :=
  match state.process.point with
  | .openlog => some (state.goTo (.addMask signalsToLog), [.line .pid])
  | .addMask (sig :: rest) => some (state.goTo (.addMask rest), [.line (.addedMask sig)])
  | .addMask [] => some (state.goTo .block, [])
  | .block =>
      some ({ state with
        oldset := state.process.mask
        process := { state.process with point := .install signalsToLog, mask := state.process.mask ∪ sigIntset } }, [])
  | .install (sig :: rest) =>
      some ({ state with process :=
        { state.process.sigaction sig .signalHandler sigIntset with point := .install rest } },
        [.line (.addedHandler sig)])
  | .install [] => some (state.goTo .installAlarm, [])
  | .installAlarm =>
      some ({ state with process :=
        { state.process.sigaction .sigalrm .alarmHandler sigIntset with point := .initialized } }, [])
  | .initialized => some (state.goTo .alarm, [.line .initialized])
  | .alarm => some ({ state.goTo .loop with armed := if timerSeconds ≠ 0 then true else state.armed }, [])
  | .loop => some ({ state with process := state.process.sigsuspend state.oldset }, [])
  | .scan sig (entry :: rest) =>
      if sig = entry then some (state.goTo (.count sig rest), [.line (.got sig)])
      else some (state.goTo (.scan sig rest), [])
  | .scan sig [] => some (state.goTo (.scanned sig), [])
  | .count sig rest => some ({ state.goTo (.scan sig rest) with statistics := bump sig state.statistics }, [])
  | .scanned sig =>
      if fatal sig then some (state.goTo (.statistics true), [.line .shuttingDown])
      else some (state.goTo .handlerEnd, [])
  | .checkPid pid => some (state.goTo (if pid ≠ 0 then .handlerEnd else .statistics false), [])
  | .rearm => some ({ state.goTo .handlerEnd with armed := if timerSeconds ≠ 0 then true else state.armed }, [])
  | .statistics final => some (state.goTo (.statistic final signalsToLog), [.line .statistics])
  | .statistic final (sig :: rest) =>
      some (state.goTo (.statistic final rest), [.line (.statistic sig (state.statistics sig))])
  | .statistic final [] => some (state.goTo (if final then .exited else .rearm), [])
  | .handlerEnd =>
      match state.process.sigreturn with
      | none => none
      | some process => some ({ state with process := process }, [])
  | .exited | .killed => none

/-- `none` while `sigsuspend` waits. -/
def loggerStep (timerSeconds : Int) (state : State) : Option (State × List Note) :=
  if state.process.suspended = none then statement timerSeconds state else none

def State.ended (state : State) : Bool := state.process.point = .exited || state.process.point = .killed

/-- No signal of this program is a real-time one. -/
def postSignal (state : State) (siginfo : Siginfo) : State :=
  { state with process :=
    { state.process with pending := post (fun _ => false) state.process.pending siginfo.signo siginfo } }

def queued (state : State) (sig : Signal) : Bool := decide (sig ∉ state.process.pending.map Prod.fst)

/-- Without a handler `SIGCONT` does nothing, and neither does a signal that the process has
inherited as `SIG_IGN`. -/
def discards (ignored : Finset Signal) (state : State) (sig : Signal) : Bool :=
  (state.process.disposition sig).isNone && (decide (sig = .sigcont) || decide (sig ∈ ignored))

def handledNotes (process : Process Signal Siginfo Routine Point) (sig : Signal) : List Note :=
  if (process.disposition sig).isSome then ((take sig process.pending).map fun taken => .handled taken.1).toList else []

/-- Without a handler the other signals terminate. -/
def deliverStep (ignored : Finset Signal) (state : State) (sig : Signal) : Option (State × List Note) :=
  if discards ignored state sig = true then
    match state.process.discard sig with
    | none => none
    | some process => some ({ state with process := process }, [.ignored sig])
  else
    match state.process.deliver Routine.entry .killed sig with
    | none => none
    | some process => some ({ state with process := process }, handledNotes state.process sig)

/-- From `openlog` on. Other processes send signals and the kernel fires the alarm. -/
def siglogdMachine (timerSeconds : Int) (ignored : Finset Signal) : Machine State Action Note where
  step state action :=
    if state.ended then none
    else
      match action with
      | .run => loggerStep timerSeconds state
      | .deliver sig => deliverStep ignored state sig
      | .send sig pid =>
          if pid = 0 then none else some (postSignal state ⟨sig, pid⟩, [.sent sig (queued state sig)])
      | .expire =>
          if state.armed then
            some (postSignal { state with armed := false } ⟨.sigalrm, 0⟩, [.expired (queued state .sigalrm)])
          else none

/-- The process has inherited a mask. Nothing is pending, and no alarm is set. -/
def startState (inherited : Finset Signal) : State :=
  ⟨⟨.openlog, inherited, none, [], fun _ => none, []⟩, ∅, fun _ => 0, false⟩

def log (notes : List Note) : List Line :=
  notes.filterMap fun
    | .line line => some line
    | _ => none

def handled (notes : List Note) : List Siginfo :=
  notes.filterMap fun
    | .handled siginfo => some siginfo
    | _ => none

theorem log_append (first second : List Note) : log (first ++ second) = log first ++ log second :=
  List.filterMap_append

theorem handled_append (first second : List Note) : handled (first ++ second) = handled first ++ handled second :=
  List.filterMap_append

end PosixC.Siglogd
