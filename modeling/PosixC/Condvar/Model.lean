import Mathlib.Data.Fintype.Option
import PosixC.Foundation.MonitorProgress

/-! The threads of ex09/condvar and the `main` that wakes them.

A thread waits for the condition first and looks at the flag afterwards, so it needs
the broadcast even when the flag has long been set.
-/

set_option autoImplicit false

namespace PosixC.Condvar

open Foundation Foundation.Monitor

/-- `main` is `none`. -/
abbrev Tid (threads : Nat) := Option (Fin threads)

inductive Cond where
  | condition
  deriving DecidableEq, Repr

/-- `created` is what the threads wait for and `exited` what `pthread_join` does. -/
structure Shared (threads : Nat) where
  globalFlag : Bool
  created : Nat
  exited : Finset (Fin threads)

inductive Point where
  -- run_thread
  | begin
  | loop (flagIsSet : Bool)
  | read
  | print
  | gone
  -- main
  | create (i : Nat)
  | sleep
  | setFlag
  | broadcast
  | unlock
  | join (i : Nat)
  | done
  deriving DecidableEq, Repr

inductive Note where
  | flagIsSet
  deriving DecidableEq, Repr

variable {threads : Nat}

abbrev Statement (threads : Nat) := Command Cond (Shared threads) Point Note

def runThread (i : Fin threads) (point : Point) (shared : Shared threads) : Statement threads :=
  match point with
  | .begin => .lock (.loop false)
  | .loop false => .wait .condition .read
  | .loop true => .unlock .print
  | .read => .assign shared (.loop shared.globalFlag) []
  | .print => .assign { shared with exited := insert i shared.exited } .gone [.flagIsSet]
  | point => .assign shared point []

/-- The source has two threads. The `sleep` of `main` may be as long as it likes. -/
def runMain (point : Point) (shared : Shared threads) : Statement threads :=
  match point with
  | .create i =>
      if i < threads then .assign { shared with created := i + 1 } (.create (i + 1)) [] else .assign shared .sleep []
  | .sleep => .lock .setFlag
  | .setFlag => .assign { shared with globalFlag := true } .broadcast []
  | .broadcast => .broadcast .condition .unlock
  | .unlock => .unlock (.join 0)
  | .join i => if i < threads then .assign shared (.join (i + 1)) [] else .assign shared .done []
  | point => .assign shared point []

def program (threads : Nat) : Program (Tid threads) Cond (Shared threads) Point Empty Note where
  enter _ call := nomatch call
  next
    | none, point, shared => runMain point shared
    | some i, point, shared => runThread i point shared

/-- Before a thread is created, and behind its end, there is nothing to execute, and
`pthread_join` waits. -/
def waits (tid : Tid threads) (point : Point) (shared : Shared threads) : Bool :=
  match tid, point with
  | some i, .begin => decide (shared.created ≤ i)
  | some _, .gone => true
  | none, .join i => if inside : i < threads then decide (⟨i, inside⟩ ∉ shared.exited) else false
  | none, .done => true
  | _, _ => false

abbrev World (threads : Nat) := State (Tid threads) Cond (Shared threads) Point

def allowed (spurious : Bool) (state : World threads) : Action (Tid threads) Empty → Bool
  | .call _ call => nomatch call
  | .step tid _ =>
      match state.threads tid with
      | .running point => !waits tid point state.shared
      | _ => false
  | .spurious _ => spurious
  | .reacquire _ => true

/-- With or without spurious wake-ups. -/
def condvarMachine (threads : Nat) (spurious : Bool) :
    Machine (World threads) (Action (Tid threads) Empty) (Tid threads × Note) :=
  (monitor (program threads)).restrict (allowed spurious)

def startPoint : Tid threads → Thread Cond Point
  | none => .running (.create 0)
  | some _ => .running .begin

def startWorld (threads : Nat) : World threads := ⟨⟨false, 0, ∅⟩, none, startPoint⟩

def Holds : Point → Prop
  | .loop _ | .read | .setFlag | .broadcast | .unlock => True
  | _ => False

def Parks (_ : Cond) (point : Point) : Prop := point = .read

theorem disciplined (threads : Nat) : Disciplined (program threads) Holds Parks where
  enter {_ call} := nomatch call
  command tid point shared := by
    cases tid with
    | none =>
      cases point <;> simp only [program, runMain] <;> (try split) <;> simp [Respects, Holds]
    | some i =>
      cases point with
      | loop flag => cases flag <;> simp [program, runThread, Respects, Holds, Parks]
      | read => simp [program, runThread, Respects, Holds]
      | _ => simp [program, runThread, Respects, Holds]
  parked {_ point} parked := by
    rw [show point = .read from parked]
    trivial

end PosixC.Condvar
