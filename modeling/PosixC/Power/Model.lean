import Mathlib.Data.Fintype.Option
import PosixC.Foundation.Barrier
import PosixC.Foundation.CInt

/-! The workers of ex09/power and the `main` that counts on them.

Every worker adds one to a shared counter as often as there are workers. They start
together, behind a barrier for all of them, so a worker that could not be created is
missed there.
-/

set_option autoImplicit false

namespace PosixC.Power

open Foundation Foundation.Barrier

/-- `main` is `none`. -/
abbrev Thread (threads : Nat) := Option (Fin threads)

structure Report where
  threads : Nat
  counter : Int
  expected : Int
  success : Bool
  deriving DecidableEq, Repr

/-- `created` is what the workers wait for and `exited` what `pthread_join` does. -/
structure Shared where
  counter : Int
  created : Nat
  exited : Finset Nat
  deriving DecidableEq

inductive Point (threads : Nat) where
  -- worker_run
  | begin
  | barrierWait
  | iterate (i : Nat)
  | load (i : Fin threads)
  | store (i : Fin threads) (value : Int)
  | unlock (i : Fin threads)
  | exit
  | gone
  -- main
  | create (tx : Nat)
  | join (tx limit : Nat)
  | done
  deriving DecidableEq

variable {threads : Nat}

abbrev Statement (threads : Nat) := Command Shared (Point threads) Report

/-- An overflow of the counter is no step. -/
def workerRun (id : Nat) (point : Point threads) (shared : Shared) : Statement threads :=
  match point with
  | .begin => if id < shared.created then .assign shared .barrierWait [] else .blocked
  | .barrierWait => .barrier (.iterate 0)
  | .iterate i => if more : i < threads then .lock (.load ⟨i, more⟩) else .assign shared .exit []
  | .load i => .assign shared (.store i shared.counter) []
  | .store i value =>
      match exactInt (value + 1) with
      | some next => .assign { shared with counter := next } (.unlock i) []
      | none => .blocked
  | .unlock i => .unlock (.iterate (i + 1))
  | .exit => .assign { shared with exited := insert id shared.exited } .gone []
  | _ => .blocked

def report (limit threads : Nat) (counter : Int) : Report where
  threads := limit
  counter := counter
  expected := toInt (threads * threads : Nat)
  success := counter = toInt (threads * threads : Nat)

/-- `creates tx` tells whether `pthread_create` succeeds for worker `tx`. After a failure
`threads` is what `main` has created, for the joins and for what it prints. -/
def runMain (creates : Nat → Bool) (point : Point threads) (shared : Shared) : Statement threads :=
  match point with
  | .create tx =>
      if tx < threads then
        if creates tx then .assign { shared with created := tx + 1 } (.create (tx + 1)) []
        else .assign shared (.join 0 tx) []
      else .assign shared (.join 0 threads) []
  | .join tx limit =>
      if tx < limit then if tx ∈ shared.exited then .assign shared (.join (tx + 1) limit) [] else .blocked
      else .assign shared .done [report limit threads shared.counter]
  | _ => .blocked

def program (creates : Nat → Bool) : Program (Thread threads) Shared (Point threads) Report
  | none, point, shared => runMain creates point shared
  | some id, point, shared => workerRun id point shared

/-- The count of `pthread_barrier_init` is an `unsigned`. -/
def barrierCount (threads : Nat) : Nat := threads % 2 ^ 32

abbrev powerMachine (threads : Nat) (creates : Nat → Bool) :=
  machine (barrierCount threads) (@program threads creates)

def startPoint : Thread threads → Point threads
  | none => .create 0
  | some _ => .begin

abbrev World (threads : Nat) := State (Thread threads) Shared (Point threads)

def startWorld (threads : Nat) : World threads := initial ⟨0, 0, ∅⟩ startPoint

section Statements

variable (creates : Nat → Bool) (shared : Shared)

inductive Does : Thread threads → Point threads → Statement threads → Prop where
  | wait {self : Thread threads} {point : Point threads} : Does self point .blocked
  | begin {id : Fin threads} : id < shared.created → Does (some id) .begin (.assign shared .barrierWait [])
  | barrierWait {id : Fin threads} : Does (some id) .barrierWait (.barrier (.iterate 0))
  | iterate {id i : Fin threads} : Does (some id) (.iterate i) (.lock (.load i))
  | leave {id : Fin threads} {i : Nat} : threads ≤ i → Does (some id) (.iterate i) (.assign shared .exit [])
  | load {id i : Fin threads} : Does (some id) (.load i) (.assign shared (.store i shared.counter) [])
  | store {id i : Fin threads} {value : Int} : IsInt (value + 1) → Does (some id) (.store i value)
      (.assign { shared with counter := value + 1 } (.unlock i) [])
  | unlock {id i : Fin threads} : Does (some id) (.unlock i) (.unlock (.iterate (i + 1)))
  | exit {id : Fin threads} : Does (some id) .exit
      (.assign { shared with exited := insert id.val shared.exited } .gone [])
  | create {tx : Nat} : tx < threads → creates tx = true → Does none (.create tx)
      (.assign { shared with created := tx + 1 } (.create (tx + 1)) [])
  | failed {tx : Nat} : tx < threads → creates tx = false → Does none (.create tx) (.assign shared (.join 0 tx) [])
  | created {tx : Nat} : threads ≤ tx → Does none (.create tx) (.assign shared (.join 0 threads) [])
  | joined {tx limit : Nat} : tx < limit → tx ∈ shared.exited → Does none (.join tx limit)
      (.assign shared (.join (tx + 1) limit) [])
  | done {tx limit : Nat} : limit ≤ tx → Does none (.join tx limit)
      (.assign shared .done [report limit threads shared.counter])

theorem does_worker (id : Fin threads) (point : Point threads) :
    Does creates shared (some id) point (workerRun id point shared) := by
  cases point with
  | begin =>
    simp only [workerRun]
    split
    · next started => exact .begin started
    · exact .wait
  | barrierWait => exact .barrierWait
  | iterate i =>
    simp only [workerRun]
    split
    · next more => exact @Does.iterate _ _ _ id ⟨i, more⟩
    · next last => exact .leave (Nat.not_lt.mp last)
  | load => exact .load
  | store i value =>
    simp only [workerRun, exactInt]
    split
    · next stored =>
      split at stored
      · next fits =>
        cases stored
        exact .store fits
      · cases stored
    · exact .wait
  | unlock => exact .unlock
  | exit => exact .exit
  | _ => exact .wait

theorem does_main (point : Point threads) : Does creates shared none point (runMain creates point shared) := by
  cases point with
  | create tx =>
    simp only [runMain]
    split
    · next more =>
      split
      · next succeeds => exact .create more succeeds
      · next fails => exact .failed more (Bool.eq_false_iff.mpr fails)
    · next all => exact .created (Nat.not_lt.mp all)
  | join tx limit =>
    simp only [runMain]
    split
    · next more =>
      split
      · next exited => exact .joined more exited
      · exact .wait
    · next all => exact .done (Nat.not_lt.mp all)
  | _ => exact .wait

end Statements

theorem does_program (creates : Nat → Bool) (self : Thread threads) (point : Point threads) (shared : Shared) :
    Does creates shared self point (program creates self point shared) := by
  cases self with
  | none => exact does_main creates shared point
  | some id => exact does_worker creates shared id point

theorem does_of_program {creates : Nat → Bool} {self : Thread threads} {point : Point threads} {shared : Shared}
    {command : Statement threads} (next : program creates self point shared = command) :
    Does creates shared self point command :=
  next ▸ does_program creates self point shared

def Holds : Point threads → Prop
  | .load _ | .store _ _ | .unlock _ => True
  | _ => False

def stage : Point threads → Stage
  | .barrierWait => .meeting
  | .begin | .create _ | .join _ _ | .done => .before
  | _ => .past

def rank : Point threads → Nat
  | .begin => 4 * threads + 4
  | .barrierWait => 4 * threads + 3
  | .iterate i => 4 * (threads - i) + 2
  | .load i => 4 * (threads - i) + 1
  | .store i _ => 4 * (threads - i)
  | .unlock i => 4 * (threads - i) - 1
  | .exit => 1
  | .gone => 0
  | .create tx => (threads - tx) + threads + 2
  | .join tx limit => limit - tx + 1
  | .done => 0

section Rules

variable (creates : Nat → Bool) (self : Thread threads) (point : Point threads) (shared : Shared)

theorem respects : Respects Holds point (program creates self point shared) := by
  generalize next : program creates self point shared = command
  cases does_of_program next <;> simp [Respects, Holds]

theorem follows : Follows stage point (program creates self point shared) := by
  generalize next : program creates self point shared = command
  cases does_of_program next <;> simp [Follows, stage]

theorem lowers : Lowers rank point (program creates self point shared) := by
  generalize next : program creates self point shared = command
  cases does_of_program next <;> simp only [Lowers, rank] <;> omega

end Rules
end PosixC.Power
