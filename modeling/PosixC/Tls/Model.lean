import Mathlib.Data.Fintype.Option
import PosixC.Foundation.Barrier

/-! The storage classes that ex08/tls shows.

Every thread writes its number to an automatic variable, to a static one, to a
`__thread` one and to a block behind a `pthread_key_t`, meets the others at a barrier
and prints what it finds. `main` does the same as the thread of number `-1`.
-/

set_option autoImplicit false

namespace PosixC.Tls

open Foundation Foundation.Barrier

/-- `main` is `none`. -/
abbrev Thread (threads : Nat) := Option (Fin threads)

variable {threads : Nat}

/-- The `id` that `set_thread_data` is called with. -/
def number : Thread threads → Int
  | none => -1
  | some i => i

structure Line where
  id : Int
  id_local : Int
  id_static : Int
  id_thread : Int
  id_specific : Option Int
  deriving DecidableEq, Repr

/-- What the threads see of each other. `specific` holds what the block of each thread
holds, `created` and `exited` are what threads wait for, and `terminated` is set by `exit`. -/
structure Shared (threads : Nat) where
  data : Thread threads → Int
  id_static : Int
  id_thread : Thread threads → Int
  specific : Thread threads → Option Int
  created : Nat
  exited : Finset Nat
  terminated : Bool

structure Outcome (threads : Nat) where
  creates : Nat → Bool
  allocates : Thread threads → Bool
  sets : Thread threads → Bool

structure Outcome.Good (outcome : Outcome threads) : Prop where
  creates : ∀ i < threads, outcome.creates i = true
  allocates : ∀ thread, outcome.allocates thread = true
  sets : ∀ thread, outcome.sets thread = true

inductive Point (threads : Nat) where
  | begin
  -- run_thread
  | enter
  | writeStatic (id_local : Int)
  | writeThread (id_local : Int)
  | allocate (id_local : Int)
  | setspecific (id_local value : Int)
  | barrierWait (id_local : Int)
  | print (id_local : Int)
  | exit
  | gone
  -- pthread_exit after an error
  | fail
  | failed
  -- main
  | setMain
  | setData (i : Nat)
  | create (i : Fin threads)
  | join (i : Nat)
  | done
  deriving DecidableEq

abbrev Statement (threads : Nat) := Command (Shared threads) (Point threads) Line

/-- `return` leads a thread to its exit and `main` to its cleanup. -/
def returnPoint : Thread threads → Point threads
  | none => .join 0
  | some _ => .exit

def runThread (outcome : Outcome threads) (self : Thread threads) (point : Point threads) (shared : Shared threads) :
    Statement threads :=
  match point with
  | .enter => .assign shared (.writeStatic (shared.data self)) []
  | .writeStatic id => .assign { shared with id_static := shared.data self } (.writeThread id) []
  | .writeThread id =>
      .assign { shared with id_thread := Function.update shared.id_thread self (shared.data self) } (.allocate id) []
  | .allocate id =>
      if outcome.allocates self then .assign shared (.setspecific id (shared.data self)) [] else .assign shared .fail []
  | .setspecific id value =>
      if outcome.sets self then
        .assign { shared with specific := Function.update shared.specific self (some value) } (.barrierWait id) []
      else .assign shared .fail []
  | .barrierWait id => .barrier (.print id)
  | .print id =>
      .assign shared (returnPoint self)
        [⟨shared.data self, id, shared.id_static, shared.id_thread self, shared.specific self⟩]
  | _ => .blocked

def runWorker (outcome : Outcome threads) (self : Fin threads) (point : Point threads) (shared : Shared threads) :
    Statement threads :=
  match point with
  | .begin => if self < shared.created then .assign shared .enter [] else .blocked
  | .exit => .assign { shared with exited := insert self.val shared.exited } .gone []
  | .fail => .assign { shared with exited := insert self.val shared.exited } .failed []
  | .setMain | .setData _ | .create _ | .join _ | .done => .blocked
  | point => runThread outcome (some self) point shared

/-- A thread that cannot be created ends the whole process. -/
def runMain (outcome : Outcome threads) (point : Point threads) (shared : Shared threads) : Statement threads :=
  match point with
  | .setMain => .assign { shared with data := Function.update shared.data none (number (none : Thread threads)) } (.setData 0) []
  | .setData i =>
      if more : i < threads then
        .assign { shared with data := Function.update shared.data (some ⟨i, more⟩) i } (.create ⟨i, more⟩) []
      else .assign shared .enter []
  | .create i =>
      if outcome.creates i then .assign { shared with created := i + 1 } (.setData (i + 1)) []
      else .assign { shared with terminated := true } .failed []
  | .join i =>
      if i < threads then if i ∈ shared.exited then .assign shared (.join (i + 1)) [] else .blocked
      else .assign shared .done []
  | .fail => .assign shared .failed []
  | .begin | .exit => .blocked
  | point => runThread outcome none point shared

def program (outcome : Outcome threads) : Program (Thread threads) (Shared threads) (Point threads) Line
  | self, point, shared =>
      if shared.terminated then .blocked
      else match self with
        | none => runMain outcome point shared
        | some id => runWorker outcome id point shared

abbrev tlsMachine (outcome : Outcome threads) := machine (threads + 1) (program outcome)

abbrev World (threads : Nat) := State (Thread threads) (Shared threads) (Point threads)

def startPoint : Thread threads → Point threads
  | none => .setMain
  | some _ => .begin

/-- `data` is what `malloc` left there. -/
def startWorld (data : Thread threads → Int) : World threads :=
  initial ⟨data, 0, fun _ => 0, fun _ => none, 0, ∅, false⟩ startPoint

section Statements

variable (outcome : Outcome threads) (shared : Shared threads)

inductive Does : Thread threads → Point threads → Statement threads → Prop where
  | wait {self : Thread threads} {point : Point threads} : Does self point .blocked
  | begin {id : Fin threads} : id < shared.created → Does (some id) .begin (.assign shared .enter [])
  | enter {self : Thread threads} : Does self .enter (.assign shared (.writeStatic (shared.data self)) [])
  | writeStatic {self : Thread threads} {id : Int} : Does self (.writeStatic id)
      (.assign { shared with id_static := shared.data self } (.writeThread id) [])
  | writeThread {self : Thread threads} {id : Int} : Does self (.writeThread id)
      (.assign { shared with id_thread := Function.update shared.id_thread self (shared.data self) } (.allocate id) [])
  | allocate {self : Thread threads} {id : Int} : outcome.allocates self = true →
      Does self (.allocate id) (.assign shared (.setspecific id (shared.data self)) [])
  | unallocated {self : Thread threads} {id : Int} : outcome.allocates self = false →
      Does self (.allocate id) (.assign shared .fail [])
  | setspecific {self : Thread threads} {id value : Int} : outcome.sets self = true → Does self (.setspecific id value)
      (.assign { shared with specific := Function.update shared.specific self (some value) } (.barrierWait id) [])
  | unset {self : Thread threads} {id value : Int} : outcome.sets self = false →
      Does self (.setspecific id value) (.assign shared .fail [])
  | barrierWait {self : Thread threads} {id : Int} : Does self (.barrierWait id) (.barrier (.print id))
  | print {self : Thread threads} {id : Int} : Does self (.print id)
      (.assign shared (returnPoint self)
        [⟨shared.data self, id, shared.id_static, shared.id_thread self, shared.specific self⟩])
  | exit {id : Fin threads} : Does (some id) .exit
      (.assign { shared with exited := insert id.val shared.exited } .gone [])
  | fail {id : Fin threads} : Does (some id) .fail
      (.assign { shared with exited := insert id.val shared.exited } .failed [])
  | failMain : Does none .fail (.assign shared .failed [])
  | setMain : Does none .setMain
      (.assign { shared with data := Function.update shared.data none (number (none : Thread threads)) } (.setData 0) [])
  | setData {i : Fin threads} : Does none (.setData i)
      (.assign { shared with data := Function.update shared.data (some i) (number (some i)) } (.create i) [])
  | join {i : Nat} : threads ≤ i → Does none (.setData i) (.assign shared .enter [])
  | create {i : Fin threads} : outcome.creates i = true → Does none (.create i)
      (.assign { shared with created := i + 1 } (.setData (i + 1)) [])
  | terminate {i : Fin threads} : outcome.creates i = false → Does none (.create i)
      (.assign { shared with terminated := true } .failed [])
  | joined {i : Nat} : i < threads → i ∈ shared.exited → Does none (.join i) (.assign shared (.join (i + 1)) [])
  | done {i : Nat} : threads ≤ i → Does none (.join i) (.assign shared .done [])

theorem does_thread (self : Thread threads) (point : Point threads) :
    Does outcome shared self point (runThread outcome self point shared) := by
  cases point with
  | enter => exact .enter
  | writeStatic => exact .writeStatic
  | writeThread => exact .writeThread
  | allocate =>
    simp only [runThread]
    split
    · next succeeds => exact .allocate succeeds
    · next fails => exact .unallocated (Bool.eq_false_iff.mpr fails)
  | setspecific =>
    simp only [runThread]
    split
    · next succeeds => exact .setspecific succeeds
    · next fails => exact .unset (Bool.eq_false_iff.mpr fails)
  | barrierWait => exact .barrierWait
  | print => exact .print
  | _ => exact .wait

theorem does_worker (self : Fin threads) (point : Point threads) :
    Does outcome shared (some self) point (runWorker outcome self point shared) := by
  cases point with
  | begin =>
    simp only [runWorker]
    split
    · next started => exact .begin started
    · exact .wait
  | exit => exact .exit
  | fail => exact .fail
  | setMain | setData | create | join | done => exact .wait
  | _ => exact does_thread outcome shared (some self) _

theorem does_main (point : Point threads) : Does outcome shared none point (runMain outcome point shared) := by
  cases point with
  | setMain => exact .setMain
  | setData i =>
    simp only [runMain]
    split
    · next more => exact @Does.setData _ _ _ ⟨i, more⟩
    · next all => exact .join (Nat.not_lt.mp all)
  | create i =>
    simp only [runMain]
    split
    · next succeeds => exact .create succeeds
    · next fails => exact .terminate (Bool.eq_false_iff.mpr fails)
  | join i =>
    simp only [runMain]
    split
    · next more =>
      split
      · next exited => exact .joined more exited
      · exact .wait
    · next all => exact .done (Nat.not_lt.mp all)
  | fail => exact .failMain
  | begin | exit => exact .wait
  | _ => exact does_thread outcome shared none _

end Statements

theorem does_program (outcome : Outcome threads) (self : Thread threads) (point : Point threads)
    (shared : Shared threads) : Does outcome shared self point (program outcome self point shared) := by
  cases ended : shared.terminated with
  | true =>
    simp only [program, ended, if_true]
    exact .wait
  | false =>
    simp only [program, ended, Bool.false_eq_true, if_false]
    cases self with
    | none => exact does_main outcome shared point
    | some id => exact does_worker outcome shared id point

theorem does_of_program {outcome : Outcome threads} {self : Thread threads} {point : Point threads}
    {shared : Shared threads} {command : Statement threads} (next : program outcome self point shared = command) :
    Does outcome shared self point command :=
  next ▸ does_program outcome self point shared

def stage : Point threads → Stage
  | .barrierWait _ => .meeting
  | .print _ | .exit | .gone | .join _ | .done => .past
  | _ => .before

def rank : Point threads → Nat
  | .setMain => 3 * threads + 13
  | .setData i => 2 * (threads - i) + threads + 12
  | .create i => 2 * (threads - i) + threads + 11
  | .begin => threads + 11
  | .enter => threads + 10
  | .writeStatic _ => threads + 9
  | .writeThread _ => threads + 8
  | .allocate _ => threads + 7
  | .setspecific _ _ => threads + 6
  | .barrierWait _ => threads + 5
  | .print _ => threads + 4
  | .fail | .exit => 1
  | .join i => threads - i + 1
  | .gone | .failed | .done => 0

section Rules

variable (outcome : Outcome threads) (self : Thread threads) (point : Point threads) (shared : Shared threads)

theorem follows : Follows stage point (program outcome self point shared) := by
  generalize next : program outcome self point shared = command
  cases does_of_program next
  case print => cases self <;> simp [Follows, stage, returnPoint]
  all_goals simp [Follows, stage]

theorem lowers : Lowers rank point (program outcome self point shared) := by
  generalize next : program outcome self point shared = command
  cases does_of_program next
  case print => cases self <;> simp only [Lowers, rank, returnPoint] <;> omega
  all_goals simp only [Lowers, rank]
  all_goals omega

end Rules
end PosixC.Tls
