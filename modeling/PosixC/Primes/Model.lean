import Mathlib.Data.Fintype.Sum
import Mathlib.Tactic.DeriveFintype
import PosixC.Foundation.Monitor

/-! The producers and consumers of ex09/primes.

All threads share one list, one mutex and one condition variable. `main` joins
the producers, raises the flag and sends its broadcast without the mutex, and
joins the consumers.
-/

set_option autoImplicit false
set_option linter.dupNamespace false

namespace PosixC.Primes

open Foundation Foundation.Monitor

inductive Role (producers consumers : Nat) where
  | main
  | producer (index : Fin producers)
  | consumer (index : Fin consumers)
  deriving DecidableEq, Fintype

/-- The data of `shared_data` and, by thread, of `thread_data`; `exited` is what
`pthread_join` waits for. -/
structure Shared (producers consumers : Nat) where
  finished : Bool
  list : List Nat
  produced : Fin producers → Nat
  consumed : Fin consumers → Nat
  exited : Role producers consumers → Bool

/-- The points between the statements of the three functions. A thread that has
exited stays at `gone`. -/
inductive Point (producers consumers : Nat) where
  | begin
  -- run_producer
  | produce (k : Nat)
  | push (k : Nat)
  | signal (k : Nat)
  | count (k : Nat)
  | unlock (k : Nat)
  -- run_consumer
  | consume
  | test
  | sleep
  | resumed
  | quit
  | pop
  | release (tmp : Bool)
  | after (tmp : Bool)
  -- main
  | joinProducers (rest : List (Fin producers)) (produced : Nat)
  | setFinished (produced : Nat)
  | broadcast (produced : Nat)
  | joinConsumers (rest : List (Fin consumers)) (produced consumed : Nat)
  | done (produced consumed : Nat)
  | exit
  | gone
  deriving DecidableEq

def isPrime (n : Nat) : Bool :=
  if n = 0 ∨ n = 1 then false else (List.range' 2 (n - 2)).all fun k => n % k != 0

variable {producers consumers : Nat}

def listIsEmpty (shared : Shared producers consumers) : Bool := shared.list.length == 0

def listPush (succeeds : Bool) (shared : Shared producers consumers) (value : Nat) :
    Option (Shared producers consumers) :=
  if succeeds then some { shared with list := shared.list ++ [value] } else none

def listPop (shared : Shared producers consumers) : Option (Shared producers consumers) :=
  match shared.list with
  | [] => none
  | _ :: rest => some { shared with list := rest }

def leave (self : Role producers consumers) (shared : Shared producers consumers) : Shared producers consumers :=
  { shared with exited := Function.update shared.exited self true }

abbrev World (producers consumers : Nat) :=
  State (Role producers consumers) Unit (Shared producers consumers) (Point producers consumers)

abbrev Statement (producers consumers : Nat) :=
  Command Unit (Shared producers consumers) (Point producers consumers) Empty

/-- `allocates` tells whether there is memory for the node of each number. -/
def runProducer (allocates : Fin producers → Nat → Bool) (self : Fin producers)
    (point : Point producers consumers) (shared : Shared producers consumers) : Statement producers consumers :=
  match point with
  | .begin => .assign { shared with produced := Function.update shared.produced self 0 } (.produce 1000) []
  | .produce k =>
      if k < 5000 then
        if isPrime k then .lock (.push k) else .assign shared (.produce (k + 1)) []
      else .assign shared .exit []
  | .push k =>
      match listPush (allocates self k) shared k with
      | none => .assign shared (.unlock k) []
      | some pushed => .assign pushed (.signal k) []
  | .signal k => .signal () (.count k)
  | .count k =>
      .assign { shared with produced := Function.update shared.produced self (shared.produced self + 1) } (.unlock k) []
  | .unlock k => .unlock (.produce (k + 1))
  | .exit => .assign (leave (.producer self) shared) .gone []
  | other => .assign shared other []

def runConsumer (self : Fin consumers) (point : Point producers consumers) (shared : Shared producers consumers) :
    Statement producers consumers :=
  match point with
  | .begin => .assign { shared with consumed := Function.update shared.consumed self 0 } .consume []
  | .consume => .lock .test
  | .test => if listIsEmpty shared then .assign shared .sleep [] else .assign shared .pop []
  | .sleep => .wait () .resumed
  -- The flag is looked at only after a wait, and the list is not looked at again.
  | .resumed => if shared.finished then .assign shared .quit [] else .assign shared .test []
  | .quit => .unlock .exit
  | .pop =>
      match listPop shared with
      | none => .assign shared (.release true) []
      | some popped => .assign popped (.release false) []
  | .release tmp => .unlock (.after tmp)
  | .after tmp =>
      if tmp then
        if shared.finished then .assign shared .exit [] else .assign shared .consume []
      else
        .assign { shared with consumed := Function.update shared.consumed self (shared.consumed self + 1) } .consume []
  | .exit => .assign (leave (.consumer self) shared) .gone []
  | other => .assign shared other []

/-- From the first join on. A join of a thread that runs leaves `main` where it is. -/
def runMain (point : Point producers consumers) (shared : Shared producers consumers) :
    Statement producers consumers :=
  match point with
  | .begin => .assign shared (.joinProducers (List.finRange producers) 0) []
  | .joinProducers [] produced => .assign shared (.setFinished produced) []
  | .joinProducers (next :: rest) produced =>
      if shared.exited (.producer next) then
        .assign shared (.joinProducers rest (produced + shared.produced next)) []
      else .assign shared (.joinProducers (next :: rest) produced) []
  | .setFinished produced => .assign { shared with finished := true } (.broadcast produced) []
  | .broadcast produced => .broadcast () (.joinConsumers (List.finRange consumers) produced 0)
  | .joinConsumers [] produced consumed => .assign shared (.done produced consumed) []
  | .joinConsumers (next :: rest) produced consumed =>
      if shared.exited (.consumer next) then
        .assign shared (.joinConsumers rest produced (consumed + shared.consumed next)) []
      else .assign shared (.joinConsumers (next :: rest) produced consumed) []
  | other => .assign shared other []

/-- A call is the start of a thread; nobody starts twice, since nobody becomes
idle again. -/
def primesProgram (allocates : Fin producers → Nat → Bool) :
    Program (Role producers consumers) Unit (Shared producers consumers) (Point producers consumers) Unit Empty where
  enter _ _ := some .begin
  next self point shared :=
    match self with
    | .main => runMain point shared
    | .producer index => runProducer allocates index point shared
    | .consumer index => runConsumer index point shared

abbrev primesMachine (consumers : Nat) (allocates : Fin producers → Nat → Bool) :=
  monitor (@primesProgram producers consumers allocates)

/-- The list is empty and the counters hold whatever their memory held. -/
def startShared (produced : Fin producers → Nat) (consumed : Fin consumers → Nat) : Shared producers consumers :=
  ⟨false, [], produced, consumed, fun _ => false⟩

section Statements

variable (shared : Shared producers consumers)

inductive Does : Role producers consumers → Point producers consumers → Statement producers consumers → Prop where
  | stay {self : Role producers consumers} {point : Point producers consumers} :
      Does self point (.assign shared point [])
  | exit {self : Role producers consumers} : Does self .exit (.assign (leave self shared) .gone [])
  | startProducer {self : Fin producers} : Does (.producer self) .begin
      (.assign { shared with produced := Function.update shared.produced self 0 } (.produce 1000) [])
  | skip {self : Fin producers} {k : Nat} : Does (.producer self) (.produce k) (.assign shared (.produce (k + 1)) [])
  | lockPush {self : Fin producers} {k : Nat} : Does (.producer self) (.produce k) (.lock (.push k))
  | exhausted {self : Fin producers} {k : Nat} : Does (.producer self) (.produce k) (.assign shared .exit [])
  | pushFails {self : Fin producers} {k : Nat} : Does (.producer self) (.push k) (.assign shared (.unlock k) [])
  | push {self : Fin producers} {k : Nat} : Does (.producer self) (.push k)
      (.assign { shared with list := shared.list ++ [k] } (.signal k) [])
  | signal {self : Fin producers} {k : Nat} : Does (.producer self) (.signal k) (.signal () (.count k))
  | count {self : Fin producers} {k : Nat} : Does (.producer self) (.count k)
      (.assign { shared with produced := Function.update shared.produced self (shared.produced self + 1) }
        (.unlock k) [])
  | unlock {self : Fin producers} {k : Nat} : Does (.producer self) (.unlock k) (.unlock (.produce (k + 1)))
  | startConsumer {self : Fin consumers} : Does (.consumer self) .begin
      (.assign { shared with consumed := Function.update shared.consumed self 0 } .consume [])
  | lock {self : Fin consumers} : Does (.consumer self) .consume (.lock .test)
  | testEmpty {self : Fin consumers} : shared.list = [] → Does (.consumer self) .test (.assign shared .sleep [])
  | testFilled {self : Fin consumers} : shared.list ≠ [] → Does (.consumer self) .test (.assign shared .pop [])
  | sleep {self : Fin consumers} : Does (.consumer self) .sleep (.wait () .resumed)
  | giveUp {self : Fin consumers} : shared.finished = true →
      Does (.consumer self) .resumed (.assign shared .quit [])
  | retest {self : Fin consumers} : shared.finished = false →
      Does (.consumer self) .resumed (.assign shared .test [])
  | quit {self : Fin consumers} : Does (.consumer self) .quit (.unlock .exit)
  | popFails {self : Fin consumers} : shared.list = [] →
      Does (.consumer self) .pop (.assign shared (.release true) [])
  | pop {self : Fin consumers} {value : Nat} {rest : List Nat} : shared.list = value :: rest →
      Does (.consumer self) .pop (.assign { shared with list := rest } (.release false) [])
  | release {self : Fin consumers} {tmp : Bool} : Does (.consumer self) (.release tmp) (.unlock (.after tmp))
  | breakLoop {self : Fin consumers} : shared.finished = true →
      Does (.consumer self) (.after true) (.assign shared .exit [])
  | again {self : Fin consumers} : Does (.consumer self) (.after true) (.assign shared .consume [])
  | countUp {self : Fin consumers} : Does (.consumer self) (.after false)
      (.assign { shared with consumed := Function.update shared.consumed self (shared.consumed self + 1) } .consume [])
  | startMain : Does .main .begin (.assign shared (.joinProducers (List.finRange producers) 0) [])
  | producersJoined {produced : Nat} : Does .main (.joinProducers [] produced) (.assign shared (.setFinished produced) [])
  | joinProducer {next : Fin producers} {rest : List (Fin producers)} {produced : Nat} :
      shared.exited (.producer next) = true → Does .main (.joinProducers (next :: rest) produced)
        (.assign shared (.joinProducers rest (produced + shared.produced next)) [])
  | setFinished {produced : Nat} : Does .main (.setFinished produced)
      (.assign { shared with finished := true } (.broadcast produced) [])
  | broadcast {produced : Nat} : Does .main (.broadcast produced)
      (.broadcast () (.joinConsumers (List.finRange consumers) produced 0))
  | consumersJoined {produced consumed : Nat} : Does .main (.joinConsumers [] produced consumed)
      (.assign shared (.done produced consumed) [])
  | joinConsumer {next : Fin consumers} {rest : List (Fin consumers)} {produced consumed : Nat} :
      shared.exited (.consumer next) = true → Does .main (.joinConsumers (next :: rest) produced consumed)
        (.assign shared (.joinConsumers rest produced (consumed + shared.consumed next)) [])

theorem does_producer (allocates : Fin producers → Nat → Bool) (self : Fin producers) (point : Point producers consumers) :
    Does shared (.producer self) point (runProducer allocates self point shared) := by
  cases point with
  | begin => exact .startProducer
  | produce k =>
    simp only [runProducer]
    split
    · split
      · exact .lockPush
      · exact .skip
    · exact .exhausted
  | push k =>
    simp only [runProducer, listPush]
    cases allocates self k with
    | false => exact .pushFails
    | true => exact .push
  | signal k => exact .signal
  | count k => exact .count
  | unlock k => exact .unlock
  | exit => exact .exit
  | _ => exact .stay

theorem does_consumer (self : Fin consumers) (point : Point producers consumers) :
    Does shared (.consumer self) point (runConsumer self point shared) := by
  cases point with
  | begin => exact .startConsumer
  | consume => exact .lock
  | test =>
    by_cases empty : shared.list = []
    · rw [show runConsumer self .test shared = .assign shared .sleep [] by simp [runConsumer, listIsEmpty, empty]]
      exact .testEmpty empty
    · rw [show runConsumer self .test shared = .assign shared .pop [] by simp [runConsumer, listIsEmpty, empty]]
      exact .testFilled empty
  | sleep => exact .sleep
  | resumed =>
    simp only [runConsumer]
    split
    · next finished => exact .giveUp finished
    · next running => exact .retest (by simpa using running)
  | quit => exact .quit
  | pop =>
    cases place : shared.list with
    | nil =>
      simp only [runConsumer, listPop, place]
      exact .popFails place
    | cons value rest =>
      simp only [runConsumer, listPop, place]
      exact .pop place
  | release tmp => exact .release
  | after tmp =>
    cases tmp with
    | false => exact .countUp
    | true =>
      simp only [runConsumer, if_true]
      split
      · next finished => exact .breakLoop finished
      · exact .again
  | exit => exact .exit
  | _ => exact .stay

theorem does_main (point : Point producers consumers) : Does shared .main point (runMain point shared) := by
  cases point with
  | begin => exact .startMain
  | joinProducers rest produced =>
    cases rest with
    | nil => exact .producersJoined
    | cons next rest =>
      simp only [runMain]
      split
      · next exited => exact .joinProducer exited
      · exact .stay
  | setFinished produced => exact .setFinished
  | broadcast produced => exact .broadcast
  | joinConsumers rest produced consumed =>
    cases rest with
    | nil => exact .consumersJoined
    | cons next rest =>
      simp only [runMain]
      split
      · next exited => exact .joinConsumer exited
      · exact .stay
  | _ => exact .stay

variable {shared}

theorem does_of_next {allocates : Fin producers → Nat → Bool} {self : Role producers consumers} {point : Point producers consumers}
    {command : Statement producers consumers}
    (next : (primesProgram allocates).next self point shared = command) : Does shared self point command := by
  subst next
  cases self with
  | main => exact does_main shared point
  | producer index => exact does_producer shared allocates index point
  | consumer index => exact does_consumer shared index point

end Statements
end PosixC.Primes
