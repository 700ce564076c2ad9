import Mathlib.Data.Fintype.Sum
import Mathlib.Tactic.DeriveFintype
import PosixC.Foundation.RwLock

/-! The producer and the consumers of ex09/sqrt.

The producer publishes a number with its integral square root in two writes, and
the consumers take it in two reads. One reader-writer lock guards the pair, a
second one the flag that ends the consumers.
-/

set_option autoImplicit false
set_option linter.dupNamespace false

namespace PosixC.Sqrt

open Foundation Foundation.RwLock

inductive Role (consumers : Nat) where
  | main
  | producer
  | consumer (index : Fin consumers)
  deriving DecidableEq, Fintype

inductive Lock where
  | data | finished
  deriving DecidableEq, Repr

structure Shared (consumers : Nat) where
  finished : Bool
  s : Int
  n : Int
  errors : Fin consumers → Int
  exited : Fin consumers → Bool

/-- The points between the statements of the three functions. The reads and the
writes of the fields are statements of their own. -/
inductive Point (consumers : Nat) where
  | begin
  -- consumer_run
  | lockFinished
  | readFinished
  | unlockFinished (cond : Bool)
  | loop (cond : Bool)
  | readS
  | readN (s : Int)
  | unlockData (s n : Int)
  | verify (s n : Int)
  | mismatch
  -- producer_run
  | iterate (i : Nat)
  | descend (i : Nat) (n s : Int)
  | lockData (i : Nat) (n s : Int)
  | writeN (i : Nat) (n s : Int)
  | writeS (i : Nat) (n s : Int)
  | unlockWritten (i : Nat)
  | printS (i : Nat)
  | printN (i : Nat) (s : Int)
  | lockDone
  | setFinished
  | unlockDone
  -- main
  | join (rest : List (Fin consumers)) (errors : Int)
  | done (errors : Int)
  | exit
  | gone
  deriving DecidableEq

inductive Note where
  | snapshot (s n : Int)
  | mismatch
  | commit (s n : Int) (i iterations : Nat)
  deriving DecidableEq, Repr

variable {consumers : Nat}

abbrev World (consumers : Nat) := State (Role consumers) Lock (Shared consumers) (Point consumers)

abbrev Statement (consumers : Nat) := Command Lock (Shared consumers) (Point consumers) Note

def consumerRun (self : Fin consumers) (point : Point consumers) (shared : Shared consumers) : Statement consumers :=
  match point with
  | .begin => .assign { shared with errors := Function.update shared.errors self 0 } .lockFinished []
  | .lockFinished => .rdlock .finished .readFinished
  | .readFinished => .assign shared (.unlockFinished !shared.finished) []
  | .unlockFinished cond => .unlock .finished (.loop cond)
  | .loop cond => if cond then .rdlock .data .readS else .assign shared .exit []
  | .readS => .assign shared (.readN shared.s) []
  | .readN s => .assign shared (.unlockData s shared.n) [.snapshot s shared.n]
  | .unlockData s n => .unlock .data (.verify s n)
  | .verify s n =>
      if s * s > n ∨ n ≥ (s + 1) * (s + 1) then .assign shared .mismatch [.mismatch]
      else .assign shared .lockFinished []
  | .mismatch =>
      .assign { shared with errors := Function.update shared.errors self (shared.errors self + 1) } .lockFinished []
  | .exit => .assign { shared with exited := Function.update shared.exited self true } .gone []
  | other => .assign shared other []

/-- `rand i` is what the call of `rand` in iteration `i` returns. -/
def producerRun (rand : Nat → Nat) (iterations : Nat) (point : Point consumers) (shared : Shared consumers) :
    Statement consumers :=
  match point with
  | .begin => .assign shared (.iterate 0) []
  | .iterate i =>
      if i < iterations then
        .assign shared (.descend i (128 + rand i % 4096) (128 + rand i % 4096)) []
      else .assign shared .lockDone []
  | .descend i n s => if s * s > n then .assign shared (.descend i n (s - 1)) [] else .assign shared (.lockData i n s) []
  | .lockData i n s => .wrlock .data (.writeN i n s)
  | .writeN i n s => .assign { shared with n := n } (.writeS i n s) []
  | .writeS i _ s => .assign { shared with s := s } (.unlockWritten i) []
  | .unlockWritten i => .unlock .data (.printS i)
  | .printS i => .assign shared (.printN i shared.s) []
  | .printN i s => .assign shared (.iterate (i + 1)) [.commit s shared.n i iterations]
  | .lockDone => .wrlock .finished .setFinished
  | .setFinished => .assign { shared with finished := true } .unlockDone []
  | .unlockDone => .unlock .finished .gone
  | other => .assign shared other []

def runMain (point : Point consumers) (shared : Shared consumers) : Statement consumers :=
  match point with
  | .begin => .assign shared (.join (List.finRange consumers) 0) []
  | .join [] errors => .assign shared (.done errors) []
  | .join (next :: rest) errors =>
      if shared.exited next then .assign shared (.join rest (errors + shared.errors next)) []
      else .assign shared (.join (next :: rest) errors) []
  | other => .assign shared other []

def sqrtProgram (rand : Nat → Nat) (iterations : Nat) (self : Role consumers) (point : Point consumers)
    (shared : Shared consumers) : Statement consumers :=
  match self with
  | .main => runMain point shared
  | .producer => producerRun rand iterations point shared
  | .consumer index => consumerRun index point shared

abbrev sqrtMachine (consumers : Nat) (rand : Nat → Nat) (iterations : Nat) :=
  machine (@sqrtProgram consumers rand iterations)

/-- The pair is zero and the counters hold whatever their memory held. -/
def startWorld (errors : Fin consumers → Int) : World consumers :=
  initial ⟨false, 0, 0, errors, fun _ => false⟩ fun _ => .begin

section Statements

variable (shared : Shared consumers)

inductive Does : Role consumers → Point consumers → Statement consumers → Prop where
  | stay {self : Role consumers} {point : Point consumers} : Does self point (.assign shared point [])
  | startConsumer {self : Fin consumers} : Does (.consumer self) .begin
      (.assign { shared with errors := Function.update shared.errors self 0 } .lockFinished [])
  | lockFinished {self : Fin consumers} : Does (.consumer self) .lockFinished (.rdlock .finished .readFinished)
  | readFinished {self : Fin consumers} : Does (.consumer self) .readFinished
      (.assign shared (.unlockFinished !shared.finished) [])
  | unlockFinished {self : Fin consumers} {cond : Bool} : Does (.consumer self) (.unlockFinished cond)
      (.unlock .finished (.loop cond))
  | enterLoop {self : Fin consumers} : Does (.consumer self) (.loop true) (.rdlock .data .readS)
  | leaveLoop {self : Fin consumers} : Does (.consumer self) (.loop false) (.assign shared .exit [])
  | readS {self : Fin consumers} : Does (.consumer self) .readS (.assign shared (.readN shared.s) [])
  | readN {self : Fin consumers} {s : Int} : Does (.consumer self) (.readN s)
      (.assign shared (.unlockData s shared.n) [.snapshot s shared.n])
  | unlockData {self : Fin consumers} {s n : Int} : Does (.consumer self) (.unlockData s n) (.unlock .data (.verify s n))
  | mismatched {self : Fin consumers} {s n : Int} : s * s > n ∨ n ≥ (s + 1) * (s + 1) →
      Does (.consumer self) (.verify s n) (.assign shared .mismatch [.mismatch])
  | matched {self : Fin consumers} {s n : Int} : Does (.consumer self) (.verify s n) (.assign shared .lockFinished [])
  | mismatch {self : Fin consumers} : Does (.consumer self) .mismatch
      (.assign { shared with errors := Function.update shared.errors self (shared.errors self + 1) } .lockFinished [])
  | exit {self : Fin consumers} : Does (.consumer self) .exit
      (.assign { shared with exited := Function.update shared.exited self true } .gone [])
  | startProducer : Does .producer .begin (.assign shared (.iterate 0) [])
  | generate {i : Nat} {n : Int} : 0 ≤ n → Does .producer (.iterate i) (.assign shared (.descend i n n) [])
  | exhausted {i : Nat} : Does .producer (.iterate i) (.assign shared .lockDone [])
  | descend {i : Nat} {n s : Int} : s * s > n → Does .producer (.descend i n s)
      (.assign shared (.descend i n (s - 1)) [])
  | found {i : Nat} {n s : Int} : s * s ≤ n → Does .producer (.descend i n s) (.assign shared (.lockData i n s) [])
  | lockData {i : Nat} {n s : Int} : Does .producer (.lockData i n s) (.wrlock .data (.writeN i n s))
  | writeN {i : Nat} {n s : Int} : Does .producer (.writeN i n s) (.assign { shared with n := n } (.writeS i n s) [])
  | writeS {i : Nat} {n s : Int} : Does .producer (.writeS i n s)
      (.assign { shared with s := s } (.unlockWritten i) [])
  | unlockWritten {i : Nat} : Does .producer (.unlockWritten i) (.unlock .data (.printS i))
  | printS {i : Nat} : Does .producer (.printS i) (.assign shared (.printN i shared.s) [])
  | printN {i iterations : Nat} {s : Int} : Does .producer (.printN i s)
      (.assign shared (.iterate (i + 1)) [.commit s shared.n i iterations])
  | lockDone : Does .producer .lockDone (.wrlock .finished .setFinished)
  | setFinished : Does .producer .setFinished (.assign { shared with finished := true } .unlockDone [])
  | unlockDone : Does .producer .unlockDone (.unlock .finished .gone)
  | startMain : Does .main .begin (.assign shared (.join (List.finRange consumers) 0) [])
  | joined {errors : Int} : Does .main (.join [] errors) (.assign shared (.done errors) [])
  | join {next : Fin consumers} {rest : List (Fin consumers)} {errors : Int} : shared.exited next = true →
      Does .main (.join (next :: rest) errors) (.assign shared (.join rest (errors + shared.errors next)) [])

theorem does_consumer (self : Fin consumers) (point : Point consumers) :
    Does shared (.consumer self) point (consumerRun self point shared) := by
  cases point with
  | begin => exact .startConsumer
  | lockFinished => exact .lockFinished
  | readFinished => exact .readFinished
  | unlockFinished cond => exact .unlockFinished
  | loop cond =>
    cases cond with
    | false => exact .leaveLoop
    | true => exact .enterLoop
  | readS => exact .readS
  | readN s => exact .readN
  | unlockData s n => exact .unlockData
  | verify s n =>
    simp only [consumerRun]
    split
    · next wrong => exact .mismatched wrong
    · exact .matched
  | mismatch => exact .mismatch
  | exit => exact .exit
  | _ => exact .stay

theorem does_producer (rand : Nat → Nat) (iterations : Nat) (point : Point consumers) :
    Does shared .producer point (producerRun rand iterations point shared) := by
  cases point with
  | begin => exact .startProducer
  | iterate i =>
    simp only [producerRun]
    split
    · exact .generate (by omega)
    · exact .exhausted
  | descend i n s =>
    simp only [producerRun]
    split
    · next large => exact .descend large
    · next small => exact .found (Int.not_lt.mp small)
  | lockData i n s => exact .lockData
  | writeN i n s => exact .writeN
  | writeS i n s => exact .writeS
  | unlockWritten i => exact .unlockWritten
  | printS i => exact .printS
  | printN i s => exact .printN
  | lockDone => exact .lockDone
  | setFinished => exact .setFinished
  | unlockDone => exact .unlockDone
  | _ => exact .stay

theorem does_main (point : Point consumers) : Does shared .main point (runMain point shared) := by
  cases point with
  | begin => exact .startMain
  | join rest errors =>
    cases rest with
    | nil => exact .joined
    | cons next rest =>
      simp only [runMain]
      split
      · next exited => exact .join exited
      · exact .stay
  | _ => exact .stay

variable {shared}

theorem does_of_program {rand : Nat → Nat} {iterations : Nat} {self : Role consumers} {point : Point consumers}
    {command : Statement consumers} (next : sqrtProgram rand iterations self point shared = command) :
    Does shared self point command := by
  subst next
  cases self with
  | main => exact does_main shared point
  | producer => exact does_producer shared rand iterations point
  | consumer index => exact does_consumer shared index point

end Statements
end PosixC.Sqrt
