import Mathlib.Data.Fintype.Option
import PosixC.Foundation.Barrier
import PosixC.Ptgrep.Highlighting

/-! The searchers of hw08/ptgrep.c and the `main` that waits for them.

Each thread searches a file of its own, line by line. They all print to the same stream,
where the texts of one `printf` stay together.
-/

set_option autoImplicit false

namespace PosixC.Ptgrep

open Foundation Foundation.CText Foundation.CBuffer Foundation.Barrier

/-- The arguments, the files behind their names (`none` if `fopen` fails), what the buffer
of `getline` holds behind each line, and which calls of `pthread_create` succeed. -/
structure Setup (threadNum : Nat) where
  isatty : Bool
  shared : SharedThreadData
  fileName : Fin threadNum → Bytes
  file : Fin threadNum → Option Bytes
  slack : Fin threadNum → Nat → Bytes
  creates : Fin threadNum → Bool

/-- `main` is `none`. -/
abbrev Thread (threadNum : Nat) := Option (Fin threadNum)

structure Shared (threadNum : Nat) where
  opened : Finset (Fin threadNum)
  found : Finset (Fin threadNum)
  created : Nat
  exited : Finset (Fin threadNum)
  exit : Bool

inductive Point where
  -- thread_run
  | begin
  | getline (lines : List Bytes) (lineNum : Nat)
  | search (loop : Loop) (lines : List Bytes) (lineNum : Nat)
  | print (texts : List Bytes) (progress : Progress) (lines : List Bytes) (lineNum : Nat)
  | notOpened
  | finish
  | gone
  -- main
  | create (i : Nat)
  | join (i : Nat) (opened found : Bool)
  | done

inductive Note where
  | text (bytes : Bytes)
  | cantOpen
  | exit (status : Bool)
  deriving DecidableEq, Repr

variable {threadNum : Nat}

abbrev Statement (threadNum : Nat) := Command (Shared threadNum) Point Note

def Setup.searcher (setup : Setup threadNum) (i : Fin threadNum) : ThreadData := ⟨setup.fileName i, setup.shared⟩

def newTexts (loop : Loop) (progress : Progress) : List Bytes :=
  (progress.loop.printed.drop loop.printed.length).flatten

def afterTexts (progress : Progress) (lines : List Bytes) (lineNum : Nat) : Point :=
  match progress with
  | .running loop => .search loop lines lineNum
  | .stopped _ => .getline lines (lineNum + 1)

/-- `thread_run`. A turn outside of the buffer is no step. -/
def threadRun (setup : Setup threadNum) (i : Fin threadNum) (point : Point) (shared : Shared threadNum) :
    Statement threadNum :=
  match point with
  | .begin =>
      if i < shared.created then
        match setup.file i with
        | none => .assign shared .notOpened [.cantOpen]
        | some content => .assign { shared with opened := insert i shared.opened } (.getline (lines content) 0) []
      else .blocked
  | .getline [] _ => .assign shared .finish []
  | .getline (line :: rest) lineNum => .assign shared (.search (.start line (setup.slack i lineNum)) rest lineNum) []
  | .search loop lines lineNum =>
      match turn setup.isatty (setup.searcher i) lineNum loop with
      | none => .blocked
      | some progress =>
          .assign (if progress.loop.found then { shared with found := insert i shared.found } else shared)
            (.print (newTexts loop progress) progress lines lineNum) []
  | .print [] progress lines lineNum => .assign shared (afterTexts progress lines lineNum) []
  | .print (text :: texts) progress lines lineNum => .assign shared (.print texts progress lines lineNum) [.text text]
  | .notOpened | .finish => .assign { shared with exited := insert i shared.exited } .gone []
  | _ => .blocked

/-- From the loop of `pthread_create` on. Where that fails, `error` ends the process. -/
def runMain (setup : Setup threadNum) (point : Point) (shared : Shared threadNum) : Statement threadNum :=
  match point with
  | .create i =>
      if inside : i < threadNum then
        if setup.creates ⟨i, inside⟩ then .assign { shared with created := i + 1 } (.create (i + 1)) []
        else .assign { shared with exit := true } .done [.exit false]
      else .assign shared (.join 0 true false) []
  | .join i opened found =>
      if inside : i < threadNum then
        if ⟨i, inside⟩ ∈ shared.exited then
          .assign shared (.join (i + 1) (opened && decide (⟨i, inside⟩ ∈ shared.opened))
            (found || decide (⟨i, inside⟩ ∈ shared.found))) []
        else .blocked
      else .assign { shared with exit := true } .done [.exit (opened && found)]
  | _ => .blocked

/-- The end of the process is the end of its threads. -/
def program (setup : Setup threadNum) : Program (Thread threadNum) (Shared threadNum) Point Note
  | none, point, shared => runMain setup point shared
  | some i, point, shared => if shared.exit then .blocked else threadRun setup i point shared

abbrev ptgrepMachine (setup : Setup threadNum) := machine 0 (program setup)

def startPoint : Thread threadNum → Point
  | none => .create 0
  | some _ => .begin

abbrev World (threadNum : Nat) := State (Thread threadNum) (Shared threadNum) Point

def startWorld (threadNum : Nat) : World threadNum := initial ⟨∅, ∅, 0, ∅, false⟩ startPoint

/-- A line contains the string. The search sees the line up to its first NUL. -/
def matchesLine (shared : SharedThreadData) (line : Bytes) : Bool :=
  (stringFind shared.insensitive (cString line) shared.string).isSome

def hasMatch (shared : SharedThreadData) (content : Bytes) : Bool := (lines content).any (matchesLine shared)

section Statements

variable (setup : Setup threadNum) (shared : Shared threadNum)

inductive Does : Thread threadNum → Point → Statement threadNum → Prop where
  | wait {self : Thread threadNum} {point : Point} : Does self point .blocked
  | notOpened {i : Fin threadNum} : i < shared.created → setup.file i = none →
      Does (some i) .begin (.assign shared .notOpened [.cantOpen])
  | opened {i : Fin threadNum} {content : Bytes} : i < shared.created → setup.file i = some content →
      Does (some i) .begin (.assign { shared with opened := insert i shared.opened } (.getline (lines content) 0) [])
  | endOfFile {i : Fin threadNum} {lineNum : Nat} : Does (some i) (.getline [] lineNum) (.assign shared .finish [])
  | getline {i : Fin threadNum} {line : Bytes} {rest : List Bytes} {lineNum : Nat} :
      Does (some i) (.getline (line :: rest) lineNum)
        (.assign shared (.search (.start line (setup.slack i lineNum)) rest lineNum) [])
  | turn {i : Fin threadNum} {loop : Loop} {progress : Progress} {lines : List Bytes} {lineNum : Nat} :
      turn setup.isatty (setup.searcher i) lineNum loop = some progress →
      Does (some i) (.search loop lines lineNum)
        (.assign (if progress.loop.found then { shared with found := insert i shared.found } else shared)
          (.print (newTexts loop progress) progress lines lineNum) [])
  | printed {i : Fin threadNum} {progress : Progress} {lines : List Bytes} {lineNum : Nat} :
      Does (some i) (.print [] progress lines lineNum) (.assign shared (afterTexts progress lines lineNum) [])
  | print {i : Fin threadNum} {text : Bytes} {texts : List Bytes} {progress : Progress} {lines : List Bytes}
      {lineNum : Nat} : Does (some i) (.print (text :: texts) progress lines lineNum)
        (.assign shared (.print texts progress lines lineNum) [.text text])
  | leave {i : Fin threadNum} {point : Point} : point = .notOpened ∨ point = .finish →
      Does (some i) point (.assign { shared with exited := insert i shared.exited } .gone [])
  | create {i : Fin threadNum} : setup.creates i = true →
      Does none (.create i) (.assign { shared with created := i + 1 } (.create (i + 1)) [])
  | failed {i : Fin threadNum} : setup.creates i = false →
      Does none (.create i) (.assign { shared with exit := true } .done [.exit false])
  | created {i : Nat} : threadNum ≤ i → Does none (.create i) (.assign shared (.join 0 true false) [])
  | joined {i : Fin threadNum} {opened found : Bool} : i ∈ shared.exited → Does none (.join i opened found)
      (.assign shared (.join (i + 1) (opened && decide (i ∈ shared.opened)) (found || decide (i ∈ shared.found))) [])
  | done {i : Nat} {opened found : Bool} : threadNum ≤ i → Does none (.join i opened found)
      (.assign { shared with exit := true } .done [.exit (opened && found)])

theorem does_searcher (i : Fin threadNum) (point : Point) :
    Does setup shared (some i) point (threadRun setup i point shared) := by
  cases point with
  | begin =>
    simp only [threadRun]
    split
    · next started =>
      split
      · next absent => exact .notOpened started absent
      · next content present => exact .opened started present
    · exact .wait
  | getline lines lineNum =>
    cases lines with
    | nil => exact .endOfFile
    | cons line rest => exact .getline
  | search loop lines lineNum =>
    simp only [threadRun]
    split
    · exact .wait
    · next progress turned => exact .turn turned
  | print texts progress lines lineNum =>
    cases texts with
    | nil => exact .printed
    | cons text texts => exact .print
  | notOpened => exact .leave (.inl rfl)
  | finish => exact .leave (.inr rfl)
  | _ => exact .wait

theorem does_main (point : Point) : Does setup shared none point (runMain setup point shared) := by
  cases point with
  | create i =>
    simp only [runMain]
    split
    · next inside =>
      split
      · next succeeds => exact @Does.create _ _ _ ⟨i, inside⟩ succeeds
      · next fails => exact @Does.failed _ _ _ ⟨i, inside⟩ (Bool.eq_false_iff.mpr fails)
    · next all => exact .created (Nat.not_lt.mp all)
  | join i opened found =>
    simp only [runMain]
    split
    · next inside =>
      split
      · next exited => exact @Does.joined _ _ _ ⟨i, inside⟩ opened found exited
      · exact .wait
    · next all => exact .done (Nat.not_lt.mp all)
  | _ => exact .wait

end Statements

theorem does_of_program {setup : Setup threadNum} {self : Thread threadNum} {point : Point} {shared : Shared threadNum}
    {command : Statement threadNum} (next : program setup self point shared = command) :
    Does setup shared self point command := by
  subst next
  cases self with
  | none => exact does_main setup shared point
  | some i =>
    simp only [program]
    split
    · exact .wait
    · exact does_searcher setup shared i point

end PosixC.Ptgrep
