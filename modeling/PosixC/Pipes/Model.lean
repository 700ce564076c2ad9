import PosixC.Foundation.Pipe
import PosixC.Foundation.Transition

/-! The two processes of ex10/pipes.

In `child.c` the parent writes a greeting and its child copies it to the terminal, in
`dup.c` the child becomes `ls` and the parent copies. Each process first closes the end
that it does not need.
-/

set_option autoImplicit false

namespace PosixC.Pipes

open Foundation

inductive Role where
  | writer | reader
  deriving DecidableEq, Repr

/-- `chunks` is what the writer writes, call by call, `trailer` what the reader adds,
and `parent` the process that waits for the other one. -/
structure Setup where
  chunks : List (List UInt8)
  trailer : List UInt8
  parent : Role

def childSetup (data : List UInt8) : Setup := ⟨[data], [10], .writer⟩

def dupSetup (chunks : List (List UInt8)) : Setup := ⟨chunks, [], .reader⟩

inductive WriterPoint where
  | closeRead
  | write (started : Bool) (chunks : List (List UInt8))
  | closeWrite
  | wait
  | exited
  | killed
  deriving DecidableEq, Repr

inductive ReaderPoint where
  | closeWrite
  | read
  | copy (byte : UInt8)
  | trailer
  | closeRead
  | wait
  | exited
  deriving DecidableEq, Repr

inductive Note where
  | read (byte : UInt8)
  | eof
  | terminal (byte : UInt8)
  | refused (byte : UInt8)
  deriving DecidableEq, Repr

structure State where
  pipe : Pipe Role
  writer : WriterPoint
  reader : ReaderPoint

/-- A write is given the count that goes in, and the terminal may refuse a byte. -/
inductive Action where
  | writer (count : Nat)
  | reader (fails : Bool)
  deriving DecidableEq, Repr

/-- Without a reader `SIGPIPE` kills the writer. Its exit closes what it has open. -/
def writerStep (limits : Pipe.Limits) (setup : Setup) (state : State) (count : Nat) : Option (State × List Note) :=
  match state.writer with
  | .closeRead => some ({ state with pipe := state.pipe.closeRead .writer, writer := .write false setup.chunks }, [])
  | .write _ [] => some ({ state with writer := .closeWrite }, [])
  | .write _ ([] :: chunks) => some ({ state with writer := .write false chunks }, [])
  | .write started (chunk :: chunks) =>
      if state.pipe.readers = ∅ then some ({ state with pipe := state.pipe.closeWrite .writer, writer := .killed }, [])
      else if state.pipe.Takes limits started chunk count then
        some ({ state with pipe := state.pipe.put (chunk.take count), writer := .write true (chunk.drop count :: chunks) }, [])
      else none
  | .closeWrite =>
      some ({ state with
        pipe := state.pipe.closeWrite .writer
        writer := if setup.parent = .writer then .wait else .exited }, [])
  | .wait => if state.reader = .exited then some ({ state with writer := .exited }, []) else none
  | .exited | .killed => none

/-- The result of a `write` to the terminal is not looked at. -/
def terminalWrite (fails : Bool) (bytes : List UInt8) : List Note :=
  if fails then bytes.map .refused else bytes.map .terminal

def readerStep (setup : Setup) (state : State) (fails : Bool) : Option (State × List Note) :=
  match state.reader with
  | .closeWrite => some ({ state with pipe := state.pipe.closeWrite .reader, reader := .read }, [])
  | .read =>
      match state.pipe.read with
      | none => none
      | some (.byte byte, pipe) => some ({ state with pipe := pipe, reader := .copy byte }, [.read byte])
      | some (.eof, pipe) => some ({ state with pipe := pipe, reader := .trailer }, [.eof])
  | .copy byte => some ({ state with reader := .read }, terminalWrite fails [byte])
  | .trailer => some ({ state with reader := .closeRead }, terminalWrite fails setup.trailer)
  | .closeRead =>
      some ({ state with
        pipe := state.pipe.closeRead .reader
        reader := if setup.parent = .reader then .wait else .exited }, [])
  | .wait =>
      if state.writer = .exited ∨ state.writer = .killed then some ({ state with reader := .exited }, []) else none
  | .exited => none

def pipesMachine (limits : Pipe.Limits) (setup : Setup) : Machine State Action Note where
  step state
    | .writer count => writerStep limits setup state count
    | .reader fails => readerStep setup state fails

/-- After `pipe` and `fork` both processes have both ends. -/
def startState : State := ⟨⟨[], {.writer, .reader}, {.writer, .reader}⟩, .closeRead, .closeWrite⟩

def bytesRead (notes : List Note) : List UInt8 :=
  notes.filterMap fun
    | .read byte => some byte
    | _ => none

def attempted (notes : List Note) : List UInt8 :=
  notes.filterMap fun
    | .terminal byte | .refused byte => some byte
    | _ => none

theorem bytesRead_append (first second : List Note) : bytesRead (first ++ second) = bytesRead first ++ bytesRead second :=
  List.filterMap_append

theorem attempted_append (first second : List Note) : attempted (first ++ second) = attempted first ++ attempted second :=
  List.filterMap_append

@[simp] theorem bytesRead_terminalWrite (fails : Bool) (bytes : List UInt8) : bytesRead (terminalWrite fails bytes) = [] := by
  cases fails <;> simp [terminalWrite, bytesRead, List.filterMap_map]

@[simp] theorem attempted_terminalWrite (fails : Bool) (bytes : List UInt8) :
    attempted (terminalWrite fails bytes) = bytes := by
  cases fails <;> simp [terminalWrite, attempted, List.filterMap_map]

end PosixC.Pipes
