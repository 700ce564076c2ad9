import Mathlib.Data.Finset.Basic
import Mathlib.Data.List.Basic

/-! A pipe and the processes that have its ends open.

A reader waits as long as the pipe is empty and somebody can still write; a writer
waits for room. A small write goes in as a whole, a large one in parts.
-/

set_option autoImplicit false

namespace PosixC.Foundation

structure Pipe (Process : Type) where
  buffer : List UInt8
  readers : Finset Process
  writers : Finset Process

namespace Pipe

structure Limits where
  capacity : Nat
  pipeBuf : Nat
  positive : 0 < pipeBuf
  fits : pipeBuf ≤ capacity

inductive Reading where
  | byte (byte : UInt8)
  | eof
  deriving DecidableEq, Repr

variable {Process : Type} [DecidableEq Process]

/-- `read` of one byte; `none` while it waits. -/
def read (pipe : Pipe Process) : Option (Reading × Pipe Process) :=
  match pipe.buffer with
  | byte :: rest => some (.byte byte, { pipe with buffer := rest })
  | [] => if pipe.writers = ∅ then some (.eof, pipe) else none

/-- `count` bytes of what is left of a chunk go in. `started` says that others have before. -/
def Takes (limits : Limits) (pipe : Pipe Process) (started : Bool) (rest : List UInt8) (count : Nat) : Prop :=
  0 < count ∧ count ≤ rest.length ∧ pipe.buffer.length + count ≤ limits.capacity ∧
    (started = false → rest.length ≤ limits.pipeBuf → count = rest.length)

instance (limits : Limits) (pipe : Pipe Process) (started : Bool) (rest : List UInt8) (count : Nat) :
    Decidable (pipe.Takes limits started rest count) :=
  inferInstanceAs (Decidable (_ ∧ _))

def put (pipe : Pipe Process) (bytes : List UInt8) : Pipe Process := { pipe with buffer := pipe.buffer ++ bytes }

omit [DecidableEq Process] in
/-- Whoever finds the pipe full or too full finds something to be read in it. -/
theorem takes_or_full (limits : Limits) (pipe : Pipe Process) (started : Bool) {rest : List UInt8} (some : rest ≠ []) :
    (∃ count, pipe.Takes limits started rest count) ∨ pipe.buffer ≠ [] := by
  have positive := limits.positive
  have fits := limits.fits
  have length := List.length_pos_iff.mpr some
  by_cases empty : pipe.buffer = []
  · apply Or.inl
    by_cases small : rest.length ≤ limits.pipeBuf
    · exact ⟨rest.length, length, le_rfl, by simp [empty]; omega, fun _ _ => rfl⟩
    · exact ⟨1, Nat.one_pos, length, by simp [empty]; omega, fun _ whole => absurd whole small⟩
  · exact Or.inr empty

def closeRead (pipe : Pipe Process) (process : Process) : Pipe Process :=
  { pipe with readers := pipe.readers.erase process }

def closeWrite (pipe : Pipe Process) (process : Process) : Pipe Process :=
  { pipe with writers := pipe.writers.erase process }

end Pipe
end PosixC.Foundation
