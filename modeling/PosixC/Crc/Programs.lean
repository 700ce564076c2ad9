import PosixC.Crc.Hash
import PosixC.Foundation.CText

/-! The programs of hw01: `crc32sum` writes a bundle of hashes, `crc32check`
verifies one.

Files, descriptors and the errors of the system calls belong to a world, which
answers anew in every turn of a program's loop. A program whose signed counter
overflows has no defined result.
-/

set_option autoImplicit false

namespace PosixC.Crc

open Foundation CText

section Environment

def ascii (text : String) : Bytes := text.toList.map fun c => UInt8.ofNat c.toNat

def bufferSize : Nat := 4096

structure Chunk where
  bytes : Bytes
  nonempty : bytes ≠ []
  bounded : bytes.length ≤ bufferSize

inductive Ending where
  | eof
  | failed (errno : Nat)
  deriving DecidableEq, Repr

/-- What the calls of `read` on a descriptor return, the last one included. -/
structure Stream where
  chunks : List Chunk
  ending : Ending

def Stream.contents (stream : Stream) : Bytes := (stream.chunks.map Chunk.bytes).flatten

structure World where
  stdin : Nat → Stream
  openFile : Nat → Bytes → Except Nat Stream
  closeFails : Nat → Option Nat

inductive Event where
  | stdout (text : Bytes)
  | error (errnum : Nat) (text : Bytes)
  deriving DecidableEq, Repr

def increment (n : Nat) : Option Nat := if n + 1 < 2 ^ 31 then some (n + 1) else none

structure Argv where
  args : List Bytes
  strings : ∀ arg ∈ args, 0 ∉ arg
  argc : args.length + 1 < 2 ^ 31

def output (events : List Event) : Bytes :=
  events.flatMap fun event =>
    match event with
    | .stdout text => text
    | .error _ _ => []

end Environment

section GetCrc

/-- The filled context, or `none` where the function returns false. The
descriptor -1 has no stream. -/
def getCrc32 (fd : Option Stream) : Option Crc32 × List Event :=
  match fd with
  | none => (none, [])
  | some stream =>
      let context := stream.chunks.foldl (fun context chunk => crc32Update context chunk.bytes) crc32Init
      match stream.ending with
      | .failed errno => (none, [.error errno (ascii "read")])
      | .eof => (some (crc32Finalize context), [])

end GetCrc

section Sum

def sumLine (hash : UInt32) (name : Bytes) : Bytes :=
  zeroPadded 8 (numeral 16 hash.toNat) ++ ascii " " ++ name ++ ascii "\n"

def Stream.errno (stream : Stream) : Nat :=
  match stream.ending with
  | .failed errno => errno
  | .eof => 0

def sumFile (world : World) (turn errors : Nat) (name : Bytes) : Option (Nat × List Event) :=
  match if name = ascii "-" then .ok (world.stdin turn) else world.openFile turn name with
  | .error errno => some (errors, [.error errno name])
  | .ok stream =>
      let (context, events) := getCrc32 (some stream)
      match context with
      | some context => do
          let (errors, closing) ← closed errors
          some (errors, events ++ [.stdout (sumLine context.hash name)] ++ closing)
      -- The failure is counted, but nobody asks for the count.
      | none => do
          let errors ← increment errors
          let (errors, closing) ← closed errors
          some (errors, events ++ [.error stream.errno (ascii "get_crc32(" ++ name ++ ascii ")")] ++ closing)
where
  closed (errors : Nat) : Option (Nat × List Event) :=
    match world.closeFails turn with
    | none => some (errors, [])
    | some errno => do
        let errors ← increment errors
        some (errors, [.error errno (ascii "fclose(" ++ name ++ ascii ")")])

def sumFiles (world : World) : Nat → Nat → List Bytes → Option (Nat × List Event)
  | _, errors, [] => some (errors, [])
  | turn, errors, name :: rest => do
      let (errors, events) ← sumFile world turn errors name
      let (errors, more) ← sumFiles world (turn + 1) errors rest
      some (errors, events ++ more)

/-- `main` of crc32sum: the exit status and what was written. The errors are
counted and not looked at. -/
def crc32sum (world : World) (argv : Argv) : Option (Nat × List Event) := do
  let args := if argv.args = [] then [ascii "-"] else argv.args
  let (_, events) ← sumFiles world 0 0 args
  some (0, events)

end Sum

section Check

inductive Flow where
  | next
  | stop
  deriving DecidableEq, Repr

structure Outcome where
  failed : Bool
  flow : Flow
  events : List Event

def verifyFile (world : World) (lineno : Nat) (crc : UInt32) (name : Bytes) : Outcome :=
  match world.openFile lineno name with
  | .error errno => ⟨true, .next, [.error errno name]⟩
  | .ok stream =>
      let (context, events) := getCrc32 (some stream)
      let closing := match world.closeFails lineno with
        | none => []
        | some errno => [.error errno name]
      match context with
      | none => ⟨true, .next, events ++ [.error stream.errno name] ++ closing⟩
      | some context =>
          if crc = context.hash then ⟨false, .next, events ++ [.stdout (name ++ ascii ": OK\n")] ++ closing⟩
          else ⟨true, .next, events ++ [.stdout (name ++ ascii ": FAILED\n")] ++ closing⟩

def position (fn : Bytes) (lineno : Nat) : Bytes := fn ++ ascii ":" ++ numeral 10 lineno ++ ascii ": "

def processLine (world : World) (fn : Bytes) (lineno : Nat) (line : Bytes) : Outcome :=
  let (crcstr, left) := strtok (ascii " \n") (cString line)
  let (name, _) := strtok (ascii "\n") left
  match crcstr, name with
  | some crcstr, some name =>
      let (value, endp) := strtoull16 crcstr
      if endp ≠ [] then ⟨true, .stop, [.error 0 (position fn lineno ++ ascii "invalid hash '" ++ crcstr ++ ascii "'")]⟩
      -- The assignment keeps the lower 32 bits.
      else verifyFile world lineno (UInt32.ofNat value) name
  | _, _ => ⟨true, .stop, [.error 0 (position fn lineno ++ ascii "invalid format")]⟩

def processLines (world : World) (fn : Bytes) : Nat → Nat → List Bytes → Option (Nat × List Event)
  | errors, _, [] => some (errors, [])
  | errors, lineno, line :: rest => do
      let lineno ← increment lineno
      let outcome := processLine world fn lineno line
      let errors ← if outcome.failed then increment errors else some errors
      -- A line that cannot be parsed leaves the loop; the rest is not looked at.
      match outcome.flow with
      | .stop => some (errors, outcome.events)
      | .next => do
          let (errors, more) ← processLines world fn errors lineno rest
          some (errors, outcome.events ++ more)

/-- The text of the bundle is missing when `fdopen` fails. -/
def processBundle (world : World) (wrap : Option Bytes) (fn : Bytes) : Option (Nat × List Event) :=
  match wrap with
  | none => some (0, [])
  | some text => do
      let (errors, events) ← processLines world fn 0 0 (lines text)
      let warning :=
        if errors = 0 then []
        else [.stdout (ascii "WARNING: there were " ++ numeral 10 errors ++ ascii " errors\n")]
      some (errors, events ++ warning)

end Check
end PosixC.Crc
