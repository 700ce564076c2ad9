import PosixC.Foundation.CText
import PosixC.Foundation.Usage
import PosixC.Guessing.Game

/-! The resources of hw02/guess.c.

Allocations, the loading of the libraries and the `init` of the strategies may fail
one by one. The blocks and handles are named after the argument they belong to, and
a function of a strategy is called through its block into its library.
-/

set_option autoImplicit false

namespace PosixC.Guessing

open Foundation CText Ledger

inductive Resource where
  | functions
  | handles
  | strategies
  | function (i : Nat)
  | handle (i : Nat)
  | strategy (i : Nat)
  deriving DecidableEq, Repr

/-- What happens to an argument: `dlopen`, `malloc`, the calls of `dlsym`, and `init`. -/
structure Library where
  opens : Bool
  allocates : Bool
  symbols : Bool
  initialises : Bool

def Library.loads (library : Library) : Bool := library.opens && library.allocates && library.symbols

/-- `functions`, `handles` and `strategies` are the calls of `calloc`. -/
structure Environment where
  functions : Bool
  handles : Bool
  strategies : Bool
  library : Nat → Library

/-- A NULL array is `none`, and so is a NULL pointer in an array. -/
structure GuessGame where
  length : Nat
  functions : Option (List (Option Nat))
  handles : Option (List (Option Nat))
  strategies : Option (List (Option Nat))

abbrev Usages := List (Usage Resource)

def bufferLength : Nat := 80

section Cleanup

def each (body : Nat → Option Usages) : Nat → Option Usages
  | 0 => some []
  | count + 1 => (each body count).bind fun earlier => (body count).map (earlier ++ ·)

/-- A call into the library, through a pointer that must not be NULL. -/
def callLibrary (functions : List (Option Nat)) (i : Nat) : Option Usages :=
  (functions[i]?.bind id).map fun function => [.use (.function function), .use (.handle function)]

/-- `destroy` is `free`, which a NULL pointer does not mind. -/
def destroyed (functions strategies : List (Option Nat)) (i : Nat) : Option Usages :=
  (callLibrary functions i).bind fun call => strategies[i]?.map fun self =>
    call ++ self.toList.map fun strategy => .event (.release (.strategy strategy))

def destroyStrategies (length : Nat) (functions : List (Option Nat)) : Option (List (Option Nat)) → Option Usages
  | none => some []
  | some strategies => (each (destroyed functions strategies) length).map (· ++ [.event (.release .strategies)])

def freeFunctions (length : Nat) (functions : List (Option Nat)) : Option Usages :=
  (each (fun i => functions[i]?.map fun function =>
    function.toList.map fun function => .event (.release (.function function))) length).map
      (· ++ [.event (.release .functions)])

/-- The first NULL handle ends the loop. -/
def closeHandles (handles : List (Option Nat)) : Nat → Nat → Option Usages
  | 0, _ => some []
  | left + 1, i => handles[i]?.bind fun handle => handle.elim (some []) fun handle =>
      (closeHandles handles left (i + 1)).map (.event (.release (.handle handle)) :: ·)

def cleanupFunctions (resources : GuessGame) : Option Usages :=
  match resources.functions with
  | none => some []
  | some functions =>
      (destroyStrategies resources.length functions resources.strategies).bind fun destroyed =>
        (freeFunctions resources.length functions).map (destroyed ++ ·)

def cleanupHandles (resources : GuessGame) : Option Usages :=
  match resources.handles with
  | none => some []
  | some handles => (closeHandles handles resources.length 0).map (· ++ [.event (.release .handles)])

def cleanup (resources : GuessGame) : Option Usages :=
  (cleanupFunctions resources).bind fun first => (cleanupHandles resources).map (first ++ ·)

end Cleanup

section Main

variable (environment : Environment)

def giveUp {α : Type} (resources : GuessGame) (usages : Usages) : Option (Option α × Usages) :=
  (cleanup resources).map fun released => (none, usages ++ released)

def stored (array : Option (List (Option Nat))) (i : Nat) (pointer : Option Nat) : Option (List (Option Nat)) :=
  array.map fun pointers => pointers.set i pointer

/-- Where `sprintf` writes behind the end of `string_mem` the program has no meaning.
Without a result `FAILURE` is returned. -/
def initLibraries (resources : GuessGame) (usages : Usages) : Nat → List Bytes → Option (Option GuessGame × Usages)
  | _, [] => some (some resources, usages)
  | i, name :: names =>
      let errorCode := name.length + 6
      if bufferLength < errorCode + 1 then none
      else if bufferLength < errorCode then giveUp resources usages
      else if (environment.library i).opens = false then
        giveUp { resources with handles := stored resources.handles i none } usages
      else
        let resources := { resources with handles := stored resources.handles i (some i) }
        let usages := usages ++ [.event (.acquire (.handle i))]
        if (environment.library i).allocates = false then giveUp resources usages
        else
          let usages := usages ++ [.event (.acquire (.function i)), .use (.handle i)]
          if (environment.library i).symbols = false then giveUp resources usages
          else initLibraries { resources with functions := stored resources.functions i (some i) } usages (i + 1) names

def initStrategies (resources : GuessGame) (usages : Usages) : Nat → Nat → Option (Option GuessGame × Usages)
  | 0, _ => some (some resources, usages)
  | left + 1, i => (resources.functions.bind (callLibrary · i)).bind fun call =>
      if (environment.library i).initialises then
        initStrategies { resources with strategies := stored resources.strategies i (some i) }
          (usages ++ (call ++ [.event (.acquire (.strategy i))])) left (i + 1)
      else giveUp { resources with strategies := stored resources.strategies i none } (usages ++ call)

def callStrategy (functions strategies : List (Option Nat)) (index : Nat) : Option Usages :=
  (callLibrary functions index).bind fun call =>
    (strategies[index]?.bind id).map fun strategy => call ++ [.use (.strategy strategy)]

def Event.called : Event → Option Nat
  | .asked index _ | .notified index _ => some index
  | .number _ | .current _ | .correct | .failed => none

def played (functions strategies : List (Option Nat)) : List Event → Option Usages
  | [] => some []
  | event :: later => (event.called.elim (some []) (callStrategy functions strategies)).bind fun call =>
      (played functions strategies later).map (call ++ ·)

/-- What `guess` and `notify` do, the value of `rand`, and what the strategies remember. -/
structure Play (World : Type) where
  guess : Nat → World → Int × World
  notify : Nat → World → Int → World
  rand : Int
  world : World

variable {World : Type} (play : Play World)

/-- The number of tries that `main` prints, if it does not fail. -/
def playGame (first : Bytes) (names : List Bytes) (resources : GuessGame) (usages : Usages) : Option (Option Nat × Usages) :=
  let strategies : Strategies World := ⟨(first :: names).length, Nat.succ_pos _, play.guess, play.notify⟩
  (gameloop strategies play.rand 0 100 play.world).bind fun game =>
    (resources.functions.bind fun functions => resources.strategies.bind fun strategies =>
      played functions strategies game.1).bind fun calls =>
        (cleanup resources).map fun released => (some game.2, usages ++ calls ++ released)

def startGame (first : Bytes) (names : List Bytes) : Option GuessGame × Usages → Option (Option Nat × Usages)
  | (none, usages) => some (none, usages)
  | (some resources, usages) => playGame play first names resources usages

def startStrategies (first : Bytes) (names : List Bytes) : Option GuessGame × Usages → Option (Option Nat × Usages)
  | (none, usages) => some (none, usages)
  | (some resources, usages) =>
      if environment.strategies = false then giveUp resources usages
      else
        let resources := { resources with strategies := some (List.replicate (first :: names).length none) }
        let usages := usages ++ [.event (.acquire .strategies)]
        (initStrategies environment resources usages (first :: names).length 0).bind (startGame play first names)

def guessMain (names : List Bytes) : Option (Option Nat × Usages) :=
  match names with
  | [] => some (none, [])
  | first :: names =>
      let nulls := List.replicate (first :: names).length none
      if environment.functions = false then some (none, [])
      else
        let resources : GuessGame := ⟨(first :: names).length, some nulls, none, none⟩
        let usages : Usages := [.event (.acquire .functions)]
        if environment.handles = false then giveUp resources usages
        else
          let resources := { resources with handles := some nulls }
          let usages := usages ++ [.event (.acquire .handles)]
          (initLibraries environment resources usages 0 (first :: names)).bind (startStrategies environment play first names)

end Main
end PosixC.Guessing
