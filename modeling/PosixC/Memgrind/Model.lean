import PosixC.Foundation.Heap
import PosixC.Foundation.SizeT
import PosixC.Foundation.Transition

/-! The allocation tracker of hw03/libmemgrind.c.

The library stands between its caller and the real allocator. A call that finds
the guard up goes straight to the real function; one that finds it down raises
it, does its work between calls of `syslog`, and lowers it when it returns.
Allocator calls made by `syslog` arrive while a call of the client is pending,
and then the guard is up.
-/

set_option autoImplicit false

namespace PosixC.Memgrind

open Foundation

section Data

structure MemoryStatistics where
  totalUsed : Nat
  totalFreed : Nat
  allocationNum : Nat
  dealllocationNum : Nat
  errors : Nat
  declinedAllocations : Nat
  deriving DecidableEq, Repr

structure EnviromentSettings where
  memgrindMemMax : Nat
  memgrindAllocMax : Nat
  memgrindAllocCount : Nat
  fits : memgrindMemMax ≤ SizeT.max ∧ memgrindAllocMax ≤ SizeT.max ∧ memgrindAllocCount ≤ SizeT.max
  deriving DecidableEq, Repr

/-- `check` is the string the magic pointer leads to. -/
structure ServiceInfo where
  blockSize : Nat
  check : String
  deriving DecidableEq, Repr

def cannaryWord : String := "ZDE"

def serviceLength : Nat := 16

/-- No block of the real allocator is smaller than 24 bytes. A block holds the
service structure the library wrote into it, if it did. -/
abbrev RealHeap := Heap 24 SizeT.max (Option ServiceInfo)

def userToLib (ptr : Nat) : Nat := SizeT.sub ptr serviceLength

def libToUser (ptr : Nat) : Nat := SizeT.add ptr serviceLength

def initialiseServiceBlock (heap : RealHeap) (info bytes : Nat) : RealHeap :=
  heap.write info fun _ => some ⟨bytes, cannaryWord⟩

/-- The service structure at an address; `wild` is what lies at an address where
the library wrote none. -/
def readService (heap : RealHeap) (info : Nat) (wild : ServiceInfo) : ServiceInfo :=
  match heap.find info with
  | some block => block.data.getD wild
  | none => wild

/-- Zero when the magic word is in place, as `strcmp` has it. -/
def checkServiceValidity (info : ServiceInfo) : Nat := if info.check = cannaryWord then 0 else 1

inductive Decline where
  | maxSize | totalSize | allocCount
  deriving DecidableEq, Repr

def declined (settings : EnviromentSettings) (statistics : MemoryStatistics) (size : Nat) : Option Decline :=
  if settings.memgrindAllocMax < size then some .maxSize
  -- The sums of the tests are taken in `size_t`, before anything is booked.
  else if settings.memgrindMemMax < SizeT.add statistics.totalUsed size then some .totalSize
  else if settings.memgrindAllocCount < SizeT.add statistics.allocationNum 1 then some .allocCount
  else none

def canAlloc (settings : EnviromentSettings) (statistics : MemoryStatistics) (size : Nat) : Bool :=
  (declined settings statistics size).isNone

theorem canAlloc_iff {settings : EnviromentSettings} {statistics : MemoryStatistics} {size : Nat} :
    canAlloc settings statistics size = true ↔
      size ≤ settings.memgrindAllocMax ∧ SizeT.add statistics.totalUsed size ≤ settings.memgrindMemMax ∧
        SizeT.add statistics.allocationNum 1 ≤ settings.memgrindAllocCount := by
  unfold canAlloc declined
  split
  · next large => exact iff_of_false Bool.false_ne_true fun limits => not_le.mpr large limits.1
  · next small =>
    split
    · next large => exact iff_of_false Bool.false_ne_true fun limits => not_le.mpr large limits.2.1
    · next within =>
      split
      · next many => exact iff_of_false Bool.false_ne_true fun limits => not_le.mpr many limits.2.2
      · next few => exact iff_of_true rfl ⟨not_lt.mp small, not_lt.mp within, not_lt.mp few⟩

def printFinal (statistics : MemoryStatistics) : Option (Nat × Nat) :=
  if statistics.allocationNum > statistics.dealllocationNum then
    some (SizeT.sub statistics.totalUsed statistics.totalFreed,
      SizeT.sub statistics.allocationNum statistics.dealllocationNum)
  else none

end Data

section Real

/-- The outcomes of the real `realloc`; with a pointer that is not live it has none. -/
inductive Resized where
  | undefined
  | failed
  | freed (heap : RealHeap)
  | inPlace (heap : RealHeap)
  | moved (memory : Nat) (heap : RealHeap)

/-- The common prefix is kept, and the service structure with it if both lengths hold it. -/
def keptData (block : Block (Option ServiceInfo)) (length : Nat) : Option ServiceInfo :=
  if serviceLength ≤ min block.length length then block.data else none

/-- `answer` is the address the allocator proposes, `none` for failure. Length
zero frees the block. -/
def realRealloc (heap : RealHeap) (ptr length : Nat) (answer : Option Nat) : Resized :=
  match heap.find ptr with
  | none => .undefined
  | some block =>
      if length = 0 then .freed (heap.release ptr)
      else
        match answer with
        | none => .failed
        | some memory =>
            if memory = ptr then
              match (heap.release ptr).place (some ptr) length (keptData block length) with
              | none => .failed
              | some (_, after) => .inPlace after
            else
              match heap.place (some memory) length (keptData block length) with
              | none => .failed
              | some (_, after) => .moved memory (after.release ptr)

inductive Resizes (heap : RealHeap) (ptr length : Nat) : Resized → Prop where
  | undefined : heap.find ptr = none → Resizes heap ptr length .undefined
  | failed : Resizes heap ptr length .failed
  | freed {block : Block (Option ServiceInfo)} : heap.find ptr = some block → length = 0 →
      Resizes heap ptr length (.freed (heap.release ptr))
  | inPlace {block : Block (Option ServiceInfo)} {after : RealHeap} : heap.find ptr = some block → length ≠ 0 →
      (heap.release ptr).place (some ptr) length (keptData block length) = some (ptr, after) →
      Resizes heap ptr length (.inPlace after)
  | moved {block : Block (Option ServiceInfo)} {memory : Nat} {after : RealHeap} : heap.find ptr = some block →
      length ≠ 0 → heap.place (some memory) length (keptData block length) = some (memory, after) →
      Resizes heap ptr length (.moved memory (after.release ptr))

theorem resizes_of_realRealloc {heap : RealHeap} {ptr length : Nat} {answer : Option Nat} {outcome : Resized}
    (resized : realRealloc heap ptr length answer = outcome) : Resizes heap ptr length outcome := by
  subst resized
  unfold realRealloc
  split
  · next missing => exact .undefined missing
  · next block found =>
    split
    · next empty => exact .freed found empty
    · next nonempty =>
      split
      · exact .failed
      · next memory =>
        split
        · next same =>
          split
          · exact .failed
          · next base after placed =>
            obtain ⟨rfl⟩ := (Heap.mem_of_place _ placed).1
            exact .inPlace found nonempty placed
        · split
          · exact .failed
          · next base after placed =>
            obtain ⟨rfl⟩ := (Heap.mem_of_place _ placed).1
            exact .moved found nonempty placed

end Real

section State

/-- A pointer its owner may still pass back. `raw` blocks were handed out while
the guard was up and have no service structure. -/
structure Entry where
  ptr : Nat
  size : Nat
  raw : Bool
  deriving DecidableEq, Repr

/-- A call of the client under way. `leaving` carries what is returned and the
block the client has from then on. -/
inductive Frame where
  | malloc (size : Nat)
  | calloc (num size : Nat)
  | realloc (entry : Entry) (size : Nat)
  | free (entry : Entry)
  | releasing (ptr : Nat)
  | leaving (returned : Nat) (kept : Option Entry)
  deriving DecidableEq, Repr

/-- `loading` begins when the real functions are known. -/
inductive Phase where
  | loading | running | finished
  deriving DecidableEq, Repr

structure World where
  phase : Phase
  libcGuard : Bool
  statistics : MemoryStatistics
  settings : EnviromentSettings
  heap : RealHeap
  ledger : List Entry
  pending : Option Frame

inductive Request where
  | malloc (size : Nat)
  | calloc (num size : Nat)
  | realloc (ptr size : Nat)
  | free (ptr : Nat)
  deriving DecidableEq, Repr

/-- What an observer sees: pointers obtained from and given to the real
functions, the bookings, and what comes back to the caller. `handed` is the size
of a block a guarded call hands to the client. -/
inductive Note where
  | obtained (ptr : Nat)
  | passed (ptr : Nat)
  | released (ptr : Nat)
  | booked (bytes : Nat)
  | numbered
  | exhausted
  | handed (size : Nat)
  | returned (ptr : Nat)
  | final (warning : Option (Nat × Nat))
  deriving DecidableEq, Repr

/-- `proceed` runs the pending call up to its next `syslog` or its return. -/
inductive Action where
  | init
  | destroy
  | call (request : Request) (answer : Option Nat)
  | proceed (answer : Option Nat) (wild : ServiceInfo)
  deriving DecidableEq, Repr

def start (settings : EnviromentSettings) : World where
  phase := .loading
  libcGuard := true
  statistics := ⟨0, 0, 0, 0, 0, 0⟩
  settings := settings
  heap := Heap.empty
  ledger := []
  pending := none

def World.entry (world : World) (ptr : Nat) : Option Entry := world.ledger.find? fun entry => entry.ptr = ptr

end State

section Guarded

def MemoryStatistics.fail (statistics : MemoryStatistics) : MemoryStatistics :=
  { statistics with errors := SizeT.add statistics.errors 1 }

def MemoryStatistics.decline (statistics : MemoryStatistics) : MemoryStatistics :=
  { statistics with declinedAllocations := SizeT.add statistics.declinedAllocations 1 }

/-- The bookings of `malloc` and `calloc`, made before the real call. -/
def MemoryStatistics.allocate (statistics : MemoryStatistics) (bytes : Nat) : MemoryStatistics :=
  { statistics with
    allocationNum := SizeT.add statistics.allocationNum 1
    totalUsed := SizeT.add statistics.totalUsed bytes }

def MemoryStatistics.release (statistics : MemoryStatistics) (bytes : Nat) : MemoryStatistics :=
  { statistics with
    dealllocationNum := SizeT.add statistics.dealllocationNum 1
    totalFreed := SizeT.add statistics.totalFreed bytes }

def MemoryStatistics.resize (statistics : MemoryStatistics) (blockSize size : Nat) : MemoryStatistics :=
  if blockSize ≤ size then { statistics with totalUsed := SizeT.add statistics.totalUsed (size - blockSize) }
  else { statistics with totalFreed := SizeT.add statistics.totalFreed (blockSize - size) }

def MemoryStatistics.move (statistics : MemoryStatistics) (blockSize size : Nat) : MemoryStatistics :=
  { statistics with
    allocationNum := SizeT.add statistics.allocationNum 1
    dealllocationNum := SizeT.add statistics.dealllocationNum 1
    totalUsed := SizeT.add statistics.totalUsed size
    totalFreed := SizeT.add statistics.totalFreed blockSize }

def World.leave (world : World) (returned : Nat) (kept : Option Entry) : World :=
  { world with pending := some (.leaving returned kept) }

/-- The common body of `malloc` and `calloc`: the size the limits are checked
against, the bytes booked and asked for, and what the client asked for. -/
def allocate (world : World) (checked bytes size : Nat) (answer : Option Nat) : World × List Note :=
  if canAlloc world.settings world.statistics checked then
    let statistics := world.statistics.allocate bytes
    match world.heap.place answer (SizeT.add bytes serviceLength) none with
    -- What was booked stays booked when the real call fails.
    | none =>
        ({ world with statistics := statistics.fail }.leave 0 none, [.numbered, .booked bytes, .exhausted])
    | some (memory, heap) =>
        ({ world with statistics := statistics, heap := initialiseServiceBlock heap memory bytes }.leave
            (libToUser memory) (some ⟨libToUser memory, size, false⟩),
          [.numbered, .booked bytes, .obtained memory])
  else ({ world with statistics := world.statistics.decline }.leave 0 none, [])

def mallocBody (world : World) (size : Nat) (answer : Option Nat) : World × List Note :=
  allocate world size size size answer

/-- Only the size of one element is checked. -/
def callocBody (world : World) (num size : Nat) (answer : Option Nat) : World × List Note :=
  allocate world size (SizeT.mul num size) (num * size) answer

def setBlockSize (heap : RealHeap) (memory size : Nat) (wild : ServiceInfo) : RealHeap :=
  heap.write memory fun data => some { data.getD wild with blockSize := size }

def reallocBody (world : World) (entry : Entry) (size : Nat) (answer : Option Nat) (wild : ServiceInfo) :
    World × List Note :=
  if canAlloc world.settings world.statistics size then
    let ptr := userToLib entry.ptr
    let info := readService world.heap ptr wild
    if checkServiceValidity info ≠ 0 then
      ({ world with statistics := world.statistics.fail }.leave 0 (some entry), [])
    else
      match realRealloc world.heap ptr (SizeT.add size serviceLength) answer with
      | .undefined | .failed =>
          ({ world with statistics := world.statistics.fail }.leave 0 (some entry), [.passed ptr])
      -- NULL is taken for a failure, so the client keeps a pointer to nothing.
      | .freed heap =>
          ({ world with statistics := world.statistics.fail, heap := heap }.leave 0 (some entry),
            [.passed ptr, .released ptr])
      | .inPlace heap =>
          ({ world with
              statistics := world.statistics.resize info.blockSize size
              heap := setBlockSize heap ptr size wild }.leave (libToUser ptr) (some ⟨libToUser ptr, size, false⟩),
            [.passed ptr, .booked (size - info.blockSize)])
      -- The magic word came along with the common prefix; only the size is written.
      | .moved memory heap =>
          ({ world with
              statistics := world.statistics.move info.blockSize size
              heap := setBlockSize heap memory size wild }.leave (libToUser memory)
                (some ⟨libToUser memory, size, false⟩),
            [.passed ptr, .released ptr, .obtained memory, .numbered, .booked size])
  else ({ world with statistics := world.statistics.decline }.leave 0 (some entry), [])

def freeBody (world : World) (entry : Entry) (wild : ServiceInfo) : World × List Note :=
  let ptr := userToLib entry.ptr
  let info := readService world.heap ptr wild
  -- The block is not freed, but its owner has given it up.
  if checkServiceValidity info ≠ 0 then
    ({ world with statistics := world.statistics.fail }.leave 0 none, [])
  else
    ({ world with
        statistics := world.statistics.release info.blockSize
        pending := some (.releasing ptr) }, [])

def realFree (heap : RealHeap) (ptr : Nat) : RealHeap × List Note :=
  if heap.live ptr then (heap.release ptr, [.passed ptr, .released ptr]) else (heap, [.passed ptr])

def returnFromGuarded (world : World) (returned : Nat) (kept : Option Entry) : World × List Note :=
  ({ world with libcGuard := false, pending := none, ledger := kept.toList ++ world.ledger },
    match kept with
    | some entry => if returned = 0 then [.returned 0] else [.handed entry.size, .returned returned]
    | none => [.returned returned])

def proceed (world : World) (frame : Frame) (answer : Option Nat) (wild : ServiceInfo) : World × List Note :=
  match frame with
  | .malloc size => mallocBody world size answer
  | .calloc num size => callocBody world num size answer
  | .realloc entry size => reallocBody world entry size answer wild
  | .free entry => freeBody world entry wild
  | .releasing ptr =>
      let (heap, notes) := realFree world.heap ptr
      ({ world with heap := heap }.leave 0 none, notes)
  | .leaving returned kept => returnFromGuarded world returned kept

end Guarded

section Calls

/-- A call that finds the guard down; the client gives the block out of its hands. -/
def enter (world : World) (request : Request) : Option World :=
  let entered (ledger : List Entry) (frame : Frame) : World :=
    { world with libcGuard := true, ledger := ledger, pending := some frame }
  match request with
  | .malloc size => some (entered world.ledger (.malloc size))
  | .calloc num size => some (entered world.ledger (.calloc num size))
  | .realloc ptr size =>
      if ptr = 0 then some (entered world.ledger (.malloc size))
      else (world.entry ptr).map fun entry => entered (world.ledger.erase entry) (.realloc entry size)
  | .free ptr =>
      if ptr = 0 then some (entered world.ledger (.leaving 0 none))
      else (world.entry ptr).map fun entry => entered (world.ledger.erase entry) (.free entry)

def directAlloc (world : World) (size : Nat) (answer : Option Nat) : World × List Note :=
  match world.heap.place answer size none with
  | none => (world, [.returned 0])
  | some (memory, heap) =>
      ({ world with heap := heap, ledger := ⟨memory, size, true⟩ :: world.ledger }, [.obtained memory, .returned memory])

def directRealloc (world : World) (entry : Entry) (size : Nat) (answer : Option Nat) : World × List Note :=
  let ledger := world.ledger.erase entry
  match realRealloc world.heap entry.ptr size answer with
  | .undefined => ({ world with ledger := ledger }, [.passed entry.ptr, .returned 0])
  | .failed => (world, [.passed entry.ptr, .returned 0])
  -- Here length zero is what the caller asked for.
  | .freed heap => ({ world with heap := heap, ledger := ledger }, [.passed entry.ptr, .released entry.ptr, .returned 0])
  | .inPlace heap =>
      ({ world with heap := heap, ledger := ⟨entry.ptr, size, true⟩ :: ledger }, [.passed entry.ptr, .returned entry.ptr])
  | .moved memory heap =>
      ({ world with heap := heap, ledger := ⟨memory, size, true⟩ :: ledger },
        [.passed entry.ptr, .released entry.ptr, .obtained memory, .returned memory])

def directFree (world : World) (entry : Entry) : World × List Note :=
  let (heap, notes) := realFree world.heap entry.ptr
  ({ world with heap := heap, ledger := world.ledger.erase entry }, notes)

/-- A call that finds the guard up. The product of the real `calloc` is checked there. -/
def direct (world : World) (request : Request) (answer : Option Nat) : Option (World × List Note) :=
  match request with
  | .malloc size => some (directAlloc world size answer)
  | .calloc num size =>
      some (if num * size < 2 ^ 64 then directAlloc world (num * size) answer else (world, [.returned 0]))
  | .realloc ptr size =>
      if ptr = 0 then some (directAlloc world size answer)
      else (world.entry ptr).map fun entry => directRealloc world entry size answer
  | .free ptr => if ptr = 0 then some (world, []) else (world.entry ptr).map (directFree world)

/-- Pointers that are passed back must be live: handed out and not given up since. -/
def memgrindMachine : Machine World Action Note where
  step world action :=
    match action with
    | .init => if world.phase = .loading then some ({ world with phase := .running, libcGuard := false }, []) else none
    -- The guard goes up for good: whatever comes later goes straight to the real functions.
    | .destroy =>
        if world.phase = .running ∧ world.pending = none then
          some ({ world with phase := .finished, libcGuard := true }, [.final (printFinal world.statistics)])
        else none
    | .call request answer =>
        if world.libcGuard then direct world request answer
        else (enter world request).map fun after => (after, [])
    | .proceed answer wild =>
        match world.pending with
        | none => none
        | some frame => some (proceed world frame answer wild)

end Calls

section Moves

inductive Asks : Frame → Nat → Nat → Nat → Prop where
  | malloc {size : Nat} : Asks (.malloc size) size size size
  | calloc {num size : Nat} : Asks (.calloc num size) size (SizeT.mul num size) (num * size)

inductive Opens : Request → Frame → Prop where
  | malloc {size : Nat} : Opens (.malloc size) (.malloc size)
  | calloc {num size : Nat} : Opens (.calloc num size) (.calloc num size)
  | reallocNull {size : Nat} : Opens (.realloc 0 size) (.malloc size)
  | freeNull : Opens (.free 0) (.leaving 0 none)

inductive Move (world : World) : Action → World → List Note → Prop where
  | init : world.phase = .loading →
      Move world .init { world with phase := .running, libcGuard := false } []
  | destroy : world.phase = .running → world.pending = none →
      Move world .destroy { world with phase := .finished, libcGuard := true } [.final (printFinal world.statistics)]
  | enter {request : Request} {answer : Option Nat} {frame : Frame} :
      world.libcGuard = false → Opens request frame →
      Move world (.call request answer) { world with libcGuard := true, pending := some frame } []
  | give {request : Request} {answer : Option Nat} {entry : Entry} {frame : Frame} :
      world.libcGuard = false → world.entry entry.ptr = some entry →
      (request = .free entry.ptr ∧ frame = .free entry ∨
        ∃ size, request = .realloc entry.ptr size ∧ frame = .realloc entry size) →
      Move world (.call request answer)
        { world with libcGuard := true, ledger := world.ledger.erase entry, pending := some frame } []
  | directNull {request : Request} {answer : Option Nat} {notes : List Note} :
      world.libcGuard = true → notes = [] ∨ notes = [.returned 0] → Move world (.call request answer) world notes
  | directAlloc {request : Request} {answer : Option Nat} {size memory : Nat} {heap : RealHeap} :
      world.libcGuard = true → world.heap.place answer size none = some (memory, heap) →
      Move world (.call request answer)
        { world with heap := heap, ledger := ⟨memory, size, true⟩ :: world.ledger } [.obtained memory, .returned memory]
  | directRealloc {answer : Option Nat} {entry : Entry} {size : Nat} :
      world.libcGuard = true → world.entry entry.ptr = some entry →
      Move world (.call (.realloc entry.ptr size) answer) (directRealloc world entry size answer).1
        (directRealloc world entry size answer).2
  | directFree {answer : Option Nat} {entry : Entry} :
      world.libcGuard = true → world.entry entry.ptr = some entry →
      Move world (.call (.free entry.ptr) answer) (directFree world entry).1 (directFree world entry).2
  | decline {frame : Frame} {answer : Option Nat} {wild : ServiceInfo} {checked : Nat} {kept : Option Entry} :
      world.pending = some frame →
      (∃ bytes size, Asks frame checked bytes size ∧ kept = none) ∨
        (∃ entry, frame = .realloc entry checked ∧ kept = some entry) →
      canAlloc world.settings world.statistics checked = false →
      Move world (.proceed answer wild) ({ world with statistics := world.statistics.decline }.leave 0 kept) []
  | exhaust {frame : Frame} {answer : Option Nat} {wild : ServiceInfo} {checked bytes size : Nat} :
      world.pending = some frame → Asks frame checked bytes size →
      canAlloc world.settings world.statistics checked = true →
      world.heap.place answer (SizeT.add bytes serviceLength) none = none →
      Move world (.proceed answer wild) ({ world with statistics := (world.statistics.allocate bytes).fail }.leave 0 none)
        [.numbered, .booked bytes, .exhausted]
  | allocate {frame : Frame} {answer : Option Nat} {wild : ServiceInfo} {checked bytes size memory : Nat}
      {heap : RealHeap} :
      world.pending = some frame → Asks frame checked bytes size →
      canAlloc world.settings world.statistics checked = true →
      world.heap.place answer (SizeT.add bytes serviceLength) none = some (memory, heap) →
      Move world (.proceed answer wild)
        ({ world with
            statistics := world.statistics.allocate bytes
            heap := initialiseServiceBlock heap memory bytes }.leave (libToUser memory)
              (some ⟨libToUser memory, size, false⟩))
        [.numbered, .booked bytes, .obtained memory]
  | corrupt {frame : Frame} {answer : Option Nat} {wild : ServiceInfo} {entry : Entry} {kept : Option Entry} :
      world.pending = some frame →
      (frame = .free entry ∧ kept = none ∨ ∃ size, frame = .realloc entry size ∧ kept = some entry) →
      checkServiceValidity (readService world.heap (userToLib entry.ptr) wild) ≠ 0 →
      Move world (.proceed answer wild) ({ world with statistics := world.statistics.fail }.leave 0 kept) []
  | reallocFailed {answer : Option Nat} {wild : ServiceInfo} {entry : Entry} {size : Nat} :
      world.pending = some (.realloc entry size) →
      canAlloc world.settings world.statistics size = true →
      checkServiceValidity (readService world.heap (userToLib entry.ptr) wild) = 0 →
      Move world (.proceed answer wild) ({ world with statistics := world.statistics.fail }.leave 0 (some entry))
        [.passed (userToLib entry.ptr)]
  | reallocFreed {answer : Option Nat} {wild : ServiceInfo} {entry : Entry} {size : Nat} {heap : RealHeap} :
      world.pending = some (.realloc entry size) →
      canAlloc world.settings world.statistics size = true →
      checkServiceValidity (readService world.heap (userToLib entry.ptr) wild) = 0 →
      realRealloc world.heap (userToLib entry.ptr) (SizeT.add size serviceLength) answer = .freed heap →
      Move world (.proceed answer wild)
        ({ world with statistics := world.statistics.fail, heap := heap }.leave 0 (some entry))
        [.passed (userToLib entry.ptr), .released (userToLib entry.ptr)]
  | reallocInPlace {answer : Option Nat} {wild : ServiceInfo} {entry : Entry} {size : Nat} {heap : RealHeap} :
      world.pending = some (.realloc entry size) →
      canAlloc world.settings world.statistics size = true →
      checkServiceValidity (readService world.heap (userToLib entry.ptr) wild) = 0 →
      realRealloc world.heap (userToLib entry.ptr) (SizeT.add size serviceLength) answer = .inPlace heap →
      Move world (.proceed answer wild)
        ({ world with
            statistics := world.statistics.resize (readService world.heap (userToLib entry.ptr) wild).blockSize size
            heap := setBlockSize heap (userToLib entry.ptr) size wild }.leave (libToUser (userToLib entry.ptr))
              (some ⟨libToUser (userToLib entry.ptr), size, false⟩))
        [.passed (userToLib entry.ptr),
          .booked (size - (readService world.heap (userToLib entry.ptr) wild).blockSize)]
  | reallocMoved {answer : Option Nat} {wild : ServiceInfo} {entry : Entry} {size memory : Nat} {heap : RealHeap} :
      world.pending = some (.realloc entry size) →
      canAlloc world.settings world.statistics size = true →
      checkServiceValidity (readService world.heap (userToLib entry.ptr) wild) = 0 →
      realRealloc world.heap (userToLib entry.ptr) (SizeT.add size serviceLength) answer = .moved memory heap →
      Move world (.proceed answer wild)
        ({ world with
            statistics := world.statistics.move (readService world.heap (userToLib entry.ptr) wild).blockSize size
            heap := setBlockSize heap memory size wild }.leave (libToUser memory)
              (some ⟨libToUser memory, size, false⟩))
        [.passed (userToLib entry.ptr), .released (userToLib entry.ptr), .obtained memory, .numbered, .booked size]
  | bookFree {answer : Option Nat} {wild : ServiceInfo} {entry : Entry} :
      world.pending = some (.free entry) →
      checkServiceValidity (readService world.heap (userToLib entry.ptr) wild) = 0 →
      Move world (.proceed answer wild)
        { world with
          statistics := world.statistics.release (readService world.heap (userToLib entry.ptr) wild).blockSize
          pending := some (.releasing (userToLib entry.ptr)) } []
  | release {answer : Option Nat} {wild : ServiceInfo} {ptr : Nat} :
      world.pending = some (.releasing ptr) →
      Move world (.proceed answer wild) ({ world with heap := (realFree world.heap ptr).1 }.leave 0 none)
        (realFree world.heap ptr).2
  | leave {answer : Option Nat} {wild : ServiceInfo} {returned : Nat} {kept : Option Entry} :
      world.pending = some (.leaving returned kept) →
      Move world (.proceed answer wild) (returnFromGuarded world returned kept).1 (returnFromGuarded world returned kept).2

variable {world after : World} {notes : List Note}

theorem entry_ptr {ptr : Nat} {entry : Entry} (found : world.entry ptr = some entry) : entry.ptr = ptr := by
  simpa using List.find?_some found

theorem Move.of_pair {action : Action} {result : World × List Note} (move : Move world action result.1 result.2)
    (same : result = (after, notes)) : Move world action after notes := by
  subst same
  exact move

theorem move_of_enter {request : Request} {answer : Option Nat} (down : world.libcGuard = false)
    (entered : enter world request = some after) : Move world (.call request answer) after [] := by
  cases request with
  | malloc size =>
    cases entered
    exact .enter down .malloc
  | calloc num size =>
    cases entered
    exact .enter down .calloc
  | realloc ptr size =>
    simp only [enter] at entered
    split at entered
    · next null =>
      subst null
      cases entered
      exact .enter down .reallocNull
    · obtain ⟨entry, found, rfl⟩ := Option.map_eq_some_iff.mp entered
      obtain rfl := entry_ptr found
      exact .give down found (Or.inr ⟨size, rfl, rfl⟩)
  | free ptr =>
    simp only [enter] at entered
    split at entered
    · next null =>
      subst null
      cases entered
      exact .enter down .freeNull
    · obtain ⟨entry, found, rfl⟩ := Option.map_eq_some_iff.mp entered
      obtain rfl := entry_ptr found
      exact .give down found (Or.inl ⟨rfl, rfl⟩)

theorem move_of_directAlloc {request : Request} {answer : Option Nat} (up : world.libcGuard = true) (size : Nat) :
    Move world (.call request answer) (directAlloc world size answer).1 (directAlloc world size answer).2 := by
  unfold directAlloc
  split
  · exact .directNull up (Or.inr rfl)
  · next placed => exact .directAlloc up placed

theorem move_of_direct {request : Request} {answer : Option Nat} (up : world.libcGuard = true)
    (called : direct world request answer = some (after, notes)) : Move world (.call request answer) after notes := by
  cases request with
  | malloc size => exact (move_of_directAlloc up size).of_pair (Option.some.inj called)
  | calloc num size =>
    simp only [direct, Option.some.injEq] at called
    split at called
    · exact (move_of_directAlloc up (num * size)).of_pair called
    · cases called
      exact .directNull up (Or.inr rfl)
  | realloc ptr size =>
    simp only [direct] at called
    split at called
    · exact (move_of_directAlloc up size).of_pair (Option.some.inj called)
    · obtain ⟨entry, found, resized⟩ := Option.map_eq_some_iff.mp called
      obtain rfl := entry_ptr found
      exact (Move.directRealloc up found).of_pair resized
  | free ptr =>
    simp only [direct] at called
    split at called
    · cases called
      exact .directNull up (Or.inl rfl)
    · obtain ⟨entry, found, freed⟩ := Option.map_eq_some_iff.mp called
      obtain rfl := entry_ptr found
      exact (Move.directFree up found).of_pair freed

theorem move_of_allocate {frame : Frame} {answer : Option Nat} {wild : ServiceInfo} {checked bytes size : Nat}
    (pending : world.pending = some frame) (asks : Asks frame checked bytes size) :
    Move world (.proceed answer wild) (allocate world checked bytes size answer).1
      (allocate world checked bytes size answer).2 := by
  unfold allocate
  split
  · next allowed =>
    simp only
    split
    · next full => exact .exhaust pending asks allowed full
    · next placed => exact .allocate pending asks allowed placed
  · next refused => exact .decline pending (Or.inl ⟨bytes, size, asks, rfl⟩) (by simpa using refused)

theorem move_of_reallocBody {entry : Entry} {size : Nat} {answer : Option Nat} {wild : ServiceInfo}
    (pending : world.pending = some (.realloc entry size)) :
    Move world (.proceed answer wild) (reallocBody world entry size answer wild).1
      (reallocBody world entry size answer wild).2 := by
  unfold reallocBody
  split
  · next allowed =>
    simp only
    split
    · next invalid => exact .corrupt pending (Or.inr ⟨size, rfl, rfl⟩) invalid
    · next valid =>
      have valid := not_not.mp valid
      cases resized : realRealloc world.heap (userToLib entry.ptr) (SizeT.add size serviceLength) answer with
      | undefined => exact .reallocFailed pending allowed valid
      | failed => exact .reallocFailed pending allowed valid
      | freed heap => exact .reallocFreed pending allowed valid resized
      | inPlace heap => exact .reallocInPlace pending allowed valid resized
      | moved memory heap => exact .reallocMoved pending allowed valid resized
  · next refused => exact .decline pending (Or.inr ⟨entry, rfl, rfl⟩) (by simpa using refused)

theorem move_of_freeBody {entry : Entry} {answer : Option Nat} {wild : ServiceInfo}
    (pending : world.pending = some (.free entry)) :
    Move world (.proceed answer wild) (freeBody world entry wild).1 (freeBody world entry wild).2 := by
  unfold freeBody
  simp only
  split
  · next invalid => exact .corrupt pending (Or.inl ⟨rfl, rfl⟩) invalid
  · next valid => exact .bookFree pending (not_not.mp valid)

theorem move_of_step {action : Action} (step : memgrindMachine.step world action = some (after, notes)) :
    Move world action after notes := by
  cases action with
  | init =>
    simp only [memgrindMachine, Option.ite_none_right_eq_some, Option.some.injEq, Prod.mk.injEq] at step
    obtain ⟨loading, rfl, rfl⟩ := step
    exact .init loading
  | destroy =>
    simp only [memgrindMachine, Option.ite_none_right_eq_some, Option.some.injEq, Prod.mk.injEq] at step
    obtain ⟨⟨running, idle⟩, rfl, rfl⟩ := step
    exact .destroy running idle
  | call request answer =>
    simp only [memgrindMachine] at step
    split at step
    · next up => exact move_of_direct up step
    · next down =>
      obtain ⟨entered, found, same⟩ := Option.map_eq_some_iff.mp step
      cases same
      exact move_of_enter (by simpa using down) found
  | proceed answer wild =>
    simp only [memgrindMachine] at step
    split at step
    · cases step
    · next frame pending =>
      have same := Option.some.inj step
      cases frame with
      | malloc size => exact (move_of_allocate pending .malloc).of_pair same
      | calloc num size => exact (move_of_allocate pending .calloc).of_pair same
      | realloc entry size => exact (move_of_reallocBody pending).of_pair same
      | free entry => exact (move_of_freeBody pending).of_pair same
      | releasing ptr => exact (Move.release pending).of_pair same
      | leaving returned kept => exact (Move.leave pending).of_pair same

end Moves
end PosixC.Memgrind
