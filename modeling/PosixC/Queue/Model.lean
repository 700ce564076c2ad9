import PosixC.Foundation.Monitor
import PosixC.Foundation.Ring
import PosixC.Foundation.SizeT

/-! The thread-safe queue of hw09/queue.c.

The ring buffer and its counters are the shared data of a monitor. The mutex and
the two condition variables are the monitor's own; what remains of a queue is
the data they protect and the thread-specific error slot.
-/

set_option autoImplicit false
set_option linter.dupNamespace false

namespace PosixC.Queue

open Foundation Foundation.Monitor

abbrev Bytes := List UInt8

inductive ErrorCode where
  | queueSuccess | allocFailure | wrongQueueArg | mutexInitFail | condInitFail | mutexDestroyFail
  | condDestroyFail | cantLock | queueFull | queueEmpty | queueAbort | keyError
  deriving DecidableEq, Repr

def ErrorCode.value : ErrorCode → Nat
  | .queueSuccess => 0
  | .allocFailure => 1
  | .wrongQueueArg => 2
  | .mutexInitFail => 3
  | .condInitFail => 4
  | .mutexDestroyFail => 5
  | .condDestroyFail => 6
  | .cantLock => 7
  | .queueFull => 8
  | .queueEmpty => 9
  | .queueAbort => 10
  | .keyError => 11

structure QueueMemory where
  memory : Bytes
  queueSize : Nat
  readPointer : Nat
  writePointer : Nat

structure QueueSynchronization where
  aborted : Bool
  waitingForPop : Nat
  waitingForPush : Nat

/-- `libErrno` is the value of the thread-specific key in each thread. -/
structure Queue (Tid : Type) where
  queueCapacity : Nat
  elemSize : Nat
  libErrno : Tid → Nat
  buffer : QueueMemory
  sync : QueueSynchronization

section Create

variable {Tid : Type}

inductive Resource where
  | queueBlock | bufferBlock | key | mutex | condPop | condPush
  deriving DecidableEq, Repr

inductive ResourceEvent where
  | acquire (resource : Resource)
  | release (resource : Resource)
  deriving DecidableEq, Repr

/-- Whether `qptr` is not NULL, and which of the calls of `queue_create` succeed. -/
structure Attempts where
  qptr : Bool
  queueCalloc : Bool
  bufferCalloc : Bool
  keyCreate : Bool
  setspecific : Bool
  mutexInit : Bool
  condPopInit : Bool
  condPushInit : Bool

/-- `calloc` also fails when the product does not fit, whatever memory there is. -/
def calloc (succeeds : Bool) (count size : Nat) : Option Bytes :=
  if succeeds = true ∧ count * size < 2 ^ 64 then some (List.replicate (count * size) 0) else none

/-- The labels at the end of `queue_create`, each falling through to the next. -/
def unwindQueueAlloc : List ResourceEvent := []

def unwindBufferAlloc : List ResourceEvent := .release .queueBlock :: unwindQueueAlloc

def unwindKeyInit : List ResourceEvent := .release .bufferBlock :: unwindBufferAlloc

def unwindMutexInit : List ResourceEvent := .release .key :: unwindKeyInit

def unwindCondInitPop : List ResourceEvent := .release .mutex :: unwindMutexInit

def unwindCondInitPush : List ResourceEvent := .release .condPop :: unwindCondInitPop

def freshQueue (Tid : Type) (elemSize queueCapacity : UInt64) (memory : Bytes) : Queue Tid where
  queueCapacity := queueCapacity.toNat
  elemSize := elemSize.toNat
  libErrno := fun _ => 0
  buffer := ⟨memory, 0, 0, 0⟩
  sync := ⟨false, 0, 0⟩

/-- The code of `queue_create`, the new `*qptr` and the resources acquired and
released on the way. -/
def queueCreate (attempts : Attempts) (elemSize queueCapacity : UInt64) :
    ErrorCode × Option (Queue Tid) × List ResourceEvent :=
  if attempts.qptr = false then (.wrongQueueArg, none, [])
  else if attempts.queueCalloc = false then (.allocFailure, none, unwindQueueAlloc)
  else
    match calloc attempts.bufferCalloc queueCapacity.toNat elemSize.toNat with
    | none => (.allocFailure, none, .acquire .queueBlock :: unwindBufferAlloc)
    | some memory =>
        let blocks := [.acquire .queueBlock, .acquire .bufferBlock]
        if attempts.keyCreate = false then (.keyError, none, blocks ++ unwindKeyInit)
        -- Both halves of the condition go to the same label.
        else if attempts.setspecific = false then
          (.keyError, none, blocks ++ .acquire .key :: unwindKeyInit)
        else if attempts.mutexInit = false then
          (.mutexInitFail, none, blocks ++ .acquire .key :: unwindMutexInit)
        else if attempts.condPopInit = false then
          (.condInitFail, none, blocks ++ .acquire .key :: .acquire .mutex :: unwindCondInitPop)
        else if attempts.condPushInit = false then
          (.condInitFail, none,
            blocks ++ .acquire .key :: .acquire .mutex :: .acquire .condPop :: unwindCondInitPush)
        else
          (.queueSuccess, some (freshQueue Tid elemSize queueCapacity memory),
            blocks ++ [.acquire .key, .acquire .mutex, .acquire .condPop, .acquire .condPush])

end Create

section Queries

variable {Tid : Type} (queue : Queue Tid)

def queueSize : Nat := queue.buffer.queueSize

def queueIsEmpty : Bool := queue.buffer.queueSize == 0

def queueIsFull : Bool := queue.buffer.queueSize == queue.queueCapacity

/-- Computed in `size_t` and returned as `ssize_t`. -/
def queueForecast : Int :=
  let total := SizeT.add (SizeT.sub queue.buffer.queueSize queue.sync.waitingForPop) queue.sync.waitingForPush
  if total < 2 ^ 63 then total else (total : Int) - 2 ^ 64

def queueErrno (self : Tid) : Nat := queue.libErrno self

end Queries

section Transfers

variable {Tid : Type}

/-- The tail that `queue_push` and `queue_try_push` share: copy the element in,
advance the write cursor, count it. -/
def Queue.store (queue : Queue Tid) (elem : Bytes) : Queue Tid :=
  { queue with
    buffer :=
      { queue.buffer with
        memory := Ring.splice queue.buffer.memory (SizeT.mul queue.buffer.writePointer queue.elemSize)
          (elem.take queue.elemSize)
        writePointer := SizeT.add queue.buffer.writePointer 1 % queue.queueCapacity
        queueSize := SizeT.add queue.buffer.queueSize 1 } }

/-- What `queue_pop` and `queue_try_pop` copy to a non-NULL `elem`: the source
takes the offset from the write cursor. -/
def Queue.copied (queue : Queue Tid) : Bytes :=
  (queue.buffer.memory.drop (SizeT.mul queue.buffer.writePointer queue.elemSize)).take queue.elemSize

def Queue.remove (queue : Queue Tid) : Queue Tid :=
  { queue with
    buffer :=
      { queue.buffer with
        readPointer := SizeT.add queue.buffer.readPointer 1 % queue.queueCapacity
        queueSize := SizeT.sub queue.buffer.queueSize 1 } }

def returnErrorState [DecidableEq Tid] (queue : Queue Tid) (self : Tid) (code : ErrorCode) : Queue Tid :=
  { queue with libErrno := Function.update queue.libErrno self code.value }

section Fields

-- The records are taken apart first: comparing them as wholes would make the
-- kernel compare a counter with its successor.
variable (queue : Queue Tid) (elem : Bytes)

@[simp] theorem store_memory : (queue.store elem).buffer.memory =
    Ring.splice queue.buffer.memory (SizeT.mul queue.buffer.writePointer queue.elemSize)
      (elem.take queue.elemSize) := by
  rcases queue with ⟨_, _, _, ⟨_, _, _, _⟩, _⟩; simp only [Queue.store]

@[simp] theorem store_queueSize : (queue.store elem).buffer.queueSize = SizeT.add queue.buffer.queueSize 1 := by
  rcases queue with ⟨_, _, _, ⟨_, _, _, _⟩, _⟩; simp only [Queue.store]

@[simp] theorem store_readPointer : (queue.store elem).buffer.readPointer = queue.buffer.readPointer := by
  rcases queue with ⟨_, _, _, ⟨_, _, _, _⟩, _⟩; simp only [Queue.store]

@[simp] theorem store_writePointer : (queue.store elem).buffer.writePointer =
    SizeT.add queue.buffer.writePointer 1 % queue.queueCapacity := by
  rcases queue with ⟨_, _, _, ⟨_, _, _, _⟩, _⟩; simp only [Queue.store]

@[simp] theorem store_queueCapacity : (queue.store elem).queueCapacity = queue.queueCapacity := by
  rcases queue with ⟨_, _, _, _, _⟩; simp only [Queue.store]

@[simp] theorem store_elemSize : (queue.store elem).elemSize = queue.elemSize := by
  rcases queue with ⟨_, _, _, _, _⟩; simp only [Queue.store]

@[simp] theorem store_sync : (queue.store elem).sync = queue.sync := by
  rcases queue with ⟨_, _, _, _, _⟩; simp only [Queue.store]

@[simp] theorem remove_memory : queue.remove.buffer.memory = queue.buffer.memory := by
  rcases queue with ⟨_, _, _, ⟨_, _, _, _⟩, _⟩; simp only [Queue.remove]

@[simp] theorem remove_queueSize : queue.remove.buffer.queueSize = SizeT.sub queue.buffer.queueSize 1 := by
  rcases queue with ⟨_, _, _, ⟨_, _, _, _⟩, _⟩; simp only [Queue.remove]

@[simp] theorem remove_readPointer : queue.remove.buffer.readPointer =
    SizeT.add queue.buffer.readPointer 1 % queue.queueCapacity := by
  rcases queue with ⟨_, _, _, ⟨_, _, _, _⟩, _⟩; simp only [Queue.remove]

@[simp] theorem remove_writePointer : queue.remove.buffer.writePointer = queue.buffer.writePointer := by
  rcases queue with ⟨_, _, _, ⟨_, _, _, _⟩, _⟩; simp only [Queue.remove]

@[simp] theorem remove_queueCapacity : queue.remove.queueCapacity = queue.queueCapacity := by
  rcases queue with ⟨_, _, _, _, _⟩; simp only [Queue.remove]

@[simp] theorem remove_elemSize : queue.remove.elemSize = queue.elemSize := by
  rcases queue with ⟨_, _, _, _, _⟩; simp only [Queue.remove]

@[simp] theorem remove_sync : queue.remove.sync = queue.sync := by
  rcases queue with ⟨_, _, _, _, _⟩; simp only [Queue.remove]

end Fields

end Transfers

section Program

inductive Cond where
  | condPush | condPop
  deriving DecidableEq, Repr

/-- A call with its arguments. `none` and `false` stand for a NULL `elem`; the
caller of a push owns the `size` bytes it points to. -/
inductive Call (size : Nat) where
  | queuePush (elem : Option (Vector UInt8 size))
  | queuePop (wanted : Bool)
  | queueTryPush (elem : Option (Vector UInt8 size))
  | queueTryPop (wanted : Bool)
  | queueAbort

inductive Job (size : Nat) where
  | push (elem : Vector UInt8 size)
  | pop (wanted : Bool)

inductive Note where
  | pushed (elem : Bytes)
  | popped (out : Option Bytes)
  | returned (code : ErrorCode)
  deriving DecidableEq, Repr

/-- The points between the statements. `test` is the head of the waiting loop,
`tryTest` the single test of the operations that do not block. -/
inductive Point (size : Nat) where
  | enter (call : Call size)
  | test (job : Job size)
  | sleep (job : Job size)
  | resume (job : Job size)
  | tryTest (job : Job size)
  | transfer (job : Job size)
  | signal (job : Job size)
  | abortSet
  | abortPop
  | abortPush
  | unlock (code : ErrorCode)
  | fail (code : ErrorCode)
  | leave (code : ErrorCode)

variable {Tid : Type} {size : Nat}

def Job.blocked (queue : Queue Tid) : Job size → Bool
  | .push _ => queueIsFull queue
  | .pop _ => queueIsEmpty queue

def Job.waitsOn : Job size → Cond
  | .push _ => .condPush
  | .pop _ => .condPop

def Job.signals : Job size → Cond
  | .push _ => .condPop
  | .pop _ => .condPush

def Job.announce (queue : Queue Tid) : Job size → Queue Tid
  | .push _ => { queue with sync := { queue.sync with waitingForPush := SizeT.add queue.sync.waitingForPush 1 } }
  | .pop _ => { queue with sync := { queue.sync with waitingForPop := SizeT.add queue.sync.waitingForPop 1 } }

def Job.withdraw (queue : Queue Tid) : Job size → Queue Tid
  | .push _ => { queue with sync := { queue.sync with waitingForPush := SizeT.sub queue.sync.waitingForPush 1 } }
  | .pop _ => { queue with sync := { queue.sync with waitingForPop := SizeT.sub queue.sync.waitingForPop 1 } }

def Job.refusal : Job size → ErrorCode
  | .push _ => .queueFull
  | .pop _ => .queueEmpty

def Job.perform (queue : Queue Tid) : Job size → Queue Tid
  | .push elem => queue.store elem.toList
  | .pop _ => queue.remove

def Job.note (queue : Queue Tid) : Job size → Note
  | .push elem => .pushed elem.toList
  | .pop wanted => .popped (if wanted then some queue.copied else none)

section Counters

variable (queue : Queue Tid) (job : Job size)

@[simp] theorem announce_buffer : (job.announce queue).buffer = queue.buffer := by
  rcases queue with ⟨_, _, _, _, _⟩; cases job <;> simp only [Job.announce]

@[simp] theorem announce_queueCapacity : (job.announce queue).queueCapacity = queue.queueCapacity := by
  rcases queue with ⟨_, _, _, _, _⟩; cases job <;> simp only [Job.announce]

@[simp] theorem announce_elemSize : (job.announce queue).elemSize = queue.elemSize := by
  rcases queue with ⟨_, _, _, _, _⟩; cases job <;> simp only [Job.announce]

@[simp] theorem announce_aborted : (job.announce queue).sync.aborted = queue.sync.aborted := by
  rcases queue with ⟨_, _, _, _, ⟨_, _, _⟩⟩; cases job <;> simp only [Job.announce]

@[simp] theorem withdraw_buffer : (job.withdraw queue).buffer = queue.buffer := by
  rcases queue with ⟨_, _, _, _, _⟩; cases job <;> simp only [Job.withdraw]

@[simp] theorem withdraw_queueCapacity : (job.withdraw queue).queueCapacity = queue.queueCapacity := by
  rcases queue with ⟨_, _, _, _, _⟩; cases job <;> simp only [Job.withdraw]

@[simp] theorem withdraw_elemSize : (job.withdraw queue).elemSize = queue.elemSize := by
  rcases queue with ⟨_, _, _, _, _⟩; cases job <;> simp only [Job.withdraw]

@[simp] theorem withdraw_aborted : (job.withdraw queue).sync.aborted = queue.sync.aborted := by
  rcases queue with ⟨_, _, _, _, ⟨_, _, _⟩⟩; cases job <;> simp only [Job.withdraw]

end Counters

/-- The statements of `queue_push`, `queue_pop`, `queue_try_push`,
`queue_try_pop` and `queue_abort`, from any point of any of them. -/
def queueNext [DecidableEq Tid] (self : Tid) (point : Point size) (queue : Queue Tid) :
    Command Cond (Queue Tid) (Point size) Note :=
  match point with
  | .enter (.queuePush none) => .assign queue (.fail .wrongQueueArg) []
  | .enter (.queuePush (some elem)) => .lock (.test (.push elem))
  | .enter (.queuePop wanted) => .lock (.test (.pop wanted))
  -- The operations that do not block do not wait for the mutex either.
  | .enter (.queueTryPush none) => .assign queue (.fail .wrongQueueArg) []
  | .enter (.queueTryPush (some elem)) => .tryLock (.tryTest (.push elem)) (.fail .cantLock)
  | .enter (.queueTryPop wanted) => .tryLock (.tryTest (.pop wanted)) (.fail .cantLock)
  | .enter .queueAbort => .lock .abortSet
  | .test job =>
      if job.blocked queue then
        -- The flag is looked at only while the job cannot proceed.
        if queue.sync.aborted then .assign queue (.unlock .queueAbort) []
        else .assign (job.announce queue) (.sleep job) []
      else .assign queue (.transfer job) []
  | .sleep job => .wait job.waitsOn (.resume job)
  | .resume job => .assign (job.withdraw queue) (.test job) []
  | .tryTest job =>
      if job.blocked queue then .assign queue (.unlock job.refusal) []
      else .assign queue (.transfer job) []
  | .transfer job => .assign (job.perform queue) (.signal job) [job.note queue]
  | .signal job => .signal job.signals (.unlock .queueSuccess)
  | .abortSet => .assign { queue with sync := { queue.sync with aborted := true } } .abortPop []
  | .abortPop => .broadcast .condPop .abortPush
  | .abortPush => .broadcast .condPush (.unlock .queueSuccess)
  -- The error is stored when the mutex is already free again.
  | .unlock code => .unlock (if code = .queueSuccess then .leave code else .fail code)
  | .fail code => .assign (returnErrorState queue self code) (.leave code) []
  | .leave code => .finish [.returned code]

inductive Statement [DecidableEq Tid] (self : Tid) (queue : Queue Tid) :
    Point size → Command Cond (Queue Tid) (Point size) Note → Prop where
  | null {call : Call size} : Statement self queue (.enter call) (.assign queue (.fail .wrongQueueArg) [])
  | lock {call : Call size} {job : Job size} : Statement self queue (.enter call) (.lock (.test job))
  | tryLock {call : Call size} {job : Job size} :
      Statement self queue (.enter call) (.tryLock (.tryTest job) (.fail .cantLock))
  | lockAbort : Statement self queue (.enter .queueAbort) (.lock .abortSet)
  | giveUp {job : Job size} : job.blocked queue = true → queue.sync.aborted = true →
      Statement self queue (.test job) (.assign queue (.unlock .queueAbort) [])
  | announce {job : Job size} : job.blocked queue = true → queue.sync.aborted = false →
      Statement self queue (.test job) (.assign (job.announce queue) (.sleep job) [])
  | proceed {job : Job size} : job.blocked queue = false →
      Statement self queue (.test job) (.assign queue (.transfer job) [])
  | sleep {job : Job size} : Statement self queue (.sleep job) (.wait job.waitsOn (.resume job))
  | withdraw {job : Job size} : Statement self queue (.resume job) (.assign (job.withdraw queue) (.test job) [])
  | refuse {job : Job size} : job.blocked queue = true →
      Statement self queue (.tryTest job) (.assign queue (.unlock job.refusal) [])
  | tryProceed {job : Job size} : job.blocked queue = false →
      Statement self queue (.tryTest job) (.assign queue (.transfer job) [])
  | transfer {job : Job size} :
      Statement self queue (.transfer job) (.assign (job.perform queue) (.signal job) [job.note queue])
  | signal {job : Job size} : Statement self queue (.signal job) (.signal job.signals (.unlock .queueSuccess))
  | abortSet : Statement self queue .abortSet
      (.assign { queue with sync := { queue.sync with aborted := true } } .abortPop [])
  | abortPop : Statement self queue .abortPop (.broadcast .condPop .abortPush)
  | abortPush : Statement self queue .abortPush (.broadcast .condPush (.unlock .queueSuccess))
  | unlock {code : ErrorCode} {next : Point size} : next = .leave code ∨ next = .fail code →
      Statement self queue (.unlock code) (.unlock next)
  | fail {code : ErrorCode} :
      Statement self queue (.fail code) (.assign (returnErrorState queue self code) (.leave code) [])
  | leave {code : ErrorCode} : Statement self queue (.leave code) (.finish [.returned code])

theorem statement_of_point [DecidableEq Tid] (self : Tid) (point : Point size) (queue : Queue Tid) :
    Statement self queue point (queueNext self point queue) := by
  cases point with
  | enter call =>
    cases call with
    | queuePush elem => cases elem with
      | none => exact .null
      | some elem => exact .lock
    | queuePop wanted => exact .lock
    | queueTryPush elem => cases elem with
      | none => exact .null
      | some elem => exact .tryLock
    | queueTryPop wanted => exact .tryLock
    | queueAbort => exact .lockAbort
  | test job =>
    simp only [queueNext]
    split
    · next blocked =>
      split
      · next aborted => exact .giveUp blocked aborted
      · next running => exact .announce blocked (by simpa using running)
    · next free => exact .proceed (by simpa using free)
  | sleep job => exact .sleep
  | resume job => exact .withdraw
  | tryTest job =>
    simp only [queueNext]
    split
    · next blocked => exact .refuse blocked
    · next free => exact .tryProceed (by simpa using free)
  | transfer job => exact .transfer
  | signal job => exact .signal
  | abortSet => exact .abortSet
  | abortPop => exact .abortPop
  | abortPush => exact .abortPush
  | unlock code =>
    refine .unlock ?_
    split
    · exact Or.inl rfl
    · exact Or.inr rfl
  | fail code => exact .fail
  | leave code => exact .leave

def queueProgram (Tid : Type) [DecidableEq Tid] (size : Nat) :
    Program Tid Cond (Queue Tid) (Point size) (Call size) Note where
  enter _ call := some (.enter call)
  next := queueNext

theorem statement_of_next [DecidableEq Tid] {self : Tid} {point : Point size} {queue : Queue Tid}
    {command : Command Cond (Queue Tid) (Point size) Note}
    (next : (queueProgram Tid size).next self point queue = command) : Statement self queue point command :=
  next ▸ statement_of_point self point queue

/-- Any number of threads calling any operations on one queue, in any order. -/
abbrev queueMachine (Tid : Type) [DecidableEq Tid] [Fintype Tid] (size : Nat) :=
  monitor (queueProgram Tid size)

end Program

section Observations

variable {Tid : Type}

/-- The elements of the successful pushes, by their critical sections. -/
def pushes (notes : List (Tid × Note)) : List Bytes :=
  notes.filterMap fun entry =>
    match entry.2 with
    | .pushed elem => some elem
    | _ => none

def pops (notes : List (Tid × Note)) : List (Option Bytes) :=
  notes.filterMap fun entry =>
    match entry.2 with
    | .popped out => some out
    | _ => none

@[simp] theorem pushes_append (first second : List (Tid × Note)) :
    pushes (first ++ second) = pushes first ++ pushes second :=
  List.filterMap_append

@[simp] theorem pops_append (first second : List (Tid × Note)) :
    pops (first ++ second) = pops first ++ pops second :=
  List.filterMap_append

end Observations
end PosixC.Queue
