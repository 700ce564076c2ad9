import PosixC.Foundation.MonitorCounting
import PosixC.Queue.Model

/-! The representation invariant of the ring buffer, in every reachable state.

Element number `i` of all elements ever pushed lives in slot `i` modulo the
capacity, the cursors are the numbers of pushes and pops reduced the same way,
and nothing a thread does outside its critical section touches either.
-/

set_option autoImplicit false
set_option linter.dupNamespace false

namespace PosixC.Queue

open Foundation Foundation.Monitor

section Discipline

variable {size : Nat}

def Holds : Point size → Prop
  | .enter _ | .fail _ | .leave _ => False
  | _ => True

def Parks (cond : Cond) (point : Point size) : Prop := ∃ job : Job size, job.waitsOn = cond ∧ point = .resume job

theorem queue_disciplined (Tid : Type) [DecidableEq Tid] : Disciplined (queueProgram Tid size) Holds Parks where
  enter := by
    rintro _ _ _ ⟨rfl⟩
    exact id
  command := by
    intro self point queue
    generalize next : (queueProgram Tid size).next self point queue = command
    cases statement_of_next next with
    | sleep => exact ⟨trivial, _, rfl, rfl⟩
    | unlock target =>
      rcases target with rfl | rfl
      · exact ⟨trivial, id⟩
      · exact ⟨trivial, id⟩
    | _ => simp [Respects, Holds]
  parked := by
    rintro _ _ ⟨_, _, rfl⟩
    trivial

end Discipline

section Represents

/-- `values` are all elements ever pushed and `removed` counts the pops. -/
structure Represents (capacity size : Nat) (values : List Bytes) (removed : Nat) (buffer : QueueMemory) : Prop where
  memory : buffer.memory.length = capacity * size
  balance : values.length = removed + buffer.queueSize
  bounded : buffer.queueSize ≤ capacity
  read : buffer.readPointer = removed % capacity
  write : buffer.writePointer = values.length % capacity
  history : Ring.History capacity (List.replicate size 0) (Ring.slotAt size buffer.memory) values

variable {Tid : Type} {queue : Queue Tid} {capacity size : Nat} {values : List Bytes} {removed : Nat}

theorem slot_room {index : Nat} (inside : index < capacity) : index * size + size ≤ capacity * size := by
  have := Nat.mul_le_mul_right size (show index + 1 ≤ capacity from inside)
  rwa [Nat.add_mul, Nat.one_mul] at this

theorem offset_exact {index : Nat} (fits : capacity * size < 2 ^ 64) (inside : index < capacity) :
    SizeT.mul index size = index * size :=
  SizeT.mul_exact (by have := @slot_room capacity size index inside; omega)

theorem Represents.store (represents : Represents capacity size values removed queue.buffer)
    (capacity_eq : queue.queueCapacity = capacity) (size_eq : queue.elemSize = size)
    (small : capacity < 2 ^ 64) (fits : capacity * size < 2 ^ 64)
    (room : queue.buffer.queueSize < capacity) {elem : Bytes} (length : elem.length = size) :
    Represents capacity size (values ++ [elem]) removed (queue.store elem).buffer := by
  subst capacity_eq size_eq
  have positive : 0 < queue.queueCapacity := by omega
  have inside : queue.buffer.writePointer < queue.queueCapacity := by
    rw [represents.write]
    exact Nat.mod_lt _ positive
  have whole : elem.take queue.elemSize = elem := List.take_of_length_le (by omega)
  have bound : queue.buffer.writePointer * queue.elemSize + elem.length ≤ queue.buffer.memory.length := by
    rw [represents.memory, length]
    exact slot_room inside
  have layout : (queue.store elem).buffer.memory =
      Ring.splice queue.buffer.memory (queue.buffer.writePointer * queue.elemSize) elem := by
    rw [store_memory, whole, offset_exact fits inside]
  have balance := represents.balance
  -- Only the slot under the write cursor changes, and that cursor moves on.
  constructor
  · rw [layout, Ring.length_splice bound, represents.memory]
  · rw [store_queueSize, SizeT.add_exact (by omega), List.length_append, List.length_singleton]
    omega
  · rw [store_queueSize, SizeT.add_exact (by omega)]
    omega
  · rw [store_readPointer, represents.read]
  · rw [store_writePointer, SizeT.add_exact (by omega), represents.write, Nat.mod_add_mod,
      List.length_append, List.length_singleton]
  · rw [layout]
    refine represents.history.write positive elem ?_ fun j _ different => ?_
    · rw [← represents.write]
      exact Ring.slotAt_splice length (length ▸ bound)
    · exact Ring.slotAt_splice_of_ne length (length ▸ bound) (by rwa [represents.write])

theorem Represents.remove (represents : Represents capacity size values removed queue.buffer)
    (capacity_eq : queue.queueCapacity = capacity) (small : capacity < 2 ^ 64)
    (some : 0 < queue.buffer.queueSize) :
    Represents capacity size values (removed + 1) queue.remove.buffer := by
  subst capacity_eq
  have bounded := represents.bounded
  have balance := represents.balance
  have inside : queue.buffer.readPointer < queue.queueCapacity := by
    rw [represents.read]
    exact Nat.mod_lt _ (by omega)
  have count : queue.remove.buffer.queueSize = queue.buffer.queueSize - 1 := by
    rw [remove_queueSize]
    exact SizeT.sub_exact some
  constructor
  · rw [remove_memory, represents.memory]
  · omega
  · omega
  · rw [remove_readPointer, SizeT.add_exact (by omega), represents.read, Nat.mod_add_mod]
  · rw [remove_writePointer, represents.write]
  · rw [remove_memory]
    exact represents.history

theorem Represents.copied (represents : Represents capacity size values removed queue.buffer)
    (size_eq : queue.elemSize = size) (fits : capacity * size < 2 ^ 64) (positive : 0 < capacity) :
    queue.copied = Ring.stale capacity (List.replicate size 0) values := by
  subst size_eq
  have inside : queue.buffer.writePointer < capacity := by
    rw [represents.write]
    exact Nat.mod_lt _ positive
  rw [← represents.history.next_slot positive, ← represents.write, Queue.copied, offset_exact fits inside]
  rfl

end Represents

section Outline

variable {Tid : Type} {capacity size : Nat}

structure Tracks (capacity size : Nat) (notes : List (Tid × Note)) (queue : Queue Tid) : Prop where
  queueCapacity : queue.queueCapacity = capacity
  elemSize : queue.elemSize = size
  represents : Represents capacity size (pushes notes) (pops notes).length queue.buffer

def Ready (queue : Queue Tid) : Point size → Prop
  | .sleep job => job.blocked queue = true
  | .transfer job => job.blocked queue = false
  | _ => True

def Held (capacity : Nat) (point : Point size) (notes : List (Tid × Note)) (queue : Queue Tid) : Prop :=
  Tracks capacity size notes queue ∧ Ready queue point

theorem blocked_congr {queue other : Queue Tid} (buffer : queue.buffer = other.buffer)
    (limit : queue.queueCapacity = other.queueCapacity) (job : Job size) :
    job.blocked queue = job.blocked other := by
  cases job <;> simp only [Job.blocked, queueIsFull, queueIsEmpty, buffer, limit]

theorem Tracks.of_buffer {notes : List (Tid × Note)} {queue after : Queue Tid} (tracks : Tracks capacity size notes queue)
    (buffer : after.buffer = queue.buffer) (limit : after.queueCapacity = queue.queueCapacity)
    (element : after.elemSize = queue.elemSize) : Tracks capacity size notes after :=
  ⟨limit.trans tracks.queueCapacity, element.trans tracks.elemSize, buffer ▸ tracks.represents⟩

theorem Tracks.perform (small : capacity < 2 ^ 64) (fits : capacity * size < 2 ^ 64)
    {notes : List (Tid × Note)} {queue : Queue Tid} (tracks : Tracks capacity size notes queue)
    (job : Job size) (free : job.blocked queue = false) (self : Tid) :
    Tracks capacity size (notes ++ [(self, job.note queue)]) (job.perform queue) := by
  have bounded := tracks.represents.bounded
  cases job with
  | push elem =>
    have room : queue.buffer.queueSize < capacity := by
      have different : queue.buffer.queueSize ≠ queue.queueCapacity := by
        simpa [Job.blocked, queueIsFull] using free
      have := tracks.queueCapacity
      omega
    refine ⟨(store_queueCapacity ..).trans tracks.queueCapacity, (store_elemSize ..).trans tracks.elemSize, ?_⟩
    rw [pushes_append, pops_append, List.length_append]
    exact tracks.represents.store tracks.queueCapacity tracks.elemSize small fits room elem.length_toList
  | pop wanted =>
    have some : 0 < queue.buffer.queueSize := by
      have : queue.buffer.queueSize ≠ 0 := by simpa [Job.blocked, queueIsEmpty] using free
      omega
    refine ⟨(remove_queueCapacity ..).trans tracks.queueCapacity, (remove_elemSize ..).trans tracks.elemSize, ?_⟩
    rw [pushes_append, pops_append, List.length_append]
    change Represents capacity size (pushes notes ++ []) ((pops notes).length + 1) queue.remove.buffer
    rw [List.append_nil]
    exact tracks.represents.remove tracks.queueCapacity small some

variable [DecidableEq Tid]

theorem queue_outline (small : capacity < 2 ^ 64) (fits : capacity * size < 2 ^ 64) :
    Outline (queueProgram Tid size) Holds Parks (Tracks capacity size) (Held capacity) where
  lock tracks command := by
    cases statement_of_next command with
    | lock => exact ⟨tracks, trivial⟩
    | lockAbort => exact ⟨tracks, trivial⟩
  tryLock tracks command := by
    cases statement_of_next command with
    | tryLock => exact ⟨tracks, trivial⟩
  resume := by
    rintro _ _ _ _ tracks ⟨job, _, rfl⟩
    exact ⟨tracks, trivial⟩
  unlock held _ := held.1
  wait held _ := held.1
  signal held command := by
    cases statement_of_next command with
    | signal => exact ⟨held.1, trivial⟩
  broadcast held command := by
    cases statement_of_next command with
    | abortPop => exact ⟨held.1, trivial⟩
    | abortPush => exact ⟨held.1, trivial⟩
  assign inside held command := by
    obtain ⟨tracks, ready⟩ := held
    -- Of the statements inside the mutex only the transfer touches the buffer.
    cases statement_of_next command <;> try simp only [List.map_nil, List.append_nil]
    case null | fail => exact absurd inside id
    case giveUp | refuse => exact ⟨tracks, trivial⟩
    case proceed free | tryProceed free => exact ⟨tracks, free⟩
    case announce blocked _ =>
      exact ⟨tracks.of_buffer (announce_buffer ..) (announce_queueCapacity ..) (announce_elemSize ..),
        (blocked_congr (announce_buffer ..) (announce_queueCapacity ..) _).trans blocked⟩
    case withdraw =>
      exact ⟨tracks.of_buffer (withdraw_buffer ..) (withdraw_queueCapacity ..) (withdraw_elemSize ..), trivial⟩
    case transfer => exact ⟨tracks.perform small fits _ ready _, trivial⟩
    case abortSet => exact ⟨tracks.of_buffer rfl rfl rfl, trivial⟩
  outside outside command := by
    cases statement_of_next command <;> try simp only [List.map_nil, List.append_nil]
    case null => exact ⟨id, fun _ => id⟩
    -- Storing the error is the one write outside the mutex.
    case fail =>
      refine ⟨fun tracks => tracks.of_buffer rfl rfl rfl, fun other held => ?_⟩
      refine ⟨held.1.of_buffer rfl rfl rfl, ?_⟩
      cases other with
      | sleep job => exact (blocked_congr rfl rfl job).trans held.2
      | transfer job => exact (blocked_congr rfl rfl job).trans held.2
      | _ => trivial
    all_goals exact absurd trivial outside
  finish command := by
    cases statement_of_next command with
    | leave =>
      have kept : ∀ {notes : List (Tid × Note)} {queue : Queue Tid} {self : Tid} {code : ErrorCode},
          Tracks capacity size notes queue → Tracks capacity size (notes ++ [(self, .returned code)]) queue := by
        intro notes queue self code tracks
        refine ⟨tracks.queueCapacity, tracks.elemSize, ?_⟩
        rw [pushes_append, pops_append, List.length_append]
        simpa [pushes, pops] using tracks.represents
      exact ⟨kept, fun _ held => ⟨kept held.1, held.2⟩⟩

end Outline

section Waiting

variable {Tid : Type} {size : Nat}

def Queue.waiting (queue : Queue Tid) : Cond → Nat
  | .condPush => queue.sync.waitingForPush
  | .condPop => queue.sync.waitingForPop

def counts (cond : Cond) : Point size → Nat
  | .sleep job => if job.waitsOn = cond then 1 else 0
  | .resume job => if job.waitsOn = cond then 1 else 0
  | _ => 0

/-- The operation a thread is blocked in: it has called `pthread_cond_wait` and
that call has not returned. -/
def blockedIn : Thread Cond (Point size) → Option (Job size)
  | .asleep _ (.resume job) => some job
  | .woken _ (.resume job) => some job
  | _ => none

theorem waiting_announce (queue : Queue Tid) (job : Job size) (cond : Cond) :
    (job.announce queue).waiting cond =
      if job.waitsOn = cond then SizeT.add (queue.waiting cond) 1 else queue.waiting cond := by
  rcases queue with ⟨_, _, _, _, ⟨_, _, _⟩⟩
  cases job <;> cases cond <;> simp [Job.announce, Job.waitsOn, Queue.waiting]

theorem waiting_withdraw (queue : Queue Tid) (job : Job size) (cond : Cond) :
    (job.withdraw queue).waiting cond =
      if job.waitsOn = cond then SizeT.sub (queue.waiting cond) 1 else queue.waiting cond := by
  rcases queue with ⟨_, _, _, _, ⟨_, _, _⟩⟩
  cases job <;> cases cond <;> simp [Job.withdraw, Job.waitsOn, Queue.waiting]

theorem waiting_perform (queue : Queue Tid) (job : Job size) (cond : Cond) :
    (job.perform queue).waiting cond = queue.waiting cond := by
  cases job <;> cases cond <;> simp only [Job.perform, Queue.waiting, store_sync, remove_sync]

variable [DecidableEq Tid] [Fintype Tid]

theorem queue_tallied (capacity : Nat) (cond : Cond) (threads : Fintype.card Tid < 2 ^ 64) :
    Tallied (queueProgram Tid size) Holds Parks (Held capacity) cond (Queue.waiting · cond) (counts cond) where
  assign := by
    intro notes queue self point after next written inside held command counted room
    cases statement_of_next command with
    | null | fail => exact absurd inside id
    | giveUp | proceed | refuse | tryProceed => simp only [counts]
    | @announce job _ _ =>
      simp only [counts] at room ⊢
      rw [waiting_announce]
      split
      · rw [SizeT.add_exact (by omega)]
      · rfl
    | @withdraw job =>
      simp only [counts] at room counted ⊢
      rw [waiting_withdraw]
      split
      · next same =>
        rw [if_pos same] at room counted
        rw [SizeT.sub_exact (by omega)]
        omega
      · rfl
    | transfer => simp only [counts, waiting_perform]
    | abortSet => cases cond <;> rfl
  outside := by
    intro queue self point after next written outside command
    cases statement_of_next command with
    | null => rfl
    | fail => cases cond <;> rfl
    | _ => exact absurd trivial outside
  lock command := by cases statement_of_next command <;> rfl
  tryLock command := by cases statement_of_next command; rfl
  unlock command := by cases statement_of_next command; rfl
  signal command := by cases statement_of_next command; rfl
  broadcast command := by cases statement_of_next command <;> rfl
  wait command := by cases statement_of_next command; rfl
  resume := by
    rintro _ _ ⟨job, rfl, rfl⟩
    rfl

end Waiting

section Reachable

variable {Tid : Type}

theorem queueCreate_success {attempts : Attempts} {elemSize queueCapacity : UInt64} {queue : Queue Tid}
    {log : List ResourceEvent}
    (created : queueCreate attempts elemSize queueCapacity = (.queueSuccess, some queue, log)) :
    queueCapacity.toNat * elemSize.toNat < 2 ^ 64 ∧
      queue = freshQueue Tid elemSize queueCapacity (List.replicate (queueCapacity.toNat * elemSize.toNat) 0) := by
  unfold queueCreate at created
  split at created
  · cases created
  split at created
  · cases created
  split at created
  · cases created
  next memory allocated =>
    have fits : queueCapacity.toNat * elemSize.toNat < 2 ^ 64 ∧
        memory = List.replicate (queueCapacity.toNat * elemSize.toNat) 0 := by
      simp only [calloc, Option.ite_none_right_eq_some, Option.some.injEq] at allocated
      exact ⟨allocated.1.2, allocated.2.symm⟩
    -- Of the remaining exits only the last one reports success.
    iterate 5
      split at created
      · cases created
    simp only [Prod.mk.injEq, Option.some.injEq, true_and] at created
    exact ⟨fits.1, fits.2 ▸ created.1.symm⟩

theorem created_tracks {attempts : Attempts} {elemSize queueCapacity : UInt64} {queue : Queue Tid}
    {log : List ResourceEvent}
    (created : queueCreate attempts elemSize queueCapacity = (.queueSuccess, some queue, log)) :
    Tracks queueCapacity.toNat elemSize.toNat [] queue := by
  obtain ⟨_, rfl⟩ := queueCreate_success created
  refine ⟨rfl, rfl, ?_⟩
  constructor
  · exact List.length_replicate
  · rfl
  · exact Nat.zero_le _
  · exact (Nat.zero_mod _).symm
  · exact (Nat.zero_mod _).symm
  · exact Ring.history_nil _ fun j bound => Ring.slotAt_replicate _ _ _ _ bound

structure RingInvariant (capacity size : Nat) (notes : List (Tid × Note)) (queue : Queue Tid) : Prop where
  removed : (pops notes).length ≤ (pushes notes).length
  count : queue.buffer.queueSize = (pushes notes).length - (pops notes).length
  bounded : queue.buffer.queueSize ≤ capacity
  read : 0 < capacity → queue.buffer.readPointer < capacity
  write : 0 < capacity → queue.buffer.writePointer < capacity ∧
    queue.buffer.writePointer = (queue.buffer.readPointer + queue.buffer.queueSize) % capacity
  slots : (List.range queue.buffer.queueSize).map (fun i =>
      Ring.slotAt size queue.buffer.memory ((queue.buffer.readPointer + i) % capacity)) =
    (pushes notes).drop ((pushes notes).length - queue.buffer.queueSize)

theorem Tracks.ringInvariant {capacity size : Nat} {notes : List (Tid × Note)} {queue : Queue Tid}
    (tracks : Tracks capacity size notes queue) : RingInvariant capacity size notes queue := by
  have represents := tracks.represents
  have balance := represents.balance
  have bounded := represents.bounded
  refine ⟨by omega, by omega, bounded, fun positive => ?_, fun positive => ⟨?_, ?_⟩, ?_⟩
  · exact represents.read ▸ Nat.mod_lt _ positive
  · exact represents.write ▸ Nat.mod_lt _ positive
  · rw [represents.write, represents.read, balance, Nat.mod_add_mod]
  -- The stored element number `i` is number `pops + i` of all that were pushed.
  · apply List.ext_getElem (by simp; omega)
    intro i left right
    have inside : i < queue.buffer.queueSize := by simpa using left
    have start : (pushes notes).length - queue.buffer.queueSize = (pops notes).length := by omega
    simp only [List.getElem_map, List.getElem_range, List.getElem_drop, represents.read, Nat.mod_add_mod, start]
    exact represents.history.written _ (by omega) (by omega)

/-- The computations of the statement at a point are exact, its copy stays
inside the buffer and its divisor is not zero. -/
def InRange {size : Nat} (queue : Queue Tid) : Point size → Prop
  | .transfer job =>
      queue.queueCapacity ≠ 0 ∧
      queue.buffer.writePointer * queue.elemSize + queue.elemSize ≤ queue.buffer.memory.length ∧
      queue.buffer.memory.length = queue.queueCapacity * queue.elemSize ∧
      queue.queueCapacity * queue.elemSize < 2 ^ 64 ∧
      queue.buffer.writePointer + 1 < 2 ^ 64 ∧ queue.buffer.readPointer + 1 < 2 ^ 64 ∧
      match job with
      | .push _ => queue.buffer.queueSize + 1 < 2 ^ 64
      | .pop _ => 1 ≤ queue.buffer.queueSize
  | _ => True

def CountersInRange {size : Nat} (queue : Queue Tid) : Point size → Prop
  | .test job => job.blocked queue = true → queue.sync.aborted = false → queue.waiting job.waitsOn + 1 < 2 ^ 64
  | .resume job => 1 ≤ queue.waiting job.waitsOn
  | _ => True

theorem Held.inRange {capacity size : Nat} {notes : List (Tid × Note)} {queue : Queue Tid} {point : Point size}
    (held : Held capacity point notes queue) (small : capacity < 2 ^ 64) (fits : capacity * size < 2 ^ 64) :
    InRange queue point := by
  cases point with
  | transfer job =>
    obtain ⟨tracks, ready⟩ := held
    obtain ⟨rfl, rfl, represents⟩ := tracks
    have bounded := represents.bounded
    have notFull : ∀ elem, job = .push elem → queue.buffer.queueSize < queue.queueCapacity := by
      rintro elem rfl
      have : queue.buffer.queueSize ≠ queue.queueCapacity := by
        simpa [Ready, Job.blocked, queueIsFull] using ready
      omega
    have notEmpty : ∀ wanted, job = .pop wanted → 0 < queue.buffer.queueSize := by
      rintro wanted rfl
      have : queue.buffer.queueSize ≠ 0 := by
        simpa [Ready, Job.blocked, queueIsEmpty] using ready
      omega
    have positive : 0 < queue.queueCapacity := by
      cases job with
      | push elem => exact Nat.zero_lt_of_lt (notFull elem rfl)
      | pop wanted => exact Nat.lt_of_lt_of_le (notEmpty wanted rfl) bounded
    have write : queue.buffer.writePointer < queue.queueCapacity := represents.write ▸ Nat.mod_lt _ positive
    have read : queue.buffer.readPointer < queue.queueCapacity := represents.read ▸ Nat.mod_lt _ positive
    refine ⟨by omega, represents.memory ▸ slot_room write, represents.memory, fits, by omega, by omega, ?_⟩
    cases job with
    | push elem =>
      have := notFull elem rfl
      show queue.buffer.queueSize + 1 < 2 ^ 64
      omega
    | pop wanted => exact notEmpty wanted rfl
  | _ => trivial

variable [DecidableEq Tid] [Fintype Tid]

theorem created_sound {attempts : Attempts} {elemSize queueCapacity : UInt64} {queue : Queue Tid}
    {log : List ResourceEvent}
    (created : queueCreate attempts elemSize queueCapacity = (.queueSuccess, some queue, log))
    {actions : List (Action Tid (Call elemSize.toNat))} {notes : List (Tid × Note)}
    {state : State Tid Cond (Queue Tid) (Point elemSize.toNat)}
    (run : (queueMachine Tid elemSize.toNat).Run (initial queue) actions notes state) :
    Sound Holds Parks (Tracks queueCapacity.toNat elemSize.toNat) (Held queueCapacity.toNat) notes state :=
  run_sound (queue_disciplined Tid) (queue_outline queueCapacity.toNat_lt (queueCreate_success created).1)
    (created_tracks created) run

theorem created_counted {attempts : Attempts} {elemSize queueCapacity : UInt64} {queue : Queue Tid}
    {log : List ResourceEvent}
    (created : queueCreate attempts elemSize queueCapacity = (.queueSuccess, some queue, log))
    (threads : Fintype.card Tid < 2 ^ 64) (cond : Cond)
    {actions : List (Action Tid (Call elemSize.toNat))} {notes : List (Tid × Note)}
    {state : State Tid Cond (Queue Tid) (Point elemSize.toNat)}
    (run : (queueMachine Tid elemSize.toNat).Run (initial queue) actions notes state) :
    state.Counted cond (Queue.waiting · cond) (counts cond) := by
  refine run_counted (queue_disciplined Tid) (queue_outline queueCapacity.toNat_lt (queueCreate_success created).1)
    (queue_tallied queueCapacity.toNat cond threads) (created_tracks created) ?_ run
  obtain ⟨_, rfl⟩ := queueCreate_success created
  cases cond <;> rfl

/-- The representation invariant, in every state any threads can bring the queue
into, and what it implies for the statement a thread is about to execute. The
last part counts threads, so it needs a counter wide enough for them. -/
theorem ring_invariant_reachable {attempts : Attempts} {elemSize queueCapacity : UInt64} {queue : Queue Tid}
    {log : List ResourceEvent}
    (created : queueCreate attempts elemSize queueCapacity = (.queueSuccess, some queue, log))
    {actions : List (Action Tid (Call elemSize.toNat))} {notes : List (Tid × Note)}
    {state : State Tid Cond (Queue Tid) (Point elemSize.toNat)}
    (run : (queueMachine Tid elemSize.toNat).Run (initial queue) actions notes state) :
    (state.owner = none → RingInvariant queueCapacity.toNat elemSize.toNat notes state.shared) ∧
    (∀ self point, state.threads self = .running point → InRange state.shared point) ∧
    (Fintype.card Tid < 2 ^ 64 →
      ∀ self point, state.threads self = .running point → CountersInRange state.shared point) := by
  have sound := created_sound created run
  have fits := (queueCreate_success created).1
  refine ⟨fun free => (sound.free free).ringInvariant, fun self point running => ?_, fun threads self point running => ?_⟩
  -- Outside the mutex no statement computes with the buffer.
  · by_cases inside : Holds point
    · exact (sound.held ((sound.exclusive.own running).mpr inside) running).inRange queueCapacity.toNat_lt fits
    · cases point <;> first | trivial | exact absurd trivial inside
  · cases point with
    | test job =>
      intro _ _
      have own : state.owner = some self := (sound.exclusive.own running).mpr trivial
      have counted := created_counted created threads job.waitsOn run
      have room := card_waiters_lt state job.waitsOn (running_not_waiting state job.waitsOn running)
      rw [State.Counted, credited_owner state _ own running] at counted
      simp only [counts] at counted
      omega
    | resume job =>
      have own : state.owner = some self := (sound.exclusive.own running).mpr trivial
      have counted := created_counted created threads job.waitsOn run
      rw [State.Counted, credited_owner state _ own running] at counted
      simp only [counts, if_true] at counted
      show 1 ≤ state.shared.waiting job.waitsOn
      omega
    | _ => trivial

end Reachable

section Schedules

def allSucceed : Attempts := ⟨true, true, true, true, true, true, true, true⟩

def alone {size : Nat} (call : Call size) (count : Nat) : List (Action (Fin 1) (Call size)) :=
  .call 0 call :: List.replicate count (.step 0 ∅)

theorem ring_invariant_after_push :
    ∃ state notes, (queueMachine (Fin 1) (1 : UInt64).toNat).Run (initial (freshQueue (Fin 1) 1 2 [0, 0]))
        (alone (.queuePush (some #v[7])) 6) notes state ∧
      pushes notes = [[7]] ∧ RingInvariant 2 1 notes state.shared := by
  have executes : ((queueMachine (Fin 1) (1 : UInt64).toNat).exec (initial (freshQueue (Fin 1) 1 2 [0, 0]))
      (alone (.queuePush (some #v[7])) 6)).isSome = true := by decide
  have created : queueCreate allSucceed 1 2 = (.queueSuccess, some (freshQueue (Fin 1) 1 2 [0, 0]),
      [.acquire .queueBlock, .acquire .bufferBlock, .acquire .key, .acquire .mutex, .acquire .condPop,
        .acquire .condPush]) := rfl
  have run := Machine.run_of_isSome executes
  exact ⟨_, _, run, rfl, (ring_invariant_reachable created run).1 rfl⟩

end Schedules
end PosixC.Queue
