import Mathlib.Data.Finset.Basic
import PosixC.Foundation.Transition

/-! Threads that share reader-writer locks.

A write lock excludes every other holder and a read lock excludes writers. Each
field access is a step of its own, so a thread may be interrupted between two
reads, or between two writes.
-/

set_option autoImplicit false

namespace PosixC.Foundation.RwLock

inductive Mode where
  | none | read | write
  deriving DecidableEq, Repr

inductive Command (Lock Shared Local Note : Type) where
  | rdlock (lock : Lock) (next : Local)
  | wrlock (lock : Lock) (next : Local)
  | unlock (lock : Lock) (next : Local)
  | assign (shared : Shared) (next : Local) (notes : List Note)

def Command.next {Lock Shared Local Note : Type} : Command Lock Shared Local Note → Local
  | .rdlock _ next | .wrlock _ next | .unlock _ next | .assign _ next _ => next

def Command.result {Lock Shared Local Note : Type} (shared : Shared) : Command Lock Shared Local Note → Shared
  | .rdlock _ _ | .wrlock _ _ | .unlock _ _ => shared
  | .assign result _ _ => result

structure Holders (Tid : Type) where
  writer : Option Tid
  readers : Finset Tid

structure State (Tid Lock Shared Local : Type) where
  shared : Shared
  holders : Lock → Holders Tid
  threads : Tid → Local

section Machine

variable {Tid Lock Shared Local Note : Type}

def initial (shared : Shared) (start : Tid → Local) : State Tid Lock Shared Local :=
  ⟨shared, fun _ => ⟨none, ∅⟩, start⟩

def State.move [DecidableEq Tid] (state : State Tid Lock Shared Local) (thread : Tid) (next : Local) :
    State Tid Lock Shared Local :=
  { state with threads := Function.update state.threads thread next }

def State.hold [DecidableEq Lock] (state : State Tid Lock Shared Local) (lock : Lock) (holders : Holders Tid) :
    State Tid Lock Shared Local :=
  { state with holders := Function.update state.holders lock holders }

@[simp] theorem move_shared [DecidableEq Tid] (state : State Tid Lock Shared Local) (thread : Tid) (next : Local) :
    (state.move thread next).shared = state.shared := rfl

@[simp] theorem move_self [DecidableEq Tid] (state : State Tid Lock Shared Local) (thread : Tid) (next : Local) :
    (state.move thread next).threads thread = next :=
  Function.update_self ..

@[simp] theorem move_of_ne [DecidableEq Tid] (state : State Tid Lock Shared Local) {thread other : Tid} (next : Local)
    (different : other ≠ thread) : (state.move thread next).threads other = state.threads other :=
  Function.update_of_ne different ..

@[simp] theorem hold_shared [DecidableEq Lock] (state : State Tid Lock Shared Local) (lock : Lock)
    (holders : Holders Tid) :
    (state.hold lock holders).shared = state.shared := rfl

@[simp] theorem hold_threads [DecidableEq Lock] (state : State Tid Lock Shared Local) (lock : Lock)
    (holders : Holders Tid) :
    (state.hold lock holders).threads = state.threads := rfl

@[simp] theorem hold_self [DecidableEq Lock] (state : State Tid Lock Shared Local) (lock : Lock)
    (holders : Holders Tid) :
    (state.hold lock holders).holders lock = holders :=
  Function.update_self ..

@[simp] theorem hold_of_ne [DecidableEq Lock] (state : State Tid Lock Shared Local) {lock other : Lock}
    (holders : Holders Tid) (different : other ≠ lock) : (state.hold lock holders).holders other = state.holders other :=
  Function.update_of_ne different ..

variable [DecidableEq Tid] [DecidableEq Lock]

/-- A lock that cannot be granted, or is not held, has no successor. -/
def perform (thread : Tid) (state : State Tid Lock Shared Local) :
    Command Lock Shared Local Note → Option (State Tid Lock Shared Local × List (Tid × Note))
  | .rdlock lock next =>
      if (state.holders lock).writer = none then
        some ((state.move thread next).hold lock ⟨none, insert thread (state.holders lock).readers⟩, [])
      else none
  | .wrlock lock next =>
      if (state.holders lock).writer = none ∧ (state.holders lock).readers = ∅ then
        some ((state.move thread next).hold lock ⟨some thread, ∅⟩, [])
      else none
  | .unlock lock next =>
      if (state.holders lock).writer = some thread then
        some ((state.move thread next).hold lock ⟨none, (state.holders lock).readers⟩, [])
      else if thread ∈ (state.holders lock).readers then
        some ((state.move thread next).hold lock
          ⟨(state.holders lock).writer, (state.holders lock).readers.erase thread⟩, [])
      else none
  | .assign shared next notes =>
      some ({ state.move thread next with shared := shared }, notes.map fun note => (thread, note))

def machine (program : Tid → Local → Shared → Command Lock Shared Local Note) :
    Machine (State Tid Lock Shared Local) Tid (Tid × Note) where
  step state thread := perform thread state (program thread (state.threads thread) state.shared)

end Machine

section Discipline

variable {Tid Lock Shared Local Note : Type}

def Respects (mode : Local → Lock → Mode) (point : Local) : Command Lock Shared Local Note → Prop
  | .rdlock lock next => mode point lock = .none ∧ mode next lock = .read ∧
      ∀ other, other ≠ lock → mode next other = mode point other
  | .wrlock lock next => mode point lock = .none ∧ mode next lock = .write ∧
      ∀ other, other ≠ lock → mode next other = mode point other
  | .unlock lock next => mode next lock = .none ∧ ∀ other, other ≠ lock → mode next other = mode point other
  | .assign _ next _ => ∀ lock, mode next lock = mode point lock

structure Exclusive (mode : Local → Lock → Mode) (state : State Tid Lock Shared Local) : Prop where
  writer : ∀ lock thread, (state.holders lock).writer = some thread ↔ mode (state.threads thread) lock = .write
  readers : ∀ lock thread, thread ∈ (state.holders lock).readers ↔ mode (state.threads thread) lock = .read
  alone : ∀ lock thread, (state.holders lock).writer = some thread → (state.holders lock).readers = ∅

variable {mode : Local → Lock → Mode} {state after : State Tid Lock Shared Local} {thread : Tid}

theorem Exclusive.start {shared : Shared} {start : Tid → Local}
    (free : ∀ thread lock, mode (start thread) lock = .none) :
    Exclusive mode (initial shared start : State Tid Lock Shared Local) := by
  constructor
  · intro lock thread
    simp [initial, free]
  · intro lock thread
    simp [initial, free]
  · intro lock thread owned
    cases owned

theorem Exclusive.not_write (exclusive : Exclusive mode state) {lock : Lock}
    (free : (state.holders lock).writer = none) (other : Tid) : mode (state.threads other) lock ≠ .write := by
  intro writes
  cases free.symm.trans ((exclusive.writer lock other).mpr writes)

theorem Exclusive.none_of_write (exclusive : Exclusive mode state) {lock : Lock}
    (writes : mode (state.threads thread) lock = .write) {other : Tid} (different : other ≠ thread) :
    mode (state.threads other) lock = .none := by
  have owner := (exclusive.writer lock thread).mpr writes
  cases place : mode (state.threads other) lock with
  | none => rfl
  | read =>
    have reads := (exclusive.readers lock other).mpr place
    rw [exclusive.alone lock thread owner] at reads
    exact absurd reads (Finset.notMem_empty other)
  | write =>
    have same := (exclusive.writer lock other).mpr place
    rw [owner] at same
    cases same
    exact absurd rfl different

variable [DecidableEq Tid] [DecidableEq Lock]

inductive Move (program : Tid → Local → Shared → Command Lock Shared Local Note)
    (state : State Tid Lock Shared Local) (thread : Tid) :
    State Tid Lock Shared Local → List (Tid × Note) → Prop where
  | rdlock {lock : Lock} {next : Local} :
      program thread (state.threads thread) state.shared = .rdlock lock next → (state.holders lock).writer = none →
      Move program state thread
        ((state.move thread next).hold lock ⟨none, insert thread (state.holders lock).readers⟩) []
  | wrlock {lock : Lock} {next : Local} :
      program thread (state.threads thread) state.shared = .wrlock lock next → (state.holders lock).writer = none →
      (state.holders lock).readers = ∅ →
      Move program state thread ((state.move thread next).hold lock ⟨some thread, ∅⟩) []
  | unlockWrite {lock : Lock} {next : Local} :
      program thread (state.threads thread) state.shared = .unlock lock next →
      (state.holders lock).writer = some thread →
      Move program state thread ((state.move thread next).hold lock ⟨none, (state.holders lock).readers⟩) []
  | unlockRead {lock : Lock} {next : Local} :
      program thread (state.threads thread) state.shared = .unlock lock next → thread ∈ (state.holders lock).readers →
      Move program state thread ((state.move thread next).hold lock
        ⟨(state.holders lock).writer, (state.holders lock).readers.erase thread⟩) []
  | assign {shared : Shared} {next : Local} {notes : List Note} :
      program thread (state.threads thread) state.shared = .assign shared next notes →
      Move program state thread { state.move thread next with shared := shared } (notes.map fun note => (thread, note))

variable {program : Tid → Local → Shared → Command Lock Shared Local Note} {written : List (Tid × Note)}

theorem move_of_step (step : (machine program).step state thread = some (after, written)) :
    Move program state thread after written := by
  simp only [machine] at step
  cases command : program thread (state.threads thread) state.shared with
  | rdlock lock next =>
    simp only [command, perform, Option.ite_none_right_eq_some, Option.some.injEq, Prod.mk.injEq] at step
    obtain ⟨free, rfl, rfl⟩ := step
    exact .rdlock command free
  | wrlock lock next =>
    simp only [command, perform, Option.ite_none_right_eq_some, Option.some.injEq, Prod.mk.injEq] at step
    obtain ⟨⟨free, deserted⟩, rfl, rfl⟩ := step
    exact .wrlock command free deserted
  | unlock lock next =>
    simp only [command, perform] at step
    split at step
    · next own =>
      cases step
      exact .unlockWrite command own
    · split at step
      · next reads =>
        cases step
        exact .unlockRead command reads
      · cases step
  | assign shared next notes =>
    rw [command] at step
    cases step
    exact .assign command

theorem threads_of_move (move : Move program state thread after written) :
    after.threads = Function.update state.threads thread (program thread (state.threads thread) state.shared).next := by
  cases move with
  | rdlock command | wrlock command | unlockWrite command | unlockRead command | assign command =>
    rw [command]
    rfl

theorem shared_of_move (move : Move program state thread after written) :
    after.shared = (program thread (state.threads thread) state.shared).result state.shared := by
  cases move with
  | rdlock command | wrlock command | unlockWrite command | unlockRead command | assign command =>
    rw [command]
    rfl

theorem Exclusive.hold (exclusive : Exclusive mode state) {lock : Lock} {next : Local} {holders : Holders Tid}
    (others : ∀ other, other ≠ lock → mode next other = mode (state.threads thread) other)
    (writer : ∀ other, holders.writer = some other ↔ mode ((state.move thread next).threads other) lock = .write)
    (readers : ∀ other, other ∈ holders.readers ↔ mode ((state.move thread next).threads other) lock = .read)
    (alone : ∀ other, holders.writer = some other → holders.readers = ∅) :
    Exclusive mode ((state.move thread next).hold lock holders) := by
  have kept : ∀ other, other ≠ lock → ∀ anyone,
      mode ((state.move thread next).threads anyone) other = mode (state.threads anyone) other := by
    intro other different anyone
    by_cases same : anyone = thread
    · rw [same, move_self, others other different]
    · rw [move_of_ne state next same]
  have untouched : ∀ other, other ≠ lock →
      ((state.move thread next).hold lock holders).holders other = state.holders other :=
    fun other different => hold_of_ne (state.move thread next) holders different
  constructor
  · intro other anyone
    by_cases same : other = lock
    · rw [same, hold_self, hold_threads]
      exact writer anyone
    · rw [untouched other same, hold_threads, kept other same]
      exact exclusive.writer other anyone
  · intro other anyone
    by_cases same : other = lock
    · rw [same, hold_self, hold_threads]
      exact readers anyone
    · rw [untouched other same, hold_threads, kept other same]
      exact exclusive.readers other anyone
  · intro other anyone
    by_cases same : other = lock
    · rw [same, hold_self]
      exact alone anyone
    · rw [untouched other same]
      exact exclusive.alone other anyone

theorem exclusive_step
    (respects : ∀ thread point shared, Respects mode point (program thread point shared))
    (exclusive : Exclusive mode state) (move : Move program state thread after written) : Exclusive mode after := by
  have disciplined := respects thread (state.threads thread) state.shared
  cases move with
  | @rdlock lock next command free =>
    rw [command] at disciplined
    obtain ⟨_, reads, others⟩ := disciplined
    have nobody := exclusive.not_write free
    refine exclusive.hold others (fun other => ?_) (fun other => ?_) (fun other owned => ?_)
    · by_cases same : other = thread
      · simp [same, reads]
      · simp [same, nobody]
    · by_cases same : other = thread
      · simp [same, reads]
      · simp [same, exclusive.readers]
    · cases owned
  | @wrlock lock next command free deserted =>
    rw [command] at disciplined
    obtain ⟨_, writes, others⟩ := disciplined
    have noWriter := exclusive.not_write free
    have noReader : ∀ other, mode (state.threads other) lock ≠ .read := by
      intro other reads
      have member := (exclusive.readers lock other).mpr reads
      rw [deserted] at member
      exact Finset.notMem_empty other member
    refine exclusive.hold others (fun other => ?_) (fun other => ?_) (fun other _ => rfl)
    · by_cases same : other = thread
      · simp [same, writes]
      · simp [same, noWriter, Ne.symm same]
    · by_cases same : other = thread
      · simp [same, writes]
      · simp [same, noReader]
  | @unlockWrite lock next command own =>
    rw [command] at disciplined
    obtain ⟨gives, others⟩ := disciplined
    have nobody : ∀ other, other ≠ thread → mode (state.threads other) lock = .none :=
      fun other different => exclusive.none_of_write ((exclusive.writer lock thread).mp own) different
    refine exclusive.hold others (fun other => ?_) (fun other => ?_) (fun other owned => ?_)
    · by_cases same : other = thread
      · simp [same, gives]
      · simp [same, nobody]
    · rw [exclusive.alone lock thread own]
      by_cases same : other = thread
      · simp [same, gives]
      · simp [same, nobody]
    · cases owned
  | @unlockRead lock next command reads =>
    rw [command] at disciplined
    obtain ⟨gives, others⟩ := disciplined
    have noWriter : (state.holders lock).writer = none := by
      cases owner : (state.holders lock).writer with
      | none => rfl
      | some writer =>
        rw [exclusive.alone lock writer owner] at reads
        exact absurd reads (Finset.notMem_empty thread)
    refine exclusive.hold others (fun other => ?_) (fun other => ?_) (fun other owned => ?_)
    · by_cases same : other = thread
      · simp [same, gives, noWriter]
      · simpa [same] using exclusive.writer lock other
    · by_cases same : other = thread
      · simp [same, gives]
      · simpa [same] using exclusive.readers lock other
    · cases noWriter.symm.trans owned
  | @assign shared next notes command =>
    rw [command] at disciplined
    have kept : ∀ lock anyone,
        mode ((state.move thread next).threads anyone) lock = mode (state.threads anyone) lock := by
      intro lock anyone
      by_cases same : anyone = thread
      · rw [same, move_self, disciplined lock]
      · rw [move_of_ne state next same]
    constructor
    · intro lock anyone
      exact (exclusive.writer lock anyone).trans (by rw [← kept lock anyone])
    · intro lock anyone
      exact (exclusive.readers lock anyone).trans (by rw [← kept lock anyone])
    · exact exclusive.alone

end Discipline

section Rules

variable {Tid Lock Shared Local Note Data : Type}

/-- Proof rules for the data that one lock guards. `invariant` is true while
nobody writes, `knows` is what a thread knows at each point, and a thread
without the lock knows nothing of the data. -/
structure Outline (program : Tid → Local → Shared → Command Lock Shared Local Note) (mode : Local → Lock → Mode)
    (guard : Lock) (data : Shared → Data) (invariant : Data → Prop) (knows : Local → Data → Prop)
    (good : Tid → Note → Prop) : Prop where
  respects : ∀ thread point shared, Respects mode point (program thread point shared)
  stable : ∀ {point before now}, mode point guard = .none → knows point before → knows point now
  rdlock : ∀ {thread point shared next}, program thread point shared = .rdlock guard next →
    knows point (data shared) → invariant (data shared) → knows next (data shared)
  wrlock : ∀ {thread point shared next}, program thread point shared = .wrlock guard next →
    knows point (data shared) → invariant (data shared) → knows next (data shared)
  unlock : ∀ {thread point shared next}, program thread point shared = .unlock guard next →
    knows point (data shared) → knows next (data shared) ∧ (mode point guard = .write → invariant (data shared))
  elsewhere : ∀ {thread point shared lock next}, lock ≠ guard →
    program thread point shared = .rdlock lock next ∨ program thread point shared = .wrlock lock next ∨
      program thread point shared = .unlock lock next →
    knows point (data shared) → knows next (data shared)
  assign : ∀ {thread point shared result next notes}, program thread point shared = .assign result next notes →
    knows point (data shared) → knows next (data result) ∧
      (mode point guard ≠ .write → data result = data shared) ∧ ∀ note ∈ notes, good thread note

structure Sound (mode : Local → Lock → Mode) (guard : Lock) (data : Shared → Data) (invariant : Data → Prop)
    (knows : Local → Data → Prop) (good : Tid → Note → Prop) (notes : List (Tid × Note))
    (state : State Tid Lock Shared Local) : Prop where
  exclusive : Exclusive mode state
  free : (state.holders guard).writer = none → invariant (data state.shared)
  knows : ∀ thread, knows (state.threads thread) (data state.shared)
  good : ∀ entry ∈ notes, good entry.1 entry.2

variable {program : Tid → Local → Shared → Command Lock Shared Local Note} {mode : Local → Lock → Mode}
  {guard : Lock} {data : Shared → Data} {invariant : Data → Prop} {knows : Local → Data → Prop}
  {good : Tid → Note → Prop} {state after : State Tid Lock Shared Local} {thread : Tid}
  {notes written : List (Tid × Note)} [DecidableEq Tid]

theorem Sound.knows_move (sound : Sound mode guard data invariant knows good notes state) {next : Local}
    (own : knows next (data state.shared)) (other : Tid) :
    knows ((state.move thread next).threads other) (data state.shared) := by
  by_cases same : other = thread
  · rwa [same, move_self]
  · rw [move_of_ne state next same]
    exact sound.knows other

/-- What the other threads know is not disturbed by an assignment. -/
theorem Sound.knows_assign (outline : Outline program mode guard data invariant knows good)
    (sound : Sound mode guard data invariant knows good notes state) {shared : Shared} {next : Local}
    (own : knows next (data shared))
    (kept : mode (state.threads thread) guard ≠ .write → data shared = data state.shared)
    (other : Tid) : knows ((state.move thread next).threads other) (data shared) := by
  by_cases same : other = thread
  · rwa [same, move_self]
  · rw [move_of_ne state next same]
    by_cases writes : mode (state.threads thread) guard = .write
    · exact outline.stable (sound.exclusive.none_of_write writes same) (sound.knows other)
    · rw [kept writes]
      exact sound.knows other

variable [DecidableEq Lock]

theorem sound_step (outline : Outline program mode guard data invariant knows good)
    (sound : Sound mode guard data invariant knows good notes state) (move : Move program state thread after written) :
    Sound mode guard data invariant knows good (notes ++ written) after := by
  have exclusive := exclusive_step outline.respects sound.exclusive move
  have own := sound.knows thread
  -- A step on another lock than the guard changes nobody's knowledge of the data.
  cases move with
  | @rdlock lock next command free =>
    have arrives : knows next (data state.shared) := by
      by_cases same : lock = guard
      · subst same
        exact outline.rdlock command own (sound.free free)
      · exact outline.elsewhere same (Or.inl command) own
    refine ⟨exclusive, fun none => sound.free ?_, sound.knows_move arrives, by simpa using sound.good⟩
    by_cases same : guard = lock
    · rwa [same]
    · rwa [hold_of_ne _ _ same] at none
  | @wrlock lock next command free deserted =>
    have arrives : knows next (data state.shared) := by
      by_cases same : lock = guard
      · subst same
        exact outline.wrlock command own (sound.free free)
      · exact outline.elsewhere same (Or.inr (Or.inl command)) own
    refine ⟨exclusive, fun none => sound.free ?_, sound.knows_move arrives, by simpa using sound.good⟩
    by_cases same : guard = lock
    · rwa [same]
    · rwa [hold_of_ne _ _ same] at none
  | @unlockWrite lock next command writes =>
    by_cases same : lock = guard
    · subst same
      obtain ⟨arrives, restored⟩ := outline.unlock command own
      exact ⟨exclusive, fun _ => restored ((sound.exclusive.writer lock thread).mp writes), sound.knows_move arrives,
        by simpa using sound.good⟩
    · have arrives := outline.elsewhere same (Or.inr (Or.inr command)) own
      refine ⟨exclusive, fun none => sound.free ?_, sound.knows_move arrives, by simpa using sound.good⟩
      rwa [hold_of_ne _ _ (Ne.symm same)] at none
  | @unlockRead lock next command reads =>
    have arrives : knows next (data state.shared) := by
      by_cases same : lock = guard
      · subst same
        exact (outline.unlock command own).1
      · exact outline.elsewhere same (Or.inr (Or.inr command)) own
    refine ⟨exclusive, fun none => sound.free ?_, sound.knows_move arrives, by simpa using sound.good⟩
    by_cases same : guard = lock
    · subst same
      rwa [hold_self] at none
    · rwa [hold_of_ne _ _ same] at none
  | @assign shared next noted command =>
    obtain ⟨arrives, kept, fine⟩ := outline.assign command own
    refine ⟨exclusive, fun none => ?_, sound.knows_assign outline arrives kept, ?_⟩
    · -- Nobody writes, so the thread that moves does not.
      have reader : mode (state.threads thread) guard ≠ .write := by
        intro writes
        cases none.symm.trans ((sound.exclusive.writer guard thread).mpr writes)
      have same := kept reader
      exact same ▸ sound.free none
    · simp only [List.mem_append, List.mem_map]
      rintro entry (old | ⟨note, member, rfl⟩)
      · exact sound.good entry old
      · exact fine note member

/-- An outline that holds at the start is sound after every run. -/
theorem sound_run (outline : Outline program mode guard data invariant knows good) {shared : Shared}
    {start : Tid → Local} (free : ∀ thread lock, mode (start thread) lock = .none) (begins : invariant (data shared))
    (starts : ∀ thread, knows (start thread) (data shared)) {actions : List Tid}
    (run : (machine program).Run (initial shared start) actions notes state) :
    Sound mode guard data invariant knows good notes state := by
  apply run.invariant (Sound mode guard data invariant knows good)
  · exact ⟨Exclusive.start free, fun _ => begins, starts, by simp⟩
  · intro notes state thread after written sound step
    exact sound_step outline sound (move_of_step step)

end Rules
end PosixC.Foundation.RwLock
