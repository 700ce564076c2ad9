import PosixC.Foundation.MonitorProgress
import PosixC.Queue.Representation

/-! The thread-specific error codes of several queues.

Every queue owns a key, and the values of a key are kept apart by thread. An
error is stored outside the mutex, between the unlock and the return, so the
slot of a thread is ahead of its returns only while the thread is in a call.
-/

set_option autoImplicit false
set_option linter.dupNamespace false

namespace PosixC.Queue

open Foundation Foundation.Monitor

section Slots

variable {Tid : Type} {size : Nat}

def failure (last : Nat) : Note → Nat
  | .returned code => if code = .queueSuccess then last else code.value
  | _ => last

def recorded (last : Nat) : Thread Cond (Point size) → Nat
  | .running (.leave code) => failure last (.returned code)
  | _ => last

structure Recorded (thread : Tid) (last : Nat) (state : State Tid Cond (Queue Tid) (Point size)) : Prop where
  value : queueErrno state.shared thread = recorded last (state.threads thread)
  fails : ∀ code, state.threads thread = .running (.fail code) → code ≠ .queueSuccess

theorem recorded_wake (last : Nat) (thread : Thread Cond (Point size)) :
    recorded last thread.wake = recorded last thread := by
  cases thread <;> rfl

variable [DecidableEq Tid]

def lastReturned (self : Tid) (last : Nat) (notes : List (Tid × Note)) : Nat :=
  notes.foldl (fun last entry => if entry.1 = self then failure last entry.2 else last) last

theorem lastReturned_foreign {self : Tid} {last : Nat} {notes : List (Tid × Note)}
    (foreign : ∀ note, (self, note) ∉ notes) : lastReturned self last notes = last := by
  induction notes with
  | nil => rfl
  | cons entry rest ih =>
    obtain ⟨writer, note⟩ := entry
    have different : writer ≠ self := fun same => foreign note (same ▸ List.mem_cons_self ..)
    rw [lastReturned, List.foldl_cons, if_neg different]
    exact ih fun note member => foreign note (List.mem_cons_of_mem _ member)

theorem errno_assign_foreign {self other : Tid} (different : other ≠ self) {queue after : Queue Tid}
    {point next : Point size} {written : List Note}
    (command : (queueProgram Tid size).next other point queue = .assign after next written) :
    queueErrno after self = queueErrno queue self := by
  cases statement_of_next command with
  | null | giveUp | proceed | refuse | tryProceed | abortSet => rfl
  | @announce job | @withdraw job | @transfer job => cases job <;> rfl
  | fail => exact Function.update_of_ne different.symm ..

variable [Fintype Tid] {state after : State Tid Cond (Queue Tid) (Point size)} {action : Action Tid (Call size)}
  {notes : List (Tid × Note)} {self : Tid} {last : Nat}

theorem recorded_foreign (recorded : Recorded self last state)
    (move : Move (queueProgram Tid size) state action after notes) (different : self ≠ action.actor) :
    Recorded self (lastReturned self last notes) after := by
  have foreign : ∀ note, (self, note) ∉ notes := by
    intro note member
    obtain ⟨chosen, rfl⟩ := mover_of_note move member
    exact different rfl
  have kept : queueErrno after.shared self = queueErrno state.shared self := by
    cases move with
    | assign _ command => exact errno_assign_foreign (Ne.symm different) command
    | _ => rfl
  rw [lastReturned_foreign foreign]
  constructor
  · rw [kept, recorded.value]
    exact (read_of_foreign (recorded_wake last) move different).symm
  · intro code
    have waking (place : Thread Cond (Point size)) (fails : place = .running (.fail code) → code ≠ .queueSuccess)
        (failing : place.wake = .running (.fail code)) : code ≠ .queueSuccess := by
      cases place with
      | running => exact fails failing
      | idle | asleep | woken => cases failing
    exact kept_of_foreign waking move different (recorded.fails code)

omit [Fintype Tid] in
theorem recorded_setThread {value : Thread Cond (Point size)} {owner : Option Tid} {queue : Queue Tid}
    (same : queueErrno queue self = recorded last value)
    (fails : ∀ code, value = .running (.fail code) → code ≠ .queueSuccess) :
    Recorded self last ⟨queue, owner, (state.setThread self value).threads⟩ := by
  refine ⟨by rw [same, setThread_self], fun code failing => fails code ?_⟩
  rwa [setThread_self] at failing

/-- The next statement of the thread itself: an error is stored before it is
returned, and nothing else touches the slot. -/
theorem recorded_statement {chosen : Finset Tid} (slot : Recorded self last state)
    (move : Move (queueProgram Tid size) state (.step self chosen) after notes) :
    Recorded self (lastReturned self last notes) after := by
  have value := slot.value
  cases move with
  | lock running command _ =>
    rw [running] at value
    cases statement_of_next command <;> exact recorded_setThread value (by simp)
  | tryLock running command _ | busy running command _ =>
    rw [running] at value
    cases statement_of_next command
    exact recorded_setThread value (by simp)
  | @unlock _ _ point _ running command _ =>
    rw [running] at value
    cases point with
    | unlock code =>
      cases command
      by_cases success : code = .queueSuccess
      · rw [if_pos success]
        exact recorded_setThread (by simpa [recorded, failure, success, lastReturned] using value) (by simp)
      · rw [if_neg success]
        exact recorded_setThread value (by rintro _ ⟨rfl⟩; exact success)
    | _ => cases statement_of_next command
  | wait running command _ | signal running command _ =>
    rw [running] at value
    cases statement_of_next command
    exact recorded_setThread value (by simp)
  | broadcast running command =>
    rw [running] at value
    cases statement_of_next command <;> exact recorded_setThread value (by simp)
  | assign running command =>
    rw [running] at value
    cases statement_of_next command with
    | null => exact recorded_setThread value (by rintro _ ⟨rfl⟩; simp)
    | giveUp | proceed | refuse | tryProceed | abortSet => exact recorded_setThread value (by simp)
    | @announce job | @withdraw job => exact recorded_setThread (by cases job <;> exact value) (by simp)
    | @transfer job =>
      have silent : lastReturned self last [(self, job.note state.shared)] = last := by
        cases job <;> simp [lastReturned, Job.note, failure]
      rw [List.map_singleton, silent]
      exact recorded_setThread (by cases job <;> exact value) (by simp)
    | @fail code =>
      have failed := slot.fails code running
      refine recorded_setThread ?_ (by simp)
      simp [queueErrno, returnErrorState, recorded, failure, failed]
  | finish running command =>
    rw [running] at value
    cases statement_of_next command with
    | @leave code =>
      have returned : lastReturned self last [(self, .returned code)] = failure last (.returned code) := by
        simp [lastReturned]
      rw [List.map_singleton, returned]
      exact recorded_setThread value (by simp)

theorem recorded_step (slot : Recorded self last state) (exclusive : Exclusive Holds Parks state)
    (move : Move (queueProgram Tid size) state action after notes) :
    Recorded self (lastReturned self last notes) after := by
  by_cases mover : self = action.actor
  · have value := slot.value
    cases action with
    | step thread chosen =>
      obtain rfl : self = thread := mover
      exact recorded_statement slot move
    | call thread call =>
      obtain rfl : self = thread := mover
      cases move with
      | call idle entered =>
        cases entered
        rw [idle] at value
        exact recorded_setThread value (by simp)
    | spurious thread =>
      obtain rfl : self = thread := mover
      cases move with
      | spurious asleep =>
        rw [asleep] at value
        exact recorded_setThread value (by simp)
    -- A wait resumes at the point that lowers the counter.
    | reacquire thread =>
      obtain rfl : self = thread := mover
      cases move with
      | reacquire woken _ =>
        obtain ⟨_, job, _, rfl⟩ := woken ▸ exclusive self
        rw [woken] at value
        exact recorded_setThread value (by simp)
  · exact recorded_foreign slot move mover

end Slots

section System

/-- One queue as its users see it: the key that `queue_create` obtained for its
error codes, and the queue itself with the threads inside its operations. -/
structure Instance (Tid Key : Type) (size : Nat) where
  key : Key
  state : State Tid Cond (Queue Tid) (Point size)

/-- All queues of a process. `keys` holds the values of the thread-specific keys
in use, `calling` the queue a thread is in a call of. The element size is part
of a queue's identity. -/
structure System (Tid Handle Key : Type) (sizes : Handle → UInt64) where
  keys : Key → Option (Tid → Nat)
  queues : (handle : Handle) → Option (Instance Tid Key (sizes handle).toNat)
  calling : Tid → Option Handle

structure DestroyAttempts where
  mutexDestroy : Bool
  condPushDestroy : Bool
  condPopDestroy : Bool
  keyDelete : Bool

/-- The code of `queue_destroy` and the resources released on the way. Nobody
else is in a call, so the abort it begins with meets nobody. -/
def queueDestroy (attempts : DestroyAttempts) : ErrorCode × List ResourceEvent :=
  if attempts.mutexDestroy = false then (.mutexDestroyFail, [])
  else if attempts.condPushDestroy = false then (.condDestroyFail, [.release .mutex])
  else if attempts.condPopDestroy = false then (.condDestroyFail, [.release .mutex, .release .condPush])
  else if attempts.keyDelete = false then
    (.keyError, [.release .mutex, .release .condPush, .release .condPop])
  else
    (.queueSuccess, [.release .mutex, .release .condPush, .release .condPop, .release .key, .release .bufferBlock,
      .release .queueBlock])

inductive SystemAction (Tid Handle Key : Type) (sizes : Handle → UInt64) where
  | create (self : Tid) (handle : Handle) (key : Key) (attempts : Attempts) (queueCapacity : UInt64)
  | destroy (self : Tid) (handle : Handle) (attempts : DestroyAttempts)
  | operate (handle : Handle) (action : Action Tid (Call (sizes handle).toNat))
  | queueErrno (self : Tid) (handle : Handle)

inductive Event (Tid Handle : Type) where
  | created (handle : Handle)
  | destroyed (handle : Handle)
  | operated (handle : Handle) (self : Tid) (note : Note)
  | errno (handle : Handle) (self : Tid) (value : Nat)
  deriving DecidableEq

variable {Tid Handle Key : Type} {sizes : Handle → UInt64} {size : Nat}

def Instance.view (keys : Key → Option (Tid → Nat)) (object : Instance Tid Key size) :
    State Tid Cond (Queue Tid) (Point size) :=
  { object.state with shared := { object.state.shared with libErrno := (keys object.key).getD fun _ => 0 } }

def Thread.isIdle : Thread Cond (Point size) → Bool
  | .idle => true
  | _ => false

variable [DecidableEq Tid] [Fintype Tid] [DecidableEq Handle] [DecidableEq Key]

/-- Any number of threads using, creating and destroying any number of queues.
A thread is in one call at a time, and a queue is destroyed when no other thread
is in a call of it, as its header asks. -/
def systemMachine (Tid Handle Key : Type) [DecidableEq Tid] [Fintype Tid] [DecidableEq Handle] [DecidableEq Key]
    (sizes : Handle → UInt64) :
    Machine (System Tid Handle Key sizes) (SystemAction Tid Handle Key sizes) (Event Tid Handle) where
  step system action :=
    match action with
    | .create self handle key attempts queueCapacity =>
        if system.calling self = none ∧ (system.queues handle).isNone = true ∧ (system.keys key).isNone = true then
          match queueCreate attempts (sizes handle) queueCapacity with
          | (_, some queue, _) =>
              some ({ system with
                keys := Function.update system.keys key (some fun _ => 0)
                queues := Function.update system.queues handle (some ⟨key, initial queue⟩) }, [.created handle])
          -- A failed creation may keep the key it obtained.
          | (_, none, log) =>
              if .acquire .key ∈ log ∧ .release .key ∉ log then
                some ({ system with keys := Function.update system.keys key (some fun _ => 0) }, [])
              else some (system, [])
        else none
    | .destroy self handle attempts =>
        match system.queues handle with
        | none => none
        | some object =>
            if system.calling self = none ∧ ∀ other, system.calling other ≠ some handle then
              if .release .key ∈ (queueDestroy attempts).2 then
                some ({ system with
                  keys := Function.update system.keys object.key none
                  queues := Function.update system.queues handle none }, [.destroyed handle])
              else some ({ system with queues := Function.update system.queues handle none }, [.destroyed handle])
            else none
    | .operate handle action =>
        match system.queues handle with
        | none => none
        | some object =>
            if system.calling action.actor = none ∨ system.calling action.actor = some handle then
              match (queueMachine Tid (sizes handle).toNat).step (object.view system.keys) action with
              | none => none
              | some (after, notes) =>
                  let busy := if Thread.isIdle (after.threads action.actor) then none else some handle
                  some ({
                    keys := Function.update system.keys object.key (some after.shared.libErrno)
                    queues := Function.update system.queues handle (some { object with state := after })
                    calling := Function.update system.calling action.actor busy },
                    notes.map fun entry => .operated handle entry.1 entry.2)
            else none
    | .queueErrno self handle =>
        match system.queues handle with
        | none => none
        | some object =>
            if system.calling self = none then
              some (system, [.errno handle self (queueErrno (object.view system.keys).shared self)])
            else none

/-- The code a thread's most recent failed operation on a queue returned since
the queue was created, 0 if there is none. -/
def lastFailure (self : Tid) (handle : Handle) (events : List (Event Tid Handle)) : Nat :=
  events.foldl (fun last event =>
    match event with
    | .created other => if other = handle then 0 else last
    | .operated other writer note => if other = handle ∧ writer = self then failure last note else last
    | .destroyed _ | .errno _ _ _ => last) 0

end System

section Isolation

variable {Tid Handle Key : Type} {sizes : Handle → UInt64} [DecidableEq Tid] [DecidableEq Handle]
  {events : List (Event Tid Handle)} {self : Tid} {handle other : Handle}

theorem lastFailure_created :
    lastFailure self handle (events ++ [.created other]) =
      if other = handle then 0 else lastFailure self handle events := by
  simp [lastFailure]

theorem lastFailure_destroyed :
    lastFailure self handle (events ++ [.destroyed other]) = lastFailure self handle events := by
  simp [lastFailure]

theorem lastFailure_errno {writer : Tid} {value : Nat} :
    lastFailure self handle (events ++ [.errno other writer value]) = lastFailure self handle events := by
  simp [lastFailure]

theorem lastFailure_operated {notes : List (Tid × Note)} :
    lastFailure self handle (events ++ notes.map fun entry => .operated other entry.1 entry.2) =
      if other = handle then lastReturned self (lastFailure self handle events) notes
      else lastFailure self handle events := by
  rw [lastFailure, List.foldl_append]
  change List.foldl _ (lastFailure self handle events) _ = _
  generalize lastFailure self handle events = last
  split
  · next same =>
    subst same
    induction notes generalizing last with
    | nil => rfl
    | cons entry rest ih => simpa [lastReturned] using ih _
  · next different =>
    induction notes with
    | nil => rfl
    | cons entry rest ih => simpa [different] using ih

structure Kept (events : List (Event Tid Handle)) (system : System Tid Handle Key sizes) (handle : Handle)
    (object : Instance Tid Key (sizes handle).toNat) : Prop where
  keyed : (system.keys object.key).isSome = true
  private_ : ∀ other twin, system.queues other = some twin → twin.key = object.key → other = handle
  idle : ∀ thread, system.calling thread ≠ some handle → object.state.threads thread = .idle
  exclusive : Exclusive Holds Parks object.state
  slots : ∀ thread, Recorded thread (lastFailure thread handle events) (object.view system.keys)

def Isolated (events : List (Event Tid Handle)) (system : System Tid Handle Key sizes) : Prop :=
  ∀ handle object, system.queues handle = some object → Kept events system handle object

variable {system after : System Tid Handle Key sizes} {later : List (Event Tid Handle)}

theorem Kept.carry {object : Instance Tid Key (sizes handle).toNat} (kept : Kept events system handle object)
    (key : after.keys object.key = system.keys object.key)
    (idle : ∀ thread, after.calling thread ≠ some handle → system.calling thread ≠ some handle)
    (private_ : ∀ other twin, after.queues other = some twin → twin.key = object.key → other = handle)
    (last : ∀ thread, lastFailure thread handle later = lastFailure thread handle events) :
    Kept later after handle object := by
  refine ⟨by rw [key]; exact kept.keyed, private_, fun thread outside => kept.idle thread (idle thread outside),
    kept.exclusive, fun thread => ?_⟩
  have same : object.view after.keys = object.view system.keys := by simp only [Instance.view, key]
  rw [last, same]
  exact kept.slots thread

omit [DecidableEq Tid] in
theorem queues_erased {twin : Instance Tid Key (sizes other).toNat}
    (found : Function.update system.queues handle none other = some twin) :
    other ≠ handle ∧ system.queues other = some twin := by
  by_cases gone : other = handle
  · subst gone
    rw [Function.update_self] at found
    cases found
  · rw [Function.update_of_ne gone] at found
    exact ⟨gone, found⟩

theorem Isolated.destroy (isolated : Isolated events system) (handle : Handle) :
    Isolated (events ++ [.destroyed handle]) { system with queues := Function.update system.queues handle none } := by
  intro target object live
  have kept := isolated target object (queues_erased live).2
  exact kept.carry rfl (fun _ => id) (fun other twin found => kept.private_ other twin (queues_erased found).2)
    fun thread => lastFailure_destroyed

variable [DecidableEq Key]

theorem Isolated.create (isolated : Isolated events system) {key : Key} (handle : Handle) (queue : Queue Tid)
    (unused : system.keys key = none) :
    Isolated (events ++ [.created handle]) { system with
      keys := Function.update system.keys key (some fun _ => 0)
      queues := Function.update system.queues handle (some ⟨key, initial queue⟩) } := by
  -- A key in use belongs to an older queue and is not the new one.
  have fresh : ∀ other twin, system.queues other = some twin → twin.key ≠ key := by
    rintro other twin live rfl
    have := (isolated other twin live).keyed
    rw [unused] at this
    cases this
  intro target object live
  by_cases same : target = handle
  · subst same
    simp only [Function.update_self, Option.some.injEq] at live
    subst live
    refine ⟨by simp, fun other twin found shared => ?_, fun _ _ => rfl, fun _ => by simp [initial, Admits],
      fun thread => ?_⟩
    · by_contra different
      simp only [Function.update_of_ne different] at found
      exact fresh other twin found shared
    · rw [lastFailure_created, if_pos rfl]
      exact ⟨by simp [Instance.view, queueErrno, initial, recorded], by simp [Instance.view, initial]⟩
  · simp only [Function.update_of_ne same] at live
    have kept := isolated target object live
    refine kept.carry (Function.update_of_ne (fresh target object live) ..) (fun _ => id) ?_ fun thread => ?_
    · intro other twin found shared
      by_cases new : other = handle
      · subst new
        simp only [Function.update_self, Option.some.injEq] at found
        subst found
        exact absurd shared.symm (fresh target object live)
      · simp only [Function.update_of_ne new] at found
        exact kept.private_ other twin found shared
    · rw [lastFailure_created, if_neg (Ne.symm same)]

theorem Isolated.setKey (isolated : Isolated events system) {key : Key} (value : Option (Tid → Nat))
    (unused : ∀ handle object, system.queues handle = some object → object.key ≠ key) :
    Isolated events { system with keys := Function.update system.keys key value } := by
  intro handle object live
  have kept := isolated handle object live
  exact kept.carry (Function.update_of_ne (unused handle object live) ..) (fun _ => id) kept.private_ fun _ => rfl

variable [Fintype Tid]

theorem Isolated.operate (isolated : Isolated events system) {object : Instance Tid Key (sizes handle).toNat}
    (live : system.queues handle = some object) {action : Action Tid (Call (sizes handle).toNat)}
    (entitled : system.calling action.actor = none ∨ system.calling action.actor = some handle)
    {moved : State Tid Cond (Queue Tid) (Point (sizes handle).toNat)} {notes : List (Tid × Note)}
    (move : Move (queueProgram Tid (sizes handle).toNat) (object.view system.keys) action moved notes) :
    Isolated (events ++ notes.map fun entry => .operated handle entry.1 entry.2) {
      keys := Function.update system.keys object.key (some moved.shared.libErrno)
      queues := Function.update system.queues handle (some { object with state := moved })
      calling := Function.update system.calling action.actor
        (if Thread.isIdle (moved.threads action.actor) then none else some handle) } := by
  have kept := isolated handle object live
  have viewed : Exclusive Holds Parks (object.view system.keys) := kept.exclusive
  -- The keys of the live queues are what they were.
  have key_of : ∀ {other twin}, Function.update system.queues handle (some { object with state := moved }) other =
      some twin → ∃ old, system.queues other = some old ∧ old.key = twin.key := by
    intro other twin found
    by_cases same : other = handle
    · subst same
      simp only [Function.update_self, Option.some.injEq] at found
      subst found
      exact ⟨object, live, rfl⟩
    · simp only [Function.update_of_ne same] at found
      exact ⟨twin, found, rfl⟩
  intro target twin found
  by_cases same : target = handle
  · subst same
    simp only [Function.update_self, Option.some.injEq] at found
    subst found
    have exclusive := exclusive_step (queue_disciplined Tid) viewed move
    refine ⟨by simp, fun other peer peers shared => ?_, fun thread outside => ?_, exclusive, fun thread => ?_⟩
    · obtain ⟨old, before, keys⟩ := key_of peers
      exact kept.private_ other old before (keys.trans shared)
    · by_cases mover : thread = action.actor
      · subst mover
        simp only [Function.update_self] at outside
        cases place : moved.threads action.actor <;> simp [place, Thread.isIdle] at outside ⊢
      · simp only [Function.update_of_ne mover] at outside
        have waking (place : Thread Cond (Point (sizes target).toNat)) (idle : place = .idle) :
            place.wake = .idle := by
          rw [idle]
          rfl
        exact kept_of_foreign waking move mover (kept.idle thread outside)
    · rw [lastFailure_operated, if_pos rfl]
      have slot := recorded_step (kept.slots thread) viewed move
      have stored : Instance.view (Function.update system.keys object.key (some moved.shared.libErrno))
          { object with state := moved } = moved := by simp [Instance.view]
      rwa [stored]
  · simp only [Function.update_of_ne same] at found
    have other := isolated target twin found
    refine other.carry ?_ (fun thread outside => ?_) (fun peer mate peers shared => ?_) fun thread => ?_
    · exact Function.update_of_ne (fun shared => same (kept.private_ target twin found shared)) ..
    · by_cases mover : thread = action.actor
      · subst mover
        rcases entitled with none | here
        · simp [none]
        · rw [here]
          exact fun both => same (Option.some.inj both).symm
      · simpa only [Function.update_of_ne mover] using outside
    · obtain ⟨old, before, keys⟩ := key_of peers
      exact other.private_ peer old before (keys.trans shared)
    · rw [lastFailure_operated, if_neg (Ne.symm same)]

theorem isolated_step {action : SystemAction Tid Handle Key sizes} {written : List (Event Tid Handle)}
    (isolated : Isolated events system)
    (step : (systemMachine Tid Handle Key sizes).step system action = some (after, written)) :
    Isolated (events ++ written) after := by
  cases action with
  | create self handle key attempts queueCapacity =>
    simp only [systemMachine, Option.ite_none_right_eq_some] at step
    obtain ⟨⟨_, _, free⟩, step⟩ := step
    -- The system hands out keys that no queue uses.
    have unused : system.keys key = none := by simpa using free
    split at step
    · cases step
      exact isolated.create handle _ unused
    · split at step
      · cases step
        rw [List.append_nil]
        apply isolated.setKey _
        intro handle object live shared
        have keyed := (isolated handle object live).keyed
        rw [shared, unused] at keyed
        cases keyed
      · cases step
        rwa [List.append_nil]
  | destroy self handle attempts =>
    simp only [systemMachine] at step
    split at step
    · cases step
    · next object live =>
      simp only [Option.ite_none_right_eq_some] at step
      obtain ⟨_, step⟩ := step
      split at step
      · cases step
        apply (isolated.destroy handle).setKey none
        intro other twin found shared
        obtain ⟨different, before⟩ := queues_erased found
        exact different ((isolated handle object live).private_ other twin before shared)
      · cases step
        exact isolated.destroy handle
  | operate handle action =>
    simp only [systemMachine] at step
    split at step
    · cases step
    · next object live =>
      simp only [Option.ite_none_right_eq_some] at step
      obtain ⟨entitled, step⟩ := step
      split at step
      · cases step
      · next moved notes inner =>
        cases step
        exact isolated.operate live entitled (move_of_step inner)
  | queueErrno self handle =>
    simp only [systemMachine] at step
    split at step
    · cases step
    · simp only [Option.ite_none_right_eq_some, Option.some.injEq, Prod.mk.injEq] at step
      obtain ⟨_, rfl, rfl⟩ := step
      intro target object live
      have kept := isolated target object live
      exact kept.carry rfl (fun _ => id) kept.private_ fun thread => lastFailure_errno

def emptySystem : System Tid Handle Key sizes := ⟨fun _ => none, fun _ => none, fun _ => none⟩

/-- After any history of any number of queues and threads, `queue_errno` returns
the code of the caller's last failed operation on that queue. -/
theorem errno_is_last_failure {actions : List (SystemAction Tid Handle Key sizes)} {written : List (Event Tid Handle)}
    (run : (systemMachine Tid Handle Key sizes).Run emptySystem actions events system)
    (step : (systemMachine Tid Handle Key sizes).step system (.queueErrno self handle) = some (after, written)) :
    after = system ∧ written = [.errno handle self (lastFailure self handle events)] := by
  have isolated : Isolated events system :=
    run.invariant Isolated (by intro handle object live; cases live) fun _ _ _ _ _ => isolated_step
  simp only [systemMachine] at step
  split at step
  · cases step
  · next object live =>
    simp only [Option.ite_none_right_eq_some, Option.some.injEq, Prod.mk.injEq] at step
    obtain ⟨free, rfl, rfl⟩ := step
    have kept := isolated handle object live
    have idle : (object.view system.keys).threads self = .idle := kept.idle self (by simp [free])
    have value := (kept.slots self).value
    rw [idle] at value
    exact ⟨rfl, by rw [value]; rfl⟩

end Isolation

section Schedules

def operateAlone (self : Fin 2) (handle : Bool) (call : Call 1) (count : Nat) :
    List (SystemAction (Fin 2) Bool Bool fun _ => 1) :=
  .operate handle (.call self call) :: List.replicate count (.operate handle (.step self ∅))

def failOnBoth (self : Fin 2) (elem : Vector UInt8 1) : List (SystemAction (Fin 2) Bool Bool fun _ => 1) :=
  [.create self false false allSucceed 2, .create self true true allSucceed 2] ++
    operateAlone self false (.queueTryPop true) 5 ++ operateAlone self true (.queuePush none) 3 ++
    operateAlone self false (.queuePush (some elem)) 6

theorem errno_is_last_failure_empty :
    ∃ system after events written,
      (systemMachine (Fin 2) Bool Bool fun _ => 1).Run emptySystem (failOnBoth 0 #v[7]) events system ∧
      (systemMachine (Fin 2) Bool Bool fun _ => 1).step system (.queueErrno 0 false) = some (after, written) ∧
      written = [.errno false 0 ErrorCode.queueEmpty.value] := by
  have executes : ((systemMachine (Fin 2) Bool Bool fun _ => 1).exec emptySystem (failOnBoth 0 #v[7])).isSome =
      true := by decide +kernel
  have asks : ((systemMachine (Fin 2) Bool Bool fun _ => 1).step ((Machine.exec _ _ _).get executes).1
      (.queueErrno 0 false)).isSome = true := by decide +kernel +revert
  have last : lastFailure 0 false (Prod.snd ((Machine.exec _ _ _).get executes)) = ErrorCode.queueEmpty.value := by
    decide +kernel +revert
  have run := Machine.run_of_isSome executes
  have step : (systemMachine (Fin 2) Bool Bool fun _ => 1).step ((Machine.exec _ _ _).get executes).1
      (.queueErrno 0 false) = some ((Option.get _ asks).1, (Option.get _ asks).2) := (Option.some_get asks).symm
  have value := (errno_is_last_failure run step).2
  rw [last] at value
  exact ⟨_, _, _, _, run, step, value⟩

end Schedules
end PosixC.Queue
