import PosixC.Foundation.Ledger
import PosixC.Queue.Model

/-! What failed calls of `queue_create` leave behind.

A process makes any number of calls, and each call of the system may fail in each
of them. The blocks, the key, the mutex and the conditions of a call are named
after the number of the call.
-/

set_option autoImplicit false

namespace PosixC.Queue

open Foundation Ledger

section Model

structure CreateCall where
  attempts : Attempts
  elemSize : UInt64
  queueCapacity : UInt64

variable (Tid : Type)

def CreateCall.outcome (call : CreateCall) : ErrorCode × Option (Queue Tid) × List ResourceEvent :=
  queueCreate call.attempts call.elemSize call.queueCapacity

def CreateCall.succeeds (call : CreateCall) : Bool := decide ((call.outcome Tid).1 = .queueSuccess)

def ResourceEvent.entry : ResourceEvent → Event Resource
  | .acquire resource => .acquire resource
  | .release resource => .release resource

def CreateCall.events (call : CreateCall) : List (Event Resource) := (call.outcome Tid).2.2.map ResourceEvent.entry

def history : Nat → List CreateCall → List (Event (Nat × Resource))
  | _, [] => []
  | owner, call :: later => (call.events Tid).map (Event.map fun resource => (owner, resource)) ++ history (owner + 1) later

/-- Exactly the resources of the created queues are alive, and where there is no
queue the caller's pointer is NULL. -/
structure LeakFree (calls : List CreateCall) : Prop where
  alive : ∃ alive, settle [] (history Tid 0 calls) = some alive ∧
    ∀ owner resource, (owner, resource) ∈ alive ↔ ∃ call, calls[owner]? = some call ∧ call.succeeds Tid = true
  null : ∀ call ∈ calls, call.succeeds Tid = false → (call.outcome Tid).2.1 = none

def CreateCall.unset (call : CreateCall) : Bool :=
  call.attempts.qptr && call.attempts.queueCalloc &&
    (calloc call.attempts.bufferCalloc call.queueCapacity.toNat call.elemSize.toNat).isSome &&
    call.attempts.keyCreate && !call.attempts.setspecific

end Model

section Calls

variable {Tid : Type} {call : CreateCall} {calls : List CreateCall} {alive : List (Nat × Resource)} {owner : Nat}

def CreateCall.kept (Tid : Type) (call : CreateCall) : List Resource :=
  if call.succeeds Tid then [.condPush, .condPop, .mutex, .key, .bufferBlock, .queueBlock]
  else if call.unset then [.key] else []

inductive CreateCall.Way (Tid : Type) (call : CreateCall) : Prop where
  | created : call.succeeds Tid = true → call.unset = false →
      settle [] (call.events Tid) = some [.condPush, .condPop, .mutex, .key, .bufferBlock, .queueBlock] → Way Tid call
  | unset : call.succeeds Tid = false → call.unset = true → (call.outcome Tid).2.1 = none →
      settle [] (call.events Tid) = some [.key] → Way Tid call
  | failed : call.succeeds Tid = false → call.unset = false → (call.outcome Tid).2.1 = none →
      settle [] (call.events Tid) = some [] → Way Tid call

theorem CreateCall.Way.of_failed {code : ErrorCode} {log : List ResourceEvent}
    (outcome : call.outcome Tid = (code, none, log)) (failure : code ≠ .queueSuccess) (set : call.unset = false)
    (clean : settle [] (log.map ResourceEvent.entry) = some []) : call.Way Tid := by
  refine .failed ?_ set ?_ ?_
  · rw [succeeds, outcome]
    exact decide_eq_false failure
  · rw [outcome]
  · rw [events, outcome]
    exact clean

/-- What `queue_create` does once it has both blocks. -/
theorem CreateCall.way_of_blocks {memory : Bytes} (qptr : call.attempts.qptr = true)
    (queueCalloc : call.attempts.queueCalloc = true)
    (allocated : calloc call.attempts.bufferCalloc call.queueCapacity.toNat call.elemSize.toNat = some memory) :
    call.Way Tid := by
  have outcome : call.outcome Tid = queueCreate call.attempts call.elemSize call.queueCapacity := rfl
  have unset : call.unset = (call.attempts.keyCreate && !call.attempts.setspecific) := by
    simp [CreateCall.unset, qptr, queueCalloc, allocated]
  simp only [queueCreate, qptr, queueCalloc, allocated, Bool.true_eq_false, if_false] at outcome
  cases keyCreate : call.attempts.keyCreate with
  | false =>
    rw [keyCreate, if_pos rfl] at outcome
    exact .of_failed outcome (by decide) (by rw [unset, keyCreate]; rfl) rfl
  | true =>
    rw [keyCreate, if_neg Bool.noConfusion] at outcome
    cases setspecific : call.attempts.setspecific with
    | false =>
      rw [setspecific, if_pos rfl] at outcome
      exact .unset (by rw [succeeds, outcome]; rfl) (by rw [unset, keyCreate, setspecific]; rfl) (by rw [outcome])
        (by rw [events, outcome]; rfl)
    | true =>
      have set : call.unset = false := by rw [unset, keyCreate, setspecific]; rfl
      rw [setspecific, if_neg Bool.noConfusion] at outcome
      cases mutexInit : call.attempts.mutexInit with
      | false => exact .of_failed (by rw [outcome, mutexInit, if_pos rfl]) (by decide) set rfl
      | true =>
        rw [mutexInit, if_neg Bool.noConfusion] at outcome
        cases condPopInit : call.attempts.condPopInit with
        | false => exact .of_failed (by rw [outcome, condPopInit, if_pos rfl]) (by decide) set rfl
        | true =>
          rw [condPopInit, if_neg Bool.noConfusion] at outcome
          cases condPushInit : call.attempts.condPushInit with
          | false => exact .of_failed (by rw [outcome, condPushInit, if_pos rfl]) (by decide) set rfl
          | true =>
            rw [condPushInit, if_neg Bool.noConfusion] at outcome
            exact .created (by rw [succeeds, outcome]; rfl) set (by rw [events, outcome]; rfl)

theorem CreateCall.way (call : CreateCall) : call.Way Tid := by
  cases qptr : call.attempts.qptr with
  | false =>
    exact .of_failed (by rw [outcome, queueCreate, if_pos qptr]) (by decide) (by simp [unset, qptr]) rfl
  | true =>
    cases queueCalloc : call.attempts.queueCalloc with
    | false =>
      exact .of_failed (by rw [outcome, queueCreate, if_neg (by simp [qptr]), if_pos queueCalloc]) (by decide)
        (by simp [unset, queueCalloc]) rfl
    | true =>
      cases allocated : calloc call.attempts.bufferCalloc call.queueCapacity.toNat call.elemSize.toNat with
      | none =>
        have outcome : call.outcome Tid = (.allocFailure, none, .acquire .queueBlock :: unwindBufferAlloc) := by
          simp only [CreateCall.outcome, queueCreate, qptr, queueCalloc, allocated, Bool.true_eq_false, if_false]
        exact .of_failed outcome (by decide) (by simp [unset, allocated]) rfl
      | some memory => exact way_of_blocks qptr queueCalloc allocated

theorem CreateCall.settled (call : CreateCall) : settle [] (call.events Tid) = some (call.kept Tid) := by
  cases (call.way : call.Way Tid) with
  | created succeeds set settled => rw [settled, kept, if_pos succeeds]
  | unset failed unset _ settled => rw [settled, kept, if_neg (by simp [failed]), if_pos unset]
  | failed failed set _ settled => rw [settled, kept, if_neg (by simp [failed]), if_neg (by simp [set])]

end Calls

section Processes

variable {Tid : Type} {call : CreateCall} {calls : List CreateCall} {alive : List (Nat × Resource)} {owner : Nat}

def survivors (Tid : Type) : Nat → List CreateCall → List (Nat × Resource)
  | _, [] => []
  | owner, call :: later => survivors Tid (owner + 1) later ++ (call.kept Tid).map fun resource => (owner, resource)

theorem mem_survivors {name : Nat} {resource : Resource} : (name, resource) ∈ survivors Tid owner calls ↔
    ∃ i call, name = owner + i ∧ calls[i]? = some call ∧ resource ∈ call.kept Tid := by
  induction calls generalizing owner with
  | nil => simp [survivors]
  | cons call later ih =>
    rw [survivors, List.mem_append, ih]
    constructor
    · rintro (⟨i, other, rfl, found, member⟩ | own)
      · exact ⟨i + 1, other, by omega, found, member⟩
      · obtain ⟨_, member, same⟩ := List.mem_map.mp own
        cases same
        exact ⟨0, call, rfl, rfl, member⟩
    · rintro ⟨i, other, rfl, found, member⟩
      cases i with
      | zero =>
        cases found
        exact Or.inr (List.mem_map_of_mem member)
      | succ i => exact Or.inl ⟨i, other, by omega, found, member⟩

theorem settle_history (older : ∀ entry ∈ alive, entry.1 < owner) :
    settle alive (history Tid owner calls) = some (survivors Tid owner calls ++ alive) := by
  induction calls generalizing owner alive with
  | nil => rfl
  | cons call later ih =>
    have named := settle_map (Prod.mk_right_injective owner) (call.settled : _ = some (call.kept Tid))
    have own : ∀ event ∈ (call.events Tid).map (Event.map fun resource => (owner, resource)), event.resource ∉ alive := by
      intro event member held
      obtain ⟨original, _, rfl⟩ := List.mem_map.mp member
      have before := older _ held
      cases original <;> exact absurd before (lt_irrefl _)
    have kept : ∀ entry ∈ (call.kept Tid).map (fun resource => (owner, resource)) ++ alive, entry.1 < owner + 1 := by
      intro entry member
      rcases List.mem_append.mp member with new | old
      · obtain ⟨_, _, rfl⟩ := List.mem_map.mp new
        exact Nat.lt_succ_self _
      · exact Nat.lt_succ_of_lt (older entry old)
    have first : settle alive ((call.events Tid).map (Event.map fun resource => (owner, resource))) =
        some ((call.kept Tid).map (fun resource => (owner, resource)) ++ alive) := settle_frame named own
    rw [history, settle_append first, ih kept, survivors, List.append_assoc]

theorem CreateCall.mem_kept (set : call.unset = false) {resource : Resource} :
    resource ∈ call.kept Tid ↔ call.succeeds Tid = true := by
  rw [kept, set]
  cases call.succeeds Tid <;> cases resource <;> simp

theorem mem_survivors_start {resource : Resource} :
    (owner, resource) ∈ survivors Tid 0 calls ↔ ∃ call, calls[owner]? = some call ∧ resource ∈ call.kept Tid := by
  rw [mem_survivors]
  simp

/-- Nothing is left behind exactly if no call fails to set the value of its key. -/
theorem leakFree_iff : LeakFree Tid calls ↔ ∀ call ∈ calls, call.unset = false := by
  have settled : settle [] (history Tid 0 calls) = some (survivors Tid 0 calls) := by
    rw [settle_history fun _ member => absurd member List.not_mem_nil, List.append_nil]
  constructor
  · rintro ⟨⟨alive, same, owned⟩, _⟩ call member
    obtain rfl := Option.some.inj (settled.symm.trans same)
    obtain ⟨owner, found⟩ := List.mem_iff_getElem?.mp member
    cases (call.way : call.Way Tid) with
    | created _ set | failed _ set => exact set
    | unset failed unset =>
      -- The key is alive, but there is no queue it could belong to.
      have kept : Resource.key ∈ call.kept Tid := by simp [CreateCall.kept, failed, unset]
      obtain ⟨other, same, succeeds⟩ := (owned owner .key).mp (mem_survivors_start.mpr ⟨call, found, kept⟩)
      cases found.symm.trans same
      cases failed.symm.trans succeeds
  · intro clean
    refine ⟨⟨_, settled, fun owner resource => ?_⟩, fun call member failed => ?_⟩
    · rw [mem_survivors_start]
      refine exists_congr fun call => and_congr_right fun found => ?_
      exact CreateCall.mem_kept (clean call (List.mem_of_getElem? found))
    · cases (call.way : call.Way Tid) with
      | created succeeds => cases failed.symm.trans succeeds
      | unset _ _ null | failed _ _ null => exact null

def unsetCall : CreateCall := ⟨⟨true, true, true, true, false, true, true, true⟩, 1, 1⟩

/-- Its key is never deleted. -/
theorem unsetCall_leaks : settle [] (history (Fin 1) 0 [unsetCall]) = some [(0, .key)] ∧ ¬ LeakFree (Fin 1) [unsetCall] := by
  have leaves : settle [] (history (Fin 1) 0 [unsetCall]) = some [(0, .key)] := by decide
  refine ⟨leaves, fun clean => ?_⟩
  obtain ⟨alive, same, owned⟩ := clean.alive
  obtain rfl := Option.some.inj (leaves.symm.trans same)
  obtain ⟨call, found, succeeds⟩ := (owned 0 .key).mp List.mem_cons_self
  cases found
  cases succeeds

end Processes
end PosixC.Queue
