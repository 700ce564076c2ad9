import PosixC.Queue.Representation

/-! Which bytes a pop delivers.

The operations agree on what is stored and on what a pop discards, but both pops
copy from the slot under the write cursor. That slot holds the element pushed
one capacity ago, or the zeros of the allocation, and the delivery is first-in
first-out exactly when that happens to be the oldest element.
-/

set_option autoImplicit false

namespace PosixC.Queue

open Foundation Foundation.Monitor

section Histories

variable {Tid : Type}

/-- The k-th pop that wants its element receives the k-th element pushed. -/
def Fifo (notes : List (Tid × Note)) : Prop :=
  ∀ (k : Nat) (out : Bytes), (pops notes)[k]? = some (some out) → (pushes notes)[k]? = some out

/-- The slot under the write cursor holds the bytes of the oldest stored element. -/
def StaleIsOldest (capacity size : Nat) (before : List (Tid × Note)) : Prop :=
  (pushes before)[(pops before).length]? = some (Ring.stale capacity (List.replicate size 0) (pushes before))

def Full (capacity : Nat) (before : List (Tid × Note)) : Prop :=
  (pushes before).length = (pops before).length + capacity

theorem stale_of_full {capacity size : Nat} {before : List (Tid × Note)} (positive : 0 < capacity)
    (full : Full capacity before) : StaleIsOldest capacity size before := by
  unfold Full at full
  have bound : (pops before).length < (pushes before).length := by omega
  have start : (pushes before).length - capacity = (pops before).length := by omega
  rw [StaleIsOldest, Ring.stale, if_neg (by omega), start, List.getElem?_eq_getElem bound]
  rfl

def CopiesStale (capacity size : Nat) (notes : List (Tid × Note)) : Prop :=
  ∀ before self out after, notes = before ++ (self, .popped (some out)) :: after →
    (pops before).length < (pushes before).length ∧
    out = Ring.stale capacity (List.replicate size 0) (pushes before)

theorem split_concat {α : Type} {notes before after : List α} {entry last : α}
    (split : notes ++ [last] = before ++ entry :: after) :
    (notes = before ∧ last = entry) ∨ ∃ rest, notes = before ++ entry :: rest := by
  rcases List.eq_nil_or_concat after with rfl | ⟨rest, final, rfl⟩
  · obtain ⟨same, tail⟩ := List.append_inj' split rfl
    exact Or.inl ⟨same, List.singleton_inj.mp tail⟩
  · rw [List.concat_eq_append, ← List.cons_append, ← List.append_assoc] at split
    exact Or.inr ⟨rest, (List.append_inj' split rfl).1⟩

theorem CopiesStale.concat {capacity size : Nat} {notes : List (Tid × Note)} {self : Tid} {note : Note}
    (copies : CopiesStale capacity size notes)
    (last : ∀ out, note = .popped (some out) → (pops notes).length < (pushes notes).length ∧
      out = Ring.stale capacity (List.replicate size 0) (pushes notes)) :
    CopiesStale capacity size (notes ++ [(self, note)]) := by
  intro before other out after split
  rcases split_concat split with ⟨rfl, same⟩ | ⟨rest, earlier⟩
  · exact last out (congrArg Prod.snd same)
  · exact copies before other out rest earlier

/-- The position of a pop among the pops is the number of pops before it. -/
theorem pops_getElem? {notes : List (Tid × Note)} {k : Nat} {out : Option Bytes}
    (found : (pops notes)[k]? = some out) :
    ∃ before self after, notes = before ++ (self, .popped out) :: after ∧ (pops before).length = k := by
  -- From the last note on: the pop is among the earlier ones or is the last one itself.
  induction notes using List.reverseRecOn generalizing k with
  | nil => simp [pops] at found
  | append_singleton notes entry ih =>
    rw [pops_append] at found
    by_cases early : k < (pops notes).length
    · rw [List.getElem?_append_left early] at found
      obtain ⟨before, self, after, rfl, length⟩ := ih found
      exact ⟨before, self, after ++ [entry], by simp, length⟩
    · rw [List.getElem?_append_right (by omega)] at found
      obtain ⟨self, note⟩ := entry
      cases note with
      | pushed | returned => simp [pops] at found
      | popped last =>
        have zero : k - (pops notes).length = 0 := by
          by_contra later
          rw [List.getElem?_eq_none (show 1 ≤ k - (pops notes).length by omega)] at found
          cases found
        rw [zero] at found
        cases found
        exact ⟨notes, self, [], rfl, by omega⟩

/-- First-in first-out delivery, pop by pop. -/
theorem fifo_iff {capacity size : Nat} {notes : List (Tid × Note)} (copies : CopiesStale capacity size notes) :
    Fifo notes ↔ ∀ before self out after, notes = before ++ (self, .popped (some out)) :: after →
      StaleIsOldest capacity size before := by
  -- A pop takes from a queue that holds something, so later pushes do not matter for it.
  have unchanged : ∀ {before self out after}, notes = before ++ (self, .popped (some out)) :: after →
      (pushes notes)[(pops before).length]? = (pushes before)[(pops before).length]? := by
    rintro before self out after rfl
    rw [pushes_append, List.getElem?_append_left (copies before self out after rfl).1]
  constructor
  · intro fifo before self out after split
    have position : (pops notes)[(pops before).length]? = some (some out) := by
      rw [split, pops_append, List.getElem?_append_right le_rfl, Nat.sub_self]
      rfl
    have pushed := fifo _ _ position
    rw [unchanged split, (copies before self out after split).2] at pushed
    exact pushed
  · intro stale k out found
    obtain ⟨before, self, after, split, rfl⟩ := pops_getElem? found
    rw [unchanged split, (copies before self out after split).2]
    exact stale before self out after split

end Histories

section Runs

variable {Tid : Type} [DecidableEq Tid] [Fintype Tid]

theorem copies_step {capacity size : Nat} (fits : capacity * size < 2 ^ 64) {notes written : List (Tid × Note)}
    {state after : State Tid Cond (Queue Tid) (Point size)} {action : Action Tid (Call size)}
    (sound : Sound Holds Parks (Tracks capacity size) (Held capacity) notes state)
    (copies : CopiesStale capacity size notes)
    (move : Move (queueProgram Tid size) state action after written) :
    CopiesStale capacity size (notes ++ written) := by
  cases move with
  | assign running command =>
    cases statement_of_next command with
    -- The one statement that notes a pop, made by the owner of the mutex.
    | @transfer job =>
      have own := (sound.exclusive.own running).mpr trivial
      obtain ⟨tracks, ready⟩ := sound.held own running
      apply copies.concat
      intro out noted
      cases job with
      | push elem => cases noted
      | pop wanted =>
        have some : state.shared.buffer.queueSize ≠ 0 := by
          simpa [Ready, Job.blocked, queueIsEmpty] using ready
        have bounded := tracks.represents.bounded
        have balance := tracks.represents.balance
        refine ⟨by omega, ?_⟩
        rw [← tracks.represents.copied tracks.elemSize fits (by omega)]
        cases wanted with
        | false => cases noted
        | true =>
          cases noted
          rfl
    | _ => simpa using copies
  | finish running command =>
    cases statement_of_next command with
    | leave => exact copies.concat fun _ noted => by cases noted
  | _ => simpa using copies

theorem created_copies {attempts : Attempts} {elemSize queueCapacity : UInt64} {queue : Queue Tid}
    {log : List ResourceEvent}
    (created : queueCreate attempts elemSize queueCapacity = (.queueSuccess, some queue, log))
    {actions : List (Action Tid (Call elemSize.toNat))} {notes : List (Tid × Note)}
    {state : State Tid Cond (Queue Tid) (Point elemSize.toNat)}
    (run : (queueMachine Tid elemSize.toNat).Run (initial queue) actions notes state) :
    CopiesStale queueCapacity.toNat elemSize.toNat notes := by
  induction run with
  | start =>
    intro before self out after split
    simp at split
  | next before step ih =>
    exact copies_step (queueCreate_success created).1 (created_sound created before) ih (move_of_step step)

/-- What is stored is what was pushed and not yet popped, and the pops deliver in
that order exactly when each one that wants its element runs on a full queue or
finds the bytes of the oldest element in the slot under the write cursor. -/
theorem fifo_delivery_iff {attempts : Attempts} {elemSize queueCapacity : UInt64} {queue : Queue Tid}
    {log : List ResourceEvent} (positive : 1 ≤ queueCapacity.toNat)
    (created : queueCreate attempts elemSize queueCapacity = (.queueSuccess, some queue, log))
    {actions : List (Action Tid (Call elemSize.toNat))} {notes : List (Tid × Note)}
    {state : State Tid Cond (Queue Tid) (Point elemSize.toNat)}
    (run : (queueMachine Tid elemSize.toNat).Run (initial queue) actions notes state) :
    (state.owner = none →
      (List.range state.shared.buffer.queueSize).map (fun i => Ring.slotAt elemSize.toNat
        state.shared.buffer.memory ((state.shared.buffer.readPointer + i) % queueCapacity.toNat)) =
      (pushes notes).drop (pops notes).length) ∧
    (Fifo notes ↔ ∀ before self out after, notes = before ++ (self, .popped (some out)) :: after →
      Full queueCapacity.toNat before ∨ StaleIsOldest queueCapacity.toNat elemSize.toNat before) := by
  refine ⟨fun free => ?_, ?_⟩
  · have invariant := ((created_sound created run).free free).ringInvariant
    have removed := invariant.removed
    have count := invariant.count
    rw [invariant.slots]
    congr 1
    omega
  · rw [fifo_iff (created_copies created run)]
    constructor
    · intro stale before self out after split
      exact Or.inr (stale before self out after split)
    · intro either before self out after split
      exact (either before self out after split).elim (stale_of_full positive) id

theorem fifo_delivery_full :
    ∃ state notes, (queueMachine (Fin 1) (1 : UInt64).toNat).Run (initial (freshQueue (Fin 1) 1 1 [0]))
        (alone (.queuePush (some #v[7])) 6 ++ alone (.queuePop true) 6) notes state ∧ Fifo notes ∧
      pops notes = [some [7]] := by
  have executes : ((queueMachine (Fin 1) (1 : UInt64).toNat).exec (initial (freshQueue (Fin 1) 1 1 [0]))
      (alone (.queuePush (some #v[7])) 6 ++ alone (.queuePop true) 6)).isSome = true := by decide
  have created : queueCreate allSucceed 1 1 = (.queueSuccess, some (freshQueue (Fin 1) 1 1 [0]),
      [.acquire .queueBlock, .acquire .bufferBlock, .acquire .key, .acquire .mutex, .acquire .condPop,
        .acquire .condPush]) := rfl
  have run := Machine.run_of_isSome executes
  refine ⟨_, _, run, (fifo_delivery_iff (by decide) created run).2.mpr ?_, rfl⟩
  intro before self out after split
  have entries : [(0, Note.pushed [7]), (0, .returned .queueSuccess), (0, .popped (some [7])),
      (0, .returned .queueSuccess)] = before ++ (self, .popped (some out)) :: after := split
  rcases before with _ | ⟨first, _ | ⟨second, _ | ⟨third, _ | ⟨fourth, rest⟩⟩⟩⟩ <;> simp at entries
  obtain ⟨rfl, rfl, _⟩ := entries
  exact Or.inl rfl

/-- One element in a queue of two: the pop hands out the zeros of the next slot. -/
theorem fifo_delivery_fails :
    ∃ state notes, (queueMachine (Fin 1) (1 : UInt64).toNat).Run (initial (freshQueue (Fin 1) 1 2 [0, 0]))
        (alone (.queuePush (some #v[7])) 6 ++ alone (.queuePop true) 6) notes state ∧
      pushes notes = [[7]] ∧ pops notes = [some [0]] ∧ ¬ Fifo notes := by
  have executes : ((queueMachine (Fin 1) (1 : UInt64).toNat).exec (initial (freshQueue (Fin 1) 1 2 [0, 0]))
      (alone (.queuePush (some #v[7])) 6 ++ alone (.queuePop true) 6)).isSome = true := by decide
  refine ⟨_, _, Machine.run_of_isSome executes, rfl, rfl, fun fifo => ?_⟩
  have delivered : ([[7]] : List Bytes)[0]? = some [0] := fifo 0 [0] rfl
  exact absurd delivered (by decide)

end Runs
end PosixC.Queue
