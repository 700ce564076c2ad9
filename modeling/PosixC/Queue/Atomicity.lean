import Mathlib.Data.Int.ModEq
import PosixC.Queue.AbortFailure

/-! What a failed operation leaves behind.

An operation can announce itself, sleep and withdraw any number of times before
it fails. Up to its failure it has changed nothing but a waiting counter, and
that only while it waits.
-/

set_option autoImplicit false
set_option linter.dupNamespace false

namespace PosixC.Queue

open Foundation Foundation.Monitor

section Effects

variable {Tid : Type} {size : Nat}

abbrev QueueStep (Tid : Type) (size : Nat) :=
  Foundation.Step (State Tid Cond (Queue Tid) (Point size)) (Action Tid (Call size)) (Tid × Note)

/-- The step touches neither the ring buffer, nor the flag, nor the memory `elem` points to. -/
structure Harmless (thread : Tid) (step : QueueStep Tid size) : Prop where
  buffer : step.after.shared.buffer = step.before.shared.buffer
  aborted : step.after.shared.sync.aborted = step.before.shared.sync.aborted
  elem : ∀ out, (thread, Note.popped out) ∉ step.written

def change (cond : Cond) (step : QueueStep Tid size) : Int :=
  (step.after.shared.waiting cond : Int) - step.before.shared.waiting cond

def committed : Point size → Bool
  | .signal _ | .abortPop | .abortPush => true
  | .unlock code | .fail code | .leave code => decide (code = .queueSuccess)
  | _ => false

def commits : Thread Cond (Point size) → Bool
  | .running point => committed point
  | _ => false

def announced (cond : Cond) : Thread Cond (Point size) → Nat
  | .idle => 0
  | .running point | .asleep _ point | .woken _ point => counts cond point

theorem commits_wake (thread : Thread Cond (Point size)) : commits thread.wake = commits thread := by
  cases thread <;> rfl

theorem announced_wake (cond : Cond) (thread : Thread Cond (Point size)) :
    announced cond thread.wake = announced cond thread := by
  cases thread <;> rfl

theorem change_announce (cond : Cond) (job : Job size) (queue : Queue Tid) :
    (((job.announce queue).waiting cond : Nat) : Int) - queue.waiting cond ≡
      (counts cond (.sleep job) : Nat) [ZMOD 2 ^ 64] := by
  rw [waiting_announce, counts]
  split
  · rw [SizeT.add]
    push_cast
    exact ((Int.mod_modEq _ _).sub_right _).trans (by rw [add_sub_cancel_left])
  · simp

theorem change_withdraw (cond : Cond) (job : Job size) (queue : Queue Tid) :
    (((job.withdraw queue).waiting cond : Nat) : Int) - queue.waiting cond ≡
      -((counts cond (.resume job) : Nat) : Int) [ZMOD 2 ^ 64] := by
  rw [waiting_withdraw, counts]
  split
  · rw [SizeT.sub]
    split
    · next positive => exact Int.modEq_iff_dvd.mpr ⟨0, by omega⟩
    -- The counter borrows once.
    · next zero => exact Int.modEq_iff_dvd.mpr ⟨-1, by omega⟩
  · simp

variable [DecidableEq Tid] [Fintype Tid] {state after : State Tid Cond (Queue Tid) (Point size)}
  {action : Action Tid (Call size)} {written : List (Tid × Note)} {self : Tid}

/-- Nothing but a return makes a committed operation an uncommitted one. -/
theorem commits_step (move : Move (queueProgram Tid size) state action after written) (acts : action.actor = self)
    (before : commits (state.threads self) = true) :
    commits (after.threads self) = true ∨ after.threads self = .idle := by
  subst acts
  obtain ⟨_, _, idle, _⟩ | ⟨_, _, asleep, _⟩ | ⟨_, _, woken, _⟩ | ⟨point, _, _, running, arrives, _⟩ :=
    moves_of_actor move
  · rw [idle] at before
    cases before
  · rw [asleep] at before
    cases before
  · rw [woken] at before
    cases before
  · rw [running] at before
    generalize next : (queueProgram Tid size).next action.actor point state.shared = command at arrives
    cases statement_of_next next with
    | signal | abortPop | abortPush | fail =>
      apply Or.inl
      rw [arrives]
      exact before
    | unlock leads =>
      apply Or.inl
      rw [arrives]
      rcases leads with rfl | rfl <;> exact before
    | leave => exact Or.inr arrives
    | _ => cases before

theorem popped_commits (move : Move (queueProgram Tid size) state action after written) {out : Option Bytes}
    (popped : (self, Note.popped out) ∈ written) : commits (after.threads self) = true := by
  obtain ⟨chosen, rfl⟩ := mover_of_note move popped
  obtain nothing | ⟨point, running, notes⟩ := notes_by_actor move
  · rw [nothing] at popped
    cases popped
  · have own : (Action.step self chosen : Action Tid (Call size)).own self = true := by simp [Action.own]
    have arrives : Command.arrives (after.threads self) _ := place_of_own move running own
    rw [notes] at popped
    simp only [Action.actor] at popped arrives
    generalize next : (queueProgram Tid size).next self point state.shared = command at arrives popped
    cases statement_of_next next with
    | transfer =>
      rw [arrives]
      rfl
    | _ => simp [Command.writes] at popped

/-- A step that does not commit its operation changes only what is announced. -/
theorem harmless_step (move : Move (queueProgram Tid size) state action after written) (acts : action.actor = self)
    (uncommitted : commits (after.threads self) = false) :
    Harmless self ⟨state, action, written, after⟩ ∧ ∀ cond, change cond ⟨state, action, written, after⟩ ≡
      (announced cond (after.threads self) : Int) - announced cond (state.threads self) [ZMOD 2 ^ 64] := by
  have elem : ∀ out, (self, Note.popped out) ∉ written := by
    intro out popped
    rw [popped_commits move popped] at uncommitted
    cases uncommitted
  -- Most steps change neither the queue nor what is announced.
  have quiet (kept : after.shared = state.shared)
      (same : ∀ cond, announced cond (after.threads self) = announced cond (state.threads self)) :
      Harmless self ⟨state, action, written, after⟩ ∧ ∀ cond, change cond ⟨state, action, written, after⟩ ≡
        (announced cond (after.threads self) : Int) - announced cond (state.threads self) [ZMOD 2 ^ 64] := by
    refine ⟨⟨by rw [kept], by rw [kept], elem⟩, fun cond => ?_⟩
    rw [same cond, change, kept, sub_self, sub_self]
  subst acts
  obtain ⟨_, _, idle, entered, runs, kept⟩ | ⟨_, _, asleep, woken, kept⟩ | ⟨_, _, woken, runs, kept⟩ |
    ⟨point, _, _, running, arrives, result⟩ := moves_of_actor move
  · cases entered
    exact quiet kept fun cond => by rw [idle, runs]; rfl
  · exact quiet kept fun cond => by rw [asleep, woken]; rfl
  · exact quiet kept fun cond => by rw [woken, runs]; rfl
  · rw [running] at quiet ⊢
    generalize next : (queueProgram Tid size).next action.actor point state.shared = command at arrives result
    cases statement_of_next next with
    | announce =>
      rw [arrives]
      refine ⟨⟨by simp [result, Command.result], by simp [result, Command.result], elem⟩, fun cond => ?_⟩
      simp only [change, result, Command.result]
      exact (change_announce cond _ state.shared).trans (by simp [announced, counts])
    | withdraw =>
      rw [arrives]
      refine ⟨⟨by simp [result, Command.result], by simp [result, Command.result], elem⟩, fun cond => ?_⟩
      simp only [change, result, Command.result]
      exact (change_withdraw cond _ state.shared).trans (by simp [announced, counts])
    | fail =>
      rw [arrives]
      refine ⟨⟨by rw [result]; rfl, by rw [result]; rfl, elem⟩, fun cond => ?_⟩
      simp only [change, result, Command.result]
      cases cond <;> simp [announced, counts, returnErrorState, Queue.waiting]
    | tryLock =>
      apply quiet result
      intro cond
      rcases arrives with there | there <;>
      · rw [there]
        rfl
    | unlock leads =>
      apply quiet result
      intro cond
      rw [arrives]
      rcases leads with rfl | rfl <;> rfl
    | transfer | signal | abortSet | abortPop | abortPush =>
      rw [arrives] at uncommitted
      cases uncommitted
    | _ => exact quiet result fun cond => by rw [arrives]; rfl

end Effects

section Calls

variable {Tid : Type} {size : Nat} [DecidableEq Tid]

def ownSteps (self : Tid) (steps : List (QueueStep Tid size)) : List (QueueStep Tid size) :=
  steps.filter fun step => step.action.actor = self

def returnsOf (self : Tid) (notes : List (Tid × Note)) : List ErrorCode :=
  notes.filterMap fun entry =>
    match entry.2 with
    | .returned code => if entry.1 = self then some code else none
    | _ => none

structure Ledger (thread : Tid) (steps : List (QueueStep Tid size)) (place : Thread Cond (Point size)) : Prop where
  harmless : ∀ step ∈ ownSteps thread steps, Harmless thread step
  changed : ∀ cond, ((ownSteps thread steps).map (change cond)).sum ≡ announced cond place [ZMOD 2 ^ 64]

def Accounted (self : Tid) (steps : List (QueueStep Tid size)) (state : State Tid Cond (Queue Tid) (Point size)) : Prop :=
  match returnsOf self (steps.flatMap Step.written) with
  | [] => commits (state.threads self) = false → Ledger self steps (state.threads self)
  | [code] => state.threads self = .idle → code ≠ .queueSuccess → Ledger self steps .idle
  | _ => True

variable [Fintype Tid]

/-- Exactly one call of the thread, from before its first step until it has returned; the
others go on meanwhile. -/
structure WholeCall (thread : Tid) (code : ErrorCode) (begin : State Tid Cond (Queue Tid) (Point size))
    (steps : List (QueueStep Tid size)) (final : State Tid Cond (Queue Tid) (Point size)) : Prop where
  path : (queueMachine Tid size).Path begin steps final
  begins : begin.threads thread = .idle
  ends : final.threads thread = .idle
  returns : returnsOf thread (steps.flatMap Step.written) = [code]

variable {state after : State Tid Cond (Queue Tid) (Point size)} {action : Action Tid (Call size)}
  {written : List (Tid × Note)} {self : Tid} {steps : List (QueueStep Tid size)}

omit [Fintype Tid] in
theorem returnsOf_append (first second : List (Tid × Note)) :
    returnsOf self (first ++ second) = returnsOf self first ++ returnsOf self second :=
  List.filterMap_append

omit [Fintype Tid] in
theorem returnsOf_foreign {notes : List (Tid × Note)} (foreign : ∀ note, (self, note) ∉ notes) :
    returnsOf self notes = [] := by
  apply List.filterMap_eq_nil_iff.mpr
  intro entry member
  obtain ⟨writer, note⟩ := entry
  have different : writer ≠ self := fun same => foreign note (same ▸ member)
  cases note <;> simp [different]

theorem returnsOf_move (move : Move (queueProgram Tid size) state action after written) (acts : action.actor = self) :
    (returnsOf self written = [] ∧ after.threads self ≠ .idle) ∨
      ∃ code, state.threads self = .running (.leave code) ∧ returnsOf self written = [code] := by
  subst acts
  cases move with
  | finish running command =>
    cases statement_of_next command
    exact Or.inr ⟨_, running, by simp [returnsOf, Action.actor]⟩
  | assign _ command =>
    refine Or.inl ⟨?_, by simp [Action.actor]⟩
    cases statement_of_next command with
    | @transfer job => cases job <;> rfl
    | _ => rfl
  | _ => exact Or.inl ⟨rfl, by simp [Action.actor]⟩

theorem Ledger.step (ledger : Ledger self steps (state.threads self))
    (move : Move (queueProgram Tid size) state action after written) (acts : action.actor = self)
    (uncommitted : commits (after.threads self) = false) :
    Ledger self (steps ++ [⟨state, action, written, after⟩]) (after.threads self) := by
  obtain ⟨harmless, changed⟩ := harmless_step move acts uncommitted
  have own : ownSteps self (steps ++ [⟨state, action, written, after⟩]) =
      ownSteps self steps ++ [⟨state, action, written, after⟩] := by
    simp [ownSteps, acts]
  constructor
  · intro step member
    rw [own] at member
    rcases List.mem_append.mp member with earlier | last
    · exact ledger.harmless step earlier
    · rwa [List.mem_singleton.mp last]
  · intro cond
    rw [own, List.map_append, List.sum_append, List.map_singleton, List.sum_singleton]
    have total := (ledger.changed cond).add (changed cond)
    rwa [add_sub_cancel] at total

omit [Fintype Tid] in
/-- The steps of the other threads count for nothing. -/
theorem Ledger.foreign {place : Thread Cond (Point size)} (ledger : Ledger self steps place)
    (different : self ≠ action.actor) : Ledger self (steps ++ [⟨state, action, written, after⟩]) place := by
  have same : ownSteps self (steps ++ [⟨state, action, written, after⟩]) = ownSteps self steps := by
    simp [ownSteps, different.symm]
  exact ⟨same ▸ ledger.harmless, same ▸ ledger.changed⟩

theorem accounted_foreign (accounted : Accounted self steps state)
    (move : Move (queueProgram Tid size) state action after written) (different : self ≠ action.actor) :
    Accounted self (steps ++ [⟨state, action, written, after⟩]) after := by
  have foreign : ∀ note, (self, note) ∉ written := by
    intro note member
    obtain ⟨chosen, rfl⟩ := mover_of_note move member
    exact different rfl
  have waking (place : Thread Cond (Point size)) (busy : place ≠ .idle) : place.wake ≠ .idle := by
    cases place <;> simp_all [Thread.wake]
  simp only [Accounted, List.flatMap_append, List.flatMap_singleton, returnsOf_append, returnsOf_foreign foreign,
    List.append_nil] at accounted ⊢
  split at accounted
  · intro uncommitted
    rw [read_of_foreign commits_wake move different] at uncommitted
    have ledger : Ledger self (steps ++ [⟨state, action, written, after⟩]) (state.threads self) :=
      (accounted uncommitted).foreign different
    refine ⟨ledger.harmless, fun cond => ?_⟩
    rw [read_of_foreign (announced_wake cond) move different]
    exact ledger.changed cond
  · intro idle fails
    have before : state.threads self = .idle := by
      by_contra busy
      exact kept_of_foreign waking move different busy idle
    exact (accounted before fails).foreign different
  · trivial

theorem accounted_own (accounted : Accounted self steps state)
    (move : Move (queueProgram Tid size) state action after written) (acts : action.actor = self) :
    Accounted self (steps ++ [⟨state, action, written, after⟩]) after := by
  simp only [Accounted, List.flatMap_append, List.flatMap_singleton, returnsOf_append] at accounted ⊢
  obtain ⟨silent, busy⟩ | ⟨code, running, returned⟩ := returnsOf_move move acts
  · rw [silent, List.append_nil]
    split at accounted
    · intro uncommitted
      refine (accounted ?_).step move acts uncommitted
      -- A committed operation would still be committed.
      by_contra committed
      obtain still | idle := commits_step move acts (by simpa using committed)
      · rw [still] at uncommitted
        cases uncommitted
      · exact busy idle
    · exact fun idle => absurd idle busy
    · trivial
  · rw [returned]
    rcases earlier : returnsOf self (steps.flatMap Step.written) with _ | ⟨first, _ | ⟨second, rest⟩⟩
    · rw [earlier] at accounted
      intro idle fails
      have uncommitted : commits (state.threads self) = false := by
        simpa [running, commits, committed] using fails
      have ledger := (accounted uncommitted).step move acts (by rw [idle]; rfl)
      rwa [idle] at ledger
    · trivial
    · trivial

theorem accounted_step (accounted : Accounted self steps state)
    (move : Move (queueProgram Tid size) state action after written) :
    Accounted self (steps ++ [⟨state, action, written, after⟩]) after := by
  by_cases acts : action.actor = self
  · exact accounted_own accounted move acts
  · exact accounted_foreign accounted move (Ne.symm acts)

/-- A failed operation has changed nothing by the time it returns, however often it waited. -/
theorem failed_call_harmless {queue : Queue Tid} {earlier : List (Action Tid (Call size))} {notes : List (Tid × Note)}
    {begin final : State Tid Cond (Queue Tid) (Point size)} {code : ErrorCode}
    (run : (queueMachine Tid size).Run (initial queue) earlier notes begin)
    (call : WholeCall self code begin steps final) (fails : code.value ≠ 0) :
    (∀ step ∈ ownSteps self steps, Harmless self step) ∧
      (∀ cond, ((ownSteps self steps).map (change cond)).sum ≡ 0 [ZMOD 2 ^ 64]) ∧ final.owner ≠ some self := by
  have accounted : Accounted self steps final := by
    refine call.path.invariant (Accounted self) (fun _ => ?_) fun _ _ _ _ _ held step =>
      accounted_step held (move_of_step step)
    rw [call.begins]
    exact ⟨fun _ member => (nomatch member), fun _ => Int.ModEq.refl _⟩
  have exclusive : Exclusive Holds Parks final := by
    refine (run.append call.path.run).invariant (fun _ state => Exclusive Holds Parks state) ?_
      fun _ _ _ _ _ held step => exclusive_step (queue_disciplined Tid) held (move_of_step step)
    exact fun _ => by simp [initial, Admits]
  have ledger : Ledger self steps .idle := by
    have whole := accounted
    unfold Accounted at whole
    rw [call.returns] at whole
    exact whole call.ends (by rintro rfl; exact fails rfl)
  refine ⟨ledger.harmless, ledger.changed, ?_⟩
  simpa only [call.ends, Admits] using exclusive self

theorem failed_call_harmless_aborted :
    ∃ (steps : List (QueueStep (Fin 2) 1)) (final : State (Fin 2) Cond (Queue (Fin 2)) (Point 1)),
    WholeCall (0 : Fin 2) .queueAbort (initial (freshQueue (Fin 2) 1 2 [0, 0])) steps final ∧
      ((ownSteps 0 steps).map (change .condPop)).sum ≡ 0 [ZMOD 2 ^ 64] ∧ final.owner ≠ some 0 := by
  have traces : ((queueMachine (Fin 2) 1).trace (initial (freshQueue (Fin 2) 1 2 [0, 0]))
      (sleepThenAbort ++ [.step 1 ∅, .step 1 ∅, .reacquire 0] ++ List.replicate 5 (.step 0 ∅))).isSome = true := by
    decide
  have call : WholeCall (0 : Fin 2) .queueAbort (initial (freshQueue (Fin 2) 1 2 [0, 0]))
      ((Machine.trace _ _ _).get traces).1 ((Machine.trace _ _ _).get traces).2 :=
    ⟨Machine.path_of_isSome traces, rfl, rfl, rfl⟩
  have outcome := failed_call_harmless Machine.Run.start call (by decide)
  exact ⟨_, _, call, outcome.2.1 .condPop, outcome.2.2⟩

end Calls
end PosixC.Queue
