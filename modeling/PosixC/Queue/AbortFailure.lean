import PosixC.Queue.Abort

/-! What an abort does to the operations it finds blocked.

A woken operation looks at the flag only while its waiting loop still holds it
back. Whether it fails is therefore decided by the state of the ring buffer at
the moment it regains the mutex, and not by the abort alone.
-/

set_option autoImplicit false
set_option linter.dupNamespace false

namespace PosixC.Queue

open Foundation Foundation.Monitor

section Calls

variable {Tid : Type} [DecidableEq Tid]

def callNotes (self : Tid) : List (Tid × Note) → List Note
  | [] => []
  | (writer, note) :: rest =>
      if writer = self then
        match note with
        | .returned code => [.returned code]
        | .pushed elem => .pushed elem :: callNotes self rest
        | .popped out => .popped out :: callNotes self rest
      else callNotes self rest

def Returns (self : Tid) (notes : List (Tid × Note)) : Prop := ∃ code, (self, .returned code) ∈ notes

variable {self : Tid} {notes written : List (Tid × Note)}

theorem callNotes_append_of_returns (returns : Returns self notes) :
    callNotes self (notes ++ written) = callNotes self notes := by
  obtain ⟨code, member⟩ := returns
  induction notes with
  | nil => cases member
  | cons entry rest ih =>
    obtain ⟨writer, note⟩ := entry
    by_cases same : writer = self
    · subst same
      cases note with
      | returned other => simp [callNotes]
      | pushed elem => simp [callNotes, ih (by simpa using member)]
      | popped out => simp [callNotes, ih (by simpa using member)]
    · have later : (self, Note.returned code) ∈ rest := by simpa [Ne.symm same] using member
      simp [callNotes, same, ih later]

theorem callNotes_append (silent : ¬ Returns self notes) :
    callNotes self (notes ++ written) = callNotes self notes ++ callNotes self written := by
  induction notes with
  | nil => rfl
  | cons entry rest ih =>
    have quiet : ¬ Returns self rest := fun ⟨code, member⟩ => silent ⟨code, List.mem_cons_of_mem _ member⟩
    obtain ⟨writer, note⟩ := entry
    by_cases same : writer = self
    · subst same
      cases note with
      | returned code => exact absurd ⟨code, List.mem_cons_self ..⟩ silent
      | pushed elem => simp [callNotes, ih quiet]
      | popped out => simp [callNotes, ih quiet]
    · simp [callNotes, same, ih quiet]

theorem callNotes_foreign (foreign : ∀ note, (self, note) ∉ notes) : callNotes self notes = [] := by
  induction notes with
  | nil => rfl
  | cons entry rest ih =>
    obtain ⟨writer, note⟩ := entry
    have different : writer ≠ self := fun same => foreign note (same ▸ List.mem_cons_self ..)
    simp [callNotes, different, ih fun note member => foreign note (List.mem_cons_of_mem _ member)]

omit [DecidableEq Tid] in
theorem returns_append : Returns self (notes ++ written) ↔ Returns self notes ∨ Returns self written := by
  simp only [Returns, List.mem_append, exists_or]

omit [DecidableEq Tid] in
theorem not_returns_nil : ¬ Returns self [] := by
  rintro ⟨code, member⟩
  cases member

end Calls

section Waiting

variable {Tid : Type} {size : Nat}

def InAbort : Point size → Prop
  | .abortSet | .abortPop | .abortPush => True
  | _ => False

theorem InAbort.holds {point : Point size} (inside : InAbort point) : Holds point := by
  cases point <;> trivial

variable [DecidableEq Tid] [Fintype Tid] {state after : State Tid Cond (Queue Tid) (Point size)}
  {action : Action Tid (Call size)} {notes written : List (Tid × Note)} {aborter self : Tid} {job : Job size}

def Overseen (aborter : Tid) (state : State Tid Cond (Queue Tid) (Point size)) : Prop :=
  (∃ point, InAbort point ∧ state.threads aborter = .running point) ∨ Quiet state

theorem overseen_step (aborting : Aborting state) (overseen : Overseen aborter state)
    (step : (queueMachine Tid size).step state action = some (after, written)) : Overseen aborter after := by
  have move := move_of_step step
  obtain ⟨point, inside, running⟩ | quiet := overseen
  · cases own : action.own aborter with
    | false =>
      rcases thread_of_move move own with ⟨_, _, _, idle, _⟩ | same | same
      · cases running.symm.trans idle
      · exact Or.inl ⟨point, inside, same.trans running⟩
      · exact Or.inl ⟨point, inside, by rw [same, running]; rfl⟩
    | true =>
      obtain ⟨chosen, rfl⟩ := step_of_own move running own
      cases point with
      | abortSet =>
        rw [step_running running] at step
        cases step
        exact Or.inl ⟨.abortPop, trivial, setThread_self ..⟩
      | abortPop =>
        rw [step_running running] at step
        cases step
        exact Or.inl ⟨.abortPush, trivial, setThread_self ..⟩
      | abortPush => exact Or.inr (quiet_of_abort aborting running step)
      | _ => exact absurd inside id
  · exact Or.inr (quiet_move quiet move)

/-- Until it regains the mutex, the operation an abort found blocked stays where
it was and does nothing; afterwards its thread never waits again. -/
structure Pending (aborter waiter : Tid) (job : Job size) (since : List (Tid × Note))
    (state : State Tid Cond (Queue Tid) (Point size)) : Prop where
  aborting : Aborting state
  overseen : Overseen aborter state
  place : (blockedIn (state.threads waiter) = some job ∧ ∀ note, (waiter, note) ∉ since) ∨
    (Quiet state ∧ blockedIn (state.threads waiter) = none)

omit [DecidableEq Tid] [Fintype Tid] in
theorem quiet_of_free (aborting : Aborting state) (overseen : Overseen aborter state) (free : state.owner = none) :
    Quiet state := by
  obtain ⟨point, inside, running⟩ | quiet := overseen
  · have own := (aborting.exclusive.own running).mpr inside.holds
    cases free.symm.trans own
  · exact quiet

omit [DecidableEq Tid] [Fintype Tid] in
theorem waits_of_blockedIn {thread : Thread Cond (Point size)} (blocked : blockedIn thread = some job) :
    ∃ cond, thread = .asleep cond (.resume job) ∨ thread = .woken cond (.resume job) := by
  unfold blockedIn at blocked
  split at blocked
  · cases blocked; exact ⟨_, Or.inl rfl⟩
  · cases blocked; exact ⟨_, Or.inr rfl⟩
  · cases blocked

omit [DecidableEq Tid] [Fintype Tid] in
theorem blockedIn_wake (thread : Thread Cond (Point size)) : blockedIn thread.wake = blockedIn thread := by
  cases thread with
  | asleep cond point => cases point <;> rfl
  | _ => rfl

theorem awake_of_quiet (quiet : Quiet state) (awake : blockedIn (state.threads self) = none)
    (move : Move (queueProgram Tid size) state action after written) : blockedIn (after.threads self) = none := by
  have calm := quiet_move quiet move
  cases place : blockedIn (after.threads self) with
  | none => rfl
  | some other =>
    obtain ⟨cond, asleep | woken⟩ := waits_of_blockedIn place
    · exact absurd asleep (calm.awake cond self _)
    · rcases woken_of_move move woken with before | before
      · rw [before] at awake
        cases awake
      · exact absurd before (quiet.awake cond self _)

theorem pending_step {since : List (Tid × Note)} (pending : Pending aborter self job since state)
    (step : (queueMachine Tid size).step state action = some (after, written)) :
    Pending aborter self job (since ++ written) after := by
  have move := move_of_step step
  refine ⟨aborting_step pending.aborting step, overseen_step pending.aborting pending.overseen step, ?_⟩
  obtain ⟨blocked, silent⟩ | ⟨quiet, awake⟩ := pending.place
  · have waits := waits_of_blockedIn blocked
    cases own : action.own self with
    | true =>
      -- A thread inside the wait has one move of its own.
      cases move with
      | call | spurious => cases own
      | @reacquire mover _ _ _ free =>
        obtain rfl : mover = self := by simpa [Action.own] using own
        have quiet := quiet_of_free pending.aborting pending.overseen free
        refine Or.inr ⟨quiet_move quiet (move_of_step step), ?_⟩
        simp [blockedIn]
      | lock running | tryLock running | busy running | unlock running | wait running | signal running
      | broadcast running | assign running | finish running =>
        obtain rfl : _ = self := by simpa [Action.own] using own
        obtain ⟨cond, asleep | woken⟩ := waits
        · cases running.symm.trans asleep
        · cases running.symm.trans woken
    | false =>
      refine Or.inl ⟨?_, ?_⟩
      · rcases thread_of_move move own with ⟨_, _, _, idle, _⟩ | same | same
        · rw [idle] at blocked
          cases blocked
        · rwa [same]
        · rwa [same, blockedIn_wake]
      · intro note member
        rcases List.mem_append.mp member with member | member
        · exact silent note member
        · obtain ⟨chosen, rfl⟩ := mover_of_note move member
          simp [Action.own] at own
  · exact Or.inr ⟨quiet_move quiet move, awake_of_quiet quiet awake move⟩

end Waiting

section Outcome

variable {Tid : Type} {size : Nat}

def remainder (queue : Queue Tid) : Point size → List Note
  | .resume job | .test job =>
      if job.blocked queue then [.returned .queueAbort] else [job.note queue, .returned .queueSuccess]
  | .transfer job => [job.note queue, .returned .queueSuccess]
  | .signal _ => [.returned .queueSuccess]
  | .unlock code | .fail code | .leave code => [.returned code]
  | _ => []

def Finishing : Point size → Prop
  | .resume _ | .test _ | .transfer _ | .signal _ | .unlock _ | .fail _ | .leave _ => True
  | _ => False

theorem note_congr {queue other : Queue Tid} (buffer : queue.buffer = other.buffer)
    (element : queue.elemSize = other.elemSize) (job : Job size) : job.note queue = job.note other := by
  cases job <;> simp only [Job.note, Queue.copied, buffer, element]

theorem remainder_congr {queue other : Queue Tid} (buffer : queue.buffer = other.buffer)
    (limit : queue.queueCapacity = other.queueCapacity) (element : queue.elemSize = other.elemSize)
    (point : Point size) : remainder queue point = remainder other point := by
  cases point <;> simp only [remainder, blocked_congr buffer limit, note_congr buffer element]

variable [DecidableEq Tid] [Fintype Tid] {state after : State Tid Cond (Queue Tid) (Point size)}
  {action : Action Tid (Call size)} {written : List (Tid × Note)} {self : Tid}

theorem buffer_of_move (exclusive : Exclusive Holds Parks state) (own : state.owner = some self)
    (move : Move (queueProgram Tid size) state action after written) (foreign : action.own self = false) :
    after.shared.buffer = state.shared.buffer ∧ after.shared.queueCapacity = state.shared.queueCapacity ∧
      after.shared.elemSize = state.shared.elemSize := by
  cases move with
  | @assign mover _ point _ _ _ running command =>
    have different : mover ≠ self := by simpa [Action.own] using foreign
    have outside : ¬ Holds point := fun inside =>
      different (Option.some.inj (((exclusive.own running).mpr inside).symm.trans own))
    cases statement_of_next command with
    | null | fail => exact ⟨rfl, rfl, rfl⟩
    | _ => exact absurd trivial outside
  | _ => exact ⟨rfl, rfl, rfl⟩

theorem remainder_of_move (exclusive : Exclusive Holds Parks state) {point : Point size}
    (running : state.threads self = .running point) (finishing : Finishing point)
    (move : Move (queueProgram Tid size) state action after written) (foreign : action.own self = false) :
    remainder after.shared point = remainder state.shared point := by
  by_cases inside : Holds point
  · have own := (exclusive.own running).mpr inside
    obtain ⟨buffer, limit, element⟩ := buffer_of_move exclusive own move foreign
    exact remainder_congr buffer limit element point
  · cases point <;> first | rfl | exact absurd trivial inside

/-- The call of a thread writes `outcome` in all: it is on the way there, or it
has returned. -/
def Completes (self : Tid) (outcome : List Note) (notes : List (Tid × Note))
    (state : State Tid Cond (Queue Tid) (Point size)) : Prop :=
  (¬ Returns self notes ∧ ∃ point, state.threads self = .running point ∧ Finishing point ∧
    callNotes self notes ++ remainder state.shared point = outcome) ∨
  (Returns self notes ∧ callNotes self notes = outcome)

/-- The next statement of a finishing operation, while the flag is up: it writes
what the remainder says. -/
theorem remainder_own_step (quiet : Quiet state) {chosen : Finset Tid} {point : Point size}
    (running : state.threads self = .running point) (finishing : Finishing point)
    (step : (queueMachine Tid size).step state (.step self chosen) = some (after, written)) :
    (¬ Returns self written ∧ ∃ next, after.threads self = .running next ∧ Finishing next ∧
      callNotes self written ++ remainder after.shared next = remainder state.shared point) ∨
    (Returns self written ∧ callNotes self written = remainder state.shared point) := by
  cases move_of_step step with
  | lock before command _ =>
    cases running.symm.trans before
    cases statement_of_next command <;> exact absurd finishing id
  | tryLock before command _ | busy before command _ =>
    cases running.symm.trans before
    cases statement_of_next command
    exact absurd finishing id
  | wait before command _ =>
    cases running.symm.trans before
    cases statement_of_next command
    exact absurd finishing id
  | broadcast before command =>
    cases running.symm.trans before
    cases statement_of_next command <;> exact absurd finishing id
  | unlock before command _ =>
    cases running.symm.trans before
    cases statement_of_next command with
    | unlock target =>
      refine Or.inl ⟨not_returns_nil, _, setThread_self .., ?_⟩
      rcases target with rfl | rfl <;> exact ⟨trivial, rfl⟩
  | signal before command _ =>
    cases running.symm.trans before
    cases statement_of_next command with
    | signal => exact Or.inl ⟨not_returns_nil, _, setThread_self .., trivial, rfl⟩
  | finish before command =>
    cases running.symm.trans before
    cases statement_of_next command with
    | leave => exact Or.inr ⟨⟨_, List.mem_singleton_self _⟩, by simp [callNotes, remainder]⟩
  | assign before command =>
    cases running.symm.trans before
    apply Or.inl
    cases statement_of_next command with
    | null | refuse | tryProceed | abortSet => exact absurd finishing id
    -- The flag is up, so the waiting loop is not entered again.
    | announce _ lowered =>
      rw [quiet.aborted] at lowered
      cases lowered
    -- Here the flag decides, and in the next case the ring buffer does.
    | giveUp blocked _ =>
      exact ⟨not_returns_nil, _, setThread_self .., trivial, by simp [callNotes, remainder, blocked]⟩
    | proceed free =>
      exact ⟨not_returns_nil, _, setThread_self .., trivial, by simp [callNotes, remainder, free]⟩
    | withdraw =>
      refine ⟨not_returns_nil, _, setThread_self .., trivial, ?_⟩
      exact remainder_congr (withdraw_buffer ..) (withdraw_queueCapacity ..) (withdraw_elemSize ..) (.test _)
    | @transfer job =>
      refine ⟨?_, _, setThread_self .., trivial, ?_⟩
      · cases job <;> simp [Returns, Job.note]
      · cases job <;> simp [callNotes, remainder, Job.note]
    | fail => exact ⟨not_returns_nil, _, setThread_self .., trivial, rfl⟩

theorem completes_step {outcome : List Note} {notes : List (Tid × Note)} (quiet : Quiet state)
    (completes : Completes self outcome notes state)
    (step : (queueMachine Tid size).step state action = some (after, written)) :
    Completes self outcome (notes ++ written) after := by
  have move := move_of_step step
  obtain ⟨silent, point, running, finishing, rest⟩ | ⟨returns, done⟩ := completes
  · rw [Completes, returns_append, callNotes_append silent]
    cases own : action.own self with
    | true =>
      obtain ⟨chosen, rfl⟩ := step_of_own move running own
      rcases remainder_own_step quiet running finishing step with ⟨mute, next, there, goes, written⟩ | ⟨ends, written⟩
      · refine Or.inl ⟨fun either => either.elim silent mute, next, there, goes, ?_⟩
        rw [List.append_assoc, written, rest]
      · exact Or.inr ⟨Or.inr ends, by rw [written, rest]⟩
    | false =>
      have foreign : ∀ note, (self, note) ∉ written := by
        intro note member
        obtain ⟨chosen, rfl⟩ := mover_of_note move member
        simp [Action.own] at own
      have there : after.threads self = .running point := by
        rcases thread_of_move move own with ⟨_, _, _, idle, _⟩ | same | same
        · cases running.symm.trans idle
        · rw [same, running]
        · rw [same, running]; rfl
      refine Or.inl ⟨?_, point, there, finishing, ?_⟩
      · rintro (before | ⟨code, member⟩)
        · exact silent before
        · exact foreign _ member
      · rw [callNotes_foreign foreign, List.append_nil,
          remainder_of_move quiet.exclusive running finishing move own, rest]
  · exact Or.inr ⟨returns_append.mpr (Or.inl returns), (callNotes_append_of_returns returns).trans done⟩

end Outcome

section Reachable

variable {Tid : Type} [DecidableEq Tid] [Fintype Tid] {size : Nat}
  {aborting state : State Tid Cond (Queue Tid) (Point size)} {aborter self : Tid} {job : Job size}

theorem pending_run {queue : Queue Tid} {before later : List (Action Tid (Call size))}
    {notes since : List (Tid × Note)} (reached : (queueMachine Tid size).Run (initial queue) before notes aborting)
    {at_ : Point size} (running : aborting.threads aborter = .running at_) (inside : InAbort at_)
    (blocked : blockedIn (aborting.threads self) = some job)
    (run : (queueMachine Tid size).Run aborting later since state) : Pending aborter self job since state :=
  run.invariant (Pending aborter self job)
    ⟨aborting_run reached, Or.inl ⟨at_, inside, running⟩, Or.inl ⟨blocked, fun _ member => nomatch member⟩⟩
    fun _ _ _ _ _ => pending_step

theorem completes_run {outcome : List Note} {actions : List (Action Tid (Call size))} {further : List (Tid × Note)}
    {regained final : State Tid Cond (Queue Tid) (Point size)} (quiet : Quiet regained)
    (begins : Completes self outcome [] regained)
    (run : (queueMachine Tid size).Run regained actions further final) :
    Quiet final ∧ Completes self outcome further final :=
  run.invariant (fun notes state => Quiet state ∧ Completes self outcome notes state) ⟨quiet, begins⟩
    fun _ _ _ _ _ both step => ⟨quiet_move both.1 (move_of_step step), completes_step both.1 both.2 step⟩

/-- An operation that an abort finds inside `pthread_cond_wait` is never stuck:
until it has the mutex again, it or the owner of the mutex can move, and from
then on its call takes at most seven more steps of its thread. It fails with
`QUEUE_ABORT`, without a transfer, exactly when the queue is still full (for a
push) or empty (for a pop) in the state in which it regains the mutex. -/
theorem abort_fails_blocked_iff {queue : Queue Tid} {before : List (Action Tid (Call size))}
    {notes : List (Tid × Note)} (reached : (queueMachine Tid size).Run (initial queue) before notes aborting)
    {at_ : Point size} (running : aborting.threads aborter = .running at_) (inside : InAbort at_)
    (blocked : blockedIn (aborting.threads self) = some job) :
    (∀ later since state, (queueMachine Tid size).Run aborting later since state →
      blockedIn (state.threads self) = some job → CanMove (queueProgram Tid size) state self ∨
        ∃ owner, state.owner = some owner ∧ CanMove (queueProgram Tid size) state owner) ∧
    ∀ later since regaining regained written, (queueMachine Tid size).Run aborting later since regaining →
      (queueMachine Tid size).step regaining (.reacquire self) = some (regained, written) →
      (∀ note, (self, note) ∉ since) ∧
      ∀ actions further final, (queueMachine Tid size).Run regained actions further final →
        (¬ Returns self further → actions.countP (Action.own self) ≤ 7 ∧
          (CanMove (queueProgram Tid size) final self ∨
            ∃ owner, final.owner = some owner ∧ CanMove (queueProgram Tid size) final owner)) ∧
        (Returns self further →
          (callNotes self further = [.returned .queueAbort] ↔ job.blocked regaining.shared = true)) := by
  refine ⟨fun later since state run still => ?_, fun later since regaining regained written run step => ?_⟩
  · have pending := pending_run reached running inside blocked run
    have exclusive := pending.aborting.exclusive
    obtain ⟨point, within, there⟩ | quiet := pending.overseen
    -- The abort itself owns the mutex and is awake.
    · have own := (exclusive.own there).mpr within.holds
      refine Or.inr ⟨aborter, own, ?_⟩
      exact canMove_of_exclusive (queue_disciplined Tid) exclusive (by simp [there]) (by simp [there]) (Or.inr own)
    · refine canMove_or_owner (queue_disciplined Tid) exclusive ?_ fun cond => quiet.awake cond self
      intro idle
      rw [idle] at still
      cases still
  · have pending := pending_run reached running inside blocked run
    cases move_of_step step with
    | @reacquire _ cond point woken free =>
      obtain ⟨_, other, _, rfl⟩ := woken ▸ pending.aborting.exclusive self
      have quiet := quiet_of_free pending.aborting pending.overseen free
      have again := quiet_move quiet (move_of_step step)
      obtain ⟨same, silent⟩ | ⟨_, awake⟩ := pending.place
      · rw [woken] at same
        cases same
        refine ⟨silent, fun actions further final onwards => ?_⟩
        have begins : Completes self (remainder regaining.shared (.resume job)) []
            { regaining.setThread self (.running (.resume job)) with owner := some self } :=
          Or.inl ⟨not_returns_nil, _, setThread_self .., trivial, rfl⟩
        obtain ⟨calm, completes⟩ := completes_run again begins onwards
        refine ⟨fun silent => ⟨?_, ?_⟩, fun returns => ?_⟩
        · have bound := own_steps_bounded queue_descending again onwards self
            (by rintro _ member ⟨code, rfl⟩; exact silent ⟨code, member⟩)
          rwa [setThread_self] at bound
        · obtain ⟨_, point, there, _⟩ | ⟨returns, _⟩ := completes
          · exact canMove_or_owner (queue_disciplined Tid) calm.exclusive (by simp [there]) (by simp [there])
          · exact absurd returns silent
        · obtain ⟨silent, _⟩ | ⟨_, done⟩ := completes
          · exact absurd returns silent
          · rw [done, remainder]
            cases job.blocked regaining.shared <;> cases job <;> simp [Job.note]
      · rw [woken] at awake
        cases awake

theorem abort_fails_blocked_popper :
    ∃ aborting notes regaining since regained final further,
      (queueMachine (Fin 2) 1).Run (initial (freshQueue (Fin 2) 1 2 [0, 0])) sleepThenAbort notes aborting ∧
      (queueMachine (Fin 2) 1).Run aborting [.step 1 ∅, .step 1 ∅] since regaining ∧
      (queueMachine (Fin 2) 1).step regaining (.reacquire 0) = some (regained, []) ∧
      (queueMachine (Fin 2) 1).Run regained (List.replicate 5 (.step 0 ∅)) further final ∧
      callNotes 0 further = [.returned .queueAbort] := by
  have sleeps : ((queueMachine (Fin 2) 1).exec (initial (freshQueue (Fin 2) 1 2 [0, 0])) sleepThenAbort).isSome =
      true := by decide
  have reached := Machine.run_of_isSome sleeps
  have aborts : State.threads ((Machine.exec _ _ _).get sleeps).1 1 = .running .abortPush := rfl
  have waits : blockedIn (State.threads ((Machine.exec _ _ _).get sleeps).1 0) = some (.pop true) := rfl
  have ends : ((queueMachine (Fin 2) 1).exec ((Machine.exec _ _ _).get sleeps).1 [.step 1 ∅, .step 1 ∅]).isSome =
      true := rfl
  have run := Machine.run_of_isSome ends
  have regains : ((queueMachine (Fin 2) 1).step ((Machine.exec _ _ _).get ends).1 (.reacquire 0)).isSome = true := rfl
  have step : (queueMachine (Fin 2) 1).step ((Machine.exec _ _ _).get ends).1 (.reacquire 0) =
      some ((Option.get _ regains).1, []) := (Option.some_get regains).symm
  have finishes : ((queueMachine (Fin 2) 1).exec (Option.get _ regains).1 (List.replicate 5 (.step 0 ∅))).isSome =
      true := rfl
  have onwards := Machine.run_of_isSome finishes
  have outcome := (abort_fails_blocked_iff reached aborts trivial waits).2 _ _ _ _ _ run step
  have returns : Returns (0 : Fin 2) ((Machine.exec _ _ _).get finishes).2 := ⟨.queueAbort, List.mem_singleton_self _⟩
  exact ⟨_, _, _, _, _, _, _, reached, run, step, onwards, ((outcome.2 _ _ _ onwards).2 returns).mpr rfl⟩

def pushBeforeResume (popper aborter : Fin 2) : List (Action (Fin 2) (Call 1)) :=
  List.replicate 3 (.step aborter ∅) ++
    .call aborter (.queuePush (some #v[7])) :: List.replicate 6 (.step aborter ∅) ++
    .reacquire popper :: List.replicate 6 (.step popper ∅)

theorem aborted_pop_succeeds :
    ∃ aborting notes since state,
      (queueMachine (Fin 2) 1).Run (initial (freshQueue (Fin 2) 1 2 [0, 0])) sleepThenAbort notes aborting ∧
      aborting.threads 1 = .running .abortPush ∧ blockedIn (aborting.threads 0) = some (.pop true) ∧
      (queueMachine (Fin 2) 1).Run aborting (pushBeforeResume 0 1) since state ∧
      callNotes 0 since = [.popped (some [0]), .returned .queueSuccess] := by
  have sleeps : ((queueMachine (Fin 2) 1).exec (initial (freshQueue (Fin 2) 1 2 [0, 0])) sleepThenAbort).isSome =
      true := by decide
  have resumes : ((queueMachine (Fin 2) 1).exec ((Machine.exec _ _ _).get sleeps).1 (pushBeforeResume 0 1)).isSome =
      true := by decide +kernel +revert
  have succeeds : callNotes 0 (Prod.snd ((Machine.exec _ _ _).get resumes)) =
      [.popped (some [0]), .returned .queueSuccess] := by decide +kernel +revert
  exact ⟨_, _, _, _, Machine.run_of_isSome sleeps, rfl, rfl, Machine.run_of_isSome resumes, succeeds⟩

end Reachable
end PosixC.Queue
