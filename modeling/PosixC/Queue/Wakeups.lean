import PosixC.Queue.Representation

/-! No wake-up is lost.

A popper waits for stored elements and a pusher for free slots. Each operation
sends one signal, which a newcomer may make useless; the count of woken threads
still covers what is available whenever somebody stays asleep.
-/

set_option autoImplicit false
set_option linter.dupNamespace false

namespace PosixC.Queue

open Foundation Foundation.Monitor

section Supply

variable {Tid : Type} {size : Nat}

def Queue.supply (queue : Queue Tid) : Cond → Nat
  | .condPop => queue.buffer.queueSize
  | .condPush => queue.queueCapacity - queue.buffer.queueSize

/-- A job inside its critical section takes one unit of the supply it waits for;
after its transfer it owes a signal for the unit it made available. -/
def credit (cond : Cond) : Point size → Nat
  | .test job | .sleep job | .resume job | .tryTest job | .transfer job => if job.waitsOn = cond then 1 else 0
  | .signal job => if job.signals = cond then 1 else 0
  | _ => 0

theorem supply_of_buffer {queue after : Queue Tid} (buffer : after.buffer = queue.buffer)
    (limit : after.queueCapacity = queue.queueCapacity) (cond : Cond) : after.supply cond = queue.supply cond := by
  cases cond <;> simp only [Queue.supply, buffer, limit]

theorem supply_blocked {queue : Queue Tid} {job : Job size} (blocked : job.blocked queue = true) :
    queue.supply job.waitsOn = 0 := by
  cases job with
  | push elem =>
    have full : queue.buffer.queueSize = queue.queueCapacity := by
      simpa [Job.blocked, queueIsFull] using blocked
    simp only [Job.waitsOn, Queue.supply]
    omega
  | pop wanted =>
    have empty : queue.buffer.queueSize = 0 := by
      simpa [Job.blocked, queueIsEmpty] using blocked
    exact empty

theorem supply_perform {capacity : Nat} (small : capacity < 2 ^ 64) {notes : List (Tid × Note)} {queue : Queue Tid}
    (tracks : Tracks capacity size notes queue) {job : Job size} (free : job.blocked queue = false) (cond : Cond) :
    (job.perform queue).supply cond + credit cond (.transfer job) = queue.supply cond + credit cond (.signal job) := by
  have bounded := tracks.represents.bounded
  have limit := tracks.queueCapacity
  cases job with
  | push elem =>
    have room : queue.buffer.queueSize ≠ queue.queueCapacity := by
      simpa [Job.blocked, queueIsFull] using free
    cases cond <;>
      simp only [Job.perform, Queue.supply, credit, Job.waitsOn, Job.signals, store_queueSize, store_queueCapacity] <;>
      rw [SizeT.add_exact (by omega)] <;> simp
    omega
  | pop wanted =>
    have some : queue.buffer.queueSize ≠ 0 := by
      simpa [Job.blocked, queueIsEmpty] using free
    cases cond <;>
      simp only [Job.perform, Queue.supply, credit, Job.waitsOn, Job.signals, remove_queueSize, remove_queueCapacity] <;>
      rw [SizeT.sub_exact (by omega)] <;> simp <;> omega

variable [DecidableEq Tid]

theorem queue_rationed {capacity : Nat} (small : capacity < 2 ^ 64) (cond : Cond) :
    Rationed (queueProgram Tid size) Holds Parks (Held capacity) cond (Queue.supply · cond) (credit cond) where
  assign := by
    intro notes queue self point after next written inside held command
    obtain ⟨tracks, ready⟩ := held
    cases statement_of_next command with
    | null | fail => exact absurd inside id
    -- A job that gives up drops its credit, but there was nothing to take.
    | @giveUp job blocked _ | @refuse job blocked =>
      by_cases mine : job.waitsOn = cond
      · exact Or.inl (mine ▸ supply_blocked blocked)
      · exact Or.inr (by simp only [credit, if_neg mine, le_refl])
    | proceed | tryProceed => exact Or.inr le_rfl
    | @announce job _ _ =>
      have kept := supply_of_buffer (announce_buffer queue job) (announce_queueCapacity queue job) cond
      exact Or.inr (by simp only [credit, kept, le_refl])
    | @withdraw job =>
      have kept := supply_of_buffer (withdraw_buffer queue job) (withdraw_queueCapacity queue job) cond
      exact Or.inr (by simp only [credit, kept, le_refl])
    | transfer => exact Or.inr (supply_perform small tracks ready cond).le
    | abortSet => exact Or.inr (by cases cond <;> exact le_rfl)
  outside := by
    intro queue self point after next written outside command
    cases statement_of_next command with
    | null => exact le_rfl
    | fail => exact (supply_of_buffer rfl rfl cond).le
    | _ => exact absurd trivial outside
  signal command := by
    generalize same : cond = on at command
    cases statement_of_next command with
    | @signal job => simp only [credit]; split <;> omega
  otherSignal different command := by
    cases statement_of_next command with
    | @signal job => simp only [credit, if_neg different, le_refl]
  otherBroadcast _ command := by
    cases statement_of_next command <;> exact le_rfl
  unlock command := by
    cases statement_of_next command with
    | unlock => rfl
  wait held command := by
    generalize same : cond = on at command
    cases statement_of_next command with
    | @sleep job => exact same ▸ supply_blocked held.2
  otherWait different command := by
    cases statement_of_next command with
    | @sleep job => simp only [credit, if_neg different]
  resume := by
    rintro _ ⟨job, rfl, rfl⟩
    simp only [credit, if_true, le_refl]

end Supply

section Reachable

variable {Tid : Type} [DecidableEq Tid] [Fintype Tid]

theorem created_covered {attempts : Attempts} {elemSize queueCapacity : UInt64} {queue : Queue Tid}
    {log : List ResourceEvent}
    (created : queueCreate attempts elemSize queueCapacity = (.queueSuccess, some queue, log)) (cond : Cond)
    {actions : List (Action Tid (Call elemSize.toNat))} {notes : List (Tid × Note)}
    {state : State Tid Cond (Queue Tid) (Point elemSize.toNat)}
    (run : (queueMachine Tid elemSize.toNat).Run (initial queue) actions notes state) :
    state.Covered cond (Queue.supply · cond) (credit cond) :=
  run_covered (queue_disciplined Tid) (queue_outline queueCapacity.toNat_lt (queueCreate_success created).1)
    (queue_rationed queueCapacity.toNat_lt cond) (created_tracks created) run

/-- The mutex is free and every thread is outside the queue or asleep in it. -/
def Stuck {size : Nat} (state : State Tid Cond (Queue Tid) (Point size)) : Prop :=
  state.owner = none ∧ ∀ self, state.threads self = .idle ∨ ∃ cond point, state.threads self = .asleep cond point

omit [DecidableEq Tid] in
theorem Stuck.wokens {size : Nat} {state : State Tid Cond (Queue Tid) (Point size)} (stuck : Stuck state)
    (cond : Cond) : state.wokens cond = ∅ := by
  apply Finset.eq_empty_of_forall_notMem
  intro self member
  rw [mem_wokens] at member
  rcases stuck.2 self with idle | ⟨on, point, asleep⟩
  · simp [idle, Thread.wokenOn] at member
  · simp [asleep, Thread.wokenOn] at member

/-- Whoever sleeps does so although all that is available is left to the woken. -/
theorem no_lost_wakeup {attempts : Attempts} {elemSize queueCapacity : UInt64} {queue : Queue Tid}
    {log : List ResourceEvent}
    (created : queueCreate attempts elemSize queueCapacity = (.queueSuccess, some queue, log))
    {actions : List (Action Tid (Call elemSize.toNat))} {notes : List (Tid × Note)}
    {state : State Tid Cond (Queue Tid) (Point elemSize.toNat)}
    (run : (queueMachine Tid elemSize.toNat).Run (initial queue) actions notes state) :
    (state.owner = none →
      ((state.sleepers .condPop).Nonempty → state.shared.buffer.queueSize ≤ (state.wokens .condPop).card) ∧
      ((state.sleepers .condPush).Nonempty →
        queueCapacity.toNat - state.shared.buffer.queueSize ≤ (state.wokens .condPush).card)) ∧
    (Stuck state →
      ((state.sleepers .condPop).Nonempty → state.shared.buffer.queueSize = 0) ∧
      ((state.sleepers .condPush).Nonempty → state.shared.buffer.queueSize = queueCapacity.toNat) ∧
      (1 ≤ queueCapacity.toNat → ¬ ((state.sleepers .condPop).Nonempty ∧ (state.sleepers .condPush).Nonempty))) := by
  have sound := created_sound created run
  have covered : state.owner = none → ∀ cond, (state.sleepers cond).Nonempty →
      state.shared.supply cond ≤ (state.wokens cond).card := by
    intro free cond asleep
    have enough := created_covered created cond run asleep
    rwa [credited_free state _ free, Nat.add_zero] at enough
  refine ⟨fun free => ⟨covered free .condPop, ?_⟩, fun stuck => ?_⟩
  · have limit := (sound.free free).queueCapacity
    exact limit ▸ covered free .condPush
  · have tracks := sound.free stuck.1
    have bounded := tracks.represents.bounded
    have limit := tracks.queueCapacity
    -- Nobody is woken any more, so nobody answers for what is available.
    have dry : ∀ cond, (state.sleepers cond).Nonempty → state.shared.supply cond = 0 := by
      intro cond asleep
      have enough := covered stuck.1 cond asleep
      rw [stuck.wokens cond, Finset.card_empty] at enough
      omega
    have popper : (state.sleepers .condPop).Nonempty → state.shared.buffer.queueSize = 0 := dry .condPop
    have pusher : (state.sleepers .condPush).Nonempty → state.shared.buffer.queueSize = queueCapacity.toNat := by
      intro asleep
      have : state.shared.queueCapacity - state.shared.buffer.queueSize = 0 := dry .condPush asleep
      omega
    refine ⟨popper, pusher, fun positive both => ?_⟩
    have := popper both.1
    have := pusher both.2
    omega

def scheduleWakeup {size : Nat} (elem : Vector UInt8 size) (first second pusher : Fin 3) :
    List (Action (Fin 3) (Call size)) :=
  .call first (.queuePop true) :: List.replicate 3 (.step first ∅) ++
    .call second (.queuePop true) :: List.replicate 3 (.step second ∅) ++
    .call pusher (.queuePush (some elem)) :: List.replicate 3 (.step pusher ∅) ++
    .step pusher {first} :: List.replicate 2 (.step pusher ∅)

theorem no_lost_wakeup_pair :
    ∃ state notes, (queueMachine (Fin 3) (1 : UInt64).toNat).Run (initial (freshQueue (Fin 3) 1 2 [0, 0]))
        (scheduleWakeup #v[7] 0 1 2) notes state ∧
      state.shared.buffer.queueSize = 1 ∧ (state.wokens .condPop).card = 1 ∧ (state.sleepers .condPop).Nonempty ∧
      state.shared.buffer.queueSize ≤ (state.wokens .condPop).card := by
  obtain ⟨state, notes, run, shown⟩ := @Machine.exists_run_of_any _ _ _ (queueMachine (Fin 3) (1 : UInt64).toNat)
    (scheduleWakeup #v[7] 0 1 2) (initial (freshQueue (Fin 3) 1 2 [0, 0])) (fun result => result.1.owner = none ∧
      result.1.shared.buffer.queueSize = 1 ∧ (result.1.wokens .condPop).card = 1 ∧ (result.1.sleepers .condPop).card = 1)
    (by decide)
  obtain ⟨free, size, woken, asleep⟩ := of_decide_eq_true shown
  have created : queueCreate allSucceed 1 2 = (.queueSuccess, some (freshQueue (Fin 3) 1 2 [0, 0]),
      [.acquire .queueBlock, .acquire .bufferBlock, .acquire .key, .acquire .mutex, .acquire .condPop,
        .acquire .condPush]) := rfl
  have sleeper : (state.sleepers .condPop).Nonempty := Finset.card_pos.mp (asleep ▸ Nat.one_pos)
  exact ⟨state, notes, run, size, woken, sleeper, ((no_lost_wakeup created run).1 free).1 sleeper⟩

end Reachable
end PosixC.Queue
