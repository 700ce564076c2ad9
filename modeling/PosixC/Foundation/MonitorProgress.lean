import PosixC.Foundation.MonitorCounting

/-! Progress of the threads of a monitor.

A rank that every statement of a call lowers bounds the number of steps the call
takes, and the mutex is the only thing a thread that is awake can wait for.
-/

set_option autoImplicit false

namespace PosixC.Foundation.Monitor

variable {Tid Cond Shared Local Call Note : Type}

def Action.own [DecidableEq Tid] (thread : Tid) : Action Tid Call → Bool
  | .step mover _ => decide (mover = thread)
  | .reacquire mover => decide (mover = thread)
  | _ => false

def Action.actor : Action Tid Call → Tid
  | .call thread _ | .step thread _ | .spurious thread | .reacquire thread => thread

theorem own_of_ne_actor [DecidableEq Tid] {action : Action Tid Call} {thread : Tid}
    (different : thread ≠ action.actor) : action.own thread = false := by
  cases action with
  | call | spurious => rfl
  | step | reacquire => simpa [Action.own, Action.actor] using Ne.symm different

section Tracing

variable [DecidableEq Tid] {program : Program Tid Cond Shared Local Call Note}
  {state after : State Tid Cond Shared Local} {action : Action Tid Call} {notes : List (Tid × Note)}

theorem asleep_setThread {thread other : Tid} {value : Thread Cond Local} {cond : Cond} {point : Local}
    (asleep : (state.setThread thread value).threads other = .asleep cond point) :
    (other = thread ∧ value = .asleep cond point) ∨ state.threads other = .asleep cond point := by
  by_cases same : other = thread
  · subst other
    exact Or.inl ⟨rfl, by simpa only [setThread_self] using asleep⟩
  · exact Or.inr (by simpa only [setThread_of_ne state thread value same] using asleep)

theorem asleep_of_wake {chosen : Finset Tid} {thread : Tid} {cond : Cond} {point : Local}
    (asleep : (state.wake chosen).threads thread = .asleep cond point) :
    thread ∉ chosen ∧ state.threads thread = .asleep cond point := by
  simp only [State.wake] at asleep
  split at asleep
  · cases before : state.threads thread <;> simp [before, Thread.wake] at asleep
  · next kept => exact ⟨kept, asleep⟩

theorem woken_setThread {thread other : Tid} {value : Thread Cond Local} {cond : Cond} {point : Local}
    (woken : (state.setThread thread value).threads other = .woken cond point) :
    (other = thread ∧ value = .woken cond point) ∨ state.threads other = .woken cond point := by
  by_cases same : other = thread
  · subst other
    exact Or.inl ⟨rfl, by simpa only [setThread_self] using woken⟩
  · exact Or.inr (by simpa only [setThread_of_ne state thread value same] using woken)

theorem woken_of_wake {chosen : Finset Tid} {thread : Tid} {cond : Cond} {point : Local}
    (woken : (state.wake chosen).threads thread = .woken cond point) :
    state.threads thread = .woken cond point ∨ state.threads thread = .asleep cond point := by
  simp only [State.wake] at woken
  split at woken
  · cases before : state.threads thread <;> simp [before, Thread.wake] at woken ⊢
    all_goals exact woken
  · exact Or.inl woken

variable [Fintype Tid] [DecidableEq Cond]

/-- Whoever sleeps after a move slept before it, or has just given up the mutex for it. -/
theorem asleep_of_move (move : Move program state action after notes) {thread : Tid} {cond : Cond} {next : Local}
    (asleep : after.threads thread = .asleep cond next) :
    state.threads thread = .asleep cond next ∨ ∃ point, state.threads thread = .running point ∧
      program.next thread point state.shared = .wait cond next ∧ state.owner = some thread := by
  cases move with
  | wait running command own =>
    obtain ⟨rfl, same⟩ | before := asleep_setThread asleep
    · cases same
      exact Or.inr ⟨_, running, command, own⟩
    · exact Or.inl before
  | signal | broadcast =>
    obtain ⟨_, same⟩ | before := asleep_setThread asleep
    · cases same
    · exact Or.inl (asleep_of_wake before).2
  | _ =>
    obtain ⟨_, same⟩ | before := asleep_setThread asleep
    · cases same
    · exact Or.inl before

theorem woken_of_move (move : Move program state action after notes) {thread : Tid} {cond : Cond} {next : Local}
    (woken : after.threads thread = .woken cond next) :
    state.threads thread = .woken cond next ∨ state.threads thread = .asleep cond next := by
  cases move with
  | spurious asleep =>
    obtain ⟨rfl, same⟩ | before := woken_setThread woken
    · cases same
      exact Or.inr asleep
    · exact Or.inl before
  | signal | broadcast =>
    obtain ⟨_, same⟩ | before := woken_setThread woken
    · cases same
    · exact woken_of_wake before
  | _ =>
    obtain ⟨_, same⟩ | before := woken_setThread woken
    · cases same
    · exact Or.inl before

def State.Deserted (state : State Tid Cond Shared Local) (cond : Cond) : Prop :=
  ∀ thread point, state.threads thread ≠ .asleep cond point

theorem deserted_move {cond : Cond} (deserted : state.Deserted cond)
    (stays : ∀ {thread point next}, state.owner = some thread → state.threads thread = .running point →
      program.next thread point state.shared ≠ .wait cond next)
    (move : Move program state action after notes) : after.Deserted cond := by
  intro thread next asleep
  obtain before | ⟨point, running, command, own⟩ := asleep_of_move move asleep
  · exact deserted thread next before
  · exact stays own running command

theorem deserted_broadcast (cond : Cond) (thread : Tid) (point : Local) :
    ((state.wake (state.sleepers cond)).setThread thread (.running point)).Deserted cond := by
  intro other next asleep
  obtain ⟨_, same⟩ | before := asleep_setThread asleep
  · cases same
  · obtain ⟨kept, sleeps⟩ := asleep_of_wake before
    exact kept ((mem_sleepers state cond).mpr (by simp [sleeps, Thread.asleepOn]))

def Command.leads (next : Local) : Command Cond Shared Local Note → Prop
  | .lock point | .unlock point | .signal _ point | .broadcast _ point | .assign _ point _ => point = next
  | .tryLock acquired busy => acquired = next ∨ busy = next
  | .wait _ _ | .finish _ => False

/-- Whoever runs at a point after a move was there before it, entered there,
resumes there, or got there by its own statement. -/
theorem running_of_move (move : Move program state action after notes) {thread : Tid} {next : Local}
    (running : after.threads thread = .running next) :
    state.threads thread = .running next ∨ (∃ call, program.enter state.shared call = some next) ∨
      (∃ cond, state.threads thread = .woken cond next) ∨
      ∃ point chosen, state.threads thread = .running point ∧ action = .step thread chosen ∧
        (program.next thread point state.shared).leads next := by
  cases move with
  | call _ entered =>
    obtain ⟨_, same⟩ | ⟨_, before⟩ := running_setThread running
    · cases same
      exact Or.inr (Or.inl ⟨_, entered⟩)
    · exact Or.inl before
  | reacquire woken _ =>
    obtain ⟨rfl, same⟩ | ⟨_, before⟩ := running_setThread running
    · cases same
      exact Or.inr (Or.inr (Or.inl ⟨_, woken⟩))
    · exact Or.inl before
  | spurious | wait | finish =>
    obtain ⟨_, same⟩ | ⟨_, before⟩ := running_setThread running
    · cases same
    · exact Or.inl before
  | tryLock at_ command | busy at_ command =>
    obtain ⟨rfl, same⟩ | ⟨_, before⟩ := running_setThread running
    · cases same
      exact Or.inr (Or.inr (Or.inr ⟨_, _, at_, rfl, by simp [command, Command.leads]⟩))
    · exact Or.inl before
  | signal at_ command | broadcast at_ command =>
    obtain ⟨rfl, same⟩ | ⟨_, before⟩ := running_setThread running
    · cases same
      exact Or.inr (Or.inr (Or.inr ⟨_, _, at_, rfl, by rw [command]; rfl⟩))
    · exact Or.inl (running_of_wake _ _ before)
  | lock at_ command | unlock at_ command | assign at_ command =>
    obtain ⟨rfl, same⟩ | ⟨_, before⟩ := running_setThread running
    · cases same
      exact Or.inr (Or.inr (Or.inr ⟨_, _, at_, rfl, by rw [command]; rfl⟩))
    · exact Or.inl before

theorem shared_of_move (move : Move program state action after notes) :
    after.shared = state.shared ∨ ∃ thread point next written,
      program.next thread point state.shared = .assign after.shared next written := by
  cases move with
  | assign _ command => exact Or.inr ⟨_, _, _, _, command⟩
  | _ => exact Or.inl rfl

theorem mover_of_note (move : Move program state action after notes) {thread : Tid} {note : Note}
    (written : (thread, note) ∈ notes) : ∃ chosen, action = .step thread chosen := by
  cases move with
  | assign | finish =>
    obtain ⟨_, _, same⟩ := List.mem_map.mp written
    cases same
    exact ⟨_, rfl⟩
  | _ => cases written

theorem step_of_own (move : Move program state action after notes) {thread : Tid} {point : Local}
    (running : state.threads thread = .running point) (own : action.own thread = true) :
    ∃ chosen, action = .step thread chosen := by
  cases action with
  | call | spurious => cases own
  | step mover chosen =>
    obtain rfl : mover = thread := by simpa [Action.own] using own
    exact ⟨chosen, rfl⟩
  | reacquire mover =>
    obtain rfl : mover = thread := by simpa [Action.own] using own
    cases move with
    | reacquire woken _ => cases running.symm.trans woken

/-- The thread that moves takes its new place and every other keeps its own, or is woken in it. -/
theorem thread_of_move (move : Move program state action after notes) {thread : Tid}
    (foreign : action.own thread = false) :
    (∃ call point, action = .call thread call ∧ state.threads thread = .idle ∧
      program.enter state.shared call = some point ∧ after.threads thread = .running point) ∨
    after.threads thread = state.threads thread ∨ after.threads thread = (state.threads thread).wake := by
  have kept : ∀ {mover value}, mover ≠ thread →
      (state.setThread mover value).threads thread = state.threads thread :=
    fun different => setThread_of_ne state _ _ different.symm
  -- A signal reaches the thread if it is among the chosen ones.
  have woken : ∀ {mover value chosen}, mover ≠ thread →
      ((state.wake chosen).setThread mover value).threads thread = state.threads thread ∨
      ((state.wake chosen).setThread mover value).threads thread = (state.threads thread).wake := by
    intro mover value chosen different
    rw [setThread_of_ne _ _ _ different.symm]
    simp only [State.wake]
    split
    · exact Or.inr rfl
    · exact Or.inl rfl
  cases move with
  | @call mover call point idle entered =>
    by_cases same : mover = thread
    · subst mover
      exact Or.inl ⟨_, _, rfl, idle, entered, setThread_self ..⟩
    · exact Or.inr (Or.inl (kept same))
  | @spurious mover cond point asleep =>
    by_cases same : mover = thread
    · subst mover
      exact Or.inr (Or.inr (by rw [setThread_self, asleep]; rfl))
    · exact Or.inr (Or.inl (kept same))
  | signal | broadcast => exact Or.inr (woken (by simpa [Action.own] using foreign))
  | _ => exact Or.inr (Or.inl (kept (by simpa [Action.own] using foreign)))

theorem kept_of_foreign {holds : Thread Cond Local → Prop} (waking : ∀ place, holds place → holds place.wake)
    (move : Move program state action after notes) {thread : Tid} (different : thread ≠ action.actor)
    (before : holds (state.threads thread)) : holds (after.threads thread) := by
  rcases thread_of_move move (own_of_ne_actor different) with ⟨_, _, rfl, _⟩ | same | woken
  · exact absurd rfl different
  · rwa [same]
  · rw [woken]
    exact waking _ before

theorem read_of_foreign {Value : Type} {read : Thread Cond Local → Value}
    (waking : ∀ place : Thread Cond Local, read place.wake = read place)
    (move : Move program state action after notes) {thread : Tid} (different : thread ≠ action.actor) :
    read (after.threads thread) = read (state.threads thread) :=
  have waked (place : Thread Cond Local) (same : read place = read (state.threads thread)) :
      read place.wake = read (state.threads thread) := (waking place).trans same
  kept_of_foreign waked move different rfl

def Command.arrives (place : Thread Cond Local) : Command Cond Shared Local Note → Prop
  | .lock next | .unlock next | .signal _ next | .broadcast _ next | .assign _ next _ => place = .running next
  | .tryLock acquired busy => place = .running acquired ∨ place = .running busy
  | .wait cond next => place = .asleep cond next
  | .finish _ => place = .idle

theorem place_of_own (move : Move program state action after notes) {thread : Tid} {point : Local}
    (running : state.threads thread = .running point) (own : action.own thread = true) :
    (program.next thread point state.shared).arrives (after.threads thread) := by
  obtain ⟨chosen, rfl⟩ := step_of_own move running own
  cases move with
  | tryLock before command _ =>
    cases running.symm.trans before
    rw [command]
    exact Or.inl (setThread_self ..)
  | busy before command _ =>
    cases running.symm.trans before
    rw [command]
    exact Or.inr (setThread_self ..)
  | lock before command | unlock before command | wait before command | signal before command
  | broadcast before command | assign before command | finish before command =>
    cases running.symm.trans before
    rw [command]
    exact setThread_self ..

theorem place_of_woken (move : Move program state action after notes) {thread : Tid} {cond : Cond} {point : Local}
    (woken : state.threads thread = .woken cond point) (own : action.own thread = true) :
    after.threads thread = .running point := by
  cases action with
  | call | spurious => cases own
  | step mover chosen =>
    obtain rfl : mover = thread := by simpa [Action.own] using own
    cases move <;> cases woken.symm.trans (by assumption)
  | reacquire mover =>
    obtain rfl : mover = thread := by simpa [Action.own] using own
    cases move with
    | reacquire before _ =>
      cases woken.symm.trans before
      exact setThread_self ..

def Command.result (shared : Shared) : Command Cond Shared Local Note → Shared
  | .assign after _ _ => after
  | _ => shared

theorem shared_of_own (move : Move program state action after notes) {thread : Tid} {point : Local}
    (running : state.threads thread = .running point) (own : action.own thread = true) :
    after.shared = (program.next thread point state.shared).result state.shared := by
  obtain ⟨chosen, rfl⟩ := step_of_own move running own
  cases move with
  | lock before command | tryLock before command | busy before command | unlock before command
  | wait before command | signal before command | broadcast before command | assign before command
  | finish before command =>
    cases running.symm.trans before
    rw [command]
    rfl

theorem shared_by_actor (move : Move program state action after notes) :
    after.shared = state.shared ∨ ∃ point next written, state.threads action.actor = .running point ∧
      program.next action.actor point state.shared = .assign after.shared next written := by
  cases move with
  | assign running command => exact Or.inr ⟨_, _, _, running, command⟩
  | _ => exact Or.inl rfl

theorem moves_of_actor (move : Move program state action after notes) :
    (∃ call point, state.threads action.actor = .idle ∧ program.enter state.shared call = some point ∧
      after.threads action.actor = .running point ∧ after.shared = state.shared) ∨
    (∃ cond point, state.threads action.actor = .asleep cond point ∧ after.threads action.actor = .woken cond point ∧
      after.shared = state.shared) ∨
    (∃ cond point, state.threads action.actor = .woken cond point ∧ after.threads action.actor = .running point ∧
      after.shared = state.shared) ∨
    ∃ point chosen, action = .step action.actor chosen ∧ state.threads action.actor = .running point ∧
      (program.next action.actor point state.shared).arrives (after.threads action.actor) ∧
      after.shared = (program.next action.actor point state.shared).result state.shared := by
  cases action with
  | call mover call =>
    cases move with
    | call idle entered => exact Or.inl ⟨_, _, idle, entered, setThread_self .., rfl⟩
  | spurious mover =>
    cases move with
    | spurious asleep => exact Or.inr (Or.inl ⟨_, _, asleep, setThread_self .., rfl⟩)
  | reacquire mover =>
    cases move with
    | reacquire woken _ => exact Or.inr (Or.inr (Or.inl ⟨_, _, woken, setThread_self .., rfl⟩))
  | step mover chosen =>
    obtain ⟨point, running⟩ : ∃ point, state.threads mover = .running point := by
      cases move <;> exact ⟨_, by assumption⟩
    have own : (Action.step mover chosen : Action Tid Call).own mover = true := by simp [Action.own]
    refine Or.inr (Or.inr (Or.inr ⟨point, chosen, rfl, running, ?_, ?_⟩))
    · exact place_of_own move running own
    · exact shared_of_own move running own

def Command.writes : Command Cond Shared Local Note → List Note
  | .assign _ _ notes | .finish notes => notes
  | _ => []

theorem notes_by_actor (move : Move program state action after notes) :
    notes = [] ∨ ∃ point, state.threads action.actor = .running point ∧
      notes = (program.next action.actor point state.shared).writes.map fun note => (action.actor, note) := by
  cases move with
  | assign running command | finish running command =>
    refine Or.inr ⟨_, running, ?_⟩
    simp only [Action.actor, command, Command.writes]
  | _ => exact Or.inl rfl

end Tracing

section Ranks

def Lowers (rank : Thread Cond Local → Nat) (final : Note → Prop) (point : Local) :
    Command Cond Shared Local Note → Prop
  | .lock next | .unlock next | .signal _ next | .broadcast _ next | .assign _ next _ =>
      rank (.running next) < rank (.running point)
  | .tryLock acquired busy =>
      rank (.running acquired) < rank (.running point) ∧ rank (.running busy) < rank (.running point)
  | .wait cond next => rank (.asleep cond next) < rank (.running point)
  | .finish notes => ∃ note ∈ notes, final note

variable [DecidableEq Tid] [Fintype Tid] [DecidableEq Cond]

/-- As long as the monitor is calm, every step of a thread lowers its rank. -/
structure Descending (program : Program Tid Cond Shared Local Call Note)
    (calm : State Tid Cond Shared Local → Prop) (rank : Thread Cond Local → Nat) (final : Note → Prop) : Prop where
  kept : ∀ {state after action notes}, calm state → Move program state action after notes → calm after
  enter : ∀ {shared call point}, program.enter shared call = some point → rank (.running point) ≤ rank .idle
  command : ∀ {state thread point}, calm state → state.threads thread = .running point →
    Lowers rank final point (program.next thread point state.shared)
  resume : ∀ {cond point}, rank (.running point) < rank (.woken cond point)
  wake : ∀ {cond point}, rank (.woken cond point) ≤ rank (.asleep cond point)

variable {program : Program Tid Cond Shared Local Call Note} {calm : State Tid Cond Shared Local → Prop}
  {rank : Thread Cond Local → Nat} {final : Note → Prop}
  {state after : State Tid Cond Shared Local} {action : Action Tid Call} {notes : List (Tid × Note)}

theorem rank_own_step (descending : Descending program calm rank final) (begins : calm state)
    (move : Move program state action after notes) {thread : Tid} (own : action.own thread = true)
    (silent : ∀ note, (thread, note) ∈ notes → ¬ final note) :
    rank (after.threads thread) < rank (state.threads thread) := by
  have lowers : ∀ {mover point}, state.threads mover = .running point →
      Lowers rank final point (program.next mover point state.shared) := descending.command begins
  cases move with
  | call | spurious => cases own
  | reacquire woken _ =>
    obtain rfl : _ = thread := by simpa [Action.own] using own
    rw [woken, setThread_self]
    exact descending.resume
  | finish running command =>
    obtain rfl : _ = thread := by simpa [Action.own] using own
    have rule := lowers running
    rw [command] at rule
    obtain ⟨note, member, ends⟩ := rule
    exact absurd ends (silent note (List.mem_map_of_mem member))
  | tryLock running command _ =>
    obtain rfl : _ = thread := by simpa [Action.own] using own
    have rule := lowers running
    rw [command] at rule
    simpa only [running, setThread_self] using rule.1
  | busy running command _ =>
    obtain rfl : _ = thread := by simpa [Action.own] using own
    have rule := lowers running
    rw [command] at rule
    simpa only [running, setThread_self] using rule.2
  | lock running command | unlock running command | wait running command | signal running command
  | broadcast running command | assign running command =>
    obtain rfl : _ = thread := by simpa [Action.own] using own
    have rule := lowers running
    rw [command] at rule
    simpa only [running, setThread_self, Lowers] using rule

theorem rank_other_step (descending : Descending program calm rank final)
    (move : Move program state action after notes) {thread : Tid} (foreign : action.own thread = false) :
    rank (after.threads thread) ≤ rank (state.threads thread) := by
  rcases thread_of_move move foreign with ⟨call, point, _, idle, entered, running⟩ | same | woken
  · rw [idle, running]
    exact descending.enter entered
  · rw [same]
  · rw [woken]
    cases state.threads thread with
    | asleep cond point => exact descending.wake
    | _ => exact le_rfl

/-- A thread whose call does not return takes no more steps than its rank. -/
theorem own_steps_bounded (descending : Descending program calm rank final) (begins : calm state)
    {actions : List (Action Tid Call)} (run : (monitor program).Run state actions notes after) (thread : Tid)
    (silent : ∀ note, (thread, note) ∈ notes → ¬ final note) :
    actions.countP (Action.own thread) ≤ rank (state.threads thread) := by
  have bound := run.bounded calm (fun entry => entry.1 = thread → ¬ final entry.2) (Action.own thread)
    (fun state => rank (state.threads thread)) ?_ begins ?_
  · omega
  · intro state action after written calmly step permitted
    have move := move_of_step step
    refine ⟨descending.kept calmly move, ?_⟩
    cases own : action.own thread with
    | true => exact rank_own_step descending calmly move own fun note member => permitted _ member rfl
    | false => exact rank_other_step descending move own
  · rintro ⟨writer, note⟩ member rfl
    exact silent note member

end Ranks

section Enabled

variable [DecidableEq Tid] [Fintype Tid] [DecidableEq Cond]
  {program : Program Tid Cond Shared Local Call Note} {holds : Local → Prop} {parks : Cond → Local → Prop}
  {state : State Tid Cond Shared Local}

def CanMove (program : Program Tid Cond Shared Local Call Note) (state : State Tid Cond Shared Local)
    (thread : Tid) : Prop :=
  ∃ action : Action Tid Call, action.own thread = true ∧ ((monitor program).step state action).isSome = true

theorem canMove_running {thread : Tid} {point : Local} (chosen : Finset Tid)
    (running : state.threads thread = .running point)
    (performs : (perform thread chosen state (program.next thread point state.shared)).isSome = true) :
    CanMove program state thread := by
  refine ⟨.step thread chosen, by simp [Action.own], ?_⟩
  rwa [step_running running]

/-- A thread that is awake can move unless another one has the mutex. -/
theorem canMove_of_exclusive (disciplined : Disciplined program holds parks) (exclusive : Exclusive holds parks state)
    {thread : Tid} (busy : state.threads thread ≠ .idle)
    (awake : ∀ cond point, state.threads thread ≠ .asleep cond point)
    (free : state.owner = none ∨ state.owner = some thread) : CanMove program state thread := by
  have admits := exclusive thread
  cases place : state.threads thread with
  | idle => exact absurd place busy
  | asleep cond point => exact absurd place (awake cond point)
  | woken cond point =>
    rw [place] at admits
    have none : state.owner = none := free.resolve_right admits.1
    exact ⟨.reacquire thread, by simp [Action.own], by simp [monitor, place, none]⟩
  | running point =>
    have rule := disciplined.command thread point state.shared
    have own := exclusive.own place
    cases command : program.next thread point state.shared with
    | lock next =>
      rw [command] at rule
      have none : state.owner = none := free.resolve_right fun mine => rule.1 (own.mp mine)
      exact canMove_running ∅ place (by simp [command, perform, none])
    | tryLock acquired busy =>
      apply canMove_running ∅ place
      rw [command]
      simp only [perform]
      split <;> rfl
    | unlock next | wait cond next =>
      rw [command] at rule
      exact canMove_running ∅ place (by simp [command, perform, own.mpr rule.1])
    -- Choosing all sleepers is always permitted.
    | signal cond next =>
      have may : state.MayWake cond (state.sleepers cond) := ⟨subset_rfl, id⟩
      exact canMove_running (state.sleepers cond) place (by simp [command, perform, may])
    | broadcast cond next | assign shared next written | finish written =>
      exact canMove_running ∅ place (by rw [command]; rfl)

/-- In a disciplined monitor nobody who is awake waits for ever on a thread that cannot move. -/
theorem canMove_or_owner (disciplined : Disciplined program holds parks) (exclusive : Exclusive holds parks state)
    {thread : Tid} (busy : state.threads thread ≠ .idle)
    (awake : ∀ cond point, state.threads thread ≠ .asleep cond point) :
    CanMove program state thread ∨ ∃ owner, state.owner = some owner ∧ CanMove program state owner := by
  cases owned : state.owner with
  | none => exact Or.inl (canMove_of_exclusive disciplined exclusive busy awake (Or.inl owned))
  | some owner =>
    have admits := exclusive owner
    refine Or.inr ⟨owner, rfl, canMove_of_exclusive disciplined exclusive ?_ ?_ (Or.inr owned)⟩
    · intro idle
      rw [idle] at admits
      exact admits owned
    · intro cond point asleep
      rw [asleep] at admits
      exact admits.1 owned

end Enabled
end PosixC.Foundation.Monitor
