import PosixC.Foundation.Monitor

/-! Proof rules for monitors.

`Disciplined` states at which program points a thread holds the mutex, and
`Outline` attaches an assertion to each such point and one to the free mutex.
Both are checked statement by statement and hold after every run.
-/

set_option autoImplicit false

namespace PosixC.Foundation.Monitor

section Updates

variable {Tid Cond Shared Local : Type} [DecidableEq Tid]
  (state : State Tid Cond Shared Local) (thread : Tid) (value : Thread Cond Local)

@[simp] theorem setThread_shared : (state.setThread thread value).shared = state.shared := rfl

@[simp] theorem setThread_owner : (state.setThread thread value).owner = state.owner := rfl

@[simp] theorem setThread_self : (state.setThread thread value).threads thread = value :=
  Function.update_self ..

theorem setThread_of_ne {other : Tid} (different : other ≠ thread) :
    (state.setThread thread value).threads other = state.threads other :=
  Function.update_of_ne different ..

@[simp] theorem wake_shared (chosen : Finset Tid) : (state.wake chosen).shared = state.shared := rfl

@[simp] theorem wake_owner (chosen : Finset Tid) : (state.wake chosen).owner = state.owner := rfl

theorem wake_running (chosen : Finset Tid) {point : Local} (running : state.threads thread = .running point) :
    (state.wake chosen).threads thread = .running point := by
  simp only [State.wake, running, Thread.wake, ite_self]

theorem running_of_wake {chosen : Finset Tid} {point : Local}
    (running : (state.wake chosen).threads thread = .running point) :
    state.threads thread = .running point := by
  simp only [State.wake] at running
  split at running
  · cases before : state.threads thread <;> simp_all [Thread.wake]
  · exact running

end Updates

section Discipline

variable {Tid Cond Shared Local Call Note : Type}

/-- `holds` marks the points inside the mutex, `parks` those at which a wait resumes. -/
def Respects (holds : Local → Prop) (parks : Cond → Local → Prop) (point : Local) :
    Command Cond Shared Local Note → Prop
  | .lock next => ¬ holds point ∧ holds next
  | .tryLock acquired busy => ¬ holds point ∧ holds acquired ∧ ¬ holds busy
  | .unlock next => holds point ∧ ¬ holds next
  | .wait cond next => holds point ∧ parks cond next
  | .signal _ next => holds point ↔ holds next
  | .broadcast _ next => holds point ↔ holds next
  | .assign _ next _ => holds point ↔ holds next
  | .finish _ => ¬ holds point

structure Disciplined (program : Program Tid Cond Shared Local Call Note)
    (holds : Local → Prop) (parks : Cond → Local → Prop) : Prop where
  enter : ∀ {shared : Shared} {call : Call} {point : Local},
    program.enter shared call = some point → ¬ holds point
  command : ∀ (thread : Tid) (point : Local) (shared : Shared),
    Respects holds parks point (program.next thread point shared)
  parked : ∀ {cond : Cond} {point : Local}, parks cond point → holds point

def Admits (holds : Local → Prop) (parks : Cond → Local → Prop) (own : Prop) : Thread Cond Local → Prop
  | .idle => ¬ own
  | .running point => own ↔ holds point
  | .asleep cond point => ¬ own ∧ parks cond point
  | .woken cond point => ¬ own ∧ parks cond point

def Exclusive (holds : Local → Prop) (parks : Cond → Local → Prop) (state : State Tid Cond Shared Local) : Prop :=
  ∀ thread, Admits holds parks (state.owner = some thread) (state.threads thread)

theorem Admits.wake {holds : Local → Prop} {parks : Cond → Local → Prop} {own : Prop}
    {thread : Thread Cond Local} (admits : Admits holds parks own thread) :
    Admits holds parks own thread.wake := by
  cases thread <;> exact admits

theorem Exclusive.own {holds : Local → Prop} {parks : Cond → Local → Prop}
    {state : State Tid Cond Shared Local} (exclusive : Exclusive holds parks state)
    {thread : Tid} {point : Local} (running : state.threads thread = .running point) :
    state.owner = some thread ↔ holds point := by
  simpa only [running, Admits] using exclusive thread

variable [DecidableEq Tid]

/-- Only the moved thread and the mutex need to be looked at again. -/
theorem Exclusive.setThread {holds : Local → Prop} {parks : Cond → Local → Prop}
    {state : State Tid Cond Shared Local} (exclusive : Exclusive holds parks state)
    (thread : Tid) (value : Thread Cond Local) (owner : Option Tid) (shared : Shared)
    (others : ∀ other, other ≠ thread → (owner = some other ↔ state.owner = some other))
    (admits : Admits holds parks (owner = some thread) value) :
    Exclusive holds parks ⟨shared, owner, (state.setThread thread value).threads⟩ := by
  intro other
  by_cases same : other = thread
  · subst other
    simpa only [setThread_self] using admits
  · simpa only [setThread_of_ne state thread value same, others other same] using exclusive other

theorem Exclusive.wake {holds : Local → Prop} {parks : Cond → Local → Prop}
    {state : State Tid Cond Shared Local} (exclusive : Exclusive holds parks state) (chosen : Finset Tid) :
    Exclusive holds parks (state.wake chosen) := by
  intro thread
  simp only [State.wake]
  split
  · exact (exclusive thread).wake
  · exact exclusive thread

variable [Fintype Tid] [DecidableEq Cond]

theorem exclusive_step {program : Program Tid Cond Shared Local Call Note}
    {holds : Local → Prop} {parks : Cond → Local → Prop} (disciplined : Disciplined program holds parks)
    {state after : State Tid Cond Shared Local} {action : Action Tid Call} {notes : List (Tid × Note)}
    (exclusive : Exclusive holds parks state) (move : Move program state action after notes) :
    Exclusive holds parks after := by
  have respects : ∀ {thread point}, state.threads thread = .running point →
      Respects holds parks point (program.next thread point state.shared) :=
    fun _ => disciplined.command _ _ _
  -- Each step moves one thread, and the rules say whether that thread has the mutex at its new point.
  cases move with
  | @call thread _ _ idle entered =>
    have own : ¬ state.owner = some thread := by simpa only [idle, Admits] using exclusive thread
    exact exclusive.setThread _ _ _ _ (fun _ _ => Iff.rfl)
      ⟨fun h => absurd h own, fun h => absurd h (disciplined.enter entered)⟩
  | @lock thread _ _ _ running command free =>
    have rule := respects running
    rw [command] at rule
    exact exclusive.setThread _ _ _ _ (fun other different => by simp [free, different.symm])
      ⟨fun _ => rule.2, fun _ => rfl⟩
  | @tryLock thread _ _ _ _ running command free =>
    have rule := respects running
    rw [command] at rule
    exact exclusive.setThread _ _ _ _ (fun other different => by simp [free, different.symm])
      ⟨fun _ => rule.2.1, fun _ => rfl⟩
  | @busy thread _ _ _ _ running command taken =>
    have rule := respects running
    rw [command] at rule
    exact exclusive.setThread _ _ _ _ (fun _ _ => Iff.rfl)
      ⟨fun own => absurd ((exclusive.own running).mp own) rule.1, fun h => absurd h rule.2.2⟩
  | @unlock thread _ _ _ running command own =>
    have rule := respects running
    rw [command] at rule
    exact exclusive.setThread _ _ _ _ (fun other different => by simp [own, different.symm])
      ⟨fun none => (nomatch none), fun h => absurd h rule.2⟩
  | @wait thread _ _ _ _ running command own =>
    have rule := respects running
    rw [command] at rule
    exact exclusive.setThread _ _ _ _ (fun other different => by simp [own, different.symm])
      ⟨fun none => (nomatch none), rule.2⟩
  | signal running command may =>
    have rule := respects running
    rw [command] at rule
    exact (exclusive.wake _).setThread _ _ _ _ (fun _ _ => Iff.rfl) ((exclusive.own running).trans rule)
  | broadcast running command =>
    have rule := respects running
    rw [command] at rule
    exact (exclusive.wake _).setThread _ _ _ _ (fun _ _ => Iff.rfl) ((exclusive.own running).trans rule)
  | assign running command =>
    have rule := respects running
    rw [command] at rule
    exact exclusive.setThread _ _ _ _ (fun _ _ => Iff.rfl) ((exclusive.own running).trans rule)
  | finish running command =>
    have rule := respects running
    rw [command] at rule
    exact exclusive.setThread _ _ _ _ (fun _ _ => Iff.rfl) (fun own => rule ((exclusive.own running).mp own))
  | @spurious thread cond point asleep =>
    have admits : Admits holds parks (state.owner = some thread) (.asleep cond point) := asleep ▸ exclusive thread
    exact exclusive.setThread _ _ _ _ (fun _ _ => Iff.rfl) admits
  | @reacquire thread cond point woken free =>
    have admits : Admits holds parks (state.owner = some thread) (.woken cond point) := woken ▸ exclusive thread
    exact exclusive.setThread _ _ _ _ (fun other different => by simp [free, different.symm])
      ⟨fun _ => disciplined.parked admits.2, fun _ => rfl⟩

end Discipline

section Outlines

variable {Tid Cond Shared Local Call Note : Type}

/-- Assertions about what was written and shared: `free` while the mutex is
free, `held` at the point of its owner. A statement outside the mutex may only
write what no assertion depends on. -/
structure Outline (program : Program Tid Cond Shared Local Call Note)
    (holds : Local → Prop) (parks : Cond → Local → Prop)
    (free : List (Tid × Note) → Shared → Prop) (held : Local → List (Tid × Note) → Shared → Prop) : Prop where
  lock : ∀ {notes shared thread point next}, free notes shared →
    program.next thread point shared = .lock next → held next notes shared
  tryLock : ∀ {notes shared thread point acquired busy}, free notes shared →
    program.next thread point shared = .tryLock acquired busy → held acquired notes shared
  resume : ∀ {notes shared cond point}, free notes shared → parks cond point → held point notes shared
  unlock : ∀ {notes shared thread point next}, held point notes shared →
    program.next thread point shared = .unlock next → free notes shared
  wait : ∀ {notes shared thread point cond next}, held point notes shared →
    program.next thread point shared = .wait cond next → free notes shared
  signal : ∀ {notes shared thread point cond next}, held point notes shared →
    program.next thread point shared = .signal cond next → held next notes shared
  broadcast : ∀ {notes shared thread point cond next}, held point notes shared →
    program.next thread point shared = .broadcast cond next → held next notes shared
  assign : ∀ {notes shared thread point after next written}, holds point → held point notes shared →
    program.next thread point shared = .assign after next written →
    held next (notes ++ written.map fun note => (thread, note)) after
  outside : ∀ {notes shared thread point after next written}, ¬ holds point →
    program.next thread point shared = .assign after next written →
    (free notes shared → free (notes ++ written.map fun note => (thread, note)) after) ∧
    ∀ other, held other notes shared → held other (notes ++ written.map fun note => (thread, note)) after
  finish : ∀ {notes shared thread point written}, program.next thread point shared = .finish written →
    (free notes shared → free (notes ++ written.map fun note => (thread, note)) shared) ∧
    ∀ other, held other notes shared → held other (notes ++ written.map fun note => (thread, note)) shared

structure Sound (holds : Local → Prop) (parks : Cond → Local → Prop)
    (free : List (Tid × Note) → Shared → Prop) (held : Local → List (Tid × Note) → Shared → Prop)
    (notes : List (Tid × Note)) (state : State Tid Cond Shared Local) : Prop where
  exclusive : Exclusive holds parks state
  free : state.owner = none → free notes state.shared
  held : ∀ {thread point}, state.owner = some thread → state.threads thread = .running point →
    held point notes state.shared

variable [DecidableEq Tid]

theorem running_setThread {state : State Tid Cond Shared Local} {thread other : Tid}
    {value : Thread Cond Local} {point : Local}
    (running : (state.setThread thread value).threads other = .running point) :
    (other = thread ∧ value = .running point) ∨ (other ≠ thread ∧ state.threads other = .running point) := by
  by_cases same : other = thread
  · subst other
    exact Or.inl ⟨rfl, by simpa only [setThread_self] using running⟩
  · exact Or.inr ⟨same, by simpa only [setThread_of_ne state thread value same] using running⟩

variable [Fintype Tid] [DecidableEq Cond]
  {program : Program Tid Cond Shared Local Call Note} {holds : Local → Prop} {parks : Cond → Local → Prop}
  {free : List (Tid × Note) → Shared → Prop} {held : Local → List (Tid × Note) → Shared → Prop}

theorem sound_step (disciplined : Disciplined program holds parks) (outline : Outline program holds parks free held)
    {notes written : List (Tid × Note)} {state after : State Tid Cond Shared Local} {action : Action Tid Call}
    (sound : Sound holds parks free held notes state) (move : Move program state action after written) :
    Sound holds parks free held (notes ++ written) after := by
  refine ⟨exclusive_step disciplined sound.exclusive move, ?_, ?_⟩
  -- The mutex is free afterwards: it was free before, or its owner gave it up.
  · intro none
    cases move with
    | call | spurious => simpa using sound.free none
    | lock | tryLock | reacquire => cases none
    | busy _ _ taken => exact absurd none taken
    | unlock running command own => simpa using outline.unlock (sound.held own running) command
    | wait running command own => simpa using outline.wait (sound.held own running) command
    | signal | broadcast => simpa using sound.free none
    | assign running command =>
      have point : ¬ holds _ := fun h => by
        have own := (sound.exclusive.own running).mpr h
        rw [show state.owner = Option.none from none] at own
        cases own
      exact (outline.outside point command).1 (sound.free none)
    | finish running command => exact (outline.finish command).1 (sound.free none)
  -- Somebody owns it: the owner moved, or a thread that does not hold it did.
  · intro owner point own running
    cases move with
    | call idle entered =>
      obtain ⟨rfl, _⟩ | ⟨_, running⟩ := running_setThread running
      · have admits := sound.exclusive owner
        simp only [idle, Admits] at admits
        exact absurd own admits
      · simpa using sound.held own running
    | lock before command none =>
      cases own
      obtain ⟨_, same⟩ | ⟨different, _⟩ := running_setThread running
      · cases same
        simpa using outline.lock (sound.free none) command
      · exact absurd rfl different
    | tryLock before command none =>
      cases own
      obtain ⟨_, same⟩ | ⟨different, _⟩ := running_setThread running
      · cases same
        simpa using outline.tryLock (sound.free none) command
      · exact absurd rfl different
    | @busy _ _ before _ _ at_ command taken =>
      obtain ⟨rfl, _⟩ | ⟨_, running⟩ := running_setThread running
      · have rule := disciplined.command owner before state.shared
        rw [command] at rule
        exact absurd ((sound.exclusive.own at_).mp own) rule.1
      · simpa using sound.held own running
    | unlock | wait => cases own
    | signal before command may =>
      obtain ⟨rfl, same⟩ | ⟨_, running⟩ := running_setThread running
      · cases same
        simpa using outline.signal (sound.held own before) command
      · simpa using sound.held own (running_of_wake _ _ running)
    | broadcast before command =>
      obtain ⟨rfl, same⟩ | ⟨_, running⟩ := running_setThread running
      · cases same
        simpa using outline.broadcast (sound.held own before) command
      · simpa using sound.held own (running_of_wake _ _ running)
    | assign before command =>
      obtain ⟨rfl, same⟩ | ⟨different, running⟩ := running_setThread running
      · cases same
        exact outline.assign ((sound.exclusive.own before).mp own) (sound.held own before) command
      · have point : ¬ holds _ := fun h =>
          different (Option.some.inj (own.symm.trans ((sound.exclusive.own before).mpr h)))
        exact (outline.outside point command).2 _ (sound.held own running)
    | finish before command =>
      obtain ⟨_, same⟩ | ⟨_, running⟩ := running_setThread running
      · cases same
      · exact (outline.finish command).2 _ (sound.held own running)
    | spurious asleep =>
      obtain ⟨_, same⟩ | ⟨_, running⟩ := running_setThread running
      · cases same
      · simpa using sound.held own running
    | reacquire woken none =>
      cases own
      obtain ⟨_, same⟩ | ⟨different, _⟩ := running_setThread running
      · cases same
        have admits := sound.exclusive owner
        simp only [woken, Admits] at admits
        simpa using outline.resume (sound.free none) admits.2
      · exact absurd rfl different

/-- An outline whose free assertion holds at the start is sound after every run. -/
theorem run_sound (disciplined : Disciplined program holds parks) (outline : Outline program holds parks free held)
    {shared : Shared} (begins : free [] shared) {actions : List (Action Tid Call)} {notes : List (Tid × Note)}
    {final : State Tid Cond Shared Local} (run : (monitor program).Run (initial shared) actions notes final) :
    Sound holds parks free held notes final :=
  run.invariant (Sound holds parks free held)
    ⟨fun _ => by simp [initial, Admits], fun _ => begins, by simp [initial]⟩
    fun _ _ _ _ _ sound step => sound_step disciplined outline sound (move_of_step step)

end Outlines

end PosixC.Foundation.Monitor
