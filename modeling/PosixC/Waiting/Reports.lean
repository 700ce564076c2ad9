import PosixC.Waiting.Model

/-! Which signals the programs of ex06/signals report. -/

set_option autoImplicit false

namespace PosixC.Waiting

open Foundation Foundation.Signals

variable {source : Source} {ignored : Bool} {state after : State} {notes written : List Note} {actions : List Action}
  {inherited : Finset Signal}

def Guarded (source : Source) (mask : Finset Signal) : Prop := source = .suspend → .sigint ∈ mask

def Installed (process : Process Signal Unit Routine Point) : Prop := process.disposition .sigint = some (.handler, ∅)

structure Handling (source : Source) (process : Process Signal Unit Routine Point) (point : Point) : Prop where
  awake : process.suspended = none
  blocked : .sigint ∈ process.mask
  installed : Installed process
  frame : ∃ mask, process.frames = [(point, mask)] ∧ Guarded source mask
  waited : source = .suspend → point = .test
  main : point = .wait ∨ point = .test ∨ point = .sleep ∨ point = .clear

def Placed (source : Source) (state : State) : Prop :=
  let process := state.process
  match process.point with
  | .start | .block => process.frames = [] ∧ process.suspended = none ∧ process.disposition .sigint = none
  | .install =>
      process.frames = [] ∧ process.suspended = none ∧ process.disposition .sigint = none ∧ Guarded source process.mask
  | .wait | .sleep | .clear =>
      process.frames = [] ∧ process.suspended = none ∧ Installed process ∧ Guarded source process.mask
  | .test => process.frames = [] ∧ Installed process ∧ match process.suspended with
      | none => state.sigReceived = true ∧ Guarded source process.mask
      | some mask => Guarded source mask
  | .handler => ∃ point, Handling source process point
  | .handlerEnd => state.sigReceived = true ∧ ∃ point, Handling source process point
  | .killed => True

def reporting (process : Process Signal Unit Routine Point) : Bool :=
  decide (process.point = .test) && process.suspended.isNone || process.frames.any fun frame => decide (frame.1 = .test)

/-- As long as there is no handler. -/
def Early (notes : List Note) (process : Process Signal Unit Routine Point) : Prop :=
  process.disposition .sigint = none → .installed ∉ notes ∧ (.blocked ∈ notes → .sigint ∈ process.mask)

theorem Installed.early {process : Process Signal Unit Routine Point} (installed : Installed process) (notes : List Note) :
    Early notes process := by
  intro default
  rw [Installed, default] at installed
  cases installed

structure Accounted (source : Source) (notes : List Note) (state : State) : Prop where
  placed : Placed source state
  waited : notes.count (.delivered true) = notes.count .received + (reporting state.process).toNat
  queued : notes.count (.sent true) = notes.count (.delivered true) + notes.count (.delivered false) +
    state.process.pending.length + notes.count .ignored
  guarded : source = .suspend → .delivered false ∉ notes
  early : Early notes state.process

theorem accounted_start (source : Source) (inherited : Finset Signal) : Accounted source [] (startState inherited) where
  placed := ⟨rfl, rfl, rfl⟩
  waited := rfl
  queued := rfl
  guarded := by simp
  early := by simp [Early]

theorem Accounted.quiet (accounted : Accounted source notes state)
    (calm : written = [] ∨ written = [.started] ∨ written = [.blocked] ∨ written = [.installed])
    (placed : Placed source after) (reports : reporting after.process = reporting state.process)
    (pending : after.process.pending = state.process.pending) (early : Early (notes ++ written) after.process) :
    Accounted source (notes ++ written) after := by
  have waited := accounted.waited
  have queued := accounted.queued
  have guarded := accounted.guarded
  rw [← reports] at waited
  rw [← pending] at queued
  rcases calm with rfl | rfl | rfl | rfl
  · rw [List.append_nil] at early ⊢
    exact ⟨placed, waited, queued, guarded, early⟩
  all_goals exact ⟨placed, by simpa using waited, by simpa using queued, by simpa using guarded, early⟩

theorem installed_sigaction (process : Process Signal Unit Routine Point) :
    (process.sigaction .sigint .handler ∅).disposition .sigint = some (.handler, ∅) :=
  Process.sigaction_self ..

theorem accounted_run (accounted : Accounted source notes state)
    (step : statement source state = some (after, written)) : Accounted source (notes ++ written) after := by
  have placed := accounted.placed
  have waited := accounted.waited
  have early := accounted.early
  simp only [statement, Option.ite_none_left_eq_some, Bool.not_eq_true, Option.isSome_eq_false_iff,
    Option.isNone_iff_eq_none] at step
  obtain ⟨awake, step⟩ := step
  cases place : state.process.point with
  | start =>
    simp only [place] at step
    cases step
    simp only [Placed, place] at placed
    obtain ⟨frames, _, default⟩ := placed
    apply accounted.quiet (by simp)
    · cases source <;> simp [Placed, State.goTo, frames, awake, default, Guarded]
    · cases source <;> simp [reporting, State.goTo, place]
    · rfl
    · simpa [Early, State.goTo] using early
  | block =>
    simp only [place] at step
    cases step
    simp only [Placed, place] at placed
    apply accounted.quiet (by simp)
    · exact ⟨placed.1, placed.2.1, placed.2.2, fun _ => Finset.mem_insert_self _ _⟩
    · simp [reporting, place]
    · rfl
    · intro default
      simpa using (early default).1
  | install =>
    simp only [place] at step
    cases step
    simp only [Placed, place] at placed
    have installed := installed_sigaction state.process
    apply accounted.quiet (by simp)
    · exact ⟨placed.1, placed.2.1, installed, placed.2.2.2⟩
    · simp [reporting, place, Process.sigaction]
    · rfl
    · exact Installed.early installed _
  | wait =>
    simp only [place] at step
    cases step
    simp only [Placed, place] at placed
    apply accounted.quiet (by simp)
    · exact ⟨placed.1, placed.2.2.1, placed.2.2.2⟩
    · simp [reporting, place, waitCall, Process.sigsuspend]
    · rfl
    · apply Installed.early
      exact placed.2.2.1
  -- The process is awake behind its wait, so a handler has set the flag.
  | test =>
    simp only [place] at step
    cases step
    simp only [Placed, place, awake] at placed
    obtain ⟨frames, installed, received, guarded⟩ := placed
    rw [received, if_pos rfl]
    constructor
    · exact ⟨frames, awake, installed, guarded⟩
    · simp [reporting, place, awake, frames] at waited
      simp [reporting, State.goTo, frames, waited]
    · simpa [State.goTo] using accounted.queued
    · simpa using accounted.guarded
    · exact Installed.early installed _
  | sleep =>
    simp only [place] at step
    cases step
    simp only [Placed, place] at placed
    apply accounted.quiet (by simp)
    · exact placed
    · simp [reporting, place, State.goTo]
    · rfl
    · exact Installed.early placed.2.2.1 _
  -- The flag is cleared, whether or not a handler has set it again.
  | clear =>
    simp only [place] at step
    cases step
    simp only [Placed, place] at placed
    apply accounted.quiet (by simp)
    · exact placed
    · simp [reporting, place, State.goTo]
    · rfl
    · exact Installed.early placed.2.2.1 _
  | handler =>
    simp only [place] at step
    cases step
    simp only [Placed, place] at placed
    obtain ⟨point, handling⟩ := placed
    apply accounted.quiet (by simp)
    · exact ⟨rfl, point, handling.awake, handling.blocked, handling.installed, handling.frame, handling.waited, handling.main⟩
    · simp [reporting, place, State.goTo]
    · rfl
    · exact Installed.early handling.installed _
  | handlerEnd =>
    simp only [place] at step
    simp only [Placed, place] at placed
    obtain ⟨received, point, handling⟩ := placed
    obtain ⟨mask, frames, guarded⟩ := handling.frame
    simp only [Process.sigreturn, frames] at step
    cases step
    apply accounted.quiet (by simp)
    · rcases handling.main with rfl | rfl | rfl | rfl
      · exact ⟨rfl, handling.awake, handling.installed, guarded⟩
      · simp only [Placed, handling.awake, true_and]
        exact ⟨handling.installed, received, guarded⟩
      · exact ⟨rfl, handling.awake, handling.installed, guarded⟩
      · exact ⟨rfl, handling.awake, handling.installed, guarded⟩
    · simp [reporting, place, frames, handling.awake, eq_comm]
    · rfl
    · apply Installed.early
      exact handling.installed
  | killed => simp [place] at step

theorem accounted_handler (accounted : Accounted source notes state) (installed : Installed state.process)
    (frames : state.process.frames = []) {mask : Finset Signal} (awaits : state.process.suspended.getD state.process.mask = mask)
    (guarded : Guarded source mask) (waited : source = .suspend → state.process.suspended.isSome = true ∧ state.process.point = .test)
    (main : state.process.point = .wait ∨ state.process.point = .test ∨ state.process.point = .sleep ∨
      state.process.point = .clear) (suspends : state.process.suspended.isSome = true → state.process.point = .test)
    {process : Process Signal Unit Routine Point}
    (delivered : state.process.deliver Routine.entry .killed .sigint = some process) :
    Accounted source (notes ++ [.delivered state.process.suspended.isSome]) { state with process := process } := by
  obtain ⟨value, rest, taken, rfl⟩ := handled_of_deliver installed delivered
  have queued := accounted.queued
  have length := taken.length_eq
  rw [List.length_cons] at length
  have counts := accounted.waited
  constructor
  case placed =>
    exact ⟨state.process.point, rfl, by simp, installed, ⟨mask, by simp [frames, awaits], guarded⟩,
      fun suspend => (waited suspend).2, main⟩
  case waited =>
    cases asleep : state.process.suspended with
    | none =>
      simp only [reporting, frames, asleep, Option.isNone_none, Bool.and_true, List.any_nil, Bool.or_false] at counts
      simp [reporting, Routine.entry, frames, counts]
    | some saved =>
      have place := suspends (by rw [asleep]; rfl)
      simp only [reporting, frames, asleep, Option.isNone_some, Bool.and_false, List.any_nil, Bool.or_false, Bool.toNat_false,
        Nat.add_zero] at counts
      simp [reporting, Routine.entry, frames, counts, place]
  case queued =>
    cases asleep : state.process.suspended <;> simp [queued, length] <;> omega
  case guarded =>
    intro suspend
    rw [(waited suspend).1]
    simpa using accounted.guarded suspend
  case early =>
    apply Installed.early
    exact installed

theorem accounted_deliver (accounted : Accounted source notes state) {process : Process Signal Unit Routine Point}
    (delivered : state.process.deliver Routine.entry .killed .sigint = some process)
    (alive : process.point ≠ .killed) (running : state.process.point ≠ .killed) :
    Accounted source (notes ++ [.delivered state.process.suspended.isSome]) { state with process := process } := by
  have placed := accounted.placed
  have unblocked := (unblocked_of_deliver delivered).1
  have handled : state.process.disposition .sigint ≠ none := by
    intro default
    simp only [Process.deliver, unblocked, if_false, default] at delivered
    split at delivered
    · cases delivered
    · cases delivered
      exact alive rfl
  cases place : state.process.point with
  -- Without a handler the signal would have killed the process.
  | start | block | install =>
    simp only [Placed, place] at placed
    first | exact absurd placed.2.2 handled | exact absurd placed.2.2.1 handled
  -- Only `await.c` has the signal unblocked here.
  | wait | sleep | clear =>
    simp only [Placed, place] at placed
    obtain ⟨frames, awake, installed, guarded⟩ := placed
    apply accounted_handler accounted installed frames rfl (by rw [awake]; exact guarded) _ (by simp [place]) (by simp [awake]) delivered
    exact fun suspend => absurd (guarded suspend) unblocked
  | test =>
    simp only [Placed, place] at placed
    obtain ⟨frames, installed, rest⟩ := placed
    cases asleep : state.process.suspended with
    | none =>
      rw [asleep] at rest
      rw [← asleep]
      apply accounted_handler accounted installed frames rfl (by rw [asleep]; exact rest.2) _ (by simp [place]) (by simp [place]) delivered
      exact fun suspend => absurd (rest.2 suspend) unblocked
    | some mask =>
      rw [asleep] at rest
      rw [← asleep]
      apply accounted_handler accounted installed frames rfl (by rw [asleep]; exact rest) _ (by simp [place]) (by simp [place]) delivered
      exact fun _ => ⟨by rw [asleep]; rfl, place⟩
  | handler | handlerEnd =>
    simp only [Placed, place] at placed
    first
      | exact absurd placed.choose_spec.blocked unblocked
      | exact absurd placed.2.choose_spec.blocked unblocked
  | killed => exact absurd place running

theorem placed_pending (placed : Placed source state) (pending : List (Signal × Unit)) :
    Placed source { state with process := { state.process with pending := pending } } := by
  cases state with | mk process => cases process with | mk point => cases point with
    | handler =>
      obtain ⟨point, known⟩ := placed
      exact ⟨point, known.awake, known.blocked, known.installed, known.frame, known.waited, known.main⟩
    | handlerEnd =>
      obtain ⟨received, point, known⟩ := placed
      exact ⟨received, point, known.awake, known.blocked, known.installed, known.frame, known.waited, known.main⟩
    | _ => exact placed

theorem accounted_send (accounted : Accounted source notes state) :
    Accounted source (notes ++ [.sent (decide (Signal.sigint ∉ state.process.pending.map Prod.fst))])
      { state with process :=
        { state.process with pending := post (fun _ => false) state.process.pending .sigint () } } where
  placed := placed_pending accounted.placed _
  waited := by simpa [reporting] using accounted.waited
  queued := by
    have queued := accounted.queued
    rw [post_standard rfl]
    by_cases present : Signal.sigint ∈ state.process.pending.map Prod.fst
    · simp [present, queued]
    · simp [present, queued]
      omega
  guarded := by simpa using accounted.guarded
  early := by simpa [Early] using accounted.early

theorem accounted_ignored (accounted : Accounted source notes state) {process : Process Signal Unit Routine Point}
    (discarded : state.process.discard .sigint = some process) :
    Accounted source (notes ++ [.ignored]) { state with process := process } := by
  obtain ⟨_, value, rest, taken, rfl⟩ := perm_of_discard discarded
  have length := taken.length_eq
  rw [List.length_cons] at length
  constructor
  · exact placed_pending accounted.placed rest
  · simpa [reporting] using accounted.waited
  · have queued := accounted.queued
    simp [queued, length]
    omega
  · simpa using accounted.guarded
  · simpa [Early] using accounted.early

theorem accounted_of_run (run : (waitingMachine source ignored).Run (startState inherited) actions notes state) :
    state.process.point = .killed ∨ Accounted source notes state := by
  apply run.invariant (fun notes state => state.process.point = .killed ∨ Accounted source notes state)
    (Or.inr (accounted_start source inherited))
  intro notes state action after written known step
  simp only [waitingMachine, Option.ite_none_left_eq_some] at step
  obtain ⟨running, step⟩ := step
  have accounted := known.resolve_left running
  cases action with
  | run => exact Or.inr (accounted_run accounted step)
  | deliver =>
    simp only [deliverStep] at step
    split at step
    · split at step
      · cases step
      · next process discarded =>
        cases step
        exact Or.inr (accounted_ignored accounted discarded)
    · split at step
      · cases step
      · next process delivered =>
        cases step
        by_cases dies : process.point = .killed
        · exact Or.inl dies
        · exact Or.inr (accounted_deliver accounted delivered dies running)
  | send =>
    cases step
    exact Or.inr (accounted_send accounted)

theorem ignored_statement (step : statement source state = some (after, written)) : .ignored ∉ written := by
  obtain ⟨_, step⟩ := Option.ite_none_left_eq_some.mp step
  cases place : state.process.point with
  | test =>
    simp only [place] at step
    cases step
    split <;> simp
  | handlerEnd =>
    simp only [place] at step
    cases returned : state.process.sigreturn with
    | none =>
      rw [returned] at step
      cases step
    | some process =>
      rw [returned] at step
      cases step
      simp
  | killed => simp [place] at step
  | _ =>
    simp only [place] at step
    cases step
    simp

theorem ignored_step {action : Action} {head tail : List Note}
    (step : (waitingMachine source ignored).step state action = some (after, head ++ .ignored :: tail)) :
    head = [] ∧ ignored = true ∧ state.process.disposition .sigint = none ∧ .sigint ∉ state.process.mask := by
  obtain ⟨_, step⟩ := Option.ite_none_left_eq_some.mp step
  cases action with
  | run => exact absurd (by simp) (ignored_statement step)
  | deliver =>
    simp only [deliverStep] at step
    split at step
    · next without =>
      split at step
      · cases step
      · next process thrown =>
        simp only [Option.some.injEq, Prod.mk.injEq] at step
        rcases List.append_eq_singleton_iff.mp step.2.symm with ⟨none, _⟩ | ⟨_, other⟩
        · simp only [Bool.and_eq_true, Option.isNone_iff_eq_none] at without
          exact ⟨none, without.1, without.2, (perm_of_discard thrown).1⟩
        · cases other
    · split at step
      · cases step
      · simp only [Option.some.injEq, Prod.mk.injEq] at step
        rcases List.append_eq_singleton_iff.mp step.2.symm with ⟨_, other⟩ | ⟨_, other⟩ <;> cases other
  | send =>
    simp only [Option.some.injEq, Prod.mk.injEq] at step
    rcases List.append_eq_singleton_iff.mp step.2.symm with ⟨_, other⟩ | ⟨_, other⟩ <;> cases other

/-- A signal is ignored only if that was inherited, and before the signal is blocked and its
handler is there. -/
theorem ignored_early {first later : List Note}
    (run : (waitingMachine source ignored).Run (startState inherited) actions (first ++ .ignored :: later) state) :
    ignored = true ∧ .installed ∉ first ∧ .blocked ∉ first := by
  obtain ⟨_, before, earlier, _, _, head, _, onwards, step, rfl⟩ := run.at_note
  have going : earlier.process.point ≠ .killed := (Option.ite_none_left_eq_some.mp step).1
  have accounted := (accounted_of_run onwards).resolve_left going
  obtain ⟨rfl, inherits, default, unblocked⟩ := ignored_step step
  obtain ⟨absent, blocks⟩ := accounted.early default
  rw [List.append_nil]
  exact ⟨inherits, absent, fun blocked => unblocked (blocks blocked)⟩

/-- Of the signals that reached `await.c` it has reported those that came during a `pause`,
and lost all the others. -/
theorem await_loses (run : (waitingMachine .await ignored).Run (startState inherited) actions notes state)
    (alive : state.process.point ≠ .killed) :
    notes.count (.delivered true) = notes.count .received + (reporting state.process).toNat ∧
      notes.count (.sent true) = notes.count (.delivered true) + notes.count (.delivered false) +
        state.process.pending.length + notes.count .ignored ∧
      ∀ first later, notes = first ++ .ignored :: later → ignored = true ∧ .installed ∉ first := by
  have accounted := (accounted_of_run run).resolve_left alive
  refine ⟨accounted.waited, accounted.queued, ?_⟩
  rintro first later rfl
  obtain ⟨inherits, absent, _⟩ := ignored_early run
  exact ⟨inherits, absent⟩

def scheduleAwait : List Action :=
  [.send, .deliver, .run, .run, .send, .deliver, .run, .run, .run, .send, .deliver, .run, .run, .run, .send, .deliver,
    .run, .run, .run]

theorem await_loses_three : ∃ final notes, (waitingMachine .await true).Run (startState ∅) scheduleAwait notes final ∧
    notes.count .received = 1 ∧ notes.count (.delivered false) = 2 ∧ notes.count .ignored = 1 ∧
    notes.count (.delivered true) = notes.count .received + (reporting final.process).toNat ∧
      notes.count (.sent true) = notes.count (.delivered true) + notes.count (.delivered false) +
        final.process.pending.length + notes.count .ignored ∧
      ∀ first later, notes = first ++ .ignored :: later → true = true ∧ .installed ∉ first := by
  obtain ⟨final, notes, run, shown⟩ := @Machine.exists_run_of_any _ _ _ (waitingMachine .await true) scheduleAwait
    (startState ∅) (fun result => result.1.process.point ≠ .killed ∧ result.2.count .received = 1 ∧
      result.2.count (.delivered false) = 2 ∧ result.2.count .ignored = 1) (by decide)
  obtain ⟨alive, received, lost, thrown⟩ := of_decide_eq_true shown
  exact ⟨final, notes, run, received, lost, thrown, await_loses run alive⟩

/-- Every signal that reaches `suspend.c` has been reported or is pending, but for those that
were inherited as ignored and came before they were blocked. -/
theorem suspend_reports (run : (waitingMachine .suspend ignored).Run (startState inherited) actions notes state)
    (alive : state.process.point ≠ .killed) :
    notes.count (.sent true) = notes.count .received + (reporting state.process).toNat +
        state.process.pending.length + notes.count .ignored ∧
      ∀ first later, notes = first ++ .ignored :: later → ignored = true ∧ .blocked ∉ first := by
  have accounted := (accounted_of_run run).resolve_left alive
  constructor
  · rw [accounted.queued, accounted.waited, List.count_eq_zero.mpr (accounted.guarded rfl), Nat.add_zero]
  · rintro first later rfl
    obtain ⟨inherits, _, absent⟩ := ignored_early run
    exact ⟨inherits, absent⟩

def scheduleSuspend : List Action :=
  [.send, .deliver, .run, .run, .send, .run, .run, .deliver, .run, .run, .send, .run, .run, .run, .run, .deliver, .run,
    .run, .send, .run, .run, .run, .run]

theorem suspend_reports_two : ∃ final notes,
    (waitingMachine .suspend true).Run (startState ∅) scheduleSuspend notes final ∧
    notes.count .received = 2 ∧ final.process.pending.length = 1 ∧ notes.count .ignored = 1 ∧
    notes.count (.sent true) = notes.count .received + (reporting final.process).toNat +
        final.process.pending.length + notes.count .ignored ∧
      ∀ first later, notes = first ++ .ignored :: later → true = true ∧ .blocked ∉ first := by
  obtain ⟨final, notes, run, shown⟩ := @Machine.exists_run_of_any _ _ _ (waitingMachine .suspend true) scheduleSuspend
    (startState ∅) (fun result => result.1.process.point ≠ .killed ∧ result.2.count .received = 2 ∧
      result.1.process.pending.length = 1 ∧ result.2.count .ignored = 1) (by decide)
  obtain ⟨alive, received, pending, thrown⟩ := of_decide_eq_true shown
  exact ⟨final, notes, run, received, pending, thrown, suspend_reports run alive⟩

end PosixC.Waiting
