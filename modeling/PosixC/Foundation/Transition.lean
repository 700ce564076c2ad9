import Mathlib.Data.List.Basic

/-! Labelled transition systems whose scheduler is explicit.

A machine resolves every choice of its environment through an action, so one
action has at most one successor. A run keeps the actions taken and the notes
written, and invariants may speak about both.
-/

set_option autoImplicit false

namespace PosixC.Foundation

/-- An action that is not enabled in a state has no successor. -/
structure Machine (State Action Note : Type) where
  step : State → Action → Option (State × List Note)

structure Step (State Action Note : Type) where
  before : State
  action : Action
  written : List Note
  after : State

namespace Machine

variable {State Action Note : Type} (machine : Machine State Action Note)

inductive Run (start : State) : List Action → List Note → State → Prop where
  | start : Run start [] [] start
  | next {actions : List Action} {notes written : List Note} {state after : State} {action : Action} :
      Run start actions notes state → machine.step state action = some (after, written) →
      Run start (actions ++ [action]) (notes ++ written) after

inductive Path (start : State) : List (Step State Action Note) → State → Prop where
  | start : Path start [] start
  | next {steps : List (Step State Action Note)} {written : List Note} {state after : State} {action : Action} :
      Path start steps state → machine.step state action = some (after, written) →
      Path start (steps ++ [⟨state, action, written, after⟩]) after

def exec (state : State) : List Action → Option (State × List Note)
  | [] => some (state, [])
  | action :: rest =>
      match machine.step state action with
      | none => none
      | some (after, written) =>
          match exec after rest with
          | none => none
          | some (final, notes) => some (final, written ++ notes)

def trace (state : State) : List Action → Option (List (Step State Action Note) × State)
  | [] => some ([], state)
  | action :: rest =>
      match machine.step state action with
      | none => none
      | some (after, written) =>
          match trace after rest with
          | none => none
          | some (steps, final) => some (⟨state, action, written, after⟩ :: steps, final)

def restrict (allowed : State → Action → Bool) : Machine State Action Note where
  step state action := if allowed state action = true then machine.step state action else none

variable {machine}

theorem step_of_restrict {allowed : State → Action → Bool} {state after : State} {action : Action}
    {written : List Note} (step : (machine.restrict allowed).step state action = some (after, written)) :
    allowed state action = true ∧ machine.step state action = some (after, written) := by
  simpa only [restrict, Option.ite_none_right_eq_some] using step

theorem Run.of_restrict {allowed : State → Action → Bool} {start final : State} {actions : List Action}
    {notes : List Note} (run : (machine.restrict allowed).Run start actions notes final) :
    machine.Run start actions notes final := by
  induction run with
  | start => exact Run.start
  | next _ step ih => exact ih.next (step_of_restrict step).2

theorem Run.append {start middle final : State} {first second : List Action} {before after : List Note}
    (left : machine.Run start first before middle) (right : machine.Run middle second after final) :
    machine.Run start (first ++ second) (before ++ after) final := by
  induction right with
  | start => simpa only [List.append_nil] using left
  | next _ step ih => simpa only [List.append_assoc] using ih.next step

theorem Path.run {start final : State} {steps : List (Step State Action Note)} (path : machine.Path start steps final) :
    machine.Run start (steps.map Step.action) (steps.flatMap Step.written) final := by
  induction path with
  | start => exact Run.start
  | next _ moved ih =>
    rw [List.map_append, List.flatMap_append, List.flatMap_singleton]
    exact ih.next moved

theorem Run.single {state after : State} {action : Action} {written : List Note}
    (step : machine.step state action = some (after, written)) :
    machine.Run state [action] written after :=
  Run.next Run.start step

theorem run_of_exec {actions : List Action} {state final : State} {notes : List Note}
    (executed : machine.exec state actions = some (final, notes)) :
    machine.Run state actions notes final := by
  induction actions generalizing state notes with
  | nil =>
    simp only [exec, Option.some.injEq, Prod.mk.injEq] at executed
    obtain ⟨rfl, rfl⟩ := executed
    exact Run.start
  | cons action rest ih =>
    simp only [exec] at executed
    split at executed
    · cases executed
    · next after written step =>
      split at executed
      · cases executed
      · next last tail below =>
        cases executed
        exact (Run.single step).append (ih below)

theorem run_of_isSome {actions : List Action} {state : State} (executes : (machine.exec state actions).isSome = true) :
    machine.Run state actions ((machine.exec state actions).get executes).2
      ((machine.exec state actions).get executes).1 :=
  run_of_exec (Option.some_get executes).symm

theorem exists_run_of_notes {actions : List Action} {state : State} {notes : List Note}
    (executed : (machine.exec state actions).map Prod.snd = some notes) :
    ∃ final, machine.Run state actions notes final := by
  obtain ⟨⟨final, written⟩, same, rfl⟩ := Option.map_eq_some_iff.mp executed
  exact ⟨final, run_of_exec same⟩

theorem exists_run_of_any {actions : List Action} {state : State} {holds : State × List Note → Bool}
    (executes : (machine.exec state actions).any holds = true) :
    ∃ final notes, machine.Run state actions notes final ∧ holds (final, notes) = true := by
  cases executed : machine.exec state actions with
  | none =>
    rw [executed] at executes
    cases executes
  | some result =>
    rw [executed] at executes
    exact ⟨result.1, result.2, run_of_exec executed, executes⟩

theorem Path.append {start middle final : State} {first second : List (Step State Action Note)}
    (left : machine.Path start first middle) (right : machine.Path middle second final) :
    machine.Path start (first ++ second) final := by
  induction right with
  | start => simpa only [List.append_nil] using left
  | next _ moved ih => simpa only [List.append_assoc] using ih.next moved

theorem path_of_trace {actions : List Action} {state final : State} {steps : List (Step State Action Note)}
    (traced : machine.trace state actions = some (steps, final)) : machine.Path state steps final := by
  induction actions generalizing state steps with
  | nil =>
    cases traced
    exact Path.start
  | cons action rest ih =>
    simp only [trace] at traced
    split at traced
    · cases traced
    · next after written moved =>
      split at traced
      · cases traced
      · next below tail onwards =>
        cases traced
        exact (Path.next Path.start moved).append (ih onwards)

theorem path_of_isSome {actions : List Action} {state : State} (traces : (machine.trace state actions).isSome = true) :
    machine.Path state ((machine.trace state actions).get traces).1 ((machine.trace state actions).get traces).2 :=
  path_of_trace (Option.some_get traces).symm

/-- An invariant of the notes and the state that every step keeps holds after every run. -/
theorem Run.invariant {start final : State} {actions : List Action} {notes : List Note}
    (holds : List Note → State → Prop) (initial : holds [] start)
    (step : ∀ notes state action after written, holds notes state →
      machine.step state action = some (after, written) → holds (notes ++ written) after)
    (run : machine.Run start actions notes final) : holds notes final := by
  induction run with
  | start => exact initial
  | next _ moved ih => exact step _ _ _ _ _ ih moved

/-- The step that wrote a note, and the run up to it. -/
theorem Run.at_note {start final : State} {actions : List Action} {first later : List Note} {note : Note}
    (run : machine.Run start actions (first ++ note :: later) final) :
    ∃ earlier before state action after head tail, machine.Run start earlier before state ∧
      machine.step state action = some (after, head ++ note :: tail) ∧ first = before ++ head := by
  generalize whole : first ++ note :: later = notes at run
  induction run generalizing later with
  | start => simp at whole
  | @next actions notes written state after action run moved ih =>
    rcases List.append_eq_append_iff.mp whole with ⟨middle, before, rest⟩ | ⟨head, before, rest⟩
    · cases middle with
      | nil =>
        rw [List.append_nil] at before
        exact ⟨actions, notes, state, action, after, [], later, run, by rw [rest]; exact moved,
          by rw [before, List.append_nil]⟩
      | cons head middle =>
        cases rest
        exact ih before.symm
    · exact ⟨actions, notes, state, action, after, head, later, run, by rw [moved, rest], before⟩

theorem Path.invariant {start final : State} {steps : List (Step State Action Note)}
    (holds : List (Step State Action Note) → State → Prop) (initial : holds [] start)
    (step : ∀ steps state action after written, holds steps state →
      machine.step state action = some (after, written) → holds (steps ++ [⟨state, action, written, after⟩]) after)
    (path : machine.Path start steps final) : holds steps final := by
  induction path with
  | start => exact initial
  | next _ moved ih => exact step _ _ _ _ _ ih moved

/-- A measure that no step raises and every counted step lowers bounds the
number of counted steps, as long as only permitted notes are written. -/
theorem Run.bounded {start final : State} {actions : List Action} {notes : List Note}
    (holds : State → Prop) (permitted : Note → Prop) (counted : Action → Bool) (measure : State → Nat)
    (step : ∀ state action after written, holds state → machine.step state action = some (after, written) →
      (∀ note ∈ written, permitted note) →
      holds after ∧ measure after + (if counted action then 1 else 0) ≤ measure state)
    (run : machine.Run start actions notes final) (begins : holds start) (quiet : ∀ note ∈ notes, permitted note) :
    holds final ∧ measure final + actions.countP counted ≤ measure start := by
  induction run with
  | start => exact ⟨begins, by simp⟩
  | next _ moved ih =>
    obtain ⟨before, bound⟩ := ih fun note member => quiet note (List.mem_append_left _ member)
    obtain ⟨after, less⟩ := step _ _ _ _ before moved fun note member => quiet note (List.mem_append_right _ member)
    refine ⟨after, ?_⟩
    rw [List.countP_append, List.countP_singleton]
    omega

end Machine
end PosixC.Foundation
