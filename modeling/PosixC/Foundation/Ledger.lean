import Mathlib.Data.List.Basic

/-! Acquiring and releasing resources.

A ledger holds what is alive. Acquiring what is alive already or releasing what
is not has no meaning, so a history with a ledger is free of both.
-/

set_option autoImplicit false

namespace PosixC.Foundation.Ledger

variable {ρ σ : Type}

inductive Event (ρ : Type) where
  | acquire (resource : ρ)
  | release (resource : ρ)
  deriving DecidableEq, Repr

def Event.resource : Event ρ → ρ
  | .acquire resource | .release resource => resource

def Event.map (f : ρ → σ) : Event ρ → Event σ
  | .acquire resource => .acquire (f resource)
  | .release resource => .release (f resource)

section Settling

variable [DecidableEq ρ] [DecidableEq σ]

def record (alive : List ρ) : Event ρ → Option (List ρ)
  | .acquire resource => if resource ∈ alive then none else some (resource :: alive)
  | .release resource => if resource ∈ alive then some (alive.erase resource) else none

def settle (alive : List ρ) : List (Event ρ) → Option (List ρ)
  | [] => some alive
  | event :: later => (record alive event).bind fun after => settle after later

variable {alive alive' after : List ρ} {first second events : List (Event ρ)} {event : Event ρ}

theorem settle_append (settled : settle alive first = some after) :
    settle alive (first ++ second) = settle after second := by
  induction first generalizing alive with
  | nil =>
    obtain rfl := Option.some.inj settled
    rfl
  | cons event later ih =>
    obtain ⟨next, recorded, rest⟩ := Option.bind_eq_some_iff.mp settled
    rw [List.cons_append, settle, recorded, Option.bind_some, ih rest]

theorem record_frame (recorded : record alive event = some after) (other : event.resource ∉ alive') :
    record (alive ++ alive') event = some (after ++ alive') := by
  cases event with
  | acquire resource =>
    simp only [record, Option.ite_none_left_eq_some, Option.some.injEq] at recorded ⊢
    obtain ⟨fresh, rfl⟩ := recorded
    exact ⟨fun member => (List.mem_append.mp member).elim fresh other, rfl⟩
  | release resource =>
    simp only [record, Option.ite_none_right_eq_some, Option.some.injEq] at recorded ⊢
    obtain ⟨held, rfl⟩ := recorded
    exact ⟨List.mem_append_left _ held, List.erase_append_left _ held⟩

/-- A history leaves alone what it does not name. -/
theorem settle_frame (settled : settle alive events = some after)
    (other : ∀ event ∈ events, event.resource ∉ alive') : settle (alive ++ alive') events = some (after ++ alive') := by
  induction events generalizing alive with
  | nil =>
    obtain rfl := Option.some.inj settled
    rfl
  | cons event later ih =>
    obtain ⟨next, recorded, rest⟩ := Option.bind_eq_some_iff.mp settled
    rw [settle, record_frame recorded (other event List.mem_cons_self), Option.bind_some,
      ih rest fun event member => other event (List.mem_cons_of_mem _ member)]

theorem record_map {f : ρ → σ} (injective : Function.Injective f) (recorded : record alive event = some after) :
    record (alive.map f) (event.map f) = some (after.map f) := by
  cases event with
  | acquire resource =>
    simp only [record, Option.ite_none_left_eq_some, Option.some.injEq] at recorded
    obtain ⟨fresh, rfl⟩ := recorded
    rw [Event.map, record, if_neg (by rwa [List.mem_map_of_injective injective]), List.map_cons]
  | release resource =>
    simp only [record, Option.ite_none_right_eq_some, Option.some.injEq] at recorded
    obtain ⟨held, rfl⟩ := recorded
    rw [Event.map, record, if_pos (List.mem_map_of_mem held), List.map_erase injective]

theorem settle_map {f : ρ → σ} (injective : Function.Injective f) (settled : settle alive events = some after) :
    settle (alive.map f) (events.map (Event.map f)) = some (after.map f) := by
  induction events generalizing alive with
  | nil =>
    obtain rfl := Option.some.inj settled
    rfl
  | cons event later ih =>
    obtain ⟨next, recorded, rest⟩ := Option.bind_eq_some_iff.mp settled
    rw [List.map_cons, settle, record_map injective recorded, Option.bind_some, ih rest]

end Settling

end PosixC.Foundation.Ledger
