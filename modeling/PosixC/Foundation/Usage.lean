import Mathlib.Data.List.Nodup
import Mathlib.Order.BooleanAlgebra.Set
import Mathlib.Tactic.Convert
import PosixC.Foundation.Ledger

/-! Using resources.

A history may also use a resource, which has to be alive then. `Accounts` is the
rule of composition: what a part of a history finds alive and what it leaves alive.
-/

set_option autoImplicit false

namespace PosixC.Foundation.Ledger

inductive Usage (ρ : Type) where
  | event (event : Event ρ)
  | use (resource : ρ)
  deriving DecidableEq, Repr

variable {ρ : Type} [DecidableEq ρ]

def account (alive : List ρ) : List (Usage ρ) → Option (List ρ)
  | [] => some alive
  | .event event :: later => (record alive event).bind fun after => account after later
  | .use resource :: later => if resource ∈ alive then account alive later else none

structure Lists (alive : List ρ) (resources : Set ρ) : Prop where
  nodup : alive.Nodup
  mem : ∀ resource, resource ∈ alive ↔ resource ∈ resources

def Accounts (before : Set ρ) (usages : List (Usage ρ)) (after : Set ρ) : Prop :=
  ∀ alive, Lists alive before → ∃ left, account alive usages = some left ∧ Lists left after

variable {before middle after : Set ρ} {usages first second : List (Usage ρ)} {alive left : List ρ} {resource : ρ}

omit [DecidableEq ρ] in
theorem lists_nil : Lists [] (∅ : Set ρ) := ⟨List.nodup_nil, fun _ => by simp⟩

omit [DecidableEq ρ] in
theorem Lists.eq_nil (lists : Lists alive ∅) : alive = [] :=
  List.eq_nil_iff_forall_not_mem.mpr fun resource member => (lists.mem resource).mp member

omit [DecidableEq ρ] in
theorem Lists.eq_singleton (lists : Lists alive {resource}) : alive = [resource] := by
  apply List.perm_singleton.mp
  apply (List.perm_ext_iff_of_nodup lists.nodup (List.nodup_singleton resource)).mpr
  intro other
  rw [lists.mem, List.mem_singleton, Set.mem_singleton_iff]

theorem account_append (accounted : account alive first = some left) :
    account alive (first ++ second) = account left second := by
  induction first generalizing alive with
  | nil =>
    obtain rfl := Option.some.inj accounted
    rfl
  | cons usage later ih =>
    cases usage with
    | event event =>
      obtain ⟨next, recorded, rest⟩ := Option.bind_eq_some_iff.mp accounted
      rw [List.cons_append, account, recorded, Option.bind_some, ih rest]
    | use resource =>
      simp only [account, Option.ite_none_right_eq_some] at accounted
      rw [List.cons_append, account, if_pos accounted.1, ih accounted.2]

theorem accounts_nil : Accounts before [] before := fun alive lists => ⟨alive, rfl, lists⟩

theorem Accounts.append (start : Accounts before first middle) (rest : Accounts middle second after) :
    Accounts before (first ++ second) after := by
  intro alive lists
  obtain ⟨between, accounted, lists⟩ := start alive lists
  obtain ⟨left, onwards, lists⟩ := rest between lists
  exact ⟨left, (account_append accounted).trans onwards, lists⟩

theorem Accounts.cons {usage : Usage ρ} (first : Accounts before [usage] middle) (rest : Accounts middle usages after) :
    Accounts before (usage :: usages) after := first.append rest

theorem Accounts.congr {other : Set ρ} (accounts : Accounts before usages after)
    (same : ∀ resource, resource ∈ after ↔ resource ∈ other) : Accounts before usages other := by
  rwa [← Set.ext same]

theorem accounts_use (held : resource ∈ before) : Accounts before [.use resource] before := by
  intro alive lists
  exact ⟨alive, if_pos ((lists.mem resource).mpr held), lists⟩

theorem accounts_acquire (fresh : resource ∉ before) (same : ∀ other, other ∈ after ↔ other = resource ∨ other ∈ before) :
    Accounts before [.event (.acquire resource)] after := by
  intro alive lists
  have absent : resource ∉ alive := mt (lists.mem resource).mp fresh
  refine ⟨resource :: alive, ?_, List.nodup_cons.mpr ⟨absent, lists.nodup⟩, fun other => ?_⟩
  · simp [account, record, absent]
  · rw [List.mem_cons, lists.mem, same]

theorem accounts_release (held : resource ∈ before) (same : ∀ other, other ∈ after ↔ other ≠ resource ∧ other ∈ before) :
    Accounts before [.event (.release resource)] after := by
  intro alive lists
  have present : resource ∈ alive := (lists.mem resource).mpr held
  refine ⟨alive.erase resource, ?_, lists.nodup.erase resource, fun other => ?_⟩
  · simp [account, record, present]
  · rw [lists.nodup.mem_erase_iff, lists.mem, same]

theorem accounts_range {held : Nat → Set ρ} {body : Nat → List (Usage ρ)} (count : Nat)
    (turn : ∀ i < count, Accounts (held i) (body i) (held (i + 1))) :
    Accounts (held 0) ((List.range count).flatMap body) (held count) := by
  induction count with
  | zero => exact accounts_nil
  | succ count ih =>
    rw [List.range_succ, List.flatMap_append, List.flatMap_singleton]
    exact (ih fun i below => turn i (Nat.lt_succ_of_lt below)).append (turn count (Nat.lt_succ_self count))

theorem accounts_sweep {name : Nat → ρ} {swept : Nat → Prop} {body : Nat → List (Usage ρ)} (count : Nat)
    (turn : ∀ i < count, ∀ rest : Set ρ, (∀ other ∈ before, (∀ j < i, other ≠ name j) → other ∈ rest) →
      Accounts rest (body i) (rest \ { resource | swept i ∧ resource = name i })) :
    Accounts before ((List.range count).flatMap body) (before \ { resource | ∃ i < count, swept i ∧ resource = name i }) := by
  have sweep := @accounts_range _ _ (fun i => before \ { resource | ∃ j < i, swept j ∧ resource = name j }) body count
  simp only [Nat.not_lt_zero, false_and, exists_false, Set.ofPred_false, Set.sdiff_empty] at sweep
  apply sweep
  intro i below
  have next := turn i below (before \ { resource | ∃ j < i, swept j ∧ resource = name j }) ?_
  · convert next using 1
    ext resource
    simp only [Set.mem_sdiff, Set.mem_ofPred_eq, Nat.lt_succ_iff_lt_or_eq]
    grind
  · intro other member different
    exact ⟨member, fun ⟨j, earlier, _, same⟩ => different j earlier same⟩

theorem accounts_uses (alive : ∀ usage ∈ usages, ∃ resource ∈ before, usage = .use resource) :
    Accounts before usages before := by
  induction usages with
  | nil => exact accounts_nil
  | cons usage later ih =>
    obtain ⟨resource, held, rfl⟩ := alive usage List.mem_cons_self
    exact (accounts_use held).append (ih fun usage member => alive usage (List.mem_cons_of_mem _ member))

end PosixC.Foundation.Ledger
