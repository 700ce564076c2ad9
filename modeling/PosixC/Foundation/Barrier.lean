import Mathlib.Algebra.Order.BigOperators.Group.Finset
import Mathlib.Data.Fintype.BigOperators
import PosixC.Foundation.Transition

/-! Threads that share one mutex and meet once at one barrier.

A thread that has arrived at the barrier goes on as soon as enough threads have
arrived. A call that cannot return yet has no successor, so every step of a run
gets somewhere.
-/

set_option autoImplicit false

namespace PosixC.Foundation.Barrier

inductive Command (Shared Local Note : Type) where
  | lock (next : Local)
  | unlock (next : Local)
  | barrier (next : Local)
  | assign (shared : Shared) (next : Local) (notes : List Note)
  | blocked

structure State (Tid Shared Local : Type) where
  shared : Shared
  owner : Option Tid
  arrived : Finset Tid
  threads : Tid → Local

section Machine

variable {Tid Shared Local Note : Type}

abbrev Program (Tid Shared Local Note : Type) := Tid → Local → Shared → Command Shared Local Note

def initial (shared : Shared) (start : Tid → Local) : State Tid Shared Local := ⟨shared, none, ∅, start⟩

variable [DecidableEq Tid]

def State.move (state : State Tid Shared Local) (thread : Tid) (next : Local) : State Tid Shared Local :=
  { state with threads := Function.update state.threads thread next }

/-- `count` is the number of threads the barrier waits for. -/
def perform (count : Nat) (thread : Tid) (state : State Tid Shared Local) :
    Command Shared Local Note → Option (State Tid Shared Local × List (Tid × Note))
  | .lock next =>
      if state.owner = none then some ({ state.move thread next with owner := some thread }, []) else none
  | .unlock next =>
      if state.owner = some thread then some ({ state.move thread next with owner := none }, []) else none
  | .barrier next =>
      if thread ∈ state.arrived then
        if count ≤ state.arrived.card then some (state.move thread next, []) else none
      else some ({ state with arrived := insert thread state.arrived }, [])
  | .assign shared next notes =>
      some ({ state.move thread next with shared := shared }, notes.map fun note => (thread, note))
  | .blocked => none

def machine (count : Nat) (program : Program Tid Shared Local Note) : Machine (State Tid Shared Local) Tid (Tid × Note) where
  step state thread := perform count thread state (program thread (state.threads thread) state.shared)

@[simp] theorem move_self (state : State Tid Shared Local) (thread : Tid) (next : Local) :
    (state.move thread next).threads thread = next :=
  Function.update_self ..

theorem move_of_ne (state : State Tid Shared Local) {thread other : Tid} (next : Local) (different : other ≠ thread) :
    (state.move thread next).threads other = state.threads other :=
  Function.update_of_ne different ..

inductive Move (count : Nat) (program : Program Tid Shared Local Note) (state : State Tid Shared Local) (thread : Tid) :
    State Tid Shared Local → List (Tid × Note) → Prop where
  | lock {next : Local} : program thread (state.threads thread) state.shared = .lock next → state.owner = none →
      Move count program state thread { state.move thread next with owner := some thread } []
  | unlock {next : Local} : program thread (state.threads thread) state.shared = .unlock next →
      state.owner = some thread → Move count program state thread { state.move thread next with owner := none } []
  | arrive {next : Local} : program thread (state.threads thread) state.shared = .barrier next →
      thread ∉ state.arrived → Move count program state thread { state with arrived := insert thread state.arrived } []
  | pass {next : Local} : program thread (state.threads thread) state.shared = .barrier next →
      thread ∈ state.arrived → count ≤ state.arrived.card → Move count program state thread (state.move thread next) []
  | assign {shared : Shared} {next : Local} {notes : List Note} :
      program thread (state.threads thread) state.shared = .assign shared next notes →
      Move count program state thread { state.move thread next with shared := shared }
        (notes.map fun note => (thread, note))

variable {count : Nat} {program : Program Tid Shared Local Note} {state after : State Tid Shared Local} {thread : Tid}
  {written : List (Tid × Note)}

theorem move_of_step (step : (machine count program).step state thread = some (after, written)) :
    Move count program state thread after written := by
  simp only [machine] at step
  cases command : program thread (state.threads thread) state.shared with
  | lock next =>
    simp only [command, perform, Option.ite_none_right_eq_some, Option.some.injEq, Prod.mk.injEq] at step
    obtain ⟨free, rfl, rfl⟩ := step
    exact .lock command free
  | unlock next =>
    simp only [command, perform, Option.ite_none_right_eq_some, Option.some.injEq, Prod.mk.injEq] at step
    obtain ⟨own, rfl, rfl⟩ := step
    exact .unlock command own
  | barrier next =>
    simp only [command, perform] at step
    split at step
    · next member =>
      simp only [Option.ite_none_right_eq_some, Option.some.injEq, Prod.mk.injEq] at step
      obtain ⟨enough, rfl, rfl⟩ := step
      exact .pass command member enough
    · next absent =>
      cases step
      exact .arrive command absent
  | assign shared next notes =>
    rw [command] at step
    cases step
    exact .assign command
  | blocked =>
    rw [command] at step
    cases step

end Machine

section Exclusion

variable {Tid Shared Local Note : Type}

def Respects (holds : Local → Prop) (point : Local) : Command Shared Local Note → Prop
  | .lock next => ¬ holds point ∧ holds next
  | .unlock next => holds point ∧ ¬ holds next
  | .barrier next => ¬ holds point ∧ ¬ holds next
  | .assign _ next _ => holds point ↔ holds next
  | .blocked => True

def Exclusive (holds : Local → Prop) (state : State Tid Shared Local) : Prop :=
  ∀ thread, state.owner = some thread ↔ holds (state.threads thread)

variable [DecidableEq Tid] {count : Nat} {program : Program Tid Shared Local Note} {holds : Local → Prop}
  {state after : State Tid Shared Local} {thread : Tid} {written : List (Tid × Note)}

theorem Exclusive.move (exclusive : Exclusive holds state) {next : Local} {owner : Option Tid} {shared : Shared}
    (others : ∀ other, other ≠ thread → (owner = some other ↔ state.owner = some other))
    (own : owner = some thread ↔ holds next) :
    Exclusive holds { state.move thread next with owner := owner, shared := shared } := by
  intro other
  by_cases same : other = thread
  · subst same
    simpa using own
  · simpa [move_of_ne state next same, others other same] using exclusive other

theorem exclusive_step (respects : ∀ thread point shared, Respects holds point (program thread point shared))
    (exclusive : Exclusive holds state) (move : Move count program state thread after written) :
    Exclusive holds after := by
  have rule := respects thread (state.threads thread) state.shared
  cases move with
  | lock command free =>
    rw [command] at rule
    exact exclusive.move (fun other different => by simp [free, different.symm]) (by simp [rule.2])
  | unlock command own =>
    rw [command] at rule
    exact exclusive.move (fun other different => by simp [own, different.symm]) (by simp [rule.2])
  | arrive => exact exclusive
  | pass command =>
    rw [command] at rule
    exact exclusive.move (fun _ _ => Iff.rfl) ((exclusive thread).trans (iff_of_false rule.1 rule.2))
  | assign command =>
    rw [command] at rule
    exact exclusive.move (fun _ _ => Iff.rfl) ((exclusive thread).trans rule)

theorem exclusive_run (respects : ∀ thread point shared, Respects holds point (program thread point shared))
    {start : State Tid Shared Local} {actions : List Tid} {notes : List (Tid × Note)}
    (run : (machine count program).Run start actions notes state) (exclusive : Exclusive holds start) :
    Exclusive holds state :=
  run.invariant (fun _ state => Exclusive holds state) exclusive
    fun _ _ _ _ _ exclusive step => exclusive_step respects exclusive (move_of_step step)

end Exclusion

section Stages

inductive Stage where
  | before | meeting | past
  deriving DecidableEq

variable {Tid Shared Local Note : Type}

def Follows (stage : Local → Stage) (point : Local) : Command Shared Local Note → Prop
  | .lock next | .unlock next | .assign _ next _ =>
      stage next = stage point ∨ (stage point = .before ∧ stage next = .meeting)
  | .barrier next => stage point = .meeting ∧ stage next = .past
  | .blocked => True

/-- Who has arrived is at the barrier or past it, and nobody is past it before enough
threads have arrived. -/
structure Met (count : Nat) (stage : Local → Stage) (state : State Tid Shared Local) : Prop where
  arrived : ∀ thread ∈ state.arrived, stage (state.threads thread) ≠ .before
  past : ∀ thread, stage (state.threads thread) = .past → thread ∈ state.arrived ∧ count ≤ state.arrived.card

variable [DecidableEq Tid] {count : Nat} {program : Program Tid Shared Local Note} {stage : Local → Stage}
  {state after : State Tid Shared Local} {thread : Tid} {written : List (Tid × Note)}

theorem Met.move (met : Met count stage state) {next : Local} {owner : Option Tid} {shared : Shared}
    (follows : stage next = stage (state.threads thread) ∨
      (stage (state.threads thread) = .before ∧ stage next = .meeting)) :
    Met count stage { state.move thread next with owner := owner, shared := shared } := by
  constructor
  · intro other member
    by_cases same : other = thread
    · subst same
      rcases follows with kept | ⟨_, comes⟩
      · simpa [kept] using met.arrived other member
      · simp [comes]
    · simpa [move_of_ne state next same] using met.arrived other member
  · intro other gone
    by_cases same : other = thread
    · subst same
      rcases follows with kept | ⟨_, comes⟩
      · exact met.past other (by simpa [kept] using gone)
      · simp [comes] at gone
    · exact met.past other (by simpa [move_of_ne state next same] using gone)

theorem met_step (follows : ∀ thread point shared, Follows stage point (program thread point shared))
    (met : Met count stage state) (move : Move count program state thread after written) : Met count stage after := by
  have rule := follows thread (state.threads thread) state.shared
  cases move with
  | lock command =>
    rw [command] at rule
    exact met.move rule
  | unlock command =>
    rw [command] at rule
    exact met.move rule
  | assign command =>
    rw [command] at rule
    exact met.move rule
  -- Only an arrival changes who is there, and only those who are let through are past.
  | arrive command absent =>
    rw [command] at rule
    constructor
    · intro other member
      rcases Finset.mem_insert.mp member with rfl | before
      · simp [rule.1]
      · exact met.arrived other before
    · intro other gone
      obtain ⟨member, enough⟩ := met.past other gone
      exact ⟨Finset.mem_insert_of_mem member, enough.trans (Finset.card_le_card (Finset.subset_insert _ _))⟩
  | @pass next command member enough =>
    rw [command] at rule
    constructor
    · intro other among
      by_cases same : other = thread
      · subst same
        simp [rule.2]
      · simpa [move_of_ne state next same] using met.arrived other among
    · intro other gone
      by_cases same : other = thread
      · subst same
        exact ⟨member, enough⟩
      · exact met.past other (by simpa [move_of_ne state next same] using gone)

omit [DecidableEq Tid] in
theorem Met.none_past (met : Met count stage state) {team : Finset Tid} (teamed : state.arrived ⊆ team)
    (size : team.card ≤ count) {late : Tid} (member : late ∈ team) (before : stage (state.threads late) = .before)
    (thread : Tid) : stage (state.threads thread) ≠ .past := by
  intro gone
  obtain ⟨_, enough⟩ := met.past thread gone
  have absent : late ∉ state.arrived := fun arrived => met.arrived late arrived before
  have smaller : state.arrived ⊂ team := (Finset.ssubset_iff_of_subset teamed).mpr ⟨late, member, absent⟩
  have := Finset.card_lt_card smaller
  omega

end Stages

section Progress

variable {Tid Shared Local Note : Type}

def Lowers (rank : Local → Nat) (point : Local) : Command Shared Local Note → Prop
  | .lock next | .unlock next | .barrier next | .assign _ next _ => rank next < rank point
  | .blocked => True

variable [DecidableEq Tid] [Fintype Tid]

def State.work (rank : Local → Nat) (state : State Tid Shared Local) : Nat :=
  ∑ thread, rank (state.threads thread) + state.arrivedᶜ.card

variable {count : Nat} {program : Program Tid Shared Local Note} {rank : Local → Nat} {holds : Local → Prop}
  {state after : State Tid Shared Local} {thread : Tid} {written : List (Tid × Note)}

theorem sum_move {next : Local} (lower : rank next < rank (state.threads thread)) :
    ∑ other, rank ((state.move thread next).threads other) < ∑ other, rank (state.threads other) := by
  apply Finset.sum_lt_sum
  · intro other _
    by_cases same : other = thread
    · subst same
      simpa using lower.le
    · rw [move_of_ne state next same]
  · exact ⟨thread, Finset.mem_univ thread, by simpa using lower⟩

theorem work_step (lowers : ∀ thread point shared, Lowers rank point (program thread point shared))
    (move : Move count program state thread after written) : after.work rank < state.work rank := by
  have rule := lowers thread (state.threads thread) state.shared
  cases move with
  | lock command =>
    rw [command] at rule
    exact Nat.add_lt_add_right (sum_move rule) _
  | unlock command =>
    rw [command] at rule
    exact Nat.add_lt_add_right (sum_move rule) _
  | pass command =>
    rw [command] at rule
    exact Nat.add_lt_add_right (sum_move rule) _
  | assign command =>
    rw [command] at rule
    exact Nat.add_lt_add_right (sum_move rule) _
  | arrive command absent =>
    have fewer : (insert thread state.arrived)ᶜ ⊂ state.arrivedᶜ := by
      apply Finset.compl_ssubset_compl.mpr
      exact Finset.ssubset_insert absent
    exact Nat.add_lt_add_left (Finset.card_lt_card fewer) _

theorem length_run (lowers : ∀ thread point shared, Lowers rank point (program thread point shared))
    {start : State Tid Shared Local} {actions : List Tid} {notes : List (Tid × Note)}
    (run : (machine count program).Run start actions notes state) : actions.length + state.work rank ≤ start.work rank := by
  induction run with
  | start => exact (Nat.zero_add _).le
  | next _ step ih =>
    have less := work_step lowers (move_of_step step)
    rw [List.length_append, List.length_singleton]
    omega

def Stuck (count : Nat) (program : Program Tid Shared Local Note) (state : State Tid Shared Local) : Prop :=
  ∀ thread, (machine count program).step state thread = none

omit [Fintype Tid] in
theorem stuck_of_isNone {count : Nat} {program : Program Tid Shared Local Note} {state : State Tid Shared Local}
    (still : ∀ thread, ((machine count program).step state thread).isNone = true) : Stuck count program state :=
  fun thread => Option.isNone_iff_eq_none.mp (still thread)

omit [Fintype Tid] in
/-- The owner of the mutex can always go on, so whoever cannot move waits for an event
or at the barrier. -/
theorem waits_of_stuck (exclusive : Exclusive holds state)
    (respects : ∀ thread point shared, Respects holds point (program thread point shared))
    (goes : ∀ thread, holds (state.threads thread) → program thread (state.threads thread) state.shared ≠ .blocked)
    (stuck : Stuck count program state) (thread : Tid) :
    program thread (state.threads thread) state.shared = .blocked ∨
      ∃ next, program thread (state.threads thread) state.shared = .barrier next ∧ thread ∈ state.arrived ∧
        state.arrived.card < count := by
  -- The owner of the mutex never comes to the barrier with it and has no event to wait for.
  have free : state.owner = none := by
    cases owner : state.owner with
    | none => rfl
    | some holder =>
      have inside := (exclusive holder).mp owner
      have rule := respects holder (state.threads holder) state.shared
      have still := stuck holder
      simp only [machine] at still
      cases command : program holder (state.threads holder) state.shared with
      | lock next =>
        rw [command] at rule
        exact absurd inside rule.1
      | unlock next => simp [command, perform, owner] at still
      | barrier next =>
        rw [command] at rule
        exact absurd inside rule.1
      | assign shared next notes => simp [command, perform] at still
      | blocked => exact absurd command (goes holder inside)
  have still := stuck thread
  simp only [machine] at still
  have rule := respects thread (state.threads thread) state.shared
  cases command : program thread (state.threads thread) state.shared with
  | lock next => simp [command, perform, free] at still
  | unlock next =>
    rw [command] at rule
    have own := (exclusive thread).mpr rule.1
    rw [free] at own
    cases own
  | barrier next =>
    simp only [command, perform] at still
    split at still
    · next member =>
      simp only [ite_eq_right_iff, reduceCtorEq, imp_false, not_le] at still
      exact Or.inr ⟨next, rfl, member, still⟩
    · cases still
  | assign shared next notes => simp [command, perform] at still
  | blocked => exact Or.inl rfl

end Progress
end PosixC.Foundation.Barrier
