import Mathlib.Algebra.BigOperators.Group.List.Basic
import Mathlib.Algebra.Order.Ring.Int
import PosixC.Sigcalc.Model

/-! What becomes of the additions sent to the server of ex06/sigcalc.

An addition is sent as a standard signal, so the kernel keeps only the first of
those that arrive between two deliveries. The counter is behind by exactly the
others.
-/

set_option autoImplicit false
set_option linter.dupNamespace false

namespace PosixC.Sigcalc

open Foundation Foundation.Signals

section Amounts

def sent (notes : List Note) : Int :=
  (notes.map fun note => match note with | .addSent number _ => number | _ => 0).sum

/-- Those of them that were sent while an addition was pending. -/
def late (notes : List Note) : Int :=
  (notes.map fun note => match note with | .addSent number false => number | _ => 0).sum

def amount (entry : Signal × Int) : Int :=
  if entry.1 = usrSigAdd then entry.2 else 0

def hand : Point → Int
  | .addPrint value | .addLoad value | .addStore value _ => value
  | _ => 0

theorem sent_append (first second : List Note) : sent (first ++ second) = sent first + sent second := by
  simp only [sent, List.map_append, List.sum_append]

theorem late_append (first second : List Note) : late (first ++ second) = late first + late second := by
  simp only [late, List.map_append, List.sum_append]

theorem sum_of_perm {pending rest : List (Signal × Int)} {entry : Signal × Int} (perm : pending.Perm (entry :: rest)) :
    (pending.map amount).sum = amount entry + (rest.map amount).sum := by
  rw [(perm.map amount).sum_eq, List.map_cons, List.sum_cons]

theorem sum_post_get (pending : List (Signal × Int)) (number : Int) :
    ((post realTime pending usrSigGet number).map amount).sum = (pending.map amount).sum := by
  rw [post_standard rfl]
  split
  · rfl
  · rw [List.map_append, List.sum_append, List.map_singleton, List.sum_singleton]
    simp only [amount, usrSigGet, usrSigAdd, reduceCtorEq, if_false, add_zero]

theorem sum_post_add (pending : List (Signal × Int)) (number : Int) :
    ((post realTime pending usrSigAdd number).map amount).sum +
      late [.addSent number (decide (usrSigAdd ∉ pending.map Prod.fst))] = (pending.map amount).sum + number := by
  rw [post_standard rfl]
  split
  · next occupied =>
    rw [decide_eq_false (not_not_intro occupied)]
    simp only [late, List.map_singleton, List.sum_singleton]
  · next vacant =>
    rw [decide_eq_true vacant, List.map_append, List.sum_append, List.map_singleton, List.sum_singleton]
    simp only [late, amount, List.map_singleton, List.sum_singleton, if_true, add_zero]

end Amounts

section Server

variable {Client : Type}

def Ready (process : Process Signal Int Routine Point) : Prop :=
  process.disposition usrSigAdd = some (.usrsigadd, sigIntset) ∧
  process.disposition usrSigGet = some (.usrsigget, sigIntset)

def Handling (process : Process Signal Int Routine Point) : Prop :=
  process.suspended = none ∧ sigIntset ⊆ process.mask ∧
  ∃ saved, process.frames = [(.loop, saved)] ∧ sigIntset ⊆ saved

def Unknown (state : State Client) : Prop :=
  state.process.suspended = none ∧ state.process.frames = [] ∧ state.process.pending = [] ∧ state.announced = false

def Placed (state : State Client) : Point → Prop
  | .block => Unknown state
  | .installGet => Unknown state ∧ sigIntset ⊆ state.process.mask
  | .installAdd => Unknown state ∧ sigIntset ⊆ state.process.mask ∧
      state.process.disposition usrSigGet = some (.usrsigget, sigIntset)
  | .announce => Unknown state ∧ sigIntset ⊆ state.process.mask ∧ Ready state.process
  | .loop => Ready state.process ∧ state.process.frames = [] ∧
      sigIntset ⊆ state.process.suspended.getD state.process.mask
  | .addStore _ loaded => Ready state.process ∧ Handling state.process ∧ loaded = state.counter
  | .killed => False
  | _ => Ready state.process ∧ Handling state.process

structure Kept (notes : List Note) (state : State Client) : Prop where
  placed : Placed state state.process.point
  known : ∀ entry ∈ state.process.pending, entry.1 ∈ sigIntset
  balanced : state.counter + hand state.process.point + (state.process.pending.map amount).sum + late notes = sent notes

variable {notes written : List Note} {state after : State Client}

/-- A step that sends nothing and takes nothing from the pending signals. -/
theorem Kept.carry (kept : Kept notes state) (placed : Placed after after.process.point)
    (pending : after.process.pending = state.process.pending)
    (moved : after.counter + hand after.process.point = state.counter + hand state.process.point)
    (silent : sent written = 0 ∧ late written = 0) : Kept (notes ++ written) after := by
  refine ⟨placed, by rw [pending]; exact kept.known, ?_⟩
  rw [pending, moved, sent_append, late_append, silent.1, silent.2, add_zero, add_zero]
  exact kept.balanced

theorem kept_server (kept : Kept notes state) (step : serverStep state = some (after, written)) :
    Kept (notes ++ written) after := by
  have placed := kept.placed
  cases asleep : state.process.suspended with
  | some saved =>
    simp only [serverStep, asleep, Option.isSome_some, if_true] at step
    cases step
  | none =>
    simp only [serverStep, asleep, Option.isSome_none, Bool.false_eq_true, if_false] at step
    cases place : state.process.point with
    | block =>
      rw [place] at step placed
      cases step
      refine kept.carry ⟨⟨rfl, placed.2⟩, Finset.subset_union_right⟩ rfl ?_ ⟨rfl, rfl⟩
      rw [place]
      rfl
    | installGet =>
      rw [place] at step placed
      cases step
      refine kept.carry ⟨placed.1, placed.2, ?_⟩ rfl ?_ ⟨rfl, rfl⟩
      · exact state.process.sigaction_self usrSigGet .usrsigget sigIntset
      · rw [place]
        rfl
    | installAdd =>
      rw [place] at step placed
      cases step
      refine kept.carry ⟨placed.1, placed.2.1, ?_, ?_⟩ rfl ?_ ⟨rfl, rfl⟩
      · exact state.process.sigaction_self usrSigAdd .usrsigadd sigIntset
      · rw [← placed.2.2]
        exact state.process.sigaction_of_ne .usrsigadd sigIntset (show usrSigGet ≠ usrSigAdd by decide)
      · rw [place]
        rfl
    | announce =>
      rw [place] at step placed
      cases step
      obtain ⟨⟨_, frames, _⟩, blocked, ready⟩ := placed
      refine kept.carry ⟨ready, frames, ?_⟩ rfl ?_ ⟨rfl, rfl⟩
      · simpa [State.goTo, asleep] using blocked
      · rw [place]
        rfl
    | loop =>
      rw [place] at step placed
      cases step
      obtain ⟨ready, frames, blocked⟩ := placed
      rw [asleep] at blocked
      refine kept.carry ?_ rfl rfl ⟨rfl, rfl⟩
      simp only [Process.sigsuspend, place]
      exact ⟨ready, frames, blocked⟩
    | addPrint value =>
      rw [place] at step placed
      cases step
      refine kept.carry placed rfl ?_ ⟨rfl, rfl⟩
      rw [place]
      rfl
    | addLoad value =>
      rw [place] at step placed
      cases step
      refine kept.carry ⟨placed.1, placed.2, rfl⟩ rfl ?_ ⟨rfl, rfl⟩
      rw [place]
      rfl
    -- No other handler runs, so the counter is still what was loaded.
    | addStore value loaded =>
      rw [place] at step placed
      cases step
      obtain ⟨ready, handling, same⟩ := placed
      refine kept.carry ⟨ready, handling⟩ rfl ?_ ⟨rfl, rfl⟩
      simp only [State.goTo, hand, place, same, add_zero]
    | getPrintValue value =>
      rw [place] at step placed
      cases step
      refine kept.carry placed rfl ?_ ⟨rfl, rfl⟩
      rw [place]
      rfl
    | getPrint =>
      rw [place] at step placed
      cases step
      refine kept.carry placed rfl ?_ ⟨rfl, rfl⟩
      rw [place]
      rfl
    | handlerEnd =>
      rw [place] at step placed
      obtain ⟨ready, _, _, saved, frames, blocked⟩ := placed
      simp only [Process.sigreturn, frames] at step
      cases step
      refine kept.carry ⟨ready, rfl, ?_⟩ rfl ?_ ⟨rfl, rfl⟩
      · simpa [asleep] using blocked
      · rw [place]
        rfl
    | killed =>
      rw [place] at step
      cases step

theorem Placed.blocked {point : Point} (placed : Placed state point) :
    state.process.pending = [] ∨ sigIntset ⊆ state.process.mask ∨
      point = .loop ∧ ∃ saved, state.process.suspended = some saved ∧ sigIntset ⊆ saved := by
  cases point with
  | block => exact Or.inl placed.2.2.1
  | installGet | installAdd | announce => exact Or.inl placed.1.2.2.1
  | loop =>
    obtain ⟨_, _, blocked⟩ := placed
    cases asleep : state.process.suspended with
    | none =>
      rw [asleep] at blocked
      exact Or.inr (Or.inl blocked)
    | some saved =>
      rw [asleep] at blocked
      exact Or.inr (Or.inr ⟨rfl, saved, rfl, blocked⟩)
  | addStore => exact Or.inr (Or.inl placed.2.1.2.1)
  | killed => exact absurd placed id
  | addPrint | addLoad | getPrintValue | getPrint | handlerEnd => exact Or.inr (Or.inl placed.2.2.1)

theorem placed_entry (routine : Routine) (value : Int) (ready : Ready state.process)
    (handling : Handling state.process) :
    Placed state (routine.entry value) := by
  cases routine <;> exact ⟨ready, handling⟩

/-- A handler that interrupts `sigsuspend` takes over what its signal carries. -/
theorem kept_handled (kept : Kept notes state) {sig : Signal} {routine : Routine} {saved : Finset Signal}
    {process : Process Signal Int Routine Point} (loop : state.process.point = .loop)
    (asleep : state.process.suspended = some saved) (blocked : sigIntset ⊆ saved)
    (handler : state.process.disposition sig = some (routine, sigIntset))
    (carries : ∀ value, hand (routine.entry value) = amount (sig, value))
    (delivered : state.process.deliver Routine.entry .killed sig = some process) :
    Kept notes { state with process := process } := by
  have placed := kept.placed
  have balanced := kept.balanced
  rw [loop] at placed balanced
  obtain ⟨ready, frames, _⟩ := placed
  obtain ⟨value, rest, perm, rfl⟩ := handled_of_deliver handler delivered
  constructor
  · refine placed_entry routine value ready ⟨rfl, fun _ member => ?_, saved, ?_, blocked⟩
    · exact Finset.mem_union_left _ (Finset.mem_union_right _ member)
    · simp only [loop, asleep, frames, Option.getD_some]
  · intro entry member
    exact kept.known entry (perm.mem_iff.mpr (.tail _ member))
  · rw [sum_of_perm perm] at balanced
    simp only [carries]
    simp only [hand] at balanced
    omega

theorem kept_deliver (kept : Kept notes state) {sig : Signal} {process : Process Signal Int Routine Point}
    (delivered : state.process.deliver Routine.entry .killed sig = some process) :
    Kept notes { state with process := process } := by
  obtain ⟨unblocked, value, pending⟩ := unblocked_of_deliver delivered
  have known := kept.known _ pending
  have placed := kept.placed
  rcases placed.blocked with empty | blocked | ⟨loop, saved, asleep, blocked⟩
  · rw [empty] at pending
    cases pending
  · exact absurd (blocked known) unblocked
  · rw [loop] at placed
    simp only [sigIntset, Finset.mem_insert, Finset.mem_singleton] at known
    rcases known with rfl | rfl
    · exact kept_handled kept loop asleep blocked placed.1.1 (fun _ => rfl) delivered
    · exact kept_handled kept loop asleep blocked placed.1.2 (fun _ => rfl) delivered

theorem Placed.congr {point : Point} (placed : Placed state point) (mask : after.process.mask = state.process.mask)
    (suspended : after.process.suspended = state.process.suspended)
    (frames : after.process.frames = state.process.frames)
    (disposition : after.process.disposition = state.process.disposition) (counter : after.counter = state.counter)
    (announced : after.announced = state.announced)
    (quiet : state.announced = true ∨ after.process.pending = state.process.pending) : Placed after point := by
  have unknown : Unknown state → Unknown after := by
    rintro ⟨asleep, empty, deserted, hidden⟩
    rcases quiet with spoken | same
    · cases hidden.symm.trans spoken
    · exact ⟨suspended.trans asleep, frames.trans empty, same.trans deserted, announced.trans hidden⟩
  cases point <;>
    simp only [Placed, Ready, Handling, mask, suspended, frames, disposition, counter] at placed ⊢ <;>
    first | exact placed | exact unknown placed | exact ⟨unknown placed.1, placed.2⟩

def Settled (state : State Client) : Prop :=
  state.process.pending = [] ∧ state.process.frames = []

theorem hand_of_settled {point : Point} (placed : Placed state point) (idle : state.process.frames = []) :
    hand point = 0 := by
  cases point with
  | addPrint | addLoad =>
    obtain ⟨_, _, _, saved, frames, _⟩ := placed
    cases idle.symm.trans frames
  | addStore =>
    obtain ⟨_, ⟨_, _, saved, frames, _⟩, _⟩ := placed
    cases idle.symm.trans frames
  | _ => rfl

end Server

section Clients

variable {Client : Type} [DecidableEq Client] {request : Client → Request} {notes written : List Note}
  {state after : State Client}

theorem clientStep_cases {client : Client} {fails : Bool}
    (step : clientStep request state client fails = some (after, written)) :
    (after.process = state.process ∧ sent written = 0 ∧ late written = 0 ∨
      state.announced = true ∧ ∃ sig number,
        after.process = { state.process with pending := post realTime state.process.pending sig number } ∧
        (sig = usrSigGet ∧ written = [] ∨
          sig = usrSigAdd ∧ written = [.addSent number (decide (usrSigAdd ∉ state.process.pending.map Prod.fst))])) ∧
      after.counter = state.counter ∧ after.announced = state.announced := by
  unfold clientStep at step
  split at step
  · split at step <;> cases step <;> exact ⟨Or.inl ⟨rfl, rfl, rfl⟩, rfl, rfl⟩
  · split at step
    · next announced =>
      split at step
      · split at step
        · cases step
          exact ⟨Or.inl ⟨rfl, rfl, rfl⟩, rfl, rfl⟩
        · cases step
          exact ⟨Or.inr ⟨announced, _, _, rfl, Or.inl ⟨rfl, rfl⟩⟩, rfl, rfl⟩
      · split at step
        · cases step
          exact ⟨Or.inl ⟨rfl, rfl, rfl⟩, rfl, rfl⟩
        · cases step
          exact ⟨Or.inr ⟨announced, _, _, rfl, Or.inr ⟨rfl, rfl⟩⟩, rfl, rfl⟩
    · cases step
  · cases step

theorem kept_client (kept : Kept notes state) {client : Client} {fails : Bool}
    (step : clientStep request state client fails = some (after, written)) : Kept (notes ++ written) after := by
  obtain ⟨⟨same, silent⟩ | ⟨announced, sig, number, posted, sends⟩, counter, spoken⟩ := clientStep_cases step
  · refine kept.carry ?_ (by rw [same]) (by rw [same, counter]) silent
    have placed : Placed after state.process.point :=
      kept.placed.congr (by rw [same]) (by rw [same]) (by rw [same]) (by rw [same]) counter spoken
        (Or.inr (by rw [same]))
    rwa [same]
  · have placed : Placed after state.process.point :=
      kept.placed.congr (by rw [posted]) (by rw [posted]) (by rw [posted]) (by rw [posted]) counter spoken
        (Or.inl announced)
    have known : ∀ entry ∈ after.process.pending, entry.1 ∈ sigIntset := by
      intro entry member
      rw [posted] at member
      rcases mem_of_post member with old | rfl
      · exact kept.known entry old
      · rcases sends with ⟨rfl, _⟩ | ⟨rfl, _⟩
        · exact Finset.mem_insert_of_mem (Finset.mem_singleton_self _)
        · exact Finset.mem_insert_self ..
    refine ⟨by rw [posted]; exact placed, known, ?_⟩
    have balanced := kept.balanced
    have point : after.process.point = state.process.point := by rw [posted]
    have pending : after.process.pending = post realTime state.process.pending sig number := by rw [posted]
    rw [sent_append, late_append, counter, point, pending]
    rcases sends with ⟨rfl, rfl⟩ | ⟨rfl, rfl⟩
    · rw [sum_post_get, show sent [] = 0 from rfl, show late [] = 0 from rfl]
      omega
    · have kept_or_late := sum_post_add state.process.pending number
      rw [show ∀ early, sent [.addSent number early] = number by simp [sent]]
      omega

theorem kept_run {inherited : Finset Signal} {actions : List (Action Client)}
    (run : (sigcalcMachine request).Run (startState inherited) actions notes state) : Kept notes state := by
  apply run.invariant Kept
  · exact ⟨⟨rfl, rfl, rfl, rfl⟩, by simp [startState], rfl⟩
  · intro notes state action after written kept step
    cases action with
    | server => exact kept_server kept step
    | client client fails => exact kept_client kept step
    | deliver sig =>
      simp only [sigcalcMachine] at step
      split at step
      · cases step
      · split at step
        · cases step
        · next process delivered =>
          cases step
          rw [List.append_nil]
          exact kept_deliver kept delivered

/-- Once all signals are delivered, the counter is the sum of the numbers whose
`add` reported no error exactly when those sent while an addition was pending
add up to nothing. -/
theorem additions_kept_iff {inherited : Finset Signal} {actions : List (Action Client)}
    (run : (sigcalcMachine request).Run (startState inherited) actions notes state) (settled : Settled state) :
    state.counter = sent notes ↔ late notes = 0 := by
  obtain ⟨placed, _, balanced⟩ := kept_run run
  rw [settled.1, hand_of_settled placed settled.2, List.map_nil, List.sum_nil] at balanced
  omega

end Clients

section Schedules

def twoNumbers (client : Bool) : Request := .add (if client then 2 else 1)

def setUp : List (Action Bool) := List.replicate 4 .server

def sends (client : Bool) : List (Action Bool) := List.replicate 2 (.client client false)

def serve : List (Action Bool) := .server :: .deliver usrSigAdd :: List.replicate 4 .server

theorem additions_kept_apart :
    ∃ notes state, (sigcalcMachine twoNumbers).Run (startState ∅)
        (setUp ++ (sends false ++ (serve ++ (sends true ++ serve)))) notes state ∧
      Settled state ∧ state.counter = 3 ∧ sent notes = 3 := by
  have executes : ((sigcalcMachine twoNumbers).exec (startState ∅)
      (setUp ++ (sends false ++ (serve ++ (sends true ++ serve))))).any (fun result =>
        decide (result.1.process.pending = [] ∧ result.1.process.frames = [] ∧ late result.2 = 0 ∧
          sent result.2 = 3)) = true := by decide +kernel
  obtain ⟨state, notes, run, facts⟩ := Machine.exists_run_of_any executes
  simp only [decide_eq_true_eq] at facts
  obtain ⟨pending, frames, punctual, total⟩ := facts
  have kept := (additions_kept_iff run ⟨pending, frames⟩).mpr punctual
  exact ⟨notes, state, run, ⟨pending, frames⟩, kept.trans total, total⟩

/-- Two clients send before the server is in `sigsuspend`, and both are told
that their number was sent. -/
theorem addition_lost :
    ∃ notes state, (sigcalcMachine twoNumbers).Run (startState ∅)
        (setUp ++ (sends false ++ (sends true ++ serve))) notes state ∧
      Settled state ∧ Note.addSent 1 true ∈ notes ∧ Note.addSent 2 false ∈ notes ∧
      state.counter = 1 ∧ sent notes = 3 := by
  have executes : ((sigcalcMachine twoNumbers).exec (startState ∅)
      (setUp ++ (sends false ++ (sends true ++ serve)))).any (fun result =>
        decide (result.1.process.pending = [] ∧ result.1.process.frames = [] ∧ Note.addSent 1 true ∈ result.2 ∧
          Note.addSent 2 false ∈ result.2 ∧ result.1.counter = 1 ∧ sent result.2 = 3)) = true := by
    decide +kernel
  obtain ⟨state, notes, run, facts⟩ := Machine.exists_run_of_any executes
  simp only [decide_eq_true_eq] at facts
  obtain ⟨pending, frames, first, second, counter, total⟩ := facts
  exact ⟨notes, state, run, ⟨pending, frames⟩, first, second, counter, total⟩

end Schedules
end PosixC.Sigcalc
