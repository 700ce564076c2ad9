import Mathlib.Tactic.Ring
import PosixC.Power.Counting

/-! The whole of ex09/power under every schedule.

No run is endless, and one that cannot go on has printed exactly what was expected,
as long as every worker is created and the counter has room.
-/

set_option autoImplicit false

namespace PosixC.Power

open Foundation Foundation.Barrier

variable {threads : Nat} {creates : Nat → Bool} {state after : World threads}
  {actions : List (Thread threads)} {notes : List (Thread threads × Report)}

theorem work_start (threads : Nat) : (startWorld threads).work rank = 4 * (threads * threads) + 7 * threads + 3 := by
  simp only [State.work, startWorld, initial, Finset.compl_empty, Finset.card_univ, Fintype.sum_option, startPoint, rank,
    Finset.sum_const, Fintype.card_fin, Fintype.card_option, Nat.nsmul_eq_mul, Nat.sub_zero]
  ring

theorem increments_le {id : Fin threads} {shared : Shared} {point : Point threads} (knows : Knows id shared point) :
    increments point ≤ threads := by
  cases point with
  | iterate i => exact knows.2
  | load i | store i => exact i.isLt.le
  | unlock i => exact i.isLt
  | exit | gone => exact le_rfl
  | _ => exact Nat.zero_le _

/-- A worker that has the mutex before its addition leaves room for it. -/
theorem total_lt (sound : Sound creates state) {id : Fin threads} (less : increments (state.threads (some id)) < threads) :
    total state < threads * threads := by
  calc total state < ∑ _ : Fin threads, threads :=
        Finset.sum_lt_sum (fun other _ => increments_le (sound.worker other)) ⟨id, Finset.mem_univ id, less⟩
    _ = threads * threads := by simp

theorem not_blocked_inside (sound : Sound creates state) (fits : IsInt (threads * threads : Nat)) (thread : Thread threads)
    (inside : Holds (state.threads thread)) :
    program creates thread (state.threads thread) state.shared ≠ .blocked := by
  cases thread with
  | none =>
    have knows := sound.main
    cases place : state.threads none <;> rw [place] at knows inside <;> first | exact knows.elim | exact inside.elim
  | some id =>
    cases place : state.threads (some id) with
    | load i => simp [program, workerRun]
    | store i value =>
      have knows := sound.worker id
      rw [place] at knows
      have room : total state < threads * threads := @total_lt _ _ _ sound id (by rw [place]; exact i.isLt)
      have next : IsInt (value + 1) := by
        rw [knows.2, sound.counter]
        exact @IsInt.of_le (total state + 1) _ fits room
      simp [program, workerRun, exactInt_some next]
    | unlock i => simp [program, workerRun]
    | _ =>
      rw [place] at inside
      exact inside.elim

theorem gone_or_waits (sound : Sound creates state) (fits : IsInt (threads * threads : Nat))
    (stuck : Stuck (barrierCount threads) (program creates) state) {id : Fin threads} (created : id < state.shared.created) :
    state.threads (some id) = .gone ∨
      (state.threads (some id) = .barrierWait ∧ some id ∈ state.arrived ∧ state.arrived.card < barrierCount threads) := by
  have knows := sound.worker id
  have waits := waits_of_stuck sound.exclusive (respects creates) (not_blocked_inside sound fits) stuck (some id)
  have inside := not_blocked_inside sound fits (some id)
  rcases waits with blocked | ⟨next, meets, arrived, few⟩
  · apply Or.inl
    cases place : state.threads (some id) with
    | gone => rfl
    | begin => simp [place, program, workerRun, created] at blocked
    | iterate i =>
      rw [place] at blocked
      simp only [program, workerRun] at blocked
      split at blocked <;> cases blocked
    | store i value =>
      rw [place] at inside blocked
      exact absurd blocked (inside trivial)
    | barrierWait | load | unlock | exit => simp [place, program, workerRun] at blocked
    | create | join | done =>
      rw [place] at knows
      exact knows.elim
  · apply Or.inr
    generalize place : state.threads (some id) = point at meets
    cases does_of_program meets with
    | barrierWait => exact ⟨rfl, arrived, few⟩

/-- Where all the workers are created, they do not wait for each other in vain. -/
theorem all_gone (sound : Sound creates state) (fits : IsInt (threads * threads : Nat)) (small : threads < 2 ^ 32)
    (stuck : Stuck (barrierCount threads) (program creates) state) (created : state.shared.created = threads)
    (id : Fin threads) : state.threads (some id) = .gone := by
  have started : ∀ other : Fin threads, other < state.shared.created := by
    intro other
    rw [created]
    exact other.isLt
  rcases gone_or_waits sound fits stuck (started id) with gone | ⟨_, _, few⟩
  · exact gone
  · have everybody : Finset.univ.erase none ⊆ state.arrived := by
      intro thread member
      cases thread with
      | none => exact absurd rfl (Finset.ne_of_mem_erase member)
      | some other =>
        rcases gone_or_waits sound fits stuck (started other) with gone | ⟨_, arrived, _⟩
        · exact (sound.met.past (some other) (by rw [gone]; rfl)).1
        · exact arrived
    have enough := Finset.card_le_card everybody
    rw [Finset.card_erase_of_mem (Finset.mem_univ _), Finset.card_univ, Fintype.card_option, Fintype.card_fin] at enough
    rw [barrierCount, Nat.mod_eq_of_lt small] at few
    omega

theorem done_of_stuck (sound : Sound creates state) (fits : IsInt (threads * threads : Nat)) (small : threads < 2 ^ 32)
    (stuck : Stuck (barrierCount threads) (program creates) state) (all : ∀ tx < threads, creates tx = true) :
    state.threads none = .done := by
  have knows := sound.main
  have waits := waits_of_stuck sound.exclusive (respects creates) (not_blocked_inside sound fits) stuck none
  rcases waits with blocked | ⟨next, meets, _, _⟩
  · cases place : state.threads none with
    | done => rfl
    | create tx =>
      rw [place] at blocked
      simp only [program, runMain] at blocked
      split at blocked
      · split at blocked <;> cases blocked
      · cases blocked
    | join tx limit =>
      rw [place] at knows blocked
      obtain ⟨created, limited, _⟩ := knows
      -- All of them were created, so `main` joins all of them.
      have same : limit = threads := by
        rcases limited.le.eq_or_lt with same | less
        · exact same
        · exact absurd (limited.fails less) (by simp [all limit less])
      simp only [program, runMain] at blocked
      split at blocked
      · next more =>
        split at blocked
        · cases blocked
        · next absent =>
          have gone := all_gone sound fits small stuck (created.trans same) ⟨tx, more.trans_eq same⟩
          have exited := sound.worker ⟨tx, more.trans_eq same⟩
          rw [gone] at exited
          exact absurd exited.2 absent
      · cases blocked
    | _ =>
      rw [place] at knows
      exact knows.elim
  · generalize place : state.threads none = point at meets
    cases does_of_program meets

theorem finishes (all : ∀ tx < threads, creates tx = true) (small : threads < 2 ^ 32)
    (fits : IsInt (threads * threads : Nat))
    (run : (powerMachine threads creates).Run (startWorld threads) actions notes state) :
    actions.length ≤ 4 * (threads * threads) + 7 * threads + 3 ∧
      (Stuck (barrierCount threads) (program creates) state →
        notes = [(none, ⟨threads, threads * threads, threads * threads, true⟩)]) := by
  constructor
  · have bound := length_run (lowers creates) run
    rw [work_start] at bound
    omega
  · intro stuck
    have done := done_of_stuck (sound_run run) fits small stuck all
    have printed := printed_run small run
    rw [Printed, if_pos done] at printed
    obtain ⟨report, rfl, ⟨_, rfl⟩ | ⟨fails, rfl⟩⟩ := printed
    · rfl
    · have empty : threads = 0 := by
        by_contra some
        exact absurd (all 0 (Nat.pos_of_ne_zero some)) (by simp [fails])
      subst empty
      rfl

theorem finishes_two : ∃ final notes, (powerMachine 2 fun _ => true).Run (startWorld 2) scheduleTwo notes final ∧
    Stuck (barrierCount 2) (program fun _ => true) final ∧ scheduleTwo.length ≤ 33 ∧ notes = [(none, ⟨2, 4, 4, true⟩)] := by
  obtain ⟨final, notes, run, still⟩ := @Machine.exists_run_of_any _ _ _ (powerMachine 2 fun _ => true) scheduleTwo
    (startWorld 2) (fun result => decide (∀ thread, ((powerMachine 2 fun _ => true).step result.1 thread).isNone = true))
    (by decide)
  have stuck := stuck_of_isNone (of_decide_eq_true still)
  obtain ⟨bound, printed⟩ := finishes (fun _ _ => rfl) (by decide) (by decide) run
  exact ⟨final, notes, run, stuck, bound, printed stuck⟩

end PosixC.Power
