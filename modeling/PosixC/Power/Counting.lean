import PosixC.Foundation.Sums
import PosixC.Power.Model

/-! What the `main` of ex09/power can report.

The counter is the sum of what the workers have done, and a worker does nothing before
all the others have been created.
-/

set_option autoImplicit false

namespace PosixC.Power

open Foundation Foundation.Barrier

variable {threads : Nat} {creates : Nat → Bool} {state after : World threads}
  {written : List (Thread threads × Report)}

def increments : Point threads → Nat
  | .iterate i => i
  | .load i | .store i _ => i
  | .unlock i => i + 1
  | .exit | .gone => threads
  | _ => 0

def total (state : World threads) : Nat := ∑ id, increments (state.threads (some id))

structure Limit (threads : Nat) (creates : Nat → Bool) (limit : Nat) : Prop where
  le : limit ≤ threads
  succeeds : ∀ tx < limit, creates tx = true
  fails : limit < threads → creates limit = false

def Knows (id : Fin threads) (shared : Shared) : Point threads → Prop
  | .begin => id.val ∉ shared.exited
  | .barrierWait | .load _ | .unlock _ | .exit => id < shared.created ∧ id.val ∉ shared.exited
  | .iterate i => (id < shared.created ∧ id.val ∉ shared.exited) ∧ i ≤ threads
  | .store _ value => (id < shared.created ∧ id.val ∉ shared.exited) ∧ value = shared.counter
  | .gone => id < shared.created ∧ id.val ∈ shared.exited
  | .create _ | .join _ _ | .done => False

def MainKnows (creates : Nat → Bool) (shared : Shared) : Point threads → Prop
  | .create tx => shared.created = tx ∧ tx ≤ threads ∧ ∀ earlier < tx, creates earlier = true
  | .join tx limit => shared.created = limit ∧ Limit threads creates limit ∧ ∀ earlier < tx, earlier ∈ shared.exited
  | .done => Limit threads creates shared.created ∧ ∀ earlier < shared.created, earlier ∈ shared.exited
  | _ => False

structure Sound (creates : Nat → Bool) (state : World threads) : Prop where
  exclusive : Exclusive Holds state
  met : Met (barrierCount threads) stage state
  counter : state.shared.counter = total state
  fits : IsInt state.shared.counter
  worker : ∀ id, Knows id state.shared (state.threads (some id))
  main : MainKnows creates state.shared (state.threads none)

theorem increments_of_before {point : Point threads} (early : stage point ≠ .past) : increments point = 0 := by
  cases point <;> first | rfl | exact absurd rfl early

theorem total_main (next : Point threads) : total (state.move none next) = total state := by
  apply Finset.sum_congr rfl
  intro id _
  rw [move_of_ne state next (by simp)]

theorem total_move (id : Fin threads) (next : Point threads) :
    total (state.move (some id) next) + increments (state.threads (some id)) = total state + increments next := by
  apply sum_changed id
  · intro other different
    rw [move_of_ne state next (by simpa using different)]
  · rw [move_self, Nat.add_comm]

theorem knows_stable {id : Fin threads} {before now : Shared} {point : Point threads}
    (created : before.created ≤ now.created) (exited : id.val ∈ now.exited ↔ id.val ∈ before.exited)
    (counter : Holds point → now.counter = before.counter) (knows : Knows id before point) : Knows id now point := by
  cases point with
  | begin => exact mt exited.mp knows
  | barrierWait | load | unlock | exit => exact ⟨knows.1.trans_le created, mt exited.mp knows.2⟩
  | iterate => exact ⟨⟨knows.1.1.trans_le created, mt exited.mp knows.1.2⟩, knows.2⟩
  | store => exact ⟨⟨knows.1.1.trans_le created, mt exited.mp knows.1.2⟩, knows.2.trans (counter trivial).symm⟩
  | gone => exact ⟨knows.1.trans_le created, exited.mpr knows.2⟩
  | create | join | done => cases knows

theorem mainKnows_stable {before now : Shared} {point : Point threads} (created : now.created = before.created)
    (exited : before.exited ⊆ now.exited) (knows : MainKnows creates before point) : MainKnows creates now point := by
  cases point with
  | create => exact ⟨created.trans knows.1, knows.2⟩
  | join => exact ⟨created.trans knows.1, knows.2.1, fun earlier less => exited (knows.2.2 earlier less)⟩
  | done =>
    simp only [MainKnows, created]
    exact ⟨knows.1, fun earlier less => exited (knows.2 earlier less)⟩
  | _ => cases knows

theorem sound_start (creates : Nat → Bool) : Sound creates (startWorld threads) where
  exclusive := by
    intro thread
    cases thread <;> simp [startWorld, initial, startPoint, Holds]
  met := by
    constructor
    · intro thread member
      simp [startWorld, initial] at member
    · intro thread gone
      cases thread <;> cases gone
  counter := by simp [startWorld, initial, startPoint, total, increments]
  fits := by simp [startWorld, initial, IsInt, intMax]
  worker := by
    intro id
    simp [startWorld, initial, startPoint, Knows]
  main := by simp [startWorld, initial, startPoint, MainKnows]

theorem sound_worker (sound : Sound creates state) {id : Fin threads} {next : Point threads} {shared : Shared}
    {owner : Option (Thread threads)} (exclusive : Exclusive Holds { state.move (some id) next with owner := owner, shared := shared })
    (met : Met (barrierCount threads) stage { state.move (some id) next with owner := owner, shared := shared })
    (created : shared.created = state.shared.created)
    (exited : ∀ other, other ≠ id.val → (other ∈ shared.exited ↔ other ∈ state.shared.exited))
    (counts : shared.counter + increments (state.threads (some id)) = state.shared.counter + increments next)
    (alone : shared.counter ≠ state.shared.counter → Holds (state.threads (some id)))
    (fits : IsInt shared.counter) (keeps : id.val ∈ state.shared.exited → id.val ∈ shared.exited)
    (knows : Knows id shared next) :
    Sound creates { state.move (some id) next with owner := owner, shared := shared } where
  exclusive := exclusive
  met := met
  counter := by
    have moved := @total_move _ state id next
    have before := sound.counter
    have same : total { state.move (some id) next with owner := owner, shared := shared } =
        total (state.move (some id) next) := rfl
    rw [same]
    simp only
    omega
  fits := fits
  worker := by
    intro other
    by_cases same : other = id
    · subst same
      simpa using knows
    · have different : (some other : Thread threads) ≠ some id := by simpa using same
      simp only [move_of_ne state next different]
      apply knows_stable created.ge (exited other (fun equal => same (Fin.ext equal))) ?_ (sound.worker other)
      -- A worker inside the mutex has loaded the counter, and nobody else writes it.
      intro inside
      by_contra changed
      have own := (sound.exclusive (some id)).mpr (alone changed)
      have theirs := (sound.exclusive (some other)).mpr inside
      rw [own] at theirs
      exact same (Option.some.inj (Option.some.inj theirs)).symm
  main := by
    simp only [move_of_ne state next (Option.some_ne_none id).symm]
    apply mainKnows_stable created ?_ sound.main
    intro other member
    by_cases same : other = id.val
    · subst same
      exact keeps member
    · exact (exited other same).mpr member

theorem sound_silent (sound : Sound creates state) {id : Fin threads} {next : Point threads}
    {owner : Option (Thread threads)} (exclusive : Exclusive Holds { state.move (some id) next with owner := owner })
    (met : Met (barrierCount threads) stage { state.move (some id) next with owner := owner })
    (same : increments (state.threads (some id)) = increments next) (knows : Knows id state.shared next) :
    Sound creates { state.move (some id) next with owner := owner } := by
  apply sound_worker sound exclusive met rfl (fun _ _ => Iff.rfl) _ (fun changed => absurd rfl changed)
    sound.fits (fun member => member) knows
  rw [same]
  rfl

theorem sound_main (sound : Sound creates state) {next : Point threads} {shared : Shared}
    (exclusive : Exclusive Holds { state.move none next with shared := shared })
    (met : Met (barrierCount threads) stage { state.move none next with shared := shared })
    (created : state.shared.created ≤ shared.created) (exited : shared.exited = state.shared.exited)
    (counter : shared.counter = state.shared.counter) (knows : MainKnows creates shared next) :
    Sound creates { state.move none next with shared := shared } where
  exclusive := exclusive
  met := met
  counter := by
    have same : total { state.move none next with shared := shared } = total (state.move none next) := rfl
    rw [same, total_main]
    exact counter.trans sound.counter
  fits := by
    have fits := sound.fits
    rwa [← counter] at fits
  worker := by
    intro id
    simp only [move_of_ne state next (Option.some_ne_none id)]
    exact knows_stable created (by rw [exited]) (fun _ => counter) (sound.worker id)
  main := by simpa using knows

theorem sound_step (sound : Sound creates state) {self : Thread threads}
    (step : (powerMachine threads creates).step state self = some (after, written)) : Sound creates after := by
  have move := move_of_step step
  have exclusive := exclusive_step (respects creates) sound.exclusive move
  have met := met_step (follows creates) sound.met move
  -- A worker's knowledge is about its own place, and `main` is the only one to create workers.
  cases move with
  | arrive => exact ⟨exclusive, met, sound.counter, sound.fits, sound.worker, sound.main⟩
  | lock command =>
    generalize place : state.threads self = point at command
    cases does_of_program command with
    | @iterate id i =>
      have knows := sound.worker id
      rw [place] at knows
      exact sound_silent sound exclusive met (by rw [place]; rfl) knows.1
  | unlock command =>
    generalize place : state.threads self = point at command
    cases does_of_program command with
    | @unlock id i =>
      have knows := sound.worker id
      rw [place] at knows
      exact sound_silent sound exclusive met (by rw [place]; rfl) ⟨knows, i.isLt⟩
  | pass command =>
    generalize place : state.threads self = point at command
    cases does_of_program command with
    | @barrierWait id =>
      have knows := sound.worker id
      rw [place] at knows
      exact sound_silent sound exclusive met (by rw [place]; rfl) ⟨knows, Nat.zero_le _⟩
  | assign command =>
    generalize place : state.threads self = point at command
    cases does_of_program command with
    | @begin id started =>
      have knows := sound.worker id
      rw [place] at knows
      exact sound_silent sound exclusive met (by rw [place]; rfl) ⟨started, knows⟩
    | @leave id i last =>
      have knows := sound.worker id
      rw [place] at knows
      have all : i = threads := Nat.le_antisymm knows.2 last
      exact sound_silent sound exclusive met (by rw [place, all]; rfl) knows.1
    | @load id i =>
      have knows := sound.worker id
      rw [place] at knows
      exact sound_silent sound exclusive met (by rw [place]; rfl) ⟨knows, rfl⟩
    -- The owner of the mutex stores what it has loaded and one more, so no addition is lost.
    | @store id i value fits =>
      have knows := sound.worker id
      rw [place] at knows
      apply sound_worker sound exclusive met rfl (fun _ _ => Iff.rfl) _ _ fits (fun member => member) knows.1
      · rw [place, knows.2]
        simp only [increments]
        omega
      · rw [place]
        exact fun _ => trivial
    | @exit id =>
      have knows := sound.worker id
      rw [place] at knows
      apply sound_worker sound exclusive met rfl _ _ (fun changed => absurd rfl changed) sound.fits _
        ⟨knows.1, Finset.mem_insert_self _ _⟩
      · intro other different
        simp [different]
      · rw [place]
        rfl
      · exact fun _ => Finset.mem_insert_self _ _
    | @create tx more succeeds =>
      have knows := sound.main
      rw [place] at knows
      obtain ⟨created, _, earlier⟩ := knows
      apply sound_main sound exclusive met (created.le.trans (Nat.le_succ tx)) rfl rfl ⟨rfl, more, ?_⟩
      intro id less
      rcases Nat.lt_succ_iff_lt_or_eq.mp less with before | rfl
      · exact earlier id before
      · exact succeeds
    -- From here on `main` counts on the workers that it has created.
    | @failed tx more fails =>
      have knows := sound.main
      rw [place] at knows
      obtain ⟨created, _, earlier⟩ := knows
      apply sound_main sound exclusive met le_rfl rfl rfl ⟨created, ⟨more.le, earlier, fun _ => fails⟩, ?_⟩
      intro id less
      exact absurd less (Nat.not_lt_zero id)
    | @created tx all =>
      have knows := sound.main
      rw [place] at knows
      obtain ⟨created, below, earlier⟩ := knows
      have same : tx = threads := Nat.le_antisymm below all
      subst same
      apply sound_main sound exclusive met le_rfl rfl rfl
        ⟨created, ⟨le_rfl, earlier, fun less => absurd less (Nat.lt_irrefl _)⟩, ?_⟩
      intro id less
      exact absurd less (Nat.not_lt_zero id)
    | @joined tx limit more member =>
      have knows := sound.main
      rw [place] at knows
      obtain ⟨created, limited, earlier⟩ := knows
      apply sound_main sound exclusive met le_rfl rfl rfl ⟨created, limited, ?_⟩
      intro id less
      rcases Nat.lt_succ_iff_lt_or_eq.mp less with before | rfl
      · exact earlier id before
      · exact member
    | @done tx limit all =>
      have knows := sound.main
      rw [place] at knows
      obtain ⟨rfl, limited, earlier⟩ := knows
      exact sound_main sound exclusive met le_rfl rfl rfl ⟨limited, fun id less => earlier id (less.trans_le all)⟩

theorem sound_run {actions : List (Thread threads)} {notes : List (Thread threads × Report)}
    (run : (powerMachine threads creates).Run (startWorld threads) actions notes state) : Sound creates state :=
  run.invariant (fun _ state => Sound creates state) (sound_start creates)
    fun _ _ _ _ _ sound step => sound_step sound step

theorem arrived_workers (sound : Sound creates state) : state.arrived ⊆ Finset.univ.erase none := by
  intro thread member
  apply Finset.mem_erase.mpr ⟨_, Finset.mem_univ _⟩
  rintro rfl
  have early := sound.met.arrived none member
  have knows := sound.main
  cases place : state.threads none <;> rw [place] at early knows <;> first | exact early rfl | exact knows

/-- Nobody has got past the barrier while a worker has not been created. -/
theorem none_past (sound : Sound creates state) (small : threads < 2 ^ 32) {late : Fin threads}
    (missing : state.shared.created ≤ late) (thread : Thread threads) :
    stage (state.threads thread) ≠ .past := by
  have size : (Finset.univ.erase (none : Thread threads)).card ≤ barrierCount threads := by
    rw [Finset.card_erase_of_mem (Finset.mem_univ _), barrierCount, Nat.mod_eq_of_lt small]
    simp
  apply sound.met.none_past (arrived_workers sound) size (Finset.mem_erase.mpr ⟨Option.some_ne_none late, Finset.mem_univ _⟩)
  have knows := sound.worker late
  cases place : state.threads (some late) <;> rw [place] at knows <;> simp only [Knows] at knows <;>
    first | rfl | omega

def Possible (threads : Nat) (creates : Nat → Bool) (report : Report) : Prop :=
  ((∀ tx < threads, creates tx = true) ∧ report = ⟨threads, threads * threads, threads * threads, true⟩) ∨
    (creates 0 = false ∧ report = ⟨0, 0, toInt (threads * threads), toInt (threads * threads) = 0⟩)

theorem gone_of_exited (sound : Sound creates state) {id : Fin threads} (exited : id.val ∈ state.shared.exited) :
    state.threads (some id) = .gone := by
  have knows := sound.worker id
  cases place : state.threads (some id) <;> rw [place] at knows <;>
    first | rfl | exact knows.elim | exact absurd exited knows | exact absurd exited knows.2 | exact absurd exited knows.1.2

theorem total_all (all : ∀ id, state.threads (some id) = .gone) : total state = threads * threads := by
  unfold total
  rw [Finset.sum_congr rfl fun id _ => congrArg increments (all id)]
  simp [increments]

theorem total_early (early : ∀ thread, stage (state.threads thread) ≠ .past) : total state = 0 :=
  Finset.sum_eq_zero fun id _ => increments_of_before (early (some id))

theorem possible_of_joined (sound : Sound creates state) (small : threads < 2 ^ 32) {tx limit : Nat} (all : limit ≤ tx)
    (place : state.threads none = .join tx limit) :
    Possible threads creates (report limit threads state.shared.counter) := by
  have knows := sound.main
  rw [place] at knows
  obtain ⟨created, limited, exited⟩ := knows
  have fits := sound.fits
  rw [sound.counter] at fits ⊢
  rcases limited.le.eq_or_lt with rfl | less
  · have count : total state = limit * limit :=
      total_all fun id => gone_of_exited sound (exited id (id.isLt.trans_le all))
    rw [count] at fits ⊢
    have exact := toInt_exact fits.1 fits.2
    push_cast at exact
    refine Or.inl ⟨limited.succeeds, ?_⟩
    simp [report, exact]
  · have early := @none_past _ _ _ sound small ⟨limit, less⟩ created.le
    have alone : limit = 0 := by
      by_contra several
      have first : 0 < limit := Nat.pos_of_ne_zero several
      have gone := @gone_of_exited _ _ _ sound ⟨0, first.trans less⟩ (exited 0 (first.trans_le all))
      apply early (some ⟨0, first.trans less⟩)
      rw [gone]
      rfl
    subst alone
    refine Or.inr ⟨limited.fails less, ?_⟩
    simp [report, total_early early, eq_comm]

def Printed (creates : Nat → Bool) (notes : List (Thread threads × Report)) (state : World threads) : Prop :=
  if state.threads none = .done then ∃ report, notes = [(none, report)] ∧ Possible threads creates report
  else notes = []

theorem printed_step (small : threads < 2 ^ 32) {notes : List (Thread threads × Report)} (sound : Sound creates state)
    (printed : Printed creates notes state) {self : Thread threads}
    (step : (powerMachine threads creates).step state self = some (after, written)) :
    Printed creates (notes ++ written) after := by
  cases self with
  | some id =>
    cases move_of_step step with
    | arrive => simpa [Printed] using printed
    | assign command =>
      generalize place : state.threads (some id) = point at command
      cases does_of_program command <;> simpa [Printed, move_of_ne] using printed
    | _ => simpa [Printed, move_of_ne] using printed
  | none =>
    cases move_of_step step with
    | arrive => simpa [Printed] using printed
    | assign command =>
      generalize place : state.threads none = point at command
      cases does_of_program command with
      | done all =>
        have possible := possible_of_joined sound small all place
        simp only [Printed, place, reduceCtorEq, if_false] at printed
        simpa [Printed, printed] using possible
      | _ => simpa [Printed, place] using printed
    | lock command | unlock command | pass command =>
      generalize place : state.threads none = point at command
      cases does_of_program command

theorem printed_run (small : threads < 2 ^ 32) {actions : List (Thread threads)} {notes : List (Thread threads × Report)}
    (run : (powerMachine threads creates).Run (startWorld threads) actions notes state) :
    Printed creates notes state := by
  apply (run.invariant (fun notes state => Sound creates state ∧ Printed creates notes state)
    ⟨sound_start creates, by simp [Printed, startWorld, initial, startPoint]⟩ _).2
  intro notes state self after written ⟨sound, printed⟩ step
  exact ⟨sound_step sound step, printed_step small sound printed step⟩

/-- A worker that is missing, unless it is the first one, keeps the program from its end. -/
theorem reports (small : threads < 2 ^ 32) {actions : List (Thread threads)} {notes : List (Thread threads × Report)}
    (run : (powerMachine threads creates).Run (startWorld threads) actions notes state) :
    (state.threads none ≠ .done ∧ notes = []) ∨
      ∃ report, notes = [(none, report)] ∧ Possible threads creates report := by
  have printed := printed_run small run
  unfold Printed at printed
  split at printed
  · exact Or.inr printed
  · next going => exact Or.inl ⟨going, printed⟩

def workerOne : Thread 2 := some ⟨0, Nat.two_pos⟩

def workerTwo : Thread 2 := some ⟨1, Nat.one_lt_two⟩

def scheduleTwo : List (Thread 2) :=
  List.replicate 3 none ++ List.replicate 2 workerOne ++ List.replicate 2 workerTwo ++ List.replicate 3 workerOne ++
    [workerTwo] ++ List.replicate 2 workerOne ++ List.replicate 4 workerTwo ++ List.replicate 6 workerOne ++
    List.replicate 6 workerTwo ++ List.replicate 3 none

def scheduleMissing : List (Thread 2) := List.replicate 2 none ++ List.replicate 2 workerOne

theorem reports_two :
    (∃ final notes, (powerMachine 2 fun _ => true).Run (startWorld 2) scheduleTwo notes final ∧
      notes = [(none, ⟨2, 4, 4, true⟩)] ∧ ((final.threads none ≠ .done ∧ notes = []) ∨
        ∃ report, notes = [(none, report)] ∧ Possible 2 (fun _ => true) report)) ∧
    ∃ final notes, (powerMachine 2 fun tx => tx = 0).Run (startWorld 2) scheduleMissing notes final ∧
      Stuck (barrierCount 2) (program fun tx => tx = 0) final ∧ ((final.threads none ≠ .done ∧ notes = []) ∨
        ∃ report, notes = [(none, report)] ∧ Possible 2 (fun tx => tx = 0) report) := by
  constructor
  · obtain ⟨final, notes, run, printed⟩ := @Machine.exists_run_of_any _ _ _ (powerMachine 2 fun _ => true) scheduleTwo
      (startWorld 2) (fun result => result.2 = [(none, ⟨2, 4, 4, true⟩)]) (by decide)
    exact ⟨final, notes, run, of_decide_eq_true printed, reports (by decide) run⟩
  · obtain ⟨final, notes, run, still⟩ := @Machine.exists_run_of_any _ _ _ (powerMachine 2 fun tx => tx = 0) scheduleMissing
      (startWorld 2) (fun result => decide (∀ thread, ((powerMachine 2 fun tx => tx = 0).step result.1 thread).isNone = true))
      (by decide)
    exact ⟨final, notes, run, stuck_of_isNone (of_decide_eq_true still), reports (by decide) run⟩

end PosixC.Power
