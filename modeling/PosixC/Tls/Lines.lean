import Mathlib.Tactic.Ring
import PosixC.Tls.Storage

/-! The output of ex08/tls under every schedule. -/

set_option autoImplicit false

namespace PosixC.Tls

open Foundation Foundation.Barrier

variable {threads : Nat} {outcome : Outcome threads} {state after : World threads}
  {notes written : List (Thread threads × Line)} {actions : List (Thread threads)} {data : Thread threads → Int}

theorem prepared_of_stage {thread : Thread threads} {shared : Shared threads} {point : Point threads}
    (knows : Knows outcome thread shared point) (come : stage point ≠ .before) : Prepared outcome thread shared := by
  cases point with
  | barrierWait | print => exact knows.1
  | exit | gone | join | done => exact knows.2
  | _ => exact absurd rfl come

theorem come_of_past (sound : Sound outcome state) {thread : Thread threads}
    (past : stage (state.threads thread) = .past) (other : Thread threads) : stage (state.threads other) ≠ .before := by
  obtain ⟨_, enough⟩ := sound.met.past thread past
  have all : state.arrived = Finset.univ := by
    apply Finset.eq_univ_of_card
    apply Nat.le_antisymm (Finset.card_le_univ _)
    simpa using enough
  apply sound.met.arrived other
  rw [all]
  exact Finset.mem_univ other

theorem good_of_past (sound : Sound outcome state) {thread : Thread threads}
    (past : stage (state.threads thread) = .past) : outcome.Good := by
  have prepared : ∀ other, Prepared outcome other state.shared :=
    fun other => prepared_of_stage (sound.knows other) (come_of_past sound past other)
  constructor
  · intro i less
    have created : state.shared.created = threads := (prepared none).started
    exact sound.creates i (less.trans_eq created.symm)
  · exact fun other => (prepared other).allocates
  · exact fun other => (prepared other).sets

def Finished : Point threads → Prop
  | .exit | .gone | .join _ | .done => True
  | _ => False

theorem past_of_finished {point : Point threads} (finished : Finished point) : stage point = .past := by
  cases point <;> first | rfl | exact finished.elim

structure Printed (notes : List (Thread threads × Line)) (state : World threads) : Prop where
  line : ∀ note ∈ notes, note.2 =
    ⟨number note.1, number note.1, state.shared.id_static, number note.1, some (number note.1)⟩
  once : (notes.map Prod.fst).Nodup
  mem : ∀ thread, thread ∈ notes.map Prod.fst ↔ Finished (state.threads thread)

theorem printed_start (data : Thread threads → Int) : Printed [] (startWorld data) where
  line := by simp
  once := List.nodup_nil
  mem := by
    intro thread
    cases thread <;> simp [startWorld, initial, startPoint, Finished]

theorem printed_move (printed : Printed notes state) {self : Thread threads} {next : Point threads}
    {shared : Shared threads} (same : notes ≠ [] → shared.id_static = state.shared.id_static)
    (finished : Finished next ↔ Finished (state.threads self)) :
    Printed notes { state.move self next with shared := shared } where
  line := by
    intro note member
    rw [same (List.ne_nil_of_mem member)]
    exact printed.line note member
  once := printed.once
  mem := by
    intro thread
    by_cases own : thread = self
    · subst own
      simpa [finished] using printed.mem thread
    · simpa [move_of_ne state next own] using printed.mem thread

theorem printed_step (sound : Sound outcome state) (printed : Printed notes state) {self : Thread threads}
    (step : (tlsMachine outcome).step state self = some (after, written)) : Printed (notes ++ written) after := by
  have knows := sound.knows self
  cases move_of_step step with
  | arrive =>
    rw [List.append_nil]
    exact ⟨printed.line, printed.once, printed.mem⟩
  | lock command | unlock command =>
    generalize place : state.threads self = point at command
    cases does_of_program command
  | pass command =>
    generalize place : state.threads self = point at command
    rw [List.append_nil]
    cases does_of_program command with
    | barrierWait => exact printed_move printed (fun _ => rfl) (by simp [place, Finished])
  | assign command =>
    generalize place : state.threads self = point at command knows
    cases does_of_program command with
    | writeStatic =>
      rw [List.map_nil, List.append_nil]
      apply printed_move printed _ (by simp [place, Finished])
      intro some
      obtain ⟨note, member⟩ := List.exists_mem_of_ne_nil notes some
      -- Whoever has printed is past the barrier, which nobody passes before this write.
      have finished := (printed.mem note.1).mp (List.mem_map_of_mem member)
      exact absurd (congrArg stage place) (come_of_past sound (past_of_finished finished) self)
    | @print _ id =>
      have fresh : self ∉ notes.map Prod.fst := by
        rw [printed.mem, place]
        exact fun finished => finished
      obtain ⟨prepared, stored⟩ := knows
      constructor
      · intro note member
        rcases List.mem_append.mp member with before | now
        · exact printed.line note before
        · rcases List.mem_singleton.mp now with rfl
          simp only [stored.data, stored.id_local, stored.id_thread, stored.specific]
      · rw [List.map_append]
        exact List.Nodup.append printed.once (List.nodup_singleton self) (by simpa using fresh)
      · intro thread
        by_cases own : thread = self
        · subst own
          cases thread <;> simp [Finished, returnPoint]
        · simpa [move_of_ne state _ own, own] using printed.mem thread
    | _ =>
      rw [List.map_nil, List.append_nil]
      exact printed_move printed (fun _ => rfl) (by simp [place, Finished])

theorem printed_run (run : (tlsMachine outcome).Run (startWorld data) actions notes state) : Printed notes state := by
  apply (run.invariant (fun notes state => Sound outcome state ∧ Printed notes state)
    ⟨sound_start data, printed_start data⟩ _).2
  intro notes state self after written ⟨sound, printed⟩ step
  exact ⟨sound_step sound step, printed_step sound printed step⟩

theorem lines (run : (tlsMachine outcome).Run (startWorld data) actions notes state) :
    (notes.map Prod.fst).Nodup ∧ (notes ≠ [] → outcome.Good ∧ ∃ writer : Thread threads, ∀ note ∈ notes,
      note.2 = ⟨number note.1, number note.1, number writer, number note.1, some (number note.1)⟩) := by
  have printed := printed_run run
  have sound := sound_run run
  apply And.intro printed.once
  intro some
  obtain ⟨note, member⟩ := List.exists_mem_of_ne_nil notes some
  have past := past_of_finished ((printed.mem note.1).mp (List.mem_map_of_mem member))
  have prepared := prepared_of_stage (sound.knows note.1) (come_of_past sound past note.1)
  obtain ⟨writer, last⟩ := prepared.static
  refine ⟨good_of_past sound past, writer, fun note member => ?_⟩
  rw [printed.line note member, last]

structure Left (state : World threads) : Prop where
  alive : state.shared.terminated = false
  exited : ∀ id : Fin threads, state.threads (some id) = .gone → id.val ∈ state.shared.exited

theorem left_move (left : Left state) {self : Thread threads} {next : Point threads} {shared : Shared threads}
    (same : shared.terminated = state.shared.terminated) (grows : state.shared.exited ⊆ shared.exited)
    (own : ∀ id, self = some id → next = .gone → id.val ∈ shared.exited) :
    Left { state.move self next with shared := shared } where
  alive := same.trans left.alive
  exited := by
    intro id gone
    by_cases mine : some id = self
    · subst mine
      exact own id rfl (by simpa using gone)
    · exact grows (left.exited id (by simpa [move_of_ne state next mine] using gone))

theorem left_run (good : outcome.Good) (run : (tlsMachine outcome).Run (startWorld data) actions notes state) :
    Left state := by
  apply run.invariant (fun _ state => Left state)
  · exact ⟨rfl, fun id gone => by cases gone⟩
  intro notes state self after written left step
  cases move_of_step step with
  | arrive => exact ⟨left.alive, left.exited⟩
  | lock command | unlock command =>
    generalize place : state.threads self = point at command
    cases does_of_program command
  | pass command =>
    generalize place : state.threads self = point at command
    cases does_of_program command
    exact left_move left rfl (Finset.Subset.refl _) fun _ _ other => nomatch other
  | assign command =>
    generalize place : state.threads self = point at command
    cases does_of_program command with
    | exit =>
      apply left_move left
      · rfl
      · exact Finset.subset_insert _ _
      · intro id same _
        cases same
        exact Finset.mem_insert_self _ _
    | fail =>
      apply left_move left
      · rfl
      · exact Finset.subset_insert _ _
      · exact fun _ _ other => nomatch other
    | @terminate i fails => exact absurd (good.creates i i.isLt) (by simp [fails])
    | print =>
      apply left_move left rfl (Finset.Subset.refl _)
      intro id same other
      subst same
      cases other
    | _ => exact left_move left rfl (Finset.Subset.refl _) fun _ _ other => nomatch other

theorem respects (thread : Thread threads) (point : Point threads) (shared : Shared threads) :
    Respects (fun _ => False) point (program outcome thread point shared) := by
  generalize next : program outcome thread point shared = command
  cases does_of_program next <;> simp [Respects]

theorem blocked_or_waits (run : (tlsMachine outcome).Run (startWorld data) actions notes state)
    (stuck : Stuck (threads + 1) (program outcome) state) (thread : Thread threads) :
    program outcome thread (state.threads thread) state.shared = .blocked ∨
      (stage (state.threads thread) = .meeting ∧ thread ∈ state.arrived ∧ state.arrived.card < threads + 1) := by
  have exclusive := exclusive_run respects run fun thread => by simp [startWorld, initial]
  rcases waits_of_stuck exclusive respects (fun _ inside => inside.elim) stuck thread with
    blocked | ⟨next, meets, arrived, few⟩
  · exact Or.inl blocked
  · apply Or.inr
    generalize place : state.threads thread = point at meets
    cases does_of_program meets
    exact ⟨rfl, arrived, few⟩

theorem gone_of_blocked (good : outcome.Good) (sound : Sound outcome state) (left : Left state) {id : Fin threads}
    (created : id < state.shared.created)
    (blocked : program outcome (some id) (state.threads (some id)) state.shared = .blocked) :
    state.threads (some id) = .gone := by
  have knows := sound.knows (some id)
  have alive := left.alive
  cases place : state.threads (some id) <;> rw [place] at knows blocked <;>
    simp only [program, alive, Bool.false_eq_true, if_false, runWorker, runThread] at blocked
  case begin => simp [created] at blocked
  case allocate => simp [good.allocates] at blocked
  case setspecific => simp [good.sets] at blocked
  case fail => cases blocked
  case failed => exact (knows good).elim
  case setMain | setData | create | join | done => cases knows.1
  all_goals cases blocked

theorem main_of_blocked (good : outcome.Good) (sound : Sound outcome state) (left : Left state)
    (blocked : program outcome none (state.threads none) state.shared = .blocked) :
    state.threads none = .done ∨ ∃ id : Fin threads, state.threads none = .join id ∧ id.val ∉ state.shared.exited := by
  have knows := sound.knows none
  have alive := left.alive
  cases place : state.threads none <;> rw [place] at knows blocked <;>
    simp only [program, alive, Bool.false_eq_true, if_false, runMain, runThread] at blocked
  case done => exact Or.inl rfl
  case join i =>
    split at blocked
    · next more =>
      split at blocked
      · cases blocked
      · next absent => exact Or.inr ⟨⟨i, more⟩, rfl, absent⟩
    · cases blocked
  case setData => split at blocked <;> cases blocked
  case create => split at blocked <;> cases blocked
  case allocate => simp [good.allocates] at blocked
  case setspecific => simp [good.sets] at blocked
  case failed => exact (knows good).elim
  case begin => exact absurd rfl knows
  case exit | gone => exact absurd rfl knows.1
  all_goals cases blocked

theorem started_of_come (sound : Sound outcome state) {thread : Thread threads}
    (come : stage (state.threads thread) ≠ .before) : Started state.shared thread :=
  (prepared_of_stage (sound.knows thread) come).started

/-- Nobody waits at the barrier in vain. -/
theorem gone_of_stuck (good : outcome.Good) (run : (tlsMachine outcome).Run (startWorld data) actions notes state)
    (stuck : Stuck (threads + 1) (program outcome) state) :
    state.threads none = .done ∧ ∀ id : Fin threads, state.threads (some id) = .gone := by
  have sound := sound_run run
  have left := left_run good run
  have waits := blocked_or_waits run stuck
  have come : stage (state.threads none) ≠ .before := by
    rcases waits none with blocked | ⟨meeting, _⟩
    · rcases main_of_blocked good sound left blocked with done | ⟨id, join, _⟩
      · simp [done, stage]
      · simp [join, stage]
    · simp [meeting]
  have created : state.shared.created = threads := started_of_come sound come
  have started : ∀ id : Fin threads, id < state.shared.created := fun id => id.isLt.trans_eq created.symm
  have enough : threads + 1 ≤ state.arrived.card := by
    by_contra few
    -- If somebody were missing at the barrier, nobody could be past it, so all wait there.
    have everybody : state.arrived = Finset.univ := by
      apply Finset.eq_univ_of_forall
      intro thread
      rcases waits thread with blocked | ⟨_, arrived, _⟩
      · apply absurd (sound.met.past thread _).2 few
        cases thread with
        | none =>
          rcases main_of_blocked good sound left blocked with done | ⟨id, join, _⟩
          · simp [done, stage]
          · simp [join, stage]
        | some id => simp [gone_of_blocked good sound left (started id) blocked, stage]
      · exact arrived
    apply few
    simp [everybody]
  have gone : ∀ id : Fin threads, state.threads (some id) = .gone := by
    intro id
    rcases waits (some id) with blocked | ⟨_, _, few⟩
    · exact gone_of_blocked good sound left (started id) blocked
    · exact absurd enough (Nat.not_le.mpr few)
  apply And.intro _ gone
  rcases waits none with blocked | ⟨_, _, few⟩
  · rcases main_of_blocked good sound left blocked with done | ⟨id, _, absent⟩
    · exact done
    · exact absurd (left.exited id (gone id)) absent
  · exact absurd enough (Nat.not_le.mpr few)

theorem work_start (data : Thread threads → Int) :
    (startWorld data).work rank = threads * threads + 15 * threads + 14 := by
  simp only [State.work, startWorld, initial, Finset.compl_empty, Finset.card_univ, Fintype.sum_option, startPoint, rank,
    Finset.sum_const, Fintype.card_fin, Fintype.card_option, Nat.nsmul_eq_mul]
  ring

theorem all_print (good : outcome.Good) (run : (tlsMachine outcome).Run (startWorld data) actions notes state) :
    actions.length ≤ threads * threads + 15 * threads + 14 ∧
      (Stuck (threads + 1) (program outcome) state →
        state.threads none = .done ∧ (notes.map Prod.fst).Perm Finset.univ.toList) := by
  constructor
  · have bound := length_run (lowers outcome) run
    rw [work_start] at bound
    omega
  · intro stuck
    obtain ⟨done, gone⟩ := gone_of_stuck good run stuck
    have printed := printed_run run
    apply And.intro done
    apply (List.perm_ext_iff_of_nodup printed.once (Finset.nodup_toList _)).mpr
    intro thread
    rw [printed.mem]
    cases thread <;> simp [done, gone, Finished]

def goodOutcome (threads : Nat) : Outcome threads := ⟨fun _ => true, fun _ => true, fun _ => true⟩

theorem good_goodOutcome (threads : Nat) : (goodOutcome threads).Good := ⟨fun _ _ => rfl, fun _ => rfl, fun _ => rfl⟩

def scheduleOne : List (Thread 1) :=
  List.replicate 10 none ++ List.replicate 10 (some ⟨0, Nat.one_pos⟩) ++ List.replicate 4 none

theorem lines_one : ∃ final notes,
    (tlsMachine (goodOutcome 1)).Run (startWorld fun _ => 7) scheduleOne notes final ∧ notes.length = 2 ∧
    (notes.map Prod.fst).Nodup ∧ (notes ≠ [] → (goodOutcome 1).Good ∧ ∃ writer : Thread 1, ∀ note ∈ notes,
      note.2 = ⟨number note.1, number note.1, number writer, number note.1, some (number note.1)⟩) := by
  obtain ⟨final, notes, run, two⟩ := @Machine.exists_run_of_any _ _ _ (tlsMachine (goodOutcome 1)) scheduleOne
    (startWorld fun _ => 7) (fun result => result.2.length == 2) (by decide)
  exact ⟨final, notes, run, by simpa using two, lines run⟩

theorem all_print_one : ∃ final notes,
    (tlsMachine (goodOutcome 1)).Run (startWorld fun _ => 7) scheduleOne notes final ∧
    Stuck 2 (program (goodOutcome 1)) final ∧ scheduleOne.length ≤ 30 ∧
      final.threads none = .done ∧ (notes.map Prod.fst).Perm Finset.univ.toList := by
  obtain ⟨final, notes, run, still⟩ := @Machine.exists_run_of_any _ _ _ (tlsMachine (goodOutcome 1)) scheduleOne
    (startWorld fun _ => 7) (fun result => decide (∀ thread, ((tlsMachine (goodOutcome 1)).step result.1 thread).isNone = true))
    (by decide)
  have stuck := stuck_of_isNone (of_decide_eq_true still)
  obtain ⟨bound, printed⟩ := all_print (good_goodOutcome 1) run
  exact ⟨final, notes, run, stuck, bound, printed stuck⟩

end PosixC.Tls
