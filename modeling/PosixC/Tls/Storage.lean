import PosixC.Tls.Model

/-! What the threads of ex08/tls print.

Only the static variable is shared, and its last write comes before the barrier. So all
lines agree on it, whoever wrote it last, and each thread finds its own number elsewhere.
-/

set_option autoImplicit false

namespace PosixC.Tls

open Foundation Foundation.Barrier

variable {threads : Nat} {outcome : Outcome threads} {state after : World threads}
  {notes written : List (Thread threads × Line)} {actions : List (Thread threads)}

def Started (shared : Shared threads) : Thread threads → Prop
  | none => shared.created = threads
  | some id => id < shared.created

structure Prepared (outcome : Outcome threads) (thread : Thread threads) (shared : Shared threads) : Prop where
  started : Started shared thread
  allocates : outcome.allocates thread = true
  sets : outcome.sets thread = true
  static : ∃ writer : Thread threads, shared.id_static = number writer

structure Stored (thread : Thread threads) (shared : Shared threads) (id_local : Int) : Prop where
  data : shared.data thread = number thread
  id_local : id_local = number thread
  id_thread : shared.id_thread thread = number thread
  specific : shared.specific thread = some (number thread)

def Knows (outcome : Outcome threads) (thread : Thread threads) (shared : Shared threads) : Point threads → Prop
  | .begin => thread ≠ none
  | .setMain => thread = none ∧ shared.created = 0
  | .setData i => thread = none ∧ shared.created = i ∧ i ≤ threads ∧ shared.data none = number (none : Thread threads)
  | .create i => thread = none ∧ shared.created = i ∧ shared.data none = number (none : Thread threads) ∧
      shared.data (some i) = number (some i)
  | .enter => Started shared thread ∧ shared.data thread = number thread
  | .writeStatic id => Started shared thread ∧ shared.data thread = number thread ∧ id = number thread
  | .writeThread id => Started shared thread ∧ shared.data thread = number thread ∧ id = number thread ∧
      ∃ writer : Thread threads, shared.id_static = number writer
  | .allocate id => Started shared thread ∧ shared.data thread = number thread ∧ id = number thread ∧
      (∃ writer : Thread threads, shared.id_static = number writer) ∧ shared.id_thread thread = number thread
  | .setspecific id value => Started shared thread ∧ shared.data thread = number thread ∧ id = number thread ∧
      (∃ writer : Thread threads, shared.id_static = number writer) ∧ shared.id_thread thread = number thread ∧
      outcome.allocates thread = true ∧ value = number thread
  | .barrierWait id | .print id => Prepared outcome thread shared ∧ Stored thread shared id
  | .exit | .gone => thread ≠ none ∧ Prepared outcome thread shared
  | .join _ | .done => thread = none ∧ Prepared outcome thread shared
  | .fail | .failed => outcome.Good → False

structure Keeps (thread : Thread threads) (before now : Shared threads) : Prop where
  created : before.created ≤ now.created
  main : thread = none → now.created = before.created ∧ now.data = before.data
  data : Started before thread → now.data thread = before.data thread
  id_thread : now.id_thread thread = before.id_thread thread
  specific : now.specific thread = before.specific thread
  static : now.id_static = before.id_static ∨ ∃ writer : Thread threads, now.id_static = number writer

theorem Keeps.started {thread : Thread threads} {before now : Shared threads} (keeps : Keeps thread before now)
    (started : Started before thread) : Started now thread := by
  cases thread with
  | none => exact (keeps.main rfl).1.trans started
  | some id => exact Nat.lt_of_lt_of_le started keeps.created

theorem Keeps.wrote {thread : Thread threads} {before now : Shared threads} (keeps : Keeps thread before now)
    (writes : ∃ writer : Thread threads, before.id_static = number writer) :
    ∃ writer : Thread threads, now.id_static = number writer := by
  rcases keeps.static with same | other
  · rwa [same]
  · exact other

theorem Keeps.prepared {thread : Thread threads} {before now : Shared threads} (keeps : Keeps thread before now)
    (prepared : Prepared outcome thread before) : Prepared outcome thread now where
  started := keeps.started prepared.started
  allocates := prepared.allocates
  sets := prepared.sets
  static := keeps.wrote prepared.static

theorem knows_stable {thread : Thread threads} {before now : Shared threads} {point : Point threads}
    (keeps : Keeps thread before now) (knows : Knows outcome thread before point) : Knows outcome thread now point := by
  cases point with
  | begin => exact knows
  | setMain => exact ⟨knows.1, (keeps.main knows.1).1.trans knows.2⟩
  | setData i =>
    obtain ⟨same, created⟩ := keeps.main knows.1
    exact ⟨knows.1, created ▸ same ▸ knows.2⟩
  | create i =>
    obtain ⟨same, created⟩ := keeps.main knows.1
    exact ⟨knows.1, created ▸ same ▸ knows.2⟩
  | enter => exact ⟨keeps.started knows.1, (keeps.data knows.1).trans knows.2⟩
  | writeStatic => exact ⟨keeps.started knows.1, (keeps.data knows.1).trans knows.2.1, knows.2.2⟩
  | writeThread =>
    obtain ⟨started, data, copy, writes⟩ := knows
    exact ⟨keeps.started started, (keeps.data started).trans data, copy, keeps.wrote writes⟩
  | allocate =>
    obtain ⟨started, data, copy, writes, id_thread⟩ := knows
    exact ⟨keeps.started started, (keeps.data started).trans data, copy, keeps.wrote writes,
      keeps.id_thread.trans id_thread⟩
  | setspecific =>
    obtain ⟨started, data, copy, writes, id_thread, rest⟩ := knows
    exact ⟨keeps.started started, (keeps.data started).trans data, copy, keeps.wrote writes,
      keeps.id_thread.trans id_thread, rest⟩
  | barrierWait | print =>
    obtain ⟨prepared, stored⟩ := knows
    exact ⟨keeps.prepared prepared, (keeps.data prepared.started).trans stored.data, stored.id_local,
      keeps.id_thread.trans stored.id_thread, keeps.specific.trans stored.specific⟩
  | exit | gone | join | done => exact ⟨knows.1, keeps.prepared knows.2⟩
  | fail | failed => exact knows

structure Sound (outcome : Outcome threads) (state : World threads) : Prop where
  met : Met (threads + 1) stage state
  knows : ∀ thread, Knows outcome thread state.shared (state.threads thread)
  data : ∀ id : Fin threads, id < state.shared.created → state.shared.data (some id) = number (some id)
  creates : ∀ i < state.shared.created, outcome.creates i = true

theorem sound_start (data : Thread threads → Int) : Sound outcome (startWorld data) where
  met := by
    constructor
    · intro thread member
      simp [startWorld, initial] at member
    · intro thread gone
      cases thread <;> cases gone
  knows := by
    intro thread
    cases thread <;> simp [startWorld, initial, startPoint, Knows]
  data := by simp [startWorld, initial]
  creates := by simp [startWorld, initial]

theorem sound_move (sound : Sound outcome state) {self : Thread threads} {next : Point threads} {shared : Shared threads}
    (met : Met (threads + 1) stage { state.move self next with shared := shared })
    (keeps : ∀ thread, thread ≠ self → Keeps thread state.shared shared) (knows : Knows outcome self shared next)
    (data : ∀ id : Fin threads, id < shared.created → shared.data (some id) = number (some id))
    (creates : ∀ i < shared.created, outcome.creates i = true) :
    Sound outcome { state.move self next with shared := shared } where
  met := met
  knows := by
    intro thread
    by_cases same : thread = self
    · subst same
      simpa using knows
    · simpa only [move_of_ne state next same] using knows_stable (keeps thread same) (sound.knows thread)
  data := data
  creates := creates

theorem Keeps.rfl {thread : Thread threads} {shared : Shared threads} : Keeps thread shared shared :=
  ⟨le_rfl, fun _ => ⟨Eq.refl _, Eq.refl _⟩, fun _ => Eq.refl _, Eq.refl _, Eq.refl _, Or.inl (Eq.refl _)⟩

theorem sound_silent (sound : Sound outcome state) {self : Thread threads} {next : Point threads}
    (met : Met (threads + 1) stage (state.move self next)) (knows : Knows outcome self state.shared next) :
    Sound outcome (state.move self next) :=
  sound_move sound met (fun _ _ => Keeps.rfl) knows sound.data sound.creates

theorem sound_step (sound : Sound outcome state) {self : Thread threads}
    (step : (tlsMachine outcome).step state self = some (after, written)) : Sound outcome after := by
  have move := move_of_step step
  have met := met_step (follows outcome) sound.met move
  have knows := sound.knows self
  cases move with
  | arrive => exact ⟨met, sound.knows, sound.data, sound.creates⟩
  | lock command | unlock command =>
    generalize place : state.threads self = point at command
    cases does_of_program command
  | pass command =>
    generalize place : state.threads self = point at command knows
    cases does_of_program command with
    | barrierWait => exact sound_silent sound met knows
  | assign command =>
    generalize place : state.threads self = point at command knows
    cases does_of_program command with
    | @begin id started => exact sound_silent sound met ⟨started, sound.data id started⟩
    | enter => exact sound_silent sound met ⟨knows.1, knows.2, knows.2⟩
    -- The only write that the others see: it leaves the number of some thread.
    | writeStatic =>
      apply sound_move sound met _ ⟨knows.1, knows.2.1, knows.2.2, self, knows.2.1⟩ sound.data sound.creates
      intro thread _
      exact ⟨le_rfl, fun _ => ⟨rfl, rfl⟩, fun _ => rfl, rfl, rfl, Or.inr ⟨self, knows.2.1⟩⟩
    | writeThread =>
      obtain ⟨started, data, copy, writes⟩ := knows
      apply sound_move sound met _ ⟨started, data, copy, writes, by simpa using data⟩ sound.data sound.creates
      intro thread different
      exact ⟨le_rfl, fun _ => ⟨rfl, rfl⟩, fun _ => rfl, Function.update_of_ne different .., rfl, Or.inl rfl⟩
    | allocate succeeds =>
      obtain ⟨started, data, copy, writes, id_thread⟩ := knows
      exact sound_silent sound met ⟨started, data, copy, writes, id_thread, succeeds, data⟩
    | unallocated fails => exact sound_silent sound met fun good => by simp [good.allocates] at fails
    | setspecific succeeds =>
      obtain ⟨started, data, copy, writes, id_thread, allocates, value⟩ := knows
      apply sound_move sound met _ ⟨⟨started, allocates, succeeds, writes⟩, data, copy, id_thread, by simpa using value⟩
        sound.data sound.creates
      intro thread different
      exact ⟨le_rfl, fun _ => ⟨rfl, rfl⟩, fun _ => rfl, rfl, Function.update_of_ne different .., Or.inl rfl⟩
    | unset fails => exact sound_silent sound met fun good => by simp [good.sets] at fails
    | print =>
      apply sound_silent sound met
      cases self with
      | none => exact ⟨rfl, knows.1⟩
      | some id => exact ⟨Option.some_ne_none id, knows.1⟩
    | exit =>
      apply sound_move sound met _ ⟨knows.1, knows.2.started, knows.2.allocates, knows.2.sets, knows.2.static⟩
        sound.data sound.creates
      intro thread _
      exact ⟨le_rfl, fun _ => ⟨rfl, rfl⟩, fun _ => rfl, rfl, rfl, Or.inl rfl⟩
    | fail =>
      apply sound_move sound met _ knows sound.data sound.creates
      intro thread _
      exact ⟨le_rfl, fun _ => ⟨rfl, rfl⟩, fun _ => rfl, rfl, rfl, Or.inl rfl⟩
    | failMain => exact sound_silent sound met knows
    | setMain =>
      apply sound_move sound met _ ⟨rfl, knows.2, Nat.zero_le _, by simp⟩ _ sound.creates
      · intro thread different
        exact ⟨le_rfl, fun main => absurd main different, fun _ => Function.update_of_ne different .., rfl, rfl, Or.inl rfl⟩
      · intro id started
        simpa using sound.data id started
    -- The thread whose data is written has not been created.
    | @setData i =>
      obtain ⟨_, created, _, data⟩ := knows
      apply sound_move sound met _ ⟨rfl, created, by simpa using data, by simp⟩ _ sound.creates
      · intro thread different
        refine ⟨le_rfl, fun main => absurd main different, fun started => ?_, rfl, rfl, Or.inl rfl⟩
        apply Function.update_of_ne
        rintro rfl
        exact absurd (started.trans_eq created) (Nat.lt_irrefl _)
      · intro id started
        have different : (some id : Thread threads) ≠ some i := by
          intro same
          cases same
          exact absurd (started.trans_eq created) (Nat.lt_irrefl _)
        simpa only [Function.update_of_ne different] using sound.data id started
    | join all =>
      obtain ⟨_, created, below, data⟩ := knows
      exact sound_silent sound met ⟨created.trans (Nat.le_antisymm below all), data⟩
    | @create i succeeds =>
      obtain ⟨_, created, main, data⟩ := knows
      apply sound_move sound met _ ⟨rfl, rfl, i.isLt, main⟩
      · intro id started
        rcases Nat.lt_succ_iff_lt_or_eq.mp started with earlier | last
        · exact sound.data id (earlier.trans_eq created.symm)
        · rw [Fin.ext last]
          exact data
      · intro id started
        rcases Nat.lt_succ_iff_lt_or_eq.mp started with earlier | last
        · exact sound.creates id (earlier.trans_eq created.symm)
        · rw [last]
          exact succeeds
      · intro thread different
        exact ⟨created.le.trans (Nat.le_succ i), fun same => absurd same different, fun _ => rfl, rfl, rfl, Or.inl rfl⟩
    | @terminate i fails =>
      apply sound_move sound met _ (fun good => by simp [good.creates i i.isLt] at fails) sound.data sound.creates
      intro thread _
      exact ⟨le_rfl, fun _ => ⟨rfl, rfl⟩, fun _ => rfl, rfl, rfl, Or.inl rfl⟩
    | joined =>
      exact sound_silent sound met ⟨rfl, knows.2⟩
    | done =>
      exact sound_silent sound met ⟨rfl, knows.2⟩

theorem sound_run {data : Thread threads → Int} (run : (tlsMachine outcome).Run (startWorld data) actions notes state) :
    Sound outcome state :=
  run.invariant (fun _ state => Sound outcome state) (sound_start data) fun _ _ _ _ _ sound step => sound_step sound step

end PosixC.Tls
