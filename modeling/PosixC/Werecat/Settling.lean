import Mathlib.Algebra.Order.BigOperators.Group.Finset
import PosixC.Foundation.Sums
import PosixC.Werecat.Delivery

/-! `werecat`, left alone, puts out what is there and waits. -/

set_option autoImplicit false

namespace PosixC.Werecat

open Foundation CText Transfers

variable {count : Nat} {state after : State count} {notes written : List (Note count)}

def unreadLength (fifos : Fin count → Fifo) (i : Fin count) : Nat := (fifos i).unread.length

def watched (fds : Fin count → Pollfd) (i : Fin count) : Nat := if (fds i).fd < 0 then 0 else 1

def load (state : State count) : Nat := ∑ i, unreadLength state.fifos i + ∑ i, watched state.fds i

def gives (state : State count) (i : Fin count) : Prop := 0 ≤ (state.fds i).fd ∧ (state.fds i).revents.hung = true

def promises (state : State count) (i : Fin count) : Prop :=
  gives state i ∨ 0 ≤ (state.fds i).fd ∧ (state.fds i).revents.pollin = true ∧ (state.fifos i).unread ≠ []

def Due (state : State count) : Point count → Prop
  | .check todo => ∃ i ∈ todo, promises state i
  | .read i todo | .write i _ todo => promises state i ∨ ∃ j ∈ todo, promises state j
  | .drop i todo => gives state i ∨ ∃ j ∈ todo, promises state j
  | _ => False

noncomputable def rounds (state : State count) : Nat :=
  open Classical in load state - if Due state state.point then 1 else 0

def distance : Point count → Nat
  | .exited => 0
  | .poll => 1
  | .check todo => 3 * todo.length + 2
  | .drop _ todo => 3 * todo.length + 3
  | .read _ todo => 3 * todo.length + 4
  | .write _ bytes todo => 3 * todo.length + 5 + bytes.length

noncomputable def rank (state : State count) : Nat :=
  (3 * count + 2) * rounds state + (3 * ∑ i, unreadLength state.fifos i + distance state.point)

theorem rounds_le_of_lt (less : load after < load state) : rounds after ≤ rounds state := by
  unfold rounds
  split <;> split <;> omega

theorem rounds_le_of_due (same : load after = load state) (due : Due state state.point → Due after after.point) :
    rounds after ≤ rounds state := by
  unfold rounds
  rw [same]
  by_cases before : Due state state.point
  · rw [if_pos before, if_pos (due before)]
  · rw [if_neg before]
    exact Nat.sub_le _ _

theorem rounds_lt (same : load after = load state) (some : 0 < load state) (idle : ¬ Due state state.point)
    (due : Due after after.point) : rounds after < rounds state := by
  unfold rounds
  rw [same, if_pos due, if_neg idle]
  exact Nat.sub_lt some Nat.one_pos

theorem rank_lt_of_rounds_le (rounds : rounds after ≤ rounds state)
    (less : 3 * ∑ i, unreadLength after.fifos i + distance after.point <
      3 * ∑ i, unreadLength state.fifos i + distance state.point) : rank after < rank state :=
  Nat.add_lt_add_of_le_of_lt (Nat.mul_le_mul_left _ rounds) less

theorem unread_take (state : State count) (i : Fin count) {rd : Nat} (within : rd ≤ (state.fifos i).unread.length) :
    ∑ j, unreadLength (Function.update state.fifos i
      ⟨(state.fifos i).unread.drop rd, (state.fifos i).writers, (state.fifos i).met⟩) j + rd = ∑ j, unreadLength state.fifos j := by
  change _ + rd = _ + 0
  apply sum_changed i
  case others =>
    intro j different
    simp [unreadLength, different]
  case changed => simp [unreadLength, within]

theorem watched_drop (state : State count) {i : Fin count} (open' : 0 ≤ (state.fds i).fd) :
    ∑ j, watched (Function.update state.fds i ⟨-1, (state.fds i).revents⟩) j + 1 = ∑ j, watched state.fds j := by
  change _ + 1 = _ + 0
  apply sum_changed i
  case others =>
    intro j different
    simp [watched, different]
  case changed => simp [watched, open']

theorem watched_again {fds : Fin count → Pollfd} {i : Fin count} (closed : (fds i).fd < 0) :
    watched (Function.update fds i { fds i with fd := -1 }) = watched fds := by
  funext j
  by_cases same : j = i
  · subst same
    simp [watched, closed]
  · simp [watched, same]

theorem promises_again {i j : Fin count} (closed : (state.fds i).fd < 0) {point : Point count} (promised : promises state j) :
    promises { state with fds := Function.update state.fds i { state.fds i with fd := -1 }, point := point } j := by
  have different : j ≠ i := by
    rintro rfl
    rcases promised with ⟨watching, _⟩ | ⟨watching, _⟩ <;> exact absurd closed (not_lt.mpr watching)
  simpa [promises, gives, different] using promised

theorem watching_of_ready {fifo : Fifo} {pollfd : Pollfd} (ready : (pollOne fifo pollfd).ready = true) : 0 ≤ pollfd.fd := by
  by_contra negative
  simp [pollOne, Pollfd.ready, Revents.hung, not_le.mp negative] at ready

theorem promises_of_ready {i : Fin count} (ready : (pollOne (state.fifos i) (state.fds i)).ready = true) :
    promises { state with fds := fun i => pollOne (state.fifos i) (state.fds i) } i := by
  have watching := watching_of_ready ready
  simp only [Pollfd.ready, Bool.or_eq_true] at ready
  rcases ready with readable | hung
  · have unread : (state.fifos i).unread ≠ [] := by
      simpa [pollOne, not_lt.mpr watching, Fifo.revents] using readable
    exact Or.inr ⟨watching, readable, unread⟩
  · exact Or.inl ⟨watching, hung⟩

/-- Each statement of the program that does not fail lowers the rank. -/
theorem rank_move (running : 0 ≤ state.wt) (move : Move state after written) (fine : Faultless written) :
    rank after < rank state := by
  cases move with
  | quit | unread | unwritten => cases fine _ (List.mem_singleton_self _)
  | stopped place negative => exact absurd running (not_le.mpr negative)
  -- `poll` returns only for a descriptor that makes the load smaller in this round.
  | poll place ready =>
    obtain ⟨i, ready⟩ := ready
    have promised : promises { state with fds := fun i => pollOne (state.fifos i) (state.fds i) } i :=
      promises_of_ready ready
    have watching : watched state.fds i = 1 := if_neg (not_lt.mpr (watching_of_ready ready))
    have some : 0 < load state := by
      have least : watched state.fds i ≤ ∑ j, watched state.fds j :=
        Finset.single_le_sum (fun _ _ => Nat.zero_le _) (Finset.mem_univ i)
      unfold load
      omega
    have fewer : rounds { state with
        fds := fun i => pollOne (state.fifos i) (state.fds i), point := .check (List.finRange count) } < rounds state := by
      apply rounds_lt (by rfl) some
      · simp [place, Due]
      · exact ⟨i, List.mem_finRange i, promised⟩
    have round := Nat.mul_le_mul_left (3 * count + 2) fewer
    unfold rank
    simp only [place, distance, List.length_finRange]
    rw [Nat.mul_succ] at round
    omega
  | again place =>
    apply rank_lt_of_rounds_le
    · apply rounds_le_of_due (by rfl)
      simp [Due, place]
    · simp [place, distance]
  | @enter i todo place =>
    apply rank_lt_of_rounds_le
    · apply rounds_le_of_due (by rfl)
      simp [Due, place, promises, gives]
    · simp [place, distance]
      omega
  | @pass i todo place silent =>
    apply rank_lt_of_rounds_le
    · apply rounds_le_of_due (by rfl)
      simp [Due, place, promises, gives, silent]
    · simp [place, distance]
      omega
  | @drained i todo place _ empty =>
    apply rank_lt_of_rounds_le
    · apply rounds_le_of_due (by rfl)
      simp [Due, place, promises, gives, empty]
    · simp [place, distance]
  | @take i todo rd place _ positive within =>
    have less := unread_take state i within
    apply rank_lt_of_rounds_le
    · apply rounds_le_of_lt
      simp only [load, State.setFifo]
      omega
    · simp only [place, distance, State.setFifo, List.length_take, Nat.min_eq_left within]
      omega
  -- The read has paid for the chunk; what is left of it gets shorter.
  | @put i bytes todo wt place within positive =>
    have same : Due state (if bytes.drop wt = [] then Point.read i todo else .write i (bytes.drop wt) todo) ↔
        Due state state.point := by
      rw [place]
      split <;> rfl
    apply rank_lt_of_rounds_le
    · exact rounds_le_of_due rfl same.mpr
    · simp only [place]
      split
      · simp only [distance]
        omega
      · next some =>
        have more : bytes ≠ [] := fun empty => some (by simp [empty])
        have := positive more
        simp only [distance, List.length_drop]
        omega
  | @drop i todo place hung =>
    apply rank_lt_of_rounds_le
    · by_cases open' : 0 ≤ (state.fds i).fd
      · apply rounds_le_of_lt
        have less := watched_drop state open'
        simp only [load]
        omega
      -- It has been given up before, and nothing comes of it.
      · apply rounds_le_of_due
        · simp only [load, watched_again (not_le.mp open')]
        · simp only [place, Due]
          rintro (⟨given, _⟩ | ⟨j, member, promised⟩)
          · exact absurd given open'
          · exact ⟨j, member, promises_again (not_le.mp open') promised⟩
    · simp [place, distance]
  | @keep i todo place calm =>
    apply rank_lt_of_rounds_le
    · apply rounds_le_of_due (by rfl)
      simp [Due, place, promises, gives, calm]
    · simp [place, distance]

theorem running_of_move (running : 0 ≤ state.wt) (move : Move state after written) (fine : Faultless written) :
    0 ≤ after.wt := by
  cases move with
  | unwritten => cases fine _ (List.mem_singleton_self _)
  | put => exact Int.natCast_nonneg _
  | _ => exact running

def bound (state : State count) : Nat :=
  (3 * count + 2) * load state + (3 * ∑ i, unreadLength state.fifos i + distance state.point)

theorem rank_le_bound (state : State count) : rank state ≤ bound state :=
  Nat.add_le_add_right (Nat.mul_le_mul_left _ (Nat.sub_le _ _)) _

variable {actions : List (Action count)} {answers : List Answer} {more : List (Note count)} {final : State count}

theorem run_of_alone (alone : (aloneMachine count).Run state answers more final) :
    ∃ actions, (werecatMachine count).Run state actions more final := by
  induction alone with
  | start => exact ⟨[], .start⟩
  | @next _ _ written state after answer _ step ih =>
    obtain ⟨actions, run⟩ := ih
    have same : (werecatMachine count).step state (.run answer) = some (after, written) := step
    exact ⟨_, run.next same⟩

theorem bounded (running : 0 ≤ state.wt) (alone : (aloneMachine count).Run state answers more final)
    (fine : Faultless more) : answers.length ≤ bound state := by
  have bounded := alone.bounded (fun state => 0 ≤ state.wt) (fun note : Note count => note.fault = false)
    (fun _ => true) rank
    (by
      intro state answer after written running step fine
      have move := move_of_step step
      exact ⟨running_of_move running move fine, rank_move running move fine⟩)
    running fine
  have all := bounded.2
  rw [List.countP_true] at all
  exact (Nat.le_of_add_left_le all).trans (rank_le_bound state)

theorem point_of_waits (waits : ∀ more, werecatStep state (.moved more) = none) (going : state.point ≠ .exited) :
    state.point = .poll := by
  have first := waits 0
  cases place : state.point with
  | poll => rfl
  | check todo => cases todo <;> simp [werecatStep, place] at first
  | read i todo =>
    simp only [werecatStep, place] at first
    split at first
    · cases first
    · split at first <;> cases first
  | write i bytes todo => simp [werecatStep, place] at first
  | drop i todo =>
    simp only [werecatStep, place] at first
    split at first <;> cases first
  | exited => exact absurd place going

theorem quiet_of_waits (place : state.point = .poll) (waits : ∀ more, werecatStep state (.moved more) = none)
    {i : Fin count} (watching : 0 ≤ (state.fds i).fd) :
    (state.fifos i).unread = [] ∧ ((state.fifos i).met = true → (state.fifos i).writers ≠ 0) := by
  have first := waits 0
  simp only [werecatStep, place, ite_eq_right_iff, reduceCtorEq, imp_false, Bool.not_eq_true, List.any_eq_false,
    List.mem_finRange, forall_const] at first
  simpa [pollOne, not_lt.mpr watching, Pollfd.ready, Revents.hung, Fifo.revents] using first i

/-- Left alone the program comes to wait in `poll`, if no call fails, and then everything
that has arrived at a FIFO that it has not given up has been put out. -/
theorem settles (run : (werecatMachine count).Run (startState count) actions notes state)
    (alone : (aloneMachine count).Run state answers more final) (fine : Faultless (notes ++ more)) :
    answers.length ≤ bound state ∧
      ((∀ more, werecatStep final (.moved more) = none) → ∀ i, .dropped i ∉ notes ++ more →
        (booksOf (notes ++ more)).wrote i = (booksOf (notes ++ more)).arrived i ∧
          ((final.fifos i).met = true → (final.fifos i).writers ≠ 0)) := by
  obtain ⟨last, onwards⟩ := run_of_alone alone
  have kept := kept_run (run.append onwards)
  have calm : Faultless notes := fun note member => fine note (List.mem_append_left _ member)
  have later : Faultless more := fun note member => fine note (List.mem_append_right _ member)
  apply And.intro (bounded ((kept_run run).silent.running calm) alone later)
  intro waits i watching
  have place := point_of_waits waits (kept.ends fine)
  have quiet := quiet_of_waits place waits (not_lt.mp (mt (kept.gone i).mp watching))
  have whole := kept.accounted.whole (kept.silent.running fine) i
  rw [place, quiet.1] at whole
  exact ⟨by simpa [pending] using whole.symm, quiet.2⟩

def arriving : List (Action 1) := [.connect only, .arrive only [104, 105]]

theorem arriving_executes : ((werecatMachine 1).exec (startState 1) arriving).isSome = true := by decide

def arrivedState : State 1 := (((werecatMachine 1).exec (startState 1) arriving).get arriving_executes).1

theorem settles_greeting : ∃ notes final more, (werecatMachine 1).Run (startState 1) arriving notes arrivedState ∧
    (aloneMachine 1).Run arrivedState (List.replicate 8 (.moved 0)) more final ∧
    (List.replicate 8 (Answer.moved 0)).length ≤ bound arrivedState ∧
      ((∀ more, werecatStep final (.moved more) = none) → ∀ i, .dropped i ∉ notes ++ more →
        (booksOf (notes ++ more)).wrote i = (booksOf (notes ++ more)).arrived i ∧
          ((final.fifos i).met = true → (final.fifos i).writers ≠ 0)) := by
  have run := @Machine.run_of_isSome _ _ _ (werecatMachine 1) arriving (startState 1) arriving_executes
  obtain ⟨final, more, alone, fine⟩ := @Machine.exists_run_of_any _ _ _ (aloneMachine 1)
    (List.replicate 8 (.moved 0)) arrivedState (fun result => result.2.all fun note => !note.fault) (by decide)
  have calm : Faultless (((werecatMachine 1).exec (startState 1) arriving).get arriving_executes).2 := by
    unfold Faultless
    decide
  have faultless : Faultless more := by simpa [Faultless] using fine
  exact ⟨_, final, more, run, alone, settles run alone fun note member =>
    (List.mem_append.mp member).elim (calm note) (faultless note)⟩

end PosixC.Werecat
