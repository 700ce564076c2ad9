import PosixC.Condvar.Model

/-! What the threads of ex09/condvar and their `main` can do in one step. -/

set_option autoImplicit false

namespace PosixC.Condvar

open Foundation Foundation.Monitor

variable {threads : Nat} {spurious : Bool} {state after : World threads} {action : Action (Tid threads) Empty}
  {written : List (Tid threads × Note)}

def OfThread : Thread Cond Point → Prop
  | .running point => point = .begin ∨ (∃ flag, point = .loop flag) ∨ point = .read ∨ point = .print ∨ point = .gone
  | .asleep _ _ | .woken _ _ => True
  | .idle => False

def OfMain : Thread Cond Point → Prop
  | .running point => (∃ i, point = .create i) ∨ point = .sleep ∨ point = .setFlag ∨ point = .broadcast ∨ point = .unlock ∨
      (∃ i, point = .join i) ∨ point = .done
  | _ => False

inductive Turn (spurious : Bool) (i : Fin threads) (shared : Shared threads) :
    Thread Cond Point → Shared threads → Thread Cond Point → List (Tid threads × Note) → Prop where
  | lock : Turn spurious i shared (.running .begin) shared (.running (.loop false)) []
  | wait : Turn spurious i shared (.running (.loop false)) shared (.asleep .condition .read) []
  | leave : Turn spurious i shared (.running (.loop true)) shared (.running .print) []
  | read : Turn spurious i shared (.running .read) shared (.running (.loop shared.globalFlag)) []
  | print : Turn spurious i shared (.running .print) { shared with exited := insert i shared.exited } (.running .gone)
      [(some i, .flagIsSet)]
  | wake {cond : Cond} {point : Point} : spurious = true →
      Turn spurious i shared (.asleep cond point) shared (.woken cond point) []
  | reacquire {cond : Cond} {point : Point} : Turn spurious i shared (.woken cond point) shared (.running point) []
  | astray {place next : Thread Cond Point} : ¬ OfThread place → Turn spurious i shared place shared next []

/-- What `main` can do. `woken` says that it wakes all the threads that sleep. -/
inductive MainTurn (shared : Shared threads) : Thread Cond Point → Shared threads → Thread Cond Point → Bool → Prop where
  | create {i : Nat} : i < threads → MainTurn shared (.running (.create i)) { shared with created := i + 1 }
      (.running (.create (i + 1))) false
  | created {i : Nat} : threads ≤ i → MainTurn shared (.running (.create i)) shared (.running .sleep) false
  | lock : MainTurn shared (.running .sleep) shared (.running .setFlag) false
  | set : MainTurn shared (.running .setFlag) { shared with globalFlag := true } (.running .broadcast) false
  | broadcast : MainTurn shared (.running .broadcast) shared (.running .unlock) true
  | unlock : MainTurn shared (.running .unlock) shared (.running (.join 0)) false
  | join {i : Fin threads} : i ∈ shared.exited →
      MainTurn shared (.running (.join i)) shared (.running (.join (i + 1))) false
  | joined {i : Nat} : threads ≤ i → MainTurn shared (.running (.join i)) shared (.running .done) false
  | astray {place next : Thread Cond Point} : ¬ OfMain place → MainTurn shared place shared next false

def ThreadMoves (spurious : Bool) (state after : World threads) (written : List (Tid threads × Note)) : Prop :=
  ∃ i, Turn spurious i state.shared (state.threads (some i)) after.shared (after.threads (some i)) written ∧
    ∀ other, other ≠ some i → after.threads other = state.threads other

def MainMoves (state after : World threads) (written : List (Tid threads × Note)) : Prop :=
  ∃ woken, MainTurn state.shared (state.threads none) after.shared (after.threads none) woken ∧ written = [] ∧
    ∀ i, after.threads (some i) = if woken then (state.threads (some i)).wake else state.threads (some i)

theorem wake_sleepers (thread : Tid threads) :
    (state.wake (state.sleepers .condition)).threads thread = (state.threads thread).wake := by
  simp only [State.wake, mem_sleepers]
  cases place : state.threads thread <;> simp [Thread.asleepOn, Thread.wake]

theorem threadMoves_of_setThread {i : Fin threads} {next : Thread Cond Point} {owner : Option (Tid threads)}
    {shared : Shared threads}
    (turn : Turn spurious i state.shared (state.threads (some i)) shared next written) :
    ThreadMoves spurious state ⟨shared, owner, (state.setThread (some i) next).threads⟩ written :=
  ⟨i, by simpa using turn, fun other different => setThread_of_ne state _ next different⟩

theorem mainMoves_of_setThread {next : Thread Cond Point} {owner : Option (Tid threads)} {shared : Shared threads}
    (turn : MainTurn state.shared (state.threads none) shared next false) :
    MainMoves state ⟨shared, owner, (state.setThread none next).threads⟩ [] :=
  ⟨false, by simpa using turn, rfl, fun i => setThread_of_ne state _ next (Option.some_ne_none i)⟩

theorem moves_of_thread {i : Fin threads} {chosen : Finset (Tid threads)} {point : Point}
    (running : state.threads (some i) = .running point) (may : waits (some i) point state.shared = false)
    (performed : perform (some i) chosen state (runThread i point state.shared) = some (after, written)) :
    ThreadMoves spurious state after written := by
  cases point with
  | begin =>
    simp only [runThread, perform, Option.ite_none_right_eq_some] at performed
    cases performed.2
    exact threadMoves_of_setThread (running ▸ .lock)
  | loop flag =>
    cases flag with
    | false =>
      simp only [runThread, perform, Option.ite_none_right_eq_some] at performed
      cases performed.2
      exact threadMoves_of_setThread (running ▸ .wait)
    | true =>
      simp only [runThread, perform, Option.ite_none_right_eq_some] at performed
      cases performed.2
      exact threadMoves_of_setThread (running ▸ .leave)
  | read =>
    cases performed
    exact threadMoves_of_setThread (running ▸ .read)
  | print =>
    cases performed
    exact threadMoves_of_setThread (running ▸ .print)
  | gone => cases may
  | _ =>
    cases performed
    exact threadMoves_of_setThread (.astray (by rw [running]; simp [OfThread]))

theorem moves_of_main {chosen : Finset (Tid threads)} {point : Point} (running : state.threads none = .running point)
    (may : waits none point state.shared = false)
    (performed : perform none chosen state (runMain point state.shared) = some (after, written)) :
    MainMoves state after written := by
  cases point with
  | create i =>
    simp only [runMain] at performed
    split at performed
    · next more =>
      cases performed
      exact mainMoves_of_setThread (running ▸ .create more)
    · next all =>
      cases performed
      exact mainMoves_of_setThread (running ▸ .created (Nat.not_lt.mp all))
  | sleep =>
    simp only [runMain, perform, Option.ite_none_right_eq_some] at performed
    cases performed.2
    exact mainMoves_of_setThread (running ▸ .lock)
  | setFlag =>
    cases performed
    exact mainMoves_of_setThread (running ▸ .set)
  | broadcast =>
    cases performed
    refine ⟨true, by simpa using running ▸ .broadcast, rfl, fun i => ?_⟩
    rw [setThread_of_ne _ _ _ (Option.some_ne_none i), wake_sleepers]
    rfl
  | unlock =>
    simp only [runMain, perform, Option.ite_none_right_eq_some] at performed
    cases performed.2
    exact mainMoves_of_setThread (running ▸ .unlock)
  | join i =>
    simp only [runMain] at performed
    split at performed
    · next more =>
      cases performed
      have exited : (⟨i, more⟩ : Fin threads) ∈ state.shared.exited := by simpa [waits, more] using may
      exact mainMoves_of_setThread (running ▸ @MainTurn.join _ _ ⟨i, more⟩ exited)
    · next all =>
      cases performed
      exact mainMoves_of_setThread (running ▸ .joined (Nat.not_lt.mp all))
  | done => cases may
  | _ =>
    cases performed
    exact mainMoves_of_setThread (.astray (by rw [running]; simp [OfMain]))

theorem moves_of_step (step : (condvarMachine threads spurious).step state action = some (after, written)) :
    ThreadMoves spurious state after written ∨ MainMoves state after written := by
  obtain ⟨may, step⟩ := Machine.step_of_restrict step
  cases action with
  | call tid call => exact nomatch call
  | step tid chosen =>
    cases place : state.threads tid with
    | running point =>
      rw [step_running place] at step
      simp only [allowed, place, Bool.not_eq_true'] at may
      cases tid with
      | none => exact Or.inr (moves_of_main place may step)
      | some i => exact Or.inl (moves_of_thread place may step)
    | _ => simp [allowed, place] at may
  | spurious tid =>
    cases move_of_step step with
    | spurious asleep =>
      cases tid with
      | none => exact Or.inr (mainMoves_of_setThread (.astray (by rw [asleep]; exact id)))
      | some i => exact Or.inl (threadMoves_of_setThread (asleep ▸ .wake may))
  | reacquire tid =>
    cases move_of_step step with
    | reacquire woken =>
      cases tid with
      | none => exact Or.inr (mainMoves_of_setThread (.astray (by rw [woken]; exact id)))
      | some i => exact Or.inl (threadMoves_of_setThread (woken ▸ .reacquire))

theorem exclusive_of_step (exclusive : Exclusive Holds Parks state)
    (step : (condvarMachine threads spurious).step state action = some (after, written)) : Exclusive Holds Parks after :=
  exclusive_step (disciplined threads) exclusive (move_of_step (Machine.step_of_restrict step).2)

end PosixC.Condvar
