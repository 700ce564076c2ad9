import Mathlib.Algebra.Order.BigOperators.Group.Finset
import PosixC.Condvar.Moves
import PosixC.Foundation.Sums

/-! Whom the broadcast of ex09/condvar reaches.

Until the broadcast nobody has seen the flag. From then on the flag is set, so a
thread that was waiting leaves its loop, and a thread that had not taken the mutex
yet waits for a second broadcast.
-/

set_option autoImplicit false

namespace PosixC.Condvar

open Foundation Foundation.Monitor

variable {threads : Nat} {spurious : Bool} {state after before final : World threads}
  {action : Action (Tid threads) Empty} {written notes : List (Tid threads × Note)}

section Before

def Early : Thread Cond Point → Prop
  | .running .begin | .running (.loop false) | .running .read | .asleep _ .read | .woken _ .read => True
  | _ => False

inductive MainBefore (shared : Shared threads) : Thread Cond Point → Prop where
  | create {i : Nat} : shared.globalFlag = false → MainBefore shared (.running (.create i))
  | sleep : shared.globalFlag = false → MainBefore shared (.running .sleep)
  | setFlag : shared.globalFlag = false → MainBefore shared (.running .setFlag)
  | broadcast : shared.globalFlag = true → MainBefore shared (.running .broadcast)

def MainPast : Thread Cond Point → Prop
  | .running .unlock | .running (.join _) | .running .done => True
  | _ => False

structure Before (notes : List (Tid threads × Note)) (state : World threads) : Prop where
  main : MainBefore state.shared (state.threads none)
  early : ∀ i, Early (state.threads (some i))
  nobody : state.shared.exited = ∅
  silent : notes = []

theorem before_start (threads : Nat) : Before [] (startWorld threads) where
  main := .create rfl
  early _ := trivial
  nobody := rfl
  silent := rfl

theorem Early.wake {place : Thread Cond Point} (early : Early place) : Early place.wake := by
  cases place with
  | asleep cond point => cases point <;> exact early
  | _ => exact early

theorem Early.ofThread {place : Thread Cond Point} (early : Early place) : OfThread place := by
  cases place with
  | running point => cases point <;> simp_all [Early, OfThread]
  | idle => exact early
  | asleep | woken => trivial

theorem MainBefore.ofMain {shared : Shared threads} {place : Thread Cond Point} (main : MainBefore shared place) :
    OfMain place := by
  cases main <;> simp [OfMain]

theorem MainBefore.unset {shared : Shared threads} (main : MainBefore shared (state.threads none))
    (exclusive : Exclusive Holds Parks state) {i : Fin threads}
    (reading : state.threads (some i) = .running .read) : shared.globalFlag = false := by
  have own := (exclusive.own reading).mpr trivial
  generalize place : state.threads none = main_ at main
  cases main with
  | broadcast =>
    have theirs := (exclusive.own place).mpr trivial
    rw [own] at theirs
    cases theirs
  | _ => assumption

theorem early_turn {i : Fin threads} {shared later : Shared threads} {place next : Thread Cond Point}
    (early : Early place) (unset : place = .running .read → shared.globalFlag = false)
    (turn : Turn spurious i shared place later next written) : Early next ∧ later = shared ∧ written = [] := by
  cases turn with
  | lock | wait => exact ⟨trivial, rfl, rfl⟩
  | read =>
    rw [unset rfl]
    exact ⟨trivial, rfl, rfl⟩
  | leave | print => cases early
  | @wake _ point => cases point <;> first | exact ⟨trivial, rfl, rfl⟩ | cases early
  | @reacquire _ point => cases point <;> first | exact ⟨trivial, rfl, rfl⟩ | cases early
  | astray lost => exact absurd early.ofThread lost

theorem before_main {shared later : Shared threads} {place next : Thread Cond Point} {woken : Bool}
    (main : MainBefore shared place) (turn : MainTurn shared place later next woken) :
    (MainBefore later next ∧ woken = false ∧ later.exited = shared.exited) ∨ MainPast next := by
  cases turn with
  | create =>
    cases main with
    | create unset => exact Or.inl ⟨.create unset, rfl, rfl⟩
  | created =>
    cases main with
    | create unset => exact Or.inl ⟨.sleep unset, rfl, rfl⟩
  | lock =>
    cases main with
    | sleep unset => exact Or.inl ⟨.setFlag unset, rfl, rfl⟩
  | set =>
    cases main with
    | setFlag => exact Or.inl ⟨.broadcast rfl, rfl, rfl⟩
  | broadcast => exact Or.inr trivial
  | unlock | join | joined => cases main
  | astray lost => exact absurd main.ofMain lost

theorem past_main {shared later : Shared threads} {place next : Thread Cond Point} {woken : Bool}
    (past : MainPast place) (turn : MainTurn shared place later next woken) : MainPast next := by
  cases turn with
  | create | created | lock | set | broadcast => cases past
  | unlock | join | joined => trivial
  | astray lost =>
    apply absurd _ lost
    cases place with
    | running point => cases point <;> simp_all [MainPast, OfMain]
    | _ => exact past

theorem before_step (exclusive : Exclusive Holds Parks state) (waiting : Before notes state)
    (step : (condvarMachine threads spurious).step state action = some (after, written)) :
    Before (notes ++ written) after ∨ MainPast (after.threads none) := by
  rcases moves_of_step step with ⟨i, turn, others⟩ | ⟨woken, turn, rfl, others⟩
  · obtain ⟨early, shared, rfl⟩ := early_turn (waiting.early i) (fun reading => waiting.main.unset exclusive reading) turn
    left
    constructor
    · rw [shared, others none (Option.some_ne_none i).symm]
      exact waiting.main
    · intro other
      by_cases same : other = i
      · rwa [same]
      · rw [others _ fun found => same (Option.some.inj found)]
        exact waiting.early other
    · rw [shared]
      exact waiting.nobody
    · rw [List.append_nil]
      exact waiting.silent
  · apply (before_main waiting.main turn).imp _ id
    rintro ⟨main, rfl, exited⟩
    constructor
    · exact main
    · intro i
      rw [others]
      exact waiting.early i
    · rw [exited]
      exact waiting.nobody
    · rw [List.append_nil]
      exact waiting.silent

theorem past_step (past : MainPast (state.threads none))
    (step : (condvarMachine threads spurious).step state action = some (after, written)) :
    MainPast (after.threads none) := by
  rcases moves_of_step step with ⟨i, _, others⟩ | ⟨_, turn, _, _⟩
  · rw [others none (Option.some_ne_none i).symm]
    exact past
  · exact past_main past turn

theorem before_run {actions : List (Action (Tid threads) Empty)}
    (run : (condvarMachine threads spurious).Run (startWorld threads) actions notes state) :
    Exclusive Holds Parks state ∧ (Before notes state ∨ MainPast (state.threads none)) := by
  apply run.invariant
    (fun notes state => Exclusive Holds Parks state ∧ (Before notes state ∨ MainPast (state.threads none)))
  · refine ⟨fun thread => ?_, Or.inl (before_start threads)⟩
    cases thread <;> simp [startWorld, startPoint, Admits, Holds]
  · rintro notes state action after written ⟨exclusive, phase⟩ step
    refine ⟨exclusive_of_step exclusive step, ?_⟩
    rcases phase with waiting | past
    · exact before_step exclusive waiting step
    · exact Or.inr (past_step past step)

end Before
section After

def Came (before : World threads) (i : Fin threads) : Prop := before.threads (some i) ≠ .running .begin

def Saved : Thread Cond Point → Prop
  | .woken _ .read | .running .read | .running (.loop true) | .running .print | .running .gone => True
  | _ => False

def Doomed : Thread Cond Point → Prop
  | .running .begin | .running (.loop false) | .asleep _ .read => True
  | _ => False

def MainAfter (exited : Finset (Fin threads)) : Thread Cond Point → Prop
  | .running .unlock => True
  | .running (.join j) => ∀ i : Fin threads, i < j → i ∈ exited
  | .running .done => ∀ i, i ∈ exited
  | _ => False

structure After (before : World threads) (notes : List (Tid threads × Note)) (state : World threads) : Prop where
  flag : state.shared.globalFlag = true
  main : MainAfter state.shared.exited (state.threads none)
  saved : ∀ i, Came before i → Saved (state.threads (some i))
  doomed : ∀ i, ¬ Came before i → Doomed (state.threads (some i))
  exited : ∀ i, i ∈ state.shared.exited ↔ state.threads (some i) = .running .gone
  printed : ∀ i, (some i, .flagIsSet) ∈ notes ↔ i ∈ state.shared.exited

/-- Nobody else is inside the mutex while `main` has it. -/
theorem kept_out (exclusive : Exclusive Holds Parks state) (sending : state.threads none = .running .broadcast)
    {i : Fin threads} {point : Point} (running : state.threads (some i) = .running point) : ¬ Holds point := by
  intro holds
  have own := (exclusive.own sending).mpr trivial
  have theirs := (exclusive.own running).mpr holds
  rw [own] at theirs
  cases theirs

theorem saved_of_came (exclusive : Exclusive Holds Parks state) (sending : state.threads none = .running .broadcast)
    {i : Fin threads} (early : Early (state.threads (some i))) (came : Came state i) :
    Saved (state.threads (some i)).wake := by
  cases place : state.threads (some i) with
  | running point =>
    rw [place] at early
    cases point with
    | begin => exact absurd place came
    | loop | read => exact absurd trivial (kept_out exclusive sending place)
    | _ => cases early
  | asleep cond point | woken cond point =>
    rw [place] at early
    cases point <;> trivial
  | idle =>
    rw [place] at early
    cases early

/-- Without spurious wake-ups only `main` can move while it has the mutex. -/
theorem no_turn {i : Fin threads} {shared later : Shared threads} {place next : Thread Cond Point}
    (early : Early place) (outside : ∀ {point}, place = .running point → ¬ Holds point)
    (after : ∀ {point}, next = .running point → ¬ Holds point)
    (turn : Turn false i shared place later next written) : False := by
  cases turn with
  | lock => exact after rfl trivial
  | wait | read => exact outside rfl trivial
  | leave | print => cases early
  | wake allowed => cases allowed
  | @reacquire _ point =>
    cases point with
    | read => exact after rfl trivial
    | _ => cases early
  | astray lost => exact lost early.ofThread

theorem after_broadcast (exclusive : Exclusive Holds Parks state) (waiting : Before notes state)
    (sending : state.threads none = .running .broadcast) (later : Exclusive Holds Parks after)
    (step : (condvarMachine threads false).step state action = some (after, written)) : After state written after := by
  rcases moves_of_step step with ⟨i, turn, others⟩ | ⟨woken, turn, rfl, others⟩
  -- `main` has the mutex, so the others have to wait.
  · have still : after.threads none = .running .broadcast := by
      rw [others none (Option.some_ne_none i).symm, sending]
    exact absurd turn (no_turn (waiting.early i) (kept_out exclusive sending) (kept_out later still))
  · have main := waiting.main
    rw [sending] at main turn
    generalize shared : after.shared = now at turn
    generalize place : after.threads none = next at turn
    cases main with
    | broadcast set =>
      cases turn with
      | broadcast =>
        simp only [if_true] at others
        constructor
        · rw [shared, set]
        · rw [place]
          trivial
        -- Who waits is woken, and finds the flag set.
        · intro i came
          rw [others]
          exact saved_of_came exclusive sending (waiting.early i) came
        · intro i late
          rw [others, not_not.mp late]
          trivial
        · intro i
          rw [shared, waiting.nobody, others]
          have early := waiting.early i
          constructor
          · intro member
            exact absurd member (Finset.notMem_empty i)
          · intro gone
            cases before : state.threads (some i) with
            | running point =>
              rw [before] at gone early
              cases gone
              cases early
            | _ =>
              rw [before] at gone
              cases gone
        · intro i
          rw [shared, waiting.nobody]
          simp
      | astray lost => simp [OfMain] at lost

inductive Effect (i : Fin threads) (shared : Shared threads) :
    Thread Cond Point → Shared threads → Thread Cond Point → List (Tid threads × Note) → Prop where
  | quiet {place next : Thread Cond Point} : place ≠ .running .gone → next ≠ .running .gone →
      Effect i shared place shared next []
  | prints {place : Thread Cond Point} :
      Effect i shared place { shared with exited := insert i shared.exited } (.running .gone) [(some i, .flagIsSet)]

theorem saved_turn {i : Fin threads} {shared later : Shared threads} {place next : Thread Cond Point}
    (saved : Saved place) (set : shared.globalFlag = true) (turn : Turn false i shared place later next written) :
    Saved next ∧ Effect i shared place later next written := by
  cases turn with
  | lock | wait => cases saved
  | leave => exact ⟨trivial, .quiet nofun nofun⟩
  | read =>
    rw [set]
    exact ⟨trivial, .quiet nofun nofun⟩
  | print => exact ⟨trivial, .prints⟩
  | wake allowed => cases allowed
  | @reacquire _ point =>
    cases point with
    | read => exact ⟨trivial, .quiet nofun nofun⟩
    | _ => cases saved
  | astray lost =>
    apply absurd _ lost
    cases place with
    | running point => cases point <;> simp_all [Saved, OfThread]
    | woken => trivial
    | _ => cases saved

theorem doomed_turn {i : Fin threads} {shared later : Shared threads} {place next : Thread Cond Point}
    (doomed : Doomed place) (turn : Turn false i shared place later next written) :
    Doomed next ∧ Effect i shared place later next written := by
  cases turn with
  | lock => exact ⟨trivial, .quiet nofun nofun⟩
  | wait => exact ⟨trivial, .quiet nofun nofun⟩
  | leave | read | print | reacquire => cases doomed
  | wake allowed => cases allowed
  | astray lost =>
    apply absurd _ lost
    cases place with
    | running point => cases point <;> simp_all [Doomed, OfThread]
    | asleep => trivial
    | _ => cases doomed

theorem MainAfter.mono {exited more : Finset (Fin threads)} {place : Thread Cond Point} (main : MainAfter exited place)
    (grown : exited ⊆ more) : MainAfter more place := by
  cases place with
  | running point =>
    cases point with
    | unlock => trivial
    | join j => exact fun i below => grown (main i below)
    | done => exact fun i => grown (main i)
    | _ => cases main
  | _ => cases main

theorem main_turn {shared later : Shared threads} {place next : Thread Cond Point} {woken : Bool}
    (main : MainAfter shared.exited place) (turn : MainTurn shared place later next woken) :
    MainAfter later.exited next ∧ later = shared ∧ woken = false := by
  cases turn with
  | create | created | lock | set | broadcast => cases main
  | unlock => exact ⟨fun i below => absurd below (Nat.not_lt_zero _), rfl, rfl⟩
  | @join j exited =>
    refine ⟨fun i below => ?_, rfl, rfl⟩
    rcases Nat.lt_or_eq_of_le (Nat.le_of_lt_succ below) with less | same
    · exact main i less
    · rwa [Fin.ext same]
  | joined all => exact ⟨fun i => main i (Nat.lt_of_lt_of_le i.isLt all), rfl, rfl⟩
  | astray lost =>
    apply absurd _ lost
    cases place with
    | running point => cases point <;> simp_all [MainAfter, OfMain]
    | _ => cases main

theorem after_turn {i : Fin threads} (sent : After before notes state)
    (turn : Turn false i state.shared (state.threads (some i)) after.shared (after.threads (some i)) written)
    (others : ∀ other, other ≠ some i → after.threads other = state.threads other) :
    After before (notes ++ written) after := by
  have rest : ∀ other, other ≠ i → after.threads (some other) = state.threads (some other) :=
    fun other different => others _ fun found => different (Option.some.inj found)
  have stays := others none (Option.some_ne_none i).symm
  have saved : ∀ other, Came before other → Saved (after.threads (some other)) := by
    intro other came
    by_cases same : other = i
    · subst other
      exact (saved_turn (sent.saved i came) sent.flag turn).1
    · rw [rest other same]
      exact sent.saved other came
  have doomed : ∀ other, ¬ Came before other → Doomed (after.threads (some other)) := by
    intro other late
    by_cases same : other = i
    · subst other
      exact (doomed_turn (sent.doomed i late) turn).1
    · rw [rest other same]
      exact sent.doomed other late
  have effect : Effect i state.shared (state.threads (some i)) after.shared (after.threads (some i)) written := by
    by_cases came : Came before i
    · exact (saved_turn (sent.saved i came) sent.flag turn).2
    · exact (doomed_turn (sent.doomed i came) turn).2
  have exited := sent.exited
  have printed := sent.printed
  generalize shared : after.shared = now at effect
  generalize here : state.threads (some i) = place at effect
  generalize there : after.threads (some i) = next at effect
  -- What was decided by the broadcast is kept; the rest is who has printed.
  cases effect with
  | quiet before next =>
    constructor
    · rw [shared, sent.flag]
    · rw [shared, stays]
      exact sent.main
    · exact saved
    · exact doomed
    · intro other
      rw [shared, exited]
      by_cases same : other = i
      · subst other
        rw [here, there]
        exact iff_of_false before next
      · rw [rest other same]
    · intro other
      rw [List.append_nil, shared]
      exact printed other
  | prints =>
    constructor
    · rw [shared, sent.flag]
    · rw [shared, stays]
      exact sent.main.mono (Finset.subset_insert _ _)
    · exact saved
    · exact doomed
    · intro other
      rw [shared, Finset.mem_insert]
      by_cases same : other = i
      · subst other
        simp [there]
      · simp [same, exited, rest other same]
    · intro other
      rw [shared, Finset.mem_insert, List.mem_append, printed]
      simp [or_comm]

theorem after_step (sent : After before notes state)
    (step : (condvarMachine threads false).step state action = some (after, written)) :
    After before (notes ++ written) after := by
  rcases moves_of_step step with ⟨i, turn, others⟩ | ⟨woken, turn, rfl, others⟩
  · exact after_turn sent turn others
  · obtain ⟨main, shared, rfl⟩ := main_turn sent.main turn
    have rest : ∀ i, after.threads (some i) = state.threads (some i) := others
    rw [List.append_nil]
    constructor
    · rw [shared, sent.flag]
    · exact main
    · intro i came
      rw [rest]
      exact sent.saved i came
    · intro i late
      rw [rest]
      exact sent.doomed i late
    · intro i
      rw [shared, rest]
      exact sent.exited i
    · intro i
      rw [shared]
      exact sent.printed i

theorem after_run {actions : List (Action (Tid threads) Empty)} (exclusive : Exclusive Holds Parks before)
    (waiting : Before [] before) (sending : before.threads none = .running .broadcast)
    (run : (condvarMachine threads false).Run before actions notes state) :
    Exclusive Holds Parks state ∧ ((state = before ∧ notes = []) ∨ After before notes state) := by
  apply run.invariant
    (fun notes state => Exclusive Holds Parks state ∧ ((state = before ∧ notes = []) ∨ After before notes state))
  · exact ⟨exclusive, Or.inl ⟨rfl, rfl⟩⟩
  · rintro notes state action after written ⟨held, phase⟩ step
    have later := exclusive_of_step held step
    refine ⟨later, Or.inr ?_⟩
    rcases phase with ⟨rfl, rfl⟩ | sent
    · exact after_broadcast held waiting sending later step
    · exact after_step sent step

end After

section Ends

def Stuck (state : World threads) : Prop := ∀ action, (condvarMachine threads false).step state action = none

theorem moves_of_canMove {thread : Tid threads} (can : CanMove (program threads) state thread)
    (ready : ∀ point, state.threads thread = .running point → waits thread point state.shared = false) :
    ¬ Stuck state := by
  obtain ⟨action, own, enabled⟩ := can
  intro stuck
  have none := stuck action
  have permitted : allowed false state action = true := by
    cases action with
    | call _ call => exact nomatch call
    | step mover chosen =>
      have mine : mover = thread := of_decide_eq_true own
      subst mover
      cases place : state.threads thread with
      | running point => simp [allowed, place, ready point place]
      | _ => simp [monitor, place] at enabled
    | spurious => cases own
    | reacquire => rfl
  simp only [condvarMachine, Machine.restrict, permitted, if_true] at none
  rw [none] at enabled
  cases enabled

theorem free_of_stuck (exclusive : Exclusive Holds Parks state) (stuck : Stuck state) : state.owner = none := by
  cases owned : state.owner with
  | none => rfl
  | some thread =>
    exfalso
    have admits := exclusive thread
    cases place : state.threads thread with
    | running point =>
      have holds := (exclusive.own place).mp owned
      have can : CanMove (program threads) state thread :=
        canMove_of_exclusive (disciplined threads) exclusive (by simp [place]) (by simp [place]) (Or.inr owned)
      apply moves_of_canMove can _ stuck
      intro next running
      cases place.symm.trans running
      cases thread <;> cases point <;> first | rfl | cases holds
    | idle =>
      rw [place] at admits
      exact absurd owned admits
    | asleep | woken =>
      rw [place] at admits
      exact absurd owned admits.1

/-- Every thread that is awake waits for its creation or its end, or `main` for another thread. -/
theorem waits_of_stuck (exclusive : Exclusive Holds Parks state) (stuck : Stuck state) (thread : Tid threads)
    (busy : state.threads thread ≠ .idle) (awake : ∀ cond point, state.threads thread ≠ .asleep cond point) :
    ∃ point, state.threads thread = .running point ∧ waits thread point state.shared = true := by
  by_contra none
  push Not at none
  refine moves_of_canMove (canMove_of_exclusive (disciplined threads) exclusive busy awake ?_) ?_ stuck
  · exact Or.inl (free_of_stuck exclusive stuck)
  · intro point running
    simpa using none point running

theorem gone_of_stuck (exclusive : Exclusive Holds Parks state) (stuck : Stuck state)
    {i : Fin threads} (saved : Saved (state.threads (some i))) :
    state.threads (some i) = .running .gone := by
  obtain ⟨point, place, waiting⟩ := waits_of_stuck exclusive stuck (some i) (by rintro h; simp [h, Saved] at saved)
    (by rintro cond point h; simp [h, Saved] at saved)
  rw [place] at saved ⊢
  cases point with
  | gone => rfl
  | begin => cases saved
  | _ => cases waiting

theorem done_of_stuck (exclusive : Exclusive Holds Parks state) (stuck : Stuck state) (sent : After before notes state) :
    state.threads none = .running .done ↔ ∀ i, i ∈ state.shared.exited := by
  have main := sent.main
  constructor
  · intro done
    rwa [done] at main
  · intro all
    obtain ⟨point, place, waiting⟩ := waits_of_stuck exclusive stuck none (by rintro h; simp [h, MainAfter] at main)
      (by rintro cond point h; simp [h, MainAfter] at main)
    cases point with
    | done => exact place
    | join j =>
      simp only [waits] at waiting
      split at waiting
      · simp [all] at waiting
      · cases waiting
    | _ => cases waiting

def turnsLeft : Thread Cond Point → Nat
  | .running .begin => 6
  | .running (.loop false) => 5
  | .asleep _ _ | .woken _ _ => 4
  | .running .read => 3
  | .running (.loop true) => 2
  | .running .print => 1
  | _ => 0

def mainTurnsLeft (threads : Nat) : Thread Cond Point → Nat
  | .running .broadcast => threads + 3
  | .running .unlock => threads + 2
  | .running (.join j) => threads - j + 1
  | _ => 0

def stepsLeft (state : World threads) : Nat :=
  ∑ i, turnsLeft (state.threads (some i)) + mainTurnsLeft threads (state.threads none)

theorem turn_lowers {i : Fin threads} {shared later : Shared threads} {place next : Thread Cond Point}
    (proper : Saved place ∨ Doomed place) (set : shared.globalFlag = true)
    (turn : Turn false i shared place later next written) : turnsLeft next + 1 = turnsLeft place := by
  cases turn with
  | lock | wait | leave | print => rfl
  | read =>
    rw [set]
    rfl
  | wake allowed => cases allowed
  | @reacquire _ point =>
    cases point with
    | read => rfl
    | _ => simp [Saved, Doomed] at proper
  | astray lost =>
    apply absurd _ lost
    cases place with
    | running point => cases point <;> simp_all [Saved, Doomed, OfThread]
    | asleep | woken => trivial
    | idle => simp [Saved, Doomed] at proper

theorem main_lowers {shared later : Shared threads} {place next : Thread Cond Point} {woken : Bool}
    (main : MainAfter shared.exited place ∨ place = .running .broadcast)
    (turn : MainTurn shared place later next woken) : mainTurnsLeft threads next + 1 ≤ mainTurnsLeft threads place := by
  cases turn with
  | broadcast | unlock => simp [mainTurnsLeft]
  | @join j =>
    have := j.isLt
    simp only [mainTurnsLeft]
    omega
  | joined => simp [mainTurnsLeft]
  | create | created | lock | set => simp [MainAfter] at main
  | astray lost =>
    apply absurd _ lost
    cases place with
    | running point => cases point <;> simp_all [MainAfter, OfMain]
    | _ => simp [MainAfter] at main

theorem turnsLeft_wake (place : Thread Cond Point) : turnsLeft place.wake = turnsLeft place := by
  cases place <;> rfl

theorem stepsLeft_main {woken : Bool}
    (main : MainAfter state.shared.exited (state.threads none) ∨ state.threads none = .running .broadcast)
    (turn : MainTurn state.shared (state.threads none) after.shared (after.threads none) woken)
    (others : ∀ i, after.threads (some i) = if woken then (state.threads (some i)).wake else state.threads (some i)) :
    stepsLeft after + 1 ≤ stepsLeft state := by
  have lowers := main_lowers main turn
  have same : ∀ i, turnsLeft (after.threads (some i)) = turnsLeft (state.threads (some i)) := by
    intro i
    rw [others]
    split
    · exact turnsLeft_wake _
    · rfl
  simp only [stepsLeft, same]
  omega

theorem stepsLeft_thread {i : Fin threads} (proper : Saved (state.threads (some i)) ∨ Doomed (state.threads (some i)))
    (set : state.shared.globalFlag = true)
    (turn : Turn false i state.shared (state.threads (some i)) after.shared (after.threads (some i)) written)
    (others : ∀ other, other ≠ some i → after.threads other = state.threads other) :
    stepsLeft after + 1 ≤ stepsLeft state := by
  have lowers := turn_lowers proper set turn
  have sum := @sum_changed _ _ _ (fun i => turnsLeft (state.threads (some i)))
    (fun i => turnsLeft (after.threads (some i))) i
    (fun other different => by rw [others _ fun found => different (Option.some.inj found)])
    0 1 lowers
  simp only [stepsLeft, others none (Option.some_ne_none i).symm]
  omega

theorem stepsLeft_start (sending : state.threads none = .running .broadcast) : stepsLeft state ≤ 7 * threads + 3 := by
  have each : ∀ i ∈ Finset.univ, turnsLeft (state.threads (some i)) ≤ 6 := by
    intro i _
    cases place : state.threads (some i) with
    | running point =>
      cases point with
      | loop flag => cases flag <;> simp [turnsLeft]
      | _ => simp [turnsLeft]
    | _ => simp [turnsLeft]
  have sum := Finset.sum_le_sum each
  rw [Finset.sum_const_nat fun _ _ => rfl, Finset.card_univ, Fintype.card_fin] at sum
  simp only [stepsLeft, sending, mainTurnsLeft]
  omega

theorem steps_after_broadcast {actions : List (Action (Tid threads) Empty)} (exclusive : Exclusive Holds Parks before)
    (waiting : Before [] before) (sending : before.threads none = .running .broadcast)
    (run : (condvarMachine threads false).Run before actions notes final) : actions.length ≤ 7 * threads + 3 := by
  have bound := run.bounded
    (fun state => Exclusive Holds Parks state ∧ (state = before ∨ ∃ notes, After before notes state))
    (fun _ => True) (fun _ => true) stepsLeft ?_ ⟨exclusive, Or.inl rfl⟩ fun _ _ => trivial
  · have begins := stepsLeft_start sending
    have counted := bound.2
    rw [List.countP_true] at counted
    omega
  · rintro state action after written ⟨held, phase⟩ step -
    have later := exclusive_of_step held step
    simp only [if_true]
    rcases phase with rfl | ⟨notes, sent⟩
    · have sent := after_broadcast held waiting sending later step
      refine ⟨⟨later, Or.inr ⟨_, sent⟩⟩, ?_⟩
      rcases moves_of_step step with ⟨i, turn, others⟩ | ⟨woken, turn, _, others⟩
      · have main := sent.main
        rw [others none (Option.some_ne_none i).symm, sending] at main
        cases main
      · exact stepsLeft_main (Or.inr sending) turn others
    · refine ⟨⟨later, Or.inr ⟨_, after_step sent step⟩⟩, ?_⟩
      rcases moves_of_step step with ⟨i, turn, others⟩ | ⟨woken, turn, _, others⟩
      · apply stepsLeft_thread _ sent.flag turn others
        exact (em (Came before i)).imp (sent.saved i) (sent.doomed i)
      · exact stepsLeft_main (Or.inl sent.main) turn others

def still (state : World threads) (thread : Tid threads) : Bool :=
  match state.threads thread with
  | .running point => waits thread point state.shared
  | .asleep _ _ | .idle => true
  | .woken _ _ => false

theorem stuck_of_still (stands : ∀ thread, still state thread = true) : Stuck state := by
  intro action
  cases action with
  | call _ call => exact nomatch call
  | step thread chosen =>
    have here := stands thread
    cases place : state.threads thread with
    | running point =>
      simp only [still, place] at here
      simp [condvarMachine, Machine.restrict, allowed, place, here]
    | _ => simp [condvarMachine, Machine.restrict, allowed, place]
  | spurious => rfl
  | reacquire thread =>
    have here := stands thread
    cases place : state.threads thread with
    | woken => simp [still, place] at here
    | _ => simp [condvarMachine, Machine.restrict, allowed, monitor, place]

/-- The broadcast reaches the threads that have taken the mutex before it, and `main` ends
only if these are all. -/
theorem broadcast_reaches {earlier later : List (Action (Tid threads) Empty)}
    (run : (condvarMachine threads true).Run (startWorld threads) earlier notes before)
    (sending : before.threads none = .running .broadcast)
    (onwards : (condvarMachine threads false).Run before later written final) :
    notes = [] ∧ later.length ≤ 7 * threads + 3 ∧
      ((∀ action, (condvarMachine threads false).step final action = none) →
        (∀ i, (some i, .flagIsSet) ∈ written ↔ before.threads (some i) ≠ .running .begin) ∧
        (final.threads none = .running .done ↔ ∀ i, before.threads (some i) ≠ .running .begin)) := by
  obtain ⟨exclusive, waiting | past⟩ := before_run run
  · obtain rfl := waiting.silent
    refine ⟨rfl, steps_after_broadcast exclusive waiting sending onwards, fun stuck => ?_⟩
    obtain ⟨held, ⟨rfl, rfl⟩ | sent⟩ := after_run exclusive waiting sending onwards
    · have free := free_of_stuck held stuck
      rw [(held.own sending).mpr trivial] at free
      cases free
    · have exits : ∀ i, i ∈ final.shared.exited ↔ Came before i := by
        intro i
        rw [sent.exited]
        constructor
        · intro gone
          by_contra late
          have doomed := sent.doomed i late
          rw [gone] at doomed
          cases doomed
        · intro came
          exact gone_of_stuck held stuck (sent.saved i came)
      constructor
      · intro i
        rw [sent.printed, exits]
        rfl
      · rw [done_of_stuck held stuck sent]
        exact forall_congr' exits
  · rw [sending] at past
    cases past

theorem broadcast_reaches_first : ∃ (written : List (Tid 2 × Note)) (final : World 2),
    ((some 0, .flagIsSet) ∈ written ∧ (some 1, .flagIsSet) ∉ written) ∧ final.threads none ≠ .running .done := by
  let earlier : List (Action (Tid 2) Empty) := [.step none ∅, .step none ∅, .step none ∅, .step (some 0) ∅,
    .step (some 0) ∅, .step none ∅, .step none ∅]
  let later : List (Action (Tid 2) Empty) := [.step none ∅, .step none ∅, .reacquire (some 0), .step (some 0) ∅,
    .step (some 0) ∅, .step (some 0) ∅, .step (some 1) ∅, .step (some 1) ∅, .step none ∅]
  have first := @Machine.run_of_isSome _ _ _ (condvarMachine 2 true) earlier (startWorld 2) (by decide)
  have second := @Machine.run_of_isSome _ _ _ (condvarMachine 2 false) later
    (((condvarMachine 2 true).exec (startWorld 2) earlier).get (by decide)).1 (by decide)
  have reached := (broadcast_reaches first (by decide) second).2.2 (stuck_of_still (by decide))
  exact ⟨_, _, ⟨(reached.1 0).mpr (by decide), mt (reached.1 1).mp (by decide)⟩, mt reached.2.mp (by decide)⟩

end Ends
end PosixC.Condvar
