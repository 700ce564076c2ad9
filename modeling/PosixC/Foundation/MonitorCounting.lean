import Mathlib.Data.Fintype.Card
import PosixC.Foundation.MonitorRules

/-! Counting arguments over the threads of a monitor.

`Rationed` is the argument against lost wake-ups: a thread that raised the
supply of a condition owes a signal, and a woken thread that runs again
consumes one. `Tallied` is the argument that a counter kept under the mutex is
the number of threads inside a wait.
-/

set_option autoImplicit false

namespace PosixC.Foundation.Monitor

section Wakeups

variable {Tid Cond Shared Local Call Note : Type} [DecidableEq Tid] [Fintype Tid] [DecidableEq Cond]

/-- Supply and demand of one condition. `supply` is what its waiters wait for and
`credit` the part of it the owner of the mutex already answers for, either by
taking it or by a signal still to be sent. -/
structure Rationed (program : Program Tid Cond Shared Local Call Note)
    (holds : Local → Prop) (parks : Cond → Local → Prop) (held : Local → List (Tid × Note) → Shared → Prop)
    (cond : Cond) (supply : Shared → Nat) (credit : Local → Nat) : Prop where
  assign : ∀ {notes shared thread point after next written}, holds point → held point notes shared →
    program.next thread point shared = .assign after next written →
    supply after = 0 ∨ supply after + credit point ≤ supply shared + credit next
  outside : ∀ {shared thread point after next written}, ¬ holds point →
    program.next thread point shared = .assign after next written → supply after ≤ supply shared
  signal : ∀ {shared thread point next},
    program.next thread point shared = .signal cond next → credit point ≤ credit next + 1
  otherSignal : ∀ {shared thread point on next}, on ≠ cond →
    program.next thread point shared = .signal on next → credit point ≤ credit next
  otherBroadcast : ∀ {shared thread point on next}, on ≠ cond →
    program.next thread point shared = .broadcast on next → credit point ≤ credit next
  unlock : ∀ {shared thread point next}, program.next thread point shared = .unlock next → credit point = 0
  wait : ∀ {notes shared thread point next}, held point notes shared →
    program.next thread point shared = .wait cond next → supply shared = 0
  otherWait : ∀ {shared thread point on next}, on ≠ cond →
    program.next thread point shared = .wait on next → credit point = 0
  resume : ∀ {point}, parks cond point → 1 ≤ credit point

def State.credited (state : State Tid Cond Shared Local) (credit : Local → Nat) : Nat :=
  match state.owner with
  | none => 0
  | some thread =>
      match state.threads thread with
      | .running point => credit point
      | _ => 0

/-- Whoever still sleeps does so because the supply is spoken for. -/
def State.Covered (state : State Tid Cond Shared Local) (cond : Cond) (supply : Shared → Nat)
    (credit : Local → Nat) : Prop :=
  (state.sleepers cond).Nonempty → supply state.shared ≤ (state.wokens cond).card + state.credited credit

section Counting

variable (state : State Tid Cond Shared Local) (cond : Cond)

omit [DecidableEq Tid] in
@[simp] theorem mem_sleepers {thread : Tid} :
    thread ∈ state.sleepers cond ↔ (state.threads thread).asleepOn cond = true := by
  simp [State.sleepers]

omit [DecidableEq Tid] in
@[simp] theorem mem_wokens {thread : Tid} :
    thread ∈ state.wokens cond ↔ (state.threads thread).wokenOn cond = true := by
  simp [State.wokens]

omit [DecidableEq Tid] [Fintype Tid] in
theorem running_not_woken {state : State Tid Cond Shared Local} {thread : Tid} {point : Local}
    (running : state.threads thread = .running point) : (state.threads thread).wokenOn cond = false := by
  rw [running]; rfl

theorem sleepers_nonempty_of_setThread {thread : Tid} {value : Thread Cond Local}
    (awake : value.asleepOn cond = false) (some : ((state.setThread thread value).sleepers cond).Nonempty) :
    (state.sleepers cond).Nonempty := by
  obtain ⟨other, member⟩ := some
  rw [mem_sleepers] at member
  refine ⟨other, ?_⟩
  by_cases same : other = thread
  · subst other
    rw [setThread_self, awake] at member
    cases member
  · simpa [setThread_of_ne state thread value same] using member

theorem card_wokens_setThread {thread : Tid} (value : Thread Cond Local)
    (before : (state.threads thread).wokenOn cond = false) :
    (state.wokens cond).card ≤ ((state.setThread thread value).wokens cond).card := by
  apply Finset.card_le_card
  intro other member
  have different : other ≠ thread := by
    rintro rfl
    simp [before] at member
  simpa [setThread_of_ne state thread value different] using member

theorem card_wokens_resume (thread : Tid) (value : Thread Cond Local) :
    (state.wokens cond).card ≤ ((state.setThread thread value).wokens cond).card + 1 := by
  have kept : (state.wokens cond).erase thread ⊆ (state.setThread thread value).wokens cond := by
    intro other member
    obtain ⟨different, woken⟩ := Finset.mem_erase.mp member
    simpa [setThread_of_ne state thread value different] using woken
  have := Finset.card_le_card kept
  have := Finset.pred_card_le_card_erase (s := state.wokens cond) (a := thread)
  omega

theorem sleepers_wake_subset (chosen : Finset Tid) : (state.wake chosen).sleepers cond ⊆ state.sleepers cond := by
  intro other member
  rw [mem_sleepers] at member ⊢
  simp only [State.wake] at member
  split at member
  · cases before : state.threads other <;> simp_all [Thread.wake, Thread.asleepOn]
  · exact member

theorem wokens_subset_wake (chosen : Finset Tid) : state.wokens cond ⊆ (state.wake chosen).wokens cond := by
  intro other member
  rw [mem_wokens] at member ⊢
  simp only [State.wake]
  split
  · cases before : state.threads other <;> simp_all [Thread.wake, Thread.wokenOn]
  · exact member

theorem card_wokens_wake {chosen : Finset Tid} (asleep : chosen ⊆ state.sleepers cond) :
    (state.wokens cond).card + chosen.card ≤ ((state.wake chosen).wokens cond).card := by
  have disjoint : Disjoint (state.wokens cond) chosen := by
    apply Finset.disjoint_left.mpr
    intro other woken member
    have sleeps := (mem_sleepers state cond).mp (asleep member)
    rw [mem_wokens] at woken
    cases before : state.threads other <;> simp_all [Thread.wokenOn, Thread.asleepOn]
  rw [← Finset.card_union_of_disjoint disjoint]
  refine Finset.card_le_card (Finset.union_subset (wokens_subset_wake state cond chosen) fun other member => ?_)
  have sleeps := (mem_sleepers state cond).mp (asleep member)
  simp only [mem_wokens, State.wake, if_pos member]
  cases before : state.threads other <;> simp_all [Thread.wake, Thread.wokenOn, Thread.asleepOn]

theorem sleepers_wake_all : (state.wake (state.sleepers cond)).sleepers cond = ∅ := by
  apply Finset.eq_empty_of_forall_notMem
  intro other member
  rw [mem_sleepers] at member
  simp only [State.wake] at member
  split at member
  · cases before : state.threads other <;> simp_all [Thread.wake, Thread.asleepOn]
  · next awake => exact awake ((mem_sleepers state cond).mpr member)

end Counting

section Credits

variable (state : State Tid Cond Shared Local) {thread : Tid} (credit : Local → Nat)

omit [Fintype Tid] [DecidableEq Tid] [DecidableEq Cond] in
theorem credited_owner {point : Local} (own : state.owner = some thread)
    (running : state.threads thread = .running point) : state.credited credit = credit point := by
  simp only [State.credited, own, running]

omit [Fintype Tid] [DecidableEq Tid] [DecidableEq Cond] in
theorem credited_free (free : state.owner = none) : state.credited credit = 0 := by
  simp only [State.credited, free]

omit [Fintype Tid] [DecidableEq Cond] in
theorem credited_running (own : state.owner = some thread) (point : Local) :
    (state.setThread thread (.running point)).credited credit = credit point := by
  simp only [State.credited, setThread_owner, own, setThread_self]

omit [Fintype Tid] [DecidableEq Cond] in
theorem credited_setThread (foreign : state.owner ≠ some thread) (value : Thread Cond Local) :
    (state.setThread thread value).credited credit = state.credited credit := by
  cases owner : state.owner with
  | none => simp only [State.credited, setThread_owner, owner]
  | some other =>
    have different : other ≠ thread := fun same => foreign (same ▸ owner)
    simp only [State.credited, setThread_owner, owner, setThread_of_ne state thread value different]

omit [Fintype Tid] [DecidableEq Cond] in
theorem credited_wake (chosen : Finset Tid) : (state.wake chosen).credited credit = state.credited credit := by
  cases owner : state.owner with
  | none => simp only [State.credited, wake_owner, owner]
  | some other =>
    by_cases member : other ∈ chosen
    · cases before : state.threads other <;> simp [State.credited, owner, State.wake, Thread.wake, member, before]
    · simp [State.credited, owner, State.wake, member]

omit [Fintype Tid] [DecidableEq Cond] in
theorem credited_waker_le (chosen : Finset Tid) {point next : Local} (running : state.threads thread = .running point)
    {loss : Nat} (cost : credit point ≤ credit next + loss) :
    state.credited credit ≤ ((state.wake chosen).setThread thread (.running next)).credited credit + loss := by
  by_cases own : state.owner = some thread
  · rw [credited_owner state credit own running, credited_running (state.wake chosen) credit own]
    exact cost
  · rw [credited_setThread (state.wake chosen) credit own, credited_wake]
    exact Nat.le_add_right _ _

omit [Fintype Tid] [DecidableEq Cond] in
theorem credited_waker (chosen : Finset Tid) {point next : Local} (running : state.threads thread = .running point)
    (same : credit point = credit next) :
    ((state.wake chosen).setThread thread (.running next)).credited credit = state.credited credit := by
  by_cases own : state.owner = some thread
  · rw [credited_owner state credit own running, credited_running (state.wake chosen) credit own, same]
  · rw [credited_setThread (state.wake chosen) credit own, credited_wake]

end Credits

variable {program : Program Tid Cond Shared Local Call Note} {holds : Local → Prop} {parks : Cond → Local → Prop}
  {free : List (Tid × Note) → Shared → Prop} {held : Local → List (Tid × Note) → Shared → Prop}
  {cond : Cond} {supply : Shared → Nat} {credit : Local → Nat}

/-- What covered the sleepers still does after a thread has moved that was not
woken and does not fall asleep. -/
theorem State.Covered.moved {state : State Tid Cond Shared Local} {thread : Tid} {value : Thread Cond Local}
    (covered : state.Covered cond supply credit) (before : (state.threads thread).wokenOn cond = false)
    (awake : value.asleepOn cond = false) (sleeping : ((state.setThread thread value).sleepers cond).Nonempty) :
    supply state.shared ≤ ((state.setThread thread value).wokens cond).card + state.credited credit := by
  have enough := covered (sleepers_nonempty_of_setThread state cond awake sleeping)
  exact enough.trans (Nat.add_le_add_right (card_wokens_setThread state cond value before) _)

theorem State.Covered.waker {state : State Tid Cond Shared Local} {thread : Tid} {chosen : Finset Tid}
    {point next : Local} {loss : Nat} (covered : state.Covered cond supply credit)
    (running : state.threads thread = .running point) (asleep : (state.sleepers cond).Nonempty)
    (gain : (state.wokens cond).card + loss ≤ ((state.wake chosen).wokens cond).card)
    (cost : credit point ≤ credit next + loss) :
    supply state.shared ≤ (((state.wake chosen).setThread thread (.running next)).wokens cond).card +
      ((state.wake chosen).setThread thread (.running next)).credited credit := by
  have before := covered asleep
  have awake := running_not_woken cond (wake_running state thread chosen running)
  have kept := card_wokens_setThread _ cond (.running next) awake
  have credits := credited_waker_le state credit chosen running cost
  omega

theorem covered_step (disciplined : Disciplined program holds parks)
    (rationed : Rationed program holds parks held cond supply credit)
    {notes written : List (Tid × Note)} {state after : State Tid Cond Shared Local} {action : Action Tid Call}
    (sound : Sound holds parks free held notes state) (covered : state.Covered cond supply credit)
    (move : Move program state action after written) : after.Covered cond supply credit := by
  intro sleeping
  cases move with
  | @call thread _ point idle entered =>
    have before := covered.moved (by rw [idle]; rfl) rfl sleeping
    have foreign : state.owner ≠ some thread := by simpa only [idle, Admits] using sound.exclusive thread
    rw [credited_setThread state credit foreign]
    exact before
  | @lock thread _ _ next running command none =>
    have before := covered.moved (running_not_woken cond running) rfl sleeping
    rw [credited_free state credit none] at before
    exact before.trans (Nat.add_le_add_left (Nat.zero_le _) _)
  | @tryLock thread _ _ next _ running command none =>
    have before := covered.moved (running_not_woken cond running) rfl sleeping
    rw [credited_free state credit none] at before
    exact before.trans (Nat.add_le_add_left (Nat.zero_le _) _)
  | @busy thread _ point _ next running command taken =>
    have before := covered.moved (running_not_woken cond running) rfl sleeping
    have rule := disciplined.command thread point state.shared
    rw [command] at rule
    rw [credited_setThread state credit (fun own => rule.1 ((sound.exclusive.own running).mp own))]
    exact before
  | @unlock thread _ _ next running command own =>
    have before := covered.moved (running_not_woken cond running) rfl sleeping
    rw [credited_owner state credit own running, rationed.unlock command] at before
    exact before.trans (Nat.add_le_add_left (Nat.zero_le _) _)
  | @wait thread _ _ next on running command own =>
    -- Whoever falls asleep on this condition has just found its supply empty.
    by_cases same : on = cond
    · subst on
      have none := rationed.wait (sound.held own running) command
      exact (show supply state.shared ≤ _ by omega)
    · have before := covered.moved (running_not_woken cond running) (by simp [Thread.asleepOn, same]) sleeping
      rw [credited_owner state credit own running, rationed.otherWait same command] at before
      exact before.trans (Nat.add_le_add_left (Nat.zero_le _) _)
  | @signal thread chosen point next on running command may =>
    have asleep := (sleepers_nonempty_of_setThread _ cond rfl sleeping).mono (sleepers_wake_subset state cond chosen)
    by_cases same : on = cond
    · subst on
      -- A signal that reaches a sleeper turns a credit into a woken thread.
      have some : chosen.Nonempty := Finset.nonempty_iff_ne_empty.mpr fun empty => asleep.ne_empty (may.2 empty)
      have gain := (Nat.add_le_add_left some.card_pos _).trans (card_wokens_wake state cond may.1)
      exact covered.waker running asleep gain (rationed.signal command)
    · have more := Finset.card_le_card (wokens_subset_wake state cond chosen)
      have cost : credit point ≤ credit next + 0 := rationed.otherSignal same command
      exact covered.waker running asleep more cost
  | @broadcast thread _ point next on running command =>
    have asleep := sleepers_nonempty_of_setThread _ cond rfl sleeping
    -- Somebody still sleeps, so the broadcast was not on this condition.
    have different : on ≠ cond := by
      rintro rfl
      exact asleep.ne_empty (sleepers_wake_all state on)
    have more := Finset.card_le_card (wokens_subset_wake state cond (state.sleepers on))
    have cost : credit point ≤ credit next + 0 := rationed.otherBroadcast different command
    exact covered.waker running (asleep.mono (sleepers_wake_subset state cond _)) more cost
  | @assign thread _ point next shared _ running command =>
    have before := covered.moved (running_not_woken cond running) rfl sleeping
    change supply shared ≤ ((state.setThread thread (.running next)).wokens cond).card +
      (state.setThread thread (.running next)).credited credit
    by_cases own : state.owner = some thread
    · rw [credited_owner state credit own running] at before
      rw [credited_running state credit own]
      have := rationed.assign ((sound.exclusive.own running).mp own) (sound.held own running) command
      omega
    · rw [credited_setThread state credit own]
      have := rationed.outside (fun h => own ((sound.exclusive.own running).mpr h)) command
      omega
  | @finish thread _ point _ running command =>
    have before := covered.moved (running_not_woken cond running) rfl sleeping
    have rule := disciplined.command thread point state.shared
    rw [command] at rule
    rw [credited_setThread state credit (fun own => rule ((sound.exclusive.own running).mp own))]
    exact before
  | @spurious thread on point asleep =>
    have before := covered.moved (by rw [asleep]; rfl) rfl sleeping
    have admits := sound.exclusive thread
    simp only [asleep, Admits] at admits
    rw [credited_setThread state credit admits.1]
    exact before
  | @reacquire thread on point woken none =>
    have before := covered (sleepers_nonempty_of_setThread state cond rfl sleeping)
    rw [credited_free state credit none] at before
    have runs := credited_running { state with owner := some thread } credit rfl point
    change supply state.shared ≤ ((state.setThread thread (.running point)).wokens cond).card +
      ({ state with owner := some thread }.setThread thread (.running point)).credited credit
    rw [runs]
    -- One woken thread less, but what it was woken for is now its credit.
    by_cases same : on = cond
    · subst on
      have admits := sound.exclusive thread
      simp only [woken, Admits] at admits
      have := rationed.resume admits.2
      have := card_wokens_resume state cond thread (.running point)
      omega
    · have more := card_wokens_setThread state cond (.running point)
        (by simp [woken, Thread.wokenOn, same] : (state.threads thread).wokenOn cond = false)
      omega

/-- No lost wake-up: in every state reached, a thread sleeps only while the
woken threads and the owner of the mutex answer for the whole supply. -/
theorem run_covered (disciplined : Disciplined program holds parks) (outline : Outline program holds parks free held)
    (rationed : Rationed program holds parks held cond supply credit) {shared : Shared} (begins : free [] shared)
    {actions : List (Action Tid Call)} {notes : List (Tid × Note)} {final : State Tid Cond Shared Local}
    (run : (monitor program).Run (initial shared) actions notes final) : final.Covered cond supply credit := by
  induction run with
  | start =>
    intro some
    simp [State.sleepers, initial, Thread.asleepOn] at some
  | next before step ih =>
    exact covered_step disciplined rationed (run_sound disciplined outline begins before) ih (move_of_step step)

end Wakeups

section Tallies

variable {Tid Cond Shared Local Call Note : Type} [DecidableEq Tid] [Fintype Tid] [DecidableEq Cond]

def Thread.waitsOn (cond : Cond) (thread : Thread Cond Local) : Bool := thread.asleepOn cond || thread.wokenOn cond

def State.waiters (state : State Tid Cond Shared Local) (cond : Cond) : Finset Tid :=
  Finset.univ.filter fun t => (state.threads t).waitsOn cond = true

/-- `tally` is what the owner of the mutex has added to the counter without
being asleep, or not yet taken off it. A counter that cannot wrap while it is at
most the number of threads may assume so. -/
structure Tallied (program : Program Tid Cond Shared Local Call Note)
    (holds : Local → Prop) (parks : Cond → Local → Prop) (held : Local → List (Tid × Note) → Shared → Prop)
    (cond : Cond) (counter : Shared → Nat) (tally : Local → Nat) : Prop where
  assign : ∀ {notes shared thread point after next written}, holds point → held point notes shared →
    program.next thread point shared = .assign after next written →
    tally point ≤ counter shared → counter shared < Fintype.card Tid + tally point →
    counter after + tally point = counter shared + tally next
  outside : ∀ {shared thread point after next written}, ¬ holds point →
    program.next thread point shared = .assign after next written → counter after = counter shared
  lock : ∀ {shared thread point next}, program.next thread point shared = .lock next → tally next = 0
  tryLock : ∀ {shared thread point acquired busy},
    program.next thread point shared = .tryLock acquired busy → tally acquired = 0
  unlock : ∀ {shared thread point next}, program.next thread point shared = .unlock next → tally point = 0
  signal : ∀ {shared thread point on next},
    program.next thread point shared = .signal on next → tally point = tally next
  broadcast : ∀ {shared thread point on next},
    program.next thread point shared = .broadcast on next → tally point = tally next
  wait : ∀ {shared thread point on next},
    program.next thread point shared = .wait on next → tally point = if on = cond then 1 else 0
  resume : ∀ {on point}, parks on point → tally point = if on = cond then 1 else 0

section Waiters

variable (state : State Tid Cond Shared Local) (cond : Cond)

omit [DecidableEq Tid] in
@[simp] theorem mem_waiters {thread : Tid} :
    thread ∈ state.waiters cond ↔ (state.threads thread).waitsOn cond = true := by
  simp [State.waiters]

theorem waiters_setThread {thread : Tid} {value : Thread Cond Local}
    (same : value.waitsOn cond = (state.threads thread).waitsOn cond) :
    (state.setThread thread value).waiters cond = state.waiters cond := by
  ext other
  by_cases moved : other = thread
  · subst other
    simp [same]
  · simp [setThread_of_ne state thread value moved]

theorem card_waiters_sleep {thread : Tid} {value : Thread Cond Local}
    (before : (state.threads thread).waitsOn cond = false) (now : value.waitsOn cond = true) :
    ((state.setThread thread value).waiters cond).card = (state.waiters cond).card + 1 := by
  have grown : (state.setThread thread value).waiters cond = insert thread (state.waiters cond) := by
    ext other
    by_cases moved : other = thread
    · subst other
      simp [now]
    · simp [setThread_of_ne state thread value moved, moved]
  rw [grown, Finset.card_insert_of_notMem (by simp [before])]

theorem card_waiters_resume (thread : Tid) (value : Thread Cond Local)
    (before : (state.threads thread).waitsOn cond = true) (now : value.waitsOn cond = false) :
    ((state.setThread thread value).waiters cond).card + 1 = (state.waiters cond).card := by
  have shrunk : (state.setThread thread value).waiters cond = (state.waiters cond).erase thread := by
    ext other
    by_cases moved : other = thread
    · subst other
      simp [now]
    · simp [setThread_of_ne state thread value moved, moved]
  rw [shrunk, Finset.card_erase_add_one (by simp [before])]

theorem waiters_wake (chosen : Finset Tid) : (state.wake chosen).waiters cond = state.waiters cond := by
  ext other
  simp only [mem_waiters, State.wake]
  split
  · cases state.threads other <;> simp [Thread.wake, Thread.waitsOn, Thread.asleepOn, Thread.wokenOn]
  · exact Iff.rfl

omit [DecidableEq Tid] in
theorem card_waiters_lt {thread : Tid} (awake : (state.threads thread).waitsOn cond = false) :
    (state.waiters cond).card < Fintype.card Tid :=
  Finset.card_lt_univ_of_notMem (x := thread) (by simp [awake])

omit [DecidableEq Tid] [Fintype Tid] in
theorem running_not_waiting {thread : Tid} {point : Local} (running : state.threads thread = .running point) :
    (state.threads thread).waitsOn cond = false := by
  rw [running]; rfl

theorem waiters_running {thread : Tid} {point : Local} (running : state.threads thread = .running point)
    (next : Local) : (state.setThread thread (.running next)).waiters cond = state.waiters cond :=
  waiters_setThread state cond (running_not_waiting state cond running).symm

end Waiters

variable {program : Program Tid Cond Shared Local Call Note} {holds : Local → Prop} {parks : Cond → Local → Prop}
  {free : List (Tid × Note) → Shared → Prop} {held : Local → List (Tid × Note) → Shared → Prop}
  {cond : Cond} {counter : Shared → Nat} {tally : Local → Nat}

def State.Counted (state : State Tid Cond Shared Local) (cond : Cond) (counter : Shared → Nat)
    (tally : Local → Nat) : Prop :=
  counter state.shared = (state.waiters cond).card + state.credited tally

theorem counted_step (disciplined : Disciplined program holds parks)
    (tallied : Tallied program holds parks held cond counter tally)
    {notes written : List (Tid × Note)} {state after : State Tid Cond Shared Local} {action : Action Tid Call}
    (sound : Sound holds parks free held notes state) (counted : state.Counted cond counter tally)
    (move : Move program state action after written) : after.Counted cond counter tally := by
  unfold State.Counted at counted ⊢
  cases move with
  | @call thread _ point idle entered =>
    have foreign : state.owner ≠ some thread := by simpa only [idle, Admits] using sound.exclusive thread
    rw [credited_setThread state tally foreign, waiters_setThread state cond (by rw [idle]; rfl)]
    exact counted
  | @lock thread _ _ next running command none =>
    have kept := waiters_running state cond running next
    have taken := credited_running { state with owner := some thread } tally rfl next
    rw [credited_free state tally none, ← kept] at counted
    exact counted.trans (congrArg _ (taken.trans (tallied.lock command)).symm)
  | @tryLock thread _ _ next _ running command none =>
    have kept := waiters_running state cond running next
    have taken := credited_running { state with owner := some thread } tally rfl next
    rw [credited_free state tally none, ← kept] at counted
    exact counted.trans (congrArg _ (taken.trans (tallied.tryLock command)).symm)
  | @busy thread _ point _ next running command taken =>
    have rule := disciplined.command thread point state.shared
    rw [command] at rule
    rw [credited_setThread state tally (fun own => rule.1 ((sound.exclusive.own running).mp own)),
      waiters_running state cond running next]
    exact counted
  | @unlock thread _ _ next running command own =>
    have kept := waiters_running state cond running next
    rw [credited_owner state tally own running, tallied.unlock command, ← kept] at counted
    exact counted
  | @wait thread _ _ next on running command own =>
    rw [credited_owner state tally own running, tallied.wait command] at counted
    change counter state.shared = ((state.setThread thread (.asleep on next)).waiters cond).card + 0
    have awake := running_not_waiting state cond running
    -- The counter was raised before the wait; from here on the thread itself is counted.
    by_cases same : on = cond
    · rw [card_waiters_sleep state cond awake (by simp [Thread.waitsOn, Thread.asleepOn, same])]
      simpa [same] using counted
    · rw [waiters_setThread state cond (by rw [awake]; simp [Thread.waitsOn, Thread.asleepOn, Thread.wokenOn, same])]
      simpa [same] using counted
  | @signal thread chosen point next on running command may =>
    have kept := waiters_running (state.wake chosen) cond (wake_running state thread chosen running) next
    rw [kept, waiters_wake, credited_waker state tally chosen running (tallied.signal command)]
    exact counted
  | @broadcast thread _ point next on running command =>
    have kept := waiters_running _ cond (wake_running state thread (state.sleepers on) running) next
    rw [kept, waiters_wake, credited_waker state tally (state.sleepers on) running (tallied.broadcast command)]
    exact counted
  | @assign thread _ point next shared _ running command =>
    change counter shared = ((state.setThread thread (.running next)).waiters cond).card +
      (state.setThread thread (.running next)).credited tally
    rw [waiters_running state cond running next]
    by_cases own : state.owner = some thread
    · rw [credited_owner state tally own running] at counted
      rw [credited_running state tally own]
      -- The thread that moves is awake, which leaves room in the counter.
      have room := card_waiters_lt state cond (running_not_waiting state cond running)
      have := tallied.assign ((sound.exclusive.own running).mp own) (sound.held own running) command
        (by omega) (by omega)
      omega
    · rw [credited_setThread state tally own]
      exact (tallied.outside (fun h => own ((sound.exclusive.own running).mpr h)) command).trans counted
  | @finish thread _ point _ running command =>
    have rule := disciplined.command thread point state.shared
    rw [command] at rule
    rw [credited_setThread state tally (fun own => rule ((sound.exclusive.own running).mp own)),
      waiters_setThread state cond (by rw [running]; rfl)]
    exact counted
  | @spurious thread on point asleep =>
    have admits := sound.exclusive thread
    simp only [asleep, Admits] at admits
    rw [credited_setThread state tally admits.1, waiters_setThread state cond
      (by rw [asleep]; simp [Thread.waitsOn, Thread.asleepOn, Thread.wokenOn])]
    exact counted
  | @reacquire thread on point woken none =>
    have admits := sound.exclusive thread
    simp only [woken, Admits] at admits
    have taken := credited_running { state with owner := some thread } tally rfl point
    rw [tallied.resume admits.2] at taken
    rw [credited_free state tally none] at counted
    change counter state.shared = ((state.setThread thread (.running point)).waiters cond).card +
      ({ state with owner := some thread }.setThread thread (.running point)).credited tally
    rw [taken]
    by_cases same : on = cond
    · have := card_waiters_resume state cond thread (.running point)
        (by rw [woken]; simp [Thread.waitsOn, Thread.wokenOn, same]) rfl
      simp only [same, if_true]
      omega
    · rw [waiters_setThread state cond
        (by rw [woken]; simp [Thread.waitsOn, Thread.asleepOn, Thread.wokenOn, same]), if_neg same]
      exact counted

/-- In every state reached the counter is the number of waiters and what the
owner of the mutex is about to add or take off. -/
theorem run_counted (disciplined : Disciplined program holds parks) (outline : Outline program holds parks free held)
    (tallied : Tallied program holds parks held cond counter tally) {shared : Shared} (begins : free [] shared)
    (zero : counter shared = 0) {actions : List (Action Tid Call)} {notes : List (Tid × Note)}
    {final : State Tid Cond Shared Local} (run : (monitor program).Run (initial shared) actions notes final) :
    final.Counted cond counter tally := by
  induction run with
  | start => simp [State.Counted, State.credited, State.waiters, initial, zero, Thread.waitsOn, Thread.asleepOn,
      Thread.wokenOn]
  | next before step ih =>
    exact counted_step disciplined tallied (run_sound disciplined outline begins before) ih (move_of_step step)

end Tallies
end PosixC.Foundation.Monitor
