import PosixC.Siglogd.Tracing

/-! What the log of hw06 says, and how long its reports go on. -/

set_option autoImplicit false

namespace PosixC.Siglogd

open Foundation Foundation.Signals

variable {timerSeconds : Int} {state after : State} {notes written : List Note} {inherited ignored : Finset Signal}
  {actions : List Action}

/-- A process that no signal has killed during its startup logs what it would log if it
handled the signals one after the other for which the kernel starts a handler, up to the
first that ends it. -/
theorem log_refines (run : (siglogdMachine timerSeconds ignored).Run (startState inherited) actions notes state)
    (alive : state.process.point ≠ .killed) : ∃ rest,
      log notes ++ rest = startup ++ render (handled notes) ∧
      (∀ event ∈ (handled notes).dropLast, fatal event.signo = false) ∧
      (state.process.point = .loop → rest = [] ∧ ∀ event ∈ handled notes, fatal event.signo = false) ∧
      (state.process.point = .exited → rest = [] ∧ ∃ event ∈ handled notes, fatal event.signo = true) := by
  have traced := (traced_of_run run).resolve_left alive
  refine ⟨todo state.statistics state.process.point, traced.logs, traced.last, ?_, ?_⟩
  · intro asleep
    have dooms := traced.dooms
    simp only [asleep, doomed, Bool.false_eq_true, iff_false, not_exists, not_and, Bool.not_eq_true] at dooms
    exact ⟨by rw [asleep]; rfl, dooms⟩
  · intro exited
    exact ⟨by rw [exited]; rfl, traced.dooms.mpr (by rw [exited]; rfl)⟩

def scheduleStartup : List Action := List.replicate 20 .run

def scheduleHandle (sig : Signal) : List Action := [.send sig 7, .deliver sig] ++ List.replicate 10 .run

theorem log_refines_usr1 : ∃ final notes,
    (siglogdMachine 1 ∅).Run (startState ∅) (scheduleStartup ++ scheduleHandle .sigusr1) notes final ∧
    handled notes = [⟨.sigusr1, 7⟩] ∧ final.process.point = .loop ∧ ∃ rest,
      log notes ++ rest = startup ++ render (handled notes) ∧
      (∀ event ∈ (handled notes).dropLast, fatal event.signo = false) ∧
      (final.process.point = .loop → rest = [] ∧ ∀ event ∈ handled notes, fatal event.signo = false) ∧
      (final.process.point = .exited → rest = [] ∧ ∃ event ∈ handled notes, fatal event.signo = true) := by
  obtain ⟨final, notes, run, shown⟩ := @Machine.exists_run_of_any _ _ _ (siglogdMachine 1 ∅)
    (scheduleStartup ++ scheduleHandle .sigusr1) (startState ∅)
    (fun result => result.1.process.point = .loop ∧ handled result.2 = [⟨.sigusr1, 7⟩]) (by decide)
  have place := of_decide_eq_true shown
  exact ⟨final, notes, run, place.2, place.1, log_refines run (by simp [show final.process.point = .loop from place.1])⟩

section Lost

variable {events : List Siginfo}

theorem count_report (statistics : Signal → Nat) (sig : Signal) : (report statistics).count (.got sig) = 0 := by
  simp [report, signalsToLog]

theorem count_response {sig : Signal} (listed : sig ∈ signalsToLog) (events : List Siginfo) (event : Siginfo) :
    (response events event).count (.got sig) = if event.signo = sig then 1 else 0 := by
  have different := mem_signalsToLog.mp listed
  unfold response
  by_cases alarm : event.signo = .sigalrm
  · rw [if_pos alarm, alarm, if_neg (Ne.symm different)]
    split
    · exact count_report _ sig
    · rfl
  · rw [if_neg alarm, List.count_cons]
    have rest : (if fatal event.signo then Line.shuttingDown :: report (tally (events ++ [event])) else []).count (.got sig) = 0 := by
      split
      · rw [List.count_cons, count_report]
        simp
      · rfl
    rw [rest]
    simp

theorem count_render {sig : Signal} (listed : sig ∈ signalsToLog) (events : List Siginfo) :
    (render events).count (.got sig) = events.countP fun event => event.signo = sig := by
  induction events using List.reverseRecOn with
  | nil => rfl
  | append_singleton events event ih =>
    rw [render_concat, List.count_append, ih, count_response listed, List.countP_append, List.countP_singleton]
    simp

theorem count_startup (sig : Signal) : startup.count (.got sig) = 0 := by
  simp [startup, signalsToLog]

end Lost

section Discarded

theorem mem_log {line : Line} : line ∈ log notes ↔ .line line ∈ notes := by
  simp only [log, List.mem_filterMap]
  constructor
  · rintro ⟨note, member, same⟩
    cases note <;> cases same
    exact member
  · exact fun member => ⟨_, member, rfl⟩

theorem count_added_render (events : List Siginfo) (sig : Signal) : (render events).count (.addedHandler sig) = 0 := by
  induction events using List.reverseRecOn with
  | nil => rfl
  | append_singleton events event ih =>
    rw [render_concat, List.count_append, ih, Nat.zero_add]
    unfold response
    split
    · split <;> simp [report, signalsToLog]
    · split <;> simp [report, signalsToLog]

theorem discards_early (traced : Traced notes state) (goes : state.ended = false) {sig : Signal}
    (discarded : discards ignored state sig = true) (unblocked : sig ∉ state.process.mask) (other : Signal) :
    .line (.addedHandler other) ∉ notes := by
  have absent := discards_none discarded
  have placed := traced.placed
  have counts := congrArg (List.count (.addedHandler other)) traced.logs
  rw [List.count_append, List.count_append, count_added_render] at counts
  rw [← mem_log, ← List.count_eq_zero]
  have handling : ¬ Handling state.process := fun known => unblocked (known.blocked sig)
  have alone : ¬ Alone state.process := fun known => unblocked (known.blocked sig)
  cases place : state.process.point with
  | openlog | addMask | block =>
    rw [place] at counts
    cases other <;> simp [todo, startup, signalsToLog] at counts ⊢ <;> omega
  | install | installAlarm | initialized | alarm =>
    simp only [Placed, place] at placed
    exact absurd placed.1 alone
  | scan | count | scanned =>
    simp only [Placed, place] at placed
    exact absurd placed.1 handling
  | checkPid | rearm | «statistics» | statistic | handlerEnd =>
    simp only [Placed, place] at placed
    exact absurd placed handling
  | loop =>
    simp only [Placed, place] at placed
    have installed := placed.2.1 sig
    rw [Installed, absent] at installed
    cases installed
  | exited | killed => simp [State.ended, place] at goes

theorem ignored_step (traced : Traced notes state) {action : Action} {sig : Signal} {head tail : List Note}
    (step : (siglogdMachine timerSeconds ignored).step state action = some (after, head ++ .ignored sig :: tail)) :
    head = [] ∧ discards ignored state sig = true ∧ sig ∉ state.process.mask ∧ state.ended = false := by
  simp only [siglogdMachine] at step
  split at step
  · cases step
  · next goes =>
    cases action with
    | run =>
      obtain ⟨line, other⟩ := (advances_of_run traced.placed step).lines (.ignored sig) (by simp)
      cases other
    | deliver sent =>
      simp only [deliverStep] at step
      split at step
      · next discarded =>
        split at step
        · cases step
        · next thrown =>
          simp only [Option.some.injEq, Prod.mk.injEq] at step
          rcases List.append_eq_singleton_iff.mp step.2.symm with ⟨none, own⟩ | ⟨_, other⟩
          · cases own
            exact ⟨none, discarded, (perm_of_discard thrown).1, Bool.eq_false_iff.mpr goes⟩
          · cases other
      · split at step
        · cases step
        · simp only [Option.some.injEq, Prod.mk.injEq] at step
          have member : .ignored sig ∈ handledNotes state.process sent := by simp [step.2]
          simp only [handledNotes] at member
          split at member
          · simp at member
          · cases member
    | send other pid =>
      obtain ⟨_, same⟩ := Option.ite_none_left_eq_some.mp step
      simp only [Option.some.injEq, Prod.mk.injEq] at same
      rcases List.append_eq_singleton_iff.mp same.2.symm with ⟨_, other⟩ | ⟨_, other⟩ <;> cases other
    | expire =>
      obtain ⟨_, same⟩ := Option.ite_none_right_eq_some.mp step
      simp only [Option.some.injEq, Prod.mk.injEq] at same
      rcases List.append_eq_singleton_iff.mp same.2.symm with ⟨_, other⟩ | ⟨_, other⟩ <;> cases other

/-- What is discarded had no effect by default or was inherited as ignored, and came before the
first handler. -/
theorem ignored_early {sig : Signal} {first later : List Note}
    (run : (siglogdMachine timerSeconds ignored).Run (startState inherited) actions (first ++ .ignored sig :: later) state) :
    (sig = .sigcont ∨ sig ∈ ignored) ∧ ∀ other, .line (.addedHandler other) ∉ first := by
  obtain ⟨_, before, earlier, _, _, head, _, onwards, step, rfl⟩ := run.at_note
  have going : earlier.process.point ≠ .killed := by
    intro killed
    simp [siglogdMachine, State.ended, killed] at step
  have traced := (traced_of_run onwards).resolve_left going
  obtain ⟨rfl, discarded, unblocked, goes⟩ := ignored_step traced step
  rw [List.append_nil]
  have without : sig = .sigcont ∨ sig ∈ ignored := by
    simpa [discards, discards_none discarded] using discarded
  exact ⟨without, discards_early traced goes discarded unblocked⟩

def scheduleInterrupts : List Action := [.send .sigint 7, .deliver .sigint] ++ scheduleStartup ++ [.send .sigint 8]

end Discarded

def kernelAlarm (entry : Signal × Siginfo) : Bool := entry.1 = .sigalrm && entry.2.pid = 0

def renews : Point → Bool
  | .checkPid pid => pid = 0
  | .statistics final | .statistic final _ => !final
  | .rearm => true
  | _ => false

def started : Point → Bool
  | .openlog | .addMask _ | .block | .install _ | .installAlarm | .initialized | .alarm | .killed => false
  | _ => true

def tickers (state : State) : Nat :=
  state.armed.toNat + state.process.pending.countP kernelAlarm + (renews state.process.point).toNat

def Timed (notes : List Note) (state : State) : Prop :=
  if started state.process.point then tickers state = if .expired false ∈ notes then 0 else 1
  else tickers state = 0 ∧ ∀ queued, .expired queued ∉ notes

theorem tickers_run (timer : timerSeconds ≠ 0) (placed : Placed state.process) (few : tickers state ≤ 1)
    (later : state.process.point ≠ .alarm) (step : loggerStep timerSeconds state = some (after, written)) :
    started after.process.point = started state.process.point ∧ tickers after = tickers state := by
  obtain ⟨_, step⟩ := Option.ite_none_right_eq_some.mp step
  cases place : state.process.point with
  | alarm => exact absurd place later
  | addMask rest | install rest =>
    cases rest with
    | nil | cons =>
      simp only [statement, place] at step
      cases step
      exact ⟨rfl, by simp only [tickers, place]; rfl⟩
  | scan sig rest =>
    cases rest with
    | nil =>
      simp only [statement, place] at step
      cases step
      simp [State.goTo, started, tickers, renews, place]
    | cons entry rest =>
      simp only [statement, place] at step
      split at step <;> cases step <;> simp [State.goTo, started, tickers, renews, place]
  | scanned sig =>
    simp only [statement, place] at step
    split at step <;> cases step <;> simp [State.goTo, started, tickers, renews, place]
  | checkPid pid =>
    simp only [statement, place] at step
    cases step
    by_cases kernel : pid = 0 <;> simp [State.goTo, started, tickers, renews, place, kernel]
  -- The alarm that is being handled is replaced by the one that is set.
  | rearm =>
    simp only [statement, place] at step
    cases step
    simp only [tickers, renews, place, Bool.toNat_true] at few
    simp [State.goTo, started, tickers, renews, place, timer]
    omega
  | statistic final rest =>
    cases rest with
    | nil =>
      simp only [statement, place] at step
      cases step
      cases final <;> simp [State.goTo, started, tickers, renews, place]
    | cons sig rest =>
      simp only [statement, place] at step
      cases step
      simp [State.goTo, started, tickers, renews, place]
  | handlerEnd =>
    simp only [Placed, place] at placed
    obtain ⟨mask, frames, _⟩ := placed.frame
    simp only [statement, place, Process.sigreturn, frames] at step
    cases step
    simp [started, tickers, renews, place]
  | exited | killed => simp [statement, place] at step
  | _ =>
    simp only [statement, place] at step
    cases step
    simp [State.goTo, Process.sigaction, Process.sigsuspend, started, tickers, renews, place]

theorem tickers_alarm (timer : timerSeconds ≠ 0) (none : tickers state = 0) (place : state.process.point = .alarm)
    (step : loggerStep timerSeconds state = some (after, written)) :
    started after.process.point = true ∧ tickers after = 1 := by
  obtain ⟨_, step⟩ := Option.ite_none_right_eq_some.mp step
  simp only [statement, place] at step
  cases step
  simp only [tickers, renews, place, Bool.toNat_false] at none
  constructor
  · rfl
  · simp only [tickers, State.goTo, renews, timer, ne_eq, not_false_eq_true, if_true, Bool.toNat_true, Bool.toNat_false]
    omega

theorem expired_lines {written : List Note} (lines : ∀ note ∈ written, ∃ line, note = .line line) (queued : Bool) :
    .expired queued ∉ written := by
  intro member
  obtain ⟨line, other⟩ := lines _ member
  cases other

theorem timed_start (inherited : Finset Signal) : Timed [] (startState inherited) := by
  simp [Timed, startState, started, tickers, renews]

theorem Timed.few (timed : Timed notes state) : tickers state ≤ 1 := by
  unfold Timed at timed
  split at timed
  · rw [timed]
    split <;> decide
  · exact timed.1.le.trans (Nat.zero_le 1)

theorem timed_kept (timed : Timed notes state) (same : started after.process.point = started state.process.point)
    (kept : tickers after = tickers state) (silent : ∀ queued, .expired queued ∉ written) :
    Timed (notes ++ written) after := by
  unfold Timed at timed ⊢
  rw [same, kept]
  simpa [silent] using timed

theorem timed_run (timer : timerSeconds ≠ 0) (placed : Placed state.process) (timed : Timed notes state)
    (step : loggerStep timerSeconds state = some (after, written)) : Timed (notes ++ written) after := by
  have silent := expired_lines (advances_of_run placed step).lines
  by_cases place : state.process.point = .alarm
  · simp only [Timed, place, started, Bool.false_eq_true, if_false] at timed
    obtain ⟨begun, one⟩ := tickers_alarm timer timed.1 place step
    simp [Timed, begun, one, timed.2, silent]
  · obtain ⟨same, kept⟩ := tickers_run timer placed timed.few place step
    exact timed_kept timed same kept silent

theorem timed_send (timed : Timed notes state) {sig : Signal} {pid : Nat} (user : pid ≠ 0) (queued : Bool) :
    Timed (notes ++ [.sent sig queued]) (postSignal state ⟨sig, pid⟩) := by
  apply timed_kept timed
  · rfl
  · simp only [tickers, postSignal, post]
    split
    · rfl
    · simp [kernelAlarm, user]
  · simp

theorem timed_expire (timed : Timed notes state) (armed : state.armed = true) :
    Timed (notes ++ [.expired (queued state .sigalrm)]) (postSignal { state with armed := false } ⟨.sigalrm, 0⟩) := by
  have few := timed.few
  have begun : started state.process.point = true := by
    by_contra early
    simp only [Timed, early, if_false] at timed
    simp [tickers, armed] at timed
  simp only [Timed, begun, if_true] at timed
  simp only [tickers, armed, Bool.toNat_true] at few timed
  have fresh : .expired false ∉ notes := by
    intro stopped
    simp only [stopped, if_true] at timed
    omega
  rw [if_neg fresh] at timed
  simp only [Timed, postSignal, begun, if_true, tickers, post, queued]
  by_cases present : Signal.sigalrm ∈ state.process.pending.map Prod.fst
  · simp only [present, and_self, if_true, not_true_eq_false, decide_false, List.mem_append, List.mem_singleton, or_true,
      Bool.toNat_false]
    omega
  · simp only [present, and_false, if_false, not_false_eq_true, decide_true, List.mem_append, fresh, List.mem_singleton,
      Note.expired.injEq, Bool.false_eq_true, or_self, Bool.toNat_false, List.countP_append, List.countP_singleton,
      kernelAlarm, Bool.and_self, if_true]
    omega

theorem installed_of_started (placed : Placed state.process) (goes : state.ended = false)
    (begun : started state.process.point = true) (sig : Signal) : Installed state.process sig := by
  cases place : state.process.point with
  | loop =>
    simp only [Placed, place] at placed
    exact placed.2.1 sig
  | scan | count | scanned =>
    simp only [Placed, place] at placed
    exact placed.1.installed sig
  | checkPid | rearm | «statistics» | statistic | handlerEnd =>
    simp only [Placed, place] at placed
    exact placed.installed sig
  | exited => simp [State.ended, place] at goes
  | _ => simp [started, place] at begun

theorem renews_entry (sig : Signal) (siginfo : Siginfo) :
    renews ((routine sig).entry siginfo) = kernelAlarm (sig, siginfo) := by
  by_cases alarm : sig = .sigalrm <;> simp [routine, alarm, Routine.entry, renews, kernelAlarm]

theorem started_entry (sig : Signal) (siginfo : Siginfo) : started ((routine sig).entry siginfo) = true := by
  by_cases alarm : sig = .sigalrm <;> simp [routine, alarm, Routine.entry, started]

theorem Timed.silent (timed : Timed notes state) (silent : ∀ queued, .expired queued ∉ written) :
    Timed (notes ++ written) state :=
  timed_kept timed rfl rfl silent

theorem timed_handled (timed : Timed notes state) (asleep : state.process.point = .loop) {sig : Signal}
    (installed : Installed state.process sig) {process : Process Signal Siginfo Routine Point}
    (delivered : state.process.deliver Routine.entry .killed sig = some process) :
    Timed notes { state with process := process } := by
  obtain ⟨siginfo, rest, taken, rfl⟩ := handled_of_deliver installed delivered
  rw [← List.append_nil notes]
  apply timed_kept timed
  · rw [asleep]
    exact started_entry sig siginfo
  · have none : renews Point.loop = false := rfl
    simp only [tickers, asleep, renews_entry, taken.countP_eq, List.countP_cons, none, Bool.toNat_false]
    cases kernelAlarm (sig, siginfo) <;> simp [Nat.add_assoc]
  · simp

theorem timed_early (timed : Timed notes state) (early : started state.process.point = false) {sig : Signal}
    {siginfo : Siginfo} {rest : List (Signal × Siginfo)} (taken : state.process.pending.Perm ((sig, siginfo) :: rest))
    {process : Process Signal Siginfo Routine Point} (still : started process.point = false)
    (pending : process.pending = rest) : Timed notes { state with process := process } := by
  have idle : renews process.point = false := by
    cases place : process.point with
    | checkPid | rearm | «statistics» | statistic => simp [place, started] at still
    | _ => rfl
  simp only [Timed, early, Bool.false_eq_true, if_false, tickers, taken.countP_eq, List.countP_cons] at timed
  simp only [Timed, still, Bool.false_eq_true, if_false, tickers, idle, pending, Bool.toNat_false]
  exact ⟨by omega, timed.2⟩

theorem expired_handledNotes (process : Process Signal Siginfo Routine Point) (sig : Signal) (queued : Bool) :
    .expired queued ∉ handledNotes process sig := by
  unfold handledNotes
  split <;> simp

theorem timed_deliver (placed : Placed state.process) (timed : Timed notes state) {sig : Signal}
    (goes : state.ended = false) (step : deliverStep ignored state sig = some (after, written)) :
    Timed (notes ++ written) after := by
  have begins : started state.process.point = true → Installed state.process sig :=
    fun begun => installed_of_started placed goes begun sig
  unfold deliverStep at step
  split at step
  · next discarded =>
    have early : started state.process.point = false := by
      apply Bool.eq_false_iff.mpr
      intro begun
      have installed := begins begun
      rw [Installed, discards_none discarded] at installed
      cases installed
    split at step
    · cases step
    · next process thrown =>
      cases step
      obtain ⟨_, siginfo, rest, taken, rfl⟩ := perm_of_discard thrown
      apply Timed.silent
      · exact timed_early timed early taken early rfl
      · simp
  · split at step
    · cases step
    · next process delivered =>
      cases step
      apply Timed.silent _ (expired_handledNotes state.process sig)
      rcases exposed placed (unblocked_of_deliver delivered).1 with default | asleep | exited | killed
      · cases begun : started state.process.point with
        | true =>
          have installed := begins begun
          rw [Installed, default] at installed
          cases installed
        | false =>
          simp only [Process.deliver, default] at delivered
          split at delivered
          · cases delivered
          · split at delivered
            · cases delivered
            · next taken =>
              cases delivered
              exact timed_early timed begun (perm_of_take taken) rfl rfl
      -- A pending alarm of the kernel becomes one that is being handled.
      · exact timed_handled timed asleep (begins (by rw [asleep]; rfl)) delivered
      · simp [State.ended, exited] at goes
      · simp [State.ended, killed] at goes

theorem timed_step (timer : timerSeconds ≠ 0) (placed : Placed state.process) (timed : Timed notes state)
    {action : Action} (step : (siglogdMachine timerSeconds ignored).step state action = some (after, written)) :
    Timed (notes ++ written) after := by
  simp only [siglogdMachine] at step
  split at step
  · cases step
  · next goes =>
    cases action with
    | run => exact timed_run timer placed timed step
    | deliver sig => exact timed_deliver placed timed (Bool.eq_false_iff.mpr goes) step
    | send sig pid =>
      obtain ⟨user, same⟩ := Option.ite_none_left_eq_some.mp step
      cases same
      exact timed_send timed user _
    | expire =>
      obtain ⟨armed, same⟩ := Option.ite_none_right_eq_some.mp step
      cases same
      exact timed_expire timed armed

theorem timed_of_run (timer : timerSeconds ≠ 0)
    (run : (siglogdMachine timerSeconds ignored).Run (startState inherited) actions notes state) : Timed notes state := by
  apply (run.invariant (fun notes state =>
    (state.process.point = .killed ∨ Traced notes state) ∧ Timed notes state)
    ⟨Or.inr (traced_start inherited), timed_start inherited⟩ _).2
  intro notes state action after written ⟨traced, timed⟩ step
  rcases traced with killed | traced
  · simp [siglogdMachine, State.ended, killed] at step
  · exact ⟨traced_step traced step, timed_step timer traced.placed timed step⟩

/-- The reports go on as long as no alarm of the kernel has found a `SIGALRM` of a user
pending. The handler takes that one for no alarm and sets no other. -/
theorem timer_goes_on (timer : timerSeconds ≠ 0)
    (run : (siglogdMachine timerSeconds ignored).Run (startState inherited) actions notes state)
    (begun : started state.process.point = true) :
    (state.armed = true ∨ (∃ entry ∈ state.process.pending, kernelAlarm entry = true) ∨
      renews state.process.point = true) ↔ .expired false ∉ notes := by
  have timed := timed_of_run timer run
  simp only [Timed, begun, if_true] at timed
  have positive : 0 < tickers state ↔ .expired false ∉ notes := by
    rw [timed]
    split <;> simp_all
  rw [← positive, tickers, ← List.countP_pos_iff]
  cases state.armed <;> cases renews state.process.point <;> simp [Nat.pos_iff_ne_zero]

def scheduleAlarms : List Action :=
  scheduleStartup ++ [.expire, .deliver .sigalrm] ++ List.replicate 12 .run ++ [.send .sigalrm 7, .expire]

theorem timer_goes_on_alarms : ∃ final notes,
    (siglogdMachine 1 ∅).Run (startState ∅) scheduleAlarms notes final ∧
    handled notes = [⟨.sigalrm, 0⟩] ∧ .expired true ∈ notes ∧ .expired false ∈ notes ∧ final.armed = false ∧
    ((final.armed = true ∨ (∃ entry ∈ final.process.pending, kernelAlarm entry = true) ∨
      renews final.process.point = true) ↔ .expired false ∉ notes) := by
  obtain ⟨final, notes, run, shown⟩ := @Machine.exists_run_of_any _ _ _ (siglogdMachine 1 ∅) scheduleAlarms
    (startState ∅) (fun result => started result.1.process.point = true ∧ handled result.2 = [⟨.sigalrm, 0⟩] ∧
      .expired true ∈ result.2 ∧ .expired false ∈ result.2 ∧ result.1.armed = false) (by decide)
  obtain ⟨begun, handled, queued, merged, unarmed⟩ := of_decide_eq_true shown
  exact ⟨final, notes, run, handled, queued, merged, unarmed, timer_goes_on (by decide) run begun⟩

end PosixC.Siglogd
