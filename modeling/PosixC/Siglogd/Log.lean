import PosixC.Siglogd.Model

/-! The log of hw06 as a function of the signals that were handled.

The handlers run one at a time, whatever is sent meanwhile, because each of them
blocks all the signals of the program. So the log is what an observer writes who
takes the signals one after the other.
-/

set_option autoImplicit false

namespace PosixC.Siglogd

open Foundation Foundation.Signals

def tally (events : List Siginfo) (sig : Signal) : Nat := events.countP (fun event => event.signo = sig) % 2 ^ 64

def report (statistics : Signal → Nat) : List Line :=
  .statistics :: signalsToLog.map fun sig => .statistic sig (statistics sig)

/-- What one more signal adds to the log. -/
def response (events : List Siginfo) (event : Siginfo) : List Line :=
  if event.signo = .sigalrm then if event.pid = 0 then report (tally events) else []
  else .got event.signo :: if fatal event.signo then .shuttingDown :: report (tally (events ++ [event])) else []

def renderFrom (earlier : List Siginfo) : List Siginfo → List Line
  | [] => []
  | event :: events => response earlier event ++ renderFrom (earlier ++ [event]) events

/-- The log after the startup. -/
def render (events : List Siginfo) : List Line := renderFrom [] events

def startup : List Line :=
  .pid :: (signalsToLog.map .addedMask ++ (signalsToLog.map .addedHandler ++ [.initialized]))

theorem renderFrom_concat (earlier events : List Siginfo) (event : Siginfo) :
    renderFrom earlier (events ++ [event]) = renderFrom earlier events ++ response (earlier ++ events) event := by
  induction events generalizing earlier with
  | nil => simp [renderFrom]
  | cons first rest ih => simp [renderFrom, ih]

theorem render_concat (events : List Siginfo) (event : Siginfo) :
    render (events ++ [event]) = render events ++ response events event :=
  renderFrom_concat [] events event

theorem tally_concat (events : List Siginfo) (event : Siginfo) (sig : Signal) :
    tally (events ++ [event]) sig = if event.signo = sig then SizeT.add (tally events sig) 1 else tally events sig := by
  unfold tally SizeT.add
  rw [List.countP_append, List.countP_singleton]
  split <;> simp_all

theorem report_congr {first second : Signal → Nat} (same : ∀ sig ∈ signalsToLog, first sig = second sig) :
    report first = report second := by
  unfold report
  apply congrArg (Line.statistics :: ·)
  apply List.map_congr_left
  intro sig member
  rw [same sig member]

def closing (sig : Signal) (statistics : Signal → Nat) : List Line :=
  if fatal sig then .shuttingDown :: report statistics else []

def todo (statistics : Signal → Nat) : Point → List Line
  | .openlog => startup
  | .addMask rest => rest.map .addedMask ++ (signalsToLog.map .addedHandler ++ [.initialized])
  | .block => signalsToLog.map .addedHandler ++ [.initialized]
  | .install rest => rest.map .addedHandler ++ [.initialized]
  | .installAlarm | .initialized => [.initialized]
  | .scan sig rest =>
      if sig ∈ rest then .got sig :: closing sig (bump sig statistics) else closing sig statistics
  | .count sig _ => closing sig (bump sig statistics)
  | .scanned sig => closing sig statistics
  | .checkPid pid => if pid = 0 then report statistics else []
  | .statistics _ => report statistics
  | .statistic _ rest => rest.map fun sig => .statistic sig (statistics sig)
  | _ => []

def settled (statistics : Signal → Nat) : Point → Signal → Nat
  | .scan sig rest => if sig ∈ rest then bump sig statistics else statistics
  | .count sig _ => bump sig statistics
  | _ => statistics

def doomed : Point → Bool
  | .scan sig _ | .count sig _ | .scanned sig => fatal sig
  | .statistics final | .statistic final _ => final
  | .exited => true
  | _ => false

def Blocked (mask : Finset Signal) : Prop := ∀ sig, sig ∈ mask

theorem blocked_sigIntset : Blocked sigIntset := by
  intro sig
  cases sig <;> decide

theorem Blocked.union {mask other : Finset Signal} (blocked : Blocked other) : Blocked (mask ∪ other) :=
  fun sig => Finset.mem_union_right mask (blocked sig)

def routine (sig : Signal) : Routine := if sig = .sigalrm then .alarmHandler else .signalHandler

def Installed (process : Process Signal Siginfo Routine Point) (sig : Signal) : Prop :=
  process.disposition sig = some (routine sig, sigIntset)

structure Alone (process : Process Signal Siginfo Routine Point) : Prop where
  awake : process.suspended = none
  frames : process.frames = []
  blocked : Blocked process.mask

structure Handling (process : Process Signal Siginfo Routine Point) : Prop where
  awake : process.suspended = none
  blocked : Blocked process.mask
  installed : ∀ sig, Installed process sig
  frame : ∃ mask, process.frames = [(.loop, mask)] ∧ Blocked mask

def Placed (process : Process Signal Siginfo Routine Point) : Prop :=
  match process.point with
  | .openlog | .addMask _ | .block =>
      process.suspended = none ∧ process.frames = [] ∧ ∀ sig, process.disposition sig = none
  | .install rest => Alone process ∧ rest <:+ signalsToLog ∧ ∀ sig ∈ signalsToLog, sig ∉ rest → Installed process sig
  | .installAlarm => Alone process ∧ ∀ sig ∈ signalsToLog, Installed process sig
  | .initialized | .alarm => Alone process ∧ ∀ sig, Installed process sig
  | .loop => process.frames = [] ∧ (∀ sig, Installed process sig) ∧
      ((process.suspended = none ∧ Blocked process.mask) ∨ ∃ mask, process.suspended = some mask ∧ Blocked mask)
  | .scan sig rest => Handling process ∧ sig ∈ signalsToLog ∧ rest <:+ signalsToLog
  | .count sig rest => Handling process ∧ sig ∈ signalsToLog ∧ sig ∉ rest ∧ rest <:+ signalsToLog
  | .scanned sig => Handling process ∧ sig ∈ signalsToLog
  | .checkPid _ | .rearm | .statistics _ | .statistic _ _ | .handlerEnd => Handling process
  | .exited | .killed => True

theorem mem_signalsToLog {sig : Signal} : sig ∈ signalsToLog ↔ sig ≠ .sigalrm := by
  cases sig <;> decide

section Steps

variable {timerSeconds : Int} {state after : State} {written : List Note}

theorem Handling.goTo {process : Process Signal Siginfo Routine Point} (handling : Handling process) (point : Point) :
    Handling { process with point := point } :=
  ⟨handling.awake, handling.blocked, handling.installed, handling.frame⟩

theorem Alone.goTo {process : Process Signal Siginfo Routine Point} (alone : Alone process) (point : Point) :
    Alone { process with point := point } :=
  ⟨alone.awake, alone.frames, alone.blocked⟩

structure Advances (state after : State) (written : List Note) : Prop where
  placed : Placed after.process
  alive : after.process.point ≠ .killed
  logs : log written ++ todo after.statistics after.process.point = todo state.statistics state.process.point
  settles : settled after.statistics after.process.point = settled state.statistics state.process.point
  dooms : doomed after.process.point = doomed state.process.point
  pending : after.process.pending = state.process.pending
  lines : ∀ note ∈ written, ∃ line, note = .line line

theorem installed_sigaction {process : Process Signal Siginfo Routine Point} {sig other : Signal}
    (installed : other ≠ sig → Installed process other) (point : Point) :
    Installed { process.sigaction sig (routine sig) sigIntset with point := point } other := by
  by_cases same : other = sig
  · subst same
    exact process.sigaction_self ..
  · exact (process.sigaction_of_ne _ _ same).trans (installed same)

theorem advances_install {rest : List Signal} (place : state.process.point = .install rest)
    (placed : Placed state.process) (step : statement timerSeconds state = some (after, written)) :
    Advances state after written := by
  simp only [Placed, place] at placed
  obtain ⟨alone, suffix, installed⟩ := placed
  cases rest with
  | nil =>
    simp only [statement, place] at step
    cases step
    constructor
    case placed =>
      exact ⟨alone.goTo _, fun sig member => installed sig member (by simp)⟩
    all_goals simp [State.goTo, place, log, todo, settled, doomed]
  | cons sig rest =>
    simp only [statement, place] at step
    cases step
    constructor
    case placed =>
      have listed := mem_signalsToLog.mp (suffix.subset List.mem_cons_self)
      have same : routine sig = .signalHandler := if_neg listed
      refine ⟨⟨alone.awake, alone.frames, alone.blocked⟩, (List.suffix_cons sig rest).trans suffix, ?_⟩
      intro other member absent
      rw [← same]
      exact installed_sigaction (fun different => installed other member (by simp [different, absent])) _
    all_goals simp [Process.sigaction, place, log, todo, settled, doomed]

theorem advances_scan {sig : Signal} {rest : List Signal} (place : state.process.point = .scan sig rest)
    (placed : Placed state.process) (step : statement timerSeconds state = some (after, written)) :
    Advances state after written := by
  simp only [Placed, place] at placed
  obtain ⟨handling, listed, suffix⟩ := placed
  cases rest with
  | nil =>
    simp only [statement, place] at step
    cases step
    constructor
    case placed => exact ⟨handling.goTo _, listed⟩
    all_goals simp [State.goTo, place, log, todo, settled, doomed]
  | cons entry rest =>
    simp only [statement, place] at step
    have shorter := (List.suffix_cons entry rest).trans suffix
    split at step
    · next same =>
      subst same
      -- The table has each signal once, so the rest of the scan finds no other entry.
      have once : sig ∉ rest := by
        have nodup : signalsToLog.Nodup := by decide
        exact (List.nodup_cons.mp (nodup.sublist suffix.sublist)).1
      cases step
      constructor
      case placed =>
        exact ⟨handling.goTo _, listed, once, shorter⟩
      all_goals simp [State.goTo, place, log, todo, settled, doomed]
    · next different =>
      cases step
      constructor
      case placed => exact ⟨handling.goTo _, listed, shorter⟩
      all_goals simp [State.goTo, place, log, todo, settled, doomed, different]

theorem advances_statistic {final : Bool} {rest : List Signal} (place : state.process.point = .statistic final rest)
    (placed : Placed state.process) (step : statement timerSeconds state = some (after, written)) :
    Advances state after written := by
  simp only [Placed, place] at placed
  cases rest with
  | nil =>
    simp only [statement, place] at step
    cases step
    cases final with
    | true => constructor <;> simp [Placed, State.goTo, place, log, todo, settled, doomed]
    | false =>
      constructor
      case placed => exact placed.goTo _
      all_goals simp [State.goTo, place, log, todo, settled, doomed]
  | cons sig rest =>
    simp only [statement, place] at step
    cases step
    constructor
    case placed => exact placed.goTo _
    all_goals simp [State.goTo, place, log, todo, settled, doomed]

theorem advances_of_run (placed : Placed state.process)
    (step : loggerStep timerSeconds state = some (after, written)) : Advances state after written := by
  obtain ⟨awake, step⟩ := Option.ite_none_right_eq_some.mp step
  cases place : state.process.point with
  | openlog =>
    simp only [statement, place] at step
    simp only [Placed, place] at placed
    cases step
    constructor <;> simp [State.goTo, Placed, place, log, todo, settled, doomed, placed, startup]
  | addMask rest =>
    simp only [Placed, place] at placed
    cases rest with
    | nil =>
      simp only [statement, place] at step
      cases step
      constructor <;> simp [State.goTo, Placed, place, log, todo, settled, doomed, placed]
    | cons sig rest =>
      simp only [statement, place] at step
      cases step
      constructor <;> simp [State.goTo, Placed, place, log, todo, settled, doomed, placed]
  | block =>
    simp only [statement, place] at step
    simp only [Placed, place] at placed
    cases step
    constructor
    case placed =>
      exact ⟨⟨placed.1, placed.2.1, blocked_sigIntset.union⟩, List.suffix_refl _, fun sig member absent => absurd member absent⟩
    all_goals simp [place, log, todo, settled, doomed]
  | install rest => exact advances_install place placed step
  | installAlarm =>
    simp only [statement, place] at step
    simp only [Placed, place] at placed
    obtain ⟨alone, installed⟩ := placed
    cases step
    constructor
    case placed =>
      refine ⟨⟨alone.awake, alone.frames, alone.blocked⟩, fun other => ?_⟩
      exact @installed_sigaction state.process .sigalrm other
        (fun different => installed other (mem_signalsToLog.mpr different)) _
    all_goals simp [Process.sigaction, place, log, todo, settled, doomed]
  | initialized =>
    simp only [statement, place] at step
    simp only [Placed, place] at placed
    obtain ⟨alone, installed⟩ := placed
    cases step
    constructor
    case placed => exact ⟨alone.goTo _, installed⟩
    all_goals simp [State.goTo, place, log, todo, settled, doomed]
  | alarm =>
    simp only [statement, place] at step
    simp only [Placed, place] at placed
    obtain ⟨alone, installed⟩ := placed
    cases step
    constructor
    case placed => exact ⟨alone.frames, installed, Or.inl ⟨alone.awake, alone.blocked⟩⟩
    all_goals simp [State.goTo, place, log, todo, settled, doomed]
  -- `sigsuspend` exchanges the mask; the process is not awake when it already waits.
  | loop =>
    simp only [statement, place] at step
    simp only [Placed, place] at placed
    obtain ⟨frames, installed, ⟨_, blocked⟩ | ⟨mask, suspended, _⟩⟩ := placed
    · cases step
      constructor
      case placed =>
        simp only [Placed, Process.sigsuspend, place]
        exact ⟨frames, installed, Or.inr ⟨state.process.mask, rfl, blocked⟩⟩
      all_goals simp [Process.sigsuspend, place, log, todo, settled, doomed]
    · rw [awake] at suspended
      cases suspended
  | scan sig rest => exact advances_scan place placed step
  | count sig rest =>
    simp only [Placed, place] at placed
    obtain ⟨handling, listed, once, suffix⟩ := placed
    simp only [statement, place] at step
    cases step
    constructor
    case placed => exact ⟨handling.goTo _, listed, suffix⟩
    all_goals simp [State.goTo, place, log, todo, settled, doomed, once]
  | scanned sig =>
    simp only [Placed, place] at placed
    obtain ⟨handling, listed⟩ := placed
    simp only [statement, place] at step
    split at step
    · next ends =>
      cases step
      constructor
      case placed => exact handling.goTo _
      all_goals simp [State.goTo, place, log, todo, settled, doomed, closing, ends]
    · next continues =>
      cases step
      constructor
      case placed => exact handling.goTo _
      all_goals simp [State.goTo, place, log, todo, settled, doomed, closing, continues]
  | checkPid pid =>
    simp only [Placed, place] at placed
    simp only [statement, place] at step
    cases step
    by_cases kernel : pid = 0
    · constructor
      case placed => simpa [Placed, State.goTo, kernel] using placed.goTo _
      all_goals simp [State.goTo, place, log, todo, settled, doomed, kernel]
    · constructor
      case placed => simpa [Placed, State.goTo, kernel] using placed.goTo _
      all_goals simp [State.goTo, place, log, todo, settled, doomed, kernel]
  | rearm =>
    simp only [Placed, place] at placed
    simp only [statement, place] at step
    cases step
    constructor
    case placed => exact placed.goTo _
    all_goals simp [State.goTo, place, log, todo, settled, doomed]
  | «statistics» final =>
    simp only [Placed, place] at placed
    simp only [statement, place] at step
    cases step
    constructor
    case placed => exact placed.goTo _
    all_goals simp [State.goTo, place, log, todo, settled, doomed, report]
  | statistic final rest => exact advances_statistic place placed step
  | handlerEnd =>
    simp only [Placed, place] at placed
    obtain ⟨mask, frames, blocked⟩ := placed.frame
    simp only [statement, place, Process.sigreturn, frames] at step
    cases step
    constructor
    case placed => exact ⟨rfl, placed.installed, Or.inl ⟨placed.awake, blocked⟩⟩
    all_goals simp [place, log, todo, settled, doomed]
  | exited | killed => simp [statement, place] at step

end Steps
end PosixC.Siglogd
