import PosixC.Siglogd.Log

/-! Every signal that reaches the logger of hw06 is logged once. -/

set_option autoImplicit false

namespace PosixC.Siglogd

open Foundation Foundation.Signals

variable {timerSeconds : Int} {ignored : Finset Signal} {state after : State} {notes written : List Note}

/-- The signals that were not merged with a pending one. -/
def arrived (sig : Signal) : Note → Bool
  | .sent other queued => queued && decide (other = sig)
  | .expired queued => queued && decide (sig = .sigalrm)
  | _ => false

structure Traced (notes : List Note) (state : State) : Prop where
  placed : Placed state.process
  logs : log notes ++ todo state.statistics state.process.point = startup ++ render (handled notes)
  settles : ∀ sig ∈ signalsToLog, settled state.statistics state.process.point sig = tally (handled notes) sig
  dooms : (∃ event ∈ handled notes, fatal event.signo = true) ↔ doomed state.process.point = true
  last : ∀ event ∈ (handled notes).dropLast, fatal event.signo = false
  signed : ∀ entry ∈ state.process.pending, entry.2.signo = entry.1
  accounts : ∀ sig, notes.countP (arrived sig) = (handled notes).countP (fun event => event.signo = sig) +
    state.process.pending.countP (fun entry => entry.1 = sig) + notes.count (.ignored sig)

theorem arrived_lines (lines : ∀ note ∈ written, ∃ line, note = .line line) (sig : Signal) :
    written.countP (arrived sig) = 0 ∧ written.count (.ignored sig) = 0 := by
  constructor
  · apply List.countP_eq_zero.mpr
    intro note member
    obtain ⟨line, rfl⟩ := lines note member
    simp [arrived]
  · apply List.count_eq_zero.mpr
    intro member
    obtain ⟨line, other⟩ := lines _ member
    cases other

theorem handled_lines (lines : ∀ note ∈ written, ∃ line, note = .line line) :
    handled (notes ++ written) = handled notes := by
  have none : handled written = [] := by
    apply List.filterMap_eq_nil_iff.mpr
    intro note member
    obtain ⟨line, rfl⟩ := lines note member
    rfl
  rw [handled_append, none, List.append_nil]

theorem traced_run (traced : Traced notes state)
    (step : loggerStep timerSeconds state = some (after, written)) : Traced (notes ++ written) after := by
  have advances := advances_of_run traced.placed step
  have same := @handled_lines notes written advances.lines
  constructor
  · exact advances.placed
  · rw [log_append, List.append_assoc, advances.logs, traced.logs, same]
  · rw [advances.settles, same]
    exact traced.settles
  · rw [advances.dooms, same]
    exact traced.dooms
  · rw [same]
    exact traced.last
  · rw [advances.pending]
    exact traced.signed
  · intro sig
    obtain ⟨none, kept⟩ := arrived_lines advances.lines sig
    rw [List.countP_append, List.count_append, none, kept, advances.pending, same]
    exact traced.accounts sig

/-- What is known of a process does not depend on what is pending. -/
theorem Placed.pending {process : Process Signal Siginfo Routine Point} (placed : Placed process)
    (pending : List (Signal × Siginfo)) : Placed { process with pending := pending } := by
  have handling : Handling process → Handling { process with pending := pending } :=
    fun known => ⟨known.awake, known.blocked, known.installed, known.frame⟩
  have alone : Alone process → Alone { process with pending := pending } :=
    fun known => ⟨known.awake, known.frames, known.blocked⟩
  cases process with | mk point => cases point with
    | install | installAlarm | initialized | alarm => exact ⟨alone placed.1, placed.2⟩
    | scan | count | scanned => exact ⟨handling placed.1, placed.2⟩
    | checkPid | rearm | «statistics» | statistic | handlerEnd => exact handling placed
    | _ => exact placed

theorem exposed {process : Process Signal Siginfo Routine Point} (placed : Placed process) {sig : Signal}
    (unblocked : sig ∉ process.mask) :
    process.disposition sig = none ∨ process.point = .loop ∨ process.point = .exited ∨ process.point = .killed := by
  have handling : ¬ Handling process := fun known => unblocked (known.blocked sig)
  have alone : ¬ Alone process := fun known => unblocked (known.blocked sig)
  cases place : process.point with
  | openlog | addMask | block =>
    simp only [Placed, place] at placed
    exact Or.inl (placed.2.2 sig)
  | install | installAlarm | initialized | alarm =>
    simp only [Placed, place] at placed
    exact absurd placed.1 alone
  | scan | count | scanned =>
    simp only [Placed, place] at placed
    exact absurd placed.1 handling
  | checkPid | rearm | «statistics» | statistic | handlerEnd =>
    simp only [Placed, place] at placed
    exact absurd placed handling
  | _ => simp

theorem traced_post (traced : Traced notes state) {armed : Bool} {siginfo : Siginfo} {note : Note}
    (silent : log [note] = []) (unhandled : handled [note] = []) (kept : ∀ sig, note ≠ .ignored sig)
    (counts : ∀ sig, arrived sig note = (queued state siginfo.signo && decide (siginfo.signo = sig))) :
    Traced (notes ++ [note]) (postSignal { state with armed := armed } siginfo) := by
  have same : handled (notes ++ [note]) = handled notes := by rw [handled_append, unhandled, List.append_nil]
  constructor
  · exact traced.placed.pending _
  · rw [log_append, silent, List.append_nil, same]
    exact traced.logs
  · rw [same]
    exact traced.settles
  · rw [same]
    exact traced.dooms
  · rw [same]
    exact traced.last
  · intro entry member
    simp only [postSignal] at member
    rcases mem_of_post member with before | rfl
    · exact traced.signed entry before
    · rfl
  · intro sig
    have before := traced.accounts sig
    rw [List.countP_append, List.count_append, List.countP_singleton, counts,
      List.count_singleton, show (note == Note.ignored sig) = false by simpa using kept sig, same]
    simp only [postSignal, post, queued]
    -- A signal that finds one like it pending leaves no trace.
    by_cases present : siginfo.signo ∈ state.process.pending.map Prod.fst
    · simp only [present, and_self, if_true, not_true_eq_false, decide_false, Bool.false_and, Bool.false_eq_true, if_false]
      omega
    · simp only [present, and_false, if_false, not_false_eq_true, decide_true, Bool.true_and, List.countP_append,
        List.countP_singleton, decide_eq_true_eq, Bool.false_eq_true]
      split <;> omega

theorem traced_ignored (traced : Traced notes state) {sig : Signal} {siginfo : Siginfo}
    {rest : List (Signal × Siginfo)} (taken : state.process.pending.Perm ((sig, siginfo) :: rest)) :
    Traced (notes ++ [.ignored sig]) { state with process := { state.process with pending := rest } } := by
  have same : handled (notes ++ [.ignored sig]) = handled notes := by
    rw [handled_append]
    exact List.append_nil _
  constructor
  · exact traced.placed.pending rest
  · rw [log_append, same]
    simpa [log] using traced.logs
  · rw [same]
    exact traced.settles
  · rw [same]
    exact traced.dooms
  · rw [same]
    exact traced.last
  · intro entry member
    exact traced.signed entry (taken.mem_iff.mpr (List.mem_cons_of_mem _ member))
  · intro other
    have before := traced.accounts other
    rw [taken.countP_eq, List.countP_cons] at before
    rw [List.countP_append, List.count_append, List.count_singleton, same]
    by_cases own : sig = other
    · subst own
      simp only [decide_true, if_true] at before
      simp [arrived]
      omega
    · have different : (Note.ignored sig == Note.ignored other) = false := by simpa using own
      simp only [own, decide_false, Bool.false_eq_true, if_false] at before
      simp [arrived, own]
      omega

section Events

variable {events : List Siginfo}

theorem bump_eq_tally {statistics : Signal → Nat} {event : Siginfo}
    (same : ∀ sig ∈ signalsToLog, statistics sig = tally events sig) :
    ∀ sig ∈ signalsToLog, bump event.signo statistics sig = tally (events ++ [event]) sig := by
  intro sig member
  rw [tally_concat]
  by_cases own : event.signo = sig
  · subst own
    simp [bump, same _ member]
  · rw [if_neg own, bump, Function.update_of_ne (Ne.symm own)]
    exact same sig member

theorem todo_entry {statistics : Signal → Nat} {event : Siginfo}
    (same : ∀ sig ∈ signalsToLog, statistics sig = tally events sig) :
    todo statistics ((routine event.signo).entry event) = response events event := by
  unfold response routine
  split
  · simp only [Routine.entry, todo]
    split
    · exact report_congr same
    · rfl
  · next other =>
    simp only [Routine.entry, todo, mem_signalsToLog.mpr other, if_true, closing]
    split
    · rw [report_congr (bump_eq_tally same)]
    · rfl

theorem settled_entry {statistics : Signal → Nat} {event : Siginfo}
    (same : ∀ sig ∈ signalsToLog, statistics sig = tally events sig) :
    ∀ sig ∈ signalsToLog, settled statistics ((routine event.signo).entry event) sig = tally (events ++ [event]) sig := by
  intro sig member
  unfold routine
  split
  · next alarm =>
    have different : event.signo ≠ sig := by
      rintro rfl
      exact mem_signalsToLog.mp member alarm
    rw [tally_concat, if_neg different]
    exact same sig member
  · next other =>
    simp only [Routine.entry, settled, mem_signalsToLog.mpr other, if_true]
    exact bump_eq_tally same sig member

end Events

theorem traced_handled (traced : Traced notes state) (asleep : state.process.point = .loop) {sig : Signal}
    {process : Process Signal Siginfo Routine Point}
    (delivered : state.process.deliver Routine.entry .killed sig = some process) :
    Traced (notes ++ handledNotes state.process sig) { state with process := process } := by
  have placed := traced.placed
  simp only [Placed, asleep] at placed
  obtain ⟨frames, installed, waits⟩ := placed
  obtain ⟨siginfo, rest, took, same⟩ := taken_of_deliver (installed sig) delivered
  have taken := perm_of_take took
  have signed : siginfo.signo = sig := traced.signed (sig, siginfo) (taken.mem_iff.mpr List.mem_cons_self)
  have note : handledNotes state.process sig = [.handled siginfo] := by
    have routed : (state.process.disposition sig).isSome = true := by
      rw [installed sig]
      rfl
    rw [handledNotes, if_pos routed, took]
    rfl
  have events : handled (notes ++ handledNotes state.process sig) = handled notes ++ [siginfo] := by
    rw [note, handled_append]
    rfl
  have counts : ∀ sig ∈ signalsToLog, state.statistics sig = tally (handled notes) sig := by
    have settles := traced.settles
    rwa [asleep] at settles
  have logs := traced.logs
  simp only [asleep, todo, List.append_nil] at logs
  have spared : ¬ ∃ event ∈ handled notes, fatal event.signo = true := by simp [traced.dooms, asleep, doomed]
  have unblocked := (unblocked_of_deliver delivered).1
  obtain ⟨mask, suspended, blocked⟩ : ∃ mask, state.process.suspended = some mask ∧ Blocked mask :=
    waits.resolve_left fun awake => unblocked (awake.2 sig)
  subst signed
  have handling : Handling process := by
    subst same
    refine ⟨rfl, fun other => ?_, installed, mask, ?_, blocked⟩
    · exact Finset.mem_union_left _ (Finset.mem_union_right _ (blocked_sigIntset other))
    · simp [asleep, suspended, frames]
  have point : process.point = (routine siginfo.signo).entry siginfo := by rw [same]
  constructor
  · by_cases alarm : siginfo.signo = .sigalrm
    · simpa [Placed, point, routine, alarm, Routine.entry] using handling
    · simpa [Placed, point, routine, alarm, Routine.entry, mem_signalsToLog] using handling
  -- Nothing is logged yet, and the handler has to log the response to this event.
  · have silent : log (notes ++ handledNotes state.process siginfo.signo) = log notes := by
      rw [note, log_append]
      exact List.append_nil _
    rw [silent, events]
    simp only [point, todo_entry counts, render_concat, logs, List.append_assoc]
  · rw [events]
    simp only [point]
    exact settled_entry counts
  · have entry : doomed ((routine siginfo.signo).entry siginfo) = fatal siginfo.signo := by
      by_cases alarm : siginfo.signo = .sigalrm <;> simp [routine, alarm, Routine.entry, doomed, fatal]
    simp only [events, point, entry, List.mem_append, List.mem_singleton]
    constructor
    · rintro ⟨event, before | rfl, dies⟩
      · exact absurd ⟨event, before, dies⟩ spared
      · exact dies
    · exact fun dies => ⟨siginfo, Or.inr rfl, dies⟩
  · intro event member
    rw [events, List.dropLast_concat] at member
    exact Bool.eq_false_iff.mpr fun dies => spared ⟨event, member, dies⟩
  · intro entry member
    rw [same] at member
    exact traced.signed entry (taken.mem_iff.mpr (List.mem_cons_of_mem _ member))
  · intro other
    have before := traced.accounts other
    rw [taken.countP_eq, List.countP_cons] at before
    have written : ([.handled siginfo] : List Note).countP (arrived other) = 0 ∧
        ([.handled siginfo] : List Note).count (.ignored other) = 0 := by simp [arrived]
    -- The signal was pending and is handled now.
    rw [events, note, same, List.countP_append, written.1, List.count_append, written.2, List.countP_append,
      List.countP_singleton]
    simp only at before ⊢
    omega

theorem discards_none {sig : Signal} (discarded : discards ignored state sig = true) : state.process.disposition sig = none := by
  simp only [discards, Bool.and_eq_true, Option.isNone_iff_eq_none] at discarded
  exact discarded.1

theorem traced_deliver (traced : Traced notes state) {sig : Signal} (goes : state.ended = false)
    (step : deliverStep ignored state sig = some (after, written)) :
    after.process.point = .killed ∨ Traced (notes ++ written) after := by
  unfold deliverStep at step
  split at step
  · split at step
    · cases step
    · next process discarded =>
      cases step
      obtain ⟨_, siginfo, rest, taken, rfl⟩ := perm_of_discard discarded
      exact Or.inr (traced_ignored traced taken)
  · split at step
    · cases step
    · next process delivered =>
      cases step
      have unblocked := (unblocked_of_deliver delivered).1
      rcases exposed traced.placed unblocked with default | asleep | exited | killed
      · apply Or.inl
        simp only [Process.deliver, unblocked, if_false, default] at delivered
        split at delivered
        · cases delivered
        · cases delivered
          rfl
      · exact Or.inr (traced_handled traced asleep delivered)
      · simp [State.ended, exited] at goes
      · simp [State.ended, killed] at goes

theorem traced_step (traced : Traced notes state) {action : Action}
    (step : (siglogdMachine timerSeconds ignored).step state action = some (after, written)) :
    after.process.point = .killed ∨ Traced (notes ++ written) after := by
  simp only [siglogdMachine] at step
  split at step
  · cases step
  · next goes =>
    cases action with
    | run => exact Or.inr (traced_run traced step)
    | deliver sig => exact traced_deliver traced (Bool.eq_false_iff.mpr goes) step
    | send sig pid =>
      simp only [Option.ite_none_left_eq_some] at step
      cases step.2
      refine Or.inr (traced_post traced rfl rfl (fun other same => by cases same) fun other => ?_)
      simp [arrived]
    | expire =>
      simp only [Option.ite_none_right_eq_some] at step
      cases step.2
      refine Or.inr (traced_post traced rfl rfl (fun other same => by cases same) fun other => ?_)
      simp [arrived, eq_comm]

theorem traced_start (inherited : Finset Signal) : Traced [] (startState inherited) where
  placed := ⟨rfl, rfl, fun _ => rfl⟩
  logs := rfl
  settles := by
    intro sig _
    simp [startState, settled, tally, handled]
  dooms := by simp [startState, doomed, handled]
  last := by simp [handled]
  signed := by simp [startState]
  accounts := by simp [startState, handled]

theorem traced_of_run {inherited : Finset Signal} {actions : List Action}
    (run : (siglogdMachine timerSeconds ignored).Run (startState inherited) actions notes state) :
    state.process.point = .killed ∨ Traced notes state := by
  apply run.invariant (fun notes state => state.process.point = .killed ∨ Traced notes state)
    (Or.inr (traced_start inherited))
  intro notes state action after written traced step
  rcases traced with killed | traced
  · simp [siglogdMachine, State.ended, killed] at step
  · exact traced_step traced step

end PosixC.Siglogd
