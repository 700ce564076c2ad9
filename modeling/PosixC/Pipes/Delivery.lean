import PosixC.Pipes.Model

/-! What goes through the pipes of ex10/pipes. -/

set_option autoImplicit false

namespace PosixC.Pipes

open Foundation

variable {limits : Pipe.Limits} {setup : Setup} {state after : State} {notes written : List Note}
  {action : Action} {actions : List Action}

def remaining (setup : Setup) : WriterPoint → List UInt8
  | .closeRead => setup.chunks.flatten
  | .write _ chunks => chunks.flatten
  | _ => []

def writing : WriterPoint → Bool
  | .closeRead | .write _ _ | .closeWrite => true
  | _ => false

def reading : ReaderPoint → Bool
  | .closeWrite | .read | .copy _ => true
  | _ => false

def carried : ReaderPoint → List UInt8
  | .copy byte => [byte]
  | _ => []

def trailed (setup : Setup) : ReaderPoint → List UInt8
  | .closeRead | .wait | .exited => setup.trailer
  | _ => []

structure Sound (setup : Setup) (notes : List Note) (state : State) : Prop where
  writes : .writer ∈ state.pipe.writers ↔ writing state.writer = true
  inherits : .reader ∈ state.pipe.writers ↔ state.reader = .closeWrite
  reads : reading state.reader = true → .reader ∈ state.pipe.readers
  ended : reading state.reader = false → state.pipe.buffer = [] ∧ writing state.writer = false
  waits : (state.writer = .wait → setup.parent = .writer) ∧ (state.reader = .wait → setup.parent = .reader)
  alive : state.writer ≠ .killed
  data : bytesRead notes ++ (state.pipe.buffer ++ remaining setup state.writer) = setup.chunks.flatten
  copies : attempted notes ++ carried state.reader = bytesRead notes ++ trailed setup state.reader

theorem sound_start (setup : Setup) : Sound setup [] startState := by
  constructor <;> simp [startState, writing, reading, remaining, carried, trailed, bytesRead, attempted]

theorem sound_writer (sound : Sound setup notes state) {count : Nat}
    (step : writerStep limits setup state count = some (after, written)) : Sound setup (notes ++ written) after := by
  obtain ⟨writes, inherits, reads, ended, waits, alive, data, copies⟩ := sound
  cases place : state.writer with
  | closeRead =>
    simp only [writerStep, place] at step
    cases step
    rw [List.append_nil]
    constructor <;> simp_all [Pipe.closeRead, writing, remaining]
  | write started chunks =>
    rcases chunks with _ | ⟨_ | ⟨first, chunk⟩, chunks⟩
    · simp only [writerStep, place] at step
      cases step
      rw [List.append_nil]
      constructor <;> simp_all [writing, remaining]
    · simp only [writerStep, place] at step
      cases step
      rw [List.append_nil]
      constructor <;> simp_all [writing, remaining]
    · simp only [writerStep, place] at step
      -- The reader has its end open as long as the writer has.
      have going : reading state.reader = true := by
        by_contra ceased
        simpa [place, writing] using (ended (Bool.eq_false_iff.mpr ceased)).2
      rw [if_neg (Finset.ne_empty_of_mem (reads going))] at step
      split at step
      · next takes =>
        cases step
        rw [List.append_nil]
        constructor
        case data =>
          rw [← data, place]
          simp only [Pipe.put, remaining, List.flatten_cons, List.append_assoc]
          rw [← List.append_assoc (List.take _ _), List.take_append_drop]
        all_goals simp_all [Pipe.put, writing, remaining]
      · cases step
  | closeWrite =>
    simp only [writerStep, place] at step
    cases step
    rw [List.append_nil]
    by_cases parent : setup.parent = .writer <;> constructor <;> simp_all [Pipe.closeWrite, writing, remaining]
  | wait =>
    simp only [writerStep, place] at step
    split at step
    · cases step
      rw [List.append_nil]
      constructor <;> simp_all [writing, remaining]
    · cases step
  | exited | killed => simp [writerStep, place] at step

theorem sound_reader (sound : Sound setup notes state) {fails : Bool}
    (step : readerStep setup state fails = some (after, written)) : Sound setup (notes ++ written) after := by
  obtain ⟨writes, inherits, reads, ended, waits, alive, data, copies⟩ := sound
  cases place : state.reader with
  | closeWrite =>
    simp only [readerStep, place] at step
    cases step
    rw [List.append_nil]
    constructor <;> simp_all [Pipe.closeWrite, reading, carried, trailed]
  | read =>
    simp only [readerStep, place, Pipe.read] at step
    cases buffer : state.pipe.buffer with
    | cons byte rest =>
      simp only [buffer] at step
      cases step
      constructor <;> simp_all [reading, carried, trailed, bytesRead, attempted]
    | nil =>
      simp only [buffer] at step
      split at step
      · cases step
      · next opened =>
        split at opened <;> cases opened
      · next pipe opened =>
        split at opened
        · next closed =>
          cases opened
          cases step
          -- The end of the data: nobody can write any more.
          have silent : writing state.writer = false := by
            simpa [closed] using writes
          constructor <;> simp_all [reading, carried, trailed, bytesRead, attempted]
        · cases opened
  | copy byte =>
    simp only [readerStep, place] at step
    cases step
    constructor <;> simp_all [reading, carried, trailed, bytesRead_append, attempted_append]
  | trailer =>
    simp only [readerStep, place] at step
    cases step
    constructor <;> simp_all [reading, carried, trailed, bytesRead_append, attempted_append]
  | closeRead =>
    simp only [readerStep, place] at step
    cases step
    rw [List.append_nil]
    by_cases parent : setup.parent = .reader <;> constructor <;> simp_all [Pipe.closeRead, reading, carried, trailed]
  | wait =>
    simp only [readerStep, place] at step
    split at step
    · cases step
      rw [List.append_nil]
      constructor <;> simp_all [reading, carried, trailed]
    · cases step
  | exited => simp [readerStep, place] at step

theorem sound_run (run : (pipesMachine limits setup).Run startState actions notes state) :
    Sound setup notes state := by
  apply run.invariant (Sound setup) (sound_start setup)
  intro notes state action after written sound step
  cases action with
  | writer count => exact sound_writer sound step
  | reader fails => exact sound_reader sound step

/-- What is read is the beginning of what the writer writes, all of it once the end has
been seen, and it goes to the terminal in that order, with the trailer behind it. -/
theorem pipe_delivers (run : (pipesMachine limits setup).Run startState actions notes state) :
    bytesRead notes <+: setup.chunks.flatten ∧ attempted notes <+: setup.chunks.flatten ++ setup.trailer ∧
      (reading state.reader = false → bytesRead notes = setup.chunks.flatten) ∧
      (state.reader = .exited → attempted notes = setup.chunks.flatten ++ setup.trailer) := by
  have sound := sound_run run
  -- The reader has seen the end, so the pipe is empty and the writer has nothing left.
  have all : reading state.reader = false → bytesRead notes = setup.chunks.flatten := by
    intro ended
    obtain ⟨buffer, silent⟩ := sound.ended ended
    have data := sound.data
    have nothing : remaining setup state.writer = [] := by
      cases place : state.writer <;> simp_all [writing, remaining]
    simpa [buffer, nothing] using data
  have copies := sound.copies
  refine ⟨⟨_, sound.data⟩, ?_, all, ?_⟩
  · cases going : reading state.reader with
    | true =>
      have untrailed : trailed setup state.reader = [] := by
        cases place : state.reader <;> simp_all [reading, trailed]
      rw [untrailed, List.append_nil] at copies
      have first : attempted notes <+: bytesRead notes := ⟨_, copies⟩
      exact (first.trans ⟨_, sound.data⟩).trans (List.prefix_append _ _)
    | false =>
      rw [all going] at copies
      have ahead : attempted notes <+: setup.chunks.flatten ++ trailed setup state.reader := ⟨_, copies⟩
      apply ahead.trans
      cases state.reader <;> simp [trailed]
  · intro exited
    simp only [exited, carried, trailed, List.append_nil] at copies
    rw [copies, all (by rw [exited]; rfl)]

def work (setup : Setup) (state : State) : Nat :=
  3 * (remaining setup state.writer).length + 2 * state.pipe.buffer.length +
    (match state.writer with
      | .closeRead => setup.chunks.length + 5
      | .write _ chunks => chunks.length + 4
      | .closeWrite => 3
      | .wait => 1
      | .exited | .killed => 0) +
    match state.reader with
      | .closeWrite => 6
      | .copy _ => 5
      | .read => 4
      | .trailer => 3
      | .closeRead => 2
      | .wait => 1
      | .exited => 0

theorem work_writer {count : Nat} (step : writerStep limits setup state count = some (after, written)) :
    work setup after < work setup state := by
  cases place : state.writer with
  | closeRead =>
    simp only [writerStep, place] at step
    cases step
    simp only [work, remaining, Pipe.closeRead, place]
    omega
  | write started chunks =>
    rcases chunks with _ | ⟨_ | ⟨first, chunk⟩, chunks⟩
    · simp only [writerStep, place] at step
      cases step
      simp only [work, remaining, place, List.flatten_nil, List.length_nil]
      omega
    · simp only [writerStep, place] at step
      cases step
      simp only [work, remaining, place, List.flatten_cons, List.nil_append, List.length_cons]
      omega
    · simp only [writerStep, place] at step
      split at step
      · cases step
        simp only [work, remaining, Pipe.closeWrite, place, List.length_nil, List.length_cons]
        omega
      · split at step
        · next takes =>
          cases step
          have some := takes.1
          have fits := takes.2.1
          simp only [work, remaining, Pipe.put, place, List.flatten_cons, List.length_append, List.length_take,
            List.length_drop, List.length_cons] at fits ⊢
          omega
        · cases step
  | closeWrite =>
    simp only [writerStep, place] at step
    cases step
    by_cases parent : setup.parent = .writer <;> simp [work, remaining, Pipe.closeWrite, place, parent]
  | wait =>
    simp only [writerStep, place] at step
    split at step
    · cases step
      simp [work, remaining, place]
    · cases step
  | exited | killed => simp [writerStep, place] at step

theorem work_reader {fails : Bool} (step : readerStep setup state fails = some (after, written)) :
    work setup after < work setup state := by
  cases place : state.reader with
  | read =>
    simp only [readerStep, place, Pipe.read] at step
    cases buffer : state.pipe.buffer with
    | cons byte rest =>
      simp only [buffer] at step
      cases step
      simp only [work, place, buffer, List.length_cons]
      omega
    | nil =>
      simp only [buffer] at step
      split at step
      · cases step
      · next opened => split at opened <;> cases opened
      · next pipe opened =>
        split at opened
        · cases opened
          cases step
          simp [work, place]
        · cases opened
  | closeRead =>
    simp only [readerStep, place] at step
    cases step
    by_cases parent : setup.parent = .reader <;> simp [work, Pipe.closeRead, place, parent]
  | wait =>
    simp only [readerStep, place] at step
    split at step
    · cases step
      simp [work, place]
    · cases step
  | exited => simp [readerStep, place] at step
  | _ =>
    simp only [readerStep, place] at step
    cases step
    simp [work, place, Pipe.closeWrite]

theorem length_run (run : (pipesMachine limits setup).Run startState actions notes state) :
    actions.length + work setup state ≤ work setup startState := by
  induction run with
  | start => simp
  | @next actions notes written state after action _ step ih =>
    have less : work setup after < work setup state := by
      cases action with
      | writer count => exact work_writer step
      | reader fails => exact work_reader step
    rw [List.length_append, List.length_singleton]
    omega

def Stuck (limits : Pipe.Limits) (setup : Setup) (state : State) : Prop :=
  ∀ action, (pipesMachine limits setup).step state action = none

theorem reader_of_stuck (sound : Sound setup notes state) (stuck : Stuck limits setup state) :
    state.reader = .wait ∨ state.reader = .exited := by
  have reader := stuck (.reader false)
  simp only [pipesMachine] at reader
  cases place : state.reader with
  | read =>
    simp only [readerStep, place, Pipe.read] at reader
    cases buffer : state.pipe.buffer with
    | cons byte rest => simp [buffer] at reader
    | nil =>
      -- The pipe is empty, so the writer is about to write or to close its end.
      have opened : state.pipe.writers ≠ ∅ := by
        intro closed
        simp [buffer, closed] at reader
      obtain ⟨role, member⟩ := Finset.nonempty_iff_ne_empty.mpr opened
      have going : writing state.writer = true := by
        cases role with
        | writer => exact sound.writes.mp member
        | reader => simp [sound.inherits.mp member] at place
      have writer := fun count => stuck (.writer count)
      simp only [pipesMachine] at writer
      cases at_ : state.writer with
      | closeRead | closeWrite => simp [writerStep, at_] at writer
      | write started chunks =>
        rcases chunks with _ | ⟨_ | ⟨first, chunk⟩, chunks⟩
        · simp [writerStep, at_] at writer
        · simp [writerStep, at_] at writer
        · have reads := Finset.ne_empty_of_mem (sound.reads (by rw [place]; rfl))
          rcases state.pipe.takes_or_full limits started (List.cons_ne_nil first chunk) with ⟨count, takes⟩ | full
          · have still := writer count
            simp [writerStep, at_, reads, takes] at still
          · exact absurd buffer full
      | _ => simp [at_, writing] at going
  | wait => exact Or.inl rfl
  | exited => exact Or.inr rfl
  | _ => simp [readerStep, place] at reader

theorem exited_of_stuck (sound : Sound setup notes state) (stuck : Stuck limits setup state) :
    state.writer = .exited ∧ state.reader = .exited := by
  have come := reader_of_stuck sound stuck
  have ceased : reading state.reader = false := by rcases come with place | place <;> rw [place] <;> rfl
  have silent := (sound.ended ceased).2
  have writer := stuck (.writer 0)
  have reader := stuck (.reader false)
  simp only [pipesMachine] at writer reader
  have done : state.writer = .exited := by
    cases place : state.writer with
    | exited => rfl
    | wait =>
      rcases come with waits | exited
      · have first := sound.waits.1 place
        rw [sound.waits.2 waits] at first
        cases first
      · simp [writerStep, place, exited] at writer
    | killed => exact absurd place sound.alive
    | _ => simp [place, writing] at silent
  refine ⟨done, come.resolve_left fun waits => ?_⟩
  simp [readerStep, waits, done] at reader

/-- Both processes come to their ends, whatever the sizes of the pipe and of the writes. -/
theorem pipe_finishes (run : (pipesMachine limits setup).Run startState actions notes state) :
    actions.length ≤ 3 * setup.chunks.flatten.length + setup.chunks.length + 11 ∧
      (Stuck limits setup state → state.writer = .exited ∧ state.reader = .exited ∧
        bytesRead notes = setup.chunks.flatten ∧ attempted notes = setup.chunks.flatten ++ setup.trailer) := by
  have sound := sound_run run
  constructor
  · have bound := length_run run
    simp only [work, startState, remaining, List.length_nil] at bound
    omega
  · intro stuck
    obtain ⟨writer, reader⟩ := exited_of_stuck sound stuck
    have copies := sound.copies
    have data := sound.data
    have buffer := (sound.ended (by rw [reader]; rfl)).1
    simp only [writer, remaining, buffer, List.append_nil] at data
    simp only [reader, carried, trailed, List.append_nil, data] at copies
    exact ⟨writer, reader, data, copies⟩

def linuxLimits : Pipe.Limits := ⟨65536, 4096, by decide, by decide⟩

def greeting : List UInt8 := [72, 101, 108, 108, 111, 33]

def scheduleChild : List Action :=
  [.writer 0, .writer 6, .writer 0, .writer 0, .writer 0] ++ List.replicate 16 (.reader false) ++ [.writer 0]

theorem pipe_delivers_greeting : ∃ final notes,
    (pipesMachine linuxLimits (childSetup greeting)).Run startState scheduleChild notes final ∧
    final.reader = .exited ∧ bytesRead notes <+: [greeting].flatten ∧ attempted notes <+: [greeting].flatten ++ [10] ∧
      (reading final.reader = false → bytesRead notes = [greeting].flatten) ∧
      (final.reader = .exited → attempted notes = [greeting].flatten ++ [10]) := by
  obtain ⟨final, notes, run, exited⟩ := @Machine.exists_run_of_any _ _ _ (pipesMachine linuxLimits (childSetup greeting))
    scheduleChild startState (fun result => result.1.reader = .exited) (by decide)
  exact ⟨final, notes, run, of_decide_eq_true exited, pipe_delivers run⟩

theorem stuck_of_exited (writer : state.writer = .exited) (reader : state.reader = .exited) : Stuck limits setup state := by
  intro action
  cases action with
  | writer count => simp [pipesMachine, writerStep, writer]
  | reader fails => simp [pipesMachine, readerStep, reader]

theorem pipe_finishes_greeting : ∃ final notes,
    (pipesMachine linuxLimits (childSetup greeting)).Run startState scheduleChild notes final ∧
    Stuck linuxLimits (childSetup greeting) final ∧ scheduleChild.length ≤ 3 * [greeting].flatten.length + 1 + 11 ∧
      final.writer = .exited ∧ final.reader = .exited ∧
        bytesRead notes = [greeting].flatten ∧ attempted notes = [greeting].flatten ++ [10] := by
  obtain ⟨final, notes, run, ends⟩ := @Machine.exists_run_of_any _ _ _ (pipesMachine linuxLimits (childSetup greeting))
    scheduleChild startState (fun result => result.1.writer = .exited ∧ result.1.reader = .exited) (by decide)
  have exited := of_decide_eq_true ends
  have stuck : Stuck linuxLimits (childSetup greeting) final := stuck_of_exited exited.1 exited.2
  obtain ⟨bound, finished⟩ := pipe_finishes run
  exact ⟨final, notes, run, stuck, bound, finished stuck⟩

end PosixC.Pipes
