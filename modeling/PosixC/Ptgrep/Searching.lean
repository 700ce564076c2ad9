import PosixC.Ptgrep.Status

/-! The whole of hw08/ptgrep.c under every schedule.

On a terminal every run ends, and each file has been shown as if it were searched alone.
With redirected output one match is enough for the program never to end.
-/

set_option autoImplicit false

namespace PosixC.Ptgrep

open Foundation Foundation.CText Foundation.CBuffer Foundation.Barrier

section Turns

variable {isatty : Bool} {searcher : ThreadData} {lineNum : Nat} {loop : Loop} {progress : Progress} {line slack : Bytes}

theorem string_bytes {memory after : Memory} {start : Nat} {text : Bytes} (read : memory.string start = some (text, after)) :
    after.bytes = memory.bytes ∧ text = cString (memory.bytes.drop start) := by
  simp only [Memory.string, Option.ite_none_right_eq_some, Option.some.injEq, Prod.mk.injEq] at read
  obtain ⟨_, rfl, rfl⟩ := read
  exact ⟨rfl, rfl⟩

theorem stringUpTo_bytes {memory after : Memory} {start stop : Nat} {text : Bytes}
    (read : memory.stringUpTo start stop = some (text, after)) : after.bytes = memory.bytes := by
  simp only [Memory.stringUpTo, Memory.load, Memory.store, Option.bind_eq_bind, Option.bind_eq_some_iff,
    Option.map_eq_some_iff, Prod.exists, Prod.mk.injEq] at read
  obtain ⟨tmp, first, ⟨byte, loaded, rfl, rfl⟩, second, stored, text', third, strung, fourth, restored, same⟩ := read
  cases same
  simp only [Option.ite_none_right_eq_some, Option.some.injEq] at stored restored
  obtain ⟨_, rfl⟩ := stored
  obtain ⟨_, rfl⟩ := restored
  obtain ⟨bound, value⟩ := List.getElem?_eq_some_iff.mp loaded
  simp only [(string_bytes strung).1, List.set_set, ← value, List.set_getElem_self]

/-- A turn on a terminal prints at most five texts, and gets on. -/
theorem turn_advances (turned : turn true searcher lineNum loop = some progress) :
    (newTexts loop progress).length ≤ 5 ∧
      ∀ next, progress = .running next → cString next.memory.bytes = cString loop.memory.bytes ∧
        loop.lineCopy < next.lineCopy ∧ next.lineCopy ≤ (cString loop.memory.bytes).length := by
  unfold turn at turned
  obtain ⟨⟨haystack, searched⟩, read, turned⟩ := Option.bind_eq_some_iff.mp turned
  cases found : stringFind searcher.shared.insensitive haystack searcher.shared.string with
  | none =>
    simp only [found] at turned
    cases turned
    constructor
    · simp [newTexts, Progress.loop]
    · intro _ running
      cases running
  | some distance =>
    simp only [found, if_true] at turned
    obtain ⟨⟨before, first⟩, front, turned⟩ := Option.bind_eq_some_iff.mp turned
    obtain ⟨⟨marked, second⟩, middle, turned⟩ := Option.bind_eq_some_iff.mp turned
    obtain ⟨⟨behind, third⟩, back, turned⟩ := Option.bind_eq_some_iff.mp turned
    obtain ⟨⟨whole, memory⟩, last, ended⟩ := Option.bind_eq_some_iff.mp turned
    -- Both NULs have been taken back, so the line is as long as it was.
    have same : memory.bytes = loop.memory.bytes := by
      rw [(string_bytes last).1, (string_bytes back).1, stringUpTo_bytes middle, stringUpTo_bytes front, (string_bytes read).1]
    have text : whole = cString loop.memory.bytes := by
      rw [(string_bytes last).2, ← (string_bytes last).1, same, List.drop_zero]
    have few : (header searcher lineNum).length ≤ 2 := by
      unfold header
      cases searcher.shared.lineNumber <;> simp
    by_cases within : loop.lineCopy + distance + 1 > whole.length
    · simp only [if_pos within] at ended
      cases ended
      constructor
      · simp [newTexts, Progress.loop]
        omega
      · intro _ running
        cases running
    · simp only [if_neg within] at ended
      cases ended
      constructor
      · simp [newTexts, Progress.loop]
        omega
      · rintro _ ⟨⟩
        rw [text] at within
        exact ⟨by rw [same], by simp only; omega, Nat.le_of_not_gt within⟩

end Turns

variable {threadNum : Nat} {setup : Setup threadNum} {state after : World threadNum}
  {notes written : List (Thread threadNum × Note)} {thread : Thread threadNum} {actions : List (Thread threadNum)}

section Termination

def loopRank (loop : Loop) : Nat := 7 * ((cString loop.memory.bytes).length + 2 - loop.lineCopy) + 8

def linesRank : List Bytes → Nat
  | [] => 3
  | line :: rest => 7 * ((cString line).length + 2) + 9 + linesRank rest

def progressRank (progress : Progress) : Nat :=
  match progress with
  | .running loop => loopRank loop
  | .stopped _ => 0

def load (setup : Setup threadNum) : Nat := ∑ i, ((setup.file i).map fun content => linesRank (lines content)).getD 0

def rank (setup : Setup threadNum) : Point → Nat
  | .begin => load setup + 3
  | .getline rest _ => linesRank rest
  | .search loop rest _ => loopRank loop + linesRank rest
  | .print texts progress rest _ => texts.length + 1 + progressRank progress + linesRank rest
  | .notOpened | .finish => 1
  | .gone => 0
  | .create i => (threadNum - i) + threadNum + 3
  | .join i _ _ => threadNum - i + 1
  | .done => 0

theorem linesRank_le_load {i : Fin threadNum} {content : Bytes} (file : setup.file i = some content) :
    linesRank (lines content) ≤ load setup := by
  have least := Finset.single_le_sum (f := fun i => ((setup.file i).map fun content => linesRank (lines content)).getD 0)
    (fun _ _ => Nat.zero_le _) (Finset.mem_univ i)
  unfold load
  simpa [file] using least

theorem cString_start (line slack : Bytes) : cString (line ++ 0 :: slack) = cString line := by
  obtain ⟨behind, same⟩ := exists_slack line slack
  rw [same]
  exact cString_append _ _ (not_mem_cString line)

theorem lowers (tty : setup.isatty = true) (self : Thread threadNum) (point : Point) (shared : Shared threadNum) :
    Lowers (rank setup) point (program setup self point shared) := by
  generalize next : program setup self point shared = command
  cases does_of_program next with
  | opened started file =>
    have := linesRank_le_load file
    simp only [Lowers, rank]
    omega
  | getline =>
    simp only [Lowers, rank, linesRank, loopRank, Loop.start, cString_start]
    omega
  | @turn i loop progress lines lineNum turned =>
    rw [tty] at turned
    obtain ⟨few, gets⟩ := turn_advances turned
    simp only [Lowers, rank]
    cases progress with
    | running later =>
      obtain ⟨same, further, within⟩ := gets later rfl
      simp only [progressRank, loopRank, same]
      omega
    | stopped last =>
      simp only [progressRank, loopRank]
      omega
  | @printed i progress lines lineNum => cases progress <;> simp [Lowers, rank, afterTexts, progressRank]
  | leave ends => rcases ends with rfl | rfl <;> simp [Lowers, rank]
  | _ =>
    simp only [Lowers, rank, linesRank, List.length_cons]
    try omega

theorem work_start (setup : Setup threadNum) :
    (startWorld threadNum).work (rank setup) = threadNum * (load setup + 3) + 3 * threadNum + 4 := by
  simp only [State.work, startWorld, initial, Finset.compl_empty, Finset.card_univ, Fintype.sum_option, startPoint, rank,
    Finset.sum_const, Fintype.card_fin, Fintype.card_option, Nat.nsmul_eq_mul, Nat.sub_zero]
  omega

theorem gone_of_blocked (sound : Sound setup notes state) {i : Fin threadNum} (created : i < state.shared.created)
    (running : state.shared.exit = false)
    (blocked : program setup (some i) (state.threads (some i)) state.shared = .blocked) :
    i ∈ state.shared.exited := by
  have knows := sound.searcher i
  simp only [program, running, Bool.false_eq_true, if_false] at blocked
  generalize state.threads (some i) = point at knows blocked
  cases point with
  | gone => exact of_decide_eq_true (congrArg Flags.exited knows)
  | begin =>
    simp only [threadRun, if_pos created] at blocked
    split at blocked <;> cases blocked
  | getline rest lineNum => cases rest <;> cases blocked
  | search loop rest lineNum =>
    obtain ⟨_, _, line, slack, _, _, looks, _⟩ := knows
    obtain ⟨progress, turned, _⟩ := @turn_looks (setup.searcher i) lineNum loop line slack setup.isatty looks
    simp only [threadRun, turned] at blocked
    cases blocked
  | print texts progress rest lineNum => cases texts <;> cases blocked
  | notOpened | finish => cases blocked
  | _ => exact knows.elim

/-- Where nobody can go on the process has ended. -/
theorem exit_of_stuck (sound : Sound setup notes state) (stuck : Stuck 0 (program setup) state) :
    ∃ status, (none, .exit status) ∈ notes := by
  -- An assignment is always possible, so whoever cannot move waits for an event.
  have blocked : ∀ self, program setup self (state.threads self) state.shared = .blocked := by
    intro self
    rcases assigns rfl with blocked | ⟨shared, next, texts, command⟩
    · exact blocked
    · have moves := stuck self
      simp [machine, command, perform] at moves
  have main := sound.main
  have waits := blocked none
  apply sound.ended
  generalize state.threads none = point at main waits
  cases point with
  | done => exact main
  | create i =>
    simp only [program, runMain] at waits
    split at waits
    · split at waits <;> cases waits
    · cases waits
  | join i opened found =>
    obtain ⟨running, created, _⟩ := main
    simp only [program, runMain] at waits
    split at waits
    · next inside =>
      split at waits
      · cases waits
      · next absent =>
        exact absurd (gone_of_blocked sound (by rw [created]; exact inside) running (blocked (some ⟨i, inside⟩))) absent
    · cases waits
  | _ => exact main.elim

end Termination

section Output

def Note.bytes : Note → Option Bytes
  | .text bytes => some bytes
  | _ => none

def outputOf (i : Fin threadNum) (notes : List (Thread threadNum × Note)) : List Bytes :=
  notes.filterMap fun note => if note.1 = some i then note.2.bytes else none

theorem outputOf_append (i : Fin threadNum) (first second : List (Thread threadNum × Note)) :
    outputOf i (first ++ second) = outputOf i first ++ outputOf i second :=
  List.filterMap_append

theorem outputOf_self (i : Fin threadNum) (texts : List Note) :
    outputOf i (texts.map fun note => (some i, note)) = texts.filterMap Note.bytes := by
  simp only [outputOf, List.filterMap_map]
  exact List.filterMap_congr fun note _ => if_pos rfl

theorem outputOf_other {i : Fin threadNum} {self : Thread threadNum} (different : self ≠ some i) (texts : List Note) :
    outputOf i (texts.map fun note => (self, note)) = [] := by
  simp [outputOf, List.filterMap_map, different]

def matchTexts (searcher : ThreadData) (lineNum : Nat) (line : Bytes) (place : Nat) : List Bytes :=
  (Search.occurrencesFrom (key searcher.shared.insensitive) searcher.shared.string line place).flatMap
    fun place => header searcher lineNum ++ around line searcher.shared.string.length place

def linesTexts (searcher : ThreadData) : List Bytes → Nat → List Bytes
  | [], _ => []
  | line :: rest, lineNum => matchTexts searcher lineNum (cString line) 0 ++ linesTexts searcher rest (lineNum + 1)

def fileTexts (setup : Setup threadNum) (i : Fin threadNum) : List Bytes :=
  ((setup.file i).map fun content => linesTexts (setup.searcher i) (lines content) 0).getD []

def progressTexts (searcher : ThreadData) (lineNum : Nat) : Progress → List Bytes
  | .running loop => matchTexts searcher lineNum (cString loop.memory.bytes) loop.lineCopy
  | .stopped _ => []

def remaining (setup : Setup threadNum) (i : Fin threadNum) : Point → List Bytes
  | .begin => fileTexts setup i
  | .getline rest lineNum => linesTexts (setup.searcher i) rest lineNum
  | .search loop rest lineNum => progressTexts (setup.searcher i) lineNum (.running loop) ++
      linesTexts (setup.searcher i) rest (lineNum + 1)
  | .print texts progress rest lineNum => texts ++ (progressTexts (setup.searcher i) lineNum progress ++
      linesTexts (setup.searcher i) rest (lineNum + 1))
  | _ => []

theorem bytes_of_looks {shared : SharedThreadData} {line slack : Bytes} {loop : Loop} (looks : Looks shared line slack loop) :
    cString loop.memory.bytes = cString line := by
  rw [looks.holds.bytes]
  exact cString_append _ _ (not_mem_cString line)

theorem turn_texts {searcher : ThreadData} {lineNum : Nat} {loop : Loop} {progress : Progress} {line slack : Bytes}
    (looks : Looks searcher.shared line slack loop) (turned : turn true searcher lineNum loop = some progress) :
    matchTexts searcher lineNum (cString line) loop.lineCopy =
      newTexts loop progress ++ progressTexts searcher lineNum progress := by
  have plain := not_mem_cString line
  unfold matchTexts
  cases found : stringFind searcher.shared.insensitive ((cString line).drop loop.lineCopy) searcher.shared.string with
  | none =>
    obtain ⟨memory, turned', _⟩ := turn_absent lineNum true looks.holds plain looks.inside found
    cases turned.symm.trans turned'
    rw [stringFind_eq] at found
    simp [Search.occurrencesFrom_none found, newTexts, Progress.loop, progressTexts]
  | some distance =>
    obtain ⟨memory, kept, turned'⟩ := turn_highlighted lineNum looks.holds plain looks.inside found rfl
    rw [stringFind_eq] at found
    rw [Search.occurrencesFrom_some looks.inside found, List.flatMap_cons]
    have last := turned.symm.trans turned'
    split at last
    · next beyond =>
      cases last
      have nothing : Search.occurrencesFrom (key searcher.shared.insensitive) searcher.shared.string (cString line)
          (loop.lineCopy + distance + 1) = [] := by
        simp [Search.occurrencesFrom, show (cString line).length + 1 - (loop.lineCopy + distance + 1) = 0 by omega]
      simp [nothing, newTexts, Progress.loop, Loop.shown, progressTexts]
    · cases last
      have same : cString memory.bytes = cString line := by
        rw [kept.bytes]
        exact cString_append _ _ plain
      simp [newTexts, Progress.loop, Loop.shown, progressTexts, matchTexts, same]

def Shown (setup : Setup threadNum) (notes : List (Thread threadNum × Note)) (state : World threadNum) : Prop :=
  ∀ i, outputOf i notes ++ remaining setup i (state.threads (some i)) = fileTexts setup i

/-- A statement prints what was to be printed next. -/
theorem remaining_step (tty : setup.isatty = true) (sound : Sound setup notes state) {i : Fin threadNum}
    {shared : Shared threadNum} {next : Point} {texts : List Note}
    (command : program setup (some i) (state.threads (some i)) state.shared = .assign shared next texts) :
    remaining setup i (state.threads (some i)) = texts.filterMap Note.bytes ++ remaining setup i next := by
  have knows := sound.searcher i
  generalize state.threads (some i) = point at knows command
  cases does_of_program command with
  | notOpened started absent => simp [remaining, fileTexts, absent, Note.bytes]
  | opened started present => simp [remaining, fileTexts, present]
  | endOfFile => rfl
  | getline => simp [remaining, linesTexts, progressTexts, Loop.start, cString_start]
  | turn turned =>
    obtain ⟨_, _, line, slack, _, _, looks, _⟩ := knows
    rw [tty] at turned
    have next := @turn_texts (setup.searcher i) _ _ _ line slack looks turned
    rw [← bytes_of_looks looks] at next
    change matchTexts _ _ _ _ ++ _ = _
    rw [next, List.append_assoc]
    rfl
  | @printed _ progress => cases progress <;> rfl
  | print => rfl
  | leave ends => rcases ends with rfl | rfl <;> rfl

theorem shown_step (tty : setup.isatty = true) (sound : Sound setup notes state) (shown : Shown setup notes state)
    (move : Move 0 (program setup) state thread after written) : Shown setup (notes ++ written) after := by
  intro i
  have before := shown i
  cases move with
  | lock command | unlock command | arrive command | pass command => simpa using assigns command
  | assign command =>
    by_cases same : thread = some i
    · subst same
      rw [outputOf_append, outputOf_self, List.append_assoc]
      simpa only [move_self, ← remaining_step tty sound command] using before
    · rw [outputOf_append, outputOf_other same, List.append_nil]
      simpa only [move_of_ne state _ (Ne.symm same)] using before

end Output

section Redirected

def Stays (shared : Shared threadNum) (i : Fin threadNum) : Point → Prop
  | .search loop _ _ | .print _ (.running loop) _ _ => loop.lineCopy = 0 ∧ (i ∈ shared.found → loop.found = true)
  | _ => i ∉ shared.found

theorem stays_same {before now : Shared threadNum} {i : Fin threadNum} {point : Point}
    (found : i ∈ now.found ↔ i ∈ before.found) (stays : Stays before i point) : Stays now i point := by
  cases point with
  | print _ progress => cases progress <;> simpa only [Stays, found] using stays
  | _ => simpa only [Stays, found] using stays

theorem turn_stays {searcher : ThreadData} {lineNum : Nat} {loop : Loop} {progress : Progress} {line slack : Bytes}
    (looks : Looks searcher.shared line slack loop) (fresh : loop.lineCopy = 0)
    (turned : turn false searcher lineNum loop = some progress) :
    (∃ next, progress = .running next ∧ next.lineCopy = 0 ∧ next.found = true) ∨
      (∃ last, progress = .stopped last ∧ last.found = false ∧ loop.found = false) := by
  have plain := not_mem_cString line
  cases found : stringFind searcher.shared.insensitive ((cString line).drop loop.lineCopy) searcher.shared.string with
  | none =>
    obtain ⟨memory, turned', _⟩ := turn_absent lineNum false looks.holds plain looks.inside found
    cases turned.symm.trans turned'
    have absent : loop.found = false := by
      by_contra already
      have present := looks.found (Bool.eq_true_of_not_eq_false already)
      rw [fresh, List.drop_zero] at found
      simp [matchesLine, found] at present
    exact Or.inr ⟨_, rfl, absent, absent⟩
  | some distance =>
    obtain ⟨memory, turned', _⟩ := turn_redirected lineNum looks.holds plain looks.inside found
    cases turned.symm.trans turned'
    exact Or.inl ⟨_, rfl, fresh, rfl⟩

theorem stays_step (redirected : setup.isatty = false) (sound : Sound setup notes state)
    (stays : ∀ i, Stays state.shared i (state.threads (some i)))
    (move : Move 0 (program setup) state thread after written) (i : Fin threadNum) :
    Stays after.shared i (after.threads (some i)) := by
  have before := stays i
  cases move with
  | lock command | unlock command | arrive command | pass command => simpa using assigns command
  | assign command =>
    by_cases same : thread = some i
    · subst same
      have knows := sound.searcher i
      simp only [move_self]
      generalize state.threads (some i) = point at knows command before
      cases does_of_program command with
      | notOpened | opened | endOfFile => exact before
      | getline => exact ⟨rfl, fun member => absurd member before⟩
      -- The next search starts at the same place and finds the same match.
      | turn turned =>
        obtain ⟨_, _, line, slack, _, _, looks, _⟩ := knows
        rw [redirected] at turned
        rcases @turn_stays (setup.searcher i) _ _ _ line slack looks before.1 turned with
          ⟨next, rfl, place, found⟩ | ⟨last, rfl, absent, earlier⟩
        · exact ⟨place, fun _ => found⟩
        · rw [Progress.loop, absent]
          intro member
          cases earlier.symm.trans (before.2 member)
      | @printed _ progress => cases progress <;> exact before
      | @print _ _ _ progress => cases progress <;> exact before
      | leave ends => rcases ends with rfl | rfl <;> exact before
    · simp only [move_of_ne state _ (Ne.symm same)]
      apply stays_same _ before
      cases thread with
      | none =>
        generalize state.threads none = point at command
        cases does_of_program command <;> rfl
      | some j =>
        generalize state.threads (some j) = point at command
        have different : i ≠ j := fun equal => same (congrArg some equal.symm)
        cases does_of_program command with
        | turn => split <;> simp [different]
        | _ => rfl

end Redirected

end PosixC.Ptgrep
