import PosixC.Copy.CopyFd

/-! `cat` of ex10: its copying loop, and the files one after the other. -/

set_option autoImplicit false

namespace PosixC.Cat

open Foundation CText Transfers

def catBufferSize : Nat := 128

inductive Message where
  | read (errno : Nat)
  | write (errno : Nat)
  | opening (file : Nat) (errno : Nat)
  | closing (file : Nat) (errno : Nat)
  | problems (file : Option Nat)
  deriving DecidableEq, Repr

/-- The exit status is `true` for `EXIT_SUCCESS`. -/
structure Outcome where
  success : Bool
  messages : List Message
  world : World UInt8

def writeToStdout (world : World UInt8) : Outcome :=
  let final := copyLoop catBufferSize 0 0 world
  if final.rd = -1 then ⟨false, [.read final.world.errno], final.world⟩
  else if final.wt = -1 then ⟨false, [.write final.world.errno], final.world⟩
  else ⟨true, [], final.world⟩

/-- The loop over `argv`, with the number of the argument; `source` is what the file holds. -/
def catFiles (index : Nat) : List Bytes → World UInt8 → Outcome
  | [], world => ⟨true, [], world⟩
  | source :: rest, world =>
      let src := world.invoke (.opening index)
      if src.1 = -1 then ⟨false, [.opening index src.2.errno], src.2⟩
      else
        let copied := writeToStdout { src.2 with input := source }
        if !copied.success then ⟨false, copied.messages ++ [.problems (some index)], copied.world⟩
        else
          let closed := copied.world.invoke (.closing index)
          if closed.1 ≠ 0 then ⟨false, [.closing index closed.2.errno], closed.2⟩
          else catFiles (index + 1) rest closed.2

def cat (files : List Bytes) (world : World UInt8) : Outcome :=
  match files with
  | [] =>
      let copied := writeToStdout world
      if !copied.success then ⟨false, copied.messages ++ [.problems none], copied.world⟩
      else ⟨true, [], copied.world⟩
  | files => catFiles 1 files world

section Explanations

def current (calls : List (Call × Answer)) : Option Nat :=
  (calls.filterMap fun entry => match entry.1 with
    | .opening file => some file
    | _ => none).getLast?

def explanation (earlier : List (Call × Answer)) (errno : Nat) : Call → List Message
  | .read => [.read errno, .problems (current earlier)]
  | .write => [.write errno, .problems (current earlier)]
  | .opening file => [.opening file errno]
  | .closing file => [.closing file errno]
  | _ => []

theorem current_append (first second : List (Call × Answer)) :
    current (first ++ second) = (current second).or (current first) := by
  unfold current
  rw [List.filterMap_append, List.getLast?_append]

theorem current_transfers {calls : List (Call × Answer)} (transfers : ∀ entry ∈ calls, entry.1 = .read ∨ entry.1 = .write) :
    current calls = none := by
  unfold current
  rw [List.getLast?_eq_none_iff, List.filterMap_eq_nil_iff]
  intro entry member
  rcases transfers entry member with same | same <;> rw [same]

end Explanations

section Copying

structure Copied (world : World UInt8) (calls : List (Call × Answer)) (outcome : Outcome) : Prop where
  moves : Moves world calls outcome.world
  grows : world.output <+: outcome.world.output
  part : outcome.world.output <+: world.output ++ world.input
  ends : (outcome.success = true ∧ outcome.world.output = world.output ++ world.input ∧ Clean calls) ∨
    (outcome.success = false ∧ ∃ earlier call errno, calls = earlier ++ [(call, .failed errno)] ∧ Clean earlier ∧
      ∀ before, outcome.messages ++ [.problems (current before)] = explanation (before ++ earlier) errno call)

theorem writeToStdout_copied (world : World UInt8) : ∃ calls, Copied world calls (writeToStdout world) := by
  obtain ⟨calls, left, carries, ends⟩ := @copyLoop_ends _ world catBufferSize 0 0 (by decide) (Int.le_refl 0)
  have explained : ∀ {earlier : List (Call × Answer)} {call : Call} {errno : Nat},
      calls = earlier ++ [(call, .failed errno)] → ∀ before, current (before ++ earlier) = current before := by
    rintro earlier call errno rfl before
    have none : current earlier = none :=
      current_transfers fun entry member => carries.transfers entry (List.mem_append_left _ member)
    rw [current_append, none, Option.none_or]
  refine ⟨calls, ?_⟩
  unfold writeToStdout
  rcases ends with ⟨rd, wt, output, clean⟩ | ⟨rd, earlier, same, clean⟩ | ⟨some, wt, earlier, same, clean⟩
  · rw [if_neg (by omega), if_neg (by omega)]
    exact ⟨carries.moves, carries.grows, carries.part, Or.inl ⟨rfl, output, clean⟩⟩
  · rw [if_pos rd]
    refine ⟨carries.moves, carries.grows, carries.part, Or.inr ⟨rfl, earlier, _, _, same, clean, fun before => ?_⟩⟩
    rw [explanation, explained same]
    rfl
  · rw [if_neg (by omega), if_pos wt]
    refine ⟨carries.moves, carries.grows, carries.part, Or.inr ⟨rfl, earlier, _, _, same, clean, fun before => ?_⟩⟩
    rw [explanation, explained same]
    rfl

/-- Everything is put out and no call fails, or the last call fails, a part is put out and the
failure is explained; `before` are the calls before. -/
inductive Ends (before : List (Call × Answer)) (world : World UInt8) (sources : Bytes) (calls : List (Call × Answer))
    (outcome : Outcome) : Prop where
  | whole : outcome.success = true → outcome.messages = [] → outcome.world.output = world.output ++ sources →
      Clean calls → Ends before world sources calls outcome
  | part {earlier : List (Call × Answer)} {call : Call} {errno : Nat} : outcome.success = false →
      calls = earlier ++ [(call, .failed errno)] → Clean earlier →
      outcome.messages ≠ [] → outcome.messages = explanation (before ++ earlier) errno call →
      world.output <+: outcome.world.output → outcome.world.output <+: world.output ++ sources →
      Ends before world sources calls outcome

theorem Ends.after {before first second : List (Call × Answer)} {world middle : World UInt8} {source rest : Bytes}
    {outcome : Outcome} (output : middle.output = world.output ++ source) (clean : Clean first)
    (ends : Ends (before ++ first) middle rest second outcome) : Ends before world (source ++ rest) (first ++ second) outcome := by
  cases ends with
  | whole success messages whole later =>
    refine .whole success messages ?_ (clean_append.mpr ⟨clean, later⟩)
    rw [whole, output, List.append_assoc]
  | @part earlier call errno failed same later told explained grows inside =>
    refine .part failed (by rw [same, List.append_assoc]) (clean_append.mpr ⟨clean, later⟩) told ?_ ?_ ?_
    · rw [explained, List.append_assoc]
    · rw [output] at grows
      exact (List.prefix_append _ _).trans grows
    · rwa [output, List.append_assoc] at inside

theorem catFiles_ends (before : List (Call × Answer)) (index : Nat) (sources : List Bytes) (world : World UInt8) :
    ∃ calls, Moves world calls (catFiles index sources world).world ∧
      Ends before world sources.flatten calls (catFiles index sources world) := by
  induction sources generalizing before index world with
  | nil => exact ⟨[], moves_refl world, .whole rfl rfl (List.append_nil _).symm clean_nil⟩
  | cons source rest ih =>
    have opens := moves_record world (.opening index)
    rw [catFiles, List.flatten_cons]
    rcases invoke_cases (.opening index) world with ⟨errno, same, failed⟩ | ⟨more, same, moved⟩
    · rw [same, if_pos rfl]
      rw [failed] at opens
      refine ⟨_, opens, @Ends.part _ _ _ _ _ [] _ errno rfl rfl clean_nil (List.cons_ne_nil _ _) ?_ (List.prefix_refl _)
        (List.prefix_append _ _)⟩
      rw [record_errno world _ failed]
      rfl
    · rw [same, if_neg (by simp)]
      rw [moved] at opens
      -- The file is open, and what it holds is read next.
      have begun : Moves world [(.opening index, .moved more)] { world.record (.opening index) with input := source } :=
        ⟨opens.kernel, opens.history, opens.answers⟩
      obtain ⟨calls, copied⟩ := writeToStdout_copied { world.record (.opening index) with input := source }
      simp only
      generalize writeToStdout { world.record (.opening index) with input := source } = outcome at copied
      have inside : outcome.world.output <+: world.output ++ (source ++ rest.flatten) := by
        rw [← List.append_assoc]
        exact copied.part.trans (List.prefix_append _ _)
      rcases copied.ends with ⟨success, output, clean⟩ | ⟨failed, earlier, call, errno, same, clean, explained⟩
      · rw [if_neg (by simp [success])]
        have sofar : Clean ([(Call.opening index, Answer.moved more)] ++ calls) := clean_append.mpr ⟨clean_moved, clean⟩
        have closes := moves_record outcome.world (.closing index)
        rcases invoke_cases (.closing index) outcome.world with ⟨errno, same, failed⟩ | ⟨more', same, moved⟩
        · rw [same, if_pos (by simp)]
          rw [failed] at closes
          refine ⟨_, (begun.trans copied.moves).trans closes,
            @Ends.part _ _ _ _ _ _ _ errno rfl rfl sofar (List.cons_ne_nil _ _) ?_ copied.grows inside⟩
          rw [record_errno outcome.world _ failed]
          rfl
        · rw [same, if_neg (by simp)]
          rw [moved] at closes
          have closed : (outcome.world.record (.closing index)).output = world.output ++ source := output
          obtain ⟨later, moves, ends⟩ := ih (before ++ ([(.opening index, .moved more)] ++ calls ++ [(.closing index, .moved more')]))
            (index + 1) (outcome.world.record (.closing index))
          exact ⟨_, ((begun.trans copied.moves).trans closes).trans moves,
            ends.after closed (clean_append.mpr ⟨sofar, clean_moved⟩)⟩
      · rw [if_pos (by simp [failed])]
        subst same
        refine ⟨_, begun.trans copied.moves, @Ends.part _ _ _ _ _ ([(.opening index, .moved more)] ++ earlier) call errno rfl
          (by rw [List.append_assoc]) (clean_append.mpr ⟨clean_moved, clean⟩) (by simp) ?_ copied.grows inside⟩
        have named := explained (before ++ [(.opening index, .moved more)])
        rw [current_append] at named
        rw [← List.append_assoc, ← named]
        rfl

theorem cat_ends (files : List Bytes) (world : World UInt8) :
    ∃ calls, Moves world calls (cat files world).world ∧
      Ends [] world (if files = [] then world.input else files.flatten) calls (cat files world) := by
  cases files with
  | nil =>
    obtain ⟨calls, copied⟩ := writeToStdout_copied world
    simp only [cat, if_true]
    generalize writeToStdout world = outcome at copied
    rcases copied.ends with ⟨success, output, clean⟩ | ⟨failed, earlier, call, errno, same, clean, explained⟩
    · rw [if_neg (by simp [success])]
      exact ⟨calls, copied.moves, .whole rfl rfl output clean⟩
    · rw [if_pos (by simp [failed])]
      exact ⟨calls, copied.moves, .part rfl same clean (by simp) (explained []) copied.grows copied.part⟩
  | cons source rest => exact catFiles_ends [] 1 (source :: rest) world

end Copying

/-- The program puts out its files one after the other. It succeeds exactly if none of its
calls fails; otherwise it stops at the call that failed, has put out a part from the start, and
says which call it was and why. -/
theorem cat_concatenates (kernel : Kernel) (stdin : Bytes) (files : List Bytes) :
    let outcome := cat files (World.start kernel stdin)
    let calls := outcome.world.history
    let whole := if files = [] then stdin else files.flatten
    calls.map Prod.snd = (List.range calls.length).map kernel ∧
      (outcome.success = true ↔ Clean calls) ∧
      (outcome.success = true → outcome.world.output = whole ∧ outcome.messages = []) ∧
      (outcome.success = false → outcome.world.output <+: whole ∧
        ∃ earlier call errno, calls = earlier ++ [(call, .failed errno)] ∧ Clean earlier ∧
          outcome.messages ≠ [] ∧ outcome.messages = explanation earlier errno call) := by
  obtain ⟨calls, moves, ends⟩ := cat_ends files (World.start kernel stdin)
  obtain ⟨same, answered⟩ := moves.answered
  generalize cat files (World.start kernel stdin) = outcome at same answered ends ⊢
  simp only
  refine ⟨answered, ?_⟩
  rw [same]
  cases ends with
  | whole success messages output clean =>
    refine ⟨iff_of_true success clean, fun _ => ⟨output, messages⟩, fun failed => ?_⟩
    rw [success] at failed
    cases failed
  | @part earlier call errno failed whole clean told explained grows inside =>
    have broken : ¬ Clean calls := Fails.not_clean ⟨earlier, whole, clean⟩
    refine ⟨iff_of_false (by simp [failed]) broken, fun success => ?_,
      fun _ => ⟨inside, earlier, call, errno, whole, clean, told, explained⟩⟩
    rw [failed] at success
    cases success

def closedPipe : Kernel := fun call => if call = 7 then .failed 32 else .moved 1

theorem cat_concatenates_closedPipe :
    let outcome := cat [[1, 2], [3]] (World.start closedPipe [])
    outcome.world.output = [1, 2] ∧ outcome.messages = [.write 32, .problems (some 2)] ∧
    ∃ earlier call errno, outcome.world.history = earlier ++ [(call, .failed errno)] ∧ Clean earlier ∧
      outcome.messages ≠ [] ∧ outcome.messages = explanation earlier errno call := by
  have failed : (cat [[1, 2], [3]] (World.start closedPipe [])).success = false := by
    simp [cat, catFiles, writeToStdout, copyLoop, writeLoop, World.start, World.invoke, World.read, World.write, World.record,
      World.answer, closedPipe, piece, catBufferSize]
  refine ⟨?_, ?_, ((cat_concatenates closedPipe [] [[1, 2], [3]]).2.2.2 failed).2⟩
  · simp [cat, catFiles, writeToStdout, copyLoop, writeLoop, World.start, World.invoke, World.read, World.write, World.record,
      World.answer, closedPipe, piece, catBufferSize]
  · simp [cat, catFiles, writeToStdout, copyLoop, writeLoop, World.start, World.invoke, World.read, World.write, World.record,
      World.answer, closedPipe, piece, catBufferSize]

end PosixC.Cat
