import Mathlib.Data.List.Range

/-! System calls that transfer bytes.

A kernel answers each call of a program, in their order, with an error or with a
piece of what was asked for. A piece is empty only if nothing was asked for. The
world of a program keeps the calls and their answers: nothing is read or written
but through them.
-/

set_option autoImplicit false

namespace PosixC.Foundation.Transfers

inductive Answer where
  | failed (errno : Nat)
  | moved (more : Nat)
  deriving DecidableEq, Repr

abbrev Kernel := Nat → Answer

def piece (more limit : Nat) : Nat := min (more + 1) limit

theorem piece_le (more limit : Nat) : piece more limit ≤ limit := Nat.min_le_right _ _

theorem piece_pos {more limit : Nat} (positive : 0 < limit) : 0 < piece more limit :=
  Nat.lt_min.mpr ⟨Nat.succ_pos more, positive⟩

theorem piece_zero {more limit : Nat} : piece more limit = 0 ↔ limit = 0 := by
  unfold piece
  omega

inductive Call where
  | fstat | sendfile | read | write
  | opening (file : Nat)
  | closing (file : Nat)
  deriving DecidableEq, Repr

structure World (Byte : Type) where
  kernel : Kernel
  history : List (Call × Answer)
  errno : Nat
  input : List Byte
  output : List Byte

variable {Byte : Type}

namespace World

def start (kernel : Kernel) (input : List Byte) : World Byte := ⟨kernel, [], 0, input, []⟩

def answer (world : World Byte) : Answer := world.kernel world.history.length

def record (call : Call) (world : World Byte) : World Byte :=
  { world with
    history := world.history ++ [(call, world.answer)]
    errno := match world.answer with
      | .failed errno => errno
      | .moved _ => world.errno }

def invoke (call : Call) (world : World Byte) : Int × World Byte :=
  match world.answer with
  | .failed _ => (-1, world.record call)
  | .moved _ => (0, world.record call)

structure Got (Byte : Type) where
  rd : Int
  buffer : List Byte
  world : World Byte

def read (size : Nat) (world : World Byte) : Got Byte :=
  match world.answer with
  | .failed _ => ⟨-1, [], world.record .read⟩
  | .moved more =>
      let count := piece more (min size world.input.length)
      ⟨count, world.input.take count, { world.record .read with input := world.input.drop count }⟩

def write (bytes : List Byte) (world : World Byte) : Int × World Byte :=
  match world.answer with
  | .failed _ => (-1, world.record .write)
  | .moved more =>
      let count := piece more bytes.length
      (count, { world.record .write with output := world.output ++ bytes.take count })

def sendfile (offset size : Nat) (world : World Byte) : Int × World Byte :=
  match world.answer with
  | .failed _ => (-1, world.record .sendfile)
  | .moved more =>
      let count := piece more (min size (world.input.length - offset))
      (count, { world.record .sendfile with output := world.output ++ (world.input.drop offset).take count })

end World

section Histories

variable {world middle after : World Byte} {calls first second : List (Call × Answer)} {call : Call} {errno : Nat}

def Clean (calls : List (Call × Answer)) : Prop := ∀ call errno, (call, .failed errno) ∉ calls

def Fails (calls : List (Call × Answer)) (call : Call) (errno : Nat) : Prop :=
  ∃ before, calls = before ++ [(call, .failed errno)] ∧ Clean before

structure Moves (world : World Byte) (calls : List (Call × Answer)) (after : World Byte) : Prop where
  kernel : after.kernel = world.kernel
  history : after.history = world.history ++ calls
  answers : calls.map Prod.snd = (List.range' world.history.length calls.length).map world.kernel

@[simp] theorem clean_nil : Clean [] := fun _ _ member => List.not_mem_nil member

theorem clean_append : Clean (first ++ second) ↔ Clean first ∧ Clean second := by
  simp only [Clean, List.mem_append, not_or, forall_and]

theorem clean_moved {more : Nat} : Clean [(call, .moved more)] := by
  intro other errno member
  cases List.mem_singleton.mp member

theorem fails_single : Fails [(call, .failed errno)] call errno := ⟨[], rfl, clean_nil⟩

theorem Fails.append (fails : Fails second call errno) (clean : Clean first) : Fails (first ++ second) call errno := by
  obtain ⟨before, rfl, rest⟩ := fails
  exact ⟨first ++ before, (List.append_assoc ..).symm, clean_append.mpr ⟨clean, rest⟩⟩

theorem Fails.not_clean (fails : Fails calls call errno) : ¬ Clean calls := by
  obtain ⟨before, rfl, _⟩ := fails
  intro clean
  exact clean call errno (by simp)

theorem moves_refl (world : World Byte) : Moves world [] world := ⟨rfl, (List.append_nil _).symm, rfl⟩

theorem Moves.trans (before : Moves world first middle) (later : Moves middle second after) :
    Moves world (first ++ second) after where
  kernel := later.kernel.trans before.kernel
  history := by rw [later.history, before.history, List.append_assoc]
  answers := by
    rw [List.map_append, before.answers, later.answers, before.kernel, before.history, List.length_append,
      List.length_append, ← List.map_append, List.range'_append_1]

theorem moves_record (world : World Byte) (call : Call) : Moves world [(call, world.answer)] (world.record call) :=
  ⟨rfl, rfl, rfl⟩

theorem Moves.answered {kernel : Kernel} {input : List Byte} (moves : Moves (World.start kernel input) calls after) :
    after.history = calls ∧ after.history.map Prod.snd = (List.range after.history.length).map kernel := by
  have same : after.history = calls := moves.history
  refine ⟨same, ?_⟩
  rw [same, moves.answers, List.range_eq_range']
  rfl

theorem record_errno (world : World Byte) (call : Call) {errno : Nat} (failed : world.answer = .failed errno) :
    (world.record call).errno = errno := by
  simp [World.record, failed]

end Histories

section Calls

variable {world : World Byte} {bytes : List Byte} {size : Nat}

theorem invoke_cases (call : Call) (world : World Byte) :
    (∃ errno, world.invoke call = (-1, world.record call) ∧ world.answer = .failed errno) ∨
      ∃ more, world.invoke call = (0, world.record call) ∧ world.answer = .moved more := by
  cases answered : world.answer with
  | failed errno => exact Or.inl ⟨errno, by simp [World.invoke, answered], rfl⟩
  | moved more => exact Or.inr ⟨more, by simp [World.invoke, answered], rfl⟩

theorem read_cases (size : Nat) (world : World Byte) :
    (∃ errno, world.read size = ⟨-1, [], world.record .read⟩ ∧ world.answer = .failed errno) ∨
      ∃ more count, world.read size =
          ⟨(count : Nat), world.input.take count, { world.record .read with input := world.input.drop count }⟩ ∧
        world.answer = .moved more ∧ count ≤ world.input.length ∧ (count = 0 → size = 0 ∨ world.input = []) := by
  cases answered : world.answer with
  | failed errno => exact Or.inl ⟨errno, by simp [World.read, answered], rfl⟩
  | moved more =>
    have within := piece_le more (min size world.input.length)
    refine Or.inr ⟨more, piece more (min size world.input.length), by simp [World.read, answered], rfl, by omega, ?_⟩
    intro none
    have short := piece_zero.mp none
    rw [← List.length_eq_zero_iff]
    omega

theorem write_cases (filled : bytes ≠ []) (world : World Byte) :
    (∃ errno, world.write bytes = (-1, world.record .write) ∧ world.answer = .failed errno) ∨
      ∃ more count, world.write bytes =
          (((count + 1 : Nat) : Int), { world.record .write with output := world.output ++ bytes.take (count + 1) }) ∧
        world.answer = .moved more := by
  cases answered : world.answer with
  | failed errno => exact Or.inl ⟨errno, by simp [World.write, answered], rfl⟩
  | moved more =>
    have some := @piece_pos more _ (List.length_pos_iff.mpr filled)
    obtain ⟨count, same⟩ := Nat.exists_eq_succ_of_ne_zero some.ne'
    exact Or.inr ⟨more, count, by simp [World.write, answered, same], rfl⟩

end Calls

section Loops

structure Written (Byte : Type) where
  pending : List Byte
  wt : Int
  world : World Byte

/-- `while (rd > 0 && (wt = write(fd, ptr, rd)) > 0)`. -/
def writeLoop (pending : List Byte) (wt : Int) (world : World Byte) : Written Byte :=
  if pending.isEmpty then ⟨pending, wt, world⟩
  else
    let written := world.write pending
    if 0 < written.1 then writeLoop (pending.drop written.1.toNat) written.1 written.2
    else ⟨pending, written.1, written.2⟩
termination_by pending.length
decreasing_by
  rename_i filled positive
  change 0 < (world.write pending).1 at positive
  have nonempty : pending.length ≠ 0 := fun none => filled (by simp [List.length_eq_zero_iff.mp none])
  rw [List.length_drop]
  omega

theorem writeLoop_input (pending : List Byte) (wt : Int) (world : World Byte) :
    (writeLoop pending wt world).world.input = world.input := by
  have once : ∀ (bytes : List Byte) (world : World Byte), (world.write bytes).2.input = world.input := by
    intro bytes world
    unfold World.write
    split <;> rfl
  induction pending, wt, world using writeLoop.induct with
  | case1 pending wt world empty => rw [writeLoop, if_pos empty]
  | case2 pending wt world filled written positive ih =>
    rw [writeLoop, if_neg filled]
    simp only [written] at positive ih
    simp only [positive, if_true, ih, once]
  | case3 pending wt world filled written stopped =>
    rw [writeLoop, if_neg filled]
    simp only [written] at stopped
    simp only [stopped, if_false, once]

theorem read_shorter {size : Nat} {world : World Byte} (positive : 0 < (world.read size).rd) :
    (world.read size).world.input.length < world.input.length := by
  rcases read_cases size world with ⟨_, same, _⟩ | ⟨_, count, same, _, within, _⟩
  · rw [same] at positive
    cases positive
  · rw [same] at positive ⊢
    simp only [List.length_drop] at positive ⊢
    omega

structure Copied (Byte : Type) where
  rd : Int
  wt : Int
  world : World Byte

/-- `while (wt >= 0 && (rd = read(fd, buffer, size)) > 0)` around the other loop. -/
def copyLoop (size : Nat) (rd wt : Int) (world : World Byte) : Copied Byte :=
  if wt < 0 then ⟨rd, wt, world⟩
  else
    let got := world.read size
    if 0 < got.rd then
      let written := writeLoop got.buffer wt got.world
      copyLoop size written.pending.length written.wt written.world
    else ⟨got.rd, wt, got.world⟩
termination_by world.input.length
decreasing_by
  rename_i positive
  rw [writeLoop_input]
  exact read_shorter positive

structure Carries (world : World Byte) (held : List Byte) (calls : List (Call × Answer)) (after : World Byte)
    (left : List Byte) : Prop where
  moves : Moves world calls after
  transfers : ∀ entry ∈ calls, entry.1 = .read ∨ entry.1 = .write
  kept : after.output ++ (left ++ after.input) = world.output ++ (held ++ world.input)
  grows : world.output <+: after.output

variable {world middle after : World Byte} {held left rest : List Byte} {first second : List (Call × Answer)} {size : Nat}
  {rd wt : Int}

theorem carries_refl (world : World Byte) (held : List Byte) : Carries world held [] world held :=
  ⟨moves_refl world, fun _ member => absurd member List.not_mem_nil, rfl, List.prefix_refl _⟩

theorem Carries.trans (before : Carries world held first middle left) (later : Carries middle left second after rest) :
    Carries world held (first ++ second) after rest where
  moves := before.moves.trans later.moves
  transfers := by
    intro entry member
    rcases List.mem_append.mp member with early | late
    · exact before.transfers entry early
    · exact later.transfers entry late
  kept := later.kept.trans before.kept
  grows := before.grows.trans later.grows

theorem carries_failed {call : Call} {errno : Nat} (transfer : call = .read ∨ call = .write)
    (failed : world.answer = .failed errno) :
    Carries world held [(call, .failed errno)] (world.record call) held := by
  have moves := moves_record world call
  rw [failed] at moves
  exact ⟨moves, by simpa using transfer, rfl, List.prefix_refl _⟩

theorem carries_write {more count : Nat} (moved : world.answer = .moved more) :
    Carries world held [(.write, .moved more)]
      { world.record .write with output := world.output ++ held.take count } (held.drop count) := by
  have moves := moves_record world .write
  rw [moved] at moves
  refine ⟨⟨moves.kernel, moves.history, moves.answers⟩, by simp, ?_, List.prefix_append _ _⟩
  simp only [World.record, List.append_assoc, List.take_append_drop, ← List.append_assoc (held.take count)]

theorem carries_read {more count : Nat} (moved : world.answer = .moved more) :
    Carries world [] [(.read, .moved more)]
      { world.record .read with input := world.input.drop count } (world.input.take count) := by
  have moves := moves_record world .read
  rw [moved] at moves
  refine ⟨⟨moves.kernel, moves.history, moves.answers⟩, by simp, ?_, List.prefix_refl _⟩
  simp only [World.record, List.take_append_drop, List.nil_append]

/-- The inner loop writes all it has unless a call fails. -/
theorem writeLoop_ends (running : 0 ≤ wt) :
    let final := writeLoop held wt world
    ∃ calls, Carries world held calls final.world final.pending ∧
      ((final.pending = [] ∧ 0 ≤ final.wt ∧ Clean calls) ∨ (final.wt = -1 ∧ Fails calls .write final.world.errno)) := by
  induction held, wt, world using writeLoop.induct with
  | case1 pending wt world empty =>
    rw [writeLoop, if_pos empty]
    exact ⟨[], carries_refl world pending, Or.inl ⟨List.isEmpty_iff.mp empty, running, clean_nil⟩⟩
  | case2 pending wt world filled written positive ih =>
    rw [writeLoop, if_neg filled]
    simp only [written] at positive ih
    simp only [positive, if_true]
    rcases write_cases (fun empty => filled (List.isEmpty_iff.mpr empty)) world with ⟨_, same, _⟩ | ⟨more, count, same, moved⟩
    · rw [same] at positive
      cases positive
    · rw [same] at ih ⊢
      obtain ⟨calls, carries, ends⟩ := ih (Int.natCast_nonneg _)
      refine ⟨(.write, .moved more) :: calls, (carries_write moved).trans carries, ?_⟩
      rcases ends with ⟨empty, positive, clean⟩ | ⟨failed, fails⟩
      · exact Or.inl ⟨empty, positive, clean_append.mpr ⟨clean_moved, clean⟩⟩
      · exact Or.inr ⟨failed, fails.append clean_moved⟩
  | case3 pending wt world filled written stopped =>
    rw [writeLoop, if_neg filled]
    simp only [written] at stopped
    simp only [stopped, if_false]
    rcases write_cases (fun empty => filled (List.isEmpty_iff.mpr empty)) world with ⟨errno, same, failed⟩ | ⟨_, _, same, _⟩
    · rw [same]
      refine ⟨[(.write, .failed errno)], carries_failed (Or.inr rfl) failed, Or.inr ⟨rfl, ?_⟩⟩
      rw [record_errno world .write failed]
      exact fails_single
    · rw [same] at stopped
      exact absurd (Int.natCast_pos.mpr (Nat.succ_pos _)) stopped

theorem copyLoop_stopped (stopped : wt < 0) : copyLoop size rd wt world = ⟨rd, wt, world⟩ := by
  rw [copyLoop, if_pos stopped]

/-- The outer loop copies the rest of the input unless a call fails; then it stops at once. -/
theorem copyLoop_ends (positive : 0 < size) (running : 0 ≤ wt) :
    let final := copyLoop size rd wt world
    ∃ calls left, Carries world [] calls final.world left ∧
      ((final.rd = 0 ∧ 0 ≤ final.wt ∧ final.world.output = world.output ++ world.input ∧ Clean calls) ∨
        (final.rd = -1 ∧ Fails calls .read final.world.errno) ∨
        (0 ≤ final.rd ∧ final.wt = -1 ∧ Fails calls .write final.world.errno)) := by
  induction rd, wt, world using copyLoop.induct size with
  | case1 rd wt world stopped => exact absurd running (by omega)
  | case2 rd wt world _ got some written ih =>
    rw [copyLoop, if_neg (by omega)]
    simp only [got] at some
    simp only [written, got] at ih
    simp only [some, if_true]
    rcases read_cases size world with ⟨_, same, _⟩ | ⟨more, count, same, moved, _⟩
    · rw [same] at some
      cases some
    · rw [same] at ih ⊢
      simp only at ih ⊢
      have begun : Carries world [] _ _ _ := @carries_read _ world more count moved
      obtain ⟨calls, carries, ends⟩ := @writeLoop_ends _ { world.record .read with input := world.input.drop count }
        (world.input.take count) wt running
      generalize writeLoop (world.input.take count) wt { world.record .read with input := world.input.drop count } =
        written at carries ends ih ⊢
      -- The inner loop has put out the whole buffer, or a `write` has failed.
      rcases ends with ⟨empty, onwards, clean⟩ | ⟨failed, fails⟩
      · obtain ⟨later, left, rest, ends⟩ := ih onwards
        rw [empty] at carries
        have sofar : Clean ([(.read, .moved more)] ++ calls) := clean_append.mpr ⟨clean_moved, clean⟩
        have whole := (begun.trans carries).trans rest
        refine ⟨_, left, whole, ?_⟩
        rcases ends with ⟨ended, positive, output, clean⟩ | ⟨failed, fails⟩ | ⟨some, failed, fails⟩
        · refine Or.inl ⟨ended, positive, ?_, clean_append.mpr ⟨sofar, clean⟩⟩
          rw [output]
          simpa using (begun.trans carries).kept
        · exact Or.inr (Or.inl ⟨failed, fails.append sofar⟩)
        · exact Or.inr (Or.inr ⟨some, failed, fails.append sofar⟩)
      -- The bytes in the buffer are lost, and the loop ends.
      · rw [copyLoop_stopped (by omega)]
        exact ⟨_, written.pending, begun.trans carries,
          Or.inr (Or.inr ⟨Int.natCast_nonneg _, failed, fails.append clean_moved⟩)⟩
  | case3 rd wt world _ got none =>
    rw [copyLoop, if_neg (by omega)]
    simp only [got] at none
    simp only [none, if_false]
    rcases read_cases size world with ⟨errno, same, failed⟩ | ⟨more, count, same, moved, _, ended⟩
    · rw [same]
      refine ⟨[(.read, .failed errno)], [], carries_failed (Or.inl rfl) failed, Or.inr (Or.inl ⟨rfl, ?_⟩)⟩
      rw [record_errno world .read failed]
      exact fails_single
    · rw [same] at none ⊢
      have zero : count = 0 := by
        simp only at none
        omega
      have empty : world.input = [] := (ended zero).resolve_left positive.ne'
      refine ⟨_, _, carries_read moved, Or.inl ⟨?_, running, ?_, clean_moved⟩⟩
      · simp [zero]
      · simp [empty, World.record]

theorem Carries.part {calls : List (Call × Answer)} (carries : Carries world [] calls after left) :
    after.output <+: world.output ++ world.input :=
  ⟨left ++ after.input, carries.kept⟩

end Loops
end PosixC.Foundation.Transfers
