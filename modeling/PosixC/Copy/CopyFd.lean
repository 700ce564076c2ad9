import PosixC.Foundation.CText
import PosixC.Foundation.SizeT
import PosixC.Foundation.Transfers

/-! The two versions of `copy_fd` in ex10: `slow.c` with a buffer between `read` and
`write`, `fast.c` with `sendfile`.

The source is a regular file that does not change, and the destination is empty
at the start.
-/

set_option autoImplicit false

namespace PosixC.Copy

open Foundation CText Transfers

section Model

def bufferSize : Nat := 64

structure Outcome where
  value : Int
  message : Option (Nat × String)
  world : World UInt8

def Outcome.dest (outcome : Outcome) : Bytes := outcome.world.output

def copyFdSlow (world : World UInt8) : Outcome :=
  let final := copyLoop bufferSize 0 0 world
  if final.rd = -1 then ⟨0, some (final.world.errno, "read"), final.world⟩
  else if final.wt = -1 then ⟨0, some (final.world.errno, "write"), final.world⟩
  else ⟨1, none, final.world⟩

theorem sendfile_le (offset size : Nat) (world : World UInt8) :
    (world.sendfile offset size).1.toNat ≤ min size (world.input.length - offset) := by
  unfold World.sendfile
  split
  · exact Nat.zero_le _
  · exact piece_le _ _

/-- `while ((copied = sendfile(outfd, infd, &offset, size)) > 0)`. -/
def sendLoop (offset size : Nat) (world : World UInt8) : Int × World UInt8 :=
  let sent := world.sendfile offset size
  if 0 < sent.1 then sendLoop (offset + sent.1.toNat) (SizeT.sub size sent.1.toNat) sent.2 else sent
termination_by size
decreasing_by
  rename_i some
  change 0 < (world.sendfile offset size).1 at some
  have within := sendfile_le offset size world
  rw [SizeT.sub_exact (by omega)]
  omega

def copyFdFast (world : World UInt8) : Outcome :=
  let srcinfo := world.invoke .fstat
  if srcinfo.1 ≠ 0 then ⟨0, some (srcinfo.2.errno, "failed to fstat source file"), srcinfo.2⟩
  else
    let size := srcinfo.2.input.length
    let final := sendLoop 0 size srcinfo.2
    if final.1 = -1 then ⟨0, some (final.2.errno, "sendfile failed"), final.2⟩
    else ⟨1, none, final.2⟩

end Model

section Fast

variable {world : World UInt8} {offset size : Nat}

theorem sendfile_cases (offset size : Nat) (world : World UInt8) :
    (∃ errno, world.sendfile offset size = (-1, world.record .sendfile) ∧ world.answer = .failed errno) ∨
      ∃ more, ∃ count : Nat, world.sendfile offset size = ((count : Int),
          { world.record .sendfile with output := world.output ++ (world.input.drop offset).take count }) ∧
        world.answer = .moved more ∧ count ≤ min size (world.input.length - offset) ∧
        (count = 0 → min size (world.input.length - offset) = 0) := by
  cases answered : world.answer with
  | failed errno => exact Or.inl ⟨errno, by simp [World.sendfile, answered], rfl⟩
  | moved more =>
    exact Or.inr ⟨more, piece more (min size (world.input.length - offset)), by simp [World.sendfile, answered], rfl,
      piece_le _ _, piece_zero.mp⟩

theorem moves_sendfile {more : Nat} (moved : world.answer = .moved more) (output : Bytes) :
    Moves world [(.sendfile, .moved more)] { world.record .sendfile with output := output } := by
  have moves := moves_record world .sendfile
  rw [moved] at moves
  exact ⟨moves.kernel, moves.history, moves.answers⟩

/-- What was sent from the offset on, and the size that is left. -/
theorem sendLoop_ends (count : offset + size = world.input.length) :
    let final := sendLoop offset size world
    ∃ calls, Moves world calls final.2 ∧
      ((final.1 = 0 ∧ final.2.output = world.output ++ world.input.drop offset ∧ Clean calls) ∨
        (final.1 = -1 ∧ final.2.output <+: world.output ++ world.input.drop offset ∧
          Fails calls .sendfile final.2.errno)) := by
  induction offset, size, world using sendLoop.induct with
  | case1 offset size world sent some ih =>
    rw [sendLoop]
    simp only [sent] at some ih
    simp only [some, if_true]
    rcases sendfile_cases offset size world with ⟨_, same, _⟩ | ⟨more, copied, same, moved, within, _⟩
    · rw [same] at some
      cases some
    · rw [same] at ih ⊢
      have left : SizeT.sub size copied = size - copied := SizeT.sub_exact (by omega)
      simp only [Int.toNat_natCast, left] at ih ⊢
      obtain ⟨calls, moves, ends⟩ := ih (by simp only [World.record]; omega)
      -- What was sent and what is still to be sent are the rest of the source.
      have all : world.output ++ world.input.drop offset =
          world.output ++ (world.input.drop offset).take copied ++ world.input.drop (offset + copied) := by
        rw [← List.drop_drop, List.append_assoc, List.take_append_drop]
      refine ⟨(.sendfile, .moved more) :: calls, (moves_sendfile moved _).trans moves, ?_⟩
      rcases ends with ⟨ended, output, clean⟩ | ⟨failed, output, fails⟩
      · exact Or.inl ⟨ended, by rw [all]; exact output, clean_append.mpr ⟨clean_moved, clean⟩⟩
      · exact Or.inr ⟨failed, by rw [all]; exact output, fails.append clean_moved⟩
  | case2 offset size world sent none =>
    rw [sendLoop]
    simp only [sent] at none
    simp only [none, if_false]
    rcases sendfile_cases offset size world with ⟨errno, same, failed⟩ | ⟨more, copied, same, moved, _, ended⟩
    · rw [same]
      have moves := moves_record world .sendfile
      rw [failed] at moves
      refine ⟨_, moves, Or.inr ⟨rfl, List.prefix_append _ _, ?_⟩⟩
      rw [record_errno world .sendfile failed]
      exact fails_single
    · rw [same] at none ⊢
      have zero : copied = 0 := by
        simp only at none
        omega
      have short := ended zero
      refine ⟨_, moves_sendfile moved _, Or.inl ⟨by simp [zero], ?_, clean_moved⟩⟩
      rw [zero, List.take_zero, List.drop_of_length_le (by omega)]

end Fast

section Agreement

variable {kernel : Kernel} {source : Bytes}

def text : Call → String
  | .fstat => "failed to fstat source file"
  | .sendfile => "sendfile failed"
  | .read => "read"
  | _ => "write"

/-- Everything is copied unless one of the calls fails that the kernel has answered. Then a part
is copied from the start, that call was the last one, and it is reported. -/
structure Copies (kernel : Kernel) (source : Bytes) (outcome : Outcome) : Prop where
  answered : outcome.world.history.map Prod.snd = (List.range outcome.world.history.length).map kernel
  whole : Clean outcome.world.history → outcome.value = 1 ∧ outcome.dest = source ∧ outcome.message = none
  failed : ¬ Clean outcome.world.history → outcome.value = 0 ∧ outcome.dest <+: source ∧
    ∃ call errno, Fails outcome.world.history call errno ∧ outcome.message = some (errno, text call)

theorem Copies.of_clean {outcome : Outcome} {calls : List (Call × Answer)}
    (moves : Moves (World.start kernel source) calls outcome.world) (clean : Clean calls) (value : outcome.value = 1)
    (dest : outcome.dest = source) (message : outcome.message = none) : Copies kernel source outcome := by
  obtain ⟨same, answered⟩ := moves.answered
  exact ⟨answered, fun _ => ⟨value, dest, message⟩, fun broken => absurd (same ▸ clean) broken⟩

theorem Copies.of_fails {outcome : Outcome} {calls : List (Call × Answer)} {call : Call} {errno : Nat}
    (moves : Moves (World.start kernel source) calls outcome.world) (fails : Fails calls call errno)
    (value : outcome.value = 0) (dest : outcome.dest <+: source) (message : outcome.message = some (errno, text call)) :
    Copies kernel source outcome := by
  obtain ⟨same, answered⟩ := moves.answered
  refine ⟨answered, fun clean => absurd (same ▸ clean) fails.not_clean, fun _ => ⟨value, dest, call, errno, ?_, message⟩⟩
  rw [same]
  exact fails

theorem copyFdSlow_copies (kernel : Kernel) (source : Bytes) :
    Copies kernel source (copyFdSlow (World.start kernel source)) := by
  obtain ⟨calls, left, carries, ends⟩ := @copyLoop_ends _ (World.start kernel source) bufferSize 0 0 (by decide) (Int.le_refl 0)
  have dest : (copyLoop bufferSize 0 0 (World.start kernel source)).world.output <+: source := carries.part
  unfold copyFdSlow
  rcases ends with ⟨rd, wt, output, clean⟩ | ⟨rd, fails⟩ | ⟨some, wt, fails⟩
  · rw [if_neg (by omega), if_neg (by omega)]
    exact .of_clean carries.moves clean rfl output rfl
  · rw [if_pos rd]
    exact .of_fails carries.moves fails rfl dest rfl
  · rw [if_neg (by omega), if_pos wt]
    exact .of_fails carries.moves fails rfl dest rfl

theorem copyFdFast_copies (kernel : Kernel) (source : Bytes) :
    Copies kernel source (copyFdFast (World.start kernel source)) := by
  have stat := moves_record (World.start kernel source) .fstat
  unfold copyFdFast
  rcases invoke_cases .fstat (World.start kernel source) with ⟨errno, same, failed⟩ | ⟨more, same, moved⟩
  · rw [same, if_pos (by simp)]
    rw [failed] at stat
    have reported := record_errno (World.start kernel source) .fstat failed
    exact .of_fails stat fails_single rfl List.nil_prefix (by rw [reported]; rfl)
  · rw [same, if_neg (by simp)]
    rw [moved] at stat
    simp only
    obtain ⟨calls, moves, ends⟩ := @sendLoop_ends ((World.start kernel source).record .fstat) 0
      ((World.start kernel source).record .fstat).input.length (Nat.zero_add _)
    rcases ends with ⟨ended, output, clean⟩ | ⟨failed, output, fails⟩
    · rw [if_neg (by omega)]
      exact .of_clean (stat.trans moves) (clean_append.mpr ⟨clean_moved, clean⟩) rfl output rfl
    · rw [if_pos failed]
      exact .of_fails (stat.trans moves) (fails.append clean_moved) rfl output rfl

/-- Both versions copy, whatever their kernels do. -/
theorem copies_agree (slow fast : Kernel) (source : Bytes) :
    Copies slow source (copyFdSlow (World.start slow source)) ∧
      Copies fast source (copyFdFast (World.start fast source)) :=
  ⟨copyFdSlow_copies slow source, copyFdFast_copies fast source⟩

def fullDisk : Kernel := fun call => if call = 3 then .failed 28 else .moved 1

theorem copies_agree_fullDisk :
    (copyFdSlow (World.start fullDisk [1, 2, 3, 4, 5])).message = some (28, "write") ∧
    (copyFdSlow (World.start fullDisk [1, 2, 3, 4, 5])).dest = [1, 2] ∧
    (copyFdFast (World.start fullDisk [1, 2, 3, 4, 5])).message = some (28, "sendfile failed") ∧
    (copyFdFast (World.start fullDisk [1, 2, 3, 4, 5])).dest = [1, 2, 3, 4] ∧
    Copies fullDisk [1, 2, 3, 4, 5] (copyFdSlow (World.start fullDisk [1, 2, 3, 4, 5])) ∧
    Copies fullDisk [1, 2, 3, 4, 5] (copyFdFast (World.start fullDisk [1, 2, 3, 4, 5])) := by
  refine ⟨?_, ?_, ?_, ?_, copies_agree fullDisk fullDisk [1, 2, 3, 4, 5]⟩
  · simp [copyFdSlow, copyLoop, writeLoop, World.start, World.read, World.write, World.record, World.answer, fullDisk, piece,
      bufferSize]
  · simp [copyFdSlow, copyLoop, writeLoop, World.start, World.read, World.write, World.record, World.answer, fullDisk, piece,
      bufferSize, Outcome.dest]
  · simp [copyFdFast, sendLoop, World.start, World.invoke, World.sendfile, World.record, World.answer, fullDisk, piece, SizeT.sub]
  · simp [copyFdFast, sendLoop, World.start, World.invoke, World.sendfile, World.record, World.answer, fullDisk, piece, SizeT.sub,
      Outcome.dest]

end Agreement
end PosixC.Copy
