import PosixC.Foundation.CBuffer
import PosixC.Foundation.Search

/-! The matching loop of hw08/ptgrep.c.

Every turn of the loop searches what is left of the line, prints the line, and on
a terminal cuts it with two temporary NULs to print the match in colour.
-/

set_option autoImplicit false

namespace PosixC.Ptgrep

open Foundation Foundation.CText Foundation.CBuffer

structure SharedThreadData where
  string : Bytes
  lineNumber : Bool
  insensitive : Bool

structure ThreadData where
  fileName : Bytes
  shared : SharedThreadData

section Searching

def tolower (byte : UInt8) : UInt8 := if 65 ≤ byte ∧ byte ≤ 90 then byte + 32 else byte

/-- Where the string starts that the function returns, `none` for NULL. -/
def strstr (haystack needle : Bytes) : Option Nat := Search.find id needle haystack

def strcasestr (haystack needle : Bytes) : Option Nat := Search.find tolower needle haystack

def stringFind (insensitive : Bool) : Bytes → Bytes → Option Nat := if insensitive then strcasestr else strstr

def key (insensitive : Bool) : UInt8 → UInt8 := if insensitive then tolower else id

theorem stringFind_eq (insensitive : Bool) (haystack needle : Bytes) :
    stringFind insensitive haystack needle = Search.find (key insensitive) needle haystack := by
  cases insensitive <;> rfl

end Searching

section Printing

def ascii (text : String) : Bytes := text.toList.map fun char => char.toNat.toUInt8

def printLong (value : Nat) : Bytes :=
  if value < 2 ^ 63 then (Nat.toDigits 10 value).map fun char => char.toNat.toUInt8
  else 45 :: (Nat.toDigits 10 (2 ^ 64 - value)).map fun char => char.toNat.toUInt8

def magenta : Bytes := 27 :: ascii "[35m"

def reset : Bytes := 27 :: ascii "[0m"

def header (searcher : ThreadData) (lineNum : Nat) : List Bytes :=
  (searcher.fileName ++ ascii ": ") ::
    if searcher.shared.lineNumber then [printLong lineNum ++ ascii ": "] else []

end Printing

section Loop

/-- The variables of the loop. `lineCopy` is an offset into the buffer `line`, and
`printed` keeps the texts of every turn apart. -/
structure Loop where
  memory : Memory
  lineCopy : Nat
  found : Bool
  printed : List (List Bytes)

inductive Progress where
  | running (loop : Loop)
  | stopped (loop : Loop)

def Progress.loop : Progress → Loop
  | .running loop | .stopped loop => loop

/-- The test of the loop and its body. A place outside the buffer has no outcome. -/
def turn (isatty : Bool) (searcher : ThreadData) (lineNum : Nat) (loop : Loop) : Option Progress := do
  let string := searcher.shared.string
  let (haystack, memory) ← loop.memory.string loop.lineCopy
  match stringFind searcher.shared.insensitive haystack string with
  | none => some (.stopped { loop with memory := memory })
  | some distance =>
      let location := loop.lineCopy + distance
      let head := header searcher lineNum
      if isatty then
        let offset := location - loop.lineCopy
        let (before, memory) ← memory.stringUpTo 0 (loop.lineCopy + offset)
        let lineCopy := location
        let (marked, memory) ← memory.stringUpTo lineCopy (lineCopy + string.length)
        let (behind, memory) ← memory.string (lineCopy + string.length)
        let lineCopy := lineCopy + 1
        let (line, memory) ← memory.string 0
        let next := ⟨memory, lineCopy, true, loop.printed ++ [head ++ [before, magenta ++ marked ++ reset, behind]]⟩
        -- The empty string is also found at the very end of the line.
        if lineCopy > line.length then some (.stopped next) else some (.running next)
      else
        -- The `continue` comes before anything that advances `line_copy`.
        let (line, memory) ← memory.string 0
        some (.running ⟨memory, loop.lineCopy, true, loop.printed ++ [head ++ [line]]⟩)

def turns (isatty : Bool) (searcher : ThreadData) (lineNum : Nat) : Nat → Progress → Option Progress
  | 0, progress => some progress
  | _ + 1, .stopped loop => some (.stopped loop)
  | count + 1, .running loop => (turn isatty searcher lineNum loop).bind (turns isatty searcher lineNum count)

/-- The buffer that `getline` has filled, with whatever its allocation holds behind the NUL. -/
def Loop.start (line slack : Bytes) : Loop := ⟨⟨line ++ 0 :: slack, []⟩, 0, false, []⟩

end Loop

section Turns

variable {searcher : ThreadData} (lineNum : Nat) {loop : Loop} {line slack : Bytes}

def around (line : Bytes) (length place : Nat) : List Bytes :=
  [line.take place, magenta ++ (line.drop place).take length ++ reset, line.drop (place + length)]

theorem start_holds (line slack : Bytes) : (Loop.start line slack).memory.Holds line slack :=
  ⟨rfl, fun _ member => nomatch member⟩

def Loop.shown (searcher : ThreadData) (lineNum : Nat) (line : Bytes) (loop : Loop) (memory : Memory) (place : Nat) :
    Loop :=
  ⟨memory, place + 1, true,
    loop.printed ++ [header searcher lineNum ++ around line searcher.shared.string.length place]⟩

theorem turn_absent (isatty : Bool) (holds : loop.memory.Holds line slack) (plain : 0 ∉ line)
    (inside : loop.lineCopy ≤ line.length)
    (absent : stringFind searcher.shared.insensitive (line.drop loop.lineCopy) searcher.shared.string = none) :
    ∃ memory, turn isatty searcher lineNum loop = some (.stopped { loop with memory := memory }) ∧
      memory.Holds line slack := by
  obtain ⟨memory, read, kept⟩ := holds.string plain inside
  refine ⟨memory, ?_, kept⟩
  simp only [turn, read, Option.bind_eq_bind, Option.bind_some, absent]

theorem turn_redirected (holds : loop.memory.Holds line slack) (plain : 0 ∉ line)
    (inside : loop.lineCopy ≤ line.length) {distance : Nat}
    (found : stringFind searcher.shared.insensitive (line.drop loop.lineCopy) searcher.shared.string = some distance) :
    ∃ memory, turn false searcher lineNum loop =
        some (.running ⟨memory, loop.lineCopy, true, loop.printed ++ [header searcher lineNum ++ [line]]⟩) ∧
      memory.Holds line slack := by
  obtain ⟨searched, read, still⟩ := holds.string plain inside
  obtain ⟨memory, whole, kept⟩ := still.string plain (Nat.zero_le _)
  refine ⟨memory, ?_, kept⟩
  simp only [turn, read, whole, Option.bind_eq_bind, Option.bind_some, found]
  rfl

/-- The match fits into the line, so both cuts and the rest behind it do. -/
theorem turn_highlighted (holds : loop.memory.Holds line slack) (plain : 0 ∉ line)
    (inside : loop.lineCopy ≤ line.length) {distance : Nat}
    (found : stringFind searcher.shared.insensitive (line.drop loop.lineCopy) searcher.shared.string = some distance)
    {place : Nat} (at_ : place = loop.lineCopy + distance) :
    ∃ memory, memory.Holds line slack ∧ turn true searcher lineNum loop =
      some (if place + 1 > line.length then .stopped (loop.shown searcher lineNum line memory place)
        else .running (loop.shown searcher lineNum line memory place)) := by
  have fits : place + searcher.shared.string.length ≤ line.length := by
    rw [stringFind_eq] at found
    obtain ⟨bound, begins, _⟩ := Search.find_some found
    have short := Search.length_of_begins begins
    rw [List.length_drop, List.length_drop] at short
    rw [List.length_drop] at bound
    omega
  obtain ⟨searched, read, first⟩ := holds.string plain inside
  obtain ⟨cut, front, second⟩ := first.stringUpTo plain (Nat.zero_le place) (by omega)
  obtain ⟨marked, middle, third⟩ := second.stringUpTo plain (Nat.le_add_right place _) fits
  obtain ⟨rest, behind, fourth⟩ := third.string plain fits
  obtain ⟨memory, whole, kept⟩ := fourth.string plain (Nat.zero_le _)
  refine ⟨memory, kept, ?_⟩
  simp only [turn, read, Option.bind_eq_bind, Option.bind_some, found, if_true, ← at_, front,
    middle, behind, whole, List.drop_zero, List.drop_take, Nat.add_sub_cancel_left, Loop.shown,
    around]
  split <;> rfl

end Turns
end PosixC.Ptgrep
