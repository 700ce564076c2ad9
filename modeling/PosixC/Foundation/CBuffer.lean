import PosixC.Foundation.CText

/-! A C string inside a buffer.

Reads and writes outside the buffer fail, and every place that is read or written
is remembered, so that a function can be shown to stay in front of the NUL.
-/

set_option autoImplicit false

namespace PosixC.Foundation.CBuffer

open CText

structure Memory where
  bytes : Bytes
  touched : List Nat

variable (memory : Memory)

def Memory.load (place : Nat) : Option (UInt8 × Memory) :=
  memory.bytes[place]?.map fun byte => (byte, { memory with touched := memory.touched ++ [place] })

def Memory.store (place : Nat) (byte : UInt8) : Option Memory :=
  if place < memory.bytes.length then
    some ⟨memory.bytes.set place byte, memory.touched ++ [place]⟩
  else none

def Memory.string (start : Nat) : Option (Bytes × Memory) :=
  let text := cString (memory.bytes.drop start)
  if start + text.length < memory.bytes.length then
    some (text, { memory with touched := memory.touched ++ List.range' start (text.length + 1) })
  else none

/-- Reading a string that a NUL cuts off for the moment. -/
def Memory.stringUpTo (start stop : Nat) : Option (Bytes × Memory) := do
  let (tmp, memory) ← memory.load stop
  let memory ← memory.store stop 0
  let (text, memory) ← memory.string start
  let memory ← memory.store stop tmp
  some (text, memory)

/-- The buffer starts with the line, and nothing behind its NUL has been touched. -/
structure Memory.Holds (line slack : Bytes) : Prop where
  bytes : memory.bytes = line ++ 0 :: slack
  touched : ∀ place ∈ memory.touched, place ≤ line.length

variable {memory} {line slack : Bytes}

theorem cString_append (text rest : Bytes) (plain : 0 ∉ text) : cString (text ++ 0 :: rest) = text := by
  have nonzero : ∀ byte ∈ text, byte ≠ 0 := fun byte member zero => plain (zero ▸ member)
  unfold cString
  rw [List.takeWhile_append_of_pos (by simpa using nonzero), List.takeWhile_cons_of_neg (by simp), List.append_nil]

theorem string_some {text rest : Bytes} {start : Nat} (shape : memory.bytes = text ++ 0 :: rest) (plain : 0 ∉ text)
    (inside : start ≤ text.length) :
    memory.string start = some (text.drop start,
      { memory with touched := memory.touched ++ List.range' start (text.length - start + 1) }) := by
  have found : cString (memory.bytes.drop start) = text.drop start := by
    rw [shape, List.drop_append_of_le_length inside]
    exact cString_append _ _ fun member => plain (List.mem_of_mem_drop member)
  unfold Memory.string
  rw [found, shape]
  simp only [List.length_drop, List.length_append, List.length_cons]
  rw [if_pos (by omega)]

theorem Memory.Holds.string (holds : memory.Holds line slack) (plain : 0 ∉ line) {start : Nat}
    (inside : start ≤ line.length) :
    ∃ after, memory.string start = some (line.drop start, after) ∧ after.Holds line slack := by
  refine ⟨_, string_some holds.bytes plain inside, holds.bytes, fun place member => ?_⟩
  rcases List.mem_append.mp member with earlier | now
  · exact holds.touched place earlier
  · have bounds := List.mem_range'_1.mp now
    omega

theorem Memory.Holds.stringUpTo (holds : memory.Holds line slack) (plain : 0 ∉ line) {start stop : Nat}
    (ordered : start ≤ stop) (inside : stop ≤ line.length) :
    ∃ after, memory.stringUpTo start stop = some ((line.take stop).drop start, after) ∧ after.Holds line slack := by
  have bound : stop < memory.bytes.length := by
    rw [holds.bytes, List.length_append, List.length_cons]
    omega
  have front : memory.bytes.take stop = line.take stop := by
    rw [holds.bytes, List.take_append_of_le_length inside]
  have cut : memory.bytes.set stop 0 = line.take stop ++ 0 :: memory.bytes.drop (stop + 1) := by
    rw [List.set_eq_take_append_cons_drop, if_pos bound, front]
  have length : (line.take stop).length = stop := List.length_take_of_le inside
  have read : (⟨memory.bytes.set stop 0, memory.touched ++ [stop] ++ [stop]⟩ : Memory).string start = _ :=
    string_some cut (fun member => plain (List.mem_of_mem_take member)) (ordered.trans length.ge)
  have back : (memory.bytes.set stop 0).set stop memory.bytes[stop] = memory.bytes := by
    rw [List.set_set, List.set_getElem_self]
  refine ⟨⟨memory.bytes, memory.touched ++ [stop] ++ [stop] ++ List.range' start (stop - start + 1) ++ [stop]⟩, ?_,
    holds.bytes, fun place member => ?_⟩
  · unfold Memory.stringUpTo
    simp only [Memory.load, List.getElem?_eq_getElem bound, Option.map_some, Option.bind_eq_bind, Option.bind_some,
      Memory.store, if_pos bound, read, List.length_set, back, length]
  · simp only [List.mem_append, List.mem_singleton, List.mem_range'_1] at member
    rcases member with (((earlier | here) | here) | now) | here
    · exact holds.touched place earlier
    all_goals omega

end PosixC.Foundation.CBuffer
