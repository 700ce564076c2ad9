import Mathlib.Data.List.Basic
import Mathlib.Data.Nat.ModEq

/-! Ring buffers laid out in a byte array.

A ring of `capacity` slots remembers the last `capacity` values ever written.
`History` says so against the list of all values, which also tells what a slot
contains that is about to be overwritten. `slotAt` and `splice` give the layout.
-/

set_option autoImplicit false

namespace PosixC.Foundation.Ring

section History

variable {α : Type}

/-- Value number `i` was written to slot `i % capacity`; unwritten slots are blank. -/
structure History (capacity : Nat) (blank : α) (slots : Nat → α) (values : List α) : Prop where
  written : ∀ i (bound : i < values.length), values.length ≤ i + capacity → slots (i % capacity) = values[i]
  unwritten : ∀ j, values.length ≤ j → j < capacity → slots j = blank

theorem history_nil (capacity : Nat) {blank : α} {slots : Nat → α} (blanks : ∀ j, j < capacity → slots j = blank) :
    History capacity blank slots [] :=
  ⟨fun _ bound => absurd bound (Nat.not_lt_zero _), fun j _ bound => blanks j bound⟩

theorem mod_ne_of_close {capacity i n : Nat} (below : i < n) (close : n < i + capacity) :
    i % capacity ≠ n % capacity := by
  intro same
  have divides : capacity ∣ n - i := (Nat.modEq_iff_dvd' below.le).mp same
  have := Nat.le_of_dvd (by omega) divides
  omega

/-- Writing the next value overwrites exactly the slot the oldest one had. -/
theorem History.write {capacity : Nat} {blank : α} {slots after : Nat → α} {values : List α}
    (history : History capacity blank slots values) (positive : 0 < capacity) (value : α)
    (here : after (values.length % capacity) = value)
    (others : ∀ j, j < capacity → j ≠ values.length % capacity → after j = slots j) :
    History capacity blank after (values ++ [value]) := by
  constructor
  · intro i bound recent
    simp only [List.length_append, List.length_singleton] at bound recent
    by_cases last : i = values.length
    · subst i
      simpa using here
    -- The other values that count lie less than a capacity back, in other slots.
    · have earlier : i < values.length := by omega
      rw [others _ (Nat.mod_lt _ positive) (mod_ne_of_close earlier (by omega)),
        history.written i earlier (by omega), List.getElem_append_left earlier]
  · intro j past bound
    simp only [List.length_append, List.length_singleton] at past
    have different : j ≠ values.length % capacity := by
      rw [Nat.mod_eq_of_lt (by omega)]
      omega
    rw [others j bound different, history.unwritten j (by omega) bound]

def stale (capacity : Nat) (blank : α) (values : List α) : α :=
  if values.length < capacity then blank else (values[values.length - capacity]?).getD blank

theorem History.next_slot {capacity : Nat} {blank : α} {slots : Nat → α} {values : List α}
    (history : History capacity blank slots values) (positive : 0 < capacity) :
    slots (values.length % capacity) = stale capacity blank values := by
  unfold stale
  split
  · next few => rw [Nat.mod_eq_of_lt few, history.unwritten _ (Nat.le_refl _) few]
  · next many =>
    have bound : values.length - capacity < values.length := by omega
    have same : values.length % capacity = (values.length - capacity) % capacity :=
      Nat.mod_eq_sub_mod (by omega)
    rw [same, history.written _ bound (by omega), List.getElem?_eq_getElem bound]
    rfl

end History

section Layout

variable {α : Type}

def slotAt (size : Nat) (memory : List α) (index : Nat) : List α := (memory.drop (index * size)).take size

def splice (memory : List α) (offset : Nat) (source : List α) : List α :=
  memory.take offset ++ source ++ memory.drop (offset + source.length)

theorem length_splice {memory source : List α} {offset : Nat} (inside : offset + source.length ≤ memory.length) :
    (splice memory offset source).length = memory.length := by
  simp only [splice, List.length_append, List.length_take, List.length_drop]
  omega

theorem splice_getElem? {memory source : List α} {offset : Nat} (inside : offset + source.length ≤ memory.length)
    (i : Nat) : (splice memory offset source)[i]? =
      if offset ≤ i ∧ i < offset + source.length then source[i - offset]? else memory[i]? := by
  have front : (memory.take offset).length = offset := by
    rw [List.length_take]; omega
  simp only [splice, List.append_assoc]
  by_cases low : i < offset
  · rw [List.getElem?_append_left (by omega), List.getElem?_take_of_lt low, if_neg (by omega)]
  · rw [List.getElem?_append_right (by omega), front]
    by_cases high : i - offset < source.length
    · rw [List.getElem?_append_left high, if_pos (by omega)]
    · rw [List.getElem?_append_right (by omega), List.getElem?_drop, if_neg (by omega)]
      congr 1
      omega

theorem slotAt_splice {memory source : List α} {size at_ : Nat} (length : source.length = size)
    (inside : at_ * size + size ≤ memory.length) :
    slotAt size (splice memory (at_ * size) source) at_ = source := by
  subst length
  refine List.ext_getElem? fun i => ?_
  simp only [slotAt]
  by_cases bound : i < source.length
  · rw [List.getElem?_take_of_lt bound, List.getElem?_drop, splice_getElem? inside, if_pos (by omega)]
    congr 1
    omega
  · rw [List.getElem?_take_eq_none (by omega), List.getElem?_eq_none (by omega)]

theorem slotAt_splice_of_ne {memory source : List α} {size at_ index : Nat} (length : source.length = size)
    (inside : at_ * size + size ≤ memory.length) (different : index ≠ at_) :
    slotAt size (splice memory (at_ * size) source) index = slotAt size memory index := by
  subst length
  refine List.ext_getElem? fun i => ?_
  simp only [slotAt]
  by_cases bound : i < source.length
  · have apart : ¬ (at_ * source.length ≤ index * source.length + i ∧
        index * source.length + i < at_ * source.length + source.length) := by
      rcases Nat.lt_or_gt_of_ne different with less | greater
      · have := Nat.mul_le_mul_right source.length (show index + 1 ≤ at_ from less)
        rw [Nat.add_mul] at this
        omega
      · have := Nat.mul_le_mul_right source.length (show at_ + 1 ≤ index from greater)
        rw [Nat.add_mul] at this
        omega
    rw [List.getElem?_take_of_lt bound, List.getElem?_drop, splice_getElem? inside, if_neg apart,
      List.getElem?_take_of_lt bound, List.getElem?_drop]
  · rw [List.getElem?_take_eq_none (by omega), List.getElem?_take_eq_none (by omega)]

theorem slotAt_replicate (size count index : Nat) (value : α) (inside : index < count) :
    slotAt size (List.replicate (count * size) value) index = List.replicate size value := by
  have room : index * size + size ≤ count * size := by
    have := Nat.mul_le_mul_right size (show index + 1 ≤ count from inside)
    rwa [Nat.add_mul, Nat.one_mul] at this
  simp only [slotAt, List.drop_replicate, List.take_replicate]
  congr 1
  omega

end Layout
end PosixC.Foundation.Ring
