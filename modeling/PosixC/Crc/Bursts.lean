import PosixC.Crc.Hash

/-! Corruptions that CRC-32 detects.

Two messages whose bits differ within 32 consecutive places only have different
values: the window alone decides the difference of the two remainders, and it is
shorter than the generator.
-/

set_option autoImplicit false

namespace PosixC.Crc

open Foundation

section Differences

variable {first second : List UInt8}

theorem byteBits_injective : Function.Injective byteBits := by
  intro a b same
  refine UInt8.toBitVec_inj.mp (BitVec.eq_of_getLsbD_eq fun i inside => ?_)
  exact List.map_inj_left.mp same i (List.mem_range.mpr inside)

theorem messageBits_injective (same : first.length = second.length)
    (equal : messageBits first = messageBits second) : first = second := by
  induction first generalizing second with
  | nil => exact (List.length_eq_zero_iff.mp same.symm).symm
  | cons byte rest ih =>
    obtain ⟨other, others, rfl⟩ := List.exists_cons_of_length_eq_add_one same.symm
    simp only [messageBits, List.flatMap_cons] at equal
    obtain ⟨bytes, rests⟩ := List.append_inj equal (by simp [byteBits])
    rw [byteBits_injective bytes, ih (by simpa using same) rests]

theorem crc32Finalize_injective : Function.Injective crc32Finalize := by
  intro a b same
  have words := congrArg (fun context : Crc32 => context.hash.toBitVec.reverse) same
  simp only [crc32Finalize, toBitVec_crc32Reverse, BitVec.reverse_reverse_eq, UInt32.toBitVec_not] at words
  have hashes : a.hash = b.hash := UInt32.toBitVec_inj.mp (BitVec.not_inj.mp words)
  cases a
  cases b
  cases hashes
  rfl

/-- Lists that differ only inside a window agree in front of it and behind it. -/
theorem window_split {α : Type} {left right : List α} {start width : Nat}
    (window : ∀ i, left[i]? ≠ right[i]? → start ≤ i ∧ i < start + width) :
    left.take start = right.take start ∧ left.drop (start + width) = right.drop (start + width) := by
  constructor
  · refine List.ext_getElem? fun i => ?_
    rw [List.getElem?_take, List.getElem?_take]
    split
    · by_contra differs
      exact absurd (window i differs).1 (by omega)
    · rfl
  · refine List.ext_getElem? fun i => ?_
    rw [List.getElem?_drop, List.getElem?_drop]
    by_contra differs
    exact absurd (window _ differs).2 (by omega)

/-- A corruption within 32 consecutive bits always changes the value. -/
theorem short_corruption_detected (same : first.length = second.length) (differ : first ≠ second) {start : Nat}
    (window : ∀ i, (messageBits first)[i]? ≠ (messageBits second)[i]? → start ≤ i ∧ i < start + 32) :
    (crc32Finalize (crc32Update crc32Init first)).hash ≠ (crc32Finalize (crc32Update crc32Init second)).hash := by
  intro hashes
  have contexts : crc32Update crc32Init first = crc32Update crc32Init second :=
    crc32Finalize_injective (congrArg Crc32.mk hashes)
  have registers := congrArg (fun context : Crc32 => context.hash.toBitVec) contexts
  simp only [toBitVec_crc32Update] at registers
  obtain ⟨front, back⟩ := window_split window
  have pieces (bits : List Bool) :
      bits = bits.take start ++ (bits.drop start).take 32 ++ bits.drop (start + 32) := by
    rw [List.append_assoc, ← List.drop_drop, List.take_append_drop, List.take_append_drop]
  rw [pieces (messageBits first), pieces (messageBits second), front, back] at registers
  have inside : ((messageBits first).drop start).take 32 = ((messageBits second).drop start).take 32 := by
    refine ShiftRegister.shifts_window (by decide) ?_ (by simp) registers
    simp only [List.length_take, List.length_drop, length_messageBits, same]
  apply differ
  apply messageBits_injective same
  rw [pieces (messageBits first), pieces (messageBits second), front, inside, back]

theorem short_corruption_detected_bit :
    (crc32Finalize (crc32Update crc32Init [1, 2, 3])).hash ≠ (crc32Finalize (crc32Update crc32Init [1, 2, 2])).hash := by
  have front : ∀ i < 16, (messageBits [1, 2, 3])[i]? = (messageBits [1, 2, 2])[i]? := by decide
  have window (i : Nat) (differs : (messageBits [1, 2, 3])[i]? ≠ (messageBits [1, 2, 2])[i]?) :
      16 ≤ i ∧ i < 16 + 32 := by
    have inside : i < 24 := by
      by_contra beyond
      apply differs
      rw [List.getElem?_eq_none (by simpa [length_messageBits] using beyond),
        List.getElem?_eq_none (by simpa [length_messageBits] using beyond)]
    have outside : ¬ i < 16 := fun early => differs (front i early)
    omega
  exact short_corruption_detected rfl (by decide) window

end Differences
end PosixC.Crc
