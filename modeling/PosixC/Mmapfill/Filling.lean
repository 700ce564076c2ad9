import Mathlib.Data.List.Basic
import Mathlib.Tactic.Linarith
import PosixC.Foundation.CText
import PosixC.Foundation.SizeT

/-! The file that ex13/mmapfill writes through a mapping: its words count up from zero. -/

set_option autoImplicit false

namespace PosixC.Mmapfill

open Foundation Foundation.CText

def word (value : Nat) : Bytes := (List.range 8).map fun k => UInt8.ofNat (value / 256 ^ k)

/-- `((size_t*) mem)[ix] = value`; nothing is defined outside of the mapping. -/
def store (mem : Bytes) (ix value : Nat) : Option Bytes :=
  if 8 * ix + 8 ≤ mem.length then some (mem.take (8 * ix) ++ word value ++ mem.drop (8 * ix + 8)) else none

def fill (mem : Bytes) (ix : Nat) : Nat → Option Bytes
  | 0 => some mem
  | count + 1 =>
      match store mem ix ix with
      | none => none
      | some mem => fill mem (ix + 1) count

/-- Which system calls succeed. `mmap` never maps nothing. -/
structure Kernel where
  opens : Bool
  truncates : Bool
  maps : Bool

inductive Status where
  | success | failure
  deriving DecidableEq, Repr

/-- `ftruncate`: what is added to the file is zero. -/
def truncate (file : Bytes) (length : Nat) : Bytes := file.take length ++ List.replicate (length - file.length) 0

/-- `blocks * pagesize > 1G`, as the program tests it. -/
def tooMany (pagesize blocks : Nat) : Bool := SizeT.mul 1024 (1024 * 1024 / pagesize) < blocks

/-- The status and the file, as `open` has found or made it, at the end. Only an access
outside of the mapping has no result. -/
def mmapfill (pagesize : Nat) (kernel : Kernel) (argument file : Bytes) : Option (Status × Bytes) :=
  let (number, endp) := strtol10 argument
  let blocks := SizeT.ofInt number
  if endp ≠ [] then some (.failure, file)
  else if tooMany pagesize blocks then some (.failure, file)
  else
    let length := SizeT.mul pagesize blocks
    if kernel.opens = false then some (.failure, file)
    else if kernel.truncates = false then some (.failure, file)
    else
      let file := truncate file length
      if kernel.maps = false ∨ length = 0 then some (.failure, file)
      else (fill file 0 (length / 8)).map fun mem => (.success, mem)

def words (count : Nat) : Bytes := (List.range count).flatMap word

@[simp] theorem length_word (value : Nat) : (word value).length = 8 := rfl

theorem length_words (count : Nat) : (words count).length = 8 * count := by
  induction count with
  | zero => rfl
  | succ count ih =>
    simp only [words, List.range_succ, List.flatMap_append, List.flatMap_singleton, List.length_append, length_word] at ih ⊢
    omega

theorem words_succ (count : Nat) : words (count + 1) = words count ++ word count := by
  simp [words, List.range_succ]

theorem store_next {count : Nat} {rest : Bytes} (room : 8 ≤ rest.length) :
    store (words count ++ rest) count count = some (words (count + 1) ++ rest.drop 8) := by
  have length := length_words count
  have fits : 8 * count + 8 ≤ (words count ++ rest).length := by
    rw [List.length_append]
    omega
  rw [store, if_pos fits, words_succ, List.take_left' length, ← List.drop_drop, List.drop_left' length]

theorem fill_words {count done : Nat} {rest : Bytes} (room : 8 * count ≤ rest.length) :
    fill (words done ++ rest) done count = some (words (done + count) ++ rest.drop (8 * count)) := by
  induction count generalizing done rest with
  | zero => rfl
  | succ count ih =>
    have first : 8 ≤ rest.length := by omega
    have later : 8 * count ≤ (rest.drop 8).length := by
      rw [List.length_drop]
      omega
    rw [fill, store_next first]
    simp only
    rw [ih later, List.drop_drop, show done + 1 + count = done + (count + 1) by omega,
      show 8 + 8 * count = 8 * (count + 1) by omega]

theorem length_truncate (file : Bytes) (length : Nat) : (truncate file length).length = length := by
  simp only [truncate, List.length_append, List.length_take, List.length_replicate]
  omega

theorem tooMany_iff {pagesize blocks : Nat} (divides : pagesize ∣ 1024 * 1024) :
    tooMany pagesize blocks = true ↔ 1024 * 1024 * 1024 < pagesize * blocks := by
  obtain ⟨count, whole⟩ := divides
  have positive : 0 < pagesize := Nat.pos_of_ne_zero fun zero => by simp [zero] at whole
  have small : count ≤ 1024 * 1024 := Nat.le_of_dvd (by decide) ⟨pagesize, by rw [whole, Nat.mul_comm]⟩
  have exact : SizeT.mul 1024 count = 1024 * count := SizeT.mul_exact (by omega)
  rw [tooMany, whole, Nat.mul_div_cancel_left count positive, exact, decide_eq_true_eq,
    ← Nat.mul_lt_mul_left positive]
  constructor <;> intro less <;> nlinarith

def wordValue (bytes : Bytes) : Nat := (bytes.take 8).foldr (fun byte value => byte.toNat + 256 * value) 0

theorem wordValue_word {value : Nat} (fits : value < 2 ^ 64) (rest : Bytes) : wordValue (word value ++ rest) = value := by
  have eight : (word value ++ rest).take 8 = word value := List.take_left' (length_word value)
  rw [wordValue, eight]
  simp only [word, List.range_succ, List.range_zero, List.nil_append, List.cons_append, List.map_cons, List.map_nil,
    List.foldr_cons, List.foldr_nil, UInt8.toNat_ofNat']
  omega

theorem drop_words {count ix : Nat} (less : ix < count) :
    ∃ rest, (words count).drop (8 * ix) = word ix ++ rest := by
  induction count with
  | zero => exact absurd less (Nat.not_lt_zero ix)
  | succ count ih =>
    rw [words_succ]
    rcases Nat.lt_succ_iff_lt_or_eq.mp less with earlier | rfl
    · obtain ⟨rest, same⟩ := ih earlier
      have inside : 8 * ix ≤ (words count).length := by
        rw [length_words]
        omega
      exact ⟨rest ++ word count, by rw [List.drop_append_of_le_length inside, same, List.append_assoc]⟩
    · exact ⟨[], by rw [List.drop_left' (length_words ix), List.append_nil]⟩

theorem words_count {length ix : Nat} (aligned : 8 ∣ length) (small : length ≤ 1024 * 1024 * 1024) (inside : 8 * ix < length) :
    wordValue ((words (length / 8)).drop (8 * ix)) = ix := by
  obtain ⟨rest, same⟩ := drop_words (show ix < length / 8 by omega)
  rw [same, wordValue_word (by omega)]

/-- The program never leaves its mapping. It succeeds for the positive numbers of blocks up
to a gigabyte, if no call fails, and then each word of the file holds its own index, whatever
the file was before. More than that it refuses before the file is touched. -/
theorem mmapfill_fills {pagesize : Nat} (divides : pagesize ∣ 1024 * 1024) (aligned : 8 ∣ pagesize) (kernel : Kernel)
    (argument file : Bytes) : ∃ status contents, mmapfill pagesize kernel argument file = some (status, contents) ∧
      (status = .success ↔ (strtol10 argument).2 = [] ∧ 0 < SizeT.ofInt (strtol10 argument).1 ∧
        pagesize * SizeT.ofInt (strtol10 argument).1 ≤ 1024 * 1024 * 1024 ∧
        kernel.opens = true ∧ kernel.truncates = true ∧ kernel.maps = true) ∧
      (status = .success → contents.length = pagesize * SizeT.ofInt (strtol10 argument).1 ∧
        ∀ ix, 8 * ix < contents.length → wordValue (contents.drop (8 * ix)) = ix) ∧
      (1024 * 1024 * 1024 < pagesize * SizeT.ofInt (strtol10 argument).1 → contents = file) := by
  unfold mmapfill
  generalize strtol10 argument = parsed
  obtain ⟨number, endp⟩ := parsed
  simp only
  generalize SizeT.ofInt number = blocks
  have positive : 0 < pagesize := Nat.pos_of_dvd_of_pos divides (by decide)
  by_cases junk : endp ≠ []
  · exact ⟨.failure, file, if_pos junk, by simp [junk], by simp, by simp⟩
  rw [if_neg junk]
  by_cases many : tooMany pagesize blocks = true
  · have large := (tooMany_iff divides).mp many
    exact ⟨.failure, file, if_pos many, by simp; omega, by simp, by simp⟩
  rw [if_neg many]
  have small : pagesize * blocks ≤ 1024 * 1024 * 1024 := Nat.not_lt.mp (mt (tooMany_iff divides).mpr many)
  -- From here on no product wraps.
  have exact : SizeT.mul pagesize blocks = pagesize * blocks := SizeT.mul_exact (by omega)
  rw [exact]
  by_cases opens : kernel.opens = false
  · exact ⟨.failure, file, if_pos opens, by simp [opens], by simp, by simp⟩
  rw [if_neg opens]
  by_cases truncates : kernel.truncates = false
  · exact ⟨.failure, file, if_pos truncates, by simp [truncates], by simp, by simp⟩
  rw [if_neg truncates]
  by_cases unmapped : kernel.maps = false ∨ pagesize * blocks = 0
  · refine ⟨.failure, _, if_pos unmapped, ?_, by simp, fun large => absurd large (Nat.not_lt.mpr small)⟩
    rcases unmapped with fails | nothing
    · simp [fails]
    -- A mapping of length 0 is refused by `mmap`.
    · have none : blocks = 0 := (Nat.mul_eq_zero.mp nothing).resolve_left positive.ne'
      simp [none]
  rw [if_neg unmapped]
  have whole : 8 ∣ pagesize * blocks := Dvd.dvd.mul_right aligned blocks
  have length := length_truncate file (pagesize * blocks)
  have filled := @fill_words (pagesize * blocks / 8) 0 (truncate file (pagesize * blocks)) (by omega)
  have done : (truncate file (pagesize * blocks)).drop (8 * (pagesize * blocks / 8)) = [] := by
    rw [Nat.mul_div_cancel' whole]
    exact List.drop_of_length_le length.le
  simp only [words, List.range_zero, List.flatMap_nil, List.nil_append, Nat.zero_add, done, List.append_nil] at filled
  rw [filled]
  have size : (words (pagesize * blocks / 8)).length = pagesize * blocks := by
    rw [length_words, Nat.mul_div_cancel' whole]
  refine ⟨.success, words (pagesize * blocks / 8), rfl, ?_, fun _ => ⟨size, fun ix inside => ?_⟩,
    fun large => absurd large (Nat.not_lt.mpr small)⟩
  · have some : 0 < blocks := Nat.pos_of_ne_zero fun none => unmapped (Or.inr (by simp [none]))
    simp only [Bool.not_eq_false] at opens truncates
    have maps : kernel.maps = true := Bool.not_eq_false _ ▸ fun fails => unmapped (Or.inl fails)
    simp [not_not.mp junk, some, small, opens, truncates, maps]
  · rw [size] at inside
    exact words_count whole small inside

theorem mmapfill_fills_page : ∃ status contents,
    mmapfill 4096 ⟨true, true, true⟩ [49] [7] = some (status, contents) ∧
      (status = .success ↔ (strtol10 [49]).2 = [] ∧ 0 < SizeT.ofInt (strtol10 [49]).1 ∧
        4096 * SizeT.ofInt (strtol10 [49]).1 ≤ 1024 * 1024 * 1024 ∧ true = true ∧ true = true ∧ true = true) ∧
      (status = .success → contents.length = 4096 * SizeT.ofInt (strtol10 [49]).1 ∧
        ∀ ix, 8 * ix < contents.length → wordValue (contents.drop (8 * ix)) = ix) ∧
      (1024 * 1024 * 1024 < 4096 * SizeT.ofInt (strtol10 [49]).1 → contents = [7]) :=
  mmapfill_fills ⟨256, by decide⟩ ⟨512, by decide⟩ ⟨true, true, true⟩ [49] [7]

end PosixC.Mmapfill
