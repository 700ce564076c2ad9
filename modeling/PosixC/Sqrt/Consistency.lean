import Mathlib.Tactic.Linarith
import Mathlib.Tactic.Ring
import PosixC.Sqrt.Model

/-! No consumer of ex09/sqrt sees a torn pair.

The pair is a number with its integral square root whenever nobody writes it, so
what a consumer reads under the read lock passes its test.
-/

set_option autoImplicit false
set_option linter.dupNamespace false

namespace PosixC.Sqrt

open Foundation Foundation.RwLock

variable {consumers : Nat}

def Root (s n : Int) : Prop := s * s ≤ n ∧ n < (s + 1) * (s + 1)

def mode : Point consumers → Lock → Mode
  | .readFinished, .finished | .unlockFinished _, .finished => .read
  | .setFinished, .finished | .unlockDone, .finished => .write
  | .readS, .data | .readN _, .data | .unlockData _ _, .data => .read
  | .writeN _ _ _, .data | .writeS _ _ _, .data | .unlockWritten _, .data => .write
  | _, _ => .none

def pair (shared : Shared consumers) : Int × Int := (shared.s, shared.n)

def Knows : Point consumers → Int × Int → Prop
  | .readS, (s, n) => Root s n
  | .readN copy, (s, n) => copy = s ∧ Root s n
  | .unlockData s n, _ => Root s n
  | .verify s n, _ => Root s n
  | .mismatch, _ => False
  -- The loop never skips a candidate.
  | .descend _ n s, _ => n < (s + 1) * (s + 1)
  | .lockData _ n s, _ => Root s n
  | .writeN _ n s, _ => Root s n
  | .writeS _ n s, (_, written) => written = n ∧ Root s n
  | .unlockWritten _, (s, n) => Root s n
  | _, _ => True

def Truthful : Role consumers → Note → Prop
  | _, .snapshot s n => Root s n
  | _, .mismatch => False
  | _, .commit _ _ _ _ => True

theorem sqrt_respects (rand : Nat → Nat) (iterations : Nat) (self : Role consumers) (point : Point consumers)
    (shared : Shared consumers) : Respects mode point (sqrtProgram rand iterations self point shared) := by
  generalize next : sqrtProgram rand iterations self point shared = command
  cases does_of_program next with
  | lockFinished | enterLoop | lockData | lockDone =>
    refine ⟨rfl, rfl, fun lock different => ?_⟩
    cases lock <;> first | rfl | exact absurd rfl different
  | unlockFinished | unlockData | unlockWritten | unlockDone =>
    refine ⟨rfl, fun lock different => ?_⟩
    cases lock <;> first | rfl | exact absurd rfl different
  | _ =>
    intro lock
    cases lock <;> rfl

theorem root_of_descend {n s : Int} (large : s * s > n) : n < (s - 1 + 1) * (s - 1 + 1) := by
  rwa [sub_add_cancel]

theorem root_start {n : Int} (positive : 0 ≤ n) : n < (n + 1) * (n + 1) := by
  nlinarith

/-- A thread without the lock knows its own copies only. -/
theorem knows_stable {point : Point consumers} {before now : Int × Int} (free : mode point .data = .none)
    (knows : Knows point before) : Knows point now := by
  cases point with
  | readS | readN | writeS | unlockWritten => cases free
  | _ => exact knows

theorem sqrt_outline (rand : Nat → Nat) (iterations : Nat) :
    Outline (@sqrtProgram consumers rand iterations) mode .data pair (fun pair => Root pair.1 pair.2) Knows Truthful where
  respects := sqrt_respects rand iterations
  stable := knows_stable
  rdlock := by
    intro self point shared next command knows root
    cases does_of_program command with
    | enterLoop => exact root
  wrlock := by
    intro self point shared next command knows _
    cases does_of_program command with
    | lockData => exact knows
  unlock := by
    intro self point shared next command knows
    cases does_of_program command with
    | unlockData => exact ⟨knows, fun writes => nomatch writes⟩
    | unlockWritten => exact ⟨trivial, fun _ => knows⟩
  elsewhere := by
    intro self point shared lock next different command knows
    rcases command with command | command | command
    · cases does_of_program command with
      | lockFinished => trivial
      | enterLoop => exact absurd rfl different
    · cases does_of_program command with
      | lockDone => trivial
      | lockData => exact absurd rfl different
    · cases does_of_program command with
      | unlockFinished | unlockDone => trivial
      | unlockData | unlockWritten => exact absurd rfl different
  assign := by
    intro self point shared result next notes command knows
    cases does_of_program command with
    | stay => exact ⟨knows, fun _ => rfl, by simp⟩
    | readS => exact ⟨⟨rfl, knows⟩, fun _ => rfl, by simp⟩
    | readN =>
      obtain ⟨rfl, root⟩ := knows
      exact ⟨root, fun _ => rfl, by simpa [Truthful] using root⟩
    | mismatched wrong =>
      obtain ⟨low, high⟩ := knows
      rcases wrong with below | above
      · exact absurd low (Int.not_le.mpr below)
      · exact absurd high (Int.not_lt.mpr above)
    | mismatch => exact absurd knows id
    | generate positive => exact ⟨root_start positive, fun _ => rfl, by simp⟩
    | descend large => exact ⟨root_of_descend large, fun _ => rfl, by simp⟩
    | found small => exact ⟨⟨small, knows⟩, fun _ => rfl, by simp⟩
    | writeN => exact ⟨⟨rfl, knows⟩, fun reads => absurd rfl reads, by simp⟩
    | @writeS i n s =>
      obtain ⟨written, root⟩ := knows
      refine ⟨?_, fun reads => absurd rfl reads, by simp⟩
      simp only [Knows, pair] at written ⊢
      rwa [written]
    | printN => exact ⟨trivial, fun _ => rfl, by simp [Truthful]⟩
    | _ => exact ⟨trivial, fun _ => rfl, by simp⟩

variable {rand : Nat → Nat} {iterations : Nat} {state after : World consumers} {self : Role consumers}
  {notes written : List (Role consumers × Note)} {errors : Fin consumers → Int} {actions : List (Role consumers)}

theorem errors_of_other {shared : Shared consumers} {point : Point consumers} {command : Statement consumers}
    (does : Does shared self point command) {index : Fin consumers} (other : .consumer index ≠ self) :
    (command.result shared).errors index = shared.errors index := by
  cases does with
  | startConsumer | mismatch => exact Function.update_of_ne (by simpa using other) ..
  | _ => rfl

theorem exited_of_other {shared : Shared consumers} {point : Point consumers} {command : Statement consumers}
    (does : Does shared self point command) {index : Fin consumers} (other : .consumer index ≠ self) :
    (command.result shared).exited index = shared.exited index := by
  cases does with
  | exit => exact Function.update_of_ne (by simpa using other) ..
  | _ => rfl

def NoErrors : Point consumers → Prop
  | .join _ errors | .done errors => errors = 0
  | _ => True

structure Clean (state : World consumers) : Prop where
  errors : ∀ index, state.threads (.consumer index) ≠ .begin → state.shared.errors index = 0
  exited : ∀ index, state.shared.exited index = true → state.threads (.consumer index) = .gone
  main : NoErrors (state.threads .main)

theorem clean_errors (clean : Clean state) (knows : Knows (state.threads self) (pair state.shared))
    (move : Move (sqrtProgram rand iterations) state self after written) (index : Fin consumers)
    (begun : after.threads (.consumer index) ≠ .begin) : after.shared.errors index = 0 := by
  have before := clean.errors index
  rw [threads_of_move move] at begun
  rw [shared_of_move move]
  generalize next : sqrtProgram rand iterations self (state.threads self) state.shared = command at begun ⊢
  have does := does_of_program next
  by_cases own : .consumer index = self
  · subst own
    rw [Function.update_self] at begun
    generalize state.threads (.consumer index) = point at knows before does
    cases does with
    | stay => exact before begun
    | startConsumer => exact Function.update_self ..
    | mismatch => exact absurd knows id
    | _ => exact before (by simp)
  · rw [Function.update_of_ne own] at begun
    rw [errors_of_other does own]
    exact before begun

theorem clean_exited (clean : Clean state) (move : Move (sqrtProgram rand iterations) state self after written)
    (index : Fin consumers) (exited : after.shared.exited index = true) : after.threads (.consumer index) = .gone := by
  have before := clean.exited index
  rw [shared_of_move move] at exited
  rw [threads_of_move move]
  generalize next : sqrtProgram rand iterations self (state.threads self) state.shared = command at exited ⊢
  have does := does_of_program next
  by_cases own : .consumer index = self
  · subst own
    rw [Function.update_self]
    generalize state.threads (.consumer index) = point at before does
    cases does with
    | stay => exact before exited
    | exit => rfl
    | _ => cases before exited
  · rw [exited_of_other does own] at exited
    rw [Function.update_of_ne own]
    exact before exited

theorem clean_main (clean : Clean state) (move : Move (sqrtProgram rand iterations) state self after written) :
    NoErrors (after.threads .main) := by
  have before := clean.main
  rw [threads_of_move move]
  by_cases own : .main = self
  · subst own
    rw [Function.update_self]
    generalize next : sqrtProgram rand iterations .main (state.threads .main) state.shared = command
    have does := does_of_program next
    generalize state.threads .main = point at before does
    cases does with
    | stay => exact before
    | startMain => rfl
    | joined => exact before
    | @join joining rest errors exited =>
      -- A consumer that can be joined has passed its start.
      have none : state.shared.errors joining = 0 := by
        apply clean.errors
        rw [clean.exited joining exited]
        simp
      simp only [Command.next, NoErrors] at before ⊢
      rw [before, none, add_zero]
  · rw [Function.update_of_ne own]
    exact before

theorem sqrt_sound (run : (sqrtMachine consumers rand iterations).Run (startWorld errors) actions notes state) :
    Sound mode .data pair (fun pair => Root pair.1 pair.2) Knows Truthful notes state := by
  apply sound_run (sqrt_outline rand iterations) _ _ _ run
  · intro self lock
    cases lock <;> rfl
  · simp [pair, Root]
  · intro self
    trivial

theorem clean_run (run : (sqrtMachine consumers rand iterations).Run (startWorld errors) actions notes state) :
    Clean state := by
  induction run with
  | start =>
    constructor
    · intro index begun
      exact absurd rfl begun
    · intro index exited
      cases exited
    · trivial
  | next before step ih =>
    have move := move_of_step step
    exact ⟨clean_errors ih ((sqrt_sound before).knows _) move, clean_exited ih move, clean_main ih move⟩

/-- For any number of consumers and iterations, any random values and any
interleaving: what a consumer has read is a number with its root, no consumer
has reported a mismatch, and nobody has counted an error. -/
theorem no_torn_pair
    (run : (sqrtMachine consumers rand iterations).Run (startWorld errors) actions notes state) :
    (∀ self s n, (self, .snapshot s n) ∈ notes → s * s ≤ n ∧ n < (s + 1) * (s + 1)) ∧
    (∀ self, (self, .mismatch) ∉ notes) ∧
    (∀ index, state.threads (.consumer index) ≠ .begin → state.shared.errors index = 0) ∧
    (∀ total, state.threads .main = .done total → total = 0) := by
  have sound := sqrt_sound run
  have clean := clean_run run
  refine ⟨?_, ?_, clean.errors, ?_⟩
  · intro self s n member
    exact sound.good (self, .snapshot s n) member
  · intro self member
    exact sound.good (self, .mismatch) member
  · intro total done
    have main := clean.main
    rwa [done] at main

theorem no_torn_pair_first :
    ∃ actions notes state, (sqrtMachine 1 (fun _ => 0) 1).Run (startWorld fun _ => 7) actions notes state ∧
      (.consumer 0, .snapshot 11 128) ∈ notes ∧ (.consumer 0, .mismatch) ∉ notes ∧ state.shared.errors 0 = 0 := by
  have executes : ((sqrtMachine 1 (fun _ => 0) 1).exec (startWorld fun _ => 7)
      (List.replicate 124 .producer ++ List.replicate 9 (.consumer 0))).any (fun result => decide (
        (.consumer 0, .snapshot 11 128) ∈ result.2 ∧ result.1.threads (.consumer 0) ≠ .begin)) = true := by
    decide +kernel
  obtain ⟨state, notes, run, facts⟩ := Machine.exists_run_of_any executes
  simp only [decide_eq_true_eq] at facts
  obtain ⟨_, silent, clean, _⟩ := no_torn_pair run
  exact ⟨_, notes, state, run, facts.1, silent _, clean 0 facts.2⟩

end PosixC.Sqrt
