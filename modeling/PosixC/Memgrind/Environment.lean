import PosixC.Foundation.CPrint
import PosixC.Memgrind.Model

/-! How the allocation tracker reads its settings from the environment.

A text with a minus sign at its start is refused, and so is what is no number.
The rest is left to `strtol`, which knows signs after white space and saturates.
-/

set_option autoImplicit false

namespace PosixC.Memgrind

open Foundation CText

section Model

def syslogPriorityMap : List (Bytes × Nat) :=
  [(literal "EMERG", 0), (literal "ALERT", 1), (literal "CRIT", 2), (literal "ERR", 3), (literal "WARNING", 4),
    (literal "NOTICE", 5), (literal "INFO", 6), (literal "DEBUG", 7)]

/-- `none` stands for −1. -/
def parseLogValue (logVal : Bytes) : Option Nat :=
  (syslogPriorityMap.find? fun entry => entry.1 = logVal).map Prod.snd

/-- The value of a limit, or the message before the process exits. -/
def getValue (getenv : String → Option Bytes) (envVarName : String) : Except Bytes Nat :=
  match getenv envVarName with
  | none => .ok (SizeT.ofInt (-1))
  | some envVar =>
      if envVar.head? = some 45 then .error (literal envVarName ++ literal " is negative")
      else
        let (number, endp) := strtol10 envVar
        let value := SizeT.ofInt number
        if endp = envVar ∨ endp ≠ [] then
          .error (literal envVarName ++ literal "='" ++ envVar ++ literal "' is invalid")
        else .ok value

structure Configuration where
  logStderr : Bool
  logLevel : Nat
  settings : EnviromentSettings

variable {getenv : String → Option Bytes} {name : String} {limit : Nat}

theorem getValue_le (returned : getValue getenv name = .ok limit) : limit ≤ SizeT.max := by
  unfold getValue at returned
  split at returned
  · cases returned
    exact SizeT.ofInt_le _
  · split at returned
    · cases returned
    · simp only at returned
      split at returned
      · cases returned
      · cases returned
        exact SizeT.ofInt_le _

def logLevel (getenv : String → Option Bytes) : Except Bytes Nat :=
  match getenv "MEMGRIND_LOG_LEVEL" with
  | none => .ok 7
  | some envVar =>
      match parseLogValue envVar with
      | none => .error (literal "MEMGRIND_LOG_LEVEL='" ++ envVar ++ literal "' is invalid\n")
      | some level => .ok level

def initialiseFromEnv (getenv : String → Option Bytes) : Except Bytes Configuration :=
  let logStderr := ((getenv "MEMGRIND_LOG_STDERR").getD []) ≠ []
  match logLevel getenv with
  | .error message => .error message
  | .ok level =>
      match count : getValue getenv "MEMGRIND_ALLOC_COUNT" with
      | .error message => .error message
      | .ok allocCount =>
          match single : getValue getenv "MEMGRIND_ALLOC_MAX" with
          | .error message => .error message
          | .ok allocMax =>
              match total : getValue getenv "MEMGRIND_MEM_MAX" with
              | .error message => .error message
              | .ok memMax =>
                  .ok ⟨logStderr, level, memMax, allocMax, allocCount,
                    getValue_le total, getValue_le single, getValue_le count⟩

theorem initialiseFromEnv_ok {configuration : Configuration} (loaded : initialiseFromEnv getenv = .ok configuration) :
    getValue getenv "MEMGRIND_MEM_MAX" = .ok configuration.settings.memgrindMemMax ∧
      getValue getenv "MEMGRIND_ALLOC_MAX" = .ok configuration.settings.memgrindAllocMax ∧
      getValue getenv "MEMGRIND_ALLOC_COUNT" = .ok configuration.settings.memgrindAllocCount := by
  unfold initialiseFromEnv at loaded
  simp only at loaded
  split at loaded
  · cases loaded
  split at loaded
  · cases loaded
  next allocCount count =>
    split at loaded
    · cases loaded
    next allocMax single =>
      split at loaded
      · cases loaded
      next memMax total =>
        cases loaded
        exact ⟨total, single, count⟩

end Model

section Meaning

variable {getenv : String → Option Bytes} {name : String} {text : Bytes} {value : Int}

/-- A limit is the number its variable denotes, and none at all if that is unset. -/
def Means (getenv : String → Option Bytes) (name : String) : Prop :=
  ∀ limit, getValue getenv name = .ok limit →
    match getenv name with
    | none => limit = SizeT.max
    | some text => DecimalInteger text limit

theorem getValue_number (present : getenv name = some text) (number : DecimalInteger text value)
    (unsigned : text.head? ≠ some 45) : getValue getenv name = .ok (SizeT.ofInt (saturate value)) := by
  obtain ⟨blank, sign, digits, decimal, rfl⟩ := number
  have moved : [] ≠ text := (List.ne_nil_of_length_pos decimal.shorter).symm
  simp only [getValue, present, if_neg unsigned, strtol10_decimal decimal, moved, false_or, ne_eq, not_true_eq_false,
    if_false]

theorem number_of_getValue {limit : Nat} (present : getenv name = some text)
    (returned : getValue getenv name = .ok limit) :
    text.head? ≠ some 45 ∧ ∃ value, DecimalInteger text value ∧ limit = SizeT.ofInt (saturate value) := by
  unfold getValue at returned
  rw [present] at returned
  simp only at returned
  split at returned
  · cases returned
  next unsigned =>
    split at returned
    · cases returned
    next read =>
      cases returned
      obtain ⟨moved, whole⟩ := not_or.mp read
      obtain ⟨blank, sign, digits, decimal⟩ := decimal_of_strtol10 moved
      rw [not_not.mp whole] at decimal
      exact ⟨unsigned, _, ⟨blank, sign, digits, decimal, rfl⟩, by rw [strtol10_decimal decimal]⟩

theorem ofInt_saturate : (SizeT.ofInt (saturate value) : Int) = value ↔ 0 ≤ value ∧ value ≤ longMax := by
  unfold SizeT.ofInt saturate longMin longMax
  split
  · omega
  · split <;> omega

/-- The limits mean what they say unless a negative number comes after white space or
a number is too large for a `long`. -/
theorem means_iff : Means getenv name ↔
    ∀ text value, getenv name = some text → DecimalInteger text value →
      text.head? = some 45 ∨ (0 ≤ value ∧ value ≤ longMax) := by
  constructor
  · intro means text value present number
    apply or_iff_not_imp_left.mpr
    intro unsigned
    have limit := means _ (getValue_number present number unsigned)
    rw [present] at limit
    exact ofInt_saturate.mp (decimalInteger_unique limit number)
  · intro fits limit returned
    cases present : getenv name with
    | none =>
      simp only [getValue, present, Except.ok.injEq] at returned
      rw [← returned]
      rfl
    | some text =>
      obtain ⟨unsigned, value, number, rfl⟩ := number_of_getValue present returned
      simp only
      rwa [ofInt_saturate.mpr ((fits text value present number).resolve_left unsigned)]

example : getValue (fun _ => some (literal "-1")) "MEMGRIND_MEM_MAX" = .error (literal "MEMGRIND_MEM_MAX is negative") := by
  decide +kernel

/-- A space in front of −1 turns the limit off, and 2⁶³ becomes 2⁶³ − 1. -/
theorem means_wrong : ¬ Means (fun _ => some (literal " -1")) "MEMGRIND_MEM_MAX" ∧
    ¬ Means (fun _ => some (literal "9223372036854775808")) "MEMGRIND_MEM_MAX" := by
  constructor
  · intro means
    have off : getValue (fun _ => some (literal " -1")) "MEMGRIND_MEM_MAX" = .ok 18446744073709551615 := by
      decide +kernel
    obtain ⟨_, value, number, limit⟩ := number_of_getValue rfl off
    obtain rfl := decimalInteger_unique number (means _ off)
    have large := (ofInt_saturate.mp (congrArg Nat.cast limit.symm)).2
    revert large
    decide
  · intro means
    have written : literal "9223372036854775808" = decimal 9223372036854775808 := by decide +kernel
    have off : getValue (fun _ => some (literal "9223372036854775808")) "MEMGRIND_MEM_MAX" = .ok 9223372036854775807 := by
      decide +kernel
    have number := decimalInteger_decimal 9223372036854775808
    rw [← written] at number
    cases decimalInteger_unique number (means _ off)

end Meaning
end PosixC.Memgrind
