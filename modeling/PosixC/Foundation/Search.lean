import Mathlib.Data.List.Basic

/-! Searching a text for a pattern.

Symbols are compared by their keys, so that a search may ignore case. The search
finds the first position at which the pattern occurs; the occurrences of a
pattern are all of them, and they may overlap.
-/

set_option autoImplicit false

namespace PosixC.Foundation.Search

variable {α β : Type} [DecidableEq β] (key : α → β) (pattern : List α)

def begins (text : List α) : Bool := (pattern.map key).isPrefixOf (text.map key)

def find : List α → Option Nat
  | [] => if begins key pattern [] then some 0 else none
  | symbol :: rest => if begins key pattern (symbol :: rest) then some 0 else (find rest).map (· + 1)

/-- The positions at which the pattern occurs, from `start` on. -/
def occurrencesFrom (text : List α) (start : Nat) : List Nat :=
  (List.range' start (text.length + 1 - start)).filter fun p => begins key pattern (text.drop p)

def occurrences (text : List α) : List Nat := occurrencesFrom key pattern text 0

variable {key pattern} {text : List α}

theorem length_of_begins (found : begins key pattern text = true) : pattern.length ≤ text.length := by
  simpa using (List.isPrefixOf_iff_prefix.mp found).length_le

theorem begins_iff : begins key pattern text = true ↔ (text.take pattern.length).map key = pattern.map key := by
  rw [begins, List.isPrefixOf_iff_prefix, List.prefix_iff_eq_take, List.length_map, List.map_take, eq_comm]

theorem find_none (absent : find key pattern text = none) (p : Nat) : begins key pattern (text.drop p) = false := by
  induction text generalizing p with
  | nil =>
    simp only [find] at absent
    split at absent
    · cases absent
    · next differs => simpa using differs
  | cons symbol rest ih =>
    simp only [find] at absent
    split at absent
    · cases absent
    · next differs =>
      cases p with
      | zero => simpa using differs
      | succ p => exact ih (Option.map_eq_none_iff.mp absent) p

theorem find_some {k : Nat} (found : find key pattern text = some k) :
    k ≤ text.length ∧ begins key pattern (text.drop k) = true ∧ ∀ p < k, begins key pattern (text.drop p) = false := by
  induction text generalizing k with
  | nil =>
    simp only [find] at found
    split at found
    · next here =>
      cases found
      exact ⟨Nat.le_refl _, here, fun p below => absurd below (Nat.not_lt_zero p)⟩
    · cases found
  | cons symbol rest ih =>
    simp only [find] at found
    split at found
    · next here =>
      cases found
      exact ⟨Nat.zero_le _, here, fun p below => absurd below (Nat.not_lt_zero p)⟩
    · next differs =>
      obtain ⟨below, later, rfl⟩ := Option.map_eq_some_iff.mp found
      obtain ⟨inside, here, first⟩ := ih later
      refine ⟨Nat.succ_le_succ inside, here, fun p before => ?_⟩
      cases p with
      | zero => simpa using differs
      | succ p => exact first p (Nat.lt_of_succ_lt_succ before)

theorem occurrencesFrom_none {start : Nat} (absent : find key pattern (text.drop start) = none) :
    occurrencesFrom key pattern text start = [] := by
  apply List.filter_eq_nil_iff.mpr
  intro p member
  have after := (List.mem_range'_1.mp member).1
  have nowhere := find_none absent (p - start)
  rw [List.drop_drop, Nat.add_sub_cancel' after] at nowhere
  simp [nowhere]

/-- What the search finds is the next occurrence. -/
theorem occurrencesFrom_some {start k : Nat} (inside : start ≤ text.length)
    (found : find key pattern (text.drop start) = some k) :
    occurrencesFrom key pattern text start = (start + k) :: occurrencesFrom key pattern text (start + k + 1) := by
  obtain ⟨bound, here, first⟩ := find_some found
  rw [List.length_drop] at bound
  rw [List.drop_drop] at here
  unfold occurrencesFrom
  rw [show text.length + 1 - start = k + (1 + (text.length + 1 - (start + k + 1))) by omega, ← List.range'_append_1,
    ← List.range'_append_1, List.filter_append, List.filter_append]
  have before : (List.range' start k).filter (fun p => begins key pattern (text.drop p)) = [] := by
    apply List.filter_eq_nil_iff.mpr
    intro p member
    obtain ⟨after, below⟩ := List.mem_range'_1.mp member
    have nowhere := first (p - start) (by omega)
    rw [List.drop_drop, Nat.add_sub_cancel' after] at nowhere
    simp [nowhere]
  have single : (List.range' (start + k) 1).filter (fun p => begins key pattern (text.drop p)) = [start + k] := by
    simp [here]
  rw [before, single]
  rfl

theorem mem_occurrences {p : Nat} :
    p ∈ occurrences key pattern text ↔ p ≤ text.length ∧ begins key pattern (text.drop p) = true := by
  simp only [occurrences, occurrencesFrom, List.mem_filter, List.mem_range'_1]
  exact and_congr_left fun _ => by omega

theorem occurrences_sorted : (occurrences key pattern text).Pairwise (· < ·) :=
  (List.pairwise_lt_range').filter _

end PosixC.Foundation.Search
