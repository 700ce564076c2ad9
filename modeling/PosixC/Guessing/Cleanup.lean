import PosixC.Guessing.Resources

/-! What hw02/guess.c releases.

The arrays are filled from the front, so that the state of the three of them is
three numbers, and `cleanup` releases what the arrays hold.
-/

set_option autoImplicit false

namespace PosixC.Guessing

open Foundation CText Ledger

variable {environment : Environment} {length functions i : Nat} {handles strategies leak : Option Nat} {usages : Usages}

section Filled

def filled (length count : Nat) : List (Option Nat) := (List.range length).map fun i => if i < count then some i else none

theorem filled_getElem? (inside : i < length) (count : Nat) :
    (filled length count)[i]? = some (if i < count then some i else none) := by
  simp [filled, inside]

theorem filled_zero (length : Nat) : List.replicate length none = filled length 0 := by
  simp [filled]

theorem filled_succ (inside : i < length) : (filled length i).set i (some i) = filled length (i + 1) := by
  apply List.ext_getElem?
  intro j
  rw [List.getElem?_set]
  by_cases same : i = j
  · subst same
    simp [filled, inside]
  · rw [if_neg same]
    by_cases within : j < length
    · have below : j < i ↔ j < i + 1 := by omega
      simp only [filled_getElem? within, below]
    · simp [filled, within]

theorem filled_same (length i : Nat) : (filled length i).set i none = filled length i := by
  apply List.ext_getElem?
  intro j
  rw [List.getElem?_set]
  by_cases same : i = j
  · subst same
    by_cases inside : i < length <;> simp [filled, inside]
  · simp [same]

def game (length functions : Nat) (handles strategies : Option Nat) : GuessGame :=
  ⟨length, some (filled length functions), handles.map (filled length), strategies.map (filled length)⟩

def held (functions : Nat) (handles strategies leak : Option Nat) : Set Resource :=
  { resource | match resource with
    | .functions => True
    | .handles => handles.isSome
    | .strategies => strategies.isSome
    | .function i => i < functions ∨ i ∈ leak
    | .handle i => ∃ count ∈ handles, i < count
    | .strategy i => ∃ count ∈ strategies, i < count }

def lost (leak : Option Nat) : Set Resource := { resource | ∃ i ∈ leak, resource = .function i }

end Filled

section Cleanup

theorem each_some {body : Nat → Option Usages} {usage : Nat → Usages} (count : Nat)
    (turn : ∀ i < count, body i = some (usage i)) : each body count = some ((List.range count).flatMap usage) := by
  induction count with
  | zero => rfl
  | succ count ih =>
    rw [each, ih fun i below => turn i (Nat.lt_succ_of_lt below), turn count (Nat.lt_succ_self count), List.range_succ,
      List.flatMap_append, List.flatMap_singleton]
    rfl

theorem callLibrary_filled (inside : i < length) :
    callLibrary (filled length length) i = some [.use (.function i), .use (.handle i)] := by
  simp [callLibrary, filled_getElem? inside, inside]

theorem accounts_call {alive : Set Resource} (function : .function i ∈ alive) (handle : .handle i ∈ alive) :
    Accounts alive [.use (.function i), .use (.handle i)] alive := by
  apply accounts_uses
  intro usage member
  simp only [List.mem_cons, List.not_mem_nil, or_false] at member
  rcases member with rfl | rfl
  · exact ⟨_, function, rfl⟩
  · exact ⟨_, handle, rfl⟩

theorem accounts_pointer {alive : Set Resource} (name : Nat → Resource) {count : Nat}
    (present : i < count → name i ∈ alive) :
    Accounts alive ((if i < count then some i else none : Option Nat).toList.map fun pointer => .event (.release (name pointer)))
      (alive \ { resource | i < count ∧ resource = name i }) := by
  by_cases pointed : i < count
  · rw [if_pos pointed]
    apply accounts_release (present pointed)
    intro other
    simp [pointed, and_comm]
  · simp only [pointed, if_false, false_and, Set.ofPred_false, Set.sdiff_empty]
    exact accounts_nil

theorem destroyStrategies_releases {count : Nat} {alive : Set Resource}
    (loaded : ∀ i < length, .function i ∈ alive ∧ .handle i ∈ alive) (strategies : .strategies ∈ alive)
    (initialised : ∀ i < length, i < count → .strategy i ∈ alive) :
    ∃ released, destroyStrategies length (filled length length) (some (filled length count)) = some released ∧
      Accounts alive released
        (alive \ { resource | resource = .strategies ∨ ∃ i < length, i < count ∧ resource = .strategy i }) := by
  have calls := @each_some (destroyed (filled length length) (filled length count))
    (fun i => [.use (.function i), .use (.handle i)] ++
      (if i < count then some i else none : Option Nat).toList.map fun strategy => .event (.release (.strategy strategy)))
    length ?_
  · refine ⟨_, by rw [destroyStrategies, calls]; rfl, ?_⟩
    refine (@accounts_sweep _ _ _ .strategy (fun i => i < count) _ length ?_).append (accounts_release ?_ ?_)
    · intro i inside rest kept
      apply Accounts.append
      · apply accounts_call
        · exact kept _ (loaded i inside).1 (by simp)
        · exact kept _ (loaded i inside).2 (by simp)
      · apply accounts_pointer
        intro pointed
        exact kept _ (initialised i inside pointed) (by simp; omega)
    · simp [strategies]
    · intro other
      simp only [Set.mem_sdiff, Set.mem_ofPred_eq]
      grind
  · intro i inside
    simp [destroyed, callLibrary_filled inside, filled_getElem? inside]

theorem freeFunctions_releases {count : Nat} {alive : Set Resource} (functions : .functions ∈ alive)
    (loaded : ∀ i < length, i < count → .function i ∈ alive) :
    ∃ released, freeFunctions length (filled length count) = some released ∧
      Accounts alive released
        (alive \ { resource | resource = .functions ∨ ∃ i < length, i < count ∧ resource = .function i }) := by
  have frees := @each_some (fun i => (filled length count)[i]?.map fun function =>
    function.toList.map fun function => .event (.release (.function function))) _ length
    fun i inside => by rw [filled_getElem? inside]; rfl
  refine ⟨_, by rw [freeFunctions, frees]; rfl, ?_⟩
  refine (@accounts_sweep _ _ _ .function (fun i => i < count) _ length ?_).append (accounts_release ?_ ?_)
  · intro i inside rest kept
    apply accounts_pointer
    intro pointed
    exact kept _ (loaded i inside pointed) (by simp; omega)
  · simp [functions]
  · intro other
    simp only [Set.mem_sdiff, Set.mem_ofPred_eq]
    grind

theorem closeHandles_eq {count : Nat} (whole : count ≤ length) (i left : Nat) (rest : i + left = length) (within : i ≤ count) :
    closeHandles (filled length count) left i =
      some ((List.range' i (count - i)).flatMap fun handle => [.event (.release (.handle handle))]) := by
  induction left generalizing i with
  | zero => simp [closeHandles, show count - i = 0 by omega]
  | succ left ih =>
    rw [closeHandles, filled_getElem? (by omega), Option.bind_some]
    by_cases open_ : i < count
    · rw [if_pos open_, Option.elim_some, ih (i + 1) (by omega) open_, show count - i = count - (i + 1) + 1 by omega,
        List.range'_succ]
      rfl
    · rw [if_neg open_, show count - i = 0 by omega]
      rfl

theorem closeHandles_releases {count : Nat} {alive : Set Resource} (whole : count ≤ length)
    (opened : ∀ i < count, .handle i ∈ alive) :
    ∃ released, closeHandles (filled length count) length 0 = some released ∧
      Accounts alive released (alive \ { resource | ∃ i < count, resource = .handle i }) := by
  refine ⟨_, closeHandles_eq whole 0 length (Nat.zero_add length) count.zero_le, ?_⟩
  rw [Nat.sub_zero, ← List.range_eq_range']
  have sweep := @accounts_sweep _ _ alive .handle (fun _ => True) (fun i => [.event (.release (.handle i))]) count ?_
  · simpa only [true_and] using sweep
  · intro i inside rest kept
    apply accounts_release (kept _ (opened i inside) (by simp; omega))
    intro other
    simp [and_comm]

theorem cleanupFunctions_releases (loaded : functions ≤ length) (fresh : ∀ i ∈ leak, functions ≤ i)
    (initialised : ∀ count ∈ strategies, functions = length ∧ handles = some length ∧ count ≤ length) :
    ∃ released, cleanupFunctions (game length functions handles strategies) = some released ∧
      Accounts (held functions handles strategies leak) released (held 0 handles none leak \ {.functions}) := by
  simp only [cleanupFunctions, game]
  cases strategies with
  | none =>
    obtain ⟨frees, freed, accounts⟩ := @freeFunctions_releases length functions (held functions handles none leak) trivial
      fun i _ below => Or.inl below
    refine ⟨frees, by simp [destroyStrategies, freed], accounts.congr fun resource => ?_⟩
    cases resource with
    | function i =>
      simp [held]
      grind
    | _ => simp [held]
  | some count =>
    obtain ⟨rfl, rfl, within⟩ := initialised count rfl
    obtain ⟨destroys, destroyed, first⟩ := @destroyStrategies_releases functions count
      (held functions (some functions) (some count) leak) (fun i below => ⟨Or.inl below, functions, rfl, below⟩) rfl
      fun i _ below => ⟨count, rfl, below⟩
    obtain ⟨frees, freed, second⟩ := @freeFunctions_releases functions functions
      (held functions (some functions) none leak) trivial fun i _ below => Or.inl below
    refine ⟨destroys ++ frees, by simp [destroyed, freed], Accounts.append (first.congr ?_) (second.congr ?_)⟩
    · intro resource
      cases resource with
      | strategy i =>
        simp [held]
        omega
      | _ => simp [held]
    · intro resource
      cases resource with
      | function i =>
        simp [held]
        grind
      | _ => simp [held]

theorem cleanupHandles_releases (opened : ∀ count ∈ handles, count ≤ length) :
    ∃ released, cleanupHandles (game length functions handles strategies) = some released ∧
      Accounts (held 0 handles none leak \ {.functions}) released (lost leak) := by
  simp only [cleanupHandles, game]
  cases handles with
  | none =>
    refine ⟨[], rfl, accounts_nil.congr fun resource => ?_⟩
    cases resource <;> simp [held, lost]
  | some count =>
    obtain ⟨closes, closed, accounts⟩ := @closeHandles_releases length count (held 0 (some count) none leak \ {.functions})
      (opened count rfl) fun i below => ⟨⟨count, rfl, below⟩, by simp⟩
    refine ⟨closes ++ [.event (.release .handles)], by simp [closed], accounts.append (accounts_release ?_ fun resource => ?_)⟩
    · simp [held]
    · cases resource <;> simp [held, lost]

/-- Everything is released but a block that no array holds. -/
theorem cleanup_releases (loaded : functions ≤ length) (fresh : ∀ i ∈ leak, functions ≤ i)
    (opened : ∀ count ∈ handles, count ≤ length)
    (initialised : ∀ count ∈ strategies, functions = length ∧ handles = some length ∧ count ≤ length)
    (acquired : Accounts ∅ usages (held functions handles strategies leak)) :
    ∃ released, cleanup (game length functions handles strategies) = some released ∧
      Accounts ∅ (usages ++ released) (lost leak) := by
  obtain ⟨first, freed, frees⟩ := @cleanupFunctions_releases length functions handles strategies leak loaded fresh initialised
  obtain ⟨second, closed, closes⟩ := @cleanupHandles_releases length functions handles strategies leak opened
  exact ⟨first ++ second, by simp [cleanup, freed, closed], acquired.append (frees.append closes)⟩

end Cleanup
end PosixC.Guessing
