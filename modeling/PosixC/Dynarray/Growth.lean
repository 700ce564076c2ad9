import Mathlib.Data.List.Induction
import Mathlib.Data.List.TakeDrop
import Mathlib.Algebra.Order.Ring.Nat
import PosixC.Foundation.SizeT

/-! The growable array of ex05/tasks.

An expansion sets the capacity before it asks for memory, and leaves it where it
is when there is none.
-/

set_option autoImplicit false

namespace PosixC.Dynarray

open Foundation

/-- `struct dynarray`, with all elements that `array` has room for. NULL has none. -/
structure State where
  capacity : Nat
  size : Nat
  array : List Int
  deriving DecidableEq, Repr

def arrayState : State := ⟨0, 0, []⟩

def startCapacity : Nat := 16

def sizeofArrayType : Nat := 4

/-- What `realloc` answers: nothing, or a block that holds anything behind the old elements. -/
abbrev Answer := Option (Nat → Int)

def realloc (array : List Int) (bytes : Nat) (garbage : Nat → Int) : List Int :=
  (List.range (bytes / sizeofArrayType)).map fun i => (array[i]?).getD (garbage i)

def expand (answer : Answer) (state : State) : Nat × State :=
  let capacity := if state.capacity = 0 then startCapacity else SizeT.mul state.capacity 2
  match answer with
  | none => (1, { state with capacity := capacity })
  | some garbage =>
      (0, { state with
        capacity := capacity
        array := realloc state.array (SizeT.mul capacity sizeofArrayType) garbage })

def cannotExpand : String := "Can't expand the array!"

/-- The message and the state afterwards. A store outside of the allocated elements has
no result. -/
def pushLoc (first second : Answer) (value : Int) (position : Nat) (state : State) : Option (Option String × State) :=
  let (failed, state) := if state.capacity = 0 then expand first state else (0, state)
  if failed ≠ 0 then some (some cannotExpand, state)
  else
    let (failed, state) := if position = state.capacity then expand second state else (0, state)
    if failed ≠ 0 then some (some cannotExpand, state)
    else if position < state.array.length then
      some (none, { state with array := state.array.set position value, size := SizeT.add state.size 1 })
    else none

/-- A call of `add`, with the answers to the two calls of `realloc` it may make. -/
structure Call where
  value : Int
  first : Answer
  second : Answer

def add (call : Call) (state : State) : Option (Option String × State) :=
  pushLoc call.first call.second call.value state.size state

def getArray (state : State) : List Int := state.array

def getLength (state : State) : Nat := state.size

def run (state : State) : List Call → Option (List Int × State)
  | [] => some ([], state)
  | call :: calls => do
      let (message, state) ← add call state
      let (values, state) ← run state calls
      some (if message.isNone then call.value :: values else values, state)

section Runs

variable {state : State} {values : List Int}

structure Keeps (state : State) (values : List Int) : Prop where
  allocated : state.capacity = state.array.length
  within : state.size ≤ state.capacity
  contents : (getArray state).take (getLength state) = values

/-- Every state of the run keeps its values, and a call that fails changes nothing. -/
def Sound (calls : List Call) : Prop :=
  ∀ n ≤ calls.length, ∃ values state, run arrayState (calls.take n) = some (values, state) ∧ Keeps state values ∧
    ∀ call ∈ calls[n]?, ∀ message after, add call state = some (some message, after) → after = state

theorem run_snoc (state : State) (calls : List Call) (call : Call) :
    run state (calls ++ [call]) = (run state calls).bind fun before =>
      (add call before.2).map fun result =>
        (before.1 ++ if result.1.isNone then [call.value] else [], result.2) := by
  induction calls generalizing state with
  | nil =>
    simp only [List.nil_append, run, Option.bind_eq_bind, Option.bind_some]
    cases add call state <;> rfl
  | cons first calls ih =>
    simp only [List.cons_append, run, Option.bind_eq_bind, ih]
    cases add first state with
    | none => rfl
    | some result =>
      cases ran : run result.2 calls with
      | none => simp [ran]
      | some before =>
        cases last : add call before.2 with
        | none => simp [ran, last]
        | some after => cases message : result.1 <;> simp [ran, last, message]

end Runs

section Growth

variable {state : State} {values : List Int} {n : Nat}

structure Grown (n : Nat) (state : State) : Prop where
  size : state.size = n
  allocated : state.capacity = state.array.length
  capacity : n = 0 ∧ state.capacity = 0 ∨
    ∃ k ≤ 57, state.capacity = 16 * 2 ^ k ∧ 0 < n ∧ n ≤ 16 * 2 ^ k ∧ ∀ j < k, 16 * 2 ^ j < n

theorem length_realloc (array : List Int) (bytes : Nat) (garbage : Nat → Int) :
    (realloc array bytes garbage).length = bytes / 4 := by
  simp [realloc, sizeofArrayType]

theorem take_realloc {array : List Int} {bytes count : Nat} (garbage : Nat → Int) (old : count ≤ array.length)
    (new : count ≤ bytes / 4) : (realloc array bytes garbage).take count = array.take count := by
  refine List.ext_getElem ?_ fun i first second => ?_
  · simp [realloc, sizeofArrayType]
    omega
  · rw [List.length_take] at second
    simp [realloc, List.getElem?_eq_getElem (by omega : i < array.length)]

def State.stored (state : State) (value : Int) : State :=
  { state with array := state.array.set state.size value, size := SizeT.add state.size 1 }

theorem Keeps.store (kept : Keeps state values) (room : state.size < state.array.length)
    (fits : state.size + 1 < 2 ^ 64) (value : Int) :
    Keeps (state.stored value) (values ++ [value]) := by
  obtain ⟨allocated, within, contents⟩ := kept
  refine ⟨by simpa [State.stored] using allocated, ?_, ?_⟩
  · simp only [State.stored, SizeT.add_exact fits, allocated]
    exact room
  · simp only [State.stored, getArray, getLength, SizeT.add_exact fits] at contents ⊢
    rw [List.take_add_one, List.take_set_of_le le_rfl, contents]
    simp [room]

variable (call : Call)

theorem add_room (filled : state.capacity ≠ 0) (differs : state.size ≠ state.capacity)
    (room : state.size < state.array.length) :
    add call state = some (none, state.stored call.value) := by
  simp [add, pushLoc, filled, differs, room, State.stored]

theorem add_first_fails (empty : state.capacity = 0) (fails : call.first = none) :
    add call state = some (some cannotExpand, { state with capacity := 16 }) := by
  simp [add, pushLoc, expand, empty, fails, startCapacity]

theorem add_first {garbage : Nat → Int} (empty : state.capacity = 0) (none : state.size = 0)
    (answered : call.first = some garbage) :
    add call state = some (Option.none,
      { state with capacity := 16, array := realloc state.array 64 garbage : State }.stored call.value) := by
  simp [add, pushLoc, expand, empty, none, answered, startCapacity, length_realloc, SizeT.mul, sizeofArrayType,
    State.stored]

theorem add_full_fails (filled : state.capacity ≠ 0) (full : state.size = state.capacity) (fails : call.second = none) :
    add call state = some (some cannotExpand, { state with capacity := SizeT.mul state.capacity 2 }) := by
  simp [add, pushLoc, expand, filled, full, fails]

theorem add_full {garbage : Nat → Int} (filled : state.capacity ≠ 0) (full : state.size = state.capacity)
    (answered : call.second = some garbage) :
    add call state =
      let state := { state with
        capacity := SizeT.mul state.capacity 2
        array := realloc state.array (SizeT.mul (SizeT.mul state.capacity 2) 4) garbage : State }
      if state.size < state.array.length then some (none, state.stored call.value) else none := by
  simp [add, pushLoc, expand, filled, full, answered, sizeofArrayType, State.stored]

/-- No call of `realloc` that the addition number `n` makes fails, and the size of the
array in bytes is a `size_t`. -/
structure Fits (n : Nat) (call : Call) : Prop where
  first : n = 0 → call.first ≠ none
  second : ∀ k, n = 16 * 2 ^ k → call.second ≠ none
  small : n < 2 ^ 61

theorem lt_of_full {k : Nat} (bound : k ≤ 57) (full : n = 16 * 2 ^ k) (small : n < 2 ^ 61) : k < 57 := by
  apply lt_of_le_of_ne bound
  rintro rfl
  omega

theorem doubles {k : Nat} (below : k < 57) : SizeT.mul (16 * 2 ^ k) 2 = 16 * 2 ^ (k + 1) ∧
    SizeT.mul (16 * 2 ^ (k + 1)) 4 / 4 = 16 * 2 ^ (k + 1) := by
  have small : 2 ^ k ≤ 2 ^ 56 := Nat.pow_le_pow_right Nat.zero_lt_two (Nat.le_of_lt_succ below)
  rw [pow_succ, SizeT.mul_exact (by omega), SizeT.mul_exact (by omega)]
  omega

theorem grown_stored {k : Nat} (size : state.size = n) (allocated : state.capacity = state.array.length)
    (bound : k ≤ 57) (capacity : state.capacity = 16 * 2 ^ k) (room : n < 16 * 2 ^ k) (above : ∀ j < k, 16 * 2 ^ j ≤ n) (value : Int) :
    Grown (n + 1) (state.stored value) := by
  have small : 2 ^ k ≤ 2 ^ 57 := Nat.pow_le_pow_right Nat.zero_lt_two bound
  refine ⟨?_, ?_, Or.inr ⟨k, bound, capacity, Nat.succ_pos n, room, fun j less => Nat.lt_succ_of_le (above j less)⟩⟩
  · simp only [State.stored, size]
    exact SizeT.add_exact (by omega)
  · simpa [State.stored] using allocated

theorem grows_first (grown : Grown 0 state) (kept : Keeps state values) (empty : state.capacity = 0)
    (answers : call.first ≠ none) :
    ∃ after, add call state = some (none, after) ∧ Grown 1 after ∧ Keeps after (values ++ [call.value]) := by
  obtain ⟨garbage, answered⟩ := Option.ne_none_iff_exists'.mp answers
  let larger : State := { state with capacity := 16, array := realloc state.array 64 garbage }
  have length : larger.array.length = 16 := length_realloc _ _ _
  have fresh : Keeps larger values := by
    refine ⟨length.symm, by simp [larger, grown.size], ?_⟩
    have contents := kept.contents
    simpa [larger, getLength, grown.size] using contents
  have small : larger.size = 0 := grown.size
  refine ⟨_, add_first call empty grown.size answered, ?_, fresh.store ?_ ?_ call.value⟩
  · exact @grown_stored larger 0 0 grown.size length.symm (by omega) rfl (by omega) (by omega) call.value
  · omega
  · omega

theorem grows_full {k : Nat} (grown : Grown n state) (kept : Keeps state values) (below : k < 57)
    (capacity : state.capacity = 16 * 2 ^ k) (full : n = 16 * 2 ^ k) (answers : call.second ≠ none) :
    ∃ after, add call state = some (none, after) ∧ Grown (n + 1) after ∧ Keeps after (values ++ [call.value]) := by
  obtain ⟨garbage, answered⟩ := Option.ne_none_iff_exists'.mp answers
  obtain ⟨doubled, bytes⟩ := doubles below
  have power : 0 < 2 ^ k ∧ 2 ^ k ≤ 2 ^ 56 :=
    ⟨Nat.two_pow_pos k, Nat.pow_le_pow_right Nat.zero_lt_two (Nat.le_of_lt_succ below)⟩
  let larger : State :=
    { state with
      capacity := 16 * 2 ^ (k + 1)
      array := realloc state.array (SizeT.mul (16 * 2 ^ (k + 1)) 4) garbage }
  have size : larger.size = n := grown.size
  have length : larger.array.length = 16 * 2 ^ (k + 1) := by rw [length_realloc, bytes]
  have more : n < 16 * 2 ^ (k + 1) := by
    rw [pow_succ]
    omega
  have kept' : Keeps larger values := by
    refine ⟨length.symm, (size.trans_lt more).le, ?_⟩
    rw [← kept.contents]
    refine take_realloc garbage ?_ ?_
    · rw [← grown.allocated]
      exact kept.within
    · rw [bytes]
      exact (size.trans_lt more).le
  refine ⟨larger.stored call.value, ?_, ?_, kept'.store ?_ ?_ call.value⟩
  · rw [add_full call (by omega) (by rw [grown.size, capacity, full]) answered, capacity, doubled]
    exact if_pos (by rw [length, size]; exact more)
  · refine grown_stored size length.symm below rfl more (fun j less => ?_) call.value
    have := Nat.pow_le_pow_right Nat.zero_lt_two (Nat.le_of_lt_succ less)
    omega
  · rw [length, size]
    exact more
  · omega

theorem add_grows (grown : Grown n state) (kept : Keeps state values) (fits : Fits n call) :
    ∃ after, add call state = some (none, after) ∧ Grown (n + 1) after ∧ Keeps after (values ++ [call.value]) := by
  have small := fits.small
  rcases grown.capacity with ⟨rfl, empty⟩ | ⟨k, bound, capacity, positive, below, above⟩
  · exact grows_first call grown kept empty (fits.first rfl)
  · by_cases full : n = 16 * 2 ^ k
    · exact grows_full call grown kept (lt_of_full bound full small) capacity full (fits.second k full)
    · have size := grown.size
      have room : state.size < state.array.length := by
        rw [← grown.allocated]
        omega
      exact ⟨_, add_room call (by omega) (by omega) room,
        grown_stored size grown.allocated bound capacity (by omega) (fun j less => (above j less).le) call.value,
        kept.store room (by omega) call.value⟩

theorem add_stops (grown : Grown n state) (unfit : ¬ Fits n call) :
    add call state = none ∨ ∃ message after, add call state = some (some message, after) ∧ after ≠ state := by
  rcases grown.capacity with ⟨rfl, empty⟩ | ⟨k, bound, capacity, positive, below, above⟩
  · have fails : call.first = none := by
      by_contra answered
      refine unfit ⟨fun _ => answered, fun k zero => ?_, by decide⟩
      have := Nat.two_pow_pos k
      omega
    refine Or.inr ⟨_, _, add_first_fails call empty fails, fun same => ?_⟩
    have changed := congrArg State.capacity same
    rw [empty] at changed
    cases changed
  · have filled : state.capacity ≠ 0 := by omega
    by_cases full : n = 16 * 2 ^ k
    · cases answered : call.second with
      | none =>
        refine Or.inr ⟨_, _, add_full_fails call filled (by rw [grown.size, capacity, full]) answered, fun same => ?_⟩
        have changed : SizeT.mul state.capacity 2 = state.capacity := congrArg State.capacity same
        have small : 2 ^ k ≤ 2 ^ 57 := Nat.pow_le_pow_right Nat.zero_lt_two bound
        rw [SizeT.mul_exact (by omega)] at changed
        omega
      -- The array cannot grow beyond this size, since its number of bytes becomes 0.
      | some garbage =>
        left
        have large : k = 57 := by
          by_contra other
          refine unfit ⟨fun zero => absurd zero positive.ne', fun _ _ => by simp [answered], ?_⟩
          have small : 2 ^ k ≤ 2 ^ 56 := Nat.pow_le_pow_right Nat.zero_lt_two (by omega)
          omega
        rw [add_full call filled (by rw [grown.size, capacity, full]) answered, capacity, large]
        simp [length_realloc, SizeT.mul]
    · refine absurd ⟨fun zero => absurd zero positive.ne', fun j power => ?_, ?_⟩ unfit
      · rcases lt_trichotomy j k with less | rfl | more
        · exact absurd power (above j less).ne'
        · exact absurd power full
        · have := Nat.pow_lt_pow_right Nat.one_lt_two more
          omega
      · have small : 2 ^ k ≤ 2 ^ 57 := Nat.pow_le_pow_right Nat.zero_lt_two bound
        omega

/-- While the additions fit, they all succeed. -/
theorem run_grows (calls : List Call) (fits : ∀ n, ∀ call ∈ calls[n]?, Fits n call) :
    ∃ state, run arrayState calls = some (calls.map Call.value, state) ∧ Grown calls.length state ∧
      Keeps state (calls.map Call.value) := by
  induction calls using List.reverseRecOn with
  | nil => exact ⟨arrayState, rfl, ⟨rfl, rfl, Or.inl ⟨rfl, rfl⟩⟩, rfl, le_rfl, rfl⟩
  | append_singleton calls call ih =>
    obtain ⟨state, ran, grown, kept⟩ := ih fun n call member => by
      obtain ⟨inside, _⟩ := List.getElem?_eq_some_iff.mp member
      exact fits n call (by rwa [List.getElem?_append_left inside])
    obtain ⟨after, added, grown', kept'⟩ := add_grows call grown kept (fits calls.length call (by simp))
    refine ⟨after, ?_, by simpa using grown', by simpa using kept'⟩
    rw [run_snoc, ran, Option.bind_some, added]
    simp

theorem fits_take {calls : List Call} (m : Nat) (fits : ∀ n < m, ∀ call ∈ calls[n]?, Fits n call) :
    ∀ n, ∀ call ∈ (calls.take m)[n]?, Fits n call := by
  intro n call member
  rw [List.getElem?_take] at member
  split at member
  · next below => exact fits n below call member
  · cases member

theorem fits_iff (calls : List Call) :
    (∀ n, ∀ call ∈ calls[n]?, Fits n call) ↔ (∀ call ∈ calls[0]?, call.first ≠ none) ∧
      (∀ k, ∀ call ∈ calls[16 * 2 ^ k]?, call.second ≠ none) ∧ calls.length ≤ 2 ^ 61 := by
  constructor
  · intro fits
    refine ⟨fun call member => (fits 0 call member).first rfl,
      fun k call member => (fits _ call member).second k rfl, ?_⟩
    by_contra long
    have inside : 2 ^ 61 < calls.length := Nat.not_le.mp long
    exact absurd (fits _ _ (List.getElem?_eq_getElem inside)).small (lt_irrefl _)
  · rintro ⟨first, second, short⟩ n call member
    obtain ⟨inside, _⟩ := List.getElem?_eq_some_iff.mp member
    refine ⟨?_, ?_, inside.trans_le short⟩
    · rintro rfl
      exact first call member
    · rintro k rfl
      exact second k call member

theorem sound_of_fits {calls : List Call} (fits : ∀ n, ∀ call ∈ calls[n]?, Fits n call) : Sound calls := by
  intro n bound
  obtain ⟨state, ran, grown, kept⟩ := run_grows (calls.take n) (fits_take n fun n _ => fits n)
  rw [List.length_take_of_le bound] at grown
  refine ⟨_, state, ran, kept, fun call member message after added => ?_⟩
  obtain ⟨next, added', _⟩ := add_grows call grown kept (fits n call member)
  rw [added] at added'
  cases added'

theorem fits_of_sound {calls : List Call} (sound : Sound calls) : ∀ n, ∀ call ∈ calls[n]?, Fits n call := by
  intro n
  induction n using Nat.strong_induction_on with
  | _ n ih =>
    intro call member
    obtain ⟨inside, rfl⟩ := List.getElem?_eq_some_iff.mp member
    by_contra unfit
    -- Up to this addition all of them fit.
    obtain ⟨state, ran, grown, _⟩ := run_grows (calls.take n) (fits_take n ih)
    rw [List.length_take_of_le inside.le] at grown
    obtain ⟨values, state', ran', _, unchanged⟩ := sound n inside.le
    obtain ⟨_, _, after, _⟩ := sound (n + 1) inside
    obtain ⟨rfl, rfl⟩ : (calls.take n).map Call.value = values ∧ state = state' := by simpa [ran] using ran'
    rcases add_stops calls[n] grown unfit with outside | ⟨message, next, added, changed⟩
    · rw [List.take_succ_eq_append_getElem inside, run_snoc, ran, Option.bind_some, outside] at after
      cases after
    · exact changed (unchanged _ member message next added)

/-- The array keeps its promises exactly when no `realloc` fails and not too much is
added. The additions that ask for memory are the first one and those that find the
array full, with 16, 32, 64 and so on. -/
theorem sound_iff (calls : List Call) :
    Sound calls ↔ (∀ call ∈ calls[0]?, call.first ≠ none) ∧ (∀ k, ∀ call ∈ calls[16 * 2 ^ k]?, call.second ≠ none) ∧
      calls.length ≤ 2 ^ 61 := by
  rw [← fits_iff]
  constructor
  · intro sound
    exact fits_of_sound sound
  · intro fits
    exact sound_of_fits fits

/-- After the first allocation has failed, the next value is stored through NULL. -/
theorem stores_through_null : run arrayState [⟨1, none, none⟩, ⟨2, none, none⟩] = none ∧
    ¬ Sound [⟨1, none, none⟩, ⟨2, none, none⟩] := by
  refine ⟨rfl, fun sound => ?_⟩
  obtain ⟨values, state, ran, _⟩ := sound 2 le_rfl
  cases ran

-- The seventeenth value needs a second allocation.
example : (run arrayState (List.replicate 17 ⟨5, some fun _ => 7, some fun _ => 7⟩)).map
    (fun result => (result.1, result.2.capacity, (getArray result.2).take (getLength result.2))) =
      some (List.replicate 17 5, 32, List.replicate 17 5) := by
  decide +kernel

end Growth
end PosixC.Dynarray
