import PosixC.Guessing.Cleanup

/-! What a run of hw02/guess.c leaves alive.

Whatever fails, everything is released, except for the block of a library that lacks
one of the four functions: it is in no array yet.
-/

set_option autoImplicit false

namespace PosixC.Guessing

open Foundation CText Ledger

section Results

variable (environment : Environment)

/-- The name of a library that is loaded does not fit into `string_mem`. -/
def Overflows (i : Nat) (names : List Bytes) : Prop :=
  ∃ k, ∃ inside : k < names.length, 73 < names[k].length ∧ ∀ j < k, (environment.library (i + j)).loads = true

def FirstFailing (i count k : Nat) : Prop :=
  k < count ∧ (environment.library (i + k)).loads = false ∧ ∀ j < k, (environment.library (i + j)).loads = true

def leakOf (i : Nat) : Option Nat :=
  if (environment.library i).opens && (environment.library i).allocates then some i else none

inductive Loading (length i : Nat) (names : List Bytes) : Option (Option GuessGame × Usages) → Prop where
  | overflow : Overflows environment i names → Loading length i names none
  | failed {k : Nat} {usages : Usages} : ¬ Overflows environment i names → FirstFailing environment i names.length k →
      Accounts ∅ usages (lost (leakOf environment (i + k))) → Loading length i names (some (none, usages))
  | loaded {usages : Usages} : ¬ Overflows environment i names →
      (∀ j < names.length, (environment.library (i + j)).loads = true) →
      Accounts ∅ usages (held length (some length) none none) →
      Loading length i names (some (some (game length length (some length) none), usages))

end Results

variable {environment : Environment} {length i k : Nat} {handles strategies leak : Option Nat} {usages : Usages}
  {name : Bytes} {names : List Bytes}

section Loads

theorem add_next (i j : Nat) : i + (j + 1) = i + 1 + j := by
  omega

theorem overflows_cons (loads : (environment.library i).loads = true) (short : name.length ≤ 73) :
    Overflows environment i (name :: names) ↔ Overflows environment (i + 1) names := by
  constructor
  · rintro ⟨k, inside, long, before⟩
    cases k with
    | zero => exact absurd long (by simpa using short)
    | succ k =>
      refine ⟨k, Nat.lt_of_succ_lt_succ inside, long, fun j below => ?_⟩
      rw [← add_next]
      exact before (j + 1) (Nat.succ_lt_succ below)
  · rintro ⟨k, inside, long, before⟩
    refine ⟨k + 1, Nat.succ_lt_succ inside, long, fun j below => ?_⟩
    cases j with
    | zero => exact loads
    | succ j =>
      rw [add_next]
      exact before j (Nat.lt_of_succ_lt_succ below)

theorem not_overflows_of_fails (fails : (environment.library i).loads = false) (short : name.length ≤ 73) :
    ¬ Overflows environment i (name :: names) := by
  rintro ⟨k, inside, long, before⟩
  cases k with
  | zero => exact absurd long (by simpa using short)
  | succ k => exact Bool.false_ne_true (fails.symm.trans (before 0 k.succ_pos))

theorem firstFailing_cons {count : Nat} (loads : (environment.library i).loads = true)
    (failing : FirstFailing environment (i + 1) count k) : FirstFailing environment i (count + 1) (k + 1) := by
  obtain ⟨inside, fails, before⟩ := failing
  refine ⟨Nat.succ_lt_succ inside, by rwa [add_next], fun j below => ?_⟩
  cases j with
  | zero => exact loads
  | succ j =>
    rw [add_next]
    exact before j (Nat.lt_of_succ_lt_succ below)

theorem Loading.cons {result : Option (Option GuessGame × Usages)} (loads : (environment.library i).loads = true)
    (short : name.length ≤ 73) (loading : Loading environment length (i + 1) names result) :
    Loading environment length i (name :: names) result := by
  cases loading with
  | overflow overflows => exact .overflow ((overflows_cons loads short).mpr overflows)
  | @failed k _ fits failing left =>
    apply Loading.failed (mt (overflows_cons loads short).mp fits) (firstFailing_cons loads failing)
    rwa [add_next]
  | loaded fits all left =>
    apply Loading.loaded (mt (overflows_cons loads short).mp fits) _ left
    intro j below
    cases j with
    | zero => exact loads
    | succ j =>
      rw [add_next]
      exact all j (Nat.lt_of_succ_lt_succ below)

theorem loading_of_giveUp {opened : Nat} (inside : i < length) (bound : opened ≤ length)
    (fails : (environment.library i).loads = false) (short : name.length ≤ 73)
    (acquired : Accounts ∅ usages (held i (some opened) none (leakOf environment i))) :
    Loading environment length i (name :: names) (giveUp (game length i (some opened) none) usages) := by
  have fresh : ∀ j ∈ leakOf environment i, i ≤ j := by
    intro j member
    simp only [leakOf, Option.mem_def, Option.ite_none_right_eq_some, Option.some.injEq] at member
    exact member.2.le
  have within : ∀ count ∈ some opened, count ≤ length := fun count member => Option.some.inj member ▸ bound
  obtain ⟨released, cleaned, accounts⟩ :=
    cleanup_releases inside.le fresh within (by simp) acquired
  rw [giveUp, cleaned]
  exact .failed (not_overflows_of_fails fails short) ⟨Nat.succ_pos _, fails, fun j below => nomatch below⟩ accounts

theorem initLibraries_loading (rest : i + names.length = length)
    (acquired : Accounts ∅ usages (held i (some i) none none)) :
    Loading environment length i names (initLibraries environment (game length i (some i) none) usages i names) := by
  induction names generalizing i usages with
  | nil =>
    obtain rfl : i = length := rest
    exact .loaded (fun ⟨k, inside, _⟩ => nomatch inside) nofun acquired
  | cons name names ih =>
    have inside : i < length := by
      rw [List.length_cons] at rest
      omega
    simp only [initLibraries, bufferLength]
    by_cases long : 80 < name.length + 6 + 1
    · rw [if_pos long]
      exact .overflow ⟨0, Nat.succ_pos _, by simp; omega, nofun⟩
    · have short : name.length ≤ 73 := by omega
      rw [if_neg long, if_neg (by omega)]
      cases opens : (environment.library i).opens with
      | false =>
        have fails : (environment.library i).loads = false := by simp [Library.loads, opens]
        have none : leakOf environment i = none := by simp [leakOf, opens]
        have given := @loading_of_giveUp _ _ _ _ _ names _ inside inside.le fails short (by rwa [none])
        simpa [game, stored, filled_same] using given
      | true =>
        rw [if_neg Bool.noConfusion]
        have opened : Accounts ∅ (usages ++ [.event (.acquire (.handle i))]) (held i (some (i + 1)) none none) := by
          apply acquired.append (accounts_acquire _ fun other => _)
          · simp [held]
          · intro other
            cases other <;> simp [held]
            omega
        have grown : stored (some (filled length i)) i (some i) = some (filled length (i + 1)) := by
          simp [stored, filled_succ inside]
        simp only [game, Option.map_some, grown]
        cases allocates : (environment.library i).allocates with
        | false =>
          have fails : (environment.library i).loads = false := by simp [Library.loads, allocates]
          have none : leakOf environment i = none := by simp [leakOf, allocates]
          exact @loading_of_giveUp _ _ _ _ _ names _ inside inside fails short (by rwa [none])
        | true =>
          rw [if_neg Bool.noConfusion]
          -- The block is allocated, and `dlsym` uses the handle.
          have allocated : Accounts ∅
              (usages ++ [.event (.acquire (.handle i))] ++ [.event (.acquire (.function i)), .use (.handle i)])
              (held (i + 1) (some (i + 1)) none none) := by
            refine opened.append ((accounts_acquire ?_ fun other => ?_).cons (accounts_use ?_))
            · simp [held]
            · cases other <;> simp [held]
              omega
            · simp [held]
          cases symbols : (environment.library i).symbols with
          | false =>
            have fails : (environment.library i).loads = false := by simp [Library.loads, symbols]
            -- `cleanup` does not know the block, which is put into its array at the end only.
            have leaks : leakOf environment i = some i := by simp [leakOf, opens, allocates]
            apply @loading_of_giveUp _ _ _ _ _ names _ inside inside fails short
            rw [leaks]
            apply allocated.congr
            intro resource
            cases resource <;> simp [held]
            omega
          | true =>
            rw [if_neg Bool.noConfusion]
            have loads : (environment.library i).loads = true := by simp [Library.loads, opens, allocates, symbols]
            apply Loading.cons loads short
            have next := ih (by rw [← rest, List.length_cons]; omega) allocated
            simpa [game, stored, filled_succ inside] using next

end Loads
section Starts

inductive Starting (environment : Environment) (length i left : Nat) : Option (Option GuessGame × Usages) → Prop where
  | failed {j : Nat} {usages : Usages} : j < left → (environment.library (i + j)).initialises = false →
      Accounts ∅ usages (lost none) → Starting environment length i left (some (none, usages))
  | started {usages : Usages} : (∀ j < left, (environment.library (i + j)).initialises = true) →
      Accounts ∅ usages (held length (some length) (some length) none) →
      Starting environment length i left (some (some (game length length (some length) (some length)), usages))

theorem Starting.next {left : Nat} {result : Option (Option GuessGame × Usages)}
    (initialises : (environment.library i).initialises = true) (starting : Starting environment length (i + 1) left result) :
    Starting environment length i (left + 1) result := by
  cases starting with
  | @failed j _ inside fails left =>
    apply Starting.failed (Nat.succ_lt_succ inside) _ left
    rwa [add_next]
  | started all left =>
    apply Starting.started _ left
    intro j below
    cases j with
    | zero => exact initialises
    | succ j =>
      rw [add_next]
      exact all j (Nat.lt_of_succ_lt_succ below)

theorem initStrategies_starting {left : Nat} (rest : i + left = length)
    (acquired : Accounts ∅ usages (held length (some length) (some i) none)) :
    Starting environment length i left
      (initStrategies environment (game length length (some length) (some i)) usages left i) := by
  induction left generalizing i usages with
  | zero =>
    obtain rfl : i = length := rest
    exact .started nofun acquired
  | succ left ih =>
    have inside : i < length := by omega
    have call := callLibrary_filled inside
    have called : Accounts (held length (some length) (some i) none) [.use (.function i), .use (.handle i)]
        (held length (some length) (some i) none) := accounts_call (Or.inl inside) ⟨length, rfl, inside⟩
    rw [initStrategies]
    simp only [game, Option.bind_some, call, Option.map_some]
    cases initialises : (environment.library i).initialises with
    | false =>
      have same : stored (some (filled length i)) i none = some (filled length i) := by simp [stored, filled_same]
      have kept := acquired.append called
      obtain ⟨released, cleaned, accounts⟩ := cleanup_releases (Nat.le_refl length) (by simp) (by simp)
        (by simpa using inside.le) kept
      rw [if_neg Bool.false_ne_true, same, giveUp]
      simp only [game, Option.map_some] at cleaned
      rw [cleaned]
      exact .failed (Nat.succ_pos left) initialises accounts
    | true =>
      rw [if_pos rfl]
      apply Starting.next initialises
      have grown : stored (some (filled length i)) i (some i) = some (filled length (i + 1)) := by
        simp [stored, filled_succ inside]
      rw [grown]
      apply ih (by omega)
      refine acquired.append (called.append (accounts_acquire ?_ fun other => ?_))
      · simp [held]
      · cases other <;> simp [held]
        omega

end Starts

section Games

theorem called_inside {World : Type} {strategies : Strategies World} {rand min max : Int} {world : World}
    {events : List Event} {count : Nat} (played : gameloop strategies rand min max world = some (events, count)) :
    ∀ event ∈ events, ∀ index ∈ event.called, index < strategies.length := by
  obtain ⟨_, rfl⟩ := gameloop_spec played
  intro event member index call
  simp only [gameEvents, List.mem_append, List.mem_cons, List.mem_flatMap, List.mem_range] at member
  rcases member with (rfl | ⟨k, _, inside⟩) | last
  · cases call
  · have below : k % strategies.length < strategies.length := Nat.mod_lt k strategies.nonempty
    simp only [tryEvents, List.mem_append, List.mem_cons, List.not_mem_nil, or_false] at inside
    rcases inside with (rfl | rfl) | inside
    · cases call
      exact below
    · cases call
    · split at inside
      · obtain rfl := List.mem_singleton.mp inside
        cases call
        exact below
      · obtain rfl := List.mem_singleton.mp inside
        cases call
  · split at last
    · obtain rfl := List.mem_singleton.mp last
      cases call
    · cases last

theorem callStrategy_filled (inside : i < length) :
    callStrategy (filled length length) (filled length length) i =
      some [.use (.function i), .use (.handle i), .use (.strategy i)] := by
  simp [callStrategy, callLibrary_filled inside, filled_getElem? inside, inside]

theorem accounts_callStrategy (inside : i < length) :
    Accounts (held length (some length) (some length) none) [.use (.function i), .use (.handle i), .use (.strategy i)]
      (held length (some length) (some length) none) := by
  refine (accounts_use ?_).cons ((accounts_use ?_).cons (accounts_use ?_))
  · exact Or.inl inside
  · exact ⟨length, rfl, inside⟩
  · exact ⟨length, rfl, inside⟩

theorem played_uses {events : List Event} (inside : ∀ event ∈ events, ∀ index ∈ event.called, index < length) :
    ∃ calls, played (filled length length) (filled length length) events = some calls ∧
      Accounts (held length (some length) (some length) none) calls (held length (some length) (some length) none) := by
  induction events with
  | nil => exact ⟨[], rfl, accounts_nil⟩
  | cons event later ih =>
    obtain ⟨calls, same, accounts⟩ := ih fun other member => inside other (List.mem_cons_of_mem _ member)
    rw [played, same]
    cases call : event.called with
    | none => exact ⟨calls, rfl, accounts⟩
    | some index =>
      have below := inside event List.mem_cons_self index call
      rw [Option.elim_some, callStrategy_filled below]
      exact ⟨_, rfl, (accounts_callStrategy below).append accounts⟩

theorem playGame_releases {World : Type} (play : Play World) (first : Bytes)
    (acquired : Accounts ∅ usages
      (held (first :: names).length (some (first :: names).length) (some (first :: names).length) none)) :
    ∃ tries left, playGame play first names (game (first :: names).length (first :: names).length
        (some (first :: names).length) (some (first :: names).length)) usages = some (some tries, left) ∧
      Accounts ∅ left (lost none) := by
  let strategies : Strategies World := ⟨(first :: names).length, Nat.succ_pos _, play.guess, play.notify⟩
  obtain ⟨events, tries, plays⟩ := @gameloop_plays World strategies play.world play.rand 0 100 (by decide)
  obtain ⟨calls, same, accounts⟩ := played_uses (called_inside plays)
  obtain ⟨released, cleaned, left⟩ := cleanup_releases (Nat.le_refl _) (by simp) (by simp) (by simp)
    (acquired.append accounts)
  refine ⟨tries, _, ?_, left⟩
  simp only [playGame]
  rw [plays, Option.bind_some]
  simp only [game, Option.map_some, Option.bind_some] at cleaned ⊢
  rw [same, cleaned]
  rfl

end Games

section Runs

variable {World : Type}

def leaked (environment : Environment) (length : Nat) : List Resource :=
  if environment.functions && environment.handles then
    (((List.range length).find? fun i => !(environment.library i).loads).bind (leakOf environment)).toList.map .function
  else []

theorem account_of_lost (accounts : Accounts ∅ usages (lost leak)) :
    account [] usages = some (leak.toList.map .function) := by
  obtain ⟨left, accounted, lists⟩ := accounts [] lists_nil
  rw [accounted]
  cases leak with
  | none =>
    have empty : lost none = ∅ := by
      ext resource
      simp [lost]
    rw [empty] at lists
    rw [lists.eq_nil]
    rfl
  | some i =>
    have single : lost (some i) = {.function i} := by
      ext resource
      simp [lost]
    rw [single] at lists
    rw [lists.eq_singleton]
    rfl

theorem firstFailing_find {count : Nat} (failing : FirstFailing environment 0 count k) :
    (List.range count).find? (fun i => !(environment.library i).loads) = some k := by
  obtain ⟨inside, fails, before⟩ := failing
  rw [Nat.zero_add] at fails
  rw [List.find?_range_eq_some]
  exact ⟨by simp [fails], List.mem_range.mpr inside, fun j below => by simpa using before j below⟩

theorem loads_find {count : Nat} (all : ∀ j < count, (environment.library (0 + j)).loads = true) :
    (List.range count).find? (fun i => !(environment.library i).loads) = none := by
  rw [List.find?_range_eq_none]
  intro i below
  simpa using all i below

def Succeeds (environment : Environment) (length : Nat) : Prop :=
  environment.functions = true ∧ environment.handles = true ∧ environment.strategies = true ∧
    ∀ i < length, (environment.library i).loads = true ∧ (environment.library i).initialises = true

inductive Ending (environment : Environment) (names : List Bytes) : Option (Option Nat × Usages) → Prop where
  | overflow : environment.functions = true → environment.handles = true → Overflows environment 0 names →
      Ending environment names none
  | failed {usages : Usages} :
      ¬ (environment.functions = true ∧ environment.handles = true ∧ Overflows environment 0 names) →
      account [] usages = some (leaked environment names.length) → ¬ Succeeds environment names.length →
      Ending environment names (some (none, usages))
  | played {tries : Nat} {usages : Usages} : ¬ Overflows environment 0 names →
      account [] usages = some (leaked environment names.length) → Succeeds environment names.length →
      Ending environment names (some (some tries, usages))

theorem leaked_loaded (all : ∀ j < length, (environment.library (0 + j)).loads = true) : leaked environment length = [] := by
  unfold leaked
  split
  · rw [loads_find all]
    rfl
  · rfl

theorem acquired_functions : Accounts ∅ [.event (.acquire .functions)] (held 0 none none none) := by
  refine accounts_acquire ?_ fun other => ?_
  · simp
  · cases other <;> simp [held]

theorem acquired_arrays :
    Accounts ∅ [.event (.acquire .functions), .event (.acquire .handles)] (held 0 (some 0) none none) := by
  refine acquired_functions.cons (accounts_acquire ?_ fun other => ?_)
  · simp [held]
  · cases other <;> simp [held]

theorem startStrategies_ending (play : Play World) (first : Bytes) (functions : environment.functions = true)
    (handles : environment.handles = true) (fits : ¬ Overflows environment 0 (first :: names))
    (all : ∀ j < (first :: names).length, (environment.library (0 + j)).loads = true)
    (acquired : Accounts ∅ usages (held (first :: names).length (some (first :: names).length) none none)) :
    Ending environment (first :: names) (startStrategies environment play first names
      (some (game (first :: names).length (first :: names).length (some (first :: names).length) none), usages)) := by
  have fits' : ¬ (environment.functions = true ∧ environment.handles = true ∧ Overflows environment 0 (first :: names)) :=
    fun ⟨_, _, overflows⟩ => fits overflows
  have nothing := leaked_loaded all
  rw [startStrategies]
  cases strategies : environment.strategies with
  | false =>
    obtain ⟨released, cleaned, accounts⟩ := cleanup_releases (Nat.le_refl _) (by simp) (by simp) (by simp) acquired
    rw [if_pos rfl, giveUp, cleaned]
    refine .failed fits' ?_ fun succeeds => ?_
    · rw [nothing, account_of_lost accounts]
      rfl
    · exact Bool.false_ne_true (strategies.symm.trans succeeds.2.2.1)
  | true =>
    have begun : Accounts ∅ (usages ++ [.event (.acquire .strategies)])
        (held (first :: names).length (some (first :: names).length) (some 0) none) := by
      refine acquired.append (accounts_acquire ?_ fun other => ?_)
      · simp [held]
      · cases other <;> simp [held]
    have starting : Starting environment (first :: names).length 0 (first :: names).length _ :=
      initStrategies_starting (Nat.zero_add _) begun
    rw [if_neg Bool.noConfusion]
    simp only [game, filled_zero, Option.map_none, Option.map_some] at starting ⊢
    generalize initStrategies environment _ _ _ 0 = result at starting ⊢
    cases starting with
    | failed inside fails accounts =>
      refine .failed fits' ?_ fun succeeds => ?_
      · rw [nothing, account_of_lost accounts]
        rfl
      · rw [Nat.zero_add] at fails
        exact Bool.false_ne_true (fails.symm.trans (succeeds.2.2.2 _ inside).2)
    | started initialised accounts =>
      obtain ⟨tries, left, played, accounts⟩ := playGame_releases play first accounts
      rw [Option.bind_some, startGame]
      simp only [game, Option.map_some] at played ⊢
      rw [played]
      refine .played fits ?_ ⟨functions, handles, strategies, fun i below => ?_⟩
      · rw [nothing, account_of_lost accounts]
        rfl
      · exact ⟨by simpa using all i below, by simpa using initialised i below⟩

theorem guessMain_ending (environment : Environment) (play : Play World) (first : Bytes) (names : List Bytes) :
    Ending environment (first :: names) (guessMain environment play (first :: names)) := by
  rw [guessMain]
  cases functions : environment.functions with
  | false =>
    rw [if_pos rfl]
    refine .failed (by simp [functions]) ?_ fun succeeds => ?_
    · simp [leaked, functions, account]
    · exact Bool.false_ne_true (functions.symm.trans succeeds.1)
  | true =>
    rw [if_neg Bool.noConfusion]
    cases handles : environment.handles with
    | false =>
      obtain ⟨released, cleaned, accounts⟩ := @cleanup_releases (first :: names).length 0 none none none _ (Nat.zero_le _)
        (by simp) (by simp) (by simp) acquired_functions
      rw [if_pos rfl]
      simp only [game, Option.map_none, filled_zero] at cleaned ⊢
      rw [giveUp, cleaned]
      refine .failed (by simp [handles]) ?_ fun succeeds => ?_
      · simp only [leaked, handles, Bool.and_false, Bool.false_eq_true, if_false]
        exact account_of_lost accounts
      · exact Bool.false_ne_true (handles.symm.trans succeeds.2.1)
    | true =>
      have loading : Loading environment (first :: names).length 0 (first :: names) _ :=
        initLibraries_loading (Nat.zero_add _) acquired_arrays
      rw [if_neg Bool.noConfusion]
      simp only [game, Option.map_some, Option.map_none, filled_zero, List.singleton_append] at loading ⊢
      generalize initLibraries environment _ _ 0 (first :: names) = result at loading ⊢
      cases loading with
      | overflow overflows => exact .overflow functions handles overflows
      | @failed k left fits failing accounts =>
        refine .failed (fun both => fits both.2.2) ?_ fun succeeds => ?_
        · rw [Nat.zero_add] at accounts
          rw [leaked, functions, handles, firstFailing_find failing]
          exact account_of_lost accounts
        · obtain ⟨inside, fails, _⟩ := failing
          rw [Nat.zero_add] at fails
          exact Bool.false_ne_true (fails.symm.trans (succeeds.2.2.2 _ inside).1)
      | loaded fits all accounts => exact startStrategies_ending play first functions handles fits all accounts

def lacking : Environment := ⟨true, true, true, fun i => ⟨true, true, decide (i = 0), true⟩⟩

end Runs
end PosixC.Guessing
