import PosixC.Memgrind.Translation

/-! Whole calls of malloc, calloc and realloc.

A call that finds the guard down raises it, runs its body, and returns when it
lowers the guard again. What `syslog` allocates in between finds the guard up
and does not touch the books.
-/

set_option autoImplicit false

namespace PosixC.Memgrind

open Foundation

section Calls

def Request.allocates : Request → Bool
  | .free _ => false
  | _ => true

def Request.bytes : Request → Nat
  | .malloc size | .realloc _ size => size
  | .calloc num size => num * size
  | .free _ => 0

def Request.computed : Request → Nat
  | .malloc size | .realloc _ size => size
  | .calloc num size => SizeT.mul num size
  | .free _ => 0

def Request.checked : Request → Nat
  | .malloc size | .realloc _ size | .calloc _ size => size
  | .free _ => 0

def nested (_ : World) : Action → Bool
  | .call _ _ => true
  | _ => false

/-- A call of the client from its entry to its return. Its body runs from `begun`
to `decided`; `wild` is what lies where the library wrote no service structure. -/
inductive Called (request : Request) (wild : ServiceInfo) (before begun decided after : World) (returned : Nat) :
    Prop where
  | intro {entered waiting : World} {first second : List Action} {noted aside body final : List Note}
      {proposed answer later : Option Nat} {unused : ServiceInfo} :
      before.libcGuard = false →
      memgrindMachine.step before (.call request proposed) = some (entered, []) →
      (memgrindMachine.restrict nested).Run entered first noted begun →
      memgrindMachine.step begun (.proceed answer wild) = some (decided, body) →
      (memgrindMachine.restrict nested).Run decided second aside waiting →
      memgrindMachine.step waiting (.proceed later unused) = some (after, final) →
      final.getLast? = some (.returned returned) → Called request wild before begun decided after returned

theorem Called.alone {request : Request} {wild : ServiceInfo} {before begun decided after : World} {returned : Nat}
    {body final : List Note} (answer : Option Nat) (down : before.libcGuard = false)
    (enters : memgrindMachine.step before (.call request none) = some (begun, []))
    (runs : memgrindMachine.step begun (.proceed answer wild) = some (decided, body))
    (leaves : memgrindMachine.step decided (.proceed none wild) = some (after, final))
    (last : final.getLast? = some (.returned returned)) : Called request wild before begun decided after returned :=
  .intro down enters .start runs .start leaves last

theorem unlimited_fits : SizeT.max ≤ SizeT.max ∧ SizeT.max ≤ SizeT.max ∧ SizeT.max ≤ SizeT.max :=
  ⟨le_rfl, le_rfl, le_rfl⟩

def unlimited : EnviromentSettings := ⟨SizeT.max, SizeT.max, SizeT.max, unlimited_fits⟩

def loaded (settings : EnviromentSettings) : World :=
  { start settings with phase := .running, libcGuard := false }

theorem loaded_reachable (settings : EnviromentSettings) :
    memgrindMachine.Run (start settings) [.init] [] (loaded settings) :=
  Machine.Run.single rfl

inductive Serves : Request → Frame → Prop where
  | malloc {size : Nat} : Serves (.malloc size) (.malloc size)
  | calloc {num size : Nat} : Serves (.calloc num size) (.calloc num size)
  | reallocNull {size : Nat} : Serves (.realloc 0 size) (.malloc size)
  | realloc {entry : Entry} {size : Nat} : entry.ptr ≠ 0 → Serves (.realloc entry.ptr size) (.realloc entry size)

variable {request : Request} {wild : ServiceInfo} {before entered begun decided after world : World} {returned : Nat}
  {frame : Frame} {notes : List Note}

theorem serves_of_enter (allocates : request.allocates = true) (enters : enter before request = some entered) :
    entered.libcGuard = true ∧ entered.statistics = before.statistics ∧
      ∃ frame, entered.pending = some frame ∧ Serves request frame := by
  cases request with
  | malloc size =>
    cases enters
    exact ⟨rfl, rfl, _, rfl, .malloc⟩
  | calloc num size =>
    cases enters
    exact ⟨rfl, rfl, _, rfl, .calloc⟩
  | realloc ptr size =>
    simp only [enter] at enters
    split at enters
    · next null =>
      subst null
      cases enters
      exact ⟨rfl, rfl, _, rfl, .reallocNull⟩
    · next nonnull =>
      obtain ⟨entry, found, rfl⟩ := Option.map_eq_some_iff.mp enters
      obtain rfl := entry_ptr found
      exact ⟨rfl, rfl, _, rfl, .realloc nonnull⟩
  | free ptr => cases allocates

theorem nested_step {answer : Option Nat} (up : world.libcGuard = true)
    (move : Move world (.call request answer) after notes) :
    after.libcGuard = true ∧ after.statistics = world.statistics ∧ after.pending = world.pending := by
  cases move with
  | enter down | give down => cases up.symm.trans down
  | directNull | directAlloc => exact ⟨up, rfl, rfl⟩
  | directRealloc =>
    unfold directRealloc
    split <;> exact ⟨up, rfl, rfl⟩
  | directFree => exact ⟨up, rfl, rfl⟩

theorem nested_run {actions : List Action} (up : world.libcGuard = true)
    (run : (memgrindMachine.restrict nested).Run world actions notes after) :
    after.libcGuard = true ∧ after.statistics = world.statistics ∧ after.pending = world.pending := by
  induction run with
  | start => exact ⟨up, rfl, rfl⟩
  | @next _ _ _ _ _ action _ step ih =>
    obtain ⟨allowed, step⟩ := Machine.step_of_restrict step
    obtain ⟨up, statistics, pending⟩ := ih
    cases action with
    | call request answer =>
      obtain ⟨raised, same, still⟩ := nested_step up (move_of_step step)
      exact ⟨raised, same.trans statistics, still.trans pending⟩
    | _ => cases allowed

theorem leaves_of_serves {answer : Option Nat} (serves : Serves request frame) (pending : begun.pending = some frame)
    (move : Move begun (.proceed answer wild) decided notes) :
    decided.libcGuard = begun.libcGuard ∧ ∃ returned kept, decided.pending = some (.leaving returned kept) := by
  cases move with
  | bookFree other | release other | leave other =>
    cases pending.symm.trans other
    cases serves
  | _ => exact ⟨rfl, _, _, rfl⟩

/-- What a whole call comes to: the step of its body. -/
theorem called_cases (called : Called request wild before begun decided after returned)
    (allocates : request.allocates = true) :
    begun.statistics = before.statistics ∧ after.statistics = decided.statistics ∧ after.libcGuard = false ∧
    ∃ frame answer kept notes, begun.pending = some frame ∧ Serves request frame ∧
      memgrindMachine.step begun (.proceed answer wild) = some (decided, notes) ∧
      decided.pending = some (.leaving returned kept) := by
  obtain ⟨down, call, first, body, second, leave, last⟩ := called
  simp only [memgrindMachine, down, Bool.false_eq_true, if_false] at call
  obtain ⟨world, enters, same⟩ := Option.map_eq_some_iff.mp call
  cases same
  obtain ⟨up, booked, frame, pending, serves⟩ := serves_of_enter allocates enters
  obtain ⟨raised, statistics, opened⟩ := nested_run up first
  obtain ⟨guard, left, kept, leaving⟩ := leaves_of_serves serves (opened.trans pending) (move_of_step body)
  obtain ⟨_, still, waits⟩ := nested_run (guard.trans raised) second
  simp only [memgrindMachine, waits, leaving, Option.some.injEq, proceed] at leave
  have value : left = returned := by
    unfold returnFromGuarded at leave
    cases kept with
    | none =>
      cases leave
      cases last
      rfl
    | some entry =>
      cases leave
      simp only at last
      split at last
      · next zero =>
        cases last
        exact zero
      · cases last
        rfl
  subst value
  have result : after = (returnFromGuarded _ left kept).1 := (congrArg Prod.fst leave).symm
  refine ⟨statistics.trans booked, ?_, ?_, frame, _, kept, _, opened.trans pending, serves, body, leaving⟩
  · rw [result]
    exact still
  · rw [result]
    rfl

theorem asks_of_serves {checked bytes size : Nat} (serves : Serves request frame)
    (asks : Asks frame checked bytes size) :
    checked = request.checked ∧ bytes = request.computed := by
  cases serves with
  | realloc => cases asks
  | malloc | calloc | reallocNull =>
    cases asks
    exact ⟨rfl, rfl⟩

end Calls

section Sizes

variable {heap after : RealHeap} {ptr length size memory : Nat} {answer : Option Nat}

theorem mem_setBlockSize {data : Option ServiceInfo} (member : ⟨ptr, length, data⟩ ∈ heap.blocks) (wild : ServiceInfo) :
    ∃ info, ⟨ptr, length, some info⟩ ∈ (setBlockSize heap ptr size wild).blocks ∧ info.blockSize = size :=
  ⟨_, heap.mem_write_self (fun data => some { data.getD wild with blockSize := size }) member, rfl⟩

theorem mem_placed {data : Option ServiceInfo} (placed : heap.place answer length data = some (memory, after)) :
    ⟨memory, length, data⟩ ∈ after.blocks := by
  obtain ⟨_, _, members⟩ := Heap.mem_of_place _ placed
  exact (members _).mpr (Or.inl rfl)

variable {request : Request} {wild : ServiceInfo} {before begun decided last : World} {returned : Nat}

theorem handed_block (called : Called request wild before begun decided last returned)
    (allocates : request.allocates = true) (nonnull : returned ≠ 0) :
    ∃ info, ⟨userToLib returned, SizeT.add request.computed serviceLength, some info⟩ ∈ decided.heap.blocks ∧
      info.blockSize = request.computed := by
  obtain ⟨_, _, _, frame, answer, kept, notes, pending, serves, body, leaving⟩ := called_cases called allocates
  cases move_of_step body with
  | decline | exhaust | corrupt | reallocFailed | reallocFreed =>
    cases leaving
    exact absurd rfl nonnull
  | allocate opened asks allowed placed =>
    cases pending.symm.trans opened
    obtain ⟨_, rfl⟩ := asks_of_serves serves asks
    cases leaving
    rw [userToLib_libToUser ((Heap.live_of_place placed).mpr (Or.inl rfl))]
    exact ⟨_, Heap.mem_write_self _ (fun _ => some ⟨request.computed, cannaryWord⟩) (mem_placed placed), rfl⟩
  | reallocInPlace opened allowed valid resized =>
    cases pending.symm.trans opened
    cases serves with
    | realloc =>
      cases leaving
      cases resizes_of_realRealloc resized with
      | inPlace found nonempty placed =>
        rw [userToLib_libToUser (live_of_find found)]
        exact mem_setBlockSize (mem_placed placed) wild
  | @reallocMoved _ _ entry _ memory _ opened allowed valid resized =>
    cases pending.symm.trans opened
    cases serves with
    | realloc =>
      cases leaving
      obtain ⟨fresh, live⟩ := live_moved resized
      cases resizes_of_realRealloc resized with
      | moved found nonempty placed =>
        have away : memory ≠ userToLib entry.ptr := fun same => fresh (same ▸ live_of_find found)
        rw [userToLib_libToUser ((live _).mpr (Or.inl rfl))]
        exact mem_setBlockSize ((Heap.mem_release _).mpr ⟨mem_placed placed, away⟩) wild
  | bookFree opened | release opened | leave opened =>
    cases pending.symm.trans opened
    cases serves

/-- A client that gets a pointer gets a block for its exact size and the header,
and the header records that size, exactly when size and header together are
below `2 ^ 64`. -/
theorem handed_large_enough_iff (called : Called request wild before begun decided last returned)
    (allocates : request.allocates = true) (nonnull : returned ≠ 0) :
    (∃ block ∈ decided.heap.blocks, block.base = userToLib returned ∧ serviceLength + request.bytes ≤ block.length ∧
      ∃ info, block.data = some info ∧ info.blockSize = request.bytes) ↔
    serviceLength + request.bytes < 2 ^ 64 := by
  obtain ⟨info, member, recorded⟩ := handed_block called allocates nonnull
  constructor
  · rintro ⟨block, among, base, large, _⟩
    have same := Heap.eq_of_base (by decide) among member base
    rw [same] at large
    exact large.trans_lt (SizeT.add_lt _ _)
  · intro fits
    have same : request.computed = request.bytes := by
      cases request with
      | calloc num size => exact SizeT.mul_exact ((Nat.le_add_left _ _).trans_lt fits)
      | _ => rfl
    rw [same] at member recorded
    refine ⟨_, member, rfl, ?_, info, rfl, recorded⟩
    rw [SizeT.add_exact (by rwa [Nat.add_comm] at fits), Nat.add_comm]

theorem handed_large_enough_small :
    ∃ begun decided after, memgrindMachine.Run (start unlimited) [.init] [] (loaded unlimited) ∧
      Called (.calloc 10 10) ⟨0, ""⟩ (loaded unlimited) begun decided after 4112 ∧
      ∃ block ∈ decided.heap.blocks, block.base = userToLib 4112 ∧ serviceLength + 100 ≤ block.length ∧
        ∃ info, block.data = some info ∧ info.blockSize = 100 := by
  have called : ∃ begun decided after, Called (.calloc 10 10) ⟨0, ""⟩ (loaded unlimited) begun decided after 4112 :=
    ⟨_, _, _, Called.alone (some 4096) rfl rfl rfl rfl rfl⟩
  obtain ⟨begun, decided, after, called⟩ := called
  exact ⟨begun, decided, after, loaded_reachable unlimited, called,
    (handed_large_enough_iff called rfl (by decide)).mpr (by decide)⟩

/-- `malloc(SIZE_MAX)` gets a block of 15 bytes. -/
theorem handed_too_small :
    ∃ begun decided after, memgrindMachine.Run (start unlimited) [.init] [] (loaded unlimited) ∧
      Called (.malloc SizeT.max) ⟨0, ""⟩ (loaded unlimited) begun decided after 4112 ∧
      ¬ ∃ block ∈ decided.heap.blocks, block.base = userToLib 4112 ∧ serviceLength + SizeT.max ≤ block.length ∧
        ∃ info, block.data = some info ∧ info.blockSize = SizeT.max := by
  have called : ∃ begun decided after, Called (.malloc SizeT.max) ⟨0, ""⟩ (loaded unlimited) begun decided after 4112 :=
    ⟨_, _, _, Called.alone (some 4096) rfl rfl rfl rfl rfl⟩
  obtain ⟨begun, decided, after, called⟩ := called
  refine ⟨begun, decided, after, loaded_reachable unlimited, called, ?_⟩
  rintro ⟨block, member, _, large, _⟩
  -- No block is longer than the address space.
  have inside := (decided.heap.inside block member).2
  have extent : block.length ≤ block.extent 24 := le_max_left _ _
  unfold serviceLength at large
  omega

end Sizes

section Failures

/-- What a failed call may change: one of the two counters of failures, by one.
The body leaves the heap as it found it. -/
structure BooksKept (before begun decided after : World) : Prop where
  totalUsed : after.statistics.totalUsed = before.statistics.totalUsed
  totalFreed : after.statistics.totalFreed = before.statistics.totalFreed
  allocationNum : after.statistics.allocationNum = before.statistics.allocationNum
  dealllocationNum : after.statistics.dealllocationNum = before.statistics.dealllocationNum
  blocks : decided.heap = begun.heap
  guard : after.libcGuard = false
  counted : after.statistics.errors = before.statistics.errors + 1 ∧
      after.statistics.declinedAllocations = before.statistics.declinedAllocations ∨
    after.statistics.errors = before.statistics.errors ∧
      after.statistics.declinedAllocations = before.statistics.declinedAllocations + 1

/-- The call is declined; or it is a `realloc` whose header is damaged, or whose
length does not wrap to zero, which would free the block. The counter of the
failure has not reached its limit. -/
def FailsCleanly (request : Request) (wild : ServiceInfo) (begun : World) : Prop :=
  if canAlloc begun.settings begun.statistics request.checked then
    match request with
    | .realloc ptr size => ptr ≠ 0 ∧ begun.statistics.errors < SizeT.max ∧
        (checkServiceValidity (readService begun.heap (userToLib ptr) wild) ≠ 0 ∨
          SizeT.add size serviceLength ≠ 0 ∨ begun.heap.live (userToLib ptr) = false)
    | _ => False
  else begun.statistics.declinedAllocations < SizeT.max

theorem increment_iff (counter : Nat) : SizeT.add counter 1 = counter + 1 ↔ counter < SizeT.max := by
  unfold SizeT.add SizeT.max
  omega

theorem increment_ne (counter : Nat) : SizeT.add counter 1 ≠ counter := by
  unfold SizeT.add
  omega

variable {request : Request} {wild : ServiceInfo} {before begun decided after : World}

theorem booksKept_fail (statistics : begun.statistics = before.statistics) (left : after.libcGuard = false)
    (blocks : decided.heap = begun.heap) (counts : after.statistics = begun.statistics.fail) :
    BooksKept before begun decided after ↔ begun.statistics.errors < SizeT.max := by
  rw [statistics] at counts ⊢
  have errors : after.statistics.errors = SizeT.add before.statistics.errors 1 := by rw [counts]; rfl
  have declined : after.statistics.declinedAllocations = before.statistics.declinedAllocations := by rw [counts]; rfl
  constructor
  · rintro ⟨_, _, _, _, _, _, ⟨grown, _⟩ | ⟨_, grown⟩⟩
    · exact (increment_iff _).mp (errors.symm.trans grown)
    · omega
  · intro room
    have grown := errors.trans ((increment_iff _).mpr room)
    refine ⟨?_, ?_, ?_, ?_, blocks, left, Or.inl ⟨grown, declined⟩⟩ <;> rw [counts] <;> rfl

theorem booksKept_decline (statistics : begun.statistics = before.statistics) (left : after.libcGuard = false)
    (blocks : decided.heap = begun.heap) (counts : after.statistics = begun.statistics.decline) :
    BooksKept before begun decided after ↔ begun.statistics.declinedAllocations < SizeT.max := by
  rw [statistics] at counts ⊢
  have errors : after.statistics.errors = before.statistics.errors := by rw [counts]; rfl
  have declined : after.statistics.declinedAllocations = SizeT.add before.statistics.declinedAllocations 1 := by
    rw [counts]
    rfl
  constructor
  · rintro ⟨_, _, _, _, _, _, ⟨grown, _⟩ | ⟨_, grown⟩⟩
    · omega
    · exact (increment_iff _).mp (declined.symm.trans grown)
  · intro room
    have grown := declined.trans ((increment_iff _).mpr room)
    refine ⟨?_, ?_, ?_, ?_, blocks, left, Or.inr ⟨errors, grown⟩⟩ <;> rw [counts] <;> rfl

theorem libToUser_ne_zero {heap : RealHeap} {memory : Nat} (live : heap.live memory = true) : libToUser memory ≠ 0 := by
  have bound := (Heap.bound_of_live live).2
  unfold SizeT.max at bound
  rw [libToUser, SizeT.add_exact (by unfold serviceLength; omega)]
  unfold serviceLength
  omega

theorem zero_of_leaving {world : World} {returned : Nat} {given kept : Option Entry}
    (leaving : (world.leave returned given).pending = some (.leaving 0 kept)) : returned = 0 := by
  obtain ⟨zero, _⟩ := Frame.leaving.inj (Option.some.inj leaving)
  exact zero

theorem live_eq_false {heap : RealHeap} {ptr : Nat} (missing : heap.find ptr = none) : heap.live ptr = false := by
  rw [Heap.live, missing]
  rfl

theorem nonzero_of_failed {heap : RealHeap} {ptr length : Nat} {answer : Option Nat}
    (failed : realRealloc heap ptr length answer = .failed) : length ≠ 0 := by
  rintro rfl
  unfold realRealloc at failed
  split at failed
  · cases failed
  · cases failed

theorem booksKept_allocate {checked bytes size : Nat} {answer : Option Nat} {kept : Option Entry}
    (statistics : begun.statistics = before.statistics) (left : after.libcGuard = false)
    (body : decided = (allocate begun checked bytes size answer).1) (still : after.statistics = decided.statistics)
    (leaving : decided.pending = some (.leaving 0 kept)) :
    BooksKept before begun decided after ↔
      if canAlloc begun.settings begun.statistics checked then False
      else begun.statistics.declinedAllocations < SizeT.max := by
  subst body
  cases allowed : canAlloc begun.settings begun.statistics checked with
  | false =>
    simp only [allocate, allowed, Bool.false_eq_true, if_false] at still ⊢
    exact booksKept_decline statistics left (by rfl) still
  | true =>
    simp only [if_true, iff_false]
    intro unchanged
    simp only [allocate, allowed, if_true] at still leaving
    cases placed : begun.heap.place answer (SizeT.add bytes serviceLength) none with
    | none =>
      rw [placed, statistics] at still
      have numbered : after.statistics.allocationNum = SizeT.add before.statistics.allocationNum 1 := by
        rw [still]
        rfl
      exact increment_ne _ (numbered.symm.trans unchanged.allocationNum)
    | some result =>
      rw [placed] at leaving
      exact libToUser_ne_zero ((Heap.live_of_place placed).mpr (Or.inl rfl)) (zero_of_leaving leaving)

theorem booksKept_realloc {entry : Entry} {size : Nat} {answer : Option Nat} {kept : Option Entry}
    (statistics : begun.statistics = before.statistics) (left : after.libcGuard = false)
    (body : decided = (reallocBody begun entry size answer wild).1) (still : after.statistics = decided.statistics)
    (leaving : decided.pending = some (.leaving 0 kept)) :
    BooksKept before begun decided after ↔
      if canAlloc begun.settings begun.statistics size then
        begun.statistics.errors < SizeT.max ∧
          (checkServiceValidity (readService begun.heap (userToLib entry.ptr) wild) ≠ 0 ∨
            SizeT.add size serviceLength ≠ 0 ∨ begun.heap.live (userToLib entry.ptr) = false)
      else begun.statistics.declinedAllocations < SizeT.max := by
  subst body
  cases allowed : canAlloc begun.settings begun.statistics size with
  | false =>
    simp only [reallocBody, allowed, Bool.false_eq_true, if_false] at still ⊢
    exact booksKept_decline statistics left (by rfl) still
  | true =>
    simp only [if_true]
    by_cases valid : checkServiceValidity (readService begun.heap (userToLib entry.ptr) wild) = 0
    · simp only [valid, ne_eq, not_true_eq_false, false_or]
      simp only [reallocBody, allowed, if_true, valid, ne_eq, not_true_eq_false, if_false] at still leaving ⊢
      cases resized : realRealloc begun.heap (userToLib entry.ptr) (SizeT.add size serviceLength) answer with
      | undefined =>
        rw [resized] at still
        rw [booksKept_fail statistics left (by rfl) still]
        cases resizes_of_realRealloc resized with
        | undefined missing => rw [and_iff_left (Or.inr (live_eq_false missing))]
      | failed =>
        rw [resized] at still
        rw [booksKept_fail statistics left (by rfl) still, and_iff_left (Or.inl (nonzero_of_failed resized))]
      -- NULL comes back, but the block is gone.
      | freed heap =>
        cases resizes_of_realRealloc resized with
        | freed found zero =>
          have live := live_of_find found
          constructor
          · intro unchanged
            have same : begun.heap.release (userToLib entry.ptr) = begun.heap := unchanged.blocks
            rw [← same] at live
            exact absurd rfl (Heap.live_release.mp live).2
          · rintro ⟨_, nonzero | dead⟩
            · exact absurd zero nonzero
            · cases live.symm.trans dead
      | inPlace heap =>
        rw [resized] at leaving
        cases resizes_of_realRealloc resized with
        | inPlace found => exact absurd (zero_of_leaving leaving) (libToUser_ne_zero (live_of_find found))
      | moved memory heap =>
        rw [resized] at leaving
        have live := ((live_moved resized).2 memory).mpr (Or.inl rfl)
        exact absurd (zero_of_leaving leaving) (libToUser_ne_zero live)
    · simp only [reallocBody, allowed, if_true, if_pos valid] at still ⊢
      rw [booksKept_fail statistics left (by rfl) still, and_iff_left (Or.inl valid)]

/-- A call that returns NULL leaves the books as they were exactly when it was
declined, or was a `realloc` that did not free its block. -/
theorem failed_call_clean_iff (called : Called request wild before begun decided after 0)
    (allocates : request.allocates = true) :
    BooksKept before begun decided after ↔ FailsCleanly request wild begun := by
  obtain ⟨statistics, still, left, frame, answer, kept, notes, pending, serves, body, leaving⟩ :=
    called_cases called allocates
  simp only [memgrindMachine, pending, Option.some.injEq] at body
  have body := (congrArg Prod.fst body).symm
  cases serves with
  | malloc | calloc => exact booksKept_allocate statistics left body still leaving
  | reallocNull =>
    rw [booksKept_allocate statistics left body still leaving]
    simp only [FailsCleanly, Request.checked, ne_eq, not_true_eq_false, false_and]
  | realloc nonnull =>
    rw [booksKept_realloc statistics left body still leaving]
    simp only [FailsCleanly, Request.checked, nonnull, ne_eq, not_false_eq_true, true_and]

theorem failed_call_clean_declined :
    ∃ begun decided after, Called (.malloc 8) ⟨0, ""⟩ (loaded ⟨4, 4, 4, by decide⟩) begun decided after 0 ∧
      BooksKept (loaded ⟨4, 4, 4, by decide⟩) begun decided after := by
  have called : ∃ decided after, Called (.malloc 8) ⟨0, ""⟩ (loaded ⟨4, 4, 4, by decide⟩)
      { loaded ⟨4, 4, 4, by decide⟩ with libcGuard := true, pending := some (.malloc 8) } decided after 0 :=
    ⟨_, _, Called.alone (some 4096) rfl rfl rfl rfl rfl⟩
  obtain ⟨decided, after, called⟩ := called
  exact ⟨_, decided, after, called, (failed_call_clean_iff called rfl).mpr (show 0 < SizeT.max by decide)⟩

/-- The real `malloc` fails after 8 bytes and one allocation were booked. -/
theorem failed_call_booked :
    ∃ begun decided after, Called (.malloc 8) ⟨0, ""⟩ (loaded unlimited) begun decided after 0 ∧
      after.statistics = ⟨8, 0, 1, 0, 1, 0⟩ ∧ ¬ BooksKept (loaded unlimited) begun decided after := by
  refine ⟨_, _, _, Called.alone none rfl rfl rfl rfl rfl, rfl, fun unchanged => ?_⟩
  cases unchanged.totalUsed

end Failures
end PosixC.Memgrind
