import PosixC.Memgrind.Translation

/-! The books of the allocation tracker.

The counters are of type `size_t` and may wrap, so the books relate them to the
live blocks modulo `2 ^ 64`. The live blocks fit into the address space, which
makes the differences of the counters exact.
-/

set_option autoImplicit false

namespace PosixC.Memgrind

open Foundation

section Books

structure Books (statistics : MemoryStatistics) (sum count total : Nat) : Prop where
  used : statistics.totalUsed = (statistics.totalFreed + sum) % 2 ^ 64
  allocated : statistics.allocationNum = (statistics.dealllocationNum + count) % 2 ^ 64
  freed : statistics.totalFreed < 2 ^ 64
  deallocated : statistics.dealllocationNum < 2 ^ 64
  numbered : statistics.allocationNum = total % 2 ^ 64
  few : count ≤ total

variable {statistics : MemoryStatistics} {sum count total : Nat}

theorem books_zero : Books ⟨0, 0, 0, 0, 0, 0⟩ 0 0 0 := by
  constructor <;> decide

theorem Books.fail (books : Books statistics sum count total) : Books statistics.fail sum count total := by
  obtain ⟨used, allocated, freed, deallocated, numbered, few⟩ := books
  exact ⟨used, allocated, freed, deallocated, numbered, few⟩

theorem Books.decline (books : Books statistics sum count total) : Books statistics.decline sum count total := by
  obtain ⟨used, allocated, freed, deallocated, numbered, few⟩ := books
  exact ⟨used, allocated, freed, deallocated, numbered, few⟩

theorem Books.allocate (books : Books statistics sum count total) (bytes : Nat) :
    Books (statistics.allocate bytes) (sum + bytes) (count + 1) (total + 1) := by
  obtain ⟨used, allocated, freed, deallocated, numbered, few⟩ := books
  constructor
  case few => omega
  all_goals
    simp only [MemoryStatistics.allocate, SizeT.add]
    omega

theorem Books.release {bytes : Nat} (books : Books statistics (sum + bytes) (count + 1) total) :
    Books (statistics.release bytes) sum count total := by
  obtain ⟨used, allocated, freed, deallocated, numbered, few⟩ := books
  constructor
  case few => omega
  all_goals
    simp only [MemoryStatistics.release, SizeT.add]
    omega

theorem Books.resize {blockSize : Nat} (books : Books statistics (sum + blockSize) count total) (size : Nat) :
    Books (statistics.resize blockSize size) (sum + size) count total := by
  obtain ⟨used, allocated, freed, deallocated, numbered, few⟩ := books
  unfold MemoryStatistics.resize
  split
  all_goals
    constructor
    case few => omega
    all_goals
      simp only [SizeT.add]
      omega

theorem Books.move {blockSize : Nat} (books : Books statistics (sum + blockSize) count total) (size : Nat) :
    Books (statistics.move blockSize size) (sum + size) count (total + 1) := by
  obtain ⟨used, allocated, freed, deallocated, numbered, few⟩ := books
  constructor
  case few => omega
  all_goals
    simp only [MemoryStatistics.move, SizeT.add]
    omega

theorem Books.sub_used (books : Books statistics sum count total) (small : sum < 2 ^ 64) :
    SizeT.sub statistics.totalUsed statistics.totalFreed = sum := by
  have used := books.used
  have freed := books.freed
  unfold SizeT.sub
  split <;> omega

theorem Books.sub_allocated (books : Books statistics sum count total) (small : count < 2 ^ 64) :
    SizeT.sub statistics.allocationNum statistics.dealllocationNum = count := by
  have allocated := books.allocated
  have deallocated := books.deallocated
  unfold SizeT.sub
  split <;> omega

/-- Before the first counter wraps, it exceeds the second one by the live blocks. -/
theorem Books.allocated_exact (books : Books statistics sum count total) (small : total < 2 ^ 64) :
    statistics.allocationNum = statistics.dealllocationNum + count := by
  obtain ⟨used, allocated, freed, deallocated, numbered, few⟩ := books
  omega

theorem Books.printFinal (books : Books statistics sum count total) (bytes : sum < 2 ^ 64) (small : total < 2 ^ 64) :
    printFinal statistics = if count = 0 then none else some (sum, count) := by
  have few := books.few
  have exact := books.allocated_exact small
  unfold Memgrind.printFinal
  rw [books.sub_used bytes, books.sub_allocated (by omega)]
  by_cases none : count = 0
  · rw [if_neg (by omega), if_pos none]
  · rw [if_pos (by omega), if_neg none]

end Books

section Headers

def Entry.block (entry : Entry) : Block (Option ServiceInfo) :=
  ⟨userToLib entry.ptr, entry.size + serviceLength, some ⟨entry.size, cannaryWord⟩⟩

variable {heap after : RealHeap} {entry : Entry} {ptr size : Nat}

theorem readService_block (member : entry.block ∈ heap.blocks) (wild : ServiceInfo) :
    readService heap (userToLib entry.ptr) wild = ⟨entry.size, cannaryWord⟩ := by
  have found : heap.find (userToLib entry.ptr) = some entry.block := Heap.find_of_mem (by decide) member
  rw [readService, found]
  rfl

theorem validity_block (member : entry.block ∈ heap.blocks) (wild : ServiceInfo) :
    checkServiceValidity (readService heap (userToLib entry.ptr) wild) = 0 := by
  rw [readService_block member]
  rfl

theorem mem_initialised {answer : Option Nat} {memory : Nat} (fits : size + serviceLength < 2 ^ 64)
    (placed : heap.place answer (SizeT.add size serviceLength) none = some (memory, after)) :
    Entry.block ⟨libToUser memory, size, false⟩ ∈ (initialiseServiceBlock after memory size).blocks := by
  obtain ⟨_, _, members⟩ := Heap.mem_of_place _ placed
  have written := Heap.mem_write_self after (fun _ => some ⟨size, cannaryWord⟩) ((members _).mpr (Or.inl rfl))
  have base := userToLib_libToUser ((Heap.live_of_place placed).mpr (Or.inl rfl))
  rw [SizeT.add_exact fits] at written
  unfold Entry.block
  rw [base]
  exact written

theorem keptData_block (entry : Entry) (size : Nat) :
    keptData entry.block (size + serviceLength) = some ⟨entry.size, cannaryWord⟩ :=
  if_pos (le_min (Nat.le_add_left _ _) (Nat.le_add_left _ _))

theorem mem_inPlace {answer : Option Nat} (fits : size + serviceLength < 2 ^ 64) (member : entry.block ∈ heap.blocks)
    (resized : realRealloc heap (userToLib entry.ptr) (SizeT.add size serviceLength) answer = .inPlace after)
    (wild : ServiceInfo) :
    Entry.block ⟨libToUser (userToLib entry.ptr), size, false⟩ ∈
      (setBlockSize after (userToLib entry.ptr) size wild).blocks := by
  have found : heap.find (userToLib entry.ptr) = some entry.block := Heap.find_of_mem (by decide) member
  have base := userToLib_libToUser (live_of_find found)
  cases resizes_of_realRealloc resized with
  | inPlace same nonempty placed =>
    cases found.symm.trans same
    rw [SizeT.add_exact fits, keptData_block] at placed
    obtain ⟨_, _, members⟩ := Heap.mem_of_place _ placed
    unfold Entry.block
    rw [base]
    exact Heap.mem_write_self after _ ((members _).mpr (Or.inl rfl))

theorem mem_moved {answer : Option Nat} {memory : Nat} (fits : size + serviceLength < 2 ^ 64)
    (member : entry.block ∈ heap.blocks)
    (resized : realRealloc heap (userToLib entry.ptr) (SizeT.add size serviceLength) answer = .moved memory after)
    (wild : ServiceInfo) :
    Entry.block ⟨libToUser memory, size, false⟩ ∈ (setBlockSize after memory size wild).blocks := by
  have found : heap.find (userToLib entry.ptr) = some entry.block := Heap.find_of_mem (by decide) member
  obtain ⟨fresh, live⟩ := live_moved resized
  have base := userToLib_libToUser ((live memory).mpr (Or.inl rfl))
  cases resizes_of_realRealloc resized with
  | moved same nonempty placed =>
    cases found.symm.trans same
    rw [SizeT.add_exact fits, keptData_block] at placed
    obtain ⟨_, _, members⟩ := Heap.mem_of_place _ placed
    unfold Entry.block
    rw [base]
    have away : memory ≠ userToLib entry.ptr := fun same => fresh (same ▸ live_of_find found)
    exact Heap.mem_write_self _ _ ((Heap.mem_release _).mpr ⟨(members _).mpr (Or.inl rfl), away⟩)

theorem mem_of_inPlace {block : Block (Option ServiceInfo)} {length : Nat} {answer : Option Nat}
    (resized : realRealloc heap ptr length answer = .inPlace after) (member : block ∈ heap.blocks)
    (away : block.base ≠ ptr) : block ∈ after.blocks := by
  cases resizes_of_realRealloc resized with
  | inPlace found nonempty placed =>
    obtain ⟨_, _, members⟩ := Heap.mem_of_place _ placed
    exact (members block).mpr (Or.inr ((Heap.mem_release _).mpr ⟨member, away⟩))

theorem mem_of_moved {block : Block (Option ServiceInfo)} {length memory : Nat} {answer : Option Nat}
    (resized : realRealloc heap ptr length answer = .moved memory after) (member : block ∈ heap.blocks)
    (away : block.base ≠ ptr) : block ∈ after.blocks ∧ block.base ≠ memory := by
  cases resizes_of_realRealloc resized with
  | moved found nonempty placed =>
    obtain ⟨_, room, members⟩ := Heap.mem_of_place _ placed
    refine ⟨(Heap.mem_release _).mpr ⟨(members block).mpr (Or.inr member), away⟩, ?_⟩
    exact room.fresh (by decide) member

end Headers

section Ledger

/-- What the client owns: the blocks handed out with a service structure. -/
def World.clientBlocks (world : World) : List Entry := world.ledger.filter fun entry => !entry.raw

def inHand : Option Frame → List Entry
  | some (.realloc entry _) | some (.free entry) | some (.leaving _ (some entry)) => [entry]
  | _ => []

def World.booked (world : World) : List Entry := world.clientBlocks ++ inHand world.pending

def sizes (entries : List Entry) : Nat := (entries.map Entry.size).sum

/-- The rules for the callers: a pointer comes back to the kind of call that
handed it out, and a size leaves room for the service structure. -/
def regular (world : World) (action : Action) : Bool :=
  match action with
  | .call (.malloc size) _ => world.libcGuard ∨ size + serviceLength < 2 ^ 64
  | .call (.calloc num size) _ => world.libcGuard ∨ num * size + serviceLength < 2 ^ 64
  | .call (.realloc ptr size) _ =>
      (∀ entry ∈ world.entry ptr, entry.raw = world.libcGuard) ∧ (world.libcGuard ∨ size + serviceLength < 2 ^ 64)
  | .call (.free ptr) _ => ∀ entry ∈ world.entry ptr, entry.raw = world.libcGuard
  | _ => true

def Frame.Fits : Frame → Prop
  | .malloc size => size + serviceLength < 2 ^ 64
  | .calloc num size => num * size + serviceLength < 2 ^ 64
  | .realloc entry size => entry.raw = false ∧ size + serviceLength < 2 ^ 64
  | .free entry => entry.raw = false
  | .releasing _ => True
  | .leaving _ kept => ∀ entry ∈ kept, entry.raw = false

structure Accounted (notes : List Note) (world : World) : Prop where
  fits : ∀ frame, world.pending = some frame → frame.Fits
  headers : ∀ entry ∈ world.booked, entry.block ∈ world.heap.blocks
  books : Books world.statistics (sizes world.booked) world.booked.length (notes.count .numbered)

variable {world after : World} {action : Action} {notes written : List Note} {entry other : Entry}

theorem mem_clientBlocks : entry ∈ world.clientBlocks ↔ entry ∈ world.ledger ∧ entry.raw = false := by
  simp [World.clientBlocks]

theorem raw_of_booked (accounted : Accounted notes world) (member : entry ∈ world.booked) : entry.raw = false := by
  rcases List.mem_append.mp member with owned | held
  · exact (mem_clientBlocks.mp owned).2
  · cases pending : world.pending with
    | none =>
      rw [pending] at held
      cases held
    | some frame =>
      have fits := accounted.fits frame pending
      rw [pending] at held
      cases frame with
      | malloc | calloc | releasing => cases held
      | realloc holder size =>
        cases List.mem_singleton.mp held
        exact fits.1
      | free holder =>
        cases List.mem_singleton.mp held
        exact fits
      | leaving returned kept =>
        cases kept with
        | none => cases held
        | some holder =>
          cases List.mem_singleton.mp held
          exact fits entry rfl

theorem booked_of_pending {frame : Frame} (pending : world.pending = some frame) :
    world.booked = world.clientBlocks ++ inHand (some frame) := by
  rw [World.booked, pending]

theorem booked_idle (idle : world.pending = none) : world.booked = world.clientBlocks := by
  rw [World.booked, idle]
  exact List.append_nil _

theorem inHand_transit (pending : Option Frame) : ((inHand pending).map Entry.base).Sublist (transit pending) := by
  cases pending with
  | none => exact List.Sublist.refl _
  | some frame =>
    cases frame with
    | malloc | calloc | realloc | free => exact List.Sublist.refl _
    | releasing ptr => exact List.nil_sublist _
    | leaving returned kept => cases kept <;> exact List.Sublist.refl _

theorem booked_bases (accounted : Accounted notes world) :
    (world.booked.map fun entry => entry.block.base).Sublist world.bases := by
  have same : (world.booked.map fun entry => entry.block.base) = world.booked.map Entry.base :=
    List.map_congr_left fun entry member => (base_translated (raw_of_booked accounted member)).symm
  rw [same, World.booked, World.bases, List.map_append]
  exact List.Sublist.append (List.Sublist.map _ List.filter_sublist) (inHand_transit _)

theorem apart_of_raw (coherent : Coherent notes world) (accounted : Accounted notes world)
    (member : entry ∈ world.booked) (held : other ∈ world.ledger) (raw : other.raw = true) : entry.block.base ≠ other.ptr := by
  have translated := raw_of_booked accounted member
  have distinct := List.nodup_cons.mp ((bases_perm held).nodup_iff.mp coherent.distinct)
  have base : entry.block.base = entry.base := (base_translated translated).symm
  intro same
  rw [base_raw raw, ← same, base] at distinct
  apply distinct.1
  rcases List.mem_append.mp member with owned | hand
  · have different : entry ≠ other := by
      intro equal
      rw [equal, raw] at translated
      cases translated
    apply List.mem_append_left
    exact List.mem_map_of_mem ((List.mem_erase_of_ne different).mpr (mem_clientBlocks.mp owned).1)
  · exact List.mem_append_right _ ((inHand_transit _).subset (List.mem_map_of_mem hand))

theorem apart_of_transit (coherent : Coherent notes world) {frame : Frame} {ptr : Nat}
    (pending : world.pending = some frame) (hand : ptr ∈ transit (some frame)) (member : entry ∈ world.clientBlocks) :
    entry.block.base ≠ ptr := by
  obtain ⟨owned, raw⟩ := mem_clientBlocks.mp member
  have distinct := coherent.distinct
  rw [bases_of_pending pending] at distinct
  have apart := (List.nodup_append.mp distinct).2.2
  have base : entry.block.base = entry.base := (base_translated raw).symm
  rw [base]
  exact apart _ (List.mem_map_of_mem owned) ptr hand

theorem sizes_le_extents (entries : List Entry) :
    sizes entries + entries.length ≤ ((entries.map Entry.block).map (Block.extent 24)).sum := by
  induction entries with
  | nil => exact le_refl _
  | cons entry rest ih =>
    have one : entry.size + 16 ≤ entry.block.extent 24 := le_max_left _ _
    simp only [sizes, List.map_cons, List.sum_cons, List.length_cons] at ih ⊢
    omega

/-- The live blocks fit into the address space. -/
theorem sizes_lt (coherent : Coherent notes world) (accounted : Accounted notes world) :
    sizes world.booked < 2 ^ 64 ∧ world.booked.length < 2 ^ 64 := by
  have members : ∀ block ∈ world.booked.map Entry.block, block ∈ world.heap.blocks := by
    intro block member
    obtain ⟨entry, booked, rfl⟩ := List.mem_map.mp member
    exact accounted.headers entry booked
  have distinct : ((world.booked.map Entry.block).map Block.base).Nodup := by
    rw [List.map_map]
    exact coherent.distinct.sublist (booked_bases accounted)
  -- Every block is longer than what the client asked for, and together they fit.
  have bound := Heap.sum_extent_le members distinct
  have small := sizes_le_extents world.booked
  unfold SizeT.max at bound
  omega

/-- The rules leave no pointer to the wrong branch. -/
theorem matched_of_regular (accounted : Accounted notes world) (rules : regular world action = true) :
    matched world action = true := by
  cases action with
  | init | destroy => rfl
  | call request answer =>
    cases request with
    | malloc | calloc => rfl
    | realloc ptr size =>
      simp only [regular, matched, decide_eq_true_eq] at rules ⊢
      intro up
      cases found : world.entry ptr with
      | none => rfl
      | some entry => exact (rules.1 entry found).trans up
    | free ptr =>
      simp only [regular, matched, decide_eq_true_eq] at rules ⊢
      intro up
      cases found : world.entry ptr with
      | none => rfl
      | some entry => exact (rules entry found).trans up
  | proceed answer wild =>
    cases pending : world.pending with
    | none => simp [matched, pending]
    | some frame =>
      have fits := accounted.fits frame pending
      cases frame with
      | malloc | calloc | releasing | leaving => simp [matched, pending]
      | free entry =>
        have raw : entry.raw = false := fits
        simp [matched, pending, raw]
      | realloc entry size =>
        have nonempty : SizeT.add size serviceLength ≠ 0 := by
          rw [SizeT.add_exact fits.2]
          exact Nat.succ_ne_zero _
        simp [matched, pending, fits.1, nonempty]

end Ledger

section Steps

variable {world after : World} {action : Action} {notes written : List Note} {entry : Entry}

theorem Accounted.keep (accounted : Accounted notes world) (fits : ∀ frame, after.pending = some frame → frame.Fits)
    (same : after.booked.Perm world.booked)
    (headers : ∀ entry ∈ world.booked, entry.block ∈ world.heap.blocks → entry.block ∈ after.heap.blocks)
    (books : ∀ sum count total, Books world.statistics sum count total → Books after.statistics sum count total)
    (uncounted : written.count .numbered = 0) : Accounted (notes ++ written) after where
  fits := fits
  headers := fun entry member =>
    headers entry (same.subset member) (accounted.headers entry (same.subset member))
  books := by
    have sum : sizes after.booked = sizes world.booked := (same.map Entry.size).sum_eq
    rw [sum, same.length_eq, List.count_append, uncounted]
    exact books _ _ _ accounted.books

theorem Accounted.header_in_hand (accounted : Accounted notes world) {frame : Frame}
    (pending : world.pending = some frame) (hand : entry ∈ inHand (some frame)) : entry.block ∈ world.heap.blocks := by
  apply accounted.headers
  rw [booked_of_pending pending]
  exact List.mem_append_right _ hand

theorem Accounted.header_of_client (accounted : Accounted notes world) (owned : entry ∈ world.clientBlocks) :
    entry.block ∈ world.heap.blocks :=
  accounted.headers entry (List.mem_append_left _ owned)

theorem fits_of_opens {request : Request} {answer : Option Nat} {frame : Frame} (down : world.libcGuard = false)
    (rules : regular world (.call request answer) = true) (opens : Opens request frame) : frame.Fits := by
  cases opens with
  | malloc => simpa [regular, down, Frame.Fits] using rules
  | calloc => simpa [regular, down, Frame.Fits] using rules
  | reallocNull =>
    simp only [regular, down, decide_eq_true_eq] at rules
    exact rules.2.resolve_left (by decide)
  | freeNull =>
    intro entry member
    cases member

theorem fits_of_back {request : Request} {answer : Option Nat} {frame : Frame} (down : world.libcGuard = false)
    (found : world.entry entry.ptr = some entry) (rules : regular world (.call request answer) = true)
    (back : request = .free entry.ptr ∧ frame = .free entry ∨
      ∃ size, request = .realloc entry.ptr size ∧ frame = .realloc entry size) :
    entry.raw = false ∧ frame.Fits := by
  rcases back with ⟨rfl, rfl⟩ | ⟨size, rfl, rfl⟩
  · simp only [regular, down, decide_eq_true_eq] at rules
    exact ⟨rules entry found, rules entry found⟩
  · simp only [regular, down, decide_eq_true_eq] at rules
    exact ⟨rules.1 entry found, rules.1 entry found, rules.2.resolve_left (by decide)⟩

theorem fits_leave {returned : Nat} {kept : Option Entry} (translated : ∀ entry ∈ kept, entry.raw = false)
    (frame : Frame) (pending : (world.leave returned kept).pending = some frame) : frame.Fits := by
  cases pending
  exact translated

theorem inHand_of_back {request : Request} {frame : Frame}
    (back : request = .free entry.ptr ∧ frame = .free entry ∨
      ∃ size, request = .realloc entry.ptr size ∧ frame = .realloc entry size) : inHand (some frame) = [entry] := by
  rcases back with ⟨_, rfl⟩ | ⟨size, _, rfl⟩ <;> rfl

theorem clientBlocks_erase {ledger : List Entry} (member : entry ∈ ledger) :
    (ledger.filter fun entry => !entry.raw).Perm
      ((if entry.raw then [] else [entry]) ++ (ledger.erase entry).filter fun entry => !entry.raw) := by
  have split := (List.perm_cons_erase member).filter fun entry => !entry.raw
  cases raw : entry.raw <;> simpa [List.filter_cons, raw] using split

theorem booked_erase (member : entry ∈ world.ledger) (raw : entry.raw = true) :
    ((world.ledger.erase entry).filter (fun entry => !entry.raw) ++ inHand world.pending).Perm world.booked := by
  have same := clientBlocks_erase member
  rw [raw] at same
  exact (same.append_right _).symm

theorem Accounted.directRealloc (accounted : Accounted notes world) (coherent : Coherent notes world)
    (raw : entry.raw = true) (member : entry ∈ world.ledger) (size : Nat) (answer : Option Nat) :
    Accounted (notes ++ (directRealloc world entry size answer).2) (directRealloc world entry size answer).1 := by
  have same := booked_erase member raw
  have apart : ∀ other ∈ world.booked, other.block.base ≠ entry.ptr :=
    fun other booked => apart_of_raw coherent accounted booked member raw
  unfold Memgrind.directRealloc
  cases resized : realRealloc world.heap entry.ptr size answer with
  | undefined => exact accounted.keep accounted.fits same (fun _ _ => id) (fun _ _ _ => id) rfl
  | failed => exact accounted.keep accounted.fits (List.Perm.refl _) (fun _ _ => id) (fun _ _ _ => id) rfl
  | freed heap =>
    cases resizes_of_realRealloc resized
    refine accounted.keep accounted.fits same (fun other booked block => ?_) (fun _ _ _ => id) rfl
    exact (Heap.mem_release _).mpr ⟨block, apart other booked⟩
  | inPlace heap =>
    refine accounted.keep accounted.fits same (fun other booked block => ?_) (fun _ _ _ => id) rfl
    exact mem_of_inPlace resized block (apart other booked)
  | moved memory heap =>
    refine accounted.keep accounted.fits same (fun other booked block => ?_) (fun _ _ _ => id) rfl
    exact (mem_of_moved resized block (apart other booked)).1

theorem Accounted.directFree (accounted : Accounted notes world) (coherent : Coherent notes world)
    (raw : entry.raw = true) (member : entry ∈ world.ledger) :
    Accounted (notes ++ (directFree world entry).2) (directFree world entry).1 := by
  have live := coherent.owned _ (base_raw raw ▸ base_mem_bases member)
  rw [Memgrind.directFree, realFree_live live]
  refine accounted.keep accounted.fits (booked_erase member raw) (fun other booked block => ?_) (fun _ _ _ => id) rfl
  exact (Heap.mem_release _).mpr ⟨block, apart_of_raw coherent accounted booked member raw⟩

theorem bytes_of_asks {frame : Frame} {checked bytes size : Nat} (fits : frame.Fits)
    (asks : Asks frame checked bytes size) :
    bytes = size ∧ size + serviceLength < 2 ^ 64 ∧ inHand (some frame) = [] := by
  cases asks with
  | malloc => exact ⟨rfl, fits, rfl⟩
  | calloc => exact ⟨SizeT.mul_exact (lt_of_le_of_lt (Nat.le_add_right _ _) fits), fits, rfl⟩

theorem Accounted.allocate {frame : Frame} {answer : Option Nat} {checked bytes size memory : Nat} {heap : RealHeap}
    (accounted : Accounted notes world) (pending : world.pending = some frame) (asks : Asks frame checked bytes size)
    (placed : world.heap.place answer (SizeT.add bytes serviceLength) none = some (memory, heap)) :
    Accounted (notes ++ [.numbered, .booked bytes, .obtained memory])
      ({ world with
          statistics := world.statistics.allocate bytes
          heap := initialiseServiceBlock heap memory bytes }.leave (libToUser memory)
            (some ⟨libToUser memory, size, false⟩)) := by
  obtain ⟨rfl, fits, empty⟩ := bytes_of_asks (accounted.fits frame pending) asks
  have booked := booked_of_pending pending
  rw [empty, List.append_nil] at booked
  have books := accounted.books.allocate bytes
  constructor
  · intro later leaving
    cases leaving
    intro entry member
    cases member
    rfl
  -- The old blocks are elsewhere, and the new one has just got its service structure.
  · intro entry member
    rcases List.mem_append.mp member with old | new
    · have block := accounted.header_of_client old
      obtain ⟨_, room, members⟩ := Heap.mem_of_place _ placed
      exact Heap.mem_write_of_ne _ ((members _).mpr (Or.inr block)) (room.fresh (by decide) block)
    · cases List.mem_singleton.mp new
      exact mem_initialised fits placed
  · rw [booked] at books
    simpa [World.leave, World.booked, World.clientBlocks, inHand, sizes] using books

/-- A resized block takes the place of the old one. -/
theorem Accounted.resized {size resized : Nat} {heap : RealHeap} {statistics : MemoryStatistics}
    (accounted : Accounted notes world) (pending : world.pending = some (.realloc entry size))
    (kept : ∀ other ∈ world.clientBlocks, other.block ∈ heap.blocks)
    (new : Entry.block ⟨resized, size, false⟩ ∈ heap.blocks)
    (books : ∀ sum, Books world.statistics (sum + entry.size) world.booked.length (notes.count .numbered) →
      Books statistics (sum + size) world.booked.length ((notes ++ written).count .numbered)) :
    Accounted (notes ++ written)
      ({ world with statistics := statistics, heap := heap }.leave resized (some ⟨resized, size, false⟩)) := by
  have booked : world.booked = world.clientBlocks ++ [entry] := booked_of_pending pending
  constructor
  · intro later leaving
    cases leaving
    intro other member
    cases member
    rfl
  · intro other member
    rcases List.mem_append.mp member with old | latest
    · exact kept other old
    · cases List.mem_singleton.mp latest
      exact new
  · have before := accounted.books
    have sum : sizes world.booked = sizes world.clientBlocks + entry.size := by
      rw [booked]
      simp [sizes]
    rw [sum] at before
    have later := books _ before
    rw [booked] at later
    simpa [World.leave, World.booked, World.clientBlocks, inHand, sizes] using later

theorem Accounted.reallocInPlace {size : Nat} {answer : Option Nat} {wild : ServiceInfo} {heap : RealHeap}
    (accounted : Accounted notes world) (coherent : Coherent notes world)
    (pending : world.pending = some (.realloc entry size))
    (resized : realRealloc world.heap (userToLib entry.ptr) (SizeT.add size serviceLength) answer = .inPlace heap) :
    Accounted (notes ++ [.passed (userToLib entry.ptr), .booked (size - entry.size)])
      ({ world with
          statistics := world.statistics.resize entry.size size
          heap := setBlockSize heap (userToLib entry.ptr) size wild }.leave (libToUser (userToLib entry.ptr))
            (some ⟨libToUser (userToLib entry.ptr), size, false⟩)) := by
  obtain ⟨raw, fits⟩ := accounted.fits _ pending
  have hand : userToLib entry.ptr ∈ transit (some (.realloc entry size)) :=
    List.mem_singleton.mpr (base_translated raw).symm
  have block := accounted.header_in_hand pending (List.mem_singleton_self _)
  refine accounted.resized pending (fun other member => ?_) (mem_inPlace fits block resized wild) ?_
  · have old := accounted.header_of_client member
    have away := apart_of_transit coherent pending hand member
    exact Heap.mem_write_of_ne _ (mem_of_inPlace resized old away) away
  · intro sum books
    rw [List.count_append]
    exact books.resize size

theorem Accounted.reallocMoved {size memory : Nat} {answer : Option Nat} {wild : ServiceInfo} {heap : RealHeap}
    (accounted : Accounted notes world) (coherent : Coherent notes world)
    (pending : world.pending = some (.realloc entry size))
    (resized : realRealloc world.heap (userToLib entry.ptr) (SizeT.add size serviceLength) answer = .moved memory heap) :
    Accounted
      (notes ++
        [.passed (userToLib entry.ptr), .released (userToLib entry.ptr), .obtained memory, .numbered, .booked size])
      ({ world with
          statistics := world.statistics.move entry.size size
          heap := setBlockSize heap memory size wild }.leave (libToUser memory)
            (some ⟨libToUser memory, size, false⟩)) := by
  obtain ⟨raw, fits⟩ := accounted.fits _ pending
  have hand : userToLib entry.ptr ∈ transit (some (.realloc entry size)) :=
    List.mem_singleton.mpr (base_translated raw).symm
  have block := accounted.header_in_hand pending (List.mem_singleton_self _)
  refine accounted.resized pending (fun other member => ?_) (mem_moved fits block resized wild) ?_
  · have old := accounted.header_of_client member
    obtain ⟨there, away⟩ := mem_of_moved resized old (apart_of_transit coherent pending hand member)
    exact Heap.mem_write_of_ne _ there away
  · intro sum books
    rw [List.count_append]
    exact books.move size

theorem Accounted.bookFree (accounted : Accounted notes world) (pending : world.pending = some (.free entry)) :
    Accounted (notes ++ [])
      { world with
        statistics := world.statistics.release entry.size
        pending := some (.releasing (userToLib entry.ptr)) } := by
  have booked : world.booked = world.clientBlocks ++ [entry] := booked_of_pending pending
  have before := accounted.books
  rw [booked] at before
  simp only [sizes, List.map_append, List.map_cons, List.map_nil, List.sum_append, List.sum_singleton,
    List.length_append, List.length_singleton] at before
  constructor
  · intro later releasing
    cases releasing
    trivial
  · intro other member
    rw [booked_of_pending rfl] at member
    rcases List.mem_append.mp member with old | none
    · exact accounted.header_of_client old
    · cases none
  · simpa [World.booked, World.clientBlocks, inHand, sizes] using before.release

theorem Accounted.step (accounted : Accounted notes world) (coherent : Coherent notes world) (guarded : Guarded world)
    (rules : regular world action = true) (move : Move world action after written) (served : .exhausted ∉ written) :
    Accounted (notes ++ written) after := by
  cases move with
  | init | destroy => exact accounted.keep accounted.fits (List.Perm.refl _) (fun _ _ => id) (fun _ _ _ => id) rfl
  | enter down opens =>
    refine accounted.keep ?_ ?_ (fun _ _ => id) (fun _ _ _ => id) rfl
    · intro frame pending
      cases pending
      exact fits_of_opens down rules opens
    · rw [booked_idle (guarded.idle down), booked_of_pending rfl]
      cases opens <;> exact List.Perm.of_eq (List.append_nil _)
  | give down found back =>
    obtain ⟨raw, fits⟩ := fits_of_back down found rules back
    refine accounted.keep ?_ ?_ (fun _ _ => id) (fun _ _ _ => id) rfl
    · intro frame pending
      cases pending
      exact fits
    · have split := clientBlocks_erase (mem_of_entry found)
      rw [raw] at split
      rw [booked_idle (guarded.idle down), booked_of_pending rfl, inHand_of_back back]
      exact (List.perm_append_singleton _ _).trans split.symm
  | directNull up quiet =>
    rcases quiet with rfl | rfl <;>
      exact accounted.keep accounted.fits (List.Perm.refl _) (fun _ _ => id) (fun _ _ _ => id) rfl
  | directAlloc up placed =>
    obtain ⟨_, _, members⟩ := Heap.mem_of_place _ placed
    refine accounted.keep accounted.fits (List.Perm.refl _) (fun entry _ block => ?_) (fun _ _ _ => id) rfl
    exact (members _).mpr (Or.inr block)
  | directRealloc up found =>
    have raw := raw_of_matched (matched_of_regular accounted rules) up found (Or.inr ⟨_, rfl⟩)
    exact accounted.directRealloc coherent raw (mem_of_entry found) _ _
  | directFree up found =>
    have raw := raw_of_matched (matched_of_regular accounted rules) up found (Or.inl rfl)
    exact accounted.directFree coherent raw (mem_of_entry found)
  | decline pending asked refused =>
    have fits := accounted.fits _ pending
    rcases asked with ⟨bytes, size, asks, rfl⟩ | ⟨entry, rfl, rfl⟩
    · refine accounted.keep (fits_leave (by simp)) ?_ (fun _ _ => id) (fun _ _ _ => Books.decline) rfl
      rw [booked_of_pending pending, (bytes_of_asks fits asks).2.2]
      exact List.Perm.refl _
    · refine accounted.keep (fits_leave (by simpa using fits.1)) ?_ (fun _ _ => id) (fun _ _ _ => Books.decline) rfl
      rw [booked_of_pending pending]
      exact List.Perm.refl _
  | exhaust => simp at served
  | allocate pending asks allowed placed => exact accounted.allocate pending asks placed
  -- The service structure of a booked block is in place, so the check cannot fail.
  | @corrupt frame answer wild entry kept pending called invalid =>
    have hand : entry ∈ inHand (some frame) := by
      rcases called with ⟨rfl, _⟩ | ⟨size, rfl, _⟩ <;> exact List.mem_singleton_self _
    exact absurd (validity_block (accounted.header_in_hand pending hand) wild) invalid
  | reallocFailed pending allowed valid =>
    have fits := accounted.fits _ pending
    refine accounted.keep (fits_leave (by simpa using fits.1)) ?_ (fun _ _ => id) (fun _ _ _ => Books.fail) rfl
    rw [booked_of_pending pending]
    exact List.Perm.refl _
  | reallocFreed pending allowed valid resized =>
    have nonempty := (not_raw_of_realloc (matched_of_regular accounted rules) pending allowed valid).2
    cases resizes_of_realRealloc resized with
    | freed found empty => exact absurd empty nonempty
  | @reallocInPlace answer wild entry size heap pending allowed valid resized =>
    have block := accounted.header_in_hand pending (List.mem_singleton_self _)
    rw [readService_block block]
    exact accounted.reallocInPlace coherent pending resized
  | @reallocMoved answer wild entry size memory heap pending allowed valid resized =>
    have block := accounted.header_in_hand pending (List.mem_singleton_self _)
    rw [readService_block block]
    exact accounted.reallocMoved coherent pending resized
  | @bookFree answer wild entry pending valid =>
    have block := accounted.header_in_hand pending (List.mem_singleton_self _)
    rw [readService_block block]
    exact accounted.bookFree pending
  -- Booked as freed already; the real call removes a block that is on no book.
  | @release answer wild ptr pending =>
    have live := coherent.owned ptr (base_mem_transit pending (List.mem_singleton_self _))
    have booked : world.booked = world.clientBlocks ++ [] := booked_of_pending pending
    rw [realFree_live live]
    refine accounted.keep (fits_leave (by simp)) (List.Perm.of_eq booked.symm) (fun entry member block => ?_)
      (fun _ _ _ => id) rfl
    rw [booked, List.append_nil] at member
    exact (Heap.mem_release _).mpr
      ⟨block, apart_of_transit coherent pending (List.mem_singleton_self _) member⟩
  | @leave answer wild returned kept pending =>
    have fits := accounted.fits _ pending
    refine accounted.keep ?_ ?_ (fun _ _ => id) (fun _ _ _ => id) ?_
    · intro frame none
      cases none
    · rw [booked_of_pending pending, booked_idle rfl]
      cases kept with
      | none => exact List.Perm.of_eq (List.append_nil _).symm
      | some entry =>
        have raw : entry.raw = false := fits entry rfl
        have first : (returnFromGuarded world returned (some entry)).1.clientBlocks = entry :: world.clientBlocks := by
          simp [returnFromGuarded, World.clientBlocks, raw]
        rw [first]
        exact (List.perm_append_singleton _ _).symm
    · cases kept with
      | none => rfl
      | some entry => by_cases null : returned = 0 <;> simp [returnFromGuarded, null]

end Steps

section Runs

/-- The counters and the service structures describe the client's blocks. -/
structure Exact (world : World) : Prop where
  bytes : SizeT.sub world.statistics.totalUsed world.statistics.totalFreed = sizes world.clientBlocks
  blocks : SizeT.sub world.statistics.allocationNum world.statistics.dealllocationNum = world.clientBlocks.length
  headers : ∀ entry ∈ world.clientBlocks, ∀ wild,
    (readService world.heap (userToLib entry.ptr) wild).blockSize = entry.size ∧
      checkServiceValidity (readService world.heap (userToLib entry.ptr) wild) = 0

/-- The warning is given for the client's blocks, if there are any. -/
def Warned (world : World) : Prop :=
  printFinal world.statistics =
    if world.clientBlocks.length = 0 then none else some (sizes world.clientBlocks, world.clientBlocks.length)

theorem accounted_start (settings : EnviromentSettings) : Accounted [] (start settings) where
  fits := by
    intro frame pending
    cases pending
  headers := by
    intro entry member
    cases member
  books := books_zero

variable {settings : EnviromentSettings} {actions : List Action} {notes : List Note} {world : World}

theorem accounted_run (run : (memgrindMachine.restrict regular).Run (start settings) actions notes world) :
    .exhausted ∉ notes → Accounted notes world ∧ Coherent notes world ∧ Guarded world := by
  refine run.invariant
    (fun notes world => .exhausted ∉ notes → Accounted notes world ∧ Coherent notes world ∧ Guarded world)
    (fun _ => ⟨accounted_start settings, coherent_start settings, guarded_start settings⟩) ?_
  intro notes world action after written holds step served
  rw [List.mem_append, not_or] at served
  obtain ⟨accounted, coherent, guarded⟩ := holds served.1
  obtain ⟨rules, step⟩ := Machine.step_of_restrict step
  have move := move_of_step step
  refine ⟨accounted.step coherent guarded rules move served.2, ?_, guarded.step move⟩
  exact coherent.step guarded (matched_of_regular accounted rules) move

/-- Between calls the books are exact, and until the number of allocations wraps
the final warning is. -/
theorem exact_accounting (run : (memgrindMachine.restrict regular).Run (start settings) actions notes world)
    (served : .exhausted ∉ notes) (idle : world.pending = none) :
    Exact world ∧ (notes.count .numbered < 2 ^ 64 → Warned world) := by
  obtain ⟨accounted, coherent, _⟩ := accounted_run run served
  obtain ⟨bytes, blocks⟩ := sizes_lt coherent accounted
  have books := accounted.books
  rw [booked_idle idle] at books bytes blocks
  refine ⟨⟨books.sub_used bytes, books.sub_allocated blocks, ?_⟩, books.printFinal bytes⟩
  intro entry member wild
  have block := accounted.header_of_client member
  exact ⟨congrArg ServiceInfo.blockSize (readService_block block wild), validity_block block wild⟩

theorem exact_accounting_grown :
    ∃ notes world, notes.count .numbered = 2 ∧
      (memgrindMachine.restrict regular).Run (start ⟨SizeT.max, SizeT.max, SizeT.max, by decide⟩)
        [.init, .call (.malloc 8) none, .proceed (some 4096) ⟨0, ""⟩, .proceed none ⟨0, ""⟩,
          .call (.calloc 3 4) none, .proceed (some 8192) ⟨0, ""⟩, .proceed none ⟨0, ""⟩,
          .call (.realloc 4112 40) none, .proceed (some 4096) ⟨0, ""⟩, .proceed none ⟨0, ""⟩,
          .call (.free 8208) none, .proceed none ⟨0, ""⟩, .proceed none ⟨0, ""⟩, .proceed none ⟨0, ""⟩] notes world ∧
      world.pending = none ∧ world.clientBlocks = [⟨4112, 40, false⟩] ∧ Exact world ∧ Warned world := by
  have executes : ((memgrindMachine.restrict regular).exec (start ⟨SizeT.max, SizeT.max, SizeT.max, by decide⟩)
      [.init, .call (.malloc 8) none, .proceed (some 4096) ⟨0, ""⟩, .proceed none ⟨0, ""⟩,
        .call (.calloc 3 4) none, .proceed (some 8192) ⟨0, ""⟩, .proceed none ⟨0, ""⟩,
        .call (.realloc 4112 40) none, .proceed (some 4096) ⟨0, ""⟩, .proceed none ⟨0, ""⟩,
        .call (.free 8208) none, .proceed none ⟨0, ""⟩, .proceed none ⟨0, ""⟩, .proceed none ⟨0, ""⟩]).map
      (fun result =>
        (result.2.count .numbered, decide (.exhausted ∈ result.2), result.1.pending, result.1.clientBlocks)) =
      some (2, false, none, [⟨4112, 40, false⟩]) := by
    decide +kernel
  obtain ⟨⟨world, notes⟩, same, facts⟩ := Option.map_eq_some_iff.mp executes
  simp only [Prod.mk.injEq, decide_eq_false_iff_not] at facts
  obtain ⟨numbered, served, idle, blocks⟩ := facts
  have run := Machine.run_of_exec same
  obtain ⟨exact, warned⟩ := exact_accounting run served idle
  exact ⟨notes, world, numbered, run, idle, blocks, exact, warned (by rw [numbered]; decide)⟩

section Wrapping

def balanced (rounds : Nat) : World :=
  { start ⟨SizeT.max, SizeT.max, SizeT.max, by decide⟩ with
    phase := .running
    libcGuard := false
    statistics := ⟨0, 0, rounds % 2 ^ 64, rounds % 2 ^ 64, 0, 0⟩ }

def unbalanced (rounds : Nat) : World :=
  { balanced rounds with
    statistics := ⟨0, 0, (rounds + 1) % 2 ^ 64, rounds % 2 ^ 64, 0, 0⟩
    heap := initialiseServiceBlock (Heap.empty.insert ⟨4096, 16, none⟩ (by decide)) 4096 0
    ledger := [⟨4112, 0, false⟩] }

theorem canAlloc_balanced (rounds : Nat) :
    canAlloc (balanced rounds).settings (balanced rounds).statistics 0 = true := by
  have below : SizeT.add (rounds % 2 ^ 64) 1 ≤ SizeT.max := Nat.le_sub_one_of_lt (SizeT.add_lt _ _)
  exact canAlloc_iff.mpr ⟨Nat.zero_le _, Nat.zero_le _, below⟩

theorem run_malloc (rounds : Nat) :
    (memgrindMachine.restrict regular).Run (balanced rounds)
      [.call (.malloc 0) none, .proceed (some 4096) ⟨0, ""⟩, .proceed none ⟨0, ""⟩]
      [.numbered, .booked 0, .obtained 4096, .handed 0, .returned 4112] (unbalanced rounds) := by
  have numbered : (rounds + 1) % 2 ^ 64 = SizeT.add (rounds % 2 ^ 64) 1 := (Nat.mod_add_mod _ _ _).symm
  have allocated : allocate { balanced rounds with libcGuard := true, pending := some (.malloc 0) } 0 0 0 (some 4096) =
      ({ unbalanced rounds with libcGuard := true, ledger := [] }.leave 4112 (some ⟨4112, 0, false⟩),
        [.numbered, .booked 0, .obtained 4096]) := by
    unfold allocate unbalanced
    rw [if_pos (canAlloc_balanced rounds), numbered]
    rfl
  have entered : (memgrindMachine.restrict regular).step (balanced rounds) (.call (.malloc 0) none) =
      some ({ balanced rounds with libcGuard := true, pending := some (.malloc 0) }, []) := rfl
  have proceeded : (memgrindMachine.restrict regular).step
      { balanced rounds with libcGuard := true, pending := some (.malloc 0) } (.proceed (some 4096) ⟨0, ""⟩) =
      some ({ unbalanced rounds with libcGuard := true, ledger := [] }.leave 4112 (some ⟨4112, 0, false⟩),
        [.numbered, .booked 0, .obtained 4096]) := congrArg some allocated
  have left : (memgrindMachine.restrict regular).step
      ({ unbalanced rounds with libcGuard := true, ledger := [] }.leave 4112 (some ⟨4112, 0, false⟩))
      (.proceed none ⟨0, ""⟩) = some (unbalanced rounds, [.handed 0, .returned 4112]) := rfl
  exact ((Machine.Run.single entered).next proceeded).next left

theorem run_free (rounds : Nat) :
    (memgrindMachine.restrict regular).Run (unbalanced rounds)
      [.call (.free 4112) none, .proceed none ⟨0, ""⟩, .proceed none ⟨0, ""⟩, .proceed none ⟨0, ""⟩]
      [.passed 4096, .released 4096, .returned 0] (balanced (rounds + 1)) := by
  have numbered : (rounds + 1) % 2 ^ 64 = SizeT.add (rounds % 2 ^ 64) 1 := (Nat.mod_add_mod _ _ _).symm
  apply Machine.run_of_exec
  unfold unbalanced balanced
  rw [numbered]
  rfl

theorem run_rounds (rounds : Nat) :
    ∃ actions notes, (memgrindMachine.restrict regular).Run (start ⟨SizeT.max, SizeT.max, SizeT.max, by decide⟩)
      actions notes (balanced rounds) ∧ .exhausted ∉ notes := by
  induction rounds with
  | zero =>
    have loaded : (memgrindMachine.restrict regular).step (start ⟨SizeT.max, SizeT.max, SizeT.max, by decide⟩) .init =
        some (balanced 0, []) := rfl
    exact ⟨_, _, Machine.Run.single loaded, by simp⟩
  | succ rounds ih =>
    obtain ⟨actions, notes, run, served⟩ := ih
    refine ⟨_, _, (run.append (run_malloc rounds)).append (run_free rounds), ?_⟩
    simp [served]

/-- After `2 ^ 64 - 1` blocks were allocated and freed, one more allocation makes
the counter zero, and its block is not reported. -/
theorem warning_missed :
    ¬ ∀ (settings : EnviromentSettings) (actions : List Action) (notes : List Note) (world : World),
      (memgrindMachine.restrict regular).Run (start settings) actions notes world → .exhausted ∉ notes →
      world.phase = .running → world.pending = none → Exact world ∧ Warned world := by
  intro holds
  obtain ⟨actions, notes, run, served⟩ := run_rounds (2 ^ 64 - 1)
  have warned := (holds _ _ _ _ (run.append (run_malloc (2 ^ 64 - 1))) (by simp [served]) rfl rfl).2
  have silent : printFinal (unbalanced (2 ^ 64 - 1)).statistics = none := by decide +kernel
  cases silent.symm.trans warned

end Wrapping

end Runs
end PosixC.Memgrind
