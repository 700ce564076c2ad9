import PosixC.Memgrind.Model

/-! The pointers that reach the real allocator.

A block is known to the real allocator by its base. Blocks handed out while the
guard was down are known to their owner by an address behind the service
structure, so a pointer must come back while the guard is as it was when the
block was handed out.
-/

set_option autoImplicit false

namespace PosixC.Memgrind

open Foundation

section Real

variable {heap after : RealHeap} {ptr length memory : Nat} {answer : Option Nat}

theorem live_of_find {block : Block (Option ServiceInfo)} (found : heap.find ptr = some block) :
    heap.live ptr = true := by
  simp [Heap.live, found]

theorem live_inPlace (resized : realRealloc heap ptr length answer = .inPlace after) (other : Nat) :
    after.live other = true ↔ heap.live other = true := by
  cases resizes_of_realRealloc resized with
  | inPlace found nonempty placed =>
    rw [Heap.live_of_place placed, Heap.live_release]
    by_cases same : other = ptr
    · simp [same, live_of_find found]
    · simp [same]

theorem live_moved (resized : realRealloc heap ptr length answer = .moved memory after) :
    heap.live memory ≠ true ∧
      ∀ other, after.live other = true ↔ other = memory ∨ heap.live other = true ∧ other ≠ ptr := by
  cases resizes_of_realRealloc resized with
  | moved found nonempty placed =>
    have fresh := Heap.not_live_of_place (by decide) placed
    refine ⟨fresh, fun other => ?_⟩
    rw [Heap.live_release, Heap.live_of_place placed]
    constructor
    · rintro ⟨rfl | kept, different⟩
      · exact Or.inl rfl
      · exact Or.inr ⟨kept, different⟩
    · rintro (rfl | ⟨kept, different⟩)
      · exact ⟨Or.inl rfl, fun same => fresh (same ▸ live_of_find found)⟩
      · exact ⟨Or.inr kept, different⟩

theorem userToLib_libToUser (live : heap.live ptr = true) : userToLib (libToUser ptr) = ptr := by
  have bound := (Heap.bound_of_live live).2
  unfold SizeT.max at bound
  rw [libToUser, SizeT.add_exact (by unfold serviceLength; omega), userToLib, SizeT.sub_exact (by omega)]
  omega

end Real

section Dealings

def settle (live : List Nat) : Note → List Nat
  | .obtained ptr => ptr :: live
  | .released ptr => live.filter fun other => other ≠ ptr
  | _ => live

def outstanding (notes : List Note) : List Nat := notes.foldl settle []

/-- Every pointer that is passed on was outstanding at that moment. -/
def Consistent (notes : List Note) : Prop :=
  ∀ before ptr after, notes = before ++ .passed ptr :: after → ptr ∈ outstanding before

def isPassed : Note → Bool
  | .passed _ => true
  | _ => false

theorem consistent_append {notes written : List Note} (consistent : Consistent notes)
    (late : ∀ before ptr after, written = before ++ .passed ptr :: after → ptr ∈ outstanding (notes ++ before)) :
    Consistent (notes ++ written) := by
  intro before ptr after same
  rcases List.append_eq_append_iff.mp same with ⟨middle, rfl, tail⟩ | ⟨middle, rfl, tail⟩
  · exact late middle ptr after tail
  · cases middle with
    | nil => simpa using late [] ptr after tail.symm
    | cons note rest =>
      cases tail
      exact consistent before ptr rest rfl

theorem consistent_step {notes written : List Note} (consistent : Consistent notes)
    (first : ∀ ptr, written.head? = some (.passed ptr) → ptr ∈ outstanding notes)
    (quiet : written.tail.all fun note => !isPassed note) : Consistent (notes ++ written) := by
  apply consistent_append consistent
  intro before ptr after same
  cases before with
  | nil =>
    rw [List.append_nil]
    exact first ptr (by simp [same])
  | cons note rest =>
    rw [same] at quiet
    simp [isPassed] at quiet

end Dealings

section Guard

structure Guarded (world : World) : Prop where
  idle : world.libcGuard = false → world.pending = none
  loading : world.phase = .loading → world.libcGuard = true ∧ world.pending = none

variable {world after : World} {action : Action} {notes : List Note}

theorem Guarded.pending (guarded : Guarded world) {frame : Frame} (pending : world.pending = some frame) :
    world.libcGuard = true ∧ world.phase ≠ .loading := by
  constructor
  · cases up : world.libcGuard with
    | true => rfl
    | false => cases (guarded.idle up).symm.trans pending
  · intro loading
    cases (guarded.loading loading).2.symm.trans pending

theorem Guarded.raise (guarded : Guarded world) (down : world.libcGuard = false) (frame : Frame) (ledger : List Entry) :
    Guarded { world with libcGuard := true, ledger := ledger, pending := some frame } where
  idle := by
    intro raised
    cases raised
  loading := by
    intro loading
    cases down.symm.trans (guarded.loading loading).1

theorem Guarded.stay (guarded : Guarded world) {frame : Frame} (pending : world.pending = some frame)
    (guard : after.libcGuard = world.libcGuard) (phase : after.phase = world.phase) : Guarded after where
  idle := by
    intro down
    cases (guard.symm.trans down).symm.trans (guarded.pending pending).1
  loading := fun loading => absurd (phase.symm.trans loading) (guarded.pending pending).2

theorem Guarded.direct (guarded : Guarded world) (guard : after.libcGuard = world.libcGuard)
    (phase : after.phase = world.phase) (pending : after.pending = world.pending) : Guarded after where
  idle := fun down => pending.trans (guarded.idle (guard.symm.trans down))
  loading := by
    intro loading
    rw [guard, pending]
    exact guarded.loading (phase.symm.trans loading)

theorem Guarded.step (guarded : Guarded world) (move : Move world action after notes) : Guarded after := by
  cases move with
  | init loading => exact ⟨fun _ => (guarded.loading loading).2, by simp⟩
  | destroy running idle => exact ⟨by simp, by simp⟩
  | enter down opens => exact guarded.raise down _ _
  | give down found frame => exact guarded.raise down _ _
  | directNull up written => exact guarded
  | directAlloc up placed => exact guarded.direct rfl rfl rfl
  | @directRealloc answer entry size up found =>
    unfold directRealloc
    cases realRealloc world.heap entry.ptr size answer <;> exact guarded.direct rfl rfl rfl
  | directFree up found => exact guarded.direct rfl rfl rfl
  | leave pending => exact ⟨fun _ => rfl, fun loading => absurd loading (guarded.pending pending).2⟩
  | decline pending | exhaust pending | allocate pending | corrupt pending | reallocFailed pending
  | reallocFreed pending | reallocInPlace pending | reallocMoved pending | bookFree pending | release pending =>
    exact guarded.stay pending rfl rfl

end Guard

section Ownership

def Entry.base (entry : Entry) : Nat := if entry.raw then entry.ptr else userToLib entry.ptr

def transit : Option Frame → List Nat
  | some (.realloc entry _) | some (.free entry) | some (.leaving _ (some entry)) => [entry.base]
  | some (.releasing ptr) => [ptr]
  | _ => []

def World.bases (world : World) : List Nat := world.ledger.map Entry.base ++ transit world.pending

structure Coherent (notes : List Note) (world : World) : Prop where
  consistent : Consistent notes
  live : ∀ ptr, ptr ∈ outstanding notes ↔ world.heap.live ptr = true
  owned : ∀ base ∈ world.bases, world.heap.live base = true
  distinct : world.bases.Nodup

/-- A pointer comes back while the guard is as it was when the pointer was handed
out; where it is not, the memory in front of the block does not look like a
service structure. And no resized length wraps around to zero. -/
def matched (world : World) (action : Action) : Bool :=
  match action with
  | .call (.free ptr) _ | .call (.realloc ptr _) _ =>
      world.libcGuard → (world.entry ptr).all Entry.raw
  | .proceed _ wild =>
      match world.pending with
      | some (.free entry) =>
          entry.raw → checkServiceValidity (readService world.heap (userToLib entry.ptr) wild) ≠ 0
      | some (.realloc entry size) =>
          canAlloc world.settings world.statistics size →
            if entry.raw then checkServiceValidity (readService world.heap (userToLib entry.ptr) wild) ≠ 0
            else SizeT.add size serviceLength ≠ 0
      | _ => true
  | _ => true

variable {world after : World} {action : Action} {notes written : List Note}

theorem mem_of_entry {entry : Entry} (found : world.entry entry.ptr = some entry) : entry ∈ world.ledger :=
  List.mem_of_find?_eq_some found

theorem base_mem_bases {entry : Entry} (member : entry ∈ world.ledger) : entry.base ∈ world.bases :=
  List.mem_append_left _ (List.mem_map_of_mem member)

theorem bases_perm {entry : Entry} (member : entry ∈ world.ledger) :
    world.bases.Perm (entry.base :: ((world.ledger.erase entry).map Entry.base ++ transit world.pending)) := by
  have split := (List.perm_cons_erase member).map Entry.base
  exact split.append_right (transit world.pending)

/-- What a step must show: how it deals with the real allocator, and that every
block somebody holds afterwards is live. -/
theorem Coherent.extend (coherent : Coherent notes world)
    (first : ∀ ptr, written.head? = some (.passed ptr) → world.heap.live ptr = true)
    (quiet : written.tail.all fun note => !isPassed note)
    (live : ∀ ptr, ptr ∈ written.foldl settle (outstanding notes) ↔ after.heap.live ptr = true)
    (owned : ∀ base ∈ after.bases, after.heap.live base = true) (distinct : after.bases.Nodup) :
    Coherent (notes ++ written) after where
  consistent := consistent_step coherent.consistent (fun ptr head => (coherent.live ptr).mpr (first ptr head)) quiet
  live := by
    intro ptr
    rw [outstanding, List.foldl_append]
    exact live ptr
  owned := owned
  distinct := distinct

theorem head_passed (apart : written.all fun note => !isPassed note) (ptr : Nat)
    (head : written.head? = some (.passed ptr)) : world.heap.live ptr = true := by
  cases written with
  | nil => cases head
  | cons note rest =>
    cases head
    simp [isPassed] at apart

theorem tail_quiet (apart : written.all fun note => !isPassed note) : written.tail.all fun note => !isPassed note := by
  cases written with
  | nil => rfl
  | cons note rest =>
    rw [List.all_cons, Bool.and_eq_true] at apart
    exact apart.2

theorem Coherent.aside (coherent : Coherent notes world)
    (heap : ∀ ptr, after.heap.live ptr = true ↔ world.heap.live ptr = true)
    (apart : written.all fun note => !isPassed note)
    (unsettled : written.foldl settle (outstanding notes) = outstanding notes)
    (fewer : after.bases.Subperm world.bases) :
    Coherent (notes ++ written) after := by
  apply coherent.extend
  · exact head_passed apart
  · exact tail_quiet apart
  · intro ptr
    rw [unsettled, heap]
    exact coherent.live ptr
  · intro base member
    rw [heap]
    exact coherent.owned base (fewer.subset member)
  · obtain ⟨middle, same, part⟩ := fewer
    exact same.nodup_iff.mp (coherent.distinct.sublist part)

theorem Coherent.gain {memory : Nat} (coherent : Coherent notes world) (fresh : world.heap.live memory ≠ true)
    (heap : ∀ ptr, after.heap.live ptr = true ↔ ptr = memory ∨ world.heap.live ptr = true)
    (apart : written.all fun note => !isPassed note)
    (settled : written.foldl settle (outstanding notes) = memory :: outstanding notes)
    (more : after.bases.Perm (memory :: world.bases)) :
    Coherent (notes ++ written) after := by
  apply coherent.extend
  · exact head_passed apart
  · exact tail_quiet apart
  · intro ptr
    rw [settled, heap, List.mem_cons, coherent.live]
  · intro base member
    rw [heap]
    rcases List.mem_cons.mp (more.subset member) with rfl | old
    · exact Or.inl rfl
    · exact Or.inr (coherent.owned base old)
  · exact more.nodup_iff.mpr (List.nodup_cons.mpr ⟨fun old => fresh (coherent.owned memory old), coherent.distinct⟩)

theorem Coherent.use {ptr : Nat} (coherent : Coherent notes world) (held : ptr ∈ world.bases)
    (heap : ∀ ptr, after.heap.live ptr = true ↔ world.heap.live ptr = true)
    (head : written.head? = some (.passed ptr)) (quiet : written.tail.all fun note => !isPassed note)
    (unsettled : written.foldl settle (outstanding notes) = outstanding notes)
    (same : after.bases.Perm world.bases) :
    Coherent (notes ++ written) after := by
  apply coherent.extend
  · intro other passed
    cases head.symm.trans passed
    exact coherent.owned ptr held
  · exact quiet
  · intro other
    rw [unsettled, heap, coherent.live]
  · intro base member
    rw [heap]
    exact coherent.owned base (same.subset member)
  · exact same.nodup_iff.mpr coherent.distinct

theorem Coherent.drop {ptr : Nat} (coherent : Coherent notes world)
    (heap : ∀ other, after.heap.live other = true ↔ world.heap.live other = true ∧ other ≠ ptr)
    (head : written.head? = some (.passed ptr)) (quiet : written.tail.all fun note => !isPassed note)
    (settled : written.foldl settle (outstanding notes) = (outstanding notes).filter fun other => other ≠ ptr)
    (fewer : world.bases.Perm (ptr :: after.bases)) :
    Coherent (notes ++ written) after := by
  have distinct := List.nodup_cons.mp (fewer.nodup_iff.mp coherent.distinct)
  have held : ∀ base ∈ ptr :: after.bases, world.heap.live base = true :=
    fun base member => coherent.owned base (fewer.symm.subset member)
  apply coherent.extend
  · intro other passed
    cases head.symm.trans passed
    exact held ptr List.mem_cons_self
  · exact quiet
  · intro other
    rw [settled, heap, List.mem_filter, coherent.live, decide_eq_true_eq]
  · intro base member
    rw [heap]
    exact ⟨held base (List.mem_cons_of_mem _ member), fun same => distinct.1 (same ▸ member)⟩
  · exact distinct.2

theorem Coherent.swap {ptr memory : Nat} {rest : List Nat} (coherent : Coherent notes world)
    (fresh : world.heap.live memory ≠ true)
    (heap : ∀ other, after.heap.live other = true ↔ other = memory ∨ world.heap.live other = true ∧ other ≠ ptr)
    (head : written.head? = some (.passed ptr)) (quiet : written.tail.all fun note => !isPassed note)
    (settled : written.foldl settle (outstanding notes) =
      memory :: (outstanding notes).filter fun other => other ≠ ptr)
    (before : world.bases.Perm (ptr :: rest))
    (later : after.bases.Perm (memory :: rest)) : Coherent (notes ++ written) after := by
  have distinct := List.nodup_cons.mp (before.nodup_iff.mp coherent.distinct)
  have held : ∀ base ∈ ptr :: rest, world.heap.live base = true :=
    fun base member => coherent.owned base (before.symm.subset member)
  apply coherent.extend
  · intro other passed
    cases head.symm.trans passed
    exact held ptr List.mem_cons_self
  · exact quiet
  · intro other
    rw [settled, heap, List.mem_cons, List.mem_filter, coherent.live, decide_eq_true_eq]
  · intro base member
    rw [heap]
    rcases List.mem_cons.mp (later.subset member) with rfl | old
    · exact Or.inl rfl
    · exact Or.inr ⟨held base (List.mem_cons_of_mem _ old), fun same => distinct.1 (same ▸ old)⟩
  · refine later.nodup_iff.mpr (List.nodup_cons.mpr ⟨fun old => fresh (held memory ?_), distinct.2⟩)
    exact List.mem_cons_of_mem _ old

end Ownership

section Steps

variable {world after : World} {action : Action} {notes written : List Note} {entry : Entry}

theorem bases_of_pending {frame : Frame} (pending : world.pending = some frame) :
    world.bases = world.ledger.map Entry.base ++ transit (some frame) := by
  rw [World.bases, pending]

theorem bases_idle (idle : world.pending = none) : world.bases = world.ledger.map Entry.base := by
  rw [World.bases, idle]
  exact List.append_nil _

theorem bases_leave (returned : Nat) (kept : Entry) :
    (world.leave returned (some kept)).bases = world.ledger.map Entry.base ++ [kept.base] :=
  rfl

theorem bases_leave_none (returned : Nat) : (world.leave returned none).bases = world.ledger.map Entry.base :=
  List.append_nil _

theorem base_mem_transit {frame : Frame} {base : Nat} (pending : world.pending = some frame)
    (member : base ∈ transit (some frame)) : base ∈ world.bases := by
  rw [bases_of_pending pending]
  exact List.mem_append_right _ member

theorem bases_give {ledger : List Entry} (member : entry ∈ ledger) :
    ((ledger.erase entry).map Entry.base ++ [entry.base]).Perm (ledger.map Entry.base) := by
  have split := (List.perm_cons_erase member).map Entry.base
  exact (List.perm_append_singleton _ _).trans split.symm

theorem base_raw (raw : entry.raw = true) : entry.base = entry.ptr := if_pos raw

theorem base_translated (raw : entry.raw = false) : entry.base = userToLib entry.ptr := by
  simp [Entry.base, raw]

theorem base_handed (ptr size : Nat) : Entry.base ⟨ptr, size, false⟩ = userToLib ptr := base_translated rfl

theorem raw_of_matched {request : Request} {answer : Option Nat} (fits : matched world (.call request answer) = true)
    (up : world.libcGuard = true) (found : world.entry entry.ptr = some entry)
    (back : request = .free entry.ptr ∨ ∃ size, request = .realloc entry.ptr size) : entry.raw = true := by
  rcases back with rfl | ⟨size, rfl⟩ <;> simpa [matched, up, found] using fits

theorem Coherent.directRealloc (coherent : Coherent notes world) (raw : entry.raw = true)
    (member : entry ∈ world.ledger) (size : Nat) (answer : Option Nat) :
    Coherent (notes ++ (directRealloc world entry size answer).2) (directRealloc world entry size answer).1 := by
  have perm := bases_perm member
  rw [base_raw raw] at perm
  have held : entry.ptr ∈ world.bases := base_raw raw ▸ base_mem_bases member
  unfold Memgrind.directRealloc
  cases resized : realRealloc world.heap entry.ptr size answer with
  | undefined =>
    cases resizes_of_realRealloc resized with
    | undefined missing =>
      have live := coherent.owned _ held
      simp [Heap.live, missing] at live
  | failed => exact coherent.use held (fun _ => Iff.rfl) rfl rfl rfl (List.Perm.refl _)
  | freed heap =>
    cases resizes_of_realRealloc resized
    exact coherent.drop (fun other => Heap.live_release) rfl rfl rfl perm
  | inPlace heap => exact coherent.use held (live_inPlace resized) rfl rfl rfl perm.symm
  | moved memory heap =>
    obtain ⟨fresh, live⟩ := live_moved resized
    exact coherent.swap fresh live rfl rfl rfl perm (List.Perm.refl _)

theorem transit_of_back {request : Request} {frame : Frame}
    (back : request = .free entry.ptr ∧ frame = .free entry ∨
      ∃ size, request = .realloc entry.ptr size ∧ frame = .realloc entry size) :
    transit (some frame) = [entry.base] := by
  rcases back with ⟨_, rfl⟩ | ⟨size, _, rfl⟩ <;> rfl

theorem realFree_live {heap : RealHeap} {ptr : Nat} (live : heap.live ptr = true) :
    realFree heap ptr = (heap.release ptr, [.passed ptr, .released ptr]) := by
  rw [realFree, if_pos live]

theorem Coherent.directFree (coherent : Coherent notes world) (raw : entry.raw = true) (member : entry ∈ world.ledger) :
    Coherent (notes ++ (directFree world entry).2) (directFree world entry).1 := by
  have perm := bases_perm member
  rw [base_raw raw] at perm
  have live := coherent.owned _ (base_raw raw ▸ base_mem_bases member)
  rw [Memgrind.directFree, realFree_live live]
  exact coherent.drop (fun other => Heap.live_release) rfl rfl rfl perm

theorem not_raw_of_free {answer : Option Nat} {wild : ServiceInfo} (fits : matched world (.proceed answer wild) = true)
    (pending : world.pending = some (.free entry))
    (valid : checkServiceValidity (readService world.heap (userToLib entry.ptr) wild) = 0) : entry.raw = false := by
  cases raw : entry.raw with
  | false => rfl
  | true => simp [matched, pending, raw, valid] at fits

theorem not_raw_of_realloc {answer : Option Nat} {wild : ServiceInfo} {size : Nat}
    (fits : matched world (.proceed answer wild) = true) (pending : world.pending = some (.realloc entry size))
    (allowed : canAlloc world.settings world.statistics size = true)
    (valid : checkServiceValidity (readService world.heap (userToLib entry.ptr) wild) = 0) :
    entry.raw = false ∧ SizeT.add size serviceLength ≠ 0 := by
  cases raw : entry.raw with
  | false => exact ⟨rfl, by simpa [matched, pending, raw, allowed] using fits⟩
  | true => simp [matched, pending, raw, allowed, valid] at fits

theorem Coherent.step (coherent : Coherent notes world) (guarded : Guarded world) (fits : matched world action = true)
    (move : Move world action after written) : Coherent (notes ++ written) after := by
  cases move with
  | init | destroy => exact coherent.aside (fun _ => Iff.rfl) rfl rfl (List.Subperm.refl _)
  | enter down opens =>
    refine coherent.aside (fun _ => Iff.rfl) rfl rfl ?_
    rw [bases_idle (guarded.idle down), bases_of_pending rfl]
    cases opens <;> exact (List.Perm.of_eq (List.append_nil _)).subperm
  | give down found frame =>
    refine coherent.aside (fun _ => Iff.rfl) rfl rfl ?_
    rw [bases_idle (guarded.idle down), bases_of_pending rfl, transit_of_back frame]
    exact (bases_give (mem_of_entry found)).subperm
  | directNull up quiet =>
    rcases quiet with rfl | rfl <;> exact coherent.aside (fun _ => Iff.rfl) rfl rfl (List.Subperm.refl _)
  | directAlloc up placed =>
    exact coherent.gain (Heap.not_live_of_place (by decide) placed) (fun ptr => Heap.live_of_place placed) rfl rfl
      (List.Perm.refl _)
  -- The guard is up: the pointer is passed on as it is, so it must be a base.
  | directRealloc up found =>
    exact coherent.directRealloc (raw_of_matched fits up found (Or.inr ⟨_, rfl⟩)) (mem_of_entry found) _ _
  | directFree up found =>
    exact coherent.directFree (raw_of_matched fits up found (Or.inl rfl)) (mem_of_entry found)
  | decline pending asked refused =>
    refine coherent.aside (fun _ => Iff.rfl) rfl rfl ?_
    rw [bases_of_pending pending]
    rcases asked with ⟨bytes, size, asks, rfl⟩ | ⟨entry, rfl, rfl⟩
    · cases asks <;> exact List.Subperm.refl _
    · exact List.Subperm.refl _
  | exhaust pending asks allowed full =>
    refine coherent.aside (fun _ => Iff.rfl) rfl rfl ?_
    rw [bases_of_pending pending]
    cases asks <;> exact List.Subperm.refl _
  | @allocate frame answer wild checked bytes size memory heap pending asks allowed placed =>
    have fresh := Heap.not_live_of_place (by decide) placed
    have live : ∀ ptr, (initialiseServiceBlock heap memory bytes).live ptr = true ↔
        ptr = memory ∨ world.heap.live ptr = true := fun ptr => Heap.live_write.trans (Heap.live_of_place placed)
    have base := userToLib_libToUser ((Heap.live_of_place placed).mpr (Or.inl rfl))
    apply coherent.gain fresh live rfl rfl
    rw [bases_of_pending pending, bases_leave, base_handed, base]
    cases asks <;> exact (List.append_nil (world.ledger.map Entry.base)).symm ▸ List.perm_append_singleton _ _
  | corrupt pending called invalid =>
    refine coherent.aside (fun _ => Iff.rfl) rfl rfl ?_
    rw [bases_of_pending pending]
    rcases called with ⟨rfl, rfl⟩ | ⟨size, rfl, rfl⟩
    · rw [bases_leave_none]
      exact (List.sublist_append_left _ _).subperm
    · exact List.Subperm.refl _
  -- The guard is down: a pointer that passes the check is translated back to its base.
  | @reallocFailed answer wild entry size pending allowed valid =>
    have base := base_translated (not_raw_of_realloc fits pending allowed valid).1
    have held : userToLib entry.ptr ∈ world.bases := base ▸ base_mem_transit pending (List.mem_singleton_self _)
    refine coherent.use held (fun _ => Iff.rfl) rfl rfl rfl ?_
    rw [bases_of_pending pending]
    exact List.Perm.refl _
  | reallocFreed pending allowed valid resized =>
    cases resizes_of_realRealloc resized with
    | freed found empty => exact absurd empty (not_raw_of_realloc fits pending allowed valid).2
  | @reallocInPlace answer wild entry size heap pending allowed valid resized =>
    have base := base_translated (not_raw_of_realloc fits pending allowed valid).1
    have held : userToLib entry.ptr ∈ world.bases := base ▸ base_mem_transit pending (List.mem_singleton_self _)
    refine coherent.use held (fun other => Heap.live_write.trans (live_inPlace resized other)) rfl rfl rfl ?_
    rw [bases_of_pending pending, bases_leave, base_handed, userToLib_libToUser (coherent.owned _ held), transit, base]
  | @reallocMoved answer wild entry size memory heap pending allowed valid resized =>
    have base := base_translated (not_raw_of_realloc fits pending allowed valid).1
    obtain ⟨fresh, live⟩ := live_moved resized
    have handed := userToLib_libToUser ((live memory).mpr (Or.inl rfl))
    have before : world.bases.Perm (userToLib entry.ptr :: world.ledger.map Entry.base) := by
      rw [bases_of_pending pending, transit, base]
      exact List.perm_append_singleton _ _
    refine coherent.swap fresh (fun other => Heap.live_write.trans (live other)) rfl rfl rfl before ?_
    rw [bases_leave, base_handed, handed]
    exact List.perm_append_singleton _ _
  | bookFree pending valid =>
    refine coherent.aside (fun _ => Iff.rfl) rfl rfl ?_
    rw [bases_of_pending pending, transit, base_translated (not_raw_of_free fits pending valid)]
    exact List.Subperm.refl _
  | @release answer wild ptr pending =>
    have live := coherent.owned ptr (base_mem_transit pending (List.mem_singleton_self _))
    rw [realFree_live live]
    refine coherent.drop (fun other => Heap.live_release) rfl rfl rfl ?_
    rw [bases_of_pending pending, bases_leave_none]
    exact List.perm_append_singleton _ _
  -- The block in the hands of the call becomes its owner's.
  | @leave answer wild returned kept pending =>
    have perm : (returnFromGuarded world returned kept).1.bases.Perm world.bases := by
      rw [bases_of_pending pending, bases_idle rfl]
      cases kept with
      | none => exact List.Perm.of_eq (List.append_nil _).symm
      | some entry => exact (List.perm_append_singleton _ _).symm
    refine coherent.aside (fun _ => Iff.rfl) ?_ ?_ perm.subperm
    · cases kept with
      | none => rfl
      | some entry => by_cases null : returned = 0 <;> simp [returnFromGuarded, null, isPassed]
    · cases kept with
      | none => rfl
      | some entry => by_cases null : returned = 0 <;> simp [returnFromGuarded, null, settle]

end Steps

section Runs

theorem guarded_start (settings : EnviromentSettings) : Guarded (start settings) :=
  ⟨fun _ => rfl, fun _ => ⟨rfl, rfl⟩⟩

theorem coherent_start (settings : EnviromentSettings) : Coherent [] (start settings) where
  consistent := by
    intro before ptr after same
    cases before <;> cases same
  live := by
    intro ptr
    simp [outstanding, Heap.live_iff, start, Heap.empty]
  owned := by
    intro base member
    cases member
  distinct := List.nodup_nil

variable {settings : EnviromentSettings} {actions : List Action} {notes : List Note} {world : World}

theorem coherent_run (run : (memgrindMachine.restrict matched).Run (start settings) actions notes world) :
    Coherent notes world ∧ Guarded world := by
  refine run.invariant (fun notes world => Coherent notes world ∧ Guarded world)
    ⟨coherent_start settings, guarded_start settings⟩ ?_
  intro notes world action after written holds step
  obtain ⟨fits, step⟩ := Machine.step_of_restrict step
  have move := move_of_step step
  exact ⟨holds.1.step holds.2 fits move, holds.2.step move⟩

/-- As long as pointers come back under the guard they were handed out under,
the real allocator gets back its own pointers. -/
theorem translation_consistent
    (run : (memgrindMachine.restrict matched).Run (start settings) actions notes world) : Consistent notes :=
  (coherent_run run).1.consistent

theorem translation_consistent_nested :
    ∃ notes world, notes = [.numbered, .booked 8, .obtained 4096, .obtained 8192, .returned 8192, .passed 8192,
        .released 8192, .handed 8, .returned 4112, .passed 4096, .released 4096, .obtained 6000, .numbered, .booked 40,
        .handed 40, .returned 6016, .passed 6000, .released 6000, .returned 0] ∧
      (memgrindMachine.restrict matched).Run (start ⟨SizeT.max, SizeT.max, SizeT.max, by decide⟩)
        [.init, .call (.malloc 8) none, .proceed (some 4096) ⟨0, ""⟩, .call (.malloc 100) (some 8192),
          .call (.free 8192) none, .proceed none ⟨0, ""⟩, .call (.realloc 4112 40) none, .proceed (some 6000) ⟨0, ""⟩,
          .proceed none ⟨0, ""⟩, .call (.free 6016) none, .proceed none ⟨0, ""⟩, .proceed none ⟨0, ""⟩,
          .proceed none ⟨0, ""⟩] notes world ∧
      Consistent notes := by
  have executed : ((memgrindMachine.restrict matched).exec (start ⟨SizeT.max, SizeT.max, SizeT.max, by decide⟩)
      [.init, .call (.malloc 8) none, .proceed (some 4096) ⟨0, ""⟩, .call (.malloc 100) (some 8192),
        .call (.free 8192) none, .proceed none ⟨0, ""⟩, .call (.realloc 4112 40) none, .proceed (some 6000) ⟨0, ""⟩,
        .proceed none ⟨0, ""⟩, .call (.free 6016) none, .proceed none ⟨0, ""⟩, .proceed none ⟨0, ""⟩,
        .proceed none ⟨0, ""⟩]).map Prod.snd =
      some [.numbered, .booked 8, .obtained 4096, .obtained 8192, .returned 8192, .passed 8192, .released 8192,
        .handed 8, .returned 4112, .passed 4096, .released 4096, .obtained 6000, .numbered, .booked 40, .handed 40,
        .returned 6016, .passed 6000, .released 6000, .returned 0] := by
    decide +kernel
  obtain ⟨world, run⟩ := Machine.exists_run_of_notes executed
  exact ⟨_, world, rfl, run, translation_consistent run⟩

/-- A block handed out before the library is unloaded and freed afterwards. -/
theorem translation_inconsistent :
    ¬ ∀ (settings : EnviromentSettings) (actions : List Action) (notes : List Note) (world : World),
      memgrindMachine.Run (start settings) actions notes world → Consistent notes := by
  intro holds
  have executed : (memgrindMachine.exec (start ⟨SizeT.max, SizeT.max, SizeT.max, by decide⟩)
      [.init, .call (.malloc 8) none, .proceed (some 4096) ⟨0, ""⟩, .proceed none ⟨0, ""⟩, .destroy,
        .call (.free 4112) none]).map Prod.snd =
      some [.numbered, .booked 8, .obtained 4096, .handed 8, .returned 4112, .final (some (8, 1)), .passed 4112] := by
    decide +kernel
  obtain ⟨world, run⟩ := Machine.exists_run_of_notes executed
  have member := holds _ _ _ _ run
    [.numbered, .booked 8, .obtained 4096, .handed 8, .returned 4112, .final (some (8, 1))] 4112 [] rfl
  exact absurd member (by decide)

end Runs
end PosixC.Memgrind
