import PosixC.Memgrind.Model

/-! The configured limits of the allocation tracker.

All three limits are tested before anything is booked. The number of allocations
stays within its limit in every run; the two limits on sizes do as long as the
tested size is the booked one and the sum in the test does not wrap.
-/

set_option autoImplicit false

namespace PosixC.Memgrind

open Foundation

section Books

def bookedTotal (notes : List Note) : Nat :=
  (notes.map fun note =>
    match note with
    | .booked bytes => bytes
    | _ => 0).sum

@[simp] theorem bookedTotal_append (first second : List Note) :
    bookedTotal (first ++ second) = bookedTotal first + bookedTotal second := by
  simp [bookedTotal]

def Underway (world : World) (size : Nat) : Prop :=
  ∃ returned entry, world.pending = some (.leaving returned (some entry)) ∧ returned ≠ 0 ∧ entry.size = size

structure Still (world after : World) (notes : List Note) : Prop where
  settings : after.settings = world.settings
  totalUsed : after.statistics.totalUsed = world.statistics.totalUsed
  allocationNum : after.statistics.allocationNum = world.statistics.allocationNum
  booked : bookedTotal notes = 0
  handed : ∀ size, .handed size ∈ notes → Underway world size
  underway : ∀ size, Underway after size → Underway world size

structure Booked (world after : World) (notes : List Note) (checked bytes size : Nat) : Prop where
  settings : after.settings = world.settings
  allowed : canAlloc world.settings world.statistics checked = true
  totalUsed : after.statistics.totalUsed = SizeT.add world.statistics.totalUsed bytes ∨
    bytes = 0 ∧ after.statistics.totalUsed = world.statistics.totalUsed
  allocationNum : after.statistics.allocationNum = SizeT.add world.statistics.allocationNum 1 ∨
    after.statistics.allocationNum = world.statistics.allocationNum
  booked : bookedTotal notes = bytes
  handed : ∀ size, .handed size ∉ notes
  underway : ∀ other, Underway after other → other = size

theorem still_directRealloc (world : World) (entry : Entry) (size : Nat) (answer : Option Nat) :
    Still world (directRealloc world entry size answer).1 (directRealloc world entry size answer).2 := by
  unfold directRealloc
  split <;> exact ⟨rfl, rfl, rfl, rfl, by simp, fun _ => id⟩

theorem still_directFree (world : World) (entry : Entry) :
    Still world (directFree world entry).1 (directFree world entry).2 := by
  simp only [directFree, realFree]
  cases world.heap.live entry.ptr <;> exact ⟨rfl, rfl, rfl, rfl, by simp, fun _ => id⟩

theorem underway_leave {world : World} {returned size : Nat} {kept : Option Entry}
    (underway : Underway (world.leave returned kept) size) :
    returned ≠ 0 ∧ ∃ entry, kept = some entry ∧ entry.size = size := by
  obtain ⟨ptr, entry, pending, nonzero, same⟩ := underway
  cases pending
  exact ⟨nonzero, entry, rfl, same⟩

theorem size_of_underway {world : World} {returned size : Nat} {entry : Entry}
    (underway : Underway (world.leave returned (some entry)) size) : size = entry.size := by
  obtain ⟨_, _, kept, same⟩ := underway_leave underway
  cases kept
  exact same.symm

variable {world after : World} {action : Action} {notes : List Note}

/-- A step that books something runs a call that asked for it. -/
theorem books_of_move (move : Move world action after notes) :
    Still world after notes ∨ ∃ checked bytes size, Booked world after notes checked bytes size ∧
      ∃ answer wild frame, action = .proceed answer wild ∧ world.pending = some frame ∧
        (Asks frame checked bytes size ∨
          ∃ entry, frame = .realloc entry checked ∧ bytes ≤ checked ∧ size = checked) := by
  cases move with
  | init | directAlloc => exact Or.inl ⟨rfl, rfl, rfl, rfl, by simp, fun _ => id⟩
  | destroy running idle => exact Or.inl ⟨rfl, rfl, rfl, rfl, by simp, fun _ => id⟩
  | enter down opens =>
    refine Or.inl ⟨rfl, rfl, rfl, rfl, by simp, fun size underway => ?_⟩
    obtain ⟨ptr, entry, pending, nonzero, _⟩ := underway
    cases pending
    cases opens
  | give down found frame =>
    refine Or.inl ⟨rfl, rfl, rfl, rfl, by simp, fun size underway => ?_⟩
    obtain ⟨ptr, entry, pending, nonzero, _⟩ := underway
    cases pending
    rcases frame with ⟨_, same⟩ | ⟨_, _, same⟩ <;> cases same
  | directNull up written =>
    rcases written with rfl | rfl <;> exact Or.inl ⟨rfl, rfl, rfl, rfl, by simp, fun _ => id⟩
  | directRealloc => exact Or.inl (still_directRealloc ..)
  | directFree => exact Or.inl (still_directFree ..)
  | decline | corrupt | reallocFailed | reallocFreed =>
    exact Or.inl ⟨rfl, rfl, rfl, rfl, by simp, fun size underway => absurd rfl (underway_leave underway).1⟩
  | bookFree pending valid =>
    refine Or.inl ⟨rfl, rfl, rfl, rfl, by simp, fun size underway => ?_⟩
    obtain ⟨ptr, entry, other, _⟩ := underway
    cases other
  | release pending =>
    refine Or.inl ⟨rfl, rfl, rfl, ?_, ?_, fun size underway => absurd rfl (underway_leave underway).1⟩
    · unfold realFree
      split <;> rfl
    · unfold realFree
      split <;> simp
  | @leave _ _ returned kept pending =>
    refine Or.inl ⟨rfl, rfl, rfl, ?_, ?_, fun size underway => ?_⟩
    · unfold returnFromGuarded
      cases kept with
      | none => rfl
      | some entry => simp only; split <;> rfl
    · intro size handed
      cases kept with
      | none => simp [returnFromGuarded] at handed
      | some entry =>
        simp only [returnFromGuarded] at handed
        split at handed
        · simp at handed
        · next nonzero => exact ⟨returned, entry, pending, nonzero, by simpa [eq_comm] using handed⟩
    · obtain ⟨ptr, entry, other, _⟩ := underway
      cases other
  | exhaust pending asks allowed full =>
    refine Or.inr ⟨_, _, _, ⟨rfl, allowed, Or.inl rfl, Or.inl rfl, by simp [bookedTotal], by simp, ?_⟩,
      _, _, _, rfl, pending, Or.inl asks⟩
    exact fun size underway => absurd rfl (underway_leave underway).1
  | allocate pending asks allowed placed =>
    refine Or.inr ⟨_, _, _, ⟨rfl, allowed, Or.inl rfl, Or.inl rfl, by simp [bookedTotal], by simp, ?_⟩,
      _, _, _, rfl, pending, Or.inl asks⟩
    exact fun other => size_of_underway
  -- The difference is booked, which is not more than the size that was tested.
  | @reallocInPlace answer wild entry size heap pending allowed valid resized =>
    generalize (readService world.heap (userToLib entry.ptr) wild).blockSize = blockSize
    refine Or.inr ⟨size, size - blockSize, size, ⟨rfl, allowed, ?_, ?_, by simp [bookedTotal], by simp, ?_⟩,
      answer, wild, _, rfl, pending, Or.inr ⟨entry, rfl, Nat.sub_le _ _, rfl⟩⟩
    · simp only [World.leave, MemoryStatistics.resize]
      split
      · exact Or.inl rfl
      · exact Or.inr ⟨by omega, rfl⟩
    · simp only [World.leave, MemoryStatistics.resize]
      split <;> exact Or.inr rfl
    · exact fun other => size_of_underway
  | @reallocMoved answer wild entry size memory heap pending allowed valid resized =>
    refine Or.inr ⟨size, size, size, ⟨rfl, allowed, Or.inl rfl, Or.inl rfl, by simp [bookedTotal], by simp, ?_⟩,
      answer, wild, _, rfl, pending, Or.inr ⟨entry, rfl, le_rfl, rfl⟩⟩
    exact fun other => size_of_underway

end Books

section Limits

/-- Where a request passes the limits, the sum of the test does not wrap, and the
array a `calloc` asks for would pass as well as one of its elements does. -/
def soundTest (world : World) (action : Action) : Bool :=
  match action, world.pending with
  | .proceed _ _, some (.malloc size) | .proceed _ _, some (.realloc _ size) =>
      canAlloc world.settings world.statistics size → world.statistics.totalUsed + size < 2 ^ 64
  | .proceed _ _, some (.calloc num size) =>
      canAlloc world.settings world.statistics size →
        num * size ≤ world.settings.memgrindAllocMax ∧
          world.statistics.totalUsed + num * size ≤ world.settings.memgrindMemMax
  | _, _ => true

structure Limited (settings : EnviromentSettings) (notes : List Note) (world : World) : Prop where
  same : world.settings = settings
  exact : world.statistics.totalUsed = bookedTotal notes
  booked : bookedTotal notes ≤ settings.memgrindMemMax
  handed : ∀ size, .handed size ∈ notes → size ≤ settings.memgrindAllocMax
  underway : ∀ size, Underway world size → size ≤ settings.memgrindAllocMax

variable {settings : EnviromentSettings} {world after : World} {action : Action} {notes written : List Note}

theorem soundTest_asks {frame : Frame} {answer : Option Nat} {wild : ServiceInfo} {checked bytes size : Nat}
    (sound : soundTest world (.proceed answer wild) = true) (pending : world.pending = some frame)
    (asks : Asks frame checked bytes size) (allowed : canAlloc world.settings world.statistics checked = true) :
    size ≤ world.settings.memgrindAllocMax ∧ world.statistics.totalUsed + bytes ≤ world.settings.memgrindMemMax := by
  obtain ⟨small, within, _⟩ := canAlloc_iff.mp allowed
  cases asks with
  | malloc =>
    simp only [soundTest, pending, decide_eq_true_eq] at sound
    rw [SizeT.add_exact (sound allowed)] at within
    exact ⟨small, within⟩
  | calloc =>
    simp only [soundTest, pending, decide_eq_true_eq] at sound
    exact ⟨(sound allowed).1, le_trans (Nat.add_le_add_left (Nat.mod_le _ _) _) (sound allowed).2⟩

theorem soundTest_realloc {entry : Entry} {answer : Option Nat} {wild : ServiceInfo} {size : Nat}
    (sound : soundTest world (.proceed answer wild) = true) (pending : world.pending = some (.realloc entry size))
    (allowed : canAlloc world.settings world.statistics size = true) :
    size ≤ world.settings.memgrindAllocMax ∧ world.statistics.totalUsed + size ≤ world.settings.memgrindMemMax := by
  obtain ⟨small, within, _⟩ := canAlloc_iff.mp allowed
  simp only [soundTest, pending, decide_eq_true_eq] at sound
  rw [SizeT.add_exact (sound allowed)] at within
  exact ⟨small, within⟩

theorem Limited.step (limited : Limited settings notes world) (sound : soundTest world action = true)
    (move : Move world action after written) : Limited settings (notes ++ written) after := by
  rcases books_of_move move with still | ⟨checked, bytes, size, booked, answer, wild, frame, rfl, pending, asks⟩
  · refine ⟨still.settings.trans limited.same, ?_, ?_, ?_,
      fun size under => limited.underway size (still.underway size under)⟩
    · rw [bookedTotal_append, still.booked, still.totalUsed, limited.exact, Nat.add_zero]
    · rw [bookedTotal_append, still.booked]
      exact limited.booked
    · intro size handed
      rcases List.mem_append.mp handed with early | late
      · exact limited.handed size early
      · exact limited.underway size (still.handed size late)
  -- A booking was tested, and the test was sound; that leaves the counter exact.
  · have fits : size ≤ settings.memgrindAllocMax ∧ bookedTotal notes + bytes ≤ settings.memgrindMemMax := by
      rw [← limited.same, ← limited.exact]
      rcases asks with asks | ⟨entry, rfl, fewer, rfl⟩
      · exact soundTest_asks sound pending asks booked.allowed
      · obtain ⟨small, within⟩ := soundTest_realloc sound pending booked.allowed
        exact ⟨small, by omega⟩
    refine ⟨booked.settings.trans limited.same, ?_, ?_, ?_, fun other under => booked.underway other under ▸ fits.1⟩
    · have bound := settings.fits.1
      rw [bookedTotal_append, booked.booked]
      rcases booked.totalUsed with added | ⟨rfl, kept⟩
      · rw [added, limited.exact, SizeT.add_exact]
        unfold SizeT.max at bound
        omega
      · rw [kept, limited.exact, Nat.add_zero]
    · rw [bookedTotal_append, booked.booked]
      exact fits.2
    · intro other handed
      rcases List.mem_append.mp handed with early | late
      · exact limited.handed other early
      · exact absurd late (booked.handed other)

theorem limited_start : Limited settings [] (start settings) where
  same := rfl
  exact := rfl
  booked := Nat.zero_le _
  handed := by simp
  underway := by
    intro size underway
    obtain ⟨_, _, pending, _⟩ := underway
    cases pending

/-- The limit on the number of allocations holds in every run. -/
theorem allocationNum_le {actions : List Action}
    (run : memgrindMachine.Run (start settings) actions notes world) :
    world.settings = settings ∧ world.statistics.allocationNum ≤ settings.memgrindAllocCount := by
  refine run.invariant (fun _ world => world.settings = settings ∧
    world.statistics.allocationNum ≤ settings.memgrindAllocCount) ⟨rfl, Nat.zero_le _⟩ ?_
  rintro notes world action after written ⟨same, few⟩ step
  rcases books_of_move (move_of_step step) with still | ⟨checked, bytes, size, booked, _⟩
  · exact ⟨still.settings.trans same, still.allocationNum.symm ▸ few⟩
  · refine ⟨booked.settings.trans same, ?_⟩
    rcases booked.allocationNum with added | kept
    · rw [added, ← same]
      exact (canAlloc_iff.mp booked.allowed).2.2
    · exact kept.symm ▸ few

/-- As long as the tests are sound, all three limits hold in every state reached. -/
theorem limits_enforced {actions : List Action}
    (run : (memgrindMachine.restrict soundTest).Run (start settings) actions notes world) :
    (∀ size, .handed size ∈ notes → size ≤ settings.memgrindAllocMax) ∧
      bookedTotal notes ≤ settings.memgrindMemMax ∧
      world.statistics.allocationNum ≤ settings.memgrindAllocCount := by
  have limited : Limited settings notes world := by
    apply run.invariant (Limited settings) limited_start
    intro notes world action after written limited step
    obtain ⟨sound, step⟩ := Machine.step_of_restrict step
    exact limited.step sound (move_of_step step)
  exact ⟨limited.handed, limited.booked, (allocationNum_le run.of_restrict).2⟩

theorem limits_enforced_array :
    ∃ notes world, notes = [.numbered, .booked 10, .obtained 4096, .handed 10, .returned 4112] ∧
      (memgrindMachine.restrict soundTest).Run (start ⟨100, 10, 3, by decide⟩)
        [.init, .call (.calloc 2 5) none, .proceed (some 4096) ⟨0, ""⟩, .proceed none ⟨0, ""⟩] notes world ∧
      (∀ size, .handed size ∈ notes → size ≤ 10) ∧ bookedTotal notes ≤ 100 ∧ world.statistics.allocationNum ≤ 3 := by
  have executed : ((memgrindMachine.restrict soundTest).exec (start ⟨100, 10, 3, by decide⟩)
      [.init, .call (.calloc 2 5) none, .proceed (some 4096) ⟨0, ""⟩, .proceed none ⟨0, ""⟩]).map Prod.snd =
      some [.numbered, .booked 10, .obtained 4096, .handed 10, .returned 4112] := by
    decide
  obtain ⟨world, run⟩ := Machine.exists_run_of_notes executed
  exact ⟨_, world, rfl, run, limits_enforced run⟩

/-- A hundred elements of the largest permitted size are handed out at once. -/
theorem limits_not_enforced :
    ¬ ∀ (settings : EnviromentSettings) (actions : List Action) (notes : List Note) (world : World),
      memgrindMachine.Run (start settings) actions notes world →
      (∀ size, .handed size ∈ notes → size ≤ settings.memgrindAllocMax) ∧
        bookedTotal notes ≤ settings.memgrindMemMax ∧
        world.statistics.allocationNum ≤ settings.memgrindAllocCount := by
  intro holds
  have executed : (memgrindMachine.exec (start ⟨100, 10, 3, by decide⟩)
      [.init, .call (.calloc 100 10) none, .proceed (some 4096) ⟨0, ""⟩, .proceed none ⟨0, ""⟩]).map Prod.snd =
      some [.numbered, .booked 1000, .obtained 4096, .handed 1000, .returned 4112] := by
    decide
  obtain ⟨world, run⟩ := Machine.exists_run_of_notes executed
  obtain ⟨handed, _⟩ := holds _ _ _ _ run
  exact absurd (handed 1000 (by decide)) (by decide)

end Limits
end PosixC.Memgrind
