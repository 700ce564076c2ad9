import PosixC.Memgrind.Limits

/-! The admission test of the allocation tracker at the limits of `size_t`.

A sum that reaches `2 ^ 64` is compared without its carry, so that a limit which
is far exceeded can let a request pass. It is right as long as no sum wraps, or
another limit stands against the request.
-/

set_option autoImplicit false

namespace PosixC.Memgrind

open Foundation

section Model

def canAllocCall (settings : EnviromentSettings) (statistics : MemoryStatistics) (size : Nat) : Bool × MemoryStatistics :=
  match declined settings statistics size with
  | some _ => (false, statistics.decline)
  | none => (true, statistics)

variable {settings : EnviromentSettings} {statistics : MemoryStatistics} {size : Nat}

theorem canAllocCall_fst : (canAllocCall settings statistics size).1 = canAlloc settings statistics size := by
  unfold canAllocCall canAlloc
  cases declined settings statistics size <;> rfl

theorem canAllocCall_refused (refused : (canAllocCall settings statistics size).1 = false) :
    (canAllocCall settings statistics size).2 = statistics.decline := by
  unfold canAllocCall at refused ⊢
  cases failed : declined settings statistics size with
  | none => simp [failed] at refused
  | some limit => rfl

theorem allocate_refused {world : World} {bytes asked : Nat} {answer : Option Nat}
    (refused : (canAllocCall world.settings world.statistics size).1 = false) :
    allocate world size bytes asked answer =
      ({ world with statistics := (canAllocCall world.settings world.statistics size).2 }.leave 0 none, []) := by
  rw [canAllocCall_refused refused]
  rw [canAllocCall_fst] at refused
  rw [allocate, refused]
  rfl

end Model

section Exactness

def Within (settings : EnviromentSettings) (statistics : MemoryStatistics) (size : Nat) : Prop :=
  size ≤ settings.memgrindAllocMax ∧ statistics.totalUsed + size ≤ settings.memgrindMemMax ∧
    statistics.allocationNum + 1 ≤ settings.memgrindAllocCount

/-- What is within the limits is allowed, and only the rest is counted as declined. -/
structure ExactTest (settings : EnviromentSettings) (statistics : MemoryStatistics) (size : Nat) : Prop where
  allowed : (canAllocCall settings statistics size).1 = true ↔ Within settings statistics size
  refused : (canAllocCall settings statistics size).1 = false →
    (canAllocCall settings statistics size).2 =
      { statistics with declinedAllocations := statistics.declinedAllocations + 1 }

/-- No sum wraps, or a limit is exceeded by a size, by a sum that does not wrap or by
what a sum leaves when it does. -/
def Decisive (settings : EnviromentSettings) (statistics : MemoryStatistics) (size : Nat) : Prop :=
  (statistics.totalUsed + size < 2 ^ 64 ∧ statistics.allocationNum + 1 < 2 ^ 64) ∨
    settings.memgrindAllocMax < size ∨
    (settings.memgrindMemMax < statistics.totalUsed + size ∧ statistics.totalUsed + size < 2 ^ 64) ∨
    settings.memgrindMemMax + 2 ^ 64 < statistics.totalUsed + size ∨
    (settings.memgrindAllocCount < statistics.allocationNum + 1 ∧ statistics.allocationNum + 1 < 2 ^ 64)

variable {settings : EnviromentSettings} {statistics : MemoryStatistics} {world : World} {size : Nat}

theorem allowed_iff (used : statistics.totalUsed < 2 ^ 64) (few : statistics.allocationNum < 2 ^ 64)
    (fits : size < 2 ^ 64) : ((canAllocCall settings statistics size).1 = true ↔ Within settings statistics size) ↔
      Decisive settings statistics size := by
  have bounds := settings.fits
  rw [canAllocCall_fst, canAlloc_iff]
  unfold Within Decisive SizeT.add
  unfold SizeT.max at bounds
  omega

theorem decline_iff : statistics.decline = { statistics with declinedAllocations := statistics.declinedAllocations + 1 } ↔
    statistics.declinedAllocations + 1 < 2 ^ 64 := by
  rw [MemoryStatistics.decline, MemoryStatistics.mk.injEq]
  simp only [true_and]
  unfold SizeT.add
  omega

theorem exactTest_decisive (used : statistics.totalUsed < 2 ^ 64) (few : statistics.allocationNum < 2 ^ 64)
    (fits : size < 2 ^ 64) : ExactTest settings statistics size ↔
      Decisive settings statistics size ∧
        (statistics.declinedAllocations + 1 < 2 ^ 64 ∨ Within settings statistics size) := by
  constructor
  · intro exact
    refine ⟨(allowed_iff used few fits).mp exact.allowed, or_iff_not_imp_right.mpr fun beyond => ?_⟩
    have refused := Bool.eq_false_iff.mpr (mt exact.allowed.mp beyond)
    exact decline_iff.mp ((canAllocCall_refused refused).symm.trans (exact.refused refused))
  · rintro ⟨decisive, room⟩
    have allowed := (allowed_iff used few fits).mpr decisive
    refine ⟨allowed, fun refused => ?_⟩
    have beyond : ¬ Within settings statistics size := fun within => Bool.eq_false_iff.mp refused (allowed.mpr within)
    rw [canAllocCall_refused refused, decline_iff.mpr (room.resolve_right beyond)]

theorem totalUsed_lt {actions : List Action} {notes : List Note}
    (run : memgrindMachine.Run (start settings) actions notes world) : world.statistics.totalUsed < 2 ^ 64 := by
  refine run.invariant (fun _ world => world.statistics.totalUsed < 2 ^ 64) (Nat.two_pow_pos 64) ?_
  intro notes world action after written small step
  rcases books_of_move (move_of_step step) with still | ⟨checked, bytes, size, booked, _⟩
  · exact still.totalUsed.symm ▸ small
  · rcases booked.totalUsed with added | ⟨_, kept⟩
    · exact added.symm ▸ SizeT.add_lt _ _
    · exact kept.symm ▸ small

/-- With the statistics of any run the test is exact unless a sum wraps and no other
limit stands against the request. -/
theorem exactTest_iff {actions : List Action} {notes : List Note}
    (run : memgrindMachine.Run (start settings) actions notes world) (fits : size ≤ SizeT.max) :
    ExactTest world.settings world.statistics size ↔
      Decisive world.settings world.statistics size ∧
        (world.statistics.declinedAllocations + 1 < 2 ^ 64 ∨ Within world.settings world.statistics size) := by
  obtain ⟨same, few⟩ := allocationNum_le run
  have bounds := settings.fits
  unfold SizeT.max at bounds fits
  exact exactTest_decisive (totalUsed_lt run) (by omega) (by omega)

def hundred : EnviromentSettings := ⟨100, SizeT.max, SizeT.max, by decide⟩

/-- With one byte in use, a request for all 2⁶⁴ − 1 bytes passes the test. -/
theorem exactTest_wrong : ∃ actions notes world, memgrindMachine.Run (start hundred) actions notes world ∧
    ¬ ExactTest world.settings world.statistics SizeT.max := by
  have executed : (memgrindMachine.exec (start hundred)
      [.init, .call (.malloc 1) none, .proceed (some 4096) ⟨0, ""⟩, .proceed none ⟨0, ""⟩]).any
        (fun result => canAlloc result.1.settings result.1.statistics SizeT.max &&
          decide (result.1.settings.memgrindMemMax = 100)) = true := by
    decide +kernel
  obtain ⟨world, notes, run, passes⟩ := Machine.exists_run_of_any executed
  obtain ⟨passed, limit⟩ := Bool.and_eq_true_iff.mp passes
  refine ⟨_, notes, world, run, fun exact => ?_⟩
  have within := (exact.allowed.mp (canAllocCall_fst.trans passed)).2.1
  rw [of_decide_eq_true limit] at within
  unfold SizeT.max at within
  omega

theorem exactTest_largest : ∃ actions notes world, memgrindMachine.Run (start hundred) actions notes world ∧
    world.statistics.totalUsed = 3 ∧ world.statistics.allocationNum = 1 ∧
    (canAllocCall world.settings world.statistics (SizeT.max - 3)).1 = false ∧
    ExactTest world.settings world.statistics (SizeT.max - 3) := by
  have executed : (memgrindMachine.exec (start hundred)
      [.init, .call (.malloc 3) none, .proceed (some 4096) ⟨0, ""⟩, .proceed none ⟨0, ""⟩]).any
        (fun result => decide (result.1.statistics.totalUsed = 3 ∧ result.1.statistics.allocationNum = 1 ∧
          result.1.statistics.declinedAllocations = 0 ∧ result.1.settings.memgrindMemMax = 100)) = true := by
    decide +kernel
  obtain ⟨world, notes, run, shown⟩ := Machine.exists_run_of_any executed
  simp only [decide_eq_true_eq] at shown
  obtain ⟨used, few, fresh, limit⟩ := shown
  have decisive : Decisive world.settings world.statistics (SizeT.max - 3) := by
    unfold Decisive SizeT.max
    omega
  have exact := (exactTest_iff run (by decide)).mpr ⟨decisive, Or.inl (by omega)⟩
  refine ⟨_, notes, world, run, used, few, Bool.eq_false_iff.mpr fun allowed => ?_, exact⟩
  have within := (exact.allowed.mp allowed).2.1
  unfold SizeT.max at within
  omega

end Exactness
end PosixC.Memgrind
