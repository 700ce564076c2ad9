import Mathlib.Algebra.BigOperators.Group.Finset.Basic

/-! Sums over the parts of a state, of which one part changes. -/

set_option autoImplicit false

namespace PosixC.Foundation

theorem sum_changed {Part : Type} [Fintype Part] [DecidableEq Part] {before now : Part → Nat} (part : Part)
    (others : ∀ other, other ≠ part → now other = before other) {more less : Nat}
    (changed : now part + less = before part + more) : ∑ i, now i + less = ∑ i, before i + more := by
  have rest : ∑ i ∈ Finset.univ.erase part, now i = ∑ i ∈ Finset.univ.erase part, before i :=
    Finset.sum_congr rfl fun other member => others other (Finset.ne_of_mem_erase member)
  calc ∑ i, now i + less = now part + less + ∑ i ∈ Finset.univ.erase part, now i := by
        rw [← Finset.add_sum_erase _ now (Finset.mem_univ part)]
        omega
    _ = before part + more + ∑ i ∈ Finset.univ.erase part, before i := by rw [changed, rest]
    _ = ∑ i, before i + more := by
        rw [← Finset.add_sum_erase _ before (Finset.mem_univ part)]
        omega

end PosixC.Foundation
