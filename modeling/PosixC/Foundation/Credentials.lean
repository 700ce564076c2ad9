import Mathlib.Data.Finset.Insert
import Mathlib.Tactic.Tauto

/-! The user ids of a process and the calls that change them.

Only a process whose effective id is the one of the superuser may take ids that it
does not have.
-/

set_option autoImplicit false

namespace PosixC.Foundation.Credentials

/-- The valid user ids; `(uid_t)-1` is none. -/
abbrev Uid := Fin 4294967295

def root : Uid := ⟨0, by decide⟩

structure Ids where
  real : Uid
  effective : Uid
  saved : Uid
  deriving DecidableEq, Repr

namespace Ids

def Privileged (ids : Ids) : Prop := ids.effective = root

instance (ids : Ids) : Decidable ids.Privileged := inferInstanceAs (Decidable (_ = _))

def own (ids : Ids) : Finset Uid := {ids.real, ids.effective, ids.saved}

def permits (ids : Ids) (field : Option Uid) : Bool := field.all fun uid => uid ∈ ids.own

def exec (real effective : Uid) : Ids := ⟨real, effective, effective⟩

@[simp] theorem exec_effective (real effective : Uid) : (exec real effective).effective = effective := rfl

end Ids

/-- The system calls; a field of `setresuid` that is `none` stays. -/
inductive Call where
  | setuid (uid : Uid)
  | seteuid (uid : Uid)
  | setresuid (real effective saved : Option Uid)
  deriving DecidableEq, Repr

/-- `none` where the call fails with `EPERM`. -/
def perform (ids : Ids) : Call → Option Ids
  | .setuid uid =>
      if ids.Privileged then some ⟨uid, uid, uid⟩
      else if uid = ids.real ∨ uid = ids.saved then some { ids with effective := uid }
      else none
  | .seteuid uid => if ids.Privileged ∨ uid ∈ ids.own then some { ids with effective := uid } else none
  | .setresuid real effective saved =>
      if ids.Privileged ∨ ids.permits real ∧ ids.permits effective ∧ ids.permits saved then
        some ⟨real.getD ids.real, effective.getD ids.effective, saved.getD ids.saved⟩
      else none

def apply (ids : Ids) (call : Call) : Ids := (perform ids call).getD ids

def applyAll (ids : Ids) (calls : List Call) : Ids := calls.foldl apply ids

section Rules

variable {ids after : Ids} {call : Call} {uid : Uid}

theorem mem_own : uid ∈ ids.own ↔ uid = ids.real ∨ uid = ids.effective ∨ uid = ids.saved := by
  simp [Ids.own]

/-- A process without privileges gets no id that it does not have. -/
theorem own_of_perform (plain : ¬ ids.Privileged) (performed : perform ids call = some after) :
    after.own ⊆ ids.own := by
  intro uid member
  cases call with
  | setuid requested =>
    simp only [perform, plain, if_false, Option.ite_none_right_eq_some, Option.some.injEq] at performed
    obtain ⟨permitted, rfl⟩ := performed
    rw [mem_own] at member ⊢
    rcases permitted with rfl | rfl
    · tauto
    · tauto
  | seteuid requested =>
    simp only [perform, plain, false_or, Option.ite_none_right_eq_some, Option.some.injEq] at performed
    obtain ⟨permitted, rfl⟩ := performed
    rw [mem_own] at member permitted ⊢
    rcases member with rfl | rfl | rfl
    · exact Or.inl rfl
    · exact permitted
    · exact Or.inr (Or.inr rfl)
  | setresuid real effective saved =>
    simp only [perform, plain, false_or, Option.ite_none_right_eq_some, Option.some.injEq] at performed
    obtain ⟨permitted, rfl⟩ := performed
    have given : ∀ {field : Option Uid} {kept : Uid}, ids.permits field → kept ∈ ids.own → field.getD kept ∈ ids.own := by
      intro field kept permitted has
      cases field with
      | none => exact has
      | some uid => simpa [Ids.permits] using permitted
    rcases mem_own.mp member with rfl | rfl | rfl
    · exact given permitted.1 (mem_own.mpr (Or.inl rfl))
    · exact given permitted.2.1 (mem_own.mpr (Or.inr (Or.inl rfl)))
    · exact given permitted.2.2 (mem_own.mpr (Or.inr (Or.inr rfl)))

theorem own_of_apply (plain : ¬ ids.Privileged) (call : Call) : (apply ids call).own ⊆ ids.own := by
  unfold apply
  cases performed : perform ids call with
  | none => exact Finset.Subset.refl _
  | some after => exact own_of_perform plain performed

/-- A process that does not have the id of the superuser never gets another id. -/
theorem own_of_applyAll (calls : List Call) {ids : Ids} (rootless : root ∉ ids.own) :
    (applyAll ids calls).own ⊆ ids.own := by
  induction calls generalizing ids with
  | nil => exact Finset.Subset.refl _
  | cons call calls ih =>
    have plain : ¬ ids.Privileged := by
      intro privileged
      apply rootless
      rw [mem_own]
      exact Or.inr (Or.inl privileged.symm)
    have first := own_of_apply plain call
    exact (ih fun member => rootless (first member)).trans first

end Rules
end PosixC.Foundation.Credentials
