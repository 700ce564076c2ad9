import Mathlib.Data.Finset.Basic
import Mathlib.Data.List.Perm.Basic

/-! The signals of one process.

A standard signal that is pending is not queued a second time; a real-time signal
is queued as often as it is sent. A handler runs with its own signal and its
`sa_mask` blocked, and `sigsuspend` exchanges the mask until a handler has run.
-/

set_option autoImplicit false

namespace PosixC.Foundation.Signals

variable {Sig Value Routine Point : Type} [DecidableEq Sig]

def post (realTime : Sig → Bool) (pending : List (Sig × Value)) (sig : Sig) (value : Value) : List (Sig × Value) :=
  if realTime sig = false ∧ sig ∈ pending.map Prod.fst then pending else pending ++ [(sig, value)]

def take (sig : Sig) : List (Sig × Value) → Option (Value × List (Sig × Value))
  | [] => none
  | (other, value) :: rest =>
      if other = sig then some (value, rest)
      else (take sig rest).map fun taken => (taken.1, (other, value) :: taken.2)

/-- `suspended` holds the mask to which `sigsuspend` returns, and each frame the
point and the mask to which a handler returns. -/
structure Process (Sig Value Routine Point : Type) where
  point : Point
  mask : Finset Sig
  suspended : Option (Finset Sig)
  frames : List (Point × Finset Sig)
  disposition : Sig → Option (Routine × Finset Sig)
  pending : List (Sig × Value)

namespace Process

def sigsuspend (process : Process Sig Value Routine Point) (mask : Finset Sig) : Process Sig Value Routine Point :=
  { process with mask := mask, suspended := some process.mask }

def sigaction (process : Process Sig Value Routine Point) (sig : Sig) (routine : Routine) (mask : Finset Sig) :
    Process Sig Value Routine Point :=
  { process with disposition := Function.update process.disposition sig (some (routine, mask)) }

@[simp] theorem sigaction_self (process : Process Sig Value Routine Point) (sig : Sig) (routine : Routine)
    (mask : Finset Sig) : (process.sigaction sig routine mask).disposition sig = some (routine, mask) :=
  Function.update_self ..

@[simp] theorem sigaction_of_ne (process : Process Sig Value Routine Point) {sig other : Sig} (routine : Routine)
    (mask : Finset Sig) (different : other ≠ sig) :
    (process.sigaction sig routine mask).disposition other = process.disposition other :=
  Function.update_of_ne different ..

/-- The handler of `sig` interrupts the process; without a handler the process
is terminated. -/
def deliver (entry : Routine → Value → Point) (killed : Point) (sig : Sig) (process : Process Sig Value Routine Point) :
    Option (Process Sig Value Routine Point) :=
  if sig ∈ process.mask then none
  else
    match take sig process.pending with
    | none => none
    | some (value, rest) =>
        match process.disposition sig with
        | none => some { process with point := killed, suspended := none, pending := rest }
        | some (routine, mask) =>
            some { process with
              point := entry routine value
              mask := process.mask ∪ mask ∪ {sig}
              suspended := none
              frames := (process.point, process.suspended.getD process.mask) :: process.frames
              pending := rest }

/-- A signal that has no effect is discarded; while it is blocked it stays pending. -/
def discard (sig : Sig) (process : Process Sig Value Routine Point) : Option (Process Sig Value Routine Point) :=
  if sig ∈ process.mask then none
  else (take sig process.pending).map fun taken => { process with pending := taken.2 }

def sigreturn (process : Process Sig Value Routine Point) : Option (Process Sig Value Routine Point) :=
  match process.frames with
  | [] => none
  | (point, mask) :: frames => some { process with point := point, mask := mask, frames := frames }

end Process

section Pending

theorem mem_of_post {realTime : Sig → Bool} {pending : List (Sig × Value)} {sig : Sig} {value : Value}
    {entry : Sig × Value} (member : entry ∈ post realTime pending sig value) :
    entry ∈ pending ∨ entry = (sig, value) := by
  unfold post at member
  split at member
  · exact Or.inl member
  · simpa using member

theorem post_standard {realTime : Sig → Bool} {pending : List (Sig × Value)} {sig : Sig} {value : Value}
    (standard : realTime sig = false) :
    post realTime pending sig value = if sig ∈ pending.map Prod.fst then pending else pending ++ [(sig, value)] := by
  simp only [post, standard, true_and]

theorem perm_of_take {sig : Sig} {pending rest : List (Sig × Value)} {value : Value}
    (taken : take sig pending = some (value, rest)) : pending.Perm ((sig, value) :: rest) := by
  induction pending generalizing rest with
  | nil => cases taken
  | cons head tail ih =>
    obtain ⟨other, first⟩ := head
    simp only [take] at taken
    split at taken
    · next same =>
      cases taken
      rw [same]
    · cases below : take sig tail with
      | none =>
        rw [below] at taken
        cases taken
      | some result =>
        obtain ⟨found, left⟩ := result
        rw [below] at taken
        cases taken
        exact ((ih below).cons _).trans (List.Perm.swap ..)

end Pending

section Delivery

variable {entry : Routine → Value → Point} {killed : Point} {sig : Sig}
  {process after : Process Sig Value Routine Point}

theorem unblocked_of_deliver (delivered : process.deliver entry killed sig = some after) :
    sig ∉ process.mask ∧ ∃ value, (sig, value) ∈ process.pending := by
  unfold Process.deliver at delivered
  split at delivered
  · cases delivered
  · next unblocked =>
    refine ⟨unblocked, ?_⟩
    split at delivered
    · cases delivered
    · next value rest taken => exact ⟨value, (perm_of_take taken).mem_iff.mpr List.mem_cons_self⟩

theorem taken_of_deliver {routine : Routine} {mask : Finset Sig}
    (handler : process.disposition sig = some (routine, mask))
    (delivered : process.deliver entry killed sig = some after) :
    ∃ value rest, take sig process.pending = some (value, rest) ∧
      after = { process with
        point := entry routine value
        mask := process.mask ∪ mask ∪ {sig}
        suspended := none
        frames := (process.point, process.suspended.getD process.mask) :: process.frames
        pending := rest } := by
  unfold Process.deliver at delivered
  split at delivered
  · cases delivered
  · split at delivered
    · cases delivered
    · next value rest taken =>
      simp only [handler, Option.some.injEq] at delivered
      exact ⟨value, rest, taken, delivered.symm⟩

theorem handled_of_deliver {routine : Routine} {mask : Finset Sig}
    (handler : process.disposition sig = some (routine, mask))
    (delivered : process.deliver entry killed sig = some after) :
    ∃ value rest, process.pending.Perm ((sig, value) :: rest) ∧
      after = { process with
        point := entry routine value
        mask := process.mask ∪ mask ∪ {sig}
        suspended := none
        frames := (process.point, process.suspended.getD process.mask) :: process.frames
        pending := rest } := by
  obtain ⟨value, rest, taken, same⟩ := taken_of_deliver handler delivered
  exact ⟨value, rest, perm_of_take taken, same⟩

theorem perm_of_discard (discarded : process.discard sig = some after) :
    sig ∉ process.mask ∧ ∃ value rest, process.pending.Perm ((sig, value) :: rest) ∧
      after = { process with pending := rest } := by
  obtain ⟨unblocked, discarded⟩ := Option.ite_none_left_eq_some.mp discarded
  obtain ⟨⟨value, rest⟩, taken, same⟩ := Option.map_eq_some_iff.mp discarded
  exact ⟨unblocked, value, rest, perm_of_take taken, same.symm⟩

end Delivery
end PosixC.Foundation.Signals
