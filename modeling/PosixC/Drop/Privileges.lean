import PosixC.Foundation.Credentials

/-! The privilege drop of ex05/drop_priv, the right way and the wrong one. -/

set_option autoImplicit false

namespace PosixC.Drop

open Foundation Foundation.Credentials

inductive Entry where
  | oldEuid (uid : Uid)
  | call (result : Int)
  | warning
  | privileges (ids : Ids)
  deriving DecidableEq, Repr

structure State where
  ids : Ids
  entries : List Entry
  deriving DecidableEq, Repr

def State.log (state : State) (entries : List Entry) : State := { state with entries := state.entries ++ entries }

def printPrivileges (state : State) : State := state.log [.privileges state.ids]

/-- `if (LOGCALL(call) != 0) LOGWARN(errno, ...)`. -/
def tryCall (call : Call) (state : State) : State :=
  match perform state.ids call with
  | some ids => { state with ids := ids }.log [.call 0]
  | none => state.log [.call (-1), .warning]

/-- Up to the blank line before the last check. -/
def dropPermanently (correct : Bool) (oldEuid : Uid) (state : State) : State :=
  if correct then
    let state := printPrivileges (tryCall (.seteuid oldEuid) state)
    printPrivileges (tryCall (.setuid state.ids.real) state)
  else printPrivileges (tryCall (.setuid state.ids.real) state)

def dropTemporarily (state : State) : State :=
  let state := (printPrivileges state).log [.oldEuid state.ids.effective]
  printPrivileges (tryCall (.seteuid state.ids.real) state)

def dropped (correct : Bool) (ids : Ids) : State :=
  dropPermanently correct ids.effective (dropTemporarily ⟨ids, []⟩)

/-- Whether the drop is found correct; `LOGDIE` ends the program with a failure where it is not. -/
def dropPrivileges (correct : Bool) (ids : Ids) : Bool × State :=
  let state := dropped correct ids
  match perform state.ids (.setuid ids.effective) with
  | some after => (false, { state with ids := after }.log [.call 0])
  | none => (true, state.log [.call (-1)])

def isSetUid (ids : Ids) : Bool := ids.real ≠ ids.effective

inductive Flag where
  | help | correct | wrong | unknown
  deriving DecidableEq, Repr

/-- The end of the program: `none` where it exits in the loop over the options. -/
def parse : List Flag → Nat × Bool → Option (Nat × Bool)
  | [], parsed => some parsed
  | .help :: _, _ | .unknown :: _, _ => none
  | .correct :: flags, (commands, _) => parse flags (commands + 1, true)
  | .wrong :: flags, (commands, correct) => parse flags (commands + 1, correct)

/-- Whether the program says that the privileges were dropped correctly. `operands` is
what `getopt` has left over. -/
def dropMain (flags : List Flag) (operands : Nat) (ids : Ids) : Option (Bool × State) :=
  match parse flags (0, false) with
  | none => none
  | some (commands, correct) =>
      if commands ≠ 1 ∨ operands ≠ 0 then none
      else if isSetUid ids then some (dropPrivileges correct ids)
      else none

section Ways

variable {real owner : Uid}

theorem seteuid_real (effective saved : Uid) :
    perform ⟨real, effective, saved⟩ (.seteuid real) = some ⟨real, real, saved⟩ := by
  simp [perform, mem_own]

theorem seteuid_saved (effective saved : Uid) :
    perform ⟨real, effective, saved⟩ (.seteuid saved) = some ⟨real, saved, saved⟩ := by
  simp [perform, mem_own]

theorem setuid_real_plain {effective saved : Uid} (plain : effective ≠ root) :
    perform ⟨real, effective, saved⟩ (.setuid real) = some ⟨real, real, saved⟩ := by
  simp [perform, Ids.Privileged, plain]

theorem setuid_privileged (saved uid : Uid) : perform ⟨real, root, saved⟩ (.setuid uid) = some ⟨uid, uid, uid⟩ := by
  simp [perform, Ids.Privileged]

theorem setuid_saved {effective saved : Uid} :
    ∃ after, perform ⟨real, effective, saved⟩ (.setuid saved) = some after ∧ after.effective = saved := by
  by_cases privileged : effective = root
  · exact ⟨⟨saved, saved, saved⟩, by simp [perform, Ids.Privileged, privileged], rfl⟩
  · exact ⟨⟨real, saved, saved⟩, by simp [perform, Ids.Privileged, privileged], rfl⟩

theorem dropTemporarily_exec (real owner : Uid) : dropTemporarily ⟨Ids.exec real owner, []⟩ =
    ⟨⟨real, real, owner⟩, [.privileges (Ids.exec real owner), .oldEuid owner, .call 0, .privileges ⟨real, real, owner⟩]⟩ := by
  simp [dropTemporarily, printPrivileges, State.log, tryCall, Ids.exec, seteuid_real]

theorem dropped_wrong_plain (owner : Uid) (plain : real ≠ root) :
    (dropped false (Ids.exec real owner)).ids = ⟨real, real, owner⟩ := by
  rw [dropped, dropTemporarily_exec]
  simp [dropPermanently, printPrivileges, State.log, tryCall, setuid_real_plain plain]

theorem dropped_wrong_root (owner : Uid) : (dropped false (Ids.exec root owner)).ids = ⟨root, root, root⟩ := by
  rw [dropped, dropTemporarily_exec]
  simp [dropPermanently, printPrivileges, State.log, tryCall, setuid_privileged]

theorem dropped_right_root (real : Uid) : (dropped true (Ids.exec real root)).ids = ⟨real, real, real⟩ := by
  rw [dropped, dropTemporarily_exec]
  simp [dropPermanently, printPrivileges, State.log, tryCall, seteuid_saved,
    setuid_privileged]

theorem dropped_right_plain (real : Uid) (plain : owner ≠ root) :
    (dropped true (Ids.exec real owner)).ids = ⟨real, real, owner⟩ := by
  rw [dropped, dropTemporarily_exec]
  simp [dropPermanently, printPrivileges, State.log, tryCall, seteuid_saved,
    setuid_real_plain plain]

end Ways

/-- The right way, for a program of the superuser. -/
def Lasting (correct : Bool) (owner : Uid) : Prop := correct = true ∧ owner = root

/-- After any other drop one call of `setuid` brings the old id back. -/
theorem regained {correct : Bool} {real owner : Uid} (fleeting : ¬ Lasting correct owner) :
    ∃ after, perform (dropped correct (Ids.exec real owner)).ids (.setuid owner) = some after ∧
      after.effective = owner := by
  cases correct with
  | true =>
    rw [dropped_right_plain real fun rooted => fleeting ⟨rfl, rooted⟩]
    exact setuid_saved
  | false =>
    by_cases rooted : real = root
    · subst rooted
      rw [dropped_wrong_root, setuid_privileged]
      exact ⟨_, rfl, rfl⟩
    · rw [dropped_wrong_plain owner rooted]
      exact setuid_saved

/-- After a lasting drop no calls bring it back. -/
theorem kept_of_lasting {correct : Bool} {real owner : Uid} (different : real ≠ owner) (lasting : Lasting correct owner)
    (calls : List Call) : applyAll (dropped correct (Ids.exec real owner)).ids calls = ⟨real, real, real⟩ := by
  obtain ⟨rfl, rfl⟩ := lasting
  rw [dropped_right_root]
  have rootless : root ∉ (Ids.mk real real real).own := by simpa [mem_own] using different.symm
  have kept := own_of_applyAll calls rootless
  have only : ∀ uid ∈ (applyAll ⟨real, real, real⟩ calls).own, uid = real := by
    intro uid member
    simpa [mem_own] using kept member
  have first := only _ (mem_own.mpr (Or.inl rfl))
  have second := only _ (mem_own.mpr (Or.inr (Or.inl rfl)))
  have third := only _ (mem_own.mpr (Or.inr (Or.inr rfl)))
  rw [Ids.mk.injEq]
  exact ⟨first, second, third⟩

theorem perform_of_lasting {correct : Bool} {real owner : Uid} (different : real ≠ owner) (lasting : Lasting correct owner) :
    perform (dropped correct (Ids.exec real owner)).ids (.setuid owner) = none := by
  obtain ⟨rfl, rfl⟩ := lasting
  rw [dropped_right_root]
  simp [perform, Ids.Privileged, different, different.symm]

theorem dropPrivileges_lasting {correct : Bool} {real owner : Uid} (different : real ≠ owner) :
    (dropPrivileges correct (Ids.exec real owner)).1 = true ↔ Lasting correct owner := by
  by_cases lasting : Lasting correct owner
  · exact iff_of_true (by simp [dropPrivileges, perform_of_lasting different lasting]) lasting
  · obtain ⟨after, performed, _⟩ := @regained correct real owner lasting
    exact iff_of_false (by simp [dropPrivileges, performed]) lasting

/-- The program finds a drop correct exactly when it is one that no calls can undo, which is
the right way of a program that belongs to the superuser. -/
theorem drop_found_correct (correct : Bool) {real owner : Uid} (different : real ≠ owner) :
    ((dropPrivileges correct (Ids.exec real owner)).1 = true ↔
      ∀ calls, (applyAll (dropped correct (Ids.exec real owner)).ids calls).effective ≠ owner) ∧
    ((dropPrivileges correct (Ids.exec real owner)).1 = true ↔ Lasting correct owner) := by
  have found := @dropPrivileges_lasting correct real owner different
  refine ⟨found.trans ?_, found⟩
  by_cases lasting : Lasting correct owner
  · refine iff_of_true lasting fun calls => ?_
    rw [kept_of_lasting different lasting]
    exact different
  · obtain ⟨after, performed, back⟩ := @regained correct real owner lasting
    refine iff_of_false lasting fun never => never [.setuid owner] ?_
    simpa [applyAll, apply, performed] using back

theorem drop_found_correct_root :
    let user : Uid := ⟨1000, by decide⟩
    ((dropPrivileges true (Ids.exec user root)).1 = true ↔
      ∀ calls, (applyAll (dropped true (Ids.exec user root)).ids calls).effective ≠ root) ∧
    ((dropPrivileges true (Ids.exec user root)).1 = true ↔ Lasting true root) :=
  drop_found_correct true (by decide)

theorem no_warning (correct : Bool) (real owner : Uid) : .warning ∉ (dropped correct (Ids.exec real owner)).entries := by
  rw [dropped, dropTemporarily_exec]
  cases correct with
  | true =>
    by_cases rooted : owner = root
    · simp [dropPermanently, printPrivileges, State.log, tryCall, rooted, seteuid_saved, setuid_privileged]
    · simp [dropPermanently, printPrivileges, State.log, tryCall, seteuid_saved, setuid_real_plain rooted]
  | false =>
    by_cases rooted : real = root
    · simp [dropPermanently, printPrivileges, State.log, tryCall, rooted, setuid_privileged]
    · simp [dropPermanently, printPrivileges, State.log, tryCall, setuid_real_plain rooted]

theorem parse_commands {flags : List Flag} {parsed : Nat × Bool} {commands : Nat} {correct : Bool}
    (ends : parse flags parsed = some (commands, correct)) : commands = parsed.1 + flags.length := by
  induction flags generalizing parsed with
  | nil =>
    cases ends
    rfl
  | cons flag rest ih =>
    cases flag with
    | help | unknown => cases ends
    | correct | wrong =>
      have later := ih ends
      rw [List.length_cons]
      omega

theorem parse_single {flags : List Flag} {correct : Bool} :
    parse flags (0, false) = some (1, correct) ↔ flags = [if correct then .correct else .wrong] := by
  constructor
  · intro ends
    have single := parse_commands ends
    obtain ⟨flag, rfl⟩ := List.length_eq_one_iff.mp ((Nat.zero_add _).symm.trans single.symm)
    cases flag with
    | help | unknown => cases ends
    | correct | wrong =>
      cases ends
      rfl
  · rintro rfl
    cases correct <;> rfl

/-- The whole program: a set-uid program of the superuser, called with `-c` alone. -/
theorem dropMain_iff (flags : List Flag) (operands : Nat) (real owner : Uid) :
    (∃ state, dropMain flags operands (Ids.exec real owner) = some (true, state)) ↔
      flags = [.correct] ∧ operands = 0 ∧ real ≠ owner ∧ owner = root := by
  have setUid : isSetUid (Ids.exec real owner) = true ↔ real ≠ owner := decide_eq_true_iff
  unfold dropMain
  cases ends : parse flags (0, false) with
  | none =>
    refine iff_of_false (by simp) ?_
    rintro ⟨rfl, -⟩
    cases ends
  | some parsed =>
    obtain ⟨commands, correct⟩ := parsed
    by_cases single : commands = 1
    · subst single
      -- One option alone decides which way is taken.
      have only := parse_single.mp ends
      by_cases operand : operands = 0
      · by_cases different : real ≠ owner
        · have found := @dropPrivileges_lasting correct real owner different
          cases correct with
          | true => simp [operand, setUid.mpr different, different, only, Prod.ext_iff, found, Lasting]
          | false => simp [operand, setUid.mpr different, only, Prod.ext_iff, found, Lasting]
        · simp [operand, setUid, different]
      · simp [operand]
    · refine iff_of_false (by simp [single]) ?_
      rintro ⟨rfl, -⟩
      cases ends
      exact single rfl

end PosixC.Drop
