import Mathlib.Data.List.TakeWhile
import Mathlib.Data.Nat.ModEq

/-! syscount of ex06: the two ways to count the system calls of a traced child.

One asks the kernel for the kind of a stop, but leaves no room for the answer, so it
counts nothing. The other takes every second SIGTRAP stop for the entry of a system
call. A SIGTRAP stop that belongs to no system call puts it out of step.
-/

set_option autoImplicit false

namespace PosixC.Syscount

section Model

inductive Kind where
  | entry | exit | other
  deriving DecidableEq, Repr

/-- A stop of the child with the registers the tracer can read. `orig_rax` is the
number of a system call that is entered, `rax` the result of one that is left. -/
structure Stop where
  kind : Kind
  origRax : UInt64
  rax : UInt64
  deriving DecidableEq, Repr

inductive Status where
  | exited (status : Nat)
  | signaled (signal : Nat)
  | stopped (signal : Nat) (stop : Stop)
  deriving DecidableEq, Repr

/-- A result of `waitpid`, and which of the calls of `ptrace` succeed before the next one:
`PTRACE_GET_SYSCALL_INFO`, `PTRACE_GETREGS` and `PTRACE_SYSCALL`. -/
structure Turn where
  status : Status
  info : Bool
  registers : Bool
  resume : Bool
  deriving DecidableEq, Repr

def Turn.succeeds (turn : Turn) : Bool := turn.info && turn.registers && turn.resume

inductive Ending where
  | waitpidFailed
  | exited (status : Nat)
  | noSyscallInfo
  | invalidSyscall
  | notResumed
  deriving DecidableEq, Repr

def sigtrap : Nat := 5

/-- `SYS_clone`, `SYS_fork` and `SYS_vfork` on x86-64. -/
def invalid (nr : UInt64) : Bool := nr = 56 ∨ nr = 57 ∨ nr = 58

variable {σ : Type}

def handle (trap : σ → Turn → Stop → Except Ending σ) (state : σ) (turn : Turn) : Except Ending σ :=
  match turn.status with
  | .exited status => .error (.exited status)
  | .signaled _ => .ok state
  | .stopped signal stop => if signal = sigtrap then trap state turn stop else .ok state

/-- `count_syscalls` for either treatment of a SIGTRAP stop. After the given results
`waitpid` fails. -/
def countSyscalls (trap : σ → Turn → Stop → Except Ending σ) (counter : σ → UInt64) : σ → List Turn → UInt64 × Ending
  | state, [] => (counter state, .waitpidFailed)
  | state, turn :: later =>
      match handle trap state turn with
      | .error ending => (counter state, ending)
      | .ok after =>
          if turn.resume then countSyscalls trap counter after later else (counter after, .notResumed)

structure SyscallInfo where
  op : UInt8
  word : UInt64
  deriving DecidableEq, Repr

def syscallInfoNone : UInt8 := 0

def syscallInfoEntry : UInt8 := 1

def syscallInfoExit : UInt8 := 2

structure Options where
  exitKill : Bool
  traceSysGood : Bool

/-- `PTRACE_O_EXITKILL` is all that `run_tracer` sets. -/
def tracerOptions : Options := ⟨true, false⟩

/-- What the kernel tells about a stop. It knows the stops of system calls by the mark that
`PTRACE_O_TRACESYSGOOD` asks for. -/
def kernelInfo (options : Options) (stop : Stop) : SyscallInfo :=
  if options.traceSysGood then
    match stop.kind with
    | .entry => ⟨syscallInfoEntry, stop.origRax⟩
    | .exit => ⟨syscallInfoExit, stop.rax⟩
    | .other => ⟨syscallInfoNone, 0⟩
  else ⟨syscallInfoNone, 0⟩

/-- `ptrace(PTRACE_GET_SYSCALL_INFO, child, size, &buffer)`: the first `size` bytes are
written, of which `op` is the first and `word` ends with the 32nd. -/
def getSyscallInfo (options : Options) (size : Nat) (stop : Stop) (buffer : SyscallInfo) : SyscallInfo :=
  let info := kernelInfo options stop
  ⟨if 1 ≤ size then info.op else buffer.op, if info.op ≠ syscallInfoNone ∧ 32 ≤ size then info.word else buffer.word⟩

structure Info where
  counter : UInt64
  syscallInfo : SyscallInfo

/-- The size that is passed is 0. -/
def infoTrap (state : Info) (turn : Turn) (stop : Stop) : Except Ending Info :=
  if turn.info then
    let syscallInfo := getSyscallInfo tracerOptions 0 stop state.syscallInfo
    if syscallInfo.op = syscallInfoEntry then
      if invalid syscallInfo.word then .error .invalidSyscall else .ok ⟨state.counter + 1, syscallInfo⟩
    else .ok ⟨state.counter, syscallInfo⟩
  else .error .noSyscallInfo

structure Toggle where
  counter : UInt64
  syscallEnter : Bool
  origRax : UInt64

/-- With `PTRACE_GETREGS`; after a failure the registers are those of an earlier stop. -/
def toggleTrap (state : Toggle) (turn : Turn) (stop : Stop) : Except Ending Toggle :=
  let origRax := if turn.registers then stop.origRax else state.origRax
  if state.syscallEnter then
    if invalid origRax then .error .invalidSyscall else .ok ⟨state.counter + 1, false, origRax⟩
  else .ok ⟨state.counter, true, origRax⟩

def countInfo (turns : List Turn) : UInt64 × Ending := countSyscalls infoTrap Info.counter ⟨0, ⟨0, 0⟩⟩ turns

def countToggle (turns : List Turn) : UInt64 × Ending := countSyscalls toggleTrap Toggle.counter ⟨0, true, 0⟩ turns

end Model

section Stops

def traps : List Turn → List Stop
  | [] => []
  | turn :: later =>
      match turn.status with
      | .exited _ => []
      | .signaled _ => traps later
      | .stopped signal stop => if signal = sigtrap then stop :: traps later else traps later

def entries (stops : List Stop) : Nat := stops.countP fun stop => stop.kind = .entry

def others (stops : List Stop) : Nat := stops.countP fun stop => stop.kind = .other

def insideAfter : Bool → List Stop → Bool
  | inside, [] => inside
  | inside, stop :: later =>
      insideAfter (match stop.kind with | .entry => true | .exit => false | .other => inside) later

def Alternates : Bool → List Stop → Prop
  | _, [] => True
  | inside, stop :: later =>
      match stop.kind with
      | .entry => inside = false ∧ Alternates true later
      | .exit => inside = true ∧ Alternates false later
      | .other => Alternates inside later

def Stop.forks (stop : Stop) : Bool := stop.kind = .entry && invalid stop.origRax

def beforeFork (stops : List Stop) : List Stop := stops.takeWhile fun stop => !stop.forks

/-- The first stop that is taken for an entry, is none, and shows one of the numbers
that end the count. -/
def decoyAt : Bool → List Stop → Option Nat
  | _, [] => none
  | enter, stop :: later =>
      if enter = true ∧ stop.kind ≠ .entry ∧ invalid stop.origRax = true then some 0
      else (decoyAt (!enter) later).map (· + 1)

def toggled : Bool → List Stop → Nat
  | _, [] => 0
  | true, stop :: later => if invalid stop.origRax then 0 else toggled false later + 1
  | false, _ :: later => toggled true later

def evens : List Stop → List Stop
  | [] => []
  | [stop] => [stop]
  | stop :: _ :: later => stop :: evens later

/-- Those before the first one that shows a number that ends the count. -/
def takenForEntries (stops : List Stop) : List Stop := (evens stops).takeWhile fun stop => !invalid stop.origRax

variable {stops later : List Stop} {turns : List Turn} {inside enter : Bool} {σ : Type}
  {trap : σ → Turn → Stop → Except Ending σ} {counter : σ → UInt64} {count : σ → List Stop → UInt64}

structure Counts (trap : σ → Turn → Stop → Except Ending σ) (counter : σ → UInt64)
    (count : σ → List Stop → UInt64) : Prop where
  none : ∀ state, count state [] = counter state
  ends : ∀ state turn stop later ending, turn.succeeds = true → trap state turn stop = .error ending →
    count state (stop :: later) = counter state
  next : ∀ state turn stop later after, turn.succeeds = true → trap state turn stop = .ok after →
    count state (stop :: later) = count after later

theorem countSyscalls_eq (counts : Counts trap counter count) (succeed : ∀ turn ∈ turns, turn.succeeds = true)
    (state : σ) : (countSyscalls trap counter state turns).1 = count state (traps turns) := by
  induction turns generalizing state with
  | nil => exact (counts.none state).symm
  | cons turn later ih =>
    have first := succeed turn List.mem_cons_self
    have resumes : turn.resume = true := (Bool.and_eq_true_iff.mp first).2
    have rest := ih fun turn member => succeed turn (List.mem_cons_of_mem _ member)
    simp only [countSyscalls, handle, traps]
    cases turn.status with
    | exited status => exact (counts.none state).symm
    | signaled signal => simp only [resumes, if_true, rest]
    | stopped signal stop =>
      by_cases trapped : signal = sigtrap
      · simp only [if_pos trapped]
        cases step : trap state turn stop with
        | error ending => exact (counts.ends _ _ _ _ _ first step).symm
        | ok after => simp only [resumes, if_true, rest, counts.next _ _ _ _ _ first step]
      · simp only [if_neg trapped, resumes, if_true, rest]

theorem entries_entry {stop : Stop} (entry : stop.kind = .entry) : entries (stop :: later) = entries later + 1 := by
  simp [entries, entry]

theorem entries_cons {stop : Stop} (no_entry : stop.kind ≠ .entry) : entries (stop :: later) = entries later := by
  simp [entries, no_entry]

theorem others_other {stop : Stop} (other : stop.kind = .other) : others (stop :: later) = others later + 1 := by
  simp [others, other]

theorem others_cons {stop : Stop} (syscall : stop.kind ≠ .other) : others (stop :: later) = others later := by
  simp [others, syscall]

theorem ofNat_succ (n : Nat) : UInt64.ofNat (n + 1) = UInt64.ofNat n + 1 := UInt64.ofNat_add n 1

theorem add_one_add (counter more : UInt64) : counter + 1 + more = counter + (more + 1) := by
  rw [UInt64.add_assoc, UInt64.add_comm 1]

theorem getSyscallInfo_zero (options : Options) (stop : Stop) (buffer : SyscallInfo) :
    getSyscallInfo options 0 stop buffer = buffer := by
  simp [getSyscallInfo]

/-- Every stop is taken for what the static variable says from the start. -/
theorem infoTrap_counts : Counts infoTrap Info.counter fun state stops =>
    state.counter + if state.syscallInfo.op = syscallInfoEntry ∧ invalid state.syscallInfo.word = false
      then UInt64.ofNat stops.length else 0 := by
  refine ⟨fun _ => by simp, ?_, ?_⟩
  · intro state turn stop later ending succeeds failed
    have info : turn.info = true := (Bool.and_eq_true_iff.mp (Bool.and_eq_true_iff.mp succeeds).1).1
    simp only [infoTrap, info, if_true, getSyscallInfo_zero] at failed
    split at failed
    · split at failed
      · next bad => simp [bad]
      · cases failed
    · cases failed
  · intro state turn stop later after succeeds handled
    have info : turn.info = true := (Bool.and_eq_true_iff.mp (Bool.and_eq_true_iff.mp succeeds).1).1
    simp only [infoTrap, info, if_true, getSyscallInfo_zero] at handled
    split at handled
    · next entry =>
      split at handled
      · cases handled
      · next good =>
        cases handled
        simp only [entry, good, and_self, if_true, List.length_cons, ofNat_succ, ← add_one_add]
    · next other =>
      cases handled
      simp [other]

theorem toggleTrap_counts : Counts toggleTrap Toggle.counter fun state stops =>
    state.counter + UInt64.ofNat (toggled state.syscallEnter stops) := by
  refine ⟨fun state => by cases state.syscallEnter <;> simp [toggled], ?_, ?_⟩
  · rintro ⟨counter, enter, stale⟩ turn stop later ending succeeds failed
    have registers : turn.registers = true := (Bool.and_eq_true_iff.mp (Bool.and_eq_true_iff.mp succeeds).1).2
    simp only [toggleTrap, registers, if_true] at failed
    cases enter with
    | false => cases failed
    | true =>
      simp only [if_true] at failed
      split at failed
      · next bad => simp [toggled, bad]
      · cases failed
  · rintro ⟨counter, enter, stale⟩ turn stop later after succeeds handled
    have registers : turn.registers = true := (Bool.and_eq_true_iff.mp (Bool.and_eq_true_iff.mp succeeds).1).2
    simp only [toggleTrap, registers, if_true] at handled
    cases enter with
    | false =>
      cases handled
      rfl
    | true =>
      simp only [if_true] at handled
      split at handled
      · cases handled
      · next good =>
        cases handled
        simp only [toggled, if_neg good, ofNat_succ, ← add_one_add]

theorem countInfo_eq (succeed : ∀ turn ∈ turns, turn.succeeds = true) : (countInfo turns).1 = 0 := by
  rw [countInfo, countSyscalls_eq infoTrap_counts succeed]
  rfl

theorem countToggle_eq (succeed : ∀ turn ∈ turns, turn.succeeds = true) :
    (countToggle turns).1 = UInt64.ofNat (toggled true (traps turns)) := by
  rw [countToggle, countSyscalls_eq toggleTrap_counts succeed, UInt64.zero_add]

theorem toggled_le (enter : Bool) (stops : List Stop) : toggled enter stops ≤ stops.length := by
  induction stops generalizing enter with
  | nil => simp [toggled]
  | cons stop later ih =>
    cases enter with
    | false => exact (ih true).trans (Nat.le_succ _)
    | true =>
      rw [toggled]
      split
      · exact Nat.zero_le _
      · exact Nat.succ_le_succ (ih false)

theorem length_traps_le (turns : List Turn) : (traps turns).length ≤ turns.length := by
  induction turns with
  | nil => exact Nat.le_refl 0
  | cons turn later ih =>
    rw [traps]
    split
    · exact Nat.zero_le _
    · exact ih.trans (Nat.le_succ _)
    · split
      · exact Nat.succ_le_succ ih
      · exact ih.trans (Nat.le_succ _)

theorem length_takenForEntries (stops : List Stop) : (takenForEntries stops).length = toggled true stops := by
  induction stops using evens.induct with
  | case1 => rfl
  | case2 stop =>
    by_cases bad : invalid stop.origRax = true
    · simp [takenForEntries, evens, toggled, bad]
    · simp [takenForEntries, evens, toggled, bad]
  | case3 stop second later ih =>
    by_cases bad : invalid stop.origRax = true
    · simp [takenForEntries, evens, toggled, bad]
    · simp only [takenForEntries] at ih
      simp [takenForEntries, evens, toggled, bad, ih]

/-- Unless there are very many stops, only the first one matters. -/
theorem dvd_takenForEntries (few : stops.length < 2 ^ 64) :
    2 ^ 64 ∣ (takenForEntries stops).length ↔ ∀ stop ∈ stops.head?, invalid stop.origRax = true := by
  have small := Nat.lt_of_le_of_lt (toggled_le true stops) few
  rw [length_takenForEntries, Nat.dvd_iff_mod_eq_zero, Nat.mod_eq_of_lt small]
  cases stops with
  | nil => simp [toggled]
  | cons stop later =>
    by_cases bad : invalid stop.origRax = true
    · simp [toggled, bad]
    · simp [toggled, bad]

end Stops

section Phases

variable {stops later : List Stop} {inside enter : Bool}

def Plain (stops : List Stop) : Prop := ∀ stop ∈ stops, stop.forks = false

theorem plain_beforeFork (stops : List Stop) : Plain (beforeFork stops) := by
  intro stop member
  simpa using List.mem_takeWhile_imp member

theorem length_alternates (alternates : Alternates inside stops) :
    2 * entries stops + inside.toNat + others stops = stops.length + (insideAfter inside stops).toNat := by
  induction stops generalizing inside with
  | nil => exact (Nat.zero_add _).trans (Nat.zero_add _).symm
  | cons stop later ih =>
    cases kind : stop.kind with
    | entry =>
      simp only [Alternates, kind] at alternates
      obtain ⟨rfl, rest⟩ := alternates
      have next := ih rest
      rw [entries_entry kind, others_cons (by simp [kind]), List.length_cons, insideAfter, kind]
      simp only [Bool.toNat_true, Bool.toNat_false] at next ⊢
      omega
    | exit =>
      simp only [Alternates, kind] at alternates
      obtain ⟨rfl, rest⟩ := alternates
      have next := ih rest
      rw [entries_cons (by simp [kind]), others_cons (by simp [kind]), List.length_cons, insideAfter, kind]
      simp only [Bool.toNat_true, Bool.toNat_false] at next ⊢
      omega
    | other =>
      simp only [Alternates, kind] at alternates
      have next := ih alternates
      rw [entries_cons (by simp [kind]), others_other kind, List.length_cons, insideAfter, kind]
      simp only at next ⊢
      omega

theorem alternates_append {first : List Stop} (alternates : Alternates inside (first ++ later)) :
    Alternates inside first ∧ Alternates (insideAfter inside first) later := by
  induction first generalizing inside with
  | nil => exact ⟨trivial, alternates⟩
  | cons stop rest ih =>
    cases kind : stop.kind with
    | entry =>
      simp only [List.cons_append, Alternates, kind, insideAfter] at alternates ⊢
      exact ⟨⟨alternates.1, (ih alternates.2).1⟩, (ih alternates.2).2⟩
    | exit =>
      simp only [List.cons_append, Alternates, kind, insideAfter] at alternates ⊢
      exact ⟨⟨alternates.1, (ih alternates.2).1⟩, (ih alternates.2).2⟩
    | other =>
      simp only [List.cons_append, Alternates, kind, insideAfter] at alternates ⊢
      exact ih alternates

theorem invalid_of_quiet {stop : Stop} (plain : stop.forks = false)
    (quiet : ¬ (stop.kind ≠ .entry ∧ invalid stop.origRax = true)) : invalid stop.origRax = false := by
  by_cases entry : stop.kind = .entry
  · simpa [Stop.forks, entry] using plain
  · simpa [entry] using quiet

/-- Without a decoy every second stop is counted. -/
theorem toggled_append (plain : Plain stops) (quiet : decoyAt enter stops = none) :
    toggled enter (stops ++ later) = (stops.length + enter.toNat) / 2 +
      toggled (decide ((stops.length + enter.toNat) % 2 = 1)) later := by
  -- The phase after the stops is the parity of their number.
  induction stops generalizing enter with
  | nil => cases enter <;> simp
  | cons stop rest ih =>
    have later_plain : Plain rest := fun other member => plain other (List.mem_cons_of_mem _ member)
    rw [decoyAt] at quiet
    split at quiet
    · cases quiet
    · next other =>
      have counted := ih later_plain (Option.map_eq_none_iff.mp quiet)
      cases enter with
      | false =>
        simp only [List.cons_append, toggled, List.length_cons, Bool.not_false, Bool.toNat_true, Bool.toNat_false,
          Nat.add_zero] at counted ⊢
        exact counted
      | true =>
        have good := invalid_of_quiet (plain stop List.mem_cons_self) fun both => other ⟨rfl, both⟩
        have parity : (rest.length + 1 + 1) % 2 = rest.length % 2 := Nat.add_mod_right _ 2
        simp only [List.cons_append, toggled, good, List.length_cons, Bool.not_true, Bool.toNat_true, Bool.toNat_false,
          Bool.false_eq_true, if_false, Nat.add_zero, parity] at counted ⊢
        rw [counted]
        omega

/-- The toggle stops at a decoy. -/
theorem toggled_decoy {place : Nat} (plain : Plain stops) (decoy : decoyAt enter stops = some place) :
    toggled enter (stops ++ later) = (place + enter.toNat) / 2 ∧ (place + enter.toNat) % 2 = 1 ∧
      ∃ stop, stops[place]? = some stop ∧ stop.kind ≠ .entry := by
  induction stops generalizing enter place with
  | nil => cases decoy
  | cons stop rest ih =>
    have later_plain : Plain rest := fun other member => plain other (List.mem_cons_of_mem _ member)
    rw [decoyAt] at decoy
    split at decoy
    · next found =>
      obtain ⟨rfl, no_entry, bad⟩ := found
      cases decoy
      exact ⟨by simp [toggled, bad], rfl, stop, rfl, no_entry⟩
    · next other =>
      obtain ⟨before, found, rfl⟩ := Option.map_eq_some_iff.mp decoy
      obtain ⟨counted, parity, member⟩ := ih later_plain found
      cases enter with
      | false =>
        simp only [List.cons_append, toggled, Bool.not_false, Bool.toNat_true, Bool.toNat_false] at counted parity ⊢
        exact ⟨by omega, by omega, member⟩
      | true =>
        have good := invalid_of_quiet (plain stop List.mem_cons_self) fun both => other ⟨rfl, both⟩
        simp only [List.cons_append, toggled, good, Bool.not_true, Bool.toNat_true, Bool.toNat_false, Bool.false_eq_true,
          if_false] at counted parity ⊢
        exact ⟨by omega, by omega, member⟩

end Phases

section Agreement

variable {stops before rest : List Stop} {turns : List Turn}

/-- When the toggle counts the system calls that the child enters. Without a decoy no stop
may be outside the system calls, or a single one if the child does not fork and ends
inside a system call. A decoy ends the toggle's count: then as many entries have to
follow it as it was ahead by. -/
def InStep (stops : List Stop) : Prop :=
  match decoyAt true (beforeFork stops) with
  | none => others (beforeFork stops) = 0 ∨
      (others stops = 1 ∧ (∀ stop ∈ stops, stop.forks = false) ∧ insideAfter false stops = true)
  | some place =>
      entries ((beforeFork stops).drop (place + 1)) = others ((beforeFork stops).take place) / 2

theorem entries_append (first second : List Stop) : entries (first ++ second) = entries first + entries second :=
  List.countP_append

theorem agree_plain (alternates : Alternates false stops) (plain : Plain stops) (quiet : decoyAt true stops = none) :
    entries stops = toggled true stops ↔ others stops = 0 ∨ (others stops = 1 ∧ insideAfter false stops = true) := by
  have counted := @toggled_append stops [] true plain quiet
  have length := length_alternates alternates
  rw [List.append_nil] at counted
  simp only [toggled, Bool.toNat_true, Bool.toNat_false, Nat.add_zero] at counted length
  rw [counted]
  cases inside : insideAfter false stops with
  | false =>
    rw [inside, Bool.toNat_false] at length
    simp only [Bool.false_eq_true, and_false, or_false]
    omega
  | true =>
    rw [inside, Bool.toNat_true] at length
    simp only [and_true]
    omega

/-- The child forks outside all system calls; the toggle sees that only in step. -/
theorem agree_fork {fork : Stop} (alternates : Alternates false (before ++ fork :: rest)) (plain : Plain before)
    (forks : fork.forks = true) (quiet : decoyAt true before = none) :
    entries before = toggled true (before ++ fork :: rest) ↔ others before = 0 := by
  obtain ⟨entry, bad⟩ := Bool.and_eq_true_iff.mp forks
  have outside : insideAfter false before = false := by
    have next := (alternates_append alternates).2
    simp only [Alternates, of_decide_eq_true entry] at next
    exact next.1
  have length := length_alternates (alternates_append alternates).1
  have counted := @toggled_append before (fork :: rest) true plain quiet
  rw [outside] at length
  simp only [Bool.toNat_true, Bool.toNat_false, Nat.add_zero] at counted length
  rw [counted]
  by_cases even : (before.length + 1) % 2 = 1
  · simp only [even, decide_true, toggled, bad, if_true, Nat.add_zero]
    omega
  · omega

theorem agree_decoy {place : Nat} {later : List Stop} (alternates : Alternates false before) (plain : Plain before)
    (decoy : decoyAt true before = some place) :
    entries before = toggled true (before ++ later) ↔
      entries (before.drop (place + 1)) = others (before.take place) / 2 := by
  obtain ⟨counted, parity, stop, found, no_entry⟩ := @toggled_decoy before later true place plain decoy
  obtain ⟨below, rfl⟩ := List.getElem?_eq_some_iff.mp found
  have split : before = before.take place ++ before[place] :: before.drop (place + 1) := by
    rw [← List.drop_eq_getElem_cons below, List.take_append_drop]
  have length := length_alternates (alternates_append (split ▸ alternates)).1
  have total := congrArg entries split
  rw [entries_append, entries_cons no_entry] at total
  rw [List.length_take_of_le below.le] at length
  have single := Bool.toNat_le (insideAfter false (before.take place))
  rw [counted, total]
  simp only [Bool.toNat_true, Bool.toNat_false, Nat.add_zero] at parity length ⊢
  omega

theorem agree_iff (alternates : Alternates false stops) :
    entries (beforeFork stops) = toggled true stops ↔ InStep stops := by
  have plain := plain_beforeFork stops
  have parts : beforeFork stops ++ stops.dropWhile (fun stop => !stop.forks) = stops := List.takeWhile_append_dropWhile
  have prior : Alternates false (beforeFork stops) := (alternates_append (parts.symm ▸ alternates)).1
  unfold InStep
  cases decoy : decoyAt true (beforeFork stops) with
  | some place =>
    have agrees := @agree_decoy (beforeFork stops) place (stops.dropWhile fun stop => !stop.forks) prior plain decoy
    rwa [parts] at agrees
  | none =>
    cases after : stops.dropWhile (fun stop => !stop.forks) with
    | nil =>
      rw [after, List.append_nil] at parts
      rw [parts] at plain prior decoy ⊢
      rw [agree_plain prior plain decoy]
      exact or_congr_right (and_congr_right fun _ => (and_iff_right plain).symm)
    | cons fork rest =>
      have forks : fork.forks = true := by
        have head := List.head?_dropWhile_not (fun stop : Stop => !stop.forks) stops
        rw [after] at head
        simpa using head
      rw [after] at parts
      have agrees := agree_fork (parts.symm ▸ alternates) plain forks decoy
      rw [parts] at agrees
      rw [agrees]
      refine (or_iff_left fun alone => ?_).symm
      have member : fork ∈ stops := parts ▸ List.mem_append_right _ List.mem_cons_self
      cases forks.symm.trans (alone.2.1 fork member)

def trapTurn (kind : Kind) (nr : UInt64) : Turn := ⟨.stopped sigtrap ⟨kind, nr, 0⟩, true, true, true⟩

def exitTurn : Turn := ⟨.exited 0, true, true, true⟩

def execTurns : List Turn := [trapTurn .entry 59, trapTurn .exit 59, trapTurn .other 59]

/-- The variant that is compiled counts the system calls exactly if the child stays in step
with the toggle. -/
theorem counts_calls_iff (succeed : ∀ turn ∈ turns, turn.succeeds = true) (alternates : Alternates false (traps turns))
    (few : turns.length < 2 ^ 64) :
    (countToggle turns).1.toNat = entries (beforeFork (traps turns)) ↔ InStep (traps turns) := by
  have small := (toggled_le true (traps turns)).trans (length_traps_le turns)
  rw [countToggle_eq succeed, UInt64.toNat_ofNat_of_lt' (Nat.lt_of_le_of_lt small few), eq_comm, agree_iff alternates]

theorem counts_calls_exec :
    (countToggle (execTurns ++ [trapTurn .entry 231, exitTurn])).1.toNat =
      entries (beforeFork (traps (execTurns ++ [trapTurn .entry 231, exitTurn]))) :=
  (counts_calls_iff (by decide) (by simp [execTurns, trapTurn, exitTurn, traps, Alternates]) (by decide)).mpr
    (Or.inr (by decide))

/-- The two variants count alike exactly if there is nothing to count for the toggle, because
there is no stop or the first one ends the count, or if its `size_t` is 0 again. -/
theorem counts_agree_iff (succeed : ∀ turn ∈ turns, turn.succeeds = true) :
    ((countInfo turns).1 = (countToggle turns).1 ↔ 2 ^ 64 ∣ (takenForEntries (traps turns)).length) ∧
      ((traps turns).length < 2 ^ 64 → ((countInfo turns).1 = (countToggle turns).1 ↔
        ∀ stop ∈ (traps turns).head?, invalid stop.origRax = true)) := by
  have agree : (countInfo turns).1 = (countToggle turns).1 ↔ 2 ^ 64 ∣ (takenForEntries (traps turns)).length := by
    rw [countInfo_eq succeed, countToggle_eq succeed, length_takenForEntries, ← UInt64.toNat_inj, UInt64.toNat_ofNat',
      Nat.dvd_iff_mod_eq_zero]
    exact eq_comm
  exact ⟨agree, fun few => agree.trans (dvd_takenForEntries few)⟩

theorem counts_agree_clone :
    (countInfo [trapTurn .entry 56, exitTurn]).1 = (countToggle [trapTurn .entry 56, exitTurn]).1 :=
  ((counts_agree_iff (by decide)).2 (by decide)).mpr (by simp [traps, trapTurn, exitTurn, invalid])

/-- A child that executes a program, is stopped by SIGTRAP after that, and ends with `exit_group`. -/
theorem counts_differ :
    (∀ turn ∈ execTurns ++ [trapTurn .entry 231, exitTurn], turn.succeeds = true) ∧
      Alternates false (traps (execTurns ++ [trapTurn .entry 231, exitTurn])) ∧
      (countInfo (execTurns ++ [trapTurn .entry 231, exitTurn])).1 = 0 ∧
      (countToggle (execTurns ++ [trapTurn .entry 231, exitTurn])).1 = 2 :=
  ⟨by decide, by simp [execTurns, trapTurn, exitTurn, traps, Alternates], by decide, by decide⟩

end Agreement
end PosixC.Syscount
