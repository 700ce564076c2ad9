import PosixC.Ptgrep.Threads

/-! The exit status of hw08/ptgrep.c. -/

set_option autoImplicit false

namespace PosixC.Ptgrep

open Foundation Foundation.CText Foundation.CBuffer Foundation.Barrier

section Lines

variable {shared : SharedThreadData} {searcher : ThreadData} {lineNum : Nat} {loop : Loop} {line slack : Bytes}

theorem exists_slack (line slack : Bytes) : ∃ behind, line ++ 0 :: slack = cString line ++ 0 :: behind := by
  induction line with
  | nil => exact ⟨slack, rfl⟩
  | cons byte line ih =>
    by_cases ends : byte = 0
    · exact ⟨line ++ 0 :: slack, by simp [ends, cString]⟩
    · obtain ⟨behind, same⟩ := ih
      exact ⟨behind, by simp [cString, ends, same]⟩

theorem not_mem_cString (line : Bytes) : 0 ∉ cString line := by
  intro member
  simpa using List.mem_takeWhile_imp member

structure Looks (shared : SharedThreadData) (line slack : Bytes) (loop : Loop) : Prop where
  holds : loop.memory.Holds (cString line) slack
  inside : loop.lineCopy ≤ (cString line).length
  found : loop.found = true → matchesLine shared line = true
  fresh : loop.found = false → loop.lineCopy = 0

def Looked (shared : SharedThreadData) (line slack : Bytes) : Progress → Prop
  | .running loop => Looks shared line slack loop ∧ loop.found = true
  | .stopped loop => loop.found = matchesLine shared line

theorem looks_start (shared : SharedThreadData) (line slack : Bytes) :
    ∃ behind, Looks shared line behind (.start line slack) := by
  obtain ⟨behind, same⟩ := exists_slack line slack
  refine ⟨behind, ⟨same, fun _ member => nomatch member⟩, Nat.zero_le _, ?_, fun _ => rfl⟩
  intro found
  cases found

theorem matchesLine_of_drop {place distance : Nat}
    (found : stringFind shared.insensitive ((cString line).drop place) shared.string = some distance) :
    matchesLine shared line = true := by
  unfold matchesLine
  by_contra absent
  rw [Bool.not_eq_true, Option.isSome_eq_false_iff, Option.isNone_iff_eq_none, stringFind_eq] at absent
  rw [stringFind_eq] at found
  have here := (Search.find_some found).2.1
  rw [List.drop_drop, Search.find_none absent] at here
  cases here

theorem turn_looks (isatty : Bool) (looks : Looks searcher.shared line slack loop) :
    ∃ progress, turn isatty searcher lineNum loop = some progress ∧ Looked searcher.shared line slack progress ∧
      (loop.found = true → progress.loop.found = true) := by
  have plain := not_mem_cString line
  cases found : stringFind searcher.shared.insensitive ((cString line).drop loop.lineCopy) searcher.shared.string with
  | none =>
    obtain ⟨memory, turned, _⟩ := turn_absent lineNum isatty looks.holds plain looks.inside found
    refine ⟨_, turned, ?_, fun already => already⟩
    change loop.found = matchesLine searcher.shared line
    cases already : loop.found with
    | true => exact (looks.found already).symm
    | false =>
      rw [looks.fresh already, List.drop_zero] at found
      simp [matchesLine, found]
  | some distance =>
    have present := matchesLine_of_drop found
    cases isatty with
    | false =>
      obtain ⟨memory, turned, kept⟩ := turn_redirected lineNum looks.holds plain looks.inside found
      refine ⟨_, turned, ⟨⟨kept, looks.inside, fun _ => present, ?_⟩, rfl⟩, fun _ => rfl⟩
      intro fresh
      cases fresh
    | true =>
      obtain ⟨memory, kept, turned⟩ := turn_highlighted lineNum looks.holds plain looks.inside found rfl
      refine ⟨_, turned, ?_⟩
      split
      · exact ⟨present.symm, fun _ => rfl⟩
      · next within =>
        refine ⟨⟨⟨kept, Nat.le_of_not_gt within, fun _ => present, ?_⟩, rfl⟩, fun _ => rfl⟩
        intro fresh
        cases fresh

end Lines

variable {threadNum : Nat} {setup : Setup threadNum} {state after : World threadNum}
  {notes written : List (Thread threadNum × Note)} {thread : Thread threadNum}

structure Flags where
  opened : Bool
  found : Bool
  exited : Bool

def Shared.flags (shared : Shared threadNum) (i : Fin threadNum) : Flags :=
  ⟨decide (i ∈ shared.opened), decide (i ∈ shared.found), decide (i ∈ shared.exited)⟩

def Knows (setup : Setup threadNum) (i : Fin threadNum) (flags : Flags) : Point → Prop
  | .begin => flags = ⟨false, false, false⟩
  | .notOpened => setup.file i = none ∧ flags = ⟨false, false, false⟩
  | .getline rest _ => ∃ content before, setup.file i = some content ∧ lines content = before ++ rest ∧
      flags = ⟨true, before.any (matchesLine setup.shared), false⟩
  | .search loop rest _ => ∃ content before line slack, setup.file i = some content ∧
      lines content = before ++ line :: rest ∧ Looks setup.shared line slack loop ∧
      flags = ⟨true, before.any (matchesLine setup.shared) || loop.found, false⟩
  | .print _ progress rest _ => ∃ content before line slack, setup.file i = some content ∧
      lines content = before ++ line :: rest ∧ Looked setup.shared line slack progress ∧
      flags = ⟨true, before.any (matchesLine setup.shared) || progress.loop.found, false⟩
  | .finish => ∃ content, setup.file i = some content ∧ flags = ⟨true, hasMatch setup.shared content, false⟩
  | .gone => flags = ⟨(setup.file i).isSome, (setup.file i).any (hasMatch setup.shared), true⟩
  | _ => False

def MainKnows (setup : Setup threadNum) (shared : Shared threadNum) : Point → Prop
  | .create i => shared.exit = false ∧ shared.created = i ∧ i ≤ threadNum ∧ ∀ j : Fin threadNum, j < i → setup.creates j = true
  | .join i opened found => shared.exit = false ∧ shared.created = threadNum ∧ (∀ j, setup.creates j = true) ∧
      (∀ j : Fin threadNum, j < i → j ∈ shared.exited) ∧
      (opened = true ↔ ∀ j : Fin threadNum, j < i → (setup.file j).isSome = true) ∧
      (found = true ↔ ∃ j : Fin threadNum, j < i ∧ (setup.file j).any (hasMatch setup.shared) = true)
  | .done => shared.exit = true
  | _ => False

/-- All files can be opened and one of them contains the string. -/
def Succeeds (setup : Setup threadNum) : Prop :=
  (∀ i, (setup.file i).isSome = true) ∧ ∃ i, (setup.file i).any (hasMatch setup.shared) = true

structure Sound (setup : Setup threadNum) (notes : List (Thread threadNum × Note)) (state : World threadNum) : Prop where
  searcher : ∀ i, Knows setup i (state.shared.flags i) (state.threads (some i))
  main : MainKnows setup state.shared (state.threads none)
  exits : ∀ self status, (self, .exit status) ∈ notes →
    (∃ i, setup.creates i = false) ∧ status = false ∨
      (∀ i, setup.creates i = true) ∧ (status = true ↔ Succeeds setup) ∧ ∀ i, i ∈ state.shared.exited
  ended : state.shared.exit = true → ∃ status, (none, .exit status) ∈ notes

theorem sound_start (setup : Setup threadNum) : Sound setup [] (startWorld threadNum) where
  searcher _ := rfl
  main := ⟨rfl, rfl, Nat.zero_le _, fun _ less => absurd less (Nat.not_lt_zero _)⟩
  exits _ _ member := nomatch member
  ended exit := nomatch exit

theorem mainKnows_same {before now : Shared threadNum} {point : Point} (created : now.created = before.created)
    (exit : now.exit = before.exit) (exited : before.exited ⊆ now.exited) (knows : MainKnows setup before point) :
    MainKnows setup now point := by
  cases point with
  | create | done =>
    simp only [MainKnows, created, exit]
    exact knows
  | join i opened found =>
    obtain ⟨running, all, succeeds, joined, results⟩ := knows
    exact ⟨exit.trans running, created.trans all, succeeds, fun j less => exited (joined j less), results⟩
  | _ => exact knows.elim

theorem sound_searcher (sound : Sound setup notes state) {i : Fin threadNum} {next : Point} {shared : Shared threadNum}
    {texts : List Note} (knows : Knows setup i (shared.flags i) next)
    (others : ∀ j, j ≠ i → shared.flags j = state.shared.flags j) (created : shared.created = state.shared.created)
    (exit : shared.exit = state.shared.exit) (exited : state.shared.exited ⊆ shared.exited)
    (quiet : ∀ status, .exit status ∉ texts) :
    Sound setup (notes ++ texts.map fun note => (some i, note)) { state.move (some i) next with shared := shared } where
  searcher j := by
    by_cases same : j = i
    · subst same
      simpa using knows
    · have different : (some j : Thread threadNum) ≠ some i := by simpa using same
      simp only [move_of_ne state next different, others j same]
      exact sound.searcher j
  main := by
    simp only [move_of_ne state next (Option.some_ne_none i).symm]
    exact mainKnows_same created exit exited sound.main
  exits self status member := by
    rcases List.mem_append.mp member with old | new
    · exact (sound.exits self status old).imp_right fun ⟨all, right, gone⟩ => ⟨all, right, fun j => exited (gone j)⟩
    · obtain ⟨note, inside, same⟩ := List.mem_map.mp new
      cases same
      exact absurd inside (quiet status)
  ended ends := by
    obtain ⟨status, member⟩ := sound.ended (exit ▸ ends)
    exact ⟨status, List.mem_append_left _ member⟩

theorem flags_found (shared : Shared threadNum) (i : Fin threadNum) :
    ({ shared with found := insert i shared.found } : Shared threadNum).flags i = { shared.flags i with found := true } := by
  simp [Shared.flags]

theorem flags_opened (shared : Shared threadNum) (i : Fin threadNum) :
    ({ shared with opened := insert i shared.opened } : Shared threadNum).flags i = { shared.flags i with opened := true } := by
  simp [Shared.flags]

theorem flags_exited (shared : Shared threadNum) (i : Fin threadNum) :
    ({ shared with exited := insert i shared.exited } : Shared threadNum).flags i = { shared.flags i with exited := true } := by
  simp [Shared.flags]

theorem sound_searcher_step (sound : Sound setup notes state) {i : Fin threadNum} {shared : Shared threadNum}
    {next : Point} {texts : List Note}
    (command : program setup (some i) (state.threads (some i)) state.shared = .assign shared next texts) :
    Sound setup (notes ++ texts.map fun note => (some i, note)) { state.move (some i) next with shared := shared } := by
  have knows := sound.searcher i
  generalize state.threads (some i) = point at knows command
  cases does_of_program command with
  | notOpened started absent => exact sound_searcher sound ⟨absent, knows⟩ (fun _ _ => rfl) rfl rfl subset_rfl (by simp)
  | @opened _ content started present =>
    have own : Knows setup i (({ state.shared with opened := insert i state.shared.opened } : Shared threadNum).flags i)
        (.getline (lines content) 0) := by
      rw [flags_opened, knows]
      exact ⟨content, [], present, rfl, rfl⟩
    exact sound_searcher sound own (fun j different => by simp [Shared.flags, different]) rfl rfl subset_rfl (by simp)
  | endOfFile =>
    obtain ⟨content, before, present, split, flags⟩ := knows
    rw [List.append_nil] at split
    have own : Knows setup i (state.shared.flags i) .finish := ⟨content, present, by rw [flags, hasMatch, split]⟩
    exact sound_searcher sound own (fun _ _ => rfl) rfl rfl subset_rfl (by simp)
  | @getline _ line rest lineNum =>
    obtain ⟨content, before, present, split, flags⟩ := knows
    obtain ⟨slack, looks⟩ := looks_start setup.shared line (setup.slack i lineNum)
    have own : Knows setup i (state.shared.flags i) (.search (.start line (setup.slack i lineNum)) rest lineNum) :=
      ⟨content, before, line, slack, present, split, looks, by rw [flags, Loop.start, Bool.or_false]⟩
    exact sound_searcher sound own (fun _ _ => rfl) rfl rfl subset_rfl (by simp)
  -- The flag is set by the first match and nothing resets it.
  | @turn _ loop progress rest lineNum turned =>
    obtain ⟨content, before, line, slack, present, split, looks, flags⟩ := knows
    obtain ⟨progress', turned', looked, keeps⟩ := @turn_looks (setup.searcher i) lineNum loop line slack setup.isatty looks
    cases turned.symm.trans turned'
    by_cases found : progress.loop.found = true
    · rw [if_pos found]
      have own : Knows setup i (({ state.shared with found := insert i state.shared.found } : Shared threadNum).flags i)
          (.print (newTexts loop progress) progress rest lineNum) :=
        ⟨content, before, line, slack, present, split, looked, by rw [flags_found, flags, found, Bool.or_true]⟩
      exact sound_searcher sound own (fun j different => by simp [Shared.flags, different]) rfl rfl subset_rfl (by simp)
    · rw [if_neg found]
      have kept : loop.found = false := Bool.eq_false_iff.mpr (mt keeps found)
      have own : Knows setup i (state.shared.flags i) (.print (newTexts loop progress) progress rest lineNum) :=
        ⟨content, before, line, slack, present, split, looked, by
          rw [flags, kept, Bool.eq_false_iff.mpr found]⟩
      exact sound_searcher sound own (fun _ _ => rfl) rfl rfl subset_rfl (by simp)
  | @printed _ progress rest lineNum =>
    obtain ⟨content, before, line, slack, present, split, looked, flags⟩ := knows
    have own : Knows setup i (state.shared.flags i) (afterTexts progress rest lineNum) := by
      cases progress with
      | running loop => exact ⟨content, before, line, slack, present, split, looked.1, flags⟩
      | stopped loop =>
        refine ⟨content, before ++ [line], present, by rw [split, List.append_assoc]; rfl, ?_⟩
        have found : loop.found = matchesLine setup.shared line := looked
        rw [flags, Progress.loop, found]
        simp
    exact sound_searcher sound own (fun _ _ => rfl) rfl rfl subset_rfl (by simp)
  | print => exact sound_searcher sound knows (fun _ _ => rfl) rfl rfl subset_rfl (by simp)
  | leave ends =>
    have own : Knows setup i (({ state.shared with exited := insert i state.shared.exited } : Shared threadNum).flags i)
        .gone := by
      rcases ends with rfl | rfl
      · obtain ⟨absent, flags⟩ := knows
        rw [flags_exited, flags]
        simp [Knows, absent]
      · obtain ⟨content, present, flags⟩ := knows
        rw [flags_exited, flags]
        simp [Knows, present]
    exact sound_searcher sound own (fun j different => by simp [Shared.flags, different]) rfl rfl
      (Finset.subset_insert _ _) (by simp)

theorem sound_main (sound : Sound setup notes state) {next : Point} {shared : Shared threadNum}
    (flags : ∀ j, shared.flags j = state.shared.flags j) (exited : shared.exited = state.shared.exited)
    (knows : MainKnows setup shared next) (exit : shared.exit = state.shared.exit) :
    Sound setup notes { state.move none next with shared := shared } where
  searcher j := by
    simp only [move_of_ne state next (Option.some_ne_none j), flags j]
    exact sound.searcher j
  main := by simpa using knows
  exits self status member := by
    simp only [exited]
    exact sound.exits self status member
  ended ends := sound.ended (exit ▸ ends)

theorem sound_exit (sound : Sound setup notes state) {status : Bool}
    (right : (∃ i, setup.creates i = false) ∧ status = false ∨
      (∀ i, setup.creates i = true) ∧ (status = true ↔ Succeeds setup) ∧ ∀ i, i ∈ state.shared.exited) :
    Sound setup (notes ++ [(none, .exit status)])
      { state.move none .done with shared := { state.shared with exit := true } } where
  searcher j := by
    simp only [move_of_ne state _ (Option.some_ne_none j)]
    exact sound.searcher j
  main := by simp [MainKnows]
  exits self reported member := by
    rcases List.mem_append.mp member with old | new
    · exact sound.exits self reported old
    · cases List.mem_singleton.mp new
      exact right
  ended _ := ⟨status, List.mem_append_right _ (List.mem_singleton_self _)⟩

theorem gone_of_exited {flags : Flags} {i : Fin threadNum} {point : Point} (knows : Knows setup i flags point)
    (exited : flags.exited = true) : point = .gone := by
  cases point with
  | gone => rfl
  | begin =>
    subst knows
    cases exited
  | notOpened =>
    obtain ⟨_, rfl⟩ := knows
    cases exited
  | getline =>
    obtain ⟨_, _, _, _, rfl⟩ := knows
    cases exited
  | search | print =>
    obtain ⟨_, _, _, _, _, _, _, rfl⟩ := knows
    cases exited
  | finish =>
    obtain ⟨_, _, rfl⟩ := knows
    cases exited
  | _ => exact knows.elim

theorem flags_of_exited {flags : Flags} {i : Fin threadNum} {point : Point} (knows : Knows setup i flags point)
    (exited : flags.exited = true) : flags = ⟨(setup.file i).isSome, (setup.file i).any (hasMatch setup.shared), true⟩ := by
  rw [gone_of_exited knows exited] at knows
  exact knows

theorem forall_lt_succ {i : Fin threadNum} {holds : Fin threadNum → Prop} :
    (∀ j : Fin threadNum, j.val < i + 1 → holds j) ↔ (∀ j : Fin threadNum, j < i → holds j) ∧ holds i := by
  constructor
  · exact fun all => ⟨fun j less => all j (Nat.lt_succ_of_lt less), all i (Nat.lt_succ_self _)⟩
  · rintro ⟨before, now⟩ j less
    rcases Nat.lt_succ_iff_lt_or_eq.mp less with earlier | same
    · exact before j earlier
    · exact Fin.ext same ▸ now

theorem exists_lt_succ {i : Fin threadNum} {holds : Fin threadNum → Prop} :
    (∃ j : Fin threadNum, j.val < i + 1 ∧ holds j) ↔ (∃ j : Fin threadNum, j < i ∧ holds j) ∨ holds i := by
  constructor
  · rintro ⟨j, less, now⟩
    rcases Nat.lt_succ_iff_lt_or_eq.mp less with earlier | same
    · exact Or.inl ⟨j, earlier, now⟩
    · exact Or.inr (Fin.ext same ▸ now)
  · rintro (⟨j, earlier, now⟩ | now)
    · exact ⟨j, Nat.lt_succ_of_lt earlier, now⟩
    · exact ⟨i, Nat.lt_succ_self _, now⟩

theorem sound_main_step (sound : Sound setup notes state) {shared : Shared threadNum} {next : Point} {texts : List Note}
    (command : program setup none (state.threads none) state.shared = .assign shared next texts) :
    Sound setup (notes ++ texts.map fun note => (none, note)) { state.move none next with shared := shared } := by
  have knows := sound.main
  generalize state.threads none = point at knows command
  cases does_of_program command with
  | @create i succeeds =>
    obtain ⟨exit, created, within, before⟩ := knows
    rw [List.map_nil, List.append_nil]
    exact sound_main sound (fun _ => rfl) rfl ⟨exit, rfl, i.isLt, forall_lt_succ.mpr ⟨before, succeeds⟩⟩ rfl
  | @failed i fails => exact sound_exit sound (.inl ⟨⟨i, fails⟩, rfl⟩)
  | @created i all =>
    obtain ⟨exit, created, within, before⟩ := knows
    rw [List.map_nil, List.append_nil]
    refine sound_main sound (fun _ => rfl) rfl ⟨exit, created.trans (within.antisymm all), ?_, ?_, ?_, ?_⟩ rfl
    · exact fun j => before j (j.isLt.trans_le all)
    · simp
    · simp
    · simp
  | @joined i opened found exited =>
    obtain ⟨exit, created, all, joined, opens, finds⟩ := knows
    rw [List.map_nil, List.append_nil]
    have flags := flags_of_exited (sound.searcher i) (decide_eq_true exited)
    have opened' : decide (i ∈ state.shared.opened) = (setup.file i).isSome := congrArg Flags.opened flags
    have found' : decide (i ∈ state.shared.found) = (setup.file i).any (hasMatch setup.shared) := congrArg Flags.found flags
    refine sound_main sound (fun _ => rfl) rfl ⟨exit, created, all, ?_, ?_, ?_⟩ rfl
    · exact forall_lt_succ.mpr ⟨joined, exited⟩
    · rw [opened', Bool.and_eq_true, opens]
      exact forall_lt_succ.symm
    · rw [found', Bool.or_eq_true, finds]
      exact exists_lt_succ.symm
  | @done i opened found last =>
    obtain ⟨exit, created, all, joined, opens, finds⟩ := knows
    have right : (opened && found) = true ↔ Succeeds setup := by
      rw [Bool.and_eq_true, opens, finds]
      constructor
      · rintro ⟨opened, j, _, found⟩
        exact ⟨fun j => opened j (j.isLt.trans_le last), j, found⟩
      · rintro ⟨opened, j, found⟩
        exact ⟨fun j _ => opened j, j, j.isLt.trans_le last, found⟩
    exact sound_exit sound (.inr ⟨all, right, fun j => joined j (j.isLt.trans_le last)⟩)

theorem assigns {command : Statement threadNum} {point : Point} {shared : Shared threadNum}
    (next : program setup thread point shared = command) :
    command = .blocked ∨ ∃ shared next texts, command = .assign shared next texts := by
  cases does_of_program next <;> simp

theorem sound_step (sound : Sound setup notes state) (move : Move 0 (program setup) state thread after written) :
    Sound setup (notes ++ written) after := by
  cases move with
  | lock command | unlock command | arrive command | pass command => simpa using assigns command
  | assign command =>
    cases thread with
    | none => exact sound_main_step sound command
    | some i => exact sound_searcher_step sound command

variable {actions : List (Thread threadNum)}

theorem sound_run (run : (ptgrepMachine setup).Run (startWorld threadNum) actions notes state) : Sound setup notes state := by
  apply run.invariant (Sound setup) (sound_start setup)
  exact fun _ _ _ _ _ sound step => sound_step sound (move_of_step step)

def twoFiles (isatty : Bool) : Setup 2 where
  isatty := isatty
  shared := ⟨ascii "a", false, false⟩
  fileName _ := ascii "f"
  file i := if i.val = 0 then some (ascii "b\na\n") else none
  slack _ _ := []
  creates _ := true

def searcherOne : Fin 2 := ⟨0, Nat.two_pos⟩

def searcherTwo : Fin 2 := ⟨1, Nat.one_lt_two⟩

def scheduleTwo : List (Thread 2) :=
  [none, none, none] ++ List.replicate 15 (some searcherOne) ++ [some searcherTwo, some searcherTwo, none, none, none]

end PosixC.Ptgrep
