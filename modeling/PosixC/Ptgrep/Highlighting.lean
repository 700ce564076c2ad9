import PosixC.Ptgrep.Model

/-! What the matching loop prints, and when it ends.

On a terminal the loop goes on behind every match and so meets all occurrences.
When the output is redirected it looks at the same place again.
-/

set_option autoImplicit false

namespace PosixC.Ptgrep

open Foundation Foundation.CText Foundation.CBuffer

section Memory

variable (isatty : Bool) (searcher : ThreadData) (lineNum : Nat) {loop : Loop} {line slack : Bytes}

theorem turn_holds (holds : loop.memory.Holds line slack) (plain : 0 ∉ line) (inside : loop.lineCopy ≤ line.length) :
    ∃ progress, turn isatty searcher lineNum loop = some progress ∧ progress.loop.memory.Holds line slack ∧
      ∀ next, progress = .running next → next.lineCopy ≤ line.length := by
  cases found : stringFind searcher.shared.insensitive (line.drop loop.lineCopy) searcher.shared.string with
  | none =>
    obtain ⟨memory, turned, kept⟩ := turn_absent lineNum isatty holds plain inside found
    exact ⟨_, turned, kept, fun _ running => nomatch running⟩
  | some distance =>
    cases isatty with
    | false =>
      obtain ⟨memory, turned, kept⟩ := turn_redirected lineNum holds plain inside found
      refine ⟨_, turned, kept, fun next running => ?_⟩
      cases running
      exact inside
    | true =>
      obtain ⟨memory, kept, turned⟩ := turn_highlighted lineNum holds plain inside found rfl
      refine ⟨_, turned, ?_, fun next running => ?_⟩
      · split <;> exact kept
      · split at running
        · cases running
        · next within =>
          cases running
          exact Nat.le_of_not_gt within

/-- Between any two turns the buffer is what it was, and nothing behind the NUL has been touched. -/
theorem turns_hold (count : Nat) (holds : loop.memory.Holds line slack) (plain : 0 ∉ line)
    (inside : loop.lineCopy ≤ line.length) :
    ∃ progress, turns isatty searcher lineNum count (.running loop) = some progress ∧
      progress.loop.memory.Holds line slack := by
  induction count generalizing loop with
  | zero => exact ⟨_, rfl, holds⟩
  | succ count ih =>
    obtain ⟨progress, turned, kept, bounded⟩ := turn_holds isatty searcher lineNum holds plain inside
    simp only [turns, turned, Option.bind_some]
    cases progress with
    | running next => exact ih kept (bounded next rfl)
    | stopped last => exact ⟨_, by cases count <;> rfl, kept⟩

end Memory

section Matches

variable (searcher : ThreadData) (lineNum : Nat) {loop : Loop} {line slack : Bytes}

/-- One turn for each occurrence that is left, in their order. -/
theorem turns_highlighted (budget : Nat) (enough : line.length < loop.lineCopy + budget)
    (holds : loop.memory.Holds line slack) (plain : 0 ∉ line) (inside : loop.lineCopy ≤ line.length) :
    ∃ count final, turns true searcher lineNum count (.running loop) = some (.stopped final) ∧
      final.printed = loop.printed ++
        (Search.occurrencesFrom (key searcher.shared.insensitive) searcher.shared.string line loop.lineCopy).map
          fun place => header searcher lineNum ++ around line searcher.shared.string.length place := by
  induction budget generalizing loop with
  | zero => omega
  | succ budget ih =>
    cases found : stringFind searcher.shared.insensitive (line.drop loop.lineCopy) searcher.shared.string with
    | none =>
      obtain ⟨memory, turned, kept⟩ := turn_absent lineNum true holds plain inside found
      refine ⟨1, { loop with memory := memory }, by simp only [turns, turned, Option.bind_some], ?_⟩
      rw [stringFind_eq] at found
      simp [Search.occurrencesFrom_none found]
    | some distance =>
      obtain ⟨memory, kept, turned⟩ := turn_highlighted lineNum holds plain inside found rfl
      rw [stringFind_eq] at found
      rw [Search.occurrencesFrom_some inside found, List.map_cons]
      let next := loop.shown searcher lineNum line memory (loop.lineCopy + distance)
      by_cases last : loop.lineCopy + distance + 1 > line.length
      · refine ⟨1, next, by simp only [turns, turned, Option.bind_some, if_pos last, next], ?_⟩
        -- Behind the end of the line there is no place left.
        have beyond : Search.occurrencesFrom (key searcher.shared.insensitive) searcher.shared.string line
            (loop.lineCopy + distance + 1) = [] := by
          simp [Search.occurrencesFrom, show line.length + 1 - (loop.lineCopy + distance + 1) = 0 by omega]
        rw [beyond]
        rfl
      · rw [if_neg last] at turned
        have nearer : line.length < next.lineCopy + budget := by
          change line.length < loop.lineCopy + distance + 1 + budget
          omega
        obtain ⟨count, final, ended, printed⟩ := ih nearer kept (Nat.le_of_not_gt last)
        refine ⟨count + 1, final, ?_, ?_⟩
        · simp only [turns, turned, Option.bind_some]
          exact ended
        · rw [printed]
          exact List.append_assoc ..

/-- On a terminal the loop shows every occurrence, in order and on the whole line,
and leaves the buffer alone. -/
theorem highlighting_faithful (plain : 0 ∉ line) :
    (∃ count final, turns true searcher lineNum count (.running (.start line slack)) = some (.stopped final) ∧
      final.printed =
        (Search.occurrences (key searcher.shared.insensitive) searcher.shared.string line).map
          fun place => header searcher lineNum ++ around line searcher.shared.string.length place) ∧
      (Search.occurrences (key searcher.shared.insensitive) searcher.shared.string line).Pairwise (· < ·) ∧
      (∀ place, place ∈ Search.occurrences (key searcher.shared.insensitive) searcher.shared.string line ↔
        place ≤ line.length ∧ ((line.drop place).take searcher.shared.string.length).map (key searcher.shared.insensitive) =
          searcher.shared.string.map (key searcher.shared.insensitive)) ∧
      (∀ place, line.take place ++ (line.drop place).take searcher.shared.string.length ++
        line.drop (place + searcher.shared.string.length) = line) ∧
      ∀ count, ∃ progress, turns true searcher lineNum count (.running (.start line slack)) = some progress ∧
        progress.loop.memory.Holds line slack := by
  have holds := start_holds line slack
  refine ⟨?_, Search.occurrences_sorted, fun place => ?_, fun place => ?_, fun count => ?_⟩
  · exact turns_highlighted searcher lineNum (line.length + 1) (by simp [Loop.start]) holds plain (Nat.zero_le _)
  · rw [Search.mem_occurrences, Search.begins_iff]
  · rw [List.append_assoc, ← List.drop_drop, List.take_append_drop, List.take_append_drop]
  · exact turns_hold true searcher lineNum count holds plain (Nat.zero_le _)

theorem highlighting_faithful_overlapping :
    ∃ count final, turns true ⟨ascii "f", ⟨ascii "aa", false, false⟩⟩ 0 count (.running (.start (ascii "aaaa") [])) =
        some (.stopped final) ∧
      final.printed = [0, 1, 2].map fun place => [ascii "f: "] ++ around (ascii "aaaa") 2 place :=
  (highlighting_faithful _ _ (by decide)).1

section Redirected

/-- Redirected output leaves the place of the search where it is. -/
theorem turns_redirected (count : Nat) (holds : loop.memory.Holds line slack) (plain : 0 ∉ line)
    (inside : loop.lineCopy ≤ line.length) {distance : Nat}
    (found : stringFind searcher.shared.insensitive (line.drop loop.lineCopy) searcher.shared.string = some distance) :
    ∃ next, turns false searcher lineNum count (.running loop) = some (.running next) := by
  induction count generalizing loop with
  | zero => exact ⟨loop, rfl⟩
  | succ count ih =>
    obtain ⟨memory, turned, kept⟩ := turn_redirected lineNum holds plain inside found
    simp only [turns, turned, Option.bind_some]
    exact ih kept inside found

end Redirected

/-- The loop ends exactly when the output is a terminal or the line has no match. -/
theorem loop_ends_iff (isatty : Bool) (plain : 0 ∉ line) :
    (∃ count final, turns isatty searcher lineNum count (.running (.start line slack)) = some (.stopped final)) ↔
      isatty = true ∨ stringFind searcher.shared.insensitive line searcher.shared.string = none := by
  have holds := start_holds line slack
  constructor
  · rintro ⟨count, final, ended⟩
    cases isatty with
    | true => exact Or.inl rfl
    | false =>
      apply Or.inr
      by_contra present
      obtain ⟨distance, found⟩ := Option.ne_none_iff_exists'.mp present
      obtain ⟨next, runs⟩ := turns_redirected searcher lineNum count holds plain (Nat.zero_le _) found
      cases ended.symm.trans runs
  · rintro (rfl | absent)
    · obtain ⟨count, final, ended, _⟩ :=
        turns_highlighted searcher lineNum (line.length + 1) (by simp [Loop.start]) holds plain (Nat.zero_le _)
      exact ⟨count, final, ended⟩
    · obtain ⟨memory, turned, _⟩ := turn_absent lineNum isatty holds plain (Nat.zero_le _) absent
      refine ⟨1, { Loop.start line slack with memory := memory }, ?_⟩
      simp only [turns, turned, Option.bind_some]

theorem loop_ends_absent :
    ∃ count final, turns false ⟨ascii "f", ⟨ascii "b", false, false⟩⟩ 0 count (.running (.start (ascii "aaaa") [])) =
      some (.stopped final) :=
  (loop_ends_iff _ _ false (by decide)).mpr (Or.inr (by decide))

/-- One match in a line is enough to print it forever. -/
theorem loop_runs_forever :
    ¬ ∃ count final, turns false ⟨ascii "f", ⟨ascii "a", false, false⟩⟩ 0 count (.running (.start (ascii "a") [])) =
      some (.stopped final) := by
  rintro ⟨count, final, ended⟩
  have found : stringFind false (ascii "a") (ascii "a") = some 0 := by decide
  have holds := start_holds (ascii "a") []
  obtain ⟨next, runs⟩ :=
    turns_redirected ⟨ascii "f", ⟨ascii "a", false, false⟩⟩ 0 count holds (by decide) (Nat.zero_le _) found
  cases ended.symm.trans runs

end Matches
end PosixC.Ptgrep
