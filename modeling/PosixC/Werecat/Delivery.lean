import PosixC.Werecat.Model

/-! What comes out of `werecat`, and when it gives a FIFO up. -/

set_option autoImplicit false

namespace PosixC.Werecat

open Foundation CText Transfers

variable {count : Nat} {state after : State count} {notes written : List (Note count)} {books : Books count}

def pending : Point count → Fin count → Bytes
  | .write i bytes _, j => if j = i then bytes else []
  | _, _ => []

def ahead : Point count → List (Fin count)
  | .check todo | .read _ todo | .write _ _ todo | .drop _ todo => todo
  | _ => []

structure Accounted (books : Books count) (state : State count) : Prop where
  order : ∀ i, books.wrote i ++ pending state.point i <+: books.arrived i
  whole : 0 ≤ state.wt → ∀ i, books.arrived i = books.wrote i ++ (pending state.point i ++ (state.fifos i).unread)
  stopped : state.wt < 0 → ∀ i bytes todo, state.point ≠ .write i bytes todo
  announced : ∀ i, books.announced i <+: books.arrived i

theorem Accounted.goTo (accounted : Accounted books state) {point : Point count}
    (idle : ∀ i, pending state.point i = []) (next : ∀ i, pending point i = [])
    (other : ∀ i bytes todo, point ≠ .write i bytes todo) {fds : Fin count → Pollfd} :
    Accounted books { state with fds := fds, point := point } where
  order i := by simpa only [idle, next] using accounted.order i
  whole running i := by simpa only [idle, next] using accounted.whole running i
  stopped _ := other
  announced := accounted.announced

theorem accounted_move (accounted : Accounted books state) (move : Move state after written) :
    Accounted (written.foldl Books.enter books) after := by
  cases move with
  | quit place => exact accounted.goTo (by simp [place, pending]) (by simp [pending]) (by simp)
  | poll place ready =>
    have next := @Accounted.goTo count state books accounted (.check (List.finRange count)) (by simp [place, pending])
      (by simp [pending]) (by simp) fun i => pollOne (state.fifos i) (state.fds i)
    exact ⟨next.order, next.whole, next.stopped, fun _ => List.prefix_rfl⟩
  | again place | pass place => exact accounted.goTo (by simp [place, pending]) (by simp [pending]) (by simp)
  | enter place => exact accounted.goTo (by simp [place, pending]) (by simp [pending]) (by simp)
  | stopped place | unread place | drained place =>
    exact accounted.goTo (by simp [place, pending]) (by simp [pending]) (by simp)
  | @take i todo rd place running positive within =>
    constructor
    case order =>
      intro j
      have whole := accounted.whole running j
      by_cases same : j = i
      · subst same
        simp only [place, pending, List.nil_append, if_true, List.foldl_nil] at whole ⊢
        rw [whole, List.prefix_append_right_inj]
        exact List.take_prefix _ _
      · simpa [place, pending, same] using accounted.order j
    case whole =>
      intro _ j
      have whole := accounted.whole running j
      by_cases same : j = i
      · subst same
        simpa [place, pending, State.setFifo] using whole
      · simpa [place, pending, State.setFifo, same] using whole
    case stopped => exact fun negative => absurd running (not_le.mpr negative)
    case announced => exact accounted.announced
  -- What is in the buffer is lost, and nothing is written after it.
  | @unwritten i bytes todo errno place =>
    constructor
    case order =>
      intro j
      simpa [pending, Books.enter] using (List.prefix_append _ _).trans (accounted.order j)
    case whole => exact fun running => absurd running (Int.negSucc_not_nonneg 0).mp
    case stopped => simp
    case announced => exact accounted.announced
  | @put i bytes todo wt place within positive =>
    have running : 0 ≤ state.wt := not_lt.mp fun negative => accounted.stopped negative i bytes todo place
    -- What is left is pending, also when nothing is left.
    have left : ∀ j, pending (if bytes.drop wt = [] then Point.read i todo else .write i (bytes.drop wt) todo) j =
        if j = i then bytes.drop wt else [] := by
      intro j
      split
      · next empty => simp [pending, empty]
      · rfl
    constructor
    case order =>
      intro j
      have order := accounted.order j
      rw [left]
      by_cases same : j = i
      · subst same
        simpa [place, pending, Books.enter] using order
      · simpa [place, pending, Books.enter, same] using order
    case whole =>
      intro _ j
      have whole := accounted.whole running j
      rw [left]
      by_cases same : j = i
      · subst same
        simp only [List.foldl_cons, List.foldl_nil, Books.enter, appendAt_self, if_true]
        rw [whole, place, pending, if_pos rfl, List.append_assoc, ← List.append_assoc (List.take _ _),
          List.take_append_drop]
      · simpa [place, pending, Books.enter, same] using whole
    case stopped => exact fun negative => absurd (Int.natCast_nonneg wt) (not_le.mpr negative)
    case announced => exact accounted.announced
  | drop place hung => exact accounted.goTo (by simp [place, pending]) (by simp [pending]) (by simp)
  | keep place calm => exact accounted.goTo (by simp [place, pending]) (by simp [pending]) (by simp)

theorem Accounted.fifo (accounted : Accounted books state) {i : Fin count} {bytes : Bytes} {fifo : Fifo}
    (unread : fifo.unread = (state.fifos i).unread ++ bytes) :
    Accounted { books with arrived := appendAt books.arrived i bytes } (state.setFifo i fifo) where
  order j := by
    by_cases same : j = i
    · subst same
      simpa [State.setFifo] using (accounted.order j).trans (List.prefix_append _ _)
    · simpa [State.setFifo, same] using accounted.order j
  whole running j := by
    have whole := accounted.whole running j
    by_cases same : j = i
    · subst same
      simp [State.setFifo, unread, whole]
    · simpa [State.setFifo, same] using whole
  stopped := accounted.stopped
  announced j := by
    by_cases same : j = i
    · subst same
      simpa using (accounted.announced j).trans (List.prefix_append _ _)
    · simpa [same] using accounted.announced j

inductive Outside (state : State count) : State count → List (Note count) → Prop where
  | quiet {i : Fin count} {fifo : Fifo} : fifo.unread = (state.fifos i).unread → Outside state (state.setFifo i fifo) []
  | arrive {i : Fin count} {bytes : Bytes} {fifo : Fifo} : fifo.unread = (state.fifos i).unread ++ bytes →
      Outside state (state.setFifo i fifo) [.arrived i bytes]

theorem move_or_outside {action : Action count} (step : (werecatMachine count).step state action = some (after, written)) :
    Move state after written ∨ Outside state after written := by
  cases action with
  | run answer => exact .inl (move_of_step step)
  | connect i =>
    cases step
    exact .inr (.quiet rfl)
  | arrive i bytes =>
    simp only [werecatMachine, Option.ite_none_left_eq_some] at step
    obtain ⟨_, same⟩ := step
    cases same
    exact .inr (.arrive rfl)
  | hangup i =>
    simp only [werecatMachine, Option.ite_none_left_eq_some] at step
    obtain ⟨_, same⟩ := step
    cases same
    exact .inr (.quiet rfl)

theorem appendAt_nil (table : Fin count → Bytes) (i : Fin count) : appendAt table i [] = table := by
  simp [appendAt]

theorem accounted_outside (accounted : Accounted books state) (outside : Outside state after written) :
    Accounted (written.foldl Books.enter books) after := by
  cases outside with
  | @quiet i fifo unread =>
    have same := accounted.fifo (by rw [unread, List.append_nil] : fifo.unread = (state.fifos i).unread ++ [])
    rwa [appendAt_nil] at same
  | arrive unread => exact accounted.fifo unread

structure Silent (notes : List (Note count)) (state : State count) : Prop where
  refused : (∃ note ∈ notes, note.refused = true) → state.wt < 0
  healthy : state.wt < 0 → ∃ note ∈ notes, note.refused = true
  silent : notes.Pairwise fun first second => first.refused = true → second.puts = false

theorem Silent.add (silent : Silent notes state) (same : after.wt = state.wt)
    (other : ∀ note ∈ written, note.refused = false ∧ note.puts = false) (single : written.length ≤ 1) :
    Silent (notes ++ written) after where
  refused := by
    rintro ⟨note, member, refused⟩
    rcases List.mem_append.mp member with old | new
    · exact same ▸ silent.refused ⟨note, old, refused⟩
    · rw [(other note new).1] at refused
      cases refused
  healthy negative := by
    obtain ⟨note, member, refused⟩ := silent.healthy (same ▸ negative)
    exact ⟨note, List.mem_append_left _ member, refused⟩
  silent := by
    rw [List.pairwise_append]
    apply And.intro silent.silent
    apply And.intro
    · match written, single with
      | [], _ => exact List.Pairwise.nil
      | [note], _ => exact List.pairwise_singleton _ _
    · exact fun _ _ note member _ => (other note member).2

theorem silent_move (accounted : Accounted books state) (silent : Silent notes state) (move : Move state after written) :
    Silent (notes ++ written) after := by
  cases move with
  | quit | poll | unread | drop => exact silent.add rfl (by simp [Note.refused, Note.puts]) (by simp)
  | again | enter | pass | stopped | drained | take | keep => exact silent.add rfl (by simp) (by simp)
  | unwritten place =>
    constructor
    · exact fun _ => Int.negSucc_lt_zero 0
    · exact fun _ => ⟨_, List.mem_append_right _ (List.mem_singleton_self _), rfl⟩
    · rw [List.pairwise_append]
      refine ⟨silent.silent, List.pairwise_singleton _ _, ?_⟩
      intro first _ second member _
      cases List.mem_singleton.mp member
      rfl
  | @put i bytes todo wt place =>
    have fine : ∀ note ∈ notes, note.refused = false := by
      intro note member
      by_contra refused
      exact accounted.stopped (silent.refused ⟨note, member, Bool.eq_true_of_not_eq_false refused⟩) _ _ _ place
    constructor
    · rintro ⟨note, member, refused⟩
      rcases List.mem_append.mp member with old | new
      · rw [fine note old] at refused
        cases refused
      · cases List.mem_singleton.mp new
        cases refused
    · exact fun negative => absurd (Int.natCast_nonneg wt) (not_le.mpr negative)
    · rw [List.pairwise_append]
      refine ⟨silent.silent, List.pairwise_singleton _ _, ?_⟩
      intro first old second _ refused
      rw [fine first old] at refused
      cases refused

structure Prompt (books : Books count) (state : State count) : Prop where
  later : ∀ i ∈ ahead state.point, (state.fds i).revents.pollin = false → (state.fds i).revents.hung = true →
    books.announced i <+: books.wrote i
  now : ∀ i todo, state.point = .drop i todo → (state.fds i).revents.hung = true → books.announced i <+: books.wrote i

/-- A snapshot with a hang-up and nothing to read is taken of an empty FIFO. -/
theorem unread_of_pollOne {fifo : Fifo} {pollfd : Pollfd} (silent : (pollOne fifo pollfd).revents.pollin = false)
    (hung : (pollOne fifo pollfd).revents.hung = true) : fifo.unread = [] := by
  unfold pollOne at silent hung
  by_cases negative : pollfd.fd < 0
  · simp [negative, Revents.hung] at hung
  · simpa [negative, Fifo.revents] using silent

theorem prompt_move (accounted : Accounted books state) (prompt : Prompt books state) (running : 0 ≤ state.wt)
    (move : Move state after written) (fine : ∀ note ∈ written, note.fault = false) :
    Prompt (written.foldl Books.enter books) after := by
  have whole := accounted.whole running
  cases move with
  | quit | unread | unwritten => cases fine _ (List.mem_singleton_self _)
  | stopped place negative => exact absurd running (not_le.mpr negative)
  | poll place =>
    constructor
    · intro i _ silent hung
      have empty := unread_of_pollOne silent hung
      have same : books.arrived i = books.wrote i := by simpa [place, pending, empty] using whole i
      simp [Books.enter, same]
    · simp
  | again => exact ⟨by simp [ahead], by simp⟩
  | enter place =>
    constructor
    · exact fun j member => prompt.later j (by rw [place]; exact List.mem_cons_of_mem _ member)
    · simp
  | @pass i todo place silent =>
    constructor
    · exact fun j member => prompt.later j (by rw [place]; exact List.mem_cons_of_mem _ member)
    · rintro _ _ ⟨⟩ hung
      exact prompt.later i (by rw [place]; exact List.mem_cons_self) silent hung
  | @drained i todo place _ empty =>
    constructor
    · exact fun j member => prompt.later j (by rw [place]; exact member)
    · rintro _ _ ⟨⟩ _
      have same : books.arrived i = books.wrote i := by simpa [place, pending, empty] using whole i
      exact same ▸ accounted.announced i
  | take place =>
    constructor
    · exact fun j member => prompt.later j (by rw [place]; exact member)
    · simp
  | @put i bytes todo wt place =>
    constructor
    · intro j member silent hung
      have rest : ahead (if bytes.drop wt = [] then Point.read i todo else .write i (bytes.drop wt) todo) = todo := by
        split <;> rfl
      have before := prompt.later j (by rw [place]; exact rest ▸ member) silent hung
      by_cases same : j = i
      · subst same
        simpa [Books.enter] using before.trans (List.prefix_append _ _)
      · simpa [Books.enter, same] using before
    · intro j rest place'
      split at place' <;> cases place'
  | @drop i todo place =>
    constructor
    · intro j member silent hung
      have same : (Function.update state.fds i { state.fds i with fd := -1 } j).revents = (state.fds j).revents := by
        by_cases same : j = i
        · subst same
          rw [Function.update_self]
        · rw [Function.update_of_ne same]
      exact prompt.later j (by rw [place]; exact member) (same ▸ silent) (same ▸ hung)
    · simp
  | keep place =>
    constructor
    · exact fun j member => prompt.later j (by rw [place]; exact member)
    · simp

theorem prompt_outside (prompt : Prompt books state) (outside : Outside state after written) :
    Prompt (written.foldl Books.enter books) after := by
  cases outside with
  | quiet => exact ⟨prompt.later, prompt.now⟩
  | arrive => exact ⟨prompt.later, prompt.now⟩

def Faultless (notes : List (Note count)) : Prop := ∀ note ∈ notes, note.fault = false

def Complete (notes : List (Note count)) : Prop :=
  ∀ before i, before ++ [.dropped i] <+: notes → (booksOf before).announced i <+: (booksOf before).wrote i

structure Kept (notes : List (Note count)) (state : State count) : Prop where
  accounted : Accounted (booksOf notes) state
  silent : Silent notes state
  gone : ∀ i, (state.fds i).fd < 0 ↔ .dropped i ∈ notes
  prompt : Faultless notes → Prompt (booksOf notes) state
  complete : Faultless notes → Complete notes
  ends : Faultless notes → state.point ≠ .exited

theorem Silent.running (silent : Silent notes state) (fine : Faultless notes) : 0 ≤ state.wt := by
  by_contra negative
  obtain ⟨note, member, refused⟩ := silent.healthy (not_le.mp negative)
  have fault := fine note member
  cases note <;> simp_all [Note.refused, Note.fault]

theorem Complete.add (complete : Complete notes) (single : written.length ≤ 1)
    (new : ∀ i, written = [.dropped i] → (booksOf notes).announced i <+: (booksOf notes).wrote i) :
    Complete (notes ++ written) := by
  match written, single with
  | [], _ => rwa [List.append_nil]
  | [note], _ =>
    intro before i within
    rcases List.prefix_concat_iff.mp within with same | earlier
    · obtain ⟨rfl, last⟩ := List.append_inj' same rfl
      cases last
      exact new i rfl
    · exact complete before i earlier

theorem gone_move (gone : ∀ i, (state.fds i).fd < 0 ↔ .dropped i ∈ notes) (move : Move state after written) :
    ∀ i, (after.fds i).fd < 0 ↔ .dropped i ∈ notes ++ written := by
  intro j
  cases move with
  | @drop i todo place =>
    by_cases same : j = i
    · subst same
      simp
    · simpa [same] using gone j
  | _ => simpa [pollOne, State.setFifo] using gone j

theorem length_of_move (move : Move state after written) : written.length ≤ 1 := by
  cases move <;> simp

theorem goes_on (move : Move state after written) (fine : Faultless written) : after.point ≠ .exited := by
  cases move with
  | quit => cases fine _ (List.mem_singleton_self _)
  | put =>
    simp only
    split <;> simp
  | _ => simp

theorem kept_move (kept : Kept notes state) (move : Move state after written) : Kept (notes ++ written) after where
  accounted := booksOf_append notes written ▸ accounted_move kept.accounted move
  silent := silent_move kept.accounted kept.silent move
  gone := gone_move kept.gone move
  prompt fine := by
    have before : Faultless notes := fun note member => fine note (List.mem_append_left _ member)
    rw [booksOf_append]
    exact prompt_move kept.accounted (kept.prompt before) (kept.silent.running before) move
      fun note member => fine note (List.mem_append_right _ member)
  complete fine := by
    have before : Faultless notes := fun note member => fine note (List.mem_append_left _ member)
    apply (kept.complete before).add (length_of_move move)
    rintro i rfl
    cases move with
    | drop place hung => exact (kept.prompt before).now i _ place hung
  ends fine := goes_on move fun note member => fine note (List.mem_append_right _ member)

theorem kept_outside (kept : Kept notes state) (outside : Outside state after written) : Kept (notes ++ written) after where
  accounted := booksOf_append notes written ▸ accounted_outside kept.accounted outside
  silent := by
    cases outside with
    | quiet => exact kept.silent.add rfl (by simp) (by simp)
    | arrive => exact kept.silent.add rfl (by simp [Note.refused, Note.puts]) (by simp)
  gone i := by
    cases outside with
    | quiet => simpa [State.setFifo] using kept.gone i
    | arrive => simpa [State.setFifo] using kept.gone i
  prompt fine := by
    rw [booksOf_append]
    exact prompt_outside (kept.prompt fun note member => fine note (List.mem_append_left _ member)) outside
  complete fine := by
    have before := kept.complete fun note member => fine note (List.mem_append_left _ member)
    cases outside with
    | quiet => exact before.add (by simp) (by simp)
    | arrive => exact before.add (by simp) (by simp)
  ends fine := by
    have before := kept.ends fun note member => fine note (List.mem_append_left _ member)
    cases outside <;> exact before

theorem kept_start (count : Nat) : Kept [] (startState count) := by
  constructor
  case accounted => constructor <;> simp [booksOf, startState, pending]
  case silent => constructor <;> simp [startState]
  case gone =>
    intro i
    have positive := Int.natCast_nonneg i.val
    simp only [startState, List.not_mem_nil, iff_false]
    omega
  case prompt => exact fun _ => ⟨by simp [startState, ahead], by simp [startState]⟩
  case complete => simp [Complete]
  case ends => simp [startState]

variable {actions : List (Action count)}

theorem kept_run (run : (werecatMachine count).Run (startState count) actions notes state) : Kept notes state := by
  apply run.invariant Kept (kept_start count)
  intro notes state action after written kept step
  rcases move_or_outside step with move | outside
  · exact kept_move kept move
  · exact kept_outside kept outside

/-- The bytes of each FIFO come out in their order, and after a write that fails nothing
comes out any more. -/
theorem merge_keeps_order (run : (werecatMachine count).Run (startState count) actions notes state) :
    (∀ i, (booksOf notes).wrote i <+: (booksOf notes).arrived i) ∧
      notes.Pairwise (fun first second => first.refused = true → second.puts = false) := by
  have kept := kept_run run
  exact ⟨fun i => (List.prefix_append _ _).trans (kept.accounted.order i), kept.silent.silent⟩

/-- Without faults a FIFO is given up only after everything has been put out that had
arrived before the last `poll`. -/
theorem given_up_complete (run : (werecatMachine count).Run (startState count) actions notes state)
    (fine : Faultless notes) {before rest : List (Note count)} {i : Fin count}
    (given : notes = before ++ .dropped i :: rest) : (booksOf before).announced i <+: (booksOf before).wrote i :=
  (kept_run run).complete fine before i ⟨rest, by simp [given]⟩

def only : Fin 1 := ⟨0, Nat.one_pos⟩

def scheduleGreeting : List (Action 1) :=
  [.connect only, .arrive only [104, 105], .run (.moved 0), .run (.moved 0), .run (.moved 9), .run (.moved 0),
    .run (.moved 0), .run (.moved 0), .hangup only, .run (.moved 0), .run (.moved 0), .run (.moved 0), .run (.moved 0),
    .run (.moved 0)]

def greetingNotes : List (Note 1) := [.arrived only [104, 105], .polled, .wrote only [104], .wrote only [105], .polled]

theorem merge_keeps_order_greeting : ∃ final notes,
    (werecatMachine 1).Run (startState 1) scheduleGreeting notes final ∧
      (∀ i, (booksOf notes).wrote i <+: (booksOf notes).arrived i) ∧
        notes.Pairwise (fun first second => first.refused = true → second.puts = false) := by
  obtain ⟨final, notes, run, _⟩ := @Machine.exists_run_of_any _ _ _ (werecatMachine 1) scheduleGreeting (startState 1)
    (fun _ => true) (by decide)
  exact ⟨final, notes, run, merge_keeps_order run⟩

theorem given_up_complete_greeting : ∃ final,
    (werecatMachine 1).Run (startState 1) scheduleGreeting (greetingNotes ++ [.dropped only]) final ∧
      (booksOf greetingNotes).announced only <+: (booksOf greetingNotes).wrote only := by
  obtain ⟨final, run⟩ := @Machine.exists_run_of_notes _ _ _ (werecatMachine 1) scheduleGreeting (startState 1)
    (greetingNotes ++ [.dropped only]) (by decide)
  exact ⟨final, run, given_up_complete run (by unfold Faultless; decide) rfl⟩

end PosixC.Werecat
