import PosixC.Foundation.Chain
import PosixC.Foundation.Heap
import PosixC.Foundation.SizeT
import PosixC.Primes.Model

/-! The linked list of ex09/primes.

Every use of a pointer asks whether it points to a live node; where it does not,
the call has no result.
-/

set_option autoImplicit false

namespace PosixC.Primes.LinkedList

open Foundation

structure Node where
  next : Nat
  value : Int
  deriving DecidableEq, Repr

abbrev sizeofNode : Nat := 16

structure State where
  head : Nat
  tail : Nat
  size : Nat
  heap : Heap sizeofNode (2 ^ 64) Node
  freed : List Nat

def listInit (allocates : Bool) : Option State := if allocates then some ⟨0, 0, 0, Heap.empty, []⟩ else none

def listSize (list : State) : Nat := list.size

def listIsEmpty (list : State) : Bool := list.size == 0

/-- The node is placed at the candidate, if there is one that leaves room, and holds
anything at first. -/
def listPush (candidate : Option Nat) (garbage : Node) (list : State) (value : Int) : Option (Bool × State) :=
  match list.heap.place candidate sizeofNode garbage with
  | none => some (false, list)
  | some (node, heap) => do
      let heap ← heap.store node fun cell => { cell with value := value }
      let heap ← heap.store node fun cell => { cell with next := 0 }
      let (head, heap) ←
        if list.head = 0 then some (node, heap)
        else (heap.store list.tail fun cell => { cell with next := node }).map fun heap => (list.head, heap)
      some (true, { list with head := head, tail := node, size := SizeT.add list.size 1, heap := heap })

def free (list : State) (ptr : Nat) : Option State :=
  if ptr = 0 then some list
  else if list.heap.live ptr then some { list with heap := list.heap.release ptr, freed := list.freed ++ [ptr] }
  else none

/-- The result, and the value where one is wanted, which is where `value` is not NULL. -/
def listPop (wanted : Bool) (list : State) : Option (Bool × Option Int × State) :=
  if list.size = 0 then some (false, none, list)
  else do
    let rm := list.head
    let cell ← list.heap.load rm
    let tail := if cell.next = 0 then 0 else list.tail
    let stored ← if wanted then (list.heap.load rm).map fun cell => some cell.value else some none
    let list ← free { list with head := cell.next, tail := tail } rm
    some (true, stored, { list with size := SizeT.sub list.size 1 })

def popAll : Nat → State → Option State
  | 0, _ => none
  | calls + 1, list => do
      let (popped, _, list) ← listPop false list
      if popped then popAll calls list else some list

/-- The nodes that stay, and all that has been freed. -/
def listDestroy (list : State) : Option (Heap sizeofNode (2 ^ 64) Node × List Nat) :=
  (popAll (list.size + 1) list).map fun list => (list.heap, list.freed)

section Runs

inductive Call where
  | push (candidate : Option Nat) (garbage : Node) (value : Int)
  | pop (wanted : Bool)

inductive Entry where
  | pushed (value : Int) (success : Bool)
  | popped (wanted : Bool) (success : Bool) (stored : Option Int)
  deriving DecidableEq, Repr

def call (list : State) : Call → Option (Entry × State)
  | .push candidate garbage value =>
      (listPush candidate garbage list value).map fun (success, list) => (.pushed value success, list)
  | .pop wanted => (listPop wanted list).map fun (success, stored, list) => (.popped wanted success stored, list)

def run (list : State) : List Call → Option (List Entry × State)
  | [] => some ([], list)
  | first :: calls => do
      let (entry, list) ← call list first
      let (entries, list) ← run list calls
      some (entry :: entries, list)

def pushed (entries : List Entry) : List Int :=
  entries.filterMap fun
    | .pushed value true => some value
    | _ => none

def popped (entries : List Entry) : List (Bool × Option Int) :=
  entries.filterMap fun
    | .popped wanted true stored => some (wanted, stored)
    | _ => none

end Runs

section Chains

def cells (heap : Heap sizeofNode (2 ^ 64) Node) (address : Nat) : Option (Nat × Int) :=
  (heap.load address).map fun node => (node.next, node.value)

structure Represents (list : State) (nodes : List (Nat × Int)) : Prop where
  chain : Segment (cells list.heap) list.head nodes 0
  members : ∀ address, list.heap.live address = true ↔ address ∈ nodes.map Prod.fst
  tail : list.tail = (nodes.getLast?.map Prod.fst).getD 0
  size : list.size = nodes.length

variable {list : State} {nodes : List (Nat × Int)}

theorem cells_zero (heap : Heap sizeofNode (2 ^ 64) Node) : cells heap 0 = none := by
  rw [cells, heap.load_zero]
  rfl

theorem Represents.distinct (represents : Represents list nodes) : (nodes.map Prod.fst).Nodup :=
  represents.chain.nodup (cells_zero list.heap)

theorem Represents.nonzero (represents : Represents list nodes) {node : Nat × Int} (member : node ∈ nodes) :
    node.1 ≠ 0 := by
  intro zero
  obtain ⟨next, found⟩ := represents.chain.cell_of_mem member
  rw [zero, cells_zero] at found
  cases found

theorem chain_bound {heap : Heap sizeofNode (2 ^ 64) Node} {head : Nat} (chain : Segment (cells heap) head nodes 0) :
    nodes.length < 2 ^ 64 := by
  have live : ∀ address ∈ nodes.map Prod.fst, heap.live address = true := by
    intro address member
    obtain ⟨node, among, rfl⟩ := List.mem_map.mp member
    obtain ⟨next, found⟩ := chain.cell_of_mem among
    obtain ⟨cell, loaded, _⟩ := Option.map_eq_some_iff.mp found
    exact Heap.live_of_load loaded
  have room := Heap.length_mul_le (chain.nodup (cells_zero heap)) live
  rw [List.length_map, sizeofNode] at room
  omega

theorem listInit_represents {allocates : Bool} (created : listInit allocates = some list) : Represents list [] := by
  simp only [listInit, Option.ite_none_right_eq_some, Option.some.injEq] at created
  obtain ⟨_, rfl⟩ := created
  exact ⟨.here 0, fun address => by simp [Heap.live, Heap.find, Heap.empty], rfl, rfl⟩

theorem cells_write (heap : Heap sizeofNode (2 ^ 64) Node) {address : Nat} {next : Nat} {value : Int}
    (found : cells heap address = some (next, value)) (node other : Nat) :
    cells (heap.write address fun cell => { cell with next := node }) other =
      if other = address then some (node, value) else cells heap other := by
  obtain ⟨cell, loaded, same⟩ := Option.map_eq_some_iff.mp found
  cases same
  rw [cells, Heap.load_write]
  by_cases here : other = address
  · simp [here, loaded]
  · simp [here, cells]

def prepared (heap : Heap sizeofNode (2 ^ 64) Node) (node : Nat) (value : Int) : Heap sizeofNode (2 ^ 64) Node :=
  (heap.write node fun cell => { cell with value := value }).write node fun cell => { cell with next := 0 }

section Placed

variable {candidate : Option Nat} {garbage : Node} {value : Int} {heap : Heap sizeofNode (2 ^ 64) Node} {node : Nat}
  (placed : list.heap.place candidate sizeofNode garbage = some (node, heap))

include placed

theorem live_prepared (address : Nat) :
    (prepared heap node value).live address = true ↔ address = node ∨ list.heap.live address = true := by
  rw [prepared, Heap.live_write, Heap.live_write, Heap.live_of_place placed]

theorem cells_prepared (address : Nat) :
    cells (prepared heap node value) address = if address = node then some (0, value) else cells list.heap address := by
  simp only [cells, prepared, Heap.load_write, Heap.load_of_place placed]
  by_cases here : address = node <;> simp [here]

theorem listPush_first (empty : list.head = 0) : listPush candidate garbage list value =
    some (true, { list with
      head := node
      tail := node
      size := SizeT.add list.size 1
      heap := prepared heap node value }) := by
  have live : heap.live node = true := (Heap.live_of_place placed).mpr (Or.inl rfl)
  simp only [listPush, placed, Heap.store_of_live _ live, Option.bind_eq_bind, Option.bind_some,
    Heap.store_of_live _ (Heap.live_write.mpr live), if_pos empty, prepared]

theorem listPush_behind (linked : list.head ≠ 0) (live : list.heap.live list.tail = true) :
    listPush candidate garbage list value =
      some (true, { list with
        tail := node
        size := SizeT.add list.size 1
        heap := (prepared heap node value).write list.tail fun cell => { cell with next := node } }) := by
  have placedLive : heap.live node = true := (Heap.live_of_place placed).mpr (Or.inl rfl)
  have tailLive := (@live_prepared _ _ _ value _ _ placed list.tail).mpr (Or.inr live)
  simp only [listPush, placed, Heap.store_of_live _ placedLive, Option.bind_eq_bind, Option.bind_some,
    Heap.store_of_live _ (Heap.live_write.mpr placedLive), if_neg linked]
  rw [← prepared, Heap.store_of_live _ tailLive]
  rfl

theorem Represents.push (represents : Represents list nodes) :
    ∃ after, listPush candidate garbage list value = some (true, after) ∧
      Represents after (nodes ++ [(node, value)]) := by
  have fresh : list.heap.live node ≠ true := Heap.not_live_of_place (by decide) placed
  have away : ∀ other ∈ nodes, other.1 ≠ node := by
    intro other member same
    exact fresh (same ▸ (represents.members other.1).mpr (List.mem_map_of_mem member))
  have linked : cells (prepared heap node value) node = some (0, value) := by rw [cells_prepared placed, if_pos rfl]
  rcases List.eq_nil_or_concat' nodes with rfl | ⟨front, last, rfl⟩
  · have empty : list.head = 0 := Segment.nil_iff.mp represents.chain
    have chain : Segment (cells (prepared heap node value)) node [(node, value)] 0 := .link linked (.here 0)
    refine ⟨_, listPush_first placed empty, chain, fun address => ?_, rfl, ?_⟩
    · simp [live_prepared placed, represents.members]
    · rw [represents.size]
      rfl
  -- The last node is the one that the new node is linked to.
  · have tail : list.tail = last.1 := by simpa using represents.tail
    have member : last ∈ front ++ [last] := List.mem_append_right _ List.mem_cons_self
    have live : list.heap.live list.tail = true :=
      tail ▸ (represents.members last.1).mpr (List.mem_map_of_mem member)
    have nonempty : list.head ≠ 0 := fun zero => List.append_ne_nil_of_right_ne_nil _ (List.cons_ne_nil _ _)
      ((represents.chain.eq_nil_iff (cells_zero _)).mpr zero)
    have kept : ∀ other ∈ front ++ [last], cells (prepared heap node value) other.1 = cells list.heap other.1 :=
      fun other among => by rw [cells_prepared placed, if_neg (away other among)]
    have ends : cells (prepared heap node value) list.tail = some (0, last.2) := by
      obtain ⟨middle, _, after⟩ := Segment.append_iff.mp represents.chain
      obtain ⟨rfl, next, found, finish⟩ := Segment.cons_iff.mp after
      rw [tail, kept last member, found, Segment.nil_iff.mp finish]
    have content := fun other => cells_write (prepared heap node value) ends node other
    have distinct : ∀ other ∈ front, other.1 ≠ last.1 := by
      have nodup := represents.distinct
      rw [List.map_append, List.nodup_append] at nodup
      exact fun other among => nodup.2.2 other.1 (List.mem_map_of_mem among) last.1 (List.mem_singleton_self _)
    have chain : Segment (cells ((prepared heap node value).write list.tail fun cell => { cell with next := node }))
        list.head (front ++ [last] ++ [(node, value)]) 0 := by
      refine represents.chain.snoc (fun other among => ?_) ?_ ?_
      · rw [content, if_neg (tail ▸ distinct other among), kept other (List.mem_append_left _ among)]
      · rw [content, if_pos tail.symm]
      · rw [content, if_neg (tail ▸ (away last member).symm), linked]
    have length := chain_bound chain
    refine ⟨_, listPush_behind placed nonempty live, chain, fun address => ?_, ?_, ?_⟩
    · rw [Heap.live_write, live_prepared placed, represents.members, or_comm]
      simp [or_assoc]
    · simp
    · rw [List.length_append] at length ⊢
      rw [represents.size]
      exact SizeT.add_exact length

end Placed

theorem listPop_empty (represents : Represents list []) (wanted : Bool) :
    listPop wanted list = some (false, none, list) :=
  if_pos represents.size

theorem listPop_filled {cell : Node} (filled : list.size ≠ 0) (nonzero : list.head ≠ 0)
    (loaded : list.heap.load list.head = some cell) (wanted : Bool) :
    listPop wanted list = some (true, (if wanted then some cell.value else none),
      { head := cell.next
        tail := if cell.next = 0 then 0 else list.tail
        size := SizeT.sub list.size 1
        heap := list.heap.release list.head
        freed := list.freed ++ [list.head] }) := by
  have live := Heap.live_of_load loaded
  cases wanted <;>
    simp only [listPop, if_neg filled, loaded, free, if_neg nonzero, live, if_true, Option.bind_eq_bind,
      Option.bind_some, Option.map_some, Bool.false_eq_true, if_false]

theorem Represents.pop {address : Nat} {value : Int} (represents : Represents list ((address, value) :: nodes))
    (wanted : Bool) :
    ∃ after, listPop wanted list = some (true, (if wanted then some value else none), after) ∧ Represents after nodes ∧
      after.freed = list.freed ++ [address] := by
  obtain ⟨rfl, next, found, rest⟩ := Segment.cons_iff.mp represents.chain
  obtain ⟨cell, loaded, content⟩ := Option.map_eq_some_iff.mp found
  cases content
  have filled : list.size ≠ 0 := by simp [represents.size]
  have distinct := represents.distinct
  rw [List.map_cons, List.nodup_cons] at distinct
  refine ⟨_, listPop_filled filled (represents.nonzero (.head _)) loaded wanted, ⟨?_, fun address => ?_, ?_, ?_⟩, rfl⟩
  · apply rest.congr
    intro other member
    have away : other.1 ≠ list.head := by
      intro same
      apply distinct.1
      rw [← same]
      exact List.mem_map.mpr ⟨other, member, rfl⟩
    rw [cells, Heap.load_release, if_neg away, cells]
  · rw [Heap.live_release, represents.members, List.map_cons, List.mem_cons]
    constructor
    · rintro ⟨same | later, away⟩
      · exact absurd same away
      · exact later
    · intro later
      exact ⟨Or.inr later, fun same => distinct.1 (same ▸ later)⟩
  · have ended := rest.eq_nil_iff (cells_zero _)
    by_cases last : cell.next = 0
    · rw [if_pos last, ended.mpr last]
      rfl
    · rw [if_neg last, represents.tail]
      cases nodes with
      | nil => exact absurd (ended.mp rfl) last
      | cons node nodes => rw [List.getLast?_cons_cons]
  · rw [represents.size, List.length_cons, SizeT.sub_exact (Nat.le_add_left 1 _), Nat.add_sub_cancel]

/-- What a caller may rely on. -/
structure WellFormed (list : State) (nodes : List (Nat × Int)) : Prop where
  chain : Segment (cells list.heap) list.head nodes 0
  size : listSize list = nodes.length
  isEmpty : listIsEmpty list = true ↔ nodes = []
  empty : (list.head = 0 ↔ list.tail = 0) ∧ (list.tail = 0 ↔ list.size = 0)
  last : ∀ node ∈ nodes.getLast?, list.tail = node.1 ∧ cells list.heap node.1 = some (0, node.2)
  members : ∀ address, list.heap.live address = true ↔ address ∈ nodes.map Prod.fst
  distinct : (nodes.map Prod.fst).Nodup

theorem Represents.wellFormed (represents : Represents list nodes) : WellFormed list nodes := by
  refine ⟨represents.chain, represents.size, ?_, ?_, ?_, represents.members, represents.distinct⟩
  · rw [listIsEmpty, represents.size, beq_iff_eq, List.length_eq_zero_iff]
  · rcases List.eq_nil_or_concat' nodes with rfl | ⟨front, last, rfl⟩
    · have head : list.head = 0 := Segment.nil_iff.mp represents.chain
      simp [represents.tail, represents.size, head]
    · have member : last ∈ front ++ [last] := List.mem_append_right _ List.mem_cons_self
      have head : list.head ≠ 0 := fun zero => List.append_ne_nil_of_right_ne_nil _ (List.cons_ne_nil _ _)
        ((represents.chain.eq_nil_iff (cells_zero _)).mpr zero)
      simp [represents.tail, represents.size, head, represents.nonzero member]
  · intro node last
    obtain ⟨front, rfl⟩ := List.getLast?_eq_some_iff.mp last
    obtain ⟨middle, _, after⟩ := Segment.append_iff.mp represents.chain
    obtain ⟨rfl, next, found, finish⟩ := Segment.cons_iff.mp after
    exact ⟨by simp [represents.tail], Segment.nil_iff.mp finish ▸ found⟩

theorem Represents.popAll (represents : Represents list nodes) :
    ∃ after, popAll (nodes.length + 1) list = some after ∧ Represents after [] ∧
      after.freed = list.freed ++ nodes.map Prod.fst := by
  induction nodes generalizing list with
  | nil =>
    refine ⟨list, ?_, represents, (List.append_nil _).symm⟩
    simp only [LinkedList.popAll, listPop_empty represents, Option.bind_eq_bind, Option.bind_some]
    rfl
  | cons node nodes ih =>
    obtain ⟨address, value⟩ := node
    obtain ⟨next, result, rest, freed⟩ := represents.pop false
    obtain ⟨after, drained, empty, all⟩ := ih rest
    refine ⟨after, ?_, empty, ?_⟩
    · rw [List.length_cons, LinkedList.popAll, result]
      exact drained
    · rw [all, freed, List.append_assoc]
      rfl

theorem listDestroy_eq (represents : Represents list nodes) :
    ∃ heap, listDestroy list = some (heap, list.freed ++ nodes.map Prod.fst) ∧ heap.blocks = [] := by
  obtain ⟨after, drained, empty, freed⟩ := represents.popAll
  refine ⟨after.heap, ?_, ?_⟩
  · rw [listDestroy, represents.size, drained, ← freed]
    rfl
  · apply List.eq_nil_iff_forall_not_mem.mpr
    intro block member
    exact absurd ((empty.members block.base).mp (Heap.live_iff.mpr ⟨block, member, rfl⟩)) List.not_mem_nil

theorem call_spec (represents : Represents list nodes) (next : Call) :
    ∃ entry after nodes' taken, call list next = some (entry, after) ∧ Represents after nodes' ∧
      nodes.map Prod.snd ++ pushed [entry] = taken ++ nodes'.map Prod.snd ∧
      List.Forall₂ (fun value pop => pop.2 = if pop.1 then some value else none) taken (popped [entry]) := by
  cases next with
  | push candidate garbage value =>
    cases placed : list.heap.place candidate sizeofNode garbage with
    | none =>
      refine ⟨.pushed value false, list, nodes, [], ?_, represents, by simp [pushed], .nil⟩
      simp [call, listPush, placed]
    | some result =>
      obtain ⟨node, heap⟩ := result
      obtain ⟨after, succeeds, longer⟩ := @Represents.push _ _ _ _ value _ _ placed represents
      refine ⟨.pushed value true, after, nodes ++ [(node, value)], [], ?_, longer, by simp [pushed], .nil⟩
      simp [call, succeeds]
  | pop wanted =>
    cases nodes with
    | nil =>
      refine ⟨.popped wanted false none, list, [], [], ?_, represents, rfl, .nil⟩
      simp [call, listPop_empty represents]
    | cons node nodes =>
      obtain ⟨after, succeeds, shorter, _⟩ := represents.pop wanted
      refine ⟨.popped wanted true (if wanted then some node.2 else none), after, nodes, [node.2], ?_, shorter, ?_, ?_⟩
      · simp [call, succeeds]
      · simp [pushed]
      · exact .cons rfl .nil

theorem run_spec (represents : Represents list nodes) (calls : List Call) :
    ∃ entries after nodes' taken, run list calls = some (entries, after) ∧ Represents after nodes' ∧
      nodes.map Prod.snd ++ pushed entries = taken ++ nodes'.map Prod.snd ∧
      List.Forall₂ (fun value pop => pop.2 = if pop.1 then some value else none) taken (popped entries) := by
  induction calls generalizing list nodes with
  | nil => exact ⟨[], list, nodes, [], rfl, represents, List.append_nil _, .nil⟩
  | cons first calls ih =>
    obtain ⟨entry, middle, nodes', taken, called, later, values, stored⟩ := call_spec represents first
    obtain ⟨entries, after, nodes'', taken', ran, last, values', stored'⟩ := ih later
    refine ⟨entry :: entries, after, nodes'', taken ++ taken', ?_, last, ?_, ?_⟩
    · simp [run, called, ran]
    · calc nodes.map Prod.snd ++ pushed (entry :: entries)
          = nodes.map Prod.snd ++ (pushed [entry] ++ pushed entries) := by
            rw [← List.singleton_append, pushed, List.filterMap_append]
            rfl
        _ = taken ++ (nodes'.map Prod.snd ++ pushed entries) := by
            rw [← List.append_assoc, values, List.append_assoc]
        _ = taken ++ taken' ++ nodes''.map Prod.snd := by rw [values', List.append_assoc]
    · rw [← List.singleton_append, popped, List.filterMap_append]
      exact List.rel_append stored stored'

theorem listPop_succeeds_iff (represents : Represents list nodes) (wanted : Bool) :
    ∃ success stored after, listPop wanted list = some (success, stored, after) ∧ (success = true ↔ nodes ≠ []) := by
  cases nodes with
  | nil => exact ⟨false, none, list, listPop_empty represents wanted, by simp⟩
  | cons node nodes =>
    obtain ⟨after, succeeds, _⟩ := represents.pop wanted
    exact ⟨true, _, after, succeeds, by simp⟩

theorem listPush_unchanged (represents : Represents list nodes) {candidate : Option Nat} {garbage : Node} {value : Int}
    {unchanged : State} (fails : listPush candidate garbage list value = some (false, unchanged)) :
    unchanged = list := by
  cases placed : list.heap.place candidate sizeofNode garbage with
  | none =>
    simp only [listPush, placed, Option.some.injEq, Prod.mk.injEq, true_and] at fails
    exact fails.symm
  | some result =>
    obtain ⟨next, succeeds, _⟩ := @Represents.push _ _ _ _ value _ _ placed represents
    rw [succeeds] at fails
    cases fails

theorem listPush_succeeds_iff (represents : Represents list nodes) (candidate : Option Nat) (garbage : Node) (value : Int) :
    ∃ success after, listPush candidate garbage list value = some (success, after) ∧
      (success = true ↔ (list.heap.place candidate sizeofNode garbage).isSome = true) := by
  cases placed : list.heap.place candidate sizeofNode garbage with
  | none => exact ⟨false, list, by simp [listPush, placed], by simp⟩
  | some result =>
    obtain ⟨after, succeeds, _⟩ := @Represents.push _ _ _ _ value _ _ placed represents
    exact ⟨true, after, succeeds, by simp⟩

/-- The list is a queue, whatever calls are made and whichever allocations fail. -/
theorem list_fifo {allocates : Bool} (created : listInit allocates = some list) (calls : List Call) :
    ∃ entries after nodes taken, run list calls = some (entries, after) ∧ WellFormed after nodes ∧
      (pushed entries = taken ++ nodes.map Prod.snd ∧
        List.Forall₂ (fun value pop => pop.2 = if pop.1 then some value else none) taken (popped entries)) ∧
      (∀ wanted, ∃ success stored next, listPop wanted after = some (success, stored, next) ∧
        (success = true ↔ nodes ≠ [])) ∧
      (∀ candidate garbage value, ∃ success next, listPush candidate garbage after value = some (success, next) ∧
        (success = true ↔ (after.heap.place candidate sizeofNode garbage).isSome = true)) ∧
      (∀ candidate garbage value unchanged, listPush candidate garbage after value = some (false, unchanged) →
        unchanged = after) ∧
      ∃ heap, listDestroy after = some (heap, after.freed ++ nodes.map Prod.fst) ∧ heap.blocks = [] := by
  obtain ⟨entries, after, nodes, taken, ran, represents, values, stored⟩ := run_spec (listInit_represents created) calls
  exact ⟨entries, after, nodes, taken, ran, represents.wellFormed, ⟨values, stored⟩, listPop_succeeds_iff represents,
    listPush_succeeds_iff represents, fun _ _ _ _ => listPush_unchanged represents, listDestroy_eq represents⟩

theorem list_fifo_two : ∃ entries after, run ⟨0, 0, 0, Heap.empty, []⟩
    [.push (some 64) ⟨7, 7⟩ 2, .push none ⟨0, 0⟩ 3, .push (some 32) ⟨7, 7⟩ 5, .pop true] = some (entries, after) ∧
      ∃ nodes, WellFormed after nodes := by
  obtain ⟨entries, after, nodes, _, ran, wellFormed, _⟩ := list_fifo (show listInit true = _ from rfl)
    [.push (some 64) ⟨7, 7⟩ 2, .push none ⟨0, 0⟩ 3, .push (some 32) ⟨7, 7⟩ 5, .pop true]
  exact ⟨entries, after, ran, nodes, wellFormed⟩

example : (run ⟨0, 0, 0, Heap.empty, []⟩
    [.push (some 64) ⟨7, 7⟩ 2, .push none ⟨0, 0⟩ 3, .push (some 32) ⟨7, 7⟩ 5, .pop true]).map Prod.fst =
      some [.pushed 2 true, .pushed 3 false, .pushed 5 true, .popped true true (some 2)] := by decide +kernel

end Chains

section Refinement

variable {producers consumers : Nat} {list : State} {shared : Shared producers consumers}

def Refines (list : State) (shared : Shared producers consumers) : Prop :=
  ∃ nodes, Represents list nodes ∧ nodes.map Prod.snd = shared.list.map Int.ofNat

theorem listInit_refines {allocates : Bool} (created : listInit allocates = some list) (none : shared.list = []) :
    Refines list shared :=
  ⟨[], listInit_represents created, by rw [none]; rfl⟩

theorem listIsEmpty_refines (refines : Refines list shared) : listIsEmpty list = Primes.listIsEmpty shared := by
  obtain ⟨nodes, represents, same⟩ := refines
  have lengths := congrArg List.length same
  rw [List.length_map, List.length_map] at lengths
  rw [listIsEmpty, Primes.listIsEmpty, represents.size, lengths]

theorem listPush_refines (refines : Refines list shared) (candidate : Option Nat) (garbage : Node) (value : Nat) :
    ∃ success after, listPush candidate garbage list value = some (success, after) ∧
      Refines after ((Primes.listPush success shared value).getD shared) := by
  obtain ⟨nodes, represents, same⟩ := refines
  cases placed : list.heap.place candidate sizeofNode garbage with
  | none => exact ⟨false, list, by simp [listPush, placed], nodes, represents, same⟩
  | some result =>
    obtain ⟨after, succeeds, longer⟩ := @Represents.push _ _ _ _ value _ _ placed represents
    exact ⟨true, after, succeeds, _, longer, by simp [Primes.listPush, same]⟩

theorem listPop_refines (refines : Refines list shared) (wanted : Bool) :
    ∃ stored after, listPop wanted list = some ((Primes.listPop shared).isSome, stored, after) ∧
      Refines after ((Primes.listPop shared).getD shared) := by
  obtain ⟨nodes, represents, same⟩ := refines
  cases nodes with
  | nil =>
    have empty : shared.list = [] := by simpa using same.symm
    refine ⟨none, list, ?_, [], ?_⟩
    · simp [listPop_empty represents, Primes.listPop, empty]
    · simp [Primes.listPop, empty, represents]
  | cons node nodes =>
    obtain ⟨after, succeeds, shorter, _⟩ := represents.pop wanted
    obtain ⟨value, rest, filled, _, later⟩ := List.map_eq_cons_iff.mp same.symm
    refine ⟨if wanted then some node.2 else none, after, ?_, nodes, shorter, ?_⟩
    · simpa [Primes.listPop, filled] using succeeds
    · simp [Primes.listPop, filled, later]

end Refinement
end PosixC.Primes.LinkedList
