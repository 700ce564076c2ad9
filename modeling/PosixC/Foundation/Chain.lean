import Mathlib.Data.List.Nodup
import Mathlib.Data.List.Basic

/-! Linked chains of cells.

A cell holds a link and a value; what has no cell ends every chain. A chain is
determined by where it starts, so it cannot come back to one of its cells.
-/

set_option autoImplicit false

namespace PosixC.Foundation

variable {Address Value : Type}

/-- The cells passed on the way from one address to another, with their values. -/
inductive Segment (cell : Address → Option (Address × Value)) : Address → List (Address × Value) → Address → Prop where
  | here (start : Address) : Segment cell start [] start
  | link {start next finish : Address} {value : Value} {rest : List (Address × Value)} :
      cell start = some (next, value) → Segment cell next rest finish →
        Segment cell start ((start, value) :: rest) finish

namespace Segment

variable {cell cell' : Address → Option (Address × Value)} {start finish : Address}
  {first rest nodes : List (Address × Value)}

theorem nil_iff : Segment cell start [] finish ↔ start = finish := by
  constructor
  · intro segment
    cases segment
    rfl
  · rintro rfl
    exact .here start

theorem cons_iff {address : Address} {value : Value} : Segment cell start ((address, value) :: rest) finish ↔
    start = address ∧ ∃ next, cell start = some (next, value) ∧ Segment cell next rest finish := by
  constructor
  · intro segment
    cases segment with
    | link found later => exact ⟨rfl, _, found, later⟩
  · rintro ⟨rfl, next, found, later⟩
    exact .link found later

theorem append_iff : Segment cell start (first ++ rest) finish ↔
    ∃ middle, Segment cell start first middle ∧ Segment cell middle rest finish := by
  induction first generalizing start with
  | nil =>
    constructor
    · intro segment
      exact ⟨start, .here start, segment⟩
    · rintro ⟨middle, before, after⟩
      rwa [nil_iff.mp before]
  | cons node first ih =>
    obtain ⟨address, value⟩ := node
    simp only [List.cons_append, cons_iff, ih]
    constructor
    · rintro ⟨same, next, found, middle, before, after⟩
      exact ⟨middle, ⟨same, next, found, before⟩, after⟩
    · rintro ⟨middle, ⟨same, next, found, before⟩, after⟩
      exact ⟨same, next, found, middle, before, after⟩

theorem congr (segment : Segment cell start nodes finish) (same : ∀ node ∈ nodes, cell' node.1 = cell node.1) :
    Segment cell' start nodes finish := by
  induction segment with
  | here start => exact .here start
  | link found later ih =>
    refine .link ?_ (ih fun node member => same node (.tail _ member))
    rw [← found]
    exact same _ (.head _)

theorem cell_of_mem (segment : Segment cell start nodes finish) {node : Address × Value} (member : node ∈ nodes) :
    ∃ next, cell node.1 = some (next, node.2) := by
  induction segment with
  | here start => cases member
  | link found later ih =>
    rcases List.mem_cons.mp member with rfl | among
    · exact ⟨_, found⟩
    · exact ih among

section Ends

variable (ends : cell finish = none)

include ends

theorem eq_nil_iff (segment : Segment cell start nodes finish) : nodes = [] ↔ start = finish := by
  cases segment with
  | here start => exact iff_of_true rfl rfl
  | link found later =>
    apply iff_of_false (List.cons_ne_nil _ _)
    rintro rfl
    rw [ends] at found
    cases found

/-- Only one chain goes from an address to the end. -/
theorem unique (segment : Segment cell start first finish) (other : Segment cell start rest finish) : first = rest := by
  induction segment generalizing rest with
  | here start => exact ((other.eq_nil_iff ends).mpr rfl).symm
  | link found later ih =>
    cases other with
    | here start =>
      rw [ends] at found
      cases found
    | link found' later' =>
      rw [found, Option.some.injEq, Prod.mk.injEq] at found'
      obtain ⟨rfl, rfl⟩ := found'
      rw [ih ends later']

/-- A cell that came back would start two chains of different lengths. -/
theorem nodup (segment : Segment cell start nodes finish) : (nodes.map Prod.fst).Nodup := by
  induction segment with
  | here start => exact List.nodup_nil
  | @link start next finish value rest found later ih =>
    rw [List.map_cons, List.nodup_cons]
    refine ⟨fun again => ?_, ih ends⟩
    obtain ⟨⟨address, value'⟩, member, same⟩ := List.mem_map.mp again
    obtain ⟨before, after, rfl⟩ := List.append_of_mem member
    obtain ⟨middle, _, second⟩ := append_iff.mp later
    obtain rfl : middle = address := (cons_iff.mp second).1
    obtain rfl : middle = start := same
    have lengths := congrArg List.length (unique ends (.link found later) second)
    simp only [List.length_cons, List.length_append] at lengths
    omega

end Ends

/-- A cell behind the last one, which is linked to it, makes the chain longer. -/
theorem snoc {last node finish' : Address} {value value' : Value}
    (segment : Segment cell start (first ++ [(last, value)]) finish)
    (same : ∀ node ∈ first, cell' node.1 = cell node.1) (linked : cell' last = some (node, value))
    (placed : cell' node = some (finish', value')) :
    Segment cell' start (first ++ [(last, value)] ++ [(node, value')]) finish' := by
  obtain ⟨middle, before, after⟩ := append_iff.mp segment
  obtain ⟨rfl, _, _, _⟩ := cons_iff.mp after
  rw [List.append_assoc]
  exact append_iff.mpr ⟨middle, before.congr same, .link linked (.link placed (.here finish'))⟩

end Segment
end PosixC.Foundation
