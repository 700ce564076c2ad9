import Mathlib.Algebra.BigOperators.Group.List.Basic
import Mathlib.Algebra.GroupWithZero.Nat
import Mathlib.Algebra.Order.BigOperators.Group.List
import Mathlib.Algebra.Order.Group.Nat
import Mathlib.Data.Finset.Card
import Mathlib.Order.Interval.Finset.Nat

/-! The blocks an allocator has handed out.

Blocks do not overlap and stay below an upper limit of the address space. Every
block occupies at least one grain, so that different blocks start at different
addresses even when one of them is empty.
-/

set_option autoImplicit false

namespace PosixC.Foundation

structure Block (α : Type) where
  base : Nat
  length : Nat
  data : α

namespace Block

variable {α : Type}

def extent (grain : Nat) (block : Block α) : Nat := max block.length grain

def Apart (grain : Nat) (first second : Block α) : Prop :=
  first.base + first.extent grain ≤ second.base ∨ second.base + second.extent grain ≤ first.base

instance (grain : Nat) (first second : Block α) : Decidable (Apart grain first second) :=
  inferInstanceAs (Decidable (_ ∨ _))

theorem Apart.symm {grain : Nat} {first second : Block α} (apart : Apart grain first second) :
    Apart grain second first :=
  Or.symm apart

instance (grain : Nat) : Std.Symm (Apart grain : Block α → Block α → Prop) where
  symm _ _ := Apart.symm

def addresses (grain : Nat) (block : Block α) : Finset Nat :=
  Finset.Ico block.base (block.base + block.extent grain)

theorem card_addresses (grain : Nat) (block : Block α) : (block.addresses grain).card = block.extent grain := by
  simp [addresses]

theorem Apart.disjoint {grain : Nat} {first second : Block α} (apart : Apart grain first second) :
    Disjoint (first.addresses grain) (second.addresses grain) := by
  apply Finset.disjoint_left.mpr
  intro address left right
  simp only [addresses, Finset.mem_Ico] at left right
  rcases apart with below | above <;> omega

end Block

/-- The live blocks, the latest one first. The address zero is no block's. -/
structure Heap (grain limit : Nat) (α : Type) where
  blocks : List (Block α)
  apart : blocks.Pairwise (Block.Apart grain)
  inside : ∀ block ∈ blocks, 0 < block.base ∧ block.base + block.extent grain ≤ limit

namespace Heap

variable {grain limit : Nat} {α : Type}

def empty : Heap grain limit α := ⟨[], List.Pairwise.nil, by simp⟩

def find (heap : Heap grain limit α) (base : Nat) : Option (Block α) :=
  heap.blocks.find? fun block => block.base = base

def live (heap : Heap grain limit α) (base : Nat) : Bool := (heap.find base).isSome

def Room (heap : Heap grain limit α) (base length : Nat) : Prop :=
  0 < base ∧ base + max length grain ≤ limit ∧
    ∀ block ∈ heap.blocks, base + max length grain ≤ block.base ∨ block.base + block.extent grain ≤ base

instance (heap : Heap grain limit α) (base length : Nat) : Decidable (heap.Room base length) :=
  inferInstanceAs (Decidable (_ ∧ _ ∧ _))

def insert (heap : Heap grain limit α) (block : Block α) (room : heap.Room block.base block.length) :
    Heap grain limit α where
  blocks := block :: heap.blocks
  apart := List.pairwise_cons.mpr ⟨fun other member => room.2.2 other member, heap.apart⟩
  inside := by
    intro other member
    rcases List.mem_cons.mp member with rfl | below
    · exact ⟨room.1, room.2.1⟩
    · exact heap.inside other below

/-- An address that leaves no room is refused. -/
def place (heap : Heap grain limit α) (candidate : Option Nat) (length : Nat) (data : α) :
    Option (Nat × Heap grain limit α) :=
  match candidate with
  | none => none
  | some base =>
      if room : heap.Room base length then some (base, heap.insert ⟨base, length, data⟩ room) else none

def release (heap : Heap grain limit α) (base : Nat) : Heap grain limit α where
  blocks := heap.blocks.filter fun block => block.base ≠ base
  apart := heap.apart.filter _
  inside := fun block member => heap.inside block (List.mem_of_mem_filter member)

def write (heap : Heap grain limit α) (base : Nat) (change : α → α) : Heap grain limit α where
  blocks := heap.blocks.map fun block =>
    ⟨block.base, block.length, if block.base = base then change block.data else block.data⟩
  apart := List.pairwise_map.mpr heap.apart
  inside := by
    intro block member
    obtain ⟨old, among, rfl⟩ := List.mem_map.mp member
    exact heap.inside old among

section Members

variable (heap : Heap grain limit α) {base : Nat} {block other : Block α}

theorem mem_release : block ∈ (heap.release base).blocks ↔ block ∈ heap.blocks ∧ block.base ≠ base := by
  simp [release]

theorem mem_write {change : α → α} : block ∈ (heap.write base change).blocks ↔
    ∃ old ∈ heap.blocks, block = ⟨old.base, old.length, if old.base = base then change old.data else old.data⟩ := by
  simp [write, eq_comm]

theorem mem_write_self (change : α → α) (member : block ∈ heap.blocks) :
    ⟨block.base, block.length, change block.data⟩ ∈ (heap.write block.base change).blocks :=
  heap.mem_write.mpr ⟨block, member, by rw [if_pos rfl]⟩

theorem mem_write_of_ne {change : α → α} (member : block ∈ heap.blocks) (away : block.base ≠ base) :
    block ∈ (heap.write base change).blocks :=
  heap.mem_write.mpr ⟨block, member, by rw [if_neg away]⟩

theorem mem_of_place {candidate : Option Nat} {length : Nat} {data : α} {after : Heap grain limit α}
    (placed : heap.place candidate length data = some (base, after)) :
    candidate = some base ∧ heap.Room base length ∧
      ∀ block, block ∈ after.blocks ↔ block = ⟨base, length, data⟩ ∨ block ∈ heap.blocks := by
  unfold place at placed
  split at placed
  · cases placed
  · next address =>
    split at placed
    · next room =>
      cases placed
      exact ⟨rfl, room, fun block => List.mem_cons⟩
    · cases placed

variable {heap}

theorem find_some (found : heap.find base = some block) : block ∈ heap.blocks ∧ block.base = base :=
  ⟨List.mem_of_find?_eq_some found, by simpa using List.find?_some found⟩

theorem live_iff : heap.live base = true ↔ ∃ block ∈ heap.blocks, block.base = base := by
  simp [live, find]

theorem eq_of_base (positive : 0 < grain) (first : block ∈ heap.blocks) (second : other ∈ heap.blocks)
    (same : block.base = other.base) : block = other := by
  by_contra different
  have apart := heap.apart.forall first second different
  have sizes : grain ≤ block.extent grain ∧ grain ≤ other.extent grain := ⟨le_max_right _ _, le_max_right _ _⟩
  rcases apart with below | above <;> omega

theorem find_of_mem (positive : 0 < grain) (member : block ∈ heap.blocks) : heap.find block.base = some block := by
  cases found : heap.find block.base with
  | none => simpa using List.find?_eq_none.mp found block member
  | some other =>
    obtain ⟨among, same⟩ := find_some found
    rw [eq_of_base positive among member same]

theorem Room.fresh {length : Nat} (positive : 0 < grain) (room : heap.Room base length) (member : block ∈ heap.blocks) :
    block.base ≠ base := by
  have sizes : grain ≤ block.extent grain ∧ grain ≤ max length grain := ⟨le_max_right _ _, le_max_right _ _⟩
  have apart := room.2.2 block member
  omega

end Members

section Live

variable {heap after : Heap grain limit α} {base other : Nat}

theorem live_release : (heap.release base).live other = true ↔ heap.live other = true ∧ other ≠ base := by
  simp only [live_iff, mem_release]
  constructor
  · rintro ⟨block, ⟨member, different⟩, rfl⟩
    exact ⟨⟨block, member, rfl⟩, different⟩
  · rintro ⟨⟨block, member, rfl⟩, different⟩
    exact ⟨block, ⟨member, different⟩, rfl⟩

theorem live_write {change : α → α} : (heap.write base change).live other = true ↔ heap.live other = true := by
  simp only [live_iff, mem_write]
  constructor
  · rintro ⟨block, ⟨old, member, rfl⟩, rfl⟩
    exact ⟨old, member, rfl⟩
  · rintro ⟨old, member, rfl⟩
    exact ⟨_, ⟨old, member, rfl⟩, rfl⟩

variable {candidate : Option Nat} {length : Nat} {data : α}

theorem live_of_place (placed : heap.place candidate length data = some (base, after)) :
    after.live other = true ↔ other = base ∨ heap.live other = true := by
  obtain ⟨_, _, members⟩ := mem_of_place heap placed
  simp only [live_iff, members]
  constructor
  · rintro ⟨block, rfl | member, rfl⟩
    · exact Or.inl rfl
    · exact Or.inr ⟨block, member, rfl⟩
  · rintro (rfl | ⟨block, member, rfl⟩)
    · exact ⟨_, Or.inl rfl, rfl⟩
    · exact ⟨block, Or.inr member, rfl⟩

theorem not_live_of_place (positive : 0 < grain) (placed : heap.place candidate length data = some (base, after)) :
    heap.live base ≠ true := by
  obtain ⟨_, room, _⟩ := mem_of_place heap placed
  intro live
  obtain ⟨block, member, same⟩ := live_iff.mp live
  exact room.fresh positive member same

theorem bound_of_live (live : heap.live base = true) : 0 < base ∧ base + grain ≤ limit := by
  obtain ⟨block, member, rfl⟩ := live_iff.mp live
  have inside := heap.inside block member
  have large : grain ≤ block.extent grain := le_max_right _ _
  omega

end Live

section Cells

def load (heap : Heap grain limit α) (base : Nat) : Option α := (heap.find base).map Block.data

def store (heap : Heap grain limit α) (base : Nat) (change : α → α) : Option (Heap grain limit α) :=
  if heap.live base then some (heap.write base change) else none

variable {heap after : Heap grain limit α} {base other : Nat} {data : α}

theorem live_of_load (loaded : heap.load base = some data) : heap.live base = true := by
  obtain ⟨block, found, _⟩ := Option.map_eq_some_iff.mp loaded
  rw [live, found]
  rfl

theorem load_eq_none_iff : heap.load base = none ↔ ¬ heap.live base = true := by
  rw [load, live, Option.map_eq_none_iff, Bool.not_eq_true, Option.isSome_eq_false_iff, Option.isNone_iff_eq_none]

theorem store_of_live (change : α → α) (live : heap.live base = true) :
    heap.store base change = some (heap.write base change) :=
  if_pos live

theorem load_write (change : α → α) :
    (heap.write base change).load other = if other = base then (heap.load other).map change else heap.load other := by
  simp only [load, find, write, List.find?_map, Function.comp_def, Option.map_map]
  cases found : heap.blocks.find? fun block => block.base = other with
  | none => simp
  | some block =>
    obtain rfl : block.base = other := by simpa using List.find?_some found
    simp only [Option.map_some, apply_ite some]

theorem load_release : (heap.release base).load other = if other = base then none else heap.load other := by
  simp only [load, find, release, List.find?_filter]
  by_cases same : other = base
  · simp [same]
  · rw [if_neg same]
    congr 2
    funext block
    by_cases here : block.base = other <;> simp [here, same]

theorem load_of_place {candidate : Option Nat} {length : Nat}
    (placed : heap.place candidate length data = some (base, after)) :
    after.load other = if other = base then some data else heap.load other := by
  unfold place at placed
  split at placed
  · cases placed
  · split at placed
    · cases placed
      by_cases same : other = base
      · simp [load, find, insert, same]
      · simp [load, find, insert, same, Ne.symm same]
    · cases placed

theorem load_zero (heap : Heap grain limit α) : heap.load 0 = none := by
  rw [load_eq_none_iff, live_iff]
  rintro ⟨block, member, zero⟩
  exact (heap.inside block member).1.ne' zero

end Cells

section Sizes

def occupied (grain : Nat) : List (Block α) → Finset Nat
  | [] => ∅
  | block :: rest => block.addresses grain ∪ occupied grain rest

theorem mem_occupied {blocks : List (Block α)} {address : Nat} (member : address ∈ occupied grain blocks) :
    ∃ block ∈ blocks, address ∈ block.addresses grain := by
  induction blocks with
  | nil => simp [occupied] at member
  | cons block rest ih =>
    rcases Finset.mem_union.mp member with first | later
    · exact ⟨block, List.mem_cons_self, first⟩
    · obtain ⟨other, among, inside⟩ := ih later
      exact ⟨other, List.mem_cons_of_mem _ among, inside⟩

theorem card_occupied {blocks : List (Block α)} (apart : blocks.Pairwise (Block.Apart grain)) :
    (occupied grain blocks).card = (blocks.map (Block.extent grain)).sum := by
  induction blocks with
  | nil => rfl
  | cons block rest ih =>
    obtain ⟨away, others⟩ := List.pairwise_cons.mp apart
    -- A block apart from every other one shares no address with their union.
    have disjoint : Disjoint (block.addresses grain) (occupied grain rest) := by
      apply Finset.disjoint_left.mpr
      intro address left right
      obtain ⟨other, among, inside⟩ := mem_occupied right
      exact Finset.disjoint_left.mp (away other among).disjoint left inside
    rw [occupied, Finset.card_union_of_disjoint disjoint, Block.card_addresses, ih others]
    rfl

/-- Different blocks of a heap have no more bytes together than there are addresses. -/
theorem sum_extent_le {heap : Heap grain limit α} {blocks : List (Block α)}
    (members : ∀ block ∈ blocks, block ∈ heap.blocks) (distinct : (blocks.map Block.base).Nodup) :
    (blocks.map (Block.extent grain)).sum ≤ limit := by
  have apart : blocks.Pairwise (Block.Apart grain) := by
    refine List.Pairwise.imp_of_mem ?_ (List.pairwise_map.mp distinct)
    intro first second left right different
    exact heap.apart.forall (members first left) (members second right) fun same => different (same ▸ rfl)
  have within : occupied grain blocks ⊆ Finset.range limit := by
    intro address member
    obtain ⟨block, among, inside⟩ := mem_occupied member
    have bound := (heap.inside block (members block among)).2
    simp only [Block.addresses, Finset.mem_Ico] at inside
    exact Finset.mem_range.mpr (by omega)
  rw [← card_occupied apart, ← Finset.card_range limit]
  exact Finset.card_le_card within

theorem length_mul_le {heap : Heap grain limit α} {addresses : List Nat} (distinct : addresses.Nodup)
    (live : ∀ base ∈ addresses, heap.live base = true) : addresses.length * grain ≤ limit := by
  have bases : (addresses.filterMap heap.find).map Block.base = addresses := by
    rw [List.map_filterMap]
    refine (List.filterMap_congr fun base member => ?_).trans List.filterMap_some
    obtain ⟨block, found⟩ := Option.isSome_iff_exists.mp (live base member)
    rw [found, Option.map_some, (find_some found).2]
  have members : ∀ block ∈ addresses.filterMap heap.find, block ∈ heap.blocks := by
    intro block member
    obtain ⟨base, _, found⟩ := List.mem_filterMap.mp member
    exact (find_some found).1
  have large : addresses.length * grain ≤ ((addresses.filterMap heap.find).map (Block.extent grain)).sum := by
    have count : ((addresses.filterMap heap.find).map (Block.extent grain)).length = addresses.length := by
      rw [List.length_map]
      exact List.length_map Block.base ▸ congrArg List.length bases
    rw [← count]
    apply List.card_nsmul_le_sum _ grain
    intro extent member
    obtain ⟨block, _, rfl⟩ := List.mem_map.mp member
    exact le_max_right _ _
  exact large.trans (sum_extent_le members (by rwa [bases]))

end Sizes

end Heap
end PosixC.Foundation
