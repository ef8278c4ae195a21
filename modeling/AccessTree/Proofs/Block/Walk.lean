import AccessTree.Block.Basic
import Mathlib.Data.List.Basic
import Mathlib.Tactic.Common

/-! # Walks over block trees

The walks are defined by recursion on blocks and lists of slots at once; here they are expressed by
list operations on the slots, and `Block.induction` proves a property of all blocks from the blocks
that are connected to their slots. `Slot.blocks` lists what is below one slot, so that the blocks
below a list of slots are those below the single ones, in order (`nestedSlots_eq_flatMap`). -/

namespace AccessTree

namespace Slot

/-- The blocks below a slot, depth first. -/
def blocks (s : Slot) : List Block := (s.connected.map Block.nested).getD []

theorem blocks_of_none {s : Slot} (h : s.connected = none) : s.blocks = [] := by simp [blocks, h]

theorem blocks_of_some {s : Slot} {b : Block} (h : s.connected = some b) : s.blocks = b.nested := by
  simp [blocks, h]

theorem isEmpty_iff {s : Slot} : s.isEmpty = true ↔ s.connected = none := by simp [isEmpty]

theorem blocks_of_isEmpty {s : Slot} (h : s.isEmpty = true) : s.blocks = [] :=
  blocks_of_none (isEmpty_iff.mp h)

theorem sizeOf_lt {s : Slot} {b : Block} (h : s.connected = some b) : sizeOf b < sizeOf s := by
  cases s
  simp only at h
  subst h
  simp
  omega

end Slot

namespace Block

theorem sizeOf_slots_lt (b : Block) : sizeOf b.slots < sizeOf b := by
  cases b; simp; omega

theorem sizeOf_connected_lt {b c : Block} {s : Slot} (hs : s ∈ b.slots)
    (hc : s.connected = some c) : sizeOf c < sizeOf b :=
  Nat.lt_trans (Slot.sizeOf_lt hc) (Nat.lt_trans (List.sizeOf_lt_of_mem hs) b.sizeOf_slots_lt)

/-- **Induction on blocks**, from the blocks connected to the slots of a block. -/
theorem induction {P : Block → Prop}
    (step : ∀ b, (∀ s ∈ b.slots, ∀ c, s.connected = some c → P c) → P b) (b : Block) : P b :=
  step b fun _ hs c hc =>
    have := sizeOf_connected_lt hs hc
    induction step c
termination_by sizeOf b

/-- The blocks that are connected to the slots of a block, in order. -/
def children (b : Block) : List Block := b.slots.filterMap Slot.connected

theorem children_eq_flatMap (b : Block) :
    b.children = b.slots.flatMap fun s => s.connected.toList := by
  rw [children, List.filterMap_eq_flatMap_toList]

theorem length_connectedSlots_eq (b : Block) : b.connectedSlots.length = b.children.length := by
  rw [connectedSlots, children, ← List.countP_eq_length_filter, List.length_filterMap_eq_countP]
  refine List.countP_congr fun s _ => ?_
  cases h : s.connected <;> simp [Slot.isEmpty, h]

/-- Induction on blocks, from the children of a block. -/
theorem childInduction {P : Block → Prop} (step : ∀ b, (∀ c ∈ b.children, P c) → P b)
    (b : Block) : P b := by
  induction b using Block.induction with
  | step b ih =>
    refine step b fun c hc => ?_
    obtain ⟨s, hs, hsc⟩ := List.mem_filterMap.mp hc
    exact ih s hs c hsc

/-! ### Nested blocks -/

theorem nestedSlots_cons (s : Slot) (rest : List Slot) :
    nestedSlots (s :: rest) = s.blocks ++ nestedSlots rest := by
  obtain ⟨id, accepts, label, value, comparator, inputType, _ | b⟩ := s
  · rw [nestedSlots, Slot.blocks_of_none rfl, List.nil_append]
  · rw [nestedSlots, Slot.blocks_of_some rfl]

theorem nestedSlots_eq_flatMap (slots : List Slot) :
    nestedSlots slots = slots.flatMap Slot.blocks := by
  induction slots with
  | nil => rw [nestedSlots, List.flatMap_nil]
  | cons s rest ih => rw [nestedSlots_cons, ih, List.flatMap_cons]

theorem nested_eq_cons (b : Block) : b.nested = b :: b.slots.flatMap Slot.blocks := by
  rw [nested_eq, nestedSlots_eq_flatMap]

theorem self_mem_nested (b : Block) : b ∈ b.nested := by simp [nested_eq]

theorem mem_blocks {c : Block} {s : Slot} :
    c ∈ s.blocks ↔ ∃ b, s.connected = some b ∧ c ∈ b.nested := by
  cases h : s.connected with
  | none => simp [Slot.blocks_of_none h]
  | some b => simp [Slot.blocks_of_some h]

/-- A nested block is the block itself or nested in a connected one. -/
theorem mem_nested {b c : Block} : c ∈ b.nested ↔
    c = b ∨ ∃ s ∈ b.slots, ∃ d, s.connected = some d ∧ c ∈ d.nested := by
  rw [nested_eq_cons, List.mem_cons, List.mem_flatMap]
  simp only [mem_blocks]

theorem mem_nested_of_connected {b c : Block} {s : Slot} (hs : s ∈ b.slots)
    (hc : s.connected = some c) {d : Block} (hd : d ∈ c.nested) : d ∈ b.nested :=
  mem_nested.mpr (Or.inr ⟨s, hs, c, hc, hd⟩)

theorem nested_trans {b : Block} : ∀ {c d : Block}, c ∈ b.nested → d ∈ c.nested → d ∈ b.nested := by
  induction b using Block.induction with
  | step b ih =>
    intro c d hc hd
    rcases mem_nested.mp hc with rfl | ⟨s, hs, e, he, hce⟩
    · exact hd
    · exact mem_nested_of_connected hs he (ih s hs e he hce hd)

/-- A block comes before the blocks nested in its children. -/
theorem nested_eq_children (b : Block) : b.nested = b :: b.children.flatMap nested := by
  rw [nested_eq_cons, children_eq_flatMap, List.flatMap_assoc]
  congr 1
  refine List.flatMap_congr fun s _ => ?_
  cases h : s.connected with
  | none => rw [Slot.blocks_of_none h, Option.toList_none, List.flatMap_nil]
  | some c => rw [Slot.blocks_of_some h, Option.toList_some, List.flatMap_singleton]

theorem mem_nested_of_mem_children {b c d : Block} (hc : c ∈ b.children) (hd : d ∈ c.nested) :
    d ∈ b.nested := by
  rw [nested_eq_children]
  exact List.mem_cons_of_mem b (List.mem_flatMap.mpr ⟨c, hc, hd⟩)

/-- A block to which nothing is connected. -/
theorem children_of_empty {b : Block} (h : ∀ s ∈ b.slots, s.isEmpty = true) : b.children = [] :=
  List.filterMap_eq_nil_iff.mpr fun s hs => Slot.isEmpty_iff.mp (h s hs)

theorem nested_of_empty {b : Block} (h : ∀ s ∈ b.slots, s.isEmpty = true) : b.nested = [b] := by
  rw [nested_eq_children, children_of_empty h, List.flatMap_nil]

/-! ### Blocks below -/

theorem descendants_eq (b : Block) : b.descendants = b.slots.flatMap Slot.blocks :=
  nestedSlots_eq_flatMap b.slots

theorem ids_eq (b : Block) : b.ids = b.id :: b.descendants.map Block.id := by
  rw [ids, nested_eq, List.map_cons, descendants]

theorem mem_descendants {b c : Block} : c ∈ b.descendants ↔ ∃ d ∈ b.children, c ∈ d.nested := by
  have hnested : b.descendants = b.children.flatMap nested :=
    (List.cons.inj ((nested_eq b).symm.trans (nested_eq_children b))).2
  rw [hnested, List.mem_flatMap]

/-- What is below a block is below every block that this one is below. -/
theorem descendants_subset {b c : Block} (hc : c ∈ b.descendants) :
    c.descendants ⊆ b.descendants := by
  intro d hd
  obtain ⟨e, he, hce⟩ := mem_descendants.mp hc
  have hdc : d ∈ c.nested := by
    rw [nested_eq]
    exact List.mem_cons_of_mem c hd
  exact mem_descendants.mpr ⟨e, he, nested_trans hce hdc⟩

theorem mem_connectedIds {blocks : List Block} {x : String} :
    x ∈ connectedIds blocks ↔ ∃ c ∈ blocks.flatMap descendants, c.id = x := by
  rw [connectedIds, ← List.map_flatMap, List.mem_map]

/-- Where empty slots have nothing to show, they may be left out. -/
theorem flatMap_connectedSlots {α : Type} {view : Slot → List α}
    (hview : ∀ s, s.isEmpty = true → view s = []) (b : Block) :
    b.connectedSlots.flatMap view = b.slots.flatMap view := by
  rw [connectedSlots]
  induction b.slots with
  | nil => rfl
  | cons s rest ih =>
    cases hs : s.isEmpty with
    | true => simp [hs, ih, hview s hs]
    | false => simp [hs, ih]

end Block

end AccessTree
