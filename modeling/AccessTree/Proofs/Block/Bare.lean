import AccessTree.Proofs.Block.Walk
import Mathlib.Data.List.Basic

/-! # Bare blocks

`Block.bare` renames the ids of a tree and clears what is only displayed: categories, labels, how a
field is shown, and which kinds a slot accepts. Two compositions whose bare forms are the same differ
in nothing but ids and display. The walks over a bare tree are those over the tree. -/

namespace AccessTree

variable (ρ : String → String)

mutual
/-- **A block with its ids renamed** and without what is only displayed. -/
def Block.bare : Block → Block
  | ⟨id, kind, _, _, properties, slots, value, _⟩ =>
    ⟨ρ id, kind, "", "", properties, Slot.bareList slots, value, false⟩

/-- Slots with the ids of all blocks below them renamed. -/
def Slot.bareList : List Slot → List Slot
  | [] => []
  | ⟨id, _, _, value, comparator, _, none⟩ :: rest =>
    ⟨id, [], "", value, comparator, none, none⟩ :: Slot.bareList rest
  | ⟨id, _, _, value, comparator, _, some b⟩ :: rest =>
    ⟨id, [], "", value, comparator, none, some b.bare⟩ :: Slot.bareList rest
end

/-- A slot with the ids of all blocks below it renamed. -/
def Slot.bare (s : Slot) : Slot :=
  ⟨s.id, [], "", s.value, s.comparator, none, s.connected.map (Block.bare ρ)⟩

theorem Slot.bareList_eq_map (slots : List Slot) : bareList ρ slots = slots.map (Slot.bare ρ) := by
  induction slots with
  | nil => rw [bareList, List.map_nil]
  | cons s rest ih =>
    obtain ⟨id, accepts, label, value, comparator, inputType, _ | b⟩ := s
    · rw [bareList, ih]; rfl
    · rw [bareList, ih]; rfl

namespace Block

theorem bare_id (b : Block) : (b.bare ρ).id = ρ b.id := by cases b; rw [bare]

theorem bare_kind (b : Block) : (b.bare ρ).kind = b.kind := by cases b; rw [bare]

theorem bare_properties (b : Block) : (b.bare ρ).properties = b.properties := by cases b; rw [bare]

theorem bare_value (b : Block) : (b.bare ρ).value = b.value := by cases b; rw [bare]

theorem bare_slots (b : Block) : (b.bare ρ).slots = b.slots.map (Slot.bare ρ) := by
  cases b
  rw [bare, Slot.bareList_eq_map]

theorem bare_property (b : Block) (key : String) : (b.bare ρ).property key = b.property key := by
  rw [property, bare_properties, property]

theorem bare_slot? (b : Block) (id : String) :
    (b.bare ρ).slot? id = (b.slot? id).map (Slot.bare ρ) := by
  rw [slot?, bare_slots, List.find?_map]
  rfl

theorem bare_children (b : Block) : (b.bare ρ).children = b.children.map (bare ρ) := by
  rw [children, bare_slots, List.filterMap_map, children, List.map_filterMap]
  rfl

theorem nested_bare (b : Block) : (b.bare ρ).nested = b.nested.map (bare ρ) := by
  induction b using Block.induction with
  | step b ih =>
    rw [nested_eq_cons, nested_eq_cons, List.map_cons, bare_slots, List.flatMap_map,
      List.map_flatMap]
    refine congrArg _ (List.flatMap_congr fun s hs => ?_)
    cases hc : s.connected with
    | none => rw [Slot.blocks_of_none hc, Slot.blocks_of_none (by simp [Slot.bare, hc])]; rfl
    | some c =>
      rw [Slot.blocks_of_some hc, Slot.blocks_of_some (b := c.bare ρ) (by simp [Slot.bare, hc])]
      exact ih s hs c hc

theorem ids_bare (b : Block) : (b.bare ρ).ids = b.ids.map ρ := by
  rw [ids, nested_bare, ids, List.map_map, List.map_map]
  exact List.map_congr_left fun c _ => bare_id ρ c

theorem connectedIds_bare (blocks : List Block) :
    connectedIds (blocks.map (bare ρ)) = (connectedIds blocks).map ρ := by
  rw [connectedIds, connectedIds, List.flatMap_map, List.map_flatMap]
  refine List.flatMap_congr fun b _ => ?_
  have hids := ids_bare ρ b
  rw [ids_eq, ids_eq, List.map_cons] at hids
  exact (List.cons.inj hids).2

/-- No two ids of some blocks are renamed alike. -/
def KeepsApart (ρ : String → String) (blocks : List Block) : Prop :=
  ∀ x ∈ blocks.flatMap ids, ∀ y ∈ blocks.flatMap ids, ρ x = ρ y → x = y

/-- The same blocks stand at the top. -/
theorem topLevel_bare {ρ : String → String} {blocks : List Block} (hρ : KeepsApart ρ blocks) :
    topLevel (blocks.map (bare ρ)) = (topLevel blocks).map (bare ρ) := by
  rw [topLevel, List.filter_map, topLevel]
  refine congrArg _ (List.filter_congr fun b hb => ?_)
  have hid : b.id ∈ blocks.flatMap ids :=
    List.mem_flatMap.mpr ⟨b, hb, by rw [ids_eq]; exact List.mem_cons_self⟩
  have hbelow : ∀ x ∈ connectedIds blocks, x ∈ blocks.flatMap ids := by
    intro x hx
    obtain ⟨c, hc, hxc⟩ := List.mem_flatMap.mp hx
    exact List.mem_flatMap.mpr ⟨c, hc, by rw [ids_eq]; exact List.mem_cons_of_mem _ hxc⟩
  -- an id is connected if and only if its new name is, since no other id has that name
  have hconnected : ρ b.id ∈ (connectedIds blocks).map ρ ↔ b.id ∈ connectedIds blocks := by
    refine ⟨fun h => ?_, List.mem_map_of_mem⟩
    obtain ⟨x, hx, heq⟩ := List.mem_map.mp h
    exact hρ x (hbelow x hx) b.id hid heq ▸ hx
  rw [Function.comp_apply, bare_id, connectedIds_bare, Bool.eq_iff_iff]
  simp [hconnected]

end Block

end AccessTree
