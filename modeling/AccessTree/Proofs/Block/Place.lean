import AccessTree.Proofs.Block.Walk

/-! # Places of blocks

A `Frame` is a block with nothing in one of its slots, and a `Place` in a composition is what stands
around a block of it: the frames of its ancestors, innermost first, and the other blocks that are
listed at the top. Every block of a composition has a place (`exists_place`). What is connected
elsewhere does not change when another block of the same id is put there
(`Place.mem_connectedIds`). -/

namespace AccessTree

/-- **A block with one slot to fill.** -/
structure Frame where
  block : Block
  before : List Slot
  /-- The slot to fill, whatever is connected to it. -/
  slot : Slot
  after : List Slot

namespace Frame

/-- The block with another one in the slot to fill. -/
def fill (f : Frame) (b : Block) : Block :=
  { f.block with slots := f.before ++ { f.slot with connected := some b } :: f.after }

/-- A frame around what is connected in its place is the block itself. -/
theorem fill_of_connected {f : Frame} {b : Block}
    (hslots : f.block.slots = f.before ++ f.slot :: f.after) (hb : f.slot.connected = some b) :
    f.fill b = f.block := by
  obtain ⟨⟨id, kind, category, label, properties, slots, value, isTemplate⟩, before,
    ⟨slot, accepts, slotLabel, slotValue, comparator, inputType, connected⟩, after⟩ := f
  simp only at hslots hb
  subst hslots hb
  rfl

theorem ids_fill (f : Frame) (b : Block) : (f.fill b).ids =
    f.block.id :: ((f.before.flatMap Slot.blocks).map Block.id ++ b.ids ++
      (f.after.flatMap Slot.blocks).map Block.id) := by
  rw [Block.ids_eq, Block.descendants_eq, fill, List.flatMap_append, List.flatMap_cons,
    Slot.blocks_of_some rfl, List.map_append, List.map_append, Block.ids, List.append_assoc]

end Frame

namespace Block

/-- The tree that frames make up around a block. -/
def within (b : Block) : List Frame → Block
  | [] => b
  | f :: fs => (f.fill b).within fs

theorem within_append (fs gs : List Frame) :
    ∀ b : Block, b.within (fs ++ gs) = (b.within fs).within gs := by
  induction fs with
  | nil => exact fun b => rfl
  | cons f fs ih => exact fun b => ih (f.fill b)

/-- **A nested block stands within frames.** -/
theorem exists_within {b : Block} : ∀ {c : Block}, c ∈ b.nested → ∃ fs, c.within fs = b := by
  induction b using Block.induction with
  | step b ih =>
    intro c hc
    rcases mem_nested.mp hc with rfl | ⟨s, hs, d, hd, hcd⟩
    · exact ⟨[], rfl⟩
    · obtain ⟨fs, hfs⟩ := ih s hs d hd hcd
      obtain ⟨before, after, hb⟩ := List.append_of_mem hs
      refine ⟨fs ++ [⟨b, before, s, after⟩], ?_⟩
      rw [within_append, hfs]
      exact Frame.fill_of_connected hb hd

theorem id_within (fs : List Frame) {b c : Block} (h : b.id = c.id) :
    (b.within fs).id = (c.within fs).id := by
  induction fs generalizing b c with
  | nil => exact h
  | cons f fs ih => exact ih rfl

/-- What is connected around a block does not depend on what is connected below it. -/
theorem mem_descendants_within {x : String} (fs : List Frame) {b c : Block} (hid : b.id = c.id)
    (hx : x ∈ b.descendants.map id ↔ x ∈ c.descendants.map id) :
    x ∈ (b.within fs).descendants.map id ↔ x ∈ (c.within fs).descendants.map id := by
  induction fs generalizing b c with
  | nil => exact hx
  | cons f fs ih =>
    have hbelow : ∀ d : Block, (f.fill d).descendants.map id =
        (f.before.flatMap Slot.blocks).map id ++ d.ids ++ (f.after.flatMap Slot.blocks).map id :=
      fun d => (List.cons.inj ((ids_eq _).symm.trans (f.ids_fill d))).2
    refine ih rfl ?_
    simp only [hbelow, ids_eq, List.mem_append, List.mem_cons, hid, hx]

end Block

/-- **A place in a composition.** -/
structure Place where
  before : List Block
  /-- The ancestors, innermost first. -/
  frames : List Frame
  after : List Block

/-- The composition with a block at a place. -/
def Place.fill (p : Place) (b : Block) : List Block := p.before ++ b.within p.frames :: p.after

/-- **Every block of a composition has a place.** -/
theorem exists_place {blocks : List Block} {b : Block} (h : b ∈ blocks.flatMap Block.nested) :
    ∃ p : Place, p.fill b = blocks := by
  obtain ⟨root, hroot, hb⟩ := List.mem_flatMap.mp h
  obtain ⟨fs, rfl⟩ := Block.exists_within hb
  obtain ⟨before, after, rfl⟩ := List.append_of_mem hroot
  exact ⟨⟨before, fs, after⟩, rfl⟩

namespace Place

variable (p : Place) {b c : Block}

theorem map_id_fill (hid : b.id = c.id) : (p.fill b).map Block.id = (p.fill c).map Block.id := by
  rw [fill, fill, List.map_append, List.map_append, List.map_cons, List.map_cons,
    Block.id_within p.frames hid]

theorem mem_connectedIds {x : String} (hid : b.id = c.id)
    (hx : x ∈ b.descendants.map Block.id ↔ x ∈ c.descendants.map Block.id) :
    x ∈ Block.connectedIds (p.fill b) ↔ x ∈ Block.connectedIds (p.fill c) := by
  simp only [Block.connectedIds, fill, List.flatMap_append, List.flatMap_cons, List.mem_append,
    Block.mem_descendants_within p.frames hid hx]

end Place

end AccessTree
