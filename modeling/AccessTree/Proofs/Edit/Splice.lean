import AccessTree.Proofs.Block.Growth
import AccessTree.Proofs.Edit.Cases
import Mathlib.Data.List.Basic

/-! # The blocks of a tree after an edit

Every edit of a block keeps its id and replaces one part of the list of the blocks below it: by the
copy of a template, or by nothing (`Splices`). So every edit of a tree replaces one part of its ids
by the ids of new blocks (`ids_apply`), and if these are distinct and not in use, the ids stay
distinct (`Spliced.nodup`).

Much of what an edit writes, such as labels, literals and comparators, is neither the id of a slot
nor what is connected to it. Blocks that agree in what remains are `Alike`. -/

namespace AccessTree

/-- `new` is `old` with one part replaced by `fresh`. -/
def Spliced {α : Type} (fresh old new : List α) : Prop :=
  ∃ pre mid post, old = pre ++ mid ++ post ∧ new = pre ++ fresh ++ post

namespace Spliced

variable {α β : Type} {fresh old new : List α}

theorem refl (xs : List α) : Spliced [] xs xs := ⟨xs, [], [], by simp, by simp⟩

theorem append (pre post : List α) (h : Spliced fresh old new) :
    Spliced fresh (pre ++ old ++ post) (pre ++ new ++ post) := by
  obtain ⟨before, mid, after, rfl, rfl⟩ := h
  exact ⟨pre ++ before, mid, after ++ post, by simp, by simp⟩

theorem map (f : α → β) (h : Spliced fresh old new) :
    Spliced (fresh.map f) (old.map f) (new.map f) := by
  obtain ⟨pre, mid, post, rfl, rfl⟩ := h
  exact ⟨pre.map f, mid.map f, post.map f, by simp, by simp⟩

theorem mem (h : Spliced fresh old new) {x : α} (hx : x ∈ new) : x ∈ old ∨ x ∈ fresh := by
  obtain ⟨pre, mid, post, rfl, rfl⟩ := h
  simp only [List.mem_append] at hx ⊢
  rcases hx with (hx | hx) | hx
  · exact Or.inl (Or.inl (Or.inl hx))
  · exact Or.inr hx
  · exact Or.inl (Or.inr hx)

theorem count_le [BEq α] (h : Spliced fresh old new) (x : α) :
    new.count x ≤ old.count x + fresh.count x := by
  obtain ⟨pre, mid, post, rfl, rfl⟩ := h
  simp only [List.count_append]
  omega

/-- **Distinct members stay distinct** when new and distinct ones are put among them. -/
theorem nodup (h : Spliced fresh old new) (ho : old.Nodup) (hf : fresh.Nodup)
    (hn : ∀ x ∈ fresh, x ∉ old) : new.Nodup := by
  obtain ⟨pre, mid, post, rfl, rfl⟩ := h
  rw [List.append_assoc, List.nodup_append] at ho ⊢
  obtain ⟨hpre, hmp, hd⟩ := ho
  obtain ⟨-, hpost, -⟩ := List.nodup_append.mp hmp
  refine ⟨hpre, List.nodup_append.mpr ⟨hf, hpost, ?_⟩, ?_⟩
  · rintro x hx y hy rfl
    exact hn x hx (by simp [hy])
  · rintro x hx y hy rfl
    rcases List.mem_append.mp hy with hy | hy
    · exact hn x hy (by simp [hx])
    · exact hd x hx x (by simp [hy]) rfl

end Spliced

/-- The id of a slot and what is connected to it. -/
def Slot.core (s : Slot) : String × Option Block := (s.id, s.connected)

namespace Block

/-! ### Labels, literals and comparators -/

/-- **Blocks that agree** in all but labels, literals, comparators and hints. -/
structure Alike (b c : Block) : Prop where
  id : b.id = c.id
  kind : b.kind = c.kind
  properties : b.properties = c.properties
  slots : b.slots.map Slot.core = c.slots.map Slot.core

/-- Labelling changes the labels only. -/
theorem map_relabel {α : Type} {view : Slot → α}
    (hview : ∀ s label, view { s with label := label } = view s) (slots : List Slot) :
    ∀ i, (Slot.relabel i slots).map view = slots.map view := by
  induction slots with
  | nil => simp [Slot.relabel]
  | cons s rest ih =>
    intro i
    rw [Slot.relabel]
    split
    · rw [List.map_cons, ih, List.map_cons]
    · rw [List.map_cons, ih, List.map_cons, hview]

/-- Writing a field of a slot. -/
theorem alike_modifySlot (b : Block) (slot : String) {f : Slot → Slot}
    (hf : ∀ s, (f s).core = s.core) : Alike (b.modifySlot slot f) b :=
  ⟨rfl, rfl, rfl, Slot.map_modifyFirst hf slot b.slots⟩

/-- Connecting something else to a slot keeps the ids of the slots. -/
theorem map_id_connect (b : Block) (slot : String) (child : Option Block) :
    (b.connect slot child).slots.map Slot.id = b.slots.map Slot.id :=
  Slot.map_modifyFirst (f := fun s => { s with connected := child }) (fun _ => rfl) slot b.slots

theorem alike_relabeled (b : Block) : Alike b.relabeled b :=
  ⟨rfl, rfl, rfl, map_relabel (fun _ _ => rfl) b.slots 1⟩

theorem map_outline_of_core {xs ys : List Slot} (h : xs.map Slot.core = ys.map Slot.core) :
    xs.map Slot.outline = ys.map Slot.outline := by
  have hm := congrArg (List.map fun p : String × Option Block => (p.1, p.2.isNone)) h
  rw [List.map_map, List.map_map] at hm
  exact hm

/-- What is read off the connected blocks is the same. -/
theorem flatMap_of_core {α : Type} (view : Option Block → List α) {xs ys : List Slot}
    (h : xs.map Slot.core = ys.map Slot.core) :
    (xs.flatMap fun s => view s.connected) = ys.flatMap fun s => view s.connected := by
  have hm := congrArg (List.flatMap fun p : String × Option Block => view p.2) h
  rw [List.flatMap_map, List.flatMap_map] at hm
  exact hm

theorem Alike.outline {b c : Block} (h : Alike b c) : b.outline = c.outline := by
  rw [Block.outline, Block.outline, h.kind, h.properties, map_outline_of_core h.slots]

theorem Alike.descendants {b c : Block} (h : Alike b c) : b.descendants = c.descendants := by
  rw [descendants_eq, descendants_eq]
  exact flatMap_of_core (fun child => (child.map nested).getD []) h.slots

theorem Alike.children {b c : Block} (h : Alike b c) : b.children = c.children := by
  rw [children_eq_flatMap, children_eq_flatMap]
  exact flatMap_of_core Option.toList h.slots

/-! ### Edits of one block -/

/-- **An edit of one block** puts `fresh` among the blocks below it. -/
structure Splices (fresh : List Block) (owner edited : Block) : Prop where
  id : edited.id = owner.id
  descendants : Spliced fresh owner.descendants edited.descendants

theorem Splices.ids {fresh : List Block} {owner edited : Block} (h : Splices fresh owner edited) :
    Spliced (fresh.map Block.id) owner.ids edited.ids := by
  rw [ids_eq, ids_eq, h.id]
  simpa using (h.descendants.map Block.id).append [owner.id] []

theorem splices_of_alike {b c : Block} (h : Alike c b) : Splices [] b c :=
  ⟨h.id, by rw [h.descendants]; exact .refl _⟩

/-- Alike blocks come out of the same edits. -/
theorem Splices.alike {fresh : List Block} {b c d : Block} (h : Splices fresh b c)
    (hd : Alike d c) : Splices fresh b d :=
  ⟨hd.id.trans h.id, by rw [hd.descendants]; exact h.descendants⟩

/-- Connecting something else to a slot. -/
theorem splices_connect {b : Block} {slot : String} {s : Slot} (h : b.slot? slot = some s)
    (child : Option Block) :
    Splices ((child.map nested).getD []) b (b.connect slot child) := by
  obtain ⟨-, pre, post, hb, hf⟩ := slot?_split h
  refine ⟨rfl, pre.flatMap Slot.blocks, s.blocks, post.flatMap Slot.blocks, ?_, ?_⟩
  · rw [descendants_eq, hb]
    simp
  · rw [connect, hf, descendants_eq]
    simp [Slot.blocks]

/-- A growth slot at the end. -/
theorem Splices.append_slot {fresh : List Block} {b c : Block} {s : Slot} (h : Splices fresh b c)
    (hs : s.isEmpty = true) : Splices fresh b { c with slots := c.slots ++ [s] } := by
  refine ⟨h.id, ?_⟩
  rw [descendants_eq { c with slots := c.slots ++ [s] }, List.flatMap_append,
    List.flatMap_singleton, Slot.blocks_of_isEmpty hs, List.append_nil, ← descendants_eq]
  exact h.descendants

/-- Leaving out the empty slots. -/
theorem Splices.connectedSlots {fresh : List Block} {b c : Block} (h : Splices fresh b c) :
    Splices fresh b { c with slots := c.connectedSlots } := by
  refine ⟨h.id, ?_⟩
  rw [descendants_eq { c with slots := c.connectedSlots },
    flatMap_connectedSlots fun _ => Slot.blocks_of_isEmpty, ← descendants_eq]
  exact h.descendants

/-- The new blocks that dropping a template gives. -/
def copied (suffix : Nat → String) (first : Nat) (template : Block) : List Block :=
  if template.kind = .value then [] else (template.instantiate suffix first).nested

theorem splices_attachTo {suffix : Nat → String} {first : Nat} {path : Path} {slot : String}
    {template owner edited : Block}
    (h : Block.attachTo suffix first path slot template owner = .ok edited) :
    Splices (template.copied suffix first) owner edited := by
  obtain ⟨s, hs, -, ⟨hv, rfl⟩ | ⟨hv, -, -, h⟩ | ⟨hv, -, rfl⟩⟩ := attachTo_cases h
  · rw [copied, if_pos hv]
    exact splices_of_alike (alike_modifySlot owner slot fun _ => rfl)
  · rw [copied, if_neg hv]
    have hfilled := (splices_connect hs (some (template.instantiate suffix first))).alike
      (alike_relabeled _)
    obtain ⟨filled, rfl, ⟨-, -, g, hg, rfl⟩ | ⟨-, rfl⟩⟩ := attachOperand_cases h
    · exact hfilled.append_slot (Slot.nextGrowth_eq_ok hg).1
    · exact hfilled
  · rw [copied, if_neg hv]
    exact splices_connect hs (some (template.instantiate suffix first))

theorem splices_detachFrom {path : Path} {slot : String} {owner edited : Block}
    (h : Block.detachFrom path slot owner = .ok edited) : Splices [] owner edited := by
  obtain ⟨s, emptied, hs, rfl, ⟨-, g, hg, rfl⟩ | ⟨-, rfl⟩⟩ := detachFrom_cases h
  · have hrelabeled := (splices_connect hs none).connectedSlots.alike (alike_relabeled _)
    exact hrelabeled.append_slot (Slot.nextGrowth_eq_ok hg).1
  · exact splices_connect hs none

/-- A slot with nothing to show may be inserted. -/
theorem flatMap_insertParameter {α : Type} {view : Slot → List α} {s : Slot} (h : view s = [])
    (slots : List Slot) : (Slot.insertParameter s slots).flatMap view = slots.flatMap view := by
  induction slots with
  | nil => simp [Slot.insertParameter, h]
  | cons t rest ih =>
    rw [Slot.insertParameter]
    split
    · simp [h]
    · simp [ih]

theorem splices_addParameter {owner edited : Block} (h : owner.addParameter = .ok edited) :
    Splices [] owner edited := by
  obtain ⟨s, hs, rfl⟩ := addParameter_cases h
  obtain ⟨-, -, -, -, rfl⟩ := parameterSlot_cases hs
  refine ⟨rfl, ?_⟩
  rw [descendants_eq, descendants_eq, flatMap_insertParameter (Slot.blocks_of_none rfl)]
  exact .refl _

end Block

/-! ### Edits of trees -/

/-- The new blocks that an edit gives. -/
def Edit.newBlocks (suffix : Nat → String) (first : Nat) : Edit → List Block
  | .attach _ _ template => template.copied suffix first
  | _ => []

/-- The ids of the new blocks that an edit gives. -/
def Edit.newIds (suffix : Nat → String) (first : Nat) (e : Edit) : List String :=
  (e.newBlocks suffix first).map Block.id

theorem Edit.splices {suffix : Nat → String} {first : Nat} {e : Edit} {owner edited : Block}
    (h : e.onBlock suffix first owner = .ok edited) :
    Block.Splices (e.newBlocks suffix first) owner edited := by
  cases e with
  | attach path slot template => exact Block.splices_attachTo h
  | detach path slot => exact Block.splices_detachFrom h
  | setValue path slot value =>
    obtain ⟨-, rfl⟩ := Block.writeSlot_eq_ok.mp h
    exact Block.splices_of_alike (Block.alike_modifySlot owner slot fun _ => rfl)
  | setComparator path slot comparator =>
    obtain ⟨c, -, h⟩ := bind_eq_ok.mp h
    obtain ⟨-, rfl⟩ := Block.writeSlot_eq_ok.mp h
    exact Block.splices_of_alike (Block.alike_modifySlot owner slot fun _ => rfl)
  | addParameter path => exact Block.splices_addParameter h

/-- **The blocks of a tree after an edit** are the edited block, new blocks, blocks that were there,
and the ancestors of the edited block, each with another block in the place of one that was connected
to it. -/
theorem Edit.nested_apply {suffix : Nat → String} {first : Nat} {root next : Block} {e : Edit}
    (h : e.apply suffix first root = .ok next) : ∃ owner edited, root.at? e.path = some owner ∧
      e.onBlock suffix first owner = .ok edited ∧ ∀ b ∈ next.nested,
        b = edited ∨ b ∈ e.newBlocks suffix first ∨ b ∈ root.nested ∨
          ∃ c ∈ root.nested, ∃ before s after d rest, c.slots = before ++ s :: after ∧
            s.connected = some d ∧ d.at? rest = some owner ∧ b = { c with slots :=
              before ++ { s with connected := some (d.replaceAt rest edited) } :: after } := by
  obtain ⟨owner, edited, ho, he, rfl⟩ := apply_eq_ok.mp h
  refine ⟨owner, edited, ho, he, fun b hb => ?_⟩
  rcases Block.nested_replaceAt ho hb with hb | hb
  · rw [Block.nested_eq] at hb
    rcases List.mem_cons.mp hb with hb | hb
    · exact Or.inl hb
    · -- a block below the edited one was below it before, or it is a new one
      rcases (splices he).descendants.mem hb with hb | hb
      · have hbo : b ∈ owner.nested := by
          rw [Block.nested_eq]
          exact List.mem_cons_of_mem owner hb
        exact Or.inr (Or.inr (Or.inl (Block.nested_trans (Block.mem_nested_of_at? ho) hbo)))
      · exact Or.inr (Or.inl hb)
  · exact Or.inr (Or.inr hb)

/-- No edit changes the id of the root. -/
theorem Edit.id_apply {suffix : Nat → String} {first : Nat} {root next : Block} {e : Edit}
    (h : e.apply suffix first root = .ok next) : next.id = root.id := by
  obtain ⟨owner, edited, ho, he, rfl⟩ := apply_eq_ok.mp h
  exact Block.root_replaceAt Block.id (fun _ _ => rfl) ho (splices he).id

/-- **The ids of a tree after an edit.** -/
theorem Edit.ids_apply {suffix : Nat → String} {first : Nat} {root next : Block} {e : Edit}
    (h : e.apply suffix first root = .ok next) :
    Spliced (e.newIds suffix first) root.ids next.ids := by
  obtain ⟨owner, edited, ho, he, rfl⟩ := apply_eq_ok.mp h
  obtain ⟨pre, post, hr, hn⟩ := Block.ids_replaceAt ho
  rw [hr, hn]
  exact (splices he).ids.append pre post

end AccessTree
