import AccessTree.Edit.Basic
import AccessTree.Proofs.Block.Path
import AccessTree.Proofs.Except

/-! # What edits do

An edit that is not refused puts another block in the place of the one that it addresses
(`Edit.apply_eq_ok`). What the other block is, is said here once for each kind of edit:
`attachTo_cases`, `detachFrom_cases`, `writeSlot_eq_ok` and `addParameter_cases`. Everything that is
proved about edits starts from these. -/

namespace AccessTree

namespace Block

theorem requireSlot_eq_ok {owner : Block} {path : Path} {slot : String} {s : Slot} :
    owner.requireSlot path slot = .ok s ↔ owner.slot? slot = some s := by
  rw [requireSlot]
  cases owner.slot? slot <;> simp

/-- **An edit of a tree** replaces the block at the end of the path. -/
theorem editAt_eq_ok {root next : Block} {path : Path} {edit : Block → Except EditFault Block} :
    root.editAt path edit = .ok next ↔ ∃ owner edited,
      root.at? path = some owner ∧ edit owner = .ok edited ∧ next = root.replaceAt path edited := by
  simp only [editAt, bind_eq_ok, mapError_eq_ok, resolve_eq_ok, pure, Except.pure,
    Except.ok.injEq]
  constructor
  · rintro ⟨owner, ho, edited, he, rfl⟩
    exact ⟨owner, edited, ho, he, rfl⟩
  · rintro ⟨owner, edited, ho, he, rfl⟩
    exact ⟨owner, ho, edited, he, rfl⟩

/-- What an edit of a block at the end of a path comes to. -/
theorem editAt_of_at? {root owner : Block} {path : Path} (h : root.at? path = some owner)
    (edit : Block → Except EditFault Block) :
    root.editAt path edit = (edit owner).map (root.replaceAt path) := by
  rw [editAt, resolve_eq_ok.mpr h]
  change edit owner >>= _ = _
  cases edit owner <;> rfl

/-- There is no block at the end of a path that leaves the tree. -/
theorem editAt_of_at?_eq_none {root : Block} {path : Path} (h : root.at? path = none)
    (edit : Block → Except EditFault Block) : ∃ f, root.editAt path edit = .error (.noBlock f) := by
  cases hr : root.resolve path with
  | ok owner => simp [resolve_eq_ok.mp hr] at h
  | error f => exact ⟨f, by rw [editAt, hr]; rfl⟩

/-- Writes a field of the slot of an id. -/
def writeSlot (path : Path) (slot : String) (f : Slot → Slot) (owner : Block) :
    Except EditFault Block := do
  let _ ← owner.requireSlot path slot
  return owner.modifySlot slot f

theorem writeSlot_eq_ok {path : Path} {slot : String} {f : Slot → Slot} {owner edited : Block} :
    writeSlot path slot f owner = .ok edited ↔
      (∃ s, owner.slot? slot = some s) ∧ edited = owner.modifySlot slot f := by
  simp only [writeSlot, bind_eq_ok, requireSlot_eq_ok, pure, Except.pure, Except.ok.injEq]
  exact ⟨fun ⟨s, hs, he⟩ => ⟨⟨s, hs⟩, he.symm⟩, fun ⟨⟨s, hs⟩, he⟩ => ⟨s, hs, he.symm⟩⟩

/-- **Dropping a template** writes a literal, connects an operand to an operator with room for it, or
connects a block to a slot of another block. -/
theorem attachTo_cases {suffix : Nat → String} {first : Nat} {path : Path} {slot : String}
    {template owner edited : Block}
    (h : Block.attachTo suffix first path slot template owner = .ok edited) :
    ∃ s, owner.slot? slot = some s ∧ (s.accepts = [] ∨ template.kind ∈ s.accepts) ∧
      ((template.kind = .value ∧
          edited = owner.writeValue slot (some (template.value.getD (.text "")))) ∨
        (template.kind ≠ .value ∧ owner.kind = .operator ∧ owner.requireRoom s = .ok () ∧
          owner.attachOperand slot (template.instantiate suffix first) = .ok edited) ∨
        (template.kind ≠ .value ∧ owner.kind ≠ .operator ∧
          edited = owner.connect slot (some (template.instantiate suffix first)))) := by
  rw [attachTo] at h
  obtain ⟨s, hs, h⟩ := bind_eq_ok.mp h
  refine ⟨s, requireSlot_eq_ok.mp hs, ?_⟩
  split at h
  · cases h
  · next ha =>
    refine ⟨by by_contra hn; exact ha (by simpa using hn), ?_⟩
    split at h
    · next hv => exact Or.inl ⟨hv, (Except.ok.inj h).symm⟩
    · next hv =>
      split at h
      · next ho =>
        obtain ⟨⟨⟩, hr, h⟩ := bind_eq_ok.mp h
        exact Or.inr (Or.inl ⟨hv, ho, hr, mapError_eq_ok.mp h⟩)
      · next ho => exact Or.inr (Or.inr ⟨hv, ho, (Except.ok.inj h).symm⟩)

/-- Connecting an operand fills the slot; the operator grows if that was its last slot. -/
theorem attachOperand_cases {operator edited operand : Block} {slot : String}
    (h : operator.attachOperand slot operand = .ok edited) :
    ∃ filled, filled = (operator.connect slot (some operand)).relabeled ∧
      ((filled.slots.getLast?.map Slot.id = some slot ∧ filled.isFull = false ∧
          ∃ s, Slot.nextGrowth filled.slots = .ok s ∧
            edited = { filled with slots := filled.slots ++ [s] }) ∨
        ((filled.slots.getLast?.map Slot.id ≠ some slot ∨ filled.isFull = true) ∧
          edited = filled)) := by
  refine ⟨_, rfl, ?_⟩
  rw [attachOperand] at h
  split at h
  · next hl =>
    rw [grown] at h
    split at h
    · next hf => exact Or.inr ⟨Or.inr hf, (Except.ok.inj h).symm⟩
    · next hf =>
      obtain ⟨s, hs, h⟩ := bind_eq_ok.mp h
      exact Or.inl ⟨hl, by simpa using hf, s, hs, (Except.ok.inj h).symm⟩
  · next hl => exact Or.inr ⟨Or.inl hl, (Except.ok.inj h).symm⟩

/-- Detaching from an operator keeps its operands, if the next growth slot can be made. -/
theorem detachFrom_of_operator (path : Path) {slot : String} {owner : Block} {s : Slot}
    (hs : owner.slot? slot = some s) (hk : owner.kind = .operator) :
    Block.detachFrom path slot owner =
      ((Slot.nextGrowth (owner.connect slot none).connectedSlots).map fun g =>
        { owner with
          slots := Slot.relabel 1 (owner.connect slot none).connectedSlots ++ [g] }).mapError
            .numeral := by
  rw [detachFrom, requireSlot_eq_ok.mpr hs]
  simp only [bind, Except.bind]
  rw [if_pos hk, regrown]
  cases Slot.nextGrowth (owner.connect slot none).connectedSlots <;> rfl

/-- **Detaching** empties a slot; an operator keeps its operands and gets a growth slot. -/
theorem detachFrom_cases {path : Path} {slot : String} {owner edited : Block}
    (h : Block.detachFrom path slot owner = .ok edited) :
    ∃ s emptied, owner.slot? slot = some s ∧ emptied = owner.connect slot none ∧
      ((owner.kind = .operator ∧ ∃ g, Slot.nextGrowth emptied.connectedSlots = .ok g ∧
          edited = { emptied with slots := Slot.relabel 1 emptied.connectedSlots ++ [g] }) ∨
        (owner.kind ≠ .operator ∧ edited = emptied)) := by
  rw [detachFrom] at h
  obtain ⟨s, hs, h⟩ := bind_eq_ok.mp h
  refine ⟨s, _, requireSlot_eq_ok.mp hs, rfl, ?_⟩
  simp only at h
  split at h
  · next ho =>
    rw [mapError_eq_ok, regrown] at h
    obtain ⟨g, hg, h⟩ := bind_eq_ok.mp h
    exact Or.inl ⟨ho, g, hg, (Except.ok.inj h).symm⟩
  · next ho => exact Or.inr ⟨ho, (Except.ok.inj h).symm⟩

/-- The new parameter slot has the id of its number, which is new, and an empty text. -/
theorem parameterSlot_cases {owner : Block} {n : Int} {s : Slot}
    (h : owner.parameterSlot n = .ok s) : ∃ number position,
      Text.writeInt n = .ok number ∧ owner.slot? s.id = none ∧
        s = ⟨Slot.parameterStem ++ number, [.value], "Parameter " ++ position, some (.text ""), none,
          some Slot.textInput, none⟩ := by
  rw [parameterSlot] at h
  obtain ⟨number, hn, h⟩ := bind_eq_ok.mp h
  simp only at h
  split at h
  · cases h
  · next hnone =>
    obtain ⟨position, -, h⟩ := bind_eq_ok.mp h
    obtain rfl := (Except.ok.inj h).symm
    exact ⟨number, position, mapError_eq_ok.mp hn, by simpa using hnone, rfl⟩

/-- **Adding a parameter** inserts the slot of the next number and counts it. -/
theorem addParameter_cases {owner edited : Block} (h : owner.addParameter = .ok edited) :
    ∃ s, owner.parameterSlot owner.nextParameter = .ok s ∧
      edited = { owner with
        slots := Slot.insertParameter s owner.slots
        properties := Json.setField owner.properties "parameterCount"
          (.int (owner.nextParameter + 1)) } := by
  rw [addParameter] at h
  obtain ⟨s, hs, h⟩ := bind_eq_ok.mp h
  exact ⟨s, hs, (Except.ok.inj h).symm⟩

end Block

namespace Edit

/-- The path to the block that an edit addresses. -/
def path : Edit → Path
  | .attach path _ _ | .detach path _ | .setValue path _ _ | .setComparator path _ _
  | .addParameter path => path

/-- What an edit does to the block that it addresses. -/
def onBlock (suffix : Nat → String) (first : Nat) : Edit → Block → Except EditFault Block
  | .attach path slot template, owner => Block.attachTo suffix first path slot template owner
  | .detach path slot, owner => Block.detachFrom path slot owner
  | .setValue path slot value, owner =>
    Block.writeSlot path slot (fun s => { s with value := value }) owner
  | .setComparator path slot comparator, owner => do
    let c ← pickedComparator slot comparator
    Block.writeSlot path slot (fun s => { s with comparator := some c }) owner
  | .addParameter _, owner => owner.addParameter

/-- **The tree after an edit** has the edited block at the end of the path. -/
theorem apply_eq_ok {suffix : Nat → String} {first : Nat} {root next : Block} {e : Edit} :
    e.apply suffix first root = .ok next ↔ ∃ owner edited, root.at? e.path = some owner ∧
      e.onBlock suffix first owner = .ok edited ∧ next = root.replaceAt e.path edited := by
  cases e with
  | attach path slot template => exact Block.editAt_eq_ok
  | detach path slot => exact Block.editAt_eq_ok
  | setValue path slot value => exact Block.editAt_eq_ok
  | setComparator path slot comparator =>
    simp only [apply, onBlock, bind_eq_ok, Block.editSlot]
    constructor
    · rintro ⟨c, hc, h⟩
      obtain ⟨owner, edited, ho, he, rfl⟩ := Block.editAt_eq_ok.mp h
      exact ⟨owner, edited, ho, ⟨c, hc, he⟩, rfl⟩
    · rintro ⟨owner, edited, ho, ⟨c, hc, he⟩, rfl⟩
      exact ⟨c, hc, Block.editAt_eq_ok.mpr ⟨owner, edited, ho, he, rfl⟩⟩
  | addParameter path => exact Block.editAt_eq_ok

end Edit

end AccessTree
