import AccessTree.Block.Growth
import AccessTree.Block.Invariant
import AccessTree.Edit.Fault

/-! # Edits of block trees

An `Edit` addresses a slot by the path to the block that owns it and the id of the slot. Edits give
a new tree and leave the old one alone. `attach` drops a copy of a template onto a slot and `detach`
takes off what is connected, where an operator keeps exactly one empty slot to grow by; `setValue`
and `setComparator` write a field of a slot, and `addParameter` adds a parameter slot.

The copy of a template gets new ids: the id of the template's block, a hyphen and a suffix. The
suffixes are given by a function, and the blocks of a copy take consecutive ones, depth first, from
the `first` one on. -/

namespace AccessTree

/-- **An edit of a tree.** -/
inductive Edit where
  | attach (path : Path) (slot : String) (template : Block)
  | detach (path : Path) (slot : String)
  | setValue (path : Path) (slot : String) (value : Option Literal)
  /-- The comparator is given by what a user entered. -/
  | setComparator (path : Path) (slot comparator : String)
  | addParameter (path : Path)

namespace Slot

/-- Labels the slots with a connected block by consecutive numbers from `i` on. -/
def relabel (i : Nat) : List Slot → List Slot
  | [] => []
  | s :: rest =>
    if s.isEmpty then s :: relabel i rest
    else { s with label := "Condition " ++ Text.ofNat i } :: relabel (i + 1) rest

/-- The hint for a text field that takes any text. -/
def textInput : String := "text"

/-- The slot of a placed block, which has a literal and a hint at least. -/
def initialized (s : Slot) : Slot :=
  { s with value := some (s.value.getD (.text "")), inputType := some (s.inputType.getD textInput) }

/-- Whether a slot is a parameter slot. -/
def isParameter (s : Slot) : Bool := s.parameterDigits?.isSome

/-- Inserts a slot after the last parameter slot, or at the end if there is none. -/
def insertParameter (new : Slot) : List Slot → List Slot
  | [] => [new]
  | s :: rest =>
    if s.isParameter && !rest.any isParameter then s :: new :: rest
    else s :: insertParameter new rest

end Slot

namespace Block

/-! ### Copies of templates -/

mutual
/-- The block and those below it as placed blocks, with new ids. -/
def renewed (suffix : Nat → String) (first : Nat) : Block → Block
  | ⟨id, kind, category, label, properties, slots, value, _⟩ =>
    ⟨id ++ "-" ++ suffix first, kind, category, label, properties,
      renewedSlots suffix (first + 1) slots, value, false⟩

/-- The slots with new ids for the blocks below them. -/
def renewedSlots (suffix : Nat → String) (first : Nat) : List Slot → List Slot
  | [] => []
  | ⟨id, accepts, label, value, comparator, inputType, none⟩ :: rest =>
    ⟨id, accepts, label, value, comparator, inputType, none⟩ :: renewedSlots suffix first rest
  | ⟨id, accepts, label, value, comparator, inputType, some b⟩ :: rest =>
    ⟨id, accepts, label, value, comparator, inputType, some (renewed suffix first b)⟩ ::
      renewedSlots suffix (first + b.size) rest
end

/-- The copy of a template that is placed. -/
def instantiate (suffix : Nat → String) (first : Nat) (template : Block) : Block :=
  let b := template.renewed suffix first
  { b with slots := b.slots.map Slot.initialized }

/-! ### Edits of one block -/

/-- The slot of an id on the block at the end of a path. -/
def requireSlot (owner : Block) (path : Path) (slot : String) : Except EditFault Slot :=
  match owner.slot? slot with
  | some s => .ok s
  | none => .error (.noSlot path slot owner.id (owner.slots.map Slot.id))

/-- The block with its operands labelled by consecutive numbers. -/
def relabeled (owner : Block) : Block := { owner with slots := Slot.relabel 1 owner.slots }

/-- Writes the literal of a value block into a slot. -/
def writeValue (owner : Block) (slot : String) (value : Option Literal) : Block :=
  owner.modifySlot slot fun s => { s with value := value }

/-- Connects a block to a slot. -/
def connect (owner : Block) (slot : String) (child : Option Block) : Block :=
  owner.modifySlot slot fun s => { s with connected := child }

/-- The operator with a growth slot at the end, unless it may not have more operands. -/
def grown (operator : Block) : Except NumeralFault Block :=
  if operator.isFull then .ok operator
  else do
    let slot ← Slot.nextGrowth operator.slots
    return { operator with slots := operator.slots ++ [slot] }

/-- Connects an operand to a slot of an operator; if that is the last slot, the operator grows. -/
def attachOperand (operator : Block) (slot : String) (operand : Block) :
    Except NumeralFault Block :=
  let filled := (operator.connect slot (some operand)).relabeled
  if filled.slots.getLast?.map Slot.id = some slot then filled.grown else .ok filled

/-- Refuses one more operand if the bound is reached. -/
def requireRoom (operator : Block) (slot : Slot) : Except EditFault Unit :=
  match operator.maxInputs with
  | some bound =>
    if slot.isEmpty && operator.isFull then .error (.full operator.id bound) else .ok ()
  | none => .ok ()

/-- Drops a template onto a slot. -/
def attachTo (suffix : Nat → String) (first : Nat) (path : Path) (slot : String) (template : Block)
    (owner : Block) : Except EditFault Block := do
  let s ← owner.requireSlot path slot
  if s.accepts ≠ [] ∧ template.kind ∉ s.accepts then
    .error (.notAccepted slot s.accepts template.kind)
  else if template.kind = .value then
    return owner.writeValue slot (some (template.value.getD (.text "")))
  else if owner.kind = .operator then
    owner.requireRoom s
    (owner.attachOperand slot (template.instantiate suffix first)).mapError .numeral
  else return owner.connect slot (some (template.instantiate suffix first))

/-- The operator with its operands and one growth slot as its only slots. -/
def regrown (operator : Block) : Except NumeralFault Block := do
  let operands := operator.connectedSlots
  let slot ← Slot.nextGrowth operands
  return { operator with slots := Slot.relabel 1 operands ++ [slot] }

/-- Takes off what is connected to a slot. -/
def detachFrom (path : Path) (slot : String) (owner : Block) : Except EditFault Block := do
  let _ ← owner.requireSlot path slot
  let emptied := owner.connect slot none
  if owner.kind = .operator then emptied.regrown.mapError .numeral else return emptied

/-- The number that a new parameter slot gets. -/
def nextParameter (owner : Block) : Int :=
  match owner.property "parameterCount" with
  | .int n => n
  | _ => (owner.slots.filter Slot.isParameter).length

/-- The parameter slot with a number. -/
def parameterSlot (owner : Block) (n : Int) : Except EditFault Slot := do
  let number ← (Text.writeInt n).mapError .numeral
  let id := Slot.parameterStem ++ number
  if (owner.slot? id).isSome then .error (.slotExists owner.id id n)
  else
    let position ← (Text.writeInt (n + 1)).mapError .numeral
    return ⟨id, [.value], "Parameter " ++ position, some (.text ""), none, some Slot.textInput,
      none⟩

/-- Adds a parameter slot. -/
def addParameter (owner : Block) : Except EditFault Block := do
  let n := owner.nextParameter
  let slot ← owner.parameterSlot n
  return { owner with
    slots := Slot.insertParameter slot owner.slots
    properties := Json.setField owner.properties "parameterCount" (.int (n + 1)) }

/-! ### Edits of trees -/

/-- Edits the block at the end of a path. -/
def editAt (root : Block) (path : Path) (edit : Block → Except EditFault Block) :
    Except EditFault Block := do
  let owner ← (root.resolve path).mapError .noBlock
  let edited ← edit owner
  return root.replaceAt path edited

/-- Writes a field of the slot of an id on the block at the end of a path. -/
def editSlot (root : Block) (path : Path) (slot : String) (f : Slot → Slot) :
    Except EditFault Block :=
  root.editAt path fun owner => do
    let _ ← owner.requireSlot path slot
    return owner.modifySlot slot f

end Block

namespace Edit

/-- The comparator that a user picked for a slot. -/
def pickedComparator (slot comparator : String) : Except EditFault Comparator :=
  match Comparator.selectable.find? fun c => c.name = comparator with
  | none => .error (.notSelectable comparator)
  | some c => if comparedSlots.contains slot then .ok c else .error (.notCompared slot)

/-- **The tree after an edit**, where new ids take suffixes from the `first` one on. -/
def apply (suffix : Nat → String) (first : Nat) (root : Block) : Edit → Except EditFault Block
  | .attach path slot template =>
    root.editAt path (Block.attachTo suffix first path slot template)
  | .detach path slot => root.editAt path (Block.detachFrom path slot)
  | .setValue path slot value => root.editSlot path slot fun s => { s with value := value }
  | .setComparator path slot comparator => do
    let c ← pickedComparator slot comparator
    root.editSlot path slot fun s => { s with comparator := some c }
  | .addParameter path => root.editAt path Block.addParameter

/-- The number of suffixes that an edit used up: those of a copy that was made, also if the number
of the growth slot was too long afterwards. -/
def suffixesUsed : Edit → Except EditFault Block → Nat
  | .attach _ _ template, .ok _ => if template.kind = .value then 0 else template.size
  | .attach _ _ template, .error (.numeral _) => template.size
  | _, _ => 0

end Edit

end AccessTree
