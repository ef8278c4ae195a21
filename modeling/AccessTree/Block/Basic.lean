import AccessTree.Comparator
import AccessTree.Literal

/-! # Block trees

A `Block` is a node of the composition that a user builds: a condition, an operator or a value. It
owns an ordered list of slots, and a `Slot` holds a literal, a connected block, both or nothing. A
block belongs to the one slot it is connected to, so blocks form trees.

The walks come in pairs, one function for a block and one for a list of slots. `nested` lists a
block and all blocks below it, depth first and in slot order; the ids, the number and the depth of
the blocks are read off the tree in the same way. -/

namespace AccessTree

/-- The kinds of blocks. -/
inductive BlockKind where
  | condition
  | operator
  | value
  deriving DecidableEq, Repr

instance : Word BlockKind where
  all := [.condition, .operator, .value]
  name
    | .condition => "condition"
    | .operator => "operator"
    | .value => "value"

/-- The name of a kind. -/
def BlockKind.name (k : BlockKind) : String := Word.name k

mutual
/-- **A node of a composition.** -/
structure Block where
  id : String
  kind : BlockKind
  category : String
  label : String
  /-- Free-form settings of the block. -/
  properties : Fields
  slots : List Slot
  /-- The literal of a value block. -/
  value : Option Literal
  /-- Whether the block is a prototype rather than a placed block. -/
  isTemplate : Bool

/-- **A named place on a block.** -/
structure Slot where
  id : String
  /-- The kinds of blocks that may be connected; any kind if the list is empty. -/
  accepts : List BlockKind
  label : String
  value : Option Literal
  comparator : Option Comparator
  /-- How the text field of the slot is shown. -/
  inputType : Option String
  connected : Option Block
end

namespace Slot

/-- Whether nothing is connected. -/
def isEmpty (s : Slot) : Bool := s.connected.isNone

end Slot

namespace Block

/-- The first slot of an id. -/
def slot? (b : Block) (id : String) : Option Slot := b.slots.find? fun s => s.id = id

/-- The slots with a connected block, in order. -/
def connectedSlots (b : Block) : List Slot := b.slots.filter fun s => !s.isEmpty

/-- A property of the block, `null` if there is none. -/
def property (b : Block) (key : String) : Json := Json.valueAt b.properties key

/-- The most operands that an operator may have, if a bound is set. -/
def maxInputs (b : Block) : Option Nat :=
  match b.property "maxInputs" with
  | .int n => if 1 ≤ n then some n.toNat else none
  | _ => none

/-! ### Walks -/

mutual
/-- A block and all blocks below it, depth first. -/
def nested : Block → List Block
  | ⟨id, kind, category, label, properties, slots, value, isTemplate⟩ =>
    ⟨id, kind, category, label, properties, slots, value, isTemplate⟩ :: nestedSlots slots

/-- All blocks below a list of slots, depth first. -/
def nestedSlots : List Slot → List Block
  | [] => []
  | ⟨_, _, _, _, _, _, none⟩ :: rest => nestedSlots rest
  | ⟨_, _, _, _, _, _, some b⟩ :: rest => nested b ++ nestedSlots rest
end

/-- The ids of a block and all blocks below it. -/
def ids (b : Block) : List String := b.nested.map Block.id

/-- The blocks below a block. -/
def descendants (b : Block) : List Block := nestedSlots b.slots

/-- The number of blocks in a tree. -/
def size (b : Block) : Nat := b.nested.length

mutual
/-- The number of levels of a tree. -/
def depth : Block → Nat
  | ⟨_, _, _, _, _, slots, _, _⟩ => 1 + depthSlots slots

/-- The number of levels below a list of slots. -/
def depthSlots : List Slot → Nat
  | [] => 0
  | ⟨_, _, _, _, _, _, none⟩ :: rest => depthSlots rest
  | ⟨_, _, _, _, _, _, some b⟩ :: rest => max (depth b) (depthSlots rest)
end

theorem nested_eq (b : Block) : b.nested = b :: nestedSlots b.slots := by
  cases b; rw [nested]

theorem depth_eq (b : Block) : b.depth = 1 + depthSlots b.slots := by
  cases b; rw [depth]

/-! ### Workspaces -/

/-- The ids of all blocks that are connected to a slot somewhere in the trees. -/
def connectedIds (blocks : List Block) : List String :=
  blocks.flatMap fun b => b.descendants.map Block.id

/-- The blocks whose id is the id of no connected block, in order. -/
def topLevel (blocks : List Block) : List Block :=
  let connected := connectedIds blocks
  blocks.filter fun b => !connected.contains b.id

end Block

end AccessTree
