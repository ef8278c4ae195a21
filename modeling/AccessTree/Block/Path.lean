import AccessTree.Block.Basic

/-! # Paths in block trees

A path is the list of the slot ids to follow from the root of a tree down to a block; the empty path
leads to the root itself. `at?` follows a path, `resolve` follows it and says where it leaves the
tree, and `replaceAt` puts another block at its end. Where several slots of a block have the same
id, the first one counts. -/

namespace AccessTree

/-- The ids of the slots to follow from a block downwards. -/
abbrev Path := List String

/-- Where a path leaves a tree. -/
structure PathFault where
  path : Path
  /-- The number of steps that could be taken. -/
  depth : Nat
  /-- The id of the slot that leads nowhere. -/
  slot : String
  /-- The id of the last block that was reached. -/
  block : String
  deriving DecidableEq

namespace Slot

/-- Applies `f` to the first slot of an id. -/
def modifyFirst (id : String) (f : Slot → Slot) : List Slot → List Slot
  | [] => []
  | s :: rest => if s.id = id then f s :: rest else s :: modifyFirst id f rest

end Slot

namespace Block

/-- The block that is connected to the slot of an id. -/
def child? (b : Block) (slot : String) : Option Block := (b.slot? slot).bind Slot.connected

/-- The block at the end of a path. -/
def at? : Block → Path → Option Block
  | b, [] => some b
  | b, slot :: rest => (b.child? slot).bind fun c => c.at? rest

/-- Follows the rest of `path` from a block that was reached in `depth` steps. -/
def resolveFrom (path : Path) (depth : Nat) : Block → Path → Except PathFault Block
  | b, [] => .ok b
  | b, slot :: rest =>
    match b.child? slot with
    | none => .error ⟨path, depth, slot, b.id⟩
    | some c => resolveFrom path (depth + 1) c rest

/-- **The block at the end of a path**, or where the path leaves the tree. -/
def resolve (root : Block) (path : Path) : Except PathFault Block := resolveFrom path 0 root path

/-- Applies `f` to the first slot of an id. -/
def modifySlot (b : Block) (slot : String) (f : Slot → Slot) : Block :=
  { b with slots := Slot.modifyFirst slot f b.slots }

/-- The tree with `new` at the end of a path. -/
def replaceAt : Block → Path → Block → Block
  | _, [], new => new
  | b, slot :: rest, new =>
    b.modifySlot slot fun s => { s with connected := s.connected.map fun c => c.replaceAt rest new }

end Block

end AccessTree
