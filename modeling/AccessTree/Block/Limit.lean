import AccessTree.Block.Basic
import AccessTree.Problem

/-! # Limits on block trees

Trees that arrive over the network may have so many levels and so many blocks. The limits are
checked on raw JSON, before blocks are read, and on trees again after an edit. In raw JSON a block
is any object, and the blocks below it are the objects under `connected` in the objects listed under
`inputs`; whatever else there is does not count. -/

namespace AccessTree

/-- Limits on trees. -/
structure TreeLimits where
  maxDepth : Int
  maxBlocks : Int

/-- A limit that is exceeded. -/
inductive LimitFault where
  | tooDeep (limit : Int) (depth : Nat)
  | tooMany (limit : Int) (blocks : Nat)
  deriving DecidableEq

namespace LimitFault

/-- The wording of a fault. -/
def message : LimitFault → String
  | .tooDeep limit _ => "Block tree exceeds maximum depth of " ++ Text.ofInt limit
  | .tooMany limit blocks =>
    "Block tree exceeds maximum node count of " ++ Text.ofInt limit ++ " (got " ++
      Text.ofNat blocks ++ " blocks)"

/-- The figures of a fault. -/
def details : LimitFault → Fields
  | .tooDeep limit depth => [("depth", .nat depth), ("max_depth", .int limit)]
  | .tooMany limit blocks => [("node_count", .nat blocks), ("max_nodes", .int limit)]

/-- The problem with an edited tree. -/
def toFailure (f : LimitFault) : Failure := .problem ⟨.validation, f.message, f.details⟩

end LimitFault

namespace RawTree

/-! ### Counting blocks in raw JSON -/

mutual
/-- The number of blocks in a raw tree. -/
def size : Json → Nat
  | .obj fields => 1 + sizeInputs fields
  | _ => 0

/-- The number of blocks under `inputs`. -/
def sizeInputs : List (String × Json) → Nat
  | [] => 0
  | (k, v) :: rest => if k = "inputs" then sizeSlots v else sizeInputs rest

/-- The number of blocks in a list of slots. -/
def sizeSlots : Json → Nat
  | .arr items => sizeItems items
  | _ => 0

/-- The number of blocks in slots. -/
def sizeItems : List Json → Nat
  | [] => 0
  | v :: rest => sizeSlot v + sizeItems rest

/-- The number of blocks in a slot. -/
def sizeSlot : Json → Nat
  | .obj fields => sizeConnected fields
  | _ => 0

/-- The number of blocks under `connected`. -/
def sizeConnected : List (String × Json) → Nat
  | [] => 0
  | (k, v) :: rest => if k = "connected" then size v else sizeConnected rest
end

/-! ### Levels of raw JSON -/

mutual
/-- The number of levels of a raw tree. -/
def depth : Json → Nat
  | .obj fields => 1 + depthInputs fields
  | _ => 0

/-- The number of levels under `inputs`. -/
def depthInputs : List (String × Json) → Nat
  | [] => 0
  | (k, v) :: rest => if k = "inputs" then depthSlots v else depthInputs rest

/-- The number of levels in a list of slots. -/
def depthSlots : Json → Nat
  | .arr items => depthItems items
  | _ => 0

/-- The number of levels in slots. -/
def depthItems : List Json → Nat
  | [] => 0
  | v :: rest => max (depthSlot v) (depthItems rest)

/-- The number of levels in a slot. -/
def depthSlot : Json → Nat
  | .obj fields => depthConnected fields
  | _ => 0

/-- The number of levels under `connected`. -/
def depthConnected : List (String × Json) → Nat
  | [] => 0
  | (k, v) :: rest => if k = "connected" then depth v else depthConnected rest
end

/-! ### Checks -/

/-- The trees that a value holds: its items, or itself. -/
def roots : Json → List Json
  | .arr items => items
  | v => [v]

/-- Checks the levels of one raw tree. -/
def checkDepth (limit : Int) (tree : Json) : Except LimitFault Unit :=
  if limit < depth tree then .error (.tooDeep limit (depth tree)) else .ok ()

/-- The number of blocks in all trees that a value holds. -/
def totalSize (v : Json) : Nat := (roots v).foldr (fun tree n => size tree + n) 0

/-- Checks the number of blocks in all trees that a value holds. -/
def checkSize (limit : Int) (v : Json) : Except LimitFault Unit :=
  if limit < totalSize v then .error (.tooMany limit (totalSize v)) else .ok ()

/-- Whether a value is an object. -/
def isObject : Json → Bool
  | .obj _ => true
  | _ => false

/-- **Checks all trees that a value holds:** first the levels of each, then the number of blocks. -/
def check (limits : TreeLimits) (v : Json) : Except LimitFault Unit := do
  ((roots v).filter isObject).forM (checkDepth limits.maxDepth)
  checkSize limits.maxBlocks v

end RawTree

/-- Checks an edited tree. -/
def Block.checkLimits (limits : TreeLimits) (root : Block) : Except LimitFault Unit :=
  if limits.maxDepth < root.depth then .error (.tooDeep limits.maxDepth root.depth)
  else if limits.maxBlocks < root.size then .error (.tooMany limits.maxBlocks root.size)
  else .ok ()

end AccessTree
