import AccessTree.Block.Path
import AccessTree.Problem

/-! # Refused edits

An `EditFault` says why an edit of a block tree is refused. A refused edit changes nothing. -/

namespace AccessTree

/-- Why an edit is refused. -/
inductive EditFault where
  /-- The path leaves the tree. -/
  | noBlock (fault : PathFault)
  /-- The block at the end of the path has no slot of the id. -/
  | noSlot (path : Path) (slot block : String) (available : List String)
  /-- The slot takes no blocks of the kind. -/
  | notAccepted (slot : String) (accepts : List BlockKind) (kind : BlockKind)
  /-- The operator has as many operands as it may have. -/
  | full (block : String) (bound : Nat)
  /-- The comparator is none that a user may pick. -/
  | notSelectable (entered : String)
  /-- The slot is not compared with anything. -/
  | notCompared (slot : String)
  /-- The block has the parameter slot already. -/
  | slotExists (block slot : String) (count : Int)
  /-- The number of a slot is too long. -/
  | numeral (fault : NumeralFault)
  deriving DecidableEq

/-- The slots that show a comparator next to their text field, in alphabetical order. -/
def comparedSlots : List String := ["expectedValue", "minBalance", "minTimestamp", "tokenAmount"]

namespace EditFault

/-- A problem with an edit. -/
def problem (category : Category) (message : String) (details : Fields) : Failure :=
  .problem ⟨category, message, details⟩

/-- The failure that a fault amounts to. -/
def toFailure : EditFault → Failure
  | .noBlock f =>
    problem .notFound ("No connected block at path segment '" ++ f.slot ++ "'")
      [("path", Json.texts f.path), ("depth", .nat f.depth), ("block_id", .str f.block)]
  | .noSlot path slot block available =>
    problem .notFound ("Block '" ++ block ++ "' has no slot '" ++ slot ++ "'")
      [("path", Json.texts path), ("slot_id", .str slot), ("available", Json.texts available)]
  | .notAccepted slot accepts kind =>
    problem .validation ("Slot '" ++ slot ++ "' does not accept " ++ kind.name ++ " blocks")
      [("slot_id", .str slot), ("accepts", Json.texts (accepts.map BlockKind.name)),
        ("kind", .str kind.name)]
  | .full block bound =>
    problem .conflict ("Operator '" ++ block ++ "' already has " ++ Text.ofNat bound ++
      " operand(s)") [("block_id", .str block), ("max_inputs", .nat bound)]
  | .notSelectable entered =>
    problem .validation ("Invalid comparator '" ++ entered ++ "'")
      [("comparator", .str entered), ("allowed", Json.texts Comparator.selectableNames)]
  | .notCompared slot =>
    problem .validation ("Slot '" ++ slot ++ "' does not take a comparator")
      [("slot_id", .str slot), ("numeric_slots", Json.texts comparedSlots)]
  | .slotExists block slot count =>
    problem .conflict ("Block '" ++ block ++ "' already has a slot '" ++ slot ++ "'")
      [("block_id", .str block), ("parameter_count", .int count)]
  | .numeral f => f.toFailure

end EditFault

end AccessTree
