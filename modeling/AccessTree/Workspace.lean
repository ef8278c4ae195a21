import AccessTree.Block.Wire
import AccessTree.Problem

/-! # Workspaces

A workspace file holds the blocks of a composition: a list of blocks, one block alone, or an object
whose field `blocks` holds either. -/

namespace AccessTree

/-- Why a value is no workspace. -/
inductive WorkspaceFault where
  /-- The value is neither an object nor a list. -/
  | shape (found : Json)
  /-- Some block is no block. -/
  | malformed (issues : List Issue)
  deriving DecidableEq

/-- The failure that a fault amounts to. -/
def WorkspaceFault.toFailure : WorkspaceFault → Failure
  | .shape found =>
    .problem ⟨.validation,
      "Input must be a block, a list of blocks or an object with a 'blocks' list",
      [("type", .str found.className)]⟩
  | .malformed issues =>
    .problem ⟨.validation, "Input is not a valid block tree",
      [("errors", Issue.listToJsonWithInput issues)]⟩

namespace Workspace

/-- The content of the field `blocks` if there is one, or else the value itself. -/
def content : Json → Json
  | .obj fields => (fields.lookup "blocks").getD (.obj fields)
  | v => v

/-- The blocks of a list, or a block alone. -/
def items? : Json → Option (List Json)
  | .arr items => some items
  | .obj fields => some [.obj fields]
  | _ => none

/-- **The blocks of a workspace.** -/
def read (v : Json) : Except WorkspaceFault (List Block) :=
  match items? (content v) with
  | none => .error (.shape (content v))
  | some items => (Checked.items (Block.ofJson .byType) 0 items).toExcept.mapError .malformed

end Workspace

end AccessTree
