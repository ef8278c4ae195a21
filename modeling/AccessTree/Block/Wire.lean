import AccessTree.Block.Basic
import AccessTree.Schema.Field

/-! # Blocks on the wire

Blocks are exchanged as JSON objects. `Block.toJson` writes one and leaves out the fields that are
not set; a stored truth value is written as one or zero. `Block.ofJson` reads one, fills in
defaults, ignores fields that it does not know, and collects the issues of all parts in the order of
the fields. How a part that is no object is reported depends on the client, see `BlockReading`. -/

namespace AccessTree

/-- How a value that is no object is reported where a block or a slot is asked for. -/
inductive BlockReading where
  /-- As no block, or no slot. -/
  | byType
  /-- As something without fields. -/
  | byFields
  deriving DecidableEq, Repr

namespace BlockReading

/-- The cause of an issue about a value that is no object. -/
def notObject (r : BlockReading) (typeName : String) : IssueCause :=
  match r with
  | .byType => .notA typeName
  | .byFields => .noFields

end BlockReading

/-! ### Writing -/

/-- A literal as it is written on the wire. -/
def Literal.toWire : Literal → Json
  | .flag b => .int (if b then 1 else 0)
  | l => l.toJson.portable

/-- A field that is left out if it is not set. -/
def wireField {α : Type} (name : String) (value : Option α) (write : α → Json) : Fields :=
  match value with
  | none => []
  | some a => [(name, write a)]

mutual
/-- **A block on the wire.** -/
def Block.toJson : Block → Json
  | ⟨id, kind, category, label, properties, slots, value, isTemplate⟩ =>
    .obj ([("id", .str id), ("type", .str kind.name), ("category", .str category),
        ("label", .str label), ("properties", .obj (Json.portableFields properties)),
        ("inputs", .arr (Slot.listToJson slots))] ++
      wireField "value" value Literal.toWire ++ [("isTemplate", .bool isTemplate)])

/-- Slots on the wire. -/
def Slot.listToJson : List Slot → List Json
  | [] => []
  | ⟨id, accepts, label, value, comparator, inputType, none⟩ :: rest =>
    .obj ([("id", .str id), ("type", Json.texts (accepts.map BlockKind.name)),
        ("label", .str label)] ++ wireField "value" value Literal.toWire ++
      wireField "comparator" comparator (fun c => .str c.name) ++
      wireField "inputType" inputType .str) :: Slot.listToJson rest
  | ⟨id, accepts, label, value, comparator, inputType, some b⟩ :: rest =>
    .obj ([("id", .str id), ("type", Json.texts (accepts.map BlockKind.name)),
        ("label", .str label)] ++ wireField "value" value Literal.toWire ++
      wireField "comparator" comparator (fun c => .str c.name) ++
      wireField "inputType" inputType .str ++ [("connected", b.toJson)]) :: Slot.listToJson rest
end

/-! ### Reading -/

open Schema

/-- The id of a block, which is not blank. -/
def blockId (v : Json) : Checked String :=
  (text v).ensure (fun s => !Text.allBlank s) "Block id cannot be empty" v

/-- A block from its fields and what was read of its slots, if it has any. -/
def Block.ofFields (fields : Fields) (slots : Option (Checked (List Slot))) : Checked Block :=
  Block.mk <$> required fields (.same "id") blockId
    <*> required fields ⟨"type", "kind"⟩ (word BlockKind)
    <*> optional fields (.same "category") "" text
    <*> optional fields (.same "label") "" text
    <*> optional fields (.same "properties") [] object
    <*> (match slots with
      | none => .ok []
      | some read => read.under (.field "inputs"))
    <*> optional fields (.same "value") none (nullable literal)
    <*> optional fields ⟨"isTemplate", "is_template"⟩ false truth

/-- A slot from its fields and what was read of its block, if it has any. -/
def Slot.ofFields (fields : Fields) (connected : Option (Checked (Option Block))) : Checked Slot :=
  Slot.mk <$> required fields (.same "id") text
    <*> optional fields ⟨"type", "accepts"⟩ [] (list (word BlockKind))
    <*> optional fields (.same "label") "" text
    <*> optional fields (.same "value") none (nullable literal)
    <*> optional fields (.same "comparator") none (nullable (word Comparator))
    <*> optional fields ⟨"inputType", "input_type"⟩ none (nullable text)
    <*> (match connected with
      | none => .ok none
      | some read => read.under (.field "connected"))

mutual
/-- **The block that a JSON value is.** -/
def Block.ofJson (r : BlockReading) : Json → Checked Block
  | .obj fields => Block.ofFields fields (slotsIn r fields)
  | v => .reject (r.notObject "Block") v

/-- The slots among the fields of a block. -/
def slotsIn (r : BlockReading) : List (String × Json) → Option (Checked (List Slot))
  | [] => none
  | (k, v) :: rest => if k = "inputs" then some (slotList r v) else slotsIn r rest

/-- A list of slots. -/
def slotList (r : BlockReading) : Json → Checked (List Slot)
  | .arr items => slotItems r 0 items
  | v => .reject .notList v

/-- Slots, which are counted from `i`. -/
def slotItems (r : BlockReading) (i : Nat) : List Json → Checked (List Slot)
  | [] => .ok []
  | v :: rest => List.cons <$> (Slot.ofJson r v).under (.index i) <*> slotItems r (i + 1) rest

/-- The slot that a JSON value is. -/
def Slot.ofJson (r : BlockReading) : Json → Checked Slot
  | .obj fields => Slot.ofFields fields (blockIn r fields)
  | v => .reject (r.notObject "BlockInput") v

/-- The connected block among the fields of a slot. -/
def blockIn (r : BlockReading) : List (String × Json) → Option (Checked (Option Block))
  | [] => none
  | (k, v) :: rest => if k = "connected" then some (blockOrNull r v) else blockIn r rest

/-- `null` or a block. -/
def blockOrNull (r : BlockReading) : Json → Checked (Option Block)
  | .null => .ok none
  | .obj fields => some <$> Block.ofFields fields (slotsIn r fields)
  | v => .reject (r.notObject "Block") v
end

end AccessTree
