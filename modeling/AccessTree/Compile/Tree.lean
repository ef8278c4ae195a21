import AccessTree.Compile.Leaf

/-! # Compiling compositions

A composition is compiled from its top-level blocks. A condition block becomes a condition, an
operator block a compound condition of what its operands become, and a value block nothing. What has
no condition is absent: outside strict mode also a block with a gap, which is warned about and
dropped, and in either mode an operator all of whose operands are absent. Several conditions at the
top are joined by `and`. In strict mode the compiled condition is also validated as a document. -/

namespace AccessTree.Compile

/-- The operator that is set in the properties, `and` if none is. -/
def operatorProperty (properties : Fields) : Json :=
  let found := Json.valueAt properties "operator"
  if found.isTruthy then found else .str Operator.and.name

/-- The compound condition of an operator that is set in the properties. -/
def compound (found : Json) (operands : List Condition) : Checked Condition :=
  ((Schema.word Operator found).under (.field "operator")).andThen fun operator =>
    compoundOf (.obj [("operator", found)]) operator operands

/-- The condition of an operator block whose operands have these conditions. -/
def combine (mode : CompileMode) (id : String) (properties : Fields) (operands : List Condition) :
    Outcome (Option Condition) :=
  if operands.isEmpty then .done none
  else
    let found := operatorProperty properties
    Outcome.orDrop mode.strict (.droppedOperator id)
      (some <$> Outcome.ofChecked (.badOperator id found) (compound found operands))

mutual
/-- **The condition of a block and everything connected below it.** -/
def block (mode : CompileMode) : Block → Outcome (Option Condition)
  | ⟨id, kind, category, label, properties, slots, value, isTemplate⟩ =>
    match kind with
    | .value => .done none
    | .condition =>
      Outcome.orDrop mode.strict (.droppedCondition id)
        (some <$> leaf mode ⟨id, kind, category, label, properties, slots, value, isTemplate⟩)
    | .operator => (operands mode slots).andThen (combine mode id properties)

/-- The conditions of the blocks that are connected to slots. -/
def operands (mode : CompileMode) : List Slot → Outcome (List Condition)
  | [] => .done []
  | ⟨_, _, _, _, _, _, none⟩ :: rest => operands mode rest
  | ⟨_, _, _, _, _, _, some b⟩ :: rest =>
    (block mode b).andThen fun c => (operands mode rest).andThen fun cs => .done (c.toList ++ cs)
end

/-- The conditions of several blocks. -/
def each (mode : CompileMode) : List Block → Outcome (List Condition)
  | [] => .done []
  | b :: rest =>
    (block mode b).andThen fun c => (each mode rest).andThen fun cs => .done (c.toList ++ cs)

/-- The top-level blocks that can have a condition. -/
def roots (blocks : List Block) : List Block :=
  (Block.topLevel blocks).filter fun b => b.kind ≠ .value

/-- Several conditions joined by `and`. -/
def joined : List Condition → Option Condition
  | [] => none
  | [c] => some c
  | cs => some (.compound .and cs)

/-- The condition of a composition, before it is validated. -/
def unvalidated (mode : CompileMode) (blocks : List Block) : Outcome (Option Condition) :=
  (each mode (roots blocks)).andThen fun cs => .done (joined cs)

/-- Validates a condition in strict mode. -/
def validated (mode : CompileMode) (c : Option Condition) : Outcome (Option Condition) :=
  match mode.strict, c with
  | true, some c => .ofExcept .invalid ((Document.validate c.toDocument).map fun _ => some c)
  | _, c => .done c

/-- **The condition of a composition.** -/
def workspace (mode : CompileMode) (blocks : List Block) : Outcome (Option Condition) :=
  (unvalidated mode blocks).andThen (validated mode)

end AccessTree.Compile
