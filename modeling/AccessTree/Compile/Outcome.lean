import AccessTree.Condition.Validation
import AccessTree.Json.Reader

/-! # Outcomes of compilation

Compiling a block gives an `Outcome`: a result or a fault, together with the warnings given on the
way, which a fault does not undo. Faults are of three kinds. A chain that was entered and is not
supported always ends the compilation, and so does a numeral that is too long; a `Gap` in the
composition ends it in strict mode only. The wording of a gap shows what was found, so a gap over an
integer that is too long to be written is such a numeral (`Outcome.gapShowing`). -/

namespace AccessTree

/-- A gap in a composition: why a block has no condition. What its wording shows can be written. -/
inductive Gap where
  | unsupportedKind (block : String) (found : Json.Writable)
  | unsupportedMethod (block : String) (found : Json.Writable)
  | noMethod (block : String)
  | notInteger (block slot : String) (entered : Literal.Writable)
  /-- The parts of a condition do not make up a condition of its kind. -/
  | malformed (block : String) (kind : ConditionKind) (issues : List Issue)
  /-- The operands of an operator cannot be combined by it. -/
  | badOperator (block : String) (found : Json) (issues : List Issue)
  deriving DecidableEq

/-- Why a compilation ends without a result. -/
inductive CompileFault where
  | chain (fault : ChainFault)
  | numeral (fault : NumeralFault)
  | gap (gap : Gap)
  /-- The compiled condition does not pass validation. -/
  | invalid (fault : DocumentFault)
  deriving DecidableEq

/-- A warning given during a compilation. -/
inductive Warning where
  | droppedCondition (block : String) (gap : Gap)
  | droppedOperator (block : String) (gap : Gap)
  | unreadableJson (block slot : String) (cause : Json.Malformed)
  | parametersNotList (block : String)
  | abiNotObject (block : String)
  deriving DecidableEq

/-- **A result or a fault, with the warnings given.** -/
structure Outcome (α : Type) where
  warnings : List Warning
  result : Except CompileFault α

namespace Outcome

variable {α β : Type}

/-- A result without warnings. -/
def done (a : α) : Outcome α := ⟨[], .ok a⟩

/-- A fault. -/
def fail (f : CompileFault) : Outcome α := ⟨[], .error f⟩

/-- A gap whose wording shows a value. -/
def gapShowing (v : Json) (gap : v.isWritable = true → Gap) : Outcome α :=
  fail (v.faultShowing (fun h => .gap (gap h)) .numeral)

/-- A warning. -/
def warn (w : Warning) : Outcome Unit := ⟨[w], .ok ()⟩

/-- Goes on with a result, and keeps the warnings of both parts. -/
def andThen (x : Outcome α) (f : α → Outcome β) : Outcome β :=
  match x.result with
  | .ok a => ⟨x.warnings ++ (f a).warnings, (f a).result⟩
  | .error e => ⟨x.warnings, .error e⟩

instance : Monad Outcome where
  pure := done
  bind := andThen

/-- The result of something that can fail. -/
def ofExcept {ε : Type} (cause : ε → CompileFault) : Except ε α → Outcome α
  | .ok a => done a
  | .error e => fail (cause e)

/-- The result of a check, whose issues are a gap. -/
def ofChecked (gap : List Issue → Gap) : Checked α → Outcome α
  | .ok a => done a
  | .rejected issues => fail (.gap (gap issues))

/-- Without strictness, turns a gap into a warning and no result. -/
def orDrop (strict : Bool) (warning : Gap → Warning) (x : Outcome (Option α)) :
    Outcome (Option α) :=
  match strict, x.result with
  | false, .error (.gap g) => ⟨x.warnings ++ [warning g], .ok none⟩
  | _, _ => x

end Outcome

/-! ### Wording -/

namespace Gap

/-- The wording of a gap. -/
def message : Gap → String
  | .unsupportedKind block v =>
    "Unsupported conditionType '" ++ v.val.shown ++ "' on block '" ++ block ++ "'"
  | .unsupportedMethod block v =>
    "Unsupported rpc method '" ++ v.val.shown ++ "' on block '" ++ block ++ "'"
  | .noMethod block => "Contract block '" ++ block ++ "' has no method"
  | .notInteger block slot entered =>
    "Slot '" ++ slot ++ "' on block '" ++ block ++ "' is not an integer: " ++ entered.val.nested
  | .malformed block kind _ =>
    "Condition block '" ++ block ++ "' does not form a valid " ++ kind.name ++ " condition"
  | .badOperator block _ _ => "Operator block '" ++ block ++ "' cannot be compiled"

/-- The particulars of a gap. -/
def details : Gap → Fields
  | .unsupportedKind block v => [("block_id", .str block), ("conditionType", v)]
  | .unsupportedMethod block v =>
    [("block_id", .str block), ("method", v), ("supported", Json.texts [balanceMethod])]
  | .noMethod block => [("block_id", .str block)]
  | .notInteger block slot entered =>
    [("block_id", .str block), ("slot_id", .str slot), ("value", .str entered.val.shown)]
  | .malformed block _ issues => [("block_id", .str block), ("errors", Issue.listToJson issues)]
  | .badOperator block v issues =>
    [("block_id", .str block), ("operator", v), ("errors", Issue.listToJson issues)]

/-- The problem with a gap. -/
def toProblem (g : Gap) : Problem := ⟨.compilation, g.message, g.details⟩

end Gap

namespace CompileFault

/-- The failure that a fault amounts to. -/
def toFailure : CompileFault → Failure
  | .chain f => f.toFailure
  | .numeral f => f.toFailure
  | .gap g => .problem g.toProblem
  | .invalid f =>
    match f.toFailure with
    | .problem p =>
      .problem ⟨.compilation, "Compiled condition is invalid: " ++ p.message, p.details⟩
    | breakdown => breakdown

end CompileFault

/-- The wording of a warning. -/
def Warning.message : Warning → String
  | .droppedCondition block g => "Dropping condition block " ++ block ++ ": " ++ g.message
  | .droppedOperator block g => "Dropping operator block " ++ block ++ ": " ++ g.message
  | .unreadableJson block slot cause =>
    "Failed to parse " ++ slot ++ " on block " ++ block ++ ": " ++ cause.message
  | .parametersNotList block => "Ignoring non-list parameters on block " ++ block
  | .abiNotObject block => "Ignoring functionAbi on block " ++ block ++ ": not a JSON object"

end AccessTree
