import AccessTree.Block.Basic
import AccessTree.Problem

/-! # Invariants of block trees

A well-formed tree satisfies three invariants.

* The ids of its blocks are distinct.
* An operator exposes exactly one empty slot, the last one, to grow by; when its bound on operands
  is reached it exposes none.
* The numbers of the parameter slots of a block are `0, …, n - 1`, and if there are any, the
  property `parameterCount` is `n`.

`Block.checkInvariants` visits the blocks depth first and reports the first violation. -/

namespace AccessTree

/-- A violated invariant. -/
inductive InvariantFault where
  | duplicateId (id : String)
  /-- The bound of an operator is reached, and a slot is empty. -/
  | openBeyondBound (id : String) (bound : Nat)
  /-- The empty slots of an operator are not just the last one. -/
  | growth (id : String) (emptyPositions : List Nat)
  /-- The numbers of the parameter slots have gaps or repetitions. -/
  | gaps (id : String) (numbers : List Nat)
  /-- The property `parameterCount` is not the number of parameter slots. -/
  | parameterCount (id : String) (count : Json) (slots : Nat)
  /-- The number of a parameter slot is too long. -/
  | numeral (fault : NumeralFault)
  deriving DecidableEq

namespace Slot

/-- What the ids of parameter slots start with. -/
def parameterStem : String := "param_"

/-- The digits of the number of a parameter slot, if the slot is one. -/
def parameterDigits? (s : Slot) : Option (List Nat) := Text.numbered? parameterStem s.id

end Slot

namespace Block

/-- The positions of the empty slots, counted from `i`. -/
def emptyPositions (i : Nat) : List Slot → List Nat
  | [] => []
  | s :: rest => if s.isEmpty then i :: emptyPositions (i + 1) rest else emptyPositions (i + 1) rest

/-- Whether an operator has as many operands as it may have. -/
def isFull (b : Block) : Bool :=
  match b.maxInputs with
  | none => false
  | some bound => bound ≤ b.connectedSlots.length

/-- The invariant of the slots of an operator. -/
def checkGrowth (b : Block) : Except InvariantFault Unit :=
  let empty := emptyPositions 0 b.slots
  match b.maxInputs, b.isFull with
  | some bound, true => if empty = [] then .ok () else .error (.openBeyondBound b.id bound)
  | _, _ =>
    if b.slots ≠ [] ∧ empty = [b.slots.length - 1] then .ok () else .error (.growth b.id empty)

/-- The numbers of the parameter slots, in slot order. -/
def parameterNumbers (b : Block) : Except NumeralFault (List Nat) :=
  (b.slots.filterMap Slot.parameterDigits?).mapM Text.readDigits

/-- The invariant of the parameter slots of a block. -/
def checkParameters (b : Block) : Except InvariantFault Unit :=
  match b.parameterNumbers with
  | .error f => .error (.numeral f)
  | .ok [] => .ok ()
  | .ok numbers =>
    let sorted := numbers.mergeSort fun a b => decide (a ≤ b)
    let count := b.property "parameterCount"
    if sorted ≠ List.range numbers.length then .error (.gaps b.id sorted)
    else if count.isNumber numbers.length then .ok ()
    else .error (.parameterCount b.id count numbers.length)

/-- The invariants of one block, apart from its id. -/
def checkSlots (b : Block) : Except InvariantFault Unit :=
  match b.kind with
  | .operator => do
    b.checkGrowth
    b.checkParameters
  | _ => b.checkParameters

/-- The invariants of blocks, of which none may have an id in `seen`. -/
def checkAll (seen : List String) : List Block → Except InvariantFault Unit
  | [] => .ok ()
  | b :: rest =>
    if seen.contains b.id then .error (.duplicateId b.id)
    else do
      b.checkSlots
      checkAll (b.id :: seen) rest

/-- **The invariants of a tree.** -/
def checkInvariants (root : Block) : Except InvariantFault Unit := checkAll [] root.nested

end Block

namespace InvariantFault

/-- A validation problem about a block. -/
def problem (message id : String) (details : Fields) : Failure :=
  .problem ⟨.validation, message, ("block_id", .str id) :: details⟩

/-- The failure that a violation amounts to. -/
def toFailure : InvariantFault → Failure
  | .duplicateId id => problem ("Duplicate block id '" ++ id ++ "'") id []
  | .openBeyondBound id bound =>
    problem ("Operator '" ++ id ++ "' has reached maxInputs but still exposes an empty slot") id
      [("max_inputs", .nat bound)]
  | .growth id positions =>
    problem ("Operator '" ++ id ++ "' must expose exactly one trailing empty slot") id
      [("empty_positions", .arr (positions.map Json.nat))]
  | .gaps id numbers =>
    problem ("Parameter slots of '" ++ id ++ "' are not contiguous") id
      [("indices", .arr (numbers.map Json.nat))]
  | .parameterCount id count slots =>
    problem ("parameterCount of '" ++ id ++ "' does not match its parameter slots") id
      [("parameter_count", count), ("slots", .nat slots)]
  | .numeral f => f.toFailure

end InvariantFault

end AccessTree
