import AccessTree.Block.Invariant
import AccessTree.Compile.Outcome

/-! # Compiling condition blocks

A condition block becomes one condition that is not compound. The property `conditionType` tells its
kind. What was entered in its slots fills the condition in: the own literal of a slot, or else the
literal of the block that is connected to it. The chain is looked at before anything that may be
missing, so that a chain that is not supported is never passed over. An integer that is too long to
be written is a fault where it would have to be: as the address of a contract, or in a gap that
shows it. -/

namespace AccessTree

/-- How a composition is compiled. -/
structure CompileMode where
  /-- Whether a gap ends the compilation. -/
  strict : Bool
  /-- The chain of a block in whose chain slot nothing was entered. -/
  fallback : Except ChainFault ChainId

/-! ### Literals in slots -/

/-- A literal, if it counts as entered. -/
def Literal.entered? (l : Option Literal) : Option Literal := l.filter Literal.isEntered

/-- What was entered in a slot. -/
def Slot.entered? (s : Slot) : Option Literal :=
  (Literal.entered? s.value).or (Literal.entered? (s.connected.bind Block.value))

/-- What was entered in the slot of an id. -/
def Block.entered? (b : Block) (slot : String) : Option Literal :=
  (b.slot? slot).bind Slot.entered?

/-- The comparator that was picked for the slot of an id. -/
def Block.comparatorOf (b : Block) (slot : String) (default : Comparator) : Comparator :=
  ((b.slot? slot).bind Slot.comparator).getD default

namespace Compile

/-- The integer that a literal is or spells. -/
def literalInt? : Literal → Except NumeralFault (Option Int)
  | .int n => .ok (some n)
  | .float x => .ok x.toInt?
  | .text s => Text.readInteger s
  | .flag _ => .ok none

/-- The integer that was entered in a slot. -/
def slotInt (b : Block) (slot : String) (entered : Literal) : Outcome Int :=
  match literalInt? entered with
  | .error f => .fail (.numeral f)
  | .ok (some n) => .done n
  | .ok none => .gapShowing entered.toJson fun h => .notInteger b.id slot ⟨entered, h⟩

/-- The test against the integer in a slot, if something was entered there. -/
def numericTest (b : Block) (slot : String) : Outcome (Option ValueTest) :=
  match b.entered? slot with
  | none => .done none
  | some entered => do
    let n ← slotInt b slot entered
    return some ⟨b.comparatorOf slot .ge, .int n, []⟩

/-- The chain of a block. -/
def chainOf (mode : CompileMode) (b : Block) : Outcome ChainId :=
  .ofExcept .chain (Chain.resolve mode.fallback (b.entered? "chain"))

/-- The JSON value that a slot holds: a text is read, a number stands for itself. Text that cannot
be read is warned about and gives nothing. -/
def slotJson (b : Block) (slot : String) (entered : Literal) : Outcome (Option Json) :=
  match entered with
  | .text s =>
    match Json.read s with
    | .ok v => .done (some v)
    | .error (.malformed cause _) => do
      Outcome.warn (.unreadableJson b.id slot cause)
      return none
    | .error (.numeral f) => .fail (.numeral f)
  | l => .done (some l.toJson)

/-! ### Time and balance -/

/-- At least zero, the test of a block without another one. -/
def atLeastZero : ValueTest := ⟨.ge, .int 0, []⟩

/-- The condition of a time block. -/
def timeLeaf (mode : CompileMode) (b : Block) : Outcome Condition := do
  let chain ← chainOf mode b
  let slot := if (b.slot? "minTimestamp").isSome then "minTimestamp" else "timestamp"
  let test ← numericTest b slot
  return .time chain (test.getD atLeastZero)

/-- The condition of a balance block. -/
def balanceLeaf (mode : CompileMode) (b : Block) : Outcome Condition := do
  let method := b.property "method"
  if method.isTruthy ∧ method ≠ .str balanceMethod then
    Outcome.gapShowing method fun h => .unsupportedMethod b.id ⟨method, h⟩
  let chain ← chainOf mode b
  let test ← numericTest b "minBalance"
  return .balance chain (test.getD atLeastZero)

/-! ### Contract calls -/

/-- The method of a contract block. -/
def methodOf (b : Block) : Outcome String :=
  let found := match b.entered? "method" with
    | some l => l.toJson
    | none => b.property "method"
  match found with
  | .str s => if Text.allBlank s then .fail (.gap (.noMethod b.id)) else .done (Text.trim s)
  | _ => .fail (.gap (.noMethod b.id))

/-- The address of a contract block, which may be empty; an integer is one by its digits. -/
def addressOf (b : Block) : Outcome String :=
  match b.entered? "contractAddress" with
  | some l => Text.trim <$> Outcome.ofExcept .numeral l.writeShown
  | none => .done ""

/-- The parameters that were entered as one JSON list. -/
def listedParameters (b : Block) : Outcome (Option (List Json)) :=
  match b.entered? "parameters" with
  | none => .done none
  | some entered => do
    match ← slotJson b "parameters" entered with
    | some (.arr items) => return some items
    | none | some .null => return none
    | some _ =>
      Outcome.warn (.parametersNotList b.id)
      return none

/-- The parameter slots in which something was entered, with their numbers. -/
def filledSlots (slots : List Slot) : Except NumeralFault (List (Nat × Json)) :=
  (slots.filterMap fun s => do
      let digits ← s.parameterDigits?
      let entered ← s.entered?
      return (digits, entered)).mapM
    fun (digits, entered) => do return (← Text.readDigits digits, entered.toJson)

/-- The parameters that were entered in slots of their own, in the order of the slots' numbers. -/
def numberedParameters (b : Block) : Outcome (Option (List Json)) := do
  let filled ← Outcome.ofExcept .numeral (filledSlots b.slots)
  match filled with
  | [] => return none
  | filled =>
    return some ((filled.mergeSort fun x y => decide (x.1 ≤ y.1)).map Prod.snd)

/-- The parameters that are set in the properties, or the address of the user alone. -/
def presetParameters (b : Block) : List Json :=
  match b.property "parameters" with
  | .arr items => items
  | _ => [.str userAddress]

/-- Stands for the id of a token in parameters. -/
def tokenPlaceholder : String := ":tokenId"

/-- Parameters with the id of a token in its place. -/
def withToken (n : Int) (parameters : List Json) : List Json :=
  parameters.map fun p => if p = .str tokenPlaceholder then .int n else p

/-- The parameters of a contract block: one list, else slots of their own, else the properties. -/
def parametersOf (b : Block) : Outcome (List Json) := do
  let listed ← listedParameters b
  let entered ← match listed with
    | some items => Outcome.done (some items)
    | none => numberedParameters b
  let parameters := entered.getD (presetParameters b)
  match b.entered? "tokenId" with
  | none => return parameters
  | some l => return withToken (← slotInt b "tokenId" l) parameters

/-- The integer that a literal spells, or the literal without blanks at its ends. -/
def integerOrLiteral : Literal → Except NumeralFault Json
  | .text s => (Text.readInteger s).map fun
    | some n => .int n
    | none => .str (Text.trim s)
  | l => .ok l.toJson

/-- More than zero, the test of a contract block without another one. -/
def aboveZero : ValueTest := ⟨.gt, .int 0, []⟩

/-- The test of a contract block: an amount, else an expected value, else the properties. -/
def contractTest (b : Block) : Outcome ValueTest := do
  match ← numericTest b "tokenAmount" with
  | some test => return test
  | none =>
    match b.entered? "expectedValue" with
    | some l =>
      let value ← Outcome.ofExcept .numeral (integerOrLiteral l)
      return ⟨b.comparatorOf "expectedValue" .eq, value, []⟩
    | none =>
      match b.property "returnValueTest" with
      | .obj fields =>
        Outcome.ofChecked (.malformed b.id .contract) (ValueTest.ofDocument (.obj fields))
      | _ => return aboveZero

/-- The token standard that is set in the properties. -/
def standardOf (b : Block) : Checked (Option TokenStandard) :=
  let found := b.property "standardContractType"
  if found.isTruthy then
    some <$> (Schema.word TokenStandard found).under (.field "standard_contract_type")
  else .ok none

/-- The interface description of a contract block. -/
def abiOf (b : Block) : Outcome (Option Fields) :=
  match b.entered? "functionAbi" with
  | none =>
    match b.property "functionAbi" with
    | .obj fields => .done (some fields)
    | _ => .done none
  | some entered => do
    match ← slotJson b "functionAbi" entered with
    | some (.obj fields) => return some fields
    | none | some .null => return none
    | some _ =>
      Outcome.warn (.abiNotObject b.id)
      return none

/-- The condition of a contract block. -/
def contractLeaf (mode : CompileMode) (b : Block) : Outcome Condition := do
  let chain ← chainOf mode b
  let method ← methodOf b
  let address ← addressOf b
  let parameters ← parametersOf b
  let test ← contractTest b
  let abi ← abiOf b
  let standard ← Outcome.ofChecked (.malformed b.id .contract) (standardOf b)
  return .contract ⟨chain, address, method, parameters, standard, abi, test⟩

/-! ### The kind of a block -/

/-- The property that tells the kind of a block; a balance block may go without it. -/
def kindProperty (b : Block) : Json :=
  let found := b.property "conditionType"
  if found = .null ∧ b.property "method" = .str balanceMethod then .str ConditionKind.rpc.name
  else found

/-- **The condition of a condition block.** -/
def leaf (mode : CompileMode) (b : Block) : Outcome Condition :=
  match kindOfTag? (kindProperty b) with
  | some .time => timeLeaf mode b
  | some .rpc => balanceLeaf mode b
  | some .contract => contractLeaf mode b
  | _ => .gapShowing (kindProperty b) fun h => .unsupportedKind b.id ⟨kindProperty b, h⟩

end Compile

end AccessTree
