import AccessTree.Condition.Document

/-! # Validation of condition documents

`Document.validate` checks a document node by node, before it is handed on: every node has a known
kind, compound nodes a known operator and a legal number of operands, the others a supported chain
and a test, and contract nodes an address, a method and parameters. Checks of a node run in a fixed
order and its operands follow from left to right, so that the first offending node in document order
is reported, with the path that leads to it. `Document.parse` validates a document and then reads
it.

A list or an object where one of a set of words is expected cannot even be looked up among the
words, and the report that a word is unknown shows what was found, which has to be writable. Where
either is not so, it is a breakdown rather than a problem with a node. -/

namespace AccessTree

/-- What is wrong with a node. What the wording of a fault shows can be written. -/
inductive NodeFault where
  | notObject (found : Json)
  | kind (found : Json)
  | operator (found : Json.Writable)
  | operandsNotList (found : Json)
  | noOperands
  | operandCount (count : Nat)
  | chain (found : Json)
  | fixedMethod (found : Json) (expected : String)
  | balanceParameters (found : Json)
  | address (found : Json)
  | method (found : Json)
  | parametersNotList (found : Json)
  | standard (found : Json.Writable)
  | abiNotObject (found : Json)
  | testNotObject (found : Json)
  | comparator (found : Json.Writable)
  | noTestValue
  deriving DecidableEq

/-- Why a document is refused. -/
inductive DocumentFault where
  /-- The document is empty. -/
  | empty (document : Json)
  /-- The node that is reached by taking these operands in turn is faulty. -/
  | node (path : List Nat) (fault : NodeFault)
  /-- A list or an object stands where a word is expected. -/
  | notAWord (found : Json)
  /-- An integer that is too long to be reported stands where a word is expected. -/
  | numeral (fault : NumeralFault)
  /-- The document passes validation and yet cannot be read. -/
  | unreadable (issues : List Issue)
  deriving DecidableEq

namespace Document

/-- The result of checks. -/
abbrev Check := Except DocumentFault Unit

/-- Reports a fault of a node unless a test holds. -/
def require (path : List Nat) (holds : Bool) (fault : NodeFault) : Check :=
  if holds then .ok () else .error (.node path fault)

/-- Whether a value can be looked up among words. -/
def isComparable : Json → Bool
  | .arr _ => false
  | .obj _ => false
  | _ => true

/-- Whether a value is the name of a member of `α`. -/
def isName (α : Type) [Word α] : Json → Bool
  | .str s => (Word.ofName? s : Option α).isSome
  | _ => false

/-- Requires the name of a member of `α`; the fault shows the value. -/
def requireName (α : Type) [Word α] (path : List Nat) (v : Json)
    (fault : Json.Writable → NodeFault) : Check :=
  if isComparable v then
    if isName α v then .ok ()
    else .error (v.faultShowing (fun h => .node path (fault ⟨v, h⟩)) .numeral)
  else .error (.notAWord v)

/-- Whether a value is a list. -/
def isList : Json → Bool
  | .arr _ => true
  | _ => false

/-- Whether a value is an object. -/
def isObject : Json → Bool
  | .obj _ => true
  | _ => false

/-- Whether a value is a text that is not blank. -/
def isFilledText : Json → Bool
  | .str s => !Text.allBlank s
  | _ => false

/-- Whether a character is a hexadecimal digit. -/
def isHexDigit (c : Char) : Bool :=
  c.isDigit || ('a' ≤ c && c ≤ 'f') || ('A' ≤ c && c ≤ 'F')

/-- Whether characters are an address: `0x`, forty hexadecimal digits and at most a line feed. -/
def isAddressChars : List Char → Bool
  | '0' :: 'x' :: cs =>
    let rest := cs.drop 40
    decide (40 ≤ cs.length) && (cs.take 40).all isHexDigit && (rest = [] || rest = ['\n'])
  | _ => false

/-- Whether a value is the address of a contract. -/
def isAddress : Json → Bool
  | .str s => isAddressChars s.toList
  | _ => false

/-! ### Checks of a node -/

/-- The chain of a node is supported. -/
def checkChain (path : List Nat) (fields : Fields) : Check :=
  let v := Json.valueAt fields "chain"
  require path (ChainId.isNumber v) (.chain v)

/-- The method of a node is a fixed word. -/
def checkFixedMethod (path : List Nat) (fields : Fields) (expected : String) : Check :=
  let v := Json.valueAt fields "method"
  require path (v = .str expected) (.fixedMethod v expected)

/-- The test of a node has a comparator and a value. -/
def checkTest (path : List Nat) (fields : Fields) : Check :=
  match Json.valueAt fields "returnValueTest" with
  | .obj test => do
    let comparator := Json.valueAt test "comparator"
    requireName Comparator path comparator .comparator
    require path (Json.valueAt test "value" ≠ .null) .noTestValue
  | v => .error (.node path (.testNotObject v))

/-- The checks of a time node. -/
def checkTime (path : List Nat) (fields : Fields) : Check := do
  checkChain path fields
  checkFixedMethod path fields timeMethod
  checkTest path fields

/-- The checks of a balance node. -/
def checkBalance (path : List Nat) (fields : Fields) : Check := do
  checkChain path fields
  checkFixedMethod path fields balanceMethod
  let parameters := Json.valueAt fields "parameters"
  require path (parameters = .arr balanceParameters) (.balanceParameters parameters)
  checkTest path fields

/-- The checks of a contract node. -/
def checkContract (path : List Nat) (fields : Fields) : Check := do
  checkChain path fields
  let address := Json.valueAt fields "contractAddress"
  require path (isAddress address) (.address address)
  let method := Json.valueAt fields "method"
  require path (isFilledText method) (.method method)
  let parameters := Json.valueAt fields "parameters"
  require path (isList parameters) (.parametersNotList parameters)
  let standard := Json.valueAt fields "standardContractType"
  if standard ≠ .null then requireName TokenStandard path standard .standard
  let abi := Json.valueAt fields "functionAbi"
  require path (abi = .null || isObject abi) (.abiNotObject abi)
  checkTest path fields

/-- The checks of a compound node, apart from those of its operands. -/
def checkCompound (path : List Nat) (fields : Fields) : Check := do
  let operator := Json.valueAt fields "operator"
  requireName Operator path operator .operator
  match Json.valueAt fields "operands" with
  | .arr operands =>
    require path (!operands.isEmpty) .noOperands
    require path (operator ≠ .str Operator.not.name || operands.length = 1)
      (.operandCount operands.length)
  | v => .error (.node path (.operandsNotList v))

/-! ### Checks of all nodes -/

mutual
/-- Checks the node at a path and all nodes below it. -/
def checkNode (path : List Nat) : Json → Check
  | .obj fields =>
    let tag := Json.valueAt fields "conditionType"
    match kindOfTag? tag with
    | some .time => checkTime path fields
    | some .rpc => checkBalance path fields
    | some .contract => checkContract path fields
    | some .compound => do
      checkCompound path fields
      checkOperandsIn path fields
    | none => .error (.node path (.kind tag))
  | v => .error (.node path (.notObject v))

/-- Checks the operands among the fields of a node. -/
def checkOperandsIn (path : List Nat) : List (String × Json) → Check
  | [] => .ok ()
  | (k, v) :: rest => if k = "operands" then checkOperandList path v else checkOperandsIn path rest

/-- Checks a list of operands. -/
def checkOperandList (path : List Nat) : Json → Check
  | .arr items => checkOperands path 0 items
  | _ => .ok ()

/-- Checks operands, which are counted from `i`. -/
def checkOperands (path : List Nat) (i : Nat) : List Json → Check
  | [] => .ok ()
  | v :: rest => do
    checkNode (path ++ [i]) v
    checkOperands path (i + 1) rest
end

/-- **Validates a document.** -/
def validate (document : Json) : Check :=
  if document.isTruthy then checkNode [] document else .error (.empty document)

/-- Validates a document and reads the condition that it describes. -/
def parse (document : Json) : Except DocumentFault Condition := do
  validate document
  match Condition.ofDocument document with
  | .ok c => return c
  | .rejected issues => .error (.unreadable issues)

/-- The text of a path. -/
def pathText (path : List Nat) : String :=
  "$" ++ String.join (path.map fun i => ".operands[" ++ Text.ofNat i ++ "]")

end Document

/-! ### Wording -/

namespace NodeFault

/-- Whether a fault lies in the test of a node. -/
def isInTest : NodeFault → Bool
  | .testNotObject _ | .comparator _ | .noTestValue => true
  | _ => false

/-- The path that is reported for a fault of the node at a path. -/
def reportedPath (path : List Nat) (f : NodeFault) : String :=
  Document.pathText path ++ (if f.isInTest then ".returnValueTest" else "")

/-- The wording of a fault, without the path. -/
def wording : NodeFault → String × String
  | .notObject _ => ("Condition node must be a dictionary at ", "")
  | .kind _ =>
    ("Invalid conditionType at ", ": must be one of 'time', 'rpc', 'contract' or 'compound'")
  | .operator v => ("Invalid compound operator '" ++ v.val.shown ++ "' at ", "")
  | .operandsNotList _ => ("'operands' must be a list at ", "")
  | .noOperands => ("'operands' cannot be empty at ", "")
  | .operandCount _ => ("'not' must have exactly one operand at ", "")
  | .chain _ => ("Invalid chain at ", ". Must be one of: " ++ ChainId.numberList)
  | .fixedMethod _ expected => ("Method must be '" ++ expected ++ "' at ", "")
  | .balanceParameters _ =>
    ("RPC balance condition must use parameters " ++ (Json.arr AccessTree.balanceParameters).nested
      ++ " at ", "")
  | .address _ => ("Contract condition needs a 0x-prefixed 40 hex digit contractAddress at ", "")
  | .method _ => ("Contract condition missing 'method' at ", "")
  | .parametersNotList _ => ("'parameters' must be a list at ", "")
  | .standard v => ("Unknown standardContractType '" ++ v.val.shown ++ "' at ", "")
  | .abiNotObject _ => ("'functionAbi' must be an object at ", "")
  | .testNotObject _ => ("'returnValueTest' must be an object at ", "")
  | .comparator v => ("Invalid comparator '" ++ v.val.shown ++ "' at ", "")
  | .noTestValue => ("'returnValueTest' missing 'value' at ", "")

/-- The particulars of a fault, without the path. -/
def particulars : NodeFault → Fields
  | .notObject v | .operandsNotList v | .parametersNotList v | .abiNotObject v
  | .testNotObject v => [("type", .str v.className)]
  | .kind v => [("conditionType", v)]
  | .operator v => [("operator", v), ("allowed", Json.texts (Word.sortedNames Operator))]
  | .noOperands | .noTestValue => []
  | .operandCount n => [("operand_count", .nat n)]
  | .chain v => [("chain", v), ("valid_chains", ChainId.numbers)]
  | .fixedMethod v expected => [("method", v), ("expected", .str expected)]
  | .balanceParameters v => [("parameters", v)]
  | .address v => [("contractAddress", v)]
  | .method v => [("method", v)]
  | .standard _ => [("allowed", Json.texts (Word.sortedNames TokenStandard))]
  | .comparator v => [("comparator", v), ("allowed", Json.texts (Word.sortedNames Comparator))]

/-- The problem with the node at a path. -/
def toProblem (path : List Nat) (f : NodeFault) : Problem where
  category := .validation
  message := f.wording.1 ++ f.reportedPath path ++ f.wording.2
  details := ("path", .str (f.reportedPath path)) :: f.particulars

end NodeFault

namespace DocumentFault

/-- The failure that a fault amounts to. -/
def toFailure : DocumentFault → Failure
  | .empty d =>
    .problem ⟨.validation, "Condition document cannot be empty", [("document", d)]⟩
  | .node path f => .problem (f.toProblem path)
  | .notAWord v => .breakdown .type ("unhashable type: '" ++ v.className ++ "'")
  | .numeral f => f.toFailure
  | .unreadable issues =>
    .problem ⟨.validation, "Condition document does not match the condition schema",
      [("errors", Issue.listToJsonWithInput issues)]⟩

end DocumentFault

end AccessTree
