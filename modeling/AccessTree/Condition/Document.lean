import AccessTree.Condition.Basic
import AccessTree.Schema.Field

/-! # Condition documents

A condition is handed on as a JSON document. `Condition.toDocument` writes it, with the fields in a
fixed order and without those that are not set. `Condition.ofDocument` reads a document: the tag
`conditionType` tells the kind, missing fields with defaults are filled in, a chain may be written
in any way that reads as its number, and unknown fields are rejected except in a test, which keeps
them. -/

namespace AccessTree

/-! ### Writing -/

/-- A test as a document; further fields that are `null` are left out. -/
def ValueTest.toDocument (t : ValueTest) : Json :=
  .obj ([("comparator", .str t.comparator.name), ("value", t.value.portable)] ++
    Json.portableFields (t.extra.filter fun f => f.2 ≠ .null))

/-- A contract call as a document. -/
def ContractCall.toDocument (call : ContractCall) : Json :=
  .obj ([("conditionType", .str ConditionKind.contract.name), ("chain", call.chain.toJson),
      ("contractAddress", .str call.address), ("method", .str call.method),
      ("parameters", .arr (Json.portableItems call.parameters))] ++
    (match call.standard with
      | none => []
      | some s => [("standardContractType", .str s.name)]) ++
    (match call.abi with
      | none => []
      | some fields => [("functionAbi", .obj (Json.portableFields fields))]) ++
    [("returnValueTest", call.test.toDocument)])

mutual
/-- **A condition as a document.** -/
def Condition.toDocument : Condition → Json
  | .time chain test =>
    .obj [("conditionType", .str ConditionKind.time.name), ("chain", chain.toJson),
      ("method", .str timeMethod), ("returnValueTest", test.toDocument)]
  | .balance chain test =>
    .obj [("conditionType", .str ConditionKind.rpc.name), ("chain", chain.toJson),
      ("method", .str balanceMethod), ("parameters", .arr balanceParameters),
      ("returnValueTest", test.toDocument)]
  | .contract call => call.toDocument
  | .compound operator operands =>
    .obj [("conditionType", .str ConditionKind.compound.name), ("operator", .str operator.name),
      ("operands", .arr (Condition.listToDocument operands))]

/-- Operands as documents. -/
def Condition.listToDocument : List Condition → List Json
  | [] => []
  | c :: cs => c.toDocument :: Condition.listToDocument cs
end

/-! ### Reading -/

open Schema

/-- The chain that a JSON value reads as. -/
def chainNumber (v : Json) : Checked ChainId :=
  let none : Checked ChainId :=
    .reject (.notOneOf (ChainId.all.map fun c => Text.ofNat c.number)) v
  match integer v with
  | .ok n => match ChainId.ofNumber? n with
    | some c => .ok c
    | _ => none
  | .rejected _ => none

/-- The value of a test, which is not `null`. -/
def testValue (v : Json) : Checked Json :=
  (any v).ensure (· ≠ .null) "returnValueTest.value is required" v

/-- **The test that a document describes.** -/
def ValueTest.ofDocument : Json → Checked ValueTest
  | .obj fields =>
    ValueTest.mk <$> required fields (.same "comparator") (word Comparator)
      <*> required fields (.same "value") testValue
      <*> pure (fields.filter fun f => f.1 ≠ "comparator" ∧ f.1 ≠ "value")
  | v => .reject (.notA "ReturnValueTest") v

/-- The parameters of a balance check, which are fixed. -/
def balanceParametersOnly (v : Json) : Checked (List Json) :=
  (list any v).ensure (· = balanceParameters)
    ("eth_getBalance parameters must be " ++ (Json.arr balanceParameters).nested) v

/-- The method of a contract call, which is not blank. -/
def contractMethod (v : Json) : Checked String :=
  (text v).ensure (fun s => !Text.allBlank s) "contract method cannot be empty" v

/-- The tag of a condition. -/
def tagName : FieldName := ⟨"conditionType", "condition_type"⟩

/-- The test of a condition. -/
def testName : FieldName := ⟨"returnValueTest", "return_value_test"⟩

/-- The tag of a kind, which may be missing. -/
def tagOf (fields : Fields) (k : ConditionKind) : Checked Unit :=
  optional fields tagName () (exactly k.name)

/-- The time condition with some fields. -/
def timeOfFields (fields : Fields) : Checked Condition :=
  (fun _ chain _ test _ => Condition.time chain test) <$> tagOf fields .time
    <*> required fields (.same "chain") chainNumber
    <*> optional fields (.same "method") () (exactly timeMethod)
    <*> required fields testName ValueTest.ofDocument
    <*> closed [tagName, .same "chain", .same "method", testName] fields

/-- The balance condition with some fields. -/
def balanceOfFields (fields : Fields) : Checked Condition :=
  (fun _ chain _ _ test _ => Condition.balance chain test) <$> tagOf fields .rpc
    <*> required fields (.same "chain") chainNumber
    <*> optional fields (.same "method") () (exactly balanceMethod)
    <*> optional fields (.same "parameters") balanceParameters balanceParametersOnly
    <*> required fields testName ValueTest.ofDocument
    <*> closed [tagName, .same "chain", .same "method", .same "parameters", testName] fields

/-- The contract condition with some fields. -/
def contractOfFields (fields : Fields) : Checked Condition :=
  (fun _ chain address method parameters standard abi test _ =>
      Condition.contract ⟨chain, address, method, parameters, standard, abi, test⟩)
    <$> tagOf fields .contract
    <*> required fields (.same "chain") chainNumber
    <*> required fields ⟨"contractAddress", "contract_address"⟩ text
    <*> required fields (.same "method") contractMethod
    <*> optional fields (.same "parameters") [.str userAddress] (list any)
    <*> optional fields ⟨"standardContractType", "standard_contract_type"⟩ none
      (nullable (word TokenStandard))
    <*> optional fields ⟨"functionAbi", "function_abi"⟩ none (nullable object)
    <*> required fields testName ValueTest.ofDocument
    <*> closed [tagName, .same "chain", ⟨"contractAddress", "contract_address"⟩, .same "method",
        .same "parameters", ⟨"standardContractType", "standard_contract_type"⟩,
        ⟨"functionAbi", "function_abi"⟩, testName] fields

/-- A compound condition, in which `not` has exactly one operand. -/
def compoundOf (input : Json) (operator : Operator) (operands : List Condition) :
    Checked Condition :=
  if operator = .not ∧ operands.length ≠ 1 then
    .reject (.rule "'not' takes exactly one operand") input
  else .ok (.compound operator operands)

/-- The compound condition with some fields, whose operands have been read if there are any. -/
def compoundOfFields (fields : Fields) (operands : Option (Checked (List Condition))) :
    Checked Condition :=
  Checked.andThen
    ((fun _ operator operands _ => (operator, operands)) <$> tagOf fields .compound
      <*> required fields (.same "operator") (word Operator)
      <*> (match operands with
        | none => .rejected [⟨.missing, [.field "operands"], .obj fields⟩]
        | some read => read.under (.field "operands"))
      <*> closed [tagName, .same "operator", .same "operands"] fields)
    fun (operator, operands) => compoundOf (.obj fields) operator operands

/-- The tag that tells the kind; the plain name is looked at first. -/
def givenTag (fields : Fields) : Option Json :=
  (fields.lookup "condition_type").or (fields.lookup "conditionType")

/-- The kind that a tag names. -/
def kindOfTag? : Json → Option ConditionKind
  | .str s => Word.ofName? s
  | _ => none

mutual
/-- **The condition that a document describes.** -/
def Condition.ofDocument : Json → Checked Condition
  | .obj fields =>
    match givenTag fields with
    | none => .reject .noTag (.obj fields)
    | some tag =>
      match kindOfTag? tag with
      | none => .reject (.unknownTag tag.shown (Word.names ConditionKind)) (.obj fields)
      | some .time => (timeOfFields fields).under (.field "time")
      | some .rpc => (balanceOfFields fields).under (.field "rpc")
      | some .contract => (contractOfFields fields).under (.field "contract")
      | some .compound => (compoundOfFields fields (operandsIn fields)).under (.field "compound")
  | v => .reject .noFields v

/-- The operands among the fields of a condition. -/
def operandsIn : List (String × Json) → Option (Checked (List Condition))
  | [] => none
  | (k, v) :: rest => if k = "operands" then some (operandList v) else operandsIn rest

/-- A list of at least one operand. -/
def operandList : Json → Checked (List Condition)
  | .arr [] => .reject .tooFewItems (.arr [])
  | .arr (v :: rest) => operandItems 0 (v :: rest)
  | v => .reject .notList v

/-- Operands, which are counted from `i`. -/
def operandItems (i : Nat) : List Json → Checked (List Condition)
  | [] => .ok []
  | v :: rest =>
    List.cons <$> (Condition.ofDocument v).under (.index i) <*> operandItems (i + 1) rest
end

end AccessTree
