import AccessTree.Chain
import AccessTree.Comparator

/-! # Conditions

A `Condition` says when access is given: after a time, with a balance, or if a contract call returns
what a test asks for; compound conditions combine others by an operator. `Condition.leaves` lists
the conditions that are not compound, from left to right. -/

namespace AccessTree

/-- The operators of compound conditions. -/
inductive Operator where
  | and
  | or
  | not
  deriving DecidableEq, Repr

instance : Word Operator where
  all := [.and, .or, .not]
  name
    | .and => "and"
    | .or => "or"
    | .not => "not"

/-- The name of an operator. -/
def Operator.name (o : Operator) : String := Word.name o

/-- The token standards that are known without an interface description. -/
inductive TokenStandard where
  | erc20
  | erc721
  | erc1155
  deriving DecidableEq, Repr

instance : Word TokenStandard where
  all := [.erc20, .erc721, .erc1155]
  name
    | .erc20 => "ERC20"
    | .erc721 => "ERC721"
    | .erc1155 => "ERC1155"

/-- The name of a standard. -/
def TokenStandard.name (s : TokenStandard) : String := Word.name s

/-- The kinds of conditions. -/
inductive ConditionKind where
  | time
  | rpc
  | contract
  | compound
  deriving DecidableEq, Repr

instance : Word ConditionKind where
  all := [.time, .rpc, .contract, .compound]
  name
    | .time => "time"
    | .rpc => "rpc"
    | .contract => "contract"
    | .compound => "compound"

/-- The name of a kind. -/
def ConditionKind.name (k : ConditionKind) : String := Word.name k

/-- A test of the value that a check returns. -/
structure ValueTest where
  comparator : Comparator
  /-- What the returned value is compared with. -/
  value : Json
  /-- Further fields of the test, which are kept. -/
  extra : Fields
  deriving DecidableEq

/-- A call of a contract, with the test of what it returns. -/
structure ContractCall where
  chain : ChainId
  address : String
  method : String
  parameters : List Json
  standard : Option TokenStandard
  /-- The interface description of the method. -/
  abi : Option Fields
  test : ValueTest
  deriving DecidableEq

/-- **When access is given.** -/
inductive Condition where
  /-- The time of the latest block of a chain. -/
  | time (chain : ChainId) (test : ValueTest)
  /-- The balance of the user on a chain. -/
  | balance (chain : ChainId) (test : ValueTest)
  | contract (call : ContractCall)
  | compound (operator : Operator) (operands : List Condition)

namespace Condition

/-- The kind of a condition. -/
def kind : Condition → ConditionKind
  | .time .. => .time
  | .balance .. => .rpc
  | .contract .. => .contract
  | .compound .. => .compound

mutual
/-- The conditions that are not compound, from left to right. -/
def leaves : Condition → List Condition
  | .time chain test => [.time chain test]
  | .balance chain test => [.balance chain test]
  | .contract call => [.contract call]
  | .compound _ operands => leavesOf operands

/-- The conditions that are not compound among operands. -/
def leavesOf : List Condition → List Condition
  | [] => []
  | c :: cs => leaves c ++ leavesOf cs
end

/-- The number of conditions that are not compound. -/
def leafCount (c : Condition) : Nat := c.leaves.length

end Condition

/-! ### Fixed words -/

/-- Stands for the address of the user in parameters. -/
def userAddress : String := ":userAddress"

/-- The method of a time check. -/
def timeMethod : String := "blocktime"

/-- The method of a balance check. -/
def balanceMethod : String := "eth_getBalance"

/-- The parameters of a balance check: the latest balance of the user. -/
def balanceParameters : List Json := [.str userAddress, .str "latest"]

end AccessTree
