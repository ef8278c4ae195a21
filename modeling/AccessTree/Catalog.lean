import AccessTree.Block.Growth
import AccessTree.Chain
import AccessTree.Problem

/-! # The catalog of templates

The prototypes that a user drags onto the workspace, in the order in which they are offered: time
locks, balances, contract calls, operators and values. `Catalog.get` finds one by its id and
`Catalog.list` lists those of a category. -/

namespace AccessTree.Catalog

/-! ### Slots -/

/-- A slot for a literal. -/
def valueSlot (id label : String) : Slot :=
  ⟨id, [.value], label, none, none, none, none⟩

/-- A slot for a number. -/
def numberSlot (id label : String) : Slot := { valueSlot id label with inputType := some "number" }

/-- A slot for a number and a comparator. -/
def amountSlot (id label : String) : Slot := { numberSlot id label with comparator := some .ge }

/-- The slot for a chain. -/
def chainSlot : Slot := numberSlot "chain" "Chain ID"

/-- The slot for the address of a contract. -/
def addressSlot : Slot := valueSlot "contractAddress" "Contract Address"

/-- The slot for the id of a token. -/
def tokenIdSlot : Slot := numberSlot "tokenId" "Token ID"

/-! ### Blocks -/

/-- A prototype of a condition. -/
def conditionBlock (id category label : String) (properties : Fields) (slots : List Slot) : Block :=
  ⟨id, .condition, category, label, properties, slots, none, true⟩

/-- A prototype of a call of a token contract. -/
def tokenBlock (id label method standard : String) (parameters : List String) (more : Fields)
    (slots : List Slot) : Block :=
  conditionBlock id "contract" label
    ([("conditionType", .str "contract"), ("method", .str method),
      ("standardContractType", .str standard), ("parameters", Json.texts parameters)] ++ more)
    (chainSlot :: addressSlot :: slots)

/-- A prototype of an operator. -/
def operatorBlock (id label : String) (more : Fields) : Block :=
  ⟨id, .operator, "operators", label, ("operator", .str id) :: more, [Slot.growth "1"], none, true⟩

/-- A prototype of a value. -/
def valueBlock (id label value : String) : Block :=
  ⟨id, .value, "values", label, [], [], some (.text value), true⟩

/-- A prototype of the number of a chain. -/
def chainBlock (id label : String) (c : ChainId) : Block :=
  valueBlock id label (Text.ofNat c.number)

/-! ### The templates -/

/-- All templates in order. -/
def templates : List Block := [
  conditionBlock "timelock" "time" "Time Lock"
    [("conditionType", .str "time"), ("method", .str "blocktime")]
    [chainSlot, amountSlot "minTimestamp" "Minimum Timestamp"],
  conditionBlock "native-balance" "rpc" "Native Balance"
    [("conditionType", .str "rpc"), ("method", .str "eth_getBalance")]
    [chainSlot, amountSlot "minBalance" "Minimum Balance (wei)"],
  tokenBlock "erc20-balance" "ERC20 Balance" "balanceOf" "ERC20" [":userAddress"] []
    [amountSlot "tokenAmount" "Token Amount"],
  tokenBlock "erc721-balance" "ERC721 Balance" "balanceOf" "ERC721" [":userAddress"] []
    [amountSlot "tokenAmount" "Token Count"],
  tokenBlock "erc721-ownership" "ERC721 Ownership" "ownerOf" "ERC721" [":tokenId"]
    [("returnValueTest", .obj [("comparator", .str "=="), ("value", .str ":userAddress")])]
    [tokenIdSlot],
  tokenBlock "erc1155-balance" "ERC1155 Balance" "balanceOf" "ERC1155" [":userAddress", ":tokenId"]
    [] [tokenIdSlot, amountSlot "tokenAmount" "Token Amount"],
  conditionBlock "contract-call" "contract" "Custom Contract Call"
    [("conditionType", .str "contract"), ("canAddParameters", .bool true),
      ("parameterCount", .int 1)]
    [chainSlot, addressSlot, valueSlot "method" "Method", valueSlot "param_0" "Parameter 1",
      valueSlot "functionAbi" "Function ABI (JSON)",
      { valueSlot "expectedValue" "Expected Value" with comparator := some .eq }],
  operatorBlock "and" "AND" [],
  operatorBlock "or" "OR" [],
  operatorBlock "not" "NOT" [("maxInputs", .int 1)],
  valueBlock "user-address" "User Address" ":userAddress",
  chainBlock "chain-mainnet" "Ethereum Mainnet" .mainnet,
  chainBlock "chain-polygon" "Polygon" .polygon,
  chainBlock "chain-amoy" "Polygon Amoy" .amoy,
  chainBlock "chain-sepolia" "Sepolia" .sepolia]

/-- The categories in the order of their first templates. -/
def categories : List String := (templates.map Block.category).eraseDups

/-- The ids of all templates in alphabetical order. -/
def sortedIds : List String := (templates.map Block.id).mergeSort fun a b => decide (a ≤ b)

/-- The template of an id. -/
def find? (id : String) : Option Block := templates.find? fun b => b.id = id

/-- The templates of a category, or all of them. -/
def list (category : Option String) : List Block :=
  match category with
  | none => templates
  | some c => templates.filter fun b => b.category = c

/-- The problem with an id of no template. -/
def unknown (id : String) : Problem where
  category := .notFound
  message := "Template '" ++ id ++ "' not found"
  details := [("template_id", .str id), ("available", Json.texts sortedIds)]

/-- **The template of an id**, or the problem that there is none. -/
def get (id : String) : Except Problem Block :=
  match find? id with
  | some b => .ok b
  | none => .error (unknown id)

end AccessTree.Catalog
