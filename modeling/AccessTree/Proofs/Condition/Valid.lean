import AccessTree.Condition.Validation
import AccessTree.Proofs.Json.Fields
import AccessTree.Proofs.Json.Walk
import AccessTree.Proofs.Schema.Checked

/-! # Valid documents

`Document.Valid` is the grammar of the documents that validation accepts: one rule for each kind of
node, which says what has to stand under which key. It says nothing about paths and the order of the
checks, and its rule for compound nodes has the operands as parts, so that what holds of all valid
documents is shown by induction over their derivations. Validation succeeds exactly for these
documents (`validate_eq_ok_iff`). -/

namespace AccessTree

namespace Document

open Json (valueAt)

/-- A test with a comparator and a value. -/
def ValidTest (v : Json) : Prop :=
  ∃ (test : Fields) (comparator : Comparator), v = .obj test ∧
    valueAt test "comparator" = .str comparator.name ∧ valueAt test "value" ≠ .null

/-- **The documents that are valid.** -/
inductive Valid : Json → Prop
  | time {fields : Fields} (chain : ChainId)
    (tag : valueAt fields "conditionType" = .str ConditionKind.time.name)
    (chain_eq : valueAt fields "chain" = chain.toJson)
    (method_eq : valueAt fields "method" = .str timeMethod)
    (test : ValidTest (valueAt fields "returnValueTest")) : Valid (.obj fields)
  | balance {fields : Fields} (chain : ChainId)
    (tag : valueAt fields "conditionType" = .str ConditionKind.rpc.name)
    (chain_eq : valueAt fields "chain" = chain.toJson)
    (method_eq : valueAt fields "method" = .str balanceMethod)
    (parameters_eq : valueAt fields "parameters" = .arr balanceParameters)
    (test : ValidTest (valueAt fields "returnValueTest")) : Valid (.obj fields)
  | contract {fields : Fields} (chain : ChainId) (address method : String)
    (parameters : List Json)
    (tag : valueAt fields "conditionType" = .str ConditionKind.contract.name)
    (chain_eq : valueAt fields "chain" = chain.toJson)
    (address_eq : valueAt fields "contractAddress" = .str address)
    (address_chars : isAddressChars address.toList = true)
    (method_eq : valueAt fields "method" = .str method)
    (method_filled : Text.allBlank method = false)
    (parameters_eq : valueAt fields "parameters" = .arr parameters)
    (standard : valueAt fields "standardContractType" = .null ∨
      ∃ s : TokenStandard, valueAt fields "standardContractType" = .str s.name)
    (abi : valueAt fields "functionAbi" = .null ∨
      ∃ abi : Fields, valueAt fields "functionAbi" = .obj abi)
    (test : ValidTest (valueAt fields "returnValueTest")) : Valid (.obj fields)
  | compound {fields : Fields} (operator : Operator) (operands : List Json)
    (tag : valueAt fields "conditionType" = .str ConditionKind.compound.name)
    (operator_eq : valueAt fields "operator" = .str operator.name)
    (operands_eq : valueAt fields "operands" = .arr operands)
    (nonempty : operands ≠ []) (single : operator = .not → operands.length = 1)
    (each : ∀ v ∈ operands, Valid v) : Valid (.obj fields)

/-! ### Single checks -/

theorem andThen_eq_ok {x y : Check} : (x >>= fun _ => y) = .ok () ↔ x = .ok () ∧ y = .ok () := by
  cases x <;> simp [bind, Except.bind]

theorem require_eq_ok {path : List Nat} {holds : Bool} {fault : NodeFault} :
    require path holds fault = .ok () ↔ holds = true := by
  cases holds <;> simp [require]

theorem isName_iff {α : Type} [Word α] [Word.Lawful α] {v : Json} :
    isName α v = true ↔ ∃ a : α, v = .str (Word.name a) := by
  cases v with
  | str s =>
    simp only [isName, Json.str.injEq, ← Word.ofName?_eq_some, Option.isSome_iff_exists]
  | null | bool | int | float | arr | obj => simp [isName]

theorem requireName_eq_ok {α : Type} [Word α] [Word.Lawful α] {path : List Nat} {v : Json}
    {fault : Json.Writable → NodeFault} :
    requireName α path v fault = .ok () ↔ ∃ a : α, v = .str (Word.name a) := by
  rw [← isName_iff, requireName]
  split
  · split
    · next hname => exact iff_of_true rfl hname
    · next hname => exact iff_of_false (by rintro ⟨⟩) hname
  · next hcomparable => cases v <;> simp_all [isComparable, isName]

theorem checkChain_eq_ok {path : List Nat} {fields : Fields} :
    checkChain path fields = .ok () ↔ ∃ chain : ChainId, valueAt fields "chain" = chain.toJson := by
  rw [checkChain, require_eq_ok, ChainId.isNumber_iff]

theorem checkFixedMethod_eq_ok {path : List Nat} {fields : Fields} {expected : String} :
    checkFixedMethod path fields expected = .ok () ↔ valueAt fields "method" = .str expected := by
  rw [checkFixedMethod, require_eq_ok, decide_eq_true_eq]

theorem checkTest_eq_ok {path : List Nat} {fields : Fields} :
    checkTest path fields = .ok () ↔ ValidTest (valueAt fields "returnValueTest") := by
  rw [checkTest]
  cases valueAt fields "returnValueTest" with
  | obj test =>
    simp only [andThen_eq_ok, requireName_eq_ok, require_eq_ok, decide_eq_true_eq]
    constructor
    · rintro ⟨⟨comparator, hc⟩, hv⟩
      exact ⟨test, comparator, rfl, hc, hv⟩
    · rintro ⟨_, comparator, ⟨⟩, hc, hv⟩
      exact ⟨⟨comparator, hc⟩, hv⟩
  | null | bool | int | float | str | arr => simp [ValidTest]

theorem checkTime_eq_ok {path : List Nat} {fields : Fields} :
    checkTime path fields = .ok () ↔
      (∃ chain : ChainId, valueAt fields "chain" = chain.toJson) ∧
      valueAt fields "method" = .str timeMethod ∧
      ValidTest (valueAt fields "returnValueTest") := by
  rw [checkTime, andThen_eq_ok, andThen_eq_ok, checkChain_eq_ok, checkFixedMethod_eq_ok,
    checkTest_eq_ok]

theorem checkBalance_eq_ok {path : List Nat} {fields : Fields} :
    checkBalance path fields = .ok () ↔
      (∃ chain : ChainId, valueAt fields "chain" = chain.toJson) ∧
      valueAt fields "method" = .str balanceMethod ∧
      valueAt fields "parameters" = .arr balanceParameters ∧
      ValidTest (valueAt fields "returnValueTest") := by
  rw [checkBalance, andThen_eq_ok, andThen_eq_ok, andThen_eq_ok, checkChain_eq_ok,
    checkFixedMethod_eq_ok, require_eq_ok, decide_eq_true_eq, checkTest_eq_ok]

theorem isAddress_iff {v : Json} :
    isAddress v = true ↔ ∃ s : String, v = .str s ∧ isAddressChars s.toList = true := by
  cases v <;> simp [isAddress]

theorem isFilledText_iff {v : Json} :
    isFilledText v = true ↔ ∃ s : String, v = .str s ∧ Text.allBlank s = false := by
  cases v <;> simp [isFilledText]

theorem isList_iff {v : Json} : isList v = true ↔ ∃ items, v = .arr items := by
  cases v <;> simp [isList]

theorem isObject_iff {v : Json} : isObject v = true ↔ ∃ fields, v = .obj fields := by
  cases v <;> simp [isObject]

theorem checkContract_eq_ok {path : List Nat} {fields : Fields} :
    checkContract path fields = .ok () ↔
      (∃ chain : ChainId, valueAt fields "chain" = chain.toJson) ∧
      (∃ s : String, valueAt fields "contractAddress" = .str s ∧
        isAddressChars s.toList = true) ∧
      (∃ s : String, valueAt fields "method" = .str s ∧ Text.allBlank s = false) ∧
      (∃ items, valueAt fields "parameters" = .arr items) ∧
      (valueAt fields "standardContractType" = .null ∨
        ∃ s : TokenStandard, valueAt fields "standardContractType" = .str s.name) ∧
      (valueAt fields "functionAbi" = .null ∨ ∃ abi, valueAt fields "functionAbi" = .obj abi) ∧
      ValidTest (valueAt fields "returnValueTest") := by
  rw [checkContract]
  by_cases hs : valueAt fields "standardContractType" = .null
  · simp only [hs, ne_eq, not_true_eq_false, if_false, andThen_eq_ok, checkChain_eq_ok,
      require_eq_ok, isAddress_iff, isFilledText_iff, isList_iff, Bool.or_eq_true,
      decide_eq_true_eq, isObject_iff, checkTest_eq_ok, true_or, true_and]
  · simp only [hs, ne_eq, not_false_eq_true, if_true, andThen_eq_ok, checkChain_eq_ok,
      require_eq_ok, requireName_eq_ok, isAddress_iff, isFilledText_iff, isList_iff,
      Bool.or_eq_true, decide_eq_true_eq, isObject_iff, checkTest_eq_ok, false_or,
      TokenStandard.name]

theorem checkCompound_eq_ok {path : List Nat} {fields : Fields} :
    checkCompound path fields = .ok () ↔
      ∃ operator : Operator, valueAt fields "operator" = .str operator.name ∧
      ∃ operands, valueAt fields "operands" = .arr operands ∧ operands ≠ [] ∧
        (operator = .not → operands.length = 1) := by
  have hname : ∀ operator : Operator,
      Json.str operator.name ≠ .str Operator.not.name ↔ operator ≠ .not := by
    intro operator
    cases operator <;> decide
  rw [checkCompound, andThen_eq_ok, requireName_eq_ok]
  cases valueAt fields "operands" with
  | arr operands =>
    simp only [andThen_eq_ok, require_eq_ok, Bool.or_eq_true, decide_eq_true_eq,
      Bool.not_eq_true', List.isEmpty_eq_false_iff, Json.arr.injEq]
    constructor
    · rintro ⟨⟨operator, ho⟩, hne, hone⟩
      refine ⟨operator, ho, operands, rfl, hne, fun hnot => hone.resolve_left fun h => ?_⟩
      exact (hname operator).mp (ho ▸ h) hnot
    · rintro ⟨operator, ho, _, rfl, hne, hone⟩
      refine ⟨⟨operator, ho⟩, hne, ?_⟩
      rw [ho, hname, or_iff_not_imp_left, not_not]
      exact hone
  | null | bool | int | float | str | obj => simp

/-! ### Operands -/

theorem checkOperandsIn_eq (path : List Nat) (fields : Fields) :
    checkOperandsIn path fields = checkOperandList path (valueAt fields "operands") := by
  induction fields with
  | nil => rfl
  | cons f rest ih =>
    obtain ⟨k, v⟩ := f
    rw [checkOperandsIn, Json.valueAt_cons]
    split
    · rfl
    · exact ih

theorem checkOperands_eq_ok {operands : List Json}
    (h : ∀ v ∈ operands, ∀ path, checkNode path v = .ok () ↔ Valid v) (path : List Nat) (i : Nat) :
    checkOperands path i operands = .ok () ↔ ∀ v ∈ operands, Valid v := by
  induction operands generalizing i with
  | nil => simp [checkOperands]
  | cons v rest ih =>
    rw [checkOperands, andThen_eq_ok, h v List.mem_cons_self, List.forall_mem_cons,
      ih fun w hw => h w (List.mem_cons_of_mem v hw)]

/-! ### Nodes -/

/-- The tag says by which checks a node is checked. -/
theorem checkNode_of_tag {path : List Nat} {fields : Fields} {kind : ConditionKind}
    (tag : valueAt fields "conditionType" = .str kind.name) :
    checkNode path (.obj fields) = .ok () ↔
      match kind with
      | .time => checkTime path fields = .ok ()
      | .rpc => checkBalance path fields = .ok ()
      | .contract => checkContract path fields = .ok ()
      | .compound => checkCompound path fields = .ok () ∧
          checkOperandList path (valueAt fields "operands") = .ok () := by
  rw [checkNode, kindOfTag?_eq_some.mpr tag]
  cases kind with
  | compound => rw [andThen_eq_ok, checkOperandsIn_eq]
  | time | rpc | contract => rfl

/-- A node is checked by what its tag says, and a compound node together with its operands. -/
theorem checkNode_obj_eq_ok {path : List Nat} {fields : Fields} :
    checkNode path (.obj fields) = .ok () ↔
      valueAt fields "conditionType" = .str ConditionKind.time.name ∧
        checkTime path fields = .ok () ∨
      valueAt fields "conditionType" = .str ConditionKind.rpc.name ∧
        checkBalance path fields = .ok () ∨
      valueAt fields "conditionType" = .str ConditionKind.contract.name ∧
        checkContract path fields = .ok () ∨
      valueAt fields "conditionType" = .str ConditionKind.compound.name ∧
        checkCompound path fields = .ok () ∧
        checkOperandList path (valueAt fields "operands") = .ok () := by
  rw [checkNode]
  simp only [← kindOfTag?_eq_some]
  cases kindOfTag? (valueAt fields "conditionType") with
  | none => simp
  | some k => cases k <;> simp [andThen_eq_ok, checkOperandsIn_eq]

/-- **Induction on nodes**, from the operands of a node. -/
theorem nodeInduction {P : Json → Prop}
    (other : ∀ v, (∀ fields, v ≠ .obj fields) → P v)
    (node : ∀ fields : Fields, (∀ operands, fields.lookup "operands" = some (.arr operands) →
      ∀ w ∈ operands, P w) → P (.obj fields)) (v : Json) : P v := by
  -- operands are items of the value of a field, so that the items of a list come along
  have h : P v ∧ ∀ items, v = .arr items → ∀ w ∈ items, P w := by
    induction v with
    | null | bool | int | float | str => exact ⟨other _ (by simp), by simp⟩
    | arr items ih =>
      refine ⟨other _ (by simp), ?_⟩
      rintro _ ⟨⟩ w hw
      exact (ih w hw).1
    | obj fields ih =>
      refine ⟨node fields fun operands ho => ?_, by simp⟩
      exact (ih _ (Json.mem_of_lookup ho)).2 operands rfl
  exact h.1

/-- **A node is accepted** exactly if it is valid, wherever it stands. -/
theorem checkNode_eq_ok_iff (v : Json) : ∀ path, checkNode path v = .ok () ↔ Valid v := by
  induction v using nodeInduction with
  | other v hv =>
    intro path
    cases v with
    | obj fields => exact absurd rfl (hv fields)
    | null | bool | int | float | str | arr => exact iff_of_false (by simp [checkNode]) (by rintro ⟨⟩)
  | node fields ih =>
    intro path
    rw [checkNode_obj_eq_ok]
    have heach : ∀ {operands}, valueAt fields "operands" = .arr operands →
        (checkOperandList path (valueAt fields "operands") = .ok () ↔ ∀ w ∈ operands, Valid w) := by
      intro operands hl
      rw [hl, checkOperandList]
      exact checkOperands_eq_ok (ih operands ((Json.valueAt_eq (by simp)).mp hl)) path 0
    constructor
    · rintro (⟨ht, h⟩ | ⟨ht, h⟩ | ⟨ht, h⟩ | ⟨ht, h, hops⟩)
      · obtain ⟨⟨chain, hc⟩, hm, htest⟩ := checkTime_eq_ok.mp h
        exact .time chain ht hc hm htest
      · obtain ⟨⟨chain, hc⟩, hm, hp, htest⟩ := checkBalance_eq_ok.mp h
        exact .balance chain ht hc hm hp htest
      · obtain ⟨⟨chain, hc⟩, ⟨address, ha, hchars⟩, ⟨method, hm, hfilled⟩, ⟨parameters, hp⟩, hs,
          habi, htest⟩ := checkContract_eq_ok.mp h
        exact .contract chain address method parameters ht hc ha hchars hm hfilled hp hs habi htest
      · obtain ⟨operator, ho, operands, hl, hne, hone⟩ := checkCompound_eq_ok.mp h
        exact .compound operator operands ht ho hl hne hone ((heach hl).mp hops)
    · rintro (⟨chain, ht, hc, hm, htest⟩ | ⟨chain, ht, hc, hm, hp, htest⟩ |
        ⟨chain, address, method, parameters, ht, hc, ha, hchars, hm, hfilled, hp, hs, habi, htest⟩ |
        ⟨operator, operands, ht, ho, hl, hne, hone, hops⟩)
      · exact Or.inl ⟨ht, checkTime_eq_ok.mpr ⟨⟨chain, hc⟩, hm, htest⟩⟩
      · exact Or.inr (Or.inl ⟨ht, checkBalance_eq_ok.mpr ⟨⟨chain, hc⟩, hm, hp, htest⟩⟩)
      · exact Or.inr (Or.inr (Or.inl ⟨ht, checkContract_eq_ok.mpr ⟨⟨chain, hc⟩,
          ⟨address, ha, hchars⟩, ⟨method, hm, hfilled⟩, ⟨parameters, hp⟩, hs, habi, htest⟩⟩))
      · refine Or.inr (Or.inr (Or.inr ⟨ht, ?_, (heach hl).mpr hops⟩))
        exact checkCompound_eq_ok.mpr ⟨operator, ho, operands, hl, hne, hone⟩

/-! ### Documents -/

theorem Valid.isTruthy {d : Json} (h : Valid d) : d.isTruthy = true := by
  have hfields : ∀ {fields : Fields} {k : ConditionKind},
      valueAt fields "conditionType" = .str k.name → (Json.obj fields).isTruthy = true := by
    intro fields k ht
    cases fields with
    | nil => cases ht
    | cons f rest => rfl
  cases h with
  | time _ tag | balance _ tag | contract _ _ _ _ tag | compound _ _ tag => exact hfields tag

/-- **Validation accepts** exactly the valid documents. -/
theorem validate_eq_ok_iff {d : Json} : validate d = .ok () ↔ Valid d := by
  rw [validate, ← checkNode_eq_ok_iff d []]
  split
  · rfl
  · next ht =>
    refine iff_of_false (by simp) fun h => ht ?_
    exact ((checkNode_eq_ok_iff d []).mp h).isTruthy

end Document

end AccessTree
