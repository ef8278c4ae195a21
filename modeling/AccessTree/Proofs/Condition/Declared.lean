import AccessTree.Proofs.Condition.Read

/-! # Documents with declared keys only

Every kind of node declares the keys that are written for it (`declaredKeys`). If a node has no other
keys, each of its fields is given by its wire name or not at all, and none is unknown; reading it
comes down to the values of its declared keys. -/

namespace AccessTree

open Checked Schema

/-- The keys that are written for a node of a kind. -/
def declaredKeys : ConditionKind → List String
  | .time => ["conditionType", "chain", "method", "returnValueTest"]
  | .rpc => ["conditionType", "chain", "method", "parameters", "returnValueTest"]
  | .contract => ["conditionType", "chain", "contractAddress", "method", "parameters",
      "standardContractType", "functionAbi", "returnValueTest"]
  | .compound => ["conditionType", "operator", "operands"]

/-! ### Fields under their wire names -/

namespace Schema

variable {fields : Fields}

theorem found_of_wire (name : FieldName)
    (h : fields.lookup name.plain = none ∨ name.plain = name.wire) {v : Json} :
    Found fields name v ↔ fields.lookup name.wire = some v := by
  rw [Found]
  rcases h with h | h
  · simp [h]
  · rw [h]
    cases fields.lookup name.wire <;> simp

theorem optional_of_wire {α : Type} (name : FieldName)
    (h : fields.lookup name.plain = none ∨ name.plain = name.wire) {default a : α}
    {read : Json → Checked α} :
    optional fields name default read = .ok a ↔ fields.lookup name.wire = none ∧ a = default ∨
      ∃ v, fields.lookup name.wire = some v ∧ read v = .ok a := by
  simp only [optional_eq_ok, found_of_wire name h, find?_eq_none]
  have hnone : fields.lookup name.wire = none ∧ fields.lookup name.plain = none ↔
      fields.lookup name.wire = none := by
    refine and_iff_left_of_imp fun hw => ?_
    rcases h with h | h
    · exact h
    · rw [h, hw]
  rw [hnone]

/-- A field that may be `null` is read as nothing if it is missing or `null`, and else as what is
written as its value. -/
theorem optional_nullable_of_wire {α : Type} {name : FieldName}
    (h : fields.lookup name.plain = none ∨ name.plain = name.wire) {read : Json → Checked α}
    {written : α → Json} (hread : ∀ v a, read v = .ok a ↔ v = written a)
    (hne : ∀ a, written a ≠ .null) {o : Option α} :
    optional fields name none (nullable read) = .ok o ↔
      o = none ∧ Json.valueAt fields name.wire = .null ∨
      ∃ a, o = some a ∧ fields.lookup name.wire = some (written a) := by
  simp only [optional_of_wire name h, nullable_eq_ok, hread, Json.valueAt]
  cases fields.lookup name.wire with
  | none => simp
  | some v =>
    simp only [reduceCtorEq, false_and, false_or, Option.some.injEq, exists_eq_left',
      Option.getD_some]
    constructor
    · rintro (⟨rfl, rfl⟩ | ⟨-, a, rfl, rfl⟩)
      · exact Or.inl ⟨rfl, rfl⟩
      · exact Or.inr ⟨a, rfl, rfl⟩
    · rintro (⟨rfl, rfl⟩ | ⟨a, rfl, rfl⟩)
      · exact Or.inl ⟨rfl, rfl⟩
      · exact Or.inr ⟨hne a, a, rfl, rfl⟩

theorem closed_of_wire (names : List FieldName)
    (h : ∀ f ∈ fields, f.1 ∈ names.map FieldName.wire) : closed names fields = .ok () := by
  refine closed_eq_ok.mpr fun f hf => ?_
  obtain ⟨n, hn, hw⟩ := List.mem_map.mp (h f hf)
  exact ⟨n, hn, Or.inl hw.symm⟩

end Schema

/-! ### Nodes with declared keys -/

section

variable {fields : Fields} {kind : ConditionKind} (hkeys : ∀ f ∈ fields, f.1 ∈ declaredKeys kind)
  (htag : fields.lookup "conditionType" = some (.str kind.name))

include hkeys

theorem lookup_of_not_declared {key : String} (h : ∀ k, key ∉ declaredKeys k) :
    fields.lookup key = none :=
  Json.lookup_eq_none_of_keys hkeys (h kind)

include htag

theorem tagOf_of_declared : tagOf fields kind = .ok () := by
  have hplain : fields.lookup "condition_type" = none :=
    lookup_of_not_declared hkeys fun k => by cases k <;> decide
  rw [tagOf, optional_of_wire _ (Or.inl hplain)]
  exact Or.inr ⟨_, htag, exactly_eq_ok.mpr rfl⟩

/-- The reader of the kind is the one that reads the node. -/
theorem ofDocument_of_declared {c : Condition} :
    Condition.ofDocument (.obj fields) = .ok c ↔
      (match kind with
        | .time => timeOfFields fields
        | .rpc => balanceOfFields fields
        | .contract => contractOfFields fields
        | .compound => compoundOfFields fields ((fields.lookup "operands").map operandList)) =
      .ok c := by
  have hplain : fields.lookup "condition_type" = none :=
    lookup_of_not_declared hkeys fun k => by cases k <;> decide
  have hgiven : givenTag fields = some (.str kind.name) := by
    rw [givenTag, hplain, htag, Option.none_or]
  rw [Condition.ofDocument, hgiven, ← operandsIn_eq]
  cases kind <;> exact under_eq_ok

end

section

variable {fields : Fields} {c : Condition}

theorem optional_exactly {name s : String} :
    optional fields (.same name) () (exactly s) = .ok () ↔
      fields.lookup name = none ∨ fields.lookup name = some (.str s) := by
  rw [optional_of_wire _ (Or.inr rfl)]
  simp [FieldName.same, exactly_eq_ok]

theorem ofDocument_time_eq_ok (hkeys : ∀ f ∈ fields, f.1 ∈ declaredKeys .time)
    (htag : fields.lookup "conditionType" = some (.str ConditionKind.time.name)) :
    Condition.ofDocument (.obj fields) = .ok c ↔ ∃ chain test, c = .time chain test ∧
      (∃ v, fields.lookup "chain" = some v ∧ chainNumber v = .ok chain) ∧
      (fields.lookup "method" = none ∨ fields.lookup "method" = some (.str timeMethod)) ∧
      ∃ v, fields.lookup "returnValueTest" = some v ∧ ValueTest.ofDocument v = .ok test := by
  have hplain : fields.lookup "return_value_test" = none :=
    lookup_of_not_declared hkeys fun k => by cases k <;> decide
  rw [ofDocument_of_declared hkeys htag]
  simp only [timeOfFields_eq_ok, tagOf_of_declared hkeys htag, optional_exactly,
    found_of_wire testName (Or.inl hplain), closed_of_wire
      [tagName, .same "chain", .same "method", testName] hkeys, true_and, and_true]
  rfl

theorem ofDocument_balance_eq_ok (hkeys : ∀ f ∈ fields, f.1 ∈ declaredKeys .rpc)
    (htag : fields.lookup "conditionType" = some (.str ConditionKind.rpc.name)) :
    Condition.ofDocument (.obj fields) = .ok c ↔ ∃ chain test, c = .balance chain test ∧
      (∃ v, fields.lookup "chain" = some v ∧ chainNumber v = .ok chain) ∧
      (fields.lookup "method" = none ∨ fields.lookup "method" = some (.str balanceMethod)) ∧
      (fields.lookup "parameters" = none ∨
        fields.lookup "parameters" = some (.arr balanceParameters)) ∧
      ∃ v, fields.lookup "returnValueTest" = some v ∧ ValueTest.ofDocument v = .ok test := by
  have hplain : fields.lookup "return_value_test" = none :=
    lookup_of_not_declared hkeys fun k => by cases k <;> decide
  have hparameters : (∃ items, optional fields (.same "parameters") balanceParameters
      balanceParametersOnly = .ok items) ↔ fields.lookup "parameters" = none ∨
        fields.lookup "parameters" = some (.arr balanceParameters) := by
    simp only [optional_of_wire (.same "parameters") (Or.inr rfl),
      balanceParametersOnly_eq_ok]
    constructor
    · rintro ⟨_, ⟨h, -⟩ | ⟨_, h, rfl, rfl⟩⟩
      · exact Or.inl h
      · exact Or.inr h
    · rintro (h | h)
      · exact ⟨_, Or.inl ⟨h, rfl⟩⟩
      · exact ⟨_, Or.inr ⟨_, h, rfl, rfl⟩⟩
  rw [ofDocument_of_declared hkeys htag]
  simp only [balanceOfFields_eq_ok, tagOf_of_declared hkeys htag, optional_exactly, hparameters,
    found_of_wire testName (Or.inl hplain), closed_of_wire
      [tagName, .same "chain", .same "method", .same "parameters", testName] hkeys,
    true_and, and_true]
  rfl

theorem ofDocument_contract_eq_ok (hkeys : ∀ f ∈ fields, f.1 ∈ declaredKeys .contract)
    (htag : fields.lookup "conditionType" = some (.str ConditionKind.contract.name)) :
    Condition.ofDocument (.obj fields) = .ok c ↔ ∃ call, c = .contract call ∧
      (∃ v, fields.lookup "chain" = some v ∧ chainNumber v = .ok call.chain) ∧
      fields.lookup "contractAddress" = some (.str call.address) ∧
      (fields.lookup "method" = some (.str call.method) ∧ Text.allBlank call.method = false) ∧
      (fields.lookup "parameters" = none ∧ call.parameters = [.str userAddress] ∨
        fields.lookup "parameters" = some (.arr call.parameters)) ∧
      (call.standard = none ∧ Json.valueAt fields "standardContractType" = .null ∨
        ∃ s : TokenStandard, call.standard = some s ∧
          fields.lookup "standardContractType" = some (.str s.name)) ∧
      (call.abi = none ∧ Json.valueAt fields "functionAbi" = .null ∨
        ∃ abi, call.abi = some abi ∧ fields.lookup "functionAbi" = some (.obj abi)) ∧
      ∃ v, fields.lookup "returnValueTest" = some v ∧ ValueTest.ofDocument v = .ok call.test := by
  have hplain : ∀ key ∈ ["contract_address", "standard_contract_type", "function_abi",
      "return_value_test"], fields.lookup key = none := by
    intro key hkey
    refine lookup_of_not_declared hkeys fun k => ?_
    revert key
    cases k <;> decide
  have hparameters : ∀ items, optional fields (.same "parameters") [.str userAddress] (list any) =
      .ok items ↔ fields.lookup "parameters" = none ∧ items = [.str userAddress] ∨
        fields.lookup "parameters" = some (.arr items) := by
    intro items
    rw [optional_of_wire _ (Or.inr rfl)]
    simp only [list_any_eq_ok, FieldName.same, exists_eq_right]
  have hstandard : ∀ o, optional fields standardName none (nullable (word TokenStandard)) = .ok o ↔
      o = none ∧ Json.valueAt fields "standardContractType" = .null ∨
      ∃ s : TokenStandard, o = some s ∧
        fields.lookup "standardContractType" = some (.str s.name) := fun o =>
    optional_nullable_of_wire (Or.inl (hplain _ (by decide))) (fun _ _ => word_eq_ok) (by simp)
  have habi : ∀ o, optional fields abiName none (nullable object) = .ok o ↔
      o = none ∧ Json.valueAt fields "functionAbi" = .null ∨
      ∃ abi, o = some abi ∧ fields.lookup "functionAbi" = some (.obj abi) := fun o =>
    optional_nullable_of_wire (Or.inl (hplain _ (by decide))) (fun _ _ => object_eq_ok) (by simp)
  rw [ofDocument_of_declared hkeys htag]
  simp only [contractOfFields_eq_ok, tagOf_of_declared hkeys htag, hparameters, hstandard, habi,
    found_of_wire testName (Or.inl (hplain _ (by decide))),
    found_of_wire addressName (Or.inl (hplain _ (by decide))), closed_of_wire
      [tagName, .same "chain", addressName, .same "method", .same "parameters",
        standardName, abiName, testName] hkeys, true_and, and_true]
  rfl

theorem ofDocument_compound_eq_ok (hkeys : ∀ f ∈ fields, f.1 ∈ declaredKeys .compound)
    (htag : fields.lookup "conditionType" = some (.str ConditionKind.compound.name)) :
    Condition.ofDocument (.obj fields) = .ok c ↔
      ∃ operator operands, c = .compound operator operands ∧
        fields.lookup "operator" = some (.str operator.name) ∧
        (∃ vs, fields.lookup "operands" = some (.arr vs) ∧ vs ≠ [] ∧
          List.Forall₂ (fun v c => Condition.ofDocument v = .ok c) vs operands) ∧
        (operator = .not → operands.length = 1) := by
  have hread : ∀ cs, (fields.lookup "operands").map operandList = some (.ok cs) ↔
      ∃ vs, fields.lookup "operands" = some (.arr vs) ∧ vs ≠ [] ∧
        List.Forall₂ (fun v c => Condition.ofDocument v = .ok c) vs cs := by
    intro cs
    simp only [Option.map_eq_some_iff, operandList_eq_ok]
    constructor
    · rintro ⟨_, hv, vs, rfl, h⟩
      exact ⟨vs, hv, h⟩
    · rintro ⟨vs, hv, h⟩
      exact ⟨_, hv, vs, rfl, h⟩
  rw [ofDocument_of_declared hkeys htag]
  simp only [compoundOfFields_eq_ok, tagOf_of_declared hkeys htag, hread, closed_of_wire
    [tagName, .same "operator", .same "operands"] hkeys, true_and]

end

end AccessTree
