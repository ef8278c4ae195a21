import AccessTree.Proofs.Condition.Valid

/-! # When documents are read

Reading a condition comes apart into its fields: one lemma for each kind says which fields have to
be there, under either name, and what is read from each. If fields are given by nothing but the wire
names that are declared for the kind of a node (`declaredKeys`), only the wire names are left to look
at, and no field is unknown. -/

namespace AccessTree

open Checked Schema

/-! ### Chains and tests -/

theorem chainNumber_toJson (chain : ChainId) : chainNumber chain.toJson = .ok chain := by
  cases chain <;> rfl

theorem testValue_eq_ok {v w : Json} : testValue v = .ok w ↔ v = w ∧ w ≠ .null := by
  rw [testValue, ensure_eq_ok, any_eq_ok, decide_eq_true_eq]

/-- The fields of a test beside its comparator and its value. -/
def ValueTest.extraOf (fields : Fields) : Fields :=
  fields.filter fun f => f.1 ≠ "comparator" ∧ f.1 ≠ "value"

/-- **A test is read** if it has a comparator and a value that is not `null`. -/
theorem ValueTest.ofDocument_eq_ok {v : Json} {t : ValueTest} :
    ValueTest.ofDocument v = .ok t ↔ ∃ fields, v = .obj fields ∧
      fields.lookup "comparator" = some (.str t.comparator.name) ∧
      fields.lookup "value" = some t.value ∧ t.value ≠ .null ∧ t.extra = extraOf fields := by
  cases v with
  | obj fields =>
    rw [ValueTest.ofDocument, seq_eq_ok]
    simp only [exists_seq_eq_ok, exists_map_eq_ok, pure_eq_ok, required_eq_ok, found_same,
      word_eq_ok, testValue_eq_ok, Json.obj.injEq, exists_eq_left']
    constructor
    · rintro ⟨value, ⟨_, hv, rfl, hne⟩, comparator, ⟨_, hc, rfl⟩, rfl⟩
      exact ⟨hc, hv, hne, rfl⟩
    · rintro ⟨hc, hv, hne, he⟩
      obtain ⟨comparator, value, extra⟩ := t
      cases he
      exact ⟨value, ⟨value, hv, rfl, hne⟩, comparator, ⟨_, hc, rfl⟩, rfl⟩
  | null | bool | int | float | str | arr => simp [ValueTest.ofDocument]

theorem contractMethod_eq_ok {v : Json} {s : String} :
    contractMethod v = .ok s ↔ v = .str s ∧ Text.allBlank s = false := by
  rw [contractMethod, ensure_eq_ok, text_eq_ok, Bool.not_eq_true']

theorem balanceParametersOnly_eq_ok {v : Json} {items : List Json} :
    balanceParametersOnly v = .ok items ↔ v = .arr items ∧ items = balanceParameters := by
  rw [balanceParametersOnly, ensure_eq_ok, list_any_eq_ok, decide_eq_true_eq]

/-! ### Conditions of each kind -/

theorem timeOfFields_eq_ok {fields : Fields} {c : Condition} :
    timeOfFields fields = .ok c ↔ ∃ chain test, c = .time chain test ∧
      tagOf fields .time = .ok () ∧
      (∃ v, fields.lookup "chain" = some v ∧ chainNumber v = .ok chain) ∧
      optional fields (.same "method") () (exactly timeMethod) = .ok () ∧
      (∃ v, Found fields testName v ∧ ValueTest.ofDocument v = .ok test) ∧
      closed [tagName, .same "chain", .same "method", testName] fields = .ok () := by
  rw [timeOfFields, seq_eq_ok]
  simp only [exists_seq_eq_ok, exists_map_eq_ok, required_eq_ok, found_same]
  constructor
  · rintro ⟨_, hclosed, test, htest, _, hmethod, chain, hchain, _, htag, rfl⟩
    exact ⟨chain, test, rfl, htag, hchain, hmethod, htest, hclosed⟩
  · rintro ⟨chain, test, rfl, htag, hchain, hmethod, htest, hclosed⟩
    exact ⟨(), hclosed, test, htest, (), hmethod, chain, hchain, (), htag, rfl⟩

theorem balanceOfFields_eq_ok {fields : Fields} {c : Condition} :
    balanceOfFields fields = .ok c ↔ ∃ chain test, c = .balance chain test ∧
      tagOf fields .rpc = .ok () ∧
      (∃ v, fields.lookup "chain" = some v ∧ chainNumber v = .ok chain) ∧
      optional fields (.same "method") () (exactly balanceMethod) = .ok () ∧
      (∃ items, optional fields (.same "parameters") balanceParameters balanceParametersOnly =
        .ok items) ∧
      (∃ v, Found fields testName v ∧ ValueTest.ofDocument v = .ok test) ∧
      closed [tagName, .same "chain", .same "method", .same "parameters", testName] fields =
        .ok () := by
  rw [balanceOfFields, seq_eq_ok]
  simp only [exists_seq_eq_ok, exists_map_eq_ok, required_eq_ok, found_same]
  constructor
  · rintro ⟨_, hclosed, test, htest, items, hitems, _, hmethod, chain, hchain, _, htag, rfl⟩
    exact ⟨chain, test, rfl, htag, hchain, hmethod, ⟨items, hitems⟩, htest, hclosed⟩
  · rintro ⟨chain, test, rfl, htag, hchain, hmethod, ⟨items, hitems⟩, htest, hclosed⟩
    exact ⟨(), hclosed, test, htest, items, hitems, (), hmethod, chain, hchain, (), htag, rfl⟩

/-- The name of the address of a contract. -/
def addressName : FieldName := ⟨"contractAddress", "contract_address"⟩

/-- The name of a token standard. -/
def standardName : FieldName := ⟨"standardContractType", "standard_contract_type"⟩

/-- The name of an interface description. -/
def abiName : FieldName := ⟨"functionAbi", "function_abi"⟩

theorem contractOfFields_eq_ok {fields : Fields} {c : Condition} :
    contractOfFields fields = .ok c ↔ ∃ call, c = .contract call ∧
      tagOf fields .contract = .ok () ∧
      (∃ v, fields.lookup "chain" = some v ∧ chainNumber v = .ok call.chain) ∧
      Found fields addressName (.str call.address) ∧
      (fields.lookup "method" = some (.str call.method) ∧ Text.allBlank call.method = false) ∧
      optional fields (.same "parameters") [.str userAddress] (list any) = .ok call.parameters ∧
      optional fields standardName none (nullable (word TokenStandard)) = .ok call.standard ∧
      optional fields abiName none (nullable object) = .ok call.abi ∧
      (∃ v, Found fields testName v ∧ ValueTest.ofDocument v = .ok call.test) ∧
      closed [tagName, .same "chain", addressName, .same "method", .same "parameters",
        standardName, abiName, testName] fields = .ok () := by
  rw [contractOfFields, seq_eq_ok]
  simp only [exists_seq_eq_ok, exists_map_eq_ok, required_eq_ok, found_same]
  constructor
  · rintro ⟨_, hclosed, test, htest, abi, habi, standard, hstandard, parameters, hparameters,
      method, ⟨v, hv, hmethod⟩, address, ⟨w, hw, haddress⟩, chain, hchain, _, htag, rfl⟩
    obtain ⟨rfl, hfilled⟩ := contractMethod_eq_ok.mp hmethod
    cases text_eq_ok.mp haddress
    exact ⟨_, rfl, htag, hchain, hw, ⟨hv, hfilled⟩, hparameters, hstandard, habi, htest, hclosed⟩
  · rintro ⟨call, rfl, htag, hchain, haddress, ⟨hmethod, hfilled⟩, hparameters, hstandard, habi,
      htest, hclosed⟩
    exact ⟨(), hclosed, call.test, htest, call.abi, habi, call.standard, hstandard,
      call.parameters, hparameters, call.method,
      ⟨_, hmethod, contractMethod_eq_ok.mpr ⟨rfl, hfilled⟩⟩, call.address,
      ⟨_, haddress, text_eq_ok.mpr rfl⟩, call.chain, hchain, (), htag, rfl⟩

theorem compoundOf_eq_ok {input : Json} {operator : Operator} {operands : List Condition}
    {c : Condition} : compoundOf input operator operands = .ok c ↔
      c = .compound operator operands ∧ (operator = .not → operands.length = 1) := by
  rw [compoundOf]
  by_cases h : operator = .not ∧ operands.length ≠ 1
  · rw [if_pos h]
    exact iff_of_false (by simp) fun hc => h.2 (hc.2 h.1)
  · rw [if_neg h, Checked.ok.injEq, eq_comm, and_iff_left]
    intro hnot
    by_contra hone
    exact h ⟨hnot, hone⟩

theorem compoundOfFields_eq_ok {fields : Fields} {read : Option (Checked (List Condition))}
    {c : Condition} : compoundOfFields fields read = .ok c ↔
      ∃ operator operands, c = .compound operator operands ∧
        tagOf fields .compound = .ok () ∧
        fields.lookup "operator" = some (.str operator.name) ∧ read = some (.ok operands) ∧
        closed [tagName, .same "operator", .same "operands"] fields = .ok () ∧
        (operator = .not → operands.length = 1) := by
  unfold compoundOfFields
  rw [andThen_eq_ok]
  simp only [exists_seq_eq_ok, exists_map_eq_ok, required_eq_ok, found_same, word_eq_ok,
    compoundOf_eq_ok]
  constructor
  · rintro ⟨_, hclosed, operands, hread, operator, ⟨_, hoperator, rfl⟩, _, htag, rfl, hone⟩
    refine ⟨operator, operands, rfl, htag, hoperator, ?_, hclosed, hone⟩
    cases read with
    | none => cases hread
    | some x => rw [under_eq_ok.mp hread]
  · rintro ⟨operator, operands, rfl, htag, hoperator, rfl, hclosed, hone⟩
    exact ⟨(), hclosed, operands, rfl, operator, ⟨_, hoperator, rfl⟩, (), htag, rfl, hone⟩

/-! ### Operands -/

theorem Condition.listToDocument_eq_map (cs : List Condition) :
    Condition.listToDocument cs = cs.map Condition.toDocument := by
  induction cs with
  | nil => rw [listToDocument, List.map_nil]
  | cons c cs ih => rw [listToDocument, ih, List.map_cons]

theorem operandsIn_eq (fields : Fields) :
    operandsIn fields = (fields.lookup "operands").map operandList := by
  induction fields with
  | nil => rfl
  | cons f rest ih =>
    obtain ⟨k, v⟩ := f
    rw [operandsIn, List.lookup_cons]
    by_cases hk : k = "operands"
    · rw [if_pos hk, hk, beq_self_eq_true, Option.map_some]
    · rw [if_neg hk, ih, beq_false_of_ne (Ne.symm hk)]

theorem operandItems_eq_ok {vs : List Json} {cs : List Condition} {i : Nat} :
    operandItems i vs = .ok cs ↔ List.Forall₂ (fun v c => Condition.ofDocument v = .ok c) vs cs := by
  induction vs generalizing i cs with
  | nil =>
    rw [operandItems, List.forall₂_nil_left_iff]
    exact ⟨fun h => (Checked.ok.inj h).symm, fun h => h ▸ rfl⟩
  | cons v vs ih =>
    rw [operandItems, seq_eq_ok, List.forall₂_cons_left_iff]
    simp only [exists_map_eq_ok, under_eq_ok]
    constructor
    · rintro ⟨ds, hds, c, hc, rfl⟩
      exact ⟨c, ds, hc, ih.mp hds, rfl⟩
    · rintro ⟨c, ds, hc, hds, rfl⟩
      exact ⟨ds, ih.mpr hds, c, hc, rfl⟩

theorem operandList_eq_ok {v : Json} {cs : List Condition} :
    operandList v = .ok cs ↔ ∃ vs, v = .arr vs ∧ vs ≠ [] ∧
      List.Forall₂ (fun v c => Condition.ofDocument v = .ok c) vs cs := by
  cases v with
  | arr vs =>
    cases vs with
    | nil => simp [operandList]
    | cons v vs => simp [operandList, operandItems_eq_ok]
  | null | bool | int | float | str | obj => simp [operandList]

/-! ### Documents -/

/-- **A condition is read** from an object, by the reader of the kind that its tag names. -/
theorem Condition.ofDocument_eq_ok {v : Json} {c : Condition} :
    Condition.ofDocument v = .ok c ↔ ∃ fields, v = .obj fields ∧
      (givenTag fields = some (.str ConditionKind.time.name) ∧ timeOfFields fields = .ok c ∨
      givenTag fields = some (.str ConditionKind.rpc.name) ∧ balanceOfFields fields = .ok c ∨
      givenTag fields = some (.str ConditionKind.contract.name) ∧
        contractOfFields fields = .ok c ∨
      givenTag fields = some (.str ConditionKind.compound.name) ∧
        compoundOfFields fields ((fields.lookup "operands").map operandList) = .ok c) := by
  cases v with
  | obj fields =>
    rw [Condition.ofDocument]
    simp only [Json.obj.injEq, exists_eq_left']
    cases givenTag fields with
    | none => simp
    | some tag =>
      simp only [Option.some.injEq, ← kindOfTag?_eq_some]
      cases kindOfTag? tag with
      | none => simp
      | some k => cases k <;> simp [under_eq_ok, operandsIn_eq]
  | null | bool | int | float | str | arr => simp [Condition.ofDocument]

end AccessTree
