import AccessTree.Proofs.Compile.Formed
import AccessTree.Proofs.Condition.Declared

/-! # What is written is read back

A well-formed condition is written with the declared keys only, and what is read from its document is
the condition with `null` for every number that is not finite (`Condition.reread`). This can fail in
one way, when the value of a test has become `null`; and it is written as the same document unless a
further field of a test has become `null` and is left out (`Condition.ofDocument_toDocument`,
`Condition.toDocument_reread`). Validation asks for one thing more, the form of addresses
(`Condition.valid_toDocument`). -/

namespace AccessTree

open Schema

/-! ### Tests and addresses -/

/-- The test of a condition that is not compound. -/
def Condition.test? : Condition → Option ValueTest
  | .time _ test | .balance _ test => some test
  | .contract call => some call.test
  | .compound .. => none

/-- The address that is called by a condition that is not compound. -/
def Condition.address? : Condition → Option String
  | .contract call => some call.address
  | .time .. | .balance .. | .compound .. => none

/-- The tests of a condition, from left to right. -/
def Condition.tests (c : Condition) : List ValueTest := c.leaves.filterMap Condition.test?

/-- The addresses that a condition calls, from left to right. -/
def Condition.addresses (c : Condition) : List String := c.leaves.filterMap Condition.address?

theorem Condition.tests_compound (operator : Operator) (operands : List Condition) :
    (Condition.compound operator operands).tests = operands.flatMap Condition.tests := by
  rw [tests, leaves, Compile.leavesOf_eq_flatMap, List.filterMap_flatMap]
  rfl

theorem Condition.addresses_compound (operator : Operator) (operands : List Condition) :
    (Condition.compound operator operands).addresses = operands.flatMap Condition.addresses := by
  rw [addresses, leaves, Compile.leavesOf_eq_flatMap, List.filterMap_flatMap]
  rfl

/-! ### Conditions as they are read back -/

/-- A test as it is read back. -/
def ValueTest.reread (t : ValueTest) : ValueTest :=
  ⟨t.comparator, t.value.portable, Json.portableFields (t.extra.filter fun f => f.2 ≠ .null)⟩

/-- A contract call as it is read back. -/
def ContractCall.reread (call : ContractCall) : ContractCall :=
  { call with
    parameters := Json.portableItems call.parameters
    abi := call.abi.map Json.portableFields
    test := call.test.reread }

mutual
/-- **A condition as it is read back:** numbers that are not finite have become `null`. -/
def Condition.reread : Condition → Condition
  | .time chain test => .time chain test.reread
  | .balance chain test => .balance chain test.reread
  | .contract call => .contract call.reread
  | .compound operator operands => .compound operator (Condition.rereadEach operands)

/-- Operands as they are read back. -/
def Condition.rereadEach : List Condition → List Condition
  | [] => []
  | c :: cs => c.reread :: Condition.rereadEach cs
end

theorem Condition.rereadEach_eq_map (cs : List Condition) :
    Condition.rereadEach cs = cs.map Condition.reread := by
  induction cs with
  | nil => rw [rereadEach, List.map_nil]
  | cons c cs ih => rw [rereadEach, ih, List.map_cons]

/-! ### Tests -/

namespace ValueTest

variable {t : ValueTest}

theorem extraOf_toDocument (h : t.Formed) (comparator value : Json) :
    extraOf ([("comparator", comparator), ("value", value)] ++
      Json.portableFields (t.extra.filter fun f => f.2 ≠ .null)) =
    Json.portableFields (t.extra.filter fun f => f.2 ≠ .null) := by
  rw [extraOf, List.filter_append]
  have hhead : ([("comparator", comparator), ("value", value)] : Fields).filter
      (fun f => decide (f.1 ≠ "comparator" ∧ f.1 ≠ "value")) = [] := rfl
  rw [hhead, List.nil_append, List.filter_eq_self, Json.portableFields_eq_map]
  intro f hf
  obtain ⟨g, hg, rfl⟩ := List.mem_map.mp hf
  exact decide_eq_true (h.extra_keys g (List.mem_filter.mp hg).1)

/-- **A written test is read** if its value can be written. -/
theorem ofDocument_toDocument (h : t.Formed) {s : ValueTest} :
    ValueTest.ofDocument t.toDocument = .ok s ↔ t.value.isNonfinite = false ∧ s = t.reread := by
  have hvalue : t.value.portable ≠ .null ↔ t.value.isNonfinite = false := by
    rw [Ne, Json.portable_eq_null, or_iff_right h.value_ne_null, Bool.not_eq_true]
  rw [ofDocument_eq_ok, ← hvalue]
  constructor
  · rintro ⟨_, ⟨⟩, hc, hv, hne, he⟩
    rw [extraOf_toDocument h] at he
    obtain ⟨comparator, value, extra⟩ := s
    have hname : Json.str t.comparator.name = .str comparator.name := Option.some.inj hc
    have hcomparator := Word.Lawful.name_inj _ _ (Json.str.inj hname)
    cases he
    cases hcomparator
    cases Option.some.inj hv
    exact ⟨hne, rfl⟩
  · rintro ⟨hne, rfl⟩
    exact ⟨_, rfl, rfl, rfl, hne, (extraOf_toDocument h _ _).symm⟩

theorem validTest_toDocument (h : t.Formed) :
    Document.ValidTest t.toDocument ↔ t.value.isNonfinite = false := by
  rw [← Bool.not_eq_true, ← or_iff_right (b := t.value.isNonfinite = true) h.value_ne_null,
    ← Json.portable_eq_null]
  constructor
  · rintro ⟨_, _, ⟨⟩, -, hv⟩
    exact hv
  · intro hv
    exact ⟨_, t.comparator, rfl, rfl, hv⟩

/-- A test that is read back is written as before, if no further field has become `null`. -/
theorem toDocument_reread (h : ∀ f ∈ t.extra, f.2.isNonfinite = false) :
    t.reread.toDocument = t.toDocument := by
  have hkept : (Json.portableFields (t.extra.filter fun f => f.2 ≠ .null)).filter
      (fun f => f.2 ≠ .null) = Json.portableFields (t.extra.filter fun f => f.2 ≠ .null) := by
    rw [List.filter_eq_self, Json.portableFields_eq_map]
    intro f hf
    obtain ⟨g, hg, rfl⟩ := List.mem_map.mp hf
    obtain ⟨hmem, hne⟩ := List.mem_filter.mp hg
    refine decide_eq_true fun hnull => ?_
    rcases Json.portable_eq_null.mp hnull with hnull | hnull
    · exact of_decide_eq_true hne hnull
    · rw [h g hmem] at hnull
      cases hnull
  rw [toDocument, toDocument, reread, hkept, Json.portable_portable, Json.portableFields_portable]

end ValueTest

/-! ### Contract calls -/

namespace ContractCall

/-- The fields that are written for a call. -/
def writtenFields (call : ContractCall) : Fields :=
  [("conditionType", .str ConditionKind.contract.name), ("chain", call.chain.toJson),
      ("contractAddress", .str call.address), ("method", .str call.method),
      ("parameters", .arr (Json.portableItems call.parameters))] ++
    (match call.standard with
      | none => []
      | some s => [("standardContractType", .str s.name)]) ++
    (match call.abi with
      | none => []
      | some fields => [("functionAbi", .obj (Json.portableFields fields))]) ++
    [("returnValueTest", call.test.toDocument)]

theorem toDocument_eq (call : ContractCall) : call.toDocument = .obj call.writtenFields := rfl

theorem writtenFields_declared (call : ContractCall) :
    ∀ f ∈ call.writtenFields, f.1 ∈ declaredKeys .contract := by
  rw [writtenFields]
  cases call.standard <;> cases call.abi <;> simp [declaredKeys]

theorem lookup_writtenFields (call : ContractCall) :
    call.writtenFields.lookup "conditionType" = some (.str ConditionKind.contract.name) ∧
    call.writtenFields.lookup "chain" = some call.chain.toJson ∧
    call.writtenFields.lookup "contractAddress" = some (.str call.address) ∧
    call.writtenFields.lookup "method" = some (.str call.method) ∧
    call.writtenFields.lookup "parameters" = some (.arr (Json.portableItems call.parameters)) ∧
    call.writtenFields.lookup "returnValueTest" = some call.test.toDocument := by
  rw [writtenFields]
  cases call.standard <;> cases call.abi <;> exact ⟨rfl, rfl, rfl, rfl, rfl, rfl⟩

theorem lookup_standard (call : ContractCall) :
    call.writtenFields.lookup "standardContractType" = call.standard.map fun s => .str s.name := by
  rw [writtenFields]
  cases call.standard <;> cases call.abi <;> rfl

theorem lookup_abi (call : ContractCall) :
    call.writtenFields.lookup "functionAbi" = (call.abi.map Json.portableFields).map .obj := by
  rw [writtenFields]
  cases call.standard <;> cases call.abi <;> rfl

/-- What is written for an option is read as this option. -/
theorem given_iff {α : Type} {o p : Option α} {written : α → Json} (hne : ∀ a, written a ≠ .null)
    (hinj : ∀ a b, written a = written b → a = b) :
    p = none ∧ (o.map written).getD .null = .null ∨
      (∃ a, p = some a ∧ o.map written = some (written a)) ↔ p = o := by
  cases o with
  | none => simp
  | some b =>
    simp only [Option.map_some, Option.getD_some, hne b, and_false, false_or, Option.some.injEq]
    constructor
    · rintro ⟨a, rfl, h⟩
      rw [hinj b a h]
    · rintro rfl
      exact ⟨b, rfl, rfl⟩

/-- **A written call is read** if the value of its test can be written. -/
theorem ofDocument_toDocument {call : ContractCall} (hm : Text.allBlank call.method = false)
    (ht : call.test.Formed) {d : Condition} :
    Condition.ofDocument call.toDocument = .ok d ↔
      call.test.value.isNonfinite = false ∧ d = .contract call.reread := by
  obtain ⟨htag, hchain, haddress, hmethod, hparameters, htest⟩ := call.lookup_writtenFields
  have hstandard : ∀ o : Option TokenStandard,
      (o = none ∧ (call.standard.map fun s => Json.str s.name).getD .null = .null ∨
        ∃ s, o = some s ∧ (call.standard.map fun s => Json.str s.name) = some (.str s.name)) ↔
      o = call.standard := fun _ =>
    given_iff (by simp) fun a b h => Word.Lawful.name_inj a b (Json.str.inj h)
  have habi : ∀ o : Option Fields,
      (o = none ∧ ((call.abi.map Json.portableFields).map Json.obj).getD .null = .null ∨
        ∃ abi, o = some abi ∧ (call.abi.map Json.portableFields).map Json.obj = some (.obj abi)) ↔
      o = call.abi.map Json.portableFields := fun _ =>
    given_iff (by simp) fun a b h => Json.obj.inj h
  rw [toDocument_eq, ofDocument_contract_eq_ok call.writtenFields_declared htag]
  simp only [Json.valueAt, hchain, haddress, hmethod, hparameters, htest, lookup_standard,
    lookup_abi, Option.some.injEq, Json.str.injEq, Json.arr.injEq, exists_eq_left', hstandard, habi,
    reduceCtorEq, false_and, false_or, ValueTest.ofDocument_toDocument ht]
  constructor
  · rintro ⟨⟨chain, address, method, parameters, standard, abi, test⟩, rfl, hc, rfl, ⟨rfl, -⟩,
      rfl, rfl, rfl, hfin, rfl⟩
    cases (chainNumber_toJson call.chain).symm.trans hc
    exact ⟨hfin, rfl⟩
  · rintro ⟨hfin, rfl⟩
    exact ⟨call.reread, rfl, chainNumber_toJson call.chain, rfl, ⟨rfl, hm⟩, rfl, rfl, rfl, hfin, rfl⟩

theorem toDocument_reread {call : ContractCall}
    (h : ∀ f ∈ call.test.extra, f.2.isNonfinite = false) :
    call.reread.toDocument = call.toDocument := by
  have htest := ValueTest.toDocument_reread h
  obtain ⟨chain, address, method, parameters, standard, abi, test⟩ := call
  cases abi <;> simp only [toDocument, reread, htest, Json.portableItems_portable,
    Json.portableFields_portable, Option.map_none, Option.map_some]

/-- **A written call is valid** if besides its address is one. -/
theorem valid_toDocument {call : ContractCall} (hm : Text.allBlank call.method = false)
    (ht : call.test.Formed) :
    Document.Valid call.toDocument ↔ call.test.value.isNonfinite = false ∧
      Document.isAddressChars call.address.toList = true := by
  obtain ⟨htag, hchain, haddress, hmethod, hparameters, htest⟩ := call.lookup_writtenFields
  rw [← ValueTest.validTest_toDocument ht, toDocument_eq, ← Document.checkNode_eq_ok_iff _ [],
    Document.checkNode_of_tag ((Json.valueAt_eq (by simp)).mpr htag), Document.checkContract_eq_ok]
  simp only [Json.valueAt, hchain, haddress, hmethod, hparameters, htest, Option.getD_some,
    Json.str.injEq, Json.arr.injEq, lookup_standard, lookup_abi]
  constructor
  · rintro ⟨-, ⟨_, rfl, ha⟩, -, -, -, -, hv⟩
    exact ⟨hv, ha⟩
  · rintro ⟨hv, ha⟩
    refine ⟨⟨call.chain, rfl⟩, ⟨_, rfl, ha⟩, ⟨_, rfl, hm⟩, ⟨_, rfl⟩, ?_, ?_, hv⟩
    · cases call.standard with
      | none => exact Or.inl rfl
      | some s => exact Or.inr ⟨s, rfl⟩
    · cases call.abi with
      | none => exact Or.inl rfl
      | some abi => exact Or.inr ⟨_, rfl⟩

end ContractCall

/-! ### Conditions -/

namespace Condition

theorem forall₂_reread {operands ds : List Condition}
    (h : ∀ c ∈ operands, ∀ d, Condition.ofDocument c.toDocument = .ok d ↔
      (∀ t ∈ c.tests, t.value.isNonfinite = false) ∧ d = c.reread) :
    List.Forall₂ (fun c d => Condition.ofDocument c.toDocument = .ok d) operands ds ↔
      (∀ c ∈ operands, ∀ t ∈ c.tests, t.value.isNonfinite = false) ∧
        ds = operands.map reread := by
  induction operands generalizing ds with
  | nil => simp
  | cons c rest ih =>
    rw [List.forall₂_cons_left_iff]
    simp only [h c List.mem_cons_self, ih fun e he => h e (List.mem_cons_of_mem c he),
      List.forall_mem_cons, List.map_cons]
    constructor
    · rintro ⟨_, _, ⟨hc, rfl⟩, ⟨hrest, rfl⟩, rfl⟩
      exact ⟨⟨hc, hrest⟩, rfl⟩
    · rintro ⟨⟨hc, hrest⟩, rfl⟩
      exact ⟨_, _, ⟨hc, rfl⟩, ⟨hrest, rfl⟩, rfl⟩

/-- **A written condition is read** if the values of its tests can be written. -/
theorem ofDocument_toDocument {c : Condition} (h : c.Formed) : ∀ d,
    Condition.ofDocument c.toDocument = .ok d ↔
      (∀ t ∈ c.tests, t.value.isNonfinite = false) ∧ d = c.reread := by
  induction h with
  | @time chain test ht =>
    intro d
    have htests : (Condition.time chain test).tests = [test] := rfl
    rw [toDocument, ofDocument_time_eq_ok (by simp [declaredKeys]) rfl, htests,
      List.forall_mem_singleton, reread]
    constructor
    · rintro ⟨_, s, rfl, ⟨_, ⟨⟩, hchain⟩, -, _, ⟨⟩, hs⟩
      cases (chainNumber_toJson chain).symm.trans hchain
      obtain ⟨hfin, rfl⟩ := (ValueTest.ofDocument_toDocument ht).mp hs
      exact ⟨hfin, rfl⟩
    · rintro ⟨hfin, rfl⟩
      have hs := (ValueTest.ofDocument_toDocument ht).mpr ⟨hfin, rfl⟩
      exact ⟨chain, _, rfl, ⟨_, rfl, chainNumber_toJson chain⟩, Or.inr rfl, _, rfl, hs⟩
  | @balance chain test ht =>
    intro d
    have htests : (Condition.balance chain test).tests = [test] := rfl
    rw [toDocument, ofDocument_balance_eq_ok (by simp [declaredKeys]) rfl, htests,
      List.forall_mem_singleton, reread]
    constructor
    · rintro ⟨_, s, rfl, ⟨_, ⟨⟩, hchain⟩, -, -, _, ⟨⟩, hs⟩
      cases (chainNumber_toJson chain).symm.trans hchain
      obtain ⟨hfin, rfl⟩ := (ValueTest.ofDocument_toDocument ht).mp hs
      exact ⟨hfin, rfl⟩
    · rintro ⟨hfin, rfl⟩
      have hs := (ValueTest.ofDocument_toDocument ht).mpr ⟨hfin, rfl⟩
      exact ⟨chain, _, rfl, ⟨_, rfl, chainNumber_toJson chain⟩, Or.inr rfl, Or.inr rfl, _, rfl, hs⟩
  | @contract call hm ht =>
    intro d
    have htests : (Condition.contract call).tests = [call.test] := rfl
    rw [toDocument, htests, List.forall_mem_singleton, reread]
    exact ContractCall.ofDocument_toDocument hm ht
  | @compound operator operands hne hone heach ih =>
    intro d
    rw [toDocument, ofDocument_compound_eq_ok (by simp [declaredKeys]) rfl, tests_compound,
      List.forall_mem_flatMap, reread, rereadEach_eq_map]
    constructor
    · rintro ⟨o, ds, rfl, ho, ⟨_, ⟨⟩, -, hds⟩, -⟩
      rw [listToDocument_eq_map, List.forall₂_map_left_iff] at hds
      obtain ⟨hfin, rfl⟩ := (forall₂_reread ih).mp hds
      have hname : Json.str operator.name = .str o.name := Option.some.inj ho
      cases Word.Lawful.name_inj _ _ (Json.str.inj hname)
      exact ⟨hfin, rfl⟩
    · rintro ⟨hfin, rfl⟩
      have hds := (forall₂_reread ih).mpr ⟨hfin, rfl⟩
      refine ⟨operator, _, rfl, rfl, ⟨_, rfl, ?_, ?_⟩, ?_⟩
      · simpa [listToDocument_eq_map] using hne
      · rw [listToDocument_eq_map, List.forall₂_map_left_iff]
        exact hds
      · rw [List.length_map]
        exact hone

/-- A condition that is read back is written as before, if no further field of its tests has become
`null`. -/
theorem toDocument_reread {c : Condition} (h : c.Formed)
    (hextra : ∀ t ∈ c.tests, ∀ f ∈ t.extra, f.2.isNonfinite = false) :
    c.reread.toDocument = c.toDocument := by
  induction h with
  | @time chain test ht =>
    rw [reread, toDocument, toDocument, ValueTest.toDocument_reread (hextra test List.mem_cons_self)]
  | @balance chain test ht =>
    rw [reread, toDocument, toDocument, ValueTest.toDocument_reread (hextra test List.mem_cons_self)]
  | @contract call hm ht =>
    rw [reread, toDocument, toDocument,
      ContractCall.toDocument_reread (hextra call.test List.mem_cons_self)]
  | @compound operator operands hne hone heach ih =>
    rw [tests_compound] at hextra
    have hrest : ∀ c ∈ operands, (toDocument ∘ reread) c = toDocument c := fun c hc =>
      ih c hc fun t ht => hextra t (List.mem_flatMap_of_mem hc ht)
    rw [reread, toDocument, toDocument, rereadEach_eq_map, listToDocument_eq_map,
      listToDocument_eq_map, List.map_map, List.map_congr_left hrest]

/-- **A written condition is valid** if besides the addresses that it calls are addresses. -/
theorem valid_toDocument {c : Condition} (h : c.Formed) :
    Document.Valid c.toDocument ↔ (∀ t ∈ c.tests, t.value.isNonfinite = false) ∧
      ∀ s ∈ c.addresses, Document.isAddressChars s.toList = true := by
  induction h with
  | @time chain test ht =>
    have htests : (Condition.time chain test).tests = [test] := rfl
    have haddresses : (Condition.time chain test).addresses = [] := rfl
    rw [htests, haddresses, List.forall_mem_singleton, ← ValueTest.validTest_toDocument ht,
      toDocument, ← Document.checkNode_eq_ok_iff _ [], Document.checkNode_of_tag rfl,
      Document.checkTime_eq_ok]
    exact ⟨fun h => ⟨h.2.2, by simp⟩, fun h => ⟨⟨chain, rfl⟩, rfl, h.1⟩⟩
  | @balance chain test ht =>
    have htests : (Condition.balance chain test).tests = [test] := rfl
    have haddresses : (Condition.balance chain test).addresses = [] := rfl
    rw [htests, haddresses, List.forall_mem_singleton, ← ValueTest.validTest_toDocument ht,
      toDocument, ← Document.checkNode_eq_ok_iff _ [], Document.checkNode_of_tag rfl,
      Document.checkBalance_eq_ok]
    exact ⟨fun h => ⟨h.2.2.2, by simp⟩, fun h => ⟨⟨chain, rfl⟩, rfl, rfl, h.1⟩⟩
  | @contract call hm ht =>
    have htests : (Condition.contract call).tests = [call.test] := rfl
    have haddresses : (Condition.contract call).addresses = [call.address] := rfl
    rw [htests, haddresses, List.forall_mem_singleton, List.forall_mem_singleton, toDocument]
    exact ContractCall.valid_toDocument hm ht
  | @compound operator operands hne hone heach ih =>
    have hops : Document.checkOperandList [] (.arr (listToDocument operands)) = .ok () ↔
        ∀ c ∈ operands, Document.Valid c.toDocument := by
      rw [Document.checkOperandList, listToDocument_eq_map,
        Document.checkOperands_eq_ok fun v _ => Document.checkNode_eq_ok_iff v, List.forall_mem_map]
    have heach : (∀ c ∈ operands, Document.Valid c.toDocument) ↔
        (∀ c ∈ operands, ∀ t ∈ c.tests, t.value.isNonfinite = false) ∧
          ∀ c ∈ operands, ∀ s ∈ c.addresses, Document.isAddressChars s.toList = true := by
      rw [forall₂_congr ih]
      exact forall₂_and
    rw [tests_compound, addresses_compound, List.forall_mem_flatMap, List.forall_mem_flatMap,
      toDocument, ← Document.checkNode_eq_ok_iff _ [], Document.checkNode_of_tag rfl,
      Document.checkCompound_eq_ok, ← heach, ← hops]
    refine and_iff_right ⟨operator, rfl, _, rfl, ?_, ?_⟩
    · simpa [listToDocument_eq_map] using hne
    · rw [listToDocument_eq_map, List.length_map]
      exact hone

/-! ### Conditions that arise -/

/-- **What is written is read back.** Of a condition that was compiled, in either mode, or that was
read from a document, the document is read exactly if the value of no test is a number that is not
finite; if no further field of a test is one either, what is read is written as the same document.
The document passes validation exactly if besides every address that is called is an address. -/
theorem written_document {c : Condition}
    (h : (∃ mode blocks, (Compile.workspace mode blocks).result = .ok (some c)) ∨
      ∃ d, Condition.ofDocument d = .ok c) :
    ((∃ c', Condition.ofDocument c.toDocument = .ok c') ↔
      ∀ t ∈ c.tests, t.value.isNonfinite = false) ∧
    ((∀ t ∈ c.tests, t.value.isNonfinite = false) →
      (∀ t ∈ c.tests, ∀ f ∈ t.extra, f.2.isNonfinite = false) →
      ∃ c', Condition.ofDocument c.toDocument = .ok c' ∧ c'.toDocument = c.toDocument) ∧
    (Document.validate c.toDocument = .ok () ↔
      (∀ t ∈ c.tests, t.value.isNonfinite = false) ∧
        ∀ s ∈ c.addresses, Document.isAddressChars s.toList = true) := by
  have hformed : c.Formed := by
    rcases h with ⟨mode, blocks, hc⟩ | ⟨d, hd⟩
    · exact Compile.formed_of_workspace hc
    · exact formed_of_ofDocument d c hd
  refine ⟨⟨?_, fun hfin => ?_⟩, fun hfin hextra => ?_, ?_⟩
  · rintro ⟨c', hc⟩
    exact ((ofDocument_toDocument hformed c').mp hc).1
  · exact ⟨_, (ofDocument_toDocument hformed _).mpr ⟨hfin, rfl⟩⟩
  · exact ⟨_, (ofDocument_toDocument hformed _).mpr ⟨hfin, rfl⟩, toDocument_reread hformed hextra⟩
  · rw [Document.validate_eq_ok_iff]
    exact valid_toDocument hformed

/-- A contract block with a method and nothing entered as its address. -/
def addresslessBlock : Block :=
  ⟨"call", .condition, "", "", [("conditionType", .str "contract"), ("method", .str "balanceOf")],
    [], none, false⟩

/-- The condition that it compiles to. -/
def addressless : Condition :=
  .contract ⟨.sepolia, "", "balanceOf", [.str userAddress], none, none, Compile.aboveZero⟩

/-- Its document is read back and written as before, but it is not valid. -/
theorem written_document_addressless :
    (Compile.workspace ⟨false, .ok .sepolia⟩ [addresslessBlock]).result = .ok (some addressless) ∧
    (∃ c', Condition.ofDocument addressless.toDocument = .ok c' ∧
      c'.toDocument = addressless.toDocument) ∧
    Document.validate addressless.toDocument ≠ .ok () := by
  have hc : (Compile.workspace ⟨false, .ok .sepolia⟩ [addresslessBlock]).result =
      .ok (some addressless) := by rfl
  have htests : addressless.tests = [Compile.aboveZero] := rfl
  have haddresses : addressless.addresses = [""] := rfl
  obtain ⟨-, hback, hvalid⟩ := written_document (Or.inl ⟨_, _, hc⟩)
  rw [htests] at hback
  rw [haddresses] at hvalid
  refine ⟨hc, hback (by decide) (by decide), fun h => ?_⟩
  exact absurd ((hvalid.mp h).2 "" List.mem_cons_self) (by decide)

end Condition

end AccessTree
