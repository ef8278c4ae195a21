import AccessTree.Proofs.Condition.Read

/-! # Well-formed conditions

`Condition.Formed` says what every condition that was read from a document has: tests with a value
that is not `null` and no second comparator or value, contract calls with a method, and compound
conditions with operands, one for `not`. The types leave these things open; both readers of
conditions, of documents and of compositions, see to them. -/

namespace AccessTree

/-- A test has a value, and nothing else under the keys of its comparator and its value. -/
structure ValueTest.Formed (t : ValueTest) : Prop where
  value_ne_null : t.value ≠ .null
  extra_keys : ∀ f ∈ t.extra, f.1 ≠ "comparator" ∧ f.1 ≠ "value"

/-- **A well-formed condition.** -/
inductive Condition.Formed : Condition → Prop
  | time (chain : ChainId) {test : ValueTest} (formed : test.Formed) : Formed (.time chain test)
  | balance (chain : ChainId) {test : ValueTest} (formed : test.Formed) :
    Formed (.balance chain test)
  | contract {call : ContractCall} (filled : Text.allBlank call.method = false)
    (formed : call.test.Formed) : Formed (.contract call)
  | compound {operator : Operator} {operands : List Condition} (nonempty : operands ≠ [])
    (single : operator = .not → operands.length = 1) (each : ∀ c ∈ operands, Formed c) :
    Formed (.compound operator operands)

theorem ValueTest.formed_of_ofDocument {v : Json} {t : ValueTest}
    (h : ValueTest.ofDocument v = .ok t) : t.Formed := by
  obtain ⟨fields, -, -, -, hne, he⟩ := ofDocument_eq_ok.mp h
  refine ⟨hne, fun f hf => ?_⟩
  rw [he, extraOf, List.mem_filter, decide_eq_true_eq] at hf
  exact hf.2

/-- **What is read is well-formed.** -/
theorem Condition.formed_of_ofDocument (v : Json) :
    ∀ c, Condition.ofDocument v = .ok c → c.Formed := by
  induction v using Document.nodeInduction with
  | other v hv =>
    intro c hc
    obtain ⟨fields, rfl, -⟩ := ofDocument_eq_ok.mp hc
    exact absurd rfl (hv fields)
  | node fields ih =>
    intro c hc
    obtain ⟨_, ⟨⟩, ⟨-, h⟩ | ⟨-, h⟩ | ⟨-, h⟩ | ⟨-, h⟩⟩ := ofDocument_eq_ok.mp hc
    · obtain ⟨chain, test, rfl, -, -, -, ⟨v, -, ht⟩, -⟩ := timeOfFields_eq_ok.mp h
      exact .time chain (ValueTest.formed_of_ofDocument ht)
    · obtain ⟨chain, test, rfl, -, -, -, -, ⟨v, -, ht⟩, -⟩ := balanceOfFields_eq_ok.mp h
      exact .balance chain (ValueTest.formed_of_ofDocument ht)
    · obtain ⟨call, rfl, -, -, -, ⟨-, hm⟩, -, -, -, ⟨v, -, ht⟩, -⟩ := contractOfFields_eq_ok.mp h
      exact .contract hm (ValueTest.formed_of_ofDocument ht)
    · obtain ⟨operator, operands, rfl, -, -, hread, -, hone⟩ := compoundOfFields_eq_ok.mp h
      obtain ⟨_, hl, hlist⟩ := Option.map_eq_some_iff.mp hread
      obtain ⟨vs, rfl, hne, heach⟩ := operandList_eq_ok.mp hlist
      refine .compound ?_ hone fun c hc => ?_
      · rintro rfl
        exact hne (List.forall₂_nil_right_iff.mp heach)
      · obtain ⟨w, hw, hread⟩ := forall_right_of_forall₂ heach c hc
        exact ih vs hl w hw c hread

end AccessTree
