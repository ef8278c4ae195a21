import AccessTree.Proofs.Condition.Nodes
import AccessTree.Proofs.Json.Walk

/-! # Where validation breaks down

Validation reports what is wrong with a node as a problem, whatever values stand where it expects
others. It looks up words in three places only: the operator of a compound node, the standard of a
contract call, and the comparator of a test. A list or an object there cannot be looked up, and an
integer that is too long cannot be written into the report that it is no word; instead of being
reported, such a value `Baffles` the validation, which ends in a breakdown. A node `Stumbles` over
the value at one of these places if its checks get as far as that.

Each check has a lemma that says with which breakdown it ends (`checkTest_eq_error`,
`checkContract_eq_error`, …); together they give the nodes that do (`Node.check_eq_error`).
Validation breaks down exactly if the first node that does not pass its checks is one of these
(`validate_outcome`). -/

namespace AccessTree.Document

open Json (valueAt)

/-! ### Nodes that stumble -/

/-- A contract node has all that is checked before its standard. -/
structure BeginsCall (fields : Fields) : Prop where
  tag : valueAt fields "conditionType" = .str ConditionKind.contract.name
  chain : ∃ c : ChainId, valueAt fields "chain" = c.toJson
  address : ∃ s : String, valueAt fields "contractAddress" = .str s ∧ isAddressChars s.toList = true
  method : ∃ s : String, valueAt fields "method" = .str s ∧ Text.allBlank s = false
  parameters : ∃ items, valueAt fields "parameters" = .arr items

/-- A node has all that is checked before its test. -/
inductive ReachesTest (fields : Fields) : Prop
  | time (tag : valueAt fields "conditionType" = .str ConditionKind.time.name)
    (chain : ∃ c : ChainId, valueAt fields "chain" = c.toJson)
    (method : valueAt fields "method" = .str timeMethod)
  | balance (tag : valueAt fields "conditionType" = .str ConditionKind.rpc.name)
    (chain : ∃ c : ChainId, valueAt fields "chain" = c.toJson)
    (method : valueAt fields "method" = .str balanceMethod)
    (parameters : valueAt fields "parameters" = .arr balanceParameters)
  | contract (call : BeginsCall fields)
    (standard : valueAt fields "standardContractType" = .null ∨
      ∃ s : TokenStandard, valueAt fields "standardContractType" = .str s.name)
    (abi : valueAt fields "functionAbi" = .null ∨
      ∃ abi : Fields, valueAt fields "functionAbi" = .obj abi)

/-- **The value that a node stumbles over** stands where a word is looked up, and all that is
checked before it is in order. -/
inductive Stumbles (fields : Fields) (v : Json) : Prop
  | operator (tag : valueAt fields "conditionType" = .str ConditionKind.compound.name)
    (found : valueAt fields "operator" = v)
  | standard (call : BeginsCall fields) (found : valueAt fields "standardContractType" = v)
  | comparator (reached : ReachesTest fields) (test : Fields)
    (test_eq : valueAt fields "returnValueTest" = .obj test) (found : valueAt test "comparator" = v)

/-- Lists and objects cannot be looked up. -/
def isContainer (v : Json) : Bool := isList v || isObject v

/-- **The breakdown that a value leads to** where a word is looked up. -/
inductive Baffles : Json → DocumentFault → Prop
  | container {v : Json} (h : isContainer v = true) : Baffles v (.notAWord v)
  | overlong {n : Int} (h : Text.writeInt n = .error .tooLongToWrite) :
    Baffles (.int n) (.numeral .tooLongToWrite)

theorem isComparable_eq_false {v : Json} : isComparable v = false ↔ isContainer v = true := by
  cases v <;> simp [isComparable, isContainer, isList, isObject]

/-- What can be looked up and cannot be written is an integer that is too long. -/
theorem baffles_of_not_isWritable {v : Json} (hcomparable : isComparable v = true)
    (hw : v.isWritable = false) : Baffles v (.numeral .tooLongToWrite) := by
  cases v with
  | int n => exact .overlong (Json.isWritable_int.mp hw)
  | arr | obj => cases hcomparable
  | null | bool | float | str => cases hw

/-- What can be looked up and written leads to no breakdown. -/
theorem not_baffles {v : Json} {f : DocumentFault} (hcomparable : isComparable v = true)
    (hw : v.isWritable = true) : ¬ Baffles v f := by
  rintro (h | h)
  · exact Bool.false_ne_true ((isComparable_eq_false.mpr h).symm.trans hcomparable)
  · exact Bool.false_ne_true ((Json.isWritable_int.mpr h).symm.trans hw)

/-! ### Single checks -/

theorem andThen_eq_error {x y : Check} {f : DocumentFault} :
    (x >>= fun _ => y) = .error f ↔ x = .error f ∨ x = .ok () ∧ y = .error f := by
  rw [bind_eq_error]
  exact or_congr_right ⟨fun ⟨⟨⟩, h⟩ => h, fun h => ⟨(), h⟩⟩

section

variable {path : List Nat} {fields : Fields} {f : DocumentFault} (hf : f.IsBreakdown)

include hf

theorem require_ne_error {holds : Bool} {fault : NodeFault} :
    require path holds fault ≠ .error f := by
  cases holds
  · rintro ⟨⟩
    exact hf
  · rintro ⟨⟩

/-- **The look-up of a word** breaks down at a value that leads to it. -/
theorem requireName_eq_error {α : Type} [Word α] [Word.Lawful α] {v : Json}
    {fault : Json.Writable → NodeFault} :
    requireName α path v fault = .error f ↔ Baffles v f := by
  rw [requireName]
  split
  · next hcomparable =>
    split
    · next hname =>
      obtain ⟨a, rfl⟩ := isName_iff.mp hname
      refine iff_of_false (by rintro ⟨⟩) ?_
      rintro ⟨⟨⟩⟩
    · rw [Except.error.injEq, Json.faultShowing]
      split
      · next hw =>
        refine iff_of_false ?_ (not_baffles hcomparable hw)
        rintro rfl
        exact hf
      · next hw =>
        have hbaffles := baffles_of_not_isWritable hcomparable (by simpa using hw)
        constructor
        · rintro rfl
          exact hbaffles
        · rintro (h | h)
          · exact absurd hcomparable (by simpa using isComparable_eq_false.mpr h)
          · rfl
  · next hcomparable =>
    have hcontainer := isComparable_eq_false.mp (by simpa using hcomparable)
    rw [Except.error.injEq]
    constructor
    · rintro rfl
      exact .container hcontainer
    · rintro (h | h)
      · rfl
      · cases hcontainer

theorem checkChain_ne_error : checkChain path fields ≠ .error f := require_ne_error hf

theorem checkFixedMethod_ne_error {expected : String} :
    checkFixedMethod path fields expected ≠ .error f := require_ne_error hf

/-- A test breaks down because of its comparator. -/
theorem checkTest_eq_error : checkTest path fields = .error f ↔
    ∃ test, valueAt fields "returnValueTest" = .obj test ∧
      Baffles (valueAt test "comparator") f := by
  rw [checkTest]
  cases valueAt fields "returnValueTest" with
  | obj test =>
    simp only [andThen_eq_error, requireName_eq_error hf, require_ne_error hf, and_false, or_false,
      Json.obj.injEq, exists_eq_left']
  | null | bool | int | float | str | arr =>
    refine iff_of_false ?_ (by rintro ⟨_, ⟨⟩, -⟩)
    rintro ⟨⟩
    exact hf

theorem checkTime_eq_error : checkTime path fields = .error f ↔
    (∃ chain : ChainId, valueAt fields "chain" = chain.toJson) ∧
    valueAt fields "method" = .str timeMethod ∧
    checkTest path fields = .error f := by
  simp only [checkTime, andThen_eq_error, checkChain_ne_error hf, checkFixedMethod_ne_error hf,
    false_or, checkChain_eq_ok, checkFixedMethod_eq_ok]

theorem checkBalance_eq_error : checkBalance path fields = .error f ↔
    (∃ chain : ChainId, valueAt fields "chain" = chain.toJson) ∧
    valueAt fields "method" = .str balanceMethod ∧
    valueAt fields "parameters" = .arr balanceParameters ∧
    checkTest path fields = .error f := by
  simp only [checkBalance, andThen_eq_error, checkChain_ne_error hf, checkFixedMethod_ne_error hf,
    require_ne_error hf, false_or, checkChain_eq_ok, checkFixedMethod_eq_ok, require_eq_ok,
    decide_eq_true_eq]

/-- A compound node breaks down because of its operator. -/
theorem checkCompound_eq_error :
    checkCompound path fields = .error f ↔ Baffles (valueAt fields "operator") f := by
  have hnode : ∀ fault : NodeFault, .node path fault ≠ f := by
    rintro fault rfl
    exact hf
  rw [checkCompound, andThen_eq_error, requireName_eq_error hf]
  cases valueAt fields "operands" with
  | arr operands =>
    simp only [andThen_eq_error, require_ne_error hf, and_false, or_false]
  | null | bool | int | float | str | obj =>
    simp only [Except.error.injEq, hnode, and_false, or_false]

theorem checkContract_eq_error : checkContract path fields = .error f ↔
    (∃ chain : ChainId, valueAt fields "chain" = chain.toJson) ∧
    (∃ s : String, valueAt fields "contractAddress" = .str s ∧ isAddressChars s.toList = true) ∧
    (∃ s : String, valueAt fields "method" = .str s ∧ Text.allBlank s = false) ∧
    (∃ items, valueAt fields "parameters" = .arr items) ∧
    (Baffles (valueAt fields "standardContractType") f ∨
      (valueAt fields "standardContractType" = .null ∨
        ∃ s : TokenStandard, valueAt fields "standardContractType" = .str s.name) ∧
      (valueAt fields "functionAbi" = .null ∨ ∃ abi, valueAt fields "functionAbi" = .obj abi) ∧
      checkTest path fields = .error f) := by
  rw [checkContract]
  by_cases hs : valueAt fields "standardContractType" = .null
  · have hnull : ¬ Baffles .null f := by rintro ⟨⟨⟩⟩
    simp only [hs, ne_eq, not_true_eq_false, if_false, andThen_eq_error, checkChain_ne_error hf,
      require_ne_error hf, false_or, checkChain_eq_ok, require_eq_ok, isAddress_iff,
      isFilledText_iff, isList_iff, Bool.or_eq_true, decide_eq_true_eq, isObject_iff, true_or,
      true_and, hnull]
  · simp only [hs, ne_eq, not_false_eq_true, if_true, andThen_eq_error, checkChain_ne_error hf,
      require_ne_error hf, false_or, checkChain_eq_ok, require_eq_ok, isAddress_iff,
      isFilledText_iff, isList_iff, requireName_eq_error hf, requireName_eq_ok, Bool.or_eq_true,
      decide_eq_true_eq, isObject_iff]
    rfl

/-! ### Nodes and documents -/

/-- **A node breaks down** over a value that it stumbles over and that leads to the breakdown. -/
theorem Node.check_eq_error {n : Node} : n.check = .error f ↔
    ∃ fields v, n.value = .obj fields ∧ Stumbles fields v ∧ Baffles v f := by
  obtain ⟨path, value⟩ := n
  constructor
  · intro h
    rw [check] at h
    simp only at h
    split at h
    · next fields =>
      split at h
      · next kind hk =>
        have tag := kindOfTag?_eq_some.mp hk
        cases kind with
        | time =>
          obtain ⟨hc, hm, ht⟩ := (checkTime_eq_error hf).mp h
          obtain ⟨test, htest, hv⟩ := (checkTest_eq_error hf).mp ht
          exact ⟨fields, _, rfl, .comparator (.time tag hc hm) test htest rfl, hv⟩
        | rpc =>
          obtain ⟨hc, hm, hp, ht⟩ := (checkBalance_eq_error hf).mp h
          obtain ⟨test, htest, hv⟩ := (checkTest_eq_error hf).mp ht
          exact ⟨fields, _, rfl, .comparator (.balance tag hc hm hp) test htest rfl, hv⟩
        | contract =>
          obtain ⟨hc, ha, hm, hp, hrest⟩ := (checkContract_eq_error hf).mp h
          have call : BeginsCall fields := ⟨tag, hc, ha, hm, hp⟩
          rcases hrest with hv | ⟨hs, habi, ht⟩
          · exact ⟨fields, _, rfl, .standard call rfl, hv⟩
          · obtain ⟨test, htest, hv⟩ := (checkTest_eq_error hf).mp ht
            exact ⟨fields, _, rfl, .comparator (.contract call hs habi) test htest rfl, hv⟩
        | compound =>
          exact ⟨fields, _, rfl, .operator tag rfl, (checkCompound_eq_error hf).mp h⟩
      · cases h
        exact hf.elim
    · cases h
      exact hf.elim
  · rintro ⟨fields, v, rfl, hstumbles, hv⟩
    rcases hstumbles with ⟨tag, rfl⟩ | ⟨call, rfl⟩ | ⟨hreached, test, htest, rfl⟩
    · rw [check_of_tag tag]
      exact (checkCompound_eq_error hf).mpr hv
    · rw [check_of_tag call.tag]
      exact (checkContract_eq_error hf).mpr
        ⟨call.chain, call.address, call.method, call.parameters, .inl hv⟩
    · have ht : ∀ {path : List Nat}, checkTest path fields = .error f :=
        (checkTest_eq_error hf).mpr ⟨test, htest, hv⟩
      rcases hreached with ⟨tag, hc, hm⟩ | ⟨tag, hc, hm, hp⟩ | ⟨call, hs, habi⟩
      · rw [check_of_tag tag]
        exact (checkTime_eq_error hf).mpr ⟨hc, hm, ht⟩
      · rw [check_of_tag tag]
        exact (checkBalance_eq_error hf).mpr ⟨hc, hm, hp, ht⟩
      · rw [check_of_tag call.tag]
        exact (checkContract_eq_error hf).mpr
          ⟨call.chain, call.address, call.method, call.parameters, .inr ⟨hs, habi, ht⟩⟩

/-- **Validation breaks down** at the first node that does not pass its checks, if that node does.
-/
theorem validate_eq_error {d : Json} : validate d = .error f ↔
    ∃ before path fields after v, nodes [] d = before ++ ⟨path, .obj fields⟩ :: after ∧
      (∀ n ∈ before, n.check = .ok ()) ∧ Stumbles fields v ∧ Baffles v f := by
  rw [validate_eq_error_iff]
  constructor
  · rintro (⟨-, rfl⟩ | ⟨-, before, ⟨path, value⟩, after, hnodes, hbefore, h⟩)
    · exact hf.elim
    · obtain ⟨fields, v, rfl, hstumbles, hv⟩ := (Node.check_eq_error hf).mp h
      exact ⟨before, path, fields, after, v, hnodes, hbefore, hstumbles, hv⟩
  · rintro ⟨before, path, fields, after, v, hnodes, hbefore, hstumbles, hv⟩
    have h := (Node.check_eq_error (n := ⟨path, .obj fields⟩) hf).mpr
      ⟨fields, v, rfl, hstumbles, hv⟩
    refine .inr ⟨?_, before, _, after, hnodes, hbefore, h⟩
    by_contra ht
    -- the only node of an empty document is refused as no node of any kind
    have hfirst := forM_eq_error.mpr ⟨before, _, after, hnodes, hbefore, h⟩
    rw [← checkNode_eq_forM] at hfirst
    cases d with
    | obj fields =>
      have hnil : fields = [] := by simpa [Json.isTruthy] using ht
      subst hnil
      cases hfirst
      exact hf
    | null | bool | int | float | str | arr =>
      cases hfirst
      exact hf

end

/-- **What validation comes to.** A document is accepted, or refused with a validation problem, or
validation breaks down. It breaks down exactly if the first node that does not pass its checks has
a list or an object as the operator of a compound node, as the standard of a contract call or as
the comparator of a test, or an integer there that is too long to be reported, and all that is
checked before it is in order; whatever else stands in a node is a problem at most. -/
theorem validate_outcome (d : Json) :
    (validate d = .ok () ∨
      (∃ f p, validate d = .error f ∧ f.toFailure = .problem p ∧ p.category = .validation) ∨
      (∃ v, validate d = .error (.notAWord v) ∧ (DocumentFault.notAWord v).toFailure =
        .breakdown .type ("unhashable type: '" ++ v.className ++ "'")) ∨
      validate d = .error (.numeral .tooLongToWrite) ∧
        (DocumentFault.numeral .tooLongToWrite).toFailure =
          .breakdown .value NumeralFault.tooLongToWrite.message) ∧
    (∀ v, validate d = .error (.notAWord v) ↔ isContainer v = true ∧
      ∃ before path fields after, nodes [] d = before ++ ⟨path, .obj fields⟩ :: after ∧
        (∀ n ∈ before, n.check = .ok ()) ∧ Stumbles fields v) ∧
    (validate d = .error (.numeral .tooLongToWrite) ↔
      ∃ n, Text.writeInt n = .error .tooLongToWrite ∧
      ∃ before path fields after, nodes [] d = before ++ ⟨path, .obj fields⟩ :: after ∧
        (∀ n ∈ before, n.check = .ok ()) ∧ Stumbles fields (.int n)) := by
  refine ⟨?_, fun v => ?_, ?_⟩
  · cases hd : validate d with
    | ok u => exact .inl rfl
    | error f =>
      right
      cases f with
      | notAWord v => exact .inr (.inl ⟨v, rfl, rfl⟩)
      | numeral g =>
        obtain ⟨_, _, _, _, _, -, -, -, hbaffles⟩ :=
          (validate_eq_error (f := .numeral g) trivial).mp hd
        cases hbaffles
        exact .inr (.inr ⟨rfl, rfl⟩)
      | empty | node | unreadable => exact .inl ⟨_, _, rfl, rfl, rfl⟩
  · rw [validate_eq_error (f := .notAWord v) trivial]
    constructor
    · rintro ⟨before, path, fields, after, w, hnodes, hbefore, hstumbles, ⟨hcontainer⟩⟩
      exact ⟨hcontainer, before, path, fields, after, hnodes, hbefore, hstumbles⟩
    · rintro ⟨hcontainer, before, path, fields, after, hnodes, hbefore, hstumbles⟩
      exact ⟨before, path, fields, after, v, hnodes, hbefore, hstumbles, .container hcontainer⟩
  · rw [validate_eq_error (f := .numeral .tooLongToWrite) trivial]
    constructor
    · rintro ⟨before, path, fields, after, w, hnodes, hbefore, hstumbles, hbaffles⟩
      cases hbaffles with
      | overlong hlong => exact ⟨_, hlong, before, path, fields, after, hnodes, hbefore, hstumbles⟩
    · rintro ⟨n, hlong, before, path, fields, after, hnodes, hbefore, hstumbles⟩
      exact ⟨before, path, fields, after, _, hnodes, hbefore, hstumbles, .overlong hlong⟩

/-- A list as an operator is no problem with its node, but a breakdown. -/
theorem validate_breaks_down_at_listed_operator : ∃ f,
    validate (.obj [("conditionType", .str "compound"), ("operator", .arr [.str "and"]),
      ("operands", .arr [.obj [("conditionType", .str "time"), ("chain", .int 137),
        ("method", .str "blocktime"),
        ("returnValueTest", .obj [("comparator", .str ">="), ("value", .int 0)])]])]) =
      .error f ∧
    f.toFailure = .breakdown .type "unhashable type: 'list'" ∧ ∀ p, f.toFailure ≠ .problem p :=
  ⟨.notAWord (.arr [.str "and"]), by decide, by rfl, by rintro p ⟨⟩⟩

end AccessTree.Document
