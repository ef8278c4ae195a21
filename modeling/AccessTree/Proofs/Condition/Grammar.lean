import AccessTree.Proofs.Condition.Valid
import Mathlib.Tactic.IntervalCases

/-! # The grammar of condition documents

`Document.Derivable` is the grammar of condition documents as it is given to those who write them:
it spells out the words, the numbers of the chains and the parameters that have to stand under a
key, and reads nothing off the types that the library has for them. It is a grammar for each rule of
how an address is written. By the rule that is given an address is `0x` and forty hexadecimal digits
(`IsAddress`).

Validation accepts exactly what is derivable if an address may also end in a line feed
(`validate_eq_ok_iff_derivable`). Every rule of the grammar agrees with the rule of `Valid` for the
same kind of node, word by word. -/

namespace AccessTree.Document

open Json (valueAt)

/-! ### Addresses -/

/-- The hexadecimal digits. -/
def hexDigits : List Char := "0123456789abcdefABCDEF".toList

/-- **An address** is `0x` and forty hexadecimal digits. -/
def IsAddress (cs : List Char) : Prop :=
  ∃ digits, cs = '0' :: 'x' :: digits ∧ digits.length = 40 ∧ ∀ c ∈ digits, c ∈ hexDigits

/-- An address on a line: a line feed may end it. -/
def IsAddressLine (cs : List Char) : Prop :=
  IsAddress cs ∨ ∃ address, IsAddress address ∧ cs = address ++ ['\n']

theorem isHexDigit_iff (c : Char) : isHexDigit c = true ↔ c ∈ hexDigits := by
  constructor
  · intro h
    have hranges : 48 ≤ c.toNat ∧ c.toNat ≤ 57 ∨ 97 ≤ c.toNat ∧ c.toNat ≤ 102 ∨
        65 ≤ c.toNat ∧ c.toNat ≤ 70 := by
      simp only [isHexDigit, Char.isDigit, Bool.or_eq_true, Bool.and_eq_true, decide_eq_true_eq,
        Char.le_def, UInt32.le_iff_toNat_le, ge_iff_le] at h
      rw [or_assoc] at h
      exact h
    have hc : c = Char.ofNat c.toNat := (Char.ofNat_toNat c).symm
    rw [hc]
    generalize c.toNat = n at hranges
    rcases hranges with ⟨hl, hu⟩ | ⟨hl, hu⟩ | ⟨hl, hu⟩
    · interval_cases n <;> decide
    · interval_cases n <;> decide
    · interval_cases n <;> decide
  · intro hc
    have hall : hexDigits.all isHexDigit = true := by decide
    exact List.all_eq_true.mp hall c hc

theorem isAddressChars_iff (cs : List Char) : isAddressChars cs = true ↔ IsAddressLine cs := by
  have hsplit : ∀ rest : List Char, isAddressChars ('0' :: 'x' :: rest) = true ↔ 40 ≤ rest.length ∧
      (∀ c ∈ rest.take 40, c ∈ hexDigits) ∧ (rest.drop 40 = [] ∨ rest.drop 40 = ['\n']) := by
    intro rest
    simp only [isAddressChars, Bool.and_eq_true, Bool.or_eq_true, decide_eq_true_eq,
      List.all_eq_true, isHexDigit_iff, and_assoc]
  constructor
  · intro h
    rw [isAddressChars.eq_def] at h
    split at h
    · next rest =>
      obtain ⟨hlen, hdigits, hrest⟩ := (hsplit rest).mp h
      have haddress : IsAddress ('0' :: 'x' :: rest.take 40) :=
        ⟨_, rfl, by simpa using hlen, hdigits⟩
      have hcs := List.take_append_drop 40 rest
      rcases hrest with hnil | hline
      · left
        rw [hnil, List.append_nil] at hcs
        rwa [hcs] at haddress
      · right
        rw [hline] at hcs
        exact ⟨_, haddress, by rw [List.cons_append, List.cons_append, hcs]⟩
    · cases h
  · rintro (⟨digits, rfl, hlen, hdigits⟩ | ⟨_, ⟨digits, rfl, hlen, hdigits⟩, rfl⟩)
    · refine (hsplit digits).mpr ⟨hlen.ge, ?_, Or.inl ?_⟩
      · rwa [List.take_of_length_le hlen.le]
      · exact List.drop_of_length_le hlen.le
    · refine (hsplit (digits ++ ['\n'])).mpr ⟨by simp [hlen], ?_, Or.inr ?_⟩
      · rwa [List.take_left' hlen]
      · exact List.drop_left' hlen

/-! ### Nodes -/

/-- The chain of a node is supported. -/
def HasChain (fields : Fields) : Prop :=
  ∃ n ∈ ([1, 137, 80002, 11155111] : List Int), valueAt fields "chain" = .int n

/-- The test of a node has a comparator and a value. -/
def HasTest (fields : Fields) : Prop :=
  ∃ test, valueAt fields "returnValueTest" = .obj test ∧
    (∃ comparator ∈ [">=", ">", "<=", "<", "==", "!="],
      valueAt test "comparator" = .str comparator) ∧
    valueAt test "value" ≠ .null

/-- **The documents that can be derived**, for a rule of how an address is written. -/
inductive Derivable (Address : List Char → Prop) : Json → Prop
  | time {fields : Fields}
    (tag : valueAt fields "conditionType" = .str "time")
    (chain : HasChain fields)
    (method : valueAt fields "method" = .str "blocktime")
    (test : HasTest fields) : Derivable Address (.obj fields)
  | balance {fields : Fields}
    (tag : valueAt fields "conditionType" = .str "rpc")
    (chain : HasChain fields)
    (method : valueAt fields "method" = .str "eth_getBalance")
    (parameters : valueAt fields "parameters" = .arr [.str ":userAddress", .str "latest"])
    (test : HasTest fields) : Derivable Address (.obj fields)
  | contract {fields : Fields}
    (tag : valueAt fields "conditionType" = .str "contract")
    (chain : HasChain fields)
    (address : ∃ s, valueAt fields "contractAddress" = .str s ∧ Address s.toList)
    (method : ∃ s, valueAt fields "method" = .str s ∧ ∃ c ∈ s.toList, Text.isBlank c = false)
    (parameters : ∃ items, valueAt fields "parameters" = .arr items)
    (standard : valueAt fields "standardContractType" = .null ∨
      ∃ s ∈ ["ERC20", "ERC721", "ERC1155"], valueAt fields "standardContractType" = .str s)
    (abi : valueAt fields "functionAbi" = .null ∨ ∃ abi, valueAt fields "functionAbi" = .obj abi)
    (test : HasTest fields) : Derivable Address (.obj fields)
  | junction {fields : Fields} {operands : List Json}
    (tag : valueAt fields "conditionType" = .str "compound")
    (operator : valueAt fields "operator" = .str "and" ∨ valueAt fields "operator" = .str "or")
    (operands_eq : valueAt fields "operands" = .arr operands) (nonempty : operands ≠ [])
    (each : ∀ v ∈ operands, Derivable Address v) : Derivable Address (.obj fields)
  | negation {fields : Fields} {operand : Json}
    (tag : valueAt fields "conditionType" = .str "compound")
    (operator : valueAt fields "operator" = .str "not")
    (operands_eq : valueAt fields "operands" = .arr [operand])
    (each : Derivable Address operand) : Derivable Address (.obj fields)

/-! ### Words -/

/-- Something holds of one of the names if it holds of the name of a member. -/
theorem exists_mem_names {α : Type} [Word α] [Word.Lawful α] {P : String → Prop} :
    (∃ s ∈ Word.names α, P s) ↔ ∃ a : α, P (Word.name a) := by
  constructor
  · rintro ⟨s, hs, h⟩
    obtain ⟨a, -, rfl⟩ := List.mem_map.mp hs
    exact ⟨a, h⟩
  · rintro ⟨a, h⟩
    exact ⟨_, List.mem_map_of_mem (Word.Lawful.mem_all a), h⟩

theorem hasChain_iff {fields : Fields} :
    HasChain fields ↔ ∃ c : ChainId, valueAt fields "chain" = c.toJson := by
  have hnumbers : ([1, 137, 80002, 11155111] : List Int) =
      ChainId.all.map fun c => (c.number : Int) := by decide
  rw [HasChain, hnumbers]
  constructor
  · rintro ⟨n, hn, h⟩
    obtain ⟨c, -, rfl⟩ := List.mem_map.mp hn
    exact ⟨c, h⟩
  · rintro ⟨c, h⟩
    have hc : c ∈ ChainId.all := by cases c <;> decide
    exact ⟨_, List.mem_map_of_mem hc, h⟩

theorem hasTest_iff {fields : Fields} :
    HasTest fields ↔ ValidTest (valueAt fields "returnValueTest") := by
  have hnames : [">=", ">", "<=", "<", "==", "!="] = Word.names Comparator := by decide
  rw [HasTest, hnames]
  simp only [exists_mem_names]
  constructor
  · rintro ⟨test, htest, ⟨comparator, hc⟩, hv⟩
    exact ⟨test, comparator, htest, hc, hv⟩
  · rintro ⟨test, comparator, htest, hc, hv⟩
    exact ⟨test, htest, ⟨comparator, hc⟩, hv⟩

theorem exists_standard_iff {v : Json} : (∃ s ∈ ["ERC20", "ERC721", "ERC1155"], v = .str s) ↔
    ∃ s : TokenStandard, v = .str s.name := by
  have hnames : ["ERC20", "ERC721", "ERC1155"] = Word.names TokenStandard := by decide
  rw [hnames, exists_mem_names]
  rfl

theorem allBlank_eq_false_iff {s : String} :
    Text.allBlank s = false ↔ ∃ c ∈ s.toList, Text.isBlank c = false := by
  rw [Text.allBlank, List.all_eq_false]
  simp only [Bool.not_eq_true]

/-! ### Documents -/

/-- The valid documents are those that can be derived if a line feed may end an address. -/
theorem valid_iff_derivable {d : Json} : Valid d ↔ Derivable IsAddressLine d := by
  constructor
  · intro h
    induction h with
    | time chain tag hc hm ht =>
      exact .time tag (hasChain_iff.mpr ⟨chain, hc⟩) hm (hasTest_iff.mpr ht)
    | balance chain tag hc hm hp ht =>
      exact .balance tag (hasChain_iff.mpr ⟨chain, hc⟩) hm hp (hasTest_iff.mpr ht)
    | contract chain address method parameters tag hc ha hchars hm hfilled hp hs habi ht =>
      exact .contract tag (hasChain_iff.mpr ⟨chain, hc⟩)
        ⟨address, ha, (isAddressChars_iff _).mp hchars⟩
        ⟨method, hm, allBlank_eq_false_iff.mp hfilled⟩ ⟨parameters, hp⟩
        (hs.imp_right exists_standard_iff.mpr) habi (hasTest_iff.mpr ht)
    | compound operator operands tag ho hops hne hone _ ih =>
      cases operator with
      | and => exact .junction tag (Or.inl ho) hops hne ih
      | or => exact .junction tag (Or.inr ho) hops hne ih
      | not =>
        obtain ⟨operand, rfl⟩ := List.length_eq_one_iff.mp (hone rfl)
        exact .negation tag ho hops (ih operand List.mem_cons_self)
  · intro h
    induction h with
    | time tag hc hm ht =>
      obtain ⟨chain, hc⟩ := hasChain_iff.mp hc
      exact .time chain tag hc hm (hasTest_iff.mp ht)
    | balance tag hc hm hp ht =>
      obtain ⟨chain, hc⟩ := hasChain_iff.mp hc
      exact .balance chain tag hc hm hp (hasTest_iff.mp ht)
    | contract tag hc ha hm hp hs habi ht =>
      obtain ⟨chain, hc⟩ := hasChain_iff.mp hc
      obtain ⟨address, ha, hchars⟩ := ha
      obtain ⟨method, hm, hfilled⟩ := hm
      obtain ⟨parameters, hp⟩ := hp
      exact .contract chain address method parameters tag hc ha
        ((isAddressChars_iff _).mpr hchars) hm (allBlank_eq_false_iff.mpr hfilled) hp
        (hs.imp_right exists_standard_iff.mp) habi (hasTest_iff.mp ht)
    | junction tag ho hops hne _ ih =>
      rcases ho with ho | ho
      · exact .compound .and _ tag ho hops hne (by rintro ⟨⟩) ih
      · exact .compound .or _ tag ho hops hne (by rintro ⟨⟩) ih
    | negation tag ho hops _ ih =>
      exact .compound .not _ tag ho hops (by simp) (by simp) (by simpa using ih)

/-- **Validation accepts exactly the documents that can be derived**, where a line feed may end an
address. -/
theorem validate_eq_ok_iff_derivable (d : Json) :
    validate d = .ok () ↔ Derivable IsAddressLine d := by
  rw [validate_eq_ok_iff, valid_iff_derivable]

/-- A contract node whose address ends in a line feed. -/
def lineFeedCall : Json :=
  .obj [("conditionType", .str "contract"), ("chain", .int 1),
    ("contractAddress", .str "0x1c7d4b196cb0c7b01d743fbc6116a902379c7238\n"),
    ("method", .str "balanceOf"), ("parameters", .arr []),
    ("returnValueTest", .obj [("comparator", .str ">"), ("value", .int 0)])]

/-- By the rule that is given for addresses it cannot be derived, and yet it is accepted. -/
theorem validate_accepts_address_with_line_feed :
    validate lineFeedCall = .ok () ∧ ¬ Derivable IsAddress lineFeedCall := by
  refine ⟨by decide, fun h => ?_⟩
  cases h with
  | contract _ _ haddress =>
    obtain ⟨s, hs, digits, hdigits, hlen, -⟩ := haddress
    cases hs
    have hcount := congrArg List.length hdigits
    rw [List.length_cons, List.length_cons, hlen] at hcount
    exact absurd hcount (by decide)
  | time tag | balance tag | junction tag | negation tag => exact absurd tag (by decide)

end AccessTree.Document
