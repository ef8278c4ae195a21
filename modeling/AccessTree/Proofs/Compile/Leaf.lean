import AccessTree.Proofs.Compile.Outcome

/-! # Conditions of condition blocks

What builds the condition of a condition block never warns that a block was dropped
(`undropped_leaf`). It knows nothing of strictness, only which chain to fall back on (`leaf_congr`).
The condition is not compound, and is checked on the chain that the block stands for
(`exists_chain_of_leaf`). -/

namespace AccessTree

/-- The chain that a condition is checked on, if it is not compound. -/
def Condition.chain? : Condition → Option ChainId
  | .time chain _ | .balance chain _ => some chain
  | .contract call => some call.chain
  | .compound .. => none

theorem Condition.leaves_of_chain? {c : Condition} {chain : ChainId} (h : c.chain? = some chain) :
    c.leaves = [c] := by
  cases c with
  | compound => cases h
  | time | balance | contract => rw [leaves]

namespace Compile

open Outcome

/-! ### Warnings -/

theorem undropped_slotInt (b : Block) (slot : String) (entered : Literal) :
    (slotInt b slot entered).Undropped := by
  rw [slotInt]
  split
  · exact undropped_fail _
  · exact undropped_done _
  · exact undropped_fail _

theorem undropped_numericTest (b : Block) (slot : String) : (numericTest b slot).Undropped := by
  rw [numericTest]
  split
  · exact undropped_done _
  · exact (undropped_slotInt b slot _).bind fun _ => undropped_done _

theorem undropped_chainOf (mode : CompileMode) (b : Block) : (chainOf mode b).Undropped :=
  undropped_ofExcept _ _

theorem undropped_slotJson (b : Block) (slot : String) (entered : Literal) :
    (slotJson b slot entered).Undropped := by
  rw [slotJson.eq_def]
  split
  · split
    · exact undropped_done _
    · exact (undropped_warn rfl).bind fun _ => undropped_done _
    · exact undropped_fail _
  · exact undropped_done _

theorem undropped_methodOf (b : Block) : (methodOf b).Undropped := by
  rw [methodOf.eq_def]
  simp only
  split
  · split
    · exact undropped_fail _
    · exact undropped_done _
  · exact undropped_fail _

theorem undropped_addressOf (b : Block) : (addressOf b).Undropped := by
  rw [addressOf]
  split
  · exact (undropped_ofExcept _ _).map _
  · exact undropped_done _

theorem undropped_listedParameters (b : Block) : (listedParameters b).Undropped := by
  rw [listedParameters]
  split
  · exact undropped_done _
  · refine (undropped_slotJson b "parameters" _).bind fun v => ?_
    split
    · exact undropped_done _
    · exact undropped_done _
    · exact undropped_done _
    · exact (undropped_warn rfl).bind fun _ => undropped_done _

theorem undropped_numberedParameters (b : Block) : (numberedParameters b).Undropped := by
  refine (undropped_ofExcept _ _).bind fun filled => ?_
  split
  · exact undropped_done _
  · exact undropped_done _

theorem undropped_parametersOf (b : Block) : (parametersOf b).Undropped := by
  refine (undropped_listedParameters b).bind fun listed => ?_
  cases listed with
  | some items =>
    refine (undropped_done (some items)).bind fun entered => ?_
    split
    · exact undropped_done _
    · exact (undropped_slotInt b "tokenId" _).bind fun _ => undropped_done _
  | none =>
    refine (undropped_numberedParameters b).bind fun entered => ?_
    split
    · exact undropped_done _
    · exact (undropped_slotInt b "tokenId" _).bind fun _ => undropped_done _

theorem undropped_contractTest (b : Block) : (contractTest b).Undropped := by
  refine (undropped_numericTest b "tokenAmount").bind fun test => ?_
  split
  · exact undropped_done _
  · split
    · exact (undropped_ofExcept _ _).bind fun _ => undropped_done _
    · split
      · exact undropped_ofChecked _ _
      · exact undropped_done _

theorem undropped_abiOf (b : Block) : (abiOf b).Undropped := by
  rw [abiOf]
  split
  · split
    · exact undropped_done _
    · exact undropped_done _
  · refine (undropped_slotJson b "functionAbi" _).bind fun v => ?_
    split
    · exact undropped_done _
    · exact undropped_done _
    · exact undropped_done _
    · exact (undropped_warn rfl).bind fun _ => undropped_done _

/-- **No block is dropped while the condition of one is built.** -/
theorem undropped_leaf (mode : CompileMode) (b : Block) : (leaf mode b).Undropped := by
  rw [leaf]
  split
  · exact (undropped_chainOf mode b).bind fun _ =>
      (undropped_numericTest b _).bind fun _ => undropped_done _
  · rw [balanceLeaf]
    have supported : (do
        let chain ← chainOf mode b
        let test ← numericTest b "minBalance"
        return .balance chain (test.getD atLeastZero) : Outcome Condition).Undropped :=
      (undropped_chainOf mode b).bind fun _ =>
        (undropped_numericTest b _).bind fun _ => undropped_done _
    simp only
    split
    · exact (undropped_fail _).bind fun _ => supported
    · exact supported
  · exact (undropped_chainOf mode b).bind fun _ => (undropped_methodOf b).bind fun _ =>
      (undropped_addressOf b).bind fun _ => (undropped_parametersOf b).bind fun _ =>
      (undropped_contractTest b).bind fun _ => (undropped_abiOf b).bind fun _ =>
      (undropped_ofChecked _ _).bind fun _ => undropped_done _
  · exact undropped_fail _

/-! ### Results -/

/-- Only the chain to fall back on matters. -/
theorem leaf_congr {mode mode' : CompileMode} (h : mode.fallback = mode'.fallback) (b : Block) :
    leaf mode b = leaf mode' b := by
  simp only [leaf, timeLeaf, balanceLeaf, contractLeaf, chainOf, h]

theorem exists_chain_of_timeLeaf {mode : CompileMode} {b : Block} {c : Condition}
    (h : (timeLeaf mode b).result = .ok c) :
    ∃ chain, (chainOf mode b).result = .ok chain ∧ c.chain? = some chain := by
  obtain ⟨chain, hchain, h⟩ := result_bind_eq_ok.mp h
  obtain ⟨_, -, h⟩ := result_bind_eq_ok.mp h
  cases h
  exact ⟨chain, hchain, rfl⟩

theorem exists_chain_of_balanceLeaf {mode : CompileMode} {b : Block} {c : Condition}
    (h : (balanceLeaf mode b).result = .ok c) :
    ∃ chain, (chainOf mode b).result = .ok chain ∧ c.chain? = some chain := by
  rw [balanceLeaf] at h
  simp only at h
  split at h
  · obtain ⟨_, hfail, -⟩ := result_bind_eq_ok.mp h
    cases hfail
  · obtain ⟨chain, hchain, h⟩ := result_bind_eq_ok.mp h
    obtain ⟨_, -, h⟩ := result_bind_eq_ok.mp h
    cases h
    exact ⟨chain, hchain, rfl⟩

theorem exists_chain_of_contractLeaf {mode : CompileMode} {b : Block} {c : Condition}
    (h : (contractLeaf mode b).result = .ok c) :
    ∃ chain, (chainOf mode b).result = .ok chain ∧ c.chain? = some chain := by
  obtain ⟨chain, hchain, h⟩ := result_bind_eq_ok.mp h
  obtain ⟨_, -, h⟩ := result_bind_eq_ok.mp h
  obtain ⟨_, -, h⟩ := result_bind_eq_ok.mp h
  obtain ⟨_, -, h⟩ := result_bind_eq_ok.mp h
  obtain ⟨_, -, h⟩ := result_bind_eq_ok.mp h
  obtain ⟨_, -, h⟩ := result_bind_eq_ok.mp h
  obtain ⟨_, -, h⟩ := result_bind_eq_ok.mp h
  cases h
  exact ⟨chain, hchain, rfl⟩

/-- **A condition is checked on the chain of its block.** -/
theorem exists_chain_of_leaf {mode : CompileMode} {b : Block} {c : Condition}
    (h : (leaf mode b).result = .ok c) :
    ∃ chain, (chainOf mode b).result = .ok chain ∧ c.chain? = some chain := by
  rw [leaf] at h
  split at h
  · exact exists_chain_of_timeLeaf h
  · exact exists_chain_of_balanceLeaf h
  · exact exists_chain_of_contractLeaf h
  · cases h

theorem leaves_leaf {mode : CompileMode} {b : Block} {c : Condition}
    (h : (leaf mode b).result = .ok c) : c.leaves = [c] := by
  obtain ⟨_, -, hc⟩ := exists_chain_of_leaf h
  exact Condition.leaves_of_chain? hc

end Compile

end AccessTree
