import AccessTree.Proofs.Compile.Chain

/-! # What strict compilation keeps

Strict compilation that returns has compiled every reached block from which a condition block is
reached, the block itself included (`Visit.isSolid`). The conditions of these blocks stand in the
result, each in a place of its own and in the order of the visits: they are the nodes of what the
top-level blocks come to, listed depth first (`solidNodes_each`). Nothing else has a condition
(`solidNodes_block`): an operator below which no condition block is reached is absent in strict
mode as well, although that is a gap like any other. -/

namespace AccessTree

mutual
/-- The conditions that a condition consists of, each before its operands. -/
def Condition.nodes : Condition → List Condition
  | .time chain test => [.time chain test]
  | .balance chain test => [.balance chain test]
  | .contract call => [.contract call]
  | .compound operator operands => .compound operator operands :: Condition.nodesOf operands

/-- The conditions that operands consist of. -/
def Condition.nodesOf : List Condition → List Condition
  | [] => []
  | c :: cs => c.nodes ++ Condition.nodesOf cs
end

theorem Condition.nodesOf_eq_flatMap (cs : List Condition) :
    Condition.nodesOf cs = cs.flatMap Condition.nodes := by
  induction cs with
  | nil => rw [nodesOf, List.flatMap_nil]
  | cons c cs ih => rw [nodesOf, List.flatMap_cons, ih]

theorem Condition.nodes_of_chain? {c : Condition} {chain : ChainId} (h : c.chain? = some chain) :
    c.nodes = [c] := by
  cases c with
  | compound => cases h
  | time | balance | contract => rw [nodes]

namespace Compile

open Outcome

/-- Whether a condition block is reached from a visited block. -/
def Visit.isSolid (v : Visit) : Bool :=
  (visits v.above v.block).any fun w => w.block.kind == .condition

theorem isSolid_value (above : List Block) {b : Block} (h : b.kind = .value) :
    Visit.isSolid ⟨above, b⟩ = false := by
  simp [Visit.isSolid, visits_of_ne_operator above (b := b) (by simp [h]), h]

theorem isSolid_condition (above : List Block) {b : Block} (h : b.kind = .condition) :
    Visit.isSolid ⟨above, b⟩ = true := by
  simp [Visit.isSolid, visits_of_ne_operator above (b := b) (by simp [h]), h]

theorem isSolid_operator (above : List Block) {b : Block} (h : b.kind = .operator) :
    Visit.isSolid ⟨above, b⟩ = b.children.any fun c => Visit.isSolid ⟨b :: above, c⟩ := by
  simp [Visit.isSolid, visits_operator above h, h, List.any_flatMap]

variable (fallback : Except ChainFault ChainId)

/-- A visited block and its condition in strict mode. -/
def StrictlyCompiles (v : Visit) (c : Condition) : Prop :=
  (block ⟨true, fallback⟩ v.block).result = .ok (some c)

/-! ### Steps -/

/-- Strictly, operands that there are have been combined. -/
theorem combine_strict {id : String} {properties : Fields} {cs : List Condition}
    {r : Option Condition} (h : (combine ⟨true, fallback⟩ id properties cs).result = .ok r) :
    cs = [] ∧ r = none ∨ cs ≠ [] ∧ ∃ o, r = some (.compound o cs) := by
  obtain ⟨hl, hu⟩ := (agrees_combine fallback id properties cs r).mp h
  obtain ⟨hr, hd⟩ := combine_lenient fallback hl
  rw [hu.dropped_eq_nil] at hd
  by_cases hcs : cs = []
  · subst hcs
    refine Or.inl ⟨rfl, ?_⟩
    rw [combine] at h
    exact (Except.ok.inj h).symm
  · cases hr' : r with
    | none =>
      -- operands without a condition over them would have been warned about
      rw [hr'] at hd
      simp [hcs] at hd
    | some c =>
      rw [hr'] at hr
      obtain ⟨o, -, rfl⟩ := applied_eq_some hr.symm
      exact Or.inr ⟨hcs, o, rfl⟩

theorem result_block_condition_strict {b : Block} (hk : b.kind = .condition)
    {r : Option Condition} (h : (block ⟨true, fallback⟩ b).result = .ok r) :
    ∃ c, r = some c ∧ c.nodes = [c] := by
  have hb : block ⟨true, fallback⟩ b = some <$> leaf ⟨true, fallback⟩ b := by
    rw [block_condition _ hk, orDrop_strict]
  rw [hb, result_map] at h
  cases hl : (leaf ⟨true, fallback⟩ b).result with
  | error f =>
    rw [hl] at h
    cases h
  | ok c =>
    rw [hl] at h
    cases h
    obtain ⟨chain, -, hc⟩ := exists_chain_of_leaf hl
    exact ⟨c, rfl, Condition.nodes_of_chain? hc⟩

/-! ### Blocks -/

/-- **The solid visits of several blocks** have the nodes of what the blocks come to. -/
theorem solidNodes_each {blocks above : List Block}
    (h : ∀ b ∈ blocks, ∀ r, (block ⟨true, fallback⟩ b).result = .ok r →
      r.isSome = Visit.isSolid ⟨above, b⟩ ∧
        List.Forall₂ (StrictlyCompiles fallback) ((visits above b).filter Visit.isSolid)
          (r.toList.flatMap Condition.nodes))
    {cs : List Condition} (hcs : (each ⟨true, fallback⟩ blocks).result = .ok cs) :
    (cs ≠ [] ↔ blocks.any fun b => Visit.isSolid ⟨above, b⟩) ∧
      List.Forall₂ (StrictlyCompiles fallback)
        ((blocks.flatMap (visits above)).filter Visit.isSolid) (cs.flatMap Condition.nodes) := by
  induction blocks generalizing cs with
  | nil =>
    rw [each] at hcs
    cases hcs
    exact ⟨by simp, List.Forall₂.nil⟩
  | cons b rest ih =>
    rw [each] at hcs
    obtain ⟨r, hr, hrest⟩ := result_andThen_eq_ok.mp hcs
    obtain ⟨ds, hds, hdone⟩ := result_andThen_eq_ok.mp hrest
    obtain ⟨hsome, hnodes⟩ := h b List.mem_cons_self r hr
    obtain ⟨hany, hmore⟩ := ih (fun d hd => h d (List.mem_cons_of_mem b hd)) hds
    cases hdone
    constructor
    · rw [List.any_cons, Bool.or_eq_true, ← hany, ← hsome]
      cases r <;> simp
    · rw [List.flatMap_cons, List.filter_append, List.flatMap_append]
      exact List.rel_append hnodes hmore

/-- **A block has a condition in strict mode** exactly if a condition block is reached from it, and
then the solid visits from it have the nodes of this condition. -/
theorem solidNodes_block (b : Block) : ∀ (above : List Block) (r : Option Condition),
    (block ⟨true, fallback⟩ b).result = .ok r →
    r.isSome = Visit.isSolid ⟨above, b⟩ ∧
      List.Forall₂ (StrictlyCompiles fallback) ((visits above b).filter Visit.isSolid)
        (r.toList.flatMap Condition.nodes) := by
  induction b using Block.childInduction with
  | step b ih =>
    intro above r hr
    cases hk : b.kind with
    | value =>
      have hv := visits_of_ne_operator above (b := b) (by simp [hk])
      have hs := isSolid_value above hk
      rw [block_value _ hk] at hr
      cases hr
      rw [hv, hs, List.filter_cons_of_neg (by simp [hs])]
      exact ⟨rfl, List.Forall₂.nil⟩
    | condition =>
      have hv := visits_of_ne_operator above (b := b) (by simp [hk])
      have hs := isSolid_condition above hk
      obtain ⟨c, rfl, hc⟩ := result_block_condition_strict fallback hk hr
      rw [hv, hs, List.filter_cons_of_pos hs, Option.toList_some, List.flatMap_singleton, hc]
      exact ⟨rfl, List.Forall₂.cons hr List.Forall₂.nil⟩
    | operator =>
      have hb := hr
      rw [block_operator _ hk] at hr
      obtain ⟨cs, hcs, hcomb⟩ := result_andThen_eq_ok.mp hr
      obtain ⟨hany, hnodes⟩ :=
        solidNodes_each fallback (fun c hc => ih c hc (b :: above)) hcs
      rw [← isSolid_operator above hk] at hany
      rw [visits_operator above hk]
      rcases combine_strict fallback hcomb with ⟨rfl, rfl⟩ | ⟨hne, o, rfl⟩
      · have hs : Visit.isSolid ⟨above, b⟩ = false := by simpa using hany
        rw [hs, List.filter_cons_of_neg (by simp [hs])]
        exact ⟨rfl, hnodes⟩
      · -- the operator itself is the first visit, and its condition the first node
        have hs : Visit.isSolid ⟨above, b⟩ = true := hany.mp hne
        rw [hs, List.filter_cons_of_pos hs, Option.toList_some, List.flatMap_singleton,
          Condition.nodes, Condition.nodesOf_eq_flatMap]
        exact ⟨rfl, List.Forall₂.cons hb hnodes⟩

/-- What is reached from a block that compiles compiles as well. -/
theorem result_of_mem_visits {mode : CompileMode} {b : Block} :
    ∀ {above : List Block} {r : Option Condition}, (block mode b).result = .ok r →
    ∀ v ∈ visits above b, ∃ s, (block mode v.block).result = .ok s := by
  induction b using Block.childInduction with
  | step b ih =>
    intro above r hr v hv
    by_cases hk : b.kind = .operator
    · rw [visits_operator above hk, List.mem_cons, List.mem_flatMap] at hv
      rcases hv with rfl | ⟨c, hc, hv⟩
      · exact ⟨r, hr⟩
      · rw [block_operator _ hk] at hr
        obtain ⟨cs, hcs, -⟩ := result_andThen_eq_ok.mp hr
        obtain ⟨s, hs⟩ := result_each_eq_ok hcs c hc
        exact ih c hc hs v hv
    · rw [visits_of_ne_operator above hk, List.mem_singleton] at hv
      subst hv
      exact ⟨r, hr⟩

/-! ### Compositions -/

theorem nodes_sublist_joined (cs : List Condition) :
    (cs.flatMap Condition.nodes).Sublist ((joined cs).toList.flatMap Condition.nodes) := by
  match cs with
  | [] => exact List.Sublist.refl _
  | [c] => exact List.Sublist.refl _
  | c :: d :: cs =>
    rw [joined, Option.toList_some, List.flatMap_singleton, Condition.nodes,
      Condition.nodesOf_eq_flatMap]
    · exact List.sublist_cons_self _ _
    · simp
    · simp

theorem result_each_strict {blocks : List Block} {r : Option Condition}
    (h : (workspace ⟨true, fallback⟩ blocks).result = .ok r) :
    ∃ cs, (each ⟨true, fallback⟩ (tops blocks)).result = .ok cs ∧ r = joined cs := by
  obtain ⟨c, hc, hv⟩ := result_andThen_eq_ok.mp h
  obtain ⟨rfl, -⟩ := (validated_strict fallback).mp hv
  rw [unvalidated, roots_eq_tops] at hc
  obtain ⟨cs, hcs, hj⟩ := result_andThen_eq_ok.mp hc
  exact ⟨cs, hcs, (Except.ok.inj hj).symm⟩

/-- **What strict compilation keeps.** If a composition compiles strictly, every reached block from
which a condition block is reached has compiled to a condition, and these conditions stand in the
result in the order of the blocks, each in a place of its own. A reached block is absent exactly if
only operators and values are reached from it. -/
theorem workspace_strict_keeps {blocks : List Block} {r : Option Condition}
    (h : (workspace ⟨true, fallback⟩ blocks).result = .ok r) :
    (∃ cs, List.Forall₂ (StrictlyCompiles fallback) ((reached blocks).filter Visit.isSolid) cs ∧
      cs.Sublist (r.toList.flatMap Condition.nodes)) ∧
    ∀ v ∈ reached blocks, (block ⟨true, fallback⟩ v.block).result = .ok none ↔
      ∀ w ∈ visits v.above v.block, w.block.kind = .operator ∨ w.block.kind = .value := by
  obtain ⟨cs, hcs, rfl⟩ := result_each_strict fallback h
  constructor
  · have hnodes := (solidNodes_each fallback (fun b _ => solidNodes_block fallback b []) hcs).2
    exact ⟨_, hnodes, nodes_sublist_joined cs⟩
  · intro v hv
    obtain ⟨b, hb, hvb⟩ := List.mem_flatMap.mp hv
    obtain ⟨s, hs⟩ := result_each_eq_ok hcs b hb
    obtain ⟨r, hr⟩ := result_of_mem_visits hs v hvb
    have hsome := (solidNodes_block fallback v.block v.above r hr).1
    have hkinds : Visit.isSolid v = false ↔
        ∀ w ∈ visits v.above v.block, w.block.kind = .operator ∨ w.block.kind = .value := by
      rw [Visit.isSolid, List.any_eq_false]
      refine forall₂_congr fun w _ => ?_
      cases w.block.kind <;> decide
    rw [← hkinds, ← hsome, hr]
    cases r <;> simp

/-- A negation of a time block and of an empty negation, which strictly compiles as the negation of
the time block alone. -/
theorem strict_passes_over_empty_operator :
    (workspace ⟨true, .ok .sepolia⟩
        [negation "outer" [timeBlock "1" none, negation "inner" []]]).result =
      .ok (some (.compound .not [.time .sepolia atLeastZero])) ∧
    ∃ v ∈ reached [negation "outer" [timeBlock "1" none, negation "inner" []]],
      v.block.kind = .operator ∧ (block ⟨true, .ok .sepolia⟩ v.block).result = .ok none := by
  refine ⟨by rfl, ⟨[negation "outer" [timeBlock "1" none, negation "inner" []]],
    negation "inner" []⟩, ?_, by rfl, by rfl⟩
  have hr : reached [negation "outer" [timeBlock "1" none, negation "inner" []]] =
      [⟨[], negation "outer" [timeBlock "1" none, negation "inner" []]⟩,
        ⟨[negation "outer" [timeBlock "1" none, negation "inner" []]], timeBlock "1" none⟩,
        ⟨[negation "outer" [timeBlock "1" none, negation "inner" []]], negation "inner" []⟩] := by
    rfl
  rw [hr]
  exact List.mem_cons_of_mem _ (List.mem_cons_of_mem _ List.mem_cons_self)

/-- There the outer negation and the time block have kept their conditions. -/
theorem workspace_strict_keeps_negation :
    (workspace ⟨true, .ok .sepolia⟩
        [negation "outer" [timeBlock "1" none, negation "inner" []]]).result =
      .ok (some (.compound .not [.time .sepolia atLeastZero])) ∧
    ∃ cs, List.Forall₂ (StrictlyCompiles (.ok .sepolia))
        ((reached [negation "outer" [timeBlock "1" none, negation "inner" []]]).filter
          Visit.isSolid) cs ∧
      cs.Sublist [.compound .not [.time .sepolia atLeastZero], .time .sepolia atLeastZero] := by
  have h : (workspace ⟨true, .ok .sepolia⟩
      [negation "outer" [timeBlock "1" none, negation "inner" []]]).result =
        .ok (some (.compound .not [.time .sepolia atLeastZero])) := by rfl
  exact ⟨h, (workspace_strict_keeps _ h).1⟩

end Compile

end AccessTree
