import AccessTree.Proofs.Compile.Formed
import AccessTree.Proofs.Compile.Kept
import AccessTree.Proofs.Edit.Assembled
import AccessTree.Proofs.Schema.Checked

/-! # Operators that are never dropped

An operator of an assembled composition can be applied to whatever its operands come to: it names an
operator, and a negation has one operand at most (`combine_eq_done`). So no warning tells of an
operator that was dropped, also if the compilation ends with a fault (`keepsOperators_block`). If it
returns, the compound conditions of the result are those of the operators that have an operand with
a condition, one for each and in the order of the blocks (`compounds_block`). -/

namespace AccessTree

/-- Whether a condition is a compound one. -/
def Condition.isCompound : Condition → Bool
  | .compound _ _ => true
  | .time _ _ | .balance _ _ | .contract _ => false

theorem Condition.isCompound_of_chain? {c : Condition} {chain : ChainId}
    (h : c.chain? = some chain) : c.isCompound = false := by
  cases c with
  | compound => cases h
  | time | balance | contract => rfl

/-- The text of a warning shows whether an operator was dropped. -/
theorem Warning.message_operator_iff (w : Warning) :
    (∃ rest, w.message = "Dropping operator block " ++ rest) ↔
      ∃ block gap, w = .droppedOperator block gap := by
  constructor
  · rintro ⟨rest, h⟩
    have hdrop : w.isDrop = true := w.isDrop_iff.mpr ⟨rest, Or.inr h⟩
    cases w with
    | droppedOperator block gap => exact ⟨block, gap, rfl⟩
    | unreadableJson | parametersNotList | abiNotObject => cases hdrop
    | droppedCondition block gap =>
      -- the texts differ after their common front
      have hcommon : "Dropping " ++ ("condition block " ++ (block ++ (": " ++ gap.message))) =
          "Dropping " ++ ("operator block " ++ rest) := by
        rw [← String.append_assoc, ← String.append_assoc, ← String.append_assoc,
          ← String.append_assoc]
        exact h
      exact absurd (String.append_right_inj _ |>.mp hcommon)
        (append_ne_append (by rfl) (by rfl) (by decide))
  · rintro ⟨block, gap, rfl⟩
    refine ⟨block ++ (": " ++ gap.message), ?_⟩
    rw [← String.append_assoc, ← String.append_assoc]
    rfl

namespace Outcome

variable {α β : Type}

/-- No warning tells of an operator that was dropped. -/
def KeepsOperators (x : Outcome α) : Prop :=
  ∀ w ∈ x.warnings, ∀ block gap, w ≠ .droppedOperator block gap

theorem Undropped.keepsOperators {x : Outcome α} (h : x.Undropped) : x.KeepsOperators := by
  rintro w hw block gap rfl
  cases h _ hw

theorem keepsOperators_done (a : α) : (done a).KeepsOperators :=
  (undropped_done a).keepsOperators

theorem KeepsOperators.andThen {x : Outcome α} {f : α → Outcome β} (hx : x.KeepsOperators)
    (hf : ∀ a, x.result = .ok a → (f a).KeepsOperators) : (x.andThen f).KeepsOperators := by
  intro w hw
  rw [Outcome.andThen] at hw
  split at hw
  · next a ha =>
    rcases List.mem_append.mp hw with hw | hw
    · exact hx w hw
    · exact hf a ha w hw
  · exact hx w hw

/-- A condition block may be dropped. -/
theorem KeepsOperators.orDrop {x : Outcome (Option α)} (hx : x.KeepsOperators) (strict : Bool)
    (id : String) : (Outcome.orDrop strict (.droppedCondition id) x).KeepsOperators := by
  intro w hw
  rw [Outcome.orDrop.eq_def] at hw
  split at hw
  · rcases List.mem_append.mp hw with hw | hw
    · exact hx w hw
    · rw [List.mem_singleton.mp hw]
      intro block gap h
      cases h
  · exact hx w hw

end Outcome

namespace Compile

open Outcome

variable {mode : CompileMode}

/-! ### One operator -/

theorem length_each_le {blocks : List Block} : ∀ {cs : List Condition},
    (each mode blocks).result = .ok cs → cs.length ≤ blocks.length := by
  induction blocks with
  | nil =>
    intro cs h
    cases h
    exact Nat.le_refl 0
  | cons b rest ih =>
    intro cs h
    obtain ⟨c, -, h⟩ := result_andThen_eq_ok.mp h
    obtain ⟨ds, hds, h⟩ := result_andThen_eq_ok.mp h
    have hlength := ih hds
    have hone : c.toList.length ≤ 1 := by cases c <;> simp
    cases h
    rw [List.length_append, List.length_cons]
    omega

/-- **Operands that fit** are combined without a warning. -/
theorem combine_eq_done {id : String} {properties : Fields} {o : Operator} {cs : List Condition}
    (hnamed : Json.valueAt properties "operator" = .str o.name)
    (hfit : o = .not → cs.length ≤ 1) :
    combine mode id properties cs = .done (if cs = [] then none else some (.compound o cs)) := by
  have hproperty : operatorProperty properties = .str o.name := by
    rw [operatorProperty, hnamed]
    cases o <;> rfl
  have hword : Schema.word Operator (.str o.name) = .ok o := Schema.word_eq_ok.mpr rfl
  rw [combine]
  by_cases hcs : cs = []
  · subst hcs
    rfl
  · have hone : ¬ (o = .not ∧ cs.length ≠ 1) := by
      rintro ⟨ho, hne⟩
      have hpos := List.length_pos_iff.mpr hcs
      have hle := hfit ho
      omega
    rw [if_neg (by simpa using hcs), if_neg hcs, hproperty]
    simp only [compound, hword, Checked.under, Checked.andThen, compoundOf, if_neg hone]
    cases mode.strict <;> rfl

/-- **An assembled operator** fits whatever its operands come to. -/
theorem combine_of_assembled {b : Block} (hb : b.Assembled) (hk : b.kind = .operator)
    {cs : List Condition} (hcs : (each mode b.children).result = .ok cs) :
    ∃ o : Operator, b.property "operator" = .str o.name ∧
      combine mode b.id b.properties cs =
        .done (if cs = [] then none else some (.compound o cs)) := by
  have hlength := length_each_le hcs
  rcases hb with ⟨-, o, hnamed, hbound, hbounded, -⟩ | ⟨hne, -, -⟩
  · refine ⟨o, hnamed, combine_eq_done hnamed fun ho => ?_⟩
    exact hlength.trans (hbounded 1 (hbound ho))
  · exact absurd hk hne

/-! ### Warnings -/

theorem keepsOperators_each {blocks : List Block}
    (h : ∀ b ∈ blocks, (block mode b).KeepsOperators) : (each mode blocks).KeepsOperators := by
  induction blocks with
  | nil => exact keepsOperators_done []
  | cons b rest ih =>
    have hrest := ih fun c hc => h c (List.mem_cons_of_mem b hc)
    exact (h b List.mem_cons_self).andThen fun c _ =>
      hrest.andThen fun cs _ => keepsOperators_done _

/-- **No operator of an assembled tree is dropped**, whether or not the compilation returns. -/
theorem keepsOperators_block {b : Block} :
    (∀ c ∈ b.nested, c.Assembled) → (block mode b).KeepsOperators := by
  induction b using Block.childInduction with
  | step b ih =>
    intro hb
    cases hk : b.kind with
    | value =>
      rw [block_value _ hk]
      exact keepsOperators_done none
    | condition =>
      rw [block_condition _ hk]
      exact ((undropped_leaf _ b).bind fun _ => undropped_done _).keepsOperators.orDrop _ _
    | operator =>
      have hself := hb b b.self_mem_nested
      rw [block_operator _ hk]
      refine (keepsOperators_each fun c hc => ih c hc fun d hd => ?_).andThen fun cs hcs => ?_
      · exact hb d (Block.mem_nested_of_mem_children hc hd)
      · obtain ⟨o, -, hcombine⟩ := combine_of_assembled hself hk hcs
        rw [hcombine]
        exact keepsOperators_done _

/-! ### Compound conditions -/

variable (mode)

/-- Whether a block compiles to a condition. -/
def hasCondition (b : Block) : Bool :=
  match (block mode b).result with
  | .ok (some _) => true
  | _ => false

/-- Whether a block is an operator with an operand that compiles to a condition. -/
def hasOperand (b : Block) : Bool := b.kind == .operator && b.children.any (hasCondition mode)

/-- **The condition of an operator**: the operator that it names over the conditions of its
operands. -/
def Applies (b : Block) (c : Condition) : Prop :=
  ∃ (o : Operator) (operands : List Condition), b.property "operator" = .str o.name ∧
    (each mode b.children).result = .ok operands ∧ c = .compound o operands

variable {mode}

theorem hasOperand_of_ne_operator {b : Block} (h : b.kind ≠ .operator) :
    hasOperand mode b = false := by
  rw [hasOperand, beq_eq_false_iff_ne.mpr h, Bool.false_and]

/-- The compound conditions of a condition, each before those of its operands. -/
abbrev compounds (cs : List Condition) : List Condition :=
  (cs.flatMap Condition.nodes).filter Condition.isCompound

/-- **Several blocks** come to the compound conditions of their operators. -/
theorem compounds_each {blocks : List Block}
    (h : ∀ b ∈ blocks, ∀ r, (block mode b).result = .ok r →
      List.Forall₂ (Applies mode) (b.nested.filter (hasOperand mode)) (compounds r.toList))
    {cs : List Condition} (hcs : (each mode blocks).result = .ok cs) :
    blocks.any (hasCondition mode) = !cs.isEmpty ∧
      List.Forall₂ (Applies mode) ((blocks.flatMap Block.nested).filter (hasOperand mode))
        (compounds cs) := by
  induction blocks generalizing cs with
  | nil =>
    cases hcs
    exact ⟨rfl, List.Forall₂.nil⟩
  | cons b rest ih =>
    obtain ⟨r, hr, hrest⟩ := result_andThen_eq_ok.mp hcs
    obtain ⟨ds, hds, hdone⟩ := result_andThen_eq_ok.mp hrest
    obtain ⟨hany, hmore⟩ := ih (fun d hd => h d (List.mem_cons_of_mem b hd)) hds
    have hnodes := h b List.mem_cons_self r hr
    have hself : hasCondition mode b = r.isSome := by
      rw [hasCondition, hr]
      cases r <;> rfl
    cases hdone
    constructor
    · rw [List.any_cons, hany, hself]
      cases r <;> simp
    · rw [List.flatMap_cons, List.filter_append, compounds, List.flatMap_append, List.filter_append]
      exact List.rel_append hnodes hmore

theorem compounds_condition {b : Block} (hk : b.kind = .condition) {r : Option Condition}
    (h : (block mode b).result = .ok r) : compounds r.toList = [] := by
  cases r with
  | none => rfl
  | some c =>
    rw [block_condition _ hk] at h
    obtain ⟨d, hd, hc⟩ := result_map_eq_ok.mp (result_of_orDrop h)
    obtain ⟨chain, -, hchain⟩ := exists_chain_of_leaf hd
    cases hc
    rw [compounds, Option.toList_some, List.flatMap_singleton, Condition.nodes_of_chain? hchain,
      List.filter_cons_of_neg (by simp [Condition.isCompound_of_chain? hchain]), List.filter_nil]

/-- **An assembled tree comes to one compound condition for each operator that has an operand**, in
the order of the blocks. -/
theorem compounds_block {b : Block} : (∀ c ∈ b.nested, c.Assembled) → ∀ r : Option Condition,
    (block mode b).result = .ok r →
    List.Forall₂ (Applies mode) (b.nested.filter (hasOperand mode)) (compounds r.toList) := by
  induction b using Block.childInduction with
  | step b ih =>
    intro hb r hr
    have hself := hb b b.self_mem_nested
    by_cases hk : b.kind = .operator
    · rw [block_operator _ hk] at hr
      obtain ⟨cs, hcs, hcombine⟩ := result_andThen_eq_ok.mp hr
      obtain ⟨hany, hnodes⟩ := compounds_each
        (fun c hc => ih c hc fun d hd => hb d (Block.mem_nested_of_mem_children hc hd)) hcs
      obtain ⟨o, hnamed, hdone⟩ := combine_of_assembled hself hk hcs
      have hoperand : hasOperand mode b = !cs.isEmpty := by
        rw [hasOperand, hk, hany]
        rfl
      rw [hdone] at hcombine
      cases hcombine
      rw [Block.nested_eq_children]
      by_cases hne : cs = []
      · subst hne
        rw [List.filter_cons_of_neg (by simp [hoperand])]
        exact hnodes
      · -- the operator itself comes first, and its condition is the first node
        rw [List.filter_cons_of_pos (by simpa [hoperand] using hne), if_neg hne, compounds,
          Option.toList_some, List.flatMap_singleton, Condition.nodes,
          Condition.nodesOf_eq_flatMap, List.filter_cons_of_pos rfl]
        exact List.Forall₂.cons ⟨o, cs, hnamed, hcs, rfl⟩ hnodes
    · have hnested : b.nested = [b] := by
        rw [Block.nested_eq_children, hself.childless hk, List.flatMap_nil]
      have hnone : compounds r.toList = [] := by
        cases hkind : b.kind with
        | operator => exact absurd hkind hk
        | condition => exact compounds_condition hkind hr
        | value =>
          rw [block_value _ hkind] at hr
          cases hr
          rfl
      have hoperand : ¬ hasOperand mode b = true := by simp [hasOperand_of_ne_operator hk]
      rw [hnested, hnone, List.filter_cons_of_neg hoperand]
      exact List.Forall₂.nil

/-! ### Compositions from the catalog -/

variable {fallback : Except ChainFault ChainId}

theorem keepsOperators_workspace {root : Block} (h : ∀ c ∈ root.nested, c.Assembled) :
    (workspace ⟨false, fallback⟩ [root]).KeepsOperators := by
  rw [workspace_lenient, unvalidated, roots_eq_tops]
  refine (keepsOperators_each fun b hb => ?_).andThen fun cs _ => keepsOperators_done _
  rw [List.mem_singleton.mp (List.mem_filter.mp hb).1]
  exact keepsOperators_block h

/-- A root whose id no block below it has is the only block at the top. -/
theorem tops_singleton {root : Block} (h : root.id ∉ root.descendants.map Block.id) :
    tops [root] = if root.kind = .value then [] else [root] := by
  have hall : (root.descendants.all fun c => c.id != root.id) = true := by
    rw [List.all_eq_true]
    intro c hc
    rw [bne_iff_ne]
    intro he
    exact h (he ▸ List.mem_map_of_mem hc)
  rw [tops, List.filter_singleton, List.all_cons, List.all_nil, hall]
  by_cases hk : root.kind = .value <;> simp [hk]

/-- **The compound conditions of a composition** are those of its operators with an operand. -/
theorem compounds_workspace {root : Block} (h : ∀ c ∈ root.nested, c.Assembled)
    (hid : root.id ∉ root.descendants.map Block.id) {r : Option Condition}
    (hr : (workspace ⟨false, fallback⟩ [root]).result = .ok r) :
    List.Forall₂ (Applies ⟨false, fallback⟩)
      (root.nested.filter (hasOperand ⟨false, fallback⟩)) (compounds r.toList) := by
  rw [workspace_lenient, unvalidated, roots_eq_tops, tops_singleton hid] at hr
  obtain ⟨cs, hcs, hjoined⟩ := result_andThen_eq_ok.mp hr
  by_cases hk : root.kind = .value
  · rw [if_pos hk] at hcs
    cases hcs
    cases hjoined
    exact compounds_block h none (by rw [block_value _ hk]; rfl)
  · rw [if_neg hk] at hcs
    obtain ⟨c, hc, hmore⟩ := result_andThen_eq_ok.mp hcs
    obtain ⟨ds, hds, hdone⟩ := result_andThen_eq_ok.mp hmore
    have hr' : r = c := by
      cases hds
      cases hdone
      cases hjoined
      cases c <;> rfl
    rw [hr']
    exact compounds_block h c hc

/-- **No operator of a composition from the catalog is lost.** After any run of edits that drop
templates of the catalog, no operator has more operands than it may have, and its operands are
conditions and operators; lenient compilation warns of no operator that it drops; and if it returns,
the compound conditions are those of the operators that have an operand with a condition, one for
each. For the last, no new block may have been given the id of the root, which would count as
connected then. -/
theorem composed_keeps_operators {start next : Block} {given : List String}
    (hstart : Catalog.Placed start) (hrun : Composed start given next) :
    (∀ b ∈ next.nested, b.kind = .operator →
      (∀ n, b.maxInputs = some n → b.connectedSlots.length ≤ n) ∧
      ∀ s ∈ b.slots, ∀ c, s.connected = some c → c.kind = .condition ∨ c.kind = .operator) ∧
    ∀ fallback : Except ChainFault ChainId,
      (∀ w ∈ (workspace ⟨false, fallback⟩ [next]).warnings, ∀ rest,
        w.message ≠ "Dropping operator block " ++ rest) ∧
      (start.id ∉ given → ∀ r, (workspace ⟨false, fallback⟩ [next]).result = .ok r →
        List.Forall₂ (Applies ⟨false, fallback⟩)
          (next.nested.filter (hasOperand ⟨false, fallback⟩)) (compounds r.toList)) := by
  have hassembled := hrun.assembled hstart
  refine ⟨fun b hb hk => ⟨fun n hn => ?_, fun s hs c hc => ?_⟩, fun fallback => ⟨?_, ?_⟩⟩
  · rw [Block.length_connectedSlots_eq]
    exact (hassembled b hb).bounded hk hn
  · have hchild : c ∈ b.children := List.mem_filterMap.mpr ⟨s, hs, hc⟩
    have hvalue := (hassembled b hb).operands hk c hchild
    cases hkind : c.kind with
    | condition => exact Or.inl rfl
    | operator => exact Or.inr rfl
    | value => exact absurd hkind hvalue
  · intro w hw rest hmessage
    obtain ⟨block, gap, hdropped⟩ := w.message_operator_iff.mp ⟨rest, hmessage⟩
    exact keepsOperators_workspace hassembled w hw block gap hdropped
  · intro hid r hr
    exact compounds_workspace hassembled (hrun.root_id_notMem hstart hid) hr

/-- A parameter is added to a negation, and then a time lock is dropped onto it. -/
theorem composed_keeps_operators_negation : ∃ operator lock first second : Block,
    Catalog.find? "not" = some operator ∧ Catalog.find? "timelock" = some lock ∧
      (Edit.addParameter []).apply History.suffix 1 { operator with isTemplate := false } =
        .ok first ∧
      (Edit.attach [] "condition-1" lock).apply History.suffix 1 first = .ok second ∧
      second.connectedSlots.length ≤ 1 ∧
      (workspace ⟨false, .ok .sepolia⟩ [second]).result =
        .ok (some (.compound .not [.time .sepolia atLeastZero])) ∧
      List.Forall₂ (Applies ⟨false, .ok .sepolia⟩)
        (second.nested.filter (hasOperand ⟨false, .ok .sepolia⟩))
        [.compound .not [.time .sepolia atLeastZero]] := by
  have hnot : Catalog.find? "not" = some _ := rfl
  have hlock : Catalog.find? "timelock" = some _ := rfl
  have hplaced := Catalog.Placed.moved (Catalog.mem_templates_of_find? hnot) "not"
  have hadd : (Edit.addParameter []).apply History.suffix 1
      { Catalog.operatorBlock "not" "NOT" [("maxInputs", .int 1)] with isTemplate := false } =
        .ok _ := rfl
  have hfirst := Composed.start.edit History.suffix 1 (.addParameter []) trivial hadd
  have hrun := hfirst.edit History.suffix 1 (.attach [] "condition-1" _)
    (Catalog.mem_templates_of_find? hlock) rfl
  obtain ⟨hoperators, hcompiled⟩ := composed_keeps_operators hplaced hrun
  refine ⟨_, _, _, _, hnot, hlock, hadd, rfl, ?_, ?_, ?_⟩
  · exact (hoperators _ (Block.self_mem_nested _) rfl).1 1 rfl
  · rfl
  · exact (hcompiled (.ok .sepolia)).2 (by decide) _ rfl

end Compile

end AccessTree
