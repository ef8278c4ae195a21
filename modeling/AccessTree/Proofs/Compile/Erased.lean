import AccessTree.Proofs.Compile.Leaf
import Mathlib.Data.List.Basic

/-! # Compositions without what has no condition

What a composition comes to if nothing is warned about and all that has no condition is erased:
`erased` gives the condition of a block, by recursion on the blocks. `visits` lists the blocks that
are reached from a block, depth first, each with the operators it is nested in. A condition block
`survives` if it has a condition and so has every operator it is nested in; the leaves of an erased
block are then the conditions of the surviving condition blocks in the order of the visits
(`leaves_erased`). -/

namespace AccessTree.Compile

variable (fallback : Except ChainFault ChainId)

/-! ### Conditions -/

/-- The operator that properties name, `and` if the property is falsy. -/
def operator? (properties : Fields) : Option Operator :=
  let found := Json.valueAt properties "operator"
  if found.isTruthy then
    match found with
    | .str s => Word.ofName? s
    | _ => none
  else some .and

/-- An operator over some operands, of which `not` takes exactly one and the others at least one. -/
def applied (operator : Option Operator) (operands : List Condition) : Option Condition :=
  match operator with
  | none => none
  | some o =>
    if operands = [] ∨ o = .not ∧ operands.length ≠ 1 then none else some (.compound o operands)

/-- The condition of a condition block, or why it cannot be built. -/
def built (b : Block) : Except CompileFault Condition :=
  (leaf ⟨false, fallback⟩ b).result

mutual
/-- **The condition of a block**, from which everything that has none is erased. -/
def erased : Block → Option Condition
  | ⟨id, kind, category, label, properties, slots, value, isTemplate⟩ =>
    match kind with
    | .value => none
    | .condition =>
      (built fallback ⟨id, kind, category, label, properties, slots, value, isTemplate⟩).toOption
    | .operator => applied (operator? properties) (erasedSlots slots)

/-- The conditions of the blocks that are connected to slots. -/
def erasedSlots : List Slot → List Condition
  | [] => []
  | ⟨_, _, _, _, _, _, none⟩ :: rest => erasedSlots rest
  | ⟨_, _, _, _, _, _, some b⟩ :: rest => (erased b).toList ++ erasedSlots rest
end

theorem erased_value {b : Block} (h : b.kind = .value) : erased fallback b = none := by
  cases b
  simp only at h
  subst h
  rw [erased]

theorem erased_condition {b : Block} (h : b.kind = .condition) :
    erased fallback b = (built fallback b).toOption := by
  cases b
  simp only at h
  subst h
  rw [erased]

theorem erasedSlots_eq (slots : List Slot) :
    erasedSlots fallback slots = (slots.filterMap Slot.connected).filterMap (erased fallback) := by
  rw [List.filterMap_eq_flatMap_toList (erased fallback)]
  induction slots with
  | nil => rw [erasedSlots, List.filterMap_nil, List.flatMap_nil]
  | cons s rest ih =>
    obtain ⟨id, accepts, label, value, comparator, inputType, _ | b⟩ := s
    · rw [erasedSlots, List.filterMap_cons, ih]
    · rw [erasedSlots, List.filterMap_cons, List.flatMap_cons, ih]

/-- An operator is applied to the conditions of its children. -/
theorem erased_operator {b : Block} (h : b.kind = .operator) :
    erased fallback b =
      applied (operator? b.properties) (b.children.filterMap (erased fallback)) := by
  rw [Block.children, ← erasedSlots_eq]
  cases b
  simp only at h
  subst h
  rw [erased]

/-- What is applied is a compound condition of all operands. -/
theorem applied_eq_some {operator : Option Operator} {operands : List Condition} {c : Condition}
    (h : applied operator operands = some c) :
    ∃ o, operator = some o ∧ c = .compound o operands := by
  rw [applied.eq_def] at h
  split at h
  · cases h
  · split at h
    · cases h
    · exact ⟨_, rfl, (Option.some.inj h).symm⟩

theorem leavesOf_eq_flatMap (cs : List Condition) :
    Condition.leavesOf cs = cs.flatMap Condition.leaves := by
  induction cs with
  | nil => rw [Condition.leavesOf, List.flatMap_nil]
  | cons c cs ih => rw [Condition.leavesOf, List.flatMap_cons, ih]

/-! ### Visits -/

/-- A block that is reached, with the operators it is nested in, the innermost one first. -/
structure Visit where
  above : List Block
  block : Block

mutual
/-- **The blocks that are reached** from a block: the block itself, and below an operator what is
connected to its slots. -/
def visits : List Block → Block → List Visit
  | above, ⟨id, kind, category, label, properties, slots, value, isTemplate⟩ =>
    ⟨above, ⟨id, kind, category, label, properties, slots, value, isTemplate⟩⟩ ::
      match kind with
      | .operator =>
        visitsSlots (⟨id, kind, category, label, properties, slots, value, isTemplate⟩ :: above)
          slots
      | _ => []

/-- The blocks that are reached from slots. -/
def visitsSlots : List Block → List Slot → List Visit
  | _, [] => []
  | above, ⟨_, _, _, _, _, _, none⟩ :: rest => visitsSlots above rest
  | above, ⟨_, _, _, _, _, _, some b⟩ :: rest => visits above b ++ visitsSlots above rest
end

/-- The listed condition and operator blocks at the top: no block that is connected to a slot, of
whichever listed block and however deep, has the id of one of them. -/
def tops (blocks : List Block) : List Block :=
  blocks.filter fun b => decide (b.kind ≠ .value) &&
    blocks.all fun root => root.descendants.all fun c => c.id != b.id

theorem roots_eq_tops (blocks : List Block) : roots blocks = tops blocks := by
  rw [roots, Block.topLevel, List.filter_filter, tops]
  refine List.filter_congr fun b _ => ?_
  congr 1
  rw [Bool.eq_iff_iff]
  simp [Block.connectedIds]

/-- The blocks that are reached in a composition. -/
def reached (blocks : List Block) : List Visit := (tops blocks).flatMap (visits [])

theorem visitsSlots_eq (above : List Block) (slots : List Slot) :
    visitsSlots above slots = (slots.filterMap Slot.connected).flatMap (visits above) := by
  induction slots with
  | nil => rw [visitsSlots, List.filterMap_nil, List.flatMap_nil]
  | cons s rest ih =>
    obtain ⟨id, accepts, label, value, comparator, inputType, _ | b⟩ := s
    · rw [visitsSlots, List.filterMap_cons, ih]
    · rw [visitsSlots, List.filterMap_cons, List.flatMap_cons, ih]

theorem visits_operator (above : List Block) {b : Block} (h : b.kind = .operator) :
    visits above b = ⟨above, b⟩ :: b.children.flatMap (visits (b :: above)) := by
  rw [Block.children, ← visitsSlots_eq]
  cases b
  simp only at h
  subst h
  rw [visits]

theorem visits_of_ne_operator (above : List Block) {b : Block} (h : b.kind ≠ .operator) :
    visits above b = [⟨above, b⟩] := by
  obtain ⟨id, kind, category, label, properties, slots, value, isTemplate⟩ := b
  cases kind with
  | operator => exact absurd rfl h
  | condition | value => simp [visits]

/-- A block is nested in all that is above the block it is reached from. -/
theorem mem_above_of_mem_visits {b : Block} : ∀ {above : List Block} {v : Visit},
    v ∈ visits above b → ∀ o ∈ above, o ∈ v.above := by
  induction b using Block.childInduction with
  | step b ih =>
    intro above v hv o ho
    by_cases hk : b.kind = .operator
    · rw [visits_operator above hk, List.mem_cons, List.mem_flatMap] at hv
      rcases hv with rfl | ⟨c, hc, hv⟩
      · exact ho
      · exact ih c hc hv o (List.mem_cons_of_mem b ho)
    · rw [visits_of_ne_operator above hk, List.mem_singleton] at hv
      subst hv
      exact ho

/-- What is reached from a block is the block itself or nested in it. -/
theorem eq_or_mem_above {above : List Block} {b : Block} {v : Visit} (hv : v ∈ visits above b) :
    v = ⟨above, b⟩ ∨ b ∈ v.above := by
  by_cases hk : b.kind = .operator
  · rw [visits_operator above hk, List.mem_cons, List.mem_flatMap] at hv
    rcases hv with hv | ⟨c, -, hv⟩
    · exact Or.inl hv
    · exact Or.inr (mem_above_of_mem_visits hv b List.mem_cons_self)
  · rw [visits_of_ne_operator above hk, List.mem_singleton] at hv
    exact Or.inl hv

/-! ### Survivors -/

/-- Whether a visited block is a condition block that has a condition, as has every operator it is
nested in. -/
def Visit.survives (v : Visit) : Bool :=
  v.block.kind == .condition && (erased fallback v.block).isSome &&
    v.above.all fun o => (erased fallback o).isSome

/-- The condition blocks that survive in a composition, depth first. -/
def survivors (blocks : List Block) : List Visit :=
  (reached blocks).filter (Visit.survives fallback)

/-- Nothing survives in a block that has no condition. -/
theorem filter_survives_of_none {above : List Block} {b : Block} (h : erased fallback b = none) :
    (visits above b).filter (Visit.survives fallback) = [] := by
  rw [List.filter_eq_nil_iff]
  intro v hv hs
  simp only [Visit.survives, Bool.and_eq_true, List.all_eq_true] at hs
  obtain ⟨⟨-, hblock⟩, habove⟩ := hs
  rcases eq_or_mem_above hv with rfl | hb
  · simp [h] at hblock
  · simpa [h] using habove b hb

/-- **The leaves of what a block comes to** are the conditions of the surviving condition blocks,
in the order in which these are reached. -/
theorem leaves_erased (b : Block) : ∀ {above : List Block},
    (∀ o ∈ above, (erased fallback o).isSome) →
    ((visits above b).filter (Visit.survives fallback)).map (fun v => built fallback v.block) =
      ((erased fallback b).toList.flatMap Condition.leaves).map Except.ok := by
  induction b using Block.childInduction with
  | step b ih =>
    intro above habove
    cases he : erased fallback b with
    | none => simp [filter_survives_of_none fallback he]
    | some c =>
      cases hk : b.kind with
      | value => simp [erased_value fallback hk] at he
      | condition =>
        have hs : Visit.survives fallback ⟨above, b⟩ = true := by
          simpa [Visit.survives, hk, he] using habove
        rw [erased_condition fallback hk] at he
        have hl : built fallback b = .ok c := by
          cases h : built fallback b <;> simp_all [Except.toOption]
        rw [visits_of_ne_operator above (by simp [hk]), List.filter_cons_of_pos hs]
        simp [hl, leaves_leaf hl]
      | operator =>
        -- an operator is no leaf, and stands above all that is reached below it
        have hs : ¬ Visit.survives fallback ⟨above, b⟩ = true := by simp [Visit.survives, hk]
        have hbelow : ∀ o ∈ b :: above, (erased fallback o).isSome := by simpa [he] using habove
        rw [erased_operator fallback hk] at he
        obtain ⟨o, -, rfl⟩ := applied_eq_some he
        have hleaves : (Condition.compound o (b.children.filterMap (erased fallback))).leaves =
            b.children.flatMap fun c => (erased fallback c).toList.flatMap Condition.leaves := by
          rw [Condition.leaves, leavesOf_eq_flatMap, List.filterMap_eq_flatMap_toList,
            List.flatMap_assoc]
        rw [visits_operator above hk, List.filter_cons_of_neg hs, List.filter_flatMap,
          List.map_flatMap, Option.toList_some, List.flatMap_cons, List.flatMap_nil,
          List.append_nil, hleaves, List.map_flatMap]
        exact List.flatMap_congr fun c hc => ih c hc hbelow

end AccessTree.Compile
