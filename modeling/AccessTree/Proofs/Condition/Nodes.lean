import AccessTree.Proofs.Condition.Valid
import AccessTree.Proofs.Except

/-! # Validation node by node

`Document.nodes` lists the nodes of a document in document order, each with the path that leads to
it: a node comes before its operands, and these come from left to right. What validation checks of a
single node, apart from its operands, is `Node.check`. Validation runs these checks over the list
(`checkNode_eq_forM`), so a document is refused because of the first node that does not pass
(`validate_eq_error_iff`). -/

namespace AccessTree

/-- A fault that is no problem of a document. -/
def DocumentFault.IsBreakdown : DocumentFault → Prop
  | .notAWord _ | .numeral _ => True
  | _ => False

namespace Document

open Json (valueAt)

/-- A node of a document, with the path that leads to it. -/
structure Node where
  path : List Nat
  value : Json

mutual
/-- **The nodes of a document** in document order, from the one at a path on. -/
def nodes (path : List Nat) : Json → List Node
  | .obj fields =>
    ⟨path, .obj fields⟩ ::
      match kindOfTag? (valueAt fields "conditionType") with
      | some .compound => nodesIn path fields
      | _ => []
  | v => [⟨path, v⟩]

/-- The nodes below the operands among the fields of a node. -/
def nodesIn (path : List Nat) : List (String × Json) → List Node
  | [] => []
  | (k, v) :: rest => if k = "operands" then nodesUnder path v else nodesIn path rest

/-- The nodes below a list of operands. -/
def nodesUnder (path : List Nat) : Json → List Node
  | .arr items => nodesFrom path 0 items
  | _ => []

/-- The nodes below operands, which are counted from `i`. -/
def nodesFrom (path : List Nat) (i : Nat) : List Json → List Node
  | [] => []
  | v :: rest => nodes (path ++ [i]) v ++ nodesFrom path (i + 1) rest
end

/-- The checks of a node of a kind, apart from those of its operands. -/
def checkKind (path : List Nat) (fields : Fields) : ConditionKind → Check
  | .time => checkTime path fields
  | .rpc => checkBalance path fields
  | .contract => checkContract path fields
  | .compound => checkCompound path fields

/-- The checks of a node, apart from those of its operands. -/
def Node.check (n : Node) : Check :=
  match n.value with
  | .obj fields =>
    match kindOfTag? (valueAt fields "conditionType") with
    | some kind => checkKind n.path fields kind
    | none => .error (.node n.path (.kind (valueAt fields "conditionType")))
  | v => .error (.node n.path (.notObject v))

theorem Node.check_of_tag {path : List Nat} {fields : Fields} {kind : ConditionKind}
    (tag : valueAt fields "conditionType" = .str kind.name) :
    Node.check ⟨path, .obj fields⟩ = checkKind path fields kind := by
  simp only [check, kindOfTag?_eq_some.mpr tag]

theorem nodesIn_eq (path : List Nat) (fields : Fields) :
    nodesIn path fields = nodesUnder path (valueAt fields "operands") := by
  induction fields with
  | nil => rfl
  | cons f rest ih =>
    obtain ⟨k, v⟩ := f
    rw [nodesIn, Json.valueAt_cons]
    split
    · rfl
    · exact ih

/-- Operands are checked one after the other, each with the nodes below it. -/
theorem checkOperands_eq_forM {operands : List Json}
    (h : ∀ v ∈ operands, ∀ path, checkNode path v = forM (nodes path v) Node.check)
    (path : List Nat) (i : Nat) :
    checkOperands path i operands = forM (nodesFrom path i operands) Node.check := by
  induction operands generalizing i with
  | nil => rfl
  | cons v rest ih =>
    have hv := h v List.mem_cons_self (path ++ [i])
    have hrest := ih (fun w hw => h w (List.mem_cons_of_mem v hw)) (i + 1)
    rw [checkOperands, nodesFrom, List.forM_append, hv, hrest]

/-- **Validation checks one node after the other**, in document order. -/
theorem checkNode_eq_forM (v : Json) :
    ∀ path, checkNode path v = forM (nodes path v) Node.check := by
  induction v using nodeInduction with
  | other v hv =>
    intro path
    have hself : forM [⟨path, v⟩] Node.check = Node.check ⟨path, v⟩ := by
      rw [List.forM_cons, List.forM_nil]
      exact bind_pure_unit
    cases v with
    | obj fields => exact absurd rfl (hv fields)
    | null | bool | int | float | str | arr => exact hself.symm
  | node fields ih =>
    intro path
    have hoperands : checkOperandsIn path fields = forM (nodesIn path fields) Node.check := by
      rw [checkOperandsIn_eq, nodesIn_eq]
      cases hv : valueAt fields "operands" with
      | arr operands =>
        have hlookup := (Json.valueAt_eq (by simp)).mp hv
        exact checkOperands_eq_forM (ih operands hlookup) path 0
      | null | bool | int | float | str | obj => rfl
    rw [checkNode, nodes, List.forM_cons, Node.check]
    simp only
    cases kindOfTag? (valueAt fields "conditionType") with
    | none => rfl
    | some kind =>
      cases kind with
      | compound =>
        rw [hoperands]
        rfl
      | time | rpc | contract => exact bind_pure_unit.symm

/-- **A document is refused** because it is empty, or because of the first of its nodes that does
not pass its checks. -/
theorem validate_eq_error_iff {d : Json} {f : DocumentFault} : validate d = .error f ↔
    (d.isTruthy = false ∧ f = .empty d) ∨
    (d.isTruthy = true ∧ ∃ before n after, nodes [] d = before ++ n :: after ∧
      (∀ m ∈ before, m.check = .ok ()) ∧ n.check = .error f) := by
  rw [validate, ← forM_eq_error, ← checkNode_eq_forM]
  by_cases ht : d.isTruthy = true
  · simp [ht]
  · have hf : d.isTruthy = false := by simpa using ht
    simp [hf, eq_comm]

end Document

end AccessTree
