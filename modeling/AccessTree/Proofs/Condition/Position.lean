import AccessTree.Proofs.Condition.Nodes
import Mathlib.Data.List.Lex

/-! # Where the offending node stands

A path leads from a document to a node of it by taking operands in turn (`nodeAt?`). In document
order a node comes before its operands and these come from left to right, which is the
lexicographic order of their paths; `nodes` lists all nodes of a document in this order
(`mem_nodes_iff`, `pairwise_nodes`). A check of a node reports the path of the node itself, or breaks
down (`Node.check_local`). So the path in a validation problem leads to the first node that does not
pass its own checks (`first_offending_node`). -/

namespace AccessTree.Document

open Json (valueAt)

/-! ### Paths -/

/-- The operands of a compound node; other values have none. -/
def operandsOf : Json → List Json
  | .obj fields =>
    match kindOfTag? (valueAt fields "conditionType"), valueAt fields "operands" with
    | some .compound, .arr operands => operands
    | _, _ => []
  | _ => []

/-- **The node at the end of a path** in a document. -/
def nodeAt? : Json → List Nat → Option Json
  | d, [] => some d
  | d, i :: rest => ((operandsOf d)[i]?).bind fun v => nodeAt? v rest

/-- Induction on nodes, from the operands of a node. -/
theorem operandInduction {P : Json → Prop} (step : ∀ d, (∀ v ∈ operandsOf d, P v) → P d)
    (d : Json) : P d := by
  induction d using nodeInduction with
  | other v hv =>
    refine step v fun w hw => ?_
    cases v with
    | obj fields => exact absurd rfl (hv fields)
    | null | bool | int | float | str | arr => cases hw
  | node fields ih =>
    refine step _ fun w hw => ?_
    rw [operandsOf] at hw
    split at hw
    · next operands _ hoperands =>
      exact ih operands ((Json.valueAt_eq (by simp)).mp hoperands) w hw
    · cases hw

/-- **The nodes of a document** are its root and the nodes of its operands. -/
theorem nodes_eq (path : List Nat) (d : Json) :
    nodes path d = ⟨path, d⟩ :: nodesFrom path 0 (operandsOf d) := by
  cases d with
  | null | bool | int | float | str | arr => rw [nodes, operandsOf, nodesFrom] <;> simp
  | obj fields =>
    rw [nodes, operandsOf]
    congr 1
    split
    · next hk =>
      rw [nodesIn_eq, hk]
      cases valueAt fields "operands" <;> simp [nodesUnder, nodesFrom]
    · next hk =>
      split
      · next h _ => exact absurd h hk
      · rfl

theorem mem_nodesFrom {path : List Nat} {n : Node} {operands : List Json} {i : Nat} :
    n ∈ nodesFrom path i operands ↔
      ∃ j v, operands[j]? = some v ∧ n ∈ nodes (path ++ [i + j]) v := by
  induction operands generalizing i with
  | nil => simp [nodesFrom]
  | cons v rest ih =>
    rw [nodesFrom, List.mem_append, ih]
    constructor
    · rintro (h | ⟨j, w, hw, h⟩)
      · exact ⟨0, v, rfl, h⟩
      · exact ⟨j + 1, w, hw, by rwa [← Nat.add_assoc, Nat.add_right_comm]⟩
    · rintro ⟨_ | j, w, hw, h⟩
      · cases hw
        exact .inl h
      · exact .inr ⟨j, w, hw, by rwa [Nat.add_right_comm, Nat.add_assoc]⟩

/-- **The nodes of a document** are what paths lead to. -/
theorem mem_nodes_iff (d : Json) : ∀ {path : List Nat} {n : Node}, n ∈ nodes path d ↔
    ∃ rest, n.path = path ++ rest ∧ nodeAt? d rest = some n.value := by
  induction d using operandInduction with
  | step d ih =>
    intro path n
    rw [nodes_eq, List.mem_cons, mem_nodesFrom]
    constructor
    · rintro (rfl | ⟨i, v, hv, h⟩)
      · exact ⟨[], (List.append_nil path).symm, rfl⟩
      · obtain ⟨rest, hpath, hrest⟩ := (ih v (List.mem_of_getElem? hv)).mp h
        refine ⟨i :: rest, ?_, ?_⟩
        · rw [hpath, Nat.zero_add, List.append_assoc, List.singleton_append]
        · rw [nodeAt?, hv, Option.bind_some, hrest]
    · rintro ⟨_ | ⟨i, rest⟩, hpath, hrest⟩
      · rw [List.append_nil] at hpath
        exact .inl (by rw [← hpath, Option.some.inj hrest])
      · obtain ⟨v, hv, hrest⟩ := Option.bind_eq_some_iff.mp hrest
        refine .inr ⟨i, v, hv, (ih v (List.mem_of_getElem? hv)).mpr ⟨rest, ?_, hrest⟩⟩
        rw [hpath, Nat.zero_add, List.append_assoc, List.singleton_append]

/-! ### Document order -/

/-- A node comes before the nodes below it. -/
theorem self_lt_append (path : List Nat) (i : Nat) (rest : List Nat) : path < path ++ i :: rest := by
  have h : List.Lex (· < ·) (path ++ []) (path ++ i :: rest) := .append_left _ .nil path
  rwa [List.append_nil] at h

/-- The nodes of an operand come before those of the operands after it. -/
theorem append_lt_append (path rest rest' : List Nat) {i j : Nat} (h : i < j) :
    path ++ i :: rest < path ++ j :: rest' :=
  List.Lex.append_left (· < ·) (.rel h) path

theorem pairwise_nodesFrom {operands : List Json}
    (h : ∀ v ∈ operands, ∀ path, (nodes path v).Pairwise fun m n => m.path < n.path)
    (path : List Nat) (i : Nat) :
    (nodesFrom path i operands).Pairwise fun m n => m.path < n.path := by
  induction operands generalizing i with
  | nil => exact .nil
  | cons v rest ih =>
    rw [nodesFrom, List.pairwise_append]
    refine ⟨h v List.mem_cons_self _, ih (fun w hw => h w (List.mem_cons_of_mem v hw)) (i + 1), ?_⟩
    intro m hm n hn
    obtain ⟨mrest, hm, -⟩ := (mem_nodes_iff v).mp hm
    obtain ⟨j, w, -, hn⟩ := mem_nodesFrom.mp hn
    obtain ⟨nrest, hn, -⟩ := (mem_nodes_iff w).mp hn
    rw [hm, hn, List.append_assoc, List.append_assoc]
    exact append_lt_append path mrest nrest (by omega)

/-- **Nodes are listed in document order.** -/
theorem pairwise_nodes (d : Json) :
    ∀ path, (nodes path d).Pairwise fun m n => m.path < n.path := by
  induction d using operandInduction with
  | step d ih =>
    intro path
    rw [nodes_eq, List.pairwise_cons]
    refine ⟨fun n hn => ?_, pairwise_nodesFrom ih path 0⟩
    obtain ⟨j, v, -, hn⟩ := mem_nodesFrom.mp hn
    obtain ⟨rest, hn, -⟩ := (mem_nodes_iff v).mp hn
    rw [hn, List.append_assoc]
    exact self_lt_append path (0 + j) rest

/-- What is before a node in document order stands before it in the list of nodes. -/
theorem mem_before {d : Json} {before after : List Node} {n : Node}
    (h : nodes [] d = before ++ n :: after) {path : List Nat} {v : Json}
    (hlt : path < n.path) (hv : nodeAt? d path = some v) : ⟨path, v⟩ ∈ before := by
  have hmem : (⟨path, v⟩ : Node) ∈ nodes [] d := (mem_nodes_iff d).mpr ⟨path, rfl, hv⟩
  have horder := pairwise_nodes d []
  rw [h] at hmem horder
  rcases List.mem_append.mp hmem with hbefore | hlater
  · exact hbefore
  · exfalso
    rcases List.mem_cons.mp hlater with rfl | hafter
    · exact lt_irrefl path hlt
    · have hgt := List.rel_of_pairwise_cons (List.pairwise_append.mp horder).2.1 hafter
      exact lt_asymm hlt hgt

/-! ### What a check reports -/

/-- A fault of the node at a path, or a breakdown. -/
def LocalFault (path : List Nat) (f : DocumentFault) : Prop :=
  (∃ fault, f = .node path fault) ∨ f.IsBreakdown

/-- A check reports faults of the node at a path only, or breaks down. -/
def Local (path : List Nat) (c : Check) : Prop := ∀ f, c = .error f → LocalFault path f

namespace Local

variable {path : List Nat}

theorem ok : Local path (.ok ()) := by
  rintro f ⟨⟩

theorem node (fault : NodeFault) : Local path (.error (.node path fault)) := by
  rintro f ⟨⟩
  exact .inl ⟨fault, rfl⟩

theorem require (holds : Bool) (fault : NodeFault) : Local path (require path holds fault) := by
  cases holds with
  | true => exact ok
  | false => exact node fault

theorem requireName (α : Type) [Word α] (v : Json) (fault : Json.Writable → NodeFault) :
    Local path (requireName α path v fault) := by
  rw [Document.requireName]
  split
  · split
    · exact ok
    · rintro f ⟨⟩
      exact Json.faultShowing_cases (P := LocalFault path) (fun h => .inl ⟨fault ⟨v, h⟩, rfl⟩)
        fun _ => .inr trivial
  · rintro f ⟨⟩
    exact .inr trivial

theorem andThen {x y : Check} (hx : Local path x) (hy : Local path y) :
    Local path (x >>= fun _ => y) := by
  intro f h
  rcases bind_eq_error.mp h with h | ⟨_, -, h⟩
  · exact hx f h
  · exact hy f h

theorem checkTest (fields : Fields) : Local path (checkTest path fields) := by
  rw [Document.checkTest]
  split
  · exact (requireName Comparator _ _).andThen (require _ _)
  · exact node _

theorem checkContract (fields : Fields) : Local path (checkContract path fields) := by
  rw [Document.checkContract]
  refine (require _ _).andThen <| (require _ _).andThen <| (require _ _).andThen <|
    (require _ _).andThen ?_
  simp only
  split
  · exact (requireName TokenStandard _ _).andThen <| (require _ _).andThen (checkTest fields)
  · exact (require _ _).andThen (checkTest fields)

theorem checkCompound (fields : Fields) : Local path (checkCompound path fields) := by
  refine (requireName Operator _ _).andThen ?_
  split
  · exact (require _ _).andThen (require _ _)
  · exact node _

theorem checkKind (fields : Fields) (kind : ConditionKind) :
    Local path (checkKind path fields kind) := by
  cases kind with
  | time => exact (require _ _).andThen <| (require _ _).andThen (checkTest fields)
  | rpc =>
    exact (require _ _).andThen <| (require _ _).andThen <| (require _ _).andThen (checkTest fields)
  | contract => exact checkContract fields
  | compound => exact checkCompound fields

end Local

/-- **A node is reported under its own path.** -/
theorem Node.check_local (n : Node) : Local n.path n.check := by
  rw [check]
  split
  · split
    · exact .checkKind _ _
    · exact .node _
  · exact .node _

/-! ### Problems -/

/-- **A validation problem points at the first offending node.** The path in its details is that of
a node of the document, and names the test of the node if the fault lies there. The node does not
pass its own checks, and every node before it in document order does. -/
theorem first_offending_node {d : Json} {f : DocumentFault} {p : Problem}
    (hd : d.isTruthy = true) (h : validate d = .error f) (hp : f.toFailure = .problem p) :
    p.category = .validation ∧ ∃ path v fault, f = .node path fault ∧
      p.details.lookup "path" = some (.str
        ("$" ++ String.join (path.map fun i => ".operands[" ++ Text.ofNat i ++ "]") ++
          if fault.isInTest then ".returnValueTest" else "")) ∧
      nodeAt? d path = some v ∧ Node.check ⟨path, v⟩ = .error f ∧
      ∀ earlier w, earlier < path → nodeAt? d earlier = some w →
        Node.check ⟨earlier, w⟩ = .ok () := by
  rcases validate_eq_error_iff.mp h with ⟨hempty, -⟩ | ⟨-, before, n, after, hnodes, hbefore, hn⟩
  · cases hempty.symm.trans hd
  · rcases n.check_local f hn with ⟨fault, rfl⟩ | hbreakdown
    · have hmem : n ∈ nodes [] d := hnodes ▸ List.mem_append_right before List.mem_cons_self
      obtain ⟨_, rfl, hv⟩ := (mem_nodes_iff d).mp hmem
      cases hp
      refine ⟨rfl, n.path, n.value, fault, rfl, rfl, hv, hn, fun earlier w hlt hw => ?_⟩
      exact hbefore _ (mem_before hnodes hlt hw)
    · cases f with
      | notAWord | numeral => cases hp
      | empty | node | unreadable => exact hbreakdown.elim

/-- A negation of a time condition with a comparator that there is not, between a condition that is
in order and a node of no kind. -/
def unknownComparator : Json :=
  let time comparator : Json := .obj [("conditionType", .str "time"), ("chain", .int 137),
    ("method", .str "blocktime"),
    ("returnValueTest", .obj [("comparator", .str comparator), ("value", .int 0)])]
  .obj [("conditionType", .str "compound"), ("operator", .str "or"), ("operands", .arr
    [time ">=",
      .obj [("conditionType", .str "compound"), ("operator", .str "not"),
        ("operands", .arr [time "~"])],
      .str "time"])]

/-- The test of the negated condition is reported, and not the node of no kind. -/
theorem first_offending_node_negated : ∃ p,
    validate unknownComparator = .error (.node [1, 0] (.comparator ⟨.str "~", rfl⟩)) ∧
    (DocumentFault.node [1, 0] (.comparator ⟨.str "~", rfl⟩)).toFailure = .problem p ∧
    p.details.lookup "path" = some (.str "$.operands[1].operands[0].returnValueTest") ∧
    ∀ earlier w, earlier < [1, 0] → nodeAt? unknownComparator earlier = some w →
      Node.check ⟨earlier, w⟩ = .ok () := by
  have hv : validate unknownComparator =
      .error (.node [1, 0] (.comparator ⟨.str "~", rfl⟩)) := by decide
  obtain ⟨-, path, v, fault, hf, hpath, -, -, hearlier⟩ := first_offending_node rfl hv rfl
  cases hf
  exact ⟨_, hv, rfl, hpath.trans (by decide), hearlier⟩

end AccessTree.Document
