import AccessTree.Proofs.Compile.Strict
import AccessTree.Proofs.Compile.Erased

/-! # What lenient compilation returns

Lenient compilation that returns gives the composition from which everything that has no condition
is erased. On the way it warns exactly once about each condition block whose condition cannot be
built and about each operator that cannot be applied to the operands it is left with
(`Visit.fails`). Every function of the compilation has a lemma of this form: the result is what is
erased to, and the warnings that tell of a dropped block name the visits that fail. An operator is
warned about after its operands, but is visited before them, so the warnings are a permutation. -/

namespace AccessTree

/-- The block that a warning tells was dropped, by its kind and its id. -/
def Warning.dropped? : Warning → Option (BlockKind × String)
  | .droppedCondition id _ => some (.condition, id)
  | .droppedOperator id _ => some (.operator, id)
  | _ => none

theorem Warning.dropped?_eq_none {w : Warning} (h : w.isDrop = false) : w.dropped? = none := by
  cases w with
  | droppedCondition | droppedOperator => cases h
  | unreadableJson | parametersNotList | abiNotObject => rfl

namespace Outcome

variable {α β : Type}

/-- The blocks that were dropped with a warning, in order. -/
def dropped (x : Outcome α) : List (BlockKind × String) := x.warnings.filterMap Warning.dropped?

theorem dropped_done (a : α) : (done a).dropped = [] := rfl

theorem Undropped.dropped_eq_nil {x : Outcome α} (h : x.Undropped) : x.dropped = [] :=
  List.filterMap_eq_nil_iff.mpr fun w hw => Warning.dropped?_eq_none (h w hw)

theorem dropped_andThen {x : Outcome α} {f : α → Outcome β} {a : α} (h : x.result = .ok a) :
    (x.andThen f).dropped = x.dropped ++ (f a).dropped := by
  rw [dropped, warnings_andThen h, List.filterMap_append, dropped, dropped]

/-- A block is dropped exactly if it has no condition. -/
theorem orDrop_lenient {x : Outcome α} (hx : x.Undropped) {w : Gap → Warning}
    {subject : BlockKind × String} (hw : ∀ g, (w g).dropped? = some subject) {r : Option α}
    (h : (orDrop false w (some <$> x)).result = .ok r) :
    r = x.result.toOption ∧
      (orDrop false w (some <$> x)).dropped = if r.isNone then [subject] else [] := by
  have hd := hx.dropped_eq_nil
  have hm := warnings_map some x
  have hr := result_map some x
  rw [dropped] at hd
  cases hres : x.result with
  | ok a =>
    rw [hres] at hr
    simp only [orDrop, hr, Except.map] at h ⊢
    cases h
    simp [Except.toOption, dropped, hm, hd]
  | error f =>
    rw [hres] at hr
    cases f with
    | gap g =>
      simp only [orDrop, hr, Except.map] at h ⊢
      cases h
      simp [Except.toOption, dropped, hm, hd, hw]
    | chain | numeral | invalid =>
      simp only [orDrop, hr, Except.map] at h
      cases h

end Outcome

namespace Compile

open Outcome

variable (fallback : Except ChainFault ChainId)

/-! ### Operators -/

theorem word_operatorProperty (properties : Fields) :
    (∃ o, operator? properties = some o ∧
      Schema.word Operator (operatorProperty properties) = .ok o) ∨
    operator? properties = none ∧
      ∃ issues, Schema.word Operator (operatorProperty properties) = .rejected issues := by
  rw [operator?, operatorProperty]
  generalize Json.valueAt properties "operator" = found
  split
  · cases found with
    | str s =>
      rw [Schema.word]
      cases h : (Word.ofName? s : Option Operator) with
      | some o => exact Or.inl ⟨o, h, rfl⟩
      | none => exact Or.inr ⟨h, _, rfl⟩
    | null | bool | int | float | arr | obj => exact Or.inr ⟨rfl, _, rfl⟩
  · exact Or.inl ⟨.and, rfl, by decide⟩

theorem compound_operatorProperty {properties : Fields} {operands : List Condition}
    (h : operands ≠ []) (gap : List Issue → Gap) :
    (ofChecked gap (compound (operatorProperty properties) operands)).result.toOption =
      applied (operator? properties) operands := by
  rcases word_operatorProperty properties with ⟨o, ho, hw⟩ | ⟨ho, issues, hw⟩
  · rw [ho, compound, hw, applied]
    simp only [Checked.under, Checked.andThen, compoundOf, h, false_or]
    split
    · rfl
    · rfl
  · rw [ho, compound, hw, applied]
    rfl

/-- **Operands are combined** by the operator as far as it can be applied to them. -/
theorem combine_lenient {id : String} {properties : Fields} {operands : List Condition}
    {r : Option Condition}
    (h : (combine ⟨false, fallback⟩ id properties operands).result = .ok r) :
    r = applied (operator? properties) operands ∧
      (combine ⟨false, fallback⟩ id properties operands).dropped =
        if r.isNone && !operands.isEmpty then [(.operator, id)] else [] := by
  rw [combine] at h ⊢
  split at h
  · next he =>
    obtain rfl := List.isEmpty_iff.mp he
    cases h
    refine ⟨?_, by simp [dropped_done]⟩
    cases ho : operator? properties <;> simp [applied]
  · next he =>
    have hne : operands ≠ [] := fun hn => he (List.isEmpty_iff.mpr hn)
    rw [if_neg he]
    obtain ⟨hr, hd⟩ := orDrop_lenient (undropped_ofChecked _ _) (fun _ => rfl) h
    rw [compound_operatorProperty hne] at hr
    exact ⟨hr, by simpa [he] using hd⟩

/-! ### Visits that fail -/

/-- Whether a visited block is dropped with a warning: a condition block whose condition cannot be
built, or an operator that cannot be applied to the operands it has. -/
def Visit.fails (v : Visit) : Bool :=
  (erased fallback v.block).isNone &&
    match v.block.kind with
    | .value => false
    | .condition => true
    | .operator => !(v.block.children.filterMap (erased fallback)).isEmpty

/-- The blocks of some visits that are dropped with a warning. -/
def failures (visits : List Visit) : List (BlockKind × String) :=
  (visits.filter (Visit.fails fallback)).map fun v => (v.block.kind, v.block.id)

theorem failures_append (us vs : List Visit) :
    failures fallback (us ++ vs) = failures fallback us ++ failures fallback vs := by
  simp [failures]

theorem failures_cons (v : Visit) (vs : List Visit) :
    failures fallback (v :: vs) = failures fallback [v] ++ failures fallback vs :=
  failures_append fallback [v] vs

theorem failures_singleton (above : List Block) (b : Block) :
    failures fallback [⟨above, b⟩] =
      if Visit.fails fallback ⟨above, b⟩ then [(b.kind, b.id)] else [] := by
  rw [failures, List.filter_singleton]
  cases Visit.fails fallback ⟨above, b⟩ <;> rfl

/-! ### Blocks -/

/-- **Several blocks**, if each of them comes to what is left when it is erased. -/
theorem each_lenient {blocks : List Block} {above : List Block}
    (h : ∀ b ∈ blocks, ∀ r, (block ⟨false, fallback⟩ b).result = .ok r →
      r = erased fallback b ∧
        (block ⟨false, fallback⟩ b).dropped.Perm (failures fallback (visits above b)))
    {cs : List Condition} (hcs : (each ⟨false, fallback⟩ blocks).result = .ok cs) :
    cs = blocks.filterMap (erased fallback) ∧
      (each ⟨false, fallback⟩ blocks).dropped.Perm
        (failures fallback (blocks.flatMap (visits above))) := by
  induction blocks generalizing cs with
  | nil =>
    rw [each] at hcs ⊢
    cases hcs
    exact ⟨rfl, List.Perm.refl _⟩
  | cons b rest ih =>
    rw [each] at hcs ⊢
    obtain ⟨c, hc, hrest⟩ := result_andThen_eq_ok.mp hcs
    obtain ⟨ds, hds, hdone⟩ := result_andThen_eq_ok.mp hrest
    obtain ⟨rfl, hdb⟩ := h b List.mem_cons_self c hc
    obtain ⟨rfl, hdr⟩ := ih (fun d hd => h d (List.mem_cons_of_mem b hd)) hds
    cases hdone
    refine ⟨?_, ?_⟩
    · simp [List.filterMap_eq_flatMap_toList]
    · rw [dropped_andThen hc, dropped_andThen hds, dropped_done, List.append_nil,
        List.flatMap_cons, failures_append]
      exact hdb.append hdr

/-- **A block comes to what is left when it is erased**, and every visit that fails on the way is
warned about once. -/
theorem block_lenient (b : Block) : ∀ (above : List Block) (r : Option Condition),
    (block ⟨false, fallback⟩ b).result = .ok r →
    r = erased fallback b ∧
      (block ⟨false, fallback⟩ b).dropped.Perm (failures fallback (visits above b)) := by
  induction b using Block.childInduction with
  | step b ih =>
    intro above r hr
    cases hk : b.kind with
    | value =>
      rw [block_value _ hk] at hr ⊢
      cases hr
      rw [visits_of_ne_operator above (by simp [hk]), failures_singleton, erased_value fallback hk]
      simp [Visit.fails, hk, dropped_done]
    | condition =>
      rw [block_condition _ hk] at hr ⊢
      obtain ⟨rfl, hd⟩ := orDrop_lenient (undropped_leaf _ b) (fun _ => rfl) hr
      rw [visits_of_ne_operator above (by simp [hk]), failures_singleton,
        erased_condition fallback hk, hd]
      simp [Visit.fails, hk, erased_condition fallback hk, built]
    | operator =>
      rw [block_operator _ hk] at hr ⊢
      obtain ⟨cs, hcs, hcomb⟩ := result_andThen_eq_ok.mp hr
      obtain ⟨rfl, hd⟩ := each_lenient fallback (fun c hc r => ih c hc (b :: above) r) hcs
      -- the operator is warned about last, but it is the first visit
      obtain ⟨hra, hdc⟩ := combine_lenient fallback hcomb
      rw [erased_operator fallback hk]
      refine ⟨hra, ?_⟩
      have self : (combine ⟨false, fallback⟩ b.id b.properties
          (b.children.filterMap (erased fallback))).dropped =
            failures fallback [⟨above, b⟩] := by
        rw [hdc, failures_singleton, hra]
        simp [Visit.fails, hk, erased_operator fallback hk]
      rw [dropped_andThen hcs, self, visits_operator above hk,
        failures_cons fallback _ (b.children.flatMap _)]
      exact (hd.append_right _).trans List.perm_append_comm

/-! ### Compositions -/

/-- The conditions of the top-level blocks, from which everything that has none is erased. -/
def present (blocks : List Block) : List Condition := (tops blocks).filterMap (erased fallback)

/-- **What is left of a composition** when everything that has no condition is erased. -/
structure Erasure (blocks : List Block) (compiled : Outcome (Option Condition))
    (r : Option Condition) : Prop where
  /-- Without a condition at the top there is none. -/
  absent : present fallback blocks = [] → r = none
  /-- A single condition at the top stands alone. -/
  alone : ∀ c, present fallback blocks = [c] → r = some c
  /-- Several conditions at the top are joined in the order of the blocks. -/
  joined : 2 ≤ (present fallback blocks).length →
    r = some (.compound .and (present fallback blocks))
  /-- The leaves are the conditions of the surviving condition blocks, depth first. -/
  leaves : (r.toList.flatMap Condition.leaves).map Except.ok =
    (survivors fallback blocks).map fun v => built fallback v.block
  /-- Every block that is reached and fails is warned about once, and no other block is. -/
  warned : compiled.dropped.Perm (failures fallback (reached blocks))

theorem leaves_joined (cs : List Condition) :
    (joined cs).toList.flatMap Condition.leaves = cs.flatMap Condition.leaves := by
  match cs with
  | [] => rfl
  | [c] => rfl
  | c :: d :: cs => simp [joined, Condition.leaves, leavesOf_eq_flatMap]

theorem leaves_present (blocks : List Block) :
    ((present fallback blocks).flatMap Condition.leaves).map Except.ok =
      (survivors fallback blocks).map fun v => built fallback v.block := by
  rw [present, List.filterMap_eq_flatMap_toList, List.flatMap_assoc, survivors, reached,
    List.filter_flatMap, List.map_flatMap, List.map_flatMap]
  exact List.flatMap_congr fun b _ => (leaves_erased fallback b (by simp)).symm

theorem unvalidated_lenient {blocks : List Block} {r : Option Condition}
    (h : (unvalidated ⟨false, fallback⟩ blocks).result = .ok r) :
    r = joined (present fallback blocks) ∧
      (unvalidated ⟨false, fallback⟩ blocks).dropped.Perm (failures fallback (reached blocks)) := by
  rw [unvalidated, roots_eq_tops] at h ⊢
  obtain ⟨cs, hcs, hr⟩ := result_andThen_eq_ok.mp h
  obtain ⟨rfl, hd⟩ := each_lenient fallback (fun b _ r => block_lenient fallback b [] r) hcs
  refine ⟨(Except.ok.inj hr).symm, ?_⟩
  rw [dropped_andThen hcs, dropped_done, List.append_nil]
  exact hd

/-- **What lenient compilation returns** is what is left of the composition, and each failure on the
way is warned about once. -/
theorem erasure_of_workspace {blocks : List Block} {r : Option Condition}
    (h : (workspace ⟨false, fallback⟩ blocks).result = .ok r) :
    Erasure fallback blocks (workspace ⟨false, fallback⟩ blocks) r := by
  rw [workspace_lenient] at h ⊢
  obtain ⟨rfl, hd⟩ := unvalidated_lenient fallback h
  refine ⟨?_, ?_, ?_, ?_, hd⟩
  · intro hp
    rw [hp, joined]
  · intro c hp
    rw [hp, joined]
  · intro hp
    match hcs : present fallback blocks, hp with
    | c :: d :: rest, _ => rfl
  · rw [leaves_joined, leaves_present]

/-! ### Small compositions -/

/-- A time block with something or nothing entered as its chain. -/
def timeBlock (id : String) (chain : Option Literal) : Block :=
  ⟨id, .condition, "", "", [("conditionType", .str "time")],
    [⟨"chain", [], "", chain, none, none, none⟩], none, false⟩

/-- A condition block of no kind. -/
def kindlessBlock : Block := ⟨"kindless", .condition, "", "", [], [], none, false⟩

/-- An operator block that negates some blocks. -/
def negation (id : String) (operands : List Block) : Block :=
  ⟨id, .operator, "", "", [("operator", .str "not")],
    operands.map fun b => ⟨b.id, [], "", none, none, none, some b⟩, none, false⟩

/-- A negation stands once one of its two operands is dropped, and is dropped itself if neither is. -/
theorem erasure_of_workspace_negation :
    (workspace ⟨false, .ok .sepolia⟩ [negation "kept" [timeBlock "1" none, kindlessBlock],
      negation "dropped" [timeBlock "2" none, timeBlock "3" none]]).result =
        .ok (some (.compound .not [.time .sepolia atLeastZero])) ∧
    Erasure (.ok .sepolia) [negation "kept" [timeBlock "1" none, kindlessBlock],
      negation "dropped" [timeBlock "2" none, timeBlock "3" none]]
      (workspace ⟨false, .ok .sepolia⟩ [negation "kept" [timeBlock "1" none, kindlessBlock],
        negation "dropped" [timeBlock "2" none, timeBlock "3" none]])
      (some (.compound .not [.time .sepolia atLeastZero])) :=
  ⟨by rfl, erasure_of_workspace _ (by rfl)⟩

end Compile

end AccessTree
