import AccessTree.Proofs.Block.Bare
import AccessTree.Proofs.Compile.Outcome

/-! # Compiling with other ids

Ids tell blocks apart and stand in warnings and faults, and what is only displayed is not looked at
at all. The outcome of a bare composition is the outcome of the composition with the ids inside
warnings and faults renamed (`workspace_bare`), if no two of its ids are renamed alike: then the same
blocks stand at the top. Two compositions that are the same once they are bare therefore have the
same condition, or fail alike (`workspace_of_bare_eq`). -/

namespace AccessTree

variable (ρ : String → String)

/-! ### What was entered -/

theorem Slot.entered?_bare (s : Slot) : (s.bare ρ).entered? = s.entered? := by
  have hvalue : (s.bare ρ).connected.bind Block.value = s.connected.bind Block.value := by
    cases hs : s.connected with
    | none => simp [bare, hs]
    | some b => simp [bare, hs, Block.bare_value]
  rw [entered?, hvalue, entered?]
  rfl

namespace Block

/-- Nothing that was entered is lost. -/
theorem entered?_bare (b : Block) (slot : String) : (b.bare ρ).entered? slot = b.entered? slot := by
  rw [Block.entered?, bare_slot?, Block.entered?]
  cases b.slot? slot with
  | none => rfl
  | some s => exact Slot.entered?_bare ρ s

theorem comparatorOf_bare (b : Block) (slot : String) (default : Comparator) :
    (b.bare ρ).comparatorOf slot default = b.comparatorOf slot default := by
  rw [comparatorOf, bare_slot?, comparatorOf]
  cases b.slot? slot <;> rfl

end Block

/-! ### Renamed outcomes -/

/-- A gap with the id of its block renamed. -/
def Gap.renamed : Gap → Gap
  | .unsupportedKind block found => .unsupportedKind (ρ block) found
  | .unsupportedMethod block found => .unsupportedMethod (ρ block) found
  | .noMethod block => .noMethod (ρ block)
  | .notInteger block slot entered => .notInteger (ρ block) slot entered
  | .malformed block kind issues => .malformed (ρ block) kind issues
  | .badOperator block found issues => .badOperator (ρ block) found issues

/-- A fault with the ids of blocks renamed. -/
def CompileFault.renamed : CompileFault → CompileFault
  | .gap g => .gap (g.renamed ρ)
  | f => f

/-- A warning with the ids of blocks renamed. -/
def Warning.renamed : Warning → Warning
  | .droppedCondition block g => .droppedCondition (ρ block) (g.renamed ρ)
  | .droppedOperator block g => .droppedOperator (ρ block) (g.renamed ρ)
  | .unreadableJson block slot cause => .unreadableJson (ρ block) slot cause
  | .parametersNotList block => .parametersNotList (ρ block)
  | .abiNotObject block => .abiNotObject (ρ block)

namespace Outcome

variable {α β : Type}

/-- **An outcome with the ids of blocks renamed.** -/
def renamed (x : Outcome α) : Outcome α :=
  ⟨x.warnings.map (Warning.renamed ρ), x.result.mapError (CompileFault.renamed ρ)⟩

theorem renamed_fail (f : CompileFault) :
    (fail f : Outcome α).renamed ρ = fail (f.renamed ρ) := rfl

theorem renamed_gapShowing (v : Json) (gap : v.isWritable = true → Gap) :
    (gapShowing v gap : Outcome α).renamed ρ = gapShowing v fun h => (gap h).renamed ρ := by
  rw [gapShowing, renamed_fail, gapShowing, Json.faultShowing, Json.faultShowing]
  split <;> rfl

theorem renamed_andThen (x : Outcome α) (k : α → Outcome β) :
    (x.andThen k).renamed ρ = (x.renamed ρ).andThen fun a => (k a).renamed ρ := by
  obtain ⟨us, f | a⟩ := x
  · rfl
  · simp [andThen, renamed, Except.mapError]

theorem renamed_bind (x : Outcome α) (k : α → Outcome β) :
    (x >>= k).renamed ρ = x.renamed ρ >>= fun a => (k a).renamed ρ := renamed_andThen ρ x k

theorem renamed_map (g : α → β) (x : Outcome α) : (g <$> x).renamed ρ = g <$> x.renamed ρ :=
  renamed_andThen ρ x _

theorem renamed_ofExcept {ε : Type} {cause : ε → CompileFault}
    (h : ∀ e, (cause e).renamed ρ = cause e) (x : Except ε α) :
    (ofExcept cause x).renamed ρ = ofExcept cause x := by
  cases x with
  | ok a => rfl
  | error e => rw [ofExcept, renamed_fail, h]

theorem renamed_ofChecked (gap : List Issue → Gap) (x : Checked α) :
    (ofChecked gap x).renamed ρ = ofChecked (fun issues => (gap issues).renamed ρ) x := by
  cases x <;> rfl

theorem renamed_orDrop {strict : Bool} {warning warning' : Gap → Warning}
    (h : ∀ g, (warning g).renamed ρ = warning' (g.renamed ρ)) (x : Outcome (Option α)) :
    (orDrop strict warning x).renamed ρ = orDrop strict warning' (x.renamed ρ) := by
  obtain ⟨us, f | a⟩ := x
  · cases strict
    · cases f with
      | gap g => simp [orDrop, renamed, Except.mapError, CompileFault.renamed, h]
      | chain | numeral | invalid => rfl
    · cases f <;> rfl
  · cases strict <;> rfl

end Outcome

namespace Compile

open Outcome

variable (mode : CompileMode) (b : Block)

/-! ### Condition blocks -/

theorem chainOf_bare : chainOf mode (b.bare ρ) = (chainOf mode b).renamed ρ := by
  rw [chainOf, Block.entered?_bare, chainOf, renamed_ofExcept ρ fun _ => rfl]

theorem slotInt_bare (slot : String) (l : Literal) :
    slotInt (b.bare ρ) slot l = (slotInt b slot l).renamed ρ := by
  rw [slotInt, slotInt, Block.bare_id]
  cases literalInt? l with
  | error f => rfl
  | ok n =>
    cases n with
    | none =>
      simp only [renamed_gapShowing]
      rfl
    | some n => rfl

theorem numericTest_bare (slot : String) :
    numericTest (b.bare ρ) slot = (numericTest b slot).renamed ρ := by
  rw [numericTest, numericTest, Block.entered?_bare]
  cases b.entered? slot with
  | none => rfl
  | some l =>
    simp only [renamed_bind, slotInt_bare, Block.comparatorOf_bare]
    rfl

theorem slotJson_bare (slot : String) (l : Literal) :
    slotJson (b.bare ρ) slot l = (slotJson b slot l).renamed ρ := by
  unfold slotJson
  split
  · split
    · rfl
    · rw [renamed_bind, Block.bare_id]; rfl
    · rfl
  · rfl

theorem methodOf_bare : methodOf (b.bare ρ) = (methodOf b).renamed ρ := by
  unfold methodOf
  simp only [Block.entered?_bare, Block.bare_property, Block.bare_id]
  split
  · split <;> rfl
  · rfl

theorem addressOf_bare : addressOf (b.bare ρ) = (addressOf b).renamed ρ := by
  rw [addressOf, addressOf, Block.entered?_bare]
  cases b.entered? "contractAddress" with
  | none => rfl
  | some l =>
    simp only [renamed_map]
    rw [renamed_ofExcept ρ fun _ => rfl]

theorem listedParameters_bare : listedParameters (b.bare ρ) = (listedParameters b).renamed ρ := by
  rw [listedParameters, listedParameters, Block.entered?_bare]
  cases b.entered? "parameters" with
  | none => rfl
  | some l =>
    simp only [renamed_bind, slotJson_bare, Block.bare_id]
    congr 1
    funext v
    split <;> rfl

theorem filledSlots_bare (slots : List Slot) :
    filledSlots (slots.map (Slot.bare ρ)) = filledSlots slots := by
  simp only [filledSlots, List.filterMap_map]
  congr 2
  funext s
  rw [Function.comp_apply, Slot.entered?_bare]
  rfl

theorem numberedParameters_bare :
    numberedParameters (b.bare ρ) = (numberedParameters b).renamed ρ := by
  rw [numberedParameters, numberedParameters, Block.bare_slots, filledSlots_bare, renamed_bind,
    renamed_ofExcept ρ fun _ => rfl]
  congr 1
  funext filled
  split <;> rfl

theorem presetParameters_bare : presetParameters (b.bare ρ) = presetParameters b := by
  rw [presetParameters, presetParameters, Block.bare_property]

theorem withToken_bare (parameters : List Json) :
    (match b.entered? "tokenId" with
      | none => pure parameters
      | some l => do return withToken (← slotInt (b.bare ρ) "tokenId" l) parameters : Outcome _) =
    (match b.entered? "tokenId" with
      | none => pure parameters
      | some l => do return withToken (← slotInt b "tokenId" l) parameters : Outcome _).renamed ρ := by
  cases b.entered? "tokenId" with
  | none => rfl
  | some l =>
    simp only [renamed_bind, slotInt_bare]
    rfl

theorem parametersOf_bare : parametersOf (b.bare ρ) = (parametersOf b).renamed ρ := by
  simp only [parametersOf, renamed_bind, listedParameters_bare, Block.entered?_bare,
    presetParameters_bare]
  congr 1
  funext listed
  cases listed with
  | some items => exact withToken_bare ρ b items
  | none =>
    simp only [renamed_bind, numberedParameters_bare]
    congr 1
    funext entered
    exact withToken_bare ρ b _

theorem contractTest_bare : contractTest (b.bare ρ) = (contractTest b).renamed ρ := by
  simp only [contractTest, renamed_bind, numericTest_bare, Block.entered?_bare,
    Block.bare_property, Block.comparatorOf_bare, Block.bare_id]
  congr 1
  funext test
  cases test with
  | some t => rfl
  | none =>
    cases b.entered? "expectedValue" with
    | some l =>
      have hvalue : ∀ x : Except NumeralFault Json,
          (ofExcept CompileFault.numeral x).renamed ρ = ofExcept CompileFault.numeral x :=
        renamed_ofExcept ρ fun _ => rfl
      simp only [renamed_bind, hvalue]
      rfl
    | none =>
      simp only
      split
      · rw [renamed_ofChecked]
        rfl
      · rfl

theorem abiOf_bare : abiOf (b.bare ρ) = (abiOf b).renamed ρ := by
  rw [abiOf, abiOf, Block.entered?_bare, Block.bare_property]
  cases b.entered? "functionAbi" with
  | none =>
    simp only
    split <;> rfl
  | some l =>
    simp only [renamed_bind, slotJson_bare, Block.bare_id]
    congr 1
    funext v
    split <;> rfl

theorem timeLeaf_bare : timeLeaf mode (b.bare ρ) = (timeLeaf mode b).renamed ρ := by
  simp only [timeLeaf, renamed_bind, chainOf_bare, numericTest_bare, Block.bare_slot?,
    Option.isSome_map]
  rfl

theorem balanceLeaf_bare : balanceLeaf mode (b.bare ρ) = (balanceLeaf mode b).renamed ρ := by
  rw [balanceLeaf, balanceLeaf, Block.bare_property, Block.bare_id, chainOf_bare, numericTest_bare]
  simp only
  split
  · simp only [renamed_bind, renamed_gapShowing]
    rfl
  · simp only [renamed_bind]
    rfl

theorem contractLeaf_bare : contractLeaf mode (b.bare ρ) = (contractLeaf mode b).renamed ρ := by
  simp only [contractLeaf, renamed_bind, chainOf_bare, methodOf_bare, parametersOf_bare,
    contractTest_bare, abiOf_bare, addressOf_bare, standardOf, Block.bare_property,
    renamed_ofChecked, Block.bare_id]
  rfl

/-- **A condition block** comes to the same with other ids. -/
theorem leaf_bare : leaf mode (b.bare ρ) = (leaf mode b).renamed ρ := by
  have hkind : kindProperty (b.bare ρ) = kindProperty b := by
    simp only [kindProperty, Block.bare_property]
  rw [leaf, leaf, hkind, Block.bare_id]
  split
  · exact timeLeaf_bare ρ mode b
  · exact balanceLeaf_bare ρ mode b
  · exact contractLeaf_bare ρ mode b
  · rw [renamed_gapShowing]
    rfl

/-! ### Trees -/

theorem combine_bare (id : String) (properties : Fields) (operands : List Condition) :
    combine mode (ρ id) properties operands = (combine mode id properties operands).renamed ρ := by
  unfold combine
  split
  · rfl
  · simp only
    rw [renamed_orDrop ρ fun _ => rfl, renamed_map, renamed_ofChecked]
    rfl

theorem each_bare {blocks : List Block}
    (h : ∀ b ∈ blocks, block mode (b.bare ρ) = (block mode b).renamed ρ) :
    each mode (blocks.map (Block.bare ρ)) = (each mode blocks).renamed ρ := by
  induction blocks with
  | nil =>
    rw [List.map_nil, each]
    rfl
  | cons b rest ih =>
    rw [List.map_cons, each, each, renamed_andThen, h b List.mem_cons_self,
      ih fun c hc => h c (List.mem_cons_of_mem b hc)]
    congr 1
    funext c
    rw [renamed_andThen]
    rfl

/-- **A block** comes to the same with other ids. -/
theorem block_bare (b : Block) : block mode (b.bare ρ) = (block mode b).renamed ρ := by
  induction b using Block.childInduction with
  | step b ih =>
    cases hk : b.kind with
    | value =>
      rw [block_value _ hk, block_value _ (by rw [Block.bare_kind, hk])]
      rfl
    | condition =>
      rw [block_condition _ hk, block_condition _ (by rw [Block.bare_kind, hk]),
        renamed_orDrop ρ fun _ => rfl, renamed_map, leaf_bare, Block.bare_id]
    | operator =>
      rw [block_operator _ hk, block_operator _ (by rw [Block.bare_kind, hk]), Block.bare_children,
        each_bare ρ mode ih, renamed_andThen, Block.bare_id, Block.bare_properties]
      congr 1
      funext cs
      exact combine_bare ρ mode _ _ _

/-! ### Compositions -/

variable {ρ} {blocks : List Block}

theorem roots_bare (hρ : Block.KeepsApart ρ blocks) :
    roots (blocks.map (Block.bare ρ)) = (roots blocks).map (Block.bare ρ) := by
  rw [roots, Block.topLevel_bare hρ, List.filter_map, roots]
  refine congrArg _ (List.filter_congr fun b _ => ?_)
  rw [Function.comp_apply, Block.bare_kind]

theorem validated_bare (c : Option Condition) :
    (validated mode c).renamed ρ = validated mode c := by
  unfold validated
  split
  · exact renamed_ofExcept ρ (fun _ => rfl) _
  · rfl

/-- **A composition** comes to the same with other ids, as long as they are told apart. -/
theorem workspace_bare (hρ : Block.KeepsApart ρ blocks) :
    workspace mode (blocks.map (Block.bare ρ)) = (workspace mode blocks).renamed ρ := by
  rw [workspace, workspace, unvalidated, unvalidated, roots_bare hρ,
    each_bare ρ mode fun b _ => block_bare ρ mode b, renamed_andThen, renamed_andThen]
  congr 1
  funext c
  exact (validated_bare mode c).symm

/-! ### The same composition with other ids -/

/-- The name of the class of failures that a fault belongs to. -/
def className (f : CompileFault) : String :=
  match f.toFailure with
  | .problem p => p.category.name
  | .breakdown kind _ => kind.name

theorem className_renamed (ρ : String → String) (f : CompileFault) :
    className (f.renamed ρ) = className f := by
  cases f <;> rfl

theorem mapError_className_renamed {α : Type} (ρ : String → String) (x : Outcome α) :
    (x.renamed ρ).result.mapError className = x.result.mapError className := by
  obtain ⟨us, f | a⟩ := x
  · exact congrArg Except.error (className_renamed ρ f)
  · rfl

/-- **Only what blocks mean is compiled.** If the ids of a composition are renamed and told apart,
and what is only displayed is changed, then the condition stays the same, and so does the class of
the failure if there is one. -/
theorem workspace_of_bare_eq {ρ : String → String} {blocks others : List Block}
    (hρ : Block.KeepsApart ρ blocks)
    (h : others.map (Block.bare id) = blocks.map (Block.bare ρ)) :
    (workspace mode others).result.mapError className =
      (workspace mode blocks).result.mapError className := by
  have hid : Block.KeepsApart id others := fun _ _ _ _ hxy => hxy
  rw [← mapError_className_renamed id, ← workspace_bare mode hid, h, workspace_bare mode hρ,
    mapError_className_renamed]

/-- A negated time block that is listed once more at the top. -/
def listedTwice (outer inner shown : String) : List Block :=
  let time : Block := ⟨inner, .condition, shown, shown, [("conditionType", .str "time")],
    [⟨"chain", [], shown, some (.text "137"), none, some shown, none⟩], none, false⟩
  [⟨outer, .operator, shown, shown, [("operator", .str "not")],
    [⟨"operand", [.value], shown, none, none, some shown, some time⟩], none, true⟩, time]

/-- Two ids are exchanged: the block that is listed twice is still passed over at the top. -/
theorem workspace_of_bare_eq_listedTwice :
    Block.KeepsApart (fun s => if s = "not" then "time" else "not") (listedTwice "not" "time" "") ∧
    (listedTwice "time" "not" "Shown").map (Block.bare id) =
      (listedTwice "not" "time" "").map
        (Block.bare fun s => if s = "not" then "time" else "not") ∧
    (workspace ⟨false, .ok .sepolia⟩ (listedTwice "time" "not" "Shown")).result.mapError className =
      .ok (some (.compound .not [.time .polygon atLeastZero])) := by
  have hρ : Block.KeepsApart (fun s => if s = "not" then "time" else "not")
      (listedTwice "not" "time" "") := by
    unfold Block.KeepsApart
    decide
  have h : (listedTwice "time" "not" "Shown").map (Block.bare id) =
      (listedTwice "not" "time" "").map
        (Block.bare fun s => if s = "not" then "time" else "not") := by
    rfl
  exact ⟨hρ, h, (workspace_of_bare_eq _ hρ h).trans (by rfl)⟩

end Compile

end AccessTree
