import AccessTree.Proofs.Block.Growth
import AccessTree.Proofs.Compile.Gist
import AccessTree.Proofs.Edit.Operands

/-! # What an operand means

The copy of a template that is dropped has new ids, and its slots have a literal and a hint; none of
that is compiled, so the copy comes to what the template comes to (`meaning_instantiate`). Dropping a
template onto an operator therefore puts the result of the template in the place of what the slot
came to, and leaves the results of all other slots as they were (`operandResults_attach`). -/

namespace AccessTree

/-! ### Copies of templates -/

theorem Slot.entered?_initialized (s : Slot) : s.initialized.entered? = s.entered? := by
  have hvalue : Literal.entered? s.initialized.value = Literal.entered? s.value := by
    rw [initialized]
    cases s.value <;> rfl
  rw [entered?, hvalue, entered?]
  rfl

theorem Slot.gist_initialized (s : Slot) : s.initialized.gist = s.gist := by
  rw [gist, entered?_initialized, gist]
  rfl

namespace Block

theorem bare_eq (ρ : String → String) (b : Block) :
    b.bare ρ = ⟨ρ b.id, b.kind, "", "", b.properties, b.slots.map (Slot.bare ρ), b.value, false⟩ := by
  cases b
  rw [bare, Slot.bareList_eq_map]

/-- A copy is its template, but for the ids. -/
theorem bare_renewed (suffix : Nat → String) (b : Block) : ∀ first,
    (renewed suffix first b).bare (fun _ => "") = b.bare fun _ => "" := by
  induction b using Block.induction with
  | step b ih =>
    intro first
    have hslots : (renewedSlots suffix (first + 1) b.slots).map (Slot.bare fun _ => "") =
        b.slots.map (Slot.bare fun _ => "") := by
      refine map_renewedSlots_of (fun s hs k => ?_) (first + 1)
      cases hc : s.connected with
      | none => simp [Slot.bare, hc]
      | some c => simp [Slot.bare, hc, ih s hs c hc k]
    rw [renewed_eq, bare_eq, bare_eq, hslots]

/-- Nothing is read of the literals and hints that the slots of a copy are given. -/
theorem gist_initialized (b : Block) :
    gist { b with slots := b.slots.map Slot.initialized } = b.gist := by
  obtain ⟨id, kind, category, label, properties, slots, value, isTemplate⟩ := b
  refine gist_congr _ (fun _ => ?_) fun _ => List.map_map
  rw [List.map_map]
  exact List.map_congr_left fun s _ => s.gist_initialized

end Block

namespace Compile

/-- **What a block comes to**: its condition, none, or the class of a failure. -/
def meaning (mode : CompileMode) (b : Block) : Except String (Option Condition) :=
  (block mode b).result.mapError className

theorem meaning_gist (mode : CompileMode) (b : Block) : meaning mode b.gist = meaning mode b :=
  (block_gist mode b).className

theorem meaning_bare (mode : CompileMode) (ρ : String → String) (b : Block) :
    meaning mode (b.bare ρ) = meaning mode b := by
  rw [meaning, block_bare, mapError_className_renamed, meaning]

/-- **A copy comes to what its template comes to.** -/
theorem meaning_instantiate (mode : CompileMode) (suffix : Nat → String) (first : Nat)
    (template : Block) :
    meaning mode (template.instantiate suffix first) = meaning mode template := by
  have hread : (template.instantiate suffix first).gist = (template.renewed suffix first).gist :=
    Block.gist_initialized _
  calc meaning mode (template.instantiate suffix first)
      = meaning mode (template.renewed suffix first) := by
        rw [← meaning_gist, hread, meaning_gist]
    _ = meaning mode ((template.renewed suffix first).bare fun _ => "") :=
        (meaning_bare mode _ _).symm
    _ = meaning mode template := by rw [Block.bare_renewed, meaning_bare]

/-! ### Operands -/

/-- The id of a slot of an operator, and what is connected to it comes to. -/
def operandResult (mode : CompileMode) (s : Slot) :
    String × Option (Except String (Option Condition)) :=
  (s.id, s.connected.map (meaning mode))

/-- The results of an operator with another block at one of its slots. -/
theorem map_operandResult_connect (mode : CompileMode) {operator : Block} {slot : String} {s : Slot}
    (hs : operator.slot? slot = some s) (hd : (operator.slots.map Slot.id).Nodup) (operand : Block) :
    (operator.connect slot (some operand)).slots.map (operandResult mode) =
      (operator.slots.map (operandResult mode)).map fun r =>
        if r.1 = slot then (slot, some (meaning mode operand)) else r := by
  obtain ⟨rfl, pre, post, hb, hf⟩ := Block.slot?_split hs
  have hother : ∀ t ∈ pre ++ post, t.id ≠ s.id := by
    rw [hb, List.map_append, List.map_cons, List.nodup_middle, List.nodup_cons,
      ← List.map_append] at hd
    exact fun t ht hid => hd.1 (hid ▸ List.mem_map_of_mem ht)
  have hkept : ∀ ts : List Slot, (∀ t ∈ ts, t ∈ pre ++ post) → ts.map (operandResult mode) =
      (ts.map (operandResult mode)).map fun r =>
        if r.1 = s.id then (s.id, some (meaning mode operand)) else r := by
    intro ts hts
    rw [List.map_map]
    refine List.map_congr_left fun t ht => ?_
    rw [Function.comp_apply, operandResult, if_neg (hother t (hts t ht))]
  rw [Block.connect, hf, hb]
  simp only [List.map_append, List.map_cons]
  rw [← hkept pre fun t ht => List.mem_append_left post ht,
    ← hkept post fun t ht => List.mem_append_right pre ht]
  simp [operandResult]

/-- **What a template means is kept when it is dropped onto an operator.** Slot by slot, the results
of the operands are those of the operator before, with the result of the template at the slot; a
growth slot may follow, with nothing connected to it. -/
theorem operandResults_attach (mode : CompileMode) {suffix : Nat → String} {first : Nat}
    {operator next template : Block} {slot : String} (hk : operator.kind = .operator)
    (hd : (operator.slots.map Slot.id).Nodup) (ht : template.kind ≠ .value)
    (h : (Edit.attach [] slot template).apply suffix first operator = .ok next) :
    ∃ grown, (grown = [] ∨ ∃ id, grown = [(id, none)]) ∧
      next.slots.map (operandResult mode) =
        ((operator.slots.map (operandResult mode)).map fun r =>
          if r.1 = slot then (slot, some (meaning mode template)) else r) ++ grown := by
  obtain ⟨owner, edited, howner, hedit, rfl⟩ := Edit.apply_eq_ok.mp h
  obtain rfl : operator = owner := Option.some.inj howner
  obtain ⟨s, hs, -, ⟨hv, -⟩ | ⟨-, -, -, hattach⟩ | ⟨-, hne, -⟩⟩ := Block.attachTo_cases hedit
  · exact absurd hv ht
  · have hfilled : (operator.connect slot
        (some (template.instantiate suffix first))).relabeled.slots.map (operandResult mode) =
          (operator.slots.map (operandResult mode)).map fun r =>
            if r.1 = slot then (slot, some (meaning mode template)) else r := by
      rw [Block.relabeled, Block.map_relabel fun _ _ => rfl, map_operandResult_connect mode hs hd,
        meaning_instantiate]
    obtain ⟨filled, rfl, ⟨-, -, g, hg, rfl⟩ | ⟨-, rfl⟩⟩ := Block.attachOperand_cases hattach
    · refine ⟨[(g.id, none)], .inr ⟨g.id, rfl⟩, ?_⟩
      have hnone := Slot.isEmpty_iff.mp (Slot.nextGrowth_eq_ok hg).1
      change List.map _ (_ ++ [g]) = _
      rw [List.map_append, hfilled, List.map_singleton, operandResult, hnone]
      rfl
    · exact ⟨[], .inl rfl, hfilled.trans (List.append_nil _).symm⟩
  · exact absurd hk hne

/-- A disjunction with two operands, one of which cannot be compiled. -/
def halfDisjunction : Block :=
  { Catalog.operatorBlock "or" "OR" [] with slots := [
    { Slot.growth "1" with connected := some (timeBlock "first" none) },
    { Slot.growth "2" with connected := some kindlessBlock }, Slot.growth "3"] }

/-- A negation is dropped onto the growth slot of the disjunction. -/
theorem operandResults_attach_negation : ∃ next grown,
    (Edit.attach [] "condition-3" (negation "not" [timeBlock "time" (some (.int 137))])).apply
      History.suffix 1 halfDisjunction = .ok next ∧
    next.slots.map (operandResult ⟨false, .ok .sepolia⟩) = [
      ("condition-1", some (.ok (some (.time .sepolia atLeastZero)))),
      ("condition-2", some (.ok none)),
      ("condition-3", some (.ok (some (.compound .not [.time .polygon atLeastZero]))))] ++ grown := by
  obtain ⟨next, hnext⟩ : ∃ next,
    (Edit.attach [] "condition-3" (negation "not" [timeBlock "time" (some (.int 137))])).apply
      History.suffix 1 halfDisjunction = .ok next := ⟨_, rfl⟩
  obtain ⟨grown, -, hresults⟩ :=
    operandResults_attach ⟨false, .ok .sepolia⟩ rfl (by decide) (by decide) hnext
  exact ⟨next, grown, hnext, hresults.trans rfl⟩

end Compile

end AccessTree
