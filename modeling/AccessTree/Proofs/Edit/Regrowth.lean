import AccessTree.Edit.History
import AccessTree.Proofs.Block.Graft
import AccessTree.Proofs.Edit.Regular

/-! # Detaching undoes attaching

A block that is attached to the growth slot of an operator is the last operand, and the operator may
have grown another slot after it. Detaching leaves the operands before it, whose labels are right
already, and grows the slot that they ask for. In a composition that is the slot that was filled, so
the tree is as before, but for what was written into the growth slot (`Edit.detach_attach`). -/

namespace AccessTree

namespace Block

variable {owner : Block} {path : Path} {pre : List Slot} {g : Slot} {bound : Nat}

theorem filter_connected {tail : List Slot} (hpre : ∀ s ∈ pre, s.isEmpty = false)
    (htail : ∀ s ∈ tail, s.isEmpty = true) :
    (pre ++ tail).filter (fun s => !s.isEmpty) = pre := by
  rw [List.filter_append, List.filter_eq_self.mpr fun s hs => by simp [hpre s hs],
    List.filter_eq_nil_iff.mpr fun s hs => by simp [htail s hs], List.append_nil]

/-- **The operands before a growth slot**: there is room for it, and it is the one that they ask
for. -/
structure Grows (owner : Block) (pre : List Slot) (g : Slot) : Prop where
  slots : owner.slots = pre ++ [g]
  empty : g.isEmpty = true
  filled : ∀ s ∈ pre, s.isEmpty = false
  first : ∀ s ∈ pre, s.id ≠ g.id
  room : owner.isFull = false
  labeled : Slot.relabel 1 pre = pre
  next : Slot.nextGrowth pre = .ok g.cleared

/-- An operator whose last slot is empty. -/
theorem Regular.grows (h : owner.Regular bound) (hk : owner.kind = .operator)
    (hg : owner.slots.getLast? = some g) (he : g.isEmpty = true) :
    owner.Grows owner.slots.dropLast g := by
  obtain ⟨pre, hslots⟩ := List.getLast?_eq_some_iff.mp hg
  obtain ⟨hnumbered, hlabeled, hgrowth⟩ := h.slots hk
  have hops := h.orderly.operands hk
  have hfirst := (slot?_of_nodup hslots h.orderly.distinct).1
  have hnext := hgrowth g hg he
  rw [hslots, List.map_append, List.map_singleton, he] at hops
  obtain ⟨-, n, hpre, hroom⟩ := hops.of_append_true
  rw [hslots, List.dropLast_concat] at hnext ⊢
  refine ⟨hslots, he, fun s hs => ?_, hfirst, ?_, ?_, hnext⟩
  · exact List.eq_of_mem_replicate (hpre ▸ List.mem_map_of_mem hs)
  · rw [← Bool.not_eq_true, isFull_iff]
    rintro ⟨m, hm, hle⟩
    rw [length_connectedSlots, hslots, List.map_append, hpre, List.map_singleton, he] at hle
    have hlt := hroom m hm
    simp at hle
    omega
  · have hids : (Slot.relabel 1 pre).map Slot.id = pre.map Slot.id :=
      map_relabel (fun _ _ => rfl) pre 1
    rw [hslots, Slot.relabel_append] at hlabeled
    exact (List.append_inj hlabeled (by simpa using congrArg List.length hids)).1

namespace Grows

/-- A slot of the id of the growth slot, in its place, is the first of that id. -/
theorem slot? (h : owner.Grows pre g) {b : Block} {s : Slot} {tail : List Slot} (hs : s.id = g.id)
    (hb : b.slots = pre ++ s :: tail) : b.slot? g.id = some s :=
  List.find?_eq_some_iff_append.mpr
    ⟨by simpa using hs, pre, tail, hb, fun t ht => by simpa using h.first t ht⟩

/-- A growth slot takes conditions and operators. -/
theorem accepts (h : owner.Grows pre g) : g.accepts = [.condition, .operator] := by
  obtain ⟨number, hg⟩ := Slot.eq_growth_of_nextGrowth h.next
  exact congrArg Slot.accepts hg

/-- The operands are labelled by their positions, and the growth slot has a label of its own. -/
theorem map_label (h : owner.Grows pre g) : owner.slots.map Slot.label =
    ((List.range' 1 pre.length).map fun i => "Condition " ++ Text.ofNat i) ++ ["Add Condition"] := by
  obtain ⟨number, hg⟩ := Slot.eq_growth_of_nextGrowth h.next
  rw [h.slots, List.map_append, ← Slot.map_label_relabel h.filled, h.labeled, List.map_singleton,
    show g.label = "Add Condition" from congrArg Slot.label hg]

/-- Attaching to the growth slot is not refused. -/
theorem attachTo_eq (h : owner.Grows pre g) (hk : owner.kind = .operator) {template : Block}
    (hv : template.kind ≠ .value) (suffix : Nat → String) (first : Nat) (path : Path) :
    Block.attachTo suffix first path g.id template owner =
      (owner.attachOperand g.id (template.instantiate suffix first)).mapError .numeral := by
  have haccepted : ¬ (g.accepts ≠ [] ∧ template.kind ∉ g.accepts) := by
    rw [h.accepts]
    cases hkind : template.kind <;> simp [hkind] at hv ⊢
  have hroom : owner.requireRoom g = .ok () := by
    rw [requireRoom]
    cases owner.maxInputs <;> simp [h.room]
  rw [attachTo, requireSlot_eq_ok.mpr (h.slot? rfl h.slots)]
  simp only [bind, Except.bind]
  rw [if_neg haccepted, if_neg hv, if_pos hk, hroom]

/-- **Attaching** fills the growth slot, and nothing or an empty slot comes after it, unless the
number of that slot is too long. -/
theorem attachOperand (h : owner.Grows pre g) (hnumbered : ∀ s ∈ owner.slots, s.NumberedTo bound)
    (operand : Block) :
    (∃ s tail, s.id = g.id ∧ s.connected = some operand ∧ (∀ t ∈ tail, t.isEmpty = true) ∧
        owner.attachOperand g.id operand = .ok { owner with slots := pre ++ s :: tail }) ∨
      owner.attachOperand g.id operand = .error .tooLongToWrite ∧
        10 ^ Text.maxDigits ≤ bound + 1 := by
  obtain ⟨s, hid, hconnected, hfilled⟩ : ∃ s : Slot, s.id = g.id ∧ s.connected = some operand ∧
      (owner.connect g.id (some operand)).relabeled = { owner with slots := pre ++ [s] } := by
    refine ⟨{ g with
      label := "Condition " ++ Text.ofNat (1 + (pre.map Slot.isEmpty).count false)
      connected := some operand }, rfl, rfl, ?_⟩
    rw [relabeled, connect, modifySlot, h.slots, modifyFirst_split rfl h.first,
      Slot.relabel_append, h.labeled]
    rfl
  rw [Block.attachOperand, hfilled, if_pos (by simp [hid]), grown]
  by_cases hfull : isFull { owner with slots := pre ++ [s] } = true
  · rw [if_pos hfull]
    exact Or.inl ⟨s, [], hid, hconnected, by simp, rfl⟩
  · have hids : owner.slots.map Slot.id = (pre ++ [s]).map Slot.id := by simp [h.slots, hid]
    rw [if_neg hfull]
    obtain ⟨t, ht, -⟩ | ⟨hfault, hlong⟩ :=
      Slot.nextGrowth_of_numbered (Slot.numberedTo_of_ids hids hnumbered)
    · refine Or.inl ⟨s, [t], hid, hconnected, by simpa using (Slot.nextGrowth_eq_ok ht).1, ?_⟩
      rw [ht]
      simp [bind, Except.bind, pure, Except.pure]
    · exact Or.inr ⟨by rw [hfault]; rfl, hlong⟩

/-- **Detaching** leaves the operands before the slot, and it grows that slot again. -/
theorem detachFrom (h : owner.Grows pre g) (hk : owner.kind = .operator) {s : Slot}
    {tail : List Slot} (hs : s.id = g.id) (ht : ∀ t ∈ tail, t.isEmpty = true) (path : Path) :
    Block.detachFrom path g.id { owner with slots := pre ++ s :: tail } =
      .ok { owner with slots := pre ++ [g.cleared] } := by
  have hslot := h.slot? (b := { owner with slots := pre ++ s :: tail }) hs rfl
  have hemptied : Block.connect { owner with slots := pre ++ s :: tail } g.id none =
      { owner with slots := pre ++ { s with connected := none } :: tail } := by
    rw [connect, modifySlot, modifyFirst_split hs h.first]
  have hoperands : connectedSlots
      { owner with slots := pre ++ { s with connected := none } :: tail } = pre :=
    filter_connected h.filled (List.forall_mem_cons.mpr ⟨rfl, ht⟩)
  rw [detachFrom_of_operator path hslot hk, hemptied, hoperands, h.next, h.labeled]
  rfl

end Grows

end Block

namespace Edit

open Block

/-- **Detaching undoes attaching.** In whatever a run of edits made of a placed template, a block may
be attached to the growth slot at the end of an operator, where a copy of it stands then; detaching it
gives the tree from before, where only the literal and the hint of the growth slot are lost. Nothing
is attached if the number of the slot that grows in between is too long to be written, which takes
that many edits. -/
theorem detach_attach {start root owner template : Block} {n : Nat} {path : Path} {g : Slot}
    (hstart : Catalog.Placed start) (hrun : Edited start n root)
    (howner : root.at? path = some owner) (hk : owner.kind = .operator)
    (hg : owner.slots.getLast? = some g) (he : g.isEmpty = true) (hv : template.kind ≠ .value)
    (suffix : Nat → String) (first second : Nat) :
    owner.slots.map Slot.label = ((List.range' 1 owner.connectedSlots.length).map
        fun i => "Condition " ++ Text.ofNat i) ++ ["Add Condition"] ∧
      ((∃ filled, (attach path g.id template).apply suffix first root = .ok filled ∧
          filled.at? (path ++ [g.id]) = some (template.instantiate suffix first) ∧
          (detach path g.id).apply suffix second filled = .ok (root.replaceAt path
            (owner.modifySlot g.id fun s => { s with value := none, inputType := none }))) ∨
        (attach path g.id template).apply suffix first root =
            .error (.numeral .tooLongToWrite) ∧ 10 ^ Text.maxDigits ≤ n + 2) := by
  have hregular := hrun.regular hstart owner (mem_nested_of_at? howner)
  have hgrows := hregular.grows hk hg he
  generalize owner.slots.dropLast = pre at hgrows
  have hoperands : owner.connectedSlots = pre := by
    rw [connectedSlots, hgrows.slots]
    exact filter_connected hgrows.filled (by simpa using hgrows.empty)
  refine ⟨hoperands ▸ hgrows.map_label, ?_⟩
  have hrestored : (owner.modifySlot g.id fun s => { s with value := none, inputType := none }) =
      { owner with slots := pre ++ [g.cleared] } := by
    rw [modifySlot, hgrows.slots, modifyFirst_split rfl hgrows.first]
    rfl
  rw [apply, editAt_of_at? howner, hrestored, hgrows.attachTo_eq hk hv]
  obtain ⟨s, tail, hs, hconnected, htail, hattach⟩ | ⟨hfault, hlong⟩ :=
    hgrows.attachOperand (hregular.slots hk).numbered (template.instantiate suffix first)
  · refine Or.inl ⟨_, by rw [hattach]; rfl, ?_, ?_⟩
    · rw [at?_append, at?_replaceAt howner, Option.bind_some, at?, child?, hgrows.slot? hs rfl,
        Option.bind_some, hconnected]
      rfl
    · rw [apply, editAt_of_at? (at?_replaceAt howner _), hgrows.detachFrom hk hs htail path]
      exact congrArg Except.ok (replaceAt_replaceAt root _ _ path)
  · exact Or.inr ⟨by rw [hfault]; rfl, hlong⟩

/-- The growth slot is filled and emptied again after the first of two operands was detached. -/
theorem detach_attach_gap : ∃ start root filled : Block,
    Catalog.Placed start ∧ Edited start 3 root ∧
      root.slots.map Slot.id = ["condition-2", "condition-3"] ∧
      (attach [] "condition-3" (Catalog.operatorBlock "or" "OR" [])).apply History.suffix 3 root =
        .ok filled ∧
      (detach [] "condition-3").apply History.suffix 3 filled = .ok root := by
  have hand : Catalog.find? "and" = some _ := rfl
  have hnot : Catalog.find? "not" = some _ := rfl
  have hstart := Catalog.Placed.moved (Catalog.mem_templates_of_find? hand) "and"
  have hdropped := Catalog.mem_templates_of_find? hnot
  have hone : Edited { Catalog.operatorBlock "and" "AND" [] with isTemplate := false } 1 _ :=
    .edit .start History.suffix 1 (attach [] "condition-1" _) hdropped nofun rfl
  have htwo : Edited _ 2 _ :=
    .edit hone History.suffix 2 (attach [] "condition-2" _) hdropped nofun rfl
  have hthree : Edited _ 3 _ :=
    .edit htwo History.suffix 3 (detach [] "condition-1") trivial nofun rfl
  have hv : (Catalog.operatorBlock "or" "OR" []).kind ≠ .value := by decide
  obtain ⟨-, ⟨filled, hattach, -, hdetach⟩ | ⟨hfault, -⟩⟩ :=
    detach_attach hstart hthree (show Block.at? _ [] = some _ from rfl) rfl rfl rfl hv
      History.suffix 3 3
  · refine ⟨_, _, filled, hstart, hthree, ?_, hattach, hdetach.trans (congrArg Except.ok ?_)⟩
    · decide +kernel
    · rfl
  · cases hfault

end Edit

end AccessTree
