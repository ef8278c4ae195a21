import AccessTree.Condition.Basic
import AccessTree.Proofs.Edit.WellFormed

/-! # Compositions from the catalog

An operator block of the catalog names its operator, and a block of another kind has slots for
literals only. Edits that drop nothing but templates of the catalog keep this: no operator gets more
operands than it may have, each operand is a condition or an operator, and nothing is connected to a
block of another kind (`Assembled`). A parameter slot, which may be added to any block, takes
literals only and counts as no operand. A composition is what a run of such edits makes of a placed
template (`Composed`). -/

namespace AccessTree

namespace Block

/-! ### Children -/

theorem children_connect {b : Block} {slot : String} {s : Slot} (h : b.slot? slot = some s)
    (child : Option Block) : ∃ before after,
      b.children = before ++ s.connected.toList ++ after ∧
        (b.connect slot child).children = before ++ child.toList ++ after := by
  obtain ⟨-, pre, post, hb, hf⟩ := slot?_split h
  refine ⟨pre.flatMap fun s => s.connected.toList, post.flatMap fun s => s.connected.toList, ?_, ?_⟩
  · rw [children_eq_flatMap, hb]
    simp
  · rw [children_eq_flatMap, connect, hf]
    simp

/-- A growth slot has no child. -/
theorem children_append_slot {b : Block} {s : Slot} (h : s.isEmpty = true) (slots : List Slot) :
    children { b with slots := slots ++ [s] } = children { b with slots := slots } := by
  rw [children_eq_flatMap, children_eq_flatMap, List.flatMap_append, List.flatMap_singleton,
    Slot.isEmpty_iff.mp h, Option.toList_none, List.append_nil]

/-- **An operand** takes the place of what was connected to its slot. -/
theorem children_attachOperand {operator operand edited : Block} {slot : String} {s : Slot}
    (hs : operator.slot? slot = some s) (h : operator.attachOperand slot operand = .ok edited) :
    edited.kind = operator.kind ∧ edited.properties = operator.properties ∧
      ∃ before after, operator.children = before ++ s.connected.toList ++ after ∧
        edited.children = before ++ operand :: after := by
  obtain ⟨before, after, hold, hnew⟩ := children_connect hs (some operand)
  rw [← (alike_relabeled _).children, Option.toList_some, List.append_assoc,
    List.singleton_append] at hnew
  obtain ⟨filled, rfl, ⟨-, -, g, hg, rfl⟩ | ⟨-, rfl⟩⟩ := attachOperand_cases h
  · have hempty := (Slot.nextGrowth_eq_ok hg).1
    exact ⟨rfl, rfl, before, after, hold, (children_append_slot hempty _).trans hnew⟩
  · exact ⟨rfl, rfl, before, after, hold, hnew⟩

/-- **Detaching** takes one child away, if there is one. -/
theorem children_detachFrom {path : Path} {slot : String} {owner edited : Block}
    (h : Block.detachFrom path slot owner = .ok edited) :
    edited.kind = owner.kind ∧ edited.properties = owner.properties ∧
      edited.children.Sublist owner.children := by
  obtain ⟨s, emptied, hs, hemptied, hcases⟩ := detachFrom_cases h
  obtain ⟨before, after, hold, hnew⟩ := children_connect hs none
  have hsub : emptied.children.Sublist owner.children := by
    rw [hemptied, hold, hnew, Option.toList_none, List.append_nil]
    exact (List.sublist_append_left before _).append_right after
  have hkind : emptied.kind = owner.kind := by rw [hemptied]; rfl
  have hproperties : emptied.properties = owner.properties := by rw [hemptied]; rfl
  rcases hcases with ⟨-, g, hg, rfl⟩ | ⟨-, rfl⟩
  · have hempty := (Slot.nextGrowth_eq_ok hg).1
    have hchildren := calc
      children { emptied with slots := Slot.relabel 1 emptied.connectedSlots ++ [g] }
      _ = children (relabeled { emptied with slots := emptied.connectedSlots }) :=
        children_append_slot hempty _
      _ = children { emptied with slots := emptied.connectedSlots } := (alike_relabeled _).children
      _ = emptied.children := by
        rw [children_eq_flatMap, children_eq_flatMap, flatMap_connectedSlots]
        intro s hs
        rw [Slot.isEmpty_iff.mp hs, Option.toList_none]
    exact ⟨hkind, hproperties, hchildren ▸ hsub⟩
  · exact ⟨hkind, hproperties, hsub⟩

theorem children_addParameter {owner edited : Block} (h : owner.addParameter = .ok edited) :
    edited.children = owner.children := by
  obtain ⟨s, hs, rfl⟩ := addParameter_cases h
  obtain ⟨-, -, -, -, rfl⟩ := parameterSlot_cases hs
  rw [children_eq_flatMap, children_eq_flatMap, flatMap_insertParameter rfl]

/-! ### Assembled blocks -/

/-- **A block as the catalog and its edits make it.** -/
inductive Assembled (b : Block) : Prop where
  /-- An operator that names itself, with no more operands than it may have. -/
  | operator (kind : b.kind = .operator) (o : Operator)
    (named : b.property "operator" = .str o.name)
    (bound : o = .not → b.maxInputs = some 1)
    (bounded : ∀ n, b.maxInputs = some n → b.children.length ≤ n)
    (operands : ∀ c ∈ b.children, c.kind ≠ .value)
  /-- Another block, to which nothing is connected, and whose slots take literals only. -/
  | literals (kind : b.kind ≠ .operator) (childless : b.children = [])
    (accepts : ∀ s ∈ b.slots, s.accepts = [.value])

namespace Assembled

variable {b c owner edited : Block}

/-- What matters is the kind, the properties, the kinds of the children, and what slots take. -/
theorem congr (h : b.Assembled) (hk : c.kind = b.kind) (hp : c.properties = b.properties)
    (hc : c.children.map Block.kind = b.children.map Block.kind)
    (ha : ∀ s ∈ c.slots, ∃ u ∈ b.slots, s.accepts = u.accepts) : c.Assembled := by
  have hlength : c.children.length = b.children.length := by
    simpa using congrArg List.length hc
  have hproperty := property_congr hp "operator"
  have hmax : c.maxInputs = b.maxInputs := maxInputs_congr hp
  rcases h with ⟨kind, o, named, bound, bounded, operands⟩ | ⟨kind, childless, accepts⟩
  · refine .operator (hk.trans kind) o (hproperty.trans named) (hmax ▸ bound) ?_ ?_
    · rw [hmax, hlength]
      exact bounded
    · intro d hd
      have hmem : d.kind ∈ b.children.map Block.kind := hc ▸ List.mem_map_of_mem hd
      obtain ⟨e, he, hde⟩ := List.mem_map.mp hmem
      rw [← hde]
      exact operands e he
  · refine .literals (hk ▸ kind) ?_ fun s hs => ?_
    · exact List.eq_nil_of_length_eq_zero (by rw [hlength, childless, List.length_nil])
    · obtain ⟨u, hu, hsu⟩ := ha s hs
      exact hsu.trans (accepts u hu)

/-- Writing a field of a slot. -/
theorem modifySlot (h : b.Assembled) (slot : String) {f : Slot → Slot}
    (hcore : ∀ s, (f s).core = s.core) (haccepts : ∀ s, (f s).accepts = s.accepts) :
    (b.modifySlot slot f).Assembled := by
  refine h.congr rfl rfl ?_ fun s hs => ?_
  · rw [(alike_modifySlot b slot hcore).children]
  · rcases Slot.mem_modifyFirst hs with hs | ⟨u, hu, rfl⟩
    · exact ⟨s, hs, rfl⟩
    · exact ⟨u, hu, haccepts u⟩

/-- **An operator with other operands**, or another number of parameters. -/
theorem withOperands (h : b.Assembled) (hb : b.kind = .operator) (hk : c.kind = b.kind)
    (hp : ∀ key, key ≠ "parameterCount" → c.property key = b.property key)
    (hbounded : ∀ n, b.maxInputs = some n → c.children.length ≤ n)
    (hoperands : ∀ d ∈ c.children, d.kind ≠ .value) : c.Assembled := by
  rcases h with ⟨kind, o, named, bound, -, -⟩ | ⟨kind, -, -⟩
  · have hmax : c.maxInputs = b.maxInputs := by
      rw [maxInputs, maxInputs, hp "maxInputs" (by decide)]
    have hnamed : c.property "operator" = .str o.name := (hp "operator" (by decide)).trans named
    exact .operator (hk.trans kind) o hnamed (hmax ▸ bound) (hmax ▸ hbounded) hoperands
  · exact absurd hb kind

theorem bounded (h : b.Assembled) (hk : b.kind = .operator) {n : Nat} (hn : b.maxInputs = some n) :
    b.children.length ≤ n := by
  rcases h with ⟨-, -, -, -, hbounded, -⟩ | ⟨kind, -, -⟩
  · exact hbounded n hn
  · exact absurd hk kind

theorem operands (h : b.Assembled) (hk : b.kind = .operator) :
    ∀ c ∈ b.children, c.kind ≠ .value := by
  rcases h with ⟨-, -, -, -, -, hoperands⟩ | ⟨kind, -, -⟩
  · exact hoperands
  · exact absurd hk kind

theorem accepts (h : b.Assembled) (hk : b.kind ≠ .operator) :
    ∀ s ∈ b.slots, s.accepts = [.value] := by
  rcases h with ⟨kind, -, -, -, -, -⟩ | ⟨-, -, haccepts⟩
  · exact absurd kind hk
  · exact haccepts

theorem childless (h : b.Assembled) (hk : b.kind ≠ .operator) : b.children = [] := by
  rcases h with ⟨kind, -, -, -, -, -⟩ | ⟨-, hchildless, -⟩
  · exact absurd kind hk
  · exact hchildless

end Assembled

/-! ### Edits of one block -/

/-- An operator with room for one more operand is not full. -/
theorem lt_of_requireRoom {operator : Block} {s : Slot} {n : Nat}
    (h : operator.requireRoom s = .ok ()) (hs : s.isEmpty = true)
    (hn : operator.maxInputs = some n) : operator.children.length < n := by
  have hnot : ¬ operator.isFull = true := by
    intro hfull
    rw [requireRoom, hn, hs, hfull] at h
    cases h
  by_contra hle
  rw [isFull_iff, length_connectedSlots_eq] at hnot
  exact hnot ⟨n, hn, Nat.le_of_not_lt hle⟩

theorem kind_instantiate (suffix : Nat → String) (first : Nat) (b : Block) :
    (b.instantiate suffix first).kind = b.kind := by
  rw [(alike_instantiate suffix first b).kind, renewed_eq]

/-- **Dropping a template**: an operator takes no more operands than it may have, and a block of
another kind nothing but a literal. -/
theorem assembled_attachTo {suffix : Nat → String} {first : Nat} {path : Path} {slot : String}
    {template owner edited : Block} (ho : owner.Assembled)
    (h : Block.attachTo suffix first path slot template owner = .ok edited) : edited.Assembled := by
  obtain ⟨s, hs, haccepts, hcases⟩ := attachTo_cases h
  rcases hcases with ⟨-, rfl⟩ | ⟨hv, hk, hroom, h⟩ | ⟨hv, hk, -⟩
  · exact ho.modifySlot slot (fun _ => rfl) fun _ => rfl
  · obtain ⟨hkind, hproperties, before, after, hold, hnew⟩ := children_attachOperand hs h
    have hcopy : (template.instantiate suffix first).kind ≠ .value := by
      rw [kind_instantiate]
      exact hv
    refine ho.withOperands hk hkind (fun key _ => property_congr hproperties key) ?_ ?_
    · intro n hn
      have hbound := ho.bounded hk hn
      have hlength := congrArg List.length hold
      simp only [List.length_append, Option.length_toList] at hlength
      rw [hnew, List.length_append, List.length_cons]
      by_cases he : s.isEmpty = true
      · have hlt := lt_of_requireRoom hroom he hn
        omega
      · -- the new operand takes the place of another one
        have hsome : s.connected.isSome = true :=
          Option.isSome_iff_ne_none.mpr fun hnone => he (Slot.isEmpty_iff.mpr hnone)
        simp only [hsome, if_true] at hlength
        omega
    · intro d hd
      have hmem : d ∈ owner.children ∨ d = template.instantiate suffix first := by
        rw [hold]
        rw [hnew] at hd
        simp only [List.mem_append, List.mem_cons] at hd ⊢
        tauto
      rcases hmem with hmem | rfl
      · exact ho.operands hk d hmem
      · exact hcopy
  · -- the slot takes literals only
    have hliteral := ho.accepts hk s (slot?_mem hs)
    rw [hliteral] at haccepts
    simp [hv] at haccepts

theorem assembled_detachFrom {path : Path} {slot : String} {owner edited : Block}
    (ho : owner.Assembled) (h : Block.detachFrom path slot owner = .ok edited) :
    edited.Assembled := by
  obtain ⟨hkind, hproperties, hsub⟩ := children_detachFrom h
  by_cases hk : owner.kind = .operator
  · refine ho.withOperands hk hkind (fun key _ => property_congr hproperties key) ?_
      fun d hd => ho.operands hk d (hsub.subset hd)
    intro n hn
    exact hsub.length_le.trans (ho.bounded hk hn)
  · obtain ⟨s, emptied, hs, rfl, ⟨hop, -⟩ | ⟨-, rfl⟩⟩ := detachFrom_cases h
    · exact absurd hop hk
    · refine .literals hk ?_ fun t ht => ?_
      · rw [ho.childless hk] at hsub
        exact List.sublist_nil.mp hsub
      · rcases Slot.mem_modifyFirst ht with ht | ⟨u, hu, rfl⟩
        · exact ho.accepts hk t ht
        · exact ho.accepts hk u hu

theorem assembled_addParameter {owner edited : Block} (ho : owner.Assembled)
    (h : owner.addParameter = .ok edited) : edited.Assembled := by
  have hchildren := children_addParameter h
  obtain ⟨s, hs, rfl⟩ := addParameter_cases h
  obtain ⟨number, position, -, -, rfl⟩ := parameterSlot_cases hs
  by_cases hk : owner.kind = .operator
  · refine ho.withOperands hk rfl (fun key hkey => ?_) (fun n hn => ?_) ?_
    · rw [property, property, Json.valueAt_setField, if_neg hkey.symm]
    · rw [hchildren]
      exact ho.bounded hk hn
    · rw [hchildren]
      exact ho.operands hk
  · refine .literals hk (hchildren.trans (ho.childless hk)) fun t ht => ?_
    rcases List.mem_cons.mp ((perm_insertParameter _ owner.slots).mem_iff.mp ht) with rfl | ht
    · rfl
    · exact ho.accepts hk t ht

/-- Another block in the place of one that is connected. -/
theorem Assembled.withChild {b d e : Block} {s : Slot} {before after : List Slot} (h : b.Assembled)
    (hb : b.slots = before ++ s :: after) (hd : s.connected = some d) (he : e.kind = d.kind) :
    Assembled { b with slots := before ++ { s with connected := some e } :: after } := by
  refine h.congr rfl rfl ?_ fun t ht => ?_
  · simp [children, hb, hd, he]
  · rcases List.mem_append.mp ht with ht | ht
    · exact ⟨t, by simp [hb, ht], rfl⟩
    · rcases List.mem_cons.mp ht with rfl | ht
      · exact ⟨s, by simp [hb], rfl⟩
      · exact ⟨t, by simp [hb, ht], rfl⟩

end Block

/-! ### Templates -/

namespace Catalog

theorem assembled_of_mem_templates {t : Block} (h : t ∈ templates) : t.Assembled := by
  have hoperators : ∀ t ∈ templates, t.kind = .operator → ∃ o ∈ [Operator.and, .or, .not],
      t.property "operator" = .str o.name ∧ (o = .not → t.maxInputs = some 1) := by decide
  have hothers : ∀ t ∈ templates, t.kind ≠ .operator →
      ∀ s ∈ t.slots, s.accepts = [.value] := by decide
  have hchildless : t.children = [] := Block.children_of_empty (isEmpty_of_mem_templates t h)
  by_cases hk : t.kind = .operator
  · obtain ⟨o, -, hnamed, hbound⟩ := hoperators t h hk
    refine .operator hk o hnamed hbound (fun n _ => ?_) ?_
    · rw [hchildless]
      exact Nat.zero_le n
    · simp [hchildless]
  · exact .literals hk hchildless (hothers t h hk)

/-- **Placed templates are assembled**, and nothing is below them. -/
theorem Placed.assembled {b : Block} (h : Placed b) : ∀ c ∈ b.nested, c.Assembled := by
  obtain ⟨t, ht, hout, hslots⟩ := h.template
  obtain ⟨hkind, hproperties, -⟩ := Outline.mk.inj hout
  have hempty : ∀ s ∈ b.slots, s.isEmpty = true := fun s hs => (hslots s hs).1
  have hb : b.Assembled := by
    refine (assembled_of_mem_templates ht).congr hkind hproperties ?_ fun s hs => (hslots s hs).2
    rw [Block.children_of_empty hempty, Block.children_of_empty (isEmpty_of_mem_templates t ht)]
  rw [Block.nested_of_empty hempty]
  simpa using hb

theorem Placed.ids {b : Block} (h : Placed b) : b.ids = [b.id] := by
  obtain ⟨t, -, -, hslots⟩ := h.template
  rw [Block.ids, Block.nested_of_empty fun s hs => (hslots s hs).1, List.map_singleton]

end Catalog

/-! ### Runs of edits -/

namespace Edit

/-- What is dropped is a template of the catalog. -/
def FromCatalog : Edit → Prop
  | .attach _ _ template => template ∈ Catalog.templates
  | _ => True

/-- New blocks are those of placed templates. -/
theorem exists_placed_of_mem_newBlocks {suffix : Nat → String} {first : Nat} {e : Edit} {b : Block}
    (h : e.FromCatalog) (hb : b ∈ e.newBlocks suffix first) :
    ∃ c, Catalog.Placed c ∧ b ∈ c.nested := by
  cases e with
  | attach path slot template =>
    rw [newBlocks, Block.copied] at hb
    split at hb
    · cases hb
    · exact ⟨_, .copy h suffix first, hb⟩
  | detach path slot => simp [newBlocks] at hb
  | setValue path slot value => simp [newBlocks] at hb
  | setComparator path slot comparator => simp [newBlocks] at hb
  | addParameter path => simp [newBlocks] at hb

/-- **An edit of one block** keeps it assembled. -/
theorem assembled_onBlock {suffix : Nat → String} {first : Nat} {e : Edit} {owner edited : Block}
    (ho : owner.Assembled) (h : e.onBlock suffix first owner = .ok edited) : edited.Assembled := by
  cases e with
  | attach path slot template => exact Block.assembled_attachTo ho h
  | detach path slot => exact Block.assembled_detachFrom ho h
  | setValue path slot value =>
    obtain ⟨-, rfl⟩ := Block.writeSlot_eq_ok.mp h
    exact ho.modifySlot slot (fun _ => rfl) fun _ => rfl
  | setComparator path slot comparator =>
    obtain ⟨c, -, h⟩ := bind_eq_ok.mp h
    obtain ⟨-, rfl⟩ := Block.writeSlot_eq_ok.mp h
    exact ho.modifySlot slot (fun _ => rfl) fun _ => rfl
  | addParameter path => exact Block.assembled_addParameter ho h

theorem kind_onBlock {suffix : Nat → String} {first : Nat} {e : Edit} {owner edited : Block}
    (h : e.onBlock suffix first owner = .ok edited) : edited.kind = owner.kind := by
  cases e with
  | attach path slot template =>
    obtain ⟨s, hs, -, ⟨-, rfl⟩ | ⟨-, -, -, h⟩ | ⟨-, -, rfl⟩⟩ := Block.attachTo_cases h
    · rfl
    · exact (Block.children_attachOperand hs h).1
    · rfl
  | detach path slot => exact (Block.children_detachFrom h).1
  | setValue path slot value =>
    obtain ⟨-, rfl⟩ := Block.writeSlot_eq_ok.mp h
    rfl
  | setComparator path slot comparator =>
    obtain ⟨c, -, h⟩ := bind_eq_ok.mp h
    obtain ⟨-, rfl⟩ := Block.writeSlot_eq_ok.mp h
    rfl
  | addParameter path =>
    obtain ⟨s, -, rfl⟩ := Block.addParameter_cases h
    rfl

/-- **One edit of a tree** keeps all its blocks assembled. -/
theorem assembled_apply {suffix : Nat → String} {first : Nat} {root next : Block} {e : Edit}
    (hroot : ∀ b ∈ root.nested, b.Assembled) (hc : e.FromCatalog)
    (h : e.apply suffix first root = .ok next) : ∀ b ∈ next.nested, b.Assembled := by
  obtain ⟨owner, edited, ho, he, hcases⟩ := nested_apply h
  intro b hb
  rcases hcases b hb with rfl | hb | hb |
    ⟨c, hcr, before, s, after, d, rest, hslots, hd, hrest, rfl⟩
  · exact assembled_onBlock (hroot owner (Block.mem_nested_of_at? ho)) he
  · obtain ⟨c, hplaced, hb⟩ := exists_placed_of_mem_newBlocks hc hb
    exact hplaced.assembled b hb
  · exact hroot b hb
  · have hkind := Block.root_replaceAt Block.kind (fun _ _ => rfl) hrest (kind_onBlock he)
    exact (hroot c hcr).withChild hslots hd hkind

end Edit

/-- **What a run of edits makes of a block**, with the ids that were given to new blocks on the
way. -/
inductive Composed (start : Block) : List String → Block → Prop where
  | start : Composed start [] start
  | edit {given : List String} {root next : Block} (run : Composed start given root)
    (suffix : Nat → String) (first : Nat) (e : Edit) (catalog : e.FromCatalog)
    (applied : e.apply suffix first root = .ok next) :
    Composed start (given ++ e.newIds suffix first) next

namespace Composed

variable {start next : Block} {given : List String}

/-- **All blocks of a composition are assembled.** -/
theorem assembled (h : Composed start given next) (hstart : Catalog.Placed start) :
    ∀ b ∈ next.nested, b.Assembled := by
  induction h with
  | start => exact hstart.assembled
  | edit _ suffix first e hc he ih => exact Edit.assembled_apply ih hc he

theorem root_id (h : Composed start given next) : next.id = start.id := by
  induction h with
  | start => rfl
  | edit _ suffix first e _ he ih => exact (Edit.id_apply he).trans ih

/-- Every use of an id beyond those at the start was given. -/
theorem count_ids (h : Composed start given next) (id : String) :
    next.ids.count id ≤ start.ids.count id + given.count id := by
  induction h with
  | start => exact Nat.le_add_right _ _
  | @edit given root next _ suffix first e _ he ih =>
    have hstep := (Edit.ids_apply he).count_le id
    rw [List.count_append]
    omega

/-- **The root keeps its id for itself**, unless the id is given to a new block. -/
theorem root_id_notMem (h : Composed start given next) (hstart : Catalog.Placed start)
    (hid : start.id ∉ given) : next.id ∉ next.descendants.map Block.id := by
  have hcount := h.count_ids next.id
  rw [Block.ids_eq next, List.count_cons_self, h.root_id, hstart.ids, List.count_singleton_self,
    List.count_eq_zero_of_not_mem hid] at hcount
  rw [h.root_id]
  refine List.count_eq_zero.mp ?_
  omega

end Composed

end AccessTree
