import AccessTree.Proofs.Edit.Splice
import AccessTree.Proofs.Json.Fields

/-! # Edits keep blocks in order

An edit of an orderly block gives an orderly block (`Edit.orderly`), unless it adds a parameter to an
operator. A `Filled` operator grows exactly if the slot that was filled was its empty slot and the
bound is not reached, and detaching always makes room for the new growth slot. A new parameter slot
gets the number of parameters there are, so that the numbers stay without gaps.

The copy of a template has the outlines of the template (`outline_renewed`), so its blocks are in
order if those of the template are. -/

namespace AccessTree.Block

theorem orderly_of_alike {b c : Block} (h : Alike c b) (hb : b.Orderly) : c.Orderly :=
  hb.of_outline h.outline.symm

/-- Connecting something else to a slot of a block that is no operator. -/
theorem orderly_connect {b : Block} (hb : b.Orderly)
    (hk : b.kind ≠ .operator) (slot : String) (child : Option Block) :
    (b.connect slot child).Orderly := by
  have hids := map_id_connect b slot child
  refine ⟨hids ▸ hb.distinct, fun h => absurd h hk, fun h => absurd h hk, ?_⟩
  rw [filterMap_parameterDigits?, hids, ← filterMap_parameterDigits?]
  exact hb.parameters

/-! ### Operators -/

/-- An operator with other slots. -/
theorem Orderly.of_operands {b c : Block} (hb : b.Orderly) (hk : b.kind = .operator)
    (hp : c.properties = b.properties) (hd : (c.slots.map Slot.id).Nodup)
    (hn : c.slots.filterMap Slot.parameterDigits? = [])
    (ho : Operands b.maxInputs (c.slots.map Slot.isEmpty)) : c.Orderly := by
  refine ⟨hd, fun _ => ?_, fun _ => hn, ?_⟩
  · rw [maxInputs_congr hp]
    exact ho
  · have hcount := hb.parameters
    rw [hb.noParameter hk] at hcount
    rw [hn, property, hp]
    exact hcount

theorem eq_nil_of_getLast? {α : Type} {xs ys : List α} {a : α} (hd : (xs ++ a :: ys).Nodup)
    (hl : (xs ++ a :: ys).getLast? = some a) : ys = [] := by
  by_contra hne
  rw [List.append_cons, List.getLast?_append_of_ne_nil _ hne] at hl
  exact (List.nodup_cons.mp (List.nodup_append.mp hd).2.1).1 (List.mem_of_getLast? hl)

/-- An operator whose slots have kept their ids, with something connected to one of them. Before and
after that slot nothing was connected or taken away. -/
structure Filled (operator filled : Block) (before after : List Bool) : Prop where
  properties : filled.properties = operator.properties
  ids : filled.slots.map Slot.id = operator.slots.map Slot.id
  flags : filled.slots.map Slot.isEmpty = before ++ false :: after

theorem filled_relabeled {operator : Block} {slot : String} {s : Slot} {pre post : List Slot}
    (hid : s.id = slot) (hb : operator.slots = pre ++ s :: post)
    (hf : ∀ f, operator.modifySlot slot f = { operator with slots := pre ++ f s :: post })
    (operand : Block) : Filled operator (operator.connect slot (some operand)).relabeled
      (pre.map Slot.isEmpty) (post.map Slot.isEmpty) := by
  have houtline : (operator.connect slot (some operand)).relabeled.slots.map Slot.outline =
      pre.map Slot.outline ++ (slot, false) :: post.map Slot.outline := by
    rw [relabeled, map_relabel (fun _ _ => rfl), connect, hf]
    simp [Slot.outline, Slot.isEmpty, hid]
  refine ⟨rfl, ?_, ?_⟩
  · have := congrArg (List.map Prod.fst) houtline
    simpa [Slot.outline, Function.comp_def, hb, hid] using this
  · simpa [Slot.outline, Function.comp_def] using congrArg (List.map Prod.snd) houtline

namespace Filled

variable {operator filled : Block} {before after : List Bool}

theorem isFull_iff (h : Filled operator filled before after) : filled.isFull = true ↔
    ∃ n, operator.maxInputs = some n ∧ n ≤ (before ++ false :: after).count false := by
  rw [Block.isFull_iff, length_connectedSlots, h.flags, maxInputs_congr h.properties]

theorem parameters_eq_nil (h : Filled operator filled before after) (ho : operator.Orderly)
    (hk : operator.kind = .operator) : filled.slots.filterMap Slot.parameterDigits? = [] := by
  rw [filterMap_parameterDigits?, h.ids, ← filterMap_parameterDigits?, ho.noParameter hk]

/-- It needs no growth slot if its slots are those of an operator. -/
theorem orderly (h : Filled operator filled before after) (ho : operator.Orderly)
    (hk : operator.kind = .operator)
    (hops : Operands operator.maxInputs (before ++ false :: after)) : filled.Orderly :=
  ho.of_operands hk h.properties (h.ids ▸ ho.distinct) (h.parameters_eq_nil ho hk)
    (h.flags ▸ hops)

/-- It needs a growth slot if all its slots are filled and the bound is not reached. -/
theorem orderly_grown (h : Filled operator filled before after) (ho : operator.Orderly)
    (hk : operator.kind = .operator) {n : Nat}
    (hall : before ++ false :: after = List.replicate n false) (hn : filled.isFull = false)
    {g : Slot} (hg : Slot.nextGrowth filled.slots = .ok g) :
    Orderly { filled with slots := filled.slots ++ [g] } := by
  obtain ⟨hempty, hgp, hnew⟩ := Slot.nextGrowth_eq_ok hg
  refine ho.of_operands hk h.properties ?_ ?_ ?_
  · rw [List.map_append, List.map_singleton, ← List.concat_eq_append]
    exact List.Nodup.concat hnew (h.ids ▸ ho.distinct)
  · rw [List.filterMap_append, h.parameters_eq_nil ho hk]
    simp [hgp]
  · rw [List.map_append, h.flags, hall, List.map_singleton, hempty]
    refine .growing n fun m hm => ?_
    by_contra hle
    have hfull := h.isFull_iff.mpr ⟨m, hm, by rw [hall, List.count_replicate_self]; omega⟩
    exact Bool.false_ne_true (hn.symm.trans hfull)

end Filled

/-- **An operator with one more operand.** -/
theorem orderly_attachOperand {operator operand edited : Block} {slot : String} {s : Slot}
    (ho : operator.Orderly) (hk : operator.kind = .operator) (hs : operator.slot? slot = some s)
    (h : operator.attachOperand slot operand = .ok edited) : edited.Orderly := by
  obtain ⟨hid, pre, post, hb, hf⟩ := slot?_split hs
  obtain ⟨filled, hfilled, hcases⟩ := attachOperand_cases h
  have hfill := hfilled ▸ filled_relabeled hid hb hf operand
  have hops := ho.operands hk
  rw [hb, List.map_append, List.map_cons] at hops
  have hlast : filled.slots.getLast?.map Slot.id = some slot ↔ post = [] := by
    have hdist := ho.distinct
    rw [hb, List.map_append, List.map_cons, hid] at hdist
    rw [← List.getLast?_map, hfill.ids, hb, List.map_append, List.map_cons, hid]
    exact ⟨fun hl => by simpa using eq_nil_of_getLast? hdist hl, fun hp => by simp [hp]⟩
  cases he : s.isEmpty with
  | false =>
    -- an operand takes the place of another one
    rw [he] at hops
    rcases hcases with ⟨hl, hn, -⟩ | ⟨-, rfl⟩
    · rw [hlast.mp hl] at hops hfill
      have hfull := hfill.isFull_iff.mpr ((hops.of_append_false).imp fun n hn => ⟨hn.1, hn.2.le⟩)
      exact absurd (hn.symm.trans hfull) Bool.false_ne_true
    · exact hfill.orderly ho hk hops
  | true =>
    -- the empty slot is filled
    rw [he] at hops
    obtain ⟨hpost, n, hpre, hroom⟩ := hops.of_append_true
    obtain rfl : post = [] := by simpa using hpost
    have hall : pre.map Slot.isEmpty ++ false :: List.map Slot.isEmpty [] =
        List.replicate (n + 1) false := by
      rw [hpre, List.replicate_succ']
      rfl
    rcases hcases with ⟨-, hn, g, hg, rfl⟩ | ⟨hor, rfl⟩
    · exact hfill.orderly_grown ho hk hall hn hg
    · obtain ⟨m, hm, hle⟩ := hfill.isFull_iff.mp (hor.resolve_left fun hl => hl (hlast.mpr rfl))
      rw [hall, List.count_replicate_self] at hle
      have hlt := hroom m hm
      refine hfill.orderly ho hk ?_
      rw [hall]
      exact .full (n + 1) (by rw [hm]; congr 1; omega)

/-- **An operator with one operand less.** -/
theorem orderly_regrown {operator : Block} {slot : String} {s g : Slot}
    (ho : operator.Orderly) (hk : operator.kind = .operator) (hs : operator.slot? slot = some s)
    (hg : Slot.nextGrowth (operator.connect slot none).connectedSlots = .ok g) :
    Orderly { operator.connect slot none with
      slots := Slot.relabel 1 (operator.connect slot none).connectedSlots ++ [g] } := by
  obtain ⟨hid, pre, post, hb, hf⟩ := slot?_split hs
  obtain ⟨hempty, hgp, hnew⟩ := Slot.nextGrowth_eq_ok hg
  have hids := map_id_connect operator slot none
  generalize he : operator.connect slot none = emptied at hg hnew hids ⊢
  have hslots : emptied.slots = pre ++ { s with connected := none } :: post := by
    rw [← he, connect, hf]
  have hsub : (emptied.connectedSlots.map Slot.id).Sublist (operator.slots.map Slot.id) := by
    rw [← hids]
    exact List.filter_sublist.map _
  refine ho.of_operands hk ?_ ?_ ?_ ?_
  · rw [← he]
    rfl
  · rw [List.map_append, map_relabel fun _ _ => rfl, List.map_singleton, ← List.concat_eq_append]
    exact List.Nodup.concat hnew (ho.distinct.sublist hsub)
  · have hparams := hsub.filterMap (Text.numbered? Slot.parameterStem)
    rw [← filterMap_parameterDigits? operator.slots, ho.noParameter hk, List.sublist_nil] at hparams
    rw [List.filterMap_append, filterMap_parameterDigits? (Slot.relabel _ _),
      map_relabel fun _ _ => rfl, hparams]
    simp [hgp]
  · rw [List.map_append, map_relabel fun _ _ => rfl, map_isEmpty_connectedSlots,
      List.map_singleton, hempty]
    refine .growing _ fun m hm => ?_
    have hops := ho.operands hk
    rw [hb, List.map_append, List.map_cons] at hops
    rw [length_connectedSlots, hslots, List.map_append, List.map_cons]
    exact hops.count_lt hm

/-! ### Parameters -/

theorem length_filter_isParameter (slots : List Slot) :
    (slots.filter Slot.isParameter).length = (slots.filterMap Slot.parameterDigits?).length := by
  induction slots with
  | nil => rfl
  | cons s rest ih =>
    cases hs : s.parameterDigits? <;> simp [Slot.isParameter, hs] <;> exact ih

theorem perm_insertParameter (new : Slot) (slots : List Slot) :
    (Slot.insertParameter new slots).Perm (new :: slots) := by
  induction slots with
  | nil => exact .refl _
  | cons s rest ih =>
    rw [Slot.insertParameter]
    split
    · exact .swap new s rest
    · exact (ih.cons s).trans (.swap new s rest)

/-- The new parameter slot becomes the last one. -/
theorem filterMap_insertParameter {new : Slot} {ds : List Nat}
    (h : new.parameterDigits? = some ds) (slots : List Slot) :
    (Slot.insertParameter new slots).filterMap Slot.parameterDigits? =
      slots.filterMap Slot.parameterDigits? ++ [ds] := by
  induction slots with
  | nil => simp [Slot.insertParameter, h]
  | cons s rest ih =>
    rw [Slot.insertParameter]
    split
    · next hl =>
      obtain ⟨hs, hrest⟩ := Bool.and_eq_true_iff.mp hl
      obtain ⟨es, hes⟩ := Option.isSome_iff_exists.mp hs
      have hnone : rest.filterMap Slot.parameterDigits? = [] :=
        isParameter_eq_false_iff.mp (by simpa using hrest)
      simp [h, hes, hnone]
    · rw [List.filterMap_cons, ih, List.filterMap_cons]
      cases s.parameterDigits? <;> rfl

/-- The number of the next parameter is the number of parameters, if they are counted. -/
theorem nextParameter_eq {b : Block}
    (h : Counted (b.slots.filterMap Slot.parameterDigits?) (b.property "parameterCount")) :
    b.nextParameter = (b.slots.filterMap Slot.parameterDigits?).length := by
  have hlen := length_filter_isParameter b.slots
  rw [nextParameter]
  split
  · next n hn =>
    by_cases hd : b.slots.filterMap Slot.parameterDigits? = []
    · rw [hd, h.none hd n hn]
      rfl
    · have hc := h.some hd
      rw [hn, Json.isNumber, decide_eq_true_eq] at hc
      exact hc
  · rw [hlen]

/-- The parameters stay counted. -/
theorem counted_addParameter {owner edited : Block}
    (hcount : Counted (owner.slots.filterMap Slot.parameterDigits?)
      (owner.property "parameterCount"))
    (h : owner.addParameter = .ok edited) :
    Counted (edited.slots.filterMap Slot.parameterDigits?) (edited.property "parameterCount") := by
  obtain ⟨s, hslot, rfl⟩ := addParameter_cases h
  obtain ⟨number, position, hn, -, hs⟩ := parameterSlot_cases hslot
  have hid : s.id = Slot.parameterStem ++ number := by rw [hs]
  rw [nextParameter_eq hcount] at hn ⊢
  generalize hd : owner.slots.filterMap Slot.parameterDigits? = digits at hn hcount ⊢
  obtain ⟨rfl, hshort⟩ := Text.writeInt_eq_ok hn
  rw [Int.natAbs_natCast] at hshort
  have hdigits : s.parameterDigits? = some (Text.charDigits (Text.natChars digits.length)) := by
    rw [Slot.parameterDigits?, hid, Text.ofInt_natCast, Text.numbered?_append_ofNat]
  rw [filterMap_insertParameter hdigits, hd, property, Json.valueAt_setField, if_pos rfl]
  refine ⟨fun ds hds => ?_, ?_, fun _ => ?_, fun hnil => by simp at hnil⟩
  · rcases List.mem_append.mp hds with hds | hds
    · exact hcount.short ds hds
    · rw [List.mem_singleton.mp hds, Text.length_charDigits]
      exact hshort
  · rw [List.map_append, List.map_singleton, Text.ofDigits_charDigits, List.length_append,
      List.length_singleton, List.range_succ]
    exact hcount.perm.append_right _
  · simp [Json.isNumber]

/-- **A block with one more parameter.** -/
theorem orderly_addParameter {owner edited : Block} (ho : owner.Orderly)
    (hk : owner.kind ≠ .operator) (h : owner.addParameter = .ok edited) : edited.Orderly := by
  have hcount := counted_addParameter ho.parameters h
  obtain ⟨s, hslot, rfl⟩ := addParameter_cases h
  obtain ⟨-, -, -, hnew, -⟩ := parameterSlot_cases hslot
  refine ⟨?_, fun hk' => absurd hk' hk, fun hk' => absurd hk' hk, hcount⟩
  rw [((perm_insertParameter s owner.slots).map Slot.id).nodup_iff, List.map_cons,
    List.nodup_cons]
  exact ⟨slot?_eq_none hnew, ho.distinct⟩

/-! ### Copies of templates -/

/-- What is alike in a slot of a template and in the slot with a copy of what is connected to it. -/
theorem map_renewedSlots_of {α : Type} {view : Slot → α} {suffix : Nat → String}
    {slots : List Slot}
    (hview : ∀ s ∈ slots, ∀ k, view { s with connected := s.connected.map (renewed suffix k) } =
      view s) :
    ∀ first, (renewedSlots suffix first slots).map view = slots.map view := by
  induction slots with
  | nil => simp [renewedSlots]
  | cons s rest ih =>
    intro first
    have hs := hview s List.mem_cons_self first
    have hrest := ih fun t ht => hview t (List.mem_cons_of_mem s ht)
    obtain ⟨id, accepts, label, value, comparator, inputType, _ | b⟩ := s
    · rw [renewedSlots, List.map_cons, hrest, List.map_cons]
    · rw [renewedSlots, List.map_cons, hrest, List.map_cons]
      exact congrArg (· :: _) hs

/-- The slots of a copy are like those of its template, but for what is connected. -/
theorem map_renewedSlots {α : Type} {view : Slot → α}
    (hview : ∀ s renew, view { s with connected := s.connected.map renew } = view s)
    (suffix : Nat → String) (slots : List Slot) (first : Nat) :
    (renewedSlots suffix first slots).map view = slots.map view :=
  map_renewedSlots_of (fun s _ _ => hview s _) first

/-- The slots of a copy are those of the template, with copies of what is connected. -/
theorem mem_renewedSlots {suffix : Nat → String} {slots : List Slot} {t : Slot} :
    ∀ {first}, t ∈ renewedSlots suffix first slots →
      ∃ s ∈ slots, ∃ k, t = { s with connected := s.connected.map (renewed suffix k) } := by
  induction slots with
  | nil => simp [renewedSlots]
  | cons s rest ih =>
    intro first ht
    obtain ⟨id, accepts, label, value, comparator, inputType, _ | b⟩ := s
    all_goals
      rw [renewedSlots] at ht
      rcases List.mem_cons.mp ht with rfl | ht
      · exact ⟨_, List.mem_cons_self, first, rfl⟩
      · obtain ⟨s, hs, h⟩ := ih ht
        exact ⟨s, by simp [hs], h⟩

/-- The blocks below the slots of a copy are copies. -/
theorem connected_renewedSlots {suffix : Nat → String} {slots : List Slot} {t : Slot} {c : Block}
    {first : Nat} (ht : t ∈ renewedSlots suffix first slots) (hc : t.connected = some c) :
    ∃ s ∈ slots, ∃ b k, s.connected = some b ∧ c = renewed suffix k b := by
  obtain ⟨s, hs, k, rfl⟩ := mem_renewedSlots ht
  obtain ⟨b, hb, rfl⟩ := Option.map_eq_some_iff.mp hc
  exact ⟨s, hs, b, k, hb, rfl⟩

theorem renewed_eq (suffix : Nat → String) (first : Nat) (b : Block) :
    renewed suffix first b = { b with
      id := b.id ++ "-" ++ suffix first
      slots := renewedSlots suffix (first + 1) b.slots
      isTemplate := false } := by
  cases b; rw [renewed]

/-- **A copy has the outline of its template.** -/
theorem outline_renewed (suffix : Nat → String) (first : Nat) (b : Block) :
    (renewed suffix first b).outline = b.outline := by
  rw [renewed_eq, outline, outline, map_renewedSlots fun s renew => by
    rw [Slot.outline, Slot.isEmpty, Option.isNone_map]; rfl]

theorem orderly_renewed (suffix : Nat → String) {b : Block} : ∀ (first : Nat),
    (∀ c ∈ b.nested, c.Orderly) → ∀ c ∈ (renewed suffix first b).nested, c.Orderly := by
  induction b using Block.induction with
  | step b ih =>
    intro first hb c hc
    rcases mem_nested.mp hc with rfl | ⟨t, ht, d, hd, hcd⟩
    · exact (hb b b.self_mem_nested).of_outline (outline_renewed suffix first b).symm
    · rw [renewed_eq] at ht
      obtain ⟨s, hs, e, k, he, rfl⟩ := connected_renewedSlots ht hd
      exact ih s hs e he _ (fun f hf => hb f (mem_nested_of_connected hs he hf)) c hcd

theorem alike_instantiate (suffix : Nat → String) (first : Nat) (b : Block) :
    Alike (b.instantiate suffix first) (renewed suffix first b) :=
  ⟨rfl, rfl, rfl, by rw [instantiate, List.map_map]; rfl⟩

/-- Each slot of a copy is one of the template, and empty if that one is. -/
theorem mem_slots_instantiate {suffix : Nat → String} {first : Nat} {b : Block} {t : Slot}
    (h : t ∈ (b.instantiate suffix first).slots) :
    ∃ s ∈ b.slots, t.accepts = s.accepts ∧ (s.isEmpty = true → t.isEmpty = true) := by
  obtain ⟨u, hu, rfl⟩ := List.mem_map.mp h
  rw [renewed_eq] at hu
  obtain ⟨s, hs, k, rfl⟩ := mem_renewedSlots hu
  refine ⟨s, hs, rfl, fun he => ?_⟩
  have hnone : s.connected = none := Slot.isEmpty_iff.mp he
  simp [Slot.isEmpty, Slot.initialized, hnone]

/-- The blocks of a copy are in order if those of its template are. -/
theorem orderly_instantiate {suffix : Nat → String} {first : Nat} {b : Block}
    (hb : ∀ c ∈ b.nested, c.Orderly) : ∀ c ∈ (b.instantiate suffix first).nested, c.Orderly := by
  intro c hc
  have halike := alike_instantiate suffix first b
  have hr := orderly_renewed suffix first hb
  rw [nested_eq] at hc hr
  rcases List.mem_cons.mp hc with rfl | hc
  · exact orderly_of_alike halike (hr _ (by simp))
  · have hd := halike.descendants
    rw [descendants, descendants] at hd
    rw [hd] at hc
    exact hr c (by simp [hc])

end AccessTree.Block

namespace AccessTree.Edit

/-- **An edit of one block keeps it in order**, unless it adds a parameter to an operator. -/
theorem orderly {suffix : Nat → String} {first : Nat} {e : Edit} {owner edited : Block}
    (ho : owner.Orderly) (hp : e = .addParameter e.path → owner.kind ≠ .operator)
    (h : e.onBlock suffix first owner = .ok edited) : edited.Orderly := by
  cases e with
  | attach path slot template =>
    obtain ⟨s, hs, -, ⟨-, rfl⟩ | ⟨-, hk, -, h⟩ | ⟨-, hk, rfl⟩⟩ := Block.attachTo_cases h
    · exact Block.orderly_of_alike (Block.alike_modifySlot owner slot fun _ => rfl) ho
    · exact Block.orderly_attachOperand ho hk hs h
    · exact Block.orderly_connect ho hk slot _
  | detach path slot =>
    obtain ⟨s, emptied, hs, rfl, ⟨hk, g, hg, rfl⟩ | ⟨hk, rfl⟩⟩ := Block.detachFrom_cases h
    · exact Block.orderly_regrown ho hk hs hg
    · exact Block.orderly_connect ho hk slot none
  | setValue path slot value =>
    obtain ⟨-, rfl⟩ := Block.writeSlot_eq_ok.mp h
    exact Block.orderly_of_alike (Block.alike_modifySlot owner slot fun _ => rfl) ho
  | setComparator path slot comparator =>
    obtain ⟨c, -, h⟩ := bind_eq_ok.mp h
    obtain ⟨-, rfl⟩ := Block.writeSlot_eq_ok.mp h
    exact Block.orderly_of_alike (Block.alike_modifySlot owner slot fun _ => rfl) ho
  | addParameter path => exact Block.orderly_addParameter ho (hp rfl) h

end AccessTree.Edit
