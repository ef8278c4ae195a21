import AccessTree.Catalog
import AccessTree.Edit.History
import AccessTree.Proofs.Block.Graft
import AccessTree.Proofs.Edit.Orderly

/-! # Edits keep the other operands

Attaching a block to a slot of an operator and detaching one rebuild the list of its slots, but all
that happens to the operands is that one of them is put in, replaced or taken away; of the others
nothing changes but the label (`operands_attachOperand`, `operands_regrown`). Outside of the operator
the tree is as before (`Reworked`): the blocks on the way to it keep all but what is connected to the
slot that leads there, and every path that does not end on this way leads to the same block. -/

namespace AccessTree

namespace Slot

/-! ### Operands -/

/-- The slot without its label. -/
def unlabeled (s : Slot) : Slot := { s with label := "" }

/-- The slots with a connected block, in order and without their labels. -/
def operands (slots : List Slot) : List Slot := (slots.filter fun s => !s.isEmpty).map unlabeled

theorem operands_append (xs ys : List Slot) : operands (xs ++ ys) = operands xs ++ operands ys := by
  rw [operands, List.filter_append, List.map_append]
  rfl

theorem operands_cons_of_isEmpty {s : Slot} (h : s.isEmpty = true) (rest : List Slot) :
    operands (s :: rest) = operands rest := by
  simp [operands, h]

theorem operands_cons_of_not_isEmpty {s : Slot} (h : ¬ s.isEmpty = true) (rest : List Slot) :
    operands (s :: rest) = s.unlabeled :: operands rest := by
  simp [operands, h]

/-- The labels do not matter. -/
theorem operands_relabel (slots : List Slot) : ∀ i, operands (relabel i slots) = operands slots := by
  induction slots with
  | nil => simp [relabel]
  | cons s rest ih =>
    intro i
    rw [relabel]
    by_cases hs : s.isEmpty = true
    · rw [if_pos hs, operands_cons_of_isEmpty hs, operands_cons_of_isEmpty hs, ih]
    · have hlabeled := operands_cons_of_not_isEmpty
        (s := { s with label := "Condition " ++ Text.ofNat i }) hs (relabel (i + 1) rest)
      rw [if_neg hs, hlabeled, operands_cons_of_not_isEmpty hs, ih]
      rfl

/-- Leaving out the other slots changes nothing. -/
theorem operands_filter (slots : List Slot) :
    operands (slots.filter fun s => !s.isEmpty) = operands slots := by
  rw [operands, List.filter_filter, operands]
  simp

theorem filterMap_connected_operands (slots : List Slot) :
    (operands slots).filterMap connected = slots.filterMap connected := by
  rw [operands, List.filterMap_map, List.filterMap_filter]
  refine List.filterMap_congr fun s _ => ?_
  cases hs : s.connected <;> simp [isEmpty, unlabeled, hs]

end Slot

namespace Block

/-! ### What is connected to the other slots -/

theorem child?_of_core {b c : Block} (h : b.slots.map Slot.core = c.slots.map Slot.core)
    (id : String) : b.child? id = c.child? id := by
  have hchild : ∀ d : Block, d.child? id =
      ((d.slots.map Slot.core).find? fun p => p.1 = id).bind Prod.snd := by
    intro d
    rw [child?, slot?, List.find?_map, Option.bind_map]
    rfl
  rw [hchild, hchild, h]

/-- Connecting something to one slot leaves the others alone. -/
theorem child?_connect_of_ne (b : Block) {slot id : String} (child : Option Block)
    (h : id ≠ slot) : (b.connect slot child).child? id = b.child? id := by
  have hslot :=
    slot?_modifySlot (f := fun s => { s with connected := child }) (fun _ => rfl) b slot id
  simp only [if_neg h, Option.map_id'] at hslot
  rw [child?, connect, hslot, child?]

/-- So does an empty slot at the end. -/
theorem child?_append_slot {b : Block} {g : Slot} (h : g.isEmpty = true) (slots : List Slot)
    (id : String) :
    child? { b with slots := slots ++ [g] } id = child? { b with slots := slots } id := by
  rw [child?, slot?, List.find?_append, child?, slot?]
  cases hs : slots.find? fun s => s.id = id with
  | some s => rfl
  | none =>
    by_cases hg : g.id = id
    · simp [hg, Slot.isEmpty_iff.mp h]
    · simp [hg]

/-- If the ids of the slots are distinct, empty slots may be left out. -/
theorem child?_connectedSlots {b : Block} (h : (b.slots.map Slot.id).Nodup) (id : String) :
    child? { b with slots := b.connectedSlots } id = b.child? id := by
  have hfind : ∀ slots : List Slot, (slots.map Slot.id).Nodup →
      ((slots.filter fun s => !s.isEmpty).find? fun s => s.id = id).bind Slot.connected =
        (slots.find? fun s => s.id = id).bind Slot.connected := by
    intro slots hd
    induction slots with
    | nil => rfl
    | cons s rest ih =>
      obtain ⟨hs, hrest⟩ := List.nodup_cons.mp (List.map_cons ▸ hd)
      by_cases hid : s.id = id
      · by_cases he : s.isEmpty = true
        · -- no other slot has the id
          have hnone : rest.find? (fun t => t.id = id) = none :=
            List.find?_eq_none.mpr fun t ht => by
              simpa using fun htid : t.id = id => hs (hid ▸ htid ▸ List.mem_map_of_mem ht)
          rw [List.filter_cons_of_neg (by simp [he]), ih hrest, hnone,
            List.find?_cons_of_pos (by simpa using hid), Option.bind_some, Slot.isEmpty_iff.mp he,
            Option.bind_none]
        · simp [he, hid]
      · by_cases he : s.isEmpty = true
        · simpa [he, hid] using ih hrest
        · simpa [he, hid] using ih hrest
  exact hfind b.slots h

/-! ### Edits of the operator -/

/-- **Attaching** puts one operand in the place of what was connected to its slot, if anything. -/
theorem operands_attachOperand {operator operand edited : Block} {s : Slot} {pre post : List Slot}
    (hb : operator.slots = pre ++ s :: post) (hpre : ∀ t ∈ pre, t.id ≠ s.id)
    (h : operator.attachOperand s.id operand = .ok edited) :
    edited = { operator with slots := edited.slots } ∧
      Slot.operands edited.slots = Slot.operands pre ++
        { s.unlabeled with connected := some operand } :: Slot.operands post ∧
      ∀ id ≠ s.id, edited.child? id = operator.child? id := by
  have hslots : (operator.connect s.id (some operand)).slots =
      pre ++ { s with connected := some operand } :: post := by
    rw [connect, modifySlot, hb, modifyFirst_split rfl hpre]
  have hoperands : Slot.operands (operator.connect s.id (some operand)).relabeled.slots =
      Slot.operands pre ++ { s.unlabeled with connected := some operand } :: Slot.operands post := by
    rw [relabeled, Slot.operands_relabel, hslots, Slot.operands_append,
      Slot.operands_cons_of_not_isEmpty (by simp [Slot.isEmpty])]
    rfl
  have hchild : ∀ id ≠ s.id,
      (operator.connect s.id (some operand)).relabeled.child? id = operator.child? id := by
    intro id hid
    rw [child?_of_core (alike_relabeled _).slots, child?_connect_of_ne operator _ hid]
  obtain ⟨filled, rfl, ⟨-, -, g, hg, rfl⟩ | ⟨-, rfl⟩⟩ := attachOperand_cases h
  · have hempty := (Slot.nextGrowth_eq_ok hg).1
    refine ⟨rfl, ?_, fun id hid => ?_⟩
    · rw [Slot.operands_append, Slot.operands_cons_of_isEmpty hempty, hoperands]
      simp [Slot.operands]
    · rw [child?_append_slot hempty]
      exact hchild id hid
  · exact ⟨rfl, hoperands, hchild⟩

/-- **Detaching** takes one operand away, if there is one. -/
theorem operands_regrown {operator : Block} {s g : Slot} {pre post : List Slot}
    (hb : operator.slots = pre ++ s :: post) (hd : (operator.slots.map Slot.id).Nodup)
    (hpre : ∀ t ∈ pre, t.id ≠ s.id) (hg : g.isEmpty = true) :
    Slot.operands (Slot.relabel 1 (operator.connect s.id none).connectedSlots ++ [g]) =
        Slot.operands pre ++ Slot.operands post ∧
      ∀ id ≠ s.id, child? { operator.connect s.id none with
        slots := Slot.relabel 1 (operator.connect s.id none).connectedSlots ++ [g] } id =
          operator.child? id := by
  have hslots : (operator.connect s.id none).slots =
      pre ++ { s with connected := none } :: post := by
    rw [connect, modifySlot, hb, modifyFirst_split rfl hpre]
  have hids := map_id_connect operator s.id none
  generalize he : operator.connect s.id none = emptied at hslots hids
  refine ⟨?_, fun id hid => ?_⟩
  · rw [Slot.operands_append, Slot.operands_cons_of_isEmpty hg, Slot.operands_relabel,
      connectedSlots, Slot.operands_filter, hslots, Slot.operands_append,
      Slot.operands_cons_of_isEmpty rfl]
    simp [Slot.operands]
  · calc child? { emptied with slots := Slot.relabel 1 emptied.connectedSlots ++ [g] } id
        = child? { emptied with slots := Slot.relabel 1 emptied.connectedSlots } id :=
          child?_append_slot hg _ id
      _ = child? { emptied with slots := emptied.connectedSlots } id :=
          child?_of_core (map_relabel (fun _ _ => rfl) emptied.connectedSlots 1) id
      _ = emptied.child? id := child?_connectedSlots (hids ▸ hd) id
      _ = operator.child? id := he ▸ child?_connect_of_ne operator none hid

/-! ### The rest of the tree -/

/-- **A tree after an edit of one slot of the block at the end of a path.** The edited block keeps
all but its slots, each block above it all but what is connected to the slot that leads to it, and
all other paths lead to the same blocks as before. -/
structure Reworked (root owner next edited : Block) (path : Path) (slot : String) : Prop where
  block : edited = { owner with slots := edited.slots }
  graft : Grafted owner edited path root next
  elsewhere : ∀ q : Path, ¬ q <+: path → ¬ path ++ [slot] <+: q → next.at? q = root.at? q

theorem reworked_replaceAt {root owner edited : Block} {path : Path} {slot : String}
    (h : root.at? path = some owner) (hedited : edited = { owner with slots := edited.slots })
    (hchild : ∀ id ≠ slot, edited.child? id = owner.child? id) :
    Reworked root owner (root.replaceAt path edited) edited path slot := by
  refine ⟨hedited, grafted_replaceAt h edited, fun q hqp hslot => ?_⟩
  by_cases hpq : path <+: q
  · obtain ⟨rest, rfl⟩ := hpq
    cases rest with
    | nil => exact absurd (by simp) hqp
    | cons id rest =>
      have hid : id ≠ slot := fun heq => hslot ⟨rest, by simp [heq]⟩
      rw [at?_append, at?_replaceAt h, at?_append, h, Option.bind_some, Option.bind_some, at?,
        hchild id hid, at?]
  · exact at?_replaceAt_of_not_prefix hpq hqp

end Block

namespace Edit

open Block

/-- **Edits of operators lose and duplicate nothing.** Attaching a block to a slot of an operator
with distinct slot ids puts a copy of the block into the sequence of its operands, at the place of
the slot and of what was connected to it, and detaching takes one operand out of it; the other
operands keep everything but their labels, and so do, but for the way down to the operator, all
other blocks. -/
theorem operands_kept {root owner : Block} {path : Path} {s : Slot} {pre post : List Slot}
    (howner : root.at? path = some owner) (hk : owner.kind = .operator)
    (hd : (owner.slots.map Slot.id).Nodup) (hs : owner.slots = pre ++ s :: post)
    (suffix : Nat → String) (first : Nat) :
    owner.children = pre.filterMap Slot.connected ++ s.connected.toList ++
        post.filterMap Slot.connected ∧
      (∀ (template next : Block), template.kind ≠ .value →
        (attach path s.id template).apply suffix first root = .ok next →
        ∃ edited, Reworked root owner next edited path s.id ∧
          Slot.operands edited.slots = Slot.operands pre ++
            { s.unlabeled with connected := some (template.instantiate suffix first) } ::
              Slot.operands post ∧
          edited.children = pre.filterMap Slot.connected ++
            template.instantiate suffix first :: post.filterMap Slot.connected) ∧
      ∀ next : Block, (detach path s.id).apply suffix first root = .ok next →
        ∃ edited, Reworked root owner next edited path s.id ∧
          Slot.operands edited.slots = Slot.operands pre ++ Slot.operands post ∧
          edited.children = pre.filterMap Slot.connected ++ post.filterMap Slot.connected := by
  obtain ⟨hpre, hslot⟩ := slot?_of_nodup hs hd
  have hchildren : ∀ b : Block, b.children = (Slot.operands b.slots).filterMap Slot.connected :=
    fun b => (Slot.filterMap_connected_operands b.slots).symm
  refine ⟨?_, fun template next hv h => ?_, fun next h => ?_⟩
  · rw [children, hs, List.filterMap_append, List.filterMap_cons]
    cases s.connected <;> simp
  · obtain ⟨owner', edited, howner', he, rfl⟩ := apply_eq_ok.mp h
    obtain rfl := Option.some.inj (howner.symm.trans howner')
    obtain ⟨-, -, -, ⟨hvalue, -⟩ | ⟨-, -, -, he⟩ | ⟨-, hother, -⟩⟩ := attachTo_cases he
    · exact absurd hvalue hv
    · obtain ⟨hblock, hoperands, hchild⟩ := operands_attachOperand hs hpre he
      refine ⟨edited, reworked_replaceAt howner hblock hchild, hoperands, ?_⟩
      rw [hchildren, hoperands, List.filterMap_append, List.filterMap_cons,
        Slot.filterMap_connected_operands, Slot.filterMap_connected_operands]
    · exact absurd hk hother
  · obtain ⟨owner', edited, howner', he, rfl⟩ := apply_eq_ok.mp h
    obtain rfl := Option.some.inj (howner.symm.trans howner')
    obtain ⟨-, -, -, rfl, ⟨-, g, hg, rfl⟩ | ⟨hother, -⟩⟩ := detachFrom_cases he
    · obtain ⟨hoperands, hchild⟩ := operands_regrown hs hd hpre (Slot.nextGrowth_eq_ok hg).1
      refine ⟨_, reworked_replaceAt howner rfl hchild, hoperands, ?_⟩
      rw [hchildren, hoperands, List.filterMap_append,
        Slot.filterMap_connected_operands, Slot.filterMap_connected_operands]
    · exact absurd hk hother

/-- A disjunction of two operands. -/
def disjunction : Block :=
  { Catalog.operatorBlock "or" "OR" [] with slots := [
    { Slot.growth "1" with connected := some (Catalog.chainBlock "first" "First" .mainnet) },
    { Slot.growth "2" with connected := some (Catalog.chainBlock "second" "Second" .polygon) },
    Slot.growth "3"] }

/-- The disjunction under a conjunction. -/
def nestedDisjunction : Block :=
  { Catalog.operatorBlock "and" "AND" [] with slots := [
    { Slot.growth "1" with connected := some disjunction }, Slot.growth "2"] }

/-- The first operand of the disjunction is replaced by a negation, or it is detached. -/
theorem operands_kept_nested : ∃ negation replaced detached : Block,
    negation = Catalog.operatorBlock "not" "NOT" [("maxInputs", .int 1)] ∧
    (attach ["condition-1"] "condition-1" negation).apply History.suffix 1 nestedDisjunction =
      .ok replaced ∧
    (detach ["condition-1"] "condition-1").apply History.suffix 1 nestedDisjunction =
      .ok detached ∧
    (∃ edited, edited.children.map Block.label = ["NOT", "Second"] ∧
      Reworked nestedDisjunction disjunction replaced edited ["condition-1"] "condition-1") ∧
    ∃ edited, edited.children.map Block.label = ["Second"] ∧
      Reworked nestedDisjunction disjunction detached edited ["condition-1"] "condition-1" := by
  have howner : nestedDisjunction.at? ["condition-1"] = some disjunction := rfl
  have hslots : disjunction.slots = [] ++ _ :: _ := rfl
  obtain ⟨-, hattach, hdetach⟩ :=
    operands_kept howner rfl (by decide) hslots History.suffix 1
  obtain ⟨replaced, hreplaced⟩ : ∃ next, (attach ["condition-1"] "condition-1"
    (Catalog.operatorBlock "not" "NOT" [("maxInputs", .int 1)])).apply
      History.suffix 1 nestedDisjunction = .ok next := ⟨_, rfl⟩
  obtain ⟨detached, hdetached⟩ : ∃ next, (detach ["condition-1"] "condition-1").apply
    History.suffix 1 nestedDisjunction = .ok next := ⟨_, rfl⟩
  obtain ⟨first, hfirst, -, hnegation⟩ := hattach _ _ (by decide) hreplaced
  obtain ⟨second, hsecond, -, hless⟩ := hdetach _ hdetached
  exact ⟨_, replaced, detached, rfl, hreplaced, hdetached,
    ⟨first, by rw [hnegation]; rfl, hfirst⟩, second, by rw [hless]; rfl, hsecond⟩

end Edit

end AccessTree
