import AccessTree.Proofs.Block.Path

/-! # What a replacement leaves alone

Putting another block at the end of a path changes one slot of each block on the way, namely what is
connected to it, and nothing else (`Grafted`). So the new block stands at the end of the path
(`at?_replaceAt`), a second replacement there undoes the first (`replaceAt_replaceAt`), and a path
that neither leads to the block nor through it leads to what it led to before
(`at?_replaceAt_of_not_prefix`). -/

namespace AccessTree

namespace Slot

/-- The slot with another block at the end of a path from what is connected to it. -/
def replaceAt (path : Path) (new : Block) (s : Slot) : Slot :=
  { s with connected := s.connected.map fun c => c.replaceAt path new }

theorem id_replaceAt (path : Path) (new : Block) (s : Slot) : (s.replaceAt path new).id = s.id :=
  rfl

theorem find?_modifyFirst {f : Slot → Slot} (hf : ∀ s, (f s).id = s.id) (slot id : String)
    (slots : List Slot) : (modifyFirst slot f slots).find? (fun s => s.id = id) =
      (slots.find? fun s => s.id = id).map fun s => if id = slot then f s else s := by
  induction slots with
  | nil => rfl
  | cons s rest ih =>
    rw [modifyFirst]
    by_cases hslot : s.id = slot
    · rw [if_pos hslot]
      by_cases hid : s.id = id
      · have heq : id = slot := hid.symm.trans hslot
        simp [hf, hid, heq]
      · have hne : id ≠ slot := fun heq => hid (hslot.trans heq.symm)
        simp [hf, hid, hne]
    · rw [if_neg hslot]
      by_cases hid : s.id = id
      · have hne : id ≠ slot := fun heq => hslot (hid.trans heq)
        simp [hid, hne]
      · simp [hid, ih]

theorem modifyFirst_modifyFirst {f : Slot → Slot} (hf : ∀ s, (f s).id = s.id) (g : Slot → Slot)
    (slot : String) (slots : List Slot) :
    modifyFirst slot g (modifyFirst slot f slots) = modifyFirst slot (g ∘ f) slots := by
  induction slots with
  | nil => rfl
  | cons s rest ih =>
    rw [modifyFirst, modifyFirst]
    by_cases hslot : s.id = slot
    · rw [if_pos hslot, if_pos hslot, modifyFirst, if_pos ((hf s).trans hslot)]
      rfl
    · rw [if_neg hslot, if_neg hslot, modifyFirst, if_neg hslot, ih]

end Slot

namespace Block

/-- The slot of an id after the slot of another id, or of the same, was modified. -/
theorem slot?_modifySlot {f : Slot → Slot} (hf : ∀ s, (f s).id = s.id) (b : Block)
    (slot id : String) :
    (b.modifySlot slot f).slot? id = (b.slot? id).map fun s => if id = slot then f s else s :=
  Slot.find?_modifyFirst hf slot id b.slots

theorem replaceAt_cons_eq (b : Block) (slot : String) (rest : Path) (new : Block) :
    b.replaceAt (slot :: rest) new = b.modifySlot slot (Slot.replaceAt rest new) := by
  rw [replaceAt]
  rfl

theorem child?_replaceAt_cons (b : Block) (slot id : String) (rest : Path) (new : Block) :
    (b.replaceAt (slot :: rest) new).child? id =
      (b.child? id).map fun c => if id = slot then c.replaceAt rest new else c := by
  rw [replaceAt_cons_eq, child?, slot?_modifySlot (Slot.id_replaceAt rest new), child?]
  cases b.slot? id with
  | none => rfl
  | some s =>
    by_cases hid : id = slot
    · simp [hid, Slot.replaceAt]
    · simp [hid]

theorem at?_append (b : Block) (p q : Path) : b.at? (p ++ q) = (b.at? p).bind (·.at? q) := by
  induction p generalizing b with
  | nil => rfl
  | cons slot rest ih =>
    rw [List.cons_append, at?, at?]
    cases b.child? slot with
    | none => rfl
    | some c => exact ih c

/-- **The new block stands at the end of the path.** -/
theorem at?_replaceAt {root owner : Block} {path : Path} (h : root.at? path = some owner)
    (new : Block) : (root.replaceAt path new).at? path = some new := by
  induction path generalizing root with
  | nil => rfl
  | cons slot rest ih =>
    obtain ⟨s, d, hs, hd, hc⟩ := at?_cons h
    rw [at?, child?_replaceAt_cons, child?_of_slot? hs hd]
    simpa using ih hc

/-- **The last replacement counts.** -/
theorem replaceAt_replaceAt (root first second : Block) (path : Path) :
    (root.replaceAt path first).replaceAt path second = root.replaceAt path second := by
  induction path generalizing root with
  | nil => rfl
  | cons slot rest ih =>
    have hcomp : Slot.replaceAt rest second ∘ Slot.replaceAt rest first =
        Slot.replaceAt rest second := by
      funext s
      cases hs : s.connected <;> simp [Slot.replaceAt, hs, ih]
    rw [replaceAt_cons_eq, replaceAt_cons_eq, replaceAt_cons_eq, modifySlot, modifySlot,
      Slot.modifyFirst_modifyFirst (Slot.id_replaceAt rest first), hcomp]
    rfl

/-- **Away from the path** everything stays as it is. -/
theorem at?_replaceAt_of_not_prefix {root new : Block} {path q : Path} (hpq : ¬ path <+: q)
    (hqp : ¬ q <+: path) : (root.replaceAt path new).at? q = root.at? q := by
  induction path generalizing root q with
  | nil => exact absurd List.nil_prefix hpq
  | cons slot rest ih =>
    cases q with
    | nil => exact absurd List.nil_prefix hqp
    | cons id q =>
      rw [at?, child?_replaceAt_cons, at?]
      cases root.child? id with
      | none => rfl
      | some c =>
        by_cases hid : id = slot
        · subst hid
          have hc : (c.replaceAt rest new).at? q = c.at? q :=
            ih (fun h => hpq (List.cons_prefix_cons.mpr ⟨rfl, h⟩))
              fun h => hqp (List.cons_prefix_cons.mpr ⟨rfl, h⟩)
          simpa using hc
        · simp [hid]

/-- **A tree with another block at the end of a path.** Each block on the way keeps everything but
what is connected to the slot that the path follows, which is the first slot of its id. -/
inductive Grafted (owner edited : Block) : Path → Block → Block → Prop where
  | here : Grafted owner edited [] owner edited
  | step {b d e : Block} {s : Slot} {before after : List Slot} {rest : Path}
    (slots : b.slots = before ++ s :: after) (first : ∀ t ∈ before, t.id ≠ s.id)
    (connected : s.connected = some d) (graft : Grafted owner edited rest d e) :
    Grafted owner edited (s.id :: rest) b
      { b with slots := before ++ { s with connected := some e } :: after }

theorem grafted_replaceAt {root owner : Block} {path : Path} (h : root.at? path = some owner)
    (edited : Block) : Grafted owner edited path root (root.replaceAt path edited) := by
  induction path generalizing root with
  | nil =>
    rw [at?] at h
    rw [Option.some.inj h, replaceAt]
    exact .here
  | cons slot rest ih =>
    obtain ⟨s, d, hs, hd, hc⟩ := at?_cons h
    obtain ⟨hid, before, after, hslots, hbefore⟩ := List.find?_eq_some_iff_append.mp hs
    have hid' : s.id = slot := by simpa using hid
    have hfirst : ∀ t ∈ before, t.id ≠ s.id := fun t ht => by simpa [hid'] using hbefore t ht
    subst hid'
    rw [replaceAt, modifySlot, hslots, modifyFirst_split rfl hfirst, hd]
    exact .step hslots hfirst hd (ih hc)

end Block

end AccessTree
