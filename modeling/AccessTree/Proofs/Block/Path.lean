import AccessTree.Block.Path
import AccessTree.Proofs.Block.Walk

/-! # Replacing the block at the end of a path

A path that leads to a block splits the ids of the tree into those before the block, its own and
those after it, and `replaceAt` changes the middle part only (`ids_replaceAt`). On the way the
ancestors of the block keep all but what is connected to one slot (`nested_replaceAt`), and so their
`Outline`. -/

namespace AccessTree

theorem Slot.mem_modifyFirst {id : String} {f : Slot → Slot} {slots : List Slot} {t : Slot}
    (h : t ∈ modifyFirst id f slots) : t ∈ slots ∨ ∃ s ∈ slots, t = f s := by
  induction slots with
  | nil => cases h
  | cons s rest ih =>
    rw [modifyFirst] at h
    split at h
    · rcases List.mem_cons.mp h with ht | h
      · exact .inr ⟨s, List.mem_cons_self, ht⟩
      · exact .inl (List.mem_cons_of_mem s h)
    · rcases List.mem_cons.mp h with rfl | h
      · exact .inl List.mem_cons_self
      · rcases ih h with hu | ⟨u, hu, ht⟩
        · exact .inl (List.mem_cons_of_mem s hu)
        · exact .inr ⟨u, List.mem_cons_of_mem s hu, ht⟩

/-- What a modification of a slot leaves alone stays in all slots. -/
theorem Slot.map_modifyFirst {α : Type} {view : Slot → α} {f : Slot → Slot}
    (hf : ∀ s, view (f s) = view s) (id : String) (slots : List Slot) :
    (modifyFirst id f slots).map view = slots.map view := by
  induction slots with
  | nil => rfl
  | cons s rest ih =>
    rw [modifyFirst]
    split
    · rw [List.map_cons, hf, List.map_cons]
    · rw [List.map_cons, ih, List.map_cons]

/-- What a block shows of its slots: their ids and whether they are empty. -/
def Slot.outline (s : Slot) : String × Bool := (s.id, s.isEmpty)

/-- What a block keeps when other blocks take the place of those connected to it. -/
structure Outline where
  kind : BlockKind
  properties : Fields
  slots : List (String × Bool)

namespace Block

/-- The outline of a block. -/
def outline (b : Block) : Outline := ⟨b.kind, b.properties, b.slots.map Slot.outline⟩

/-! ### The slot of an id -/

theorem modifyFirst_split {id : String} {s : Slot} {pre post : List Slot} (hs : s.id = id)
    (hpre : ∀ t ∈ pre, t.id ≠ id) (f : Slot → Slot) :
    Slot.modifyFirst id f (pre ++ s :: post) = pre ++ f s :: post := by
  induction pre with
  | nil => simp [Slot.modifyFirst, hs]
  | cons t pre ih =>
    have ht := hpre t (by simp)
    rw [List.cons_append, Slot.modifyFirst, if_neg ht, ih fun u hu => hpre u (by simp [hu])]
    rfl

/-- **The place of a slot.** The first slot of an id splits the slots of its block, and modifying
it leaves the two parts alone. -/
theorem slot?_split {b : Block} {id : String} {s : Slot} (h : b.slot? id = some s) :
    s.id = id ∧ ∃ pre post, b.slots = pre ++ s :: post ∧
      ∀ f, b.modifySlot id f = { b with slots := pre ++ f s :: post } := by
  obtain ⟨hs, pre, post, hb, hpre⟩ := List.find?_eq_some_iff_append.mp h
  have hid : s.id = id := by simpa using hs
  refine ⟨hid, pre, post, hb, fun f => ?_⟩
  rw [modifySlot, hb, modifyFirst_split hid fun t ht => by simpa using hpre t ht]

/-- If the ids of the slots are distinct, each slot is the first one of its id. -/
theorem slot?_of_nodup {b : Block} {s : Slot} {pre post : List Slot}
    (hb : b.slots = pre ++ s :: post) (hd : (b.slots.map Slot.id).Nodup) :
    (∀ t ∈ pre, t.id ≠ s.id) ∧ b.slot? s.id = some s := by
  rw [hb, List.map_append, List.map_cons, List.nodup_append] at hd
  have hpre : ∀ t ∈ pre, t.id ≠ s.id := fun t ht =>
    hd.2.2 t.id (List.mem_map_of_mem ht) s.id List.mem_cons_self
  exact ⟨hpre, List.find?_eq_some_iff_append.mpr
    ⟨by simp, pre, post, hb, fun t ht => by simpa using hpre t ht⟩⟩

theorem slot?_mem {b : Block} {id : String} {s : Slot} (h : b.slot? id = some s) : s ∈ b.slots :=
  List.mem_of_find?_eq_some h

theorem slot?_eq_none {b : Block} {id : String} (h : b.slot? id = none) :
    id ∉ b.slots.map Slot.id := by
  rw [List.mem_map]
  rintro ⟨s, hs, rfl⟩
  simpa using List.find?_eq_none.mp h s hs

/-! ### Paths -/

theorem resolveFrom_eq_ok {path : Path} {depth : Nat} {b c : Block} {rest : Path} :
    resolveFrom path depth b rest = .ok c ↔ b.at? rest = some c := by
  induction rest generalizing b depth with
  | nil => simp [resolveFrom, at?]
  | cons slot rest ih =>
    rw [resolveFrom, at?]
    cases b.child? slot with
    | none => simp
    | some d => exact ih

theorem resolve_eq_ok {root c : Block} {path : Path} :
    root.resolve path = .ok c ↔ root.at? path = some c := resolveFrom_eq_ok

theorem at?_cons {b c : Block} {slot : String} {rest : Path} (h : b.at? (slot :: rest) = some c) :
    ∃ s d, b.slot? slot = some s ∧ s.connected = some d ∧ d.at? rest = some c := by
  rw [at?, child?] at h
  obtain ⟨d, hd, hc⟩ := Option.bind_eq_some_iff.mp h
  obtain ⟨s, hs, hsd⟩ := Option.bind_eq_some_iff.mp hd
  exact ⟨s, d, hs, hsd, hc⟩

theorem child?_of_slot? {b c : Block} {slot : String} {s : Slot} (hs : b.slot? slot = some s)
    (hc : s.connected = some c) : b.child? slot = some c := by
  rw [child?, hs, Option.bind_some, hc]

theorem at?_cons_of_slot? {b c : Block} {slot : String} {s : Slot} (hs : b.slot? slot = some s)
    (hc : s.connected = some c) (rest : Path) : b.at? (slot :: rest) = c.at? rest := by
  rw [at?, child?_of_slot? hs hc, Option.bind_some]

/-- The block at the end of a path is nested in the root. -/
theorem mem_nested_of_at? {root c : Block} {path : Path} (h : root.at? path = some c) :
    c ∈ root.nested := by
  induction path generalizing root with
  | nil =>
    rw [at?] at h
    rw [← Option.some.inj h]
    exact self_mem_nested root
  | cons slot rest ih =>
    obtain ⟨s, d, hs, hd, hc⟩ := at?_cons h
    exact mem_nested_of_connected (slot?_mem hs) hd (ih hc)

/-! ### Replacement -/

/-- One step of a replacement: the slot taken keeps all but its block. -/
theorem replaceAt_cons {b d : Block} {slot : String} {s : Slot} (rest : Path)
    (hs : b.slot? slot = some s) (hd : s.connected = some d) :
    ∃ pre post, b.slots = pre ++ s :: post ∧ ∀ new, b.replaceAt (slot :: rest) new =
      { b with slots := pre ++ { s with connected := some (d.replaceAt rest new) } :: post } := by
  obtain ⟨-, pre, post, hb, hf⟩ := slot?_split hs
  refine ⟨pre, post, hb, fun new => ?_⟩
  rw [replaceAt, hf, hd]
  rfl

/-- **The ids of a tree after a replacement.** -/
theorem ids_replaceAt {root owner : Block} {path : Path} (h : root.at? path = some owner) :
    ∃ pre post, root.ids = pre ++ owner.ids ++ post ∧
      ∀ new, (root.replaceAt path new).ids = pre ++ new.ids ++ post := by
  induction path generalizing root with
  | nil =>
    rw [at?] at h
    exact ⟨[], [], by simp [Option.some.inj h], fun new => by simp [replaceAt]⟩
  | cons slot rest ih =>
    obtain ⟨s, d, hs, hd, hc⟩ := at?_cons h
    obtain ⟨pre, post, hpp, hnew⟩ := ih hc
    obtain ⟨before, after, hb, hr⟩ := replaceAt_cons rest hs hd
    refine ⟨root.id :: (before.flatMap Slot.blocks).map Block.id ++ pre,
      post ++ (after.flatMap Slot.blocks).map Block.id, ?_, fun new => ?_⟩
    · rw [ids_eq, descendants_eq, hb, List.flatMap_append, List.flatMap_cons,
        Slot.blocks_of_some hd, List.map_append, List.map_append, ← ids, hpp]
      simp only [List.append_assoc, List.cons_append]
    · rw [hr, ids_eq, descendants_eq, List.flatMap_append, List.flatMap_cons,
        Slot.blocks_of_some rfl, List.map_append, List.map_append, ← ids, hnew]
      simp only [List.append_assoc, List.cons_append]

/-- **The blocks of a tree after a replacement** are those of the new block, blocks that were there,
and the ancestors of the new block, each with another block in the place of one that was connected
to it. -/
theorem nested_replaceAt {root owner new b : Block} {path : Path}
    (h : root.at? path = some owner) (hb : b ∈ (root.replaceAt path new).nested) :
    b ∈ new.nested ∨ b ∈ root.nested ∨ ∃ c ∈ root.nested, ∃ before s after d rest,
      c.slots = before ++ s :: after ∧ s.connected = some d ∧ d.at? rest = some owner ∧
        b = { c with
          slots := before ++ { s with connected := some (d.replaceAt rest new) } :: after } := by
  induction path generalizing root with
  | nil => exact Or.inl hb
  | cons slot rest ih =>
    obtain ⟨s, d, hs, hd, hc⟩ := at?_cons h
    obtain ⟨before, after, hslots, hr⟩ := replaceAt_cons rest hs hd
    have hbelow : ∀ {c}, c ∈ d.nested → c ∈ root.nested :=
      mem_nested_of_connected (slot?_mem hs) hd
    rw [hr new] at hb
    rcases mem_nested.mp hb with rfl | ⟨t, ht, e, he, hbe⟩
    · exact Or.inr (Or.inr
        ⟨root, self_mem_nested root, before, s, after, d, rest, hslots, hd, hc, rfl⟩)
    · by_cases hnew : t = { s with connected := some (d.replaceAt rest new) }
      · subst hnew
        obtain rfl := Option.some.inj he
        rcases ih hc hbe with hb | hb | ⟨c, hcd, hb⟩
        · exact Or.inl hb
        · exact Or.inr (Or.inl (hbelow hb))
        · exact Or.inr (Or.inr ⟨c, hbelow hcd, hb⟩)
      · have hroot : t ∈ root.slots := by
          rw [hslots]
          rcases List.mem_append.mp ht with ht | ht
          · exact List.mem_append_left _ ht
          · rcases List.mem_cons.mp ht with ht | ht
            · exact absurd ht hnew
            · exact List.mem_append_right _ (List.mem_cons_of_mem s ht)
        exact Or.inr (Or.inl (mem_nested_of_connected hroot he hbe))

/-- An ancestor keeps its outline. -/
theorem outline_withChild {b d : Block} {s : Slot} {before after : List Slot}
    (hb : b.slots = before ++ s :: after) (hd : s.connected = some d) (e : Block) :
    outline { b with slots := before ++ { s with connected := some e } :: after } = b.outline := by
  simp [outline, hb, Slot.outline, Slot.isEmpty, hd]

/-- What the root shows apart from its slots changes only where the root is replaced itself. -/
theorem root_replaceAt {α : Type} (view : Block → α) {root owner new : Block} {path : Path}
    (hview : ∀ (b : Block) slots, view { b with slots := slots } = view b)
    (h : root.at? path = some owner) (hn : view new = view owner) :
    view (root.replaceAt path new) = view root := by
  cases path with
  | nil =>
    rw [at?] at h
    rw [replaceAt, hn, Option.some.inj h]
  | cons slot rest => exact hview root _

end Block

end AccessTree
