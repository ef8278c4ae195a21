import AccessTree.Proofs.Edit.Assembled

/-! # The slots of an operator after edits

Edits leave the slots of an operator `Regular`: they are numbered, the operands are labelled by their
positions, and an empty slot at the end is the growth slot that the slots before it ask for. So
whenever that slot is lost, it can be grown again.

Only the shape of the slots matters for this (`of_shape`), so whatever is written into them may
change, and another operand may take the place of one (`fill`); a list of numbered slots becomes
regular by labelling it and growing a slot (`grow`). With each edit the numbers go up by one at most
(`regular_onBlock`), and so it is with whatever a run of edits makes of a placed template
(`Edited.regular`). -/

namespace AccessTree

namespace Slot

/-! ### Labels -/

theorem relabel_append (xs ys : List Slot) : ∀ i, relabel i (xs ++ ys) =
    relabel i xs ++ relabel (i + (xs.map isEmpty).count false) ys := by
  induction xs with
  | nil => simp [relabel]
  | cons s rest ih =>
    intro i
    rw [List.cons_append, relabel, relabel]
    cases hs : s.isEmpty with
    | true => simp [hs, ih]
    | false => simp [hs, ih, Nat.add_comm, Nat.add_left_comm]

/-- Slots that are labelled are not labelled anew. -/
theorem relabel_relabel (slots : List Slot) : ∀ i,
    relabel i (relabel i slots) = relabel i slots := by
  induction slots with
  | nil => simp [relabel]
  | cons s rest ih =>
    intro i
    rw [relabel]
    by_cases hs : s.isEmpty = true
    · rw [if_pos hs, relabel, if_pos hs, ih]
    · rw [if_neg hs, relabel, if_neg (by exact hs), ih]

/-- The label of an operand is its position. -/
theorem map_label_relabel {slots : List Slot} (h : ∀ s ∈ slots, s.isEmpty = false) : ∀ i,
    (relabel i slots).map label =
      (List.range' i slots.length).map fun i => "Condition " ++ Text.ofNat i := by
  induction slots with
  | nil => simp [relabel]
  | cons s rest ih =>
    intro i
    obtain ⟨hs, hrest⟩ := List.forall_mem_cons.mp h
    rw [relabel, if_neg (by simp [hs]), List.map_cons, ih hrest, List.length_cons,
      List.range'_succ, List.map_cons]

/-- Labelling leaves an empty slot at the end alone. -/
theorem getLast?_of_relabel {slots : List Slot} {g : Slot} (hg : g.isEmpty = true) : ∀ {i},
    (relabel i slots).getLast? = some g → slots.getLast? = some g := by
  rcases slots.eq_nil_or_concat with rfl | ⟨init, s, rfl⟩
  · simp [relabel]
  · intro i h
    rw [List.concat_eq_append] at h ⊢
    rw [relabel_append, relabel] at h
    by_cases hs : s.isEmpty = true
    · rw [if_pos hs, relabel, List.getLast?_concat] at h
      rw [List.getLast?_concat, h]
    · rw [if_neg hs, relabel, List.getLast?_concat] at h
      obtain rfl := Option.some.inj h
      exact absurd hg hs

/-! ### Numbers -/

/-- The slot is the growth slot with a number up to `bound`, or was. -/
def NumberedTo (bound : Nat) (s : Slot) : Prop :=
  ∃ number ≤ bound, s.id = growthStem ++ Text.ofNat number ∧
    (Text.natChars number).length ≤ Text.maxDigits

theorem NumberedTo.mono {bound bound' : Nat} {s : Slot} (h : s.NumberedTo bound)
    (hle : bound ≤ bound') : s.NumberedTo bound' := by
  obtain ⟨number, hnumber, hid, hshort⟩ := h
  exact ⟨number, hnumber.trans hle, hid, hshort⟩

theorem numberedTo_of_ids {bound : Nat} {xs ys : List Slot} (h : xs.map Slot.id = ys.map Slot.id)
    (hxs : ∀ s ∈ xs, s.NumberedTo bound) : ∀ s ∈ ys, s.NumberedTo bound := by
  intro s hs
  have hid : s.id ∈ xs.map Slot.id := h ▸ List.mem_map_of_mem hs
  obtain ⟨t, ht, heq⟩ := List.mem_map.mp hid
  obtain ⟨number, hnumber, hid, hshort⟩ := hxs t ht
  exact ⟨number, hnumber, heq ▸ hid, hshort⟩

/-- Only the ids count for the next growth slot. -/
theorem nextGrowth_congr {xs ys : List Slot} (h : xs.map Slot.id = ys.map Slot.id) :
    nextGrowth xs = nextGrowth ys := by
  have hdigits : ∀ slots : List Slot, slots.filterMap growthDigits? =
      (slots.map Slot.id).filterMap (Text.numbered? growthStem) := fun slots => by
    rw [List.filterMap_map]
    rfl
  rw [nextGrowth, nextGrowth, greatestNumber, greatestNumber, hdigits, hdigits, h]

theorem nextGrowth_dropLast_congr {xs ys : List Slot} (h : xs.map Slot.id = ys.map Slot.id) :
    nextGrowth xs.dropLast = nextGrowth ys.dropLast :=
  nextGrowth_congr (by rw [List.map_dropLast, List.map_dropLast, h])

theorem foldl_max_le {numbers : List Nat} : ∀ {a bound : Nat}, a ≤ bound →
    (∀ n ∈ numbers, n ≤ bound) → numbers.foldl max a ≤ bound := by
  induction numbers with
  | nil => simp
  | cons n rest ih =>
    intro a bound ha h
    obtain ⟨hn, hrest⟩ := List.forall_mem_cons.mp h
    exact ih (Nat.max_le.mpr ⟨ha, hn⟩) hrest

/-- **The next growth slot** of numbered slots has the next number at most, unless that is too long
to be written. -/
theorem nextGrowth_of_numbered {bound : Nat} {slots : List Slot}
    (h : ∀ s ∈ slots, s.NumberedTo bound) :
    (∃ g, nextGrowth slots = .ok g ∧ g.NumberedTo (bound + 1)) ∨
      nextGrowth slots = .error .tooLongToWrite ∧ 10 ^ Text.maxDigits ≤ bound + 1 := by
  have hdigits : ∀ ds ∈ slots.filterMap growthDigits?,
      ds.length ≤ Text.maxDigits ∧ Text.ofDigits ds ≤ bound := by
    intro ds hds
    obtain ⟨s, hs, hsd⟩ := List.mem_filterMap.mp hds
    obtain ⟨number, hnumber, hid, hshort⟩ := h s hs
    obtain rfl := Option.some.inj ((growthDigits?_of_id hid).symm.trans hsd)
    rw [Text.length_charDigits, Text.ofDigits_charDigits]
    exact ⟨hshort, hnumber⟩
  generalize hgreatest : ((slots.filterMap growthDigits?).map Text.ofDigits).foldl max 0 = greatest
  have hle : greatest ≤ bound := by
    rw [← hgreatest]
    refine foldl_max_le (Nat.zero_le bound) fun n hn => ?_
    obtain ⟨ds, hds, rfl⟩ := List.mem_map.mp hn
    exact (hdigits ds hds).2
  have hread : greatestNumber slots = .ok greatest := by
    rw [greatestNumber, Text.mapM_readDigits_eq_ok.mpr ⟨fun ds hds => (hdigits ds hds).1, rfl⟩,
      ← hgreatest]
    rfl
  have hnext : nextGrowth slots = (Text.writeInt (greatest + 1 : Nat)).map growth := by
    rw [nextGrowth, hread]
    change Text.writeInt (greatest + 1 : Nat) >>= _ = _
    cases Text.writeInt (greatest + 1 : Nat) <;> rfl
  rw [hnext, Text.writeInt, Int.natAbs_natCast]
  by_cases hlong : Text.maxDigits < (Text.natChars (greatest + 1)).length
  · obtain ⟨l, hl⟩ := Text.exists_length_natChars (greatest + 1)
    have hpow := Text.pow_length_natChars_le (Nat.succ_ne_zero greatest) hl
    have hmax : 10 ^ Text.maxDigits ≤ 10 ^ l := Nat.pow_le_pow_right (by decide) (by omega)
    rw [if_pos hlong]
    exact Or.inr ⟨rfl, by omega⟩
  · rw [if_neg hlong]
    exact Or.inl ⟨_, rfl, greatest + 1, by omega, rfl, Nat.not_lt.mp hlong⟩

/-! ### Regular slots -/

/-- The slot without its literal and its hint, which is all that growing it anew may lose. -/
def cleared (s : Slot) : Slot := { s with value := none, inputType := none }

/-- **The slots of an operator as edits leave them**, with numbers up to `bound`. -/
structure Regular (bound : Nat) (slots : List Slot) : Prop where
  numbered : ∀ s ∈ slots, s.NumberedTo bound
  labeled : relabel 1 slots = slots
  growth : ∀ g, slots.getLast? = some g → g.isEmpty = true →
    nextGrowth slots.dropLast = .ok g.cleared

/-- What a slot keeps when a literal is written into it or another block takes the place of the one
that is connected. -/
structure Shape where
  id : String
  accepts : List BlockKind
  label : String
  comparator : Option Comparator
  isEmpty : Bool
  deriving DecidableEq

/-- The shape of a slot. -/
def shape (s : Slot) : Shape := ⟨s.id, s.accepts, s.label, s.comparator, s.isEmpty⟩

theorem relabel_eq_of_shape {xs ys : List Slot} (h : xs.map shape = ys.map shape) : ∀ {i},
    relabel i xs = xs → relabel i ys = ys := by
  induction xs generalizing ys with
  | nil =>
    obtain rfl : ys = [] := by simpa using h
    simp [relabel]
  | cons x xs ih =>
    intro i hx
    obtain ⟨y, ys, rfl, hy, hys⟩ := List.map_eq_cons_iff.mp h.symm
    obtain ⟨-, -, hlabel, -, hempty⟩ := Shape.mk.inj hy
    by_cases hx' : x.isEmpty = true
    · rw [relabel, if_pos hx'] at hx
      rw [relabel, if_pos (hempty.trans hx'), ih hys.symm (List.cons.inj hx).2]
    · rw [relabel, if_neg hx'] at hx
      obtain ⟨hx, hxs⟩ := List.cons.inj hx
      have hposition : "Condition " ++ Text.ofNat i = y.label :=
        (congrArg label hx).trans hlabel.symm
      rw [relabel, if_neg (hempty ▸ hx'), ih hys.symm hxs, hposition]
      cases y; rfl

theorem cleared_eq_of_shape {s t : Slot} (h : s.shape = t.shape) (hs : s.isEmpty = true) :
    s.cleared = t.cleared := by
  obtain ⟨hid, haccepts, hlabel, hcomparator, hempty⟩ := Shape.mk.inj h
  have ht : t.isEmpty = true := hempty ▸ hs
  rw [cleared, cleared, hid, haccepts, hlabel, hcomparator, isEmpty_iff.mp hs, isEmpty_iff.mp ht]

namespace Regular

variable {bound : Nat} {xs ys : List Slot}

theorem mono {bound' : Nat} (h : Regular bound xs) (hle : bound ≤ bound') : Regular bound' xs :=
  ⟨fun s hs => (h.numbered s hs).mono hle, h.labeled, h.growth⟩

theorem of_shape (h : Regular bound xs) (hs : xs.map shape = ys.map shape) : Regular bound ys := by
  have hids : xs.map Slot.id = ys.map Slot.id := by
    simpa [shape, Function.comp_def] using congrArg (List.map Shape.id) hs
  refine ⟨numberedTo_of_ids hids h.numbered, relabel_eq_of_shape hs h.labeled, fun g hg he => ?_⟩
  have hlast : (xs.map shape).getLast? = some g.shape := by rw [hs, List.getLast?_map, hg]; rfl
  rw [List.getLast?_map, Option.map_eq_some_iff] at hlast
  obtain ⟨g', hg', hshape⟩ := hlast
  have he' : g'.isEmpty = true := (congrArg Shape.isEmpty hshape).trans he
  rw [nextGrowth_dropLast_congr hids.symm, h.growth g' hg' he', cleared_eq_of_shape hshape he']

/-- Another operand in the place of one, or in an empty slot. -/
theorem fill {s : Slot} {pre post : List Slot} (h : Regular bound (pre ++ s :: post))
    (child : Block) :
    Regular bound (relabel 1 (pre ++ { s with connected := some child } :: post)) := by
  have hids : (relabel 1 (pre ++ { s with connected := some child } :: post)).map Slot.id =
      (pre ++ s :: post).map Slot.id := by
    rw [Block.map_relabel fun _ _ => rfl]
    simp
  refine ⟨numberedTo_of_ids hids.symm h.numbered, relabel_relabel _ 1, fun g hg he => ?_⟩
  have hlast := getLast?_of_relabel he hg
  have hold : (pre ++ s :: post).getLast? = some g := by
    rcases post.eq_nil_or_concat with rfl | ⟨init, t, rfl⟩
    · -- the filled slot is not empty
      rw [List.getLast?_concat] at hlast
      obtain rfl := Option.some.inj hlast
      exact absurd he (by simp [isEmpty])
    · rw [List.concat_eq_append, ← List.cons_append, ← List.append_assoc,
        List.getLast?_concat] at hlast ⊢
      exact hlast
  rw [nextGrowth_dropLast_congr hids, h.growth g hold he]

/-- **Numbered slots with the growth slot that they ask for.** -/
theorem grow {g : Slot} (h : ∀ s ∈ xs, s.NumberedTo bound) (hg : nextGrowth xs = .ok g) :
    Regular (bound + 1) (relabel 1 xs ++ [g]) := by
  have hids : (relabel 1 xs).map Slot.id = xs.map Slot.id := Block.map_relabel (fun _ _ => rfl) xs 1
  have hempty := (nextGrowth_eq_ok hg).1
  obtain ⟨number, rfl⟩ := eq_growth_of_nextGrowth hg
  refine ⟨fun s hs => ?_, ?_, fun g' hg' _ => ?_⟩
  · rcases List.mem_append.mp hs with hs | hs
    · exact (numberedTo_of_ids hids.symm h s hs).mono (Nat.le_succ bound)
    · obtain ⟨g', hg', hnumbered⟩ | ⟨hfault, -⟩ := nextGrowth_of_numbered h
      · rw [List.mem_singleton.mp hs, Except.ok.inj (hg.symm.trans hg')]
        exact hnumbered
      · rw [hg] at hfault
        cases hfault
  · rw [relabel_append, relabel_relabel, relabel, if_pos hempty, relabel]
  · rw [List.getLast?_concat] at hg'
    rw [List.dropLast_concat, nextGrowth_congr hids, hg, ← Option.some.inj hg']
    rfl

end Regular

end Slot

namespace Block

/-! ### Edits of an operator -/

/-- **A block as edits leave it.** -/
structure Regular (bound : Nat) (b : Block) : Prop where
  orderly : b.Orderly
  slots : b.kind = .operator → Slot.Regular bound b.slots

variable {bound : Nat} {owner edited : Block} {path : Path} {slot : String}

theorem Regular.mono {bound' : Nat} {b : Block} (h : b.Regular bound) (hle : bound ≤ bound') :
    b.Regular bound' :=
  ⟨h.orderly, fun hk => (h.slots hk).mono hle⟩

/-- Another block in the place of one that is connected. -/
theorem Regular.withChild {b d e : Block} {s : Slot} {before after : List Slot}
    (h : b.Regular bound) (hb : b.slots = before ++ s :: after) (hd : s.connected = some d) :
    Regular bound { b with slots := before ++ { s with connected := some e } :: after } := by
  refine ⟨h.orderly.of_outline (outline_withChild hb hd e).symm, fun hk => ?_⟩
  refine (hb ▸ h.slots hk).of_shape ?_
  simp [Slot.shape, Slot.isEmpty, hd]

theorem regular_modifySlot {f : Slot → Slot} (h : Slot.Regular bound owner.slots)
    (hf : ∀ s, (f s).shape = s.shape) (slot : String) :
    Slot.Regular (bound + 1) (owner.modifySlot slot f).slots :=
  (h.of_shape (Slot.map_modifyFirst hf slot owner.slots).symm).mono (Nat.le_succ bound)

theorem regular_attachOperand {operand : Block} {s : Slot} (h : Slot.Regular bound owner.slots)
    (hs : owner.slot? slot = some s) (he : owner.attachOperand slot operand = .ok edited) :
    Slot.Regular (bound + 1) edited.slots := by
  obtain ⟨-, pre, post, hb, hf⟩ := slot?_split hs
  obtain ⟨filled, hfilled, hcases⟩ := attachOperand_cases he
  have hregular : Slot.Regular bound filled.slots := by
    rw [hfilled, relabeled, connect, hf]
    exact (hb ▸ h).fill operand
  obtain ⟨-, -, g, hg, rfl⟩ | ⟨-, rfl⟩ := hcases
  · have hgrown := Slot.Regular.grow hregular.numbered hg
    rwa [hregular.labeled] at hgrown
  · exact hregular.mono (Nat.le_succ bound)

theorem regular_regrown {g : Slot} (h : Slot.Regular bound owner.slots)
    (hg : Slot.nextGrowth (owner.connect slot none).connectedSlots = .ok g) :
    Slot.Regular (bound + 1)
      (Slot.relabel 1 (owner.connect slot none).connectedSlots ++ [g]) := by
  have hnumbered := Slot.numberedTo_of_ids (map_id_connect owner slot none).symm h.numbered
  exact Slot.Regular.grow (fun s hs => hnumbered s (List.mem_filter.mp hs).1) hg

/-- No slot of an operator is compared with anything. -/
theorem not_mem_comparedSlots {s : Slot} (h : s.NumberedTo bound) : s.id ∉ comparedSlots := by
  intro hmem
  have hnone : ∀ id ∈ comparedSlots, Text.numbered? Slot.growthStem id = none := by decide
  obtain ⟨number, -, hid, -⟩ := h
  have hsome := Slot.growthDigits?_of_id hid
  rw [Slot.growthDigits?, hnone s.id hmem] at hsome
  cases hsome

end Block

namespace Edit

variable {bound : Nat} {suffix : Nat → String} {first : Nat} {e : Edit}

theorem mem_comparedSlots {slot comparator : String} {c : Comparator}
    (h : pickedComparator slot comparator = .ok c) : slot ∈ comparedSlots := by
  rw [pickedComparator] at h
  split at h
  · cases h
  · split at h
    · next hmem => simpa using hmem
    · cases h

/-- **An edit of an operator** leaves its slots regular, unless it adds a parameter. -/
theorem regular_onBlock {owner edited : Block} (h : Slot.Regular bound owner.slots)
    (hk : owner.kind = .operator) (hp : e ≠ .addParameter e.path)
    (he : e.onBlock suffix first owner = .ok edited) : Slot.Regular (bound + 1) edited.slots := by
  cases e with
  | attach path slot template =>
    obtain ⟨s, hs, -, ⟨-, rfl⟩ | ⟨-, -, -, he⟩ | ⟨-, hother, -⟩⟩ := Block.attachTo_cases he
    · exact Block.regular_modifySlot (f := fun s => { s with value := _ }) h (fun _ => rfl) slot
    · exact Block.regular_attachOperand h hs he
    · exact absurd hk hother
  | detach path slot =>
    obtain ⟨s, emptied, -, rfl, ⟨-, g, hg, rfl⟩ | ⟨hother, -⟩⟩ := Block.detachFrom_cases he
    · exact Block.regular_regrown h hg
    · exact absurd hk hother
  | setValue path slot value =>
    obtain ⟨-, rfl⟩ := Block.writeSlot_eq_ok.mp he
    exact Block.regular_modifySlot (f := fun s => { s with value := value }) h (fun _ => rfl) slot
  | setComparator path slot comparator =>
    obtain ⟨c, hc, he⟩ := bind_eq_ok.mp he
    obtain ⟨⟨s, hs⟩, -⟩ := Block.writeSlot_eq_ok.mp he
    obtain ⟨hid, -⟩ := Block.slot?_split hs
    have hmem := Block.not_mem_comparedSlots (h.numbered s (Block.slot?_mem hs))
    exact absurd (mem_comparedSlots hc) (hid ▸ hmem)
  | addParameter path => exact absurd rfl hp

end Edit

/-! ### Templates -/

/-- A copy has slots of the same shape as its template. -/
theorem Block.map_shape_instantiate (suffix : Nat → String) (first : Nat) (b : Block) :
    (b.instantiate suffix first).slots.map Slot.shape = b.slots.map Slot.shape := by
  have hrenewed : (renewedSlots suffix (first + 1) b.slots).map Slot.shape =
      b.slots.map Slot.shape := map_renewedSlots (fun s renew => by
    rw [Slot.shape, Slot.isEmpty, Option.isNone_map]; rfl) suffix b.slots _
  rw [instantiate, renewed_eq, List.map_map, ← hrenewed]
  rfl

namespace Catalog

theorem shape_of_mem_templates : ∀ t ∈ templates, t.kind = .operator →
    t.slots.map Slot.shape = [(Slot.growth "1").shape] := by decide

/-- **Placed templates are regular**, and nothing is below them. -/
theorem Placed.regular {b : Block} (h : Placed b) : ∀ c ∈ b.nested, c.Regular 1 := by
  obtain ⟨t, -, -, hslots⟩ := h.template
  rw [Block.nested_of_empty fun s hs => (hslots s hs).1]
  intro c hc
  obtain rfl := List.mem_singleton.mp hc
  refine ⟨(Block.wellFormed_iff.mp h.wellFormed).2 c c.self_mem_nested, fun hk => ?_⟩
  have hshape : c.slots.map Slot.shape = [(Slot.growth "1").shape] := by
    cases h with
    | @moved t ht id => exact shape_of_mem_templates t ht hk
    | @copy t ht suffix first =>
      rw [Block.map_shape_instantiate]
      exact shape_of_mem_templates t ht ((Block.kind_instantiate suffix first t).symm.trans hk)
  have hfirst : Slot.Regular (0 + 1) (Slot.relabel 1 [] ++ [Slot.growth "1"]) :=
    .grow (by simp) rfl
  exact hfirst.of_shape hshape.symm

end Catalog

/-! ### Runs of edits -/

/-- **What a run of edits makes of a block**, with the number of edits: what is dropped are templates
of the catalog, and no parameter is added to an operator. -/
inductive Edited (start : Block) : Nat → Block → Prop where
  | start : Edited start 0 start
  | edit {n : Nat} {root next : Block} (run : Edited start n root) (suffix : Nat → String)
    (first : Nat) (e : Edit) (catalog : e.FromCatalog)
    (parameters : e = .addParameter e.path → ∀ owner, root.at? e.path = some owner →
      owner.kind ≠ .operator)
    (applied : e.apply suffix first root = .ok next) : Edited start (n + 1) next

namespace Edit

/-- **One edit of a tree** leaves all its blocks regular, with numbers that are greater by one at
most. -/
theorem regular_apply {bound : Nat} {suffix : Nat → String} {first : Nat} {root next : Block}
    {e : Edit} (hroot : ∀ b ∈ root.nested, b.Regular bound) (hc : e.FromCatalog)
    (hp : e = .addParameter e.path → ∀ owner, root.at? e.path = some owner →
      owner.kind ≠ .operator)
    (h : e.apply suffix first root = .ok next) : ∀ b ∈ next.nested, b.Regular (bound + 1) := by
  obtain ⟨owner, edited, howner, he, hcases⟩ := nested_apply h
  have hold := hroot owner (Block.mem_nested_of_at? howner)
  intro b hb
  rcases hcases b hb with rfl | hb | hb | ⟨c, hc, before, s, after, d, rest, hslots, hd, -, rfl⟩
  · refine ⟨orderly hold.orderly (fun hadd => hp hadd owner howner) he, fun hk => ?_⟩
    have hk' : owner.kind = .operator := (kind_onBlock he).symm.trans hk
    exact regular_onBlock (hold.slots hk') hk' (fun hadd => hp hadd owner howner hk') he
  · obtain ⟨c, hplaced, hb⟩ := exists_placed_of_mem_newBlocks hc hb
    exact (hplaced.regular b hb).mono (Nat.le_add_left 1 bound)
  · exact (hroot b hb).mono (Nat.le_succ bound)
  · exact ((hroot c hc).withChild hslots hd).mono (Nat.le_succ bound)

end Edit

/-- **All blocks are regular after a run of edits.** -/
theorem Edited.regular {start root : Block} {n : Nat} (h : Edited start n root)
    (hstart : Catalog.Placed start) : ∀ b ∈ root.nested, b.Regular (n + 1) := by
  induction h with
  | start => exact hstart.regular
  | edit _ suffix first e hc hp he ih => exact Edit.regular_apply ih hc hp he

end AccessTree
