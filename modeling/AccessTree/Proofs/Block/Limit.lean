import AccessTree.Proofs.Block.Wire
import AccessTree.Proofs.Except
import Mathlib.Algebra.GroupWithZero.Nat

/-! # Raw trees and the blocks read from them

Limits are checked on raw JSON before blocks are read, and on blocks after an edit. Both count the
same blocks and the same levels: the objects that count as the children of a raw tree are exactly
those that the children of the block are read from (`forall₂_children`), and size and depth of either
tree are those of its children (`RawTree.size_eq_children`, `Block.size_eq_children`). So a raw tree
is refused exactly if the block that is read from it is refused (`RawTree.check_eq_checkLimits`), and
several raw trees exactly if one of the blocks is too deep or all of them together are too many
(`limits_agree`). Whether levels are counted upwards from the blocks without children or downwards
from the root makes no difference (`RawTree.exceeds_iff`). -/

namespace AccessTree

/-- A maximum exceeds a number if one of the numbers it is taken of does. -/
theorem lt_foldr_max {α : Type} {f : α → Nat} {as : List α} {n : Nat} :
    n < (as.map f).foldr max 0 ↔ ∃ a ∈ as, n < f a := by
  induction as with
  | nil => simp
  | cons a as ih =>
    simp only [List.map_cons, List.foldr_cons, List.mem_cons, exists_eq_or_imp, ← ih]
    omega

theorem le_foldr_max {α : Type} {f : α → Nat} {as : List α} {a : α} (ha : a ∈ as) :
    f a ≤ (as.map f).foldr max 0 := by
  by_contra h
  exact Nat.lt_irrefl _ (lt_foldr_max.mpr ⟨a, ha, Nat.lt_of_not_le h⟩)

theorem map_eq_map_of_forall₂ {α β γ : Type} {R : α → β → Prop} {f : α → γ} {g : β → γ}
    {as : List α} {bs : List β} (h : List.Forall₂ R as bs)
    (hfg : ∀ b ∈ bs, ∀ a, R a b → f a = g b) : as.map f = bs.map g := by
  induction h with
  | nil => rfl
  | cons hab _ ih =>
    rw [List.map_cons, List.map_cons, hfg _ List.mem_cons_self _ hab,
      ih fun b hb => hfg b (List.mem_cons_of_mem _ hb)]

namespace Block

/-! ### Levels and blocks by children -/

theorem depthSlots_eq (slots : List Slot) :
    depthSlots slots = ((slots.filterMap Slot.connected).map depth).foldr max 0 := by
  induction slots with
  | nil => rw [depthSlots]; rfl
  | cons s rest ih =>
    obtain ⟨id, accepts, label, value, comparator, inputType, _ | c⟩ := s
    · rw [depthSlots, ih]; rfl
    · rw [depthSlots, ih]; rfl

/-- A block is one level above the deepest of its children. -/
theorem depth_eq_children (b : Block) :
    b.depth = 1 + (b.children.map depth).foldr max 0 := by
  rw [depth_eq, depthSlots_eq, children]

/-- A tree has one block more than its children have together. -/
theorem size_eq_children (b : Block) : b.size = 1 + (b.children.map size).sum := by
  rw [size, nested_eq_children, List.length_cons, List.length_flatMap, Nat.add_comm]
  rfl

end Block

namespace RawTree

/-! ### Raw children -/

/-- The object that counts as the block connected to a raw slot. -/
def connected? : Json → Option Json
  | .obj fields => (fields.lookup "connected").filter isObject
  | _ => none

/-- **The objects that count as the children** of a raw tree. -/
def children : Json → List Json
  | .obj fields =>
    match fields.lookup "inputs" with
    | some (.arr items) => items.filterMap connected?
    | _ => []
  | _ => []

theorem isObject_of_connected? {v w : Json} (h : connected? v = some w) : isObject w = true := by
  unfold connected? at h
  split at h
  · exact (Option.filter_eq_some_iff.mp h).2
  · cases h

theorem isObject_of_mem_children {v w : Json} (h : w ∈ children v) : isObject w = true := by
  unfold children at h
  split at h
  · split at h
    · obtain ⟨u, -, hu⟩ := List.mem_filterMap.mp h
      exact isObject_of_connected? hu
    · cases h
  · cases h

/-- What is no object has neither levels nor blocks. -/
theorem depth_eq_zero {v : Json} (h : isObject v = false) : depth v = 0 ∧ size v = 0 := by
  cases v with
  | obj fields => cases h
  | null | bool | int | float | str | arr => exact ⟨by simp [depth], by simp [size]⟩

theorem measures_slot (v : Json) :
    depthSlot v = ((connected? v).map depth).getD 0 ∧
      sizeSlot v = ((connected? v).map size).getD 0 := by
  cases v with
  | obj fields =>
    rw [depthSlot, depthConnected_eq, sizeSlot, sizeConnected_eq, connected?]
    cases fields.lookup "connected" with
    | none => exact ⟨rfl, rfl⟩
    | some w =>
      cases hw : isObject w with
      | true => simp [Option.filter, hw]
      | false =>
        obtain ⟨hdepth, hsize⟩ := depth_eq_zero hw
        simp [Option.filter, hw, hdepth, hsize]
  | null | bool | int | float | str | arr =>
    exact ⟨by simp [depthSlot, connected?], by simp [sizeSlot, connected?]⟩

theorem measures_items (items : List Json) :
    depthItems items = ((items.filterMap connected?).map depth).foldr max 0 ∧
      sizeItems items = ((items.filterMap connected?).map size).sum := by
  induction items with
  | nil => exact ⟨by rw [depthItems]; rfl, by rw [sizeItems]; rfl⟩
  | cons v rest ih =>
    obtain ⟨hdepth, hsize⟩ := measures_slot v
    rw [depthItems, sizeItems, ih.1, ih.2, hdepth, hsize]
    cases hv : connected? v with
    | none => simp [hv]
    | some w => simp [hv]

theorem measures_eq {v : Json} (h : isObject v = true) :
    depth v = 1 + ((children v).map depth).foldr max 0 ∧
      size v = 1 + ((children v).map size).sum := by
  cases v with
  | obj fields =>
    rw [depth, depthInputs_eq, size, sizeInputs_eq, children]
    cases fields.lookup "inputs" with
    | none => exact ⟨rfl, rfl⟩
    | some w =>
      cases w with
      | arr items =>
        obtain ⟨hdepth, hsize⟩ := measures_items items
        rw [Option.map_some, Option.getD_some, depthSlots, hdepth, Option.map_some,
          Option.getD_some, sizeSlots, hsize]
        exact ⟨rfl, rfl⟩
      | null | bool | int | float | str | obj =>
        exact ⟨by simp [depthSlots], by simp [sizeSlots]⟩
  | null | bool | int | float | str | arr => cases h

/-- A raw tree is one level above the deepest of its children. -/
theorem depth_eq_children {v : Json} (h : isObject v = true) :
    depth v = 1 + ((children v).map depth).foldr max 0 := (measures_eq h).1

/-- A raw tree has one block more than its children have together. -/
theorem size_eq_children {v : Json} (h : isObject v = true) :
    size v = 1 + ((children v).map size).sum := (measures_eq h).2

theorem depth_lt_of_mem_children {v w : Json} (h : isObject v = true) (hw : w ∈ children v) :
    depth w < depth v := by
  have hle := le_foldr_max (f := depth) hw
  rw [depth_eq_children h]
  omega

/-! ### Levels counted from the root -/

/-- **A walk down a raw tree finds a level too many:** it starts at a tree on some level, goes on to
the children on the level below, and gives up at the first tree whose level is beyond the limit. -/
inductive Exceeds (limit : Int) : Nat → Json → Prop where
  | here {level : Nat} {v : Json} (hlevel : limit < level) : Exceeds limit level v
  | child {level : Nat} {v w : Json} (hw : w ∈ children v) (h : Exceeds limit (level + 1) w) :
    Exceeds limit level v

/-- A tree on a level reaches down as many levels further as it has, its own level counted. -/
theorem Exceeds.lt {limit : Int} {level : Nat} {v : Json} (h : Exceeds limit level v)
    (hv : isObject v = true) : limit + 1 < level + depth v := by
  induction h with
  | @here level v hlevel =>
    rw [depth_eq_children hv]
    omega
  | @child level v w hw _ ih =>
    have hlt := depth_lt_of_mem_children hv hw
    have := ih (isObject_of_mem_children hw)
    omega

theorem exceeds_of_lt {limit : Int} (n : Nat) : ∀ {level : Nat} {v : Json}, depth v = n →
    isObject v = true → limit + 1 < level + depth v → Exceeds limit level v := by
  induction n using Nat.strongRecOn with
  | ind n ih =>
    intro level v hn hv hlt
    by_cases hlevel : limit < level
    · exact .here hlevel
    · -- the level itself is within the limit, so a child is deeper than what is left of it
      have hdeep : (limit - level).toNat < ((children v).map depth).foldr max 0 := by
        rw [depth_eq_children hv] at hlt
        omega
      obtain ⟨w, hw, hdepth⟩ := lt_foldr_max.mp hdeep
      have hsmaller : depth w < n := hn ▸ depth_lt_of_mem_children hv hw
      exact .child hw (ih _ hsmaller rfl (isObject_of_mem_children hw) (by omega))

/-- **Levels counted from the root** come to the depth of the tree. -/
theorem exceeds_iff {limit : Int} {v : Json} (hv : isObject v = true) :
    Exceeds limit 1 v ↔ limit < depth v := by
  constructor
  · intro h
    have := h.lt hv
    omega
  · intro h
    exact exceeds_of_lt _ rfl hv (by omega)

theorem checkDepth_eq_error {limit : Int} {v : Json} :
    (∃ f, checkDepth limit v = .error f) ↔ limit < depth v := by
  rw [checkDepth]
  split
  · next h => exact iff_of_true ⟨_, rfl⟩ h
  · next h => exact iff_of_false (by rintro ⟨f, ⟨⟩⟩) h

theorem checkSize_eq_error {limit : Int} {v : Json} :
    (∃ f, checkSize limit v = .error f) ↔ limit < totalSize v := by
  rw [checkSize]
  split
  · next h => exact iff_of_true ⟨_, rfl⟩ h
  · next h => exact iff_of_false (by rintro ⟨f, ⟨⟩⟩) h

/-- Trees are refused if one is too deep, or else if they have too many blocks together. -/
theorem check_eq_error {limits : TreeLimits} {v : Json} : (∃ f, check limits v = .error f) ↔
    (∃ w ∈ roots v, isObject w = true ∧ limits.maxDepth < depth w) ∨
      limits.maxBlocks < totalSize v := by
  have hlevels : (∃ f, forM ((roots v).filter isObject) (checkDepth limits.maxDepth) = .error f) ↔
      ∃ w ∈ roots v, isObject w = true ∧ limits.maxDepth < depth w := by
    rw [exists_forM_eq_error]
    simp only [List.mem_filter, checkDepth_eq_error, and_assoc]
  rw [← hlevels, ← checkSize_eq_error]
  change (∃ f, (forM ((roots v).filter isObject) (checkDepth limits.maxDepth) >>= fun _ =>
    checkSize limits.maxBlocks v) = .error f) ↔ _
  cases forM ((roots v).filter isObject) (checkDepth limits.maxDepth) with
  | error f => simp [bind_eq_error]
  | ok u => simp [bind_eq_error]

end RawTree

/-! ### What is read -/

variable {r : BlockReading}

/-- What counts as connected to a raw slot is what the connected block is read from. -/
theorem rel_connected? {v : Json} {s : Slot} (h : Slot.ofJson r v = .ok s) :
    Option.Rel (fun w c => Block.ofJson r w = .ok c) (RawTree.connected? v) s.connected := by
  obtain ⟨fields, rfl, h⟩ := Slot.exists_fields h
  obtain ⟨-, -, -, -, -, -, hconnected⟩ := Slot.ofFields_eq_ok.mp h
  rw [blockIn_eq] at hconnected
  rw [RawTree.connected?]
  cases hlookup : fields.lookup "connected" with
  | none =>
    obtain ⟨-, hnone⟩ | hread := hconnected
    · rw [hnone]
      exact .none
    · simp [hlookup] at hread
  | some w =>
    obtain ⟨hnone, -⟩ | hread := hconnected
    · simp [hlookup] at hnone
    · rw [hlookup, Option.map_some, Option.some.injEq] at hread
      cases hs : s.connected with
      | none =>
        -- only null is read as no block
        rw [hs] at hread
        unfold blockOrNull at hread
        split at hread
        · exact .none
        · simp [Checked.map_eq_ok] at hread
        · simp at hread
      | some c =>
        have hc := ofJson_of_blockOrNull (hs ▸ hread)
        obtain ⟨inner, rfl, -⟩ := Block.exists_fields hc
        exact .some hc

theorem forall₂_filterMap_connected? {vs : List Json} {slots : List Slot}
    (h : List.Forall₂ (fun v s => Slot.ofJson r v = .ok s) vs slots) :
    List.Forall₂ (fun w c => Block.ofJson r w = .ok c) (vs.filterMap RawTree.connected?)
      (slots.filterMap Slot.connected) := by
  induction h with
  | nil => exact .nil
  | @cons v s vs slots hv _ ih =>
    have hrel := rel_connected? hv
    rw [List.filterMap_cons, List.filterMap_cons]
    cases hs : s.connected with
    | none =>
      rw [hs] at hrel
      cases hw : RawTree.connected? v with
      | none => exact ih
      | some w => rw [hw] at hrel; cases hrel
    | some c =>
      rw [hs] at hrel
      cases hw : RawTree.connected? v with
      | none => rw [hw] at hrel; cases hrel
      | some w =>
        rw [hw] at hrel
        cases hrel with
        | some hwc => exact .cons hwc ih

/-- **The children of a block** are read from the children of the raw tree, in order. -/
theorem forall₂_children {v : Json} {b : Block} (h : Block.ofJson r v = .ok b) :
    List.Forall₂ (fun w c => Block.ofJson r w = .ok c) (RawTree.children v) b.children := by
  obtain ⟨fields, rfl, h⟩ := Block.exists_fields h
  obtain ⟨-, -, -, -, -, hslots, -, -⟩ := Block.ofFields_eq_ok.mp h
  rw [slotsIn_eq] at hslots
  rw [RawTree.children, Block.children]
  cases hlookup : fields.lookup "inputs" with
  | none =>
    obtain ⟨-, hnil⟩ | hread := hslots
    · rw [hnil]
      exact .nil
    · simp [hlookup] at hread
  | some w =>
    obtain ⟨hnone, -⟩ | hread := hslots
    · simp [hlookup] at hnone
    · rw [hlookup, Option.map_some, Option.some.injEq] at hread
      obtain ⟨items, rfl, hitems⟩ := exists_items hread
      exact forall₂_filterMap_connected? hitems

theorem isObject_of_ofJson {v : Json} {b : Block} (h : Block.ofJson r v = .ok b) :
    RawTree.isObject v = true := by
  obtain ⟨fields, rfl, -⟩ := Block.exists_fields h
  rfl

namespace Block

/-- **A raw tree has the levels** of the block that is read from it. -/
theorem depth_of_ofJson (b : Block) : ∀ v, Block.ofJson r v = .ok b → RawTree.depth v = b.depth := by
  induction b using Block.childInduction with
  | step b ih =>
    intro v h
    rw [RawTree.depth_eq_children (isObject_of_ofJson h), depth_eq_children,
      map_eq_map_of_forall₂ (forall₂_children h) ih]

/-- **A raw tree has as many blocks** as the block that is read from it. -/
theorem size_of_ofJson (b : Block) : ∀ v, Block.ofJson r v = .ok b → RawTree.size v = b.size := by
  induction b using Block.childInduction with
  | step b ih =>
    intro v h
    rw [RawTree.size_eq_children (isObject_of_ofJson h), size_eq_children,
      map_eq_map_of_forall₂ (forall₂_children h) ih]

end Block

/-! ### Limits -/

namespace RawTree

theorem roots_of_isObject {v : Json} (h : isObject v = true) : roots v = [v] := by
  cases v with
  | obj fields => rfl
  | null | bool | int | float | str | arr => cases h

theorem totalSize_eq (v : Json) : totalSize v = ((roots v).map size).sum := by
  rw [totalSize, List.sum_eq_foldr, List.foldr_map]

theorem totalSize_of_isObject {v : Json} (h : isObject v = true) : totalSize v = size v := by
  rw [totalSize_eq, roots_of_isObject h, List.map_singleton, List.sum_singleton]

/-- **A raw tree is refused as its block is**, with the same figures. -/
theorem check_eq_checkLimits {v : Json} {b : Block} (h : Block.ofJson r v = .ok b)
    (limits : TreeLimits) : check limits v = b.checkLimits limits := by
  have hv := isObject_of_ofJson h
  have hlevels : forM ((roots v).filter isObject) (checkDepth limits.maxDepth) =
      checkDepth limits.maxDepth v := by
    rw [roots_of_isObject hv, List.filter_cons_of_pos hv, List.filter_nil, List.forM_cons]
    cases checkDepth limits.maxDepth v <;> rfl
  change (forM ((roots v).filter isObject) (checkDepth limits.maxDepth) >>= fun _ =>
    checkSize limits.maxBlocks v) = _
  rw [hlevels, checkDepth, checkSize, totalSize_of_isObject hv, b.depth_of_ofJson v h,
    b.size_of_ofJson v h, Block.checkLimits]
  split
  · rfl
  · rfl

end RawTree

/-- **Raw trees and blocks are held against the same limits.** A raw tree that reads as a block has
too many levels, counted from either end, or too many blocks, exactly if the block has; it is refused
as the block is. Several such trees are refused exactly if one block is too deep or all have too many
blocks together. -/
theorem limits_agree (r : BlockReading) :
    (∀ v b, Block.ofJson r v = .ok b → ∀ limit : Int,
      ((∃ f, RawTree.checkDepth limit v = .error f) ↔ limit < b.depth) ∧
      (RawTree.Exceeds limit 1 v ↔ limit < b.depth) ∧
      ((∃ f, RawTree.checkSize limit v = .error f) ↔ limit < b.nested.length)) ∧
    (∀ v b, Block.ofJson r v = .ok b →
      ∀ limits, RawTree.check limits v = b.checkLimits limits) ∧
    ∀ vs bs, List.Forall₂ (fun v b => Block.ofJson r v = .ok b) vs bs → ∀ limits : TreeLimits,
      ((∃ f, RawTree.check limits (.arr vs) = .error f) ↔
        (∃ b ∈ bs, limits.maxDepth < b.depth) ∨
          limits.maxBlocks < (bs.map fun b => b.nested.length).sum) := by
  refine ⟨fun v b h limit => ?_, fun v b h => RawTree.check_eq_checkLimits h,
    fun vs bs h limits => ?_⟩
  · have hv := isObject_of_ofJson h
    rw [RawTree.checkDepth_eq_error, RawTree.exceeds_iff hv, RawTree.checkSize_eq_error,
      RawTree.totalSize_of_isObject hv, b.depth_of_ofJson v h, b.size_of_ofJson v h]
    exact ⟨Iff.rfl, Iff.rfl, Iff.rfl⟩
  · have hsize : RawTree.totalSize (.arr vs) = (bs.map fun b => b.nested.length).sum := by
      rw [RawTree.totalSize_eq]
      exact congrArg List.sum (map_eq_map_of_forall₂ h fun b _ v => b.size_of_ofJson v)
    have hdepth : (∃ v ∈ vs, RawTree.isObject v = true ∧ limits.maxDepth < RawTree.depth v) ↔
        ∃ b ∈ bs, limits.maxDepth < b.depth := by
      clear hsize
      induction h with
      | nil => simp
      | @cons v b vs bs hv _ ih =>
        simp only [List.mem_cons, exists_eq_or_imp, ih, isObject_of_ofJson hv, true_and,
          b.depth_of_ofJson v hv]
    rw [RawTree.check_eq_error, hsize, ← hdepth]
    rfl

/-- A raw operator over a time condition whose chain stands on a block of its own. What its
properties hold looks like slots with blocks. -/
def rawNegation : Json :=
  .obj [("type", .str "operator"), ("id", .str "not"),
    ("properties", .obj [("inputs", .arr [.obj [("connected", .obj [])]])]),
    ("inputs", .arr [.obj [("id", .str "operand"), ("connected", .obj
      [("id", .str "time"), ("type", .str "condition"), ("inputs", .arr [.obj [("id", .str "chain"),
        ("connected", .obj [("id", .str "chain"), ("type", .str "value"), ("value", .int 1)])]])])],
      .obj [("id", .str "next"), ("connected", .null)]])]

/-- The block that is read. -/
def readNegation : Block :=
  let chain : Block := ⟨"chain", .value, "", "", [], [], some (.int 1), false⟩
  let time : Block :=
    ⟨"time", .condition, "", "", [], [⟨"chain", [], "", none, none, none, some chain⟩], none, false⟩
  ⟨"not", .operator, "", "", [("inputs", .arr [.obj [("connected", .obj [])]])],
    [⟨"operand", [], "", none, none, none, some time⟩, ⟨"next", [], "", none, none, none, none⟩],
    none, false⟩

/-- Three levels and three blocks: one less of either is too few, and so are five blocks for the tree
given twice. -/
theorem limits_agree_negation :
    Block.ofJson .byType rawNegation = .ok readNegation ∧
    (∃ f, RawTree.checkDepth 2 rawNegation = .error f) ∧
    ¬ RawTree.Exceeds 3 1 rawNegation ∧
    (∃ f, RawTree.checkSize 2 rawNegation = .error f) ∧
    RawTree.check ⟨3, 3⟩ rawNegation = .ok () ∧
    ∃ f, RawTree.check ⟨3, 5⟩ (.arr [rawNegation, rawNegation]) = .error f := by
  have hread : Block.ofJson .byType rawNegation = .ok readNegation := by rfl
  have htwice : List.Forall₂ (fun v b => Block.ofJson .byType v = .ok b)
      [rawNegation, rawNegation] [readNegation, readNegation] := .cons hread (.cons hread .nil)
  have hlevels : readNegation.depth = 3 := by rfl
  have hblocks : readNegation.nested.length = 3 := by rfl
  obtain ⟨hone, hsame, hmany⟩ := limits_agree .byType
  refine ⟨hread, (hone _ _ hread 2).1.mpr ?_, fun h => ?_, (hone _ _ hread 2).2.2.mpr ?_,
    (hsame _ _ hread ⟨3, 3⟩).trans ?_, (hmany _ _ htwice ⟨3, 5⟩).mpr (.inr ?_)⟩
  · rw [hlevels]; decide
  · have := (hone _ _ hread 3).2.1.mp h
    omega
  · rw [hblocks]; decide
  · rfl
  · simp only [List.map_cons, List.map_nil, hblocks]; decide

end AccessTree
