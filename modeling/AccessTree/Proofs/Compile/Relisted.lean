import AccessTree.Proofs.Compile.Lenient
import Mathlib.Data.List.Nodup
import Mathlib.Data.List.Perm.Basic

/-! # Listing nested blocks again

A composition is a list of blocks, and a block that is connected somewhere below one of them may
be listed once more beside them. The copy has the id of a connected block, so it does not stand at
the top, and all that is connected below it is connected below its original as well. One more copy
therefore leaves both the ids of connected blocks (`mem_connectedIds_insert`) and the blocks at the
top (`topLevel_insert`) alone, wherever it is listed, and so do any number of them
(`topLevel_of_relisted`).

If all ids of a composition are distinct, no listed block has the id of a connected one and every
listed block stands at the top (`topLevel_of_nodup`). -/

namespace AccessTree

namespace Block

/-- **Nested blocks are listed again**: blocks nested in the trees of a composition are added to the
list, one after the other and each at any place. -/
inductive Relisted (blocks : List Block) : List Block → Prop where
  | original : Relisted blocks blocks
  | insert (before after : List Block) (copy : Block)
    (nested : copy ∈ blocks.flatMap descendants) (rest : Relisted blocks (before ++ after)) :
    Relisted blocks (before ++ copy :: after)

variable {blocks others : List Block}

/-! ### One more copy -/

section Insert

variable {before after : List Block} {copy : Block}
  (hcopy : copy ∈ (before ++ after).flatMap descendants)
include hcopy

/-- **A copy connects nothing new.** -/
theorem mem_connectedIds_insert (x : String) :
    x ∈ connectedIds (before ++ copy :: after) ↔ x ∈ connectedIds (before ++ after) := by
  -- what is connected below the copy is connected where the copy is nested
  have hbelow : x ∈ copy.descendants.map Block.id → x ∈ connectedIds (before ++ after) := by
    intro hx
    obtain ⟨c, hc, rfl⟩ := List.mem_map.mp hx
    obtain ⟨root, hroot, hnested⟩ := List.mem_flatMap.mp hcopy
    exact mem_connectedIds.mpr
      ⟨c, List.mem_flatMap.mpr ⟨root, hroot, descendants_subset hnested hc⟩, rfl⟩
  unfold connectedIds at hbelow ⊢
  simp only [List.flatMap_append, List.flatMap_cons, List.mem_append] at hbelow ⊢
  tauto

/-- **A copy is passed over at the top**, and hides no other block there. -/
theorem topLevel_insert : topLevel (before ++ copy :: after) = topLevel (before ++ after) := by
  have hids : ∀ b : Block, (connectedIds (before ++ copy :: after)).contains b.id =
      (connectedIds (before ++ after)).contains b.id := by
    intro b
    rw [Bool.eq_iff_iff, List.contains_iff_mem, List.contains_iff_mem,
      mem_connectedIds_insert hcopy]
  have hcontained : (connectedIds (before ++ after)).contains copy.id = true :=
    List.contains_iff_mem.mpr (mem_connectedIds.mpr ⟨copy, hcopy, rfl⟩)
  unfold topLevel
  simp only [hids]
  rw [List.filter_append, List.filter_cons_of_neg (by rw [hcontained]; decide),
    ← List.filter_append]

end Insert

/-! ### Any number of copies -/

/-- What was listed is still listed. -/
theorem Relisted.subset (h : Relisted blocks others) : blocks ⊆ others := by
  induction h with
  | original => exact List.Subset.refl blocks
  | insert before after copy _ _ ih =>
    intro b hb
    rcases List.mem_append.mp (ih hb) with hb | hb
    · exact List.mem_append_left _ hb
    · exact List.mem_append_right before (List.mem_cons_of_mem copy hb)

/-- **The blocks at the top** are those that stood there before nested blocks were listed again. -/
theorem topLevel_of_relisted (h : Relisted blocks others) : topLevel others = topLevel blocks := by
  induction h with
  | original => rfl
  | insert before after copy hnested hrest ih =>
    obtain ⟨b, hb, hcopy⟩ := List.mem_flatMap.mp hnested
    have hlisted : copy ∈ (before ++ after).flatMap descendants :=
      List.mem_flatMap.mpr ⟨b, hrest.subset hb, hcopy⟩
    rw [topLevel_insert hlisted, ih]

/-! ### Distinct ids -/

/-- The ids of a composition are those of the listed blocks and those of the connected ones. -/
theorem perm_ids (blocks : List Block) :
    (blocks.flatMap ids).Perm (blocks.map Block.id ++ connectedIds blocks) := by
  have hids : ids = fun b => [b.id] ++ b.descendants.map Block.id := by
    funext b
    rw [ids_eq, List.singleton_append]
  rw [hids, connectedIds, List.map_eq_flatMap]
  exact (List.flatMap_append_perm blocks _ _).symm

/-- **If all ids are distinct**, every listed block stands at the top. -/
theorem topLevel_of_nodup (hd : (blocks.flatMap ids).Nodup) : topLevel blocks = blocks := by
  obtain ⟨-, -, hapart⟩ := List.nodup_append.mp ((perm_ids blocks).nodup_iff.mp hd)
  unfold topLevel
  rw [List.filter_eq_self]
  intro b hb
  have : b.id ∉ connectedIds blocks := fun h =>
    hapart b.id (List.mem_map_of_mem hb) b.id h rfl
  simpa using this

end Block

namespace Compile

variable {blocks others : List Block}

/-- Compositions with the same blocks at the top come to the same. -/
theorem workspace_of_topLevel_eq (mode : CompileMode)
    (h : Block.topLevel others = Block.topLevel blocks) :
    workspace mode others = workspace mode blocks := by
  have hroots : roots others = roots blocks := by unfold roots; rw [h]
  unfold workspace unvalidated
  rw [hroots]

/-- **Listing nested blocks again is harmless.** If all ids of a composition are distinct and blocks
nested in it are listed again, any number of them and anywhere, then the blocks at the top are the
blocks that were listed at first, in their order, and the outcome is the same in either mode. -/
theorem workspace_of_relisted (hd : (blocks.flatMap Block.ids).Nodup)
    (h : Block.Relisted blocks others) :
    Block.topLevel others = blocks ∧
      ∀ mode, workspace mode others = workspace mode blocks := by
  have htop : Block.topLevel others = Block.topLevel blocks := Block.topLevel_of_relisted h
  exact ⟨htop.trans (Block.topLevel_of_nodup hd), fun mode => workspace_of_topLevel_eq mode htop⟩

/-- A time block that is negated twice, beside another one. -/
def doubleNegation : List Block :=
  [negation "outer" [negation "inner" [timeBlock "time" none]],
    timeBlock "other" (some (.text "137"))]

/-- The double negation with the time block listed again before its owner and at the end, and the
inner negation listed again between the two trees. -/
def relistedNegation : List Block :=
  [timeBlock "time" none, negation "outer" [negation "inner" [timeBlock "time" none]],
    negation "inner" [timeBlock "time" none], timeBlock "other" (some (.text "137")),
    timeBlock "time" none]

/-- The copies change nothing: neither negation is lost, and no time block is compiled twice. -/
theorem workspace_of_relisted_doubleNegation :
    (doubleNegation.flatMap Block.ids).Nodup ∧
    Block.Relisted doubleNegation relistedNegation ∧
    Block.topLevel relistedNegation = doubleNegation ∧
    (workspace ⟨true, .ok .sepolia⟩ relistedNegation).result =
      .ok (some (.compound .and [.compound .not [.compound .not [.time .sepolia atLeastZero]],
        .time .polygon atLeastZero])) := by
  have hd : (doubleNegation.flatMap Block.ids).Nodup := by decide
  have hinner : negation "inner" [timeBlock "time" none] ∈
      doubleNegation.flatMap Block.descendants := List.mem_cons_self
  have htime : timeBlock "time" none ∈ doubleNegation.flatMap Block.descendants :=
    List.mem_cons_of_mem _ List.mem_cons_self
  have hfirst := Block.Relisted.insert [] doubleNegation _ htime .original
  have hsecond := Block.Relisted.insert [_, _] [_] _ hinner hfirst
  have hthird : Block.Relisted doubleNegation relistedNegation :=
    Block.Relisted.insert [_, _, _, _] [] _ htime hsecond
  obtain ⟨htop, hsame⟩ := workspace_of_relisted hd hthird
  refine ⟨hd, hthird, htop, ?_⟩
  rw [hsame]
  rfl

end Compile

end AccessTree
