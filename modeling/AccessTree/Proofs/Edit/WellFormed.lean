import AccessTree.Catalog
import AccessTree.Edit.History
import AccessTree.Proofs.Edit.Orderly
import Mathlib.Logic.Relation

/-! # Edits keep trees well-formed

An edit is `Admissible` if the template that it drops is well-formed and if it adds no parameter to
an operator; it is `Fresh` if the ids of the new blocks are distinct and not in use. Such edits lead
from well-formed trees to well-formed trees: the ids stay distinct because the new ones are put in
one place (`ids_apply`), and the blocks stay in order because every block of the new tree is the
edited one, a block of a copy, or has the outline of a block that was there.

The templates of the catalog are well-formed, and so is whatever a run of edits, each a `Step`,
makes of one that was placed. -/

namespace AccessTree

namespace Edit

/-- The template is well-formed, and no parameter is added to an operator. -/
def Admissible (root : Block) : Edit → Prop
  | .attach _ _ template => template.WellFormed
  | .addParameter path => ∀ owner, root.at? path = some owner → owner.kind ≠ .operator
  | _ => True

/-- The ids of the new blocks are distinct and not in use. -/
structure Fresh (suffix : Nat → String) (first : Nat) (root : Block) (e : Edit) : Prop where
  nodup : (e.newIds suffix first).Nodup
  unused : ∀ i ∈ e.newIds suffix first, i ∉ root.ids

/-- **A step of a run:** an admissible edit with fresh ids. -/
inductive Step (root next : Block) : Prop where
  | edit (suffix : Nat → String) (first : Nat) (e : Edit) (admissible : e.Admissible root)
    (fresh : e.Fresh suffix first root) (applied : e.apply suffix first root = .ok next)

/-- The new blocks are in order if the template is well-formed. -/
theorem orderly_newBlocks {suffix : Nat → String} {first : Nat} {root : Block} {e : Edit}
    (ha : e.Admissible root) : ∀ b ∈ e.newBlocks suffix first, b.Orderly := by
  cases e with
  | attach path slot template =>
    intro b hb
    rw [newBlocks, Block.copied] at hb
    split at hb
    · cases hb
    · exact Block.orderly_instantiate (Block.wellFormed_iff.mp ha).2 b hb
  | detach path slot => simp [newBlocks]
  | setValue path slot value => simp [newBlocks]
  | setComparator path slot comparator => simp [newBlocks]
  | addParameter path => simp [newBlocks]

/-- **One edit keeps a tree well-formed.** -/
theorem wellFormed_apply {suffix : Nat → String} {first : Nat} {root next : Block} {e : Edit}
    (hroot : root.WellFormed) (ha : e.Admissible root) (hf : e.Fresh suffix first root)
    (h : e.apply suffix first root = .ok next) : next.WellFormed := by
  obtain ⟨hids, horderly⟩ := Block.wellFormed_iff.mp hroot
  refine Block.wellFormed_iff.mpr ⟨(ids_apply h).nodup hids hf.nodup hf.unused, fun b hb => ?_⟩
  obtain ⟨owner, edited, ho, he, hcases⟩ := nested_apply h
  rcases hcases b hb with rfl | hb | hb | ⟨c, hc, before, s, after, d, rest, hslots, hd, -, rfl⟩
  · refine orderly (horderly owner (Block.mem_nested_of_at? ho)) (fun hadd => ?_) he
    rw [hadd] at ha
    exact ha owner ho
  · exact orderly_newBlocks ha b hb
  · exact horderly b hb
  · exact (horderly c hc).of_outline (Block.outline_withChild hslots hd _).symm

/-- **A run of edits keeps a tree well-formed.** -/
theorem wellFormed_run {root next : Block} (hroot : root.WellFormed)
    (h : Relation.ReflTransGen Step root next) : next.WellFormed := by
  induction h with
  | refl => exact hroot
  | tail _ step ih =>
    obtain ⟨suffix, first, e, ha, hf, he⟩ := step
    exact wellFormed_apply ih ha hf he

end Edit

/-! ### Templates of the catalog -/

namespace Block

theorem maxInputs_pos {b : Block} {n : Nat} (h : b.maxInputs = some n) : 0 < n := by
  rw [maxInputs] at h
  split at h
  · split at h
    · have := Option.some.inj h
      omega
    · cases h
  · cases h

theorem wellFormed_of_empty {b : Block} (h : ∀ s ∈ b.slots, s.isEmpty = true) (ho : b.Orderly) :
    b.WellFormed := by
  rw [wellFormed_iff, ids, nested_of_empty h]
  simpa using ho

end Block

namespace Catalog

/-- A template that was placed: as it is but under an id of its own, or as a copy. -/
inductive Placed : Block → Prop where
  | moved {t : Block} (h : t ∈ templates) (id : String) :
    Placed { t with id := id, isTemplate := false }
  | copy {t : Block} (h : t ∈ templates) (suffix : Nat → String) (first : Nat) :
    Placed (t.instantiate suffix first)

theorem isEmpty_of_mem_templates : ∀ t ∈ templates, ∀ s ∈ t.slots, s.isEmpty = true := by decide

theorem orderly_of_mem_templates {t : Block} (h : t ∈ templates) : t.Orderly := by
  have hdistinct : ∀ t ∈ templates, (t.slots.map Slot.id).Nodup := by decide
  have hgrowing : ∀ t ∈ templates, t.kind = .operator →
      t.slots.map Slot.isEmpty = [true] ∧ t.slots.filterMap Slot.parameterDigits? = [] := by decide
  have hparameters : ∀ t ∈ templates,
      (t.slots.filterMap Slot.parameterDigits?, t.property "parameterCount") = ([], .null) ∨
        (t.slots.filterMap Slot.parameterDigits?, t.property "parameterCount") =
          ([[0]], .int 1) := by decide
  refine ⟨hdistinct t h, fun hk => ?_, fun hk => (hgrowing t h hk).2, ?_⟩
  · rw [(hgrowing t h hk).1]
    exact .growing 0 fun m hm => Block.maxInputs_pos hm
  · rcases hparameters t h with hp | hp
    · obtain ⟨hd, hc⟩ := Prod.mk.inj hp
      rw [hd, hc]
      exact ⟨by simp, by simp, by simp, by simp⟩
    · obtain ⟨hd, hc⟩ := Prod.mk.inj hp
      rw [hd, hc]
      exact ⟨by decide, by decide, by decide, by simp⟩

theorem wellFormed_of_mem_templates {t : Block} (h : t ∈ templates) : t.WellFormed :=
  Block.wellFormed_of_empty (isEmpty_of_mem_templates t h) (orderly_of_mem_templates h)

theorem mem_templates_of_find? {id : String} {t : Block} (h : find? id = some t) : t ∈ templates :=
  List.mem_of_find?_eq_some h

/-- **What is placed looks like its template**: nothing is connected to it, and its slots take the
same kinds of blocks. -/
theorem Placed.template {b : Block} (h : Placed b) : ∃ t ∈ templates, b.outline = t.outline ∧
    ∀ s ∈ b.slots, s.isEmpty = true ∧ ∃ u ∈ t.slots, s.accepts = u.accepts := by
  cases h with
  | @moved t ht id =>
    have hempty := isEmpty_of_mem_templates t ht
    exact ⟨t, ht, rfl, fun s hs => ⟨hempty s hs, s, hs, rfl⟩⟩
  | @copy t ht suffix first =>
    have hempty := isEmpty_of_mem_templates t ht
    have hout : (t.instantiate suffix first).outline = t.outline :=
      (Block.alike_instantiate suffix first t).outline.trans (Block.outline_renewed suffix first t)
    refine ⟨t, ht, hout, fun s hs => ?_⟩
    obtain ⟨u, hu, haccepts, hsu⟩ := Block.mem_slots_instantiate hs
    exact ⟨hsu (hempty u hu), u, hu, haccepts⟩

/-- **Placed templates are well-formed.** -/
theorem Placed.wellFormed {b : Block} (h : Placed b) : b.WellFormed := by
  obtain ⟨t, ht, hout, hslots⟩ := h.template
  exact Block.wellFormed_of_empty (fun s hs => (hslots s hs).1)
    ((orderly_of_mem_templates ht).of_outline hout.symm)

end Catalog

namespace Edit

/-- **Edits keep well-formed trees well-formed**, and what a run of edits makes of a placed template
passes the check of the invariants. -/
theorem wellFormed_edits :
    (∀ (suffix : Nat → String) (first : Nat) (root next : Block) (e : Edit), root.WellFormed →
      e.Admissible root → e.Fresh suffix first root → e.apply suffix first root = .ok next →
      next.WellFormed) ∧
    ∀ start next : Block, Catalog.Placed start → Relation.ReflTransGen Step start next →
      next.checkInvariants = .ok () :=
  ⟨fun _ _ _ _ _ hroot ha hf h => wellFormed_apply hroot ha hf h,
    fun _ _ hstart h => (wellFormed_run hstart.wellFormed h).accepted⟩

/-- A contract call is dropped onto an operator, and then a parameter is added to it. -/
theorem wellFormed_edits_call : ∃ operator call first second : Block,
    Catalog.find? "and" = some operator ∧ Catalog.find? "contract-call" = some call ∧
      (attach [] "condition-1" call).apply History.suffix 1
        { operator with isTemplate := false } = .ok first ∧
      (addParameter ["condition-1"]).apply History.suffix 2 first = .ok second ∧
      first.WellFormed ∧ second.checkInvariants = .ok () := by
  have hcall : Catalog.find? "contract-call" = some _ := rfl
  have hand : Catalog.find? "and" = some _ := rfl
  have hplaced := Catalog.Placed.moved (Catalog.mem_templates_of_find? hand) "and"
  have hadmissible := Catalog.wellFormed_of_mem_templates (Catalog.mem_templates_of_find? hcall)
  refine ⟨_, _, _, _, hand, hcall, rfl, rfl, ?_, ?_⟩
  · exact wellFormed_edits.1 History.suffix 1 _ _ (attach [] "condition-1" _) hplaced.wellFormed
      hadmissible ⟨by decide, by decide⟩ rfl
  · refine wellFormed_edits.2 _ _ hplaced (.tail (.single (.edit History.suffix 1
      (attach [] "condition-1" _) hadmissible ⟨by decide, by decide⟩ rfl))
      (.edit History.suffix 2 (addParameter ["condition-1"]) ?_ ⟨by decide, by decide⟩ rfl))
    intro owner howner
    cases howner
    decide

end Edit

end AccessTree
