import AccessTree.Proofs.Json.Walk
import Mathlib.Data.List.Nodup
import Mathlib.Data.List.Perm.Basic

/-! # Values that differ in the order of fields

`Reordered a b` says that `b` is `a` with the fields of its objects, at any depth, in another order;
lists keep the order of their items, and everything else is the same. Values that differ in this way
only are exactly those that are equal once sorted, if no object names a key twice
(`sorted_eq_iff_reordered`): distinct keys have one sorted order, so that sorting forgets the order
and nothing else. A value and the sorted value have the same integers, so both can be written or
neither (`isWritable_sorted`). -/

namespace AccessTree.Json

/-- **The same value up to the order of fields.** The values of the fields are taken one by one, and
then the fields are put into another order. -/
inductive Reordered : Json → Json → Prop
  | refl (v : Json) : Reordered v v
  | arr {as bs : List Json} (items : List.Forall₂ Reordered as bs) : Reordered (.arr as) (.arr bs)
  | obj {fs gs hs : Fields} (keys : fs.map Prod.fst = gs.map Prod.fst)
    (values : List.Forall₂ Reordered (fs.map Prod.snd) (gs.map Prod.snd)) (order : gs.Perm hs) :
    Reordered (.obj fs) (.obj hs)

/-- The same field up to the order of fields inside its value. -/
def ReorderedField (f g : String × Json) : Prop := f.1 = g.1 ∧ Reordered f.2 g.2

theorem forall₂_reorderedField_iff {fs gs : Fields} :
    List.Forall₂ ReorderedField fs gs ↔ fs.map Prod.fst = gs.map Prod.fst ∧
      List.Forall₂ Reordered (fs.map Prod.snd) (gs.map Prod.snd) := by
  rw [← List.forall₂_eq_eq_eq, List.forall₂_map_left_iff, List.forall₂_map_right_iff,
    List.forall₂_map_left_iff, List.forall₂_map_right_iff]
  constructor
  · intro h
    exact ⟨h.imp fun f g hfg => hfg.1, h.imp fun f g hfg => hfg.2⟩
  · rintro ⟨hk, hv⟩
    induction hk with
    | nil => exact .nil
    | cons hfg _ ih =>
      cases hv with
      | cons hv hvs => exact .cons ⟨hfg, hv⟩ (ih hvs)

/-- Fields that agree one by one, in another order. -/
theorem Reordered.of_fields {fs gs hs : Fields} (h : List.Forall₂ ReorderedField fs gs)
    (order : gs.Perm hs) : Reordered (.obj fs) (.obj hs) :=
  have hfg := forall₂_reorderedField_iff.mp h
  .obj hfg.1 hfg.2 order

theorem forall₂_refl {α : Type} {R : α → α → Prop} (h : ∀ a, R a a) :
    ∀ as : List α, List.Forall₂ R as as
  | [] => .nil
  | a :: as => .cons (h a) (forall₂_refl h as)

theorem forall₂_imp_of_mem {α β : Type} {R S : α → β → Prop} {as : List α} {bs : List β}
    (h : List.Forall₂ R as bs) (hs : ∀ a ∈ as, ∀ b, R a b → S a b) : List.Forall₂ S as bs := by
  induction h with
  | nil => exact .nil
  | cons hab _ ih =>
    exact .cons (hs _ List.mem_cons_self _ hab) (ih fun a ha => hs a (List.mem_cons_of_mem _ ha))

theorem reordered_arr_iff {as : List Json} {b : Json} :
    Reordered (.arr as) b ↔ ∃ bs, b = .arr bs ∧ List.Forall₂ Reordered as bs := by
  constructor
  · intro h
    cases h with
    | refl => exact ⟨as, rfl, forall₂_refl .refl as⟩
    | arr items => exact ⟨_, rfl, items⟩
  · rintro ⟨bs, rfl, h⟩
    exact .arr h

theorem reordered_obj_iff {fs : Fields} {b : Json} :
    Reordered (.obj fs) b ↔
      ∃ gs hs, b = .obj hs ∧ List.Forall₂ ReorderedField fs gs ∧ gs.Perm hs := by
  constructor
  · intro h
    cases h with
    | refl => exact ⟨fs, fs, rfl, forall₂_refl (fun f => ⟨rfl, .refl f.2⟩) fs, .refl fs⟩
    | obj keys values order => exact ⟨_, _, rfl, forall₂_reorderedField_iff.mpr ⟨keys, values⟩, order⟩
  · rintro ⟨gs, hs, rfl, h, order⟩
    exact .of_fields h order

/-! ### Sorted fields -/

theorem perm_sortFields (fields : Fields) : (sortFields fields).Perm fields :=
  List.mergeSort_perm _ _

theorem pairwise_sortFields (fields : Fields) :
    (sortFields fields).Pairwise fun f g => f.1 ≤ g.1 := by
  have h : (sortFields fields).Pairwise fun f g => decide (f.1 ≤ g.1) = true :=
    List.pairwise_mergeSort (by simpa using fun _ _ _ => String.le_trans)
      (by simpa using String.le_total) fields
  exact h.imp of_decide_eq_true

/-- **Distinct keys have one sorted order.** -/
theorem sortFields_eq_of_perm {fs gs : Fields} (h : fs.Perm gs) (hd : (fs.map Prod.fst).Nodup) :
    sortFields fs = sortFields gs := by
  have hperm := ((perm_sortFields fs).trans h).trans (perm_sortFields gs).symm
  refine hperm.eq_of_pairwise ?_ (pairwise_sortFields fs) (pairwise_sortFields gs)
  intro f g hf hg hfg hgf
  -- both fields are among the given ones, which differ in their keys
  have hf' := (perm_sortFields fs).subset hf
  have hg' := h.symm.subset ((perm_sortFields gs).subset hg)
  exact List.inj_on_of_nodup_map hd hf' hg' (String.le_antisymm hfg hgf)

theorem sorted_arr (items : List Json) : sorted (.arr items) = .arr (items.map sorted) := by
  rw [sorted, sortedItems_eq_map]

theorem sorted_obj (fields : Fields) :
    sorted (.obj fields) = .obj (sortFields (fields.map fun f => (f.1, f.2.sorted))) := by
  rw [sorted, sortedFields_eq_map]

/-- Sorting fields does not change which integers are in a value. -/
theorem isWritable_sorted (v : Json) : v.sorted.isWritable = v.isWritable := by
  induction v with
  | null | bool | int | float | str => rfl
  | arr items ih =>
    rw [sorted_arr, isWritable_arr, isWritable_arr, List.all_map, Bool.eq_iff_iff, List.all_eq_true,
      List.all_eq_true]
    exact forall₂_congr fun v hv => by rw [Function.comp_apply, ih v hv]
  | obj fields ih =>
    rw [sorted_obj, isWritable_obj, isWritable_obj, (perm_sortFields _).all_eq, List.all_map,
      Bool.eq_iff_iff, List.all_eq_true, List.all_eq_true]
    exact forall₂_congr fun f hf => by rw [Function.comp_apply, ih f hf]

/-- **The canonical text** is written of the values that can be written. -/
theorem writeCanonical_eq (v : Json) : v.writeCanonical = v.written canonical := by
  rw [writeCanonical, write, written, written, isWritable_sorted]
  rfl

theorem writeFingerprint_eq (v : Json) : v.writeFingerprint = v.written fingerprint := by
  rw [writeFingerprint, writeCanonical_eq, written, written]
  split <;> rfl

/-! ### Sorting forgets the order and nothing else -/

theorem sorted_eq_of_reordered {a : Json} (ha : a.Distinct) : ∀ {b : Json}, Reordered a b →
    a.sorted = b.sorted := by
  induction a with
  | null | bool | int | float | str =>
    intro b h
    cases h
    rfl
  | arr items ih =>
    intro b h
    obtain ⟨bs, rfl, hs⟩ := reordered_arr_iff.mp h
    rw [sorted_arr, sorted_arr, arr.injEq, ← List.forall₂_eq_eq_eq, List.forall₂_map_left_iff,
      List.forall₂_map_right_iff]
    exact forall₂_imp_of_mem hs fun v hv w hvw => ih v hv (distinct_arr.mp ha v hv) hvw
  | obj fields ih =>
    intro b h
    obtain ⟨gs, hs, rfl, hfg, order⟩ := reordered_obj_iff.mp h
    obtain ⟨hkeys, hvalues⟩ := distinct_obj.mp ha
    have hmap : (fields.map fun f => (f.1, f.2.sorted)) = gs.map fun f => (f.1, f.2.sorted) := by
      rw [← List.forall₂_eq_eq_eq, List.forall₂_map_left_iff, List.forall₂_map_right_iff]
      exact forall₂_imp_of_mem hfg fun f hf g hg => Prod.ext hg.1 (ih f hf (hvalues f hf) hg.2)
    rw [sorted_obj, sorted_obj]
    congr 1
    refine sortFields_eq_of_perm ?_ ?_
    · rw [hmap]
      exact order.map _
    · rw [List.map_map]
      exact hkeys

theorem exists_perm_of_map_perm {α β : Type} {f : α → β} {as bs : List α}
    (h : (as.map f).Perm (bs.map f)) : ∃ cs : List α, as.map f = cs.map f ∧ cs.Perm bs := by
  have hc := congrFun (congrFun (List.eq_map_comp_perm f) (as.map f)) bs
  exact hc.mpr h

theorem reordered_of_sorted_eq {a : Json} : ∀ {b : Json}, a.sorted = b.sorted → Reordered a b := by
  induction a with
  | null | bool | int | float | str =>
    intro b h
    cases b <;> simp_all [sorted, Reordered.refl]
  | arr items ih =>
    intro b h
    cases b with
    | arr bs =>
      rw [sorted_arr, sorted_arr, arr.injEq, ← List.forall₂_eq_eq_eq, List.forall₂_map_left_iff,
        List.forall₂_map_right_iff] at h
      exact .arr (forall₂_imp_of_mem h fun v hv w hvw => ih v hv hvw)
    | null | bool | int | float | str | obj => simp [sorted] at h
  | obj fields ih =>
    intro b h
    cases b with
    | obj hs =>
      rw [sorted_obj, sorted_obj, obj.injEq] at h
      have hperm : (fields.map fun f => (f.1, f.2.sorted)).Perm
          (hs.map fun f => (f.1, f.2.sorted)) := by
        have hg := perm_sortFields (hs.map fun f => (f.1, f.2.sorted))
        rw [← h] at hg
        exact (perm_sortFields _).symm.trans hg
      -- the fields of the one are, up to sorting, those of the other in some order
      obtain ⟨gs, hmap, order⟩ := exists_perm_of_map_perm hperm
      rw [← List.forall₂_eq_eq_eq, List.forall₂_map_left_iff, List.forall₂_map_right_iff] at hmap
      refine .of_fields (forall₂_imp_of_mem hmap fun f hf g hfg => ?_) order
      obtain ⟨hk, hv⟩ := Prod.mk.inj hfg
      exact ⟨hk, ih f hf hv⟩
    | null | bool | int | float | str | arr => simp [sorted] at h

/-- **Sorted values are equal** exactly if the values differ in the order of fields only. -/
theorem sorted_eq_iff_reordered {a b : Json} (ha : a.Distinct) :
    a.sorted = b.sorted ↔ Reordered a b :=
  ⟨reordered_of_sorted_eq, sorted_eq_of_reordered ha⟩

/-- Values that differ in the order of fields have the same canonical text, or neither can be
written. -/
theorem writeCanonical_eq_of_reordered {a b : Json} (ha : a.Distinct) (h : Reordered a b) :
    a.writeCanonical = b.writeCanonical := by
  rw [writeCanonical, writeCanonical, sorted_eq_of_reordered ha h]

end AccessTree.Json
