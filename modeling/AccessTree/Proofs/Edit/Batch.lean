import AccessTree.Edit.History
import AccessTree.Proofs.Block.Overwrite
import AccessTree.Proofs.Edit.Cases
import Mathlib.Data.List.Nodup

/-! # Field edits in any order

Setting the value or the comparator of a slot writes one field, which the path, the id of the slot
and the kind of the field address (`Edit.target?`). Where a path leads does not depend on what stands
in fields, so such an edit is refused or not, and for the same reason, whatever was written before
(`verdict_overwrite`), and if it is not refused it is an overwriting with a single patch
(`apply_eq_overwrite`). A batch of field edits with distinct targets comes to writing at once what
those of them write that are not refused (`foldl_attempt`). What it writes does not depend on the
order of the batch (`fieldEdits_in_any_order`). -/

namespace AccessTree.Edit

/-- The fields of a slot that edits write. -/
inductive FieldKind where
  | value
  | comparator
  deriving DecidableEq

/-- The address of a field. -/
structure Target where
  path : Path
  slot : String
  field : FieldKind
  deriving DecidableEq

/-- The field that an edit writes, if it writes one. -/
def target? : Edit → Option Target
  | .setValue path slot _ => some ⟨path, slot, .value⟩
  | .setComparator path slot _ => some ⟨path, slot, .comparator⟩
  | _ => none

variable (suffix : Nat → String) (first : Nat)

/-- The tree after an edit, which stays as it was if the edit is refused. -/
def attempt (root : Block) (e : Edit) : Block :=
  match e.apply suffix first root with
  | .ok next => next
  | .error _ => root

/-- Whether an edit is refused, and why. -/
def verdict (root : Block) (e : Edit) : Except EditFault Unit :=
  (e.apply suffix first root).map fun _ => ()

/-! ### What edits write -/

/-- The value that an edit writes to a slot. -/
def valueFor (path : Path) (slot : String) : Edit → Option (Option Literal)
  | .setValue p s value => if p = path ∧ s = slot then some value else none
  | _ => none

/-- The comparator that an edit writes to a slot, if it is one that a user may pick there. -/
def comparatorFor (path : Path) (slot : String) : Edit → Option Comparator
  | .setComparator p s entered =>
    if p = path ∧ s = slot then (pickedComparator s entered).toOption else none
  | _ => none

/-- **What edits write** to the slots of a tree. -/
def writesOf (es : List Edit) : Writes := fun path slot =>
  ⟨es.findSome? (valueFor path slot), es.findSome? (comparatorFor path slot)⟩

theorem valueFor_eq_some {path : Path} {slot : String} {e : Edit} {v : Option Literal} :
    valueFor path slot e = some v ↔ e = .setValue path slot v := by
  cases e with
  | setValue p s value =>
    rw [valueFor, setValue.injEq]
    split
    · next h => simp [h.1, h.2]
    · next h => exact iff_of_false (by simp) fun heq => h ⟨heq.1, heq.2.1⟩
  | attach | detach | setComparator | addParameter =>
    exact iff_of_false (fun h => by cases h) fun h => by cases h

theorem target?_of_valueFor {path : Path} {slot : String} {e : Edit} {v : Option Literal}
    (h : valueFor path slot e = some v) : e.target? = some ⟨path, slot, .value⟩ := by
  rw [valueFor_eq_some.mp h, target?]

theorem target?_of_comparatorFor {path : Path} {slot : String} {e : Edit} {c : Comparator}
    (h : comparatorFor path slot e = some c) : e.target? = some ⟨path, slot, .comparator⟩ := by
  cases e with
  | setComparator p s entered =>
    rw [comparatorFor] at h
    split at h
    · next heq => rw [target?, heq.1, heq.2]
    · cases h
  | attach | detach | setValue | addParameter => cases h

theorem writesOf_setValue (path : Path) (slot : String) (v : Option Literal) :
    writesOf [.setValue path slot v] = .single path slot { value := some v } := by
  funext p s
  rw [writesOf, List.findSome?_singleton, List.findSome?_singleton, Writes.single]
  by_cases h : p = path ∧ s = slot
  · rw [if_pos h, valueFor, if_pos ⟨h.1.symm, h.2.symm⟩, comparatorFor]
    rintro _ _ _ ⟨⟩
  · rw [if_neg h, valueFor, if_neg fun heq => h ⟨heq.1.symm, heq.2.symm⟩, comparatorFor]
    rintro _ _ _ ⟨⟩

theorem writesOf_setComparator {path : Path} {slot entered : String} {c : Comparator}
    (hc : pickedComparator slot entered = .ok c) :
    writesOf [.setComparator path slot entered] =
      .single path slot { comparator := some c } := by
  funext p s
  rw [writesOf, List.findSome?_singleton, List.findSome?_singleton, Writes.single]
  by_cases h : p = path ∧ s = slot
  · rw [if_pos h, comparatorFor, if_pos ⟨h.1.symm, h.2.symm⟩, hc, valueFor]
    · rfl
    · rintro _ _ _ ⟨⟩
  · rw [if_neg h, comparatorFor, if_neg fun heq => h ⟨heq.1.symm, heq.2.symm⟩, valueFor]
    rintro _ _ _ ⟨⟩

/-- Writes of another field change nothing about a field. -/
theorem findSome?_cons_eq_or {α β : Type} {f : α → Option β} {x : α} {xs : List α}
    (h : ∀ v, f x = some v → ∀ y ∈ xs, f y = none) :
    (x :: xs).findSome? f = (xs.findSome? f).or (f x) := by
  rw [List.findSome?_cons]
  cases hx : f x with
  | none => rw [Option.or_none]
  | some v => rw [List.findSome?_eq_none_iff.mpr (h v hx), Option.none_or]

/-- **What a batch writes** is what its first edit writes and then what the others write. -/
theorem writesOf_cons {e : Edit} {es : List Edit} (h : e.target? ∉ es.map target?) :
    writesOf (e :: es) = (writesOf [e]).andThen (writesOf es) := by
  have hother : ∀ {t : Target}, e.target? = some t → ∀ d ∈ es, d.target? ≠ some t :=
    fun ht d hd htd => h (List.mem_map.mpr ⟨d, hd, htd.trans ht.symm⟩)
  funext path slot
  have hvalue : ∀ v, valueFor path slot e = some v → ∀ d ∈ es, valueFor path slot d = none := by
    intro v hv d hd
    by_contra hne
    obtain ⟨u, hu⟩ := Option.ne_none_iff_exists'.mp hne
    exact hother (target?_of_valueFor hv) d hd (target?_of_valueFor hu)
  have hcomparator : ∀ c, comparatorFor path slot e = some c →
      ∀ d ∈ es, comparatorFor path slot d = none := by
    intro c hc d hd
    by_contra hne
    obtain ⟨u, hu⟩ := Option.ne_none_iff_exists'.mp hne
    exact hother (target?_of_comparatorFor hc) d hd (target?_of_comparatorFor hu)
  rw [writesOf, findSome?_cons_eq_or hvalue, findSome?_cons_eq_or hcomparator, Writes.andThen,
    writesOf, writesOf, List.findSome?_singleton, List.findSome?_singleton]
  rfl

/-- What is found does not depend on the order if there is only one thing to be found. -/
theorem findSome?_eq_of_perm {α β : Type} {f : α → Option β} {xs ys : List α} (h : xs.Perm ys)
    (hone : ∀ x ∈ xs, ∀ y ∈ xs, ∀ v u, f x = some v → f y = some u → v = u) :
    xs.findSome? f = ys.findSome? f := by
  cases hx : xs.findSome? f with
  | none =>
    have hnone := List.findSome?_eq_none_iff.mp hx
    exact (List.findSome?_eq_none_iff.mpr fun y hy => hnone y (h.mem_iff.mpr hy)).symm
  | some v =>
    obtain ⟨x, hmem, hv⟩ := List.exists_of_findSome?_eq_some hx
    cases hy : ys.findSome? f with
    | none =>
      have hnone := List.findSome?_eq_none_iff.mp hy x (h.mem_iff.mp hmem)
      cases hv.symm.trans hnone
    | some u =>
      obtain ⟨y, hy, hu⟩ := List.exists_of_findSome?_eq_some hy
      rw [hone x hmem y (h.mem_iff.mpr hy) v u hv hu]

/-- **The order of edits with distinct targets** does not matter for what they write. -/
theorem writesOf_perm {es order : List Edit} (hd : (es.map target?).Nodup) (h : order.Perm es) :
    writesOf order = writesOf es := by
  have hsame : ∀ {t : Option Target}, ∀ d ∈ order, ∀ e ∈ order, d.target? = t → e.target? = t →
      d = e := fun d hmem e hmem' ht ht' =>
    List.inj_on_of_nodup_map hd (h.mem_iff.mp hmem) (h.mem_iff.mp hmem') (ht.trans ht'.symm)
  funext path slot
  rw [writesOf, findSome?_eq_of_perm h, findSome?_eq_of_perm h, writesOf]
  · intro d hmem e hmem' c u hc hu
    have hde := hsame d hmem e hmem' (target?_of_comparatorFor hc) (target?_of_comparatorFor hu)
    exact Option.some.inj (hc.symm.trans (hde ▸ hu))
  · intro d hmem e hmem' v u hv hu
    have hde := hsame d hmem e hmem' (target?_of_valueFor hv) (target?_of_valueFor hu)
    exact Option.some.inj (hv.symm.trans (hde ▸ hu))

/-! ### Single edits -/

variable {suffix : Nat → String} {first : Nat} {root next : Block}

/-- **A field edit that is not refused** is an overwriting with what it writes. -/
theorem apply_eq_overwrite {e : Edit} (he : e.target?.isSome)
    (h : e.apply suffix first root = .ok next) : next = root.overwrite (writesOf [e]) := by
  obtain ⟨owner, edited, howner, hedit, rfl⟩ := apply_eq_ok.mp h
  cases e with
  | attach | detach | addParameter => cases he
  | setValue path slot value =>
    obtain ⟨⟨s, hs⟩, rfl⟩ := Block.writeSlot_eq_ok.mp hedit
    rw [writesOf_setValue]
    exact Block.replaceAt_modifySlot_write howner hs { value := some value }
  | setComparator path slot entered =>
    obtain ⟨c, hc, hedit⟩ := bind_eq_ok.mp hedit
    obtain ⟨⟨s, hs⟩, rfl⟩ := Block.writeSlot_eq_ok.mp hedit
    rw [writesOf_setComparator hc]
    exact Block.replaceAt_modifySlot_write howner hs { comparator := some c }

/-- Writing to a slot is refused if the path leaves the tree or if there is no such slot. -/
theorem verdict_editSlot (root : Block) (path : Path) (slot : String) (f : Slot → Slot) :
    (root.editSlot path slot f).map (fun _ => ()) =
      ((root.resolve path).mapError .noBlock).bind fun owner =>
        (owner.requireSlot path slot).map fun _ => () := by
  rw [Block.editSlot, Block.editAt]
  cases root.resolve path with
  | error f => rfl
  | ok owner =>
    change (do
      let edited ← (do
        let _ ← owner.requireSlot path slot
        return owner.modifySlot slot f)
      return root.replaceAt path edited : Except EditFault Block).map _ =
        (owner.requireSlot path slot).map _
    cases owner.requireSlot path slot <;> rfl

theorem verdict_editSlot_overwrite (w : Writes) (root : Block) (path : Path) (slot : String)
    (f : Slot → Slot) : ((root.overwrite w).editSlot path slot f).map (fun _ => ()) =
      (root.editSlot path slot f).map fun _ => () := by
  rw [verdict_editSlot, verdict_editSlot, Block.resolve_overwrite]
  cases root.resolve path with
  | error f => rfl
  | ok owner =>
    change ((owner.overwrite _).requireSlot path slot).map _ = (owner.requireSlot path slot).map _
    rw [Block.requireSlot, Block.requireSlot, Block.slot?_overwrite, Block.overwrite_id]
    cases owner.slot? slot with
    | none =>
      rw [Option.map_none, Block.overwrite_eq]
      simp only [Block.map_id_overwriteSlots]
    | some s => rfl

/-- **What stands in fields does not decide** about a field edit. -/
theorem verdict_overwrite {e : Edit} (he : e.target?.isSome) (w : Writes) (root : Block) :
    verdict suffix first (root.overwrite w) e = verdict suffix first root e := by
  cases e with
  | attach | detach | addParameter => cases he
  | setValue path slot value => exact verdict_editSlot_overwrite w root path slot _
  | setComparator path slot entered =>
    rw [verdict, verdict, apply, apply]
    cases pickedComparator slot entered with
    | error f => rfl
    | ok c => exact verdict_editSlot_overwrite w root path slot _

/-! ### Batches -/

/-- The edits of a batch that are not refused. -/
def effective (suffix : Nat → String) (first : Nat) (root : Block) (es : List Edit) : List Edit :=
  es.filter fun e => (verdict suffix first root e).isOk

theorem effective_overwrite {es : List Edit} (hes : ∀ e ∈ es, e.target?.isSome) (w : Writes)
    (root : Block) :
    effective suffix first (root.overwrite w) es = effective suffix first root es :=
  List.filter_congr fun e he => by rw [verdict_overwrite (hes e he)]

/-- **A batch of field edits** with distinct targets writes at once what those of them write that are
not refused. -/
theorem foldl_attempt {es : List Edit} (hes : ∀ e ∈ es, e.target?.isSome)
    (hd : (es.map target?).Nodup) (root : Block) : es.foldl (attempt suffix first) root =
      root.overwrite (writesOf (effective suffix first root es)) := by
  induction es generalizing root with
  | nil => exact root.overwrite_none.symm
  | cons e es ih =>
    obtain ⟨he, hes⟩ := List.forall_mem_cons.mp hes
    obtain ⟨hnot, hd⟩ := List.nodup_cons.mp hd
    rw [List.foldl_cons, ih hes hd]
    cases h : e.apply suffix first root with
    | error f =>
      have hattempt : attempt suffix first root e = root := by rw [attempt, h]
      have hcons : effective suffix first root (e :: es) = effective suffix first root es := by
        rw [effective, List.filter_cons, verdict, h]
        rfl
      rw [hattempt, hcons]
    | ok next =>
      have hattempt : attempt suffix first root e = root.overwrite (writesOf [e]) := by
        rw [attempt, h]
        exact apply_eq_overwrite he h
      have hcons : effective suffix first root (e :: es) = e :: effective suffix first root es := by
        rw [effective, List.filter_cons, verdict, h]
        rfl
      have hother : e.target? ∉ (effective suffix first root es).map target? := fun hmem =>
        hnot ((List.filter_sublist.map target?).subset hmem)
      rw [hattempt, effective_overwrite hes, Block.overwrite_overwrite, hcons,
        writesOf_cons hother]

/-- **Independent field edits may be made in any order.** In whatever order the edits of a batch with
distinct targets are made, each succeeds or is refused as it does when it is made alone, and in the
end the edits that succeed have written their fields, and nothing else has changed. -/
theorem fieldEdits_in_any_order (suffix : Nat → String) (first : Nat) (root : Block)
    {es : List Edit} (hes : ∀ e ∈ es, e.target?.isSome) (hd : (es.map target?).Nodup)
    {order : List Edit} (horder : order.Perm es) :
    (∀ before e after, order = before ++ e :: after →
      verdict suffix first (before.foldl (attempt suffix first) root) e =
        verdict suffix first root e) ∧
    order.foldl (attempt suffix first) root =
      root.overwrite (writesOf (effective suffix first root es)) := by
  have hes' : ∀ e ∈ order, e.target?.isSome := fun e he => hes e (horder.mem_iff.mp he)
  have hd' : (order.map target?).Nodup := (horder.map target?).nodup_iff.mpr hd
  constructor
  · rintro before e after rfl
    have hbefore : (before.map target?).Nodup :=
      hd'.sublist ((List.sublist_append_left before _).map target?)
    rw [foldl_attempt (fun d h => hes' d (List.mem_append_left _ h)) hbefore]
    exact verdict_overwrite (hes' e (List.mem_append_right before List.mem_cons_self)) _ root
  · have hperm : (effective suffix first root order).Perm (effective suffix first root es) :=
      horder.filter _
    have hdistinct : ((effective suffix first root es).map target?).Nodup :=
      hd.sublist (List.filter_sublist.map target?)
    rw [foldl_attempt hes' hd' root, writesOf_perm hdistinct hperm]

/-- An operator with two slots of one id, of which the first one leads to a block with a slot for a
number. -/
def twinSlots (value : Option Literal) (comparator : Option Comparator)
    (minimum : Option Literal) : Block :=
  ⟨"or", .operator, "", "", [], [
    ⟨"a", [], "", value, none, none, some ⟨"time", .condition, "", "", [],
      [⟨"minTimestamp", [], "", minimum, comparator, none, none⟩], none, false⟩⟩,
    ⟨"a", [], "", none, none, none, none⟩], none, false⟩

/-- One edit writes to the slot that the path of two others runs through. The first slot of an id is
written to, and the comparator of a slot without one is refused. -/
theorem fieldEdits_in_any_order_twinSlots :
    let es : List Edit := [.setValue [] "a" (some (.int 1)),
      .setComparator ["a"] "minTimestamp" "<", .setComparator [] "a" "<",
      .setValue ["a"] "minTimestamp" (some (.text "0"))]
    (es.map target?).Nodup ∧
    es.reverse.foldl (attempt History.suffix 1) (twinSlots none none none) =
      twinSlots (some (.int 1)) (some .lt) (some (.text "0")) := by
  intro es
  have hd : (es.map target?).Nodup := by decide
  have hrun := (fieldEdits_in_any_order History.suffix 1 (twinSlots none none none)
    (by decide) hd es.reverse_perm).2
  exact ⟨hd, hrun.trans (by rfl)⟩

end AccessTree.Edit
