import AccessTree.Proofs.Word
import Mathlib.Data.List.Forall2

/-! # When readers succeed

A reader succeeds exactly if all its parts do. Each lemma says so for one way of putting readers
together, as `… = .ok a ↔ …`, so that a reader of several fields comes apart into the values of its
fields without any of the issues that it might have found. A field that is read is `Found` under the
name it is given by. -/

namespace AccessTree

theorem forall_right_of_forall₂ {α β : Type} {R : α → β → Prop} {as : List α} {bs : List β}
    (h : List.Forall₂ R as bs) : ∀ b ∈ bs, ∃ a ∈ as, R a b := by
  induction h with
  | nil => simp
  | cons hab _ ih =>
    intro b hb
    rcases List.mem_cons.mp hb with rfl | hb
    · exact ⟨_, List.mem_cons_self, hab⟩
    · obtain ⟨a, ha, hr⟩ := ih b hb
      exact ⟨a, List.mem_cons_of_mem _ ha, hr⟩

namespace Checked

variable {α β : Type}

/-! ### Combined readers -/

@[simp]
theorem reject_ne_ok (cause : IssueCause) (input : Json) (a : α) :
    reject cause input = .ok a ↔ False := by
  simp [reject]

theorem pure_eq_ok {a b : α} : (pure a : Checked α) = .ok b ↔ a = b := Checked.ok.injEq a b ▸ Iff.rfl

theorem map_eq_ok {f : α → β} {x : Checked α} {b : β} :
    f <$> x = .ok b ↔ ∃ a, x = .ok a ∧ f a = b := by
  change map f x = .ok b ↔ _
  cases x <;> simp [map]

theorem seq_eq_ok {f : Checked (α → β)} {x : Checked α} {b : β} :
    f <*> x = .ok b ↔ ∃ a, x = .ok a ∧ ∃ g, f = .ok g ∧ g a = b := by
  change apply f x = .ok b ↔ _
  cases f <;> cases x <;> simp [apply]

/-- The last part of a reader is taken off, whatever is said about what is read. -/
theorem exists_seq_eq_ok {f : Checked (α → β)} {x : Checked α} {P : β → Prop} :
    (∃ b, f <*> x = .ok b ∧ P b) ↔ ∃ a, x = .ok a ∧ ∃ g, f = .ok g ∧ P (g a) := by
  simp only [seq_eq_ok]
  constructor
  · rintro ⟨_, ⟨a, ha, g, hg, rfl⟩, h⟩
    exact ⟨a, ha, g, hg, h⟩
  · rintro ⟨a, ha, g, hg, h⟩
    exact ⟨g a, ⟨a, ha, g, hg, rfl⟩, h⟩

theorem exists_map_eq_ok {f : α → β} {x : Checked α} {P : β → Prop} :
    (∃ b, f <$> x = .ok b ∧ P b) ↔ ∃ a, x = .ok a ∧ P (f a) := by
  simp only [map_eq_ok]
  constructor
  · rintro ⟨_, ⟨a, ha, rfl⟩, h⟩
    exact ⟨a, ha, h⟩
  · rintro ⟨a, ha, h⟩
    exact ⟨f a, ⟨a, ha, rfl⟩, h⟩

theorem under_eq_ok {s : Seg} {x : Checked α} {a : α} : x.under s = .ok a ↔ x = .ok a := by
  cases x <;> simp [under]

theorem andThen_eq_ok {x : Checked α} {f : α → Checked β} {b : β} :
    x.andThen f = .ok b ↔ ∃ a, x = .ok a ∧ f a = .ok b := by
  cases x <;> simp [andThen]

theorem ensure_eq_ok {x : Checked α} {holds : α → Bool} {text : String} {input : Json} {a : α} :
    x.ensure holds text input = .ok a ↔ x = .ok a ∧ holds a = true := by
  rw [ensure, andThen_eq_ok]
  constructor
  · rintro ⟨b, hb, h⟩
    split at h
    · next hh =>
      cases h
      exact ⟨hb, hh⟩
    · simp at h
  · rintro ⟨ha, hh⟩
    exact ⟨a, ha, by rw [if_pos hh]⟩

theorem items_eq_ok {read : Json → Checked α} {vs : List Json} {as : List α} {i : Nat} :
    items read i vs = .ok as ↔ List.Forall₂ (fun v a => read v = .ok a) vs as := by
  induction vs generalizing i as with
  | nil =>
    rw [items, List.forall₂_nil_left_iff]
    exact ⟨fun h => (Checked.ok.inj h).symm, fun h => h ▸ rfl⟩
  | cons v vs ih =>
    rw [items, seq_eq_ok, List.forall₂_cons_left_iff]
    simp only [exists_map_eq_ok, under_eq_ok]
    constructor
    · rintro ⟨bs, hbs, a, ha, rfl⟩
      exact ⟨a, bs, ha, ih.mp hbs, rfl⟩
    · rintro ⟨a, bs, ha, hbs, rfl⟩
      exact ⟨bs, ih.mpr hbs, a, ha, rfl⟩

end Checked

namespace Schema

variable {α : Type}

/-! ### Simple shapes -/

theorem any_eq_ok {v w : Json} : any v = .ok w ↔ v = w := by simp [any]

theorem text_eq_ok {v : Json} {s : String} : text v = .ok s ↔ v = .str s := by
  cases v <;> simp [text]

theorem object_eq_ok {v : Json} {fields : Fields} : object v = .ok fields ↔ v = .obj fields := by
  cases v <;> simp [object]

theorem list_eq_ok {read : Json → Checked α} {v : Json} {as : List α} :
    list read v = .ok as ↔
      ∃ items, v = .arr items ∧ List.Forall₂ (fun v a => read v = .ok a) items as := by
  cases v <;> simp [list, Checked.items_eq_ok]

theorem list_any_eq_ok {v : Json} {items : List Json} : list any v = .ok items ↔ v = .arr items := by
  simp only [list_eq_ok, any_eq_ok, List.forall₂_eq_eq_eq, exists_eq_right]

theorem nullable_eq_ok {read : Json → Checked α} {v : Json} {o : Option α} :
    nullable read v = .ok o ↔
      v = .null ∧ o = none ∨ v ≠ .null ∧ ∃ a, read v = .ok a ∧ some a = o := by
  cases v with
  | null => simp [nullable, eq_comm]
  | bool | int | float | str | arr | obj => simp [nullable, Checked.map_eq_ok]

theorem word_eq_ok [Word α] [Word.Lawful α] {v : Json} {a : α} :
    word α v = .ok a ↔ v = .str (Word.name a) := by
  cases v with
  | str s =>
    rw [Json.str.injEq, ← Word.ofName?_eq_some, word]
    cases Word.ofName? (α := α) s <;> simp
  | null | bool | int | float | arr | obj => simp [word]

theorem exactly_eq_ok {s : String} {v : Json} {u : Unit} : exactly s v = .ok u ↔ v = .str s := by
  rw [exactly]
  split <;> simp_all

/-! ### Fields -/

/-- A field is given under one of its names; the wire name wins. -/
def Found (fields : Fields) (name : FieldName) (v : Json) : Prop :=
  fields.lookup name.wire = some v ∨
    fields.lookup name.wire = none ∧ fields.lookup name.plain = some v

theorem exists_find?_iff {fields : Fields} {name : FieldName} {v : Json} :
    (∃ given, find? fields name = some (given, v)) ↔ Found fields name v := by
  rw [find?, Found]
  cases fields.lookup name.wire with
  | some w => simp
  | none => cases fields.lookup name.plain <;> simp

theorem find?_eq_none {fields : Fields} {name : FieldName} :
    find? fields name = none ↔
      fields.lookup name.wire = none ∧ fields.lookup name.plain = none := by
  rw [find?]
  cases fields.lookup name.wire <;> simp

theorem found_same {fields : Fields} {name : String} {v : Json} :
    Found fields (.same name) v ↔ fields.lookup name = some v := by
  rw [Found, FieldName.same]
  cases fields.lookup name <;> simp

theorem required_eq_ok {fields : Fields} {name : FieldName} {read : Json → Checked α} {a : α} :
    required fields name read = .ok a ↔ ∃ v, Found fields name v ∧ read v = .ok a := by
  simp only [← exists_find?_iff]
  rw [required]
  cases find? fields name with
  | none => simp
  | some p =>
    obtain ⟨given, v⟩ := p
    simp [Checked.under_eq_ok]

theorem optional_eq_ok {fields : Fields} {name : FieldName} {default a : α}
    {read : Json → Checked α} :
    optional fields name default read = .ok a ↔
      find? fields name = none ∧ a = default ∨ ∃ v, Found fields name v ∧ read v = .ok a := by
  simp only [← exists_find?_iff]
  rw [optional]
  cases find? fields name with
  | none => simp [eq_comm]
  | some p =>
    obtain ⟨given, v⟩ := p
    simp [Checked.under_eq_ok]

/-- Fields are closed if each is given under a name that counts. -/
theorem closed_eq_ok {names : List FieldName} {fields : Fields} {u : Unit} :
    closed names fields = .ok u ↔ ∀ f ∈ fields, ∃ n ∈ names,
      f.1 = n.wire ∨ f.1 = n.plain ∧ fields.lookup n.wire = none := by
  have hnil : closed names fields = .ok u ↔ unknownFields names fields = [] := by
    rw [closed]
    split
    · next h => simp [h]
    · next h => exact iff_of_false (by simp) h
  rw [hnil, unknownFields, List.filter_eq_nil_iff]
  refine forall₂_congr fun f _ => ?_
  simp only [Bool.not_eq_true', Bool.not_eq_false, List.any_eq_true, Bool.or_eq_true,
    Bool.and_eq_true, decide_eq_true_eq, Option.isNone_iff_eq_none]

end Schema

end AccessTree
