import AccessTree.Json.Canonical
import Mathlib.Data.List.Basic

/-! # Walks over JSON values

The walks over a value are triples of functions; here they are expressed by list operations on the
items and the fields, and `Json.induction` proves a property of all values from that of their items
and fields. `parts` lists a value and all values inside it. A value is `Distinct` if none of its
objects names a key twice, and `Finite` if all its numbers are finite; `portable` leaves a finite
value as it is. It can be written unless one of its parts is an integer that cannot
(`isWritable_eq_false`). -/

namespace AccessTree.Json

/-- **Induction on values**, from the items of a list and the values of the fields of an object. -/
@[induction_eliminator]
theorem induction {P : Json → Prop} (null : P .null) (bool : ∀ b, P (.bool b))
    (int : ∀ n, P (.int n)) (float : ∀ x, P (.float x)) (str : ∀ s, P (.str s))
    (arr : ∀ items, (∀ v ∈ items, P v) → P (.arr items))
    (obj : ∀ fields, (∀ f ∈ fields, P f.2) → P (.obj fields)) : ∀ v, P v
  | .null => null
  | .bool b => bool b
  | .int n => int n
  | .float x => float x
  | .str s => str s
  | .arr items => arr items fun v hv =>
    have : sizeOf v < 1 + sizeOf items := Nat.lt_add_left 1 (List.sizeOf_lt_of_mem hv)
    induction null bool int float str arr obj v
  | .obj fields => obj fields fun f hf =>
    have : sizeOf f.2 < 1 + sizeOf fields := by
      have hlt := List.sizeOf_lt_of_mem hf
      obtain ⟨k, v⟩ := f
      simp only [Prod.mk.sizeOf_spec] at hlt ⊢
      omega
    induction null bool int float str arr obj f.2
termination_by v => sizeOf v

/-! ### Walks as list operations -/

theorem sortedItems_eq_map (items : List Json) : sortedItems items = items.map sorted := by
  induction items with
  | nil => rw [sortedItems, List.map_nil]
  | cons v vs ih => rw [sortedItems, ih, List.map_cons]

theorem sortedFields_eq_map (fields : Fields) :
    sortedFields fields = fields.map fun f => (f.1, f.2.sorted) := by
  induction fields with
  | nil => rw [sortedFields, List.map_nil]
  | cons f rest ih =>
    obtain ⟨k, v⟩ := f
    rw [sortedFields, ih, List.map_cons]

theorem portableItems_eq_map (items : List Json) : portableItems items = items.map portable := by
  induction items with
  | nil => rw [portableItems, List.map_nil]
  | cons v vs ih => rw [portableItems, ih, List.map_cons]

theorem portableFields_eq_map (fields : Fields) :
    portableFields fields = fields.map fun f => (f.1, f.2.portable) := by
  induction fields with
  | nil => rw [portableFields, List.map_nil]
  | cons f rest ih =>
    obtain ⟨k, v⟩ := f
    rw [portableFields, ih, List.map_cons]

/-! ### Parts -/

mutual
/-- A value and all values inside it. -/
def parts : Json → List Json
  | .arr items => .arr items :: partsOfItems items
  | .obj fields => .obj fields :: partsOfFields fields
  | v => [v]

/-- The values inside items. -/
def partsOfItems : List Json → List Json
  | [] => []
  | v :: vs => parts v ++ partsOfItems vs

/-- The values inside fields. -/
def partsOfFields : List (String × Json) → List Json
  | [] => []
  | (_, v) :: rest => parts v ++ partsOfFields rest
end

theorem parts_arr (items : List Json) : (arr items).parts = .arr items :: items.flatMap parts := by
  have h : partsOfItems items = items.flatMap parts := by
    induction items with
    | nil => rw [partsOfItems, List.flatMap_nil]
    | cons v vs ih => rw [partsOfItems, ih, List.flatMap_cons]
  rw [parts, h]

theorem parts_obj (fields : Fields) :
    (obj fields).parts = .obj fields :: fields.flatMap fun f => f.2.parts := by
  have h : partsOfFields fields = fields.flatMap fun f => f.2.parts := by
    induction fields with
    | nil => rw [partsOfFields, List.flatMap_nil]
    | cons f rest ih =>
      obtain ⟨k, v⟩ := f
      rw [partsOfFields, ih, List.flatMap_cons]
  rw [parts, h]

theorem forall_parts_arr {P : Json → Prop} {items : List Json} :
    (∀ p ∈ (arr items).parts, P p) ↔ P (.arr items) ∧ ∀ v ∈ items, ∀ p ∈ v.parts, P p := by
  rw [parts_arr, List.forall_mem_cons, List.forall_mem_flatMap]

theorem forall_parts_obj {P : Json → Prop} {fields : Fields} :
    (∀ p ∈ (obj fields).parts, P p) ↔ P (.obj fields) ∧ ∀ f ∈ fields, ∀ p ∈ f.2.parts, P p := by
  rw [parts_obj, List.forall_mem_cons, List.forall_mem_flatMap]

/-! ### Integers that can be written -/

theorem isWritable_int {n : Int} :
    (int n).isWritable = false ↔ Text.writeInt n = .error .tooLongToWrite := by
  rw [isWritable, Text.writeInt]
  split <;> simp [Except.isOk, Except.toBool]

theorem isWritable_arr (items : List Json) : (arr items).isWritable = items.all isWritable := by
  rw [isWritable]
  induction items with
  | nil => rfl
  | cons v vs ih => rw [isWritableItems, ih, List.all_cons]

theorem isWritable_obj (fields : Fields) :
    (obj fields).isWritable = fields.all fun f => f.2.isWritable := by
  rw [isWritable]
  induction fields with
  | nil => rfl
  | cons f rest ih =>
    obtain ⟨k, v⟩ := f
    rw [isWritableFields, ih, List.all_cons]

/-- **A value cannot be written** if one of its parts is an integer that cannot. -/
theorem isWritable_eq_false {v : Json} : v.isWritable = false ↔
    ∃ n, .int n ∈ v.parts ∧ Text.writeInt n = .error .tooLongToWrite := by
  induction v with
  | null | bool | float | str => simp [isWritable, parts]
  | int n => simp [isWritable_int, parts]
  | arr items ih =>
    rw [isWritable_arr, parts_arr, List.all_eq_false]
    constructor
    · rintro ⟨v, hv, hw⟩
      obtain ⟨n, hn, hlong⟩ := (ih v hv).mp (by simpa using hw)
      exact ⟨n, List.mem_cons_of_mem _ (List.mem_flatMap.mpr ⟨v, hv, hn⟩), hlong⟩
    · rintro ⟨n, hn, hlong⟩
      obtain ⟨v, hv, hn⟩ := List.mem_flatMap.mp ((List.mem_cons.mp hn).resolve_left (by rintro ⟨⟩))
      exact ⟨v, hv, by simpa using (ih v hv).mpr ⟨n, hn, hlong⟩⟩
  | obj fields ih =>
    rw [isWritable_obj, parts_obj, List.all_eq_false]
    constructor
    · rintro ⟨f, hf, hw⟩
      obtain ⟨n, hn, hlong⟩ := (ih f hf).mp (by simpa using hw)
      exact ⟨n, List.mem_cons_of_mem _ (List.mem_flatMap.mpr ⟨f, hf, hn⟩), hlong⟩
    · rintro ⟨n, hn, hlong⟩
      obtain ⟨f, hf, hn⟩ := List.mem_flatMap.mp ((List.mem_cons.mp hn).resolve_left (by rintro ⟨⟩))
      exact ⟨f, hf, by simpa using (ih f hf).mpr ⟨n, hn, hlong⟩⟩

theorem written_eq_ok {text : Json → String} {v : Json} {s : String} :
    v.written text = .ok s ↔ v.isWritable = true ∧ text v = s := by
  rw [written]
  split
  · next h => simp [h]
  · next h => simp [h]

theorem written_eq_error {text : Json → String} {v : Json} {f : NumeralFault} :
    v.written text = .error f ↔ v.isWritable = false ∧ f = .tooLongToWrite := by
  rw [written]
  split
  · next h => simp [h]
  · next h => simp [h, eq_comm]

/-- A fault whose report shows a value is that fault, or one of an integer in the value. -/
theorem faultShowing_cases {ε : Type} {P : ε → Prop} {v : Json} {report : v.isWritable = true → ε}
    {numeral : NumeralFault → ε} (hreport : ∀ h, P (report h))
    (hnumeral : v.isWritable = false → P (numeral .tooLongToWrite)) :
    P (v.faultShowing report numeral) := by
  rw [faultShowing]
  split
  · next h => exact hreport h
  · next h => exact hnumeral (by simpa using h)

/-! ### Distinct keys -/

/-- Whether a value is no object that names a key twice. -/
def namesKeysOnce : Json → Bool
  | .obj fields => decide (fields.map Prod.fst).Nodup
  | _ => true

/-- No object inside a value names a key twice. -/
def Distinct (v : Json) : Prop := ∀ p ∈ v.parts, p.namesKeysOnce = true

instance (v : Json) : Decidable v.Distinct := inferInstanceAs (Decidable (∀ p ∈ v.parts, _))

theorem distinct_arr {items : List Json} : (arr items).Distinct ↔ ∀ v ∈ items, v.Distinct := by
  rw [Distinct, forall_parts_arr]
  simp only [namesKeysOnce, true_and, Distinct]

theorem distinct_obj {fields : Fields} :
    (obj fields).Distinct ↔ (fields.map Prod.fst).Nodup ∧ ∀ f ∈ fields, f.2.Distinct := by
  rw [Distinct, forall_parts_obj]
  simp only [namesKeysOnce, decide_eq_true_eq, Distinct]

/-! ### Finite numbers -/

/-- Whether a value is a number that is not finite. -/
def isNonfinite : Json → Bool
  | .float x => !x.isFinite
  | _ => false

/-- All numbers inside a value are finite. -/
def Finite (v : Json) : Prop := ∀ p ∈ v.parts, p.isNonfinite = false

instance (v : Json) : Decidable v.Finite := inferInstanceAs (Decidable (∀ p ∈ v.parts, _))

theorem finite_obj {fields : Fields} : (obj fields).Finite ↔ ∀ f ∈ fields, f.2.Finite := by
  rw [Finite, forall_parts_obj]
  simp only [isNonfinite, true_and, Finite]

theorem portable_float (x : Binary64) :
    portable (.float x) = if x.isFinite then .float x else .null := rfl

theorem portable_arr (items : List Json) : portable (.arr items) = .arr (items.map portable) := by
  rw [← portableItems_eq_map]
  rfl

theorem portable_obj (fields : Fields) :
    portable (.obj fields) = .obj (fields.map fun f => (f.1, f.2.portable)) := by
  rw [← portableFields_eq_map]
  rfl

/-- What has been made portable is portable. -/
theorem portable_portable (v : Json) : v.portable.portable = v.portable := by
  induction v with
  | null | bool | int | str => rfl
  | float x =>
    rw [portable_float]
    split
    · next hx => rw [portable_float, if_pos hx]
    · rfl
  | arr items ih =>
    rw [portable_arr, portable_arr, List.map_map]
    exact congrArg arr (List.map_congr_left ih)
  | obj fields ih =>
    rw [portable_obj, portable_obj, List.map_map]
    refine congrArg obj (List.map_congr_left fun f hf => ?_)
    rw [Function.comp_apply, ih f hf]

theorem portableItems_portable (items : List Json) :
    portableItems (portableItems items) = portableItems items := by
  rw [portableItems_eq_map, portableItems_eq_map, List.map_map]
  exact List.map_congr_left fun v _ => portable_portable v

theorem portableFields_portable (fields : Fields) :
    portableFields (portableFields fields) = portableFields fields := by
  have hvalue : ∀ f ∈ fields, (f.1, f.2.portable.portable) = (f.1, f.2.portable) := fun f _ => by
    rw [portable_portable]
  rw [portableFields_eq_map, portableFields_eq_map, List.map_map]
  exact List.map_congr_left hvalue

/-- Only `null` and numbers that are not finite are written as `null`. -/
theorem portable_eq_null {v : Json} : v.portable = .null ↔ v = .null ∨ v.isNonfinite = true := by
  cases v with
  | null => exact iff_of_true rfl (.inl rfl)
  | float x =>
    rw [portable_float]
    cases hx : x.isFinite <;> simp [isNonfinite, hx]
  | bool | int | str | arr | obj =>
    refine iff_of_false (by rintro ⟨⟩) ?_
    rintro (⟨⟨⟩⟩ | ⟨⟨⟩⟩)

end AccessTree.Json
