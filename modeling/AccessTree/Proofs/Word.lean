import AccessTree.Condition.Document

/-! # Words are told by their names

The members of a type of words are all listed and differ in their names (`Word.Lawful`), so that a
name stands for one member at most, and a member is found by its name (`Word.ofName?_eq_some`).
Chains are told by their numbers in the same way. -/

namespace AccessTree

/-- The members of a type of words are all listed and differ in their names. -/
class Word.Lawful (α : Type) [Word α] : Prop where
  mem_all : ∀ a : α, a ∈ Word.all (α := α)
  name_inj : ∀ a b : α, Word.name a = Word.name b → a = b

instance : Word.Lawful Comparator where
  mem_all a := by cases a <;> decide
  name_inj a b := by cases a <;> cases b <;> decide

instance : Word.Lawful Operator where
  mem_all a := by cases a <;> decide
  name_inj a b := by cases a <;> cases b <;> decide

instance : Word.Lawful TokenStandard where
  mem_all a := by cases a <;> decide
  name_inj a b := by cases a <;> cases b <;> decide

instance : Word.Lawful ConditionKind where
  mem_all a := by cases a <;> decide
  name_inj a b := by cases a <;> cases b <;> decide

theorem Word.ofName?_eq_some {α : Type} [Word α] [Word.Lawful α] {s : String} {a : α} :
    Word.ofName? s = some a ↔ s = Word.name a := by
  rw [Word.ofName?]
  constructor
  · intro h
    have ha := List.find?_some h
    exact (of_decide_eq_true ha).symm
  · rintro rfl
    cases h : (Word.all (α := α)).find? fun b => Word.name b = Word.name a with
    | none =>
      have hne := List.find?_eq_none.mp h a (Word.Lawful.mem_all a)
      simp at hne
    | some b =>
      have hb := List.find?_some h
      rw [Word.Lawful.name_inj b a (of_decide_eq_true hb)]

theorem kindOfTag?_eq_some {v : Json} {k : ConditionKind} :
    kindOfTag? v = some k ↔ v = .str k.name := by
  cases v with
  | str s => rw [kindOfTag?, Word.ofName?_eq_some, Json.str.injEq, ConditionKind.name]
  | null | bool | int | float | arr | obj => simp [kindOfTag?]

namespace ChainId

theorem ofNumber?_eq_some {n : Int} {c : ChainId} : ofNumber? n = some c ↔ n = c.number := by
  constructor
  · intro h
    rw [ofNumber?] at h
    have hc := List.find?_some h
    exact (of_decide_eq_true hc).symm
  · rintro rfl
    cases c <;> rfl

theorem isNumber_iff {v : Json} : isNumber v = true ↔ ∃ c : ChainId, v = c.toJson := by
  cases v with
  | int n =>
    simp only [isNumber, Option.isSome_iff_exists, ofNumber?_eq_some, toJson, Json.nat,
      Json.int.injEq]
  | null | bool | float | str | arr | obj => simp [isNumber, toJson, Json.nat]

end ChainId

end AccessTree
