import AccessTree.Proofs.Text.Search
import AccessTree.Redaction

/-! # What redaction reaches

A position leads from a value to one inside it, by the fields of objects and the items of lists.
Redaction keeps the shape of the details: at every position there is a value before exactly if there
is one after, with the same keys, the same number of items, or the same number or truth value. A
text is looked at if, on the way to it, every item is an object that is left by one of its fields
(`LookedAt`); then it is removed exactly if it has a part that a client must not see. Any other text
stays, whatever it says (`redacted_details`). -/

namespace AccessTree

/-! ### Positions -/

/-- A step from a value to one inside it. -/
inductive Json.Step where
  /-- To the value of a field of an object. -/
  | field (i : Nat)
  /-- To an item of a list. -/
  | item (i : Nat)
  deriving DecidableEq, Repr

/-- The way from a value to one inside it. -/
abbrev Json.Position := List Json.Step

namespace Json

/-- The value after one step. -/
def child? : Json → Step → Option Json
  | .obj members, .field i => (members[i]?).map Prod.snd
  | .arr items, .item i => items[i]?
  | _, _ => none

/-- **The value at a position.** -/
def at? (v : Json) : Position → Option Json
  | [] => some v
  | step :: rest => (v.child? step).bind fun w => w.at? rest

theorem at?_cons (v : Json) (step : Step) (rest : Position) :
    v.at? (step :: rest) = (v.child? step).bind fun w => w.at? rest := rfl

end Json

namespace Redaction

open Json Text

/-! ### Single values -/

/-- **A text that a client must not see** has a part that matches one of the patterns. -/
def Sensitive (text : String) : Prop :=
  ∃ pattern ∈ [filePath, objectAddress, traceHead], ∃ before part after,
    text.toList = before ++ part ++ after ∧ pattern.Matches part

theorem isSensitive_iff (text : String) : isSensitive text = true ↔ Sensitive text := by
  have hany : isSensitive text = [filePath, objectAddress, traceHead].any (·.occursIn text) := by
    rw [isSensitive, List.any_cons, List.any_cons, List.any_cons, List.any_nil, Bool.or_false,
      Bool.or_assoc]
  rw [hany, List.any_eq_true]
  simp only [Pattern.occursIn_iff]
  exact Iff.rfl

theorem not_sensitive_replacement : ¬ Sensitive replacement := by
  rw [← isSensitive_iff]
  decide +kernel

/-- **What becomes of the value at one position**: a text is removed if it is looked at and must not
be seen, and stays otherwise; a list keeps its length, an object its keys in their order, and any
other value all of itself. -/
def Keeps (looked : Prop) : Json → Json → Prop
  | .str text, after =>
    (looked ∧ Sensitive text → after = .str replacement) ∧
      (¬ (looked ∧ Sensitive text) → after = .str text)
  | .arr items, after => ∃ items', after = .arr items' ∧ items'.length = items.length
  | .obj members, after => ∃ members', after = .obj members' ∧
      members'.map Prod.fst = members.map Prod.fst
  | before, after => after = before

/-- What is not looked at stays. -/
theorem keeps_self (v : Json) : Keeps False v v := by
  cases v with
  | null | bool | int | float => rfl
  | str text => exact ⟨fun h => h.1.elim, fun _ => rfl⟩
  | arr items => exact ⟨items, rfl, rfl⟩
  | obj members => exact ⟨members, rfl, rfl⟩

/-- A text that is left, and was looked at, may be seen. -/
theorem Keeps.not_sensitive {looked : Prop} {before : Json} {text : String}
    (h : Keeps looked before (.str text)) (hl : looked) : ¬ Sensitive text := by
  cases before with
  | null | bool | int | float => cases h
  | arr items =>
    obtain ⟨items', h, -⟩ := h
    cases h
  | obj members =>
    obtain ⟨members', h, -⟩ := h
    cases h
  | str given =>
    obtain ⟨hremoved, hstays⟩ := h
    by_cases hs : looked ∧ Sensitive given
    · cases hremoved hs
      exact not_sensitive_replacement
    · cases hstays hs
      exact fun htext => hs ⟨hl, htext⟩

/-! ### Redaction as list operations -/

/-- What becomes of an item of a list. -/
def item : Json → Json
  | .obj members => .obj (fields members)
  | v => v

theorem item_eq_self {v : Json} (h : ¬ ∃ members, v = .obj members) : item v = v := by
  rw [item]
  intro members hv
  exact h ⟨members, hv⟩

theorem listed_eq_map (items : List Json) : listed items = items.map item := by
  induction items with
  | nil => rw [listed, List.map_nil]
  | cons v rest ih =>
    by_cases hobj : ∃ members, v = .obj members
    · obtain ⟨members, rfl⟩ := hobj
      rw [listed, ih, List.map_cons, item]
    · have hitem : item v = v := item_eq_self hobj
      rw [listed, ih, List.map_cons, hitem]
      intro members hv
      exact hobj ⟨members, hv⟩

theorem fields_eq_map (members : Fields) :
    fields members = members.map fun m => (m.1, value m.2) := by
  induction members with
  | nil => rw [fields, List.map_nil]
  | cons m rest ih =>
    obtain ⟨k, v⟩ := m
    rw [fields, ih, List.map_cons]

theorem keys_fields (members : Fields) :
    (fields members).map Prod.fst = members.map Prod.fst := by
  rw [fields_eq_map, List.map_map]
  rfl

/-- The values of fields are redacted, ... -/
theorem child?_field (v : Json) (i : Nat) :
    (value v).child? (.field i) = (v.child? (.field i)).map value := by
  cases v with
  | null | bool | int | float | str | arr => rfl
  | obj members =>
    rw [value, child?, child?, fields_eq_map, List.getElem?_map, Option.map_map, Option.map_map]
    rfl

/-- ... and of the items of a list the objects are. -/
theorem child?_item (v : Json) (i : Nat) :
    (value v).child? (.item i) = (v.child? (.item i)).map item := by
  cases v with
  | null | bool | int | float | str | obj => rfl
  | arr items => rw [value, child?, child?, listed_eq_map, List.getElem?_map]

/-! ### Everything inside a value -/

/-- **Whether redaction looks at a text at a position**: each item on the way is left by a field. -/
def LookedAt : Position → Prop
  | [] => True
  | .field _ :: rest => LookedAt rest
  | .item _ :: .field i :: rest => LookedAt (.field i :: rest)
  | .item _ :: _ => False

theorem keeps_value (v : Json) : Keeps True v (value v) := by
  cases v with
  | null | bool | int | float => rfl
  | str text =>
    have hiff := isSensitive_iff text
    rw [value]
    constructor
    · intro h
      rw [if_pos (hiff.mpr h.2)]
    · intro h
      rw [if_neg fun hs => h ⟨trivial, hiff.mp hs⟩]
  | arr items =>
    refine ⟨listed items, rfl, ?_⟩
    rw [listed_eq_map, List.length_map]
  | obj members => exact ⟨fields members, rfl, keys_fields members⟩

theorem child?_of_not_obj {v : Json} (h : ¬ ∃ members, v = .obj members) (i : Nat) :
    v.child? (.field i) = none := by
  rw [child?]
  · intro members j hv _
    exact h ⟨members, hv⟩
  · intro items j _ hstep
    cases hstep

/-- What is inside an item is looked at if it is behind a field of the item. -/
theorem keeps_item_at {i : Nat} {rest : Position} (v : Json)
    (ih : Option.Rel (Keeps (LookedAt rest)) (v.at? rest) ((value v).at? rest)) :
    Option.Rel (Keeps (LookedAt (.item i :: rest))) (v.at? rest) ((item v).at? rest) := by
  by_cases hobj : ∃ members, v = .obj members
  · obtain ⟨members, rfl⟩ := hobj
    rcases rest with _ | ⟨j | j, rest⟩
    · exact Option.Rel.some ⟨fields members, rfl, keys_fields members⟩
    · exact ih
    · exact Option.Rel.none
  · rw [item_eq_self hobj]
    rcases rest with _ | ⟨j | j, rest⟩
    · exact Option.Rel.some (keeps_self v)
    · rw [at?_cons, child?_of_not_obj hobj]
      exact Option.Rel.none
    · cases v.at? (.item j :: rest) with
      | none => exact Option.Rel.none
      | some w => exact Option.Rel.some (keeps_self w)

theorem keeps_at (v : Json) (p : Position) :
    Option.Rel (Keeps (LookedAt p)) (v.at? p) ((value v).at? p) := by
  induction p generalizing v with
  | nil => exact Option.Rel.some (keeps_value v)
  | cons step rest ih =>
    rw [at?_cons, at?_cons]
    cases step with
    | field i =>
      rw [child?_field]
      cases v.child? (.field i) with
      | none => exact Option.Rel.none
      | some w => exact ih w
    | item i =>
      rw [child?_item]
      cases v.child? (.item i) with
      | none => exact Option.Rel.none
      | some w => exact keeps_item_at w (ih w)

end Redaction

open Redaction in
/-- **Redaction in production.** There is a value at a position of the redacted details exactly if
there is one in the details. A text that is looked at is removed if a client must not see it, so
that every text left there may be seen; all else keeps its keys, its length, or itself. -/
theorem Settings.redacted_details {s : Settings} (h : s.deployment = .production) (details : Fields)
    (p : Json.Position) :
    Option.Rel (Keeps (LookedAt p)) ((Json.obj details).at? p)
        ((Json.obj (s.redacted details)).at? p) ∧
      (LookedAt p → ∀ text, (Json.obj (s.redacted details)).at? p = some (.str text) →
        ¬ Sensitive text) := by
  have hredacted : Json.obj (s.redacted details) = value (.obj details) := by
    rw [redacted, if_pos h, value]
  have hkeeps := keeps_at (.obj details) p
  rw [hredacted]
  refine ⟨hkeeps, fun hl text htext => ?_⟩
  rw [htext] at hkeeps
  generalize (Json.obj details).at? p = before at hkeeps
  cases hkeeps with
  | some hkept => exact hkept.not_sensitive hl

/-- Details with a trace in an object of a list, and with the path of a file beside it. -/
def Redaction.quotingDetails : Fields :=
  [("errors", .arr [.obj [("msg", .str "Traceback (most recent call last): ...")],
    .str "/srv/app/main.py"])]

open Redaction in
theorem Settings.redacted_details_quoted :
    let s : Settings := { deployment := .production }
    let p : Json.Position := [.field 0, .item 0, .field 0]
    s.deployment = .production ∧ LookedAt p ∧
      Option.Rel (Keeps (LookedAt p))
        (some (.str "Traceback (most recent call last): ...")) (some (.str replacement)) ∧
      ¬ Sensitive replacement := by
  intro s p
  have hbefore : (Json.obj quotingDetails).at? p =
      some (.str "Traceback (most recent call last): ...") := rfl
  have hafter : (Json.obj (s.redacted quotingDetails)).at? p = some (.str replacement) := by
    decide +kernel
  have hlooked : LookedAt p := trivial
  obtain ⟨hkeeps, hseen⟩ := Settings.redacted_details (s := s) rfl quotingDetails p
  rw [hbefore, hafter] at hkeeps
  exact ⟨rfl, hlooked, hkeeps, hseen hlooked replacement hafter⟩

open Redaction in
/-- **A path beside it is not looked at**: a text that is an item of a list stays although a client
must not see it. -/
theorem Settings.redacted_leaves_listed_text :
    let s : Settings := { deployment := .production }
    (Json.obj (s.redacted quotingDetails)).at? [.field 0, .item 1] =
      some (.str "/srv/app/main.py") ∧ Sensitive "/srv/app/main.py" := by
  refine ⟨?_, (isSensitive_iff _).mp (by decide +kernel)⟩
  rfl

end AccessTree
