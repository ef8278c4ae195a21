import AccessTree.Condition.Document
import AccessTree.Proofs.Json.Layout

/-! # The displayed condition and its fingerprint

The text that is displayed is not the text whose digest is the fingerprint: it is laid out for
reading and keeps the order of the fields. Both tell the same document: the displayed text of a
condition is read as its document, in the same order, so that the canonical text and the fingerprint
of what is read are those of the condition (`Condition.read_displayed`). A document that holds an
integer of more digits than can be written has no text in the first place. -/

namespace AccessTree

namespace Json

theorem integerFault?_eq_none {n : Int} (h : Text.writeInt n ≠ .error .tooLongToWrite) :
    (int n).integerFault? = none := by
  rw [Text.writeInt] at h
  rw [integerFault?]
  split at h <;> simp_all

/-- What can be written has no integer with too many digits. -/
theorem overlong?_eq_none {v : Json} (h : v.isWritable = true) : v.overlong? = none := by
  rw [overlong?, List.findSome?_eq_none_iff]
  intro p hp
  cases p with
  | int n =>
    refine integerFault?_eq_none fun hlong => ?_
    rw [isWritable_eq_false.mpr ⟨n, hp, hlong⟩] at h
    cases h
  | null | bool | float | str | arr | obj => rfl

/-- A value that can be written is read back from its text. -/
theorem read_render_of_isWritable {l : Layout} (hl : l.Plain) {v : Json} (hd : v.Distinct)
    (h : v.isWritable = true) : read (v.render l) = .ok v := by
  rw [read_render hl hd, overlong?_eq_none h, readUnless]

/-- **The text for display** is written of the values that can be written. -/
theorem writeDisplayed_eq (v : Json) : v.writeDisplayed = v.written displayed := by
  cases v <;> rfl

end Json

theorem Condition.displayed_toDocument (c : Condition) :
    c.toDocument.displayed = c.toDocument.render .display := by
  cases c <;> simp only [toDocument, ContractCall.toDocument, Json.displayed]

/-- **What is displayed is read as the document** of the condition, with the fields in the same
order, and has the canonical text and the fingerprint of the condition; nothing is displayed only if
an integer in the document cannot be written. -/
theorem Condition.read_displayed {c : Condition} (hd : c.toDocument.Distinct) :
    (∃ d, Json.read c.toDocument.displayed = .ok d ∧ d = c.toDocument ∧
      d.canonical = c.toDocument.canonical ∧ d.fingerprint = c.toDocument.fingerprint ∧
      c.toDocument.writeDisplayed = .ok c.toDocument.displayed ∧
      c.toDocument.writeCanonical = .ok d.canonical ∧
      c.toDocument.writeFingerprint = .ok d.fingerprint) ∨
    (∃ n, .int n ∈ c.toDocument.parts ∧ Text.writeInt n = .error .tooLongToWrite) ∧
      c.toDocument.writeDisplayed = .error .tooLongToWrite := by
  rw [Json.writeDisplayed_eq, Json.writeCanonical_eq, Json.writeFingerprint_eq]
  cases hw : c.toDocument.isWritable with
  | true =>
    refine .inl ⟨c.toDocument, ?_, rfl, rfl, rfl, Json.written_eq_ok.mpr ⟨hw, rfl⟩,
      Json.written_eq_ok.mpr ⟨hw, rfl⟩, Json.written_eq_ok.mpr ⟨hw, rfl⟩⟩
    rw [displayed_toDocument]
    exact Json.read_render_of_isWritable Layout.plain_display hd hw
  | false => exact .inr ⟨Json.isWritable_eq_false.mp hw, Json.written_eq_error.mpr ⟨hw, rfl⟩⟩

/-- A call of a contract inside two operators, with an interface of its own and with texts that have
to be escaped. -/
def nestedCall : Condition :=
  .compound .and [
    .compound .not [.contract {
      chain := .polygon
      address := "0x1e988ba4692e52Bc50b375bcC8585b95c48AaD77"
      method := "balances\n\\of\""
      parameters := [.str ":userAddress", .arr [], .obj [], .arr [.int (-5), .null, .bool true]]
      standard := none
      abi := some [("name", .str "b\x01\t é\x7f"), ("inputs", .arr [.obj [("type", .str "")]]),
        ("constant", .float (.finite true (1 <<< 52) 1022 (by decide)))]
      test := ⟨.ne, .obj [("0", .int 12345678901234567890)], [("index", .int 0)]⟩ }],
    .time .sepolia ⟨.ge, .float .nan, []⟩]

theorem Condition.read_displayed_nestedCall :
    nestedCall.toDocument.Distinct ∧
      ∃ d, Json.read nestedCall.toDocument.displayed = .ok d ∧ d = nestedCall.toDocument ∧
        d.canonical = nestedCall.toDocument.canonical ∧
        d.fingerprint = nestedCall.toDocument.fingerprint ∧
        nestedCall.toDocument.writeDisplayed = .ok nestedCall.toDocument.displayed ∧
        nestedCall.toDocument.writeCanonical = .ok d.canonical ∧
        nestedCall.toDocument.writeFingerprint = .ok d.fingerprint := by
  have hd : nestedCall.toDocument.Distinct := by decide
  refine ⟨hd, (Condition.read_displayed hd).resolve_right ?_⟩
  rintro ⟨hlong, -⟩
  have hw : nestedCall.toDocument.isWritable = true := by decide
  rw [Json.isWritable_eq_false.mpr hlong] at hw
  cases hw

end AccessTree
