import AccessTree.Json.Printer
import AccessTree.Digest.Sha256

/-! # The canonical form of a value

`sorted` orders the fields of every object by key, code point by code point; items keep their order.
The canonical text is the sorted value in the compact layout, so two values have the same canonical
text exactly when they differ in the order of fields only. The fingerprint is its digest. The text
for display keeps the order of fields, and is empty for `null`. A value has these texts if it can be
written (`writeCanonical`, `writeFingerprint`, `writeDisplayed`). -/

namespace AccessTree.Json

/-- Fields in the order of their keys. -/
def sortFields (fields : Fields) : Fields := fields.mergeSort fun a b => decide (a.1 ≤ b.1)

mutual
/-- The value with the fields of all its objects in the order of their keys. -/
def sorted : Json → Json
  | .arr items => .arr (sortedItems items)
  | .obj fields => .obj (sortFields (sortedFields fields))
  | v => v

/-- The items, each sorted. -/
def sortedItems : List Json → List Json
  | [] => []
  | v :: vs => sorted v :: sortedItems vs

/-- The fields in their own order, the value of each sorted. -/
def sortedFields : List (String × Json) → List (String × Json)
  | [] => []
  | (k, v) :: rest => (k, sorted v) :: sortedFields rest
end

/-- **The canonical text** of a value. -/
def canonical (v : Json) : String := v.sorted.render .compact

/-- The digest of the canonical text. -/
def fingerprint (v : Json) : String := Digest.Sha256.hexOfText v.canonical

/-- The text for display. -/
def displayed : Json → String
  | .null => ""
  | v => v.render .display

/-! ### Texts of values that can be written -/

/-- The canonical text of a value, if it can be written. -/
def writeCanonical (v : Json) : Except NumeralFault String := v.sorted.write .compact

/-- The digest of the canonical text of a value, if it can be written. -/
def writeFingerprint (v : Json) : Except NumeralFault String :=
  v.writeCanonical.map Digest.Sha256.hexOfText

/-- The text for display of a value, if it can be written. -/
def writeDisplayed : Json → Except NumeralFault String
  | .null => .ok ""
  | v => v.write .display

end AccessTree.Json
