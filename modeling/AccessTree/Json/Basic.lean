import AccessTree.Binary64.Shortest

/-! # JSON values

A `Json` value keeps the order of its object fields, and integers and floating point numbers are
different values: `1` and `1.0` are not equal. A field list may name a key once only; `setField`
keeps that, and readers build objects with it.

Every walk over a value is a triple of functions, for a value, for the items of a list and for the
fields of an object. `portable` is the first of them: it replaces the numbers that JSON cannot
write, `nan` and the infinities, by `null`.

An integer may be too long to be written (`Text.writeInt`), and so may any value that holds one; the
others are writable (`Json.isWritable`). Whatever makes a text of a value fails with the fault of
the numeral unless the value is writable (`Json.written`). That includes the report of a fault: if
it would show a value that is not writable, the numeral is what fails (`Json.faultShowing`). -/

namespace AccessTree

/-- **A JSON value** with ordered fields. -/
inductive Json where
  | null
  | bool (b : Bool)
  | int (n : Int)
  | float (x : Binary64)
  | str (s : String)
  | arr (items : List Json)
  | obj (fields : List (String × Json))
  deriving Inhabited

/-- The fields of an object, in order. -/
abbrev Fields := List (String × Json)

namespace Json

/-! ### Equality -/

mutual
/-- Decides equality of values. -/
def decEq : (a b : Json) → Decidable (a = b)
  | .null, .null => isTrue rfl
  | .bool a, .bool b => decidable_of_iff (a = b) (by simp)
  | .int a, .int b => decidable_of_iff (a = b) (by simp)
  | .float a, .float b => decidable_of_iff (a = b) (by simp)
  | .str a, .str b => decidable_of_iff (a = b) (by simp)
  | .arr a, .arr b =>
    match decEqItems a b with
    | isTrue h => isTrue (by rw [h])
    | isFalse h => isFalse (by simpa using h)
  | .obj a, .obj b =>
    match decEqFields a b with
    | isTrue h => isTrue (by rw [h])
    | isFalse h => isFalse (by simpa using h)
  | .null, .bool _ | .null, .int _ | .null, .float _ | .null, .str _ | .null, .arr _
  | .null, .obj _ | .bool _, .null | .bool _, .int _ | .bool _, .float _ | .bool _, .str _
  | .bool _, .arr _ | .bool _, .obj _ | .int _, .null | .int _, .bool _ | .int _, .float _
  | .int _, .str _ | .int _, .arr _ | .int _, .obj _ | .float _, .null | .float _, .bool _
  | .float _, .int _ | .float _, .str _ | .float _, .arr _ | .float _, .obj _ | .str _, .null
  | .str _, .bool _ | .str _, .int _ | .str _, .float _ | .str _, .arr _ | .str _, .obj _
  | .arr _, .null | .arr _, .bool _ | .arr _, .int _ | .arr _, .float _ | .arr _, .str _
  | .arr _, .obj _ | .obj _, .null | .obj _, .bool _ | .obj _, .int _ | .obj _, .float _
  | .obj _, .str _ | .obj _, .arr _ => isFalse (by simp)

/-- Decides equality of items. -/
def decEqItems : (a b : List Json) → Decidable (a = b)
  | [], [] => isTrue rfl
  | [], _ :: _ | _ :: _, [] => isFalse (by simp)
  | a :: as, b :: bs =>
    match decEq a b, decEqItems as bs with
    | isTrue h, isTrue hs => isTrue (by rw [h, hs])
    | isFalse h, _ => isFalse (by simp [h])
    | _, isFalse hs => isFalse (by simp [hs])

/-- Decides equality of fields. -/
def decEqFields : (a b : List (String × Json)) → Decidable (a = b)
  | [], [] => isTrue rfl
  | [], _ :: _ | _ :: _, [] => isFalse (by simp)
  | (k, a) :: as, (l, b) :: bs =>
    match decidable_of_iff (k = l) Iff.rfl, decEq a b, decEqFields as bs with
    | isTrue hk, isTrue h, isTrue hs => isTrue (by rw [hk, h, hs])
    | isFalse hk, _, _ => isFalse (by simp [hk])
    | _, isFalse h, _ => isFalse (by simp [h])
    | _, _, isFalse hs => isFalse (by simp [hs])
end

instance : DecidableEq Json := decEq

/-! ### Fields -/

/-- The value of a key, `null` if there is none. -/
def valueAt (fields : Fields) (key : String) : Json := (fields.lookup key).getD .null

/-- Gives a key a value, in the place of the key or else at the end. -/
def setField : Fields → String → Json → Fields
  | [], key, v => [(key, v)]
  | (k, w) :: rest, key, v => if k = key then (k, v) :: rest else (k, w) :: setField rest key v

/-! ### Classes of values -/

/-- The name of a value's class. -/
def className : Json → String
  | .null => "NoneType"
  | .bool _ => "bool"
  | .int _ => "int"
  | .float _ => "float"
  | .str _ => "str"
  | .arr _ => "list"
  | .obj _ => "dict"

/-- Whether a value is neither `null`, `false`, zero nor empty. -/
def isTruthy : Json → Bool
  | .null => false
  | .bool b => b
  | .int n => n ≠ 0
  | .float x => x.toInt? ≠ some 0
  | .str s => s ≠ ""
  | .arr items => !items.isEmpty
  | .obj fields => !fields.isEmpty

/-- Whether a value is numerically equal to `n`; truth values count as one and zero. -/
def isNumber (n : Int) : Json → Bool
  | .bool b => n = (if b then 1 else 0)
  | .int m => m = n
  | .float x => x.toInt? = some n
  | _ => false

/-- A list of texts. -/
def texts (ss : List String) : Json := .arr (ss.map .str)

/-- A natural number. -/
def nat (n : Nat) : Json := .int n

/-! ### Numbers that can be written -/

mutual
/-- The value with `null` for every number that is not finite. -/
def portable : Json → Json
  | .float x => if x.isFinite then .float x else .null
  | .arr items => .arr (portableItems items)
  | .obj fields => .obj (portableFields fields)
  | v => v

/-- The items with `null` for every number that is not finite. -/
def portableItems : List Json → List Json
  | [] => []
  | v :: vs => portable v :: portableItems vs

/-- The fields with `null` for every number that is not finite. -/
def portableFields : List (String × Json) → List (String × Json)
  | [] => []
  | (k, v) :: rest => (k, portable v) :: portableFields rest
end

mutual
/-- Whether no integer in a value is too long to be written. -/
def isWritable : Json → Bool
  | .int n => (Text.writeInt n).isOk
  | .arr items => isWritableItems items
  | .obj fields => isWritableFields fields
  | _ => true

/-- Whether all items can be written. -/
def isWritableItems : List Json → Bool
  | [] => true
  | v :: vs => isWritable v && isWritableItems vs

/-- Whether the values of all fields can be written. -/
def isWritableFields : List (String × Json) → Bool
  | [] => true
  | (_, v) :: rest => isWritable v && isWritableFields rest
end

/-- **A value that can be written.** -/
abbrev Writable := {v : Json // v.isWritable = true}

/-- A text that is made of a value, unless an integer in the value is too long to be written. -/
def written (text : Json → String) (v : Json) : Except NumeralFault String :=
  if v.isWritable then .ok (text v) else .error .tooLongToWrite

/-- The fault whose report shows a value, or the fault of an integer in it that is too long. -/
def faultShowing {ε : Type} (v : Json) (report : v.isWritable = true → ε)
    (numeral : NumeralFault → ε) : ε :=
  if h : v.isWritable = true then report h else numeral .tooLongToWrite

end Json

end AccessTree
