import AccessTree.Literal
import AccessTree.Schema.Checked

/-! # Readers of values and fields

Readers for the simple shapes: texts, truth values, integers, literals, words and objects. Some are
lenient: a truth value may also be written as a number or a word, and an integer as a text, a truth
value or a whole floating point number, as long as the number fits into a word of 64 bits. A field
may be given under either of two names, the one used on the wire and the plain one; the wire name
wins. -/

namespace AccessTree.Schema

variable {α : Type}

/-! ### Simple shapes -/

/-- Any value. -/
def any (v : Json) : Checked Json := .ok v

/-- A text. -/
def text : Json → Checked String
  | .str s => .ok s
  | v => .reject .notText v

/-- A text with at least one character. -/
def nonemptyText : Json → Checked String
  | .str "" => .reject .tooShort (.str "")
  | v => text v

/-- An object. -/
def object : Json → Checked Fields
  | .obj fields => .ok fields
  | v => .reject .notObject v

/-- A list of what `read` reads. -/
def list (read : Json → Checked α) : Json → Checked (List α)
  | .arr items => Checked.items read 0 items
  | v => .reject .notList v

/-- `null`, or what `read` reads. -/
def nullable (read : Json → Checked α) : Json → Checked (Option α)
  | .null => .ok none
  | v => some <$> read v

/-- A member of a finite type, by its name. -/
def word (α : Type) [Word α] : Json → Checked α
  | .str s =>
    match Word.ofName? s with
    | some a => .ok a
    | none => .reject (.notOneOf (IssueCause.quotedNames (Word.names α))) (.str s)
  | v => .reject (.notOneOf (IssueCause.quotedNames (Word.names α))) v

/-- One fixed text. -/
def exactly (s : String) (v : Json) : Checked Unit :=
  if v = .str s then .ok () else .reject (.notOneOf (IssueCause.quotedNames [s])) v

/-- A text or a number; a truth value reads as one or zero. Anything else is three issues, one for
each shape that was tried. -/
def literal : Json → Checked Literal
  | .str s => .ok (.text s)
  | .int n => .ok (.int n)
  | .float x => .ok (.float x)
  | .bool b => .ok (.int (if b then 1 else 0))
  | v =>
    .rejected [⟨.notText, [.field "str"], v⟩, ⟨.notInteger, [.field "int"], v⟩,
      ⟨.notNumber, [.field "float"], v⟩]

/-- Whether an integer fits into a word of 64 bits. -/
def isWord (n : Int) : Bool := -(1 <<< 63) ≤ n && n < 1 <<< 63

/-- The integer that is equal to a floating point number and fits into a word with its negative. -/
def wordOf? (x : Binary64) : Option Int := x.toInt?.filter fun n => n.natAbs < 1 <<< 63

/-! ### Truth values -/

/-- The words for false. -/
def falseWords : List String := ["0", "off", "f", "false", "n", "no"]

/-- The words for true. -/
def trueWords : List String := ["1", "on", "t", "true", "y", "yes"]

/-- The truth value of a number. -/
def truthOfInt (v : Json) (n : Int) : Checked Bool :=
  if n = 0 then .ok false else if n = 1 then .ok true else .reject .unreadableTruthValue v

/-- A truth value, a number that is zero or one, or a word in any case. -/
def truth : Json → Checked Bool
  | .bool b => .ok b
  | .int n => if isWord n then truthOfInt (.int n) n else .reject .notTruthValue (.int n)
  | .float x =>
    match wordOf? x with
    | some n => truthOfInt (.float x) n
    | none => .reject .notTruthValue (.float x)
  | .str s =>
    if falseWords.contains s.toLower then .ok false
    else if trueWords.contains s.toLower then .ok true
    else .reject .unreadableTruthValue (.str s)
  | v => .reject .notTruthValue v

/-! ### Integers -/

/-- The blanks that may surround an integer: all but the information separators. -/
def isPadding (c : Char) : Bool := Text.isBlank c && !(0x1C ≤ c.toNat && c.toNat ≤ 0x1F)

/-- Characters without padding. -/
def unpadded (cs : List Char) : List Char :=
  ((cs.dropWhile isPadding).reverse.dropWhile isPadding).reverse

/-- Characters without a plus sign at the front. -/
def withoutPlus : List Char → List Char
  | '+' :: cs => if cs.head? = some '-' then '+' :: cs else cs
  | cs => cs

/-- Characters without a fraction of zeros. -/
def withoutZeroFraction (cs : List Char) : List Char :=
  if (cs.dropWhile (· ≠ '.')).drop 1 |>.all (· = '0') then cs.takeWhile (· ≠ '.') else cs

/-- Whether no underscore stands beside another one or at the end. -/
def isGrouped : List Char → Bool
  | [] => true
  | ['_'] => false
  | '_' :: '_' :: _ => false
  | _ :: cs => isGrouped cs

/-- Characters without the underscores that group them. -/
def ungrouped (cs : List Char) : List Char :=
  if cs.head? ≠ some '_' && isGrouped cs then cs.filter (· ≠ '_') else cs

/-- Characters without zeros before another digit. -/
def withoutZeros : List Char → List Char
  | '0' :: c :: cs => if c.isDigit then withoutZeros (c :: cs) else '0' :: c :: cs
  | cs => cs

/-- The numeral that a text shows with blanks around it, a plus sign, zeros that do not count, or
groups of digits. -/
def shownNumeral (cs : List Char) : List Char :=
  withoutZeros (ungrouped (withoutZeroFraction (withoutPlus (unpadded cs))))

/-- How long the numeral at the front is, with its sign. -/
def numeralLength (cs : List Char) : Nat := (cs.takeWhile fun c => c = '-' || c.isDigit).length

/-- The number that digits spell which do not start with a zero that does not count. -/
def digits? : List Char → Option Nat
  | '0' :: _ :: _ => none
  | cs => (Text.unsigned? cs).map Text.ofDigits

/-- The integer that a numeral spells. -/
def numeral? : List Char → Option Int
  | '-' :: cs => (digits? cs).map (Text.signed true)
  | cs => (digits? cs).map (Text.signed false)

/-- Why a floating point number does not read as an integer. -/
def notWordCause (x : Binary64) : IssueCause :=
  if !x.isFinite then .notFinite
  else if x.toInt?.isSome then .overlongInteger
  else .fractionalInteger

/-- An integer, a truth value, a whole floating point number, or a text that spells an integer. -/
def integer : Json → Checked Int
  | .int n => .ok n
  | .bool b => .ok (if b then 1 else 0)
  | .float x =>
    match wordOf? x with
    | some n => .ok n
    | none => .reject (notWordCause x) (.float x)
  | .str s =>
    let cs := shownNumeral s.toList
    if Text.maxDigits < numeralLength cs then .reject .overlongInteger (.str s)
    else
      match numeral? cs with
      | some n => .ok n
      | none => .reject .unreadableInteger (.str s)
  | v => .reject .notInteger v

/-! ### Fields -/

/-- The two names of a field. -/
structure FieldName where
  /-- The name used on the wire. -/
  wire : String
  /-- The plain name. -/
  plain : String

/-- A field with one name only. -/
def FieldName.same (name : String) : FieldName := ⟨name, name⟩

/-- The value of a field and the name it is given under. -/
def find? (fields : Fields) (name : FieldName) : Option (String × Json) :=
  match fields.lookup name.wire with
  | some v => some (name.wire, v)
  | none => (fields.lookup name.plain).map (name.plain, ·)

/-- A field that has to be there. -/
def required (fields : Fields) (name : FieldName) (read : Json → Checked α) : Checked α :=
  match find? fields name with
  | some (given, v) => (read v).under (.field given)
  | none => .rejected [⟨.missing, [.field name.wire], .obj fields⟩]

/-- A field with a default. -/
def optional (fields : Fields) (name : FieldName) (default : α) (read : Json → Checked α) :
    Checked α :=
  match find? fields name with
  | some (given, v) => (read v).under (.field given)
  | none => .ok default

/-- The fields that no name is for, or that are given under a plain name beside the wire name. -/
def unknownFields (names : List FieldName) (fields : Fields) : Fields :=
  fields.filter fun (k, _) =>
    !names.any fun n => k = n.wire || (k = n.plain && (fields.lookup n.wire).isNone)

/-- Rejects every field that is not known. -/
def closed (names : List FieldName) (fields : Fields) : Checked Unit :=
  match unknownFields names fields with
  | [] => .ok ()
  | unknown => .rejected (unknown.map fun (k, v) => ⟨.unknownField, [.field k], v⟩)

end AccessTree.Schema
