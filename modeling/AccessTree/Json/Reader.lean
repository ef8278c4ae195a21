import AccessTree.Json.Basic
import AccessTree.Text.Encoding

/-! # Reading JSON text

`Json.read` reads one value with blanks around it. Only the space, tab, line feed and carriage
return are blanks here. Besides standard JSON it accepts `NaN`, `Infinity` and `-Infinity`; a
repeated key keeps its first place and its last value; half of a surrogate pair reads as the
replacement character. A numeral without point and exponent is an integer.

What is wrong with a text is a `Malformed` cause and the offset where it shows. While a text is
read, places in it are counted from its end, by the number of characters left; `read` turns them
into offsets. The recursion is bounded by twice the length of the text, since every second call
consumes a character. -/

namespace AccessTree.Json

/-- What can be wrong with JSON text. -/
inductive Malformed where
  | noValue
  | noComma
  | noColon
  | noKey
  | extraText
  | openString
  | controlCharacter
  | badEscape
  | badCodeEscape
  | byteOrderMark
  deriving DecidableEq, Repr

/-- Why a text cannot be read. -/
inductive ReadFault where
  | malformed (cause : Malformed) (offset : Nat)
  | numeral (fault : NumeralFault)
  deriving DecidableEq, Repr

/-- The result of reading; a reader of part of a text gives the characters left as well. -/
abbrev Reading := Except ReadFault

/-- Whether a character may stand between tokens. -/
def isSpace (c : Char) : Bool := c = ' ' || c = '\t' || c = '\n' || c = '\r'

/-- The characters from the first one that is no blank. -/
def skip (cs : List Char) : List Char := cs.dropWhile isSpace

/-! ### Strings -/

/-- The value of a hexadecimal digit. -/
def hexValue? (c : Char) : Option Nat :=
  if c.isDigit then some (c.toNat - 48)
  else if 'a' ≤ c ∧ c ≤ 'f' then some (c.toNat - 87)
  else if 'A' ≤ c ∧ c ≤ 'F' then some (c.toNat - 55)
  else none

/-- The number that the first four characters spell in hexadecimal. -/
def hexUnit? : List Char → Option Nat
  | a :: b :: c :: d :: _ => do
    return 4096 * (← hexValue? a) + 256 * (← hexValue? b) + 16 * (← hexValue? c) + (← hexValue? d)
  | _ => none

/-- What a backslash and one more character stand for. -/
def shortEscape? : Char → Option Char
  | '"' => some '"'
  | '\\' => some '\\'
  | '/' => some '/'
  | 'b' => some '\x08'
  | 'f' => some '\x0C'
  | 'n' => some '\n'
  | 'r' => some '\r'
  | 't' => some '\t'
  | _ => none

/-- The character that the text after `\u` stands for, and how many characters of it are used. At
least one character has to follow an escape. -/
def codeEscape (cs : List Char) : Reading (Char × Nat) :=
  match hexUnit? cs, cs.drop 4 with
  | none, _ | _, [] => .error (.malformed .badCodeEscape (cs.length + 1))
  | some high, '\\' :: 'u' :: rest =>
    if Text.isHighHalf high && 4 < rest.length then
      match hexUnit? rest with
      | none => .error (.malformed .badCodeEscape (rest.length + 1))
      | some low =>
        if Text.isLowHalf low then .ok (Text.pairChar high low, 10)
        else .ok (Text.loneUnit high, 4)
    else .ok (Text.loneUnit high, 4)
  | some unit, _ => .ok (Text.loneUnit unit, 4)

/-- The character that the text after a backslash stands for, and how many characters of it are
used. The string starts `start` characters before the end. -/
def escape (start : Nat) : List Char → Reading (Char × Nat)
  | [] => .error (.malformed .openString start)
  | 'u' :: cs => (codeEscape cs).map fun (c, used) => (c, used + 1)
  | c :: cs =>
    match shortEscape? c with
    | some d => .ok (d, 1)
    | none => .error (.malformed .badEscape (cs.length + 2))

/-- The characters of a string up to its closing quote. -/
def stringBody (start : Nat) (cs : List Char) : Reading (List Char × List Char) :=
  match cs with
  | [] => .error (.malformed .openString start)
  | '"' :: rest => .ok ([], rest)
  | '\\' :: rest => do
    let (c, used) ← escape start rest
    let (more, left) ← stringBody start (rest.drop used)
    return (c :: more, left)
  | c :: rest =>
    if c.toNat < 0x20 then .error (.malformed .controlCharacter (rest.length + 1))
    else do
      let (more, left) ← stringBody start rest
      return (c :: more, left)
termination_by cs.length
decreasing_by
  · rw [List.length_drop, List.length_cons]; omega
  · exact Nat.lt_succ_self _

/-- The string whose opening quote was just read. -/
def string (cs : List Char) : Reading (String × List Char) := do
  let (body, left) ← stringBody (cs.length + 1) cs
  return (String.ofList body, left)

/-! ### Numbers and words -/

/-- The digits at the front. -/
def takeDigits : List Char → List Nat × List Char
  | [] => ([], [])
  | c :: cs =>
    match Text.asciiDigit? c with
    | none => ([], c :: cs)
    | some d => let (ds, left) := takeDigits cs; (d :: ds, left)

/-- The digits of the whole part of a number: a zero, or digits that do not start with zero. -/
def wholePart? : List Char → Option (List Nat × List Char)
  | '0' :: cs => some ([0], cs)
  | cs =>
    match takeDigits cs with
    | ([], _) => none
    | part => some part

/-- The digits after a point, none if there is no point with a digit after it. -/
def fractionPart : List Char → List Nat × List Char
  | '.' :: cs =>
    match takeDigits cs with
    | ([], _) => ([], '.' :: cs)
    | part => part
  | cs => ([], cs)

/-- The sign of an exponent, `true` for minus. -/
def exponentSign : List Char → Bool × List Char
  | '-' :: cs => (true, cs)
  | '+' :: cs => (false, cs)
  | cs => (false, cs)

/-- The exponent after `e` or `E`, if there is one. -/
def exponentPart? : List Char → Option (Int × List Char)
  | c :: cs =>
    if c = 'e' ∨ c = 'E' then
      let (negative, digits) := exponentSign cs
      match takeDigits digits with
      | ([], _) => none
      | (ds, left) => some (Text.signed negative (Text.ofDigits ds), left)
    else none
  | [] => none

/-- The number without its sign. -/
def unsignedNumber (negative : Bool) (cs : List Char) :
    Option (Except NumeralFault Json × List Char) :=
  (wholePart? cs).map fun (whole, afterWhole) =>
    let (fraction, afterFraction) := fractionPart afterWhole
    let float (e : Int) : Json :=
      .float (.ofDecimal negative (Text.ofDigits (whole ++ fraction)) (e - fraction.length))
    match exponentPart? afterFraction, fraction with
    | some (e, left), _ => (.ok (float e), left)
    | none, _ :: _ => (.ok (float 0), afterFraction)
    | none, [] =>
      ((Text.readDigits whole).map fun n => .int (Text.signed negative n), afterFraction)

/-- The number at the front, if there is one. -/
def number? : List Char → Option (Except NumeralFault Json × List Char)
  | '-' :: cs => unsignedNumber true cs
  | cs => unsignedNumber false cs

/-- The values that are written as words. -/
def words : List (String × Json) :=
  [("null", .null), ("true", .bool true), ("false", .bool false), ("NaN", .float .nan),
    ("Infinity", .float (.infinite false)), ("-Infinity", .float (.infinite true))]

/-- The word at the front, if there is one. -/
def word? (cs : List Char) : Option (Json × List Char) :=
  words.findSome? fun (w, v) => (Text.afterStem? w.toList cs).map (v, ·)

/-- The word or number at the front. -/
def scalar (cs : List Char) : Reading (Json × List Char) :=
  match word? cs, number? cs with
  | some (v, left), _ => .ok (v, left)
  | none, some (.ok v, left) => .ok (v, left)
  | none, some (.error fault, _) => .error (.numeral fault)
  | none, none => .error (.malformed .noValue cs.length)

/-! ### Values -/

mutual
/-- The value at the front. -/
def value : Nat → List Char → Reading (Json × List Char)
  | 0, cs => .error (.malformed .noValue cs.length)
  | bound + 1, cs =>
    match cs with
    | '"' :: rest => do
      let (s, left) ← string rest
      return (.str s, left)
    | '[' :: rest =>
      match skip rest with
      | ']' :: left => .ok (.arr [], left)
      | first => do
        let (vs, left) ← items bound first
        return (.arr vs, left)
    | '{' :: rest =>
      match skip rest with
      | '}' :: left => .ok (.obj [], left)
      | first => members bound [] first
    | cs => scalar cs

/-- The items up to the closing bracket. -/
def items : Nat → List Char → Reading (List Json × List Char)
  | 0, cs => .error (.malformed .noValue cs.length)
  | bound + 1, cs => do
    let (v, afterValue) ← value bound cs
    match skip afterValue with
    | ']' :: left => return ([v], left)
    | ',' :: rest =>
      let (vs, left) ← items bound (skip rest)
      return (v :: vs, left)
    | rest => .error (.malformed .noComma rest.length)

/-- The object whose fields so far are `fields` and whose next key is at the front. -/
def members : Nat → Fields → List Char → Reading (Json × List Char)
  | bound + 1, fields, '"' :: rest => do
    let (key, afterKey) ← string rest
    match skip afterKey with
    | ':' :: rest =>
      let (v, afterValue) ← value bound (skip rest)
      match skip afterValue with
      | '}' :: left => return (.obj (setField fields key v), left)
      | ',' :: rest => members bound (setField fields key v) (skip rest)
      | rest => .error (.malformed .noComma rest.length)
    | rest => .error (.malformed .noColon rest.length)
  | _, _, cs => .error (.malformed .noKey cs.length)
end

/-- The value that a text consists of; a fault is placed by the number of characters left. -/
def whole (cs : List Char) : Reading Json :=
  match cs with
  | '\uFEFF' :: _ => .error (.malformed .byteOrderMark cs.length)
  | cs => do
    let (v, rest) ← value (2 * cs.length + 1) (skip cs)
    match skip rest with
    | [] => return v
    | extra => .error (.malformed .extraText extra.length)

/-- **The value that a text consists of.** -/
def readChars (cs : List Char) : Reading Json :=
  match whole cs with
  | .error (.malformed cause left) => .error (.malformed cause (cs.length - left))
  | result => result

/-- The value that a text consists of. -/
def read (s : String) : Reading Json := readChars s.toList

/-! ### Wording -/

/-- The wording of a cause. -/
def Malformed.message : Malformed → String
  | .noValue => "Expecting value"
  | .noComma => "Expecting ',' delimiter"
  | .noColon => "Expecting ':' delimiter"
  | .noKey => "Expecting property name enclosed in double quotes"
  | .extraText => "Extra data"
  | .openString => "Unterminated string starting at"
  | .controlCharacter => "Invalid control character at"
  | .badEscape => "Invalid \\escape"
  | .badCodeEscape => "Invalid \\uXXXX escape"
  | .byteOrderMark => "Unexpected UTF-8 BOM (decode using utf-8-sig)"

end AccessTree.Json
